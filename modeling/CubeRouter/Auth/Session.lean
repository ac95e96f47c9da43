import CubeRouter.Lib.Expiring
import CubeRouter.Lib.Process

/-!
# Login sessions

`model/user_session.go` keeps a session in a row and a snapshot of it in Redis. The snapshot of an active session ends
at a deadline that was taken before the row was read; a revocation publishes a tombstone, commits and publishes the
tombstone again. No statement about one session reads or writes another, so the store is that of one session id, and
the part of `revokeUserSessions` that concerns other sessions is left out. Every call names the user of the session.
The clock counts milliseconds. A call whose database statement fails ends there, as one that is never continued.
-/

namespace CubeRouter.Auth

open Concurrency Expiring

inductive Status
  | active
  | revoking
  | revoked
  deriving DecidableEq

structure UserSession where
  userID : Int
  version : Int := 1
  userAuthVersion : Int
  status : Status := .active
  refreshHash : String
  previousRefreshHash : String := ""
  previousValidUntil : Int := 0
  lastActiveAt : Int := 0
  expiresAt : Int
  revokedAt : Int := 0
  revokedReason : String := ""

structure CacheEntry where
  userID : Int
  version : Int
  userAuthVersion : Int
  status : Status
  lastActiveAt : Int
  expiresAt : Int
  revokedAt : Int
  revokedReason : String

def UserSession.cacheEntry (s : UserSession) : CacheEntry :=
  ⟨s.userID, s.version, s.userAuthVersion, s.status, s.lastActiveAt, s.expiresAt, s.revokedAt, s.revokedReason⟩

def CacheEntry.session (e : CacheEntry) : UserSession where
  userID := e.userID
  version := e.version
  userAuthVersion := e.userAuthVersion
  status := e.status
  refreshHash := ""
  lastActiveAt := e.lastActiveAt
  expiresAt := e.expiresAt
  revokedAt := e.revokedAt
  revokedReason := e.revokedReason

def UserSession.Usable (s : UserSession) (now : Int) : Prop := s.status = .active ∧ s.revokedAt = 0 ∧ now < s.expiresAt

instance (s : UserSession) (now : Int) : Decidable (s.Usable now) := inferInstanceAs (Decidable (_ ∧ _))

def UserSession.revoke (s : UserSession) (now : Int) (reason : String) : UserSession :=
  { s with status := .revoked, revokedAt := now, revokedReason := reason }

/-! ## The store -/

/-- The account as `GetUserCache` or `GetUserById` has found it. -/
structure UserView where
  enabled : Bool
  authVersion : Int

structure Store where
  row : Option UserSession := none
  cache : Option (Key CacheEntry) := none
  clock : Int
  /-- When the row was revoked. Nothing reads it. -/
  revokedClock : Option Int := none
  /-- All the rows there have been. Nothing reads it. -/
  past : List UserSession := []
  /-- How the account was found. Nothing reads it. -/
  views : List UserView := []

inductive Expiration
  | «at» (t : Int)
  | after (n : Int)

def Expiration.time (clock : Int) : Expiration → Int
  | .at t => t
  | .after n => clock + n

inductive Lookup
  | failed
  | missing
  | found (e : CacheEntry)

inductive Reply
  | failed
  | refused
  | applied
  deriving DecidableEq

inductive Instr
  | now
  | readRow
  /-- A conditional `UPDATE`, or a transaction that locks the row and updates it; the answer is the row as it was. -/
  | update (f : UserSession → Option UserSession)
  | insert (row : UserSession)
  | readCache
  | eval (entry : CacheEntry) (expiration : Expiration)
  | userCache
  | userById
  | issueAccessToken

@[reducible] def Instr.Answer : Instr → Type
  | .now => Int
  | .readRow => Option UserSession
  | .update _ => Option UserSession
  | .insert _ => Bool
  | .readCache => Lookup
  | .eval _ _ => Reply
  | .userCache => Option UserView
  | .userById => Option UserView
  | .issueAccessToken => Bool

/-- What becomes of a request to Redis: an answer that is lost leaves its effect. -/
inductive Fate
  | done
  | failed
  | lost
  deriving DecidableEq

structure Choice where
  redis : Fate := .done
  user : Option UserView := none
  issued : Bool := true

/-- What the script leaves of an entry that it applies. -/
def Store.cached (s : Store) (entry : CacheEntry) (expires : Int) : Store :=
  { s with cache := put s.clock entry expires }

/-- The script of `writeUserSessionCache`. -/
def Store.script (s : Store) (entry : CacheEntry) (expiration : Expiration) : Reply × Store :=
  let current := live s.clock s.cache
  if entry.status = .active ∧ current.any fun e => e.status ≠ .active then (.refused, s)
  else if current.any fun e => entry.version < e.version then (.refused, s)
  else (.applied, s.cached entry (expiration.time s.clock))

def Store.save (s : Store) (row : UserSession) : Store :=
  { s with
    row := some row
    revokedClock := s.revokedClock.or (if row.status = .active then none else some s.clock)
    past := row :: s.past }

def Store.update (s : Store) (f : UserSession → Option UserSession) : Option UserSession × Store :=
  match s.row with
  | none => (none, s)
  | some row =>
    match f row with
    | none => (none, s)
    | some row' => (some row, s.save row')

section

variable {s : Store} {f : UserSession → Option UserSession}

theorem update_none (h : (s.update f).1 = none) : (s.update f).2 = s := by
  unfold Store.update at h ⊢
  split at h
  · rfl
  · split at h
    · rfl
    · cases h

theorem update_some {row : UserSession} (h : (s.update f).1 = some row) :
    ∃ row', s.row = some row ∧ f row = some row' ∧ (s.update f).2 = s.save row' := by
  unfold Store.update at h ⊢
  split at h
  · cases h
  · rename_i r hr
    split at h
    · cases h
    · rename_i r' hf
      cases h
      exact ⟨r', hr, hf, rfl⟩

theorem script_cases (s : Store) (entry : CacheEntry) (expiration : Expiration) :
    (s.script entry expiration = (.refused, s)) ∨
      (s.script entry expiration = (.applied, s.cached entry (expiration.time s.clock)) ∧
        (entry.status = .active → ∀ e, live s.clock s.cache = some e → e.status = .active)) := by
  unfold Store.script
  dsimp only
  split_ifs with hdeny hversion
  · exact .inl rfl
  · exact .inl rfl
  · refine .inr ⟨rfl, fun hactive e he => ?_⟩
    by_contra hstatus
    exact hdeny ⟨hactive, by simp [he, hstatus]⟩

end

def exec : (i : Instr) → Choice → Store → i.Answer × Store
  | .now, _, s => (s.clock, s)
  | .readRow, _, s => (s.row, s)
  | .update f, _, s => s.update f
  | .insert row, _, s => if s.row.isNone then (true, { s with row := some row, past := row :: s.past }) else (false, s)
  | .readCache, w, s =>
    match w.redis, live s.clock s.cache with
    | .done, some e => (.found e, s)
    | .done, none => (.missing, s)
    | _, _ => (.failed, s)
  | .eval entry expiration, w, s =>
    match w.redis with
    | .done => s.script entry expiration
    | .failed => (.failed, s)
    | .lost => (.failed, (s.script entry expiration).2)
  | .userCache, w, s => (w.user, { s with views := w.user.toList ++ s.views })
  | .userById, w, s => (w.user, { s with views := w.user.toList ++ s.views })
  | .issueAccessToken, w, s => (w.issued, s)

abbrev Call (α : Type) := Prog Instr Instr.Answer α

abbrev clock : Call Int := perform Instr.now

abbrev readRow : Call (Option UserSession) := perform Instr.readRow

abbrev update (f : UserSession → Option UserSession) : Call (Option UserSession) := perform (Instr.update f)

abbrev insert (row : UserSession) : Call Bool := perform (Instr.insert row)

abbrev readCache : Call Lookup := perform Instr.readCache

abbrev userCache : Call (Option UserView) := perform Instr.userCache

abbrev userById : Call (Option UserView) := perform Instr.userById

abbrev issueAccessToken : Call Bool := perform Instr.issueAccessToken

abbrev evalScript (entry : CacheEntry) (expiration : Expiration) : Call Reply := perform (Instr.eval entry expiration)

/-! ## Snapshots -/

/-- `cacheSeconds` is `common.RedisKeyCacheSeconds()`. -/
def userCacheTTLSeconds (cacheSeconds : Int) : Int := if cacheSeconds ≤ 0 then 60 else cacheSeconds

def unix : Call Int := do
  let now ← clock
  return now / 1000

inductive WriteError
  | invalid
  | stale
  | inactive
  | redis
  deriving DecidableEq

variable (cacheSeconds : Int)

def userSessionCacheDeadline : Call Int := do
  let now ← clock
  return now + userCacheTTLSeconds cacheSeconds * 1000

def writeActive (entry : CacheEntry) (deadline : Int) : Call (Option WriteError) := do
  let now ← clock
  let sessionExpiresAt := entry.expiresAt * 1000
  if deadline - now ≤ 0 then return some .stale
  else if sessionExpiresAt - now ≤ 0 then return some .inactive
  else if min deadline sessionExpiresAt - now < 1 then return some .stale
  else
    match ← evalScript entry (.at (min deadline sessionExpiresAt)) with
    | .failed => return some .redis
    | .refused => return some .inactive
    | .applied =>
      let completedAt ← clock
      if deadline ≤ completedAt then return some .stale
      else if sessionExpiresAt ≤ completedAt then return some .inactive
      else return none

/-- How long a tombstone is kept. -/
def denyTTL (entry : CacheEntry) (now : Int) : Int :=
  let ttl := min (entry.expiresAt * 1000 - now) (userCacheTTLSeconds cacheSeconds * 1000)
  if ttl ≤ 0 then 1000 else ttl

def writeDeny (entry : CacheEntry) : Call (Option WriteError) := do
  let now ← clock
  match ← evalScript entry (.after (denyTTL cacheSeconds entry now)) with
  | .failed => return some .redis
  | .refused => return some .inactive
  | .applied => return none

def writeUserSessionCache (entry : CacheEntry) (deadline : Option Int) : Call (Option WriteError) :=
  if entry.status = .active then
    match deadline with
    | none => return some .invalid
    | some deadline => writeActive entry deadline
  else writeDeny cacheSeconds entry

def writeUserSessionDenyFence (session : UserSession) (status : Status) (now : Int) (reason : String) :
    Call (Option WriteError) :=
  writeUserSessionCache cacheSeconds
    { session.cacheEntry with status := status, revokedAt := now, revokedReason := reason } none

inductive SessionError
  | invalid
  | inactive
  | notFound
  | refreshInvalid
  | refreshReuse
  | cache (e : WriteError)
  deriving DecidableEq

def confirmUserSessionActiveSnapshot (session : UserSession) : Call (Option SessionError) := do
  if session.userID ≤ 0 ∨ session.version ≤ 0 ∨ session.userAuthVersion ≤ 0 then return some .invalid
  else
    let now ← unix
    match ← readRow with
    | none => return some .inactive
    | some row =>
      if row.userID = session.userID ∧ row.Usable now ∧ row.version = session.version ∧
          row.userAuthVersion = session.userAuthVersion then
        return none
      else return some .inactive

/-- Publish the snapshot of an active session; when it came too late the row is asked again. -/
def publishActive (session : UserSession) (deadline : Int) : Call (Option SessionError) := do
  match ← writeUserSessionCache cacheSeconds session.cacheEntry (some deadline) with
  | some .stale => confirmUserSessionActiveSnapshot session
  | some .inactive => return some .inactive
  | _ => return none

/-! ## Calls -/

def getUserSessionBySID : Call (Except SessionError UserSession) := do
  match ← readRow with
  | none => return .error .notFound
  | some row => return .ok row

/-- The database part of `GetUserSessionCached`. -/
def loadUserSession : Call (Except SessionError UserSession) := do
  let deadline ← userSessionCacheDeadline cacheSeconds
  match ← getUserSessionBySID with
  | .error e => return .error e
  | .ok session =>
    let now ← unix
    if session.Usable now then
      match ← publishActive cacheSeconds session deadline with
      | some e => return .error e
      | none => return .ok session
    else
      let _ ← writeUserSessionCache cacheSeconds { session.cacheEntry with status := .revoked } none
      return .error .inactive

def getUserSessionCached : Call (Except SessionError UserSession) := do
  match ← readCache with
  | .found entry =>
    if entry.userID ≤ 0 ∨ entry.version ≤ 0 ∨ entry.userAuthVersion ≤ 0 then loadUserSession cacheSeconds
    else
      let now ← unix
      if entry.session.Usable now then return .ok entry.session
      else return .error .inactive
  | _ => loadUserSession cacheSeconds

def createUserSession (session : UserSession) : Call (Except SessionError Unit) := do
  let now ← unix
  if session.userID ≤ 0 ∨ session.userAuthVersion ≤ 0 ∨ session.refreshHash = "" ∨ session.expiresAt ≤ now ∨
      session.status ≠ .active ∨ session.revokedAt ≠ 0 then
    return .error .invalid
  else
    let session := { session with
      version := if session.version ≤ 0 then 1 else session.version
      lastActiveAt := if session.lastActiveAt = 0 then now else session.lastActiveAt }
    let deadline ← userSessionCacheDeadline cacheSeconds
    if ← insert session then
      match ← publishActive cacheSeconds session deadline with
      | some e => return .error e
      | none => return .ok ()
    else return .error .invalid

inductive Rotation
  | rotated (session : UserSession)
  | race (session : UserSession)
  | failed (e : SessionError)

/-- The replay of a secret outside its window: the tombstone, the revocation whatever the secret is now, and the
tombstone. -/
def revokeReused (session : UserSession) (now : Int) : Call Rotation := do
  match ← writeUserSessionDenyFence cacheSeconds session .revoking now "refresh_reuse" with
  | some e => return .failed (.cache e)
  | none =>
    match ← update (fun row => if row.Usable now then some (row.revoke now "refresh_reuse") else none) with
    | none => return .failed .inactive
    | some _ =>
      let _ ← writeUserSessionCache cacheSeconds (session.revoke now "refresh_reuse").cacheEntry none
      return .failed .refreshReuse

/-- The row with the next secret, if it is still at the presented one. -/
def rotateRow (presentedHash nextHash : String) (now graceSeconds : Int) (row : UserSession) : Option UserSession :=
  if row.Usable now ∧ row.refreshHash = presentedHash then
    some { row with
      previousRefreshHash := presentedHash, previousValidUntil := now + graceSeconds, refreshHash := nextHash,
      lastActiveAt := now }
  else none

/-- The rounds of the loop that are left. -/
def rotateRounds (presentedHash nextHash : String) (now graceSeconds : Int) : Nat → Call Rotation
  | 0 => return .failed .refreshInvalid
  | rounds + 1 => do
    let deadline ← userSessionCacheDeadline cacheSeconds
    match ← readRow with
    | none => return .failed .notFound
    | some session =>
      if ¬session.Usable now then return .failed .inactive
      else if session.refreshHash = presentedHash then
        match ← update (rotateRow presentedHash nextHash now graceSeconds) with
        | none => rotateRounds presentedHash nextHash now graceSeconds rounds
        | some _ =>
          let rotated : UserSession := { session with
            previousRefreshHash := session.refreshHash, previousValidUntil := now + graceSeconds,
            refreshHash := nextHash, lastActiveAt := now }
          match ← publishActive cacheSeconds rotated deadline with
          | some e => return .failed e
          | none => return .rotated rotated
      else if session.previousRefreshHash = "" ∨ session.previousRefreshHash ≠ presentedHash then
        return .failed .refreshInvalid
      else if now ≤ session.previousValidUntil then return .race session
      else revokeReused cacheSeconds session now

def rotateUserSessionRefresh (presentedHash nextHash : String) (now graceSeconds : Int) : Call Rotation :=
  if presentedHash = "" ∨ nextHash = "" ∨ presentedHash = nextHash then return .failed .invalid
  else do
    let now ← if now ≤ 0 then unix else pure now
    if graceSeconds < 0 then return .failed .invalid
    else rotateRounds cacheSeconds presentedHash nextHash now graceSeconds 3

def revokeRow (now : Int) (reason : String) (row : UserSession) : Option UserSession :=
  if row.Usable now then some (row.revoke now reason) else none

def Revokes (now : Int) (reason : String) (g : UserSession → Option UserSession) : Prop :=
  ∀ row row', g row = some row' → row.status = .active ∧ row' = row.revoke now reason

theorem revokes_ite {p : UserSession → Prop} [DecidablePred p] (hp : ∀ row, p row → row.status = .active) (now : Int)
    (reason : String) : Revokes now reason fun row => if p row then some (row.revoke now reason) else none := by
  intro row row' h
  dsimp only at h
  split_ifs at h with hrow
  cases h
  exact ⟨hp row hrow, rfl⟩

theorem revokes_revokeRow (now : Int) (reason : String) : Revokes now reason (revokeRow now reason) :=
  revokes_ite (fun _ h => h.1) now reason

def revokeUserSession (reason : String) : Call (Except SessionError Bool) := do
  let now ← unix
  match ← readRow with
  | none => return .ok false
  | some candidate =>
    if ¬candidate.Usable now then return .ok false
    else
      match ← writeUserSessionDenyFence cacheSeconds candidate .revoking now reason with
      | some e => return .error (.cache e)
      | none =>
        match ← update (revokeRow now reason) with
        | none => return .ok false
        | some _ =>
          let _ ← writeUserSessionCache cacheSeconds (candidate.revoke now reason).cacheEntry none
          return .ok true

/-- The secret is the current one, or the one before inside its window. -/
def UserSession.Accepts (session : UserSession) (presentedHash : String) (now : Int) : Prop :=
  session.refreshHash = presentedHash ∨
    (session.previousRefreshHash ≠ "" ∧ now ≤ session.previousValidUntil ∧ session.previousRefreshHash = presentedHash)

instance (session : UserSession) (presentedHash : String) (now : Int) : Decidable (session.Accepts presentedHash now) :=
  inferInstanceAs (Decidable (_ ∨ _))

/-- The fence is published inside the transaction. -/
def revokeUserSessionByRefreshHash (presentedHash reason : String) : Call (Except SessionError Bool) := do
  if presentedHash = "" then return .ok false
  else
    let now ← unix
    match ← readRow with
    | none => return .ok false
    | some session =>
      if ¬session.Usable now ∨ ¬session.Accepts presentedHash now then return .ok false
      else
        match ← writeUserSessionDenyFence cacheSeconds session .revoking now reason with
        | some e => return .error (.cache e)
        | none =>
          match ← update (fun row => if row.status = .active then some (row.revoke now reason) else none) with
          | none => return .ok false
          | some _ =>
            let _ ← writeUserSessionCache cacheSeconds (session.revoke now reason).cacheEntry none
            return .ok true

/-- The rounds of the loop that are left; the answer is how often this session was revoked. -/
def revokeRounds (now : Int) (reason : String) : Nat → Nat → Call (Except SessionError (Option Nat))
  | 0, _ => return .ok none
  | rounds + 1, affected => do
    match ← readRow with
    | none => return .ok (some affected)
    | some candidate =>
      if ¬(candidate.status = .active ∧ now < candidate.expiresAt) then return .ok (some affected)
      else
        match ← writeUserSessionDenyFence cacheSeconds candidate .revoking now reason with
        | some e => return .error (.cache e)
        | none =>
          match ← update (fun row => if row.status = .active then some (row.revoke now reason) else none) with
          | none => revokeRounds now reason rounds affected
          | some revoked =>
            let _ ← writeUserSessionCache cacheSeconds (revoked.revoke now reason).cacheEntry none
            revokeRounds now reason rounds (affected + 1)

def revokeUserSessions (reason : String) (rounds : Nat) : Call (Except SessionError (Option Nat)) := do
  let now ← unix
  revokeRounds cacheSeconds now reason rounds 0

/-- The row with the next versions, if it is at the expected ones. -/
def advanceRow (expectedSessionVersion expectedUserAuthVersion nextUserAuthVersion now : Int) (row : UserSession) :
    Option UserSession :=
  if row.status = .active ∧ now < row.expiresAt ∧ row.version = expectedSessionVersion ∧
      row.userAuthVersion = expectedUserAuthVersion then
    some { row with version := row.version + 1, userAuthVersion := nextUserAuthVersion, lastActiveAt := now }
  else none

def advanceUserSessionAuthVersion (expectedSessionVersion expectedUserAuthVersion nextUserAuthVersion : Int) :
    Call (Except SessionError UserSession) := do
  if expectedSessionVersion ≤ 0 ∨ expectedUserAuthVersion ≤ 0 ∨ nextUserAuthVersion ≤ expectedUserAuthVersion then
    return .error .invalid
  else
    let deadline ← userSessionCacheDeadline cacheSeconds
    let now ← unix
    match ← update (advanceRow expectedSessionVersion expectedUserAuthVersion nextUserAuthVersion now) with
    | none => return .error .inactive
    | some row =>
      let session := { row with
        version := row.version + 1, userAuthVersion := nextUserAuthVersion, lastActiveAt := now }
      match ← writeUserSessionCache cacheSeconds session.cacheEntry (some deadline) with
      | none => return .ok session
      | some .stale =>
        match ← confirmUserSessionActiveSnapshot session with
        | some e => return .error e
        | none => return .ok session
      | some e => return .error (.cache e)

/-- What the revocations of one session share: a fence before the `UPDATE` and a tombstone after it. -/
def revokeFenced {γ : Type} (session : UserSession) (now : Int) (reason : String) (g : UserSession → Option UserSession)
    (broken : WriteError → γ) (missed done : γ) : Call γ := do
  match ← writeUserSessionDenyFence cacheSeconds session .revoking now reason with
  | some e => return broken e
  | none =>
    match ← update g with
    | none => return missed
    | some _ =>
      let _ ← writeUserSessionCache cacheSeconds (session.revoke now reason).cacheEntry none
      return done

/-! ## Reading -/

section Reading

variable {α β γ ε : Type} {calls : β → Call α} {env : ε → Store → Store}
  {c : Rules (⟨exec, calls, env⟩ : System Store Instr Instr.Answer α β Choice ε)} {acts : Store → Store → Prop}
  {post : γ → Store → Prop} {s : Store}

theorem acts_now (hacts : ∀ s, acts s s) {f : Int → Call γ}
    (h : ∀ s', c.rel s s' → c.inv s' → c.Acts acts post (f s'.clock) s') : c.Acts acts post (.call .now f) s :=
  fun s' hrel hinv _ _ => ⟨c.refl s', hinv, hacts s', h s' hrel hinv⟩

theorem acts_readRow (hacts : ∀ s, acts s s) {f : Option UserSession → Call γ}
    (h : ∀ s', c.rel s s' → c.inv s' → c.Acts acts post (f s'.row) s') : c.Acts acts post (.call .readRow f) s :=
  fun s' hrel hinv _ _ => ⟨c.refl s', hinv, hacts s', h s' hrel hinv⟩

theorem acts_readCache (hacts : ∀ s, acts s s) {f : Lookup → Call γ}
    (hfound : ∀ s' e, c.rel s s' → c.inv s' → live s'.clock s'.cache = some e → c.Acts acts post (f (.found e)) s')
    (hmissing : ∀ s', c.rel s s' → c.inv s' → c.Acts acts post (f .missing) s')
    (hfailed : ∀ s', c.rel s s' → c.inv s' → c.Acts acts post (f .failed) s') :
    c.Acts acts post (.call .readCache f) s := by
  intro s' hrel hinv w _
  simp only [exec]
  split
  · exact ⟨c.refl s', hinv, hacts s', hfound s' _ hrel hinv ‹_›⟩
  · exact ⟨c.refl s', hinv, hacts s', hmissing s' hrel hinv⟩
  · exact ⟨c.refl s', hinv, hacts s', hfailed s' hrel hinv⟩

end Reading

end CubeRouter.Auth
