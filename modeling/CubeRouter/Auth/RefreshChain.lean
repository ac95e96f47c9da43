import CubeRouter.Auth.Login
import Mathlib.Logic.Function.Basic

/-!
# The chain of refresh secrets

`service/auth_session.go` trades a refresh secret for the next one, which is derived from it. The row keeps the
digests of two generations, so that the answer to a lost response can be given again for a while; an older secret that
comes back after that revokes the session. Tokens that are malformed or name another session never get as far as these
calls.
-/

namespace CubeRouter.Auth

open Concurrency Expiring Transition List

/-- `RefreshReplayWindow`, in seconds. -/
def refreshReplayWindow : Int := 30

section Calls

variable (cacheSeconds : Int) (hashRefreshSecret deriveNextRefreshSecret : String → String)

/-- The rotation at this second, with the secret that follows. -/
def rotateSecret (secret : String) : Call Rotation := do
  let now ← unix
  rotateUserSessionRefresh cacheSeconds (hashRefreshSecret secret)
    (hashRefreshSecret (deriveNextRefreshSecret secret)) now
    refreshReplayWindow

/-- The account answers anything; how it was found is kept with the store. -/
def loginDeps : LoginDeps Instr Instr.Answer where
  getUserSessionCached := getUserSessionCached cacheSeconds
  unix := unix
  getUserCache := userCache
  getUserById := userById
  revokeUserSession := revokeUserSession cacheSeconds
  rotate := rotateSecret cacheSeconds hashRefreshSecret deriveNextRefreshSecret
  issueAccessToken := issueAccessToken

def revokeByRefreshToken (secret reason : String) : Call (Except SessionError Bool) :=
  revokeUserSessionByRefreshHash cacheSeconds (hashRefreshSecret secret) reason

/-- The logout is the only caller of `RevokeByRefreshToken`. -/
inductive Presented
  | refresh (secret : String)
  | rotate (secret : String)
  | logout (secret : String)

def Presented.secret : Presented → String
  | .refresh secret | .rotate secret | .logout secret => secret

inductive Answer
  | refreshed (r : Except RefreshError Bundle)
  | rotated (r : Rotation)
  | loggedOut (r : Except SessionError Bool)

def Presented.call : Presented → Call Answer
  | .refresh secret => do
    let deps := loginDeps cacheSeconds hashRefreshSecret deriveNextRefreshSecret
    return .refreshed (← refreshLoginSession deps hashRefreshSecret deriveNextRefreshSecret secret)
  | .rotate secret => do return .rotated (← rotateSecret cacheSeconds hashRefreshSecret deriveNextRefreshSecret secret)
  | .logout secret => do return .loggedOut (← revokeByRefreshToken cacheSeconds hashRefreshSecret secret "logout")

def refreshes : System Store Instr Instr.Answer Answer Presented Choice Nat where
  exec := exec
  begin := Presented.call cacheSeconds hashRefreshSecret deriveNextRefreshSecret
  env n s := { s with clock := s.clock + n }

/-- The answer carries this secret, or the session whose secret it is. -/
def Answer.Hands : Answer → String → Prop
  | .refreshed (.ok bundle), secret => bundle.refreshToken = secret
  | .rotated (.rotated session), secret => session.refreshHash = hashRefreshSecret secret
  | .rotated (.race session), secret => session.refreshHash = hashRefreshSecret secret
  | _, _ => False

end Calls

/-! ## Generations -/

section Generations

variable (hash next : String → String) (first : String)

/-- `s(n)`. -/
def chain : Nat → String
  | 0 => first
  | n + 1 => next (chain n)

/-- The row holds the digests of generation `n`. -/
structure UserSession.At (row : UserSession) (n : Nat) : Prop where
  current : row.refreshHash = hash (chain next first n)
  previous : row.previousRefreshHash = if n = 0 then "" else hash (chain next first (n - 1))

def Store.At (s : Store) (n : Nat) : Prop := ∃ row, s.row = some row ∧ row.At hash next first n

/-- The row keeps the digest of the secret, as its own or as the one before. -/
def Store.Keeps (secret : String) (s : Store) : Prop :=
  ∃ k n, secret = chain next first k ∧ s.At hash next first n ∧ k ≤ n ∧ n ≤ k + 1

/-- From `s` to `s'` no row keeps the secret: it is older than what the row keeps in `s`, or newer than the row in
`s'`, or of no generation. -/
def Stale (secret : String) (s s' : Store) : Prop :=
  ∀ k, secret = chain next first k → (∃ n, s.At hash next first n ∧ k + 1 < n) ∨ ∃ n, s'.At hash next first n ∧ n < k

/-- The secret was accepted for the one after it, by a row whose window was open at a second of the call. -/
def Granted (presented secret : String) (s s' : Store) : Prop :=
  ∃ row ∈ s'.past, ∃ n, row.At hash next first (n + 1) ∧ presented = chain next first n ∧
    secret = chain next first (n + 1) ∧
    ∃ now, s.clock / 1000 ≤ now ∧ now ≤ s'.clock / 1000 ∧ now ≤ row.previousValidUntil

/-- The secret is that before a row's, and the window of that row is over. -/
def Replayed (presented : String) (s : Store) : Prop :=
  ∃ row ∈ s.past, ∃ n, row.At hash next first (n + 1) ∧ presented = chain next first n ∧
    row.previousValidUntil < s.clock / 1000

def RevokedAs (reason : String) (s s' : Store) : Prop :=
  ∃ row now, s.row = some row ∧ row.status = .active ∧ s'.row = some (row.revoke now reason)

/-- The rows are of the chain, and every row and snapshot is of one auth version. -/
structure Linear (version : Int) (s : Store) : Prop where
  row : ∃ row n, s.row = some row ∧ row.At hash next first n ∧ row.userAuthVersion = version ∧ row ∈ s.past
  cache : ∀ k, s.cache = some k → k.value.userAuthVersion = version

structure Grows (s s' : Store) : Prop where
  clock : s.clock ≤ s'.clock
  generation : ∀ n, s.At hash next first n → ∃ n', n ≤ n' ∧ s'.At hash next first n'
  past : ∀ row, row ∈ s.past → row ∈ s'.past
  views : s.views <:+ s'.views

/-- The user was looked up after `o`. -/
def Seen (o s : Store) (user : UserView) : Prop := ∃ l, s.views = l ++ o.views ∧ user ∈ l

/-- The row has kept the secret at a moment from `o` to `s`. -/
def Met (secret : String) (o s : Store) : Prop :=
  ∃ s₁ : Store, s₁.Keeps hash next first secret ∧ Grows hash next first o s₁ ∧ Grows hash next first s₁ s

/-- Since `o` the account was found disabled, or not at the version of the session. -/
def AccountChanged (o s : Store) : Prop :=
  ∃ row user, s.row = some row ∧ Seen o s user ∧ (user.enabled = false ∨ user.authVersion ≠ row.userAuthVersion)

/-- What an instruction of a call with this secret, which began at `o`, may do to the row. -/
inductive Change (presented : String) (o s s' : Store) : Prop
  | kept (hrow : s'.row = s.row)
  | rotated (row row' : UserSession) (hrow : s.row = some row) (hrow' : s'.row = some row')
      (hactive : row'.status = .active) (hmet : Met hash next first presented o s)
  | reused (hrevoked : RevokedAs "refresh_reuse" s s') (hreplayed : Replayed hash next first presented s)
      (hmet : Met hash next first presented o s)
  | securityChanged (hrevoked : RevokedAs "user_security_changed" s s') (haccount : AccountChanged o s)
  | loggedOut (hrevoked : RevokedAs "logout" s s') (hmet : Met hash next first presented o s)

variable {hash next first} {s s' s'' : Store} {version : Int}

theorem Grows.of_row (hclock : s.clock ≤ s'.clock) (hrow : s'.row = s.row) (hpast : s'.past = s.past)
    (hviews : s.views <:+ s'.views) : Grows hash next first s s' where
  clock := hclock
  generation n h := ⟨n, Nat.le_refl n, by rwa [Store.At, hrow]⟩
  past row h := by rwa [hpast]
  views := hviews

theorem Grows.refl (s : Store) : Grows hash next first s s := .of_row le_rfl rfl rfl suffix_rfl

theorem Grows.trans (h : Grows hash next first s s') (h' : Grows hash next first s' s'') :
    Grows hash next first s s'' where
  clock := Int.le_trans h.clock h'.clock
  generation n hn := by
    obtain ⟨n', hle, hn'⟩ := h.generation n hn
    obtain ⟨n'', hle', hn''⟩ := h'.generation n' hn'
    exact ⟨n'', Nat.le_trans hle hle', hn''⟩
  past row hrow := h'.past row (h.past row hrow)
  views := h.views.trans h'.views

variable {row : UserSession} {n : Nat} {secret : String}

theorem UserSession.At.revoke (h : row.At hash next first n) (now : Int) (reason : String) :
    (row.revoke now reason).At hash next first n := ⟨h.current, h.previous⟩

theorem UserSession.At.presented (h : row.At hash next first n) (hhash : hash.Injective)
    (hsecret : row.refreshHash = hash secret) : secret = chain next first n :=
  hhash (hsecret.symm.trans h.current)

theorem UserSession.At.replayed (h : row.At hash next first n) (hhash : hash.Injective)
    (hsome : row.previousRefreshHash ≠ "") (hsecret : row.previousRefreshHash = hash secret) :
    ∃ k, n = k + 1 ∧ secret = chain next first k := by
  have hprevious := h.previous
  cases n with
  | zero => exact absurd hprevious hsome
  | succ k => exact ⟨k, rfl, hhash (hsecret.symm.trans (by simpa using hprevious))⟩

theorem UserSession.At.unique {n' : Nat} (h : row.At hash next first n) (h' : row.At hash next first n')
    (hhash : hash.Injective) (hchain : (chain next first).Injective) : n = n' :=
  hchain (hhash (h.current.symm.trans h'.current))

variable {o : Store}

theorem Met.later (h : Met hash next first secret o s) (hgrows : Grows hash next first s s') :
    Met hash next first secret o s' := by
  obtain ⟨s₁, hkeeps, hfrom, hto⟩ := h
  exact ⟨s₁, hkeeps, hfrom, hto.trans hgrows⟩

theorem met_of_row {k : Nat} (hgrows : Grows hash next first o s) (hrow : s.row = some row)
    (hat : row.At hash next first n)
    (hsecret : secret = chain next first k) (hle : k ≤ n) (hk : n ≤ k + 1) : Met hash next first secret o s :=
  ⟨s, ⟨k, n, hsecret, ⟨row, hrow, hat⟩, hle, hk⟩, hgrows, .refl s⟩

/-- A secret that was met is not stale. -/
theorem Met.not_stale (h : Met hash next first secret o s) (hgrows : Grows hash next first s s')
    (hhash : hash.Injective)
    (hchain : (chain next first).Injective) : ¬Stale hash next first secret o s' := by
  obtain ⟨s₁, ⟨k, n, hsecret, hn, _, _⟩, hfrom, hto⟩ := h
  have hsame {s₂ : Store} {m m' : Nat} (hm : s₂.At hash next first m) (hm' : s₂.At hash next first m') : m = m' := by
    obtain ⟨row, hrow, hat⟩ := hm
    obtain ⟨_, hrow', hat'⟩ := hm'
    cases hrow.symm.trans hrow'
    exact hat.unique hat' hhash hchain
  intro hstale
  rcases hstale k hsecret with ⟨m, hm, _⟩ | ⟨m, hm, _⟩
  · obtain ⟨m', _, hm'⟩ := hfrom.generation m hm
    have := hsame hn hm'
    omega
  · obtain ⟨n', _, hn'⟩ := (hto.trans hgrows).generation n hn
    have := hsame hm hn'
    omega

theorem Seen.later {user : UserView} (h : Seen o s user) (hgrows : Grows hash next first s s') : Seen o s' user := by
  obtain ⟨l, hl, huser⟩ := h
  obtain ⟨l', hl'⟩ := hgrows.views
  exact ⟨l' ++ l, by rw [← hl', hl, append_assoc], mem_append_right _ huser⟩

end Generations

/-! ## What every call keeps to -/

section Calls

variable (cacheSeconds : Int) (hash next : String → String) (first : String) (version : Int)

def chainRules : Rules (refreshes cacheSeconds hash next) where
  inv := Linear hash next first version
  rel := Grows hash next first
  fair _ _ _ := True
  lets _ _ := True
  refl := Grows.refl
  trans _ _ _ h h' := h.trans h'
  env n _ h _ := ⟨.of_row (Int.le_add_of_nonneg_right (Int.natCast_nonneg n)) rfl rfl suffix_rfl, h.row, h.cache⟩

/-- The instruction leaves the row, and what it caches is of the version. -/
def Instr.Quiet : Instr → Prop
  | .update _ | .insert _ => False
  | .eval entry _ => entry.userAuthVersion = version
  | _ => True

def Quiet {α : Type} : Call α → Prop
  | .ret _ => True
  | .call i rest => i.Quiet version ∧ ∀ r, Quiet (rest r)

variable {cacheSeconds hash next first version} {s s' : Store} {γ δ : Type} {acts : Store → Store → Prop}
  {post : γ → Store → Prop} {entry : CacheEntry} {p : Call γ} {row row' : UserSession}
  {g : UserSession → Option UserSession} {reason : String}

theorem Linear.cached (h : Linear hash next first version s) (hentry : entry.userAuthVersion = version)
    (expires : Int) : Linear hash next first version (s.cached entry expires) where
  row := h.row
  cache k hk := by
    obtain ⟨-, rfl⟩ := put_eq_some_iff.mp hk
    exact hentry

theorem exec_quiet {i : Instr} (hi : i.Quiet version) (w : Choice) (h : Linear hash next first version s) :
    (exec i w s).2.row = s.row ∧ Grows hash next first s (exec i w s).2 ∧
    Linear hash next first version (exec i w s).2 := by
  have hsame : s.row = s.row ∧ Grows hash next first s s ∧ Linear hash next first version s := ⟨rfl, .refl s, h⟩
  have hviews (l : List UserView) : Grows hash next first s { s with views := l ++ s.views } :=
    .of_row le_rfl rfl rfl (suffix_append l s.views)
  cases i with
  | update | insert => exact hi.elim
  | now | readRow => exact hsame
  | readCache =>
    simp only [exec]
    split <;> exact hsame
  | userCache | userById => exact ⟨rfl, hviews _, h.row, h.cache⟩
  | issueAccessToken => exact hsame
  | eval entry expiration =>
    have hscript : (s.script entry expiration).2.row = s.row ∧ Grows hash next first s (s.script entry expiration).2 ∧
        Linear hash next first version (s.script entry expiration).2 := by
      rcases script_cases s entry expiration with hr | ⟨hr, -⟩
      · rw [hr]
        exact hsame
      · rw [hr]
        exact ⟨rfl, .of_row le_rfl rfl rfl suffix_rfl, h.cached hi _⟩
    simp only [exec]
    cases w.redis with
    | done => exact hscript
    | failed => exact hsame
    | lost => exact hscript

theorem Quiet.bind {f : γ → Call δ} (h : Quiet version p) (hf : ∀ a, Quiet version (f a)) :
    Quiet version (p >>= f) := by
  induction p with
  | ret a => exact hf a
  | call i _ ih => exact ⟨h.1, fun r => ih r (h.2 r)⟩

theorem Quiet.keeps (h : Quiet version p) (hkept : ∀ s s' : Store, s'.row = s.row → acts s s') :
    (chainRules cacheSeconds hash next first version).Acts acts (fun _ _ => True) p s := by
  induction p generalizing s with
  | ret => exact fun _ _ _ => trivial
  | call i _ ih =>
    intro s' hrel hinv w _
    obtain ⟨hrow, hgrows, hlinear⟩ := exec_quiet h.1 w hinv
    exact ⟨hgrows, hlinear, hkept _ _ hrow, ih _ (h.2 _)⟩

theorem quiet_writeUserSessionCache (hentry : entry.userAuthVersion = version) (deadline : Option Int) :
    Quiet version (writeUserSessionCache cacheSeconds entry deadline) := by
  unfold writeUserSessionCache writeActive writeDeny
  simp only [perform_bind]
  split
  · cases deadline with
    | none => trivial
    | some =>
      refine ⟨trivial, fun now => ?_⟩
      dsimp only
      split_ifs
      · trivial
      · trivial
      · trivial
      · refine ⟨hentry, fun r => ?_⟩
        cases r with
        | failed => trivial
        | refused => trivial
        | applied =>
          refine ⟨trivial, fun completedAt => ?_⟩
          dsimp only
          split_ifs <;> trivial
  · refine ⟨trivial, fun now => ⟨hentry, fun r => ?_⟩⟩
    cases r <;> trivial

variable {session : UserSession}

theorem quiet_publishActive (hsession : session.userAuthVersion = version) {deadline : Int} :
    Quiet version (publishActive cacheSeconds session deadline) := by
  refine (quiet_writeUserSessionCache hsession _).bind fun r => ?_
  have hconfirm : Quiet version (confirmUserSessionActiveSnapshot session) := by
    unfold confirmUserSessionActiveSnapshot unix
    simp only [perform_bind]
    split
    · trivial
    · refine ⟨trivial, fun now => ⟨trivial, fun row => ?_⟩⟩
      cases row with
      | none => trivial
      | some =>
        dsimp only
        split_ifs <;> trivial
  match r with
  | some .stale => exact hconfirm
  | some .inactive => trivial
  | some .invalid => trivial
  | some .redis => trivial
  | none => trivial

theorem Linear.save (h : Linear hash next first version s) (hrow : s.row = some row)
    (hversion : row'.userAuthVersion = row.userAuthVersion)
    (hat : ∀ n, row.At hash next first n → ∃ n', n ≤ n' ∧ row'.At hash next first n') :
    Grows hash next first s (s.save row') ∧ Linear hash next first version (s.save row') := by
  obtain ⟨r, n, hr, hn, hrversion, -⟩ := h.row
  cases hrow.symm.trans hr
  obtain ⟨n', -, hn'⟩ := hat n hn
  refine ⟨⟨le_rfl, ?_, fun _ => mem_cons_of_mem _, suffix_rfl⟩, ⟨row', n', rfl, hn', ?_, mem_cons_self⟩, h.cache⟩
  · rintro m ⟨r, hr, hm⟩
    cases hrow.symm.trans hr
    obtain ⟨m', hle, hm'⟩ := hat m hm
    exact ⟨m', hle, row', rfl, hm'⟩
  · rw [hversion, hrversion]

theorem acts_update {f : Option UserSession → Call γ} (hacts : ∀ s : Store, acts s s)
    (hstep : ∀ s' row row', Grows hash next first s s' → Linear hash next first version s' → s'.row = some row →
      g row = some row' → acts s' (s'.save row') ∧ row'.userAuthVersion = row.userAuthVersion ∧
        ∀ n, row.At hash next first n → ∃ n', n ≤ n' ∧ row'.At hash next first n')
    (hnone : ∀ s', Grows hash next first s s' → Linear hash next first version s' →
      (chainRules cacheSeconds hash next first version).Acts acts post (f none) s')
    (hsome : ∀ s' row row', Grows hash next first s s' → Linear hash next first version s' → s'.row = some row →
      g row = some row' → Linear hash next first version (s'.save row') → Grows hash next first s (s'.save row') →
      (chainRules cacheSeconds hash next first version).Acts acts post (f (some row)) (s'.save row')) :
    (chainRules cacheSeconds hash next first version).Acts acts post (.call (.update g) f) s := by
  intro s' hrel hinv w _
  simp only [refreshes, exec]
  cases hr : (s'.update g).1 with
  | none =>
    rw [update_none hr]
    exact ⟨Grows.refl s', hinv, hacts s', hnone s' hrel hinv⟩
  | some row =>
    obtain ⟨row', hrow, hrow', heq⟩ := update_some hr
    obtain ⟨hchange, hversion, hat⟩ := hstep s' row row' hrel hinv hrow hrow'
    obtain ⟨hgrows, hlinear⟩ := hinv.save hrow hversion hat
    rw [heq]
    exact ⟨hgrows, hlinear, hchange, hsome s' row row' hrel hinv hrow hrow' hlinear (hrel.trans hgrows)⟩

theorem acts_revokeFenced {now : Int} (hg : Revokes now reason g)
    (hinv : Linear hash next first version s) (hversion : session.userAuthVersion = version)
    (hacts : ∀ s s' : Store, s'.row = s.row → acts s s')
    (hstep : ∀ s' s'', Grows hash next first s s' → Linear hash next first version s' →
      RevokedAs reason s' s'' → acts s' s'')
    {broken : WriteError → γ} {missed done : γ} (hbroken : ∀ e s', post (broken e) s') (hmissed : ∀ s', post missed s')
    (hdone : ∀ s', post done s') : (chainRules cacheSeconds hash next first version).Acts acts post
      (revokeFenced cacheSeconds session now reason g broken missed done) s := by
  have hquiet := @quiet_writeUserSessionCache cacheSeconds version
  refine Rules.Acts.bind hinv (Quiet.keeps (hquiet hversion none) hacts) fun r s1 h1 _ _ => ?_
  cases r with
  | some e => exact fun s' _ _ => hbroken e s'
  | none =>
    simp only [perform_bind]
    apply acts_update fun s => hacts s s rfl
    · intro s' row row' hgrows hlinear hrow hrow'
      obtain ⟨hactive, rfl⟩ := hg row row' hrow'
      exact ⟨hstep s' _ (h1.trans hgrows) hlinear ⟨row, now, hrow, hactive, rfl⟩, rfl,
        fun n hn => ⟨n, Nat.le_refl n, hn.revoke now reason⟩⟩
    · exact fun _ _ _ s' _ _ => hmissed s'
    · intro _ _ _ _ _ _ _ hlinear _
      exact Rules.Acts.bind hlinear (Quiet.keeps (hquiet hversion none) hacts) fun _ _ _ _ _ s' _ _ => hdone s'

/-! ## The calls -/

/-- The session that is handed back is at the secret after the presented one. -/
def Passed (hash next : String → String) (first presented : String) (o : Store)
    (session : UserSession) (s : Store) : Prop :=
  session.refreshHash = hash (next presented) ∧ Met hash next first presented o s ∧
    Granted hash next first presented (next presented) o s

theorem Passed.later {presented : String} {o : Store} (h : Passed hash next first presented o session s)
    (hgrows : Grows hash next first s s') : Passed hash next first presented o session s' := by
  obtain ⟨hsession, hmet, row, hrow, n, hat, hpresented, hsecret, now, hstart, _, hwindow⟩ := h
  have hclock := hgrows.clock
  exact ⟨hsession, hmet.later hgrows, row, hgrows.past row hrow, n, hat, hpresented, hsecret, now,
    hstart, by omega, hwindow⟩

variable {presented : String} {o : Store} {now graceSeconds : Int}

variable (cacheSeconds hash next first version presented o) in
/-- A call with the secret `presented` that began at `o` keeps to the chain, and changes what it may change. -/
abbrev Presents (post : γ → Store → Prop) : Call γ → Store → Prop :=
  (chainRules cacheSeconds hash next first version).Acts (Change hash next first presented o) post

theorem acts_revokeReused (hhash : hash.Injective) (hinv : Linear hash next first version s)
    (hgrows : Grows hash next first o s) (hrow : s.row = some session) (hsome : session.previousRefreshHash ≠ "")
    (hprevious : session.previousRefreshHash = hash presented) (hover : session.previousValidUntil < now)
    (hnow : now ≤ s.clock / 1000) : Presents cacheSeconds hash next first version presented o
      (fun r _ => ∃ e, r = .failed e) (revokeReused cacheSeconds session now) s := by
  obtain ⟨row, n, hr, hat, hversion, hpast⟩ := hinv.row
  cases hrow.symm.trans hr
  obtain ⟨k, hk, hpresented⟩ := hat.replayed hhash hsome hprevious
  have hmet := met_of_row hgrows hrow hat hpresented (by omega) (Nat.le_of_eq hk)
  refine acts_revokeFenced (revokes_ite (fun row h => h.1) now "refresh_reuse") hinv hversion (fun _ _ => .kept)
    (fun s' s'' hlater _ hrevoked => ?_) (fun _ _ => ⟨_, rfl⟩) (fun _ => ⟨_, rfl⟩) fun _ => ⟨_, rfl⟩
  have hclock := hlater.clock
  exact .reused hrevoked ⟨session, hlater.past session hpast, k, hk ▸ hat, hpresented, by omega⟩ (hmet.later hlater)

theorem rotateRow_at {nextHash : String} {n : Nat} (hhash : hash.Injective)
    (hnext : nextHash = hash (next presented))
    (h : rotateRow (hash presented) nextHash now graceSeconds row = some row')
    (hat : row.At hash next first n) :
    presented = chain next first n ∧ row'.At hash next first (n + 1) ∧ row'.status = .active ∧
      row'.userAuthVersion = row.userAuthVersion ∧ row'.previousValidUntil = now + graceSeconds := by
  unfold rotateRow at h
  split_ifs at h with hrotates
  cases h
  have hpresented := hat.presented hhash hrotates.2
  refine ⟨hpresented, ⟨?_, ?_⟩, hrotates.1.1, rfl, rfl⟩
  · rw [hnext, hpresented]
    rfl
  · simp [hpresented]

/-- A session that a rotation hands back has passed. -/
def Rotates (hash next : String → String) (first presented : String) (o : Store) (r : Rotation) (s : Store) : Prop :=
  ∀ session, r = .rotated session ∨ r = .race session → Passed hash next first presented o session s

theorem acts_failed {e : SessionError} :
    Presents cacheSeconds hash next first version presented o
      (Rotates hash next first presented o) (.ret (.failed e)) s :=
  fun _ _ _ session h => by rcases h with h | h <;> cases h

theorem acts_rotateRounds (hhash : hash.Injective) (hchain : (chain next first).Injective)
    (hgrows : Grows hash next first o s) (hstart : o.clock / 1000 ≤ now) (hnow : now ≤ s.clock / 1000)
    (hgrace : 0 ≤ graceSeconds) {rounds : Nat} :
    Presents cacheSeconds hash next first version presented o (Rotates hash next first presented o)
      (rotateRounds cacheSeconds (hash presented) (hash (next presented)) now graceSeconds rounds) s := by
  induction rounds generalizing s with
  | zero => exact acts_failed
  | succ _ ih =>
    unfold rotateRounds userSessionCacheDeadline
    simp only [perform_bind]
    apply acts_now (fun _ => .kept rfl)
    intro s1 h1 _
    apply acts_readRow (fun _ => .kept rfl)
    intro s2 h2 hinv2
    have hgrows2 := hgrows.trans (h1.trans h2)
    have hclock2 := (h1.trans h2).clock
    obtain ⟨session, n, hrow, hat, hversion, hpast⟩ := hinv2.row
    rw [hrow]
    dsimp only
    split_ifs with husable hcurrent hunknown hrace
    · apply acts_update (fun _ => .kept rfl)
      · intro s3 row row' h3 hinv3 hrow3 hrotated
        obtain ⟨r, m, hr, hm, -⟩ := hinv3.row
        cases hrow3.symm.trans hr
        obtain ⟨hpresented, hm', hactive, hversion', -⟩ := rotateRow_at hhash rfl hrotated hm
        have hmet := met_of_row (hgrows2.trans h3) hrow3 hm hpresented (Nat.le_refl m) (Nat.le_succ m)
        refine ⟨.rotated row row' hrow3 rfl hactive hmet, hversion', fun n' hn' => ⟨m + 1, ?_, hm'⟩⟩
        rw [hn'.unique hm hhash hchain]
        exact Nat.le_succ m
      · intro s3 h3 _
        have hclock := h3.clock
        exact ih (hgrows2.trans h3) (by omega)
      · intro s3 row row' h3 hinv3 hrow3 hrotated hinv4 h4
        obtain ⟨r, m, hr, hm, -⟩ := hinv3.row
        cases hrow3.symm.trans hr
        obtain ⟨hpresented, hm', -, hversion', _⟩ := rotateRow_at hhash rfl hrotated hm
        have hmet := met_of_row (hgrows2.trans h3) hrow3 hm hpresented (Nat.le_refl m) (Nat.le_succ m)
        have hsaved : Grows hash next first s3 (s3.save row') :=
          (hinv3.save hrow3 hversion' fun n' hn' => ⟨m + 1,
            by rw [hn'.unique hm hhash hchain]; exact Nat.le_succ m, hm'⟩).1
        have hclock := h4.clock
        have hgranted : Granted hash next first presented (next presented) o (s3.save row') :=
          ⟨row', mem_cons_self, m, hm', hpresented, by rw [hpresented]; rfl, now, hstart, by omega, by omega⟩
        refine Rules.Acts.bind hinv4 (Quiet.keeps (quiet_publishActive (by exact hversion)) fun _ _ => .kept)
          fun r s5 h5 _ _ => ?_
        cases r with
        | some => exact acts_failed
        | none =>
          intro s6 h6 _ rotated hrotated
          rcases hrotated with hrotated | hrotated
          · cases hrotated
            exact Passed.later ⟨rfl, hmet.later hsaved, hgranted⟩ (h5.trans h6)
          · cases hrotated
    · exact acts_failed
    · have hprevious : session.previousRefreshHash ≠ "" ∧ session.previousRefreshHash = hash presented :=
        ⟨fun h => hunknown (.inl h), by_contra fun h => hunknown (.inr h)⟩
      obtain ⟨k, rfl, hpresented⟩ := hat.replayed hhash hprevious.1 hprevious.2
      have hmet := met_of_row hgrows2 hrow hat hpresented (Nat.le_succ k) (Nat.le_refl _)
      have hgranted : Granted hash next first presented (next presented) o s2 :=
        ⟨session, hpast, k, hat, hpresented, by rw [hpresented]; rfl, now, hstart, by omega, hrace⟩
      intro s3 h3 _ raced hraced
      rcases hraced with hraced | hraced
      · cases hraced
      · cases hraced
        exact Passed.later ⟨by rw [hat.current, hpresented]; rfl, hmet, hgranted⟩ h3
    · have hprevious : session.previousRefreshHash ≠ "" ∧ session.previousRefreshHash = hash presented :=
        ⟨fun h => hunknown (.inl h), by_contra fun h => hunknown (.inr h)⟩
      refine (acts_revokeReused hhash hinv2 hgrows2 hrow hprevious.1 hprevious.2
        (by omega) (by omega)).imp fun r s3 _ h session hr => ?_
      obtain ⟨e, rfl⟩ := h
      rcases hr with hr | hr <;> cases hr
    · exact acts_failed

theorem acts_rotateSecret (hhash : hash.Injective) (hchain : (chain next first).Injective)
    (hgrows : Grows hash next first o s) : Presents cacheSeconds hash next first version presented o
      (Rotates hash next first presented o) (rotateSecret cacheSeconds hash next presented) s := by
  have hgrace : 0 ≤ refreshReplayWindow := by decide
  unfold rotateSecret rotateUserSessionRefresh unix
  simp only [perform_bind, call_bind, ret_bind, pure_eq]
  apply acts_now (fun _ => .kept rfl)
  intro s1 h1 _
  have hclock1 := (hgrows.trans h1).clock
  split_ifs
  · exact acts_failed
  · omega
  · apply acts_now (fun _ => .kept rfl)
    intro s2 h2 _
    have hclock2 := h2.clock
    exact acts_rotateRounds hhash hchain (hgrows.trans (h1.trans h2)) (by omega) le_rfl hgrace
  · omega
  · exact acts_rotateRounds hhash hchain (hgrows.trans h1) (by omega) le_rfl hgrace

theorem acts_loadUserSession : Presents cacheSeconds hash next first version presented o
      (fun r _ => ∀ session, r = .ok session → session.userAuthVersion = version) (loadUserSession cacheSeconds) s := by
  have herror {e : SessionError} {s1 : Store} : Presents cacheSeconds hash next first version presented o
      (fun r _ => ∀ session, r = Except.ok session → session.userAuthVersion = version)
      (.ret (.error e) : Call (Except SessionError UserSession)) s1 := fun _ _ _ session h => by cases h
  unfold loadUserSession userSessionCacheDeadline getUserSessionBySID unix
  simp only [perform_bind, call_bind, ret_bind, pure_eq]
  apply acts_now (fun _ => .kept rfl)
  intro s1 _ _
  apply acts_readRow (fun _ => .kept rfl)
  intro s2 _ hinv2
  obtain ⟨_, n, hrow, -, hversion, -⟩ := hinv2.row
  rw [hrow]
  apply acts_now (fun _ => .kept rfl)
  intro s3 _ hinv3
  split_ifs
  · refine Rules.Acts.bind hinv3 (Quiet.keeps (quiet_publishActive hversion) fun _ _ => .kept) fun r s4 _ _ _ => ?_
    cases r with
    | some => exact herror
    | none =>
      intro s5 _ _ r hr
      cases hr
      exact hversion
  · refine Rules.Acts.bind hinv3 (Quiet.keeps (quiet_writeUserSessionCache (by exact hversion) none) fun _ _ => .kept)
      fun _ _ _ _ _ => herror

theorem acts_getUserSessionCached : Presents cacheSeconds hash next first version presented o
      (fun r _ => ∀ session, r = .ok session → session.userAuthVersion = version)
      (getUserSessionCached cacheSeconds) s := by
  unfold getUserSessionCached unix
  simp only [perform_bind, call_bind, ret_bind, pure_eq]
  apply acts_readCache (fun _ => .kept rfl)
  · intro s1 entry _ hinv1 hlive
    obtain ⟨k, hk, -, rfl⟩ := live_eq_some_iff.mp hlive
    dsimp only
    split_ifs
    · exact acts_loadUserSession
    · apply acts_now (fun _ => .kept rfl)
      intro s2 _ _
      split_ifs
      · intro s3 _ _ session h
        cases h
        exact hinv1.cache k hk
      · exact fun _ _ _ session h => by cases h
  · exact fun _ _ _ => acts_loadUserSession
  · exact fun _ _ _ => acts_loadUserSession

theorem acts_revokeUserSession {user : UserView} (huser : Seen o s user)
    (hchanged : user.enabled = false ∨ user.authVersion ≠ version) :
    Presents cacheSeconds hash next first version presented o (fun _ _ => True)
      (revokeUserSession cacheSeconds "user_security_changed") s := by
  unfold revokeUserSession unix
  simp only [perform_bind]
  apply acts_now (fun _ => .kept rfl)
  intro s1 h1 _
  apply acts_readRow (fun _ => .kept rfl)
  intro s2 h2 hinv2
  obtain ⟨_, n, hrow, -, hversion, -⟩ := hinv2.row
  rw [hrow]
  dsimp only
  split
  · exact fun _ _ _ => trivial
  · refine acts_revokeFenced (revokes_revokeRow _ "user_security_changed") hinv2 hversion (fun _ _ => .kept)
      (fun s' s'' hgrows hlinear hrevoked => ?_) (fun _ _ => trivial) (fun _ => trivial) fun _ => trivial
    obtain ⟨row, m, hrow', -, hversion', -⟩ := hlinear.row
    have hseen := huser.later (h1.trans (h2.trans hgrows))
    exact .securityChanged hrevoked ⟨row, user, hrow', hseen, by rwa [hversion']⟩

theorem acts_user {f : Option UserView → Call γ} (hgrows : Grows hash next first o s)
    (h : ∀ s' user, Grows hash next first s s' → Linear hash next first version s' →
      (∀ u, user = some u → Seen o s' u) →
      Presents cacheSeconds hash next first version presented o post (f user) s') :
    Presents cacheSeconds hash next first version presented o post (.call .userCache f) s ∧
      Presents cacheSeconds hash next first version presented o post (.call .userById f) s := by
  refine and_self_iff.mpr fun s' hrel hinv w _ => ?_
  obtain ⟨hrow, hlooked, hlinear⟩ := exec_quiet (i := .userCache) trivial w hinv
  obtain ⟨l, hl⟩ := (hgrows.trans hrel).views
  refine ⟨hlooked, hlinear, .kept hrow, h _ _ (hrel.trans hlooked) hlinear fun u (hu : w.user = some u) => ?_⟩
  refine ⟨w.user.toList ++ l, ?_, by simp [hu]⟩
  show w.user.toList ++ s'.views = _
  rw [← hl, append_assoc]

/-- The secret of a bundle that is handed out succeeds the presented one. -/
def Issues (hash next : String → String) (first presented : String) (o : Store)
    (r : Except RefreshError Bundle) (s : Store) :
    Prop :=
  ∀ bundle, r = .ok bundle → bundle.refreshToken = next presented ∧ Met hash next first presented o s ∧
    Granted hash next first presented (next presented) o s

theorem acts_error {e : RefreshError} :
    Presents cacheSeconds hash next first version presented o
      (Issues hash next first presented o) (.ret (.error e)) s :=
  fun _ _ _ _ h => by cases h

theorem acts_issueAuthBundle (hpassed : Passed hash next first presented o session s) :
    Presents cacheSeconds hash next first version presented o (Issues hash next first presented o)
      (issueAuthBundle (loginDeps cacheSeconds hash next) session (next presented)) s := by
  unfold issueAuthBundle loginDeps
  simp only [perform_bind]
  intro s1 h1 hinv1 w _
  refine ⟨Grows.refl s1, hinv1, .kept rfl, ?_⟩
  dsimp only
  split
  · intro s2 h2 _ bundle h
    cases h
    exact ⟨rfl, (hpassed.later (h1.trans h2)).2⟩
  · exact acts_error

theorem acts_finishRefresh {r : Rotation} (hpassed : Rotates hash next first presented o r s) :
    Presents cacheSeconds hash next first version presented o (Issues hash next first presented o)
      (finishRefresh (loginDeps cacheSeconds hash next) hash (next presented) r) s := by
  cases r with
  | rotated session => exact acts_issueAuthBundle (hpassed session (.inl rfl))
  | race session =>
    simp only [finishRefresh]
    split_ifs
    · exact acts_issueAuthBundle (hpassed session (.inr rfl))
    · exact acts_error
  | failed e => cases e <;> exact acts_error

theorem acts_refreshLoginSession (hhash : hash.Injective) (hchain : (chain next first).Injective)
    (hinv : Linear hash next first version s) :
    Presents cacheSeconds hash next first version presented s (Issues hash next first presented s)
      (refreshLoginSession (loginDeps cacheSeconds hash next) hash next presented) s := by
  refine Rules.Acts.bind hinv acts_getUserSessionCached fun r s1 h1 hinv1 hversion => ?_
  cases r with
  | error => exact acts_error
  | ok session =>
    have hsession : session.userAuthVersion = version := hversion s1 (Grows.refl s1) hinv1 session rfl
    simp only [loginDeps, unix, perform_bind, call_bind, ret_bind, pure_eq]
    apply acts_now (fun _ => .kept rfl)
    intro s2 h2 _
    split_ifs
    · refine (acts_user (h1.trans h2) fun s3 cached h3 _ hcached => ?_).1
      cases cached with
      | none => exact acts_error
      | some cached =>
        have hgrows3 := h1.trans (h2.trans h3)
        refine (acts_user hgrows3 fun s4 currentUser h4 hinv4 hcurrent => ?_).2
        cases currentUser with
        | none => exact acts_error
        | some currentUser =>
          have hcached4 : Seen s s4 cached := (hcached cached rfl).later h4
          have hcurrent4 : Seen s s4 currentUser := hcurrent currentUser rfl
          dsimp only
          split_ifs with hchanged
          · have hrevoke : Presents cacheSeconds hash next first version presented s (fun _ _ => True)
                (revokeUserSession cacheSeconds "user_security_changed") s4 := by
              rw [hsession] at hchanged
              rcases hchanged with h | h | h | h
              · exact acts_revokeUserSession hcached4 (.inl h)
              · exact acts_revokeUserSession hcached4 (.inr h)
              · exact acts_revokeUserSession hcurrent4 (.inl h)
              · exact acts_revokeUserSession hcurrent4 (.inr h)
            exact Rules.Acts.bind hinv4 hrevoke fun _ _ _ _ _ => acts_error
          · exact Rules.Acts.bind hinv4 (acts_rotateSecret hhash hchain (hgrows3.trans h4))
              fun r s5 _ hinv5 hpassed => acts_finishRefresh (hpassed s5 (Grows.refl s5) hinv5)
    · exact acts_error

theorem acts_revokeByRefreshToken (hhash : hash.Injective) (hgrows : Grows hash next first o s) :
    Presents cacheSeconds hash next first version presented o (fun _ _ => True)
      (revokeByRefreshToken cacheSeconds hash presented "logout") s := by
  unfold revokeByRefreshToken revokeUserSessionByRefreshHash unix
  split
  · exact fun _ _ _ => trivial
  simp only [perform_bind]
  apply acts_now (fun _ => .kept rfl)
  intro s1 h1 _
  apply acts_readRow (fun _ => .kept rfl)
  intro s2 h2 hinv2
  obtain ⟨_, n, hrow, hat, hversion, -⟩ := hinv2.row
  rw [hrow]
  dsimp only
  split
  · exact fun _ _ _ => trivial
  · rename_i haccepts
    have hmet : Met hash next first presented o s2 := by
      have hgrows2 := hgrows.trans (h1.trans h2)
      rcases not_not.mp fun h => haccepts (.inr h) with hcurrent | ⟨hsome, -, hprevious⟩
      · exact met_of_row hgrows2 hrow hat (hat.presented hhash hcurrent) (Nat.le_refl n) (Nat.le_succ n)
      · obtain ⟨k, rfl, hpresented⟩ := hat.replayed hhash hsome hprevious
        exact met_of_row hgrows2 hrow hat hpresented (Nat.le_succ k) (Nat.le_refl _)
    exact acts_revokeFenced (revokes_ite (fun row h => h) _ "logout") hinv2 hversion (fun _ _ => .kept)
      (fun _ _ hlater _ hrevoked => .loggedOut hrevoked (hmet.later hlater)) (fun _ _ => trivial)
        (fun _ => trivial) fun _ =>
        trivial

/-- What is promised of the answer to a call that found `o` when it started. -/
def Answered (hash next : String → String) (first presented : String) (o : Store) (a : Answer) (s : Store) : Prop :=
  ∀ secret, a.Hands hash secret → Met hash next first presented o s ∧ Granted hash next first presented secret o s

theorem acts_call (hhash : hash.Injective) (hchain : (chain next first).Injective) {b : Presented}
    (hinv : Linear hash next first version s) :
    (chainRules cacheSeconds hash next first version).Acts (Change hash next first b.secret s)
      (Answered hash next first b.secret s) (b.call cacheSeconds hash next) s := by
  cases b with
  | refresh =>
    refine (acts_refreshLoginSession hhash hchain hinv).map fun r s' _ h secret hhands => ?_
    cases r with
    | error => exact hhands.elim
    | ok bundle =>
      obtain ⟨htoken, hissued⟩ := h bundle rfl
      cases htoken.symm.trans hhands
      exact hissued
  | rotate =>
    refine (acts_rotateSecret hhash hchain (.refl s)).map fun r s' _ h secret hhands => ?_
    cases r with
    | failed => exact hhands.elim
    | rotated session =>
      obtain ⟨hsession, hpassed⟩ := h session (.inl rfl)
      cases hhash (hsession.symm.trans hhands)
      exact hpassed
    | race session =>
      obtain ⟨hsession, hpassed⟩ := h session (.inr rfl)
      cases hhash (hsession.symm.trans hhands)
      exact hpassed
  | logout =>
    exact (acts_revokeByRefreshToken hhash (.refl s)).map fun _ _ _ _ secret hhands => hhands.elim

/-! ## Runs -/

/-- The row as the login left it, with no snapshot but of its version. -/
def Created (hash next : String → String) (first : String) (s : Store) : Prop :=
  ∃ row, s.row = some row ∧ row.At hash next first 0 ∧ row ∈ s.past ∧
    ∀ k, s.cache = some k → k.value.userAuthVersion = row.userAuthVersion

theorem Change.of_stale (h : Change hash next first presented o s s') (hfresh : ¬Met hash next first presented o s) :
    s'.row = s.row ∨ RevokedAs "user_security_changed" s s' ∧ AccountChanged o s := by
  cases h with
  | kept hrow => exact .inl hrow
  | rotated _ _ _ _ _ hmet | reused _ _ hmet => exact absurd hmet hfresh
  | securityChanged hrevoked haccount => exact .inr ⟨hrevoked, haccount⟩
  | loggedOut _ hmet => exact absurd hmet hfresh

theorem RevokedAs.reason_eq {reason' : String} (h : RevokedAs reason s s') (h' : RevokedAs reason' s s') :
    reason = reason' := by
  obtain ⟨_, _, hrow, -, hrow'⟩ := h
  obtain ⟨r, _, hr, -, hr'⟩ := h'
  cases hrow.symm.trans hr
  exact congrArg UserSession.revokedReason (Option.mem_unique hrow' hr')

theorem Change.of_reuse (h : Change hash next first presented o s s') (hreuse : RevokedAs "refresh_reuse" s s') :
    Replayed hash next first presented s := by
  cases h with
  | kept hrow =>
    obtain ⟨row, now, hr, hactive, hr'⟩ := hreuse
    have hsame : row.revoke now "refresh_reuse" = row := Option.some.inj (hr'.symm.trans (hrow.trans hr))
    exact absurd (hactive.symm.trans (congrArg UserSession.status hsame).symm) (by simp [UserSession.revoke])
  | rotated _ _ _ hrow' hactive _ =>
    obtain ⟨r, _, -, -, hr'⟩ := hreuse
    cases hrow'.symm.trans hr'
    exact absurd hactive (by simp [UserSession.revoke])
  | reused _ hreplayed => exact hreplayed
  | securityChanged hrevoked | loggedOut hrevoked => exact absurd (hreuse.reason_eq hrevoked) (by decide)

/-- Between whatever calls a call `b` comes: the row goes up the chain; a secret is handed out only to who presents
the one before it; a stale secret gets nothing and changes nothing, unless the account has changed; and only a replay
of the secret before the row's, after its window, revokes the session for reuse. -/
theorem refresh_chain_linear (cacheSeconds : Int) (hash next : String → String)
    (first : String) (hhash : hash.Injective)
    (hchain : (chain next first).Injective) (store : Store) (hstore : Created hash next first store)
    (before later : List (Event Presented Choice Nat)) (b : Presented) :
    let m := refreshes cacheSeconds hash next
    let p := run m.step ⟨store, []⟩ before
    let q := run m.step p (.start b :: later)
    let own (P : Store → Store → Prop) := Along m.step
      (fun r e => ∀ w, e = .advance p.calls.length w → P r.shared (m.step r e).shared) (m.step p (.start b)) later
    (∃ n n', n ≤ n' ∧ p.shared.At hash next first n ∧ q.shared.At hash next first n') ∧
      (∀ a secret, q.calls[p.calls.length]? = some (.ret a) → a.Hands hash secret →
        Granted hash next first b.secret secret p.shared q.shared) ∧
      (Stale hash next first b.secret p.shared q.shared →
        (∀ a secret, q.calls[p.calls.length]? = some (.ret a) → ¬a.Hands hash secret) ∧
          own fun s s' => s'.row = s.row ∨ RevokedAs "user_security_changed" s s' ∧ AccountChanged p.shared s) ∧
      own fun s s' => RevokedAs "refresh_reuse" s s' → Replayed hash next first b.secret s := by
  intro m p q own
  obtain ⟨row, hrow, hat, hpast, hcache⟩ := hstore
  set c := chainRules cacheSeconds hash next first row.userAuthVersion
  have hfair (r : Pool Store Instr Instr.Answer Answer) (l : List (Event Presented Choice Nat)) :
    Along m.step c.Fair r l := by
    induction l generalizing r with
    | nil => trivial
    | cons e l ih => exact ⟨by cases e <;> simp [Rules.Fair, c, chainRules], ih _⟩
  have hany (b : Presented) (s : Store) (hinv : c.inv s) : c.Safe (fun _ _ => True) (b.call cacheSeconds hash next) s :=
    ((acts_call hhash hchain hinv).mono fun _ _ _ => trivial).imp fun _ _ _ _ => trivial
  have hempty : c.Keeps (fun _ _ _ => True) (fun _ _ _ => True) ⟨store, []⟩ :=
    ⟨⟨⟨row, 0, hrow, hat, rfl, hpast⟩, hcache⟩, fun j q h => by simp at h⟩
  obtain ⟨hp, -, -⟩ := Rules.safe_run hempty (hfair _ before) fun _ b s _ _ => hany b s
  obtain ⟨hq, hgrows, hanswer, hown⟩ := Rules.own_run hp (acts_call hhash hchain hp.inv) hany (hfair _ _)
  refine ⟨?_, fun a secret ha hhands => (hanswer a ha secret hhands).2, fun hstale => ⟨?_, ?_⟩, ?_⟩
  · obtain ⟨r, n, hr, hn, -⟩ := hp.inv.row
    obtain ⟨n', hle, hn'⟩ := hgrows.generation n ⟨r, hr, hn⟩
    exact ⟨n, n', hle, ⟨r, hr, hn⟩, hn'⟩
  · exact fun a secret ha hhands => (hanswer a ha secret hhands).1.not_stale (Grows.refl _) hhash hchain hstale
  · refine hown.imp fun r e h w he => ?_
    obtain ⟨hlater, hsame | hchange⟩ := h w he
    · exact .inl (congrArg Store.row hsame)
    · exact hchange.of_stale fun hmet => hmet.not_stale hlater hhash hchain hstale
  · refine hown.imp fun r e h w he => ?_
    obtain ⟨-, hsame | hchange⟩ := h w he
    · have hkept : Change hash next first b.secret p.shared r.shared (m.step r e).shared :=
        .kept (congrArg Store.row hsame)
      exact hkept.of_reuse
    · exact hchange.of_reuse

end Calls

/-! ## A session -/

def digest (secret : String) : String := "h" ++ secret

def derive (secret : String) : String := secret ++ "'"

theorem digest_injective : Function.Injective digest := fun _ _ h => (String.append_right_inj "h").mp h

theorem length_chain (n : Nat) : (chain derive "s0" n).length = n + 2 := by
  induction n with
  | zero => rfl
  | succ n ih =>
    rw [chain, derive, String.length_append, ih]
    rfl

theorem chain_injective : Function.Injective (chain derive "s0") := by
  intro n n' h
  have hlength := congrArg String.length h
  rw [length_chain, length_chain] at hlength
  omega

def loggedInRow : UserSession := { userID := 7, userAuthVersion := 1, refreshHash := digest "s0", expiresAt := 1000 }

def loggedIn : Store := { row := some loggedInRow, clock := 5000, past := [loggedInRow] }

theorem loggedIn_created : Created digest derive "s0" loggedIn := by
  refine ⟨loggedInRow, rfl, ⟨rfl, rfl⟩, mem_singleton_self _, fun k hk => ?_⟩
  cases hk

/-- Two requests with the first secret, the second one before the first has rotated. -/
theorem refresh_chain_linear_twice :
    let m := refreshes 60 digest derive
    let own := List.replicate 24 (.advance 1 { user := some ⟨true, 1⟩ })
    let p := run m.step ⟨loggedIn, []⟩ (.start (.refresh "s0") :: List.replicate 12
      (.advance 0 { user := some ⟨true, 1⟩ }))
    ∃ n n', n ≤ n' ∧ p.shared.At digest derive "s0" n ∧
      (run m.step p (.start (.refresh "s0") :: own)).shared.At digest derive "s0" n' :=
  (refresh_chain_linear 60 digest derive "s0" digest_injective chain_injective loggedIn loggedIn_created _ _ _).1

/-- A refresh with a secret of no generation revokes the session, because its account has changed. -/
theorem unknown_secret_revokes :
    let m := refreshes 60 digest derive
    let later := List.replicate 20 (.advance 0 { user := some ⟨true, 2⟩ })
    Created digest derive "s0" loggedIn ∧ (∀ k, "x" ≠ chain derive "s0" k) ∧
      loggedIn.row.map UserSession.status = some .active ∧
      (run m.step ⟨loggedIn, []⟩ (.start (.refresh "x") :: later)).shared.row.map UserSession.status =
        some .revoked := by
  refine ⟨loggedIn_created, fun k hk => ?_, rfl, by decide⟩
  have hlength := congrArg String.length hk
  rw [length_chain] at hlength
  have hx : "x".length = 1 := rfl
  omega

end CubeRouter.Auth
