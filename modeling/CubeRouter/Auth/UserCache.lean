import CubeRouter.Auth.Login

/-!
# The user cache

`model/user_cache.go` and `model/user_auth_cache.go` keep three keys for a user: a hash with what a request needs of the
row, a pending fence that a security change publishes before it commits, and a floor that only rises. The store is
that of one user; of the row it has the fields that the refreshes write, the status and the auth version. A
transaction takes effect at its commit: nobody else sees what it has updated before.
-/

namespace CubeRouter.Auth.UserCache

open Concurrency Expiring

structure UserBase where
  authVersion : Int
  enabled : Bool := true
  group : String
  modelDiscounts : String
  deriving DecidableEq

def UserBase.view (u : UserBase) : UserView := ⟨u.enabled, u.authVersion⟩

inductive Field
  | group
  | modelDiscounts
  deriving DecidableEq

def Field.get : Field → UserBase → String
  | .group, u => u.group
  | .modelDiscounts, u => u.modelDiscounts

def Field.set : Field → String → UserBase → UserBase
  | .group, value, u => { u with group := value }
  | .modelDiscounts, value, u => { u with modelDiscounts := value }

@[simp] theorem Field.get_set (f : Field) (value : String) (u : UserBase) : f.get (f.set value u) = value := by
  cases f <;> rfl

theorem Field.get_set_of_ne {f g : Field} (h : f ≠ g) (value : String) (u : UserBase) :
    f.get (g.set value u) = f.get u := by
  cases f <;> cases g <;> first | rfl | exact absurd rfl h

@[simp] theorem Field.authVersion_set (f : Field) (value : String) (u : UserBase) :
    (f.set value u).authVersion = u.authVersion := by
  cases f <;> rfl

/-! ## The store -/

structure Store where
  row : UserBase
  hash : Option (Key UserBase) := none
  fence : Option (Key Int) := none
  /-- `auth:user:version:<id>`, zero when it is missing. -/
  floor : Int := 0
  clock : Int
  /-- The version of the last security change that has committed, and how long its fence was asked for. Nothing reads
  them. -/
  raised : Int := 0
  raisedUntil : Int := 0
  /-- How often a fence was published. Nothing reads it. -/
  fences : Nat := 0

inductive Lookup
  | failed
  | missing
  | found (user : UserBase)

inductive Committed
  | conflict
  | rolledBack
  | done (row : UserBase)

inductive Instr
  | now
  | readRow
  | readHash
  | readFloor
  | writeCache (user : UserBase) (includeQuota : Bool)
  | writeField (field : Field) (value : String) (authVersion : Int)
  /-- The answer is when the fence ends; the code does not ask. -/
  | setFence (authVersion : Int)
  | publish (authVersion : Int)
  | deleteHash
  /-- A transaction with an `UPDATE`; `fencedUntil` is only there for who reads a run. -/
  | update (fencedUntil : Option Int) (f : UserBase → Option UserBase)

@[reducible] def Instr.Answer : Instr → Type
  | .now => Int
  | .readRow => UserBase
  | .readHash => Lookup
  | .readFloor => Option Int
  | .writeCache _ _ => Reply
  | .writeField _ _ _ => Reply
  | .setFence _ => Option Int
  | .publish _ => Reply
  | .deleteHash => Reply
  | .update _ _ => Committed

structure Choice where
  redis : Fate := .done
  commit : Bool := true

section Scripts

variable (cacheSeconds : Int)

def userAuthFenceTTLSeconds : Int := userCacheTTLSeconds cacheSeconds + max (userCacheTTLSeconds cacheSeconds) 60

def Store.pending (s : Store) : Int := (live s.clock s.fence).getD 0

def Store.current (s : Store) : Int := ((live s.clock s.hash).map UserBase.authVersion).getD 0

/-- What every script does with the two version keys once it has let the version pass. -/
def Store.pass (s : Store) (incoming : Int) : Store :=
  { s with
    floor := max s.floor incoming
    fence := if 0 < s.pending ∧ s.pending ≤ incoming then none else s.fence }

/-- The script is refused for a version below the fence, the floor or the hash. -/
def Store.Refuses (s : Store) (incoming : Int) : Prop :=
  incoming < s.pending ∨ incoming < s.floor ∨ incoming < s.current

instance (s : Store) (incoming : Int) : Decidable (s.Refuses incoming) := inferInstanceAs (Decidable (_ ∨ _))

/-- The script of `writeUserCache`. -/
def Store.writeCache (s : Store) (user : UserBase) (includeQuota : Bool) : Reply × Store :=
  if s.Refuses user.authVersion then (.refused, s)
  else if includeQuota = false ∧ (live s.clock s.hash).isNone then (.applied, s.pass user.authVersion)
  else
    (.applied, { s.pass user.authVersion with
      hash := put s.clock user (s.clock + userCacheTTLSeconds cacheSeconds * 1000) })

/-- The script of `updateUserCacheFieldAtVersion`. -/
def Store.writeField (s : Store) (field : Field) (value : String) (authVersion : Int) : Reply × Store :=
  if s.Refuses authVersion then (.refused, s)
  else
    match s.hash with
    | some k =>
      if s.clock ≤ k.expires ∧ k.value.authVersion = authVersion then
        (.applied, { s.pass authVersion with hash := some { k with value := field.set value k.value } })
      else (.applied, s.pass authVersion)
    | none => (.applied, s.pass authVersion)

/-- The script of `SetUserAuthVersionFence`. -/
def Store.setFence (s : Store) (authVersion : Int) : Store :=
  if s.pending ≤ authVersion then
    { s with
      fence := put s.clock authVersion (s.clock + userAuthFenceTTLSeconds cacheSeconds * 1000)
      fences := s.fences + 1 }
  else { s with fences := s.fences + 1 }

def Store.save (s : Store) (fencedUntil : Option Int) (row : UserBase) : Store :=
  if s.row.authVersion < row.authVersion then
    { s with row := row, raised := row.authVersion, raisedUntil := fencedUntil.getD s.clock }
  else { s with row := row }

def reach {α : Type} (fate : Fate) (failed : α) (r : α × Store) (s : Store) : α × Store :=
  match fate with
  | .done => r
  | .failed => (failed, s)
  | .lost => (failed, r.2)

def exec : (i : Instr) → Choice → Store → i.Answer × Store
  | .now, _, s => (s.clock, s)
  | .readRow, _, s => (s.row, s)
  | .readHash, w, s =>
    match w.redis, live s.clock s.hash with
    | .done, some user => (.found user, s)
    | .done, none => (.missing, s)
    | _, _ => (.failed, s)
  | .readFloor, w, s => (if w.redis = .done then some (max 0 (max s.pending s.floor)) else none, s)
  | .writeCache user includeQuota, w, s => reach w.redis .failed (s.writeCache cacheSeconds user includeQuota) s
  | .writeField field value authVersion, w, s => reach w.redis .failed (s.writeField field value authVersion) s
  | .setFence authVersion, w, s =>
    let s' := s.setFence cacheSeconds authVersion
    reach w.redis none (s'.fence.map Key.expires, s') s
  | .publish authVersion, w, s => reach w.redis .failed (.applied, s.pass authVersion) s
  | .deleteHash, w, s => reach w.redis .failed (.applied, { s with hash := none }) s
  | .update fencedUntil f, w, s =>
    match f s.row with
    | none => (.conflict, s)
    | some row => if w.commit then (.done row, s.save fencedUntil row) else (.rolledBack, s)

end Scripts

abbrev Call (α : Type) := Prog Instr Instr.Answer α

abbrev readRow : Call UserBase := perform Instr.readRow

abbrev readHash : Call Lookup := perform Instr.readHash

abbrev readFloor : Call (Option Int) := perform Instr.readFloor

abbrev setUserAuthVersionFence (authVersion : Int) : Call (Option Int) := perform (Instr.setFence authVersion)

abbrev publishCommittedUserAuthVersion (authVersion : Int) : Call Reply := perform (Instr.publish authVersion)

abbrev invalidateUserCache : Call Reply := perform Instr.deleteHash

abbrev evalWriteCache (user : UserBase) (includeQuota : Bool) : Call Reply :=
  perform (Instr.writeCache user includeQuota)

abbrev evalWriteField (field : Field) (value : String) (authVersion : Int) : Call Reply :=
  perform (Instr.writeField field value authVersion)

abbrev update (fencedUntil : Option Int) (f : UserBase → Option UserBase) : Call Committed :=
  perform (Instr.update fencedUntil f)

/-! ## Calls -/

inductive CacheError
  | invalid
  | pending
  | redis
  | changed
  | transaction
  deriving DecidableEq

def replyError : Reply → Option CacheError
  | .failed => some .redis
  | .refused => some .pending
  | .applied => none

def writeUserCache (user : UserBase) (includeQuota : Bool) : Call (Option CacheError) := do
  if user.authVersion ≤ 0 then return some .invalid
  else return replyError (← evalWriteCache user includeQuota)

def updateUserCacheFieldAtVersion (field : Field) (value : String) (authVersion : Int) : Call (Option CacheError) := do
  if authVersion ≤ 0 then return some .invalid
  else return replyError (← evalWriteField field value authVersion)

/-- Nothing for every reason to go to the database. -/
def cacheGetUserBase : Call (Option UserBase) := do
  match ← readHash with
  | .found user =>
    if user.authVersion ≤ 0 then return none
    else
      match ← readFloor with
      | none => return none
      | some floor => if user.authVersion < floor then return none else return some user
  | _ => return none

/-- `populateUserCache`; an error that is not the fence's is only logged. -/
def fillUserCache (user : UserBase) : Call (Except CacheError UserBase) := do
  match ← writeUserCache user true with
  | some .pending => return .error .pending
  | _ => return .ok user

def getUserCache : Call (Except CacheError UserBase) := do
  match ← cacheGetUserBase with
  | some user => return .ok user
  | none =>
    let user ← readRow
    match ← readFloor with
    | some floor => if user.authVersion < floor then return .error .pending else fillUserCache user
    | none => fillUserCache user

/-- The row with the next version, if it is at the one that was read. -/
def raiseRow (authVersion next : Int) (edit : UserBase → UserBase) (row : UserBase) : Option UserBase :=
  if row.authVersion = authVersion then some { edit row with authVersion := next } else none

/-- `IncrementUserAuthVersionWithTx`, with what else its transaction changes, to its end; the rounds that are left. -/
def incrementUserAuthVersion (edit : UserBase → UserBase) : Nat → Call (Option UserBase)
  | 0 => return none
  | rounds + 1 => do
    let user ← readRow
    let next := max user.authVersion 1 + 1
    match ← setUserAuthVersionFence next with
    | none => return none
    | some fencedUntil =>
      match ← update (some fencedUntil) (raiseRow user.authVersion next edit) with
      | .done row => return some row
      | .conflict => incrementUserAuthVersion edit rounds
      | .rolledBack => return none

/-- How the callers publish what they have committed: the row read again (`PublishUserAuthCache`), the row of the
transaction (`updateUserCache`), or the floor alone and no hash (the deletions). -/
inductive Publication
  | reread
  | snapshot
  | floor

def changeSecurity (edit : UserBase → UserBase) (publication : Publication) : Call (Option CacheError) := do
  match ← incrementUserAuthVersion edit 3 with
  | none => return some .transaction
  | some row =>
    match publication with
    | .reread => writeUserCache (← readRow) false
    | .snapshot => writeUserCache row false
    | .floor =>
      match ← publishCommittedUserAuthVersion row.authVersion with
      | .applied => return replyError (← invalidateUserCache)
      | r => return replyError r

/-- The rounds that are left of `RefreshUserGroupCache` or `RefreshUserModelDiscountsCache`. -/
def refreshRounds (field : Field) : Nat → UserBase → Call (Option CacheError)
  | 0, authoritative => do
    match ← updateUserCacheFieldAtVersion field (field.get authoritative) authoritative.authVersion with
    | some e => return some e
    | none => return some .changed
  | rounds + 1, authoritative => do
    match ← updateUserCacheFieldAtVersion field (field.get authoritative) authoritative.authVersion with
    | some e => return some e
    | none =>
      let verified ← readRow
      if verified.authVersion = authoritative.authVersion ∧
        field.get verified = field.get authoritative then return none
      else refreshRounds field rounds verified

def refreshUserField (field : Field) : Call (Option CacheError) := do refreshRounds field 3 (← readRow)

/-- A change of the field, and the refresh behind it. -/
def changeField (field : Field) (value : String) : Call (Option CacheError) := do
  match ← update none fun row => some (field.set value row) with
  | .done _ => refreshUserField field
  | _ => return some .transaction

def getUserView : Call (Option UserView) := do
  match ← getUserCache with
  | .ok user => return some user.view
  | .error _ => return none

/-- The session's side has already answered. -/
def loginDeps (session : Except SessionError UserSession) (rotation : Rotation) (issued : Bool) :
    LoginDeps Instr Instr.Answer where
  getUserSessionCached := return session
  unix := do return (← perform Instr.now) / 1000
  getUserCache := getUserView
  getUserById := do return some (← readRow).view
  revokeUserSession _ := return .ok true
  rotate _ := return rotation
  issueAccessToken := return issued

inductive Request
  | load
  | changeSecurity (edit : UserBase → UserBase) (publication : Publication)
  | refreshField (field : Field)
  | changeField (field : Field) (value : String)
  | validate (identity : AuthIdentity) (session : Except SessionError UserSession)
  | refresh (secret : String) (session : Except SessionError UserSession) (rotation : Rotation) (issued : Bool)

inductive Answer
  | loaded (r : Except CacheError UserBase)
  | refreshed (r : Option CacheError)
  | validated (r : Except RefreshError (UserSession × UserView))
  | exchanged (r : Except RefreshError Bundle)

section System

variable (cacheSeconds : Int) (hashRefreshSecret deriveNextRefreshSecret : String → String)

def Request.call : Request → Call Answer
  | .load => do return .loaded (← getUserCache)
  | .changeSecurity edit publication => do return .refreshed (← UserCache.changeSecurity edit publication)
  | .refreshField field => do return .refreshed (← refreshUserField field)
  | .changeField field value => do return .refreshed (← UserCache.changeField field value)
  | .validate identity session => do
    return .validated (← validateLoginSession (loginDeps session (.failed .invalid) true) identity)
  | .refresh secret session rotation issued => do
    return .exchanged
      (← refreshLoginSession (loginDeps session rotation issued) hashRefreshSecret deriveNextRefreshSecret secret)

def users : System Store Instr Instr.Answer Answer Request Choice Nat where
  exec := exec cacheSeconds
  begin := Request.call hashRefreshSecret deriveNextRefreshSecret
  env n s := { s with clock := s.clock + n }

end System

end CubeRouter.Auth.UserCache
