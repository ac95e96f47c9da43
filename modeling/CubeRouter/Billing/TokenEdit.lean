import CubeRouter.Billing.Accounts

/-!
# Editing a token while it is charged

A status-only `UpdateToken` (`controller/token.go`) and `DisableModelLimits` (`model/token.go`) read the
row of a token, change a field that has nothing to do with its quota, and later write the row back with
`Token.Update`. Charges and refunds in between are relative: they move `remain_quota` and `used_quota` by
opposite amounts. `Token.Update` writes `remain_quota` as it was read and leaves `used_quota` alone, so an
edit undoes what happened to the one and not to the other. The sum of the two columns is kept exactly by
those edits that find the `remain_quota` they read (`total_kept_iff`).

Several edits may be under way at once; `edits` holds the row each of them will write.
-/

namespace CubeRouter.Billing

open Relational Transition Ledger Option

def tokenStatusEnabled : Int := 1

def tokenStatusExpired : Int := 3

def tokenStatusExhausted : Int := 4

inductive TokenEditError
  | nameTooLong
  | quotaNegative
  | quotaExceedMax
  | idEmpty
  | recordNotFound
  | expiredCannotEnable
  | exhaustedCannotEnable

/-- The fields of the request body that a status-only `UpdateToken` looks at. -/
structure TokenRequest where
  id : Nat
  name : String := ""
  status : Int
  remainQuota : Int := 0
  unlimitedQuota : Bool := false

/-! ## Reading the row -/

/-- The defaults of a personal token belong to its user; those of an organization's to the organization. -/
def normalizeTokenScope (token : Token) : Token :=
  let scopeType := if token.scopeType = .unset then .personal else token.scopeType
  let visibility := if token.visibility = "" then "private" else token.visibility
  match scopeType with
  | .personal => { token with
      scopeType
      scopeId := if token.scopeId = 0 then token.userId else token.scopeId
      creatorUserId := if token.creatorUserId = 0 then token.userId else token.creatorUserId
      responsibleUserId := if token.responsibleUserId = 0 then token.userId else token.responsibleUserId
      visibility }
  | .organization => { token with
      scopeType
      scopeId := if token.scopeId = 0 then token.organizationId else token.scopeId
      visibility }
  | .unset => token

def getTokenByIds (w : World) (id userId : Nat) : Except TokenEditError Token :=
  if id = 0 ∨ userId = 0 then .error .idEmpty
  else
    match w.liveToken id with
    | none => .error .recordNotFound
    | some token =>
      if token.userId = userId ∧ (token.scopeType = .personal ∨ token.scopeType = .unset) then
        .ok (normalizeTokenScope token)
      else
        .error .recordNotFound

def getTokenById (w : World) (id : Nat) : Except TokenEditError Token :=
  if id = 0 then .error .idEmpty
  else
    match w.liveToken id with
    | none => .error .recordNotFound
    | some token => .ok (normalizeTokenScope token)

def TokenRequest.check (request : TokenRequest) (maxTokenQuota : Int) : Except TokenEditError Unit :=
  if 50 < request.name.utf8ByteSize then .error .nameTooLong
  else if !request.unlimitedQuota ∧ request.remainQuota < 0 then .error .quotaNegative
  else if !request.unlimitedQuota ∧ maxTokenQuota < request.remainQuota then .error .quotaExceedMax
  else .ok ()

/-- A token that ran out, or ran out of quota, is not switched on again. -/
def checkEnable (request : TokenRequest) (token : Token) (now : Int) : Except TokenEditError Unit :=
  if request.status ≠ tokenStatusEnabled then .ok ()
  else if token.status = tokenStatusExpired ∧ token.expiredTime ≤ now ∧ token.expiredTime ≠ -1 then
    .error .expiredCannotEnable
  else if token.status = tokenStatusExhausted ∧ token.remainQuota ≤ 0 ∧ !token.unlimitedQuota then
    .error .exhaustedCannotEnable
  else .ok ()

/-- `UpdateToken` with `status_only` up to its write: the row it will write. -/
def updateTokenStatus (maxTokenQuota : Int) (w : World) (userId : Nat) (request : TokenRequest) (now : Int) :
    Except TokenEditError (Nat × Token) := do
  request.check maxTokenQuota
  let cleanToken ← getTokenByIds w request.id userId
  checkEnable request cleanToken now
  .ok (request.id, { cleanToken with status := request.status })

/-- `DisableModelLimits` up to its write. -/
def disableModelLimits (w : World) (tokenId : Nat) : Except TokenEditError (Nat × Token) := do
  let token ← getTokenById w tokenId
  .ok (tokenId, { token with modelLimitsEnabled := false, modelLimits := "" })

/-! ## Writing it back -/

/-- The columns `Token.Update` selects. `used_quota` is not one of them. -/
def Token.updated (row token : Token) : Token :=
  { row with
    name := token.name
    status := token.status
    expiredTime := token.expiredTime
    remainQuota := token.remainQuota
    unlimitedQuota := token.unlimitedQuota
    modelLimitsEnabled := token.modelLimitsEnabled
    modelLimits := token.modelLimits
    allowIps := token.allowIps
    group := token.group
    crossGroupRetry := token.crossGroupRetry
    autoGroups := token.autoGroups
    userId := token.userId
    scopeType := token.scopeType
    scopeId := token.scopeId
    visibility := token.visibility
    organizationId := token.organizationId
    creatorUserId := token.creatorUserId
    responsibleUserId := token.responsibleUserId
    transferReason := token.transferReason
    disabledBySystems := token.disabledBySystems
    systemDisabledReason := token.systemDisabledReason
    systemDisabledRefId := token.systemDisabledRefId
    systemDisabledAt := token.systemDisabledAt
    previousStatus := token.previousStatus }

/-- `Token.Update`: a soft-deleted row is not found, which is no error. -/
def World.updateToken (w : World) (id : Nat) (token : Token) : World :=
  { w with tokens := w.tokens.modify id fun row => if row.deleted then row else Token.updated row token }

/-! ## Interleaving -/

structure Editing where
  world : World
  /-- The edits that have read their row and not written it. -/
  edits : Nat → Option (Nat × Token) := fun _ => none

inductive TokenEvent
  | readStatus (edit userId : Nat) (request : TokenRequest) (now : Int)
  | readModelLimits (edit tokenId : Nat)
  | write (edit : Nat)
  | decrease (now : Int) (id : Nat) (quota : Int)
  | increase (now : Int) (id : Nat) (quota : Int)
  | reserve (answer : CacheAnswer) (now : Int) (id : Nat) (quota : Int) (unlimited : Bool)

/-- An edit whose read or checks fail ends there. -/
def Editing.begin (σ : Editing) (edit : Nat) (read : Except TokenEditError (Nat × Token)) : Editing :=
  { σ with edits := fun i => if i = edit then read.toOption else σ.edits i }

def Editing.step (st : Settings) (maxTokenQuota : Int) (σ : Editing) : TokenEvent → Editing
  | .readStatus edit userId request now =>
    σ.begin edit (updateTokenStatus maxTokenQuota σ.world userId request now)
  | .readModelLimits edit tokenId => σ.begin edit (disableModelLimits σ.world tokenId)
  | .write edit =>
    match σ.edits edit with
    | none => σ
    | some (id, token) =>
      { world := σ.world.updateToken id token
        edits := fun i => if i = edit then none else σ.edits i }
  | .decrease now id quota =>
    { σ with world := (decreaseTokenQuota st σ.world now id quota).toOption.getD σ.world }
  | .increase now id quota =>
    { σ with world := (increaseTokenQuota st σ.world now id quota).toOption.getD σ.world }
  | .reserve answer now id quota unlimited =>
    { σ with world := ((tryReserveTokenQuota st answer σ.world now id quota unlimited).toOption.map
        fun r => r.2).getD σ.world }

def tokenTotal (w : World) (id : Nat) : Option Int :=
  (w.tokens.get? id).map fun t => t.remainQuota + t.usedQuota

/-- A write finds the `remain_quota` that its edit has read, or no row. -/
def Editing.fresh (σ : Editing) : TokenEvent → Prop
  | .write edit => ∀ p ∈ σ.edits edit, ∀ row ∈ σ.world.liveToken p.1, row.remainQuota = p.2.remainQuota
  | .readStatus .. | .readModelLimits .. | .decrease .. | .increase .. | .reserve .. => True

instance (σ : Editing) (e : TokenEvent) : Decidable (σ.fresh e) :=
  match e with
  | .write edit => inferInstanceAs
      (Decidable (∀ p ∈ σ.edits edit, ∀ row ∈ σ.world.liveToken p.1, row.remainQuota = p.2.remainQuota))
  | .readStatus .. | .readModelLimits .. | .decrease .. | .increase .. | .reserve .. => .isTrue trivial

/-! ## What a step does to the totals -/

variable {st : Settings} {w w' : World} {now : Int} {id : Nat} {quota delta : Int}

theorem tokenTotal_modify {g : Token → Token}
    (hg : ∀ t, (g t).remainQuota + (g t).usedQuota = t.remainQuota + t.usedQuota) :
    tokenTotal { w with tokens := w.tokens.modify id g } = tokenTotal w := by
  funext i
  simp only [tokenTotal, Table.get?_modify]
  split_ifs
  · simp [Function.comp_def, hg]
  · rfl

theorem addTokenQuota_total {value : Int} : tokenTotal (w.addTokenQuota now id value) = tokenTotal w := by
  refine tokenTotal_modify (fun t => ?_)
  split_ifs
  · rfl
  · show t.remainQuota + value + (t.usedQuota - value) = t.remainQuota + t.usedQuota
    omega

theorem moveTokenQuota_total (h : moveTokenQuota st w now id quota delta = .ok w') : tokenTotal w' = tokenTotal w := by
  unfold moveTokenQuota at h
  split_ifs at h
  · cases h
    rfl
  · cases h
    exact addTokenQuota_total

theorem reserveTokenQuotaDB_total (w : World) (now : Int) (id : Nat) (quota : Int) :
    tokenTotal (reserveTokenQuotaDB w now id quota).2 = tokenTotal w := by
  unfold reserveTokenQuotaDB
  split
  · rfl
  · split_ifs
    · exact addTokenQuota_total
    · rfl

theorem persistTokenQuotaDelta_total (h : persistTokenQuotaDelta st w now id delta = .ok w') :
    tokenTotal w' = tokenTotal w := by
  unfold persistTokenQuotaDelta at h
  split at h
  · cases h
    rfl
  · split at h
    · cases h
    · cases h
      exact addTokenQuota_total

theorem tryReserveTokenQuota_total {answer : CacheAnswer} {unlimited ok : Bool}
    (h : tryReserveTokenQuota st answer w now id quota unlimited = .ok (ok, w')) : tokenTotal w' = tokenTotal w := by
  have hdb : .ok (reserveTokenQuotaDB w now id quota) = (.ok (ok, w') : Except BillingError (Bool × World)) →
      tokenTotal w' = tokenTotal w := by
    intro heq
    have hstored := reserveTokenQuotaDB_total w now id quota
    rwa [Except.ok.inj heq] at hstored
  unfold tryReserveTokenQuota at h
  split at h
  · cases h
  · split at h
    · cases h
      rfl
    · split at h
      · obtain ⟨w1, hdec, hrest⟩ := bind_eq_ok.mp h
        cases hrest
        exact moveTokenQuota_total hdec
      · split at h
        · exact hdb h
        · cases answer with
          | unavailable => exact hdb h
          | insufficient =>
            cases h
            rfl
          | ok =>
            obtain ⟨_, hpersist, hrest⟩ := bind_eq_ok.mp h
            cases hrest
            exact persistTokenQuotaDelta_total hpersist

theorem updateToken_total_iff {token : Token} :
    tokenTotal (w.updateToken id token) = tokenTotal w ↔
    ∀ row ∈ w.liveToken id, row.remainQuota = token.remainQuota := by
  have hrow : tokenTotal (w.updateToken id token) id = (w.tokens.get? id).map fun row =>
      if row.deleted then row.remainQuota + row.usedQuota else token.remainQuota + row.usedQuota := by
    simp only [tokenTotal, World.updateToken, Table.get?_modify_self, map_map]
    refine congrArg (fun g => (w.tokens.get? id).map g) (funext fun row => ?_)
    simp only [Function.comp_apply, apply_ite (fun t : Token => t.remainQuota + t.usedQuota)]
    rfl
  constructor
  · intro heq row hlive
    obtain ⟨hget, hdel⟩ := filter_eq_some_iff.mp hlive
    have hsame := congrFun heq id
    rw [hrow, tokenTotal, hget, map_some, map_some, if_neg (by simpa using hdel)] at hsame
    have hsum := Option.some.inj hsame
    omega
  · intro hfresh
    funext i
    by_cases hi : i = id
    · subst hi
      rw [hrow, tokenTotal]
      cases hget : w.tokens.get? i with
      | none => rfl
      | some row =>
        simp only [map_some]
        split_ifs with hdel
        · rfl
        · have hlive : w.liveToken i = some row := by simp [World.liveToken, hget, hdel]
          rw [hfresh row hlive]
    · simp [tokenTotal, World.updateToken, Table.get?_modify, if_neg hi]

theorem Editing.step_total_iff {maxTokenQuota : Int} (σ : Editing) (e : TokenEvent) :
    tokenTotal (σ.step st maxTokenQuota e).world = tokenTotal σ.world ↔ σ.fresh e := by
  cases e with
  | readStatus | readModelLimits => exact ⟨fun _ => trivial, fun _ => rfl⟩
  | write edit =>
    simp only [Editing.step, Editing.fresh]
    cases hedit : σ.edits edit with
    | none => simp
    | some p =>
      simp only [mem_def, Option.some.injEq, forall_eq']
      exact updateToken_total_iff
  | decrease now id quota =>
    refine ⟨fun _ => trivial, fun _ => ?_⟩
    simp only [Editing.step]
    cases hres : decreaseTokenQuota st σ.world now id quota with
    | error => rfl
    | ok => exact moveTokenQuota_total hres
  | increase now id quota =>
    refine ⟨fun _ => trivial, fun _ => ?_⟩
    simp only [Editing.step]
    cases hres : increaseTokenQuota st σ.world now id quota with
    | error => rfl
    | ok => exact moveTokenQuota_total hres
  | reserve answer now id quota unlimited =>
    refine ⟨fun _ => trivial, fun _ => ?_⟩
    simp only [Editing.step]
    cases hres : tryReserveTokenQuota st answer σ.world now id quota unlimited with
    | error => rfl
    | ok => exact tryReserveTokenQuota_total hres

/-- **Which runs keep what a token has.** Status-only edits, `DisableModelLimits` calls, charges, refunds and
reservations are interleaved in any order. In every state of the run every token's stored `remain_quota`
plus `used_quota` is what it was at the start, if and only if each write of an edit finds the `remain_quota`
that the edit has read. -/
theorem total_kept_iff (st : Settings) (maxTokenQuota : Int) (σ : Editing) (events : List TokenEvent) :
    (∀ done rest, events = done ++ rest →
        tokenTotal (run (Editing.step st maxTokenQuota) σ done).world = tokenTotal σ.world) ↔
      Along (Editing.step st maxTokenQuota) Editing.fresh σ events :=
  constant_iff_along (m := fun σ : Editing => tokenTotal σ.world) Editing.step_total_iff

def editSample : Editing where
  world := { tokens := Table.empty.insert { key := "k", userId := 1, remainQuota := 500 } }

/-- The token is switched off by an edit that read it before a charge of `100`: the charge comes back to
`remain_quota` and stays in `used_quota`. -/
theorem edit_gives_charge_back :
    let σ := run (Editing.step {} (5 * 10 ^ 14)) editSample
      [.readStatus 0 1 { id := 1, status := 2 } 10, .decrease 11 1 100, .write 0]
    (σ.world.tokens.get? 1).map (fun t => (t.status, t.remainQuota, t.usedQuota)) = some (2, 500, 100) ∧
      tokenTotal editSample.world 1 = some 500 ∧ tokenTotal σ.world 1 = some 600 := by
  decide +kernel

end CubeRouter.Billing
