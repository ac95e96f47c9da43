import CubeRouter.Ledger.Transitions

/-!
# Conservation of the organization ledger

For one organization `o` the ledger keeps `used_quota = u₀ + Σ hold` over the sessions of `o`, where
`hold` is what a session currently holds. The invariant `Conserved` adds that amounts are never
negative and that nothing is refunded before the session is `refunded`. A money-moving operation is a
`SessionStep` whose delta is the change of that session's hold (`Conserved.sessionStep`); everything else leaves
all holds alone (`Conserved.sameHold`).

The clamp of `updateOrganizationUsedQuotaTx` is followed by the history variable `usedQuotaUpdates`.
-/

namespace CubeRouter.Ledger

open Relational Transition

/-- What the sessions of organization `o` hold together. -/
def held (o : Nat) (db : DB) : Int := db.sessions.sum fun s => if s.organizationId = o then s.hold else 0

/-- The clamp of the `UPDATE` did not change its result. -/
def UsedQuotaUpdate.exact (u : UsedQuotaUpdate) : Prop :=
  0 ≤ u.usedBefore + u.delta ∧ u.usedAfter = u.usedBefore + u.delta

instance (u : UsedQuotaUpdate) : Decidable u.exact := inferInstanceAs (Decidable (_ ∧ _))

structure Conserved (o : Nat) (u₀ : ℕ) (db : DB) : Prop where
  wellFormed : ∀ i s, db.sessions.get? i = some s → s.organizationId = o → s.WellFormed
  used : ∃ org, db.organizations.get? o = some org ∧ org.usedQuota = u₀ + held o db
  history : ∀ u ∈ db.usedQuotaUpdates, u.organizationId = o → u.exact

variable {o : Nat} {u₀ : ℕ} {env : Env} {f f' : OrganizationFunding} {db db' : DB} {id : Nat}
  {s s' : OrganizationBillingSession}

theorem held_nonneg (h : ∀ i s, db.sessions.get? i = some s → s.organizationId = o → s.WellFormed) : 0 ≤ held o db := by
  apply Table.sum_nonneg
  intro i s hs
  split_ifs with ho
  · exact (h i s hs ho).hold_nonneg
  · exact le_rfl

variable {delta now : Int}

/-- A charge of `delta` keeps the equation when the holds move by the same `delta` and stay
non-negative: then the clamp is not reached. -/
theorem usedQuotaMoved_conserved {orgs orgs' : Table Organization} {updates updates' : List UsedQuotaUpdate}
    {h h' : Int} {org after : Organization} (hmoved : UsedQuotaMoved orgs orgs' updates updates' id delta org after)
    (hused : ∃ org, orgs.get? o = some org ∧ org.usedQuota = u₀ + h)
    (hhist : ∀ u ∈ updates, u.organizationId = o → u.exact) (hheld : h' = h + if id = o then delta else 0)
    (hnonneg : 0 ≤ h') : (∃ org, orgs'.get? o = some org ∧ org.usedQuota = u₀ + h') ∧
      ∀ u ∈ updates', u.organizationId = o → u.exact := by
  obtain ⟨org0, hget0, _⟩ := hused
  by_cases ho : id = o
  · subst ho
    obtain rfl : org = org0 := Option.mem_unique hmoved.get hget0
    have hlow : 0 ≤ org.usedQuota + delta := by omega
    have hafter : after.usedQuota = org.usedQuota + delta := by
      rw [hmoved.used, usedQuotaExpr_eq hlow]
    refine ⟨⟨after, by rw [hmoved.get', if_pos rfl], by omega⟩, fun u hu hid => ?_⟩
    rcases hmoved.history u hu with hold | rfl
    · exact hhist u hold hid
    · exact ⟨hlow, hafter⟩
  · refine ⟨⟨org0, by rw [hmoved.get', if_neg (Ne.symm ho), hget0], by omega⟩, fun u hu hid => ?_⟩
    rcases hmoved.history u hu with hold | rfl
    · exact hhist u hold hid
    · exact absurd hid ho

/-! ## One step -/

theorem Conserved.sessionStep (hc : Conserved o u₀ db) (hstep : SessionStep db db' id s s' delta)
    (hid : s'.organizationId = s.organizationId) (hwf : s.WellFormed → s'.WellFormed)
    (hdelta : s.WellFormed → delta = s'.hold - s.hold) : Conserved o u₀ db' := by
  obtain ⟨_, _, hmoved⟩ := hstep.organization
  have hwf' : ∀ i t, db'.sessions.get? i = some t → t.organizationId = o → t.WellFormed := by
    intro i t ht ho
    by_cases hi : i = id
    · subst hi
      obtain rfl : s' = t := Option.mem_unique hstep.get_self ht
      exact hwf (hc.wellFormed i s hstep.get (hid ▸ ho))
    · rw [hstep.get_of_ne hi] at ht
      exact hc.wellFormed i t ht ho
  have hheld : held o db' = held o db + if s.organizationId = o then delta else 0 := by
    unfold held
    rw [hstep.sessions, Table.sum_modify _ _ _ hstep.get, hid]
    split_ifs with ho
    · rw [hdelta (hc.wellFormed id s hstep.get ho)]
    · simp
  obtain ⟨hused, hhist⟩ := usedQuotaMoved_conserved hmoved hc.used hc.history hheld (held_nonneg hwf')
  exact ⟨hwf', hused, hhist⟩

/-- A change of one row that touches neither its hold nor its amounts keeps the invariant. -/
theorem Conserved.sameHold {g : OrganizationBillingSession → OrganizationBillingSession} (hc : Conserved o u₀ db)
    (hg : ∀ t, db.sessions.get? id = some t → (g t).organizationId = t.organizationId ∧
      (g t).hold = t.hold ∧ (t.WellFormed → (g t).WellFormed)) :
    Conserved o u₀ { db with sessions := db.sessions.modify id g } := by
  obtain ⟨hwf, hused, hhist⟩ := hc
  have hheld : held o { db with sessions := db.sessions.modify id g } = held o db := by
    apply Table.sum_modify_congr
    intro t ht
    rw [(hg t ht).1, (hg t ht).2.1]
  refine ⟨fun i t ht ho => ?_, by rw [hheld]; exact hused, hhist⟩
  rw [Table.get?_modify] at ht
  split_ifs at ht with hi
  · subst hi
    obtain ⟨r, hr, rfl⟩ := Option.map_eq_some_iff.mp ht
    exact (hg r hr).2.2 (hwf i r hr ((hg r hr).1 ▸ ho))
  · exact hwf i t ht ho

/-! ## The transactions -/

section Created

variable {amount deducted : Int} {identity : SessionIdentity} {relayInfo : RelayInfo}
  {token? : Option (Nat × Token)}

theorem Created.held (h : Created env f f' amount db db' identity relayInfo token? deducted) (o : Nat) :
    held o db' = Ledger.held o db + if f.relayInfo.billingAccountId = o then amount else 0 := by
  rw [Ledger.held, h.sum, h.organizationId, newSession_hold, Ledger.held]

theorem Conserved.created (hc : Conserved o u₀ db) (hamount : 0 ≤ amount)
    (h : Created env f f' amount db db' identity relayInfo token? deducted) : Conserved o u₀ db' := by
  have hwf' : ∀ i t, db'.sessions.get? i = some t → t.organizationId = o → t.WellFormed := by
    intro i t ht ho
    rcases h.row i t ht with ⟨-, rfl⟩ | ⟨-, hold⟩
    · exact newSession_wellFormed hamount
    · exact hc.wellFormed i t hold ho
  obtain ⟨_, _, hmoved⟩ := h.organization
  obtain ⟨hused, hhist⟩ := usedQuotaMoved_conserved hmoved hc.used hc.history (h.held o) (held_nonneg hwf')
  exact ⟨hwf', hused, hhist⟩

end Created

/-- Each transaction moves the counter by what it changes of the holds. -/
theorem Conserved.apply (hc : Conserved o u₀ db) (h : LedgerEffect db db') : Conserved o u₀ db' := by
  cases h with
  | nothing hdb => rwa [hdb]
  | opened hamount hcreated => exact hc.created hamount hcreated
  | reserved hdelta hopen hmoved =>
    refine hc.sessionStep hmoved.step rfl (fun hwf => ⟨?_, hwf.2, hwf.3⟩) fun _ => ?_
    · exact add_nonneg hwf.preConsumed hdelta.le
    · rw [hold_reserved hopen]
      omega
  | settled hactual hopen hmoved =>
    refine hc.sessionStep hmoved.step rfl (fun hwf => ⟨hwf.1, hactual, fun _ => hwf.3 hopen.2⟩) fun _ => ?_
    rw [hold_of_open hopen]
    rfl
  | @refunded _ s now tokenRefunded hrefunded hmoved =>
    refine hc.sessionStep hmoved.step rfl (fun hwf => ⟨hwf.1, hwf.2, fun hne => absurd rfl hne⟩) fun hwf => ?_
    rw [refundQuota_eq_hold hwf hrefunded, show (s.refundedWith now tokenRefunded).hold = 0 from rfl]
    omega
  | leased hdb hg =>
    subst hdb
    exact hc.sameHold fun s hs => ⟨(hg s hs).organizationId, (hg s hs).hold, (hg s hs).wellFormed⟩

/-! ## Runs -/

theorem Conserved.init {org : Organization} (hget : db.organizations.get? o = some org)
    (hused : org.usedQuota = u₀) (hnone : ∀ i s, db.sessions.get? i = some s → s.organizationId ≠ o)
    (hhist : ∀ u ∈ db.usedQuotaUpdates, u.organizationId ≠ o) : Conserved o u₀ db := by
  have hheld : held o db = 0 := by
    apply Table.sum_eq_zero
    intro i s hs
    rw [if_neg (hnone i s hs)]
  refine ⟨fun i s hs ho => absurd ho (hnone i s hs), ⟨org, hget, ?_⟩, fun u hu ho => absurd ho (hhist u hu)⟩
  rw [hheld, add_zero, hused]

/-- **Conservation.** An organization that starts with no sessions and `used_quota = u₀` has, after any
sequence of ledger transactions, `used_quota = u₀ + Σ hold` over its sessions; so the counter never goes
below `u₀`, and no `used_quota` update of the whole run was changed by the clamp at `0`. -/
theorem usedQuota_eq_initial_add_held (db : DB) (o : Nat) (u₀ : ℕ) (org : Organization)
    (hget : db.organizations.get? o = some org) (hused : org.usedQuota = u₀)
    (hnone : ∀ i s, db.sessions.get? i = some s → s.organizationId ≠ o)
    (hhist : ∀ u ∈ db.usedQuotaUpdates, u.organizationId ≠ o) (ops : List LedgerOp) :
    ∃ org', (run LedgerOp.apply db ops).organizations.get? o = some org' ∧
      org'.usedQuota = u₀ + held o (run LedgerOp.apply db ops) ∧ u₀ ≤ org'.usedQuota ∧
      ∀ u ∈ (run LedgerOp.apply db ops).usedQuotaUpdates, u.organizationId = o → u.exact := by
  have hinv : Conserved o u₀ (run LedgerOp.apply db ops) :=
    run_invariant' (fun db' op h => h.apply (op.effect db')) (.init hget hused hnone hhist) ops
  obtain ⟨org', hget', hused'⟩ := hinv.used
  have hnonneg := held_nonneg hinv.wellFormed
  exact ⟨org', hget', hused', by omega, hinv.history⟩

def sampleDB : DB where
  organizations := Table.empty.insert { quota := 1000, usedQuota := 7, ownerUserId := 1 }
  tokens := Table.empty.insert
    { key := "k1", name := "ci", remainQuota := 500, scopeType := .organization, organizationId := 1 }

def sampleRequest : RelayInfo where
  requestId := "r1"
  userId := 2
  tokenId := 1
  tokenKey := "k1"
  scopeType := .organization
  scopeId := 1
  billingAccountType := .organization
  billingAccountId := 1
  organizationId := 1
  responsibleUserId := 2

def sampleEnv (now : Int) : Env := ⟨now, 300⟩

def sampleOps : List LedgerOp :=
  [.preConsumeWithToken (sampleEnv 10) ⟨sampleRequest, none, 0⟩ 100,
    .reserveMoreWithToken (sampleEnv 11) ⟨sampleRequest, none, 0⟩ 20,
    .settleWithTokenActual (sampleEnv 12) ⟨sampleRequest, none, 0⟩ 60]

theorem usedQuota_eq_initial_add_held_sample : held 1 (run LedgerOp.apply sampleDB sampleOps) = 60 ∧
    ∃ org', (run LedgerOp.apply sampleDB sampleOps).organizations.get? 1 = some org' ∧
      org'.usedQuota = (7 : ℕ) + held 1 (run LedgerOp.apply sampleDB sampleOps) ∧ (7 : ℕ) ≤ org'.usedQuota ∧
      ∀ u ∈ (run LedgerOp.apply sampleDB sampleOps).usedQuotaUpdates, u.organizationId = 1 → u.exact :=
  ⟨by decide +kernel, usedQuota_eq_initial_add_held sampleDB 1 7
    { quota := 1000, usedQuota := 7, ownerUserId := 1 } rfl rfl (fun i s h => by cases h)
    (fun u hu => by cases hu) sampleOps⟩

end CubeRouter.Ledger
