import CubeRouter.Ledger.Replay

/-!
# No transaction fails on a record key

The unique index on `record_key` would roll a whole transaction back if a key came up twice. In a ledger
that replays it never does: the key that a transaction writes says something about its session
(`RecordKey.Taken`) that is not true of the session yet when the transaction runs.
-/

namespace CubeRouter.Ledger

open Relational Transition

/-- The computation does not end with a violation of the index on `record_key`. -/
def KeepsKeys {α : Type} (x : Except BillingError α) : Prop := x ≠ .error .recordKeyConflict

variable {env : Env} {f : OrganizationFunding} {db : DB} {id : Nat} {s : OrganizationBillingSession} {α : Type}
  {unscoped enforce : Bool} {o : Nat} {identity : SessionIdentity}

theorem KeepsKeys.ok (a : α) : KeepsKeys (.ok a) := nofun

theorem KeepsKeys.bind {β : Type} {first : Except BillingError α} {rest : α → Except BillingError β}
    (hfirst : KeepsKeys first) (hrest : ∀ a, first = .ok a → KeepsKeys (rest a)) : KeepsKeys (do rest (← first)) :=
  bind_ne_error hfirst hrest

/-! ## The parts that write no record -/

variable {tokens : Table Token} {r : RelayInfo} {now delta amount : Int}

theorem loadTokenForQuotaTx_keepsKeys : KeepsKeys (loadTokenForQuotaTx unscoped tokens r) := by
  unfold loadTokenForQuotaTx KeepsKeys
  split_ifs
  · simp
  · simp
  · split <;> simp

theorem moveTokenQuotaTx_keepsKeys {quota : Int} {snapshot : Option Bool} {enough : Token → Bool}
    {unlimited limited : Token → Token} :
    KeepsKeys (moveTokenQuotaTx unscoped tokens r quota snapshot enough unlimited limited) := by
  unfold moveTokenQuotaTx
  split_ifs
  · simp [KeepsKeys]
  · exact .ok _
  · refine loadTokenForQuotaTx_keepsKeys.bind ?_
    rintro ⟨r', - | ⟨i, token⟩⟩ -
    · exact .ok _
    · simp only
      split_ifs <;> simp [KeepsKeys]

theorem settleTokenQuotaTx_keepsKeys {unlimited : Bool} :
    KeepsKeys (settleTokenQuotaTx now tokens r delta unlimited) := by
  unfold settleTokenQuotaTx
  split_ifs
  · exact moveTokenQuotaTx_keepsKeys.bind fun _ _ => .ok _
  · exact moveTokenQuotaTx_keepsKeys.bind fun _ _ => .ok _
  · exact .ok _

theorem refundTokenQuotaTx_keepsKeys : KeepsKeys (refundTokenQuotaTx now tokens r s) := by
  unfold refundTokenQuotaTx
  split_ifs
  · exact moveTokenQuotaTx_keepsKeys.bind fun _ _ => .ok _
  · exact .ok _

theorem updateOrganizationMemberUsedQuotaTx_keepsKeys {u owner : Nat} :
    KeepsKeys (updateOrganizationMemberUsedQuotaTx db o u owner delta enforce) := by
  unfold updateOrganizationMemberUsedQuotaTx
  by_cases hskip : o = 0 ∨ u = 0 ∨ delta = 0
  · rw [if_pos hskip]
    exact .ok _
  · rw [if_neg hskip]
    split
    · exact .ok _
    · split_ifs <;> simp [KeepsKeys]

theorem updateOrganizationUsedQuotaTx_keepsKeys {memberUserId : Nat} {increment requireActive : Bool} :
    KeepsKeys (updateOrganizationUsedQuotaTx db o delta increment requireActive now memberUserId enforce) := by
  have hfailure : ∀ org, organizationQuotaUpdateFailure org ≠ .recordKeyConflict := by
    intro org
    unfold organizationQuotaUpdateFailure
    split_ifs <;> decide
  unfold updateOrganizationUsedQuotaTx
  split
  · simp [KeepsKeys]
  · rename_i org _
    split_ifs
    · simp [KeepsKeys, hfailure org]
    · exact .ok _
    · simp [KeepsKeys, hfailure org]
    · exact updateOrganizationMemberUsedQuotaTx_keepsKeys.bind fun _ _ => .ok _

theorem syncOrganizationQuotaFromTx_keepsKeys : KeepsKeys (syncOrganizationQuotaFromTx db r) := by
  unfold syncOrganizationQuotaFromTx
  split_ifs
  · exact .ok _
  · split <;> simp [KeepsKeys]

theorem lockSession_keepsKeys : KeepsKeys (lockSession db id) := by
  unfold lockSession
  split <;> simp [KeepsKeys]

theorem organizationBillingSessionIdentity_keepsKeys : KeepsKeys (organizationBillingSessionIdentity r) := by
  unfold organizationBillingSessionIdentity
  simp only
  split_ifs <;> simp [KeepsKeys]

theorem ensureSession_keepsKeys : KeepsKeys (f.ensureSession db) := by
  unfold OrganizationFunding.ensureSession
  split
  · exact .ok _
  · refine KeepsKeys.bind ?_ fun g _ => ?_
    · refine KeepsKeys.bind ?_ fun found _ => ?_
      · unfold lookupSession
        split_ifs
        · simp only
          split_ifs <;> simp [KeepsKeys]
        · exact organizationBillingSessionIdentity_keepsKeys.bind fun _ _ => .ok _
      · split <;> simp [KeepsKeys]
    · split <;> simp [KeepsKeys]

theorem reuseOrganizationBillingSession_keepsKeys :
    KeepsKeys (f.reuseOrganizationBillingSession db amount identity) := by
  unfold OrganizationFunding.reuseOrganizationBillingSession
  split
  · exact .ok _
  · split_ifs
    · simp [KeepsKeys]
    · exact syncOrganizationQuotaFromTx_keepsKeys.bind fun _ _ => .ok _

theorem createOrganizationBillingRecordTx_keepsKeys {record : OrganizationBillingRecord}
    (hfresh : ∀ i r, db.records.get? i = some r → r.recordKey ≠ record.recordKey) :
    KeepsKeys (createOrganizationBillingRecordTx db record) := by
  obtain ⟨_, hok⟩ := createOrganizationBillingRecordTx_of_fresh hfresh
  rw [hok]
  exact .ok _

/-! ## The transactions -/

theorem Replays.preConsumeTx (h : Replays db) : KeepsKeys (f.preConsumeTx env amount identity db) := by
  refine loadTokenForQuotaTx_keepsKeys.bind ?_
  rintro ⟨relayInfo, token?⟩ -
  refine reuseOrganizationBillingSession_keepsKeys.bind ?_
  rintro (- | g) -
  · refine KeepsKeys.bind ?_ fun db1 hcreate => ?_
    · unfold createOrganizationBillingSession
      split <;> simp [KeepsKeys]
    · obtain ⟨-, rfl⟩ := createOrganizationBillingSession_ok hcreate
      refine updateOrganizationUsedQuotaTx_keepsKeys.bind ?_
      rintro ⟨before, after, db2⟩ hupdate
      obtain ⟨_, _, _, _, -, rfl⟩ := updateOrganizationUsedQuotaTx_ok hupdate
      refine moveTokenQuotaTx_keepsKeys.bind ?_
      rintro ⟨deducted, relayInfo', tokens⟩ -
      refine KeepsKeys.bind ?_ fun db3 _ => syncOrganizationQuotaFromTx_keepsKeys.bind fun _ _ => .ok _
      unfold recordPreConsume
      split_ifs
      · exact createOrganizationBillingRecordTx_keepsKeys fun i r hr => h.preConsume_fresh hr
      · exact .ok _
  · exact .ok _

theorem Replays.reserveMoreTx (h : Replays db) (hdelta : 0 < delta) : KeepsKeys (f.reserveMoreTx env delta id db) := by
  refine lockSession_keepsKeys.bind fun s hlock => ?_
  have hget := lockSession_ok hlock
  split_ifs
  · refine updateOrganizationUsedQuotaTx_keepsKeys.bind ?_
    rintro ⟨before, after, db2⟩ hupdate
    obtain ⟨_, _, _, _, -, rfl⟩ := updateOrganizationUsedQuotaTx_ok hupdate
    refine moveTokenQuotaTx_keepsKeys.bind ?_
    rintro ⟨deducted, relayInfo', tokens⟩ -
    refine KeepsKeys.bind ?_ fun db3 _ => syncOrganizationQuotaFromTx_keepsKeys.bind fun _ _ => .ok _
    have htotal : s.preConsumedQuota < s.preConsumedQuota + delta := by omega
    exact createOrganizationBillingRecordTx_keepsKeys fun i r hr => h.reserve_fresh hget htotal hr
  · exact .ok _

theorem Replays.settleTx (h : Replays db) {actual : Int} : KeepsKeys (f.settleTx env actual id db) := by
  refine lockSession_keepsKeys.bind fun s hlock => ?_
  have hget := lockSession_ok hlock
  refine KeepsKeys.bind ?_ fun _ _ => ?_
  · unfold validateOrganizationSettledQuota
    split_ifs <;> simp [KeepsKeys]
  · split_ifs with hsettled hrefunded
    · exact .ok _
    · simp [KeepsKeys]
    · refine updateOrganizationUsedQuotaTx_keepsKeys.bind ?_
      rintro ⟨before, after, db2⟩ hupdate
      obtain ⟨_, organizations, members, updates, -, rfl⟩ := updateOrganizationUsedQuotaTx_ok hupdate
      refine settleTokenQuotaTx_keepsKeys.bind ?_
      rintro ⟨tokenDelta, tokens⟩ -
      refine KeepsKeys.bind ?_ fun db3 _ => syncOrganizationQuotaFromTx_keepsKeys.bind fun _ _ => .ok _
      obtain ⟨_, hfee⟩ := bookViolationFee_frame
        { db with organizations, members, tokens, usedQuotaUpdates := updates } f.relayInfo s actual
      rw [hfee]
      exact createOrganizationBillingRecordTx_keepsKeys fun i r hr => h.settle_fresh hget ⟨hsettled, hrefunded⟩ hr

theorem Replays.refundTx (h : Replays db) : KeepsKeys (f.refundTx env id db) := by
  refine lockSession_keepsKeys.bind fun s hlock => ?_
  have hget := lockSession_ok hlock
  by_cases hrefunded : s.status = .refunded
  · rw [if_pos hrefunded]
    exact .ok _
  · rw [if_neg hrefunded]
    refine updateOrganizationUsedQuotaTx_keepsKeys.bind ?_
    rintro ⟨before, after, db2⟩ hupdate
    obtain ⟨_, _, _, _, -, rfl⟩ := updateOrganizationUsedQuotaTx_ok hupdate
    refine refundTokenQuotaTx_keepsKeys.bind ?_
    rintro ⟨tokenRefunded, tokens⟩ -
    refine KeepsKeys.bind ?_ fun db3 _ => syncOrganizationQuotaFromTx_keepsKeys.bind fun _ _ => .ok _
    exact createOrganizationBillingRecordTx_keepsKeys fun i r hr => h.refund_fresh hget hrefunded hr

theorem Replays.preConsumeWithToken (h : Replays db) : KeepsKeys (f.preConsumeWithToken env amount db) := by
  unfold OrganizationFunding.preConsumeWithToken
  split_ifs
  · exact .ok _
  · simp [KeepsKeys]
  · refine organizationBillingSessionIdentity_keepsKeys.bind fun identity _ => ?_
    have htx : KeepsKeys (f.preConsumeTx env amount identity db) := h.preConsumeTx
    split
    · exact .ok _
    · refine reuseOrganizationBillingSession_keepsKeys.bind ?_
      rintro (- | g) -
      · simp [KeepsKeys]
      · exact .ok _
    · rename_i e _ he
      rw [he] at htx
      intro heq
      exact htx (by rw [Except.error.inj heq])

/-! ## Runs -/

def LedgerOp.error? (db : DB) : LedgerOp → Option BillingError
  | .preConsumeWithToken env f amount => failure (f.preConsumeWithToken env amount db)
  | .reserveMoreWithToken env f delta => failure (f.reserveMoreWithToken env delta db)
  | .settleWithTokenActual env f actual => failure (f.settleWithTokenActual env actual db)
  | .refundWithToken env f => failure (f.refundWithToken env db)
  | .touch .. | .claimExpired .. | .markRepairFailed .. => none

theorem Replays.error? (h : Replays db) (op : LedgerOp) : op.error? db ≠ some .recordKeyConflict := by
  have hfailure : ∀ {α : Type} {x : Except BillingError α}, KeepsKeys x →
      failure x ≠ some .recordKeyConflict := fun hx heq => hx (failure_eq_some.mp heq)
  cases op with
  | preConsumeWithToken => exact hfailure h.preConsumeWithToken
  | reserveMoreWithToken =>
    apply hfailure
    unfold OrganizationFunding.reserveMoreWithToken
    split_ifs with hskip
    · exact .ok _
    · rw [Bool.or_eq_true, decide_eq_true_eq, not_or] at hskip
      exact ensureSession_keepsKeys.bind fun _ _ => h.reserveMoreTx (by omega)
  | settleWithTokenActual =>
    apply hfailure
    unfold OrganizationFunding.settleWithTokenActual
    split_ifs
    · exact .ok _
    · simp [KeepsKeys]
    · refine ensureSession_keepsKeys.bind ?_
      rintro ⟨f0, id, s⟩ -
      refine KeepsKeys.bind ?_ fun _ _ => h.settleTx
      unfold validateOrganizationSettledQuota
      split_ifs <;> simp [KeepsKeys]
  | refundWithToken =>
    apply hfailure
    unfold OrganizationFunding.refundWithToken
    split_ifs
    · exact .ok _
    · exact ensureSession_keepsKeys.bind fun _ _ => h.refundTx
  | touch | claimExpired | markRepairFailed => nofun

/-- **The ledger replays to the account.** After any run of the ledger and of the administration that starts
with an empty ledger: the records of a session sum up to its hold and to its usage, every record moves
`used_quota` by its delta, every transaction that may come next snapshots the `used_quota` it meets, and none
fails because a record key repeats. -/
theorem ledger_replays (db : DB) (hsessions : ∀ i, db.sessions.get? i = none)
    (hrecords : ∀ i, db.records.get? i = none)
    (hused : ∀ o org, db.organizations.get? o = some org → 0 ≤ org.usedQuota) (ops : List OrganizationOp) :
    (∀ id s, (run OrganizationOp.apply db ops).sessions.get? id = some s →
      replayed (·.usedQuotaDelta) id (run OrganizationOp.apply db ops) = s.hold ∧
      replayed (·.usageQuota) id (run OrganizationOp.apply db ops) = s.usage) ∧
    (∀ i r, (run OrganizationOp.apply db ops).records.get? i = some r →
      r.usedQuotaAfter - r.usedQuotaBefore = r.usedQuotaDelta) ∧
    (∀ op : OrganizationOp, Snapshots (run OrganizationOp.apply db ops)
      (op.apply (run OrganizationOp.apply db ops))) ∧
    ∀ op : LedgerOp, op.error? (run OrganizationOp.apply db ops) ≠ some .recordKeyConflict := by
  have h : Replays (run OrganizationOp.apply db ops) :=
    run_invariant' (fun db' op h => (h.apply (op.effect db')).1) (.start hsessions hrecords hused) ops
  exact ⟨fun id s hs => ⟨h.used id s hs, h.usage id s hs⟩, h.exact, fun op => (h.apply (op.effect _)).2, h.error?⟩

def replayOps : List OrganizationOp :=
  sampleOps.map .ledger ++
    [.adjustOrganizationQuota 9 1 (some .platformRoot) { quotaDelta := 500, idempotencyKey := "a1" } 13,
      .ledger (.refundWithToken (sampleEnv 14) ⟨sampleRequest, none, 0⟩)]

theorem ledger_replays_sample : ((run OrganizationOp.apply sampleDB replayOps).records.next = 6 ∧
      (run OrganizationOp.apply sampleDB (replayOps.take 4)).sessions.get? 1 ≠ none) ∧
    (∀ id s, (run OrganizationOp.apply sampleDB replayOps).sessions.get? id = some s →
      replayed (·.usedQuotaDelta) id (run OrganizationOp.apply sampleDB replayOps) = s.hold ∧
      replayed (·.usageQuota) id (run OrganizationOp.apply sampleDB replayOps) = s.usage) ∧
    (∀ i r, (run OrganizationOp.apply sampleDB replayOps).records.get? i = some r →
      r.usedQuotaAfter - r.usedQuotaBefore = r.usedQuotaDelta) ∧
    (∀ op : OrganizationOp, Snapshots (run OrganizationOp.apply sampleDB replayOps)
      (op.apply (run OrganizationOp.apply sampleDB replayOps))) ∧
    ∀ op : LedgerOp, op.error? (run OrganizationOp.apply sampleDB replayOps) ≠ some .recordKeyConflict := by
  exact ⟨by decide +kernel, ledger_replays sampleDB (fun _ => rfl) (fun _ => rfl) usedQuota_sampleDB replayOps⟩

end CubeRouter.Ledger
