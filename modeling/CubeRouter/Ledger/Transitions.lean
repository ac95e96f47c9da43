import CubeRouter.Ledger.Effects
import Mathlib.Algebra.Order.Group.Int

/-!
# What one transaction of the ledger does

`LedgerOp.effect` says in one place all that a transaction can do to the database: nothing, open a session,
move one session with a charge and a record, or change the lease of one session. The invariants over counters,
records and members are derived from it, one case per kind of change.
-/

namespace CubeRouter.Ledger

open Relational Transition Table

/-- The amounts on a session are never negative, and only a refunded session has been refunded. -/
structure OrganizationBillingSession.WellFormed (s : OrganizationBillingSession) : Prop where
  preConsumed : 0 ≤ s.preConsumedQuota
  settled : 0 ≤ s.settledQuota
  refunded : s.status ≠ .refunded → s.refundedQuota = 0

def SessionStatus.Open (status : SessionStatus) : Prop := status ≠ .settled ∧ status ≠ .refunded

/-- A write to a session that leaves its identity and its amounts alone. -/
structure SameAmounts (s s' : OrganizationBillingSession) : Prop where
  idempotencyKey : s'.idempotencyKey = s.idempotencyKey
  organizationId : s'.organizationId = s.organizationId
  responsibleUserId : s'.responsibleUserId = s.responsibleUserId
  preConsumedQuota : s'.preConsumedQuota = s.preConsumedQuota
  settledQuota : s'.settledQuota = s.settledQuota
  refundedQuota : s'.refundedQuota = s.refundedQuota
  status : s'.status = s.status ∨ s.status.Open ∧ s'.status.Open

theorem SameAmounts.refl (s : OrganizationBillingSession) : SameAmounts s s :=
  ⟨rfl, rfl, rfl, rfl, rfl, rfl, .inl rfl⟩

theorem hold_of_open {s : OrganizationBillingSession} (h : s.status.Open) : s.hold = s.preConsumedQuota := by
  unfold OrganizationBillingSession.hold
  split
  · rfl
  · rfl
  · rfl
  · rename_i hst
    exact absurd hst h.1
  · rename_i hst
    exact absurd hst h.2

variable {s' : OrganizationBillingSession} {id : Nat} {now delta : Int}

theorem SameAmounts.hold {s : OrganizationBillingSession} (h : SameAmounts s s') : s'.hold = s.hold := by
  rcases h.status with hst | ⟨hs, hs'⟩
  · unfold OrganizationBillingSession.hold
    rw [hst, h.preConsumedQuota, h.settledQuota]
  · rw [hold_of_open hs, hold_of_open hs', h.preConsumedQuota]

theorem SameAmounts.wellFormed {s : OrganizationBillingSession} (h : SameAmounts s s') (hwf : s.WellFormed) :
    s'.WellFormed := by
  refine ⟨h.preConsumedQuota ▸ hwf.preConsumed, h.settledQuota ▸ hwf.settled, fun hne => ?_⟩
  rw [h.refundedQuota]
  apply hwf.refunded
  rcases h.status with hst | ⟨hs, -⟩
  · rwa [hst] at hne
  · exact hs.2

theorem sameAmounts_of_modify {sessions : Table OrganizationBillingSession}
    {g : OrganizationBillingSession → OrganizationBillingSession}
    (hg : ∀ s, sessions.get? id = some s → SameAmounts s (g s)) {j : Nat} {r : OrganizationBillingSession}
    (hr : (sessions.modify id g).get? j = some r) : ∃ s, sessions.get? j = some s ∧ SameAmounts s r := by
  rw [Table.get?_modify] at hr
  split_ifs at hr with hj
  · subst hj
    obtain ⟨s, hs, rfl⟩ := Option.map_eq_some_iff.mp hr
    exact ⟨s, hs, hg s hs⟩
  · exact ⟨r, hr, .refl r⟩

variable {env : Env} {f f' : OrganizationFunding} {db db' : DB} {s : OrganizationBillingSession}

theorem OrganizationBillingSession.WellFormed.hold_nonneg (h : s.WellFormed) : 0 ≤ s.hold := by
  unfold OrganizationBillingSession.hold
  split
  · exact h.preConsumed
  · exact h.preConsumed
  · exact h.preConsumed
  · exact h.settled
  · exact le_rfl

theorem refundQuota_eq_hold (hwf : s.WellFormed) (hs : s.status ≠ .refunded) : s.refundQuota = s.hold := by
  have hpre := hwf.preConsumed
  have hset := hwf.settled
  unfold OrganizationBillingSession.refundQuota OrganizationBillingSession.hold
  simp only [hwf.refunded hs]
  cases hst : s.status <;> simp_all

theorem hold_claimed (h : s.claimable now = true) : (s.claimed now).hold = s.hold := by
  unfold OrganizationBillingSession.claimable at h
  rw [decide_eq_true_eq] at h
  unfold OrganizationBillingSession.hold OrganizationBillingSession.claimed
  rcases h with ⟨hst | hst, -⟩ | ⟨hst, -⟩ <;> rw [hst]

/-! ## A new session -/

theorem deductedAs_eq {d : Int} :
    (s.deductedAs d).organizationId = s.organizationId ∧ (s.deductedAs d).hold = s.hold ∧
      (s.WellFormed → (s.deductedAs d).WellFormed) := by
  unfold OrganizationBillingSession.deductedAs
  split_ifs
  · exact ⟨rfl, rfl, fun h => ⟨h.1, h.2, h.3⟩⟩
  · exact ⟨rfl, rfl, id⟩

section Created

variable {amount deducted : Int} {identity : SessionIdentity} {relayInfo : RelayInfo}
  {token? : Option (Nat × Token)}

theorem newSession_hold : ((newSession env relayInfo token? amount identity).deductedAs deducted).hold = amount :=
  deductedAs_eq.2.1

theorem newSession_wellFormed (hamount : 0 ≤ amount) :
    ((newSession env relayInfo token? amount identity).deductedAs deducted).WellFormed :=
  deductedAs_eq.2.2 ⟨hamount, le_rfl, fun _ => rfl⟩

theorem Created.next (h : Created env f f' amount db db' identity relayInfo token? deducted) :
    db'.sessions.next = db.sessions.next + 1 := by
  rw [h.sessions, next_modify, next_insert]

theorem Created.kept (h : Created env f f' amount db db' identity relayInfo token? deducted) :
    ∀ j r, db.sessions.get? j = some r → db'.sessions.get? j = some r := by
  intro j r hr
  rw [h.sessions, Table.get?_modify_of_ne _ _ (lt_next_of_get? hr).ne, Table.get?_insert_of_get? hr]

theorem Created.row (h : Created env f f' amount db db' identity relayInfo token? deducted) :
    ∀ j r, db'.sessions.get? j = some r →
      j = db.sessions.next ∧ r = (newSession env relayInfo token? amount identity).deductedAs deducted ∨
        j ≠ db.sessions.next ∧ db.sessions.get? j = some r := by
  intro j r hr
  rw [h.sessions, Table.get?_modify, Table.get?_insert] at hr
  split_ifs at hr with hj
  · cases hr
    exact .inl ⟨hj, rfl⟩
  · exact .inr ⟨hj, hr⟩

theorem Created.sum (h : Created env f f' amount db db' identity relayInfo token? deducted)
    (g : OrganizationBillingSession → Int) : db'.sessions.sum g =
      db.sessions.sum g + g ((newSession env relayInfo token? amount identity).deductedAs deducted) := by
  have hget : (db.sessions.insert (newSession env relayInfo token? amount identity)).get? db.sessions.next
      = some (newSession env relayInfo token? amount identity) := Table.get?_insert_self ..
  rw [h.sessions, sum_modify _ _ _ hget, sum_insert]
  omega

theorem Created.organizationId (h : Created env f f' amount db db' identity relayInfo token? deducted) :
    ((newSession env relayInfo token? amount identity).deductedAs deducted).organizationId =
    f.relayInfo.billingAccountId :=
  (deductedAs_organizationId _ _).trans (loadTokenForQuotaTx_same h.load).billingAccountId

end Created

/-! ## Transactions -/

/-- The transactions of the ledger. Each carries the in-memory values of whoever makes the call, which
may be stale or belong to any request. -/
inductive LedgerOp
  | preConsumeWithToken (env : Env) (f : OrganizationFunding) (amount : Int)
  | reserveMoreWithToken (env : Env) (f : OrganizationFunding) (delta : Int)
  | settleWithTokenActual (env : Env) (f : OrganizationFunding) (actualQuota : Int)
  | refundWithToken (env : Env) (f : OrganizationFunding)
  | touch (env : Env) (relayInfo : RelayInfo) (ttlSeconds : Int)
  | claimExpired (sessionId : Nat) (now : Int)
  | markRepairFailed (sessionId : Nat) (message : String) (now : Int)

/-- The database after one transaction: a failed one is rolled back. -/
def LedgerOp.apply (db : DB) : LedgerOp → DB
  | .preConsumeWithToken env f amount => commit (f.preConsumeWithToken env amount) db
  | .reserveMoreWithToken env f delta => commit (f.reserveMoreWithToken env delta) db
  | .settleWithTokenActual env f actual => commit (f.settleWithTokenActual env actual) db
  | .refundWithToken env f => commit (f.refundWithToken env) db
  | .touch env relayInfo ttl => touchOrganizationBillingSession env relayInfo ttl db
  | .claimExpired sessionId now => (claimExpiredOrganizationBillingSession sessionId now db).2
  | .markRepairFailed sessionId message now =>
    (markOrganizationBillingSessionRepairFailed sessionId message now db).2

/-- The session `id` goes from `s` to `s'`: its organization and its member are charged `delta`, and a
record says so. -/
structure Moved (db db' : DB) (id : Nat) (s s' : OrganizationBillingSession) (key : RecordKey)
    (type : RecordType) (delta usage : Int) : Prop where
  step : SessionStep db db' id s s' delta
  entry : ∃ before after now, Charge db db' s.organizationId delta s.responsibleUserId false before after ∧
    Recorded db db' (buildOrganizationBillingRecordFromSession id s' key type delta usage before after now)

inductive LedgerEffect (db db' : DB) : Prop
  | nothing : db' = db → LedgerEffect db db'
  | opened {env : Env} {f f' : OrganizationFunding} {amount deducted : Int} {identity : SessionIdentity}
      {relayInfo : RelayInfo} {token? : Option (Nat × Token)} : 0 ≤ amount →
      Created env f f' amount db db' identity relayInfo token? deducted → LedgerEffect db db'
  | reserved {id : Nat} {s : OrganizationBillingSession} {env : Env} {delta deducted : Int} : 0 < delta →
      s.status.Open →
      Moved db db' id s (s.reserved env delta deducted) (.reserve id (s.preConsumedQuota + delta)) .preConsume
        delta 0 → LedgerEffect db db'
  | settled {id : Nat} {s : OrganizationBillingSession} {now actual tokenDelta : Int} : 0 ≤ actual →
      s.status.Open →
      Moved db db' id s (s.settledAs now actual tokenDelta) (.settle id) .settle
        (actual - s.preConsumedQuota) actual → LedgerEffect db db'
  | refunded {id : Nat} {s : OrganizationBillingSession} {now tokenRefunded : Int} : s.status ≠ .refunded →
      Moved db db' id s (s.refundedWith now tokenRefunded) (.refund id) .refund (-s.refundQuota)
        (if s.status = .settled then -s.refundQuota else 0) → LedgerEffect db db'
  | leased {id : Nat} {g : OrganizationBillingSession → OrganizationBillingSession} :
      db' = { db with sessions := db.sessions.modify id g } →
      (∀ s, db.sessions.get? id = some s → SameAmounts s (g s)) → LedgerEffect db db'

theorem reserveMoreWithToken_effect (h : f.reserveMoreWithToken env delta db = .ok (f', db')) :
    LedgerEffect db db' := by
  rcases reserveMoreWithToken_ok h with ⟨-, -, rfl⟩ | ⟨hdelta, _, _, -, -, htx⟩
  · exact .nothing rfl
  · obtain ⟨s, -, ⟨rfl, -⟩ | ⟨deducted, -, hstatus, hstep, -, -, -, -, before, after, hcharge, hrecorded⟩⟩ :=
      reserveMoreTx_ok htx
    · exact .nothing rfl
    · have hopen : s.status.Open := by
        rcases hstatus with hst | hst <;> simp [SessionStatus.Open, hst]
      exact .reserved hdelta hopen ⟨hstep, before, after, env.now, hcharge, hrecorded⟩

theorem settleWithTokenActual_effect {actual : Int}
    (h : f.settleWithTokenActual env actual db = .ok (f', db')) : LedgerEffect db db' := by
  rcases settleWithTokenActual_ok h with ⟨-, -, rfl⟩ | ⟨hactual, _, _, -, -, htx⟩
  · exact .nothing rfl
  · obtain ⟨s, -, ⟨rfl, -⟩ | ⟨_, hsettled, hrefunded, hstep, -, -, -, before, after, hcharge,
      hrecorded⟩⟩ := settleTx_ok htx
    · exact .nothing rfl
    · exact .settled hactual ⟨hsettled, hrefunded⟩ ⟨hstep, before, after, env.now, hcharge, hrecorded⟩

theorem refundWithToken_effect (h : f.refundWithToken env db = .ok (f', db')) : LedgerEffect db db' := by
  rcases refundWithToken_ok h with ⟨-, -, rfl⟩ | ⟨_, _, -, -, htx⟩
  · exact .nothing rfl
  · obtain ⟨s, -, ⟨rfl, -⟩ | ⟨tokenRefunded, hrefunded, hstep, -, -, -, before, after, hcharge, hrecorded⟩⟩ :=
      refundTx_ok htx
    · exact .nothing rfl
    · exact .refunded hrefunded ⟨hstep, before, after, env.now, hcharge, hrecorded⟩

theorem preConsumeWithToken_effect {amount : Int} (h : f.preConsumeWithToken env amount db = .ok (f', db')) :
    LedgerEffect db db' := by
  rcases preConsumeWithToken_ok h with ⟨-, -, rfl⟩ | ⟨-, hamount, _, -, ⟨rfl, -⟩ | hcreated⟩
  · exact .nothing rfl
  · exact .nothing rfl
  · obtain ⟨_, _, _, hcreated⟩ := hcreated
    exact .opened hamount hcreated

theorem touch_effect {relayInfo : RelayInfo} {ttl : Int} :
    LedgerEffect db (touchOrganizationBillingSession env relayInfo ttl db) := by
  unfold touchOrganizationBillingSession
  split_ifs
  · exact .nothing rfl
  · refine .leased rfl fun s _ => ?_
    split_ifs
    · exact ⟨rfl, rfl, rfl, rfl, rfl, rfl, .inl rfl⟩
    · exact .refl s

theorem claimExpired_effect : LedgerEffect db (claimExpiredOrganizationBillingSession id now db).2 := by
  unfold claimExpiredOrganizationBillingSession
  split
  · exact .nothing rfl
  · rename_i s hget
    split_ifs with hclaim
    · refine .leased rfl fun r hr => ?_
      obtain rfl : s = r := Option.mem_unique hget hr
      have hopen : s.status.Open := by
        simp only [OrganizationBillingSession.claimable, decide_eq_true_eq] at hclaim
        rcases hclaim with ⟨hst | hst, -⟩ | ⟨hst, -⟩ <;> simp [SessionStatus.Open, hst]
      exact ⟨rfl, rfl, rfl, rfl, rfl, rfl,
        .inr ⟨hopen, by simp [SessionStatus.Open, OrganizationBillingSession.claimed]⟩⟩
    · exact .nothing rfl

theorem markRepairFailed_effect {message : String} :
    LedgerEffect db (markOrganizationBillingSessionRepairFailed id message now db).2 := by
  unfold markOrganizationBillingSessionRepairFailed
  split
  · exact .nothing rfl
  · rename_i s hget
    split_ifs with hst
    · refine .leased rfl fun r hr => ?_
      obtain rfl : s = r := Option.mem_unique hget hr
      exact ⟨rfl, rfl, rfl, rfl, rfl, rfl, .inr (by simp [SessionStatus.Open, hst])⟩
    · exact .nothing rfl

theorem LedgerOp.effect (op : LedgerOp) (db : DB) : LedgerEffect db (op.apply db) := by
  have hcommit : ∀ {tx : DB → Except BillingError (OrganizationFunding × DB)},
      (∀ f' db', tx db = .ok (f', db') → LedgerEffect db db') → LedgerEffect db (commit tx db) :=
    fun htx => commit_invariant (.nothing rfl) htx
  cases op with
  | preConsumeWithToken => exact hcommit fun _ _ => preConsumeWithToken_effect
  | reserveMoreWithToken => exact hcommit fun _ _ => reserveMoreWithToken_effect
  | settleWithTokenActual => exact hcommit fun _ _ => settleWithTokenActual_effect
  | refundWithToken => exact hcommit fun _ _ => refundWithToken_effect
  | touch env relayInfo ttl => exact touch_effect
  | claimExpired sessionId now => exact claimExpired_effect
  | markRepairFailed sessionId message now => exact markRepairFailed_effect

/-- The change of a session's hold is what its organization is charged. -/
theorem hold_reserved {deducted : Int}
    (h : s.status.Open) : (s.reserved env delta deducted).hold = s.hold + delta := by
  rw [hold_of_open h]
  exact hold_of_open (s := s.reserved env delta deducted) h

end CubeRouter.Ledger
