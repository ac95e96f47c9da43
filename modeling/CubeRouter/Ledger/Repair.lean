import CubeRouter.Ledger.Conservation

/-!
# The repair worker

`RepairExpiredOrganizationBillingSessions` of `service/organization_billing.go` gives back the holds of
requests that died. It works in separate steps: the claiming `UPDATE`, an unlocked re-read of the status
in `RepairOrganizationBillingSessions`, and the refund transaction; a failed refund is recorded by a
fourth. Any number of repairs interleave with the transactions of live requests.

A settlement is accepted while its session is `repairing`, and the refund transaction does not look at the confirmed
status. So a settlement that commits between the re-read and the refund is taken back
(`repair_takes_back_settled_charge`). When no settlement falls into that window, a settled charge stays until its
owner asks for it (`settled_charge_kept`).
-/

namespace CubeRouter.Ledger

open Relational Transition List Option

/-! ## What a transaction does to one row -/

/-- The funding's session, in memory or looked up, is `id`. -/
def OrganizationFunding.targets (f : OrganizationFunding) (db : DB) (id : Nat) : Prop :=
  (f.ensureSession db).toOption.map (fun r => r.2.1) = some id

instance (f : OrganizationFunding) (db : DB) (id : Nat) : Decidable (f.targets db id) :=
  inferInstanceAs (Decidable (_ = _))

def LedgerOp.settles (op : LedgerOp) (db : DB) (id : Nat) : Prop :=
  match op with
  | .settleWithTokenActual _ f _ => f.targets db id
  | _ => False

def LedgerOp.refunds (op : LedgerOp) (db : DB) (id : Nat) : Prop :=
  match op with
  | .refundWithToken _ f => f.targets db id
  | _ => False

instance (op : LedgerOp) (db : DB) (id : Nat) : Decidable (op.settles db id) :=
  match op with
  | .settleWithTokenActual _ f _ => inferInstanceAs (Decidable (f.targets db id))
  | .preConsumeWithToken .. | .reserveMoreWithToken .. | .refundWithToken .. | .touch ..
  | .claimExpired .. | .markRepairFailed .. => .isFalse not_false

instance (op : LedgerOp) (db : DB) (id : Nat) : Decidable (op.refunds db id) :=
  match op with
  | .refundWithToken _ f => inferInstanceAs (Decidable (f.targets db id))
  | .preConsumeWithToken .. | .reserveMoreWithToken .. | .settleWithTokenActual .. | .touch ..
  | .claimExpired .. | .markRepairFailed .. => .isFalse not_false

inductive RowStep (db : DB) (id : Nat) (op : LedgerOp) (s : OrganizationBillingSession) :
    OrganizationBillingSession → Prop
  | same : RowStep db id op s s
  | open_ {s' : OrganizationBillingSession} : s.status ≠ .settled → s.status ≠ .refunded →
      s'.status ≠ .settled → s'.status ≠ .refunded → RowStep db id op s s'
  | settled {now actual tokenDelta : Int} : op.settles db id → s.status ≠ .settled →
      s.status ≠ .refunded → RowStep db id op s (s.settledAs now actual tokenDelta)
  | refunded {now tokenRefunded : Int} : op.refunds db id → s.status ≠ .refunded →
      RowStep db id op s (s.refundedWith now tokenRefunded)

variable {o : Nat} {u₀ : ℕ} {env : Env} {f f' f0 : OrganizationFunding} {db db' : DB} {id : Nat}
  {s s' : OrganizationBillingSession} {op : LedgerOp}

theorem targets_of_ensureSession (h : f.ensureSession db = .ok (f0, id, s)) : f.targets db id := by
  rw [OrganizationFunding.targets, h]
  rfl

variable {i sessionId : Nat} {session : OrganizationBillingSession} {t t' : OrganizationBillingSession}
  {delta actual : Int}

theorem SessionStep.row (hstep : SessionStep db db' i t t' delta)
    (hget : db.sessions.get? id = some s) (hrow : i = id → t = s → RowStep db id op s t') :
    ∃ s', db'.sessions.get? id = some s' ∧ RowStep db id op s s' := by
  by_cases hi : i = id
  · subst hi
    exact ⟨t', hstep.get_self, hrow rfl (mem_unique hstep.get hget)⟩
  · exact ⟨s, by rw [hstep.get_of_ne (Ne.symm hi), hget], .same⟩

theorem preConsume_row {amount : Int} (hget : db.sessions.get? id = some s)
    (h : f.preConsumeWithToken env amount db = .ok (f', db')) : db'.sessions.get? id = some s := by
  rcases preConsumeWithToken_ok h with ⟨-, -, rfl⟩ | ⟨-, -, _, -, ⟨rfl, -⟩ | hcreated⟩
  · exact hget
  · exact hget
  · obtain ⟨_, _, _, hcreated⟩ := hcreated
    rw [hcreated.sessions, Table.get?_modify_of_ne _ _ (Table.lt_next_of_get? hget).ne,
      Table.get?_insert_of_get? hget]

theorem reserveMore_row (hget : db.sessions.get? id = some s)
    (h : f.reserveMoreWithToken env delta db = .ok (f', db')) :
    ∃ s', db'.sessions.get? id = some s' ∧ RowStep db id op s s' := by
  rcases reserveMoreWithToken_ok h with ⟨-, -, rfl⟩ | ⟨-, _, i, -, -, htx⟩
  · exact ⟨s, hget, .same⟩
  · obtain ⟨t, -, ⟨rfl, -⟩ | ⟨_, -, hstatus, hstep, -⟩⟩ := reserveMoreTx_ok htx
    · exact ⟨s, hget, .same⟩
    · refine hstep.row hget fun _ ht => ?_
      subst ht
      rcases hstatus with hst | hst <;>
        exact .open_ (by simp [hst]) (by simp [hst])
          (by simp [OrganizationBillingSession.reserved, hst])
          (by simp [OrganizationBillingSession.reserved, hst])

theorem settle_row (hget : db.sessions.get? id = some s)
    (h : f.settleWithTokenActual env actual db = .ok (f', db')) : ∃ s', db'.sessions.get? id = some s' ∧
      RowStep db id (.settleWithTokenActual env f actual) s s' := by
  rcases settleWithTokenActual_ok h with ⟨-, -, rfl⟩ | ⟨-, _, i, _, hensure, htx⟩
  · exact ⟨s, hget, .same⟩
  · obtain ⟨t, -, ⟨rfl, -⟩ | ⟨_, hsettled, hrefunded, hstep, -⟩⟩ := settleTx_ok htx
    · exact ⟨s, hget, .same⟩
    · refine hstep.row hget fun hi ht => ?_
      subst hi ht
      exact .settled (targets_of_ensureSession hensure) hsettled hrefunded

theorem refund_row (hget : db.sessions.get? id = some s) (h : f.refundWithToken env db = .ok (f', db')) :
    ∃ s', db'.sessions.get? id = some s' ∧ RowStep db id (.refundWithToken env f) s s' := by
  rcases refundWithToken_ok h with ⟨-, -, rfl⟩ | ⟨_, i, _, hensure, htx⟩
  · exact ⟨s, hget, .same⟩
  · obtain ⟨t, -, ⟨rfl, -⟩ | ⟨_, hrefunded, hstep, -⟩⟩ := refundTx_ok htx
    · exact ⟨s, hget, .same⟩
    · refine hstep.row hget fun hi ht => ?_
      subst hi ht
      exact .refunded (targets_of_ensureSession hensure) hrefunded

theorem saveSession_row (hget : db.sessions.get? id = some s)
    (ht : db.sessions.get? i = some t) (h1 : t.status ≠ .settled) (h2 : t.status ≠ .refunded)
    (h1' : t'.status ≠ .settled) (h2' : t'.status ≠ .refunded) :
    ∃ s', (saveSession db i t').sessions.get? id = some s' ∧ RowStep db id op s s' := by
  unfold saveSession
  rw [Table.get?_modify]
  split_ifs with hi
  · subst hi
    obtain rfl : t = s := mem_unique ht hget
    exact ⟨t', by rw [hget]; rfl, .open_ h1 h2 h1' h2'⟩
  · exact ⟨s, hget, .same⟩

theorem commit_row {tx : DB → Except BillingError (OrganizationFunding × DB)} (hget : db.sessions.get? id = some s)
    (h : ∀ f' db', tx db = .ok (f', db') → ∃ s', db'.sessions.get? id = some s' ∧ RowStep db id op s s') :
    ∃ s', (commit tx db).sessions.get? id = some s' ∧ RowStep db id op s s' := by
  unfold commit
  split
  · rename_i r hr
    exact h r.1 r.2 hr
  · exact ⟨s, hget, .same⟩

/-- Every ledger transaction is a `RowStep` on every row. -/
theorem apply_row (hget : db.sessions.get? id = some s) (op : LedgerOp) :
    ∃ s', (op.apply db).sessions.get? id = some s' ∧ RowStep db id op s s' := by
  cases op with
  | preConsumeWithToken =>
    exact commit_row hget fun _ _ h => ⟨s, preConsume_row hget h, .same⟩
  | reserveMoreWithToken => exact commit_row hget fun _ _ h => reserveMore_row hget h
  | settleWithTokenActual => exact commit_row hget fun _ _ h => settle_row hget h
  | refundWithToken => exact commit_row hget fun _ _ h => refund_row hget h
  | touch =>
    simp only [LedgerOp.apply, touchOrganizationBillingSession]
    split_ifs
    · exact ⟨s, hget, .same⟩
    · rw [Table.get?_modify, hget]
      split_ifs with hi
      · refine ⟨_, rfl, ?_⟩
        dsimp only
        split_ifs with hst
        · exact .open_ (by simp [hst.2]) (by simp [hst.2]) (by simp [hst.2]) (by simp [hst.2])
        · exact .same
      · exact ⟨s, rfl, .same⟩
  | claimExpired =>
    simp only [LedgerOp.apply, claimExpiredOrganizationBillingSession]
    split
    · exact ⟨s, hget, .same⟩
    · rename_i t ht
      split_ifs with hclaim
      · unfold OrganizationBillingSession.claimable at hclaim
        rw [decide_eq_true_eq] at hclaim
        refine saveSession_row hget ht ?_ ?_ (by simp [OrganizationBillingSession.claimed])
          (by simp [OrganizationBillingSession.claimed])
        · rcases hclaim with ⟨hst | hst, -⟩ | ⟨hst, -⟩ <;> simp [hst]
        · rcases hclaim with ⟨hst | hst, -⟩ | ⟨hst, -⟩ <;> simp [hst]
      · exact ⟨s, hget, .same⟩
  | markRepairFailed =>
    simp only [LedgerOp.apply, markOrganizationBillingSessionRepairFailed]
    split
    · exact ⟨s, hget, .same⟩
    · rename_i t ht
      split_ifs with hst
      · exact saveSession_row hget ht (by simp [hst]) (by simp [hst]) (by simp) (by simp)
      · exact ⟨s, hget, .same⟩

theorem apply_settled (hget : db.sessions.get? id = some s) (hs : s.status = .settled)
    (hop : ¬ op.refunds db id) : (op.apply db).sessions.get? id = some s := by
  obtain ⟨_, hget', hrow⟩ := apply_row hget op
  cases hrow with
  | same => exact hget'
  | open_ h | settled _ h => exact absurd hs h
  | refunded h => exact absurd h hop

theorem apply_refunded (hget : db.sessions.get? id = some s) (hs : s.status = .refunded) :
    (op.apply db).sessions.get? id = some s := by
  obtain ⟨_, hget', hrow⟩ := apply_row hget op
  cases hrow with
  | same => exact hget'
  | open_ _ h | settled _ _ h | refunded _ h => exact absurd hs h

theorem apply_unsettled (hget : db.sessions.get? id = some s) (hs : s.status ≠ .settled) (hop : ¬ op.settles db id) :
    ∃ s', (op.apply db).sessions.get? id = some s' ∧ s'.status ≠ .settled := by
  obtain ⟨s', hget', hrow⟩ := apply_row hget op
  refine ⟨s', hget', ?_⟩
  cases hrow with
  | same => exact hs
  | open_ _ _ h => exact h
  | settled h => exact absurd h hop
  | refunded => simp [OrganizationBillingSession.refundedWith]

theorem settleWithTokenActual_settled (hbill : isOrganizationBilling f.relayInfo = true)
    (h : f.settleWithTokenActual env actual db = .ok (f', db')) :
    ∃ id s, f'.session = some (id, s) ∧ f.targets db id ∧ db'.sessions.get? id = some s ∧
      s.status = .settled ∧ s.settledQuota = actual := by
  rcases settleWithTokenActual_ok h with ⟨hno, -, -⟩ | ⟨-, _, i, _, hensure, htx⟩
  · rw [hbill] at hno
    cases hno
  · obtain ⟨t, hget, ⟨rfl, hst, hquota, rfl⟩ | ⟨_, -, -, hstep, -, hs, -⟩⟩ := settleTx_ok htx
    · exact ⟨i, t, rfl, targets_of_ensureSession hensure, hget, hst, hquota⟩
    · exact ⟨i, _, hs, targets_of_ensureSession hensure, hstep.get_self, rfl, rfl⟩

/-! ## The repairs under way -/

/-- Where one repair stands: the session was claimed, its status was read again and found `repairing`
(with the row as read), its refund failed, or the repair is over. A worker that repairs a batch is one
such repair per session. -/
inductive Repair
  | claimed (sessionId : Nat)
  | confirmed (sessionId : Nat) (session : OrganizationBillingSession)
  | failing (sessionId : Nat) (message : String)
  | done

/-- The database with the repairs under way. `settledSessions` and `repairedSessions` are history
variables: the sessions some settlement succeeded on, and those whose hold a repair gave back. -/
structure RepairState where
  db : DB
  repairs : List Repair := []
  settledSessions : List Nat := []
  repairedSessions : List Nat := []

/-- A transaction of a request, of its owner or of a worker that dies right after it, or a step of the
repair at a place of the list. -/
inductive RepairEvent
  | request (op : LedgerOp)
  | claim (sessionId : Nat) (now : Int)
  | confirm (i : Nat)
  | refund (i : Nat) (env : Env)
  | markFailed (i : Nat) (now : Int)

/-- The funding a worker builds from the row it has read. -/
def repairFunding (sessionId : Nat) (session : OrganizationBillingSession) : OrganizationFunding where
  relayInfo := organizationBillingRelayInfoFromSession sessionId session
  session := some (sessionId, session)
  tokenConsumed := session.tokenRemainDeductedQuota

def LedgerOp.settledSession (op : LedgerOp) (db : DB) : Option Nat :=
  match op with
  | .settleWithTokenActual env f actual =>
    if isOrganizationBilling f.relayInfo then
      (f.settleWithTokenActual env actual db).toOption.bind fun r => r.1.session.map fun s => s.1
    else none
  | _ => none

/-- The re-read: the repair goes on only when the row is still `repairing`. -/
def confirmRepair (db : DB) (sessionId : Nat) : Repair :=
  match db.sessions.get? sessionId with
  | none => .done
  | some session => if session.status = .repairing then .confirmed sessionId session else .done

/-- The session's hold was given back between `db` and `db'`. -/
def givenBack (db db' : DB) (sessionId : Nat) : Bool :=
  (db.sessions.get? sessionId).any (fun session => session.status ≠ .refunded) &&
    (db'.sessions.get? sessionId).any fun session => session.status = .refunded

def RepairState.step (s : RepairState) : RepairEvent → RepairState
  | .request op =>
    { s with
      db := op.apply s.db
      settledSessions := (op.settledSession s.db).toList ++ s.settledSessions }
  | .claim sessionId now =>
    { s with
      db := (LedgerOp.claimExpired sessionId now).apply s.db
      repairs :=
        if (claimExpiredOrganizationBillingSession sessionId now s.db).1.isSome then
          s.repairs ++ [.claimed sessionId]
        else s.repairs }
  | .confirm i =>
    match s.repairs[i]? with
    | some (.claimed sessionId) => { s with repairs := s.repairs.set i (confirmRepair s.db sessionId) }
    | _ => s
  | .refund i env =>
    match s.repairs[i]? with
    | some (.confirmed sessionId session) =>
      match (repairFunding sessionId session).refundWithToken env s.db with
      | .ok (_, db) =>
        { s with
          db
          repairs := s.repairs.set i .done
          repairedSessions :=
            if givenBack s.db db sessionId then sessionId :: s.repairedSessions
            else s.repairedSessions }
      | .error e => { s with repairs := s.repairs.set i (.failing sessionId e.message) }
    | _ => s
  | .markFailed i now =>
    match s.repairs[i]? with
    | some (.failing sessionId message) =>
      { s with
        db := (LedgerOp.markRepairFailed sessionId message now).apply s.db
        repairs := s.repairs.set i .done }
    | _ => s

/-- The session whose status this repair has confirmed and not yet refunded. -/
def Repair.confirmedSession : Repair → Option Nat
  | .confirmed sessionId _ => some sessionId
  | _ => none

/-- No settlement is made on a session that a repair stands on between its re-read and its refund. -/
def RepairState.outsideWindow (s : RepairState) : RepairEvent → Prop
  | .request op => ∀ id ∈ s.repairs.filterMap Repair.confirmedSession, ¬ op.settles s.db id
  | _ => True

/-- The owner asks for a refund of session `id`. -/
def RepairState.ownerRefunds (s : RepairState) (id : Nat) : RepairEvent → Prop
  | .request op => op.refunds s.db id
  | _ => False

instance (s : RepairState) (e : RepairEvent) : Decidable (s.outsideWindow e) :=
  match e with
  | .request op => inferInstanceAs (Decidable (∀ id ∈ s.repairs.filterMap Repair.confirmedSession,
      ¬ op.settles s.db id))
  | .claim .. | .confirm .. | .refund .. | .markFailed .. => .isTrue trivial

instance (s : RepairState) (id : Nat) (e : RepairEvent) : Decidable (s.ownerRefunds id e) :=
  match e with
  | .request op => inferInstanceAs (Decidable (op.refunds s.db id))
  | .claim .. | .confirm .. | .refund .. | .markFailed .. => .isFalse not_false

/-- A repair stands on an unsettled session, sessions once settled stay settled or refunded, sessions
given back by a repair are refunded, and no session is both. -/
structure RepairSafe (s : RepairState) : Prop where
  confirmed : ∀ id ∈ s.repairs.filterMap Repair.confirmedSession,
    ∃ t, s.db.sessions.get? id = some t ∧ t.status ≠ .settled
  settled : ∀ id ∈ s.settledSessions,
    ∃ t, s.db.sessions.get? id = some t ∧ (t.status = .settled ∨ t.status = .refunded)
  repaired : ∀ id ∈ s.repairedSessions, ∃ t, s.db.sessions.get? id = some t ∧ t.status = .refunded
  disjoint : ∀ id ∈ s.repairedSessions, id ∉ s.settledSessions

theorem apply_closed (hget : db.sessions.get? id = some s) (hs : s.status = .settled ∨ s.status = .refunded) :
    ∃ s', (op.apply db).sessions.get? id = some s' ∧ (s'.status = .settled ∨ s'.status = .refunded) := by
  obtain ⟨s', hget', hrow⟩ := apply_row hget op
  refine ⟨s', hget', ?_⟩
  cases hrow with
  | same => exact hs
  | open_ h1 h2 => exact absurd hs (not_or.mpr ⟨h1, h2⟩)
  | settled => exact .inl rfl
  | refunded => exact .inr rfl

variable {σ : RepairState}

/-- A transaction that settles no confirmed session keeps the invariant. -/
theorem RepairSafe.apply (h : RepairSafe σ) (op : LedgerOp)
    (hop : ∀ id ∈ σ.repairs.filterMap Repair.confirmedSession, ¬ op.settles σ.db id) :
    RepairSafe { σ with db := op.apply σ.db } := by
  refine ⟨fun id hid => ?_, fun id hid => ?_, fun id hid => ?_, h.disjoint⟩
  · obtain ⟨t, hget, hst⟩ := h.confirmed id hid
    exact apply_unsettled hget hst (hop id hid)
  · obtain ⟨t, hget, hst⟩ := h.settled id hid
    exact apply_closed hget hst
  · obtain ⟨t, hget, hst⟩ := h.repaired id hid
    exact ⟨t, apply_refunded hget hst, hst⟩

theorem RepairSafe.setRepair (h : RepairSafe σ) (i : Nat) {r : Repair}
    (hr : ∀ id ∈ r.confirmedSession, ∃ t, σ.db.sessions.get? id = some t ∧ t.status ≠ .settled) :
    RepairSafe { σ with repairs := σ.repairs.set i r } := by
  refine ⟨fun id hid => ?_, h.settled, h.repaired, h.disjoint⟩
  obtain ⟨r', hmem, hr'⟩ := mem_filterMap.mp hid
  rcases mem_or_eq_of_mem_set hmem with hold | rfl
  · exact h.confirmed id (mem_filterMap.mpr ⟨r', hold, hr'⟩)
  · exact hr id hr'

theorem confirmRepair_unsettled (db : DB) (sessionId : Nat) : ∀ id ∈ (confirmRepair db sessionId).confirmedSession,
      ∃ t, db.sessions.get? id = some t ∧ t.status ≠ .settled := by
  intro id hid
  unfold confirmRepair at hid
  split at hid
  · cases hid
  · rename_i t hget
    split_ifs at hid with hst
    · cases hid
      exact ⟨t, hget, by simp [hst]⟩
    · cases hid

/-- A settlement that succeeded has settled its session, which no repair gave back before. -/
theorem RepairSafe.request (h : RepairSafe σ) (op : LedgerOp)
    (hop : σ.outsideWindow (.request op)) : RepairSafe (σ.step (.request op)) := by
  have happly := h.apply op hop
  have hnew : ∀ id ∈ (op.settledSession σ.db).toList,
      ∃ t, (op.apply σ.db).sessions.get? id = some t ∧ t.status = .settled := by
    intro id hid
    rw [mem_toList] at hid
    unfold LedgerOp.settledSession at hid
    split at hid
    · rename_i env f actual
      split_ifs at hid with hbill
      · obtain ⟨⟨_, _⟩, hok, hsess⟩ := bind_eq_some_iff.mp hid
        have hok' := toOption_eq_some.mp hok
        obtain ⟨i, t, hs, -, hget, hst, -⟩ := settleWithTokenActual_settled hbill hok'
        simp only [hs, map_some, Option.some.injEq] at hsess
        subst hsess
        exact ⟨t, by rw [LedgerOp.apply, commit_ok hok']; exact hget, hst⟩
    · cases hid
  refine ⟨happly.confirmed, fun id hid => ?_, happly.repaired, fun id hrep hset => ?_⟩
  · rcases mem_append.mp hid with hid | hid
    · obtain ⟨t, hget, hst⟩ := hnew id hid
      exact ⟨t, hget, .inl hst⟩
    · exact happly.settled id hid
  · rcases mem_append.mp hset with hid | hid
    · obtain ⟨t, hget, hst⟩ := hnew id hid
      obtain ⟨t', hget', hst'⟩ := happly.repaired id hrep
      obtain rfl : t = t' := mem_unique hget hget'
      rw [hst] at hst'
      cases hst'
    · exact h.disjoint id hrep hid

/-- The refund of a repair changes the database as the owner's refund of that one session would. -/
theorem repairFunding_refund (h : (repairFunding sessionId session).refundWithToken env db = .ok (f', db')) :
    (LedgerOp.refundWithToken env (repairFunding sessionId session)).apply db = db' := by
  rw [LedgerOp.apply, commit_ok h]

theorem repairFunding_targets : (repairFunding sessionId session).targets db id ↔ sessionId = id := by
  simp [OrganizationFunding.targets, repairFunding, OrganizationFunding.ensureSession, Except.toOption]

theorem RepairSafe.refund (h : RepairSafe σ) (hi : σ.repairs[i]? = some (.confirmed sessionId session))
    (hok : (repairFunding sessionId session).refundWithToken env σ.db = .ok (f', db')) :
    RepairSafe { σ with
      db := db'
      repairs := σ.repairs.set i .done
      repairedSessions :=
        if givenBack σ.db db' sessionId then sessionId :: σ.repairedSessions
        else σ.repairedSessions } := by
  have happly := h.apply (.refundWithToken env (repairFunding sessionId session)) fun _ _ => not_false
  rw [repairFunding_refund hok] at happly
  have hset := happly.setRepair i (r := .done) (by simp [Repair.confirmedSession])
  by_cases hgiven : givenBack σ.db db' sessionId = true
  · rw [if_pos hgiven]
    unfold givenBack at hgiven
    rw [Bool.and_eq_true, Option.any_eq_true, Option.any_eq_true] at hgiven
    obtain ⟨⟨t, hget, hopen⟩, ⟨t', hget', hclosed⟩⟩ := hgiven
    rw [decide_eq_true_eq] at hopen hclosed
    refine ⟨hset.confirmed, hset.settled, fun id hid => ?_, fun id hid hsettled => ?_⟩
    · rcases mem_cons.mp hid with rfl | hid
      · exact ⟨t', hget', hclosed⟩
      · exact hset.repaired id hid
    · rcases mem_cons.mp hid with rfl | hid
      · -- the repair has confirmed the session, so it is not settled; and it is not refunded yet
        have hmem : id ∈ σ.repairs.filterMap Repair.confirmedSession := mem_filterMap.mpr ⟨_, mem_of_getElem? hi, rfl⟩
        obtain ⟨t1, hget1, hunsettled⟩ := h.confirmed id hmem
        obtain ⟨t2, hget2, hdone⟩ := h.settled id hsettled
        obtain rfl : t1 = t2 := mem_unique hget1 hget2
        obtain rfl : t1 = t := mem_unique hget1 hget
        exact absurd hdone (not_or.mpr ⟨hunsettled, hopen⟩)
      · exact h.disjoint id hid hsettled
  · rw [if_neg hgiven]
    exact hset

theorem RepairSafe.step (h : RepairSafe σ) (e : RepairEvent) (he : σ.outsideWindow e) : RepairSafe (σ.step e) := by
  cases e with
  | request op => exact h.request op he
  | claim sessionId now =>
    have happly := h.apply (.claimExpired sessionId now) fun _ _ => not_false
    refine ⟨fun id hid => ?_, happly.settled, happly.repaired, happly.disjoint⟩
    apply happly.confirmed
    simp only [RepairState.step] at hid
    split_ifs at hid
    · simpa [Repair.confirmedSession] using hid
    · exact hid
  | confirm i =>
    simp only [RepairState.step]
    split
    · exact h.setRepair i (confirmRepair_unsettled σ.db _)
    · exact h
  | refund i =>
    simp only [RepairState.step]
    split
    · rename_i sessionId session hi
      split
      · rename_i hok
        exact h.refund hi hok
      · exact h.setRepair i (by simp [Repair.confirmedSession])
    · exact h
  | markFailed i now =>
    simp only [RepairState.step]
    split
    · rename_i sessionId message hi
      have happly := h.apply (.markRepairFailed sessionId message now) fun _ _ => not_false
      exact happly.setRepair i (r := .done) (by simp [Repair.confirmedSession])
    · exact h

/-! ## A settled charge -/

/-- Every event changes the database by a ledger transaction or not at all; a refund among them is the
owner's, or that of a repair which has confirmed the session. -/
theorem RepairState.step_db (σ : RepairState) (e : RepairEvent) :
    (σ.step e).db = σ.db ∨ ∃ op : LedgerOp, (σ.step e).db = op.apply σ.db ∧
      ∀ id, op.refunds σ.db id → σ.ownerRefunds id e ∨ id ∈ σ.repairs.filterMap Repair.confirmedSession := by
  cases e with
  | request op => exact .inr ⟨op, rfl, fun id h => .inl h⟩
  | claim sessionId now => exact .inr ⟨.claimExpired sessionId now, rfl, fun id h => h.elim⟩
  | confirm =>
    left
    simp only [RepairState.step]
    split <;> rfl
  | refund =>
    simp only [RepairState.step]
    split
    · rename_i sessionId session hi
      split
      · rename_i hok
        refine .inr ⟨_, (repairFunding_refund hok).symm, fun id hid => .inr ?_⟩
        obtain rfl := repairFunding_targets.mp hid
        exact mem_filterMap.mpr ⟨_, mem_of_getElem? hi, rfl⟩
      · exact .inl rfl
    · exact .inl rfl
  | markFailed i now =>
    simp only [RepairState.step]
    split
    · exact .inr ⟨.markRepairFailed _ _ now, rfl, fun id h => h.elim⟩
    · exact .inl rfl

/-- A settled session that no repair has confirmed stays as it is through every event that is not its owner's
refund. -/
theorem RepairState.step_settled {e : RepairEvent}
    (hunconfirmed : id ∉ σ.repairs.filterMap Repair.confirmedSession) (he : ¬ σ.ownerRefunds id e)
    (hget : σ.db.sessions.get? id = some s) (hs : s.status = .settled) : (σ.step e).db.sessions.get? id = some s := by
  rcases σ.step_db e with hdb | ⟨_, hdb, hrefunds⟩
  · rw [hdb, hget]
  · rw [hdb]
    apply apply_settled hget hs
    intro hop
    rcases hrefunds id hop with howner | hmem
    · exact he howner
    · exact hunconfirmed hmem

theorem RepairSafe.unconfirmed (h : RepairSafe σ) (hget : σ.db.sessions.get? id = some s)
    (hs : s.status = .settled) : id ∉ σ.repairs.filterMap Repair.confirmedSession := by
  intro hmem
  obtain ⟨t, hget', hst⟩ := h.confirmed id hmem
  obtain rfl : s = t := mem_unique hget hget'
  exact hst hs

theorem RepairSafe.run_settled (h : RepairSafe σ) {events : List RepairEvent}
    (hevents : Along RepairState.step (fun σ e => σ.outsideWindow e ∧ ¬ σ.ownerRefunds id e) σ events)
    (hget : σ.db.sessions.get? id = some s) (hs : s.status = .settled) : RepairSafe (run RepairState.step σ events) ∧
      (run RepairState.step σ events).db.sessions.get? id = some s :=
  run_invariant (I := fun σ => RepairSafe σ ∧ σ.db.sessions.get? id = some s)
    (fun _ e h he => ⟨h.1.step e he.1, RepairState.step_settled (h.1.unconfirmed h.2 hs) he.2 h.2 hs⟩)
    ⟨h, hget⟩ hevents

theorem Conserved.repairStep (hc : Conserved o u₀ σ.db) (e : RepairEvent) : Conserved o u₀ (σ.step e).db := by
  rcases σ.step_db e with hdb | ⟨op, hdb, -⟩
  · rw [hdb]
    exact hc
  · rw [hdb]
    exact hc.apply (op.effect _)

theorem RepairSafe.init (db : DB) : RepairSafe { db } :=
  ⟨by simp, by simp, by simp, by simp⟩

/-- **A settled charge is kept.** Start from a ledger where organization `o` has no sessions and no
repair is under way. If a settlement of `actual` succeeds on session `id`, then after any further events
the session is still settled with `actual`, which is what it holds of the organization's `used_quota`,
as long as its owner asks for no refund; and no repair has given back a session that was ever settled.
The condition is that no settlement is made on a session that a repair stands on between its re-read and
its refund. -/
theorem settled_charge_kept (db : DB) (o : Nat) (u₀ : ℕ) (org : Organization)
    (hget : db.organizations.get? o = some org) (hused : org.usedQuota = u₀)
    (hnone : ∀ i s, db.sessions.get? i = some s → s.organizationId ≠ o)
    (hhist : ∀ u ∈ db.usedQuotaUpdates, u.organizationId ≠ o)
    (before after : List RepairEvent) (env : Env) (f f' : OrganizationFunding) (actual : Int) (db' : DB)
    (id : Nat) (s : OrganizationBillingSession) (hbill : isOrganizationBilling f.relayInfo = true)
    (hok : f.settleWithTokenActual env actual (run RepairState.step { db } before).db = .ok (f', db'))
    (hsession : f'.session = some (id, s))
    (hwindow : Along RepairState.step RepairState.outsideWindow { db }
      (before ++ .request (.settleWithTokenActual env f actual) :: after))
    (howner : Along RepairState.step (fun σ e => ¬ σ.ownerRefunds id e)
      (run RepairState.step { db } (before ++ [.request (.settleWithTokenActual env f actual)])) after) :
    let final := run RepairState.step { db }
      (before ++ .request (.settleWithTokenActual env f actual) :: after)
    (∃ row, final.db.sessions.get? id = some row ∧ row.status = .settled ∧
        row.settledQuota = actual ∧ row.hold = actual) ∧
      (∃ org', final.db.organizations.get? o = some org' ∧ org'.usedQuota = u₀ + held o final.db) ∧
      ∀ i ∈ final.repairedSessions, i ∉ final.settledSessions := by
  intro final
  obtain ⟨i, t, hs, -, hrow, hst, hquota⟩ := settleWithTokenActual_settled hbill hok
  obtain ⟨rfl, rfl⟩ : id = i ∧ s = t := by simpa [hsession] using hs
  have hsplit : before ++ .request (.settleWithTokenActual env f actual) :: after =
      (before ++ [.request (.settleWithTokenActual env f actual)]) ++ after := by simp
  rw [hsplit, along_append] at hwindow
  set mid := run RepairState.step { db } (before ++ [.request (.settleWithTokenActual env f actual)])
    with hmid
  have hfinal : final = run RepairState.step mid after := by
    rw [hmid, ← run_append, ← hsplit]
  have hmidrow : mid.db.sessions.get? id = some s := by
    rw [hmid, run_append]
    simp only [run_cons, RepairState.step, LedgerOp.apply]
    rw [commit_ok hok]
    exact hrow
  have hmidsafe : RepairSafe mid := run_invariant (fun _ e h he => h.step e he) (.init db) hwindow.1
  have hboth : RepairSafe final ∧ final.db.sessions.get? id = some s := by
    rw [hfinal]
    exact hmidsafe.run_settled (along_and.mpr ⟨hwindow.2, howner⟩) hmidrow hst
  have hconserved : Conserved o u₀ final.db :=
    run_invariant' (I := fun σ : RepairState => Conserved o u₀ σ.db) (fun _ e h => h.repairStep e)
      (.init hget hused hnone hhist) _
  refine ⟨⟨s, hboth.2, hst, hquota, ?_⟩, hconserved.used, hboth.1.disjoint⟩
  rw [OrganizationBillingSession.hold, hst, hquota]

def expiredRun : List RepairEvent :=
  [.request (.preConsumeWithToken (sampleEnv 10) ⟨sampleRequest, none, 0⟩ 100), .claim 1 700]

def sampleSettle : RepairEvent :=
  .request (.settleWithTokenActual (sampleEnv 701) ⟨sampleRequest, none, 0⟩ 60)

theorem settled_charge_kept_sample :
    let final := run RepairState.step { db := sampleDB }
      (expiredRun ++ sampleSettle :: [.confirm 0, .refund 0 (sampleEnv 702)])
    (∃ row, final.db.sessions.get? 1 = some row ∧ row.status = .settled ∧
        row.settledQuota = 60 ∧ row.hold = 60) ∧
      (∃ org', final.db.organizations.get? 1 = some org' ∧
        org'.usedQuota = (7 : ℕ) + held 1 final.db) ∧
      ∀ i ∈ final.repairedSessions, i ∉ final.settledSessions := by
  have htarget : ((OrganizationFunding.settleWithTokenActual ⟨sampleRequest, none, 0⟩ (sampleEnv 701) 60
      (run RepairState.step { db := sampleDB } expiredRun).db).toOption.bind fun r =>
        r.1.session.map fun s => s.1) = some 1 := by decide +kernel
  obtain ⟨⟨f', db'⟩, hres, hmap⟩ := bind_eq_some_iff.mp htarget
  obtain ⟨⟨_, s⟩, hsession, hid⟩ := map_eq_some_iff.mp hmap
  subst hid
  exact settled_charge_kept sampleDB 1 7 { quota := 1000, usedQuota := 7, ownerUserId := 1 } rfl rfl
    (fun i s h => by cases h) (fun u hu => by cases hu) expiredRun [.confirm 0, .refund 0 (sampleEnv 702)]
    (sampleEnv 701) ⟨sampleRequest, none, 0⟩ f' 60 db' 1 s rfl (toOption_eq_some.mp hres) hsession
    (by decide +kernel) (by decide +kernel)

/-- The settlement of `60` commits after the repair has confirmed the status and before its refund. The
settlement succeeds and no owner asks for a refund, yet the session ends refunded and the organization
is charged nothing. -/
theorem repair_takes_back_settled_charge :
    (OrganizationFunding.settleWithTokenActual ⟨sampleRequest, none, 0⟩ (sampleEnv 701) 60
        (run RepairState.step { db := sampleDB } (expiredRun ++ [.confirm 0])).db).isOk = true ∧
      Along RepairState.step (fun σ e => ¬ σ.ownerRefunds 1 e) { db := sampleDB }
        (expiredRun ++ [.confirm 0, sampleSettle, .refund 0 (sampleEnv 702)]) ∧
      let final := run RepairState.step { db := sampleDB }
        (expiredRun ++ [.confirm 0, sampleSettle, .refund 0 (sampleEnv 702)])
      (final.db.sessions.get? 1).map (fun s => s.status) = some .refunded ∧
        (final.db.organizations.get? 1).map (fun o => o.usedQuota) = some 7 ∧
        final.settledSessions = [1] ∧ final.repairedSessions = [1] := by
  decide +kernel

end CubeRouter.Ledger
