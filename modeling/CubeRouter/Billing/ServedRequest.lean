import CubeRouter.Billing.OrganizationSession
import CubeRouter.Ledger.Repair
import CubeRouter.Ledger.Replay

/-!
# What a served organization request leaves charged

`BillingSession.Settle` is called once the upstream has answered. For an organization it is one transaction,
and an upward difference passes the guards of a pre-consumption: an active organization with the room, and a
token with the rest. A downward settlement passes whatever the organization and the token look like. When the
transaction is refused nothing was collected, and the log of the request says so; the session then expires like
any other, and the repair worker gives its hold back.

`Settleable` is the condition under which the transaction commits (`settleTx_succeeds`); a session that has
settled keeps its charge through every later run of the worker.
-/

namespace CubeRouter.Billing

open Relational Transition Ledger Option

/-! ## When a settlement commits -/

/-- The token of a settlement can be loaded, and covers an upward difference. -/
def TokenCovers (tokens : Table Token) (relayInfo : RelayInfo) (unlimitedQuota : Bool) (delta : Int) : Prop :=
  relayInfo.isPlayground = true ∨ ∃ relayInfo' token?,
    loadTokenForQuotaTx true tokens relayInfo = .ok (relayInfo', token?) ∧
      ∀ t ∈ token?, 0 < delta → unlimitedQuota = true ∨ delta ≤ t.2.remainQuota

/-- The guards of a settlement of `actual`: none on the organization and on the balance of the token when it
does not exceed what is held. -/
structure Settleable (db : DB) (id : Nat) (row : OrganizationBillingSession) (relayInfo : RelayInfo)
    (actual : Int) : Prop where
  organization : row.preConsumedQuota < actual →
    ∀ org, db.organizations.get? row.organizationId = some org →
      org.status = .active ∧ org.usedQuota + (actual - row.preConsumedQuota) ≤ org.quota
  token : TokenCovers db.tokens (organizationBillingTokenQuotaRelayInfo id row relayInfo)
    row.tokenUnlimitedQuota (actual - row.preConsumedQuota)

variable {st : Settings} {env : Env} {db db' : DB} {id : Nat} {row : OrganizationBillingSession}
  {f f' : OrganizationFunding} {actual : Int} {relayInfo : RelayInfo} {org : Organization} {σ : RepairState}
  {tokens : Table Token} {unlimitedQuota : Bool} {now delta : Int} {s : BillingSession} {events : List RepairEvent}

theorem moveTokenQuotaTx_succeeds {quota : Int} {enough : Token → Bool}
    {unlimited limited : Token → Token} (hquota : 0 ≤ quota)
    (hcovers : relayInfo.isPlayground = true ∨ ∃ relayInfo' token?,
      loadTokenForQuotaTx true tokens relayInfo = .ok (relayInfo', token?) ∧
        ∀ t ∈ token?, unlimitedQuota = true ∨ enough t.2 = true) :
    ∃ r, moveTokenQuotaTx true tokens relayInfo quota (some unlimitedQuota) enough unlimited limited = .ok r := by
  unfold moveTokenQuotaTx
  split_ifs with hneg hskip
  · omega
  · exact ⟨_, rfl⟩
  · rcases hcovers with hplay | ⟨relayInfo', token?, hload, henough⟩
    · exact absurd (.inl hplay) hskip
    · refine exists_bind_ok ⟨_, hload⟩ fun c hc => ?_
      obtain rfl : (relayInfo', token?) = c := Except.ok.inj (hload.symm.trans hc)
      rcases token? with - | ⟨i, token⟩
      · exact ⟨_, rfl⟩
      · have ht := henough (i, token) rfl
        simp only [getD_some]
        split_ifs with hunlimited hshort
        · exact ⟨_, rfl⟩
        · rcases ht with ht | ht
          · exact absurd ht hunlimited
          · simp [ht] at hshort
        · exact ⟨_, rfl⟩

theorem settleTokenQuotaTx_succeeds (hcovers : TokenCovers tokens relayInfo unlimitedQuota delta) :
    ∃ r, settleTokenQuotaTx now tokens relayInfo delta unlimitedQuota = .ok r := by
  unfold settleTokenQuotaTx
  split_ifs with hup hdown
  · refine exists_bind_ok (moveTokenQuotaTx_succeeds hup.le ?_) fun _ _ => ⟨_, rfl⟩
    simpa [TokenCovers, hup] using hcovers
  · refine exists_bind_ok (moveTokenQuotaTx_succeeds (by omega) ?_) fun _ _ => ⟨_, rfl⟩
    rcases hcovers with hplay | ⟨relayInfo', token?, hload, -⟩
    · exact .inl hplay
    · exact .inr ⟨relayInfo', token?, hload, fun _ _ => .inr rfl⟩
  · exact ⟨_, rfl⟩

theorem updateOrganizationUsedQuotaTx_succeeds {o memberUserId : Nat}
    {increment requireActive : Bool} (hget : db.organizations.get? o = some org)
    (hactive : requireActive = true → org.status = .active) (hroom : 0 < delta → org.usedQuota + delta ≤ org.quota) :
    ∃ r, updateOrganizationUsedQuotaTx db o delta increment requireActive now memberUserId false = .ok r := by
  unfold updateOrganizationUsedQuotaTx
  simp only [hget]
  split_ifs with hread hinactive hguard
  · exact absurd (hactive hinactive.1) hinactive.2
  · exact ⟨_, rfl⟩
  · rcases hguard with ⟨hrequire, hst⟩ | ⟨hpos, hfull⟩
    · exact absurd (hactive hrequire) hst
    · exact absurd (hroom hpos) hfull
  · refine exists_bind_ok ?_ fun _ _ => ⟨_, rfl⟩
    unfold updateOrganizationMemberUsedQuotaTx
    by_cases hskip : o = 0 ∨ memberUserId = 0 ∨ delta = 0
    · exact ⟨_, if_pos hskip⟩
    · rw [if_neg hskip]
      split
      · exact ⟨_, rfl⟩
      · exact ⟨_, if_neg (by simp)⟩

theorem syncOrganizationQuotaFromTx_succeeds (hget : db.organizations.get? relayInfo.billingAccountId = some org) :
    ∃ r, syncOrganizationQuotaFromTx db relayInfo = .ok r := by
  unfold syncOrganizationQuotaFromTx
  split_ifs
  · exact ⟨_, rfl⟩
  · rw [hget]
    exact ⟨_, rfl⟩

/-- In a ledger that replays, the guards are all that a settlement of an open session can fail on. -/
theorem settleTx_succeeds (h : Replays db) (hget : db.sessions.get? id = some row) (hopen : row.status.Open)
    (horg : db.organizations.get? row.organizationId = some org) (hsettle : Settleable db id row f.relayInfo actual) :
    ∃ r, f.settleTx env actual id db = .ok r := by
  have hlock : lockSession db id = .ok row := by
    unfold lockSession
    rw [hget]
  have hvalid : validateOrganizationSettledQuota row actual = .ok () := if_neg fun hst => hopen.1 hst.1
  refine exists_bind_ok ⟨_, hlock⟩ fun s hs => ?_
  obtain rfl : row = s := Except.ok.inj (hlock.symm.trans hs)
  refine exists_bind_ok ⟨_, hvalid⟩ fun _ _ => ?_
  rw [if_neg hopen.1, if_neg hopen.2]
  refine exists_bind_ok (updateOrganizationUsedQuotaTx_succeeds horg ?_ ?_) ?_
  · intro hup
    rw [decide_eq_true_eq] at hup
    exact (hsettle.organization (by omega) org horg).1
  · intro hup
    exact (hsettle.organization (by omega) org horg).2
  · rintro ⟨before, after, db2⟩ hupdate
    obtain ⟨_, organizations, members, updates, hmoved, rfl⟩ := updateOrganizationUsedQuotaTx_ok hupdate
    refine exists_bind_ok (settleTokenQuotaTx_succeeds hsettle.token) ?_
    rintro ⟨tokenDelta, tokens⟩ -
    obtain ⟨_, hfee⟩ := bookViolationFee_frame
      { db with organizations, members, tokens, usedQuotaUpdates := updates } f.relayInfo row actual
    simp only [hfee]
    refine exists_bind_ok (createOrganizationBillingRecordTx_of_fresh fun i r hr => h.settle_fresh hget hopen hr)
      fun db3 hrecord => ?_
    obtain rfl := createOrganizationBillingRecordTx_ok hrecord
    have hafter : organizations.get? row.organizationId = some after := by
      rw [hmoved.get', if_pos rfl]
    exact exists_bind_ok (syncOrganizationQuotaFromTx_succeeds hafter) fun _ _ => ⟨_, rfl⟩

/-! ## `Settle` -/

/-- A session whose request was served: its ledger row is open, and the two totals the session keeps agree with
the row. -/
structure Served (db : DB) (s : BillingSession) (f : OrganizationFunding) (id : Nat)
    (row : OrganizationBillingSession) : Prop where
  funding : s.funding = .organization f
  billing : isOrganizationBilling f.relayInfo = true
  unsettled : s.settled = false
  memory : ∃ mem, f.session = some (id, mem) ∧ mem.preConsumedQuota = row.preConsumedQuota ∧
    mem.status ≠ .settled
  total : s.preConsumedQuota = row.preConsumedQuota
  get : db.sessions.get? id = some row
  opened : row.status.Open
  organization : ∃ org, db.organizations.get? row.organizationId = some org

theorem Served.settle {w : World} (h : Served w.toDB s f id row) : s.settle st env actual w =
      match f.settleWithTokenActual env actual w.toDB with
      | .error e => ⟨some e, s, w⟩ | .ok (f, db) =>
        ⟨none, { s with
          funding := .organization f
          tokenConsumed := f.tokenConsumed
          fundingSettled := true
          settled := true }, { w with toDB := db }⟩ := by
  obtain ⟨mem, hmem, hpre, -⟩ := h.memory
  have hactual : mem.preConsumedQuota + (actual - s.preConsumedQuota) = actual := by
    rw [hpre, h.total]
    omega
  have hsettle : f.settleWithToken env (actual - s.preConsumedQuota) w.toDB
      = f.settleWithTokenActual env actual w.toDB := by
    unfold OrganizationFunding.settleWithToken
    rw [if_neg (by simp [h.billing]), ensureSession_of_session hmem]
    show f.settleWithTokenActual env (mem.preConsumedQuota + (actual - s.preConsumedQuota)) w.toDB = _
    rw [hactual]
  unfold BillingSession.settle
  cases hresult : f.settleWithTokenActual env actual w.toDB with
  | error | ok => simp [h.funding, h.unsettled, hsettle, hresult]

theorem Served.settleWithTokenActual (h : Served db s f id row) (hactual : 0 ≤ actual) :
    f.settleWithTokenActual env actual db = f.settleTx env actual id db := by
  obtain ⟨mem, hmem, -, hst⟩ := h.memory
  have hvalid : validateOrganizationSettledQuota mem actual = .ok () := if_neg fun hset => hst hset.1
  unfold OrganizationFunding.settleWithTokenActual
  rw [if_neg (by simp [h.billing]), if_neg (by omega), ensureSession_of_session hmem]
  show (do let _ ← validateOrganizationSettledQuota mem actual; f.settleTx env actual id db) = _
  rw [hvalid]
  rfl

/-! ## Later runs of the repair worker -/

/-- The row `id` is settled as `row`, and no repair is about to refund it. -/
structure Kept (id : Nat) (row : OrganizationBillingSession) (σ : RepairState) : Prop where
  get : σ.db.sessions.get? id = some row
  unconfirmed : id ∉ σ.repairs.filterMap Repair.confirmedSession

theorem unconfirmed_set {repairs : List Repair} (h : id ∉ repairs.filterMap Repair.confirmedSession) {i : Nat}
    {r : Repair} (hr : r.confirmedSession ≠ some id) : id ∉ (repairs.set i r).filterMap Repair.confirmedSession := by
  intro hmem
  obtain ⟨r', hr', heq⟩ := List.mem_filterMap.mp hmem
  rcases List.mem_or_eq_of_mem_set hr' with hold | rfl
  · exact h (List.mem_filterMap.mpr ⟨r', hold, heq⟩)
  · exact hr heq

theorem Kept.step (h : Kept id row σ) (hsettled : row.status = .settled) (e : RepairEvent)
    (he : ¬ σ.ownerRefunds id e) : Kept id row (σ.step e) := by
  refine ⟨RepairState.step_settled h.unconfirmed he h.get hsettled, ?_⟩
  cases e with
  | request => exact h.unconfirmed
  | claim =>
    simp only [RepairState.step]
    split_ifs
    · simpa [Repair.confirmedSession] using h.unconfirmed
    · exact h.unconfirmed
  | confirm i =>
    simp only [RepairState.step]
    split
    · refine unconfirmed_set h.unconfirmed fun hconfirmed => ?_
      -- the re-read confirms a session only while it is not settled
      obtain ⟨t, ht, hst⟩ := confirmRepair_unsettled σ.db _ id hconfirmed
      obtain rfl : row = t := mem_unique h.get ht
      exact hst hsettled
    · exact h.unconfirmed
  | refund i =>
    simp only [RepairState.step]
    split
    · split
      · exact unconfirmed_set h.unconfirmed (by simp [Repair.confirmedSession])
      · exact unconfirmed_set h.unconfirmed (by simp [Repair.confirmedSession])
    · exact h.unconfirmed
  | markFailed i =>
    simp only [RepairState.step]
    split
    · exact unconfirmed_set h.unconfirmed (by simp [Repair.confirmedSession])
    · exact h.unconfirmed

theorem Kept.run (h : Kept id row σ) (hsettled : row.status = .settled)
    (hevents : Along RepairState.step (fun σ e => ¬ σ.ownerRefunds id e) σ events) :
    Kept id row (Transition.run RepairState.step σ events) :=
  run_invariant (fun _ e hkept he => hkept.step hsettled e he) h hevents

theorem replays_step (h : Replays σ.db) (e : RepairEvent) : Replays (σ.step e).db := by
  rcases σ.step_db e with hdb | ⟨op, hdb, -⟩
  · rw [hdb]
    exact h
  · rw [hdb]
    exact (h.ledger (op.effect σ.db)).1

theorem replays_run (h : Replays σ.db) : Replays (Transition.run RepairState.step σ events).db :=
  run_invariant' (I := fun σ : RepairState => Replays σ.db) (fun _ e h => replays_step h e) h events

/-- The repairs under way, and the database as a call of the session has left it. -/
def afterCall (σ : RepairState) (o : Outcome) : RepairState := { σ with db := o.world.toDB }

/-- **A served request that settles stays charged.** After any run of the ledger and of the repair worker, let
`Settle` be called with `actual > 0` for an open session on which no repair is about to make its refund. It
succeeds whenever the guards of the settlement hold, which for `actual` up to the hold ask nothing of the
organization and of the token's balance. Once it has succeeded, the session stays settled and the
organization stays charged `actual` for it through every later run of the worker. If it fails, it changes
nothing. -/
theorem served_request_charged (db : DB) (hsessions : ∀ i, db.sessions.get? i = none)
    (hrecords : ∀ i, db.records.get? i = none)
    (hused : ∀ o org, db.organizations.get? o = some org → 0 ≤ org.usedQuota) (before : List RepairEvent)
    (st : Settings) (env : Env) (w : World) (s : BillingSession) (f : OrganizationFunding) (id : Nat)
    (row : OrganizationBillingSession) (actual : Int)
    (hworld : w.toDB = (run RepairState.step { db } before).db) (hserved : Served w.toDB s f id row)
    (hwindow : id ∉ (run RepairState.step { db } before).repairs.filterMap Repair.confirmedSession)
    (hactual : 0 < actual) : (Settleable w.toDB id row f.relayInfo actual → (s.settle st env actual w).error = none) ∧
    ((s.settle st env actual w).error = none →
      ∀ after : List RepairEvent, Along RepairState.step (fun σ e => ¬ σ.ownerRefunds id e)
        (afterCall (run RepairState.step { db } before) (s.settle st env actual w)) after →
      ∃ row', (run RepairState.step (afterCall (run RepairState.step { db } before) (s.settle st env actual w))
          after).db.sessions.get? id = some row' ∧
        row'.status = .settled ∧ row'.settledQuota = actual ∧ min actual row.hold ≤ row'.hold ∧
        replayed (·.usedQuotaDelta) id (run RepairState.step
          (afterCall (run RepairState.step { db } before) (s.settle st env actual w)) after).db = actual) ∧
    ((s.settle st env actual w).error ≠ none →
      (s.settle st env actual w).session = s ∧ (s.settle st env actual w).world = w) := by
  have hreplays : Replays w.toDB := by
    rw [hworld]
    exact replays_run (.start hsessions hrecords hused)
  rw [hserved.settle]
  refine ⟨fun hsettle => ?_, ?_, ?_⟩
  · obtain ⟨_, horg⟩ := hserved.organization
    have htx : ∃ r, f.settleTx env actual id w.toDB = .ok r :=
      settleTx_succeeds hreplays hserved.get hserved.opened horg hsettle
    obtain ⟨r, hr⟩ := htx
    rw [hserved.settleWithTokenActual hactual.le, hr]
  · cases hok : f.settleWithTokenActual env actual w.toDB with
    | error => exact nofun
    | ok r =>
      obtain ⟨_, db'⟩ := r
      intro _ after hafter
      have htx := hok
      rw [hserved.settleWithTokenActual hactual.le] at htx
      have hreplays' : Replays db' := (hreplays.ledger (settleWithTokenActual_effect hok)).1
      obtain ⟨t, hget, ⟨-, hst, -⟩ | ⟨tokenDelta, -, -, hstep, -⟩⟩ := settleTx_ok htx
      · obtain rfl : row = t := mem_unique hserved.get hget
        exact absurd hst hserved.opened.1
      · have hstart : Kept id (t.settledAs env.now actual tokenDelta)
            { run RepairState.step { db } before with db := db' } := ⟨hstep.get_self, hwindow⟩
        have hkept := hstart.run rfl hafter
        have hhold : (t.settledAs env.now actual tokenDelta).hold = actual := rfl
        refine ⟨_, hkept.get, rfl, rfl, ?_, ?_⟩
        · exact min_le_left _ _
        · have hstart' : Replays { run RepairState.step { db } before with db := db' : RepairState }.db := hreplays'
          exact ((replays_run hstart').used id _ hkept.get).trans hhold
  · cases f.settleWithTokenActual env actual w.toDB with
    | error => exact fun _ => ⟨rfl, rfl⟩
    | ok => exact fun hne => absurd rfl hne

def servedRun : List RepairEvent :=
  [.request (.preConsumeWithToken (sampleEnv 10) { relayInfo := sampleRequest } 100)]

def servedWorld : World := { toDB := (run RepairState.step { db := sampleDB } servedRun).db }

/-- The lease of the session runs out, and a repair claims it and makes its refund. -/
def repairRun : List RepairEvent := [.claim 1 700, .confirm 0, .refund 0 (sampleEnv 702)]

def servedRow : OrganizationBillingSession where
  organizationId := 1
  idempotencyKey := "request:r1"
  requestId := "r1"
  preConsumedQuota := 100
  tokenPreConsumedQuota := 100
  tokenRemainDeductedQuota := 100
  tokenId := 1
  tokenName := "ci"
  responsibleUserId := 2
  lastHeartbeatAt := 10
  expiresAt := 610
  createdAt := 10
  updatedAt := 10

def servedFunding : OrganizationFunding where
  relayInfo := { sampleRequest with
    organizationBillingSessionId := 1, organizationBillingSessionKey := "request:r1" }
  session := some (1, servedRow)
  tokenConsumed := 100

def servedSession : BillingSession where
  relayInfo := servedFunding.relayInfo
  funding := .organization servedFunding
  preConsumedQuota := 100
  tokenConsumed := 100

theorem servedSession_served : Served servedWorld.toDB servedSession servedFunding 1 servedRow := by
  have hrow : servedWorld.sessions.get? 1 = some servedRow := by decide +kernel
  have horg : (servedWorld.organizations.get? 1).isSome = true := by decide +kernel
  exact ⟨rfl, by decide, rfl, ⟨servedRow, rfl, rfl, by decide⟩, rfl, hrow, ⟨by decide, by decide⟩,
    isSome_iff_exists.mp horg⟩

theorem settleable_sample : Settleable servedWorld.toDB 1 servedRow servedFunding.relayInfo 60 := by
  refine ⟨fun hup => absurd hup (by decide), .inr ?_⟩
  have hload : (loadTokenForQuotaTx true servedWorld.tokens
      (organizationBillingTokenQuotaRelayInfo 1 servedRow servedFunding.relayInfo)).toOption.isSome = true := by
      decide +kernel
  obtain ⟨⟨relayInfo', token?⟩, hok⟩ := isSome_iff_exists.mp hload
  exact ⟨relayInfo', token?, toOption_eq_some.mp hok, fun _ _ hup => absurd hup (by decide)⟩

theorem served_request_charged_sample :
    (servedSession.settle {} (sampleEnv 20) 60 servedWorld).error = none ∧
    ∃ row', (run RepairState.step (afterCall (run RepairState.step { db := sampleDB } servedRun)
        (servedSession.settle {} (sampleEnv 20) 60 servedWorld)) repairRun).db.sessions.get? 1 = some row' ∧
      row'.status = .settled ∧ row'.settledQuota = 60 ∧ min 60 servedRow.hold ≤ row'.hold ∧
      replayed (·.usedQuotaDelta) 1 (run RepairState.step (afterCall
        (run RepairState.step { db := sampleDB } servedRun)
        (servedSession.settle {} (sampleEnv 20) 60 servedWorld)) repairRun).db = 60 := by
  obtain ⟨hsettles, hkeeps, -⟩ := served_request_charged sampleDB (fun _ => rfl) (fun _ => rfl) usedQuota_sampleDB
    servedRun {} (sampleEnv 20) servedWorld servedSession servedFunding 1 servedRow 60 rfl servedSession_served
    (by decide +kernel) (by decide)
  exact ⟨hsettles settleable_sample, hkeeps (hsettles settleable_sample) repairRun (by decide +kernel)⟩

/-- The organization has no room for `2000`: the settlement is refused, and the repair worker later gives the
`100` back, so that the request was served for nothing. -/
theorem refused_settlement_is_refunded :
    ¬ ∀ (before after : List RepairEvent) (st : Settings) (env : Env) (w : World) (s : BillingSession)
      (f : OrganizationFunding) (id : Nat) (row row' : OrganizationBillingSession) (actual : Int),
      w.toDB = (run RepairState.step { db := sampleDB } before).db → Served w.toDB s f id row → 0 < actual →
      Along RepairState.step (fun σ e => ¬ σ.ownerRefunds id e)
        (afterCall (run RepairState.step { db := sampleDB } before) (s.settle st env actual w)) after →
      (run RepairState.step (afterCall (run RepairState.step { db := sampleDB } before)
        (s.settle st env actual w)) after).db.sessions.get? id = some row' →
      row'.status = .settled ∨ row'.status = .refunded → min actual row.hold ≤ row'.hold := by
  intro h
  have hfinal : ((run RepairState.step (afterCall (run RepairState.step { db := sampleDB } servedRun)
      (servedSession.settle {} (sampleEnv 20) 2000 servedWorld)) repairRun).db.sessions.get? 1).map
      (fun r => (r.status, r.hold)) = some (.refunded, 0) := by decide +kernel
  obtain ⟨row', hrow', heq⟩ := map_eq_some_iff.mp hfinal
  have hle := h servedRun repairRun {} (sampleEnv 20) servedWorld servedSession servedFunding 1 servedRow row' 2000
    rfl servedSession_served (by decide) (by decide +kernel) hrow' (.inr (congrArg Prod.fst heq))
  have hzero : row'.hold = 0 := congrArg Prod.snd heq
  rw [hzero] at hle
  exact absurd hle (by decide)

end CubeRouter.Billing
