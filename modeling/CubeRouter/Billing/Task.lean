import CubeRouter.Billing.OrganizationSession
import CubeRouter.Billing.PostConsume

/-!
# Asynchronous tasks

A task is charged twice: at submission (`executeTaskSubmissionWith` of `controller/relay.go`, with
`RelayTaskSubmit` of `relay/relay_task.go`) with the price known then, and at completion
(`RecalculateTaskQuota` of `service/task_billing.go`) with its final cost. At completion the request is
gone; what billing needs of it is stored on the task.

For an organization the completion settles the task's ledger session a second time, and the ledger
answers a second settlement with another amount by a conflict: the final cost is booked only when it is
the price of the submission (`taskCharged_iff`).
-/

namespace CubeRouter.Billing

open Relational Transition Ledger

/-- A row of `tasks` as far as billing reads it. `billingSource`, `subscriptionId` and `privateTokenId`
are kept in `PrivateData`. -/
structure Task where
  userId : Nat := 0
  group : String := ""
  channelId : Nat := 0
  quota : Int := 0
  tokenId : Nat := 0
  tokenKey : String := ""
  tokenUnlimited : Bool := false
  requestId : String := ""
  scopeType : ScopeType := .unset
  scopeId : Nat := 0
  billingAccountType : ScopeType := .unset
  billingAccountId : Nat := 0
  organizationId : Nat := 0
  creatorUserId : Nat := 0
  responsibleUserId : Nat := 0
  organizationBillingSessionId : Nat := 0
  organizationBillingSessionKey : String := ""
  billingSource : BillingSource := .unset
  subscriptionId : Nat := 0
  privateTokenId : Nat := 0

structure TaskWorld extends World where
  tasks : Table Task := .empty

/-! ## The billing scope of a task -/

def orDefault (id other : Nat) : Nat := if id = 0 then other else id

/-- `ScopeType == personal`: missing ids become the user's. -/
def Task.personalScope (task : Task) : Task :=
  { task with
    scopeId := orDefault task.scopeId task.userId
    billingAccountId := orDefault task.billingAccountId task.userId
    creatorUserId := orDefault task.creatorUserId task.userId
    responsibleUserId := orDefault task.responsibleUserId task.userId }

/-- `ScopeType == organization`: missing ids become the organization's. -/
def Task.organizationScope (task : Task) : Task :=
  let task := { task with
    scopeId := orDefault task.scopeId task.organizationId
    billingAccountId := orDefault task.billingAccountId task.organizationId }
  { task with organizationId := orDefault task.organizationId task.scopeId }

def ScopeType.orPersonal (scope : ScopeType) : ScopeType := if scope = .unset then .personal else scope

def normalizeTaskBillingScope (task : Task) : Task :=
  let task := { task with
    scopeType := ScopeType.orPersonal task.scopeType
    billingAccountType := ScopeType.orPersonal task.billingAccountType }
  match task.scopeType with
  | .personal => task.personalScope
  | .organization => task.organizationScope
  | .unset => task

/-- `InitTask`, with the billing part of `PrivateData` that the controller adds. -/
def initTask (relayInfo : RelayInfo) (quota : Int) : Task :=
  { normalizeTaskBillingScope
      { userId := relayInfo.userId
        group := relayInfo.usingGroup
        channelId := relayInfo.channelId
        tokenId := relayInfo.tokenId
        tokenKey := relayInfo.tokenKey
        tokenUnlimited := relayInfo.tokenUnlimited
        requestId := relayInfo.requestId
        scopeType := relayInfo.scopeType
        scopeId := relayInfo.scopeId
        billingAccountType := relayInfo.billingAccountType
        billingAccountId := relayInfo.billingAccountId
        organizationId := relayInfo.organizationId
        creatorUserId := relayInfo.creatorUserId
        responsibleUserId := relayInfo.responsibleUserId
        organizationBillingSessionId := relayInfo.organizationBillingSessionId
        organizationBillingSessionKey := relayInfo.organizationBillingSessionKey } with
    quota
    billingSource := relayInfo.billingSource
    subscriptionId := relayInfo.subscriptionId
    privateTokenId := relayInfo.tokenId }

/-- The request as far as the task remembers it; the task is normalized in place first. -/
def taskBillingRelayInfo (task : Task) : RelayInfo :=
  let task := normalizeTaskBillingScope task
  { userId := task.userId
    tokenId := task.tokenId
    tokenKey := task.tokenKey
    tokenUnlimited := task.tokenUnlimited
    usingGroup := task.group
    requestId := task.requestId
    channelId := task.channelId
    scopeType := task.scopeType
    scopeId := task.scopeId
    billingAccountType := task.billingAccountType
    billingAccountId := task.billingAccountId
    organizationId := task.organizationId
    creatorUserId := task.creatorUserId
    responsibleUserId := task.responsibleUserId
    organizationBillingSessionId := task.organizationBillingSessionId
    organizationBillingSessionKey := task.organizationBillingSessionKey }

/-! ## Submission -/

inductive Upstream
  | failed (willRetry : Bool)
  | cancelled
  | accepted (quota : Int)

/-- One round of the retry loop: it ends the loop before anything is sent (no channel, no body, request
cancelled), it is rejected before billing, or it is priced and sent. `retryRefusal` says whether a
refused pre-consumption is retried. -/
inductive TaskAttempt
  | stopped
  | rejected (channelId : Nat) (willRetry : Bool)
  | priced (channelId : Nat) (env : Env) (answers : OpenAnswers) (tokenQuota quota : Int)
      (freeModel retryRefusal : Bool) (upstream : Upstream)

/-- `InitChannelMeta`: the request and its session see the channel of the attempt. -/
def FundingSource.onChannel (channelId : Nat) : FundingSource → FundingSource
  | .organization f => .organization { f with relayInfo := { f.relayInfo with channelId } }
  | funding => funding

def BillingSession.onChannel (channelId : Nat) (s : BillingSession) : BillingSession :=
  { s with relayInfo := { s.relayInfo with channelId }, funding := s.funding.onChannel channelId }

def Request.onChannel (r : Request) (channelId : Nat) : Request :=
  ⟨{ r.relayInfo with channelId }, r.billing.map (BillingSession.onChannel channelId)⟩

/-- Step 7 of `RelayTaskSubmit`: only the first attempt that gets here pre-consumes. -/
def preConsumeTask (st : Settings) (env : Env) (answers : OpenAnswers) (tokenQuota quota : Int)
    (freeModel : Bool) (r : Request) (w : World) : Except BillingError Request × World :=
  if r.billing.isNone && !freeModel then
    preConsumeBilling st env answers tokenQuota quota
      { r with relayInfo := { r.relayInfo with forcePreConsume := true } } w
  else
    (.ok r, w)

/-- The retry loop; `none` when no attempt was accepted. -/
def submitTask (st : Settings) : Request → World → List TaskAttempt → Request × World × Option Int
  | r, w, [] => (r, w, none)
  | r, w, .stopped :: _ => (r, w, none)
  | r, w, .rejected channelId willRetry :: rest =>
    let r := r.onChannel channelId
    if willRetry then submitTask st r w rest else (r, w, none)
  | r, w, .priced channelId env answers tokenQuota quota freeModel retryRefusal upstream :: rest =>
    let r := r.onChannel channelId
    match preConsumeTask st env answers tokenQuota quota freeModel r w with
    | (.error _, w) => if retryRefusal then submitTask st r w rest else (r, w, none)
    | (.ok r, w) =>
      match upstream with
      | .accepted finalQuota => (r, w, some finalQuota)
      | .cancelled => (r, w, none)
      | .failed willRetry => if willRetry then submitTask st r w rest else (r, w, none)

/-- What happens around the billing calls of one submission: the attempts, and whether the request is
cancelled or the insert fails after them. -/
structure Submission where
  attempts : List TaskAttempt
  cancelledBeforeReserve : Bool := false
  reserveEnv : Env
  reserveAnswer : CacheAnswer := .ok
  cancelledBeforeInsert : Bool := false
  insertFails : Bool := false
  settleEnv : Env

/-- The deferred refund of a submission that is not durable. -/
def Request.refund (st : Settings) (env : Env) (r : Request) (w : World) : Request × World :=
  match r.billing with
  | some s =>
    let (s, w) := s.refund st env w
    (.withBilling s, w)
  | none => (r, w)

def Request.reserve (st : Settings) (env : Env) (answer : CacheAnswer) (quota : Int) (r : Request)
    (w : World) : Option BillingError × Request × World :=
  match r.billing with
  | some s =>
    let o := s.reserve st env answer quota w
    (o.error, .withBilling o.session, o.world)
  | none => (none, r, w)

def logTaskConsumption (st : Settings) (relayInfo : RelayInfo) (quota : Int) (w : World) : World :=
  let w :=
    if isOrganizationBilling relayInfo then w
    else updateUserUsedQuotaAndRequestCount st w relayInfo.userId quota
  updateChannelUsedQuota st w relayInfo.channelId quota

/-- A submission that was stored and paid: the task with its row. -/
structure Submitted where
  taskId : Nat
  task : Task
  request : Request
  world : TaskWorld

def TaskWorld.insertTask (w : TaskWorld) (task : Task) : TaskWorld :=
  { w with tasks := w.tasks.insert task }

/-- From the insert on the task is durable: a failing settlement is reported and nothing is refunded. -/
def settleSubmission (st : Settings) (sub : Submission) (quota : Int) (r : Request) (w : TaskWorld) :
    Except TaskWorld Submitted :=
  let task := initTask r.relayInfo quota
  let taskId := w.tasks.next
  let w := w.insertTask task
  let o := settleBilling st sub.settleEnv quota r w.toWorld
  match o.error with
  | some _ => .error { w with toWorld := o.world }
  | none =>
    .ok ⟨taskId, task, o.request,
      { w with toWorld := logTaskConsumption st o.request.relayInfo quota o.world }⟩

/-- `.error` carries the database a failed submission leaves. -/
def executeTaskSubmissionWith (st : Settings) (sub : Submission) (r : Request) (w : TaskWorld) :
    Except TaskWorld Submitted :=
  let undo (r : Request) (world : World) : Except TaskWorld Submitted :=
    .error { w with toWorld := (r.refund st sub.settleEnv world).2 }
  match submitTask st r w.toWorld sub.attempts with
  | (r, world, none) => undo r world
  | (r, world, some quota) =>
    if sub.cancelledBeforeReserve then undo r world
    else
      match r.reserve st sub.reserveEnv sub.reserveAnswer quota world with
      | (some _, r, world) => undo r world
      | (none, r, world) =>
        if sub.cancelledBeforeInsert ∨ sub.insertFails then undo r world
        else settleSubmission st sub quota r { w with toWorld := world }

/-! ## Completion -/

structure AsyncSettled where
  handled : Bool
  error : Option BillingError := none
  task : Task
  db : DB

def settleAsyncTaskOrganizationQuota (env : Env) (task : Task) (actualQuota : Int) (db : DB) :
    AsyncSettled :=
  if task.organizationBillingSessionId = 0 then
    { handled := false, task, db }
  else
    let relayInfo := taskBillingRelayInfo task
    let task := normalizeTaskBillingScope task
    if !isOrganizationBilling relayInfo || actualQuota < 0 then
      { handled := false, task, db }
    else
      match OrganizationFunding.settleWithTokenActual { relayInfo } env actualQuota db with
      | .error e => { handled := true, error := some e, task, db }
      | .ok (_, db) => { handled := true, task := { task with quota := actualQuota }, db }

def taskIsSubscription (task : Task) : Bool :=
  task.billingSource = .subscription ∧ 0 < task.subscriptionId

def taskAdjustFunding (st : Settings) (task : Task) (delta : Int) (w : World) : Except BillingError World :=
  if taskIsSubscription task then postConsumeUserSubscriptionDelta w task.subscriptionId delta
  else if 0 < delta then decreaseUserQuota st w task.userId delta
  else increaseUserQuota st w task.userId (-delta)

/-- The key of a token that is not deleted; empty when there is none. -/
def resolveTokenKey (w : World) (tokenId : Nat) : String :=
  (w.liveToken tokenId).elim "" fun token => token.key

/-- A token that is gone is skipped, and an error is only logged. -/
def taskAdjustTokenQuota (st : Settings) (env : Env) (task : Task) (delta : Int) (w : World) : World :=
  if task.privateTokenId = 0 ∨ delta = 0 then w
  else if resolveTokenKey w task.privateTokenId = "" then w
  else if 0 < delta then
    (decreaseTokenQuota st w env.now task.privateTokenId delta).toOption.getD w
  else (increaseTokenQuota st w env.now task.privateTokenId (-delta)).toOption.getD w

/-- The difference of a task that has no ledger session. An organization's is charged at once. -/
def adjustTask (st : Settings) (env : Env) (task : Task) (delta : Int) (w : World) :
    Except BillingError World :=
  if isOrganizationBilling (taskBillingRelayInfo task) then
    let p := postConsumeQuotaWithResultCount st env (taskBillingRelayInfo task) delta false w
    match p.error with
    | some e => .error e
    | none => .ok p.world
  else do
    let w ← taskAdjustFunding st task delta w
    .ok (updateUserUsedQuota st (taskAdjustTokenQuota st env task delta w) task.userId delta)

def TaskWorld.updateQuota (w : TaskWorld) (taskId : Nat) (quota : Int) : TaskWorld :=
  { w with tasks := w.tasks.modify taskId fun t => { t with quota } }

/-- The task in memory and the database after the recalculation; errors are only logged. -/
def recalculateTaskQuota (st : Settings) (env : Env) (taskId : Nat) (task : Task) (actualQuota : Int)
    (w : TaskWorld) : Task × TaskWorld :=
  if actualQuota < 0 then
    (task, w)
  else
    let r := settleAsyncTaskOrganizationQuota env task actualQuota w.toDB
    let task := r.task
    if r.handled then
      match r.error with
      | some _ => (task, w)
      | none =>
        let w : TaskWorld := { w with toWorld := { w.toWorld with toDB := r.db } }
        (task, w.updateQuota taskId task.quota)
    else
      let quotaDelta := actualQuota - task.quota
      if quotaDelta = 0 then
        (task, w)
      else
        match adjustTask st env task quotaDelta w.toWorld with
        | .error _ => (normalizeTaskBillingScope task, w)
        | .ok world =>
          let task := normalizeTaskBillingScope task
          let w := ({ w with toWorld := world }).updateQuota taskId actualQuota
          ({ task with quota := actualQuota },
            { w with toWorld := updateChannelUsedQuota st w.toWorld task.channelId quotaDelta })

/-! ## A submission of an organization -/

variable {task : Task}

theorem isOrganizationBilling_taskBillingRelayInfo (htype : task.billingAccountType = .organization)
    (hid : 0 < task.billingAccountId) : isOrganizationBilling (taskBillingRelayInfo task) = true := by
  have hne : task.billingAccountId ≠ 0 := by omega
  unfold taskBillingRelayInfo normalizeTaskBillingScope ScopeType.orPersonal
  cases task.scopeType <;>
    simp [isOrganizationBilling, Task.personalScope, Task.organizationScope, orDefault, htype, hne, hid]

@[simp] theorem normalizeTaskBillingScope_quota (task : Task) :
    (normalizeTaskBillingScope task).quota = task.quota := by
  unfold normalizeTaskBillingScope ScopeType.orPersonal
  cases task.scopeType <;> rfl

@[simp] theorem normalizeTaskBillingScope_sessionId :
    (normalizeTaskBillingScope task).organizationBillingSessionId = task.organizationBillingSessionId := by
  unfold normalizeTaskBillingScope ScopeType.orPersonal
  cases task.scopeType <;> rfl

theorem normalizeTaskBillingScope_account (htype : task.billingAccountType = .organization)
    (hid : 0 < task.billingAccountId) : (normalizeTaskBillingScope task).billingAccountType = .organization ∧
      0 < (normalizeTaskBillingScope task).billingAccountId := by
  have hne : task.billingAccountId ≠ 0 := by omega
  unfold normalizeTaskBillingScope ScopeType.orPersonal
  cases task.scopeType <;>
    simp [Task.personalScope, Task.organizationScope, orDefault, htype, hne, hid]

section Submit

variable {st : Settings} {w₀ : World} {relayInfo₀ : RelayInfo} {org : Organization}

/-- The request has not been billed yet: it differs from the original one in its channel only. -/
def Unbilled (relayInfo₀ : RelayInfo) (r : Request) : Prop :=
  r.billing = none ∧ ∃ channelId, r.relayInfo = { relayInfo₀ with channelId }

/-- The request has an open session with no gap, and `P` holds of the session's row. -/
def Billed (w₀ : World) (relayInfo₀ : RelayInfo) (org : Organization)
    (P : OrganizationBillingSession → Prop) (r : Request) (w : World) : Prop :=
  ∃ s f row, r.billing = some s ∧ r.relayInfo = s.relayInfo ∧
    Open w₀.sessions.next relayInfo₀.billingAccountId org.usedQuota (limitedToken w₀ relayInfo₀) ⟨s, w⟩ f
      row ∧ gap ⟨s, w⟩ row = 0 ∧ P row

variable {r : Request} {w : World} {env : Env} {q : Int}

theorem Unbilled.onChannel (h : Unbilled relayInfo₀ r) (channelId : Nat) :
    Unbilled relayInfo₀ (r.onChannel channelId) := by
  obtain ⟨hnone, c, hr⟩ := h
  refine ⟨?_, channelId, ?_⟩
  · simp [Request.onChannel, hnone]
  · simp [Request.onChannel, hr]

variable {P : OrganizationBillingSession → Prop} {answers : OpenAnswers} {tokenQuota quota : Int} {r' : Request}
  {w' : World} {relayInfo : RelayInfo}

theorem Billed.onChannel (h : Billed w₀ relayInfo₀ org P r w) (channelId : Nat) :
    Billed w₀ relayInfo₀ org P (r.onChannel channelId) w := by
  obtain ⟨s, f, row, hs, hr, hopen, hgap, hP⟩ := h
  refine ⟨s.onChannel channelId, { f with relayInfo := { f.relayInfo with channelId } }, row, ?_, ?_,
    ⟨?_, hopen.memory, hopen.billing, hopen.request, hopen.get, hopen.organizationId, hopen.unsettled,
      hopen.unrefunded, hopen.flags, hopen.nonneg, hopen.used, hopen.token⟩, hgap, hP⟩
  · simp [Request.onChannel, hs]
  · simp [Request.onChannel, BillingSession.onChannel, hr]
  · have hfunding : s.funding = .organization f := hopen.funding
    simp [BillingSession.onChannel, FundingSource.onChannel, hfunding]

/-- What the theorems about a submission assume of the original request: it is billed to an existing
organization under a key that no ledger session has yet. -/
structure OrganizationRequest (w₀ : World) (relayInfo₀ : RelayInfo) (org : Organization) : Prop where
  billing : isOrganizationBilling relayInfo₀ = true
  fresh : ∀ identity, organizationBillingSessionIdentity relayInfo₀ = .ok identity →
    findSession w₀.toDB identity.key = none
  get : w₀.organizations.get? relayInfo₀.billingAccountId = some org
  used : 0 ≤ org.usedQuota

theorem preConsumeTask_unbilled (h₀ : OrganizationRequest w₀ relayInfo₀ org) (h : Unbilled relayInfo₀ r) :
    (∃ e, preConsumeTask st env answers tokenQuota quota false r w₀ = (.error e, w₀)) ∨
      ∃ r' w', preConsumeTask st env answers tokenQuota quota false r w₀ = (.ok r', w') ∧
        Billed w₀ relayInfo₀ org (fun row => row.status = .preConsumed) r' w' := by
  obtain ⟨hnone, channelId, hr⟩ := h
  have hstart : preConsumeTask st env answers tokenQuota quota false r w₀ =
      preConsumeBilling st env answers tokenQuota quota
        { r with relayInfo := { relayInfo₀ with channelId, forcePreConsume := true } } w₀ := by
    unfold preConsumeTask
    rw [if_pos (by simp [hnone]), hr]
  rw [hstart]
  have h1 : OrganizationRequest w₀ { relayInfo₀ with channelId, forcePreConsume := true } org :=
    ⟨h₀.billing, h₀.fresh, h₀.get, h₀.used⟩
  have hopened := preConsumeBilling_organization st env answers tokenQuota quota
    { r with relayInfo := { relayInfo₀ with channelId, forcePreConsume := true } } w₀ h1.billing
  rcases hopened with ⟨e, he⟩ | ⟨s, w', hs, hr'⟩
  · exact .inl ⟨e, he⟩
  · have hcreated := Open.created h1.billing h1.fresh h1.get h1.used (congrArg Outcome.error hs)
    simp only [hs] at hcreated
    obtain ⟨f, row, hopen, hgap, hstatus⟩ := hcreated
    exact .inr ⟨_, w', hr', s, f, row, rfl, rfl, hopen, hgap, hstatus⟩

theorem preConsumeTask_billed {freeModel : Bool} (h : Billed w₀ relayInfo₀ org P r w) :
    preConsumeTask st env answers tokenQuota quota freeModel r w = (.ok r, w) := by
  obtain ⟨s, -, -, hs, -⟩ := h
  unfold preConsumeTask
  rw [if_neg (by simp [hs])]

/-- The attempt is not for a free model, which would leave the submission without a session. -/
def TaskAttempt.notFree : TaskAttempt → Prop
  | .priced _ _ _ _ _ freeModel _ _ => freeModel = false
  | .stopped | .rejected .. => True

theorem submitTask_billed (h₀ : OrganizationRequest w₀ relayInfo₀ org) {attempts : List TaskAttempt}
    (hfree : ∀ a ∈ attempts, a.notFree)
    (h : (Unbilled relayInfo₀ r ∧ w = w₀) ∨ Billed w₀ relayInfo₀ org (fun row => row.status = .preConsumed) r w)
    (hq : submitTask st r w attempts = (r', w', some q)) :
    Billed w₀ relayInfo₀ org (fun row => row.status = .preConsumed) r' w' := by
  induction attempts generalizing r w with
  | nil => cases hq
  | cons a rest ih =>
    have hrest : ∀ a ∈ rest, a.notFree := fun b hb => hfree b (List.mem_cons_of_mem _ hb)
    have ha : a.notFree := hfree a List.mem_cons_self
    cases a with
    | stopped => cases hq
    | rejected channelId =>
      have hchannel : (Unbilled relayInfo₀ (r.onChannel channelId) ∧ w = w₀) ∨
          Billed w₀ relayInfo₀ org (fun row => row.status = .preConsumed) (r.onChannel channelId) w :=
        h.imp (fun hu => ⟨hu.1.onChannel channelId, hu.2⟩) (fun hb => hb.onChannel channelId)
      simp only [submitTask] at hq
      split at hq
      · exact ih hrest hchannel hq
      · cases hq
    | priced channelId env answers tokenQuota quota freeModel _ upstream =>
      obtain rfl : freeModel = false := ha
      -- after the pre-consumption the session is open, or nothing has happened
      have hpre : (∃ e, preConsumeTask st env answers tokenQuota quota false (r.onChannel channelId) w =
            (.error e, w) ∧ Unbilled relayInfo₀ (r.onChannel channelId) ∧ w = w₀) ∨
          ∃ r1 w₁, preConsumeTask st env answers tokenQuota quota false (r.onChannel channelId) w =
            (.ok r1, w₁) ∧ Billed w₀ relayInfo₀ org (fun row => row.status = .preConsumed) r1 w₁ := by
        rcases h with ⟨hu, rfl⟩ | hb
        · rcases preConsumeTask_unbilled h₀ (hu.onChannel channelId) with ⟨e, he⟩ | hok
          · exact .inl ⟨e, he, hu.onChannel channelId, rfl⟩
          · exact .inr hok
        · exact .inr ⟨_, w, preConsumeTask_billed (hb.onChannel channelId), hb.onChannel channelId⟩
      simp only [submitTask] at hq
      rcases hpre with ⟨e, he, hu, rfl⟩ | ⟨_, _, hr1, hb⟩
      · rw [he] at hq
        simp only at hq
        split at hq
        · exact ih hrest (.inl ⟨hu, rfl⟩) hq
        · cases hq
      · rw [hr1] at hq
        cases upstream with
        | failed =>
          simp only at hq
          split at hq
          · exact ih hrest (.inr hb) hq
          · cases hq
        | cancelled => cases hq
        | accepted =>
          cases hq
          exact hb

theorem Billed.reserve (h₀ : OrganizationRequest w₀ relayInfo₀ org) {answer : CacheAnswer}
    (h : Billed w₀ relayInfo₀ org (fun row => row.status = .preConsumed) r w)
    (hr : r.reserve st env answer q w = (none, r', w')) : Billed w₀ relayInfo₀ org (fun _ => True) r' w' := by
  obtain ⟨s, f, _, hs, -, hopen, hgap, hstatus⟩ := h
  obtain ⟨f', row', hopen', hkeep, -⟩ := hopen.step st h₀.used (.reserve env answer q)
  have hfree : Live.notUnderRepair ⟨s, w⟩ (.reserve env answer q) := by
    simp [Live.notUnderRepair, hopen.rowStatus, hstatus]
  unfold Request.reserve at hr
  rw [hs] at hr
  simp only [Prod.mk.injEq] at hr
  obtain ⟨-, rfl, rfl⟩ := hr
  exact ⟨_, f', row', rfl, rfl, hopen', (hkeep hfree).trans hgap, trivial⟩

theorem initTask_account (h : isOrganizationBilling relayInfo = true) :
    (initTask relayInfo q).billingAccountType = .organization ∧ 0 < (initTask relayInfo q).billingAccountId := by
  have hparts : relayInfo.billingAccountType = .organization ∧ 0 < relayInfo.billingAccountId := by
    simpa [isOrganizationBilling] using h
  exact normalizeTaskBillingScope_account hparts.1 hparts.2

theorem initTask_sessionId (relayInfo : RelayInfo) (q : Int) :
    (initTask relayInfo q).organizationBillingSessionId = relayInfo.organizationBillingSessionId :=
  normalizeTaskBillingScope_sessionId

theorem logTaskConsumption_frame : (logTaskConsumption st relayInfo q w).sessions = w.sessions ∧
      (logTaskConsumption st relayInfo q w).organizations = w.organizations ∧
      (logTaskConsumption st relayInfo q w).tokens = w.tokens := by
  unfold logTaskConsumption updateUserUsedQuotaAndRequestCount updateUserUsedQuota updateChannelUsedQuota
  split_ifs <;> exact ⟨rfl, rfl, rfl⟩

/-- A submission that went through: the task names its ledger session, which is settled with the task's
quota, and organization and limited token have paid that much. -/
structure SubmittedAs (w₀ : World) (relayInfo₀ : RelayInfo) (org : Organization) (out : Submitted) :
    Prop where
  account : out.task.billingAccountType = .organization ∧ 0 < out.task.billingAccountId
  sessionId : 0 < out.task.organizationBillingSessionId
  settled : ∃ row, out.world.sessions.get? out.task.organizationBillingSessionId = some row ∧
    row.status = .settled ∧ row.settledQuota = out.task.quota
  organization : ∃ org', out.world.organizations.get? relayInfo₀.billingAccountId = some org' ∧
    org'.usedQuota = org.usedQuota + out.task.quota
  token : ∀ t ∈ limitedToken w₀ relayInfo₀,
    remainOf out.world.tokens t.1 = some (t.2 - out.task.quota)

theorem settleSubmission_charged (h₀ : OrganizationRequest w₀ relayInfo₀ org) {sub : Submission} {w : TaskWorld}
    {out : Submitted} (h : Billed w₀ relayInfo₀ org (fun _ => True) r w.toWorld)
    (hout : settleSubmission st sub q r w = .ok out) : SubmittedAs w₀ relayInfo₀ org out := by
  obtain ⟨s, f, _, hs, hr, hopen, hgap, -⟩ := h
  unfold settleSubmission settleBilling at hout
  simp only [hs] at hout
  split at hout
  · cases hout
  · rename_i hok
    have hcharge := hopen.settle h₀.used hok
    simp only [hgap, sub_zero] at hcharge
    obtain ⟨⟨row', hrow', hstatus, hquota⟩, horg, htoken⟩ := hcharge
    obtain ⟨hsessions, horganizations, htokens⟩ := logTaskConsumption_frame
    have hid : (initTask r.relayInfo q).organizationBillingSessionId = w₀.sessions.next := by
      rw [initTask_sessionId, hr]
      exact hopen.request.2
    cases hout
    refine ⟨initTask_account (hr ▸ hopen.request.1), ?_, ⟨row', ?_, hstatus, hquota⟩, ?_, fun t ht => ?_⟩
    · rw [hid]
      exact w₀.sessions.next_pos
    · rw [hid]
      exact (congrArg (fun t => t.get? w₀.sessions.next) hsessions).trans hrow'
    · obtain ⟨org', hget, hused⟩ := horg
      exact ⟨org', (congrArg (fun t => t.get? relayInfo₀.billingAccountId) horganizations).trans hget, hused⟩
    · exact (congrArg (fun t => remainOf t _) htokens).trans (htoken t ht)

theorem executeTaskSubmissionWith_charged {w : TaskWorld}
    (h₀ : OrganizationRequest w.toWorld relayInfo₀ org) {sub : Submission}
    (hfree : ∀ a ∈ sub.attempts, a.notFree) {out : Submitted}
    (hout : executeTaskSubmissionWith st sub { relayInfo := relayInfo₀ } w = .ok out) :
    SubmittedAs w.toWorld relayInfo₀ org out := by
  unfold executeTaskSubmissionWith at hout
  split at hout
  · cases hout
  · rename_i r world q hsubmit
    have hbilled := submitTask_billed h₀ hfree (.inl ⟨⟨rfl, _, rfl⟩, rfl⟩) hsubmit
    split at hout
    · cases hout
    · split at hout
      · cases hout
      · rename_i r' world' hreserve
        have hreserved := hbilled.reserve h₀ hreserve
        split at hout
        · cases hout
        · exact settleSubmission_charged h₀ hreserved hout

end Submit

/-! ## The final charge -/

/-- A settled session is never settled again: the recalculation leaves the task's quota and every balance
as they are, whatever the final cost. -/
theorem recalculateTaskQuota_settled {st : Settings} {env : Env} {taskId : Nat} {actual : Int} {w : TaskWorld}
    {row : OrganizationBillingSession} (hbill : isOrganizationBilling (taskBillingRelayInfo task) = true)
    (hid : 0 < task.organizationBillingSessionId) (hactual : 0 ≤ actual)
    (hget : w.sessions.get? task.organizationBillingSessionId = some row) (hstatus : row.status = .settled)
    (hquota : row.settledQuota = task.quota) : (recalculateTaskQuota st env taskId task actual w).1.quota = task.quota ∧
      (recalculateTaskQuota st env taskId task actual w).2.toWorld = w.toWorld := by
  have hsettle : settleAsyncTaskOrganizationQuota env task actual w.toDB =
      match OrganizationFunding.settleWithTokenActual { relayInfo := taskBillingRelayInfo task } env actual
        w.toDB with
      | .error e => { handled := true, error := some e, task := normalizeTaskBillingScope task, db := w.toDB }
      | .ok (_, db) =>
        { handled := true, task := { normalizeTaskBillingScope task with quota := actual }, db } := by
    unfold settleAsyncTaskOrganizationQuota
    rw [if_neg (by omega)]
    simp [hbill, if_neg (not_lt.mpr hactual)]
  unfold recalculateTaskQuota
  simp only [if_neg (not_lt.mpr hactual), hsettle]
  cases hres : OrganizationFunding.settleWithTokenActual { relayInfo := taskBillingRelayInfo task } env
      actual w.toDB with
  | error e => simp
  | ok p =>
    obtain ⟨_, _⟩ := p
    rcases settleWithTokenActual_ok hres with ⟨hno, -, -⟩ | ⟨-, _, id, s, hensure, htx⟩
    · rw [hbill] at hno
      cases hno
    · -- the session found is the task's own, and it is settled
      obtain ⟨-, -, hfound⟩ := ensureSession_ok hensure
      rcases hfound with hmem | ⟨-, -, hsame⟩
      · cases hmem
      · have hsid : (taskBillingRelayInfo task).organizationBillingSessionId =
            task.organizationBillingSessionId := normalizeTaskBillingScope_sessionId
        have hid' : id = task.organizationBillingSessionId := (hsame (by rw [hsid]; exact hid)).trans hsid
        obtain ⟨_, hs', hcase⟩ := settleTx_ok htx
        rw [hid', hget] at hs'
        cases hs'
        rcases hcase with ⟨rfl, -, hamount, -⟩ | ⟨-, hne, -⟩
        · exact ⟨hamount.symm.trans hquota, rfl⟩
        · exact absurd hstatus hne

def World.remainQuota (w : World) (id : Nat) : Int := (remainOf w.tokens id).getD 0

/-- The task is charged `actual` in all: it says so, and what the submission (`w₀` to `w₁`) and the
completion (`w₂` to `w₃`) took from the organization and from the limited token adds up to it. -/
structure TaskCharged (w₀ w₁ w₂ w₃ : World) (relayInfo : RelayInfo) (task : Task) (actual : Int) :
    Prop where
  quota : task.quota = actual
  organization : (w₁.organizationUsed relayInfo.billingAccountId -
      w₀.organizationUsed relayInfo.billingAccountId) +
    (w₃.organizationUsed relayInfo.billingAccountId -
      w₂.organizationUsed relayInfo.billingAccountId) = actual
  token : ∀ t ∈ limitedToken w₀ relayInfo,
    (w₀.remainQuota t.1 - w₁.remainQuota t.1) + (w₂.remainQuota t.1 - w₃.remainQuota t.1) = actual

/-- **What an organization's task is charged.** A task is submitted, with any retries, and goes through;
later the poller recalculates it with the final cost `actual`. Whatever else has happened in between, as
long as the row of the task's ledger session is as the submission left it, the task is charged `actual`
if and only if that is what the submission charged. -/
theorem taskCharged_iff (st : Settings) (sub : Submission) (w₀ w₂ : TaskWorld) (relayInfo : RelayInfo)
    (org : Organization) (out : Submitted) (env : Env) (actual : Int)
    (h₀ : OrganizationRequest w₀.toWorld relayInfo org) (hfree : ∀ a ∈ sub.attempts, a.notFree)
    (hout : executeTaskSubmissionWith st sub { relayInfo } w₀ = .ok out) (hactual : 0 ≤ actual)
    (hrow : w₂.sessions.get? out.task.organizationBillingSessionId =
      out.world.sessions.get? out.task.organizationBillingSessionId) :
    TaskCharged w₀.toWorld out.world.toWorld w₂.toWorld
        (recalculateTaskQuota st env out.taskId out.task actual w₂).2.toWorld relayInfo
        (recalculateTaskQuota st env out.taskId out.task actual w₂).1 actual ↔ actual = out.task.quota := by
  have hsub := executeTaskSubmissionWith_charged h₀ hfree hout
  obtain ⟨_, hget, hstatus, hquota⟩ := hsub.settled
  have hbill := isOrganizationBilling_taskBillingRelayInfo hsub.account.1 hsub.account.2
  obtain ⟨htask, hworld⟩ := recalculateTaskQuota_settled hbill hsub.sessionId hactual (hrow.trans hget) hstatus hquota
  constructor
  · intro h
    rw [← h.quota, htask]
  · intro h
    obtain ⟨_, horg', _⟩ := hsub.organization
    refine ⟨htask.trans h.symm, ?_, fun t ht => ?_⟩
    · simp only [hworld, World.organizationUsed, horg', h₀.get, Option.elim_some]
      omega
    · obtain ⟨-, -, -, -, -, hremain⟩ := limitedToken_some ht
      simp only [hworld, World.remainQuota, hsub.token t ht, hremain, Option.getD_some]
      omega

def sampleTaskWorld : TaskWorld := { toDB := sampleDB }

def sampleSubmission : Submission where
  attempts := [.priced 3 (sampleEnv 10) {} 0 80 false true (.failed true),
    .priced 4 (sampleEnv 11) {} 0 90 false true (.accepted 100)]
  reserveEnv := sampleEnv 12
  settleEnv := sampleEnv 13

theorem taskCharged_sample :
    ∃ out, executeTaskSubmissionWith {} sampleSubmission { relayInfo := sampleRequest } sampleTaskWorld =
        .ok out ∧
      TaskCharged sampleTaskWorld.toWorld out.world.toWorld out.world.toWorld
        (recalculateTaskQuota {} (sampleEnv 90) out.taskId out.task 100 out.world).2.toWorld sampleRequest
        (recalculateTaskQuota {} (sampleEnv 90) out.taskId out.task 100 out.world).1 100 := by
  have hquota : (executeTaskSubmissionWith {} sampleSubmission { relayInfo := sampleRequest }
      sampleTaskWorld).toOption.map (fun out => out.task.quota) = some 100 := by decide +kernel
  obtain ⟨out, hout, hq⟩ := Option.map_eq_some_iff.mp hquota
  rw [toOption_eq_some] at hout
  refine ⟨out, hout, (taskCharged_iff {} sampleSubmission sampleTaskWorld out.world sampleRequest
    { quota := 1000, usedQuota := 7, ownerUserId := 1 } out (sampleEnv 90) 100
    ⟨by decide +kernel, fun identity _ => ?_, rfl, by decide⟩ ?_ hout (by decide) rfl).mpr hq.symm⟩
  · rw [findSession, Table.find?_eq_none_iff]
    intro i s h
    cases h
  · intro a ha
    rcases List.mem_cons.mp ha with rfl | ha
    · rfl
    · rcases List.mem_cons.mp ha with rfl | ha
      · rfl
      · cases ha

/-- The sample task ends with a final cost of `60`: the ledger refuses the second settlement, and task,
organization and token stay at the `100` of the submission. -/
theorem final_cost_is_not_booked :
    ∃ out, executeTaskSubmissionWith {} sampleSubmission { relayInfo := sampleRequest } sampleTaskWorld =
        .ok out ∧
      let r := recalculateTaskQuota {} (sampleEnv 90) out.taskId out.task 60 out.world
      (r.1.quota, r.2.organizationUsed 1, r.2.remainQuota 1) = (100, 7 + 100, 500 - 100) ∧
      ¬ TaskCharged sampleTaskWorld.toWorld out.world.toWorld out.world.toWorld r.2.toWorld sampleRequest
        r.1 60 := by
  have hvalues : (executeTaskSubmissionWith {} sampleSubmission { relayInfo := sampleRequest }
      sampleTaskWorld).toOption.map (fun out =>
        let r := recalculateTaskQuota {} (sampleEnv 90) out.taskId out.task 60 out.world
        (r.1.quota, r.2.organizationUsed 1, r.2.remainQuota 1)) = some (100, 7 + 100, 500 - 100) := by
    decide +kernel
  obtain ⟨out, hout, hr⟩ := Option.map_eq_some_iff.mp hvalues
  rw [toOption_eq_some] at hout
  refine ⟨out, hout, hr, fun h => ?_⟩
  have hquota := (Prod.mk.inj hr).1.symm.trans h.quota
  omega

end CubeRouter.Billing
