import CubeRouter.Billing.TaskRefund

/-!
# The channel's usage of a task

`LogTaskConsumption` adds the quota of a task to the counter of its channel when the task is submitted. From then on the
counter and the account that paid should move together: by the difference when the task is recalculated, back to nothing
when it is refunded. The refund of an organization's task leaves the counter alone.

What is added up is what each call moves; between two calls of the task the database may become any other one.
-/

namespace CubeRouter.Billing

open Relational Transition Ledger Option

/-- `used_quota` of a channel with the recorded movements. -/
def World.channelUsed (w : World) (id : Nat) : Int := w.channelUsedQuota id + w.pendingChannelUsedQuota id

inductive TaskCall
  | recalculate (env : Env) (actualQuota : Int)
  | refund (env : Env)

/-- A call with the database that it meets. -/
structure TaskStep where
  call : TaskCall
  world : TaskWorld

/-- The task in memory, what its calls have moved and whether it is refunded. -/
structure Usage where
  task : Task
  channel : Int
  account : Int
  refunded : Bool := false

def Usage.final (x : Usage) : Int := if x.refunded then 0 else x.task.quota

def Usage.add (x : Usage) (task : Task) (w w' : World) (refunded : Bool) : Usage where
  task
  channel := x.channel + (w'.channelUsed x.task.channelId - w.channelUsed x.task.channelId)
  account := x.account - returnedTo (normalizeTaskBillingScope x.task) w w'
  refunded

def Usage.step (st : Settings) (taskId : Nat) (x : Usage) (e : TaskStep) : Usage :=
  match e.call with
  | .recalculate env actualQuota =>
    let r := recalculateTaskQuota st env taskId x.task actualQuota e.world
    x.add r.1 e.world.toWorld r.2.toWorld false
  | .refund env =>
    let r := refundTaskQuota st env taskId x.task e.world
    x.add r.task e.world.toWorld r.world.toWorld r.refunded

/-- After `LogTaskConsumption`; the session of the request has charged `quota` before. -/
def submittedUsage (st : Settings) (relayInfo : RelayInfo) (quota : Int) (w : World) : Usage where
  task := initTask relayInfo quota
  channel := (logTaskConsumption st relayInfo quota w).channelUsed relayInfo.channelId -
    w.channelUsed relayInfo.channelId
  account := quota

/-- The ledger session of the task, if it has one, is as the submission has left it: settled with the quota of the
task. -/
def LedgerKept (task : Task) (w : World) : Prop :=
  isOrganizationBilling (taskBillingRelayInfo task) = true → task.organizationBillingSessionId ≠ 0 →
    ∃ row, w.sessions.get? task.organizationBillingSessionId = some row ∧ row.status = .settled ∧
      row.settledQuota = task.quota

/-- The call succeeds, and no call comes after a refund. -/
def Proceeds (st : Settings) (taskId : Nat) (x : Usage) (e : TaskStep) : Prop :=
  x.refunded = false ∧
    match e.call with
    | .recalculate env actualQuota =>
      LedgerKept x.task e.world.toWorld ∧ 0 ≤ actualQuota ∧
        (recalculateTaskQuota st env taskId x.task actualQuota e.world).1.quota = actualQuota
    | .refund env => (refundTaskQuota st env taskId x.task e.world).refunded = true

/-- The account moves by the whole of `delta`. -/
def AccountTakes (st : Settings) (task : Task) (delta : Int) (w : World) : Prop :=
  if isOrganizationBilling (taskBillingRelayInfo task) then delta < 0 →
    0 ≤ w.organizationUsed task.billingAccountId + delta
  else if taskIsSubscription task then 0 ≤ w.amountUsed task.subscriptionId + delta
  else 0 < delta → st.batchUpdateEnabled = true ∨ (w.users.get? task.userId).isSome = true

/-- Whatever is moved, the account takes it, and an organization's task that cost something is not refunded. -/
def TakesStep (st : Settings) (x : Usage) (e : TaskStep) : Prop :=
  match e.call with
  | .recalculate _ actualQuota =>
    actualQuota = x.task.quota ∨ AccountTakes st (normalizeTaskBillingScope x.task)
      (actualQuota - x.task.quota) e.world.toWorld
  | .refund _ =>
    x.task.quota = 0 ∨
      (isOrganizationBilling (taskBillingRelayInfo x.task) = false ∧
        AccountTakes st (normalizeTaskBillingScope x.task) (-x.task.quota) e.world.toWorld)

/-- The channel and the account have both moved by what the task costs. -/
structure Usage.Follows (x : Usage) : Prop where
  channel : x.channel = x.final
  account : x.account = x.channel

variable {st : Settings} {env : Env} {taskId : Nat} {task : Task} {w w' : World}

/-! ## Normalized tasks -/

theorem orDefault_orDefault (a b : Nat) : orDefault (orDefault a b) b = orDefault a b := by
  unfold orDefault
  split_ifs <;> omega

theorem personalScope_personalScope (task : Task) : task.personalScope.personalScope = task.personalScope := by
  simp [Task.personalScope, orDefault_orDefault]

/-- The second round may find an organization that the first has filled in. -/
theorem organizationScope_thrice (task : Task) :
    task.organizationScope.organizationScope.organizationScope = task.organizationScope.organizationScope := by
  have hscope (a b : Nat) : orDefault (orDefault a b) (orDefault b (orDefault a b)) = orDefault a b := by
    unfold orDefault
    split_ifs <;> omega
  have horganization (a b : Nat) :
    orDefault (orDefault b (orDefault a b)) (orDefault a b) = orDefault b (orDefault a b) := by
    unfold orDefault
    split_ifs <;> omega
  simp [Task.organizationScope, hscope, orDefault_orDefault]

theorem normalizeTaskBillingScope_set (hscope : task.scopeType ≠ .unset) (haccount : task.billingAccountType ≠ .unset) :
    normalizeTaskBillingScope task =
      if task.scopeType = .organization then task.organizationScope else task.personalScope := by
  have hset {scope : ScopeType} (h : scope ≠ .unset) : ScopeType.orPersonal scope = scope := if_neg h
  unfold normalizeTaskBillingScope
  rw [hset hscope, hset haccount]
  dsimp only
  split
  · rename_i h
    rw [if_neg (by simp [h])]
  · rename_i h
    rw [if_pos h]
  · rename_i h
    exact absurd h hscope

theorem normalizeTaskBillingScope_start (task : Task) : ∃ start : Task,
    start.scopeType ≠ .unset ∧ start.billingAccountType ≠ .unset ∧
    normalizeTaskBillingScope task = normalizeTaskBillingScope start := by
  have hset (scope : ScopeType) : ScopeType.orPersonal scope ≠ .unset := by
    unfold ScopeType.orPersonal
    split_ifs with h
    · exact ScopeType.noConfusion
    · exact h
  have hagain (scope : ScopeType) : ScopeType.orPersonal (ScopeType.orPersonal scope) = ScopeType.orPersonal scope :=
    if_neg (hset scope)
  refine ⟨{ task with
    scopeType := ScopeType.orPersonal task.scopeType
    billingAccountType := ScopeType.orPersonal task.billingAccountType }, hset _, hset _, ?_⟩
  unfold normalizeTaskBillingScope
  simp [hagain]

theorem normalizeTaskBillingScope_thrice (task : Task) :
    normalizeTaskBillingScope (normalizeTaskBillingScope (normalizeTaskBillingScope task)) =
      normalizeTaskBillingScope (normalizeTaskBillingScope task) := by
  obtain ⟨start, hscope, haccount, heq⟩ := normalizeTaskBillingScope_start task
  rw [heq, normalizeTaskBillingScope_set hscope haccount]
  by_cases horganization : start.scopeType = .organization
  · have hround (t : Task) (hs : t.scopeType = .organization) (ha : t.billingAccountType ≠ .unset) :
        normalizeTaskBillingScope t = t.organizationScope := by
      rw [normalizeTaskBillingScope_set (by simp [hs]) ha, if_pos hs]
    rw [if_pos horganization, hround start.organizationScope horganization haccount,
      hround start.organizationScope.organizationScope horganization haccount, organizationScope_thrice]
  · have hround (t : Task) (hs : t.scopeType = start.scopeType) (ha : t.billingAccountType ≠ .unset) :
        normalizeTaskBillingScope t = t.personalScope := by
      rw [normalizeTaskBillingScope_set (by rw [hs]; exact hscope) ha, if_neg (by rw [hs]; exact horganization)]
    rw [if_neg horganization, hround start.personalScope rfl haccount, personalScope_personalScope,
      hround start.personalScope rfl haccount, personalScope_personalScope]

/-- Nothing is left to fill in. -/
def Task.Normal (task : Task) : Prop := normalizeTaskBillingScope task = task

theorem normalizeTaskBillingScope_frame :
    ∃ scopeType scopeId billingAccountType billingAccountId organizationId creatorUserId responsibleUserId,
      normalizeTaskBillingScope task = { task with
        scopeType, scopeId, billingAccountType, billingAccountId, organizationId, creatorUserId,
        responsibleUserId } := by
  unfold normalizeTaskBillingScope
  dsimp only
  split <;> exact ⟨_, _, _, _, _, _, _, rfl⟩

theorem normalizeTaskBillingScope_withQuota (task : Task) (quota : Int) :
    normalizeTaskBillingScope { task with quota } = { normalizeTaskBillingScope task with quota } := by
  unfold normalizeTaskBillingScope
  dsimp only
  split <;> rfl

variable {quota : Int}

theorem Task.Normal.withQuota (h : task.Normal) : { task with quota }.Normal := by
  unfold Task.Normal
  rw [normalizeTaskBillingScope_withQuota, h]

theorem Task.Normal.relayInfo (h : (normalizeTaskBillingScope task).Normal) :
    taskBillingRelayInfo (normalizeTaskBillingScope task) = taskBillingRelayInfo task := by
  unfold taskBillingRelayInfo
  rw [h]

variable {relayInfo : RelayInfo}

theorem normal_initTask : (normalizeTaskBillingScope (initTask relayInfo quota)).Normal := by
  have hfields (t : Task) (billingSource : BillingSource) (subscriptionId privateTokenId : Nat) :
      normalizeTaskBillingScope { t with quota, billingSource, subscriptionId, privateTokenId } =
        { normalizeTaskBillingScope t with quota, billingSource, subscriptionId, privateTokenId } := by
    unfold normalizeTaskBillingScope
    dsimp only
    split <;> rfl
  unfold Task.Normal initTask
  rw [hfields, hfields, normalizeTaskBillingScope_thrice]

/-! ## The counter of the channel -/

def SameChannels (w w' : World) : Prop := ∀ id, w'.channelUsed id = w.channelUsed id

theorem SameChannels.trans {w'' : World} (h : SameChannels w w') (h' : SameChannels w' w'') : SameChannels w w'' :=
  fun id => (h' id).trans (h id)

theorem channelUsed_updateChannelUsedQuota (id i : Nat) (quota : Int) :
    (updateChannelUsedQuota st w id quota).channelUsed i = w.channelUsed i + if i = id then quota else 0 := by
  unfold updateChannelUsedQuota World.channelUsed
  split_ifs <;> dsimp only <;> omega

theorem TokenFrame.sameChannels (h : TokenFrame w w') : SameChannels w w' := by
  obtain ⟨_, _, rfl⟩ := h
  exact fun _ => rfl

variable {id : Nat}

theorem updateUserUsedQuota_sameChannels : SameChannels w (updateUserUsedQuota st w id quota) := by
  unfold updateUserUsedQuota
  split_ifs <;> exact fun _ => rfl

theorem channelUsed_logTaskConsumption :
    (logTaskConsumption st relayInfo quota w).channelUsed relayInfo.channelId =
    w.channelUsed relayInfo.channelId + quota := by
  unfold logTaskConsumption
  rw [channelUsed_updateChannelUsedQuota, if_pos rfl, add_left_inj]
  unfold updateUserUsedQuotaAndRequestCount updateUserUsedQuota
  split_ifs <;> rfl

variable {delta : Int} {x : Usage}

theorem taskAdjustFunding_sameChannels (h : taskAdjustFunding st task delta w = .ok w') : SameChannels w w' := by
  unfold taskAdjustFunding postConsumeUserSubscriptionDelta decreaseUserQuota increaseUserQuota at h
  split_ifs at h
  · cases h
    exact fun _ => rfl
  · split at h
    · cases h
    · cases h
      exact fun _ => rfl
  · cases h
    exact fun _ => rfl
  · cases h
    exact fun _ => rfl
  · cases h
    exact fun _ => rfl
  · split at h
    · cases h
    · split_ifs at h
      cases h
      exact fun _ => rfl

variable {db db' : DB}

theorem refundTx_channels {f f' : OrganizationFunding} (h : f.refundTx env id db = .ok (f', db')) :
    db'.channelUsedQuota = db.channelUsedQuota := by
  obtain ⟨s, -, h1⟩ := bind_eq_ok.mp h
  split at h1
  · cases h1
    rfl
  · obtain ⟨⟨_, _, _⟩, hupdate, h2⟩ := bind_eq_ok.mp h1
    obtain ⟨_, _, _, _, -, rfl⟩ := updateOrganizationUsedQuotaTx_ok hupdate
    obtain ⟨⟨_, _⟩, -, h3⟩ := bind_eq_ok.mp h2
    obtain ⟨_, hrecord, h4⟩ := bind_eq_ok.mp h3
    obtain rfl := createOrganizationBillingRecordTx_ok hrecord
    obtain ⟨_, -, h5⟩ := bind_eq_ok.mp h4
    cases h5
    rfl

/-! ## An organization without a ledger session -/

theorem consumeOrganization_used {relayInfo' : RelayInfo} {increment : Bool}
    (hbill : isOrganizationBilling relayInfo = true) (hquota : quota ≠ 0)
    (h : consumeOrganizationAndTokenQuotaWithRequestCount env relayInfo quota increment db = .ok (relayInfo', db')) :
    db'.channelUsedQuota = db.channelUsedQuota ∧
    ∃ org org', db.organizations.get? relayInfo.billingAccountId = some org ∧
        db'.organizations.get? relayInfo.billingAccountId = some org' ∧
        org'.usedQuota = usedQuotaExpr org.usedQuota quota := by
  unfold consumeOrganizationAndTokenQuotaWithRequestCount at h
  rw [if_neg (by simp [hbill, hquota])] at h
  obtain ⟨⟨_, after, _⟩, hupdate, h1⟩ := bind_eq_ok.mp h
  obtain ⟨org, _, _, _, hmoved, rfl⟩ := updateOrganizationUsedQuotaTx_ok hupdate
  obtain ⟨⟨_, _, _⟩, -, h2⟩ := bind_eq_ok.mp h1
  obtain ⟨_, -, h3⟩ := bind_eq_ok.mp h2
  cases h3
  exact ⟨rfl, org, after, hmoved.get, by rw [hmoved.get', if_pos rfl], hmoved.used⟩

theorem adjustTask_organization (hnormal : (normalizeTaskBillingScope task).Normal)
    (hbill : isOrganizationBilling (taskBillingRelayInfo task) = true) (hdelta : delta ≠ 0)
    (h : adjustTask st env task delta w = .ok w') :
    SameChannels w w' ∧ (-returnedTo (normalizeTaskBillingScope task) w w' = delta ↔
      AccountTakes st (normalizeTaskBillingScope task) delta w) := by
  unfold adjustTask postConsumeQuotaWithResultCount at h
  rw [if_pos hbill, if_pos hbill] at h
  cases hres : consumeOrganizationAndTokenQuotaWithRequestCount env (taskBillingRelayInfo task) delta false w.toDB with
  | error =>
    rw [hres] at h
    cases h
  | ok res =>
    obtain ⟨_, db⟩ := res
    rw [hres] at h
    cases h
    obtain ⟨hchannels, org, org', hget, hget', hused⟩ := consumeOrganization_used hbill hdelta hres
    refine ⟨fun id => ?_, ?_⟩
    · show db.channelUsedQuota id + w.pendingChannelUsedQuota id = w.channelUsedQuota id + w.pendingChannelUsedQuota id
      rw [hchannels]
    · change w.organizations.get? (normalizeTaskBillingScope task).billingAccountId = some org at hget
      change db.organizations.get? (normalizeTaskBillingScope task).billingAccountId = some org' at hget'
      unfold returnedTo AccountTakes
      rw [hnormal.relayInfo, if_pos hbill, if_pos hbill]
      simp only [World.organizationUsed, hget, hget', elim_some, hused, usedQuotaExpr]
      split_ifs <;> omega

/-! ## A personal task -/

theorem taskAdjustFunding_takes (hpersonal : isOrganizationBilling (taskBillingRelayInfo task) = false)
    (hdelta : delta ≠ 0) (h : taskAdjustFunding st task delta w = .ok w') :
    -returnedTo task w w' = delta ↔ AccountTakes st task delta w := by
  unfold returnedTo AccountTakes
  simp only [hpersonal, Bool.false_eq_true, if_false]
  unfold taskAdjustFunding at h
  by_cases hsub : taskIsSubscription task = true
  · unfold postConsumeUserSubscriptionDelta at h
    split_ifs at h
    split at h
    · cases h
    · rename_i sub hget
      cases h
      simp only [World.amountUsed, hget, Table.get?_modify_self, map_some, elim_some]
      split_ifs <;> omega
  · simp only [if_neg hsub]
    split_ifs at h with hpos
    · unfold decreaseUserQuota at h
      rw [if_neg (by omega)] at h
      split_ifs at h with hbatch
      · cases h
        simp only [World.walletQuota, World.recordUserQuota, ite_true, hbatch, true_or, implies_true, iff_true]
        omega
      · cases h
        cases hu : w.users.get? task.userId with
        | none =>
          simp only [World.walletQuota, World.addUserQuota, Table.get?_modify_self, hu]
          simp [hbatch]
          omega
        | some =>
          simp only [World.walletQuota, World.addUserQuota, Table.get?_modify_self, hu]
          simp
    · unfold increaseUserQuota at h
      split_ifs at h with hmax hbatch
      · cases h
        simp only [World.walletQuota, World.recordUserQuota, ite_true]
        omega
      · split at h
        · cases h
        · rename_i u hu
          split_ifs at h
          cases h
          simp only [World.walletQuota, World.addUserQuota, Table.get?_modify_self, hu, map_some, elim_some]
          omega

theorem taskAdjustFunding_normalize :
    taskAdjustFunding st (normalizeTaskBillingScope task) delta w = taskAdjustFunding st task delta w := by
  obtain ⟨_, _, _, _, _, _, _, heq⟩ := normalizeTaskBillingScope_frame
  rw [heq]
  rfl

theorem isOrganizationBilling_normalize (hnormal : (normalizeTaskBillingScope task).Normal) :
    isOrganizationBilling (taskBillingRelayInfo (normalizeTaskBillingScope task)) =
      isOrganizationBilling (taskBillingRelayInfo task) := by
  rw [hnormal.relayInfo]

theorem adjustTask_takes (hnormal : (normalizeTaskBillingScope task).Normal) (hdelta : delta ≠ 0)
    (h : adjustTask st env task delta w = .ok w') :
    SameChannels w w' ∧ (-returnedTo (normalizeTaskBillingScope task) w w' = delta ↔
      AccountTakes st (normalizeTaskBillingScope task) delta w) := by
  by_cases hbill : isOrganizationBilling (taskBillingRelayInfo task) = true
  · exact adjustTask_organization hnormal hbill hdelta h
  · rw [Bool.not_eq_true] at hbill
    unfold adjustTask at h
    rw [if_neg (by simp [hbill])] at h
    obtain ⟨w1, hfunding, hrest⟩ := bind_eq_ok.mp h
    cases hrest
    have hpersonal : isOrganizationBilling (taskBillingRelayInfo (normalizeTaskBillingScope task)) = false :=
      (isOrganizationBilling_normalize hnormal).trans hbill
    have htoken := taskAdjustTokenQuota_frame st env task delta w1
    refine ⟨((taskAdjustFunding_sameChannels hfunding).trans htoken.sameChannels).trans
      updateUserUsedQuota_sameChannels, ?_⟩
    rw [← taskAdjustFunding_normalize] at hfunding
    rw [(htoken.sameFunds.trans (updateUserUsedQuota_sameFunds _ _)).returnedTo w hpersonal]
    exact taskAdjustFunding_takes hpersonal hdelta hfunding

/-! ## The calls -/

section Calls

variable {w : TaskWorld} {actual : Int}

@[simp] theorem normalizeTaskBillingScope_channelId (task : Task) :
    (normalizeTaskBillingScope task).channelId = task.channelId := by
  obtain ⟨_, _, _, _, _, _, _, heq⟩ := normalizeTaskBillingScope_frame
  rw [heq]

/-- The counter of a channel pays for nothing. -/
theorem updateChannelUsedQuota_returnedTo (task : Task) (w w' : World) (id : Nat) (quota : Int) :
    returnedTo task w (updateChannelUsedQuota st w' id quota) = returnedTo task w w' := by
  have hsame : SameFunds w' (updateChannelUsedQuota st w' id quota) := updateChannelUsedQuota_sameFunds id quota
  have horganization (i : Nat) :
    (updateChannelUsedQuota st w' id quota).organizationUsed i = w'.organizationUsed i := by
    unfold updateChannelUsedQuota
    split_ifs <;> rfl
  unfold returnedTo
  rw [horganization, hsame.used, hsame.wallet]

theorem settleAsync_unhandled (env : Env) (actual : Int) (db : DB) (hnormal : (normalizeTaskBillingScope task).Normal)
    (h : ¬(isOrganizationBilling (taskBillingRelayInfo task) = true ∧ task.organizationBillingSessionId ≠ 0)) :
    ∃ t, settleAsyncTaskOrganizationQuota env task actual db = { handled := false, task := t, db } ∧
      normalizeTaskBillingScope t = normalizeTaskBillingScope task ∧ t.quota = task.quota := by
  unfold settleAsyncTaskOrganizationQuota
  by_cases hid : task.organizationBillingSessionId = 0
  · rw [if_pos hid]
    exact ⟨task, rfl, rfl, rfl⟩
  · have hbill : isOrganizationBilling (taskBillingRelayInfo task) = false := by
      rw [← Bool.not_eq_true]
      exact fun hbill => h ⟨hbill, hid⟩
    rw [if_neg hid]
    rw [if_pos (by simp [hbill])]
    exact ⟨_, rfl, hnormal, normalizeTaskBillingScope_quota task⟩

theorem recalculateTaskQuota_moves (hnormal : (normalizeTaskBillingScope task).Normal)
    (hledger : LedgerKept task w.toWorld)
    (hactual : 0 ≤ actual) (hok : (recalculateTaskQuota st env taskId task actual w).1.quota = actual) :
    let w' := (recalculateTaskQuota st env taskId task actual w).2.toWorld
    w'.channelUsed task.channelId = w.channelUsed task.channelId + (actual - task.quota) ∧
      (-returnedTo (normalizeTaskBillingScope task) w.toWorld w' = actual - task.quota ↔
        actual = task.quota ∨ AccountTakes st (normalizeTaskBillingScope task) (actual - task.quota) w.toWorld) := by
  have hsame {w' : World} (hquota : actual = task.quota) (hw : w' = w.toWorld) :
      w'.channelUsed task.channelId = w.channelUsed task.channelId + (actual - task.quota) ∧
        (-returnedTo (normalizeTaskBillingScope task) w.toWorld w' = actual - task.quota ↔
          actual = task.quota ∨ AccountTakes st (normalizeTaskBillingScope task) (actual - task.quota) w.toWorld) := by
    subst hw
    rw [returnedTo_self]
    exact ⟨by omega, iff_of_true (by omega) (.inl hquota)⟩
  by_cases hhandled : isOrganizationBilling (taskBillingRelayInfo task) = true ∧ task.organizationBillingSessionId ≠ 0
  · obtain ⟨hbill, hid⟩ := hhandled
    obtain ⟨_, hget, hstatus, hsettled⟩ := hledger hbill hid
    obtain ⟨htask, hworld⟩ : (recalculateTaskQuota st env taskId task actual w).1.quota = task.quota ∧
        (recalculateTaskQuota st env taskId task actual w).2.toWorld = w.toWorld :=
      recalculateTaskQuota_settled hbill (by omega) hactual hget hstatus hsettled
    exact hsame (hok.symm.trans htask) hworld
  · obtain ⟨t, hsettle, hfields, hquota⟩ := settleAsync_unhandled env actual w.toDB hnormal hhandled
    unfold recalculateTaskQuota at hok ⊢
    simp only [if_neg (not_lt.mpr hactual), hsettle, Bool.false_eq_true, if_false, hquota] at hok ⊢
    by_cases hdelta : actual - task.quota = 0
    · simp only [if_pos hdelta]
      exact hsame (by omega) rfl
    · simp only [if_neg hdelta] at hok ⊢
      cases hadjust : adjustTask st env t (actual - task.quota) w.toWorld with
      | error =>
        rw [hadjust] at hok
        simp only [normalizeTaskBillingScope_quota] at hok
        omega
      | ok world =>
        have hchannel : (normalizeTaskBillingScope t).channelId = task.channelId := by
          rw [hfields]
          exact normalizeTaskBillingScope_channelId task
        obtain ⟨hchannels, htakes⟩ := adjustTask_takes (hfields.symm ▸ hnormal) hdelta hadjust
        rw [hfields] at htakes
        rw [hchannel]
        refine ⟨?_, ?_⟩
        · refine (channelUsed_updateChannelUsedQuota _ _ _).trans ?_
          rw [if_pos rfl]
          exact congrArg (· + (actual - task.quota)) (hchannels task.channelId)
        · have hreturned : returnedTo (normalizeTaskBillingScope task) w.toWorld
              (updateChannelUsedQuota st world task.channelId (actual - task.quota)) =
                returnedTo (normalizeTaskBillingScope task) w.toWorld world :=
            updateChannelUsedQuota_returnedTo _ _ _ _ _
          refine (iff_of_eq (congrArg (fun r => -r = actual - task.quota) hreturned)).trans (htakes.trans ?_)
          exact ⟨.inr, fun h => h.resolve_left fun heq => hdelta (by omega)⟩

theorem sameChannels_of_db {w : World} {db : DB} (h : db.channelUsedQuota = w.channelUsedQuota) :
    SameChannels w { w with toDB := db } := by
  intro id
  show db.channelUsedQuota id + w.pendingChannelUsedQuota id = w.channelUsedQuota id + w.pendingChannelUsedQuota id
  rw [h]

theorem refundTaskOrganizationQuota_sameChannels {w world : World}
    (hbill : isOrganizationBilling (taskBillingRelayInfo task) = true)
    (hquota : task.quota ≠ 0) (hres : refundTaskOrganizationQuota st env task w = .ok world) :
    SameChannels w world := by
  unfold refundTaskOrganizationQuota at hres
  dsimp only at hres
  split_ifs at hres
  · cases hrefund : OrganizationFunding.refundWithToken { relayInfo := taskBillingRelayInfo task } env w.toDB with
    | error =>
      rw [hrefund] at hres
      cases hres
    | ok p =>
      obtain ⟨_, db⟩ := p
      rw [hrefund] at hres
      cases hres
      obtain ⟨-, -, rfl⟩ | ⟨_, _, s, -, htx⟩ := refundWithToken_ok hrefund
      · exact sameChannels_of_db rfl
      · exact sameChannels_of_db (refundTx_channels htx)
  · unfold postConsumeQuota postConsumeQuotaWithResultCount at hres
    rw [if_pos hbill] at hres
    cases hconsume : consumeOrganizationAndTokenQuotaWithRequestCount env (taskBillingRelayInfo task) (-task.quota)
        (decide (0 < -task.quota)) w.toDB with
    | error e =>
      rw [hconsume] at hres
      cases hres
    | ok res =>
      obtain ⟨_, _⟩ := res
      rw [hconsume] at hres
      cases hres
      exact sameChannels_of_db (consumeOrganization_used hbill (by omega) hconsume).1

theorem refundTaskQuota_moves (hnormal : (normalizeTaskBillingScope task).Normal)
    (hok : (refundTaskQuota st env taskId task w).refunded = true) :
    let w' := (refundTaskQuota st env taskId task w).world.toWorld
    (w'.channelUsed task.channelId = w.channelUsed task.channelId - task.quota ∧
        -returnedTo (normalizeTaskBillingScope task) w.toWorld w' = -task.quota) ↔
      task.quota = 0 ∨ (isOrganizationBilling (taskBillingRelayInfo task) = false ∧
        AccountTakes st (normalizeTaskBillingScope task) (-task.quota) w.toWorld) := by
  unfold refundTaskQuota at hok ⊢
  by_cases hquota : task.quota = 0
  · simp only [if_pos hquota, returnedTo_self]
    exact iff_of_true (by omega) (.inl hquota)
  simp only [if_neg hquota] at hok ⊢
  by_cases hbill : isOrganizationBilling (taskBillingRelayInfo task) = true
  · simp only [if_pos hbill] at hok ⊢
    cases hres : refundTaskOrganizationQuota st env task w.toWorld with
    | error =>
      rw [hres] at hok
      cases hok
    | ok world =>
      refine iff_of_false (fun h => ?_) fun h => ?_
      · have hstays := refundTaskOrganizationQuota_sameChannels hbill hquota hres task.channelId
        have hmoved : world.channelUsed task.channelId = w.channelUsed task.channelId - task.quota := h.1
        omega
      · obtain hzero | hpersonal := h
        · exact hquota hzero
        · rw [hbill] at hpersonal
          cases hpersonal.1
  · rw [Bool.not_eq_true] at hbill
    simp only [hbill] at hok ⊢
    cases hres : taskAdjustFunding st task (-task.quota) w.toWorld with
    | error =>
      rw [hres] at hok
      cases hok
    | ok world =>
      have hpersonal : isOrganizationBilling (taskBillingRelayInfo (normalizeTaskBillingScope task)) = false :=
        (isOrganizationBilling_normalize hnormal).trans hbill
      have hchannel :
        (refundTaskUsage st env task world).channelUsed task.channelId = w.channelUsed task.channelId - task.quota := by
        unfold refundTaskUsage
        rw [channelUsed_updateChannelUsedQuota, if_pos rfl, updateUserUsedQuota_sameChannels,
          (taskAdjustTokenQuota_frame st env task (-task.quota) world).sameChannels,
          taskAdjustFunding_sameChannels hres]
        rfl
      have hreturned := (refundTaskUsage_sameFunds st env task world).returnedTo w.toWorld hpersonal
      have htakes := taskAdjustFunding_takes hpersonal (by omega) (taskAdjustFunding_normalize.trans hres)
      constructor
      · rintro ⟨-, hmoved⟩
        refine .inr ⟨trivial, htakes.mp ?_⟩
        exact (congrArg Neg.neg hreturned).symm.trans hmoved
      · rintro (hzero | ⟨-, haccount⟩)
        · exact absurd hzero hquota
        · exact ⟨hchannel, (congrArg Neg.neg hreturned).trans (htakes.mpr haccount)⟩

end Calls

/-! ## The runs -/

/-- The task with another quota, or with its scope filled in too. -/
def SameTask (task task' : Task) : Prop :=
  ∃ quota, task' = { task with quota } ∨ task' = { normalizeTaskBillingScope task with quota }

variable {task' : Task}

theorem SameTask.normal (h : SameTask task task') (hnormal : (normalizeTaskBillingScope task).Normal) :
    (normalizeTaskBillingScope task').Normal := by
  obtain ⟨quota, rfl | rfl⟩ := h
  · rw [normalizeTaskBillingScope_withQuota]
    exact hnormal.withQuota
  · rw [normalizeTaskBillingScope_withQuota, hnormal]
    exact hnormal.withQuota

theorem sameTask_normalize : SameTask task (normalizeTaskBillingScope task) :=
  ⟨task.quota, .inr (by rw [← normalizeTaskBillingScope_quota])⟩

theorem SameTask.normalize (h : SameTask task task') (hnormal : (normalizeTaskBillingScope task).Normal) (quota : Int) :
    SameTask task { normalizeTaskBillingScope task' with quota } := by
  obtain ⟨_, rfl | rfl⟩ := h
  · exact ⟨quota, .inr (by rw [normalizeTaskBillingScope_withQuota])⟩
  · exact ⟨quota, .inr (by rw [normalizeTaskBillingScope_withQuota, hnormal])⟩

theorem settleAsync_sameTask (env : Env) (task : Task) (actual : Int) (db : DB) :
    SameTask task (settleAsyncTaskOrganizationQuota env task actual db).task := by
  unfold settleAsyncTaskOrganizationQuota
  split_ifs
  · exact ⟨task.quota, .inl rfl⟩
  · dsimp only
    split_ifs
    · exact sameTask_normalize
    · split
      · exact sameTask_normalize
      · exact ⟨actual, .inr rfl⟩

theorem recalculateTaskQuota_sameTask (hnormal : (normalizeTaskBillingScope task).Normal)
    (actual : Int) (w : TaskWorld) :
    SameTask task (recalculateTaskQuota st env taskId task actual w).1 := by
  have hsettle := settleAsync_sameTask env task actual w.toDB
  unfold recalculateTaskQuota
  split_ifs
  · exact ⟨task.quota, .inl rfl⟩
  · dsimp only
    split_ifs
    · split
      · exact hsettle
      · exact hsettle
    · exact hsettle
    · split
      · exact hsettle.normalize hnormal
          (normalizeTaskBillingScope (settleAsyncTaskOrganizationQuota env task actual w.toDB).task).quota
      · exact hsettle.normalize hnormal actual

theorem refundTaskQuota_sameTask {w : TaskWorld} : SameTask task (refundTaskQuota st env taskId task w).task := by
  unfold refundTaskQuota
  split_ifs
  · exact ⟨task.quota, .inl rfl⟩
  · split <;> exact sameTask_normalize
  · split
    · exact sameTask_normalize
    · exact ⟨0, .inr rfl⟩

/-- What the steps keep of the task. -/
theorem normal_step (hnormal : (normalizeTaskBillingScope x.task).Normal) (e : TaskStep) :
    (normalizeTaskBillingScope (x.step st taskId e).task).Normal := by
  obtain ⟨call, w⟩ := e
  cases call with
  | recalculate _ actual => exact (recalculateTaskQuota_sameTask hnormal actual w).normal hnormal
  | refund => exact refundTaskQuota_sameTask.normal hnormal

theorem follows_add (hopen : x.refunded = false) (h : x.Follows) {refunded : Bool} :
    (x.add task' w w' refunded).Follows ↔
      w'.channelUsed x.task.channelId = w.channelUsed x.task.channelId +
      ((x.add task' w w' refunded).final - x.task.quota) ∧
        -returnedTo (normalizeTaskBillingScope x.task) w w' = (x.add task' w w' refunded).final - x.task.quota := by
  have hfinal : x.final = x.task.quota := by
    rw [Usage.final, hopen]
    rfl
  have hchannel := h.channel
  have haccount := h.account
  constructor
  · rintro ⟨hchannel', haccount'⟩
    change x.channel + (w'.channelUsed x.task.channelId - w.channelUsed x.task.channelId) = _ at hchannel'
    change x.account - returnedTo (normalizeTaskBillingScope x.task) w w' =
      x.channel + (w'.channelUsed x.task.channelId - w.channelUsed x.task.channelId) at haccount'
    exact ⟨by omega, by omega⟩
  · rintro ⟨hmoved, hreturned⟩
    refine ⟨?_, ?_⟩
    · show x.channel + (w'.channelUsed x.task.channelId - w.channelUsed x.task.channelId) = _
      omega
    · show x.account - returnedTo (normalizeTaskBillingScope x.task) w w' =
        x.channel + (w'.channelUsed x.task.channelId - w.channelUsed x.task.channelId)
      omega

theorem follows_step {e : TaskStep} (hnormal : (normalizeTaskBillingScope x.task).Normal)
    (hproceeds : Proceeds st taskId x e) (h : x.Follows) : (x.step st taskId e).Follows ↔ TakesStep st x e := by
  obtain ⟨hopen, hcall⟩ := hproceeds
  obtain ⟨call, w⟩ := e
  cases call with
  | recalculate env actual =>
    obtain ⟨hledger, hactual, hok⟩ := hcall
    obtain ⟨hmoved, htakes⟩ := recalculateTaskQuota_moves hnormal hledger hactual hok
    refine (follows_add hopen h).trans (Iff.trans ?_ htakes)
    have hfinal : (x.add (recalculateTaskQuota st env taskId x.task actual w).1 w.toWorld
      (recalculateTaskQuota st env taskId x.task actual w).2.toWorld false).final = actual := hok
    rw [hfinal]
    exact ⟨And.right, fun hreturned => ⟨hmoved, hreturned⟩⟩
  | refund env =>
    have hok : (refundTaskQuota st env taskId x.task w).refunded = true := hcall
    refine (follows_add hopen h).trans (Iff.trans ?_ (refundTaskQuota_moves hnormal hok))
    have hfinal : (x.add (refundTaskQuota st env taskId x.task w).task w.toWorld
      (refundTaskQuota st env taskId x.task w).world.toWorld
      (refundTaskQuota st env taskId x.task w).refunded).final = 0 := if_pos hok
    rw [hfinal, zero_sub, ← sub_eq_add_neg]

/-- After every call of a submitted task its channel and its account have moved by what it costs, exactly when the
account takes each difference and no organization's task that cost something is refunded. -/
theorem channel_follows_iff (relayInfo : RelayInfo) (quota : Int) (w : World) (l : List TaskStep)
    (h : Along (Usage.step st taskId) (Proceeds st taskId) (submittedUsage st relayInfo quota w) l) :
    (∀ done rest, l = done ++ rest → (run (Usage.step st taskId) (submittedUsage st relayInfo quota w) done).Follows) ↔
      Along (Usage.step st taskId) (TakesStep st) (submittedUsage st relayInfo quota w) l := by
  have hstart : (submittedUsage st relayInfo quota w).Follows := by
    have hlogged : (logTaskConsumption st relayInfo quota w).channelUsed relayInfo.channelId =
        w.channelUsed relayInfo.channelId + quota := channelUsed_logTaskConsumption
    refine ⟨?_, ?_⟩
    · show _ - _ = quota
      omega
    · show quota = _ - _
      omega
  exact holds_iff_along (J := fun x => (normalizeTaskBillingScope x.task).Normal)
    (fun _ e hnormal _ => normal_step hnormal e)
    (fun _ _ hnormal hproceeds hfollows => follows_step hnormal hproceeds hfollows) normal_initTask hstart h

/-- A task of 40 on channel 5 that the wallet of user 1 pays for costs 60 in the end. -/
theorem channel_follows_wallet :
    let relayInfo : RelayInfo := { userId := 1, channelId := 5 }
    let w : TaskWorld := { users := Table.empty.insert { quota := 100 } }
    let l : List TaskStep := [⟨.recalculate ⟨0, 0⟩ 60, w⟩]
    (run (Usage.step {} 1) (submittedUsage {} relayInfo 40 w.toWorld) l).Follows :=
  let w : TaskWorld := { users := Table.empty.insert { quota := 100 } }
  (channel_follows_iff { userId := 1, channelId := 5 } 40 w.toWorld [⟨.recalculate ⟨0, 0⟩ 60, w⟩]
    ⟨⟨rfl, (fun h => by cases h), by decide, by decide⟩, trivial⟩).mpr ⟨.inr fun _ => .inr rfl, trivial⟩ _ [] rfl

/-- A task of 40 that organization 1 pays for is refunded: the organization has 40 less on its counter, the channel
keeps them. -/
theorem organization_refund_leaves_channel :
    let relayInfo : RelayInfo :=
      { userId := 1, channelId := 5, scopeType := .organization, scopeId := 1, billingAccountType := .organization
        billingAccountId := 1, organizationId := 1 }
    let w : TaskWorld := { organizations := Table.empty.insert { usedQuota := 100 } }
    let l : List TaskStep := [⟨.refund ⟨0, 0⟩, w⟩]
    let x := run (Usage.step {} 1) (submittedUsage {} relayInfo 40 w.toWorld) l
    Along (Usage.step {} 1) (Proceeds {} 1) (submittedUsage {} relayInfo 40 w.toWorld) l ∧
      (x.final, x.account, x.channel) = (0, 0, 40) ∧
      ¬x.Follows := by
  refine ⟨⟨⟨rfl, by decide +kernel⟩, trivial⟩, by decide +kernel, fun h => ?_⟩
  exact absurd h.channel (by decide +kernel)

end CubeRouter.Billing
