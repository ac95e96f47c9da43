import CubeRouter.Billing.Movements
import CubeRouter.Billing.Task

/-!
# The refund of a failed task

`RefundTaskQuota` of `service/task_billing.go`. Only the personal part clears the quota of the task, in memory and in
its row: a task that an organization paid for looks as if it had not been refunded.
-/

namespace CubeRouter.Billing

open Relational Transition Ledger Option

structure TaskRefund where
  refunded : Bool
  task : Task
  world : TaskWorld

/-- `RefundTaskOrganizationQuota` of a task that an organization pays for. -/
def refundTaskOrganizationQuota (st : Settings) (env : Env) (task : Task) (w : World) : Except BillingError World :=
  let relayInfo := taskBillingRelayInfo task
  if 0 < task.organizationBillingSessionId then
    match OrganizationFunding.refundWithToken { relayInfo } env w.toDB with
    | .error e => .error e
    | .ok (_, db) => .ok { w with toDB := db }
  else
    let p := postConsumeQuota st env relayInfo (-task.quota) w
    match p.error with
    | some e => .error e
    | none => .ok p.world

/-- The token and the usage counters, which follow the funding source. -/
def refundTaskUsage (st : Settings) (env : Env) (task : Task) (w : World) : World :=
  let w := taskAdjustTokenQuota st env task (-task.quota) w
  updateChannelUsedQuota st (updateUserUsedQuota st w task.userId (-task.quota)) task.channelId (-task.quota)

/-- The task is normalized in place when it is asked who paid for it. -/
def refundTaskQuota (st : Settings) (env : Env) (taskId : Nat) (task : Task) (w : TaskWorld) : TaskRefund :=
  if task.quota = 0 then ⟨true, task, w⟩
  else if isOrganizationBilling (taskBillingRelayInfo task) then
    match refundTaskOrganizationQuota st env task w.toWorld with
    | .error _ => ⟨false, normalizeTaskBillingScope task, w⟩
    | .ok world => ⟨true, normalizeTaskBillingScope task, { w with toWorld := world }⟩
  else
    match taskAdjustFunding st task (-task.quota) w.toWorld with
    | .error _ => ⟨false, normalizeTaskBillingScope task, w⟩
    | .ok world =>
      ⟨true, { normalizeTaskBillingScope task with quota := 0 },
        ({ w with toWorld := refundTaskUsage st env task world }).updateQuota taskId 0⟩

/-! ## Calls -/

structure RefundCall where
  reloaded : Bool
  env : Env

def RefundCall.run (st : Settings) (taskId : Nat) (call : RefundCall) (task : Task) (w : TaskWorld) : TaskRefund :=
  refundTaskQuota st call.env taskId (if call.reloaded then (w.tasks.get? taskId).getD task else task) w

def refundCalls (st : Settings) (taskId : Nat) : List RefundCall → Task → TaskWorld → Task × TaskWorld
  | [], task, w => (task, w)
  | call :: calls, task, w =>
    let r := call.run st taskId task w
    refundCalls st taskId calls r.task r.world

/-- What has come back to the funding source of a task. -/
def returnedTo (task : Task) (w w' : World) : Int :=
  if isOrganizationBilling (taskBillingRelayInfo task) then
    w.organizationUsed task.billingAccountId - w'.organizationUsed task.billingAccountId
  else if taskIsSubscription task then w.amountUsed task.subscriptionId - w'.amountUsed task.subscriptionId
  else w'.walletQuota task.userId - w.walletQuota task.userId

/-- However often the refund is called, the quota comes back once, and is cleared when a call says that it has. -/
structure TaskRefundedOnce (st : Settings) (taskId : Nat) (task : Task) (w : TaskWorld) : Prop where
  amount : ∀ call calls, returnedTo task w.toWorld (refundCalls st taskId (call :: calls) task w).2.toWorld = task.quota
  cleared : ∀ calls (call : RefundCall),
    let before := refundCalls st taskId calls task w
    let r := call.run st taskId before.1 before.2
    r.refunded = true → (r.world.tasks.get? taskId).map Task.quota = some 0

def TakesRefund (st : Settings) (task : Task) (w : World) : Prop :=
  if taskIsSubscription task then ∃ sub, w.subscriptions.get? task.subscriptionId = some sub ∧
    task.quota ≤ sub.amountUsed
  else task.quota ≤ maxWalletQuota ∧ (st.batchUpdateEnabled = true ∨
    ∃ u, w.users.get? task.userId = some u ∧ (0 < task.quota → u.quota + task.quota ≤ maxWalletQuota))

variable {st : Settings} {env : Env} {taskId : Nat} {task : Task} {w w' : World}

/-! ## The funding source -/

/-- What does not move a wallet or a subscription. -/
structure SameFunds (w w' : World) : Prop where
  wallet : ∀ id, w'.walletQuota id = w.walletQuota id
  used : ∀ id, w'.amountUsed id = w.amountUsed id

theorem SameFunds.trans {w'' : World} (h : SameFunds w w') (h' : SameFunds w' w'') : SameFunds w w'' :=
  ⟨fun id => (h'.wallet id).trans (h.wallet id), fun id => (h'.used id).trans (h.used id)⟩

theorem TokenFrame.sameFunds (h : TokenFrame w w') : SameFunds w w' := by
  obtain ⟨_, _, rfl⟩ := h
  exact ⟨fun _ => rfl, fun _ => rfl⟩

theorem taskAdjustTokenQuota_frame (st : Settings) (env : Env) (task : Task) (delta : Int) (w : World) :
    TokenFrame w (taskAdjustTokenQuota st env task delta w) := by
  have hmoved (r : Except BillingError World) (h : ∀ w', r = .ok w' → TokenFrame w w') :
    TokenFrame w (r.toOption.getD w) := by
    cases r with
    | error => exact TokenFrame.refl w
    | ok w' => exact h w' rfl
  unfold taskAdjustTokenQuota
  split_ifs
  · exact TokenFrame.refl w
  · exact TokenFrame.refl w
  · exact hmoved _ fun w' h => moveTokenQuota_frame h
  · exact hmoved _ fun w' h => moveTokenQuota_frame h

theorem updateUserUsedQuota_sameFunds (id : Nat) (quota : Int) : SameFunds w (updateUserUsedQuota st w id quota) := by
  unfold updateUserUsedQuota
  split_ifs
  · exact ⟨fun _ => rfl, fun _ => rfl⟩
  · refine ⟨fun i => ?_, fun _ => rfl⟩
    simp only [World.walletQuota, Table.get?_modify]
    split_ifs with hi
    · cases w.users.get? i <;> rfl
    · rfl

theorem updateChannelUsedQuota_sameFunds (id : Nat) (quota : Int) :
    SameFunds w (updateChannelUsedQuota st w id quota) := by
  unfold updateChannelUsedQuota
  split_ifs <;> exact ⟨fun _ => rfl, fun _ => rfl⟩

theorem refundTaskUsage_sameFunds (st : Settings) (env : Env) (task : Task) (w : World) :
    SameFunds w (refundTaskUsage st env task w) := by
  have htoken := (taskAdjustTokenQuota_frame st env task (-task.quota) w).sameFunds
  exact htoken.trans ((updateUserUsedQuota_sameFunds _ _).trans (updateChannelUsedQuota_sameFunds _ _))

theorem SameFunds.returnedTo (h : SameFunds w w') (w0 : World)
    (hpersonal : isOrganizationBilling (taskBillingRelayInfo task) = false) :
    returnedTo task w0 w' = returnedTo task w0 w := by
  simp [Billing.returnedTo, hpersonal, h.used, h.wallet]

theorem returnedTo_self (task : Task) (w : World) : returnedTo task w w = 0 := by
  unfold returnedTo
  split_ifs <;> omega

theorem taskAdjustFunding_returned (hpersonal : isOrganizationBilling (taskBillingRelayInfo task) = false)
    (hquota : task.quota ≠ 0) (htakes : TakesRefund st task w) :
    ∃ w', taskAdjustFunding st task (-task.quota) w = .ok w' ∧ returnedTo task w w' = task.quota := by
  unfold TakesRefund at htakes
  unfold taskAdjustFunding returnedTo
  simp only [hpersonal, Bool.false_eq_true, if_false]
  by_cases hsub : taskIsSubscription task = true
  · rw [if_pos hsub] at htakes
    simp only [if_pos hsub]
    obtain ⟨sub, hget, _⟩ := htakes
    have hused : w.amountUsed task.subscriptionId = sub.amountUsed := by
      rw [World.amountUsed, hget]
      rfl
    obtain ⟨w', hok, hmoved⟩ : ∃ w', postConsumeUserSubscriptionDelta w task.subscriptionId (-task.quota) = .ok w' ∧
        SubscriptionMoved w w' task.subscriptionId (-task.quota) :=
      postConsumeUserSubscriptionDelta_moved (by simp [hget]) (by omega)
    have hmoved := hmoved.used
    exact ⟨w', hok, by omega⟩
  · rw [if_neg hsub] at htakes
    simp only [if_neg hsub]
    obtain ⟨w', hok, hmoved⟩ : ∃ w', (if 0 < -task.quota then decreaseUserQuota st w task.userId (-task.quota)
        else increaseUserQuota st w task.userId (- -task.quota)) = .ok w' ∧
        WalletMoved st w w' task.userId (- -task.quota) := by
      obtain ⟨_, hbatch | ⟨u, hu, hroom⟩⟩ := htakes
      · refine ⟨w.recordUserQuota task.userId (- -task.quota), ?_, recordUserQuota_moved hbatch⟩
        unfold decreaseUserQuota increaseUserQuota
        split_ifs
        · omega
        · rfl
        · omega
        · omega
        · rfl
      · split_ifs with hneg
        · exact decreaseUserQuota_moved st hu (by omega)
        · refine increaseUserQuota_moved hu (by omega) (by omega) fun _ => ?_
          have := hroom (by omega)
          omega
    have hmoved := hmoved.wallet
    exact ⟨w', hok, by omega⟩

theorem taskAdjustFunding_not_returned (hpersonal : isOrganizationBilling (taskBillingRelayInfo task) = false)
    (hquota : task.quota ≠ 0) (htakes : ¬TakesRefund st task w)
    (hok : taskAdjustFunding st task (-task.quota) w = .ok w') :
    returnedTo task w w' ≠ task.quota := by
  unfold TakesRefund at htakes
  unfold taskAdjustFunding at hok
  unfold returnedTo
  simp only [hpersonal, Bool.false_eq_true, if_false]
  by_cases hsub : taskIsSubscription task = true
  · rw [if_pos hsub] at htakes hok ⊢
    unfold postConsumeUserSubscriptionDelta at hok
    split_ifs at hok with hid hzero
    · omega
    · cases hget : w.subscriptions.get? task.subscriptionId with
      | none =>
        rw [hget] at hok
        cases hok
      | some sub =>
        rw [hget] at hok
        cases hok
        have hless : ¬task.quota ≤ sub.amountUsed := fun hle => htakes ⟨sub, hget, hle⟩
        simp only [World.amountUsed, hget, Table.get?_modify_self, map_some, elim_some]
        rw [if_pos (by omega)]
        omega
  · rw [if_neg hsub] at htakes hok ⊢
    split_ifs at hok with hneg
    · unfold decreaseUserQuota at hok
      split_ifs at hok with hless hbatch
      · exact absurd ⟨by unfold maxWalletQuota; omega, .inl hbatch⟩ htakes
      · cases hok
        cases hu : w.users.get? task.userId with
        | none =>
          simp only [World.walletQuota, World.addUserQuota, Table.get?_modify_self, hu]
          simpa using Ne.symm hquota
        | some u => exact absurd ⟨by unfold maxWalletQuota; omega,
            .inr ⟨u, hu, fun hpos => absurd hpos (by omega)⟩⟩ htakes
    · unfold increaseUserQuota at hok
      split_ifs at hok with hless hmax hbatch
      · exact absurd ⟨by omega, .inl hbatch⟩ htakes
      · cases hu : w.users.get? task.userId with
        | none =>
          rw [hu] at hok
          cases hok
        | some u =>
          rw [hu] at hok
          dsimp only at hok
          split_ifs at hok with hroom
          exact absurd ⟨by omega, .inr ⟨u, hu, fun _ => by omega⟩⟩ htakes

/-! ## Calls one after the other -/

structure Refunded (taskId : Nat) (w₁ : TaskWorld) (task : Task) (w : TaskWorld) : Prop where
  world : w = w₁
  memory : task.quota = 0
  row : (w.tasks.get? taskId).map Task.quota = some 0

variable {w₁ : TaskWorld}

theorem Refunded.run {w : TaskWorld} (h : Refunded taskId w₁ task w) (call : RefundCall) :
    Refunded taskId w₁ (call.run st taskId task w).task (call.run st taskId task w).world := by
  have hzero : (if call.reloaded then (w.tasks.get? taskId).getD task else task).quota = 0 := by
    obtain ⟨row, hrow, hquota⟩ := map_eq_some_iff.mp h.row
    split_ifs
    · rw [hrow]
      exact hquota
    · exact h.memory
  unfold RefundCall.run refundTaskQuota
  rw [if_pos hzero]
  exact ⟨h.world, hzero, h.row⟩

theorem Refunded.calls (st : Settings) (calls : List RefundCall) :
    ∀ {task : Task} {w : TaskWorld}, Refunded taskId w₁ task w →
      Refunded taskId w₁ (refundCalls st taskId calls task w).1 (refundCalls st taskId calls task w).2 := by
  induction calls with
  | nil => exact fun h => h
  | cons call _ ih => exact fun h => ih (h.run call)

section First

variable {w : TaskWorld} {call : RefundCall}

/-- The first call sees the same task, whether it reads the row or not. -/
theorem RefundCall.run_first (hrow : w.tasks.get? taskId = some task) :
    call.run st taskId task w = refundTaskQuota st call.env taskId task w := by
  unfold RefundCall.run
  split_ifs
  · rw [hrow, getD_some]
  · rfl

theorem refundTaskQuota_personal (hpersonal : isOrganizationBilling (taskBillingRelayInfo task) = false)
    (hquota : task.quota ≠ 0) (htakes : TakesRefund st task w.toWorld) (hrow : w.tasks.get? taskId = some task) :
    let r := refundTaskQuota st env taskId task w
    Refunded taskId r.world r.task r.world ∧ returnedTo task w.toWorld r.world.toWorld = task.quota := by
  obtain ⟨w', hok, hreturned⟩ := taskAdjustFunding_returned hpersonal hquota htakes
  unfold refundTaskQuota
  rw [if_neg hquota, hpersonal, hok]
  refine ⟨⟨rfl, rfl, ?_⟩, ?_⟩
  · show ((w.tasks.modify taskId fun t => { t with quota := 0 }).get? taskId).map Task.quota = some 0
    rw [Table.get?_modify_self, hrow]
    rfl
  · exact ((refundTaskUsage_sameFunds st env task w').returnedTo w.toWorld hpersonal).trans hreturned

theorem refundTaskQuota_organization {w : TaskWorld}
    (horganization : isOrganizationBilling (taskBillingRelayInfo task) = true) (hquota : task.quota ≠ 0) :
    let r := refundTaskQuota st env taskId task w
    r.world.tasks = w.tasks ∧ (r.refunded = true ∨ r.world = w) := by
  unfold refundTaskQuota
  rw [if_neg hquota, if_pos horganization]
  cases refundTaskOrganizationQuota st env task w.toWorld with
  | error => exact ⟨rfl, .inr rfl⟩
  | ok => exact ⟨rfl, .inl rfl⟩

theorem refundTaskQuota_not_taken (hpersonal : isOrganizationBilling (taskBillingRelayInfo task) = false)
    (hquota : task.quota ≠ 0) (htakes : ¬TakesRefund st task w.toWorld) :
    returnedTo task w.toWorld (refundTaskQuota st env taskId task w).world.toWorld ≠ task.quota := by
  unfold refundTaskQuota
  rw [if_neg hquota, hpersonal]
  cases hok : taskAdjustFunding st task (-task.quota) w.toWorld with
  | error =>
    rw [if_neg Bool.false_ne_true]
    dsimp only
    rw [returnedTo_self]
    exact Ne.symm hquota
  | ok w' =>
    have hsame := (refundTaskUsage_sameFunds st env task w').returnedTo w.toWorld hpersonal
    exact fun h => taskAdjustFunding_not_returned hpersonal hquota htakes hok (hsame.symm.trans h)

end First

theorem taskRefundedOnce_nothing {w : TaskWorld} (hrow : w.tasks.get? taskId = some task) (hquota : task.quota = 0) :
    TaskRefundedOnce st taskId task w := by
  have hstart : Refunded taskId w task w := ⟨rfl, hquota, by rw [hrow, map_some, hquota]⟩
  refine ⟨fun call calls => ?_, fun calls call _ => ((hstart.calls st calls).run call).row⟩
  rw [(hstart.calls st (call :: calls)).world, returnedTo_self, hquota]

/-- A task is refunded once exactly when it has nothing to return, or when it is not an organization's and its source
takes the refund in full. -/
theorem task_refunded_once_iff {w : TaskWorld} (hrow : w.tasks.get? taskId = some task) :
    TaskRefundedOnce st taskId task w ↔
      task.quota = 0 ∨ (isOrganizationBilling (taskBillingRelayInfo task) = false ∧ TakesRefund st task w.toWorld) := by
  constructor
  · intro h
    by_contra hnot
    rw [not_or] at hnot
    obtain ⟨hquota, hnot⟩ := hnot
    let call : RefundCall := ⟨false, ⟨0, 0⟩⟩
    have hfirst : call.run st taskId task w = refundTaskQuota st call.env taskId task w := RefundCall.run_first hrow
    have hamount := h.amount call []
    have hcleared := h.cleared [] call
    simp only [refundCalls, hfirst] at hamount hcleared
    by_cases horganization : isOrganizationBilling (taskBillingRelayInfo task) = true
    · obtain ⟨htasks, hrefunded | hworld⟩ :=
        refundTaskQuota_organization horganization hquota
      · have hzero := hcleared hrefunded
        rw [htasks, hrow] at hzero
        exact hquota (Option.some.inj hzero)
      · rw [hworld, returnedTo_self] at hamount
        exact hquota hamount.symm
    · rw [Bool.not_eq_true] at horganization
      have htakes : ¬TakesRefund st task w.toWorld := fun htakes => hnot ⟨horganization, htakes⟩
      exact refundTaskQuota_not_taken horganization hquota htakes hamount
  · rintro (hquota | ⟨hpersonal, htakes⟩)
    · exact taskRefundedOnce_nothing hrow hquota
    by_cases hquota : task.quota = 0
    · exact taskRefundedOnce_nothing hrow hquota
    have hfirst (call : RefundCall) : let r := call.run st taskId task w
        Refunded taskId r.world r.task r.world ∧ returnedTo task w.toWorld r.world.toWorld = task.quota := by
      rw [RefundCall.run_first hrow]
      exact refundTaskQuota_personal hpersonal hquota htakes hrow
    refine ⟨fun call calls => ?_, fun calls call _ => ?_⟩
    · obtain ⟨hrefunded, hreturned⟩ := hfirst call
      have hrest := hrefunded.calls st calls
      rw [refundCalls, hrest.world]
      exact hreturned
    · cases calls with
      | nil => exact (hfirst call).1.row
      | cons first calls => exact (((hfirst first).1.calls st calls).run call).row

/-- A task of 40 that the wallet of user 1 paid for. -/
theorem task_refunded_once_wallet :
    let task : Task := { userId := 1, quota := 40 }
    let w : TaskWorld := { users := Table.empty.insert { quota := 60 }, tasks := Table.empty.insert task }
    TaskRefundedOnce {} 1 task w :=
  (task_refunded_once_iff rfl).mpr (.inr ⟨by decide, by decide, .inr ⟨{ quota := 60 }, rfl, by decide⟩⟩)

/-- A task of 40 that organization 1 paid for without a ledger session: two calls return 80. -/
theorem organization_task_refunded_twice :
    let task : Task :=
      { userId := 1, quota := 40, scopeType := .organization, scopeId := 1, billingAccountType := .organization,
        billingAccountId := 1, organizationId := 1 }
    let w : TaskWorld :=
      { organizations := Table.empty.insert { usedQuota := 100 }, tasks := Table.empty.insert task }
    let calls : List RefundCall := [⟨false, ⟨0, 0⟩⟩, ⟨true, ⟨0, 0⟩⟩]
    returnedTo task w.toWorld (refundCalls {} 1 calls task w).2.toWorld = 80 ∧ ¬TaskRefundedOnce {} 1 task w := by
  refine ⟨by decide, fun h => ?_⟩
  have hamount := h.amount ⟨false, ⟨0, 0⟩⟩ [⟨true, ⟨0, 0⟩⟩]
  exact absurd hamount (by decide)

end CubeRouter.Billing
