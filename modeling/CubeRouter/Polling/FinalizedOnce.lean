import CubeRouter.Lib.Pool
import CubeRouter.Polling.Tasks

/-!
# A task is finalized once

A visit that starts on a task which is not done in memory writes only over a row that is not done either. So a
row that is done stays so, and the visit that made it done is the only one that bills it. A pass that
visits the same task of its memory twice can start a visit on a task that is already done there; then the guard
of the write compares with a final status, and the task is billed again.
-/

namespace CubeRouter.Polling

open Relational Transition

variable {cfg : Config} {a : Answers} {task : Task} {row : Option Task}

/-! ## What a visit can do -/

/-- The visit has written nothing and will not bill, or it found the row with the status it had in memory, and
it bills only if the row is done now. -/
inductive VisitEffect (status : TaskStatus) (row : Option Task) (r : Visited) : Prop
  | nothing : r.row = row → r.final = none → VisitEffect status row r
  | written {stored new : Task} : row = some stored → stored.status = status → r.row = some new →
      (r.final.isSome → new.status.done = true) → VisitEffect status row r

variable {status : TaskStatus} {reason : String} {statusCode : Int} {snap : Task} {taskResult : TaskInfo}
  {id process object : Nat} {visit : Visit}

theorem visitEffect_of_update {r : Visited} (hrow : r.row = (updateWithStatus a row task status).2)
    (hfinal : r.final.isSome → (updateWithStatus a row task status).1 = .won ∧ task.status.done = true) :
    VisitEffect status row r := by
  rcases compareAndSet_cases Task.status a.dbError a.noopCounts row task status with ⟨hlost, hsame⟩ |
    ⟨_, hstored, hstatus, hnew, -⟩
  · refine .nothing (hrow.trans hsame) ?_
    cases hf : r.final with
    | none => rfl
    | some =>
      rw [hf] at hfinal
      exact absurd (hfinal rfl).1 hlost
  · exact .written hstored hstatus (hrow.trans hnew) fun h => (hfinal h).2

theorem failTaskFromPoll_effect : VisitEffect status row (failTaskFromPoll a task row status reason) := by
  unfold failTaskFromPoll
  simp only
  split
  · rename_i hupdate
    exact visitEffect_of_update (by rw [hupdate]) fun _ => ⟨by rw [hupdate], rfl⟩
  · rename_i hupdate
    exact visitEffect_of_update (by rw [hupdate]) fun h => nomatch h

theorem recordPollFailure_effect {cls : PollClass} {detail : String} :
    VisitEffect status row (recordPollFailure cfg a task row status cls statusCode detail) := by
  unfold recordPollFailure
  simp only
  split_ifs
  · exact failTaskFromPoll_effect
  · exact visitEffect_of_update rfl fun h => nomatch h

/-- A task that was not done is billed only over a write that is won. -/
theorem finishVideo_effect (hsnap : snap.status.done = false) :
    VisitEffect snap.status row (finishVideo a snap task row taskResult) := by
  unfold finishVideo
  by_cases hends : task.status.done = true ∧ snap.status ≠ task.status
  · rw [if_pos hends]
    split
    · rename_i hupdate
      exact visitEffect_of_update (by rw [hupdate]) fun _ => ⟨by rw [hupdate], hends.1⟩
    · rename_i hupdate
      exact visitEffect_of_update (by rw [hupdate]) fun h => nomatch h
  · have hdone : task.status.done = false := by
      by_contra hdone
      rw [Bool.not_eq_false] at hdone
      have hsame : snap.status = task.status := by
        by_contra hne
        exact hends ⟨hdone, hne⟩
      rw [hsame, hdone] at hsnap
      cases hsnap
    simp only [hdone]
    by_cases hequal : snap.snapshot = task.snapshot
    · exact .nothing (if_pos hequal) rfl
    · exact visitEffect_of_update (if_neg hequal) fun h => nomatch h

theorem applyVideoResult_effect (hsnap : snap.status.done = false) {redacted excerpt : String} :
    VisitEffect snap.status row (applyVideoResult cfg a snap task row statusCode redacted excerpt taskResult) := by
  unfold applyVideoResult
  split
  · exact recordPollFailure_effect
  · exact finishVideo_effect hsnap

theorem updateVideoSingleTask_effect (htask : task.status.done = false) {response : VideoResponse} :
    VisitEffect task.status row (updateVideoSingleTask cfg a task row response) := by
  unfold updateVideoSingleTask
  cases response with
  | transportError | unreadable => exact recordPollFailure_effect
  | answered _ parsed =>
    simp only
    split
    · exact failTaskFromPoll_effect
    · exact recordPollFailure_effect
    · exact recordPollFailure_effect
    · cases parsed with
      | envelope => exact applyVideoResult_effect htask
      | hook => exact applyVideoResult_effect htask
      | hookError => exact recordPollFailure_effect

theorem updateBatchItem_effect {item : BatchTaskResult} :
    VisitEffect task.status row (updateBatchItem cfg a task row statusCode item) := by
  unfold updateBatchItem
  simp only
  split
  · exact recordPollFailure_effect
  · split
    · rename_i hupdate
      refine visitEffect_of_update (by rw [hupdate]) fun h => ⟨by rw [hupdate], ?_⟩
      by_contra hdone
      simp [hdone] at h
    · rename_i hupdate
      exact visitEffect_of_update (by rw [hupdate]) fun h => nomatch h

theorem failAndRefundTask_effect {legacyReason : String} :
    VisitEffect task.status row (failAndRefundTask a task row reason legacyReason) := by
  unfold failAndRefundTask
  simp only
  split
  · rename_i hupdate
    exact visitEffect_of_update (by rw [hupdate]) fun _ => ⟨by rw [hupdate], rfl⟩
  · rename_i hupdate
    exact visitEffect_of_update (by rw [hupdate]) fun h => nomatch h

theorem Visit.effect (visit : Visit) (htask : task.status.done = false) :
    VisitEffect task.status row (visit.run cfg a task row) := by
  cases visit with
  | video response => exact updateVideoSingleTask_effect htask
  | batchItem statusCode item => exact updateBatchItem_effect
  | pollFailure => exact recordPollFailure_effect
  | fail => exact failTaskFromPoll_effect
  | failAndRefund => exact failAndRefundTask_effect

/-! ## What a step can do -/

def statusOf (s : State) (id : Nat) : Option TaskStatus := (s.tasks.get? id).map Task.status

/-- How often row `id` was billed or is about to be. -/
def finals (id : Nat) (s : State) : Nat :=
  s.due.countP (fun f => f.rowId = id) + s.performed.countP fun f => f.rowId = id

/-- The visit starts on a task that is not done in the memory of its process. -/
def Event.StartsUnfinished (s : State) : Event → Prop
  | .visit process object _ _ => ∀ o ∈ (s.objects process)[object]?, o.task.status.done = false
  | _ => True

instance (s : State) (e : Event) : Decidable (e.StartsUnfinished s) :=
  match e with
  | .visit process object _ _ =>
    inferInstanceAs (Decidable (∀ o ∈ (s.objects process)[object]?, o.task.status.done = false))
  | .read .. => .isTrue trivial
  | .bill .. => .isTrue trivial

inductive RowEffect (id : Nat) (s s' : State) : Prop
  | kept : statusOf s' id = statusOf s id → finals id s' = finals id s → RowEffect id s s'
  | written {old new : TaskStatus} : statusOf s id = some old → old.done = false → statusOf s' id = some new →
      (finals id s' = finals id s ∨ new.done = true ∧ finals id s' = finals id s + 1) → RowEffect id s s'

theorem writeQuota_statusOf {s : State} {f : Finalization} {action : BillingAction} :
    statusOf (writeQuota s f action) id = statusOf s id := by
  show (((s.tasks.modify f.rowId fun task => { task with quota := action.quotaAfter }).get? id).map Task.status) = _
  rw [Table.get?_modify]
  split_ifs
  · rw [Option.map_map]
    rfl
  · rfl

theorem bill_effect {s : State} {i : Nat} {writesQuota : Bool} :
    RowEffect id s (step cfg s (.bill i writesQuota)) := by
  simp only [step]
  split
  · exact .kept rfl rfl
  · rename_i f hf
    have hfinals : finals id { s with due := s.due.eraseIdx i, performed := f :: s.performed } = finals id s := by
      have hcount := Pool.countP_get (fun f => decide (f.rowId = id)) hf
      simp only [finals, List.countP_cons]
      omega
    split
    · split_ifs
      · exact .kept writeQuota_statusOf hfinals
      · exact .kept rfl hfinals
    · exact .kept rfl hfinals

variable {s : State} {e : Event}

theorem visit_effect (h : (Event.visit process object a visit).StartsUnfinished s) :
    RowEffect id s (step cfg s (.visit process object a visit)) := by
  simp only [step]
  split
  · exact .kept rfl rfl
  · rename_i o ho
    have heffect : VisitEffect o.task.status (s.tasks.get? o.rowId)
        (visit.run cfg a o.task (s.tasks.get? o.rowId)) := visit.effect (h o ho)
    generalize visit.run cfg a o.task (s.tasks.get? o.rowId) = r at heffect ⊢
    cases heffect with
    | nothing hrow hfinal =>
      refine .kept ?_ ?_
      · simp only [statusOf, hrow, setObjects]
        cases hget : s.tasks.get? o.rowId with
        | none => rfl
        | some =>
          simp only [Table.get?_modify]
          split_ifs with hid
          · rw [hid, hget]
            rfl
          · rfl
      · simp only [hfinal]
        rfl
    | @written stored new hget hstatus hrow hdone =>
      by_cases hid : id = o.rowId
      · subst hid
        have hold : statusOf s o.rowId = some stored.status := by
          rw [statusOf, hget]
          rfl
        have hunfinished : stored.status.done = false := by
          rw [hstatus]
          exact h o ho
        refine @RowEffect.written _ _ _ _ new.status hold hunfinished ?_ ?_
        · simp only [statusOf, hrow, setObjects, Table.get?_modify_self, hget]
          rfl
        · cases hf : r.final with
          | none => exact .inl (by simp [finals, setObjects])
          | some =>
            refine .inr ⟨hdone (by rw [hf]; rfl), ?_⟩
            simp [finals, setObjects]
            omega
      · refine .kept ?_ ?_
        · simp [statusOf, hrow, setObjects, Table.get?_modify_of_ne _ _ hid]
        · cases hf : r.final with
          | none => simp [finals, setObjects]
          | some => simp [finals, setObjects, Ne.symm hid]

theorem step_rowEffect (h : e.StartsUnfinished s) : RowEffect id s (step cfg s e) := by
  cases e with
  | read =>
    simp only [step]
    split
    · split_ifs
      · exact .kept rfl rfl
      · exact .kept rfl rfl
    · exact .kept rfl rfl
  | visit => exact visit_effect h
  | bill i writesQuota => exact bill_effect

/-! ## Runs -/

/-- At most one final billing, and none before the row is done. -/
structure FinalizedOnce (id : Nat) (s : State) : Prop where
  once : finals id s ≤ 1
  unfinished : ∀ status, statusOf s id = some status → status.done = false → finals id s = 0

theorem FinalizedOnce.step (h : FinalizedOnce id s) (he : e.StartsUnfinished s) :
    FinalizedOnce id (step cfg s e) := by
  have heffect : RowEffect id s (Polling.step cfg s e) := step_rowEffect he
  cases heffect with
  | kept hstatus hfinals =>
    refine ⟨hfinals ▸ h.once, fun status hget hdone => ?_⟩
    rw [hfinals]
    exact h.unfinished status (hstatus ▸ hget) hdone
  | @written old _ hold hunfinished hnew hfinals =>
    have hnone := h.unfinished old hold hunfinished
    rcases hfinals with hfinals | ⟨hdone, hfinals⟩
    · exact ⟨by omega, fun _ _ _ => by omega⟩
    · refine ⟨by omega, fun status hget hstatus => ?_⟩
      rw [hnew] at hget
      cases hget
      rw [hdone] at hstatus
      cases hstatus

/-- A row that is done, with its final billings. -/
def DoneAs (id : Nat) (status : TaskStatus) (n : Nat) (s : State) : Prop :=
  statusOf s id = some status ∧ status.done = true ∧ finals id s = n

theorem DoneAs.step {n : Nat} (h : DoneAs id status n s) (he : e.StartsUnfinished s) :
    DoneAs id status n (step cfg s e) := by
  obtain ⟨hget, hdone, hn⟩ := h
  have heffect : RowEffect id s (Polling.step cfg s e) := step_rowEffect he
  cases heffect with
  | kept hstatus hfinals => exact ⟨hstatus.trans hget, hdone, hfinals.trans hn⟩
  | written hold hunfinished =>
    rw [hget] at hold
    cases hold
    rw [hdone] at hunfinished
    cases hunfinished

theorem lost_visit_bills_nothing {o : Object}
    (ho : (s.objects process)[object]? = some o) (hunfinished : o.task.status.done = false)
    (hlost : statusOf s o.rowId ≠ some o.task.status) : (step cfg s (.visit process object a visit)).due = s.due := by
  have heffect : VisitEffect o.task.status (s.tasks.get? o.rowId)
      (visit.run cfg a o.task (s.tasks.get? o.rowId)) := visit.effect hunfinished
  simp only [step, ho]
  cases heffect with
  | nothing _ hfinal =>
    rw [hfinal]
    rfl
  | written hget hstatus =>
    rw [statusOf, hget] at hlost
    exact absurd (congrArg some hstatus) hlost

/-- **A task is finalized once.** Over every interleaving of processes that read, visit and bill tasks, in which no
visit starts on a task that is done already in the memory of its process: each row is billed at most once, a
row that is done keeps its status and is not billed again, and a visit whose write is lost bills nothing. -/
theorem finalized_once (cfg : Config) (s : State) (hdue : s.due = []) (hperformed : s.performed = [])
    (events : List Event) (hvisits : Along (step cfg) (fun s e => e.StartsUnfinished s) s events) (id : Nat) :
    finals id (run (step cfg) s events) ≤ 1 ∧
      (∀ done rest status, events = done ++ rest → statusOf (run (step cfg) s done) id = some status →
        status.done = true → statusOf (run (step cfg) s events) id = some status ∧
        finals id (run (step cfg) s events) = finals id (run (step cfg) s done)) ∧
      ∀ process object answers visit o, ((run (step cfg) s events).objects process)[object]? = some o →
        o.task.status.done = false → statusOf (run (step cfg) s events) o.rowId ≠ some o.task.status →
        (step cfg (run (step cfg) s events) (.visit process object answers visit)).due =
          (run (step cfg) s events).due := by
  have hstart : FinalizedOnce id s := by
    have hzero : finals id s = 0 := by simp [finals, hdue, hperformed]
    exact ⟨by omega, fun _ _ _ => hzero⟩
  refine ⟨?_, ?_, ?_⟩
  · have hend : FinalizedOnce id (run (step cfg) s events) :=
      run_invariant (fun _ _ h he => h.step he) hstart hvisits
    exact hend.once
  · intro done rest status hevents hstatus hdone
    subst hevents
    rw [run_append]
    have hthen : DoneAs id status (finals id (run (step cfg) s done)) (run (step cfg) s done) := ⟨hstatus, hdone, rfl⟩
    have hend : DoneAs id status (finals id (run (step cfg) s done))
        (run (step cfg) (run (step cfg) s done) rest) :=
      run_invariant (fun _ _ h he => h.step he) hthen (along_append.mp hvisits).2
    exact ⟨hend.1, hend.2.2⟩
  · intro process object answers visit o ho hunfinished hlost
    exact lost_visit_bills_nothing ho hunfinished hlost

/-! A channel with two tasks. Both processes have read the first one, and the upstream answers both with 404. -/

def twinTask (quota : Int) : Task :=
  { taskID := "t", platform := "suno", channelId := 1, quota, status := .inProgress, progress := "30%",
    submitTime := 1800000000, upstreamTaskID := "X" }

def twins : State := { tasks := (Table.empty.insert (twinTask 300)).insert (twinTask 500) }

def notFoundAnswers : Answers := { now := 1800000100 }

def singlePolls : List Event :=
  [.read 0 1, .read 1 1, .visit 1 0 notFoundAnswers (.fail (notFoundReason 404)), .bill 0 true,
    .visit 0 0 notFoundAnswers (.fail (notFoundReason 404))]

theorem finalized_once_single : (run (step {}) twins singlePolls).performed = [⟨1, 0, 1, some .refund⟩] ∧
      finals 1 (run (step {}) twins singlePolls) ≤ 1 := by
  refine ⟨by decide +kernel, ?_⟩
  exact (finalized_once {} twins rfl rfl singlePolls (by decide +kernel) 1).1

/-! Both have read the two tasks, which have the same upstream id: each process visits the second task twice,
and bills what a visit owes before the next one. -/

def readTwins (process : Nat) : List Event := [.read process 1, .read process 2]

/-- The visits of a process to the channel of the twins. -/
def failTwins (process : Nat) : List Event :=
  failTasksFromPoll process (channelTasks ((run (step {}) twins (readTwins process)).objects process) "suno" 1)
    notFoundAnswers (notFoundReason 404)

def twinPolls : List Event :=
  readTwins 0 ++ readTwins 1 ++ (failTwins 1 ++ failTwins 0).flatMap fun e => [e, .bill 0 true]

theorem twin_task_refunded_twice : twins.due = [] ∧ twins.performed = [] ∧
      failTwins 0 = [.visit 0 1 notFoundAnswers (.fail (notFoundReason 404)),
        .visit 0 1 notFoundAnswers (.fail (notFoundReason 404))] ∧
      statusOf (run (step {}) twins (readTwins 0 ++ readTwins 1)) 2 = some .inProgress ∧
      (run (step {}) twins twinPolls).performed =
        [⟨0, 1, 2, some .refund⟩, ⟨1, 1, 2, none⟩, ⟨1, 1, 2, some .refund⟩] := by
  refine ⟨rfl, rfl, ?_, ?_, ?_⟩
  all_goals decide +kernel

end CubeRouter.Polling
