import CubeRouter.Lib.Pool
import CubeRouter.Polling.Midjourney
import Mathlib.Algebra.BigOperators.Group.List.Basic

/-!
# When a failed Midjourney task is refunded once

Only a polling update that is won gives the quota back. So the quota goes back once for each task that has failed,
and never for another, in every run in which the writers without a guard leave it as it is whether the task has
failed, and in which the guard of the polling update can tell a task that has failed from one that has not.
-/

namespace CubeRouter.Midjourney

open Relational Transition List Option

/-! ## The statement -/

def rowFailed (t : Nat) (s : State) : Bool := (s.tasks.get? t).any Midjourney.failed

/-- How often the quota of task `t` went back. -/
def givens (t : Nat) (s : State) : Nat := s.given.countP fun g => g.rowId = t

/-- The refunds of task `t` that are still to be made. -/
def dues (t : Nat) (s : State) : Nat := s.due.countP fun f => f.rowId = t

/-- All that went back to the wallet of user `u`. -/
def givenTo (u : Nat) (s : State) : Int := (s.given.map fun g => if g.userId = u then g.quota else 0).sum

/-- A step that is safe for task `t`: a bulk failure meets only a task that has failed, a callback fails a task
exactly if it has failed already, a polling update that still finds the status it has read finds a task that has not
failed and gives back only with the status `FAILURE`, and a refund can change the wallet. -/
def Event.Careful (t : Nat) (s : State) : Event → Prop
  | .failNullTasks process => t ∈ nullTaskIds (s.objects process) → rowFailed t s = true
  | .failChannelTasks process channelId =>
    ∀ row ∈ s.tasks.get? t, row.mjId ∈ taskChannelM (s.objects process) channelId → row.failed = true
  | .updateTask process a item =>
    ∀ x ∈ findTask (s.objects process) item.mjId, x.2.rowId = t → ∀ row ∈ s.tasks.get? t,
      row.status = x.2.task.status → checkMjTaskNeedUpdate x.2.task (withTimeout a.now x.2.task item) = true →
      row.failed = false ∧ ((withTimeout a.now x.2.task item).fails = true →
        (withTimeout a.now x.2.task item).status = "FAILURE")
  | .refund i walletError => ∀ f ∈ s.due[i]?, f.rowId = t → walletError = false
  | .notifySave i =>
    ∀ c ∈ s.callbacks[i]?, c.rowId = t → (applyNotify c.task c.request).failed = rowFailed t s
  | _ => True

instance (t : Nat) (s : State) (e : Event) : Decidable (e.Careful t s) :=
  match e with
  | .failNullTasks process => inferInstanceAs (Decidable (t ∈ nullTaskIds (s.objects process) → _))
  | .failChannelTasks _ _ => inferInstanceAs (Decidable (∀ row ∈ s.tasks.get? t, _))
  | .updateTask process _ item =>
    inferInstanceAs (Decidable (∀ x ∈ findTask (s.objects process) item.mjId, _ → ∀ row ∈ s.tasks.get? t, _))
  | .refund i _ => inferInstanceAs (Decidable (∀ f ∈ s.due[i]?, _))
  | .notifySave i => inferInstanceAs (Decidable (∀ c ∈ s.callbacks[i]?, _))
  | .read .. => .isTrue trivial
  | .notifyRead .. => .isTrue trivial

/-- Task `t` of user `u` was charged `q`, and nobody has looked at it yet. -/
structure Charged (t u : Nat) (q : Int) (s : State) : Prop where
  row : ∃ row, s.tasks.get? t = some row ∧ row.userId = u ∧ row.organization = false ∧ row.quota = q ∧
    row.failed = false
  objects : ∀ p, ∀ o ∈ s.objects p, o.rowId ≠ t
  due : ∀ f ∈ s.due, f.rowId ≠ t
  callbacks : ∀ c ∈ s.callbacks, c.rowId ≠ t
  given : ∀ g ∈ s.given, g.rowId ≠ t
  linked : ∀ f ∈ s.due, ∃ o, (s.objects f.process)[f.object]? = some o ∧ o.rowId = f.rowId

variable {t u : Nat} {q : Int} {s : State}

/-! ## The invariant -/

/-- A copy of the task in some memory: it has the quota unless the task has failed. -/
def Copy (u : Nat) (q : Int) (failed : Bool) (task : Midjourney) : Prop :=
  task.userId = u ∧ task.organization = false ∧ (task.quota = q ∨ failed = true)

structure Tracked (t u : Nat) (q : Int) (s : State) : Prop where
  row : ∃ row, s.tasks.get? t = some row ∧ row.userId = u ∧ row.organization = false ∧
    (row.failed = false → row.quota = q)
  count : givens t s + dues t s = if rowFailed t s then 1 else 0
  objects : ∀ p, ∀ o ∈ s.objects p, o.rowId = t → Copy u q (rowFailed t s) o.task
  callbacks : ∀ c ∈ s.callbacks, c.rowId = t → Copy u q (rowFailed t s) c.task
  due : ∀ f ∈ s.due, f.rowId = t → f.task.userId = u ∧ f.task.organization = false ∧ f.task.quota = q
  given : ∀ g ∈ s.given, g.rowId = t → g.userId = u ∧ g.quota = q
  linked : ∀ f ∈ s.due, ∃ o, (s.objects f.process)[f.object]? = some o ∧ o.rowId = f.rowId

variable {row task : Midjourney} {process i p : Nat} {o new : Object} {f : Refund} {item : MidjourneyDto}

theorem rowFailed_eq (h : s.tasks.get? t = some row) : rowFailed t s = row.failed := by
  rw [rowFailed, h, any_some]

theorem Tracked.start (h : Charged t u q s) : Tracked t u q s := by
  obtain ⟨row, hget, huser, horg, hquota, hfailed⟩ := h.row
  refine ⟨⟨row, hget, huser, horg, fun _ => hquota⟩, ?_, fun p o ho ht => absurd ht (h.objects p o ho),
    fun c hc ht => absurd ht (h.callbacks c hc), fun f hf ht => absurd ht (h.due f hf),
    fun g hg ht => absurd ht (h.given g hg), h.linked⟩
  rw [rowFailed_eq hget, hfailed, givens, dues, countP_eq_zero.mpr, countP_eq_zero.mpr]
  · rfl
  · intro f hf
    simpa using h.due f hf
  · intro g hg
    simpa using h.given g hg

variable {tasks : Table Midjourney} {k j rowId : Nat} {walletError b : Bool} {a : Answers} {mjId : String} {e : Event}

theorem Tracked.rows (h : Tracked t u q s) (hget : tasks.get? t = some row)
    (huser : row.userId = u) (horg : row.organization = false) (hquota : row.failed = false → row.quota = q)
    (hfailed : row.failed = rowFailed t s) : Tracked t u q { s with tasks } := by
  have hsame : rowFailed t { s with tasks } = rowFailed t s := (rowFailed_eq hget).trans hfailed
  refine ⟨⟨row, hget, huser, horg, hquota⟩, ?_, ?_, ?_, h.due, h.given, h.linked⟩
  · rw [hsame]
    exact h.count
  · rw [hsame]
    exact h.objects
  · rw [hsame]
    exact h.callbacks

/-! ## Steps -/

theorem Tracked.read (h : Tracked t u q s) (process rowId : Nat) : Tracked t u q (step s (.read process rowId)) := by
  simp only [step]
  split
  · rename_i task htask
    split_ifs with hprogress
    · refine ⟨h.row, h.count, ?_, h.callbacks, h.due, h.given, ?_⟩
      · intro p o ho ht
        simp only [setObjects] at ho
        split_ifs at ho with hp
        · rcases mem_append.mp ho with hold | hnew
          · exact h.objects process o hold ht
          · obtain rfl := mem_singleton.mp hnew
            obtain ⟨row, hget, huser, horg, hquota⟩ := h.row
            obtain rfl : rowId = t := ht
            obtain rfl : task = row := mem_unique htask hget
            refine ⟨huser, horg, .inl (hquota ?_)⟩
            simp [Midjourney.failed, hprogress]
        · exact h.objects p o ho ht
      · intro f hf
        obtain ⟨o, ho, hrow⟩ := h.linked f hf
        refine ⟨o, ?_, hrow⟩
        simp only [setObjects]
        split_ifs with hp
        · rw [hp] at ho
          rw [List.getElem?_append_left (List.getElem?_eq_some_iff.mp ho).1, ho]
        · exact ho
    · exact h
  · exact h

theorem Tracked.failNullTasks (h : Tracked t u q s) (hcareful : (Event.failNullTasks process).Careful t s) :
    Tracked t u q (step s (.failNullTasks process)) := by
  obtain ⟨row, hget, huser, horg, hquota⟩ := h.row
  by_cases ht : t ∈ nullTaskIds (s.objects process)
  · have hget' : (s.tasks.updateIds (nullTaskIds (s.objects process)) fun row =>
        { row with status := "FAILURE", progress := "100%" }).get? t =
        some { row with status := "FAILURE", progress := "100%" } := by
      rw [Table.get?_updateIds, if_pos ht, hget]
      rfl
    refine h.rows hget' huser horg ?_ ?_
    · intro hfailed
      exact absurd hfailed (by simp [Midjourney.failed])
    · rw [hcareful ht]
      simp [Midjourney.failed]
  · refine h.rows ?_ huser horg hquota (rowFailed_eq hget).symm
    rw [Table.get?_updateIds, if_neg ht, hget]

theorem Tracked.failChannelTasks {channelId : Nat} (h : Tracked t u q s)
    (hcareful : (Event.failChannelTasks process channelId).Careful t s) :
    Tracked t u q (step s (.failChannelTasks process channelId)) := by
  obtain ⟨row, hget, huser, horg, hquota⟩ := h.row
  by_cases ht : row.mjId ∈ taskChannelM (s.objects process) channelId
  · have hfailed : rowFailed t s = true := (rowFailed_eq hget).trans (hcareful row hget ht)
    have hget' : (s.tasks.updateWhere (fun row => row.mjId ∈ taskChannelM (s.objects process) channelId) fun row =>
        { row with failReason := channelFailReason channelId, status := "FAILURE", progress := "100%" }).get? t =
        some { row with failReason := channelFailReason channelId, status := "FAILURE", progress := "100%" } := by
      rw [Table.get?_updateWhere, hget]
      simp [ht]
    refine h.rows hget' huser horg ?_ ?_
    · intro hnot
      exact absurd hnot (by simp [Midjourney.failed])
    · rw [hfailed]
      simp [Midjourney.failed]
  · refine h.rows ?_ huser horg hquota (rowFailed_eq hget).symm
    rw [Table.get?_updateWhere, hget]
    simp [ht]

theorem Tracked.notifyRead {request : MidjourneyDto} (h : Tracked t u q s) :
    Tracked t u q (step s (.notifyRead request)) := by
  simp only [step]
  split
  · exact h
  · rename_i id task hfind
    refine ⟨h.row, h.count, h.objects, ?_, h.due, h.given, h.linked⟩
    intro c hc ht
    rcases mem_cons.mp hc with rfl | hold
    · obtain ⟨row, hget, huser, horg, hquota⟩ := h.row
      obtain rfl : id = t := ht
      obtain rfl : task = row := Option.some.inj ((Table.find?_some hfind).1.symm.trans hget)
      refine ⟨huser, horg, ?_⟩
      show task.quota = q ∨ rowFailed id s = true
      rw [rowFailed_eq hget]
      cases hfailed : task.failed with
      | false => exact .inl (hquota hfailed)
      | true => exact .inr rfl
    · exact h.callbacks c hold ht

theorem Tracked.notifySave (h : Tracked t u q s) (hcareful : (Event.notifySave i).Careful t s) :
    Tracked t u q (step s (.notifySave i)) := by
  simp only [step]
  split
  · exact h
  · rename_i c hc
    have hshorter : Tracked t u q { s with callbacks := s.callbacks.eraseIdx i } :=
      ⟨h.row, h.count, h.objects, fun c hc => h.callbacks c (mem_of_mem_eraseIdx hc), h.due, h.given, h.linked⟩
    obtain ⟨row, hget, huser, horg, hquota⟩ := h.row
    by_cases ht : c.rowId = t
    · obtain ⟨huser', horg', hquota'⟩ := h.callbacks c (mem_of_getElem? hc) ht
      have hfailed : (applyNotify c.task c.request).failed = rowFailed t s := hcareful c hc ht
      have hget' : (s.tasks.modify c.rowId fun _ => applyNotify c.task c.request).get? t =
          some (applyNotify c.task c.request) := by
        rw [ht, Table.get?_modify_self, hget]
        rfl
      refine hshorter.rows hget' huser' horg' ?_ hfailed
      intro hnot
      rw [hfailed] at hnot
      exact hquota'.resolve_right (by simp [hnot])
    · refine hshorter.rows ?_ huser horg hquota (rowFailed_eq hget).symm
      rw [Table.get?_modify_of_ne _ _ (Ne.symm ht), hget]

theorem mem_zeroed (h : o ∈ (setObjects s process ((s.objects process).modify k Object.zeroQuota)).objects p) :
    o ∈ s.objects p ∨ ∃ o', (s.objects process)[k]? = some o' ∧ p = process ∧ o = o'.zeroQuota := by
  simp only [setObjects] at h
  split_ifs at h with hp
  · obtain ⟨j, hj⟩ := mem_iff_getElem?.mp h
    rw [getElem?_modify] at hj
    obtain ⟨o', ho', heq⟩ := map_eq_some_iff.mp hj
    split_ifs at heq with hk
    · subst hk
      exact .inr ⟨o', ho', hp, heq.symm⟩
    · subst heq
      exact .inl (hp ▸ mem_of_getElem? ho')
  · exact .inl h

theorem linked_zeroed (h : ∃ o, (s.objects p)[j]? = some o ∧ o.rowId = rowId) :
    ∃ o, ((setObjects s process ((s.objects process).modify k Object.zeroQuota)).objects p)[j]? = some o ∧
      o.rowId = rowId := by
  obtain ⟨o, ho, hrow⟩ := h
  simp only [setObjects]
  split_ifs with hp
  · subst hp
    rw [getElem?_modify, ho]
    by_cases hk : k = j
    · exact ⟨o.zeroQuota, by simp [hk], hrow⟩
    · exact ⟨o, by simp [hk], hrow⟩
  · exact ⟨o, ho, hrow⟩

theorem Tracked.drop (h : Tracked t u q s) (hf : s.due[i]? = some f) (ht : f.rowId ≠ t) :
    Tracked t u q { s with due := s.due.eraseIdx i } := by
  have hcount := Pool.countP_get (fun f => decide (f.rowId = t)) hf
  have hdue : ∀ f ∈ s.due.eraseIdx i, f ∈ s.due := fun f hf => mem_of_mem_eraseIdx hf
  refine ⟨h.row, ?_, h.objects, h.callbacks, fun f hf => h.due f (hdue f hf), h.given,
    fun f hf => h.linked f (hdue f hf)⟩
  have htotal := h.count
  simp only [ht] at hcount
  rw [dues, hcount] at htotal
  exact htotal

theorem Tracked.refunded (h : Tracked t u q s) (hf : s.due[i]? = some f) (ht : f.rowId = t) :
    Tracked t u q (refundMidjourneyQuota { s with due := s.due.eraseIdx i } f false) := by
  have hmem : f ∈ s.due := mem_of_getElem? hf
  have hcount := Pool.countP_get (fun f => decide (f.rowId = t)) hf
  simp only [ht, decide_true, if_true] at hcount
  obtain ⟨row, hget, huser, horg, _⟩ := h.row
  obtain ⟨hfuser, hforg, hfquota⟩ := h.due f hmem ht
  have htotal := h.count
  have hfailed : rowFailed t s = true := by
    by_contra hnot
    rw [if_neg hnot, dues] at htotal
    omega
  rw [if_pos hfailed, dues] at htotal
  unfold refundMidjourneyQuota
  rw [if_neg (by simp [hforg])]
  have hget' : (s.tasks.modify f.rowId f.updateBillingState).get? t = some (f.updateBillingState row) := by
    rw [ht, Table.get?_modify_self, hget]
    rfl
  have hrow : (f.updateBillingState row).failed = true := (rowFailed_eq hget).symm.trans hfailed
  have hdue : ∀ f ∈ s.due.eraseIdx i, f ∈ s.due := fun f hf => mem_of_mem_eraseIdx hf
  generalize hR : setObjects _ f.process ((s.objects f.process).modify f.object Object.zeroQuota) = R
  have hstill : rowFailed t R = true := by
    subst hR
    exact (rowFailed_eq hget').trans hrow
  refine ⟨⟨f.updateBillingState row, by subst hR; exact hget', huser, horg, fun hnot => ?_⟩, ?_, ?_, ?_, ?_, ?_, ?_⟩
  · rw [hrow] at hnot
    cases hnot
  · rw [hstill]
    subst hR
    simp only [givens, dues, setObjects, countP_cons, ht, decide_true]
    rw [givens] at htotal
    omega
  · intro p o ho hot
    rw [hstill]
    subst hR
    rcases mem_zeroed ho with hold | ⟨o', ho', rfl, rfl⟩
    · obtain ⟨houser, hoorg, -⟩ := h.objects p o hold hot
      exact ⟨houser, hoorg, .inr rfl⟩
    · obtain ⟨houser, hoorg, -⟩ := h.objects _ o' (mem_of_getElem? ho') hot
      exact ⟨houser, hoorg, .inr rfl⟩
  · intro c hc hct
    rw [hstill]
    subst hR
    obtain ⟨hcuser, hcorg, -⟩ := h.callbacks c hc hct
    exact ⟨hcuser, hcorg, .inr rfl⟩
  · subst hR
    exact fun f hf => h.due f (hdue f hf)
  · subst hR
    intro g hg hgt
    rcases mem_cons.mp hg with rfl | hold
    · exact ⟨hfuser, hfquota⟩
    · exact h.given g hold hgt
  · subst hR
    intro f' hf'
    exact linked_zeroed (h.linked f' (hdue f' hf'))

theorem Tracked.refundedOther (h : Tracked t u q s) (hf : s.due[i]? = some f) (ht : f.rowId ≠ t) :
    Tracked t u q (refundMidjourneyQuota { s with due := s.due.eraseIdx i } f walletError) := by
  have hdrop := h.drop hf ht
  unfold refundMidjourneyQuota
  split_ifs
  · exact hdrop
  · obtain ⟨row, hget, huser, horg, hquota⟩ := h.row
    have hget' : (s.tasks.modify f.rowId f.updateBillingState).get? t = some row := by
      rw [Table.get?_modify_of_ne _ _ (Ne.symm ht), hget]
    obtain ⟨o', ho', hrow'⟩ := h.linked f (mem_of_getElem? hf)
    have hrows := hdrop.rows hget' huser horg hquota (rowFailed_eq hget).symm
    refine ⟨hrows.row, ?_, ?_, hrows.callbacks, hrows.due, ?_, ?_⟩
    · have hother : givens t { s with given := ⟨f.rowId, f.task.userId, f.task.quota⟩ :: s.given } = givens t s := by
        simp [givens, ht]
      exact (congrArg (· + _) hother).trans hrows.count
    · intro p o ho hot
      rcases mem_zeroed ho with hold | ⟨o2, ho2, rfl, rfl⟩
      · exact hrows.objects p o hold hot
      · obtain rfl : o2 = o' := mem_unique ho2 ho'
        exact absurd (hrow'.symm.trans hot) ht
    · intro g hg hgt
      rcases mem_cons.mp hg with rfl | hold
      · exact absurd hgt ht
      · exact h.given g hold hgt
    · intro f' hf'
      exact linked_zeroed (hdrop.linked f' hf')

theorem Tracked.refund (h : Tracked t u q s)
    (hcareful : (Event.refund i walletError).Careful t s) : Tracked t u q (step s (.refund i walletError)) := by
  simp only [step]
  split
  · exact h
  · rename_i f hf
    by_cases ht : f.rowId = t
    · rw [hcareful f hf ht]
      exact h.refunded hf ht
    · exact h.refundedOther hf ht

/-! ## The polling update -/

theorem updateTask_keeps {row : Option Midjourney} : (updateTask a task row item).task.userId = task.userId ∧
      (updateTask a task row item).task.organization = task.organization ∧
      (updateTask a task row item).task.quota = task.quota := by
  unfold updateTask
  simp only
  split
  · exact ⟨rfl, rfl, rfl⟩
  · split_ifs <;> exact ⟨rfl, rfl, rfl⟩

theorem failed_of_fails (hstatus : item.status = "FAILURE") : (applyItem task item).complete.failed = true := by
  simp [Midjourney.failed, Midjourney.complete, applyItem, hstatus]

theorem not_failed_of_not_fails (h : item.fails = false) : (applyItem task item).failed = false := by
  simp only [MidjourneyDto.fails, decide_eq_false_iff_not, not_or] at h
  rw [Midjourney.failed, decide_eq_false_iff_not]
  rintro ⟨hstatus, hprogress⟩
  exact h.2 ⟨hprogress, hstatus⟩

/-- The update writes nothing, or it finds the status it has read; then the row has failed if the answer says so,
and the quota is given back if it had not failed before. -/
theorem updateTask_cases {row : Option Midjourney} :
    ((updateTask a task row item).row = row ∧ (updateTask a task row item).refunds = false) ∨
      ∃ stored, row = some stored ∧ stored.status = task.status ∧
        checkMjTaskNeedUpdate task (withTimeout a.now task item) = true ∧
        (updateTask a task row item).row = some (updateTask a task row item).task ∧
        ((withTimeout a.now task item).fails = false →
          (updateTask a task row item).task.failed = false ∧ (updateTask a task row item).refunds = false) ∧
        ((withTimeout a.now task item).fails = true → (withTimeout a.now task item).status = "FAILURE" →
          (updateTask a task row item).task.failed = true ∧
          (stored.failed = false → task.quota ≠ 0 → (updateTask a task row item).refunds = true)) := by
  unfold updateTask
  generalize withTimeout a.now task item = item'
  by_cases hneed : checkMjTaskNeedUpdate task item' = true
  · rw [if_neg (not_not.mpr hneed)]
    cases hfails : item'.fails with
    | true =>
      simp only [if_true]
      rcases compareAndSet_cases Midjourney.status a.dbError a.noopCounts row (applyItem task item').complete
        task.status with ⟨hlost, hsame⟩ | ⟨stored, hrow, hstatus, hnew, hwon⟩
      · exact .inl ⟨hsame, by simp [hlost]⟩
      · refine .inr ⟨stored, hrow, hstatus, hneed, hnew, fun h => (nomatch h), fun _ hfailure => ?_⟩
        have hfailed : (applyItem task item').complete.failed = true := failed_of_fails hfailure
        refine ⟨hfailed, fun hstored hquota => ?_⟩
        have hne : stored ≠ (applyItem task item').complete := by
          rintro rfl
          rw [hfailed] at hstored
          cases hstored
        rw [hwon hne]
        simp [applyItem, Midjourney.complete, hquota]
    | false =>
      simp only [Bool.false_and, Bool.and_false]
      rcases compareAndSet_cases Midjourney.status a.dbError a.noopCounts row (applyItem task item') task.status
        with ⟨-, hsame⟩ | ⟨stored, hrow, hstatus, hnew, -⟩
      · exact .inl ⟨hsame, trivial⟩
      · refine .inr ⟨stored, hrow, hstatus, hneed, hnew, fun _ => ⟨not_failed_of_not_fails hfails, trivial⟩, ?_⟩
        exact fun h => nomatch h
  · rw [if_pos hneed]
    exact .inl ⟨rfl, rfl⟩

theorem findTask_some {objects : List Object} (h : findTask objects mjId = some (i, o)) : objects[i]? = some o := by
  obtain ⟨j, -, hj⟩ := bind_eq_some_iff.mp h
  obtain ⟨_, ho', heq⟩ := map_eq_some_iff.mp hj
  cases heq
  exact ho'

theorem mem_updated (h : o ∈ (setObjects s process ((s.objects process).set i new)).objects p) :
    o ∈ s.objects p ∨ o = new := by
  simp only [setObjects] at h
  split_ifs at h with hp
  · rw [hp]
    exact mem_or_eq_of_mem_set h
  · exact .inl h

theorem linked_updated (hi : (s.objects process)[i]? = some o) (hnew : new.rowId = o.rowId)
    (h : ∃ o, (s.objects p)[j]? = some o ∧ o.rowId = rowId) :
    ∃ o, ((setObjects s process ((s.objects process).set i new)).objects p)[j]? = some o ∧ o.rowId = rowId := by
  obtain ⟨o', ho', hrow⟩ := h
  simp only [setObjects]
  split_ifs with hp
  · subst hp
    by_cases hj : i = j
    · subst hj
      obtain rfl : o = o' := mem_unique hi ho'
      refine ⟨new, ?_, hnew.trans hrow⟩
      rw [List.getElem?_set_self (List.getElem?_eq_some_iff.mp ho').1]
    · exact ⟨o', by rw [getElem?_set_ne hj, ho'], hrow⟩
  · exact ⟨o', ho', hrow⟩

theorem Copy.mono {b' : Bool} (h : Copy u q b task) (hb : b = true → b' = true) : Copy u q b' task :=
  ⟨h.1, h.2.1, h.2.2.imp_right hb⟩

theorem Copy.updated {row : Option Midjourney} (h : Copy u q b task) :
    Copy u q b (updateTask a task row item).task := by
  obtain ⟨huser, horg, hquota⟩ := updateTask_keeps
  rw [Copy, huser, horg, hquota]
  exact h

theorem Tracked.visited {refunds : Bool} (h : Tracked t u q s)
    (hi : (s.objects process)[i]? = some o) (hnew : new.rowId = o.rowId) (hget : tasks.get? t = some row)
    (huser : row.userId = u) (horg : row.organization = false) (hquota : row.failed = false → row.quota = q)
    (hmono : rowFailed t s = true → row.failed = true) (hcopy : o.rowId = t → Copy u q row.failed new.task)
    (hrefunds : o.rowId = t → refunds = true → new.task.quota = q)
    (hcount : givens t s + dues t s + (if refunds = true ∧ o.rowId = t then 1 else 0) = if row.failed then 1 else 0) :
    Tracked t u q { setObjects s process ((s.objects process).set i new) with
      tasks
      due := if refunds then ⟨process, i, o.rowId, new.task⟩ :: s.due else s.due } := by
  have hfailed : ∀ s' : State, s'.tasks = tasks → rowFailed t s' = row.failed := by
    intro s' hs'
    exact rowFailed_eq (hs' ▸ hget)
  refine ⟨⟨row, hget, huser, horg, hquota⟩, ?_, ?_, ?_, ?_, h.given, ?_⟩
  · rw [hfailed _ rfl, ← hcount]
    simp only [givens, dues, setObjects]
    cases refunds with
    | false => simp
    | true => simp [countP_cons, Nat.add_assoc]
  · intro p o' ho' ht
    rw [hfailed _ rfl]
    rcases mem_updated ho' with hold | rfl
    · exact (h.objects p o' hold ht).mono hmono
    · exact hcopy (hnew.symm.trans ht)
  · intro c hc ht
    rw [hfailed _ rfl]
    exact (h.callbacks c hc ht).mono hmono
  · intro f hf ht
    cases refunds with
    | false => exact h.due f hf ht
    | true =>
      rcases mem_cons.mp hf with rfl | hold
      · obtain ⟨hcuser, hcorg, -⟩ := hcopy ht
        exact ⟨hcuser, hcorg, hrefunds ht rfl⟩
      · exact h.due f hold ht
  · intro f hf
    have hplace : ∃ o, (s.objects f.process)[f.object]? = some o ∧ o.rowId = f.rowId := by
      cases refunds with
      | false => exact h.linked f hf
      | true =>
        rcases mem_cons.mp hf with rfl | hold
        · exact ⟨o, hi, rfl⟩
        · exact h.linked f hold
    exact linked_updated hi hnew hplace

theorem Tracked.updateTask (hq : q ≠ 0) (h : Tracked t u q s)
    (hcareful : (Event.updateTask process a item).Careful t s) :
    Tracked t u q (step s (.updateTask process a item)) := by
  simp only [step]
  split
  · exact h
  · rename_i i o hfind
    have hi := findTask_some hfind
    obtain ⟨row, hget, huser, horg, hquota⟩ := h.row
    have htotal := h.count
    have hfailed := rowFailed_eq hget
    rw [hfailed] at htotal
    by_cases ht : o.rowId = t
    · have hcopy : Copy u q (rowFailed t s) o.task := h.objects process o (mem_of_getElem? hi) ht
      have hget' : s.tasks.get? o.rowId = some row := by rw [ht, hget]
      have hwritten : ∀ new, (s.tasks.modify o.rowId fun _ => new).get? t = some new := by
        intro new
        rw [ht, Table.get?_modify_self, hget]
        rfl
      rcases updateTask_cases with
        ⟨hrow, hrefunds⟩ | ⟨stored, hstored, hstatus, hneed, hrow, hnot, hfails⟩
      · -- the row stays as it is
        rw [hrow, hrefunds, hget']
        refine h.visited hi rfl (hwritten row) huser horg hquota (fun hb => hfailed.symm.trans hb) ?_
          (fun _ h => nomatch h) (by simpa using htotal)
        intro _
        rw [← hfailed]
        exact hcopy.updated
      · -- the guard has found a task that has not failed
        obtain rfl : row = stored := mem_unique hget' hstored
        obtain ⟨hunfailed, hfailure⟩ := hcareful (i, o) hfind ht row hget hstatus hneed
        rw [hfailed, hunfailed] at hcopy
        rw [hunfailed] at htotal hfailed
        have hnew : Copy u q false (Midjourney.updateTask a o.task (s.tasks.get? o.rowId) item).task := hcopy.updated
        have hsame : (Midjourney.updateTask a o.task (s.tasks.get? o.rowId) item).task.quota = q :=
          hnew.2.2.resolve_right Bool.false_ne_true
        have hmono : ∀ b, rowFailed t s = true → b = true := fun b hb => nomatch hfailed.symm.trans hb
        rw [hrow]
        cases hf : (withTimeout a.now o.task item).fails with
        | false =>
          obtain ⟨hunfailed', hrefunds⟩ := hnot hf
          rw [hrefunds]
          refine h.visited hi rfl (hwritten _) hnew.1 hnew.2.1 (fun _ => hsame) (hmono _) ?_ (fun _ h => nomatch h) ?_
          · intro _
            rw [hunfailed']
            exact hnew
          · rw [hunfailed']
            simpa using htotal
        | true =>
          obtain ⟨hfailed', hrefunds⟩ := hfails hf (hfailure hf)
          have hcharged : o.task.quota ≠ 0 := by
            rw [hcopy.2.2.resolve_right Bool.false_ne_true]
            exact hq
          rw [hrefunds hunfailed hcharged]
          refine h.visited hi rfl (hwritten _) hnew.1 hnew.2.1 (fun _ => hsame) (hmono _) ?_ (fun _ _ => hsame) ?_
          · intro _
            exact hnew.mono fun h => nomatch h
          · rw [hfailed', if_pos ⟨rfl, ht⟩, htotal]
            rfl
    · -- another task
      refine h.visited hi rfl ?_ huser horg hquota (fun hb => hfailed.symm.trans hb) (fun h => absurd h ht)
        (fun h => absurd h ht) ?_
      · split
        · show (s.tasks.modify o.rowId _).get? t = some row
          rw [Table.get?_modify_of_ne _ _ (Ne.symm ht), hget]
        · exact hget
      · simpa [ht] using htotal

theorem Tracked.step (hq : q ≠ 0) (h : Tracked t u q s) (hcareful : e.Careful t s) : Tracked t u q (step s e) := by
  cases e with
  | read process rowId => exact h.read process rowId
  | failNullTasks => exact h.failNullTasks hcareful
  | failChannelTasks => exact h.failChannelTasks hcareful
  | updateTask => exact h.updateTask hq hcareful
  | refund => exact h.refund hcareful
  | notifyRead => exact h.notifyRead
  | notifySave => exact h.notifySave hcareful

theorem step_wallet : (step s e).wallets u - givenTo u (step s e) = s.wallets u - givenTo u s := by
  cases e with
  | read =>
    simp only [step]
    split
    · split_ifs <;> rfl
    · rfl
  | failNullTasks | failChannelTasks => rfl
  | updateTask =>
    simp only [step]
    split <;> rfl
  | refund =>
    simp only [step, refundMidjourneyQuota]
    split
    · rfl
    · split_ifs
      · rfl
      · simp only [setObjects, givenTo, map_cons, sum_cons]
        split_ifs with hu hu' hu'
        · omega
        · exact absurd hu.symm hu'
        · exact absurd hu'.symm hu
        · omega
  | notifyRead | notifySave =>
    simp only [step]
    split <;> rfl

/-! ## Runs -/

/-- **A failed Midjourney task is refunded once.** Take any run of passes and callbacks whose steps are safe for a
task that was charged `q`. Whenever the task has failed and none of its refunds is still to be made, its quota
has gone back to the wallet of its user exactly once; whenever it has the status `SUCCESS`, nothing has gone
back and nothing will. A wallet holds what it held and what was given back to it. -/
theorem failed_task_refunded_once (t u : Nat) (q : Int) (hq : 0 < q) (s : State) (hcharged : Charged t u q s)
    (events : List Event) (hcareful : Along step (Event.Careful t) s events) :
    (∃ row, (run step s events).tasks.get? t = some row ∧
      (row.failed = true → dues t (run step s events) = 0 → givens t (run step s events) = 1) ∧
      (row.status = "SUCCESS" → givens t (run step s events) = 0 ∧ dues t (run step s events) = 0)) ∧
    (∀ g ∈ (run step s events).given, g.rowId = t → g.userId = u ∧ g.quota = q) ∧
    (run step s events).wallets u = s.wallets u + (givenTo u (run step s events) - givenTo u s) := by
  have hend : Tracked t u q (run step s events) :=
    run_invariant (fun _ _ h he => h.step hq.ne' he) (Tracked.start hcharged) hcareful
  have hwallet : (run step s events).wallets u - givenTo u (run step s events) = s.wallets u - givenTo u s :=
    run_invariant' (I := fun s' => s'.wallets u - givenTo u s' = s.wallets u - givenTo u s)
      (fun s' e h => step_wallet.trans h) rfl events
  obtain ⟨row, hget, -⟩ := hend.row
  have hcount := hend.count
  rw [rowFailed_eq hget] at hcount
  refine ⟨⟨row, hget, ?_, ?_⟩, hend.given, by omega⟩
  · intro hfailed hnone
    rw [hfailed] at hcount
    simp only [if_true] at hcount
    omega
  · intro hstatus
    have hunfailed : row.failed = false := by simp [Midjourney.failed, hstatus]
    rw [hunfailed] at hcount
    simp only [Bool.false_eq_true, if_false] at hcount
    omega

/-! A task of user 7 that was charged 40. Two passes have read it, and the upstream tells both that it failed. -/

def chargedTask (mjId : String) : State :=
  { tasks := Table.empty.insert
      { code := 1, userId := 7, mjId, status := "IN_PROGRESS", progress := "30%", channelId := 3, quota := 40 } }

theorem chargedTask_charged : Charged 1 7 40 (chargedTask mjId) :=
  ⟨⟨_, rfl, rfl, rfl, rfl, by simp [Midjourney.failed]⟩, fun _ _ h => (nomatch h), fun _ h => (nomatch h),
    fun _ h => (nomatch h), fun _ h => (nomatch h), fun _ h => (nomatch h)⟩

def failureItem : MidjourneyDto :=
  { mjId := "m1", status := "FAILURE", progress := "100%", failReason := "banned prompt" }

def twoPasses : List Event :=
  [.read 0 1, .read 1 1, .updateTask 1 {} failureItem, .updateTask 0 {} failureItem, .refund 0 false]

theorem failed_task_refunded_once_sample : rowFailed 1 (run step (chargedTask "m1") twoPasses) = true ∧
      givens 1 (run step (chargedTask "m1") twoPasses) = 1 := by
  have hfailed : rowFailed 1 (run step (chargedTask "m1") twoPasses) = true := by decide +kernel
  obtain ⟨⟨row, hget, honce, -⟩, -⟩ :=
    failed_task_refunded_once 1 7 40 (by decide) (chargedTask "m1") chargedTask_charged twoPasses
      (by decide +kernel)
  refine ⟨hfailed, honce ?_ (by decide +kernel)⟩
  rw [← rowFailed_eq hget]
  exact hfailed

/-! The three writers without a guard: a task that has no upstream id, a channel that is gone, a callback. -/

def nullPass : List Event := [.read 0 1, .failNullTasks 0]

def goneChannelPass : List Event := [.read 0 1, .failChannelTasks 0 3]

def failureCallback : List Event := [.notifyRead failureItem, .notifySave 0]

theorem failed_task_not_refunded : (Charged 1 7 40 (chargedTask "") ∧ Charged 1 7 40 (chargedTask "m1")) ∧
      ∀ s ∈ [run step (chargedTask "") nullPass, run step (chargedTask "m1") goneChannelPass,
        run step (chargedTask "m1") failureCallback],
        rowFailed 1 s = true ∧ s.due = [] ∧ s.callbacks = [] ∧ s.given = [] ∧ s.wallets 7 = 0 := by
  refine ⟨⟨chargedTask_charged, chargedTask_charged⟩, ?_⟩
  intro s hs
  simp only [mem_cons, not_mem_nil, or_false] at hs
  rcases hs with rfl | rfl | rfl
  all_goals exact ⟨by decide +kernel, by decide +kernel, by decide +kernel, by decide +kernel, by decide +kernel⟩

end CubeRouter.Midjourney
