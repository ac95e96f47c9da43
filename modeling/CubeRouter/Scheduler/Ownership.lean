import CubeRouter.Scheduler.Expiry

/-!
# Who owns a task

A call reads the clock when it starts and runs its statements later; `Timed` has one clock that all runners read, and
`UpdateSystemTaskState`, `RenewSystemTaskLock` and `FinishSystemTask` between the reading of the clock and their
statement. `System.Rewrites` says all that a step makes of the row of a task, and `rows_step` that it does no more. From
it follow the order of the statuses, that a task is claimed once, and that only the claimer writes it (`Owned`); the
lease is the one that the row of the lock showed when the call read the clock.
-/

namespace CubeRouter.Scheduler

open Relational Transition List Option Bool

/-! ## What a step makes of a task -/

/-- The task that the step sets running and its runner. `ClaimSystemTask` returns true after such a step only. -/
def System.claimed (s : System) : Event → Option (String × String)
  | .advance i false _ =>
    match s.calls[i]? with
    | some (.setRunning c _) => (s.findPending c.id c.taskType).map fun t => (t.taskID, c.runnerID)
    | _ => none
  | _ => none

inductive System.Rewrites (s : System) (e : Event) (t : SystemTask) : SystemTask → Prop
  | same : s.Rewrites e t t
  | claimed (runnerID : String) (now : Int) (hclaimed : s.claimed e = some (t.taskID, runnerID))
      (hpending : t.status = .pending) :
      s.Rewrites e t { t with status := .running, lockedBy := runnerID, updatedAt := now }
  | expired (now : Int) (hrunning : t.status = .running) :
      s.Rewrites e t { t with status := .failed, activeKey := none, error := "task lease expired", updatedAt := now }
  | stated (state : String) (now : Int) (he : e = .updateSystemTaskState t.taskID t.lockedBy state now)
      (hown : s.ownRunning t.taskID t.lockedBy now t = true) :
      s.Rewrites e t { t with state := state, updatedAt := now }
  | finished (outcome : Outcome) (result error : String) (now : Int)
      (he : e = .finishSystemTask t.taskID t.lockedBy outcome result error now)
      (hown : s.ownRunning t.taskID t.lockedBy now t = true) :
      s.Rewrites e t
        { t with status := outcome.status, activeKey := none, result := result, error := error, updatedAt := now }

variable {db : Database} {taskID lockedBy id type : String} {now clock' : Int} {t : SystemTask} {next : Call}
  {statementFails : Bool} {e : TimedEvent} {lock : SystemTaskLock} {i : Nat} {claims : List (String × String)}

theorem Database.ownRunning_iff :
    db.ownRunning taskID lockedBy now t = true ↔ t.taskID = taskID ∧ t.status = .running ∧ t.lockedBy = lockedBy ∧
        ∃ type lock, db.locks.find? type = some lock ∧ lock.taskID = taskID ∧ lock.lockedBy = lockedBy ∧
          lock.lockedUntil ≥ now := by
  unfold Database.ownRunning Database.held
  rw [decide_eq_true_eq, Table.any_iff]
  refine and_congr_right fun _ => and_congr_right fun _ => and_congr_right fun _ => ?_
  constructor
  · rintro ⟨i, lock, hget, hlock⟩
    exact ⟨lock.type, lock, Index.find?_eq_some_iff.mpr ⟨i, hget, rfl⟩, of_decide_eq_true hlock⟩
  · rintro ⟨type, lock, hfind, hlock⟩
    obtain ⟨i, hget, -⟩ := Index.find?_eq_some_iff.mp hfind
    exact ⟨i, lock, hget, decide_eq_true hlock⟩

def System.Created (s : System) (e : Event) (id : String) (t' : SystemTask) : Prop :=
  ∃ taskType state now, e = .createSystemTask taskType id state now ∧
    t' = { taskID := id, type := taskType, status := .pending, activeKey := some taskType, state := state,
           updatedAt := now } ∧
    ∀ id' t, s.tasks.find? id' = some t → t.activeKey ≠ some taskType

/-- All that a step makes of the tasks. -/
structure System.Turns (s : System) (e : Event) (tasks : Index SystemTask.taskID) : Prop where
  old : ∀ id t, s.tasks.find? id = some t → ∃ t', tasks.find? id = some t' ∧ s.Rewrites e t t'
  new : ∀ id t', tasks.find? id = some t' → s.tasks.find? id = none → s.Created e id t'

section Turns

variable {s : System} {e : Event}

theorem turns_refl : s.Turns e s.tasks where
  old id t ht := ⟨t, ht, .same⟩
  new id t' ht' hnone := by
    rw [hnone] at ht'
    cases ht'

theorem turns_updateWhere {p : SystemTask → Bool} {g : SystemTask → SystemTask} (hg : ∀ t, (g t).taskID = t.taskID)
    (h : ∀ id t, s.tasks.find? id = some t → p t = true → s.Rewrites e t (g t)) :
    s.Turns e (s.tasks.updateWhere p g hg) where
  old id t ht := by
    refine ⟨if p t then g t else t, by rw [Index.find?_updateWhere, ht, map_some], ?_⟩
    split_ifs with hp
    · exact h id t ht hp
    · exact .same
  new id t' ht' hnone := by
    rw [Index.find?_updateWhere, hnone] at ht'
    cases ht'

variable {taskID : String} {now : Int} {i : Nat}

theorem turns_mark : s.Turns e (s.markSystemTaskLeaseExpired taskID now).tasks := by
  refine turns_updateWhere ?_ fun id t ht hp => ?_
  · exact fun _ => rfl
  · exact .expired now (of_decide_eq_true hp).2

theorem turns_setRunning {clock : Int} {c : Claim} (hcall : s.calls[i]? = some (.setRunning c taskID)) :
    s.Turns (.advance i false clock) (s.toDatabase.setRunning c.id c.taskType c.runnerID c.now).1.tasks := by
  unfold Database.setRunning
  split
  · exact turns_refl
  · rename_i task hpending
    obtain ⟨hget, hcond⟩ := filter_eq_some_iff.mp hpending
    refine turns_updateWhere ?_ fun id t ht hp => ?_
    · exact fun _ => rfl
    · have htask : s.tasks.find? task.taskID = some task := Index.find?_eq_some_iff.mpr ⟨c.id, hget, rfl⟩
      have hid : id = task.taskID := (Index.key_of_find? ht).symm.trans (of_decide_eq_true hp)
      rw [hid, htask] at ht
      cases ht
      refine .claimed c.runnerID c.now ?_ (of_decide_eq_true hcond).2
      simp [System.claimed, hcall, hpending]

theorem turns_create {taskType state : String} :
    s.Turns (.createSystemTask taskType taskID state now) (s.createSystemTask taskType taskID state now).tasks := by
  unfold Database.createSystemTask
  split_ifs with hactive
  · exact turns_refl
  · refine ⟨fun id t ht => ⟨t, ?_, .same⟩, fun id t' ht' hnone => ?_⟩
    · rw [Index.find?_insertNew, if_neg (by simp [ht]), ht]
    · rw [Index.find?_insertNew] at ht'
      split_ifs at ht' with hnew
      · obtain ⟨rfl, -⟩ := hnew
        cases ht'
        refine ⟨taskType, state, now, rfl, rfl, fun id' t ht hkey => hactive ?_⟩
        obtain ⟨i, hget, -⟩ := Index.find?_eq_some_iff.mp ht
        exact Table.any_iff.mpr ⟨i, t, hget, by simpa using hkey⟩
      · rw [hnone] at ht'
        cases ht'

theorem turns_advance {statementFails : Bool} {clock : Int} {call : Call} (hcall : s.calls[i]? = some call) :
    s.Turns (.advance i statementFails clock) (call.advance s.toDatabase statementFails clock).1.tasks := by
  cases statementFails with
  | true => cases call <;> exact turns_refl
  | false =>
    cases call with
    | claim => exact turns_refl
    | acquire c taskID =>
      rcases acquire_insertLock s.toDatabase false clock c taskID with heq | ⟨_, hinsert, heq⟩
      · rw [heq]
        exact turns_refl
      · rw [heq, insertLock_tasks hinsert]
        exact turns_refl
    | readLock =>
      simp only [Call.advance, false_eq_true, if_false]
      split
      · exact turns_refl
      · exact turns_refl
    | takeOver => exact turns_refl
    | markExpired c _ expired => exact turns_mark
    | setRunning => exact turns_setRunning hcall
    | release => exact turns_refl
    | expire => exact turns_refl
    | markStale _ lock => exact turns_mark
    | deleteStale => exact turns_refl

theorem turns_step (s : System) (e : Event) : s.Turns e (s.step e).tasks := by
  cases e with
  | createSystemTask taskType taskID state now => exact turns_create
  | claimSystemTask => exact turns_refl
  | updateSystemTaskState _ _ state now =>
    refine turns_updateWhere ?_ fun id t ht hown => ?_
    · exact fun _ => rfl
    · obtain ⟨rfl, -, rfl, -⟩ := Database.ownRunning_iff.mp hown
      exact .stated state now rfl hown
  | renewSystemTaskLock => exact turns_refl
  | finishSystemTask _ _ outcome result error now =>
    refine turns_updateWhere ?_ fun id t ht hown => ?_
    · exact fun _ => rfl
    · obtain ⟨rfl, -, rfl, -⟩ := Database.ownRunning_iff.mp hown
      exact .finished outcome result error now rfl hown
  | releaseSystemTaskLock | expireStaleSystemTaskLocks => exact turns_refl
  | advance i =>
    rw [System.step]
    cases hcall : s.calls[i]? with
    | none => exact turns_refl
    | some => exact turns_advance hcall
  | crash => exact turns_refl

end Turns

/-! ## Tasks and their claimers -/

/-- The statuses that `GetActiveSystemTask` looks for. -/
def activeSystemTaskStatuses : List SystemTaskStatus := [.pending, .running]

/-- One move of the status of a task. -/
inductive SystemTaskStatus.Next : SystemTaskStatus → SystemTaskStatus → Prop
  | started : Next .pending .running
  | succeeded : Next .running .succeeded
  | failed : Next .running .failed

theorem SystemTaskStatus.Next.ne_pending {status status' : SystemTaskStatus} (h : status.Next status') :
    status' ≠ .pending := by
  cases h <;> decide

namespace System.Rewrites

variable {s : System} {e : Event} {t t' : SystemTask}

theorem type_eq (h : s.Rewrites e t t') : t'.type = t.type := by
  cases h <;> rfl

theorem status (h : s.Rewrites e t t') : t'.status = t.status ∨ t.status.Next t'.status := by
  cases h with
  | same => exact .inl rfl
  | claimed _ _ _ hpending =>
    rw [hpending]
    exact .inr .started
  | expired _ hrunning =>
    rw [hrunning]
    exact .inr .failed
  | stated => exact .inl rfl
  | finished outcome _ _ _ _ hown =>
    rw [(Database.ownRunning_iff.mp hown).2.1]
    cases outcome with
    | succeeded => exact .inr .succeeded
    | failed => exact .inr .failed

theorem of_terminal (h : s.Rewrites e t t') (hterminal : t.status ∉ activeSystemTaskStatuses) : t' = t := by
  cases h with
  | same => rfl
  | claimed _ _ _ hpending => simp [hpending, activeSystemTaskStatuses] at hterminal
  | expired _ hrunning => simp [hrunning, activeSystemTaskStatuses] at hterminal
  | stated _ _ _ hown => simp [(Database.ownRunning_iff.mp hown).2.1, activeSystemTaskStatuses] at hterminal
  | finished _ _ _ _ _ hown =>
    simp [(Database.ownRunning_iff.mp hown).2.1, activeSystemTaskStatuses] at hterminal

/-- The columns that a runner writes are written for the task that it runs, while it holds the lock. -/
theorem written (h : s.Rewrites e t t') (hchanged : t'.state ≠ t.state ∨ t'.result ≠ t.result) :
    t.status = .running ∧ ∃ now, s.ownRunning t.taskID t.lockedBy now t = true ∧
      ((∃ state, e = .updateSystemTaskState t.taskID t.lockedBy state now) ∨
        ∃ outcome result error, e = .finishSystemTask t.taskID t.lockedBy outcome result error now) := by
  cases h with
  | same | claimed | expired => simp at hchanged
  | stated state now he hown => exact ⟨(Database.ownRunning_iff.mp hown).2.1, now, hown, .inl ⟨state, he⟩⟩
  | finished outcome result error now he hown =>
    exact ⟨(Database.ownRunning_iff.mp hown).2.1, now, hown, .inr ⟨outcome, result, error, he⟩⟩

end System.Rewrites

theorem claimed_spec {s : System} {e : Event} {runnerID : String} (h : s.claimed e = some (id, runnerID)) :
    ∃ t t', s.tasks.find? id = some t ∧ t.status = .pending ∧ (s.step e).tasks.find? id = some t' ∧
      t'.status = .running ∧ t'.lockedBy = runnerID := by
  unfold System.claimed at h
  split at h
  · split at h
    · rename_i c taskID hcall
      obtain ⟨t, hpending, heq⟩ := map_eq_some_iff.mp h
      cases heq
      obtain ⟨hget, hcond⟩ := filter_eq_some_iff.mp hpending
      have ht : s.tasks.find? t.taskID = some t := Index.find?_eq_some_iff.mpr ⟨c.id, hget, rfl⟩
      refine ⟨t, { t with status := .running, lockedBy := c.runnerID, updatedAt := c.now }, ht,
        (of_decide_eq_true hcond).2, ?_, rfl, rfl⟩
      rw [System.step, hcall]
      simp only [Call.advance, false_eq_true, if_false, Database.setRunning, hpending]
      rw [Index.find?_modify_self, ht, map_some]
    · cases h
  · cases h

/-- Which tasks are active and who has claimed those that are not pending any more; `claims` are the tasks claimed so
far with their runners. -/
structure Database.Owned (db : Database) (claims : List (String × String)) : Prop where
  active : ∀ id t, db.tasks.find? id = some t →
    t.activeKey = if t.status ∈ activeSystemTaskStatuses then some t.type else none
  unique : ∀ id id' t t', db.tasks.find? id = some t → db.tasks.find? id' = some t' →
    t.status ∈ activeSystemTaskStatuses →
    t'.status ∈ activeSystemTaskStatuses → t.type = t'.type → id = id'
  claimer : ∀ id t, db.tasks.find? id = some t → t.status ≠ .pending → (id, t.lockedBy) ∈ claims
  unclaimed : ∀ id t, db.tasks.find? id = some t → t.status = .pending → ∀ runnerID, (id, runnerID) ∉ claims
  known : ∀ id runnerID, (id, runnerID) ∈ claims → ∃ t, db.tasks.find? id = some t
  once : (claims.map Prod.fst).Nodup

section Owned

variable {s : System} {claims : List (String × String)} {id : String} {t' : SystemTask}

/-- What the step leaves of an active task was active before, unless it was created. -/
theorem System.Turns.active_before {e : Event} {tasks : Index SystemTask.taskID} (h : s.Turns e tasks)
    (ht' : tasks.find? id = some t') (hactive : t'.status ∈ activeSystemTaskStatuses) :
    (∃ t, s.tasks.find? id = some t ∧ t.status ∈ activeSystemTaskStatuses ∧ t.type = t'.type) ∨ s.Created e id t' := by
  cases hold : s.tasks.find? id with
  | none => exact .inr (h.new id t' ht' hold)
  | some t =>
    obtain ⟨_, ht'', hrewrites⟩ := h.old id t hold
    obtain rfl := mem_unique ht'' ht'
    refine .inl ⟨t, rfl, ?_, hrewrites.type_eq.symm⟩
    by_contra hterminal
    rw [hrewrites.of_terminal hterminal] at hactive
    exact hterminal hactive

theorem Database.Owned.unique_step (h : s.Owned claims) (e : Event) {id' : String} {t : SystemTask}
    (ht : (s.step e).tasks.find? id = some t) (ht' : (s.step e).tasks.find? id' = some t')
    (hactive : t.status ∈ activeSystemTaskStatuses) (hactive' : t'.status ∈ activeSystemTaskStatuses)
    (htype : t.type = t'.type) : id = id' := by
  have hfresh : ∀ {id t} id2 t2, s.Created e id t → s.tasks.find? id2 = some t2 →
      t2.status ∈ activeSystemTaskStatuses → t2.type ≠ t.type := by
    rintro id t id2 t2 ⟨taskType, state, now, rfl, rfl, hfree⟩ hold hactive rfl
    have hkey := h.active id2 t2 hold
    rw [if_pos hactive] at hkey
    exact hfree id2 t2 hold hkey
  rcases (turns_step s e).active_before ht hactive with ⟨t1, hold, hactive1, htype1⟩ | hcreated
  · rcases (turns_step s e).active_before ht' hactive' with ⟨t2, hold', hactive2, htype2⟩ | hcreated'
    · exact h.unique id id' t1 t2 hold hold' hactive1 hactive2 (htype1.trans (htype.trans htype2.symm))
    · exact absurd (htype1.trans htype) (hfresh id t1 hcreated' hold hactive1)
  · rcases (turns_step s e).active_before ht' hactive' with ⟨t2, hold', hactive2, htype2⟩ | hcreated'
    · exact absurd (htype2.trans htype.symm) (hfresh id' t2 hcreated hold' hactive2)
    · obtain ⟨_, _, _, rfl, -⟩ := hcreated
      obtain ⟨_, _, _, heq, -⟩ := hcreated'
      cases heq
      rfl

theorem Database.Owned.step (h : s.Owned claims) (e : Event) : (s.step e).Owned (claims ++ (s.claimed e).toList) := by
  have hturns := turns_step s e
  refine ⟨?_, fun id id' t t' => h.unique_step e, ?_, ?_, ?_, ?_⟩
  · intro id t' ht'
    cases hold : s.tasks.find? id with
    | none =>
      obtain ⟨taskType, state, now, rfl, rfl, -⟩ := hturns.new id t' ht' hold
      simp [activeSystemTaskStatuses]
    | some t =>
      obtain ⟨t'', ht'', hrewrites⟩ := hturns.old id t hold
      obtain rfl := mem_unique ht'' ht'
      have hkey := h.active id t hold
      cases hrewrites with
      | same => exact hkey
      | claimed _ _ _ hpending =>
        rw [hpending] at hkey
        exact hkey
      | expired => simp [activeSystemTaskStatuses]
      | stated => exact hkey
      | finished outcome => cases outcome <;> simp [activeSystemTaskStatuses, Outcome.status]
  · intro id t' ht' hstatus
    rw [mem_append]
    cases hold : s.tasks.find? id with
    | none =>
      obtain ⟨_, _, now, rfl, rfl, -⟩ := hturns.new id t' ht' hold
      exact absurd rfl hstatus
    | some t =>
      obtain ⟨t'', ht'', hrewrites⟩ := hturns.old id t hold
      obtain rfl := mem_unique ht'' ht'
      cases hrewrites with
      | same => exact .inl (h.claimer id t hold hstatus)
      | claimed _ _ hclaimed =>
        rw [Index.key_of_find? hold] at hclaimed
        exact .inr (mem_toList.mpr hclaimed)
      | expired _ hrunning => exact .inl (h.claimer id t hold (by simp [hrunning]))
      | stated => exact .inl (h.claimer id t hold hstatus)
      | finished _ _ _ _ _ hown =>
        exact .inl (h.claimer id t hold (by simp [(Database.ownRunning_iff.mp hown).2.1]))
  · intro id t' ht' hpending runnerID hmem
    rcases mem_append.mp hmem with hmem | hmem
    · obtain ⟨t, hold⟩ := h.known id runnerID hmem
      obtain ⟨t'', ht'', hrewrites⟩ := hturns.old id t hold
      obtain rfl := mem_unique ht'' ht'
      have hbefore : t.status = .pending := by
        rcases hrewrites.status with hsame | hnext
        · exact hsame.symm.trans hpending
        · exact absurd hpending hnext.ne_pending
      exact h.unclaimed id t hold hbefore runnerID hmem
    · obtain ⟨-, _, -, -, ht'', hrunning, -⟩ := claimed_spec (mem_toList.mp hmem)
      obtain rfl := mem_unique ht'' ht'
      rw [hpending] at hrunning
      cases hrunning
  · intro id runnerID hmem
    rcases mem_append.mp hmem with hmem | hmem
    · obtain ⟨t, hold⟩ := h.known id runnerID hmem
      obtain ⟨t', ht', -⟩ := hturns.old id t hold
      exact ⟨t', ht'⟩
    · obtain ⟨-, t', -, -, ht', -⟩ := claimed_spec (mem_toList.mp hmem)
      exact ⟨t', ht'⟩
  · rw [map_append, nodup_append]
    refine ⟨h.once, ?_, ?_⟩
    · cases s.claimed e <;> simp
    · intro id hid id' hid' heq
      obtain ⟨⟨id1, runnerID⟩, hmem, rfl⟩ := mem_map.mp hid
      obtain ⟨⟨_, _⟩, hmem', rfl⟩ := mem_map.mp hid'
      obtain ⟨t, -, hold, hpending, -⟩ := claimed_spec (mem_toList.mp hmem')
      cases heq
      exact h.unclaimed id1 t hold hpending runnerID hmem

end Owned

/-! ## Locks -/

/-- The times that a call has read are not later than this. -/
def Call.Before (clock : Int) : Call → Prop
  | .claim c | .acquire c _ | .readLock c _ | .takeOver c _ _ | .markExpired c _ _ | .setRunning c _ => c.now ≤ clock
  | .release _ _ => True
  | .expire now | .markStale now _ _ | .deleteStale now _ _ => now ≤ clock

def Database.Holds (db : Database) (type : String) (lock : SystemTaskLock) : Prop :=
  ∃ lock', db.locks.find? type = some lock' ∧ lock'.taskID = lock.taskID ∧ lock'.lockedBy = lock.lockedBy

section Locks

variable {s : System} {type : String} {lock : SystemTaskLock} (hlock : s.locks.find? type = some lock)

include hlock

theorem holds_self : s.Holds type lock := ⟨lock, hlock, rfl, rfl⟩

theorem holds_deleteWhere (p : SystemTaskLock → Bool) (hp : p lock = false) :
    ({ s.toDatabase with locks := s.locks.deleteWhere p } : Database).Holds type lock := by
  refine ⟨lock, ?_, rfl, rfl⟩
  rw [Index.find?_deleteWhere, hlock, filter_some_pos (by simp [hp])]

theorem holds_advance (statementFails : Bool) {clock : Int} {call : Call} (hbefore : call.Before clock) :
    (call.advance s.toDatabase statementFails clock).1.Holds type lock ∨
      (statementFails = false ∧ call = .release lock.taskID lock.lockedBy) ∨ lock.lockedUntil < clock := by
  cases statementFails with
  | true => cases call <;> exact .inl (holds_self hlock)
  | false =>
    cases call with
    | claim => exact .inl (holds_self hlock)
    | acquire c taskID =>
      rcases acquire_insertLock s.toDatabase false clock c taskID with heq | ⟨_, hinsert, heq⟩
      · rw [heq]
        exact .inl (holds_self hlock)
      · rw [heq]
        refine .inl ⟨lock, ?_, rfl, rfl⟩
        rw [find?_insertLock hinsert, if_neg, hlock]
        rintro rfl
        obtain ⟨_, hlocks, -⟩ := map_eq_some_iff.mp hinsert
        rw [Index.insert, dif_neg (by simp [hlock])] at hlocks
        cases hlocks
    | readLock =>
      simp only [Call.advance, false_eq_true, if_false]
      split
      · exact .inl (holds_self hlock)
      · exact .inl (holds_self hlock)
    | takeOver c =>
      by_cases huntil : lock.lockedUntil < c.now
      · exact .inr (.inr (huntil.trans_le hbefore))
      · refine .inl ⟨lock, ?_, rfl, rfl⟩
        simp only [Call.advance, false_eq_true, if_false]
        rw [find?_takeOverLock, hlock, map_some, if_neg fun h => huntil h.2]
    | markExpired => exact .inl (holds_self hlock)
    | setRunning =>
      refine .inl ?_
      simp only [Call.advance, false_eq_true, if_false, Database.setRunning]
      split
      · exact holds_self hlock
      · exact holds_self hlock
    | release taskID lockedBy =>
      by_cases hown : lock.taskID = taskID ∧ lock.lockedBy = lockedBy
      · obtain ⟨rfl, rfl⟩ := hown
        exact .inr (.inl ⟨rfl, rfl⟩)
      · exact .inl (holds_deleteWhere hlock _ (decide_eq_false hown))
    | expire => exact .inl (holds_self hlock)
    | markStale => exact .inl (holds_self hlock)
    | deleteStale now =>
      by_cases huntil : lock.lockedUntil < now
      · exact .inr (.inr (huntil.trans_le hbefore))
      · exact .inl (holds_deleteWhere hlock _ (decide_eq_false fun h => huntil h.2.2.2))

end Locks

variable {call : Call} {clock : Int}

theorem Call.Before.mono (h : call.Before clock) (hle : clock ≤ clock') : call.Before clock' := by
  cases call <;> first | trivial | exact le_trans h hle

theorem acquired_before {c : Claim} {expired : String} (h : c.now ≤ clock) :
    (Call.acquired c taskID expired).Before clock := by
  unfold Call.acquired
  split_ifs
  · exact h
  · exact h

theorem nextStale_before (h : now ≤ clock) {locks : List SystemTaskLock}
    (hnext : next ∈ Call.nextStale now locks) : next.Before clock := by
  cases locks with
  | nil => cases hnext
  | cons =>
    cases hnext
    exact h

theorem advance_before (h : call.Before clock)
    (hnext : next ∈ (call.advance db statementFails clock').2) : next.Before clock := by
  cases call with
  | claim =>
    cases statementFails with
    | true => cases hnext
    | false =>
      obtain ⟨t, -, rfl⟩ := map_eq_some_iff.mp hnext
      exact h
  | acquire c taskID =>
    rcases acquire_insertLock db statementFails clock' c taskID with heq | ⟨_, -, heq⟩
    · rw [heq] at hnext
      cases hnext
      exact h
    · rw [heq] at hnext
      cases hnext
      exact acquired_before h
  | readLock =>
    simp only [Call.advance] at hnext
    split at hnext
    · cases hnext
    · split at hnext
      · cases hnext
      · split_ifs at hnext
        · cases hnext
        · cases hnext
          exact h
  | takeOver =>
    simp only [Call.advance] at hnext
    split at hnext
    · cases hnext
    · split_ifs at hnext
      · cases hnext
        exact acquired_before h
      · cases hnext
  | markExpired =>
    cases statementFails with
    | true =>
      cases hnext
      trivial
    | false =>
      cases hnext
      exact h
  | setRunning =>
    cases statementFails with
    | true =>
      cases hnext
      trivial
    | false =>
      simp only [Call.advance, false_eq_true, if_false] at hnext
      split_ifs at hnext
      · cases hnext
      · cases hnext
        trivial
  | release =>
    cases statementFails <;> cases hnext
  | expire =>
    cases statementFails with
    | true => cases hnext
    | false => exact nextStale_before h hnext
  | markStale =>
    cases statementFails with
    | true => cases hnext
    | false =>
      cases hnext
      exact h
  | deleteStale =>
    cases statementFails with
    | true => cases hnext
    | false => exact nextStale_before h hnext

/-! ## One clock -/

/-- The calls that read the clock and then run one statement. -/
inductive Write
  | updateSystemTaskState (taskID lockedBy state : String)
  | renewSystemTaskLock (taskID lockedBy : String) (lockUntil : Int)
  | finishSystemTask (taskID lockedBy : String) (outcome : Outcome) (result error : String)

/-- The statement, with the time that the call has read. -/
def Write.event (now : Int) : Write → Event
  | updateSystemTaskState taskID lockedBy state => .updateSystemTaskState taskID lockedBy state now
  | renewSystemTaskLock taskID lockedBy lockUntil => .renewSystemTaskLock taskID lockedBy now lockUntil
  | finishSystemTask taskID lockedBy outcome result error => .finishSystemTask taskID lockedBy outcome result error now

structure Timed where
  sys : System := {}
  clock : Int := 0
  /-- Each with the time that it has read. -/
  begun : List (Write × Int) := []

/-- `EnqueueSystemTask` and the scheduler look for an active task before they create one. -/
inductive TimedEvent
  | elapse (seconds : Nat)
  | createSystemTask (taskType taskID state : String)
  | claimSystemTask (id : Nat) (taskType runnerID : String) (lockUntil : Int)
  | start (w : Write)
  | write (j : Nat)
  | abandon (j : Nat)
  | releaseSystemTaskLock (taskID lockedBy : String)
  | expireStaleSystemTaskLocks
  | advance (i : Nat) (statementFails : Bool)
  | crash (i : Nat)

/-- The step that the database sees. -/
def Timed.event (s : Timed) : TimedEvent → Option Event
  | .elapse _ | .start _ | .abandon _ => none
  | .createSystemTask taskType taskID state => some (.createSystemTask taskType taskID state s.clock)
  | .claimSystemTask id taskType runnerID lockUntil =>
    some (.claimSystemTask ⟨id, taskType, runnerID, lockUntil, s.clock⟩)
  | .write j => s.begun[j]?.map fun w => w.1.event w.2
  | .releaseSystemTaskLock taskID lockedBy => some (.releaseSystemTaskLock taskID lockedBy)
  | .expireStaleSystemTaskLocks => some (.expireStaleSystemTaskLocks s.clock)
  | .advance i statementFails => some (.advance i statementFails s.clock)
  | .crash i => some (.crash i)

def Timed.step (s : Timed) (e : TimedEvent) : Timed where
  sys := (s.event e).elim s.sys s.sys.step
  clock :=
    match e with
    | .elapse seconds => s.clock + seconds
    | _ => s.clock
  begun :=
    match e with
    | .start w => s.begun ++ [(w, s.clock)]
    | .write j | .abandon j => s.begun.eraseIdx j
    | _ => s.begun

def Timed.claimed (s : Timed) (e : TimedEvent) : Option (String × String) := (s.event e).bind s.sys.claimed

structure Timed.Punctual (s : Timed) : Prop where
  calls : ∀ call ∈ s.sys.calls, call.Before s.clock
  begun : ∀ w ∈ s.begun, w.2 ≤ s.clock

theorem Timed.clock_le_step (s : Timed) : s.clock ≤ (s.step e).clock := by
  cases e with
  | elapse seconds => exact Int.le_add_of_nonneg_right (Int.natCast_nonneg seconds)
  | _ => exact le_rfl

theorem calls_step {s : System} {e : Event} (hcall : call ∈ (s.step e).calls) :
    call ∈ s.calls ∨ (∃ i statementFails clock before, e = .advance i statementFails clock ∧ before ∈ s.calls ∧
      call ∈ (before.advance s.toDatabase statementFails clock).2) ∨ (∃ c, e = .claimSystemTask c ∧ call = .claim c) ∨
      (∃ now, e = .expireStaleSystemTaskLocks now ∧ call = .expire now) ∨
      ∃ taskID lockedBy, call = .release taskID lockedBy := by
  cases e with
  | createSystemTask => exact .inl hcall
  | claimSystemTask c =>
    rcases mem_append.mp hcall with hcall | hcall
    · exact .inl hcall
    · exact .inr (.inr (.inl ⟨c, rfl, mem_singleton.mp hcall⟩))
  | updateSystemTaskState | renewSystemTaskLock => exact .inl hcall
  | finishSystemTask taskID lockedBy =>
    rcases mem_append.mp hcall with hcall | hcall
    · exact .inl hcall
    · split_ifs at hcall
      · exact .inr (.inr (.inr (.inr ⟨taskID, lockedBy, mem_singleton.mp hcall⟩)))
      · cases hcall
  | releaseSystemTaskLock taskID lockedBy =>
    rcases mem_append.mp hcall with hcall | hcall
    · exact .inl hcall
    · exact .inr (.inr (.inr (.inr ⟨taskID, lockedBy, mem_singleton.mp hcall⟩)))
  | expireStaleSystemTaskLocks now =>
    rcases mem_append.mp hcall with hcall | hcall
    · exact .inl hcall
    · exact .inr (.inr (.inr (.inl ⟨now, rfl, mem_singleton.mp hcall⟩)))
  | advance i statementFails clock =>
    rw [System.step] at hcall
    cases hbefore : s.calls[i]? with
    | none =>
      rw [hbefore] at hcall
      exact .inl hcall
    | some before =>
      rw [hbefore] at hcall
      rcases mem_append.mp hcall with hcall | hcall
      · exact .inl (mem_of_mem_eraseIdx hcall)
      · exact .inr (.inl ⟨i, statementFails, clock, before, rfl, mem_of_getElem? hbefore, mem_toList.mp hcall⟩)
  | crash => exact .inl (mem_of_mem_eraseIdx hcall)

variable {s : Timed}

theorem Timed.Punctual.step (h : s.Punctual) (e : TimedEvent) : (s.step e).Punctual := by
  refine ⟨fun call hcall => Call.Before.mono ?_ s.clock_le_step, fun w hw => ?_⟩
  · cases hevent : s.event e with
    | none =>
      simp only [Timed.step, hevent] at hcall
      exact h.calls call hcall
    | some =>
      simp only [Timed.step, hevent] at hcall
      rcases calls_step hcall with hold | ⟨i, _, clock, before, -, hbefore, hnext⟩ | ⟨c, rfl, rfl⟩ |
        ⟨now, rfl, rfl⟩ | ⟨taskID, lockedBy, rfl⟩
      · exact h.calls call hold
      · exact advance_before (h.calls before hbefore) hnext
      · cases e with
        | claimSystemTask =>
          cases hevent
          exact le_rfl
        | write =>
          obtain ⟨w, -, hw⟩ := map_eq_some_iff.mp hevent
          obtain ⟨w, now⟩ := w
          cases w <;> cases hw
        | _ => cases hevent
      · cases e with
        | expireStaleSystemTaskLocks =>
          cases hevent
          exact le_rfl
        | write =>
          obtain ⟨w, -, hw⟩ := map_eq_some_iff.mp hevent
          obtain ⟨w, _⟩ := w
          cases w <;> cases hw
        | _ => cases hevent
      · trivial
  · have hbegun : w.2 ≤ s.clock := by
      cases e with
      | start =>
        rcases mem_append.mp hw with hw | hw
        · exact h.begun w hw
        · rw [mem_singleton.mp hw]
      | write | abandon => exact h.begun w (mem_of_mem_eraseIdx hw)
      | _ => exact h.begun w hw
    exact hbegun.trans s.clock_le_step

/-- What a step may do; `claims` are the tasks claimed before it with their runners. -/
structure Timed.Lawful (s : Timed) (claims : List (String × String)) (e : TimedEvent) : Prop where
  status : ∀ id t, s.sys.tasks.find? id = some t → ∃ t', (s.step e).sys.tasks.find? id = some t' ∧
    (t'.status = t.status ∨ t.status.Next t'.status)
  /-- A change of the state or the result is a write of the claimer, which held the lock of the task and whose lease had
  not run out at the time that the call had read. -/
  written : ∀ id t t', s.sys.tasks.find? id = some t → (s.step e).sys.tasks.find? id = some t' →
    (t'.state ≠ t.state ∨ t'.result ≠ t.result) → (id, t.lockedBy) ∈ claims ∧
      ∃ j w now, e = .write j ∧ s.begun[j]? = some (w, now) ∧ now ≤ s.clock ∧
        ((∃ state, w = .updateSystemTaskState id t.lockedBy state) ∨
          ∃ outcome result error, w = .finishSystemTask id t.lockedBy outcome result error) ∧
        ∃ type lock, s.sys.locks.find? type = some lock ∧ lock.taskID = id ∧ lock.lockedBy = t.lockedBy ∧
          now ≤ lock.lockedUntil
  /-- A lock goes by a release of its own task and runner, or after its time. -/
  locks : ∀ type lock, s.sys.locks.find? type = some lock → (s.step e).sys.Holds type lock ∨
    (∃ i, e = .advance i false ∧ s.sys.calls[i]? = some (.release lock.taskID lock.lockedBy)) ∨
      lock.lockedUntil < s.clock
  /-- A release leaves the locks of other tasks and other runners as they are, also those whose time is over. -/
  released : ∀ i statementFails taskID lockedBy, e = .advance i statementFails →
    s.sys.calls[i]? = some (.release taskID lockedBy) → ∀ type lock, s.sys.locks.find? type = some lock →
      ¬(lock.taskID = taskID ∧ lock.lockedBy = lockedBy) → (s.step e).sys.locks.find? type = some lock
  /-- The statement of a finish leaves all of them; its release is a step of its own. -/
  finished : ∀ j taskID lockedBy outcome result error now, e = .write j →
    s.begun[j]? = some (.finishSystemTask taskID lockedBy outcome result error, now) →
      (s.step e).sys.locks = s.sys.locks

theorem holds_renew {s : System} (hlock : s.locks.find? type = some lock)
    (taskID lockedBy : String) (now lockUntil : Int) :
    (s.renewSystemTaskLock taskID lockedBy now lockUntil).Holds type lock := by
  have hfind := Index.find?_updateWhere s.locks
    (fun lock => lock.taskID = taskID ∧ lock.lockedBy = lockedBy ∧ lock.lockedUntil ≥ now)
    (fun lock => { lock with lockedUntil := lockUntil, updatedAt := now }) (fun _ => rfl) type
  rw [hlock, map_some] at hfind
  refine ⟨_, hfind, ?_⟩
  split_ifs
  · exact ⟨rfl, rfl⟩
  · exact ⟨rfl, rfl⟩

theorem Timed.event_advance
    (h : s.event e = some (.advance i statementFails clock)) : e = .advance i statementFails ∧ clock = s.clock := by
  cases e with
  | write =>
    obtain ⟨⟨w, _⟩, -, hw⟩ := map_eq_some_iff.mp h
    cases w <;> cases hw
  | advance =>
    cases h
    exact ⟨rfl, rfl⟩
  | _ => cases h

theorem Timed.locks_step (h : s.Punctual) (e : TimedEvent)
    (hlock : s.sys.locks.find? type = some lock) : (s.step e).sys.Holds type lock ∨
      (∃ i, e = .advance i false ∧ s.sys.calls[i]? = some (.release lock.taskID lock.lockedBy)) ∨
        lock.lockedUntil < s.clock := by
  cases hevent : s.event e with
  | none =>
    simp only [Timed.step, hevent]
    exact .inl (holds_self hlock)
  | some event =>
    simp only [Timed.step, hevent, elim_some]
    cases event with
    | createSystemTask =>
      refine .inl ⟨lock, ?_, rfl, rfl⟩
      exact (congrArg (fun locks => locks.find? type) (createSystemTask_locks _ _ _ _ _)).trans hlock
    | claimSystemTask => exact .inl (holds_self hlock)
    | updateSystemTaskState => exact .inl (holds_self hlock)
    | renewSystemTaskLock => exact .inl (holds_renew hlock _ _ _ _)
    | finishSystemTask => exact .inl (holds_self hlock)
    | releaseSystemTaskLock => exact .inl (holds_self hlock)
    | expireStaleSystemTaskLocks => exact .inl (holds_self hlock)
    | advance i statementFails =>
      obtain ⟨rfl, rfl⟩ := Timed.event_advance hevent
      rw [System.step]
      cases hcall : s.sys.calls[i]? with
      | none => exact .inl (holds_self hlock)
      | some call =>
        rcases holds_advance hlock statementFails (h.calls call (mem_of_getElem? hcall)) with hholds |
          ⟨rfl, rfl⟩ | huntil
        · exact .inl hholds
        · exact .inr (.inl ⟨i, rfl, hcall⟩)
        · exact .inr (.inr huntil)
    | crash => exact .inl (holds_self hlock)

theorem Timed.released_step
    (hcall : s.sys.calls[i]? = some (.release taskID lockedBy)) (hlock : s.sys.locks.find? type = some lock)
    (hother : ¬(lock.taskID = taskID ∧ lock.lockedBy = lockedBy)) :
    (s.step (.advance i statementFails)).sys.locks.find? type = some lock := by
  simp only [Timed.step, Timed.event, elim_some, System.step, hcall, Call.advance]
  split_ifs
  · exact hlock
  · refine (Index.find?_deleteWhere _ _ type).trans ?_
    rw [hlock, filter_some_pos (by rw [decide_eq_false hother]; rfl)]

theorem Timed.turns_step (s : Timed) (e : TimedEvent) :
    (s.step e).sys = s.sys ∨ ∃ event, s.event e = some event ∧ s.sys.Turns event (s.step e).sys.tasks := by
  cases hevent : s.event e with
  | none => exact .inl (by simp [Timed.step, hevent])
  | some event =>
    refine .inr ⟨event, rfl, ?_⟩
    simp only [Timed.step, hevent]
    exact Scheduler.turns_step s.sys event

theorem Timed.owned_step (h : s.sys.Owned claims) (e : TimedEvent) :
    (s.step e).sys.Owned (claims ++ (s.claimed e).toList) := by
  cases hevent : s.event e with
  | none =>
    simp only [Timed.step, Timed.claimed, hevent, bind_none, toList_none, append_nil]
    exact h
  | some event =>
    simp only [Timed.step, Timed.claimed, hevent]
    exact h.step event

theorem Timed.status_step (s : Timed)
    (ht : s.sys.tasks.find? id = some t) : ∃ t', (s.step e).sys.tasks.find? id = some t' ∧
      (t'.status = t.status ∨ t.status.Next t'.status) ∧ (t.status ∉ activeSystemTaskStatuses → t' = t) := by
  rcases s.turns_step e with hsame | ⟨_, -, hturns⟩
  · exact ⟨t, by rw [hsame]; exact ht, .inl rfl, fun _ => rfl⟩
  · obtain ⟨t', ht', hrewrites⟩ := hturns.old id t ht
    exact ⟨t', ht', hrewrites.status, hrewrites.of_terminal⟩

theorem Timed.lawful (hpunctual : s.Punctual) (howned : s.sys.Owned claims) (e : TimedEvent) : s.Lawful claims e where
  status id t ht := by
    obtain ⟨t', ht', hstatus, -⟩ := s.status_step ht
    exact ⟨t', ht', hstatus⟩
  locks type lock hlock := Timed.locks_step hpunctual e hlock
  released i statementFails taskID lockedBy he hcall type lock hlock hother := by
    rw [he]
    exact Timed.released_step hcall hlock hother
  finished j taskID lockedBy outcome result error now he hbegun := by
    rw [he]
    simp only [Timed.step, Timed.event, hbegun]
    rfl
  written id t t' ht ht' hchanged := by
    rcases s.turns_step e with hsame | ⟨event, hevent, hturns⟩
    · rw [hsame, ht] at ht'
      cases ht'
      simp at hchanged
    · obtain ⟨_, ht'', hrewrites⟩ := hturns.old id t ht
      obtain rfl := mem_unique ht'' ht'
      obtain ⟨hrunning, now, hown, hwrite⟩ := hrewrites.written hchanged
      obtain ⟨-, -, -, type, lock, hlock, htask, hby, huntil⟩ := Database.ownRunning_iff.mp hown
      have hid : t.taskID = id := Index.key_of_find? ht
      refine ⟨howned.claimer id t ht (by simp [hrunning]), ?_⟩
      have hbegun : ∃ j w, e = .write j ∧ s.begun[j]? = some (w, now) ∧ w.event now = event := by
        rcases hwrite with ⟨state, rfl⟩ | ⟨outcome, result, error, rfl⟩
        · cases e with
          | write j =>
            obtain ⟨⟨w, read⟩, hj, hw⟩ := map_eq_some_iff.mp hevent
            cases w <;> cases hw
            exact ⟨j, _, rfl, hj, rfl⟩
          | _ => cases hevent
        · cases e with
          | write j =>
            obtain ⟨⟨w, _⟩, hj, hw⟩ := map_eq_some_iff.mp hevent
            cases w <;> cases hw
            exact ⟨j, _, rfl, hj, rfl⟩
          | _ => cases hevent
      obtain ⟨j, w, rfl, hj, hw⟩ := hbegun
      refine ⟨j, w, now, rfl, hj, hpunctual.begun _ (mem_of_getElem? hj), ?_, type, lock, hlock,
        htask.trans hid, hby, huntil⟩
      rw [← hid]
      rcases hwrite with ⟨state, rfl⟩ | ⟨outcome, result, error, rfl⟩
      · cases w <;> cases hw
        exact .inl ⟨state, rfl⟩
      · cases w <;> cases hw
        exact .inr ⟨outcome, result, error, rfl⟩

theorem Timed.owned_initial : ({} : Timed).sys.Owned [] where
  active id t ht := by cases (Index.find?_empty id).symm.trans ht
  unique id id' t t' ht := by cases (Index.find?_empty id).symm.trans ht
  claimer id t ht := by cases (Index.find?_empty id).symm.trans ht
  unclaimed id t ht := by cases (Index.find?_empty id).symm.trans ht
  known id runnerID h := by cases h
  once := nodup_nil

/-- After every run of calls of any runners: the tasks that are active and their claimers are as they should be, the
next step is lawful, and a finished task stays as it is. -/
theorem system_tasks_owned (l : List TimedEvent) :
    (run Timed.step {} l).sys.Owned (record Timed.step Timed.claimed {} l) ∧
      (∀ e, (run Timed.step {} l).Lawful (record Timed.step Timed.claimed {} l) e) ∧
        ∀ more id t, (run Timed.step {} l).sys.tasks.find? id = some t → t.status ∉ activeSystemTaskStatuses →
          (run Timed.step (run Timed.step {} l) more).sys.tasks.find? id = some t := by
  have howned : (run Timed.step {} l).sys.Owned (record Timed.step Timed.claimed {} l) :=
    record_invariant (I := fun (s : Timed) claims => s.sys.Owned claims) (fun _ e _ h => Timed.owned_step h e)
      Timed.owned_initial l
  have hpunctual : (run Timed.step {} l).Punctual := by
    refine run_invariant' (fun s e h => h.step e) ?_ l
    exact ⟨forall_mem_nil _, forall_mem_nil _⟩
  refine ⟨howned, Timed.lawful hpunctual howned, fun more id t ht hterminal => ?_⟩
  refine run_invariant' (I := fun s : Timed => s.sys.tasks.find? id = some t) (fun s e h => ?_) ht more
  obtain ⟨_, ht', -, hsame⟩ := s.status_step h
  rw [ht', hsame hterminal]

/-- The runner reads the clock while it holds the lease and writes after the lease has run out. -/
def lateWrite : List TimedEvent :=
  [.createSystemTask "log_cleanup" "a" "", .claimSystemTask 1 "log_cleanup" "r" 60, .advance 0 false, .advance 0 false,
    .advance 0 false, .elapse 60, .start (.updateSystemTaskState "a" "r" "done"), .elapse 1]

theorem state_written_after_lease : ¬∀ (l : List TimedEvent) (e : TimedEvent) (id : String) (t t' : SystemTask),
      (run Timed.step {} l).sys.tasks.find? id = some t → ((run Timed.step {} l).step e).sys.tasks.find? id = some t' →
        t'.state ≠ t.state → ∃ type lock, (run Timed.step {} l).sys.locks.find? type = some lock ∧ lock.taskID = id ∧
          lock.lockedBy = t.lockedBy ∧ (run Timed.step {} l).clock ≤ lock.lockedUntil := by
  intro h
  have hbefore : ((run Timed.step {} lateWrite).sys.tasks.find? "a").map SystemTask.state = some "" := by decide +kernel
  have hafter :
    (((run Timed.step {} lateWrite).step (.write 0)).sys.tasks.find? "a").map SystemTask.state = some "done" := by
    decide +kernel
  have hlate : (run Timed.step {} lateWrite).sys.locks.table.any
      (fun _ lock => (run Timed.step {} lateWrite).clock ≤ lock.lockedUntil) = false := by
    decide +kernel
  obtain ⟨t, ht, hstate⟩ := map_eq_some_iff.mp hbefore
  obtain ⟨t', ht', hstate'⟩ := map_eq_some_iff.mp hafter
  obtain ⟨_, lock, hlock, -, -, huntil⟩ := h lateWrite (.write 0) "a" t t' ht ht' (by rw [hstate, hstate']; decide)
  obtain ⟨i, hget, -⟩ := Index.find?_eq_some_iff.mp hlock
  exact absurd huntil (of_decide_eq_false (Table.any_eq_false_iff.mp hlate i lock hget))

end CubeRouter.Scheduler
