import CubeRouter.Scheduler.Locks

/-!
# Running tasks and the rows that expire them

The pass over stale locks finds a running task by the row of its lock. A claimer sets its task running without a look
at the lock it has taken, the pass deletes a lock after it has marked the task, and a claimer that finds its task taken
releases what may be the lock of the one that runs it. `System.Keeps` is a step that leaves every running task its row;
the rows are there along a run exactly when all its steps are of that kind (`running_expirable_iff`).
-/

namespace CubeRouter.Scheduler

open Relational Transition List Option

def Database.HasLock (db : Database) (taskID : String) : Prop :=
  ∃ type lock, db.locks.find? type = some lock ∧ lock.taskID = taskID

def Database.Running (db : Database) (taskID : String) : Prop :=
  ∃ t, db.tasks.find? taskID = some t ∧ t.status = .running

/-- Every running task has the row of a lock. -/
def Database.Covered (db : Database) : Prop := ∀ taskID, db.Running taskID → db.HasLock taskID

/-- The task is there and of this type. -/
def Database.Named (db : Database) (taskID type : String) : Prop :=
  ∃ t, db.tasks.find? taskID = some t ∧ t.type = type

def Database.LocksNamed (db : Database) : Prop :=
  ∀ type lock, db.locks.find? type = some lock → db.Named lock.taskID type

/-! ## What a statement does to the rows of tasks -/

def TasksKept (db db' : Database) : Prop := ∀ taskID type, db.Named taskID type → db'.Named taskID type

def NoneStarted (db db' : Database) : Prop := ∀ taskID, db'.Running taskID → db.Running taskID

section Columns

variable {db db' : Database} {p : SystemTask → Bool} {g : SystemTask → SystemTask} {hg : ∀ t, (g t).taskID = t.taskID}
  (hdb : db' = { db with tasks := db.tasks.updateWhere p g hg })

include hdb

theorem tasksKept_updateWhere (htype : ∀ t, (g t).type = t.type) : TasksKept db db' := by
  rintro taskID type ⟨t, ht, rfl⟩
  rw [hdb]
  refine ⟨if p t then g t else t, ?_, ?_⟩
  · exact (Index.find?_updateWhere db.tasks p g hg taskID).trans (by rw [ht, map_some])
  · split_ifs
    · exact htype t
    · rfl

theorem noneStarted_updateWhere (hstatus : ∀ t, (g t).status = .running → t.status = .running) :
    NoneStarted db db' := by
  rintro taskID ⟨t', ht', hrunning⟩
  rw [hdb, Index.find?_updateWhere, map_eq_some_iff] at ht'
  obtain ⟨t, ht, rfl⟩ := ht'
  refine ⟨t, ht, ?_⟩
  split_ifs at hrunning
  · exact hstatus t hrunning
  · exact hrunning

end Columns

theorem createSystemTask_named (db : Database) (taskType taskID state : String) (now : Int) :
    TasksKept db (db.createSystemTask taskType taskID state now) := by
  rintro id type ⟨t, ht, htype⟩
  unfold Database.createSystemTask
  split_ifs
  · exact ⟨t, ht, htype⟩
  · refine ⟨t, ?_, htype⟩
    rw [Index.find?_insertNew, if_neg (by simp [ht]), ht]

variable {state lockedBy runnerID type : String} {now lockUntil : Int} {call : Call} {statementFails : Bool}

theorem createSystemTask_noneStarted {db : Database} {taskType taskID : String} :
    NoneStarted db (db.createSystemTask taskType taskID state now) := by
  intro id h
  unfold Database.createSystemTask at h
  split_ifs at h
  · exact h
  · obtain ⟨t, ht, hrunning⟩ := h
    rw [Index.find?_insertNew] at ht
    split_ifs at ht with hnew
    · cases ht
      cases hrunning
    · exact ⟨t, ht, hrunning⟩

theorem markSystemTaskLeaseExpired_named (db : Database) (taskID : String) (now : Int) :
    TasksKept db (db.markSystemTaskLeaseExpired taskID now) :=
  tasksKept_updateWhere rfl fun _ => rfl

theorem markSystemTaskLeaseExpired_noneStarted {db : Database} {taskID : String} :
    NoneStarted db (db.markSystemTaskLeaseExpired taskID now) := by
  refine noneStarted_updateWhere rfl ?_
  intro t hrunning
  cases hrunning

theorem updateSystemTaskState_named (db : Database) (taskID lockedBy state : String) (now : Int) :
    TasksKept db (db.updateSystemTaskState taskID lockedBy state now) :=
  tasksKept_updateWhere rfl fun _ => rfl

theorem updateSystemTaskState_noneStarted {db : Database} {taskID : String} :
    NoneStarted db (db.updateSystemTaskState taskID lockedBy state now) :=
  noneStarted_updateWhere rfl fun _ hrunning => hrunning

theorem finishSystemTask_named (db : Database) (taskID lockedBy : String) (outcome : Outcome) (result error : String)
    (now : Int) : TasksKept db (db.finishSystemTask taskID lockedBy outcome result error now).1 :=
  tasksKept_updateWhere rfl fun _ => rfl

theorem finishSystemTask_noneStarted {db : Database} {taskID : String} {outcome : Outcome} {result error : String} :
    NoneStarted db (db.finishSystemTask taskID lockedBy outcome result error now).1 := by
  refine noneStarted_updateWhere rfl ?_
  intro t hrunning
  cases outcome with
  | succeeded | failed => cases hrunning

theorem setRunning_named (db : Database) (id : Nat) (taskType runnerID : String) (now : Int) :
    TasksKept db (db.setRunning id taskType runnerID now).1 := by
  unfold Database.setRunning
  split
  · exact fun _ _ h => h
  · exact tasksKept_updateWhere rfl fun _ => rfl

variable {db db' : Database} {taskType taskID id : String} {lock : SystemTaskLock}

theorem running_setRunning_iff {id : Nat} : (db.setRunning id taskType runnerID now).1.Running taskID ↔
      db.Running taskID ∨ ∃ t, db.findPending id taskType = some t ∧ t.taskID = taskID := by
  unfold Database.setRunning
  cases hpending : db.findPending id taskType with
  | none => simp
  | some t =>
    obtain ⟨hget, -⟩ := filter_eq_some_iff.mp hpending
    have hfind : db.tasks.find? t.taskID = some t := Index.find?_eq_some_iff.mpr ⟨id, hget, rfl⟩
    have hmodify := Index.find?_modify db.tasks t.taskID taskID
      (fun t => { t with status := .running, lockedBy := runnerID, updatedAt := now }) fun _ => rfl
    by_cases htask : taskID = t.taskID
    · subst htask
      rw [if_pos rfl, hfind, map_some] at hmodify
      exact iff_of_true ⟨_, hmodify, rfl⟩ (.inr ⟨t, rfl, rfl⟩)
    · rw [if_neg htask] at hmodify
      simp only [Database.Running, hmodify, Option.some.injEq]
      constructor
      · exact .inl
      · rintro (hrunning | ⟨t', rfl, rfl⟩)
        · exact hrunning
        · exact absurd rfl htask

/-! ## What a statement does to the rows of locks -/

theorem Database.Covered.of_tasks (h : db.Covered) (hlocks : db'.locks = db.locks) (hstarted : NoneStarted db db') :
    db'.Covered := by
  intro taskID hrunning
  obtain ⟨type, lock, hlock, htask⟩ := h taskID (hstarted taskID hrunning)
  exact ⟨type, lock, by rw [hlocks]; exact hlock, htask⟩

theorem Database.LocksNamed.of_tasks (h : db.LocksNamed) (hlocks : db'.locks = db.locks) (hkept : TasksKept db db') :
    db'.LocksNamed := by
  intro type lock hlock
  rw [hlocks] at hlock
  exact hkept _ _ (h type lock hlock)

theorem Database.LocksNamed.unique (h : db.LocksNamed) {type' : String} {lock' : SystemTaskLock}
    (hlock : db.locks.find? type = some lock) (hlock' : db.locks.find? type' = some lock')
    (htask : lock.taskID = lock'.taskID) : type = type' := by
  obtain ⟨t, ht, rfl⟩ := h type lock hlock
  obtain ⟨_, ht', rfl⟩ := h type' lock' hlock'
  rw [htask, ht'] at ht
  rw [Option.some.inj ht]

theorem covered_deleteWhere_iff (h : db.Covered) (hnamed : db.LocksNamed) {p : SystemTaskLock → Bool} :
    ({ db with locks := db.locks.deleteWhere p } : Database).Covered ↔
      ∀ type lock, db.locks.find? type = some lock → p lock = true → ¬db.Running lock.taskID := by
  constructor
  · intro hcovered type lock hlock hp hrunning
    obtain ⟨_, _, hlock', htask⟩ := hcovered lock.taskID hrunning
    rw [Index.find?_deleteWhere, filter_eq_some_iff] at hlock'
    obtain rfl := hnamed.unique hlock'.1 hlock htask
    obtain rfl := mem_unique hlock'.1 hlock
    simp [hp] at hlock'
  · intro hnone taskID hrunning
    obtain ⟨type, lock, hlock, rfl⟩ := h taskID hrunning
    refine ⟨type, lock, ?_, rfl⟩
    rw [Index.find?_deleteWhere, filter_eq_some_iff]
    refine ⟨hlock, ?_⟩
    by_contra hp
    exact hnone type lock hlock (by simpa using hp) hrunning

theorem locksNamed_deleteWhere (h : db.LocksNamed) (p : SystemTaskLock → Bool) :
    ({ db with locks := db.locks.deleteWhere p } : Database).LocksNamed := by
  intro type lock hlock
  rw [Index.find?_deleteWhere, filter_eq_some_iff] at hlock
  exact h type lock hlock.1

theorem insertLock_tasks (h : db.insertLock lock = some db') : db'.tasks = db.tasks := by
  obtain ⟨_, -, rfl⟩ := map_eq_some_iff.mp h
  rfl

theorem find?_insertLock (h : db.insertLock lock = some db') (type : String) :
    db'.locks.find? type = if type = lock.type then some lock else db.locks.find? type := by
  obtain ⟨_, hlocks, rfl⟩ := map_eq_some_iff.mp h
  exact Index.find?_insert hlocks type

theorem hasLock_insertLock (h : db.insertLock lock = some db') (hlock : db.HasLock taskID) : db'.HasLock taskID := by
  obtain ⟨type, row, hrow, htask⟩ := hlock
  refine ⟨type, row, ?_, htask⟩
  obtain ⟨_, hlocks, rfl⟩ := map_eq_some_iff.mp h
  -- The key of the new row was free, so it is not that of this one.
  have hne : type ≠ lock.type := by
    rintro rfl
    rw [Index.insert, dif_neg (by simp [hrow])] at hlocks
    cases hlocks
  exact (Index.find?_insert hlocks type).trans ((if_neg hne).trans hrow)

theorem find?_takeOverLock (db : Database) (taskType taskID lockedBy : String) (now lockUntil : Int) (type : String) :
    (db.takeOverLock taskType taskID lockedBy now lockUntil).1.locks.find? type = (db.locks.find? type).map fun lock =>
        if type = taskType ∧ lock.lockedUntil < now then
          { lock with taskID := taskID, lockedBy := lockedBy, lockedUntil := lockUntil, updatedAt := now }
        else lock := by
  have hfind := Index.find?_updateWhere db.locks (fun lock => lock.type = taskType ∧ lock.lockedUntil < now)
    (fun lock => { lock with taskID := taskID, lockedBy := lockedBy, lockedUntil := lockUntil, updatedAt := now })
    (fun _ => rfl) type
  refine hfind.trans ?_
  cases hlock : db.locks.find? type with
  | none => rfl
  | some lock =>
    have htype : lock.type = type := Index.key_of_find? hlock
    simp [htype]

theorem covered_takeOverLock_iff (h : db.Covered) (hnamed : db.LocksNamed) :
    (db.takeOverLock taskType taskID lockedBy now lockUntil).1.Covered ↔
      ∀ lock, db.locks.find? taskType = some lock → lock.lockedUntil < now → db.Running lock.taskID →
        lock.taskID = taskID := by
  have hfind := find?_takeOverLock db taskType taskID lockedBy now lockUntil
  constructor
  · intro hcovered lock hlock huntil hrunning
    obtain ⟨type, _, hrow, htask⟩ := hcovered lock.taskID hrunning
    rw [hfind, map_eq_some_iff] at hrow
    obtain ⟨_, hold, rfl⟩ := hrow
    split_ifs at htask with hcond
    · exact htask.symm
    · obtain rfl := hnamed.unique hold hlock htask
      obtain rfl := mem_unique hold hlock
      exact absurd ⟨rfl, huntil⟩ hcond
  · intro hsame id hrunning
    obtain ⟨type, lock, hlock, rfl⟩ := h id hrunning
    refine ⟨type, _, by rw [hfind, hlock, map_some], ?_⟩
    split_ifs with hcond
    · obtain ⟨rfl, huntil⟩ := hcond
      exact (hsame lock hlock huntil hrunning).symm
    · rfl

theorem locksNamed_takeOverLock (h : db.LocksNamed) (htask : db.Named taskID taskType) (lockedBy : String)
    (now lockUntil : Int) : (db.takeOverLock taskType taskID lockedBy now lockUntil).1.LocksNamed := by
  intro type row hrow
  rw [find?_takeOverLock, map_eq_some_iff] at hrow
  obtain ⟨lock, hlock, rfl⟩ := hrow
  split_ifs with hcond
  · rw [hcond.1]
    exact htask
  · exact h type lock hlock

theorem find?_renewSystemTaskLock :
    ∃ renewed : SystemTaskLock → SystemTaskLock, (∀ lock, (renewed lock).taskID = lock.taskID) ∧
      (db.renewSystemTaskLock taskID lockedBy now lockUntil).locks.find? type = (db.locks.find? type).map renewed := by
  refine ⟨_, ?_, Index.find?_updateWhere db.locks
    (fun lock => lock.taskID = taskID ∧ lock.lockedBy = lockedBy ∧ lock.lockedUntil ≥ now)
    (fun lock => { lock with lockedUntil := lockUntil, updatedAt := now }) (fun _ => rfl) type⟩
  intro lock
  split_ifs
  · rfl
  · rfl

theorem covered_renewSystemTaskLock (h : db.Covered) :
    (db.renewSystemTaskLock taskID lockedBy now lockUntil).Covered := by
  intro id hrunning
  obtain ⟨type, lock, hlock, rfl⟩ := h id hrunning
  obtain ⟨renewed, hsame, hfind⟩ := find?_renewSystemTaskLock
  exact ⟨type, renewed lock, by rw [hfind, hlock, map_some], hsame lock⟩

theorem locksNamed_renewSystemTaskLock (h : db.LocksNamed) (taskID lockedBy : String) (now lockUntil : Int) :
    (db.renewSystemTaskLock taskID lockedBy now lockUntil).LocksNamed := by
  intro type row hrow
  obtain ⟨_, hsame, hfind⟩ := find?_renewSystemTaskLock
  rw [hfind, map_eq_some_iff] at hrow
  obtain ⟨lock, hlock, rfl⟩ := hrow
  rw [hsame]
  exact h type lock hlock

/-! ## Calls -/

def Call.Named (db : Database) : Call → Prop
  | .acquire c taskID | .readLock c taskID | .takeOver c taskID _ => db.Named taskID c.taskType
  | _ => True

theorem Call.Named.mono (h : call.Named db) (hkept : TasksKept db db') : call.Named db' := by
  cases call with
  | acquire | readLock | takeOver => exact hkept _ _ h
  | _ => trivial

/-- The next statement of the call leaves every running task the row of its lock: a task is set running while it has
one, and a row that is taken over, released or deleted is not that of a running task. -/
def Call.Keeps (db : Database) : Call → Prop
  | .takeOver c taskID _ =>
    ∀ lock, db.locks.find? c.taskType = some lock → lock.lockedUntil < c.now → db.Running lock.taskID →
      lock.taskID = taskID
  | .setRunning c _ => ∀ t, db.findPending c.id c.taskType = some t → db.HasLock t.taskID
  | .release taskID lockedBy =>
    ∀ type lock, db.locks.find? type = some lock → lock.taskID = taskID → lock.lockedBy = lockedBy →
      ¬db.Running taskID
  | .deleteStale now stale _ =>
    ∀ lock, db.locks.find? stale.type = some lock → lock.taskID = stale.taskID → lock.lockedBy = stale.lockedBy →
      lock.lockedUntil < now → ¬db.Running stale.taskID
  | _ => True

theorem covered_setRunning_iff (h : db.Covered) {id : Nat} :
    (db.setRunning id taskType runnerID now).1.Covered ↔ ∀ t, db.findPending id taskType = some t →
    db.HasLock t.taskID := by
  have hlocks : (db.setRunning id taskType runnerID now).1.locks = db.locks := by
    unfold Database.setRunning
    split <;> rfl
  have hhas : ∀ taskID, (db.setRunning id taskType runnerID now).1.HasLock taskID ↔ db.HasLock taskID := by
    intro taskID
    rw [Database.HasLock, hlocks, Database.HasLock]
  constructor
  · intro hcovered t ht
    exact (hhas t.taskID).mp (hcovered t.taskID (running_setRunning_iff.mpr (.inr ⟨t, ht, rfl⟩)))
  · intro hpending taskID hrunning
    rw [hhas]
    rcases running_setRunning_iff.mp hrunning with hrunning | ⟨t, ht, rfl⟩
    · exact h taskID hrunning
    · exact hpending t ht

theorem covered_releaseSystemTaskLock_iff (h : db.Covered) (hnamed : db.LocksNamed) :
    (db.releaseSystemTaskLock taskID lockedBy).Covered ↔ (Call.release taskID lockedBy).Keeps db := by
  refine (covered_deleteWhere_iff h hnamed).trans ?_
  simp only [decide_eq_true_eq, and_imp]
  constructor
  · intro hnone type lock hlock htask hby
    exact htask ▸ hnone type lock hlock htask hby
  · intro hnone type lock hlock htask hby
    exact htask ▸ hnone type lock hlock htask hby

theorem covered_deleteStale_iff (h : db.Covered) (hnamed : db.LocksNamed) {stale : SystemTaskLock}
    {rest : List SystemTaskLock} : (db.deleteStale stale now).Covered ↔ (Call.deleteStale now stale rest).Keeps db := by
  refine (covered_deleteWhere_iff h hnamed).trans ?_
  simp only [decide_eq_true_eq, Call.Keeps, and_imp]
  constructor
  · intro hnone lock hlock htask hby huntil
    exact htask ▸ hnone stale.type lock hlock (Index.key_of_find? hlock) htask hby huntil
  · intro hnone type lock hlock htype htask hby huntil
    rw [← htype, Index.key_of_find? hlock] at hnone
    exact htask ▸ hnone lock hlock htask hby huntil

theorem acquire_insertLock (db : Database) (statementFails : Bool) (clock : Int) (c : Claim) (taskID : String) :
    ((Call.acquire c taskID).advance db statementFails clock = (db, some (.readLock c taskID))) ∨
      ∃ db', db.insertLock ⟨c.taskType, taskID, c.runnerID, c.lockUntil, c.now⟩ = some db' ∧
        (Call.acquire c taskID).advance db statementFails clock = (db', some (.acquired c taskID "")) := by
  unfold Call.advance
  dsimp only
  cases statementFails with
  | true => exact .inl rfl
  | false =>
    cases hinsert : db.insertLock ⟨c.taskType, taskID, c.runnerID, c.lockUntil, c.now⟩ with
    | none => exact .inl (by simp)
    | some db' => exact .inr ⟨db', rfl, by simp⟩

/-- A statement leaves the running tasks covered exactly when the call keeps their rows. -/
theorem advance_covered_iff (h : db.Covered) (hnamed : db.LocksNamed)
    {clock : Int} : (call.advance db statementFails clock).1.Covered ↔ statementFails = true ∨ call.Keeps db := by
  cases statementFails with
  | true =>
    refine iff_of_true ?_ (.inl rfl)
    cases call <;> exact h
  | false =>
    rw [Bool.false_eq_true, false_or]
    cases call with
    | claim => exact iff_of_true h trivial
    | acquire c taskID =>
      refine iff_of_true ?_ trivial
      rcases acquire_insertLock db false clock c taskID with heq | ⟨_, hinsert, heq⟩
      · rw [heq]
        exact h
      · rw [heq]
        intro id hrunning
        refine hasLock_insertLock hinsert (h id ?_)
        rw [Database.Running, ← insertLock_tasks hinsert]
        exact hrunning
    | readLock =>
      refine iff_of_true ?_ trivial
      simp only [Call.advance, Bool.false_eq_true, if_false]
      split
      · exact h
      · exact h
    | takeOver => exact covered_takeOverLock_iff h hnamed
    | markExpired c _ expired =>
      refine iff_of_true ?_ trivial
      exact h.of_tasks rfl markSystemTaskLeaseExpired_noneStarted
    | setRunning => exact covered_setRunning_iff h
    | release taskID lockedBy => exact covered_releaseSystemTaskLock_iff h hnamed
    | expire => exact iff_of_true h trivial
    | markStale _ lock =>
      refine iff_of_true ?_ trivial
      exact h.of_tasks rfl markSystemTaskLeaseExpired_noneStarted
    | deleteStale now lock rest => exact covered_deleteStale_iff h hnamed

theorem acquired_named (db : Database) (c : Claim) (taskID expired : String) :
    (Call.acquired c taskID expired).Named db := by
  unfold Call.acquired
  split_ifs
  · trivial
  · trivial

theorem named_none : ∀ call ∈ (none : Option Call), call.Named db := by
  intro call h
  cases h

theorem nextStale_named (db : Database) (locks : List SystemTaskLock) :
    ∀ call ∈ Call.nextStale now locks, call.Named db := by
  cases locks with
  | nil => exact named_none
  | cons =>
    rintro call ⟨⟩
    trivial

theorem findPending_named {id : Nat} {t : SystemTask} (h : db.findPending id taskType = some t) :
    db.Named t.taskID taskType := by
  obtain ⟨hget, hcond⟩ := filter_eq_some_iff.mp h
  exact ⟨t, Index.find?_eq_some_iff.mpr ⟨id, hget, rfl⟩, (of_decide_eq_true hcond).1⟩

/-- What a statement leaves is named as before. -/
structure Named (db : Database) (next : Option Call) : Prop where
  locks : db.LocksNamed
  call : ∀ call ∈ next, call.Named db

theorem acquire_named (hnamed : db.LocksNamed) {c : Claim} (hcall : db.Named taskID c.taskType) (statementFails : Bool)
    (clock : Int) : TasksKept db ((Call.acquire c taskID).advance db statementFails clock).1 ∧
      Named ((Call.acquire c taskID).advance db statementFails clock).1
        ((Call.acquire c taskID).advance db statementFails clock).2 := by
  rcases acquire_insertLock db statementFails clock c taskID with heq | ⟨db', hinsert, heq⟩
  · rw [heq]
    refine ⟨fun _ _ h => h, hnamed, ?_⟩
    rintro call ⟨⟩
    exact hcall
  · rw [heq]
    have hkept : TasksKept db db' := by
      rintro id type ⟨t, ht, htype⟩
      exact ⟨t, by rw [insertLock_tasks hinsert]; exact ht, htype⟩
    refine ⟨hkept, ?_, ?_⟩
    · intro type lock hlock
      rw [find?_insertLock hinsert] at hlock
      split_ifs at hlock with htype
      · cases hlock
        rw [htype]
        exact hkept _ _ hcall
      · exact hkept _ _ (hnamed type lock hlock)
    · rintro call ⟨⟩
      exact acquired_named _ _ _ _

theorem advance_named (hnamed : db.LocksNamed) (hcall : call.Named db)
    (clock : Int) : TasksKept db (call.advance db statementFails clock).1 ∧
      Named (call.advance db statementFails clock).1 (call.advance db statementFails clock).2 := by
  have hrefl : TasksKept db db := fun _ _ h => h
  cases statementFails with
  | true =>
    cases call with
    | acquire => exact acquire_named hnamed hcall _ _
    | markExpired | setRunning =>
      refine ⟨hrefl, hnamed, ?_⟩
      rintro call ⟨⟩
      trivial
    | _ => exact ⟨hrefl, hnamed, named_none⟩
  | false =>
    cases call with
    | acquire => exact acquire_named hnamed hcall _ _
    | claim =>
      refine ⟨hrefl, hnamed, ?_⟩
      intro call h
      obtain ⟨t, ht, rfl⟩ := map_eq_some_iff.mp h
      exact findPending_named ht
    | readLock =>
      simp only [Call.advance, Bool.false_eq_true, if_false]
      split
      · exact ⟨hrefl, hnamed, named_none⟩
      · refine ⟨hrefl, hnamed, ?_⟩
        intro call h
        split_ifs at h
        · cases h
        · cases h
          exact hcall
    | takeOver =>
      refine ⟨hrefl, locksNamed_takeOverLock hnamed hcall _ _ _, ?_⟩
      intro call h
      simp only [Call.advance, Bool.false_eq_true, if_false] at h
      split_ifs at h
      · cases h
        exact acquired_named _ _ _ _
      · cases h
    | markExpired c _ expired =>
      have hkept := markSystemTaskLeaseExpired_named db expired clock
      refine ⟨hkept, hnamed.of_tasks rfl hkept, ?_⟩
      rintro call ⟨⟩
      trivial
    | setRunning c =>
      have hkept := setRunning_named db c.id c.taskType c.runnerID c.now
      refine ⟨hkept, hnamed.of_tasks ?_ hkept, ?_⟩
      · simp only [Call.advance, Database.setRunning, Bool.false_eq_true, if_false]
        split <;> rfl
      · intro call h
        simp only [Call.advance, Bool.false_eq_true, if_false] at h
        split_ifs at h
        · cases h
        · cases h
          trivial
    | release => exact ⟨hrefl, locksNamed_deleteWhere hnamed _, named_none⟩
    | expire now => exact ⟨hrefl, hnamed, nextStale_named db _⟩
    | markStale _ lock =>
      have hkept := markSystemTaskLeaseExpired_named db lock.taskID clock
      refine ⟨hkept, hnamed.of_tasks rfl hkept, ?_⟩
      rintro call ⟨⟩
      trivial
    | deleteStale now _ rest => exact ⟨hrefl, locksNamed_deleteWhere hnamed _, nextStale_named _ rest⟩

/-! ## The pass over stale locks -/

/-- The task was failed by the pass and does not block its type. -/
def Database.Expired (db : Database) (taskID : String) : Prop :=
  ∃ t, db.tasks.find? taskID = some t ∧ t.status = .failed ∧ t.activeKey = none

theorem find?_markSystemTaskLeaseExpired (db : Database) (taskID : String) (now : Int) (id : String) :
    (db.markSystemTaskLeaseExpired taskID now).tasks.find? id = (db.tasks.find? id).map fun t =>
        if t.taskID = taskID ∧ t.status = .running then
          { t with status := .failed, activeKey := none, error := "task lease expired", updatedAt := now }
        else t := by
  have hfind := Index.find?_updateWhere db.tasks (fun t => t.taskID = taskID ∧ t.status = .running)
    (fun t => { t with status := .failed, activeKey := none, error := "task lease expired", updatedAt := now })
    (fun _ => rfl) id
  simp only [decide_eq_true_eq] at hfind
  exact hfind

theorem expired_mark (h : db.Expired id) : (db.markSystemTaskLeaseExpired taskID now).Expired id := by
  obtain ⟨t, ht, hstatus, hkey⟩ := h
  refine ⟨t, ?_, hstatus, hkey⟩
  rw [find?_markSystemTaskLeaseExpired, ht, map_some, if_neg]
  rintro ⟨-, hrunning⟩
  rw [hstatus] at hrunning
  cases hrunning

theorem running_mark (h : db.Running id) (now : Int) :
    (db.markSystemTaskLeaseExpired taskID now).Running id ∧ id ≠ taskID ∨
      (db.markSystemTaskLeaseExpired taskID now).Expired id := by
  obtain ⟨t, ht, hrunning⟩ := h
  have hid : t.taskID = id := Index.key_of_find? ht
  have hfind := find?_markSystemTaskLeaseExpired db taskID now id
  rw [ht, map_some] at hfind
  by_cases hsame : id = taskID
  · rw [if_pos ⟨hid.trans hsame, hrunning⟩] at hfind
    exact .inr ⟨_, hfind, rfl, rfl⟩
  · rw [if_neg fun h => hsame (hid.symm.trans h.1)] at hfind
    exact .inl ⟨⟨t, hfind, hrunning⟩, hsame⟩

theorem expired_pass (h : db.Expired id) {locks : List SystemTaskLock} :
    (locks.foldl (fun db lock => (db.markSystemTaskLeaseExpired lock.taskID now).deleteStale lock now)
      db).Expired id := by
  induction locks generalizing db with
  | nil => exact h
  | cons lock _ ih => exact ih (expired_mark h)

theorem running_pass (h : db.Running id) {now : Int} {locks : List SystemTaskLock}
    (hlock : ∃ lock ∈ locks, lock.taskID = id) :
    (locks.foldl (fun db lock => (db.markSystemTaskLeaseExpired lock.taskID now).deleteStale lock now)
      db).Expired id := by
  induction locks generalizing db with
  | nil =>
    obtain ⟨lock, hmem, -⟩ := hlock
    cases hmem
  | cons first locks ih =>
    rcases running_mark h now with ⟨hrunning, hne⟩ | hexpired
    · refine ih hrunning ?_
      obtain ⟨lock, hmem, htask⟩ := hlock
      rcases mem_cons.mp hmem with rfl | hmem
      · exact absurd htask.symm hne
      · exact ⟨lock, hmem, htask⟩
    · have hdeleted : ((db.markSystemTaskLeaseExpired first.taskID now).deleteStale first now).Expired id := hexpired
      exact expired_pass hdeleted

/-- Every running task has the row of a lock, by which the pass fails it once the lease has run out. -/
def Database.Expirable (db : Database) : Prop :=
  ∀ taskID, db.Running taskID → ∃ type lock, db.locks.find? type = some lock ∧ lock.taskID = taskID ∧
    ∀ now, lock.lockedUntil < now → (db.expireStaleSystemTaskLocks now).Expired taskID

theorem mem_findStale (h : db.locks.find? type = some lock)
    (huntil : lock.lockedUntil < now) : lock ∈ db.findStale now := by
  obtain ⟨i, hget, -⟩ := Index.find?_eq_some_iff.mp h
  exact mem_map.mpr ⟨(i, lock), Table.mem_select_iff.mpr ⟨hget, by simpa using huntil⟩, rfl⟩

theorem expirable_iff_covered : db.Expirable ↔ db.Covered := by
  constructor
  · intro h taskID hrunning
    obtain ⟨type, lock, hlock, htask, -⟩ := h taskID hrunning
    exact ⟨type, lock, hlock, htask⟩
  · intro h taskID hrunning
    obtain ⟨type, lock, hlock, htask⟩ := h taskID hrunning
    refine ⟨type, lock, hlock, htask, fun now huntil => ?_⟩
    exact running_pass hrunning ⟨lock, mem_findStale hlock huntil, htask⟩

/-! ## Runs -/

def System.Keeps (s : System) : Event → Prop
  | .advance i statementFails _ => ∀ call, s.calls[i]? = some call → statementFails = true ∨ call.Keeps s.toDatabase
  | _ => True

/-- What a step starts from. -/
structure System.Consistent (s : System) : Prop where
  covered : s.Covered
  locksNamed : s.LocksNamed
  callsNamed : ∀ call ∈ s.calls, call.Named s.toDatabase

theorem covered_step_iff (s : System) (e : Event) (h : s.Consistent) : (s.step e).Covered ↔ s.Keeps e := by
  cases e with
  | createSystemTask =>
    refine iff_of_true (h.covered.of_tasks ?_ createSystemTask_noneStarted) trivial
    simp only [System.step, Database.createSystemTask]
    split <;> rfl
  | claimSystemTask => exact iff_of_true h.covered trivial
  | updateSystemTaskState =>
    exact iff_of_true (h.covered.of_tasks rfl updateSystemTaskState_noneStarted) trivial
  | renewSystemTaskLock =>
    exact iff_of_true (covered_renewSystemTaskLock h.covered) trivial
  | finishSystemTask =>
    exact iff_of_true (h.covered.of_tasks rfl finishSystemTask_noneStarted) trivial
  | releaseSystemTaskLock | expireStaleSystemTaskLocks => exact iff_of_true h.covered trivial
  | advance i statementFails clock =>
    rw [System.step, System.Keeps]
    cases hcall : s.calls[i]? with
    | none => exact iff_of_true h.covered fun _ hcall => (nomatch hcall)
    | some call =>
      simp only [Option.some.injEq, forall_eq']
      exact advance_covered_iff h.covered h.locksNamed
  | crash => exact iff_of_true h.covered trivial

theorem createSystemTask_locks (db : Database) (taskType taskID state : String) (now : Int) :
    (db.createSystemTask taskType taskID state now).locks = db.locks := by
  unfold Database.createSystemTask
  split <;> rfl

theorem consistent_step (s : System) (e : Event) (h : s.Consistent) (hkeeps : s.Keeps e) : (s.step e).Consistent := by
  have hcovered := (covered_step_iff s e h).mpr hkeeps
  cases e with
  | createSystemTask taskType taskID state now =>
    have hkept := createSystemTask_named s.toDatabase taskType taskID state now
    exact ⟨hcovered, h.locksNamed.of_tasks (createSystemTask_locks _ _ _ _ _) hkept,
      fun call hcall => (h.callsNamed call hcall).mono hkept⟩
  | claimSystemTask =>
    refine ⟨hcovered, h.locksNamed, forall_mem_append.mpr ⟨h.callsNamed, ?_⟩⟩
    exact forall_mem_singleton.mpr trivial
  | updateSystemTaskState taskID lockedBy state now =>
    have hkept := updateSystemTaskState_named s.toDatabase taskID lockedBy state now
    exact ⟨hcovered, h.locksNamed.of_tasks rfl hkept, fun call hcall => (h.callsNamed call hcall).mono hkept⟩
  | renewSystemTaskLock =>
    exact ⟨hcovered, locksNamed_renewSystemTaskLock h.locksNamed _ _ _ _, h.callsNamed⟩
  | finishSystemTask taskID lockedBy outcome result error now =>
    have hkept := finishSystemTask_named s.toDatabase taskID lockedBy outcome result error now
    refine ⟨hcovered, h.locksNamed.of_tasks rfl hkept, forall_mem_append.mpr ⟨?_, ?_⟩⟩
    · exact fun call hcall => (h.callsNamed call hcall).mono hkept
    · split_ifs
      · exact forall_mem_singleton.mpr trivial
      · exact forall_mem_nil _
  | releaseSystemTaskLock | expireStaleSystemTaskLocks =>
    refine ⟨hcovered, h.locksNamed, forall_mem_append.mpr ⟨h.callsNamed, ?_⟩⟩
    exact forall_mem_singleton.mpr trivial
  | advance i statementFails clock =>
    rw [System.step] at hcovered ⊢
    cases hcall : s.calls[i]? with
    | none => exact h
    | some call =>
      simp only [hcall] at hcovered ⊢
      obtain ⟨hkept, hnamed⟩ := advance_named h.locksNamed (h.callsNamed call (mem_of_getElem? hcall)) clock
      refine ⟨hcovered, hnamed.locks, forall_mem_append.mpr ⟨?_, ?_⟩⟩
      · exact fun call' hcall' => (h.callsNamed call' (mem_of_mem_eraseIdx hcall')).mono hkept
      · exact fun call' hcall' => hnamed.call call' (mem_toList.mp hcall')
  | crash =>
    exact ⟨hcovered, h.locksNamed, fun call hcall => h.callsNamed call (mem_of_mem_eraseIdx hcall)⟩

/-- In every state of a run each running task can be expired exactly when each step of the run leaves the running tasks
their rows. -/
theorem running_expirable_iff (s : System) (hs : s.Consistent) (events : List Event) :
    (∀ done rest, events = done ++ rest → (run System.step s done).Expirable) ↔
    Along System.step System.Keeps s events := by
  have hcovered : ∀ s : System, s.Expirable ↔ s.Covered := fun s => expirable_iff_covered
  simp only [hcovered]
  exact always_iff_along (fun _ h => h.covered) consistent_step covered_step_iff hs

theorem consistent_initial : ({} : System).Consistent where
  covered := by
    rintro taskID ⟨t, ht, -⟩
    cases ht
  locksNamed := by
    intro type lock hlock
    cases hlock
  callsNamed := forall_mem_nil _

/-- A task is created, claimed and set running. -/
theorem running_expirable_sample : ({} : System).Consistent ∧
      ((∀ done rest, [Event.createSystemTask "log_cleanup" "a" "" 0, .claimSystemTask ⟨1, "log_cleanup", "r", 60, 0⟩,
          .advance 0 false 0, .advance 0 false 0, .advance 0 false 0] = done ++ rest →
          (run System.step {} done).Expirable) ↔
        Along System.step System.Keeps {} [.createSystemTask "log_cleanup" "a" "" 0,
          .claimSystemTask ⟨1, "log_cleanup", "r", 60, 0⟩, .advance 0 false 0,
          .advance 0 false 0, .advance 0 false 0]) :=
  ⟨consistent_initial, running_expirable_iff {} consistent_initial _⟩

/-- A claimer is slower than its lease: the pass over stale locks deletes its lock, and then it sets its task running.
-/
def slowClaim : List Event :=
  [.createSystemTask "log_cleanup" "a" "" 0, .claimSystemTask ⟨1, "log_cleanup", "r", 60, 0⟩, .advance 0 false 0,
    .advance 0 false 0, .expireStaleSystemTaskLocks 100, .advance 1 false 100,
    .advance 1 false 100, .advance 1 false 100,
    .advance 0 false 100]

theorem running_without_lock : ¬∀ events : List Event, (run System.step {} events).Expirable := by
  intro h
  have hrunning : ((run System.step {} slowClaim).tasks.find? "a").map SystemTask.status = some .running := by
    decide +kernel
  have hnone : (run System.step {} slowClaim).locks.table.any (fun _ _ => true) = false := by decide +kernel
  obtain ⟨t, ht, hstatus⟩ := map_eq_some_iff.mp hrunning
  obtain ⟨_, lock, hlock, -⟩ := h slowClaim "a" ⟨t, ht, hstatus⟩
  obtain ⟨i, hget, -⟩ := Index.find?_eq_some_iff.mp hlock
  cases Table.any_eq_false_iff.mp hnone i lock hget

end CubeRouter.Scheduler
