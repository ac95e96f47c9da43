import CubeRouter.Lib.Index
import CubeRouter.Lib.Run

/-!
# System tasks and their locks

A system task is run by one of many runners. The runner takes the lock of the type of the task for a time, sets the
task running and renews the lock while it works; a pass over stale locks fails the tasks of runners that are gone.
`model/system_task.go` does this with separate statements and no transaction, so a call is modelled as what is left of
it before its next statement: any number of calls are under way, the scheduler picks one and lets it run one statement,
which may fail, or the process of the call dies.
-/

namespace CubeRouter.Scheduler

open Relational Transition

/-! ## Rows -/

inductive SystemTaskStatus
  | pending
  | running
  | succeeded
  | failed
  deriving DecidableEq

structure SystemTask where
  taskID : String
  type : String
  status : SystemTaskStatus
  activeKey : Option String
  state : String := ""
  result : String := ""
  error : String := ""
  lockedBy : String := ""
  updatedAt : Int

structure SystemTaskLock where
  type : String
  taskID : String
  lockedBy : String
  lockedUntil : Int
  updatedAt : Int

structure Database where
  tasks : Index SystemTask.taskID := .empty
  locks : Index SystemTaskLock.type := .empty

/-! ## Statements -/

/-- `active_key` is a unique index too, and only ever set to null afterwards. -/
def Database.createSystemTask (db : Database) (taskType taskID state : String) (now : Int) : Database :=
  if db.tasks.table.any fun _ t => t.activeKey = some taskType then db
  else
    let task : SystemTask :=
      { taskID := taskID, type := taskType, status := .pending, activeKey := some taskType,
        state := state, updatedAt := now }
    { db with tasks := db.tasks.insertNew task }

def Database.findPending (db : Database) (id : Nat) (taskType : String) : Option SystemTask :=
  (db.tasks.table.get? id).filter fun t => t.type = taskType ∧ t.status = .pending

/-- `none` is a violation of the primary key. -/
def Database.insertLock (db : Database) (lock : SystemTaskLock) : Option Database :=
  (db.locks.insert lock).map fun locks => { db with locks := locks }

/-- The second component is whether a row was affected. -/
def Database.takeOverLock (db : Database) (taskType taskID lockedBy : String) (now lockUntil : Int) : Database × Bool :=
  ({ db with
      locks := db.locks.updateWhere (fun lock => lock.type = taskType ∧ lock.lockedUntil < now)
        (fun lock => { lock with taskID := taskID, lockedBy := lockedBy, lockedUntil := lockUntil, updatedAt := now })
        fun _ => rfl },
    (db.locks.find? taskType).any fun lock => lock.lockedUntil < now)

def Database.markSystemTaskLeaseExpired (db : Database) (taskID : String) (now : Int) : Database :=
  { db with
    tasks := db.tasks.updateWhere (fun t => t.taskID = taskID ∧ t.status = .running)
      (fun t => { t with status := .failed, activeKey := none, error := "task lease expired", updatedAt := now })
      fun _ => rfl }

def Database.setRunning (db : Database) (id : Nat) (taskType runnerID : String) (now : Int) : Database × Bool :=
  match db.findPending id taskType with
  | none => (db, false)
  | some task =>
    ({ db with
        tasks := db.tasks.modify task.taskID
          (fun t => { t with status := .running, lockedBy := runnerID, updatedAt := now }) fun _ => rfl }, true)

def Database.held (db : Database) (taskID lockedBy : String) (now : Int) : Bool :=
  db.locks.table.any fun _ lock => lock.taskID = taskID ∧ lock.lockedBy = lockedBy ∧ lock.lockedUntil ≥ now

/-- The rows that `UpdateSystemTaskState` and `FinishSystemTask` write. -/
def Database.ownRunning (db : Database) (taskID lockedBy : String) (now : Int) (t : SystemTask) : Bool :=
  t.taskID = taskID ∧ t.status = .running ∧ t.lockedBy = lockedBy ∧ db.held taskID lockedBy now

def Database.updateSystemTaskState (db : Database) (taskID lockedBy state : String) (now : Int) : Database :=
  { db with
    tasks := db.tasks.updateWhere (db.ownRunning taskID lockedBy now)
      (fun t => { t with state := state, updatedAt := now })
      fun _ => rfl }

def Database.renewSystemTaskLock (db : Database) (taskID lockedBy : String) (now lockUntil : Int) : Database :=
  { db with
    locks := db.locks.updateWhere (fun lock => lock.taskID = taskID ∧ lock.lockedBy = lockedBy ∧ lock.lockedUntil ≥ now)
      (fun lock => { lock with lockedUntil := lockUntil, updatedAt := now }) fun _ => rfl }

/-- The statuses that a task is finished with. -/
inductive Outcome
  | succeeded
  | failed

def Outcome.status : Outcome → SystemTaskStatus
  | succeeded => .succeeded
  | failed => .failed

/-- The first statement; the lock is released by a second. -/
def Database.finishSystemTask (db : Database) (taskID lockedBy : String) (outcome : Outcome) (result error : String)
    (now : Int) : Database × Bool :=
  ({ db with
      tasks := db.tasks.updateWhere (db.ownRunning taskID lockedBy now)
        (fun t =>
          { t with status := outcome.status, activeKey := none, result := result, error := error, updatedAt := now })
        fun _ => rfl },
    (db.tasks.find? taskID).any (db.ownRunning taskID lockedBy now))

def Database.releaseSystemTaskLock (db : Database) (taskID lockedBy : String) : Database :=
  { db with locks := db.locks.deleteWhere fun lock => lock.taskID = taskID ∧ lock.lockedBy = lockedBy }

def Database.findStale (db : Database) (now : Int) : List SystemTaskLock :=
  (db.locks.table.select fun lock => lock.lockedUntil < now).map Prod.snd

def Database.deleteStale (db : Database) (lock : SystemTaskLock) (now : Int) : Database :=
  { db with
    locks := db.locks.deleteWhere fun row =>
      row.type = lock.type ∧ row.taskID = lock.taskID ∧ row.lockedBy = lock.lockedBy ∧ row.lockedUntil < now }

/-- A pass that nothing interrupts. -/
def Database.expireStaleSystemTaskLocks (db : Database) (now : Int) : Database :=
  (db.findStale now).foldl (fun db lock => (db.markSystemTaskLeaseExpired lock.taskID now).deleteStale lock now) db

/-! ## Calls -/

/-- The arguments of `ClaimSystemTask` and the time at which it started. -/
structure Claim where
  id : Nat
  taskType : String
  runnerID : String
  lockUntil : Int
  now : Int

/-- A call before its next statement. -/
inductive Call
  | claim (c : Claim)
  | acquire (c : Claim) (taskID : String)
  | readLock (c : Claim) (taskID : String)
  | takeOver (c : Claim) (taskID : String) (existing : SystemTaskLock)
  | markExpired (c : Claim) (taskID expiredTaskID : String)
  | setRunning (c : Claim) (taskID : String)
  | release (taskID lockedBy : String)
  | expire (now : Int)
  | markStale (now : Int) (lock : SystemTaskLock) (rest : List SystemTaskLock)
  | deleteStale (now : Int) (lock : SystemTaskLock) (rest : List SystemTaskLock)

/-- The next lock of the pass. -/
def Call.nextStale (now : Int) : List SystemTaskLock → Option Call
  | [] => none
  | lock :: rest => some (.markStale now lock rest)

/-- The old holder is marked unless it is the same task. -/
def Call.acquired (c : Claim) (taskID expiredTaskID : String) : Call :=
  if expiredTaskID ≠ "" ∧ expiredTaskID ≠ taskID then .markExpired c taskID expiredTaskID else .setRunning c taskID

/-- One statement of a call and what is left of it; `clock` is the time at which it runs. -/
def Call.advance (db : Database) (statementFails : Bool) (clock : Int) : Call → Database × Option Call
  | .claim c =>
    if statementFails then (db, none) else (db, (db.findPending c.id c.taskType).map fun task => .acquire c task.taskID)
  | .acquire c taskID =>
    let lock : SystemTaskLock :=
      { type := c.taskType, taskID := taskID, lockedBy := c.runnerID, lockedUntil := c.lockUntil, updatedAt := c.now }
    match if statementFails then none else db.insertLock lock with
    | some db' => (db', some (.acquired c taskID ""))
    | none => (db, some (.readLock c taskID))
  | .readLock c taskID =>
    if statementFails then (db, none)
    else match db.locks.find? c.taskType with
      | none => (db, none)
      | some existing => (db, if existing.lockedUntil ≥ c.now then none else some (.takeOver c taskID existing))
  | .takeOver c taskID existing =>
    if statementFails then (db, none)
    else
      let r := db.takeOverLock c.taskType taskID c.runnerID c.now c.lockUntil
      (r.1, if r.2 then some (.acquired c taskID existing.taskID) else none)
  | .markExpired c taskID expiredTaskID =>
    if statementFails then (db, some (.release taskID c.runnerID))
    else (db.markSystemTaskLeaseExpired expiredTaskID clock, some (.setRunning c taskID))
  | .setRunning c taskID =>
    if statementFails then (db, some (.release taskID c.runnerID))
    else
      let r := db.setRunning c.id c.taskType c.runnerID c.now
      (r.1, if r.2 then none else some (.release taskID c.runnerID))
  | .release taskID lockedBy => (if statementFails then db else db.releaseSystemTaskLock taskID lockedBy, none)
  | .expire now => if statementFails then (db, none) else (db, Call.nextStale now (db.findStale now))
  | .markStale now lock rest =>
    if statementFails then (db, none)
    else (db.markSystemTaskLeaseExpired lock.taskID clock, some (.deleteStale now lock rest))
  | .deleteStale now lock rest =>
    if statementFails then (db, none) else (db.deleteStale lock now, Call.nextStale now rest)

/-! ## Runs -/

structure System extends Database where
  calls : List Call := []

inductive Event
  | createSystemTask (taskType taskID state : String) (now : Int)
  | claimSystemTask (c : Claim)
  | updateSystemTaskState (taskID lockedBy state : String) (now : Int)
  | renewSystemTaskLock (taskID lockedBy : String) (now lockUntil : Int)
  | finishSystemTask (taskID lockedBy : String) (outcome : Outcome) (result error : String) (now : Int)
  | releaseSystemTaskLock (taskID lockedBy : String)
  | expireStaleSystemTaskLocks (now : Int)
  | advance (i : Nat) (statementFails : Bool) (clock : Int)
  | crash (i : Nat)

def System.step (s : System) : Event → System
  | .createSystemTask taskType taskID state now =>
    { s with toDatabase := s.toDatabase.createSystemTask taskType taskID state now }
  | .claimSystemTask c => { s with calls := s.calls ++ [.claim c] }
  | .updateSystemTaskState taskID lockedBy state now =>
    { s with toDatabase := s.toDatabase.updateSystemTaskState taskID lockedBy state now }
  | .renewSystemTaskLock taskID lockedBy now lockUntil =>
    { s with toDatabase := s.toDatabase.renewSystemTaskLock taskID lockedBy now lockUntil }
  | .finishSystemTask taskID lockedBy outcome result error now =>
    let r := s.toDatabase.finishSystemTask taskID lockedBy outcome result error now
    { toDatabase := r.1, calls := s.calls ++ if r.2 then [.release taskID lockedBy] else [] }
  | .releaseSystemTaskLock taskID lockedBy => { s with calls := s.calls ++ [.release taskID lockedBy] }
  | .expireStaleSystemTaskLocks now => { s with calls := s.calls ++ [.expire now] }
  | .advance i statementFails clock =>
    match s.calls[i]? with
    | none => s
    | some call =>
      let r := call.advance s.toDatabase statementFails clock
      { toDatabase := r.1, calls := s.calls.eraseIdx i ++ r.2.toList }
  | .crash i => { s with calls := s.calls.eraseIdx i }

end CubeRouter.Scheduler
