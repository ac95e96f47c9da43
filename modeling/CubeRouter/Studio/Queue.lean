import CubeRouter.Lib.Run
import CubeRouter.Lib.Table

/-!
# The queue of studio jobs

`service/studioqueue/queue.go` keeps the jobs of the browser studio in memory. A job waits in the queue, is dispatched
when a slot can be reserved, runs once and leaves its image for the owner to fetch. The methods run under one mutex;
the dispatcher and each running job are goroutines that take the mutex for single sections and call out in between (to
reserve a slot, to run a job, to give back a slot or an admission). The state is the queue, where these goroutines
stand, and a log of the calls they have made.

Ids are handed out in order in place of sixteen random bytes, and the zero of time is Go's zero time. The callback
`onState` is left out.
-/

namespace CubeRouter.Studio

open Relational Transition

def maxBytes : Int := 256 * 2 ^ 20
def maxRequestBytes : Nat := 16 * 2 ^ 20
def maxResultBytes : Nat := 12 * 2 ^ 20
def maxRunning : Nat := 2

/-- Durations are in nanoseconds. -/
def second : Int := 10 ^ 9

def minute : Int := 60 * second

def unixMilli (now : Int) : Int := (now - 62135596800 * second) / 1000000

abbrev Bytes := List UInt8

structure Request where
  owner : Int
  key : String
  model : String := ""
  mode : String := ""
  group : String := ""
  organizationID : Int := 0
  body : Bytes

inductive JobState
  | queued
  | running
  | cancelling
  | cancelled
  | completed
  | failed
  | expired
  | released
  deriving DecidableEq

structure Status where
  key : String
  epoch : String
  state : JobState
  error : String := ""
  cancelRequested : Bool := false
  resultCommitted : Bool := false
  createdAt : Int

structure Result where
  png : Bytes := []
  error : String := ""
  deriving DecidableEq

/-- `releaseAdmission` is whether there is a function to call. -/
structure Entry where
  request : Request
  status : Status
  fingerprint : Bytes
  created : Int
  ended : Int := 0
  cancelled : Int := 0
  active : Bool := false
  result : Bytes := []
  releaseAdmission : Bool

structure Queue where
  entries : Table Entry := .empty
  order : List Nat := []
  bytes : Int := 0
  running : Int := 0
  epoch : String := ""

/-! ## Goroutines -/

/-- Where the dispatcher stands after the first section of `Tick`, with the jobs it has still to try. -/
inductive Dispatch
  | releasing (admissions queued : List Nat)
  | reserving (id : Nat) (queued : List Nat)
  | reserved (id : Nat) (queued : List Nat)
  | returning (id : Nat) (queued : List Nat)

inductive Phase
  | spawned
  | running
  | returned (result : Result)
  | finished
  | slotReleased
  | admissionReleased
  deriving DecidableEq

structure Job where
  id : Nat
  releaseAdmission : Bool
  phase : Phase := .spawned
  deriving DecidableEq

/-- What was called, or what a call has answered. -/
inductive Happening
  | submitted (id : Nat) (admission : Bool)
  | runStarted (id : Nat)
  | runReturned (id : Nat) (result : Result)
  | committed (id : Nat)
  | cancelAccepted (id : Nat)
  | admissionReleased (id : Nat)
  | reserved (id : Nat)
  | slotReleased (id : Nat)
  | acknowledged (id : Nat)
  | purged (id : Nat) (age : Int)
  deriving DecidableEq

/-- `owed` are the admissions that a `Cancel` gives back after it has left its section. -/
structure System extends Queue where
  dispatch : Option Dispatch := none
  jobs : List Job := []
  owed : List Nat := []
  log : List Happening := []

def System.new (epoch : String) : System := { epoch := epoch }

/-! ## Sections -/

def Entry.busy (e : Entry) : Bool := e.active ∨ e.status.state = .queued

/-- What `Submit` and the exits charge for a job that waits or runs. -/
def Entry.reserve (e : Entry) : Int := e.request.body.length + maxResultBytes

def Queue.modify (q : Queue) (id : Nat) (g : Entry → Entry) : Queue := { q with entries := q.entries.modify id g }

inductive SubmitError
  | epochChanged
  | invalidRequest
  | idempotencyConflict
  | accountBusy
  | queueFull
  | refused (message : String)

def SubmitError.text : SubmitError → String
  | epochChanged => "studio_epoch_changed"
  | invalidRequest => "invalid_studio_request"
  | idempotencyConflict => "idempotency_conflict"
  | accountBusy => "studio_account_busy"
  | queueFull => "studio_queue_full"
  | refused message => message

/-- What the optional `Admit` does: it is not given, it refuses, or it admits with or without a release. -/
inductive Admit
  | absent
  | refuses (message : String)
  | admits (release : Bool)

def Admit.release : Admit → Bool
  | admits release => release
  | absent | refuses _ => false

/-- The job that waits under an id of its own, or the id of the one that was submitted before. -/
def Queue.submit (q : Queue) (sum256 : Bytes → Bytes) (r : Request) (epoch : String) (now : Int) (admission : Admit) :
    Except SubmitError (Queue × Nat) := do
  ensure (epoch = q.epoch) .epochChanged
  ensure (0 < r.owner ∧ 16 ≤ r.key.utf8ByteSize ∧ r.key.utf8ByteSize ≤ 64 ∧ r.body ≠ [] ∧
    r.body.length ≤ maxRequestBytes) .invalidRequest
  match q.entries.find? fun e => e.request.owner = r.owner ∧ e.request.key = r.key with
  | some (id, e) =>
    ensure (e.fingerprint = sum256 r.body) .idempotencyConflict
    return (q, id)
  | none =>
    ensure (¬q.entries.any fun _ e => e.request.owner = r.owner ∧ e.busy) .accountBusy
    ensure (q.entries.count (fun e => e.status.state = .queued) < 10 ∧ q.entries.count (fun _ => true) < 1024 ∧
      q.bytes + r.body.length + maxResultBytes ≤ maxBytes) .queueFull
    match admission with
    | .refuses message => throw (.refused message)
    | .absent | .admits _ =>
      let e : Entry :=
        { request := r
          status := { key := r.key, epoch := q.epoch, state := .queued, createdAt := unixMilli now }
          fingerprint := sum256 r.body
          created := now
          releaseAdmission := admission.release }
      return ({ q with
        entries := q.entries.insert e
        order := q.order ++ [q.entries.next]
        bytes := q.bytes + (r.body.length + maxResultBytes) }, q.entries.next)

def Entry.requestCancel (e : Entry) (now : Int) : Entry :=
  if e.status.cancelRequested then e
  else { e with status := { e.status with cancelRequested := true }, cancelled := now }

/-- The queue afterwards and the admission to give back. -/
def Queue.cancelEntry (q : Queue) (id : Nat) (e : Entry) (now : Int) : Queue × List Nat :=
  if e.status.resultCommitted then (q, [])
  else if e.status.state = .completed then
    ({ q.modify id fun e => { e with
        result := []
        status := { e.status with state := .cancelled, cancelRequested := true } } with
      bytes := q.bytes - e.result.length }, [])
  else if e.busy then
    if e.active then
      (q.modify id fun e =>
        let e := e.requestCancel now
        if e.status.state = .cancelled then e else { e with status := { e.status with state := .cancelling } }, [])
    else
      ({ q.modify id fun e =>
          let e := e.requestCancel now
          { e with
            status := { e.status with state := .cancelled }
            ended := now
            request := { e.request with body := [] } } with
        bytes := q.bytes - e.reserve }, if e.releaseAdmission then [id] else [])
  else (q, [])

/-- The entry when it is there and the owner's. -/
def Queue.owned (q : Queue) (owner : Int) (id : Nat) : Option Entry :=
  (q.entries.get? id).filter fun e => e.request.owner = owner

def Queue.result (q : Queue) (owner : Int) (id : Nat) : Option Bytes :=
  ((q.owned owner id).filter fun e => e.status.state = .completed).map Entry.result

/-- An entry that `Ack` takes. -/
def Queue.acknowledged (q : Queue) (owner : Int) (id : Nat) : Option Entry := (q.owned owner id).filter fun e => ¬e.busy

def Queue.ackEntry (q : Queue) (id : Nat) (e : Entry) : Queue :=
  { q.modify id fun e => { e with result := [], status := { e.status with state := .released } } with
    bytes := q.bytes - e.result.length }

/-! ## Tick -/

/-- What the loop over the order has collected; `purged` are the ids with the time since they ended. -/
structure Sweep extends Queue where
  kept : List Nat := []
  queued : List Nat := []
  releases : List Nat := []
  purged : List (Nat × Int) := []

/-- A cancellation that has not come through in time shows as cancelled. -/
def Entry.giveUp (e : Entry) (now : Int) : Entry :=
  if e.active ∧ e.status.state = .cancelling ∧ e.cancelled ≠ 0 ∧ now - e.cancelled ≥ 30 * second then
    { e with status := { e.status with state := .cancelled } }
  else e

def Entry.expires (e : Entry) (now : Int) : Bool := e.status.state = .queued ∧ now - e.created ≥ 15 * minute

def Entry.expire (e : Entry) (now : Int) : Entry :=
  { e with
    status := { e.status with state := .expired }
    ended := now
    request := { e.request with body := [] } }

def Entry.purges (e : Entry) (now : Int) : Bool := ¬e.active ∧ e.ended ≠ 0 ∧ now - e.ended ≥ 10 * minute

/-- One turn of the loop; every id of the order is there. -/
def Sweep.visit (now : Int) (w : Sweep) (id : Nat) : Sweep :=
  match w.entries.get? id with
  | none => w
  | some e =>
    let e := e.giveUp now
    let expires := e.expires now
    let bytes := if expires then w.bytes - e.reserve else w.bytes
    let releases := if expires ∧ e.releaseAdmission then w.releases ++ [id] else w.releases
    let e := if expires then e.expire now else e
    if e.purges now then
      { w with
        entries := w.entries.delete id
        bytes := bytes - e.result.length
        releases := releases
        purged := w.purged ++ [(id, now - e.ended)] }
    else
      { w with
        entries := w.entries.modify id fun _ => e
        bytes := bytes
        releases := releases
        kept := w.kept ++ [id]
        queued := if e.status.state = .queued then w.queued ++ [id] else w.queued }

def Queue.sweep (q : Queue) (now : Int) : Sweep := q.order.foldl (Sweep.visit now) { toQueue := q }

/-- The dispatcher's lock is free and its first section runs. -/
def System.tick (s : System) (now : Int) : System :=
  match s.dispatch with
  | some _ => s
  | none =>
    let w := s.sweep now
    { s with
      toQueue := { w.toQueue with order := w.kept }
      dispatch := some (.releasing w.releases w.queued)
      log := s.log ++ w.purged.map fun p => .purged p.1 p.2 }

/-- The dispatcher goes on; `reservation` is what `reserve` returns. -/
def System.advanceDispatch (s : System) (reservation : Bool) : System :=
  match s.dispatch with
  | none => s
  | some (.releasing (id :: admissions) queued) =>
    { s with dispatch := some (.releasing admissions queued), log := s.log ++ [.admissionReleased id] }
  | some (.releasing [] []) => { s with dispatch := none }
  | some (.releasing [] (id :: queued)) =>
    if s.running ≥ maxRunning then { s with dispatch := none }
    else if (s.entries.get? id).any fun e => e.status.state = .queued then
      { s with dispatch := some (.reserving id queued) }
    else { s with dispatch := some (.releasing [] queued) }
  | some (.reserving id queued) =>
    if reservation then { s with dispatch := some (.reserved id queued), log := s.log ++ [.reserved id] }
    else { s with dispatch := some (.releasing [] queued) }
  | some (.reserved id queued) =>
    match (s.entries.get? id).filter fun e => e.status.state = .queued with
    | none => { s with dispatch := some (.returning id queued) }
    | some e =>
      { s with
        toQueue :=
          { s.modify id fun e => { e with active := true, status := { e.status with state := .running } } with
            running := s.running + 1 }
        dispatch := some (.releasing [] queued)
        jobs := s.jobs ++ [{ id := id, releaseAdmission := e.releaseAdmission }] }
  | some (.returning id queued) =>
    { s with dispatch := some (.releasing [] queued), log := s.log ++ [.slotReleased id] }

/-! ## Execute -/

def Result.ok (r : Result) : Bool := r.png ≠ [] ∧ r.png.length ≤ maxResultBytes ∧ r.error = ""

/-- The section after `Run` has returned. -/
def Queue.finishEntry (q : Queue) (id : Nat) (e : Entry) (r : Result) (now : Int) : Queue :=
  let ended (e : Entry) : Entry := { e with request := { e.request with body := [] }, active := false, ended := now }
  if e.status.cancelRequested then
    { q.modify id fun e => { ended e with status := { e.status with state := .cancelled } } with
      bytes := q.bytes - e.reserve }
  else if r.ok then
    { q.modify id fun e => { ended e with status := { e.status with state := .completed }, result := r.png } with
      bytes := q.bytes - e.reserve + r.png.length }
  else
    { q.modify id fun e =>
        { ended e with
          status := { e.status with
            state := .failed
            error := if r.error = "" then "studio_generation_failed" else r.error } } with
      bytes := q.bytes - e.reserve }

/-- The job goes on: `result` is what `Run` returns, `none` a panic. -/
def System.advanceJob (s : System) (i : Nat) (result : Option Result) (now : Int) : System :=
  match s.jobs[i]? with
  | none => s
  | some job =>
    let onwards (phase : Phase) (s : System) : System :=
      { s with jobs := s.jobs.eraseIdx i ++ [{ job with phase := phase }] }
    match job.phase with
    | .spawned => onwards .running { s with log := s.log ++ [.runStarted job.id] }
    | .running =>
      let r := result.getD { error := "studio_generation_failed" }
      onwards (.returned r) { s with log := s.log ++ [.runReturned job.id r] }
    | .returned r =>
      match s.entries.get? job.id with
      | none => onwards .finished s
      | some e => onwards .finished { s with toQueue := s.finishEntry job.id e r now }
    | .finished => onwards .slotReleased { s with log := s.log ++ [.slotReleased job.id] }
    | .slotReleased =>
      onwards .admissionReleased
        (if job.releaseAdmission then { s with log := s.log ++ [.admissionReleased job.id] } else s)
    | .admissionReleased => { s with running := s.running - 1, jobs := s.jobs.eraseIdx i }

/-- `TryCommitResult` from within `Run`: the answer. -/
def System.tryCommitResult (s : System) (job : Job) : Bool :=
  job.phase = .running ∧ (s.entries.get? job.id).any fun e => ¬e.status.cancelRequested

def System.commit (s : System) (i : Nat) : System :=
  match s.jobs[i]? with
  | none => s
  | some job =>
    if s.tryCommitResult job then
      { s with
        toQueue := s.modify job.id fun e => { e with status := { e.status with resultCommitted := true } }
        log := s.log ++ [.committed job.id] }
    else s

/-! ## Runs -/

inductive Event
  | submit (r : Request) (epoch : String) (now : Int) (admission : Admit)
  | cancel (owner : Int) (id : Nat) (now : Int)
  | release (i : Nat)
  | ack (owner : Int) (id : Nat)
  | tick (now : Int)
  | advanceDispatch (reservation : Bool)
  | advanceJob (i : Nat) (result : Option Result) (now : Int)
  | commit (i : Nat)

/-- The cancellation is what this call has asked for first. -/
def Queue.acceptsCancel (q : Queue) (id : Nat) (e : Entry) (now : Int) : Bool :=
  ¬e.status.cancelRequested ∧ ((q.cancelEntry id e now).1.entries.get? id).any fun e => e.status.cancelRequested

def System.step (sum256 : Bytes → Bytes) (s : System) : Event → System
  | .submit r epoch now admission =>
    match s.toQueue.submit sum256 r epoch now admission with
    | .error _ => s
    | .ok (q, id) =>
      { s with
        toQueue := q
        log := if id = s.entries.next then s.log ++ [.submitted id admission.release] else s.log }
  | .cancel owner id now =>
    match s.owned owner id with
    | none => s
    | some e =>
      let r := s.cancelEntry id e now
      { s with
        toQueue := r.1
        owed := s.owed ++ r.2
        log := if s.acceptsCancel id e now then s.log ++ [.cancelAccepted id] else s.log }
  | .release i =>
    match s.owed[i]? with
    | none => s
    | some id => { s with owed := s.owed.eraseIdx i, log := s.log ++ [.admissionReleased id] }
  | .ack owner id =>
    match s.toQueue.acknowledged owner id with
    | none => s
    | some e => { s with toQueue := s.ackEntry id e, log := s.log ++ [.acknowledged id] }
  | .tick now => s.tick now
  | .advanceDispatch reservation => s.advanceDispatch reservation
  | .advanceJob i result now => s.advanceJob i result now
  | .commit i => s.commit i

end CubeRouter.Studio
