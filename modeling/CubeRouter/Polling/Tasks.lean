import CubeRouter.Lib.CompareAndSet
import CubeRouter.Ledger.Funding

/-!
# Polling of asynchronous tasks

The pollers of `service/task_polling.go`. A process reads the unfinished tasks into memory and visits them one by
one: it asks the upstream, changes the task in memory and writes the whole row back with `UpdateWithStatus`, which
succeeds only while the stored status is the one that was read. A visit that ends a task is followed by its final
billing, a step of its own: other processes may take steps in between.

What the upstream, the plugin and the rest of billing answer is an input of the visit (`Answers`,
`VideoResponse`, `BatchTaskResult`). The leases of organization sessions and the logs are left out.
-/

namespace CubeRouter.Polling

open Relational Transition
open Ledger (trimSpace)

/-- `model.TaskStatus…`; an upstream may also answer any other text. -/
inductive TaskStatus
  | notStart
  | submitted
  | queued
  | inProgress
  | failure
  | success
  | unknown
  | other (text : String)
  deriving DecidableEq

def TaskStatus.done (status : TaskStatus) : Bool := status = .success ∨ status = .failure

/-- A row of `tasks`. The fields from `upstreamTaskID` on are kept in `PrivateData`; `tiered` says that the
billing context has a tiered snapshot. -/
structure Task where
  taskID : String := ""
  platform : String := ""
  channelId : Nat := 0
  quota : Int := 0
  status : TaskStatus := .notStart
  progress : String := ""
  submitTime : Int := 0
  startTime : Int := 0
  finishTime : Int := 0
  failReason : String := ""
  data : String := ""
  upstreamTaskID : String := ""
  resultURL : String := ""
  pluginState : String := ""
  pollFailures : Int := 0
  tiered : Bool := false
  perCallBilling : Bool := false
  deriving DecidableEq

def Task.getUpstreamTaskID (task : Task) : String :=
  if task.upstreamTaskID ≠ "" then task.upstreamTaskID else task.taskID

structure TaskSnapshot where
  status : TaskStatus
  progress : String
  startTime : Int
  finishTime : Int
  failReason : String
  resultURL : String
  data : String
  pluginState : String
  pollFailures : Int
  deriving DecidableEq

def Task.snapshot (task : Task) : TaskSnapshot :=
  { status := task.status
    progress := task.progress
    startTime := task.startTime
    finishTime := task.finishTime
    failReason := task.failReason
    resultURL := task.resultURL
    data := task.data
    pluginState := task.pluginState
    pollFailures := task.pollFailures }

structure TaskInfo where
  status : TaskStatus
  reason : String := ""
  url : String := ""
  progress : String := ""
  completionTokens : Int := 0
  totalTokens : Int := 0
  pluginState : String := ""
  deriving DecidableEq

def failTaskInfo (reason : String) : TaskInfo := { status := .failure, reason }

structure BatchTaskResult where
  taskInfo : TaskInfo
  submitTime : Int := 0
  startTime : Int := 0
  finishTime : Int := 0
  data : Option String := none
  deriving DecidableEq

structure Config where
  taskPollMaxFailures : Int := 20
  serverAddress : String := ""

/-- What a visit meets: the clock, whether the write fails, whether the database counts a row that stays the
same, and what the final billing would come to by the expression, the adaptor and the tokens. -/
structure Answers where
  now : Int := 0
  dbError : Bool := false
  noopCounts : Bool := true
  expression : Option Int := none
  adjust : Int := 0
  byTokens : Option Int := none
  deriving DecidableEq

/-- The whole row is written if its status is still `fromStatus`. -/
def updateWithStatus (a : Answers) (row : Option Task) (task : Task) (fromStatus : TaskStatus) :
    Update × Option Task :=
  compareAndSet Task.status a.dbError a.noopCounts row task fromStatus

/-! ## The final billing -/

inductive BillingAction
  | recalculate (actualQuota : Int)
  | refund
  deriving DecidableEq

/-- Whether the usage settles the task, and the recalculation it asks for. -/
def settleTaskBillingOnComplete (a : Answers) (task : Task) (taskResult : TaskInfo) :
    Bool × Option BillingAction :=
  if task.tiered then
    if task.status = .failure then (false, none)
    else (true, a.expression.map .recalculate)
  else if task.perCallBilling then
    (false, none)
  else if 0 < a.adjust then
    (true, some (.recalculate a.adjust))
  else
    let tokens :=
      if taskResult.totalTokens = 0 ∧ 0 < taskResult.completionTokens then taskResult.completionTokens
      else taskResult.totalTokens
    if 0 < tokens then (a.byTokens.isSome, a.byTokens.map .recalculate) else (false, none)

/-- A failed task that its usage does not settle is given back. -/
def finalizeBilling (a : Answers) (task : Task) (taskResult : TaskInfo) : Option BillingAction :=
  let (billingSettled, action) := settleTaskBillingOnComplete a task taskResult
  if task.status = .failure ∧ ¬billingSettled ∧ task.quota ≠ 0 then some .refund else action

/-! ## Classes of answers -/

inductive PollClass
  | ok
  | otherClient
  | notFound
  | auth
  | transient
  | unrecognized
  | hookError
  | transport
  | channelLookup
  deriving DecidableEq

def PollClass.text : PollClass → String
  | .ok => "ok"
  | .otherClient => "other_client"
  | .notFound => "not_found"
  | .auth => "auth"
  | .transient => "transient"
  | .unrecognized => "unrecognized"
  | .hookError => "hook_error"
  | .transport => "transport_error"
  | .channelLookup => "channel_lookup"

def classifyPollHTTP (statusCode : Int) : PollClass :=
  if 200 ≤ statusCode ∧ statusCode < 300 then .ok
  else if statusCode = 404 ∨ statusCode = 410 then .notFound
  else if statusCode = 401 ∨ statusCode = 403 then .auth
  else if statusCode = 429 ∨ 500 ≤ statusCode then .transient
  else if 400 ≤ statusCode ∧ statusCode < 500 then .otherClient
  else .transient

def isNonTerminalPollStatus : TaskStatus → Bool
  | .notStart | .submitted | .queued | .inProgress => true
  | _ => false

def knownPollStatus (status : TaskStatus) : Bool := isNonTerminalPollStatus status || status.done

def pollFailureReason (cls : PollClass) (statusCode : Int) (detail : String) : String :=
  let reason :=
    if 0 < statusCode then "poll failed: " ++ cls.text ++ " (HTTP " ++ toString statusCode ++ ")"
    else "poll failed: " ++ cls.text
  if detail ≠ "" then reason ++ ": " ++ detail else reason

/-- `excerpt` is the redacted body, cut to its first 512 bytes. -/
def unrecognizedPollDetail (reason excerpt : String) : String :=
  if trimSpace reason = "" then "body=" ++ excerpt else reason ++ "; body=" ++ excerpt

def notFoundReason (statusCode : Int) : String := "upstream task not found (HTTP " ++ toString statusCode ++ ")"

/-! ## Visits -/

/-- The task in memory and in the database after a visit; `final` is set when a final billing follows, with
the movement of money it comes to. -/
structure Visited where
  task : Task
  row : Option Task
  final : Option (Option BillingAction) := none

def orNow (time now : Int) : Int := if time = 0 then now else time

def failTaskFromPoll (a : Answers) (task : Task) (row : Option Task) (fromStatus : TaskStatus)
    (reason : String) : Visited :=
  let task := { task with
    status := .failure
    progress := "100%"
    finishTime := orNow task.finishTime a.now
    failReason := reason }
  match updateWithStatus a row task fromStatus with
  | (.won, row) => { task, row, final := some (finalizeBilling a task (failTaskInfo reason)) }
  | (_, row) => { task, row }

/-- A failed poll counts; the last one of the budget fails the task. -/
def recordPollFailure (cfg : Config) (a : Answers) (task : Task) (row : Option Task) (fromStatus : TaskStatus)
    (cls : PollClass) (statusCode : Int) (detail : String) : Visited :=
  let task := { task with pollFailures := task.pollFailures + 1 }
  if 0 < cfg.taskPollMaxFailures ∧ cfg.taskPollMaxFailures ≤ task.pollFailures then
    failTaskFromPoll a task row fromStatus (pollFailureReason cls statusCode detail)
  else
    { task, row := (updateWithStatus a row task fromStatus).2 }

/-- The body as one of our own envelopes, or as the adaptor reads it. -/
inductive VideoParse
  | envelope (taskResult : TaskInfo) (data : String)
  | hook (taskResult : TaskInfo)
  | hookError (detail : String)
  deriving DecidableEq

inductive VideoResponse
  | transportError (detail : String)
  | unreadable (statusCode : Int) (detail : String)
  | answered (statusCode : Int) (parsed : VideoParse) (redacted excerpt : String)
  deriving DecidableEq

def buildProxyURL (cfg : Config) (taskID : String) : String :=
  cfg.serverAddress ++ "/v1/videos/" ++ taskID ++ "/content"

/-- A `data:` address stays in the body; without an address the proxy's is used. -/
def resultURL (cfg : Config) (taskID url : String) : String :=
  if url = "" ∨ url.startsWith "data:" then buildProxyURL cfg taskID else url

def applyVideoStatus (cfg : Config) (a : Answers) (task : Task) (taskResult : TaskInfo) : Task :=
  let task := { task with status := taskResult.status }
  let task :=
    match taskResult.status with
    | .submitted => { task with progress := "10%" }
    | .queued => { task with progress := "20%" }
    | .inProgress => { task with progress := "30%", startTime := orNow task.startTime a.now }
    | .success =>
      { task with
        progress := "100%"
        finishTime := orNow task.finishTime a.now
        resultURL := resultURL cfg task.taskID taskResult.url }
    | .failure =>
      { task with
        progress := "100%"
        finishTime := orNow task.finishTime a.now
        failReason := taskResult.reason }
    | _ => task
  if taskResult.progress ≠ "" ∧ taskResult.status ≠ .failure then { task with progress := taskResult.progress }
  else task

/-- A change to a final status is written and billed if the write is won. Otherwise the row is written if
anything changed, and a task that is done is billed without a look at the write. -/
def finishVideo (a : Answers) (snap task : Task) (row : Option Task) (taskResult : TaskInfo) : Visited :=
  if task.status.done ∧ snap.status ≠ task.status then
    match updateWithStatus a row task snap.status with
    | (.won, row) => { task, row, final := some (finalizeBilling a task taskResult) }
    | (_, row) => { task, row }
  else
    { task
      row := if snap.snapshot = task.snapshot then row else (updateWithStatus a row task snap.status).2
      final := if task.status.done then some (finalizeBilling a task taskResult) else none }

def applyVideoResult (cfg : Config) (a : Answers) (snap task : Task) (row : Option Task) (statusCode : Int)
    (redacted excerpt : String) (taskResult : TaskInfo) : Visited :=
  if ¬knownPollStatus taskResult.status ∨
      (classifyPollHTTP statusCode = .otherClient ∧ isNonTerminalPollStatus taskResult.status) then
    recordPollFailure cfg a task row snap.status .unrecognized statusCode
      (unrecognizedPollDetail taskResult.reason excerpt)
  else
    let task := { task with
      data := redacted
      pluginState := if taskResult.pluginState ≠ "" then taskResult.pluginState else task.pluginState
      pollFailures := if isNonTerminalPollStatus taskResult.status then 0 else task.pollFailures }
    finishVideo a snap (applyVideoStatus cfg a task taskResult) row taskResult

def updateVideoSingleTask (cfg : Config) (a : Answers) (task : Task) (row : Option Task)
    (response : VideoResponse) : Visited :=
  match response with
  | .transportError detail => recordPollFailure cfg a task row task.status .transport 0 detail
  | .unreadable statusCode detail => recordPollFailure cfg a task row task.status .transport statusCode detail
  | .answered statusCode parsed redacted excerpt =>
    match classifyPollHTTP statusCode with
    | .notFound => failTaskFromPoll a task row task.status (notFoundReason statusCode)
    | .auth => recordPollFailure cfg a task row task.status .auth statusCode ""
    | .transient => recordPollFailure cfg a task row task.status .transient statusCode ""
    | _ =>
      match parsed with
      | .hookError detail => recordPollFailure cfg a task row task.status .hookError statusCode detail
      | .hook taskResult => applyVideoResult cfg a task task row statusCode redacted excerpt taskResult
      | .envelope taskResult data =>
        applyVideoResult cfg a task { task with data } row statusCode redacted excerpt taskResult

/-- The task with the fields of an item; a reason makes it a failure. -/
def applyBatchItem (task : Task) (item : BatchTaskResult) : Task :=
  let info := item.taskInfo
  let task := { task with
    pollFailures := if isNonTerminalPollStatus info.status then 0 else task.pollFailures
    pluginState := if info.pluginState ≠ "" then info.pluginState else task.pluginState
    status := info.status
    failReason := if info.reason ≠ "" then info.reason else task.failReason
    submitTime := if item.submitTime ≠ 0 then item.submitTime else task.submitTime
    startTime := if item.startTime ≠ 0 then item.startTime else task.startTime
    finishTime := if item.finishTime ≠ 0 then item.finishTime else task.finishTime
    progress := if info.progress ≠ "" then info.progress else task.progress }
  let task :=
    if info.reason ≠ "" ∨ task.status = .failure then { task with status := .failure, progress := "100%" } else task
  let task := if info.status = .success then { task with progress := "100%" } else task
  { task with
    data := item.data.getD task.data
    resultURL := if info.url ≠ "" then info.url else task.resultURL }

/-- The part of `updateBatchTasks` for one item of the answer. -/
def updateBatchItem (cfg : Config) (a : Answers) (task : Task) (row : Option Task) (statusCode : Int)
    (item : BatchTaskResult) : Visited :=
  let snap := task
  if ¬knownPollStatus item.taskInfo.status ∨
      (classifyPollHTTP statusCode = .otherClient ∧ isNonTerminalPollStatus item.taskInfo.status) then
    recordPollFailure cfg a task row snap.status .unrecognized statusCode item.taskInfo.reason
  else
    let task := applyBatchItem task item
    let terminalTransition := task.status.done && snap.status ≠ task.status
    match updateWithStatus a row task snap.status with
    | (.won, row) =>
      { task, row, final := if terminalTransition then some (finalizeBilling a task item.taskInfo) else none }
    | (_, row) => { task, row }

def taskRefundLegacyCutoff : Int := 1771718400

/-- The part of `failAndRefundTasks` for one task. -/
def failAndRefundTask (a : Answers) (task : Task) (row : Option Task) (reason legacyReason : String) : Visited :=
  let isLegacy := 0 < task.submitTime ∧ task.submitTime < taskRefundLegacyCutoff
  let oldStatus := task.status
  let task := { task with
    status := .failure
    progress := "100%"
    finishTime := a.now
    failReason := if isLegacy then legacyReason else reason
    quota := if isLegacy then 0 else task.quota }
  match updateWithStatus a row task oldStatus with
  | (.won, row) => { task, row, final := if ¬isLegacy ∧ task.quota ≠ 0 then some (some .refund) else none }
  | (_, row) => { task, row }

/-- What a process does with a task in memory. -/
inductive Visit
  | video (response : VideoResponse)
  | batchItem (statusCode : Int) (item : BatchTaskResult)
  | pollFailure (cls : PollClass) (statusCode : Int) (detail : String)
  | fail (reason : String)
  | failAndRefund (reason legacyReason : String)
  deriving DecidableEq

def Visit.run (cfg : Config) (a : Answers) (visit : Visit) (task : Task) (row : Option Task) : Visited :=
  match visit with
  | .video response => updateVideoSingleTask cfg a task row response
  | .batchItem statusCode item => updateBatchItem cfg a task row statusCode item
  | .pollFailure cls statusCode detail => recordPollFailure cfg a task row task.status cls statusCode detail
  | .fail reason => failTaskFromPoll a task row task.status reason
  | .failAndRefund reason legacyReason => failAndRefundTask a task row reason legacyReason

/-! ## Processes -/

structure Object where
  rowId : Nat
  task : Task

/-- A final billing: the process, its object, the row and the movement of money. -/
structure Finalization where
  process : Nat
  object : Nat
  rowId : Nat
  action : Option BillingAction
  deriving DecidableEq

/-- The rows, the memory of each process, the final billings that a process is about to make and those made. -/
structure State where
  tasks : Table Task := .empty
  objects : Nat → List Object := fun _ => []
  due : List Finalization := []
  performed : List Finalization := []

/-- `GetAllUnFinishSyncTasks` and `GetTimedOutUnfinishedTasks` read such rows only. -/
def Task.unfinished (task : Task) : Bool := task.progress ≠ "100%" ∧ ¬task.status.done

inductive Event
  | read (process rowId : Nat)
  | visit (process object : Nat) (answers : Answers) (visit : Visit)
  | bill (i : Nat) (writesQuota : Bool)
  deriving DecidableEq

def setObjects (s : State) (process : Nat) (objects : List Object) : State :=
  { s with objects := fun q => if q = process then objects else s.objects q }

def BillingAction.quotaAfter : BillingAction → Int
  | .recalculate actualQuota => actualQuota
  | .refund => 0

/-- `UpdateQuota` writes one column, of the row and of the task in memory. -/
def writeQuota (s : State) (f : Finalization) (action : BillingAction) : State :=
  let s := { s with tasks := s.tasks.modify f.rowId fun task => { task with quota := action.quotaAfter } }
  setObjects s f.process ((s.objects f.process).modify f.object fun o =>
    { o with task := { o.task with quota := action.quotaAfter } })

/-- A process reads an unfinished row, visits a task of its memory, or makes a final billing it owes. The
quota is written back unless the money did not move or an organization paid. -/
def step (cfg : Config) (s : State) : Event → State
  | .read process rowId =>
    match s.tasks.get? rowId with
    | some task => if task.unfinished then setObjects s process (s.objects process ++ [⟨rowId, task⟩]) else s
    | none => s
  | .visit process object answers visit =>
    match (s.objects process)[object]? with
    | none => s
    | some o =>
      let r := visit.run cfg answers o.task (s.tasks.get? o.rowId)
      let s := setObjects s process ((s.objects process).set object ⟨o.rowId, r.task⟩)
      { s with
        tasks := match r.row with
          | some row => s.tasks.modify o.rowId fun _ => row
          | none => s.tasks
        due := (r.final.map fun action => ⟨process, object, o.rowId, action⟩).toList ++ s.due }
  | .bill i writesQuota =>
    match s.due[i]? with
    | none => s
    | some f =>
      let s := { s with due := s.due.eraseIdx i, performed := f :: s.performed }
      match f.action with
      | some action => if writesQuota then writeQuota s f action else s
      | none => s

/-! ## A pass

`RunTaskPollingOnce` indexes the tasks of a platform by their upstream id; where two share one, the later task
stands under it, and the id stands twice in the lists of the channels. -/

def taskM (objects : List Object) (platform upstreamID : String) : Option Nat :=
  objects.zipIdx.foldl (fun found (o, i) =>
    if o.task.platform = platform ∧ o.task.getUpstreamTaskID = upstreamID then some i else found) none

def taskChannelM (objects : List Object) (platform : String) (channelId : Nat) : List String :=
  (objects.filter fun o =>
    o.task.platform = platform ∧ o.task.channelId = channelId ∧ o.task.getUpstreamTaskID ≠ "").map
    fun o => o.task.getUpstreamTaskID

/-- The tasks of a channel as the loops visit them. -/
def channelTasks (objects : List Object) (platform : String) (channelId : Nat) : List Nat :=
  (taskChannelM objects platform channelId).filterMap (taskM objects platform)

def failTasksFromPoll (process : Nat) (tasks : List Nat) (answers : Answers) (reason : String) : List Event :=
  tasks.map fun i => .visit process i answers (.fail reason)

end CubeRouter.Polling
