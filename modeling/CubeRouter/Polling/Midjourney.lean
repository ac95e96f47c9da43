import CubeRouter.Lib.CompareAndSet
import CubeRouter.Lib.Run
import CubeRouter.Lib.Table

/-!
# Midjourney tasks

The legacy Midjourney tasks of `controller/midjourney.go`, `relay/mjproxy_handler.go` and `service/midjourney.go`.
A task is stored with its quota and charged to the wallet of its user. Four writers change it afterwards: the
polling update, which is guarded by the status it has read and gives the quota back when the task fails; two bulk
failures, for tasks without an upstream id and for tasks of a channel that is gone; and the callback of the
upstream. The last three write without a guard and give nothing back.

A process is one pass of `runMidjourneyTaskUpdateOnce`: it reads rows into its memory and works on that. The callback
reads a row and saves all of it later, and a refund comes after the write that was won: these are separate steps. The
status and the progress are texts of the upstream. The tokens, the usage counters and the logs of a refund are left
out.
-/

namespace CubeRouter.Midjourney

open Relational Transition

structure Midjourney where
  code : Int := 0
  userId : Nat
  mjId : String := ""
  promptEn : String := ""
  state : String := ""
  submitTime : Int := 0
  startTime : Int := 0
  finishTime : Int := 0
  imageUrl : String := ""
  videoUrl : String := ""
  videoUrls : String := ""
  status : String := ""
  progress : String := ""
  failReason : String := ""
  channelId : Nat := 0
  quota : Int := 0
  buttons : String := ""
  properties : String := ""
  tokenId : Nat := 0
  billingChannelId : Nat := 0
  /-- `IsOrganizationBilling`. -/
  organization : Bool := false
  deriving DecidableEq

/-- What the upstream says of a task. `videoUrls`, `buttons` and `properties` are the marshalled texts;
`hasVideoUrls` says that the list is not empty. -/
structure MidjourneyDto where
  mjId : String
  promptEn : String := ""
  state : String := ""
  submitTime : Int := 0
  startTime : Int := 0
  finishTime : Int := 0
  imageUrl : String := ""
  videoUrl : String := ""
  videoUrls : String := "null"
  hasVideoUrls : Bool := false
  status : String := ""
  progress : String := ""
  failReason : String := ""
  buttons : Option String := none
  properties : Option String := none

def Midjourney.failed (task : Midjourney) : Bool := task.status = "FAILURE" ∧ task.progress = "100%"

/-! ## Passes -/

/-- A task in the memory of a pass. -/
structure Object where
  rowId : Nat
  task : Midjourney

/-- A refund that a pass is about to make, for the task as it is in its memory. -/
structure Refund where
  process : Nat
  object : Nat
  rowId : Nat
  task : Midjourney

/-- A callback between its read and its save. -/
structure Callback where
  rowId : Nat
  task : Midjourney
  request : MidjourneyDto

/-- Quota that went back to a wallet. -/
structure Given where
  rowId : Nat
  userId : Nat
  quota : Int

structure State where
  tasks : Table Midjourney := .empty
  wallets : Nat → Int := fun _ => 0
  objects : Nat → List Object := fun _ => []
  due : List Refund := []
  callbacks : List Callback := []
  given : List Given := []

def setObjects (s : State) (process : Nat) (objects : List Object) : State :=
  { s with objects := fun q => if q = process then objects else s.objects q }

def nullTaskIds (objects : List Object) : List Nat :=
  (objects.filter fun o => o.task.mjId = "").map Object.rowId

def taskChannelM (objects : List Object) (channelId : Nat) : List String :=
  (objects.filter fun o => o.task.mjId ≠ "" ∧ o.task.channelId = channelId).map fun o => o.task.mjId

/-- Of several tasks with one upstream id the last one stands for it. -/
def taskM (objects : List Object) (mjId : String) : Option Nat :=
  objects.zipIdx.foldl (fun found (o, i) => if o.task.mjId ≠ "" ∧ o.task.mjId = mjId then some i else found) none

/-- The task an answer is about, with its place in memory. -/
def findTask (objects : List Object) (mjId : String) : Option (Nat × Object) :=
  (taskM objects mjId).bind fun i => objects[i]?.map (i, ·)

def channelFailReason (channelId : Nat) : String :=
  "获取渠道信息失败，请联系管理员，渠道ID：" ++ toString channelId

/-- After an hour an unfinished task has failed whatever the upstream says. -/
def withTimeout (now : Int) (task : Midjourney) (item : MidjourneyDto) : MidjourneyDto :=
  if 3600000 < now - task.submitTime ∧ task.progress ≠ "100%" then
    { item with failReason := "上游任务超时（超过1小时）", status := "FAILURE" }
  else item

def checkMjTaskNeedUpdate (oldTask : Midjourney) (newTask : MidjourneyDto) : Bool :=
  oldTask.code ≠ 1 ∨ oldTask.progress ≠ newTask.progress ∨ oldTask.promptEn ≠ newTask.promptEn ∨
    oldTask.state ≠ newTask.state ∨ oldTask.submitTime ≠ newTask.submitTime ∨
    oldTask.startTime ≠ newTask.startTime ∨ oldTask.finishTime ≠ newTask.finishTime ∨
    oldTask.imageUrl ≠ newTask.imageUrl ∨ oldTask.status ≠ newTask.status ∨
    oldTask.failReason ≠ newTask.failReason ∨ (oldTask.progress ≠ "100%" ∧ newTask.failReason ≠ "") ∨
    oldTask.videoUrl ≠ newTask.videoUrl ∨
    (if newTask.hasVideoUrls then oldTask.videoUrls ≠ newTask.videoUrls else oldTask.videoUrls ≠ "")

def applyItem (task : Midjourney) (item : MidjourneyDto) : Midjourney :=
  { task with
    code := 1
    progress := item.progress
    promptEn := item.promptEn
    state := item.state
    submitTime := item.submitTime
    startTime := item.startTime
    finishTime := item.finishTime
    imageUrl := item.imageUrl
    status := item.status
    failReason := item.failReason
    properties := item.properties.getD task.properties
    buttons := item.buttons.getD task.buttons
    videoUrl := item.videoUrl
    videoUrls := if item.hasVideoUrls then item.videoUrls else "" }

def Midjourney.complete (task : Midjourney) : Midjourney := { task with progress := "100%" }

def MidjourneyDto.fails (item : MidjourneyDto) : Bool :=
  (item.progress ≠ "100%" ∧ item.failReason ≠ "") ∨ (item.progress = "100%" ∧ item.status = "FAILURE")

/-- What the write of a polling update meets. -/
structure Answers where
  now : Int := 0
  dbError : Bool := false
  noopCounts : Bool := true

structure Visited where
  task : Midjourney
  row : Option Midjourney
  refunds : Bool := false

/-- The polling update of one task, up to the refund that may follow. -/
def updateTask (a : Answers) (task : Midjourney) (row : Option Midjourney) (responseItem : MidjourneyDto) :
    Visited :=
  let item := withTimeout a.now task responseItem
  if ¬checkMjTaskNeedUpdate task item then
    { task, row }
  else
    let preStatus := task.status
    let task := applyItem task item
    let task := if item.fails then task.complete else task
    let shouldReturnQuota := item.fails && task.quota ≠ 0
    let (won, row) := compareAndSet Midjourney.status a.dbError a.noopCounts row task preStatus
    { task, row, refunds := won = .won && shouldReturnQuota }

def applyNotify (task : Midjourney) (request : MidjourneyDto) : Midjourney :=
  { task with
    progress := request.progress
    promptEn := request.promptEn
    state := request.state
    submitTime := request.submitTime
    startTime := request.startTime
    finishTime := request.finishTime
    imageUrl := request.imageUrl
    videoUrl := request.videoUrl
    videoUrls := request.videoUrls
    status := request.status
    failReason := request.failReason }

/-! ## Steps -/

inductive Event
  | read (process rowId : Nat)
  | failNullTasks (process : Nat)
  | failChannelTasks (process channelId : Nat)
  | updateTask (process : Nat) (answers : Answers) (item : MidjourneyDto)
  | refund (i : Nat) (walletError : Bool)
  | notifyRead (request : MidjourneyDto)
  | notifySave (i : Nat)

/-- `UpdateBillingState` of the task in memory, whose quota is `0` now. -/
def Refund.updateBillingState (f : Refund) (row : Midjourney) : Midjourney :=
  { row with quota := 0, tokenId := f.task.tokenId, billingChannelId := f.task.billingChannelId }

def Object.zeroQuota (o : Object) : Object := { o with task := { o.task with quota := 0 } }

/-- The refund of `RefundMidjourneyQuota`: an organization's goes to its ledger, a wallet that cannot be changed
leaves everything as it is. -/
def refundMidjourneyQuota (s : State) (f : Refund) (walletError : Bool) : State :=
  if f.task.organization ∨ walletError then
    s
  else
    let s := { s with
      wallets := fun u => if u = f.task.userId then s.wallets u + f.task.quota else s.wallets u
      given := ⟨f.rowId, f.task.userId, f.task.quota⟩ :: s.given
      tasks := s.tasks.modify f.rowId f.updateBillingState }
    setObjects s f.process ((s.objects f.process).modify f.object Object.zeroQuota)

def step (s : State) : Event → State
  | .read process rowId =>
    match s.tasks.get? rowId with
    | some task =>
      if task.progress ≠ "100%" then setObjects s process (s.objects process ++ [⟨rowId, task⟩]) else s
    | none => s
  | .failNullTasks process =>
    { s with
      tasks := s.tasks.updateIds (nullTaskIds (s.objects process)) fun row =>
        { row with status := "FAILURE", progress := "100%" } }
  | .failChannelTasks process channelId =>
    { s with
      tasks := s.tasks.updateWhere (fun row => row.mjId ∈ taskChannelM (s.objects process) channelId) fun row =>
        { row with failReason := channelFailReason channelId, status := "FAILURE", progress := "100%" } }
  | .updateTask process answers item =>
    match findTask (s.objects process) item.mjId with
    | none => s
    | some (i, o) =>
      let r := updateTask answers o.task (s.tasks.get? o.rowId) item
      let s := setObjects s process ((s.objects process).set i ⟨o.rowId, r.task⟩)
      { s with
        tasks := match r.row with
          | some row => s.tasks.modify o.rowId fun _ => row
          | none => s.tasks
        due := if r.refunds then ⟨process, i, o.rowId, r.task⟩ :: s.due else s.due }
  | .refund i walletError =>
    match s.due[i]? with
    | none => s
    | some f => refundMidjourneyQuota { s with due := s.due.eraseIdx i } f walletError
  | .notifyRead request =>
    match s.tasks.find? fun row => row.mjId == request.mjId with
    | none => s
    | some (id, task) => { s with callbacks := ⟨id, task, request⟩ :: s.callbacks }
  | .notifySave i =>
    match s.callbacks[i]? with
    | none => s
    | some c =>
      { s with
        callbacks := s.callbacks.eraseIdx i
        tasks := s.tasks.modify c.rowId fun _ => applyNotify c.task c.request }

end CubeRouter.Midjourney
