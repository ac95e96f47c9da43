import CubeRouter.Billing.Accounts

/-!
# Subscriptions and the group of a user

A plan can move its buyer into an upgrade group (`model/subscription.go`). The subscription stores the group it
moved the user out of, and when it ends the user goes back there, unless another upgraded subscription is still
active. A subscription ends when it is due (`ExpireDueSubscriptions`, one transaction for each user with a due
subscription) or when an administrator cancels or deletes it. A change of the group reaches the users
invited by the user as well.

The calendar of `time.Time.AddDate`, which depends on the time zone, is a parameter.
-/

namespace CubeRouter.Subscription

open Relational Transition
open Ledger (trimSpace)
open Billing (SubscriptionStatus)

structure User where
  group : String
  inviterId : Nat := 0

/-- `SubscriptionDuration…`. -/
inductive DurationUnit
  | year
  | month
  | day
  | hour
  | custom
  | other
  deriving DecidableEq

structure SubscriptionPlan where
  id : Nat
  durationUnit : DurationUnit := .month
  durationValue : Int := 1
  customSeconds : Int := 0
  maxPurchasePerUser : Int := 0
  upgradeGroup : String := ""
  downgradeGroup : String := ""

/-- The columns of a subscription that have to do with groups. -/
structure UserSubscription where
  userId : Nat
  planId : Nat
  startTime : Int
  endTime : Int
  status : SubscriptionStatus := .active
  upgradeGroup : String := ""
  prevUserGroup : String := ""
  downgradeGroup : String := ""

structure DB where
  users : Table User := .empty
  subscriptions : Table UserSubscription := .empty

inductive SubscriptionError
  | invalidPlan
  | invalidUserId
  | invalidSubscriptionId
  | purchaseLimitReached
  | durationNotPositive
  | customSecondsNotPositive
  | invalidDurationUnit
  | recordNotFound

/-! ## The end of a plan -/

/-- `AddDate(years, months, 0)` on a time in seconds. -/
structure Calendar where
  addDate : Int → Int → Int → Int

def wrapInt64 (x : Int) : Int := (x + 2 ^ 63) % 2 ^ 64 - 2 ^ 63

/-- `start.Add(n * unit).Unix()`: a `time.Duration` counts nanoseconds and wraps around. -/
def addDuration (start n seconds : Int) : Int := start + wrapInt64 (n * (seconds * 1000000000)) / 1000000000

def calcPlanEndTime (cal : Calendar) (start : Int) (plan : SubscriptionPlan) : Except SubscriptionError Int :=
  if plan.durationValue ≤ 0 ∧ plan.durationUnit ≠ .custom then
    .error .durationNotPositive
  else
    match plan.durationUnit with
    | .year => .ok (cal.addDate start plan.durationValue 0)
    | .month => .ok (cal.addDate start 0 plan.durationValue)
    | .day => .ok (addDuration start plan.durationValue 86400)
    | .hour => .ok (addDuration start plan.durationValue 3600)
    | .custom =>
      if plan.customSeconds ≤ 0 then .error .customSecondsNotPositive
      else .ok (addDuration start plan.customSeconds 1)
    | .other => .error .invalidDurationUnit

/-! ## The group of a user -/

def getUserGroupById (db : DB) (userId : Nat) : Except SubscriptionError String :=
  if userId = 0 then
    .error .invalidUserId
  else
    match db.users.get? userId with
    | none => .error .recordNotFound
    | some user => .ok user.group

/-- The users invited by the user follow it. -/
def updateUserGroupWithInvitees (db : DB) (userId : Nat) (group : String) : DB :=
  { db with
    users := (db.users.modify userId fun user => { user with group }).updateWhere
      (fun user => user.inviterId = userId) fun user => { user with group } }

/-- The user has an upgraded subscription with time left, other than `except` (`0` for no exception). -/
def hasActiveUpgrade (db : DB) (userId : Nat) (now : Int) (except : Nat) : Bool :=
  db.subscriptions.any fun id sub =>
    sub.userId = userId ∧ sub.status = .active ∧ now < sub.endTime ∧ id ≠ except ∧ sub.upgradeGroup ≠ ""

/-- The group to go back to when `sub` ends, empty for none: the group of the plan if it names one, else the
group before the purchase, for a user who is in the group of the subscription. -/
def downgradeTarget (sub : UserSubscription) (currentGroup : String) : String :=
  if trimSpace sub.downgradeGroup ≠ "" then trimSpace sub.downgradeGroup
  else if currentGroup ≠ trimSpace sub.upgradeGroup then ""
  else trimSpace sub.prevUserGroup

/-- The group that was set, empty for none. -/
def downgradeUserGroupForSubscription (db : DB) (id : Nat) (sub : UserSubscription) (now : Int) :
    Except SubscriptionError (String × DB) :=
  if trimSpace sub.downgradeGroup = "" ∧ trimSpace sub.upgradeGroup = "" then
    .ok ("", db)
  else do
    let currentGroup ← getUserGroupById db sub.userId
    if hasActiveUpgrade db sub.userId now id then
      .ok ("", db)
    else
      let target := downgradeTarget sub currentGroup
      if target = "" ∨ target = currentGroup then .ok ("", db)
      else .ok (target, updateUserGroupWithInvitees db sub.userId target)

/-! ## A subscription begins -/

/-- The group the user had and the database with the new group; the group is stored only if it changes. -/
def upgradeUserGroup (db : DB) (userId : Nat) (upgradeGroup : String) :
    Except SubscriptionError (String × DB) :=
  if upgradeGroup = "" then
    .ok ("", db)
  else do
    let currentGroup ← getUserGroupById db userId
    if currentGroup = upgradeGroup then .ok ("", db)
    else .ok (currentGroup, updateUserGroupWithInvitees db userId upgradeGroup)

def purchaseCount (db : DB) (userId planId : Nat) : Nat :=
  db.subscriptions.sum fun sub => if sub.userId = userId ∧ sub.planId = planId then 1 else 0

/-- The id of the new subscription. -/
def createUserSubscriptionFromPlan (cal : Calendar) (now : Int) (userId : Nat) (plan : SubscriptionPlan)
    (db : DB) : Except SubscriptionError (Nat × DB) :=
  if plan.id = 0 then
    .error .invalidPlan
  else if userId = 0 then
    .error .invalidUserId
  else if 0 < plan.maxPurchasePerUser ∧ plan.maxPurchasePerUser ≤ purchaseCount db userId plan.id then
    .error .purchaseLimitReached
  else do
    let endTime ← calcPlanEndTime cal now plan
    let upgradeGroup := trimSpace plan.upgradeGroup
    let (prevUserGroup, db) ← upgradeUserGroup db userId upgradeGroup
    .ok (db.subscriptions.next, { db with
      subscriptions := db.subscriptions.insert
        { userId
          planId := plan.id
          startTime := now
          endTime
          upgradeGroup
          prevUserGroup
          downgradeGroup := trimSpace plan.downgradeGroup } })

/-! ## A subscription ends -/

/-- What the administrator is told. -/
def downgradeMessage (target : String) : String := if target ≠ "" then "用户分组将回退到 " ++ target else ""

def adminInvalidateUserSubscription (now : Int) (id : Nat) (db : DB) : Except SubscriptionError (String × DB) :=
  if id = 0 then
    .error .invalidSubscriptionId
  else
    match db.subscriptions.get? id with
    | none => .error .recordNotFound
    | some sub => do
      let db := { db with
        subscriptions := db.subscriptions.modify id fun s => { s with status := .cancelled, endTime := now } }
      let (target, db) ← downgradeUserGroupForSubscription db id sub now
      .ok (downgradeMessage target, db)

def adminDeleteUserSubscription (now : Int) (id : Nat) (db : DB) : Except SubscriptionError (String × DB) :=
  if id = 0 then
    .error .invalidSubscriptionId
  else
    match db.subscriptions.get? id with
    | none => .error .recordNotFound
    | some sub => do
      let (target, db) ← downgradeUserGroupForSubscription db id sub now
      .ok (downgradeMessage target, { db with subscriptions := db.subscriptions.delete id })

def UserSubscription.due (sub : UserSubscription) (now : Int) : Bool :=
  sub.status = .active ∧ 0 < sub.endTime ∧ sub.endTime ≤ now

/-- The first write of the transaction. -/
def markExpired (db : DB) (userId : Nat) (now : Int) : DB :=
  { db with
    subscriptions := db.subscriptions.updateWhere (fun sub => sub.userId = userId ∧ sub.due now)
      fun sub => { sub with status := .expired } }

/-- The expired subscription with a group that ended last. -/
def lastExpired (db : DB) (userId : Nat) : Option UserSubscription :=
  db.subscriptions.latest?
    (fun sub => sub.userId = userId ∧ sub.status = .expired ∧ (sub.downgradeGroup ≠ "" ∨ sub.upgradeGroup ≠ ""))
    UserSubscription.endTime

/-- The group to go back to after an expiry: a subscription without an upgrade or without a group before it
leads nowhere. -/
def expiryTarget (sub : UserSubscription) (currentGroup : String) : String :=
  if trimSpace sub.downgradeGroup ≠ "" then trimSpace sub.downgradeGroup
  else if trimSpace sub.upgradeGroup = "" ∨ trimSpace sub.prevUserGroup = "" then ""
  else if currentGroup ≠ trimSpace sub.upgradeGroup then ""
  else trimSpace sub.prevUserGroup

/-- The transaction of `ExpireDueSubscriptions` for one user; the number of subscriptions that expired. -/
def expireUserSubscriptions (now : Int) (userId : Nat) (db : DB) : Except SubscriptionError (Nat × DB) :=
  let expired := db.subscriptions.sum fun sub => if sub.userId = userId ∧ sub.due now then 1 else 0
  let db := markExpired db userId now
  if hasActiveUpgrade db userId now 0 then
    .ok (expired, db)
  else
    match lastExpired db userId with
    | none => .ok (expired, db)
    | some sub => do
      let currentGroup ← getUserGroupById db userId
      let target := expiryTarget sub currentGroup
      if target = "" ∨ target = currentGroup then .ok (expired, db)
      else .ok (expired, updateUserGroupWithInvitees db userId target)

inductive Event
  | create (now : Int) (userId : Nat) (plan : SubscriptionPlan)
  | expire (now : Int) (userId : Nat)
  | adminInvalidate (now : Int) (id : Nat)
  | adminDelete (now : Int) (id : Nat)

def Event.apply (cal : Calendar) (db : DB) : Event → DB
  | .create now userId plan => commit (createUserSubscriptionFromPlan cal now userId plan) db
  | .expire now userId => commit (expireUserSubscriptions now userId) db
  | .adminInvalidate now id => commit (adminInvalidateUserSubscription now id) db
  | .adminDelete now id => commit (adminDeleteUserSubscription now id) db

end CubeRouter.Subscription
