import CubeRouter.Payment.CreditOnce

/-!
# Redemption codes

The codes of `model/redemption.go`. A user redeems a code by its key, and an invitation campaign draws one from
its pool for a user (`DispatchRedemptionToUser`). Both are one transaction: it locks the row of the code, moves its
status from `enabled` to `used` and adds the quota to the wallet. An administrator edits a code
(`controller/redemption.go`) by reading the whole row and writing it back later, with its status as it was read.

`payouts` is a history variable: every credit that was made for a code.
-/

namespace CubeRouter.Payment

open Relational Transition

/-- `common.RedemptionCodeStatus…`; an administrator may write any other number. -/
inductive RedemptionStatus
  | enabled
  | disabled
  | used
  | other (status : Int)
  deriving DecidableEq

structure Redemption where
  key : String
  status : RedemptionStatus := .enabled
  name : String := ""
  quota : Int
  redeemedTime : Int := 0
  usedUserId : Nat := 0
  ownerAdminId : Nat := 0
  campaignId : Nat := 0
  /-- `0` is never. -/
  expiredTime : Int := 0

structure Payout where
  codeId : Nat
  userId : Nat
  quota : Int

structure Store extends DB where
  redemptions : Table Redemption := .empty
  payouts : List Payout := []

inductive RedemptionError
  | keyMissing
  | invalidUserId
  | invalidCode
  | alreadyUsed
  | expired
  | redeemFailed
  | concurrentlyDispatched
  | recipientMissing
  | quotaNotPositive
  | quotaTooLarge
  | expireTimeInvalid
  | idMissing
  | recordNotFound
  | database
  | credit (error : TopUpError)

def RedemptionError.message : RedemptionError → String
  | .keyMissing => "未提供兑换码"
  | .invalidUserId => "无效的 user id"
  | .invalidCode => "无效的兑换码"
  | .alreadyUsed => "该兑换码已被使用"
  | .expired => "该兑换码已过期"
  | .redeemFailed => "redeem.failed"
  | .concurrentlyDispatched => "redemption code was concurrently dispatched"
  | .recipientMissing => "redemption recipient user does not exist"
  | .quotaNotPositive => "redemption quota must be positive"
  | .quotaTooLarge => "wallet quota exceeds 9007199254740991"
  | .expireTimeInvalid => "redemption.expire_time_invalid"
  | .idMissing => "id 为空！"
  | .recordNotFound => "record not found"
  | .database => "database error"
  | .credit error => error.message

/-! ## Paying a code out -/

def Redemption.markUsed (redemption : Redemption) (now : Int) (userId : Nat) : Redemption :=
  { redemption with redeemedTime := now, status := .used, usedUserId := userId }

/-- `UPDATE … WHERE id = ? AND status = enabled`; `none` when no row was affected. -/
def Store.claimCode (s : Store) (id : Nat) (now : Int) (userId : Nat) : Option Store :=
  match s.redemptions.get? id with
  | none => none
  | some redemption =>
    if redemption.status = .enabled then
      some { s with redemptions := s.redemptions.modify id fun r => r.markUsed now userId }
    else none

def Store.paidOut (s : Store) (id userId : Nat) (quota : Int) : Store :=
  { s with payouts := ⟨id, userId, quota⟩ :: s.payouts }

def redeemTx (now : Int) (key : String) (userId : Nat) (s : Store) : Except RedemptionError (Int × Store) :=
  match s.redemptions.find? fun r => r.key == key with
  | none => .error .invalidCode
  | some (id, redemption) =>
    if redemption.status ≠ .enabled then
      .error .alreadyUsed
    else if redemption.expiredTime ≠ 0 ∧ redemption.expiredTime < now then
      .error .expired
    else
      match s.claimCode id now userId with
      | none => .error .alreadyUsed
      | some s =>
        match creditTopUpQuota s.toDB userId redemption.quota (fun user => user) with
        | .error e => .error (.credit e)
        | .ok db => .ok (redemption.quota, { s with toDB := db }.paidOut id userId redemption.quota)

/-- Whatever went wrong in the transaction, the caller sees one error. -/
def redeem (now : Int) (key : String) (userId : Nat) (s : Store) : Except RedemptionError (Int × Store) :=
  if key = "" then
    .error .keyMissing
  else if userId = 0 then
    .error .invalidUserId
  else
    match redeemTx now key userId s with
    | .error _ => .error .redeemFailed
    | .ok r => .ok r

/-- A code of the campaign's pool that can be drawn at `now`. -/
def Redemption.available (redemption : Redemption) (now : Int) (campaignId ownerAdminId : Nat) : Bool :=
  redemption.campaignId = campaignId ∧ redemption.ownerAdminId = ownerAdminId ∧ redemption.status = .enabled ∧
    (redemption.expiredTime = 0 ∨ now < redemption.expiredTime)

def Store.addQuota (s : Store) (userId : Nat) (quota : Int) : Store :=
  { s with users := s.users.modify userId fun u => { u with quota := u.quota + quota } }

/-- Draws the first available code for the user; `none` is an empty pool. The wallet has no ceiling here. -/
def dispatchRedemptionToUser (now : Int) (campaignId ownerAdminId userId : Nat) (s : Store) :
    Except RedemptionError (Option (Nat × Redemption) × Store) :=
  match s.redemptions.find? fun r => r.available now campaignId ownerAdminId with
  | none => .ok (none, s)
  | some (id, redemption) =>
    match s.claimCode id now userId with
    | none => .error .concurrentlyDispatched
    | some s =>
      if (s.users.get? userId).isSome then
        .ok (some (id, redemption), (s.addQuota userId redemption.quota).paidOut id userId redemption.quota)
      else
        .error .recipientMissing

/-! ## Editing a code -/

/-- The body of an `UpdateRedemption` request; with `statusOnly` it sets the status and nothing else. -/
structure RedemptionRequest where
  id : Nat
  statusOnly : Bool := false
  name : String := ""
  quota : Int := 0
  expiredTime : Int := 0
  status : RedemptionStatus := .enabled

def getRedemptionById (s : Store) (id : Nat) : Except RedemptionError Redemption :=
  if id = 0 then
    .error .idMissing
  else
    match s.redemptions.get? id with
    | none => .error .recordNotFound
    | some redemption => .ok redemption

/-- The row that was read, with the fields of the request. -/
def RedemptionRequest.edit (req : RedemptionRequest) (now : Int) (redemption : Redemption) :
    Except RedemptionError Redemption :=
  if req.statusOnly then
    .ok { redemption with status := req.status }
  else if req.quota ≤ 0 then
    .error .quotaNotPositive
  else if Billing.maxWalletQuota < req.quota then
    .error .quotaTooLarge
  else if req.expiredTime ≠ 0 ∧ req.expiredTime < now then
    .error .expireTimeInvalid
  else
    .ok { redemption with name := req.name, quota := req.quota, expiredTime := req.expiredTime }

/-- The columns that `Redemption.Update` selects are written from the copy. -/
def Redemption.written (redemption copy : Redemption) : Redemption :=
  { redemption with
    name := copy.name
    status := copy.status
    quota := copy.quota
    redeemedTime := copy.redeemedTime
    expiredTime := copy.expiredTime }

def updateRedemption (id : Nat) (copy : Redemption) (s : Store) : Except RedemptionError (Unit × Store) :=
  if copy.quota ≤ 0 then
    .error .quotaNotPositive
  else if Billing.maxWalletQuota < copy.quota then
    .error .quotaTooLarge
  else
    .ok ((), { s with redemptions := s.redemptions.modify id fun r => r.written copy })

/-! ## What a transaction does to the codes -/

/-- A code was paid out: it was enabled and is used, and its quota is in the wallet. -/
structure PaidOut (s s' : Store) (id userId : Nat) (redemption : Redemption) (now : Int) : Prop where
  get : s.redemptions.get? id = some redemption
  enabled : redemption.status = .enabled
  codes : s'.redemptions = s.redemptions.modify id fun r => r.markUsed now userId
  payouts : s'.payouts = ⟨id, userId, redemption.quota⟩ :: s.payouts
  wallet : ∃ user, s.users.get? userId = some user ∧
    s'.users = s.users.modify userId fun u => { u with quota := u.quota + redemption.quota }

variable {s s' : Store} {id userId : Nat} {now : Int}

theorem claimCode_some (h : s.claimCode id now userId = some s') :
    s' = { s with redemptions := s.redemptions.modify id fun r => r.markUsed now userId } := by
  unfold Store.claimCode at h
  split at h
  · cases h
  · split_ifs at h
    exact (Option.some.inj h).symm

variable {key : String} {quota : Int}

/-- A redeemed code was enabled; it is claimed, and its quota is credited under the ceiling of the wallet. -/
theorem redeem_inv (h : redeem now key userId s = .ok (quota, s')) :
    ∃ id redemption db, s.redemptions.get? id = some redemption ∧ redemption.status = .enabled ∧
      redemption.quota = quota ∧ creditTopUpQuota s.toDB userId quota (fun user => user) = .ok db ∧
      s' = { s with
        toDB := db
        redemptions := s.redemptions.modify id fun r => r.markUsed now userId
        payouts := ⟨id, userId, quota⟩ :: s.payouts } := by
  unfold redeem at h
  split_ifs at h
  split at h
  · cases h
  · rename_i r hr
    cases h
    unfold redeemTx at hr
    split at hr
    · cases hr
    · rename_i id redemption hfound
      split_ifs at hr with hstatus hexpired
      split at hr
      · cases hr
      · rename_i s1 hclaim
        split at hr
        · cases hr
        · rename_i db hcredit
          obtain rfl := claimCode_some hclaim
          cases hr
          exact ⟨id, redemption, db, (Table.find?_some hfound).1, not_not.mp hstatus, rfl, hcredit, rfl⟩

theorem redeem_ok (h : redeem now key userId s = .ok (quota, s')) :
    ∃ id redemption, PaidOut s s' id userId redemption now ∧ redemption.quota = quota ∧ 0 < quota ∧
      s'.topUps = s.topUps ∧ s'.entries = s.entries := by
  obtain ⟨id, redemption, _, hget, henabled, rfl, hcredit, rfl⟩ := redeem_inv h
  obtain ⟨user, huser⟩ := creditTopUpQuota_user hcredit
  obtain ⟨hpos, rfl⟩ := creditTopUpQuota_ok hcredit
  exact ⟨id, redemption, ⟨hget, henabled, rfl, rfl, user, huser, rfl⟩, rfl, hpos, rfl, rfl⟩

theorem redeem_room (h : redeem now key userId s = .ok (quota, s')) {user : User}
    (huser : s.users.get? userId = some user) : user.quota + quota ≤ Billing.maxWalletQuota := by
  obtain ⟨_, _, _, -, -, -, hcredit, -⟩ := redeem_inv h
  exact creditTopUpQuota_room hcredit huser

theorem dispatchRedemptionToUser_ok {campaignId ownerAdminId : Nat} {drawn : Option (Nat × Redemption)}
    (h : dispatchRedemptionToUser now campaignId ownerAdminId userId s = .ok (drawn, s')) : (drawn = none ∧ s' = s ∧
        ∀ i r, s.redemptions.get? i = some r → r.available now campaignId ownerAdminId = false) ∨
      ∃ id redemption, drawn = some (id, redemption) ∧ PaidOut s s' id userId redemption now ∧
        redemption.available now campaignId ownerAdminId = true ∧ s'.topUps = s.topUps ∧ s'.entries = s.entries := by
  unfold dispatchRedemptionToUser at h
  split at h
  · rename_i hnone
    cases h
    exact .inl ⟨rfl, rfl, Table.find?_eq_none_iff.mp hnone⟩
  · rename_i id redemption hfound
    obtain ⟨hget, havailable⟩ := Table.find?_some hfound
    split at h
    · cases h
    · rename_i s1 hclaim
      obtain rfl := claimCode_some hclaim
      split_ifs at h with huser
      cases h
      obtain ⟨user, huser⟩ := Option.isSome_iff_exists.mp huser
      have henabled : redemption.status = .enabled := by
        simp only [Redemption.available, decide_eq_true_eq] at havailable
        exact havailable.2.2.1
      exact .inr ⟨id, redemption, rfl, ⟨hget, henabled, rfl, rfl, user, huser, rfl⟩, havailable, rfl, rfl⟩

theorem updateRedemption_ok {copy : Redemption} {r : Unit} (h : updateRedemption id copy s = .ok (r, s')) :
    s' = { s with redemptions := s.redemptions.modify id fun r => r.written copy } := by
  unfold updateRedemption at h
  split_ifs at h
  cases h
  rfl

end CubeRouter.Payment
