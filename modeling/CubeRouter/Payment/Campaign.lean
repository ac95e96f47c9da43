import CubeRouter.Payment.Redemption
import CubeRouter.Lib.Pool

/-!
# Invitation campaigns

The campaign engine of `service/campaign.go` for registrations by invitation. A registration starts a goroutine that
goes through the active campaigns; for each it takes a participant row under the lock of the campaign (the
admission), draws a code from the pool of the campaign for the new user, and gives the row back when the pool is
empty. Between these steps other goroutines run.

`dispatches` is a history variable, as is `inviterId` of a participant. The texts of the rewards, their mails and the
logs are left out.
-/

namespace CubeRouter.Payment

open Relational Transition

inductive CampaignType
  | phoneFilled
  | invitation
  | other (type : String)
  deriving DecidableEq

inductive CampaignStatus
  | draft
  | active
  | paused
  | ended
  deriving DecidableEq

/-- The part of `CampaignConfig` that the engine reads. -/
structure CampaignConfig where
  quota : Int := 0
  redemptionName : String := ""
  /-- `0` is no limit. -/
  maxParticipants : Int := 0
  maxRewardsPerUser : Int := 0
  expireDays : Int := 0
  inviteeUserId : Nat := 0
  codeCount : Int := 0
  deriving DecidableEq

/-- `config` is what `ParseCampaignConfig` makes of `config_json`; `none` does not parse. -/
structure Campaign where
  name : String := ""
  type : CampaignType
  status : CampaignStatus := .draft
  startAt : Int := 0
  endAt : Int := 0
  config : Option CampaignConfig := some {}
  deriving DecidableEq

structure CampaignParticipant where
  campaignId : Nat
  userId : Nat
  inviterId : Nat

inductive CampaignRewardStatus
  | pending
  | dispatched
  | failed
  | cancelled

structure CampaignReward where
  campaignId : Nat
  userId : Nat
  redemptionId : Nat
  quota : Int
  status : CampaignRewardStatus

/-- A code of the campaign was credited to the user. -/
structure Dispatch where
  campaignId : Nat
  redemptionId : Nat
  userId : Nat

/-- Where the goroutine of a registration stands with the campaign it is at. -/
inductive Stage
  | admission
  | dispatch (participantId : Nat)
  | release (participantId : Nat)
  deriving DecidableEq

/-- The goroutine of a registration; `stage` is about the first of `campaigns`. -/
structure Handler where
  userId : Nat
  inviterId : Nat
  campaigns : List (Nat × Campaign)
  stage : Stage := .admission
  deriving DecidableEq

structure Campaigns extends Store where
  campaigns : Table Campaign := .empty
  participants : Table CampaignParticipant := .empty
  rewards : List CampaignReward := []
  dispatches : List Dispatch := []
  handlers : List Handler := []

inductive CampaignError
  | campaignFull
  | userRewardLimit
  | recordNotFound
  | idMissing
  | database
  | configInvalid
  | inviteeMissing
  | inviteeNotFound
  | quotaNotPositive

def CampaignError.message : CampaignError → String
  | .campaignFull => "campaign participant limit reached"
  | .userRewardLimit => "campaign per-user reward limit reached"
  | .recordNotFound => "record not found"
  | .idMissing => "id 为空"
  | .database => "database error"
  | .configInvalid => "解析活动配置失败"
  | .inviteeMissing => "邀请活动缺少关联用户"
  | .inviteeNotFound => "关联用户不存在"
  | .quotaNotPositive => "奖励额度必须大于0"

/-! ## Admission -/

def participantsOf (campaignId : Nat) (s : Campaigns) : Nat :=
  s.participants.count fun p => p.campaignId = campaignId

def participantsOfUser (campaignId userId : Nat) (s : Campaigns) : Nat :=
  s.participants.count fun p => p.campaignId = campaignId ∧ p.userId = userId

/-- One transaction under the lock of the campaign row. -/
def createCampaignParticipantIfAllowed (dbError : Bool) (participant : CampaignParticipant)
    (maxParticipants maxRewardsPerUser : Int) (s : Campaigns) : Except CampaignError (Nat × Campaigns) :=
  if dbError then
    .error .database
  else if (s.campaigns.get? participant.campaignId).isNone then
    .error .recordNotFound
  else if 0 < maxParticipants ∧ maxParticipants ≤ participantsOf participant.campaignId s then
    .error .campaignFull
  else if 0 < maxRewardsPerUser ∧
      maxRewardsPerUser ≤ participantsOfUser participant.campaignId participant.userId s then
    .error .userRewardLimit
  else
    .ok (s.participants.next, { s with participants := s.participants.insert participant })

def deleteCampaignParticipantById (dbError : Bool) (id : Nat) (s : Campaigns) :
    Except CampaignError (Unit × Campaigns) :=
  if id = 0 then
    .error .idMissing
  else if dbError then
    .error .database
  else
    .ok ((), { s with participants := s.participants.delete id })

/-! ## The reward -/

/-- Where the dispatch leaves the goroutine: done with the campaign, or about to release its slot. -/
inductive DispatchOutcome
  | done
  | poolEmpty

def Campaigns.recordReward (s : Campaigns) (campaignId userId redemptionId : Nat) (quota : Int)
    (status : CampaignRewardStatus) : Campaigns :=
  { s with rewards := ⟨campaignId, userId, redemptionId, quota, status⟩ :: s.rewards }

def dispatchInvitationReward (dbError : Bool) (now : Int) (campaignId userId inviterId : Nat)
    (config : CampaignConfig) (s : Campaigns) : DispatchOutcome × Campaigns :=
  if config.inviteeUserId = 0 then
    (.done, s)
  else if config.inviteeUserId ≠ inviterId then
    (.done, s)
  else if dbError then
    (.done, s.recordReward campaignId userId 0 config.quota .failed)
  else
    match dispatchRedemptionToUser now campaignId config.inviteeUserId userId s.toStore with
    | .error _ => (.done, s.recordReward campaignId userId 0 config.quota .failed)
    | .ok (none, _) => (.poolEmpty, s)
    | .ok (some (redemptionId, redemption), store) =>
      (.done, { s with
        toStore := store
        dispatches := ⟨campaignId, redemptionId, userId⟩ :: s.dispatches }.recordReward campaignId userId redemptionId
          redemption.quota .dispatched)

/-- A step of the goroutine with the campaign it is at; what is left of the goroutine comes back with the state. A
campaign of another type is not read by `handleCampaignType` for a registration. -/
def Handler.processCampaignForUser (dbError : Bool) (now : Int) (h : Handler) (campaignId : Nat)
    (campaign : Campaign) (rest : List (Nat × Campaign)) (s : Campaigns) : Campaigns × Handler :=
  let next : Handler := { h with campaigns := rest, stage := .admission }
  match campaign.config with
  | none => (s, next)
  | some config =>
    match h.stage with
    | .admission =>
      match createCampaignParticipantIfAllowed dbError ⟨campaignId, h.userId, h.inviterId⟩ config.maxParticipants
          config.maxRewardsPerUser s with
      | .error _ => (s, next)
      | .ok (participantId, s) =>
        if campaign.type = .invitation then (s, { h with stage := .dispatch participantId }) else (s, next)
    | .dispatch participantId =>
      match dispatchInvitationReward dbError now campaignId h.userId h.inviterId config s with
      | (.done, s) => (s, next)
      | (.poolEmpty, s) => (s, { h with stage := .release participantId })
    | .release participantId => (commit (deleteCampaignParticipantById dbError participantId) s, next)

/-- `none` when the goroutine has ended. -/
def Handler.step (dbError : Bool) (now : Int) (h : Handler) (s : Campaigns) : Campaigns × List Handler :=
  match h.campaigns with
  | [] => (s, [])
  | (campaignId, campaign) :: rest =>
    let (s, h) := h.processCampaignForUser dbError now campaignId campaign rest s
    (s, [h])

def Campaign.activeAt (campaign : Campaign) (type : CampaignType) (now : Int) : Bool :=
  campaign.type = type ∧ campaign.status = .active ∧ campaign.startAt ≤ now ∧
    (campaign.endAt = 0 ∨ now < campaign.endAt)

def getActiveCampaignsByType (s : Campaigns) (type : CampaignType) (now : Int) : List (Nat × Campaign) :=
  s.campaigns.select fun campaign => campaign.activeAt type now

def onInvitationRegister (now : Int) (userId inviterId : Nat) (s : Campaigns) : Campaigns :=
  if userId = 0 ∨ inviterId = 0 then s
  else
    { s with handlers := s.handlers ++
        [{ userId := userId, inviterId := inviterId, campaigns := getActiveCampaignsByType s .invitation now }] }

/-! ## Topping up the pool -/

/-- `Redemption.Insert`; the key is a unique index. -/
def insertRedemption (redemption : Redemption) (s : Campaigns) : Except RedemptionError (Unit × Campaigns) :=
  if redemption.quota ≤ 0 then
    .error .quotaNotPositive
  else if Billing.maxWalletQuota < redemption.quota then
    .error .quotaTooLarge
  else if (s.redemptions.find? fun r => r.key == redemption.key).isSome then
    .error .database
  else
    .ok ((), { s with redemptions := s.redemptions.insert redemption })

/-- A code that cannot be inserted is skipped. -/
def insertCodes (code : String → Redemption) (keys : List String) (s : Campaigns) : Campaigns :=
  keys.foldl (fun s key => commit (insertRedemption (code key)) s) s

/-- How many codes are to be generated: `codeCount` is taken between `1` and `1000`. -/
def CampaignConfig.needGenerate (config : CampaignConfig) (available : Nat) : Int :=
  min (if config.codeCount ≤ 0 then 1 else config.codeCount) 1000 - available

/-- A code of the campaign's pool. -/
def invitationCode (now : Int) (campaignId : Nat) (name : String) (config : CampaignConfig) (key : String) :
    Redemption where
  key := key
  name := if config.redemptionName = "" then "邀请活动-" ++ name else config.redemptionName
  quota := config.quota
  expiredTime := if 0 < config.expireDays then now + config.expireDays * 86400 else 0
  ownerAdminId := config.inviteeUserId
  campaignId := campaignId

/-- `keys` are the random keys with the prefix of the invitee. -/
def generateInvitationCodes (now : Int) (campaignId : Nat) (keys : Nat → String) (s : Campaigns) :
    Except CampaignError (Unit × Campaigns) :=
  match s.campaigns.get? campaignId with
  | none => .error .recordNotFound
  | some campaign =>
    match campaign.config with
    | none => .error .configInvalid
    | some config =>
      if config.inviteeUserId = 0 then
        .error .inviteeMissing
      else if (s.users.get? config.inviteeUserId).isNone then
        .error .inviteeNotFound
      else
        let available := s.redemptions.count fun r => r.available now campaignId config.inviteeUserId
        let needGenerate := config.needGenerate available
        if needGenerate ≤ 0 then
          .ok ((), s)
        else if config.quota ≤ 0 then
          .error .quotaNotPositive
        else
          .ok ((), insertCodes (invitationCode now campaignId campaign.name config)
            ((List.range needGenerate.toNat).map keys) s)

/-- A registration, a step of one of the goroutines, or a top-up of a pool. -/
inductive CampaignEvent
  | onInvitationRegister (now : Int) (userId inviterId : Nat)
  | step (i : Nat) (now : Int) (dbError : Bool)
  | generateInvitationCodes (now : Int) (campaignId : Nat) (keys : Nat → String)

def Campaigns.step (s : Campaigns) : CampaignEvent → Campaigns
  | .onInvitationRegister now userId inviterId => Payment.onInvitationRegister now userId inviterId s
  | .step i now dbError =>
    match s.handlers[i]? with
    | none => s
    | some h =>
      let (s', left) := h.step dbError now s
      { s' with handlers := s.handlers.eraseIdx i ++ left }
  | .generateInvitationCodes now campaignId keys => commit (Payment.generateInvitationCodes now campaignId keys) s

end CubeRouter.Payment
