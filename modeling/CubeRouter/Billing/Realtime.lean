import CubeRouter.Billing.PostConsume
import CubeRouter.Lib.Decimal

/-!
# Realtime sessions

`OpenaiRealtimeHandler` (`relay/channel/openai/relay_realtime.go`) adds up the usage of a WebSocket
session: what the upstream reports, or what is counted locally when it reports nothing. At the end of a
turn `preConsumeUsage` adds the turn to `sumUsage` and `PreWssConsumeQuota` (`service/quota.go`) charges
it at once; when the session is over, `PostWssConsumeQuota` computes the quota of `sumUsage` and settles
the billing session with it.

Ratios are decimals, as the settings are when they are read. The readers of the two sockets are interleaved
message by message.
-/

namespace CubeRouter.Billing

open Relational Transition Ledger

/-! ## Usage -/

structure InputTokenDetails where
  cachedTokens : Int := 0
  textTokens : Int := 0
  audioTokens : Int := 0

structure OutputTokenDetails where
  textTokens : Int := 0
  audioTokens : Int := 0

structure RealtimeUsage where
  totalTokens : Int := 0
  inputTokens : Int := 0
  outputTokens : Int := 0
  inputTokenDetails : InputTokenDetails := {}
  outputTokenDetails : OutputTokenDetails := {}

def RealtimeUsage.add (u v : RealtimeUsage) : RealtimeUsage where
  totalTokens := u.totalTokens + v.totalTokens
  inputTokens := u.inputTokens + v.inputTokens
  outputTokens := u.outputTokens + v.outputTokens
  inputTokenDetails := {
    cachedTokens := u.inputTokenDetails.cachedTokens + v.inputTokenDetails.cachedTokens
    textTokens := u.inputTokenDetails.textTokens + v.inputTokenDetails.textTokens
    audioTokens := u.inputTokenDetails.audioTokens + v.inputTokenDetails.audioTokens }
  outputTokenDetails := {
    textTokens := u.outputTokenDetails.textTokens + v.outputTokenDetails.textTokens
    audioTokens := u.outputTokenDetails.audioTokens + v.outputTokenDetails.audioTokens }

/-- What one message adds to the usage that is counted locally. -/
def countedInput (textToken audioToken : Int) : RealtimeUsage where
  totalTokens := textToken + audioToken
  inputTokens := textToken + audioToken
  inputTokenDetails := { textTokens := textToken, audioTokens := audioToken }

def countedOutput (textToken audioToken : Int) : RealtimeUsage where
  totalTokens := textToken + audioToken
  outputTokens := textToken + audioToken
  outputTokenDetails := { textTokens := textToken, audioTokens := audioToken }

/-! ## Prices -/

/-- What `ratio_setting` and `common.QuotaPerUnit` say at one moment. `mulFloat` is the product of two
`float64`. -/
structure RatioSetting where
  quotaPerUnit : ℚ := 500000
  getGroupRatio : String → ℚ := fun _ => 1
  getGroupGroupRatio : String → String → Option ℚ := fun _ _ => none
  getModelRatio : String → ℚ := fun _ => 75 / 2
  getCompletionRatio : String → ℚ := fun _ => 1
  getAudioRatio : String → ℚ := fun _ => 1
  getAudioCompletionRatio : String → ℚ := fun _ => 1
  mulFloat : ℚ → ℚ → ℚ := fun a b => a * b

structure TokenDetails where
  textTokens : Int
  audioTokens : Int

structure QuotaInfo where
  inputDetails : TokenDetails
  outputDetails : TokenDetails
  modelName : String
  usePrice : Bool := false
  modelPrice : ℚ := 0
  modelRatio : ℚ
  groupRatio : ℚ

def maxQuota : Int := 2 ^ 31 - 1

def minQuota : Int := -2 ^ 31

/-- `QuotaFromDecimalChecked`, without the note it leaves when the value was cut. -/
def quotaFromDecimal (d : ℚ) : Int := Decimal.saturate minQuota maxQuota (Decimal.roundAway d)

def QuotaInfo.ratio (info : QuotaInfo) : ℚ := info.groupRatio * info.modelRatio

/-- The tokens at their ratios, before the model's and the group's. -/
def QuotaInfo.weighted (info : QuotaInfo) (rs : RatioSetting) : ℚ :=
  info.inputDetails.textTokens + info.outputDetails.textTokens * rs.getCompletionRatio info.modelName +
    info.inputDetails.audioTokens * rs.getAudioRatio info.modelName +
    info.outputDetails.audioTokens * rs.getAudioRatio info.modelName *
      rs.getAudioCompletionRatio info.modelName

def calculateAudioQuota (rs : RatioSetting) (info : QuotaInfo) : Int :=
  if info.usePrice then
    quotaFromDecimal (info.modelPrice * rs.quotaPerUnit * info.groupRatio)
  else
    let quota := info.weighted rs * info.ratio
    quotaFromDecimal (if info.ratio ≠ 0 ∧ quota ≤ 0 then 1 else quota)

/-- The usage costs nothing: a ratio is zero, or the cost is rounded down to zero. -/
def QuotaInfo.free (info : QuotaInfo) (rs : RatioSetting) : Prop :=
  info.ratio = 0 ∨ (0 < info.weighted rs * info.ratio ∧ info.weighted rs * info.ratio < 1 / 2)

instance (info : QuotaInfo) (rs : RatioSetting) : Decidable (info.free rs) :=
  inferInstanceAs (Decidable (_ ∨ _ ∧ _))

theorem quotaFromDecimal_nonneg {d : ℚ} (h : 0 ≤ d) : 0 ≤ quotaFromDecimal d :=
  Decimal.saturate_nonneg (by decide) (Decimal.roundAway_nonneg h)

theorem quotaFromDecimal_eq_zero_iff {d : ℚ} (h : 0 ≤ d) : quotaFromDecimal d = 0 ↔ d < 1 / 2 := by
  rw [quotaFromDecimal, Decimal.saturate_eq_zero_iff (by decide) (by decide) (Decimal.roundAway_nonneg h),
    Decimal.roundAway_eq_zero_iff h]

/-- What is rounded is never negative: where a ratio applies, a cost of zero or less counts as `1`. -/
theorem charged_decimal_nonneg (rs : RatioSetting) (info : QuotaInfo) :
    0 ≤ if info.ratio ≠ 0 ∧ info.weighted rs * info.ratio ≤ 0 then 1 else info.weighted rs * info.ratio := by
  split_ifs with hlow
  · exact zero_le_one
  · by_cases hratio : info.ratio = 0
    · rw [hratio, mul_zero]
    · rw [not_and, not_le] at hlow
      exact (hlow hratio).le

theorem calculateAudioQuota_nonneg (rs : RatioSetting) {info : QuotaInfo} (h : info.usePrice = false) :
    0 ≤ calculateAudioQuota rs info := by
  rw [calculateAudioQuota, if_neg (by simp [h])]
  exact quotaFromDecimal_nonneg (charged_decimal_nonneg rs info)

theorem calculateAudioQuota_eq_zero_iff (rs : RatioSetting) {info : QuotaInfo} (h : info.usePrice = false) :
    calculateAudioQuota rs info = 0 ↔ info.free rs := by
  rw [calculateAudioQuota, if_neg (by simp [h]), QuotaInfo.free]
  rw [quotaFromDecimal_eq_zero_iff (charged_decimal_nonneg rs info)]
  by_cases hratio : info.ratio = 0
  · simp [hratio]
  · by_cases hlow : info.weighted rs * info.ratio ≤ 0
    · rw [if_pos ⟨hratio, hlow⟩]
      constructor
      · intro hone
        norm_num at hone
      · rintro (hzero | hpos)
        · exact absurd hzero hratio
        · exact absurd hlow (not_le.mpr hpos.1)
    · rw [if_neg (fun hc => hlow hc.2)]
      simp [hratio, not_le.mp hlow]

/-! ## Charging a turn -/

structure PriceData where
  modelPrice : ℚ := 0
  modelRatio : ℚ := 0
  groupRatio : ℚ := 1
  usePrice : Bool := false

/-- The fields of `RelayInfo` that only the realtime path reads. `userModelDiscounts` is `none` when the
token carries no snapshot. -/
structure RealtimeInfo where
  upstreamModelName : String := ""
  billingModelName : String := ""
  userGroup : String := ""
  actorUserId : Nat := 0
  userModelDiscounts : Option (String → Option ℚ) := none
  usePrice : Bool := false
  priceData : PriceData := {}

/-- What a charge reads from outside: the clock, the settings, the auto group of the request's context,
the discounts a user has (`none` on an error), and the two cached rows. -/
structure TurnEnv where
  env : Env
  ratios : RatioSetting := {}
  autoGroup : Option String := none
  getUserModelDiscounts : Nat → Option (String → Option ℚ) := fun _ => none
  cachedUserQuota : Option Int := none
  cachedToken : Option Token := none

/-- An entry outside `(0, 1]` counts as no entry. -/
def lookupModelDiscount (discounts : Option (String → Option ℚ)) (modelName : String) : ℚ :=
  match discounts.bind fun d => d modelName with
  | none => 1
  | some discount => if 0 < discount ∧ discount ≤ 1 then discount else 1

def RealtimeInfo.getBillingModelName (info : RealtimeInfo) (relayInfo : RelayInfo) : String :=
  if info.billingModelName ≠ "" then info.billingModelName else relayInfo.originModelName

/-- The discounts of the token, or else of the actor. -/
def RealtimeInfo.discounts (info : RealtimeInfo) (t : TurnEnv) (relayInfo : RelayInfo) :
    Option (String → Option ℚ) :=
  match info.userModelDiscounts with
  | some d => some d
  | none =>
    let actorUserId := if info.actorUserId = 0 then relayInfo.userId else info.actorUserId
    if actorUserId = 0 then none else t.getUserModelDiscounts actorUserId

/-- An auto group replaces the group of the request, which keeps it. -/
def withAutoGroup (t : TurnEnv) (relayInfo : RelayInfo) : RelayInfo :=
  { relayInfo with usingGroup := t.autoGroup.getD relayInfo.usingGroup }

/-- The group ratio of a turn: that of the user's group for the group in use, when there is one, times
the discount. -/
def actualGroupRatio (t : TurnEnv) (info : RealtimeInfo) (relayInfo : RelayInfo) : ℚ :=
  let usingGroup := (withAutoGroup t relayInfo).usingGroup
  let groupRatio := (t.ratios.getGroupGroupRatio info.userGroup usingGroup).getD
    (t.ratios.getGroupRatio usingGroup)
  t.ratios.mulFloat groupRatio
    (lookupModelDiscount (info.discounts t relayInfo) (info.getBillingModelName relayInfo))

def RealtimeUsage.quotaInfo (usage : RealtimeUsage) (modelName : String) (usePrice : Bool)
    (modelPrice modelRatio groupRatio : ℚ) : QuotaInfo where
  inputDetails := ⟨usage.inputTokenDetails.textTokens, usage.inputTokenDetails.audioTokens⟩
  outputDetails := ⟨usage.outputTokenDetails.textTokens, usage.outputTokenDetails.audioTokens⟩
  modelName := modelName
  usePrice := usePrice
  modelPrice := modelPrice
  modelRatio := modelRatio
  groupRatio := groupRatio

/-- How `PreWssConsumeQuota` prices a turn: by the ratios of the requested model. -/
def turnQuotaInfo (t : TurnEnv) (info : RealtimeInfo) (relayInfo : RelayInfo) (usage : RealtimeUsage) :
    QuotaInfo :=
  usage.quotaInfo relayInfo.originModelName info.usePrice 0
    (t.ratios.getModelRatio relayInfo.originModelName) (actualGroupRatio t info relayInfo)

def getTokenByKey (st : Settings) (cached : Option Token) (w : World) (key : String) :
    Except BillingError Token :=
  match if st.redisEnabled then cached else none with
  | some token => .ok token
  | none =>
    match w.tokens.find? fun token => !token.deleted && token.key == key with
    | some (_, token) => .ok token
    | none => .error .recordNotFound

/-- A turn is refused when the caller's own wallet or the token could not pay it; otherwise it is charged
at once. -/
def preWssConsumeQuota (st : Settings) (t : TurnEnv) (info : RealtimeInfo) (usage : RealtimeUsage)
    (relayInfo : RelayInfo) (w : World) : PostConsumed :=
  if info.usePrice then
    { relayInfo, world := w }
  else
    match getUserQuota st { userQuota := t.cachedUserQuota } w relayInfo.userId with
    | .error e => { error := some e, relayInfo, world := w }
    | .ok userQuota =>
      match getTokenByKey st t.cachedToken w (trimTokenPrefix relayInfo.tokenKey) with
      | .error e => { error := some e, relayInfo, world := w }
      | .ok token =>
        let quota := calculateAudioQuota t.ratios (turnQuotaInfo t info relayInfo usage)
        let relayInfo := withAutoGroup t relayInfo
        if userQuota < quota then
          { error := some .userQuotaNotEnough, relayInfo, world := w }
        else if !token.unlimitedQuota ∧ token.remainQuota < quota then
          { error := some .tokenQuotaNotEnough, relayInfo, world := w }
        else
          postConsumeQuota st t.env relayInfo quota w

/-! ## The handler -/

def FundingSource.withRelayInfo (relayInfo : RelayInfo) : FundingSource → FundingSource
  | .organization f => .organization { f with relayInfo }
  | .wallet f => .wallet f
  | .subscription f => .subscription f

/-- Session and funding source hold the request itself, so they see what is written to it. -/
def Request.withRelayInfo (r : Request) (relayInfo : RelayInfo) : Request where
  relayInfo := relayInfo
  billing := r.billing.map fun s => { s with relayInfo, funding := s.funding.withRelayInfo relayInfo }

/-- The handler's three usages, with the request and the database. `error` is the first charge that
failed. -/
structure Realtime where
  usage : RealtimeUsage := {}
  localUsage : RealtimeUsage := {}
  sumUsage : RealtimeUsage := {}
  request : Request
  world : World
  error : Option BillingError := none

def Realtime.preConsumeUsage (st : Settings) (info : RealtimeInfo) (t : TurnEnv) (usage : RealtimeUsage)
    (σ : Realtime) : Realtime :=
  let p := preWssConsumeQuota st t info usage σ.request.relayInfo σ.world
  { σ with
    sumUsage := σ.sumUsage.add usage
    request := σ.request.withRelayInfo p.relayInfo
    world := p.world
    error := σ.error.or p.error }

/-- A message, with the tokens `CountTokenRealtime` finds in it or the usage it reports; `closeUsage` and
`closeLocalUsage` are what the handler does when a socket is closed. -/
inductive RealtimeEvent
  | clientMessage (textToken audioToken : Int)
  | targetMessage (textToken audioToken : Int)
  | sessionUpdated
  | responseDone (t : TurnEnv) (usage : RealtimeUsage)
  | responseDoneUnreported (t : TurnEnv) (textToken audioToken : Int)
  | closeUsage (t : TurnEnv)
  | closeLocalUsage (t : TurnEnv)

def Realtime.charges (σ : Realtime) : RealtimeEvent → Option (TurnEnv × RealtimeUsage)
  | .responseDone t reported => some (t, σ.usage.add reported)
  | .responseDoneUnreported t textToken audioToken =>
    some (t, σ.localUsage.add (countedInput textToken audioToken))
  | .closeUsage t => if σ.usage.totalTokens ≠ 0 then some (t, σ.usage) else none
  | .closeLocalUsage t => if σ.localUsage.totalTokens ≠ 0 then some (t, σ.localUsage) else none
  | .clientMessage .. | .targetMessage .. | .sessionUpdated => none

/-- The turn an event charges, if it charges one, costs nothing at the ratios of `PreWssConsumeQuota`. -/
def Realtime.freeTurn (info : RealtimeInfo) (σ : Realtime) (e : RealtimeEvent) : Prop :=
  ∀ t usage, σ.charges e = some (t, usage) →
    (turnQuotaInfo t info σ.request.relayInfo usage).free t.ratios

instance (info : RealtimeInfo) (σ : Realtime) (e : RealtimeEvent) : Decidable (σ.freeTurn info e) :=
  match h : σ.charges e with
  | none => .isTrue fun t usage hc => nomatch h.symm.trans hc
  | some (t, usage) =>
    decidable_of_iff ((turnQuotaInfo t info σ.request.relayInfo usage).free t.ratios)
      ⟨fun hfree t' usage' hc => by
        cases h.symm.trans hc
        exact hfree, fun hfree => hfree t usage h⟩

/-- A charge that fails stops the readers, and the usage of the turn is not cleared. -/
def Realtime.step (st : Settings) (info : RealtimeInfo) (σ : Realtime) (e : RealtimeEvent) : Realtime :=
  match e with
  | .clientMessage textToken audioToken =>
    if σ.error.isSome then σ
    else { σ with localUsage := σ.localUsage.add (countedInput textToken audioToken) }
  | .targetMessage textToken audioToken =>
    if σ.error.isSome then σ
    else { σ with localUsage := σ.localUsage.add (countedOutput textToken audioToken) }
  | .sessionUpdated => σ
  | .responseDone t reported =>
    if σ.error.isSome then σ
    else
      let usage := σ.usage.add reported
      let σ := { σ with usage }.preConsumeUsage st info t usage
      if σ.error.isSome then σ else { σ with usage := {}, localUsage := {} }
  | .responseDoneUnreported t textToken audioToken =>
    if σ.error.isSome then σ
    else
      let localUsage := σ.localUsage.add (countedInput textToken audioToken)
      let σ := { σ with localUsage }.preConsumeUsage st info t localUsage
      if σ.error.isSome then σ else { σ with localUsage := {} }
  | .closeUsage t =>
    if σ.usage.totalTokens ≠ 0 then σ.preConsumeUsage st info t σ.usage else σ
  | .closeLocalUsage t =>
    if σ.localUsage.totalTokens ≠ 0 then σ.preConsumeUsage st info t σ.localUsage else σ

def sessionEvents (messages : List RealtimeEvent) (t t' : TurnEnv) : List RealtimeEvent :=
  messages ++ [.closeUsage t, .closeLocalUsage t']

/-- The handler after a session that was opened as `r₁` in `w₁`. -/
def openaiRealtimeHandler (st : Settings) (info : RealtimeInfo) (messages : List RealtimeEvent) (t t' : TurnEnv)
    (r₁ : Request) (w₁ : World) : Realtime :=
  run (Realtime.step st info) { request := r₁, world := w₁ } (sessionEvents messages t t')

/-! ## The end of a session -/

/-- What `PostWssConsumeQuota` leaves; `quota` is what it writes to the log. -/
structure WssSettlement where
  error : Option BillingError := none
  quota : Int
  request : Request
  world : World

/-- `tieredQuota` is what `TryTieredSettle` answers, `none` without a tiered snapshot. -/
def wssQuota (rs : RatioSetting) (info : RealtimeInfo) (usage : RealtimeUsage) (tieredQuota : Option Int) :
    Int :=
  if usage.totalTokens = 0 then 0
  else tieredQuota.getD (calculateAudioQuota rs (usage.quotaInfo info.upstreamModelName
    info.priceData.usePrice info.priceData.modelPrice info.priceData.modelRatio info.priceData.groupRatio))

/-- The usage counters of the user, unless an organization pays, and of the channel. -/
def countWssUsage (st : Settings) (relayInfo : RelayInfo) (usage : RealtimeUsage) (quota : Int) (w : World) :
    World :=
  if usage.totalTokens = 0 then w
  else
    let w := if isOrganizationBilling relayInfo then w
      else updateUserUsedQuotaAndRequestCount st w relayInfo.userId quota
    updateChannelUsedQuota st w relayInfo.channelId quota

def postWssConsumeQuota (st : Settings) (env : Env) (rs : RatioSetting) (info : RealtimeInfo)
    (tieredQuota : Option Int) (usage : RealtimeUsage) (r : Request) (w : World) : WssSettlement :=
  let quota := wssQuota rs info usage tieredQuota
  let o := settleBilling st env quota r (countWssUsage st r.relayInfo usage quota w)
  ⟨o.error, quota, o.request, o.world⟩

end CubeRouter.Billing
