import CubeRouter.Billing.Opening
import CubeRouter.Billing.Realtime
import CubeRouter.BillingExpr.RequestRules

/-!
# The hold of a tiered request

`modelPriceHelperTiered` runs the expression once, for the group that the request starts in; before each attempt
`PrepareTieredBillingForSelectedGroup` rescales that estimate to the ratio of the selected group and raises the hold.
A free group is priced with no completion tokens where `max_tokens` is left out, and a paid group that is reached
later keeps that.
-/

namespace CubeRouter.Billing.Tiered

open Relational Transition Ledger

/-! ## The estimate -/

inductive TieredError
  | exprRun (e : String)
  | quotaClamp
  | billing (e : BillingError)

/-- `run` is `RunExprWithRequest` with the expression and the input of the request. -/
structure TieredRequest where
  run : BillingExpr.TokenParams → Except String ℚ
  promptTokens : Int
  maxTokens : Int
  quotaPerUnit : ℚ

def defaultPreConsumeMaxTokens : Int := 8192

def quotaRoundStrict (value : ℚ) : Except TieredError Int :=
  if minQuota ≤ Decimal.roundAway value ∧ Decimal.roundAway value ≤ maxQuota then .ok (Decimal.roundAway value)
  else .error .quotaClamp

structure BillingSnapshot where
  groupRatio : ℚ
  estimatedQuotaBeforeGroup : ℚ
  estimatedQuotaAfterGroup : Int

structure PriceData where
  freeModel : Bool
  groupRatio : ℚ
  quotaToPreConsume : Int

def TieredRequest.estimatedCompletionTokens (r : TieredRequest) (groupRatio : ℚ) : Int :=
  if r.maxTokens = 0 ∧ groupRatio ≠ 0 then defaultPreConsumeMaxTokens else r.maxTokens

def TieredRequest.quotaBeforeGroup (r : TieredRequest) (completionTokens : Int) : Except TieredError ℚ :=
  match r.run { p := r.promptTokens, c := completionTokens, len := r.promptTokens } with
  | .error e => .error (.exprRun e)
  | .ok rawCost => .ok (rawCost / 1000000 * r.quotaPerUnit)

def modelPriceHelperTiered (enableFreeModelPreConsume : Bool) (r : TieredRequest) (groupRatio : ℚ) :
    Except TieredError (PriceData × BillingSnapshot) := do
  let quotaBeforeGroup ← r.quotaBeforeGroup (r.estimatedCompletionTokens groupRatio)
  let preConsumedQuota ← quotaRoundStrict (quotaBeforeGroup * groupRatio)
  let freeModel := !enableFreeModelPreConsume && groupRatio = 0
  let preConsumedQuota := if freeModel then 0 else preConsumedQuota
  .ok (⟨freeModel, groupRatio, preConsumedQuota⟩, ⟨groupRatio, quotaBeforeGroup, preConsumedQuota⟩)

def refreshTieredBillingGroup (groupRatio : ℚ) (snap : BillingSnapshot) : Except TieredError BillingSnapshot :=
  if snap.groupRatio = groupRatio then .ok snap
  else do
    let estimatedQuota ← quotaRoundStrict (snap.estimatedQuotaBeforeGroup * groupRatio)
    .ok { snap with groupRatio, estimatedQuotaAfterGroup := estimatedQuota }

/-! ## Attempts -/

/-- What a step meets: the database may be any that the steps of others have left. -/
structure Scene where
  settings : Settings := {}
  env : Env := ⟨0, 0⟩
  answers : OpenAnswers := {}
  reserveAnswer : CacheAnswer := .ok
  tokenQuota : Int := 0
  world : World

/-- The `RelayInfo` of a tiered request. -/
structure TieredInfo where
  request : Request
  priceData : PriceData
  snapshot : BillingSnapshot

def Scene.preConsumeBilling (scene : Scene) (quota : Int) (r : Request) : Except TieredError Request :=
  (Billing.preConsumeBilling scene.settings scene.env scene.answers scene.tokenQuota quota r
    scene.world).1.mapError .billing

def Scene.reserve (scene : Scene) (quota : Int) (s : BillingSession) : Except TieredError Request :=
  match s.reserve scene.settings scene.env scene.reserveAnswer quota scene.world with
  | ⟨some e, _, _⟩ => .error (.billing e)
  | ⟨none, s, _⟩ => .ok ⟨{ s.relayInfo with finalPreConsumedQuota := s.preConsumedQuota }, some s⟩

def Scene.raise (scene : Scene) (quota : Int) (r : Request) : Except TieredError Request :=
  match r.billing with
  | none => scene.preConsumeBilling quota r
  | some s => scene.reserve quota s

def prepareTieredBillingForSelectedGroup (scene : Scene) (groupRatio : ℚ) (info : TieredInfo) :
    Except TieredError TieredInfo := do
  let snapshot ← refreshTieredBillingGroup groupRatio info.snapshot
  if groupRatio = 0 then .ok { info with snapshot, priceData := { info.priceData with groupRatio } }
  else
    let request ← scene.raise snapshot.estimatedQuotaAfterGroup info.request
    .ok ⟨request, { info.priceData with groupRatio, freeModel := false }, snapshot⟩

/-- `Relay` before its first attempt, with `EnableFreeModelPreConsume` off: a free model is not pre-consumed. -/
def startTiered (scene : Scene) (r : TieredRequest) (relayInfo : RelayInfo) (groupRatio : ℚ) :
    Except TieredError TieredInfo := do
  let (priceData, snapshot) ← modelPriceHelperTiered false r groupRatio
  if priceData.freeModel then .ok ⟨{ relayInfo }, priceData, snapshot⟩
  else
    let request ← scene.preConsumeBilling priceData.quotaToPreConsume { relayInfo }
    .ok ⟨request, priceData, snapshot⟩

structure Attempt extends Scene where
  groupRatio : ℚ

/-- An error ends the request: the attempt is not sent. -/
def TieredInfo.attempts (info : TieredInfo) (l : List Attempt) : Except TieredError TieredInfo :=
  l.foldlM (fun info a => prepareTieredBillingForSelectedGroup a.toScene a.groupRatio info) info

def TieredInfo.hold (info : TieredInfo) : Int := info.request.billing.elim 0 BillingSession.preConsumedQuota

def TieredInfo.Untrusted (info : TieredInfo) : Prop := ∀ s, info.request.billing = some s → s.trusted = false

/-! ## Sessions -/

/-- The session is open and, unless it is trusted, holds at least `quota`. -/
structure Holds (quota : Int) (s : BillingSession) : Prop where
  settled : s.settled = false
  refunded : s.refunded = false
  nonneg : 0 ≤ s.preConsumedQuota
  held : s.trusted = false → quota ≤ s.preConsumedQuota

variable {st : Settings} {env : Env} {answers : OpenAnswers} {tokenQuota quota : Int}
  {w : World} {relayInfo : RelayInfo}
  {s : BillingSession} {w' : World} {r' : Request} {x y : ℚ} {q : Int}

theorem preConsume_holds {s' : BillingSession} {tokenAnswer fundingAnswer : CacheAnswer}
    (hsettled : s.settled = false) (hrefunded : s.refunded = false) (hquota : 0 ≤ quota)
    (h : s.preConsume st env tokenAnswer fundingAnswer tokenQuota quota w = ⟨none, s', w'⟩) : Holds quota s' := by
  have heffective : 0 ≤ s.effectiveQuota st tokenQuota quota ∧
      (s.shouldTrust st tokenQuota = false → quota ≤ s.effectiveQuota st tokenQuota quota) := by
    rw [BillingSession.effectiveQuota]
    split_ifs with htrust
    · exact ⟨le_rfl, fun hfalse => by rw [htrust] at hfalse; cases hfalse⟩
    · exact ⟨hquota, fun _ => le_rfl⟩
  unfold BillingSession.preConsume at h
  dsimp only at h
  split at h
  · split at h
    · cases h
    · cases h
      exact ⟨hsettled, hrefunded, heffective.1, heffective.2⟩
  · obtain ⟨_, _, _, _, rfl⟩ := preConsumePersonal_ok h
    exact ⟨hsettled, hrefunded, heffective.1, heffective.2⟩

theorem newBillingSession_holds (hquota : 0 ≤ quota)
    (h : newBillingSession st env answers tokenQuota quota relayInfo w = (.ok s, w')) : Holds quota s := by
  have hends : Ends (fun s _ => Holds quota s) (fun _ => True)
      (newBillingSession st env answers tokenQuota quota relayInfo w) := by
    by_cases hbill : isOrganizationBilling relayInfo = true
    · rw [newBillingSession, if_pos hbill]
      exact open_ends _ (fun _ _ h => preConsume_holds rfl rfl hquota h) fun _ => trivial
    · refine newBillingSession_ends (by simpa using hbill) trivial (fun _ _ => ?_) fun _ _ => ?_
      · unfold tryWallet
        split
        · trivial
        · split_ifs
          · trivial
          · exact open_ends _ (fun _ _ h => preConsume_holds rfl rfl hquota h) fun _ => trivial
      · refine open_ends _ (fun _ _ h => ?_) fun _ => trivial
        have hholds := preConsume_holds rfl rfl (by split_ifs <;> omega) h
        refine { hholds with held := fun htrusted => le_trans ?_ (hholds.held htrusted) }
        split_ifs <;> omega
  rwa [h] at hends

theorem preConsumeBilling_holds {scene : Scene} {r : Request} (h : scene.preConsumeBilling quota r = .ok r') :
    ∃ s, r'.billing = some s ∧ Holds quota s := by
  unfold Scene.preConsumeBilling Billing.preConsumeBilling at h
  split_ifs at h with hneg
  · cases h
  · split at h
    · rename_i s w hok
      cases h
      exact ⟨s, rfl, newBillingSession_holds (not_lt.mp hneg) hok⟩
    · cases h

/-- A session is topped up to the target and never goes below what it holds. -/
theorem reserve_holds {scene : Scene} {r : Request} {held : Int} (hs : Holds held s)
    (h : scene.reserve quota s = .ok r) :
    ∃ s', r.billing = some s' ∧ Holds quota s' ∧ s.preConsumedQuota ≤ s'.preConsumedQuota := by
  unfold Scene.reserve BillingSession.reserve at h
  obtain ⟨hsettled, hrefunded, hnonneg, -⟩ := hs
  by_cases hskip : s.settled ∨ s.refunded ∨ s.trusted ∨ quota ≤ s.preConsumedQuota
  · rw [if_pos hskip] at h
    cases h
    refine ⟨s, rfl, ⟨hsettled, hrefunded, hnonneg, fun htrusted => ?_⟩, le_rfl⟩
    simpa [hsettled, hrefunded, htrusted] using hskip
  · rw [if_neg hskip] at h
    have htopped (funding : FundingSource) (consumed : Int) :
        let s' := s.toppedUp funding consumed (quota - s.preConsumedQuota)
        Holds quota s' ∧ s.preConsumedQuota ≤ s'.preConsumedQuota := by
      have hto : s.preConsumedQuota + (quota - s.preConsumedQuota) = quota := by omega
      exact ⟨⟨hsettled, hrefunded, by show 0 ≤ _ + _; omega, fun _ => hto.ge⟩, by show _ ≤ _ + _; omega⟩
    dsimp only at h
    split at h
    · cases h
    · rename_i s1 w1 hreserved
      cases h
      split at hreserved
      · split at hreserved
        · cases hreserved
        · cases hreserved
          exact ⟨_, rfl, htopped _ _⟩
      · unfold BillingSession.reservePersonal at hreserved
        split at hreserved
        · cases hreserved
        · split at hreserved
          · cases hreserved
          · cases hreserved
            exact ⟨_, rfl, htopped _ _⟩

theorem raise_holds {scene : Scene} {r : Request} (hr : ∀ s, r.billing = some s → ∃ held, Holds held s)
    (h : scene.raise quota r = .ok r') :
    ∃ s, r'.billing = some s ∧ Holds quota s ∧
    r.billing.elim 0 BillingSession.preConsumedQuota ≤ s.preConsumedQuota := by
  unfold Scene.raise at h
  cases hbilling : r.billing with
  | none =>
    rw [hbilling] at h
    obtain ⟨s, hs, hholds⟩ := preConsumeBilling_holds h
    exact ⟨s, hs, hholds, hholds.nonneg⟩
  | some s =>
    rw [hbilling] at h
    obtain ⟨held, hs⟩ := hr s hbilling
    exact reserve_holds hs h

/-! ## Groups -/

/-- The snapshot of an estimate: a paid group's is that of its ratio. -/
structure BillingSnapshot.Of (snap : BillingSnapshot) (quotaBeforeGroup : ℚ) : Prop where
  before : snap.estimatedQuotaBeforeGroup = quotaBeforeGroup
  after : snap.groupRatio ≠ 0 → quotaRoundStrict (quotaBeforeGroup * snap.groupRatio) =
    .ok snap.estimatedQuotaAfterGroup

variable {before groupRatio : ℚ} {snap snap' : BillingSnapshot} {info info' : TieredInfo}
  {r : TieredRequest} {scene : Scene}

theorem refresh_of (h : snap.Of before) (hok : refreshTieredBillingGroup groupRatio snap = .ok snap') :
    snap'.Of before ∧ snap'.groupRatio = groupRatio := by
  unfold refreshTieredBillingGroup at hok
  split_ifs at hok with hsame
  · cases hok
    exact ⟨h, hsame⟩
  · obtain ⟨quota, hquota, hok⟩ := bind_eq_ok.mp hok
    cases hok
    rw [h.before] at hquota
    exact ⟨⟨h.before, fun _ => hquota⟩, rfl⟩

/-- A request under way with the estimate `before`. -/
structure TieredInfo.Under (info : TieredInfo) (before : ℚ) : Prop where
  snapshot : info.snapshot.Of before
  billing : ∀ s, info.request.billing = some s → ∃ quota, Holds quota s

/-- Before an attempt in a paid group the hold is raised to what the estimate is at the group's ratio. -/
theorem prepare_under (h : info.Under before)
    (hok : prepareTieredBillingForSelectedGroup scene groupRatio info = .ok info') :
    info'.Under before ∧ info.hold ≤ info'.hold ∧
      (groupRatio ≠ 0 → info'.Untrusted → ∃ quota, quotaRoundStrict (before * groupRatio) = .ok quota ∧
      quota ≤ info'.hold) := by
  obtain ⟨snap, hsnap, hok⟩ := bind_eq_ok.mp hok
  obtain ⟨hof, hratio⟩ := refresh_of h.snapshot hsnap
  split_ifs at hok with hfree
  · cases hok
    exact ⟨⟨hof, h.billing⟩, le_rfl, fun hpaid => absurd hfree hpaid⟩
  · obtain ⟨request, hrequest, hok⟩ := bind_eq_ok.mp hok
    cases hok
    obtain ⟨s, hs, hholds, hle⟩ := raise_holds h.billing hrequest
    have hhold : (⟨request, { info.priceData with groupRatio, freeModel := false }, snap⟩ : TieredInfo).hold =
        s.preConsumedQuota := by rw [TieredInfo.hold, hs]; rfl
    refine ⟨⟨hof, fun s1 hs1 => ⟨snap.estimatedQuotaAfterGroup, ?_⟩⟩, hhold ▸ hle, fun _ huntrusted =>
      ⟨snap.estimatedQuotaAfterGroup, hratio ▸ hof.after (hratio ▸ hfree), ?_⟩⟩
    · obtain rfl := Option.mem_unique hs hs1
      exact hholds
    · exact hhold ▸ hholds.held (huntrusted s hs)

theorem start_under (hok : startTiered scene r relayInfo groupRatio = .ok info) :
    ∃ before, r.quotaBeforeGroup (r.estimatedCompletionTokens groupRatio) = .ok before ∧ info.Under before := by
  obtain ⟨⟨priceData, snap⟩, hprice, hok⟩ := bind_eq_ok.mp hok
  obtain ⟨before, hbefore, hprice⟩ := bind_eq_ok.mp hprice
  obtain ⟨quota, hquota, hprice⟩ := bind_eq_ok.mp hprice
  refine ⟨before, hbefore, ?_⟩
  cases hprice
  by_cases hfree : groupRatio = 0
  · subst hfree
    cases hok
    exact ⟨⟨rfl, fun h => absurd rfl h⟩, fun s h => by cases h⟩
  · simp only [hfree] at hok
    obtain ⟨request, hrequest, hok⟩ := bind_eq_ok.mp hok
    cases hok
    obtain ⟨s, hs, hholds⟩ := preConsumeBilling_holds hrequest
    refine ⟨⟨rfl, fun _ => hquota⟩, fun s1 hs1 => ⟨quota, ?_⟩⟩
    obtain rfl := Option.mem_unique hs hs1
    exact hholds

theorem attempts_under {l : List Attempt} (h : info.Under before) (hok : info.attempts l = .ok info') :
    info'.Under before := by
  induction l generalizing info with
  | nil =>
    cases hok
    exact h
  | cons a l ih =>
    obtain ⟨info1, hfirst, hrest⟩ := bind_eq_ok.mp hok
    exact ih (prepare_under h hfirst).1 hrest

/-! ## The two ways to a group -/

/-- The estimate without completion tokens holds as much as the other at every ratio at which both are quotas. -/
def Covers (without withTokens : ℚ) : Prop :=
  withTokens ≤ without ∨ withTokens ≤ 0 ∨ without + (2 ^ 32 + 1) * withTokens ≤ 0

theorem quotaRoundStrict_ok (h : quotaRoundStrict x = .ok q) :
    q = Decimal.roundAway x ∧ minQuota ≤ q ∧ q ≤ maxQuota := by
  unfold quotaRoundStrict at h
  split_ifs at h with hrange
  cases h
  exact ⟨rfl, hrange⟩

theorem Covers.quota_le {t : ℚ} {a b : Int} (h : Covers x y) (ht : 0 < t) (hx : quotaRoundStrict (x * t) = .ok a)
    (hy : quotaRoundStrict (y * t) = .ok b) : b ≤ max a 0 := by
  obtain ⟨rfl, hmin, -⟩ := quotaRoundStrict_ok hx
  obtain ⟨rfl, -, -⟩ := quotaRoundStrict_ok hy
  by_contra hlt
  obtain ⟨hless, hpos⟩ := max_lt_iff.mp (not_le.mp hlt)
  have hhalf : (1 : Int) - 1 / 2 ≤ y * t := (Decimal.le_roundAway_iff one_pos).mp hpos
  rcases h with h | h | h
  · exact absurd (Decimal.roundAway_mono (mul_le_mul_of_nonneg_right h ht.le)) (not_le.mpr hless)
  · have hle := mul_nonpos_of_nonpos_of_nonneg h ht.le
    linarith
  · have hscaled := mul_nonpos_of_nonpos_of_nonneg h ht.le
    have hfar : (2 ^ 31 + 1 : Int) ≤ Decimal.roundAway (-(x * t)) := by
      rw [Decimal.le_roundAway_iff (by norm_num)]
      push_cast at hhalf ⊢
      linarith
    rw [Decimal.roundAway_neg] at hfar
    simp only [minQuota] at hmin
    omega

theorem exists_uncovered (h : ¬Covers x y) :
    ∃ t a, 0 < t ∧ a ≤ 0 ∧ quotaRoundStrict (x * t) = .ok a ∧ quotaRoundStrict (y * t) = .ok 1 := by
  obtain ⟨hless, h⟩ := not_or.mp h
  obtain ⟨hpos, hnear⟩ := not_or.mp h
  rw [not_le] at hless hpos hnear
  have ht : 0 < 1 / (2 * y) := by positivity
  have hy : y * (1 / (2 * y)) = 1 / 2 := by field_simp
  have hx : x * (1 / (2 * y)) < 1 / 2 := hy ▸ mul_lt_mul_of_pos_right hless ht
  have hfar : 0 < x * (1 / (2 * y)) + (2 ^ 32 + 1) * (1 / 2) := by
    rw [← hy, ← mul_assoc, ← add_mul]
    exact mul_pos hnear ht
  have hmin : minQuota ≤ Decimal.roundAway (x * (1 / (2 * y))) := by
    by_contra hout
    have hbelow : (2 ^ 31 + 1 : Int) ≤ Decimal.roundAway (-(x * (1 / (2 * y)))) := by
      rw [Decimal.roundAway_neg]
      simp only [minQuota] at hout
      omega
    rw [Decimal.le_roundAway_iff (by norm_num)] at hbelow
    push_cast at hbelow
    linarith
  have hle := Decimal.roundAway_nonpos hx
  refine ⟨_, _, ht, hle, if_pos ⟨hmin, hle.trans (by decide)⟩, ?_⟩
  have hone : Decimal.roundAway (1 / 2) = 1 := by
    rw [Decimal.roundAway, if_neg (by norm_num)]
    norm_num
  rw [hy, quotaRoundStrict, hone]
  rfl

/-- What `modelPriceHelperTiered` pre-consumes when the request starts in a group of this ratio. -/
def TieredRequest.preConsumed (r : TieredRequest) (groupRatio : ℚ) : Except TieredError Int :=
  (modelPriceHelperTiered false r groupRatio).map fun p => p.1.quotaToPreConsume

/-- In every run of a request that starts at `groupRatio`, each attempt that is sent keeps the hold or raises it, and
in a paid group an untrusted session holds what the request would hold had it started there. -/
def HoldsAnyWay (r : TieredRequest) (groupRatio : ℚ) : Prop :=
  ∀ (scene : Scene) (relayInfo : RelayInfo) (l : List Attempt) (a : Attempt) (start info info' : TieredInfo),
    startTiered scene r relayInfo groupRatio = .ok start → start.attempts l = .ok info →
    prepareTieredBillingForSelectedGroup a.toScene a.groupRatio info = .ok info' →
    info.hold ≤ info'.hold ∧
      (0 < a.groupRatio → info'.Untrusted → ∀ quota, r.preConsumed a.groupRatio = .ok quota → quota ≤ info'.hold)

theorem preConsumed_ok (hpaid : groupRatio ≠ 0) (h : r.preConsumed groupRatio = .ok q) :
    ∃ before, r.quotaBeforeGroup (r.estimatedCompletionTokens groupRatio) = .ok before ∧
      quotaRoundStrict (before * groupRatio) = .ok q := by
  unfold TieredRequest.preConsumed at h
  cases hprice : modelPriceHelperTiered false r groupRatio with
  | error =>
    rw [hprice] at h
    cases h
  | ok p =>
    rw [hprice] at h
    cases h
    obtain ⟨before, hbefore, hprice⟩ := bind_eq_ok.mp hprice
    obtain ⟨quota, hquota, hprice⟩ := bind_eq_ok.mp hprice
    cases hprice
    refine ⟨before, hbefore, ?_⟩
    simpa [hpaid] using hquota

/-- The rescaled estimate is the group's own where the completion tokens are. -/
theorem holdsAnyWay_of (h : ∀ without withTokens, r.maxTokens = 0 → groupRatio = 0 →
    r.quotaBeforeGroup 0 = .ok without →
    r.quotaBeforeGroup defaultPreConsumeMaxTokens = .ok withTokens →
    Covers without withTokens) : HoldsAnyWay r groupRatio := by
  intro scene relayInfo l a start info info' hstart hl hok
  obtain ⟨before, hbefore, hunder⟩ := start_under hstart
  obtain ⟨hunder', hmono, hheld⟩ := prepare_under (attempts_under hunder hl) hok
  refine ⟨hmono, fun hpos huntrusted quota hquota => ?_⟩
  obtain ⟨held, hround, hle⟩ := hheld hpos.ne' huntrusted
  obtain ⟨own, hown, hquota⟩ := preConsumed_ok hpos.ne' hquota
  have hnonneg : 0 ≤ info'.hold := by
    rw [TieredInfo.hold]
    cases hbilling : info'.request.billing with
    | none => exact le_rfl
    | some s =>
      obtain ⟨_, hs⟩ := hunder'.billing s hbilling
      exact hs.nonneg
  by_cases hfree : r.maxTokens = 0 ∧ groupRatio = 0
  · rw [TieredRequest.estimatedCompletionTokens, if_neg (by simp [hfree.2]), hfree.1] at hbefore
    rw [TieredRequest.estimatedCompletionTokens, if_pos ⟨hfree.1, hpos.ne'⟩] at hown
    exact ((h _ _ hfree.1 hfree.2 hbefore hown).quota_le hpos hround hquota).trans (max_le hle hnonneg)
  · have hsame : r.estimatedCompletionTokens a.groupRatio = r.estimatedCompletionTokens groupRatio := by
      unfold TieredRequest.estimatedCompletionTokens
      split_ifs <;> grind
    rw [hsame, hbefore] at hown
    cases hown
    rw [hround] at hquota
    cases hquota
    exact hle

theorem quotaRoundStrict_small (h : |x| < 1 / 2) : quotaRoundStrict x = .ok 0 := by
  obtain ⟨hlow, hhigh⟩ := abs_lt.mp h
  have hzero : Decimal.roundAway x = 0 := by
    have hneg := Decimal.roundAway_nonpos (neg_lt.mp hlow)
    rw [Decimal.roundAway_neg] at hneg
    have hpos := Decimal.roundAway_nonpos hhigh
    omega
  rw [quotaRoundStrict, hzero]
  rfl

theorem exists_quota_zero (x : ℚ) : ∃ t, 0 < t ∧ quotaRoundStrict (x * t) = .ok 0 := by
  have ht : 0 < 1 / (2 * |x| + 4) := by positivity
  refine ⟨_, ht, quotaRoundStrict_small ?_⟩
  rw [abs_mul, abs_of_pos ht, mul_one_div, div_lt_div_iff₀ (by positivity) two_pos]
  linarith [abs_nonneg x]

def walletScene : Scene where
  world := { users := Table.empty.insert { quota := 1 } }

def walletOnly : RelayInfo where
  userId := 1
  billingPreference := "wallet_only"

theorem preConsumeBilling_zero : ∃ s : BillingSession, s.preConsumedQuota = 0 ∧ s.trusted = false ∧
    walletScene.preConsumeBilling 0 { relayInfo := walletOnly } = .ok (.withBilling s) :=
  ⟨_, rfl, rfl, rfl⟩

/-- From a free group over a group where nothing is due: the next attempt finds the estimate below the group's own. -/
theorem covers_of_holdsAnyWay {without withTokens : ℚ} (h : HoldsAnyWay r 0) (hmax : r.maxTokens = 0)
    (hwithout : r.quotaBeforeGroup 0 = .ok without)
    (hwith : r.quotaBeforeGroup defaultPreConsumeMaxTokens = .ok withTokens) : Covers without withTokens := by
  by_contra huncovered
  obtain ⟨t, a, ht, ha, hrounded, hone⟩ := exists_uncovered huncovered
  obtain ⟨t0, ht0, hzero⟩ := exists_quota_zero without
  obtain ⟨s, hs, htrusted, hopen⟩ := preConsumeBilling_zero
  have hstart : startTiered walletScene r walletOnly 0 = .ok
    ⟨{ relayInfo := walletOnly }, ⟨true, 0, 0⟩, ⟨0, without, 0⟩⟩ := by
    have hprice : modelPriceHelperTiered false r 0 = .ok (⟨true, 0, 0⟩, ⟨0, without, 0⟩) := by
      refine bind_eq_ok.mpr ⟨without, ?_, bind_eq_ok.mpr ⟨0, ?_, rfl⟩⟩
      · rw [TieredRequest.estimatedCompletionTokens, if_neg (by simp), hmax, hwithout]
      · exact quotaRoundStrict_small (by norm_num)
    exact bind_eq_ok.mpr ⟨_, hprice, rfl⟩
  have hfirst : prepareTieredBillingForSelectedGroup walletScene t0
    ⟨{ relayInfo := walletOnly }, ⟨true, 0, 0⟩, ⟨0, without, 0⟩⟩ =
      .ok ⟨.withBilling s, ⟨false, t0, 0⟩, ⟨t0, without, 0⟩⟩ := by
    refine bind_eq_ok.mpr ⟨⟨t0, without, 0⟩, ?_, ?_⟩
    · rw [refreshTieredBillingGroup, if_neg ht0.ne, hzero]
      rfl
    · rw [if_neg ht0.ne']
      exact bind_eq_ok.mpr ⟨_, hopen, rfl⟩
  have hown : r.preConsumed t = .ok 1 := by
    have hprice : modelPriceHelperTiered false r t = .ok (⟨false, t, 1⟩, ⟨t, withTokens, 1⟩) := by
      refine bind_eq_ok.mpr ⟨withTokens, ?_, bind_eq_ok.mpr ⟨1, hone, by simp [ht.ne']⟩⟩
      rw [TieredRequest.estimatedCompletionTokens, if_pos ⟨hmax, ht.ne'⟩, hwith]
    rw [TieredRequest.preConsumed, hprice]
    rfl
  obtain ⟨snap, hsnap, hle⟩ : ∃ snap, refreshTieredBillingGroup t ⟨t0, without, 0⟩ = .ok snap ∧
    snap.estimatedQuotaAfterGroup ≤ 0 := by
    unfold refreshTieredBillingGroup
    split_ifs
    · exact ⟨_, rfl, le_rfl⟩
    · exact ⟨_, by rw [hrounded]; rfl, ha⟩
  have hreserve : walletScene.reserve snap.estimatedQuotaAfterGroup s =
      .ok ⟨{ s.relayInfo with finalPreConsumedQuota := s.preConsumedQuota }, some s⟩ := by
    rw [Scene.reserve, BillingSession.reserve, if_pos (.inr (.inr (.inr (hs ▸ hle))))]
  have hsecond : prepareTieredBillingForSelectedGroup walletScene t ⟨.withBilling s, ⟨false, t0, 0⟩, ⟨t0, without, 0⟩⟩ =
      .ok ⟨⟨{ s.relayInfo with finalPreConsumedQuota := s.preConsumedQuota }, some s⟩, ⟨false, t, 0⟩, snap⟩ := by
    refine bind_eq_ok.mpr ⟨snap, hsnap, ?_⟩
    rw [if_neg ht.ne']
    exact bind_eq_ok.mpr ⟨_, hreserve, rfl⟩
  have hheld := (h walletScene walletOnly [⟨walletScene, t0⟩] ⟨walletScene, t⟩ _ _ _ hstart
    (bind_eq_ok.mpr ⟨_, hfirst, rfl⟩) hsecond).2
    ht (fun s1 hs1 => by cases hs1; exact htrusted) 1 hown
  have hhold : (1 : Int) ≤ s.preConsumedQuota := hheld
  omega

/-- **The hold covers the selected group, however it was reached**, just where the estimate that is rescaled is the
group's own: `max_tokens` is given, the first group is paid, or the completion tokens that are left out cost nothing
more. -/
theorem holdsAnyWay_iff (r : TieredRequest) (groupRatio : ℚ) : HoldsAnyWay r groupRatio ↔
    (r.maxTokens = 0 → groupRatio = 0 → ∀ without withTokens, r.quotaBeforeGroup 0 = .ok without →
      r.quotaBeforeGroup defaultPreConsumeMaxTokens = .ok withTokens → Covers without withTokens) := by
  constructor
  · intro h hmax hfree without withTokens hwithout hwith
    exact covers_of_holdsAnyWay (hfree ▸ h) hmax hwithout hwith
  · exact fun h => holdsAnyWay_of fun without withTokens hmax hfree => h hmax hfree without withTokens

def outputPriced : TieredRequest where
  run tp := .ok (2 * tp.c)
  promptTokens := 0
  maxTokens := 0
  quotaPerUnit := 500000

theorem outputPriced_free_group_first : ¬HoldsAnyWay outputPriced 0 := by
  intro h
  have hcovers := covers_of_holdsAnyWay h rfl rfl rfl
  norm_num [Covers, outputPriced, defaultPreConsumeMaxTokens] at hcovers

end CubeRouter.Billing.Tiered
