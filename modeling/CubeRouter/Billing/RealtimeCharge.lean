import CubeRouter.Billing.Opening
import CubeRouter.Billing.OrganizationSession
import CubeRouter.Billing.Realtime

/-!
# What a realtime session pays

The charge of a turn is made beside the billing session, which does not know of it: the settlement at the
end books the quota of all turns against the pre-consumed hold alone. `RequestOpen` is the state of an
open request after charges of `direct` beside its session, over a wallet, a subscription or an
organization; each turn raises `direct` by its quota and the settlement leaves it there. So every turn is
paid a second time, unless it costs nothing (`paidOnce_iff`).
-/

namespace CubeRouter.Billing

open Relational Transition Ledger Option

/-! ## A charge beside a personal session -/

variable {st : Settings} {env : Env} {w₀ w w' : World} {relayInfo : RelayInfo} {base held extra direct q : Int}
  {funding : FundingSource} {s : BillingSession}

theorem WalletHeld.charge {f : WalletFunding} (h : WalletHeld st base held f w) (hq : 0 ≤ q)
    (hmoved : WalletMoved st w w' f.userId (-q)) : WalletHeld st (base + q) held f w' := by
  have htaken := h.taken
  have hwallet := hmoved.wallet
  obtain ⟨u, hu, hroom⟩ := h.room
  obtain ⟨u', hu', hcolumn⟩ := hmoved.stored u hu
  refine ⟨h.consumed, by omega, u', hu', fun hoff => ?_⟩
  have hle := hroom hoff
  have heq := hcolumn hoff
  omega

theorem SubscriptionHeld.charge {f : SubscriptionFunding} (h : SubscriptionHeld base held extra f w)
    (hq : 0 ≤ q) (hmoved : SubscriptionMoved w w' f.subscriptionId q) :
    SubscriptionHeld (base + q) held extra f w' := by
  have hused := hmoved.used
  have hbefore := h.used
  have hbase := h.base_nonneg
  have hrow := hmoved.row
  obtain ⟨_, rfl⟩ := hmoved.frame
  exact ⟨hrow, by omega, by omega, h.split, h.extra_nonneg, h.preConsumed, h.requestId, h.record⟩

theorem Held.postConsumeFunding (h : Held st base held extra funding w) (hheld : 0 ≤ held) (hq : 0 ≤ q)
    (hsource : relayInfo.billingSource = funding.source) (hid : relayInfo.subscriptionId = funding.subscriptionId)
    (hpayer : ∀ f, funding = .wallet f → f.userId = relayInfo.userId)
    (hok : postConsumeFunding st relayInfo q w = .ok w') :
    Held st (base + q) held extra funding w' ∧ w'.tokens = w.tokens ∧ w'.pendingTokenQuota = w.pendingTokenQuota := by
  unfold Billing.postConsumeFunding at hok
  rw [hsource, hid] at hok
  cases funding with
  | wallet f =>
    have h' : WalletHeld st base held f w := h
    obtain ⟨u, hu, hroom⟩ := h'.room
    rw [if_neg (by simp [FundingSource.source]), ← hpayer f rfl] at hok
    have hmoved : WalletMoved st w w' f.userId (-q) := by
      by_cases hpos : 0 < q
      · obtain ⟨w₁, hdec, hmoved⟩ := decreaseUserQuota_moved st hu hq
        rw [if_pos hpos, hdec] at hok
        cases hok
        exact hmoved
      · have hfits : st.batchUpdateEnabled = false → u.quota + -q ≤ maxWalletQuota := by
          intro hoff
          have hle := hroom hoff
          omega
        obtain ⟨w₁, hinc, hmoved⟩ := increaseUserQuota_moved hu (by omega : 0 ≤ -q)
          (by unfold maxWalletQuota; omega) hfits
        rw [if_neg hpos, hinc] at hok
        cases hok
        exact hmoved
    exact ⟨h'.charge hq hmoved, hmoved.tokens, hmoved.pendingTokenQuota⟩
  | subscription f =>
    have h' : SubscriptionHeld base held extra f w := h
    have hused := h'.used
    have hbase := h'.base_nonneg
    obtain ⟨w₁, hdelta, hmoved⟩ := postConsumeUserSubscriptionDelta_moved h'.row
      (by omega : 0 ≤ w.amountUsed f.subscriptionId + q)
    have hid' : (FundingSource.subscription f).subscriptionId ≠ 0 := by
      obtain ⟨_, hsub⟩ := isSome_iff_exists.mp h'.row
      exact (Table.pos_of_get? hsub).ne'
    have hw : w' = w₁ := by
      rw [if_pos (show (FundingSource.subscription f).source = .subscription from rfl), if_neg hid'] at hok
      by_cases hzero : q = 0
      · rw [if_pos hzero] at hok
        rw [postConsumeUserSubscriptionDelta, if_neg (show f.subscriptionId ≠ 0 from hid'), if_pos hzero] at hdelta
        cases hok
        exact Except.ok.inj hdelta
      · rw [if_neg hzero] at hok
        exact Except.ok.inj (hok.symm.trans hdelta)
    subst hw
    have hcharged := h'.charge hq hmoved
    obtain ⟨_, rfl⟩ := hmoved.frame
    exact ⟨hcharged, rfl, rfl⟩
  | organization => exact h.elim

theorem postConsumeToken_moved (hlive : (w.liveToken relayInfo.tokenId).isSome) (hq : 0 ≤ q)
    (h : postConsumeToken st env relayInfo q w = .ok w') : TokenMoved w w' relayInfo.tokenId (-q) := by
  unfold postConsumeToken at h
  by_cases hpos : 0 < q
  · obtain ⟨w₁, hok, hmoved⟩ := decreaseTokenQuota_moved st env.now hlive hq
    rw [if_pos hpos, hok] at h
    cases h
    exact hmoved
  · obtain ⟨_, hok, hmoved⟩ := increaseTokenQuota_moved st env.now hlive (by omega : 0 ≤ -q)
    rw [if_neg hpos, hok] at h
    cases h
    exact hmoved

theorem postConsumeToken_frame (h : postConsumeToken st env relayInfo q w = .ok w') : TokenFrame w w' := by
  unfold postConsumeToken at h
  split_ifs at h
  · exact moveTokenQuota_frame h
  · exact moveTokenQuota_frame h

theorem withRelayInfo_personal (hp : ∀ f, funding ≠ .organization f) (relayInfo : RelayInfo) :
    funding.withRelayInfo relayInfo = funding := by
  cases funding with
  | wallet | subscription => rfl
  | organization f => exact absurd rfl (hp f)

structure SamePayer (r r' : RelayInfo) : Prop where
  userId : r'.userId = r.userId
  tokenId : r'.tokenId = r.tokenId
  isPlayground : r'.isPlayground = r.isPlayground
  billingAccountType : r'.billingAccountType = r.billingAccountType
  billingAccountId : r'.billingAccountId = r.billingAccountId
  billingSource : r'.billingSource = r.billingSource
  subscriptionId : r'.subscriptionId = r.subscriptionId
  sessionId : r'.organizationBillingSessionId = r.organizationBillingSessionId

variable {r : RelayInfo}

theorem SamePayer.billing {r' : RelayInfo} (h : SamePayer r r') :
    isOrganizationBilling r' = isOrganizationBilling r := by
  rw [isOrganizationBilling, h.billingAccountType, h.billingAccountId, isOrganizationBilling]

theorem withAutoGroup_samePayer {t : TurnEnv} : SamePayer r (withAutoGroup t r) :=
  ⟨rfl, rfl, rfl, rfl, rfl, rfl, rfl, rfl⟩

theorem postConsumeQuota_personal (hpersonal : isOrganizationBilling relayInfo = false)
    (herror : (postConsumeQuota st env relayInfo q w).error = none) :
    (postConsumeQuota st env relayInfo q w).relayInfo = relayInfo ∧ ∃ w₁, postConsumeFunding st relayInfo q w = .ok w₁ ∧
        ((relayInfo.isPlayground = true ∧ (postConsumeQuota st env relayInfo q w).world = w₁) ∨
          (relayInfo.isPlayground = false ∧
            postConsumeToken st env relayInfo q w₁ = .ok (postConsumeQuota st env relayInfo q w).world)) := by
  unfold postConsumeQuota postConsumeQuotaWithResultCount at herror ⊢
  rw [if_neg (by simp [hpersonal])] at herror ⊢
  cases hfunding : postConsumeFunding st relayInfo q w with
  | error =>
    rw [hfunding] at herror
    cases herror
  | ok w₁ =>
    simp only [hfunding] at herror ⊢
    by_cases hplay : relayInfo.isPlayground = true
    · rw [if_pos hplay]
      exact ⟨rfl, w₁, rfl, .inl ⟨hplay, rfl⟩⟩
    · rw [if_neg hplay] at herror ⊢
      cases htoken : postConsumeToken st env relayInfo q w₁ with
      | error =>
        rw [htoken] at herror
        cases herror
      | ok => exact ⟨rfl, w₁, rfl, .inr ⟨by simpa using hplay, htoken⟩⟩

theorem PersonalOpen.charge (h : PersonalOpen st w₀ relayInfo direct s w) (hq : 0 ≤ q) (hr : SamePayer s.relayInfo r)
    (herror : (postConsumeQuota st env r q w).error = none) :
    let p := postConsumeQuota st env r q w
    PersonalOpen st w₀ relayInfo (direct + q)
      { s with relayInfo := p.relayInfo, funding := s.funding.withRelayInfo p.relayInfo } p.world := by
  intro p
  have hopen := h.session
  have hpersonal : isOrganizationBilling r = false := hr.billing.trans h.personal
  obtain ⟨hrelay, w₁, hfunding, htoken⟩ := postConsumeQuota_personal hpersonal herror
  obtain ⟨hheld, htokens, hpending⟩ := hopen.held.postConsumeFunding hopen.nonneg hq
    (hr.billingSource.trans h.source) (hr.subscriptionId.trans hopen.subscriptionId)
    (fun f hf => (h.payer f hf).trans hr.userId.symm) hfunding
  rw [add_assoc] at hheld
  have hframe : TokenFrame w₁ p.world := by
    rcases htoken with ⟨-, hsame⟩ | ⟨-, hmove⟩
    · rw [← hsame]
      exact .refl _
    · exact postConsumeToken_frame hmove
  simp only [p, withRelayInfo_personal h.session.held.personal, hrelay]
  refine ⟨⟨rfl, hheld.tokenFrame hframe, hopen.flags, hopen.tokenConsumed,
    hr.subscriptionId.trans hopen.subscriptionId, hopen.extra_nonneg, hopen.nonneg, hopen.le_max⟩, hpersonal,
    hr.billingSource.trans h.source, fun f hf => (h.payer f hf).trans hr.userId.symm,
    hr.isPlayground.trans h.isPlayground, hr.tokenId.trans h.tokenId, fun hoff => ?_⟩
  rcases htoken with ⟨hplay, -⟩ | ⟨-, hmove⟩
  · rw [hr.isPlayground, h.isPlayground, hoff] at hplay
    cases hplay
  · have hpaid := (h.token hoff).congr htokens hpending
    have hid : r.tokenId = relayInfo.tokenId := hr.tokenId.trans h.tokenId
    have hmoved := postConsumeToken_moved (by rw [hid]; exact hpaid.live) hq hmove
    rw [hid] at hmoved
    rw [← add_assoc]
    exact hpaid.moved hmoved

/-! ## A charge beside an organization session -/

/-- The open session of an organization request: the organization, and the limited token if there is one,
have paid its running total and `direct` since `w₀`. -/
structure OrganizationOpen (w₀ : World) (relayInfo : RelayInfo) (direct : Int) (s : BillingSession)
    (w : World) : Prop where
  row : ∃ org f row, w₀.organizations.get? relayInfo.billingAccountId = some org ∧ 0 ≤ org.usedQuota + direct ∧
    Open w₀.sessions.next relayInfo.billingAccountId (org.usedQuota + direct)
      ((limitedToken w₀ relayInfo).map fun t => (t.1, t.2 - direct)) ⟨s, w⟩ f row ∧ gap ⟨s, w⟩ row = 0
  account : s.relayInfo.billingAccountId = relayInfo.billingAccountId
  token : ∀ t ∈ limitedToken w₀ relayInfo, s.relayInfo.isPlayground = false ∧ s.relayInfo.tokenId = t.1 ∧
    ∀ token, w.tokens.get? t.1 = some token → token.unlimitedQuota = false

/-- A charge of `q` leaves the request as it was; a limited token that it names has paid. -/
structure TokenCharged (q : Int) (tokens tokens' : Table Token) (relayInfo relayInfo' : RelayInfo) : Prop where
  same : SameRequest relayInfo relayInfo'
  session : relayInfo'.organizationBillingSessionId = relayInfo.organizationBillingSessionId
  tokenId : 0 < relayInfo.tokenId → relayInfo'.tokenId = relayInfo.tokenId
  remain : relayInfo.isPlayground = false → 0 < relayInfo.tokenId →
    (∀ token, tokens.get? relayInfo.tokenId = some token → token.unlimitedQuota = false) →
    remainOf tokens' relayInfo.tokenId = (remainOf tokens relayInfo.tokenId).map fun r => r - q
  unlimited : ∀ i token', tokens'.get? i = some token' →
    ∃ token, tokens.get? i = some token ∧ token.unlimitedQuota = token'.unlimitedQuota

variable {relayInfo' : RelayInfo} {db : DB} {id : Nat} {quota : Int}

theorem postConsumeTokenTx_ok {tokens tokens' : Table Token} {moved : Int}
    (hq : 0 < q) (h : postConsumeTokenTx env tokens relayInfo q = .ok (moved, relayInfo', tokens')) :
    TokenCharged q tokens tokens' relayInfo relayInfo' := by
  unfold postConsumeTokenTx at h
  by_cases hplay : relayInfo.isPlayground = true
  · rw [if_pos hplay] at h
    cases h
    refine ⟨.refl _, rfl, fun _ => rfl, fun hoff => ?_, fun i token' hget => ⟨token', hget, rfl⟩⟩
    rw [hplay] at hoff
    cases hoff
  · rw [if_neg hplay, if_pos hq] at h
    refine ⟨decreaseTokenQuotaTx_same h, ?_, moveTokenQuotaTx_tokenId h, fun hoff hid hlim => ?_,
      fun i token' hget => decreaseTokenQuotaTx_unlimited h hget⟩
    · rcases moveTokenQuotaTx_relayInfo h with rfl | ⟨_, _, rfl, -⟩
      · rfl
      · rfl
    · exact moveTokenQuotaTx_limited h hoff hid hlim (by omega) fun _ => rfl

/-- A charge of an organization request: its organization has paid `q`, a limited token that it names by
id too, and no ledger session knows. -/
theorem consumeOrganizationAndTokenQuota_ok {increment : Bool} {db' : DB}
    (hbill : isOrganizationBilling relayInfo = true) (hq : 0 ≤ q)
    (h : consumeOrganizationAndTokenQuotaWithRequestCount env relayInfo q increment db = .ok (relayInfo', db')) :
    db'.sessions = db.sessions ∧ (∀ v, 0 ≤ v + q →
      (∃ org, db.organizations.get? relayInfo.billingAccountId = some org ∧ org.usedQuota = v) →
      ∃ org, db'.organizations.get? relayInfo.billingAccountId = some org ∧ org.usedQuota = v + q) ∧
    TokenCharged q db.tokens db'.tokens relayInfo relayInfo' := by
  unfold consumeOrganizationAndTokenQuotaWithRequestCount at h
  by_cases hzero : q = 0
  · rw [if_pos (by simp [hzero])] at h
    cases h
    subst hzero
    refine ⟨rfl, fun v _ horg => ?_, .refl _, rfl, fun _ => rfl, fun _ _ _ => by simp,
      fun i token' hget => ⟨token', hget, rfl⟩⟩
    rw [add_zero]
    exact horg
  · rw [if_neg (by simp [hbill, hzero])] at h
    obtain ⟨⟨_, _, _⟩, hupdate, h1⟩ := bind_eq_ok.mp h
    obtain ⟨_, _, _, _, hmoved, rfl⟩ := updateOrganizationUsedQuotaTx_ok hupdate
    obtain ⟨⟨_, _, _⟩, htoken, h2⟩ := bind_eq_ok.mp h1
    obtain ⟨_, hsync, h3⟩ := bind_eq_ok.mp h2
    cases h3
    have hpaid := postConsumeTokenTx_ok (by omega) htoken
    exact ⟨rfl, fun v hv horg => hmoved.used_add horg hv, hpaid.same.trans (syncOrganizationQuotaFromTx_ok hsync),
      (syncOrganizationQuotaFromTx_sessionId hsync).trans hpaid.session,
      fun hpos => (syncOrganizationQuotaFromTx_tokenId hsync).trans (hpaid.tokenId hpos), hpaid.remain, hpaid.unlimited⟩

theorem Open.charged {o : Nat} {u : Int} {limited : Option (Nat × Int)} {f : OrganizationFunding}
    {row : OrganizationBillingSession} (h : Open id o u limited ⟨s, w⟩ f row)
    (hbill : isOrganizationBilling r = true) (hid : r.organizationBillingSessionId = id)
    (hplay : ∀ t ∈ limited, r.isPlayground = false) (hsessions : db.sessions = w.sessions)
    (horg : ∃ org, db.organizations.get? o = some org ∧ org.usedQuota = u + row.preConsumedQuota + q)
    (htoken : ∀ t ∈ limited, remainOf db.tokens t.1 = some (t.2 - row.preConsumedQuota - q)) :
    Open id o (u + q) (limited.map fun t => (t.1, t.2 - q))
      ⟨{ s with relayInfo := r, funding := s.funding.withRelayInfo r }, { w with toDB := db }⟩
      { f with relayInfo := r } row := by
  have hfunding : s.funding = .organization f := h.funding
  refine ⟨?_, h.memory, hbill, ⟨hbill, hid⟩, ?_, h.organizationId, h.unsettled, h.unrefunded, h.flags, h.nonneg,
    ?_, ?_⟩
  · simp [hfunding, FundingSource.withRelayInfo]
  · show db.sessions.get? id = some row
    rw [hsessions]
    exact h.get
  · obtain ⟨org, hget, _⟩ := horg
    exact ⟨org, hget, by omega⟩
  · intro t' ht'
    obtain ⟨t, ht, rfl⟩ := map_eq_some_iff.mp ht'
    obtain ⟨-, hrow, hpos, hunl, -⟩ := h.token t ht
    refine ⟨hplay t ht, hrow, hpos, hunl, ?_⟩
    show remainOf db.tokens t.1 = some (t.2 - q - row.preConsumedQuota)
    rw [htoken t ht, sub_right_comm]

theorem OrganizationOpen.charge (h : OrganizationOpen w₀ relayInfo direct s w) (hq : 0 ≤ q)
    (hr : SamePayer s.relayInfo r) (herror : (postConsumeQuota st env r q w).error = none) :
    let p := postConsumeQuota st env r q w
    OrganizationOpen w₀ relayInfo (direct + q)
      { s with relayInfo := p.relayInfo, funding := s.funding.withRelayInfo p.relayInfo } p.world := by
  obtain ⟨org, f, row, horg, _, hopen, hgap⟩ := h.row
  have hbill : isOrganizationBilling r = true := hr.billing.trans hopen.request.1
  have hid : r.organizationBillingSessionId = w₀.sessions.next := hr.sessionId.trans hopen.request.2
  have hlimited : ((limitedToken w₀ relayInfo).map fun t => (t.1, t.2 - direct)).map
      (fun t => (t.1, t.2 - q)) = (limitedToken w₀ relayInfo).map fun t => (t.1, t.2 - (direct + q)) := by
    simp [Function.comp_def, sub_sub]
  have hpays : ∀ t ∈ limitedToken w₀ relayInfo, r.isPlayground = false ∧ r.tokenId = t.1 ∧ 0 < t.1 := by
    intro t ht
    obtain ⟨hplay, htid, -⟩ := h.token t ht
    obtain ⟨-, -, hpos, -⟩ := hopen.token (t.1, t.2 - direct) (map_eq_some_iff.mpr ⟨t, ht, rfl⟩)
    exact ⟨hr.isPlayground.trans hplay, hr.tokenId.trans htid, hpos⟩
  unfold postConsumeQuota postConsumeQuotaWithResultCount at herror ⊢
  rw [if_pos hbill] at herror ⊢
  cases hres : consumeOrganizationAndTokenQuotaWithRequestCount env r q (decide (0 < q)) w.toDB with
  | error =>
    rw [hres] at herror
    cases herror
  | ok res =>
    obtain ⟨r', _⟩ := res
    obtain ⟨hsessions, hused, hsame, hsession, htokenId, hremain, hflags⟩ :=
      consumeOrganizationAndTokenQuota_ok hbill hq hres
    have haccount : r.billingAccountId = relayInfo.billingAccountId := hr.billingAccountId.trans h.account
    rw [haccount] at hused
    have hrow := hopen.nonneg
    have hcharged := hopen.charged (q := q) (r := r') (hsame.billing.trans hbill) (hsession.trans hid)
      (fun t' ht' => by
        obtain ⟨t, ht, rfl⟩ := map_eq_some_iff.mp ht'
        exact hsame.isPlayground.trans (hpays t ht).1)
      hsessions (hused _ (by omega) hopen.used)
      (fun t' ht' => by
        obtain ⟨t, ht, rfl⟩ := map_eq_some_iff.mp ht'
        obtain ⟨hplay, htid, hpos⟩ := hpays t ht
        obtain ⟨-, -, -, -, hbefore⟩ := hopen.token _ ht'
        have hafter := hremain hplay (by rw [htid]; exact hpos) (by rw [htid]; exact (h.token t ht).2.2)
        rw [htid] at hafter
        rw [hafter, hbefore]
        rfl)
    rw [hlimited, add_assoc] at hcharged
    refine ⟨⟨org, _, row, horg, by omega, hcharged, hgap⟩, hsame.billingAccountId.trans haccount,
      fun t ht => ?_⟩
    obtain ⟨hplay, htid, hpos⟩ := hpays t ht
    refine ⟨hsame.isPlayground.trans hplay, (htokenId (by rw [htid]; exact hpos)).trans htid,
      fun token' hget => ?_⟩
    obtain ⟨token, hold, heq⟩ := hflags t.1 token' hget
    rw [← heq]
    exact (h.token t ht).2.2 token hold

/-! ## The usage counters are no balances -/

/-- From `w` to `w'` no balance moved. -/
structure SameBalances (w w' : World) : Prop where
  wallet : ∀ id, w'.walletQuota id = w.walletQuota id
  users : ∀ id u, w.users.get? id = some u → ∃ u', w'.users.get? id = some u' ∧ u'.quota = u.quota
  subscriptions : w'.subscriptions = w.subscriptions
  preConsumeRecords : w'.preConsumeRecords = w.preConsumeRecords
  tokens : w'.tokens = w.tokens
  pendingTokenQuota : w'.pendingTokenQuota = w.pendingTokenQuota
  sessions : w'.sessions = w.sessions
  organizations : w'.organizations = w.organizations

theorem SameBalances.refl (w : World) : SameBalances w w :=
  ⟨fun _ => rfl, fun _ u hu => ⟨u, hu, rfl⟩, rfl, rfl, rfl, rfl, rfl, rfl⟩

theorem updateChannelUsedQuota_same : SameBalances w (updateChannelUsedQuota st w id quota) := by
  unfold updateChannelUsedQuota
  split_ifs
  · exact ⟨fun _ => rfl, fun _ u hu => ⟨u, hu, rfl⟩, rfl, rfl, rfl, rfl, rfl, rfl⟩
  · exact ⟨fun _ => rfl, fun _ u hu => ⟨u, hu, rfl⟩, rfl, rfl, rfl, rfl, rfl, rfl⟩

theorem modifyUser_same {g : User → User} (hg : ∀ u, (g u).quota = u.quota) :
    SameBalances w { w with users := w.users.modify id g } := by
  have hrow : ∀ i u, w.users.get? i = some u →
      ∃ u', (w.users.modify id g).get? i = some u' ∧ u'.quota = u.quota := by
    intro i u hu
    rw [Table.get?_modify]
    split_ifs with hi
    · exact ⟨g u, by simp [hu], hg u⟩
    · exact ⟨u, hu, rfl⟩
  refine ⟨fun i => ?_, hrow, rfl, rfl, rfl, rfl, rfl, rfl⟩
  show ((w.users.modify id g).get? i).elim 0 (fun u => u.quota) + w.pendingUserQuota i = w.walletQuota i
  rw [World.walletQuota]
  cases hu : w.users.get? i with
  | none =>
    rw [Table.get?_modify]
    split_ifs <;> simp [hu]
  | some u =>
    obtain ⟨_, hu', heq⟩ := hrow i u hu
    rw [hu', elim_some, elim_some, heq]

theorem updateUserUsedQuotaAndRequestCount_same :
    SameBalances w (updateUserUsedQuotaAndRequestCount st w id quota) := by
  unfold updateUserUsedQuotaAndRequestCount updateUserUsedQuota
  split_ifs
  · exact ⟨fun _ => rfl, fun _ u hu => ⟨u, hu, rfl⟩, rfl, rfl, rfl, rfl, rfl, rfl⟩
  · exact modifyUser_same fun _ => rfl

theorem SameBalances.trans {w₁ : World} (h : SameBalances w w₁) (h' : SameBalances w₁ w') : SameBalances w w' where
  wallet id := (h'.wallet id).trans (h.wallet id)
  users id u hu := by
    obtain ⟨u1, hu1, heq1⟩ := h.users id u hu
    obtain ⟨u2, hu2, heq2⟩ := h'.users id u1 hu1
    exact ⟨u2, hu2, heq2.trans heq1⟩
  subscriptions := h'.subscriptions.trans h.subscriptions
  preConsumeRecords := h'.preConsumeRecords.trans h.preConsumeRecords
  tokens := h'.tokens.trans h.tokens
  pendingTokenQuota := h'.pendingTokenQuota.trans h.pendingTokenQuota
  sessions := h'.sessions.trans h.sessions
  organizations := h'.organizations.trans h.organizations

theorem countWssUsage_same (st : Settings) (relayInfo : RelayInfo) (usage : RealtimeUsage) (quota : Int) :
    SameBalances w (countWssUsage st relayInfo usage quota w) := by
  unfold countWssUsage
  split_ifs
  · exact .refl w
  · exact updateChannelUsedQuota_same
  · exact updateUserUsedQuotaAndRequestCount_same.trans updateChannelUsedQuota_same

theorem Held.same (h : Held st base held extra funding w) (hsame : SameBalances w w') :
    Held st base held extra funding w' := by
  cases funding with
  | wallet f =>
    have h' : WalletHeld st base held f w := h
    obtain ⟨u, hu, hroom⟩ := h'.room
    obtain ⟨u', hu', heq⟩ := hsame.users f.userId u hu
    exact ⟨h'.consumed, by rw [hsame.wallet]; exact h'.taken, u', hu', by rw [heq]; exact hroom⟩
  | subscription f =>
    have h' : SubscriptionHeld base held extra f w := h
    refine ⟨?_, ?_, h'.base_nonneg, h'.split, h'.extra_nonneg, h'.preConsumed, h'.requestId, ?_⟩
    · rw [hsame.subscriptions]
      exact h'.row
    · rw [World.amountUsed, hsame.subscriptions]
      exact h'.used
    · rw [findPreConsumeRecord, hsame.preConsumeRecords]
      exact h'.record
  | organization => exact h.elim

theorem PersonalOpen.same (h : PersonalOpen st w₀ relayInfo direct s w) (hsame : SameBalances w w') :
    PersonalOpen st w₀ relayInfo direct s w' :=
  ⟨⟨h.session.account, h.session.held.same hsame, h.session.flags, h.session.tokenConsumed,
    h.session.subscriptionId, h.session.extra_nonneg, h.session.nonneg, h.session.le_max⟩, h.personal, h.source,
    h.payer, h.isPlayground, h.tokenId, fun hoff => (h.token hoff).congr hsame.tokens hsame.pendingTokenQuota⟩

theorem OrganizationOpen.same (h : OrganizationOpen w₀ relayInfo direct s w) (hsame : SameBalances w w') :
    OrganizationOpen w₀ relayInfo direct s w' := by
  obtain ⟨org, f, row, horg, hlow, ho, hgap⟩ := h.row
  refine ⟨⟨org, f, row, horg, hlow, ⟨ho.funding, ho.memory, ho.billing, ho.request, ?_, ho.organizationId,
    ho.unsettled, ho.unrefunded, ho.flags, ho.nonneg, ?_, ?_⟩, hgap⟩, h.account, ?_⟩
  · show w'.sessions.get? _ = _
    rw [hsame.sessions]
    exact ho.get
  · show ∃ org, w'.organizations.get? _ = some org ∧ _
    rw [hsame.organizations]
    exact ho.used
  · intro t ht
    obtain ⟨hplay, hid, hpos, hunl, hremain⟩ := ho.token t ht
    refine ⟨hplay, hid, hpos, hunl, ?_⟩
    show remainOf w'.tokens t.1 = _
    rw [hsame.tokens]
    exact hremain
  · rw [hsame.tokens]
    exact h.token

/-! ## The open request -/

/-- Since `w₀` the funding source of the request has paid `amount`, and so has its token: outside
playground the one of a personal request, and the limited one of an organization's. -/
structure Paid (st : Settings) (w₀ w : World) (relayInfo : RelayInfo) (funding : FundingSource)
    (amount : Int) : Prop where
  funding : funding.taken w - funding.takenBefore st w₀ = amount
  token : isOrganizationBilling relayInfo = false → relayInfo.isPlayground = false →
    TokenPaid w₀ w relayInfo.tokenId amount
  organizationToken : isOrganizationBilling relayInfo = true → ∀ t ∈ limitedToken w₀ relayInfo,
    remainOf w.tokens t.1 = some (t.2 - amount)

/-- What is assumed of the database when `PreConsumeBilling` is called. -/
structure RealtimePayable (st : Settings) (w₀ : World) (relayInfo : RelayInfo) : Prop where
  personal : isOrganizationBilling relayInfo = false → Payable st w₀ relayInfo
  fresh : isOrganizationBilling relayInfo = true → ∀ identity,
    organizationBillingSessionIdentity relayInfo = .ok identity → findSession w₀.toDB identity.key = none
  organization : isOrganizationBilling relayInfo = true →
    ∃ org, w₀.organizations.get? relayInfo.billingAccountId = some org ∧ 0 ≤ org.usedQuota

/-- The open session of a request over `funding`, with `direct` charged beside it. -/
def RequestOpen (st : Settings) (w₀ : World) (relayInfo : RelayInfo) (funding : FundingSource) (direct : Int)
    (r : Request) (w : World) : Prop :=
  ∃ s, r = .withBilling s ∧
    ((isOrganizationBilling relayInfo = false ∧ s.funding = funding ∧
        PersonalOpen st w₀ relayInfo direct s w) ∨
      (isOrganizationBilling relayInfo = true ∧
        (∃ f, funding = .organization f ∧ f.relayInfo.billingAccountId = relayInfo.billingAccountId) ∧
        OrganizationOpen w₀ relayInfo direct s w))

section Requests

variable {answers : OpenAnswers} {tokenQuota quota : Int} {r r₁ : Request} {s₁ : BillingSession}

theorem OrganizationOpen.created {tokenAnswer fundingAnswer : CacheAnswer}
    (h₀ : RealtimePayable st w₀ relayInfo) (hbill : isOrganizationBilling relayInfo = true)
    (hopen : (BillingSession.forOrganization relayInfo).preConsume st env tokenAnswer fundingAnswer tokenQuota
      quota w₀ = ⟨none, s, w⟩) :
    (∃ f, s.funding = .organization f ∧ f.relayInfo.billingAccountId = relayInfo.billingAccountId) ∧
      OrganizationOpen w₀ relayInfo 0 s w := by
  obtain ⟨org, horg, hused⟩ := h₀.organization hbill
  have hok := congrArg Outcome.error hopen
  have hcreated := Open.created hbill (h₀.fresh hbill) horg hused hok
  simp only [hopen] at hcreated
  obtain ⟨f, row, hrow, hgap, -⟩ := hcreated
  obtain ⟨-, f', db, identity, relayInfo', token?, deducted, hc, heq⟩ := preConsume_created hbill (h₀.fresh hbill) hok
  rw [hopen] at heq
  cases heq
  have haccount : f'.relayInfo.billingAccountId = relayInfo.billingAccountId := hc.request.billingAccountId
  refine ⟨⟨f', rfl, haccount⟩, ⟨org, f, row, horg, by omega, ?_, hgap⟩, haccount, fun t ht => ?_⟩
  · simpa using hrow
  · obtain ⟨⟨hplay, -⟩, hid, hflag⟩ := created_limitedToken hc ht
    exact ⟨hplay, hid, hflag⟩

theorem RequestOpen.created (h₀ : RealtimePayable st w₀ r.relayInfo) (hmax : quota ≤ maxWalletQuota)
    (hopen : preConsumeBilling st env answers tokenQuota quota r w₀ = (.ok r₁, w)) (hs₁ : r₁.billing = some s₁) :
    RequestOpen st w₀ r.relayInfo s₁.funding 0 r₁ w := by
  by_cases hbill : isOrganizationBilling r.relayInfo = true
  · rcases preConsumeBilling_organization st env answers tokenQuota quota r w₀ hbill with
      ⟨e, herror⟩ | ⟨s, w', hpre, hok⟩
    · rw [herror] at hopen
      cases hopen
    · rw [hok] at hopen
      cases hopen
      cases hs₁
      obtain ⟨hfunding, ho⟩ := OrganizationOpen.created h₀ hbill hpre
      exact ⟨s₁, rfl, .inr ⟨hbill, hfunding, ho⟩⟩
  · have hpersonal : isOrganizationBilling r.relayInfo = false := by simpa using hbill
    obtain ⟨s, rfl, ho⟩ := preConsumeBilling_personal (h₀.personal hpersonal) hmax hopen
    cases hs₁
    exact ⟨s₁, rfl, .inl ⟨hpersonal, rfl, ho⟩⟩

theorem RequestOpen.charge (h : RequestOpen st w₀ relayInfo funding direct r w) (hq : 0 ≤ q) (t : TurnEnv)
    (herror : (postConsumeQuota st env (withAutoGroup t r.relayInfo) q w).error = none) :
    let p := postConsumeQuota st env (withAutoGroup t r.relayInfo) q w
    RequestOpen st w₀ relayInfo funding (direct + q) (r.withRelayInfo p.relayInfo) p.world := by
  intro p
  obtain ⟨s, rfl, ⟨hpersonal, hfunding, ho⟩ | ⟨hbill, hfunding, ho⟩⟩ := h
  · have hcharged := ho.charge hq withAutoGroup_samePayer herror
    refine ⟨_, rfl, .inl ⟨hpersonal, ?_, hcharged⟩⟩
    rw [← hfunding]
    exact withRelayInfo_personal ho.session.held.personal _
  · exact ⟨_, rfl, .inr ⟨hbill, hfunding, ho.charge hq withAutoGroup_samePayer herror⟩⟩

theorem RequestOpen.same (h : RequestOpen st w₀ relayInfo funding direct r w) (hsame : SameBalances w w') :
    RequestOpen st w₀ relayInfo funding direct r w' := by
  obtain ⟨s, rfl, ⟨hpersonal, hfunding, ho⟩ | ⟨hbill, hfunding, ho⟩⟩ := h
  · exact ⟨s, rfl, .inl ⟨hpersonal, hfunding, ho.same hsame⟩⟩
  · exact ⟨s, rfl, .inr ⟨hbill, hfunding, ho.same hsame⟩⟩

/-! ### Settling -/

theorem TokenPaid.settleToken {id : Nat} {amount : Int} {r : RelayInfo} (h : TokenPaid w₀ w id amount)
    (st : Settings) (env : Env) (delta : Int) (hid : r.tokenId = id) (hplay : r.isPlayground = false) :
    ∃ w', settleToken st env r delta w = .ok w' ∧ TokenPaid w₀ w' id (amount + delta) := by
  unfold Billing.settleToken
  rw [if_neg (by simp [hplay]), hid]
  by_cases hpos : 0 < delta
  · obtain ⟨w', hok, hmoved⟩ := decreaseTokenQuota_moved st env.now h.live hpos.le
    rw [if_pos hpos]
    exact ⟨w', hok, h.moved hmoved⟩
  · obtain ⟨w', hok, hmoved⟩ := increaseTokenQuota_moved st env.now h.live (by omega : 0 ≤ -delta)
    rw [if_neg hpos]
    exact ⟨w', hok, h.moved hmoved⟩

variable {actual : Int}

theorem PersonalOpen.settle (h : PersonalOpen st w₀ relayInfo direct s w) (env : Env) (hactual : 0 ≤ actual)
    (hpersonal : isOrganizationBilling relayInfo = false) :
    Paid st w₀ (s.settle st env actual w).world relayInfo s.funding (direct + actual) := by
  have ho := h.session
  have hheld : Held st (s.funding.takenBefore st w₀ + direct) s.preConsumedQuota s.extraReserved s.funding w :=
    ho.held
  have hsettled : s.settled = false := ho.flags.1
  have hfs : s.fundingSettled = false := ho.flags.2.1
  have hmax : s.preConsumedQuota ≤ maxWalletQuota := ho.le_max
  have hpaid : ∀ w', s.funding.taken w' = s.funding.takenBefore st w₀ + direct + actual →
      (relayInfo.isPlayground = false → TokenPaid w₀ w' relayInfo.tokenId (direct + actual)) →
      Paid st w₀ w' relayInfo s.funding (direct + actual) := by
    intro w' htaken htoken
    refine ⟨by omega, fun _ => htoken, fun hbill => ?_⟩
    rw [hpersonal] at hbill
    cases hbill
  rw [settle_personal hheld.personal, BillingSession.settlePersonal, if_neg (by simpa using hsettled)]
  by_cases hzero : actual - s.preConsumedQuota = 0
  · rw [if_pos hzero]
    obtain rfl : actual = s.preConsumedQuota := by omega
    refine hpaid w hheld.taken fun hoff => ?_
    rw [add_comm]
    exact h.token hoff
  · obtain ⟨w₁, hfunding, _, htokens, hpending⟩ := hheld.settleFunding
      (by omega : 0 ≤ s.preConsumedQuota + (actual - s.preConsumedQuota)) (by omega)
    have htaken1 : s.funding.taken w₁ = s.funding.takenBefore st w₀ + direct + actual := by omega
    rw [if_neg hzero]
    simp only [hfs, Bool.false_eq_true, if_false, hfunding]
    by_cases hplay : relayInfo.isPlayground = true
    · have hskip : settleToken st env s.relayInfo (actual - s.preConsumedQuota) w₁ = .ok w₁ := by
        rw [settleToken, if_pos (h.isPlayground.trans hplay)]
      rw [hskip]
      refine hpaid w₁ htaken1 fun hoff => ?_
      rw [hplay] at hoff
      cases hoff
    · have hoff : relayInfo.isPlayground = false := by simpa using hplay
      obtain ⟨w2, htoken, hmoved⟩ := ((h.token hoff).congr htokens hpending).settleToken st env
        (actual - s.preConsumedQuota) h.tokenId (h.isPlayground.trans hoff)
      rw [htoken]
      refine hpaid w2 ?_ fun _ => ?_
      · rw [taken_tokenFrame (settleToken_frame htoken)]
        exact htaken1
      · have hamount : s.preConsumedQuota + direct + (actual - s.preConsumedQuota) = direct + actual := by omega
        rwa [hamount] at hmoved

theorem OrganizationOpen.settle (h : OrganizationOpen w₀ relayInfo direct s w)
    (hbill : isOrganizationBilling relayInfo = true)
    (hfunding : ∃ f, funding = .organization f ∧ f.relayInfo.billingAccountId = relayInfo.billingAccountId)
    (hok : (s.settle st env actual w).error = none) :
    Paid st w₀ (s.settle st env actual w).world relayInfo funding (direct + actual) := by
  obtain ⟨f, rfl, haccount⟩ := hfunding
  obtain ⟨org, _, row, horg, hlow, ho, hgap⟩ := h.row
  obtain ⟨-, ⟨org', horg', hused'⟩, htoken⟩ := ho.settle hlow hok
  rw [hgap, sub_zero] at hused' htoken
  refine ⟨?_, fun hno => ?_, fun _ t ht => ?_⟩
  · have hafter : World.organizationUsed (s.settle st env actual w).world relayInfo.billingAccountId =
        org'.usedQuota := by
      rw [World.organizationUsed, horg', elim_some]
    have hbefore : World.organizationUsed w₀ relayInfo.billingAccountId = org.usedQuota := by
      rw [World.organizationUsed, horg, elim_some]
    show World.organizationUsed _ f.relayInfo.billingAccountId -
      World.organizationUsed w₀ f.relayInfo.billingAccountId = direct + actual
    rw [haccount, hafter, hbefore]
    omega
  · rw [hbill] at hno
    cases hno
  · have hremain := htoken (t.1, t.2 - direct) (map_eq_some_iff.mpr ⟨t, ht, rfl⟩)
    rw [← sub_sub]
    exact hremain

theorem RequestOpen.settle (h : RequestOpen st w₀ relayInfo funding direct r w) (hactual : 0 ≤ actual)
    (hok : (settleBilling st env actual r w).error = none) :
    Paid st w₀ (settleBilling st env actual r w).world relayInfo funding (direct + actual) := by
  obtain ⟨s, rfl, ⟨hpersonal, rfl, ho⟩ | ⟨hbill, hfunding, ho⟩⟩ := h
  · exact ho.settle env hactual hpersonal
  · exact ho.settle hbill hfunding hok

end Requests

/-! ## The turns of a session -/

section Turns

variable {info : RealtimeInfo} {σ : Realtime} {e : RealtimeEvent} {t : TurnEnv} {usage : RealtimeUsage}
  {r : Request}

/-- A turn that is not refused is charged by `PostConsumeQuota`. -/
theorem preWssConsumeQuota_ok (hprice : info.usePrice = false)
    (h : (preWssConsumeQuota st t info usage relayInfo w).error = none) :
    preWssConsumeQuota st t info usage relayInfo w =
      postConsumeQuota st t.env (withAutoGroup t relayInfo)
        (calculateAudioQuota t.ratios (turnQuotaInfo t info relayInfo usage)) w := by
  unfold preWssConsumeQuota at h ⊢
  rw [if_neg (by simp [hprice])] at h ⊢
  split at h
  · cases h
  · rename_i userQuota hread
    split at h
    · cases h
    · by_cases huser : userQuota < calculateAudioQuota t.ratios (turnQuotaInfo t info relayInfo usage)
      · rw [if_pos huser] at h
        cases h
      · rw [if_neg huser] at h ⊢
        split at h
        · cases h
        · rename_i henough
          rw [if_neg henough]

theorem preConsumeUsage_ok (h : (σ.preConsumeUsage st info t usage).error = none) :
    σ.error = none ∧ (preWssConsumeQuota st t info usage σ.request.relayInfo σ.world).error = none := by
  have hor : σ.error.or (preWssConsumeQuota st t info usage σ.request.relayInfo σ.world).error = none := h
  exact or_eq_none_iff.mp hor

theorem Realtime.step_ok (h : (σ.step st info e).error = none) : σ.error = none ∧
      ((σ.charges e = none ∧ (σ.step st info e).request = σ.request ∧ (σ.step st info e).world = σ.world) ∨
        ∃ t usage, σ.charges e = some (t, usage) ∧
          (preWssConsumeQuota st t info usage σ.request.relayInfo σ.world).error = none ∧
          (σ.step st info e).request = σ.request.withRelayInfo
            (preWssConsumeQuota st t info usage σ.request.relayInfo σ.world).relayInfo ∧ (σ.step st info e).world =
            (preWssConsumeQuota st t info usage σ.request.relayInfo σ.world).world) := by
  have hrun : σ.error.isSome = true → σ.error = none → False := fun hsome hnone => by
    rw [hnone] at hsome
    cases hsome
  cases e with
  | clientMessage | targetMessage =>
    unfold Realtime.step at h ⊢
    simp only at h ⊢
    split_ifs at h ⊢ with hs
    · exact absurd h (hrun hs)
    · exact ⟨h, .inl ⟨rfl, rfl, rfl⟩⟩
  | sessionUpdated => exact ⟨h, .inl ⟨rfl, rfl, rfl⟩⟩
  | responseDone t | responseDoneUnreported t =>
    unfold Realtime.step at h ⊢
    simp only at h ⊢
    split_ifs at h ⊢ with hs hfailed
    · exact absurd h (hrun hs)
    · rw [h] at hfailed
      cases hfailed
    · obtain ⟨hnone, hok⟩ := preConsumeUsage_ok h
      exact ⟨hnone, .inr ⟨t, _, rfl, hok, rfl, rfl⟩⟩
  | closeUsage t | closeLocalUsage t =>
    unfold Realtime.step Realtime.charges at *
    simp only at h ⊢
    split_ifs at h ⊢ with hs
    · obtain ⟨hnone, hok⟩ := preConsumeUsage_ok h
      exact ⟨hnone, .inr ⟨t, _, rfl, hok, rfl, rfl⟩⟩
    · exact ⟨h, .inl ⟨rfl, rfl, rfl⟩⟩

variable {events : List RealtimeEvent}

theorem Realtime.run_ok (h : (run (Realtime.step st info) σ events).error = none) : σ.error = none := by
  induction events generalizing σ with
  | nil => exact h
  | cons e _ ih => exact (Realtime.step_ok (ih h)).1

theorem RequestOpen.step (h : RequestOpen st w₀ relayInfo funding direct σ.request σ.world)
    (hprice : info.usePrice = false)
    (hok : (σ.step st info e).error = none) : ∃ q, 0 ≤ q ∧ (q = 0 ↔ σ.freeTurn info e) ∧
      RequestOpen st w₀ relayInfo funding (direct + q) (σ.step st info e).request (σ.step st info e).world := by
  obtain ⟨-, ⟨hnone, hrequest, hworld⟩ | ⟨t, usage, hsome, hcharge, hrequest, hworld⟩⟩ := Realtime.step_ok hok
  · refine ⟨0, le_rfl, ⟨fun _ t usage hc => ?_, fun _ => rfl⟩, ?_⟩
    · rw [hnone] at hc
      cases hc
    · rw [hrequest, hworld, add_zero]
      exact h
  · have hpriced : (turnQuotaInfo t info σ.request.relayInfo usage).usePrice = false := hprice
    refine ⟨calculateAudioQuota t.ratios (turnQuotaInfo t info σ.request.relayInfo usage),
      calculateAudioQuota_nonneg t.ratios hpriced, ?_, ?_⟩
    · rw [calculateAudioQuota_eq_zero_iff t.ratios hpriced]
      constructor
      · intro hfree t' usage' hc
        rw [hsome] at hc
        cases hc
        exact hfree
      · intro hfree
        exact hfree t usage hsome
    · have heq := preWssConsumeQuota_ok hprice hcharge
      rw [hrequest, hworld]
      rw [heq] at hcharge ⊢
      exact h.charge (calculateAudioQuota_nonneg t.ratios hpriced) t hcharge

/-- The charges of a run add up, and they are nothing exactly when every turn is free. -/
theorem RequestOpen.run
    (h : RequestOpen st w₀ relayInfo funding direct σ.request σ.world) (hprice : info.usePrice = false)
    (hok : (Transition.run (Realtime.step st info) σ events).error = none) : ∃ total, direct ≤ total ∧
      (total = direct ↔ Along (Realtime.step st info) (Realtime.freeTurn info) σ events) ∧
      RequestOpen st w₀ relayInfo funding total (Transition.run (Realtime.step st info) σ events).request
        (Transition.run (Realtime.step st info) σ events).world := by
  induction events generalizing σ direct with
  | nil => exact ⟨direct, le_rfl, ⟨fun _ => trivial, fun _ => rfl⟩, h⟩
  | cons e _ ih =>
    obtain ⟨q, _, hfree, hstep⟩ := h.step hprice (Realtime.run_ok hok)
    obtain ⟨total, _, hiff, hfinal⟩ := ih hstep hok
    refine ⟨total, by omega, ?_, hfinal⟩
    rw [Along, ← hfree, ← hiff]
    constructor
    · intro heq
      constructor <;> omega
    · rintro ⟨hzero, heq⟩
      omega

end Turns

/-! ## What a session pays -/

theorem wssQuota_nonneg (rs : RatioSetting) {info : RealtimeInfo} {usage : RealtimeUsage}
    (hprice : info.priceData.usePrice = false) : 0 ≤ wssQuota rs info usage none := by
  unfold wssQuota
  split_ifs
  · exact le_rfl
  · exact calculateAudioQuota_nonneg rs hprice

/-- **What a realtime session pays.** `PreConsumeBilling` opens the session of a ratio-billed realtime
request over a wallet, a subscription or an organization; any messages follow, turns among them whose usage
is reported or counted; `PostWssConsumeQuota` settles the summed usage; nothing fails. Funding source and
token have then paid the quota that `PostWssConsumeQuota` computes, and no more, if and only if every turn
was free of charge when `PreWssConsumeQuota` priced it. -/
theorem paidOnce_iff (st : Settings) (env env' : Env) (answers : OpenAnswers) (tokenQuota quota : Int)
    (r r₁ : Request) (s₁ : BillingSession) (w₀ w₁ : World) (info : RealtimeInfo) (rs : RatioSetting)
    (messages : List RealtimeEvent) (t t' : TurnEnv) (h₀ : RealtimePayable st w₀ r.relayInfo)
    (hmax : quota ≤ maxWalletQuota) (hprice : info.usePrice = false)
    (hpriceData : info.priceData.usePrice = false)
    (hopen : preConsumeBilling st env answers tokenQuota quota r w₀ = (.ok r₁, w₁))
    (hs₁ : r₁.billing = some s₁)
    (hturns : (openaiRealtimeHandler st info messages t t' r₁ w₁).error = none)
    (hsettle : (postWssConsumeQuota st env' rs info none
      (openaiRealtimeHandler st info messages t t' r₁ w₁).sumUsage
      (openaiRealtimeHandler st info messages t t' r₁ w₁).request
      (openaiRealtimeHandler st info messages t t' r₁ w₁).world).error = none) :
    let σ := openaiRealtimeHandler st info messages t t' r₁ w₁
    let p := postWssConsumeQuota st env' rs info none σ.sumUsage σ.request σ.world
    Paid st w₀ p.world r.relayInfo s₁.funding p.quota ↔
      Along (Realtime.step st info) (Realtime.freeTurn info) { request := r₁, world := w₁ }
        (sessionEvents messages t t') := by
  intro σ p
  have hstart := RequestOpen.created h₀ hmax hopen hs₁
  obtain ⟨total, _, hfree, hend⟩ := RequestOpen.run (σ := { request := r₁, world := w₁ }) hstart hprice hturns
  have hcounted := hend.same (countWssUsage_same st σ.request.relayInfo σ.sumUsage (wssQuota rs info σ.sumUsage none))
  have hpaid : Paid st w₀ p.world r.relayInfo s₁.funding (total + p.quota) :=
    hcounted.settle (wssQuota_nonneg rs hpriceData) hsettle
  rw [← hfree]
  constructor
  · intro honce
    have hfunding := honce.funding
    have htwice := hpaid.funding
    omega
  · intro hzero
    rw [hzero, zero_add] at hpaid
    exact hpaid

/-! ### A session with two turns -/

def realtimeRequest : Request where
  relayInfo := { userId := 1, tokenId := 1, tokenKey := "k", requestId := "r", billingPreference := "wallet_only" }

def realtimeOpened : Request × World :=
  let o := preConsumeBilling {} ⟨10, 300⟩ {} 0 100 realtimeRequest walletSample
  (o.1.toOption.getD realtimeRequest, o.2)

def realtimeBilling : BillingSession := realtimeOpened.1.billing.getD (.forWallet realtimeRequest.relayInfo)

/-- The model costs `ratio` for a token, when the turns are charged and at the end. -/
def realtimeTurn (ratio : ℚ) : TurnEnv where
  env := ⟨20, 300⟩
  ratios := { getModelRatio := fun _ => ratio }

def realtimeInfo (ratio : ℚ) : RealtimeInfo where
  priceData := { modelRatio := ratio }

/-- Two turns, one with a reported usage of `n` input tokens, the other counted locally. -/
def realtimeMessages (ratio : ℚ) (n : Int) : List RealtimeEvent :=
  [.responseDone (realtimeTurn ratio)
      { totalTokens := n, inputTokens := n, inputTokenDetails := { textTokens := n } },
    .clientMessage n 0, .responseDoneUnreported (realtimeTurn ratio) 0 0]

def realtimeSession (ratio : ℚ) (n : Int) : Realtime :=
  openaiRealtimeHandler {} (realtimeInfo ratio) (realtimeMessages ratio n) (realtimeTurn ratio)
    (realtimeTurn ratio) realtimeOpened.1 realtimeOpened.2

def realtimeSettled (ratio : ℚ) (n : Int) : WssSettlement :=
  postWssConsumeQuota {} ⟨30, 300⟩ {} (realtimeInfo ratio) none (realtimeSession ratio n).sumUsage
    (realtimeSession ratio n).request (realtimeSession ratio n).world

theorem realtimeRequest_payable : RealtimePayable {} walletSample realtimeRequest.relayInfo where
  personal _ := {
    account := {
      user := ⟨{ quota := 1000 }, rfl, by decide⟩
      fresh := by decide +kernel
      used := fun i sub h => by cases h
      reset := fun sub sub' h hused => by
        cases h
        exact hused }
    personal := by decide
    token := fun _ => by decide +kernel }
  fresh h := absurd h (by decide)
  organization h := absurd h (by decide)

/-- Two turns of one token at a quarter: each is rounded to nothing, and their sum to `1`. -/
theorem paidOnce_sample : (realtimeSettled (1 / 4) 1).quota = 1 ∧
      Paid {} walletSample (realtimeSettled (1 / 4) 1).world realtimeRequest.relayInfo realtimeBilling.funding
        (realtimeSettled (1 / 4) 1).quota :=
  ⟨by decide +kernel, (paidOnce_iff {} ⟨10, 300⟩ ⟨30, 300⟩ {} 0 100 realtimeRequest realtimeOpened.1
    realtimeBilling walletSample realtimeOpened.2 (realtimeInfo (1 / 4)) {} (realtimeMessages (1 / 4) 1)
    (realtimeTurn (1 / 4)) (realtimeTurn (1 / 4)) realtimeRequest_payable (by decide) rfl rfl rfl
    (by decide +kernel) (by decide +kernel) (by decide +kernel)).mpr (by decide +kernel)⟩

/-- Two turns of `20` tokens at a ratio of `1`: the quota of the session is `40`, and wallet and token have
paid `80`. -/
theorem turns_are_paid_twice :
    let p := realtimeSettled 1 20
    p.error = none ∧ p.quota = 40 ∧ p.world.walletQuota 1 = walletSample.walletQuota 1 - 80 ∧
      p.world.tokenRemain 1 = walletSample.tokenRemain 1 - 80 ∧
      p.world.tokenUsed 1 = walletSample.tokenUsed 1 + 80 ∧
      ¬ Paid {} walletSample p.world realtimeRequest.relayInfo realtimeBilling.funding p.quota := by
  intro p
  refine ⟨by decide +kernel, by decide +kernel, by decide +kernel, by decide +kernel, by decide +kernel,
    fun h => ?_⟩
  have htaken : realtimeBilling.funding.taken p.world -
      realtimeBilling.funding.takenBefore {} walletSample ≠ p.quota := by decide +kernel
  exact htaken h.funding

end CubeRouter.Billing
