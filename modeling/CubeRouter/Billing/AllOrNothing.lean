import CubeRouter.Billing.Opening

/-!
# A session opens whole or not at all

`NewBillingSession` may try two funding sources, and each try charges the token before the source. A try that fails
leaves the balances where it found them (`Unmoved`), so the one that succeeds has charged its own source and the token
once (`SessionCharged`), whatever was tried before.
-/

namespace CubeRouter.Billing

open Relational Transition Ledger

variable {st : Settings} {env : Env} {w₀ w1 w w' : World} {relayInfo : RelayInfo} {quota : Int}

/-- Nothing but the columns of tokens has been written, and the token of the request is where it was. -/
structure Unmoved (relayInfo : RelayInfo) (w₀ w : World) : Prop where
  restored : Restored relayInfo w₀ w
  playground : relayInfo.isPlayground = true → w = w₀

theorem Unmoved.refl (relayInfo : RelayInfo) (w : World) : Unmoved relayInfo w w :=
  ⟨.refl relayInfo w, fun _ => rfl⟩

theorem Unmoved.trans (h : Unmoved relayInfo w₀ w1) (h' : Unmoved relayInfo w1 w) : Unmoved relayInfo w₀ w :=
  ⟨h.restored.trans h'.restored, fun hplay => (h'.playground hplay).trans (h.playground hplay)⟩

/-- The subscription is as it was, or reset because that was due. -/
def ResetOnly (st : Settings) (w₀ w : World) (id : Nat) : Prop :=
  w.subscriptions.get? id = w₀.subscriptions.get? id ∨
    ∃ row due, w₀.subscriptions.get? id = some row ∧ st.resetSubscription row = .ok due ∧
      w.subscriptions.get? id = some due

/-- The funding source of the session has paid, and no other one. -/
def SourceCharged (st : Settings) (now : Int) (relayInfo : RelayInfo) (w₀ : World)
    (s : BillingSession) (w : World) : Prop :=
  match s.funding with
  | .wallet f =>
    f.userId = relayInfo.userId ∧ w.walletQuota f.userId = w₀.walletQuota f.userId - s.preConsumedQuota ∧
      ∀ id, w.subscriptions.get? id = w₀.subscriptions.get? id
  | .subscription f =>
    (∀ id, w.walletQuota id = w₀.walletQuota id) ∧
      (∃ row due, w₀.subscriptions.get? f.subscriptionId = some row ∧ row.active relayInfo.userId now = true ∧
        st.resetSubscription row = .ok due ∧ w.amountUsed f.subscriptionId = due.amountUsed + s.preConsumedQuota) ∧
      ∀ id, id ≠ f.subscriptionId → ResetOnly st w₀ w id
  | .organization _ => False

/-- What a session that opens has done since `w₀`. -/
structure SessionCharged (st : Settings) (now : Int) (relayInfo : RelayInfo) (w₀ : World)
    (s : BillingSession) (w : World) : Prop where
  source : SourceCharged st now relayInfo w₀ s w
  token : relayInfo.isPlayground = false → TokenPaid w₀ w relayInfo.tokenId s.preConsumedQuota
  playground : relayInfo.isPlayground = true → ∀ id, w.tokenRemain id = w₀.tokenRemain id ∧
    w.tokenUsed id = w₀.tokenUsed id

/-- What the request brings: a token outside playground, and an id that no subscription has been charged under. -/
structure Chargeable (w₀ : World) (relayInfo : RelayInfo) : Prop where
  personal : isOrganizationBilling relayInfo = false
  fresh : findPreConsumeRecord w₀ relayInfo.requestId = none
  token : relayInfo.isPlayground = false → (w₀.liveToken relayInfo.tokenId).isSome

/-- Either a session that has charged one source and the token, or an error that has moved nothing. -/
structure AllOrNothing (st : Settings) (now : Int) (relayInfo : RelayInfo) (w₀ : World) (opened : Opened) : Prop where
  charged : ∀ s w, opened = (.ok s, w) → SessionCharged st now relayInfo w₀ s w
  unmoved : ∀ e w, opened = (.error e, w) →
    (∀ id, w.walletQuota id = w₀.walletQuota id) ∧ (∀ id, w.subscriptions.get? id = w₀.subscriptions.get? id) ∧
      w.tokenRemain relayInfo.tokenId = w₀.tokenRemain relayInfo.tokenId ∧
      w.tokenUsed relayInfo.tokenId = w₀.tokenUsed relayInfo.tokenId

theorem preConsumePersonal_unmoved {s : BillingSession} {tokenAnswer fundingAnswer : CacheAnswer}
    (hzero : s.tokenConsumed = 0) (hquota : 0 ≤ quota)
    (herror : (s.preConsumePersonal st env tokenAnswer fundingAnswer quota w).error ≠ none) :
    Unmoved s.relayInfo w (s.preConsumePersonal st env tokenAnswer fundingAnswer quota w).world := by
  refine ⟨preConsumePersonal_restored hzero hquota herror, fun hplay => ?_⟩
  unfold BillingSession.preConsumePersonal at herror ⊢
  cases htoken : preConsumeToken st env tokenAnswer s.relayInfo quota w with
  | error => rfl
  | ok w1 =>
    obtain rfl : w1 = w := preConsumeToken_same (fun h => by simp [hplay] at h) htoken
    simp only [htoken] at herror ⊢
    cases hfunding : preConsumeFunding st env fundingAnswer s.funding quota w1 with
    | ok =>
      rw [hfunding] at herror
      exact absurd rfl herror
    | error =>
      dsimp only
      rw [if_neg (by simp [hplay])]

/-! ## A source that pays -/

theorem walletQuota_frame (h : TokenFrame w w') (id : Nat) : w'.walletQuota id = w.walletQuota id := by
  obtain ⟨_, _, rfl⟩ := h
  rfl

theorem subscriptions_frame (h : TokenFrame w w') : w'.subscriptions = w.subscriptions := by
  obtain ⟨_, _, rfl⟩ := h
  rfl

variable {funding : FundingSource} {answer : CacheAnswer}

theorem preConsumeWallet_charged {f : WalletFunding} (hquota : 0 ≤ quota)
    (h : preConsumeFunding st env answer (.wallet f) quota w = .ok (funding, w')) :
    (∃ f', funding = .wallet f' ∧ f'.userId = f.userId) ∧ WalletMoved st w w' f.userId (-quota) := by
  obtain ⟨⟨_, _⟩, hpre, hrest⟩ := bind_eq_ok.mp h
  cases hrest
  unfold WalletFunding.preConsume at hpre
  split at hpre
  · cases hpre
    obtain rfl : quota = 0 := by omega
    exact ⟨⟨_, rfl, rfl⟩, .refl st w f.userId⟩
  · obtain ⟨⟨_, _⟩, hreserve, hlast⟩ := bind_eq_ok.mp hpre
    rcases tryReserveUserQuota_moved hreserve with ⟨rfl, hmoved⟩ | ⟨rfl, -⟩
    · cases hlast
      exact ⟨⟨_, rfl, rfl⟩, hmoved⟩
    · cases hlast

/-- The loop resets candidates and charges one of them. -/
theorem consumeSubscription_charged {requestId : String} {userId : Nat} {amount : Int}
    {result : SubscriptionPreConsumeResult} {candidates : List (Nat × UserSubscription)} {now : Int}
    (hrows : ∀ p ∈ candidates, w₀.subscriptions.get? p.1 = some p.2 ∧ p.2.active userId now = true)
    (hreset : ∀ id, ResetOnly st w₀ w id)
    (h : consumeSubscription st requestId userId amount w candidates = .ok (result, w')) :
    (∃ row due, w₀.subscriptions.get? result.userSubscriptionId = some row ∧ row.active userId now = true ∧
      st.resetSubscription row = .ok due ∧ w'.amountUsed result.userSubscriptionId = due.amountUsed + amount) ∧
    ∀ id, id ≠ result.userSubscriptionId → ResetOnly st w₀ w' id := by
  induction candidates generalizing w with
  | nil => cases h
  | cons p _ ih =>
    obtain ⟨i, candidate⟩ := p
    obtain ⟨hrow, huser⟩ := hrows _ List.mem_cons_self
    obtain ⟨due, hdue, h1⟩ := bind_eq_ok.mp h
    -- a candidate's row is there while the loop runs
    have hpresent : ∃ r, w.subscriptions.get? i = some r := by
      obtain hsame | ⟨_, d, _, _, hd⟩ := hreset i
      · exact ⟨candidate, hsame.trans hrow⟩
      · exact ⟨d, hd⟩
    obtain ⟨r, hr⟩ := hpresent
    have hwritten (d : UserSubscription) : (w.subscriptions.modify i fun _ => d).get? i = some d := by
      rw [Table.get?_modify_self, hr]
      rfl
    split at h1
    · refine ih (fun q hq => hrows q (List.mem_cons_of_mem _ hq)) (fun id => ?_) h1
      by_cases hid : id = i
      · subst hid
        exact .inr ⟨candidate, due, hrow, hdue, hwritten due⟩
      · refine (hreset id).imp (fun hsame => ?_) fun ⟨row, d, hget, hd, hw⟩ => ⟨row, d, hget, hd, ?_⟩
        · exact (Table.get?_modify_of_ne _ _ hid).trans hsame
        · exact (Table.get?_modify_of_ne _ _ hid).trans hw
    · cases h1
      have hcharged : ((w.subscriptions.modify i fun _ => due).modify i fun _ =>
          { due with amountUsed := due.amountUsed + amount }).get? i =
          some { due with amountUsed := due.amountUsed + amount } := by
        rw [Table.get?_modify_self, hwritten]
        rfl
      refine ⟨⟨candidate, due, hrow, huser, hdue, ?_⟩, fun id hid => ?_⟩
      · simp [World.amountUsed, hcharged]
      · have hother : ((w.subscriptions.modify i fun _ => due).modify i fun _ =>
            { due with amountUsed := due.amountUsed + amount }).get? id = w.subscriptions.get? id :=
          (Table.get?_modify_of_ne _ _ hid).trans (Table.get?_modify_of_ne _ _ hid)
        exact (hreset id).imp hother.trans fun ⟨row, d, hget, hd, hw⟩ => ⟨row, d, hget, hd, hother.trans hw⟩

theorem preConsumeSubscription_charged {f : SubscriptionFunding} (hfresh : findPreConsumeRecord w f.requestId = none)
    (h : preConsumeFunding st env answer (.subscription f) quota w = .ok (funding, w')) :
    ∃ f', funding = .subscription f' ∧ (∀ id, w'.walletQuota id = w.walletQuota id) ∧
      (∃ row due, w.subscriptions.get? f'.subscriptionId = some row ∧ row.active f.userId env.now = true ∧
        st.resetSubscription row = .ok due ∧ w'.amountUsed f'.subscriptionId = due.amountUsed + f.amount) ∧
      ∀ id, id ≠ f'.subscriptionId → ResetOnly st w w' id := by
  obtain ⟨⟨_, _⟩, hpre, hrest⟩ := bind_eq_ok.mp h
  cases hrest
  obtain ⟨⟨_, _⟩, hconsume, hlast⟩ := bind_eq_ok.mp hpre
  cases hlast
  obtain ⟨_, _, hframe⟩ := preConsumeUserSubscription_frame hconsume
  refine ⟨_, rfl, fun id => by rw [hframe]; rfl, ?_⟩
  unfold preConsumeUserSubscription at hconsume
  rw [hfresh] at hconsume
  split_ifs at hconsume
  dsimp only at hconsume
  split at hconsume
  · cases hconsume
  · refine consumeSubscription_charged (fun p hp => ?_) (fun _ => .inl rfl) hconsume
    exact mem_activeSubscriptions hp

/-! ## Tries -/

section Tries

variable {answers : OpenAnswers} {tokenQuota : Int} {s s0 : BillingSession} {tokenAnswer fundingAnswer : CacheAnswer}

theorem Chargeable.fresh_after (h : Chargeable w₀ relayInfo) (hframe : TokenFrame w₀ w) :
    findPreConsumeRecord w relayInfo.requestId = none := by
  obtain ⟨_, _, rfl⟩ := hframe
  exact h.fresh

variable {w2 : World}

theorem preConsumePersonal_token (h₀ : Chargeable w₀ relayInfo) (hunmoved : Unmoved relayInfo w₀ w1)
    {funding funding' : FundingSource} (hquota : 0 ≤ quota) (hkind : ∀ f, funding ≠ .organization f)
    {relayInfo' : RelayInfo} (hplay : relayInfo'.isPlayground = relayInfo.isPlayground)
    (htoken : relayInfo'.tokenId = relayInfo.tokenId)
    (hpre : preConsumeToken st env tokenAnswer relayInfo' quota w1 = .ok w2)
    (hfunding : preConsumeFunding st env fundingAnswer funding quota w2 = .ok (funding', w)) :
    (relayInfo.isPlayground = false → TokenPaid w₀ w relayInfo.tokenId quota) ∧
      (relayInfo.isPlayground = true → ∀ id, w.tokenRemain id = w₀.tokenRemain id ∧
      w.tokenUsed id = w₀.tokenUsed id) := by
  obtain ⟨htokens, hpending, -⟩ := preConsumeFunding_personal hkind hfunding
  constructor
  · intro hoff
    have hrest := hunmoved.restored.token hoff (h₀.token hoff)
    have hpaid := preConsumeToken_paid (hplay.trans hoff) (by rw [htoken]; exact hrest.live) hquota hpre
    rw [htoken] at hpaid
    exact (hrest.trans hpaid).congr htokens hpending
  · intro hon id
    obtain rfl : w2 = w1 := preConsumeToken_same (fun h => by simp [hplay, hon] at h) hpre
    obtain rfl := hunmoved.playground hon
    simp [World.tokenRemain, World.tokenUsed, htokens, hpending]

theorem tryWallet_charged (h₀ : Chargeable w₀ relayInfo) (hunmoved : Unmoved relayInfo w₀ w1) (hquota : 0 ≤ quota) :
    Ends (SessionCharged st env.now relayInfo w₀) (Unmoved relayInfo w₀)
      (tryWallet st env answers tokenQuota quota relayInfo w1) := by
  unfold tryWallet
  split
  · exact hunmoved
  · rename_i userQuota hread
    split
    · exact hunmoved
    · have hkind : ∀ f, (BillingSession.forWallet { relayInfo with userQuota }).funding ≠ .organization f :=
        fun f hf => by cases hf
      have heff := effectiveQuota_nonneg (BillingSession.forWallet { relayInfo with userQuota }) st tokenQuota hquota
      refine open_ends (.forWallet { relayInfo with userQuota }) (fun s w hopen => ?_) fun herror => hunmoved.trans ?_
      · rw [preConsume_personal hkind] at hopen
        generalize BillingSession.effectiveQuota _ st tokenQuota quota = eff at hopen heff
        obtain ⟨_, _, hpre, hfunding, rfl⟩ := preConsumePersonal_ok hopen
        obtain ⟨htoken, hplay⟩ := preConsumePersonal_token h₀ hunmoved heff hkind rfl rfl hpre hfunding
        obtain ⟨⟨f, rfl, huser⟩, hmoved⟩ := preConsumeWallet_charged heff hfunding
        have hframe := hunmoved.restored.frame.trans (preConsumeToken_frame hpre)
        refine ⟨⟨huser, ?_, fun id => ?_⟩, htoken, hplay⟩
        · rw [huser, ← walletQuota_frame hframe]
          exact hmoved.wallet
        · obtain ⟨_, _, rfl⟩ := hmoved.frame
          rw [← subscriptions_frame hframe]
      · obtain ⟨hback, hplay⟩ := preConsumePersonal_unmoved rfl heff herror
        exact ⟨⟨hback.frame, hback.token⟩, hplay⟩

theorem ResetOnly.of_frame {id : Nat} (hframe : TokenFrame w₀ w2) (h : ResetOnly st w2 w id) :
    ResetOnly st w₀ w id := by
  unfold ResetOnly at h ⊢
  rwa [subscriptions_frame hframe] at h

theorem trySubscription_charged (h₀ : Chargeable w₀ relayInfo) (hunmoved : Unmoved relayInfo w₀ w1) :
    Ends (SessionCharged st env.now relayInfo w₀) (Unmoved relayInfo w₀)
      (trySubscription st env answers tokenQuota quota relayInfo w1) := by
  unfold trySubscription
  generalize hsub : (if quota ≤ 0 then 1 else quota) = subConsume
  have hpos : 0 ≤ subConsume := by
    subst hsub
    split_ifs
    · exact Int.one_nonneg
    · omega
  have hkind : ∀ f, (BillingSession.forSubscription relayInfo subConsume).funding ≠ .organization f :=
    fun f hf => by cases hf
  -- a subscription is never trusted
  have heff :
    (BillingSession.forSubscription relayInfo subConsume).effectiveQuota st tokenQuota subConsume = subConsume := by
    unfold BillingSession.effectiveQuota BillingSession.shouldTrust BillingSession.forSubscription
    simp
  refine open_ends (.forSubscription relayInfo subConsume) (fun s w hopen => ?_) fun herror => hunmoved.trans ?_
  · rw [preConsume_personal hkind, heff] at hopen
    obtain ⟨_, _, hpre, hfunding, rfl⟩ := preConsumePersonal_ok hopen
    obtain ⟨htoken, hplay⟩ := preConsumePersonal_token h₀ hunmoved hpos hkind rfl rfl hpre hfunding
    have hframe := hunmoved.restored.frame.trans (preConsumeToken_frame hpre)
    obtain ⟨f, rfl, hwallet, ⟨row, due, hget, hactive, hdue, hused⟩, hother⟩ :=
      preConsumeSubscription_charged (h₀.fresh_after hframe) hfunding
    rw [subscriptions_frame hframe] at hget
    refine ⟨⟨fun id => ?_, ⟨row, due, hget, hactive, hdue, hused⟩, fun id hid => (hother id hid).of_frame hframe⟩,
      htoken, hplay⟩
    exact (hwallet id).trans (walletQuota_frame hframe id)
  · rw [preConsume_personal hkind, heff] at herror ⊢
    exact preConsumePersonal_unmoved rfl hpos herror

/-- Whatever the preference, the balances and the limits, and whichever source refuses first. -/
theorem newBillingSession_all_or_nothing (st : Settings) (env : Env) (answers : OpenAnswers) (tokenQuota : Int)
    (h₀ : Chargeable w₀ relayInfo) (hquota : 0 ≤ quota) :
    AllOrNothing st env.now relayInfo w₀ (newBillingSession st env answers tokenQuota quota relayInfo w₀) := by
  have hends : Ends (SessionCharged st env.now relayInfo w₀) (Unmoved relayInfo w₀)
      (newBillingSession st env answers tokenQuota quota relayInfo w₀) :=
    newBillingSession_ends h₀.personal (.refl relayInfo w₀) (fun _ hw1 => tryWallet_charged h₀ hw1 hquota)
      fun _ hw1 => trySubscription_charged h₀ hw1
  constructor
  · intro s w hok
    rwa [hok] at hends
  · intro e w herror
    rw [herror] at hends
    obtain ⟨⟨hframe, htoken⟩, hplay⟩ := hends
    refine ⟨walletQuota_frame hframe, fun id => by rw [subscriptions_frame hframe], ?_⟩
    by_cases hon : relayInfo.isPlayground = true
    · rw [hplay hon]
      exact ⟨rfl, rfl⟩
    · have hoff : relayInfo.isPlayground = false := by simpa using hon
      have hpaid := htoken hoff (h₀.token hoff)
      exact ⟨by have := hpaid.remain; omega, by have := hpaid.used; omega⟩

end Tries

def walletFirstRequest : RelayInfo where
  userId := 1
  requestId := "r"
  tokenId := 1
  billingPreference := "wallet_first"

def emptyWalletWorld : World where
  users := Table.empty.insert {}
  tokens := Table.empty.insert { remainQuota := 50 }
  subscriptions := Table.empty.insert { userId := 1, endTime := 10 }

theorem newBillingSession_all_or_nothing_overflow : AllOrNothing {} 0 walletFirstRequest emptyWalletWorld
      (newBillingSession {} ⟨0, 0⟩ {} 0 40 walletFirstRequest emptyWalletWorld) :=
  newBillingSession_all_or_nothing {} ⟨0, 0⟩ {} 0 ⟨by decide, by decide, by decide⟩ (by decide)

end CubeRouter.Billing
