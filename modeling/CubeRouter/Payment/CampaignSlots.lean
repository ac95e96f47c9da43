import CubeRouter.Payment.Campaign

/-!
# Who holds the slots of a campaign

A participant row is taken before it is known whether there is a reward, and it is given back only when the pool turns
out to be empty. The other ways out of `dispatchInvitationReward` keep it: the campaign of another invitee, and a
dispatch that fails.

Along a run without these, the rows of a campaign are at each moment the codes that were dispatched and the slots of
the goroutines that are still under way.
-/

namespace CubeRouter.Payment

open Relational Transition List Option Table

/-- The participant row that the goroutine has taken and not yet turned into a reward. -/
def Handler.slot (h : Handler) : Option Nat :=
  match h.stage with
  | .admission => none
  | .dispatch participantId => some participantId
  | .release participantId => some participantId

/-- It is campaign `c`, for a user in `p`. -/
def isFor (c : Nat) (p : Nat → Bool) (campaignId userId : Nat) : Bool := decide (campaignId = c) && p userId

/-- The goroutine holds a slot of campaign `c` for a user in `p`. -/
def Handler.holds (c : Nat) (p : Nat → Bool) (h : Handler) : Bool :=
  h.slot.isSome && h.campaigns.head?.any fun x => isFor c p x.1 h.userId

def rowsFor (c : Nat) (p : Nat → Bool) (s : Campaigns) : Nat :=
  s.participants.count fun r => isFor c p r.campaignId r.userId

def dispatchesFor (c : Nat) (p : Nat → Bool) (s : Campaigns) : Nat :=
  s.dispatches.countP fun d => isFor c p d.campaignId d.userId

def dispatchesOf (c : Nat) (s : Campaigns) : Nat := s.dispatches.countP fun d => d.campaignId = c

def dispatchesOfUser (c u : Nat) (s : Campaigns) : Nat := s.dispatches.countP fun d => d.campaignId = c ∧ d.userId = u

/-- The campaign takes one more row of the user. -/
def Campaigns.HasRoom (s : Campaigns) (c u : Nat) (config : CampaignConfig) : Prop :=
  (0 < config.maxParticipants → participantsOf c s < config.maxParticipants) ∧
    (0 < config.maxRewardsPerUser → participantsOfUser c u s < config.maxRewardsPerUser)

/-- The slot is not kept without a reward: only those are admitted whom the invitee of the campaign has invited, and
no dispatch and no release fails. -/
def Handler.KeepsNoSlot (s : Campaigns) (now : Int) (dbError : Bool) (h : Handler) : Prop :=
  ∀ c campaign rest config, h.campaigns = (c, campaign) :: rest → campaign.config = some config →
    match h.stage with
    | .admission => dbError = false → s.HasRoom c h.userId config → config.inviteeUserId = h.inviterId
    | .dispatch _ => dbError = false ∧
        ((∃ i r, s.redemptions.get? i = some r ∧ r.available now c config.inviteeUserId = true) →
          ∃ user, s.users.get? h.userId = some user)
    | .release _ => dbError = false

def CampaignEvent.KeepsNoSlot (s : Campaigns) : CampaignEvent → Prop
  | .step i now dbError => ∀ h, s.handlers[i]? = some h → h.KeepsNoSlot s now dbError
  | _ => True

/-! ## The invariant -/

/-- The row of a goroutine is the one it has taken, for a user whom the invitee of the campaign has invited. -/
structure Handler.HasRow (s : Campaigns) (h : Handler) (participantId : Nat) : Prop where
  row : ∃ c campaign rest config, h.campaigns = (c, campaign) :: rest ∧ campaign.config = some config ∧
    config.inviteeUserId = h.inviterId ∧ s.participants.get? participantId = some ⟨c, h.userId, h.inviterId⟩

structure SlotsRewarded (s : Campaigns) : Prop where
  /-- The rows are the dispatched codes and the slots under way, for any set of users. -/
  counted : ∀ (c : Nat) (p : Nat → Bool), rowsFor c p s = dispatchesFor c p s + s.handlers.countP (Handler.holds c p)
  rows : ∀ h ∈ s.handlers, ∀ i, h.slot = some i → h.HasRow s i
  unique : ∀ i, s.handlers.countP (fun h => h.slot = some i) ≤ 1
  copies : ∀ h ∈ s.handlers, h.inviterId ≠ 0 ∧
    ∀ x ∈ h.campaigns, s.campaigns.get? x.1 = some x.2 ∧ x.2.type = .invitation
  invited : ∀ i r, s.participants.get? i = some r → ∃ campaign config,
    s.campaigns.get? r.campaignId = some campaign ∧ campaign.config = some config ∧
      config.inviteeUserId = r.inviterId ∧ r.inviterId ≠ 0
  limits : ∀ c campaign config, s.campaigns.get? c = some campaign → campaign.config = some config →
    (0 < config.maxParticipants → participantsOf c s ≤ config.maxParticipants) ∧
      ∀ u, 0 < config.maxRewardsPerUser → participantsOfUser c u s ≤ config.maxRewardsPerUser

/-! ## What a goroutine does -/

/-- The goroutine goes on with the next campaign. -/
def Handler.next (h : Handler) (rest : List (Nat × Campaign)) : Handler :=
  { h with campaigns := rest, stage := .admission }

/-- All that a step of a goroutine does to rows and codes when it keeps no slot. -/
inductive SlotEffect (s : Campaigns) (h : Handler) (s' : Campaigns) (left : List Handler) : Prop
  | passed : h.slot = none → s'.participants = s.participants → s'.dispatches = s.dispatches →
      (left = [] ∨ ∃ x rest, h.campaigns = x :: rest ∧ left = [h.next rest]) → SlotEffect s h s' left
  | admitted {c : Nat} {campaign : Campaign} {rest : List (Nat × Campaign)} {config : CampaignConfig} :
      h.slot = none → h.campaigns = (c, campaign) :: rest → campaign.config = some config →
      s.HasRoom c h.userId config → config.inviteeUserId = h.inviterId →
      s'.participants = s.participants.insert ⟨c, h.userId, h.inviterId⟩ → s'.dispatches = s.dispatches →
      left = [{ h with stage := .dispatch s.participants.next }] → SlotEffect s h s' left
  | waiting {i : Nat} : h.slot = some i → s'.participants = s.participants → s'.dispatches = s.dispatches →
      left = [{ h with stage := .release i }] → SlotEffect s h s' left
  | rewarded {i c redemptionId : Nat} {campaign : Campaign} {rest : List (Nat × Campaign)} :
      h.slot = some i → h.campaigns = (c, campaign) :: rest → s'.participants = s.participants →
      s'.dispatches = ⟨c, redemptionId, h.userId⟩ :: s.dispatches → left = [h.next rest] → SlotEffect s h s' left
  | released {i c : Nat} {campaign : Campaign} {rest : List (Nat × Campaign)} :
      h.slot = some i → h.campaigns = (c, campaign) :: rest → s'.participants = s.participants.delete i →
      s'.dispatches = s.dispatches → left = [h.next rest] → SlotEffect s h s' left

variable {s s' : Campaigns} {h : Handler} {now : Int} {dbError : Bool} {left : List Handler}

theorem createCampaignParticipantIfAllowed_ok {participant : CampaignParticipant} {maxParticipants maxRewards : Int}
    {id : Nat} (h : createCampaignParticipantIfAllowed dbError participant maxParticipants
      maxRewards s = .ok (id, s')) :
    dbError = false ∧ id = s.participants.next ∧
      (0 < maxParticipants → participantsOf participant.campaignId s < maxParticipants) ∧
      (0 < maxRewards → participantsOfUser participant.campaignId participant.userId s < maxRewards) ∧
      s' = { s with participants := s.participants.insert participant } := by
  unfold createCampaignParticipantIfAllowed at h
  split_ifs at h with hdb hmissing hfull hlimit
  cases h
  refine ⟨by simpa using hdb, rfl, fun hpos => ?_, fun hpos => ?_, rfl⟩
  · by_contra hle
    exact hfull ⟨hpos, not_lt.mp hle⟩
  · by_contra hle
    exact hlimit ⟨hpos, not_lt.mp hle⟩

variable {c : Nat} {campaign : Campaign} {rest : List (Nat × Campaign)}

/-- With the invitee of the campaign as inviter, a working database and a recipient, the dispatch credits a code or
finds the pool empty. -/
theorem dispatchInvitationReward_effect {userId inviterId : Nat} {config : CampaignConfig} (hinviter : inviterId ≠ 0)
    (hinvitee : config.inviteeUserId = inviterId)
    (hrecipient : (∃ i r, s.redemptions.get? i = some r ∧ r.available now c config.inviteeUserId = true) →
      ∃ user, s.users.get? userId = some user) :
    dispatchInvitationReward false now c userId inviterId config s = (.poolEmpty, s) ∨
      ∃ redemptionId s', dispatchInvitationReward false now c userId inviterId config s = (.done, s') ∧
        s'.participants = s.participants ∧ s'.dispatches = ⟨c, redemptionId, userId⟩ :: s.dispatches ∧
        s'.campaigns = s.campaigns := by
  unfold dispatchInvitationReward
  rw [if_neg (by rw [hinvitee]; exact hinviter), if_neg (not_not.mpr hinvitee), if_neg Bool.false_ne_true]
  cases hdispatch : dispatchRedemptionToUser now c config.inviteeUserId userId s.toStore with
  | error =>
    exfalso
    unfold dispatchRedemptionToUser at hdispatch
    split at hdispatch
    · cases hdispatch
    · rename_i id redemption hfound
      obtain ⟨hget, havailable⟩ := Table.find?_some hfound
      have henabled : redemption.status = .enabled := by
        simp only [Redemption.available, decide_eq_true_eq] at havailable
        exact havailable.2.2.1
      obtain ⟨_, huser⟩ := hrecipient ⟨id, redemption, hget, havailable⟩
      simp only [Store.claimCode, hget, henabled, if_true, huser] at hdispatch
      cases hdispatch
  | ok r =>
    obtain ⟨drawn, _⟩ := r
    cases drawn with
    | none => exact .inl rfl
    | some code => exact .inr ⟨code.1, _, rfl, rfl, rfl, rfl⟩

theorem Handler.HasRow.config {i : Nat} (hrow : h.HasRow s i) (hcampaigns : h.campaigns = (c, campaign) :: rest) :
    ∃ config, campaign.config = some config ∧ config.inviteeUserId = h.inviterId ∧
      s.participants.get? i = some ⟨c, h.userId, h.inviterId⟩ := by
  obtain ⟨_, _, _, config, hcampaigns', hconfig, hinvitee, hget⟩ := hrow
  rw [hcampaigns] at hcampaigns'
  obtain ⟨hfirst, -⟩ := cons.inj hcampaigns'
  obtain ⟨rfl, rfl⟩ := Prod.mk.inj hfirst
  exact ⟨config, hconfig, hinvitee, hget⟩

theorem Handler.processCampaignForUser_effect (hinv : SlotsRewarded s) (hmem : h ∈ s.handlers)
    (hcampaigns : h.campaigns = (c, campaign) :: rest) (hkeeps : h.KeepsNoSlot s now dbError) :
    SlotEffect s h (h.processCampaignForUser dbError now c campaign rest s).1
        [(h.processCampaignForUser dbError now c campaign rest s).2] ∧
      (h.processCampaignForUser dbError now c campaign rest s).1.campaigns = s.campaigns := by
  obtain ⟨hinviter, hcopies⟩ := hinv.copies h hmem
  have htype : campaign.type = .invitation :=
    (hcopies (c, campaign) (by rw [hcampaigns]; exact mem_cons_self)).2
  cases hconfig : campaign.config with
  | none =>
    have hslot : h.slot = none := by
      cases hslot : h.slot with
      | none => rfl
      | some i =>
        obtain ⟨config, hsome, -⟩ := (hinv.rows h hmem i hslot).config hcampaigns
        rw [hconfig] at hsome
        cases hsome
    unfold processCampaignForUser
    rw [hconfig]
    exact ⟨.passed hslot rfl rfl (.inr ⟨_, rest, hcampaigns, rfl⟩), rfl⟩
  | some config =>
    have hstep := hkeeps c campaign rest config hcampaigns hconfig
    cases hstage : h.stage with
    | admission =>
      have hslot : h.slot = none := by rw [Handler.slot, hstage]
      simp only [processCampaignForUser, hconfig, hstage]
      rw [hstage] at hstep
      split
      · exact ⟨.passed hslot rfl rfl (.inr ⟨_, rest, hcampaigns, rfl⟩), rfl⟩
      · rename_i participantId s1 hadmission
        obtain ⟨hdb, rfl, hmax, hmaxUser, rfl⟩ := createCampaignParticipantIfAllowed_ok hadmission
        rw [if_pos htype]
        exact ⟨.admitted hslot hcampaigns hconfig ⟨hmax, hmaxUser⟩ (hstep hdb ⟨hmax, hmaxUser⟩) rfl rfl rfl, rfl⟩
    | dispatch i =>
      have hslot : h.slot = some i := by rw [Handler.slot, hstage]
      obtain ⟨config', hconfig', hinvitee, -⟩ := (hinv.rows h hmem i hslot).config hcampaigns
      obtain rfl : config = config' := mem_unique hconfig hconfig'
      rw [hstage] at hstep
      obtain ⟨rfl, hrecipient⟩ := hstep
      simp only [processCampaignForUser, hconfig, hstage]
      rcases dispatchInvitationReward_effect hinviter hinvitee hrecipient with
        hempty | ⟨redemptionId, s1, hdone, hrows, hcodes, hsame⟩
      · rw [hempty]
        exact ⟨.waiting hslot rfl rfl rfl, rfl⟩
      · rw [hdone]
        exact ⟨.rewarded hslot hcampaigns hrows hcodes rfl, hsame⟩
    | release i =>
      have hslot : h.slot = some i := by rw [Handler.slot, hstage]
      obtain ⟨-, -, -, hget⟩ := (hinv.rows h hmem i hslot).config hcampaigns
      rw [hstage] at hstep
      obtain rfl : dbError = false := hstep
      have hdelete : deleteCampaignParticipantById false i s =
          .ok ((), { s with participants := s.participants.delete i }) := by
        rw [deleteCampaignParticipantById, if_neg (pos_of_get? hget).ne', if_neg Bool.false_ne_true]
      simp only [processCampaignForUser, hconfig, hstage, commit_ok hdelete]
      exact ⟨.released hslot hcampaigns rfl rfl rfl, trivial⟩

theorem Handler.step_effect (hinv : SlotsRewarded s) (hmem : h ∈ s.handlers) (hkeeps : h.KeepsNoSlot s now dbError) :
    SlotEffect s h (h.step dbError now s).1 (h.step dbError now s).2 ∧
    (h.step dbError now s).1.campaigns = s.campaigns := by
  cases hcampaigns : h.campaigns with
  | nil =>
    have hslot : h.slot = none := by
      cases hslot : h.slot with
      | none => rfl
      | some i =>
        obtain ⟨c, campaign, rest, _, hcons, -⟩ := hinv.rows h hmem i hslot
        rw [hcampaigns] at hcons
        cases hcons
    unfold Handler.step
    rw [hcampaigns]
    exact ⟨.passed hslot rfl rfl (.inl rfl), rfl⟩
  | cons x =>
    obtain ⟨c, _⟩ := x
    unfold Handler.step
    rw [hcampaigns]
    exact Handler.processCampaignForUser_effect hinv hmem hcampaigns hkeeps

/-! ## The invariant is kept -/

section Holding

variable {c c' i j : Nat} {p : Nat → Bool} {campaign : Campaign} {rest : List (Nat × Campaign)} {h' : Handler}

@[simp] theorem slot_next : (h.next rest).slot = none := rfl

theorem holds_of_slot_none (hslot : h.slot = none) : h.holds c p = false := by simp [Handler.holds, hslot]

theorem holds_of_slot (hslot : h.slot = some i) (hcampaigns : h.campaigns = (c', campaign) :: rest) :
    h.holds c p = isFor c p c' h.userId := by
  simp [Handler.holds, hslot, hcampaigns]

@[simp] theorem holds_next : (h.next rest).holds c p = false := holds_of_slot_none rfl

theorem SlotEffect.left_of_mem (heffect : SlotEffect s h s' left) (hmem : h' ∈ left) :
    h'.inviterId = h.inviterId ∧ ∀ x ∈ h'.campaigns, x ∈ h.campaigns := by
  have hnext : ∀ {x : Nat × Campaign} {rest}, h.campaigns = x :: rest → h' ∈ [h.next rest] →
      h'.inviterId = h.inviterId ∧ ∀ x ∈ h'.campaigns, x ∈ h.campaigns := by
    intro x rest hcampaigns hmem
    obtain rfl := mem_singleton.mp hmem
    exact ⟨rfl, fun y hy => by rw [hcampaigns]; exact mem_cons_of_mem x hy⟩
  cases heffect with
  | passed _ _ _ hleft =>
    rcases hleft with rfl | ⟨x, _, hcampaigns, rfl⟩
    · cases hmem
    · exact hnext hcampaigns hmem
  | admitted _ _ _ _ _ _ _ hleft | waiting _ _ _ hleft =>
    subst hleft
    obtain rfl := mem_singleton.mp hmem
    exact ⟨rfl, fun _ hx => hx⟩
  | rewarded _ hcampaigns _ _ hleft | released _ hcampaigns _ _ hleft =>
    subst hleft
    exact hnext hcampaigns hmem

theorem SlotsRewarded.counted_step (hinv : SlotsRewarded s) (hget : s.handlers[i]? = some h)
    (heffect : SlotEffect s h s' left) (c : Nat) (p : Nat → Bool) :
    rowsFor c p s' = dispatchesFor c p s' + (s.handlers.eraseIdx i ++ left).countP (Handler.holds c p) := by
  have hcounted := hinv.counted c p
  rw [Pool.countP_get (Handler.holds c p) hget] at hcounted
  rw [countP_append]
  unfold rowsFor dispatchesFor at hcounted ⊢
  cases heffect with
  | passed hslot hrows hcodes hleft =>
    have hnone : left.countP (Handler.holds c p) = 0 := by
      rcases hleft with rfl | ⟨x, rest, -, rfl⟩
      · rfl
      · simp
    rw [holds_of_slot_none hslot] at hcounted
    rw [hrows, hcodes, hcounted, hnone]
    rfl
  | @admitted c' _ _ _ hslot hcampaigns _ _ _ hrows hcodes hleft =>
    subst hleft
    have hholds : Handler.holds c p { h with stage := .dispatch s.participants.next } = isFor c p c' h.userId :=
      holds_of_slot rfl hcampaigns
    rw [holds_of_slot_none hslot] at hcounted
    rw [hrows, hcodes, count_insert, hcounted, countP_singleton, hholds]
    simp only [Bool.false_eq_true, if_false]
    omega
  | @waiting i hslot hrows hcodes hleft =>
    subst hleft
    have hholds : Handler.holds c p { h with stage := .release i } = h.holds c p := by
      unfold Handler.holds
      rw [hslot]
      rfl
    rw [hrows, hcodes, hcounted, countP_singleton, hholds]
  | rewarded hslot hcampaigns hrows hcodes hleft =>
    subst hleft
    rw [holds_of_slot hslot hcampaigns] at hcounted
    rw [hrows, hcodes, hcounted, countP_cons, countP_singleton, holds_next]
    simp only [Bool.false_eq_true, if_false]
    omega
  | released hslot hcampaigns hrows hcodes hleft =>
    subst hleft
    obtain ⟨config, -, -, hrow⟩ := (hinv.rows h (mem_of_getElem? hget) _ hslot).config hcampaigns
    rw [holds_of_slot hslot hcampaigns, count_delete _ _ hrow] at hcounted
    rw [hrows, hcodes, countP_singleton, holds_next]
    simp only [Bool.false_eq_true, if_false] at hcounted ⊢
    omega

theorem SlotsRewarded.slot_ne (hinv : SlotsRewarded s) (hget : s.handlers[i]? = some h) (hslot : h.slot = some j)
    (hmem : h' ∈ s.handlers.eraseIdx i) : h'.slot ≠ some j := by
  intro hslot'
  have hunique := hinv.unique j
  rw [Pool.countP_get _ hget, if_pos (by simpa using hslot)] at hunique
  have hpos : 0 < (s.handlers.eraseIdx i).countP fun h => h.slot = some j :=
    countP_pos_iff.mpr ⟨h', hmem, by simpa using hslot'⟩
  omega

theorem Handler.HasRow.congr {t : Campaigns} (hrow : h.HasRow s j)
    (hkept : ∀ r, s.participants.get? j = some r → t.participants.get? j = some r) : h.HasRow t j := by
  obtain ⟨c, campaign, rest, config, hcampaigns, hconfig, hinvitee, hget⟩ := hrow
  exact ⟨c, campaign, rest, config, hcampaigns, hconfig, hinvitee, hkept _ hget⟩

theorem SlotsRewarded.rows_other (hinv : SlotsRewarded s) (hget : s.handlers[i]? = some h)
    (heffect : SlotEffect s h s' left) (hmem : h' ∈ s.handlers.eraseIdx i) (hslot' : h'.slot = some j) :
    h'.HasRow s' j := by
  refine (hinv.rows h' (mem_of_mem_eraseIdx hmem) j hslot').congr fun r hr => ?_
  cases heffect with
  | passed _ hrows => rw [hrows, hr]
  | admitted _ _ _ _ _ hrows => rw [hrows, Table.get?_insert_of_get? hr]
  | waiting _ hrows | rewarded _ _ hrows => rw [hrows, hr]
  | released hslot _ hrows =>
    rw [hrows, Table.get?_delete, if_neg, hr]
    rintro rfl
    exact hinv.slot_ne hget hslot hmem hslot'

theorem SlotsRewarded.rows_step (hinv : SlotsRewarded s) (hget : s.handlers[i]? = some h)
    (heffect : SlotEffect s h s' left) :
    ∀ h' ∈ s.handlers.eraseIdx i ++ left, ∀ j, h'.slot = some j → h'.HasRow s' j := by
  intro h' hmem j hslot'
  rcases mem_append.mp hmem with hmem | hmem
  · exact hinv.rows_other hget heffect hmem hslot'
  · cases heffect with
    | passed _ _ _ hleft =>
      rcases hleft with rfl | ⟨x, rest, -, rfl⟩
      · cases hmem
      · obtain rfl := mem_singleton.mp hmem
        cases hslot'
    | @admitted c campaign rest config _ hcampaigns hconfig _ hinvitee hrows _ hleft =>
      subst hleft
      obtain rfl := mem_singleton.mp hmem
      obtain rfl : s.participants.next = j := Option.some.inj hslot'
      exact ⟨c, campaign, rest, config, hcampaigns, hconfig, hinvitee, by rw [hrows, Table.get?_insert_self]⟩
    | waiting hslot hrows _ hleft =>
      subst hleft
      obtain rfl := mem_singleton.mp hmem
      obtain ⟨c, campaign, rest, config, hcampaigns, hconfig, hinvitee, hrow⟩ :=
        hinv.rows h (mem_of_getElem? hget) _ hslot
      obtain rfl := Option.some.inj hslot'
      exact ⟨c, campaign, rest, config, hcampaigns, hconfig, hinvitee, by rw [hrows, hrow]⟩
    | rewarded _ _ _ _ hleft | released _ _ _ _ hleft =>
      subst hleft
      obtain rfl := mem_singleton.mp hmem
      cases hslot'

theorem SlotsRewarded.unique_step (hinv : SlotsRewarded s) (hget : s.handlers[i]? = some h)
    (heffect : SlotEffect s h s' left) (j : Nat) :
    (s.handlers.eraseIdx i ++ left).countP (fun h => h.slot = some j) ≤ 1 := by
  have hunique := hinv.unique j
  rw [Pool.countP_get _ hget] at hunique
  rw [countP_append]
  cases heffect with
  | passed _ _ _ hleft =>
    rcases hleft with rfl | ⟨x, rest, -, rfl⟩
    · rw [countP_nil]
      omega
    · rw [countP_singleton]
      simp only [slot_next, reduceCtorEq, decide_false, if_false]
      omega
  | admitted _ _ _ _ _ _ _ hleft =>
    subst hleft
    rw [countP_singleton]
    by_cases hj : s.participants.next = j
    · subst hj
      -- no row has the id yet, so no goroutine holds it
      have hnone : (s.handlers.eraseIdx i).countP (fun h => h.slot = some s.participants.next) = 0 := by
        refine countP_eq_zero.mpr fun h' hmem hslot => ?_
        obtain ⟨c, campaign, rest, config, -, -, -, hrow⟩ :=
          hinv.rows h' (mem_of_mem_eraseIdx hmem) _ (by simpa using hslot)
        exact absurd (lt_next_of_get? hrow) (lt_irrefl _)
      split_ifs <;> omega
    · rw [if_neg (by simpa [Handler.slot] using hj)]
      omega
  | waiting hslot _ _ hleft =>
    subst hleft
    rw [countP_singleton]
    rw [hslot] at hunique
    exact hunique
  | rewarded _ _ _ _ hleft | released _ _ _ _ hleft =>
    subst hleft
    rw [countP_singleton]
    simp only [slot_next, reduceCtorEq, decide_false, if_false]
    omega

theorem SlotEffect.participants_cases (heffect : SlotEffect s h s' left) :
    s'.participants = s.participants ∨ (∃ j, s'.participants = s.participants.delete j) ∨
      ∃ c campaign rest config, h.campaigns = (c, campaign) :: rest ∧ campaign.config = some config ∧
        s.HasRoom c h.userId config ∧ config.inviteeUserId = h.inviterId ∧
        s'.participants = s.participants.insert ⟨c, h.userId, h.inviterId⟩ := by
  cases heffect with
  | passed _ hrows | waiting _ hrows | rewarded _ _ hrows => exact .inl hrows
  | @released i _ _ _ _ _ hrows => exact .inr (.inl ⟨i, hrows⟩)
  | admitted _ hcampaigns hconfig hroom hinvitee hrows =>
    exact .inr (.inr ⟨_, _, _, _, hcampaigns, hconfig, hroom, hinvitee, hrows⟩)

theorem SlotsRewarded.invited_step (hinv : SlotsRewarded s) (hget : s.handlers[i]? = some h)
    (heffect : SlotEffect s h s' left) (hcampaigns : s'.campaigns = s.campaigns) :
    ∀ j r, s'.participants.get? j = some r → ∃ campaign config,
      s'.campaigns.get? r.campaignId = some campaign ∧ campaign.config = some config ∧
        config.inviteeUserId = r.inviterId ∧ r.inviterId ≠ 0 := by
  intro j r hr
  rw [hcampaigns]
  rcases heffect.participants_cases with hrows | ⟨_, hrows⟩ |
    ⟨c, campaign, rest, config, hfirst, hconfig, -, hinvitee, hrows⟩
  · exact hinv.invited j r (hrows ▸ hr)
  · rw [hrows, Table.get?_delete] at hr
    split_ifs at hr
    exact hinv.invited j r hr
  · rw [hrows, Table.get?_insert] at hr
    split_ifs at hr
    · cases hr
      obtain ⟨hinviter, hcopies⟩ := hinv.copies h (mem_of_getElem? hget)
      have hcopy := hcopies (c, campaign) (by rw [hfirst]; exact mem_cons_self)
      exact ⟨campaign, config, hcopy.1, hconfig, hinvitee, hinviter⟩
    · exact hinv.invited j r hr

theorem SlotsRewarded.limits_step (hinv : SlotsRewarded s) (hget : s.handlers[i]? = some h)
    (heffect : SlotEffect s h s' left) (hcampaigns : s'.campaigns = s.campaigns) :
    ∀ c campaign config, s'.campaigns.get? c = some campaign → campaign.config = some config →
      (0 < config.maxParticipants → participantsOf c s' ≤ config.maxParticipants) ∧
        ∀ u, 0 < config.maxRewardsPerUser → participantsOfUser c u s' ≤ config.maxRewardsPerUser := by
  intro c campaign config hcampaign hconfig
  rw [hcampaigns] at hcampaign
  obtain ⟨hmax, hmaxUser⟩ := hinv.limits c campaign config hcampaign hconfig
  unfold participantsOf participantsOfUser at *
  rcases heffect.participants_cases with hrows | ⟨j, hrows⟩ |
    ⟨c', campaign', rest, config', hfirst, hconfig', ⟨hroom, hroomUser⟩, -, hrows⟩
  · rw [hrows]
    exact ⟨hmax, hmaxUser⟩
  · rw [hrows]
    constructor
    · intro hpos
      have hle := s.participants.count_delete_le j fun r => r.campaignId = c
      have hold := hmax hpos
      omega
    · intro u hpos
      have hle := s.participants.count_delete_le j fun r => r.campaignId = c ∧ r.userId = u
      have hold := hmaxUser u hpos
      omega
  · -- the row goes to the campaign that was asked whether it has room
    have hsame : c' = c → config' = config := by
      rintro rfl
      have hcopy := (hinv.copies h (mem_of_getElem? hget)).2 (c', campaign') (by rw [hfirst]; exact mem_cons_self)
      obtain rfl : campaign' = campaign := mem_unique hcopy.1 hcampaign
      exact mem_unique hconfig' hconfig
    rw [hrows]
    simp only [count_insert, decide_eq_true_eq]
    constructor
    · intro hpos
      have hold := hmax hpos
      split_ifs with hc
      · have hlt := hroom (by rw [hsame hc]; exact hpos)
        unfold participantsOf at hlt
        rw [hsame hc, hc] at hlt
        omega
      · omega
    · intro u hpos
      have hold := hmaxUser u hpos
      split_ifs with hc
      · obtain ⟨hc, hu⟩ := hc
        have hlt := hroomUser (by rw [hsame hc]; exact hpos)
        unfold participantsOfUser at hlt
        rw [hsame hc, hc, hu] at hlt
        omega
      · omega

theorem SlotsRewarded.handler_step (hinv : SlotsRewarded s) (hget : s.handlers[i]? = some h)
    (heffect : SlotEffect s h s' left) (hcampaigns : s'.campaigns = s.campaigns) :
    SlotsRewarded { s' with handlers := s.handlers.eraseIdx i ++ left } where
  counted c p := by
    have hcounted := hinv.counted_step hget heffect c p
    exact hcounted
  rows h' hmem j hslot := (hinv.rows_step hget heffect h' hmem j hslot).congr fun _ hr => hr
  unique := hinv.unique_step hget heffect
  copies h' hmem := by
    show h'.inviterId ≠ 0 ∧ ∀ x ∈ h'.campaigns, s'.campaigns.get? x.1 = some x.2 ∧ x.2.type = .invitation
    rw [hcampaigns]
    rcases mem_append.mp hmem with hmem | hmem
    · exact hinv.copies h' (mem_of_mem_eraseIdx hmem)
    · obtain ⟨hinviter, hsub⟩ := heffect.left_of_mem hmem
      obtain ⟨hne, hcopies⟩ := hinv.copies h (mem_of_getElem? hget)
      exact ⟨hinviter ▸ hne, fun x hx => hcopies x (hsub x hx)⟩
  invited := by
    have hinvited := hinv.invited_step hget heffect hcampaigns
    exact hinvited
  limits := by
    have hlimits := hinv.limits_step hget heffect hcampaigns
    exact hlimits

end Holding

/-! ## Registrations and top-ups -/

theorem SlotsRewarded.register (hinv : SlotsRewarded s) (now : Int) (userId inviterId : Nat) :
    SlotsRewarded (onInvitationRegister now userId inviterId s) := by
  unfold onInvitationRegister
  split_ifs with hzero
  · exact hinv
  · refine ⟨fun c p => ?_, fun h hmem i hslot => ?_, fun i => ?_, fun h hmem => ?_, hinv.invited, hinv.limits⟩
    · show rowsFor c p s = dispatchesFor c p s + _
      rw [hinv.counted c p, countP_append, countP_singleton, holds_of_slot_none rfl]
      rfl
    · rcases mem_append.mp hmem with hmem | hmem
      · exact (hinv.rows h hmem i hslot).congr fun _ hr => hr
      · obtain rfl := mem_singleton.mp hmem
        cases hslot
    · show List.countP _ (s.handlers ++ _) ≤ 1
      rw [countP_append, countP_singleton, if_neg (by simp [Handler.slot])]
      exact hinv.unique i
    · rcases mem_append.mp hmem with hmem | hmem
      · exact hinv.copies h hmem
      · obtain rfl := mem_singleton.mp hmem
        refine ⟨fun hinviter => hzero (.inr hinviter), fun x hx => ?_⟩
        obtain ⟨hget, hactive⟩ := mem_select_iff.mp hx
        simp only [Campaign.activeAt, decide_eq_true_eq] at hactive
        exact ⟨hget, hactive.1⟩

theorem SlotsRewarded.of_store (hinv : SlotsRewarded s) (store : Store) :
    SlotsRewarded { s with toStore := store } where
  counted := hinv.counted
  rows h hmem i hslot := (hinv.rows h hmem i hslot).congr fun _ hr => hr
  unique := hinv.unique
  copies := hinv.copies
  invited := hinv.invited
  limits := hinv.limits

theorem insertRedemption_ok {redemption : Redemption} {r : Unit} (h : insertRedemption redemption s = .ok (r, s')) :
    s' = { s with redemptions := s.redemptions.insert redemption } := by
  unfold insertRedemption at h
  split_ifs at h
  cases h
  rfl

theorem SlotsRewarded.insertCodes (code : String → Redemption) (keys : List String) (hinv : SlotsRewarded s) :
    SlotsRewarded (Payment.insertCodes code keys s) := by
  induction keys generalizing s with
  | nil => exact hinv
  | cons _ _ ih =>
    refine ih (commit_invariant hinv fun r s' h => ?_)
    rw [insertRedemption_ok h]
    exact hinv.of_store _

theorem SlotsRewarded.generate {campaignId : Nat} {keys : Nat → String} (hinv : SlotsRewarded s) :
    SlotsRewarded (commit (generateInvitationCodes now campaignId keys) s) := by
  refine commit_invariant hinv fun r s' h => ?_
  simp only [generateInvitationCodes] at h
  split at h
  · cases h
  · split at h
    · cases h
    · split_ifs at h
      · cases h
        exact hinv
      · cases h
        exact hinv.insertCodes _ _

theorem SlotsRewarded.step {e : CampaignEvent} (hinv : SlotsRewarded s) (hkeeps : e.KeepsNoSlot s) :
    SlotsRewarded (s.step e) := by
  cases e with
  | onInvitationRegister now userId inviterId => exact hinv.register now userId inviterId
  | step =>
    simp only [Campaigns.step]
    split
    · exact hinv
    · rename_i h hget
      obtain ⟨heffect, hcampaigns⟩ := Handler.step_effect hinv (mem_of_getElem? hget) (hkeeps h hget)
      exact hinv.handler_step hget heffect hcampaigns
  | generateInvitationCodes => exact hinv.generate

def Campaigns.Fresh (s : Campaigns) : Prop :=
  (∀ i, s.participants.get? i = none) ∧ s.dispatches = [] ∧ s.handlers = []

theorem SlotsRewarded.of_fresh (hfresh : s.Fresh) : SlotsRewarded s := by
  obtain ⟨hrows, hcodes, hhandlers⟩ := hfresh
  have hempty : ∀ p, s.participants.count p = 0 :=
    fun p => count_eq_zero_iff.mpr fun i r hget => by rw [hrows i] at hget; cases hget
  refine ⟨fun c p => ?_, fun h hmem => ?_, fun i => ?_, fun h hmem => ?_, fun i r hget => ?_,
    fun c campaign config _ _ =>
    ⟨fun hpos => ?_, fun u hpos => ?_⟩⟩
  · rw [rowsFor, dispatchesFor, hempty, hcodes, hhandlers]
    rfl
  · rw [hhandlers] at hmem
    cases hmem
  · rw [hhandlers]
    exact Nat.zero_le 1
  · rw [hhandlers] at hmem
    cases hmem
  · rw [hrows i] at hget
    cases hget
  · rw [participantsOf, hempty]
    exact hpos.le
  · rw [participantsOfUser, hempty]
    exact hpos.le

/-! ## Runs -/

theorem SlotsRewarded.participantsOf_eq (hinv : SlotsRewarded s) (c : Nat) :
    participantsOf c s = dispatchesOf c s + s.handlers.countP (Handler.holds c fun _ => true) := by
  have hcounted := hinv.counted c fun _ => true
  simpa [rowsFor, dispatchesFor, isFor, participantsOf, dispatchesOf] using hcounted

theorem SlotsRewarded.participantsOfUser_eq (hinv : SlotsRewarded s) (c u : Nat) :
    participantsOfUser c u s = dispatchesOfUser c u s + s.handlers.countP (Handler.holds c fun v => v = u) := by
  have hcounted := hinv.counted c fun v => v = u
  simpa [rowsFor, dispatchesFor, isFor, participantsOfUser, dispatchesOfUser] using hcounted

theorem countP_holds_eq_zero {p : Nat → Bool} (h : ∀ h ∈ s.handlers, h.stage = .admission) :
    s.handlers.countP (Handler.holds c p) = 0 := by
  refine countP_eq_zero.mpr fun h' hmem hholds => ?_
  rw [holds_of_slot_none (by rw [Handler.slot, h h' hmem])] at hholds
  cases hholds

/-- **Slots are held by rewarded users.** Take a run of registrations, of the steps of their goroutines in any order
and of top-ups, in which only those whom the campaign's invitee has invited are admitted and no dispatch or release
fails. Once no dispatch is under way, a campaign has as many rows as codes were dispatched from it, and each row is
of a user whom its invitee has invited and who has got a code. The dispatched codes are within the limits of the
campaign at any time. -/
theorem slots_held_by_rewarded (s : Campaigns) (hfresh : s.Fresh) (events : List CampaignEvent)
    (hrun : Along Campaigns.step (fun s e => e.KeepsNoSlot s) s events) (c : Nat) (campaign : Campaign)
    (config : CampaignConfig) (hcampaign : (run Campaigns.step s events).campaigns.get? c = some campaign)
    (hconfig : campaign.config = some config) :
    ((∀ h ∈ (run Campaigns.step s events).handlers, h.stage = .admission) →
      participantsOf c (run Campaigns.step s events) = dispatchesOf c (run Campaigns.step s events) ∧
      ∀ i row, (run Campaigns.step s events).participants.get? i = some row → row.campaignId = c →
        row.inviterId = config.inviteeUserId ∧ 0 < dispatchesOfUser c row.userId (run Campaigns.step s events)) ∧
    (0 < config.maxParticipants → dispatchesOf c (run Campaigns.step s events) ≤ config.maxParticipants) ∧
    ∀ u, 0 < config.maxRewardsPerUser →
      dispatchesOfUser c u (run Campaigns.step s events) ≤ config.maxRewardsPerUser := by
  have hinv : SlotsRewarded (run Campaigns.step s events) :=
    run_invariant (fun s e hinv hkeeps => hinv.step hkeeps) (.of_fresh hfresh) hrun
  have hrows := hinv.participantsOf_eq c
  obtain ⟨hmax, hmaxUser⟩ := hinv.limits c campaign config hcampaign hconfig
  refine ⟨fun hidle => ⟨?_, fun i row hrow hc => ?_⟩, fun hpos => ?_, fun u hpos => ?_⟩
  · rw [hrows, countP_holds_eq_zero hidle, Nat.add_zero]
  · constructor
    · obtain ⟨campaign', config', hcampaign', hconfig', hinvitee, -⟩ := hinv.invited i row hrow
      rw [hc] at hcampaign'
      obtain rfl : campaign = campaign' := mem_unique hcampaign hcampaign'
      obtain rfl : config = config' := mem_unique hconfig hconfig'
      exact hinvitee.symm
    · have hrowsUser := hinv.participantsOfUser_eq c row.userId
      rw [countP_holds_eq_zero hidle, Nat.add_zero] at hrowsUser
      have hpos : 0 < participantsOfUser c row.userId (run Campaigns.step s events) := by
        have hdelete := count_delete (run Campaigns.step s events).participants
          (fun p => p.campaignId = c ∧ p.userId = row.userId) hrow
        rw [if_pos (by simp [hc])] at hdelete
        unfold participantsOfUser
        omega
      omega
  · have hle := hmax hpos
    omega
  · have hle := hmaxUser u hpos
    have hrowsUser := hinv.participantsOfUser_eq c u
    omega

/-! The campaign of invitee `7` with one code for one participant. -/

def sampleConfig : CampaignConfig := { quota := 5, maxParticipants := 1, maxRewardsPerUser := 1, inviteeUserId := 7 }

def sampleCampaign : Campaign := { type := .invitation, status := .active, config := some sampleConfig }

def sampleEngine : Campaigns :=
  { users := Table.empty.insert {}
    redemptions := Table.empty.insert { key := "K1", quota := 5, ownerAdminId := 7, campaignId := 1 }
    campaigns := Table.empty.insert sampleCampaign }

def registration (inviterId : Nat) : List CampaignEvent :=
  [.onInvitationRegister 10 1 inviterId, .step 0 10 false, .step 0 10 false, .step 0 10 false]

/-- Invited by somebody else, the user takes the only slot and gets no code. -/
theorem slot_held_without_reward :
    let s := run Campaigns.step sampleEngine (registration 8)
    s.handlers = [] ∧ participantsOf 1 s = 1 ∧ dispatchesOf 1 s = 0 ∧
      (s.participants.get? 1).map CampaignParticipant.inviterId = some 8 := by
  decide +kernel

def sampleHandler (stage : Stage) : Handler :=
  { userId := 1, inviterId := 7, campaigns := [(1, sampleCampaign)], stage := stage }

theorem sampleHandler_campaigns {stage : Stage} {config : CampaignConfig}
    (hcampaigns : (sampleHandler stage).campaigns = (c, campaign) :: rest) (hconfig : campaign.config = some config) :
    config = sampleConfig := by
  obtain ⟨hfirst, -⟩ := cons.inj hcampaigns
  obtain ⟨-, rfl⟩ := Prod.mk.inj hfirst
  exact (Option.some.inj hconfig).symm

theorem registration_keepsNoSlot : Along Campaigns.step (fun s e => e.KeepsNoSlot s) sampleEngine (registration 7) := by
  have hadmission : (run Campaigns.step sampleEngine ((registration 7).take 1)).handlers[0]? =
      some (sampleHandler .admission) := by decide +kernel
  have hdispatch : (run Campaigns.step sampleEngine ((registration 7).take 2)).handlers[0]? =
      some (sampleHandler (.dispatch 1)) := by decide +kernel
  have hended : (run Campaigns.step sampleEngine ((registration 7).take 3)).handlers[0]?.map Handler.campaigns =
      some [] := by decide +kernel
  refine ⟨trivial, fun h hget => ?_, fun h hget => ?_, fun h hget => ?_, trivial⟩
  · obtain rfl := mem_unique hadmission hget
    intro c campaign rest config hcampaigns hconfig _ _
    rw [sampleHandler_campaigns hcampaigns hconfig]
    rfl
  · obtain rfl := mem_unique hdispatch hget
    intro c campaign rest config hcampaigns hconfig
    exact ⟨rfl, fun _ => ⟨{}, by decide +kernel⟩⟩
  · intro c campaign rest config hcampaigns
    have hget' : (run Campaigns.step sampleEngine ((registration 7).take 3)).handlers[0]? = some h := hget
    rw [hget', map_some, hcampaigns] at hended
    cases hended

/-- Invited by the invitee of the campaign, the user has the slot and the code. -/
theorem slots_held_by_rewarded_registration : dispatchesOf 1 (run Campaigns.step sampleEngine (registration 7)) = 1 ∧
      participantsOf 1 (run Campaigns.step sampleEngine (registration 7)) =
        dispatchesOf 1 (run Campaigns.step sampleEngine (registration 7)) := by
  have hfresh : sampleEngine.Fresh := ⟨fun _ => rfl, rfl, rfl⟩
  have hidle : ∀ h ∈ (run Campaigns.step sampleEngine (registration 7)).handlers, h.stage = .admission := by
    decide +kernel
  exact ⟨by decide +kernel, ((slots_held_by_rewarded sampleEngine hfresh (registration 7) registration_keepsNoSlot 1
    sampleCampaign sampleConfig (by decide +kernel) rfl).1 hidle).1⟩

end CubeRouter.Payment
