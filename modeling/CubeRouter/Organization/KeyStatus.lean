import CubeRouter.Organization.Status

/-!
# The status of a key under its blockers

Every blocker carries the status that the key had before the first of the blockers that are now active, and so does the
key itself. `Holds base` says that all of these are `base`; it is what an operation keeps while it writes blockers.
`Settled base` adds what reconciling gives: a blocked key is disabled and remembers `base`, and a key without blockers
has the status `base` and remembers nothing.

`Follows` is what an operation does to a key, and `follows_…` says it of each operation on blockers. Enabling a key by
hand is the exception: of a key that is not blocked it writes the status itself.
-/

namespace CubeRouter.Organization

open Relational Transition List

/-! ## Active blockers -/

theorem filter_active_deactivate (q : Blocker → Bool) (l : List Blocker) :
    (l.map fun b => if q b then { b with active := false } else b).filter Blocker.active =
      (l.filter Blocker.active).filter fun b => !q b := by
  induction l with
  | nil => rfl
  | cons b l ih =>
    rw [map_cons]
    by_cases hq : q b = true
    · rw [if_pos hq, filter_cons_of_neg (by simp), ih]
      by_cases hactive : b.active = true
      · rw [filter_cons_of_pos hactive, filter_cons_of_neg (by simp [hq])]
      · rw [filter_cons_of_neg hactive]
    · rw [if_neg hq]
      by_cases hactive : b.active = true
      · rw [filter_cons_of_pos hactive, filter_cons_of_pos hactive, filter_cons_of_pos (by simp [hq]), ih]
      · rw [filter_cons_of_neg hactive, filter_cons_of_neg hactive, ih]

theorem activeBlockers_clearBlockers (p : Blocker → Bool) (t : Token) :
    (t.clearBlockers p).activeBlockers = t.activeBlockers.filter fun b => !p b :=
  filter_active_deactivate p t.blockers

theorem activeBlockers_clearStale (env : Sources) (t : Token) : (t.clearStale env).activeBlockers =
      t.activeBlockers.filter fun b => organizationTokenBlockerSourceStillActive env t b.toBlockerKey := by
  have hfilter := filter_active_deactivate
    (fun b => b.active ∧ ¬organizationTokenBlockerSourceStillActive env t b.toBlockerKey) t.blockers
  simp only [decide_eq_true_eq] at hfilter
  rw [Token.activeBlockers, Token.clearStale, hfilter]
  refine filter_congr fun b hb => ?_
  have hactive : b.active = true := (mem_filter.mp hb).2
  simp [hactive]

variable {key : BlockerKey} {t t' : Token} {base : TokenStatus} {tokens : Table Token}
  {operatorUserId clearanceLevel i : Nat} {now : Int} {b : Blocker} {p : Token → Bool} {g : Token → Token} {s : State}
  {caller : Caller} {req : OrganizationTokenRequest}

theorem mem_activeBlockers_ensure
    (hb : b ∈ (ensureOrganizationTokenSystemBlocker key operatorUserId clearanceLevel now t).activeBlockers) :
    (∃ b0 ∈ t.activeBlockers, b.toBlockerKey = b0.toBlockerKey ∧ b.previousStatus = b0.previousStatus) ∨
      (b.toBlockerKey = key ∧ b.previousStatus = some (organizationTokenPreviousStatusForNewBlocker t)) := by
  obtain ⟨hmem, hactive⟩ := mem_filter.mp hb
  simp only [ensureOrganizationTokenSystemBlocker] at hmem
  split_ifs at hmem
  · obtain ⟨n, hn⟩ := mem_iff_getElem?.mp hmem
    rw [getElem?_modify] at hn
    obtain ⟨b0, hget, rfl⟩ := Option.map_eq_some_iff.mp hn
    have hb0 : b0 ∈ t.blockers := mem_of_getElem? hget
    split_ifs at hactive ⊢
    · exact .inl ⟨b0, mem_filter.mpr ⟨hb0, hactive⟩, rfl, rfl⟩
    · exact .inl ⟨b0, mem_filter.mpr ⟨hb0, hactive⟩, rfl, rfl⟩
    · exact .inl ⟨b0, mem_filter.mpr ⟨hb0, hactive⟩, rfl, rfl⟩
  · rcases mem_append.mp hmem with hmem | hmem
    · exact .inl ⟨b, mem_filter.mpr ⟨hmem, hactive⟩, rfl, rfl⟩
    · rw [mem_singleton.mp hmem]
      exact .inr ⟨rfl, rfl⟩

/-! ## Holding and settled -/

/-- The status the key has, or had before it was blocked. -/
def Token.underlying (t : Token) : TokenStatus := t.previousStatus.getD t.status

structure Token.Holds (base : TokenStatus) (t : Token) : Prop where
  carried : ∀ b ∈ t.activeBlockers, b.previousStatus = some base
  own : ∀ b ∈ t.activeBlockers, b.organizationId = t.organizationId
  underlying : t.underlying = base

structure Token.Settled (base : TokenStatus) (t : Token) : Prop extends t.Holds base where
  blocked : t.activeBlockers ≠ [] → t.status = .disabled ∧ t.previousStatus = some base
  free : t.activeBlockers = [] → t.previousStatus = none

theorem Token.Settled.status (h : t.Settled base) (hfree : t.activeBlockers = []) : t.status = base := by
  have hunderlying := h.underlying
  rw [Token.underlying, h.free hfree] at hunderlying
  exact hunderlying

theorem Token.Holds.of_eq (h : t.Holds base) (hblockers : ∀ b ∈ t'.activeBlockers, b ∈ t.activeBlockers)
    (horganization : t'.organizationId = t.organizationId) (hunderlying : t'.underlying = t.underlying) :
    t'.Holds base where
  carried b hb := h.carried b (hblockers b hb)
  own b hb := (h.own b (hblockers b hb)).trans horganization.symm
  underlying := hunderlying.trans h.underlying

theorem Token.Holds.clearBlockers (h : t.Holds base) (p : Blocker → Bool) : (t.clearBlockers p).Holds base := by
  refine h.of_eq (fun b hb => ?_) rfl rfl
  rw [activeBlockers_clearBlockers] at hb
  exact (mem_filter.mp hb).1

theorem Token.Holds.clearStale (h : t.Holds base) (env : Sources) : (t.clearStale env).Holds base := by
  refine h.of_eq (fun b hb => ?_) rfl rfl
  rw [activeBlockers_clearStale] at hb
  exact (mem_filter.mp hb).1

theorem Token.Holds.assign (h : t.Holds base) (visibility : TokenVisibility) (u : Nat) (now : Int) :
    Token.Holds base { t with visibility := visibility, userId := u, responsibleUserId := u, updatedAt := now } :=
  h.of_eq (fun _ hb => hb) rfl rfl

theorem Token.Holds.previousStatus (h : t.Holds base) : organizationTokenPreviousStatusForNewBlocker t = base := by
  unfold organizationTokenPreviousStatusForNewBlocker
  cases hactive : t.activeBlockers with
  | nil => exact h.underlying
  | cons b =>
    have hcarried := h.carried b (by rw [hactive]; exact mem_cons_self)
    rw [findSome?_cons, hcarried]
    rfl

@[simp] theorem organizationId_ensure (key : BlockerKey) (operatorUserId clearanceLevel : Nat) (now : Int) (t : Token) :
    (ensureOrganizationTokenSystemBlocker key operatorUserId clearanceLevel now t).organizationId =
      t.organizationId := by
  unfold ensureOrganizationTokenSystemBlocker
  dsimp only
  split_ifs <;> rfl

theorem underlying_ensure (key : BlockerKey) (operatorUserId clearanceLevel : Nat) (now : Int) (t : Token) :
    (ensureOrganizationTokenSystemBlocker key operatorUserId clearanceLevel now t).underlying = t.underlying := by
  unfold ensureOrganizationTokenSystemBlocker
  dsimp only
  split_ifs <;> rfl

theorem Token.Holds.ensure (h : t.Holds base) (hkey : key.organizationId = t.organizationId)
    (operatorUserId clearanceLevel : Nat) (now : Int) :
    (ensureOrganizationTokenSystemBlocker key operatorUserId clearanceLevel now t).Holds base where
  carried b hb := by
    rcases mem_activeBlockers_ensure hb with ⟨b0, hb0, -, hprevious⟩ | ⟨-, hprevious⟩
    · rw [hprevious, h.carried b0 hb0]
    · rw [hprevious, h.previousStatus]
  own b hb := by
    rw [organizationId_ensure]
    rcases mem_activeBlockers_ensure hb with ⟨b0, hb0, hsame, -⟩ | ⟨hsame, -⟩
    · rw [hsame, h.own b0 hb0]
    · rw [hsame, hkey]
  underlying := by rw [underlying_ensure, h.underlying]

theorem Token.Holds.restore (h : t.Holds base) (hfree : t.activeBlockers = []) (now : Int) :
    (t.restore now).Settled base := by
  unfold Token.restore
  dsimp only
  split_ifs with hclean
  · exact ⟨h, fun hblocked => absurd hfree hblocked, fun _ => hclean.2.2.2.2.2⟩
  · refine ⟨h.of_eq (fun _ hb => hb) rfl rfl, fun hblocked => absurd hfree hblocked, fun _ => rfl⟩

theorem Token.Holds.block (h : t.Holds base) {first : Blocker} {rest : List Blocker}
    (hactive : t.activeBlockers = first :: rest) (now : Int) : (t.block now first rest).Settled base := by
  have hfirst : first.previousStatus = some base := h.carried first (by rw [hactive]; exact mem_cons_self)
  have hprevious : (t.block now first rest).previousStatus = some base := by
    simp [Token.block, hfirst]
  have hsame : (t.block now first rest).activeBlockers = t.activeBlockers := rfl
  refine ⟨⟨h.carried, h.own, ?_⟩, fun _ => ⟨rfl, hprevious⟩, fun hfree => ?_⟩
  · rw [Token.underlying, hprevious]
    rfl
  · rw [hsame, hactive] at hfree
    cases hfree

theorem Token.Holds.reconcile (h : t.Holds base) (env : Sources) (now : Int) :
    (reconcileOrganizationTokenSystemBlocker env now t).Settled base := by
  have hstale := h.clearStale env
  unfold reconcileOrganizationTokenSystemBlocker
  dsimp only
  split
  · next hfree => exact hstale.restore hfree now
  · next first rest hactive => exact hstale.block hactive now

@[simp] theorem organizationId_reconcile (env : Sources) (now : Int) (t : Token) :
    (reconcileOrganizationTokenSystemBlocker env now t).organizationId = t.organizationId := by
  unfold reconcileOrganizationTokenSystemBlocker
  dsimp only
  split
  · unfold Token.restore
    dsimp only
    split_ifs <;> rfl
  · rfl

/-! ## What an operation does to a key -/

/-- The key with its blockers or its holder changed, to be reconciled. -/
structure Prepared (t t' : Token) : Prop where
  organizationId : t'.organizationId = t.organizationId
  deleted : t'.deleted = t.deleted
  holds : ∀ base, t.Holds base → t'.Holds base

/-- A settled key is settled afterwards, with the same status underneath. A deleted key is out of sight. -/
structure Follows (t t' : Token) : Prop where
  organizationId : t'.organizationId = t.organizationId
  deleted : t.deleted = true → t'.deleted = true
  settled : ∀ base, 0 < t.organizationId → t'.deleted = false → t.Settled base → t'.Settled base

theorem Follows.refl (t : Token) : Follows t t := ⟨rfl, id, fun _ _ _ h => h⟩

theorem Follows.live (h : Follows t t') (hlive : t'.deleted = false) : t.deleted = false := by
  cases hdeleted : t.deleted with
  | false => rfl
  | true =>
    rw [h.deleted hdeleted] at hlive
    cases hlive

theorem Follows.trans (t t' t'' : Token) (h : Follows t t') (h' : Follows t' t'') : Follows t t'' where
  organizationId := h'.organizationId.trans h.organizationId
  deleted hdeleted := h'.deleted (h.deleted hdeleted)
  settled base hpos hlive hsettled :=
    h'.settled base (by rw [h.organizationId]; exact hpos) hlive (h.settled base hpos (h'.live hlive) hsettled)

theorem Follows.of_deleted (horganization : t'.organizationId = t.organizationId) (hdeleted : t'.deleted = true) :
    Follows t t' := by
  refine ⟨horganization, fun _ => hdeleted, fun base _ hlive => ?_⟩
  rw [hdeleted] at hlive
  cases hlive

theorem Prepared.reconcile (h : Prepared t t') (env : Sources) (now : Int) :
    Follows t (reconcileOrganizationTokenSystemBlocker env now t') := by
  refine ⟨?_, fun hdeleted => ?_, fun base _ _ hsettled => ?_⟩
  · rw [organizationId_reconcile, h.organizationId]
  · rw [Token.deleted_reconcile, h.deleted, hdeleted]
  · exact (h.holds base hsettled.toHolds).reconcile env now

theorem Prepared.ensure (hkey : key.organizationId = t.organizationId)
    (operatorUserId clearanceLevel : Nat) (now : Int) :
    Prepared t (ensureOrganizationTokenSystemBlocker key operatorUserId clearanceLevel now t) :=
  ⟨by simp, by simp, fun _ h => h.ensure hkey operatorUserId clearanceLevel now⟩

theorem Prepared.clearBlockers (t : Token) (p : Blocker → Bool) : Prepared t (t.clearBlockers p) :=
  ⟨rfl, rfl, fun _ h => h.clearBlockers p⟩

theorem Prepared.clearStale (t : Token) (env : Sources) : Prepared t (t.clearStale env) :=
  ⟨rfl, rfl, fun _ h => h.clearStale env⟩

theorem Prepared.assign (t : Token) (visibility : TokenVisibility) (u : Nat) (now : Int) :
    Prepared t { t with visibility := visibility, userId := u, responsibleUserId := u, updatedAt := now } :=
  ⟨rfl, rfl, fun _ h => h.assign visibility u now⟩

theorem Prepared.trans {t'' : Token} (h : Prepared t t') (h' : Prepared t' t'') : Prepared t t'' :=
  ⟨h'.organizationId.trans h.organizationId, h'.deleted.trans h.deleted, fun base hb => h'.holds base (h.holds base hb)⟩

theorem Token.Settled.of_not_cleared (h : t.Settled base) {p : Blocker → Bool}
    (hnone : ∀ b ∈ t.activeBlockers, p b = false) : (t.clearBlockers p).Settled base := by
  have hsame : (t.clearBlockers p).activeBlockers = t.activeBlockers := by
    rw [activeBlockers_clearBlockers]
    exact filter_eq_self.mpr fun b hb => by rw [hnone b hb]; rfl
  refine ⟨h.toHolds.clearBlockers p, fun hblocked => ?_, fun hfree => ?_⟩
  · rw [hsame] at hblocked
    exact h.blocked hblocked
  · rw [hsame] at hfree
    exact h.free hfree

abbrev FollowKeys (tokens tokens' : Table Token) : Prop := tokens.Evolves Follows tokens'

theorem FollowKeys.updateWhere (hg : ∀ t, p t = true → Follows t (g t)) :
    FollowKeys tokens (tokens.updateWhere p g) :=
  Table.Evolves.updateWhere Follows.refl fun _ t _ hp => hg t hp

theorem FollowKeys.updateTwice {q : Token → Bool} {k : Token → Token}
    (hg : ∀ t, let t' := if p t then g t else t; Follows t (if q t' then k t' else t')) :
    FollowKeys tokens ((tokens.updateWhere p g).updateWhere q k) := by
  refine ⟨fun i t ht => ⟨_, ?_, hg t⟩⟩
  rw [Table.get?_updateWhere, Table.get?_updateWhere, ht]
  rfl

theorem ofOrganization_iff {o : Nat} : t.ofOrganization o = true ↔ t.deleted = false ∧ t.organizationId = o := by
  simp [Token.ofOrganization]

theorem follows_ensured (key : BlockerKey) {env : Sources} :
    FollowKeys tokens (reconcileOrganizationTokenSystemBlockers env key.organizationId now
      (tokens.updateWhere (Token.ofOrganization key.organizationId)
        (ensureOrganizationTokenSystemBlocker key operatorUserId clearanceLevel now))) := by
  refine FollowKeys.updateTwice fun t => ?_
  dsimp only
  by_cases hof : t.ofOrganization key.organizationId = true
  · have hsame := (ofOrganization_iff.mp hof).2
    have hof' : (ensureOrganizationTokenSystemBlocker key operatorUserId clearanceLevel now t).ofOrganization
        key.organizationId = true := by
      rw [ofOrganization_iff, Token.deleted_ensure, organizationId_ensure]
      exact ofOrganization_iff.mp hof
    rw [if_pos hof, if_pos hof']
    exact (Prepared.ensure hsame.symm operatorUserId clearanceLevel now).reconcile env now
  · rw [if_neg hof, if_neg hof]
    exact .refl t

theorem follows_disabled (env : Sources) (i : Nat) (r : DisableRecord) (now : Int) (tokens : Table Token) :
    FollowKeys tokens (createOrganizationDisabledTokenBlockers env i r now tokens) :=
  follows_ensured ⟨r.organizationId, r.source.reason, .disableRecord, i⟩

theorem follows_dissolved (env : Sources) (o u : Nat) (now : Int) (tokens : Table Token) :
    FollowKeys tokens (createOrganizationDissolvedTokenBlockers env o u now tokens) :=
  follows_ensured ⟨o, .organizationDissolved, .organization, o⟩

theorem follows_memberDisabled (env : Sources) (o u operator : Nat) (source : Option MemberDisableSource) (now : Int)
    (tokens : Table Token) :
    FollowKeys tokens (createOrganizationMemberDisabledTokenBlockers env o u operator source now tokens) := by
  refine FollowKeys.updateWhere fun t ht => ?_
  simp only [decide_eq_true_eq] at ht
  have hsame := (ofOrganization_iff.mp ht.1).2
  exact (Prepared.ensure hsame.symm operator (memberDisableClearance source) now).reconcile env now

theorem follows_userDisabled (env : Sources) (u operator : Nat) (now : Int) (tokens : Table Token) :
    FollowKeys tokens (createOrganizationUserPlatformDisabledTokenBlockers env u operator now tokens) :=
  FollowKeys.updateWhere fun _ _ => (Prepared.ensure rfl operator clearancePlatform now).reconcile env now

theorem Blocker.isActive_organizationId (h : b.isActive key = true) : b.organizationId = key.organizationId := by
  simp only [Blocker.isActive, decide_eq_true_eq] at h
  rw [h.2]

theorem follows_memberEnabled (env : Sources) (o u : Nat) (now : Int) (tokens : Table Token) :
    FollowKeys tokens (clearOrganizationMemberDisabledTokenBlockers env o u now tokens) := by
  refine FollowKeys.updateWhere fun t _ => ?_
  dsimp only
  split_ifs with hof
  · exact (Prepared.clearBlockers t _).reconcile env now
  · refine ⟨rfl, id, fun base _ hlive hsettled => hsettled.of_not_cleared fun b hb => ?_⟩
    -- The blocker would be one of the key's own organization.
    cases hactive : b.isActive (memberDisabledKey o u) with
    | false => rfl
    | true =>
      have horganization := (hsettled.own b hb).symm.trans (Blocker.isActive_organizationId hactive)
      exact absurd (ofOrganization_iff.mpr ⟨hlive, horganization⟩) hof

theorem follows_userEnabled (env : Sources) (u : Nat) (now : Int) (tokens : Table Token) :
    FollowKeys tokens (clearOrganizationUserPlatformDisabledTokenBlockers env u now tokens) := by
  refine ⟨fun i t ht => ⟨_, by
    rw [clearOrganizationUserPlatformDisabledTokenBlockers, Table.get?_updateWhere, Table.get?_updateWhere, ht]; rfl,
    ?_⟩⟩
  dsimp only
  rw [if_pos rfl]
  split_ifs with hblocked
  · exact (Prepared.clearBlockers t _).reconcile env now
  · refine ⟨rfl, id, fun base hpos hlive hsettled => hsettled.of_not_cleared fun b hb => ?_⟩
    cases hactive : isUserBlocker u b with
    | false => rfl
    | true =>
      refine absurd ?_ hblocked
      simp only [decide_eq_true_eq]
      refine ⟨by simpa using hlive, hpos, Table.any_iff.mpr ⟨i, t, ht, any_eq_true.mpr ⟨b, ?_, ?_⟩⟩⟩
      · exact (mem_filter.mp hb).1
      · simp only [decide_eq_true_eq]
        exact ⟨hactive, hsettled.own b hb⟩

theorem follows_sweep (env : Sources) (now : Int) (tokens : Table Token) :
    FollowKeys tokens (reconcileAllOrganizationTokenSystemBlockers env now
      (clearStaleOrganizationTokenSystemBlockers env tokens)) := by
  refine FollowKeys.updateTwice fun t => ?_
  dsimp only
  rw [if_pos rfl]
  split_ifs with hswept
  · exact (Prepared.clearStale t env).reconcile env now
  · refine ⟨rfl, id, fun base hpos hlive => ?_⟩
    refine absurd ?_ hswept
    simp only [decide_eq_true_eq]
    exact ⟨by simpa using hlive, hpos⟩

theorem follows_handOver (env : Sources) (u : Nat) (now : Int) (t : Token) : Follows t (t.handOver env u now) :=
  (Prepared.assign t t.visibility u now).reconcile env now

/-! ## Operations on the tables -/

theorem tokens_disabledState (s : State) (caller : Caller) (source : DisableSource) :
    (disabledState s caller source).tokens = s.tokens := by
  unfold disabledState ensureOrganizationDisableRecord
  split <;> rfl

theorem get?_enabledState {source : DisableSource}
    (ht : s.tokens.get? i = some t) : ∃ t', (enabledState s caller source).tokens.get? i = some t' ∧ Prepared t t' ∧
      (t.organizationId ≠ caller.organizationId → ∀ base, t.Settled base → t'.Settled base) := by
  have hclear : ∀ (s : State) (source : DisableSource) (t : Token), s.tokens.get? i = some t →
      ∃ t', (clearOrganizationDisableRecords s caller.organizationId source).tokens.get? i = some t' ∧ Prepared t t' ∧
        (t.organizationId ≠ caller.organizationId → ∀ base, t.Settled base → t'.Settled base) := by
    intro s source t ht
    refine ⟨_, by
      rw [clearOrganizationDisableRecords, clearOrganizationTokenSystemBlockers, Table.get?_updateWhere, ht]; rfl,
      Prepared.clearBlockers t _, fun hother base hsettled => hsettled.of_not_cleared fun b hb => ?_⟩
    have hown := hsettled.own b hb
    simp only [decide_eq_false_iff_not]
    rintro ⟨-, hsame, -⟩
    exact hother (hown.symm.trans hsame)
  cases source with
  | self => exact hclear s .self t ht
  | platform =>
    obtain ⟨t1, ht1, hprepared, hsettled⟩ := hclear s .platform t ht
    obtain ⟨t2, ht2, hprepared', hsettled'⟩ := hclear _ .self t1 ht1
    refine ⟨t2, ht2, hprepared.trans hprepared', fun hother base h => ?_⟩
    exact hsettled' (by rw [hprepared.organizationId]; exact hother) base (hsettled hother base h)

theorem follows_enabled (s : State) (caller : Caller) (source : DisableSource) (env : Sources) (now : Int) :
    FollowKeys s.tokens (reconcileOrganizationTokenSystemBlockers env caller.organizationId now
      (enabledState s caller source).tokens) := by
  refine ⟨fun i t ht => ?_⟩
  obtain ⟨_, ht', hprepared, hother⟩ := get?_enabledState ht
  refine ⟨_, by rw [reconcileOrganizationTokenSystemBlockers, Table.get?_updateWhere, ht']; rfl, ?_⟩
  dsimp only
  split_ifs with hof
  · exact hprepared.reconcile env now
  · refine ⟨hprepared.organizationId, fun h => hprepared.deleted.trans h, fun base _ hlive hsettled => ?_⟩
    refine hother (fun hsame => hof ?_) base hsettled
    exact ofOrganization_iff.mpr ⟨hlive, hprepared.organizationId.trans hsame⟩

/-! ## Enabling by hand -/

/-- A key that no blocker holds is enabled, and then reconciled. -/
def EnabledByHand (t t' : Token) : Prop :=
  ∃ (cleared : Token) (env : Sources) (visibility : TokenVisibility) (u : Nat) (now : Int),
    (cleared = t ∨ ∃ p, cleared = t.clearBlockers p) ∧ cleared.activeBlockers = [] ∧
      t' = reconcileOrganizationTokenSystemBlocker env now
        { cleared with
          status := .enabled, visibility := visibility, userId := u, responsibleUserId := u, updatedAt := now }

theorem EnabledByHand.settled (h : EnabledByHand t t') (hsettled : t.Settled base) :
    t'.Settled (if t.activeBlockers = [] then .enabled else base) := by
  obtain ⟨cleared, env, _, u, now, hcleared, hfree, rfl⟩ := h
  have hprevious : cleared.previousStatus = t.previousStatus := by
    rcases hcleared with rfl | ⟨p, rfl⟩
    · rfl
    · rfl
  refine Token.Holds.reconcile ⟨fun b hb => ?_, fun b hb => ?_, ?_⟩ env now
  · change b ∈ cleared.activeBlockers at hb
    rw [hfree] at hb
    cases hb
  · change b ∈ cleared.activeBlockers at hb
    rw [hfree] at hb
    cases hb
  · simp only [hprevious]
    split_ifs with hbefore
    · rw [hsettled.free hbefore]
      rfl
    · rw [(hsettled.blocked hbefore).2]
      rfl

theorem EnabledByHand.organizationId (h : EnabledByHand t t') : t'.organizationId = t.organizationId := by
  obtain ⟨_, _, _, u, _, rfl | ⟨p, rfl⟩, -, rfl⟩ := h
  · rw [organizationId_reconcile]
  · rw [organizationId_reconcile]
    rfl

theorem EnabledByHand.deleted (h : EnabledByHand t t') : t'.deleted = t.deleted := by
  obtain ⟨_, _, _, u, _, rfl | ⟨p, rfl⟩, -, rfl⟩ := h
  · rw [Token.deleted_reconcile]
  · rw [Token.deleted_reconcile]
    rfl

theorem enableByHand_ok {actor : OrganizationActor} {enabled : Token}
    (h : enableByHand actor req t = .ok enabled) (hreq : req.status = .value .enabled) :
    ∃ cleared, (cleared = t ∨ ∃ p, cleared = t.clearBlockers p) ∧ cleared.activeBlockers = [] ∧
      enabled = { cleared with status := .enabled } := by
  rw [enableByHand, if_pos hreq] at h
  obtain ⟨cleared, hcleared, h⟩ := bind_eq_ok.mp h
  cases h
  refine ⟨cleared, ?_⟩
  unfold clearOrganizationTokenManualBlockersForActor at hcleared
  split at hcleared
  · next hfree =>
    cases hcleared
    exact ⟨.inl rfl, hfree, rfl⟩
  · next first rest hactive =>
    simp only [bind_eq_ok] at hcleared
    obtain ⟨_, -, _, -, _, hmanual, hcleared⟩ := hcleared
    cases hcleared
    refine ⟨.inr ⟨_, rfl⟩, ?_, rfl⟩
    rw [activeBlockers_clearBlockers, filter_eq_nil_iff]
    intro b hb
    have hactive' : b.active = true := (mem_filter.mp hb).2
    rw [hactive] at hb
    obtain ⟨_, hreason, -⟩ := bind_eq_ok.mp (forM_eq_ok.mp hmanual b hb)
    simp [hactive', ensure_eq_ok.mp hreason]

theorem updateOrganizationToken_row {s' : State} (h : updateOrganizationToken s caller i req now = .ok s') :
    ∃ t t', s.tokens.get? i = some t ∧ s'.tokens = s.tokens.modify i (fun _ => t') ∧
      if req.status = .value .enabled then EnabledByHand t t' else Follows t t' := by
  obtain ⟨actor, t, _, visibility, u, ht, hof, henabled, rfl⟩ := updateOrganizationToken_ok h
  refine ⟨t, _, ht, rfl, ?_⟩
  split_ifs with hreq
  · obtain ⟨cleared, hcleared, hfree, rfl⟩ := enableByHand_ok henabled hreq
    refine ⟨cleared, s.toSources, visibility, u, now, hcleared, hfree, ?_⟩
    rw [disableByHand, if_neg (by rw [hreq]; decide)]
  · rw [enableByHand, if_neg hreq] at henabled
    cases henabled
    have hdisabled : Prepared t (disableByHand caller actor req now t) := by
      unfold disableByHand
      split_ifs
      · exact Prepared.ensure (ofOrganization_iff.mp hof).2.symm _ _ now
      · exact ⟨rfl, rfl, fun _ h => h⟩
    exact (hdisabled.trans (Prepared.assign _ visibility u now)).reconcile s.toSources now

end CubeRouter.Organization
