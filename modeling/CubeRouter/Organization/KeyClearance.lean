import CubeRouter.Organization.Enabling

/-!
# The clearance of a manual disabling

A key that is disabled by hand carries the clearance of the one who did it: of a member, of an administrator of the
organization or of the platform. `LockedAt c` says that a manual blocker of at least `c` is active and the key is
disabled. Every operation keeps it but the enabling by an actor of clearance `c` or more (`step_lockedKey`): no
operation clears a manual blocker or lowers its clearance, and whatever reconciles a key with an active blocker
disables it.

`MayUpdate` is all that `UpdateOrganizationToken` asks of a request besides the blockers of the key.
-/

namespace CubeRouter.Organization

open Relational Transition List Option

/-! ## Manual blockers stay -/

/-- `b'` is about the same as `b`, with at least its clearance. -/
structure Blocker.Raised (b b' : Blocker) : Prop where
  key : b'.toBlockerKey = b.toBlockerKey
  clearanceLevel : b.clearanceLevel ≤ b'.clearanceLevel

theorem Blocker.Raised.refl (b : Blocker) : b.Raised b := ⟨rfl, le_rfl⟩

theorem Blocker.Raised.of_clearance (b : Blocker) (operatorUserId clearanceLevel : Nat) :
    b.Raised (if b.clearanceLevel < clearanceLevel then
      { b with operatorUserId := operatorUserId, clearanceLevel := clearanceLevel } else b) := by
  split_ifs with hlt
  · exact ⟨rfl, hlt.le⟩
  · exact .refl b

variable {α : Type} {l : List α} {p : Blocker → Bool} {s' : State} {enabled : Token}

theorem mem_modify_or {a : α} (h : a ∈ l) {i : Nat} {g : α → α} : g a ∈ l.modify i g ∨ a ∈ l.modify i g := by
  obtain ⟨n, hn⟩ := mem_iff_getElem?.mp h
  by_cases hi : i = n
  · refine .inl (mem_iff_getElem?.mpr ⟨n, ?_⟩)
    rw [hi, getElem?_modify_eq, hn]
    rfl
  · refine .inr (mem_iff_getElem?.mpr ⟨n, ?_⟩)
    rw [getElem?_modify_ne _ _ hi, hn]

theorem exists_modified {p : α → Bool} (h : l.any p = true) (g : α → α) :
    ∃ a, p a = true ∧ g a ∈ l.modify (l.findIdx p) g := by
  have hlt : l.findIdx p < l.length := findIdx_lt_length.mpr (any_eq_true.mp h)
  refine ⟨l[l.findIdx p], findIdx_getElem, mem_iff_getElem?.mpr ⟨l.findIdx p, ?_⟩⟩
  rw [getElem?_modify_eq, getElem?_eq_getElem hlt]
  rfl

variable {t token : Token} {s : State} {caller : Caller} {i clearance : Nat} {req : OrganizationTokenRequest}
  {now : Int} {actor : OrganizationActor}

theorem raised_ensure {key : BlockerKey} {operatorUserId clearanceLevel : Nat} {b : Blocker}
    (hb : b ∈ t.activeBlockers) :
    ∃ b' ∈ (ensureOrganizationTokenSystemBlocker key operatorUserId clearanceLevel now t).activeBlockers,
    b.Raised b' := by
  obtain ⟨hmem, hactive⟩ := mem_filter.mp hb
  simp only [ensureOrganizationTokenSystemBlocker]
  split_ifs
  · rcases mem_modify_or hmem with hmem | hmem
    · refine ⟨_, mem_filter.mpr ⟨hmem, ?_⟩, .of_clearance b operatorUserId clearanceLevel⟩
      split_ifs
      · exact hactive
      · exact hactive
    · exact ⟨b, mem_filter.mpr ⟨hmem, hactive⟩, .refl b⟩
  · exact ⟨b, mem_filter.mpr ⟨mem_append_left _ hmem, hactive⟩, .refl b⟩

theorem exists_ensured (key : BlockerKey) (operatorUserId clearanceLevel : Nat) (now : Int) (t : Token) :
    ∃ b ∈ (ensureOrganizationTokenSystemBlocker key operatorUserId clearanceLevel now t).activeBlockers,
      b.toBlockerKey = key ∧ clearanceLevel ≤ b.clearanceLevel := by
  simp only [ensureOrganizationTokenSystemBlocker]
  split_ifs with hexists
  · obtain ⟨b, hb, hmem⟩ := exists_modified hexists fun b =>
      if b.clearanceLevel < clearanceLevel then
        { b with operatorUserId := operatorUserId, clearanceLevel := clearanceLevel }
      else b
    simp only [decide_eq_true_eq] at hb
    refine ⟨_, mem_filter.mpr ⟨hmem, ?_⟩, ?_⟩
    · split_ifs
      · exact hb.1
      · exact hb.1
    · split_ifs with hlt
      · exact ⟨hb.2, le_rfl⟩
      · exact ⟨hb.2, not_lt.mp hlt⟩
  · exact ⟨_, mem_filter.mpr ⟨mem_append_right _ (mem_singleton.mpr rfl), rfl⟩, rfl, le_rfl⟩

/-- A hand of clearance `c` or more blocks the key. -/
def Token.HeldAt (c : Nat) (t : Token) : Prop :=
  ∃ b ∈ t.activeBlockers, b.reason = .manualDisabled ∧ c ≤ b.clearanceLevel

structure Token.LockedAt (c : Nat) (t : Token) : Prop where
  held : t.HeldAt c
  disabled : t.status = .disabled

variable {c : Nat}

theorem Token.HeldAt.ensure (h : t.HeldAt c) (key : BlockerKey) (operatorUserId clearanceLevel : Nat) (now : Int) :
    (ensureOrganizationTokenSystemBlocker key operatorUserId clearanceLevel now t).HeldAt c := by
  obtain ⟨b, hb, hreason, hc⟩ := h
  obtain ⟨b', hb', hraised⟩ := raised_ensure hb
  refine ⟨b', hb', ?_, hc.trans hraised.clearanceLevel⟩
  rw [hraised.key, hreason]

theorem Token.HeldAt.clearBlockers (h : t.HeldAt c)
    (hp : ∀ b, b.reason = .manualDisabled → p b = false) : (t.clearBlockers p).HeldAt c := by
  obtain ⟨b, hb, hreason, hc⟩ := h
  refine ⟨b, ?_, hreason, hc⟩
  rw [activeBlockers_clearBlockers]
  exact mem_filter.mpr ⟨hb, by rw [hp b hreason]; rfl⟩

theorem Token.HeldAt.clearStale (h : t.HeldAt c) (env : Sources) : (t.clearStale env).HeldAt c := by
  obtain ⟨b, hb, hreason, hc⟩ := h
  refine ⟨b, ?_, hreason, hc⟩
  rw [activeBlockers_clearStale]
  exact mem_filter.mpr ⟨hb, by rw [organizationTokenBlockerSourceStillActive, hreason]⟩

theorem Token.HeldAt.reconcile (h : t.HeldAt c) (env : Sources) (now : Int) :
    (reconcileOrganizationTokenSystemBlocker env now t).LockedAt c := by
  have hstale := h.clearStale env
  unfold reconcileOrganizationTokenSystemBlocker
  dsimp only
  split
  · next hfree =>
    obtain ⟨b, hb, -⟩ := hstale
    rw [hfree] at hb
    cases hb
  · exact ⟨hstale, rfl⟩

/-! ## The operations keep a key locked -/

def KeepsLock (c : Nat) (t t' : Token) : Prop := t.LockedAt c → t'.LockedAt c

theorem KeepsLock.refl (t : Token) : KeepsLock c t t := id

theorem KeepsLock.trans (t t' t'' : Token) (h : KeepsLock c t t') (h' : KeepsLock c t' t'') : KeepsLock c t t'' :=
  fun hlocked => h' (h hlocked)

theorem KeepsLock.reconcile (env : Sources) (now : Int) (t : Token) :
    KeepsLock c t (reconcileOrganizationTokenSystemBlocker env now t) :=
  fun hlocked => hlocked.held.reconcile env now

theorem KeepsLock.ensure (key : BlockerKey) (operatorUserId clearanceLevel : Nat) (now : Int) (t : Token) :
    KeepsLock c t (ensureOrganizationTokenSystemBlocker key operatorUserId clearanceLevel now t) := by
  refine fun hlocked => ⟨hlocked.held.ensure key operatorUserId clearanceLevel now, ?_⟩
  unfold ensureOrganizationTokenSystemBlocker
  dsimp only
  split_ifs
  · exact hlocked.disabled
  · exact hlocked.disabled

theorem KeepsLock.clearBlockers (hp : ∀ b, b.reason = .manualDisabled → p b = false) (t : Token) :
    KeepsLock c t (t.clearBlockers p) :=
  fun hlocked => ⟨hlocked.held.clearBlockers hp, hlocked.disabled⟩

theorem KeepsLock.clearStale (env : Sources) (t : Token) : KeepsLock c t (t.clearStale env) :=
  fun hlocked => ⟨hlocked.held.clearStale env, hlocked.disabled⟩

section Tables

variable (env : Sources) (now : Int) (tokens : Table Token)

theorem isActive_of_manual {key : BlockerKey} (h : key.reason ≠ .manualDisabled) (b : Blocker)
    (hb : b.reason = .manualDisabled) : b.isActive key = false := by
  simp only [Blocker.isActive, decide_eq_false_iff_not]
  rintro ⟨-, rfl⟩
  exact h hb

theorem keepsLock_updateWhere {p : Token → Bool} {g : Token → Token} (hg : ∀ t, KeepsLock c t (g t)) :
    tokens.Evolves (KeepsLock c) (tokens.updateWhere p g) :=
  .updateWhere KeepsLock.refl fun _ t _ _ => hg t

theorem keepsLock_ensured (key : BlockerKey) (o operatorUserId clearanceLevel : Nat) :
    tokens.Evolves (KeepsLock c) (reconcileOrganizationTokenSystemBlockers env o now
      (tokens.updateWhere (Token.ofOrganization o)
        (ensureOrganizationTokenSystemBlocker key operatorUserId clearanceLevel now))) := by
  refine .trans KeepsLock.trans (keepsLock_updateWhere _ fun t => ?_) (keepsLock_updateWhere _ fun t => ?_)
  · exact .ensure key operatorUserId clearanceLevel now t
  · exact .reconcile env now t

theorem keepsLock_ensuredEach (p : Token → Bool) (key : Token → BlockerKey) (operatorUserId clearanceLevel : Nat) :
    tokens.Evolves (KeepsLock c) (tokens.updateWhere p fun t => reconcileOrganizationTokenSystemBlocker env now
      (ensureOrganizationTokenSystemBlocker (key t) operatorUserId clearanceLevel now t)) :=
  keepsLock_updateWhere _ fun t hlocked =>
    (hlocked.held.ensure (key t) operatorUserId clearanceLevel now).reconcile env now

theorem keepsLock_memberEnabled (o u : Nat) :
    tokens.Evolves (KeepsLock c) (clearOrganizationMemberDisabledTokenBlockers env o u now tokens) := by
  refine keepsLock_updateWhere _ fun t => ?_
  have hmember : (memberDisabledKey o u).reason ≠ .manualDisabled := by
    intro h
    cases h
  have hclear := KeepsLock.clearBlockers (c := c) (isActive_of_manual hmember) t
  dsimp only
  split_ifs
  · exact hclear.trans _ _ _ (.reconcile env now _)
  · exact hclear

theorem keepsLock_enabledState (s : State) (caller : Caller) (source : DisableSource) :
    s.tokens.Evolves (KeepsLock c) (enabledState s caller source).tokens := by
  have hclear : ∀ (s : State) (source : DisableSource),
      s.tokens.Evolves (KeepsLock c) (clearOrganizationDisableRecords s caller.organizationId source).tokens := by
    intro s source
    refine keepsLock_updateWhere _ fun t => .clearBlockers (fun b hb => ?_) t
    simp only [decide_eq_false_iff_not]
    rintro ⟨-, -, hreason, -⟩
    rw [hb] at hreason
    cases source with
    | self | platform => cases hreason
  cases source with
  | self => exact hclear s .self
  | platform => exact .trans KeepsLock.trans (hclear s .platform) (hclear _ .self)

theorem keepsLock_userEnabled (u : Nat) :
    tokens.Evolves (KeepsLock c) (clearOrganizationUserPlatformDisabledTokenBlockers env u now tokens) := by
  refine .trans KeepsLock.trans (keepsLock_updateWhere _ fun t => .clearBlockers (fun b hb => ?_) t)
    (keepsLock_updateWhere _ fun t => .reconcile env now t)
  simp [isUserBlocker, hb]

end Tables

theorem keepsLock_keyRelation : KeyRelation (KeepsLock c) where
  refl := KeepsLock.refl
  trans := KeepsLock.trans
  handOver env u now t hlocked := by
    have hheld : Token.HeldAt c { t with userId := u, responsibleUserId := u, updatedAt := now } := hlocked.held
    exact hheld.reconcile env now
  delete _ _ hlocked := ⟨hlocked.held, hlocked.disabled⟩
  memberDisabled _ _ _ _ _ _ _ := keepsLock_ensuredEach ..
  memberEnabled _ _ _ _ _ := keepsLock_memberEnabled ..
  disabled _ _ _ _ _ := keepsLock_ensured ..
  enabled s caller source env now := by
    refine .trans KeepsLock.trans (keepsLock_enabledState s caller source) ?_
    exact keepsLock_updateWhere _ fun t => .reconcile env now t
  dissolved _ _ _ _ _ := keepsLock_ensured ..
  userDisabled _ _ _ _ _ := keepsLock_ensuredEach ..
  userEnabled _ _ _ _ := keepsLock_userEnabled ..
  sweep env now tokens := by
    have hstale : tokens.Evolves (KeepsLock c) (clearStaleOrganizationTokenSystemBlockers env tokens) :=
      keepsLock_updateWhere _ fun t => .clearStale env t
    exact .trans KeepsLock.trans hstale (keepsLock_updateWhere _ fun t => .reconcile env now t)

/-! ## Updates by hand -/

/-- What an update asks for, whatever blocks the key. -/
structure MayUpdate (s : State) (caller : Caller) (i : Nat) (req : OrganizationTokenRequest) (actor : OrganizationActor)
    (token : Token) : Prop where
  ids : 0 < caller.operatorUserId ∧ 0 < caller.organizationId ∧ 0 < i
  writeActor : tokenWriteActor s caller = .ok actor
  notDissolved : actor.organization.status ≠ .dissolved
  member : actor.canManageAllTokens ∨ activeMemberEnabled s caller.organizationId caller.operatorUserId
  found : getOrganizationToken s caller.organizationId i = .ok token
  permitted : actor.canManageAllTokens ∨ (canManageToken s caller actor token ∧
    (req.responsibleUserId = 0 ∨ req.responsibleUserId = token.responsibleUserId))
  visibility : req.visibility = .value .public → actor.canManageAllTokens
  valid : req.validate true = .ok ()
  responsible : ensureNewResponsibleUser s caller actor token (req.newVisibility token)
    (req.newResponsibleUserId actor token) = .ok ()

def updatedToken (s : State) (caller : Caller) (req : OrganizationTokenRequest) (actor : OrganizationActor)
    (token enabled : Token) (now : Int) : Token :=
  reconcileOrganizationTokenSystemBlocker s.toSources now
    { disableByHand caller actor req now enabled with
      visibility := req.newVisibility token
      userId := req.newResponsibleUserId actor token
      responsibleUserId := req.newResponsibleUserId actor token
      updatedAt := now }

theorem updateOrganizationToken_eq_ok :
    updateOrganizationToken s caller i req now = .ok s' ↔ ∃ actor token enabled, MayUpdate s caller i req actor token ∧
      enableByHand actor req token = .ok enabled ∧
      s' = { s with tokens := s.tokens.modify i fun _ => updatedToken s caller req actor token enabled now } := by
  constructor
  · intro h
    unfold updateOrganizationToken at h
    simp only [bind_eq_ok] at h
    obtain ⟨_, hids, actor, hactor, _, hlive, _, hmember, token, htoken, _, hpermitted, _,
      hvisibility, _, hvalid, enabled,
      henabled, _, hresponsible, h⟩ := h
    cases h
    exact ⟨actor, token, enabled, ⟨ensure_eq_ok.mp hids, hactor, ensure_eq_ok.mp hlive, ensure_eq_ok.mp hmember, htoken,
      ensure_eq_ok.mp hpermitted, ensure_eq_ok.mp hvisibility, hvalid, hresponsible⟩, henabled, rfl⟩
  · rintro ⟨actor, token, enabled, hmay, henabled, rfl⟩
    refine bind_eq_ok.mpr ⟨(), ensure_eq_ok.mpr hmay.ids, ?_⟩
    refine bind_eq_ok.mpr ⟨actor, hmay.writeActor, ?_⟩
    refine bind_eq_ok.mpr ⟨(), ensure_eq_ok.mpr hmay.notDissolved, ?_⟩
    refine bind_eq_ok.mpr ⟨(), ensure_eq_ok.mpr hmay.member, ?_⟩
    refine bind_eq_ok.mpr ⟨token, hmay.found, ?_⟩
    refine bind_eq_ok.mpr ⟨(), ensure_eq_ok.mpr hmay.permitted, ?_⟩
    refine bind_eq_ok.mpr ⟨(), ensure_eq_ok.mpr hmay.visibility, ?_⟩
    refine bind_eq_ok.mpr ⟨(), hmay.valid, ?_⟩
    refine bind_eq_ok.mpr ⟨enabled, henabled, ?_⟩
    exact bind_eq_ok.mpr ⟨(), hmay.responsible, rfl⟩

/-! ## Enabling by hand and the clearance -/

/-- A blocker without a clearance counts as one of an administrator. -/
def Blocker.effectiveClearance (b : Blocker) : Nat :=
  if b.clearanceLevel = 0 then clearanceOrganizationAdmin else b.clearanceLevel

/-- Only hands block the key, and none of more than this clearance. -/
def Token.ManualUpTo (clearance : Nat) (t : Token) : Prop :=
  ∀ b ∈ t.activeBlockers, b.reason = .manualDisabled ∧ b.effectiveClearance ≤ clearance

theorem OrganizationActor.clearance_lt_terminal (actor : OrganizationActor) : actor.clearance < clearanceTerminal := by
  unfold OrganizationActor.clearance
  split_ifs <;> decide

theorem selected_mem (first : Blocker) (rest : List Blocker) :
    selectedOrganizationTokenSystemBlocker first rest ∈ first :: rest := by
  unfold selectedOrganizationTokenSystemBlocker
  induction rest generalizing first with
  | nil => exact mem_singleton.mpr rfl
  | cons b _ ih =>
    rw [foldl_cons]
    have hmem := ih (if first.reason.priority < b.reason.priority then b else first)
    split_ifs at hmem ⊢
    · exact mem_cons_of_mem first hmem
    · rcases mem_cons.mp hmem with hfirst | hrest
      · rw [hfirst]
        exact mem_cons_self
      · exact mem_cons_of_mem first (mem_cons_of_mem b hrest)

/-- The clearing is granted exactly when only hands block the key and none of them is above the actor. -/
theorem clearManual_iff (hterminal : clearance < clearanceTerminal) :
    (∃ t', clearOrganizationTokenManualBlockersForActor clearance t = .ok t') ↔ t.ManualUpTo clearance := by
  unfold clearOrganizationTokenManualBlockersForActor Token.ManualUpTo
  split
  · next hfree => simp [hfree]
  · next first rest hactive =>
    rw [hactive]
    constructor
    · rintro ⟨t', h⟩ b hb
      simp only [bind_eq_ok] at h
      obtain ⟨_, -, _, -, _, hmanual, h⟩ := h
      obtain ⟨_, hreason, hclearance⟩ := bind_eq_ok.mp (forM_eq_ok.mp hmanual b hb)
      exact ⟨ensure_eq_ok.mp hreason, (ensure_eq_ok.mp hclearance).1⟩
    · intro h
      have hselected := (h _ (selected_mem first rest)).1
      refine ⟨_, bind_eq_ok.mpr ⟨(), ensure_eq_ok.mpr ?_, bind_eq_ok.mpr ⟨(), ensure_eq_ok.mpr ?_,
        bind_eq_ok.mpr ⟨(), forM_eq_ok.mpr fun b hb => ?_, rfl⟩⟩⟩⟩
      · rw [hselected]
        decide
      · rw [hselected]
        decide
      · obtain ⟨hreason, hle⟩ := h b hb
        exact bind_eq_ok.mpr ⟨(), ensure_eq_ok.mpr hreason, ensure_eq_ok.mpr ⟨hle, lt_of_le_of_lt hle hterminal⟩⟩

theorem enableByHand_iff (hreq : req.status = .value .enabled) :
    (∃ enabled, enableByHand actor req t = .ok enabled) ↔ t.ManualUpTo actor.clearance := by
  rw [← clearManual_iff actor.clearance_lt_terminal, enableByHand, if_pos hreq]
  constructor
  · rintro ⟨enabled, h⟩
    obtain ⟨cleared, hcleared, -⟩ := bind_eq_ok.mp h
    exact ⟨cleared, hcleared⟩
  · rintro ⟨cleared, hcleared⟩
    exact ⟨_, bind_eq_ok.mpr ⟨cleared, hcleared, rfl⟩⟩

theorem Token.ManualUpTo.not_heldAt (h : t.ManualUpTo clearance) (hlt : clearance < c) : ¬t.HeldAt c := by
  rintro ⟨b, hb, -, hc⟩
  have hle := (h b hb).2
  unfold Blocker.effectiveClearance at hle
  split_ifs at hle
  · omega
  · omega

theorem Token.HeldAt.updated (h : (disableByHand caller actor req now enabled).HeldAt c) :
    (updatedToken s caller req actor token enabled now).LockedAt c := by
  have hheld : Token.HeldAt c
      { disableByHand caller actor req now enabled with
        visibility := req.newVisibility token
        userId := req.newResponsibleUserId actor token
        responsibleUserId := req.newResponsibleUserId actor token
        updatedAt := now } := h
  exact hheld.reconcile s.toSources now

theorem Token.HeldAt.disableByHand (h : t.HeldAt c) (caller : Caller) (actor : OrganizationActor)
    (req : OrganizationTokenRequest) (now : Int) : (disableByHand caller actor req now t).HeldAt c := by
  unfold Organization.disableByHand
  split_ifs
  · exact h.ensure _ _ _ now
  · exact h

theorem heldAt_disabled (hreq : req.status = .value .disabled) (caller : Caller) (actor : OrganizationActor)
    (now : Int) : (disableByHand caller actor req now t).HeldAt actor.clearance := by
  rw [disableByHand, if_pos hreq]
  obtain ⟨b, hb, hkey, hclearance⟩ := exists_ensured
    { organizationId := caller.organizationId, reason := .manualDisabled, refType := .operator
      refId := caller.operatorUserId } caller.operatorUserId actor.clearance now t
  exact ⟨b, hb, by rw [hkey], hclearance⟩

/-! ## Along a run -/

/-- Whoever asks for the key to be enabled has less clearance than `c`. -/
def AsksBelow (c i : Nat) (s : System) : Event → Prop
  | .updateOrganizationToken caller tokenId req _ => tokenId = i → req.status = .value .enabled →
    ∀ actor, tokenWriteActor s.toState caller = .ok actor → actor.clearance < c
  | _ => True

def System.LockedKey (c i : Nat) (s : System) : Prop := ∃ t, s.tokens.get? i = some t ∧ t.LockedAt c

theorem step_update (config : Config) {s : System} (h : updateOrganizationToken s.toState caller i req now = .ok s') :
    (s.step config (.updateOrganizationToken caller i req now)).toState = s' := by
  simp only [System.step, h]
  rfl

theorem step_lockedKey (config : Config) (s : System) (e : Event) (h : s.LockedKey c i) (hbelow : AsksBelow c i s e) :
    (s.step config e).LockedKey c i := by
  obtain ⟨t, ht, hlocked⟩ := h
  by_cases hupdate : e.isUpdate = false
  · obtain ⟨t', ht', hkeeps⟩ := (keepsLock_keyRelation.step config s hupdate).row i t ht
    exact ⟨t', ht', hkeeps hlocked⟩
  cases e with
  | updateOrganizationToken caller tokenId req now =>
    rcases hresult : updateOrganizationToken s.toState caller tokenId req now with _ | _
    · refine ⟨t, ?_, hlocked⟩
      simp only [System.step, hresult]
      exact ht
    obtain ⟨actor, token, enabled, hmay, henabled, rfl⟩ := updateOrganizationToken_eq_ok.mp hresult
    have hstep := congrArg State.tokens (step_update config hresult)
    by_cases hi : i = tokenId
    · subst hi
      obtain rfl : token = t := Option.some.inj ((getOrganizationToken_ok hmay.found).1.symm.trans ht)
      refine ⟨_, by rw [hstep, Table.get?_modify_self, ht]; rfl, ?_⟩
      by_cases hreq : req.status = .value .enabled
      · have hmanual := (enableByHand_iff hreq).mp ⟨enabled, henabled⟩
        exact absurd hlocked.held (hmanual.not_heldAt (hbelow rfl hreq actor hmay.writeActor))
      · rw [enableByHand, if_neg hreq] at henabled
        cases henabled
        exact (hlocked.held.disableByHand caller actor req now).updated
    · exact ⟨t, by rw [hstep, Table.get?_modify_of_ne _ _ hi, ht], hlocked⟩
  | _ => exact absurd rfl hupdate

theorem run_lockedKey (config : Config) {s : System} {l : List Event} (h : s.LockedKey c i)
    (hl : Along (System.step config) (AsksBelow c i) s l) : (run (System.step config) s l).LockedKey c i :=
  run_invariant (step_lockedKey config) h hl

/-! ## Enabling once more -/

theorem hasCapability_applyTokenResourcePolicy (input : PolicyInput) (resource : PolicyResource)
    (decision : PolicyDecision) :
    (applyTokenResourcePolicy input resource decision).hasCapability .manageResource = true ↔
      decision.hasCapability .manageResource ∨ (¬decision.readOnly ∧ decision.hasCapability .manageOrganizationTokens) ∨
        (¬decision.readOnly ∧ decision.hasCapability .viewOrganizationTokens ∧
          (0 < resource.ownerUserId ∧ resource.ownerUserId = input.currentUserId) ∧ resource.visibility ≠ .public) := by
  simp [applyTokenResourcePolicy, PolicyDecision.hasCapability]

def PolicyDecision.manages (decision : PolicyDecision) : Bool :=
  decision.allowed && decision.hasCapability .manageResource

theorem manages_mono {input : PolicyInput} {decision : PolicyDecision} {r r' : PolicyResource}
    (howner : r'.ownerUserId = r.ownerUserId) (hvisibility : r'.visibility = .public → r.visibility = .public)
    (h : (applyOrganizationResourcePolicy { input with resource := some r } decision).manages = true) :
    (applyOrganizationResourcePolicy { input with resource := some r' } decision).manages = true := by
  simp only [applyOrganizationResourcePolicy, PolicyDecision.manages] at h ⊢
  split_ifs at h ⊢
  · rw [Bool.and_eq_true, hasCapability_applyTokenResourcePolicy] at h ⊢
    rw [howner]
    refine ⟨h.1, h.2.imp_right (Or.imp_right ?_)⟩
    rintro ⟨hwrite, hview, hcreator, hprivate⟩
    exact ⟨hwrite, hview, hcreator, fun hpublic => hprivate (hvisibility hpublic)⟩
  · exact h

theorem canManageToken_mono {t' : Token} (h : canManageToken s caller actor t = true)
    (hcreator : t'.creatorUserId = t.creatorUserId) (hvisibility : t'.visibility = .public → t.visibility = .public) :
    canManageToken s caller actor t' = true := by
  unfold canManageToken evaluateOrganizationPolicy at h ⊢
  split_ifs at h ⊢
  · cases h
  · exact manages_mono (r := ⟨t.creatorUserId, t.responsibleUserId, t.visibility⟩) hcreator hvisibility h

theorem resource_reconcile (env : Sources) (now : Int) (t : Token) :
    (reconcileOrganizationTokenSystemBlocker env now t).creatorUserId = t.creatorUserId ∧
      (reconcileOrganizationTokenSystemBlocker env now t).visibility = t.visibility := by
  unfold reconcileOrganizationTokenSystemBlocker
  dsimp only
  split
  · unfold Token.restore
    dsimp only
    split_ifs
    · exact ⟨rfl, rfl⟩
    · exact ⟨rfl, rfl⟩
  · exact ⟨rfl, rfl⟩

/-- The key after an enabling: whose it is, and that nothing blocks it. -/
structure EnabledAs (req : OrganizationTokenRequest) (actor : OrganizationActor) (token t : Token) : Prop where
  organizationId : t.organizationId = token.organizationId
  deleted : t.deleted = token.deleted
  creatorUserId : t.creatorUserId = token.creatorUserId
  visibility : t.visibility = req.newVisibility token
  userId : t.userId = req.newResponsibleUserId actor token
  responsibleUserId : t.responsibleUserId = req.newResponsibleUserId actor token
  byHand : EnabledByHand token t

theorem enabledAs_updated (s : State) (caller : Caller) (hreq : req.status = .value .enabled)
    (henabled : enableByHand actor req token = .ok enabled) (now : Int) :
    EnabledAs req actor token (updatedToken s caller req actor token enabled now) := by
  obtain ⟨cleared, hcleared, hfree, rfl⟩ := enableByHand_ok henabled hreq
  have hdisable : disableByHand caller actor req now { cleared with status := .enabled } =
      { cleared with status := .enabled } := by
    rw [disableByHand, if_neg]
    rw [hreq]
    decide
  have hsame : cleared.organizationId = token.organizationId ∧ cleared.deleted = token.deleted ∧
      cleared.creatorUserId = token.creatorUserId := by
    rcases hcleared with rfl | ⟨p, rfl⟩
    · exact ⟨rfl, rfl, rfl⟩
    · exact ⟨rfl, rfl, rfl⟩
  unfold updatedToken
  rw [hdisable]
  have hholder := holder_reconcile s.toSources now
  have hresource := resource_reconcile s.toSources now
  simp only [Token.holder, Prod.mk.injEq] at hholder
  exact ⟨(hholder _).1.trans hsame.1, (hholder _).2.2.2.trans hsame.2.1,
    (hresource _).1.trans hsame.2.2, (hresource _).2,
    (hholder _).2.1, (hholder _).2.2.1, cleared, s.toSources, _, _, now, hcleared, hfree, rfl⟩

theorem EnabledAs.newVisibility (h : EnabledAs req actor token t) : req.newVisibility t = req.newVisibility token := by
  have hvisibility := h.visibility
  unfold OrganizationTokenRequest.newVisibility at hvisibility ⊢
  split at hvisibility
  · rfl
  · exact hvisibility
  · exact hvisibility

theorem EnabledAs.newResponsibleUserId (h : EnabledAs req actor token t) :
    req.newResponsibleUserId actor t = req.newResponsibleUserId actor token := by
  have huser := h.userId
  have hresponsible := h.responsibleUserId
  generalize hu : req.newResponsibleUserId actor token = u at huser hresponsible ⊢
  simp only [OrganizationTokenRequest.newResponsibleUserId, huser, hresponsible, ite_self]
  split_ifs with hrestricted hzero hzero
  · rfl
  · rfl
  · rw [← hu, OrganizationTokenRequest.newResponsibleUserId, if_neg hrestricted, if_pos hzero]
  · rfl

theorem MayUpdate.again (h : MayUpdate s caller i req actor token) (hsame : EnabledAs req actor token t) :
    MayUpdate { s with tokens := s.tokens.modify i fun _ => t } caller i req actor t := by
  obtain ⟨hget, hof⟩ := getOrganizationToken_ok h.found
  have hresponsible : actor.canManageAllTokens = false →
      req.newResponsibleUserId actor token = token.responsibleUserId := by
    intro hnot
    have hkept := h.responsible
    rw [ensureNewResponsibleUser, if_neg (by simp [hnot])] at hkept
    exact ensure_eq_ok.mp hkept
  refine ⟨h.ids, h.writeActor, h.notDissolved, h.member, ?_, ?_, h.visibility, h.valid, ?_⟩
  · unfold getOrganizationToken
    rw [Table.get?_modify_self, hget]
    have hof' : t.ofOrganization caller.organizationId = true := by
      rw [ofOrganization_iff, hsame.deleted, hsame.organizationId]
      exact ofOrganization_iff.mp hof
    rw [map_some, filter_some, if_pos hof']
  · rcases hall : actor.canManageAllTokens with _ | _
    · have hpermitted := h.permitted
      rw [hall] at hpermitted
      obtain ⟨hmanage, hrequested⟩ := hpermitted.resolve_left (by decide)
      refine .inr ⟨canManageToken_mono hmanage hsame.creatorUserId fun hpublic => ?_, ?_⟩
      · rw [hsame.visibility] at hpublic
        unfold OrganizationTokenRequest.newVisibility at hpublic
        split at hpublic
        · next visibility hvalue =>
          have hallowed := h.visibility (by rw [hvalue, hpublic])
          rw [hall] at hallowed
          cases hallowed
        · exact hpublic
        · exact hpublic
      · rw [hsame.responsibleUserId, hresponsible hall]
        exact hrequested
    · exact .inl rfl
  · rw [hsame.newVisibility, hsame.newResponsibleUserId]
    rcases hall : actor.canManageAllTokens with _ | _
    · rw [ensureNewResponsibleUser, if_neg (by simp [hall])]
      exact ensure_eq_ok.mpr hsame.responsibleUserId.symm
    · have hallowed := h.responsible
      rw [ensureNewResponsibleUser, if_pos hall] at hallowed ⊢
      exact hallowed

/-- An enabling that only hands stand against is granted, and leaves the key as one without blockers. -/
theorem enabling_granted (config : Config) {s : System} (hmay : MayUpdate s.toState caller i req actor t)
    (hreq : req.status = .value .enabled) (hmanual : t.ManualUpTo actor.clearance) :
    ∃ t', (s.step config (.updateOrganizationToken caller i req now)).tokens.get? i = some t' ∧
    EnabledAs req actor t t' ∧
      MayUpdate (s.step config (.updateOrganizationToken caller i req now)).toState caller i req actor t' := by
  obtain ⟨enabled, henabled⟩ := (enableByHand_iff hreq).mpr hmanual
  have hsame := enabledAs_updated s.toState caller hreq henabled now
  have hresult : updateOrganizationToken s.toState caller i req now = .ok
      { s.toState with
        tokens := s.tokens.modify i fun _ => updatedToken s.toState caller req actor t enabled now } :=
    updateOrganizationToken_eq_ok.mpr ⟨actor, t, enabled, hmay, henabled, rfl⟩
  have hstep := step_update config hresult
  refine ⟨_, ?_, hsame, ?_⟩
  · rw [hstep, Table.get?_modify_self, (getOrganizationToken_ok hmay.found).1]
    rfl
  · rw [hstep]
    exact hmay.again hsame

theorem Token.manualUpTo_of_free (h : t.activeBlockers = []) : t.ManualUpTo clearance := by
  intro b hb
  rw [h] at hb
  cases hb

/-- A key that an actor has disabled by hand stays disabled along every run in which only actors of less clearance ask
for it to be enabled. An actor whom no manual blocker exceeds can enable the key when nothing else blocks it: the
request clears the blockers and brings back the status from before, and repeated it makes the key enabled. -/
theorem manual_disable_respects_clearance (config : Config) (s : System) (i : Nat) (caller : Caller)
    (req : OrganizationTokenRequest) (actor : OrganizationActor)
    (hactor : tokenWriteActor s.toState caller = .ok actor) :
    (∀ now s', req.status = .value .disabled → updateOrganizationToken s.toState caller i req now = .ok s' →
      ∀ l, Along (System.step config) (AsksBelow actor.clearance i)
          (s.step config (.updateOrganizationToken caller i req now)) l →
        ∃ t, (run (System.step config) s (.updateOrganizationToken caller i req now :: l)).tokens.get? i = some t ∧
          t.status = .disabled) ∧
    (∀ t, MayUpdate s.toState caller i req actor t → req.status = .value .enabled → t.ManualUpTo actor.clearance →
      ∀ now now',
        (∃ t', (run (System.step config) s [.updateOrganizationToken caller i req now]).tokens.get? i = some t' ∧
          t'.activeBlockers = [] ∧ t'.status = t.previousStatus.getD .enabled) ∧
        (∃ t', (run (System.step config) s [.updateOrganizationToken caller i req now,
            .updateOrganizationToken caller i req now']).tokens.get? i = some t' ∧ t'.status = .enabled)) := by
  constructor
  · intro now s' hreq hgranted l hl
    have hlocked : (s.step config (.updateOrganizationToken caller i req now)).LockedKey actor.clearance i := by
      have hstep := step_update config hgranted
      obtain ⟨actor', token, enabled, hmay, _, rfl⟩ := updateOrganizationToken_eq_ok.mp hgranted
      obtain rfl := Except.ok.inj (hmay.writeActor.symm.trans hactor)
      refine ⟨updatedToken s.toState caller req actor' token enabled now, ?_,
        (heldAt_disabled hreq caller actor' now).updated⟩
      rw [hstep, Table.get?_modify_self, (getOrganizationToken_ok hmay.found).1]
      rfl
    obtain ⟨t, ht, hlocked⟩ := run_lockedKey config hlocked hl
    exact ⟨t, ht, hlocked.disabled⟩
  · intro t hmay hreq hmanual now now'
    obtain ⟨t1, ht1, hsame, hagain⟩ := enabling_granted config hmay hreq hmanual
    refine ⟨⟨t1, ht1, hsame.byHand.free, hsame.byHand.status_eq⟩, ?_⟩
    obtain ⟨t2, ht2, hsame2, -⟩ := enabling_granted config hagain hreq (Token.manualUpTo_of_free hsame.byHand.free)
    refine ⟨t2, ht2, ?_⟩
    obtain ⟨-, -, -, -, -, hnone⟩ := hsame.byHand.clean
    rw [hsame2.byHand.status_eq, hnone]
    rfl

def platformCaller : Caller := ⟨3, 1, .admin⟩

def ownerCaller : Caller := ⟨1, 1, .management⟩

def disableRequest : OrganizationTokenRequest := { status := .value .disabled }

def enableRequest : OrganizationTokenRequest := { status := .value .enabled }

theorem clearance_of_map (s : State) (caller : Caller) {n : Nat}
    (h : (tokenWriteActor s caller).toOption.map OrganizationActor.clearance = some n) :
    ∃ actor, tokenWriteActor s caller = .ok actor ∧ actor.clearance = n := by
  obtain ⟨actor, hactor, hclearance⟩ := map_eq_some_iff.mp h
  exact ⟨actor, toOption_eq_some.mp hactor, hclearance⟩

def lockedSample : System := keySample.step sampleConfig (.updateOrganizationToken platformCaller 1 disableRequest 1000)

/-- The owner cannot enable the key, the platform can. -/
theorem manual_disable_respects_clearance_sample :
    (∃ t, (run (System.step sampleConfig) keySample [.updateOrganizationToken platformCaller 1 disableRequest 1000,
      .updateOrganizationToken ownerCaller 1 enableRequest 2000]).tokens.get? 1 = some t ∧ t.status = .disabled) ∧
    (∃ t, (run (System.step sampleConfig) lockedSample [.updateOrganizationToken platformCaller 1 enableRequest 3000,
      .updateOrganizationToken platformCaller 1 enableRequest 4000]).tokens.get? 1 = some t ∧ t.status = .enabled) := by
  constructor
  · obtain ⟨actor, hactor, _⟩ := clearance_of_map keySample.toState platformCaller (n := 80) (by decide +kernel)
    obtain ⟨s', hs'⟩ :
      ∃ s', updateOrganizationToken keySample.toState platformCaller 1 disableRequest 1000 = .ok s' := by
      simp only [← toOption_eq_some, ← isSome_iff_exists]
      decide +kernel
    refine (manual_disable_respects_clearance sampleConfig keySample 1 platformCaller disableRequest actor hactor).1
      1000 s' rfl hs' [.updateOrganizationToken ownerCaller 1 enableRequest 2000]
        ⟨fun _ _ actor' hactor' => ?_, trivial⟩
    obtain ⟨_, howner, _⟩ := clearance_of_map lockedSample.toState ownerCaller (n := 50) (by decide +kernel)
    obtain rfl := Except.ok.inj (howner.symm.trans hactor')
    omega
  · obtain ⟨s', hs'⟩ :
      ∃ s', updateOrganizationToken lockedSample.toState platformCaller 1 enableRequest 3000 = .ok s' := by
      simp only [← toOption_eq_some, ← isSome_iff_exists]
      decide +kernel
    obtain ⟨actor, token, enabled, hmay, henabled, -⟩ := updateOrganizationToken_eq_ok.mp hs'
    exact ((manual_disable_respects_clearance sampleConfig lockedSample 1 platformCaller enableRequest actor
      hmay.writeActor).2 token hmay rfl ((enableByHand_iff rfl).mp ⟨enabled, henabled⟩) 3000 4000).2

end CubeRouter.Organization
