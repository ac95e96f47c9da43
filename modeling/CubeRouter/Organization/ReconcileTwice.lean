import CubeRouter.Organization.KeyRuns

/-!
# Reconciling twice

`ReconcileOrganizationTokenBlockers` goes through everything that blocks keys, makes the blockers of it, and at last
clears the blockers that nothing stands behind. `BlockerSource` is one such thing, and a key meets them one by one.

After one run a key is `Stable`: its blockers are all live, each live source has one, and the columns show them. A
second run then writes the same columns again. It moves the time of the update, and it can leave a cleared blocker
behind: of a member who is disabled and has made the key, but does not hold it any more.
-/

namespace CubeRouter.Organization

open Relational Transition List Option

/-! ## Who holds a key -/

/-- What the sources look at. -/
def Token.holder (t : Token) : Nat × Nat × Nat × Bool := (t.organizationId, t.userId, t.responsibleUserId, t.deleted)

@[simp] theorem holder_clearStale (env : Sources) (t : Token) : (t.clearStale env).holder = t.holder := rfl

@[simp] theorem holder_ensure (key : BlockerKey) (operatorUserId clearanceLevel : Nat) (now : Int) (t : Token) :
    (ensureOrganizationTokenSystemBlocker key operatorUserId clearanceLevel now t).holder = t.holder := by
  unfold ensureOrganizationTokenSystemBlocker
  dsimp only
  split_ifs <;> rfl

variable {now : Int}

theorem reconcile_frame {env : Sources} {t : Token} :
    (reconcileOrganizationTokenSystemBlocker env now t).holder = t.holder ∧
      (reconcileOrganizationTokenSystemBlocker env now t).blockers = (t.clearStale env).blockers := by
  unfold reconcileOrganizationTokenSystemBlocker
  dsimp only
  split
  · unfold Token.restore
    dsimp only
    split_ifs <;> exact ⟨rfl, rfl⟩
  · exact ⟨rfl, rfl⟩

@[simp] theorem holder_reconcile (env : Sources) (now : Int) (t : Token) :
    (reconcileOrganizationTokenSystemBlocker env now t).holder = t.holder := reconcile_frame.1

theorem activeBlockers_reconcile (env : Sources) (now : Int) (t : Token) :
    (reconcileOrganizationTokenSystemBlocker env now t).activeBlockers = (t.clearStale env).activeBlockers := by
  rw [Token.activeBlockers, reconcile_frame.2]
  rfl

theorem stillActive_congr {t t' : Token} (h : t'.holder = t.holder) (env : Sources) (key : BlockerKey) :
    organizationTokenBlockerSourceStillActive env t' key = organizationTokenBlockerSourceStillActive env t key := by
  obtain ⟨horganization, huser, hresponsible, hdeleted⟩ : t'.organizationId = t.organizationId ∧ t'.userId = t.userId ∧
      t'.responsibleUserId = t.responsibleUserId ∧ t'.deleted = t.deleted := by
    simpa [Token.holder] using h
  have hmatches : organizationTokenBlockerMatchesCurrentResponsibility t' key =
      organizationTokenBlockerMatchesCurrentResponsibility t key := by
    simp only [organizationTokenBlockerMatchesCurrentResponsibility]
    rw [horganization, hdeleted, Token.responsible, huser, hresponsible, Token.responsible]
  unfold organizationTokenBlockerSourceStillActive
  rw [hmatches]

/-! ## The sources of blockers -/

inductive BlockerSource
  | disableRecord (recordId : Nat) (record : DisableRecord)
  | dissolved (organizationId : Nat)
  | disabledMember (member : Member)
  | disabledUser (userId : Nat)

namespace BlockerSource

def applies : BlockerSource → Token → Bool
  | disableRecord _ record, t => t.ofOrganization record.organizationId
  | dissolved organizationId, t => t.ofOrganization organizationId
  | disabledMember m, t => t.ofOrganization m.organizationId ∧ (t.userId = m.userId ∨ t.responsibleUserId = m.userId)
  | disabledUser userId, t => ¬t.deleted ∧ t.responsible = userId

def key : BlockerSource → Token → BlockerKey
  | disableRecord recordId record, _ => ⟨record.organizationId, record.source.reason, .disableRecord, recordId⟩
  | dissolved organizationId, _ => ⟨organizationId, .organizationDissolved, .organization, organizationId⟩
  | disabledMember m, _ => memberDisabledKey m.organizationId m.userId
  | disabledUser userId, t => ⟨t.organizationId, .userPlatformDisabled, .user, userId⟩

def operatorUserId : BlockerSource → Nat
  | disableRecord _ record => record.disabledByUserId
  | dissolved _ | disabledMember _ | disabledUser _ => 0

def clearanceLevel : BlockerSource → Nat
  | disableRecord _ record => record.source.clearance
  | dissolved _ => clearanceTerminal
  | disabledMember m => memberDisableClearance m.disabledSource
  | disabledUser _ => clearancePlatform

def meet (env : Sources) (now : Int) (t : Token) (source : BlockerSource) : Token :=
  if source.applies t then
    reconcileOrganizationTokenSystemBlocker env now
      (ensureOrganizationTokenSystemBlocker (source.key t) source.operatorUserId source.clearanceLevel now t)
  else t

theorem congr (source : BlockerSource) {t t' : Token} (h : t'.holder = t.holder) :
    source.applies t' = source.applies t ∧ source.key t' = source.key t := by
  obtain ⟨horganization, huser, hresponsible, hdeleted⟩ : t'.organizationId = t.organizationId ∧ t'.userId = t.userId ∧
      t'.responsibleUserId = t.responsibleUserId ∧ t'.deleted = t.deleted := by
    simpa [Token.holder] using h
  have hholds : t'.responsible = t.responsible := by
    rw [Token.responsible, huser, hresponsible, Token.responsible]
  constructor
  · cases source <;> simp [applies, Token.ofOrganization, hholds, horganization, huser, hresponsible, hdeleted]
  · cases source <;> simp [key, horganization]

@[simp] theorem holder_meet {env : Sources} {now : Int} {t : Token} {source : BlockerSource} :
    (meet env now t source).holder = t.holder := by
  unfold meet
  split_ifs <;> simp

end BlockerSource

/-- Everything that blocks keys, in the order in which it is gone through. -/
def Sources.blockerSources (env : Sources) : List BlockerSource :=
  (env.disableRecords.select DisableRecord.active).map (fun r => .disableRecord r.1 r.2) ++
    (env.organizations.select fun o => o.status = .dissolved).map (fun o => .dissolved o.1) ++
    (env.members.table.select fun m => m.status = .disabled).map (fun m => .disabledMember m.2) ++
    (env.users.select fun u => ¬u.enabled).map (fun u => .disabledUser u.1)

def Token.sweep (env : Sources) (now : Int) (t : Token) : Token :=
  if ¬t.deleted ∧ 0 < t.organizationId then reconcileOrganizationTokenSystemBlocker env now (t.clearStale env)
  else t.clearStale env

/-! ## The run at one key -/

variable {t t' : Token} {env : Sources} {key : BlockerKey} {clearanceLevel : Nat} {base : TokenStatus}
  {operatorUserId : Nat} {tokens : Table Token}

theorem get?_ensured (key : BlockerKey) (i : Nat) : (reconcileOrganizationTokenSystemBlockers env key.organizationId now
      (tokens.updateWhere (Token.ofOrganization key.organizationId)
        (ensureOrganizationTokenSystemBlocker key operatorUserId clearanceLevel now))).get? i =
      (tokens.get? i).map fun t => if t.ofOrganization key.organizationId then
        reconcileOrganizationTokenSystemBlocker env now
          (ensureOrganizationTokenSystemBlocker key operatorUserId clearanceLevel now t) else t := by
  rw [reconcileOrganizationTokenSystemBlockers, Table.get?_updateWhere, Table.get?_updateWhere, Option.map_map]
  congr 1
  funext t
  by_cases hof : t.ofOrganization key.organizationId = true
  · have hof' : (ensureOrganizationTokenSystemBlocker key operatorUserId clearanceLevel now t).ofOrganization
        key.organizationId = true := by
      rw [ofOrganization_iff, Token.deleted_ensure, organizationId_ensure]
      exact ofOrganization_iff.mp hof
    simp [hof, hof']
  · simp [hof]

theorem get?_disabled (env : Sources) (now : Int) (r : Nat × DisableRecord) (tokens : Table Token) (i : Nat) :
    (createOrganizationDisabledTokenBlockers env r.1 r.2 now tokens).get? i =
      (tokens.get? i).map fun t => BlockerSource.meet env now t (.disableRecord r.1 r.2) :=
  get?_ensured ⟨r.2.organizationId, r.2.source.reason, .disableRecord, r.1⟩ i

theorem get?_dissolved (env : Sources) (now : Int) (o : Nat × Organization) (tokens : Table Token) (i : Nat) :
    (createOrganizationDissolvedTokenBlockers env o.1 0 now tokens).get? i =
      (tokens.get? i).map fun t => BlockerSource.meet env now t (.dissolved o.1) :=
  get?_ensured ⟨o.1, .organizationDissolved, .organization, o.1⟩ i

theorem get?_disabledMember (env : Sources) (now : Int) (m : Nat × Member) (tokens : Table Token) (i : Nat) :
    (createOrganizationMemberDisabledTokenBlockers env m.2.organizationId m.2.userId 0 m.2.disabledSource now
      tokens).get? i = (tokens.get? i).map fun t => BlockerSource.meet env now t (.disabledMember m.2) := by
  rfl

theorem get?_disabledUser (env : Sources) (now : Int) (u : Nat × User) (tokens : Table Token) (i : Nat) :
    (createOrganizationUserPlatformDisabledTokenBlockers env u.1 0 now tokens).get? i =
      (tokens.get? i).map fun t => BlockerSource.meet env now t (.disabledUser u.1) := by
  rfl

theorem get?_sweep (env : Sources) (now : Int) (tokens : Table Token) (i : Nat) :
    (reconcileAllOrganizationTokenSystemBlockers env now
      (clearStaleOrganizationTokenSystemBlockers env tokens)).get? i =
      (tokens.get? i).map (Token.sweep env now) := by
  rw [reconcileAllOrganizationTokenSystemBlockers, clearStaleOrganizationTokenSystemBlockers, Table.get?_updateWhere,
    Table.get?_updateWhere, Option.map_map]
  congr 1
  funext t
  simp [Token.sweep, Token.clearStale]

variable {i : Nat}

theorem get?_foldl {α : Type} {f : Table Token → α → Table Token} {source : α → BlockerSource}
    (hf : ∀ tokens a, (f tokens a).get? i = (tokens.get? i).map fun t => BlockerSource.meet env now t (source a))
    (l : List α) (tokens : Table Token) : (l.foldl f tokens).get? i =
      (tokens.get? i).map fun t => (l.map source).foldl (BlockerSource.meet env now) t := by
  induction l generalizing tokens with
  | nil => simp
  | cons a l ih =>
    rw [List.foldl_cons, ih, hf, Option.map_map]
    rfl

theorem get?_reconcileAll (env : Sources) (now : Int) (tokens : Table Token) (i : Nat) :
    (reconcileOrganizationTokenBlockers env now tokens).get? i =
      (tokens.get? i).map fun t => (env.blockerSources.foldl (BlockerSource.meet env now) t).sweep env now := by
  unfold reconcileOrganizationTokenBlockers
  rw [get?_sweep, get?_foldl (fun tokens u => get?_disabledUser env now u tokens i),
    get?_foldl (fun tokens m => get?_disabledMember env now m tokens i),
    get?_foldl (fun tokens o => get?_dissolved env now o tokens i),
    get?_foldl (fun tokens r => get?_disabled env now r tokens i)]
  simp only [Option.map_map, Sources.blockerSources, List.foldl_append]
  rfl

/-! ## Sources that have their blocker -/

def Blocker.hasKey (key : BlockerKey) (b : Blocker) : Bool := b.toBlockerKey = key

/-- The blocker that `ensure` finds has the clearance. -/
def Token.Has (t : Token) (key : BlockerKey) (clearanceLevel : Nat) : Prop :=
  ∃ b, t.activeBlockers.find? (Blocker.hasKey key) = some b ∧ clearanceLevel ≤ b.clearanceLevel

theorem find?_isActive (t : Token) (key : BlockerKey) :
    t.blockers.find? (Blocker.isActive key) = t.activeBlockers.find? (Blocker.hasKey key) := by
  rw [Token.activeBlockers, find?_filter]
  congr 1
  funext b
  simp [Blocker.isActive, Blocker.hasKey]

def raise (operatorUserId clearanceLevel : Nat) (b : Blocker) : Blocker :=
  if b.clearanceLevel < clearanceLevel then
    { b with operatorUserId := operatorUserId, clearanceLevel := clearanceLevel }
  else b

theorem raise_frame (operatorUserId clearanceLevel : Nat) (b : Blocker) :
    (raise operatorUserId clearanceLevel b).toBlockerKey = b.toBlockerKey ∧
      (raise operatorUserId clearanceLevel b).active = b.active ∧
      b.clearanceLevel ≤ (raise operatorUserId clearanceLevel b).clearanceLevel ∧
      clearanceLevel ≤ (raise operatorUserId clearanceLevel b).clearanceLevel := by
  unfold raise
  split_ifs with hlt
  · exact ⟨rfl, rfl, hlt.le, le_rfl⟩
  · exact ⟨rfl, rfl, le_rfl, not_lt.mp hlt⟩

theorem ensure_of_found (hfound : t.blockers.any (Blocker.isActive key) = true) (operatorUserId clearanceLevel : Nat)
    (now : Int) : ensureOrganizationTokenSystemBlocker key operatorUserId clearanceLevel now t = { t with
        blockers := t.blockers.modify (t.blockers.findIdx (Blocker.isActive key))
          (raise operatorUserId clearanceLevel) } :=
  if_pos hfound

theorem ensure_of_not_found (hnone : ¬t.blockers.any (Blocker.isActive key) = true)
    (operatorUserId clearanceLevel : Nat) (now : Int) :
    ensureOrganizationTokenSystemBlocker key operatorUserId clearanceLevel now t =
      { t with
        blockers := t.blockers ++
          [{ toBlockerKey := key
             previousStatus := some (organizationTokenPreviousStatusForNewBlocker t)
             operatorUserId := operatorUserId
             clearanceLevel := clearanceLevel
             disabledAt := now }] } :=
  if_neg hnone

variable {p : Blocker → Bool} {l : List Blocker} {b : Blocker}

theorem find?_modify_raise (hp : ∀ b, p (raise operatorUserId clearanceLevel b) = p b) (n : Nat)
    (hb : l.find? p = some b) :
    ∃ b', (l.modify n (raise operatorUserId clearanceLevel)).find? p = some b' ∧ b.clearanceLevel ≤ b'.clearanceLevel ∧
      (n = l.findIdx p → clearanceLevel ≤ b'.clearanceLevel) := by
  induction l generalizing n with
  | nil => cases hb
  | cons x l ih =>
    obtain ⟨-, -, hle, hraised⟩ := raise_frame operatorUserId clearanceLevel x
    cases n with
    | zero =>
      rw [modify_zero_cons, find?_cons, hp]
      rw [find?_cons] at hb
      cases hx : p x with
      | true =>
        rw [hx] at hb
        cases hb
        exact ⟨_, rfl, hle, fun _ => hraised⟩
      | false =>
        rw [hx] at hb
        refine ⟨b, hb, le_rfl, fun hidx => ?_⟩
        rw [findIdx_cons, hx] at hidx
        cases hidx
    | succ n =>
      rw [modify_succ_cons, find?_cons]
      rw [find?_cons] at hb
      cases hx : p x with
      | true =>
        rw [hx] at hb
        cases hb
        refine ⟨b, rfl, le_rfl, fun hidx => ?_⟩
        rw [findIdx_cons, hx] at hidx
        cases hidx
      | false =>
        rw [hx] at hb
        obtain ⟨b', hb', hle', hidx'⟩ := ih n hb
        refine ⟨b', hb', hle', fun hidx => hidx' ?_⟩
        rw [findIdx_cons, hx] at hidx
        exact Nat.succ.inj hidx

theorem isActive_raise (b : Blocker) :
    Blocker.isActive key (raise operatorUserId clearanceLevel b) = Blocker.isActive key b := by
  obtain ⟨hkey, hactive, -, -⟩ := raise_frame operatorUserId clearanceLevel b
  simp [Blocker.isActive, hkey, hactive]

theorem has_iff : t.Has key clearanceLevel ↔
      ∃ b, t.blockers.find? (Blocker.isActive key) = some b ∧ clearanceLevel ≤ b.clearanceLevel := by
  rw [find?_isActive]
  rfl

theorem has_ensure_self :
    (ensureOrganizationTokenSystemBlocker key operatorUserId clearanceLevel now t).Has key clearanceLevel := by
  rw [has_iff]
  by_cases hfound : t.blockers.any (Blocker.isActive key) = true
  · rw [ensure_of_found hfound]
    obtain ⟨b, hb⟩ := isSome_iff_exists.mp (find?_isSome.mpr (any_eq_true.mp hfound))
    obtain ⟨b', hb', -, hraised⟩ := find?_modify_raise isActive_raise (t.blockers.findIdx (Blocker.isActive key)) hb
    exact ⟨b', hb', hraised rfl⟩
  · rw [ensure_of_not_found hfound]
    have hnone : t.blockers.find? (Blocker.isActive key) = none := by
      rw [find?_eq_none]
      exact fun b hb hactive => hfound (any_eq_true.mpr ⟨b, hb, hactive⟩)
    refine ⟨_, by simp only [find?_append, hnone]; exact find?_cons_of_pos (by simp [Blocker.isActive]), ?_⟩
    exact le_rfl

theorem Token.Has.ensure (h : t.Has key clearanceLevel) (key' : BlockerKey) (operatorUserId clearanceLevel' : Nat)
    (now : Int) :
    (ensureOrganizationTokenSystemBlocker key' operatorUserId clearanceLevel' now t).Has key clearanceLevel := by
  rw [has_iff] at h ⊢
  obtain ⟨b, hb, hle⟩ := h
  by_cases hfound : t.blockers.any (Blocker.isActive key') = true
  · rw [ensure_of_found hfound]
    obtain ⟨b', hb', hle', -⟩ := find?_modify_raise isActive_raise (t.blockers.findIdx (Blocker.isActive key')) hb
    exact ⟨b', hb', hle.trans hle'⟩
  · rw [ensure_of_not_found hfound]
    exact ⟨b, by simp [hb], hle⟩

theorem Token.Has.clearStale (h : t.Has key clearanceLevel)
    (hlive : organizationTokenBlockerSourceStillActive env t key = true) :
    (t.clearStale env).Has key clearanceLevel := by
  obtain ⟨b, hb, hle⟩ := h
  refine ⟨b, ?_, hle⟩
  rw [activeBlockers_clearStale, find?_filter, ← hb]
  congr 1
  funext b
  by_cases hkey : b.toBlockerKey = key
  · simp [hkey, hlive]
  · simp [Blocker.hasKey, hkey]

theorem Token.Has.reconcile (h : t.Has key clearanceLevel)
    (hlive : organizationTokenBlockerSourceStillActive env t key = true) (now : Int) :
    (reconcileOrganizationTokenSystemBlocker env now t).Has key clearanceLevel := by
  obtain ⟨b, hb, hle⟩ := h.clearStale hlive
  exact ⟨b, by rw [activeBlockers_reconcile]; exact hb, hle⟩

theorem modify_findIdx_self {f : Blocker → Blocker}
    (hb : l.find? p = some b) (hf : f b = b) : l.modify (l.findIdx p) f = l := by
  induction l with
  | nil => rfl
  | cons x l ih =>
    rw [find?_cons] at hb
    rw [findIdx_cons]
    cases hx : p x with
    | true =>
      rw [hx] at hb
      cases hb
      simp [hf]
    | false =>
      rw [hx] at hb
      simp [ih hb]

theorem Token.Has.ensure_eq (h : t.Has key clearanceLevel) (operatorUserId : Nat) (now : Int) :
    ensureOrganizationTokenSystemBlocker key operatorUserId clearanceLevel now t = t := by
  obtain ⟨b, hb, hle⟩ := has_iff.mp h
  have hfound : t.blockers.any (Blocker.isActive key) = true :=
    any_eq_true.mpr ⟨b, mem_of_find?_eq_some hb, find?_some hb⟩
  rw [ensure_of_found hfound]
  have hkept : raise operatorUserId clearanceLevel b = b := if_neg (not_lt.mpr hle)
  rw [modify_findIdx_self hb hkept]

/-! ## Stable keys -/

/-- The same key, up to the time of the update and to blockers that are not active. -/
structure Agrees (t t' : Token) : Prop where
  columns : { t' with updatedAt := t.updatedAt, blockers := t.blockers } = t
  active : t'.activeBlockers = t.activeBlockers

theorem Agrees.refl (t : Token) : Agrees t t := ⟨rfl, rfl⟩

theorem Agrees.eq (h : Agrees t t') : t' = { t with updatedAt := t'.updatedAt, blockers := t'.blockers } := by
  have hcolumns := h.columns
  rw [← hcolumns]

theorem Agrees.symm (h : Agrees t t') : Agrees t' t := ⟨h.eq.symm, h.active.symm⟩

theorem Agrees.trans {t'' : Token} (h : Agrees t t') (h' : Agrees t' t'') : Agrees t t'' := by
  refine ⟨?_, h'.active.trans h.active⟩
  rw [h'.eq, h.eq]

theorem Agrees.holder (h : Agrees t t') : t'.holder = t.holder := by
  rw [h.eq]
  rfl

/-- Reconciling, once the stale blockers are cleared. -/
def Token.settle (now : Int) (t : Token) : Token :=
  match t.activeBlockers with
  | [] => t.restore now
  | first :: rest => t.block now first rest

/-- The columns say what the blockers say. -/
def Token.Shown (t : Token) : Prop := ∀ now, Agrees t (t.settle now)

theorem Token.Shown.settle (h : t.Shown) (hagrees : Agrees t t') (now : Int) : Agrees t (t'.settle now) := by
  have hshown := h now
  obtain ⟨u, blockers, rfl⟩ : ∃ u blockers, t' = { t with updatedAt := u, blockers := blockers } :=
    ⟨_, _, hagrees.eq⟩
  unfold Token.settle at hshown ⊢
  rw [hagrees.active]
  cases hactive : t.activeBlockers with
  | nil =>
    rw [hactive] at hshown
    dsimp only at hshown ⊢
    unfold Token.restore at hshown ⊢
    dsimp only at hshown ⊢
    split_ifs at hshown ⊢
    · exact hagrees
    · exact ⟨hshown.columns, hagrees.active⟩
  | cons =>
    rw [hactive] at hshown
    exact ⟨hshown.columns, hagrees.active⟩

theorem Agrees.shown (h : Agrees t t') (hshown : t.Shown) : t'.Shown :=
  fun now => h.symm.trans (hshown.settle h now)

/-- Nothing is left of the time when the key was blocked. -/
def Token.Clean (t : Token) : Prop :=
  t.status = t.previousStatus.getD t.status ∧ ¬t.disabledBySystems ∧ t.systemDisabledReason = none ∧
    t.systemDisabledRefId = 0 ∧ t.systemDisabledAt = 0 ∧ t.previousStatus = none

theorem Token.Clean.restore (h : t.Clean) (now : Int) : t.restore now = t := if_pos h

theorem Token.clean_restore (t : Token) (now : Int) : (t.restore now).Clean := by
  unfold Token.restore
  dsimp only
  split_ifs with hclean
  · exact hclean
  · exact ⟨rfl, by simp, rfl, rfl, rfl, rfl⟩

theorem Token.Holds.shown (h : t.Holds base) (now : Int) : (t.settle now).Shown := by
  intro now'
  unfold Token.settle
  cases hactive : t.activeBlockers with
  | nil =>
    have hkept : (t.restore now).activeBlockers = [] := by
      unfold Token.restore
      dsimp only
      split_ifs <;> exact hactive
    rw [hkept]
    rw [(t.clean_restore now).restore now']
    exact .refl _
  | cons first rest =>
    have hkept : (t.block now first rest).activeBlockers = first :: rest := hactive
    rw [hkept]
    have hfirst : first.previousStatus = some base := h.carried first (by rw [hactive]; exact mem_cons_self)
    refine ⟨?_, hkept.symm ▸ hkept⟩
    simp [Token.block, hfirst]

structure Stable (env : Sources) (t : Token) : Prop where
  live : ∀ b ∈ t.activeBlockers, organizationTokenBlockerSourceStillActive env t b.toBlockerKey = true
  shown : t.Shown
  has : ∀ source ∈ env.blockerSources, source.applies t = true →
    organizationTokenBlockerSourceStillActive env t (source.key t) = true → t.Has (source.key t) source.clearanceLevel

theorem Stable.of_agrees (h : Stable env t) (hagrees : Agrees t t') : Stable env t' where
  live b hb := by
    rw [hagrees.active] at hb
    rw [stillActive_congr hagrees.holder]
    exact h.live b hb
  shown := hagrees.shown h.shown
  has source hsource happlies hlive := by
    obtain ⟨hsame, hkey⟩ := source.congr hagrees.holder
    rw [hsame] at happlies
    rw [stillActive_congr hagrees.holder, hkey] at hlive
    obtain ⟨b, hb, hle⟩ := h.has source hsource happlies hlive
    exact ⟨b, by rw [hagrees.active, hkey]; exact hb, hle⟩

/-- Of a stable key with more blockers, all of them stale, nothing but these is new. -/
theorem Stable.reconcile (h : Stable env t) (hcolumns : { t' with blockers := t.blockers } = t)
    (hactive : (t'.clearStale env).activeBlockers = t.activeBlockers) (now : Int) :
    Agrees t (reconcileOrganizationTokenSystemBlocker env now t') := by
  have hagrees : Agrees t (t'.clearStale env) := by
    refine ⟨?_, hactive⟩
    rw [← hcolumns]
    rfl
  exact h.shown.settle hagrees now

theorem filter_live (h : Stable env t) :
    (t.activeBlockers.filter fun b => organizationTokenBlockerSourceStillActive env t b.toBlockerKey) =
      t.activeBlockers :=
  filter_eq_self.mpr h.live

variable {source : BlockerSource}

theorem Stable.meet (h : Stable env t) (hsource : source ∈ env.blockerSources) (now : Int) :
    Agrees t (BlockerSource.meet env now t source) := by
  unfold BlockerSource.meet
  split_ifs with happlies
  · by_cases hlive : organizationTokenBlockerSourceStillActive env t (source.key t) = true
    · rw [(h.has source hsource happlies hlive).ensure_eq]
      refine h.reconcile rfl ?_ now
      rw [activeBlockers_clearStale, filter_live h]
    · -- Nothing stands behind the blocker for this key, so it is not there and goes as soon as it is made.
      have hnone : ¬t.blockers.any (Blocker.isActive (source.key t)) = true := by
        rw [List.any_eq_true]
        rintro ⟨b, hb, hactive⟩
        simp only [Blocker.isActive, decide_eq_true_eq] at hactive
        have hb' := h.live b (mem_filter.mpr ⟨hb, hactive.1⟩)
        rw [hactive.2] at hb'
        exact hlive hb'
      rw [ensure_of_not_found hnone]
      refine h.reconcile ?_ ?_ now
      · rfl
      · rw [activeBlockers_clearStale, Token.activeBlockers, filter_append, filter_append]
        have hlast : ∀ b : Blocker, b.toBlockerKey = source.key t →
            ([b].filter Blocker.active).filter
              (fun b => organizationTokenBlockerSourceStillActive env t b.toBlockerKey) = [] := by
          intro b hb
          rw [filter_eq_nil_iff]
          intro b' hb'
          rw [mem_singleton.mp (mem_filter.mp hb').1, hb]
          exact hlive
        exact (congrArg₂ List.append (filter_live h) (hlast _ rfl)).trans (append_nil _)
  · exact .refl t

theorem Stable.foldl (h : Stable env t) (now : Int) (l : List BlockerSource)
    (hl : ∀ source ∈ l, source ∈ env.blockerSources) : Agrees t (l.foldl (BlockerSource.meet env now) t) := by
  induction l generalizing t with
  | nil => exact .refl t
  | cons source l ih =>
    have hfirst := h.meet (hl source mem_cons_self) now
    have hrest := ih (h.of_agrees hfirst) fun source' hsource => hl source' (mem_cons_of_mem source hsource)
    exact hfirst.trans hrest

theorem Stable.sweep (h : Stable env t) (now : Int) : Agrees t (t.sweep env now) := by
  have hactive : (t.clearStale env).activeBlockers = t.activeBlockers := by
    rw [activeBlockers_clearStale, filter_live h]
  unfold Token.sweep
  split_ifs
  · refine h.reconcile ?_ ?_ now
    · rfl
    · rw [activeBlockers_clearStale, hactive]
      exact filter_live h
  · exact ⟨rfl, hactive⟩

/-! ## The first run -/

theorem holder_foldl (env : Sources) (now : Int) (l : List BlockerSource) (t : Token) :
    (l.foldl (BlockerSource.meet env now) t).holder = t.holder := by
  induction l generalizing t with
  | nil => rfl
  | cons _ l ih => rw [foldl_cons, ih, BlockerSource.holder_meet]

theorem Token.Has.meet (h : t.Has key clearanceLevel)
    (hlive : organizationTokenBlockerSourceStillActive env t key = true) (now : Int) (source : BlockerSource) :
    (BlockerSource.meet env now t source).Has key clearanceLevel := by
  unfold BlockerSource.meet
  split_ifs
  · refine (h.ensure _ _ _ now).reconcile ?_ now
    rw [stillActive_congr (holder_ensure ..)]
    exact hlive
  · exact h

theorem Token.Has.foldl (h : t.Has key clearanceLevel)
    (hlive : organizationTokenBlockerSourceStillActive env t key = true) (now : Int) (l : List BlockerSource) :
    (l.foldl (BlockerSource.meet env now) t).Has key clearanceLevel := by
  induction l generalizing t with
  | nil => exact h
  | cons source l ih =>
    refine ih (h.meet hlive now source) ?_
    rw [stillActive_congr (BlockerSource.holder_meet ..)]
    exact hlive

theorem has_foldl (now : Int) {l : List BlockerSource} (hsource : source ∈ l)
    (happlies : source.applies t = true)
    (hlive : organizationTokenBlockerSourceStillActive env t (source.key t) = true) :
    (l.foldl (BlockerSource.meet env now) t).Has (source.key t) source.clearanceLevel := by
  induction l generalizing t with
  | nil => cases hsource
  | cons first l ih =>
    have hholder : (BlockerSource.meet env now t first).holder = t.holder := BlockerSource.holder_meet
    have hlive' : organizationTokenBlockerSourceStillActive env (BlockerSource.meet env now t first) (source.key t) =
        true := by
      rw [stillActive_congr hholder]
      exact hlive
    rcases mem_cons.mp hsource with rfl | hsource
    · refine Token.Has.foldl ?_ hlive' now l
      rw [BlockerSource.meet, if_pos happlies]
      refine has_ensure_self.reconcile ?_ now
      rw [stillActive_congr (holder_ensure ..)]
      exact hlive
    · obtain ⟨hsame, hkey⟩ := source.congr hholder
      have hnext := ih hsource (hsame.trans happlies) (by rw [hkey]; exact hlive')
      rw [hkey] at hnext
      exact hnext

theorem Token.Holds.meet (h : t.Holds base) (env : Sources) (now : Int) (source : BlockerSource) :
    (BlockerSource.meet env now t source).Holds base := by
  unfold BlockerSource.meet
  split_ifs with happlies
  · refine ((h.ensure ?_ _ _ now).reconcile env now).toHolds
    cases source with
    | disableRecord | dissolved => exact (ofOrganization_iff.mp happlies).2.symm
    | disabledMember =>
      simp only [BlockerSource.applies, decide_eq_true_eq] at happlies
      exact (ofOrganization_iff.mp happlies.1).2.symm
    | disabledUser => rfl
  · exact h

theorem Token.Holds.foldl (h : t.Holds base) (env : Sources) (now : Int) (l : List BlockerSource) :
    (l.foldl (BlockerSource.meet env now) t).Holds base := by
  induction l generalizing t with
  | nil => exact h
  | cons source l ih => exact ih (h.meet env now source)

theorem stable_of_run (h : t.Holds base) (hlive : t.deleted = false) (hpos : 0 < t.organizationId) (env : Sources)
    (now : Int) : Stable env ((env.blockerSources.foldl (BlockerSource.meet env now) t).sweep env now) := by
  have hholder := holder_foldl env now env.blockerSources t
  generalize hmet : env.blockerSources.foldl (BlockerSource.meet env now) t = met
  rw [hmet] at hholder
  have hholds : met.Holds base := by
    rw [← hmet]
    exact h.foldl env now _
  have hsweep : met.sweep env now = reconcileOrganizationTokenSystemBlocker env now (met.clearStale env) := by
    have hsame : met.organizationId = t.organizationId ∧ met.userId = t.userId ∧
        met.responsibleUserId = t.responsibleUserId ∧ met.deleted = t.deleted := by
      simpa [Token.holder] using hholder
    rw [Token.sweep, if_pos ⟨by rw [hsame.2.2.2, hlive]; simp, by rw [hsame.1]; exact hpos⟩]
  have hswept : (met.sweep env now).holder = t.holder := by rw [hsweep]; simpa using hholder
  refine ⟨fun b hb => ?_, ?_, fun source hsource happlies hsourceLive => ?_⟩
  · rw [stillActive_congr (hswept.trans hholder.symm)]
    rw [hsweep, activeBlockers_reconcile, activeBlockers_clearStale] at hb
    exact (mem_filter.mp hb).2
  · rw [hsweep]
    exact ((hholds.clearStale env).clearStale env).shown now
  · obtain ⟨hsame, hkey⟩ := source.congr hswept
    rw [hsame] at happlies
    rw [stillActive_congr hswept, hkey] at hsourceLive
    have hhas : met.Has (source.key t) source.clearanceLevel := by
      rw [← hmet]
      exact has_foldl now hsource happlies hsourceLive
    have hlive' : organizationTokenBlockerSourceStillActive env met (source.key t) = true := by
      rw [stillActive_congr hholder]
      exact hsourceLive
    rw [hkey, hsweep]
    exact (hhas.clearStale hlive').reconcile (by rw [stillActive_congr (holder_clearStale ..)]; exact hlive') now

/-- A second run leaves the key as it is, up to the time of the update. -/
theorem reconcile_twice (h : t.Holds base) (hlive : t.deleted = false) (hpos : 0 < t.organizationId) (env : Sources)
    (ht : tokens.get? i = some t) (now now' : Int) :
    ∃ t1 t2, (reconcileOrganizationTokenBlockers env now tokens).get? i = some t1 ∧
      (reconcileOrganizationTokenBlockers env now' (reconcileOrganizationTokenBlockers env now tokens)).get? i =
        some t2 ∧ Agrees t1 t2 := by
  have hstable := stable_of_run h hlive hpos env now
  have hloop := hstable.foldl now' env.blockerSources fun _ hsource => hsource
  have hend := (hstable.of_agrees hloop).sweep now'
  refine ⟨_, _, by rw [get?_reconcileAll, ht]; rfl, ?_, hloop.trans hend⟩
  rw [get?_reconcileAll, get?_reconcileAll, ht]
  rfl

end CubeRouter.Organization
