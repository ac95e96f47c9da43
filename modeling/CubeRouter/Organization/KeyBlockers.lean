import Mathlib.Tactic.IntervalCases
import CubeRouter.Organization.ReconcileTwice

/-!
# Blockers compose and restore

A key of an organization starts without blockers, and any operations follow, in any order. While a blocker is active the
key is disabled. When the last one goes, the status is the one from before the first one came. What the status is at the
end does not depend on the order in which blockers came and went. And the second of two runs of
`ReconcileOrganizationTokenBlockers` changes nothing but the time of the update.
-/

namespace CubeRouter.Organization

open Relational Transition Option

/-- A key of an organization that no blocker holds. -/
structure System.FreeKey (s : System) (i : Nat) (t : Token) : Prop where
  get : s.tokens.get? i = some t
  live : t.deleted = false
  ofOrganization : 0 < t.organizationId
  free : t.activeBlockers = []
  restored : t.previousStatus = none

variable {s : System} {i : Nat} {t : Token} {base : TokenStatus} {config : Config}

theorem System.FreeKey.keyOver (h : s.FreeKey i t) : s.KeyOver i t.status := by
  refine ⟨t, h.get, h.ofOrganization, fun _ => ⟨⟨?_, ?_, ?_⟩,
    fun hblocked => absurd h.free hblocked, fun _ => h.restored⟩⟩
  · rw [h.free]
    simp
  · rw [h.free]
    simp
  · rw [Token.underlying, h.restored]
    rfl

/-- Over which status a key is settled, whatever the run. -/
theorem exists_keyOver (h : s.FreeKey i t) {l : List Event} : ∃ base, (run (System.step config) s l).KeyOver i base :=
  ⟨_, run_keyOver config h.keyOver l⟩

theorem System.KeyOver.settled (h : s.KeyOver i base) (ht : s.tokens.get? i = some t) (hlive : t.deleted = false) :
    t.Settled base := by
  obtain ⟨_, ht', -, hsettled⟩ := h
  obtain rfl := mem_unique ht' ht
  exact hsettled hlive

theorem System.KeyOver.pos (h : s.KeyOver i base) (ht : s.tokens.get? i = some t) : 0 < t.organizationId := by
  obtain ⟨_, ht', hpos, -⟩ := h
  obtain rfl := mem_unique ht' ht
  exact hpos

theorem System.KeyOver.of_free (h : s.KeyOver i base) (ht : s.tokens.get? i = some t) (hfree : t.activeBlockers = []) :
    s.KeyOver i t.status := by
  refine ⟨t, ht, h.pos ht, fun hlive => ?_⟩
  have hsettled := h.settled ht hlive
  rw [hsettled.status hfree]
  exact hsettled

/-- The key gets a blocker with the first of the events and has one until the last. -/
def BlockedWithin (config : Config) (i : Nat) (s : System) (during : List Event) : Prop :=
  2 ≤ during.length ∧ ∀ mid rest, during = mid ++ rest → mid ≠ [] → rest ≠ [] →
    (run (System.step config) s mid).blocked i = true

variable {during : List Event} {t₁ t₂ : Token}

/-- So it is not enabled by hand while it is free: it is blocked, or will be after the step. -/
theorem noFreeEnabling_of_blockedWithin (ht : s.tokens.get? i = some t)
    (h : BlockedWithin config i s during) : NoFreeEnabling config i s during := by
  refine along_of_split fun done e rest hsplit henables => ?_
  simp only [Event.enablesFree, Bool.and_eq_true, Bool.not_eq_true'] at henables
  by_cases hdone : done = []
  · subst hdone
    rw [run_nil] at henables
    obtain ⟨_, ht', hchange⟩ := step_key config s e ht
    rw [if_pos henables.1] at hchange
    have hrest : rest ≠ [] := by
      rintro rfl
      have hlength := h.1
      rw [hsplit] at hlength
      simp at hlength
    have hblocked := h.2 [e] rest hsplit (by simp) hrest
    exact (blocked_eq ht').mp hblocked hchange.free
  · have hblocked := h.2 done (e :: rest) hsplit hdone (by simp)
    rw [henables.2] at hblocked
    cases hblocked

theorem restored_after_blockers (h : s.KeyOver i base)
    (ht1 : s.tokens.get? i = some t₁) (hfree1 : t₁.activeBlockers = []) (hduring : BlockedWithin config i s during)
    (ht2 : (run (System.step config) s during).tokens.get? i = some t₂) (hlive : t₂.deleted = false)
    (hfree2 : t₂.activeBlockers = []) : t₂.status = t₁.status ∧ t₂.previousStatus = none := by
  have hover := run_keyOver config (h.of_free ht1 hfree1) during
  rw [if_pos (noFreeEnabling_of_blockedWithin ht1 hduring)] at hover
  have hsettled := hover.settled ht2 hlive
  exact ⟨hsettled.status hfree2, hsettled.free hfree2⟩

theorem Token.Settled.congr {t' : Token} (h : t.Settled base) (h' : t'.Settled base)
    (hfree : t.activeBlockers = [] ↔ t'.activeBlockers = []) :
    t.status = t'.status ∧ t.previousStatus = t'.previousStatus := by
  by_cases hempty : t.activeBlockers = []
  · rw [h.status hempty, h'.status (hfree.mp hempty), h.free hempty, h'.free (hfree.mp hempty)]
    exact ⟨rfl, rfl⟩
  · have hblocked := h.blocked hempty
    have hblocked' := h'.blocked fun he => hempty (hfree.mpr he)
    rw [hblocked.1, hblocked.2, hblocked'.1, hblocked'.2]
    exact ⟨rfl, rfl⟩

theorem agrees_of_two_runs (h : s.KeyOver i base) {now now' : Int}
    (ht1 : (s.step config (.reconcileOrganizationTokenBlockers now)).tokens.get? i = some t₁)
    (ht2 : ((s.step config (.reconcileOrganizationTokenBlockers now)).step config
      (.reconcileOrganizationTokenBlockers now')).tokens.get? i = some t₂)
      (hlive : t₁.deleted = false) : Agrees t₁ t₂ := by
  obtain ⟨t, ht, hpos, hsettled⟩ := h
  have hlive' : t.deleted = false := by
    obtain ⟨t', ht', hfollows⟩ := (follows_keyRelation.reconcileAll s.toSources now s.tokens).row i t ht
    obtain rfl := mem_unique ht' ht1
    exact hfollows.live hlive
  obtain ⟨t1', t2', ht1', ht2', hagrees⟩ :=
    reconcile_twice (hsettled hlive').toHolds hlive' hpos s.toSources ht now now'
  obtain rfl := mem_unique ht1' ht1
  obtain rfl := mem_unique ht2' ht2
  exact hagrees

theorem blockers_compose_and_restore (config : Config) (s : System) (i : Nat) (t : Token) (h : s.FreeKey i t) :
    (∀ l t', (run (System.step config) s l).tokens.get? i = some t' → t'.deleted = false →
      t'.activeBlockers ≠ [] → t'.status = .disabled) ∧
    (∀ before during t₁ t₂, (run (System.step config) s before).tokens.get? i = some t₁ → t₁.activeBlockers = [] →
      BlockedWithin config i (run (System.step config) s before) during →
      (run (System.step config) s (before ++ during)).tokens.get? i = some t₂ → t₂.deleted = false →
      t₂.activeBlockers = [] → t₂.status = t₁.status ∧ t₂.previousStatus = none) ∧
    (∀ l l' t₁ t₂, (run (System.step config) s l).tokens.get? i = some t₁ →
      (run (System.step config) s l').tokens.get? i = some t₂ → t₁.deleted = false → t₂.deleted = false →
      (NoFreeEnabling config i s l ↔ NoFreeEnabling config i s l') →
      (t₁.activeBlockers = [] ↔ t₂.activeBlockers = []) →
      t₁.status = t₂.status ∧ t₁.previousStatus = t₂.previousStatus) ∧
    (∀ l now now' t₁ t₂,
      (run (System.step config) s (l ++ [.reconcileOrganizationTokenBlockers now])).tokens.get? i = some t₁ →
      (run (System.step config) s (l ++ [.reconcileOrganizationTokenBlockers now,
        .reconcileOrganizationTokenBlockers now'])).tokens.get? i = some t₂ → t₁.deleted = false →
      { t₂ with updatedAt := t₁.updatedAt, blockers := t₁.blockers } = t₁ ∧
        t₂.activeBlockers = t₁.activeBlockers) := by
  refine ⟨fun l t' ht' hlive hblocked => ?_, fun before during t₁ t₂ ht1 hfree1 hduring ht2 hlive hfree2 => ?_,
    fun l l' t₁ t₂ ht1 ht2 hlive1 hlive2 henabling hfree => ?_, fun l now now' t₁ t₂ ht1 ht2 hlive => ?_⟩
  · obtain ⟨base, hover⟩ := exists_keyOver h
    exact ((hover.settled ht' hlive).blocked hblocked).1
  · obtain ⟨base, hover⟩ := exists_keyOver h
    rw [run_append] at ht2
    exact restored_after_blockers hover ht1 hfree1 hduring ht2 hlive hfree2
  · have hover := (run_keyOver config h.keyOver l).settled ht1 hlive1
    have hover' := (run_keyOver config h.keyOver l').settled ht2 hlive2
    simp only [henabling] at hover
    exact hover.congr hover' hfree
  · obtain ⟨_, hover⟩ := exists_keyOver h
    rw [run_append] at ht1 ht2
    have hagrees := agrees_of_two_runs hover ht1 ht2 hlive
    exact ⟨hagrees.columns, hagrees.active⟩

def exhaustedKey : Token where
  organizationId := 1
  userId := 1
  responsibleUserId := 1
  creatorUserId := 1
  status := .exhausted

def keySample : System :=
  { run (System.step sampleConfig) { users := sampleUsers } [.createOrganization 1 "acme" "acme"] with
    tokens := Table.empty.insert exhaustedKey }

def blockedTwice : List Event :=
  [.updateOrganizationToken ⟨1, 1, .management⟩ 1 { status := .value .disabled } 1000,
    .setOrganizationStatus ⟨3, 1, .admin⟩ .platform true "acme" 2000,
    .setOrganizationStatus ⟨3, 1, .admin⟩ .platform false "acme" 3000,
    .updateOrganizationToken ⟨1, 1, .management⟩ 1 { status := .value .enabled } 4000]

theorem keySample_freeKey : keySample.FreeKey 1 exhaustedKey :=
  ⟨by decide +kernel, rfl, by decide, rfl, rfl⟩

def keyAfter (l : List Event) : Token := ((run (System.step sampleConfig) keySample l).tokens.get? 1).getD exhaustedKey

theorem blockedTwice_blockedWithin : BlockedWithin sampleConfig 1 keySample blockedTwice := by
  refine ⟨by decide, fun mid rest hsplit hmid hrest => ?_⟩
  have htake : mid = blockedTwice.take mid.length := by rw [hsplit, List.take_left]
  have hpos : 0 < mid.length := List.length_pos_iff.mpr hmid
  have hlt : mid.length < 4 := by
    have hlength : mid.length + rest.length = 4 := by rw [← List.length_append, ← hsplit]; rfl
    have hpos' := List.length_pos_iff.mpr hrest
    omega
  rw [htake]
  generalize mid.length = n at hpos hlt
  interval_cases n <;> decide +kernel

def userFirst : List Event :=
  [.updateUserStatus 1 false 3 1000, .setOrganizationStatus ⟨3, 1, .admin⟩ .platform true "acme" 2000]

def reconciledOnce : List Event := userFirst ++ [.reconcileOrganizationTokenBlockers 3000]

def reconciledTwice : List Event :=
  userFirst ++ [.reconcileOrganizationTokenBlockers 3000, .reconcileOrganizationTokenBlockers 4000]

theorem blockers_compose_and_restore_sample : (keyAfter (blockedTwice.take 2)).status = .disabled ∧
    ((keyAfter blockedTwice).status = exhaustedKey.status ∧ (keyAfter blockedTwice).previousStatus = none) ∧
    ((keyAfter userFirst).status = (keyAfter userFirst.reverse).status ∧
      (keyAfter userFirst).previousStatus = (keyAfter userFirst.reverse).previousStatus) ∧
    (keyAfter reconciledTwice).activeBlockers = (keyAfter reconciledOnce).activeBlockers := by
  obtain ⟨hdisabled, hrestores, horder, hreconcile⟩ :=
    blockers_compose_and_restore sampleConfig keySample 1 exhaustedKey keySample_freeKey
  refine ⟨?_, ?_, ?_, ?_⟩
  · exact hdisabled (blockedTwice.take 2) _ (by decide +kernel) (by decide +kernel) (by decide +kernel)
  · exact hrestores [] blockedTwice exhaustedKey _ (by decide +kernel) (by decide +kernel) blockedTwice_blockedWithin
      (by decide +kernel) (by decide +kernel) (by decide +kernel)
  · exact horder userFirst userFirst.reverse _ _ (by decide +kernel) (by decide +kernel) (by decide +kernel)
      (by decide +kernel) (by decide +kernel) (by decide +kernel)
  · exact (hreconcile userFirst 3000 4000 _ _ (by decide +kernel) (by decide +kernel) (by decide +kernel)).2

/-- Of a blocked key the second run still writes the time of the update. -/
theorem second_reconcile_writes_updatedAt :
    ¬∀ (config : Config) (s : System) (i : Nat) (t : Token), s.FreeKey i t → ∀ l now now' t₁ t₂,
      (run (System.step config) s (l ++ [.reconcileOrganizationTokenBlockers now])).tokens.get? i = some t₁ →
      (run (System.step config) s (l ++ [.reconcileOrganizationTokenBlockers now,
        .reconcileOrganizationTokenBlockers now'])).tokens.get? i = some t₂ → t₁.deleted = false →
      { t₂ with blockers := t₁.blockers } = t₁ := by
  intro h
  have hsame := h sampleConfig keySample 1 exhaustedKey keySample_freeKey userFirst 3000 4000 (keyAfter reconciledOnce)
    (keyAfter reconciledTwice) (by decide +kernel) (by decide +kernel) (by decide +kernel)
  have hnot : (keyAfter reconciledTwice).updatedAt ≠ (keyAfter reconciledOnce).updatedAt := by decide +kernel
  generalize keyAfter reconciledTwice = t₂ at hsame hnot
  generalize keyAfter reconciledOnce = t₁ at hsame hnot
  have hupdated := congrArg Token.updatedAt hsame
  exact hnot hupdated

end CubeRouter.Organization
