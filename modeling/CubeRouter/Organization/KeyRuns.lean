import CubeRouter.Organization.KeySteps

/-!
# The status of a key along a run

The status underneath a key changes in one way only: a key without blockers is enabled by hand
(`Event.enablesFree`). So the status at the end is decided by the status at the start, by whether there was such an
enabling, and by whether a blocker is active at the end, whatever the order in which blockers came and went.
-/

namespace CubeRouter.Organization

open Relational Transition

def System.blocked (s : System) (i : Nat) : Bool := (s.tokens.get? i).any fun t => t.activeBlockers ≠ []

/-- The key is enabled by hand while no blocker holds it. -/
def Event.enablesFree (s : System) (i : Nat) (e : Event) : Bool := e.enables s i && !s.blocked i

/-- The key is one of an organization and, unless it is deleted, settled over `base`. -/
def System.KeyOver (i : Nat) (base : TokenStatus) (s : System) : Prop :=
  ∃ t, s.tokens.get? i = some t ∧ 0 < t.organizationId ∧ (t.deleted = false → t.Settled base)

variable {s : System} {i : Nat}

theorem blocked_eq {t : Token} (ht : s.tokens.get? i = some t) : s.blocked i = true ↔ t.activeBlockers ≠ [] := by
  simp [System.blocked, ht]

theorem EnabledByHand.free {t t' : Token} (h : EnabledByHand t t') : t'.activeBlockers = [] := by
  obtain ⟨cleared, env, visibility, u, now, -, hfree, rfl⟩ := h
  let t1 : Token :=
    { cleared with
      status := .enabled, visibility := visibility, userId := u, responsibleUserId := u, updatedAt := now }
  have hstale : (t1.clearStale env).activeBlockers = [] := by
    rw [activeBlockers_clearStale]
    show cleared.activeBlockers.filter _ = []
    rw [hfree]
    rfl
  change (reconcileOrganizationTokenSystemBlocker env now t1).activeBlockers = []
  unfold reconcileOrganizationTokenSystemBlocker
  dsimp only
  rw [hstale]
  unfold Token.restore
  dsimp only
  split_ifs
  · exact hstale
  · exact hstale

theorem step_keyOver (config : Config) {base : TokenStatus} (h : s.KeyOver i base) (e : Event) :
    (s.step config e).KeyOver i (if e.enablesFree s i then .enabled else base) := by
  obtain ⟨t, ht, hpos, hsettled⟩ := h
  obtain ⟨t', ht', hchange⟩ := step_key config s e ht
  refine ⟨t', ht', ?_⟩
  have hblocked := blocked_eq ht
  split_ifs at hchange with henables
  · refine ⟨by rw [hchange.organizationId]; exact hpos, fun hlive => ?_⟩
    have hover := hchange.settled (hsettled (by rw [← hchange.deleted]; exact hlive))
    by_cases hfree : t.activeBlockers = []
    · rw [if_pos hfree] at hover
      have hnot : s.blocked i = false := by
        rw [← Bool.not_eq_true, hblocked]
        exact fun h => h hfree
      rw [if_pos (by simp [Event.enablesFree, henables, hnot])]
      exact hover
    · rw [if_neg hfree] at hover
      rw [if_neg (by simp [Event.enablesFree, hblocked.mpr hfree])]
      exact hover
  · refine ⟨by rw [hchange.organizationId]; exact hpos, fun hlive => ?_⟩
    rw [if_neg (by simp [Event.enablesFree, henables])]
    exact hchange.settled base hpos hlive (hsettled (hchange.live hlive))

/-- No key without blockers is enabled by hand along the run. -/
abbrev NoFreeEnabling (config : Config) (i : Nat) (s : System) (l : List Event) : Prop :=
  Along (System.step config) (fun s e => ¬e.enablesFree s i = true) s l

theorem run_keyOver (config : Config) {base : TokenStatus} (h : s.KeyOver i base) (l : List Event) :
    (run (System.step config) s l).KeyOver i (if NoFreeEnabling config i s l then base else .enabled) := by
  induction l generalizing s base with
  | nil =>
    exact h
  | cons e l ih =>
    have hnext := ih (step_keyOver config h e)
    by_cases hfree : e.enablesFree s i = true
    · rw [if_neg fun hl : NoFreeEnabling config i s (e :: l) => hl.1 hfree]
      split_ifs at hnext
      · exact hnext
      · exact hnext
    · rw [if_neg hfree] at hnext
      have hiff : NoFreeEnabling config i s (e :: l) ↔ NoFreeEnabling config i (s.step config e) l :=
        ⟨And.right, fun hl => ⟨hfree, hl⟩⟩
      simp only [hiff]
      exact hnext

end CubeRouter.Organization
