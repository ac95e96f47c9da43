import CubeRouter.Plugins.Registry

/-!
# The switches

A registration looks at the layers as the master switch and the disabled keys leave them at that moment, but the layers
keep the plugin for good. So the switches can bring two plugins together that no registration has compared. In a sound
registry there is no routing error exactly when the candidates are publishable (`Sound.whole_iff`), and all positions of
the switches are covered exactly when the complete layers are publishable with the override layer and without it
(`whole_of_turns_iff`).
-/

namespace CubeRouter.Plugins

open Transition Strings Greedy

/-- The layers are filled by registrations; the switches may be turned in between. -/
inductive Filling
  | register (plugin : LoadedPlugin) (factory : Bool)
  | switch (s : Switch)

namespace Registry

variable {r : Registry}

def fill (r : Registry) : Filling → Registry
  | .register plugin factory => r.step (.register plugin factory)
  | .switch s => r.step (.switch s)

/-- The published generation has every candidate and reports no error. -/
def Whole (r : Registry) : Prop :=
  r.routingErrors = [] ∧ ∀ c ∈ r.candidates.plugins, r.generation.byKey c.key = some c

/-- The layers are publishable in both positions of the override switch, with the disabled factory plugins among them.
-/
def Complete (r : Registry) : Prop := ∀ enabled, Publishable (effectivePlugins r.factory r.override enabled).plugins

theorem Sound.whole_iff (h : r.Sound) : r.Whole ↔ Publishable r.candidates.plugins := by
  constructor
  · rintro ⟨-, hserves⟩
    refine h.publishable.of_subset (fun _ _ hpq => hpq.symm) r.candidates.nodup.of_map fun c hc => ?_
    exact ((h.byKey _ _).mp (hserves c hc)).1
  · intro hclean
    have hserves : ∀ c ∈ r.candidates.plugins, c ∈ r.generation.plugins := by
      intro c hc
      by_contra hout
      rcases h.blocked c hc hout with hbad | ⟨a, ha, hin, hconflict⟩
      · exact hbad (hclean.sound c hc)
      · exact hconflict (hclean.coexists ha hc fun heq => hout (heq ▸ hin))
    refine ⟨?_, fun c hc => (h.byKey _ _).mpr ⟨hserves c hc, rfl⟩⟩
    rw [← List.map_eq_nil_iff, List.eq_nil_iff_forall_not_mem]
    intro key hkey
    obtain ⟨c, hc, hout, -⟩ := (h.errors key).mp hkey
    exact hout (hserves c hc)

/-! ## What the switches change -/

/-- What the switches leave alone, and their positions. -/
def settings (r : Registry) : Layer × Layer × List String × Bool × Bool :=
  (r.factory, r.override, r.disabledFactory, r.masterEnabled, r.overrideEnabled)

theorem rebuild_settings (next : Registry) (retainCurrent : List String) :
    ((next.rebuild retainCurrent).toOption.getD r).settings = next.settings := by
  obtain ⟨_, hr', _, _, rfl, -⟩ := next.rebuild_ok retainCurrent
  rfl

theorem setEnabled_settings (enabled : Bool) :
    (r.setEnabled enabled).settings = (r.factory, r.override, r.disabledFactory, enabled, r.overrideEnabled) := by
  unfold setEnabled
  split
  · rename_i hsame
    rw [settings, hsame]
  · exact rebuild_settings _ _

theorem setOverrideEnabled_settings (enabled : Bool) :
    (r.setOverrideEnabled enabled).settings = (r.factory, r.override, r.disabledFactory, r.masterEnabled, enabled) := by
  unfold setOverrideEnabled
  split
  · rename_i hsame
    rw [settings, hsame]
  · exact rebuild_settings _ _

theorem setDisabledFactoryKeys_settings (keys : List String) : ∃ disabled,
    (r.setDisabledFactoryKeys keys).settings = (r.factory, r.override, disabled, r.masterEnabled, r.overrideEnabled) ∧
      (keys = [] → disabled = []) := by
  unfold setDisabledFactoryKeys
  dsimp only
  split
  · rename_i hsame
    refine ⟨r.disabledFactory, rfl, ?_⟩
    rintro rfl
    exact List.length_eq_zero_iff.mp hsame.1.symm
  · refine ⟨disabledKeys keys, rebuild_settings _ _, ?_⟩
    rintro rfl
    rfl

theorem turn_layers (s : Switch) : (r.turn s).factory = r.factory ∧ (r.turn s).override = r.override := by
  cases s with
  | enabled position =>
    have h := setEnabled_settings (r := r) position
    simp only [settings, Prod.mk.injEq] at h
    exact ⟨h.1, h.2.1⟩
  | overrideEnabled position =>
    have h := setOverrideEnabled_settings (r := r) position
    simp only [settings, Prod.mk.injEq] at h
    exact ⟨h.1, h.2.1⟩
  | disabledFactoryKeys keys =>
    obtain ⟨_, h, -⟩ := setDisabledFactoryKeys_settings (r := r) keys
    simp only [settings, Prod.mk.injEq] at h
    exact ⟨h.1, h.2.1⟩

theorem Complete.turn (h : r.Complete) (s : Switch) : (r.turn s).Complete := by
  obtain ⟨hfactory, hoverride⟩ := turn_layers (r := r) s
  unfold Complete
  rw [hfactory, hoverride]
  exact h

theorem Complete.candidates (h : r.Complete) : Publishable r.candidates.plugins := by
  refine (h r.overrideEnabled).of_subset (fun _ _ hpq => hpq.symm) r.candidates.nodup.of_map fun c hc => ?_
  unfold Registry.candidates effective at hc
  split_ifs at hc with hmaster
  · rw [mem_effectivePlugins, mem_filterDisabledFactory] at hc
    rw [mem_effectivePlugins]
    exact hc.imp_right fun hfactory => ⟨hfactory.1.1, hfactory.2⟩
  · rw [mem_effectivePlugins] at hc
    rcases hc with ⟨-, hc⟩ | ⟨hc, -⟩ <;> cases hc

/-- The position in which all plugins of the layers are candidates. -/
def openAll (enabled : Bool) : List Switch := [.disabledFactoryKeys [], .overrideEnabled enabled, .enabled true]

theorem candidates_openAll (enabled : Bool) :
    (run turn r (openAll enabled)).candidates = effectivePlugins r.factory r.override enabled := by
  obtain ⟨_, h1, hdisabled⟩ := setDisabledFactoryKeys_settings (r := r) []
  have h2 := setOverrideEnabled_settings (r := r.setDisabledFactoryKeys []) enabled
  have h3 := setEnabled_settings (r := (r.setDisabledFactoryKeys []).setOverrideEnabled enabled) true
  rw [hdisabled rfl] at h1
  simp only [settings, Prod.mk.injEq] at h1 h2 h3
  obtain ⟨hfactory1, hoverride1, hdisabled1, -, -⟩ := h1
  obtain ⟨hfactory2, hoverride2, hdisabled2, -, hposition2⟩ := h2
  obtain ⟨hfactory3, hoverride3, hdisabled3, hmaster3, hposition3⟩ := h3
  simp [openAll, turn, Registry.candidates, effective, hfactory3, hoverride3, hdisabled3,
    hmaster3, hposition3, hfactory2,
    hoverride2, hdisabled2, hposition2, hfactory1, hoverride1, hdisabled1, filterDisabledFactory]

/-- Every later position of the switches is whole exactly when the complete layers are publishable. -/
theorem whole_of_turns_iff (hr : r.Sound) : (∀ switches, (run turn r switches).Whole) ↔ r.Complete := by
  have hsound : ∀ switches, (run turn r switches).Sound := run_invariant' (fun _ s h => h.turn s) hr
  constructor
  · intro h enabled
    have hopen := ((hsound (openAll enabled)).whole_iff).mp (h (openAll enabled))
    rwa [candidates_openAll] at hopen
  · intro h switches
    have hcomplete : (run turn r switches).Complete := run_invariant' (fun _ s h => h.turn s) h switches
    exact ((hsound switches).whole_iff).mpr hcomplete.candidates

end Registry

/-- A registration that succeeds leaves the complete layers publishable. -/
def Filling.LeavesComplete (r : Registry) : Filling → Prop
  | .register plugin factory => (∃ r', r.register plugin factory = .ok r') → (r.enter plugin factory).Complete
  | .switch _ => True

namespace Registry

variable {r : Registry}

theorem Sound.fill (hr : r.Sound) (f : Filling) : (r.fill f).Sound := by
  cases f with
  | register plugin factory => exact hr.register plugin factory
  | switch s => exact hr.turn s

theorem complete_fill_iff (hr : r.Complete) (f : Filling) : (r.fill f).Complete ↔ f.LeavesComplete r := by
  cases f with
  | switch s => exact iff_of_true (hr.turn s) trivial
  | register plugin factory =>
    show ((r.register plugin factory).toOption.getD r).Complete ↔ (_ → _)
    cases hregister : r.register plugin factory with
    | error =>
      refine iff_of_true hr ?_
      rintro ⟨r', hr'⟩
      cases hr'
    | ok =>
      obtain ⟨_, rfl, -, -⟩ := register_ok hregister
      exact ⟨fun h _ => h, fun h => h ⟨_, rfl⟩⟩

theorem complete_new : newRegistry.Complete := by
  intro enabled
  have hnil : (effectivePlugins newRegistry.factory newRegistry.override enabled).plugins = [] := by
    cases enabled <;> rfl
  rw [hnil]
  exact .nil

end Registry

/-- At every point of a run of registrations and switches, all later positions of the switches publish every candidate
without an error, exactly when each registration leaves the complete layers publishable. -/
theorem switches_keep_plugins_iff (l : List Filling) : (∀ done rest, l = done ++ rest → ∀ switches,
        (run Registry.turn (run Registry.fill newRegistry done) switches).Whole) ↔
      Along Registry.fill (fun r f => f.LeavesComplete r) newRegistry l := by
  refine always_iff_along (I := fun r : Registry => ∀ switches, (run Registry.turn r switches).Whole)
    (K := fun r => r.Sound ∧ r.Complete) ?_ ?_ ?_ ⟨Registry.sound_new, Registry.complete_new⟩
  · exact fun r hr => (Registry.whole_of_turns_iff hr.1).mpr hr.2
  · exact fun r f hr hf => ⟨hr.1.fill f, (Registry.complete_fill_iff hr.2 f).mpr hf⟩
  · intro r f hr
    rw [Registry.whole_of_turns_iff (hr.1.fill f)]
    exact Registry.complete_fill_iff hr.2 f

/-! ## Registrations behind the master switch -/

def firstProvider : LoadedPlugin := provider 1 "a" [8]

def secondProvider : LoadedPlugin := provider 2 "b" [8]

def quietRegistry : Registry := run Registry.fill newRegistry
  [.switch (.enabled false), .register firstProvider false, .register secondProvider false]

theorem quiet_registrations_conflict : quietRegistry.override.plugins = [firstProvider, secondProvider] ∧
      (quietRegistry.turn (.enabled true)).routingErrors.map Prod.fst = ["b"] := by
  decide +kernel

end CubeRouter.Plugins
