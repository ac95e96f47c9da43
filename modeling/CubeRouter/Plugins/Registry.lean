import CubeRouter.Plugins.Admission

/-!
# The registry of plugins

`pkg/jsplugin/registry.go`: the registry holds the two layers of plugins, the list of disabled factory keys and the two
switches, and publishes a generation after each change, under one mutex. `register` builds a generation of all plugins
in both positions of the override switch and fails on a conflict; the other operations tolerate conflicts and rebuild
by admission. While the master switch is off both build from empty layers.

Plugins are compiled before they come here, and no preparer is set. `Registry.Sound` is what every publication
establishes: the generation is publishable, a candidate that does not serve is blocked by one that does, and only such
candidates have a routing error.
-/

namespace CubeRouter.Plugins

open Transition Strings Greedy List

structure Registry where
  factory : Layer := .empty
  override : Layer := .empty
  disabledFactory : List String := []
  masterEnabled : Bool := true
  overrideEnabled : Bool := true
  generation : RoutingGeneration
  routingErrors : List (String × String) := []

inductive RegistryError
  | conflict (e : RoutingConflict)
  | rejected (reason : String)
  | duplicate (key : String)

def RegistryError.text : RegistryError → String
  | conflict e => e.text
  | rejected reason => reason
  | duplicate key => "duplicate override plugin key " ++ key.quote

def newRegistry : Registry where
  generation := (buildRoutingGeneration .empty .empty true 0).toOption.getD { number := 0 }

def Layer.keys (l : Layer) : List String := l.plugins.map LoadedPlugin.key

def filterDisabledFactory (factory : Layer) (disabled : List String) : Layer :=
  if disabled = [] then factory else factory.filter fun p => p.key ∉ disabled

def samePluginMap (left right : Layer) : Bool :=
  left.plugins.length = right.plugins.length ∧ ∀ p ∈ left.plugins, right.get? p.key = some p

namespace Registry

def prepareGeneration (r : Registry) (factory override : Layer) (enabled tolerateConflicts : Bool)
    (retainCurrent : List String) : Except RoutingConflict (RoutingGeneration × List (String × String)) := do
  let factory := if r.masterEnabled then factory else .empty
  let override := if r.masterEnabled then override else .empty
  let number := r.generation.number + 1
  if tolerateConflicts then
    buildRoutingGenerationAdmitting factory override enabled number (some r.generation) retainCurrent
  else
    let generation ← buildRoutingGeneration factory override enabled number
    let _ ← buildRoutingGeneration factory override (!enabled) number
    return (generation, [])

def publishGeneration (r : Registry) (generation : RoutingGeneration) (routingErrors : List (String × String)) :
    Registry :=
  { r with generation := generation, routingErrors := routingErrors }

/-- The registry with the plugin in one of its layers. -/
def enter (r : Registry) (plugin : LoadedPlugin) (factory : Bool) : Registry :=
  if factory then { r with factory := r.factory.insert plugin } else { r with override := r.override.insert plugin }

def register (r : Registry) (plugin : LoadedPlugin) (factory : Bool) : Except RegistryError Registry :=
  let next := r.enter plugin factory
  match next.prepareGeneration (filterDisabledFactory next.factory next.disabledFactory) next.override
      next.overrideEnabled false [] with
  | .error e => throw (.conflict e)
  | .ok (generation, routingErrors) =>
    match routingErrors.lookup plugin.key with
    | some rejection => throw (.rejected rejection)
    | none => return next.publishGeneration generation routingErrors

/-- The end of the operations that tolerate conflicts. -/
def rebuild (next : Registry) (retainCurrent : List String) : Except RegistryError Registry :=
  match next.prepareGeneration (filterDisabledFactory next.factory next.disabledFactory) next.override
      next.overrideEnabled true retainCurrent with
  | .error e => throw (.conflict e)
  | .ok (generation, routingErrors) => return next.publishGeneration generation routingErrors

def setEnabled (r : Registry) (enabled : Bool) : Registry :=
  if r.masterEnabled = enabled then r
  else
    let retainCurrent := if enabled && r.overrideEnabled then r.override.keys else []
    (rebuild { r with masterEnabled := enabled } retainCurrent).toOption.getD r

def setOverrideEnabled (r : Registry) (enabled : Bool) : Registry :=
  if r.overrideEnabled = enabled then r
  else
    let retainCurrent := if enabled then r.override.keys else []
    (rebuild { r with overrideEnabled := enabled } retainCurrent).toOption.getD r

def disabledKeys (keys : List String) : List String :=
  ((keys.map fun key => String.ofList (trimSpace (text key))).filter fun key => key ≠ "").dedup

def setDisabledFactoryKeys (r : Registry) (keys : List String) : Registry :=
  let next := disabledKeys keys
  if next.length = r.disabledFactory.length ∧ ∀ key ∈ next, key ∈ r.disabledFactory then r
  else
    let retainCurrent := if r.overrideEnabled then r.override.keys else []
    (rebuild { r with disabledFactory := next } retainCurrent).toOption.getD r

def unregister (r : Registry) (key : String) : Except RegistryError Registry :=
  if (r.override.get? key).isNone then return r
  else
    let overridePlugins := r.override.erase key
    let retainCurrent := if r.overrideEnabled then overridePlugins.keys else []
    rebuild { r with override := overridePlugins } retainCurrent

/-- One turn of the loop over the plugins to publish. -/
def collect (l : Layer) (plugin : LoadedPlugin) : Except RegistryError Layer :=
  if (l.get? plugin.key).isSome then throw (.duplicate plugin.key) else return l.insert plugin

def replaceOverrides (r : Registry) (plugins : List LoadedPlugin) : Except RegistryError Registry := do
  let overridePlugins ← plugins.foldlM collect .empty
  if samePluginMap r.override overridePlugins then return r
  let retainCurrent := if r.overrideEnabled then overridePlugins.keys else []
  rebuild { r with override := overridePlugins } retainCurrent

end Registry

inductive Switch
  | enabled (position : Bool)
  | overrideEnabled (position : Bool)
  | disabledFactoryKeys (keys : List String)

def Registry.turn (r : Registry) : Switch → Registry
  | .enabled position => r.setEnabled position
  | .overrideEnabled position => r.setOverrideEnabled position
  | .disabledFactoryKeys keys => r.setDisabledFactoryKeys keys

inductive Operation
  | register (plugin : LoadedPlugin) (factory : Bool)
  | replaceOverrides (plugins : List LoadedPlugin)
  | unregister (key : String)
  | switch (s : Switch)

/-- An operation that fails leaves the registry as it is. -/
def Registry.step (r : Registry) : Operation → Registry
  | .register plugin factory => (r.register plugin factory).toOption.getD r
  | .replaceOverrides plugins => (r.replaceOverrides plugins).toOption.getD r
  | .unregister key => (r.unregister key).toOption.getD r
  | .switch s => r.turn s

/-! ## The effective plugins -/

namespace Layer

variable {l m : Layer} {p : LoadedPlugin}

theorem mem_copy : p ∈ (l.copy m).plugins ↔ p ∈ m.plugins ∨ p ∈ l.plugins ∧ ∀ q ∈ m.plugins, q.key ≠ p.key := by
  obtain ⟨m, hm⟩ := m
  unfold copy
  induction m generalizing l with
  | nil => simp
  | cons q m ih =>
    rw [map_cons, nodup_cons] at hm
    have hfresh : ∀ q' ∈ m, q'.key ≠ q.key := fun q' hq' hkey => hm.1 (mem_map.mpr ⟨q', hq', hkey⟩)
    rw [foldl_cons, ih hm.2, mem_insert, mem_cons, forall_mem_cons]
    constructor
    · rintro (hp | ⟨rfl | ⟨hp, hkey⟩, hrest⟩)
      · exact .inl (.inr hp)
      · exact .inl (.inl rfl)
      · exact .inr ⟨hp, hkey.symm, hrest⟩
    · rintro ((rfl | hp) | ⟨hp, hkey, hrest⟩)
      · exact .inr ⟨.inl rfl, hfresh⟩
      · exact .inl hp
      · exact .inr ⟨.inr ⟨hp, hkey.symm⟩, hrest⟩

theorem foldl_insert {ps : List LoadedPlugin} (h : ((l.plugins ++ ps).map LoadedPlugin.key).Nodup) :
    (ps.foldl insert l).plugins = l.plugins ++ ps := by
  induction ps generalizing l with
  | nil => simp
  | cons q _ ih =>
    have hfresh : ∀ q' ∈ l.plugins, q'.key ≠ q.key := by
      intro q' hq'
      rw [map_append, nodup_append] at h
      exact h.2.2 q'.key (mem_map_of_mem hq') q.key (by simp)
    have hinsert := insert_of_absent hfresh
    rw [foldl_cons, ih (by rw [hinsert]; simpa using h), hinsert]
    simp

variable {key : String}

theorem get?_eq_none_iff : l.get? key = none ↔ ∀ q ∈ l.plugins, q.key ≠ key := by
  rw [get?, find?_eq_none]
  simp

theorem get?_eq_some_iff : l.get? key = some p ↔ p ∈ l.plugins ∧ p.key = key := by
  constructor
  · intro h
    exact ⟨mem_of_find?_eq_some h, by simpa using find?_some h⟩
  · rintro ⟨hp, rfl⟩
    cases hfound : l.get? p.key with
    | none => exact absurd rfl (get?_eq_none_iff.mp hfound p hp)
    | some q =>
      have hq : q.key = p.key := by simpa using find?_some hfound
      rw [eq_of_key (mem_of_find?_eq_some hfound) hp hq]

end Layer

variable {factory : Layer} {p : LoadedPlugin}

theorem mem_effectivePlugins {override : Layer} {enabled : Bool} :
    p ∈ (effectivePlugins factory override enabled).plugins ↔ enabled = true ∧ p ∈ override.plugins ∨
        p ∈ factory.plugins ∧ (enabled = true → ∀ q ∈ override.plugins, q.key ≠ p.key) := by
  have hempty : p ∈ (Layer.empty.copy factory).plugins ↔ p ∈ factory.plugins := by
    rw [Layer.mem_copy]
    simp [Layer.empty]
  unfold effectivePlugins
  cases enabled with
  | false => simpa using hempty
  | true =>
    simp only [if_true, true_and, forall_const]
    rw [Layer.mem_copy, hempty]

theorem mem_filterDisabledFactory {disabled : List String} :
    p ∈ (filterDisabledFactory factory disabled).plugins ↔ p ∈ factory.plugins ∧ p.key ∉ disabled := by
  unfold filterDisabledFactory
  split_ifs with h
  · simp [h]
  · simp [Layer.filter]

/-! ## What a publication establishes -/

/-- The plugins a generation is built from in a position of the override switch. -/
def Registry.effective (r : Registry) (enabled : Bool) : Layer :=
  effectivePlugins (if r.masterEnabled then filterDisabledFactory r.factory r.disabledFactory else .empty)
    (if r.masterEnabled then r.override else .empty) enabled

def Registry.candidates (r : Registry) : Layer := r.effective r.overrideEnabled

structure Registry.Sound (r : Registry) : Prop where
  publishable : Publishable r.generation.plugins
  byKey : ∀ key p, r.generation.byKey key = some p ↔ p ∈ r.generation.plugins ∧ p.key = key
  blocked : ∀ c ∈ r.candidates.plugins, c ∉ r.generation.plugins →
    ¬c.Consistent ∨ ∃ a ∈ r.candidates.plugins, a ∈ r.generation.plugins ∧ ¬a.Coexists c
  errors : ∀ key, key ∈ r.routingErrors.map Prod.fst ↔
    ∃ c ∈ r.candidates.plugins, c ∉ r.generation.plugins ∧ c.key = key

namespace Registry

variable {r r' : Registry}

theorem rebuild_ok (next : Registry) (retainCurrent : List String) : ∃ r', next.rebuild retainCurrent = .ok r' ∧
    ∃ generation errors, r' = next.publishGeneration generation errors ∧
      Rebuilt (next.generation.number + 1) next.candidates (some next.generation) retainCurrent generation errors := by
  obtain ⟨generation, errors, hbuild, hrebuilt⟩ := buildRoutingGenerationAdmitting_spec
    (if next.masterEnabled then filterDisabledFactory next.factory next.disabledFactory else .empty)
    (if next.masterEnabled then next.override else .empty) next.overrideEnabled (next.generation.number + 1)
    (some next.generation) retainCurrent
  refine ⟨_, ?_, generation, errors, rfl, hrebuilt⟩
  have hprepare : next.prepareGeneration (filterDisabledFactory next.factory next.disabledFactory) next.override
      next.overrideEnabled true retainCurrent = .ok (generation, errors) := hbuild
  rw [rebuild, hprepare]
  rfl

variable {next : Registry} {retainCurrent : List String} {generation : RoutingGeneration}

theorem Sound.of_rebuilt {current : Option RoutingGeneration} {number : Nat} {errors : List (String × String)}
    (h : Rebuilt number next.candidates current retainCurrent generation errors) :
    (next.publishGeneration generation errors).Sound := by
  have hserves : ∀ c ∈ next.candidates.plugins, c ∈ generation.plugins ↔ c ∈ taken number next.candidates current := by
    intro c hc
    rw [h.mem_taken hc, h.byKey]
    simp
  refine ⟨h.publishable, h.byKey, fun c hc hout => ?_, fun key => ?_⟩
  · rcases blocked_of_not_taken hc ((hserves c hc).not.mp hout) with hbad | ⟨a, ha, hconflict⟩
    · exact .inl hbad
    · exact .inr ⟨a, mem_candidates_of_taken ha, h.taken a ha, hconflict⟩
  · refine (h.errors key).trans (exists_congr fun c => and_congr_right fun hc => ?_)
    rw [← hserves c hc]
    rfl

theorem rebuild_sound : ((next.rebuild retainCurrent).toOption.getD r).Sound := by
  obtain ⟨_, hr', _, _, rfl, h⟩ := next.rebuild_ok retainCurrent
  rw [hr']
  exact .of_rebuilt h

theorem register_ok {plugin : LoadedPlugin} {factory : Bool} (h : r.register plugin factory = .ok r') :
    ∃ generation, r' = (r.enter plugin factory).publishGeneration generation [] ∧
      Serves generation (r.enter plugin factory).candidates.plugins ∧
      ∀ enabled, Publishable ((r.enter plugin factory).effective enabled).plugins := by
  generalize hnext : r.enter plugin factory = next at *
  rw [register, hnext] at h
  split at h
  · cases h
  · rename_i generation errors hok
    obtain ⟨g, hg, hok⟩ := bind_eq_ok.mp hok
    obtain ⟨g', hg', hok⟩ := bind_eq_ok.mp hok
    cases hok
    cases h
    refine ⟨generation, rfl, (serves_of_build hg).2, fun enabled => ?_⟩
    have hhere : Publishable (next.effective next.overrideEnabled).plugins := (build_isOk_iff _ _).mp ⟨generation, hg⟩
    have hthere := (build_isOk_iff _ _).mp ⟨g', hg'⟩
    cases enabled <;> cases hposition : next.overrideEnabled <;> rw [hposition] at hhere hthere
    · exact hhere
    · exact hthere
    · exact hthere
    · exact hhere

/-- Where all candidates serve, nothing is blocked. -/
theorem Sound.of_serves
    (h : Serves generation next.candidates.plugins) : (next.publishGeneration generation []).Sound where
  publishable := h.publishable
  byKey key p := (h.byKey key p).trans (and_congr_left fun _ => (h.mem p).symm)
  blocked c hc hout := absurd ((h.mem c).mpr hc) hout
  errors key := by
    refine iff_of_false (by simp [publishGeneration]) ?_
    rintro ⟨c, hc, hout, -⟩
    exact hout ((h.mem c).mpr hc)

theorem sound_new : newRegistry.Sound := by
  obtain ⟨g, hg⟩ := (build_isOk_iff (effectivePlugins .empty .empty true) 0).mpr .nil
  have hserves := (serves_of_build hg).2
  have hnew : newRegistry = newRegistry.publishGeneration g [] := by
    have hgeneration : newRegistry.generation = g := by
      rw [newRegistry, buildRoutingGeneration, hg]
      rfl
    rw [← hgeneration]
    rfl
  rw [hnew]
  exact .of_serves hserves

theorem Sound.turn (h : r.Sound) (s : Switch) : (r.turn s).Sound := by
  cases s with
  | enabled position =>
    show (setEnabled r position).Sound
    unfold setEnabled
    split
    · exact h
    · exact rebuild_sound
  | overrideEnabled position =>
    show (setOverrideEnabled r position).Sound
    unfold setOverrideEnabled
    split
    · exact h
    · exact rebuild_sound
  | disabledFactoryKeys keys =>
    show (setDisabledFactoryKeys r keys).Sound
    unfold setDisabledFactoryKeys
    dsimp only
    split
    · exact h
    · exact rebuild_sound

theorem Sound.register (h : r.Sound) (plugin : LoadedPlugin) (factory : Bool) :
    ((r.register plugin factory).toOption.getD r).Sound := by
  cases hregister : r.register plugin factory with
  | error => exact h
  | ok =>
    obtain ⟨_, rfl, hserves, -⟩ := register_ok hregister
    exact .of_serves hserves

theorem Sound.replaceOverrides (h : r.Sound) (plugins : List LoadedPlugin) :
    ((r.replaceOverrides plugins).toOption.getD r).Sound := by
  unfold Registry.replaceOverrides
  cases plugins.foldlM collect .empty with
  | error => exact h
  | ok =>
    simp only [bind, Except.bind]
    split
    · exact h
    · exact rebuild_sound

theorem Sound.unregister (h : r.Sound) (key : String) : ((r.unregister key).toOption.getD r).Sound := by
  unfold Registry.unregister
  split
  · exact h
  · exact rebuild_sound

theorem Sound.step (h : r.Sound) (op : Operation) : (r.step op).Sound := by
  cases op with
  | register plugin factory => exact h.register plugin factory
  | replaceOverrides plugins => exact h.replaceOverrides plugins
  | unregister key => exact h.unregister key
  | switch s => exact h.turn s

theorem sound_run (l : List Operation) : (run step newRegistry l).Sound :=
  run_invariant' (fun _ op h => h.step op) sound_new l

end Registry

end CubeRouter.Plugins
