import CubeRouter.Plugins.Registry

/-!
# Preflight and publication

`PreflightRoutingConflict` asks whether a plugin goes together with what serves now. The rebuild that publishes it tries
every stored plugin again, and an update that was held back comes before the plugin when its key is smaller. In a sound
registry such an update can get in only when what blocked it has the key of the new plugin, so that the answers agree
unless there is one (`preflight_admits`).
-/

namespace CubeRouter.Plugins

open Transition Strings Greedy List

/-! ## The order of the changed plugins -/

instance totalByKey : Std.Total fun p q : LoadedPlugin => p.key ≤ q.key := ⟨fun p q => le_total p.key q.key⟩

instance transByKey : IsTrans LoadedPlugin fun p q => p.key ≤ q.key := ⟨fun _ _ _ => le_trans⟩

theorem orderedCandidates_split {candidates : Layer} {current : Option RoutingGeneration} {p i : LoadedPlugin}
    (hp : p ∈ candidates.plugins) (hi : currentByKey current p.key = some i) (hne : i ≠ p) :
    ∃ before after, orderedCandidates candidates current = before ++ p :: after ∧
      ∀ a ∈ before, currentByKey current a.key = some a ∨
      (currentByKey current a.key).isSome = true ∧ a.key < p.key := by
  let unchanged := candidates.filter fun c => currentByKey current c.key = some c
  let changed := candidates.filter fun c => (currentByKey current c.key).any fun incumbent => incumbent ≠ c
  let new := candidates.filter fun c => (currentByKey current c.key).isNone
  have hchanged : p ∈ changed.sorted := by
    refine Layer.mem_sorted.mpr (mem_filter.mpr ⟨hp, ?_⟩)
    rw [hi]
    simpa using hne
  obtain ⟨before, after, hsplit⟩ := append_of_mem hchanged
  refine ⟨unchanged.sorted ++ before, after ++ new.sorted, ?_, fun a ha => ?_⟩
  · show unchanged.sorted ++ changed.sorted ++ new.sorted = _
    rw [hsplit]
    simp
  · rcases mem_append.mp ha with ha | ha
    · have hsame := (mem_filter.mp (Layer.mem_sorted.mp ha)).2
      exact .inl (by simpa using hsame)
    · have hmem : a ∈ changed.sorted := by
        rw [hsplit]
        exact mem_append_left _ ha
      have hany := (mem_filter.mp (Layer.mem_sorted.mp hmem)).2
      have hsorted : changed.sorted.Pairwise fun p q => p.key ≤ q.key := pairwise_insertionSort _ _
      have hnodup := changed.sorted_nodup
      rw [hsplit] at hsorted hnodup
      have hle : a.key ≤ p.key := (pairwise_append.mp hsorted).2.2 a ha p (by simp)
      rw [map_append, nodup_append] at hnodup
      have hkey : a.key ≠ p.key := hnodup.2.2 a.key (mem_map_of_mem ha) p.key (by simp)
      refine .inr ⟨?_, lt_of_le_of_ne hle hkey⟩
      cases hcurrent : currentByKey current a.key with
      | none => rw [hcurrent] at hany; cases hany
      | some => rfl

theorem preflight_ok {g g' : RoutingGeneration} (hg : Publishable g.plugins) {p : LoadedPlugin}
    (h : preflightRoutingConflict (some g) p = .ok g') :
    p.Consistent ∧ ∀ a ∈ g.plugins, a.key ≠ p.key → a.Compatible p := by
  have hclean := (build_isOk_iff _ _).mp ⟨g', h⟩
  have heffective : (g.plugins.foldl Layer.insert .empty).plugins = g.plugins := by
    rw [Layer.foldl_insert (by simpa [Layer.empty] using hg.nodup)]
    rfl
  have hmem : ∀ a, a = p ∨ a ∈ g.plugins ∧ a.key ≠ p.key →
      a ∈ ((g.plugins.foldl Layer.insert .empty).insert p).plugins := by
    intro a ha
    rw [Layer.mem_insert, heffective]
    exact ha
  refine ⟨hclean.sound p (hmem p (.inl rfl)), fun a ha hkey => ?_⟩
  have hne : a ≠ p := fun heq => hkey (by rw [heq])
  exact (hclean.coexists (hmem a (.inr ⟨ha, hkey⟩)) (hmem p (.inl rfl)) hne).2

/-! ## The rebuild -/

namespace Registry

variable {r : Registry}

/-- An update that was held back and that the rebuild tries before `p`, which does not serve yet: nothing that keeps
serving is in its way, and it is in the way of `p`. -/
structure GetsAhead (r : Registry) (p q : LoadedPlugin) : Prop where
  fresh : p ∉ r.generation.plugins
  stored : q ∈ r.candidates.plugins
  heldBack : q ∉ r.generation.plugins
  incumbent : ∃ i ∈ r.generation.plugins, i.key = q.key
  earlier : q.key < p.key
  consistent : q.Consistent
  unblocked : ∀ a ∈ r.candidates.plugins, a ∈ r.generation.plugins → a.key ≠ p.key → a.Compatible q
  conflict : ¬q.Compatible p

variable {p : LoadedPlugin}

theorem mem_candidates_insert (hmaster : r.masterEnabled = true)
    (hoverride : r.overrideEnabled = true) {c : LoadedPlugin} :
    c ∈ ({ r with override := r.override.insert p } : Registry).candidates.plugins ↔
      c = p ∨ c ∈ r.candidates.plugins ∧ c.key ≠ p.key := by
  simp only [candidates, effective, hmaster, hoverride, if_true, mem_effectivePlugins, true_and, forall_const]
  rw [Layer.mem_insert]
  constructor
  · rintro ((rfl | ⟨hc, hkey⟩) | ⟨hc, hfree⟩)
    · exact .inl rfl
    · exact .inr ⟨.inl hc, hkey⟩
    · have hkey : p.key ≠ c.key := hfree p (Layer.mem_insert.mpr (.inl rfl))
      refine .inr ⟨.inr ⟨hc, fun q hq => ?_⟩, hkey.symm⟩
      by_cases hqp : q.key = p.key
      · rw [hqp]
        exact hkey
      · exact hfree q (Layer.mem_insert.mpr (.inr ⟨hq, hqp⟩))
  · rintro (rfl | ⟨hc | ⟨hc, hfree⟩, hkey⟩)
    · exact .inl (.inl rfl)
    · exact .inl (.inr ⟨hc, hkey⟩)
    · refine .inr ⟨hc, fun q hq => ?_⟩
      rcases Layer.mem_insert.mp hq with rfl | ⟨hq, -⟩
      · exact hkey.symm
      · exact hfree q hq

section Retry

variable {p : LoadedPlugin} {number : Nat} {candidates : Layer} (hr : r.Sound)

include hr

theorem taken_of_serving {c : LoadedPlugin} (hc : c ∈ candidates.plugins) (hserves : c ∈ r.generation.plugins) :
    c ∈ taken number candidates (some r.generation) := by
  refine taken_of_unchanged (fun g hg => ?_) hc (currentByKey_eq_some hr.publishable.nodup hserves)
  cases hg
  exact hr.publishable

variable (hcandidates : ∀ c, c ∈ candidates.plugins ↔ c = p ∨ c ∈ r.candidates.plugins ∧ c.key ≠ p.key)

include hcandidates

/-- What did not serve was blocked, and still is unless the plugin in its way has the key of `p`. -/
theorem blocked_by_key {a : LoadedPlugin} (ha : a ∈ taken number candidates (some r.generation))
    (hkey : a.key ≠ p.key) (hout : a ∉ r.generation.plugins) : ∃ s ∈ r.generation.plugins, s.key = p.key := by
  have hstored : a ∈ r.candidates.plugins := by
    rcases (hcandidates a).mp (mem_candidates_of_taken ha) with rfl | ⟨hstored, -⟩
    · exact absurd rfl hkey
    · exact hstored
  rcases hr.blocked a hstored hout with hbad | ⟨s, hs, hserves, hconflict⟩
  · exact absurd (taken_publishable.sound a ha) hbad
  · refine ⟨s, hserves, ?_⟩
    by_contra hskey
    have htaken : s ∈ taken number candidates (some r.generation) :=
      taken_of_serving hr ((hcandidates s).mpr (.inr ⟨hs, hskey⟩)) hserves
    have hne : s ≠ a := fun heq => hout (heq ▸ hserves)
    exact hconflict (taken_publishable.coexists htaken ha hne)

/-- A taken update that conflicts with `p` gets ahead of it. -/
theorem getsAhead_of_taken {a : LoadedPlugin} (ha : a ∈ taken number candidates (some r.generation))
    (hfresh : p ∉ r.generation.plugins) (hout : a ∉ r.generation.plugins)
    (hincumbent : ∃ i ∈ r.generation.plugins, i.key = a.key) (hearlier : a.key < p.key)
    (hconflict : ¬a.Compatible p) : r.GetsAhead p a := by
  refine ⟨hfresh, ?_, hout, hincumbent, hearlier, taken_publishable.sound a ha, fun s hs hserves hkey => ?_, hconflict⟩
  · rcases (hcandidates a).mp (mem_candidates_of_taken ha) with rfl | ⟨hstored, -⟩
    · exact absurd rfl hearlier.ne
    · exact hstored
  · have htaken : s ∈ taken number candidates (some r.generation) :=
      taken_of_serving hr ((hcandidates s).mpr (.inr ⟨hs, hkey⟩)) hserves
    have hne : s ≠ a := fun heq => hout (heq ▸ hserves)
    exact (taken_publishable.coexists htaken ha hne).2

/-- A plugin that passed preflight is taken, unless an update gets ahead of it. -/
theorem taken_of_preflight (hconsistent : p.Consistent)
    (hfree : ∀ a ∈ r.generation.plugins, a.key ≠ p.key → a.Compatible p) (hahead : ∀ q, ¬r.GetsAhead p q) :
    p ∈ taken number candidates (some r.generation) := by
  have hp : p ∈ candidates.plugins := (hcandidates p).mpr (.inl rfl)
  cases hcurrent : currentByKey (some r.generation) p.key with
  | none =>
    -- `p` is new: nothing that was blocked can get in, so only what serves is in its way
    by_contra hout
    rcases blocked_of_not_taken hp hout with hbad | ⟨a, ha, hconflict⟩
    · exact hbad hconsistent
    · have hkey : a.key ≠ p.key := by
        intro hkey
        exact hout (Layer.eq_of_key (mem_candidates_of_taken ha) hp hkey ▸ ha)
      by_cases hserves : a ∈ r.generation.plugins
      · exact hconflict ⟨hkey, hfree a hserves hkey⟩
      · obtain ⟨s, hs, hskey⟩ := blocked_by_key hr hcandidates ha hkey hserves
        rw [← hskey, currentByKey_eq_some hr.publishable.nodup hs] at hcurrent
        cases hcurrent
  | some i =>
    by_cases hsame : i = p
    · subst hsame
      exact taken_of_serving hr hp (currentByKey_mem hcurrent).1
    · have hfresh : p ∉ r.generation.plugins := fun hp =>
        hsame (Option.some.inj (hcurrent.symm.trans (currentByKey_eq_some hr.publishable.nodup hp)))
      obtain ⟨before, _, hsplit, hbefore⟩ := orderedCandidates_split hp hcurrent hsame
      rw [taken, hsplit]
      refine mem_admitted_of_compatible (publishes_iff number) .nil hconsistent fun a ha => ?_
      have htaken : a ∈ taken number candidates (some r.generation) := by
        rw [taken, hsplit, admitted_append]
        exact subset_admitted _ _ ha
      have hin : a ∈ before := (mem_of_mem_admitted ha).resolve_left (by simp)
      have hkey : a.key ≠ p.key := by
        have hnodup := orderedCandidates_nodup candidates (some r.generation)
        rw [hsplit, map_append, nodup_append] at hnodup
        exact hnodup.2.2 a.key (mem_map_of_mem hin) p.key (by simp)
      refine ⟨hkey, ?_⟩
      by_cases hserves : a ∈ r.generation.plugins
      · exact hfree a hserves hkey
      · by_contra hconflict
        rcases hbefore a hin with hcurrent' | ⟨hsome, hearlier⟩
        · exact hserves (currentByKey_mem hcurrent').1
        · obtain ⟨j, hj⟩ := Option.isSome_iff_exists.mp hsome
          exact hahead a
            (getsAhead_of_taken hr hcandidates htaken hfresh hserves ⟨j, currentByKey_mem hj⟩ hearlier hconflict)

end Retry

theorem foldlM_collect {l : Layer} {ps : List LoadedPlugin} (h : ((l.plugins ++ ps).map LoadedPlugin.key).Nodup) :
    ps.foldlM collect l = .ok (ps.foldl Layer.insert l) := by
  induction ps generalizing l with
  | nil => rfl
  | cons q _ ih =>
    have hfresh : ∀ q' ∈ l.plugins, q'.key ≠ q.key := by
      intro q' hq'
      rw [map_append, nodup_append] at h
      exact h.2.2 q'.key (mem_map_of_mem hq') q.key (by simp)
    have hcollect : collect l q = .ok (l.insert q) := by
      rw [collect, Layer.get?_eq_none_iff.mpr hfresh]
      rfl
    rw [foldlM_cons, hcollect, foldl_cons]
    refine ih ?_
    rw [Layer.insert_of_absent hfresh]
    simpa using h

theorem foldlM_collect_plugins (l : Layer) : l.plugins.foldlM collect .empty = .ok l := by
  have hnodup : ((Layer.empty.plugins ++ l.plugins).map LoadedPlugin.key).Nodup := by simpa [Layer.empty] using l.nodup
  rw [foldlM_collect hnodup]
  refine congrArg _ (Layer.ext ?_)
  rw [Layer.foldl_insert hnodup]
  rfl

/-- The plugin is published: the generation serves it and reports no error of it. -/
def Admits (r : Registry) (p : LoadedPlugin) : Prop :=
  p.key ∉ r.routingErrors.map Prod.fst ∧ r.generation.byKey p.key = some p

theorem Sound.admits (hr : r.Sound) (hp : p ∈ r.candidates.plugins) (hserves : p ∈ r.generation.plugins) :
    r.Admits p := by
  refine ⟨fun hkey => ?_, (hr.byKey _ _).mpr ⟨hserves, rfl⟩⟩
  obtain ⟨c, hc, hout, hckey⟩ := (hr.errors _).mp hkey
  exact hout (Layer.eq_of_key hc hp hckey ▸ hserves)

theorem mem_of_samePluginMap {l : Layer} (h : samePluginMap l (l.insert p) = true) : p ∈ l.plugins := by
  rw [samePluginMap, decide_eq_true_eq] at h
  obtain ⟨hlength, hsame⟩ := h
  by_contra hout
  have habsent : ∀ q ∈ l.plugins, q.key ≠ p.key := by
    intro q hq hkey
    obtain ⟨hin, -⟩ := Layer.get?_eq_some_iff.mp (hsame q hq)
    have heq : q = p := Layer.eq_of_key hin (Layer.mem_insert.mpr (.inl rfl)) hkey
    exact hout (heq ▸ hq)
  rw [Layer.insert_of_absent habsent, length_append, length_singleton] at hlength
  omega

theorem Sound.serves_of_preflight (hr : r.Sound) (hp : p ∈ r.candidates.plugins) (hconsistent : p.Consistent)
    (hfree : ∀ a ∈ r.generation.plugins, a.key ≠ p.key → a.Compatible p) : p ∈ r.generation.plugins := by
  by_contra hout
  rcases hr.blocked p hp hout with hbad | ⟨a, ha, hserves, hconflict⟩
  · exact hbad hconsistent
  · by_cases hkey : a.key = p.key
    · exact hout (Layer.eq_of_key ha hp hkey ▸ hserves)
    · exact hconflict ⟨hkey, hfree a hserves hkey⟩

theorem Sound.replaceOverrides_admits (hr : r.Sound) (hmaster : r.masterEnabled = true)
    (hoverride : r.overrideEnabled = true) (hconsistent : p.Consistent)
    (hfree : ∀ a ∈ r.generation.plugins, a.key ≠ p.key → a.Compatible p) (hahead : ∀ q, ¬r.GetsAhead p q) :
    ∃ r', r.replaceOverrides (r.override.insert p).plugins = .ok r' ∧ r'.Admits p := by
  rw [Registry.replaceOverrides, foldlM_collect_plugins]
  simp only [bind, Except.bind, hoverride]
  split
  · rename_i hsame
    have hp : p ∈ r.candidates.plugins := by
      simp only [Registry.candidates, effective, hmaster, hoverride]
      exact mem_effectivePlugins.mpr (.inl ⟨rfl, mem_of_samePluginMap hsame⟩)
    exact ⟨r, rfl, hr.admits hp (hr.serves_of_preflight hp hconsistent hfree)⟩
  · have hcandidates := fun c => mem_candidates_insert hmaster hoverride (p := p) (c := c)
    obtain ⟨r', hr', generation, errors, rfl, h⟩ :=
      rebuild_ok { r with override := r.override.insert p } (r.override.insert p).keys
    have htaken : p ∈ taken (r.generation.number + 1) _ (some r.generation) :=
      taken_of_preflight hr hcandidates hconsistent hfree hahead
    rw [hoverride] at hr'
    exact ⟨_, hr', (Sound.of_rebuilt h).admits ((hcandidates p).mpr (.inl rfl)) (h.taken p htaken)⟩

end Registry

/-- In every reachable registry with both switches on, a plugin that passes preflight is admitted when the override
layer is published with it, unless an update that was held back gets ahead of it. -/
theorem preflight_admits (l : List Operation) (hmaster : (run Registry.step newRegistry l).masterEnabled = true)
    (hoverride : (run Registry.step newRegistry l).overrideEnabled = true) (p : LoadedPlugin) (g : RoutingGeneration)
    (hpreflight : preflightRoutingConflict (some (run Registry.step newRegistry l).generation) p = .ok g)
    (hahead : ∀ q, ¬(run Registry.step newRegistry l).GetsAhead p q) :
    ∃ r', (run Registry.step newRegistry l).replaceOverrides
        ((run Registry.step newRegistry l).override.insert p).plugins = .ok r' ∧ r'.Admits p := by
  have hr := Registry.sound_run l
  obtain ⟨hconsistent, hfree⟩ := preflight_ok hr.publishable hpreflight
  exact hr.replaceOverrides_admits hmaster hoverride hconsistent hfree hahead

/-! ## An update that gets ahead -/

def alpha : LoadedPlugin := provider 1 "a" [5]

def beta : LoadedPlugin := provider 2 "b" [6]

/-- It asks for the type of `beta`, and is held back. -/
def alphaUpdate : LoadedPlugin := provider 3 "a" [6, 7]

def betaUpdate : LoadedPlugin := provider 4 "b" [7]

def published : Registry := run Registry.step newRegistry [.replaceOverrides [alpha, beta]]

theorem preflight_admits_sample :
    ∃ r', published.replaceOverrides (published.override.insert betaUpdate).plugins = .ok r' ∧
    r'.Admits betaUpdate := by
  have hpreflight : (preflightRoutingConflict (some published.generation) betaUpdate).toBool = true := by decide +kernel
  obtain ⟨g, hg⟩ := toBool_eq_true_iff.mp hpreflight
  refine preflight_admits [.replaceOverrides [alpha, beta]] (by decide +kernel) (by decide +kernel) betaUpdate g hg
    fun q hq => ?_
  have hheld : q ∉ published.generation.plugins := hq.heldBack
  exact hheld hq.stored

def heldBack : Registry := run Registry.step newRegistry [.replaceOverrides [alpha, beta],
    .replaceOverrides [alphaUpdate, beta]]

/-- Preflight accepts the update of `beta`; publishing it lets the held-back update of `alpha` in, and neither the
update of `beta` nor `beta` itself serves. -/
theorem heldBack_update_gets_ahead : heldBack.masterEnabled = true ∧ heldBack.overrideEnabled = true ∧
      (∃ g, preflightRoutingConflict (some heldBack.generation) betaUpdate = .ok g) ∧
      ∃ r', heldBack.replaceOverrides (heldBack.override.insert betaUpdate).plugins = .ok r' ∧
        r'.routingErrors.map Prod.fst = ["b"] ∧ r'.generation.byKey "b" = none := by
  have hpreflight : (preflightRoutingConflict (some heldBack.generation) betaUpdate).toBool = true := by decide +kernel
  have hpublished : (heldBack.replaceOverrides (heldBack.override.insert betaUpdate).plugins).toOption.map
      (fun r => (r.routingErrors.map Prod.fst, r.generation.byKey "b")) = some (["b"], none) := by
    decide +kernel
  refine ⟨by decide +kernel, by decide +kernel, toBool_eq_true_iff.mp hpreflight, ?_⟩
  obtain ⟨r', hr', heq⟩ := Option.map_eq_some_iff.mp hpublished
  obtain ⟨herrors, hgone⟩ := Prod.ext_iff.mp heq
  exact ⟨r', toOption_eq_some.mp hr', herrors, hgone⟩

end CubeRouter.Plugins
