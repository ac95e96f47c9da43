import CubeRouter.Plugins.Resources

/-!
# Admission to a generation

Both loops of `buildRoutingGenerationAdmitting` are greedy: the first over the candidates, the second over the plugins
that served the rejected keys. So what serves afterwards is `Greedy.admitted` run twice, and what the source promises
follows from the general facts about it.
-/

namespace CubeRouter.Plugins

open Transition Strings Greedy List Option

/-- The plugins can be published together, as a build decides it. -/
def publishes (number : Nat) (l : List LoadedPlugin) : Bool :=
  if h : (l.map LoadedPlugin.key).Nodup then (buildRoutingGenerationFromPlugins ⟨l, h⟩ number).toBool else false

variable {l done : List LoadedPlugin} {key : String} {i : LoadedPlugin}

theorem Publishable.nodup (h : Publishable l) : (l.map LoadedPlugin.key).Nodup :=
  pairwise_map.mpr (h.pairwise.imp fun hpq => hpq.1)

variable {p c : LoadedPlugin} {a : Admission} {g : RoutingGeneration}

theorem Publishable.coexists (h : Publishable l) {q : LoadedPlugin} (hp : p ∈ l) (hq : q ∈ l)
    (hne : p ≠ q) : p.Coexists q := by
  have hsymm : Std.Symm LoadedPlugin.Coexists := ⟨fun _ _ => .symm⟩
  exact h.pairwise.forall hp hq hne

theorem toBool_eq_true_iff {ε β : Type} {r : Except ε β} : r.toBool = true ↔ ∃ b, r = .ok b := by
  cases r <;> simp [Except.toBool]

theorem publishes_iff (number : Nat) (l : List LoadedPlugin) : publishes number l = true ↔ Publishable l := by
  unfold publishes
  split_ifs with h
  · rw [toBool_eq_true_iff, build_isOk_iff]
  · exact iff_of_false (by simp) fun hclean => h hclean.nodup

/-! ## Layers -/

namespace Layer

variable {l : Layer} {p : LoadedPlugin}

theorem ext {l' : Layer} (h : l.plugins = l'.plugins) : l = l' := by
  cases l
  cases l'
  cases h
  rfl

theorem erase_of_absent {key : String} (h : ∀ q ∈ l.plugins, q.key ≠ key) : l.erase key = l := by
  apply ext
  show l.plugins.filter _ = l.plugins
  rw [filter_eq_self]
  intro q hq
  simpa using h q hq

theorem insert_of_absent (h : ∀ q ∈ l.plugins, q.key ≠ p.key) : (l.insert p).plugins = l.plugins ++ [p] := by
  show (l.erase p.key).plugins ++ [p] = _
  rw [erase_of_absent h]

theorem erase_insert_of_absent (h : ∀ q ∈ l.plugins, q.key ≠ p.key) : (l.insert p).erase p.key = l := by
  apply ext
  show (l.insert p).plugins.filter _ = l.plugins
  rw [insert_of_absent h, filter_append, filter_eq_self.mpr fun q hq => by simpa using h q hq]
  simp

variable {q : LoadedPlugin}

theorem mem_insert : q ∈ (l.insert p).plugins ↔ q = p ∨ q ∈ l.plugins ∧ q.key ≠ p.key := by
  show q ∈ l.plugins.filter _ ++ [p] ↔ _
  simp [or_comm]

theorem eq_of_key (hp : p ∈ l.plugins) (hq : q ∈ l.plugins) (hkey : p.key = q.key) : p = q :=
  inj_on_of_nodup_map l.nodup hp hq hkey

end Layer

theorem publishes_append {l : Layer} (h : ∀ q ∈ l.plugins, q.key ≠ p.key) {number : Nat} :
    publishes number (l.plugins ++ [p]) = true ↔
    ∃ g, buildRoutingGenerationFromPlugins (l.insert p) number = .ok g := by
  rw [publishes_iff, build_isOk_iff, Layer.insert_of_absent h]

/-! ## The first loop -/

variable {number : Nat}

/-- What the first loop has come to after some of the candidates. -/
structure Admission.Tried (number : Nat) (a : Admission) (done : List LoadedPlugin) : Prop where
  accepted : a.accepted.plugins = admitted (publishes number) [] done
  generation : Serves a.generation a.accepted.plugins
  rejected : ∀ c, c ∈ a.rejected ↔ c ∈ done ∧ c ∉ a.accepted.plugins
  order : a.rejected.Sublist done
  errors : a.routingErrors.map Prod.fst = a.rejected.map LoadedPlugin.key

theorem Admission.Tried.attempt (h : a.Tried number done) (hc : ∀ q ∈ done, q.key ≠ c.key) :
    (a.attempt number c).Tried number (done ++ [c]) := by
  have hsub : ∀ q ∈ a.accepted.plugins, q ∈ done := by
    intro q hq
    rw [h.accepted] at hq
    exact (mem_of_mem_admitted hq).resolve_left (by simp)
  have habsent : ∀ q ∈ a.accepted.plugins, q.key ≠ c.key := fun q hq => hc q (hsub q hq)
  have hnew : c ∉ done := fun hin => hc c hin rfl
  have hinsert := Layer.insert_of_absent habsent
  have hloop : admitted (publishes number) [] (done ++ [c]) =
      if publishes number (a.accepted.plugins ++ [c]) then a.accepted.plugins ++ [c] else a.accepted.plugins := by
    rw [admitted_append, ← h.accepted, admitted]
    rfl
  unfold Admission.attempt
  split
  · rename_i trial htrial
    rw [if_pos ((publishes_append habsent).mpr ⟨trial, htrial⟩), ← hinsert] at hloop
    refine ⟨hloop.symm, (serves_of_build htrial).2, fun q => ?_, h.order.trans (sublist_append_left _ _), h.errors⟩
    rw [h.rejected, hinsert, mem_append, mem_append, mem_singleton]
    constructor
    · rintro ⟨hq, hout⟩
      refine ⟨.inl hq, ?_⟩
      rintro (hin | rfl)
      · exact hout hin
      · exact hnew hq
    · rintro ⟨hq | rfl, hout⟩
      · exact ⟨hq, fun hin => hout (.inl hin)⟩
      · exact absurd (.inr rfl) hout
  · rename_i e htrial
    have hrefused : ¬publishes number (a.accepted.plugins ++ [c]) = true := by
      rw [publishes_append habsent, htrial]
      simp
    rw [if_neg hrefused] at hloop
    have hback := Layer.erase_insert_of_absent habsent
    refine ⟨?_, ?_, fun q => ?_, h.order.append (Sublist.refl _), ?_⟩
    · rw [hback, hloop]
    · rw [hback]
      exact h.generation
    · rw [hback, mem_append, mem_append, mem_singleton, h.rejected]
      constructor
      · rintro (⟨hq, hout⟩ | rfl)
        · exact ⟨.inl hq, hout⟩
        · exact ⟨.inr rfl, fun hin => hnew (hsub q hin)⟩
      · rintro ⟨hq | rfl, hout⟩
        · exact .inl ⟨hq, hout⟩
        · exact .inr rfl
    · rw [map_append, map_append, h.errors]
      rfl

theorem Admission.Tried.foldl {rest : List LoadedPlugin} (h : a.Tried number done)
    (hnodup : ((done ++ rest).map LoadedPlugin.key).Nodup) :
    (rest.foldl (Admission.attempt number) a).Tried number (done ++ rest) := by
  induction rest generalizing a done with
  | nil => simpa using h
  | cons c rest ih =>
    have hc : ∀ q ∈ done, q.key ≠ c.key := by
      intro q hq
      rw [map_append, nodup_append] at hnodup
      exact hnodup.2.2 q.key (mem_map_of_mem hq) c.key (by simp)
    have hsplit : done ++ c :: rest = (done ++ [c]) ++ rest := by simp
    rw [hsplit] at hnodup ⊢
    exact ih (h.attempt hc) hnodup

/-! ## The order -/

variable (candidates : Layer) (current : Option RoutingGeneration)

theorem orderedCandidates_perm : (orderedCandidates candidates current).Perm candidates.plugins := by
  have hsorted : ∀ l : Layer, l.sorted.Perm l.plugins := fun l => perm_insertionSort _ _
  have hclasses : ∀ u c n : LoadedPlugin → Bool, (∀ p, c p = (!u p && !n p)) → (∀ p, n p = true → u p = false) →
      (candidates.plugins.filter u ++ candidates.plugins.filter c ++ candidates.plugins.filter n).Perm
        candidates.plugins := by
    intro u c n hc hn
    have hrest := filter_append_perm n (candidates.plugins.filter fun p => !u p)
    have hnew : (candidates.plugins.filter fun p => !u p).filter n = candidates.plugins.filter n := by
      rw [List.filter_filter]
      refine filter_congr fun p _ => ?_
      cases hp : n p <;> simp [hn p, hp]
    have hchanged : ((candidates.plugins.filter fun p => !u p).filter fun p => !n p) = candidates.plugins.filter c := by
      rw [List.filter_filter]
      refine filter_congr fun p _ => ?_
      rw [hc p, Bool.and_comm]
    rw [hnew, hchanged] at hrest
    rw [append_assoc]
    exact ((perm_append_comm.trans hrest).append_left _).trans (filter_append_perm u candidates.plugins)
  refine (((hsorted _).append (hsorted _)).append (hsorted _)).trans (hclasses _ _ _ (fun p => ?_) fun p hp => ?_)
  · cases hcurrent : currentByKey current p.key with
    | none | some => simp
  · rw [isNone_iff_eq_none] at hp
    simp [hp]

theorem mem_orderedCandidates : c ∈ orderedCandidates candidates current ↔ c ∈ candidates.plugins :=
  (orderedCandidates_perm candidates current).mem_iff

theorem orderedCandidates_nodup : ((orderedCandidates candidates current).map LoadedPlugin.key).Nodup :=
  ((orderedCandidates_perm candidates current).map _).nodup_iff.mpr candidates.nodup

variable {candidates current}

theorem currentByKey_mem (h : currentByKey current key = some p) :
    p ∈ current.elim [] RoutingGeneration.plugins ∧ p.key = key := by
  refine ⟨mem_reverse.mp (mem_of_find?_eq_some h), ?_⟩
  simpa using find?_some h

theorem currentByKey_eq_some (hg : (g.plugins.map LoadedPlugin.key).Nodup) (hp : p ∈ g.plugins) :
    currentByKey (some g) p.key = some p := by
  cases hfound : currentByKey (some g) p.key with
  | none =>
    have hnone := find?_eq_none.mp hfound p (mem_reverse.mpr hp)
    simp at hnone
  | some =>
    obtain ⟨hq, hkey⟩ := currentByKey_mem hfound
    rw [inj_on_of_nodup_map hg hq hp hkey]

/-! ## The candidates that are taken -/

def taken (number : Nat) (candidates : Layer) (current : Option RoutingGeneration) : List LoadedPlugin :=
  admitted (publishes number) [] (orderedCandidates candidates current)

theorem taken_publishable : Publishable (taken number candidates current) :=
  clean_admitted (publishes_iff number) .nil _

theorem mem_candidates_of_taken (h : c ∈ taken number candidates current) : c ∈ candidates.plugins := by
  rcases mem_of_mem_admitted h with h | h
  · cases h
  · exact (mem_orderedCandidates candidates current).mp h

theorem blocked_of_not_taken (hc : c ∈ candidates.plugins) (hout : c ∉ taken number candidates current) :
    ¬c.Consistent ∨ ∃ a ∈ taken number candidates current, ¬a.Coexists c :=
  blocked_of_not_mem_admitted (publishes_iff number) .nil ((mem_orderedCandidates candidates current).mpr hc) hout

/-- The candidates that serve already are tried first, and they go together. -/
theorem taken_of_unchanged (hcurrent : ∀ g, current = some g → Publishable g.plugins) (hc : c ∈ candidates.plugins)
    (hserves : currentByKey current c.key = some c) : c ∈ taken number candidates current := by
  let unchanged := candidates.filter fun c => currentByKey current c.key = some c
  have hmem : ∀ q ∈ unchanged.sorted, q ∈ current.elim [] RoutingGeneration.plugins := by
    intro q hq
    have hq := (mem_filter.mp (Layer.mem_sorted.mp hq)).2
    exact (currentByKey_mem (by simpa using hq)).1
  have hclean : Publishable unchanged.sorted := by
    cases current with
    | none =>
      have hnil : unchanged.sorted = [] := eq_nil_iff_forall_not_mem.mpr fun q hq => by simpa using hmem q hq
      rw [hnil]
      exact .nil
    | some g => exact (hcurrent g rfl).of_subset (fun _ _ h => h.symm) unchanged.sorted_nodup.of_map hmem
  have hfirst : admitted (publishes number) [] unchanged.sorted = unchanged.sorted :=
    admitted_of_clean (publishes_iff number) hclean
  have hc : c ∈ unchanged.sorted := Layer.mem_sorted.mpr (mem_filter.mpr ⟨hc, by simpa using hserves⟩)
  rw [taken, orderedCandidates, append_assoc, admitted_append, hfirst]
  exact subset_admitted _ _ hc

/-! ## The second loop -/

/-- The plugin that may take over from a rejected candidate. -/
def incumbentOf (current : Option RoutingGeneration) (retainCurrent : List String) (c : LoadedPlugin) :
    Option LoadedPlugin :=
  (currentByKey current c.key).filter fun incumbent => c.key ∈ retainCurrent ∧ incumbent ≠ c

variable {retainCurrent : List String}

theorem incumbentOf_eq_some (h : incumbentOf current retainCurrent c = some i) :
    currentByKey current c.key = some i ∧ c.key ∈ retainCurrent ∧ i ≠ c := by
  rw [incumbentOf, filter_eq_some_iff] at h
  simpa using h

theorem incumbentOf_serves (h : incumbentOf current retainCurrent c = some i) :
    ∃ g, current = some g ∧ i ∈ g.plugins ∧ i.key = c.key := by
  obtain ⟨hi, hkey⟩ := currentByKey_mem (incumbentOf_eq_some h).1
  cases current with
  | none => cases hi
  | some g => exact ⟨g, rfl, hi, hkey⟩

theorem fallback_spec {current : Option RoutingGeneration}
    (hserves : Serves a.generation a.accepted.plugins) (habsent : ∀ q ∈ a.accepted.plugins, q.key ≠ c.key) :
    let b := a.fallback number (currentByKey current) retainCurrent c
    b.accepted.plugins =
        admitted (publishes number) a.accepted.plugins (incumbentOf current retainCurrent c).toList ∧
      Serves b.generation b.accepted.plugins ∧ b.routingErrors = a.routingErrors := by
  unfold Admission.fallback incumbentOf
  cases hcurrent : currentByKey current c.key with
  | none => exact ⟨rfl, hserves, rfl⟩
  | some i =>
    have hkey := (currentByKey_mem hcurrent).2
    rw [← hkey] at habsent
    dsimp only
    split_ifs with hskip
    · have hnone : (some i).filter (fun i => decide (c.key ∈ retainCurrent ∧ i ≠ c)) = none := by
        rw [filter_eq_none_iff]
        intro j hj
        cases hj
        rw [decide_eq_true_eq]
        tauto
      rw [hnone]
      exact ⟨rfl, hserves, rfl⟩
    · have hsome : (some i).filter (fun i => decide (c.key ∈ retainCurrent ∧ i ≠ c)) = some i := by
        rw [filter_eq_some_iff, decide_eq_true_eq]
        tauto
      rw [hsome, toList_some, admitted]
      split
      · rename_i trial htrial
        rw [if_pos ((publishes_append habsent).mpr ⟨trial, htrial⟩)]
        exact ⟨Layer.insert_of_absent habsent, (serves_of_build htrial).2, rfl⟩
      · rename_i e htrial
        have hrefused : ¬publishes number (a.accepted.plugins ++ [i]) = true := by
          rw [publishes_append habsent, htrial]
          simp
        rw [if_neg hrefused]
        have hback := Layer.erase_insert_of_absent habsent
        rw [hkey] at hback
        rw [hback]
        exact ⟨rfl, hserves, rfl⟩

theorem foldl_fallback {current : Option RoutingGeneration}
    (hserves : Serves a.generation a.accepted.plugins) {rejected : List LoadedPlugin}
    (hnodup : (rejected.map LoadedPlugin.key).Nodup)
    (habsent : ∀ c ∈ rejected, ∀ q ∈ a.accepted.plugins, q.key ≠ c.key) :
    let b := rejected.foldl (Admission.fallback number (currentByKey current) retainCurrent) a
    b.accepted.plugins = admitted (publishes number) a.accepted.plugins
        (rejected.filterMap (incumbentOf current retainCurrent)) ∧
      Serves b.generation b.accepted.plugins ∧ b.routingErrors = a.routingErrors := by
  induction rejected generalizing a with
  | nil => exact ⟨rfl, hserves, rfl⟩
  | cons c rejected ih =>
    rw [map_cons, nodup_cons] at hnodup
    rw [forall_mem_cons] at habsent
    obtain ⟨haccepted, hserves', herrors⟩ := fallback_spec hserves habsent.1
    have hrest : ∀ d ∈ rejected, ∀ q ∈ (a.fallback number (currentByKey current) retainCurrent c).accepted.plugins,
        q.key ≠ d.key := by
      intro d hd q hq
      rw [haccepted] at hq
      rcases mem_of_mem_admitted hq with hq | hq
      · exact habsent.2 d hd q hq
      · obtain ⟨-, -, -, hqkey⟩ := incumbentOf_serves (mem_toList.mp hq)
        rw [hqkey]
        intro hkey
        exact hnodup.1 (mem_map.mpr ⟨d, hd, hkey.symm⟩)
    obtain ⟨haccepted', hserves'', herrors'⟩ := ih hserves' hnodup.2 hrest
    refine ⟨?_, hserves'', herrors'.trans herrors⟩
    rw [foldl_cons, haccepted', haccepted, ← admitted_append]
    cases hincumbent : incumbentOf current retainCurrent c with
    | none => rw [filterMap_cons_none hincumbent]; rfl
    | some => rw [filterMap_cons_some hincumbent]; rfl

/-! ## What a rebuild publishes -/

/-- The outcome of a rebuild. -/
structure Rebuilt (number : Nat) (candidates : Layer) (current : Option RoutingGeneration) (retainCurrent : List String)
    (g : RoutingGeneration) (errors : List (String × String)) : Prop where
  publishable : Publishable g.plugins
  byKey : ∀ key p, g.byKey key = some p ↔ p ∈ g.plugins ∧ p.key = key
  taken : ∀ c ∈ taken number candidates current, c ∈ g.plugins
  plugins : ∀ p ∈ g.plugins, p ∈ Plugins.taken number candidates current ∨
    ∃ c ∈ candidates.plugins, c ∉ Plugins.taken number candidates current ∧
      incumbentOf current retainCurrent c = some p
  errors : ∀ key, key ∈ errors.map Prod.fst ↔
    ∃ c ∈ candidates.plugins, c ∉ Plugins.taken number candidates current ∧ c.key = key
  retained : (∀ g, current = some g → Publishable g.plugins) → ∀ c ∈ candidates.plugins,
    c ∉ Plugins.taken number candidates current → ∀ i, incumbentOf current retainCurrent c = some i →
      (∀ a ∈ Plugins.taken number candidates current, a.Coexists i) → i ∈ g.plugins

theorem buildRoutingGenerationAdmitting_spec (factory override : Layer) (overrideEnabled : Bool) (number : Nat)
    (current : Option RoutingGeneration) (retainCurrent : List String) : ∃ g errors,
      buildRoutingGenerationAdmitting factory override overrideEnabled number current retainCurrent = .ok (g, errors) ∧
        Rebuilt number (effectivePlugins factory override overrideEnabled) current retainCurrent g errors := by
  let candidates := effectivePlugins factory override overrideEnabled
  let ordered := orderedCandidates candidates current
  obtain ⟨start, hstart⟩ := (build_isOk_iff .empty number).mpr Clean.nil
  have hstartServes := (serves_of_build hstart).2
  let first := ordered.foldl (Admission.attempt number) { generation := start }
  have hfirst : first.Tried number ordered := by
    have hbegin : Admission.Tried number { generation := start } [] :=
      ⟨rfl, hstartServes, by simp, .slnil, rfl⟩
    exact hbegin.foldl (orderedCandidates_nodup candidates current)
  have htaken : first.accepted.plugins = taken number candidates current := hfirst.accepted
  have hrejected : ∀ c, c ∈ first.rejected ↔ c ∈ candidates.plugins ∧ c ∉ taken number candidates current := by
    intro c
    rw [hfirst.rejected, htaken, mem_orderedCandidates]
  have hkeys : (first.rejected.map LoadedPlugin.key).Nodup :=
    (orderedCandidates_nodup candidates current).sublist (hfirst.order.map _)
  have habsent : ∀ c ∈ first.rejected, ∀ q ∈ first.accepted.plugins, q.key ≠ c.key := by
    intro c hc q hq hkey
    obtain ⟨hcandidate, hout⟩ := (hrejected c).mp hc
    rw [htaken] at hq
    exact hout (Layer.eq_of_key (mem_candidates_of_taken hq) hcandidate hkey ▸ hq)
  obtain ⟨haccepted, hserves, herrors⟩ := foldl_fallback hfirst.generation hkeys habsent
  have hmem : ∀ p, p ∈ (first.rejected.filterMap (incumbentOf current retainCurrent)) ↔
      ∃ c ∈ candidates.plugins, c ∉ taken number candidates current ∧ incumbentOf current retainCurrent c = some p := by
    intro p
    rw [mem_filterMap]
    refine exists_congr fun c => ?_
    rw [hrejected, and_assoc]
  rw [htaken] at haccepted
  refine ⟨_, _, bind_eq_ok.mpr ⟨start, hstart, rfl⟩, hserves.publishable, fun key p => ?_,
    fun c hc => ?_, fun p hp => ?_,
    fun key => ?_, fun hcurrent c hc hout i hi hcoexists => ?_⟩
  · rw [hserves.byKey, hserves.mem]
  · rw [hserves.mem, haccepted]
    exact subset_admitted _ _ hc
  · rw [hserves.mem, haccepted] at hp
    exact (mem_of_mem_admitted hp).imp_right (hmem p).mp
  · rw [herrors, hfirst.errors, List.mem_map]
    refine exists_congr fun c => ?_
    rw [hrejected, and_assoc]
  · -- an incumbent that is left out is in the way of another incumbent, but these have served together
    rw [hserves.mem, haccepted]
    by_contra hleft
    obtain ⟨g, rfl, hig, -⟩ := incumbentOf_serves hi
    have hclean := hcurrent g rfl
    rcases blocked_of_not_mem_admitted (publishes_iff number) taken_publishable
      ((hmem i).mpr ⟨c, hc, hout, hi⟩) hleft with
      hbad | ⟨a, ha, hconflict⟩
    · exact hbad (hclean.sound i hig)
    · rcases mem_of_mem_admitted ha with htook | hfell
      · exact hconflict (hcoexists a htook)
      · obtain ⟨d, -, -, hd⟩ := (hmem a).mp hfell
        obtain ⟨_, hg', hag, -⟩ := incumbentOf_serves hd
        cases hg'
        have hne : a ≠ i := fun heq => hleft (heq ▸ ha)
        exact hconflict (hclean.coexists hag hig hne)

theorem Rebuilt.mem_taken {errors : List (String × String)}
    (h : Rebuilt number candidates current retainCurrent g errors) (hc : c ∈ candidates.plugins) :
    c ∈ Plugins.taken number candidates current ↔ g.byKey c.key = some c := by
  refine ⟨fun hin => (h.byKey _ _).mpr ⟨h.taken c hin, rfl⟩, fun hserved => ?_⟩
  rcases h.plugins c ((h.byKey _ _).mp hserved).1 with hin | ⟨d, hd, -, hincumbent⟩
  · exact hin
  · obtain ⟨-, -, -, hkey⟩ := incumbentOf_serves hincumbent
    exact absurd (Layer.eq_of_key hc hd hkey) (incumbentOf_eq_some hincumbent).2.2

/-- The generation comes from an earlier rebuild. -/
def RoutingGeneration.Rebuild (g : RoutingGeneration) : Prop :=
  ∃ factory override overrideEnabled number current retainCurrent errors,
    buildRoutingGenerationAdmitting factory override overrideEnabled number current retainCurrent = .ok (g, errors)

theorem RoutingGeneration.Rebuild.publishable (h : g.Rebuild) : Publishable g.plugins := by
  obtain ⟨factory, override, overrideEnabled, number, current, retainCurrent, _, h⟩ := h
  obtain ⟨g', errors', hbuild, hrebuilt⟩ :=
    buildRoutingGenerationAdmitting_spec factory override overrideEnabled number current retainCurrent
  rw [hbuild] at h
  cases h
  exact hrebuilt.publishable

/-- A rebuild admits no conflict, keeps the plugins that did not change, names those it leaves out, and lets the plugin
that served a rejected key go on where no admitted plugin is in its way. -/
theorem rebuild_keeps_working_plugins (factory override : Layer) (overrideEnabled : Bool) (number : Nat)
    (current : Option RoutingGeneration) (retainCurrent : List String)
    (hcurrent : ∀ g, current = some g → g.Rebuild) : ∃ g errors,
      buildRoutingGenerationAdmitting factory override overrideEnabled number current retainCurrent = .ok (g, errors) ∧
        (∀ p ∈ g.plugins, ∀ q ∈ g.plugins, p ≠ q → p.ConflictFree q) ∧
        (∀ c ∈ (effectivePlugins factory override overrideEnabled).plugins, currentByKey current c.key = some c →
          g.byKey c.key = some c) ∧ (∀ c ∈ (effectivePlugins factory override overrideEnabled).plugins,
          g.byKey c.key = some c ∨ c.key ∈ errors.map Prod.fst) ∧
        ∀ key ∈ errors.map Prod.fst, key ∈ retainCurrent → ∀ i, currentByKey current key = some i →
          (∀ c ∈ (effectivePlugins factory override overrideEnabled).plugins, g.byKey c.key = some c →
            c.ConflictFree i) → g.byKey key = some i := by
  have hclean : ∀ g, current = some g → Publishable g.plugins := fun g hg => (hcurrent g hg).publishable
  obtain ⟨g, errors, hbuild, h⟩ :=
    buildRoutingGenerationAdmitting_spec factory override overrideEnabled number current retainCurrent
  refine ⟨g, errors, hbuild, fun p hp q hq hne => ?_, fun c hc hserving => ?_, fun c hc => ?_,
    fun key hkey hretain i hi hfree => ?_⟩
  · rw [LoadedPlugin.conflictFree_iff (h.publishable.sound p hp).1 (h.publishable.sound q hq).1]
    exact (h.publishable.coexists hp hq hne).2
  · exact (h.mem_taken hc).mp (taken_of_unchanged hclean hc hserving)
  · rw [← h.mem_taken hc, h.errors]
    by_cases htaken : c ∈ taken number (effectivePlugins factory override overrideEnabled) current
    · exact .inl htaken
    · exact .inr ⟨c, hc, htaken, rfl⟩
  · obtain ⟨c, hc, hout, rfl⟩ := (h.errors key).mp hkey
    have hne : i ≠ c := by
      rintro rfl
      exact hout (taken_of_unchanged hclean hc hi)
    have hincumbent : incumbentOf current retainCurrent c = some i := by
      rw [incumbentOf, filter_eq_some_iff, decide_eq_true_eq]
      exact ⟨hi, hretain, hne⟩
    obtain ⟨served, rfl, hig, hikey⟩ := incumbentOf_serves hincumbent
    have hvalid := ((hclean served rfl).sound i hig).1
    refine (h.byKey _ _).mpr ⟨h.retained hclean c hc hout i hincumbent fun a ha => ⟨?_, ?_⟩, hikey⟩
    · intro hkey
      have hac := Layer.eq_of_key (mem_candidates_of_taken ha) hc (hkey.trans hikey)
      exact hout (hac ▸ ha)
    · have hcandidate := mem_candidates_of_taken ha
      rw [← LoadedPlugin.conflictFree_iff (taken_publishable.sound a ha).1 hvalid]
      exact hfree a hcandidate ((h.mem_taken hcandidate).mp ha)

/-! ## A rejected update -/

def provider (id : Nat) (key : String) (channelTypes : List Int)
    (h : ∀ t ∈ channelTypes, 0 < t ∧ t ≠ channelTypeTaskPlugin := by decide) : LoadedPlugin where
  id := id
  manifest := { key := key, channelTypes := channelTypes }
  channelTypes := h

def incumbent : LoadedPlugin := provider 1 "a" [1]

def peer : LoadedPlugin := provider 2 "x" [2]

def update : LoadedPlugin := provider 3 "a" [2]

/-- It asks for what the incumbent has. -/
def newcomer : LoadedPlugin := provider 4 "n" [1]

def layerOf (l : List LoadedPlugin) (h : (l.map LoadedPlugin.key).Nodup := by decide) : Layer := ⟨l, h⟩

def firstBuild : Except RoutingConflict (RoutingGeneration × List (String × String)) :=
  buildRoutingGenerationAdmitting .empty (layerOf [incumbent, peer]) true 1 none []

def serving : RoutingGeneration := (firstBuild.toOption.map Prod.fst).getD { number := 0 }

theorem serving_rebuild : serving.Rebuild := by
  obtain ⟨g, errors, hbuild, -⟩ :=
    buildRoutingGenerationAdmitting_spec .empty (layerOf [incumbent, peer]) true 1 none []
  refine ⟨_, _, _, _, _, _, errors, hbuild.trans ?_⟩
  rw [serving, firstBuild, hbuild]
  rfl

theorem provider_conflictFree {id id' : Nat} {key' : String} {types types' : List Int} {h h'}
    (hfree : ∀ t ∈ types, t ∉ types') : (provider id key types h).ConflictFree (provider id' key' types' h') where
  channelTypes := hfree
  routes _ hr := by cases hr
  models _ hm := by cases hm
  endpoints _ he := by cases he

theorem incumbent_serving : currentByKey (some serving) "a" = some incumbent := by decide +kernel

theorem peer_conflictFree : peer.ConflictFree incumbent := provider_conflictFree (by decide)

theorem rebuild_keeps_incumbent : ∃ g errors,
    buildRoutingGenerationAdmitting .empty (layerOf [update, peer]) true 2 (some serving) ["a", "x"] = .ok (g, errors) ∧
      g.byKey "x" = some peer ∧ g.byKey "a" = some incumbent := by
  obtain ⟨g, errors, hbuild, -, hkept, -, hretained⟩ :=
    rebuild_keeps_working_plugins .empty (layerOf [update, peer]) true 2 (some serving) ["a", "x"] fun g hg => by
      cases hg
      exact serving_rebuild
  have hcandidates : (effectivePlugins .empty (layerOf [update, peer]) true).plugins = [update, peer] := by
    decide +kernel
  have hrun : (buildRoutingGenerationAdmitting .empty (layerOf [update, peer]) true 2 (some serving)
      ["a", "x"]).toOption.map (fun r => (decide (r.1.byKey "a" = some update), r.2.map Prod.fst)) =
        some (false, ["a"]) := by
    decide +kernel
  rw [hbuild] at hrun
  obtain ⟨hupdate, herrors⟩ := Prod.ext_iff.mp (Option.some.inj hrun)
  dsimp only at hupdate herrors
  refine ⟨g, errors, hbuild, ?_, ?_⟩
  · exact hkept peer (by rw [hcandidates]; simp) (by decide +kernel)
  · refine hretained "a" (by simp [herrors]) (by simp) incumbent incumbent_serving ?_
    rw [hcandidates]
    intro c hc hserved
    simp only [mem_cons, not_mem_nil, or_false] at hc
    rcases hc with rfl | rfl
    · exact absurd hserved (of_decide_eq_false hupdate)
    · exact peer_conflictFree

/-- The incumbent conflicts with no plugin that served before, but the newcomer is admitted before it is tried again. -/
theorem newcomer_takes_over_from_incumbent : serving.Rebuild ∧ ∃ g errors,
    buildRoutingGenerationAdmitting .empty (layerOf [update, peer, newcomer]) true 2 (some serving) ["a", "x", "n"] =
        .ok (g, errors) ∧ "a" ∈ errors.map Prod.fst ∧ currentByKey (some serving) "a" = some incumbent ∧
      (∀ c ∈ (effectivePlugins .empty (layerOf [update, peer, newcomer]) true).plugins, g.byKey c.key = some c →
        (currentByKey (some serving) c.key).isSome → c.ConflictFree incumbent) ∧ g.byKey "a" ≠ some incumbent := by
  obtain ⟨g, errors, hbuild, -⟩ := buildRoutingGenerationAdmitting_spec .empty (layerOf [update, peer, newcomer]) true 2
    (some serving) ["a", "x", "n"]
  have hcandidates : (effectivePlugins .empty (layerOf [update, peer, newcomer]) true).plugins =
      [update, peer, newcomer] := by decide +kernel
  have hrun : (buildRoutingGenerationAdmitting .empty (layerOf [update, peer, newcomer]) true 2 (some serving)
      ["a", "x", "n"]).toOption.map (fun r => (r.1.byKey "a", r.2.map Prod.fst)) = some (none, ["a"]) := by
    decide +kernel
  rw [hbuild] at hrun
  obtain ⟨hgone, herrors⟩ := Prod.ext_iff.mp (Option.some.inj hrun)
  dsimp only at hgone herrors
  refine ⟨serving_rebuild, g, errors, hbuild, by simp [herrors], incumbent_serving, ?_, by simp [hgone]⟩
  rw [hcandidates]
  intro c hc hserved hold
  simp only [mem_cons, not_mem_nil, or_false] at hc
  rcases hc with rfl | rfl | rfl
  · rw [show update.key = "a" from rfl, hgone] at hserved
    cases hserved
  · exact peer_conflictFree
  · exact absurd hold (by decide +kernel)

end CubeRouter.Plugins
