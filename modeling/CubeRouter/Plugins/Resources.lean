import CubeRouter.Plugins.Conflict

/-!
# What plugins share

The indexes compare texts that are put together from several parts. The parts can be read back, since a route shape
has no blank in it and the host protocols no separator: so two plugins are compatible exactly when they share no
channel type, no method with its route shape, no folded model in two spellings and no endpoint, unless both are legacy
providers of its protocol (`conflictFree_iff`).
-/

namespace CubeRouter.Plugins

open Transition Strings List

namespace LoadedPlugin

/-- The plugins share nothing that only one plugin may have. -/
structure ConflictFree (p q : LoadedPlugin) : Prop where
  channelTypes : ∀ t ∈ p.manifest.channelTypes, t ∉ q.manifest.channelTypes
  routes : ∀ r ∈ p.manifest.routes, ∀ r' ∈ q.manifest.routes, r.method = r'.method →
    ∀ shape, routePathShape (text r.path) = .ok shape → routePathShape (text r'.path) ≠ .ok shape
  models : ∀ m ∈ p.manifest.models, ∀ m' ∈ q.manifest.models, asciiFold m = asciiFold m' → m = m'
  endpoints : ∀ e ∈ p.endpoints, ∀ e' ∈ q.endpoints,
    e.method = e'.method → e.operation.path = e'.operation.path → e.model = e'.model →
      p.manifest.channelTypes ≠ [] ∧ q.manifest.channelTypes ≠ [] ∧ e.claim.name = e'.claim.name

theorem compatible_iff (p q : LoadedPlugin) : p.Compatible q ↔
    (∀ m ∈ p.manifest.models, ∀ m' ∈ q.manifest.models, asciiFold m = asciiFold m' → m = m') ∧
    (∀ t ∈ p.manifest.channelTypes, ∀ t' ∈ q.manifest.channelTypes, t ≠ t') ∧
    (∀ r ∈ p.manifest.routes, ∀ r' ∈ q.manifest.routes, (routeClaim r).Agrees (routeClaim r')) ∧
    (∀ e ∈ p.endpoints, ∀ e' ∈ q.endpoints, (p.endpointClaim e).Agrees (q.endpointClaim e')) := by
  unfold Compatible claims
  simp only [forall_mem_append]
  simp [Claim.Agrees, routeClaim, endpointClaim, and_assoc]

end LoadedPlugin

/-! ## Index keys -/

variable {routePath shape : Text} {p q : LoadedPlugin} {e : Endpoint}

theorem checkSegment_shape {segment : Text} {count index : Nat} {seen seen' : List Text}
    (h : checkSegment routePath count seen index segment = .ok seen') : ' ' ∉ segmentShape segment := by
  unfold checkSegment at h
  split_ifs at h with hlast
  · rw [hlast.1]
    simp [segmentShape]
  · obtain ⟨-, _, h⟩ := bind_eq_ok.mp h
    split at h
    · simp [segmentShape]
    · simp [segmentShape]
    · rename_i hcolon hstar
      obtain ⟨_, hstatic, -⟩ := bind_eq_ok.mp h
      rw [ensure_eq_ok] at hstatic
      have hshape : segmentShape segment = segment := by
        unfold segmentShape
        split
        · exact absurd rfl (hcolon _)
        · exact absurd rfl (hstar _)
        · rfl
      rw [hshape]
      intro hspace
      simp only [isStaticSegment, Bool.and_eq_true, all_eq_true] at hstatic
      exact absurd (hstatic.2 ' ' hspace) (by decide)

theorem foldlM_turn {ε σ β : Type} {f : σ → β → Except ε σ} {l : List β} {s s' : σ} (h : l.foldlM f s = .ok s') {b : β}
    (hb : b ∈ l) : ∃ before after, f before b = .ok after := by
  induction l generalizing s with
  | nil => cases hb
  | cons c l ih =>
    obtain ⟨s1, hs1, h⟩ := bind_eq_ok.mp h
    rcases mem_cons.mp hb with rfl | hb
    · exact ⟨s, s1, hs1⟩
    · exact ih h hb

theorem normalizeRoutePath_ok {normalized : Text} (h : normalizeRoutePath routePath = .ok normalized) :
    normalized = routePath ∧ ∀ segment ∈ segments routePath, ' ' ∉ segmentShape segment := by
  unfold normalizeRoutePath at h
  simp only [bind_eq_ok] at h
  obtain ⟨-, -, -, -, -, -, -, -, _, hsegments, h⟩ := h
  cases h
  refine ⟨rfl, fun segment hsegment => ?_⟩
  obtain ⟨index, hindex⟩ := getElem?_of_mem hsegment
  have hturn : (segment, index) ∈ (segments routePath).zipIdx := mk_mem_zipIdx_iff_getElem?.mpr hindex
  obtain ⟨_, _, hcheck⟩ := foldlM_turn hsegments hturn
  exact checkSegment_shape hcheck

theorem notMem_intercalate {a b : Char} (hab : a ≠ b) {l : List Text} (h : ∀ s ∈ l, a ∉ s) : a ∉ [b].intercalate l := by
  induction l with
  | nil => simp
  | cons s l ih =>
    obtain ⟨hs, hl⟩ := forall_mem_cons.mp h
    by_cases hnil : l = []
    · simpa [hnil] using hs
    · rw [intercalate_cons_of_ne_nil hnil]
      simp [hs, hab, ih hl]

theorem routePathShape_space (h : routePathShape routePath = .ok shape) : ' ' ∉ shape := by
  obtain ⟨_, hnormalized, h⟩ := bind_eq_ok.mp h
  cases h
  obtain ⟨rfl, hsegments⟩ := normalizeRoutePath_ok hnormalized
  rw [mem_cons, not_or]
  refine ⟨by decide, notMem_intercalate (by decide) ?_⟩
  simpa using hsegments

theorem routeClaim_agrees_iff {r r' : Route} {shape' : Text} (h : routePathShape (text r.path) = .ok shape)
    (h' : routePathShape (text r'.path) = .ok shape') :
    (LoadedPlugin.routeClaim r).Agrees (LoadedPlugin.routeClaim r') ↔ ¬(r.method = r'.method ∧ shape = shape') := by
  simp only [LoadedPlugin.routeClaim, h, h']
  refine not_congr ⟨fun heq => ?_, ?_⟩
  · obtain ⟨hmethod, hshape⟩ := cut_injective_last (routePathShape_space h) (routePathShape_space h') heq
    exact ⟨String.toList_inj.mp hmethod, hshape⟩
  · rintro ⟨hmethod, rfl⟩
    rw [hmethod]

/-- No method and no path of a host protocol has a separator of the index keys in it. -/
theorem hostProtocols_separated : ∀ d ∈ hostProtocols, ∀ o ∈ d.operations,
    '\x00' ∉ text o.path ∧ ∀ method ∈ o.methods, '\x00' ∉ text method := by
  decide +kernel

theorem LoadedPlugin.mem_endpoints (h : e ∈ p.endpoints) :
    '\x00' ∉ text e.method ∧ '\x00' ∉ text e.operation.path := by
  unfold endpoints at h
  simp only [mem_flatMap, mem_filter, mem_map] at h
  obtain ⟨claim, -, operation, ⟨hoperation, -⟩, method, hmethod, _, -, rfl⟩ := h
  cases hprotocol : hostProtocol claim.name with
  | none =>
    rw [hprotocol] at hoperation
    cases hoperation
  | some d =>
    rw [hprotocol] at hoperation
    obtain ⟨hpath, hmethods⟩ := hostProtocols_separated d (mem_of_find?_eq_some hprotocol) operation hoperation
    exact ⟨hmethods method hmethod, hpath⟩

theorem indexKey_eq_iff {e' : Endpoint} (he : e ∈ p.endpoints) (he' : e' ∈ q.endpoints) :
    e.indexKey = e'.indexKey ↔ e.method = e'.method ∧ e.operation.path = e'.operation.path ∧ e.model = e'.model := by
  constructor
  · intro h
    obtain ⟨hmethod, hrest⟩ := cut_injective (LoadedPlugin.mem_endpoints he).1 (LoadedPlugin.mem_endpoints he').1 h
    obtain ⟨hpath, hmodel⟩ := cut_injective (LoadedPlugin.mem_endpoints he).2 (LoadedPlugin.mem_endpoints he').2 hrest
    exact ⟨String.toList_inj.mp hmethod, String.toList_inj.mp hpath, String.toList_inj.mp hmodel⟩
  · rintro ⟨hmethod, hpath, hmodel⟩
    rw [Endpoint.indexKey, Endpoint.indexKey, hmethod, hpath, hmodel]

/-- What the indexes compare is what the plugins share. -/
theorem LoadedPlugin.conflictFree_iff (hp : p.pathsValid) (hq : q.pathsValid) :
    p.ConflictFree q ↔ p.Compatible q := by
  rw [compatible_iff]
  constructor
  · intro h
    refine ⟨h.models, fun t ht t' ht' heq => h.channelTypes t ht (heq ▸ ht'), fun r hr r' hr' => ?_,
      fun e he e' he' hkey => ?_⟩
    · obtain ⟨shape, hshape⟩ := hp r hr
      obtain ⟨_, hshape'⟩ := hq r' hr'
      rw [routeClaim_agrees_iff hshape hshape']
      rintro ⟨hmethod, rfl⟩
      exact h.routes r hr r' hr' hmethod shape hshape hshape'
    · obtain ⟨hmethod, hpath, hmodel⟩ := (indexKey_eq_iff he he').mp hkey
      obtain ⟨hlegacy, hlegacy', hname⟩ := h.endpoints e he e' he' hmethod hpath hmodel
      exact ⟨by simpa using hlegacy, by simpa using hlegacy', hname⟩
  · rintro ⟨hmodels, htypes, hroutes, hendpoints⟩
    refine ⟨fun t ht ht' => htypes t ht t ht' rfl, fun r hr r' hr' hmethod shape hshape hshape' => ?_, hmodels,
      fun e he e' he' hmethod hpath hmodel => ?_⟩
    · exact (routeClaim_agrees_iff hshape hshape').mp (hroutes r hr r' hr') ⟨hmethod, rfl⟩
    · obtain ⟨hlegacy, hlegacy', hname⟩ :=
        hendpoints e he e' he' ((indexKey_eq_iff he he').mpr ⟨hmethod, hpath, hmodel⟩)
      exact ⟨by simpa using hlegacy, by simpa using hlegacy', hname⟩

end CubeRouter.Plugins
