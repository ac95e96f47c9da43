import CubeRouter.Lib.Greedy
import CubeRouter.Plugins.Generation

/-!
# Conflicts between plugins

A build asks the indexes claim by claim, but what it decides is a relation on the claims: `Claim.Agrees` says which two
may stand in one generation. A build succeeds exactly when every path is well formed and every two claims agree
(`build_isOk_iff`), so that a generation can be built from a layer when each plugin is consistent and every two plugins
are compatible, in whatever order they come.
-/

namespace CubeRouter.Plugins

open Transition Strings List Function

/-- What a plugin asks the indexes for. -/
inductive Claim
  | model (spelling : String)
  | channelType (number : Int)
  | route (key : Text)
  | endpoint (key : Text) (protocol : String) (legacy : Bool)

namespace Claim

/-- The two claims may stand in one generation. -/
def Agrees : Claim → Claim → Prop
  | model a, model b => asciiFold a = asciiFold b → a = b
  | channelType a, channelType b => a ≠ b
  | route a, route b => a ≠ b
  | endpoint a protocol legacy, endpoint b protocol' legacy' =>
    a = b → legacy = true ∧ legacy' = true ∧ protocol = protocol'
  | _, _ => True

theorem Agrees.symm {c d : Claim} (h : c.Agrees d) : d.Agrees c := by
  cases c <;> cases d <;> simp only [Agrees] at h ⊢
  · exact fun hfold => (h hfold.symm).symm
  · exact fun heq => h heq.symm
  · exact fun heq => h heq.symm
  · intro hkey
    obtain ⟨hlegacy, hlegacy', hprotocol⟩ := h hkey.symm
    exact ⟨hlegacy', hlegacy, hprotocol.symm⟩

/-- The new claims agree with one another and with those made before. -/
def Extends (made new : List Claim) : Prop := new.Pairwise Agrees ∧ ∀ c ∈ made, ∀ d ∈ new, c.Agrees d

theorem extends_append {made new rest : List Claim} :
    Extends made (new ++ rest) ↔ Extends made new ∧ Extends (made ++ new) rest := by
  unfold Extends
  rw [pairwise_append]
  constructor
  · rintro ⟨⟨hnew, hrest, hboth⟩, hmade⟩
    refine ⟨⟨hnew, fun c hc d hd => hmade c hc d (mem_append_left _ hd)⟩, hrest, fun c hc d hd => ?_⟩
    rcases mem_append.mp hc with hc | hc
    · exact hmade c hc d (mem_append_right _ hd)
    · exact hboth c hc d hd
  · rintro ⟨⟨hnew, hmade⟩, hrest, hboth⟩
    refine ⟨⟨hnew, hrest, fun c hc d hd => hboth c (mem_append_right _ hc) d hd⟩, fun c hc d hd => ?_⟩
    rcases mem_append.mp hd with hd | hd
    · exact hmade c hc d hd
    · exact hboth c (mem_append_left _ hc) d hd

theorem extends_singleton {made : List Claim} {d : Claim} : Extends made [d] ↔ ∀ c ∈ made, c.Agrees d := by
  simp [Extends]

end Claim

namespace LoadedPlugin

def routeClaim (r : Route) : Claim :=
  .route (routeIndexKey r.method ((routePathShape (text r.path)).toOption.getD []))

def endpointClaim (p : LoadedPlugin) (e : Endpoint) : Claim :=
  .endpoint e.indexKey e.claim.name (p.manifest.channelTypes ≠ [])

/-- The claims in the order they are made. -/
def claims (p : LoadedPlugin) : List Claim :=
  p.manifest.models.map .model ++ p.manifest.channelTypes.map .channelType ++ p.manifest.routes.map routeClaim ++
    p.endpoints.map p.endpointClaim

def pathsValid (p : LoadedPlugin) : Prop := ∀ r ∈ p.manifest.routes, ∃ shape, routePathShape (text r.path) = .ok shape

/-- The plugin can be published alone. -/
def Consistent (p : LoadedPlugin) : Prop := p.pathsValid ∧ p.claims.Pairwise Claim.Agrees

/-- The two plugins can be published together. -/
def Compatible (p q : LoadedPlugin) : Prop := ∀ c ∈ p.claims, ∀ d ∈ q.claims, c.Agrees d

theorem Compatible.symm {p q : LoadedPlugin} (h : p.Compatible q) : q.Compatible p :=
  fun d hd c hc => (h c hc d hd).symm

end LoadedPlugin

/-! ## The indexes -/

/-- The indexes know the claims that were made. -/
structure RoutingGeneration.Reflects (g : RoutingGeneration) (made : List Claim) : Prop where
  models : ∀ fold spelling, g.canonicalModelByFold fold = some spelling ↔
    .model spelling ∈ made ∧ asciiFold spelling = fold
  channelTypes : ∀ number, (g.byChannelType number).isSome = true ↔ .channelType number ∈ made
  routes : ∀ key, (g.routeIndex key).isSome = true ↔ .route key ∈ made
  endpoints : ∀ key protocol legacy, .endpoint key protocol legacy ∈ made ↔
    ∃ b ∈ g.protocolIndex key, b.protocol = protocol ∧ decide (b.plugin.manifest.channelTypes ≠ []) = legacy
  shared : ∀ key b rest, g.protocolIndex key = b :: rest → ∀ b' ∈ rest,
    b'.protocol = b.protocol ∧ b'.plugin.manifest.channelTypes ≠ [] ∧ b.plugin.manifest.channelTypes ≠ []

namespace RoutingGeneration

variable {g g' : RoutingGeneration} {made : List Claim} {p : LoadedPlugin}

/-- A claim is granted exactly when it agrees with those made before, and is known afterwards. -/
def Grants {β : Type} (f : RoutingGeneration → β → Except RoutingConflict RoutingGeneration) (claim : β → Claim)
    (valid : β → Prop) (b : β) : Prop :=
  ∀ g made, Reflects g made →
    ((∃ g', f g b = .ok g') ↔ valid b ∧ ∀ c ∈ made, c.Agrees (claim b)) ∧
      ∀ g', f g b = .ok g' → g'.Reflects (made ++ [claim b])

theorem grants_model (p : LoadedPlugin) (m : String) : Grants (claimModel p) .model (fun _ => True) m := by
  intro g made h
  obtain ⟨g1, hg1, hcanonical, htypes, hroutes, hprotocols⟩ : ∃ g1 : RoutingGeneration,
      (if (g.byModel m).isSome then g else { g with byModel := Function.update g.byModel m (some p) }) = g1 ∧
        g1.canonicalModelByFold = g.canonicalModelByFold ∧ g1.byChannelType = g.byChannelType ∧
        g1.routeIndex = g.routeIndex ∧ g1.protocolIndex = g.protocolIndex := by
    split_ifs
    · exact ⟨g, rfl, rfl, rfl, rfl, rfl⟩
    · exact ⟨_, rfl, rfl, rfl, rfl, rfl⟩
  simp only [claimModel, hg1, hcanonical]
  cases hfold : g.canonicalModelByFold (asciiFold m) with
  | none =>
    have hnew : ∀ spelling, .model spelling ∈ made → asciiFold spelling ≠ asciiFold m := by
      intro spelling hmade heq
      rw [(h.models _ _).mpr ⟨hmade, heq⟩] at hfold
      cases hfold
    refine Decides.ok ⟨trivial, fun c hc => ?_⟩ ?_
    · cases c with
      | model spelling => exact fun heq => absurd heq (hnew spelling hc)
      | _ => trivial
    · refine ⟨fun fold spelling => ?_, ?_, ?_, ?_, ?_⟩
      · dsimp only
        rw [update_apply]
        split_ifs with heq
        · subst heq
          rw [Option.some.injEq, mem_append, mem_singleton, Claim.model.injEq]
          refine ⟨fun hm => ⟨.inr hm.symm, by rw [hm]⟩, ?_⟩
          rintro ⟨hmade | hm, hfold'⟩
          · exact absurd hfold' (hnew spelling hmade)
          · exact hm.symm
        · rw [h.models, mem_append, mem_singleton, Claim.model.injEq]
          refine ⟨fun hmade => ⟨.inl hmade.1, hmade.2⟩, ?_⟩
          rintro ⟨hmade | rfl, hfold'⟩
          · exact ⟨hmade, hfold'⟩
          · exact absurd hfold'.symm heq
      · simpa [htypes] using h.channelTypes
      · simpa [hroutes] using h.routes
      · simpa [hprotocols] using h.endpoints
      · simpa [hprotocols] using h.shared
  | some existing =>
    obtain ⟨hmade, heq⟩ := (h.models _ _).mp hfold
    by_cases hsame : existing = m
    · subst hsame
      simp only [ne_eq]
      refine Decides.ok ⟨trivial, fun c hc => ?_⟩ ?_
      · cases c with
        | model =>
          intro hspelling
          have hother := (h.models _ _).mpr ⟨hc, hspelling⟩
          exact Option.mem_unique hother hfold
        | _ => trivial
      · refine ⟨fun fold spelling => ?_, ?_, ?_, ?_, ?_⟩
        · rw [hcanonical, h.models, mem_append, mem_singleton, Claim.model.injEq]
          refine and_congr_left fun _ => ⟨.inl, ?_⟩
          rintro (hin | rfl)
          · exact hin
          · exact hmade
        · simpa [htypes] using h.channelTypes
        · simpa [hroutes] using h.routes
        · simpa [hprotocols] using h.endpoints
        · simpa [hprotocols] using h.shared
    · simp only [ne_eq, hsame]
      exact Decides.error fun hagrees => hsame (hagrees.2 _ hmade heq)

theorem grants_channelType (p : LoadedPlugin) {t : Int} (ht : t ∈ p.manifest.channelTypes) :
    Grants (claimChannelType p) .channelType (fun _ => True) t := by
  intro g made h
  have hvalid := p.channelTypes t ht
  rw [claimChannelType, if_neg (by omega)]
  cases hindex : g.byChannelType t with
  | none =>
    have hnew : .channelType t ∉ made := by
      rw [← h.channelTypes, hindex]
      simp
    refine Decides.ok ⟨trivial, fun c hc => ?_⟩ ?_
    · cases c with
      | channelType =>
        rintro rfl
        exact hnew hc
      | _ => trivial
    · refine ⟨?_, fun t' => ?_, ?_, ?_, h.shared⟩
      · simpa using h.models
      · dsimp only
        rw [update_apply, mem_append, mem_singleton, Claim.channelType.injEq, ← h.channelTypes]
        split_ifs with heq
        · simp [heq]
        · simp [heq]
      · simpa using h.routes
      · simpa using h.endpoints
  | some =>
    have hmade : .channelType t ∈ made := by
      rw [← h.channelTypes, hindex]
      rfl
    exact Decides.error fun hagrees => hagrees.2 _ hmade rfl

theorem grants_route (p : LoadedPlugin) (r : Route) :
    Grants (claimRoute p) LoadedPlugin.routeClaim (fun r => ∃ shape, routePathShape (text r.path) = .ok shape) r := by
  intro g made h
  unfold claimRoute LoadedPlugin.routeClaim
  cases hshape : routePathShape (text r.path) with
  | error =>
    refine ⟨iff_of_false ?_ ?_, fun g' hg' => ?_⟩
    · rintro ⟨g', hg'⟩
      cases hg'
    · rintro ⟨⟨shape, hok⟩, -⟩
      cases hshape.symm.trans hok
    · cases hg'
  | ok shape =>
    simp only [Except.toOption]
    cases hindex : g.routeIndex (routeIndexKey r.method shape) with
    | none =>
      have hnew : .route (routeIndexKey r.method shape) ∉ made := by
        rw [← h.routes, hindex]
        simp
      refine Decides.ok ⟨⟨shape, hshape⟩, fun c hc => ?_⟩ ?_
      · cases c with
        | route =>
          rintro rfl
          exact hnew hc
        | _ => trivial
      · refine ⟨?_, ?_, fun key => ?_, ?_, h.shared⟩
        · simpa using h.models
        · simpa using h.channelTypes
        · dsimp only
          rw [update_apply, mem_append, mem_singleton, Claim.route.injEq, ← h.routes]
          split_ifs with heq
          · simp [heq]
          · simp [heq]
        · simpa using h.endpoints
    | some =>
      have hmade : .route (routeIndexKey r.method shape) ∈ made := by
        rw [← h.routes, hindex]
        rfl
      exact Decides.error fun hagrees => hagrees.2 _ hmade rfl

theorem grants_endpoint (p : LoadedPlugin) (e : Endpoint) :
    Grants (claimEndpoint p) p.endpointClaim (fun _ => True) e := by
  intro g made h
  have hbound : (∀ b ∈ g.protocolIndex e.indexKey, b.protocol = e.claim.name ∧ b.plugin.manifest.channelTypes ≠ [] ∧
        p.manifest.channelTypes ≠ []) →
      Reflects { g with
        protocolIndex := Function.update g.protocolIndex e.indexKey (g.protocolIndex e.indexKey ++
          [{ plugin := p, protocol := e.claim.name, operation := e.operation, model := e.model }]) }
        (made ++ [p.endpointClaim e]) := by
    intro hsame
    refine ⟨?_, ?_, ?_, fun key protocol legacy => ?_, fun key b rest hlist b' hb' => ?_⟩
    · simpa [LoadedPlugin.endpointClaim] using h.models
    · simpa [LoadedPlugin.endpointClaim] using h.channelTypes
    · simpa [LoadedPlugin.endpointClaim] using h.routes
    · rw [mem_append, mem_singleton, LoadedPlugin.endpointClaim, Claim.endpoint.injEq, h.endpoints]
      dsimp only
      rw [update_apply]
      split_ifs with hkey
      · subst hkey
        simp only [mem_append, mem_singleton, or_and_right, exists_or, exists_eq_left, true_and]
        exact or_congr_right ⟨fun heq => ⟨heq.1.symm, heq.2.symm⟩, fun heq => ⟨heq.1.symm, heq.2.symm⟩⟩
      · simp [hkey]
    · dsimp only at hlist
      rw [update_apply] at hlist
      split_ifs at hlist with hkey
      · cases hbindings : g.protocolIndex e.indexKey with
        | nil =>
          rw [hbindings, nil_append, cons.injEq] at hlist
          rw [← hlist.2] at hb'
          cases hb'
        | cons first others =>
          rw [hbindings, cons_append, cons.injEq] at hlist
          obtain ⟨rfl, rfl⟩ := hlist
          rw [mem_append, mem_singleton] at hb'
          rcases hb' with hb' | rfl
          · exact h.shared e.indexKey first others hbindings b' hb'
          · obtain ⟨hprotocol, hlegacy, hlegacy'⟩ := hsame first (by rw [hbindings]; exact mem_cons_self)
            exact ⟨hprotocol.symm, hlegacy', hlegacy⟩
      · exact h.shared key b rest hlist b' hb'
  unfold claimEndpoint
  cases hbindings : g.protocolIndex e.indexKey with
  | nil =>
    refine Decides.ok ⟨trivial, fun c hc => ?_⟩ ?_
    · cases c with
      | endpoint =>
        rintro rfl
        obtain ⟨b, hb, -⟩ := (h.endpoints _ _ _).mp hc
        rw [hbindings] at hb
        cases hb
      | _ => trivial
    · rw [hbindings] at hbound
      exact hbound (by simp)
  | cons other =>
    dsimp only
    have hfirst : .endpoint e.indexKey other.protocol (other.plugin.manifest.channelTypes ≠ []) ∈ made :=
      (h.endpoints _ _ _).mpr ⟨other, by rw [hbindings]; exact mem_cons_self, rfl, rfl⟩
    split_ifs with hconflict
    · refine ⟨iff_of_false ?_ ?_, fun g' hg' => ?_⟩
      · rintro ⟨g', hg'⟩
        cases hg'
      · rintro ⟨-, hagrees⟩
        obtain ⟨hlegacy, hlegacy', hprotocol⟩ := hagrees _ hfirst rfl
        rcases hconflict with hlegacies | hname
        · exact hlegacies ⟨by simpa using hlegacy', by simpa using hlegacy⟩
        · exact hname hprotocol.symm
      · cases hg'
    · rw [not_or, not_not, not_not] at hconflict
      obtain ⟨⟨hlegacy, hlegacy'⟩, hprotocol⟩ := hconflict
      have hall : ∀ b ∈ g.protocolIndex e.indexKey, b.protocol = e.claim.name ∧ b.plugin.manifest.channelTypes ≠ [] ∧
          p.manifest.channelTypes ≠ [] := by
        intro b hb
        rw [hbindings] at hb
        rcases mem_cons.mp hb with rfl | hb
        · exact ⟨hprotocol.symm, hlegacy', hlegacy⟩
        · obtain ⟨hsame, hb', -⟩ := h.shared _ _ _ hbindings b hb
          exact ⟨hsame.trans hprotocol.symm, hb', hlegacy⟩
      refine Decides.ok ⟨trivial, fun c hc => ?_⟩ ?_
      · cases c with
        | endpoint =>
          rintro rfl
          obtain ⟨b, hb, rfl, rfl⟩ := (h.endpoints _ _ _).mp hc
          obtain ⟨hname, hb', -⟩ := hall b hb
          exact ⟨by simpa using hb', by simpa using hlegacy, hname⟩
        | _ => trivial
      · rw [hbindings] at hbound
        exact hbound (by rw [← hbindings]; exact hall)

/-! ## Loops -/

/-- The computation makes the claims `new` after those in `made`. -/
abbrev Claims (made new : List Claim) (valid : Prop) (r : Except RoutingConflict RoutingGeneration) : Prop :=
  Decides r (valid ∧ Claim.Extends made new) fun g => g.Reflects (made ++ new)

theorem Claims.bind {new rest : List Claim} {valid valid' : Prop} {r : Except RoutingConflict RoutingGeneration}
    {f : RoutingGeneration → Except RoutingConflict RoutingGeneration} (h : Claims made new valid r)
    (hf : ∀ g, g.Reflects (made ++ new) → Claims (made ++ new) rest valid' (f g)) :
    Claims made (new ++ rest) (valid ∧ valid') (do f (← r)) := by
  have hboth := Decides.bind h hf
  rwa [and_and_and_comm, ← Claim.extends_append, append_assoc] at hboth

theorem foldlM_grants {β : Type} {f : RoutingGeneration → β → Except RoutingConflict RoutingGeneration}
    {claim : β → Claim} {valid : β → Prop} {l : List β} (hf : ∀ b ∈ l, Grants f claim valid b) {g : RoutingGeneration}
    {made : List Claim} (h : g.Reflects made) : Claims made (l.map claim) (∀ b ∈ l, valid b) (l.foldlM f g) := by
  induction l generalizing g made with
  | nil => exact Decides.ok (by simp [Claim.Extends]) (by simpa using h)
  | cons b l ih =>
    have hone : Claims made [claim b] (valid b) (f g b) := by
      rw [Claims, Claim.extends_singleton]
      exact hf b mem_cons_self g made h
    rw [foldlM_cons, forall_mem_cons]
    exact hone.bind fun g1 h1 => ih (fun c hc => hf c (mem_cons_of_mem b hc)) h1

theorem claimPlugin_spec (p : LoadedPlugin) (h : g.Reflects made) :
    Claims made p.claims p.pathsValid (claimPlugin g p) := by
  have hstart : Reflects { g with byKey := Function.update g.byKey p.key (some p), plugins := g.plugins ++ [p] } made :=
    ⟨h.models, h.channelTypes, h.routes, h.endpoints, h.shared⟩
  have hmodels := @foldlM_grants _ _ _ _ p.manifest.models (fun m _ => grants_model p m)
  have htypes := @foldlM_grants _ _ _ _ p.manifest.channelTypes (fun t ht => grants_channelType p ht)
  have hroutes := @foldlM_grants _ _ _ _ p.manifest.routes (fun r _ => grants_route p r)
  have hendpoints := @foldlM_grants _ _ _ _ p.endpoints (fun e _ => grants_endpoint p e)
  have hall := (hmodels hstart).bind fun _ h1 => (htypes h1).bind fun _ h2 =>
    (hroutes h2).bind fun _ h3 => hendpoints h3
  simpa [claimPlugin, LoadedPlugin.claims, LoadedPlugin.pathsValid] using hall

theorem claimPlugins_spec (l : List LoadedPlugin) (h : g.Reflects made) :
    Claims made (l.flatMap LoadedPlugin.claims) (∀ p ∈ l, p.pathsValid) (l.foldlM claimPlugin g) := by
  induction l generalizing g made with
  | nil => exact Decides.ok (by simp [Claim.Extends]) (by simpa using h)
  | cons p l ih =>
    rw [foldlM_cons, flatMap_cons, forall_mem_cons]
    exact (claimPlugin_spec p h).bind fun _ h1 => ih h1

end RoutingGeneration

/-! ## Layers -/

/-- Two plugins that may serve together: they have keys of their own and agree in all claims. -/
def LoadedPlugin.Coexists (p q : LoadedPlugin) : Prop := p.key ≠ q.key ∧ p.Compatible q

theorem LoadedPlugin.Coexists.symm {p q : LoadedPlugin} (h : p.Coexists q) : q.Coexists p := ⟨h.1.symm, h.2.symm⟩

/-- Plugins that can be published together. -/
abbrev Publishable (l : List LoadedPlugin) : Prop := Greedy.Clean LoadedPlugin.Consistent LoadedPlugin.Coexists l

theorem reflects_new (number : Nat) : RoutingGeneration.Reflects { number := number } [] where
  models _ _ := by simp
  channelTypes _ := by simp
  routes _ := by simp
  endpoints _ _ _ := by simp
  shared _ _ _ h := by simp at h

theorem extends_flatMap_iff (l : List LoadedPlugin) : Claim.Extends [] (l.flatMap LoadedPlugin.claims) ↔
      (∀ p ∈ l, p.claims.Pairwise Claim.Agrees) ∧ l.Pairwise LoadedPlugin.Compatible := by
  unfold Claim.Extends
  rw [pairwise_flatMap]
  exact and_iff_left (by simp)

theorem build_isOk_iff (l : Layer) (number : Nat) :
    (∃ g, buildRoutingGenerationFromPlugins l number = .ok g) ↔ Publishable l.plugins := by
  have hperm : l.sorted.Perm l.plugins := perm_insertionSort _ _
  have hkeys : l.plugins.Pairwise fun p q => p.key ≠ q.key := pairwise_map.mp l.nodup
  have hcompatible : l.sorted.Pairwise LoadedPlugin.Compatible ↔ l.plugins.Pairwise LoadedPlugin.Compatible :=
    hperm.pairwise_iff fun h => h.symm
  rw [buildRoutingGenerationFromPlugins, (RoutingGeneration.claimPlugins_spec _ (reflects_new number)).1,
    extends_flatMap_iff, hcompatible]
  constructor
  · rintro ⟨hvalid, hagrees, hpairwise⟩
    refine ⟨fun p hp => ?_, hkeys.and hpairwise⟩
    have hsorted := hperm.mem_iff.mpr hp
    exact ⟨hvalid p hsorted, hagrees p hsorted⟩
  · intro h
    refine ⟨fun p hp => ?_, fun p hp => ?_, h.pairwise.imp fun hpq => hpq.2⟩
    · exact (h.sound p (hperm.mem_iff.mp hp)).1
    · exact (h.sound p (hperm.mem_iff.mp hp)).2

/-! ## What a generation serves -/

def LoadedPlugin.enter (byKey : String → Option LoadedPlugin) (p : LoadedPlugin) : String → Option LoadedPlugin :=
  Function.update byKey p.key (some p)

namespace RoutingGeneration

variable {g g' : RoutingGeneration}

theorem foldlM_keeps {β γ : Type} {f : RoutingGeneration → β → Except RoutingConflict RoutingGeneration}
    {view : RoutingGeneration → γ} (hf : ∀ g b g', f g b = .ok g' → view g' = view g) {l : List β}
    (h : l.foldlM f g = .ok g') : view g' = view g := by
  induction l generalizing g with
  | nil =>
    cases h
    rfl
  | cons b l ih =>
    obtain ⟨g1, hg1, h⟩ := bind_eq_ok.mp h
    rw [ih h, hf g b g1 hg1]

/-- What the indexes of claims do not hold. -/
def served (g : RoutingGeneration) : Nat × List LoadedPlugin × (String → Option LoadedPlugin) :=
  (g.number, g.plugins, g.byKey)

variable {p : LoadedPlugin}

theorem claimModel_served {m : String} (h : claimModel p g m = .ok g') : g'.served = g.served := by
  unfold claimModel at h
  dsimp only at h
  split at h <;> split_ifs at h <;> cases h <;> rfl

theorem claimChannelType_served {t : Int} (h : claimChannelType p g t = .ok g') : g'.served = g.served := by
  unfold claimChannelType at h
  split_ifs at h
  · cases h
    rfl
  · split at h <;> cases h
    rfl

theorem claimRoute_served {r : Route} (h : claimRoute p g r = .ok g') : g'.served = g.served := by
  unfold claimRoute at h
  split at h
  · cases h
  · split at h <;> cases h
    rfl

theorem claimEndpoint_served {e : Endpoint} (h : claimEndpoint p g e = .ok g') : g'.served = g.served := by
  unfold claimEndpoint at h
  dsimp only at h
  split at h
  · cases h
    rfl
  · split_ifs at h
    cases h
    rfl

theorem claimPlugin_served (h : claimPlugin g p = .ok g') :
    g'.served = (g.number, g.plugins ++ [p], LoadedPlugin.enter g.byKey p) := by
  obtain ⟨_, hg1, h⟩ := bind_eq_ok.mp h
  obtain ⟨_, hg2, h⟩ := bind_eq_ok.mp h
  obtain ⟨_, hg3, h⟩ := bind_eq_ok.mp h
  rw [foldlM_keeps (fun _ _ _ => claimEndpoint_served) h, foldlM_keeps (fun _ _ _ => claimRoute_served) hg3,
    foldlM_keeps (fun _ _ _ => claimChannelType_served) hg2, foldlM_keeps (fun _ _ _ => claimModel_served) hg1]
  rfl

theorem claimPlugins_served {l : List LoadedPlugin} (h : l.foldlM claimPlugin g = .ok g') :
    g'.number = g.number ∧ g'.plugins = g.plugins ++ l ∧ g'.byKey = l.foldl LoadedPlugin.enter g.byKey := by
  induction l generalizing g with
  | nil =>
    cases h
    simp
  | cons p l ih =>
    obtain ⟨_, hg1, h⟩ := bind_eq_ok.mp h
    have hserved := claimPlugin_served hg1
    simp only [served, Prod.mk.injEq] at hserved
    obtain ⟨hnumber, hplugins, hbyKey⟩ := ih h
    refine ⟨hnumber.trans hserved.1, ?_, ?_⟩
    · rw [hplugins, hserved.2.1, append_assoc, singleton_append]
    · rw [hbyKey, hserved.2.2, foldl_cons]

end RoutingGeneration

theorem foldl_update_iff {l : List LoadedPlugin} (hl : (l.map LoadedPlugin.key).Nodup)
    (m : String → Option LoadedPlugin) (key : String) (p : LoadedPlugin) : l.foldl LoadedPlugin.enter m key = some p ↔
      (p ∈ l ∧ p.key = key) ∨ (m key = some p ∧ ∀ q ∈ l, q.key ≠ key) := by
  induction l generalizing m with
  | nil => simp
  | cons q l ih =>
    rw [map_cons, nodup_cons] at hl
    rw [foldl_cons, ih hl.2, LoadedPlugin.enter, update_apply, mem_cons, forall_mem_cons]
    by_cases hkey : key = q.key
    · subst hkey
      have hfresh : ∀ q' ∈ l, q'.key ≠ q.key := fun q' hq' heq => hl.1 (mem_map.mpr ⟨q', hq', heq⟩)
      rw [if_pos rfl]
      constructor
      · rintro (⟨hp, heq⟩ | ⟨heq, -⟩)
        · exact absurd heq (hfresh p hp)
        · cases heq
          exact .inl ⟨.inl rfl, rfl⟩
      · rintro (⟨rfl | hp, heq⟩ | ⟨-, hne, -⟩)
        · exact .inr ⟨rfl, hfresh⟩
        · exact absurd heq (hfresh p hp)
        · exact absurd rfl hne
    · rw [if_neg hkey]
      constructor
      · rintro (⟨hp, heq⟩ | ⟨hm, hrest⟩)
        · exact .inl ⟨.inr hp, heq⟩
        · exact .inr ⟨hm, Ne.symm hkey, hrest⟩
      · rintro (⟨rfl | hp, heq⟩ | ⟨hm, -, hrest⟩)
        · exact absurd heq.symm hkey
        · exact .inl ⟨hp, heq⟩
        · exact .inr ⟨hm, hrest⟩

/-- What a generation holds that is built from a layer. -/
structure Serves (g : RoutingGeneration) (l : List LoadedPlugin) : Prop where
  publishable : Publishable g.plugins
  mem : ∀ p, p ∈ g.plugins ↔ p ∈ l
  byKey : ∀ key p, g.byKey key = some p ↔ p ∈ l ∧ p.key = key

theorem Layer.mem_sorted {l : Layer} {p : LoadedPlugin} : p ∈ l.sorted ↔ p ∈ l.plugins :=
  (perm_insertionSort _ _).mem_iff

theorem Layer.sorted_nodup (l : Layer) : (l.sorted.map LoadedPlugin.key).Nodup :=
  ((perm_insertionSort _ _).map _).nodup_iff.mpr l.nodup

theorem serves_of_build {l : Layer} {number : Nat} {g : RoutingGeneration}
    (h : buildRoutingGenerationFromPlugins l number = .ok g) : g.number = number ∧ Serves g l.plugins := by
  obtain ⟨hnumber, hplugins, hbyKey⟩ := RoutingGeneration.claimPlugins_served h
  rw [nil_append] at hplugins
  have hclean : Publishable l.plugins := (build_isOk_iff l number).mp ⟨g, h⟩
  refine ⟨hnumber, ?_, fun p => ?_, fun key p => ?_⟩
  · rw [hplugins]
    refine hclean.of_subset (fun _ _ hab => hab.symm) l.sorted_nodup.of_map fun p hp => Layer.mem_sorted.mp hp
  · rw [hplugins, Layer.mem_sorted]
  · rw [hbyKey, foldl_update_iff l.sorted_nodup, Layer.mem_sorted]
    simp

end CubeRouter.Plugins
