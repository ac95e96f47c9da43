import CubeRouter.Lib.Run
import CubeRouter.Lib.Text
import Mathlib.Logic.Function.Basic

/-!
# The group map of the channel cache

`InitChannelCache` makes an inner map for each group of the abilities, and then enters every enabled channel under each
of its groups and models. A group that has no inner map is read as an empty one, but an assignment into it panics. So
the map is built exactly when every group of the channels is a group of the abilities (`buildGroups_isOk_iff`), and then
it lists the channels that list the group and the model (`buildGroups_lists`).
-/

namespace CubeRouter.Routing

open Transition Strings

/-- `group2model2channels`: a group without an inner map, or the channels of a model. -/
abbrev GroupMap := Text → Option (Text → List Nat)

inductive CachePanic
  | nilMap

structure Member where
  id : Nat
  groups : List Text
  models : List Text

namespace GroupMap

/-- A map for each group, and no channels. -/
def ofGroups (groups : List Text) : GroupMap := fun group => if group ∈ groups then some fun _ => [] else none

/-- `newGroup2model2channels[group][model] = append(newGroup2model2channels[group][model], channel.Id)`. -/
def append (id : Nat) (group : Text) (m : GroupMap) (model : Text) : Except CachePanic GroupMap :=
  match m group with
  | none => throw .nilMap
  | some inner => return Function.update m group (some (Function.update inner model (inner model ++ [id])))

def enter (m : GroupMap) (c : Member) : Except CachePanic GroupMap :=
  c.groups.foldlM (fun m group => c.models.foldlM (append c.id group) m) m

end GroupMap

/-- The loop over the enabled channels. -/
def buildGroups (groups : List Text) (channels : List Member) : Except CachePanic GroupMap :=
  channels.foldlM GroupMap.enter (.ofGroups groups)

/-! ## When it is built -/

namespace GroupMap

variable {m m' : GroupMap} {β : Type}

/-- The groups that have an inner map. -/
def keys (m : GroupMap) (group : Text) : Bool := (m group).isSome

def Lists (m : GroupMap) (group model : Text) (id : Nat) : Prop := ∃ inner, m group = some inner ∧ id ∈ inner model

/-- Only entries are added, and these are the ones that `P` says. -/
structure Adds (m m' : GroupMap) (P : Text → Text → Nat → Prop) : Prop where
  keys : m'.keys = m.keys
  lists : ∀ group model id, m'.Lists group model id ↔ m.Lists group model id ∨ P group model id

/-- A loop body that succeeds exactly when `C` holds of the groups, and adds `P`. -/
def Turn (f : GroupMap → β → Except CachePanic GroupMap) (C : (Text → Bool) → β → Prop)
    (P : β → Text → Text → Nat → Prop) : Prop :=
  ∀ m b, ((∃ m', f m b = .ok m') ↔ C m.keys b) ∧ ∀ m', f m b = .ok m' → m.Adds m' (P b)

theorem Turn.foldlM {f : GroupMap → β → Except CachePanic GroupMap} {C : (Text → Bool) → β → Prop}
    {P : β → Text → Text → Nat → Prop} (h : Turn f C P) :
    Turn (fun m l => List.foldlM f m l) (fun keys l => ∀ b ∈ l, C keys b)
      fun l group model id => ∃ b ∈ l, P b group model id := by
  intro m l
  induction l generalizing m with
  | nil =>
    refine ⟨iff_of_true ⟨m, rfl⟩ (by simp), fun m' hm' => ?_⟩
    cases hm'
    exact ⟨rfl, by simp⟩
  | cons b l ih =>
    obtain ⟨hok, hadds⟩ := h m b
    dsimp only at ih ⊢
    constructor
    · rw [List.forall_mem_cons]
      constructor
      · rintro ⟨m', hm'⟩
        obtain ⟨m1, hm1, hm'⟩ := bind_eq_ok.mp hm'
        have hrest := (ih m1).1.mp ⟨m', hm'⟩
        rw [(hadds m1 hm1).keys] at hrest
        exact ⟨hok.mp ⟨m1, hm1⟩, hrest⟩
      · rintro ⟨hb, hl⟩
        obtain ⟨m1, hm1⟩ := hok.mpr hb
        rw [← (hadds m1 hm1).keys] at hl
        obtain ⟨m', hm'⟩ := (ih m1).1.mpr hl
        exact ⟨m', bind_eq_ok.mpr ⟨m1, hm1, hm'⟩⟩
    · intro m' hm'
      obtain ⟨m1, hm1, hm'⟩ := bind_eq_ok.mp hm'
      have hfirst := hadds m1 hm1
      have hrest := (ih m1).2 m' hm'
      refine ⟨hrest.keys.trans hfirst.keys, fun group model id => ?_⟩
      rw [hrest.lists, hfirst.lists, List.exists_mem_cons_iff, or_assoc]

variable {id : Nat} {group : Text} {groups : List Text}

theorem turn_append :
    Turn (append id group) (fun keys _ => keys group = true) fun model g m i => g = group ∧ m = model ∧ i = id := by
  intro m model
  unfold append
  cases hm : m group with
  | none =>
    constructor
    · refine iff_of_false ?_ (by simp [keys, hm])
      rintro ⟨m', hm'⟩
      cases hm'
    · intro m' hm'
      cases hm'
  | some =>
    refine ⟨iff_of_true ⟨_, rfl⟩ (by simp [keys, hm]), fun m' hm' => ?_⟩
    cases hm'
    refine ⟨?_, fun g model' i => ?_⟩
    · funext g
      by_cases hg : g = group <;> simp [keys, hg, hm]
    · unfold Lists
      by_cases hg : g = group
      · subst hg
        by_cases hmodel : model' = model <;> simp [hm, hmodel]
      · simp [hg]

theorem turn_models {models : List Text} :
    Turn (fun m group => List.foldlM (append id group) m models) (fun keys group => ∀ _ ∈ models, keys group = true)
      fun group g m i => ∃ model ∈ models, g = group ∧ m = model ∧ i = id :=
  fun m group => turn_append.foldlM m models

theorem turn_enter : Turn enter (fun keys c => ∀ group ∈ c.groups, ∀ _ ∈ c.models, keys group = true)
    fun c group model id => group ∈ c.groups ∧ model ∈ c.models ∧ id = c.id := by
  intro m c
  obtain ⟨hok, hadds⟩ := turn_models.foldlM m c.groups
  refine ⟨hok, fun m' hm' => ⟨(hadds m' hm').keys, fun group model id => ?_⟩⟩
  rw [(hadds m' hm').lists]
  refine or_congr_right ⟨?_, ?_⟩
  · rintro ⟨group, hgroup, model, hmodel, rfl, rfl, rfl⟩
    exact ⟨hgroup, hmodel, rfl⟩
  · rintro ⟨hgroup, hmodel, rfl⟩
    exact ⟨group, hgroup, model, hmodel, rfl, rfl, rfl⟩

theorem keys_ofGroups : (ofGroups groups).keys group = true ↔ group ∈ groups := by
  simp only [ofGroups, keys]
  split_ifs with h <;> simp [h]

theorem not_lists_ofGroups {model : Text} : ¬(ofGroups groups).Lists group model id := by
  rintro ⟨inner, hinner, hid⟩
  simp only [ofGroups] at hinner
  split_ifs at hinner
  cases hinner
  cases hid

end GroupMap

variable {groups : List Text} {channels : List Member}

/-- Each channel is entered under a model, so each of its groups is assigned to. -/
theorem buildGroups_isOk_iff (hmodels : ∀ c ∈ channels, c.models ≠ []) :
    (∃ m, buildGroups groups channels = .ok m) ↔ ∀ c ∈ channels, ∀ group ∈ c.groups, group ∈ groups := by
  refine (GroupMap.turn_enter.foldlM _ channels).1.trans (forall₂_congr fun c hc => forall₂_congr fun group _ => ?_)
  obtain ⟨model, hmodel⟩ := List.exists_mem_of_ne_nil _ (hmodels c hc)
  rw [GroupMap.keys_ofGroups]
  exact ⟨fun h => h model hmodel, fun h _ _ => h⟩

theorem buildGroups_lists {m : GroupMap} (h : buildGroups groups channels = .ok m) (group model : Text) (id : Nat) :
    m.Lists group model id ↔ ∃ c ∈ channels, group ∈ c.groups ∧ model ∈ c.models ∧ id = c.id := by
  rw [((GroupMap.turn_enter.foldlM _ channels).2 m h).lists, or_iff_right GroupMap.not_lists_ofGroups]

end CubeRouter.Routing
