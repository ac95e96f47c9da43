import CubeRouter.Routing.Abilities

/-!
# Abilities as a projection of channels

`Projects`: for a group, a model and a channel there is an ability exactly when the channel lists both, and it has the
columns of the channel. The rows are made by a loop that takes each pair of names whose key `group|model` it has not
met; `Clashless` channels are those for which the pairs it takes are all of them (`Written.projects_iff`).
-/

namespace CubeRouter.Routing

open Relational Strings Transition List Option

/-! ## The projection -/

def Channel.projected (id : Nat) (c : Channel) (group model : Text) : Option Ability :=
  if group ∈ c.groups_ ∧ model ∈ c.models_ then some (c.ability id (group, model)) else none

/-- At the channel `id`. -/
def ProjectsAt (s : Tables) (id : Nat) : Prop :=
  ∀ group model, s.abilities.find? (group, model, id) =
    (s.channels.get? id).bind fun c => c.projected id group model

def Tables.Projects (s : Tables) : Prop := ∀ id, ProjectsAt s id

/-- No two pairs of names of the channel have the same key. -/
def Channel.Clashless (c : Channel) : Prop :=
  ∀ p ∈ c.pairs, ∀ q ∈ c.pairs, abilityKey p = abilityKey q → p = q

instance (c : Channel) : Decidable c.Clashless := by
  unfold Channel.Clashless
  infer_instance

variable {c : Channel} {taken l : List (Text × Text)} {p q : Text × Text} {id : Nat} {s : Tables}

theorem mem_pairs {group model : Text} : (group, model) ∈ c.pairs ↔ group ∈ c.groups_ ∧ model ∈ c.models_ := by
  simp [Channel.pairs]
  tauto

theorem Channel.Clashless.congr {c' : Channel} (h : c.Clashless) (hmodels : c'.models = c.models)
    (hgroup : c'.group = c.group) : c'.Clashless := by
  have hpairs : c'.pairs = c.pairs := by
    simp [Channel.pairs, Channel.models_, Channel.groups_, hmodels, hgroup]
  intro p hp q hq
  rw [hpairs] at hp hq
  exact h p hp q hq

theorem mem_takeNew (h : q ∈ takeNew taken p) : q ∈ taken ∨ q = p := by
  unfold takeNew at h
  split_ifs at h
  · exact .inl h
  · simpa using h

theorem key_mem_takeNew (h : q ∈ taken ∨ q = p) : ∃ q' ∈ takeNew taken p, abilityKey q' = abilityKey q := by
  unfold takeNew
  split_ifs with htaken
  · rcases h with h | rfl
    · exact ⟨q, h, rfl⟩
    · obtain ⟨q', hq', hkey⟩ := any_eq_true.mp htaken
      exact ⟨q', hq', by simpa using hkey⟩
  · exact ⟨q, by simpa using h, rfl⟩

theorem mem_foldl_takeNew (h : q ∈ l.foldl takeNew taken) : q ∈ taken ∨ q ∈ l := by
  induction l generalizing taken with
  | nil => exact .inl h
  | cons p l ih =>
    rcases ih h with h | h
    · rcases mem_takeNew h with h | rfl
      · exact .inl h
      · exact .inr mem_cons_self
    · exact .inr (mem_cons_of_mem p h)

theorem key_mem_foldl_takeNew (h : q ∈ taken ∨ q ∈ l) : ∃ q' ∈ l.foldl takeNew taken, abilityKey q' = abilityKey q := by
  induction l generalizing taken q with
  | nil => exact ⟨q, by simpa using h, rfl⟩
  | cons p l ih =>
    rcases h with h | h
    · obtain ⟨q', hq', hkey⟩ := key_mem_takeNew (p := p) (.inl h)
      obtain ⟨q'', hq'', hkey'⟩ := ih (.inl hq')
      exact ⟨q'', hq'', hkey'.trans hkey⟩
    · rcases mem_cons.mp h with rfl | h
      · obtain ⟨q', hq', hkey⟩ : ∃ q' ∈ takeNew taken q, abilityKey q' = abilityKey q := key_mem_takeNew (.inr rfl)
        obtain ⟨q'', hq'', hkey'⟩ := ih (.inl hq')
        exact ⟨q'', hq'', hkey'.trans hkey⟩
      · exact ih (.inr h)

theorem takeNew_inj (h : ∀ q ∈ taken, ∀ q' ∈ taken, abilityKey q = abilityKey q' → q = q') :
    ∀ q ∈ takeNew taken p, ∀ q' ∈ takeNew taken p, abilityKey q = abilityKey q' → q = q' := by
  unfold takeNew
  split_ifs with htaken
  · exact h
  · have hnew : ∀ q ∈ taken, abilityKey q ≠ abilityKey p := by simpa using htaken
    intro q hq q' hq' hkey
    simp only [mem_append, mem_singleton] at hq hq'
    rcases hq with hq | rfl <;> rcases hq' with hq' | rfl
    · exact h q hq q' hq' hkey
    · exact absurd hkey (hnew q hq)
    · exact absurd hkey.symm (hnew q' hq')
    · rfl

theorem foldl_takeNew_inj (h : ∀ q ∈ taken, ∀ q' ∈ taken, abilityKey q = abilityKey q' → q = q') :
    ∀ q ∈ l.foldl takeNew taken, ∀ q' ∈ l.foldl takeNew taken, abilityKey q = abilityKey q' → q = q' := by
  induction l generalizing taken with
  | nil => exact h
  | cons p l ih => exact ih (takeNew_inj h)

theorem key_mem_newPairs (h : p ∈ c.pairs) : ∃ q ∈ c.newPairs, abilityKey q = abilityKey p :=
  key_mem_foldl_takeNew (.inr h)

theorem mem_pairs_of_newPairs (h : p ∈ c.newPairs) : p ∈ c.pairs := by
  rcases mem_foldl_takeNew h with h | h
  · cases h
  · exact h

theorem newPairs_inj (hp : p ∈ c.newPairs) (hq : q ∈ c.newPairs) (hkey : abilityKey p = abilityKey q) : p = q := by
  refine foldl_takeNew_inj ?_ p hp q hq hkey
  intro p hp
  cases hp

theorem newPairs_nonempty (c : Channel) : ∃ p, p ∈ c.newPairs := by
  obtain ⟨group, hgroup⟩ := exists_mem_of_ne_nil _ (splitOn_ne_nil ',' c.group)
  obtain ⟨_, hmodel⟩ := exists_mem_of_ne_nil _ (splitOn_ne_nil ',' c.models)
  obtain ⟨p, hp, -⟩ := key_mem_newPairs (mem_pairs.mpr ⟨hgroup, hmodel⟩)
  exact ⟨p, hp⟩

theorem Channel.Clashless.mem_newPairs (h : c.Clashless) : p ∈ c.newPairs ↔ p ∈ c.pairs := by
  refine ⟨mem_pairs_of_newPairs, fun hp => ?_⟩
  obtain ⟨q, hq, hkey⟩ := key_mem_newPairs hp
  rw [← h q (mem_pairs_of_newPairs hq) p hp hkey]
  exact hq

/-! ## Writing the rows of a channel -/

theorem find?_foldl_insertNew (id : Nat) (c : Channel) (ps : List (Text × Text)) (x : Abilities) (group model : Text)
    (j : Nat) : (ps.foldl (fun x p => x.insertNew (c.ability id p)) x).find? (group, model, j) =
      if j = id ∧ (group, model) ∈ ps ∧ x.find? (group, model, j) = none then some (c.ability id (group, model))
      else x.find? (group, model, j) := by
  induction ps generalizing x with
  | nil => simp
  | cons p _ ih =>
    rw [foldl_cons, ih, Index.find?_insertNew]
    have hkey : (group, model, j) = (c.ability id p).key ↔ j = id ∧ (group, model) = p := by
      obtain ⟨g, m⟩ := p
      simp only [Ability.key, Prod.mk.injEq]
      tauto
    by_cases hfree : x.find? (group, model, j) = none
    · by_cases hp : j = id ∧ (group, model) = p
      · obtain ⟨rfl, rfl⟩ := hp
        simp [hkey, hfree]
      · simp only [hkey]
        by_cases hj : j = id
        · have hne : (group, model) ≠ p := fun h => hp ⟨hj, h⟩
          simp [hne]
        · simp [hj]
    · simp [hfree]

theorem find?_deleteWhere_channelId (gone : Nat → Prop) [DecidablePred gone] (x : Abilities) (group model : Text)
    (j : Nat) : (x.deleteWhere fun a => gone a.channelId).find? (group, model, j) =
      if gone j then none else x.find? (group, model, j) := by
  rw [Index.find?_deleteWhere]
  cases hfound : x.find? (group, model, j) with
  | none => simp
  | some a =>
    have hid : a.channelId = j := by
      have hkey := Index.key_of_find? hfound
      simp only [Ability.key, Prod.mk.injEq] at hkey
      exact hkey.2.2
    split_ifs with hj
    · exact filter_some_neg (by simp [hid, hj])
    · exact filter_some_pos (by simp [hid, hj])

theorem find?_deleteAbilities (id : Nat) (x : Abilities) (group model : Text) (j : Nat) :
    (deleteAbilities id x).find? (group, model, j) = if j = id then none else x.find? (group, model, j) :=
  find?_deleteWhere_channelId (· = id) x group model j

theorem find?_updateAbilityStatus (id : Nat) (status : Bool) (x : Abilities) (k : Text × Text × Nat) :
    (updateAbilityStatus id status x).find? k =
      (x.find? k).map fun a => if a.channelId = id then { a with enabled := status } else a := by
  refine (Index.find?_updateWhere x _ _ _ k).trans ?_
  simp

theorem find?_updateAbilityStatusByTag (tag : Text) (status : Bool) (x : Abilities) (k : Text × Text × Nat) :
    (updateAbilityStatusByTag tag status x).find? k =
      (x.find? k).map fun a => if a.tag = some tag then { a with enabled := status } else a := by
  refine (Index.find?_updateWhere x _ _ _ k).trans ?_
  simp

theorem find?_updateAbilityByTag (tag : Text) (newTag : Option Text) (priority : Option Int) (weight : Option Nat)
    (x : Abilities) (k : Text × Text × Nat) : (updateAbilityByTag tag newTag priority weight x).find? k =
      (x.find? k).map fun a =>
        if a.tag = some tag then
          { a with
            tag := newTag <|> a.tag
            priority := priority.getD a.priority
            weight := if weight.getD 0 = 0 then a.weight else weight.getD 0 }
        else a := by
  refine (Index.find?_updateWhere x _ _ _ k).trans ?_
  simp

/-- The rows of the channel are those that the loop makes. -/
def Written (x : Abilities) (id : Nat) (c : Channel) : Prop :=
  ∀ group model, x.find? (group, model, id) =
    if (group, model) ∈ c.newPairs then some (c.ability id (group, model)) else none

def Free (x : Abilities) (id : Nat) : Prop := ∀ group model, x.find? (group, model, id) = none

variable {x : Abilities} {j : Nat}

theorem written_addAbilities (c : Channel) (hfree : Free x id) : Written (c.addAbilities id x) id c := by
  intro group model
  rw [Channel.addAbilities, find?_foldl_insertNew, hfree group model]
  simp

theorem find?_addAbilities_of_ne (hj : j ≠ id) (c : Channel) (x : Abilities) (group model : Text) :
    (c.addAbilities id x).find? (group, model, j) = x.find? (group, model, j) := by
  rw [Channel.addAbilities, find?_foldl_insertNew, if_neg fun h => hj h.1]

theorem written_updateAbilities (id : Nat) (c : Channel) (x : Abilities) : Written (c.updateAbilities id x) id c := by
  apply written_addAbilities
  intro group model
  rw [find?_deleteAbilities, if_pos rfl]

theorem find?_updateAbilities_of_ne (hj : j ≠ id) (c : Channel) (x : Abilities) (group model : Text) :
    (c.updateAbilities id x).find? (group, model, j) = x.find? (group, model, j) := by
  rw [Channel.updateAbilities, find?_addAbilities_of_ne hj, find?_deleteAbilities, if_neg hj]

/-- Rows that the loop makes are the projection when no key is met twice. -/
theorem Written.projects_iff (hc : s.channels.get? id = some c) (h : Written s.abilities id c) :
    ProjectsAt s id ↔ c.Clashless := by
  constructor
  · intro hproj
    have hnew : ∀ p ∈ c.pairs, p ∈ c.newPairs := by
      rintro ⟨group, model⟩ hp
      have hrow := hproj group model
      rw [h group model, hc, bind_some, Channel.projected, if_pos (mem_pairs.mp hp)] at hrow
      by_contra hnot
      rw [if_neg hnot] at hrow
      cases hrow
    intro p hp q hq hkey
    exact newPairs_inj (hnew p hp) (hnew q hq) hkey
  · intro hclash group model
    rw [h group model, hc, bind_some, Channel.projected]
    simp [hclash.mem_newPairs, mem_pairs]

theorem Written.not_free (h : Written x id c) : ¬Free x id := by
  intro hfree
  obtain ⟨⟨group, model⟩, hp⟩ := newPairs_nonempty c
  have hrow := h group model
  rw [hfree group model, if_pos hp] at hrow
  cases hrow

theorem projectsAt_of_none (hnone : s.channels.get? id = none) : ProjectsAt s id ↔ Free s.abilities id := by
  simp [ProjectsAt, hnone, Free]

theorem projectsAt_congr {s' : Tables} (hc : s'.channels.get? id = s.channels.get? id)
    (ha : ∀ group model, s'.abilities.find? (group, model, id) = s.abilities.find? (group, model, id)) :
    ProjectsAt s' id ↔ ProjectsAt s id := by
  simp [ProjectsAt, hc, ha]

/-! ## A loop over channels -/

section Loop

variable {f : Nat × Channel → Abilities → Abilities}
  (hf : ∀ c x group model j, j ≠ c.1 → (f c x).find? (group, model, j) = x.find? (group, model, j))

include hf

variable {j : Nat}

theorem find?_foldl_of_notMem {l : List (Nat × Channel)} (hj : ∀ c ∈ l, j ≠ c.1) (x : Abilities)
    (group model : Text) : (l.foldl (fun x c => f c x) x).find? (group, model, j) = x.find? (group, model, j) := by
  induction l generalizing x with
  | nil => rfl
  | cons c l ih =>
    rw [foldl_cons, ih fun c' hc' => hj c' (mem_cons_of_mem c hc')]
    exact hf c x group model j (hj c mem_cons_self)

theorem find?_foldl_of_mem {l : List (Nat × Channel)} (hl : (l.map Prod.fst).Nodup)
    (hc : (j, c) ∈ l) (x : Abilities) :
    ∃ y : Abilities, (∀ group model, y.find? (group, model, j) = x.find? (group, model, j)) ∧
      ∀ group model, (l.foldl (fun x c => f c x) x).find? (group, model, j) = (f (j, c) y).find? (group, model, j) := by
  induction l generalizing x with
  | nil => cases hc
  | cons c' l ih =>
    obtain ⟨hnew, hl⟩ := nodup_cons.mp hl
    rcases mem_cons.mp hc with rfl | hmem
    · refine ⟨x, fun _ _ => rfl, fun group model => ?_⟩
      exact find?_foldl_of_notMem hf (fun c' hc' hid => hnew (mem_map.mpr ⟨c', hc', hid.symm⟩)) _ group model
    · obtain ⟨y, hy, hfold⟩ := ih hl hmem (f c' x)
      refine ⟨y, fun group model => ?_, hfold⟩
      rw [hy group model]
      exact hf c' x group model j fun hid => hnew (mem_map.mpr ⟨_, hmem, hid⟩)

end Loop

theorem nodup_select (channels : Table Channel) (p : Channel → Bool) : ((channels.select p).map Prod.fst).Nodup :=
  pairwise_map.mpr ((Table.select_ids_lt channels p).imp Nat.ne_of_lt)

theorem mem_getChannelsByTag {channels : Table Channel} {tag : Text} :
    (id, c) ∈ getChannelsByTag channels tag ↔ channels.get? id = some c ∧ c.tag = some tag := by
  rw [getChannelsByTag, mem_insertionSort, Table.mem_select_iff, decide_eq_true_eq]

theorem nodup_getChannelsByTag (channels : Table Channel) (tag : Text) :
    ((getChannelsByTag channels tag).map Prod.fst).Nodup :=
  (((perm_insertionSort _ _).map _).nodup_iff).mpr (nodup_select channels _)

end CubeRouter.Routing
