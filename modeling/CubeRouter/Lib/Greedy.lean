import Mathlib.Data.List.Basic
import Mathlib.Data.List.Pairwise

/-!
# Greedy admission

Candidates are tried one after the other and taken when they go together with what was taken before. What goes
together is `Clean`: each member is sound and every two are compatible, so that a part of a clean collection is clean.
Then the outcome is clean (`clean_admitted`), a candidate is left out only for itself or for something that was taken
(`blocked_of_not_mem_admitted`), and candidates that are clean together are all taken (`admitted_of_clean`).
-/

namespace Greedy

open List

variable {α : Type*} (P : α → Prop) (R : α → α → Prop)

structure Clean (l : List α) : Prop where
  sound : ∀ a ∈ l, P a
  pairwise : l.Pairwise R

variable {P R}

theorem Clean.nil : Clean P R [] := ⟨by simp, .nil⟩

variable {l accepted : List α} {c : α}

theorem Clean.of_sublist {l' : List α} (h : Clean P R l) (hsub : l'.Sublist l) : Clean P R l' :=
  ⟨fun a ha => h.sound a (hsub.subset ha), h.pairwise.sublist hsub⟩

/-- Any two members are compatible, and a collection of different members is clean. -/
theorem Clean.of_subset (hR : ∀ a b, R a b → R b a) {l' : List α} (h : Clean P R l) (hnodup : l'.Nodup)
    (hsub : ∀ a ∈ l', a ∈ l) : Clean P R l' := by
  refine ⟨fun a ha => h.sound a (hsub a ha), ?_⟩
  have hsymm : Std.Symm R := ⟨hR⟩
  have hall : ∀ a ∈ l, ∀ b ∈ l, a ≠ b → R a b := fun a ha b hb hne => h.pairwise.forall ha hb hne
  exact hnodup.imp_of_mem fun ha hb hne => hall _ (hsub _ ha) _ (hsub _ hb) hne

theorem clean_append_singleton (h : Clean P R l) : Clean P R (l ++ [c]) ↔ P c ∧ ∀ a ∈ l, R a c := by
  constructor
  · intro hclean
    refine ⟨hclean.sound c (by simp), fun a ha => ?_⟩
    exact (pairwise_append.mp hclean.pairwise).2.2 a ha c (by simp)
  · rintro ⟨hc, hcompatible⟩
    refine ⟨fun a ha => ?_, pairwise_append.mpr ⟨h.pairwise, by simp, fun a ha b hb => ?_⟩⟩
    · rw [mem_append, mem_singleton] at ha
      rcases ha with ha | rfl
      · exact h.sound a ha
      · exact hc
    · rw [mem_singleton.mp hb]
      exact hcompatible a ha

/-! ## The loop -/

variable (ok : List α → Bool)

def admitted : List α → List α → List α
  | accepted, [] => accepted
  | accepted, c :: rest => if ok (accepted ++ [c]) then admitted (accepted ++ [c]) rest else admitted accepted rest

variable {ok}

theorem admitted_append (accepted l l' : List α) :
    admitted ok accepted (l ++ l') = admitted ok (admitted ok accepted l) l' := by
  induction l generalizing accepted with
  | nil => rfl
  | cons c l ih =>
    rw [cons_append, admitted, admitted]
    split_ifs
    · exact ih (accepted ++ [c])
    · exact ih accepted

theorem subset_admitted (accepted l : List α) {a : α} (ha : a ∈ accepted) : a ∈ admitted ok accepted l := by
  induction l generalizing accepted with
  | nil => exact ha
  | cons c l ih =>
    rw [admitted]
    split_ifs
    · exact ih _ (mem_append_left _ ha)
    · exact ih _ ha

theorem mem_of_mem_admitted {a : α} (ha : a ∈ admitted ok accepted l) : a ∈ accepted ∨ a ∈ l := by
  induction l generalizing accepted with
  | nil => exact .inl ha
  | cons c l ih =>
    rw [admitted] at ha
    split_ifs at ha
    · rcases ih ha with ha | ha
      · rw [mem_append, mem_singleton] at ha
        rcases ha with ha | rfl
        · exact .inl ha
        · exact .inr mem_cons_self
      · exact .inr (mem_cons_of_mem c ha)
    · exact (ih ha).imp_right (mem_cons_of_mem c)

variable (hok : ∀ l, ok l = true ↔ Clean P R l)

include hok

theorem clean_admitted (h : Clean P R accepted) (l : List α) : Clean P R (admitted ok accepted l) := by
  induction l generalizing accepted with
  | nil => exact h
  | cons c l ih =>
    rw [admitted]
    split_ifs with htaken
    · exact ih ((hok _).mp htaken)
    · exact ih h

theorem admitted_of_clean (h : Clean P R (accepted ++ l)) : admitted ok accepted l = accepted ++ l := by
  induction l generalizing accepted with
  | nil => exact (append_nil _).symm
  | cons c l ih =>
    have hfirst : ok (accepted ++ [c]) = true :=
      (hok _).mpr (h.of_sublist (Sublist.append_left (by simp) accepted))
    rw [admitted, if_pos hfirst, ih (by simpa using h)]
    simp

theorem blocked_of_not_mem_admitted (h : Clean P R accepted) (hc : c ∈ l) (hout : c ∉ admitted ok accepted l) :
    ¬P c ∨ ∃ a ∈ admitted ok accepted l, ¬R a c := by
  induction l generalizing accepted with
  | nil => cases hc
  | cons d l ih =>
    rw [admitted] at hout ⊢
    split_ifs at hout ⊢ with htaken
    · rcases mem_cons.mp hc with rfl | hc
      · exact absurd (subset_admitted _ _ (by simp)) hout
      · exact ih ((hok _).mp htaken) hc hout
    · rcases mem_cons.mp hc with rfl | hc
      · rw [hok, clean_append_singleton h, not_and_or] at htaken
        rcases htaken with hP | hR
        · exact .inl hP
        · push Not at hR
          obtain ⟨a, ha, hconflict⟩ := hR
          exact .inr ⟨a, subset_admitted _ _ ha, hconflict⟩
      · exact ih h hc hout

theorem mem_admitted_of_compatible {before after : List α} (h : Clean P R accepted) (hc : P c)
    (hcompatible : ∀ a ∈ admitted ok accepted before, R a c) : c ∈ admitted ok accepted (before ++ c :: after) := by
  rw [admitted_append, admitted, if_pos]
  · exact subset_admitted _ _ (by simp)
  · rw [hok, clean_append_singleton (clean_admitted hok h before)]
    exact ⟨hc, hcompatible⟩

end Greedy
