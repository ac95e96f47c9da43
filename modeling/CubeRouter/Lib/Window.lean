import Mathlib.Data.List.Basic

/-!
# Counting in a sliding window

`recent d now l` is how many of the times `l` lie within the last `d`. A limiter does not keep all times. What it keeps
stands for all of them as long as it has as many recent ones (`StandsFor`), now and later: this survives when both get
a new time and when what is dropped is no longer recent. A `Log` of `k` times stands for all when times are added only
while fewer than `k` are recent, and then no window has more than `k` (`Sparse.cons`).
-/

namespace Window

open List

/-- How many lie within the last `d`. -/
def recent (d now : Int) (l : List Int) : Nat := l.countP fun x => now - x < d

/-- From now on both count the same. -/
def StandsFor (d now : Int) (q l : List Int) : Prop := ∀ t, now ≤ t → recent d t q = recent d t l

/-- No window of length `d` has more than `k`. -/
def Sparse (d : Int) (k : Nat) (l : List Int) : Prop := ∀ w, (l.countP fun x => w ≤ x ∧ x < w + d) ≤ k

variable {d now now' x : Int} {q l : List Int} {k : Nat}

theorem recent_cons (d now x : Int) (l : List Int) :
    recent d now (x :: l) = recent d now l + if now - x < d then 1 else 0 := by
  simp [recent, countP_cons]

theorem recent_concat (d now x : Int) (l : List Int) : recent d now (l ++ [x]) = recent d now (x :: l) := by
  simp [recent, countP_cons]

theorem recent_le_length (d now : Int) (l : List Int) : recent d now l ≤ l.length := countP_le_length

theorem recent_eq_length (h : ∀ x ∈ l, now - x < d) : recent d now l = l.length :=
  countP_eq_length.mpr fun x hx => by simpa using h x hx

theorem recent_eq_zero (h : ∀ x ∈ l, d ≤ now - x) : recent d now l = 0 :=
  countP_eq_zero.mpr fun x hx => by simpa using h x hx

theorem StandsFor.later (h : StandsFor d now q l) (hle : now ≤ now') : StandsFor d now' q l :=
  fun t ht => h t (Int.le_trans hle ht)

theorem StandsFor.cons (h : StandsFor d now q l) (x : Int) : StandsFor d now (x :: q) (x :: l) := by
  intro t ht
  rw [recent_cons, recent_cons, h t ht]

theorem StandsFor.tail (h : StandsFor d now (x :: q) l) (hx : d ≤ now - x) : StandsFor d now q l := by
  intro t ht
  have hall := h t ht
  have hold : ¬t - x < d := by omega
  simpa [recent_cons, hold] using hall

theorem StandsFor.clear (h : StandsFor d now q l) (hq : ∀ x ∈ q, d ≤ now - x) : StandsFor d now [] l := by
  intro t ht
  have hnone : recent d t q = 0 := recent_eq_zero fun x hx => by
    have hold := hq x hx
    omega
  rw [← h t ht, hnone]
  rfl

theorem recent_anti (h : now ≤ now') : recent d now' l ≤ recent d now l :=
  countP_mono_left fun x _ hx => by
    simp only [decide_eq_true_eq] at hx ⊢
    omega

theorem sparse_nil (d : Int) (k : Nat) : Sparse d k [] := fun _ => Nat.zero_le k

theorem Sparse.cons (h : Sparse d k l) (hfew : recent d now l < k) (hlater : now ≤ x) : Sparse d k (x :: l) := by
  intro w
  have hold := h w
  simp only [countP_cons]
  split_ifs with hin
  · simp only [decide_eq_true_eq] at hin
    have hmono : (l.countP fun x => w ≤ x ∧ x < w + d) ≤ recent d now l :=
      countP_mono_left fun y _ hy => by
        simp only [decide_eq_true_eq] at hy ⊢
        omega
    omega
  · exact hold

/-! ## Logs -/

/-- At most `k` times, the last one first, that stand for all. -/
structure Log (d : Int) (k : Nat) (now : Int) (q l : List Int) : Prop where
  length : q.length ≤ k
  sorted : q.Pairwise (· ≥ ·)
  past : ∀ x ∈ q, x ≤ now
  stands : StandsFor d now q l

theorem log_nil (d : Int) (k : Nat) (now : Int) : Log d k now [] [] :=
  ⟨Nat.zero_le k, .nil, fun _ hx => absurd hx not_mem_nil, fun _ _ => rfl⟩

theorem Log.later (h : Log d k now q l) (hle : now ≤ now') : Log d k now' q l :=
  ⟨h.length, h.sorted, fun x hx => Int.le_trans (h.past x hx) hle, h.stands.later hle⟩

theorem Log.clear (h : Log d k now q l) (hq : ∀ x ∈ q, d ≤ now - x) : Log d k now [] l :=
  ⟨Nat.zero_le k, .nil, fun _ hx => absurd hx not_mem_nil, h.stands.clear hq⟩

theorem Log.recent_le (h : Log d k now q l) : recent d now l ≤ q.length := by
  rw [← h.stands now (Int.le_refl now)]
  exact recent_le_length d now q

theorem Log.recent_of_oldest (h : Log d k now (q ++ [x]) l) (hx : now - x < d) : recent d now l = q.length + 1 := by
  rw [← h.stands now (Int.le_refl now), recent_eq_length, length_append, length_singleton]
  intro y hy
  rcases mem_append.mp hy with hold | hnew
  · have hge := (pairwise_append.mp h.sorted).2.2 y hold x (mem_singleton.mpr rfl)
    omega
  · rwa [mem_singleton.mp hnew]

theorem Log.recent_of_stale (h : Log d k now (q ++ [x]) l) (hx : d ≤ now - x) : recent d now l ≤ q.length := by
  have hold : ¬now - x < d := by omega
  rw [← h.stands now (Int.le_refl now), recent_concat, recent_cons, if_neg hold]
  exact recent_le_length d now q

theorem Log.push (h : Log d k now q l) (hfew : recent d now l < k) : Log d k now ((now :: q).take k) (now :: l) := by
  have hcons : (now :: q).Pairwise (· ≥ ·) := pairwise_cons.mpr ⟨h.past, h.sorted⟩
  refine ⟨length_take_le _ _, hcons.sublist (take_sublist _ _), fun y hy => ?_, ?_⟩
  · rcases mem_cons.mp (mem_of_mem_take hy) with rfl | hold
    · exact Int.le_refl _
    · exact h.past y hold
  · rcases Nat.lt_or_ge q.length k with hroom | hfull
    · rw [take_of_length_le (Nat.succ_le_of_lt hroom)]
      exact h.stands.cons now
    · have hlength := h.length
      rcases eq_nil_or_concat q with rfl | ⟨rest, x, rfl⟩
      · simp only [length_nil] at hfull
        omega
      · have hrest : rest.length + 1 = k := by
          simp only [concat_eq_append, length_append, length_singleton] at hfull hlength
          omega
        rw [concat_eq_append] at h ⊢
        have hx : d ≤ now - x := by
          by_contra hrecent
          have hall := h.recent_of_oldest (Int.not_le.mp hrecent)
          omega
        have htake : (now :: (rest ++ [x])).take k = now :: rest := by
          rw [← cons_append, take_append_of_le_length (by simp; omega), take_of_length_le (by simp; omega)]
        rw [htake]
        refine StandsFor.cons (StandsFor.tail (x := x) (fun t ht => ?_) hx) now
        rw [← recent_concat, h.stands t ht]

end Window
