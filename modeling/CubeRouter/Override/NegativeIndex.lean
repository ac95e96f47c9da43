import CubeRouter.Lib.JsonTree

/-!
# Negative indices in override paths

`processNegativeIndex` finds the numbers after a dot that are negative and replaces them one after the other. The array
of each is looked up in the given path, cut where the text of the number first occurs, and the replacement goes to the
first place where it follows a dot. `resolveIndices` is what negative indices mean: from the left, each is resolved in
the array that the resolved path has reached.

The two agree in every body for the paths with at most one negative number, which has to be a whole segment and must
not occur earlier as a text (`negative_indices_iff`). For any other path one of three bodies tells them apart: an
array at the place where the code looks for it (`holed`), one inside the array of the first index (`nested`), or an
array as the body.
-/

namespace CubeRouter.Override

open Strings JsonTree List Option Nat

def segments (path : Text) : List Text := path.splitOn '.'

def join (parts : List Text) : Text := ['.'].intercalate parts

/-- The number that `-\d+` matches at the start. -/
def negativeNumber? : Text → Option Text
  | '-' :: s => if s.takeWhile Char.isDigit = [] then none else some ('-' :: s.takeWhile Char.isDigit)
  | _ => none

/-- `FindAllStringSubmatch` of `\.(-\d+)`; no match starts inside another. -/
def negativeNumbers : Text → List Text
  | [] => []
  | c :: s => (if c = '.' then (negativeNumber? s).toList else []) ++ negativeNumbers s

def magnitude (negIndex : Text) : Nat := Nat.ofDigitChars 10 (negIndex.drop 1) 0

def arrayPath (path negIndex : Text) : Text := trimSuffix ((split path negIndex).headD []) ['.']

def replaceIndex (body : Json) (path result negIndex : Text) : Text :=
  let index : Int := -magnitude negIndex
  match get? (segments (arrayPath path negIndex)) body with
  | some (.array xs) =>
    let actualIndex : Int := xs.length + index
    if 0 ≤ actualIndex ∧ actualIndex < xs.length then
      replaceFirst ('.' :: negIndex) ('.' :: Nat.toDigits 10 actualIndex.toNat) result
    else result
  | _ => result

def processNegativeIndex (body : Json) (path : Text) : Text :=
  (negativeNumbers path).foldl (replaceIndex body path) path

/-! ## What negative indices mean -/

def negativeIndex? : Text → Option Nat
  | '-' :: s => (readIndex s).filter (0 < ·)
  | _ => none

def resolveSegment (node : Json) (s : Text) : Text :=
  match node, negativeIndex? s with
  | .array xs, some k => if k ≤ xs.length then Nat.toDigits 10 (xs.length - k) else s
  | _, _ => s

def resolveIndices : Json → List Text → List Text
  | _, [] => []
  | node, s :: rest =>
    let t := resolveSegment node s
    t :: match child? (step t node) node with
      | some c => resolveIndices c rest
      | none => rest

/-- The numbers other than zero. -/
def indices (path : Text) : List Text := (negativeNumbers path).filter fun negIndex => 0 < magnitude negIndex

/-- At most one negative number, a segment after the first, with no earlier occurrence of its text. -/
def OneIndex (path : Text) : Prop :=
  (∀ s ∈ (segments path).head?, negativeIndex? s = none) ∧
    (indices path = [] ∨ ∃ pre negIndex post, segments path = pre ++ negIndex :: post ∧ indices path = [negIndex] ∧
      ¬negIndex <:+: join pre)

/-! ## Numbers in a path -/

theorem join_segments (path : Text) : join (segments path) = path := intercalate_splitOn '.'

theorem segments_join {parts : List Text} (h : ∀ s ∈ parts, '.' ∉ s) (hne : parts ≠ []) :
    segments (join parts) = parts :=
  splitOn_intercalate '.' h hne

theorem segments_ne_nil (path : Text) : segments path ≠ [] := splitOn_ne_nil '.' path

variable {path : Text} {s negIndex : Text} {pre post : List Text} {k : Nat}

theorem not_dot_of_mem_segments (h : s ∈ segments path) : '.' ∉ s := not_mem_of_mem_splitOn h

structure IsNegative (negIndex : Text) : Prop where
  shape : ∃ d, negIndex = '-' :: d ∧ d ≠ [] ∧ ∀ c ∈ d, c.isDigit = true

section Numbers

variable {negIndex s t path : Text}

theorem IsNegative.ne_nil (h : IsNegative negIndex) : negIndex ≠ [] := by
  obtain ⟨d, rfl, -⟩ := h.shape
  exact cons_ne_nil '-' d

theorem IsNegative.not_dot (h : IsNegative negIndex) : '.' ∉ negIndex := by
  obtain ⟨d, rfl, -, hd⟩ := h.shape
  intro hmem
  rcases mem_cons.mp hmem with heq | hmem
  · revert heq
    decide
  · exact absurd (hd _ hmem) (by decide)

theorem count_digits {d : Text} (h : ∀ c ∈ d, c.isDigit = true) : d.count '-' = 0 := by
  rw [count_eq_zero]
  exact fun hmem => absurd (h _ hmem) (by decide)

theorem IsNegative.count (h : IsNegative negIndex) : negIndex.count '-' = 1 := by
  obtain ⟨d, rfl, -, hd⟩ := h.shape
  rw [count_cons_self, count_digits hd]

theorem isDigit_toDigits (n : Nat) : ∀ c ∈ Nat.toDigits 10 n, c.isDigit = true :=
  fun _ hc => isDigit_of_mem_toDigits (by decide) (by decide) hc

theorem negativeNumber?_eq_some (h : negativeNumber? s = some negIndex) : IsNegative negIndex ∧ negIndex <+: s := by
  unfold negativeNumber? at h
  split at h
  · rename_i s
    split_ifs at h with hnil
    obtain rfl := some.inj h
    refine ⟨⟨_, rfl, hnil, fun c hc => ?_⟩, ?_⟩
    · have hall := all_takeWhile (p := Char.isDigit) (l := s)
      exact all_eq_true.mp hall c hc
    · exact cons_prefix_cons.mpr ⟨rfl, takeWhile_prefix _⟩
  · cases h

theorem negativeIndex?_eq_some {k : Nat} (h : negativeIndex? s = some k) :
    negativeNumber? s = some s ∧ magnitude s = k ∧ 0 < k := by
  unfold negativeIndex? at h
  split at h
  · rename_i d
    obtain ⟨hread, hpos⟩ := filter_eq_some_iff.mp h
    unfold readIndex at hread
    split_ifs at hread with hdigits
    have hall : d.takeWhile Char.isDigit = d := takeWhile_eq_self_iff.mpr (all_eq_true.mp hdigits.2)
    refine ⟨?_, some.inj hread, of_decide_eq_true hpos⟩
    rw [negativeNumber?, hall, if_neg hdigits.1]
  · cases h

theorem negativeIndex?_of_whole (h : IsNegative s) (hpos : 0 < magnitude s) :
    negativeIndex? s = some (magnitude s) := by
  obtain ⟨d, rfl, hne, hd⟩ := h.shape
  have hread : readIndex d = some (magnitude ('-' :: d)) := if_pos ⟨hne, all_eq_true.mpr hd⟩
  rw [negativeIndex?, hread]
  simpa using hpos

theorem negativeNumber?_append (ht : ∀ c ∈ t.head?, c.isDigit = false ∧ c ≠ '-') :
    negativeNumber? (s ++ t) = negativeNumber? s := by
  have htake : ∀ d : Text, (d ++ t).takeWhile Char.isDigit = d.takeWhile Char.isDigit := by
    intro d
    rw [takeWhile_append]
    split_ifs with hlength
    · have hnil : t.takeWhile Char.isDigit = [] := by
        cases t with
        | nil => rfl
        | cons c => rw [takeWhile_cons_of_neg (by simp [(ht c rfl).1])]
      rw [hnil, append_nil]
      exact (List.takeWhile_prefix _).eq_of_length hlength |>.symm
    · rfl
  cases s with
  | nil =>
    cases t with
    | nil => rfl
    | cons c =>
      rw [nil_append, negativeNumber?, negativeNumber?]
      · intro s hs
        cases hs
      · intro s hs
        exact (ht c rfl).2 (cons.inj hs).1
  | cons c =>
    by_cases hc : c = '-'
    · subst hc
      rw [cons_append, negativeNumber?, negativeNumber?, htake]
    · rw [cons_append, negativeNumber?, negativeNumber?]
      all_goals
        intro r hr
        exact hc (cons.inj hr).1

theorem negativeNumbers_append (h : '.' ∉ s) : negativeNumbers (s ++ t) = negativeNumbers t := by
  induction s with
  | nil => rfl
  | cons c s ih =>
    rw [mem_cons, not_or] at h
    rw [cons_append, negativeNumbers, if_neg (Ne.symm h.1), ih h.2, nil_append]

theorem negativeNumbers_join {rest : List Text} (hs : '.' ∉ s) (hrest : ∀ r ∈ rest, '.' ∉ r) :
    negativeNumbers (join (s :: rest)) = rest.filterMap negativeNumber? := by
  rw [join, intercalate_cons_eq, negativeNumbers_append hs]
  induction rest with
  | nil => rfl
  | cons r rest ih =>
    have hr := hrest r mem_cons_self
    have hnext : ∀ c ∈ (rest.flatMap ('.' :: ·)).head?, c.isDigit = false ∧ c ≠ '-' := by
      intro c hc
      cases rest with
      | nil => cases hc
      | cons =>
        obtain rfl : '.' = c := some.inj hc
        decide
    rw [flatMap_cons, cons_append, negativeNumbers, if_pos rfl, negativeNumber?_append hnext,
      negativeNumbers_append hr, ih fun r' hr' => hrest r' (mem_cons_of_mem r hr'), filterMap_cons]
    cases negativeNumber? r <;> rfl

theorem infix_of_mem_negativeNumbers (h : negIndex ∈ negativeNumbers path) :
    IsNegative negIndex ∧ '.' :: negIndex <:+: path := by
  induction path with
  | nil => cases h
  | cons c s ih =>
    rw [negativeNumbers, mem_append] at h
    rcases h with h | h
    · split_ifs at h with hc
      · obtain ⟨hneg, hpre⟩ := negativeNumber?_eq_some (mem_toList.mp h)
        exact ⟨hneg, (hc ▸ cons_prefix_cons.mpr ⟨rfl, hpre⟩ : '.' :: negIndex <+: c :: s).isInfix⟩
      · cases h
    · obtain ⟨hneg, hinside⟩ := ih h
      exact ⟨hneg, infix_cons hinside⟩

theorem split_of_negativeNumbers {a b : Text} (h : [a, b].Sublist (negativeNumbers path)) :
    ∃ x y, path = x ++ y ∧ '.' :: a <:+: x ∧ '.' :: b <:+: y := by
  induction path with
  | nil => cases h
  | cons c s ih =>
    have hlater : [a, b].Sublist (negativeNumbers s) →
        ∃ x y, c :: s = x ++ y ∧ '.' :: a <:+: x ∧ '.' :: b <:+: y := by
      intro h
      obtain ⟨x, y, rfl, hx, hy⟩ := ih h
      exact ⟨c :: x, y, rfl, infix_cons hx, hy⟩
    rw [negativeNumbers] at h
    split_ifs at h with hc
    · cases hnumber : negativeNumber? s with
      | none =>
        rw [hnumber] at h
        exact hlater h
      | some =>
        rw [hnumber, toList_some, singleton_append] at h
        rcases sublist_cons_iff.mp h with h | ⟨_, heq, hrest⟩
        · exact hlater h
        · obtain ⟨rfl, rfl⟩ := cons.inj heq
          obtain ⟨hneg, r, rfl⟩ := negativeNumber?_eq_some hnumber
          rw [negativeNumbers_append hneg.not_dot] at hrest
          have hb := (infix_of_mem_negativeNumbers (singleton_sublist.mp hrest)).2
          exact ⟨'.' :: a, r, by rw [hc]; rfl, infix_rfl, hb⟩
    · exact hlater h

end Numbers

/-! ## What the code replaces -/

def arrayLength? : Option Json → Option Nat
  | some (.array xs) => some xs.length
  | _ => none

section Replace

variable {body : Json} {path result negIndex : Text}

theorem replaceIndex_eq : replaceIndex body path result negIndex =
    match arrayLength? (get? (segments (arrayPath path negIndex)) body) with
    | some n =>
      if 0 < magnitude negIndex ∧ magnitude negIndex ≤ n then
        replaceFirst ('.' :: negIndex) ('.' :: Nat.toDigits 10 (n - magnitude negIndex)) result
      else result
    | none => result := by
  unfold replaceIndex
  split
  · rename_i xs hget
    rw [hget, arrayLength?]
    dsimp only
    have hdiff : (↑xs.length + -(↑(magnitude negIndex) : Int)).toNat = xs.length - magnitude negIndex := by omega
    rw [hdiff]
    refine if_congr ?_ rfl rfl
    omega
  · rename_i hget
    have hnone : arrayLength? (get? (segments (arrayPath path negIndex)) body) = none := by
      unfold arrayLength?
      split
      · exact absurd ‹_› (hget _)
      · rfl
    rw [hnone]

theorem replaceIndex_of_resolved {n : Nat} (hn : arrayLength? (get? (segments (arrayPath path negIndex)) body) = some n)
    (hpos : 0 < magnitude negIndex) (hle : magnitude negIndex ≤ n) : replaceIndex body path result negIndex =
      replaceFirst ('.' :: negIndex) ('.' :: Nat.toDigits 10 (n - magnitude negIndex)) result := by
  rw [replaceIndex_eq, hn]
  exact if_pos ⟨hpos, hle⟩

theorem process_eq : processNegativeIndex body path = (indices path).foldl (replaceIndex body path) path := by
  rw [processNegativeIndex, indices, foldl_filter]
  congr 1
  funext result negIndex
  split_ifs with hpos
  · rfl
  · rw [replaceIndex_eq]
    have hzero : ¬0 < magnitude negIndex := fun h => hpos (decide_eq_true h)
    cases arrayLength? (get? (segments (arrayPath path negIndex)) body) with
    | none => rfl
    | some => exact if_neg fun h => hzero h.1

theorem count_replace (h : IsNegative negIndex) (hinside : '.' :: negIndex <:+: result) (n : Nat) :
    (replaceFirst ('.' :: negIndex) ('.' :: Nat.toDigits 10 n) result).count '-' + 1 = result.count '-' := by
  have hcount := count_replaceFirst hinside (cons_ne_nil _ _) ('.' :: Nat.toDigits 10 n) '-'
  rw [count_cons_of_ne (by decide), count_cons_of_ne (by decide), h.count,
    count_digits (isDigit_toDigits n)] at hcount
  exact hcount

theorem replaceIndex_eq_or (h : IsNegative negIndex) : replaceIndex body path result negIndex = result ∨
    (replaceIndex body path result negIndex).count '-' + 1 = result.count '-' := by
  rw [replaceIndex_eq]
  split
  · split_ifs
    · by_cases hinside : '.' :: negIndex <:+: result
      · exact .inr (count_replace h hinside _)
      · exact .inl (replaceFirst_of_absent hinside _)
    · exact .inl rfl
  · exact .inl rfl

theorem count_foldl_le (body : Json) (path : Text) {l : List Text}
    (h : ∀ negIndex ∈ l, IsNegative negIndex) (result : Text) :
    (l.foldl (replaceIndex body path) result).count '-' ≤ result.count '-' := by
  induction l generalizing result with
  | nil => exact le_refl _
  | cons a l ih =>
    have hle := ih (fun x hx => h x (mem_cons_of_mem a hx)) (replaceIndex body path result a)
    rcases replaceIndex_eq_or (h a mem_cons_self) with heq | _
    · rw [heq] at hle
      rw [foldl_cons, heq]
      exact hle
    · rw [foldl_cons]
      omega

end Replace

/-! ## Paths with one index -/

section Resolve

variable {node : Json} {parts pre rest : List Text} {s : Text}

theorem resolveSegment_of_none (h : negativeIndex? s = none) (node : Json) : resolveSegment node s = s := by
  unfold resolveSegment
  rw [h]
  cases node <;> rfl

theorem resolveIndices_append (h : ∀ s ∈ pre, negativeIndex? s = none) (node : Json) (rest : List Text) :
    resolveIndices node (pre ++ rest) = pre ++ match get? pre node with
      | some c => resolveIndices c rest | none => rest := by
  induction pre generalizing node with
  | nil => rfl
  | cons s _ ih =>
    rw [cons_append, resolveIndices, get?, resolveSegment_of_none (h s mem_cons_self), cons_append]
    cases child? (step s node) node with
    | none => rfl
    | some c =>
      dsimp only
      rw [ih (fun x hx => h x (mem_cons_of_mem s hx)) c]
      rfl

theorem resolveIndices_of_none (h : ∀ s ∈ parts, negativeIndex? s = none) (node : Json) :
    resolveIndices node parts = parts := by
  have heq := resolveIndices_append h node []
  rw [append_nil] at heq
  rw [heq]
  cases get? parts node <;> exact append_nil parts

theorem not_dot_resolveSegment (h : '.' ∉ s) (node : Json) : '.' ∉ resolveSegment node s := by
  unfold resolveSegment
  split
  · split_ifs
    · exact fun hmem => absurd (isDigit_toDigits _ _ hmem) (by decide)
    · exact h
  · exact h

theorem not_dot_resolveIndices (h : ∀ s ∈ parts, '.' ∉ s) (node : Json) : ∀ s ∈ resolveIndices node parts, '.' ∉ s := by
  induction parts generalizing node with
  | nil => exact forall_mem_nil _
  | cons s parts ih =>
    have hrest : ∀ x ∈ parts, '.' ∉ x := fun x hx => h x (mem_cons_of_mem s hx)
    intro x hx
    rcases mem_cons.mp hx with rfl | hx
    · exact not_dot_resolveSegment (h s mem_cons_self) node
    · split at hx
      · exact ih hrest _ x hx
      · exact hrest x hx

theorem segments_resolved (body : Json) (path : Text) :
    segments (join (resolveIndices body (segments path))) = resolveIndices body (segments path) := by
  refine segments_join (not_dot_resolveIndices (fun _ => not_dot_of_mem_segments) body) ?_
  obtain ⟨s, _, hsegments⟩ := exists_cons_of_ne_nil (segments_ne_nil path)
  rw [hsegments, resolveIndices]
  exact cons_ne_nil _ _

/-- The numbers other than zero at the start of segments. -/
def indicesOf (rest : List Text) : List Text :=
  (rest.filterMap negativeNumber?).filter fun negIndex => 0 < magnitude negIndex

theorem indices_eq (h : segments path = s :: rest) : indices path = indicesOf rest := by
  have hdots : ∀ x ∈ s :: rest, '.' ∉ x := fun x hx => not_dot_of_mem_segments (h ▸ hx)
  have hpath : path = join (s :: rest) := by rw [← h, join_segments]
  rw [indices, indicesOf, hpath, negativeNumbers_join (hdots s mem_cons_self) fun r hr =>
    hdots r (mem_cons_of_mem s hr)]

theorem indicesOf_append (l l' : List Text) : indicesOf (l ++ l') = indicesOf l ++ indicesOf l' := by
  rw [indicesOf, filterMap_append, filter_append]
  rfl

theorem mem_indicesOf (hs : s ∈ rest) {k : Nat} (h : negativeIndex? s = some k) : s ∈ indicesOf rest := by
  obtain ⟨hnumber, rfl, hpos⟩ := negativeIndex?_eq_some h
  exact mem_filter.mpr ⟨mem_filterMap.mpr ⟨s, hs, hnumber⟩, decide_eq_true hpos⟩

theorem negativeIndex?_of_indicesOf_eq_nil (h : indicesOf rest = []) : ∀ s ∈ rest, negativeIndex? s = none := by
  intro s hs
  cases hindex : negativeIndex? s with
  | none => rfl
  | some => exact absurd (h ▸ mem_indicesOf hs hindex) not_mem_nil

end Resolve

theorem isNegative_of_mem_indices (h : negIndex ∈ indices path) :
    IsNegative negIndex ∧ '.' :: negIndex <:+: path ∧ 0 < magnitude negIndex := by
  obtain ⟨hmem, hpos⟩ := mem_filter.mp h
  obtain ⟨hneg, hinside⟩ := infix_of_mem_negativeNumbers hmem
  exact ⟨hneg, hinside, of_decide_eq_true hpos⟩

theorem trimSuffix_append (s p : Text) : trimSuffix (s ++ p) p = s := by
  rw [trimSuffix, if_pos (hasSuffix_iff.mpr (suffix_append s p)), length_append, Nat.add_sub_cancel, take_left]

theorem replaceIndex_own {body : Json} (hneg : IsNegative negIndex)
    (hpre : ∀ s ∈ pre, '.' ∉ s) (hne : pre ≠ []) (hfirst : ¬negIndex <:+: join pre) :
    replaceIndex body (join (pre ++ negIndex :: post)) (join (pre ++ negIndex :: post)) negIndex =
      match arrayLength? (get? pre body) with
      | some n =>
        if 0 < magnitude negIndex ∧ magnitude negIndex ≤ n then
          join (pre ++ Nat.toDigits 10 (n - magnitude negIndex) :: post)
        else join (pre ++ negIndex :: post)
      | none => join (pre ++ negIndex :: post) := by
  have hshape : ∀ s, join (pre ++ s :: post) = join pre ++ ('.' :: s ++ post.flatMap ('.' :: ·)) := by
    intro s
    rw [join, intercalate_append_cons hne, intercalate_cons_eq]
    rfl
  have hnot : ∀ t r, t <:+ join pre → ¬negIndex <+: t ++ '.' :: r := by
    intro t r ht hp
    exact hfirst (((prefix_append_cons_iff hneg.not_dot).mp hp).isInfix.trans ht.isInfix)
  have hpath : arrayPath (join (pre ++ negIndex :: post)) negIndex = join pre := by
    have hcut : join (pre ++ negIndex :: post) = (join pre ++ ['.']) ++ (negIndex ++ post.flatMap ('.' :: ·)) := by
      rw [hshape, append_assoc]
      rfl
    rw [arrayPath, headD_split, hcut, before_eq ?_ (prefix_append _ _) hneg.ne_nil, trimSuffix_append]
    intro t hne ht hp
    rcases suffix_concat_iff.mp ht with hnil | ⟨t', rfl, ht'⟩
    · exact hne hnil
    · rw [append_assoc] at hp
      exact hnot t' _ ht' hp
  rw [replaceIndex_eq, hpath, segments_join hpre hne]
  cases arrayLength? (get? pre body) with
  | none => rfl
  | some =>
    refine if_congr Iff.rfl ?_ rfl
    rw [hshape, hshape]
    refine replaceFirst_eq _ ?_ (cons_ne_nil _ _)
    intro t hne ht hp
    obtain ⟨d, t, rfl⟩ := exists_cons_of_ne_nil hne
    exact hnot t _ ((suffix_cons d t).trans ht) (cons_prefix_cons.mp hp).2

theorem process_of_oneIndex (h : OneIndex path) (body : Json) :
    processNegativeIndex body path = join (resolveIndices body (segments path)) := by
  obtain ⟨hhead, hindices⟩ := h
  obtain ⟨s, _, hsegments⟩ := exists_cons_of_ne_nil (segments_ne_nil path)
  have hs : negativeIndex? s = none := hhead s (hsegments ▸ rfl)
  rw [process_eq]
  rcases hindices with hnil | ⟨pre, negIndex, post, hshape, hone, hfirst⟩
  · have hrest := negativeIndex?_of_indicesOf_eq_nil (indices_eq hsegments ▸ hnil)
    have hall : ∀ x ∈ segments path, negativeIndex? x = none := by
      rw [hsegments]
      exact forall_mem_cons.mpr ⟨hs, hrest⟩
    rw [hnil, resolveIndices_of_none hall, join_segments]
    rfl
  · obtain ⟨hneg, -, hpos⟩ :=
      isNegative_of_mem_indices (hone.symm ▸ mem_singleton_self negIndex : negIndex ∈ indices path)
    have hwhole := negativeIndex?_of_whole hneg hpos
    cases pre with
    | nil =>
      rw [hsegments, nil_append] at hshape
      rw [(cons.inj hshape).1, hwhole] at hs
      cases hs
    | cons _ pre =>
      rw [hsegments, cons_append] at hshape
      obtain ⟨rfl, rfl⟩ := cons.inj hshape
      have hothers : indicesOf pre = [] ∧ indicesOf post = [] := by
        rw [indices_eq hsegments, indicesOf_append, ← singleton_append, indicesOf_append] at hone
        have hmem : negIndex ∈ indicesOf [negIndex] := mem_indicesOf (mem_singleton_self _) hwhole
        have hlength := congrArg List.length hone
        have hpos := length_pos_of_mem hmem
        simp only [length_append, length_singleton] at hlength
        exact ⟨eq_nil_of_length_eq_zero (by omega), eq_nil_of_length_eq_zero (by omega)⟩
      have hpre : ∀ x ∈ s :: pre, negativeIndex? x = none :=
        forall_mem_cons.mpr ⟨hs, negativeIndex?_of_indicesOf_eq_nil hothers.1⟩
      have hpost := negativeIndex?_of_indicesOf_eq_nil hothers.2
      have hdots : ∀ x ∈ s :: pre, '.' ∉ x := by
        intro x hx
        have hmem : x ∈ segments path := hsegments ▸ mem_append_left _ hx
        exact not_dot_of_mem_segments hmem
      have hpath : path = join (s :: pre ++ negIndex :: post) := by
        rw [cons_append, ← hsegments, join_segments]
      rw [hone, foldl_cons, foldl_nil, hsegments, ← cons_append, resolveIndices_append hpre]
      conv_lhs => rw [hpath]
      rw [replaceIndex_own hneg hdots (cons_ne_nil s pre) hfirst]
      cases get? (s :: pre) body with
      | none => rfl
      | some c =>
        have hlast : resolveIndices c (negIndex :: post) = resolveSegment c negIndex :: post := by
          rw [resolveIndices]
          split
          · rw [resolveIndices_of_none hpost]
          · rfl
        dsimp only
        rw [hlast]
        cases c with
        | array =>
          unfold resolveSegment
          rw [hwhole]
          dsimp only [arrayLength?]
          split_ifs with hle hle' hle'
          · rfl
          · exact absurd hle.2 hle'
          · exact absurd ⟨hpos, hle'⟩ hle
          · rfl
        | _ => rfl

/-! ## Bodies that tell the other paths apart -/

def chain : List Text → Json → Json
  | [], leaf => leaf
  | s :: parts, leaf => .object [(s, chain parts leaf)]

def nulls (n : Nat) : List Json := List.replicate n .null

def holed (parts : List Text) (n : Nat) : Json := chain parts (.array (nulls n))

/-- The second array is the first element of the first, which has `k` elements. -/
def nested (pre mid : List Text) (k n : Nat) : Json := chain pre (.array (holed mid n :: nulls (k - 1)))

section Bodies

variable {parts pre mid rest qs : List Text} {leaf : Json} {n k : Nat}

theorem child?_chain (s t : Text) (parts : List Text) (leaf : Json) :
    child? (step t (chain (s :: parts) leaf)) (chain (s :: parts) leaf) =
      if s = t then some (chain parts leaf) else none := rfl

theorem resolveSegment_chain (s t : Text) (parts : List Text) (leaf : Json) :
    resolveSegment (chain (s :: parts) leaf) t = t := by
  rfl

theorem resolveIndices_chain (parts rest : List Text) (leaf : Json) :
    resolveIndices (chain parts leaf) (parts ++ rest) = parts ++ resolveIndices leaf rest := by
  induction parts with
  | nil => rfl
  | cons s _ ih =>
    rw [cons_append, resolveIndices, resolveSegment_chain, child?_chain, if_pos rfl]
    exact congrArg (s :: ·) ih

theorem resolveIndices_of_leaving (h : ¬parts <+: qs) : resolveIndices (chain parts leaf) qs = qs := by
  induction parts generalizing qs with
  | nil => exact absurd nil_prefix h
  | cons s _ ih =>
    cases qs with
    | nil => rfl
    | cons q =>
      rw [resolveIndices, resolveSegment_chain, child?_chain]
      split_ifs with hq
      · rw [cons_prefix_cons, not_and] at h
        exact congrArg (q :: ·) (ih (h hq))
      · rfl

theorem child?_null (t : Step) : child? t .null = none := by
  cases t <;> rfl

theorem resolveIndices_null (parts : List Text) : resolveIndices .null parts = parts := by
  cases parts with
  | nil => rfl
  | cons =>
    rw [resolveIndices, child?_null]
    rfl

theorem child?_nulls {t : Step} {c : Json} (h : child? t (.array (nulls n)) = some c) : c = .null := by
  cases t with
  | key => cases h
  | index => exact eq_of_mem_replicate (mem_of_getElem? h)

theorem resolveIndices_nulls (s : Text) (post : List Text) :
    resolveIndices (.array (nulls n)) (s :: post) = resolveSegment (.array (nulls n)) s :: post := by
  rw [resolveIndices]
  split
  · rename_i c hc
    rw [child?_nulls hc, resolveIndices_null]
  · rfl

theorem resolveSegment_array {s : Text} (hs : negativeIndex? s = some k) {xs : List Json} (h : k ≤ xs.length) :
    resolveSegment (.array xs) s = Nat.toDigits 10 (xs.length - k) := by
  unfold resolveSegment
  rw [hs]
  exact if_pos h

theorem length_nulls (n : Nat) : (nulls n).length = n := length_replicate

theorem arrayLength?_chain (h : ∀ t r, qs = parts ++ t :: r → arrayLength? (get? (t :: r) leaf) = none) :
    arrayLength? (get? qs (chain parts leaf)) = if qs = parts then arrayLength? (some leaf) else none := by
  induction parts generalizing qs with
  | nil =>
    cases qs with
    | nil => rfl
    | cons q qs => exact h q qs rfl
  | cons s _ ih =>
    cases qs with
    | nil => rfl
    | cons q =>
      rw [get?, child?_chain]
      by_cases hq : s = q
      · subst hq
        rw [if_pos rfl]
        have hrest := ih fun t r hqs => h t r (congrArg (s :: ·) hqs)
        refine hrest.trans (if_congr ?_ rfl rfl)
        rw [cons_inj_right]
      · rw [if_neg hq, if_neg fun heq => hq (cons.inj heq).1.symm]
        rfl

theorem arrayLength?_holed (qs parts : List Text) (n : Nat) :
    arrayLength? (get? qs (holed parts n)) = if qs = parts then some n else none := by
  have hbelow : ∀ t r, qs = parts ++ t :: r → arrayLength? (get? (t :: r) (.array (nulls n))) = none := by
    intro t r _
    rw [get?]
    cases hc : child? (step t (.array (nulls n))) (.array (nulls n)) with
    | none => rfl
    | some =>
      rw [child?_nulls hc]
      cases r with
      | nil => rfl
      | cons s r =>
        change arrayLength? (get? (s :: r) .null) = none
        rw [get?, child?_null]
        rfl
  rw [holed, arrayLength?_chain hbelow]
  exact if_congr Iff.rfl (congrArg some (length_nulls n)) rfl

theorem arrayLength?_nested (h : ∀ t r, qs = pre ++ t :: r → readIndex t = none) :
    arrayLength? (get? qs (nested pre mid k n)) = if qs = pre then some (k - 1 + 1) else none := by
  have hbelow : ∀ t r, qs = pre ++ t :: r →
      arrayLength? (get? (t :: r) (.array (holed mid n :: nulls (k - 1)))) = none := by
    intro t r hqs
    have hstep : step t (.array (holed mid n :: nulls (k - 1))) = .key t := by
      simp [step, h t r hqs]
    rw [get?, hstep]
    rfl
  rw [nested, arrayLength?_chain hbelow]
  refine if_congr Iff.rfl (congrArg some ?_) rfl
  rw [length_cons, length_nulls]

end Bodies

/-- The code's array of a number is reached by a text that the path starts with. -/
theorem arrayPath_starts : arrayPath path negIndex <+: path := by
  rw [arrayPath, headD_split]
  refine List.IsPrefix.trans ?_ (before_starts negIndex path)
  unfold trimSuffix
  split_ifs
  · exact take_prefix _ _
  · exact prefix_rfl

theorem head?_process (body : Json) {c : Char} (h : path.head? = some c) (hc : c ≠ '.') :
    (processNegativeIndex body path).head? = some c := by
  have hall : ∀ (l : List Text) (result : Text), result.head? = some c →
      (l.foldl (replaceIndex body path) result).head? = some c := by
    intro l
    induction l with
    | nil => exact fun _ h => h
    | cons a l ih =>
      intro result hresult
      refine ih _ ?_
      rw [replaceIndex_eq]
      split
      · split_ifs
        · obtain ⟨s, rfl⟩ : ∃ s, result = c :: s := ⟨result.tail, (cons_head?_tail hresult).symm⟩
          have hdot : hasPrefix (c :: s) ('.' :: a) = false := by
            rw [Bool.eq_false_iff]
            exact fun hp => hc (cons_prefix_cons.mp (hasPrefix_iff.mp hp)).1.symm
          rw [replaceFirst, hdot]
          rfl
        · exact hresult
      · exact hresult
  exact hall _ path h

theorem not_first {rest : List Text} (hsegments : segments path = s :: rest) (hs : negativeIndex? s = some k) :
    ∃ body, processNegativeIndex body path ≠ join (resolveIndices body (segments path)) := by
  refine ⟨.array (nulls k), fun heq => ?_⟩
  obtain ⟨d, rfl, -⟩ := (negativeNumber?_eq_some (negativeIndex?_eq_some hs).1).1.shape
  have hpath : path.head? = some '-' := by
    rw [← join_segments path, hsegments, join, intercalate_cons_eq]
    rfl
  have hhead := head?_process (.array (nulls k)) hpath (by decide)
  rw [heq, hsegments, resolveIndices_nulls, resolveSegment_array hs (length_nulls k).ge, length_nulls, Nat.sub_self,
    join, intercalate_cons_eq] at hhead
  cases hhead

/-- Of two indices the second is never resolved inside the array of the first. -/
theorem not_two {mid : List Text} {a b : Text} {m : Nat}
    (hsegments : segments path = pre ++ a :: (mid ++ b :: post)) (ha : negativeIndex? a = some k)
    (hb : negativeIndex? b = some m) :
    ∃ body, processNegativeIndex body path ≠ join (resolveIndices body (segments path)) := by
  have hk := (negativeIndex?_eq_some ha).2.2
  have hsame : ∀ n, processNegativeIndex (nested pre mid k n) path = processNegativeIndex
    (nested pre mid k m) path := by
    intro n
    rw [process_eq, process_eq]
    congr 1
    funext result negIndex
    have hnumber : ∀ t r, segments (arrayPath path negIndex) = pre ++ t :: r → readIndex t = none := by
      intro t r hqs
      have ht : (segments (arrayPath path negIndex))[pre.length]? = some t := by simp [hqs]
      obtain ⟨piece, hpiece, htpre⟩ := splitOn_of_starts arrayPath_starts ht
      change (segments path)[pre.length]? = some piece at hpiece
      rw [hsegments] at hpiece
      obtain rfl : a = piece := by simpa using hpiece
      obtain ⟨d, rfl, -⟩ := (negativeNumber?_eq_some (negativeIndex?_eq_some ha).1).1.shape
      cases t with
      | nil => rfl
      | cons =>
        rw [(cons_prefix_cons.mp htpre).1]
        rfl
    rw [replaceIndex_eq, replaceIndex_eq, arrayLength?_nested hnumber, arrayLength?_nested hnumber]
  have hmeaning : ∀ n, m ≤ n → ∃ rest, resolveIndices (nested pre mid k n) (segments path) =
      pre ++ Nat.toDigits 10 0 :: (mid ++ Nat.toDigits 10 (n - m) :: rest) := by
    intro n hle
    have hlength : (holed mid n :: nulls (k - 1)).length = k := by
      rw [length_cons, length_nulls]
      omega
    have hzero : resolveSegment (.array (holed mid n :: nulls (k - 1))) a = Nat.toDigits 10 0 := by
      rw [resolveSegment_array ha hlength.ge, hlength, Nat.sub_self]
    refine ⟨post, ?_⟩
    rw [hsegments, nested, resolveIndices_chain, resolveIndices, hzero]
    change pre ++ Nat.toDigits 10 0 :: resolveIndices (holed mid n) (mid ++ b :: post) = _
    rw [holed, resolveIndices_chain, resolveIndices_nulls, resolveSegment_array hb (by rw [length_nulls]; exact hle),
      length_nulls]
  by_contra hall
  have hright : ∀ n, processNegativeIndex (nested pre mid k n) path =
      join (resolveIndices (nested pre mid k n) (segments path)) :=
    fun n => by_contra fun hne => hall ⟨_, hne⟩
  obtain ⟨_, hrest⟩ := hmeaning m (le_refl m)
  obtain ⟨_, hrest'⟩ := hmeaning (m + 1) (le_succ m)
  have heq := congrArg segments (((hright (m + 1)).symm.trans (hsame (m + 1))).trans (hright m))
  rw [segments_resolved, segments_resolved, hrest, hrest', Nat.sub_self, Nat.add_sub_cancel_left,
    append_cancel_left_eq] at heq
  have hdigits := (cons.inj (append_cancel_left (cons.inj heq).2)).1
  revert hdigits
  decide

section Necessity

variable {path : Text} {negIndex a b : Text} {n : Nat}

theorem count_holed_lt (h : negIndex ∈ indices path) (hn : magnitude negIndex ≤ n) :
    (processNegativeIndex (holed (segments (arrayPath path negIndex)) n) path).count '-' < path.count '-' := by
  rw [process_eq]
  have hneg : ∀ x ∈ indices path, IsNegative x ∧ '.' :: x <:+: path ∧ 0 < magnitude x :=
    fun _ => isNegative_of_mem_indices
  have hall : ∀ (l : List Text), (∀ x ∈ l, x ∈ indices path) → negIndex ∈ l →
      (l.foldl (replaceIndex (holed (segments (arrayPath path negIndex)) n) path) path).count '-' < path.count '-' := by
    intro l
    induction l with
    | nil => exact fun _ h => absurd h not_mem_nil
    | cons x l ih =>
      intro hl hmem
      have hx := hneg x (hl x mem_cons_self)
      have hrest : ∀ y ∈ l, y ∈ indices path := fun y hy => hl y (mem_cons_of_mem x hy)
      have hlater := count_foldl_le (holed (segments (arrayPath path negIndex)) n) path
        fun y hy => (hneg y (hrest y hy)).1
      rw [foldl_cons]
      rcases mem_cons.mp hmem with rfl | hmem
      · have hfound := arrayLength?_holed (segments (arrayPath path negIndex)) (segments (arrayPath path negIndex)) n
        rw [if_pos rfl] at hfound
        rw [replaceIndex_of_resolved hfound hx.2.2 hn]
        have hle := hlater (replaceFirst ('.' :: negIndex) ('.' :: Nat.toDigits 10 (n - magnitude negIndex)) path)
        have hcount := count_replace hx.1 hx.2.1 (n - magnitude negIndex)
        omega
      · rcases replaceIndex_eq_or hx.1 with heq | _
        · rw [heq]
          exact ih hrest hmem
        · have hle := hlater (replaceIndex (holed (segments (arrayPath path negIndex)) n) path path x)
          omega
  exact hall _ (fun _ h => h) h

theorem count_holed_two {l parts : List Text} (h : indices path = a :: b :: l)
    (ha : segments (arrayPath path a) = parts) (hb : segments (arrayPath path b) = parts) (hna : magnitude a ≤ n)
    (hnb : magnitude b ≤ n) : (processNegativeIndex (holed parts n) path).count '-' + 2 ≤ path.count '-' := by
  have hneg : ∀ x ∈ indices path, IsNegative x ∧ '.' :: x <:+: path ∧ 0 < magnitude x :=
    fun _ => isNegative_of_mem_indices
  have hresolved : ∀ x, segments (arrayPath path x) = parts →
      arrayLength? (get? (segments (arrayPath path x)) (holed parts n)) = some n := by
    intro x hx
    rw [arrayLength?_holed, if_pos hx]
  rw [h] at hneg
  have hnega := hneg a mem_cons_self
  have hnegb := hneg b (mem_cons_of_mem a mem_cons_self)
  obtain ⟨x, y, hpath, hx, hy⟩ : ∃ x y, path = x ++ y ∧ '.' :: a <:+: x ∧ '.' :: b <:+: y := by
    apply split_of_negativeNumbers
    have hsub : [a, b].Sublist (indices path) := by
      rw [h]
      exact (nil_sublist l).cons_cons b |>.cons_cons a
    exact hsub.trans filter_sublist
  have hfirst := count_replace hnega.1 hnega.2.1 (n - magnitude a)
  have hinside : '.' :: b <:+: replaceFirst ('.' :: a) ('.' :: Nat.toDigits 10 (n - magnitude a)) path := by
    rw [hpath, replaceFirst_append hx (cons_ne_nil _ _)]
    exact hy.trans (suffix_append _ y).isInfix
  have hsecond := count_replace hnegb.1 hinside (n - magnitude b)
  have hlater := count_foldl_le (holed parts n) path (l := l)
    (fun z hz => (hneg z (mem_cons_of_mem a (mem_cons_of_mem b hz))).1)
    (replaceFirst ('.' :: b) ('.' :: Nat.toDigits 10 (n - magnitude b))
      (replaceFirst ('.' :: a) ('.' :: Nat.toDigits 10 (n - magnitude a)) path))
  rw [process_eq, h, foldl_cons, foldl_cons, replaceIndex_of_resolved (hresolved a ha) hnega.2.2 hna,
    replaceIndex_of_resolved (hresolved b hb) hnegb.2.2 hnb]
  omega

theorem join_append_cons {pre : List Text} (hne : pre ≠ []) (s : Text) (post : List Text) :
    join (pre ++ s :: post) = join pre ++ ('.' :: s ++ post.flatMap ('.' :: ·)) := by
  rw [join, intercalate_append_cons hne, intercalate_cons_eq]
  rfl

theorem resolveIndices_holed (pre : List Text) (n : Nat) (s : Text) (post : List Text) :
    resolveIndices (holed pre n) (pre ++ s :: post) = pre ++ resolveSegment (.array (nulls n)) s :: post := by
  rw [holed, resolveIndices_chain, resolveIndices_nulls]

variable (hright : ∀ body, processNegativeIndex body path = join (resolveIndices body (segments path)))

include hright

/-- The place where the code looks for the array is followed by an index. -/
theorem index_after (h : negIndex ∈ indices path) :
    ∃ s post k, segments path = segments (arrayPath path negIndex) ++ s :: post ∧ negativeIndex? s = some k := by
  by_contra hnone
  have hlt := count_holed_lt h (le_refl _)
  have hunchanged : resolveIndices (holed (segments (arrayPath path negIndex)) (magnitude negIndex)) (segments path) =
      segments path := by
    by_cases hpre : segments (arrayPath path negIndex) <+: segments path
    · obtain ⟨rest, hrest⟩ := hpre
      cases rest with
      | nil => rw [← hrest, holed, resolveIndices_chain, resolveIndices]
      | cons s post =>
        have hs : negativeIndex? s = none := by
          cases hs : negativeIndex? s with
          | none => rfl
          | some k => exact absurd ⟨s, post, k, hrest.symm, hs⟩ hnone
        rw [← hrest, resolveIndices_holed, resolveSegment_of_none hs]
    · exact resolveIndices_of_leaving hpre
  rw [hright, hunchanged, join_segments] at hlt
  exact lt_irrefl _ hlt

/-- All numbers are looked up at one place. -/
theorem arrayPath_unique (ha : a ∈ indices path) (hb : b ∈ indices path) :
    segments (arrayPath path a) = segments (arrayPath path b) := by
  obtain ⟨s, _, k, hs, hk⟩ := index_after hright ha
  obtain ⟨t, _, m, ht, hm⟩ := index_after hright hb
  rcases append_eq_append_iff.mp (hs.symm.trans ht) with ⟨mid, hmid, hpost⟩ | ⟨mid, hmid, hpost⟩
  · cases mid with
    | nil => rw [hmid, append_nil]
    | cons =>
      obtain ⟨rfl, rfl⟩ := cons.inj hpost
      obtain ⟨body, hne⟩ := not_two hs hk hm
      exact absurd (hright body) hne
  · cases mid with
    | nil => rw [hmid, append_nil]
    | cons =>
      obtain ⟨rfl, rfl⟩ := cons.inj hpost
      obtain ⟨body, hne⟩ := not_two ht hm hk
      exact absurd (hright body) hne

theorem oneIndex_of_process : OneIndex path := by
  obtain ⟨first, _, hsegments⟩ := exists_cons_of_ne_nil (segments_ne_nil path)
  refine ⟨?_, ?_⟩
  · intro s hs
    rw [hsegments] at hs
    obtain rfl := some.inj hs
    cases hindex : negativeIndex? first with
    | none => rfl
    | some =>
      obtain ⟨body, hne⟩ := not_first hsegments hindex
      exact absurd (hright body) hne
  · cases hindices : indices path with
    | nil => exact .inl rfl
    | cons a l =>
      have ha : a ∈ indices path := hindices ▸ mem_cons_self
      obtain ⟨s, post, k, hs, hk⟩ := index_after hright ha
      obtain ⟨hneg, rfl, _⟩ := negativeIndex?_eq_some hk
      obtain ⟨u, _, hparts⟩ := exists_cons_of_ne_nil (segments_ne_nil (arrayPath path a))
      cases l with
      | nil =>
        have hmem : s ∈ indices path := by
          rw [indices_eq hsegments]
          refine mem_indicesOf ?_ hk
          rw [hparts, hsegments, cons_append] at hs
          rw [(cons.inj hs).2]
          exact mem_append_right _ mem_cons_self
        obtain rfl : s = a := mem_singleton.mp (hindices ▸ hmem)
        refine .inr ⟨segments (arrayPath path s), s, post, hs, rfl, fun hinside => ?_⟩
        rw [join_segments] at hinside
        have hpath : path = arrayPath path s ++ ('.' :: s ++ post.flatMap ('.' :: ·)) := by
          conv_lhs => rw [← join_segments path, hs, join_append_cons (segments_ne_nil _), join_segments]
        have hle := length_before_le hinside ('.' :: s ++ post.flatMap ('.' :: ·))
        rw [← hpath] at hle
        have hshort : (arrayPath path s).length ≤ (before s path).length := by
          rw [arrayPath, headD_split, trimSuffix]
          split_ifs
          · exact (List.take_prefix _ _).length_le
          · exact le_refl _
        have hlength := length_pos_iff.mpr (negativeNumber?_eq_some hneg).1.ne_nil
        omega
      | cons b =>
        have hb : b ∈ indices path := hindices ▸ mem_cons_of_mem a mem_cons_self
        have htwo := count_holed_two hindices rfl (arrayPath_unique hright hb ha)
          (le_add_right (magnitude a) (magnitude b)) (le_add_left (magnitude b) (magnitude a))
        rw [hright, hs, resolveIndices_holed, join_append_cons (segments_ne_nil _)] at htwo
        have hpath : path.count '-' = (join (segments (arrayPath path a)) ++
            ('.' :: s ++ post.flatMap ('.' :: ·))).count '-' := by
          rw [← join_append_cons (segments_ne_nil _), ← hs, join_segments]
        have hone := (negativeNumber?_eq_some hneg).1.count
        simp only [count_append, count_cons] at hpath htwo hone
        omega

end Necessity

end CubeRouter.Override
