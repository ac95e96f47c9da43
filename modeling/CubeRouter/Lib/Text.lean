import Mathlib.Data.List.DropRight

/-!
# Texts

A text is the list of its characters, and the functions are those of Go's `strings` package. They agree on every text
that is valid UTF-8: a text of it starts, ends or is cut at bytes exactly where it does at characters.
-/

namespace Strings

open List

abbrev Text := List Char

def text (s : String) : Text := s.toList

instance decidableMem (s : Text) (l : List Text) : Decidable (s ∈ l) := List.instDecidableMemOfLawfulBEq s l

/-- `unicode.IsSpace`. -/
def isSpace (c : Char) : Bool :=
  let n := c.toNat
  (0x09 ≤ n ∧ n ≤ 0x0D) ∨ n = 0x20 ∨ n = 0x85 ∨ n = 0xA0 ∨ n = 0x1680 ∨ (0x2000 ≤ n ∧ n ≤ 0x200A) ∨ n = 0x2028 ∨
    n = 0x2029 ∨ n = 0x202F ∨ n = 0x205F ∨ n = 0x3000

def trimSpace (s : Text) : Text := (s.dropWhile isSpace).rdropWhile isSpace

/-- `strings.Trim` of one character. -/
def trim (s : Text) (c : Char) : Text := (s.dropWhile (· = c)).rdropWhile (· = c)

def hasPrefix (s p : Text) : Bool := p.isPrefixOf s

def hasSuffix (s p : Text) : Bool := p.isSuffixOf s

def trimPrefix (s p : Text) : Text := if hasPrefix s p then s.drop p.length else s

def trimSuffix (s p : Text) : Text := if hasSuffix s p then s.take (s.length - p.length) else s

def contains (s p : Text) : Bool := s.tails.any fun t => hasPrefix t p

/-- `strings.Split` from a piece that has been read so far, `skip` characters before the end of a separator. -/
def splitFrom (sep : Text) : Nat → Text → Text → List Text
  | _, piece, [] => [piece]
  | skip + 1, piece, _ :: s => splitFrom sep skip piece s
  | 0, piece, c :: s =>
    if hasPrefix (c :: s) sep then piece :: splitFrom sep (sep.length - 1) [] s else splitFrom sep 0 (piece ++ [c]) s

def split (s sep : Text) : List Text := splitFrom sep 0 [] s

def replaceFirst (old new : Text) : Text → Text
  | [] => []
  | c :: s => if hasPrefix (c :: s) old then new ++ (c :: s).drop old.length else c :: replaceFirst old new s

/-- `len` of a string is in bytes. -/
def byteLength (s : Text) : Nat := s.foldl (fun n c => n + c.utf8Size) 0

variable {s p x old : Text} {c : Char}

theorem hasPrefix_iff : hasPrefix s p = true ↔ p <+: s := isPrefixOf_iff_prefix

theorem hasSuffix_iff : hasSuffix s p = true ↔ p <:+ s := isSuffixOf_iff_suffix

variable {α : Type} {a : α} {l1 l2 r1 r2 : List α} {t sep y : Text}

theorem dropWhile_rdropWhile_dropWhile (p : α → Bool) (s : List α) :
    ((s.dropWhile p).rdropWhile p).dropWhile p = (s.dropWhile p).rdropWhile p := by
  rw [dropWhile_eq_self_iff]
  intro hlength
  have hbegins := rdropWhile_prefix p (s.dropWhile p)
  rw [hbegins.getElem hlength]
  have hfirst := dropWhile_eq_self_iff.mp (dropWhile_idempotent (p := p) s)
  exact hfirst (Nat.lt_of_lt_of_le hlength hbegins.length_le)

theorem trimSpace_trimSpace (s : Text) : trimSpace (trimSpace s) = trimSpace s := by
  unfold trimSpace
  rw [dropWhile_rdropWhile_dropWhile, rdropWhile_idempotent]

theorem trim_eq_self {first last : Text} (hfirst : first <+: s) (hlast : last <:+ s) (hstart : c ∉ first)
    (hend : c ∉ last) (hfirst' : first ≠ []) (hlast' : last ≠ []) : trim s c = s := by
  have hleft : s.dropWhile (fun x => decide (x = c)) = s := by
    rw [dropWhile_eq_self_iff]
    intro hlength
    have hpos := length_pos_iff.mpr hfirst'
    rw [← hfirst.getElem hpos]
    intro heq
    exact hstart (of_decide_eq_true heq ▸ getElem_mem hpos)
  unfold trim
  rw [hleft, rdropWhile_eq_self_iff]
  intro hne
  rw [← hlast.getLast hlast']
  intro heq
  exact hend (of_decide_eq_true heq ▸ getLast_mem hlast')

theorem cut_injective (h1 : a ∉ l1) (h2 : a ∉ l2) (h : l1 ++ a :: r1 = l2 ++ a :: r2) : l1 = l2 ∧ r1 = r2 := by
  rw [append_eq_append_iff] at h
  rcases h with ⟨t, rfl, ht⟩ | ⟨t, rfl, ht⟩
  · cases t with
    | nil => exact ⟨by simp, by simpa using ht⟩
    | cons =>
      rw [cons_append, cons.injEq] at ht
      simp [ht.1] at h2
  · cases t with
    | nil => exact ⟨by simp, by simpa using ht.symm⟩
    | cons =>
      rw [cons_append, cons.injEq] at ht
      simp [ht.1] at h1

theorem cut_injective_last (h1 : a ∉ r1) (h2 : a ∉ r2) (h : l1 ++ a :: r1 = l2 ++ a :: r2) : l1 = l2 ∧ r1 = r2 := by
  have hreverse := congrArg List.reverse h
  simp only [reverse_append, reverse_cons, append_assoc] at hreverse
  obtain ⟨hr, hl⟩ := cut_injective (by simpa using h1) (by simpa using h2) hreverse
  exact ⟨reverse_injective hl, reverse_injective hr⟩

theorem trim_ne_cons (s rest : Text) (c : Char) : trim s c ≠ c :: rest := by
  intro heq
  have hdrop := dropWhile_rdropWhile_dropWhile (· = c) s
  change (trim s c).dropWhile _ = trim s c at hdrop
  rw [heq, dropWhile_cons_of_pos (by simp)] at hdrop
  have hlength := congrArg List.length hdrop
  have := length_dropWhile_le (fun x => decide (x = c)) rest
  rw [length_cons] at hlength
  omega

theorem trim_ne_concat (s rest : Text) (c : Char) : trim s c ≠ rest ++ [c] := by
  intro heq
  have hdrop : (trim s c).rdropWhile (· = c) = trim s c := rdropWhile_idempotent _ _
  rw [heq, rdropWhile_concat_pos _ _ _ (by simp)] at hdrop
  have hlength := congrArg List.length hdrop
  have := (List.rdropWhile_prefix (fun x => decide (x = c)) rest).length_le
  rw [length_append, length_singleton] at hlength
  omega

theorem length_trimSpace_le (s : Text) : (trimSpace s).length ≤ s.length :=
  (List.rdropWhile_prefix isSpace (s.dropWhile isSpace)).length_le.trans (length_dropWhile_le _ _)

theorem not_mem_of_mem_splitOn {piece : Text} (h : piece ∈ s.splitOn c) : c ∉ piece := by
  induction s generalizing piece with
  | nil =>
    rw [splitOn_nil, mem_singleton] at h
    rw [h]
    exact not_mem_nil
  | cons d s ih =>
    rw [splitOn_cons_eq_if_modifyHead] at h
    split_ifs at h with hd
    · obtain rfl | h := mem_cons.mp h
      · exact not_mem_nil
      · exact ih h
    · obtain ⟨_, _, hs⟩ := exists_cons_of_ne_nil (splitOn_ne_nil c s)
      rw [hs] at h ih
      obtain rfl | h := mem_cons.mp h
      · rintro hmem
        obtain rfl | hmem := mem_cons.mp hmem
        · exact hd (beq_self_eq_true c)
        · exact ih mem_cons_self hmem
      · exact ih (mem_cons_of_mem _ h)

theorem trimSpace_map {f : Char → Char} (h : ∀ c, isSpace (f c) = isSpace c) (s : Text) :
    trimSpace (s.map f) = (trimSpace s).map f := by
  have hdrop : ∀ l : Text, (l.map f).dropWhile isSpace = (l.dropWhile isSpace).map f := by
    intro l
    rw [dropWhile_map]
    exact congrArg (List.map f) (congrArg (List.dropWhile · l) (funext h))
  unfold trimSpace List.rdropWhile
  rw [hdrop, ← map_reverse, hdrop, map_reverse]

theorem trimSpace_eq_self (h : ∀ c ∈ s, isSpace c = false) : trimSpace s = s := by
  have hdrop : s.dropWhile isSpace = s :=
    dropWhile_eq_self_iff.mpr fun hl => Bool.eq_false_iff.mp (h _ (getElem_mem hl))
  rw [trimSpace, hdrop]
  exact rdropWhile_eq_self_iff.mpr fun hne => Bool.eq_false_iff.mp (h _ (getLast_mem hne))

theorem mem_trimSuffix (h : c ∈ trimSuffix s p) : c ∈ s := by
  unfold trimSuffix at h
  split_ifs at h
  · exact mem_of_mem_take h
  · exact h

theorem mem_of_mem_intercalate {x : Char} {labels : List Text} (h : c ∈ [x].intercalate labels) :
    c = x ∨ ∃ label ∈ labels, c ∈ label := by
  induction labels with
  | nil => simp at h
  | cons label rest ih =>
    cases rest with
    | nil => exact .inr ⟨label, by simp, by simpa using h⟩
    | cons =>
      rw [intercalate_cons_cons] at h
      simp only [append_assoc, mem_append, mem_singleton] at h
      rcases h with h | h | h
      · exact .inr ⟨label, by simp, h⟩
      · exact .inl h
      · rcases ih h with h | ⟨l, hl, hc⟩
        · exact .inl h
        · exact .inr ⟨l, mem_cons_of_mem _ hl, hc⟩

theorem intercalate_cons_eq (c : Char) (piece : Text) (rest : List Text) :
    [c].intercalate (piece :: rest) = piece ++ rest.flatMap (c :: ·) := by
  induction rest generalizing piece with
  | nil => simp
  | cons _ _ ih => rw [intercalate_cons_cons, ih, flatMap_cons, append_assoc, singleton_append, cons_append]

theorem intercalate_append_cons {pieces : List Text} (h : pieces ≠ []) (piece : Text) (rest : List Text) :
    [c].intercalate (pieces ++ piece :: rest) = [c].intercalate pieces ++ c :: [c].intercalate (piece :: rest) := by
  obtain ⟨_, _, rfl⟩ := exists_cons_of_ne_nil h
  rw [cons_append, intercalate_cons_eq, intercalate_cons_eq, intercalate_cons_eq, flatMap_append,
    flatMap_cons, cons_append, append_assoc]

theorem prefix_append_cons_iff (h : c ∉ p) : p <+: s ++ c :: t ↔ p <+: s := by
  constructor
  · intro hp
    rcases prefix_or_prefix_of_prefix hp (prefix_append s (c :: t)) with hps | hsp
    · exact hps
    · obtain ⟨r, rfl⟩ := hsp
      cases r with
      | nil => exact (append_nil s).symm ▸ prefix_rfl
      | cons =>
        rw [prefix_append_right_inj, cons_prefix_cons] at hp
        exact absurd (hp.1 ▸ mem_append_right s mem_cons_self) h
  · exact fun hp => hp.trans (prefix_append s _)

theorem splitOn_of_starts {q : Text} (h : q <+: s) {i : Nat} (ht : (q.splitOn c)[i]? = some t) :
    ∃ piece, (s.splitOn c)[i]? = some piece ∧ t <+: piece := by
  obtain ⟨r, rfl⟩ := h
  induction q generalizing i t with
  | nil =>
    rw [splitOn_nil, getElem?_singleton] at ht
    split_ifs at ht with hi
    obtain ⟨first, rest, hr⟩ := exists_cons_of_ne_nil (splitOn_ne_nil c r)
    refine ⟨first, by rw [nil_append, hr, hi, getElem?_cons_zero], ?_⟩
    rw [← Option.some.inj ht]
    exact nil_prefix
  | cons d q ih =>
    obtain ⟨_, _, hq⟩ := exists_cons_of_ne_nil (splitOn_ne_nil c q)
    obtain ⟨first, _, hr⟩ := exists_cons_of_ne_nil (splitOn_ne_nil c (q ++ r))
    rw [cons_append, splitOn_cons_eq_if_modifyHead]
    rw [splitOn_cons_eq_if_modifyHead] at ht
    rw [hq] at ht ih
    rw [hr] at ih ⊢
    split_ifs at ht ⊢ with hd
    · cases i with
      | zero =>
        refine ⟨[], by simp, ?_⟩
        exact Option.some.inj ht ▸ prefix_rfl
      | succ => exact ih ht
    · cases i with
      | zero =>
        obtain ⟨_, hpiece, hfirst⟩ := ih (i := 0) rfl
        refine ⟨d :: first, rfl, ?_⟩
        rw [← Option.some.inj ht, cons_prefix_cons, Option.some.inj hpiece]
        exact ⟨rfl, hfirst⟩
      | succ i => exact ih (i := i + 1) ht

/-! ## First occurrences -/

def before (sep : Text) : Text → Text
  | [] => []
  | c :: s => if hasPrefix (c :: s) sep then [] else c :: before sep s

theorem before_starts (sep s : Text) : before sep s <+: s := by
  induction s with
  | nil => exact prefix_rfl
  | cons c s ih =>
    rw [before]
    split_ifs
    · exact nil_prefix
    · exact cons_prefix_cons.mpr ⟨rfl, ih⟩

theorem headD_splitFrom (sep piece s : Text) : (splitFrom sep 0 piece s).headD [] = piece ++ before sep s := by
  induction s generalizing piece with
  | nil => simp [splitFrom, before]
  | cons c s ih =>
    rw [splitFrom, before]
    split_ifs
    · rw [headD_cons, append_nil]
    · rw [ih, append_assoc, singleton_append]

theorem headD_split (s sep : Text) : (split s sep).headD [] = before sep s := headD_splitFrom sep [] s

theorem before_eq (h : ∀ t ≠ [], t <:+ x → ¬sep <+: t ++ y) (hy : sep <+: y) (hne : sep ≠ []) :
    before sep (x ++ y) = x := by
  induction x with
  | nil =>
    cases y with
    | nil => exact absurd (prefix_nil.mp hy) hne
    | cons => rw [nil_append, before, if_pos (hasPrefix_iff.mpr hy)]
  | cons c x ih =>
    have hfirst : hasPrefix (c :: (x ++ y)) sep = false := by
      rw [Bool.eq_false_iff]
      exact fun hp => h (c :: x) (cons_ne_nil c x) suffix_rfl (List.isPrefixOf_iff_prefix.mp hp)
    rw [cons_append, before, hfirst, if_neg Bool.false_ne_true,
      ih fun t ht hsuffix => h t ht (hsuffix.trans (suffix_cons c x))]

theorem length_before_le (h : sep <:+: x) (y : Text) : (before sep (x ++ y)).length + sep.length ≤ x.length := by
  induction x with
  | nil =>
    rw [infix_nil.mp h]
    cases y <;> simp [before, hasPrefix]
  | cons c x ih =>
    rw [cons_append, before]
    split_ifs with hfirst
    · rw [length_nil, Nat.zero_add]
      exact h.length_le
    · rcases infix_cons_iff.mp h with hp | hinside
      · exact absurd (hasPrefix_iff.mpr (hp.trans (prefix_append (c :: x) y))) hfirst
      · have := ih hinside
        simp only [length_cons]
        omega

theorem replaceFirst_eq (new : Text) (h : ∀ t ≠ [], t <:+ x → ¬old <+: t ++ (old ++ y)) (hne : old ≠ []) :
    replaceFirst old new (x ++ (old ++ y)) = x ++ (new ++ y) := by
  induction x with
  | nil =>
    obtain ⟨c, rest, rfl⟩ := exists_cons_of_ne_nil hne
    have hfirst : hasPrefix ((c :: rest) ++ y) (c :: rest) = true := isPrefixOf_iff_prefix.mpr (prefix_append _ _)
    rw [nil_append, cons_append, replaceFirst]
    rw [cons_append] at hfirst
    rw [hfirst, if_pos rfl, ← cons_append, drop_left, nil_append]
  | cons c x ih =>
    have hfirst : hasPrefix (c :: (x ++ (old ++ y))) old = false := by
      rw [Bool.eq_false_iff]
      exact fun hp => h (c :: x) (cons_ne_nil c x) suffix_rfl (List.isPrefixOf_iff_prefix.mp hp)
    rw [cons_append, replaceFirst, hfirst, if_neg Bool.false_ne_true,
      ih fun t ht hsuffix => h t ht (hsuffix.trans (suffix_cons c x)), cons_append]

theorem replaceFirst_append (h : old <:+: x) (hne : old ≠ []) (new y : Text) :
    replaceFirst old new (x ++ y) = replaceFirst old new x ++ y := by
  induction x with
  | nil => exact absurd (infix_nil.mp h) hne
  | cons c x ih =>
    by_cases hp : old <+: c :: x
    · have hp' : old <+: c :: (x ++ y) := hp.trans (prefix_append (c :: x) y)
      rw [cons_append, replaceFirst, replaceFirst, if_pos (hasPrefix_iff.mpr hp), if_pos (hasPrefix_iff.mpr hp'),
        ← cons_append, drop_append_of_le_length hp.length_le, append_assoc]
    · have hinside := (infix_cons_iff.mp h).resolve_left hp
      have hp' : ¬old <+: c :: (x ++ y) := by
        intro hp'
        have hle := hinside.length_le
        exact hp (prefix_of_prefix_length_le hp' (prefix_append (c :: x) y) (by simp; omega))
      rw [cons_append, replaceFirst, replaceFirst, if_neg fun h => hp (hasPrefix_iff.mp h),
        if_neg fun h => hp' (hasPrefix_iff.mp h), ih hinside, cons_append]

theorem count_replaceFirst (h : old <:+: s) (hne : old ≠ []) (new : Text) (c : Char) :
    (replaceFirst old new s).count c + old.count c = s.count c + new.count c := by
  induction s with
  | nil => exact absurd (infix_nil.mp h) hne
  | cons d s ih =>
    rw [replaceFirst]
    split_ifs with hp
    · obtain ⟨r, hr⟩ := hasPrefix_iff.mp hp
      rw [← hr, drop_left, count_append, count_append]
      omega
    · have hinside := (infix_cons_iff.mp h).resolve_left fun h => hp (hasPrefix_iff.mpr h)
      have := ih hinside
      rw [count_cons, count_cons]
      omega

theorem replaceFirst_of_absent (h : ¬old <:+: s) (new : Text) : replaceFirst old new s = s := by
  induction s with
  | nil => rfl
  | cons d s ih =>
    rw [infix_cons_iff, not_or] at h
    rw [replaceFirst, if_neg fun hp => h.1 (hasPrefix_iff.mp hp), ih h.2]

end Strings
