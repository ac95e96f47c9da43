import CubeRouter.Lib.JsonTree

/-!
# Override keys as paths

`applyOperationsLegacy` writes each override key through `sjson`, as a path that `escapeSjsonLiteralKey` has quoted.
`readPath` is the syntax of these paths. A key is read back as it is unless it starts with a colon or contains one of
the characters that are not quoted (`legacy_keys_literal_iff`).
-/

namespace CubeRouter.Override

open Strings JsonTree

def needsEscape (c : Char) : Bool := c ∈ ['.', '*', '?', '\\']

def escapeSjsonLiteralKey (key : Text) : Text :=
  if key.any needsEscape then key.flatMap fun c => if needsEscape c then ['\\', c] else [c] else key

def consChar (c : Char) : List Text → List Text
  | part :: parts => (c :: part) :: parts
  | [] => [[c]]

/-- The components of a path, if it is a plain one; at the start of a component a colon forces a name. -/
def readPath (start : Bool) : Text → Option (List Text)
  | [] => some [[]]
  | c :: path =>
    if start ∧ c = ':' then readPath false path
    else if c = '.' then (readPath true path).map ([] :: ·)
    else if c = '\\' then
      match path with
      | [] => some [[]]
      | d :: path => (readPath false path).map (consChar d)
    else if c ∈ ['*', '?', '|', '#', '@'] then none
    else (readPath false path).map (consChar c)

/-- `complex` is what is done at a path that is not plain. -/
def sjsonSetBytes (complex : Json → Text → Json → Option Json) (body : Json) (path : Text) (value : Json) :
    Option Json :=
  if path = [] then none
  else
    match readPath true path with
    | some parts => set? value parts body
    | none => complex body path value

/-- The overrides in the order in which the map is read. -/
def applyOperationsLegacy (complex : Json → Text → Json → Option Json) (body : Json)
    (paramOverride : List (Text × Json)) :
    Option Json :=
  paramOverride.foldlM (fun result e => sjsonSetBytes complex result (escapeSjsonLiteralKey e.1) e.2) body

/-- What the syntax of paths reserves and is not quoted. -/
def isReserved (c : Char) : Bool := c ∈ ['|', '#', '@']

def Literal (key : Text) : Prop := key.head? ≠ some ':' ∧ ¬key.any isReserved

instance (key : Text) : Decidable (Literal key) := inferInstanceAs (Decidable (_ ∧ _))

variable {key : Text}

theorem escape_eq (key : Text) :
    escapeSjsonLiteralKey key = key.flatMap fun c => if needsEscape c then ['\\', c] else [c] := by
  unfold escapeSjsonLiteralKey
  split_ifs with hany
  · rfl
  · have hplain : ∀ c ∈ key, (if needsEscape c then ['\\', c] else [c]) = [c] := by
      intro c hc
      rw [if_neg fun hneeds => hany (List.any_eq_true.mpr ⟨c, hc, hneeds⟩)]
    rw [List.flatMap_congr hplain, List.flatMap_singleton']

theorem escape_cons (c : Char) (key : Text) :
    escapeSjsonLiteralKey (c :: key) = (if needsEscape c then ['\\', c] else [c]) ++ escapeSjsonLiteralKey key := by
  rw [escape_eq, escape_eq, List.flatMap_cons]

/-- Behind its first character a key is read back when it contains none of the characters that are left as they are. -/
theorem readPath_escape (key : Text) :
    readPath false (escapeSjsonLiteralKey key) = if key.any isReserved then none else some [key] := by
  induction key with
  | nil => rfl
  | cons c key ih =>
    have hread : readPath false (escapeSjsonLiteralKey (c :: key)) =
        if isReserved c then none else (readPath false (escapeSjsonLiteralKey key)).map (consChar c) := by
      rw [escape_cons]
      by_cases hc : needsEscape c
      · have hfree : ¬isReserved c := by
          intro hmem
          simp only [isReserved, List.mem_cons, List.not_mem_nil, or_false, decide_eq_true_eq] at hmem
          rcases hmem with rfl | rfl | rfl <;> cases hc
        rw [if_pos hc, if_neg hfree]
        simp [readPath]
      · rw [if_neg hc, List.singleton_append, readPath.eq_def]
        simp only [needsEscape, List.mem_cons, decide_eq_true_eq, not_or] at hc
        simp [hc, isReserved]
    rw [hread, ih, List.any_cons]
    cases isReserved c <;> cases key.any isReserved <;> rfl

theorem readPath_start (h : key.head? ≠ some ':') :
    readPath true (escapeSjsonLiteralKey key) = readPath false (escapeSjsonLiteralKey key) := by
  cases key with
  | nil => rfl
  | cons c key =>
    have hc : c ≠ ':' := fun heq => h (congrArg some heq)
    rw [escape_cons]
    split_ifs
    · simp [readPath]
    · rw [List.singleton_append, readPath.eq_def true, readPath.eq_def false]
      simp [hc]

/-- A leading colon is lost. -/
theorem readPath_colon (key : Text) :
    readPath true (escapeSjsonLiteralKey (':' :: key)) = readPath false (escapeSjsonLiteralKey key) := by
  rw [escape_cons, readPath.eq_def]
  simp [needsEscape]

theorem readPath_literal_iff (key : Text) : readPath true (escapeSjsonLiteralKey key) = some [key] ↔ Literal key := by
  by_cases hcolon : key.head? = some ':'
  · obtain ⟨rest, rfl⟩ := List.head?_eq_some_iff.mp hcolon
    refine iff_of_false (fun h => ?_) fun h => h.1 hcolon
    rw [readPath_colon, readPath_escape] at h
    split_ifs at h
    exact List.cons_ne_self _ _ (List.cons.inj (Option.some.inj h)).1.symm
  · rw [readPath_start hcolon, readPath_escape, Literal]
    split_ifs with hreserved
    · exact iff_of_false (fun h => by cases h) fun h => h.2 hreserved
    · exact iff_of_true rfl ⟨hcolon, hreserved⟩

/-! ## The overrides -/

section Overrides

variable {complex : Json → Text → Json → Option Json} {l l' : List (Text × Json)}

theorem sjsonSetBytes_literal (hkey : Literal key) (hne : key ≠ []) (value : Json) (ms : List (Text × Json)) :
    sjsonSetBytes complex (.object ms) (escapeSjsonLiteralKey key) value = some (.object (assign key value ms)) := by
  have hread := (readPath_literal_iff key).mpr hkey
  have hpath : escapeSjsonLiteralKey key ≠ [] := by
    intro hnil
    rw [hnil] at hread
    exact hne (List.cons.inj (Option.some.inj hread)).1.symm
  rw [sjsonSetBytes, if_neg hpath, hread]
  rfl

theorem applyOperationsLegacy_literal (h : ∀ e ∈ l, Literal e.1 ∧ e.1 ≠ []) (ms : List (Text × Json)) :
    applyOperationsLegacy complex (.object ms) l = some (.object (l.foldl (fun ms e => assign e.1 e.2 ms) ms)) := by
  unfold applyOperationsLegacy
  induction l generalizing ms with
  | nil => rfl
  | cons e l ih =>
    obtain ⟨hkey, hne⟩ := h e List.mem_cons_self
    rw [List.foldlM_cons, sjsonSetBytes_literal hkey hne]
    exact ih (fun e' he' => h e' (List.mem_cons_of_mem e he')) _

theorem lookup_foldl_assign (hnodup : (l.map Prod.fst).Nodup) (k : Text) (ms : List (Text × Json)) :
    lookup k (l.foldl (fun ms e => assign e.1 e.2 ms) ms) = (lookup k l).or (lookup k ms) := by
  induction l generalizing ms with
  | nil => rfl
  | cons e l ih =>
    rw [List.map_cons, List.nodup_cons, ← lookup_eq_none_iff] at hnodup
    rw [List.foldl_cons, ih hnodup.2, lookup_assign, lookup_cons]
    split_ifs with hk
    · rw [← hk, hnodup.1]
      rfl
    · rfl

theorem lookup_perm (hnodup : (l.map Prod.fst).Nodup) (h : l'.Perm l) (k : Text) : lookup k l' = lookup k l := by
  have hnodup' : (l'.map Prod.fst).Nodup := (h.map Prod.fst).nodup_iff.mpr hnodup
  ext v
  exact ⟨fun hv => lookup_of_mem hnodup (h.mem_iff.mp (mem_of_lookup hv)),
    fun hv => lookup_of_mem hnodup' (h.mem_iff.mpr (mem_of_lookup hv))⟩

/-- Every key is a path to itself, and in every order the overrides are assigned to the names they are given for,
exactly when no key starts with a colon or contains a bar, a hash or an at-sign. -/
theorem legacy_keys_literal_iff (complex : Json → Text → Json → Option Json) (hnodup : (l.map Prod.fst).Nodup)
    (hne : ∀ e ∈ l, e.1 ≠ []) : ((∀ e ∈ l, readPath true (escapeSjsonLiteralKey e.1) = some [e.1]) ∧
      ∀ l', l'.Perm l → ∀ ms, ∃ ms', applyOperationsLegacy complex (.object ms) l' = some (.object ms') ∧
        ∀ k, lookup k ms' = (lookup k l).or (lookup k ms)) ↔ ∀ e ∈ l, Literal e.1 := by
  constructor
  · exact fun h e he => (readPath_literal_iff e.1).mp (h.1 e he)
  · intro h
    refine ⟨fun e he => (readPath_literal_iff e.1).mpr (h e he),
      fun l' hl' ms => ⟨_, applyOperationsLegacy_literal ?_ ms, ?_⟩⟩
    · exact fun e he => ⟨h e (hl'.mem_iff.mp he), hne e (hl'.mem_iff.mp he)⟩
    · intro k
      rw [lookup_foldl_assign ((hl'.map Prod.fst).nodup_iff.mpr hnodup), lookup_perm hnodup hl']

theorem legacy_keys_literal_iff_dotted :
    ∃ ms', applyOperationsLegacy (fun body _ _ => some body) (.object [])
    [(text "a.b", .bool true)] = some (.object ms') ∧
      ∀ k, lookup k ms' = (lookup k [(text "a.b", .bool true)]).or none :=
  ((legacy_keys_literal_iff _ (by decide) (by decide)).mpr (by decide)).2 _ (.refl _) []

/-- The colon of `:a` is taken for a mark, and `a` is written. -/
theorem colon_key_not_literal :
    readPath true (escapeSjsonLiteralKey (text ":a")) ≠ some [text ":a"] ∧
      applyOperationsLegacy (fun body _ _ => some body) (.object []) [(text ":a", .bool true)] =
        some (.object [(text "a", .bool true)]) := ⟨by decide, rfl⟩

end Overrides

end CubeRouter.Override
