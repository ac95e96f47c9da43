import CubeRouter.Lib.Text

/-!
# Counting a key of the request body

`countTopLevelJSONKey` of `middleware/distributor.go` scans a body without parsing it. Only braces are counted, so the
strings of an array of the top-level object are read where a key is expected; no colon follows them.
-/

namespace CubeRouter.Routing

open List

open Strings (Text text)

structure Scanner where
  depth : Int := 0
  /-- What has been read of the string that the scanner is in. -/
  string : Option Text := none
  escaped : Bool := false
  expectingKey : Bool := false
  count : Nat := 0

def isBlank (c : Char) : Bool := c ∈ [' ', '\t', '\r', '\n']

/-- The look ahead behind a string. -/
def colonFollows (data : Text) : Bool := (data.dropWhile isBlank).head? = some ':'

/-- `decode` is `common.Unmarshal` of the string between its quotes. -/
def decodedKey (decode : Text → Option Text) (key : Text) : Text := (decode key).getD key

variable (decode : Text → Option Text) (target : Text)

def scanChar (s : Scanner) (current : Char) (rest : Text) : Scanner :=
  match s.string with
  | some key =>
    if s.escaped then { s with escaped := false, string := some (key ++ [current]) }
    else if current = '\\' then { s with escaped := true, string := some (key ++ [current]) }
    else if current ≠ '"' then { s with string := some (key ++ [current]) }
    else if s.depth = 1 ∧ s.expectingKey then
      { s with
        string := none
        expectingKey := false
        count := if colonFollows rest ∧ decodedKey decode key = target then s.count + 1 else s.count }
    else { s with string := none }
  | none =>
    if current = '"' then { s with string := some [] }
    else if current = '{' then { s with depth := s.depth + 1, expectingKey := s.expectingKey || s.depth + 1 = 1 }
    else if current = '}' then { s with depth := s.depth - 1 }
    else if current = ',' then { s with expectingKey := s.expectingKey || s.depth = 1 }
    else s

def scan (s : Scanner) : Text → Scanner
  | [] => s
  | current :: rest => scan (scanChar decode target s current rest) rest

def countTopLevelJSONKey (data : Text) : Nat := (scan decode target {} data).count

/-! ## The grammar -/

/-- What stands between the quotes of a string: no quote without a backslash. -/
inductive Raw : Text → Prop
  | nil : Raw []
  | plain {c : Char} {s : Text} (hquote : c ≠ '"') (hslash : c ≠ '\\') (h : Raw s) : Raw (c :: s)
  | escape {c : Char} {s : Text} (h : Raw s) : Raw ('\\' :: c :: s)

inductive Part
  | value
  | elements
  | members
  deriving DecidableEq

/-- The texts of the grammar, with the keys of the members between two braces as they are written. Numbers, names and
blanks are any text without the characters of the grammar, and a comma may stand at either end. -/
inductive JsonText : Part → List Text → Text → Prop
  | plain {part : Part} {s : Text} (h : ∀ c ∈ s, c ∉ ['"', '{', '}', '[', ']', ',', ':']) : JsonText part [] s
  | string {raw : Text} (h : Raw raw) : JsonText .value [] ('"' :: (raw ++ ['"']))
  | array {s : Text} (h : JsonText .elements [] s) : JsonText .value [] ('[' :: (s ++ [']']))
  | object {keys : List Text} {s : Text} (h : JsonText .members keys s) : JsonText .value [] ('{' :: (s ++ ['}']))
  | element {before s after : Text} (hbefore : ∀ c ∈ before, isBlank c) (h : JsonText .value [] s)
      (hafter : ∀ c ∈ after, isBlank c) :
    JsonText .elements [] (before ++ (s ++ after))
  | member {before key between s : Text} (hbefore : ∀ c ∈ before, isBlank c) (hkey : Raw key)
      (hbetween : ∀ c ∈ between, isBlank c)
    (h : JsonText .elements [] s) : JsonText .members [key] (before ++ '"' :: (key ++ '"' :: (between ++ ':' :: s)))
  | more {part : Part} {keys keys' : List Text} {s s' : Text} (h : JsonText part keys s) (h' : JsonText part keys' s') :
    JsonText part (keys ++ keys') (s ++ ',' :: s')

/-! ## The scanner on the grammar -/

def outside (depth : Int) (expectingKey : Bool) (count : Nat) : Scanner := { depth, expectingKey, count }

def hits (keys : List Text) : Nat := keys.countP fun key => decodedKey decode key = target

/-- What the keys of a text add at a depth. -/
def counted (depth : Int) (keys : List Text) : Nat := if depth = 1 then hits decode target keys else 0

section Scan

variable {decode target} {s rest : Text} {depth : Int} {ek : Bool} {n : Nat} {c : Char}

theorem scan_cons (st : Scanner) :
    scan decode target st (c :: rest) = scan decode target (scanChar decode target st c rest) rest :=
  rfl

theorem scan_other (hc : c ∉ ['"', '{', '}', ',']) :
    scan decode target (outside depth ek n) (c :: rest) = scan decode target (outside depth ek n) rest := by
  have hne : ¬c = '"' ∧ ¬c = '{' ∧ ¬c = '}' ∧ ¬c = ',' := by simpa using hc
  obtain ⟨hquote, hopen, hclose, hcomma⟩ := hne
  simp [scan, scanChar, outside, hquote, hopen, hclose, hcomma]

theorem scan_others (h : ∀ c ∈ s, c ∉ ['"', '{', '}', ',']) :
    scan decode target (outside depth ek n) (s ++ rest) = scan decode target (outside depth ek n) rest := by
  induction s with
  | nil => rfl
  | cons c s ih =>
    rw [cons_append, scan_other (h c mem_cons_self)]
    exact ih fun d hd => h d (mem_cons_of_mem c hd)

theorem isBlank_other (hc : isBlank c) : c ∉ ['"', '{', '}', ','] := by
  simp only [isBlank, mem_cons, not_mem_nil, or_false, decide_eq_true_eq] at hc
  rcases hc with rfl | rfl | rfl | rfl <;> decide

theorem scan_raw (h : Raw s) (key : Text) :
    scan decode target { depth, string := some key, expectingKey := ek, count := n } (s ++ '"' :: rest) =
      scan decode target (if depth = 1 ∧ ek then
        outside depth false (if colonFollows rest ∧ decodedKey decode (key ++ s) = target then n + 1 else n)
        else outside depth ek n) rest := by
  induction h generalizing key with
  | nil =>
    rw [nil_append, scan_cons, append_nil]
    rfl
  | @plain c s hquote hslash _ ih =>
    rw [append_cons key c s, ← ih, cons_append, scan_cons]
    simp [scanChar, hquote, hslash]
  | @escape c s _ ih =>
    rw [append_cons key, append_cons _ c s, ← ih, cons_append, cons_append, scan_cons, scan_cons]
    simp [scanChar]

/-- A string is read as a key when one is expected and a colon follows. -/
theorem scan_string (h : Raw s) : scan decode target (outside depth ek n) ('"' :: (s ++ '"' :: rest)) =
      scan decode target (if depth = 1 ∧ ek then
        outside depth false (if colonFollows rest ∧ decodedKey decode s = target then n + 1 else n)
        else outside depth ek n) rest := by
  exact scan_raw h []

theorem scan_comma : scan decode target (outside depth ek n) (',' :: rest) =
    scan decode target (outside depth (ek || depth = 1) n) rest := rfl

theorem scan_open : scan decode target (outside depth ek n) ('{' :: rest) =
    scan decode target (outside (depth + 1) (ek || depth + 1 = 1) n) rest := rfl

theorem scan_close : scan decode target (outside depth ek n) ('}' :: rest) =
    scan decode target (outside (depth - 1) ek n) rest := rfl

theorem colonFollows_blank (h : ∀ c ∈ s, isBlank c) : colonFollows (s ++ rest) = colonFollows rest := by
  induction s with
  | nil => rfl
  | cons c s ih =>
    rw [colonFollows, cons_append, dropWhile_cons_of_pos (h c mem_cons_self)]
    exact ih fun d hd => h d (mem_cons_of_mem c hd)

theorem counted_nil (depth : Int) : counted decode target depth [] = 0 := ite_self 0

theorem counted_append (depth : Int) (keys keys' : List Text) :
    counted decode target depth (keys ++ keys') =
    counted decode target depth keys + counted decode target depth keys' := by
  unfold counted hits
  rw [countP_append]
  split_ifs <;> rfl

variable (decode target) in
/-- What follows a text is no colon, so only keys of members count, and only in the top-level object. -/
theorem scan_text {part : Part} {keys : List Text} (h : JsonText part keys s) (depth : Int)
    (ek : Bool) (n : Nat) (rest : Text)
    (hdepth : 1 ≤ depth) (hek : part = .members → depth = 1 → ek = true) (hrest : colonFollows rest = false) :
    ∃ ek', scan decode target (outside depth ek n) (s ++ rest) =
      scan decode target (outside depth ek' (n + counted decode target depth keys)) rest := by
  induction h generalizing depth ek n rest with
  | plain h =>
    rw [counted_nil]
    exact ⟨ek, scan_others fun c hc hmem => h c hc (by simp at hmem ⊢; tauto)⟩
  | string h =>
    rw [cons_append, append_assoc, singleton_append, scan_string h, hrest, counted_nil]
    split_ifs with hkey hfound
    · cases hfound.1
    · exact ⟨false, rfl⟩
    · exact ⟨ek, rfl⟩
  | array _ ih =>
    obtain ⟨ek', hscan⟩ := ih depth ek n (']' :: rest) hdepth (fun h => by cases h) rfl
    exact ⟨ek', by rw [cons_append, append_assoc, scan_other (by decide), singleton_append, hscan,
      scan_other (by decide)]⟩
  | @object keys _ _ ih =>
    obtain ⟨ek', hscan⟩ := ih (depth + 1) (ek || depth + 1 = 1) n ('}' :: rest) (by omega)
      (fun _ hone => by omega) rfl
    have hdeeper : counted decode target (depth + 1) keys = 0 := if_neg (by omega)
    rw [hdeeper] at hscan
    refine ⟨ek', ?_⟩
    rw [cons_append, append_assoc, singleton_append, scan_open, hscan, scan_close, Int.add_sub_cancel, counted_nil]
  | element hbefore _ hafter ih =>
    obtain ⟨ek', hscan⟩ := ih depth ek n _ hdepth (fun h => by cases h) ((colonFollows_blank hafter).trans hrest)
    exact ⟨ek', by rw [append_assoc, scan_others fun c hc => isBlank_other (hbefore c hc), append_assoc, hscan,
      scan_others fun c hc => isBlank_other (hafter c hc)]⟩
  | @member _ key between s hbefore hkey hbetween _ ih =>
    have hcolon : colonFollows (between ++ ':' :: (s ++ rest)) = true := colonFollows_blank hbetween
    obtain ⟨ek', hscan⟩ := ih depth (if depth = 1 then false else ek)
      (n + counted decode target depth [key]) rest hdepth
      (fun h => by cases h) hrest
    have hkeyread : (if depth = 1 ∧ ek then
        outside depth false (if true = true ∧ decodedKey decode key = target then n + 1 else n)
        else outside depth ek n) =
        outside depth (if depth = 1 then false else ek) (n + counted decode target depth [key]) := by
      by_cases hone : depth = 1
      · by_cases hfound : decodedKey decode key = target <;> simp [hone, hek rfl hone, counted, hits, hfound]
      · simp [hone, counted]
    rw [counted_nil] at hscan
    refine ⟨ek', Eq.trans ?_ hscan⟩
    simp only [append_assoc, cons_append]
    rw [scan_others fun c hc => isBlank_other (hbefore c hc), scan_string hkey, hcolon, hkeyread,
      scan_others fun c hc => isBlank_other (hbetween c hc), scan_other (by decide)]
  | @more _ keys keys' _ s' _ _ ih ih' =>
    obtain ⟨ek', hscan⟩ := ih depth ek n (',' :: (s' ++ rest)) hdepth hek rfl
    obtain ⟨ek'', hscan'⟩ := ih' depth (ek' || depth = 1) (n + counted decode target depth keys) rest hdepth
      (fun _ hone => by simp [hone]) hrest
    exact ⟨ek'', by rw [append_assoc, cons_append, hscan, scan_comma, hscan', counted_append, Nat.add_assoc]⟩

/-- What is counted are the members of the top-level object whose key is the target, wherever else the target is
written. -/
theorem countTopLevelJSONKey_eq (decode : Text → Option Text) (target : Text) {keys : List Text} {before s after : Text}
    (hbefore : ∀ c ∈ before, isBlank c) (h : JsonText .members keys s) (hafter : ∀ c ∈ after, isBlank c) :
    countTopLevelJSONKey decode target (before ++ '{' :: (s ++ '}' :: after)) = hits decode target keys := by
  obtain ⟨ek, hscan⟩ := scan_text decode target h 1 true 0 ('}' :: after) (Int.le_refl 1) (fun _ _ => rfl) rfl
  have hend : scan decode target (outside 0 ek (hits decode target keys)) (after ++ []) = outside 0 ek
    (hits decode target keys) :=
    scan_others fun c hc => isBlank_other (hafter c hc)
  have hstart : scan decode target {} (before ++ '{' :: (s ++ '}' :: after)) =
      scan decode target (outside 1 true 0) (s ++ '}' :: after) := scan_others fun c hc => isBlank_other (hbefore c hc)
  rw [append_nil] at hend
  rw [countTopLevelJSONKey, hstart, hscan, scan_close, Nat.zero_add, counted, if_pos rfl]
  exact congrArg Scanner.count hend

/-- `{"m":["m"]}`: the string in the array is no key. -/
theorem countTopLevelJSONKey_eq_array : countTopLevelJSONKey some ['m'] (text "\x7b\"m\":[\"m\"]\x7d") = 1 := by
  have hraw : Raw ['m'] := .plain (by decide) (by decide) .nil
  have hnone : ∀ c ∈ ([] : Text), isBlank c := by simp
  exact countTopLevelJSONKey_eq some ['m'] hnone
    (.member hnone hraw hnone (.element hnone (.array (.element hnone (.string hraw) hnone)) hnone)) hnone

end Scan

end CubeRouter.Routing
