import CubeRouter.Routing.KeyRecords
import Mathlib.Algebra.Order.BigOperators.Group.List

/-!
# Key lists that survive an edit

`GetKeys` reads a text as an array or as lines, and every edit of the list writes lines. So a list survives an edit when
lines can hold what is left of it, or when there is nothing to write and nothing to change. An append reads the text
with a copy of the decoder that has no way back to lines: a text that starts like an array and is none loses all its
keys (`key_list_survives_iff`).
-/

namespace CubeRouter.Routing

open Strings Transition List Option

/-! ## Lists that lines can hold -/

structure Config.Lines (config : Config) (keys : List Text) : Prop where
  ne_nil : keys ≠ []
  lines : ∀ k ∈ keys, '\n' ∉ k
  first : keys.head? ≠ some []
  last : keys.getLast? ≠ some []
  noArray : config.keyArray (joinKeys keys) = none

/-- The texts of the elements, with a line break between any two, are shorter than the array. -/
def Config.Spelled (config : Config) : Prop :=
  ∀ t array, config.unmarshalArray t = some array → (joinKeys array).length < t.length

variable {config : Config}

theorem keyArray_ne (hspelled : config.Spelled) {keys : List Text} : config.keyArray (joinKeys keys) ≠ some keys := by
  unfold Config.keyArray
  dsimp only
  intro h
  split_ifs at h
  have hlonger := hspelled _ _ h
  have hle := length_trimSpace_le (joinKeys keys)
  omega

variable {keys : List Text} {key : Text} {row : Channel} {f : ChannelFields}

theorem joinKeys_concat (h : keys ≠ []) (k : Text) : joinKeys (keys ++ [k]) = joinKeys keys ++ '\n' :: k := by
  induction keys with
  | nil => exact absurd rfl h
  | cons _ keys ih =>
    rw [cons_append, joinKeys_cons (append_ne_nil_of_right_ne_nil _ (cons_ne_nil _ _))]
    rcases keys with - | ⟨_, keys⟩
    · simp [joinKeys]
    · rw [ih (cons_ne_nil _ _), joinKeys_cons (cons_ne_nil _ _), append_assoc, cons_append]

theorem getKeys_of_noArray (hne : key ≠ []) (harray : config.keyArray key = none) :
    config.getKeys key = (trim key '\n').splitOn '\n' := by
  unfold Config.getKeys
  rw [if_neg hne, harray, getD_none]

theorem getKeys_joinKeys_iff (hspelled : config.Spelled) (hne : joinKeys keys ≠ []) :
    config.getKeys (joinKeys keys) = keys ↔ config.Lines keys := by
  constructor
  · intro h
    have harray : config.keyArray (joinKeys keys) = none := by
      cases harray : config.keyArray (joinKeys keys) with
      | none => rfl
      | some array =>
        have hread : config.getKeys (joinKeys keys) = array := by
          unfold Config.getKeys
          rw [if_neg hne, harray, getD_some]
        rw [hread] at h
        rw [h] at harray
        exact absurd harray (keyArray_ne hspelled)
    rw [getKeys_of_noArray hne harray] at h
    have htrim : joinKeys keys = trim (joinKeys keys) '\n' := by
      conv_lhs => rw [← h]
      exact intercalate_splitOn '\n'
    refine ⟨?_, fun k hk => ?_, ?_, ?_, harray⟩
    · rintro rfl
      exact hne rfl
    · rw [← h] at hk
      exact not_mem_of_mem_splitOn hk
    · intro hfirst
      obtain ⟨rest, rfl⟩ := head?_eq_some_iff.mp hfirst
      have hrest : rest ≠ [] := by
        rintro rfl
        exact hne rfl
      rw [joinKeys_cons hrest, nil_append] at htrim
      exact trim_ne_cons _ _ _ htrim.symm
    · intro hlast
      obtain ⟨rest, rfl⟩ := getLast?_eq_some_iff.mp hlast
      have hrest : rest ≠ [] := by
        rintro rfl
        exact hne rfl
      rw [joinKeys_concat hrest] at htrim
      exact trim_ne_concat _ _ _ htrim.symm
  · intro h
    refine readsBack_of_lines config h.ne_nil h.lines ?_ ?_ h.noArray
    · intro hfirst
      exact h.first ((head?_eq_some_head h.ne_nil).trans (congrArg some hfirst))
    · intro hlast
      exact h.last ((getLast?_eq_some_getLast h.ne_nil).trans (congrArg some hlast))

/-! ## What is written -/

/-- The text of the keys is written over another one unless it is empty: then the other one stays. -/
def Config.Holds (config : Config) (key : Text) (keys : List Text) : Prop :=
  if joinKeys keys = [] then config.getKeys key = keys ∧ keys ≠ [] else config.Lines keys

/-- The list is read from the row, and has the size that is on record. -/
structure Config.Survives (config : Config) (c : Channel) (keys : List Text) : Prop where
  keys : config.getKeys c.key = keys
  size : c.channelInfo.multiKeySize = (config.getKeys c.key).length

theorem updateRow_multiKeySize (h : f.channelInfo.isMultiKey = true) :
    (config.updateRow row f).channelInfo.multiKeySize = (config.countedKeys (config.updateRow row f).key).length := by
  have hinfo : (config.recountRow row f).channelInfo.isMultiKey = true := by
    unfold Config.recountRow
    rw [if_pos h]
    exact h
  have hwritten : (config.updateRow row f).channelInfo = (config.recountRow row f).channelInfo := by
    refine if_neg fun hzero => ?_
    rw [hzero] at hinfo
    cases hinfo
  rw [hwritten, updateRow_key]
  unfold Config.recountRow
  split_ifs <;> first | rfl | contradiction

/-- Only an array without elements is counted in another way than it is read. -/
theorem countedKeys_eq (h : config.getKeys key ≠ []) : config.countedKeys key = config.getKeys key := by
  unfold Config.getKeys Config.countedKeys at *
  split_ifs at h ⊢ with hnil
  · rfl
  · cases harray : config.keyArray key with
    | none => rfl
    | some array =>
      cases array with
      | nil =>
        rw [harray] at h
        exact absurd rfl h
      | cons => rfl

theorem length_countedKeys_pos (h : key ≠ []) : 0 < (config.countedKeys key).length := by
  unfold Config.countedKeys
  rw [if_neg h]
  split
  · exact Nat.succ_pos _
  all_goals exact length_pos_iff.mpr (splitOn_ne_nil _ _)

/-- A list survives exactly when its text is right for it, whatever the text has come from. -/
theorem survives_iff (hrow : row.key ≠ []) (h : f.channelInfo.isMultiKey = true) (keys : List Text) :
    config.Survives (config.updateRow row f) keys ↔
      config.getKeys (if f.key = [] then row.key else f.key) = keys ∧ keys ≠ [] := by
  have hkey : (config.updateRow row f).key = _ := updateRow_key row f
  have hne : (config.updateRow row f).key ≠ [] := by
    rw [hkey]
    split_ifs with hnil
    · exact hrow
    · exact hnil
  have hsize : (config.updateRow row f).channelInfo.multiKeySize = _ := updateRow_multiKeySize h
  rw [← hkey]
  constructor
  · rintro ⟨hkeys, hcount⟩
    refine ⟨hkeys, ?_⟩
    rintro rfl
    rw [hsize, hkeys] at hcount
    exact absurd hcount (length_countedKeys_pos hne).ne'
  · rintro ⟨hkeys, hsome⟩
    refine ⟨hkeys, ?_⟩
    rw [hsize, countedKeys_eq (hkeys ▸ hsome)]

theorem survives_joinKeys_iff (hspelled : config.Spelled) (hrow : row.key ≠ []) (h : f.channelInfo.isMultiKey = true)
    (hf : f.key = joinKeys keys) : config.Survives (config.updateRow row f) keys ↔ config.Holds row.key keys := by
  rw [survives_iff hrow h, hf]
  unfold Config.Holds
  split_ifs with hnil
  · exact Iff.rfl
  · rw [getKeys_joinKeys_iff hspelled hnil]
    exact and_iff_left_of_imp Config.Lines.ne_nil

/-! ## The edits of a list -/

inductive ListEdit
  | deleteKey (keyIndex : Int)
  | deleteDisabledKeys
  | append (edit : ChannelEdit)

namespace EditConfig

variable (config : EditConfig)

def editList (c : Channel) : ListEdit → Except String Channel
  | .deleteKey keyIndex => do
    let c' ← config.manageMultiKeys c (.deleteKey (some keyIndex))
    return config.updateRow c c'.fields
  | .deleteDisabledKeys => do
    let c' ← config.manageMultiKeys c .deleteDisabledKeys
    return config.updateRow c c'.fields
  | .append edit => config.updateChannel c { edit with keyMode := some .append }

def askedList (c : Channel) : ListEdit → Except String (List Text)
  | .deleteKey keyIndex => return (config.getKeys c.key).eraseIdx keyIndex.toNat
  | .deleteDisabledKeys =>
    return (keptKeys (config.getKeys c.key) fun i => c.channelInfo.statusAt i ≠ channelStatusAutoDisabled).map Prod.fst
  | .append edit => do
    let new ← config.inputKeys edit
    return config.getKeys c.key ++ dedupedNewKeys (config.getKeys c.key) new

/-- The text begins like an array and is none. -/
def BrokenArray (key : Text) : Prop :=
  hasPrefix (trimSpace key) (text "[") = true ∧ config.unmarshalArray (trimSpace key) = none

instance (key : Text) : Decidable (config.BrokenArray key) := inferInstanceAs (Decidable (_ ∧ _))

/-- The list that is asked for can be held. What is appended to a broken array takes its place. -/
def HoldsAsked (c : Channel) (e : ListEdit) (asked : List Text) : Prop :=
  match e with
  | .append edit =>
    if config.BrokenArray c.key then
      ∀ new, config.inputKeys edit = .ok new →
        dedupedNewKeys [] new = [] ∨ dedupedNewKeys [] new = asked ∧ config.Lines asked
    else config.Holds c.key asked
  | _ => config.Holds c.key asked

variable {config} {c : Channel}

theorem existingKeys_eq (hkey : c.key ≠ []) (h : ¬config.BrokenArray c.key) :
    config.existingKeys c.key = config.getKeys c.key := by
  unfold existingKeys Config.getKeys Config.keyArray
  dsimp only
  split_ifs with hbegins
  · cases harray : config.unmarshalArray (trimSpace c.key) with
    | none => exact absurd ⟨hbegins, harray⟩ h
    | some => rfl
  · rfl

theorem existingKeys_of_brokenArray (h : config.BrokenArray c.key) : config.existingKeys c.key = [] := by
  unfold existingKeys
  rw [if_pos h.1, h.2, getD_none]

theorem getKeys_of_brokenArray (hkey : c.key ≠ []) (h : config.BrokenArray c.key) :
    config.getKeys c.key = (trim c.key '\n').splitOn '\n' := by
  refine getKeys_of_noArray hkey ?_
  unfold Config.keyArray
  rw [if_pos h.1, h.2]

/-! ## Deleting -/

theorem map_fst_keptKeys (keys : List Text) (i : Nat) :
    (keptKeys keys fun j => j ≠ i).map Prod.fst = keys.eraseIdx i := by
  have hfrom :
    ∀ start, ((keys.zipIdx start).filter fun e => decide (e.2 ≠ start + i)).map Prod.fst = keys.eraseIdx i := by
    induction keys generalizing i with
    | nil => intro start; rfl
    | cons k keys ih =>
      intro start
      rw [zipIdx_cons]
      cases i with
      | zero =>
        have hlater :
          ((keys.zipIdx (start + 1)).filter fun e => decide (e.2 ≠ start + 0)) = keys.zipIdx (start + 1) := by
          refine filter_eq_self.mpr fun e he => decide_eq_true ?_
          have := le_snd_of_mem_zipIdx he
          omega
        rw [filter_cons_of_neg (by simp), hlater, eraseIdx_cons_zero]
        exact zipIdx_map_fst _ _
      | succ i =>
        have hshift : start + (i + 1) = start + 1 + i := by omega
        rw [filter_cons_of_pos (by simp), map_cons, eraseIdx_cons_succ, hshift, ih]
  have hzero := hfrom 0
  simp only [Nat.zero_add] at hzero
  exact hzero

variable {c' : Channel} {asked keys' : List Text} {k : Text}

theorem editList_delete {e : ListEdit} (happly : config.editList c e = .ok c')
    (hasked : config.askedList c e = .ok asked) (hdelete : ∀ edit, e ≠ .append edit) :
    ∃ f : ChannelFields, c' = config.updateRow c f ∧ f.channelInfo.isMultiKey = true ∧ f.key = joinKeys asked := by
  cases e with
  | append edit => exact absurd rfl (hdelete edit)
  | deleteKey keyIndex =>
    obtain ⟨c0, hmanage, hc'⟩ := bind_eq_ok.mp happly
    cases hc'
    cases hasked
    obtain ⟨hmulti, hchange⟩ := manageMultiKeys_ok hmanage
    obtain ⟨i, hindex, hchange⟩ := bind_eq_ok.mp hchange
    dsimp only at hchange
    split_ifs at hchange
    cases hchange
    have hi : keyIndex.toNat = i := by
      unfold checkKeyIndex at hindex
      dsimp only at hindex
      split_ifs at hindex
      cases hindex
      rfl
    refine ⟨_, rfl, hmulti, ?_⟩
    rw [hi, ← map_fst_keptKeys]
    rfl
  | deleteDisabledKeys =>
    obtain ⟨_, hmanage, hc'⟩ := bind_eq_ok.mp happly
    cases hc'
    cases hasked
    obtain ⟨hmulti, hchange⟩ := manageMultiKeys_ok hmanage
    unfold Config.changeKeys at hchange
    dsimp only at hchange
    split_ifs at hchange
    cases hchange
    exact ⟨_, rfl, hmulti, rfl⟩

/-! ## Appending to a broken array -/

theorem foldl_takeKey_filter {there new : List Text} {seen seen' : List Text} (found : List Text)
    (hseen : ∀ k, k ∈ seen ↔ k ∈ there ∨ k ∈ seen') : (new.foldl takeKey (seen, found.filter fun k => k ∉ there)).2 =
      ((new.foldl takeKey (seen', found)).2).filter fun k => k ∉ there := by
  induction new generalizing seen seen' found with
  | nil => rfl
  | cons key _ ih =>
    rw [foldl_cons, foldl_cons]
    by_cases hskip : trimSpace key = [] ∨ trimSpace key ∈ seen'
    · have hskipped : trimSpace key = [] ∨ trimSpace key ∈ seen := hskip.imp_right fun h => (hseen _).mpr (.inr h)
      have htake : takeKey (seen, found.filter fun k => k ∉ there) key = (seen, found.filter fun k => k ∉ there) :=
        if_pos hskipped
      have htake' : takeKey (seen', found) key = (seen', found) := if_pos hskip
      rw [htake, htake']
      exact ih found hseen
    · have htake' : takeKey (seen', found) key = (trimSpace key :: seen', found ++ [trimSpace key]) := if_neg hskip
      by_cases hthere : trimSpace key ∈ there
      · have htake : takeKey (seen, found.filter fun k => k ∉ there) key = (seen, found.filter fun k => k ∉ there) :=
          if_pos (.inr ((hseen _).mpr (.inl hthere)))
        have hfound : (found.filter fun k => k ∉ there) = (found ++ [trimSpace key]).filter fun k => k ∉ there := by
          simp [hthere]
        rw [htake, htake', hfound]
        refine ih _ fun k => ?_
        rw [hseen, mem_cons]
        constructor
        · exact Or.imp_right .inr
        · rintro (h | rfl | h)
          · exact .inl h
          · exact .inl hthere
          · exact .inr h
      · have hnot : ¬(trimSpace key = [] ∨ trimSpace key ∈ seen) := by
          rintro (h | h)
          · exact hskip (.inl h)
          · exact ((hseen _).mp h).elim hthere fun h => hskip (.inr h)
        have htake : takeKey (seen, found.filter fun k => k ∉ there) key =
            (trimSpace key :: seen, (found ++ [trimSpace key]).filter fun k => k ∉ there) := by
          refine (if_neg hnot).trans ?_
          simp [hthere]
        rw [htake, htake']
        refine ih _ fun k => ?_
        rw [mem_cons, hseen, mem_cons, or_left_comm]

/-- The keys that are there, as an append compares them. -/
def trimmedKeys (keys : List Text) : List Text := (keys.map trimSpace).filter fun key => key ≠ []

theorem dedupedNewKeys_eq_filter (existing new : List Text) :
    dedupedNewKeys existing new = (dedupedNewKeys [] new).filter fun k => k ∉ trimmedKeys existing :=
  foldl_takeKey_filter [] fun _ => (or_iff_left not_mem_nil).symm

variable {new keys : List Text}

theorem ne_nil_of_mem_deduped {existing : List Text} (h : k ∈ dedupedNewKeys existing new) : k ≠ [] := by
  have hstart : Taken (trimmedKeys existing) (trimmedKeys existing, []) :=
    ⟨fun _ h => h, fun _ h => (not_mem_nil h).elim, fun _ h => (not_mem_nil h).elim, nodup_nil⟩
  exact ((hstart.foldl new).new k h).2.2

/-- The room that keys take as lines. -/
def room (keys : List Text) : Nat := (keys.map fun k => k.length + 1).sum

theorem length_joinKeys (h : keys ≠ []) : (joinKeys keys).length + 1 = room keys := by
  induction keys with
  | nil => exact absurd rfl h
  | cons k keys ih =>
    rcases keys with - | ⟨_, keys⟩
    · simp [joinKeys, room]
    · rw [joinKeys_cons (cons_ne_nil _ _), room, map_cons, sum_cons, ← room,
        ← ih (cons_ne_nil _ _), length_append, length_cons]
      omega

theorem room_append (keys keys' : List Text) : room (keys ++ keys') = room keys + room keys' := by
  rw [room, map_append, sum_append]
  rfl

theorem room_perm (h : keys.Perm keys') : room keys = room keys' := (h.map _).sum_nat

theorem room_sublist (h : keys.Sublist keys') : room keys ≤ room keys' :=
  (Sublist.map (fun k : Text => k.length + 1) h).sum_le_sum fun _ _ => Nat.zero_le _

theorem room_trimmedKeys : room (trimmedKeys keys) ≤ room keys := by
  refine (room_sublist filter_sublist).trans ?_
  unfold room
  rw [List.map_map]
  refine sum_le_sum fun k _ => ?_
  exact Nat.succ_le_succ (length_trimSpace_le k)

theorem room_deduped_le (existing new : List Text) :
    room (dedupedNewKeys [] new) ≤ room (existing ++ dedupedNewKeys existing new) := by
  have hnodup := (dedupedNewKeys_spec [] new).1
  have hsplit := filter_append_perm (fun k => decide (k ∉ trimmedKeys existing)) (dedupedNewKeys [] new)
  have hthere : room ((dedupedNewKeys [] new).filter fun k => !decide (k ∉ trimmedKeys existing)) ≤ room existing := by
    have hsubset :
      ((dedupedNewKeys [] new).filter fun k => !decide (k ∉ trimmedKeys existing)) ⊆ trimmedKeys existing := by
      intro k hk
      simpa using (mem_filter.mp hk).2
    obtain ⟨l, hperm, hsublist⟩ := subperm_of_subset (hnodup.filter _) hsubset
    rw [← room_perm hperm]
    exact (room_sublist hsublist).trans room_trimmedKeys
  rw [← room_perm hsplit, room_append, room_append, ← dedupedNewKeys_eq_filter]
  omega

theorem mem_deduped_alone (existing : List Text) (h : k ∈ dedupedNewKeys [] new) :
    (∃ old ∈ existing, trimSpace old = k) ∨ k ∈ dedupedNewKeys existing new := by
  by_cases hthere : k ∈ trimmedKeys existing
  · exact .inl (mem_map.mp (mem_filter.mp hthere).1)
  · rw [dedupedNewKeys_eq_filter]
    exact .inr (mem_filter.mpr ⟨h, decide_eq_true hthere⟩)

theorem joinKeys_eq_nil_iff (h : ∀ k ∈ keys, k ≠ []) : joinKeys keys = [] ↔ keys = [] := by
  constructor
  · intro hjoin
    rcases keys with - | ⟨k, keys⟩
    · rfl
    · have hbegins := prefix_joinKeys k keys
      rw [hjoin] at hbegins
      exact absurd (prefix_nil.mp hbegins) (h k mem_cons_self)
  · rintro rfl
    rfl

theorem getKeys_of_taken (hsome : keys ≠ []) (hne : ∀ k ∈ keys, k ≠ []) (hlines : ∀ k ∈ keys, '\n' ∉ k)
    (harray : config.keyArray (joinKeys keys) = none) : config.getKeys (joinKeys keys) = keys :=
  readsBack_of_lines config.toConfig hsome hlines (hne _ (head_mem hsome)) (hne _ (getLast_mem hsome)) harray

/-- What is appended to a broken array is written alone. -/
theorem survives_alone_iff (hspelled : config.Spelled) (hkey : c.key ≠ []) (hbroken : config.BrokenArray c.key)
    (hmulti : f.channelInfo.isMultiKey = true) (hf : f.key = joinKeys (dedupedNewKeys [] new)) :
    config.Survives (config.updateRow c f) (config.getKeys c.key ++ dedupedNewKeys (config.getKeys c.key) new) ↔
      dedupedNewKeys [] new = [] ∨
        dedupedNewKeys [] new = config.getKeys c.key ++ dedupedNewKeys (config.getKeys c.key) new ∧
          config.Lines (config.getKeys c.key ++ dedupedNewKeys (config.getKeys c.key) new) := by
  have hsome : config.getKeys c.key ≠ [] := by
    rw [getKeys_of_brokenArray hkey hbroken]
    exact splitOn_ne_nil _ _
  have hroom := room_deduped_le (config.getKeys c.key) new
  rw [survives_iff hkey hmulti, hf]
  by_cases hnone : dedupedNewKeys [] new = []
  · have hold : dedupedNewKeys (config.getKeys c.key) new = [] := by
      rw [dedupedNewKeys_eq_filter, hnone]
      rfl
    rw [hold, append_nil, hnone]
    simp [joinKeys, hsome]
  · have hjoin : joinKeys (dedupedNewKeys [] new) ≠ [] :=
      fun h => hnone ((joinKeys_eq_nil_iff fun k hk => ne_nil_of_mem_deduped hk).mp h)
    rw [if_neg hjoin]
    constructor
    · rintro ⟨hread, -⟩
      have hall : config.getKeys c.key ++ dedupedNewKeys (config.getKeys c.key) new ≠ [] :=
        append_ne_nil_of_left_ne_nil hsome _
      have hlength := length_joinKeys hnone
      have hlength' := length_joinKeys hall
      cases harray : config.keyArray (joinKeys (dedupedNewKeys [] new)) with
      | some array =>
        -- an array is longer than its elements
        exfalso
        have heq : config.getKeys (joinKeys (dedupedNewKeys [] new)) = array := by
          unfold Config.getKeys
          rw [if_neg hjoin, harray, getD_some]
        rw [← hread, heq] at hlength' hroom
        unfold Config.keyArray at harray
        dsimp only at harray
        split_ifs at harray
        have hlonger := hspelled _ _ harray
        have hle := length_trimSpace_le (joinKeys (dedupedNewKeys [] new))
        omega
      | none =>
        have hlines : ∀ k ∈ dedupedNewKeys [] new, '\n' ∉ k := by
          intro k hk hbreak
          rcases mem_deduped_alone (config.getKeys c.key) hk with ⟨old, hold, rfl⟩ | hnew
          · rw [getKeys_of_brokenArray hkey hbroken] at hold
            have hinside : trimSpace old <:+: old :=
              (List.rdropWhile_prefix _ _).isInfix.trans (dropWhile_suffix _).isInfix
            exact not_mem_of_mem_splitOn hold (hinside.subset hbreak)
          · have hmem := mem_append_right (config.getKeys c.key) hnew
            rw [← hread, getKeys_of_noArray hjoin harray] at hmem
            exact not_mem_of_mem_splitOn hmem hbreak
        have hread' := getKeys_of_taken hnone (fun k hk => ne_nil_of_mem_deduped hk) hlines harray
        rw [hread'] at hread
        refine .inr ⟨hread, ?_⟩
        rw [← hread]
        exact (getKeys_joinKeys_iff hspelled hjoin).mp hread'
    · rintro (h | ⟨heq, hlines⟩)
      · exact absurd h hnone
      · refine ⟨?_, hlines.ne_nil⟩
        rw [heq] at hjoin ⊢
        exact (getKeys_joinKeys_iff hspelled hjoin).mpr hlines

theorem editList_append {edit : ChannelEdit} (hmulti : c.channelInfo.isMultiKey = true)
    (hkey : c.key ≠ []) (happly : config.editList c (.append edit) = .ok c')
    (hasked : config.askedList c (.append edit) = .ok asked) :
    ∃ (f : ChannelFields) (new : List Text), c' = config.updateRow c f ∧ f.channelInfo.isMultiKey = true ∧
      config.inputKeys edit = .ok new ∧ asked = config.getKeys c.key ++ dedupedNewKeys (config.getKeys c.key) new ∧
      f.key = joinKeys (config.existingKeys c.key ++ dedupedNewKeys (config.existingKeys c.key) new) := by
  obtain ⟨new, hinput, hasked⟩ := bind_eq_ok.mp hasked
  obtain ⟨_, hnew, happly⟩ := bind_eq_ok.mp happly
  unfold newKey at hnew
  rw [if_pos ⟨rfl, hmulti, hkey⟩] at hnew
  obtain ⟨new', hinput', hnew⟩ := bind_eq_ok.mp hnew
  obtain rfl : new = new' := Except.ok.inj (hinput.symm.trans hinput')
  cases hasked
  cases happly
  exact ⟨_, new, rfl, hmulti, hinput, rfl, (Except.ok.inj hnew).symm⟩

/-- For every stored text, an edit of the list that succeeds leaves the list that was asked for, with its size, exactly
when that list can be held. -/
theorem key_list_survives_iff (config : EditConfig) (hspelled : config.Spelled) (c : Channel)
    (hmulti : c.channelInfo.isMultiKey = true) (hkey : c.key ≠ []) (e : ListEdit) (c' : Channel) (asked : List Text)
    (happly : config.editList c e = .ok c') (hasked : config.askedList c e = .ok asked) :
    config.Survives c' asked ↔ config.HoldsAsked c e asked := by
  cases e with
  | append =>
    obtain ⟨f, new, rfl, hf, hinput, rfl, hwritten⟩ := editList_append hmulti hkey happly hasked
    unfold HoldsAsked
    split_ifs with hbroken
    · rw [existingKeys_of_brokenArray hbroken, nil_append] at hwritten
      rw [survives_alone_iff hspelled hkey hbroken hf hwritten]
      constructor
      · intro h new' hnew'
        obtain rfl := Except.ok.inj (hinput.symm.trans hnew')
        exact h
      · intro h
        exact h new hinput
    · rw [existingKeys_eq hkey hbroken] at hwritten
      exact survives_joinKeys_iff hspelled hkey hf hwritten
  | deleteKey | deleteDisabledKeys =>
    obtain ⟨f, rfl, hf, hwritten⟩ := editList_delete happly hasked fun edit h => ListEdit.noConfusion h
    exact survives_joinKeys_iff hspelled hkey hf hwritten

theorem spelled_plainKeys : plainKeys.Spelled := fun _ array h => absurd h.symm (some_ne_none array)

def storedKeys (key : Text) : Channel where
  key := key
  status := channelStatusEnabled
  weight := 0
  models := text "m"
  group := text "default"
  priority := 0
  tag := none
  channelInfo := { isMultiKey := true, multiKeySize := 2 }

def appended (key : Text) : ListEdit := .append { fields := { key := key } }

theorem key_list_survives_delete : ∃ c' asked, plainKeys.editList (storedKeys (text "a\nb")) (.deleteKey 0) = .ok c' ∧
      plainKeys.askedList (storedKeys (text "a\nb")) (.deleteKey 0) = .ok asked ∧
      (plainKeys.Survives c' asked ↔ plainKeys.HoldsAsked (storedKeys (text "a\nb")) (.deleteKey 0) asked) :=
  ⟨_, _, rfl, rfl, key_list_survives_iff plainKeys spelled_plainKeys (storedKeys (text "a\nb")) rfl
    (cons_ne_nil _ _) (.deleteKey 0) _ _ rfl rfl⟩

/-- The first key begins with a bracket, and a key is appended: the keys that were there are lost. -/
theorem append_loses_keys : ∃ c', plainKeys.editList (storedKeys (text "[a\nb")) (appended (text "c")) = .ok c' ∧
      plainKeys.getKeys (text "[a\nb") = [text "[a", text "b"] ∧ plainKeys.getKeys c'.key = [text "c"] ∧
      ¬∀ (config : EditConfig) (c : Channel) (e : ListEdit) (c' : Channel) (asked : List Text),
        config.Spelled → c.channelInfo.isMultiKey = true → c.key ≠ [] → config.editList c e = .ok c' →
          config.askedList c e = .ok asked → config.Survives c' asked := by
  refine ⟨_, rfl, by decide +kernel, by decide +kernel, fun h => ?_⟩
  have hkeys := (h plainKeys (storedKeys (text "[a\nb")) (appended (text "c")) _ _ spelled_plainKeys rfl
    (List.cons_ne_nil _ _) rfl rfl).keys
  revert hkeys
  decide +kernel

end EditConfig

end CubeRouter.Routing
