import CubeRouter.Routing.Keys

/-!
# Records that follow their keys

What is on record for a key stands under its position, and the operations on the keys of a channel move the positions.
A delete makes the maps again for the positions that are left; an edit of the channel leaves the maps as they are. The
records follow the keys in every run whose edits leave each key that has a record at its position and put no new key
at a position that is disabled, and whose deletes leave keys that are read back (`records_follow_keys`).

The edits are those that pass the checks of `UpdateChannel`; they carry no status.
-/

namespace CubeRouter.Routing

open Strings Transition List Option

/-! ## Editing a channel -/

/-- An element of an array: a string, or the text that another value is marshalled to. -/
inductive JsonValue
  | string (value : Text)
  | other (encoded : Text)

/-- With `Unmarshal` of an array of any values taken from outside. -/
structure EditConfig extends Config where
  unmarshalValues : Text → Option (List JsonValue)

def getVertexArrayKeys (unmarshalValues : Text → Option (List JsonValue)) (keys : Text) : Except String (List Text) :=
  if keys = [] then return []
  else match unmarshalValues keys with
    | none =>
      throw "批量添加 Vertex AI 必须使用标准的JsonArray格式，例如[\x7bkey1\x7d, \x7bkey2\x7d...]，请检查输入"
    | some keyArray =>
      let cleanKeys := (keyArray.map fun
        | .string value => trimSpace value
        | .other encoded => encoded).filter fun key => key ≠ []
      if cleanKeys = [] then throw "批量添加 Vertex AI 的 keys 不能为空" else return cleanKeys

inductive KeyMode
  | append
  | replace
  | other (name : Text)
  deriving DecidableEq

/-- What `UpdateChannel` takes of a request. -/
structure ChannelEdit where
  fields : ChannelFields
  /-- The channel is one of Vertex AI whose keys are not plain ones. -/
  vertexJson : Bool := false
  keyMode : Option KeyMode := none

namespace EditConfig

/-- The keys that an append takes to be there. -/
def existingKeys (config : EditConfig) (key : Text) : List Text :=
  if hasPrefix (trimSpace key) (text "[") then (config.unmarshalArray (trimSpace key)).getD []
  else (trim key '\n').splitOn '\n'

def inputKeys (config : EditConfig) (edit : ChannelEdit) : Except String (List Text) :=
  if edit.vertexJson then
    if hasPrefix (trimSpace edit.fields.key) (text "[") then
      match getVertexArrayKeys config.unmarshalValues edit.fields.key with
      | .ok array => return array
      | .error message => throw ("追加密钥解析失败: " ++ message)
    else return [edit.fields.key]
  else return ((edit.fields.key.splitOn '\n').map trimSpace).filter fun key => key ≠ []

/-- A new key is taken unless it has been seen, both without the spaces around them. -/
def takeKey (found : List Text × List Text) (key : Text) : List Text × List Text :=
  let normalized := trimSpace key
  if normalized = [] ∨ normalized ∈ found.1 then found else (normalized :: found.1, found.2 ++ [normalized])

def dedupedNewKeys (existing new : List Text) : List Text :=
  (new.foldl takeKey ((existing.map trimSpace).filter fun key => key ≠ [], [])).2

/-- The text of the keys that an edit writes. -/
def newKey (config : EditConfig) (c : Channel) (edit : ChannelEdit) : Except String Text :=
  if edit.keyMode = some .append ∧ c.channelInfo.isMultiKey ∧ c.key ≠ [] then do
    let new ← config.inputKeys edit
    return joinKeys (config.existingKeys c.key ++ dedupedNewKeys (config.existingKeys c.key) new)
  else return edit.fields.key

/-- The column of the statuses is copied from the channel. -/
def updateChannel (config : EditConfig) (c : Channel) (edit : ChannelEdit) : Except String Channel := do
  let key ← config.newKey c edit
  return config.updateRow c { edit.fields with key := key, status := 0, channelInfo := c.channelInfo }

end EditConfig

/-! ## The operations -/

inductive KeyChange
  | updateChannelStatus (cache : MemoryCache) (usingKey : Text) (status : Int) (reason : String) (now : Int)
  | manageMultiKeys (action : KeyAction)
  | updateChannel (edit : ChannelEdit)

namespace EditConfig

variable (config : EditConfig)

def step (c : Channel) : KeyChange → Channel
  | .updateChannelStatus cache usingKey status reason now =>
    (config.updateChannelStatus cache c usingKey status reason now).1
  | .manageMultiKeys action =>
    match config.manageMultiKeys c action with
    | .error _ => c
    | .ok c' => config.updateRow c c'.fields
  | .updateChannel edit =>
    match config.updateChannel c edit with
    | .error _ => c
    | .ok c' => c'

def Names (c : Channel) (k : Text) : KeyChange → Prop
  | .updateChannelStatus _ usingKey _ _ _ => k = usingKey
  | .manageMultiKeys action => ∃ i, (config.getKeys c.key)[i]? = some k ∧ action.Names c.channelInfo i
  | .updateChannel _ => False

/-- A key that is there before and after an operation that is not about it keeps its record, and a key that was not
there is enabled. -/
structure Follows (c : Channel) (e : KeyChange) : Prop where
  kept : ∀ (i j : Nat) (k : Text), (config.getKeys c.key)[i]? = some k →
    (config.getKeys (config.step c e).key)[j]? = some k → ¬config.Names c k e →
      (config.step c e).channelInfo.record j = c.channelInfo.record i
  fresh : ∀ (j : Nat) (k : Text), (config.getKeys (config.step c e).key)[j]? = some k → k ∉ config.getKeys c.key →
    (config.step c e).channelInfo.statusAt j = channelStatusEnabled

/-- The keys differ. A key that stays keeps its position, unless nothing is on record at the old one and the new one,
and a new key has a position that is not disabled. -/
def Places (c : Channel) (keys : List Text) : Prop :=
  keys.Nodup ∧ ∀ k ∈ keys,
    if k ∈ config.getKeys c.key then
      (config.getKeys c.key).idxOf k = keys.idxOf k ∨
        c.channelInfo.record ((config.getKeys c.key).idxOf k) = .blank ∧
          c.channelInfo.record (keys.idxOf k) = .blank
    else c.channelInfo.statusAt (keys.idxOf k) = channelStatusEnabled

/-- The keys that a delete leaves are read back, and it drops no reason or time of an enabled key; an edit places its
keys. -/
def Careful (c : Channel) : KeyChange → Prop
  | .updateChannelStatus .. => True
  | .manageMultiKeys action => ∀ keys ∈ config.remaining c action, config.ReadsBack keys ∧
      (action = .deleteDisabledKeys → ∀ i ∈ List.range (config.getKeys c.key).length,
        c.channelInfo.statusAt i = channelStatusEnabled → c.channelInfo.record i = .blank)
  | .updateChannel edit =>
    match config.newKey c edit with
    | .error _ => True
    | .ok key => key = [] ∨ config.Places c (config.getKeys key)

instance (c : Channel) (keys : List Text) : Decidable (config.Places c keys) := by
  unfold Places
  infer_instance

instance decidableCareful (c : Channel) : ∀ e, Decidable (config.Careful c e)
  | .updateChannelStatus .. => .isTrue trivial
  | .manageMultiKeys action => inferInstanceAs (Decidable (∀ keys ∈ config.remaining c action, _))
  | .updateChannel edit =>
    match h : config.newKey c edit with
    | .error _ => .isTrue (by simp [Careful, h])
    | .ok key => decidable_of_iff (key = [] ∨ config.Places c (config.getKeys key)) (by simp [Careful, h])

variable {config} {c : Channel}

/-! ## One operation -/

variable {k : Text} {i : Nat} {c' : Channel} {action : KeyAction} {keys before : List Text} {j : Nat}
  {found : List Text × List Text}

theorem position_unique (h : keys.Nodup) (hi : keys[i]? = some k) (hj : keys[j]? = some k) : i = j := by
  obtain ⟨hi, rfl⟩ := List.getElem?_eq_some_iff.mp hi
  obtain ⟨hj, heq⟩ := List.getElem?_eq_some_iff.mp hj
  exact (h.getElem_inj_iff.mp heq).symm

theorem idxOf_position (h : keys.Nodup) (hi : keys[i]? = some k) : keys.idxOf k = i := by
  obtain ⟨hlt, rfl⟩ := List.getElem?_eq_some_iff.mp hi
  exact h.idxOf_getElem i hlt

structure Distinct (config : EditConfig) (c : Channel) : Prop where
  multi : c.channelInfo.isMultiKey = true
  nodup : (config.getKeys c.key).Nodup

theorem follows_of_key_eq {e : KeyChange} (h : Distinct config c) (hkey : (config.step c e).key = c.key)
    (hrecord : ∀ (i : Nat) (k : Text), (config.getKeys c.key)[i]? = some k → ¬config.Names c k e →
      (config.step c e).channelInfo.record i = c.channelInfo.record i) : config.Follows c e := by
  constructor
  · intro i j k hi hj hnames
    rw [hkey] at hj
    obtain rfl := position_unique h.nodup hi hj
    exact hrecord i k hi hnames
  · intro j k hj hnew
    rw [hkey] at hj
    exact absurd (mem_of_getElem? hj) hnew

theorem follows_updateChannelStatus (h : Distinct config c) {cache : MemoryCache} {usingKey : Text} {status : Int}
    {reason : String} {now : Int} : config.Follows c (.updateChannelStatus cache usingKey status reason now) ∧
      Distinct config (config.step c (.updateChannelStatus cache usingKey status reason now)) := by
  have hboth : (config.step c (.updateChannelStatus cache usingKey status reason now)).key = c.key ∧
      (config.step c (.updateChannelStatus cache usingKey status reason now)).channelInfo.isMultiKey = true ∧
      ∀ (i : Nat) (k : Text), (config.getKeys c.key)[i]? = some k → k ≠ usingKey →
        (config.step c (.updateChannelStatus cache usingKey status reason now)).channelInfo.record i =
          c.channelInfo.record i := by
    unfold step Config.updateChannelStatus
    dsimp only
    split
    · exact ⟨rfl, h.multi, fun i k _ _ => rfl⟩
    · obtain ⟨hkey, hmulti, hrecord⟩ := withStatus_record config.toConfig h.multi usingKey status reason now
      refine ⟨hkey, hmulti, fun i k hi hne => ?_⟩
      rw [hrecord, if_neg]
      intro hindex
      obtain ⟨hlt, hk, -⟩ := findIdx?_eq_some_iff_getElem.mp hindex
      have hsame := hi.symm.trans (getElem?_eq_getElem hlt)
      exact hne ((Option.some.inj hsame).trans (by simpa using hk))
  obtain ⟨hkey, hmulti, hrecord⟩ := hboth
  refine ⟨follows_of_key_eq h hkey hrecord, hmulti, ?_⟩
  rw [hkey]
  exact h.nodup

theorem updateRow_record_of_key {row : Channel} {f : ChannelFields} (hmulti : f.channelInfo.isMultiKey = true)
    (hj : (config.getKeys (config.updateRow row f).key)[j]? = some k) :
    (config.updateRow row f).channelInfo.record j = f.channelInfo.record j :=
  updateRow_record hmulti (Nat.lt_of_lt_of_le (List.getElem?_eq_some_iff.mp hj).1 (length_getKeys_le _))

theorem remaining_of_deleteDisabledKeys (h : config.manageMultiKeys c .deleteDisabledKeys = .ok c') :
    ∃ keys, config.remaining c .deleteDisabledKeys = some keys := by
  obtain ⟨-, h⟩ := manageMultiKeys_ok h
  unfold Config.changeKeys at h
  dsimp only at h
  split_ifs at h with hsame
  exact ⟨_, if_neg hsame⟩

theorem carried_eq_record (hmanage : config.manageMultiKeys c action = .ok c')
    (hcareful : config.Careful c (.manageMultiKeys action)) (hi : i < (config.getKeys c.key).length) :
    c.channelInfo.carried action i = c.channelInfo.record i := by
  unfold ChannelInfo.carried
  split_ifs with hboth
  · obtain ⟨rfl, henabled⟩ := hboth
    obtain ⟨keys, hkeys⟩ := remaining_of_deleteDisabledKeys hmanage
    exact ((hcareful keys hkeys).2 rfl i (mem_range.mpr hi) henabled).symm
  · rfl

theorem nodup_of_carries {positions : List Nat} (h : (config.getKeys c.key).Nodup)
    (hcarries : Carries config.toConfig action c c' positions) : (config.getKeys c'.key).Nodup := by
  refine pairwise_iff_getElem.mpr fun j1 j2 h1 h2 hlt heq => ?_
  have hk1 := hcarries.keys j1
  have hk2 := hcarries.keys j2
  rw [getElem?_eq_getElem h1] at hk1
  rw [getElem?_eq_getElem h2] at hk2
  obtain ⟨_, hi1, hkey1⟩ := bind_eq_some_iff.mp hk1.symm
  obtain ⟨_, hi2, hkey2⟩ := bind_eq_some_iff.mp hk2.symm
  rw [heq] at hkey1
  have hsame := position_unique h hkey1 hkey2
  obtain ⟨hlt1, rfl⟩ := List.getElem?_eq_some_iff.mp hi1
  obtain ⟨hlt2, rfl⟩ := List.getElem?_eq_some_iff.mp hi2
  have hless := pairwise_iff_getElem.mp hcarries.increasing j1 j2 hlt1 hlt2 hlt
  exact absurd hsame hless.ne

theorem follows_manageMultiKeys (h : Distinct config c) (hcareful : config.Careful c (.manageMultiKeys action)) :
    config.Follows c (.manageMultiKeys action) ∧ Distinct config (config.step c (.manageMultiKeys action)) := by
  cases hmanage : config.manageMultiKeys c action with
  | error =>
    have hstep : config.step c (.manageMultiKeys action) = c := by simp [step, hmanage]
    refine ⟨follows_of_key_eq h (by rw [hstep]) fun i k _ _ => by rw [hstep], ?_⟩
    rw [hstep]
    exact h
  | ok c' =>
    have hstep : config.step c (.manageMultiKeys action) = config.updateRow c c'.fields := by simp [step, hmanage]
    obtain ⟨positions, hcarries⟩ := manageMultiKeys_carries hmanage fun keys hkeys => (hcareful keys hkeys).1
    have hmulti : (config.updateRow c c'.fields).channelInfo.isMultiKey = true := updateRow_isMultiKey hcarries.multi
    by_cases hempty : c'.key = []
    · -- the text is not written, and every key is one that the action is about
      have hkey : (config.updateRow c c'.fields).key = c.key := by
        rw [updateRow_key]
        exact if_pos hempty
      refine ⟨follows_of_key_eq h (by rw [hstep, hkey]) fun i k hi hnames => ?_, ?_⟩
      · have hkept := hcarries.kept i (List.getElem?_eq_some_iff.mp hi).1 fun hn => hnames ⟨i, hi, hn⟩
        obtain ⟨j, hj⟩ := mem_iff_getElem?.mp hkept
        have hnone := hcarries.keys j
        rw [hj, bind_some, hi, hempty] at hnone
        cases hnone
      · rw [hstep]
        exact ⟨hmulti, by rw [hkey]; exact h.nodup⟩
    · have hkey : (config.updateRow c c'.fields).key = c'.key := by
        rw [updateRow_key]
        exact if_neg hempty
      have horigin : ∀ (j : Nat) (k : Text), (config.getKeys (config.updateRow c c'.fields).key)[j]? = some k →
          ∃ i, positions[j]? = some i ∧ (config.getKeys c.key)[i]? = some k := by
        intro j k hj
        rw [hkey, hcarries.keys] at hj
        exact bind_eq_some_iff.mp hj
      refine ⟨⟨?_, ?_⟩, ?_⟩
      · intro i j k hi hj hnames
        rw [hstep] at hj ⊢
        obtain ⟨_, hi', hk⟩ := horigin j k hj
        obtain rfl := position_unique h.nodup hi hk
        have hrecord := hcarries.record j i hi' fun hn => hnames ⟨i, hi, hn⟩
        rw [updateRow_record_of_key hcarries.multi hj, ← carried_eq_record hmanage hcareful
          (List.getElem?_eq_some_iff.mp hi).1]
        exact hrecord
      · intro j k hj hnew
        rw [hstep] at hj
        obtain ⟨i, -, hk⟩ := horigin j k hj
        exact absurd (mem_of_getElem? hk) hnew
      · rw [hstep]
        exact ⟨hmulti, by rw [hkey]; exact nodup_of_carries h.nodup hcarries⟩

theorem follows_updateChannel (h : Distinct config c) {edit : ChannelEdit}
    (hcareful : config.Careful c (.updateChannel edit)) :
    config.Follows c (.updateChannel edit) ∧ Distinct config (config.step c (.updateChannel edit)) := by
  cases hnew : config.newKey c edit with
  | error =>
    have hstep : config.step c (.updateChannel edit) = c := by simp [step, updateChannel, hnew]
    refine ⟨follows_of_key_eq h (by rw [hstep]) fun i k _ _ => by rw [hstep], ?_⟩
    rw [hstep]
    exact h
  | ok key =>
    have hstep : config.step c (.updateChannel edit) =
        config.updateRow c { edit.fields with key := key, status := 0, channelInfo := c.channelInfo } := by
      simp [step, updateChannel, hnew, bind, Except.bind, pure, Except.pure]
    have hrecord : ∀ (j : Nat) (k : Text), (config.getKeys (config.step c (.updateChannel edit)).key)[j]? = some k →
        (config.step c (.updateChannel edit)).channelInfo.record j = c.channelInfo.record j := by
      intro j k hj
      rw [hstep] at hj ⊢
      exact updateRow_record_of_key h.multi hj
    have hmulti : (config.step c (.updateChannel edit)).channelInfo.isMultiKey = true := by
      rw [hstep]
      exact updateRow_isMultiKey h.multi
    have hkey : (config.step c (.updateChannel edit)).key = if key = [] then c.key else key := by
      rw [hstep, updateRow_key]
    unfold Careful at hcareful
    simp only [hnew] at hcareful
    by_cases hempty : key = []
    · rw [if_pos hempty] at hkey
      refine ⟨follows_of_key_eq h hkey fun i k hi _ => hrecord i k (by rw [hkey]; exact hi), hmulti, ?_⟩
      rw [hkey]
      exact h.nodup
    · rw [if_neg hempty] at hkey
      obtain ⟨hnodup, hplaces⟩ := hcareful.resolve_left hempty
      refine ⟨⟨?_, ?_⟩, hmulti, by rw [hkey]; exact hnodup⟩
      · intro i j k hi hj _
        rw [hrecord j k hj]
        rw [hkey] at hj
        have hplace := hplaces k (mem_of_getElem? hj)
        rw [if_pos (mem_of_getElem? hi), idxOf_position h.nodup hi, idxOf_position hnodup hj] at hplace
        rcases hplace with rfl | ⟨hi', hj'⟩
        · rfl
        · rw [hi', hj']
      · intro j k hj hfresh
        have hstatus := congrArg KeyRecord.status (hrecord j k hj)
        rw [hkey] at hj
        have hplace := hplaces k (mem_of_getElem? hj)
        rw [if_neg hfresh, idxOf_position hnodup hj] at hplace
        exact hstatus.trans hplace

/-! ## Appending keys -/

/-- What the loop over the new keys has come to, when it started with the keys `before`. -/
structure Taken (before : List Text) (found : List Text × List Text) : Prop where
  there : ∀ k ∈ before, k ∈ found.1
  known : ∀ k ∈ found.2, k ∈ found.1
  new : ∀ k ∈ found.2, k ∉ before ∧ trimSpace k = k ∧ k ≠ []
  nodup : found.2.Nodup

theorem Taken.takeKey (h : Taken before found) (key : Text) : Taken before (takeKey found key) := by
  unfold EditConfig.takeKey
  dsimp only
  split_ifs with hseen
  · exact h
  · obtain ⟨hne, hnot⟩ := not_or.mp hseen
    constructor
    · intro k hk
      exact mem_cons_of_mem _ (h.there k hk)
    · intro k hk
      rcases mem_append.mp hk with hk | hk
      · exact mem_cons_of_mem _ (h.known k hk)
      · exact mem_cons.mpr (.inl (mem_singleton.mp hk))
    · intro k hk
      rcases mem_append.mp hk with hk | hk
      · exact h.new k hk
      · rw [mem_singleton.mp hk]
        exact ⟨fun hmem => hnot (h.there _ hmem), trimSpace_trimSpace key, hne⟩
    · rw [nodup_append]
      refine ⟨h.nodup, nodup_singleton _, fun k hk k' hk' heq => ?_⟩
      rw [heq, mem_singleton.mp hk'] at hk
      exact hnot (h.known _ hk)

theorem Taken.foldl (h : Taken before found) (keys : List Text) :
    Taken before (keys.foldl EditConfig.takeKey found) := by
  induction keys generalizing found with
  | nil => exact h
  | cons k _ ih => exact ih (h.takeKey k)

/-- The keys that are appended differ from each other and from the keys that are there. -/
theorem dedupedNewKeys_spec (existing new : List Text) :
    (dedupedNewKeys existing new).Nodup ∧ ∀ k ∈ dedupedNewKeys existing new, k ∉ existing := by
  have hstart : Taken ((existing.map trimSpace).filter fun key => key ≠ [])
      ((existing.map trimSpace).filter fun key => key ≠ [], []) :=
    ⟨fun _ h => h, fun _ h => (not_mem_nil h).elim, fun _ h => (not_mem_nil h).elim, nodup_nil⟩
  have htaken := hstart.foldl new
  refine ⟨htaken.nodup, fun k hk hmem => ?_⟩
  obtain ⟨hnot, htrim, hne⟩ := htaken.new k hk
  refine hnot (mem_filter.mpr ⟨mem_map.mpr ⟨k, hmem, htrim⟩, ?_⟩)
  simpa using hne

/-! ## Runs -/

theorem follows_step (e : KeyChange) (h : Distinct config c) (hcareful : config.Careful c e) :
    config.Follows c e ∧ Distinct config (config.step c e) := by
  cases e with
  | updateChannelStatus cache usingKey status reason now =>
    exact follows_updateChannelStatus h
  | manageMultiKeys => exact follows_manageMultiKeys h hcareful
  | updateChannel => exact follows_updateChannel h hcareful

/-- In a run of careful operations on a channel with distinct keys, each operation leaves the records with their keys.
-/
theorem records_follow_keys (config : EditConfig) (c : Channel) (hmulti : c.channelInfo.isMultiKey = true)
    (hdistinct : (config.getKeys c.key).Nodup) (events : List KeyChange)
    (hcareful : Along config.step config.Careful c events) : Along config.step config.Follows c events :=
  along_of_invariant (fun _ e h hc => (follows_step e h hc).2) (fun _ e h hc => (follows_step e h hc).1)
    (I := Distinct config) ⟨hmulti, hdistinct⟩ hcareful

def twoKeys : Channel where
  key := text "a\nb"
  status := channelStatusEnabled
  weight := 0
  models := text "m"
  group := text "default"
  priority := 0
  tag := none
  channelInfo := { isMultiKey := true, multiKeySize := 2 }

def plainKeys : EditConfig := { unmarshalArray := fun _ => none, unmarshalValues := fun _ => none }

/-- A key is disabled, one is appended, and the first one is deleted. -/
theorem records_follow_keys_sample : Along plainKeys.step plainKeys.Follows twoKeys
    [.updateChannelStatus .disabled (text "b") channelStatusAutoDisabled "quota" 7,
      .updateChannel { fields := { key := text "c" }, keyMode := some .append },
      .manageMultiKeys (.deleteKey (some 0))] :=
  records_follow_keys plainKeys twoKeys rfl (by decide +kernel) _ (by decide +kernel)

/-- The keys are replaced by the same keys in another order, and the status of one becomes that of the other. -/
theorem replace_moves_status :
    ¬∀ (config : EditConfig) (c : Channel) (events : List KeyChange), c.channelInfo.isMultiKey = true →
      (config.getKeys c.key).Nodup → Along config.step config.Follows c events := by
  intro h
  obtain ⟨-, hreplace, -⟩ := h plainKeys twoKeys
    [.updateChannelStatus .disabled (text "a") channelStatusAutoDisabled "quota" 7,
      .updateChannel { fields := { key := text "b\na" }, keyMode := some .replace }] rfl (by decide +kernel)
  have hrecord := hreplace.kept 1 0 (text "b") (by decide +kernel) (by decide +kernel) (fun h => h)
  revert hrecord
  decide +kernel

end EditConfig

end CubeRouter.Routing
