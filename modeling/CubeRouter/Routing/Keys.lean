import CubeRouter.Routing.Abilities

/-!
# The keys of a channel

A multi-key channel has its keys in one text, one on each line or as the elements of an array. The status of a key,
and the reason and the time of its disabling, stand under the position of the key in three maps of `channel_info`.
`ManageMultiKeys` disables, enables and deletes keys in a channel that it has read, and `Update` writes the channel
back. A delete makes the text and the maps again from the keys that are left; whether the text is then read as these
keys is `ReadsBack`.
-/

namespace CubeRouter.Routing

open Relational Strings Transition List

/-! ## Maps under positions -/

namespace IntMap

variable {α : Type}

/-- The entries of the kept positions, in their order. -/
def reindex (look : Nat → Option α) (kept : List Nat) : IntMap α :=
  kept.zipIdx.filterMap fun e => (look e.1).map fun a => (e.2, a)

theorem lookup_filter {m : IntMap α} (p : Nat → Bool) (i : Nat) :
    (m.filter fun e => p e.1).lookup i = if p i then m.lookup i else none := by
  induction m with
  | nil => simp
  | cons e m ih =>
    obtain ⟨k, a⟩ := e
    rw [filter_cons]
    by_cases hi : i = k
    · subst hi
      cases hp : p i with
      | true => simp
      | false => simp [ih, hp]
    · have hne : (i == k) = false := by simpa using hi
      split_ifs <;> simp [lookup_cons, *]

theorem lookup_delete (m : IntMap α) (k i : Nat) : (delete m k).lookup i = if i = k then none else m.lookup i := by
  unfold delete
  rw [lookup_filter (fun j => decide (j ≠ k))]
  by_cases hi : i = k <;> simp

theorem lookup_set (m : IntMap α) (k : Nat) (a : α) (i : Nat) :
    (set m k a).lookup i = if i = k then some a else m.lookup i := by
  change List.lookup i ((k, a) :: delete m k) = _
  rw [lookup_cons, lookup_delete]
  by_cases hi : i = k
  · simp [hi]
  · have hne : (i == k) = false := by simpa using hi
    simp [hne, hi]

theorem lookup_reindex_from (look : Nat → Option α) (kept : List Nat) (start i : Nat) :
    ((kept.zipIdx start).filterMap fun e => (look e.1).map fun a => (e.2, a)).lookup i =
      if i < start then none else kept[i - start]?.bind look := by
  induction kept generalizing start with
  | nil => simp
  | cons j _ ih =>
    rw [zipIdx_cons, filterMap_cons]
    have hlater := ih (start + 1)
    rcases Nat.lt_trichotomy i start with hi | rfl | hi
    · have hne : (i == start) = false := by simpa using hi.ne
      rw [if_pos (by omega)] at hlater
      cases look j <;> simp [lookup_cons, hne, hlater, hi]
    · cases hj : look j <;> simp [hlater, hj]
    · have hne : (i == start) = false := by simpa using hi.ne'
      have hnext : i - start = i - (start + 1) + 1 := by omega
      rw [if_neg (by omega)] at hlater
      rw [if_neg (by omega), hnext, getElem?_cons_succ]
      cases look j <;> simp [lookup_cons, hne, hlater]

theorem lookup_reindex (look : Nat → Option α) (kept : List Nat) (i : Nat) :
    (reindex look kept).lookup i = kept[i]?.bind look := by
  unfold reindex
  rw [lookup_reindex_from look kept 0 i]
  simp

end IntMap

/-! ## Records -/

/-- What is on record for the key at a position. -/
structure KeyRecord where
  status : Int
  reason : Option String
  time : Option Int
  deriving DecidableEq

def ChannelInfo.statusAt (info : ChannelInfo) (i : Nat) : Int :=
  (info.multiKeyStatusList.lookup i).getD channelStatusEnabled

def ChannelInfo.record (info : ChannelInfo) (i : Nat) : KeyRecord where
  status := info.statusAt i
  reason := info.multiKeyDisabledReason.lookup i
  time := info.multiKeyDisabledTime.lookup i

def KeyRecord.blank : KeyRecord := ⟨channelStatusEnabled, none, none⟩

/-! ## Writing a channel back -/

/-- The struct of a channel that was read: no pointer is `nil`. -/
def Channel.fields (c : Channel) : ChannelFields where
  key := c.key
  status := c.status
  weight := some c.weight
  models := c.models
  group := c.group
  priority := some c.priority
  tag := c.tag
  modelMapping := c.modelMapping
  paramOverride := c.paramOverride
  headerOverride := c.headerOverride
  otherInfo := c.otherInfo
  channelInfo := c.channelInfo

/-- `recount` for the row that is in the table. -/
def Config.recountRow (config : Config) (row : Channel) (f : ChannelFields) : ChannelFields :=
  if f.channelInfo.isMultiKey then
    let keyStr := if f.key ≠ [] then f.key else row.key
    let size := (config.countedKeys keyStr).length
    { f with
      channelInfo :=
        { f.channelInfo with
          multiKeySize := size
          multiKeyStatusList := f.channelInfo.multiKeyStatusList.filter fun e => e.1 < size } }
  else f

/-- What `Update` leaves of a row. -/
def Config.updateRow (config : Config) (row : Channel) (f : ChannelFields) : Channel :=
  (config.recountRow row f).updates row

variable {config : Config}

theorem updateRow_key (row : Channel) (f : ChannelFields) :
    (config.updateRow row f).key = if f.key = [] then row.key else f.key := by
  unfold Config.updateRow Config.recountRow ChannelFields.updates
  split <;> rfl

variable {i : Nat} {c c' : Channel} {keys : List Text} {keep : Nat → Bool} {row : Channel} {f : ChannelFields}
  {k : Text} {info : ChannelInfo} {reason : String} {now : Int}

theorem updateRow_record (h : f.channelInfo.isMultiKey = true)
    (hi : i < (config.countedKeys (config.updateRow row f).key).length) :
    (config.updateRow row f).channelInfo.record i = f.channelInfo.record i := by
  have hkey : (config.updateRow row f).key = if f.key ≠ [] then f.key else row.key := by
    rw [updateRow_key]
    split_ifs <;> simp_all
  rw [hkey] at hi
  have hinfo : (config.recountRow row f).channelInfo ≠ {} := by
    intro hzero
    have := congrArg ChannelInfo.isMultiKey hzero
    simp [Config.recountRow, h] at this
  have hwritten : (config.updateRow row f).channelInfo = (config.recountRow row f).channelInfo := if_neg hinfo
  rw [hwritten]
  unfold Config.recountRow ChannelInfo.record ChannelInfo.statusAt
  rw [if_pos h]
  rw [IntMap.lookup_filter (fun j => decide (j < _)), if_pos (by simpa using hi)]

theorem updateRow_isMultiKey (h : f.channelInfo.isMultiKey = true) :
    (config.updateRow row f).channelInfo.isMultiKey = true := by
  have hinfo : (config.recountRow row f).channelInfo.isMultiKey = true := by
    unfold Config.recountRow
    split
    · exact h
    · exact h
  unfold Config.updateRow ChannelFields.updates
  dsimp only
  split
  · rename_i hzero
    rw [hzero] at hinfo
    cases hinfo
  · exact hinfo

theorem length_getKeys_le (key : Text) : (config.getKeys key).length ≤ (config.countedKeys key).length := by
  unfold Config.getKeys Config.countedKeys
  split
  · exact le_rfl
  · cases config.keyArray key with
    | none => exact le_rfl
    | some keys =>
      cases keys with
      | nil => exact Nat.zero_le _
      | cons => exact le_rfl

/-! ## Managing keys -/

inductive KeyAction
  | disableKey (keyIndex : Option Int)
  | enableKey (keyIndex : Option Int)
  | enableAllKeys
  | disableAllKeys
  | deleteKey (keyIndex : Option Int)
  | deleteDisabledKeys
  deriving DecidableEq

/-- `strings.Join` of lines. -/
def joinKeys (keys : List Text) : Text := List.intercalate ['\n'] keys

/-- The index of a request, and the error when there is none. -/
def checkKeyIndex (missing : String) (size : Nat) : Option Int → Except String Nat
  | none => throw missing
  | some i => if i < 0 ∨ i ≥ size then throw "密钥索引超出范围" else return i.toNat

/-- The positions that are left, with their keys. -/
def keptKeys (keys : List Text) (keep : Nat → Bool) : List (Text × Nat) := keys.zipIdx.filter fun e => keep e.2

/-- The keys that are left, and the maps that have been filled for them. -/
def Channel.withKeys (c : Channel) (kept : List (Text × Nat)) (status : Nat → Option Int) (reason : Nat → Option String)
    (time : Nat → Option Int) : Channel :=
  { c with
    key := joinKeys (kept.map Prod.fst)
    channelInfo :=
      { c.channelInfo with
        multiKeySize := kept.length
        multiKeyStatusList := IntMap.reindex status (kept.map Prod.snd)
        multiKeyDisabledReason := IntMap.reindex reason (kept.map Prod.snd)
        multiKeyDisabledTime := IntMap.reindex time (kept.map Prod.snd) } }

/-- The loop of `disable_all_keys`. -/
def disableEnabled (statusList : IntMap Int) (i : Nat) : IntMap Int :=
  if (statusList.lookup i).getD channelStatusEnabled = channelStatusEnabled then
    IntMap.set statusList i channelStatusManuallyDisabled
  else statusList

/-- The branches of `ManageMultiKeys`: the channel that is passed to `Update`, or the message of the response. -/
def Config.changeKeys (config : Config) (c : Channel) (action : KeyAction) : Except String Channel :=
  let info := c.channelInfo
  let keys := config.getKeys c.key
  let status i := (info.multiKeyStatusList.lookup i).filter fun status => status ≠ channelStatusEnabled
  match action with
  | .disableKey keyIndex => do
    let i ← checkKeyIndex "未指定要禁用的密钥索引" info.multiKeySize keyIndex
    return { c with
      channelInfo := { info with
        multiKeyStatusList := IntMap.set info.multiKeyStatusList i channelStatusManuallyDisabled } }
  | .enableKey keyIndex => do
    let i ← checkKeyIndex "未指定要启用的密钥索引" info.multiKeySize keyIndex
    return { c with
      channelInfo := { info with
        multiKeyStatusList := IntMap.delete info.multiKeyStatusList i
        multiKeyDisabledTime := IntMap.delete info.multiKeyDisabledTime i
        multiKeyDisabledReason := IntMap.delete info.multiKeyDisabledReason i } }
  | .enableAllKeys =>
    return { c with
      channelInfo := { info with
        multiKeyStatusList := [], multiKeyDisabledTime := [], multiKeyDisabledReason := [] } }
  | .disableAllKeys =>
    if (List.range info.multiKeySize).all fun i => info.statusAt i ≠ channelStatusEnabled then
      throw "没有可禁用的密钥"
    else
      return { c with
        channelInfo := { info with
          multiKeyStatusList := (List.range info.multiKeySize).foldl disableEnabled info.multiKeyStatusList } }
  | .deleteKey keyIndex => do
    let i ← checkKeyIndex "未指定要删除的密钥索引" info.multiKeySize keyIndex
    let kept := keptKeys keys fun j => j ≠ i
    if kept = [] then throw "不能删除最后一个密钥"
    else
      return c.withKeys kept status (fun j => info.multiKeyDisabledReason.lookup j)
        (fun j => info.multiKeyDisabledTime.lookup j)
  | .deleteDisabledKeys =>
    let kept := keptKeys keys fun j => info.statusAt j ≠ channelStatusAutoDisabled
    if kept.length = keys.length then throw "没有需要删除的自动禁用密钥"
    else
      return c.withKeys kept status
        (fun j => if info.statusAt j ≠ channelStatusEnabled then info.multiKeyDisabledReason.lookup j else none)
        (fun j => if info.statusAt j ≠ channelStatusEnabled then info.multiKeyDisabledTime.lookup j else none)

def Config.manageMultiKeys (config : Config) (c : Channel) (action : KeyAction) : Except String Channel :=
  if ¬c.channelInfo.isMultiKey then throw "该渠道不是多密钥模式" else config.changeKeys c action

variable {action : KeyAction}

theorem manageMultiKeys_ok (h : config.manageMultiKeys c action = .ok c') :
    c.channelInfo.isMultiKey = true ∧ config.changeKeys c action = .ok c' := by
  unfold Config.manageMultiKeys at h
  split at h
  · cases h
  · rename_i hmulti
    exact ⟨not_not.mp hmulti, h⟩

def Config.ReadsBack (config : Config) (keys : List Text) : Prop := config.getKeys (joinKeys keys) = keys

instance (config : Config) (keys : List Text) : Decidable (config.ReadsBack keys) :=
  inferInstanceAs (Decidable (_ = _))

theorem joinKeys_cons (h : keys ≠ []) : joinKeys (k :: keys) = k ++ '\n' :: joinKeys keys := by
  unfold joinKeys
  rw [intercalate_cons_of_ne_nil h]
  simp

theorem prefix_joinKeys (k : Text) (keys : List Text) : k <+: joinKeys (k :: keys) := by
  cases keys with
  | nil => simp [joinKeys]
  | cons =>
    exact prefix_append _ _

theorem suffix_joinKeys (h : keys ≠ []) : keys.getLast h <:+ joinKeys keys := by
  induction keys with
  | nil => exact absurd rfl h
  | cons k keys ih =>
    cases keys with
    | nil => simp [joinKeys]
    | cons =>
      exact (ih (by simp)).trans ((suffix_cons _ _).trans (suffix_append _ _))

/-- Lines are read back unless the first or the last one is empty or together they look like an array. -/
theorem readsBack_of_lines (config : Config) (h : keys ≠ []) (hlines : ∀ k ∈ keys, '\n' ∉ k)
    (hfirst : keys.head h ≠ []) (hlast : keys.getLast h ≠ []) (harray : config.keyArray (joinKeys keys) = none) :
    config.ReadsBack keys := by
  obtain ⟨k, rest, rfl⟩ := exists_cons_of_ne_nil h
  have hbegins := prefix_joinKeys k rest
  have htrim : trim (joinKeys (k :: rest)) '\n' = joinKeys (k :: rest) :=
    trim_eq_self hbegins (suffix_joinKeys h) (hlines k mem_cons_self) (hlines _ (getLast_mem h)) hfirst hlast
  have hne : joinKeys (k :: rest) ≠ [] := by
    intro hnil
    rw [hnil] at hbegins
    exact hfirst (prefix_nil.mp hbegins)
  unfold Config.ReadsBack Config.getKeys
  rw [if_neg hne, harray, Option.getD_none, htrim]
  exact splitOn_intercalate '\n' hlines h

def Config.remaining (config : Config) (c : Channel) : KeyAction → Option (List Text)
  | .deleteKey (some i) =>
    if 0 ≤ i ∧ i < c.channelInfo.multiKeySize then
      some ((keptKeys (config.getKeys c.key) fun j => j ≠ i.toNat).map Prod.fst)
    else none
  | .deleteDisabledKeys =>
    let kept := keptKeys (config.getKeys c.key) fun j => c.channelInfo.statusAt j ≠ channelStatusAutoDisabled
    if kept.length = (config.getKeys c.key).length then none else some (kept.map Prod.fst)
  | _ => none

def Config.Readable (config : Config) (c : Channel) (action : KeyAction) : Prop :=
  ∀ keys ∈ config.remaining c action, config.ReadsBack keys

instance (config : Config) (c : Channel) (action : KeyAction) : Decidable (config.Readable c action) :=
  inferInstanceAs (Decidable (∀ keys ∈ config.remaining c action, config.ReadsBack keys))

def KeyAction.Names (info : ChannelInfo) (i : Nat) : KeyAction → Prop
  | .disableKey keyIndex | .enableKey keyIndex | .deleteKey keyIndex => keyIndex = some (i : Int)
  | .enableAllKeys | .disableAllKeys => True
  | .deleteDisabledKeys => info.statusAt i = channelStatusAutoDisabled

instance (info : ChannelInfo) (i : Nat) : ∀ action : KeyAction, Decidable (action.Names info i)
  | .disableKey keyIndex | .enableKey keyIndex | .deleteKey keyIndex =>
    inferInstanceAs (Decidable (keyIndex = some (i : Int)))
  | .enableAllKeys | .disableAllKeys => .isTrue trivial
  | .deleteDisabledKeys => inferInstanceAs (Decidable (info.statusAt i = channelStatusAutoDisabled))

/-! ## What an action carries over -/

/-- What is on record for a key that an action keeps: a delete of the disabled keys takes no reason and no time of a key
that is enabled. -/
def ChannelInfo.carried (info : ChannelInfo) (action : KeyAction) (i : Nat) : KeyRecord :=
  if action = .deleteDisabledKeys ∧ info.statusAt i = channelStatusEnabled then .blank else info.record i

/-- The keys of `c'` are those of `c` at some positions, in their order, and a key that is not named comes with its
record. -/
structure Carries (config : Config) (action : KeyAction) (c c' : Channel) (positions : List Nat) : Prop where
  multi : c'.channelInfo.isMultiKey = true
  increasing : positions.Pairwise (· < ·)
  keys : ∀ j : Nat, (config.getKeys c'.key)[j]? = positions[j]?.bind fun i => (config.getKeys c.key)[i]?
  kept : ∀ i < (config.getKeys c.key).length, ¬action.Names c.channelInfo i → i ∈ positions
  record : ∀ j i : Nat, positions[j]? = some i → ¬action.Names c.channelInfo i →
    c'.channelInfo.record j = c.channelInfo.carried action i

theorem mem_keptKeys : (k, i) ∈ keptKeys keys keep ↔ keys[i]? = some k ∧ keep i = true := by
  unfold keptKeys
  rw [mem_filter, mem_zipIdx_iff_getElem?]

theorem keptKeys_increasing : ((keptKeys keys keep).map Prod.snd).Pairwise (· < ·) := by
  have hsublist : ((keptKeys keys keep).map Prod.snd).Sublist (keys.zipIdx.map Prod.snd) :=
    filter_sublist.map Prod.snd
  refine Pairwise.sublist hsublist ?_
  rw [zipIdx_map_snd]
  exact pairwise_lt_range'

theorem keptKeys_keys {j : Nat} :
    ((keptKeys keys keep).map Prod.fst)[j]? = ((keptKeys keys keep).map Prod.snd)[j]?.bind fun i => keys[i]? := by
  rw [getElem?_map, getElem?_map]
  cases hj : (keptKeys keys keep)[j]? with
  | none => rfl
  | some => exact (mem_keptKeys.mp (mem_of_getElem? hj)).1.symm

theorem mem_keptKeys_positions : i ∈ (keptKeys keys keep).map Prod.snd ↔ i < keys.length ∧ keep i = true := by
  rw [mem_map]
  constructor
  · rintro ⟨⟨k, _⟩, hmem, rfl⟩
    obtain ⟨hkey, hkeep⟩ := mem_keptKeys.mp hmem
    exact ⟨(List.getElem?_eq_some_iff.mp hkey).1, hkeep⟩
  · rintro ⟨hi, hkeep⟩
    exact ⟨(keys[i], i), mem_keptKeys.mpr ⟨getElem?_eq_getElem hi, hkeep⟩, rfl⟩

theorem carries_of_key_eq (hmulti : c'.channelInfo.isMultiKey = true) (hkey : c'.key = c.key)
    (hrecord : ∀ i, ¬action.Names c.channelInfo i → c'.channelInfo.record i = c.channelInfo.carried action i) :
    Carries config action c c' (List.range (config.getKeys c.key).length) where
  multi := hmulti
  increasing := pairwise_lt_range
  keys j := by
    rw [hkey]
    by_cases hj : j < (config.getKeys c.key).length
    · rw [getElem?_range hj]
      rfl
    · rw [getElem?_eq_none (by omega), getElem?_eq_none (by simpa using hj)]
      rfl
  kept i hi _ := mem_range.mpr hi
  record j i hj hnames := by
    obtain ⟨_, rfl⟩ := List.getElem?_eq_some_iff.mp hj
    rw [getElem_range] at hnames ⊢
    exact hrecord j hnames

theorem carries_withKeys {status : Nat → Option Int} {reason : Nat → Option String} {time : Nat → Option Int}
    (hmulti : c.channelInfo.isMultiKey = true)
    (hreads : config.ReadsBack ((keptKeys (config.getKeys c.key) keep).map Prod.fst))
    (hkeep : ∀ i, ¬action.Names c.channelInfo i → keep i = true) (hrecord : ∀ i, ¬action.Names c.channelInfo i →
      ⟨(status i).getD channelStatusEnabled, reason i, time i⟩ = c.channelInfo.carried action i) :
    Carries config action c (c.withKeys (keptKeys (config.getKeys c.key) keep) status reason time)
      ((keptKeys (config.getKeys c.key) keep).map Prod.snd) where
  multi := hmulti
  increasing := keptKeys_increasing
  keys j := by
    change (config.getKeys (joinKeys _))[j]? = _
    rw [hreads]
    exact keptKeys_keys
  kept i hi hnames := mem_keptKeys_positions.mpr ⟨hi, hkeep i hnames⟩
  record j i hj hnames := by
    rw [← hrecord i hnames]
    unfold Channel.withKeys ChannelInfo.record ChannelInfo.statusAt
    simp [IntMap.lookup_reindex, hj]

theorem checkKeyIndex_ok {missing : String} {size : Nat} {keyIndex : Option Int}
    (h : checkKeyIndex missing size keyIndex = .ok i) : keyIndex = some (i : Int) ∧ i < size := by
  cases keyIndex with
  | none => cases h
  | some index =>
    change (if index < 0 ∨ index ≥ size then throw _ else pure index.toNat) = _ at h
    split_ifs at h with hrange
    cases h
    have hnonneg : 0 ≤ index := by omega
    refine ⟨congrArg some (Int.toNat_of_nonneg hnonneg).symm, ?_⟩
    omega

/-- The status is copied unless it is that of an enabled key, which is the default. -/
theorem getD_filter_status :
    ((info.multiKeyStatusList.lookup i).filter fun status => status ≠ channelStatusEnabled).getD channelStatusEnabled =
      info.statusAt i := by
  unfold ChannelInfo.statusAt
  cases info.multiKeyStatusList.lookup i with
  | none => rfl
  | some status =>
    by_cases hstatus : status = channelStatusEnabled
    · simp [Option.filter, hstatus]
    · simp [Option.filter, hstatus]

theorem manageMultiKeys_carries (h : config.manageMultiKeys c action = .ok c') (hreads : config.Readable c action) :
    ∃ positions, Carries config action c c' positions := by
  obtain ⟨hmulti, h⟩ := manageMultiKeys_ok h
  unfold Config.changeKeys at h
  have hcarried : ∀ i, action ≠ .deleteDisabledKeys → c.channelInfo.carried action i = c.channelInfo.record i :=
    fun i hne => if_neg fun hboth => hne hboth.1
  cases action with
  | disableKey =>
    obtain ⟨i, hi, h⟩ := bind_eq_ok.mp h
    cases h
    obtain ⟨rfl, -⟩ := checkKeyIndex_ok hi
    refine ⟨_, carries_of_key_eq hmulti rfl fun j hj => ?_⟩
    have hne : j ≠ i := fun heq => hj (by rw [heq]; rfl)
    rw [hcarried j (by simp)]
    simp [ChannelInfo.record, ChannelInfo.statusAt, IntMap.lookup_set, hne]
  | enableKey =>
    obtain ⟨i, hi, h⟩ := bind_eq_ok.mp h
    cases h
    obtain ⟨rfl, -⟩ := checkKeyIndex_ok hi
    refine ⟨_, carries_of_key_eq hmulti rfl fun j hj => ?_⟩
    have hne : j ≠ i := fun heq => hj (by rw [heq]; rfl)
    rw [hcarried j (by simp)]
    simp [ChannelInfo.record, ChannelInfo.statusAt, IntMap.lookup_delete, hne]
  | enableAllKeys =>
    cases h
    exact ⟨_, carries_of_key_eq hmulti rfl fun j hj => absurd trivial hj⟩
  | disableAllKeys =>
    dsimp only at h
    split_ifs at h
    cases h
    exact ⟨_, carries_of_key_eq hmulti rfl fun j hj => absurd trivial hj⟩
  | deleteKey =>
    obtain ⟨i, hi, h⟩ := bind_eq_ok.mp h
    dsimp only at h
    split_ifs at h
    cases h
    obtain ⟨rfl, hlt⟩ := checkKeyIndex_ok hi
    have hremaining : config.remaining c (.deleteKey (some (i : Int))) =
        some ((keptKeys (config.getKeys c.key) fun j => j ≠ i).map Prod.fst) :=
      if_pos ⟨Int.natCast_nonneg i, by exact_mod_cast hlt⟩
    refine ⟨_, carries_withKeys hmulti (hreads _ hremaining) (fun j hj => ?_) fun j _ => ?_⟩
    · have hne : j ≠ i := fun heq => hj (by rw [heq]; rfl)
      simpa using hne
    · exact KeyRecord.mk.injEq .. |>.mpr ⟨getD_filter_status, rfl, rfl⟩
  | deleteDisabledKeys =>
    dsimp only at h
    split_ifs at h with hsame
    cases h
    refine ⟨_, carries_withKeys hmulti (hreads _ (if_neg hsame)) (fun j hj => ?_) fun j _ => ?_⟩
    · simpa [KeyAction.Names] using hj
    · rw [getD_filter_status]
      unfold ChannelInfo.carried
      by_cases henabled : c.channelInfo.statusAt j = channelStatusEnabled
      · simp [henabled, KeyRecord.blank]
      · simp [henabled, ChannelInfo.record]

theorem lookup_foldl_disableEnabled {m : IntMap Int}
    (h : (m.lookup i).getD channelStatusEnabled ≠ channelStatusEnabled) (l : List Nat) :
    (l.foldl disableEnabled m).lookup i = m.lookup i := by
  induction l generalizing m with
  | nil => rfl
  | cons j l ih =>
    have hkeep : (disableEnabled m j).lookup i = m.lookup i := by
      unfold disableEnabled
      split_ifs with hj
      · have hne : i ≠ j := by
          rintro rfl
          exact h hj
        rw [IntMap.lookup_set, if_neg hne]
      · rfl
    rw [foldl_cons, ih (by rw [hkeep]; exact h), hkeep]

def KeyAction.disables : KeyAction → Bool
  | .disableKey _ | .disableAllKeys => true
  | _ => false

theorem manageMultiKeys_disables (h : config.manageMultiKeys c action = .ok c') (haction : action.disables = true) :
    c'.channelInfo.isMultiKey = true ∧ c'.key = c.key ∧
      ∀ i, c.channelInfo.statusAt i ≠ channelStatusEnabled → c'.channelInfo.statusAt i ≠ channelStatusEnabled := by
  obtain ⟨hmulti, h⟩ := manageMultiKeys_ok h
  unfold Config.changeKeys at h
  cases action with
  | disableKey =>
    obtain ⟨i, -, h⟩ := bind_eq_ok.mp h
    cases h
    refine ⟨hmulti, rfl, fun j hj => ?_⟩
    unfold ChannelInfo.statusAt
    rw [IntMap.lookup_set]
    split_ifs
    · decide
    · exact hj
  | disableAllKeys =>
    dsimp only at h
    split_ifs at h
    cases h
    refine ⟨hmulti, rfl, fun j hj => ?_⟩
    unfold ChannelInfo.statusAt
    rw [lookup_foldl_disableEnabled hj]
    exact hj
  | _ => cases haction

/-! ## The status flow -/

/-- The row after `UpdateChannelStatus`, and what it returns. -/
def Config.updateChannelStatus (config : Config) (cache : MemoryCache) (c : Channel) (usingKey : Text) (status : Int)
    (reason : String) (now : Int) : Channel × Bool :=
  if cache.skips status ∨ c.status = status then (c, false)
  else (config.withStatus c usingKey status reason now, true)

/-- What `UpdateChannelStatus` leaves on record for the key that it is about. -/
def KeyRecord.withStatus (r : KeyRecord) (status : Int) (reason : String) (now : Int) : KeyRecord :=
  if status = channelStatusEnabled then { r with status := channelStatusEnabled } else ⟨status, some reason, some now⟩

theorem record_enabled {k : Nat} :
    ({ info with multiKeyStatusList := IntMap.delete info.multiKeyStatusList k } : ChannelInfo).record i =
      if k = i then (info.record i).withStatus channelStatusEnabled reason now else info.record i := by
  unfold ChannelInfo.record ChannelInfo.statusAt KeyRecord.withStatus
  by_cases hi : k = i
  · simp [hi, IntMap.lookup_delete]
  · simp [hi, Ne.symm hi, IntMap.lookup_delete]

theorem record_disabled {status : Int} (hstatus : status ≠ channelStatusEnabled) {k : Nat} :
    ({ info with
        multiKeyStatusList := IntMap.set info.multiKeyStatusList k status
        multiKeyDisabledReason := IntMap.set info.multiKeyDisabledReason k reason
        multiKeyDisabledTime := IntMap.set info.multiKeyDisabledTime k now } : ChannelInfo).record i =
      if k = i then (info.record i).withStatus status reason now else info.record i := by
  unfold ChannelInfo.record ChannelInfo.statusAt KeyRecord.withStatus
  by_cases hi : k = i
  · simp [hi, hstatus, IntMap.lookup_set]
  · simp [hi, Ne.symm hi, IntMap.lookup_set]

theorem withStatus_record (config : Config) (hmulti : c.channelInfo.isMultiKey = true) (usingKey : Text)
    (status : Int) (reason : String) (now : Int) : (config.withStatus c usingKey status reason now).key = c.key ∧
      (config.withStatus c usingKey status reason now).channelInfo.isMultiKey = true ∧
      ∀ i, (config.withStatus c usingKey status reason now).channelInfo.record i =
        if (config.getKeys c.key).findIdx? (· = usingKey) = some i then
          (c.channelInfo.record i).withStatus status reason now else c.channelInfo.record i := by
  unfold Config.withStatus Config.handlerMultiKeyUpdate
  rw [if_pos hmulti]
  by_cases hnil : config.getKeys c.key = []
  · rw [if_pos hnil, hnil]
    exact ⟨rfl, hmulti, fun i => rfl⟩
  rw [if_neg hnil]
  cases hindex : (config.getKeys c.key).findIdx? (· = usingKey) with
  | none =>
    by_cases husing : usingKey ≠ []
    · rw [if_pos husing]
      exact ⟨rfl, hmulti, fun i => rfl⟩
    · rw [if_neg husing]
      exact ⟨rfl, hmulti, fun i => rfl⟩
  | some k =>
    simp only [Option.some.injEq]
    by_cases hstatus : status = channelStatusEnabled
    · subst hstatus
      simp only [if_true]
      split_ifs
      · exact ⟨rfl, hmulti, fun i => record_enabled⟩
      · exact ⟨rfl, hmulti, fun i => record_enabled⟩
    · split_ifs
      · exact ⟨rfl, hmulti, fun i => record_disabled hstatus⟩
      · exact ⟨rfl, hmulti, fun i => record_disabled hstatus⟩

end CubeRouter.Routing
