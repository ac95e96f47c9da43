import CubeRouter.Routing.Keys

/-!
# Keys that stay disabled

The statuses of the keys and the polling index are one column, written under the lock of the channel. But
`GetNextEnabledKey` and `ManageMultiKeys` write a channel that they have read before they took the lock, so a write
between the read and the lock is lost. A key that has been reported disabled stays disabled in every run in which no
channel is written back that was read before the key was disabled (`disabling_is_kept`).

The runs are those of one channel. Its writers are `UpdateChannelStatus`, which reads under the lock, the polling and
the management of keys, each from its load to its save, and the rebuilds of the memory cache. What is done under the
lock is one step. Statements of the database succeed.
-/

namespace CubeRouter.Routing

open Strings Transition List Option

/-! ## Polling -/

inductive MultiKeyMode
  | random
  | polling
  | other (name : Text)
  deriving DecidableEq

/-- A channel with the rest of its `channel_info`. -/
structure PolledChannel where
  channel : Channel
  multiKeyPollingIndex : Int := 0
  multiKeyMode : MultiKeyMode := .random

inductive KeyError
  | noKeysAvailable
  | noEnabledKeys
  | getChannelFailed

/-- The key that a request gets, the channel that it holds afterwards, and whether that is saved. -/
structure NextKey where
  key : Except KeyError (Text × Nat)
  channel : PolledChannel
  saves : Bool := false

def Config.enabledIdx (config : Config) (c : Channel) : List Nat :=
  (List.range (config.getKeys c.key).length).filter fun i => c.channelInfo.statusAt i = channelStatusEnabled

/-- The first enabled position from the polling index on. -/
def Config.nextPolled (config : Config) (c : Channel) (pollingIndex : Int) : Option Nat :=
  let size := (config.getKeys c.key).length
  let start := if pollingIndex < 0 ∨ pollingIndex ≥ size then 0 else pollingIndex.toNat
  ((List.range size).map fun i => (start + i) % size).find? fun i => c.channelInfo.statusAt i = channelStatusEnabled

/-- `GetNextEnabledKey`, from the polling index that `CacheGetChannelInfo` finds. -/
def Config.getNextEnabledKey (config : Config) (c : PolledChannel) (pollingIndex : Option Int) (random : Nat) :
    NextKey :=
  let keys := config.getKeys c.channel.key
  let pick i := .ok (keys.getD i [], i)
  if ¬c.channel.channelInfo.isMultiKey then { key := .ok (c.channel.key, 0), channel := c }
  else if keys = [] then { key := .error .noKeysAvailable, channel := c }
  else match config.enabledIdx c.channel with
    | [] => { key := .error .noEnabledKeys, channel := c }
    | first :: rest =>
      match c.multiKeyMode with
      | .random => { key := pick ((first :: rest).getD (random % (rest.length + 1)) first), channel := c }
      | .polling =>
        match pollingIndex with
        | none => { key := .error .getChannelFailed, channel := c }
        | some pollingIndex =>
          match config.nextPolled c.channel pollingIndex with
          | some i =>
            { key := pick i, channel := { c with multiKeyPollingIndex := (i + 1) % keys.length }, saves := true }
          | none => { key := pick first, channel := c, saves := true }
      | .other _ => { key := pick first, channel := c }

/-- `SaveChannelInfo` writes the column of the channel that is held. -/
def PolledChannel.saveChannelInfo (row held : PolledChannel) : PolledChannel :=
  { held with channel := { row.channel with channelInfo := held.channel.channelInfo } }

/-! ## The channel with its writers -/

structure KeySite where
  row : PolledChannel
  cached : Option PolledChannel := none
  /-- The channels that requests hold. -/
  held : List PolledChannel := []
  /-- The channels that were read for an action, which has not taken the lock yet. -/
  managing : List (PolledChannel × KeyAction) := []
  /-- The channels that rebuilds of the cache have read. -/
  rebuilding : List PolledChannel := []
  /-- Not in the program: the keys that were reported disabled and have not been enabled or deleted since. -/
  reported : List Text := []

inductive KeyEvent
  | load
  | getNextEnabledKey (i : Nat) (random : Nat)
  | getNextEnabledCachedKey (random : Nat)
  | updateChannelStatus (usingKey : Text) (status : Int) (reason : String) (now : Int)
  | loadForAction (action : KeyAction)
  | manageMultiKeys (i : Nat)
  | readChannels
  | setChannelsIDM (i : Nat)

/-- The polling index of the cached channel stays. -/
def PolledChannel.keepPollingIndex (c : PolledChannel) (old : Option PolledChannel) : PolledChannel :=
  match old with
  | none => c
  | some old =>
    if c.channel.channelInfo.isMultiKey ∧ c.multiKeyMode = .polling ∧ old.channel.channelInfo.isMultiKey ∧
        old.multiKeyMode = .polling then
      { c with multiKeyPollingIndex := old.multiKeyPollingIndex }
    else c

/-- The cached channel after `UpdateChannelStatus` has gone over it. -/
def Config.updateCached (config : Config) (c : Channel) (usingKey : Text) (status : Int) (reason : String) (now : Int) :
    Channel :=
  if c.channelInfo.isMultiKey then config.handlerMultiKeyUpdate c usingKey status reason now
  else { c with status := status }

/-- The action enables or deletes the key. -/
def Config.releases (config : Config) (c : Channel) (action : KeyAction) (k : Text) : Bool :=
  !action.disables && (List.range (config.getKeys c.key).length).any fun i =>
    (config.getKeys c.key)[i]? = some k && decide (action.Names c.channelInfo i)

namespace KeySite

variable (config : Config) (memoryCacheEnabled : Bool)

def memoryCache (s : KeySite) : MemoryCache :=
  if memoryCacheEnabled then
    match s.cached with
    | none => .missing
    | some c => .found c.channel.channelInfo.isMultiKey c.channel.status
  else .disabled

/-- `CacheGetChannelInfo`. -/
def pollingIndex (s : KeySite) : Option Int :=
  if memoryCacheEnabled then s.cached.map PolledChannel.multiKeyPollingIndex else some s.row.multiKeyPollingIndex

def updateChannelStatus (s : KeySite) (usingKey : Text) (status : Int) (reason : String) (now : Int) : KeySite :=
  let updated := config.updateChannelStatus (s.memoryCache memoryCacheEnabled) s.row.channel usingKey status reason now
  { s with
    row := { s.row with channel := updated.1 }
    cached :=
      if memoryCacheEnabled then
        s.cached.map fun c => { c with channel := config.updateCached c.channel usingKey status reason now }
      else s.cached
    reported :=
      if updated.2 = false then s.reported
      else if status = channelStatusEnabled then s.reported.filter fun k => k ≠ usingKey
      else if usingKey ∈ config.getKeys s.row.channel.key then usingKey :: s.reported
      else s.reported }

/-- The rest of `ManageMultiKeys` once it has the lock, for the channel that it has read. -/
def manageMultiKeys (s : KeySite) (c : PolledChannel) (action : KeyAction) : KeySite :=
  match config.manageMultiKeys c.channel action with
  | .error _ => s
  | .ok c' =>
    let row := { c with channel := config.updateRow s.row.channel c'.fields }
    { s with
      row := row
      cached := if memoryCacheEnabled then some (row.keepPollingIndex s.cached) else s.cached
      reported := s.reported.filter fun k => !config.releases c.channel action k }

def step (s : KeySite) : KeyEvent → KeySite
  | .load => { s with held := s.held ++ [s.row] }
  | .getNextEnabledKey i random =>
    match s.held[i]? with
    | none => s
    | some c =>
      let next := config.getNextEnabledKey c (s.pollingIndex memoryCacheEnabled) random
      { s with
        held := s.held.set i next.channel
        row := if next.saves ∧ ¬memoryCacheEnabled then s.row.saveChannelInfo next.channel else s.row }
  | .getNextEnabledCachedKey random =>
    if memoryCacheEnabled then
      { s with
        cached := s.cached.map fun c =>
          (config.getNextEnabledKey c (s.pollingIndex memoryCacheEnabled) random).channel }
    else s
  | .updateChannelStatus usingKey status reason now =>
    s.updateChannelStatus config memoryCacheEnabled usingKey status reason now
  | .loadForAction action => { s with managing := s.managing ++ [(s.row, action)] }
  | .manageMultiKeys i =>
    match s.managing[i]? with
    | none => s
    | some (c, action) =>
      { s with managing := s.managing.eraseIdx i }.manageMultiKeys config memoryCacheEnabled c action
  | .readChannels => { s with rebuilding := s.rebuilding ++ [s.row] }
  | .setChannelsIDM i =>
    match s.rebuilding[i]? with
    | none => s
    | some c =>
      { s with
        cached := if memoryCacheEnabled then some (c.keepPollingIndex s.cached) else s.cached
        rebuilding := s.rebuilding.eraseIdx i }

end KeySite

/-! ## Keys that are disabled -/

/-- The status at the first position of the key is not that of an enabled key. -/
def Config.disabledIn (config : Config) (c : Channel) (k : Text) : Bool :=
  ((config.getKeys c.key).findIdx? (· = k)).any fun i => c.channelInfo.statusAt i ≠ channelStatusEnabled

/-- Every key that was reported disabled is disabled in the table. -/
def KeySite.KeepsDisabled (config : Config) (s : KeySite) : Prop :=
  ∀ k ∈ s.reported, config.disabledIn s.row.channel k = true

/-- A channel that is held writes its column back when it is asked for a key. -/
def Config.polls (config : Config) (c : PolledChannel) : Bool :=
  c.channel.channelInfo.isMultiKey ∧ c.multiKeyMode = .polling ∧ config.enabledIdx c.channel ≠ []

/-- A channel that is written back was read when the reported keys were disabled; with only the column written, the text
of the keys is still the one that was read, and with keys deleted, the keys that are left are read back. -/
def KeySite.Current (config : Config) (memoryCacheEnabled : Bool) (s : KeySite) : KeyEvent → Prop
  | .getNextEnabledKey i _ => memoryCacheEnabled = false → ∀ c ∈ s.held[i]?, config.polls c = true →
      c.channel.key = s.row.channel.key ∧ ∀ k ∈ s.reported, config.disabledIn c.channel k = true
  | .manageMultiKeys i => ∀ c ∈ s.managing[i]?,
      config.Readable c.1.channel c.2 ∧
        ∀ k ∈ s.reported, config.releases c.1.channel c.2 k = false → config.disabledIn c.1.channel k = true
  | _ => True

instance (config : Config) (memoryCacheEnabled : Bool) (s : KeySite) :
    DecidablePred (s.Current config memoryCacheEnabled) := by
  intro e
  cases e <;> unfold KeySite.Current <;> infer_instance

variable {config : Config} {memoryCacheEnabled : Bool} {s : KeySite} {c : Channel} {k : Text} {i : Nat}

theorem disabledIn_iff : config.disabledIn c k = true ↔
    ∃ i, (config.getKeys c.key).findIdx? (· = k) = some i ∧ c.channelInfo.statusAt i ≠ channelStatusEnabled := by
  unfold Config.disabledIn
  rw [Option.any_eq_true]
  simp

theorem findIdx?_key (h : (config.getKeys c.key).findIdx? (· = k) = some i) : (config.getKeys c.key)[i]? = some k := by
  obtain ⟨hi, hk, -⟩ := findIdx?_eq_some_iff_getElem.mp h
  exact List.getElem?_eq_some_iff.mpr ⟨hi, by simpa using hk⟩

/-! ## What the writers do to a disabled key -/

theorem getNextEnabledKey_channel (config : Config) (c : PolledChannel) (pollingIndex : Option Int) (random : Nat) :
    (config.getNextEnabledKey c pollingIndex random).channel.channel = c.channel := by
  unfold Config.getNextEnabledKey
  dsimp only
  repeat' split
  all_goals rfl

variable {random : Nat} {usingKey : Text} {status now : Int} {reason : String} {action : KeyAction} {c' : Channel}

theorem polls_of_saves {c : PolledChannel} {pollingIndex : Option Int}
    (h : (config.getNextEnabledKey c pollingIndex random).saves = true) : config.polls c = true := by
  unfold Config.getNextEnabledKey at h
  dsimp only at h
  split at h
  · cases h
  · rename_i hmulti
    split at h
    · cases h
    · split at h
      · cases h
      · rename_i first rest henabled
        split at h
        · cases h
        · rename_i hmode
          unfold Config.polls
          rw [henabled]
          simp [hmode, not_not.mp hmulti]
        · cases h

theorem disabledIn_saveChannelInfo {row held : PolledChannel} (hkey : held.channel.key = row.channel.key) (k : Text) :
    config.disabledIn (row.saveChannelInfo held).channel k = config.disabledIn held.channel k := by
  unfold Config.disabledIn PolledChannel.saveChannelInfo
  rw [hkey]

theorem disabledIn_withStatus_of_ne (hmulti : c.channelInfo.isMultiKey = true) (hne : k ≠ usingKey)
    (h : config.disabledIn c k = true) :
    config.disabledIn (config.withStatus c usingKey status reason now) k = true := by
  obtain ⟨hkey, -, hrecord⟩ := withStatus_record config hmulti usingKey status reason now
  obtain ⟨i, hi, hstatus⟩ := disabledIn_iff.mp h
  refine disabledIn_iff.mpr ⟨i, by rw [hkey]; exact hi, ?_⟩
  have hother : (config.getKeys c.key).findIdx? (· = usingKey) ≠ some i := by
    intro husing
    have hsame := (findIdx?_key hi).symm.trans (findIdx?_key husing)
    exact hne (Option.some.inj hsame)
  have hi' := hrecord i
  rw [if_neg hother] at hi'
  exact (congrArg KeyRecord.status hi').trans_ne hstatus

theorem disabledIn_withStatus_self (hmulti : c.channelInfo.isMultiKey = true)
    (hmem : usingKey ∈ config.getKeys c.key) (hstatus : status ≠ channelStatusEnabled) :
    config.disabledIn (config.withStatus c usingKey status reason now) usingKey = true := by
  obtain ⟨hkey, -, hrecord⟩ := withStatus_record config hmulti usingKey status reason now
  obtain ⟨i, hi⟩ : ∃ i, (config.getKeys c.key).findIdx? (· = usingKey) = some i := by
    rw [← Option.isSome_iff_exists, List.findIdx?_isSome, List.any_eq_true]
    exact ⟨usingKey, hmem, by simp⟩
  refine disabledIn_iff.mpr ⟨i, by rw [hkey]; exact hi, ?_⟩
  have hi' := hrecord i
  rw [if_pos hi, KeyRecord.withStatus, if_neg hstatus] at hi'
  exact (congrArg KeyRecord.status hi').trans_ne hstatus

theorem Carries.findIdx? {positions : List Nat}
    (h : Carries config action c c' positions) (hi : (config.getKeys c.key).findIdx? (· = k) = some i)
    (hnames : ¬action.Names c.channelInfo i) : ∃ j, (config.getKeys c'.key).findIdx? (· = k) = some j ∧
      c'.channelInfo.record j = c.channelInfo.carried action i := by
  have hkey := findIdx?_key hi
  obtain ⟨hlt, -, hfirst⟩ := findIdx?_eq_some_iff_getElem.mp hi
  obtain ⟨j, hj⟩ := mem_iff_getElem?.mp (h.kept i hlt hnames)
  have hkey' : (config.getKeys c'.key)[j]? = some k := by rw [h.keys, hj, bind_some, hkey]
  obtain ⟨hlt', hget⟩ := List.getElem?_eq_some_iff.mp hkey'
  refine ⟨j, findIdx?_eq_some_iff_getElem.mpr ⟨hlt', by simpa using hget, ?_⟩, h.record j i hj hnames⟩
  intro j' hj'
  -- a position before it comes from a position before the first one
  have hbefore := h.keys j'
  rw [getElem?_eq_getElem (by omega)] at hbefore
  obtain ⟨_, hi', hget'⟩ := bind_eq_some_iff.mp hbefore.symm
  obtain ⟨hj1, rfl⟩ := List.getElem?_eq_some_iff.mp hi'
  obtain ⟨hj2, rfl⟩ := List.getElem?_eq_some_iff.mp hj
  have hless := pairwise_iff_getElem.mp h.increasing j' j hj1 hj2 hj'
  have hnot := hfirst _ hless
  rw [← (List.getElem?_eq_some_iff.mp hget').2]
  exact hnot

theorem getKeys_nil : config.getKeys [] = [] := rfl

theorem disabledIn_updateRow {row : Channel} (hmulti : c.channelInfo.isMultiKey = true)
    (h : config.disabledIn c k = true) : config.disabledIn (config.updateRow row c.fields) k = true := by
  obtain ⟨i, hi, hstatus⟩ := disabledIn_iff.mp h
  have hlt := (findIdx?_eq_some_iff_getElem.mp hi).1
  have hkey : (config.updateRow row c.fields).key = c.key := by
    rw [updateRow_key]
    refine if_neg fun hnil => ?_
    change c.key = [] at hnil
    rw [hnil, getKeys_nil] at hlt
    exact absurd hlt (Nat.not_lt_zero i)
  refine disabledIn_iff.mpr ⟨i, by rw [hkey]; exact hi, ?_⟩
  have hcounted : i < (config.countedKeys (config.updateRow row c.fields).key).length := by
    rw [hkey]
    exact Nat.lt_of_lt_of_le hlt (length_getKeys_le c.key)
  have hrecord := updateRow_record (f := c.fields) hmulti hcounted
  exact (congrArg KeyRecord.status hrecord).trans_ne hstatus

theorem disabledIn_manageMultiKeys (h : config.manageMultiKeys c action = .ok c')
    (hreads : config.Readable c action) (hreleases : config.releases c action k = false)
    (hk : config.disabledIn c k = true) : config.disabledIn c' k = true := by
  obtain ⟨i, hi, hstatus⟩ := disabledIn_iff.mp hk
  cases hdisables : action.disables with
  | true =>
    obtain ⟨-, hkey, hkeeps⟩ := manageMultiKeys_disables h hdisables
    exact disabledIn_iff.mpr ⟨i, by rw [hkey]; exact hi, hkeeps i hstatus⟩
  | false =>
    have hnames : ¬action.Names c.channelInfo i := by
      intro hnames
      have hreleased : config.releases c action k = true := by
        unfold Config.releases
        rw [hdisables, Bool.not_false, Bool.true_and, List.any_eq_true]
        refine ⟨i, mem_range.mpr (findIdx?_eq_some_iff_getElem.mp hi).1, ?_⟩
        simp [findIdx?_key hi, hnames]
      rw [hreleased] at hreleases
      cases hreleases
    obtain ⟨_, hcarries⟩ := manageMultiKeys_carries h hreads
    obtain ⟨j, hj, hrecord⟩ := hcarries.findIdx? hi hnames
    refine disabledIn_iff.mpr ⟨j, hj, ?_⟩
    rw [ChannelInfo.carried, if_neg fun hboth => hstatus hboth.2] at hrecord
    exact (congrArg KeyRecord.status hrecord).trans_ne hstatus

/-! ## Runs -/

/-- The invariant of the runs. -/
structure KeySite.Kept (config : Config) (s : KeySite) : Prop where
  multi : s.row.channel.channelInfo.isMultiKey = true
  disabled : s.KeepsDisabled config

theorem kept_updateChannelStatus (h : s.Kept config) :
    (s.updateChannelStatus config memoryCacheEnabled usingKey status reason now).Kept config := by
  unfold KeySite.updateChannelStatus Config.updateChannelStatus
  split
  · exact ⟨h.multi, h.disabled⟩
  · refine ⟨(withStatus_record config h.multi usingKey status reason now).2.1, fun k hk => ?_⟩
    simp only [Bool.true_eq_false, if_false] at hk
    split at hk
    · obtain ⟨hmem, hne⟩ := mem_filter.mp hk
      exact disabledIn_withStatus_of_ne h.multi (by simpa using hne) (h.disabled k hmem)
    · rename_i hstatus
      by_cases hsame : k = usingKey
      · subst hsame
        split at hk
        · rename_i hmem
          exact disabledIn_withStatus_self h.multi hmem hstatus
        · -- a key that was reported is a key of the channel
          rename_i hmem
          obtain ⟨i, hi, -⟩ := disabledIn_iff.mp (h.disabled k hk)
          exact absurd (mem_of_getElem? (findIdx?_key hi)) hmem
      · have hmem : k ∈ s.reported := by
          split at hk
          · exact (mem_cons.mp hk).resolve_left hsame
          · exact hk
        exact disabledIn_withStatus_of_ne h.multi hsame (h.disabled k hmem)

theorem kept_getNextEnabledKey (h : s.Kept config)
    (hcond : s.Current config memoryCacheEnabled (.getNextEnabledKey i random)) :
    (s.step config memoryCacheEnabled (.getNextEnabledKey i random)).Kept config := by
  unfold KeySite.step
  dsimp only
  cases hheld : s.held[i]? with
  | none => exact h
  | some c =>
    dsimp only
    split
    · rename_i hsaves
      have hpolls := polls_of_saves hsaves.1
      have hmulti : c.channel.channelInfo.isMultiKey = true := by
        unfold Config.polls at hpolls
        simp only [decide_eq_true_eq] at hpolls
        exact hpolls.1
      obtain ⟨hkey, hreported⟩ := hcond (by simpa using hsaves.2) c hheld hpolls
      have hchannel := getNextEnabledKey_channel config c (s.pollingIndex memoryCacheEnabled) random
      constructor
      · change (config.getNextEnabledKey c _ random).channel.channel.channelInfo.isMultiKey = true
        rw [hchannel]
        exact hmulti
      · intro k hk
        change config.disabledIn (s.row.saveChannelInfo _).channel k = true
        rw [disabledIn_saveChannelInfo (by rw [hchannel]; exact hkey), hchannel]
        exact hreported k hk
    · exact ⟨h.multi, h.disabled⟩

theorem kept_manageMultiKeys (h : s.Kept config) (hcond : s.Current config memoryCacheEnabled (.manageMultiKeys i)) :
    (s.step config memoryCacheEnabled (.manageMultiKeys i)).Kept config := by
  unfold KeySite.step
  dsimp only
  cases hmanaging : s.managing[i]? with
  | none => exact h
  | some call =>
    obtain ⟨c, action⟩ := call
    obtain ⟨hreads, hreported⟩ := hcond (c, action) hmanaging
    dsimp only
    unfold KeySite.manageMultiKeys
    cases hmanage : config.manageMultiKeys c.channel action with
    | error => exact ⟨h.multi, h.disabled⟩
    | ok =>
      obtain ⟨_, hcarries⟩ := manageMultiKeys_carries hmanage hreads
      refine ⟨updateRow_isMultiKey hcarries.multi, fun k hk => ?_⟩
      obtain ⟨hmem, hreleases⟩ := mem_filter.mp hk
      have hreleases : config.releases c.channel action k = false := by simpa using hreleases
      exact disabledIn_updateRow hcarries.multi
        (disabledIn_manageMultiKeys hmanage hreads hreleases (hreported k hmem hreleases))

theorem kept_step (e : KeyEvent) (h : s.Kept config) (hcond : s.Current config memoryCacheEnabled e) :
    (s.step config memoryCacheEnabled e).Kept config := by
  cases e with
  | getNextEnabledKey => exact kept_getNextEnabledKey h hcond
  | updateChannelStatus usingKey status reason now => exact kept_updateChannelStatus h
  | manageMultiKeys => exact kept_manageMultiKeys h hcond
  | load | loadForAction action | readChannels => exact ⟨h.multi, h.disabled⟩
  | getNextEnabledCachedKey =>
    unfold KeySite.step
    dsimp only
    split
    · exact ⟨h.multi, h.disabled⟩
    · exact h
  | setChannelsIDM =>
    unfold KeySite.step
    dsimp only
    split
    · exact h
    · exact ⟨h.multi, h.disabled⟩

/-- In a run whose writes are all of current channels, a key that was reported disabled is disabled until an operation
enables or deletes it. -/
theorem disabling_is_kept (config : Config) (memoryCacheEnabled : Bool) (s : KeySite)
    (hmulti : s.row.channel.channelInfo.isMultiKey = true) (hreported : s.reported = []) (events : List KeyEvent)
    (hcond : Along (KeySite.step config memoryCacheEnabled) (KeySite.Current config memoryCacheEnabled) s events) :
    ∀ done rest, events = done ++ rest →
      (run (KeySite.step config memoryCacheEnabled) s done).KeepsDisabled config := by
  intro done rest hevents
  have hstart : s.Kept config := by
    refine ⟨hmulti, fun k hk => ?_⟩
    rw [hreported] at hk
    cases hk
  rw [hevents, along_append] at hcond
  exact (run_invariant (fun s e h => kept_step e h) hstart hcond.1).disabled

def polledKeys : KeySite where
  row :=
    { channel :=
        { key := text "a\nb", status := channelStatusEnabled, weight := 0, models := text "m", group := text "default"
          priority := 0, tag := none, channelInfo := { isMultiKey := true, multiKeySize := 2 } }
      multiKeyMode := .polling }

/-- A key is disabled, the next one is taken, and the other one is enabled. -/
theorem disabling_is_kept_sample : (run (KeySite.step ⟨fun _ => none⟩ false) polledKeys
      [.updateChannelStatus (text "a") channelStatusAutoDisabled "quota" 7, .load, .getNextEnabledKey 0 0,
        .loadForAction (.enableKey (some 1)), .manageMultiKeys 0]).KeepsDisabled ⟨fun _ => none⟩ :=
  disabling_is_kept ⟨fun _ => none⟩ false polledKeys rfl rfl _ (by decide +kernel) _ [] (append_nil _).symm

/-- A request holds the channel while the key is disabled, and saves what it holds. -/
theorem polling_enables_disabled_key :
    ¬∀ (config : Config) (memoryCacheEnabled : Bool) (s : KeySite) (events : List KeyEvent),
      s.row.channel.channelInfo.isMultiKey = true → s.reported = [] →
        (run (KeySite.step config memoryCacheEnabled) s events).KeepsDisabled config := by
  intro h
  have hrun := h ⟨fun _ => none⟩ false polledKeys
    [.load, .updateChannelStatus (text "a") channelStatusAutoDisabled "quota" 7, .getNextEnabledKey 0 0] rfl rfl
    (text "a")
  revert hrun
  decide +kernel

end CubeRouter.Routing
