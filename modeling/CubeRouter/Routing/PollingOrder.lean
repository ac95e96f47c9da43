import CubeRouter.Lib.RoundRobin
import CubeRouter.Routing.DisabledKeys

/-!
# The order of polling

With the memory cache on, the channel that a request holds is the cached one, and its polling index is the one that
`CacheGetChannelInfo` finds. So the calls go round over the keys: as many calls as there are enabled keys return each of
them once, in cyclic order, wherever the polling index was (`polling_is_fair`).
-/

namespace CubeRouter.Routing

open Strings RoundRobin List

def Channel.enabledAt (c : Channel) (i : Nat) : Bool := c.channelInfo.statusAt i = channelStatusEnabled

def Config.pollingStart (config : Config) (c : PolledChannel) : Nat :=
  if c.multiKeyPollingIndex < 0 ∨ c.multiKeyPollingIndex ≥ (config.getKeys c.channel.key).length then 0
  else c.multiKeyPollingIndex.toNat

/-- What a call returns that takes the key at the position. -/
def Config.returned (config : Config) (c : Channel) (i : Nat) : Option (Except KeyError (Text × Nat)) :=
  some (.ok ((config.getKeys c.key).getD i [], i))

namespace KeySite

variable (config : Config)

/-- What a call for the cached channel returns. -/
def nextCachedKey (s : KeySite) (random : Nat) : Option (Except KeyError (Text × Nat)) :=
  s.cached.map fun c => (config.getNextEnabledKey c (s.pollingIndex true) random).key

/-- What calls for the cached channel return, one after the other. -/
def cachedKeys (s : KeySite) : List Nat → List (Option (Except KeyError (Text × Nat)))
  | [] => []
  | random :: randoms =>
    s.nextCachedKey config random :: (s.step config true (.getNextEnabledCachedKey random)).cachedKeys randoms

end KeySite

variable {config : Config} {s : KeySite} {c : PolledChannel}

theorem enabledIdx_eq (config : Config) {c : Channel} :
    config.enabledIdx c = members c.enabledAt (config.getKeys c.key).length := rfl

theorem pollingStart_le {c : PolledChannel} : config.pollingStart c ≤ (config.getKeys c.channel.key).length := by
  unfold Config.pollingStart
  split_ifs with h
  · exact Nat.zero_le _
  · omega

theorem pollingStart_of_lt {j : Nat} (h : j < (config.getKeys c.channel.key).length) :
    config.pollingStart { c with multiKeyPollingIndex := j } = j := by
  unfold Config.pollingStart
  dsimp only
  rw [if_neg (by omega), Int.toNat_natCast]

theorem getNextEnabledKey_polling (hmulti : c.channel.channelInfo.isMultiKey = true) (hmode : c.multiKeyMode = .polling)
    (random : Nat) {i : Nat}
    (hnext : next c.channel.enabledAt (config.getKeys c.channel.key).length (config.pollingStart c) = some i) :
    config.getNextEnabledKey c (some c.multiKeyPollingIndex) random =
      { key := .ok ((config.getKeys c.channel.key).getD i [], i)
        channel := { c with multiKeyPollingIndex := (i + 1) % (config.getKeys c.channel.key).length }
        saves := true } := by
  have hfound : config.nextPolled c.channel c.multiKeyPollingIndex = some i := hnext
  have hi : i ∈ config.enabledIdx c.channel := by
    rw [next_eq pollingStart_le] at hnext
    exact mem_of_getElem? hnext
  have hkeys : config.getKeys c.channel.key ≠ [] := by
    intro hnil
    have hrange := (mem_filter.mp hi).1
    rw [hnil] at hrange
    cases hrange
  unfold Config.getNextEnabledKey
  dsimp only
  rw [if_neg (not_not.mpr hmulti), if_neg hkeys]
  split
  · rename_i hnone
    rw [hnone] at hi
    cases hi
  · rw [hmode]
    rw [hfound]

theorem cachedKeys_eq (hcached : s.cached = some c) (hmulti : c.channel.channelInfo.isMultiKey = true)
    (hmode : c.multiKeyMode = .polling) (hsome : config.enabledIdx c.channel ≠ []) (randoms : List Nat) :
    s.cachedKeys config randoms =
      (turns c.channel.enabledAt (config.getKeys c.channel.key).length randoms.length (config.pollingStart c)).map
        (config.returned c.channel) := by
  induction randoms generalizing s c with
  | nil => rfl
  | cons random _ ih =>
    obtain ⟨i, hi, hnext⟩ := exists_next (enabledIdx_eq config ▸ hsome) pollingStart_le
    have hcall := getNextEnabledKey_polling hmulti hmode random hnext
    have hindex : s.pollingIndex true = some c.multiKeyPollingIndex := by
      rw [KeySite.pollingIndex, if_pos rfl, hcached, Option.map_some]
    have hkey : s.nextCachedKey config random = config.returned c.channel i := by
      rw [KeySite.nextCachedKey, hcached, Option.map_some, hindex, hcall]
      rfl
    have hstep : (s.step config true (.getNextEnabledCachedKey random)).cached =
        some { c with multiKeyPollingIndex := (i + 1) % (config.getKeys c.channel.key).length } := by
      rw [KeySite.step, if_pos rfl, hcached]
      rw [Option.map_some, hindex, hcall]
    have hlt := Nat.mod_lt (i + 1) (Nat.zero_lt_of_lt (mem_members.mp hi).1)
    have hcast : ((i : Int) + 1) % (config.getKeys c.channel.key).length =
        ((i + 1) % (config.getKeys c.channel.key).length : Nat) := (Int.natCast_mod (i + 1) _).symm
    rw [hcast] at hstep
    rw [KeySite.cachedKeys, hkey, ih hstep hmulti hmode hsome, pollingStart_of_lt hlt,
      length_cons, turns, hnext, map_cons]

/-- For every polling index, and after any calls, as many calls as there are enabled keys return each of them once, in
cyclic order; and no call returns a disabled key. -/
theorem polling_is_fair (config : Config) (s : KeySite) (c : PolledChannel) (hcached : s.cached = some c)
    (hmulti : c.channel.channelInfo.isMultiKey = true) (hmode : c.multiKeyMode = .polling)
    (hsome : config.enabledIdx c.channel ≠ []) (earlier randoms : List Nat)
    (hlength : randoms.length = (config.enabledIdx c.channel).length) :
    (∃ first, (s.cachedKeys config (earlier ++ randoms)).drop earlier.length =
        ((config.enabledIdx c.channel).rotate first).map (config.returned c.channel)) ∧
      ∀ key ∈ s.cachedKeys config earlier, ∃ i ∈ config.enabledIdx c.channel, key = config.returned c.channel i := by
  rw [enabledIdx_eq] at hsome hlength ⊢
  constructor
  · obtain ⟨cursor, hcursor, hdrop⟩ := drop_turns hsome earlier.length randoms.length pollingStart_le
    refine ⟨place c.channel.enabledAt cursor, ?_⟩
    rw [cachedKeys_eq hcached hmulti hmode hsome, length_append, ← map_drop, hdrop, hlength,
      turns_length hsome hcursor]
  · intro key hkey
    rw [cachedKeys_eq hcached hmulti hmode hsome, turns_eq hsome _ pollingStart_le] at hkey
    obtain ⟨i, hi, rfl⟩ := mem_map.mp hkey
    obtain ⟨j, -, rfl⟩ := mem_map.mp hi
    have hlt := Nat.mod_lt (place c.channel.enabledAt (config.pollingStart c) + j) (length_pos_iff.mpr hsome)
    refine ⟨_, ?_, rfl⟩
    rw [getD_eq_getElem _ _ hlt]
    exact getElem_mem hlt

/-- The polling index is past the last key, and the key in the middle is disabled. -/
def skippingChannel : PolledChannel where
  channel := { polledKeys.row.channel with
    key := text "a\nb\nc"
    channelInfo := { isMultiKey := true, multiKeySize := 3, multiKeyStatusList := [(1, channelStatusAutoDisabled)] } }
  multiKeyMode := .polling
  multiKeyPollingIndex := 7

def skippingSite : KeySite where
  row := skippingChannel
  cached := some skippingChannel

theorem polling_is_fair_past_the_end :
    (∃ first, (skippingSite.cachedKeys ⟨fun _ => none⟩ ([4, 5, 6] ++ [7, 8])).drop 3 =
        ((Config.enabledIdx ⟨fun _ => none⟩ skippingChannel.channel).rotate first).map
          (Config.returned ⟨fun _ => none⟩ skippingChannel.channel)) ∧
      ∀ key ∈ skippingSite.cachedKeys ⟨fun _ => none⟩ [4, 5, 6],
        ∃ i ∈ Config.enabledIdx ⟨fun _ => none⟩ skippingChannel.channel,
          key = Config.returned ⟨fun _ => none⟩ skippingChannel.channel i :=
  polling_is_fair ⟨fun _ => none⟩ skippingSite skippingChannel rfl rfl rfl (by decide +kernel) [4, 5, 6] [7, 8]
    (by decide +kernel)

end CubeRouter.Routing
