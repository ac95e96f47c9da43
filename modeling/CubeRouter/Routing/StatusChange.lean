import CubeRouter.Routing.DisabledKeys
import CubeRouter.Routing.Drift

/-!
# The change of a status

`UpdateChannelStatus` of `model/channel.go` goes over three copies of a status. It changes the cached channel first,
then the row that it reads itself, and the abilities in a deferred function, which runs when the row was not saved as
well. The cached channel is not taken back on any way out. So a call leaves all three as they were, or all three in
the new state, exactly when nothing of the cached channel had to change, or the row was saved and both come to the
same (`status_change_is_atomic_iff`).

The lists of the group map are left out here, and `UpdateAbilityStatus` succeeds.
-/

namespace CubeRouter.Routing

open Relational Strings Option

/-! ## The operation -/

/-- The calls of the database that fail. -/
structure Faults where
  getChannelById : Bool := false
  saveStatusState : Bool := false

structure StatusSite where
  tables : Tables
  channelsIDM : Nat → Option Channel

section

variable (config : Config) (memoryCacheEnabled : Bool) (faults : Faults)

/-- The part with the row, which is read again, and the deferred part with the abilities. -/
def Tables.saveStatus (s : Tables) (channelId : Nat) (usingKey : Text) (status : Int) (reason : String) (now : Int) :
    Tables × Bool :=
  match if faults.getChannelById then none else s.channels.get? channelId with
  | none => (s, false)
  | some c =>
    if c.status = status then (s, false)
    else
      let c' := config.withStatus c usingKey status reason now
      let abilities :=
        if c.status = c'.status then s.abilities
        else updateAbilityStatus channelId (status = channelStatusEnabled) s.abilities
      if faults.saveStatusState then ({ s with abilities := abilities }, false)
      else ({ channels := s.channels.modify channelId fun _ => c', abilities := abilities }, true)

def StatusSite.saveStatus (x : StatusSite) (channelId : Nat) (usingKey : Text) (status : Int)
    (reason : String) (now : Int) :
    StatusSite × Bool :=
  let saved := x.tables.saveStatus config faults channelId usingKey status reason now
  ({ x with tables := saved.1 }, saved.2)

def StatusSite.updateChannelStatus (x : StatusSite) (channelId : Nat) (usingKey : Text) (status : Int) (reason : String)
    (now : Int) : StatusSite × Bool :=
  if memoryCacheEnabled then
    match x.channelsIDM channelId with
    | none => (x, false)
    | some c =>
      if ¬c.channelInfo.isMultiKey ∧ c.status = status then (x, false)
      else
        let c' := config.updateCached c usingKey status reason now
        StatusSite.saveStatus config faults { x with channelsIDM := Function.update x.channelsIDM channelId (some c') }
          channelId usingKey status reason now
  else x.saveStatus config faults channelId usingKey status reason now

end

/-! ## What a call asks of a channel -/

section

variable (config : Config)

def Config.keyAsked (c : Channel) (usingKey : Text) : Option Nat :=
  if c.channelInfo.isMultiKey then (config.getKeys c.key).findIdx? (· = usingKey) else none

def Config.otherKeyEnabled (c : Channel) (k : Nat) : Bool :=
  (List.range (config.getKeys c.key).length).any fun i => i ≠ k ∧ c.channelInfo.statusAt i = channelStatusEnabled

/-- The status that a call sets on the channel, if it sets one. Without a key it is the one asked for. With a key the
channel is enabled with it, and disabled with the last one. -/
def Config.statusSet (c : Channel) (usingKey : Text) (status : Int) : Option Int :=
  if c.channelInfo.isMultiKey = false ∨ config.getKeys c.key = [] then some status
  else match config.keyAsked c usingKey with
    | none => if usingKey = [] then some status else none
    | some k =>
      if status = channelStatusEnabled then some channelStatusEnabled
      else if config.otherKeyEnabled c k then none
      else some channelStatusAutoDisabled

def Config.statusAsked (c : Channel) (usingKey : Text) (status : Int) : Int :=
  (config.statusSet c usingKey status).getD c.status

def Config.keyStatusAsked (c : Channel) (usingKey : Text) (status : Int) (i : Nat) : Int :=
  if config.keyAsked c usingKey = some i then status else c.channelInfo.statusAt i

/-- A channel in the state that the call asks of it. -/
structure Config.Asked (c c' : Channel) (usingKey : Text) (asked : Int) : Prop where
  status : c'.status = config.statusAsked c usingKey asked
  keys : ∀ i, c'.channelInfo.statusAt i = config.keyStatusAsked c usingKey asked i

end

variable {config : Config} {c c' : Channel} {usingKey : Text} {status : Int}

theorem hasEnabledMultiKey_set {k : Nat} (hstatus : status ≠ channelStatusEnabled) :
    hasEnabledMultiKey (config.getKeys c.key) (IntMap.set c.channelInfo.multiKeyStatusList k status) =
      config.otherKeyEnabled c k := by
  unfold hasEnabledMultiKey Config.otherKeyEnabled ChannelInfo.statusAt
  congr 1
  funext i
  rw [IntMap.lookup_set]
  by_cases hi : i = k
  · simp [hi, hstatus]
  · cases hlookup : c.channelInfo.multiKeyStatusList.lookup i with
    | none | some => simp [hi]

theorem status_handlerMultiKeyUpdate (hmulti : c.channelInfo.isMultiKey = true) {reason : String} {now : Int} :
    (config.handlerMultiKeyUpdate c usingKey status reason now).status = config.statusAsked c usingKey status := by
  unfold Config.handlerMultiKeyUpdate Config.statusAsked Config.statusSet Config.keyAsked
  rw [hmulti]
  by_cases hnil : config.getKeys c.key = []
  · simp [hnil]
  have hkeyed : ¬(true = false ∨ config.getKeys c.key = []) := by simp [hnil]
  rw [if_neg hnil, if_neg hkeyed, if_pos rfl]
  cases hindex : (config.getKeys c.key).findIdx? (· = usingKey) with
  | none =>
    by_cases husing : usingKey = []
    · simp [husing]
    · simp [husing]
  | some k =>
    have hk : k < (config.getKeys c.key).length := (List.findIdx?_eq_some_iff_findIdx_eq.mp hindex).1
    dsimp only
    by_cases hstatus : status = channelStatusEnabled
    · rw [if_pos hstatus, if_pos hstatus, if_neg (by simp [hasEnabledMultiKey_delete hk]), if_pos hstatus]
      rfl
    · rw [if_neg hstatus, if_neg hstatus]
      simp only [hasEnabledMultiKey_set hstatus]
      by_cases hother : config.otherKeyEnabled c k = true
      · simp [hother, hstatus]
      · simp [hother, hstatus]

theorem asked_withStatus (config : Config) (c : Channel) (usingKey : Text) (status : Int)
    (reason : String) (now : Int) :
    config.Asked c (config.withStatus c usingKey status reason now) usingKey status := by
  by_cases hmulti : c.channelInfo.isMultiKey = true
  · refine ⟨?_, fun i => ?_⟩
    · unfold Config.withStatus
      rw [if_pos hmulti]
      exact status_handlerMultiKeyUpdate hmulti
    · have hrecord := (withStatus_record config hmulti usingKey status reason now).2.2 i
      have hstatus : ∀ r : KeyRecord, (r.withStatus status reason now).status = status := by
        intro r
        unfold KeyRecord.withStatus
        split_ifs with h
        · exact h.symm
        · rfl
      change ((config.withStatus c usingKey status reason now).channelInfo.record i).status = _
      rw [hrecord]
      unfold Config.keyStatusAsked Config.keyAsked
      split_ifs
      · exact hstatus _
      · rfl
  · refine ⟨?_, fun i => ?_⟩
    · simp [Config.withStatus, Config.statusAsked, Config.statusSet, hmulti]
    · simp [Config.withStatus, Config.keyStatusAsked, Config.keyAsked, hmulti]

theorem asked_updateCached (config : Config) (c : Channel) {usingKey : Text} (status : Int)
    (reason : String) (now : Int) :
    config.Asked c (config.updateCached c usingKey status reason now) usingKey status := by
  have hasked := asked_withStatus config c usingKey status reason now
  unfold Config.withStatus at hasked
  unfold Config.updateCached
  split_ifs at hasked ⊢
  · exact hasked
  · exact ⟨hasked.status, hasked.keys⟩

/-! ## All or nothing -/

def Channel.statuses (c : Channel) : Int × (Nat → Int) := (c.status, c.channelInfo.statusAt)

def Tables.FlagsAre (s : Tables) (channelId : Nat) (enabled : Bool) : Prop :=
  ∀ k a, s.abilities.find? k = some a → a.channelId = channelId → a.enabled = enabled

structure StatusSite.AgreesOn (x : StatusSite) (memoryCacheEnabled : Bool) (channelId : Nat) (c : Channel) : Prop where
  row : x.tables.channels.get? channelId = some c
  abilities : x.tables.FlagsAre channelId (c.status = channelStatusEnabled)
  cached : memoryCacheEnabled = true → (x.channelsIDM channelId).map Channel.statuses = some c.statuses

structure StatusSite.Unchanged (x x' : StatusSite) (memoryCacheEnabled : Bool) (channelId : Nat) : Prop where
  row : x'.tables.channels.get? channelId = x.tables.channels.get? channelId
  abilities : ∀ k, x'.tables.abilities.find? k = x.tables.abilities.find? k
  cached : memoryCacheEnabled = true →
    (x'.channelsIDM channelId).map Channel.statuses = (x.channelsIDM channelId).map Channel.statuses

/-- A call that returns true has brought all copies to the new state, and one that returns false has left them alone. -/
def StatusSite.Atomic (config : Config) (memoryCacheEnabled : Bool) (x : StatusSite) (result : StatusSite × Bool)
    (channelId : Nat) (usingKey : Text) (status : Int) : Prop :=
  if result.2 = true then
    ∃ c c', x.tables.channels.get? channelId = some c ∧ config.Asked c c' usingKey status ∧
      result.1.AgreesOn memoryCacheEnabled channelId c'
  else x.Unchanged result.1 memoryCacheEnabled channelId

structure Config.Idle (config : Config) (c : Channel) (usingKey : Text) (status : Int) : Prop where
  channel : ∀ set ∈ config.statusSet c usingKey status, set = c.status
  key : ∀ i ∈ config.keyAsked c usingKey, c.channelInfo.statusAt i = status

theorem statuses_eq_iff (h : config.Asked c c' usingKey status) :
    c'.statuses = c.statuses ↔ config.Idle c usingKey status := by
  unfold Channel.statuses
  rw [Prod.mk.injEq, funext_iff, h.status]
  simp only [h.keys]
  unfold Config.statusAsked Config.keyStatusAsked
  constructor
  · rintro ⟨hstatus, hkeys⟩
    refine ⟨fun set hset => ?_, fun i hi => ?_⟩
    · rw [mem_def.mp hset] at hstatus
      exact hstatus
    · have hkey := hkeys i
      rw [if_pos (mem_def.mp hi)] at hkey
      exact hkey.symm
  · intro hidle
    refine ⟨?_, fun i => ?_⟩
    · cases hset : config.statusSet c usingKey status with
      | none => rfl
      | some set => exact hidle.channel set hset
    · split_ifs with hi
      · exact (hidle.key i hi).symm
      · rfl

theorem flagsAre_updateAbilityStatus {s : Tables} {id : Nat} {enabled : Bool} :
    Tables.FlagsAre { s with abilities := updateAbilityStatus id enabled s.abilities } id enabled := by
  intro k a hfind hid
  rw [find?_updateAbilityStatus] at hfind
  obtain ⟨_, -, rfl⟩ := map_eq_some_iff.mp hfind
  split_ifs at hid ⊢
  · rfl
  · contradiction

theorem updateAbilityStatus_unchanged_iff (s : Tables) (id : Nat) (enabled : Bool) :
    (∀ k, (updateAbilityStatus id enabled s.abilities).find? k = s.abilities.find? k) ↔ s.FlagsAre id enabled := by
  simp only [find?_updateAbilityStatus]
  constructor
  · intro h k a hfind hid
    have hk := h k
    rw [hfind, map_some, if_pos hid] at hk
    exact (congrArg Ability.enabled (Option.some.inj hk)).symm
  · intro h k
    cases hfind : s.abilities.find? k with
    | none => rfl
    | some a =>
      rw [map_some]
      split_ifs with hid
      · rw [← h k a hfind hid]
      · rfl

/-! ## When a call is atomic -/

section

variable (config : Config) (memoryCacheEnabled : Bool) (faults : Faults)

/-- The cache says that there is nothing to do. -/
def StatusSite.Stops (x : StatusSite) (channelId : Nat) (status : Int) : Prop :=
  memoryCacheEnabled = true ∧ ∀ c ∈ x.channelsIDM channelId, c.channelInfo.isMultiKey = false ∧ c.status = status

def StatusSite.CacheIdle (x : StatusSite) (channelId : Nat) (usingKey : Text) (status : Int) : Prop :=
  memoryCacheEnabled = true → ∀ c ∈ x.channelsIDM channelId, config.Idle c usingKey status

def Config.Sets (c : Channel) (usingKey : Text) (status : Int) : Prop :=
  ∃ set ∈ config.statusSet c usingKey status, set ≠ c.status

/-- The same is asked of both, and they have what is not asked. -/
def Config.Alike (c c' : Channel) (usingKey : Text) (status : Int) : Prop :=
  config.statusAsked c usingKey status = config.statusAsked c' usingKey status ∧
    ∀ i, config.keyStatusAsked c usingKey status i = config.keyStatusAsked c' usingKey status i

/-- The call stops at the cache, or what it does not finish it has not begun. -/
def StatusSite.Safe (x : StatusSite) (channelId : Nat) (usingKey : Text) (status : Int) : Prop :=
  x.Stops memoryCacheEnabled channelId status ∨
    match if faults.getChannelById then none else x.tables.channels.get? channelId with
    | none => x.CacheIdle config memoryCacheEnabled channelId usingKey status
    | some c =>
      if c.status = status then x.CacheIdle config memoryCacheEnabled channelId usingKey status
      else if faults.saveStatusState then
        x.CacheIdle config memoryCacheEnabled channelId usingKey status ∧
          (config.Sets c usingKey status → x.tables.FlagsAre channelId (status = channelStatusEnabled))
      else
        (config.Sets c usingKey status ∨ x.tables.FlagsAre channelId (c.status = channelStatusEnabled)) ∧
          (memoryCacheEnabled = true → ∀ cached ∈ x.channelsIDM channelId, config.Alike cached c usingKey status)

end

variable {memoryCacheEnabled : Bool} {faults : Faults} {x : StatusSite} {channelId : Nat}

theorem sets_iff (h : config.Asked c c' usingKey status) : c.status ≠ c'.status ↔ config.Sets c usingKey status := by
  unfold Config.Sets
  rw [h.status, Config.statusAsked]
  cases config.statusSet c usingKey status with
  | none => simp
  | some => simp [eq_comm]

theorem updateChannelStatus_of_stops (h : x.Stops memoryCacheEnabled channelId status) (reason : String) (now : Int) :
    x.updateChannelStatus config memoryCacheEnabled faults channelId usingKey status reason now = (x, false) := by
  unfold StatusSite.updateChannelStatus
  rw [if_pos h.1]
  cases hcached : x.channelsIDM channelId with
  | none => rfl
  | some c =>
    have hc := h.2 c hcached
    dsimp only
    rw [if_pos (by simpa using hc)]

theorem exists_saveStatus (config : Config) (faults : Faults) {usingKey : Text}
    (h : ¬x.Stops memoryCacheEnabled channelId status)
    (reason : String) (now : Int) :
    ∃ channelsIDM, x.updateChannelStatus config memoryCacheEnabled faults channelId usingKey status reason now =
        StatusSite.saveStatus config faults ⟨x.tables, channelsIDM⟩ channelId usingKey status reason now ∧
      (memoryCacheEnabled = true → ∃ c c', x.channelsIDM channelId = some c ∧ channelsIDM channelId = some c' ∧
        config.Asked c c' usingKey status) := by
  unfold StatusSite.updateChannelStatus
  by_cases henabled : memoryCacheEnabled = true
  · rw [if_pos henabled]
    cases hcached : x.channelsIDM channelId with
    | none => exact absurd ⟨henabled, fun c hc => by simp [hcached] at hc⟩ h
    | some c =>
      have hpasses : ¬(¬c.channelInfo.isMultiKey = true ∧ c.status = status) := by
        intro hc
        refine h ⟨henabled, fun c' hc' => ?_⟩
        rw [mem_def, hcached] at hc'
        cases hc'
        simpa using hc
      dsimp only
      rw [if_neg hpasses]
      refine ⟨_, rfl, fun _ => ⟨c, _, rfl, Function.update_self .., ?_⟩⟩
      exact asked_updateCached config c status reason now
  · rw [if_neg henabled]
    exact ⟨x.channelsIDM, rfl, fun hon => absurd hon henabled⟩

variable {channelsIDM : Nat → Option Channel}

theorem cached_eq_iff (h : memoryCacheEnabled = true → ∃ c c',
      x.channelsIDM channelId = some c ∧ channelsIDM channelId = some c' ∧ config.Asked c c' usingKey status) :
    (memoryCacheEnabled = true →
        (channelsIDM channelId).map Channel.statuses = (x.channelsIDM channelId).map Channel.statuses) ↔
      x.CacheIdle config memoryCacheEnabled channelId usingKey status := by
  refine forall_congr' fun hon => ?_
  obtain ⟨c, _, hc, hc', hasked⟩ := h hon
  rw [hc, hc', map_some, map_some, Option.some.injEq, statuses_eq_iff hasked]
  simp

theorem atomic_false_iff (h : memoryCacheEnabled = true → ∃ c c',
      x.channelsIDM channelId = some c ∧ channelsIDM channelId = some c' ∧ config.Asked c c' usingKey status)
    {abilities : Abilities} :
    x.Atomic config memoryCacheEnabled (⟨{ x.tables with abilities := abilities }, channelsIDM⟩,
      false) channelId usingKey
        status ↔ x.CacheIdle config memoryCacheEnabled channelId usingKey status ∧
        ∀ k, abilities.find? k = x.tables.abilities.find? k := by
  rw [← cached_eq_iff h]
  constructor
  · intro hunchanged
    exact ⟨hunchanged.cached, hunchanged.abilities⟩
  · intro hunchanged
    exact ⟨rfl, hunchanged.2, hunchanged.1⟩

theorem atomic_true_iff (hget : x.tables.channels.get? channelId = some c)
    (h : memoryCacheEnabled = true → ∃ cached cached', x.channelsIDM channelId = some cached ∧
      channelsIDM channelId = some cached' ∧ config.Asked cached cached' usingKey status)
    (hasked : config.Asked c c' usingKey status)
    (hfollows : c.status ≠ c'.status → (c'.status = channelStatusEnabled ↔ status = channelStatusEnabled)) :
    x.Atomic config memoryCacheEnabled (⟨⟨x.tables.channels.modify channelId fun _ => c',
          if c.status = c'.status then x.tables.abilities
          else updateAbilityStatus channelId (status = channelStatusEnabled) x.tables.abilities⟩, channelsIDM⟩, true)
        channelId usingKey status ↔ (c.status ≠ c'.status ∨
        x.tables.FlagsAre channelId (c.status = channelStatusEnabled)) ∧
        (memoryCacheEnabled = true → ∀ cached ∈ x.channelsIDM channelId, config.Alike cached c usingKey status) := by
  have hrow : (x.tables.channels.modify channelId fun _ => c').get? channelId = some c' := by
    rw [Table.get?_modify_self, hget]
    rfl
  have hflags : Tables.FlagsAre ⟨x.tables.channels.modify channelId fun _ => c',
        if c.status = c'.status then x.tables.abilities
        else updateAbilityStatus channelId (status = channelStatusEnabled) x.tables.abilities⟩ channelId
        (c'.status = channelStatusEnabled) ↔
      c.status ≠ c'.status ∨ x.tables.FlagsAre channelId (c.status = channelStatusEnabled) := by
    split_ifs with hsame
    · rw [← hsame, or_iff_right (not_not_intro rfl)]
      rfl
    · refine iff_of_true ?_ (.inl hsame)
      have hdecide : decide (c'.status = channelStatusEnabled) = decide (status = channelStatusEnabled) :=
        decide_eq_decide.mpr (hfollows hsame)
      rw [hdecide]
      exact flagsAre_updateAbilityStatus
  have halike : (memoryCacheEnabled = true → (channelsIDM channelId).map Channel.statuses = some c'.statuses) ↔
      (memoryCacheEnabled = true → ∀ cached ∈ x.channelsIDM channelId, config.Alike cached c usingKey status) := by
    refine forall_congr' fun hon => ?_
    obtain ⟨cached, _, hcached, hcached', hasked'⟩ := h hon
    rw [hcached, hcached', map_some, Option.some.injEq]
    simp [Channel.statuses, funext_iff, Config.Alike, hasked.status, hasked.keys, hasked'.status, hasked'.keys]
  rw [← hflags, ← halike]
  constructor
  · rintro ⟨c0, c1, -, -, hagrees⟩
    obtain rfl : c' = c1 := mem_unique hrow hagrees.row
    exact ⟨hagrees.abilities, hagrees.cached⟩
  · rintro ⟨habilities, hcached⟩
    exact ⟨c, c', hget, hasked, hrow, habilities, hcached⟩

/-- In each state and wherever the database fails: a call of `UpdateChannelStatus` is atomic if and only if it stops
at the cache, or fails when neither the cached channel nor a flag had to change, or saves the row when the cached
channel is as the row. -/
theorem status_change_is_atomic_iff (config : Config) (memoryCacheEnabled : Bool) (faults : Faults) (x : StatusSite)
    (channelId : Nat) (usingKey : Text) (status : Int) (reason : String) (now : Int) :
    x.Atomic config memoryCacheEnabled
        (x.updateChannelStatus config memoryCacheEnabled faults channelId usingKey status reason now)
        channelId usingKey status ↔
      x.Safe config memoryCacheEnabled faults channelId usingKey status := by
  by_cases hstops : x.Stops memoryCacheEnabled channelId status
  · rw [updateChannelStatus_of_stops hstops]
    exact iff_of_true ⟨rfl, fun _ => rfl, fun _ => rfl⟩ (.inl hstops)
  obtain ⟨channelsIDM, hsave, hcached⟩ := exists_saveStatus config faults hstops reason now
  rw [hsave, StatusSite.Safe, or_iff_right hstops, StatusSite.saveStatus, Tables.saveStatus]
  cases hrow : if faults.getChannelById = true then none else x.tables.channels.get? channelId with
  | none => exact (atomic_false_iff hcached).trans (and_iff_left fun _ => rfl)
  | some c =>
    have hget : x.tables.channels.get? channelId = some c := by
      split_ifs at hrow
      exact hrow
    have hasked := asked_withStatus config c usingKey status reason now
    dsimp only
    by_cases hstatus : c.status = status
    · rw [if_pos hstatus, if_pos hstatus]
      exact (atomic_false_iff hcached).trans (and_iff_left fun _ => rfl)
    rw [if_neg hstatus, if_neg hstatus]
    by_cases hfails : faults.saveStatusState = true
    · rw [if_pos hfails, if_pos hfails]
      refine (atomic_false_iff hcached).trans (and_congr_right fun _ => ?_)
      rw [← sets_iff hasked]
      split_ifs with hsame
      · exact iff_of_true (fun _ => rfl) fun hsets => absurd hsame hsets
      · rw [updateAbilityStatus_unchanged_iff]
        exact ⟨fun hflags _ => hflags, fun hflags => hflags hsame⟩
    · rw [if_neg hfails, if_neg hfails, ← sets_iff hasked]
      refine atomic_true_iff hget hcached hasked ?_
      obtain ⟨newStatus, otherInfo, channelInfo, hc', hfollows⟩ :=
        followsStatus_withStatus config c usingKey status reason now
      rw [hc']
      exact hfollows

def noArrays : Config := ⟨fun _ => none⟩

def vipFields (key : Text) (channelInfo : ChannelInfo) : ChannelFields where
  key := key
  status := channelStatusEnabled
  models := text "gpt-4o"
  group := text "vip"
  channelInfo := channelInfo

def vipSite (key : Text) (channelInfo : ChannelInfo) : StatusSite where
  tables := Tables.insert {} (vipFields key channelInfo)
  channelsIDM := (Tables.insert {} (vipFields key channelInfo)).channels.get?

/-- When the row is not saved, the flag and the cached channel are disabled nevertheless. When a key of an enabled
channel is enabled, only the cached channel knows of it. -/
theorem status_change_is_torn :
    (let x := vipSite (text "sk-1") {}
     ¬x.Atomic noArrays true (x.updateChannelStatus noArrays true ⟨false, true⟩ 1
     [] channelStatusAutoDisabled "" 0) 1 []
      channelStatusAutoDisabled) ∧
    (let x := vipSite (text "a\nb") { isMultiKey := true, multiKeySize := 2, multiKeyStatusList := [(1, 3)] }
     ¬x.Atomic noArrays true (x.updateChannelStatus noArrays true {} 1
     (text "b") channelStatusEnabled "" 0) 1 (text "b")
      channelStatusEnabled) := by
  constructor
  · intro x h
    have hflag := h.abilities (text "vip", text "gpt-4o", 1)
    revert hflag
    decide
  · intro x h
    have hcached := congrArg (Option.map fun statuses => statuses.2 1) (h.cached rfl)
    revert hcached
    decide

end CubeRouter.Routing
