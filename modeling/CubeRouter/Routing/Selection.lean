import CubeRouter.Lib.Tiers
import CubeRouter.Routing.Constraints
import CubeRouter.Routing.GroupMap
import Mathlib.Tactic.Ring

/-!
# Selection of a channel

A request is served by a channel that is enabled, lists its group and model and passes its filters. With the memory
cache `GetRandomSatisfiedChannel` looks for it in the group map, and without it `GetChannel` reads the abilities. Both
take the priority of the retry number among the candidates and draw one by its weight. When the abilities are the
projection of the channels, both have the same candidates for a name. But only the cache looks under the normalized
name when the name of the request has no candidate: they agree exactly when the name has a candidate or the normalized
name has none either (`selectors_agree_iff`).

The reads of the database succeed, and the sums of the weights are below the bound of an `int`. The order that a sort
leaves open, and the random number of a draw, are taken as they come.
-/

namespace CubeRouter.Routing.Selection

open Relational Strings Tiers Transition List Option Table

/-! ## Tables -/

def channelStatusEnabled : Int := 1

structure Ability where
  group : Text
  model : Text
  channelId : Nat
  enabled : Bool
  priority : Option Int
  weight : Nat
  deriving DecidableEq

def Ability.key (a : Ability) : Text × Text × Nat := (a.group, a.model, a.channelId)

structure Tables where
  channels : Table Channel
  abilities : Index Ability.key

def Channel.groups (c : Channel) : List Text := c.group.splitOn ','

def Channel.modelNames (c : Channel) : List Text := c.models.splitOn ','

def Channel.ability (id : Nat) (c : Channel) (group model : Text) : Ability where
  group := group
  model := model
  channelId := id
  enabled := c.status = channelStatusEnabled
  priority := c.priority
  weight := c.getWeight

def Channel.projected (id : Nat) (c : Channel) (group model : Text) : Option Ability :=
  if group ∈ c.groups ∧ model ∈ c.modelNames then some (c.ability id group model) else none

def Tables.Projects (s : Tables) : Prop :=
  ∀ id group model, s.abilities.find? (group, model, id) = (s.channels.get? id).bind fun c => c.projected id group model

def abilityRows (channels : Table Channel) : List Ability :=
  (channels.select fun _ => true).flatMap fun c =>
    c.2.groups.flatMap fun group => c.2.modelNames.map fun model => c.2.ability c.1 group model

def Tables.ofChannels (channels : Table Channel) : Tables where
  channels := channels
  abilities := (abilityRows channels).foldl Index.insertNew .empty

variable {a : Ability} {id : Nat} {c : Nat × Channel} {channels : List Nat} {found : List (Nat × Channel)}

theorem mem_abilityRows {channels : Table Channel} :
    a ∈ abilityRows channels ↔ ∃ c, channels.get? a.channelId = some c ∧
    c.projected a.channelId a.group a.model = some a := by
  unfold abilityRows Channel.projected
  constructor
  · intro h
    obtain ⟨⟨_, c⟩, hc, h⟩ := mem_flatMap.mp h
    obtain ⟨group, hgroup, h⟩ := mem_flatMap.mp h
    obtain ⟨model, hmodel, rfl⟩ := mem_map.mp h
    exact ⟨c, (mem_select_iff.mp hc).1, if_pos ⟨hgroup, hmodel⟩⟩
  · rintro ⟨c, hc, h⟩
    split_ifs at h with hlisted
    refine mem_flatMap.mpr ⟨(a.channelId, c), mem_select_iff.mpr ⟨hc, rfl⟩, ?_⟩
    refine mem_flatMap.mpr ⟨a.group, hlisted.1, mem_map.mpr ⟨a.model, hlisted.2, ?_⟩⟩
    exact some.inj h

theorem projects_ofChannels (channels : Table Channel) : (Tables.ofChannels channels).Projects := by
  intro id group model
  change ((abilityRows channels).foldl Index.insertNew .empty).find? _ = _
  rw [Index.find?_foldl_insertNew, Index.find?_empty, none_or]
  cases hfound : (abilityRows channels).find? fun a => Ability.key a = (group, model, id) with
  | some a =>
    obtain ⟨c, hc, ha⟩ := mem_abilityRows.mp (mem_of_find?_eq_some hfound)
    have hkey : a.key = (group, model, id) := by simpa using find?_some hfound
    cases hkey
    exact (bind_eq_some_iff.mpr ⟨c, hc, ha⟩).symm
  | none =>
    cases hbind : (channels.get? id).bind fun c => c.projected id group model with
    | none => exact hbind.symm
    | some a =>
      obtain ⟨c, hc, ha⟩ := bind_eq_some_iff.mp hbind
      have hkey : a = c.ability id group model := by
        unfold Channel.projected at ha
        split_ifs at ha
        exact (some.inj ha).symm
      subst hkey
      have hrow := mem_abilityRows (a := c.ability id group model) |>.mpr ⟨c, hc, ha⟩
      exact absurd (decide_eq_true rfl) (find?_eq_none.mp hfound _ hrow)

/-! ## The cache -/

structure ChannelCache where
  group2model2channels : GroupMap
  channelsIDM : Nat → Option Channel

def members (channels : List (Nat × Channel)) : List Member :=
  (channels.filter fun c => c.2.status = channelStatusEnabled).map fun c =>
    { id := c.1, groups := c.2.groups, models := c.2.modelNames }

def priorityOf (channelsIDM : Nat → Option Channel) (id : Nat) : Int := (channelsIDM id).elim 0 Channel.getPriority

def sortByPriority (channelsIDM : Nat → Option Channel) (m : GroupMap) : GroupMap := fun group =>
  (m group).map fun inner model =>
    (inner model).mergeSort fun i j => decide (priorityOf channelsIDM i ≥ priorityOf channelsIDM j)

def initChannelCache (s : Tables) : Except CachePanic ChannelCache := do
  let channels := s.channels.select fun _ => true
  let groups := (s.abilities.table.select fun _ => true).map fun a => a.2.group
  let m ← buildGroups groups (members channels)
  return { group2model2channels := sortByPriority s.channels.get? m, channelsIDM := s.channels.get? }

/-- `group2model2channels[group][model]`, where a map without the key reads as empty. -/
def ChannelCache.listed (x : ChannelCache) (group model : Text) : List Nat :=
  (x.group2model2channels group).elim [] fun inner => inner model

/-! ## The selectors -/

inductive Failure
  | indexOutOfRange
  | missingChannel (id : Nat)
  | noChannelOfPriority (priority : Int)
  | channelNotFound

/-- A channel, or none, or a panic or an error. -/
abbrev Selected := Except Failure (Option (Nat × Channel))

/-- The draw of the cache from the channels of the priority. -/
def drawSmoothed (random : Nat) (targetChannels : List (Nat × Channel)) : Option (Nat × Channel) :=
  let sumWeight := (targetChannels.map fun c => c.2.getWeight).sum
  let (sumWeight, smoothingFactor, smoothingAdjustment) :=
    if sumWeight = 0 then (targetChannels.length * 100, 1, 100)
    else if sumWeight / targetChannels.length < 10 then (sumWeight, 100, 0)
    else (sumWeight, 1, 0)
  let totalWeight := sumWeight * smoothingFactor
  draw (fun r => decide (r < 0)) (fun c => (c.2.getWeight * smoothingFactor + smoothingAdjustment : Nat))
    (random % totalWeight : Nat) targetChannels

def ChannelCache.findChannel (x : ChannelCache) (id : Nat) : Except Failure (Nat × Channel) :=
  match x.channelsIDM id with
  | some c => return (id, c)
  | none => throw (.missingChannel id)

variable (regexps : Regexps)

def ChannelCache.candidates (x : ChannelCache) (group listedModel model : Text) (filters : List ChannelFilter) :
    List Nat :=
  (filterCandidateIDs regexps x.channelsIDM (x.listed group listedModel) model filters).1

/-- The selection from the channels of the candidates. -/
def pickTier (found : List (Nat × Channel)) (retry : Int) (random : Nat) : Selected :=
  match tierAt (found.map fun c => c.2.getPriority).dedup retry with
  | none => throw .indexOutOfRange
  | some targetPriority =>
    let targetChannels := found.filter fun c => c.2.getPriority = targetPriority
    if targetChannels = [] then throw (.noChannelOfPriority targetPriority)
    else match drawSmoothed random targetChannels with
      | some c => return some c
      | none => throw .channelNotFound

def ChannelCache.pick (x : ChannelCache) (channels : List Nat) (retry : Int) (random : Nat) : Selected :=
  match channels with
  | [] => return none
  | [id] => do return some (← x.findChannel id)
  | channels => do pickTier (← channels.mapM x.findChannel) retry random

def ChannelCache.getRandomSatisfiedChannel (x : ChannelCache) (group model : Text) (retry : Int)
    (filters : List ChannelFilter) (random : Nat) : Selected :=
  let exact := x.candidates regexps group model model filters
  x.pick (if exact = [] then x.candidates regexps group (formatMatchingModelName model) model filters else exact)
    retry random

def Ability.priorityValue (a : Ability) : Int := a.priority.getD 0

/-- `ORDER BY priority DESC, weight DESC`, with the nulls last. -/
def Ability.before (a b : Ability) : Bool :=
  match a.priority, b.priority with
  | some p, some q => p > q ∨ p = q ∧ a.weight ≥ b.weight
  | some _, none => true
  | none, some _ => false
  | none, none => a.weight ≥ b.weight

def drawAbility (random : Nat) (abilities : List Ability) : Option Ability :=
  let weightSum := (abilities.map fun a => a.weight + 10).sum
  draw (fun r => decide (r ≤ 0)) (fun a => (a.weight + 10 : Nat)) (random % weightSum : Nat) abilities

namespace Tables

def filterAbilitiesByConstraints (s : Tables) (abilities : List Ability) (modelName : Text)
    (filters : List ChannelFilter) : List Ability :=
  abilities.filter fun a =>
    (channelSatisfiesFilters regexps a.channelId (s.channels.get? a.channelId) modelName filters).1

def candidates (s : Tables) (group model : Text) (filters : List ChannelFilter) : List Ability :=
  let rows := s.abilities.table.select fun a => a.group = group ∧ a.model = model ∧ a.enabled
  s.filterAbilitiesByConstraints regexps ((rows.map Prod.snd).mergeSort Ability.before) model filters

/-- The selection from the abilities that are left. -/
def pick (s : Tables) (abilities : List Ability) (retry : Int) (random : Nat) : Selected :=
  if abilities = [] then return none
  else match tierAt (distinct (abilities.map Ability.priorityValue)) retry with
    | none => throw .indexOutOfRange
    | some targetPriority =>
      let abilities := abilities.filter fun a =>
        a.priority = none ∧ targetPriority = 0 ∨ a.priority = some targetPriority
      if abilities = [] then return none
      else match drawAbility random abilities with
        | none => throw .channelNotFound
        | some a =>
          match s.channels.get? a.channelId with
          | some c => return some (a.channelId, c)
          | none => throw (.missingChannel a.channelId)

def getChannel (s : Tables) (group model : Text) (retry : Int) (filters : List ChannelFilter) (random : Nat) :
    Selected :=
  s.pick (s.candidates regexps group model filters) retry random

end Tables

/-! ## The candidates -/

/-- What a channel has to be for a request, when it is looked for under the name `listedModel`. -/
structure Candidate (s : Tables) (group listedModel model : Text) (filters : List ChannelFilter) (id : Nat)
    (c : Channel) : Prop where
  row : s.channels.get? id = some c
  enabled : c.status = channelStatusEnabled
  group : group ∈ c.groups
  listed : listedModel ∈ c.modelNames
  passes : Passes regexps id c model filters

def Served (s : Tables) (group listedModel model : Text) (filters : List ChannelFilter) : Prop :=
  ∃ id c, Candidate regexps s group listedModel model filters id c

/-- The cache is that of the tables. -/
structure ChannelCache.Reflects (x : ChannelCache) (s : Tables) : Prop where
  channels : x.channelsIDM = s.channels.get?
  listed : ∀ group model id, id ∈ x.listed group model ↔
    ∃ c, s.channels.get? id = some c ∧ c.status = channelStatusEnabled ∧ group ∈ c.groups ∧ model ∈ c.modelNames

variable {regexps} {s : Tables} {x : ChannelCache} {group model listedModel : Text} {filters : List ChannelFilter}

theorem mem_members :
    (∃ c ∈ members (s.channels.select fun _ => true), group ∈ c.groups ∧ model ∈ c.models ∧ id = c.id) ↔
      ∃ c, s.channels.get? id = some c ∧ c.status = channelStatusEnabled ∧ group ∈ c.groups ∧ model ∈ c.modelNames := by
  constructor
  · rintro ⟨member, hmember, hgroup, hmodel, rfl⟩
    obtain ⟨⟨i, c⟩, hc, rfl⟩ := mem_map.mp hmember
    obtain ⟨hselect, henabled⟩ := mem_filter.mp hc
    exact ⟨c, (mem_select_iff.mp hselect).1, by simpa using henabled, hgroup, hmodel⟩
  · rintro ⟨c, hc, henabled, hgroup, hmodel⟩
    refine ⟨⟨id, c.groups, c.modelNames⟩, mem_map.mpr ⟨(id, c), ?_, rfl⟩, hgroup, hmodel, rfl⟩
    exact mem_filter.mpr ⟨mem_select_iff.mpr ⟨hc, rfl⟩, by simpa using henabled⟩

theorem mem_listed_sortByPriority {idm idm' : Nat → Option Channel} {m : GroupMap} :
    id ∈ (ChannelCache.mk (sortByPriority idm m) idm').listed group model ↔ m.Lists group model id := by
  unfold ChannelCache.listed sortByPriority GroupMap.Lists
  dsimp only
  cases m group with
  | none | some => simp

theorem exists_initChannelCache (h : s.Projects) : ∃ x, initChannelCache s = .ok x ∧ x.Reflects s := by
  have hbuilds : ∃ m, buildGroups ((s.abilities.table.select fun _ => true).map fun a => a.2.group)
      (members (s.channels.select fun _ => true)) = .ok m := by
    refine (buildGroups_isOk_iff fun member hmember => ?_).mpr fun member hmember group hgroup => ?_
    · obtain ⟨c, -, rfl⟩ := mem_map.mp hmember
      exact splitOn_ne_nil _ _
    · obtain ⟨model, hmodel⟩ : ∃ model, model ∈ member.models := by
        obtain ⟨c, -, rfl⟩ := mem_map.mp hmember
        exact exists_mem_of_ne_nil _ (splitOn_ne_nil _ _)
      obtain ⟨c, hc, -, hgroup', hmodel'⟩ := mem_members.mp ⟨member, hmember, hgroup, hmodel, rfl⟩
      have hfind : s.abilities.find? (group, model, member.id) = some (c.ability member.id group model) := by
        rw [h, hc]
        exact if_pos ⟨hgroup', hmodel'⟩
      obtain ⟨i, hi, -⟩ := Index.find?_eq_some_iff.mp hfind
      exact mem_map.mpr ⟨(i, _), mem_select_iff.mpr ⟨hi, rfl⟩, rfl⟩
  obtain ⟨m, hm⟩ := hbuilds
  refine ⟨⟨sortByPriority s.channels.get? m, s.channels.get?⟩, ?_, rfl, fun group model id => ?_⟩
  · simp only [initChannelCache, hm]
    rfl
  · rw [mem_listed_sortByPriority, buildGroups_lists hm, mem_members]

theorem mem_candidates_cache (h : x.Reflects s) : id ∈ x.candidates regexps group listedModel model filters ↔
      ∃ c, Candidate regexps s group listedModel model filters id c := by
  have hknown : ∀ i ∈ x.listed group listedModel, (x.channelsIDM i).isSome := by
    intro i hi
    obtain ⟨c, hc, -⟩ := (h.listed group listedModel i).mp hi
    rw [h.channels, hc]
    rfl
  unfold ChannelCache.candidates
  rw [mem_filterCandidateIDs hknown, h.listed, h.channels]
  constructor
  · rintro ⟨⟨c, hc, henabled, hgroup, hlisted⟩, hpasses⟩
    exact ⟨c, hc, henabled, hgroup, hlisted, hpasses c hc⟩
  · rintro ⟨c, hc⟩
    refine ⟨⟨c, hc.row, hc.enabled, hc.group, hc.listed⟩, fun c' hc' => ?_⟩
    obtain rfl := mem_unique hc.row hc'
    exact hc.passes

theorem mem_candidates_tables (h : s.Projects) : a ∈ s.candidates regexps group model filters ↔
      ∃ c, Candidate regexps s group model model filters a.channelId c ∧ a = c.ability a.channelId group model := by
  unfold Tables.candidates Tables.filterAbilitiesByConstraints
  rw [mem_filter, mem_mergeSort]
  constructor
  · rintro ⟨hrow, hpasses⟩
    obtain ⟨⟨i, _⟩, hselect, rfl⟩ := mem_map.mp hrow
    obtain ⟨hget, hwhere⟩ := mem_select_iff.mp hselect
    simp only [decide_eq_true_eq] at hwhere hpasses ⊢
    obtain ⟨rfl, rfl, henabled⟩ := hwhere
    have hfind := Index.find?_eq_some_iff.mpr ⟨i, hget, rfl⟩
    rw [Ability.key, h, bind_eq_some_iff] at hfind
    obtain ⟨c, hc, hprojected⟩ := hfind
    unfold Channel.projected at hprojected
    split_ifs at hprojected with hlisted
    have hability := some.inj hprojected
    rw [hc] at hpasses
    refine ⟨c, ⟨hc, ?_, hlisted.1, hlisted.2, channelSatisfiesFilters_iff.mp hpasses⟩, hability.symm⟩
    rw [← hability] at henabled
    simpa [Channel.ability] using henabled
  · rintro ⟨c, hc, ha⟩
    have hfind : s.abilities.find? (group, model, a.channelId) = some a := by
      rw [h, hc.row]
      exact (if_pos ⟨hc.group, hc.listed⟩).trans (congrArg some ha.symm)
    obtain ⟨i, hget, _⟩ := Index.find?_eq_some_iff.mp hfind
    refine ⟨mem_map.mpr ⟨(i, a), mem_select_iff.mpr ⟨hget, ?_⟩, rfl⟩, ?_⟩
    · rw [ha]
      simp [Channel.ability, hc.enabled]
    · rw [hc.row]
      exact channelSatisfiesFilters_iff.mpr hc.passes

/-! ## What is picked -/

/-- `a` is the value of the attempt among those of `S`, if the attempt has one. -/
def TierOf (S : Int → Prop) (retry a : Int) : Prop :=
  ∀ values, values.Nodup → (∀ v, v ∈ values ↔ S v) → ∀ b, tierAt values retry = some b → b = a

theorem findChannel_eq_ok : x.findChannel id = .ok c ↔ c.1 = id ∧ x.channelsIDM id = some c.2 := by
  unfold ChannelCache.findChannel
  cases hid : x.channelsIDM id with
  | none => exact iff_of_false (fun h => by cases h) (by simp)
  | some =>
    constructor
    · intro h
      cases h
      exact ⟨rfl, rfl⟩
    · rintro ⟨rfl, hch⟩
      cases hch
      rfl

theorem mem_of_mapM_findChannel (h : channels.mapM x.findChannel = .ok found) :
    c ∈ found ↔ c.1 ∈ channels ∧ x.channelsIDM c.1 = some c.2 := by
  induction channels generalizing found with
  | nil =>
    cases h
    simp
  | cons _ _ ih =>
    rw [mapM_cons] at h
    obtain ⟨_, hfirst, h⟩ := bind_eq_ok.mp h
    obtain ⟨_, hrest, h⟩ := bind_eq_ok.mp h
    cases h
    obtain ⟨rfl, hch⟩ := findChannel_eq_ok.mp hfirst
    rw [mem_cons, mem_cons, ih hrest]
    constructor
    · rintro (rfl | ⟨hmem, hc⟩)
      · exact ⟨.inl rfl, hch⟩
      · exact ⟨.inr hmem, hc⟩
    · rintro ⟨hid | hmem, hc⟩
      · rw [hid, hch] at hc
        exact .inl (Prod.ext hid (some.inj hc).symm)
      · exact .inr ⟨hmem, hc⟩

theorem pickTier_ne_none {retry : Int} {random : Nat} : pickTier found retry random ≠ .ok none := by
  intro h
  unfold pickTier at h
  split at h
  · cases h
  · dsimp only at h
    split_ifs at h
    split at h <;> cases h

theorem pickTier_found {retry : Int} {random : Nat} (h : pickTier found retry random = .ok (some c)) :
    tierAt (found.map fun c => c.2.getPriority).dedup retry = some c.2.getPriority := by
  unfold pickTier at h
  split at h
  · cases h
  · rename_i target htarget
    dsimp only at h
    split_ifs at h
    split at h
    · rename_i drawn hdrawn
      cases h
      have hpriority : c.2.getPriority = target := by simpa using (mem_filter.mp (mem_of_draw hdrawn)).2
      rw [htarget, hpriority]
    · cases h

theorem cache_pick_eq_none {retry : Int} {random : Nat} : x.pick channels retry random = .ok none ↔ channels = [] := by
  unfold ChannelCache.pick
  split
  · exact iff_of_true rfl rfl
  · refine iff_of_false (fun h => ?_) (by simp)
    obtain ⟨c, -, h⟩ := bind_eq_ok.mp h
    cases h
  · rename_i hne _
    refine iff_of_false (fun h => ?_) hne
    obtain ⟨_, -, h⟩ := bind_eq_ok.mp h
    exact pickTier_ne_none h

theorem cache_pick_found {retry : Int} {random : Nat} (h : x.pick channels retry random = .ok (some c)) :
    TierOf (fun p => ∃ id ∈ channels, ∃ ch, x.channelsIDM id = some ch ∧ ch.getPriority = p) retry c.2.getPriority := by
  intro values hvalues hmem b hb
  unfold ChannelCache.pick at h
  split at h
  · cases h
  · -- the only candidate is taken whatever the attempt
    obtain ⟨_, hfirst, h⟩ := bind_eq_ok.mp h
    cases h
    obtain ⟨-, hch⟩ := findChannel_eq_ok.mp hfirst
    obtain ⟨id, hid, ch, hch', rfl⟩ := (hmem b).mp (mem_of_tierAt hb)
    obtain rfl := mem_singleton.mp hid
    rw [mem_unique hch hch']
  · obtain ⟨found, hfound, h⟩ := bind_eq_ok.mp h
    have hsame : tierAt values retry = tierAt (found.map fun c => c.2.getPriority).dedup retry := by
      refine tierAt_congr hvalues (nodup_dedup _) (fun p => ?_) retry
      rw [hmem, List.mem_dedup, List.mem_map]
      constructor
      · rintro ⟨id, hid, ch, hch, rfl⟩
        exact ⟨(id, ch), (mem_of_mapM_findChannel hfound).mpr ⟨hid, hch⟩, rfl⟩
      · rintro ⟨d, hd, rfl⟩
        obtain ⟨hid, hch⟩ := (mem_of_mapM_findChannel hfound).mp hd
        exact ⟨d.1, hid, d.2, hch, rfl⟩
    rw [hb, pickTier_found h] at hsame
    exact some.inj hsame

theorem priorityValue_eq_iff {p : Int} : (a.priority = none ∧ p = 0 ∨ a.priority = some p) ↔ a.priorityValue = p := by
  unfold Ability.priorityValue
  cases a.priority with
  | none => simp [eq_comm]
  | some => simp

theorem tables_pick_eq_none {abilities : List Ability} {retry : Int} {random : Nat} :
    s.pick abilities retry random = .ok none ↔ abilities = [] := by
  unfold Tables.pick
  split_ifs with hnil
  · exact iff_of_true rfl hnil
  · refine iff_of_false (fun h => ?_) hnil
    split at h
    · cases h
    · rename_i target htarget
      obtain ⟨a, ha, hpriority⟩ := mem_map.mp (mem_distinct.mp (mem_of_tierAt htarget))
      dsimp only at h
      split_ifs at h with hempty
      · have hnot := filter_eq_nil_iff.mp hempty a ha
        exact hnot (by simpa using priorityValue_eq_iff.mpr hpriority)
      · split at h
        · cases h
        · split at h <;> cases h

theorem tables_pick_found {abilities : List Ability} {retry : Int} {random : Nat}
    (h : s.pick abilities retry random = .ok (some c)) :
    ∃ a ∈ abilities, a.channelId = c.1 ∧ s.channels.get? c.1 = some c.2 ∧
      tierAt (distinct (abilities.map Ability.priorityValue)) retry = some a.priorityValue := by
  unfold Tables.pick at h
  split_ifs at h with hnil
  · cases h
  · split at h
    · cases h
    · rename_i target htarget
      dsimp only at h
      split_ifs at h with hempty
      · cases h
      · split at h
        · cases h
        · rename_i a hdrawn
          split at h
          · rename_i ch hch
            cases h
            obtain ⟨ha, htier⟩ := mem_filter.mp (mem_of_draw hdrawn)
            refine ⟨a, ha, rfl, hch, ?_⟩
            rw [htarget, priorityValue_eq_iff.mp (by simpa using htier)]
          · cases h

/-! ## When the selectors agree -/

variable {retry : Int} {random : Nat}

theorem cache_candidates_eq_nil (h : x.Reflects s) :
    x.candidates regexps group listedModel model filters = [] ↔ ¬Served regexps s group listedModel model filters := by
  rw [eq_nil_iff_forall_not_mem, Served, not_exists]
  exact forall_congr' fun id => not_congr (mem_candidates_cache h)

theorem cached_eq_none_iff (h : x.Reflects s) :
    x.getRandomSatisfiedChannel regexps group model retry filters random = .ok none ↔
      ¬Served regexps s group model model filters ∧
        ¬Served regexps s group (formatMatchingModelName model) model filters := by
  unfold ChannelCache.getRandomSatisfiedChannel
  rw [cache_pick_eq_none, ← cache_candidates_eq_nil h, ← cache_candidates_eq_nil h]
  split_ifs with hexact
  · exact (and_iff_right hexact).symm
  · exact iff_of_false hexact fun hboth => hexact hboth.1

theorem stored_eq_none_iff (h : s.Projects) :
    s.getChannel regexps group model retry filters random = .ok none ↔ ¬Served regexps s group model model filters := by
  unfold Tables.getChannel
  rw [tables_pick_eq_none, eq_nil_iff_forall_not_mem, Served]
  constructor
  · rintro hnone ⟨id, c, hc⟩
    exact hnone (c.ability id group model) ((mem_candidates_tables h).mpr ⟨c, hc, rfl⟩)
  · intro hnone a ha
    obtain ⟨c, hc, -⟩ := (mem_candidates_tables h).mp ha
    exact hnone ⟨a.channelId, c, hc⟩

theorem stored_found (h : s.Projects) (hfound : s.getChannel regexps group model retry filters random = .ok (some c)) :
    ∃ values : List Int, values.Nodup ∧
      (∀ p, p ∈ values ↔ ∃ id ch, Candidate regexps s group model model filters id ch ∧ ch.getPriority = p) ∧
      tierAt values retry = some c.2.getPriority := by
  obtain ⟨a, ha, hid, hrow, htier⟩ := tables_pick_found hfound
  refine ⟨distinct ((s.candidates regexps group model filters).map Ability.priorityValue), nodup_distinct _,
    fun p => ?_, ?_⟩
  · rw [mem_distinct, List.mem_map]
    constructor
    · rintro ⟨b, hb, rfl⟩
      obtain ⟨ch, hch, hb⟩ := (mem_candidates_tables h).mp hb
      refine ⟨b.channelId, ch, hch, ?_⟩
      rw [hb]
      rfl
    · rintro ⟨id, ch, hch, rfl⟩
      exact ⟨ch.ability id group model, (mem_candidates_tables h).mpr ⟨ch, hch, rfl⟩, rfl⟩
  · obtain ⟨ch, hch, ha⟩ := (mem_candidates_tables h).mp ha
    obtain rfl : ch = c.2 := by
      have hsame := hch.row
      rw [hid, hrow] at hsame
      exact (some.inj hsame).symm
    rw [htier, ha]
    rfl

theorem cached_found (h : x.Reflects s) (hserved : Served regexps s group model model filters)
    (hfound : x.getRandomSatisfiedChannel regexps group model retry filters random = .ok (some c)) :
    TierOf (fun p => ∃ id ch, Candidate regexps s group model model filters id ch ∧ ch.getPriority = p) retry
      c.2.getPriority := by
  have hexact : x.candidates regexps group model model filters ≠ [] := by
    intro hnil
    exact (cache_candidates_eq_nil h).mp hnil hserved
  unfold ChannelCache.getRandomSatisfiedChannel at hfound
  dsimp only at hfound
  rw [if_neg hexact] at hfound
  intro values hvalues hmem b hb
  refine cache_pick_found hfound values hvalues (fun p => ?_) b hb
  rw [hmem]
  constructor
  · rintro ⟨id, ch, hch, hpriority⟩
    refine ⟨id, (mem_candidates_cache h).mpr ⟨ch, hch⟩, ch, ?_, hpriority⟩
    rw [h.channels]
    exact hch.row
  · rintro ⟨id, hid, ch, hch, hpriority⟩
    obtain ⟨ch', hch'⟩ := (mem_candidates_cache h).mp hid
    rw [h.channels, hch'.row] at hch
    obtain rfl := some.inj hch
    exact ⟨id, ch', hch', hpriority⟩

/-! ## Attempts that are counted from zero -/

theorem sum_effective (factor adjustment : Nat) (l : List (Nat × Channel)) :
    (l.map fun c => ((c.2.getWeight * factor + adjustment : Nat) : Int)).sum =
      ((l.map fun c => c.2.getWeight).sum * factor + l.length * adjustment : Nat) := by
  induction l with
  | nil => simp
  | cons c l ih =>
    rw [map_cons, sum_cons, ih, map_cons, sum_cons, length_cons]
    push_cast
    ring

theorem exists_drawSmoothed {l : List (Nat × Channel)} (hl : l ≠ []) (random : Nat) :
    ∃ c, drawSmoothed random l = some c := by
  have hlength : 0 < l.length := length_pos_iff.mpr hl
  unfold drawSmoothed
  dsimp only
  refine exists_draw (fun n hn => by simpa using hn) (Int.natCast_nonneg _) ?_
  rw [sum_effective]
  split_ifs with hzero hsmall
  · have := Nat.mod_lt random (y := l.length * 100 * 1) (by omega)
    simp only [hzero]
    omega
  · have := Nat.mod_lt random (y := (l.map fun c => c.2.getWeight).sum * 100) (by omega)
    dsimp only
    omega
  · have := Nat.mod_lt random (y := (l.map fun c => c.2.getWeight).sum * 1) (by omega)
    dsimp only
    omega

theorem exists_drawAbility {l : List Ability} (hl : l ≠ []) (random : Nat) : ∃ a, drawAbility random l = some a := by
  have hcast : ∀ l : List Ability,
      (l.map fun a => ((a.weight + 10 : Nat) : Int)).sum = ((l.map fun a => a.weight + 10).sum : Nat) := by
    intro l
    induction l with
    | nil => rfl
    | cons a l ih =>
      rw [map_cons, sum_cons, ih, map_cons, sum_cons]
      push_cast
      rfl
  have hpos : 0 < (l.map fun a => a.weight + 10).sum := by
    cases l with
    | nil => exact absurd rfl hl
    | cons =>
      rw [map_cons, sum_cons]
      omega
  refine exists_draw (fun n hn => by simpa using hn.le) (Int.natCast_nonneg _) ?_
  rw [hcast]
  exact_mod_cast Nat.mod_lt random hpos

theorem exists_findChannels (h : ∀ id ∈ channels, (x.channelsIDM id).isSome) :
    ∃ found, channels.mapM x.findChannel = .ok found := by
  induction channels with
  | nil => exact ⟨[], rfl⟩
  | cons id channels ih =>
    obtain ⟨c, hc⟩ := isSome_iff_exists.mp (h id mem_cons_self)
    obtain ⟨found, hfound⟩ := ih fun i hi => h i (mem_cons_of_mem id hi)
    have hid : x.findChannel id = .ok (id, c) := findChannel_eq_ok.mpr ⟨rfl, hc⟩
    rw [mapM_cons, hid, hfound]
    exact ⟨(id, c) :: found, rfl⟩

theorem pickTier_finds (hfound : found ≠ []) (hretry : 0 ≤ retry) :
    ∃ c, pickTier found retry random = .ok (some c) := by
  have hvalues : (found.map fun c => c.2.getPriority).dedup ≠ [] := by
    rw [ne_eq, dedup_eq_nil, map_eq_nil_iff]
    exact hfound
  obtain ⟨target, htarget⟩ := exists_tierAt hvalues hretry
  obtain ⟨c, hc, hpriority⟩ := mem_map.mp (mem_dedup.mp (mem_of_tierAt htarget))
  have htier : (found.filter fun c => c.2.getPriority = target) ≠ [] :=
    ne_nil_of_mem (mem_filter.mpr ⟨hc, decide_eq_true hpriority⟩)
  obtain ⟨drawn, hdrawn⟩ := exists_drawSmoothed htier random
  unfold pickTier
  simp only [htarget, if_neg htier, hdrawn]
  exact ⟨drawn, rfl⟩

theorem cache_pick_finds (h : ∀ id ∈ channels, (x.channelsIDM id).isSome) (hretry : 0 ≤ retry) :
    ∃ r, x.pick channels retry random = .ok r := by
  obtain ⟨found, hfound⟩ := exists_findChannels h
  unfold ChannelCache.pick
  split
  · exact ⟨none, rfl⟩
  · rename_i id
    obtain ⟨c, hc⟩ := isSome_iff_exists.mp (h id mem_cons_self)
    rw [findChannel_eq_ok (c := (id, c)) |>.mpr ⟨rfl, hc⟩]
    exact ⟨some (id, c), rfl⟩
  · rename_i hne _
    obtain ⟨id, hid⟩ := exists_mem_of_ne_nil _ hne
    obtain ⟨c, hc⟩ := isSome_iff_exists.mp (h id hid)
    have hmem := (mem_of_mapM_findChannel (c := (id, c)) hfound).mpr ⟨hid, hc⟩
    obtain ⟨c, hc⟩ : ∃ c, pickTier found retry random = .ok (some c) := pickTier_finds (ne_nil_of_mem hmem) hretry
    rw [hfound]
    exact ⟨some c, hc⟩

/-- The cache never fails a request. -/
theorem cached_finds (h : x.Reflects s) (hretry : 0 ≤ retry) :
    ∃ r, x.getRandomSatisfiedChannel regexps group model retry filters random = .ok r := by
  have hknown (listedModel : Text) :
    ∀ id ∈ x.candidates regexps group listedModel model filters, (x.channelsIDM id).isSome := by
    intro id hid
    obtain ⟨c, hc⟩ := (mem_candidates_cache h).mp hid
    rw [h.channels, hc.row]
    rfl
  unfold ChannelCache.getRandomSatisfiedChannel
  refine cache_pick_finds (fun id hid => ?_) hretry
  split_ifs at hid
  · exact hknown _ id hid
  · exact hknown _ id hid

/-- Nor does the database: every candidate has its channel. -/
theorem stored_finds (h : s.Projects) (hretry : 0 ≤ retry) :
    ∃ r, s.getChannel regexps group model retry filters random = .ok r := by
  unfold Tables.getChannel Tables.pick
  split_ifs with hnil
  · exact ⟨none, rfl⟩
  · obtain ⟨a, ha⟩ := exists_mem_of_ne_nil _ hnil
    have hvalues := ne_nil_of_mem (mem_distinct.mpr (mem_map_of_mem (f := Ability.priorityValue) ha))
    obtain ⟨target, htarget⟩ := exists_tierAt hvalues hretry
    simp only [htarget]
    split_ifs with hempty
    · exact ⟨none, rfl⟩
    · obtain ⟨drawn, hdrawn⟩ := exists_drawAbility hempty random
      obtain ⟨c, hc, -⟩ := (mem_candidates_tables h).mp (mem_filter.mp (mem_of_draw hdrawn)).1
      simp only [hdrawn, hc.row]
      exact ⟨some (drawn.channelId, c), rfl⟩

/-- None is found by both or by neither, what both find has one priority, and an attempt counted from zero fails on
neither side. -/
structure Agree (retry : Int) (cached stored : Selected) : Prop where
  none : cached = .ok none ↔ stored = .ok none
  tier : ∀ c c', cached = .ok (some c) → stored = .ok (some c') → c.2.getPriority = c'.2.getPriority
  finds : 0 ≤ retry → (∃ r, cached = .ok r) ∧ ∃ r, stored = .ok r

/-- After a rebuild of the cache the selectors agree on a request exactly when its name has a candidate or its
normalized name has none. -/
theorem selectors_agree_iff (regexps : Regexps) (s : Tables) (h : s.Projects) :
    ∃ x, initChannelCache s = .ok x ∧ ∀ group model retry filters random random',
      Agree retry (x.getRandomSatisfiedChannel regexps group model retry filters random)
          (s.getChannel regexps group model retry filters random') ↔ (Served regexps s group model model filters ∨
          ¬Served regexps s group (formatMatchingModelName model) model filters) := by
  obtain ⟨x, hx, hreflects⟩ := exists_initChannelCache h
  refine ⟨x, hx, fun group model retry filters random random' => ?_⟩
  constructor
  · intro hagree
    have hnone := hagree.none
    rw [cached_eq_none_iff hreflects, stored_eq_none_iff h] at hnone
    by_cases hserved : Served regexps s group model model filters
    · exact .inl hserved
    · exact .inr (hnone.mpr hserved).2
  · intro hcond
    refine ⟨?_, ?_, fun hretry => ⟨cached_finds hreflects hretry, stored_finds h hretry⟩⟩
    · rw [cached_eq_none_iff hreflects, stored_eq_none_iff h]
      constructor
      · exact And.left
      · intro hserved
        exact ⟨hserved, hcond.resolve_left hserved⟩
    · intro c c' hcached hstored
      have hserved : Served regexps s group model model filters := by
        by_contra hnot
        rw [(stored_eq_none_iff h).mpr hnot] at hstored
        cases hstored
      obtain ⟨values, hvalues, hmem, htier⟩ := stored_found h hstored
      exact (cached_found hreflects hserved hcached values hvalues hmem _ htier).symm

def gizmo : Channel where
  status := channelStatusEnabled
  models := text "gpt-4-gizmo-*"
  group := text "default"

def gizmoTables : Tables := .ofChannels (Table.empty.insert gizmo)

theorem selectors_agree_on_listed_names : ∃ x, initChannelCache gizmoTables = .ok x ∧
    ∀ group model retry filters random random',
      Agree retry (x.getRandomSatisfiedChannel ⟨fun _ _ => false⟩ group model retry filters random)
          (gizmoTables.getChannel ⟨fun _ _ => false⟩ group model retry filters random') ↔
        (Served ⟨fun _ _ => false⟩ gizmoTables group model model filters ∨
          ¬Served ⟨fun _ _ => false⟩ gizmoTables group (formatMatchingModelName model) model filters) :=
  selectors_agree_iff ⟨fun _ _ => false⟩ gizmoTables (projects_ofChannels _)

/-- A channel that lists the wildcard serves the request with the cache only. -/
theorem wildcard_is_served_from_cache_only : gizmoTables.Projects ∧ ∃ x, initChannelCache gizmoTables = .ok x ∧
    ¬Agree 0 (x.getRandomSatisfiedChannel ⟨fun _ _ => false⟩ (text "default") (text "gpt-4-gizmo-x") 0 [] 0)
      (gizmoTables.getChannel ⟨fun _ _ => false⟩ (text "default") (text "gpt-4-gizmo-x") 0 [] 0) := by
  have hprojects := projects_ofChannels (Table.empty.insert gizmo)
  obtain ⟨x, hx, hreflects⟩ := exists_initChannelCache hprojects
  refine ⟨hprojects, x, hx, ?_⟩
  have hwildcard : Served ⟨fun _ _ => false⟩ gizmoTables (text "default")
      (formatMatchingModelName (text "gpt-4-gizmo-x")) (text "gpt-4-gizmo-x") [] :=
    ⟨1, gizmo, by decide, by decide, by decide, by decide, by decide⟩
  have hexact : ¬Served ⟨fun _ _ => false⟩ gizmoTables (text "default") (text "gpt-4-gizmo-x")
    (text "gpt-4-gizmo-x") [] := by
    rintro ⟨id, c, hrow, -, -, hlisted, -⟩
    change (Table.empty.insert gizmo).get? id = some c at hrow
    rw [Table.get?_insert] at hrow
    split_ifs at hrow
    · cases hrow
      revert hlisted
      decide
    · cases hrow
  intro hagree
  have hcached := hagree.none.mpr ((stored_eq_none_iff hprojects).mpr hexact)
  exact ((cached_eq_none_iff hreflects).mp hcached).2 hwildcard

end CubeRouter.Routing.Selection
