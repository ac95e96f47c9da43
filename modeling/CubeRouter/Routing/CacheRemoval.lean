import CubeRouter.Routing.Selection

/-!
# Taking a channel out of the cache

`CacheUpdateChannelStatus` of `model/channel_cache.go` takes a channel that is no longer enabled out of each list of the
group map, where it removes the first entry it finds. `InitChannelCache` enters a channel once for each time that its
group and its model are named (`count_listed`), and `AddAbilities` once for each pair. So the channel is gone exactly
when its texts name no group and no model twice (`disabled_channel_is_gone_iff`).

Between two rebuilds nothing is added to the lists. A sort by priority may leave any order among channels of one
priority, so a built cache is one with the entries of `initChannelCache` in some order.
-/

namespace CubeRouter.Routing.Selection

open Relational Strings Transition List Option

/-! ## Operations on the cache -/

def ChannelCache.cacheUpdateChannelStatus (x : ChannelCache) (id : Nat) (status : Int) : ChannelCache where
  channelsIDM := Function.update x.channelsIDM id ((x.channelsIDM id).map fun c => { c with status := status })
  group2model2channels :=
    if status = channelStatusEnabled then x.group2model2channels
    else fun group => (x.group2model2channels group).map fun inner model => (inner model).erase id

/-- A channel is put in the place of the one with its id. -/
def ChannelCache.cacheUpdateChannel (x : ChannelCache) (id : Nat) (c : Channel) : ChannelCache :=
  { x with channelsIDM := Function.update x.channelsIDM id (some c) }

/-- What happens to the cache until it is built again. -/
inductive CacheEvent
  | cacheUpdateChannelStatus (id : Nat) (status : Int)
  | cacheUpdateChannel (id : Nat) (c : Channel)

def ChannelCache.step (x : ChannelCache) : CacheEvent → ChannelCache
  | .cacheUpdateChannelStatus id status => x.cacheUpdateChannelStatus id status
  | .cacheUpdateChannel id c => x.cacheUpdateChannel id c

def ChannelCache.isChannelEnabledForGroupModel (x : ChannelCache) (group modelName : Text) (channelID : Nat) : Bool :=
  if group = [] ∨ modelName = [] ∨ channelID = 0 then false
  else if channelID ∈ x.listed group modelName then true
  else
    let normalized := formatMatchingModelName modelName
    if normalized ≠ [] ∧ normalized ≠ modelName then channelID ∈ x.listed group normalized else false

variable {x y : ChannelCache} {id : Nat} {group model : Text} {status retry : Int} {random : Nat} {c : Nat × Channel}

theorem listed_updateStatus (h : status ≠ channelStatusEnabled) :
    (x.cacheUpdateChannelStatus id status).listed group model = (x.listed group model).erase id := by
  unfold ChannelCache.listed ChannelCache.cacheUpdateChannelStatus
  dsimp only
  rw [if_neg h]
  cases x.group2model2channels group with
  | none | some => rfl

theorem listed_step_sublist (x : ChannelCache) (e : CacheEvent) (group model : Text) :
    ((x.step e).listed group model).Sublist (x.listed group model) := by
  cases e with
  | cacheUpdateChannelStatus _ status =>
    by_cases h : status = channelStatusEnabled
    · unfold ChannelCache.step ChannelCache.cacheUpdateChannelStatus ChannelCache.listed
      dsimp only
      rw [if_pos h]
    · rw [ChannelCache.step, listed_updateStatus h]
      exact erase_sublist
  | cacheUpdateChannel => exact .refl _

theorem listed_run_sublist (x : ChannelCache) (l : List CacheEvent) (group model : Text) :
    ((run ChannelCache.step x l).listed group model).Sublist (x.listed group model) := by
  induction l generalizing x with
  | nil => exact .refl _
  | cons e l ih => exact (ih (x.step e)).trans (listed_step_sublist x e group model)

/-! ## What is not listed is not found -/

variable {regexps : Regexps}

theorem filterKinds_subset (channelsIDM : Nat → Option Channel) (modelName : Text) (filters : List ChannelFilter)
    (kinds : List ChannelFilterKind) (kept : List Nat) :
    (filterKinds regexps channelsIDM modelName filters kinds kept).1 ⊆ kept := by
  induction kinds generalizing kept with
  | nil => exact Subset.refl _
  | cons _ _ ih =>
    unfold filterKinds
    dsimp only
    split_ifs
    · exact ih kept
    · exact filter_subset_self _
    · exact Subset.trans (ih _) (filter_subset_self _)

theorem candidates_subset {listedModel : Text} {filters : List ChannelFilter} :
    x.candidates regexps group listedModel model filters ⊆ x.listed group listedModel := by
  unfold ChannelCache.candidates filterCandidateIDs
  split_ifs
  · exact Subset.refl _
  · exact filterKinds_subset ..

theorem mem_of_pickTier {found : List (Nat × Channel)}
    (h : pickTier found retry random = .ok (some c)) : c ∈ found := by
  unfold pickTier at h
  split at h
  · cases h
  · dsimp only at h
    split_ifs at h
    split at h
    · rename_i drawn hdrawn
      cases h
      exact mem_of_mem_filter (Tiers.mem_of_draw hdrawn)
    · cases h

theorem mem_of_pick {channels : List Nat} (h : x.pick channels retry random = .ok (some c)) : c.1 ∈ channels := by
  unfold ChannelCache.pick at h
  split at h
  · cases h
  · obtain ⟨found, hfound, h⟩ := bind_eq_ok.mp h
    cases h
    rw [(findChannel_eq_ok.mp hfound).1]
    exact mem_singleton.mpr rfl
  · obtain ⟨_, hfound, h⟩ := bind_eq_ok.mp h
    exact ((mem_of_mapM_findChannel hfound).mp (mem_of_pickTier h)).1

theorem not_answered (h : ∀ group model, id ∉ x.listed group model) :
    (∀ (regexps : Regexps) (group model : Text) (retry : Int) (filters : List ChannelFilter)
      (random : Nat) (c : Channel),
      x.getRandomSatisfiedChannel regexps group model retry filters random ≠ .ok (some (id, c))) ∧
    ∀ group model, x.isChannelEnabledForGroupModel group model id = false := by
  constructor
  · intro regexps group model retry filters random c hfound
    have hmem := mem_of_pick hfound
    split_ifs at hmem
    · exact h _ _ (candidates_subset hmem)
    · exact h _ _ (candidates_subset hmem)
  · intro group model
    simp [ChannelCache.isChannelEnabledForGroupModel, h]

/-! ## How often a channel is listed -/

/-- `group2model2channels[group][model]`. -/
def entries (m : GroupMap) (group model : Text) : List Nat := (m group).elim [] fun inner => inner model

/-- A loop body that appends these entries, when it succeeds. -/
def Appends {β : Type} (f : GroupMap → β → Except CachePanic GroupMap) (added : β → Text → Text → List Nat) : Prop :=
  ∀ m b m', f m b = .ok m' → ∀ group model, entries m' group model = entries m group model ++ added b group model

theorem Appends.foldlM {β : Type} {f : GroupMap → β → Except CachePanic GroupMap} {added : β → Text → Text → List Nat}
    (h : Appends f added) :
    Appends (fun m l => List.foldlM f m l) fun l group model => l.flatMap fun b => added b group model := by
  intro m l m' hm' group model
  induction l generalizing m with
  | nil =>
    cases hm'
    exact (append_nil _).symm
  | cons b l ih =>
    dsimp only at hm' ih ⊢
    obtain ⟨m1, hm1, hm'⟩ := bind_eq_ok.mp hm'
    rw [ih m1 hm', h m b m1 hm1, flatMap_cons, append_assoc]

theorem appends_append (id : Nat) (group : Text) :
    Appends (GroupMap.append id group) fun model g m => if g = group ∧ m = model then [id] else [] := by
  intro m model m' hm' g model'
  unfold GroupMap.append at hm'
  cases hm : m group with
  | none =>
    rw [hm] at hm'
    cases hm'
  | some =>
    rw [hm] at hm'
    cases hm'
    unfold entries
    by_cases hg : g = group
    · subst hg
      by_cases hmodel : model' = model
      · simp [hm, hmodel]
      · simp [hm, hmodel]
    · simp [hg]

theorem flatMap_ite_eq {α : Type} [BEq α] [LawfulBEq α] [DecidableEq α] (l : List α) (a : α) (n : Nat) (id : Nat) :
    (l.flatMap fun b => if a = b then List.replicate n id else []) = List.replicate (l.count a * n) id := by
  induction l with
  | nil => simp
  | cons b l ih =>
    rw [flatMap_cons, ih]
    by_cases hb : a = b
    · subst hb
      rw [if_pos rfl, count_cons_self, Nat.succ_mul, Nat.add_comm, replicate_add]
    · rw [if_neg hb, nil_append, count_cons_of_ne (Ne.symm hb)]

theorem appends_enter : Appends GroupMap.enter fun c group model =>
    List.replicate (c.groups.count group * c.models.count model) c.id := by
  have hmodels : ∀ c : Member, Appends (fun m group => List.foldlM (GroupMap.append c.id group) m c.models)
      fun group g m => if g = group then List.replicate (c.models.count m) c.id else [] := by
    intro c m group m' hm' g model
    rw [(appends_append c.id group).foldlM m c.models m' hm']
    by_cases hg : g = group
    · have hones := flatMap_ite_eq c.models model 1 c.id
      rw [Nat.mul_one] at hones
      simp only [hg, true_and]
      exact congrArg _ hones
    · simp [hg]
  intro m c m' hm' group model
  rw [(hmodels c).foldlM m c.groups m' hm']
  exact congrArg _ (flatMap_ite_eq c.groups group _ c.id)

theorem entries_buildGroups {groups : List Text} {channels : List Member} {m : GroupMap}
    (h : buildGroups groups channels = .ok m) (group model : Text) :
    entries m group model = channels.flatMap fun c =>
    List.replicate (c.groups.count group * c.models.count model) c.id := by
  rw [appends_enter.foldlM _ channels m h]
  have hempty : entries (.ofGroups groups) group model = [] := by
    unfold entries GroupMap.ofGroups
    split_ifs
    · rfl
    · rfl
  rw [hempty, nil_append]

theorem count_flatMap_replicate {l : List Member} (hl : (l.map Member.id).Nodup) (n : Member → Nat) (id : Nat) :
    (l.flatMap fun c => List.replicate (n c) c.id).count id = ((l.find? fun c => c.id = id).map n).getD 0 := by
  induction l with
  | nil => rfl
  | cons c l ih =>
    rw [map_cons, nodup_cons] at hl
    rw [flatMap_cons, count_append, ih hl.2, count_replicate]
    by_cases hid : c.id = id
    · have hnone : l.find? (fun c => c.id = id) = none := by
        refine find?_eq_none.mpr fun c' hc' hsame => hl.1 ?_
        rw [hid, ← of_decide_eq_true hsame]
        exact mem_map_of_mem hc'
      simp [hid, hnone]
    · simp [hid]

theorem members_ids_nodup {channels : Table Channel} :
    ((members (channels.select fun _ => true)).map Member.id).Nodup := by
  have hids : ((channels.select fun _ => true).map Prod.fst).Nodup :=
    pairwise_map.mpr ((channels.select_ids_lt _).imp fun h => h.ne)
  refine hids.sublist ?_
  rw [members, List.map_map]
  exact Sublist.map _ filter_sublist

theorem find?_members (channels : Table Channel) (id : Nat) :
    (members (channels.select fun _ => true)).find? (fun c => c.id = id) =
      ((channels.get? id).filter fun c => c.status = channelStatusEnabled).map fun c =>
      ⟨id, c.groups, c.modelNames⟩ := by
  have hrow : ∀ member ∈ members (channels.select fun _ => true), member.id = id →
      ∃ c, channels.get? id = some c ∧ c.status = channelStatusEnabled ∧ member = ⟨id, c.groups, c.modelNames⟩ := by
    rintro member hmember rfl
    obtain ⟨⟨i, c⟩, hc, rfl⟩ := mem_map.mp hmember
    obtain ⟨hselect, henabled⟩ := mem_filter.mp hc
    exact ⟨c, (Table.mem_select_iff.mp hselect).1, by simpa using henabled, rfl⟩
  cases hfind : (members (channels.select fun _ => true)).find? (fun c => c.id = id) with
  | some member =>
    have hid : member.id = id := by simpa using find?_some hfind
    obtain ⟨c, hc, henabled, rfl⟩ := hrow member (mem_of_find?_eq_some hfind) hid
    simp [hc, henabled]
  | none =>
    refine Eq.symm (map_eq_none_iff.mpr (filter_eq_none_iff.mpr fun c hc henabled => ?_))
    have hmember : (⟨id, c.groups, c.modelNames⟩ : Member) ∈ members (channels.select fun _ => true) :=
      mem_map.mpr ⟨(id, c), mem_filter.mpr ⟨Table.mem_select_iff.mpr ⟨hc, rfl⟩, by simpa using henabled⟩, rfl⟩
    exact find?_eq_none.mp hfind _ hmember (decide_eq_true rfl)

/-- A cache that a rebuild can leave: the order within a priority is open. -/
def ChannelCache.BuiltFrom (x : ChannelCache) (s : Tables) : Prop :=
  ∃ built, initChannelCache s = .ok built ∧ x.channelsIDM = built.channelsIDM ∧
    ∀ group model, (x.listed group model).Perm (built.listed group model)

/-- How often a channel names the group and the model. -/
def Channel.multiplicity (c : Channel) (group model : Text) : Nat :=
  if c.status = channelStatusEnabled then c.groups.count group * c.modelNames.count model else 0

theorem count_listed {s : Tables} (h : x.BuiltFrom s) (id : Nat) (group model : Text) :
    (x.listed group model).count id = ((s.channels.get? id).map fun c => c.multiplicity group model).getD 0 := by
  obtain ⟨_, hbuilt, -, hperm⟩ := h
  obtain ⟨m, hm, hbuilt⟩ := bind_eq_ok.mp hbuilt
  cases hbuilt
  have hsorted : ∀ idm idm' : Nat → Option Channel,
      ((ChannelCache.mk (sortByPriority idm m) idm').listed group model).Perm (entries m group model) := by
    intro idm idm'
    unfold ChannelCache.listed sortByPriority entries
    dsimp only
    cases m group with
    | none => exact .refl _
    | some => exact mergeSort_perm _ _
  rw [(hperm group model).count_eq, (hsorted _ _).count_eq, entries_buildGroups hm,
    count_flatMap_replicate members_ids_nodup, find?_members]
  cases s.channels.get? id with
  | none => rfl
  | some c =>
    unfold Channel.multiplicity
    by_cases henabled : c.status = channelStatusEnabled
    · rw [filter_some, if_pos (by simpa using henabled)]
      simp [henabled]
    · rw [filter_some, if_neg (by simpa using henabled)]
      simp [henabled]

/-! ## When the channel is gone -/

/-- The texts of the channel name no group and no model twice. -/
structure Channel.NamesOnce (c : Channel) : Prop where
  groups : c.groups.Nodup
  models : c.modelNames.Nodup

theorem multiplicity_le_one_iff {c : Channel} (henabled : c.status = channelStatusEnabled) :
    (∀ group model, c.multiplicity group model ≤ 1) ↔ c.NamesOnce := by
  obtain ⟨group0, hgroup0⟩ := exists_mem_of_ne_nil c.groups (splitOn_ne_nil _ _)
  obtain ⟨model0, hmodel0⟩ := exists_mem_of_ne_nil c.modelNames (splitOn_ne_nil _ _)
  simp only [Channel.multiplicity, if_pos henabled]
  constructor
  · intro h
    refine ⟨nodup_iff_count_le_one.mpr fun group => ?_, nodup_iff_count_le_one.mpr fun model => ?_⟩
    · have hpos : 0 < c.modelNames.count model0 := count_pos_iff.mpr hmodel0
      exact (Nat.le_mul_of_pos_right _ hpos).trans (h group model0)
    · have hpos : 0 < c.groups.count group0 := count_pos_iff.mpr hgroup0
      exact (Nat.le_mul_of_pos_left _ hpos).trans (h group0 model)
  · intro h group model
    exact Nat.mul_le_mul (nodup_iff_count_le_one.mp h.groups group) (nodup_iff_count_le_one.mp h.models model)

theorem filter_erase_ne {l : List Nat} : (l.erase id).filter (· ≠ id) = l.filter (· ≠ id) := by
  induction l with
  | nil => rfl
  | cons i l ih =>
    by_cases hi : i = id
    · subst hi
      rw [erase_cons_head, filter_cons_of_neg (by simp)]
    · rw [erase_cons_tail (by simpa using hi), filter_cons_of_pos (by simpa using hi),
        filter_cons_of_pos (by simpa using hi), ih]

/-- The channel is gone from the cache, now and until the next rebuild, and nothing else is. -/
structure ChannelCache.Gone (x : ChannelCache) (id : Nat) (status : Int) : Prop where
  unlisted : ∀ group model, id ∉ (x.cacheUpdateChannelStatus id status).listed group model
  others : ∀ group model, ((x.cacheUpdateChannelStatus id status).listed group model).filter (· ≠ id) =
    (x.listed group model).filter (· ≠ id)
  notSelected : ∀ (l : List CacheEvent) (regexps : Regexps) (group model : Text) (retry : Int)
    (filters : List ChannelFilter)
    (random : Nat) (c : Channel),
      (run ChannelCache.step (x.cacheUpdateChannelStatus id status) l).getRandomSatisfiedChannel
      regexps group model retry filters random ≠ .ok (some (id, c))
  notEnabled : ∀ (l : List CacheEvent) (group model : Text),
    (run ChannelCache.step (x.cacheUpdateChannelStatus id status) l).isChannelEnabledForGroupModel
      group model id = false

theorem gone_of_unlisted (hstatus : status ≠ channelStatusEnabled)
    (h : ∀ group model, id ∉ (x.cacheUpdateChannelStatus id status).listed group model) : x.Gone id status := by
  have hrun : ∀ (l : List CacheEvent) (group model : Text),
      id ∉ (run ChannelCache.step (x.cacheUpdateChannelStatus id status) l).listed group model :=
    fun l group model hmem => h group model ((listed_run_sublist _ l group model).subset hmem)
  refine ⟨h, fun group model => ?_, fun l => (not_answered (hrun l)).1, fun l => (not_answered (hrun l)).2⟩
  rw [listed_updateStatus hstatus]
  exact filter_erase_ne

/-- In each cache that was built: a channel whose status is no longer enabled is gone from it if and only if the
channel was not listed, or its texts name no group and no model twice. -/
theorem disabled_channel_is_gone_iff (s : Tables) (x : ChannelCache) (hbuilt : x.BuiltFrom s) (id : Nat) (status : Int)
    (hstatus : status ≠ channelStatusEnabled) :
    x.Gone id status ↔ ∀ c, s.channels.get? id = some c → c.status = channelStatusEnabled → c.NamesOnce := by
  have hunlisted : (∀ group model, id ∉ (x.cacheUpdateChannelStatus id status).listed group model) ↔
      ∀ group model, ((s.channels.get? id).map fun c => c.multiplicity group model).getD 0 ≤ 1 := by
    refine forall₂_congr fun group model => ?_
    rw [listed_updateStatus hstatus, ← count_eq_zero, count_erase_self, count_listed hbuilt]
    omega
  have hgone : x.Gone id status ↔ ∀ group model, id ∉ (x.cacheUpdateChannelStatus id status).listed group model :=
    ⟨fun h => h.unlisted, gone_of_unlisted hstatus⟩
  rw [hgone, hunlisted]
  cases hc : s.channels.get? id with
  | none => simp
  | some c =>
    simp only [map_some, getD_some, Option.some.injEq, forall_eq']
    by_cases henabled : c.status = channelStatusEnabled
    · rw [multiplicity_le_one_iff henabled]
      exact ⟨fun h _ => h, fun h => h henabled⟩
    · simp [Channel.multiplicity, henabled]

theorem exists_builtFrom (channels : Table Channel) :
    ∃ x, initChannelCache (.ofChannels channels) = .ok x ∧ x.BuiltFrom (.ofChannels channels) := by
  obtain ⟨x, hx, -⟩ := exists_initChannelCache (projects_ofChannels channels)
  exact ⟨x, hx, x, hx, rfl, fun _ _ => .refl _⟩

def vipChannel (models : Text) : Channel where
  status := channelStatusEnabled
  models := models
  group := text "vip"

def vipTables (models : Text) : Tables := .ofChannels (Table.empty.insert (vipChannel models))

theorem disabled_channel_is_gone_iff_vip :
    ∃ x : ChannelCache, x.BuiltFrom (vipTables (text "gpt-4o,o3")) ∧ (x.Gone 1 2 ↔
      ∀ c, (vipTables (text "gpt-4o,o3")).channels.get? 1 = some c →
      c.status = channelStatusEnabled → c.NamesOnce) := by
  obtain ⟨x, -, hbuilt⟩ := exists_builtFrom (Table.empty.insert (vipChannel (text "gpt-4o,o3")))
  exact ⟨x, hbuilt, disabled_channel_is_gone_iff (vipTables (text "gpt-4o,o3")) x hbuilt 1 2 (by decide)⟩

/-- A channel whose models name one twice is still taken to be enabled after it was disabled. -/
theorem doubled_channel_stays_listed : ∃ x, initChannelCache (vipTables (text "gpt-4o,gpt-4o")) = .ok x ∧
    (x.cacheUpdateChannelStatus 1 2).isChannelEnabledForGroupModel (text "vip") (text "gpt-4o") 1 = true ∧
    ¬x.Gone 1 2 := by
  obtain ⟨x, hx, hbuilt⟩ := exists_builtFrom (Table.empty.insert (vipChannel (text "gpt-4o,gpt-4o")))
  have hcount : (x.listed (text "vip") (text "gpt-4o")).count 1 = 2 := by
    rw [count_listed hbuilt]
    decide
  have hlisted : 1 ∈ (x.cacheUpdateChannelStatus 1 2).listed (text "vip") (text "gpt-4o") := by
    rw [listed_updateStatus (by decide), ← count_pos_iff, count_erase_self, hcount]
    decide
  refine ⟨x, hx, ?_, fun hgone => hgone.unlisted _ _ hlisted⟩
  unfold ChannelCache.isChannelEnabledForGroupModel
  rw [if_neg (by decide), if_pos hlisted]

end CubeRouter.Routing.Selection
