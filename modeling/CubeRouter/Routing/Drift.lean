import CubeRouter.Routing.Projection

/-!
# Where the abilities drift from the channels

The operations on channels as one machine, with `Tables.Faithful` for the steps after which the abilities are still the
projection of the channels. Three of the ways in which the table is kept up miss a case: disabled channels are deleted
without their abilities, a weight of zero is not copied by an edit of a tag, and of two pairs of names with the same key
`group|model` only the first gets its row. An update of a channel that is gone makes rows for it.
-/

namespace CubeRouter.Routing

open Relational Strings Transition List Option Table

inductive Event
  | insert (f : ChannelFields)
  | batchInsertChannels (fields : List ChannelFields)
  | update (id : Nat) (f : ChannelFields)
  | updateChannelStatus (cache : MemoryCache) (channelId : Nat) (usingKey : Text) (status : Int) (reason : String)
      (now : Int)
  | enableChannelByTag (tag : Text)
  | disableChannelByTag (tag : Text)
  | editChannelByTag (tag : Text) (edit : TagEdit)
  | delete (id : Nat)
  | batchDeleteChannels (ids : List Nat)
  | deleteDisabledChannel
  | fixAbility

def Tables.step (config : Config) (s : Tables) : Event → Tables
  | .insert f => s.insert f
  | .batchInsertChannels fields => s.batchInsertChannels fields
  | .update id f => s.update config id f
  | .updateChannelStatus cache channelId usingKey status reason now =>
    s.updateChannelStatus config cache channelId usingKey status reason now
  | .enableChannelByTag tag => s.enableChannelByTag tag
  | .disableChannelByTag tag => s.disableChannelByTag tag
  | .editChannelByTag tag edit => s.editChannelByTag tag edit
  | .delete id => s.delete id
  | .batchDeleteChannels ids => s.batchDeleteChannels ids
  | .deleteDisabledChannel => s.deleteDisabledChannel
  | .fixAbility => s.fixAbility

/-- The step misses nothing. -/
def Tables.Faithful (s : Tables) : Event → Prop
  | .insert f => f.row.Clashless
  | .batchInsertChannels fields => ∀ f ∈ fields, f.row.Clashless
  | .update id f =>
    match s.channels.get? id with
    | some c => (f.updates c).Clashless
    | none => id = 0
  | .editChannelByTag tag edit =>
    ∀ c ∈ s.channels.select fun c => c.tag = some tag,
      (edit.updates c.2).Clashless ∧ (edit.shouldReCreateAbilities ∨ edit.weight ≠ some 0 ∨ c.2.weight = 0)
  | .deleteDisabledChannel => s.channels.select Channel.isDisabled = []
  | _ => True

/-- What a step starts from. -/
structure Tables.Consistent (s : Tables) : Prop where
  projects : s.Projects
  clashless : ∀ id c, s.channels.get? id = some c → c.Clashless

/-! ## Inserts -/

variable {s s' : Tables} {id : Nat} {c : Channel} {edit : TagEdit}

theorem Tables.Consistent.free (h : s.Consistent) (hnone : s.channels.get? id = none) : Free s.abilities id :=
  (projectsAt_of_none hnone).mp (h.projects id)

variable {j : Nat} {f : ChannelFields} {fields : List ChannelFields} {config : Config} {g : Nat → Channel → Channel}
  {usingKey tag : Text} {status now : Int} {reason : String}

theorem projectsAt_insert_of_ne (s : Tables) (f : ChannelFields) (hj : j ≠ s.channels.next) :
    ProjectsAt (s.insert f) j ↔ ProjectsAt s j := by
  apply projectsAt_congr
  · exact (Table.get?_insert s.channels f.row j).trans (if_neg hj)
  · exact find?_addAbilities_of_ne hj f.row s.abilities

/-- The rows of one channel are written and the others are right: all depends on this one. -/
theorem Written.projects_iff_of_ne (hc : s.channels.get? id = some c) (h : Written s.abilities id c)
    (hothers : ∀ j, j ≠ id → ProjectsAt s j) : s.Projects ↔ c.Clashless := by
  rw [← h.projects_iff hc]
  refine ⟨fun hproj => hproj id, fun hat j => ?_⟩
  by_cases hj : j = id
  · rw [hj]
    exact hat
  · exact hothers j hj

theorem projects_insert_iff (h : s.Consistent) : (s.insert f).Projects ↔ f.row.Clashless := by
  have hnone : s.channels.get? s.channels.next = none := s.channels.row_fresh _ le_rfl
  have hwritten : Written (s.insert f).abilities s.channels.next f.row := written_addAbilities f.row (h.free hnone)
  refine hwritten.projects_iff_of_ne (Table.get?_insert_self s.channels f.row) fun j hj => ?_
  exact (projectsAt_insert_of_ne s f hj).mpr (h.projects j)

theorem consistent_insert (h : s.Consistent) (hf : f.row.Clashless) : (s.insert f).Consistent := by
  refine ⟨(projects_insert_iff h).mpr hf, fun id c hc => ?_⟩
  rw [show (s.insert f).channels = s.channels.insert f.row from rfl, Table.get?_insert] at hc
  split_ifs at hc
  · cases hc
    exact hf
  · exact h.clashless id c hc

theorem consistent_batchInsertChannels (h : s.Consistent)
    (hf : ∀ f ∈ fields, f.row.Clashless) : (s.batchInsertChannels fields).Consistent := by
  induction fields generalizing s with
  | nil => exact h
  | cons f _ ih =>
    exact ih (consistent_insert h (hf f mem_cons_self)) fun f' hf' => hf f' (mem_cons_of_mem f hf')

theorem projectsAt_batchInsertChannels_of_lt (s : Tables) (fields : List ChannelFields)
    (hj : j < s.channels.next) : ProjectsAt (s.batchInsertChannels fields) j ↔ ProjectsAt s j := by
  induction fields generalizing s with
  | nil => exact Iff.rfl
  | cons f _ ih =>
    have hj' : j < (s.insert f).channels.next := Nat.lt_succ_of_lt hj
    exact (ih (s.insert f) hj').trans (projectsAt_insert_of_ne s f hj.ne)

theorem projects_batchInsertChannels_iff (h : s.Consistent) :
    (s.batchInsertChannels fields).Projects ↔ ∀ f ∈ fields, f.row.Clashless := by
  refine ⟨fun hproj => ?_, fun hf => (consistent_batchInsertChannels h hf).projects⟩
  induction fields generalizing s with
  | nil => simp
  | cons f fields ih =>
    have hfirst : f.row.Clashless := by
      rw [← projects_insert_iff h]
      intro j
      by_cases hj : j < (s.insert f).channels.next
      · exact (projectsAt_batchInsertChannels_of_lt _ fields hj).mp (hproj j)
      · have hj' : j ≠ s.channels.next := fun hj' => hj (hj' ▸ Nat.lt_succ_self _)
        exact (projectsAt_insert_of_ne s f hj').mpr (h.projects j)
    exact forall_mem_cons.mpr ⟨hfirst, ih (consistent_insert h hfirst) hproj⟩

/-! ## Update -/

theorem recount_names (config : Config) (s : Tables) (id : Nat) (f : ChannelFields) :
    (config.recount s id f).models = f.models ∧ (config.recount s id f).group = f.group := by
  unfold Config.recount
  cases f.channelInfo.isMultiKey with
  | false | true => exact ⟨rfl, rfl⟩

theorem clashless_recount_iff (config : Config) (s : Tables) (id : Nat) (f : ChannelFields) (c : Channel) :
    ((config.recount s id f).updates c).Clashless ↔ (f.updates c).Clashless := by
  obtain ⟨hmodels, hgroup⟩ := recount_names config s id f
  have hmodels' : ((config.recount s id f).updates c).models = (f.updates c).models := by
    simp [ChannelFields.updates, hmodels]
  have hgroup' : ((config.recount s id f).updates c).group = (f.updates c).group := by
    simp [ChannelFields.updates, hgroup]
  exact ⟨fun h => h.congr hmodels'.symm hgroup'.symm, fun h => h.congr hmodels' hgroup'⟩

theorem update_of_ne_zero (hid : id ≠ 0) : ∃ c, s.update config id f =
      { channels := s.channels.modify id (config.recount s id f).updates
        abilities := c.updateAbilities id s.abilities } ∧
      ∀ c', s.channels.get? id = some c' → c = (config.recount s id f).updates c' := by
  rw [Tables.update, if_neg hid]
  refine ⟨_, rfl, fun c' hc' => ?_⟩
  rw [Table.get?_modify_self, hc']
  rfl

theorem projects_update_iff (h : s.Consistent) : (s.update config id f).Projects ↔ s.Faithful (.update id f) := by
  rw [Tables.Faithful]
  by_cases hid : id = 0
  · have hnone : s.channels.get? id = none := by
      rw [hid]
      exact s.channels.row_zero
    rw [Tables.update, if_pos hid, hnone]
    exact iff_of_true h.projects hid
  · obtain ⟨c, hs', hread⟩ := update_of_ne_zero hid
    have hrow : (s.update config id f).channels.get? id = (s.channels.get? id).map (config.recount s id f).updates := by
      rw [hs']
      exact Table.get?_modify_self s.channels id _
    have hwritten : Written (s.update config id f).abilities id c := by
      rw [hs']
      exact written_updateAbilities id c s.abilities
    have hothers : ∀ j, j ≠ id → ProjectsAt (s.update config id f) j := by
      intro j hj
      rw [hs', projectsAt_congr (Table.get?_modify_of_ne s.channels _ hj)
        (find?_updateAbilities_of_ne hj c s.abilities)]
      exact h.projects j
    cases hc : s.channels.get? id with
    | none =>
      rw [hc, map_none] at hrow
      refine iff_of_false (fun hproj => ?_) hid
      exact hwritten.not_free ((projectsAt_of_none hrow).mp (hproj id))
    | some old =>
      rw [hc, map_some, ← hread old hc] at hrow
      rw [hwritten.projects_iff_of_ne hrow hothers, hread old hc, clashless_recount_iff]

theorem consistent_update (h : s.Consistent) (hf : s.Faithful (.update id f)) :
    (s.update config id f).Consistent := by
  refine ⟨(projects_update_iff h).mpr hf, fun j c hc => ?_⟩
  by_cases hid : id = 0
  · rw [Tables.update, if_pos hid] at hc
    exact h.clashless j c hc
  · obtain ⟨_, hs', _⟩ := update_of_ne_zero hid
    rw [hs'] at hc
    change (s.channels.modify id (config.recount s id f).updates).get? j = some c at hc
    rw [Table.get?_modify] at hc
    split_ifs at hc with hj
    · subst hj
      obtain ⟨_, hold, rfl⟩ := map_eq_some_iff.mp hc
      rw [clashless_recount_iff]
      rw [Tables.Faithful, hold] at hf
      exact hf
    · exact h.clashless j c hc

/-! ## Setting columns -/

/-- Rows and channels are changed in place: the table stays the projection when each new row has the columns of the
new channel. -/
theorem projects_map_iff {h : Ability → Ability} (hs : s.Projects)
    (hc : ∀ id, s'.channels.get? id = (s.channels.get? id).map (g id))
    (hnames : ∀ id c, s.channels.get? id = some c → (g id c).models = c.models ∧ (g id c).group = c.group)
    (ha : ∀ k, s'.abilities.find? k = (s.abilities.find? k).map h) : s'.Projects ↔
      ∀ id c, s.channels.get? id = some c → ∀ p ∈ c.pairs, h (c.ability id p) = (g id c).ability id p := by
  have hrow : ∀ id c, s.channels.get? id = some c → ∀ group model,
      s'.abilities.find? (group, model, id) = (c.projected id group model).map h := by
    intro id c hget group model
    rw [ha, hs id group model, hget, bind_some]
  have hproj : ∀ id c, s.channels.get? id = some c → ∀ group model,
      (g id c).projected id group model =
        if group ∈ c.groups_ ∧ model ∈ c.models_ then some ((g id c).ability id (group, model)) else none := by
    intro id c hget group model
    obtain ⟨hmodels, hgroup⟩ := hnames id c hget
    refine if_congr ?_ rfl rfl
    rw [Channel.groups_, hgroup, Channel.models_, hmodels]
    rfl
  constructor
  · rintro hs' id c hget ⟨group, model⟩ hp
    have hat := hs' id group model
    rw [hrow id c hget, hc, hget, map_some, bind_some, hproj id c hget, Channel.projected,
      if_pos (mem_pairs.mp hp), if_pos (mem_pairs.mp hp)] at hat
    exact Option.some.inj hat
  · intro hcols id group model
    rw [hc]
    cases hget : s.channels.get? id with
    | none =>
      rw [ha, hs id group model, hget]
      rfl
    | some c =>
      rw [hrow id c hget, map_some, bind_some, hproj id c hget, Channel.projected]
      split_ifs with hp
      · rw [map_some, hcols id c hget (group, model) (mem_pairs.mpr hp)]
      · rfl

theorem clashless_map (h : s.Consistent) (hc : ∀ id, s'.channels.get? id = (s.channels.get? id).map (g id))
    (hnames : ∀ id c, s.channels.get? id = some c → (g id c).models = c.models ∧ (g id c).group = c.group) (id : Nat)
    (c : Channel) (hget : s'.channels.get? id = some c) : c.Clashless := by
  rw [hc] at hget
  obtain ⟨old, hold, rfl⟩ := map_eq_some_iff.mp hget
  obtain ⟨hmodels, hgroup⟩ := hnames id old hold
  exact (h.clashless id old hold).congr hmodels hgroup

theorem hasEnabledMultiKey_delete {keys : List Text} {i : Nat} (hi : i < keys.length) (m : IntMap Int) :
    hasEnabledMultiKey keys (IntMap.delete m i) = true := by
  have hlookup : (IntMap.delete m i).lookup i = none := by
    rw [IntMap.delete, lookup_eq_none_iff]
    intro e he
    have hne : e.1 ≠ i := by simpa using (mem_filter.mp he).2
    simpa using hne.symm
  rw [hasEnabledMultiKey, List.any_eq_true]
  exact ⟨i, mem_range.mpr hi, by rw [hlookup]; rfl⟩

/-- Only the status and what explains it are written, and when the status changes the channel becomes enabled only if
that was asked for. -/
def Channel.FollowsStatus (c c' : Channel) (status : Int) : Prop :=
  ∃ newStatus otherInfo channelInfo,
    c' = { c with status := newStatus, otherInfo := otherInfo, channelInfo := channelInfo } ∧
    (c.status ≠ newStatus → (newStatus = channelStatusEnabled ↔ status = channelStatusEnabled))

theorem followsStatus_handlerMultiKeyUpdate :
    c.FollowsStatus (config.handlerMultiKeyUpdate c usingKey status reason now) status := by
  unfold Config.handlerMultiKeyUpdate
  by_cases hkeys : config.getKeys c.key = []
  · rw [if_pos hkeys]
    exact ⟨status, c.otherInfo, c.channelInfo, rfl, fun _ => Iff.rfl⟩
  rw [if_neg hkeys]
  cases hindex : (config.getKeys c.key).findIdx? (· = usingKey) with
  | none =>
    by_cases husing : usingKey ≠ []
    · rw [if_pos husing]
      exact ⟨c.status, c.otherInfo, c.channelInfo, rfl, fun hne => absurd rfl hne⟩
    · rw [if_neg husing]
      exact ⟨status, _, c.channelInfo, rfl, fun _ => Iff.rfl⟩
  | some i =>
    have hi : i < (config.getKeys c.key).length := (findIdx?_eq_some_iff_findIdx_eq.mp hindex).1
    dsimp only
    by_cases hstatus : status = channelStatusEnabled
    · rw [if_pos hstatus, if_neg (by simp [hasEnabledMultiKey_delete hi]), if_pos hstatus]
      exact ⟨channelStatusEnabled, c.otherInfo, _, rfl, fun _ => iff_of_true rfl hstatus⟩
    · split_ifs
      · exact ⟨c.status, c.otherInfo, _, rfl, fun hne => absurd rfl hne⟩
      · refine ⟨channelStatusAutoDisabled, _, _, rfl, fun _ => iff_of_false ?_ hstatus⟩
        decide

theorem followsStatus_withStatus (config : Config) (c : Channel) (usingKey : Text) (status : Int) (reason : String)
    (now : Int) : c.FollowsStatus (config.withStatus c usingKey status reason now) status := by
  unfold Config.withStatus
  split_ifs
  · exact followsStatus_handlerMultiKeyUpdate
  · exact ⟨status, _, c.channelInfo, rfl, fun _ => Iff.rfl⟩

/-- The channel gets its new status, and its abilities when that is another one. -/
theorem consistent_modify_status (h : s.Consistent) {c' : Channel} (hget : s.channels.get? id = some c)
    (hc' : c.FollowsStatus c' status) : Tables.Consistent {
      channels := s.channels.modify id fun _ => c'
      abilities :=
        if c.status = c'.status then s.abilities
        else updateAbilityStatus id (status = channelStatusEnabled) s.abilities } := by
  obtain ⟨newStatus, otherInfo, channelInfo, rfl, hfollows⟩ := hc'
  set c' : Channel := { c with status := newStatus, otherInfo := otherInfo, channelInfo := channelInfo } with hc'
  have hchannels : ∀ j, (s.channels.modify id fun _ => c').get? j =
      (s.channels.get? j).map fun old => if j = id then c' else old := by
    intro j
    rw [Table.get?_modify]
    split_ifs
    · rfl
    · rw [Option.map_id']
  have hnames : ∀ j old, s.channels.get? j = some old →
      (if j = id then c' else old).models = old.models ∧ (if j = id then c' else old).group = old.group := by
    intro j old hold
    split_ifs with hj
    · rw [hj, hget] at hold
      cases hold
      exact ⟨rfl, rfl⟩
    · exact ⟨rfl, rfl⟩
  refine ⟨?_, clashless_map h hchannels hnames⟩
  by_cases hstatus : c.status = newStatus
  · rw [if_pos hstatus]
    refine Iff.mpr (projects_map_iff h.projects hchannels hnames fun k => Option.map_id'.symm) fun j old hold p _ => ?_
    split_ifs with hj
    · rw [hj, hget] at hold
      cases hold
      simp [Channel.ability, hc', ← hstatus]
    · rfl
  · rw [if_neg hstatus]
    refine Iff.mpr (projects_map_iff h.projects hchannels hnames (find?_updateAbilityStatus id _ s.abilities))
      fun j old hold p _ => ?_
    by_cases hj : j = id
    · rw [hj, hget] at hold
      cases hold
      simp [Channel.ability, hc', hj, hfollows hstatus]
    · simp [Channel.ability, hj]

theorem consistent_updateChannelStatus (h : s.Consistent) {cache : MemoryCache} {channelId : Nat} :
    (s.updateChannelStatus config cache channelId usingKey status reason now).Consistent := by
  unfold Tables.updateChannelStatus
  by_cases hskips : cache.skips status
  · rw [if_pos hskips]
    exact h
  rw [if_neg hskips]
  cases hget : s.channels.get? channelId with
  | none => exact h
  | some c =>
    dsimp only
    by_cases hsame : c.status = status
    · rw [if_pos hsame]
      exact h
    · rw [if_neg hsame]
      exact consistent_modify_status h hget (followsStatus_withStatus config c usingKey status reason now)

theorem consistent_setStatusByTag (h : s.Consistent) {enabled : Bool}
    (hstatus : enabled = decide (status = channelStatusEnabled)) :
    (s.setStatusByTag status enabled tag).Consistent := by
  have hchannels := Table.get?_updateWhere s.channels (fun c => c.tag = some tag) fun c => { c with status := status }
  have hnames : ∀ (id : Nat) (c : Channel), s.channels.get? id = some c →
      (if decide (c.tag = some tag) then { c with status := status } else c).models = c.models ∧
        (if decide (c.tag = some tag) then { c with status := status } else c).group = c.group := by
    intro id c _
    split_ifs
    · exact ⟨rfl, rfl⟩
    · exact ⟨rfl, rfl⟩
  refine ⟨?_, clashless_map h hchannels hnames⟩
  refine Iff.mpr (projects_map_iff h.projects hchannels hnames (find?_updateAbilityStatusByTag tag enabled s.abilities))
    fun id c _ p _ => ?_
  by_cases htag : c.tag = some tag
  · simp [Channel.ability, htag, hstatus]
  · simp [Channel.ability, htag]

/-! ## Edit of a tag -/

def edited (tag : Text) (edit : TagEdit) (c : Channel) : Channel := if c.tag = some tag then edit.updates c else c

theorem get?_editChannelByTag (s : Tables) (id : Nat) :
    (s.editChannelByTag tag edit).channels.get? id = (s.channels.get? id).map (edited tag edit) := by
  have hget := Table.get?_updateWhere s.channels (fun c => c.tag = some tag) edit.updates id
  simp only [decide_eq_true_eq] at hget
  exact hget

theorem edited_names (hedit : edit.shouldReCreateAbilities = false) (c : Channel) :
    (edited tag edit c).models = c.models ∧ (edited tag edit c).group = c.group := by
  simp only [TagEdit.shouldReCreateAbilities, Bool.or_eq_false_iff, isSome_eq_false_iff, isNone_iff_eq_none] at hedit
  unfold edited
  split_ifs
  · simp [TagEdit.updates, hedit.1, hedit.2]
  · exact ⟨rfl, rfl⟩

theorem edited_of_tag_ne (h : (edited tag edit c).tag ≠ some (edit.newTag.getD tag)) : edited tag edit c = c := by
  unfold edited at h ⊢
  split_ifs at h ⊢ with htag
  · cases hnew : edit.newTag with
    | none => simp [TagEdit.updates, htag] at h
    | some => simp [TagEdit.updates, hnew] at h
  · rfl

theorem edited_clashless_iff (h : s.Consistent) (tag : Text) :
    (∀ id c, (s.editChannelByTag tag edit).channels.get? id = some c → c.Clashless) ↔
      ∀ c ∈ s.channels.select fun c => c.tag = some tag, (edit.updates c.2).Clashless := by
  constructor
  · rintro hclash ⟨id, c⟩ hc
    obtain ⟨hget, htag⟩ := mem_select_iff.mp hc
    have hedited : edited tag edit c = edit.updates c := if_pos (by simpa using htag)
    rw [← hedited]
    apply hclash id
    rw [get?_editChannelByTag, hget, map_some]
  · intro hclash id c' hget
    rw [get?_editChannelByTag] at hget
    obtain ⟨c, hc, rfl⟩ := map_eq_some_iff.mp hget
    unfold edited
    split_ifs with htag
    · exact hclash (id, c) (mem_select_iff.mpr ⟨hc, by simpa using htag⟩)
    · exact h.clashless id c hc

/-- The rows of the channels that have the tag afterwards are made again. -/
theorem projects_reCreate_iff (h : s.Consistent) (tag : Text) (hedit : edit.shouldReCreateAbilities = true) :
    (s.editChannelByTag tag edit).Projects ↔
      ∀ id c, (s.editChannelByTag tag edit).channels.get? id = some c → c.Clashless := by
  set s' := s.editChannelByTag tag edit with hs'
  set l := getChannelsByTag s'.channels (edit.newTag.getD tag) with hl
  have habilities : s'.abilities = l.foldl (fun x c => c.2.updateAbilities c.1 x) s.abilities := by
    exact if_pos hedit
  have hloop : ∀ (c : Nat × Channel) x group model j, j ≠ c.1 →
      (c.2.updateAbilities c.1 x).find? (group, model, j) = x.find? (group, model, j) :=
    fun c x group model j hj => find?_updateAbilities_of_ne hj c.2 x group model
  -- A channel that is not made again was not edited.
  have hkept : ∀ id, (∀ c ∈ l, id ≠ c.1) → ProjectsAt s' id := by
    intro id hid
    refine Iff.mpr (projectsAt_congr ?_ fun group model => ?_) (h.projects id)
    · rw [hs', get?_editChannelByTag]
      cases hc : s.channels.get? id with
      | none => rfl
      | some c =>
        rw [map_some, edited_of_tag_ne]
        intro htag
        refine hid (id, edited tag edit c) (mem_getChannelsByTag.mpr ⟨?_, htag⟩) rfl
        rw [hs', get?_editChannelByTag, hc, map_some]
    · rw [habilities]
      exact find?_foldl_of_notMem hloop hid s.abilities group model
  have hmade : ∀ id c, (id, c) ∈ l → (ProjectsAt s' id ↔ c.Clashless) := by
    intro id c hc
    obtain ⟨y, -, hfold⟩ := find?_foldl_of_mem hloop (nodup_getChannelsByTag _ _) hc s.abilities
    refine Written.projects_iff (mem_getChannelsByTag.mp hc).1 fun group model => ?_
    rw [habilities, hfold]
    exact written_updateAbilities id c y group model
  constructor
  · intro hproj id c' hget
    by_cases htag : c'.tag = some (edit.newTag.getD tag)
    · exact (hmade id c' (mem_getChannelsByTag.mpr ⟨hget, htag⟩)).mp (hproj id)
    · rw [hs', get?_editChannelByTag] at hget
      obtain ⟨c, hc, rfl⟩ := map_eq_some_iff.mp hget
      rw [edited_of_tag_ne htag]
      exact h.clashless id c hc
  · intro hclash id
    by_cases hid : ∀ c ∈ l, id ≠ c.1
    · exact hkept id hid
    · push Not at hid
      obtain ⟨⟨_, c⟩, hc, rfl⟩ := hid
      exact (hmade _ c hc).mpr (hclash _ c (mem_getChannelsByTag.mp hc).1)

theorem weight_kept_iff {weight : Option Nat} {old : Nat} :
    (if weight.getD 0 = 0 then old else weight.getD 0) = weight.getD old ↔ weight ≠ some 0 ∨ old = 0 := by
  cases weight with
  | none => simp
  | some w =>
    by_cases hw : w = 0
    · simp [hw]
    · simp [hw]

theorem projects_setColumns_iff (h : s.Consistent) (tag : Text) (hedit : edit.shouldReCreateAbilities = false) :
    (s.editChannelByTag tag edit).Projects ↔
      ∀ c ∈ s.channels.select fun c => c.tag = some tag, edit.weight ≠ some 0 ∨ c.2.weight = 0 := by
  have habilities : (s.editChannelByTag tag edit).abilities =
      updateAbilityByTag tag edit.newTag edit.priority edit.weight s.abilities := by
    exact if_neg (by simp [hedit])
  have hfind := find?_updateAbilityByTag tag edit.newTag edit.priority edit.weight s.abilities
  rw [← habilities] at hfind
  rw [projects_map_iff h.projects (get?_editChannelByTag s) (fun _ c _ => edited_names hedit c) hfind]
  constructor
  · rintro hcols ⟨id, c⟩ hc
    obtain ⟨hget, htag⟩ := mem_select_iff.mp hc
    have htag : c.tag = some tag := by simpa using htag
    obtain ⟨p, hp⟩ := newPairs_nonempty c
    have hrow := congrArg Ability.weight (hcols id c hget p (mem_pairs_of_newPairs hp))
    have hrowtag : (c.ability id p).tag = some tag := htag
    rw [edited, if_pos htag, if_pos hrowtag] at hrow
    exact weight_kept_iff.mp hrow
  · intro hweight id c hget p _
    have hrowtag : (c.ability id p).tag = c.tag := rfl
    rw [edited, hrowtag]
    by_cases htag : c.tag = some tag
    · have hkept := hweight (id, c) (mem_select_iff.mpr ⟨hget, by simpa using htag⟩)
      rw [if_pos htag, if_pos htag]
      have hsame := weight_kept_iff.mpr hkept
      simp only [Channel.ability, hsame]
      rfl
    · rw [if_neg htag, if_neg htag]

theorem projects_editChannelByTag_iff (h : s.Consistent) :
    (s.editChannelByTag tag edit).Projects ↔ s.Faithful (.editChannelByTag tag edit) := by
  rw [Tables.Faithful]
  cases hedit : edit.shouldReCreateAbilities with
  | true =>
    rw [projects_reCreate_iff h tag hedit, edited_clashless_iff h]
    simp
  | false =>
    have hclash := (edited_clashless_iff h tag).mp
      (clashless_map h (get?_editChannelByTag s) fun _ c _ => edited_names hedit c)
    rw [projects_setColumns_iff h tag hedit]
    simp only [Bool.false_eq_true, false_or]
    exact ⟨fun hweight c hc => ⟨hclash c hc, hweight c hc⟩, fun hboth c hc => (hboth c hc).2⟩

theorem consistent_editChannelByTag (h : s.Consistent) (hf : s.Faithful (.editChannelByTag tag edit)) :
    (s.editChannelByTag tag edit).Consistent :=
  ⟨(projects_editChannelByTag_iff h).mpr hf, (edited_clashless_iff h tag).mpr fun c hc => (hf c hc).1⟩

/-! ## Deletes -/

theorem consistent_of_deleted (h : s.Consistent) {gone : Nat → Prop} [DecidablePred gone]
    (hc : ∀ id, s'.channels.get? id = if gone id then none else s.channels.get? id) (ha : ∀ group model id,
      s'.abilities.find? (group, model, id) = if gone id then none else s.abilities.find? (group, model, id)) :
    s'.Consistent := by
  constructor
  · intro id group model
    rw [hc, ha]
    split_ifs
    · rfl
    · exact h.projects id group model
  · intro id c hget
    rw [hc] at hget
    split_ifs at hget
    exact h.clashless id c hget

theorem consistent_delete (h : s.Consistent) : (s.delete id).Consistent :=
  consistent_of_deleted h (fun j => Table.get?_delete s.channels id j) fun group model j =>
    find?_deleteAbilities id s.abilities group model j

theorem consistent_batchDeleteChannels (h : s.Consistent) {ids : List Nat} : (s.batchDeleteChannels ids).Consistent :=
  consistent_of_deleted h (Table.get?_foldl_delete s.channels ids) fun group model id =>
    find?_deleteWhere_channelId (· ∈ ids) s.abilities group model id

theorem deleteWhere_of_select_nil {t : Table Channel} {p : Channel → Bool} (h : t.select p = []) :
    (t.deleteWhere p).get? id = t.get? id := by
  rw [Table.get?_deleteWhere]
  cases hc : t.get? id with
  | none => rfl
  | some c =>
    refine filter_some_pos ?_
    by_contra hp
    have hmem : (id, c) ∈ t.select p := mem_select_iff.mpr ⟨hc, by simpa using hp⟩
    rw [h] at hmem
    cases hmem

theorem projects_deleteDisabledChannel_iff (h : s.Consistent) :
    s.deleteDisabledChannel.Projects ↔ s.Faithful .deleteDisabledChannel := by
  rw [Tables.Faithful]
  constructor
  · intro hproj
    rw [eq_nil_iff_forall_not_mem]
    rintro ⟨id, c⟩ hc
    obtain ⟨hget, hdisabled⟩ := mem_select_iff.mp hc
    have hgone : s.deleteDisabledChannel.channels.get? id = none := by
      refine (Table.get?_deleteWhere s.channels Channel.isDisabled id).trans ?_
      rw [hget]
      exact filter_some_neg (by simp [hdisabled])
    have hfree : Free s.abilities id := (projectsAt_of_none hgone).mp (hproj id)
    obtain ⟨⟨group, model⟩, hp⟩ := newPairs_nonempty c
    have hrow := h.projects id group model
    rw [hfree group model, hget, bind_some, Channel.projected,
      if_pos (mem_pairs.mp (mem_pairs_of_newPairs hp))] at hrow
    cases hrow
  · intro hnone id
    have hget : s.deleteDisabledChannel.channels.get? id = s.channels.get? id := deleteWhere_of_select_nil hnone
    exact (projectsAt_congr hget fun _ _ => rfl).mpr (h.projects id)

theorem consistent_deleteDisabledChannel (h : s.Consistent) (hf : s.Faithful .deleteDisabledChannel) :
    s.deleteDisabledChannel.Consistent := by
  refine ⟨(projects_deleteDisabledChannel_iff h).mpr hf, fun id c hget => h.clashless id c ?_⟩
  rw [← hget]
  exact (deleteWhere_of_select_nil hf).symm

theorem projects_fixAbility (h : ∀ id c, s.channels.get? id = some c → c.Clashless) : s.fixAbility.Projects := by
  have hloop : ∀ (c : Nat × Channel) x group model j, j ≠ c.1 →
      (c.2.addAbilities c.1 x).find? (group, model, j) = x.find? (group, model, j) :=
    fun c x group model j hj => find?_addAbilities_of_ne hj c.2 x group model
  intro id
  cases hc : s.channels.get? id with
  | none =>
    have hnone : s.fixAbility.channels.get? id = none := hc
    refine (projectsAt_of_none hnone).mpr fun group model => ?_
    refine (find?_foldl_of_notMem hloop ?_ .empty group model).trans (Index.find?_empty _)
    rintro ⟨j, c⟩ hmem rfl
    rw [(mem_select_iff.mp hmem).1] at hc
    cases hc
  | some c =>
    have hsome : s.fixAbility.channels.get? id = some c := hc
    have hmem : (id, c) ∈ s.channels.select fun _ => true := mem_select_iff.mpr ⟨hc, rfl⟩
    obtain ⟨y, hy, hfold⟩ := find?_foldl_of_mem hloop (nodup_select _ _) hmem .empty
    have hfree : Free y id := fun group model => (hy group model).trans (Index.find?_empty _)
    have hwritten : Written s.fixAbility.abilities id c := fun group model =>
      (hfold group model).trans (written_addAbilities c hfree group model)
    exact (hwritten.projects_iff hsome).mpr (h id c hc)

/-! ## Runs -/

theorem projects_step_iff (s : Tables) (e : Event) (h : s.Consistent) :
    (s.step config e).Projects ↔ s.Faithful e := by
  cases e with
  | insert f => exact projects_insert_iff h
  | batchInsertChannels fields => exact projects_batchInsertChannels_iff h
  | update id f => exact projects_update_iff h
  | updateChannelStatus cache id usingKey status reason now =>
    exact iff_of_true (consistent_updateChannelStatus h).projects trivial
  | enableChannelByTag tag | disableChannelByTag tag =>
    exact iff_of_true (consistent_setStatusByTag h rfl).projects trivial
  | editChannelByTag tag edit => exact projects_editChannelByTag_iff h
  | delete id => exact iff_of_true (consistent_delete h).projects trivial
  | batchDeleteChannels ids => exact iff_of_true (consistent_batchDeleteChannels h).projects trivial
  | deleteDisabledChannel => exact projects_deleteDisabledChannel_iff h
  | fixAbility => exact iff_of_true (projects_fixAbility h.clashless) trivial

theorem consistent_step (config : Config) (s : Tables) (e : Event) (h : s.Consistent) (hf : s.Faithful e) :
    (s.step config e).Consistent := by
  cases e with
  | insert => exact consistent_insert h hf
  | batchInsertChannels => exact consistent_batchInsertChannels h hf
  | update => exact consistent_update h hf
  | updateChannelStatus cache id usingKey status reason now =>
    exact consistent_updateChannelStatus h
  | enableChannelByTag tag | disableChannelByTag tag => exact consistent_setStatusByTag h rfl
  | editChannelByTag => exact consistent_editChannelByTag h hf
  | delete id => exact consistent_delete h
  | batchDeleteChannels ids => exact consistent_batchDeleteChannels h
  | deleteDisabledChannel => exact consistent_deleteDisabledChannel h hf
  | fixAbility => exact ⟨projects_fixAbility h.clashless, h.clashless⟩

theorem consistent_initial : ({} : Tables).Consistent :=
  ⟨fun _ _ _ => Index.find?_empty _, fun _ _ hget => (nomatch hget)⟩

/-- In a run from empty tables the abilities are the projection of the channels at every point exactly when no step
misses a case. -/
theorem abilities_project_iff (config : Config) (events : List Event) :
    (∀ done rest, events = done ++ rest → (run (Tables.step config) {} done).Projects) ↔
      Along (Tables.step config) Tables.Faithful {} events :=
  always_iff_along (fun _ h => h.projects) (consistent_step config) projects_step_iff consistent_initial

/-- A channel is disabled, and the channels that are disabled are deleted: the ability of the channel stays. -/
theorem ability_outlives_channel :
    ¬∀ (config : Config) (events : List Event), (run (Tables.step config) {} events).Projects := by
  intro h
  have hrun := h ⟨fun _ => none⟩
    [.insert { key := text "sk", models := text "gpt-4o", group := text "default" },
      .updateChannelStatus .disabled 1 [] channelStatusManuallyDisabled "" 0, .deleteDisabledChannel]
    1 (text "default") (text "gpt-4o")
  revert hrun
  decide +kernel

end CubeRouter.Routing
