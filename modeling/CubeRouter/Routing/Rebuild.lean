import CubeRouter.Lib.Pool
import CubeRouter.Routing.Drift
import CubeRouter.Routing.Writers

/-!
# Rebuilds that do not panic

A rebuild needs a row for every group of every enabled channel it has read. Three things are kept along a run.
`Covered`: each group of a channel has a row of that channel, or a writer still owes one. `Fresh`: a writer that is
going to replace the rows of a channel writes a row for each group that the channel has now. `Fed`: for what a rebuild
has read there are rows until it reads the abilities. The statements that can break them are named by `Site.Orderly`.
-/

namespace CubeRouter.Routing

open Relational Strings Transition List Option

/-! ## Rows of a group -/

/-- There is a row of the channel in the group. -/
def HasRow (x : Abilities) (id : Nat) (group : Text) : Prop := ∃ model, (x.find? (group, model, id)).isSome = true

variable {x : Abilities} {group : Text} {id j : Nat} {c : Channel}

theorem mem_groups : group ∈ x.groups ↔ ∃ id, HasRow x id group := by
  unfold Abilities.groups HasRow
  simp only [List.mem_map, Prod.exists, Table.mem_select_iff, and_true,
    Option.isSome_iff_exists, Index.find?_eq_some_iff]
  constructor
  · rintro ⟨i, a, hget, rfl⟩
    exact ⟨a.channelId, a.model, a, i, hget, rfl⟩
  · rintro ⟨id, model, a, i, hget, hkey⟩
    exact ⟨i, a, hget, congrArg Prod.fst hkey⟩

theorem hasRow_addRows {pairs : List (Text × Text)} :
    HasRow (addRows id c pairs x) j group ↔ HasRow x j group ∨ j = id ∧ ∃ model, (group, model) ∈ pairs := by
  unfold HasRow addRows
  simp only [find?_foldl_insertNew]
  constructor
  · rintro ⟨model, hrow⟩
    split_ifs at hrow with hnew
    · exact .inr ⟨hnew.1, model, hnew.2.1⟩
    · exact .inl ⟨model, hrow⟩
  · rintro (⟨model, hrow⟩ | ⟨hj, model, hpair⟩)
    · refine ⟨model, ?_⟩
      split_ifs
      · rfl
      · exact hrow
    · refine ⟨model, ?_⟩
      split_ifs with hnew
      · rfl
      · rw [isSome_iff_ne_none]
        exact fun hfree => hnew ⟨hj, hpair, hfree⟩

theorem hasRow_deleteWhere (gone : Nat → Prop) [DecidablePred gone] :
    HasRow (x.deleteWhere fun a => gone a.channelId) j group ↔ ¬gone j ∧ HasRow x j group := by
  unfold HasRow
  simp only [find?_deleteWhere_channelId]
  by_cases hj : gone j <;> simp [hj]

theorem hasRow_updateWhere {p : Ability → Bool} {g : Ability → Ability} (hg : ∀ a, (g a).key = a.key) :
    HasRow (x.updateWhere p g hg) j group ↔ HasRow x j group := by
  unfold HasRow
  simp [Index.find?_updateWhere]

/-! ## The rows that a channel gets -/

theorem mem_foldl_takeNew_of_mem {l taken : List (Text × Text)} {p : Text × Text} (h : p ∈ taken) :
    p ∈ l.foldl takeNew taken := by
  induction l generalizing taken with
  | nil => exact h
  | cons q l ih =>
    refine ih ?_
    unfold takeNew
    split_ifs
    · exact h
    · exact mem_append_left _ h

theorem exists_newPair : (∃ model, (group, model) ∈ c.newPairs) ↔ group ∈ c.groups_ := by
  constructor
  · rintro ⟨model, hpair⟩
    exact (mem_pairs.mp (mem_pairs_of_newPairs hpair)).1
  · intro hgroup
    obtain ⟨model, models, hmodels⟩ := exists_cons_of_ne_nil (splitOn_ne_nil ',' c.models)
    have hsplit : c.pairs = c.groups_.map (fun group => (group, model)) ++
        models.flatMap fun model => c.groups_.map fun group => (group, model) := by
      rw [Channel.pairs, Channel.models_, hmodels, flatMap_cons]
    refine ⟨model, ?_⟩
    rw [Channel.newPairs, hsplit, foldl_append]
    refine mem_foldl_takeNew_of_mem ?_
    have hin : (group, model) ∈ c.groups_.map fun group => (group, model) := mem_map.mpr ⟨group, hgroup, rfl⟩
    have hnew : (group, model) ∈ ([] : List (Text × Text)) ∨ _ := .inr hin
    obtain ⟨q, hq, hkey⟩ := key_mem_foldl_takeNew hnew
    have hfirst : q ∈ c.groups_.map fun group => (group, model) := (mem_foldl_takeNew hq).resolve_left (by simp)
    obtain ⟨group', -, rfl⟩ := mem_map.mp hfirst
    have hsame : group' = group := by simpa [abilityKey] using hkey
    rwa [hsame] at hq

theorem hasRow_addAbilities : HasRow (c.addAbilities id x) j group ↔ HasRow x j group ∨ j = id ∧ group ∈ c.groups_ := by
  rw [← exists_newPair]
  exact hasRow_addRows

theorem hasRow_updateAbilities :
    HasRow (c.updateAbilities id x) j group ↔ if j = id then group ∈ c.groups_ else HasRow x j group := by
  rw [Channel.updateAbilities, hasRow_addAbilities, deleteAbilities, hasRow_deleteWhere (· = id)]
  by_cases hj : j = id <;> simp [hj]

/-! ## What a writer owes -/

/-- The writer has yet to write a row of the group for the channel. -/
def Writer.Owes (channels : Table Channel) (id : Nat) (group : Text) : Writer → Prop
  | .addAbilities id' _ rest => id' = id ∧ ∃ model, (group, model) ∈ rest
  | .readBack id' _ => id' = id
  | .updateAbilities id' c => id' = id ∧ group ∈ c.groups_
  | .getChannelsByTag updatedTag => ∃ c, channels.get? id = some c ∧ c.tag = some updatedTag
  | .updateTagged cs => ∃ c, (id, c) ∈ cs ∧ group ∈ c.groups_
  | .findChannels => True
  | .deleteChunk cs => ∃ c, (id, c) ∈ cs ∧ group ∈ c.groups_
  | .addChunk chunk cs =>
    (∃ c rest model, (id, c, rest) ∈ chunk ∧ (group, model) ∈ rest) ∨ ∃ c, (id, c) ∈ cs ∧ group ∈ c.groups_
  | _ => False

/-- The channels whose rows the writer has yet to delete, with the groups of the rows that it writes in their place. -/
def Writer.replacements : Writer → List (Nat × List Text)
  | .updateAbilities id c => [(id, c.groups_)]
  | .deleteAbilities id => [(id, [])]
  | .updateTagged cs => cs.map fun c => (c.1, c.2.groups_)
  | .deleteChunk cs => cs.map fun c => (c.1, c.2.groups_)
  | .addChunk _ cs => cs.map fun c => (c.1, c.2.groups_)
  | _ => []

def Writer.deletes : Writer → List Nat
  | .updateAbilities id _ => [id]
  | .deleteAbilities id => [id]
  | .updateTagged ((id, _) :: _) => [id]
  | .deleteChunk cs => (cs.take chunkSize).map Prod.fst
  | _ => []

def Writer.writes : Writer → List Text
  | .updateAbilities _ c => c.groups_
  | .updateTagged ((_, c) :: _) => c.groups_
  | _ => []

/-- No writer replaces the rows of the channel without a row for each of these groups. -/
def Keeps (ws : List Writer) (id : Nat) (groups : List Text) : Prop :=
  ∀ w ∈ ws, ∀ e ∈ w.replacements, e.1 = id → ∀ group ∈ groups, group ∈ e.2

def Fresh (s : Tables) (ws : List Writer) : Prop := ∀ id c, s.channels.get? id = some c → Keeps ws id c.groups_

def Owed (channels : Table Channel) (ws : List Writer) (id : Nat) (group : Text) : Prop :=
  ∃ w ∈ ws, w.Owes channels id group

def Covered (s : Tables) (ws : List Writer) : Prop :=
  ∀ id c, s.channels.get? id = some c → ∀ group ∈ c.groups_,
    HasRow s.abilities id group ∨ Owed s.channels ws id group

/-! ## The next statement of a writer -/

namespace Writer

variable {w w' : Writer} {s : Tables}

theorem advance_deleteChunk {cs : List (Nat × Channel)} (h : cs ≠ []) : (deleteChunk cs).advance s =
    ({ s with abilities := s.abilities.deleteWhere fun a => a.channelId ∈ (cs.take chunkSize).map Prod.fst },
      some (.addChunk ((cs.take chunkSize).map fun c => (c.1, c.2, c.2.newPairs)) (cs.drop chunkSize))) :=
  if_neg h

theorem advance_channels (w : Writer) (s : Tables) : (w.advance s).1.channels = s.channels := by
  cases w with
  | updateTagged cs => cases cs <;> rfl
  | deleteChunk cs =>
    by_cases hnil : cs = []
    · rw [hnil]
      rfl
    · rw [advance_deleteChunk hnil]
  | addChunk chunk => cases chunk <;> rfl
  | _ => rfl

/-- What the rest of the writer replaces it would have replaced before, or has just read. -/
theorem advance_replacements (h : (w.advance s).2 = some w') {e : Nat × List Text} (he : e ∈ w'.replacements) :
    e ∈ w.replacements ∨ ∀ c, s.channels.get? e.1 = some c → e.2 = c.groups_ := by
  have hread {l : List (Nat × Channel)} (hl : ∀ id c, (id, c) ∈ l → s.channels.get? id = some c)
      (hin : e ∈ l.map fun c => (c.1, c.2.groups_)) (c : Channel) (hc : s.channels.get? e.1 = some c) :
        e.2 = c.groups_ := by
    obtain ⟨⟨id, c'⟩, hc', rfl⟩ := mem_map.mp hin
    rw [hl id c' hc'] at hc
    cases hc
    rfl
  cases w with
  | addAbilities =>
    simp only [advance] at h
    split_ifs at h
    cases h
    cases he
  | readBack =>
    cases h
    refine .inr fun c hc => ?_
    obtain rfl := mem_singleton.mp he
    rw [hc]
    rfl
  | getChannelsByTag =>
    cases h
    exact .inr (hread (fun _ _ hc => (mem_getChannelsByTag.mp hc).1) he)
  | updateTagged cs =>
    cases cs with
    | nil => cases h
    | cons =>
      cases h
      exact .inl (mem_cons_of_mem _ he)
  | findChannels =>
    cases h
    exact .inr (hread (fun _ _ hc => (Table.mem_select_iff.mp hc).1) he)
  | deleteChunk cs =>
    by_cases hnil : cs = []
    · subst hnil
      cases h
    · rw [advance_deleteChunk hnil] at h
      cases h
      exact .inl (map_subset _ (drop_subset _ _) he)
  | addChunk chunk =>
    cases chunk with
    | nil =>
      cases h
      exact .inl he
    | cons =>
      cases h
      exact .inl he
  | updateAbilities | deleteAbilities | updateStatusByTag | updateAbilityByTag => cases h

variable {group : Text}

theorem advance_hasRow (h : HasRow s.abilities id group) (hid : id ∉ w.deletes) :
    HasRow (w.advance s).1.abilities id group := by
  cases w with
  | addAbilities => exact hasRow_addRows.mpr (.inl h)
  | updateAbilities id' =>
    have hne : id ≠ id' := by simpa [deletes] using hid
    exact hasRow_updateAbilities.mpr (by rwa [if_neg hne])
  | deleteAbilities id' =>
    have hne : id ≠ id' := by simpa [deletes] using hid
    exact (hasRow_deleteWhere (· = id')).mpr ⟨hne, h⟩
  | updateStatusByTag | updateAbilityByTag =>
    refine (hasRow_updateWhere ?_).mpr h
    exact fun _ => rfl
  | updateTagged cs =>
    cases cs with
    | nil => exact h
    | cons c =>
      have hne : id ≠ c.1 := by simpa [deletes] using hid
      exact hasRow_updateAbilities.mpr (by rwa [if_neg hne])
  | deleteChunk cs =>
    by_cases hnil : cs = []
    · rw [hnil]
      exact h
    · rw [advance_deleteChunk hnil]
      exact (hasRow_deleteWhere (· ∈ (cs.take chunkSize).map Prod.fst)).mpr ⟨hid, h⟩
  | addChunk chunk =>
    cases chunk with
    | nil => exact h
    | cons => exact hasRow_addRows.mpr (.inl h)
  | readBack | getChannelsByTag | findChannels => exact h

theorem advance_writes (h : group ∈ w.writes) : ∃ id, HasRow (w.advance s).1.abilities id group := by
  cases w with
  | updateAbilities id => exact ⟨id, hasRow_updateAbilities.mpr (by rwa [if_pos rfl])⟩
  | updateTagged cs =>
    cases cs with
    | nil => cases h
    | cons c => exact ⟨c.1, hasRow_updateAbilities.mpr (by rwa [if_pos rfl])⟩
  | _ => cases h

/-- What was owed is written or still owed, and so is what is deleted. -/
theorem advance_owes (hc : s.channels.get? id = some c) (hfresh : Keeps [w] id c.groups_)
    (hgroup : group ∈ c.groups_) (h : id ∈ w.deletes ∨ w.Owes s.channels id group) :
    HasRow (w.advance s).1.abilities id group ∨ Owed s.channels (w.advance s).2.toList id group := by
  have hkept : ∀ e ∈ w.replacements, e.1 = id → group ∈ e.2 := fun e he hid =>
    hfresh w (mem_singleton.mpr rfl) e he hid group hgroup
  have hrest : ∀ {w'}, (w.advance s).2 = some w' → w'.Owes s.channels id group →
      Owed s.channels (w.advance s).2.toList id group := fun hw' howes => ⟨_, mem_toList.mpr hw', howes⟩
  cases w with
  | addAbilities _ _ rest =>
    obtain ⟨rfl, model, hpair⟩ := h.resolve_left (by simp [deletes])
    rw [← take_append_drop chunkSize rest] at hpair
    rcases mem_append.mp hpair with hpair | hpair
    · exact .inl (hasRow_addRows.mpr (.inr ⟨rfl, model, hpair⟩))
    · refine .inr (hrest (if_neg (ne_nil_of_mem hpair)) ⟨rfl, model, hpair⟩)
  | readBack =>
    obtain rfl := h.resolve_left (by simp [deletes])
    refine .inr (hrest rfl ⟨rfl, ?_⟩)
    rw [hc]
    exact hgroup
  | updateAbilities id' =>
    have hid : id' = id := by
      rcases h with h | ⟨h, -⟩
      · exact (mem_singleton.mp h).symm
      · exact h
    exact .inl (hasRow_updateAbilities.mpr (by
      rw [if_pos hid.symm]
      exact hkept _ (mem_singleton.mpr rfl) hid))
  | deleteAbilities id' =>
    have hid : id' = id := by simpa [deletes, Owes, eq_comm] using h
    have hnone := hkept _ (mem_singleton.mpr rfl) hid
    cases hnone
  | getChannelsByTag =>
    obtain ⟨c', hc', htag⟩ := h.resolve_left (by simp [deletes])
    rw [hc] at hc'
    cases hc'
    exact .inr (hrest rfl ⟨c, mem_getChannelsByTag.mpr ⟨hc, htag⟩, hgroup⟩)
  | updateTagged cs =>
    cases cs with
    | nil =>
      rcases h with h | ⟨c', hc', -⟩
      · cases h
      · cases hc'
    | cons e =>
      by_cases hid : e.1 = id
      · exact .inl (hasRow_updateAbilities.mpr (by
          rw [if_pos hid.symm]
          exact hkept _ mem_cons_self hid))
      · rcases h with h | ⟨c', hc', hgroup'⟩
        · exact absurd (mem_singleton.mp h).symm hid
        · rcases mem_cons.mp hc' with rfl | hc'
          · exact absurd rfl hid
          · exact .inr (hrest rfl ⟨c', hc', hgroup'⟩)
  | findChannels => exact .inr (hrest rfl ⟨c, Table.mem_select_iff.mpr ⟨hc, rfl⟩, hgroup⟩)
  | deleteChunk cs =>
    have hin : ∃ c', (id, c') ∈ cs := by
      rcases h with h | ⟨c', hc', -⟩
      · obtain ⟨⟨_, c'⟩, hc', rfl⟩ := mem_map.mp h
        exact ⟨c', mem_of_mem_take hc'⟩
      · exact ⟨c', hc'⟩
    obtain ⟨c', hc'⟩ := hin
    have hgroup' : group ∈ c'.groups_ := hkept (id, c'.groups_) (mem_map.mpr ⟨_, hc', rfl⟩) rfl
    refine .inr (hrest (by rw [advance_deleteChunk (ne_nil_of_mem hc')]) ?_)
    rw [← take_append_drop chunkSize cs] at hc'
    rcases mem_append.mp hc' with hc' | hc'
    · obtain ⟨model, hpair⟩ := exists_newPair.mpr hgroup'
      exact .inl ⟨c', c'.newPairs, model, mem_map.mpr ⟨_, hc', rfl⟩, hpair⟩
    · exact .inr ⟨c', hc', hgroup'⟩
  | addChunk chunk =>
    have howes := h.resolve_left (by simp [deletes])
    cases chunk with
    | nil =>
      rcases howes with ⟨c', rest, model, hin, -⟩ | howes
      · cases hin
      · exact .inr (hrest rfl howes)
    | cons e =>
      obtain ⟨_, c', rest⟩ := e
      rcases howes with ⟨c'', rest', model, hin, hpair⟩ | howes
      · rcases mem_cons.mp hin with heq | hin
        · cases heq
          rw [← take_append_drop chunkSize rest] at hpair
          rcases mem_append.mp hpair with hpair | hpair
          · exact .inl (hasRow_addRows.mpr (.inr ⟨rfl, model, hpair⟩))
          · refine .inr (hrest rfl (.inl ⟨c', rest.drop chunkSize, model, ?_, hpair⟩))
            rw [if_neg (ne_nil_of_mem hpair)]
            exact mem_cons_self
        · refine .inr (hrest rfl (.inl ⟨c'', rest', model, ?_, hpair⟩))
          split_ifs
          · exact hin
          · exact mem_cons_of_mem _ hin
      · exact .inr (hrest rfl (.inr howes))
  | updateStatusByTag | updateAbilityByTag => rcases h with h | h <;> cases h

end Writer

/-! ## The invariants -/

namespace Site

/-- A rebuild has read an enabled channel of the group. -/
def Needs (s : Site) (group : Text) : Prop :=
  ∃ channels ∈ s.rebuilds, ∃ c ∈ channels, c.2.status = channelStatusEnabled ∧ group ∈ c.2.groups_

/-- Each group that a rebuild needs keeps a row when the rows of these channels are deleted and those of these groups
are written. -/
def Spares (s : Site) (gone : List Nat) (writes : List Text) : Prop :=
  ∀ group, s.Needs group → group ∈ writes ∨ ∃ id, id ∉ gone ∧ HasRow s.tables.abilities id group

/-- What a statement must meet so that no rebuild panics. A group list is written while no writer is going to replace
the rows of the channel by fewer; a tag is renamed while no writer is going to look it up; rows are deleted while no
rebuild needs the last of them; and channels are read when the rows that are still owed are not needed. -/
def Orderly (s : Site) : Statement → Prop
  | .insert f => Keeps s.writers s.tables.channels.next f.row.groups_
  | .batchInsertChannels fields => ∀ k f, fields[k]? = some f →
      Keeps s.writers (s.tables.channels.next + k) f.row.groups_
  | .update id f => ∀ c, s.tables.channels.get? id = some c → Keeps s.writers id (f.updates c).groups_
  | .batchDeleteChannels ids => s.Spares ids []
  | .editChannelByTag tag edit =>
    (∀ id c, s.tables.channels.get? id = some c → c.tag = some tag → Keeps s.writers id (edit.updates c).groups_) ∧
      (edit.shouldReCreateAbilities = true ∨ edit.newTag.getD tag = tag ∨ .getChannelsByTag tag ∉ s.writers)
  | .fixAbility => ∀ group, ¬s.Needs group
  | .advance i => ∀ w, s.writers[i]? = some w → s.Spares w.deletes w.writes
  | .readChannels => ∀ id c, s.tables.channels.get? id = some c → c.status = channelStatusEnabled → ∀ group ∈ c.groups_,
      Owed s.tables.channels s.writers id group → ∃ id', HasRow s.tables.abilities id' group
  | _ => True

def Fed (s : Site) : Prop := ∀ group, s.Needs group → ∃ id, HasRow s.tables.abilities id group

structure Safe (s : Site) : Prop where
  covered : Covered s.tables s.writers
  fresh : Fresh s.tables s.writers
  fed : s.Fed

end Site

variable {ws : List Writer}

/-- What is owed is still owed by the same writer, where the tag by which it finds the channel stays. -/
theorem Owed.mono {channels channels' : Table Channel} {ws' : List Writer} (h : Owed channels ws id group)
    (hws : ∀ w ∈ ws, w ∈ ws') (htag : ∀ c, channels.get? id = some c → ∀ tag, c.tag = some tag →
      .getChannelsByTag tag ∈ ws →
      ∃ c', channels'.get? id = some c' ∧ c'.tag = some tag) : Owed channels' ws' id group := by
  obtain ⟨w, hw, howes⟩ := h
  refine ⟨w, hws w hw, ?_⟩
  cases w with
  | getChannelsByTag tag =>
    obtain ⟨c, hc, hctag⟩ := howes
    exact htag c hc tag hctag hw
  | _ => exact howes

theorem Keeps.append {w : Writer} {groups : List Text} (h : Keeps ws id groups)
    (hw : ∀ e ∈ w.replacements, e.1 ≠ id) : Keeps (ws ++ [w]) id groups := by
  intro w' hw' e he hid
  rw [mem_append, mem_singleton] at hw'
  rcases hw' with hw' | rfl
  · exact h w' hw' e he hid
  · exact absurd hid (hw e he)

namespace Site

variable {s : Site}

theorem Safe.start (h : s.Safe) {channels : Table Channel} {w : Writer}
    (hw : ∀ e ∈ w.replacements, channels.get? e.1 = none)
    (hrows : ∀ id c', channels.get? id = some c' → Keeps s.writers id c'.groups_ ∧ ∀ group ∈ c'.groups_,
      w.Owes channels id group ∨ ∃ c, s.tables.channels.get? id = some c ∧ group ∈ c.groups_ ∧
        ∀ tag, c.tag = some tag → .getChannelsByTag tag ∈ s.writers → c'.tag = some tag) :
    (s.start { s.tables with channels := channels } w).Safe := by
  refine ⟨fun id c' hc' group hgroup => ?_, fun id c' hc' => ?_, h.fed⟩
  · rcases (hrows id c' hc').2 group hgroup with howes | ⟨c, hc, hold, htag⟩
    · exact .inr ⟨w, mem_append_right _ (mem_singleton.mpr rfl), howes⟩
    · refine (h.covered id c hc group hold).imp_right fun howed => howed.mono (fun _ => mem_append_left _) ?_
      intro c0 hc0 tag hctag hin
      rw [hc] at hc0
      cases hc0
      exact ⟨c', hc', htag tag hctag hin⟩
  · refine (hrows id c' hc').1.append fun e he hid => ?_
    have hnone := hw e he
    rw [hid] at hnone
    cases hnone.symm.trans hc'

theorem Safe.insert (h : s.Safe) (f : ChannelFields) (hf : s.Orderly (.insert f)) : (s.step (.insert f)).Safe := by
  refine h.start (by simp [Writer.replacements]) fun id c' hc' => ?_
  rw [Table.get?_insert] at hc'
  split_ifs at hc' with hid
  · cases hc'
    subst hid
    exact ⟨hf, fun group hgroup => .inl ⟨rfl, exists_newPair.mpr hgroup⟩⟩
  · exact ⟨h.fresh id c' hc', fun group hgroup => .inr ⟨c', hc', hgroup, fun _ htag _ => htag⟩⟩

theorem Safe.update (h : s.Safe) (id : Nat) (f : ChannelFields) (hf : s.Orderly (.update id f)) :
    (s.step (.update id f)).Safe := by
  unfold step
  dsimp only
  split_ifs with hzero
  · exact h
  · refine h.start (by simp [Writer.replacements]) fun j c' hc' => ?_
    rw [Table.get?_modify] at hc'
    split_ifs at hc' with hj
    · subst hj
      obtain ⟨c, hc, rfl⟩ := map_eq_some_iff.mp hc'
      exact ⟨hf c hc, fun group _ => .inl rfl⟩
    · exact ⟨h.fresh j c' hc', fun group hgroup => .inr ⟨c', hc', hgroup, fun _ htag _ => htag⟩⟩

theorem Safe.delete (h : s.Safe) (id : Nat) : (s.step (.delete id)).Safe := by
  unfold step
  dsimp only
  split_ifs with hzero
  · exact h
  · refine h.start (fun e he => ?_) fun j c' hc' => ?_
    · obtain rfl := mem_singleton.mp he
      rw [Table.get?_delete, if_pos rfl]
    · rw [Table.get?_delete] at hc'
      split_ifs at hc' with hj
      exact ⟨h.fresh j c' hc', fun group hgroup => .inr ⟨c', hc', hgroup, fun _ htag _ => htag⟩⟩

theorem Safe.setStatusByTag (h : s.Safe) (tag : Text) (status : Int) (enabled : Bool) :
    (s.setStatusByTag tag status enabled).Safe := by
  refine h.start (by simp [Writer.replacements]) fun j c' hc' => ?_
  obtain ⟨c, hc, rfl⟩ := map_eq_some_iff.mp hc'
  have hsame : (if c.tag = some tag then { c with status := status } else c).groups_ = c.groups_ ∧
      (if c.tag = some tag then { c with status := status } else c).tag = c.tag := by
    split_ifs <;> exact ⟨rfl, rfl⟩
  simp only [decide_eq_true_eq, hsame.1, hsame.2]
  exact ⟨h.fresh j c hc, fun group hgroup => .inr ⟨c, hc, hgroup, fun _ htag _ => htag⟩⟩

theorem Safe.editChannelByTag (h : s.Safe) (tag : Text) (edit : TagEdit)
    (hedit : s.Orderly (.editChannelByTag tag edit)) :
    (s.step (.editChannelByTag tag edit)).Safe := by
  obtain ⟨hkeeps, htags⟩ := hedit
  refine h.start ?_ fun j c' hc' => ?_
  · split_ifs <;> simp [Writer.replacements]
  · obtain ⟨c, hc, rfl⟩ := map_eq_some_iff.mp hc'
    by_cases htag : c.tag = some tag
    · simp only [htag, decide_true, if_true] at hc' ⊢
      refine ⟨hkeeps j c hc htag, fun group hgroup => ?_⟩
      have hnew : (edit.updates c).tag = some (edit.newTag.getD tag) := by
        cases hnewTag : edit.newTag <;> simp [TagEdit.updates, hnewTag, htag]
      cases hmade : edit.shouldReCreateAbilities with
      | true => exact .inl ⟨edit.updates c, hc', hnew⟩
      | false =>
        have hsame : (edit.updates c).groups_ = c.groups_ := by
          have hgiven : given edit.group = none := by
            rw [TagEdit.shouldReCreateAbilities, Bool.or_eq_false_iff] at hmade
            simpa using hmade.2
          rw [Channel.groups_, TagEdit.updates, hgiven]
          rfl
        rw [hsame] at hgroup
        refine .inr ⟨c, hc, hgroup, fun t ht hin => ?_⟩
        rw [htag] at ht
        cases ht
        rcases htags with hre | hkept | hout
        · rw [hmade] at hre
          cases hre
        · rw [hnew, hkept]
        · exact absurd hin hout
    · simp only [htag]
      exact ⟨h.fresh j c hc, fun group hgroup => .inr ⟨c, hc, hgroup, fun _ htag _ => htag⟩⟩

variable {t : Tables} {ws : List Writer}

theorem safe_insert_row (hcovered : Covered t ws) (hfresh : Fresh t ws) (f : ChannelFields)
    (hf : Keeps ws t.channels.next f.row.groups_) : Covered (t.insert f) ws ∧ Fresh (t.insert f) ws := by
  constructor
  · intro id c hc group hgroup
    change (t.channels.insert f.row).get? id = some c at hc
    change HasRow (f.row.addAbilities t.channels.next t.abilities) id group ∨ _
    rw [hasRow_addAbilities]
    rw [Table.get?_insert] at hc
    split_ifs at hc with hid
    · cases hc
      exact .inl (.inr ⟨hid, hgroup⟩)
    · refine (hcovered id c hc group hgroup).imp .inl fun howed => howed.mono (fun _ hw => hw) ?_
      intro c0 hc0 tag hctag _
      exact ⟨c0, Table.get?_insert_of_get? hc0, hctag⟩
  · intro id c hc
    change (t.channels.insert f.row).get? id = some c at hc
    rw [Table.get?_insert] at hc
    split_ifs at hc with hid
    · cases hc
      rw [hid]
      exact hf
    · exact hfresh id c hc

theorem safe_insert_rows (hcovered : Covered t ws) (hfresh : Fresh t ws)
    {fields : List ChannelFields} (hf : ∀ k f, fields[k]? = some f → Keeps ws (t.channels.next + k) f.row.groups_) :
    Covered (t.batchInsertChannels fields) ws ∧ Fresh (t.batchInsertChannels fields) ws := by
  induction fields generalizing t with
  | nil => exact ⟨hcovered, hfresh⟩
  | cons f _ ih =>
    obtain ⟨hcovered', hfresh'⟩ := safe_insert_row hcovered hfresh f (hf 0 f rfl)
    refine ih hcovered' hfresh' fun k f' hf' => ?_
    have hnext : (t.insert f).channels.next + k = t.channels.next + (k + 1) := by
      show t.channels.next + 1 + k = _
      omega
    rw [hnext]
    exact hf (k + 1) f' hf'

theorem hasRow_batchInsertChannels (t : Tables) (fields : List ChannelFields)
    (h : HasRow t.abilities id group) : HasRow (t.batchInsertChannels fields).abilities id group := by
  induction fields generalizing t with
  | nil => exact h
  | cons f _ ih => exact ih (t.insert f) (hasRow_addAbilities.mpr (.inl h))

theorem Safe.batchInsertChannels (h : s.Safe) (fields : List ChannelFields)
    (hf : s.Orderly (.batchInsertChannels fields)) : (s.step (.batchInsertChannels fields)).Safe := by
  obtain ⟨hcovered, hfresh⟩ := safe_insert_rows h.covered h.fresh hf
  refine ⟨hcovered, hfresh, fun group hneeds => ?_⟩
  obtain ⟨id, hrow⟩ := h.fed group hneeds
  exact ⟨id, hasRow_batchInsertChannels s.tables fields hrow⟩

theorem Safe.of_deleted (h : s.Safe) {tables : Tables} (gone : List Nat)
    (hchannels : ∀ id c, tables.channels.get? id = some c → s.tables.channels.get? id = some c ∧ id ∉ gone)
    (hrows : ∀ id group, HasRow tables.abilities id group ↔ id ∉ gone ∧ HasRow s.tables.abilities id group)
    (hspares : s.Spares gone []) : ({ s with tables := tables } : Site).Safe := by
  refine ⟨fun id c hc group hgroup => ?_, fun id c hc => h.fresh id c (hchannels id c hc).1, fun group hneeds => ?_⟩
  · obtain ⟨hold, hid⟩ := hchannels id c hc
    refine (h.covered id c hold group hgroup).imp (fun hrow => (hrows id group).mpr ⟨hid, hrow⟩) fun howed => ?_
    refine howed.mono (fun _ hw => hw) fun c0 hc0 tag hctag _ => ⟨c, hc, ?_⟩
    rw [hold] at hc0
    cases hc0
    exact hctag
  · obtain ⟨id, hid, hrow⟩ := (hspares group hneeds).resolve_left (by simp)
    exact ⟨id, (hrows id group).mpr ⟨hid, hrow⟩⟩

theorem Safe.batchDeleteChannels (h : s.Safe) (ids : List Nat) (hids : s.Orderly (.batchDeleteChannels ids)) :
    (s.step (.batchDeleteChannels ids)).Safe := by
  refine h.of_deleted ids (fun id c hc => ?_) (fun id group => hasRow_deleteWhere (· ∈ ids)) hids
  change (ids.foldl Table.delete s.tables.channels).get? id = some c at hc
  rw [Table.get?_foldl_delete] at hc
  split_ifs at hc with hid
  exact ⟨hc, hid⟩

theorem Safe.deleteDisabledChannel (h : s.Safe) : (s.step .deleteDisabledChannel).Safe := by
  refine h.of_deleted [] (fun id c hc => ?_) (fun id group => by simp [Tables.deleteDisabledChannel]) ?_
  · exact ⟨(filter_eq_some_iff.mp hc).1, by simp⟩
  · intro group hneeds
    obtain ⟨id, hrow⟩ := h.fed group hneeds
    exact .inr ⟨id, by simp, hrow⟩

theorem Safe.fixAbility (h : s.Safe) (hneeds : s.Orderly .fixAbility) : (s.step .fixAbility).Safe := by
  refine ⟨fun id c hc group hgroup => .inr ⟨.findChannels, ?_, trivial⟩, fun id c hc => ?_, fun group hgroup => ?_⟩
  · exact mem_append_right _ (mem_singleton.mpr rfl)
  · exact (h.fresh id c hc).append (by simp [Writer.replacements])
  · exact absurd hgroup (hneeds group)

theorem Safe.advance (h : s.Safe) (i : Nat) (hi : s.Orderly (.advance i)) : (s.step (.advance i)).Safe := by
  unfold step
  dsimp only
  cases hw : s.writers[i]? with
  | none => exact h
  | some w =>
    have hin : w ∈ s.writers := mem_of_getElem? hw
    have hkeeps : ∀ id c, s.tables.channels.get? id = some c → Keeps [w] id c.groups_ := by
      intro id c hc w' hw'
      rw [mem_singleton] at hw'
      subst hw'
      exact h.fresh id c hc w' hin
    refine ⟨fun id c hc group hgroup => ?_, fun id c hc => ?_, fun group hneeds => ?_⟩
    · rw [Writer.advance_channels] at hc ⊢
      have hrest : Owed s.tables.channels (w.advance s.tables).2.toList id group →
          Owed s.tables.channels (s.writers.eraseIdx i ++ (w.advance s.tables).2.toList) id group :=
        fun howed => howed.mono (fun _ => mem_append_right _) fun c hc tag hctag _ => ⟨c, hc, hctag⟩
      have hpicked := fun howes => (Writer.advance_owes hc (hkeeps id c hc) hgroup howes).imp_right hrest
      rcases h.covered id c hc group hgroup with hrow | ⟨w', hw', howes⟩
      · by_cases hdeleted : id ∈ w.deletes
        · exact hpicked (.inl hdeleted)
        · exact .inl (Writer.advance_hasRow hrow hdeleted)
      · by_cases hsame : w' = w
        · subst hsame
          exact hpicked (.inr howes)
        · exact .inr ⟨w', mem_append_left _ (Pool.mem_eraseIdx_of_ne hw hw' hsame), howes⟩
    · rw [Writer.advance_channels] at hc
      intro w' hw' e he hid group hgroup
      rcases mem_append.mp hw' with hw' | hw'
      · exact h.fresh id c hc w' (mem_of_mem_eraseIdx hw') e he hid group hgroup
      · rcases Writer.advance_replacements (mem_toList.mp hw') he with he | hread
        · exact hkeeps id c hc w (mem_singleton.mpr rfl) e he hid group hgroup
        · rw [hread c (by rw [hid]; exact hc)]
          exact hgroup
    · rcases hi w hw group hneeds with hwrites | ⟨id, hid, hrow⟩
      · exact Writer.advance_writes hwrites
      · exact ⟨id, Writer.advance_hasRow hrow hid⟩

theorem Safe.readChannels (h : s.Safe) (hread : s.Orderly .readChannels) : (s.step .readChannels).Safe := by
  refine ⟨h.covered, h.fresh, fun group hneeds => ?_⟩
  obtain ⟨channels, hin, c, hc, henabled, hgroup⟩ := hneeds
  rcases mem_append.mp hin with hin | hin
  · exact h.fed group ⟨channels, hin, c, hc, henabled, hgroup⟩
  · obtain rfl := mem_singleton.mp hin
    have hget := (Table.mem_select_iff.mp hc).1
    rcases h.covered c.1 c.2 hget group hgroup with hrow | howed
    · exact ⟨c.1, hrow⟩
    · exact hread c.1 c.2 hget henabled group hgroup howed

theorem Safe.readAbilities (h : s.Safe) (i : Nat) : (s.step (.readAbilities i)).Safe := by
  refine ⟨h.covered, h.fresh, fun group hneeds => h.fed group ?_⟩
  obtain ⟨channels, hin, hneeds⟩ := hneeds
  exact ⟨channels, mem_of_mem_eraseIdx hin, hneeds⟩

theorem Safe.step (h : s.Safe) (a : Statement) (ha : s.Orderly a) : (s.step a).Safe := by
  cases a with
  | insert f => exact h.insert f ha
  | batchInsertChannels fields => exact h.batchInsertChannels fields ha
  | update id f => exact h.update id f ha
  | delete id => exact h.delete id
  | batchDeleteChannels ids => exact h.batchDeleteChannels ids ha
  | deleteDisabledChannel => exact h.deleteDisabledChannel
  | enableChannelByTag tag => exact h.setStatusByTag tag channelStatusEnabled true
  | disableChannelByTag tag => exact h.setStatusByTag tag channelStatusManuallyDisabled false
  | editChannelByTag tag edit => exact h.editChannelByTag tag edit ha
  | fixAbility => exact h.fixAbility ha
  | advance i => exact h.advance i ha
  | readChannels => exact h.readChannels ha
  | readAbilities i => exact h.readAbilities i

/-- The rows for what was read are there when the abilities are read. -/
theorem Safe.rebuilds (h : s.Safe) (a : Statement) : s.Rebuilds a := by
  cases a with
  | readAbilities =>
    intro channels hchannels
    refine (buildGroups_isOk_iff ?_).mpr ?_
    · intro m hm
      obtain ⟨c, -, rfl⟩ := mem_map.mp hm
      exact splitOn_ne_nil _ _
    · intro m hm group hgroup
      obtain ⟨c, hc, rfl⟩ := mem_map.mp hm
      obtain ⟨hin, henabled⟩ := mem_filter.mp hc
      rw [mem_groups]
      exact h.fed group ⟨channels, mem_of_getElem? hchannels, c, hin, by simpa using henabled, hgroup⟩
  | _ => trivial

end Site

/-- In every run from tables in which each group of a channel has a row of the channel, no rebuild panics when each
statement is orderly. -/
theorem rebuild_does_not_panic (tables : Tables)
    (hcovered : ∀ id c, tables.channels.get? id = some c → ∀ group ∈ c.groups_, HasRow tables.abilities id group)
    (l : List Statement) (horderly : Along Site.step Site.Orderly { tables := tables } l) :
    Along Site.step Site.Rebuilds { tables := tables } l := by
  have hsafe : Site.Safe { tables := tables } := by
    refine ⟨fun id c hc group hgroup => .inl (hcovered id c hc group hgroup), fun id c hc w hw => (by cases hw), ?_⟩
    rintro group ⟨channels, hin, -⟩
    cases hin
  exact along_of_invariant (fun s a h ha => h.step a ha) (fun s a h _ => h.rebuilds a) hsafe horderly

/-! ## A rebuild during a repair -/

def onlyChannel : ChannelFields := { models := text "gpt-4o", group := text "vip" }

/-- The rows of the channel are made again between the two reads. -/
def updatedMeanwhile : List Statement :=
  [.insert onlyChannel, .advance 0, .readChannels, .update 1 onlyChannel, .advance 0, .advance 0, .readAbilities 0]

theorem rebuild_does_not_panic_sample : Along Site.step Site.Rebuilds { tables := {} } updatedMeanwhile := by
  have hneeds {s : Site} {group : Text} (hs : s.rebuilds = [[(1, onlyChannel.row)]]) (h : s.Needs group) :
      group = text "vip" := by
    obtain ⟨channels, hin, c, hc, -, hgroup⟩ := h
    rw [hs, mem_singleton] at hin
    subst hin
    obtain rfl := mem_singleton.mp hc
    exact mem_singleton.mp hgroup
  refine rebuild_does_not_panic {} (fun id c hc => by cases hc) _ ⟨?_, ?_, ?_, ?_, ?_, ?_, trivial, trivial⟩
  · intro w hw
    cases hw
  · rintro w - group ⟨channels, hin, -⟩
    cases hin
  · rintro id c - - group - ⟨w, hw, -⟩
    cases hw
  · rintro c - w hw
    cases hw
  · intro w hw group hgroup
    obtain rfl := hneeds rfl hgroup
    cases hw
    exact .inr ⟨1, not_mem_nil, text "gpt-4o", by decide +kernel⟩
  · intro w hw group hgroup
    obtain rfl := hneeds rfl hgroup
    cases hw
    exact .inl (by decide +kernel)

/-- `FixAbility` has emptied the table when the rebuild reads it. -/
theorem rebuild_during_repair_panics : ¬Along Site.step Site.Rebuilds { tables := {} }
    [.insert onlyChannel, .advance 0, .fixAbility, .readChannels, .readAbilities 0] := by
  intro h
  obtain ⟨m, hm⟩ := h.2.2.2.2.1 _ rfl
  have hpanics : (initChannelCache [(1, onlyChannel.row)] .empty).toBool = false := by decide +kernel
  have hread : initChannelCache [(1, onlyChannel.row)] .empty = .ok m := hm
  rw [hread] at hpanics
  cases hpanics

end CubeRouter.Routing
