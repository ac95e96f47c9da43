import CubeRouter.Organization.ModelAllowList
import CubeRouter.Routing.Constraints

/-!
# The models that a list admits

A name is looked up in a list under its normal form, and an entry counts both as written and in its normal form. The
lists of several memberships are intersected as they are written, before any name is looked up. So a model passes the
effective list when one entry that admits it stands in every restricted list (`effective_iff`), and two lists that
spell a family of models differently have nothing in common even where each of them admits the model.
-/

namespace CubeRouter.Organization.AllowList

open List

/-- `FormatMatchingModelName`. -/
def matchingModelName (name : String) : String :=
  String.ofList (Routing.Selection.formatMatchingModelName name.toList)

/-- `BuildMemberModelAccessSet`; no list gives no set. -/
def buildMemberModelAccessSet (allow : Option (List String)) : Option (List String) :=
  allow.map fun allow => allow.flatMap fun entry => [entry, matchingModelName entry]

def accessSetAllows (set : Option (List String)) (modelName : String) : Bool :=
  match set with
  | none => true
  | some allowed => decide (matchingModelName modelName ∈ allowed)

def isModelAllowedByMemberAccess (allow : Option (List String)) (modelName : String) : Bool :=
  accessSetAllows (buildMemberModelAccessSet allow) modelName

variable {unmarshal : String → Option (List String)} {rows : List OrganizationMember} {m entry : String}

theorem allowed_iff {l : List String} : isModelAllowedByMemberAccess (some l) m = true ↔
    ∃ entry ∈ l, isModelAllowedByMemberAccess (some [entry]) m = true := by
  simp [isModelAllowedByMemberAccess, accessSetAllows, buildMemberModelAccessSet]

theorem allowed_normal {m : String} : isModelAllowedByMemberAccess (some [matchingModelName m]) m = true := by
  simp [isModelAllowedByMemberAccess, accessSetAllows, buildMemberModelAccessSet]

theorem nodup_cleanMemberModelAccess (seen models : List String) :
    (cleanMemberModelAccess seen models).Nodup ∧ ∀ name ∈ cleanMemberModelAccess seen models, name ∉ seen := by
  induction models generalizing seen with
  | nil => exact ⟨nodup_nil, fun _ h => absurd h not_mem_nil⟩
  | cons model _ ih =>
    unfold cleanMemberModelAccess
    split_ifs with hdrop
    · exact ih seen
    · obtain ⟨hnodup, hfresh⟩ := ih (Ledger.trimSpace model :: seen)
      refine ⟨nodup_cons.mpr ⟨fun h => hfresh _ h mem_cons_self, hnodup⟩, fun name hname => ?_⟩
      rcases mem_cons.mp hname with rfl | hname
      · exact fun h => hdrop (.inr h)
      · exact fun h => hfresh name hname (mem_cons_of_mem _ h)

theorem nodup_parseMemberModelAccess {raw : String} : (parseMemberModelAccess unmarshal raw).Nodup := by
  unfold parseMemberModelAccess
  split_ifs
  · exact nodup_nil
  · split
    · exact nodup_nil
    · exact (((nodup_cleanMemberModelAccess [] _).1.filter _).sublist (take_sublist _ _))

theorem count_flatten_eq_length {lists : List (List String)} (h : ∀ l ∈ lists, l.Nodup) (name : String) :
    lists.flatten.count name = lists.length ↔ ∀ l ∈ lists, name ∈ l := by
  have hcount : lists.flatten.count name = lists.countP (name ∈ ·) := by
    induction lists with
    | nil => rfl
    | cons l _ ih =>
      rw [flatten_cons, count_append, ih fun k hk => h k (mem_cons_of_mem _ hk),
        (h l mem_cons_self).count, countP_cons, Nat.add_comm]
      simp
  rw [hcount, countP_eq_length]
  simp

def restrictedLists (unmarshal : String → Option (List String)) (rows : List OrganizationMember) : List (List String) :=
  (rows.map fun row => parseMemberModelAccess unmarshal row.modelAccess).filter (· ≠ [])

theorem effective_iff : isModelAllowedByMemberAccess (memberModelAllowList unmarshal rows) m = true ↔
    ∃ entry, (∀ l ∈ restrictedLists unmarshal rows, entry ∈ l) ∧
    isModelAllowedByMemberAccess (some [entry]) m = true := by
  have hlist : memberModelAllowList unmarshal rows =
      if restrictedLists unmarshal rows = [] then none
      else some (sortStrings ((restrictedLists unmarshal rows).flatten.dedup.filter fun name =>
        (restrictedLists unmarshal rows).flatten.count name = (restrictedLists unmarshal rows).length)) := rfl
  rw [hlist]
  split_ifs with hnone
  · exact iff_of_true rfl ⟨_, fun l hl => absurd hl (by rw [hnone]; exact not_mem_nil), allowed_normal⟩
  · have hnodup : ∀ l ∈ restrictedLists unmarshal rows, l.Nodup := by
      intro l hl
      obtain ⟨row, -, rfl⟩ := mem_map.mp (mem_of_mem_filter hl)
      exact nodup_parseMemberModelAccess
    obtain ⟨l, hl⟩ := exists_mem_of_ne_nil _ hnone
    rw [allowed_iff]
    refine exists_congr fun entry => and_congr_left fun _ => ?_
    simp only [sortStrings, mem_insertionSort, mem_filter, decide_eq_true_eq, count_flatten_eq_length hnodup,
      mem_dedup]
    exact and_iff_right_of_imp fun h => mem_flatten.mpr ⟨l, hl, h l hl⟩

/-- **What the memberships of a user admit together**: the effective list admits a model when one entry that admits it
is in every restricted list. Then every restricted list admits it on its own; the converse holds where no two of their
entries admit it. -/
theorem effective_allow_list (unmarshal : String → Option (List String)) (db : Database) (userId : Nat) (m : String) :
    let rows := db.memberships userId
    let lists := restrictedLists unmarshal rows
    let allowed := isModelAllowedByMemberAccess (memberModelAllowList unmarshal rows) m
    (allowed = true ↔ ∃ entry, (∀ l ∈ lists, entry ∈ l) ∧ isModelAllowedByMemberAccess (some [entry]) m = true) ∧
    (allowed = true → ∀ l ∈ lists, isModelAllowedByMemberAccess (some l) m = true) ∧
    ((∀ entry ∈ lists.flatten, ∀ other ∈ lists.flatten, isModelAllowedByMemberAccess (some [entry]) m = true →
      isModelAllowedByMemberAccess (some [other]) m = true → entry = other) →
      (∀ l ∈ lists, isModelAllowedByMemberAccess (some l) m = true) → allowed = true) ∧
    (lists = [] → allowed = true) := by
  intro rows lists allowed
  refine ⟨effective_iff, fun h l hl => ?_, fun hone hall => ?_, fun hnone => ?_⟩
  · obtain ⟨entry, hmem, hadmits⟩ := effective_iff.mp h
    exact allowed_iff.mpr ⟨entry, hmem l hl, hadmits⟩
  · refine effective_iff.mpr ?_
    cases hlists : lists with
    | nil => exact ⟨_, fun l (hl : l ∈ lists) => absurd (hlists ▸ hl) not_mem_nil, allowed_normal⟩
    | cons l =>
      have hl : l ∈ lists := hlists ▸ mem_cons_self
      obtain ⟨entry, hentry, hadmits⟩ := allowed_iff.mp (hall l hl)
      refine ⟨entry, fun k hk => ?_, hadmits⟩
      obtain ⟨other, hother, hadmits'⟩ := allowed_iff.mp (hall k hk)
      rwa [hone entry (mem_flatten.mpr ⟨l, hl, hentry⟩) other (mem_flatten.mpr ⟨k, hk, hother⟩) hadmits hadmits']
  · exact effective_iff.mpr ⟨_, fun l (hl : l ∈ lists) => absurd (hnone ▸ hl) not_mem_nil, allowed_normal⟩

def gizmoLists (raw : String) : Option (List String) :=
  if raw = "[\"gpt-4-gizmo-*\"]" then some ["gpt-4-gizmo-*"]
  else if raw = "[\"gpt-4-gizmo-g1\"]" then some ["gpt-4-gizmo-g1"]
  else none

/-- One membership names the family, the other one model of it. -/
theorem spellings_not_intersected :
    let db : Database :=
      { organizations := [⟨1, .active⟩, ⟨2, .active⟩]
        members := [⟨7, 1, .active, "[\"gpt-4-gizmo-*\"]"⟩, ⟨7, 2, .active, "[\"gpt-4-gizmo-g1\"]"⟩] }
    let rows := db.memberships 7
    (∀ l ∈ restrictedLists gizmoLists rows, isModelAllowedByMemberAccess (some l) "gpt-4-gizmo-g1" = true) ∧
    isModelAllowedByMemberAccess (memberModelAllowList gizmoLists rows) "gpt-4-gizmo-g1" = false := by
  decide +kernel

end CubeRouter.Organization.AllowList
