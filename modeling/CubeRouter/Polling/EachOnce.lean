import CubeRouter.Polling.Tasks
import Mathlib.Data.List.Nodup

/-!
# Each task once a pass

Which tasks a pass of `RunTaskPollingOnce` hands to which routine. The tasks of a platform are found again by their
upstream id: the last task with an id stands for all of them.
-/

namespace CubeRouter.Polling

open List

variable {objects : List Object} {platform : String} {channels : List Nat} {i j ch : Nat} {o o' : Object}

/-- The object is a task of the platform that can be asked for. -/
def Object.polled (platform : String) (o : Object) : Bool := o.task.platform = platform ∧ o.task.getUpstreamTaskID ≠ ""

/-- The tasks that go to `failAndRefundTasks`. -/
def nullUpstreamTasks (objects : List Object) (platform : String) : List Nat :=
  (objects.zipIdx.filter fun e => e.1.task.platform = platform ∧ e.1.task.getUpstreamTaskID = "").map Prod.snd

/-- The keys of `taskChannelM`, in the order in which the loop takes them. -/
def ChannelOrder (objects : List Object) (platform : String) (channels : List Nat) : Prop :=
  channels.Nodup ∧ ∀ ch, ch ∈ channels ↔ ∃ o ∈ objects, o.polled platform ∧ o.task.channelId = ch

/-- `DispatchPlatformUpdate`: the channel of a routine with each task that it is handed. Midjourney tasks are not
handed on. -/
def dispatchPlatformUpdate (objects : List Object) (platform : String) (channels : List Nat) : List (Nat × Nat) :=
  if platform = "mj" then []
  else channels.flatMap fun ch => (channelTasks objects platform ch).map fun i => (ch, i)

/-- Each task with an upstream id is handed once, to its own channel, and each without one is failed once. -/
structure EachOnce (objects : List Object) (platform : String) (channels : List Nat) : Prop where
  nodup : (dispatchPlatformUpdate objects platform channels).Nodup
  handed : ∀ ch i, (ch, i) ∈ dispatchPlatformUpdate objects platform channels ↔
    ∃ o, objects[i]? = some o ∧ o.polled platform ∧ o.task.channelId = ch
  nodup_null : (nullUpstreamTasks objects platform).Nodup
  null : ∀ i, i ∈ nullUpstreamTasks objects platform ↔
    ∃ o, objects[i]? = some o ∧ o.task.platform = platform ∧ o.task.getUpstreamTaskID = ""

/-- No two tasks share an upstream id. -/
def DistinctUpstream (objects : List Object) (platform : String) : Prop :=
  ∀ (i j : Nat) (o o' : Object), objects[i]? = some o → objects[j]? = some o' → o.polled platform → o'.polled platform →
    o.task.getUpstreamTaskID = o'.task.getUpstreamTaskID → i = j

/-! ## The index by upstream id -/

theorem taskM_concat (objects : List Object) (o : Object) (platform upstreamID : String) :
    taskM (objects ++ [o]) platform upstreamID =
      if o.task.platform = platform ∧ o.task.getUpstreamTaskID = upstreamID then some objects.length
      else taskM objects platform upstreamID := by
  simp [taskM, zipIdx_append]

theorem taskM_spec (objects : List Object) (platform upstreamID : String) :
    match taskM objects platform upstreamID with
    | some i => (∃ o, objects[i]? = some o ∧ o.task.platform = platform ∧ o.task.getUpstreamTaskID = upstreamID) ∧
        ∀ (j : Nat) (o : Object), objects[j]? = some o → o.task.platform = platform →
          o.task.getUpstreamTaskID = upstreamID → j ≤ i
    | none => ∀ (j : Nat) (o : Object), objects[j]? = some o → o.task.platform = platform →
        o.task.getUpstreamTaskID ≠ upstreamID := by
  induction objects using List.reverseRecOn with
  | nil => simp [taskM]
  | append_singleton objects last ih =>
    rw [taskM_concat]
    by_cases hlast : last.task.platform = platform ∧ last.task.getUpstreamTaskID = upstreamID
    · rw [if_pos hlast]
      refine ⟨⟨last, getElem?_concat_length, hlast⟩, fun j o hj _ _ => ?_⟩
      have hlt := (List.getElem?_eq_some_iff.mp hj).1
      simp only [length_append, length_singleton] at hlt
      omega
    · rw [if_neg hlast]
      have hold (j : Nat) (o : Object) (hj : (objects ++ [last])[j]? = some o) (hplatform : o.task.platform = platform)
          (hid : o.task.getUpstreamTaskID = upstreamID) : objects[j]? = some o := by
        by_cases hlt : j < objects.length
        · rwa [getElem?_append_left hlt] at hj
        · rw [getElem?_append_right (by omega), getElem?_singleton] at hj
          split_ifs at hj
          cases hj
          exact absurd ⟨hplatform, hid⟩ hlast
      cases hfound : taskM objects platform upstreamID with
      | none =>
        rw [hfound] at ih
        exact fun j o hj hplatform hid => ih j o (hold j o hj hplatform hid) hplatform hid
      | some =>
        rw [hfound] at ih
        obtain ⟨⟨o, hi, hsame⟩, hmax⟩ := ih
        refine ⟨⟨o, ?_, hsame⟩, fun j o hj hplatform hid => hmax j o (hold j o hj hplatform hid) hplatform hid⟩
        rwa [getElem?_append_left (List.getElem?_eq_some_iff.mp hi).1]

theorem polled_iff : o.polled platform = true ↔ o.task.platform = platform ∧ o.task.getUpstreamTaskID ≠ "" := by
  simp [Object.polled]

theorem taskM_eq (h : DistinctUpstream objects platform) (hi : objects[i]? = some o) (hpolled : o.polled platform) :
    taskM objects platform o.task.getUpstreamTaskID = some i := by
  have hspec := taskM_spec objects platform o.task.getUpstreamTaskID
  cases hfound : taskM objects platform o.task.getUpstreamTaskID with
  | none =>
    rw [hfound] at hspec
    exact absurd rfl (hspec i o hi (polled_iff.mp hpolled).1)
  | some j =>
    rw [hfound] at hspec
    obtain ⟨⟨o', hj, hplatform, hid⟩, -⟩ := hspec
    have hpolled' : o'.polled platform := polled_iff.mpr ⟨hplatform, hid ▸ (polled_iff.mp hpolled).2⟩
    rw [h i j o o' hi hj hpolled hpolled' hid.symm]

theorem channelTasks_eq (h : DistinctUpstream objects platform) (ch : Nat) : channelTasks objects platform ch =
      (objects.zipIdx.filter fun e => e.1.polled platform ∧ e.1.task.channelId = ch).map Prod.snd := by
  have hzip : objects = objects.zipIdx.map Prod.fst := by simp
  unfold channelTasks taskChannelM
  conv_lhs => rw [hzip]
  rw [filter_map, map_map, filterMap_map]
  have hsame : (objects.zipIdx.filter ((fun o : Object => decide (o.task.platform = platform ∧ o.task.channelId = ch ∧
      o.task.getUpstreamTaskID ≠ "")) ∘ Prod.fst)) =
      objects.zipIdx.filter fun e => e.1.polled platform ∧ e.1.task.channelId = ch := by
    refine filter_congr fun e _ => ?_
    refine decide_eq_decide.mpr ?_
    rw [polled_iff]
    tauto
  rw [← hzip, hsame, ← filterMap_eq_map]
  refine filterMap_congr fun e he => ?_
  obtain ⟨hmem, hpolled⟩ := mem_filter.mp he
  have hi := mem_zipIdx_iff_getElem?.mp hmem
  exact taskM_eq h hi (by simpa using (of_decide_eq_true hpolled).1)

/-! ## One pass -/

theorem mem_zipIdx_filter {p : Object × Nat → Bool} : i ∈ (objects.zipIdx.filter p).map Prod.snd ↔
    ∃ o, objects[i]? = some o ∧ p (o, i) := by
  simp [mem_zipIdx_iff_getElem?]

theorem nodup_zipIdx_filter {p : Object × Nat → Bool} : ((objects.zipIdx.filter p).map Prod.snd).Nodup := by
  refine Nodup.sublist (filter_sublist.map Prod.snd) ?_
  rw [zipIdx_map_snd]
  exact nodup_range'

theorem mem_dispatchPlatformUpdate (hplatform : platform ≠ "mj") :
    (ch, i) ∈ dispatchPlatformUpdate objects platform channels ↔ ch ∈ channels ∧
    i ∈ channelTasks objects platform ch := by
  simp [dispatchPlatformUpdate, hplatform]

theorem eachOnce_of_distinct (horder : ChannelOrder objects platform channels) (hplatform : platform ≠ "mj")
    (h : DistinctUpstream objects platform) : EachOnce objects platform channels := by
  refine ⟨?_, fun ch i => ?_, nodup_zipIdx_filter, fun i => by simp [nullUpstreamTasks, mem_zipIdx_filter]⟩
  · unfold dispatchPlatformUpdate
    rw [if_neg hplatform]
    refine nodup_flatMap.mpr ⟨fun ch _ => ?_, ?_⟩
    · rw [channelTasks_eq h]
      exact nodup_zipIdx_filter.map fun i j hij => (Prod.mk.inj hij).2
    · refine horder.1.imp fun {ch ch'} hne => ?_
      intro e he he'
      obtain ⟨i, -, rfl⟩ := mem_map.mp he
      obtain ⟨j, -, hj⟩ := mem_map.mp he'
      exact hne (Prod.mk.inj hj).1.symm
  · rw [mem_dispatchPlatformUpdate hplatform, channelTasks_eq h, mem_zipIdx_filter, horder.2]
    constructor
    · rintro ⟨-, o, hi, hpolled⟩
      exact ⟨o, hi, by simpa using hpolled⟩
    · rintro ⟨o, hi, hpolled, hch⟩
      exact ⟨⟨o, mem_of_getElem? hi, hpolled, hch⟩, o, hi, by simp [hpolled, hch]⟩

theorem taskM_of_handed (hmem : (ch, i) ∈ dispatchPlatformUpdate objects platform channels)
    (hi : objects[i]? = some o) :
    taskM objects platform o.task.getUpstreamTaskID = some i := by
  unfold dispatchPlatformUpdate at hmem
  split_ifs at hmem
  · cases hmem
  · obtain ⟨_, -, hmem⟩ := mem_flatMap.mp hmem
    obtain ⟨_, htask, heq⟩ := mem_map.mp hmem
    cases heq
    obtain ⟨upstreamID, -, hfound⟩ := mem_filterMap.mp htask
    have hspec := taskM_spec objects platform upstreamID
    rw [hfound] at hspec
    obtain ⟨⟨_, hi', -, hid⟩, -⟩ := hspec
    cases hi.symm.trans hi'
    rw [hid]
    exact hfound

theorem each_task_once_iff (horder : ChannelOrder objects platform channels) : EachOnce objects platform channels ↔
      DistinctUpstream objects platform ∧ (platform = "mj" → ∀ o ∈ objects, o.polled platform = false) := by
  constructor
  · intro h
    refine ⟨fun i j o o' hi hj hpolled hpolled' hid => ?_, fun hmj o ho => ?_⟩
    · have hfound := taskM_of_handed ((h.handed _ i).mpr ⟨o, hi, hpolled, rfl⟩) hi
      have hfound' := taskM_of_handed ((h.handed _ j).mpr ⟨o', hj, hpolled', rfl⟩) hj
      rw [← hid, hfound] at hfound'
      exact Option.some.inj hfound'
    · obtain ⟨i, hi⟩ := mem_iff_getElem?.mp ho
      by_contra hpolled
      have hmem := (h.handed o.task.channelId i).mpr ⟨o, hi, by simpa using hpolled, rfl⟩
      rw [dispatchPlatformUpdate, if_pos hmj] at hmem
      cases hmem
  · rintro ⟨hdistinct, hmj⟩
    by_cases hplatform : platform = "mj"
    · refine ⟨?_, fun ch i => ?_, nodup_zipIdx_filter, fun i => by simp [nullUpstreamTasks, mem_zipIdx_filter]⟩
      · rw [dispatchPlatformUpdate, if_pos hplatform]
        exact nodup_nil
      · rw [dispatchPlatformUpdate, if_pos hplatform]
        refine ⟨fun hmem => (by cases hmem), ?_⟩
        rintro ⟨o, hi, hpolled, -⟩
        rw [hmj hplatform o (mem_of_getElem? hi)] at hpolled
        cases hpolled
    · exact eachOnce_of_distinct horder hplatform hdistinct

/-- Two tasks of two channels, with their own ids. -/
theorem each_task_once_two :
    EachOnce [⟨0, { taskID := "a", platform := "p", channelId := 1 }⟩,
      ⟨1, { taskID := "b", platform := "p", channelId := 2 }⟩]
      "p" [2, 1] := by
  refine (each_task_once_iff ⟨by decide, ?_⟩).mpr ⟨?_, by decide⟩
  · intro ch
    simp [Object.polled, Task.getUpstreamTaskID]
    omega
  · intro i j o o' hi hj hpolled hpolled' hid
    match i, j with
    | 0, 0 | 1, 1 => rfl
    | 0, 1 | 1, 0 =>
      cases hi
      cases hj
      exact absurd hid (by decide)
    | _ + 2, _ => cases hi
    | 0, _ + 2 | 1, _ + 2 => cases hj

/-- Two channels whose upstreams gave the same id: the first task is skipped, the second one handed to both. -/
theorem shared_id_skips_task :
    let objects : List Object :=
      [⟨0, { taskID := "a", platform := "p", channelId := 1 }⟩, ⟨1, { taskID := "a", platform := "p", channelId := 2 }⟩]
    ChannelOrder objects "p" [1, 2] ∧ dispatchPlatformUpdate objects "p" [1, 2] = [(1, 1), (2, 1)] ∧
      ¬EachOnce objects "p" [1, 2] := by
  refine ⟨⟨by decide, fun ch => ?_⟩, by decide, fun h => ?_⟩
  · simp [Object.polled, Task.getUpstreamTaskID]
    omega
  have hmem := (h.handed 1 0).mpr ⟨_, rfl, by decide, rfl⟩
  exact absurd hmem (by decide)

end CubeRouter.Polling
