import CubeRouter.Studio.Running

/-!
# What is taken and given back

Every admission and every reservation that was taken is given back once: at each id the calls that were made, those that
a goroutine has still to make and what the entry holds add up. The right to run a job, to reserve a slot for it and to
give back its admission passes from the entry to the dispatcher or to the goroutine of the job, and from there to the
log.
-/

namespace CubeRouter.Studio

open Relational Transition List Option Nat

def Happening.id : Happening → Nat
  | submitted id _ | runStarted id | runReturned id _ | committed id | cancelAccepted id | admissionReleased id
  | reserved id | slotReleased id | acknowledged id | purged id _ => id

def Happening.returns (id : Nat) : Happening → Bool
  | runReturned id' _ => id' = id
  | _ => false

namespace Dispatch

/-- The admissions that the dispatcher has still to give back. -/
def admissions : Dispatch → List Nat
  | releasing admissions _ => admissions
  | reserving _ _ | reserved _ _ | returning _ _ => []

/-- The dispatcher has a slot in its hands. -/
def holds : Dispatch → List Nat
  | reserved id _ | returning id _ => [id]
  | releasing _ _ | reserving _ _ => []

/-- A slot may still be reserved for the job: it waits, and the dispatcher has not got one yet. -/
def reservable (id waiting : Nat) : Option Dispatch → Nat
  | some (reserving id' _) => if id' = id then 1 else waiting
  | some (reserved id' _) => if id' = id then 0 else waiting
  | some (releasing _ _) | some (returning _ _) | none => waiting

end Dispatch

namespace Job

def fresh (id : Nat) (job : Job) : Bool := job.id = id ∧ job.phase = .spawned

def unreturned (id : Nat) (job : Job) : Bool := job.id = id ∧ (job.phase = .spawned ∨ job.phase = .running)

def owesAdmission (id : Nat) (job : Job) : Bool :=
  job.id = id ∧ job.releaseAdmission ∧ (job.phase = .finished ∨ job.phase = .slotReleased)

def holdsSlot (id : Nat) (job : Job) : Bool := job.id = id ∧ (job.phase.executing ∨ job.phase = .finished)

end Job

def Queue.waitingAt (q : Queue) (id : Nat) : Nat :=
  ((q.entries.get? id).any fun e => e.status.state = .queued).toNat

def Queue.heldAt (q : Queue) (id : Nat) : Nat := ((q.entries.get? id).any fun e => e.busy && e.releaseAdmission).toNat

namespace System

/-- The calls to a release function that a goroutine has still to make. -/
def admissionsPending (s : System) (id : Nat) : Nat :=
  s.owed.count id + (s.dispatch.elim [] Dispatch.admissions).count id + s.jobs.countP (Job.owesAdmission id)

/-- The reservations that a goroutine has still to release. -/
def reservationsHeld (s : System) (id : Nat) : Nat :=
  (s.dispatch.elim [] Dispatch.holds).count id + s.jobs.countP (Job.holdsSlot id)

/-- An id that is not handed out has no share in anything. -/
def issued (s : System) (id : Nat) : Nat := if id < s.entries.next then 1 else 0

theorem issued_le (s : System) (id : Nat) : s.issued id ≤ 1 := by
  unfold issued
  split_ifs <;> omega

structure Balanced (s : System) (id : Nat) : Prop where
  started : s.log.count (.runStarted id) + s.jobs.countP (Job.fresh id) + s.waitingAt id ≤ s.issued id
  returned : s.log.countP (Happening.returns id) + s.jobs.countP (Job.unreturned id) + s.waitingAt id ≤ s.issued id
  released : s.log.count (.admissionReleased id) + s.admissionsPending id + s.heldAt id =
    s.log.count (.submitted id true)
  submitted : s.log.count (.submitted id true) ≤ s.issued id
  reserved : s.log.count (.reserved id) = s.log.count (.slotReleased id) + s.reservationsHeld id
  once : s.log.count (.reserved id) + Dispatch.reservable id (s.waitingAt id) s.dispatch ≤ s.issued id
  admitted : ∀ e, s.entries.get? id = some e → s.log.count (.submitted id true) = if e.releaseAdmission then 1 else 0

end System

/-! ## Entries -/

section Entries

variable {q q' : Queue} {id : Nat} {e e' : Entry}

theorem waitingAt_of_get (h : q.entries.get? id = some e) :
    q.waitingAt id = if e.status.state = .queued then 1 else 0 := by
  rw [Queue.waitingAt, h, any_some]
  split_ifs with hqueued <;> simp [hqueued]

theorem waitingAt_le (q : Queue) (id : Nat) : q.waitingAt id ≤ 1 := Bool.toNat_le _

theorem heldAt_of_get (h : q.entries.get? id = some e) :
    q.heldAt id = if e.busy = true ∧ e.releaseAdmission = true then 1 else 0 := by
  rw [Queue.heldAt, h, any_some]
  split_ifs with hheld
  · simp [hheld]
  · rw [← Bool.and_eq_true] at hheld
    simp [hheld]

theorem waitingAt_writes (h : Writes q id e e' q') (j : Nat) :
    q'.waitingAt j = if j = id then (if e'.status.state = .queued then 1 else 0) else q.waitingAt j := by
  by_cases hj : j = id
  · rw [if_pos hj, hj, waitingAt_of_get h.get?_self]
  · rw [if_neg hj, Queue.waitingAt, Queue.waitingAt, h.get?_of_ne hj]

theorem Entry.Sound.swept_held {e : Entry} (h : e.Sound) {now : Int} :
    ((e.swept now).any fun e => e.busy && e.releaseAdmission).toNat + (e.releases now).toNat =
      (e.busy && e.releaseAdmission).toNat := by
  have hpurged : (e.visited now).purges now = true → (e.visited now).busy = false := fun hp =>
    (h.visited now).sound.not_busy_of_purges hp
  have hswept : (e.swept now).any (fun e => e.busy && e.releaseAdmission) =
      ((e.visited now).busy && e.releaseAdmission) := by
    unfold Entry.swept
    split_ifs with hp
    · rw [any_none, hpurged hp, Bool.false_and]
    · rw [any_some, Entry.visited_releaseAdmission]
  rw [hswept, Entry.releases]
  by_cases hexpires : e.expires now = true
  · have hqueued : e.status.state = .queued := by
      simp only [Entry.expires, decide_eq_true_eq] at hexpires
      exact hexpires.1
    have hleft : (e.visited now).busy = false := by
      rw [Entry.visited_of_expires hexpires, ← Bool.not_eq_true, Entry.busy_iff]
      simp [Entry.expire, (h.queued hqueued).1]
    rw [hleft, Entry.busy_iff.mpr (.inr hqueued)]
    simp [hexpires]
  · have hsame : (e.visited now).busy = e.busy := by
      rw [Entry.visited_of_not_expires (by simpa using hexpires)]
      rcases e.giveUp_eq now with heq | ⟨hactive, -, heq⟩
      · rw [heq]
      · rw [heq, Entry.busy_iff.mpr (.inl hactive)]
        exact Entry.busy_iff.mpr (.inl hactive)
    rw [hsame]
    simp [hexpires]

theorem Writes.admitted (h : Writes q id e e' q') {j : Nat} {new : Entry} (hget : q'.entries.get? j = some new) :
    ∃ old, q.entries.get? j = some old ∧ new.releaseAdmission = old.releaseAdmission := by
  by_cases hj : j = id
  · subst hj
    cases h.get?_self.symm.trans hget
    exact ⟨e, h.get, h.releaseAdmission⟩
  · exact ⟨new, (h.get?_of_ne hj).symm.trans hget, rfl⟩

theorem heldAt_writes (h : Writes q id e e' q') (j : Nat) : q'.heldAt j =
      if j = id then (if e'.busy = true ∧ e.releaseAdmission = true then 1 else 0) else q.heldAt j := by
  by_cases hj : j = id
  · rw [if_pos hj, hj, heldAt_of_get h.get?_self, h.releaseAdmission]
  · rw [if_neg hj, Queue.heldAt, Queue.heldAt, h.get?_of_ne hj]

end Entries

namespace System

/-! ## Steps of a goroutine -/

variable {s : System} {id : Nat} {extra : List Happening} {i : Nat} {job : Job} {e e' : Entry} {q : Queue}

/-- What a section and the calls around it have to leave of the accounts of an id. -/
theorem Balanced.of {s' : System} (h : s.Balanced id) (hnext : s'.entries.next = s.entries.next)
    (hlog : s'.log = s.log ++ extra)
    (hstarted : extra.count (.runStarted id) + s'.jobs.countP (Job.fresh id) + s'.waitingAt id ≤
      s.jobs.countP (Job.fresh id) + s.waitingAt id)
    (hreturned : extra.countP (Happening.returns id) + s'.jobs.countP (Job.unreturned id) + s'.waitingAt id ≤
      s.jobs.countP (Job.unreturned id) + s.waitingAt id) (hsubmitted : extra.count (.submitted id true) = 0)
    (hreleased : extra.count (.admissionReleased id) + s'.admissionsPending id + s'.heldAt id =
      s.admissionsPending id + s.heldAt id) (hreserved : extra.count (.reserved id) + s.reservationsHeld id =
      extra.count (.slotReleased id) + s'.reservationsHeld id)
    (honce : extra.count (.reserved id) + Dispatch.reservable id (s'.waitingAt id) s'.dispatch ≤
      Dispatch.reservable id (s.waitingAt id) s.dispatch)
    (hadmitted : ∀ e', s'.entries.get? id = some e' → ∃ e, s.entries.get? id = some e ∧
      e'.releaseAdmission = e.releaseAdmission) : s'.Balanced id := by
  obtain ⟨_, _, _, _, _, _, hadmitted'⟩ := h
  have hissued : s'.issued id = s.issued id := by
    rw [issued, issued, hnext]
  refine ⟨?_, ?_, ?_, ?_, ?_, ?_, fun e' he' => ?_⟩
  case refine_7 =>
    obtain ⟨e, he, hsame⟩ := hadmitted e' he'
    rw [hlog, count_append, hsubmitted, add_zero, hadmitted' e he, hsame]
  all_goals
    rw [hlog]
    try rw [hissued]
    simp only [count_append, countP_append]
    omega

theorem Balanced.advance (h : s.Balanced id) (hjob : s.jobs[i]? = some job) {phase : Phase}
    (hstep : (job.phase = .spawned ∧ phase = .running ∧ extra = [.runStarted job.id]) ∨
      (job.phase = .running ∧ ∃ r, phase = .returned r ∧ extra = [.runReturned job.id r]) ∨
      (job.phase = .finished ∧ phase = .slotReleased ∧ extra = [.slotReleased job.id]) ∨
      (job.phase = .slotReleased ∧ phase = .admissionReleased ∧
        (job.releaseAdmission = true ∧ extra = [.admissionReleased job.id] ∨
        job.releaseAdmission = false ∧ extra = []))) :
    Balanced { s with jobs := s.jobs.eraseIdx i ++ [{ job with phase := phase }], log := s.log ++ extra } id := by
  have hfresh := Pool.countP_replace (Job.fresh id) hjob { job with phase := phase }
  have hunreturned := Pool.countP_replace (Job.unreturned id) hjob { job with phase := phase }
  have howes := Pool.countP_replace (Job.owesAdmission id) hjob { job with phase := phase }
  have hslot := Pool.countP_replace (Job.holdsSlot id) hjob { job with phase := phase }
  generalize s.jobs.eraseIdx i ++ [{ job with phase := phase }] = jobs' at *
  simp only [Job.fresh, Job.unreturned, Job.owesAdmission, Job.holdsSlot] at hfresh hunreturned howes hslot
  rcases hstep with ⟨hphase, rfl, rfl⟩ | ⟨hphase, r, rfl, rfl⟩ | ⟨hphase, rfl, rfl⟩ |
    ⟨hphase, rfl, ⟨hadmission, rfl⟩ | ⟨hadmission, rfl⟩⟩
  all_goals
    refine h.of rfl rfl ?_ ?_ ?_ ?_ ?_ ?_ fun e he => ⟨e, he, rfl⟩
    all_goals
      by_cases hid : job.id = id
      all_goals
        simp_all [Phase.executing, admissionsPending, reservationsHeld, Happening.returns]
        try omega

theorem Balanced.leave (h : s.Balanced id) (hjob : s.jobs[i]? = some job) (hphase : job.phase = .admissionReleased) :
    Balanced { s with running := s.running - 1, jobs := s.jobs.eraseIdx i } id := by
  have hcount : ∀ p : Job → Bool, p job = false → (s.jobs.eraseIdx i).countP p = s.jobs.countP p := by
    intro p hp
    rw [Pool.countP_get p hjob, hp]
    rfl
  have hfresh := hcount (Job.fresh id) (by simp [Job.fresh, hphase])
  have hunreturned := hcount (Job.unreturned id) (by simp [Job.unreturned, hphase])
  have howes := hcount (Job.owesAdmission id) (by simp [Job.owesAdmission, hphase])
  have hslot := hcount (Job.holdsSlot id) (by simp [Job.holdsSlot, hphase, Phase.executing])
  obtain ⟨hstarted, hreturned, hreleased, hsubmitted, hreserved, honce, hadmitted⟩ := h
  refine ⟨?_, ?_, ?_, hsubmitted, ?_, honce, hadmitted⟩
  · rw [hfresh]
    exact hstarted
  · rw [hunreturned]
    exact hreturned
  · simp only [admissionsPending, howes]
    exact hreleased
  · simp only [reservationsHeld, hslot]
    exact hreserved

theorem Balanced.finish (h : s.Balanced id) {r : Result} (hjob : s.jobs[i]? = some job)
    (hphase : job.phase = .returned r) (hwrites : Writes s.toQueue job.id e e' q) (hactive : e.active = true)
    (hsound : e.Sound) (hfinishes : Finishes e e' r) (hadmission : job.releaseAdmission = e.releaseAdmission) :
    Balanced { s with toQueue := q, jobs := s.jobs.eraseIdx i ++ [{ job with phase := .finished }] } id := by
  have hfresh := Pool.countP_replace (Job.fresh id) hjob { job with phase := .finished }
  have hunreturned := Pool.countP_replace (Job.unreturned id) hjob { job with phase := .finished }
  have howes := Pool.countP_replace (Job.owesAdmission id) hjob { job with phase := .finished }
  have hslot := Pool.countP_replace (Job.holdsSlot id) hjob { job with phase := .finished }
  generalize s.jobs.eraseIdx i ++ [{ job with phase := .finished }] = jobs' at *
  simp only [Job.fresh, Job.unreturned, Job.owesAdmission, Job.holdsSlot,
    Phase.executing] at hfresh hunreturned howes hslot
  have hqueued : e.status.state ≠ .queued := by
    intro hqueued
    rw [(hsound.queued hqueued).1] at hactive
    cases hactive
  have hbusy : e.busy = true := Entry.busy_iff.mpr (.inl hactive)
  have hidle : e'.busy = false := by
    rw [← Bool.not_eq_true, Entry.busy_iff, hfinishes.active]
    simp [hfinishes.left]
  have hwaiting : q.waitingAt id = s.waitingAt id := by
    rw [waitingAt_writes hwrites, if_neg hfinishes.left]
    split_ifs with hid
    · rw [hid, waitingAt_of_get hwrites.get, if_neg hqueued]
    · rfl
  have hheld : q.heldAt id + (if job.id = id ∧ job.releaseAdmission = true then 1 else 0) = s.heldAt id := by
    rw [heldAt_writes hwrites]
    by_cases hid : id = job.id
    · subst hid
      rw [heldAt_of_get hwrites.get, hadmission]
      simp [hbusy, hidle]
    · simp [hid, Ne.symm hid]
  refine h.of hwrites.next (append_nil _).symm ?_ ?_ rfl ?_ ?_ ?_ fun _ => hwrites.admitted
  all_goals
    by_cases hid : job.id = id
    all_goals
      simp_all [admissionsPending, reservationsHeld]
      try omega

theorem Balanced.advanceJob (h : s.Balanced id) (hconsistent : s.Consistent) (i : Nat) (result : Option Result)
    (now : Int) : (s.advanceJob i result now).Balanced id := by
  unfold System.advanceJob
  split
  · exact h
  · rename_i job hjob
    dsimp only
    split
    · rename_i hphase
      exact h.advance hjob (.inl ⟨hphase, rfl, rfl⟩)
    · rename_i hphase
      exact h.advance hjob (.inr (.inl ⟨hphase, _, rfl, rfl⟩))
    · rename_i r hphase
      have hmem := mem_of_getElem? hjob
      have hexecuting : job.phase.executing = true := by
        rw [hphase]
        rfl
      obtain ⟨e, he, hactive⟩ := hconsistent.active_of_executing hmem hexecuting
      have hsound := hconsistent.accounted.sound job.id e he
      obtain ⟨_, hwrites, hfinishes⟩ := Queue.finishEntry_spec he hsound hactive r now
      rw [he]
      exact h.finish hjob hphase hwrites hactive hsound hfinishes (hconsistent.admission job hmem hexecuting e he)
    · rename_i hphase
      exact h.advance hjob (.inr (.inr (.inl ⟨hphase, rfl, rfl⟩)))
    · rename_i hphase
      split_ifs with hadmission
      · exact h.advance hjob (.inr (.inr (.inr ⟨hphase, rfl, .inl ⟨hadmission, rfl⟩⟩)))
      · rw [← append_nil s.log]
        exact h.advance hjob (.inr (.inr (.inr ⟨hphase, rfl, .inr ⟨by simpa using hadmission, rfl⟩⟩)))
    · rename_i hphase
      exact h.leave hjob hphase

/-! ## Steps of the dispatcher -/

theorem Balanced.dispatch (h : s.Balanced id) {d d' : Option Dispatch} (hd : s.dispatch = d)
    (hjobs : extra.count (.runStarted id) = 0 ∧ extra.countP (Happening.returns id) = 0)
    (hsubmitted : extra.count (.submitted id true) = 0)
    (hreleased : extra.count (.admissionReleased id) + (d'.elim [] Dispatch.admissions).count id =
      (d.elim [] Dispatch.admissions).count id)
    (hreserved : extra.count (.reserved id) + (d.elim [] Dispatch.holds).count id =
      extra.count (.slotReleased id) + (d'.elim [] Dispatch.holds).count id)
    (honce : extra.count (.reserved id) + Dispatch.reservable id (s.waitingAt id) d' ≤
      Dispatch.reservable id (s.waitingAt id) d) : Balanced { s with dispatch := d', log := s.log ++ extra } id := by
  subst hd
  refine h.of rfl rfl ?_ ?_ hsubmitted ?_ ?_ honce fun e he => ⟨e, he, rfl⟩
  · rw [hjobs.1, zero_add]
  · rw [hjobs.2, zero_add]
  · simp only [admissionsPending]
    omega
  · simp only [reservationsHeld]
    omega

theorem Balanced.start (h : s.Balanced id) {started : Nat} {queued : List Nat}
    (hdispatch : s.dispatch = some (.reserved started queued)) (hwrites : Writes s.toQueue started e e' q)
    (hqueued : e.status.state = .queued) (hleft : e'.status.state ≠ .queued)
    (hactive : e'.active = true) (running : Int) :
    Balanced { s with
      toQueue := { q with running := running }
      dispatch := some (.releasing [] queued)
      jobs := s.jobs ++ [{ id := started, releaseAdmission := e.releaseAdmission }] } id := by
  have hbusy : e.busy = true := Entry.busy_iff.mpr (.inr hqueued)
  have hbusy' : e'.busy = true := Entry.busy_iff.mpr (.inl hactive)
  have hheld : q.heldAt id = s.heldAt id := by
    rw [heldAt_writes hwrites]
    split_ifs with hid hadmission
    · rw [hid, heldAt_of_get hwrites.get, if_pos ⟨hbusy, hadmission.2⟩]
    · rw [hid, heldAt_of_get hwrites.get, if_neg fun h => hadmission ⟨hbusy', h.2⟩]
    · rfl
  have hwaiting : q.waitingAt id + (if started = id then 1 else 0) = s.waitingAt id := by
    rw [waitingAt_writes hwrites, if_neg hleft]
    by_cases hid : id = started
    · rw [hid, waitingAt_of_get hwrites.get, if_pos hqueued]
      simp
    · simp [hid, Ne.symm hid]
  refine h.of hwrites.next (append_nil _).symm ?_ ?_ rfl ?_ ?_ ?_ fun _ => hwrites.admitted
  · show 0 + (s.jobs ++ [_]).countP (Job.fresh id) + q.waitingAt id ≤ _
    rw [countP_append, countP_singleton]
    simp only [Job.fresh, and_true, decide_eq_true_eq]
    omega
  · show 0 + (s.jobs ++ [_]).countP (Job.unreturned id) + q.waitingAt id ≤ _
    rw [countP_append, countP_singleton]
    simp only [Job.unreturned, true_or, and_true, decide_eq_true_eq]
    omega
  · show 0 + (_ + _ + (s.jobs ++ [_]).countP (Job.owesAdmission id)) + q.heldAt id = _
    rw [countP_append, countP_singleton, hheld]
    simp [admissionsPending, hdispatch, Job.owesAdmission, Dispatch.admissions]
  · show 0 + s.reservationsHeld id = 0 + (_ + (s.jobs ++ [_]).countP (Job.holdsSlot id))
    rw [countP_append, countP_singleton]
    simp only [reservationsHeld, hdispatch, Job.holdsSlot, elim_some, Dispatch.holds, count_nil,
      count_singleton, beq_iff_eq, Phase.executing, true_or, and_true, decide_eq_true_eq]
    omega
  · show 0 + q.waitingAt id ≤ _
    rw [hdispatch, Dispatch.reservable]
    split_ifs at hwaiting ⊢
    · have hle := waitingAt_le s.toQueue id
      omega
    · omega

theorem Balanced.advanceDispatch (h : s.Balanced id) (hconsistent : s.Consistent) (reservation : Bool) :
    (s.advanceDispatch reservation).Balanced id := by
  have hle := waitingAt_le s.toQueue id
  unfold System.advanceDispatch
  split
  · exact h
  · rename_i id' admissions queued hd
    refine h.dispatch hd ⟨rfl, rfl⟩ rfl ?_ rfl ?_
    · simp only [count_cons, count_nil, elim_some, Dispatch.admissions, beq_iff_eq,
        Happening.admissionReleased.injEq]
      omega
    · exact (zero_add _).le
  · rename_i hd
    rw [← append_nil s.log]
    exact h.dispatch hd ⟨rfl, rfl⟩ rfl rfl rfl (zero_add _).le
  · rename_i id' queued hd
    split_ifs with hfull hany
    · rw [← append_nil s.log]
      exact h.dispatch hd ⟨rfl, rfl⟩ rfl rfl rfl (zero_add _).le
    · rw [← append_nil s.log]
      refine h.dispatch hd ⟨rfl, rfl⟩ rfl rfl rfl ?_
      obtain ⟨e, he, hqueued⟩ := (any_eq_true _ _).mp hany
      have hwaiting := waitingAt_of_get he
      rw [if_pos (by simpa using hqueued)] at hwaiting
      simp only [Dispatch.reservable, count_nil, zero_add]
      split_ifs with hid
      · rw [← hid, hwaiting]
      · exact le_rfl
    · rw [← append_nil s.log]
      exact h.dispatch hd ⟨rfl, rfl⟩ rfl rfl rfl (zero_add _).le
  · rename_i id' queued hd
    split_ifs with hreservation
    · refine h.dispatch hd ⟨rfl, rfl⟩ rfl rfl ?_ ?_
      · simp only [count_cons, count_nil, elim_some, Dispatch.holds, beq_iff_eq, Happening.reserved.injEq,
          reduceCtorEq, if_false]
        omega
      · simp only [count_cons, count_nil, Dispatch.reservable, beq_iff_eq, Happening.reserved.injEq]
        split_ifs <;> omega
    · rw [← append_nil s.log]
      refine h.dispatch hd ⟨rfl, rfl⟩ rfl rfl rfl ?_
      simp only [Dispatch.reservable, count_nil]
      split_ifs <;> omega
  · rename_i id' queued hd
    split
    · rename_i hnone
      rw [← append_nil s.log]
      refine h.dispatch hd ⟨rfl, rfl⟩ rfl rfl rfl ?_
      simp only [Dispatch.reservable, count_nil, zero_add]
      split_ifs with hid
      · subst hid
        rw [Queue.waitingAt, any_eq_false _ _ |>.mpr]
        · exact le_rfl
        · intro e he
          rw [filter_eq_none_iff] at hnone
          simpa using hnone e he
      · exact le_rfl
    · rename_i e hfilter
      obtain ⟨hget, hqueued⟩ := filter_eq_some_iff.mp hfilter
      have hqueued' : e.status.state = .queued := by simpa using hqueued
      have hwrites := Queue.start_spec hget (hconsistent.accounted.sound id' e hget) hqueued'
      exact h.start hd hwrites hqueued' (by simp) rfl (s.running + 1)
  · rename_i id' queued hd
    refine h.dispatch hd ⟨rfl, rfl⟩ rfl rfl ?_ (zero_add _).le
    simp only [count_cons, count_nil, elim_some, Dispatch.holds, beq_iff_eq,
      Happening.slotReleased.injEq, reduceCtorEq, if_false]
    omega

/-! ## The other calls -/

/-- A call writes one entry, and gives back later what the entry held. -/
theorem Balanced.call (h : s.Balanced id) {written : Nat} {releases : List Nat}
    (hwrites : Writes s.toQueue written e e' q) (hqueued : e'.status.state = .queued → e.status.state = .queued)
    (hheld : (if e'.busy = true ∧ e.releaseAdmission = true then 1 else 0) + releases.count written =
      if e.busy = true ∧ e.releaseAdmission = true then 1 else 0) (hreleases : ∀ j ∈ releases, j = written)
    (hextra : ∀ x ∈ extra, x = .cancelAccepted written ∨ x = .acknowledged written ∨ x = .committed written) :
    Balanced { s with toQueue := q, owed := s.owed ++ releases, log := s.log ++ extra } id := by
  have hsilent : ∀ x, x ≠ .cancelAccepted written → x ≠ .acknowledged written → x ≠ .committed written →
      extra.count x = 0 := by
    intro x hcancel hack hcommit
    rw [count_eq_zero]
    intro hmem
    rcases hextra x hmem with hx | hx | hx
    · exact hcancel hx
    · exact hack hx
    · exact hcommit hx
  have hreturns : extra.countP (Happening.returns id) = 0 := by
    rw [countP_eq_zero]
    intro x hx
    rcases hextra x hx with rfl | rfl | rfl <;> simp [Happening.returns]
  have hwaiting : q.waitingAt id ≤ s.waitingAt id := by
    rw [waitingAt_writes hwrites]
    split_ifs with hid hq
    · rw [hid, waitingAt_of_get hwrites.get, if_pos (hqueued hq)]
    · exact zero_le _
    · exact le_rfl
  have hheld' : q.heldAt id + releases.count id = s.heldAt id := by
    rw [heldAt_writes hwrites]
    by_cases hid : id = written
    · rw [if_pos hid, hid, heldAt_of_get hwrites.get]
      exact hheld
    · rw [if_neg hid, count_eq_zero.mpr fun hmem => hid (hreleases id hmem), add_zero]
  refine h.of hwrites.next rfl ?_ ?_ (hsilent _ (by simp) (by simp) (by simp)) ?_ ?_ ?_ fun _ => hwrites.admitted
  · rw [hsilent _ (by simp) (by simp) (by simp)]
    show 0 + s.jobs.countP (Job.fresh id) + q.waitingAt id ≤ _
    omega
  · rw [hreturns]
    show 0 + s.jobs.countP (Job.unreturned id) + q.waitingAt id ≤ _
    omega
  · rw [hsilent _ (by simp) (by simp) (by simp)]
    show 0 + ((s.owed ++ releases).count id + (s.dispatch.elim [] Dispatch.admissions).count id +
      s.jobs.countP (Job.owesAdmission id)) + q.heldAt id = _
    rw [count_append, admissionsPending]
    omega
  · rw [hsilent _ (by simp) (by simp) (by simp), hsilent _ (by simp) (by simp) (by simp)]
    rfl
  · rw [hsilent _ (by simp) (by simp) (by simp)]
    show 0 + Dispatch.reservable id (q.waitingAt id) s.dispatch ≤ _
    unfold Dispatch.reservable
    split
    · split_ifs <;> omega
    · split_ifs <;> omega
    all_goals omega

theorem Balanced.cancel (h : s.Balanced id) (hconsistent : s.Consistent) (sum256 : Bytes → Bytes) (owner : Int)
    (cancelled : Nat) (now : Int) : (s.step sum256 (.cancel owner cancelled now)).Balanced id := by
  rcases hconsistent.cancel_cases sum256 owner cancelled now with heq | ⟨e, e', hcancels, heq⟩
  · rwa [heq]
  · rw [heq]
    have hsound := hconsistent.accounted.sound cancelled e hcancels.writes.get
    have hheld : (if e'.busy = true ∧ e.releaseAdmission = true then 1 else 0) +
        (s.cancelEntry cancelled e now).2.count cancelled =
        if e.busy = true ∧ e.releaseAdmission = true then 1 else 0 := by
      rw [hcancels.releases_eq]
      simp only [Entry.busy_iff, hcancels.active, hcancels.left]
      by_cases hqueued : e.status.state = .queued
      · by_cases hadmission : e.releaseAdmission = true <;> simp [hqueued, hadmission, (hsound.queued hqueued).1]
      · simp [hqueued]
    have hreleases : ∀ j ∈ (s.cancelEntry cancelled e now).2, j = cancelled := by
      intro j hj
      rw [hcancels.releases_eq] at hj
      split_ifs at hj
      · exact mem_singleton.mp hj
      · simp at hj
    split_ifs
    · exact h.call hcancels.writes (fun hq => absurd hq hcancels.left) hheld hreleases (by simp)
    · rw [← append_nil s.log]
      exact h.call hcancels.writes (fun hq => absurd hq hcancels.left) hheld hreleases (by simp)

theorem Balanced.ack (h : s.Balanced id) (hconsistent : s.Consistent) (sum256 : Bytes → Bytes) (owner : Int)
    (acked : Nat) : (s.step sum256 (.ack owner acked)).Balanced id := by
  rcases hconsistent.ack_cases sum256 owner acked with heq | ⟨e, e', hidle, hwrites, hactive, hstate, -, -, heq⟩
  · rwa [heq]
  · rw [heq]
    have hheld : (if e'.busy = true ∧ e.releaseAdmission = true then 1 else 0) + ([] : List Nat).count acked =
        if e.busy = true ∧ e.releaseAdmission = true then 1 else 0 := by
      simp [Entry.busy_iff, hidle, hactive, hstate, Entry.active_of_idle hidle]
    rw [← append_nil s.owed]
    exact h.call hwrites (fun hq => by rw [hstate] at hq; cases hq) hheld (by simp) (by simp)

theorem Balanced.commit (h : s.Balanced id) (hconsistent : s.Consistent) (i : Nat) : (s.commit i).Balanced id := by
  rcases hconsistent.commit_cases i with heq | ⟨_, _, _, -, -, -, hwrites, -, heq⟩
  · rwa [heq]
  · rw [heq, ← append_nil s.owed]
    exact h.call hwrites (fun hq => hq) rfl (by simp) (by simp)

theorem Balanced.release (h : s.Balanced id) {owed : Nat} (howed : s.owed[i]? = some owed) :
    Balanced { s with owed := s.owed.eraseIdx i, log := s.log ++ [.admissionReleased owed] } id := by
  refine h.of rfl rfl ?_ ?_ rfl ?_ rfl (zero_add _).le fun e he => ⟨e, he, rfl⟩
  · show 0 + s.jobs.countP (Job.fresh id) + s.waitingAt id ≤ _
    omega
  · show 0 + s.jobs.countP (Job.unreturned id) + s.waitingAt id ≤ _
    omega
  · have hcount := Pool.countP_get (· == id) howed
    simp only [beq_iff_eq] at hcount
    simp only [admissionsPending, count_singleton, beq_iff_eq, Happening.admissionReleased.injEq]
    rw [show s.owed.count id = _ from hcount]
    show _ + ((s.owed.eraseIdx i).countP (· == id) + _ + _) + _ = _
    omega

theorem Balanced.tick (h : s.Balanced id) (hconsistent : s.Consistent) (now : Int) : (s.tick now).Balanced id := by
  unfold System.tick
  split
  · exact h
  · rename_i hidle
    have hswept := hconsistent.accounted.swept now id
    have hget : Table.get? (s.sweep now).entries id = (s.entries.get? id).bind (Entry.swept · now) := hswept.get
    have hwaiting : (s.sweep now).waitingAt id ≤ s.waitingAt id := by
      unfold Queue.waitingAt
      rw [hget]
      cases he : s.entries.get? id with
      | none => exact le_rfl
      | some e =>
        rw [bind_some, any_some, Entry.swept]
        split_ifs
        · exact zero_le _
        · rw [any_some]
          refine Bool.toNat_le_toNat (Bool.le_iff_imp.mpr ?_)
          simpa using ((hconsistent.accounted.sound id e he).visited now).queued
    have hheld : (s.sweep now).heldAt id + (s.sweep now).releases.count id = s.heldAt id := by
      rw [hswept.releases]
      unfold Queue.heldAt
      rw [hget]
      cases he : s.entries.get? id with
      | none => rfl
      | some e => exact (hconsistent.accounted.sound id e he).swept_held
    have hsilent : ∀ x : Happening, (∀ age, x ≠ .purged x.id age) →
        ((s.sweep now).purged.map fun p => Happening.purged p.1 p.2).count x = 0 := by
      intro x hx
      rw [List.count_eq_zero, List.mem_map]
      rintro ⟨p, -, rfl⟩
      exact hx p.2 rfl
    have hreturns : ((s.sweep now).purged.map fun p => Happening.purged p.1 p.2).countP (Happening.returns id) = 0 := by
      rw [countP_eq_zero]
      intro x hx
      obtain ⟨p, -, rfl⟩ := List.mem_map.mp hx
      simp [Happening.returns]
    refine h.of (Queue.sweep_next _ _) rfl ?_ ?_ (hsilent _ (by simp)) ?_ ?_ ?_ fun e' he' => ?_
    · rw [hsilent _ (by simp)]
      show 0 + s.jobs.countP (Job.fresh id) + (s.sweep now).waitingAt id ≤ _
      omega
    · rw [hreturns]
      show 0 + s.jobs.countP (Job.unreturned id) + (s.sweep now).waitingAt id ≤ _
      omega
    · rw [hsilent _ (by simp)]
      show 0 + (s.owed.count id + (s.sweep now).releases.count id + s.jobs.countP (Job.owesAdmission id)) +
        (s.sweep now).heldAt id = _
      rw [admissionsPending, hidle, elim_none, count_nil]
      omega
    · rw [hsilent _ (by simp), hsilent _ (by simp), reservationsHeld, hidle]
      rfl
    · rw [hsilent _ (by simp), hidle]
      show 0 + (s.sweep now).waitingAt id ≤ s.waitingAt id
      omega
    · obtain ⟨e, he, hkeep⟩ := bind_eq_some_iff.mp (hget.symm.trans he')
      refine ⟨e, he, ?_⟩
      unfold Entry.swept at hkeep
      split_ifs at hkeep
      cases hkeep
      exact Entry.visited_releaseAdmission e now

theorem reservable_le {waiting : Nat} (hwaiting : waiting ≤ 1) (id : Nat) (d : Option Dispatch) :
    Dispatch.reservable id waiting d ≤ 1 := by
  unfold Dispatch.reservable
  split
  · split_ifs <;> omega
  · split_ifs <;> omega
  all_goals exact hwaiting

theorem Balanced.submit_new (h : s.Balanced id) {admission : Bool} (hid : id = s.entries.next)
    (hnext : q.entries.next = s.entries.next + 1) (hget : q.entries.get? id = some e)
    (hqueued : e.status.state = .queued) (hadmission : e.releaseAdmission = admission) :
    Balanced { s with toQueue := q, log := s.log ++ [.submitted s.entries.next admission] } id := by
  subst hid
  obtain ⟨_, _, _, _, hreserved, _, -⟩ := h
  have hzero : s.issued s.entries.next = 0 := if_neg (lt_irrefl _)
  have hone :
    issued { s with toQueue := q, log := s.log ++ [.submitted s.entries.next admission] } s.entries.next = 1 :=
    if_pos (by simp only [hnext]; exact lt_succ_self _)
  have hwaiting := waitingAt_of_get hget
  have hheld := heldAt_of_get hget
  have hbusy : e.busy = true := Entry.busy_iff.mpr (.inr hqueued)
  rw [if_pos hqueued] at hwaiting
  simp only [hbusy, true_and, hadmission] at hheld
  have hle := reservable_le hwaiting.le s.entries.next s.dispatch
  have hsubmits : [Happening.submitted s.entries.next admission].count (.submitted s.entries.next true) =
      if admission = true then 1 else 0 := by
    simp [count_singleton]
  refine ⟨?_, ?_, ?_, ?_, ?_, ?_, fun e' he' => ?_⟩
  · rw [hone, count_append]
    show _ + 0 + s.jobs.countP (Job.fresh s.entries.next) + q.waitingAt s.entries.next ≤ 1
    omega
  · rw [hone, countP_append]
    show _ + 0 + s.jobs.countP (Job.unreturned s.entries.next) + q.waitingAt s.entries.next ≤ 1
    omega
  · rw [count_append, count_append, hsubmits]
    show _ + 0 + s.admissionsPending s.entries.next + q.heldAt s.entries.next = _
    omega
  · rw [hone, count_append, count_singleton]
    split_ifs <;> omega
  · rw [count_append, count_append]
    exact hreserved
  · rw [hone, count_append]
    show _ + 0 + Dispatch.reservable s.entries.next (q.waitingAt s.entries.next) s.dispatch ≤ 1
    omega
  · cases hget.symm.trans he'
    rw [count_append, hsubmits, hadmission]
    omega

theorem Balanced.submit (h : s.Balanced id) (sum256 : Bytes → Bytes) (r : Request) (epoch : String) (now : Int)
    (admission : Admit) : (s.step sum256 (.submit r epoch now admission)).Balanced id := by
  rcases Consistent.submit_cases s sum256 r epoch now admission with heq | ⟨q, hsubmits, heq⟩
  · rwa [heq]
  · rw [heq]
    obtain ⟨e, hentries, -, hqueued, -, -, hadmission, -⟩ := hsubmits.entries
    have hlog : ∀ x, x ≠ .submitted s.entries.next admission.release →
        (s.log ++ [Happening.submitted s.entries.next admission.release]).count x = s.log.count x := by
      intro x hx
      rw [count_append, count_singleton, if_neg (by simpa using hx.symm), add_zero]
    have hreturns : (s.log ++ [Happening.submitted s.entries.next admission.release]).countP (Happening.returns id) =
        s.log.countP (Happening.returns id) := by
      simp [Happening.returns]
    have hnext : q.entries.next = s.entries.next + 1 := by
      rw [hentries, Table.next_insert]
    by_cases hid : id = s.entries.next
    · exact h.submit_new hid hnext (by rw [hentries, hid, Table.get?_insert_self]) hqueued hadmission
    · have hget : q.entries.get? id = s.entries.get? id := by
        rw [hentries, Table.get?_insert, if_neg hid]
      have hwaiting : q.waitingAt id = s.waitingAt id := by
        rw [Queue.waitingAt, Queue.waitingAt, hget]
      have hheld : q.heldAt id = s.heldAt id := by
        rw [Queue.heldAt, Queue.heldAt, hget]
      have hissued : ∀ s' : System, s'.toQueue = q → s'.issued id = s.issued id := by
        rintro s' rfl
        simp only [issued]
        congr 1
        rw [eq_iff_iff]
        omega
      refine ⟨?_, ?_, ?_, ?_, ?_, ?_, fun e' he' => ?_⟩
      · rw [hlog _ (by simp), hissued _ rfl]
        exact hwaiting ▸ h.started
      · rw [hreturns, hissued _ rfl]
        exact hwaiting ▸ h.returned
      · rw [hlog _ (by simp), hlog _ (by simp [hid])]
        exact hheld ▸ h.released
      · rw [hlog _ (by simp [hid]), hissued _ rfl]
        exact h.submitted
      · rw [hlog _ (by simp), hlog _ (by simp)]
        exact h.reserved
      · rw [hlog _ (by simp), hissued _ rfl]
        exact hwaiting ▸ h.once
      · rw [hlog _ (by simp [hid])]
        exact h.admitted e' (hget.symm.trans he')

theorem Balanced.step (h : s.Balanced id) (hconsistent : s.Consistent) (sum256 : Bytes → Bytes) (a : Event) :
    (s.step sum256 a).Balanced id := by
  cases a with
  | submit r epoch now admission => exact h.submit sum256 r epoch now admission
  | cancel owner id' now => exact h.cancel hconsistent sum256 owner id' now
  | release =>
    unfold System.step
    dsimp only
    split
    · exact h
    · rename_i howed
      exact h.release howed
  | ack owner id' => exact h.ack hconsistent sum256 owner id'
  | tick now => exact h.tick hconsistent now
  | advanceDispatch reservation => exact h.advanceDispatch hconsistent reservation
  | advanceJob i result now => exact h.advanceJob hconsistent i result now
  | commit i => exact h.commit hconsistent i

theorem balanced_new (epoch : String) (id : Nat) : (System.new epoch).Balanced id where
  started := zero_le _
  returned := zero_le _
  released := rfl
  submitted := zero_le _
  reserved := rfl
  once := zero_le _
  admitted e he := by cases he

theorem balanced_run (sum256 : Bytes → Bytes) (epoch : String) (l : List Event) (id : Nat) :
    (run (System.step sum256) (.new epoch) l).Balanced id := by
  have hboth := run_invariant' (I := fun s : System => s.Consistent ∧ s.Balanced id)
    (fun s a h => ⟨h.1.step sum256 a, h.2.step h.1 sum256 a⟩) ⟨consistent_new epoch, balanced_new epoch id⟩ l
  exact hboth.2

end System

end CubeRouter.Studio
