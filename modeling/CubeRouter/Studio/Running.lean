import CubeRouter.Lib.Pool
import CubeRouter.Studio.Accounting

/-!
# The jobs that run

A job is a goroutine from the section that starts it to its return. While it has not ended its entry the entry is
active, and each active entry has one such goroutine, so that the section that ends a job finds its entry active and
gives back what was charged for it.
-/

namespace CubeRouter.Studio

open Relational Transition List Option

/-- The entry of the job is not ended yet. -/
def Phase.executing : Phase → Bool
  | spawned | running | returned _ => true
  | finished | slotReleased | admissionReleased => false

def Dispatch.claims : Dispatch → Bool
  | reserving _ _ | reserved _ _ => true
  | releasing _ _ | returning _ _ => false

def Job.executes (id : Nat) (job : Job) : Bool := job.id = id ∧ job.phase.executing

def Queue.activeAt (q : Queue) (id : Nat) : Bool := (q.entries.get? id).any Entry.active

variable {q : Queue} {id : Nat} {e : Entry}

theorem activeAt_writes {q' : Queue} {e' : Entry} (hwrites : Writes q id e e' q') (j : Nat) :
    q'.activeAt j = if j = id then e'.active else q.activeAt j := by
  unfold Queue.activeAt
  split_ifs with hj
  · rw [hj, hwrites.get?_self, any_some]
  · rw [hwrites.get?_of_ne hj]

theorem activeAt_of_get (hget : q.entries.get? id = some e) : q.activeAt id = e.active := by
  rw [Queue.activeAt, hget, any_some]

structure System.Consistent (s : System) : Prop where
  accounted : s.toQueue.Accounted
  running_eq : s.running = s.jobs.length
  running_le : s.running ≤ maxRunning
  claims : s.dispatch.any Dispatch.claims = true → s.running < maxRunning
  executing : ∀ id, s.jobs.countP (Job.executes id) = (s.activeAt id).toNat
  admission : ∀ job ∈ s.jobs, job.phase.executing = true → ∀ e, s.entries.get? job.id = some e →
    job.releaseAdmission = e.releaseAdmission

namespace System.Consistent

variable {s : System} {job : Job} {owed : List Nat} {log : List Happening} {e : Entry} {i : Nat}

theorem active_of_executing (h : s.Consistent) (hjob : job ∈ s.jobs) (hphase : job.phase.executing = true) :
    ∃ e, s.entries.get? job.id = some e ∧ e.active = true := by
  have hcount := h.executing job.id
  have hpos : 0 < s.jobs.countP (Job.executes job.id) :=
    countP_pos_iff.mpr ⟨job, hjob, by simp [Job.executes, hphase]⟩
  have hactive : s.activeAt job.id = true := by
    by_contra hidle
    rw [Bool.not_eq_true] at hidle
    rw [hcount, hidle] at hpos
    simp at hpos
  exact any_eq_true _ _ |>.mp hactive

variable {q : Queue} {dispatch : Option Dispatch} {id : Nat}

theorem queue (h : s.Consistent) (hq : q.Accounted) (hrunning : q.running = s.running)
    (hactive : ∀ id, q.activeAt id = s.activeAt id)
    (hadmission : ∀ id e e', s.entries.get? id = some e → e.active = true → q.entries.get? id = some e' →
      e'.releaseAdmission = e.releaseAdmission)
    (hclaims : dispatch.any Dispatch.claims = true → s.running < maxRunning) :
    Consistent { s with toQueue := q, dispatch := dispatch, owed := owed, log := log } where
  accounted := hq
  running_eq := hrunning.trans h.running_eq
  running_le := hrunning.le.trans h.running_le
  claims hd := hrunning.trans_lt (hclaims hd)
  executing id := (h.executing id).trans (by rw [← hactive])
  admission job hjob hphase e' he' := by
    obtain ⟨e, he, hexecuting⟩ := h.active_of_executing hjob hphase
    rw [h.admission job hjob hphase e he]
    exact (hadmission job.id e e' he hexecuting he').symm

/-- A step of the dispatcher or a call that leaves the queue alone. -/
theorem unchanged (h : s.Consistent) (hclaims : dispatch.any Dispatch.claims = true → s.running < maxRunning) :
    Consistent { s with dispatch := dispatch, owed := owed, log := log } := by
  refine h.queue h.accounted rfl (fun _ => rfl) (fun id e e' he _ he' => ?_) hclaims
  obtain rfl := mem_unique he he'
  rfl

theorem writes (h : s.Consistent) {e' : Entry} (hwrites : Writes s.toQueue id e e' q)
    (hactive : e'.active = e.active) (hrunning : q.running = s.running) :
    Consistent { s with toQueue := q, owed := owed, log := log } := by
  refine h.queue (h.accounted.writes hwrites) hrunning (fun j => ?_) (fun j old new hold _ hnew => ?_) h.claims
  · rw [activeAt_writes hwrites]
    split_ifs with hj
    · rw [hj, activeAt_of_get hwrites.get, hactive]
    · rfl
  · by_cases hj : j = id
    · subst hj
      obtain rfl := mem_unique hold hwrites.get
      obtain rfl := Option.some.inj (hnew.symm.trans hwrites.get?_self)
      exact hwrites.releaseAdmission
    · rw [hwrites.get?_of_ne hj, hold] at hnew
      cases hnew
      rfl

/-! ## What a call can do -/

theorem submit_cases (s : System) (sum256 : Bytes → Bytes) (r : Request) (epoch : String)
    (now : Int) (admission : Admit) :
    s.step sum256 (.submit r epoch now admission) = s ∨ ∃ q, s.Submits r admission q ∧
      s.step sum256 (.submit r epoch now admission) =
        { s with toQueue := q, log := s.log ++ [.submitted s.entries.next admission.release] } := by
  unfold System.step
  dsimp only
  split
  · exact .inl rfl
  · rename_i q id hsubmit
    rcases Queue.submit_spec hsubmit with ⟨rfl, hfound⟩ | ⟨rfl, hsubmits⟩
    · obtain ⟨e, he⟩ := isSome_iff_exists.mp hfound
      rw [if_neg (Table.lt_next_of_get? he).ne]
      exact .inl rfl
    · exact .inr ⟨q, hsubmits, by rw [if_pos rfl]⟩

theorem cancel_cases (h : s.Consistent) (sum256 : Bytes → Bytes) (owner : Int) (id : Nat) (now : Int) :
    s.step sum256 (.cancel owner id now) = s ∨
      ∃ e e', Cancels s.toQueue id e e' (s.cancelEntry id e now).1 (s.cancelEntry id e now).2 ∧
        s.step sum256 (.cancel owner id now) = { s with
          toQueue := (s.cancelEntry id e now).1
          owed := s.owed ++ (s.cancelEntry id e now).2
          log := if s.acceptsCancel id e now then s.log ++ [.cancelAccepted id] else s.log } := by
  unfold System.step
  dsimp only
  split
  · exact .inl rfl
  · rename_i e howned
    have hget : s.entries.get? id = some e := (filter_eq_some_iff.mp howned).1
    rcases Queue.cancelEntry_spec hget (h.accounted.sound id e hget) now with hsame | ⟨e', hcancels⟩
    · have haccepts : s.acceptsCancel id e now = false := by
        simp [Queue.acceptsCancel, hsame, hget]
      rw [hsame, haccepts]
      simp
    · exact .inr ⟨e, e', hcancels, rfl⟩

theorem ack_cases (h : s.Consistent) (sum256 : Bytes → Bytes) (owner : Int) (id : Nat) :
    s.step sum256 (.ack owner id) = s ∨
      ∃ e e', e.busy = false ∧ Writes s.toQueue id e e' (s.ackEntry id e) ∧ e'.active = e.active ∧
        e'.status.state = .released ∧ e'.status.cancelRequested = e.status.cancelRequested ∧
        e'.status.resultCommitted = e.status.resultCommitted ∧
        s.step sum256 (.ack owner id) = { s with toQueue := s.ackEntry id e, log := s.log ++ [.acknowledged id] } := by
  unfold System.step
  dsimp only
  split
  · exact .inl rfl
  · rename_i e hack
    obtain ⟨howned, hidle⟩ := filter_eq_some_iff.mp hack
    have hidle' : e.busy = false := by simpa using hidle
    have hget : s.entries.get? id = some e := (filter_eq_some_iff.mp howned).1
    obtain ⟨e', hwrites, hactive, hstate, hrequested, hcommitted⟩ :=
      Queue.ackEntry_spec hget (h.accounted.sound id e hget) hidle'
    exact .inr ⟨e, e', hidle', hwrites, hactive, hstate, hrequested, hcommitted, rfl⟩

theorem commit_cases (h : s.Consistent) (i : Nat) : s.commit i = s ∨
      ∃ job e q, s.jobs[i]? = some job ∧ job.phase = .running ∧ e.status.cancelRequested = false ∧
        Writes s.toQueue job.id e { e with status := { e.status with resultCommitted := true } } q ∧
        q.running = s.running ∧ s.commit i = { s with toQueue := q, log := s.log ++ [.committed job.id] } := by
  unfold System.commit
  split
  · exact .inl rfl
  · rename_i job hjob
    split_ifs with hcommit
    · simp only [System.tryCommitResult, decide_eq_true_eq] at hcommit
      obtain ⟨hphase, hany⟩ := hcommit
      obtain ⟨e, he, hopen⟩ := (any_eq_true _ _).mp hany
      have hopen' : e.status.cancelRequested = false := by simpa using hopen
      have hexecuting : job.phase.executing = true := by
        rw [hphase]
        rfl
      obtain ⟨_, he', hactive⟩ := h.active_of_executing (mem_of_getElem? hjob) hexecuting
      obtain rfl := mem_unique he he'
      have hwrites := Queue.commit_spec he (h.accounted.sound job.id e he) hactive hopen'
      exact .inr ⟨job, e, _, hjob, hphase, hopen', hwrites, rfl, rfl⟩
    · exact .inl rfl

/-! ## Every step keeps it -/

theorem submit (h : s.Consistent) (sum256 : Bytes → Bytes) (r : Request) (epoch : String) (now : Int)
    (admission : Admit) : (s.step sum256 (.submit r epoch now admission)).Consistent := by
  rcases submit_cases s sum256 r epoch now admission with heq | ⟨q, hsubmits, heq⟩
  · rwa [heq]
  · rw [heq]
    obtain ⟨e, hentries, -, hqueued, hsound, -⟩ := hsubmits.entries
    refine h.queue (h.accounted.submits hsubmits) hsubmits.running (fun j => ?_) (fun j old new hold _ hnew => ?_)
      h.claims
    · unfold Queue.activeAt
      rw [hentries, Table.get?_insert]
      split_ifs with hj
      · have hnone : s.entries.get? j = none := s.entries.row_fresh j (by omega)
        rw [hnone, any_some, any_none, (hsound.queued hqueued).1]
      · rfl
    · rw [hentries, Table.get?_insert_of_get? hold] at hnew
      cases hnew
      rfl

theorem cancel (h : s.Consistent) (sum256 : Bytes → Bytes) (owner : Int) (id : Nat) (now : Int) :
    (s.step sum256 (.cancel owner id now)).Consistent := by
  rcases h.cancel_cases sum256 owner id now with heq | ⟨e, _, hcancels, heq⟩
  · rwa [heq]
  · rw [heq]
    exact h.writes hcancels.writes hcancels.active (Queue.cancelEntry_running _ _ _ _)

theorem ack (h : s.Consistent) (sum256 : Bytes → Bytes) (owner : Int) (id : Nat) :
    (s.step sum256 (.ack owner id)).Consistent := by
  rcases h.ack_cases sum256 owner id with heq | ⟨e, _, -, hwrites, hactive, -, -, -, heq⟩
  · rwa [heq]
  · rw [heq]
    exact h.writes hwrites hactive rfl

theorem tick (h : s.Consistent) (now : Int) : (s.tick now).Consistent := by
  unfold System.tick
  split
  · exact h
  · refine h.queue (h.accounted.sweep now) (Queue.sweep_running _ _) (fun j => ?_) (fun j e e' he _ he' => ?_)
      (by simp [Dispatch.claims])
    · have hswept := (h.accounted.swept now j).get
      unfold Queue.activeAt
      rw [show Table.get? _ j = _ from hswept]
      cases he : s.entries.get? j with
      | none => rfl
      | some =>
        rw [bind_some, any_some]
        unfold Entry.swept
        split_ifs with hpurges
        · simp only [Entry.purges, decide_eq_true_eq, Entry.visited_active, Bool.not_eq_true] at hpurges
          rw [any_none, hpurges.1]
        · rw [any_some, Entry.visited_active]
    · have hswept := (h.accounted.swept now j).get
      rw [show Table.get? _ j = _ from hswept, he, bind_some] at he'
      unfold Entry.swept at he'
      split_ifs at he'
      cases he'
      exact Entry.visited_releaseAdmission e now

theorem start (h : s.Consistent) {queued : List Nat} (hdispatch : s.dispatch = some (.reserved id queued))
    (hget : s.entries.get? id = some e) (hqueued : e.status.state = .queued) : Consistent { s with
      toQueue :=
        { s.modify id fun e => { e with active := true, status := { e.status with state := .running } } with
          running := s.running + 1 }
      dispatch := some (.releasing [] queued)
      jobs := s.jobs ++ [{ id := id, releaseAdmission := e.releaseAdmission }] } := by
  have hsound := h.accounted.sound id e hget
  have hwrites := Queue.start_spec hget hsound hqueued
  have hfree : s.running < maxRunning := h.claims (by rw [hdispatch]; rfl)
  have haccounted := h.accounted.writes hwrites
  refine ⟨⟨haccounted.sorted, haccounted.mem_order, haccounted.bytes_eq, haccounted.bytes_le, haccounted.waiting,
    haccounted.one_busy, haccounted.sound⟩, ?_, ?_, ?_, fun j => ?_, fun job hjob hphase e' he' => ?_⟩
  · show s.running + 1 = ((s.jobs ++ [_]).length : Int)
    rw [h.running_eq, length_append, length_singleton]
    push_cast
    rfl
  · show s.running + 1 ≤ (maxRunning : Int)
    omega
  · simp [Dispatch.claims]
  · have hcount := h.executing j
    have hactive := activeAt_writes hwrites j
    show (s.jobs ++ [_]).countP (Job.executes j) = ((s.modify id _).activeAt j).toNat
    rw [hactive, countP_append, hcount]
    by_cases hj : j = id
    · subst hj
      rw [activeAt_of_get hget, (hsound.queued hqueued).1]
      simp [Job.executes, Phase.executing]
    · simp [Job.executes, hj, Ne.symm hj]
  · rw [mem_append, mem_singleton] at hjob
    rcases hjob with hjob | rfl
    · obtain ⟨_, hold, hactive⟩ := h.active_of_executing hjob hphase
      have hne : job.id ≠ id := by
        intro heq
        rw [heq, hget] at hold
        cases hold
        rw [(hsound.queued hqueued).1] at hactive
        cases hactive
      exact h.admission job hjob hphase e' ((hwrites.get?_of_ne hne).symm.trans he')
    · cases hwrites.get?_self.symm.trans he'
      rfl

theorem advanceDispatch (h : s.Consistent) (reservation : Bool) : (s.advanceDispatch reservation).Consistent := by
  unfold System.advanceDispatch
  split
  · exact h
  · exact h.unchanged (by simp [Dispatch.claims])
  · exact h.unchanged (by simp)
  · split_ifs with hfull hqueued
    · exact h.unchanged (by simp)
    · exact h.unchanged fun _ => by omega
    · exact h.unchanged (by simp [Dispatch.claims])
  · rename_i id queued hdispatch
    have hfree : s.running < maxRunning := h.claims (by rw [hdispatch]; rfl)
    split_ifs
    · exact h.unchanged fun _ => hfree
    · exact h.unchanged (by simp [Dispatch.claims])
  · rename_i id queued hdispatch
    split
    · exact h.unchanged (by simp [Dispatch.claims])
    · rename_i e hfilter
      obtain ⟨hget, hqueued⟩ := filter_eq_some_iff.mp hfilter
      exact h.start hdispatch hget (by simpa using hqueued)
  · exact h.unchanged (by simp [Dispatch.claims])

theorem onwards (h : s.Consistent) (hjob : s.jobs[i]? = some job) {phase : Phase}
    (hphase : phase.executing = job.phase.executing) :
    Consistent { s with jobs := s.jobs.eraseIdx i ++ [{ job with phase := phase }], log := log } where
  accounted := h.accounted
  running_eq := by
    obtain ⟨hi, -⟩ := List.getElem?_eq_some_iff.mp hjob
    show s.running = ((s.jobs.eraseIdx i ++ [_]).length : Int)
    rw [h.running_eq, length_append, length_eraseIdx_of_lt hi, length_singleton]
    omega
  running_le := h.running_le
  claims := h.claims
  executing id := by
    have hsame : Job.executes id { job with phase := phase } = Job.executes id job := by
      simp [Job.executes, hphase]
    show (s.jobs.eraseIdx i ++ [_]).countP (Job.executes id) = (s.activeAt id).toNat
    rw [← h.executing id, Pool.countP_get (Job.executes id) hjob, countP_append, countP_singleton, hsame]
  admission job' hjob' hexecuting e he := by
    rw [mem_append, mem_singleton] at hjob'
    rcases hjob' with hjob' | rfl
    · exact h.admission job' (mem_of_mem_eraseIdx hjob') hexecuting e he
    · exact h.admission job (mem_of_getElem? hjob) (by rw [← hphase]; exact hexecuting) e he

theorem finish (h : s.Consistent) {r : Result} (hjob : s.jobs[i]? = some job) (hphase : job.phase = .returned r)
    (hget : s.entries.get? job.id = some e) (now : Int) :
    Consistent { s with
      toQueue := s.finishEntry job.id e r now
      jobs := s.jobs.eraseIdx i ++ [{ job with phase := .finished }] } := by
  have hmem := mem_of_getElem? hjob
  have hexecuting : job.phase.executing = true := by
    rw [hphase]
    rfl
  obtain ⟨e', he', hactive⟩ := h.active_of_executing hmem hexecuting
  obtain rfl := mem_unique hget he'
  obtain ⟨_, hwrites, hfinishes⟩ := Queue.finishEntry_spec hget (h.accounted.sound job.id e hget) hactive r now
  have hstopped : ∀ job' : Job, job'.phase = .finished → ∀ id, Job.executes id job' = false := by
    intro job' hfinished id
    simp [Job.executes, hfinished, Phase.executing]
  have hcount : ∀ id, (s.jobs.eraseIdx i ++ [{ job with phase := .finished }]).countP (Job.executes id) =
      ((s.finishEntry job.id e r now).activeAt id).toNat := by
    intro id
    have hbefore := h.executing id
    rw [Pool.countP_get (Job.executes id) hjob] at hbefore
    rw [countP_append, countP_singleton, hstopped _ rfl, activeAt_writes hwrites]
    by_cases hid : id = job.id
    · subst hid
      rw [activeAt_of_get hget, hactive, if_pos (by simp [Job.executes, hexecuting])] at hbefore
      simp only [Bool.false_eq_true, if_false, if_true, hfinishes.active, Bool.toNat_false,
        Bool.toNat_true] at hbefore ⊢
      omega
    · rw [if_neg (by simp [Job.executes, Ne.symm hid])] at hbefore
      rw [if_neg hid, ← hbefore]
      simp
  refine ⟨h.accounted.writes hwrites, ?_, ?_, fun hd => ?_, hcount, fun job' hjob' hexecuting' e'' he'' => ?_⟩
  · obtain ⟨hi, -⟩ := List.getElem?_eq_some_iff.mp hjob
    show (s.finishEntry job.id e r now).running = ((s.jobs.eraseIdx i ++ [_]).length : Int)
    rw [Queue.finishEntry_running, h.running_eq, length_append, length_eraseIdx_of_lt hi, length_singleton]
    omega
  · rw [Queue.finishEntry_running]
    exact h.running_le
  · rw [Queue.finishEntry_running]
    exact h.claims hd
  · rw [mem_append, mem_singleton] at hjob'
    rcases hjob' with hjob' | rfl
    · have hid : job'.id ≠ job.id := by
        intro hid
        have hpos : 0 < (s.jobs.eraseIdx i ++ [{ job with phase := .finished }]).countP (Job.executes job.id) :=
          countP_pos_iff.mpr ⟨job', mem_append_left _ hjob', by simp [Job.executes, hid, hexecuting']⟩
        rw [hcount, activeAt_of_get hwrites.get?_self, hfinishes.active] at hpos
        simp at hpos
      exact h.admission job' (mem_of_mem_eraseIdx hjob') hexecuting' e'' ((hwrites.get?_of_ne hid).symm.trans he'')
    · simp [Phase.executing] at hexecuting'

theorem leave (h : s.Consistent) (hjob : s.jobs[i]? = some job) (hphase : job.phase = .admissionReleased) :
    Consistent { s with running := s.running - 1, jobs := s.jobs.eraseIdx i } := by
  obtain ⟨hi, -⟩ := List.getElem?_eq_some_iff.mp hjob
  have hle := h.running_le
  refine ⟨⟨h.accounted.sorted, h.accounted.mem_order, h.accounted.bytes_eq, h.accounted.bytes_le, h.accounted.waiting,
    h.accounted.one_busy, h.accounted.sound⟩, ?_, ?_, fun hd => ?_, fun id => ?_, fun job' hjob' => ?_⟩
  · show s.running - 1 = ((s.jobs.eraseIdx i).length : Int)
    rw [h.running_eq, length_eraseIdx_of_lt hi]
    omega
  · show s.running - 1 ≤ (maxRunning : Int)
    omega
  · show s.running - 1 < (maxRunning : Int)
    omega
  · have hbefore := h.executing id
    rw [Pool.countP_get (Job.executes id) hjob, if_neg (by simp [Job.executes, hphase, Phase.executing])] at hbefore
    exact hbefore
  · exact h.admission job' (mem_of_mem_eraseIdx hjob')

theorem advanceJob (h : s.Consistent) (i : Nat) (result : Option Result) (now : Int) :
    (s.advanceJob i result now).Consistent := by
  unfold System.advanceJob
  split
  · exact h
  · rename_i job hjob
    split
    · rename_i hphase
      exact h.onwards hjob (by rw [hphase]; rfl)
    · rename_i hphase
      exact h.onwards hjob (by rw [hphase]; rfl)
    · rename_i r hphase
      split
      · rename_i hnone
        have hexecuting : job.phase.executing = true := by
          rw [hphase]
          rfl
        obtain ⟨e, he, -⟩ := h.active_of_executing (mem_of_getElem? hjob) hexecuting
        rw [hnone] at he
        cases he
      · rename_i e hget
        exact h.finish hjob hphase hget now
    · rename_i hphase
      exact h.onwards hjob (by rw [hphase]; rfl)
    · rename_i hphase
      split_ifs
      · exact h.onwards hjob (by rw [hphase]; rfl)
      · exact h.onwards hjob (by rw [hphase]; rfl)
    · rename_i hphase
      exact h.leave hjob hphase

theorem commit (h : s.Consistent) (i : Nat) : (s.commit i).Consistent := by
  rcases h.commit_cases i with heq | ⟨_, _, _, -, -, -, hwrites, hrunning, heq⟩
  · rwa [heq]
  · rw [heq]
    exact h.writes hwrites rfl hrunning

theorem step (h : s.Consistent) (sum256 : Bytes → Bytes) (a : Event) : (s.step sum256 a).Consistent := by
  cases a with
  | submit r epoch now admission => exact h.submit sum256 r epoch now admission
  | cancel owner id now => exact h.cancel sum256 owner id now
  | release =>
    unfold System.step
    dsimp only
    split
    · exact h
    · exact h.unchanged h.claims
  | ack owner id => exact h.ack sum256 owner id
  | tick now => exact h.tick now
  | advanceDispatch reservation => exact h.advanceDispatch reservation
  | advanceJob i result now => exact h.advanceJob i result now
  | commit i => exact h.commit i

end System.Consistent

theorem consistent_new (epoch : String) : (System.new epoch).Consistent where
  accounted := by
    refine ⟨Pairwise.nil, fun id => ?_, rfl, show (0 : Int) ≤ maxBytes by decide, ?_, ?_, ?_⟩
    · simp [Table.get?, Table.empty, System.new]
    · rw [Table.count_eq_zero_iff.mpr]
      · exact Nat.zero_le 10
      · intro i e he
        cases he
    · intro i j e e' hi
      cases hi
    · intro id e he
      cases he
  running_eq := rfl
  running_le := show (0 : Int) ≤ maxRunning by decide
  claims h := by simp [System.new] at h
  executing id := rfl
  admission job hjob := by simp [System.new] at hjob

theorem consistent_run (sum256 : Bytes → Bytes) (epoch : String) (l : List Event) :
    (run (System.step sum256) (.new epoch) l).Consistent :=
  run_invariant' (fun _ a h => h.step sum256 a) (consistent_new epoch) l

/-- In every state of every interleaving the order is the keys in the order of submission, the bytes are what the
entries charge, and the jobs, the waiting entries and the busy entries of an owner are within their bounds. -/
theorem queue_accounted (sum256 : Bytes → Bytes) (epoch : String) (l : List Event) :
    let s := run (System.step sum256) (.new epoch) l
    s.order.Pairwise (· < ·) ∧
    (∀ id, id ∈ s.order ↔ (s.entries.get? id).isSome = true) ∧
    s.bytes = s.entries.sum (fun e =>
      if e.active ∨ e.status.state = .queued then (e.request.body.length + maxResultBytes : Int) else e.result.length) ∧
    0 ≤ s.bytes ∧ s.bytes ≤ maxBytes ∧
    s.running = s.jobs.length ∧ s.running ≤ maxRunning ∧
    s.entries.count (fun e => e.status.state = .queued) ≤ 10 ∧
    (∀ i j e e', s.entries.get? i = some e → s.entries.get? j = some e' →
      (e.active = true ∨ e.status.state = .queued) → (e'.active = true ∨ e'.status.state = .queued) →
      e.request.owner = e'.request.owner → i = j) := by
  intro s
  have h : s.Consistent := consistent_run sum256 epoch l
  refine ⟨h.accounted.sorted, h.accounted.mem_order, ?_, h.accounted.bytes_nonneg, h.accounted.bytes_le, h.running_eq,
    h.running_le, h.accounted.waiting, fun i j e e' hi hj hbi hbj => ?_⟩
  · rw [h.accounted.bytes_eq]
    congr 1
    funext e
    simp [Entry.charge, Entry.busy, Entry.reserve]
  · exact h.accounted.one_busy i j e e' hi hj (Entry.busy_iff.mpr hbi) (Entry.busy_iff.mpr hbj)

end CubeRouter.Studio
