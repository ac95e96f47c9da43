import CubeRouter.Studio.Balance

/-!
# Cancellation and commitment

A running job either has its cancellation accepted or its result committed, never first the one and then the other. An
entry whose result is committed cannot be cancelled any more, so that the image of a run that succeeds stays until its
owner acknowledges it or it is purged.
-/

namespace CubeRouter.Studio

open Relational Transition List Option

theorem not_sublist_append {α : Type*} {a b : α} {l extra : List α} (hb : b ∉ extra) (h : ¬[a, b].Sublist l) :
    ¬[a, b].Sublist (l ++ extra) := by
  intro hsub
  obtain ⟨_, l2, heq, hl, hextra⟩ := sublist_append_iff.mp hsub
  rcases eq_nil_or_concat l2 with rfl | ⟨_, last, rfl⟩
  · rw [append_nil] at heq
    exact h (heq ▸ hl)
  · -- the last of the two would be one of the new ones
    have hlast : last = b := by
      have hget := congrArg List.getLast? heq
      simpa using hget.symm
    exact hb (hextra.subset (by simp [hlast]))

namespace System

/-- The image of a run is on its way, there for its owner, or was taken or purged. -/
def Kept (s : System) (id : Nat) (r : Result) : Prop :=
  (∃ job ∈ s.jobs, job.id = id ∧ job.phase = .returned r) ∨
    (∃ e, s.entries.get? id = some e ∧ e.status.state = .completed ∧ e.result = r.png) ∨
    .acknowledged id ∈ s.log ∨ ∃ age, .purged id age ∈ s.log

structure Settled (s : System) (id : Nat) : Prop where
  requested : .cancelAccepted id ∈ s.log → ∀ e, s.entries.get? id = some e → e.status.cancelRequested = true
  committed : .committed id ∈ s.log → ∀ e, s.entries.get? id = some e → e.status.resultCommitted = true
  issued : .cancelAccepted id ∈ s.log ∨ .committed id ∈ s.log → id < s.entries.next
  order : ¬[.cancelAccepted id, .committed id].Sublist s.log
  aged : ∀ age, .purged id age ∈ s.log → age ≥ 10 * minute
  kept : ∀ r, .committed id ∈ s.log → .runReturned id r ∈ s.log → r.ok = true → s.Kept id r

variable {s : System} {id : Nat} {s' : System} {extra : List Happening} {i : Nat} {job : Job}

theorem Settled.of (h : s.Settled id) (hlog : s'.log = s.log ++ extra)
    (hextra : ∀ x ∈ extra, x ≠ .cancelAccepted id ∧ x ≠ .committed id ∧ ∀ r, x ≠ .runReturned id r)
    (haged : ∀ age, .purged id age ∈ extra → age ≥ 10 * minute) (hnext : s.entries.next ≤ s'.entries.next)
    (hentry : id < s.entries.next → ∀ e', s'.entries.get? id = some e' → ∃ e, s.entries.get? id = some e ∧
      (e.status.cancelRequested = true → e'.status.cancelRequested = true) ∧
      (e.status.resultCommitted = true → e'.status.resultCommitted = true))
    (hkept : ∀ r, .committed id ∈ s.log → r.ok = true → s.Kept id r → s'.Kept id r) : s'.Settled id := by
  have hcancel : .cancelAccepted id ∈ s'.log → .cancelAccepted id ∈ s.log := by
    rw [hlog, mem_append]
    exact fun hmem => hmem.resolve_right fun hin => (hextra _ hin).1 rfl
  have hcommit : .committed id ∈ s'.log → .committed id ∈ s.log := by
    rw [hlog, mem_append]
    exact fun hmem => hmem.resolve_right fun hin => (hextra _ hin).2.1 rfl
  refine ⟨fun hin e' he' => ?_, fun hin e' he' => ?_, fun hin => ?_, ?_, fun age hin => ?_, fun r hin hret hok => ?_⟩
  · obtain ⟨e, he, hrequested, -⟩ := hentry (h.issued (.inl (hcancel hin))) e' he'
    exact hrequested (h.requested (hcancel hin) e he)
  · obtain ⟨e, he, -, hcommitted⟩ := hentry (h.issued (.inr (hcommit hin))) e' he'
    exact hcommitted (h.committed (hcommit hin) e he)
  · exact (h.issued (hin.imp hcancel hcommit)).trans_le hnext
  · rw [hlog]
    exact not_sublist_append (fun hin => (hextra _ hin).2.1 rfl) h.order
  · rw [hlog, mem_append] at hin
    rcases hin with hin | hin
    · exact h.aged age hin
    · exact haged age hin
  · refine hkept r (hcommit hin) hok (h.kept r (hcommit hin) ?_ hok)
    rw [hlog, mem_append] at hret
    exact hret.resolve_right fun hin => (hextra _ hin).2.2 r rfl

variable {r : Result} {epoch : String}

/-- A kept image stays kept where the entry and the goroutines of the id do. -/
theorem Kept.of (h : s.Kept id r) (hlog : ∀ x ∈ s.log, x ∈ s'.log)
    (hjobs : ∀ job ∈ s.jobs, job.id = id → job.phase = .returned r → job ∈ s'.jobs)
    (hentry : ∀ e, s.entries.get? id = some e → e.status.state = .completed →
      s'.entries.get? id = some e ∨ .acknowledged id ∈ s'.log ∨ ∃ age, .purged id age ∈ s'.log) : s'.Kept id r := by
  rcases h with ⟨job, hjob, hid, hphase⟩ | ⟨e, he, hstate, hresult⟩ | hack | ⟨age, hpurged⟩
  · exact .inl ⟨job, hjobs job hjob hid hphase, hid, hphase⟩
  · rcases hentry e he hstate with he' | htaken
    · exact .inr (.inl ⟨e, he', hstate, hresult⟩)
    · exact .inr (.inr htaken)
  · exact .inr (.inr (.inl (hlog _ hack)))
  · exact .inr (.inr (.inr ⟨age, hlog _ hpurged⟩))

theorem Settled.untouched (h : s.Settled id) (hlog : s'.log = s.log ++ extra)
    (hextra : ∀ x ∈ extra, x ≠ .cancelAccepted id ∧ x ≠ .committed id ∧ ∀ r, x ≠ .runReturned id r)
    (haged : ∀ age, .purged id age ∈ extra → age ≥ 10 * minute) (hnext : s.entries.next ≤ s'.entries.next)
    (hentry : id < s.entries.next → s'.entries.get? id = s.entries.get? id)
    (hjobs : ∀ job ∈ s.jobs, job.id = id → ∀ r, job.phase = .returned r → job ∈ s'.jobs) : s'.Settled id := by
  refine h.of hlog hextra haged hnext (fun hid e' he' => ?_) fun r _ _ hkept => ?_
  · rw [hentry hid] at he'
    exact ⟨e', he', fun hr => hr, fun hc => hc⟩
  · refine hkept.of (fun x hx => ?_) (fun job hjob hid hphase => hjobs job hjob hid r hphase) fun e he _ => .inl ?_
    · rw [hlog]
      exact mem_append_left _ hx
    · rw [hentry (Table.lt_next_of_get? he), he]

theorem Settled.submit (h : s.Settled id) (sum256 : Bytes → Bytes) (r : Request) (epoch : String) (now : Int)
    (admission : Admit) : (s.step sum256 (.submit r epoch now admission)).Settled id := by
  rcases Consistent.submit_cases s sum256 r epoch now admission with heq | ⟨q, hsubmits, heq⟩
  · rwa [heq]
  · rw [heq]
    obtain ⟨e, hentries, -⟩ := hsubmits.entries
    refine h.untouched rfl (by simp) (by simp) ?_ (fun hid => ?_) fun job hjob _ _ _ => hjob
    · show s.entries.next ≤ q.entries.next
      rw [hentries, Table.next_insert]
      exact Nat.le_succ _
    · show q.entries.get? id = s.entries.get? id
      rw [hentries, Table.get?_insert, if_neg hid.ne]

theorem Settled.cancel (h : s.Settled id) (hconsistent : s.Consistent) (sum256 : Bytes → Bytes) (owner : Int)
    (cancelled : Nat) (now : Int) : (s.step sum256 (.cancel owner cancelled now)).Settled id := by
  rcases hconsistent.cancel_cases sum256 owner cancelled now with heq | ⟨e, _, hcancels, heq⟩
  · rwa [heq]
  · rw [heq]
    have hget := hcancels.writes.get
    have hlog : ∃ extra, (if s.acceptsCancel cancelled e now then s.log ++ [.cancelAccepted cancelled] else s.log) =
        s.log ++ extra ∧ ∀ x ∈ extra, x = .cancelAccepted cancelled := by
      split_ifs
      · exact ⟨_, rfl, by simp⟩
      · exact ⟨[], (append_nil _).symm, by simp⟩
    obtain ⟨extra, hlog, hextra⟩ := hlog
    rw [hlog]
    by_cases hid : id = cancelled
    · subst hid
      -- the result is not committed, so that no promise about an image is made
      have hopen : .committed id ∉ s.log := by
        intro hin
        have hcommitted := h.committed hin e hget
        rw [hcancels.open_] at hcommitted
        cases hcommitted
      have hopen' : .committed id ∉ s.log ++ extra := by
        rw [mem_append]
        rintro (hin | hin)
        · exact hopen hin
        · cases hextra _ hin
      refine ⟨fun _ old hold => ?_, fun hin => absurd hin hopen', fun _ => ?_, ?_, fun age hin => ?_,
        fun r hin => absurd hin hopen'⟩
      · cases hcancels.writes.get?_self.symm.trans hold
        exact hcancels.requested
      · exact hcancels.writes.next ▸ Table.lt_next_of_get? hget
      · exact not_sublist_append (fun hin => by cases hextra _ hin) h.order
      · rcases mem_append.mp hin with hin | hin
        · exact h.aged age hin
        · cases hextra _ hin
    · refine h.untouched rfl (fun x hx => ?_) (fun age hin => ?_) hcancels.writes.next.ge
        (fun _ => hcancels.writes.get?_of_ne hid) fun job hjob _ _ _ => hjob
      · rw [hextra x hx]
        simp [Ne.symm hid]
      · cases hextra _ hin

theorem Settled.ack (h : s.Settled id) (hconsistent : s.Consistent) (sum256 : Bytes → Bytes) (owner : Int)
    (acked : Nat) : (s.step sum256 (.ack owner acked)).Settled id := by
  rcases hconsistent.ack_cases sum256 owner acked with heq | ⟨e, e', -, hwrites, -, -, hrequested, hcommitted, heq⟩
  · rwa [heq]
  · rw [heq]
    by_cases hid : id = acked
    · subst hid
      refine h.of rfl (by simp) (by simp) hwrites.next.ge (fun _ new hnew => ?_) fun r _ _ _ => ?_
      · cases hwrites.get?_self.symm.trans hnew
        exact ⟨e, hwrites.get, fun hr => hrequested.trans hr, fun hc => hcommitted.trans hc⟩
      · exact .inr (.inr (.inl (by simp)))
    · exact h.untouched rfl (by simp) (by simp) hwrites.next.ge (fun _ => hwrites.get?_of_ne hid)
        fun job hjob _ _ _ => hjob

theorem Settled.tick (h : s.Settled id) (hconsistent : s.Consistent) (now : Int) : (s.tick now).Settled id := by
  unfold System.tick
  split
  · exact h
  · have hswept := hconsistent.accounted.swept now id
    have hget : Table.get? (s.sweep now).entries id = (s.entries.get? id).bind (Entry.swept · now) := hswept.get
    refine h.of rfl (fun x hx => ?_) (fun age hin => ?_) (Queue.sweep_next _ _).ge (fun _ e' he' => ?_)
      fun r _ _ hkept => ?_
    · obtain ⟨p, -, rfl⟩ := mem_map.mp hx
      simp
    · obtain ⟨p, hp, heq⟩ := mem_map.mp hin
      obtain ⟨rfl, rfl⟩ := Happening.purged.inj heq
      exact (hswept.age p.2 hp).1
    · obtain ⟨e, he, hkeep⟩ := bind_eq_some_iff.mp (hget.symm.trans he')
      refine ⟨e, he, ?_⟩
      unfold Entry.swept at hkeep
      split_ifs at hkeep
      cases hkeep
      unfold Entry.visited Entry.expire Entry.giveUp
      split_ifs <;> exact ⟨fun hr => hr, fun hc => hc⟩
    · refine hkept.of (fun x hx => mem_append_left _ hx) (fun job hjob _ _ => hjob) fun e he hstate => ?_
      have hsound := hconsistent.accounted.sound id e he
      have hactive := Entry.active_of_idle (hsound.idle_of_completed hstate)
      have hvisited : e.visited now = e := by
        simp [Entry.visited, Entry.giveUp, Entry.expires, hstate]
      by_cases hpurged : e.swept now = none
      · obtain ⟨age, hage⟩ := hswept.purged e he hpurged
        exact .inr (.inr ⟨age, mem_append_right _ (mem_map.mpr ⟨(id, age), hage, rfl⟩)⟩)
      · left
        show Table.get? (s.sweep now).entries id = some e
        rw [hget, he, bind_some]
        unfold Entry.swept at hpurged ⊢
        rw [hvisited] at hpurged ⊢
        split_ifs at hpurged ⊢
        · exact absurd rfl hpurged
        · rfl

theorem Settled.advanceDispatch (h : s.Settled id) (hconsistent : s.Consistent) (reservation : Bool) :
    (s.advanceDispatch reservation).Settled id := by
  have hsilent : ∀ (dispatch : Option Dispatch) (extra : List Happening),
      (∀ x ∈ extra, x ≠ .cancelAccepted id ∧ x ≠ .committed id ∧ (∀ r, x ≠ .runReturned id r) ∧
        ∀ age, x ≠ .purged id age) →
      Settled { s with dispatch := dispatch, log := s.log ++ extra } id := by
    intro dispatch extra hextra
    refine h.untouched rfl (fun x hx => ?_) (fun age hin => ?_) le_rfl (fun _ => rfl) fun job hjob _ _ _ => hjob
    · exact ⟨(hextra x hx).1, (hextra x hx).2.1, (hextra x hx).2.2.1⟩
    · exact absurd rfl ((hextra _ hin).2.2.2 age)
  have hquiet : ∀ dispatch : Option Dispatch, Settled { s with dispatch := dispatch } id := by
    intro dispatch
    simpa using hsilent dispatch [] (by simp)
  unfold System.advanceDispatch
  split
  · exact h
  · exact hsilent _ _ (by simp)
  · exact hquiet _
  · split_ifs
    · exact hquiet _
    · exact hquiet _
    · exact hquiet _
  · split_ifs
    · exact hsilent _ _ (by simp)
    · exact hquiet _
  · rename_i id' queued hd
    split
    · exact hquiet _
    · rename_i e hfilter
      obtain ⟨hget, hqueued⟩ := filter_eq_some_iff.mp hfilter
      have hqueued' : e.status.state = .queued := by simpa using hqueued
      have hwrites := Queue.start_spec hget (hconsistent.accounted.sound id' e hget) hqueued'
      refine h.of (append_nil _).symm (by simp) (by simp) hwrites.next.ge (fun _ e' he' => ?_) fun r _ _ hkept => ?_
      · by_cases hid : id = id'
        · subst hid
          cases hwrites.get?_self.symm.trans he'
          exact ⟨e, hget, fun hr => hr, fun hc => hc⟩
        · exact ⟨e', (hwrites.get?_of_ne hid).symm.trans he', fun hr => hr, fun hc => hc⟩
      · refine hkept.of (fun x hx => hx) (fun job hjob _ _ => mem_append_left _ hjob) fun old hold hstate => .inl ?_
        have hid : id ≠ id' := by
          rintro rfl
          cases hget.symm.trans hold
          rw [hqueued'] at hstate
          cases hstate
        exact (hwrites.get?_of_ne hid).trans hold
  · exact hsilent _ _ (by simp)

theorem Settled.advance (h : s.Settled id) {job' : Job} (hjob : s.jobs[i]? = some job)
    (hphase : ∀ r, job.phase ≠ .returned r)
    (hextra : ∀ x ∈ extra, x ≠ .cancelAccepted id ∧ x ≠ .committed id ∧ (∀ r, x ≠ .runReturned id r) ∧
      ∀ age, x ≠ .purged id age) :
    Settled { s with jobs := s.jobs.eraseIdx i ++ [job'], log := s.log ++ extra } id := by
  refine h.untouched rfl (fun x hx => ?_) (fun age hin => ?_) le_rfl (fun _ => rfl) fun other hother _ r hreturned => ?_
  · exact ⟨(hextra x hx).1, (hextra x hx).2.1, (hextra x hx).2.2.1⟩
  · exact absurd rfl ((hextra _ hin).2.2.2 age)
  · have hne : other ≠ job := by
      rintro rfl
      exact hphase r hreturned
    exact mem_append_left _ (Pool.mem_eraseIdx_of_ne hjob hother hne)

theorem Settled.return (h : s.Settled id) (hjob : s.jobs[i]? = some job) (hphase : job.phase = .running) (r : Result) :
    Settled { s with
      jobs := s.jobs.eraseIdx i ++ [{ job with phase := .returned r }]
      log := s.log ++ [.runReturned job.id r] } id := by
  have hcancel : .cancelAccepted id ∈ s.log ++ [.runReturned job.id r] → .cancelAccepted id ∈ s.log := by simp
  have hcommit : .committed id ∈ s.log ++ [.runReturned job.id r] → .committed id ∈ s.log := by simp
  refine ⟨fun hin => h.requested (hcancel hin), fun hin => h.committed (hcommit hin),
    fun hin => h.issued (hin.imp hcancel hcommit), not_sublist_append (by simp) h.order,
    fun age hin => h.aged age (by simpa using hin), fun result hin hreturned hok => ?_⟩
  rw [mem_append, mem_singleton] at hreturned
  rcases hreturned with hreturned | heq
  · refine (h.kept result (hcommit hin) hreturned hok).of (fun x hx => mem_append_left _ hx)
      (fun other hother _ hother' => ?_) fun e he _ => .inl he
    have hne : other ≠ job := by
      rintro rfl
      rw [hphase] at hother'
      cases hother'
    exact mem_append_left _ (Pool.mem_eraseIdx_of_ne hjob hother hne)
  · obtain ⟨rfl, rfl⟩ := Happening.runReturned.inj heq
    exact .inl ⟨{ job with phase := .returned result }, mem_append_right _ (mem_singleton.mpr rfl), rfl, rfl⟩

theorem Settled.finish (h : s.Settled id) (hconsistent : s.Consistent) (hjob : s.jobs[i]? = some job)
    (hphase : job.phase = .returned r) {e e' : Entry} {q : Queue} (hactive : e.active = true)
    (hwrites : Writes s.toQueue job.id e e' q) (hfinishes : Finishes e e' r) :
    Settled { s with toQueue := q, jobs := s.jobs.eraseIdx i ++ [{ job with phase := .finished }] } id := by
  refine h.of (append_nil _).symm (by simp) (by simp) hwrites.next.ge (fun _ new hnew => ?_)
    fun result hin hok hkept => ?_
  · by_cases hid : id = job.id
    · subst hid
      cases hwrites.get?_self.symm.trans hnew
      exact ⟨e, hwrites.get, fun hr => hfinishes.cancelRequested.trans hr, fun hc => hfinishes.resultCommitted.trans hc⟩
    · exact ⟨new, (hwrites.get?_of_ne hid).symm.trans hnew, fun hr => hr, fun hc => hc⟩
  · rcases hkept with ⟨other, hother, hid, hreturned⟩ | ⟨old, hold, hstate, hresult⟩ | hack | ⟨age, hpurged⟩
    · by_cases hsame : other = job
      · subst hsame hid
        obtain rfl := Phase.returned.inj (hphase.symm.trans hreturned)
        have hsound := hconsistent.accounted.sound other.id e hwrites.get
        have hopen := hsound.exclusive (h.committed hin e hwrites.get)
        obtain ⟨hstate, hresult⟩ := hfinishes.image hopen hok
        exact .inr (.inl ⟨e', hwrites.get?_self, hstate, hresult⟩)
      · exact .inl ⟨other, mem_append_left _ (Pool.mem_eraseIdx_of_ne hjob hother hsame), hid, hreturned⟩
    · have hid : id ≠ job.id := by
        rintro rfl
        cases hwrites.get.symm.trans hold
        have hsound := hconsistent.accounted.sound job.id e hold
        rw [Entry.active_of_idle (hsound.idle_of_completed hstate)] at hactive
        cases hactive
      exact .inr (.inl ⟨old, (hwrites.get?_of_ne hid).trans hold, hstate, hresult⟩)
    · exact .inr (.inr (.inl hack))
    · exact .inr (.inr (.inr ⟨age, hpurged⟩))

theorem Settled.commit (h : s.Settled id) (hconsistent : s.Consistent) (hbalanced : s.Balanced id) (i : Nat) :
    (s.commit i).Settled id := by
  rcases hconsistent.commit_cases i with heq | ⟨job, e, _, hjob, hphase, hopen, hwrites, -, heq⟩
  · rwa [heq]
  · rw [heq]
    by_cases hid : id = job.id
    · subst hid
      have huncancelled : .cancelAccepted job.id ∉ s.log := by
        intro hin
        rw [h.requested hin e hwrites.get] at hopen
        cases hopen
      have huncancelled' : .cancelAccepted job.id ∉ s.log ++ [.committed job.id] := by simpa using huncancelled
      -- the run has not returned, since its goroutine is in it
      have hunreturned : ∀ r, .runReturned job.id r ∉ s.log := by
        intro r hin
        have hjobs : 0 < s.jobs.countP (Job.unreturned job.id) :=
          countP_pos_iff.mpr ⟨job, mem_of_getElem? hjob, by simp [Job.unreturned, hphase]⟩
        have hlog : 0 < s.log.countP (Happening.returns job.id) :=
          countP_pos_iff.mpr ⟨_, hin, by simp [Happening.returns]⟩
        have hle := hbalanced.returned
        have hissued := s.issued_le job.id
        omega
      refine ⟨fun hin => absurd hin huncancelled', fun _ new hnew => ?_, fun _ => ?_, ?_, fun age hin => ?_,
        fun r _ hin => ?_⟩
      · cases hwrites.get?_self.symm.trans hnew
        rfl
      · exact hwrites.next ▸ Table.lt_next_of_get? hwrites.get
      · intro hsub
        exact huncancelled' (hsub.subset (by simp))
      · exact h.aged age (by simpa using hin)
      · exact absurd (by simpa using hin) (hunreturned r)
    · exact h.untouched rfl (by simp [Ne.symm hid]) (by simp) hwrites.next.ge (fun _ => hwrites.get?_of_ne hid)
        fun job hjob _ _ _ => hjob

theorem Settled.advanceJob (h : s.Settled id) (hconsistent : s.Consistent) (i : Nat) (result : Option Result)
    (now : Int) : (s.advanceJob i result now).Settled id := by
  unfold System.advanceJob
  split
  · exact h
  · rename_i job hjob
    dsimp only
    split
    · rename_i hphase
      exact h.advance hjob (by simp [hphase]) (by simp)
    · rename_i hphase
      exact h.return hjob hphase _
    · rename_i r hphase
      have hmem := mem_of_getElem? hjob
      have hexecuting : job.phase.executing = true := by
        rw [hphase]
        rfl
      obtain ⟨e, he, hactive⟩ := hconsistent.active_of_executing hmem hexecuting
      obtain ⟨e', hwrites, hfinishes⟩ :=
        Queue.finishEntry_spec he (hconsistent.accounted.sound job.id e he) hactive r now
      rw [he]
      exact h.finish hconsistent hjob hphase hactive hwrites hfinishes
    · rename_i hphase
      exact h.advance hjob (by simp [hphase]) (by simp)
    · rename_i hphase
      split_ifs
      · exact h.advance hjob (by simp [hphase]) (by simp)
      · rw [← append_nil s.log]
        exact h.advance hjob (by simp [hphase]) (by simp)
    · rename_i hphase
      refine h.untouched (append_nil _).symm (by simp) (by simp) le_rfl (fun _ => rfl)
        fun other hother _ r hreturned => ?_
      have hne : other ≠ job := by
        rintro rfl
        rw [hphase] at hreturned
        cases hreturned
      exact Pool.mem_eraseIdx_of_ne hjob hother hne

theorem Settled.step (h : s.Settled id) (hconsistent : s.Consistent) (hbalanced : s.Balanced id)
    (sum256 : Bytes → Bytes) (a : Event) : (s.step sum256 a).Settled id := by
  cases a with
  | submit r epoch now admission => exact h.submit sum256 r epoch now admission
  | cancel owner id' now => exact h.cancel hconsistent sum256 owner id' now
  | release =>
    unfold System.step
    dsimp only
    split
    · exact h
    · exact h.untouched rfl (by simp) (by simp) le_rfl (fun _ => rfl) fun job hjob _ _ _ => hjob
  | ack owner id' => exact h.ack hconsistent sum256 owner id'
  | tick now => exact h.tick hconsistent now
  | advanceDispatch reservation => exact h.advanceDispatch hconsistent reservation
  | advanceJob i result now => exact h.advanceJob hconsistent i result now
  | commit i => exact h.commit hconsistent hbalanced i

theorem settled_new : (System.new epoch).Settled id where
  requested h := by simp [System.new] at h
  committed h := by simp [System.new] at h
  issued h := by simp [System.new] at h
  order h := by simp [System.new] at h
  aged age h := by simp [System.new] at h
  kept r h := by simp [System.new] at h

theorem settled_run {sum256 : Bytes → Bytes} {l : List Event} :
    (run (System.step sum256) (.new epoch) l).Settled id := by
  have hall := run_invariant' (I := fun s : System => s.Consistent ∧ s.Balanced id ∧ s.Settled id)
    (fun s a h => ⟨h.1.step sum256 a, h.2.1.step h.1 sum256 a, h.2.2.step h.1 h.2.1 sum256 a⟩)
    ⟨consistent_new epoch, balanced_new epoch id, settled_new⟩ l
  exact hall.2.2

end System

/-! ## The goroutines come to an end -/

/-- A step of a call, of the dispatcher or of a job that has begun, which nothing can hold up. -/
def Event.goesOn : Event → Bool
  | release _ | advanceDispatch _ | advanceJob _ _ _ => true
  | submit _ _ _ _ | cancel _ _ _ | ack _ _ | tick _ | commit _ => false

def Phase.work : Phase → Nat
  | spawned => 6
  | running => 5
  | returned _ => 4
  | finished => 3
  | slotReleased => 2
  | admissionReleased => 1

/-- The steps that the dispatcher has still to take, with those of the jobs it may start. -/
def Dispatch.work : Dispatch → Nat
  | releasing admissions queued => 1 + admissions.length + 10 * queued.length
  | reserving _ queued => 10 + 10 * queued.length
  | reserved _ queued => 9 + 10 * queued.length
  | returning _ queued => 2 + 10 * queued.length

namespace System

def work (s : System) : Nat :=
  s.owed.length + s.dispatch.elim 0 Dispatch.work + Pool.weight (fun job => job.phase.work) s.jobs

variable {s : System}

theorem work_release (h : s.owed ≠ []) (sum256 : Bytes → Bytes) : (s.step sum256 (.release 0)).work < s.work := by
  obtain ⟨_, _, howed⟩ := exists_cons_of_ne_nil h
  simp only [System.step, howed, getElem?_cons_zero, work, eraseIdx_zero, tail_cons, length_cons]
  omega

theorem work_advanceDispatch (h : s.dispatch ≠ none) (reservation : Bool) :
    (s.advanceDispatch reservation).work < s.work := by
  obtain ⟨d, hd⟩ := ne_none_iff_exists'.mp h
  have hwork : s.work = s.owed.length + d.work + Pool.weight (fun job => job.phase.work) s.jobs := by
    rw [work, hd, elim_some]
  rw [hwork]
  unfold System.advanceDispatch
  rw [hd]
  cases d with
  | releasing admissions queued =>
    cases admissions with
    | cons =>
      simp only [work, elim_some, Dispatch.work, length_cons]
      omega
    | nil =>
      cases queued with
      | nil =>
        simp only [work, elim_none, Dispatch.work]
        omega
      | cons =>
        dsimp only
        split_ifs <;> simp only [work, elim_none, elim_some, Dispatch.work, length_cons] <;>
          omega
  | reserving =>
    split_ifs <;> simp [work, Dispatch.work]
  | reserved =>
    dsimp only
    split
    · simp only [work, elim_some, Dispatch.work]
      omega
    · simp only [work, elim_some, Dispatch.work, Pool.weight_append, Pool.weight_cons, Pool.weight_nil, Phase.work,
        length_nil]
      omega
  | returning =>
    simp only [work, elim_some, Dispatch.work, length_nil]
    omega

theorem work_advanceJob {i : Nat} {job : Job} (hjob : s.jobs[i]? = some job) (result : Option Result) (now : Int) :
    (s.advanceJob i result now).work < s.work := by
  have hweight := Pool.weight_get (fun job : Job => job.phase.work) hjob
  have hless : ∀ (phase : Phase), phase.work < job.phase.work →
      Pool.weight (fun job : Job => job.phase.work) (s.jobs.eraseIdx i ++ [{ job with phase := phase }]) <
        Pool.weight (fun job : Job => job.phase.work) s.jobs := by
    intro phase hphase
    rw [hweight, Pool.weight_append, Pool.weight_cons, Pool.weight_nil]
    show _ + (phase.work + 0) < _
    omega
  unfold System.advanceJob
  rw [hjob]
  dsimp only
  split
  · rename_i hphase
    have hstep := hless .running (by rw [hphase]; decide)
    simp only [work]
    omega
  · rename_i hphase
    have hstep := hless (.returned (result.getD { error := "studio_generation_failed" }))
      (by rw [hphase, Phase.work, Phase.work]; omega)
    simp only [work]
    omega
  · rename_i r hphase
    have hstep := hless .finished (by rw [hphase, Phase.work, Phase.work]; omega)
    split <;> simp only [work] <;> omega
  · rename_i hphase
    have hstep := hless .slotReleased (by rw [hphase]; decide)
    simp only [work]
    omega
  · rename_i hphase
    have hstep := hless .admissionReleased (by rw [hphase]; decide)
    split_ifs <;> simp only [work] <;> omega
  · rename_i hphase
    have hpos : job.phase.work = 1 := by
      rw [hphase]
      rfl
    simp only [work]
    omega

/-- The goroutines that have begun can be left to themselves, and then have nothing left to give back. -/
theorem quiet_after (sum256 : Bytes → Bytes) (s : System) : ∃ rest : List Event, (∀ a ∈ rest, a.goesOn = true) ∧
      (run (System.step sum256) s rest).owed = [] ∧ (run (System.step sum256) s rest).dispatch = none ∧
      (run (System.step sum256) s rest).jobs = [] := by
  induction hwork : s.work using Nat.strong_induction_on generalizing s with
  | _ n ih =>
    subst hwork
    have hnext : ∀ a : Event, a.goesOn = true → (s.step sum256 a).work < s.work →
        ∃ rest : List Event, (∀ a ∈ rest, a.goesOn = true) ∧
          (run (System.step sum256) s rest).owed = [] ∧ (run (System.step sum256) s rest).dispatch = none ∧
          (run (System.step sum256) s rest).jobs = [] := by
      intro a ha hless
      obtain ⟨rest, hrest, hquiet⟩ := ih _ hless (s.step sum256 a) rfl
      refine ⟨a :: rest, fun b hb => ?_, hquiet⟩
      rcases mem_cons.mp hb with rfl | hb
      · exact ha
      · exact hrest b hb
    by_cases howed : s.owed = []
    · by_cases hdispatch : s.dispatch = none
      · by_cases hjobs : s.jobs = []
        · exact ⟨[], by simp, howed, hdispatch, hjobs⟩
        · obtain ⟨_, _, hcons⟩ := exists_cons_of_ne_nil hjobs
          exact hnext (.advanceJob 0 none 0) rfl (work_advanceJob (by rw [hcons]; rfl) none 0)
      · exact hnext (.advanceDispatch false) rfl (work_advanceDispatch hdispatch false)
    · exact hnext (.release 0) rfl (work_release howed sum256)

end System

/-- In every state of every interleaving: a job was run at most once; its admission is held while it waits or runs,
and after that its release was called once or is what a goroutine calls next; its reservations were released but for
those a goroutine still holds; it was not committed after an accepted cancellation; and an image that was committed is
there until it is acknowledged or purged. The goroutines can always go on to the end, where nothing is left to be
called. -/
theorem job_runs_and_releases_once (sum256 : Bytes → Bytes) (epoch : String) (l : List Event) :
    let s := run (System.step sum256) (.new epoch) l
    (∀ id,
      s.log.count (.runStarted id) ≤ 1 ∧
      s.log.count (.submitted id true) ≤ 1 ∧
      ((∃ e, s.entries.get? id = some e ∧ (e.active = true ∨ e.status.state = .queued)) →
        s.log.count (.admissionReleased id) = 0 ∧ s.admissionsPending id = 0) ∧
      ((∀ e, s.entries.get? id = some e → e.active = false ∧ e.status.state ≠ .queued) →
        s.log.count (.admissionReleased id) + s.admissionsPending id = s.log.count (.submitted id true)) ∧
      s.log.count (.reserved id) ≤ 1 ∧
      s.log.count (.slotReleased id) + s.reservationsHeld id = s.log.count (.reserved id) ∧
      ¬[.cancelAccepted id, .committed id].Sublist s.log ∧
      ∀ r, .committed id ∈ s.log → .runReturned id r ∈ s.log → r.ok = true →
        (∃ job ∈ s.jobs, job.id = id ∧ job.phase = .returned r) ∨
        (∃ e, s.entries.get? id = some e ∧ e.status.state = .completed ∧ s.result e.request.owner id = some r.png) ∨
        .acknowledged id ∈ s.log ∨ ∃ age, .purged id age ∈ s.log ∧ age ≥ 10 * minute) ∧
    ∃ rest : List Event, (∀ a ∈ rest, a.goesOn = true) ∧ ∀ id,
      (run (System.step sum256) s rest).admissionsPending id = 0 ∧
      (run (System.step sum256) s rest).reservationsHeld id = 0 := by
  intro s
  refine ⟨fun id => ?_, ?_⟩
  · have hbalanced : s.Balanced id := System.balanced_run sum256 epoch l id
    have hsettled : s.Settled id := System.settled_run
    have hissued := s.issued_le id
    obtain ⟨_, -, _, _, hreserved, _, hadmitted⟩ := hbalanced
    refine ⟨by omega, by omega, ?_, ?_, by omega, hreserved.symm, hsettled.order, fun r hcommitted hreturned hok => ?_⟩
    · rintro ⟨e, he, hbusy⟩
      have hheld := heldAt_of_get he
      have hcount := hadmitted e he
      simp only [Entry.busy_iff.mpr hbusy, true_and] at hheld
      omega
    · intro hleft
      have hheld : s.heldAt id = 0 := by
        cases he : s.entries.get? id with
        | none => rw [Queue.heldAt, he]; rfl
        | some e =>
          rw [heldAt_of_get he, if_neg]
          rintro ⟨hbusy, -⟩
          rcases Entry.busy_iff.mp hbusy with hactive | hqueued
          · rw [(hleft e he).1] at hactive
            cases hactive
          · exact (hleft e he).2 hqueued
      omega
    · rcases hsettled.kept r hcommitted hreturned hok with hjob | ⟨e, he, hstate, hresult⟩ | hack | ⟨age, hpurged⟩
      · exact .inl hjob
      · refine .inr (.inl ⟨e, he, hstate, ?_⟩)
        rw [Queue.result, Queue.owned, he]
        simp [hstate, hresult]
      · exact .inr (.inr (.inl hack))
      · exact .inr (.inr (.inr ⟨age, hpurged, hsettled.aged age hpurged⟩))
  · obtain ⟨rest, hrest, howed, hdispatch, hjobs⟩ := System.quiet_after sum256 s
    refine ⟨rest, hrest, fun id => ?_⟩
    rw [System.admissionsPending, System.reservationsHeld, howed, hdispatch, hjobs]
    exact ⟨rfl, rfl⟩

end CubeRouter.Studio
