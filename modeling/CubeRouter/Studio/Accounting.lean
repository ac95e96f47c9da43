import CubeRouter.Studio.Queue
import Mathlib.Algebra.Order.Group.Int

/-!
# The accounts of the studio queue

Memory is charged when a job is submitted and given back when it ends, is fetched or is forgotten. Every section changes
one entry, or forgets one, and changes the bytes by the difference of its charges (`Accounted.wrote`,
`Accounted.deleted`); what the sections may do to an entry is `Entry.Follows`. A job that runs is a goroutine, and an
entry is active exactly while its goroutine has not finished it.
-/

namespace CubeRouter.Studio

open Relational Transition List Option Table Bool

/-! ## Entries -/

/-- The bytes of an entry: its request and room for its image while it waits or runs, then its image. -/
def Entry.charge (e : Entry) : Int := if e.busy then e.reserve else e.result.length

structure Entry.Sound (e : Entry) : Prop where
  queued : e.status.state = .queued →
    e.active = false ∧ e.ended = 0 ∧ e.status.cancelRequested = false ∧ e.status.resultCommitted = false
  active : e.active = true →
    e.ended = 0 ∧ (e.status.state = .running ∨ e.status.state = .cancelling ∨ e.status.state = .cancelled)
  result : e.result ≠ [] → e.status.state = .completed
  completed : e.status.state = .completed → e.status.cancelRequested = false
  exclusive : e.status.resultCommitted = true → e.status.cancelRequested = false

variable {e e' : Entry} {q q' : Queue} {id j : Nat} {g : Entry → Entry} {now : Int} {w : Sweep}

theorem Entry.busy_iff : e.busy = true ↔ e.active = true ∨ e.status.state = .queued := by
  simp [Entry.busy]

theorem Entry.active_of_idle (h : e.busy = false) : e.active = false := by
  rw [← not_eq_true]
  intro hactive
  rw [Entry.busy_iff.mpr (.inl hactive)] at h
  cases h

theorem Entry.Sound.result_nil (h : e.Sound) (hbusy : e.busy = true) : e.result = [] := by
  by_contra hresult
  have hcompleted := h.result hresult
  rcases Entry.busy_iff.mp hbusy with hactive | hqueued
  · rcases (h.active hactive).2 with hstate | hstate | hstate <;> simp [hcompleted] at hstate
  · simp [hcompleted] at hqueued

structure Entry.Follows (e e' : Entry) : Prop where
  owner : e'.request.owner = e.request.owner
  busy : e'.busy = true → e.busy = true
  queued : e'.status.state = .queued → e.status.state = .queued
  charge : e'.charge ≤ e.charge
  sound : e'.Sound

theorem Entry.reserve_nonneg (e : Entry) : 0 ≤ e.reserve := by
  unfold Entry.reserve
  omega

theorem Entry.charge_nonneg (e : Entry) : 0 ≤ e.charge := by
  unfold Entry.charge
  split_ifs
  · exact e.reserve_nonneg
  · omega

theorem charge_of_busy (h : e.busy = true) : e.charge = e.reserve := if_pos h

theorem charge_of_not_busy (h : e.busy = false) : e.charge = e.result.length := if_neg (by simp [h])

theorem charge_eq_of_busy (h : e.busy = true) (h' : e'.busy = true) (hrequest : e'.request = e.request) :
    e'.charge = e.charge := by
  rw [charge_of_busy h, charge_of_busy h', Entry.reserve, Entry.reserve, hrequest]

/-! ## The queue -/

structure Queue.Accounted (q : Queue) : Prop where
  sorted : q.order.Pairwise (· < ·)
  mem_order : ∀ id, id ∈ q.order ↔ (q.entries.get? id).isSome = true
  bytes_eq : q.bytes = q.entries.sum Entry.charge
  bytes_le : q.bytes ≤ maxBytes
  waiting : q.entries.count (fun e => e.status.state = .queued) ≤ 10
  one_busy : ∀ i j e e', q.entries.get? i = some e → q.entries.get? j = some e' → e.busy = true → e'.busy = true →
    e.request.owner = e'.request.owner → i = j
  sound : ∀ id e, q.entries.get? id = some e → e.Sound

theorem Queue.Accounted.bytes_nonneg (h : q.Accounted) : 0 ≤ q.bytes := by
  rw [h.bytes_eq]
  exact sum_nonneg fun _ e _ => e.charge_nonneg

structure Wrote (q : Queue) (id : Nat) (e : Entry) (g : Entry → Entry) (q' : Queue) : Prop where
  get : q.entries.get? id = some e
  entries : q'.entries = q.entries.modify id g
  bytes : q'.bytes = q.bytes + ((g e).charge - e.charge)
  order : q'.order = q.order
  epoch : q'.epoch = q.epoch

theorem Wrote.get?_self (h : Wrote q id e g q') : q'.entries.get? id = some (g e) := by
  rw [h.entries, Table.get?_modify_self, h.get, map_some]

theorem Wrote.get?_of_ne (h : Wrote q id e g q') (hj : j ≠ id) : q'.entries.get? j = q.entries.get? j := by
  rw [h.entries, Table.get?_modify_of_ne _ _ hj]

theorem Wrote.follows (h : Wrote q id e g q') (hfollows : e.Follows (g e)) (hq : q.Accounted)
    (hget : q'.entries.get? j = some e') : ∃ old, q.entries.get? j = some old ∧ old.Follows e' := by
  by_cases hj : j = id
  · subst hj
    rw [h.get?_self] at hget
    cases hget
    exact ⟨e, h.get, hfollows⟩
  · rw [h.get?_of_ne hj] at hget
    exact ⟨e', hget, rfl, fun hb => hb, fun hq => hq, le_rfl, hq.sound j e' hget⟩

theorem Queue.Accounted.wrote (hq : q.Accounted) (h : Wrote q id e g q') (hfollows : e.Follows (g e)) :
    q'.Accounted where
  sorted := by
    rw [h.order]
    exact hq.sorted
  mem_order j := by
    rw [h.order, hq.mem_order]
    by_cases hj : j = id
    · rw [hj, h.get, h.get?_self]
      simp
    · rw [h.get?_of_ne hj]
  bytes_eq := by
    rw [h.bytes, hq.bytes_eq, h.entries, sum_modify _ _ _ h.get]
  bytes_le := by
    have hle := hfollows.charge
    have hbytes := hq.bytes_le
    rw [h.bytes]
    omega
  waiting := by
    rw [h.entries]
    refine (count_modify_le fun r hr hp => ?_).trans hq.waiting
    obtain rfl := mem_unique hr h.get
    simpa using hfollows.queued (by simpa using hp)
  one_busy i j a b hi hj hbi hbj howner := by
    obtain ⟨a0, ha0, hfa⟩ := h.follows hfollows hq hi
    obtain ⟨b0, hb0, hfb⟩ := h.follows hfollows hq hj
    refine hq.one_busy i j a0 b0 ha0 hb0 (hfa.busy hbi) (hfb.busy hbj) ?_
    rw [← hfa.owner, ← hfb.owner, howner]
  sound j e' hget := by
    obtain ⟨_, -, hf⟩ := h.follows hfollows hq hget
    exact hf.sound

theorem Queue.Accounted.deleted {before after : List Nat} (hq : q.Accounted)
    (horder : q.order = before ++ id :: after) (hget : q.entries.get? id = some e) (hbusy : e.busy = false) :
    Queue.Accounted { q with
      entries := q.entries.delete id
      bytes := q.bytes - e.result.length
      order := before ++ after } where
  sorted := by
    have hsorted := hq.sorted
    rw [horder] at hsorted
    exact hsorted.sublist ((sublist_cons_self id after).append_left before)
  mem_order j := by
    have hmem := hq.mem_order j
    have hsorted := hq.sorted
    rw [horder] at hmem hsorted
    rw [Table.get?_delete]
    by_cases hj : j = id
    · subst hj
      refine iff_of_false ?_ (by simp)
      have hnodup := hsorted.imp (fun h => ne_of_lt h)
      exact fun hin => (nodup_middle.mp hnodup).notMem hin
    · rw [if_neg hj, ← hmem]
      simp [hj]
  bytes_eq := by
    have hsum := sum_delete q.entries Entry.charge hget
    rw [charge_of_not_busy hbusy, ← hq.bytes_eq] at hsum
    show q.bytes - _ = (q.entries.delete id).sum Entry.charge
    omega
  bytes_le := by
    have hbytes := hq.bytes_le
    show q.bytes - _ ≤ _
    omega
  waiting := (count_delete_le _ _ _).trans hq.waiting
  one_busy i j a b hi hj := by
    rw [Table.get?_delete] at hi hj
    split_ifs at hi hj
    exact hq.one_busy i j a b hi hj
  sound j e' hj := by
    rw [Table.get?_delete] at hj
    split_ifs at hj
    exact hq.sound j e' hj

/-! ## The loop of Tick -/

/-- The entry that the loop leaves, before it is forgotten. -/
def Entry.visited (e : Entry) (now : Int) : Entry :=
  if (e.giveUp now).expires now then (e.giveUp now).expire now else e.giveUp now

theorem Entry.giveUp_eq (e : Entry) (now : Int) : e.giveUp now = e ∨ e.active = true ∧ e.status.state = .cancelling ∧
      e.giveUp now = { e with status := { e.status with state := .cancelled } } := by
  unfold Entry.giveUp
  split_ifs with h
  · exact .inr ⟨h.1, h.2.1, rfl⟩
  · exact .inl rfl

theorem Entry.Sound.giveUp (h : e.Sound) (now : Int) : e.Follows (e.giveUp now) := by
  rcases e.giveUp_eq now with heq | ⟨hactive, _, heq⟩
  · rw [heq]
    exact ⟨rfl, fun hb => hb, fun hq => hq, le_rfl, h⟩
  · rw [heq]
    have hbusy : e.busy = true := Entry.busy_iff.mpr (.inl hactive)
    have hempty := h.result_nil hbusy
    refine ⟨rfl, fun _ => hbusy, fun hq => (nomatch hq), ?_, ?_⟩
    · exact le_of_eq (charge_eq_of_busy hbusy (Entry.busy_iff.mpr (.inl hactive)) rfl)
    · exact
        { queued := fun hq => nomatch hq
          active := fun ha => ⟨(h.active ha).1, .inr (.inr rfl)⟩
          result := fun hr => absurd hempty hr
          completed := fun hc => nomatch hc
          exclusive := h.exclusive }

theorem Entry.Follows.trans {e'' : Entry} (h : e.Follows e') (h' : e'.Follows e'') : e.Follows e'' where
  owner := h'.owner.trans h.owner
  busy hb := h.busy (h'.busy hb)
  queued hq := h.queued (h'.queued hq)
  charge := h'.charge.trans h.charge
  sound := h'.sound

theorem Entry.Sound.leave (h : e.Sound) (e' : Entry) (hqueued : e.status.state = .queued)
    (howner : e'.request.owner = e.request.owner) (hactive : e'.active = e.active) (hresult : e'.result = e.result)
    (hcommitted : e'.status.resultCommitted = e.status.resultCommitted)
    (hstate : e'.status.state = .expired ∨ e'.status.state = .cancelled) :
    e.Follows e' ∧ e'.charge - e.charge = -e.reserve := by
  have hbusy : e.busy = true := Entry.busy_iff.mpr (.inr hqueued)
  obtain ⟨hidle, -, -, hopen⟩ := h.queued hqueued
  have hempty : e'.result = [] := hresult.trans (h.result_nil hbusy)
  have hleft : e'.busy = false := by
    rw [← not_eq_true, Entry.busy_iff, hactive, hidle]
    rcases hstate with hs | hs <;> simp [hs]
  have hcharge : e'.charge = 0 := by
    rw [charge_of_not_busy hleft, hempty]
    rfl
  have hnonneg := e.reserve_nonneg
  rw [hcharge, charge_of_busy hbusy]
  refine ⟨⟨howner, fun hb => ?_, fun hq => ?_, ?_, ?_⟩, by omega⟩
  · rw [hleft] at hb
    cases hb
  · rw [hq] at hstate
    simp at hstate
  · rw [hcharge, charge_of_busy hbusy]
    exact hnonneg
  · refine ⟨fun hq => ?_, fun ha => ?_, fun hr => absurd hempty hr, fun hc => ?_, fun hc => ?_⟩
    · rw [hq] at hstate
      simp at hstate
    · rw [hactive, hidle] at ha
      cases ha
    · rw [hc] at hstate
      simp at hstate
    · rw [hcommitted, hopen] at hc
      cases hc

theorem Entry.Sound.visited (h : e.Sound) (now : Int) : e.Follows (e.visited now) := by
  unfold Entry.visited
  split_ifs with hexpires
  · have hqueued : (e.giveUp now).status.state = .queued := by
      simp only [Entry.expires, decide_eq_true_eq] at hexpires
      exact hexpires.1
    have hsound := (h.giveUp now).sound
    exact (h.giveUp now).trans (hsound.leave ((e.giveUp now).expire now) hqueued rfl rfl rfl rfl (.inl rfl)).1
  · exact h.giveUp now

theorem Entry.expires_giveUp (e : Entry) (now : Int) : (e.giveUp now).expires now = e.expires now := by
  rcases e.giveUp_eq now with heq | ⟨-, hstate, heq⟩
  · rw [heq]
  · rw [heq]
    simp [Entry.expires, hstate]

theorem Entry.visited_of_expires (h : e.expires now = true) : e.visited now = e.expire now := by
  have hqueued : e.status.state = .queued := by
    simp only [Entry.expires, decide_eq_true_eq] at h
    exact h.1
  have hkeep : e.giveUp now = e := by
    rcases e.giveUp_eq now with heq | ⟨-, hstate, -⟩
    · exact heq
    · simp [hqueued] at hstate
  rw [Entry.visited, Entry.expires_giveUp, if_pos h, hkeep]

theorem Entry.visited_of_not_expires (h : e.expires now = false) : e.visited now = e.giveUp now := by
  rw [Entry.visited, Entry.expires_giveUp, if_neg (by simp [h])]

@[simp] theorem Entry.visited_active (e : Entry) (now : Int) : (e.visited now).active = e.active := by
  unfold Entry.visited Entry.expire Entry.giveUp
  split_ifs <;> rfl

@[simp] theorem Entry.visited_releaseAdmission (e : Entry) (now : Int) :
    (e.visited now).releaseAdmission = e.releaseAdmission := by
  unfold Entry.visited Entry.expire Entry.giveUp
  split_ifs <;> rfl

theorem Entry.Sound.visited_charge (h : e.Sound) (now : Int) :
    (e.visited now).charge - e.charge = if e.expires now then -e.reserve else 0 := by
  split_ifs with hexpires
  · rw [Entry.visited_of_expires hexpires]
    have hqueued : e.status.state = .queued := by
      simp only [Entry.expires, decide_eq_true_eq] at hexpires
      exact hexpires.1
    exact (h.leave (e.expire now) hqueued rfl rfl rfl rfl (.inl rfl)).2
  · rw [Entry.visited_of_not_expires (by simpa using hexpires)]
    rcases e.giveUp_eq now with heq | ⟨hactive, -, heq⟩
    · rw [heq, sub_self]
    · rw [heq, sub_eq_zero]
      have hbusy : e.busy = true := Entry.busy_iff.mpr (.inl hactive)
      exact charge_eq_of_busy hbusy (Entry.busy_iff.mpr (.inl hactive)) rfl

theorem Sweep.visit_of_get (h : w.entries.get? id = some e) (hsound : e.Sound) (now : Int) : w.visit now id =
      if (e.visited now).purges now then
        { w with
          entries := w.entries.delete id
          bytes := w.bytes + ((e.visited now).charge - e.charge) - (e.visited now).result.length
          releases := if e.expires now ∧ e.releaseAdmission then w.releases ++ [id] else w.releases
          purged := w.purged ++ [(id, now - (e.visited now).ended)] }
      else
        { w with
          entries := w.entries.modify id fun _ => e.visited now
          bytes := w.bytes + ((e.visited now).charge - e.charge)
          releases := if e.expires now ∧ e.releaseAdmission then w.releases ++ [id] else w.releases
          kept := w.kept ++ [id]
          queued := if (e.visited now).status.state = .queued then w.queued ++ [id] else w.queued } := by
  rw [Sweep.visit, h, hsound.visited_charge now]
  simp only [Entry.expires_giveUp]
  by_cases hexpires : e.expires now = true
  · have hvisited := Entry.visited_of_expires hexpires
    have hkeep : e.giveUp now = e := by
      rcases e.giveUp_eq now with heq | ⟨-, hstate, -⟩
      · exact heq
      · simp [Entry.expires, hstate] at hexpires
    simp [hexpires, hvisited, hkeep, sub_eq_add_neg]
  · have hvisited := Entry.visited_of_not_expires (by simpa using hexpires)
    simp [hexpires, hvisited]

theorem Entry.Sound.not_busy_of_purges (h : e.Sound) (hpurges : e.purges now = true) : e.busy = false := by
  simp only [Entry.purges, decide_eq_true_eq, not_eq_true] at hpurges
  rw [← not_eq_true, Entry.busy_iff]
  rintro (hactive | hqueued)
  · simp [hpurges.1] at hactive
  · exact hpurges.2.1 (h.queued hqueued).2.1

/-- The loop keeps the accounts of what it has seen and what it has still to see. -/
theorem Sweep.visit_accounted {rest : List Nat}
    (h : Queue.Accounted { w.toQueue with order := w.kept ++ id :: rest }) :
    Queue.Accounted { (w.visit now id).toQueue with order := (w.visit now id).kept ++ rest } := by
  have hmem : id ∈ w.kept ++ id :: rest := mem_append_right _ mem_cons_self
  obtain ⟨e, he⟩ := isSome_iff_exists.mp ((h.mem_order id).mp hmem)
  have hsound := h.sound id e he
  have hwrote : Wrote { w.toQueue with order := w.kept ++ id :: rest } id e (fun _ => e.visited now)
      { w.toQueue with
        entries := w.entries.modify id fun _ => e.visited now
        bytes := w.bytes + ((e.visited now).charge - e.charge)
        order := w.kept ++ id :: rest } := ⟨he, rfl, rfl, rfl, rfl⟩
  have hvisited := h.wrote hwrote (hsound.visited now)
  rw [Sweep.visit_of_get he hsound]
  by_cases hpurges : (e.visited now).purges now = true
  · rw [if_pos hpurges]
    have hdeleted := hvisited.deleted rfl hwrote.get?_self ((hsound.visited now).sound.not_busy_of_purges hpurges)
    simp only [delete_modify_self] at hdeleted
    exact hdeleted
  · rw [if_neg hpurges]
    simpa only [append_assoc, singleton_append] using hvisited

theorem Queue.Accounted.sweep (h : q.Accounted) (now : Int) :
    Queue.Accounted { (q.sweep now).toQueue with order := (q.sweep now).kept } := by
  suffices hfold : ∀ (rest : List Nat) (w : Sweep), Queue.Accounted { w.toQueue with order := w.kept ++ rest } →
      Queue.Accounted { (rest.foldl (Sweep.visit now) w).toQueue with
        order := (rest.foldl (Sweep.visit now) w).kept } by
    exact hfold q.order { toQueue := q } h
  intro rest
  induction rest with
  | nil =>
    intro w hw
    simpa only [append_nil, foldl_nil] using hw
  | cons id _ ih =>
    intro w hw
    exact ih (w.visit now id) (Sweep.visit_accounted hw)

def Entry.swept (e : Entry) (now : Int) : Option Entry :=
  if (e.visited now).purges now then none else some (e.visited now)

def Entry.releases (e : Entry) (now : Int) : Bool := e.expires now ∧ e.releaseAdmission

/-- What a turn has done at one id. -/
theorem Sweep.visit_at (h : w.entries.get? id = some e) (hsound : e.Sound) (now : Int) (j : Nat) :
    (w.visit now id).entries.get? j = (if j = id then e.swept now else w.entries.get? j) ∧
      (w.visit now id).releases.count j = w.releases.count j + (if j = id then (e.releases now).toNat else 0) ∧
      (w.visit now id).purged =
        w.purged ++ (if e.swept now = none then [(id, now - (e.visited now).ended)] else []) := by
  have hreleases : (if e.expires now ∧ e.releaseAdmission then w.releases ++ [id] else w.releases).count j =
      w.releases.count j + (if j = id then (e.releases now).toNat else 0) := by
    unfold Entry.releases
    split_ifs with hreleased hj hj
    · simp [hreleased, hj]
    · simp [count_append, Ne.symm hj]
    · simp [hreleased]
    · rfl
  rw [Sweep.visit_of_get h hsound]
  by_cases hpurges : (e.visited now).purges now = true
  · rw [if_pos hpurges, Entry.swept, if_pos hpurges]
    exact ⟨Table.get?_delete _ _ _, hreleases, by rw [if_pos rfl]⟩
  · rw [if_neg hpurges, Entry.swept, if_neg hpurges]
    refine ⟨?_, hreleases, ?_⟩
    · show (w.entries.modify id _).get? j = _
      rw [Table.get?_modify]
      split_ifs with hj
      · rw [hj, h, map_some]
      · rfl
    · simp

/-- What the sweep has done at one id, when its loop has got so far. -/
structure Queue.SweptTo (q : Queue) (now : Int) (done : List Nat) (w : Sweep) (j : Nat) : Prop where
  get : w.entries.get? j = if j ∈ done then (q.entries.get? j).bind (Entry.swept · now) else q.entries.get? j
  releases : w.releases.count j = if j ∈ done then ((q.entries.get? j).any (Entry.releases · now)).toNat else 0
  purged : ∀ e, q.entries.get? j = some e → e.swept now = none → j ∈ done → ∃ age, (j, age) ∈ w.purged
  age : ∀ age, (j, age) ∈ w.purged → age ≥ 10 * minute ∧ j ∈ done

theorem Queue.SweptTo.visit {done : List Nat} (h : ∀ j, q.SweptTo now done w j) (hget : q.entries.get? id = some e)
    (hsound : e.Sound) (hid : id ∉ done) (j : Nat) : q.SweptTo now (done ++ [id]) (w.visit now id) j := by
  have hw : w.entries.get? id = some e := by
    rw [(h id).get, if_neg hid, hget]
  obtain ⟨hentries, hreleases, hpurged⟩ := Sweep.visit_at hw hsound now j
  have hage : ∀ age, (j, age) ∈ (w.visit now id).purged → age ≥ 10 * minute ∧ j ∈ done ++ [id] := by
    intro age hin
    rw [hpurged, mem_append] at hin
    rcases hin with hin | hin
    · exact ⟨((h j).age age hin).1, mem_append_left _ ((h j).age age hin).2⟩
    · split_ifs at hin with hswept
      · rw [mem_singleton, Prod.mk.injEq] at hin
        obtain ⟨rfl, rfl⟩ := hin
        refine ⟨?_, by simp⟩
        unfold Entry.swept at hswept
        split_ifs at hswept with hpurges
        simp only [Entry.purges, decide_eq_true_eq] at hpurges
        exact hpurges.2.2
      · simp at hin
  by_cases hj : j = id
  · subst hj
    have hin : j ∈ done ++ [j] := by simp
    have hzero := (h j).releases
    rw [if_neg hid] at hzero
    rw [if_pos rfl] at hentries hreleases
    refine ⟨?_, ?_, ?_, hage⟩
    · rw [hentries, if_pos hin, hget, bind_some]
    · rw [hreleases, hzero, if_pos hin, hget, any_some, Nat.zero_add]
    · intro e' he' hswept _
      obtain rfl := mem_unique hget he'
      exact ⟨now - (e.visited now).ended, by simp [hpurged, hswept]⟩
  · have hin : j ∈ done ++ [id] ↔ j ∈ done := by simp [hj]
    rw [if_neg hj] at hentries hreleases
    rw [Nat.add_zero] at hreleases
    refine ⟨?_, ?_, ?_, hage⟩
    · rw [hentries, (h j).get]
      simp only [hin]
    · rw [hreleases, (h j).releases]
      simp only [hin]
    · intro e' he' hswept hdone
      obtain ⟨age, hmem⟩ := (h j).purged e' he' hswept (hin.mp hdone)
      exact ⟨age, by rw [hpurged]; exact mem_append_left _ hmem⟩

/-- What the sweep has done at one id. -/
structure Queue.Swept (q : Queue) (now : Int) (w : Sweep) (j : Nat) : Prop where
  get : w.entries.get? j = (q.entries.get? j).bind (Entry.swept · now)
  releases : w.releases.count j = ((q.entries.get? j).any (Entry.releases · now)).toNat
  purged : ∀ e, q.entries.get? j = some e → e.swept now = none → ∃ age, (j, age) ∈ w.purged
  age : ∀ age, (j, age) ∈ w.purged → age ≥ 10 * minute ∧ (q.entries.get? j).isSome = true

theorem Queue.Accounted.swept (h : q.Accounted) (now : Int) (j : Nat) : q.Swept now (q.sweep now) j := by
  have hnodup : q.order.Nodup := h.sorted.imp fun hlt => ne_of_lt hlt
  have hfold : ∀ (rest done : List Nat) (w : Sweep), q.order = done ++ rest → (∀ j, q.SweptTo now done w j) →
      ∀ j, q.SweptTo now q.order (rest.foldl (Sweep.visit now) w) j := by
    intro rest
    induction rest with
    | nil =>
      intro done w horder hw
      rw [horder, append_nil]
      exact hw
    | cons id rest ih =>
      intro done w horder hw
      have hmem : id ∈ q.order := by
        rw [horder]
        simp
      obtain ⟨e, he⟩ := isSome_iff_exists.mp ((h.mem_order id).mp hmem)
      have hid : id ∉ done := by
        rw [horder] at hnodup
        exact fun hin => (nodup_middle.mp hnodup).notMem (mem_append_left rest hin)
      exact ih (done ++ [id]) (w.visit now id) (by simp [horder]) (Queue.SweptTo.visit hw he (h.sound id e he) hid)
  have hstart : ∀ j, q.SweptTo now [] { toQueue := q } j := fun j => ⟨by simp, by simp, by simp, by simp⟩
  have hend := hfold q.order [] { toQueue := q } rfl hstart j
  have hage : ∀ age, (j, age) ∈ (q.sweep now).purged → age ≥ 10 * minute ∧ (q.entries.get? j).isSome = true := by
    intro age hin
    rw [← h.mem_order]
    exact hend.age age hin
  by_cases hj : j ∈ q.order
  · obtain ⟨hget, hreleases, hpurged, -⟩ := hend
    rw [if_pos hj] at hget hreleases
    exact ⟨hget, hreleases, fun e he hswept => hpurged e he hswept hj, hage⟩
  · obtain ⟨hget, hreleases, -, -⟩ := hend
    rw [if_neg hj] at hget hreleases
    have hnone : q.entries.get? j = none := by
      rw [← not_isSome_iff_eq_none, ← h.mem_order]
      exact hj
    refine ⟨?_, ?_, ?_, hage⟩
    · rw [Queue.sweep, hget, hnone, bind_none]
    · rw [Queue.sweep, hreleases, hnone, any_none, toNat_false]
    · intro e he
      rw [hnone] at he
      cases he

theorem Queue.sweep_counters (q : Queue) :
    (q.sweep now).running = q.running ∧ (q.sweep now).entries.next = q.entries.next := by
  have hvisit : ∀ (w : Sweep) (id : Nat),
      (w.visit now id).running = w.running ∧ (w.visit now id).entries.next = w.entries.next := by
    intro w id
    unfold Sweep.visit
    cases w.entries.get? id with
    | none => exact ⟨rfl, rfl⟩
    | some =>
      dsimp only
      split_ifs <;> exact ⟨rfl, rfl⟩
  suffices hfold : ∀ (rest : List Nat) (w : Sweep), (rest.foldl (Sweep.visit now) w).running = w.running ∧
      (rest.foldl (Sweep.visit now) w).entries.next = w.entries.next by
    exact hfold q.order { toQueue := q }
  intro rest
  induction rest with
  | nil => exact fun w => ⟨rfl, rfl⟩
  | cons id _ ih =>
    intro w
    rw [foldl_cons, (ih _).1, (ih _).2]
    exact hvisit w id

theorem Queue.sweep_running (q : Queue) (now : Int) : (q.sweep now).running = q.running := q.sweep_counters.1

theorem Queue.sweep_next (q : Queue) (now : Int) : (q.sweep now).entries.next = q.entries.next := q.sweep_counters.2

/-! ## The other sections -/

/-- A section writes one entry, which follows what it was; the flags that only some sections set are the caller's. -/
structure Writes (q : Queue) (id : Nat) (e e' : Entry) (q' : Queue) : Prop where
  wrote : ∃ g, g e = e' ∧ Wrote q id e g q'
  follows : e.Follows e'
  releaseAdmission : e'.releaseAdmission = e.releaseAdmission

theorem Writes.get (h : Writes q id e e' q') : q.entries.get? id = some e := by
  obtain ⟨g, -, hwrote⟩ := h.wrote
  exact hwrote.get

theorem Writes.get?_self (h : Writes q id e e' q') : q'.entries.get? id = some e' := by
  obtain ⟨g, rfl, hwrote⟩ := h.wrote
  exact hwrote.get?_self

theorem Writes.get?_of_ne (h : Writes q id e e' q') (hj : j ≠ id) : q'.entries.get? j = q.entries.get? j := by
  obtain ⟨g, -, hwrote⟩ := h.wrote
  exact hwrote.get?_of_ne hj

theorem Writes.next (h : Writes q id e e' q') : q'.entries.next = q.entries.next := by
  obtain ⟨g, -, hwrote⟩ := h.wrote
  rw [hwrote.entries, next_modify]

theorem Queue.Accounted.writes (hq : q.Accounted) (h : Writes q id e e' q') : q'.Accounted := by
  obtain ⟨g, rfl, hwrote⟩ := h.wrote
  exact hq.wrote hwrote h.follows

/-- What a `Cancel` does that is not turned away. -/
structure Cancels (q : Queue) (id : Nat) (e e' : Entry) (q' : Queue) (releases : List Nat) : Prop where
  writes : Writes q id e e' q'
  active : e'.active = e.active
  open_ : e.status.resultCommitted = false
  requested : e'.status.cancelRequested = true
  left : e'.status.state ≠ .queued
  releases_eq : releases = if e.status.state = .queued ∧ e.releaseAdmission then [id] else []

theorem Entry.discard (e' : Entry) (hidle : e.busy = false) (hbusy : e'.busy = false)
    (howner : e'.request.owner = e.request.owner) (hresult : e'.result = [])
    (hstate : e'.status.state = .cancelled ∨ e'.status.state = .released)
    (hexclusive : e'.status.resultCommitted = true → e'.status.cancelRequested = false) :
    e.Follows e' ∧ e'.charge - e.charge = -e.result.length := by
  have hactive := Entry.active_of_idle hbusy
  have hcharge : e'.charge = 0 := by
    rw [charge_of_not_busy hbusy, hresult]
    rfl
  rw [hcharge, charge_of_not_busy hidle]
  refine ⟨⟨howner, fun hb => ?_, fun hq => ?_, ?_, ?_⟩, by omega⟩
  · rw [hbusy] at hb
    cases hb
  · rw [hq] at hstate
    simp at hstate
  · rw [hcharge]
    exact e.charge_nonneg
  · refine ⟨fun hq => ?_, fun ha => ?_, fun hr => absurd hresult hr, fun hc => ?_, hexclusive⟩
    · rw [hq] at hstate
      simp at hstate
    · rw [hactive] at ha
      cases ha
    · rw [hc] at hstate
      simp at hstate

theorem Entry.Sound.idle_of_completed (h : e.Sound) (hcompleted : e.status.state = .completed) : e.busy = false := by
  rw [← not_eq_true, Entry.busy_iff]
  rintro (hactive | hqueued)
  · rcases (h.active hactive).2 with hstate | hstate | hstate <;> simp [hcompleted] at hstate
  · simp [hcompleted] at hqueued

theorem Entry.Sound.goOn (h : e.Sound) (e' : Entry) (hactive : e.active = true) (hactive' : e'.active = true)
    (hrequest : e'.request = e.request) (hresult : e'.result = e.result) (hended : e'.ended = e.ended)
    (hstate : e'.status.state = .running ∨ e'.status.state = .cancelling ∨ e'.status.state = .cancelled)
    (hexclusive : e'.status.resultCommitted = true → e'.status.cancelRequested = false) :
    e.Follows e' ∧ e'.charge - e.charge = 0 := by
  have hbusy : e.busy = true := Entry.busy_iff.mpr (.inl hactive)
  have hcharge : e'.charge = e.charge := charge_eq_of_busy hbusy (Entry.busy_iff.mpr (.inl hactive')) hrequest
  refine ⟨⟨by rw [hrequest], fun _ => hbusy, fun hq => ?_, hcharge.le, ?_⟩, by omega⟩
  · rw [hq] at hstate
    simp at hstate
  · refine ⟨fun hq => ?_, fun _ => ⟨by rw [hended, (h.active hactive).1], hstate⟩, fun hr => ?_, fun hc => ?_,
      hexclusive⟩
    · rw [hq] at hstate
      simp at hstate
    · exact absurd (hresult.trans (h.result_nil hbusy)) hr
    · rw [hc] at hstate
      simp at hstate

theorem Entry.requestCancel_eq (e : Entry) : ∃ cancelled, e.requestCancel now =
      { e with status := { e.status with cancelRequested := true }, cancelled := cancelled } := by
  unfold Entry.requestCancel
  split_ifs with h
  · exact ⟨e.cancelled, by rw [← h]⟩
  · exact ⟨now, rfl⟩

theorem Queue.cancelEntry_spec (hget : q.entries.get? id = some e) (h : e.Sound) (now : Int) :
    q.cancelEntry id e now = (q, []) ∨ ∃ e', Cancels q id e e' (q.cancelEntry id e now).1
      (q.cancelEntry id e now).2 := by
  unfold Queue.cancelEntry
  by_cases hcommitted : e.status.resultCommitted = true
  · exact .inl (if_pos hcommitted)
  rw [if_neg hcommitted]
  rw [not_eq_true] at hcommitted
  by_cases hcompleted : e.status.state = .completed
  · rw [if_pos hcompleted]
    have hidle := h.idle_of_completed hcompleted
    have hactive := Entry.active_of_idle hidle
    have hdiscard := Entry.discard { e with
      result := []
      status := { e.status with state := .cancelled, cancelRequested := true } } hidle
      (by simp [Entry.busy, hactive]) rfl
      rfl (.inl rfl) (by simp [hcommitted])
    refine .inr ⟨_, ⟨⟨_, rfl, hget, rfl, ?_, rfl, rfl⟩, hdiscard.1, rfl⟩, rfl, hcommitted, rfl, by simp,
      by simp [hcompleted]⟩
    rw [hdiscard.2, Int.sub_eq_add_neg]
  rw [if_neg hcompleted]
  by_cases hbusy : e.busy = true
  · rw [if_pos hbusy]
    by_cases hactive : e.active = true
    · rw [if_pos hactive]
      have hqueued : e.status.state ≠ .queued := by
        intro hqueued
        rw [(h.queued hqueued).1] at hactive
        cases hactive
      obtain ⟨cancelled, hrequest⟩ := e.requestCancel_eq
      have hgoOn : ∀ e', e' = (if (e.requestCancel now).status.state = .cancelled then e.requestCancel now
          else { e.requestCancel now with status := { (e.requestCancel now).status with state := .cancelling } }) →
          (e.Follows e' ∧ e'.charge - e.charge = 0) ∧ e'.active = e.active ∧
            e'.releaseAdmission = e.releaseAdmission ∧ e'.status.cancelRequested = true ∧
              e'.status.state ≠ .queued := by
        intro e' he'
        rw [hrequest] at he'
        split_ifs at he' with hcancelled
        all_goals
          subst he'
          exact ⟨h.goOn _ hactive hactive rfl rfl rfl (by simp_all) (by simp [hcommitted]), rfl, rfl, rfl, by simp_all⟩
      obtain ⟨⟨hfollows, hcharge⟩, hactive', hadmission, hrequested, hleft⟩ := hgoOn _ rfl
      refine .inr ⟨_, ⟨⟨_, rfl, hget, rfl, ?_, rfl, rfl⟩, hfollows, hadmission⟩, hactive', hcommitted, hrequested,
        hleft, by simp [hqueued]⟩
      rw [hcharge, Int.add_zero]
      rfl
    · rw [if_neg hactive]
      have hqueued : e.status.state = .queued := (Entry.busy_iff.mp hbusy).resolve_left hactive
      obtain ⟨cancelled, hrequest⟩ := e.requestCancel_eq
      have hleave := h.leave { e.requestCancel now with
        status := { (e.requestCancel now).status with state := .cancelled }
        ended := now
        request := { (e.requestCancel now).request with body := [] } } hqueued (by rw [hrequest]) (by rw [hrequest])
        (by rw [hrequest]) (by rw [hrequest]) (.inr rfl)
      refine .inr ⟨_, ⟨⟨_, rfl, hget, rfl, ?_, rfl, rfl⟩, hleave.1, ?_⟩, ?_, hcommitted, ?_, by simp,
        by simp [hqueued]⟩
      · rw [hleave.2, Int.sub_eq_add_neg]
      · rw [hrequest]
      · rw [hrequest]
      · rw [hrequest]
  · exact .inl (if_neg hbusy)

theorem Queue.ackEntry_spec (hget : q.entries.get? id = some e) (h : e.Sound) (hidle : e.busy = false) :
    ∃ e', Writes q id e e' (q.ackEntry id e) ∧ e'.active = e.active ∧ e'.status.state = .released ∧
      e'.status.cancelRequested = e.status.cancelRequested ∧ e'.status.resultCommitted = e.status.resultCommitted := by
  have hactive := Entry.active_of_idle hidle
  have hdiscard := Entry.discard { e with result := [], status := { e.status with state := .released } } hidle
    (by simp [Entry.busy, hactive]) rfl rfl (.inr rfl) h.exclusive
  refine ⟨_, ⟨⟨_, rfl, hget, rfl, ?_, rfl, rfl⟩, hdiscard.1, rfl⟩, rfl, rfl, rfl, rfl⟩
  rw [hdiscard.2]
  exact Int.sub_eq_add_neg

theorem Queue.start_spec (hget : q.entries.get? id = some e) (h : e.Sound) (hqueued : e.status.state = .queued) :
    Writes q id e { e with active := true, status := { e.status with state := .running } }
      (q.modify id fun e => { e with active := true, status := { e.status with state := .running } }) := by
  have hbusy : e.busy = true := Entry.busy_iff.mpr (.inr hqueued)
  obtain ⟨-, hended, -, hopen⟩ := h.queued hqueued
  have hcharge : Entry.charge { e with active := true, status := { e.status with state := .running } } = e.charge :=
    charge_eq_of_busy hbusy (by simp [Entry.busy]) rfl
  refine ⟨⟨_, rfl, hget, rfl, ?_, rfl, rfl⟩, ⟨rfl, fun _ => hbusy, fun hq => ?_, hcharge.le, ?_⟩, rfl⟩
  · rw [hcharge, sub_self, Int.add_zero]
    rfl
  · cases hq
  · refine ⟨fun hq => ?_, fun _ => ⟨hended, .inl rfl⟩, fun hr => ?_, fun hc => ?_, fun hc => ?_⟩
    · cases hq
    · exact absurd (h.result_nil hbusy) hr
    · cases hc
    · rw [hopen] at hc
      cases hc

theorem Queue.commit_spec (hget : q.entries.get? id = some e) (h : e.Sound) (hactive : e.active = true)
    (hopen : e.status.cancelRequested = false) :
    Writes q id e { e with status := { e.status with resultCommitted := true } }
      (q.modify id fun e => { e with status := { e.status with resultCommitted := true } }) := by
  have hgoOn := h.goOn { e with status := { e.status with resultCommitted := true } } hactive hactive rfl rfl rfl
    (h.active hactive).2 fun _ => hopen
  refine ⟨⟨_, rfl, hget, rfl, ?_, rfl, rfl⟩, hgoOn.1, rfl⟩
  rw [hgoOn.2, Int.add_zero]
  rfl

theorem Entry.Sound.stop (h : e.Sound) (e' : Entry) (hactive : e.active = true) (hactive' : e'.active = false)
    (howner : e'.request.owner = e.request.owner) (hlength : e'.result.length ≤ maxResultBytes)
    (hstate : e'.status.state = .completed ∨ (e'.status.state = .failed ∨ e'.status.state = .cancelled) ∧
      e'.result = [])
    (hcompleted : e'.status.state = .completed → e.status.cancelRequested = false)
    (hcancel : e'.status.cancelRequested = e.status.cancelRequested)
    (hcommitted : e'.status.resultCommitted = e.status.resultCommitted) :
    e.Follows e' ∧ e'.charge - e.charge = e'.result.length - e.reserve := by
  have hbusy : e.busy = true := Entry.busy_iff.mpr (.inl hactive)
  have hqueued : e'.status.state ≠ .queued := by
    intro hq
    rw [hq] at hstate
    simp at hstate
  have hidle : e'.busy = false := by
    rw [← not_eq_true, Entry.busy_iff, hactive']
    simp [hqueued]
  rw [charge_of_not_busy hidle, charge_of_busy hbusy]
  refine ⟨⟨howner, fun _ => hbusy, fun hq => absurd hq hqueued, ?_, ?_⟩, rfl⟩
  · rw [charge_of_not_busy hidle, charge_of_busy hbusy, Entry.reserve]
    omega
  · refine ⟨fun hq => absurd hq hqueued, fun ha => ?_, fun hr => ?_, fun hc => ?_, fun hc => ?_⟩
    · rw [hactive'] at ha
      cases ha
    · rcases hstate with hstate | hstate
      · exact hstate
      · exact absurd hstate.2 hr
    · rw [hcancel]
      exact hcompleted hc
    · rw [hcancel]
      rw [hcommitted] at hc
      exact h.exclusive hc

/-- What `execute` does to the entry when `Run` has returned. -/
structure Finishes (e e' : Entry) (r : Result) : Prop where
  active : e'.active = false
  left : e'.status.state ≠ .queued
  cancelRequested : e'.status.cancelRequested = e.status.cancelRequested
  resultCommitted : e'.status.resultCommitted = e.status.resultCommitted
  image : e.status.cancelRequested = false → r.ok = true → e'.status.state = .completed ∧ e'.result = r.png

theorem Queue.finishEntry_spec (hget : q.entries.get? id = some e) (h : e.Sound) (hactive : e.active = true)
    (r : Result) (now : Int) : ∃ e', Writes q id e e' (q.finishEntry id e r now) ∧ Finishes e e' r := by
  have hempty : e.result = [] := h.result_nil (Entry.busy_iff.mpr (.inl hactive))
  unfold Queue.finishEntry
  by_cases hcancel : e.status.cancelRequested = true
  · rw [if_pos hcancel]
    have hstop := h.stop { e with
      request := { e.request with body := [] }
      active := false
      ended := now
      status := { e.status with state := .cancelled } } hactive rfl rfl (by simp [hempty]) (.inr ⟨.inr rfl, hempty⟩)
      (by simp) rfl rfl
    refine ⟨_, ⟨⟨_, rfl, hget, rfl, ?_, rfl, rfl⟩, hstop.1, rfl⟩, rfl, by simp, rfl, rfl, by simp [hcancel]⟩
    rw [hstop.2]
    simp only [hempty, length_nil]
    omega
  rw [if_neg hcancel]
  rw [not_eq_true] at hcancel
  by_cases hok : r.ok = true
  · rw [if_pos hok]
    have hlength : r.png.length ≤ maxResultBytes := by
      simp only [Result.ok, decide_eq_true_eq] at hok
      exact hok.2.1
    have hstop := h.stop { e with
      request := { e.request with body := [] }
      active := false
      ended := now
      status := { e.status with state := .completed }
      result := r.png } hactive rfl rfl hlength (.inl rfl) (fun _ => hcancel) rfl rfl
    refine ⟨_, ⟨⟨_, rfl, hget, rfl, ?_, rfl, rfl⟩, hstop.1, rfl⟩, rfl, by simp, rfl, rfl, fun _ _ => ⟨rfl, rfl⟩⟩
    rw [hstop.2]
    show q.bytes - e.reserve + r.png.length = q.bytes + (r.png.length - e.reserve)
    omega
  · rw [if_neg hok]
    have hstop := h.stop { e with
      request := { e.request with body := [] }
      active := false
      ended := now
      status := { e.status with
        state := .failed
        error := if r.error = "" then "studio_generation_failed" else r.error } } hactive rfl rfl (by simp [hempty])
      (.inr ⟨.inl rfl, hempty⟩) (by simp) rfl rfl
    refine ⟨_, ⟨⟨_, rfl, hget, rfl, ?_, rfl, rfl⟩, hstop.1, rfl⟩, rfl, by simp, rfl, rfl, by simp [hok]⟩
    rw [hstop.2]
    simp only [hempty, length_nil]
    omega

@[simp] theorem Queue.cancelEntry_running (q : Queue) (id : Nat) (e : Entry) (now : Int) :
    (q.cancelEntry id e now).1.running = q.running := by
  unfold Queue.cancelEntry
  split_ifs <;> rfl

@[simp] theorem Queue.finishEntry_running (q : Queue) (id : Nat) (e : Entry) (r : Result) (now : Int) :
    (q.finishEntry id e r now).running = q.running := by
  unfold Queue.finishEntry
  split_ifs <;> rfl

/-! ## Submit -/

/-- A job that was submitted before is found; a new one is the last of the queue. -/
structure Queue.Submits (q : Queue) (r : Request) (admission : Admit) (q' : Queue) : Prop where
  entries : ∃ e, q'.entries = q.entries.insert e ∧ e.request = r ∧ e.status.state = .queued ∧ e.Sound ∧
    e.result = [] ∧ e.releaseAdmission = admission.release ∧ q'.bytes = q.bytes + e.reserve
  order : q'.order = q.order ++ [q.entries.next]
  running : q'.running = q.running
  free : ∀ j e, q.entries.get? j = some e → e.request.owner = r.owner → e.busy = false
  room : q.entries.count (fun e => e.status.state = .queued) < 10
  bytes : q'.bytes ≤ maxBytes

variable {r : Request} {admission : Admit}

theorem Queue.submit_spec {sum256 : Bytes → Bytes} {epoch : String}
    (h : q.submit sum256 r epoch now admission = .ok (q', id)) :
    (q' = q ∧ (q.entries.get? id).isSome = true) ∨ (id = q.entries.next ∧ q.Submits r admission q') := by
  obtain ⟨_, -, h⟩ := bind_eq_ok.mp h
  obtain ⟨_, -, h⟩ := bind_eq_ok.mp h
  split at h
  · rename_i id' e hfind
    obtain ⟨_, -, h⟩ := bind_eq_ok.mp h
    cases h
    exact .inl ⟨rfl, by rw [(Table.find?_some hfind).1]; rfl⟩
  · obtain ⟨_, hfree, h⟩ := bind_eq_ok.mp h
    obtain ⟨_, hroom, h⟩ := bind_eq_ok.mp h
    rw [ensure_eq_ok] at hfree hroom
    have hfree' : ∀ j e, q.entries.get? j = some e → e.request.owner = r.owner → e.busy = false := by
      intro j e he howner
      rw [not_eq_true, any_eq_false_iff] at hfree
      simpa [howner] using hfree j e he
    split at h
    · cases h
    all_goals
      cases h
      refine .inr ⟨rfl, ⟨⟨_, rfl, rfl, rfl, ?_, rfl, rfl, rfl⟩, rfl, rfl, hfree', hroom.1, ?_⟩⟩
      · exact ⟨fun _ => ⟨rfl, rfl, rfl, rfl⟩, by simp, by simp, by simp, by simp⟩
      · show q.bytes + (r.body.length + maxResultBytes : Int) ≤ maxBytes
        omega

theorem Queue.Accounted.submits (hq : q.Accounted) (h : q.Submits r admission q') : q'.Accounted := by
  obtain ⟨e, hentries, rfl, hqueued, hsound, _, -, hbytes⟩ := h.entries
  have hbusy : e.busy = true := Entry.busy_iff.mpr (.inr hqueued)
  have hlt : ∀ j, j ∈ q.order → j < q.entries.next := by
    intro j hj
    obtain ⟨_, hold⟩ := isSome_iff_exists.mp ((hq.mem_order j).mp hj)
    exact lt_next_of_get? hold
  refine ⟨?_, fun j => ?_, ?_, h.bytes, ?_, fun i j a b hi hj hbi hbj howner => ?_, fun j a ha => ?_⟩
  · rw [h.order, pairwise_append]
    refine ⟨hq.sorted, by simp, fun a ha b hb => ?_⟩
    rw [mem_singleton.mp hb]
    exact hlt a ha
  · rw [h.order, hentries, Table.get?_insert, mem_append, mem_singleton, hq.mem_order]
    split_ifs with hj
    · simp [hj]
    · simp [hj]
  · rw [hbytes, hentries, sum_insert, hq.bytes_eq, charge_of_busy hbusy]
  · have hroom := h.room
    rw [hentries, count_insert]
    split_ifs <;> omega
  · rw [hentries, Table.get?_insert] at hi hj
    split_ifs at hi hj with hinew hjnew hjnew
    · rw [hinew, hjnew]
    · cases hi
      rw [h.free j b hj howner.symm] at hbj
      cases hbj
    · cases hj
      rw [h.free i a hi howner] at hbi
      cases hbi
    · exact hq.one_busy i j a b hi hj hbi hbj howner
  · rw [hentries, Table.get?_insert] at ha
    split_ifs at ha
    · cases ha
      exact hsound
    · exact hq.sound j a ha

end CubeRouter.Studio
