import CubeRouter.Billing.Movements
import Mathlib.Data.Fin.VecNotation
import Mathlib.Tactic.Positivity
import Mathlib.Tactic.Ring

/-!
# Refunding a subscription under failures

`RefundSubscriptionPreConsume` is a transaction that locks the record of a pre-consumption, calls
`PostConsumeUserSubscriptionDelta`, which commits a transaction of its own, and then saves the record as
refunded. When the save fails, the outer transaction is rolled back and the inner one is not, so an
attempt that `refundWithRetry` makes afterwards finds the record as it was and takes the amount off the
subscription again. `refundedOnce_iff` says for which failures this does not show.
-/

namespace CubeRouter.Billing

open Relational CubeRouter.Ledger Transition

/-! ## The refund with its failures -/

/-- The steps of an attempt that can fail: the locked read of the record, the transaction of
`PostConsumeUserSubscriptionDelta`, the save of the record. -/
inductive RefundStep
  | lock
  | delta
  | save
  deriving DecidableEq

inductive RefundError
  | failed (step : RefundStep)
  | refused (error : BillingError)

/-- `RefundSubscriptionPreConsume` when the step `failing` fails, if the attempt comes to it, with the
database it leaves. -/
def refundSubscriptionPreConsumeFailing (failing : Option RefundStep) (w : World) (requestId : String) :
    Except RefundError Unit × World :=
  if trimSpace requestId = "" then
    (.error (.refused .requestIdEmpty), w)
  else if failing = some .lock then
    (.error (.failed .lock), w)
  else
    match findPreConsumeRecord w requestId with
    | none => (.error (.refused .recordNotFound), w)
    | some (recordId, record) =>
      if record.status = .refunded then
        (.ok (), w)
      else if record.preConsumed ≤ 0 then
        if failing = some .save then (.error (.failed .save), w) else (.ok (), w.markRefunded recordId)
      else if failing = some .delta then
        (.error (.failed .delta), w)
      else
        match postConsumeUserSubscriptionDelta w record.userSubscriptionId (-record.preConsumed) with
        | .error e => (.error (.refused e), w)
        | .ok w =>
          -- the delta has been committed by now
          if failing = some .save then (.error (.failed .save), w) else (.ok (), w.markRefunded recordId)

/-- The loop of `refundWithRetry` over the failures of its attempts. -/
def refundWithRetryFailing (attempt : Option RefundStep → World → Except RefundError Unit × World) :
    List (Option RefundStep) → World → Except RefundError Unit × World
  | [], w => (.ok (), w)
  | [failing], w => attempt failing w
  | failing :: next :: rest, w =>
    match attempt failing w with
    | (.ok _, w) => (.ok (), w)
    | (.error _, w) => refundWithRetryFailing attempt (next :: rest) w

/-- What fails in each of the three attempts of a call. -/
abbrev RefundFailures := Fin 3 → Option RefundStep

/-- A call of `refundWithRetry` with `RefundSubscriptionPreConsume`. -/
def refundCall (requestId : String) (w : World) (failures : RefundFailures) : World :=
  (refundWithRetryFailing (fun failing w => refundSubscriptionPreConsumeFailing failing w requestId)
    (List.ofFn failures) w).2

/-! ## What a refund should do -/

/-- The counter after one refund of `preConsumed`; a delta stops at `0`. -/
def refundOnce (preConsumed used : Int) : Int :=
  if preConsumed ≤ 0 then used else if used + -preConsumed < 0 then 0 else used + -preConsumed

/-- From `w` to `w'` the amount of the record has been taken off its subscription at most once, and once if
the record is marked refunded. -/
structure RefundedOnce (requestId : String) (record : SubscriptionPreConsumeRecord) (w w' : World) :
    Prop where
  atMostOnce : w'.amountUsed record.userSubscriptionId = w.amountUsed record.userSubscriptionId ∨
    w'.amountUsed record.userSubscriptionId =
      refundOnce record.preConsumed (w.amountUsed record.userSubscriptionId)
  whenRefunded : ∀ i r, findPreConsumeRecord w' requestId = some (i, r) → r.status = .refunded →
    w'.amountUsed record.userSubscriptionId =
      refundOnce record.preConsumed (w.amountUsed record.userSubscriptionId)

/-- How often a list of attempts takes the amount: each save that fails, until an attempt succeeds. -/
def taken : List (Option RefundStep) → Nat
  | [] => 0
  | none :: _ => 1
  | some .save :: rest => taken rest + 1
  | some _ :: rest => taken rest

/-- After a save that failed, no attempt gets as far as committing its delta. -/
def SaveFailsLast : List (Option RefundStep) → Prop
  | [] => True
  | none :: _ => True
  | some .save :: rest => ∀ failing ∈ rest, failing = some .lock ∨ failing = some .delta
  | some _ :: rest => SaveFailsLast rest

variable {l : List (Option RefundStep)}

theorem taken_eq_zero_iff : taken l = 0 ↔ ∀ failing ∈ l, failing = some .lock ∨ failing = some .delta := by
  induction l with
  | nil => simp [taken]
  | cons failing l ih =>
    rcases failing with _ | _ | _ | _ <;> simp [taken, ih]

theorem taken_le_one_iff : taken l ≤ 1 ↔ SaveFailsLast l := by
  induction l with
  | nil => simp [taken, SaveFailsLast]
  | cons failing l ih =>
    rcases failing with _ | _ | _ | _
    · simp [taken, SaveFailsLast]
    · simpa [taken, SaveFailsLast] using ih
    · simpa [taken, SaveFailsLast] using ih
    · rw [SaveFailsLast, ← taken_eq_zero_iff, taken]
      omega

theorem taken_append_le {l' : List (Option RefundStep)} : taken l ≤ taken (l ++ l') := by
  induction l with
  | nil => simp [taken]
  | cons failing l ih =>
    rcases failing with _ | _ | _ | _
    · simp [taken]
    · simpa [taken] using ih
    · simpa [taken] using ih
    · simp only [List.cons_append, taken]
      omega

theorem one_le_taken (h : none ∈ l) : 1 ≤ taken l := by
  by_contra hlt
  have hnone := taken_eq_zero_iff.mp (by omega) none h
  simp at hnone

/-! ## Counting the refunds -/

variable {p u : Int}

theorem refundOnce_pos (hp : 0 < p) : refundOnce p u = max 0 (u - p) := by
  rw [refundOnce, if_neg (by omega)]
  split_ifs <;> omega

theorem iterate_refundOnce (hp : 0 < p) (k : Nat) : (refundOnce p)^[k + 1] u = max 0 (u - (k + 1) * p) := by
  induction k generalizing u with
  | zero => simp [refundOnce_pos hp]
  | succ k ih =>
    have hkp : 0 ≤ (k : Int) * p := by positivity
    have hone : ((k : Int) + 1) * p = k * p + p := by ring
    have htwo : (((k + 1 : Nat) : Int) + 1) * p = k * p + p + p := by
      push_cast
      ring
    rw [Function.iterate_succ_apply, ih, refundOnce_pos hp, hone, htwo]
    omega

variable {k : Nat} {w0 : World} {calls : List RefundFailures}

/-- A second refund shows exactly when the first leaves something to take. -/
theorem iterate_refundOnce_eq_iff (hp : 0 < p) : (refundOnce p)^[k + 1] u = refundOnce p u ↔ u ≤ p ∨ k = 0 := by
  rw [iterate_refundOnce hp, refundOnce_pos hp]
  rcases Nat.eq_zero_or_pos k with rfl | hk
  · simp
  · have hkp : p ≤ (k : Int) * p := le_mul_of_one_le_left hp.le (by exact_mod_cast hk)
    have hexpand : ((k : Int) + 1) * p = k * p + p := by ring
    omega

theorem le_of_iterate_refundOnce_eq (hp : 0 < p) (h : (refundOnce p)^[k + 1] u = u) : u ≤ p := by
  have hkp : 0 ≤ (k : Int) * p := by positivity
  have hexpand : ((k : Int) + 1) * p = k * p + p := by ring
  rw [iterate_refundOnce hp, hexpand] at h
  omega

/-! ## The record and its subscription during the attempts -/

/-- The record as it was, with the given status, and the counter of its subscription. -/
structure RefundState (requestId : String) (i : Nat) (record : SubscriptionPreConsumeRecord) (refunded : Bool)
    (used : Int) (w : World) : Prop where
  found : findPreConsumeRecord w requestId =
    some (i, { record with status := if refunded then .refunded else .consumed })
  row : (w.subscriptions.get? record.userSubscriptionId).isSome
  used : w.amountUsed record.userSubscriptionId = used

/-- What an attempt does to the counter and to the mark. -/
def attemptOn (preConsumed : Int) (x : Bool × Int) (failing : Option RefundStep) : Bool × Int :=
  if x.1 then x
  else
    match failing with
    | none => (true, refundOnce preConsumed x.2)
    | some .save => (false, refundOnce preConsumed x.2)
    | some _ => x

theorem postConsumeUserSubscriptionDelta_refund {w : World} {id : Nat} (hp : 0 < p)
    (hrow : (w.subscriptions.get? id).isSome) : ∃ w', postConsumeUserSubscriptionDelta w id (-p) = .ok w' ∧
      w'.amountUsed id = refundOnce p (w.amountUsed id) ∧ (w'.subscriptions.get? id).isSome ∧
      w'.preConsumeRecords = w.preConsumeRecords := by
  obtain ⟨sub, hsub⟩ := Option.isSome_iff_exists.mp hrow
  have hid : id ≠ 0 := (Table.pos_of_get? hsub).ne'
  have hused : w.amountUsed id = sub.amountUsed := by
    rw [World.amountUsed, hsub]
    rfl
  unfold postConsumeUserSubscriptionDelta
  rw [if_neg hid, if_neg (by omega), hsub]
  refine ⟨_, rfl, ?_, ?_, rfl⟩
  · rw [hused, refundOnce, if_neg (show ¬p ≤ 0 by omega)]
    simp [World.amountUsed, hsub]
  · simp [hsub]

theorem findPreConsumeRecord_markRefunded {w : World} {requestId : String} {i : Nat}
    {record : SubscriptionPreConsumeRecord} (h : findPreConsumeRecord w requestId = some (i, record)) :
    findPreConsumeRecord (w.markRefunded i) requestId = some (i, { record with status := .refunded }) := by
  have hsame (r : SubscriptionPreConsumeRecord) :
      ({ r with status := .refunded : SubscriptionPreConsumeRecord }.requestId == requestId) =
        (r.requestId == requestId) := rfl
  exact Table.find?_modify hsame h

variable {requestId : String} {i : Nat} {record : SubscriptionPreConsumeRecord} {refunded : Bool} {w : World}

theorem RefundState.attempt (h : RefundState requestId i record refunded u w)
    (hid : trimSpace requestId ≠ "") (hp : 0 < record.preConsumed) (failing : Option RefundStep) :
    RefundState requestId i record (attemptOn record.preConsumed (refunded, u) failing).1
        (attemptOn record.preConsumed (refunded, u) failing).2
        (refundSubscriptionPreConsumeFailing failing w requestId).2 ∧
      ((refundSubscriptionPreConsumeFailing failing w requestId).1 = .ok () →
        (attemptOn record.preConsumed (refunded, u) failing).1 = true) := by
  obtain ⟨w', hdelta, hused, hrow, hrecords⟩ := postConsumeUserSubscriptionDelta_refund hp h.row
  rw [h.used] at hused
  have hfound : findPreConsumeRecord w' requestId = findPreConsumeRecord w requestId := by
    rw [findPreConsumeRecord, hrecords, findPreConsumeRecord]
  have hpos : ¬record.preConsumed ≤ 0 := by omega
  unfold refundSubscriptionPreConsumeFailing
  rw [if_neg hid]
  cases refunded with
  | true =>
    rcases failing with _ | _ | _ | _ <;> simp [attemptOn, h.found, h]
  | false =>
    have hold := h.found
    rcases failing with _ | _ | _ | _
    · simp only [h.found, attemptOn, hpos, hdelta, Bool.false_eq_true, if_false]
      refine ⟨⟨?_, hrow, hused⟩, fun _ => trivial⟩
      have hmarked := findPreConsumeRecord_markRefunded (hfound.trans hold)
      exact hmarked
    · simp [attemptOn, h]
    · simp [h.found, attemptOn, hpos, h]
    · simp only [h.found, hpos, hdelta]
      refine ⟨⟨hfound.trans hold, hrow, hused⟩, fun hok => ?_⟩
      cases hok

theorem foldl_attemptOn_refunded (l : List (Option RefundStep)) : l.foldl (attemptOn p) (true, u) = (true, u) := by
  induction l with
  | nil => rfl
  | cons _ l ih => simpa [attemptOn] using ih

theorem foldl_attemptOn (l : List (Option RefundStep)) :
    l.foldl (attemptOn p) (false, u) = (decide (none ∈ l), (refundOnce p)^[taken l] u) := by
  induction l generalizing u with
  | nil => simp [taken]
  | cons failing l ih =>
    rcases failing with _ | _ | _ | _
    · simp [attemptOn, taken, foldl_attemptOn_refunded]
    · simpa [attemptOn, taken] using ih
    · simpa [attemptOn, taken] using ih
    · simpa [attemptOn, taken] using ih

/-- The attempts that `refundWithRetry` leaves out after a success would change nothing, so that a call
does what all its attempts do one after the other. -/
theorem RefundState.retry (h : RefundState requestId i record refunded u w)
    (hid : trimSpace requestId ≠ "") (hp : 0 < record.preConsumed) (l : List (Option RefundStep)) :
    RefundState requestId i record (l.foldl (attemptOn record.preConsumed) (refunded, u)).1
      (l.foldl (attemptOn record.preConsumed) (refunded, u)).2
      (refundWithRetryFailing (fun failing w => refundSubscriptionPreConsumeFailing failing w requestId) l w).2 := by
  induction l generalizing refunded u w with
  | nil => exact h
  | cons failing l ih =>
    obtain ⟨hstate, hok⟩ := h.attempt hid hp failing
    rw [List.foldl_cons]
    generalize hx : attemptOn record.preConsumed (refunded, u) failing = x at hstate hok
    generalize hr : refundSubscriptionPreConsumeFailing failing w requestId = r at hstate hok
    obtain ⟨refunded', _⟩ := x
    obtain ⟨result, _⟩ := r
    cases l with
    | nil =>
      rw [refundWithRetryFailing, hr]
      exact hstate
    | cons =>
      cases result with
      | ok =>
        obtain rfl : refunded' = true := hok rfl
        simp only [refundWithRetryFailing, hr]
        rw [foldl_attemptOn_refunded]
        exact hstate
      | error =>
        simp only [refundWithRetryFailing, hr]
        exact ih hstate

def refundAttempts (calls : List RefundFailures) : List (Option RefundStep) := calls.flatMap List.ofFn

theorem RefundState.over_run (h : RefundState requestId i record refunded u w)
    (hid : trimSpace requestId ≠ "") (hp : 0 < record.preConsumed) (calls : List RefundFailures) :
    RefundState requestId i record ((refundAttempts calls).foldl (attemptOn record.preConsumed) (refunded, u)).1
      ((refundAttempts calls).foldl (attemptOn record.preConsumed) (refunded, u)).2
      (run (refundCall requestId) w calls) := by
  induction calls generalizing refunded u w with
  | nil => exact h
  | cons failures _ ih =>
    exact ih (h.retry hid hp (List.ofFn failures))

/-- After any calls, the counter has been refunded as often as the attempts count. -/
theorem RefundState.counted (h : RefundState requestId i record false u w)
    (hid : trimSpace requestId ≠ "") (hp : 0 < record.preConsumed) (calls : List RefundFailures) :
    RefundState requestId i record (decide (none ∈ refundAttempts calls))
      ((refundOnce record.preConsumed)^[taken (refundAttempts calls)] u) (run (refundCall requestId) w calls) := by
  have hrun := h.over_run hid hp calls
  rwa [foldl_attemptOn] at hrun

/-! ## Refunds that do not reach a counter -/

/-- A record without an amount, or without its subscription. -/
structure Unpaid (requestId : String) (i : Nat) (record : SubscriptionPreConsumeRecord) (w w' : World) :
    Prop where
  found : ∃ status, findPreConsumeRecord w' requestId = some (i, { record with status })
  nothing : record.preConsumed ≤ 0 ∨ w'.subscriptions.get? record.userSubscriptionId = none
  used : w'.amountUsed record.userSubscriptionId = w.amountUsed record.userSubscriptionId

theorem Unpaid.attempt (h : Unpaid requestId i record w0 w) (failing : Option RefundStep) :
    Unpaid requestId i record w0 (refundSubscriptionPreConsumeFailing failing w requestId).2 := by
  obtain ⟨_, hfound⟩ := h.found
  have hmarked : Unpaid requestId i record w0 (w.markRefunded i) := by
    have hfound' := findPreConsumeRecord_markRefunded hfound
    exact ⟨⟨.refunded, hfound'⟩, h.nothing, h.used⟩
  unfold refundSubscriptionPreConsumeFailing
  by_cases hid : trimSpace requestId = ""
  · rw [if_pos hid]
    exact h
  by_cases hlock : failing = some .lock
  · rw [if_neg hid, if_pos hlock]
    exact h
  simp only [hfound]
  by_cases hzero : record.preConsumed ≤ 0
  · split_ifs
    · exact h
    · exact h
    · exact hmarked
  · -- the delta finds no row
    have herror : ∃ e, postConsumeUserSubscriptionDelta w record.userSubscriptionId
        (-record.preConsumed) = .error e := by
      unfold postConsumeUserSubscriptionDelta
      rw [h.nothing.resolve_left hzero, if_neg (show ¬-record.preConsumed = 0 by omega)]
      split_ifs
      · exact ⟨_, rfl⟩
      · exact ⟨_, rfl⟩
    obtain ⟨e, he⟩ := herror
    rw [he]
    split_ifs <;> exact h

theorem refundWithRetryFailing_invariant {I : World → Prop}
    {attempt : Option RefundStep → World → Except RefundError Unit × World}
    (hattempt : ∀ failing w, I w → I (attempt failing w).2) (hw : I w) :
    I (refundWithRetryFailing attempt l w).2 := by
  induction l generalizing w with
  | nil => exact hw
  | cons failing l ih =>
    have hnext := hattempt failing w hw
    cases l with
    | nil => exact hnext
    | cons =>
      generalize hr : attempt failing w = r at hnext
      obtain ⟨result, _⟩ := r
      cases result with
      | ok =>
        simp only [refundWithRetryFailing, hr]
        exact hnext
      | error =>
        simp only [refundWithRetryFailing, hr]
        exact ih hnext

theorem Unpaid.over_run (h : Unpaid requestId i record w0 w) (calls : List RefundFailures) :
    Unpaid requestId i record w0 (run (refundCall requestId) w calls) := by
  refine run_invariant' (fun w' failures h' => ?_) h calls
  exact refundWithRetryFailing_invariant (fun failing w h => h.attempt failing) h'

theorem Unpaid.refundedOnce (h : Unpaid requestId i record w w) (calls : List RefundFailures) :
    RefundedOnce requestId record w (run (refundCall requestId) w calls) := by
  have hused := (h.over_run calls).used
  have honce : refundOnce record.preConsumed (w.amountUsed record.userSubscriptionId) =
      w.amountUsed record.userSubscriptionId := by
    rw [refundOnce]
    split_ifs with hle hlow
    · rfl
    all_goals
      have hzero : w.amountUsed record.userSubscriptionId = 0 := by
        rw [World.amountUsed, h.nothing.resolve_left hle]
        rfl
      omega
  exact ⟨.inl hused, fun _ _ _ _ => by rw [hused, honce]⟩

theorem Unpaid.le_preConsumed (h : Unpaid requestId i record w w) :
    record.preConsumed ≤ 0 ∨ w.amountUsed record.userSubscriptionId ≤ record.preConsumed := by
  by_cases hle : record.preConsumed ≤ 0
  · exact .inl hle
  · have hzero : w.amountUsed record.userSubscriptionId = 0 := by
      rw [World.amountUsed, h.nothing.resolve_left hle]
      rfl
    omega

/-! ## Once, and only once -/

theorem RefundState.refundedOnce (h : RefundState requestId i record false u w)
    (hid : trimSpace requestId ≠ "") (hp : 0 < record.preConsumed)
    (hcalls : u ≤ record.preConsumed ∨ taken (refundAttempts calls) ≤ 1) :
    RefundedOnce requestId record w (run (refundCall requestId) w calls) := by
  have hcounted := h.counted hid hp calls
  have honce (hk : taken (refundAttempts calls) ≠ 0) :
      (run (refundCall requestId) w calls).amountUsed record.userSubscriptionId =
        refundOnce record.preConsumed (w.amountUsed record.userSubscriptionId) := by
    obtain ⟨k, hk'⟩ := Nat.exists_eq_succ_of_ne_zero hk
    rw [hcounted.used, hk', h.used]
    refine (iterate_refundOnce_eq_iff hp).mpr ?_
    omega
  refine ⟨?_, fun j r hfound hrefunded => honce ?_⟩
  · by_cases hk : taken (refundAttempts calls) = 0
    · left
      rw [hcounted.used, hk, h.used]
      rfl
    · exact .inr (honce hk)
  · rw [hcounted.found] at hfound
    obtain ⟨rfl, rfl⟩ := Prod.mk.inj (Option.some.inj hfound)
    have hnone : none ∈ refundAttempts calls := by
      by_contra hmem
      simp [hmem] at hrefunded
    have hone := one_le_taken hnone
    omega

theorem RefundState.taken_le_one (h : RefundState requestId i record false u w)
    (hid : trimSpace requestId ≠ "") (hp : 0 < record.preConsumed)
    (honce : RefundedOnce requestId record w (run (refundCall requestId) w calls)) :
    u ≤ record.preConsumed ∨ taken (refundAttempts calls) ≤ 1 := by
  have hmost := honce.atMostOnce
  rw [(h.counted hid hp calls).used, h.used] at hmost
  cases hk : taken (refundAttempts calls) with
  | zero => omega
  | succ k =>
    rw [hk] at hmost
    rcases hmost with hsame | hone
    · exact .inl (le_of_iterate_refundOnce_eq hp hsame)
    · rcases (iterate_refundOnce_eq_iff hp).mp hone with hle | rfl
      · exact .inl hle
      · omega

/-- **A refund takes the amount of its record at most once, and once when the record is marked, exactly
when no attempt commits its delta after a save that failed**, or when a second refund would not show: the
record has no amount, or the subscription has no more used than the amount. -/
theorem refundedOnce_iff (w : World) (requestId : String) (i : Nat) (record : SubscriptionPreConsumeRecord)
    (calls : List RefundFailures) (hid : trimSpace requestId ≠ "")
    (hrecord : findPreConsumeRecord w requestId = some (i, record)) (hconsumed : record.status = .consumed) :
    (∀ done rest, calls = done ++ rest → RefundedOnce requestId record w (run (refundCall requestId) w done)) ↔
    (record.preConsumed ≤ 0 ∨ w.amountUsed record.userSubscriptionId ≤ record.preConsumed ∨
      SaveFailsLast (refundAttempts calls)) := by
  have hsame : { record with status := PreConsumeStatus.consumed } = record := by rw [← hconsumed]
  rw [← taken_le_one_iff]
  by_cases hnothing : record.preConsumed ≤ 0 ∨ w.subscriptions.get? record.userSubscriptionId = none
  · have hunpaid : Unpaid requestId i record w w :=
      ⟨⟨.consumed, by rw [hsame]; exact hrecord⟩, hnothing, rfl⟩
    constructor
    · intro _
      exact hunpaid.le_preConsumed.imp_right .inl
    · intro _ done _ _
      exact hunpaid.refundedOnce done
  · obtain ⟨hp, hrow⟩ := not_or.mp hnothing
    rw [not_le] at hp
    have hstart : RefundState requestId i record false (w.amountUsed record.userSubscriptionId) w :=
      ⟨by rw [hrecord]; simp [hsame], Option.isSome_iff_ne_none.mpr hrow, rfl⟩
    constructor
    · intro h
      exact .inr (hstart.taken_le_one hid hp (h calls [] (by simp)))
    · intro h done rest hsplit
      have hle : taken (refundAttempts done) ≤ taken (refundAttempts calls) := by
        rw [hsplit, refundAttempts, refundAttempts, List.flatMap_append]
        exact taken_append_le
      exact hstart.refundedOnce hid hp (by omega)

def refundWorld : World :=
  { subscriptions := Table.empty.insert { userId := 1, amountTotal := 500, amountUsed := 100 }
    preConsumeRecords := Table.empty.insert
      { requestId := "req-1", userId := 1, userSubscriptionId := 1, preConsumed := 30 } }

def refundRecord : SubscriptionPreConsumeRecord :=
  { requestId := "req-1", userId := 1, userSubscriptionId := 1, preConsumed := 30 }

/-- The lock times out, then the delta fails, then the refund succeeds; a later call changes nothing. -/
def failuresBeforeSave : List RefundFailures := [![some .lock, some .delta, none], ![none, none, none]]

theorem refundedOnce_sample :
    RefundedOnce "req-1" refundRecord refundWorld (run (refundCall "req-1") refundWorld failuresBeforeSave) :=
  (refundedOnce_iff refundWorld "req-1" 1 refundRecord failuresBeforeSave (by decide +kernel)
    (by decide +kernel) rfl).mpr (.inr (.inr (by simp [failuresBeforeSave, refundAttempts, SaveFailsLast])))
    failuresBeforeSave [] (by simp)

/-- The first attempt commits its delta and cannot save the record, the second succeeds: the 30 have been
taken off twice, from 100 to 40. -/
theorem failed_save_refunds_twice : findPreConsumeRecord refundWorld "req-1" = some (1, refundRecord) ∧
    refundRecord.status = .consumed ∧ refundWorld.amountUsed 1 = 100 ∧ refundOnce 30 100 = 70 ∧
    (run (refundCall "req-1") refundWorld [![some .save, none, none]]).amountUsed 1 = 40 ∧
    ¬RefundedOnce "req-1" refundRecord refundWorld
      (run (refundCall "req-1") refundWorld [![some .save, none, none]]) := by
  have htwice : (run (refundCall "req-1") refundWorld [![some .save, none, none]]).amountUsed 1 = 40 := by
    decide +kernel
  refine ⟨by decide +kernel, rfl, by decide +kernel, by decide +kernel, htwice, fun h => ?_⟩
  have hused : refundWorld.amountUsed 1 = 100 := by decide +kernel
  rcases h.atMostOnce with hsame | honce
  · have hsame' : (run (refundCall "req-1") refundWorld [![some .save, none, none]]).amountUsed 1 =
        refundWorld.amountUsed 1 := hsame
    omega
  · have honce' : (run (refundCall "req-1") refundWorld [![some .save, none, none]]).amountUsed 1 =
        refundOnce 30 (refundWorld.amountUsed 1) := honce
    revert honce'
    decide

end CubeRouter.Billing
