import CubeRouter.Payment.Redemption
import CubeRouter.Lib.Pool

/-!
# A redemption code pays out once

A payout moves the status of a code from `enabled` to `used` in the statement that looks at it, so two payouts
exclude each other. An administrator's edit does not take part in this: it reads the row, and later writes the
status it has read. A code that is redeemed in between is enabled again by the write.

`edits` are the rows that were read for an edit and not yet written.
-/

namespace CubeRouter.Payment

open Relational Transition

/-- The row of code `id` as it is about to be written. -/
structure PendingEdit where
  id : Nat
  copy : Redemption

structure Codes extends Store where
  edits : List PendingEdit := []

inductive CodeEvent
  | redeem (now : Int) (key : String) (userId : Nat)
  | dispatchRedemptionToUser (now : Int) (campaignId ownerAdminId userId : Nat)
  | readEdit (now : Int) (req : RedemptionRequest)
  | writeEdit (i : Nat)

/-- The first half of `UpdateRedemption`. -/
def readEdit (now : Int) (req : RedemptionRequest) (s : Codes) : Except RedemptionError PendingEdit := do
  let cleanRedemption ← getRedemptionById s.toStore req.id
  let copy ← req.edit now cleanRedemption
  .ok ⟨req.id, copy⟩

def Codes.step (s : Codes) : CodeEvent → Codes
  | .redeem now key userId => { s with toStore := commit (Payment.redeem now key userId) s.toStore }
  | .dispatchRedemptionToUser now campaignId ownerAdminId userId =>
    { s with toStore := commit (Payment.dispatchRedemptionToUser now campaignId ownerAdminId userId) s.toStore }
  | .readEdit now req =>
    match Payment.readEdit now req s with
    | .error _ => s
    | .ok edit => { s with edits := s.edits ++ [edit] }
  | .writeEdit i =>
    match s.edits[i]? with
    | none => s
    | some edit =>
      { s with
        toStore := commit (updateRedemption edit.id edit.copy) s.toStore
        edits := s.edits.eraseIdx i }

/-- The request asks for no status. -/
def CodeEvent.KeepsStatus : CodeEvent → Prop
  | .readEdit _ req => req.statusOnly = false
  | _ => True

instance : DecidablePred CodeEvent.KeepsStatus
  | .readEdit _ req => inferInstanceAs (Decidable (req.statusOnly = false))
  | .redeem _ _ _ => .isTrue trivial
  | .dispatchRedemptionToUser _ _ _ _ => .isTrue trivial
  | .writeEdit _ => .isTrue trivial

/-- A write does not bring the old status of a code that was used after it was read. -/
def CodeEvent.Fresh (s : Codes) : CodeEvent → Prop
  | .writeEdit i => ∀ edit code, s.edits[i]? = some edit → s.redemptions.get? edit.id = some code →
      code.status = .used → edit.copy.status = .used
  | _ => True

def payoutsOf (id : Nat) (s : Codes) : Nat := s.payouts.countP fun p => p.codeId = id

def UsedCode (id : Nat) (s : Codes) : Prop := ∃ code, s.redemptions.get? id = some code ∧ code.status = .used

/-! ## What a step does -/

variable {s s' : Codes} {id : Nat} {e : CodeEvent}

inductive CodeEffect (s s' : Codes) : Prop
  | kept : s'.redemptions = s.redemptions → s'.payouts = s.payouts → CodeEffect s s'
  | paid {id userId : Nat} {code : Redemption} {now : Int} : PaidOut s.toStore s'.toStore id userId code now →
      CodeEffect s s'
  | written {edit : PendingEdit} : (∀ code, s.redemptions.get? edit.id = some code → code.status = .used →
      edit.copy.status = .used) → s'.redemptions = s.redemptions.modify edit.id (fun r => r.written edit.copy) →
      s'.payouts = s.payouts → CodeEffect s s'

theorem step_effect (hfresh : e.Fresh s) : CodeEffect s (s.step e) := by
  cases e with
  | redeem =>
    simp only [Codes.step, commit]
    split
    · rename_i r hr
      obtain ⟨id, code, hpaid, -⟩ := redeem_ok hr
      exact .paid hpaid
    · exact .kept rfl rfl
  | dispatchRedemptionToUser =>
    simp only [Codes.step, commit]
    split
    · rename_i r hr
      rcases dispatchRedemptionToUser_ok hr with ⟨-, hsame, -⟩ | ⟨_, code, -, hpaid, -⟩
      · exact .kept (by rw [hsame]) (by rw [hsame])
      · exact .paid hpaid
    · exact .kept rfl rfl
  | readEdit =>
    simp only [Codes.step]
    split <;> exact .kept rfl rfl
  | writeEdit =>
    simp only [Codes.step]
    split
    · exact .kept rfl rfl
    · rename_i edit hedit
      unfold commit
      split
      · rename_i r hr
        have hstore := updateRedemption_ok hr
        refine .written (fun code hget => hfresh edit code hedit hget) ?_ ?_
        · rw [hstore]
        · rw [hstore]
      · exact .kept rfl rfl

theorem UsedCode.of_effect (h : UsedCode id s) (heffect : CodeEffect s s') : UsedCode id s' := by
  obtain ⟨code, hget, hused⟩ := h
  cases heffect with
  | kept hcodes => exact ⟨code, hcodes ▸ hget, hused⟩
  | @paid id' userId _ now hpaid =>
    refine ⟨if id = id' then code.markUsed now userId else code, ?_, ?_⟩
    · rw [hpaid.codes, Table.get?_modify]
      rw [hget]
      split_ifs <;> rfl
    · split_ifs
      · rfl
      · exact hused
  | @written edit hstatus hcodes _ =>
    refine ⟨if id = edit.id then code.written edit.copy else code, ?_, ?_⟩
    · rw [hcodes, Table.get?_modify]
      rw [hget]
      split_ifs <;> rfl
    · split_ifs with hid
      · subst hid
        exact hstatus code hget hused
      · exact hused

/-- Paid out once and used, or not paid out. -/
def PaidAtMostOnce (id : Nat) (s : Codes) : Prop := payoutsOf id s = 0 ∨ payoutsOf id s = 1 ∧ UsedCode id s

theorem PaidAtMostOnce.of_effect (h : PaidAtMostOnce id s) (heffect : CodeEffect s s') : PaidAtMostOnce id s' := by
  have hused : UsedCode id s → UsedCode id s' := fun h => h.of_effect heffect
  have hkept : payoutsOf id s' = payoutsOf id s → PaidAtMostOnce id s' := by
    intro hsame
    unfold PaidAtMostOnce
    rw [hsame]
    exact h.imp_right fun ⟨hone, hcode⟩ => ⟨hone, hused hcode⟩
  cases heffect with
  | kept _ hpayouts | written _ _ hpayouts => exact hkept (by rw [payoutsOf, hpayouts]; rfl)
  | @paid id' userId code now hpaid =>
    have hcount : payoutsOf id s' = payoutsOf id s + if id' = id then 1 else 0 := by
      rw [payoutsOf, hpaid.payouts, List.countP_cons]
      simp [payoutsOf]
    by_cases hid : id' = id
    · subst hid
      rw [if_pos rfl] at hcount
      -- the code was enabled just before, so it had not been paid out
      have hnone : payoutsOf id' s = 0 := by
        rcases h with hnone | ⟨-, code', hget', hused'⟩
        · exact hnone
        · obtain rfl : code = code' := Option.mem_unique hpaid.get hget'
          rw [hpaid.enabled] at hused'
          cases hused'
      refine .inr ⟨by rw [hcount, hnone], code.markUsed now userId, ?_, rfl⟩
      rw [hpaid.codes, Table.get?_modify_self, hpaid.get]
      rfl
    · rw [if_neg hid] at hcount
      exact hkept hcount

/-- **A code pays out once.** In every run of redemptions, dispatches and the two halves of edits in which no write
brings back the status of a code that was used in between, a code is paid out at most once, and a code that is used
at any moment is used from then on. -/
theorem code_pays_out_once (s : Codes) (hstart : s.payouts = []) (events : List CodeEvent)
    (hfresh : Along Codes.step (fun s e => e.Fresh s) s events) (id : Nat) :
    payoutsOf id (run Codes.step s events) ≤ 1 ∧
      ∀ done rest, events = done ++ rest → UsedCode id (run Codes.step s done) →
        UsedCode id (run Codes.step s events) := by
  constructor
  · have hnone : PaidAtMostOnce id s := .inl (by rw [payoutsOf, hstart]; rfl)
    have hend : PaidAtMostOnce id (run Codes.step s events) :=
      run_invariant (fun s e h hfresh => h.of_effect (step_effect hfresh)) hnone hfresh
    rcases hend with _ | ⟨_, -⟩
    · omega
    · omega
  · intro done rest hrun hused
    subst hrun
    rw [run_append]
    exact run_invariant (fun s e h hfresh => UsedCode.of_effect h (step_effect hfresh)) hused
      (along_append.mp hfresh).2

/-! An administrator renames a code while its user redeems it, and the user redeems it again. -/

def sampleCodes : Codes :=
  { users := Table.empty.insert {}
    redemptions := Table.empty.insert { key := "K1", quota := 5 } }

def renameCode : RedemptionRequest := { id := 1, name := "spring", quota := 5 }

theorem code_paid_out_twice :
    let events : List CodeEvent := [.readEdit 10 renameCode, .redeem 11 "K1" 1, .writeEdit 0, .redeem 12 "K1" 1]
    (∀ e ∈ events, e.KeepsStatus) ∧ payoutsOf 1 (run Codes.step sampleCodes events) = 2 ∧
      ((run Codes.step sampleCodes (events.take 2)).redemptions.get? 1).map Redemption.status = some .used ∧
      ((run Codes.step sampleCodes (events.take 3)).redemptions.get? 1).map Redemption.status = some .enabled ∧
      ((run Codes.step sampleCodes events).users.get? 1).map User.quota = some 10 := by
  decide +kernel

def renamedAround : List CodeEvent :=
  [.readEdit 10 renameCode, .writeEdit 0, .redeem 11 "K1" 1, .readEdit 12 renameCode, .writeEdit 0, .redeem 13 "K1" 1]

theorem renamedAround_fresh : Along Codes.step (fun s e => e.Fresh s) sampleCodes renamedAround := by
  refine ⟨trivial, fun edit code _ hget hused => ?_, trivial, trivial, fun edit code hedit _ _ => ?_, trivial, trivial⟩
  · have hstatus : ∀ i < 2, ((run Codes.step sampleCodes [.readEdit 10 renameCode]).redemptions.get? i).map
        Redemption.status ≠ some .used := by decide +kernel
    have hid : edit.id < 2 := Table.lt_next_of_get? hget
    refine absurd ?_ (hstatus edit.id hid)
    show ((Codes.step sampleCodes (.readEdit 10 renameCode)).redemptions.get? edit.id).map Redemption.status = _
    rw [hget, Option.map_some, hused]
  · have hcopy : (run Codes.step sampleCodes (renamedAround.take 4)).edits[0]?.map (fun edit => edit.copy.status) =
        some .used := by decide +kernel
    have hedit' : (run Codes.step sampleCodes (renamedAround.take 4)).edits[0]? = some edit := hedit
    rw [hedit'] at hcopy
    exact Option.some.inj hcopy

theorem code_pays_out_once_renamed : payoutsOf 1 (run Codes.step sampleCodes renamedAround) ≤ 1 :=
  (code_pays_out_once sampleCodes rfl renamedAround renamedAround_fresh 1).1

end CubeRouter.Payment
