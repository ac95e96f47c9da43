import CubeRouter.Payment.TopUp
import Mathlib.Algebra.BigOperators.Group.List.Basic

/-!
# An order credits once

Only a pending order is credited or closed, and either ends its being pending. So over any run of the callbacks,
of the completion by hand and of the closing of orders, whatever else happens to the wallets, an order adds to
its user's wallet at most once, and does so exactly when it becomes successful.
-/

namespace CubeRouter.Payment

open Relational Transition List Option

/-! ## What a call can do -/

inductive TopUpEffect (db db' : DB) : Prop
  | nothing : db' = db → TopUpEffect db db'
  | credited {id : Nat} {topUp topUp' : TopUp} {quota : Int} {g : User → User} :
      db.topUps.get? id = some topUp → topUp.status = .pending → topUp'.status = .success →
      topUp'.userId = topUp.userId → 0 < quota → (∀ u, (g u).quota = u.quota + quota) →
      db' = { topUps := db.topUps.modify id fun _ => topUp'
              users := db.users.modify topUp.userId g
              entries := ⟨id, topUp.userId, quota⟩ :: db.entries } → TopUpEffect db db'
  | closed {id : Nat} {topUp topUp' : TopUp} :
      db.topUps.get? id = some topUp → topUp.status = .pending → topUp'.status ≠ .success →
      topUp'.userId = topUp.userId →
      db' = { db with topUps := db.topUps.modify id fun _ => topUp' } → TopUpEffect db db'
  | moved {userId : Nat} {delta : Int} :
      db' = { db with
        users := db.users.modify userId fun u => { u with quota := u.quota + delta }
        entries := ⟨0, userId, delta⟩ :: db.entries } → TopUpEffect db db'

variable {db db' : DB} {tradeNo : String} {now : Int}
  {userId i u : Nat} {quota : Int} {updates : User → User} {user₀ : User} {order : TopUp}

theorem creditTopUpQuota_ok (h : creditTopUpQuota db userId quota updates = .ok db') : 0 < quota ∧
      db' = { db with users := db.users.modify userId fun u => { updates u with quota := u.quota + quota } } := by
  obtain ⟨_, hmax, hrest⟩ := bind_eq_ok.mp h
  unfold topUpQuotaMaxCurrent at hmax
  split_ifs at hmax with hbad
  split at hrest
  · cases hrest
  · split_ifs at hrest
    cases hrest
    exact ⟨by omega, rfl⟩

theorem creditTopUpQuota_user (h : creditTopUpQuota db userId quota updates = .ok db') :
    ∃ user, db.users.get? userId = some user := by
  obtain ⟨_, -, hrest⟩ := bind_eq_ok.mp h
  split at hrest
  · cases hrest
  · rename_i user huser
    exact ⟨user, huser⟩

theorem creditTopUpQuota_room (h : creditTopUpQuota db userId quota updates = .ok db') {user : User}
    (huser : db.users.get? userId = some user) : user.quota + quota ≤ Billing.maxWalletQuota := by
  obtain ⟨_, hmax, hrest⟩ := bind_eq_ok.mp h
  unfold topUpQuotaMaxCurrent at hmax
  split_ifs at hmax with hbad
  cases hmax
  rw [huser] at hrest
  simp only at hrest
  split_ifs at hrest with hroom
  omega

variable {c : Completion} {r : Option Int} {order₀ : TopUp} {n : Nat}

/-- Saved before or after its amount is computed, the order is saved with its credit or not at all. -/
theorem Completion.write_ok {id : Nat} {topUp : TopUp} (h : c.write now id topUp db = .ok (quota, db')) :
    0 < quota ∧ db' = { db with
      topUps := db.topUps.modify id fun _ => topUp.completed now
      users := db.users.modify topUp.userId fun u => { c.updates u with quota := u.quota + quota } } := by
  unfold Completion.write at h
  split_ifs at h
  · obtain ⟨q, -, h1⟩ := bind_eq_ok.mp h
    obtain ⟨db1, hcredit, h2⟩ := bind_eq_ok.mp h1
    obtain ⟨hpos, rfl⟩ := creditTopUpQuota_ok hcredit
    cases h2
    exact ⟨hpos, rfl⟩
  · obtain ⟨q, -, h1⟩ := bind_eq_ok.mp h
    obtain ⟨_, hcredit, h2⟩ := bind_eq_ok.mp h1
    obtain ⟨hpos, rfl⟩ := creditTopUpQuota_ok hcredit
    cases h2
    exact ⟨hpos, rfl⟩

theorem Completion.run_cases (h : c.run now tradeNo db = .ok (r, db')) : (r = none ∧ db' = db) ∨
    ∃ id topUp q db1, r = some q ∧ tradeNo ≠ "" ∧ findTopUp db tradeNo = some (id, topUp) ∧ topUp.status = .pending ∧
      (∀ p ∈ c.provider, p = topUp.paymentProvider) ∧ c.write now id (c.edit topUp) db = .ok (q, db1) ∧
        db' = { db1 with entries := ⟨id, topUp.userId, q⟩ :: db1.entries } := by
  unfold Completion.run at h
  by_cases hmissing : tradeNo = ""
  · rw [if_pos hmissing] at h
    cases h
  · rw [if_neg hmissing] at h
    split at h
    · cases h
    · rename_i id topUp hfound
      split_ifs at h with hprovider hdone hpending
      · cases h
        exact .inl ⟨rfl, rfl⟩
      · obtain ⟨⟨q, db1⟩, hwrite, hrest⟩ := bind_eq_ok.mp h
        cases hrest
        refine .inr ⟨id, topUp, q, db1, rfl, hmissing, hfound, not_not.mp hpending, fun p hp => ?_, hwrite, rfl⟩
        by_contra hne
        rw [Option.mem_def.mp hp] at hprovider
        exact hprovider (by simpa using hne)

theorem Completion.run_effect
    (hedit : ∀ topUp, (c.edit topUp).userId = topUp.userId) (h : c.run now tradeNo db = .ok (r, db')) :
    TopUpEffect db db' := by
  rcases Completion.run_cases h with ⟨-, rfl⟩ | ⟨id, topUp, q, db1, -, -, hfound, hpending, -, hwrite, rfl⟩
  · exact .nothing rfl
  · obtain ⟨hpos, rfl⟩ := Completion.write_ok hwrite
    have hcompleted : ((c.edit topUp).completed now).userId = topUp.userId := hedit topUp
    refine .credited (g := fun u => { c.updates u with quota := u.quota + q }) (Table.find?_some hfound).1
      hpending (show ((c.edit topUp).completed now).status = .success from rfl) hcompleted hpos (fun _ => rfl) ?_
    rw [hedit]

theorem rechargeFailed_ok {result : Except TopUpError (Option Int × DB)} {r : Option Int × DB}
    (h : rechargeFailed result = .ok r) : result = .ok r := by
  unfold rechargeFailed at h
  split at h
  · cases h
  · cases h
  · exact h

theorem updatePendingTopUpStatus_effect {expected : PaymentProvider} {target : TopUpStatus}
    (htarget : target ≠ .success) (h : updatePendingTopUpStatus tradeNo expected target db = .ok (r, db')) :
    TopUpEffect db db' := by
  unfold updatePendingTopUpStatus at h
  by_cases hmissing : tradeNo = ""
  · rw [if_pos hmissing] at h
    cases h
  · rw [if_neg hmissing] at h
    split at h
    · cases h
    · rename_i id topUp hfound
      split_ifs at h with hprovider hpending
      cases h
      exact @TopUpEffect.closed _ _ id topUp { topUp with status := target } (Table.find?_some hfound).1
        (not_not.mp hpending) htarget rfl rfl

/-! ## The calls -/

/-- The calls on orders, and any other change of a wallet. -/
inductive TopUpOp
  | rechargeEpay (settings : Settings) (now : Int) (tradeNo actualPaymentMethod : String)
  | recharge (settings : Settings) (now : Int) (referenceId customerId : String)
  | rechargeAlipay (settings : Settings) (now : Int) (tradeNo : String)
  | manualCompleteTopUp (settings : Settings) (now : Int) (tradeNo : String)
  | rechargeCreem (now : Int) (referenceId customerEmail : String)
  | rechargeWaffo (settings : Settings) (now : Int) (tradeNo : String)
  | rechargeWaffoPancake (settings : Settings) (now : Int) (tradeNo : String)
  | updatePendingTopUpStatus (tradeNo : String) (expectedPaymentProvider : PaymentProvider)
      (targetStatus : TopUpStatus)
  | moveWallet (userId : Nat) (delta : Int)

def TopUpOp.call (op : TopUpOp) (db : DB) : Except TopUpError (Option Int × DB) :=
  match op with
  | .rechargeEpay settings now tradeNo method => Payment.rechargeEpay settings now tradeNo method db
  | .recharge settings now referenceId customerId => Payment.recharge settings now referenceId customerId db
  | .rechargeAlipay settings now tradeNo => Payment.rechargeAlipay settings now tradeNo db
  | .manualCompleteTopUp settings now tradeNo => Payment.manualCompleteTopUp settings now tradeNo db
  | .rechargeCreem now referenceId email => Payment.rechargeCreem now referenceId email db
  | .rechargeWaffo settings now tradeNo => Payment.rechargeWaffo settings now tradeNo db
  | .rechargeWaffoPancake settings now tradeNo => Payment.rechargeWaffoPancake settings now tradeNo db
  | .updatePendingTopUpStatus tradeNo expected target =>
    Payment.updatePendingTopUpStatus tradeNo expected target db
  | .moveWallet userId delta =>
    .ok (none, { db with
      users := db.users.modify userId fun u => { u with quota := u.quota + delta }
      entries := ⟨0, userId, delta⟩ :: db.entries })

def TopUpOp.apply (db : DB) (op : TopUpOp) : DB := commit op.call db

/-- `UpdatePendingTopUpStatus` is called to close an order. -/
def TopUpOp.Closes : TopUpOp → Prop
  | .updatePendingTopUpStatus _ _ target => target = .failed ∨ target = .expired
  | _ => True

theorem TopUpOp.effect (op : TopUpOp) (hop : op.Closes) (db : DB) : TopUpEffect db (op.apply db) := by
  refine commit_invariant (.nothing rfl) fun r db' h => ?_
  cases op with
  | rechargeEpay =>
    refine Completion.run_effect (fun topUp => ?_) h
    simp only
    split_ifs <;> rfl
  | recharge =>
    exact Completion.run_effect (fun _ => rfl) (rechargeFailed_ok h)
  | rechargeAlipay => exact Completion.run_effect (fun _ => rfl) (rechargeFailed_ok h)
  | manualCompleteTopUp => exact Completion.run_effect (fun _ => rfl) h
  | rechargeCreem | rechargeWaffo => exact Completion.run_effect (fun _ => rfl) (rechargeFailed_ok h)
  | rechargeWaffoPancake =>
    exact Completion.run_effect (fun _ => rfl) (rechargeFailed_ok h)
  | updatePendingTopUpStatus =>
    refine updatePendingTopUpStatus_effect ?_ h
    rcases hop with rfl | rfl <;> decide
  | moveWallet =>
    cases h
    exact .moved rfl

/-! ## Runs -/

/-- How often order `i` was credited. -/
def credits (i : Nat) (db : DB) : Nat := db.entries.countP fun e => e.orderId = i

/-- All that was added to the wallet of user `u`. -/
def walletChange (u : Nat) (db : DB) : Int := (db.entries.map fun e => if e.userId = u then e.quota else 0).sum

/-- Order `i` was credited if it was pending at first and is successful now. -/
structure CreditedOnce (i : Nat) (order₀ : TopUp) (db : DB) : Prop where
  order : ∃ order, db.topUps.get? i = some order ∧ order.userId = order₀.userId ∧
    (order₀.status ≠ .pending → order = order₀) ∧
    credits i db = if order₀.status = .pending ∧ order.status = .success then 1 else 0
  entries : ∀ e ∈ db.entries, e.orderId = i → e.userId = order₀.userId ∧ 0 < e.quota

def WalletKept (u : Nat) (user₀ : User) (db : DB) : Prop :=
  ∃ user, db.users.get? u = some user ∧ user.quota = user₀.quota + walletChange u db

theorem credits_cons (i : Nat) (e : WalletEntry) (topUps : Table TopUp) (users : Table User)
    (entries : List WalletEntry) :
    credits i ⟨topUps, users, e :: entries⟩ = credits i ⟨topUps, users, entries⟩ + if e.orderId = i then 1 else 0 := by
  unfold credits
  rw [countP_cons]
  simp

theorem CreditedOnce.step (h : CreditedOnce i order₀ db) (heffect : TopUpEffect db db') :
    CreditedOnce i order₀ db' := by
  obtain ⟨⟨order, hget, huser, hkept, hcount⟩, hentries⟩ := h
  -- an order that is pending now was pending at first, and has not been credited
  have hfirst : order.status = .pending → order₀.status = .pending ∧ credits i db = 0 := by
    intro hpending
    rw [if_neg (by simp [hpending])] at hcount
    refine ⟨?_, hcount⟩
    by_contra hne
    rw [hkept hne] at hpending
    exact hne hpending
  cases heffect with
  | nothing hsame =>
    subst hsame
    exact ⟨⟨order, hget, huser, hkept, hcount⟩, hentries⟩
  | @credited id topUp topUp' _ g hfound hpending hsuccess huser' hpos _ hdb =>
    subst hdb
    by_cases hi : i = id
    · subst hi
      obtain rfl : order = topUp := mem_unique hget hfound
      obtain ⟨hstart, hnone⟩ := hfirst hpending
      refine ⟨⟨topUp', ?_, huser'.trans huser, fun hne => absurd hstart hne, ?_⟩, fun e he hid => ?_⟩
      · rw [Table.get?_modify_self, hget]
        rfl
      · rw [credits_cons, if_pos rfl, if_pos ⟨hstart, hsuccess⟩]
        show credits i db + 1 = 1
        rw [hnone]
      · rcases mem_cons.mp he with rfl | he
        · exact ⟨huser, hpos⟩
        · exact hentries e he hid
    · refine ⟨⟨order, ?_, huser, hkept, ?_⟩, fun e he hid => ?_⟩
      · rw [Table.get?_modify_of_ne _ _ hi, hget]
      · rw [credits_cons, if_neg (Ne.symm hi)]
        exact hcount
      · rcases mem_cons.mp he with rfl | he
        · exact absurd hid.symm hi
        · exact hentries e he hid
  | @closed id topUp topUp' hfound hpending hclosed huser' hdb =>
    subst hdb
    by_cases hi : i = id
    · subst hi
      obtain rfl : order = topUp := mem_unique hget hfound
      obtain ⟨hstart, hnone⟩ := hfirst hpending
      refine ⟨⟨topUp', ?_, huser'.trans huser, fun hne => absurd hstart hne, ?_⟩, hentries⟩
      · rw [Table.get?_modify_self, hget]
        rfl
      · rw [if_neg (by simp [hclosed])]
        exact hnone
    · refine ⟨⟨order, ?_, huser, hkept, hcount⟩, hentries⟩
      rw [Table.get?_modify_of_ne _ _ hi, hget]
  | @moved _ _ hdb =>
    subst hdb
    have hi : 0 ≠ i := (Table.pos_of_get? hget).ne
    refine ⟨⟨order, hget, huser, hkept, ?_⟩, fun e he hid => ?_⟩
    · rw [credits_cons, if_neg hi]
      exact hcount
    · rcases mem_cons.mp he with rfl | he
      · exact absurd hid hi
      · exact hentries e he hid

theorem WalletKept.modify {orderId : Nat} {g : User → User} {topUps : Table TopUp} (h : WalletKept u user₀ db)
    (hg : ∀ user, (g user).quota = user.quota + quota) :
    WalletKept u user₀ ⟨topUps, db.users.modify userId g, ⟨orderId, userId, quota⟩ :: db.entries⟩ := by
  obtain ⟨user, hget, hquota⟩ := h
  have hchange : walletChange u ⟨topUps, db.users.modify userId g, ⟨orderId, userId, quota⟩ :: db.entries⟩ =
      (if userId = u then quota else 0) + walletChange u db := by
    unfold walletChange
    rw [map_cons, sum_cons]
  unfold WalletKept
  rw [hchange, Table.get?_modify, hget]
  split_ifs with hu hu' hu'
  · refine ⟨g user, rfl, ?_⟩
    rw [hg, hquota]
    omega
  · exact absurd hu.symm hu'
  · exact absurd hu'.symm hu
  · exact ⟨user, rfl, by omega⟩

theorem WalletKept.step (h : WalletKept u user₀ db) (heffect : TopUpEffect db db') : WalletKept u user₀ db' := by
  cases heffect with
  | nothing hsame =>
    subst hsame
    exact h
  | credited _ _ _ _ _ hg hdb =>
    subst hdb
    exact h.modify hg
  | closed _ _ _ _ hdb =>
    subst hdb
    exact h
  | moved hdb =>
    subst hdb
    exact h.modify fun _ => rfl

variable {ops : List TopUpOp}

theorem CreditedOnce.run (h : CreditedOnce i order₀ db) (hops : ∀ op ∈ ops, op.Closes) :
    CreditedOnce i order₀ (Transition.run TopUpOp.apply db ops) :=
  run_invariant (fun db _ h hop => h.step (TopUpOp.effect _ hop db)) h (along_of_forall hops db)

theorem CreditedOnce.start (hget : db.topUps.get? i = some order) (hentries : db.entries = []) :
    CreditedOnce i order db := by
  refine ⟨⟨order, hget, rfl, fun _ => rfl, ?_⟩, fun e he => ?_⟩
  · rw [credits, hentries, if_neg (by rintro ⟨hp, hs⟩; rw [hp] at hs; cases hs)]
    rfl
  · rw [hentries] at he
    cases he

/-- An order that is not pending any more, with the credits it had. -/
def Ended (i : Nat) (order : TopUp) (n : Nat) (db : DB) : Prop :=
  db.topUps.get? i = some order ∧ order.status ≠ .pending ∧ credits i db = n

theorem Ended.step (h : Ended i order n db) (heffect : TopUpEffect db db') : Ended i order n db' := by
  obtain ⟨hget, hended, hcount⟩ := h
  have hother : ∀ {id : Nat} {topUp : TopUp}, db.topUps.get? id = some topUp → topUp.status = .pending →
      i ≠ id := by
    intro id topUp hfound hpending hi
    subst hi
    rw [mem_unique hget hfound] at hended
    exact hended hpending
  cases heffect with
  | nothing hsame =>
    subst hsame
    exact ⟨hget, hended, hcount⟩
  | credited hfound hpending _ _ _ _ hdb =>
    subst hdb
    have hi := hother hfound hpending
    refine ⟨?_, hended, ?_⟩
    · rw [Table.get?_modify_of_ne _ _ hi, hget]
    · rw [credits_cons, if_neg (Ne.symm hi)]
      exact hcount
  | closed hfound hpending _ _ hdb =>
    subst hdb
    refine ⟨?_, hended, hcount⟩
    rw [Table.get?_modify_of_ne _ _ (hother hfound hpending), hget]
  | moved hdb =>
    subst hdb
    refine ⟨hget, hended, ?_⟩
    rw [credits_cons, if_neg (Table.pos_of_get? hget).ne]
    exact hcount

theorem Ended.run (h : Ended i order n db) (hops : ∀ op ∈ ops, op.Closes) :
    Ended i order n (Transition.run TopUpOp.apply db ops) :=
  run_invariant (fun db _ h hop => h.step (TopUpOp.effect _ hop db)) h (along_of_forall hops db)

theorem WalletKept.run (h : WalletKept u user₀ db) (hops : ∀ op ∈ ops, op.Closes) :
    WalletKept u user₀ (Transition.run TopUpOp.apply db ops) :=
  run_invariant (fun db _ h hop => h.step (TopUpOp.effect _ hop db)) h (along_of_forall hops db)

theorem TopUpOp.apply_of_failure {op : TopUpOp} (h : failure (op.call db) ≠ none) : op.apply db = db := by
  obtain ⟨e, he⟩ := ne_none_iff_exists'.mp h
  rw [TopUpOp.apply, commit, failure_eq_some.mp he]

/-- **An order credits once.** Over every run of the callbacks, of the completion by hand and of the closing of
orders, an order that was pending at first is credited once if it is successful in the end and not at all
otherwise, an order that was not is never credited, and all that is credited goes to its user. An order that
succeeded, failed or expired on the way stays as it is and is not credited again. A wallet holds what was
added to it, and a call that returns an error changes neither the order nor the wallet. -/
theorem order_credited_once (db : DB) (hstart : db.entries = []) (ops : List TopUpOp)
    (hops : ∀ op ∈ ops, op.Closes) (i : Nat) (order₀ : TopUp) (hi : db.topUps.get? i = some order₀) : (∃ order,
      (run TopUpOp.apply db ops).topUps.get? i = some order ∧ order.userId = order₀.userId ∧
      credits i (run TopUpOp.apply db ops) = (if order₀.status = .pending ∧ order.status = .success then 1 else 0) ∧
      ∀ e ∈ (run TopUpOp.apply db ops).entries, e.orderId = i → e.userId = order₀.userId ∧ 0 < e.quota) ∧
    (∀ done rest order, ops = done ++ rest → (run TopUpOp.apply db done).topUps.get? i = some order →
      order.status ≠ .pending → (run TopUpOp.apply db ops).topUps.get? i = some order ∧
      credits i (run TopUpOp.apply db ops) = credits i (run TopUpOp.apply db done)) ∧
    (∀ u user₀, db.users.get? u = some user₀ → ∃ user, (run TopUpOp.apply db ops).users.get? u = some user ∧
      user.quota = user₀.quota + walletChange u (run TopUpOp.apply db ops)) ∧
    ∀ op : TopUpOp, failure (op.call (run TopUpOp.apply db ops)) ≠ none →
      op.apply (run TopUpOp.apply db ops) = run TopUpOp.apply db ops := by
  refine ⟨?_, fun done rest order hrun hget hended => ?_, fun u user₀ hu => ?_,
    fun op h => TopUpOp.apply_of_failure h⟩
  · have horder : CreditedOnce i order₀ (run TopUpOp.apply db ops) := (CreditedOnce.start hi hstart).run hops
    obtain ⟨⟨order, hget, huser, -, hcount⟩, hentries⟩ := horder
    exact ⟨order, hget, huser, hcount, hentries⟩
  · subst hrun
    have hbefore : Ended i order (credits i (run TopUpOp.apply db done)) (run TopUpOp.apply db done) :=
      ⟨hget, hended, rfl⟩
    rw [run_append]
    obtain ⟨hafter, -, hcount⟩ := hbefore.run fun op hop => hops op (mem_append_right done hop)
    exact ⟨hafter, hcount⟩
  · have hempty : WalletKept u user₀ db := ⟨user₀, hu, by simp [walletChange, hstart]⟩
    exact hempty.run hops

/-! A Waffo order of two units for a user with an empty wallet; its callback comes twice, is followed by a late
expiry and by a completion by hand. -/

def sampleOrder : TopUp := { userId := 1, amount := 2, tradeNo := "W1", paymentProvider := .waffo }

def sampleOrders : DB :=
  { topUps := Table.empty.insert sampleOrder
    users := Table.empty.insert {} }

def sampleCalls : List TopUpOp :=
  [.rechargeWaffo {} 10 "W1", .rechargeWaffo {} 11 "W1", .updatePendingTopUpStatus "W1" .waffo .expired,
    .manualCompleteTopUp {} 12 "W1"]

theorem sampleCalls_close : ∀ op ∈ sampleCalls, op.Closes := by
  simp [sampleCalls, TopUpOp.Closes]

theorem order_credited_once_sample : credits 1 (run TopUpOp.apply sampleOrders sampleCalls) = 1 ∧ ∃ order,
        (run TopUpOp.apply sampleOrders sampleCalls).topUps.get? 1 = some order ∧ order.userId = 1 ∧
        credits 1 (run TopUpOp.apply sampleOrders sampleCalls) =
          (if sampleOrder.status = .pending ∧ order.status = .success then 1 else 0) := by
  refine ⟨by decide +kernel, ?_⟩
  obtain ⟨⟨order, horder, huser, hcount, -⟩, -⟩ :=
    order_credited_once sampleOrders rfl sampleCalls sampleCalls_close 1 sampleOrder (by decide +kernel)
  exact ⟨order, horder, huser, hcount⟩

end CubeRouter.Payment
