import CubeRouter.Quota.Cache
import Mathlib.Algebra.Order.Ring.Int
import Mathlib.Tactic.SplitIfs

/-!
# What the quota cache lets through

The true balance of a wallet is the column, the buffered delta and the share that a running `batchUpdate`
holds. A reservation is decided on the hash (or, in the fallback, on the column) and not on the balance,
so it is covered only as long as these do not run ahead of it. `Current` says, step by step, when they do
not; along a run of such steps every reservation is covered and the balance never falls short by more
than what settlements have taken (`reservations_covered`). Without the condition a hydration between
record and flush brings back what has been reserved (`expired_hash_reserves_twice`).
-/

namespace CubeRouter.Quota

open Transition Pool Option Int

/-! ## What the running calls hold -/

def Call.share : Call → Int
  | .flush share => share.toInt
  | _ => 0

/-- Granted by the script and not recorded yet. -/
def Call.held : Call → Int
  | .tryReserve quota .persist => quota.toInt
  | _ => 0

def Call.owed : Call → Int
  | .decrease quota => quota.toInt
  | _ => 0

def Call.delta : Call → Int
  | .cacheDelta delta => delta
  | _ => 0

def Stores.booked (st : Stores) : Int := st.quota + st.buffer.toInt

/-- Database quota plus buffered deltas. -/
def Wallet.balance (s : Wallet) : Int := s.stores.booked + weight Call.share s.calls

def Wallet.held (s : Wallet) : Int := weight Call.held s.calls

def Wallet.owed (s : Wallet) : Int := weight Call.owed s.calls

/-- The sum of the cache deltas under way. -/
def Wallet.undelivered (s : Wallet) : Int := weight Call.delta s.calls

/-- What a balance that no call is working on would be, less what the hash will still be told. -/
def Wallet.due (s : Wallet) : Int := s.balance - s.held - s.owed - s.undelivered

/-- What a reservation may take: the balance less the grants under way. -/
def Wallet.free (s : Wallet) : Int := s.balance - s.held

theorem Amount.toInt_nonneg (a : Amount) : 0 ≤ a.toInt := Int64.le_iff_toInt_le.mp a.nonneg

theorem Amount.toInt_neg_val (a : Amount) : (-a.val).toInt = -a.toInt := by
  have hnonneg := a.toInt_nonneg
  have hlt := a.val.toInt_lt
  rw [Int64.toInt_neg, Amount.toInt] at *
  exact bmod_eq_of_le (by omega) (by omega)

theorem Wallet.held_nonneg (s : Wallet) : 0 ≤ s.held := by
  refine weight_nonneg (fun c => ?_) s.calls
  unfold Call.held
  split
  · exact Amount.toInt_nonneg _
  · exact le_refl 0

theorem Wallet.owed_nonneg (s : Wallet) : 0 ≤ s.owed := by
  refine weight_nonneg (fun c => ?_) s.calls
  unfold Call.owed
  split
  · exact Amount.toInt_nonneg _
  · exact le_refl 0

/-! ## The buffer -/

theorem addNewRecord_toInt (old value : Int64) :
    (addNewRecord old value).toInt = max (-2 ^ 63) (min (2 ^ 63 - 1) (old.toInt + value.toInt)) := by
  have hold := old.toInt_lt
  have hold' := old.le_toInt
  have hvalue := value.toInt_lt
  have hvalue' := value.le_toInt
  have hsum : (old + value).toInt = (old.toInt + value.toInt).bmod (2 ^ 64) := Int64.toInt_add old value
  have hwrap : (old + value).toInt = old.toInt + value.toInt ∨
      (old + value).toInt = old.toInt + value.toInt - 2 ^ 64 ∨
      (old + value).toInt = old.toInt + value.toInt + 2 ^ 64 := by
    rw [hsum, bmod_def]
    split_ifs <;> omega
  have hlt := (old + value).toInt_lt
  have hle := (old + value).le_toInt
  unfold addNewRecord
  simp only [Int64.lt_iff_toInt_lt, Int64.toInt_zero]
  split_ifs
  · rw [Int64.toInt_maxValue]
    omega
  · rw [Int64.toInt_minValue]
    omega
  · omega

theorem le_addNewRecord {old value : Int64} (h : old.toInt + value.toInt < 2 ^ 63) :
    old.toInt + value.toInt ≤ (addNewRecord old value).toInt := by
  rw [addNewRecord_toInt]
  omega

theorem le_addNewRecord_neg (old : Int64) (a : Amount) : old.toInt - a.toInt ≤ (addNewRecord old (-a.val)).toInt := by
  have hold := old.toInt_lt
  have hnonneg := a.toInt_nonneg
  rw [addNewRecord_toInt, a.toInt_neg_val]
  omega

/-! ## The schedule condition -/

/-- A hydration that creates the hash writes a value that is not ahead of the balance. -/
def Hydration.Current (s : Wallet) (answer : Answer) : Hydration → Prop
  | .populate row => answer = .ok → s.stores.cache = none → row ≤ s.due
  | _ => True

/-- The condition on the next step of a running call. A grant of the script needs that no recorded
settlement is missing in the hash, a grant of the database that its row is not ahead of what is free; a hash that such a
grant or a lost delta passes by stays behind the balance. -/
def Call.Current (s : Wallet) (answer : Answer) : Call → Prop
  | .tryReserve quota .script | .tryReserve quota .retry =>
    (cacheTryReserveUserQuota s.stores answer quota.toInt).1 = some .ok → 0 ≤ s.undelivered + s.owed
  | .tryReserve _ (.hydrate at_) => at_.Current s answer
  | .tryReserve quota .fallback =>
    (reserveUserQuotaDB s.stores answer quota.toInt).1 = true →
      (∀ c ∈ s.stores.cache, c ≤ s.due - quota.toInt) ∧ s.stores.quota ≤ s.free
  | .tryReserve _ .persist => True
  | .getUserCache at_ => at_.Current s answer
  | .decrease _ => True
  | .cacheDelta delta => answer = .failed → ∀ c ∈ s.stores.cache, c ≤ s.due + delta
  | .flush share => answer = .failed → s.stores.buffer.toInt + share.toInt < 2 ^ 63

/-- The stores that decide a reservation do not run ahead of the balance in this step. -/
def Current (s : Wallet) : Event → Prop
  | .tryReserveUserQuota quota => quota = 0 → s.held ≤ s.balance
  | .increaseUserQuota quota =>
    0 ≤ quota ∧ quota ≤ maxWalletQuota → s.stores.buffer.toInt + quota.toInt < 2 ^ 63
  | .advance i answer =>
    match s.calls[i]? with
    | none => True
    | some call => call.Current s answer
  | _ => True

instance (s : Wallet) (answer : Answer) (at_ : Hydration) : Decidable (at_.Current s answer) := by
  cases at_ <;> unfold Hydration.Current <;> infer_instance

instance (s : Wallet) (answer : Answer) (call : Call) : Decidable (call.Current s answer) := by
  unfold Call.Current
  split <;> infer_instance

instance (s : Wallet) (e : Event) : Decidable (Current s e) := by
  unfold Current
  split
  · infer_instance
  · infer_instance
  · split <;> infer_instance
  · infer_instance

/-! ## What a step can do -/

def Call.Idle (c : Call) : Prop := c.share = 0 ∧ c.held = 0 ∧ c.owed = 0 ∧ c.delta = 0

theorem weight_idle {next : List Call} (h : ∀ c ∈ next, c.Idle) :
    weight Call.share next = 0 ∧ weight Call.held next = 0 ∧ weight Call.owed next = 0 ∧
    weight Call.delta next = 0 := by
  induction next with
  | nil => simp
  | cons c _ ih =>
    obtain ⟨_, _, _, _⟩ := h c (by simp)
    obtain ⟨_, _, _, _⟩ := ih fun d hd => h d (by simp [hd])
    simp [*]

variable {st : Stores} {calls : List Call} {d : Int}

theorem cacheTryReserveUserQuota_cases {answer : Answer} {amount : Int} :
    ((cacheTryReserveUserQuota st answer amount).1 ≠ some .ok ∧ (cacheTryReserveUserQuota st answer amount).2 = st) ∨
    ∃ c, st.cache = some c ∧ amount ≤ c ∧
      cacheTryReserveUserQuota st answer amount = (some .ok, { st with cache := some (c - amount) }) := by
  unfold cacheTryReserveUserQuota
  split_ifs
  · exact .inl ⟨by simp, rfl⟩
  · split
    · exact .inl ⟨by simp, rfl⟩
    · rename_i c hc
      split_ifs with hlt
      · exact .inl ⟨by simp, rfl⟩
      · exact .inr ⟨c, hc, by omega, rfl⟩

variable {answer : Answer} {quota : Amount} {s s' : Wallet} {e : Event}

/-- A try of the script changes nothing, or takes the amount from the hash and leaves the call before its
record. -/
theorem Reservation.step_script {at_ : Reservation} (hat : at_ = .script ∨ at_ = .retry) :
    (∃ next, at_.step st answer quota = (st, next) ∧ (∀ c ∈ next, c.Idle)) ∨ ∃ c, st.cache = some c ∧ quota.toInt ≤ c ∧
      (cacheTryReserveUserQuota st answer quota.toInt).1 = some .ok ∧ at_.step st answer quota =
        ({ st with cache := some (c - quota.toInt) }, [.tryReserve quota .persist]) := by
  rcases cacheTryReserveUserQuota_cases with ⟨hnot, hst⟩ | ⟨c, hc, hle, hok⟩
  · left
    generalize hr : cacheTryReserveUserQuota st answer quota.toInt = r at hnot hst
    obtain ⟨r, st'⟩ := r
    obtain rfl : st' = st := hst
    rcases hat with rfl | rfl
    all_goals
      simp only [Reservation.step, hr]
      rcases r with _ | _ | _ | _
      all_goals first
        | exact absurd rfl hnot
        | exact ⟨_, rfl, by simp [Call.Idle, Call.share, Call.held, Call.owed, Call.delta]⟩
  · right
    refine ⟨c, hc, hle, by rw [hok], ?_⟩
    rcases hat with rfl | rfl <;> simp [Reservation.step, hok]

theorem Hydration.step_cases (st : Stores) (answer : Answer) (at_ : Hydration) : (at_.step st answer).2 = st ∨
    ∃ row, at_ = .populate row ∧ answer = .ok ∧ (at_.step st answer).2 = st.populate row := by
  cases at_ with
  | lookup =>
    left
    unfold Hydration.step
    split_ifs <;> rfl
  | readRow => cases answer <;> exact .inl rfl
  | populate row =>
    cases answer with
    | ok => exact .inr ⟨row, rfl, rfl, rfl⟩
    | failed => exact .inl rfl
    | fenced => exact .inl rfl

/-- A call inside `GetUserCache`, of a reservation or of a reader. -/
theorem Call.step_hydration (st : Stores) (answer : Answer) {call : Call} {at_ : Hydration}
    (hcall : (∃ quota, call = .tryReserve quota (.hydrate at_)) ∨ call = .getUserCache at_) :
    ∃ next, call.step st answer = ((at_.step st answer).2, next) ∧ ∀ c ∈ next, c.Idle := by
  generalize hr : at_.step st answer = r
  obtain ⟨r, _⟩ := r
  rcases hcall with ⟨_, rfl⟩ | rfl
  all_goals
    simp only [Call.step, Reservation.step, hr]
    cases r <;> exact ⟨_, rfl, by simp [Call.Idle, Call.share, Call.held, Call.owed, Call.delta]⟩

/-- What settlements have been told to take. -/
def Event.debit : Event → Int
  | .decreaseUserQuota quota => if 0 ≤ quota then quota.toInt else 0
  | _ => 0

theorem Event.debit_nonneg (e : Event) : 0 ≤ e.debit := by
  unfold Event.debit
  split
  · split_ifs with h
    · exact Int64.le_iff_toInt_le.mp h
    · exact le_refl 0
  · exact le_refl 0

/-- The effects of an event whose condition holds, in the totals of the wallet. -/
inductive Effect (s s' : Wallet) (e : Event) : Prop where
  | kept (hcache : ∀ c ∈ s'.stores.cache, c ∈ s.stores.cache ∧ s.due ≤ s'.due)
      (hfree : s.free ≤ s'.free) (howed : s'.owed = s.owed)
  | delivered (delta : Int) (hcache : s'.stores.cache = s.stores.cache.map (· + delta))
      (hdue : s'.due = s.due + delta) (hfree : s'.free = s.free) (howed : s'.owed = s.owed)
  | populated (row : Int) (hrow : row ≤ s.due) (hcache : s'.stores.cache = some row)
      (hdue : s'.due = s.due) (hfree : s'.free = s.free) (howed : s'.owed = s.owed)
  | lost (hcache : ∀ c ∈ s'.stores.cache, c ≤ s'.due) (hfree : s.free ≤ s'.free) (howed : s'.owed = s.owed)
  | taken (n : Int) (hn : reserved s e = some n)
      (hcache : ∀ c ∈ s'.stores.cache, c + n ∈ s.stores.cache ∨ c ≤ s'.due)
      (hdue : s'.due = s.due - n) (hfree : s'.free = s.free - n) (howed : s'.owed = s.owed)
  | charged (hcache : s'.stores.cache = s.stores.cache) (hdue : s'.due = s.due) (hfree : s'.free = s.free)
      (howed : s'.owed = s.owed + e.debit)
  | recorded (q : Int) (hq : 0 ≤ q) (hcache : s'.stores.cache = s.stores.cache) (hdue : s.due ≤ s'.due)
      (hfree : s.free - q ≤ s'.free) (howed : s'.owed = s.owed - q)

section Advance

variable {s : Wallet} {i : Nat} {answer : Answer} {call : Call} {st : Stores} {next : List Call}

theorem step_advance (hcall : s.calls[i]? = some call) (hstep : call.step s.stores answer = (st, next)) :
    step s (.advance i answer) = ⟨st, s.calls.eraseIdx i ++ next⟩ := by
  simp [step, hcall, hstep]

theorem advance_totals (hcall : s.calls[i]? = some call) (hstep : call.step s.stores answer = (st, next)) :
    let s' := step s (.advance i answer)
    s'.stores = st ∧
    s'.free = s.free + (st.booked - s.stores.booked) + (weight Call.share next - call.share) -
      (weight Call.held next - call.held) ∧
    s'.owed = s.owed + (weight Call.owed next - call.owed) ∧
    s'.due = s.due + (s'.free - s.free) - (s'.owed - s.owed) - (weight Call.delta next - call.delta) := by
  have hshare := weight_get Call.share hcall
  have hheld := weight_get Call.held hcall
  have howed := weight_get Call.owed hcall
  have hdelta := weight_get Call.delta hcall
  simp only [step_advance hcall hstep, Wallet.due, Wallet.free, Wallet.balance, Wallet.held, Wallet.owed,
    Wallet.undelivered, weight_append]
  refine ⟨trivial, ?_, ?_, ?_⟩ <;> omega

theorem advance_idle (hcall : s.calls[i]? = some call) (hstep : call.step s.stores answer = (st, next))
    (hbooked : st.booked = s.stores.booked) (hidle : call.Idle) (hnext : ∀ c ∈ next, c.Idle) :
    let s' := step s (.advance i answer)
    s'.stores = st ∧ s'.due = s.due ∧ s'.free = s.free ∧ s'.owed = s.owed := by
  obtain ⟨hst, _, _, _⟩ := advance_totals hcall hstep
  obtain ⟨_, _, _, _⟩ := weight_idle hnext
  obtain ⟨_, _, _, _⟩ := hidle
  refine ⟨hst, ?_, ?_, ?_⟩ <;> omega

theorem effect_hydration {at_ : Hydration} (hcall : s.calls[i]? = some call)
    (hkind : (∃ quota, call = .tryReserve quota (.hydrate at_)) ∨ call = .getUserCache at_)
    (hcurrent : at_.Current s answer) : Effect s (step s (.advance i answer)) (.advance i answer) := by
  obtain ⟨_, hstep, hnext⟩ := Call.step_hydration s.stores answer hkind
  have hidle : call.Idle := by
    rcases hkind with ⟨_, rfl⟩ | rfl <;> simp [Call.Idle, Call.share, Call.held, Call.owed, Call.delta]
  have hbooked : (at_.step s.stores answer).2.booked = s.stores.booked := by
    rcases at_.step_cases s.stores answer with hst | ⟨row, -, -, hst⟩ <;> rw [hst]
    rfl
  obtain ⟨hst', hdue, hfree, howed⟩ := advance_idle hcall hstep hbooked hidle hnext
  have hkept (hsame : (at_.step s.stores answer).2.cache = s.stores.cache) :
      Effect s (step s (.advance i answer)) (.advance i answer) := by
    refine .kept (fun c hc => ⟨?_, hdue.ge⟩) hfree.ge howed
    rwa [hst', hsame] at hc
  rcases at_.step_cases s.stores answer with hst | ⟨row, rfl, rfl, hst⟩
  · exact hkept (by rw [hst])
  · -- the hash is written only where there is none
    cases hcache : s.stores.cache with
    | none =>
      have hrow : (step s (.advance i .ok)).stores.cache = some row := by
        rw [hst', hst]
        simp [Stores.populate, hcache]
      exact .populated row (hcurrent rfl hcache) hrow hdue hfree howed
    | some => exact hkept (by rw [hst]; simp [Stores.populate, hcache])

variable {quota : Amount}

theorem effect_script {at_ : Reservation} (hcall : s.calls[i]? = some (.tryReserve quota at_))
    (hat : at_ = .script ∨ at_ = .retry) : Effect s (step s (.advance i answer)) (.advance i answer) := by
  have hidle : (Call.tryReserve quota at_).Idle := by
    rcases hat with rfl | rfl <;> simp [Call.Idle, Call.share, Call.held, Call.owed, Call.delta]
  rcases Reservation.step_script hat with ⟨_, hstep, hnext⟩ | ⟨c, hc, _, hok, hstep⟩
  · obtain ⟨hst, hdue, hfree, howed⟩ := advance_idle hcall hstep rfl hidle hnext
    exact .kept (fun c hc => ⟨by rwa [hst] at hc, hdue.ge⟩) hfree.ge howed
  · obtain ⟨hst, hfree, howed, hdue⟩ := advance_totals hcall hstep
    obtain ⟨hshare0, hheld0, howed0, hdelta0⟩ := hidle
    have hn : reserved s (.advance i answer) = some quota.toInt := by
      rcases hat with rfl | rfl <;> simp [reserved, hcall, hok]
    simp only [weight_cons, weight_nil, Call.share, Call.held, Call.owed, Call.delta, Stores.booked]
      at hfree howed hdue hshare0 hheld0 howed0 hdelta0
    refine .taken quota.toInt hn (fun c' hc' => ?_) (by omega) (by omega) (by omega)
    rw [hst] at hc'
    obtain rfl : c - quota.toInt = c' := some.inj hc'
    rw [hc, sub_add_cancel]
    exact .inl rfl

theorem reserveUserQuotaDB_cases (st : Stores) (answer : Answer) (quota : Int) :
    reserveUserQuotaDB st answer quota = (false, st) ∨ (quota ≤ st.quota ∧
      reserveUserQuotaDB st answer quota = (true, { st with quota := st.quota - quota })) := by
  unfold reserveUserQuotaDB
  split_ifs with hfailed hle
  · exact .inl rfl
  · exact .inr ⟨hle, rfl⟩
  · exact .inl rfl

theorem effect_fallback (hcall : s.calls[i]? = some (.tryReserve quota .fallback))
    (hcurrent : (Call.tryReserve quota .fallback).Current s answer) :
    Effect s (step s (.advance i answer)) (.advance i answer) := by
  rcases reserveUserQuotaDB_cases s.stores answer quota.toInt with hdb | ⟨-, hdb⟩
  · have hstep : (Call.tryReserve quota .fallback).step s.stores answer = (s.stores, []) := by
      simp [Call.step, Reservation.step, hdb]
    obtain ⟨hst, hdue, hfree, howed⟩ := advance_idle hcall hstep rfl ⟨rfl, rfl, rfl, rfl⟩ (by simp)
    exact .kept (fun c hc => ⟨by rwa [hst] at hc, hdue.ge⟩) hfree.ge howed
  · have hstep : (Call.tryReserve quota .fallback).step s.stores answer =
        ({ s.stores with quota := s.stores.quota - quota.toInt }, []) := by
      simp [Call.step, Reservation.step, hdb]
    obtain ⟨hst, hfree, howed, hdue⟩ := advance_totals hcall hstep
    obtain ⟨hbehind, -⟩ := hcurrent (by rw [hdb])
    have hn : reserved s (.advance i answer) = some quota.toInt := by
      simp [reserved, hcall, hdb]
    simp only [weight_nil, Call.share, Call.held, Call.owed, Call.delta, Stores.booked] at hfree howed hdue
    refine .taken quota.toInt hn (fun c hc => ?_) (by omega) (by omega) (by omega)
    rw [hst] at hc
    have hle := hbehind c hc
    exact .inr (by omega)

theorem effect_persist (hcall : s.calls[i]? = some (.tryReserve quota .persist)) :
    Effect s (step s (.advance i answer)) (.advance i answer) := by
  have hstep : (Call.tryReserve quota .persist).step s.stores answer = (s.stores.record (-quota.val), []) := rfl
  obtain ⟨hst, hfree, howed, hdue⟩ := advance_totals hcall hstep
  have hrecord := le_addNewRecord_neg s.stores.buffer quota
  simp only [weight_nil, Call.share, Call.held, Call.owed, Call.delta, Stores.booked, Stores.record]
    at hfree howed hdue
  exact .kept (fun c hc => ⟨by rwa [hst] at hc, by omega⟩) (by omega) (by omega)

theorem effect_decrease (hcall : s.calls[i]? = some (.decrease quota)) :
    Effect s (step s (.advance i answer)) (.advance i answer) := by
  have hstep : (Call.decrease quota).step s.stores answer = (s.stores.record (-quota.val), []) := rfl
  obtain ⟨hst, hfree, howed, hdue⟩ := advance_totals hcall hstep
  have hrecord := le_addNewRecord_neg s.stores.buffer quota
  simp only [weight_nil, Call.share, Call.held, Call.owed, Call.delta, Stores.booked, Stores.record]
    at hfree howed hdue
  refine .recorded quota.toInt quota.toInt_nonneg ?_ (by omega) (by omega) (by omega)
  rw [hst]
  rfl

theorem effect_cacheDelta {delta : Int} (hcall : s.calls[i]? = some (.cacheDelta delta))
    (hcurrent : (Call.cacheDelta delta).Current s answer) :
    Effect s (step s (.advance i answer)) (.advance i answer) := by
  have hstep : (Call.cacheDelta delta).step s.stores answer =
      (cacheApplyUserQuotaDelta s.stores answer delta, []) := rfl
  obtain ⟨hst, hfree, howed, hdue⟩ := advance_totals hcall hstep
  have hbooked : (cacheApplyUserQuotaDelta s.stores answer delta).booked = s.stores.booked := by
    unfold cacheApplyUserQuotaDelta
    split_ifs <;> rfl
  simp only [weight_nil, Call.share, Call.held, Call.owed, Call.delta] at hfree howed hdue
  by_cases hfailed : answer = .failed
  · -- the delta is lost
    refine .lost (fun c hc => ?_) (by omega) (by omega)
    rw [hst, cacheApplyUserQuotaDelta, if_pos hfailed] at hc
    have hle := hcurrent hfailed c hc
    omega
  · refine .delivered delta ?_ (by omega) (by omega) (by omega)
    rw [hst, cacheApplyUserQuotaDelta, if_neg hfailed]

variable {share : Int64}

theorem step_flush (hcurrent : (Call.flush share).Current s answer) :
    ∃ st, (Call.flush share).step s.stores answer = (st, []) ∧ st.cache = s.stores.cache ∧
      s.stores.booked + share.toInt ≤ st.booked := by
  simp only [Call.step]
  split_ifs with hfailed hzero
  · exact ⟨_, rfl, rfl, by simp [hzero]⟩
  · have hrecord := le_addNewRecord (hcurrent hfailed)
    refine ⟨_, rfl, rfl, ?_⟩
    simp only [Stores.booked, Stores.record]
    omega
  · refine ⟨_, rfl, rfl, ?_⟩
    simp only [Stores.booked]
    omega

theorem effect_flush (hcall : s.calls[i]? = some (.flush share))
    (hcurrent : (Call.flush share).Current s answer) : Effect s (step s (.advance i answer)) (.advance i answer) := by
  obtain ⟨_, hstep, hcache, _⟩ := step_flush hcurrent
  obtain ⟨hst, hfree, howed, hdue⟩ := advance_totals hcall hstep
  simp only [weight_nil, Call.share, Call.held, Call.owed, Call.delta] at hfree howed hdue
  exact .kept (fun c hc => ⟨by rwa [hst, hcache] at hc, by omega⟩) (by omega) (by omega)

end Advance

theorem start_totals (hcalls : s'.calls = s.calls ++ calls) :
    s'.free = s.free + (s'.stores.booked - s.stores.booked) + weight Call.share calls - weight Call.held calls ∧
    s'.owed = s.owed + weight Call.owed calls ∧
    s'.due = s.due + (s'.free - s.free) - weight Call.owed calls - weight Call.delta calls := by
  simp only [Wallet.due, Wallet.free, Wallet.balance, Wallet.held, Wallet.owed, Wallet.undelivered, hcalls,
    weight_append]
  refine ⟨?_, trivial, ?_⟩ <;> omega

theorem effect_start (hidle : ∀ c ∈ calls, c.Idle) : Effect s (s.start calls) e := by
  obtain ⟨_, _, _, _⟩ := weight_idle hidle
  have hstores : (s.start calls).stores = s.stores := rfl
  obtain ⟨hfree', _, _⟩ := start_totals (rfl : (s.start calls).calls = s.calls ++ calls)
  rw [hstores] at hfree'
  exact .kept (fun c hc => ⟨hc, by omega⟩) (by omega) (by omega)

theorem Effect.refl (s : Wallet) (e : Event) : Effect s s e :=
  .kept (fun _ hc => ⟨hc, le_refl _⟩) (le_refl _) rfl

theorem effect_increase {quota : Int64} (hquota : 0 ≤ quota) (hfits : s.stores.buffer.toInt + quota.toInt < 2 ^ 63)
    (hstores : s'.stores = s.stores.record quota) (hcalls : s'.calls = s.calls ++ [.cacheDelta quota.toInt]) :
    Effect s s' (.increaseUserQuota quota) := by
  have hrecord := le_addNewRecord hfits
  have hnonneg : 0 ≤ quota.toInt := Int64.le_iff_toInt_le.mp hquota
  obtain ⟨hfree, howed, hdue⟩ := start_totals hcalls
  simp only [hstores, weight_cons, weight_nil, Call.share, Call.held, Call.owed, Call.delta, Stores.booked,
    Stores.record] at hfree howed hdue
  refine .kept (fun c hc => ⟨?_, by omega⟩) (by omega) (by omega)
  rwa [hstores] at hc

theorem effect_charge {quota : Int64} (hquota : 0 ≤ quota) (hstores : s'.stores = s.stores)
    (hcalls : s'.calls = s.calls ++ [.cacheDelta (-quota.toInt), .decrease ⟨quota, hquota⟩]) :
    Effect s s' (.decreaseUserQuota quota) := by
  have hdebit : (Event.decreaseUserQuota quota).debit = quota.toInt := if_pos hquota
  obtain ⟨hfree, howed, hdue⟩ := start_totals hcalls
  simp only [hstores, weight_cons, weight_nil, Call.share, Call.held, Call.owed, Call.delta, Amount.toInt]
    at hfree howed hdue
  exact .charged (by rw [hstores]) (by omega) (by omega) (by omega)

theorem effect_batchUpdate (hstores : s'.stores = { s.stores with buffer := 0 })
    (hcalls : s'.calls = s.calls ++ [.flush s.stores.buffer]) : Effect s s' .batchUpdate := by
  obtain ⟨hfree, howed, hdue⟩ := start_totals hcalls
  simp only [hstores, weight_cons, weight_nil, Call.share, Call.held, Call.owed, Call.delta, Stores.booked,
    Int64.toInt_zero] at hfree howed hdue
  refine .kept (fun c hc => ⟨?_, by omega⟩) (by omega) (by omega)
  rwa [hstores] at hc

theorem effect (s : Wallet) (e : Event) (hcurrent : Current s e) : Effect s (step s e) e := by
  cases e with
  | tryReserveUserQuota =>
    simp only [step]
    split_ifs
    · exact effect_start (by simp [Call.Idle, Call.share, Call.held, Call.owed, Call.delta])
    · exact .refl s _
  | increaseUserQuota =>
    simp only [step]
    split_ifs with haccepted
    · exact effect_increase haccepted.1 (hcurrent haccepted) rfl rfl
    · exact .refl s _
  | decreaseUserQuota =>
    simp only [step]
    split_ifs with hnonneg
    · exact effect_charge hnonneg rfl rfl
    · exact .refl s _
  | getUserCache => exact effect_start (by simp [Call.Idle, Call.share, Call.held, Call.owed, Call.delta])
  | batchUpdate => exact effect_batchUpdate rfl rfl
  | expire => exact .kept (fun c hc => (nomatch hc)) (le_refl _) rfl
  | advance i answer =>
    cases hcall : s.calls[i]? with
    | none =>
      have hsame : step s (.advance i answer) = s := by simp only [step, hcall]
      rw [hsame]
      exact .refl s _
    | some call =>
      have hcall_current : call.Current s answer := by simpa [Current, hcall] using hcurrent
      cases call with
      | tryReserve quota at_ =>
        cases at_ with
        | script => exact effect_script hcall (.inl rfl)
        | hydrate => exact effect_hydration hcall (.inl ⟨quota, rfl⟩) hcall_current
        | retry => exact effect_script hcall (.inr rfl)
        | fallback => exact effect_fallback hcall hcall_current
        | persist => exact effect_persist hcall
      | getUserCache => exact effect_hydration hcall (.inr rfl) hcall_current
      | decrease => exact effect_decrease hcall
      | cacheDelta => exact effect_cacheDelta hcall hcall_current
      | flush => exact effect_flush hcall hcall_current

/-! ## The invariants -/

/-- The hash promises no more than what the balance will be when all calls are done. -/
def Synced (s : Wallet) : Prop := ∀ c ∈ s.stores.cache, c ≤ s.due

theorem Synced.kept (hs : Synced s) (hcurrent : Current s e) : Synced (step s e) := by
  intro c hc
  rcases effect s e hcurrent with ⟨hcache, -, -⟩ | ⟨_, hcache, hdue, -, -⟩ |
    ⟨row, hrow, hcache, hdue, -, -⟩ | ⟨hcache, -, -⟩ | ⟨n, -, hcache, hdue, -, -⟩ | ⟨hcache, hdue, -, -⟩ |
    ⟨q, -, hcache, hdue, -, -⟩
  · obtain ⟨hmem, _⟩ := hcache c hc
    have hold := hs c hmem
    omega
  · rw [hcache] at hc
    obtain ⟨c', hc', rfl⟩ := map_eq_some_iff.mp hc
    have hold := hs c' hc'
    omega
  · obtain rfl : row = c := mem_unique hcache hc
    omega
  · exact hcache c hc
  · rcases hcache c hc with hmem | hle
    · have hold := hs (c + n) hmem
      omega
    · exact hle
  · have hold := hs c (hcache ▸ hc)
    omega
  · have hold := hs c (hcache ▸ hc)
    omega

/-- What the script grants is in the hash, and what is in the hash is free. -/
theorem Synced.script_le (hs : Synced s) (hlag : 0 ≤ s.undelivered + s.owed)
    (hok : (cacheTryReserveUserQuota s.stores answer quota.toInt).1 = some .ok) : quota.toInt ≤ s.free := by
  rcases cacheTryReserveUserQuota_cases with ⟨hnot, -⟩ | ⟨c, hc, _, -⟩
  · exact absurd hok hnot
  · have hcached := hs c hc
    simp only [Wallet.due, Wallet.free] at hcached ⊢
    omega

theorem fallback_le (hrow : s.stores.quota ≤ s.free)
    (hok : (reserveUserQuotaDB s.stores answer quota.toInt).1 = true) : quota.toInt ≤ s.free := by
  rcases reserveUserQuotaDB_cases s.stores answer quota.toInt with hdb | ⟨_, -⟩
  · rw [hdb] at hok
    exact absurd hok (by simp)
  · omega

/-- A reservation that is decided in a wallet in step with its hash is covered by the balance, also after
the grants that wait for their record. -/
theorem Synced.reserved_le {n : Int} (hs : Synced s) (hcurrent : Current s e) (hn : reserved s e = some n) :
    n ≤ s.free := by
  cases e with
  | tryReserveUserQuota =>
    simp only [reserved] at hn
    split_ifs at hn with hzero
    have hcovered := hcurrent hzero
    obtain rfl : 0 = n := some.inj hn
    simp only [Wallet.free]
    omega
  | advance i answer =>
    simp only [reserved] at hn
    cases hcall : s.calls[i]? with
    | none => simp [hcall] at hn
    | some call =>
      have hcall_current : call.Current s answer := by simpa [Current, hcall] using hcurrent
      rw [hcall] at hn
      split at hn
      case h_4 => cases hn
      all_goals
        rename_i quota heq
        obtain rfl := some.inj heq
        split_ifs at hn with hok
        obtain rfl : quota.toInt = n := some.inj hn
      · exact hs.script_le (hcall_current hok) hok
      · exact hs.script_le (hcall_current hok) hok
      · exact fallback_le (hcall_current hok).2 hok
  | increaseUserQuota | decreaseUserQuota | getUserCache | batchUpdate | expire => cases hn

/-- What the balance lacks after the grants under way has been taken by settlements; `d` is what they
have been told to take, recorded or not. -/
structure Funded (s : Wallet) (d : Int) : Prop where
  owed : s.owed ≤ d
  free : s.owed ≤ s.free + d

theorem Funded.kept (h : Funded s d) (hs : Synced s) (hcurrent : Current s e) : Funded (step s e) (d + e.debit) := by
  obtain ⟨_, _⟩ := h
  have hdebit := e.debit_nonneg
  rcases effect s e hcurrent with ⟨-, hfree, howed'⟩ | ⟨_, -, -, hfree, howed'⟩ |
    ⟨row, -, -, -, hfree, howed'⟩ | ⟨-, hfree, howed'⟩ | ⟨n, hn, -, -, hfree, howed'⟩ | ⟨-, -, hfree, howed'⟩ |
    ⟨q, hq, -, -, hfree, howed'⟩
  · constructor <;> omega
  · constructor <;> omega
  · constructor <;> omega
  · constructor <;> omega
  · have hcovered := hs.reserved_le hcurrent hn
    constructor <;> omega
  · constructor <;> omega
  · constructor <;> omega

/-- What the settlements of a run have been told to take. -/
def debits (l : List Event) : Int := weight Event.debit l

theorem Funded.over_run {l : List Event} (h : Funded s d) (hs : Synced s) (hl : Along step Current s l) :
    Funded (run step s l) (d + debits l) := by
  induction l generalizing s d with
  | nil => simpa [debits] using h
  | cons e l ih =>
    have hrest := ih (h.kept hs hl.1) (hs.kept hl.1) hl.2
    have hdebits : d + debits (e :: l) = d + e.debit + debits l := by
      rw [debits, weight_cons, debits]
      omega
    rwa [run_cons, hdebits]

/-! ## Reservations over a run -/

/-- **Along a run whose steps keep the hash behind the balance, every reservation is covered**: when a
`TryReserveUserQuota` of `n` is decided, the true balance is at least `n`, and the balance of a wallet
that began without debt is never short by more than what settlements have taken. -/
theorem reservations_covered (s : Wallet) (l : List Event) (hquiet : s.calls = [])
    (hcache : ∀ c ∈ s.stores.cache, c ≤ s.balance) (hl : Along step Current s l) :
    (∀ done e rest n, l = done ++ e :: rest → reserved (run step s done) e = some n → n ≤ (run step s done).balance) ∧
    (0 ≤ s.balance → ∀ done rest, l = done ++ rest → 0 ≤ (run step s done).balance + debits done) := by
  have hheld : s.held = 0 := by rw [Wallet.held, hquiet, weight_nil]
  have howed : s.owed = 0 := by rw [Wallet.owed, hquiet, weight_nil]
  have hundelivered : s.undelivered = 0 := by rw [Wallet.undelivered, hquiet, weight_nil]
  have hs : Synced s := by
    intro c hc
    have hle := hcache c hc
    simp only [Wallet.due]
    omega
  constructor
  · intro done e rest n hsplit hn
    rw [hsplit] at hl
    obtain ⟨hdone, hrest⟩ := along_append.mp hl
    have hsynced : Synced (run step s done) := run_invariant (fun _ _ h hcurrent => Synced.kept h hcurrent) hs hdone
    have hcovered := hsynced.reserved_le hrest.1 hn
    have hheld_nonneg := (run step s done).held_nonneg
    simp only [Wallet.free] at hcovered
    omega
  · intro hbalance done rest hsplit
    rw [hsplit] at hl
    have hfunded : Funded s 0 := by
      constructor
      · omega
      · simp only [Wallet.free]
        omega
    obtain ⟨-, hfree⟩ := hfunded.over_run hs (along_append.mp hl).1
    have hheld_nonneg := (run step s done).held_nonneg
    have howed_nonneg := (run step s done).owed_nonneg
    simp only [Wallet.free] at hfree
    omega

def sampleWallet : Wallet := { stores := { quota := 10, buffer := 0, cache := none }, calls := [] }

/-- A reservation of 8 from a wallet without hash: a miss, the hydration, the grant, the record. -/
def reserveEight : List Event :=
  [.tryReserveUserQuota 8, .advance 0 .ok, .advance 0 .ok, .advance 0 .ok, .advance 0 .ok,
    .advance 0 .ok, .advance 0 .ok]

/-- A settlement of 1, a refund of 5 whose delta reaches the hash after a flush. -/
def settleAndFlush : List Event :=
  [.decreaseUserQuota 1, .advance 0 .ok, .advance 0 .ok, .increaseUserQuota 5, .batchUpdate,
    .advance 1 .ok, .advance 0 .ok]

theorem reservations_covered_sample :
    6 ≤ (run step sampleWallet (reserveEight ++ settleAndFlush ++ [.tryReserveUserQuota 6])).balance :=
  (reservations_covered sampleWallet
    (reserveEight ++ settleAndFlush ++ [.tryReserveUserQuota 6] ++ [.advance 0 .ok]) rfl (nofun)
    (by decide +kernel)).1 _ (.advance 0 .ok) [] 6 rfl (by decide +kernel)

/-- The hash expires while the 8 of a reservation are buffered: the next hydration reads the column, which
still has 10, and 8 are reserved again from a balance of 2. -/
theorem expired_hash_reserves_twice : sampleWallet.balance = 10 ∧ (run step sampleWallet reserveEight).balance = 2 ∧
    reserved (run step sampleWallet (reserveEight ++ [.expire] ++ reserveEight.take 5)) (.advance 0 .ok) = some 8 ∧
    ¬8 ≤ (run step sampleWallet (reserveEight ++ [.expire] ++ reserveEight.take 5)).balance ∧
    (run step sampleWallet (reserveEight ++ [.expire] ++ reserveEight)).balance = -6 := by
  decide +kernel

end CubeRouter.Quota
