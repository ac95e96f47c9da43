import CubeRouter.Payment.ManualCompletion
import CubeRouter.Payment.Redemption
import CubeRouter.Quota.Cache

/-!
# Credits and the cached balance

With Redis on, requests are paid from the field `Quota` of the user's hash, so a credit of `users.quota` has to be
repeated there. Every path that credits a wallet does it on its own: after its transaction it calls
`syncCreditUserQuotaCache`, or it starts a goroutine. `updates` are the updates of the hash that were asked for and
not yet made.

`RechargeAlipay` and `DispatchRedemptionToUser` do not ask for one, and neither the dispatch nor the check-in of
`userCheckinWithTransaction` looks at the ceiling of the wallet.
-/

namespace CubeRouter.Payment

open Relational Transition Option

/-! ## The daily check-in -/

structure Checkin where
  userId : Nat
  checkinDate : String
  quotaAwarded : Int

structure CheckinSetting where
  enabled : Bool := false
  minQuota : Int := 1000
  maxQuota : Int := 10000

/-- An update of the field `Quota` of a hash that was asked for. -/
structure CacheUpdate where
  userId : Nat
  delta : Int

structure Wallets extends Store where
  checkins : List Checkin := []
  /-- The field `Quota` of each hash; `none` while there is no hash. -/
  cache : Nat → Option Int := fun _ => none
  updates : List CacheUpdate := []

inductive CheckinError
  | notEnabled
  | alreadyChecked
  | createFailed
  | quotaFailed

def CheckinError.message : CheckinError → String
  | .notEnabled => "签到功能未启用"
  | .alreadyChecked => "今日已签到"
  | .createFailed => "签到失败，请稍后重试"
  | .quotaFailed => "签到失败：更新额度出错"

inductive IncreaseError
  | negative
  | quotaTooLarge
  | recordNotFound
  | walletQuotaLimitExceeded

def IncreaseError.message : IncreaseError → String
  | .negative => "quota 不能为负数！"
  | .quotaTooLarge => "wallet quota exceeds 9007199254740991"
  | .recordNotFound => "record not found"
  | .walletQuotaLimitExceeded => "wallet quota limit exceeded"

def increaseUserQuotaDB (id : Nat) (quota : Int) (s : Wallets) : Except IncreaseError Wallets :=
  match s.users.get? id with
  | none => .error .recordNotFound
  | some user =>
    if user.quota ≤ Billing.maxWalletQuota - quota then .ok { s with toStore := s.toStore.addQuota id quota }
    else .error .walletQuotaLimitExceeded

/-- `IncreaseUserQuota` with `db = true`, which goes past the batch buffer. -/
def increaseUserQuota (id : Nat) (quota : Int) (s : Wallets) :
    Except IncreaseError (List CacheUpdate × Wallets) :=
  if quota < 0 then
    .error .negative
  else if Billing.maxWalletQuota < quota then
    .error .quotaTooLarge
  else
    match increaseUserQuotaDB id quota s with
    | .error e => .error e
    | .ok s => .ok ([⟨id, quota⟩], s)

def hasCheckedIn (s : Wallets) (userId : Nat) (date : String) : Bool :=
  s.checkins.any fun c => c.userId = userId ∧ c.checkinDate = date

/-- `random` is the number that `rand` draws. -/
def CheckinSetting.award (setting : CheckinSetting) (random : Nat) : Int :=
  if setting.minQuota < setting.maxQuota then
    setting.minQuota + random % (setting.maxQuota - setting.minQuota + 1)
  else setting.minQuota

/-- `(user_id, checkin_date)` is a unique index. -/
def createCheckin (checkin : Checkin) (s : Wallets) : Option Wallets :=
  if hasCheckedIn s checkin.userId checkin.checkinDate then none
  else some { s with checkins := checkin :: s.checkins }

/-- The `UPDATE` has no ceiling and does not look at the number of rows. -/
def userCheckinWithTransaction (checkin : Checkin) (userId : Nat) (quotaAwarded : Int) (s : Wallets) :
    Except CheckinError (List CacheUpdate × Wallets) :=
  match createCheckin checkin s with
  | none => .error .createFailed
  | some s => .ok ([⟨userId, quotaAwarded⟩], { s with toStore := s.toStore.addQuota userId quotaAwarded })

/-- On failure the record is deleted again. -/
def userCheckinWithoutTransaction (checkin : Checkin) (userId : Nat) (quotaAwarded : Int) (s : Wallets) :
    Except CheckinError (List CacheUpdate × Wallets) :=
  match createCheckin checkin s with
  | none => .error .createFailed
  | some s =>
    match increaseUserQuota userId quotaAwarded s with
    | .error _ => .error .quotaFailed
    | .ok r => .ok r

def userCheckin (setting : CheckinSetting) (sqlite : Bool) (today : String) (random userId : Nat) (s : Wallets) :
    Except CheckinError (List CacheUpdate × Wallets) :=
  if ¬setting.enabled then
    .error .notEnabled
  else if hasCheckedIn s userId today then
    .error .alreadyChecked
  else
    let quotaAwarded := setting.award random
    let checkin : Checkin := ⟨userId, today, quotaAwarded⟩
    if sqlite then userCheckinWithoutTransaction checkin userId quotaAwarded s
    else userCheckinWithTransaction checkin userId quotaAwarded s

/-! ## The credits -/

inductive CreditCall
  | providerCallback (settings : Settings) (now : Int) (n : Notification) (provider : PaymentProvider)
      (tradeNo : String)
  | manualCompleteTopUp (settings : Settings) (now : Int) (tradeNo : String)
  | redeem (now : Int) (key : String) (userId : Nat)
  | dispatchRedemptionToUser (now : Int) (campaignId ownerAdminId userId : Nat)
  | userCheckin (setting : CheckinSetting) (sqlite : Bool) (today : String) (random userId : Nat)

inductive CreditError
  | topUp (error : TopUpError)
  | redemption (error : RedemptionError)
  | checkin (error : CheckinError)

def syncCreditUserQuotaCache (userId : Nat) (quota : Int) : List CacheUpdate :=
  if quota ≤ 0 then [] else [⟨userId, quota⟩]

/-- A completion passes the user of the order it has locked; nothing was credited when the order was successful
before. -/
def syncCompletion (db : DB) (tradeNo : String) (credited : Option Int) : List CacheUpdate :=
  match findTopUp db tradeNo with
  | none => []
  | some (_, topUp) => syncCreditUserQuotaCache topUp.userId (credited.getD 0)

def CreditCall.call (c : CreditCall) (s : Wallets) : Except CreditError (List CacheUpdate × Wallets) :=
  match c with
  | .providerCallback settings now n provider tradeNo =>
    match Payment.providerCallback settings now n provider tradeNo s.toDB with
    | .error e => .error (.topUp e)
    | .ok (credited, db) =>
      -- the Alipay callback ends with its log
      .ok (if provider = .alipay then [] else syncCompletion s.toDB tradeNo credited,
        { s with toStore := { s.toStore with toDB := db } })
  | .manualCompleteTopUp settings now tradeNo =>
    match Payment.manualCompleteTopUp settings now tradeNo s.toDB with
    | .error e => .error (.topUp e)
    | .ok (credited, db) =>
      .ok (syncCompletion s.toDB tradeNo credited, { s with toStore := { s.toStore with toDB := db } })
  | .redeem now key userId =>
    match Payment.redeem now key userId s.toStore with
    | .error e => .error (.redemption e)
    | .ok (quota, store) => .ok (syncCreditUserQuotaCache userId quota, { s with toStore := store })
  | .dispatchRedemptionToUser now campaignId ownerAdminId userId =>
    match Payment.dispatchRedemptionToUser now campaignId ownerAdminId userId s.toStore with
    | .error e => .error (.redemption e)
    | .ok (_, store) => .ok ([], { s with toStore := store })
  | .userCheckin setting sqlite today random userId =>
    match Payment.userCheckin setting sqlite today random userId s with
    | .error e => .error (.checkin e)
    | .ok r => .ok r

/-- A call, or one of the updates that were asked for, with the answer of Redis. -/
inductive CreditEvent
  | call (c : CreditCall)
  | update (i : Nat) (answer : Quota.Answer)

/-- What a reservation of the user works on; nothing is buffered. -/
def Wallets.stores (s : Wallets) (u : Nat) : Quota.Stores where
  quota := ((s.users.get? u).map User.quota).getD 0
  buffer := 0
  cache := s.cache u

def Wallets.step (s : Wallets) : CreditEvent → Wallets
  | .call c =>
    match c.call s with
    | .error _ => s
    | .ok (updates, s') => { s' with updates := s'.updates ++ updates }
  | .update i answer =>
    match s.updates[i]? with
    | none => s
    | some p =>
      { s with
        updates := s.updates.eraseIdx i
        cache := Function.update s.cache p.userId
          (Quota.cacheApplyUserQuotaDelta (s.stores p.userId) answer p.delta).cache }

/-! ## When a credit is mirrored -/

/-- The call does nothing to user `u` that the cache is not told of, and nothing beyond the ceiling: an Alipay
callback has no order of `u` to credit, a dispatch for `u` finds an empty pool, and a check-in that is one
transaction leaves room in the wallet. -/
def CreditCall.Mirrors (u : Nat) (s : Wallets) : CreditCall → Prop
  | .providerCallback settings _ _ .alipay tradeNo =>
    ∀ id topUp q, findTopUp s.toDB tradeNo = some (id, topUp) → topUp.userId = u →
      topUp.paymentProvider = .alipay → topUp.status = .pending → alipayQuota settings topUp = .ok q →
      ¬Creditable s.toDB u q
  | .dispatchRedemptionToUser now campaignId ownerAdminId userId =>
    userId = u → ∀ i r, s.redemptions.get? i = some r → r.available now campaignId ownerAdminId = false
  | .userCheckin setting false today random userId =>
    userId = u → setting.enabled = true → hasCheckedIn s u today = false →
      ∀ user, s.users.get? u = some user → user.quota + setting.award random ≤ Billing.maxWalletQuota
  | _ => True

/-- The same of an event; Redis makes the updates of `u`. -/
def CreditEvent.Mirrors (u : Nat) (s : Wallets) : CreditEvent → Prop
  | .call c => c.Mirrors u s
  | .update i answer => ∀ p, s.updates[i]? = some p → p.userId = u → answer ≠ .failed

/-- What the updates will add to the hash of `u`. -/
def owed (u : Nat) (updates : List CacheUpdate) : Int :=
  Pool.weight (fun p => if p.userId = u then p.delta else 0) updates

/-- What a call does as far as `u` is concerned: what it adds to the wallet is what it asks to add to the hash, and
a wallet that it changes is not above the ceiling. -/
structure Mirrored (u : Nat) (s s' : Wallets) (updates : List CacheUpdate) : Prop where
  cache : s'.cache = s.cache
  pending : s'.updates = s.updates
  wallet : ∀ user, s.users.get? u = some user → ∃ user', s'.users.get? u = some user' ∧
    user'.quota = user.quota + owed u updates ∧ (user'.quota = user.quota ∨ user'.quota ≤ Billing.maxWalletQuota)

variable {settings : Settings} {db db' : DB} {tradeNo : String} {now : Int} {u : Nat} {s s' : Wallets}
  {updates : List CacheUpdate}

theorem Mirrored.of_users_eq (hcache : s'.cache = s.cache) (hpending : s'.updates = s.updates)
    (husers : s'.users = s.users) : Mirrored u s s' [] := by
  refine ⟨hcache, hpending, fun user huser => ⟨user, husers ▸ huser, ?_, .inl rfl⟩⟩
  simp [owed]

variable {userId : Nat} {r : Option Int} {offset : Int} {g : User → User} {n : Notification}
  {provider : PaymentProvider} {q quota : Int} {store : Store} {e : CreditEvent}

theorem Mirrored.of_other (hcache : s'.cache = s.cache) (hpending : s'.updates = s.updates)
    (husers : s'.users = s.users.modify userId g) (hother : userId ≠ u) : Mirrored u s s' [] := by
  refine ⟨hcache, hpending, fun user huser => ⟨user, ?_, ?_, .inl rfl⟩⟩
  · rw [husers, Table.get?_modify_of_ne _ _ hother.symm, huser]
  · simp [owed]

theorem Mirrored.of_credit {delta : Int} (hcache : s'.cache = s.cache)
    (hpending : s'.updates = s.updates) (husers : s'.users = s.users.modify userId g)
    (hg : ∀ user, (g user).quota = user.quota + delta)
    (hroom : userId = u → ∀ user, s.users.get? u = some user → user.quota + delta ≤ Billing.maxWalletQuota) :
    Mirrored u s s' [⟨userId, delta⟩] := by
  refine ⟨hcache, hpending, fun user huser => ?_⟩
  by_cases hu : userId = u
  · subst hu
    refine ⟨g user, ?_, ?_, .inr ?_⟩
    · rw [husers, Table.get?_modify_self, huser]
      rfl
    · simp [owed, hg]
    · rw [hg]
      exact hroom rfl user huser
  · refine ⟨user, ?_, ?_, .inl rfl⟩
    · rw [husers, Table.get?_modify_of_ne _ _ (Ne.symm hu), huser]
    · simp [owed, hu]

/-! ## What the calls do -/

/-- A pending order was credited with `q`. -/
structure Topped (db db' : DB) (tradeNo : String) (id : Nat) (topUp : TopUp) (q : Int) : Prop where
  found : findTopUp db tradeNo = some (id, topUp)
  pending : topUp.status = .pending
  creditable : Creditable db topUp.userId q
  wallet : ∃ g : User → User, (∀ user, (g user).quota = user.quota + q) ∧
    db'.users = db.users.modify topUp.userId g

theorem Completion.run_topped {c : Completion} (hedit : ∀ topUp, (c.edit topUp).userId = topUp.userId)
    (h : c.run now tradeNo db = .ok (r, db')) :
    (r = none ∧ db' = db) ∨ ∃ id topUp q, r = some q ∧ Topped db db' tradeNo id topUp q ∧
      (∀ p ∈ c.provider, p = topUp.paymentProvider) ∧ c.quota (c.edit topUp) = .ok q := by
  rcases Completion.run_cases h with hnone | ⟨id, topUp, q, db1, rfl, -, hfound, hpending, hprovider, hwrite, rfl⟩
  · exact .inl hnone
  · obtain ⟨hq, hcreditable⟩ := Completion.write_iff.mp ⟨db1, hwrite⟩
    obtain ⟨-, rfl⟩ := Completion.write_ok hwrite
    rw [hedit] at hcreditable
    refine .inr ⟨id, topUp, q, rfl, ⟨hfound, hpending, hcreditable,
      fun user => { c.updates user with quota := user.quota + q }, fun _ => rfl, ?_⟩, hprovider, hq⟩
    rw [hedit]

theorem providerCallback_topped (h : providerCallback settings now n provider tradeNo db = .ok (r, db')) :
    (r = none ∧ db' = db) ∨ ∃ id topUp q, r = some q ∧ Topped db db' tradeNo id topUp q ∧
      (provider = .alipay → topUp.paymentProvider = .alipay ∧ alipayQuota settings topUp = .ok q) := by
  have forget : ∀ {c : Completion}, provider ≠ .alipay → (∀ topUp, (c.edit topUp).userId = topUp.userId) →
      c.run now tradeNo db = .ok (r, db') →
      (r = none ∧ db' = db) ∨ ∃ id topUp q, r = some q ∧ Topped db db' tradeNo id topUp q ∧
        (provider = .alipay → topUp.paymentProvider = .alipay ∧ alipayQuota settings topUp = .ok q) := by
    intro c hne hedit hrun
    rcases Completion.run_topped hedit hrun with hnone | ⟨id, topUp, q, hr, htopped, -, -⟩
    · exact .inl hnone
    · exact .inr ⟨id, topUp, q, hr, htopped, fun halipay => absurd halipay hne⟩
  cases provider with
  | unset | balance => cases h
  | epay =>
    refine forget (by decide) (fun topUp => ?_) h
    simp only
    split_ifs <;> rfl
  | stripe | creem | waffo | waffoPancake => exact forget (by decide) (fun _ => rfl) (rechargeFailed_ok h)
  | alipay =>
    rcases Completion.run_topped (fun _ => rfl) (rechargeFailed_ok h) with
      hnone | ⟨id, topUp, q, hr, htopped, hprovider, hq⟩
    · exact .inl hnone
    · exact .inr ⟨id, topUp, q, hr, htopped, fun _ => ⟨(hprovider .alipay rfl).symm, hq⟩⟩

theorem Creditable.room (h : Creditable db userId q) {user : User}
    (huser : db.users.get? userId = some user) : user.quota + q ≤ Billing.maxWalletQuota := by
  obtain ⟨-, -, user', huser', _⟩ := h
  obtain rfl : user' = user := mem_unique huser' huser
  omega

theorem Topped.mirrored {id : Nat} {topUp : TopUp} (h : Topped s.toDB db' tradeNo id topUp q) :
    Mirrored u s { s with toStore := { s.toStore with toDB := db' } } (syncCompletion s.toDB tradeNo (some q)) := by
  obtain ⟨hfound, -, hcreditable, g, hg, husers⟩ := h
  have hpos : ¬q ≤ 0 := not_le.mpr hcreditable.1
  simp only [syncCompletion, hfound, getD_some, syncCreditUserQuotaCache, if_neg hpos]
  refine Mirrored.of_credit rfl rfl husers hg fun hu user huser => ?_
  rw [← hu] at huser
  exact hcreditable.room huser

theorem syncCompletion_none : syncCompletion db tradeNo none = [] := by
  unfold syncCompletion
  split <;> rfl

theorem providerCallback_mirrored
    (hmirrors : (CreditCall.providerCallback settings now n provider tradeNo).Mirrors u s)
    (h : providerCallback settings now n provider tradeNo s.toDB = .ok (r, db')) :
    Mirrored u s { s with toStore := { s.toStore with toDB := db' } }
      (if provider = .alipay then [] else syncCompletion s.toDB tradeNo r) := by
  rcases providerCallback_topped h with ⟨rfl, rfl⟩ | ⟨id, topUp, q, rfl, htopped, hquota⟩
  · rw [syncCompletion_none, ite_self]
    exact Mirrored.of_users_eq rfl rfl rfl
  · split_ifs with halipay
    · obtain ⟨hprovider, hq⟩ := hquota halipay
      subst halipay
      obtain ⟨g, -, husers⟩ := htopped.wallet
      -- the order is not one of `u`: it would have been credited without an update
      refine Mirrored.of_other rfl rfl husers fun hu => ?_
      exact hmirrors id topUp q htopped.found hu hprovider htopped.pending hq (hu ▸ htopped.creditable)
    · exact htopped.mirrored

theorem redeem_mirrored {key : String} (h : redeem now key userId s.toStore = .ok (quota, store)) :
    Mirrored u s { s with toStore := store } (syncCreditUserQuotaCache userId quota) := by
  obtain ⟨_, _, hpaid, rfl, hpos, -, -⟩ := redeem_ok h
  obtain ⟨_, _, husers⟩ := hpaid.wallet
  simp only [syncCreditUserQuotaCache, if_neg (not_le.mpr hpos)]
  refine Mirrored.of_credit rfl rfl husers (fun _ => rfl) fun hu user' huser' => ?_
  rw [← hu] at huser'
  exact redeem_room h huser'

theorem dispatch_mirrored {campaignId ownerAdminId : Nat} {drawn : Option (Nat × Redemption)}
    (hmirrors : (CreditCall.dispatchRedemptionToUser now campaignId ownerAdminId userId).Mirrors u s)
    (h : dispatchRedemptionToUser now campaignId ownerAdminId userId s.toStore = .ok (drawn, store)) :
    Mirrored u s { s with toStore := store } [] := by
  rcases dispatchRedemptionToUser_ok h with ⟨-, rfl, -⟩ | ⟨id, redemption, -, hpaid, havailable, -, -⟩
  · exact Mirrored.of_users_eq rfl rfl rfl
  · obtain ⟨_, -, husers⟩ := hpaid.wallet
    refine Mirrored.of_other rfl rfl husers fun hu => ?_
    have hempty : redemption.available now campaignId ownerAdminId = false := hmirrors hu id redemption hpaid.get
    rw [havailable] at hempty
    cases hempty

theorem createCheckin_some {checkin : Checkin} (h : createCheckin checkin s = some s') :
    s' = { s with checkins := checkin :: s.checkins } := by
  unfold createCheckin at h
  split_ifs at h
  exact (some.inj h).symm

theorem increaseUserQuota_mirrored (h : increaseUserQuota userId quota s = .ok (updates, s')) :
    Mirrored u s s' updates := by
  unfold increaseUserQuota at h
  split_ifs at h
  split at h
  · cases h
  · rename_i s1 hdb
    cases h
    unfold increaseUserQuotaDB at hdb
    split at hdb
    · cases hdb
    · rename_i user huser
      split_ifs at hdb with hroom
      cases hdb
      refine Mirrored.of_credit rfl rfl rfl (fun _ => rfl) fun hu user' huser' => ?_
      obtain rfl : user = user' := some.inj (huser.symm.trans (hu ▸ huser'))
      omega

theorem userCheckin_mirrored {setting : CheckinSetting} {sqlite : Bool} {today : String} {random : Nat}
    (hmirrors : (CreditCall.userCheckin setting sqlite today random userId).Mirrors u s)
    (h : userCheckin setting sqlite today random userId s = .ok (updates, s')) : Mirrored u s s' updates := by
  unfold userCheckin at h
  split_ifs at h with henabled hchecked hsqlite
  · simp only [userCheckinWithoutTransaction] at h
    split at h
    · cases h
    · rename_i s1 hcreate
      obtain rfl := createCheckin_some hcreate
      split at h
      · cases h
      · rename_i r hincrease
        cases h
        -- the record of the check-in is not read by the wallet
        exact ⟨(increaseUserQuota_mirrored (u := u) hincrease).cache,
          (increaseUserQuota_mirrored (u := u) hincrease).pending, (increaseUserQuota_mirrored hincrease).wallet⟩
  · simp only [userCheckinWithTransaction] at h
    split at h
    · cases h
    · rename_i s1 hcreate
      obtain rfl := createCheckin_some hcreate
      cases h
      obtain rfl : sqlite = false := by simpa using hsqlite
      refine Mirrored.of_credit rfl rfl rfl (fun _ => rfl) fun hu => ?_
      subst hu
      exact hmirrors rfl (by simpa using henabled) (by simpa using hchecked)

theorem CreditCall.mirrored {c : CreditCall} (hmirrors : c.Mirrors u s) (h : c.call s = .ok (updates, s')) :
    Mirrored u s s' updates := by
  cases c with
  | providerCallback =>
    simp only [CreditCall.call] at h
    split at h
    · cases h
    · rename_i credited db hcall
      cases h
      exact providerCallback_mirrored hmirrors hcall
  | manualCompleteTopUp =>
    simp only [CreditCall.call] at h
    split at h
    · cases h
    · rename_i credited db hcall
      cases h
      rcases Completion.run_topped (fun _ => rfl) hcall with ⟨rfl, rfl⟩ | ⟨_, _, q, rfl, htopped, -, -⟩
      · rw [syncCompletion_none]
        exact Mirrored.of_users_eq rfl rfl rfl
      · exact htopped.mirrored
  | redeem =>
    simp only [CreditCall.call] at h
    split at h
    · cases h
    · rename_i quota store hcall
      cases h
      exact redeem_mirrored hcall
  | dispatchRedemptionToUser =>
    simp only [CreditCall.call] at h
    split at h
    · cases h
    · rename_i drawn store hcall
      cases h
      exact dispatch_mirrored hmirrors hcall
  | userCheckin =>
    simp only [CreditCall.call] at h
    split at h
    · cases h
    · rename_i r hcall
      cases h
      exact userCheckin_mirrored hmirrors hcall

/-! ## Runs -/

/-- The hash of `u`, with all it is still owed, is `offset` ahead of the wallet. -/
def InStep (u : Nat) (offset : Int) (s : Wallets) : Prop :=
  ∃ user cached, s.users.get? u = some user ∧ s.cache u = some cached ∧
    cached + owed u s.updates = user.quota + offset

/-- No credit has left the wallet of `u` above the ceiling. -/
def Capped (u : Nat) (s s' : Wallets) : Prop :=
  ∀ user user', s.users.get? u = some user → s'.users.get? u = some user' →
    user'.quota = user.quota ∨ user'.quota ≤ Billing.maxWalletQuota

theorem owed_append (l l' : List CacheUpdate) : owed u (l ++ l') = owed u l + owed u l' :=
  Pool.weight_append _ l l'

theorem Capped.refl (s : Wallets) : Capped u s s := by
  intro user user' huser huser'
  rw [huser] at huser'
  rw [some.inj huser']
  exact .inl rfl

theorem Mirrored.capped (h : Mirrored u s s' updates) : Capped u s { s' with updates := s'.updates ++ updates } := by
  intro user user' huser huser'
  obtain ⟨user1, huser1, -, hcapped⟩ := h.wallet user huser
  obtain rfl : user1 = user' := mem_unique huser1 huser'
  exact hcapped

theorem step_capped (hmirrors : e.Mirrors u s) : Capped u s (s.step e) := by
  cases e with
  | call =>
    simp only [Wallets.step]
    split
    · exact Capped.refl s
    · rename_i updates s' hcall
      exact (CreditCall.mirrored hmirrors hcall).capped
  | update =>
    simp only [Wallets.step]
    split <;> exact Capped.refl s

theorem InStep.mirrored (h : InStep u offset s) (hmirrored : Mirrored u s s' updates) :
    InStep u offset { s' with updates := s'.updates ++ updates } := by
  obtain ⟨user, cached, huser, hcached, _⟩ := h
  obtain ⟨user', huser', hquota, -⟩ := hmirrored.wallet user huser
  refine ⟨user', cached, huser', ?_, ?_⟩
  · rw [hmirrored.cache]
    exact hcached
  · rw [owed_append, hmirrored.pending, hquota]
    omega

theorem InStep.update {i : Nat} {p : CacheUpdate} {answer : Quota.Answer} (h : InStep u offset s)
    (hp : s.updates[i]? = some p) (hanswer : p.userId = u → answer ≠ .failed) :
    InStep u offset { s with
      updates := s.updates.eraseIdx i
      cache := Function.update s.cache p.userId
        (Quota.cacheApplyUserQuotaDelta (s.stores p.userId) answer p.delta).cache } := by
  obtain ⟨user, cached, huser, hcached, _⟩ := h
  have howed : owed u s.updates = owed u (s.updates.eraseIdx i) + if p.userId = u then p.delta else 0 :=
    Pool.weight_get _ hp
  by_cases hu : p.userId = u
  · subst hu
    refine ⟨user, cached + p.delta, huser, ?_, ?_⟩
    · simp [Quota.cacheApplyUserQuotaDelta, hanswer rfl, Wallets.stores, hcached]
    · show cached + p.delta + owed p.userId (s.updates.eraseIdx i) = user.quota + offset
      omega
  · refine ⟨user, cached, huser, ?_, ?_⟩
    · rw [← hcached]
      exact Function.update_of_ne (Ne.symm hu) _ _
    · show cached + owed u (s.updates.eraseIdx i) = user.quota + offset
      omega

theorem InStep.step (h : InStep u offset s) (hmirrors : e.Mirrors u s) : InStep u offset (s.step e) := by
  cases e with
  | call =>
    simp only [Wallets.step]
    split
    · exact h
    · rename_i updates s' hcall
      exact h.mirrored (CreditCall.mirrored hmirrors hcall)
  | update =>
    simp only [Wallets.step]
    split
    · exact h
    · rename_i p hp
      exact h.update hp (hmirrors p hp)

/-- The script of `TryReserveUserQuota` grants what the hash has. -/
theorem reserve_ok_iff {cached amount : Int} (h : s.cache u = some cached) :
    (Quota.cacheTryReserveUserQuota (s.stores u) .ok amount).1 = some .ok ↔ amount ≤ cached := by
  unfold Quota.cacheTryReserveUserQuota Wallets.stores
  rw [if_neg (by decide), h]
  simp only
  split_ifs with hless
  · simp only [some.injEq, reduceCtorEq, false_iff, not_le]
    exact hless
  · simp only [true_iff]
    omega

/-- **Credits reach the cached balance.** Take a user whose hash is cached and a run of credits and of the cache
updates they ask for. If no credit of the user goes past the cache or the ceiling and Redis makes the updates, the
hash has grown by what the wallet has grown as soon as no update is outstanding, so that a reservation is granted
from all of it, and no step has left the wallet above the ceiling. -/
theorem credits_reach_cache (s : Wallets) (hidle : s.updates = []) (u : Nat) (user : User) (cached : Int)
    (huser : s.users.get? u = some user) (hcached : s.cache u = some cached) (events : List CreditEvent)
    (hrun : Along Wallets.step (fun s e => e.Mirrors u s) s events) :
    (∃ user' cached', (run Wallets.step s events).users.get? u = some user' ∧
      (run Wallets.step s events).cache u = some cached' ∧ (owed u (run Wallets.step s events).updates = 0 →
        cached' - cached = user'.quota - user.quota ∧ ∀ amount,
          (Quota.cacheTryReserveUserQuota ((run Wallets.step s events).stores u) .ok amount).1 = some .ok ↔
            amount ≤ cached + (user'.quota - user.quota))) ∧ ∀ done e rest, events = done ++ e :: rest →
      Capped u (run Wallets.step s done) (run Wallets.step s (done ++ [e])) := by
  constructor
  · have hstart : InStep u (cached - user.quota) s := by
      refine ⟨user, cached, huser, hcached, ?_⟩
      rw [hidle, owed, Pool.weight_nil]
      omega
    have hend : InStep u (cached - user.quota) (run Wallets.step s events) :=
      run_invariant (fun s e h hmirrors => h.step hmirrors) hstart hrun
    obtain ⟨user', cached', huser', hcached', _⟩ := hend
    refine ⟨user', cached', huser', hcached', fun hnone => ⟨by omega, fun amount => ?_⟩⟩
    rw [reserve_ok_iff hcached']
    omega
  · intro done e rest hevents
    subst hevents
    rw [run_append]
    exact step_capped (along_append.mp hrun).2.1

/-! An Alipay order over one unit, for a user whose hash is cached with an empty wallet. -/

def alipayOrder : TopUp := { userId := 1, amount := 1, tradeNo := "A1", paymentProvider := .alipay }

def alipayWallets : Wallets :=
  { topUps := Table.empty.insert alipayOrder
    users := Table.empty.insert {}
    cache := fun _ => some 0 }

/-! A code of a campaign, for a user whose wallet is at the ceiling. -/

def dispatchWallets : Wallets :=
  { users := Table.empty.insert { quota := Billing.maxWalletQuota }
    redemptions := Table.empty.insert { key := "K1", quota := 5, ownerAdminId := 7, campaignId := 3 }
    cache := fun _ => some Billing.maxWalletQuota }

/-- The order is in the wallet, no update is outstanding, and nothing can be reserved; the code has left the wallet
above the ceiling. -/
theorem credit_not_cached_not_capped :
    (let s := run Wallets.step alipayWallets [.call (.providerCallback {} 10 {} .alipay "A1")]
     (s.users.get? 1).map User.quota = some 500000 ∧ s.updates = [] ∧ s.cache 1 = some 0 ∧
      (Quota.cacheTryReserveUserQuota (s.stores 1) .ok 1).1 = some .insufficient) ∧
    (let s := run Wallets.step dispatchWallets [.call (.dispatchRedemptionToUser 10 3 7 1)]
     (s.users.get? 1).map User.quota = some (Billing.maxWalletQuota + 5) ∧ s.updates = [] ∧
      s.cache 1 = some Billing.maxWalletQuota) := by
  constructor <;> decide +kernel

/-! A Waffo callback and a check-in, whose updates are made in the other order. -/

def sampleWallets : Wallets :=
  { toDB := sampleOrders
    cache := fun _ => some 0 }

def sampleCredits : List CreditEvent :=
  [.call (.providerCallback {} 10 {} .waffo "W1"), .call (.userCheckin { enabled := true } false "2026-01-01" 7 1),
    .update 1 .ok, .update 0 .ok]

theorem sampleCredits_mirrored : Along Wallets.step (fun s e => e.Mirrors 1 s) sampleWallets sampleCredits := by
  refine ⟨trivial, ?_, fun _ _ _ => by decide, fun _ _ _ => by decide, trivial⟩
  intro _ _ _ user huser
  have hquota : ((sampleWallets.step (.call (.providerCallback {} 10 {} .waffo "W1"))).users.get? 1).map User.quota =
      some 1000000 := by decide +kernel
  rw [huser] at hquota
  obtain hq : user.quota = 1000000 := some.inj hquota
  rw [hq]
  decide +kernel

theorem credits_reach_cache_sample : ∃ user' cached',
      (run Wallets.step sampleWallets sampleCredits).users.get? 1 = some user' ∧
      (run Wallets.step sampleWallets sampleCredits).cache 1 = some cached' ∧ cached' - 0 = user'.quota - 0 := by
  obtain ⟨user', cached', huser', hcached', hgrown⟩ :=
    (credits_reach_cache sampleWallets rfl 1 {} 0 (by decide +kernel) rfl sampleCredits sampleCredits_mirrored).1
  exact ⟨user', cached', huser', hcached', (hgrown (by decide +kernel)).1⟩

end CubeRouter.Payment
