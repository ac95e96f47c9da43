import CubeRouter.Subscription.Group
import Mathlib.Data.List.DropRight

/-!
# When a user returns to the group before the subscriptions

A run of overlapping subscriptions begins when a user without an active subscription gets one, and ends when none
is active any more. The endings look at one subscription only. So the user is back in the group from before
the run exactly when every ending that leaves no active subscription looks at one that takes the user there,
or at one that takes the user nowhere while the user is there already.
-/

namespace CubeRouter.Subscription

open Relational Transition Option Table
open Ledger (trimSpace isSpace)

/-! ## The statement -/

def groupOf (db : DB) (u : Nat) : String := ((db.users.get? u).map User.group).getD ""

def inviterOf (db : DB) (u : Nat) : Nat := ((db.users.get? u).map User.inviterId).getD 0

def hasActive (db : DB) (u : Nat) : Bool :=
  db.subscriptions.any fun _ sub => sub.userId = u ∧ sub.status = .active

/-- The database, and the group that user `u` had when the run of subscriptions began. -/
structure History where
  db : DB
  before : String

def History.start (u : Nat) (db : DB) : History := ⟨db, groupOf db u⟩

def History.step (cal : Calendar) (u : Nat) (h : History) (e : Event) : History where
  db := e.apply cal h.db
  before := if !hasActive h.db u && hasActive (e.apply cal h.db) u then groupOf h.db u else h.before

/-- Without an active subscription the user is in the group from before. -/
def Returned (u : Nat) (h : History) : Prop := hasActive h.db u = false → groupOf h.db u = h.before

def Event.user (db : DB) : Event → Option Nat
  | .create _ userId _ => some userId
  | .expire _ userId => some userId
  | .adminInvalidate _ id => (db.subscriptions.get? id).map UserSubscription.userId
  | .adminDelete _ id => (db.subscriptions.get? id).map UserSubscription.userId

/-- The plans that `u` buys have an upgrade group and no downgrade group. -/
def Event.Upgrades (u : Nat) : Event → Prop
  | .create _ userId plan => userId = u → trimSpace plan.upgradeGroup ≠ "" ∧ trimSpace plan.downgradeGroup = ""
  | _ => True

/-- The group of `u` does not change because its inviter's group does. -/
def Event.Apart (u : Nat) (db : DB) (e : Event) : Prop := ∀ v ∈ e.user db, v = u ∨ v ≠ inviterOf db u

instance (u : Nat) : DecidablePred (Event.Upgrades u)
  | .create _ userId plan =>
    inferInstanceAs (Decidable (userId = u → trimSpace plan.upgradeGroup ≠ "" ∧ trimSpace plan.downgradeGroup = ""))
  | .expire .. => .isTrue trivial
  | .adminInvalidate .. => .isTrue trivial
  | .adminDelete .. => .isTrue trivial

instance (u : Nat) (db : DB) (e : Event) : Decidable (e.Apart u db) :=
  inferInstanceAs (Decidable (∀ v ∈ e.user db, v = u ∨ v ≠ inviterOf db u))

def Event.ends (e : Event) (id : Nat) (sub : UserSubscription) : Bool :=
  match e with
  | .create .. => false
  | .expire now userId => sub.userId = userId ∧ sub.due now
  | .adminInvalidate _ id' => id = id'
  | .adminDelete _ id' => id = id'

/-- Every active subscription of `u` ends. -/
def Event.endsAll (u : Nat) (db : DB) (e : Event) : Bool :=
  !db.subscriptions.any fun id sub => sub.userId = u ∧ sub.status = .active ∧ ¬e.ends id sub

/-- The subscription of `u` the transaction looks at to set the group. -/
def Event.deciding (u : Nat) (db : DB) : Event → Option UserSubscription
  | .create .. => none
  | .expire now userId =>
    if userId = u ∧ ¬hasActiveUpgrade (markExpired db userId now) userId now 0 then
      lastExpired (markExpired db userId now) userId
    else none
  | .adminInvalidate now id =>
    (db.subscriptions.get? id).filter fun sub => sub.userId = u ∧ ¬hasActiveUpgrade db u now id
  | .adminDelete now id =>
    (db.subscriptions.get? id).filter fun sub => sub.userId = u ∧ ¬hasActiveUpgrade db u now id

/-- The subscription moved its user into `group` and knows from where. -/
def UserSubscription.TakesFrom (sub : UserSubscription) (group : String) : Prop :=
  trimSpace sub.upgradeGroup = group ∧ trimSpace sub.prevUserGroup ≠ ""

instance (sub : UserSubscription) (group : String) : Decidable (sub.TakesFrom group) :=
  inferInstanceAs (Decidable (_ ∧ _))

/-- An ending that leaves no active subscription looks at one that moved the user from the group before the run
into the present one, or at one that did not bring the user into the present group, which is the one before. -/
def Event.EndsWell (u : Nat) (h : History) (e : Event) : Prop :=
  e.endsAll u h.db → ∀ sub ∈ e.deciding u h.db,
    (sub.TakesFrom (groupOf h.db u) ∧ trimSpace sub.prevUserGroup = h.before) ∨
      (¬sub.TakesFrom (groupOf h.db u) ∧ groupOf h.db u = h.before)

instance (u : Nat) (h : History) (e : Event) : Decidable (e.EndsWell u h) :=
  inferInstanceAs (Decidable (_ → ∀ sub ∈ e.deciding u h.db, _))

/-- The user exists, and its subscriptions have an upgrade group and no downgrade group. -/
structure Upgraded (u : Nat) (db : DB) : Prop where
  user : (db.users.get? u).isSome
  plans : ∀ i sub, db.subscriptions.get? i = some sub → sub.userId = u →
    trimSpace sub.upgradeGroup ≠ "" ∧ trimSpace sub.downgradeGroup = ""

variable {cal : Calendar} {u : Nat} {db db' : DB}

theorem trimSpace_trimSpace (s : String) : trimSpace (trimSpace s) = trimSpace s := by
  unfold trimSpace
  simp only [String.toList_ofList]
  have h : ∀ l : List Char, ((l.dropWhile isSpace).reverse.dropWhile isSpace).reverse =
      (l.dropWhile isSpace).rdropWhile isSpace := fun _ => rfl
  rw [h, h]
  -- what is left of a list that starts with another character starts with it
  have hhead : ((s.toList.dropWhile isSpace).rdropWhile isSpace).dropWhile isSpace =
      (s.toList.dropWhile isSpace).rdropWhile isSpace := by
    rw [List.dropWhile_eq_self_iff]
    intro hpos
    have hleft := List.rdropWhile_prefix isSpace (s.toList.dropWhile isSpace)
    rw [hleft.getElem hpos]
    exact List.dropWhile_get_zero_not isSpace s.toList (hpos.trans_le hleft.length_le)
  rw [hhead, List.rdropWhile_idempotent]

/-! ## What the parts of a transaction do -/

theorem hasActive_eq_false_iff : hasActive db u = false ↔
    ∀ i sub, db.subscriptions.get? i = some sub → sub.userId = u → sub.status ≠ .active := by
  rw [hasActive, any_eq_false_iff]
  simp

variable {e : Event} {now : Int} {v id i : Nat} {sub : UserSubscription} {err : SubscriptionError}

theorem endsAll_iff : e.endsAll u db = true ↔ ∀ i sub, db.subscriptions.get? i = some sub →
    sub.userId = u → sub.status = .active → e.ends i sub = true := by
  rw [Event.endsAll, Bool.not_eq_true', any_eq_false_iff]
  simp

theorem hasActive_of_hasActiveUpgrade {except : Nat} (h : hasActiveUpgrade db u now except = true) :
    ∃ i sub, db.subscriptions.get? i = some sub ∧ sub.userId = u ∧ sub.status = .active ∧ now < sub.endTime ∧
      i ≠ except := by
  obtain ⟨i, sub, hget, hsub⟩ := any_iff.mp h
  simp only [decide_eq_true_eq] at hsub
  exact ⟨i, sub, hget, hsub.1, hsub.2.1, hsub.2.2.1, hsub.2.2.2.1⟩

theorem get?_updateUserGroupWithInvitees (db : DB) (v u : Nat) (group : String) :
    (updateUserGroupWithInvitees db v group).users.get? u = (db.users.get? u).map fun user =>
      if u = v ∨ user.inviterId = v then { user with group } else user := by
  simp only [updateUserGroupWithInvitees, Table.get?_updateWhere, Table.get?_modify]
  by_cases hu : u = v
  · subst hu
    simp only [if_true, map_map, true_or]
    congr 1
    funext user
    simp
  · simp [hu]

theorem groupOf_update_self (hu : (db.users.get? u).isSome) (group : String) :
    groupOf (updateUserGroupWithInvitees db u group) u = group := by
  obtain ⟨_, huser⟩ := isSome_iff_exists.mp hu
  rw [groupOf, get?_updateUserGroupWithInvitees, huser]
  simp

/-- The users after a transaction about `v`: as they were, or with the group of `v` and its invitees set. -/
def Moves (v : Nat) (db db' : DB) : Prop :=
  db'.users = db.users ∨ ∃ group, db'.users = (updateUserGroupWithInvitees db v group).users

theorem Moves.isSome (h : Moves v db db') (hu : (db.users.get? u).isSome) : (db'.users.get? u).isSome := by
  rcases h with h | ⟨_, h⟩
  · rw [h]
    exact hu
  · rw [h, get?_updateUserGroupWithInvitees, isSome_map]
    exact hu

theorem Moves.groupOf_eq (h : Moves v db db') (hv : v ≠ u) (hinviter : v ≠ inviterOf db u) :
    groupOf db' u = groupOf db u := by
  rcases h with h | ⟨_, h⟩
  · rw [groupOf, h, groupOf]
  · rw [groupOf, h, get?_updateUserGroupWithInvitees, groupOf]
    cases huser : db.users.get? u with
    | none => rfl
    | some user =>
      have hne : user.inviterId ≠ v := by
        rw [inviterOf, huser] at hinviter
        exact Ne.symm hinviter
      simp [Ne.symm hv, hne]

theorem getUserGroupById_ok (hu : (db.users.get? u).isSome) : getUserGroupById db u = .ok (groupOf db u) := by
  obtain ⟨_, huser⟩ := isSome_iff_exists.mp hu
  unfold getUserGroupById
  rw [if_neg (pos_of_get? huser).ne', huser, groupOf, huser]
  rfl

theorem upgradeUserGroup_ok {upgradeGroup prev : String} (h : upgradeUserGroup db v upgradeGroup = .ok (prev, db')) :
    Moves v db db' ∧ db'.subscriptions = db.subscriptions := by
  unfold upgradeUserGroup at h
  split_ifs at h
  · cases h
    exact ⟨.inl rfl, rfl⟩
  · obtain ⟨_, -, hrest⟩ := bind_eq_ok.mp h
    split_ifs at hrest
    · cases hrest
      exact ⟨.inl rfl, rfl⟩
    · cases hrest
      exact ⟨.inr ⟨upgradeGroup, rfl⟩, rfl⟩

variable {plan : SubscriptionPlan} {target message group : String}

theorem createUserSubscriptionFromPlan_ok (h : createUserSubscriptionFromPlan cal now v plan db = .ok (id, db')) :
    Moves v db db' ∧ ∃ sub : UserSubscription, db'.subscriptions = db.subscriptions.insert sub ∧ sub.userId = v ∧
      sub.status = .active ∧ sub.upgradeGroup = trimSpace plan.upgradeGroup ∧
      sub.downgradeGroup = trimSpace plan.downgradeGroup := by
  unfold createUserSubscriptionFromPlan at h
  split_ifs at h
  obtain ⟨_, -, h1⟩ := bind_eq_ok.mp h
  obtain ⟨⟨_, _⟩, hupgrade, h2⟩ := bind_eq_ok.mp h1
  obtain ⟨hmoves, hsubs⟩ := upgradeUserGroup_ok hupgrade
  cases h2
  exact ⟨hmoves, _, congrArg (Table.insert · _) hsubs, rfl, rfl, rfl, rfl⟩

theorem downgradeUserGroupForSubscription_ok
    (h : downgradeUserGroupForSubscription db id sub now = .ok (target, db')) :
    Moves sub.userId db db' ∧ db'.subscriptions = db.subscriptions := by
  unfold downgradeUserGroupForSubscription at h
  by_cases hnothing : trimSpace sub.downgradeGroup = "" ∧ trimSpace sub.upgradeGroup = ""
  · rw [if_pos hnothing] at h
    cases h
    exact ⟨.inl rfl, rfl⟩
  · rw [if_neg hnothing] at h
    obtain ⟨_, -, hrest⟩ := bind_eq_ok.mp h
    simp only at hrest
    split_ifs at hrest
    · cases hrest
      exact ⟨.inl rfl, rfl⟩
    · cases hrest
      exact ⟨.inl rfl, rfl⟩
    · cases hrest
      exact ⟨.inr ⟨_, rfl⟩, rfl⟩

theorem adminInvalidateUserSubscription_ok
    (h : adminInvalidateUserSubscription now id db = .ok (message, db')) :
    ∃ sub target, db.subscriptions.get? id = some sub ∧ downgradeUserGroupForSubscription
        { db with subscriptions := db.subscriptions.modify id fun s => { s with status := .cancelled, endTime := now } }
        id sub now = .ok (target, db') ∧
      db'.subscriptions = db.subscriptions.modify id fun s => { s with status := .cancelled, endTime := now } := by
  unfold adminInvalidateUserSubscription at h
  split_ifs at h
  split at h
  · cases h
  · rename_i sub hget
    obtain ⟨⟨target, _⟩, hok, hrest⟩ := bind_eq_ok.mp h
    cases hrest
    exact ⟨sub, target, hget, hok, (downgradeUserGroupForSubscription_ok hok).2⟩

theorem adminDeleteUserSubscription_ok (h : adminDeleteUserSubscription now id db = .ok (message, db')) :
    ∃ sub target db2, db.subscriptions.get? id = some sub ∧
      downgradeUserGroupForSubscription db id sub now = .ok (target, db2) ∧ db'.users = db2.users ∧
      db'.subscriptions = db.subscriptions.delete id := by
  unfold adminDeleteUserSubscription at h
  split_ifs at h
  split at h
  · cases h
  · rename_i sub hget
    obtain ⟨⟨target, db2⟩, hok, hrest⟩ := bind_eq_ok.mp h
    cases hrest
    refine ⟨sub, target, db2, hget, hok, rfl, ?_⟩
    rw [(downgradeUserGroupForSubscription_ok hok).2]

/-- The group after an ending that looks at `sub`. -/
def groupAfter (sub : UserSubscription) (group : String) : String :=
  if sub.TakesFrom group then trimSpace sub.prevUserGroup else group

theorem downgradeTarget_eq (hdown : trimSpace sub.downgradeGroup = "") :
    (if downgradeTarget sub group = "" ∨ downgradeTarget sub group = group then group
      else downgradeTarget sub group) = groupAfter sub group := by
  unfold downgradeTarget groupAfter UserSubscription.TakesFrom
  rw [if_neg (not_not.mpr hdown)]
  grind

theorem expiryTarget_eq (hdown : trimSpace sub.downgradeGroup = "") (hup : trimSpace sub.upgradeGroup ≠ "") :
    (if expiryTarget sub group = "" ∨ expiryTarget sub group = group then group else expiryTarget sub group) =
      groupAfter sub group := by
  unfold expiryTarget groupAfter UserSubscription.TakesFrom
  rw [if_neg (not_not.mpr hdown)]
  grind

theorem downgradeUserGroupForSubscription_spec (hu : (db.users.get? sub.userId).isSome)
    (hup : trimSpace sub.upgradeGroup ≠ "") (hdown : trimSpace sub.downgradeGroup = "")
    (hstop : hasActiveUpgrade db sub.userId now id = false) :
    ∃ target db', downgradeUserGroupForSubscription db id sub now = .ok (target, db') ∧
      groupOf db' sub.userId = groupAfter sub (groupOf db sub.userId) := by
  unfold downgradeUserGroupForSubscription
  rw [if_neg (fun h => hup h.2), getUserGroupById_ok hu, ← downgradeTarget_eq hdown]
  simp only [bind, Except.bind, hstop, Bool.false_eq_true, if_false]
  split_ifs with htarget
  · exact ⟨_, _, rfl, rfl⟩
  · exact ⟨_, _, rfl, groupOf_update_self hu _⟩

theorem get?_markExpired (h : (markExpired db v now).subscriptions.get? i = some sub) :
    ∃ row, db.subscriptions.get? i = some row ∧
      sub = if row.userId = v ∧ row.due now then { row with status := .expired } else row := by
  rw [markExpired, Table.get?_updateWhere] at h
  obtain ⟨row, hrow, rfl⟩ := map_eq_some_iff.mp h
  refine ⟨row, hrow, ?_⟩
  simp

theorem Upgraded.markExpired (h : Upgraded u db) : Upgraded u (markExpired db v now) := by
  refine ⟨h.user, fun i sub hget huser => ?_⟩
  obtain ⟨row, hrow, rfl⟩ := get?_markExpired hget
  split_ifs at huser ⊢
  · exact h.plans i row hrow huser
  · exact h.plans i row hrow huser

theorem expireUserSubscriptions_ok {n : Nat} (h : expireUserSubscriptions now v db = .ok (n, db')) :
    Moves v db db' ∧ db'.subscriptions = (markExpired db v now).subscriptions := by
  unfold expireUserSubscriptions at h
  simp only at h
  split at h
  · cases h
    exact ⟨.inl rfl, rfl⟩
  · split at h
    · cases h
      exact ⟨.inl rfl, rfl⟩
    · obtain ⟨_, -, hrest⟩ := bind_eq_ok.mp h
      split_ifs at hrest
      · cases hrest
        exact ⟨.inl rfl, rfl⟩
      · cases hrest
        exact ⟨.inr ⟨_, rfl⟩, rfl⟩

theorem expireUserSubscriptions_spec (now : Int) (h : Upgraded u db) :
    ∃ n db', expireUserSubscriptions now u db = .ok (n, db') ∧
      groupOf db' u = ((Event.expire now u).deciding u db).elim (groupOf db u) fun sub =>
      groupAfter sub (groupOf db u) := by
  unfold expireUserSubscriptions
  simp only [Event.deciding, true_and]
  by_cases hstop : hasActiveUpgrade (markExpired db u now) u now 0 = true
  · simp only [hstop]
    exact ⟨_, _, rfl, rfl⟩
  · simp only [hstop, Bool.false_eq_true, if_false, not_false_eq_true, if_true]
    cases hlast : lastExpired (markExpired db u now) u with
    | none => exact ⟨_, _, rfl, rfl⟩
    | some sub =>
      obtain ⟨hsub, i, hget⟩ := (Table.latest?_spec _ _ _).1 sub hlast
      simp only [decide_eq_true_eq] at hsub
      obtain ⟨hup, hdown⟩ := h.markExpired.plans i sub hget hsub.1
      have hgroup : groupOf (markExpired db u now) u = groupOf db u := rfl
      simp only [elim_some, ← expiryTarget_eq hdown hup, getUserGroupById_ok h.markExpired.user, bind,
        Except.bind, hgroup]
      split_ifs with htarget
      · exact ⟨_, _, rfl, rfl⟩
      · exact ⟨_, _, rfl, groupOf_update_self h.markExpired.user _⟩

theorem hasActiveUpgrade_modify (v id : Nat) (now : Int) (g : UserSubscription → UserSubscription) :
    hasActiveUpgrade { db with subscriptions := db.subscriptions.modify id g } v now id =
      hasActiveUpgrade db v now id := by
  rw [Bool.eq_iff_iff, hasActiveUpgrade, hasActiveUpgrade, any_iff, any_iff]
  refine exists_congr fun i => exists_congr fun sub => ?_
  by_cases hi : i = id
  · simp [hi]
  · rw [Table.get?_modify_of_ne _ _ hi]

/-! ## What a transaction does -/

/-- All that a transaction does to the group and the active subscriptions of `u`. -/
inductive GroupEffect (u : Nat) (e : Event) (db db' : DB) : Prop
  | nothing : e.deciding u db = none → groupOf db' u = groupOf db u → hasActive db' u = hasActive db u →
      GroupEffect u e db db'
  | kept : e.deciding u db = none → hasActive db' u = true → GroupEffect u e db db'
  | decided {sub : UserSubscription} : e.deciding u db = some sub →
      groupOf db' u = groupAfter sub (groupOf db u) → (hasActive db' u = false ↔ e.endsAll u db = true) →
      GroupEffect u e db db'

theorem hasActive_congr (h : ∀ i sub, sub.userId = u →
    (db'.subscriptions.get? i = some sub ↔ db.subscriptions.get? i = some sub)) : hasActive db' u = hasActive db u := by
  rw [Bool.eq_iff_iff, hasActive, hasActive, any_iff, any_iff]
  refine exists_congr fun i => exists_congr fun sub => ?_
  simp only [decide_eq_true_eq]
  constructor
  · rintro ⟨hget, hsub⟩
    exact ⟨(h i sub hsub.1).mp hget, hsub⟩
  · rintro ⟨hget, hsub⟩
    exact ⟨(h i sub hsub.1).mpr hget, hsub⟩

theorem hasActive_of_row (hget : db.subscriptions.get? i = some sub) (huser : sub.userId = u)
    (hactive : sub.status = .active) : hasActive db u = true :=
  any_iff.mpr ⟨i, sub, hget, by simp [huser, hactive]⟩

theorem get?_markExpired_of_ne (hv : v ≠ u) (hsub : sub.userId = u) :
    (markExpired db v now).subscriptions.get? i = some sub ↔ db.subscriptions.get? i = some sub := by
  constructor
  · intro h
    obtain ⟨row, hrow, rfl⟩ := get?_markExpired h
    have hrow' : ¬(row.userId = v ∧ row.due now = true) := by
      rintro ⟨hrow', -⟩
      split_ifs at hsub
      · exact hv (hrow'.symm.trans hsub)
      · exact hv (hrow'.symm.trans hsub)
    rw [if_neg hrow']
    exact hrow
  · intro h
    have hne : ¬sub.userId = v := fun h => hv (h.symm.trans hsub)
    rw [markExpired, Table.get?_updateWhere, h]
    simp [hne]

theorem hasActive_markExpired : hasActive (markExpired db v now) v = false ↔
    (Event.expire now v).endsAll v db = true := by
  rw [hasActive_eq_false_iff, endsAll_iff]
  constructor
  · intro h i sub hget huser hactive
    by_contra hends
    have hdue : ¬(sub.userId = v ∧ sub.due now = true) := by simpa [Event.ends] using hends
    refine h i sub ?_ huser hactive
    rw [markExpired, Table.get?_updateWhere, hget]
    simp [if_neg hdue]
  · intro h i sub hget huser hactive
    obtain ⟨row, hrow, rfl⟩ := get?_markExpired hget
    split_ifs at huser hactive with hdue
    have hends := h i row hrow huser hactive
    simp only [Event.ends, decide_eq_true_eq] at hends
    exact hdue hends

theorem create_effect (hapart : (Event.create now v plan).Apart u db) :
    GroupEffect u (.create now v plan) db ((Event.create now v plan).apply cal db) := by
  simp only [Event.apply]
  cases h : createUserSubscriptionFromPlan cal now v plan db with
  | error =>
    rw [commit, h]
    exact .nothing rfl rfl rfl
  | ok r =>
    obtain ⟨_, db'⟩ := r
    rw [commit_ok h]
    obtain ⟨hmoves, new, hsubs, huser, hactive, -⟩ := createUserSubscriptionFromPlan_ok h
    by_cases hv : v = u
    · have hget : db'.subscriptions.get? db.subscriptions.next = some new := by
        rw [hsubs, Table.get?_insert_self]
      exact .kept rfl (hasActive_of_row hget (huser.trans hv) hactive)
    · refine .nothing rfl (hmoves.groupOf_eq hv ((hapart v rfl).resolve_left hv)) (hasActive_congr ?_)
      intro i sub hsub
      rw [hsubs, Table.get?_insert]
      split_ifs with hi
      · have hfresh : db.subscriptions.get? i = none := db.subscriptions.row_fresh i hi.ge
        rw [hfresh]
        constructor
        · intro hnew
          obtain rfl : new = sub := some.inj hnew
          exact absurd (huser.symm.trans hsub) hv
        · intro hold
          cases hold
      · exact Iff.rfl

/-- An expiry that finds nothing to look at and leaves nothing active has ended nothing: what it ends it looks
at. -/
theorem hasActive_eq_false_of_undecided (hu : Upgraded v db) (hdeciding : (Event.expire now v).deciding v db = none)
    (hafter : hasActive (markExpired db v now) v = false) : hasActive db v = false := by
  rw [hasActive_eq_false_iff]
  intro i sub hget huser hstatus
  have hends := endsAll_iff.mp (hasActive_markExpired.mp hafter) i sub hget huser hstatus
  simp only [Event.ends, decide_eq_true_eq] at hends
  have hstop : hasActiveUpgrade (markExpired db v now) v now 0 = false := by
    by_contra hstop
    obtain ⟨j, _, hget', huser', hstatus', -⟩ := hasActive_of_hasActiveUpgrade (Bool.not_eq_false _ ▸ hstop)
    rw [hasActive_of_row hget' huser' hstatus'] at hafter
    cases hafter
  simp only [Event.deciding, hstop, Bool.false_eq_true, not_false_eq_true, and_self, if_true] at hdeciding
  have hmarked : (markExpired db v now).subscriptions.get? i = some { sub with status := .expired } := by
    rw [markExpired, Table.get?_updateWhere, hget]
    simp [hends]
  have hnone := (Table.latest?_spec _ _ _).2 hdeciding i _ hmarked
  have hup : sub.upgradeGroup ≠ "" := by
    intro hempty
    have htrim := (hu.plans i sub hget huser).1
    rw [hempty] at htrim
    exact htrim (by decide)
  simp [huser, hup] at hnone

theorem expire_effect (hu : Upgraded u db) (hapart : (Event.expire now v).Apart u db) :
    GroupEffect u (.expire now v) db ((Event.expire now v).apply cal db) := by
  simp only [Event.apply]
  by_cases hv : v = u
  · subst hv
    obtain ⟨n, db', hok, hgroup⟩ := expireUserSubscriptions_spec now hu
    obtain ⟨-, hsubs⟩ := expireUserSubscriptions_ok hok
    rw [commit_ok hok]
    have hactive : hasActive db' v = hasActive (markExpired db v now) v := by
      rw [hasActive, hsubs, hasActive]
    cases hdeciding : (Event.expire now v).deciding v db with
    | some =>
      rw [hdeciding] at hgroup
      refine .decided hdeciding hgroup ?_
      rw [hactive]
      exact hasActive_markExpired
    | none =>
      rw [hdeciding] at hgroup
      cases hafter : hasActive db' v with
      | true => exact .kept hdeciding hafter
      | false =>
        refine .nothing hdeciding hgroup ?_
        rw [hafter, hasActive_eq_false_of_undecided hu hdeciding (hactive.symm.trans hafter)]
  · have hdeciding : (Event.expire now v).deciding u db = none := by simp [Event.deciding, hv]
    cases h : expireUserSubscriptions now v db with
    | error =>
      rw [commit, h]
      exact .nothing hdeciding rfl rfl
    | ok r =>
      obtain ⟨n, _⟩ := r
      obtain ⟨hmoves, hsubs⟩ := expireUserSubscriptions_ok h
      rw [commit_ok h]
      refine .nothing hdeciding (hmoves.groupOf_eq hv ((hapart v rfl).resolve_left hv)) (hasActive_congr ?_)
      intro i sub hsub
      rw [hsubs]
      exact get?_markExpired_of_ne hv hsub

/-- A subscription that is neither cancelled nor deleted stays as it is. -/
def EndsOnly (id : Nat) (db db' : DB) : Prop :=
  (∀ i, i ≠ id → db'.subscriptions.get? i = db.subscriptions.get? i) ∧
    ∀ sub, db'.subscriptions.get? id = some sub → sub.status ≠ .active

theorem EndsOnly.hasActive_iff (h : EndsOnly id db db') (he : ∀ i sub, e.ends i sub = decide (i = id)) :
    hasActive db' u = false ↔ e.endsAll u db = true := by
  rw [hasActive_eq_false_iff, endsAll_iff]
  constructor
  · intro hnone i sub hget huser hactive
    rw [he, decide_eq_true_eq]
    by_contra hi
    exact hnone i sub ((h.1 i hi).trans hget) huser hactive
  · intro hall i sub hget huser hactive
    by_cases hi : i = id
    · subst hi
      exact h.2 sub hget hactive
    · have hends := hall i sub ((h.1 i hi).symm.trans hget) huser hactive
      rw [he, decide_eq_true_eq] at hends
      exact hi hends

theorem EndsOnly.hasActive_eq {row : UserSubscription} (h : EndsOnly id db db')
    (hget : db.subscriptions.get? id = some row) (huser : row.userId ≠ u)
    (hrow : ∀ sub, db'.subscriptions.get? id = some sub → sub.userId = row.userId) :
    hasActive db' u = hasActive db u := by
  refine hasActive_congr fun i sub hsub => ?_
  by_cases hi : i = id
  · subst hi
    constructor
    · intro h'
      exact absurd ((hrow sub h').symm.trans hsub) huser
    · intro h'
      rw [hget] at h'
      cases h'
      exact absurd hsub huser
  · rw [h.1 i hi]

theorem admin_effect {db1 db2 : DB} (hu : Upgraded u db) (hapart : e.Apart u db)
    (hget : db.subscriptions.get? id = some sub) (huser : e.user db = some sub.userId)
    (hends : ∀ i sub, e.ends i sub = decide (i = id))
    (hdeciding : e.deciding u db = (some sub).filter fun sub => sub.userId = u ∧ ¬hasActiveUpgrade db u now id)
    (hok : downgradeUserGroupForSubscription db1 id sub now = .ok (target, db2)) (husers : db1.users = db.users)
    (husers' : db'.users = db2.users) (hstop : hasActiveUpgrade db1 u now id = hasActiveUpgrade db u now id)
    (honly : EndsOnly id db db') (hrow : ∀ sub', db'.subscriptions.get? id = some sub' → sub'.userId = sub.userId) :
    GroupEffect u e db db' := by
  have hgroup1 : groupOf db1 = groupOf db := by
    funext v
    rw [groupOf, husers, groupOf]
  have hgroup' : groupOf db' = groupOf db2 := by
    funext v
    rw [groupOf, husers', groupOf]
  by_cases hv : sub.userId = u
  · cases hactive : hasActiveUpgrade db u now id with
    | true =>
      rw [hactive] at hdeciding
      obtain ⟨i, _, hget', huser', hstatus', -, hi⟩ := hasActive_of_hasActiveUpgrade hactive
      exact .kept (by simp [hdeciding]) (hasActive_of_row ((honly.1 i hi).trans hget') huser' hstatus')
    | false =>
      rw [hactive] at hdeciding
      obtain ⟨hup, hdown⟩ := hu.plans id sub hget hv
      subst hv
      have hu1 : (db1.users.get? sub.userId).isSome := by
        rw [husers]
        exact hu.user
      obtain ⟨target', db3, hok', hgroup⟩ :=
        downgradeUserGroupForSubscription_spec hu1 hup hdown (hstop.trans hactive)
      rw [hok] at hok'
      cases hok'
      have hdecides : e.deciding sub.userId db = some sub := by simp [hdeciding]
      refine .decided hdecides ?_ (honly.hasActive_iff hends)
      rw [hgroup', hgroup, hgroup1]
  · obtain ⟨hmoves, -⟩ := downgradeUserGroupForSubscription_ok hok
    have hinviter : inviterOf db1 u = inviterOf db u := by rw [inviterOf, husers, inviterOf]
    have hne : sub.userId ≠ inviterOf db1 u := by
      rw [hinviter]
      exact (hapart sub.userId huser).resolve_left hv
    refine .nothing (by simp [hdeciding, hv]) ?_ (honly.hasActive_eq hget hv hrow)
    rw [hgroup', hmoves.groupOf_eq hv hne, hgroup1]

theorem downgradeUserGroupForSubscription_ne_error (hu : (db.users.get? sub.userId).isSome) :
    downgradeUserGroupForSubscription db id sub now ≠ .error err := by
  unfold downgradeUserGroupForSubscription
  rw [getUserGroupById_ok hu]
  simp only [bind, Except.bind]
  split_ifs <;> exact fun h => nomatch h

theorem adminInvalidateUserSubscription_ne_error (hget : db.subscriptions.get? id = some sub)
    (hu : (db.users.get? sub.userId).isSome) : adminInvalidateUserSubscription now id db ≠ .error err := by
  rw [adminInvalidateUserSubscription, if_neg (pos_of_get? hget).ne', hget]
  exact bind_ne_error (downgradeUserGroupForSubscription_ne_error hu) fun r _ hr => nomatch hr

theorem adminDeleteUserSubscription_ne_error (hget : db.subscriptions.get? id = some sub)
    (hu : (db.users.get? sub.userId).isSome) : adminDeleteUserSubscription now id db ≠ .error err := by
  rw [adminDeleteUserSubscription, if_neg (pos_of_get? hget).ne', hget]
  exact bind_ne_error (downgradeUserGroupForSubscription_ne_error hu) fun r _ hr => nomatch hr

theorem filter_eq_none_of_failed (h : ∀ sub, db.subscriptions.get? id = some sub → sub.userId ≠ u) :
    ((db.subscriptions.get? id).filter fun sub => sub.userId = u ∧ ¬hasActiveUpgrade db u now id) = none := by
  rw [filter_eq_none_iff]
  intro sub hget hsub
  simp only [decide_eq_true_eq] at hsub
  exact h sub hget hsub.1

theorem adminInvalidate_effect (hu : Upgraded u db) (hapart : (Event.adminInvalidate now id).Apart u db) :
    GroupEffect u (.adminInvalidate now id) db ((Event.adminInvalidate now id).apply cal db) := by
  simp only [Event.apply]
  cases h : adminInvalidateUserSubscription now id db with
  | error =>
    rw [commit, h]
    refine .nothing (filter_eq_none_of_failed ?_) rfl rfl
    rintro sub hget rfl
    exact adminInvalidateUserSubscription_ne_error hget hu.user h
  | ok r =>
    obtain ⟨_, db'⟩ := r
    rw [commit_ok h]
    obtain ⟨sub, _, hget, hok, hsubs⟩ := adminInvalidateUserSubscription_ok h
    have hrow : ∀ sub', db'.subscriptions.get? id = some sub' →
        sub' = { sub with status := .cancelled, endTime := now } := by
      intro sub' hget'
      rw [hsubs, Table.get?_modify_self, hget] at hget'
      exact (some.inj hget').symm
    refine admin_effect hu hapart hget (by rw [Event.user, hget]; rfl) (fun _ _ => rfl)
      (by rw [Event.deciding, hget]) hok rfl rfl (hasActiveUpgrade_modify u id now _) ⟨?_, ?_⟩ ?_
    · intro i hi
      rw [hsubs]
      exact Table.get?_modify_of_ne _ _ hi
    · intro sub' hget'
      rw [hrow sub' hget']
      exact fun h => nomatch h
    · intro sub' hget'
      rw [hrow sub' hget']

theorem adminDelete_effect (hu : Upgraded u db) (hapart : (Event.adminDelete now id).Apart u db) :
    GroupEffect u (.adminDelete now id) db ((Event.adminDelete now id).apply cal db) := by
  simp only [Event.apply]
  cases h : adminDeleteUserSubscription now id db with
  | error =>
    rw [commit, h]
    refine .nothing (filter_eq_none_of_failed ?_) rfl rfl
    rintro sub hget rfl
    exact adminDeleteUserSubscription_ne_error hget hu.user h
  | ok r =>
    obtain ⟨_, db'⟩ := r
    rw [commit_ok h]
    obtain ⟨_, _, _, hget, hok, husers, hsubs⟩ := adminDeleteUserSubscription_ok h
    have hgone : db'.subscriptions.get? id = none := by rw [hsubs, Table.get?_delete, if_pos rfl]
    refine admin_effect hu hapart hget (by rw [Event.user, hget]; rfl) (fun _ _ => rfl)
      (by rw [Event.deciding, hget]) hok rfl husers rfl ⟨?_, ?_⟩ ?_
    · intro i hi
      rw [hsubs, Table.get?_delete, if_neg hi]
    · intro sub' hget'
      exact nomatch hgone.symm.trans hget'
    · intro sub' hget'
      exact nomatch hgone.symm.trans hget'

theorem Event.effect (e : Event) (hu : Upgraded u db) (hapart : e.Apart u db) :
    GroupEffect u e db (e.apply cal db) := by
  cases e with
  | create => exact create_effect hapart
  | expire => exact expire_effect hu hapart
  | adminInvalidate => exact adminInvalidate_effect hu hapart
  | adminDelete => exact adminDelete_effect hu hapart

/-- One transaction: the user is back if and only if the ending was a good one. -/
theorem Returned.step_iff {h : History} (hu : Upgraded u h.db) (hapart : e.Apart u h.db) (hreturned : Returned u h) :
    Returned u (h.step cal u e) ↔ e.EndsWell u h := by
  unfold Returned Event.EndsWell History.step
  have heffect : GroupEffect u e h.db (e.apply cal h.db) := e.effect hu hapart
  cases heffect with
  | nothing hdeciding hgroup hactive =>
    rw [hdeciding, hgroup, hactive]
    simp only [Bool.not_and_self, Bool.false_eq_true]
    exact iff_of_true hreturned fun _ sub hsub => nomatch hsub
  | kept hdeciding hactive =>
    rw [hdeciding, hactive]
    exact iff_of_true (fun h => nomatch h) fun _ sub hsub => nomatch hsub
  | @decided sub hdeciding hgroup hactive =>
    rw [hdeciding, hgroup]
    have hbefore : hasActive (e.apply cal h.db) u = false →
        (if !hasActive h.db u && hasActive (e.apply cal h.db) u then groupOf h.db u else h.before) = h.before := by
      intro hnone
      rw [hnone, Bool.and_false, if_neg Bool.false_ne_true]
    constructor
    · rintro hreturns hall sub' hsub'
      cases hsub'
      have hnone := hactive.mpr hall
      have hback := hreturns hnone
      rw [hbefore hnone, groupAfter] at hback
      split_ifs at hback with htakes
      · exact .inl ⟨htakes, hback⟩
      · exact .inr ⟨htakes, hback⟩
    · intro hwell hnone
      rw [hbefore hnone, groupAfter]
      rcases hwell (hactive.mp hnone) sub rfl with ⟨htakes, hback⟩ | ⟨htakes, hback⟩
      · rw [if_pos htakes, hback]
      · rw [if_neg htakes, hback]

/-! ## Runs -/

theorem Upgraded.of_rows (h : Upgraded u db) (hmoves : Moves v db db')
    (hrows : ∀ i sub, db'.subscriptions.get? i = some sub → ∃ row, db.subscriptions.get? i = some row ∧
      sub.userId = row.userId ∧ sub.upgradeGroup = row.upgradeGroup ∧ sub.downgradeGroup = row.downgradeGroup) :
    Upgraded u db' := by
  refine ⟨hmoves.isSome h.user, fun i sub hget huser => ?_⟩
  obtain ⟨row, hrow, hsame, hup, hdown⟩ := hrows i sub hget
  rw [hup, hdown]
  exact h.plans i row hrow (hsame.symm.trans huser)

theorem Upgraded.step (h : Upgraded u db) (hplans : e.Upgrades u) : Upgraded u (e.apply cal db) := by
  cases e with
  | create =>
    refine commit_invariant h fun id db' hok => ?_
    obtain ⟨hmoves, _, hsubs, huser, -, hup, hdown⟩ := createUserSubscriptionFromPlan_ok hok
    refine ⟨hmoves.isSome h.user, fun i sub hget hsub => ?_⟩
    rw [hsubs, Table.get?_insert] at hget
    split_ifs at hget
    · cases hget
      rw [hup, hdown, trimSpace_trimSpace, trimSpace_trimSpace]
      exact hplans (huser.symm.trans hsub)
    · exact h.plans i sub hget hsub
  | expire =>
    refine commit_invariant h fun n db' hok => ?_
    obtain ⟨hmoves, hsubs⟩ := expireUserSubscriptions_ok hok
    refine h.of_rows hmoves fun i sub hget => ?_
    rw [hsubs] at hget
    obtain ⟨row, hrow, rfl⟩ := get?_markExpired hget
    refine ⟨row, hrow, ?_⟩
    split_ifs <;> exact ⟨rfl, rfl, rfl⟩
  | adminInvalidate =>
    refine commit_invariant h fun message db' hok => ?_
    obtain ⟨sub, target, -, hdown, hsubs⟩ := adminInvalidateUserSubscription_ok hok
    refine h.of_rows (downgradeUserGroupForSubscription_ok hdown).1 fun i sub hget => ?_
    rw [hsubs, Table.get?_modify] at hget
    split_ifs at hget
    · obtain ⟨row, hrow, rfl⟩ := map_eq_some_iff.mp hget
      exact ⟨row, hrow, rfl, rfl, rfl⟩
    · exact ⟨sub, hget, rfl, rfl, rfl⟩
  | adminDelete =>
    refine commit_invariant h fun message db' hok => ?_
    obtain ⟨sub, _, _, -, hdown, husers, hsubs⟩ := adminDeleteUserSubscription_ok hok
    have hmoves : Moves sub.userId db db' := by
      rw [Moves, husers]
      exact (downgradeUserGroupForSubscription_ok hdown).1
    refine h.of_rows hmoves fun i sub hget => ?_
    rw [hsubs, Table.get?_delete] at hget
    split_ifs at hget
    exact ⟨sub, hget, rfl, rfl, rfl⟩

/-- **Back to the group before the subscriptions.** Take any history of purchases, expiries, cancellations and
deletions in which the plans of the user have an upgrade group and no downgrade group, and the group of the user
does not change for other reasons. In every state without an active subscription the user is in the group
from before the subscriptions if and only if every transaction that ends the last active ones ends them well. -/
theorem group_returns_iff (cal : Calendar) (u : Nat) (db : DB) (hu : Upgraded u db) (events : List Event)
    (hplans : ∀ e ∈ events, e.Upgrades u)
    (hapart : Along (History.step cal u) (fun h e => e.Apart u h.db) (History.start u db) events) :
    (∀ done rest, events = done ++ rest → Returned u (run (History.step cal u) (History.start u db) done)) ↔
      Along (History.step cal u) (fun h e => e.EndsWell u h) (History.start u db) events := by
  have hdomain : Along (History.step cal u) (fun h e => e.Upgrades u ∧ e.Apart u h.db) (History.start u db)
      events := by
    have hall : Along (History.step cal u) (fun _ e => e.Upgrades u) (History.start u db) events :=
      along_of_forall hplans _
    exact along_and.mpr ⟨hall, hapart⟩
  refine holds_iff_along (J := fun h => Upgraded u h.db) ?_ ?_ hu (fun _ => rfl) hdomain
  · intro h e hh he
    exact hh.step he.1
  · intro h e hh he hreturned
    exact hreturned.step_iff hh he.2

/-! A plan of one day into the group `vip`, bought again while it runs; the first purchase is over before the
second, and only the first knows the group before. -/

def vipPlan : SubscriptionPlan := { id := 1, durationUnit := .day, upgradeGroup := "vip" }

def defaultUser : DB := { users := Table.empty.insert { group := "default" } }

def noCalendar : Calendar := ⟨fun start _ _ => start⟩

def renewal : List Event :=
  [.create 1000 1 vipPlan, .create 2000 1 vipPlan, .expire 87500 1, .expire 90000 1]

theorem defaultUser_upgraded : Upgraded 1 defaultUser :=
  ⟨rfl, fun _ _ h => nomatch h⟩

theorem renewed_user_stays_upgraded : Upgraded 1 defaultUser ∧ (∀ e ∈ renewal, e.Upgrades 1) ∧
      Along (History.step noCalendar 1) (fun h e => e.Apart 1 h.db) (History.start 1 defaultUser) renewal ∧
      hasActive (run (History.step noCalendar 1) (History.start 1 defaultUser) renewal).db 1 = false ∧
      groupOf (run (History.step noCalendar 1) (History.start 1 defaultUser) renewal).db 1 = "vip" ∧
      (run (History.step noCalendar 1) (History.start 1 defaultUser) renewal).before = "default" := by
  refine ⟨defaultUser_upgraded, ?_, ?_, ?_, ?_, ?_⟩
  all_goals decide +kernel

/-! The second purchase is shorter, so the first one ends last. -/

def vipHours : SubscriptionPlan := { id := 2, durationUnit := .hour, durationValue := 2, upgradeGroup := "vip" }

def nested : List Event :=
  [.create 1000 1 vipPlan, .create 2000 1 vipHours, .expire 9500 1, .expire 90000 1]

theorem group_returns_iff_nested :
    hasActive (run (History.step noCalendar 1) (History.start 1 defaultUser) nested).db 1 = false ∧
      Returned 1 (run (History.step noCalendar 1) (History.start 1 defaultUser) nested) := by
  refine ⟨by decide +kernel, ?_⟩
  refine (group_returns_iff noCalendar 1 defaultUser defaultUser_upgraded nested (by decide +kernel)
    (by decide +kernel)).mpr ?_ nested [] (List.append_nil nested).symm
  decide +kernel

end CubeRouter.Subscription
