import CubeRouter.Organization.AccountDeletion
import CubeRouter.Organization.ReconcileTwice

/-!
# What the other operations do to the references of an account

Fix a user. An operation that does not delete him adds references to him only in an organization it has locked, and only
where he has a member row in the end (`Mild`): adding a member and accepting an invitation write that row, the transfers
have read it under the lock. That row stays where it is as long as the lock is held, for only the deletion of the user
removes it, under the same lock.
-/

namespace CubeRouter.Organization.Deletion

open Concurrency Transactions Relational Transition List Option

/-! ## References -/

def HasMember (s : State) (o t : Nat) : Prop := (s.members.find? (o, t)).isSome = true

def Owns (s : State) (o t : Nat) : Prop :=
  ∃ organization, s.organizations.get? o = some organization ∧ organization.ownerUserId = t

def Keyed (s : State) (o t : Nat) : Prop :=
  o ≠ 0 ∧ ∃ i token, s.tokens.get? i = some token ∧ token.organizationId = o ∧ refersTo t token = true

/-- A member row, or the owner or a live key of an organization that is not dissolved. -/
def Refers (s : State) (o t : Nat) : Prop :=
  HasMember s o t ∨ ∃ organization, s.organizations.get? o = some organization ∧ organization.status ≠ .dissolved ∧
    (organization.ownerUserId = t ∨ Keyed s o t)

/-! ## What the operations may do -/

/-- `s'` is `s` after writes of a transaction that has locked the rows `held` and adds member rows of the user in the
organizations `joined`. -/
structure Mild (t : Nat) (held : List Row) (joined : List Nat) (s s' : State) : Prop where
  member : ∀ o, HasMember s o t → HasMember s' o t
  joins : ∀ o, HasMember s' o t → HasMember s o t ∨ o ∈ joined
  owner : ∀ o, Owns s' o t → Owns s o t ∨ .organization o ∈ held ∧ HasMember s' o t
  key : ∀ o, Keyed s' o t → Keyed s o t ∨ .organization o ∈ held ∧ HasMember s' o t
  status : ∀ o organization, s'.organizations.get? o = some organization →
    ∃ before, s.organizations.get? o = some before ∧ before.status = organization.status
  user : (s'.users.get? t).isSome = (s.users.get? t).isSome
  token : ∀ i token, s'.tokens.get? i = some token →
    ∃ before, s.tokens.get? i = some before ∧ before.organizationId = token.organizationId

section Mild

variable {t : Nat} {held held' : List Row} {joined joined' : List Nat} {s s' s'' : State}

theorem Mild.refl (t : Nat) (held : List Row) (joined : List Nat) (s : State) : Mild t held joined s s where
  member _ h := h
  joins _ h := .inl h
  owner _ h := .inl h
  key _ h := .inl h
  status _ organization h := ⟨organization, h, rfl⟩
  user := rfl
  token _ token h := ⟨token, h, rfl⟩

theorem Mild.mono (h : Mild t held joined s s') (hheld : held ⊆ held') (hjoined : joined ⊆ joined') :
    Mild t held' joined' s s' where
  member := h.member
  joins o hm := (h.joins o hm).imp_right fun hmem => hjoined hmem
  owner o ho := (h.owner o ho).imp_right fun hlocked => ⟨hheld hlocked.1, hlocked.2⟩
  key o ho := (h.key o ho).imp_right fun hlocked => ⟨hheld hlocked.1, hlocked.2⟩
  status := h.status
  user := h.user
  token := h.token

theorem Mild.trans (h : Mild t held joined s s') (h' : Mild t held joined s' s'') : Mild t held joined s s'' where
  member o hm := h'.member o (h.member o hm)
  joins o hm := (h'.joins o hm).elim (h.joins o) .inr
  owner o ho := by
    obtain ho | hlocked := h'.owner o ho
    · exact (h.owner o ho).imp_right fun hlocked => ⟨hlocked.1, h'.member o hlocked.2⟩
    · exact .inr hlocked
  key o ho := by
    obtain ho | hlocked := h'.key o ho
    · exact (h.key o ho).imp_right fun hlocked => ⟨hlocked.1, h'.member o hlocked.2⟩
    · exact .inr hlocked
  status o organization ho := by
    obtain ⟨between, hbetween, hsame⟩ := h'.status o organization ho
    obtain ⟨before, hbefore, hsame'⟩ := h.status o between hbetween
    exact ⟨before, hbefore, hsame'.trans hsame⟩
  user := h'.user.trans h.user
  token i token ht := by
    obtain ⟨between, hbetween, hsame⟩ := h'.token i token ht
    obtain ⟨before, hbefore, hsame'⟩ := h.token i between hbetween
    exact ⟨before, hbefore, hsame'.trans hsame⟩

theorem Mild.of_eq (hmembers : s'.members = s.members) (horganizations : s'.organizations = s.organizations)
    (husers : s'.users = s.users) (htokens : s'.tokens = s.tokens) : Mild t held joined s s' := by
  have h := Mild.refl t held joined s
  constructor
  · simpa [HasMember, hmembers] using h.member
  · simpa [HasMember, hmembers] using h.joins
  · simpa [Owns, HasMember, hmembers, horganizations] using h.owner
  · simpa [Keyed, HasMember, hmembers, htokens] using h.key
  · simpa [horganizations] using h.status
  · rw [husers]
  · simpa [htokens] using h.token

variable {members : Index Member.key}

theorem Mild.of_members (hmember : ∀ o, HasMember s o t → (members.find? (o, t)).isSome = true)
    (hjoins : ∀ o, (members.find? (o, t)).isSome = true → HasMember s o t ∨ o ∈ joined) :
    Mild t held joined s { s with members := members } where
  member := hmember
  joins := hjoins
  owner _ h := .inl h
  key _ h := .inl h
  status _ organization h := ⟨organization, h, rfl⟩
  user := rfl
  token _ token h := ⟨token, h, rfl⟩

theorem Mild.of_same_members (hsame : ∀ k, (members.find? k).isSome = (s.members.find? k).isSome) :
    Mild t held joined s { s with members := members } :=
  .of_members (fun o h => by rw [hsame]; exact h) fun o h => .inl (by rw [hsame] at h; exact h)

/-- A write to the keys: none is added or moves to another organization, and those that become keys of the user are of
organizations that are locked and have him as a member. -/
theorem Mild.of_tokens {tokens : Table Token}
    (htoken : ∀ i token, tokens.get? i = some token → ∃ before, s.tokens.get? i = some before ∧
      before.organizationId = token.organizationId ∧ (refersTo t token = true → refersTo t before = true ∨
        .organization token.organizationId ∈ held ∧ HasMember s token.organizationId t)) :
    Mild t held joined s { s with tokens := tokens } where
  member _ h := h
  joins _ h := .inl h
  owner _ h := .inl h
  key o h := by
    obtain ⟨ho, i, token, hi, rfl, hrefers⟩ := h
    obtain ⟨before, hbefore, hsame, hnew⟩ := htoken i token hi
    obtain hold | hlocked := hnew hrefers
    · exact .inl ⟨ho, i, before, hbefore, hsame, hold⟩
    · exact .inr hlocked
  status _ organization h := ⟨organization, h, rfl⟩
  user := rfl
  token i token h := by
    obtain ⟨before, hbefore, hsame, -⟩ := htoken i token h
    exact ⟨before, hbefore, hsame⟩

end Mild

/-! ## The stages of an operation -/

/-- What an operation has locked, where it may add the user as a member, where it has found him to be one and which keys
it knows to be of which organization. -/
structure Stage where
  held : List Row := []
  joined : List Nat := []
  members : List Nat := []
  tokens : List (Nat × Nat) := []

/-- What is known is so in the committed database. -/
structure Stage.Knows (t : Nat) (stage : Stage) (db : State) : Prop where
  members : ∀ o ∈ stage.members, HasMember db o t
  tokens : ∀ x ∈ stage.tokens, ∀ token, db.tokens.get? x.1 = some token → token.organizationId = x.2

structure Stage.Locked (stage : Stage) : Prop where
  joined : ∀ o ∈ stage.joined, .organization o ∈ stage.held
  members : ∀ o ∈ stage.members, .organization o ∈ stage.held

theorem Stage.Knows.of_mild {t : Nat} {stage : Stage} {held : List Row} {joined : List Nat} {s s' : State}
    (h : stage.Knows t s) (hmild : Mild t held joined s s') : stage.Knows t s' where
  members o ho := hmild.member o (h.members o ho)
  tokens x hx token htoken := by
    obtain ⟨before, hbefore, hsame⟩ := hmild.token x.1 token htoken
    rw [← hsame]
    exact h.tokens x hx before hbefore

structure Stage.Moves (t : Nat) (stage : Stage) (i : Statement) (db seen : State) (next : Stage) : Prop where
  held : next.held = store.locks i seen ++ stage.held
  joined : stage.joined ⊆ next.joined
  members : stage.members ⊆ next.members
  tokens : stage.tokens ⊆ next.tokens
  knows : next.Knows t db
  locked : next.Locked
  effect : ∀ s, next.Knows t s → Mild t next.held next.joined s (store.effect i seen s)

def plan (t : Nat) : Plan store Stage where
  enters stage db seen := stage.Knows t db ∧ stage.Locked ∧ Mild t stage.held stage.joined db seen
  moves := Stage.Moves t

/-- The code from a stage on; `post` is said of its result. -/
def Bystands (t : Nat) {α : Type} (post : α → Stage → Prop) (stage : Stage) (p : Transaction α) : Prop :=
  (plan t).Follows (fun r stage =>
    match r with
    | .ok a => post a stage
    | .error _ => True) stage p

section Rules

variable {t : Nat} {α β : Type} {post : α → Stage → Prop} {post' : β → Stage → Prop} {stage : Stage}
  {p : Transaction α} {r : Except OrganizationError α} {o : Nat} {f : State → Transaction β}

theorem Bystands.bind (post : α → Stage → Prop) (h : Bystands t post stage p) {f : α → Transaction β}
    (hf : ∀ a next, post a next → Bystands t post' next (f a)) : Bystands t post' stage (p >>= f) := by
  refine Plan.Follows.bind h fun r next hr => ?_
  cases r with
  | ok a => exact hf a next hr
  | error => trivial

theorem Bystands.weaken {post' : α → Stage → Prop} (h : Bystands t post stage p)
    (hpost : ∀ a next, post a next → post' a next) : Bystands t post' stage p := by
  refine Plan.Follows.weaken h fun r next hr => ?_
  cases r with
  | ok a => exact hpost a next hr
  | error => trivial

theorem Bystands.of_pure {a : α} (h : post a stage) : Bystands t post stage (pure a) := h

theorem Bystands.of_fail {e : AccountError} : Bystands t post stage (fail e) := trivial

theorem Bystands.of_lift (h : ∀ a, r = .ok a → post a stage) : Bystands t post stage (lift r) := by
  cases r with
  | ok a => exact h a rfl
  | error => trivial

structure Stage.Widens (stage next : Stage) : Prop where
  held : stage.held ⊆ next.held
  joined : next.joined = stage.joined
  members : stage.members ⊆ next.members
  tokens : stage.tokens ⊆ next.tokens

theorem Stage.Widens.refl (stage : Stage) : stage.Widens stage :=
  ⟨Subset.refl _, rfl, Subset.refl _, Subset.refl _⟩

theorem Stage.Widens.trans {next last : Stage} (h : stage.Widens next) (h' : next.Widens last) : stage.Widens last :=
  ⟨Subset.trans h.held h'.held, h'.joined.trans h.joined, Subset.trans h.members h'.members,
    Subset.trans h.tokens h'.tokens⟩

variable {rows : State → List Row} {change : State → State → State}

theorem Stage.moves_select {db seen : State} (members : List Nat) (tokens : List (Nat × Nat))
    (hknows : stage.Knows t db) (hlocked : stage.Locked) (hmild : Mild t stage.held stage.joined db seen)
    (hmembers : ∀ o ∈ members, HasMember seen o t ∧ o ∉ stage.joined ∧ .organization o ∈ stage.held)
    (htokens : ∀ x ∈ tokens, ∃ token, seen.tokens.get? x.1 = some token ∧ token.organizationId = x.2) :
    Stage.Moves t stage (.select rows) db seen
      { stage with
        held := rows seen ++ stage.held, members := members ++ stage.members, tokens := tokens ++ stage.tokens } where
  held := rfl
  joined := Subset.refl _
  members := subset_append_right _ _
  tokens := subset_append_right _ _
  knows := by
    refine ⟨fun o ho => ?_, fun x hx token htoken => ?_⟩
    · obtain ho | ho := mem_append.mp ho
      · obtain ⟨hmember, hnot, -⟩ := hmembers o ho
        exact (hmild.joins o hmember).resolve_right hnot
      · exact hknows.members o ho
    · obtain hx | hx := mem_append.mp hx
      · obtain ⟨seenToken, hseen, ho⟩ := htokens x hx
        obtain ⟨_, hbefore, hsame⟩ := hmild.token x.1 seenToken hseen
        obtain rfl := mem_unique hbefore htoken
        exact hsame.trans ho
      · exact hknows.tokens x hx token htoken
  locked := by
    refine ⟨fun o ho => mem_append_right _ (hlocked.joined o ho), fun o ho => ?_⟩
    obtain ho | ho := mem_append.mp ho
    · exact mem_append_right _ (hmembers o ho).2.2
    · exact mem_append_right _ (hlocked.members o ho)
  effect s _ := .refl _ _ _ _

theorem Bystands.of_select {post : State → Stage → Prop}
    (h : ∀ seen next, stage.Widens next → next.members = stage.members → next.tokens = stage.tokens →
      next.held = rows seen ++ stage.held → post seen next) : Bystands t post stage (selectForUpdate rows) := by
  rintro db seen ⟨hknows, hlocked, hmild⟩
  refine ⟨_, Stage.moves_select [] [] hknows hlocked hmild nofun nofun, ?_⟩
  exact h seen _ ⟨subset_append_right _ _, rfl, Subset.refl _, Subset.refl _⟩ rfl rfl rfl

theorem Bystands.of_read {post : State → Stage → Prop} (h : ∀ seen, post seen stage) :
    Bystands t post stage select := by
  refine .of_select fun seen next hwidens hmembers htokens hheld => ?_
  obtain ⟨_, _, _, _⟩ := next
  obtain ⟨-, hjoined, -⟩ := hwidens
  subst hjoined hmembers htokens hheld
  exact h seen

theorem Bystands.of_selectMember {post : State → Stage → Prop} {u : Nat} (hlocked : .organization o ∈ stage.held)
    (hjoined : stage.joined = [])
    (h : ∀ seen next, stage.Widens next → (HasMember seen o u → u = t → o ∈ next.members) → post seen next) :
    Bystands t post stage (selectForUpdate rows) := by
  rintro db seen ⟨hknows, hall, hmild⟩
  by_cases hmember : HasMember seen o t
  · refine ⟨_, Stage.moves_select [o] [] hknows hall hmild (fun o' ho' => ?_) nofun, ?_⟩
    · obtain rfl := mem_singleton.mp ho'
      exact ⟨hmember, by simp [hjoined], hlocked⟩
    · exact h seen _ ⟨subset_append_right _ _, rfl, subset_append_right _ _, Subset.refl _⟩
        fun _ _ => mem_append_left _ (mem_singleton_self o)
  · refine ⟨_, Stage.moves_select [] [] hknows hall hmild nofun nofun, ?_⟩
    exact h seen _ ⟨subset_append_right _ _, rfl, Subset.refl _, Subset.refl _⟩
      fun hfound hu => absurd (hu ▸ hfound) hmember

theorem Bystands.of_selectTokens {post : State → Stage → Prop} (ids : State → List Nat)
    (hids : ∀ s, ∀ i ∈ ids s, ∃ token, s.tokens.get? i = some token ∧ token.organizationId = o)
    (h : ∀ seen next, stage.Widens next → (∀ i ∈ ids seen, (i, o) ∈ next.tokens) → post seen next) :
    Bystands t post stage (selectForUpdate rows) := by
  rintro db seen ⟨hknows, hall, hmild⟩
  refine ⟨_, Stage.moves_select [] ((ids seen).map fun i => (i, o)) hknows hall hmild nofun (fun x hx => ?_), ?_⟩
  · obtain ⟨i, hi, rfl⟩ := mem_map.mp hx
    exact hids seen i hi
  · exact h seen _ ⟨subset_append_right _ _, rfl, Subset.refl _, subset_append_right _ _⟩
      fun i hi => mem_append_left _ (mem_map_of_mem hi)

theorem Bystands.of_write {post : Unit → Stage → Prop} (joined : List Nat)
    (hjoined : ∀ o ∈ joined, .organization o ∈ stage.held)
    (hchange : ∀ seen s held, stage.held ⊆ held → stage.Locked → stage.Knows t s →
      Mild t held (joined ++ stage.joined) s (change seen s))
    (h : ∀ seen, post () { stage with held := rows seen ++ stage.held, joined := joined ++ stage.joined }) :
    Bystands t post stage (write rows change) := by
  rintro db seen ⟨hknows, hlocked, hmild⟩
  refine ⟨{ stage with held := rows seen ++ stage.held, joined := joined ++ stage.joined },
    ⟨rfl, subset_append_right _ _, Subset.refl _, Subset.refl _, ⟨hknows.members, hknows.tokens⟩,
    ⟨fun o ho => ?_, fun o ho => mem_append_right _ (hlocked.members o ho)⟩, fun s hs => ?_⟩, h seen⟩
  · obtain ho | ho := mem_append.mp ho
    · exact mem_append_right _ (hjoined o ho)
    · exact mem_append_right _ (hlocked.joined o ho)
  · exact hchange seen s _ (subset_append_right _ _) hlocked ⟨hs.members, hs.tokens⟩

theorem Bystands.of_writeMild {post : Unit → Stage → Prop}
    (hchange : ∀ seen s held, stage.held ⊆ held → stage.Locked → stage.Knows t s →
      Mild t held stage.joined s (change seen s))
    (h : ∀ next, stage.Widens next → post () next) : Bystands t post stage (write rows change) :=
  .of_write [] nofun hchange fun _ => h _ ⟨subset_append_right _ _, rfl, Subset.refl _, Subset.refl _⟩

theorem Bystands.after_read (h : ∀ seen, Bystands t post' stage (f seen)) :
    Bystands t post' stage (select >>= f) := by
  refine .bind (fun _ next => next = stage) (.of_read fun _ => rfl) ?_
  rintro seen _ rfl
  exact h seen

theorem Bystands.after_lift {f : α → Transaction β}
    (h : ∀ a, r = .ok a → Bystands t post' stage (f a)) : Bystands t post' stage (lift r >>= f) := by
  refine .bind (fun a next => r = .ok a ∧ next = stage) (.of_lift fun a ha => ⟨ha, rfl⟩) ?_
  rintro a _ ⟨ha, rfl⟩
  exact h a ha

theorem Bystands.after_select
    (h : ∀ seen next, stage.Widens next → next.members = stage.members → Bystands t post' next (f seen)) :
    Bystands t post' stage (selectForUpdate rows >>= f) :=
  .bind (fun _ next => stage.Widens next ∧ next.members = stage.members)
    (.of_select fun _ _ hwidens hmembers _ _ => ⟨hwidens, hmembers⟩) fun seen next hnext => h seen next hnext.1 hnext.2

theorem Bystands.after_writeMild {f : Unit → Transaction β}
    (hchange : ∀ seen s held, stage.held ⊆ held → stage.Locked → stage.Knows t s →
      Mild t held stage.joined s (change seen s))
    (h : ∀ next, stage.Widens next → Bystands t post' next (f ())) : Bystands t post' stage (write rows change >>= f) :=
  .bind (fun _ next => stage.Widens next) (.of_writeMild hchange fun _ hnext => hnext) fun _ next hnext => h next hnext

end Rules

/-! ## The writes -/

section Writes

variable {t : Nat} {held : List Row} {joined : List Nat} {s : State} {k : Nat × Nat} {g : Member → Member} {o : Nat}
  {token : Token}

theorem isSome_modify {members : Index Member.key} {k' : Nat × Nat} (hg : ∀ m, (g m).key = m.key) :
    ((members.modify k g hg).find? k').isSome = (members.find? k').isSome := by
  rw [Index.find?_modify]
  split_ifs
  · rw [isSome_map]
  · rfl

theorem mild_modify (hg : ∀ m, (g m).key = m.key) :
    Mild t held joined s { s with members := s.members.modify k g hg } :=
  .of_same_members fun k' => isSome_modify hg

theorem mild_demoteOtherOwners {u : Nat} : Mild t held joined s (demoteOtherOwners s o u) := by
  refine .of_same_members fun k => ?_
  rw [Index.find?_updateWhere, isSome_map]

theorem mild_insertNew {m : Member} (h : m.userId = t → m.organizationId ∈ joined) :
    Mild t held joined s { s with members := s.members.insertNew m } := by
  refine .of_members (fun o ho => ?_) fun o ho => ?_
  · rw [Index.find?_insertNew]
    split_ifs
    · rfl
    · exact ho
  · rw [Index.find?_insertNew] at ho
    split_ifs at ho with hkey
    · obtain ⟨horganization, huser⟩ := Prod.mk.inj hkey.1
      rw [horganization]
      exact .inr (h huser.symm)
    · exact .inl ho

theorem mild_setOwnerUserId {u : Nat} (h : u = t → .organization o ∈ held ∧ HasMember s o t) :
    Mild t held joined s (setOwnerUserId s o u) where
  member _ h := h
  joins _ h := .inl h
  owner o' ho' := by
    obtain ⟨organization, hfound, howner⟩ := ho'
    replace hfound :
      (s.organizations.modify o fun x => { x with ownerUserId := u }).get? o' = some organization := hfound
    rw [Table.get?_modify] at hfound
    split_ifs at hfound with hsame
    · subst hsame
      obtain ⟨before, -, rfl⟩ := map_eq_some_iff.mp hfound
      exact .inr (h howner)
    · exact .inl ⟨organization, hfound, howner⟩
  key _ h := .inl h
  status o' organization hfound := by
    replace hfound :
      (s.organizations.modify o fun x => { x with ownerUserId := u }).get? o' = some organization := hfound
    rw [Table.get?_modify] at hfound
    split_ifs at hfound
    · obtain ⟨before, hbefore, rfl⟩ := map_eq_some_iff.mp hfound
      exact ⟨before, hbefore, rfl⟩
    · exact ⟨organization, hfound, rfl⟩
  user := rfl
  token _ token h := ⟨token, h, rfl⟩

theorem isSome_deleteWhere (members : Index Member.key) (k k' : Nat × Nat) :
    ((members.deleteWhere fun m => m.key = k).find? k').isSome = ((members.find? k').isSome && k' ≠ k) := by
  rw [Index.find?_deleteWhere]
  cases hfound : members.find? k' with
  | none => rfl
  | some =>
    have hkey := Index.key_of_find? hfound
    by_cases hk : k' = k
    · simp [hkey]
    · simp [hkey]

variable {u : Nat}

theorem mild_deleteMember (h : u ≠ t) :
    Mild t held joined s { s with members := s.members.deleteWhere fun m => m.key = (o, u) } := by
  have hsame (o' : Nat) : ((s.members.deleteWhere fun m => m.key = (o, u)).find? (o', t)).isSome =
      (s.members.find? (o', t)).isSome := by
    have hne : (o', t) ≠ (o, u) := fun hk => h (Prod.mk.inj hk).2.symm
    rw [isSome_deleteWhere, decide_eq_true hne, Bool.and_true]
  exact .of_members (fun o' ho' => (hsame o').trans ho') fun o' ho' => .inl ((hsame o').symm.trans ho')

theorem mild_deleteUser (h : u ≠ t) : Mild t held joined s { s with users := s.users.delete u } where
  member _ h := h
  joins _ h := .inl h
  owner _ h := .inl h
  key _ h := .inl h
  status _ organization h := ⟨organization, h, rfl⟩
  user := by rw [Table.get?_delete, if_neg h.symm]
  token _ token h := ⟨token, h, rfl⟩

theorem refersTo_of_holder {token' : Token} (h : token'.holder = token.holder) :
    refersTo u token' = refersTo u token := by
  obtain ⟨-, huser, hresponsible, hdeleted⟩ :
    token'.organizationId = token.organizationId ∧ token'.userId = token.userId ∧
      token'.responsibleUserId = token.responsibleUserId ∧ token'.deleted = token.deleted := by
    simpa [Token.holder] using h
  unfold refersTo
  rw [huser, hresponsible, hdeleted]

theorem mild_deleteTokens (ids : List Nat) :
    Mild t held joined s { s with tokens := ids.foldl Table.delete s.tokens } := by
  refine .of_tokens fun i token hi => ?_
  rw [Table.get?_foldl_delete] at hi
  split_ifs at hi
  exact ⟨token, hi, rfl, .inl⟩

theorem mild_updateTokens {p : Token → Bool} {g : Token → Token} (hg : ∀ token, (g token).holder = token.holder) :
    Mild t held joined s { s with tokens := s.tokens.updateWhere p g } := by
  refine .of_tokens fun i token hi => ?_
  obtain ⟨before, hbefore, rfl⟩ := map_eq_some_iff.mp hi
  refine ⟨before, hbefore, ?_⟩
  split_ifs
  · exact ⟨(congrArg Prod.fst (hg before)).symm, fun h => .inl (refersTo_of_holder (hg before) ▸ h)⟩
  · exact ⟨rfl, .inl⟩

theorem holder_clearMemberDisabled (env : Sources) (key : BlockerKey) (o : Nat) (now : Int) (token : Token) :
    (if (token.clearBlockers (Blocker.isActive key)).ofOrganization o then
      reconcileOrganizationTokenSystemBlocker env now (token.clearBlockers (Blocker.isActive key))
    else token.clearBlockers (Blocker.isActive key)).holder = token.holder := by
  split_ifs
  · rw [holder_reconcile]
    rfl
  · rfl

theorem mild_updateIds {ids : List Nat} {g : Token → Token}
    (horganization : ∀ token, (g token).organizationId = token.organizationId)
    (h : ∀ i ∈ ids, ∀ token, s.tokens.get? i = some token → refersTo t (g token) = true → refersTo t token = true ∨
      .organization token.organizationId ∈ held ∧ HasMember s token.organizationId t) :
    Mild t held joined s { s with tokens := s.tokens.updateIds ids g } := by
  refine .of_tokens fun i token hi => ?_
  rw [Table.get?_updateIds] at hi
  split_ifs at hi with hmem
  · obtain ⟨before, hbefore, rfl⟩ := map_eq_some_iff.mp hi
    refine ⟨before, hbefore, (horganization before).symm, fun hrefers => ?_⟩
    rw [horganization]
    exact h i hmem before hbefore hrefers
  · exact ⟨token, hi, rfl, .inl⟩

theorem organizationId_of_heldBy (h : token.heldBy o u = true) : token.organizationId = o :=
  (of_decide_eq_true (of_decide_eq_true h).1).2

theorem holder_handOver (env : Sources) (u : Nat) (now : Int) (token : Token) :
    (token.handOver env u now).holder = (token.organizationId, u, u, token.deleted) := by
  rw [Token.handOver, holder_reconcile]
  rfl

end Writes

/-! ## The functions -/

section Functions

variable {t : Nat} {stage : Stage}

theorem bystands_lockOrganization {o : Nat} :
    Bystands t (fun _ next => stage.Widens next ∧ .organization o ∈ next.held) stage (lockOrganization o) := by
  refine .bind (fun _ next => stage.Widens next ∧ .organization o ∈ next.held)
    (.of_select fun seen next hwidens _ _ hheld => ⟨hwidens, ?_⟩) fun seen next hnext => .of_lift fun _ _ => hnext
  rw [hheld]
  exact mem_cons_self

variable {caller : Caller} {organization : Organization}

theorem bystands_managementDecision {capability : Capability} :
    Bystands t (fun _ next => stage.Widens next) stage (managementDecision caller organization capability) := by
  refine .after_read fun _ => .after_lift fun _ _ => .after_select fun _ next hwidens _ => ?_
  exact .after_lift fun _ _ => .after_lift fun _ _ => .of_pure hwidens

theorem bystands_actorContext : Bystands t (fun _ next => stage.Widens next) stage (actorContext caller) := by
  refine .after_read fun _ => .after_lift fun _ _ => .after_read fun _ => .after_lift fun _ _ => .after_read fun _ => ?_
  exact .after_lift fun _ _ => .of_pure (.refl stage)

theorem bystands_writeMember {member : Member} {existing : Option Member}
    (h : .organization member.organizationId ∈ stage.held) :
    Bystands t (fun _ _ => True) stage (writeMember member existing) := by
  cases existing with
  | some _ => exact .of_writeMild (fun _ _ _ _ _ _ => mild_modify _) fun _ _ => trivial
  | none =>
    refine .of_write [member.organizationId] (fun o ho => ?_) (fun _ _ _ _ _ _ => ?_) fun _ => trivial
    · obtain rfl := mem_singleton.mp ho
      exact h
    · exact mild_insertNew fun _ => mem_append_left _ (mem_singleton_self _)

/-- What is done under an idempotency key may use that nothing but locks is added before. -/
theorem bystands_withIdempotency {key : String} {request : OrganizationRequest} {body : Transaction Unit}
    (h : ∀ next, stage.Widens next → Bystands t (fun _ _ => True) next body) :
    Bystands t (fun _ _ => True) stage (withIdempotency caller key request body) := by
  refine .after_read fun seen => .after_lift fun prepared _ => ?_
  cases prepared with
  | none => exact .of_pure trivial
  | some _ =>
    refine .after_writeMild (fun _ _ _ _ _ _ => .of_eq rfl rfl rfl rfl) fun next hwidens => ?_
    refine .bind (fun _ _ => True) (h next hwidens) fun _ last _ => ?_
    exact .of_writeMild (fun _ _ _ _ _ _ => .of_eq rfl rfl rfl rfl) fun _ _ => trivial

variable {o u : Nat}

theorem bystands_moveOwnership (h : u = t → o ∈ stage.members) :
    Bystands t (fun _ _ => True) stage (moveOwnership o u) := by
  refine .after_writeMild (fun _ _ _ _ _ _ => mild_modify _) fun next hwidens => ?_
  refine .after_writeMild (fun _ s held hheld hlocked hknows => mild_setOwnerUserId fun hu => ?_) fun last _ =>
    .after_read fun _ => .of_lift fun _ _ => trivial
  have hmember := hwidens.members (h hu)
  exact ⟨hheld (hlocked.members o hmember), hknows.members o hmember⟩

theorem bystands_responsibleUser {visibility : TokenVisibility}
    {failed : OrganizationError → OrganizationError} (hlocked : .organization o ∈ stage.held)
    (hjoined : stage.joined = []) : Bystands t (fun _ next => stage.Widens next ∧ (u = t → o ∈ next.members)) stage
      (responsibleUser o organization visibility u failed) := by
  refine .bind (fun seen next => stage.Widens next ∧ (HasMember seen o u → u = t → o ∈ next.members))
    (.of_selectMember hlocked hjoined fun _ _ hwidens hlearned => ⟨hwidens, hlearned⟩) fun seen next hnext =>
      .of_lift fun _ hok => ⟨hnext.1, ?_⟩
  refine hnext.2 ?_
  -- only an active member passes the check
  unfold ensureOrganizationTokenResponsibleUser at hok
  split at hok
  · rename_i member user hmember huser
    obtain ⟨hrow, -⟩ := activeMember_eq_some.mp hmember
    exact isSome_iff_exists.mpr ⟨member, hrow⟩
  · cases hok

theorem bystands_handOver {ids : List Nat} {now : Int} (hids : ∀ i ∈ ids, (i, o) ∈ stage.tokens)
    (hmember : u = t → o ∈ stage.members) :
    Bystands t (fun _ next => stage.Widens next) stage (handOver ids u now) := by
  refine .of_writeMild (fun seen s held hheld hlocked hknows => mild_updateIds (fun token => ?_)
    fun i hi token hfound hrefers => ?_)
    fun _ hwidens => hwidens
  · exact congrArg Prod.fst (holder_handOver seen.toSources u now token)
  · right
    have ho : token.organizationId = o := hknows.tokens _ (hids i hi) token hfound
    have hu : u = t := by
      have hholder := holder_handOver seen.toSources u now token
      simp only [Token.holder, Prod.mk.injEq] at hholder
      obtain ⟨-, huser, hresponsible, -⟩ := hholder
      unfold refersTo at hrefers
      rw [huser, hresponsible] at hrefers
      simpa using (of_decide_eq_true hrefers).2
    rw [ho]
    exact ⟨hheld (hlocked.members o (hmember hu)), hknows.members o (hmember hu)⟩

end Functions

/-! ## The operations -/

section Operations

variable {t : Nat} {caller : Caller} {userId o u fromUserId transferToUserId : Nat} {now : Int} {stage : Stage}
  {organization : Organization}

theorem bystands_addOrganizationMember {role : RequestField Role} :
    Bystands t (fun _ _ => True) {} (addOrganizationMember caller userId role) := by
  refine .after_lift fun _ _ => .after_lift fun role _ => ?_
  refine .bind _ bystands_lockOrganization ?_
  rintro organization locked ⟨-, hlocked⟩
  refine .bind _ bystands_managementDecision fun decision next hnext => ?_
  refine .after_lift fun _ _ => .after_read fun _ => .after_lift fun _ _ => .after_select fun seen last hlast _ => ?_
  exact .after_lift fun _ _ => bystands_writeMember (hlast.held (hnext.held hlocked))

theorem bystands_acceptInvite {config : Config} {token : String} :
    Bystands t (fun _ _ => True) {} (acceptInvite config o token userId now) := by
  refine .after_lift fun _ _ => .bind _ bystands_lockOrganization ?_
  rintro organization locked ⟨-, hlocked⟩
  refine .after_select fun s next hnext _ => ?_
  split
  · exact .of_fail
  refine .after_lift fun _ _ => .after_lift fun _ _ => .after_lift fun _ _ =>
    .after_lift fun _ _ => .after_read fun s => ?_
  split
  · exact .of_fail
  refine .after_lift fun _ _ => .after_writeMild (fun _ _ _ _ _ _ => .of_eq rfl rfl rfl rfl) fun last hlast => ?_
  refine .after_lift fun _ _ => .after_lift fun _ _ => .after_read fun _ => .after_lift fun _ _ => ?_
  refine .bind _ (bystands_writeMember (hlast.held (hnext.held hlocked))) fun _ after _ => ?_
  exact .bind _ bystands_actorContext fun _ _ _ => .of_pure trivial

theorem bystands_transferOrganizationOwner {reason key : String} :
    Bystands t (fun _ _ => True) {} (transferOrganizationOwner caller u reason key) := by
  refine .after_lift fun _ _ => .after_lift fun _ _ => .bind _ bystands_lockOrganization ?_
  rintro organization locked ⟨hempty, hlocked⟩
  refine bystands_withIdempotency fun next hnext => ?_
  refine .bind _ bystands_managementDecision fun decision after hafter => ?_
  have hwidens := (hempty.trans hnext).trans hafter
  replace hlocked := hafter.held (hnext.held hlocked)
  -- the row that is selected is that of an active member
  have htarget {stage : Stage} (hstage : after.Widens stage) :
      Bystands t (fun seen next => stage.Widens next ∧ ((seen.activeMember caller.organizationId u).isSome → u = t →
        caller.organizationId ∈ next.members)) stage
        (selectForUpdate fun s => activeMemberRow s caller.organizationId u) := by
    refine .of_selectMember (hstage.held hlocked) (hstage.joined.trans hwidens.joined) fun seen next hnext hlearned =>
      ⟨hnext, fun hactive hu => hlearned ?_ hu⟩
    obtain ⟨member, hmember⟩ := isSome_iff_exists.mp hactive
    exact isSome_iff_exists.mpr ⟨member, (activeMember_eq_some.mp hmember).1⟩
  split
  · refine .bind _ (htarget (.refl after)) ?_
    rintro seen found ⟨-, hlearned⟩
    refine .after_lift fun _ hactive =>
      .after_writeMild (fun _ _ _ _ _ _ => mild_demoteOtherOwners) fun last hlast => ?_
    exact bystands_moveOwnership fun hu => hlast.members (hlearned (ensure_eq_ok.mp hactive) hu)
  · split
    · exact .of_pure trivial
    · refine .after_select fun _ stage hstage _ => .after_lift fun _ _ => .bind _ (htarget hstage) ?_
      rintro seen found ⟨-, hlearned⟩
      refine .after_lift fun _ hactive => .after_writeMild (fun _ _ _ _ _ _ => mild_modify _) fun last hlast => ?_
      refine bystands_moveOwnership fun hu => hlast.members (hlearned ?_ hu)
      exact isSome_of_any (ensure_eq_ok.mp hactive)

theorem bystands_updateOrganizationTokenResponsibility {i : Nat} :
    Bystands t (fun _ _ => True) {} (updateOrganizationTokenResponsibility caller i u now) := by
  refine .after_lift fun _ _ => .bind _ bystands_lockOrganization ?_
  rintro _ locked ⟨hempty, hlocked⟩
  refine .after_lift fun _ _ => .bind _ bystands_actorContext fun actor next hnext => ?_
  refine .after_lift fun _ _ => .after_lift fun _ _ => .after_lift fun _ _ => ?_
  -- the key that is read is one of the organization
  have hkey : Bystands t (fun seen last => next.Widens last ∧ ((∃ token, seen.tokens.get? i = some token ∧
      token.organizationId = caller.organizationId) → (i, caller.organizationId) ∈ last.tokens)) next select := by
    refine .of_selectTokens (fun s => if ((s.tokens.get? i).any
      fun token => token.organizationId = caller.organizationId)
      then [i] else []) (fun s j hj => ?_) fun seen last hlast hlearned => ⟨hlast,
      fun ⟨token, hfound, ho⟩ => hlearned i ?_⟩
    · split_ifs at hj with hany
      · obtain rfl := mem_singleton.mp hj
        simpa using (any_eq_true _ _).mp hany
      · cases hj
    · simp [hfound, ho]
  refine .bind _ hkey ?_
  rintro seen last ⟨hlast, hlearned⟩
  refine .after_lift fun token hfound => ?_
  have hwidens := (hempty.trans hnext).trans hlast
  refine .bind _ (bystands_responsibleUser (hlast.held (hnext.held hlocked)) hwidens.joined) ?_
  rintro _ after ⟨hafter, hmember⟩
  refine bystands_handOver (o := caller.organizationId) (fun j hj => ?_) hmember |>.weaken fun _ _ _ => trivial
  obtain rfl := mem_singleton.mp hj
  refine hafter.tokens (hlearned ⟨token, ?_⟩)
  unfold getOrganizationToken at hfound
  split at hfound
  · cases hfound
  · rename_i token' hfilter
    cases hfound
    obtain ⟨hget, hof⟩ := filter_eq_some_iff.mp hfilter
    exact ⟨hget, (of_decide_eq_true hof).2⟩

theorem bystands_transferPublicKeys (hlocked : .organization o ∈ stage.held) (hjoined : stage.joined = []) :
    Bystands t (fun _ next => stage.Widens next) stage
      (transferPublicKeys o organization fromUserId transferToUserId now) := by
  refine .bind (fun seen next => stage.Widens next ∧ ∀ i ∈ (seen.tokens.select fun token =>
    token.heldBy o fromUserId ∧ token.visibility = .public).map Prod.fst, (i, o) ∈ next.tokens)
    (.of_selectTokens _ (fun s i hi => ?_) fun seen next hnext hlearned => ⟨hnext, hlearned⟩) ?_
  · obtain ⟨⟨i, token⟩, hmem, rfl⟩ := mem_map.mp hi
    obtain ⟨hget, hheld⟩ := Table.mem_select_iff.mp hmem
    exact ⟨token, hget, organizationId_of_heldBy (of_decide_eq_true hheld).1⟩
  · rintro seen next ⟨hnext, hkeys⟩
    split_ifs
    · exact .of_pure hnext
    · refine .after_lift fun _ _ =>
        .bind _ (bystands_responsibleUser (hnext.held hlocked) (hnext.joined.trans hjoined)) ?_
      rintro _ last ⟨hlast, hmember⟩
      refine (bystands_handOver (fun i hi => hlast.tokens (hkeys i hi)) hmember).weaken fun _ _ hafter => ?_
      exact (hnext.trans hlast).trans hafter

theorem bystands_transferKeys (hlocked : .organization o ∈ stage.held) (hjoined : stage.joined = []) :
    Bystands t (fun _ next => stage.Widens next) stage
      (transferKeys o organization fromUserId transferToUserId now) := by
  refine .bind _ (bystands_transferPublicKeys hlocked hjoined) ?_
  intro _ next hnext
  refine .after_select fun seen last hlast _ => .of_writeMild (fun _ s held _ _ _ => ?_) fun _ hafter =>
    (hnext.trans hlast).trans hafter
  exact mild_updateIds (fun _ => rfl) fun _ _ token _ hrefers => absurd hrefers (by simp [refersTo])

theorem bystands_removeOrganizationMember {req : RemoveMemberRequest} :
    Bystands t (fun _ _ => True) {} (removeOrganizationMember caller u req now) := by
  refine .after_lift fun _ _ => .after_lift fun _ _ => .after_lift fun _ _ => ?_
  refine .bind _ bystands_lockOrganization ?_
  rintro organization locked ⟨hempty, hlocked⟩
  refine .bind _ bystands_managementDecision fun decision next hnext => ?_
  refine .after_select fun seen last hlast _ => ?_
  split
  · exact .of_fail
  refine .after_lift fun _ _ => bystands_withIdempotency fun after hafter => ?_
  have hwidens := (hnext.trans hlast).trans hafter
  refine .bind _ (bystands_transferKeys (hwidens.held hlocked) ((hempty.trans hwidens).joined)) ?_
  exact fun _ _ _ => .of_writeMild (fun _ _ _ _ _ _ => mild_modify _) fun _ _ => trivial

theorem bystands_purgeMemberships (h : u ≠ t) (now : Int) (l : List Nat) (stage : Stage) :
    Bystands t (fun _ _ => True) stage (purgeMemberships u now l) := by
  induction l generalizing stage with
  | nil => exact .of_pure trivial
  | cons o l ih =>
    refine .bind (fun _ _ => True) ?_ fun _ next _ => ih next
    refine .bind _ bystands_lockOrganization fun organization locked _ => .after_select fun s next _ _ => ?_
    have hleave : Bystands t (fun _ _ => True) next (ensureAccountMayLeave o organization u) := by
      unfold ensureAccountMayLeave
      split_ifs
      · exact .of_pure trivial
      · exact .of_fail
      · refine .after_read fun s => ?_
        split_ifs
        · exact .of_fail
        · exact .of_pure trivial
    refine .bind _ hleave fun _ last _ => ?_
    split_ifs
    · refine .after_writeMild (fun _ _ _ _ _ _ => mild_deleteMember h) fun after _ => ?_
      refine .of_writeMild (fun seen s held _ _ _ => mild_updateTokens fun token => ?_) fun _ _ => trivial
      exact holder_clearMemberDisabled seen.toSources (memberDisabledKey o u) o now token
    · exact .of_pure trivial

theorem bystands_deleteUserAccount (h : u ≠ t) {operatorUserId : Nat} :
    Bystands t (fun _ _ => True) {} (deleteUserAccount operatorUserId u now) := by
  have hreferences {stage : Stage} (kind : Reference) :
    Bystands t (fun _ next => next = stage) stage (references kind u) := by
    rintro db seen ⟨hknows, hlocked, hmild⟩
    exact ⟨stage, ⟨rfl, Subset.refl _, Subset.refl _, Subset.refl _, hknows, hlocked, fun s _ => .refl _ _ _ _⟩, rfl⟩
  unfold deleteUserAccount
  split_ifs
  · exact .of_fail
  refine .after_select fun s locked _ _ => .after_lift fun _ _ => .bind (fun _ _ => True) ?_ fun l read _ => ?_
  · refine .bind _ (hreferences .membership) fun _ _ _ => .bind _ (hreferences .ownership) fun _ _ _ => ?_
    exact .bind _ (hreferences .key) fun _ _ _ => .of_pure trivial
  refine .bind _ (bystands_purgeMemberships h now l read) fun _ purged _ => ?_
  refine .after_select fun s next _ _ => .after_lift fun _ _ => ?_
  refine .after_writeMild (fun _ _ _ _ _ _ => mild_deleteTokens _) fun last _ => ?_
  exact .of_writeMild (fun _ _ _ _ _ _ => mild_deleteUser h) fun _ _ => trivial

theorem bystands_code (config : Config) (call : Call)
    (h : ∀ operatorUserId now, call ≠ .deleteUserAccount operatorUserId t now) :
    Bystands t (fun _ _ => True) {} (call.code config) := by
  cases call with
  | deleteUserAccount operatorUserId u now =>
    exact bystands_deleteUserAccount (fun hu => h operatorUserId now (by rw [hu]))
  | addOrganizationMember caller u role => exact bystands_addOrganizationMember
  | acceptInvite o token u now => exact bystands_acceptInvite
  | transferOrganizationOwner caller u reason key => exact bystands_transferOrganizationOwner
  | updateOrganizationTokenResponsibility caller i u now => exact bystands_updateOrganizationTokenResponsibility
  | removeOrganizationMember caller u req now => exact bystands_removeOrganizationMember

end Operations

end CubeRouter.Organization.Deletion
