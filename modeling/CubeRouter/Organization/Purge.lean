import CubeRouter.Organization.Bystanders

/-!
# The deletion of an account among other operations

The deletion of a user reads once which organizations refer to him. From there on a reference that another operation
commits is one of an organization that was found, or it comes with a member row that is new; whether such a row may be
committed is the condition. An organization that was found is locked in its round, and nothing about the user changes
in it until the deletion ends. So when it commits, every organization that refers to the user has been through its
round, and nothing is left.
-/

namespace CubeRouter.Organization.Deletion

open Concurrency Transactions Relational Transition List Option

/-! ## What the deletion has read -/

def reads (kind : Reference) (log : List (Sigma Statement.Answer)) : Bool :=
  log.any fun
    | ⟨.references kind' _, _⟩ => kind' = kind
    | _ => false

def found (log : List (Sigma Statement.Answer)) : List Nat :=
  log.flatMap fun
    | ⟨.references _ _, organizationIds⟩ => organizationIds
    | _ => []

/-- What a round learns about its organization. -/
inductive Fact
  | dissolved (o : Nat)
  | notOwner (o : Nat)
  | notKeyed (o : Nat)
  | notMember (o : Nat)

def Fact.organization : Fact → Nat
  | .dissolved o => o
  | .notOwner o => o
  | .notKeyed o => o
  | .notMember o => o

structure Purge where
  held : List Row := []
  log : List (Sigma Statement.Answer) := []
  facts : List Fact := []
  /-- Where the member row is deleted. -/
  removed : List Nat := []
  /-- The keys of the user are there. -/
  kept : Bool := true
  /-- The user is deleted. -/
  gone : Bool := false

def Fact.Holds (t : Nat) (p : Purge) (s : State) : Fact → Prop
  | .dissolved o => ∀ organization, s.organizations.get? o = some organization → organization.status = .dissolved
  | .notOwner o => ¬Owns s o t
  | .notKeyed o => ¬Keyed s o t
  | .notMember o => HasMember s o t → o ∈ p.removed

structure Purge.Underway (t : Nat) (p : Purge) (s : State) : Prop where
  start : p = {} ∨ .user t ∈ p.held
  memberships : reads .membership p.log = true → ∀ o, HasMember s o t → o ∈ found p.log
  ownerships : reads .ownership p.log = true → reads .membership p.log = true ∧ ∀ o, Owns s o t → o ∈ found p.log
  keys : reads .key p.log = true → reads .membership p.log = true ∧ ∀ o, Keyed s o t → o ∈ found p.log
  facts : ∀ f ∈ p.facts, .organization f.organization ∈ p.held ∧ f.Holds t p s
  removed : ∀ o ∈ p.removed, .organization o ∈ p.held

/-- `s'` is `s` after the writes of the deletion. -/
structure Sweep (t : Nat) (p : Purge) (s s' : State) : Prop where
  organizations : s'.organizations = s.organizations
  members : ∀ o, HasMember s' o t → HasMember s o t
  kept : ∀ o, HasMember s o t → HasMember s' o t ∨ o ∈ p.removed
  removed : ∀ o ∈ p.removed, ¬HasMember s' o t
  tokens : ∀ i token, s'.tokens.get? i = some token →
    ∃ before, s.tokens.get? i = some before ∧ before.organizationId = token.organizationId ∧
      (refersTo t token = true → refersTo t before = true)
  keyed : p.kept = true → ∀ o, Keyed s o t → Keyed s' o t
  users : s.users.get? t = none → s'.users.get? t = none
  gone : p.gone = true → s'.users.get? t = none

structure Purge.Moves (t : Nat) (p : Purge) (i : Statement) (db seen : State) (next : Purge) : Prop where
  held : next.held = store.locks i seen ++ p.held
  log : next.log = ⟨i, store.answer i seen⟩ :: p.log
  underway : next.Underway t db
  effect : ∀ s s', Sweep t p s s' → Sweep t next s (store.effect i seen s')

def purgePlan (t : Nat) : Plan store Purge where
  enters p db seen := p.Underway t db ∧ Sweep t p db seen
  moves := Purge.Moves t

def Purges (t : Nat) {α : Type} (post : α → Purge → Prop) (p : Purge) (code : Transaction α) : Prop :=
  (purgePlan t).Follows (fun r p =>
    match r with
    | .ok a => post a p
    | .error _ => True) p code

variable {t o : Nat} {p : Purge} {s s' : State}

theorem Sweep.keyed_of (h : Sweep t p s s') (ho : Keyed s' o t) : Keyed s o t := by
  obtain ⟨hne, i, token, hi, rfl, hrefers⟩ := ho
  obtain ⟨before, hbefore, hsame, hback⟩ := h.tokens i token hi
  exact ⟨hne, i, before, hbefore, hsame, hback hrefers⟩

theorem Sweep.owns_iff (h : Sweep t p s s') : Owns s' o t ↔ Owns s o t := by
  unfold Owns
  rw [h.organizations]

/-! ## The rules -/

section Rules

variable {t : Nat} {α β : Type} {post' : β → Purge → Prop} {p : Purge} {code : Transaction α} {f : α → Transaction β}
  {r : Except OrganizationError α} {s db : State} {rows : State → List Row}

theorem Purges.bind (post : α → Purge → Prop) (h : Purges t post p code)
    (hf : ∀ a next, post a next → Purges t post' next (f a)) : Purges t post' p (code >>= f) := by
  refine Plan.Follows.bind h fun r next hr => ?_
  cases r with
  | ok a => exact hf a next hr
  | error => trivial

variable {post : α → Purge → Prop}

theorem Purges.weaken {post' : α → Purge → Prop} (h : Purges t post p code)
    (hpost : ∀ a next, post a next → post' a next) : Purges t post' p code := by
  refine Plan.Follows.weaken h fun r next hr => ?_
  cases r with
  | ok a => exact hpost a next hr
  | error => trivial

theorem Purges.of_pure {a : α} (h : post a p) : Purges t post p (pure a) := h

theorem Purges.of_fail {e : AccountError} : Purges t post p (fail e) := trivial

theorem Purges.of_lift (h : ∀ a, r = .ok a → post a p) : Purges t post p (lift r) := by
  cases r with
  | ok a => exact h a rfl
  | error => trivial

theorem Purges.after_lift (h : ∀ a, r = .ok a → Purges t post' p (f a)) : Purges t post' p (lift r >>= f) := by
  refine .bind (fun a next => r = .ok a ∧ next = p) (.of_lift fun a ha => ⟨ha, rfl⟩) ?_
  rintro a _ ⟨ha, rfl⟩
  exact h a ha

/-- A later stage of the same deletion, after it has read the references. -/
structure Purge.Continues (p next : Purge) : Prop where
  held : p.held ⊆ next.held
  reads : ∀ kind, reads kind next.log = reads kind p.log
  found : found next.log = found p.log
  facts : p.facts ⊆ next.facts
  removed : p.removed ⊆ next.removed

theorem Purge.Continues.refl (p : Purge) : p.Continues p :=
  ⟨Subset.refl _, fun _ => rfl, rfl, Subset.refl _, Subset.refl _⟩

variable {next : Purge}

theorem Purge.Continues.trans {last : Purge} (h : p.Continues next) (h' : next.Continues last) : p.Continues last :=
  ⟨Subset.trans h.held h'.held, fun kind => (h'.reads kind).trans (h.reads kind), h'.found.trans h.found,
    Subset.trans h.facts h'.facts, Subset.trans h.removed h'.removed⟩

theorem Fact.Holds.mono {f : Fact} (h : f.Holds t p s) (hremoved : p.removed ⊆ next.removed) : f.Holds t next s := by
  cases f with
  | dissolved | notOwner | notKeyed => exact h
  | notMember => exact fun hmember => hremoved (h hmember)

theorem Purge.Underway.continue (h : p.Underway t db) (hnext : p.Continues next) (hstart : .user t ∈ next.held)
    (hfacts : ∀ f ∈ next.facts, f ∈ p.facts ∨ .organization f.organization ∈ next.held ∧ f.Holds t next db)
    (hremoved : ∀ o ∈ next.removed, o ∈ p.removed ∨ .organization o ∈ next.held) : next.Underway t db where
  start := .inr hstart
  memberships := by
    rw [hnext.reads, hnext.found]
    exact h.memberships
  ownerships := by
    rw [hnext.reads, hnext.reads, hnext.found]
    exact h.ownerships
  keys := by
    rw [hnext.reads, hnext.reads, hnext.found]
    exact h.keys
  facts f hf := by
    obtain hf | hnew := hfacts f hf
    · obtain ⟨hheld, hholds⟩ := h.facts f hf
      exact ⟨hnext.held hheld, hholds.mono hnext.removed⟩
    · exact hnew
  removed o ho := (hremoved o ho).elim (fun ho => hnext.held (h.removed o ho)) id

theorem Sweep.congr {s' : State} (h : Sweep t p s s') (hremoved : next.removed = p.removed)
    (hkept : next.kept = p.kept) (hgone : next.gone = p.gone) : Sweep t next s s' where
  organizations := h.organizations
  members := h.members
  kept := by
    rw [hremoved]
    exact h.kept
  removed := by
    rw [hremoved]
    exact h.removed
  tokens := h.tokens
  keyed := by
    rw [hkept]
    exact h.keyed
  users := h.users
  gone := by
    rw [hgone]
    exact h.gone

def Fact.Seen (t : Nat) (s : State) : Fact → Prop
  | .dissolved o => ∀ organization, s.organizations.get? o = some organization → organization.status = .dissolved
  | .notOwner o => ¬Owns s o t
  | .notKeyed o => ¬Keyed s o t
  | .notMember o => ¬HasMember s o t

theorem Fact.Seen.holds {f : Fact} {seen : State} (h : f.Seen t seen) (hsweep : Sweep t p db seen)
    (hkept : p.kept = true) :
    f.Holds t p db := by
  cases f with
  | dissolved => exact fun organization ho => h organization (hsweep.organizations ▸ ho)
  | notOwner => exact fun ho => h (hsweep.owns_iff.mpr ho)
  | notKeyed o => exact fun ho => h (hsweep.keyed hkept o ho)
  | notMember o => exact fun ho => (hsweep.kept o ho).resolve_left h

theorem Purges.of_select {post : State → Purge → Prop} (learn : State → List Fact)
    (hstart : ∀ s, .user t ∈ rows s ++ p.held) (hkept : p.kept = true)
    (hlearn : ∀ s, ∀ f ∈ learn s, .organization f.organization ∈ rows s ++ p.held ∧ f.Seen t s)
    (h : ∀ seen next, p.Continues next → next.kept = true → next.removed = p.removed → next.held = rows seen ++ p.held →
      learn seen ⊆ next.facts → post seen next) : Purges t post p (selectForUpdate rows) := by
  rintro db seen ⟨hunderway, hsweep⟩
  let next : Purge := { p with
    held := rows seen ++ p.held, log := ⟨.select rows, seen⟩ :: p.log, facts := learn seen ++ p.facts }
  have hnext : p.Continues next :=
    ⟨subset_append_right _ _, fun _ => rfl, rfl, subset_append_right _ _, Subset.refl _⟩
  have hpost := h seen next hnext hkept rfl rfl (subset_append_left _ _)
  refine ⟨next, ⟨rfl, rfl, ?_, fun s s' hs => hs.congr rfl rfl rfl⟩, hpost⟩
  refine hunderway.continue hnext (hstart seen) (fun f hf => ?_) fun o ho => .inl ho
  obtain hf | hf := mem_append.mp hf
  · obtain ⟨hlocked, hseen⟩ := hlearn seen f hf
    exact .inr ⟨hlocked, hseen.holds (hsweep.congr rfl rfl rfl) hkept⟩
  · exact .inl hf

theorem Purges.of_write {post : Unit → Purge → Prop} {change : State → State → State} (removed : List Nat)
    (kept gone : Bool) (hstart : .user t ∈ p.held) (hremoved : ∀ o ∈ removed, .organization o ∈ p.held)
    (hchange : ∀ seen s s' next, next.removed = removed ++ p.removed → next.kept = kept → next.gone = gone →
      Sweep t p s s' → Sweep t next s (change seen s'))
    (h : ∀ next, p.Continues next → next.kept = kept → next.gone = gone → removed ⊆ next.removed → post () next) :
    Purges t post p (write rows change) := by
  rintro db seen ⟨hunderway, hsweep⟩
  let next : Purge := { p with
    held := rows seen ++ p.held, log := ⟨.write rows change, ()⟩ :: p.log, removed := removed ++ p.removed
    kept := kept, gone := gone }
  have hnext : p.Continues next :=
    ⟨subset_append_right _ _, fun _ => rfl, rfl, Subset.refl _, subset_append_right _ _⟩
  have hpost := h next hnext rfl rfl (subset_append_left _ _)
  refine ⟨next, ⟨rfl, rfl, ?_, fun s s' hs => hchange seen s s' next rfl rfl rfl hs⟩, hpost⟩
  refine hunderway.continue hnext (hnext.held hstart) (fun f hf => .inl hf) fun o ho => ?_
  obtain ho | ho := mem_append.mp ho
  · exact .inr (hnext.held (hremoved o ho))
  · exact .inl ho

end Rules

/-! ## The references -/

section References

variable {t : Nat} {p : Purge} {s : State} {o : Nat}

theorem mem_referencesOf_membership (h : HasMember s o t) : o ∈ referencesOf s t .membership := by
  obtain ⟨m, hm⟩ := isSome_iff_exists.mp h
  obtain ⟨i, hget, hkey⟩ := Index.find?_eq_some_iff.mp hm
  obtain ⟨ho, hu⟩ := Prod.mk.inj hkey
  refine mem_map.mpr ⟨(i, m), Table.mem_select_iff.mpr ⟨hget, ?_⟩, ho⟩
  exact decide_eq_true hu

theorem mem_referencesOf_ownership (h : Owns s o t) : o ∈ referencesOf s t .ownership := by
  obtain ⟨organization, hget, howner⟩ := h
  exact mem_map.mpr ⟨(o, organization), Table.mem_select_iff.mpr ⟨hget, decide_eq_true howner⟩, rfl⟩

theorem mem_referencesOf_key (h : Keyed s o t) : o ∈ referencesOf s t .key := by
  obtain ⟨hne, i, token, hget, rfl, hrefers⟩ := h
  exact mem_map.mpr ⟨(i, token), Table.mem_select_iff.mpr ⟨hget, decide_eq_true ⟨hne, hrefers⟩⟩, rfl⟩

/-- The stage after a query for the references. -/
def Purge.ask (p : Purge) (kind : Reference) (t : Nat) (organizationIds : List Nat) : Purge :=
  { p with log := ⟨.references kind t, organizationIds⟩ :: p.log }

@[simp] theorem reads_ask (kind kind' : Reference) (l : List Nat) :
    reads kind' (p.ask kind t l).log = (decide (kind = kind') || reads kind' p.log) := rfl

@[simp] theorem found_ask (kind : Reference) (l : List Nat) : found (p.ask kind t l).log = l ++ found p.log := rfl

theorem Purges.of_references {post : List Nat → Purge → Prop} (kind : Reference) (hstart : .user t ∈ p.held)
    (hremoved : p.removed = []) (hkept : p.kept = true) (hfirst : kind = .membership ∨ reads .membership p.log = true)
    (h : ∀ l, post l (p.ask kind t l)) : Purges t post p (references kind t) := by
  rintro db seen ⟨hunderway, hsweep⟩
  refine ⟨p.ask kind t (referencesOf seen t kind), ⟨rfl, rfl, ?_, fun s s' hs => hs.congr rfl rfl rfl⟩, h _⟩
  have hmember {o : Nat} (ho : HasMember db o t) :
    HasMember seen o t := (hsweep.kept o ho).resolve_right (by simp [hremoved])
  have hread : reads .membership (p.ask kind t (referencesOf seen t kind)).log = true := by
    obtain rfl | hread := hfirst
    · simp
    · simp [hread]
  refine ⟨.inr hstart, fun _ o ho => ?_, fun hown => ⟨hread, fun o ho => ?_⟩, fun hkey => ⟨hread, fun o ho => ?_⟩, ?_,
    hunderway.removed⟩
  · obtain rfl | hread := hfirst
    · exact mem_append_left _ (mem_referencesOf_membership (hmember ho))
    · exact mem_append_right _ (hunderway.memberships hread o ho)
  · by_cases hkind : kind = .ownership
    · subst hkind
      exact mem_append_left _ (mem_referencesOf_ownership (hsweep.owns_iff.mpr ho))
    · rw [reads_ask, decide_eq_false hkind, Bool.false_or] at hown
      exact mem_append_right _ ((hunderway.ownerships hown).2 o ho)
  · by_cases hkind : kind = .key
    · subst hkind
      exact mem_append_left _ (mem_referencesOf_key (hsweep.keyed hkept o ho))
    · rw [reads_ask, decide_eq_false hkind, Bool.false_or] at hkey
      exact mem_append_right _ ((hunderway.keys hkey).2 o ho)
  · intro f hf
    obtain ⟨hheld, hholds⟩ := hunderway.facts f hf
    exact ⟨hheld, hholds.mono (Subset.refl _)⟩

structure Purge.Asked (t : Nat) (p : Purge) (l : List Nat) : Prop where
  user : .user t ∈ p.held
  removed : p.removed = []
  kept : p.kept = true
  reads : ∀ kind, reads kind p.log = true
  found : ∀ o ∈ found p.log, o ∈ l

theorem purges_accountOrganizationReferences (hstart : .user t ∈ p.held)
    (hremoved : p.removed = []) (hkept : p.kept = true)
    (hlog : found p.log = []) : Purges t (fun l next => next.Asked t l) p (accountOrganizationReferences t) := by
  refine .bind (fun l next => next = p.ask .membership t l)
    (.of_references .membership hstart hremoved hkept (.inl rfl) fun _ => rfl) ?_
  rintro memberships _ rfl
  refine .bind (fun l next => next = (p.ask .membership t memberships).ask .ownership t l)
    (.of_references (p := p.ask .membership t memberships) .ownership hstart hremoved hkept (.inr rfl) fun _ => rfl) ?_
  rintro ownerships _ rfl
  refine .bind (fun l next => next = ((p.ask .membership t memberships).ask .ownership t ownerships).ask .key t l)
    (.of_references (p := (p.ask .membership t memberships).ask .ownership t ownerships) .key hstart hremoved hkept
      (.inr rfl) fun _ => rfl) ?_
  rintro keys _ rfl
  refine .of_pure ⟨hstart, hremoved, hkept, fun kind => ?_, fun o ho => ?_⟩
  · cases kind <;> simp
  · simp only [found_ask, hlog] at ho
    rw [mem_mergeSort, mem_dedup]
    simp only [mem_append] at ho ⊢
    tauto

end References

/-! ## A round -/

section Round

variable {t : Nat} {p : Purge}

/-- The organization has been through its round. -/
def Purge.Settled (p : Purge) (o : Nat) : Prop :=
  (.dissolved o ∈ p.facts ∨ .notOwner o ∈ p.facts ∧ .notKeyed o ∈ p.facts) ∧ (.notMember o ∈ p.facts ∨ o ∈ p.removed)

variable {o : Nat} {next : Purge} {s s' : State}

theorem Purge.Settled.mono (h : p.Settled o) (hnext : p.Continues next) : next.Settled o :=
  ⟨h.1.imp (fun hf => hnext.facts hf) fun hf => ⟨hnext.facts hf.1, hnext.facts hf.2⟩,
    h.2.imp (fun hf => hnext.facts hf) fun ho => hnext.removed ho⟩

def rowFacts (t o : Nat) (s : State) : List Fact :=
  match s.organizations.get? o with
  | none => []
  | some organization =>
    (if organization.status = .dissolved then [.dissolved o] else []) ++
      if organization.ownerUserId ≠ t then [.notOwner o] else []

theorem rowFacts_seen : ∀ f ∈ rowFacts t o s, f.organization = o ∧ f.Seen t s := by
  intro f hf
  unfold rowFacts at hf
  split at hf
  · cases hf
  · rename_i organization hget
    obtain hf | hf := mem_append.mp hf
    · split_ifs at hf with hdissolved
      · obtain rfl := mem_singleton.mp hf
        refine ⟨rfl, fun organization' hget' => ?_⟩
        obtain rfl := mem_unique hget hget'
        exact hdissolved
      · cases hf
    · split_ifs at hf with howner
      · obtain rfl := mem_singleton.mp hf
        refine ⟨rfl, fun ⟨organization', hget', howner'⟩ => ?_⟩
        obtain rfl := mem_unique hget hget'
        exact howner howner'
      · cases hf

theorem purges_lockOrganization (o : Nat) (hstart : .user t ∈ p.held) (hkept : p.kept = true) :
    Purges t (fun organization next => p.Continues next ∧ next.kept = true ∧ next.removed = p.removed ∧
      .organization o ∈ next.held ∧
      (organization.status = .dissolved → .dissolved o ∈ next.facts) ∧
      (organization.ownerUserId ≠ t → .notOwner o ∈ next.facts)) p (lockOrganization o) := by
  refine .bind (fun s next => p.Continues next ∧ next.kept = true ∧ next.removed = p.removed ∧
    .organization o ∈ next.held ∧
    rowFacts t o s ⊆ next.facts) (.of_select (rowFacts t o)
      (fun s => mem_append_right _ hstart) hkept (fun s f hf => ?_)
      fun s next hnext hkept hremoved hheld hlearned => ⟨hnext, hkept, hremoved, ?_, hlearned⟩) ?_
  · obtain ⟨rfl, hseen⟩ := rowFacts_seen f hf
    exact ⟨mem_append_left _ (mem_singleton_self _), hseen⟩
  · rw [hheld]
    exact mem_append_left _ (mem_singleton_self _)
  · rintro s next ⟨hnext, hkept, hremoved, hlocked, hlearned⟩
    refine .of_lift fun organization hok =>
      ⟨hnext, hkept, hremoved, hlocked, fun hstatus => hlearned ?_, fun howner => hlearned ?_⟩
    · rw [rowFacts, lockOrganizationForUpdate_ok.mp hok]
      exact mem_append_left _ (by simp [hstatus])
    · rw [rowFacts, lockOrganizationForUpdate_ok.mp hok]
      exact mem_append_right _ (by simp [howner])

theorem Sweep.deleteMember (h : Sweep t p s s') (hremoved : next.removed = [o] ++ p.removed)
    (hkept : next.kept = p.kept) (hgone : next.gone = p.gone) :
    Sweep t next s { s' with members := s'.members.deleteWhere fun m => m.key = (o, t) } := by
  have hmember (o' : Nat) : HasMember { s' with members := s'.members.deleteWhere fun m => m.key = (o, t) } o' t ↔
      HasMember s' o' t ∧ o' ≠ o := by
    unfold HasMember
    rw [isSome_deleteWhere]
    simp
  constructor
  · exact h.organizations
  · exact fun o' ho' => h.members o' ((hmember o').mp ho').1
  · intro o' ho'
    rw [hremoved, hmember]
    by_cases hsame : o' = o
    · exact .inr (mem_append_left _ (by simp [hsame]))
    · exact (h.kept o' ho').imp (fun hstill => ⟨hstill, hsame⟩) fun hmem => mem_append_right _ hmem
  · intro o' ho'
    rw [hremoved] at ho'
    rw [hmember]
    obtain ho' | ho' := mem_append.mp ho'
    · exact fun hstill => hstill.2 (mem_singleton.mp ho')
    · exact fun hstill => h.removed o' ho' hstill.1
  · exact h.tokens
  · rw [hkept]
    exact h.keyed
  · exact h.users
  · rw [hgone]
    exact h.gone

theorem Sweep.tokens_of {tokens : Table Token} (h : Sweep t p s s') (hremoved : next.removed = p.removed)
    (hgone : next.gone = p.gone)
    (htokens : ∀ i token, tokens.get? i = some token → ∃ before, s'.tokens.get? i = some before ∧
      token.holder = before.holder)
    (hkeyed : next.kept = true → p.kept = true ∧ ∀ i before, s'.tokens.get? i = some before →
      ∃ token, tokens.get? i = some token ∧ token.holder = before.holder) :
    Sweep t next s { s' with tokens := tokens } where
  organizations := h.organizations
  members := h.members
  kept := by
    rw [hremoved]
    exact h.kept
  removed := by
    rw [hremoved]
    exact h.removed
  tokens i token hi := by
    obtain ⟨between, hbetween, hholder⟩ := htokens i token hi
    obtain ⟨before, hbefore, hsame, hback⟩ := h.tokens i between hbetween
    refine ⟨before, hbefore, hsame.trans (congrArg Prod.fst hholder).symm, fun hrefers => hback ?_⟩
    rw [← refersTo_of_holder hholder]
    exact hrefers
  keyed hkept o ho := by
    obtain ⟨hwas, hall⟩ := hkeyed hkept
    obtain ⟨hne, i, before, hi, hsame, hrefers⟩ := h.keyed hwas o ho
    obtain ⟨token, htoken, hholder⟩ := hall i before hi
    refine ⟨hne, i, token, htoken, (congrArg Prod.fst hholder).trans hsame, ?_⟩
    rw [refersTo_of_holder hholder]
    exact hrefers
  users := h.users
  gone := by
    rw [hgone]
    exact h.gone

theorem Sweep.updateTokens {test : Token → Bool} {g : Token → Token} (h : Sweep t p s s')
    (hremoved : next.removed = p.removed) (hkept : next.kept = p.kept) (hgone : next.gone = p.gone)
    (hg : ∀ token, (g token).holder = token.holder) :
    Sweep t next s { s' with tokens := s'.tokens.updateWhere test g } := by
  have hrow (before : Token) : (if test before then g before else before).holder = before.holder := by
    split_ifs
    · exact hg before
    · rfl
  refine h.tokens_of hremoved hgone (fun i token hi => ?_) fun hstill => ⟨hkept ▸ hstill, fun i before hi => ?_⟩
  · obtain ⟨before, hbefore, rfl⟩ := map_eq_some_iff.mp hi
    exact ⟨before, hbefore, hrow before⟩
  · refine ⟨if test before then g before else before, ?_, hrow before⟩
    rw [Table.get?_updateWhere, hi, map_some]

theorem purges_ensureAccountMayLeave {organization : Organization} (hstart : .user t ∈ p.held) (hkept : p.kept = true)
    (hlocked : .organization o ∈ p.held) (hdissolved : organization.status = .dissolved → .dissolved o ∈ p.facts)
    (howner : organization.ownerUserId ≠ t → .notOwner o ∈ p.facts) :
    Purges t (fun _ next => p.Continues next ∧ next.kept = true ∧
      (.dissolved o ∈ next.facts ∨ .notOwner o ∈ next.facts ∧ .notKeyed o ∈ next.facts)) p
      (ensureAccountMayLeave o organization t) := by
  unfold ensureAccountMayLeave
  split_ifs with hstatus hown
  · exact .of_pure ⟨.refl p, hkept, .inl (hdissolved hstatus)⟩
  · exact .of_fail
  let keyed (s : State) : Bool := s.tokens.any fun _ token => token.organizationId = o ∧ refersTo t token
  refine .bind (fun s next => p.Continues next ∧ next.kept = true ∧ (keyed s = false → .notKeyed o ∈ next.facts))
    (.of_select (fun s => if keyed s then [] else [.notKeyed o]) (fun _ => hstart) hkept (fun s f hf => ?_)
      fun s next hnext hstill _ _ hlearned => ⟨hnext, hstill, fun hnone => hlearned (by simp [hnone])⟩) ?_
  · split_ifs at hf with hany
    · cases hf
    · obtain rfl := mem_singleton.mp hf
      refine ⟨hlocked, fun ⟨_, i, token, hi, ho, hrefers⟩ => hany ?_⟩
      exact Table.any_iff.mpr ⟨i, token, hi, decide_eq_true ⟨ho, hrefers⟩⟩
  · rintro s next ⟨hnext, hstill, hlearned⟩
    split_ifs with hany
    · exact .of_fail
    · exact .of_pure ⟨hnext, hstill, .inr ⟨hnext.facts (howner hown), hlearned (Bool.eq_false_iff.mpr hany)⟩⟩

theorem purges_purgeMembership (o : Nat) (now : Int) (hstart : .user t ∈ p.held) (hkept : p.kept = true) :
    Purges t (fun _ next => p.Continues next ∧ next.kept = true ∧ next.Settled o) p (purgeMembership t now o) := by
  refine .bind _ (purges_lockOrganization o hstart hkept) ?_
  rintro organization locked ⟨hlock, hkept, -, hlocked, hdissolved, howner⟩
  replace hstart := hlock.held hstart
  refine .bind (fun s next => locked.Continues next ∧ next.kept = true ∧
    ((s.members.find? (o, t)).isSome = false → .notMember o ∈ next.facts))
    (.of_select (fun s => if (s.members.find? (o, t)).isSome then [] else [.notMember o])
      (fun _ => mem_append_right _ hstart) hkept (fun s f hf => ?_)
      fun s next hnext hstill _ _ hlearned => ⟨hnext, hstill, fun hnone => hlearned (by simp [hnone])⟩) ?_
  · split_ifs at hf with hmember
    · cases hf
    · obtain rfl := mem_singleton.mp hf
      exact ⟨mem_append_right _ hlocked, hmember⟩
  rintro s next ⟨hnext, hkept, hnone⟩
  replace hlocked := hnext.held hlocked
  replace hstart := hnext.held hstart
  refine .bind _ (purges_ensureAccountMayLeave hstart hkept hlocked (fun h => hnext.facts (hdissolved h))
    fun h => hnext.facts (howner h)) ?_
  rintro _ left ⟨hleft, hkept, hfree⟩
  have hcontinues := (hlock.trans hnext).trans hleft
  replace hlocked := hleft.held hlocked
  replace hstart := hleft.held hstart
  split_ifs with hmember
  · refine .bind (fun _ next => left.Continues next ∧ next.kept = true ∧ o ∈ next.removed)
      (.of_write [o] left.kept left.gone hstart (fun o' ho' => mem_singleton.mp ho' ▸ hlocked)
        (fun _ _ _ _ hremoved hkept hgone hs => hs.deleteMember hremoved hkept hgone)
        fun next hnext hstill _ hremoved => ⟨hnext, hstill.trans hkept, hremoved (mem_singleton_self o)⟩) ?_
    rintro _ next ⟨hdeleted, hkept, hremoved⟩
    refine .of_write [] next.kept next.gone (hdeleted.held hstart) (forall_mem_nil _)
      (fun seen _ _ _ hremoved hkept hgone hs =>
      hs.updateTokens hremoved hkept hgone fun token => ?_) fun last hlast hstill _ _ => ?_
    · exact holder_clearMemberDisabled seen.toSources (memberDisabledKey o t) o now token
    · have hsettled : next.Settled o :=
        ⟨hfree.imp (fun hf => hdeleted.facts hf) fun hf => ⟨hdeleted.facts hf.1, hdeleted.facts hf.2⟩, .inr hremoved⟩
      exact ⟨(hcontinues.trans hdeleted).trans hlast, hstill.trans hkept, hsettled.mono hlast⟩
  · exact .of_pure ⟨hcontinues, hkept, hfree, .inl (hleft.facts (hnone (by simpa using hmember)))⟩

theorem purges_purgeMemberships (l : List Nat) (now : Int) (hstart : .user t ∈ p.held) (hkept : p.kept = true) :
    Purges t (fun _ next => p.Continues next ∧ next.kept = true ∧ ∀ o ∈ l, next.Settled o) p
      (purgeMemberships t now l) := by
  induction l generalizing p with
  | nil => exact .of_pure ⟨.refl p, hkept, nofun⟩
  | cons o l ih =>
    refine .bind _ (purges_purgeMembership o now hstart hkept) ?_
    rintro _ next ⟨hnext, hkept, hsettled⟩
    refine (ih (hnext.held hstart) hkept).weaken ?_
    rintro _ last ⟨hlast, hkept, hall⟩
    refine ⟨hnext.trans hlast, hkept, fun o' ho' => ?_⟩
    obtain rfl | ho' := mem_cons.mp ho'
    · exact hsettled.mono hlast
    · exact hall o' ho'

end Round

/-! ## The whole deletion -/

section Deletion

variable {t : Nat} {p : Purge}

/-- The stage from which the deletion commits. -/
structure Purge.Done (t : Nat) (p : Purge) : Prop where
  user : .user t ∈ p.held
  reads : ∀ kind, reads kind p.log = true
  settled : ∀ o ∈ found p.log, p.Settled o
  gone : p.gone = true

variable {s s' : State} {next : Purge}

theorem Sweep.deleteTokens {ids : List Nat} (h : Sweep t p s s') (hremoved : next.removed = p.removed)
    (hkept : next.kept = false) (hgone : next.gone = p.gone) :
    Sweep t next s { s' with tokens := ids.foldl Table.delete s'.tokens } := by
  refine h.tokens_of hremoved hgone (fun i token hi => ?_) fun hstill => by simp [hkept] at hstill
  rw [Table.get?_foldl_delete] at hi
  split_ifs at hi
  exact ⟨token, hi, rfl⟩

theorem Sweep.deleteUser (h : Sweep t p s s') (hremoved : next.removed = p.removed)
    (hkept : next.kept = p.kept) : Sweep t next s { s' with users := s'.users.delete t } where
  organizations := h.organizations
  members := h.members
  kept := by
    rw [hremoved]
    exact h.kept
  removed := by
    rw [hremoved]
    exact h.removed
  tokens := h.tokens
  keyed := by
    rw [hkept]
    exact h.keyed
  users _ := by rw [Table.get?_delete, if_pos rfl]
  gone _ := by rw [Table.get?_delete, if_pos rfl]

theorem purges_deleteUserAccount (operatorUserId : Nat) (now : Int) :
    Purges t (fun _ next => next.Done t) {} (deleteUserAccount operatorUserId t now) := by
  unfold deleteUserAccount
  split_ifs
  · exact .of_fail
  refine .bind (fun _ next => .user t ∈ next.held ∧ next.kept = true ∧ next.removed = [] ∧ found next.log = [])
    (.of_select (p := {}) (fun _ => []) (fun _ => mem_append_left _ (mem_singleton_self _)) rfl
      (fun _ => forall_mem_nil _)
      fun s next hnext hkept hremoved hheld _ => ⟨?_, hkept, hremoved, hnext.found⟩) ?_
  · rw [hheld]
    exact mem_append_left _ (mem_singleton_self _)
  rintro s locked ⟨hstart, hkept, hremoved, hlog⟩
  refine .after_lift fun _ _ => .bind _ (purges_accountOrganizationReferences hstart hremoved hkept hlog)
    fun l asked hasked => ?_
  refine .bind _ (purges_purgeMemberships l now hasked.user hasked.kept) ?_
  rintro _ purged ⟨hpurged, hkept, hsettled⟩
  have hstart := hpurged.held hasked.user
  refine .bind (fun _ next => purged.Continues next)
    (.of_select (fun _ => []) (fun _ => mem_append_right _ hstart) hkept
    (fun _ => forall_mem_nil _) fun _ _ hnext _ _ _ _ => hnext) fun s next hnext => .after_lift fun _ _ => ?_
  refine .bind (fun _ last => next.Continues last) (.of_write [] false next.gone (hnext.held hstart) (forall_mem_nil _)
    (fun _ _ _ _ hremoved hkept hgone hs => hs.deleteTokens hremoved hkept hgone) fun _ hlast _ _ _ => hlast) ?_
  intro _ last hlast
  have hcontinues := (hpurged.trans hnext).trans hlast
  refine .of_write [] last.kept true (hcontinues.held hasked.user) (forall_mem_nil _)
    (fun _ _ _ _ hremoved hkept _ hs => hs.deleteUser hremoved hkept) fun final hfinal _ hgone _ => ?_
  replace hcontinues := hcontinues.trans hfinal
  refine ⟨hcontinues.held hasked.user, fun kind => (hcontinues.reads kind).trans (hasked.reads kind),
    fun o ho => ?_, hgone⟩
  rw [hcontinues.found] at ho
  exact (hsettled o (hasked.found o ho)).mono ((hnext.trans hlast).trans hfinal)

theorem Purge.Done.clean (h : p.Done t) (hunderway : p.Underway t s) (hsweep : Sweep t p s s') :
    s'.users.get? t = none ∧ ∀ o, ¬Refers s' o t := by
  refine ⟨hsweep.gone h.gone, fun o hrefers => ?_⟩
  obtain hmember | ⟨organization, hget, hstatus, hrefers⟩ := hrefers
  · have hbefore := hsweep.members o hmember
    obtain ⟨-, hnone | hremoved⟩ := h.settled o (hunderway.memberships (h.reads _) o hbefore)
    · exact hsweep.removed o ((hunderway.facts _ hnone).2 hbefore) hmember
    · exact hsweep.removed o hremoved hmember
  · replace hget : s.organizations.get? o = some organization := hsweep.organizations ▸ hget
    have hsettled : p.Settled o := by
      obtain howner | hkeyed := hrefers
      · exact h.settled o ((hunderway.ownerships (h.reads _)).2 o ⟨organization, hget, howner⟩)
      · exact h.settled o ((hunderway.keys (h.reads _)).2 o (hsweep.keyed_of hkeyed))
    obtain hdissolved | ⟨hnot, hfree⟩ := hsettled.1
    · exact hstatus ((hunderway.facts _ hdissolved).2 organization hget)
    · obtain howner | hkeyed := hrefers
      · exact (hunderway.facts _ hnot).2 ⟨organization, hget, howner⟩
      · exact (hunderway.facts _ hfree).2 (hsweep.keyed_of hkeyed)

/-! ## The commits of others -/

/-- Another operation commits. A member row that is new is one of an organization that was found. -/
theorem Purge.Underway.of_mild {held : List Row} {joined : List Nat} (h : p.Underway t s)
    (hmild : Mild t held joined s s') (hjoined : ∀ o ∈ joined, .organization o ∈ held) (hother : ∀ l ∈ held, l ∉ p.held)
    (hnew : reads .membership p.log = true → ∀ o, HasMember s' o t → ¬HasMember s o t → o ∈ found p.log) :
    p.Underway t s' := by
  have hmember (hread : reads .membership p.log = true) (o : Nat) (ho : HasMember s' o t) : o ∈ found p.log := by
    by_cases hbefore : HasMember s o t
    · exact h.memberships hread o hbefore
    · exact hnew hread o ho hbefore
  refine ⟨h.start, hmember, fun hread => ?_, fun hread => ?_, fun f hf => ?_, h.removed⟩
  · obtain ⟨hfirst, hall⟩ := h.ownerships hread
    exact ⟨hfirst, fun o ho => (hmild.owner o ho).elim (hall o) fun hlocked => hmember hfirst o hlocked.2⟩
  · obtain ⟨hfirst, hall⟩ := h.keys hread
    exact ⟨hfirst, fun o ho => (hmild.key o ho).elim (hall o) fun hlocked => hmember hfirst o hlocked.2⟩
  · obtain ⟨hlocked, hholds⟩ := h.facts f hf
    refine ⟨hlocked, ?_⟩
    -- the row of its organization is locked
    have hkept : .organization f.organization ∉ held := fun hmem => hother _ hmem hlocked
    cases f with
    | dissolved o =>
      intro organization ho
      obtain ⟨before, hbefore, hsame⟩ := hmild.status o organization ho
      rw [← hsame]
      exact hholds before hbefore
    | notOwner o => exact fun ho => (hmild.owner o ho).elim hholds fun hmem => hkept hmem.1
    | notKeyed o => exact fun ho => (hmild.key o ho).elim hholds fun hmem => hkept hmem.1
    | notMember o => exact fun ho => (hmild.joins o ho).elim hholds fun hmem => absurd (hjoined o hmem) hkept

theorem Stage.Knows.of_sweep {stage : Stage} (h : stage.Knows t s) (hlocked : stage.Locked) (hsweep : Sweep t p s s')
    (hremoved : ∀ o ∈ p.removed, .organization o ∈ p.held) (hother : ∀ l ∈ p.held, l ∉ stage.held) :
    stage.Knows t s' where
  members o ho := (hsweep.kept o (h.members o ho)).resolve_right fun hmem =>
    hother _ (hremoved o hmem) (hlocked.members o ho)
  tokens x hx token htoken := by
    obtain ⟨before, hbefore, hsame, -⟩ := hsweep.tokens x.1 token htoken
    rw [← hsame]
    exact h.tokens x hx before hbefore

end Deletion

end CubeRouter.Organization.Deletion
