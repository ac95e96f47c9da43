import CubeRouter.Organization.System

/-!
# The owner of an organization

An organization has one owner: `OwnerUserId`, whose member row is active and has the role. The operations on members
refuse to touch the row of the owner, except one: `AcceptInvite` gives whoever accepts the role of the invitation. A
user who was invited, joined in another way and became the owner since then loses the role with that.
-/

namespace CubeRouter.Organization

open Relational Transition Option

/-- The row of `u` is active and has the role of the owner; no other row of the organization has it. -/
structure OwnedBy (members : Index Member.key) (o u : Nat) : Prop where
  owner : ∃ m, members.find? (o, u) = some m ∧ m.role = .owner ∧ m.status = .active
  only : ∀ v m, members.find? (o, v) = some m → m.role = .owner → v = u

structure Owned (s : State) : Prop where
  owned : ∀ o organization, s.organizations.get? o = some organization → OwnedBy s.members o organization.ownerUserId
  known : ∀ o u m, s.members.find? (o, u) = some m → ∃ organization, s.organizations.get? o = some organization

/-! ## Writing rows -/

variable {members : Index Member.key} {o w v u : Nat} {s s' : State} {organization : Organization} {config : Config}
  {caller : Caller} {now : Int} {members' : Index Member.key} {k : Nat × Nat} {g : Member → Member}
  {req : RemoveMemberRequest} {token : String}

theorem OwnedBy.congr (h : OwnedBy members o w)
    (hsame : ∀ v, members'.find? (o, v) = members.find? (o, v)) : OwnedBy members' o w := by
  obtain ⟨⟨m, hm, hrow⟩, honly⟩ := h
  refine ⟨⟨m, ?_, hrow⟩, fun v m hm => ?_⟩
  · rw [hsame, hm]
  · rw [hsame] at hm
    exact honly v m hm

theorem OwnedBy.modify (hg : ∀ m, (g m).key = m.key) (h : OwnedBy members o w)
    (hk : k ≠ (o, w)) (hrole : ∀ m, members.find? k = some m → (g m).role ≠ .owner) :
    OwnedBy (members.modify k g hg) o w := by
  obtain ⟨⟨m, hm, hrow⟩, honly⟩ := h
  refine ⟨⟨m, ?_, hrow⟩, fun v m' hm' howner => ?_⟩
  · rw [Index.find?_modify_of_ne _ _ _ hk.symm, hm]
  · rw [Index.find?_modify] at hm'
    split_ifs at hm' with hv
    · obtain ⟨row, hrow', rfl⟩ := map_eq_some_iff.mp hm'
      exact absurd howner (hrole row (hv ▸ hrow'))
    · exact honly v m' hm' howner

theorem OwnedBy.insert {r : Member} (hinsert : members.insert r = some members')
    (h : OwnedBy members o w) (hrole : r.role ≠ .owner) : OwnedBy members' o w := by
  have hfind := Index.find?_insert hinsert
  obtain ⟨⟨m, hm, hrow⟩, honly⟩ := h
  have hfresh : members.find? r.key = none := by
    by_contra hne
    rw [Index.insert, dif_neg hne] at hinsert
    cases hinsert
  refine ⟨⟨m, ?_, hrow⟩, fun v m' hm' howner => ?_⟩
  · rw [hfind, if_neg, hm]
    intro hkey
    rw [hkey, hfresh] at hm
    cases hm
  · rw [hfind] at hm'
    split_ifs at hm'
    · cases hm'
      exact absurd howner hrole
    · exact honly v m' hm' howner

theorem OwnedBy.promote {m : Member} (hrow : members.find? (o, v) = some m) (hactive : m.status = .active)
    (hothers : ∀ u m, members.find? (o, u) = some m → m.role = .owner → u = v) :
    OwnedBy (members.modify (o, v) (Member.withRole .owner) (Member.key_withRole .owner)) o v := by
  refine ⟨⟨m.withRole .owner, ?_, rfl, hactive⟩, fun u m' hm' howner => ?_⟩
  · rw [Index.find?_modify_self, hrow, map_some]
  · rw [Index.find?_modify] at hm'
    split_ifs at hm' with hu
    · exact congrArg Prod.snd hu
    · exact hothers u m' hm' howner

/-! ## The operations -/

theorem OwnedBy.active (h : OwnedBy members o w) : ∃ m, members.find? (o, w) = some m ∧ m.status = .active := by
  obtain ⟨m, hm, -, hactive⟩ := h.owner
  exact ⟨m, hm, hactive⟩

theorem Owned.congr (h : Owned s) (hsame : KeepsMembers s s') : Owned s' := by
  refine ⟨fun o organization ho => ?_, fun o u m hm => ?_⟩
  · have howner := hsame.owners o
    rw [ho, map_some] at howner
    obtain ⟨before, hbefore, heq⟩ := map_eq_some_iff.mp howner.symm
    rw [hsame.members, ← heq]
    exact h.owned o before hbefore
  · rw [hsame.members] at hm
    obtain ⟨_, ho⟩ := h.known o u m hm
    have howner := hsame.owners o
    rw [ho, map_some] at howner
    obtain ⟨after, hafter, -⟩ := map_eq_some_iff.mp howner
    exact ⟨after, hafter⟩

theorem Owned.of_members (h : Owned s) (howned : ∀ o w, OwnedBy s.members o w → OwnedBy members o w)
    (hknown : ∀ o u m, members.find? (o, u) = some m → ∃ organization, s.organizations.get? o = some organization) :
    Owned { s with members := members } :=
  ⟨fun o organization ho => howned o _ (h.owned o organization ho), hknown⟩

theorem Owned.of_modify (h : Owned s) (hg : ∀ m, (g m).key = m.key)
    (hother : ∀ organization, s.organizations.get? k.1 = some organization → organization.ownerUserId ≠ k.2)
    (hrole : ∀ m, s.members.find? k = some m → (g m).role ≠ .owner) : Owned (saveMember s k g hg) := by
  refine ⟨fun o organization ho => ?_, fun o u m hm => ?_⟩
  · refine (h.owned o organization ho).modify hg ?_ hrole
    rintro rfl
    exact hother organization ho rfl
  · replace hm : (s.members.modify k g hg).find? (o, u) = some m := hm
    rw [Index.find?_modify] at hm
    split_ifs at hm
    · obtain ⟨row, hrow, -⟩ := map_eq_some_iff.mp hm
      exact h.known o u row hrow
    · exact h.known o u m hm

theorem Owned.of_joins {role : Role} {invitedBy : Nat} (h : Owned s) (hjoins : Joins s s' o u role invitedBy)
    (ho : s.organizations.get? o = some organization) (hother : organization.ownerUserId ≠ u) (hrole : role ≠ .owner) :
    Owned s' := by
  cases hjoins with
  | rejoined m _ hs =>
    subst hs
    refine h.of_modify _ (fun organization' ho' => ?_) fun m _ => hrole
    obtain rfl := mem_unique ho ho'
    exact hother
  | joined _ hinsert hs =>
    subst hs
    refine h.of_members (fun o' w hw => hw.insert hinsert hrole) fun o' u' m hm => ?_
    rw [Index.find?_insert hinsert] at hm
    split_ifs at hm with hkey
    · obtain rfl : o' = o := congrArg Prod.fst hkey
      exact ⟨organization, ho⟩
    · exact h.known o' u' m hm

theorem Owned.owner_ne (h : Owned s) (ho : s.organizations.get? o = some organization)
    (hrow : ∀ m, s.members.find? (o, u) = some m → m.status ≠ .active) : organization.ownerUserId ≠ u := by
  rintro rfl
  obtain ⟨m, hm, hactive⟩ := (h.owned o organization ho).active
  exact hrow m hm hactive

theorem Owned.create {name slug : String} (h : Owned s) (hcreate : createOrganization config s u name slug = .ok s') :
    Owned s' := by
  obtain ⟨-, organization, members, rfl, hinsert, rfl⟩ := createOrganization_ok hcreate
  have hfind := Index.find?_insert hinsert
  have hnew : ∀ v m, s.members.find? (s.organizations.next, v) ≠ some m := by
    intro v m hm
    obtain ⟨x, hx⟩ := h.known _ _ _ hm
    exact absurd (Table.lt_next_of_get? hx) (lt_irrefl _)
  refine ⟨fun o x hx => ?_, fun o v m hm => ?_⟩
  · rw [Table.get?_insert] at hx
    split_ifs at hx with ho
    · cases hx
      subst ho
      refine ⟨⟨_, hfind _ |>.trans (if_pos rfl), rfl, rfl⟩, fun v m hm _ => ?_⟩
      rw [hfind] at hm
      split_ifs at hm with hkey
      · exact congrArg Prod.snd hkey
      · exact absurd hm (hnew v m)
    · refine (h.owned o x hx).congr fun v => ?_
      rw [hfind, if_neg]
      intro hkey
      exact ho (congrArg Prod.fst hkey)
  · rw [hfind] at hm
    split_ifs at hm with hkey
    · obtain rfl : o = s.organizations.next := congrArg Prod.fst hkey
      exact ⟨organization, Table.get?_insert_self _ _⟩
    · obtain ⟨x, hx⟩ := h.known o v m hm
      exact ⟨x, Table.get?_insert_of_get? hx⟩

theorem Owned.of_eq (h : Owned s) (hmembers : s'.members = s.members)
    (horganizations : s'.organizations = s.organizations) : Owned s' := by
  refine ⟨fun o organization ho => ?_, fun o u m hm => ?_⟩
  · rw [horganizations] at ho
    rw [hmembers]
    exact h.owned o organization ho
  · rw [hmembers] at hm
    rw [horganizations]
    exact h.known o u m hm

/-- After the transfer `v` is the owner of organization `o`, and the other organizations are as before. -/
theorem Owned.of_transfer (h : Owned s) (ho : s.organizations.get? o = some organization)
    (howned : OwnedBy members o v) (hothers : ∀ o' u, o' ≠ o → members.find? (o', u) = s.members.find? (o', u)) :
    Owned (setOwnerUserId { s with members := members } o v) := by
  refine ⟨fun o' x hx => ?_, fun o' u m hm => ?_⟩
  · replace hx : (s.organizations.modify o fun x => { x with ownerUserId := v }).get? o' = some x := hx
    rw [Table.get?_modify] at hx
    split_ifs at hx with hsame
    · subst hsame
      rw [ho] at hx
      cases hx
      exact howned
    · exact (h.owned o' x hx).congr fun u => hothers o' u hsame
  · replace hm : members.find? (o', u) = some m := hm
    show ∃ x, (s.organizations.modify o fun x => { x with ownerUserId := v }).get? o' = some x
    rw [Table.get?_modify]
    split_ifs with hsame
    · subst hsame
      exact ⟨_, by rw [ho, map_some]⟩
    · rw [hothers o' u hsame] at hm
      exact h.known o' u m hm

theorem Owned.transfers (h : Owned s) (ho : s.organizations.get? o = some organization)
    (htransfers : Transfers s s' o v organization) : Owned s' := by
  have hfirst : ∀ o' u k : Nat, o' ≠ o → (o', u) ≠ (o, k) := fun o' u k hne heq => hne (congrArg Prod.fst heq)
  cases htransfers with
  | unchanged hs => rwa [hs]
  | byPlatform m htarget hs =>
    subst hs
    obtain ⟨hrow, hactive⟩ := activeMember_eq_some.mp htarget
    have hdemoted := find?_demoteOtherOwners s o v
    refine h.of_transfer ho (.promote (m := m) ?_ hactive fun u m' hm' howner => ?_) fun o' u hne => ?_
    · have huser := (userId_of_find? hrow).2
      rw [hdemoted, hrow, map_some]
      simp [huser]
    · -- The only owner is active, so he is demoted unless he is the target.
      rw [hdemoted] at hm'
      obtain ⟨row, hrow', rfl⟩ := map_eq_some_iff.mp hm'
      obtain ⟨horg, huser⟩ := userId_of_find? hrow'
      split_ifs at howner with hp
      · cases howner
      · obtain ⟨w, hw, -, hwactive⟩ := (h.owned o organization ho).owner
        obtain rfl := (h.owned o organization ho).only u row hrow' howner
        obtain rfl := mem_unique hrow' hw
        by_contra hne
        apply hp
        simp [horg, howner, hwactive, huser, hne]
    · rw [Index.find?_modify_of_ne _ _ _ (hfirst o' u v hne), hdemoted]
      cases hfound : s.members.find? (o', u) with
      | none => rfl
      | some =>
        have horg := (userId_of_find? hfound).1
        simp [horg, hne]
  | byOwner m hother htarget hs =>
    subst hs
    obtain ⟨hrow, hactive⟩ := activeMember_eq_some.mp htarget
    have hkey : (o, v) ≠ (o, organization.ownerUserId) := fun heq => hother (congrArg Prod.snd heq).symm
    refine h.of_transfer ho (.promote (m := m) ?_ hactive fun u m' hm' howner => ?_) fun o' u hne => ?_
    · rw [find?_setMemberRole, if_neg hkey, hrow]
    · rw [find?_setMemberRole] at hm'
      split_ifs at hm' with hu
      · obtain ⟨_, -, rfl⟩ := map_eq_some_iff.mp hm'
        cases howner
      · exact absurd (by rw [(h.owned o organization ho).only u m' hm' howner]) hu
    · rw [Index.find?_modify_of_ne _ _ _ (hfirst o' u v hne), find?_setMemberRole, if_neg (hfirst o' u _ hne)]

theorem Owned.update {req : UpdateMemberRequest} (h : Owned s)
    (hupdate : updateOrganizationMember s caller u req now = .ok s') : Owned s' := by
  rcases updateOrganizationMember_ok hupdate with rfl |
    ⟨organization, decision, target, i, i', s1, hvalid, hlocked, hrow, htarget, rfl⟩
  · exact h
  obtain ⟨ho, -⟩ := lockedOrganizationManagementDecision_ok hlocked
  obtain ⟨-, huser⟩ := userId_of_find? hrow
  obtain ⟨hother, s2, _, hkeys, rfl, rfl⟩ := updateTargetMember_ok htarget
  have hframe : ∃ tokens, s2 = { s with idempotency := i, tokens := tokens } := by
    rcases hkeys with rfl | hkeys
    · exact ⟨s.tokens, rfl⟩
    · exact transferOrganizationPublicKeys_frame hkeys
  obtain ⟨_, rfl⟩ := hframe
  have hwritten : Owned (saveMember s (caller.organizationId, target.userId) (req.apply organization decision)
      (req.key_apply organization decision)) := by
    refine h.of_modify _ (fun x hx => ?_) fun m hm => ?_
    · obtain rfl := mem_unique ho hx
      exact hother
    · obtain rfl : m = target := by
        rw [huser, hrow] at hm
        exact (Option.some.inj hm).symm
      exact UpdateMemberRequest.newRole_ne_owner hvalid hother
  exact hwritten.of_eq rfl rfl

theorem Owned.remove (h : Owned s) (hremove : removeOrganizationMember s caller u req now = .ok s') : Owned s' := by
  obtain ⟨organization, _, _, hlocked, hrow, hallowed, hresult⟩ := removeOrganizationMember_ok hremove
  rcases hresult with rfl | ⟨i, _, _, hkeys, rfl⟩
  · exact h
  obtain ⟨ho, -⟩ := lockedOrganizationManagementDecision_ok hlocked
  obtain ⟨-, huser⟩ := userId_of_find? hrow
  have hother := ensureOrganizationMemberTargetAllowed_ok hallowed
  rw [huser] at hother
  obtain ⟨_, rfl⟩ := transferOrganizationKeys_frame hkeys
  have hwritten : Owned (saveMember s (caller.organizationId, u) Member.remove Member.key_remove) := by
    refine h.of_modify _ (fun x hx => ?_) fun m hm howner => ?_
    · obtain rfl := mem_unique ho hx
      exact hother
    · exact hother ((h.owned _ organization ho).only u m hm howner).symm
  exact hwritten.of_eq rfl rfl

theorem Owned.exit (h : Owned s) (hexit : exitOrganization s caller req now = .ok s') : Owned s' := by
  rcases exitOrganization_ok hexit with rfl |
    ⟨organization, decision, m, i, i', s1, ho, hpos, hdecision, -, hkeys, rfl⟩
  · exact h
  obtain ⟨platformRole, rfl, hcapability⟩ := organizationManagementDecision_ok hdecision
  have hother : organization.ownerUserId ≠ caller.operatorUserId := by
    intro howner
    rw [← howner] at hpos
    have hnot : (evaluateOrganizationPolicy (s.policyInput caller platformRole organization)).hasCapability
        .exitOrganization = false := owner_cannot_exit rfl hpos howner
    rw [hcapability] at hnot
    cases hnot
  obtain ⟨_, rfl⟩ := transferOrganizationKeys_frame hkeys
  have hwritten : Owned (saveMember s (caller.organizationId, caller.operatorUserId) Member.exit Member.key_exit) := by
    refine h.of_modify _ (fun x hx => ?_) fun m hm howner => ?_
    · obtain rfl := mem_unique ho hx
      exact hother
    · exact hother ((h.owned _ organization ho).only _ m hm howner).symm
  exact hwritten.of_eq rfl rfl

theorem Owned.accept (h : Owned s)
    (hother : ∀ organization i invite user, Accepts config s o token u now organization i invite user →
      organization.ownerUserId ≠ u) (haccept : acceptInvite config s o token u now = .ok s') : Owned s' := by
  obtain ⟨organization, i, invite, user, haccepts, hmember⟩ := acceptInvite_ok haccept
  obtain ⟨hrole, -, hjoins⟩ := reactivateOrganizationMember_ok hmember
  refine Owned.of_joins ?_ hjoins haccepts.locked (hother organization i invite user haccepts) hrole
  exact h.of_eq rfl rfl

/-! ## Runs -/

/-- Whether the owner of an active organization accepts an invitation to it that is open and for his address. -/
def ownerAccepts (config : Config) (s : State) (o : Nat) (token : String) (u : Nat) (now : Int) : Bool :=
  (s.organizations.get? o).any fun organization => organization.ownerUserId = u ∧ organization.status = .active ∧
    (s.invites.find? fun r => r.organizationId = o ∧ r.tokenHash ∈ config.inviteTokenHashes token).any fun x =>
      x.2.status = .pending ∧ ¬x.2.overdue now ∧ (s.users.get? u).any fun user =>
        config.normalizeEmail user.email = config.normalizeEmail x.2.targetEmail

/-- No owner accepts an invitation to his own organization. -/
def Event.sparesOwner (config : Config) (s : System) : Event → Bool
  | .acceptInvite o token u now => !ownerAccepts config s.toState o token u now
  | _ => true

theorem Accepts.owner_ne {i : Nat} {invite : Invite} {user : User}
    (h : Accepts config s o token u now organization i invite user)
    (hspares : ownerAccepts config s o token u now = false) : organization.ownerUserId ≠ u := by
  intro howner
  rw [ownerAccepts, h.locked, any_some, h.found, any_some] at hspares
  simp [howner, h.active, h.pending, h.current, h.known, h.address] at hspares

theorem Owned.step {s : System} {e : Event} (h : Owned s.toState) (he : e.sparesOwner config s = true) :
    Owned (s.step config e).toState := by
  by_cases hevent : e.isMembership = false
  · exact h.congr ((step_frame config s e).members hevent)
  cases e with
  | createOrganization => exact attempt_invariant h fun s' hs' => h.create hs'
  | addOrganizationMember =>
    refine attempt_invariant h fun s' hs' => ?_
    obtain ⟨⟨organization, ho⟩, hleft, r, hr, hjoins⟩ := addOrganizationMember_ok hs'
    exact h.of_joins hjoins ho (h.owner_ne ho hleft) hr
  | transferOrganizationOwner =>
    refine attempt_invariant h fun s' hs' => ?_
    obtain ⟨organization, ho, i, _, rfl, htransfers⟩ := transferOrganizationOwner_ok hs'
    exact (h.transfers ho htransfers).of_eq rfl rfl
  | updateOrganizationMember => exact attempt_invariant h fun s' hs' => h.update hs'
  | removeOrganizationMember => exact attempt_invariant h fun s' hs' => h.remove hs'
  | exitOrganization => exact attempt_invariant h fun s' hs' => h.exit hs'
  | joinOrganizationByJoinRule =>
    refine attempt_invariant h fun s' hs' => ?_
    rcases joinOrganizationByJoinRule_ok hs' with rfl | ⟨⟨organization, ho⟩, hnone, hjoins⟩
    · exact h
    · refine h.of_joins hjoins ho (h.owner_ne ho fun m hm => ?_) (by decide)
      rw [hnone] at hm
      cases hm
  | acceptInvite =>
    simp only [System.step]
    split
    · exact h
    · rename_i state haccept
      exact h.accept (fun organization i invite user haccepts => haccepts.owner_ne
        (by simpa [Event.sparesOwner] using he)) haccept
  | _ => exact absurd rfl hevent

/-- One row of the organization has the role of the owner; it is active and the row of `OwnerUserId`. -/
def HasOneOwner (s : State) (o : Nat) (organization : Organization) : Prop :=
  ∃ i m, s.members.table.get? i = some m ∧ m.organizationId = o ∧ m.userId = organization.ownerUserId ∧
    m.role = .owner ∧ m.status = .active ∧
    ∀ j m', s.members.table.get? j = some m' → m'.organizationId = o → m'.role = .owner → j = i

theorem Owned.hasOneOwner (h : Owned s) (ho : s.organizations.get? o = some organization) :
    HasOneOwner s o organization := by
  obtain ⟨⟨m, hm, hrole, hactive⟩, honly⟩ := h.owned o organization ho
  obtain ⟨i, hi, -⟩ := Index.find?_eq_some_iff.mp hm
  obtain ⟨horganization, huser⟩ := userId_of_find? hm
  refine ⟨i, m, hi, horganization, huser, hrole, hactive, fun j m' hj ho' hrole' => ?_⟩
  have hkey : m'.key = (o, m'.userId) := by rw [← ho']; rfl
  have hsame := honly m'.userId m' (Index.find?_eq_some_iff.mpr ⟨j, hj, hkey⟩) hrole'
  refine s.members.unique j i m' m hj hi ?_
  rw [hkey, hsame, Index.key_of_find? hm]

theorem owned_empty (users : Table User) : Owned { users := users } := by
  refine ⟨fun o organization ho => ?_, fun o u m hm => ?_⟩
  · cases ho
  · obtain ⟨i, hi, -⟩ := Index.find?_eq_some_iff.mp hm
    cases hi

/-- Along every run of the system in which no owner accepts an invitation to his own organization, each organization
has one owner at every moment. -/
theorem organization_has_one_owner (config : Config) (users : Table User) (l : List Event)
    (hl : Along (System.step config) (fun s e => e.sparesOwner config s = true) { users := users } l) :
    ∀ done rest, l = done ++ rest → ∀ o organization,
      (run (System.step config) { users := users } done).organizations.get? o = some organization →
        HasOneOwner (run (System.step config) { users := users } done).toState o organization := by
  rintro done rest rfl o organization ho
  obtain ⟨hdone, -⟩ := along_append.mp hl
  have howned : Owned (run (System.step config) { users := users } done).toState :=
    run_invariant (I := fun s => Owned s.toState) (fun s e hs he => hs.step he) (owned_empty users) hdone
  exact howned.hasOneOwner ho

def invitedOwner : List Event :=
  [.createOrganization 1 "acme" "acme",
    .createEmailInvite ⟨1, 1, .management⟩ { email := "b@example.com" } sampleToken 1000,
    .addOrganizationMember ⟨3, 1, .admin⟩ 2 .unset,
    .transferOrganizationOwner ⟨1, 1, .management⟩ 2 "" "transfer"]

theorem organization_has_one_owner_sample :
    HasOneOwner (run (System.step sampleConfig) { users := sampleUsers } invitedOwner).toState 1
      { name := "acme", nameNormalized := "acme", slug := "acme", ownerUserId := 2, createdBy := 1 } :=
  organization_has_one_owner sampleConfig sampleUsers invitedOwner (by decide +kernel) invitedOwner []
    (List.append_nil _).symm 1 _ (by decide +kernel)

/-- The owner accepts the invitation that is still open: no row has the role of the owner any more. -/
theorem owner_lost_by_invite :
    ¬∀ (config : Config) (users : Table User) (l : List Event) (o : Nat) (organization : Organization),
      (run (System.step config) { users := users } l).organizations.get? o = some organization →
        HasOneOwner (run (System.step config) { users := users } l).toState o organization := by
  intro h
  obtain ⟨i, m, hi, _, -, hrole, -⟩ :=
    h sampleConfig sampleUsers (invitedOwner ++ [.acceptInvite 1 sampleToken 2 2000]) 1
    { name := "acme", nameNormalized := "acme", slug := "acme", ownerUserId := 2, createdBy := 1 } (by decide +kernel)
  have hnone : (run (System.step sampleConfig) { users := sampleUsers }
      (invitedOwner ++ [.acceptInvite 1 sampleToken 2 2000])).members.table.any (fun _ m =>
      m.role = .owner) = false := by
    decide +kernel
  have hnot := Table.any_eq_false_iff.mp hnone i m hi
  simp [hrole] at hnot

end CubeRouter.Organization
