import CubeRouter.Organization.KeySteps

/-!
# Leaving an organization

A member who has been removed or has left comes back by being added or by an invitation. His row stays, with its
status, and `UpdateOrganizationMember` and `RemoveOrganizationMember` find it like any other: the first makes the row
active or disabled again, the second turns one who has left into one who was removed.

His private keys are deleted when he leaves, and no operation brings a deleted key back.
-/

namespace CubeRouter.Organization

open Relational Transition Option

def MemberStatus.hasLeft (status : MemberStatus) : Bool := status = .exited ∨ status = .removed

/-- The caller has the right to manage members, and this one. -/
def mayManage (s : State) (caller : Caller) (target : Member) : Bool :=
  match lockedOrganizationManagementDecision s caller .manageMembers with
  | .error _ => false
  | .ok (organization, decision) =>
    (failure (ensureOrganizationMemberTargetAllowed decision organization target)).isNone

/-- The status of a member who has left is not set by a valid update, and one who has left by himself is not removed
by a valid request. -/
def Event.sparesLeavers (s : System) : Event → Bool
  | .updateOrganizationMember caller u req _ =>
    (s.members.find? (caller.organizationId, u)).all fun m =>
      !(mayManage s.toState caller m && m.status.hasLeft && (failure req.validate).isNone && req.status ≠ .unset)
  | .removeOrganizationMember caller u req _ =>
    (s.members.find? (caller.organizationId, u)).all fun m =>
      !(mayManage s.toState caller m && m.status = .exited && req.idempotencyKey ≠ "" && req.reason ≠ "")
  | _ => true

/-- The user is added to the organization, or accepts an invitation to it. -/
def Event.joins (o u : Nat) : Event → Bool
  | .addOrganizationMember caller u' _ => caller.organizationId = o ∧ u' = u
  | .acceptInvite o' _ u' _ => o' = o ∧ u' = u
  | _ => false

variable {s s' : State} {o u : Nat} {organization : Organization} {m : Member} {k : Nat × Nat} {e : Event} {v i : Nat}
  {t : Token} {config : Config} {req : UpdateMemberRequest}

theorem privateKeys_deleted {now : Int} (h : transferOrganizationKeys s o organization u v now = .ok s')
    (ht : s.tokens.get? i = some t) (hheld : t.heldBy o u = true)
    (hprivate : t.visibility ≠ .public) : ∃ t', s'.tokens.get? i = some t' ∧ t'.deleted = true := by
  obtain ⟨s1, hpublic, rfl⟩ := transferOrganizationKeys_ok h
  have hkept : s1.tokens.get? i = some t := by
    rcases transferOrganizationPublicKeys_ok hpublic with rfl | ⟨-, -, rfl⟩
    · exact ht
    · rw [Table.get?_updateWhere, ht, map_some, if_neg (by simp [hprivate])]
  refine ⟨{ t with updatedAt := now, deleted := true }, ?_, rfl⟩
  rw [Table.get?_updateWhere, hkept, map_some, if_pos (by simp [hheld, hprivate])]

theorem step_keepsDeleted (config : Config) (s : System) (e : Event) :
    KeepsDeleted s.tokens (s.step config e).tokens := by
  refine ⟨fun i t ht => ?_⟩
  obtain ⟨t', ht', hchange⟩ := step_key config s e ht
  refine ⟨t', ht', fun hdeleted => ?_⟩
  split_ifs at hchange
  · rw [hchange.deleted, hdeleted]
  · exact hchange.deleted hdeleted

/-! ## Rows -/

/-- What a step does to the status of a row. -/
inductive StatusChange (s s' : System) (e : Event) (o u : Nat) (m m' : Member) : Prop
  | same (hstatus : m'.status = m.status)
  | joined (hjoins : e.joins o u = true) (hstatus : m'.status = .active)
  | updated (caller : Caller) (req : UpdateMemberRequest) (now : Int)
    (he : e = .updateOrganizationMember caller u req now) (ho : caller.organizationId = o)
    (hvalid : req.validate = .ok ()) (hmanage : mayManage s.toState caller m = true)
    (hstatus : m'.status = req.newStatus m)
  | left (hstatus : (m.status = .active ∧ m'.status = .exited) ∨ (m'.status = .removed ∧
      ∃ caller req now, e = .removeOrganizationMember caller u req now ∧ caller.organizationId = o ∧
        mayManage s.toState caller m = true ∧ req.idempotencyKey ≠ "" ∧ req.reason ≠ ""))
    (hkeys : ∀ i t, s.tokens.get? i = some t → t.heldBy o u = true → t.visibility ≠ .public →
      ∃ t', s'.tokens.get? i = some t' ∧ t'.deleted = true)

theorem mayManage_of_ok {caller : Caller} {decision : PolicyDecision} {target : Member}
    (hlocked : lockedOrganizationManagementDecision s caller .manageMembers = .ok (organization, decision))
    (hallowed : ensureOrganizationMemberTargetAllowed decision organization target = .ok ()) :
    mayManage s caller target = true := by
  unfold mayManage
  rw [hlocked]
  dsimp only
  rw [hallowed]
  rfl

theorem find?_of_insert {members members' : Index Member.key} {r : Member}
    (hinsert : members.insert r = some members') (hm : members.find? k = some m) : members'.find? k = some m := by
  rw [Index.find?_insert hinsert, if_neg, hm]
  rintro rfl
  rw [Index.insert, dif_neg (by rw [hm]; simp)] at hinsert
  cases hinsert

theorem find?_saveMember {k' : Nat × Nat} {g : Member → Member} (hg : ∀ m, (g m).key = m.key)
    (hm : s.members.find? k' = some m) :
    (saveMember s k g hg).members.find? k' = some (if k' = k then g m else m) := by
  show (s.members.modify k g hg).find? k' = _
  rw [Index.find?_modify, hm]
  split_ifs <;> rfl

theorem Joins.row {role : Role} {invitedBy : Nat} (h : Joins s s' o u role invitedBy)
    (hm : s.members.find? k = some m) :
    ∃ m', s'.members.find? k = some m' ∧ ((k = (o, u) ∧ m'.status = .active) ∨ m' = m) := by
  cases h with
  | rejoined _ _ hs =>
    subst hs
    refine ⟨_, find?_saveMember (Member.key_rejoin role invitedBy) hm, ?_⟩
    split_ifs with hk
    · exact .inl ⟨hk, rfl⟩
    · exact .inr rfl
  | joined _ hinsert hs =>
    subst hs
    exact ⟨m, find?_of_insert hinsert hm, .inr rfl⟩

theorem Transfers.row (h : Transfers s s' o v organization) (hm : s.members.find? k = some m) :
    ∃ m', s'.members.find? k = some m' ∧ m'.status = m.status := by
  have hrole : ∀ (s : State) (key : Nat × Nat) (role : Role) (m : Member), s.members.find? k = some m →
      ∃ m', (setMemberRole s key role).members.find? k = some m' ∧ m'.status = m.status := by
    intro s key role m hm
    rw [find?_setMemberRole, hm]
    split_ifs
    · exact ⟨m.withRole role, rfl, rfl⟩
    · exact ⟨m, rfl, rfl⟩
  cases h with
  | unchanged hs =>
    subst hs
    exact ⟨m, hm, rfl⟩
  | byPlatform _ _ hs =>
    subst hs
    have hdemoted := find?_demoteOtherOwners s o v k
    rw [hm, map_some] at hdemoted
    obtain ⟨m', hm', hstatus⟩ := hrole _ (o, v) .owner _ hdemoted
    refine ⟨m', hm', hstatus.trans ?_⟩
    split_ifs <;> rfl
  | byOwner _ _ _ hs =>
    subst hs
    obtain ⟨m', hm', hstatus⟩ := hrole s (o, organization.ownerUserId) .admin m hm
    obtain ⟨m'', hm'', hstatus'⟩ := hrole _ (o, v) .owner m' hm'
    exact ⟨m'', hm'', hstatus'.trans hstatus⟩

theorem row_of_attempt {s : System} {r : Except OrganizationError State} (hm : s.members.find? (o, u) = some m)
    (h : ∀ s', r = .ok s' → ∃ m', s'.members.find? (o, u) = some m' ∧
      StatusChange s { s with toState := s' } e o u m m') :
    ∃ m', (s.transact r).members.find? (o, u) = some m' ∧ StatusChange s (s.transact r) e o u m m' := by
  rcases r with _ | s'
  · exact ⟨m, hm, .same rfl⟩
  · exact h s' rfl

theorem step_row {s : System} (hm : s.members.find? (o, u) = some m) :
    ∃ m', (s.step config e).members.find? (o, u) = some m' ∧ StatusChange s (s.step config e) e o u m m' := by
  by_cases hevent : e.isMembership = false
  · refine ⟨m, ?_, .same rfl⟩
    rw [((step_frame config s e).members hevent).members, hm]
  cases e with
  | createOrganization =>
    refine row_of_attempt hm fun s' hs' => ?_
    obtain ⟨-, organization, members, -, hinsert, rfl⟩ := createOrganization_ok hs'
    exact ⟨m, find?_of_insert hinsert hm, .same rfl⟩
  | addOrganizationMember =>
    refine row_of_attempt hm fun s' hs' => ?_
    obtain ⟨-, -, r, -, hjoins⟩ := addOrganizationMember_ok hs'
    obtain ⟨m', hm', ⟨hkey, hactive⟩ | rfl⟩ := hjoins.row hm
    · cases hkey
      exact ⟨m', hm', .joined (by simp [Event.joins]) hactive⟩
    · exact ⟨m', hm', .same rfl⟩
  | transferOrganizationOwner =>
    refine row_of_attempt hm fun s' hs' => ?_
    obtain ⟨organization, -, i, s1, rfl, htransfers⟩ := transferOrganizationOwner_ok hs'
    obtain ⟨m', hm', hstatus⟩ := htransfers.row hm
    exact ⟨m', hm', .same hstatus⟩
  | updateOrganizationMember caller _ req now =>
    refine row_of_attempt hm fun s' hs' => ?_
    rcases updateOrganizationMember_ok hs' with rfl |
      ⟨organization, decision, target, i, i', s1, hvalid, hlocked, hrow, htarget, rfl⟩
    · exact ⟨m, hm, .same rfl⟩
    obtain ⟨-, huser⟩ := userId_of_find? hrow
    have hmanage := mayManage_of_ok hlocked (updateTargetMember_allowed htarget)
    obtain ⟨-, s2, _, hkeys, rfl, rfl⟩ := updateTargetMember_ok htarget
    have hframe : s2.members = s.members := by
      rcases hkeys with rfl | hkeys
      · rfl
      · obtain ⟨tokens, rfl⟩ := transferOrganizationPublicKeys_frame hkeys
        rfl
    refine ⟨_, find?_saveMember (req.key_apply organization decision) (by rw [hframe, hm]), ?_⟩
    split_ifs with hkey
    · rw [huser] at hkey
      cases hkey
      obtain rfl := mem_unique hm hrow
      exact .updated caller req now rfl rfl hvalid hmanage rfl
    · exact .same rfl
  | removeOrganizationMember caller _ req now =>
    refine row_of_attempt hm fun s' hs' => ?_
    obtain ⟨organization, decision, target, hlocked, hrow, hallowed, rfl | ⟨i, i', s1, hkeys, rfl⟩⟩ :=
      removeOrganizationMember_ok hs'
    · exact ⟨m, hm, .same rfl⟩
    have hmanage := mayManage_of_ok hlocked hallowed
    have hnamed := removeOrganizationMember_named hs'
    have hdeleted := fun j t => privateKeys_deleted (i := j) (t := t) hkeys
    obtain ⟨tokens, rfl⟩ := transferOrganizationKeys_frame hkeys
    refine ⟨_, find?_saveMember Member.key_remove hm, ?_⟩
    split_ifs with hkey
    · cases hkey
      obtain rfl := mem_unique hm hrow
      exact .left (.inr ⟨rfl, caller, req, now, rfl, rfl, hmanage, hnamed⟩) hdeleted
    · exact .same rfl
  | exitOrganization =>
    refine row_of_attempt hm fun s' hs' => ?_
    rcases exitOrganization_ok hs' with rfl | ⟨organization, _, row, i, _, _, -, -, -, hactive, hkeys, rfl⟩
    · exact ⟨m, hm, .same rfl⟩
    have hdeleted := fun j t => privateKeys_deleted (i := j) (t := t) hkeys
    obtain ⟨_, rfl⟩ := transferOrganizationKeys_frame hkeys
    refine ⟨_, find?_saveMember Member.key_exit hm, ?_⟩
    split_ifs with hkey
    · cases hkey
      obtain ⟨hrow, hstatus⟩ := activeMember_eq_some.mp hactive
      obtain rfl := mem_unique hm hrow
      exact .left (.inl ⟨hstatus, rfl⟩) hdeleted
    · exact .same rfl
  | joinOrganizationByJoinRule =>
    refine row_of_attempt hm fun s' hs' => ?_
    rcases joinOrganizationByJoinRule_ok hs' with rfl | ⟨-, hnone, hjoins⟩
    · exact ⟨m, hm, .same rfl⟩
    · obtain ⟨m', hm', ⟨hkey, -⟩ | rfl⟩ := hjoins.row hm
      · rw [← hkey, hm] at hnone
        cases hnone
      · exact ⟨m', hm', .same rfl⟩
  | acceptInvite =>
    simp only [System.step]
    split
    · exact ⟨m, hm, .same rfl⟩
    · rename_i state haccept
      obtain ⟨_, i, _, _, -, hmember⟩ := acceptInvite_ok haccept
      obtain ⟨-, -, hjoins⟩ := reactivateOrganizationMember_ok hmember
      obtain ⟨m', hm', ⟨hkey, hactive⟩ | rfl⟩ := hjoins.row hm
      · cases hkey
        exact ⟨m', hm', .joined (by simp [Event.joins]) hactive⟩
      · exact ⟨m', hm', .same rfl⟩
  | _ => exact absurd rfl hevent

/-! ## Runs -/

theorem UpdateMemberRequest.newStatus_of_unset (h : req.status = .unset) (m : Member) :
    req.newStatus m = m.status := by
  rw [UpdateMemberRequest.newStatus, h]

theorem UpdateMemberRequest.newStatus_hasLeft {x : Unit} (h : req.validate = .ok x)
    (hm : m.status.hasLeft = false) : (req.newStatus m).hasLeft = false := by
  obtain ⟨-, hstatus | hstatus | hstatus⟩ := UpdateMemberRequest.validate_ok h
  · rw [newStatus_of_unset hstatus, hm]
  · rw [UpdateMemberRequest.newStatus, hstatus]
    rfl
  · rw [UpdateMemberRequest.newStatus, hstatus]
    rfl

theorem step_left {s : System} (he : e.sparesLeavers s = true)
    (hm : s.members.find? (o, u) = some m) (hleft : m.status.hasLeft = true) (hjoins : e.joins o u = false) :
    ∃ m', (s.step config e).members.find? (o, u) = some m' ∧ m'.status = m.status := by
  obtain ⟨m', hm', hchange⟩ := step_row hm
  refine ⟨m', hm', ?_⟩
  cases hchange with
  | same hstatus => exact hstatus
  | joined hjoined =>
    rw [hjoins] at hjoined
    cases hjoined
  | updated _ _ _ hevent ho hvalid hmanage hstatus =>
    subst hevent ho
    rw [Event.sparesLeavers, hm, all_some, hmanage, hleft, hvalid] at he
    rw [hstatus, UpdateMemberRequest.newStatus_of_unset (by simpa [Transition.failure] using he)]
  | left hstatus =>
    rcases hstatus with ⟨hactive, -⟩ | ⟨hremoved, _, _, _, hevent, ho, hmanage, hkey, hreason⟩
    · rw [hactive] at hleft
      cases hleft
    · subst hevent ho
      rw [Event.sparesLeavers, hm, all_some, hmanage] at he
      have hexited : m.status ≠ .exited := by simpa [hkey, hreason] using he
      have hcases : m.status = .exited ∨ m.status = .removed := by simpa [MemberStatus.hasLeft] using hleft
      rcases hcases with hexited' | hremoved'
      · exact absurd hexited' hexited
      · rw [hremoved, hremoved']

theorem step_leaves {s : System} {m' : Member} (hm : s.members.find? (o, u) = some m)
    (hstays : m.status.hasLeft = false) (hm' : (s.step config e).members.find? (o, u) = some m')
    (hleft : m'.status.hasLeft = true) (ht : s.tokens.get? i = some t)
    (hheld : t.heldBy o u = true) (hprivate : t.visibility ≠ .public) :
    ∃ t', (s.step config e).tokens.get? i = some t' ∧ t'.deleted = true := by
  obtain ⟨_, hm'', hchange⟩ := step_row hm
  obtain rfl := mem_unique hm' hm''
  cases hchange with
  | same hstatus =>
    rw [hstatus, hstays] at hleft
    cases hleft
  | joined _ hstatus =>
    rw [hstatus] at hleft
    cases hleft
  | updated _ _ _ _ _ hvalid _ hstatus =>
    rw [hstatus, UpdateMemberRequest.newStatus_hasLeft hvalid hstays] at hleft
    cases hleft
  | left _ hkeys => exact hkeys i t ht hheld hprivate

theorem run_keepsDeleted (config : Config) (s : System) (l : List Event) :
    KeepsDeleted s.tokens (run (System.step config) s l).tokens := by
  induction l generalizing s with
  | nil => exact .refl _
  | cons e l ih => exact (step_keepsDeleted config s e).trans (ih (s.step config e))

theorem run_left {s : System} {l : List Event}
    (hl : Along (System.step config) (fun s e => e.sparesLeavers s = true) s l) (hm : s.members.find? (o, u) = some m)
    (hleft : m.status.hasLeft = true) (hjoins : ∀ e ∈ l, e.joins o u = false) :
    ∃ m', (run (System.step config) s l).members.find? (o, u) = some m' ∧ m'.status = m.status := by
  induction l generalizing s m with
  | nil => exact ⟨m, hm, rfl⟩
  | cons e l ih =>
    obtain ⟨he, hl⟩ := hl
    obtain ⟨_, hm1, hstatus⟩ := step_left he hm hleft (hjoins e List.mem_cons_self)
    rw [← hstatus] at hleft
    obtain ⟨m2, hm2, hstatus'⟩ := ih hl hm1 hleft fun e he => hjoins e (List.mem_cons_of_mem _ he)
    exact ⟨m2, hm2, hstatus'.trans hstatus⟩

/-- Along every run in which updates and removals spare those who have left, such a row keeps its status until the
user is added or accepts an invitation, and the private keys that he had when he left stay deleted. -/
theorem leaving_undone_only_by_joining (config : Config) (s : System) (l : List Event)
    (hl : Along (System.step config) (fun s e => e.sparesLeavers s = true) s l) (o u : Nat) :
    (∀ done later rest, l = done ++ (later ++ rest) → ∀ m,
      (run (System.step config) s done).members.find? (o, u) = some m → m.status.hasLeft = true →
        (∀ e ∈ later, e.joins o u = false) →
          ∃ m', (run (System.step config) s (done ++ later)).members.find? (o, u) = some m' ∧ m'.status = m.status) ∧
    (∀ done e later rest, l = done ++ e :: (later ++ rest) → ∀ m m',
      (run (System.step config) s done).members.find? (o, u) = some m → m.status.hasLeft = false →
        (run (System.step config) s (done ++ [e])).members.find? (o, u) = some m' → m'.status.hasLeft = true →
          ∀ i t, (run (System.step config) s done).tokens.get? i = some t → t.heldBy o u = true →
            t.visibility ≠ .public →
              ∃ t', (run (System.step config) s (done ++ e :: later)).tokens.get? i = some t' ∧ t'.deleted = true) := by
  refine ⟨?_, ?_⟩
  · rintro done later rest rfl m hm hleft hjoins
    obtain ⟨-, hlater⟩ := along_append.mp hl
    obtain ⟨hlater, -⟩ := along_append.mp hlater
    rw [run_append]
    exact run_left hlater hm hleft hjoins
  · rintro done e later rest rfl m m' hm hstays hm' hleft i t ht hheld hprivate
    rw [run_append] at hm'
    obtain ⟨t', ht', hdeleted⟩ := step_leaves hm hstays hm' hleft ht hheld hprivate
    obtain ⟨t'', ht'', hkept⟩ := (run_keepsDeleted config _ later).row i t' ht'
    rw [run_append, run_cons]
    exact ⟨t'', ht'', hkept hdeleted⟩

def leaver : List Event :=
  [.createOrganization 1 "acme" "acme", .addOrganizationMember ⟨3, 1, .admin⟩ 2 .unset,
    .createOrganizationToken ⟨2, 1, .workspace⟩ {} 10 1000,
    .exitOrganization ⟨2, 1, .workspace⟩ { idempotencyKey := "exit" } 1000]

theorem leaving_undone_only_by_joining_sample :
    ∃ m, (run (System.step sampleConfig) { users := sampleUsers } (leaver ++
      [.updateOrganizationMember ⟨1, 1, .management⟩ 2 { role := .value .admin } 2000,
        .setOrganizationStatus ⟨1, 1, .management⟩ .self true "acme" 3000])).members.find? (1, 2) = some m ∧
      m.status = .exited :=
  (leaving_undone_only_by_joining sampleConfig { users := sampleUsers } (leaver ++
    [.updateOrganizationMember ⟨1, 1, .management⟩ 2 { role := .value .admin } 2000,
      .setOrganizationStatus ⟨1, 1, .management⟩ .self true "acme" 3000]) (by decide +kernel) 1 2).1
    leaver _ [] (by rw [List.append_nil])
    { organizationId := 1, userId := 2, role := .member, status := .exited, invitedBy := 3 }
    (by decide +kernel) (by decide) (by decide)

/-- The owner makes a member active who has left. -/
theorem left_member_reactivated : ¬∀ (config : Config) (s : System) (l later : List Event) (o u : Nat) (m : Member),
      (run (System.step config) s l).members.find? (o, u) = some m → m.status.hasLeft = true →
        (∀ e ∈ later, e.joins o u = false) →
          ∃ m', (run (System.step config) s (l ++ later)).members.find? (o, u) = some m' ∧ m'.status = m.status := by
  intro h
  obtain ⟨_, hm', hstatus⟩ := h sampleConfig { users := sampleUsers } leaver
    [.updateOrganizationMember ⟨1, 1, .management⟩ 2 { status := .value .active } 2000] 1 2
    { organizationId := 1, userId := 2, role := .member, status := .exited, invitedBy := 3 } (by decide +kernel)
    (by decide) (by decide)
  cases hm'
  cases hstatus

/-- Somebody with the right to manage the member updated or removed him. -/
def ShutByManager (config : Config) (s : System) (l : List Event) (o u : Nat) : Prop :=
  ∃ done e rest m caller, l = done ++ e :: rest ∧ caller.organizationId = o ∧
    (run (System.step config) s done).members.find? (o, u) = some m ∧
    mayManage (run (System.step config) s done).toState caller m = true ∧
    ((∃ req now, e = .updateOrganizationMember caller u req now) ∨
      ∃ req now, e = .removeOrganizationMember caller u req now)

/-- **Members are shut out by managers only**, whatever other operations come in between. -/
theorem shut_only_by_manager (config : Config) (s : System) (l : List Event) {o u : Nat} (m m' : Member)
    (hm : s.members.find? (o, u) = some m) (hopen : m.status ∉ [.disabled, .removed])
    (hm' : (run (System.step config) s l).members.find? (o, u) = some m') (hshut : m'.status ∈ [.disabled, .removed]) :
    ShutByManager config s l o u := by
  induction l generalizing s m with
  | nil => exact absurd (mem_unique hm hm' ▸ hshut) hopen
  | cons e l ih =>
    obtain ⟨m1, hm1, hchange⟩ := step_row hm
    by_cases h1 : m1.status ∈ [.disabled, .removed]
    · cases hchange with
      | same h => exact absurd (h ▸ h1) hopen
      | joined _ h => simp [h] at h1
      | updated caller req now he ho _ hmanage => exact ⟨[], e, l, m, caller, rfl, ho, hm, hmanage, .inl ⟨req, now, he⟩⟩
      | left h =>
        rcases h with ⟨-, h⟩ | ⟨-, caller, req, now, he, ho, hmanage, -⟩
        · simp [h] at h1
        · exact ⟨[], e, l, m, caller, rfl, ho, hm, hmanage, .inr ⟨req, now, he⟩⟩
    · obtain ⟨done, e', rest, row, caller, rfl, h⟩ := ih (s.step config e) m1 hm1 h1 hm'
      exact ⟨e :: done, e', rest, row, caller, rfl, h⟩

theorem shut_only_by_manager_owner :
    ShutByManager sampleConfig (run (System.step sampleConfig) { users := sampleUsers } (leaver.take 2))
      [.removeOrganizationMember ⟨1, 1, .management⟩ 2 ⟨0, "left", "key"⟩ 1000] 1 2 :=
  let m : Member := { organizationId := 1, userId := 2, role := .member, status := .active, invitedBy := 3 }
  shut_only_by_manager sampleConfig _ _ m m.remove (by decide +kernel) (by decide) (by decide +kernel) (by decide)

end CubeRouter.Organization
