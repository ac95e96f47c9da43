import CubeRouter.Organization.Invites
import CubeRouter.Organization.Status

/-!
# The organizations as a system

All operations on organizations as the steps of one machine. An operation is one transaction, so it is one step, and an
operation that fails changes nothing. `CreateEmailInvite` is a step for the invite and steps for its delivery, and
`GetInviteByToken` is a step that reads and one that writes; the reads whose write is still to come are `lookups`.

`issued` and `acceptances` are the history of the invite tokens, which no operation looks at.
-/

namespace CubeRouter.Organization

open Relational Transition

/-- A `GetInviteByToken` that has found a pending invite overdue and is to write that. -/
structure InviteLookup where
  inviteId : Nat
  invite : Invite
  now : Int

structure System extends State where
  lookups : List InviteLookup := []
  /-- The invites with the tokens issued for them, the latest first. -/
  issued : List (Nat × String) := []
  /-- The invites with the tokens accepted for them, the latest first. -/
  acceptances : List (Nat × String) := []

inductive Event
  | createOrganization (operatorUserId : Nat) (name slug : String)
  | addOrganizationMember (caller : Caller) (userId : Nat) (role : RequestField Role)
  | transferOrganizationOwner (caller : Caller) (ownerUserId : Nat) (reason idempotencyKey : String)
  | updateOrganizationMember (caller : Caller) (targetUserId : Nat) (req : UpdateMemberRequest) (now : Int)
  | removeOrganizationMember (caller : Caller) (targetUserId : Nat) (req : RemoveMemberRequest) (now : Int)
  | exitOrganization (caller : Caller) (req : RemoveMemberRequest) (now : Int)
  | joinOrganizationByJoinRule (userId ruleOrganizationId : Nat)
  | createEmailInvite (caller : Caller) (req : CreateInviteRequest) (token : String) (now : Int)
  | deliverInvite (persisted : PersistedInvite) (rawToken : String) (now : Int)
  | finalizeInviteDelivery (persisted : PersistedInvite) (rawToken : String) (deliveryStatus : DeliveryStatus)
    (now : Int)
  | acceptInvite (organizationId : Nat) (token : String) (userId : Nat) (now : Int)
  | revokeInvite (caller : Caller) (inviteId : Nat) (now : Int)
  /-- The read of `GetInviteByToken`. -/
  | lookUpInvite (token : String) (now : Int)
  /-- The write of the lookup at `i`. -/
  | writeExpired (i : Nat)
  | setOrganizationStatus (caller : Caller) (source : DisableSource) (disable : Bool) (confirmName : String)
    (now : Int)
  | dissolveOrganization (caller : Caller) (req : DissolveOrganizationRequest) (activeWork : Bool) (now : Int)
  | updateUserStatus (userId : Nat) (enabled : Bool) (operatorUserId : Nat) (now : Int)
  | createOrganizationToken (caller : Caller) (req : OrganizationTokenRequest) (maxTokens : Nat) (now : Int)
  | updateOrganizationToken (caller : Caller) (tokenId : Nat) (req : OrganizationTokenRequest) (now : Int)
  | updateOrganizationTokenResponsibility (caller : Caller) (tokenId responsibleUserId : Nat) (now : Int)
  | deleteOrganizationToken (caller : Caller) (tokenId : Nat) (now : Int)
  | reconcileOrganizationTokenBlockers (now : Int)
  /-- A registration. -/
  | registerUser (user : User)
  /-- A change of the platform role or the address of a user. -/
  | editUser (userId role : Nat) (email : String)

/-- The operations that are one transaction without a history. -/
def System.transact (s : System) (r : Except OrganizationError State) : System :=
  { s with toState := attempt r s.toState }

/-- The invite that a token is accepted for. -/
def acceptedInvite (config : Config) (s : State) (organizationId : Nat) (token : String) : Option Nat :=
  (s.invites.find? fun r =>
    r.organizationId = organizationId ∧ r.tokenHash ∈ config.inviteTokenHashes token).map Prod.fst

def System.step (config : Config) (s : System) : Event → System
  | .createOrganization operatorUserId name slug =>
    s.transact (Organization.createOrganization config s.toState operatorUserId name slug)
  | .addOrganizationMember caller userId role =>
    s.transact (Organization.addOrganizationMember s.toState caller userId role)
  | .transferOrganizationOwner caller ownerUserId reason idempotencyKey =>
    s.transact (Organization.transferOrganizationOwner s.toState caller ownerUserId reason idempotencyKey)
  | .updateOrganizationMember caller targetUserId req now =>
    s.transact (Organization.updateOrganizationMember s.toState caller targetUserId req now)
  | .removeOrganizationMember caller targetUserId req now =>
    s.transact (Organization.removeOrganizationMember s.toState caller targetUserId req now)
  | .exitOrganization caller req now => s.transact (Organization.exitOrganization s.toState caller req now)
  | .joinOrganizationByJoinRule userId ruleOrganizationId =>
    s.transact (Organization.joinOrganizationByJoinRule s.toState userId ruleOrganizationId)
  | .createEmailInvite caller req token now =>
    match persistOrganizationEmailInvite config s.toState caller req token now with
    | .error _ => s
    | .ok (persisted, state) =>
      { s with
        toState := state
        issued := (persisted.rawToken.map fun token => (persisted.inviteId, token)).toList ++ s.issued }
  | .deliverInvite persisted rawToken now =>
    s.transact (deliverOrganizationEmailInvite config s.toState persisted rawToken now)
  | .finalizeInviteDelivery persisted rawToken deliveryStatus now =>
    s.transact (finalizeOrganizationInviteDelivery config s.toState persisted rawToken deliveryStatus now)
  | .acceptInvite organizationId token userId now =>
    match Organization.acceptInvite config s.toState organizationId token userId now with
    | .error _ => s
    | .ok state =>
      { s with
        toState := state
        acceptances := ((acceptedInvite config s.toState organizationId token).map fun i => (i, token)).toList ++
          s.acceptances }
  | .revokeInvite caller inviteId now => s.transact (Organization.revokeInvite s.toState caller inviteId now)
  | .lookUpInvite token now =>
    { s with
      lookups := s.lookups ++ ((getInviteByToken config s.toState token now).map fun x => ⟨x.1, x.2, now⟩).toList }
  | .writeExpired i =>
    match s.lookups[i]? with
    | none => s
    | some lookup =>
      { s with
        toState := markInviteExpired s.toState lookup.inviteId lookup.now
        lookups := s.lookups.eraseIdx i }
  | .setOrganizationStatus caller source disable confirmName now =>
    s.transact (Organization.setOrganizationStatus s.toState caller source disable confirmName now)
  | .dissolveOrganization caller req activeWork now =>
    s.transact (Organization.dissolveOrganization s.toState caller req activeWork now)
  | .updateUserStatus userId enabled operatorUserId now =>
    s.transact (updateUserStatusAndOrganizationTokenBlockers s.toState userId enabled operatorUserId now)
  | .createOrganizationToken caller req maxTokens now =>
    s.transact (Organization.createOrganizationToken s.toState caller req maxTokens now)
  | .updateOrganizationToken caller tokenId req now =>
    s.transact (Organization.updateOrganizationToken s.toState caller tokenId req now)
  | .updateOrganizationTokenResponsibility caller tokenId responsibleUserId now =>
    s.transact (Organization.updateOrganizationTokenResponsibility s.toState caller tokenId responsibleUserId now)
  | .deleteOrganizationToken caller tokenId now =>
    s.transact (Organization.deleteOrganizationToken s.toState caller tokenId now)
  | .reconcileOrganizationTokenBlockers now =>
    { s with tokens := Organization.reconcileOrganizationTokenBlockers s.toSources now s.tokens }
  | .registerUser user => { s with users := s.users.insert user }
  | .editUser userId role email =>
    { s with users := s.users.modify userId fun u => { u with role := role, email := email } }

/-! ## The steps that concern no member -/

def Event.isMembership : Event → Bool
  | .createOrganization .. | .addOrganizationMember .. | .transferOrganizationOwner .. | .updateOrganizationMember ..
  | .removeOrganizationMember .. | .exitOrganization .. | .joinOrganizationByJoinRule .. | .acceptInvite .. => true
  | _ => false

structure KeepsMembers (s s' : State) : Prop where
  members : s'.members = s.members
  owners : ∀ o, (s'.organizations.get? o).map Organization.ownerUserId =
    (s.organizations.get? o).map Organization.ownerUserId

theorem KeepsMembers.refl (s : State) : KeepsMembers s s := ⟨rfl, fun _ => rfl⟩

theorem map_ownerUserId_modify (organizations : Table Organization) (i o : Nat) {g : Organization → Organization}
    (hg : ∀ x, (g x).ownerUserId = x.ownerUserId) : ((organizations.modify i g).get? o).map Organization.ownerUserId =
      (organizations.get? o).map Organization.ownerUserId := by
  rw [Table.get?_modify]
  split_ifs
  · cases organizations.get? o with
    | none => rfl
    | some => simp [hg]
  · rfl

theorem keepsMembers_derive (s : State) (i : Nat) :
    KeepsMembers s (deriveOrganizationStatusFromDisableRecords s i) := by
  refine ⟨rfl, fun o => map_ownerUserId_modify _ _ _ fun x => ?_⟩
  split_ifs <;> rfl

theorem keepsMembers_disabledState (s : State) (caller : Caller) (source : DisableSource) :
    KeepsMembers s (disabledState s caller source) := by
  have hrecord : KeepsMembers s
      (ensureOrganizationDisableRecord s caller.organizationId source caller.operatorUserId).2 := by
    unfold ensureOrganizationDisableRecord
    split
    · exact .refl s
    · exact ⟨rfl, fun _ => rfl⟩
  have hderive := keepsMembers_derive
    (ensureOrganizationDisableRecord s caller.organizationId source caller.operatorUserId).2 caller.organizationId
  exact ⟨hderive.members.trans hrecord.members, fun o => (hderive.owners o).trans (hrecord.owners o)⟩

theorem keepsMembers_enabledState (s : State) (caller : Caller) (source : DisableSource) :
    KeepsMembers s (enabledState s caller source) := by
  have hderive := keepsMembers_derive
    (source.clears.foldl (fun s source => clearOrganizationDisableRecords s caller.organizationId source) s)
    caller.organizationId
  cases source with
  | self | platform => exact ⟨hderive.members, hderive.owners⟩

def Event.concernsKeys : Event → Bool
  | .updateOrganizationMember .. | .removeOrganizationMember .. | .exitOrganization .. | .setOrganizationStatus ..
  | .dissolveOrganization .. | .updateUserStatus .. | .createOrganizationToken .. | .updateOrganizationToken ..
  | .updateOrganizationTokenResponsibility .. | .deleteOrganizationToken ..
  | .reconcileOrganizationTokenBlockers .. => true
  | _ => false

def Event.concernsInvites : Event → Bool
  | .createEmailInvite .. | .deliverInvite .. | .finalizeInviteDelivery .. | .acceptInvite .. | .revokeInvite ..
  | .writeExpired .. | .dissolveOrganization .. => true
  | _ => false

/-- The tables that an operation does not concern stay as they are. -/
structure Frame (e : Event) (s s' : State) : Prop where
  members : e.isMembership = false → KeepsMembers s s'
  tokens : e.concernsKeys = false → s'.tokens = s.tokens
  invites : e.concernsInvites = false → s'.invites = s.invites

theorem Frame.refl (e : Event) (s : State) : Frame e s s := ⟨fun _ => .refl s, fun _ => rfl, fun _ => rfl⟩

theorem Frame.of_attempt {e : Event} {s : State} {r : Except OrganizationError State}
    (h : ∀ s', r = .ok s' → Frame e s s') :
    Frame e s (attempt r s) :=
  attempt_invariant (Frame.refl e s) h

theorem joins_frame {s s' : State} {o u : Nat} {role : Role} {invitedBy : Nat} (h : Joins s s' o u role invitedBy) :
    s'.tokens = s.tokens ∧ s'.invites = s.invites := by
  cases h with
  | rejoined _ _ hs | joined _ _ hs => rw [hs]; exact ⟨rfl, rfl⟩

theorem invites_disabledState {s : State} (caller : Caller) (source : DisableSource) :
    (disabledState s caller source).invites = s.invites := by
  unfold disabledState ensureOrganizationDisableRecord
  split <;> rfl

theorem invites_enabledState {s : State} (caller : Caller) (source : DisableSource) :
    (enabledState s caller source).invites = s.invites := by
  cases source <;> rfl

theorem step_frame (config : Config) (s : System) (e : Event) : Frame e s.toState (s.step config e).toState := by
  cases e with
  | createOrganization =>
    refine .of_attempt fun s' hs' => ?_
    obtain ⟨-, _, _, -, -, rfl⟩ := createOrganization_ok hs'
    exact ⟨fun h => (by cases h), fun _ => rfl, fun _ => rfl⟩
  | addOrganizationMember =>
    refine .of_attempt fun s' hs' => ?_
    obtain ⟨-, -, _, -, hjoins⟩ := addOrganizationMember_ok hs'
    exact ⟨fun h => (by cases h), fun _ => (joins_frame hjoins).1, fun _ => (joins_frame hjoins).2⟩
  | transferOrganizationOwner =>
    refine .of_attempt fun s' hs' => ?_
    obtain ⟨_, -, _, _, rfl, htransfers⟩ := transferOrganizationOwner_ok hs'
    cases htransfers <;> subst_vars <;> exact ⟨fun h => (by cases h), fun _ => rfl, fun _ => rfl⟩
  | updateOrganizationMember =>
    refine .of_attempt fun s' hs' => ⟨fun h => (by cases h), fun h => (by cases h), fun _ => ?_⟩
    rcases updateOrganizationMember_ok hs' with rfl | ⟨_, _, _, _, _, _, -, -, -, htarget, rfl⟩
    · rfl
    · obtain ⟨-, _, _, rfl | hkeys, rfl, rfl⟩ := updateTargetMember_ok htarget
      · rfl
      · obtain ⟨_, rfl⟩ := transferOrganizationPublicKeys_frame hkeys
        rfl
  | removeOrganizationMember =>
    refine .of_attempt fun s' hs' => ⟨fun h => (by cases h), fun h => (by cases h), fun _ => ?_⟩
    obtain ⟨_, _, _, -, -, -, rfl | ⟨_, _, _, hkeys, rfl⟩⟩ := removeOrganizationMember_ok hs'
    · rfl
    · obtain ⟨_, rfl⟩ := transferOrganizationKeys_frame hkeys
      rfl
  | exitOrganization =>
    refine .of_attempt fun s' hs' => ⟨fun h => (by cases h), fun h => (by cases h), fun _ => ?_⟩
    rcases exitOrganization_ok hs' with rfl | ⟨_, _, _, _, _, _, -, -, -, -, hkeys, rfl⟩
    · rfl
    · obtain ⟨_, rfl⟩ := transferOrganizationKeys_frame hkeys
      rfl
  | joinOrganizationByJoinRule =>
    refine .of_attempt fun s' hs' => ?_
    rcases joinOrganizationByJoinRule_ok hs' with rfl | ⟨-, -, hjoins⟩
    · exact .refl _ _
    · exact ⟨fun h => (by cases h), fun _ => (joins_frame hjoins).1, fun _ => (joins_frame hjoins).2⟩
  | createEmailInvite =>
    simp only [System.step]
    split
    · exact .refl _ _
    · rename_i hpersist
      obtain ⟨_, _, rfl, -⟩ := persistOrganizationEmailInvite_ok hpersist
      exact ⟨fun _ => ⟨rfl, fun _ => rfl⟩, fun _ => rfl, fun h => by cases h⟩
  | deliverInvite =>
    refine .of_attempt fun s' hs' => ?_
    rcases deliverOrganizationEmailInvite_ok hs' with rfl | ⟨-, rfl⟩
    · exact .refl _ _
    · exact ⟨fun _ => ⟨rfl, fun _ => rfl⟩, fun _ => rfl, fun h => by cases h⟩
  | finalizeInviteDelivery =>
    refine .of_attempt fun s' hs' => ?_
    obtain ⟨_, rfl⟩ := finalizeOrganizationInviteDelivery_ok hs'
    exact ⟨fun _ => ⟨rfl, fun _ => rfl⟩, fun _ => rfl, fun h => by cases h⟩
  | acceptInvite =>
    simp only [System.step]
    split
    · exact .refl _ _
    · rename_i haccept
      obtain ⟨_, _, _, _, -, hmember⟩ := acceptInvite_ok haccept
      obtain ⟨-, -, hjoins⟩ := reactivateOrganizationMember_ok hmember
      exact ⟨fun h => (by cases h), fun _ => (joins_frame hjoins).1, fun h => by cases h⟩
  | revokeInvite =>
    refine .of_attempt fun s' hs' => ?_
    obtain ⟨-, rfl⟩ := revokeInvite_ok hs'
    exact ⟨fun _ => ⟨rfl, fun _ => rfl⟩, fun _ => rfl, fun h => by cases h⟩
  | writeExpired =>
    simp only [System.step]
    split
    · exact .refl _ _
    · exact ⟨fun _ => ⟨rfl, fun _ => rfl⟩, fun _ => rfl, fun h => by cases h⟩
  | setOrganizationStatus caller source =>
    refine .of_attempt fun s' hs' => ?_
    rcases setOrganizationStatus_ok hs' with ⟨_, rfl⟩ | rfl
    · have hkept := keepsMembers_disabledState s.toState caller source
      exact ⟨fun _ => ⟨hkept.members, hkept.owners⟩, fun h => (by cases h),
        fun _ => invites_disabledState caller source⟩
    · have hkept := keepsMembers_enabledState s.toState caller source
      exact ⟨fun _ => ⟨hkept.members, hkept.owners⟩, fun h => (by cases h), fun _ => invites_enabledState caller source⟩
  | dissolveOrganization =>
    refine .of_attempt fun s' hs' => ?_
    rcases dissolveOrganization_ok hs' with rfl | ⟨_, _, rfl, rfl⟩
    · exact .refl _ _
    · exact ⟨fun _ => ⟨rfl, fun o => map_ownerUserId_modify _ _ _ fun _ => rfl⟩,
        fun h => (by cases h), fun h => by cases h⟩
  | updateUserStatus =>
    refine .of_attempt fun s' hs' => ?_
    obtain ⟨_, rfl, rfl⟩ := updateUserStatus_ok hs'
    exact ⟨fun _ => ⟨rfl, fun _ => rfl⟩, fun h => (by cases h), fun _ => rfl⟩
  | createOrganizationToken =>
    refine .of_attempt fun s' hs' => ?_
    obtain ⟨_, -, -, rfl⟩ := createOrganizationToken_ok hs'
    exact ⟨fun _ => ⟨rfl, fun _ => rfl⟩, fun h => (by cases h), fun _ => rfl⟩
  | updateOrganizationToken =>
    refine .of_attempt fun s' hs' => ?_
    obtain ⟨_, _, _, _, _, -, -, -, rfl⟩ := updateOrganizationToken_ok hs'
    exact ⟨fun _ => ⟨rfl, fun _ => rfl⟩, fun h => (by cases h), fun _ => rfl⟩
  | updateOrganizationTokenResponsibility =>
    refine .of_attempt fun s' hs' => ?_
    obtain ⟨_, -, -, rfl⟩ := updateOrganizationTokenResponsibility_ok hs'
    exact ⟨fun _ => ⟨rfl, fun _ => rfl⟩, fun h => (by cases h), fun _ => rfl⟩
  | deleteOrganizationToken =>
    refine .of_attempt fun s' hs' => ?_
    obtain rfl := deleteOrganizationToken_ok hs'
    exact ⟨fun _ => ⟨rfl, fun _ => rfl⟩, fun h => (by cases h), fun _ => rfl⟩
  | reconcileOrganizationTokenBlockers => exact ⟨fun _ => ⟨rfl, fun _ => rfl⟩, fun h => (by cases h), fun _ => rfl⟩
  | lookUpInvite | registerUser | editUser => exact ⟨fun _ => ⟨rfl, fun _ => rfl⟩, fun _ => rfl, fun _ => rfl⟩

/-! ## A small system -/

def sampleToken : String := "AAAAAAAAAAAAAAAAAAAAAAAAAAAAAAAAAAAAAAAAAAA"

def sampleToken' : String := "EEEEEEEEEEEEEEEEEEEEEEEEEEEEEEEEEEEEEEEEEEA"

/-- The functions as they are on names and addresses in lower case and on the two tokens, with the secret `secret`. -/
def sampleConfig : Config where
  normalizeOrganizationName name := name
  normalizeEmail email := email
  lower email := email
  hashToken token :=
    if token = sampleToken then "0f007385b6f9d4b7eeb2748605afe1a984a0a3bfa3f014d09e2a784ce9e5cd1a"
    else if token = sampleToken' then "91541cc8cc1521e236f3c45abe78689f30c9546203bad48714dcd3642bbe92e7"
    else ""
  legacyHashToken token :=
    if token = sampleToken then "8147fa62ac1b92e2bbf4910a8c600702594e137d014632c0c97e45272ee7daad"
    else if token = sampleToken' then "84bde73f5feb0f72842ea5068023ea03d8a8c6144cd4475e094a7c4ed414972e"
    else ""
  inviteTTLSeconds := 7 * 24 * 60 * 60

def sampleUsers : Table User :=
  ((Table.empty.insert { email := "a@example.com" }).insert { email := "b@example.com" }).insert
    { role := roleAdminUser, email := "c@example.com" }

end CubeRouter.Organization
