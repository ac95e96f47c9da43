import CubeRouter.Organization.KeyStatus
import CubeRouter.Organization.System

/-!
# What a step does to a key

`KeyRelation` names what has to be shown of a relation for every step to keep it; the updates by hand are left to each
use.

`step_key`: a key is still there after a step, and it follows, unless the step is an update that enables it by hand.
-/

namespace CubeRouter.Organization

open Relational Transition

def Event.isUpdate : Event → Bool
  | .updateOrganizationToken .. => true
  | _ => false

/-- The key is enabled by hand, and the request is granted. -/
def Event.enables (s : System) (i : Nat) : Event → Bool
  | .updateOrganizationToken caller tokenId req now =>
    tokenId = i ∧ req.status = .value .enabled ∧
      (Organization.updateOrganizationToken s.toState caller tokenId req now).toOption.isSome
  | _ => false

/-- A relation that every operation on keys keeps, the updates by hand apart. -/
structure KeyRelation (R : Token → Token → Prop) : Prop where
  refl : ∀ t, R t t
  trans : ∀ t t' t'', R t t' → R t' t'' → R t t''
  handOver : ∀ env u now t, R t (t.handOver env u now)
  delete : ∀ now t, R t { t with updatedAt := now, deleted := true }
  memberDisabled : ∀ env o u operator source now (tokens : Table Token),
    tokens.Evolves R (createOrganizationMemberDisabledTokenBlockers env o u operator source now tokens)
  memberEnabled : ∀ env o u now (tokens : Table Token),
    tokens.Evolves R (clearOrganizationMemberDisabledTokenBlockers env o u now tokens)
  disabled : ∀ env i r now (tokens : Table Token),
    tokens.Evolves R (createOrganizationDisabledTokenBlockers env i r now tokens)
  enabled : ∀ (s : State) caller source env now, s.tokens.Evolves R
    (reconcileOrganizationTokenSystemBlockers env caller.organizationId now (enabledState s caller source).tokens)
  dissolved : ∀ env o u now (tokens : Table Token),
    tokens.Evolves R (createOrganizationDissolvedTokenBlockers env o u now tokens)
  userDisabled : ∀ env u operator now (tokens : Table Token),
    tokens.Evolves R (createOrganizationUserPlatformDisabledTokenBlockers env u operator now tokens)
  userEnabled : ∀ env u now (tokens : Table Token),
    tokens.Evolves R (clearOrganizationUserPlatformDisabledTokenBlockers env u now tokens)
  sweep : ∀ env now (tokens : Table Token), tokens.Evolves R
    (reconcileAllOrganizationTokenSystemBlockers env now (clearStaleOrganizationTokenSystemBlockers env tokens))

namespace KeyRelation

variable {R : Token → Token → Prop} {s s' : State} {o u v : Nat} {organization : Organization} {now : Int}

theorem publicKeys (hR : KeyRelation R)
    (h : transferOrganizationPublicKeys s o organization u v now = .ok s') : s.tokens.Evolves R s'.tokens := by
  rcases transferOrganizationPublicKeys_ok h with rfl | ⟨-, -, rfl⟩
  · exact .refl hR.refl _
  · exact .updateWhere hR.refl fun _ t _ _ => hR.handOver _ _ now t

theorem keys (hR : KeyRelation R)
    (h : transferOrganizationKeys s o organization u v now = .ok s') : s.tokens.Evolves R s'.tokens := by
  obtain ⟨_, hpublic, rfl⟩ := transferOrganizationKeys_ok h
  refine .trans hR.trans (hR.publicKeys hpublic) ?_
  exact .updateWhere hR.refl fun _ t _ _ => hR.delete now t

theorem memberBlockers (hR : KeyRelation R) (env : Sources) (operator : Nat) (before after : Member) (now : Int)
    (tokens : Table Token) :
    tokens.Evolves R (updateMemberDisabledTokenBlockers env operator before after now tokens) := by
  unfold updateMemberDisabledTokenBlockers
  split_ifs
  · exact hR.memberDisabled ..
  · exact hR.memberEnabled ..
  · exact .refl hR.refl _

theorem foldl (hR : KeyRelation R) {α : Type} {f : Table Token → α → Table Token}
    (hf : ∀ (tokens : Table Token) (a : α), tokens.Evolves R (f tokens a)) (l : List α) (tokens : Table Token) :
    tokens.Evolves R (l.foldl f tokens) :=
  .foldl hR.refl hR.trans hf l tokens

theorem reconcileAll (hR : KeyRelation R) (env : Sources) (now : Int) (tokens : Table Token) :
    tokens.Evolves R (reconcileOrganizationTokenBlockers env now tokens) := by
  refine .trans hR.trans ?_ (hR.sweep env now _)
  refine .trans hR.trans ?_ (hR.foldl (fun tokens (u : Nat × User) => hR.userDisabled env u.1 0 now tokens) _ _)
  refine .trans hR.trans ?_ (hR.foldl (fun tokens (m : Nat × Member) =>
    hR.memberDisabled env m.2.organizationId m.2.userId 0 m.2.disabledSource now tokens) _ _)
  refine .trans hR.trans ?_ (hR.foldl (fun tokens (o : Nat × Organization) => hR.dissolved env o.1 0 now tokens) _ _)
  exact hR.foldl (fun tokens (r : Nat × DisableRecord) => hR.disabled env r.1 r.2 now tokens) _ _

theorem of_attempt (hR : KeyRelation R) {r : Except OrganizationError State}
    (h : ∀ s', r = .ok s' → s.tokens.Evolves R s'.tokens) : s.tokens.Evolves R (attempt r s).tokens :=
  attempt_invariant (I := fun s' : State => s.tokens.Evolves R s'.tokens) (.refl hR.refl _) h

end KeyRelation

variable {e : Event} {s : System} {i : Nat}

theorem KeyRelation.step {R : Token → Token → Prop} (hR : KeyRelation R) (config : Config) (s : System)
    (h : e.isUpdate = false) : s.tokens.Evolves R (s.step config e).tokens := by
  cases e with
  | updateOrganizationMember =>
    refine hR.of_attempt fun s' hs' => ?_
    rcases updateOrganizationMember_ok hs' with rfl | ⟨organization, decision, target, i, i', s1, -, -, -, htarget, rfl⟩
    · exact .refl hR.refl _
    · obtain ⟨-, s2, _, hkeys, rfl, rfl⟩ := updateTargetMember_ok htarget
      have hfirst : s.tokens.Evolves R s2.tokens := by
        rcases hkeys with rfl | hkeys
        · exact .refl hR.refl _
        · have hpublic := hR.publicKeys hkeys
          exact hpublic
      exact .trans hR.trans hfirst (hR.memberBlockers ..)
  | removeOrganizationMember =>
    refine hR.of_attempt fun s' hs' => ?_
    obtain ⟨organization, decision, _, -, -, -, rfl | ⟨i, i', s1, hkeys, rfl⟩⟩ := removeOrganizationMember_ok hs'
    · exact .refl hR.refl _
    · have hfollow := hR.keys hkeys
      exact hfollow
  | exitOrganization =>
    refine hR.of_attempt fun s' hs' => ?_
    rcases exitOrganization_ok hs' with rfl | ⟨organization, _, m, i, _, _, -, -, -, -, hkeys, rfl⟩
    · exact .refl hR.refl _
    · have hfollow := hR.keys hkeys
      exact hfollow
  | setOrganizationStatus caller source _ _ now =>
    refine hR.of_attempt fun s' hs' => ?_
    rcases setOrganizationStatus_ok hs' with ⟨_, rfl⟩ | rfl
    · show s.tokens.Evolves R (createOrganizationDisabledTokenBlockers _ _ _ _ (disabledState _ _ _).tokens)
      rw [tokens_disabledState]
      exact hR.disabled ..
    · exact hR.enabled s.toState caller source _ now
  | dissolveOrganization =>
    refine hR.of_attempt fun s' hs' => ?_
    rcases dissolveOrganization_ok hs' with rfl | ⟨_, _, rfl, rfl⟩
    · exact .refl hR.refl _
    · exact hR.dissolved ..
  | updateUserStatus _ enabled =>
    refine hR.of_attempt fun s' hs' => ?_
    obtain ⟨_, rfl, rfl⟩ := updateUserStatus_ok hs'
    cases enabled with
    | true => exact hR.userEnabled ..
    | false => exact hR.userDisabled ..
  | createOrganizationToken =>
    refine hR.of_attempt fun s' hs' => ?_
    obtain ⟨_, -, -, rfl⟩ := createOrganizationToken_ok hs'
    exact .insert hR.refl _ _
  | updateOrganizationToken =>
    cases h
  | updateOrganizationTokenResponsibility _ _ _ now =>
    refine hR.of_attempt fun s' hs' => ?_
    obtain ⟨_, -, -, rfl⟩ := updateOrganizationTokenResponsibility_ok hs'
    exact .modify hR.refl fun t _ => hR.handOver _ _ now t
  | deleteOrganizationToken _ _ now =>
    refine hR.of_attempt fun s' hs' => ?_
    obtain rfl := deleteOrganizationToken_ok hs'
    exact .modify hR.refl fun t _ => hR.delete now t
  | reconcileOrganizationTokenBlockers => exact hR.reconcileAll ..
  | _ =>
    rw [(step_frame config s _).tokens rfl]
    exact .refl hR.refl _

theorem follows_keyRelation : KeyRelation Follows where
  refl := Follows.refl
  trans := Follows.trans
  handOver := follows_handOver
  delete _ _ := .of_deleted rfl rfl
  memberDisabled := follows_memberDisabled
  memberEnabled := follows_memberEnabled
  disabled := follows_disabled
  enabled := follows_enabled
  dissolved := follows_dissolved
  userDisabled := follows_userDisabled
  userEnabled := follows_userEnabled
  sweep := follows_sweep

theorem enables_of_not_update (h : e.isUpdate = false) : e.enables s i = false := by
  cases e with
  | updateOrganizationToken => cases h
  | _ => rfl

theorem enables_update_iff {tokenId : Nat} {caller : Caller} {req : OrganizationTokenRequest} {now : Int} :
    (Event.updateOrganizationToken caller tokenId req now).enables s i = true ↔ tokenId = i ∧
    req.status = .value .enabled ∧
        ∃ s', Organization.updateOrganizationToken s.toState caller tokenId req now = .ok s' := by
  simp [Event.enables, Option.isSome_iff_exists, toOption_eq_some]

theorem step_key (config : Config) (s : System) (e : Event) {t : Token} (ht : s.tokens.get? i = some t) :
    ∃ t', (s.step config e).tokens.get? i = some t' ∧ if e.enables s i then EnabledByHand t t' else Follows t t' := by
  by_cases hupdate : e.isUpdate = false
  · obtain ⟨t', ht', hfollows⟩ := (follows_keyRelation.step config s hupdate).row i t ht
    refine ⟨t', ht', ?_⟩
    rw [enables_of_not_update hupdate]
    exact hfollows
  cases e with
  | updateOrganizationToken caller tokenId req now =>
    rcases hresult : Organization.updateOrganizationToken s.toState caller tokenId req now with _ | s'
    · refine ⟨t, by simp only [System.step, hresult]; exact ht, ?_⟩
      rw [if_neg (by simp [enables_update_iff, hresult])]
      exact .refl t
    obtain ⟨_, t', ht0, htokens, hchange⟩ := updateOrganizationToken_row hresult
    have hstep : (s.step config (.updateOrganizationToken caller tokenId req now)).tokens =
        s.tokens.modify tokenId fun _ => t' := by
      simp only [System.step, hresult]
      exact htokens
    rw [hstep]
    by_cases hi : i = tokenId
    · subst hi
      obtain rfl := Option.mem_unique ht0 ht
      refine ⟨t', by rw [Table.get?_modify_self, ht]; rfl, ?_⟩
      split_ifs at hchange with hreq
      · rw [if_pos (enables_update_iff.mpr ⟨rfl, hreq, s', hresult⟩)]
        exact hchange
      · rw [if_neg fun h => hreq (enables_update_iff.mp h).2.1]
        exact hchange
    · refine ⟨t, by rw [Table.get?_modify_of_ne _ _ hi, ht], ?_⟩
      rw [if_neg fun h => hi (enables_update_iff.mp h).1.symm]
      exact .refl t
  | _ => exact absurd rfl hupdate

end CubeRouter.Organization
