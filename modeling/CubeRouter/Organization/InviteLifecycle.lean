import CubeRouter.Organization.System

/-!
# The life of an invitation

An invitation is pending until it is accepted, revoked or expired, and a new token makes it pending again. Accepting,
revoking and issuing lock the row. `GetInviteByToken` does not: between its read and its write the invitation may have
been accepted or revoked, or issued again with another token and another time; the write marks it as expired in any
case.

The tokens are random and found by their hashes: `distinctTokens` says that no two of a run are taken for each other.
-/

namespace CubeRouter.Organization

open Relational Transition List Option

/-- A new token is none of those issued before, and a token that is presented has no hash of another. -/
def Event.distinctTokens (config : Config) (s : System) : Event → Bool
  | .createEmailInvite _ _ token _ => token ∉ s.issued.map Prod.snd
  | .acceptInvite _ token _ _ =>
    s.issued.all fun x => config.hashToken x.2 ∈ config.inviteTokenHashes token → x.2 = token
  | _ => true

/-- Since the read the invitation was neither accepted nor revoked nor issued again. -/
def Event.writesWhatItRead (s : System) : Event → Bool
  | .writeExpired k =>
    (s.lookups[k]?).all fun lookup => (s.invites.get? lookup.inviteId).all fun r =>
      r.expiredAt = lookup.invite.expiredAt ∧ (r.status = .pending ∨ r.status = .expired)
  | _ => true

def System.latest (s : System) (i : Nat) : Option String := (s.issued.find? fun x => x.1 = i).map Prod.snd

/-! ## What a step does to the invites -/

/-- A step that issues nothing and marks nothing as expired. -/
structure Settles (r r' : Invite) : Prop where
  tokenHash : r'.tokenHash = r.tokenHash
  expiredAt : r'.expiredAt = r.expiredAt
  status : r'.status = r.status ∨ (r.status = .pending ∧ (r'.status = .accepted ∨ r'.status = .revoked))

theorem Settles.refl (r : Invite) : Settles r r := ⟨rfl, rfl, .inl rfl⟩

structure SettlesAll (invites invites' : Table Invite) : Prop where
  row : ∀ i r', invites'.get? i = some r' → ∃ r, invites.get? i = some r ∧ Settles r r'

namespace SettlesAll

theorem refl (invites : Table Invite) : SettlesAll invites invites := ⟨fun _ r hr => ⟨r, hr, .refl r⟩⟩

variable {invites : Table Invite} {g : Invite → Invite}

theorem modify {i : Nat}
    (h : ∀ r, invites.get? i = some r → Settles r (g r)) : SettlesAll invites (invites.modify i g) := by
  refine ⟨fun j r' hr' => ?_⟩
  rw [Table.get?_modify] at hr'
  split_ifs at hr' with hj
  · obtain ⟨r, hr, rfl⟩ := map_eq_some_iff.mp hr'
    exact ⟨r, hr, h r (hj ▸ hr)⟩
  · exact ⟨r', hr', .refl r'⟩

theorem updateWhere {p : Invite → Bool}
    (h : ∀ r, p r = true → Settles r (g r)) : SettlesAll invites (invites.updateWhere p g) := by
  refine ⟨fun j r' hr' => ?_⟩
  obtain ⟨r, hr, rfl⟩ := map_eq_some_iff.mp hr'
  refine ⟨r, hr, ?_⟩
  split_ifs with hp
  · exact h r hp
  · exact .refl r

end SettlesAll

inductive InviteChange (config : Config) (s s' : System) (e : Event) : Prop
  | kept (hrows : SettlesAll s.invites s'.invites) (hissued : s'.issued = s.issued)
    (haccepted : s'.acceptances = s.acceptances)
  | issued (i : Nat) (token : String) (invite : Invite)
    (he : ∃ caller req now, e = .createEmailInvite caller req token now)
    (hrow : s'.invites.get? i = some invite) (hhash : invite.tokenHash = config.hashToken token)
    (hpending : invite.status = .pending)
    (hothers : ∀ j r', j ≠ i → s'.invites.get? j = some r' → ∃ r, s.invites.get? j = some r ∧ Settles r r')
    (hissued : s'.issued = (i, token) :: s.issued) (haccepted : s'.acceptances = s.acceptances)
  | accepted (i : Nat) (token : String) (invite : Invite)
    (he : ∃ o u now, e = .acceptInvite o token u now)
    (hfound : s.invites.get? i = some invite) (hpending : invite.status = .pending)
    (hhash : invite.tokenHash ∈ config.inviteTokenHashes token)
    (hrows : SettlesAll s.invites s'.invites) (hrow : ∀ r', s'.invites.get? i = some r' → r'.status ≠ .pending)
    (hissued : s'.issued = s.issued) (haccepted : s'.acceptances = (i, token) :: s.acceptances)
  | expired (k : Nat) (lookup : InviteLookup) (he : e = .writeExpired k) (hlookup : s.lookups[k]? = some lookup)
    (hrows : s'.invites = s.invites.modify lookup.inviteId fun r =>
      { r with status := .expired, updatedAt := lookup.now })
    (hissued : s'.issued = s.issued) (haccepted : s'.acceptances = s.acceptances)

theorem settles_repair (s : State) (o : Nat) (now : Int) :
    SettlesAll s.invites (repairStaleOrganizationInviteDeliveries s o now).invites :=
  .updateWhere fun _ _ => ⟨rfl, rfl, .inl rfl⟩

variable {r : Invite} {config : Config} {s s' : System} {e : Event} {i : Nat} {token : String}

theorem settles_revoked (h : r.status = .pending) (now : Int) :
    Settles r { r with status := .revoked, updatedAt := now } := ⟨rfl, rfl, .inr ⟨h, .inr rfl⟩⟩

theorem inviteChange_of_attempt {r : Except OrganizationError State}
    (h : ∀ s', r = .ok s' → SettlesAll s.invites s'.invites) : InviteChange config s (s.transact r) e := by
  refine .kept ?_ rfl rfl
  rcases r with _ | s'
  · exact .refl _
  · exact h s' rfl

theorem step_invites (s : System) (e : Event) : InviteChange config s (s.step config e) e := by
  cases e with
  | createEmailInvite caller req token now =>
    simp only [System.step]
    split
    · exact .kept (.refl _) rfl rfl
    · rename_i persisted state hpersist
      obtain ⟨i, invites, rfl, hrotates⟩ := persistOrganizationEmailInvite_ok hpersist
      have hrepair := settles_repair s.toState caller.organizationId now
      cases hrotates with
      | replayed hinvites htoken =>
        subst hinvites
        exact .kept hrepair (by simp [htoken]) rfl
      | issued invite hissues htoken hhash hpending =>
        refine .issued persisted.inviteId token invite ⟨caller, req, now, rfl⟩ hissues.row hhash hpending ?_
          (by simp [htoken]) rfl
        intro j r' hj hr'
        exact hrepair.row j r' ((hissues.others j hj).symm.trans hr')
  | deliverInvite _ _ now =>
    refine inviteChange_of_attempt fun s' hs' => ?_
    rcases deliverOrganizationEmailInvite_ok hs' with rfl | ⟨⟨invite, hinvite, hpending⟩, rfl⟩
    · exact .refl _
    · refine .modify fun r hr => settles_revoked ?_ now
      rw [← mem_unique hinvite hr, hpending]
  | finalizeInviteDelivery =>
    refine inviteChange_of_attempt fun s' hs' => ?_
    obtain ⟨_, rfl⟩ := finalizeOrganizationInviteDelivery_ok hs'
    exact .modify fun _ _ => ⟨rfl, rfl, .inl rfl⟩
  | acceptInvite o token u now =>
    simp only [System.step]
    split
    · exact .kept (.refl _) rfl rfl
    · rename_i state haccept
      obtain ⟨_, i, invite, _, haccepts, hmember⟩ := acceptInvite_ok haccept
      obtain ⟨-, -, hjoins⟩ := reactivateOrganizationMember_ok hmember
      obtain ⟨hget, hp⟩ := Table.find?_some haccepts.found
      have hinvites := (joins_frame hjoins).2
      refine .accepted i token invite ⟨o, u, now, rfl⟩ hget haccepts.pending (of_decide_eq_true hp).2 ?_ ?_ rfl ?_
      · show SettlesAll s.invites state.invites
        rw [hinvites]
        refine .modify fun r hr => ⟨rfl, rfl, .inr ⟨?_, .inl rfl⟩⟩
        rw [← mem_unique hget hr, haccepts.pending]
      · intro r' hr'
        replace hr' : state.invites.get? i = some r' := hr'
        rw [hinvites, Table.get?_modify_self, hget, map_some] at hr'
        cases hr'
        intro h
        cases h
      · show ((acceptedInvite config s.toState o token).map fun i => (i, token)).toList ++ s.acceptances = _
        rw [acceptedInvite, haccepts.found]
        rfl
  | revokeInvite _ _ now =>
    refine inviteChange_of_attempt fun s' hs' => ?_
    obtain ⟨⟨_, hinvite, hpending⟩, rfl⟩ := revokeInvite_ok hs'
    refine .modify fun r hr => settles_revoked ?_ now
    rw [← mem_unique hinvite hr, hpending]
  | writeExpired k =>
    cases hlookup : s.lookups[k]? with
    | none =>
      simp only [System.step, hlookup]
      exact .kept (.refl _) rfl rfl
    | some lookup =>
      simp only [System.step, hlookup]
      exact .expired k lookup rfl hlookup rfl rfl rfl
  | dissolveOrganization _ _ _ now =>
    refine inviteChange_of_attempt fun s' hs' => ?_
    rcases dissolveOrganization_ok hs' with rfl | ⟨_, _, rfl, rfl⟩
    · exact .refl _
    · exact .updateWhere fun r hr => settles_revoked (of_decide_eq_true hr).2 now
  | _ =>
    refine .kept ?_ rfl rfl
    rw [(step_frame config s _).invites rfl]
    exact .refl _

theorem step_lookups {lookup : InviteLookup}
    (h : lookup ∈ (s.step config e).lookups) : lookup ∈ s.lookups ∨ lookup.invite.overdue lookup.now = true := by
  cases e with
  | lookUpInvite =>
    rcases mem_append.mp h with hold | hnew
    · exact .inl hold
    · obtain ⟨⟨i, _⟩, hread, rfl⟩ := map_eq_some_iff.mp (mem_toList.mp hnew)
      unfold getInviteByToken at hread
      split_ifs at hread
      have hchecked := (filter_eq_some_iff.mp hread).2
      exact .inr (of_decide_eq_true hchecked).2
  | writeExpired =>
    simp only [System.step] at h
    split at h
    · exact .inl h
    · exact .inl (mem_of_mem_eraseIdx h)
  | createEmailInvite | acceptInvite =>
    simp only [System.step] at h
    split at h
    · exact .inl h
    · exact .inl h
  | _ => exact .inl h

/-! ## The tokens of a run -/

/-- The tokens of the history and the rows they belong to. -/
structure InviteHistory (config : Config) (s : System) : Prop where
  /-- The row has the hash of the latest token. -/
  latest : ∀ i r, s.invites.get? i = some r → ∃ token, s.latest i = some token ∧ r.tokenHash = config.hashToken token
  distinct : (s.issued.map Prod.snd).Nodup
  /-- A token that was accepted is not the latest of an invite that is pending. -/
  used : ∀ i token, (i, token) ∈ s.acceptances → (i, token) ∈ s.issued ∧
    ∀ r, s.invites.get? i = some r → s.latest i = some token → r.status ≠ .pending
  once : (s.acceptances.map Prod.snd).Nodup
  lookups : ∀ lookup ∈ s.lookups, lookup.invite.overdue lookup.now = true

variable {r' : Invite}

theorem Settles.status_ne_pending (h : Settles r r') (hr : r.status ≠ .pending) : r'.status ≠ .pending := by
  rcases h.status with hsame | ⟨hpending, -⟩
  · rw [hsame]
    exact hr
  · exact absurd hpending hr

theorem mem_of_latest (h : s.latest i = some token) : (i, token) ∈ s.issued := by
  obtain ⟨⟨j, t⟩, hfound, rfl⟩ := map_eq_some_iff.mp h
  have hj : j = i := by simpa using find?_some hfound
  exact hj ▸ mem_of_find?_eq_some hfound

theorem latest_eq_of_issued (h : s'.issued = s.issued) (i : Nat) : s'.latest i = s.latest i := by
  rw [System.latest, System.latest, h]

theorem latest_cons_self (h : s'.issued = (i, token) :: s.issued) : s'.latest i = some token := by
  rw [System.latest, h, find?_cons_of_pos (by simp), map_some]

theorem latest_cons_of_ne {j : Nat} (h : s'.issued = (i, token) :: s.issued) (hj : j ≠ i) :
    s'.latest j = s.latest j := by
  rw [System.latest, h, find?_cons_of_neg (by simpa using Ne.symm hj), System.latest]

theorem InviteHistory.latest_of_settles (h : InviteHistory config s) (hrows : SettlesAll s.invites s'.invites)
    (hissued : s'.issued = s.issued) : ∀ i r', s'.invites.get? i = some r' →
      ∃ token, s'.latest i = some token ∧ r'.tokenHash = config.hashToken token := by
  intro i r' hr'
  obtain ⟨r, hr, hsettles⟩ := hrows.row i r' hr'
  obtain ⟨token, htoken, hhash⟩ := h.latest i r hr
  refine ⟨token, ?_, hsettles.tokenHash.trans hhash⟩
  rw [latest_eq_of_issued hissued, htoken]

theorem InviteHistory.used_of_settles (h : InviteHistory config s) (hrows : SettlesAll s.invites s'.invites)
    (hissued : s'.issued = s.issued) (hused : (i, token) ∈ s.acceptances) : (i, token) ∈ s'.issued ∧
      ∀ r, s'.invites.get? i = some r → s'.latest i = some token → r.status ≠ .pending := by
  obtain ⟨hmem, hstatus⟩ := h.used i token hused
  refine ⟨hissued ▸ hmem, fun r' hr' htoken => ?_⟩
  obtain ⟨r, hr, hsettles⟩ := hrows.row i r' hr'
  rw [latest_eq_of_issued hissued] at htoken
  exact hsettles.status_ne_pending (hstatus r hr htoken)

/-- The token that is presented is the latest of the invite it is found with, and was not accepted before. -/
theorem InviteHistory.presented (h : InviteHistory config s) {invite : Invite}
    (hfound : s.invites.get? i = some invite) (hpending : invite.status = .pending)
    (hhash : invite.tokenHash ∈ config.inviteTokenHashes token)
    (hdistinct : ∀ j t, (j, t) ∈ s.issued → config.hashToken t ∈ config.inviteTokenHashes token → t = token) :
    s.latest i = some token ∧ token ∉ s.acceptances.map Prod.snd := by
  obtain ⟨t, hlatest, htoken⟩ := h.latest i invite hfound
  rw [htoken] at hhash
  obtain rfl := hdistinct i t (mem_of_latest hlatest) hhash
  refine ⟨hlatest, fun hmem => ?_⟩
  obtain ⟨⟨j, t'⟩, hused, rfl⟩ := mem_map.mp hmem
  obtain ⟨hissued, hstatus⟩ := h.used j _ hused
  have hsame : (j, t') = (i, t') := inj_on_of_nodup_map h.distinct hissued (mem_of_latest hlatest) rfl
  cases hsame
  exact hstatus invite hfound hlatest hpending

theorem distinctTokens_accept {o : Nat} {u : Nat} {now : Int}
    (h : Event.distinctTokens config s (.acceptInvite o token u now) = true) (j : Nat) (t : String)
    (hissued : (j, t) ∈ s.issued) (hhash : config.hashToken t ∈ config.inviteTokenHashes token) : t = token := by
  have hall := all_eq_true.mp h (j, t) hissued
  exact of_decide_eq_true hall hhash

theorem InviteHistory.step (h : InviteHistory config s) (he : e.distinctTokens config s = true) :
    InviteHistory config (s.step config e) := by
  have hlookups : ∀ lookup ∈ (s.step config e).lookups, lookup.invite.overdue lookup.now = true := by
    intro lookup hlookup
    rcases step_lookups hlookup with hold | hnew
    · exact h.lookups lookup hold
    · exact hnew
  cases step_invites s e with
  | kept hrows hissued haccepted =>
    refine ⟨h.latest_of_settles hrows hissued, hissued ▸ h.distinct, ?_, haccepted ▸ h.once, hlookups⟩
    intro i token hused
    exact h.used_of_settles hrows hissued (haccepted ▸ hused)
  | issued i token _ hevent hrow hhash _ hothers hissued haccepted =>
    obtain ⟨_, _, now, rfl⟩ := hevent
    have hfresh : token ∉ s.issued.map Prod.snd := by simpa [Event.distinctTokens] using he
    refine ⟨fun j r' hr' => ?_, ?_, fun j t hused => ?_, haccepted ▸ h.once, hlookups⟩
    · by_cases hj : j = i
      · subst hj
        obtain rfl := mem_unique hrow hr'
        exact ⟨token, latest_cons_self hissued, hhash⟩
      · obtain ⟨r, hr, hsettles⟩ := hothers j r' hj hr'
        obtain ⟨t, ht, hold⟩ := h.latest j r hr
        exact ⟨t, (latest_cons_of_ne hissued hj).trans ht, hsettles.tokenHash.trans hold⟩
    · rw [hissued, map_cons, nodup_cons]
      exact ⟨hfresh, h.distinct⟩
    · rw [haccepted] at hused
      obtain ⟨hmem, hstatus⟩ := h.used j t hused
      refine ⟨by rw [hissued]; exact mem_cons_of_mem _ hmem, fun r' hr' hlatest => ?_⟩
      by_cases hj : j = i
      · -- The row has a new token, which was not accepted before.
        subst hj
        rw [latest_cons_self hissued] at hlatest
        cases hlatest
        exact absurd (mem_map_of_mem (f := Prod.snd) hmem) hfresh
      · obtain ⟨r, hr, hsettles⟩ := hothers j r' hj hr'
        rw [latest_cons_of_ne hissued hj] at hlatest
        exact hsettles.status_ne_pending (hstatus r hr hlatest)
  | accepted i _ _ hevent hfound hpending hhash hrows hrow hissued haccepted =>
    obtain ⟨o, u, _, rfl⟩ := hevent
    obtain ⟨hlatest, hnew⟩ := h.presented hfound hpending hhash (distinctTokens_accept he)
    refine ⟨h.latest_of_settles hrows hissued, hissued ▸ h.distinct, fun j t hused => ?_, ?_, hlookups⟩
    · rw [haccepted] at hused
      rcases mem_cons.mp hused with heq | hold
      · cases heq
        exact ⟨hissued ▸ mem_of_latest hlatest, fun r' hr' _ => hrow r' hr'⟩
      · exact h.used_of_settles hrows hissued hold
    · rw [haccepted, map_cons, nodup_cons]
      exact ⟨hnew, h.once⟩
  | expired k _ _ _ hrows hissued haccepted =>
    have hget : ∀ i r', (s.step config e).invites.get? i = some r' →
        ∃ r, s.invites.get? i = some r ∧ r'.tokenHash = r.tokenHash ∧ (r.status ≠ .pending → r'.status ≠ .pending) := by
      intro i r' hr'
      rw [hrows, Table.get?_modify] at hr'
      split_ifs at hr'
      · obtain ⟨r, hr, rfl⟩ := map_eq_some_iff.mp hr'
        exact ⟨r, hr, rfl, fun _ h => nomatch h⟩
      · exact ⟨r', hr', rfl, id⟩
    refine ⟨fun i r' hr' => ?_, hissued ▸ h.distinct, fun i token hused => ?_, haccepted ▸ h.once, hlookups⟩
    · obtain ⟨r, hr, hhash, -⟩ := hget i r' hr'
      obtain ⟨token, htoken, hold⟩ := h.latest i r hr
      exact ⟨token, (latest_eq_of_issued hissued i).trans htoken, hhash.trans hold⟩
    · obtain ⟨hmem, hstatus⟩ := h.used i token (haccepted ▸ hused)
      refine ⟨hissued ▸ hmem, fun r' hr' hlatest => ?_⟩
      obtain ⟨r, hr, -, hpending⟩ := hget i r' hr'
      rw [latest_eq_of_issued hissued] at hlatest
      exact hpending (hstatus r hr hlatest)

theorem InviteHistory.accepts_latest (h : InviteHistory config s) (he : e.distinctTokens config s = true)
    (haccepts : (s.step config e).acceptances = (i, token) :: s.acceptances) : s.latest i = some token := by
  have hgrows : ∀ l : List (Nat × String), l ≠ (i, token) :: l := fun l hl => by simpa using congrArg List.length hl
  cases step_invites s e with
  | kept _ _ haccepted => exact absurd (haccepted.symm.trans haccepts) (hgrows _)
  | issued j t _ _ _ _ _ _ _ haccepted =>
    exact absurd (haccepted.symm.trans haccepts) (hgrows _)
  | accepted j t _ hevent hfound hpending hhash _ _ _ haccepted =>
    obtain ⟨o, u, _, rfl⟩ := hevent
    obtain ⟨rfl, rfl⟩ := Prod.mk.inj (cons.inj (haccepted.symm.trans haccepts)).1
    exact (h.presented hfound hpending hhash (distinctTokens_accept he)).1
  | expired k _ _ _ _ _ haccepted => exact absurd (haccepted.symm.trans haccepts) (hgrows _)

/-- An invite becomes expired only from pending, and when its time is over. -/
theorem InviteHistory.expires_overdue (h : InviteHistory config s) (he : e.writesWhatItRead s = true)
    (hr : s.invites.get? i = some r) (hr' : (s.step config e).invites.get? i = some r')
    (hbefore : r.status ≠ .expired) (hafter : r'.status = .expired) :
    r.status = .pending ∧ ∃ lookup ∈ s.lookups, lookup.inviteId = i ∧ r.overdue lookup.now = true := by
  have hsettles : ∀ r0, s.invites.get? i = some r0 → ¬Settles r0 r' := by
    intro r0 hr0 hsettles
    obtain rfl := mem_unique hr hr0
    rcases hsettles.status with hsame | ⟨-, hother | hother⟩
    · exact hbefore (hsame.symm.trans hafter)
    · exact nomatch hother.symm.trans hafter
    · exact nomatch hother.symm.trans hafter
  cases step_invites s e with
  | kept hrows =>
    obtain ⟨r0, hr0, hrow⟩ := hrows.row i r' hr'
    exact absurd hrow (hsettles r0 hr0)
  | issued j t _ _ hrow _ hpending hothers =>
    by_cases hj : i = j
    · subst hj
      obtain rfl := mem_unique hrow hr'
      exact nomatch hpending.symm.trans hafter
    · obtain ⟨r0, hr0, hrow⟩ := hothers i r' hj hr'
      exact absurd hrow (hsettles r0 hr0)
  | accepted j t _ _ _ _ _ hrows hrow =>
    obtain ⟨r0, hr0, hrow⟩ := hrows.row i r' hr'
    exact absurd hrow (hsettles r0 hr0)
  | expired k lookup hevent hlookup hrows =>
    subst hevent
    rw [hrows, Table.get?_modify] at hr'
    split_ifs at hr' with hi
    · subst hi
      have hmem : lookup ∈ s.lookups := mem_of_getElem? hlookup
      rw [Event.writesWhatItRead, hlookup, all_some, hr, all_some, decide_eq_true_iff] at he
      obtain ⟨hexpiredAt, hstatus⟩ := he
      refine ⟨hstatus.resolve_right hbefore, lookup, hmem, rfl, ?_⟩
      have hoverdue := h.lookups lookup hmem
      rw [Invite.overdue, ← hexpiredAt] at hoverdue
      exact hoverdue
    · obtain rfl := mem_unique hr hr'
      exact absurd hafter hbefore

/-! ## Runs -/

/-- No token is accepted twice; one that is accepted is the latest of its invite; and an invite becomes expired only
from pending, by a lookup at whose time its present `ExpiredAt` is over. -/
structure InviteLifecycle (config : Config) (s : System) (l : List Event) : Prop where
  once : ∀ done rest, l = done ++ rest → ((run (System.step config) s done).acceptances.map Prod.snd).Nodup
  latest : ∀ done e rest, l = done ++ e :: rest → ∀ i token,
    (run (System.step config) s (done ++ [e])).acceptances =
      (i, token) :: (run (System.step config) s done).acceptances →
    (run (System.step config) s done).latest i = some token
  expired : ∀ done e rest, l = done ++ e :: rest → ∀ i r r',
    (run (System.step config) s done).invites.get? i = some r →
    (run (System.step config) s (done ++ [e])).invites.get? i = some r' → r.status ≠ .expired → r'.status = .expired →
    r.status = .pending ∧
      ∃ lookup ∈ (run (System.step config) s done).lookups, lookup.inviteId = i ∧ r.overdue lookup.now = true

theorem inviteHistory_empty {users : Table User} : InviteHistory config { users := users } where
  latest _ _ h := by cases h
  distinct := nodup_nil
  used _ _ h := by cases h
  once := nodup_nil
  lookups _ h := by cases h

/-- Along every run of the system with distinct tokens in which what `GetInviteByToken` marks as expired is the
invitation as it was read. -/
theorem inviteLifecycle_of_writesWhatItRead (config : Config) (users : Table User) (l : List Event)
    (htokens : Along (System.step config) (fun s e => e.distinctTokens config s = true) { users := users } l)
    (hwrites : Along (System.step config) (fun s e => e.writesWhatItRead s = true) { users := users } l) :
    InviteLifecycle config { users := users } l := by
  have hhistory : ∀ done, Along (System.step config) (fun s e => e.distinctTokens config s = true)
    { users := users } done →
      InviteHistory config (run (System.step config) { users := users } done) := fun done hdone =>
    run_invariant (I := InviteHistory config) (fun s e hs he => hs.step he) inviteHistory_empty hdone
  refine ⟨?_, ?_, ?_⟩
  · rintro done rest rfl
    exact (hhistory done (along_append.mp htokens).1).once
  · rintro done e rest rfl i token haccepts
    obtain ⟨hdone, he, -⟩ := along_append.mp htokens
    rw [run_append] at haccepts
    exact (hhistory done hdone).accepts_latest he haccepts
  · rintro done e rest rfl i r r' hr hr' hbefore hafter
    obtain ⟨hdone, -, -⟩ := along_append.mp htokens
    obtain ⟨-, he, -⟩ := along_append.mp hwrites
    rw [run_append] at hr'
    exact (hhistory done hdone).expires_overdue he hr hr' hbefore hafter

def lookedUp : List Event :=
  [.createOrganization 1 "acme" "acme",
    .createEmailInvite ⟨1, 1, .management⟩ { email := "b@example.com" } sampleToken 1000,
    .lookUpInvite sampleToken 700000]

theorem inviteLifecycle_of_writesWhatItRead_sample :
    InviteLifecycle sampleConfig { users := sampleUsers } (lookedUp ++ [.writeExpired 0]) :=
  inviteLifecycle_of_writesWhatItRead sampleConfig sampleUsers (lookedUp ++ [.writeExpired 0]) (by decide +kernel)
    (by decide +kernel)

/-- The invitation is issued again between the read and the write, and the new one is marked as expired. -/
theorem reissued_invite_expired :
    ¬∀ (config : Config) (users : Table User) (l : List Event),
      Along (System.step config) (fun s e => e.distinctTokens config s = true) { users := users } l →
        InviteLifecycle config { users := users } l := by
  intro h
  have hlifecycle := h sampleConfig sampleUsers (lookedUp ++
    [.createEmailInvite ⟨1, 1, .management⟩ { email := "b@example.com" } sampleToken' 700001, .writeExpired 0])
    (by decide +kernel)
  obtain ⟨-, lookup, hlookup, -, hoverdue⟩ := hlifecycle.expired (lookedUp ++
    [.createEmailInvite ⟨1, 1, .management⟩ { email := "b@example.com" } sampleToken' 700001]) (.writeExpired 0) []
    (by rw [append_assoc]; rfl) 1
    { organizationId := 1, targetEmail := "b@example.com", tokenHash := sampleConfig.hashToken sampleToken'
      inviterUserId := 1, updatedAt := 700001, expiredAt := 1304801 }
    { organizationId := 1, targetEmail := "b@example.com", tokenHash := sampleConfig.hashToken sampleToken'
      status := .expired, inviterUserId := 1, updatedAt := 700000, expiredAt := 1304801 }
    (by decide +kernel) (by decide +kernel) (by decide) rfl
  have hnone : ∀ lookup ∈ (run (System.step sampleConfig) { users := sampleUsers } (lookedUp ++
      [.createEmailInvite ⟨1, 1, .management⟩ { email := "b@example.com" } sampleToken' 700001])).lookups,
      lookup.now < 1304801 := by
    decide +kernel
  have hlate : (1304801 : Int) ≤ lookup.now := (of_decide_eq_true hoverdue).2
  exact absurd (hnone lookup hlookup) (not_lt.mpr hlate)

end CubeRouter.Organization
