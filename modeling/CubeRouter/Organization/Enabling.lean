import CubeRouter.Organization.KeyBlockers

/-!
# Enabling a key by hand

`UpdateOrganizationToken` with the status `enabled`, on keys that `ValidateUserToken` of `model/token.go` has found
expired or exhausted. That function reads a key and writes its status later, so that anything can happen to the key in
between.

An enabling first clears what hands have blocked and writes the status, and then reconciles. Reconciling puts back the
status that the key remembers from before it was blocked: of a key that had run out before it was disabled the written
status does not last.
-/

namespace CubeRouter.Organization

open Relational Transition Option

/-! ## What an enabling leaves -/

variable {env : Sources} {now : Int} {t t' : Token}

theorem reconcile_of_free (h : t.activeBlockers = []) :
    reconcileOrganizationTokenSystemBlocker env now t = (t.clearStale env).restore now := by
  have hstale : (t.clearStale env).activeBlockers = [] := by
    rw [activeBlockers_clearStale, h]
    rfl
  unfold reconcileOrganizationTokenSystemBlocker
  dsimp only
  rw [hstale]

theorem status_reconcile_of_free (h : t.activeBlockers = []) :
    (reconcileOrganizationTokenSystemBlocker env now t).status = t.previousStatus.getD t.status := by
  rw [reconcile_of_free h]
  unfold Token.restore
  dsimp only
  split_ifs with hclean
  · exact hclean.1
  · rfl

theorem clean_reconcile_of_free (h : t.activeBlockers = []) :
    (reconcileOrganizationTokenSystemBlocker env now t).Clean := by
  rw [reconcile_of_free h]
  exact Token.clean_restore _ now

theorem EnabledByHand.status_eq (h : EnabledByHand t t') : t'.status = t.previousStatus.getD .enabled := by
  obtain ⟨_, _, _, u, _, hcleared, hfree, rfl⟩ := h
  refine Eq.trans (status_reconcile_of_free ?_) ?_
  · exact hfree
  · rcases hcleared with rfl | ⟨p, rfl⟩
    · rfl
    · rfl

theorem EnabledByHand.clean (h : EnabledByHand t t') : t'.Clean := by
  obtain ⟨_, _, _, u, _, -, hfree, rfl⟩ := h
  exact clean_reconcile_of_free hfree

structure Token.Enabled (t : Token) : Prop where
  free : t.activeBlockers = []
  status : t.status = .enabled
  previousStatus : t.previousStatus = none
  disabledBySystems : t.disabledBySystems = false
  systemDisabledReason : t.systemDisabledReason = none
  systemDisabledRefId : t.systemDisabledRefId = 0
  systemDisabledAt : t.systemDisabledAt = 0

theorem EnabledByHand.enabled_iff (h : EnabledByHand t t') :
    t'.Enabled ↔ t.previousStatus.getD .enabled = .enabled := by
  rw [← h.status_eq]
  constructor
  · intro henabled
    exact henabled.status
  · intro hstatus
    obtain ⟨-, hsystems, hreason, hrefId, hat, hprevious⟩ := h.clean
    exact ⟨h.free, hstatus, hprevious, by simpa using hsystems, hreason, hrefId, hat⟩

/-! ## Keys that are found invalid -/

/-- The system with the keys that `ValidateUserToken` has found expired or exhausted and is to write so. -/
structure KeySystem extends System where
  validations : List (Nat × TokenStatus) := []

inductive KeyEvent
  | organization (e : Event)
  /-- The read of `ValidateUserToken`, on a key past its time or, with `exhausted`, without quota. -/
  | findInvalid (tokenId : Nat) (exhausted : Bool)
  /-- The write of the validation at `n`. -/
  | writeStatus (n : Nat)

def writeTokenStatus (status : TokenStatus) (t : Token) : Token := if t.deleted then t else { t with status }

def KeySystem.step (config : Config) (s : KeySystem) : KeyEvent → KeySystem
  | .organization e => { s with toSystem := s.toSystem.step config e }
  | .findInvalid tokenId exhausted =>
    if (s.tokens.get? tokenId).any fun t => !t.deleted && t.status = .enabled then
      { s with validations := s.validations ++ [(tokenId, if exhausted then .exhausted else .expired)] }
    else s
  | .writeStatus n =>
    match s.validations[n]? with
    | none => s
    | some (tokenId, status) =>
      { s with tokens := s.tokens.modify tokenId (writeTokenStatus status), validations := s.validations.eraseIdx n }

/-! ## Enabling along a run -/

/-- If the event asks for a key to be enabled, then the key is enabled, or the request fails and no key has changed. -/
def EnablesKey (config : Config) (s : KeySystem) : KeyEvent → Prop
  | .organization (.updateOrganizationToken caller tokenId req now) =>
    req.status = .value .enabled →
      match updateOrganizationToken s.toState caller tokenId req now with
      | .ok s' => ∃ t, s'.tokens.get? tokenId = some t ∧ t.Enabled
      | .error _ =>
        (s.step config (.organization (.updateOrganizationToken caller tokenId req now))).tokens = s.tokens
  | _ => True

/-- A key that the event enables remembers no other status from before it was blocked. -/
def RemembersEnabled (s : KeySystem) : KeyEvent → Prop
  | .organization e => ∀ i t, e.enables s.toSystem i = true → s.tokens.get? i = some t →
      t.previousStatus.getD .enabled = .enabled
  | _ => True

theorem enablesKey_iff (config : Config) (s : KeySystem) (e : KeyEvent) :
    EnablesKey config s e ↔ RemembersEnabled s e := by
  have hidle {e : Event} (h : e.isUpdate = false) : RemembersEnabled s (.organization e) := by
    intro i t henables
    rw [enables_of_not_update h] at henables
    cases henables
  cases e with
  | findInvalid | writeStatus => exact Iff.rfl
  | organization e =>
    cases e with
    | updateOrganizationToken caller tokenId req now =>
      simp only [EnablesKey, RemembersEnabled, enables_update_iff]
      by_cases hreq : req.status = .value .enabled
      · rcases hresult : updateOrganizationToken s.toState caller tokenId req now with _ | s'
        · refine iff_of_true (fun _ => ?_) ?_
          · simp only [KeySystem.step, System.step, hresult]
            rfl
          · rintro i t ⟨-, -, s', hs'⟩
            cases hs'
        · obtain ⟨t0, t', ht0, htokens, hchange⟩ := updateOrganizationToken_row hresult
          rw [if_pos hreq] at hchange
          have hget : s'.tokens.get? tokenId = some t' := by
            rw [htokens, Table.get?_modify_self, ht0]
            rfl
          simp only [hreq, forall_const, true_and, hget, some.injEq, exists_eq_left', hchange.enabled_iff]
          constructor
          · rintro h i t ⟨rfl, -⟩ ht
            obtain rfl := mem_unique ht0 ht
            exact h
          · intro h
            exact h tokenId t0 ⟨rfl, _, rfl⟩ ht0
      · exact iff_of_true (fun h => absurd h hreq) fun i t h => absurd h.2.1 hreq
    | _ => exact iff_of_true trivial (hidle rfl)

/-- In a run of operations and validations in any order, each enabling either fails without a change or leaves the key
enabled without a trace of its blockers, if and only if no key that is enabled remembers a status other than
`enabled`. -/
theorem enabling_enables_iff (config : Config) (s : KeySystem) (l : List KeyEvent) :
    Along (KeySystem.step config) (EnablesKey config) s l ↔ Along (KeySystem.step config) RemembersEnabled s l :=
  along_congr (enablesKey_iff config)

/-- An enabled key is found without quota and written so, disabled by the owner and enabled again. -/
def disabledExhausted : List KeyEvent :=
  [.findInvalid 1 true, .writeStatus 0,
    .organization (.updateOrganizationToken ⟨1, 1, .management⟩ 1 { status := .value .disabled } 1000),
    .organization (.updateOrganizationToken ⟨1, 1, .management⟩ 1 { status := .value .enabled } 2000)]

def enabledSample : KeySystem :=
  { toSystem := { keySample with tokens := Table.empty.insert { exhaustedKey with status := .enabled } } }

def disabledKey : KeySystem := run (KeySystem.step sampleConfig) enabledSample (disabledExhausted.take 3)

/-- The owner enables the key, the request succeeds, and the key is exhausted. -/
theorem enabling_restores_exhausted :
    ¬ Along (KeySystem.step sampleConfig) (EnablesKey sampleConfig) enabledSample disabledExhausted := by
  intro h
  have hlast : EnablesKey sampleConfig disabledKey
      (.organization (.updateOrganizationToken ⟨1, 1, .management⟩ 1 { status := .value .enabled } 2000)) := h.2.2.2.1
  have hexhausted : ((updateOrganizationToken disabledKey.toState ⟨1, 1, .management⟩ 1
    { status := .value .enabled } 2000).toOption.bind
      fun s' => s'.tokens.get? 1).map Token.status = some .exhausted := by decide +kernel
  obtain ⟨t, hget, hstatus⟩ := map_eq_some_iff.mp hexhausted
  obtain ⟨_, hs', ht⟩ := bind_eq_some_iff.mp hget
  have henabled := hlast rfl
  rw [toOption_eq_some.mp hs'] at henabled
  obtain ⟨_, ht', henabled⟩ := henabled
  obtain rfl := mem_unique ht ht'
  rw [henabled.status] at hstatus
  cases hstatus

end CubeRouter.Organization
