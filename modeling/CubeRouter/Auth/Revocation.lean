import CubeRouter.Auth.Session

/-!
# A revoked session stays revoked behind the cache

A snapshot of the active session was dated before its row was read, so it ends no later than one cache time after the
revocation. A tombstone is kept as long from when it is published. So behind the last tombstone of a revocation a
delayed snapshot is refused while the tombstone is there and has expired once it is gone: the session is `Sealed`.
-/

namespace CubeRouter.Auth

open Concurrency Expiring Transition

inductive Request
  | load
  | create (session : UserSession)
  | rotate (presentedHash nextHash : String) (now graceSeconds : Int)
  | revoke (reason : String)
  | revokeByHash (presentedHash reason : String)
  | revokeAll (reason : String) (rounds : Nat)
  | advance (expectedSessionVersion expectedUserAuthVersion nextUserAuthVersion : Int)

inductive Outcome
  | loaded (r : Except SessionError UserSession)
  | created (r : Except SessionError Unit)
  | rotated (r : Rotation)
  | revoked (r : Except SessionError Bool)
  | revokedAll (r : Except SessionError (Option Nat))
  | advanced (r : Except SessionError UserSession)

def Outcome.Revoked : Outcome → Prop
  | .rotated (.failed .refreshReuse) => True
  | .revoked (.ok done) => done = true
  | .revokedAll (.ok (some affected)) => 0 < affected
  | _ => False

theorem Outcome.Revoked.rotated {r : Rotation} (h : (Outcome.rotated r).Revoked) : r = .failed .refreshReuse := by
  cases r with
  | failed e => cases e <;> first | rfl | exact h.elim
  | rotated | race => exact h.elim

theorem Outcome.Revoked.revoked {r : Except SessionError Bool} (h : (Outcome.revoked r).Revoked) : r = .ok true := by
  cases r with
  | error => exact h.elim
  | ok => exact congrArg Except.ok h

theorem Outcome.Revoked.revokedAll {r : Except SessionError (Option Nat)} (h : (Outcome.revokedAll r).Revoked) :
    ∃ n, r = .ok (some n) ∧ 0 < n := by
  cases r with
  | error => exact h.elim
  | ok affected =>
    cases affected with
    | none => exact h.elim
    | some n => exact ⟨n, rfl, h⟩

section System

variable (cacheSeconds : Int)

def Request.call : Request → Call Outcome
  | .load => do return .loaded (← getUserSessionCached cacheSeconds)
  | .create session => do return .created (← createUserSession cacheSeconds session)
  | .rotate presentedHash nextHash now graceSeconds => do
    return .rotated (← rotateUserSessionRefresh cacheSeconds presentedHash nextHash now graceSeconds)
  | .revoke reason => do return .revoked (← revokeUserSession cacheSeconds reason)
  | .revokeByHash presentedHash reason => do
    return .revoked (← revokeUserSessionByRefreshHash cacheSeconds presentedHash reason)
  | .revokeAll reason rounds => do return .revokedAll (← revokeUserSessions cacheSeconds reason rounds)
  | .advance expectedSessionVersion expectedUserAuthVersion nextUserAuthVersion => do
    return .advanced
      (← advanceUserSessionAuthVersion cacheSeconds expectedSessionVersion expectedUserAuthVersion nextUserAuthVersion)

def Store.tick (n : Nat) (s : Store) : Store := { s with clock := s.clock + n }

/-- Calls on one session id; the environment lets time pass. -/
def sessions : System Store Instr Instr.Answer Outcome Request Choice Nat where
  exec := exec
  begin := Request.call cacheSeconds
  env := Store.tick

/-- The tombstone of a revoked session reaches Redis and is answered. Nothing is asked of the fences before the
commit. -/
def DenyWritten : Instr → Choice → Prop
  | .eval entry _, w => entry.status = .revoked → w.redis = .done
  | _, _ => True

/-- Redis holds no later version of the session than the tombstone that is written: the script refuses an older one. -/
def NotOvertaken : Instr → Store → Prop
  | .eval entry _, s => entry.status = .revoked → ∀ e ∈ live s.clock s.cache, e.version ≤ entry.version
  | _, _ => True

instance (i : Instr) (w : Choice) (s : Store) : Decidable (DenyWritten i w ∧ NotOvertaken i s) :=
  match i with
  | .eval entry _ => inferInstanceAs (Decidable ((entry.status = .revoked → w.redis = .done) ∧
      (entry.status = .revoked → ∀ e ∈ live s.clock s.cache, e.version ≤ entry.version)))
  | .now | .readRow | .update _ | .insert _ | .readCache | .userCache | .userById | .issueAccessToken =>
    .isTrue ⟨trivial, trivial⟩

theorem deny_applied {entry : CacheEntry} {expiration : Expiration} {w : Choice} {s : Store}
    (h : DenyWritten (.eval entry expiration) w ∧ NotOvertaken (.eval entry expiration) s)
    (hstatus : entry.status = .revoked) :
    w.redis = .done ∧ s.script entry expiration = (.applied, s.cached entry (expiration.time s.clock)) := by
  refine ⟨h.1 hstatus, ?_⟩
  have hversion : ¬(live s.clock s.cache).any fun e => entry.version < e.version := by
    simp only [Option.any_eq_true, decide_eq_true_eq, not_exists, not_and, Int.not_lt]
    exact h.2 hstatus
  unfold Store.script
  dsimp only
  rw [if_neg (by simp [hstatus]), if_neg hversion]

/-! ## What is kept -/

/-- The cache time, in milliseconds. -/
def window : Int := userCacheTTLSeconds cacheSeconds * 1000

/-- The last time at which the session can have been seen active. -/
def Store.seen (s : Store) : Int := s.revokedClock.getD s.clock

/-- No snapshot that saw the session active is there after this time. -/
def Store.horizon (s : Store) (row : UserSession) : Int := min (row.expiresAt * 1000) (s.seen + window cacheSeconds)

structure Coherent (s : Store) : Prop where
  active : s.revokedClock = none → ∀ row, s.row = some row → row.status = .active
  revoked : ∀ c, s.revokedClock = some c → c ≤ s.clock ∧ ∃ row, s.row = some row ∧ row.status ≠ .active
  snapshot : ∀ k, s.cache = some k → k.value.status = .active →
    ∃ row, s.row = some row ∧ k.expires ≤ s.horizon cacheSeconds row

def Store.Revoked (s : Store) : Prop := ∃ row, s.row = some row ∧ row.status ≠ .active

structure Sealed (s : Store) : Prop where
  revoked : s.Revoked
  hidden : ∀ e, live s.clock s.cache = some e → e.status ≠ .active
  covered : ∀ row, s.row = some row → s.horizon cacheSeconds row ≤ s.clock ∨
    ∃ k, s.cache = some k ∧ k.value.status ≠ .active ∧ s.horizon cacheSeconds row ≤ k.expires

structure Leads (s s' : Store) : Prop where
  clock : s.clock ≤ s'.clock
  row : ∀ row, s.row = some row →
    ∃ row', s'.row = some row' ∧ row'.expiresAt = row.expiresAt ∧ (row'.status = .active → row.status = .active)
  seen : s.seen ≤ s'.seen
  sealed : Sealed cacheSeconds s → Sealed cacheSeconds s'

variable {cacheSeconds} {s s' s'' : Store}

theorem Leads.refl (s : Store) : Leads cacheSeconds s s :=
  ⟨le_rfl, fun row hrow => ⟨row, hrow, rfl, id⟩, le_rfl, id⟩

theorem Leads.trans (h : Leads cacheSeconds s s') (h' : Leads cacheSeconds s' s'') : Leads cacheSeconds s s'' where
  clock := Int.le_trans h.clock h'.clock
  row row hrow := by
    obtain ⟨row', hrow', hexpires, hactive⟩ := h.row row hrow
    obtain ⟨row'', hrow'', hexpires', hactive'⟩ := h'.row row' hrow'
    exact ⟨row'', hrow'', hexpires'.trans hexpires, fun h => hactive (hactive' h)⟩
  seen := Int.le_trans h.seen h'.seen
  sealed hs := h'.sealed (h.sealed hs)

theorem Leads.revoked (h : Leads cacheSeconds s s') (hs : s.Revoked) : s'.Revoked := by
  obtain ⟨row, hrow, hstatus⟩ := hs
  obtain ⟨row', hrow', -, hactive⟩ := h.row row hrow
  exact ⟨row', hrow', fun hs => hstatus (hactive hs)⟩

theorem Coherent.seen_le (h : Coherent cacheSeconds s) : s.seen ≤ s.clock := by
  unfold Store.seen
  cases hc : s.revokedClock with
  | none => exact le_rfl
  | some c => exact (h.revoked c hc).1

variable {row session : UserSession} {entry : CacheEntry} {expires deadline : Int}

theorem Coherent.seen_active (h : Coherent cacheSeconds s) (hrow : s.row = some row) (hactive : row.status = .active) :
    s.revokedClock = none := by
  cases hc : s.revokedClock with
  | none => rfl
  | some c =>
    obtain ⟨-, _, hrow', hstatus⟩ := h.revoked c hc
    cases hrow.symm.trans hrow'
    exact absurd hactive hstatus

theorem Coherent.revokedClock_isSome (h : Coherent cacheSeconds s) (hs : s.Revoked) : ∃ c, s.revokedClock = some c := by
  obtain ⟨row, hrow, hstatus⟩ := hs
  cases hc : s.revokedClock with
  | none => exact absurd (h.active hc row hrow) hstatus
  | some c => exact ⟨c, rfl⟩

/-! ## Statements -/

theorem tick_leads (n : Nat) (h : Coherent cacheSeconds s) :
    Leads cacheSeconds s (s.tick n) ∧ Coherent cacheSeconds (s.tick n) := by
  have hclock : s.clock ≤ (s.tick n).clock := by
    simp only [Store.tick]
    omega
  have hseen : s.seen ≤ (s.tick n).seen := by
    simp only [Store.seen, Store.tick]
    cases s.revokedClock with
    | none => exact hclock
    | some => exact le_rfl
  refine ⟨⟨hclock, fun row hrow => ⟨row, hrow, rfl, id⟩, hseen, fun hs => ?_⟩, ?_⟩
  · obtain ⟨c, hc⟩ := h.revokedClock_isSome hs.revoked
    refine ⟨hs.revoked, fun e he => hs.hidden e (live_later he hclock), fun row hrow => ?_⟩
    have hsame : (s.tick n).horizon cacheSeconds row = s.horizon cacheSeconds row := by
      simp [Store.horizon, Store.seen, Store.tick, hc]
    rw [hsame]
    rcases hs.covered row hrow with hpast | hkept
    · exact .inl (Int.le_trans hpast hclock)
    · exact .inr hkept
  · refine ⟨h.active, fun c hc => ⟨Int.le_trans (h.revoked c hc).1 hclock, (h.revoked c hc).2⟩, fun k hk hactive => ?_⟩
    obtain ⟨row, hrow, hexpires⟩ := h.snapshot k hk hactive
    refine ⟨row, hrow, ?_⟩
    unfold Store.horizon at hexpires ⊢
    omega

/-- An `UPDATE` of the active row that keeps when it expires. -/
def Revises (f : UserSession → Option UserSession) : Prop :=
  ∀ row row', f row = some row' → row.status = .active ∧ row'.expiresAt = row.expiresAt

theorem update_leads {f : UserSession → Option UserSession} (hf : Revises f) (h : Coherent cacheSeconds s) :
    Leads cacheSeconds s (s.update f).2 ∧ Coherent cacheSeconds (s.update f).2 := by
  cases hr : (s.update f).1 with
  | none => rw [update_none hr]; exact ⟨Leads.refl s, h⟩
  | some row =>
    obtain ⟨row', hrow, hrow', heq⟩ := update_some hr
    obtain ⟨hactive, hexpires⟩ := hf row row' hrow'
    have hclock := h.seen_active hrow hactive
    rw [heq]
    have hseen : (s.save row').seen = s.clock := by
      simp only [Store.save, hclock]
      split_ifs <;> rfl
    have hsame : s.seen = s.clock := by rw [Store.seen, hclock]; rfl
    refine ⟨⟨le_rfl, fun r hr => ?_, Int.le_of_eq (hsame.trans hseen.symm), fun hs => ?_⟩, ⟨?_, ?_, ?_⟩⟩
    · cases hrow.symm.trans hr
      exact ⟨row', rfl, hexpires, fun _ => hactive⟩
    · obtain ⟨r, hr, hstatus⟩ := hs.revoked
      cases hrow.symm.trans hr
      exact absurd hactive hstatus
    · intro hnone r hr
      cases hr
      by_contra hstatus
      simp [Store.save, hstatus] at hnone
    · intro c hc
      by_cases hstatus : row'.status = .active
      · simp [Store.save, hclock, hstatus] at hc
      · simp only [Store.save, hclock, hstatus, if_false, Option.none_or, Option.some.injEq] at hc
        exact ⟨hc ▸ le_rfl, row', rfl, hstatus⟩
    · intro k hk hkactive
      obtain ⟨r, hr, hle⟩ := h.snapshot k hk hkactive
      cases hrow.symm.trans hr
      refine ⟨row', rfl, ?_⟩
      rw [Store.horizon, hseen, hexpires]
      rwa [Store.horizon, hsame] at hle

theorem insert_leads (hactive : row.status = .active) (h : Coherent cacheSeconds s) (hnone : s.row = none) :
    Leads cacheSeconds s { s with row := some row, past := row :: s.past } ∧
      Coherent cacheSeconds { s with row := some row, past := row :: s.past } := by
  have hclock : s.revokedClock = none := by
    cases hc : s.revokedClock with
    | none => rfl
    | some c =>
      obtain ⟨-, r, hr, -⟩ := h.revoked c hc
      cases hnone.symm.trans hr
  refine ⟨⟨le_rfl, fun r hr => ?_, le_rfl, fun hs => ?_⟩, ⟨?_, ?_, ?_⟩⟩
  · cases hnone.symm.trans hr
  · obtain ⟨r, hr, -⟩ := hs.revoked
    cases hnone.symm.trans hr
  · intro _ r hr
    cases hr
    exact hactive
  · intro c hc
    cases hclock.symm.trans hc
  · intro k hk hkactive
    obtain ⟨r, hr, -⟩ := h.snapshot k hk hkactive
    cases hnone.symm.trans hr

theorem cached_active_leads (h : Coherent cacheSeconds s)
    (hcurrent : ∀ e, live s.clock s.cache = some e → e.status = .active) (hrow : s.row = some row)
    (hexpires : expires ≤ s.horizon cacheSeconds row) :
    Leads cacheSeconds s (s.cached entry expires) ∧ Coherent cacheSeconds (s.cached entry expires) := by
  refine ⟨⟨le_rfl, fun r hr => ⟨r, hr, rfl, id⟩, le_rfl, fun hs => ?_⟩, h.active, h.revoked, ?_⟩
  · -- The tombstone is no longer there, so the snapshot comes too late to be kept.
    have hpast : s.horizon cacheSeconds row ≤ s.clock := by
      rcases hs.covered row hrow with hpast | ⟨k, hk, hstatus, _⟩
      · exact hpast
      · have hgone : ¬s.clock ≤ k.expires := by
          intro hle
          exact hstatus (hcurrent k.value (live_eq_some_iff.mpr ⟨k, hk, hle, rfl⟩))
        omega
    have hnone : put s.clock entry expires = none := by
      unfold put
      rw [if_pos (Int.le_trans hexpires hpast)]
    refine ⟨hs.revoked, fun e he => ?_, fun r hr => .inl ?_⟩
    · simp [Store.cached, hnone] at he
    · cases hrow.symm.trans hr
      exact hpast
  · intro k hk _
    obtain ⟨-, rfl⟩ := put_eq_some_iff.mp hk
    exact ⟨row, hrow, hexpires⟩

theorem cached_deny_sealed (hdeny : entry.status ≠ .active) (hlater : s.clock < expires)
    (hrow : ∀ row, s.row = some row → s.horizon cacheSeconds row ≤ expires) (hs : s.Revoked) :
    Sealed cacheSeconds (s.cached entry expires) := by
  have hput : put s.clock entry expires = some ⟨entry, expires⟩ := put_eq_some_iff.mpr ⟨hlater, rfl⟩
  refine ⟨hs, fun e he => ?_, fun row hr => .inr ⟨⟨entry, expires⟩, hput, hdeny, hrow row hr⟩⟩
  obtain ⟨k, hk, -, rfl⟩ := live_eq_some_iff.mp he
  obtain ⟨-, rfl⟩ := put_eq_some_iff.mp hk
  exact hdeny

theorem cached_deny_leads (h : Coherent cacheSeconds s) (hdeny : entry.status ≠ .active) (hlater : s.clock < expires)
    (hrow : ∀ row, s.row = some row → s.horizon cacheSeconds row ≤ expires) :
    Leads cacheSeconds s (s.cached entry expires) ∧ Coherent cacheSeconds (s.cached entry expires) := by
  refine ⟨⟨le_rfl, fun r hr => ⟨r, hr, rfl, id⟩, le_rfl, fun hs => ?_⟩, h.active, h.revoked, ?_⟩
  · exact cached_deny_sealed hdeny hlater hrow hs.revoked
  · intro k hk hactive
    obtain ⟨-, rfl⟩ := put_eq_some_iff.mp hk
    exact absurd hactive hdeny

variable (cacheSeconds) in
def rules : Rules (sessions cacheSeconds) where
  inv := Coherent cacheSeconds
  rel := Leads cacheSeconds
  fair i w s := DenyWritten i w ∧ NotOvertaken i s
  lets _ _ := True
  refl := Leads.refl
  trans _ _ _ h h' := h.trans h'
  env n _ h _ := tick_leads n h

instance (i : Instr) (w : Choice) (s : Store) : Decidable ((rules cacheSeconds).fair i w s) :=
  inferInstanceAs (Decidable (DenyWritten i w ∧ NotOvertaken i s))

instance (n : Nat) (s : Store) : Decidable ((rules cacheSeconds).lets n s) := .isTrue trivial

/-! ## Instructions -/

/-- The snapshot and its deadline are of a time at which the session was active. -/
def Dated (cacheSeconds : Int) (expiresAt deadline : Int) (s : Store) : Prop :=
  ∃ row, s.row = some row ∧ row.expiresAt = expiresAt ∧ deadline ≤ s.seen + window cacheSeconds

variable {expiresAt clock graceSeconds : Int} {quiet : Prop} {presentedHash nextHash : String} {rounds : Nat}

theorem Dated.later (h : Dated cacheSeconds expiresAt deadline s) (hs : Leads cacheSeconds s s') :
    Dated cacheSeconds expiresAt deadline s' := by
  obtain ⟨row, hrow, hexpires, _⟩ := h
  obtain ⟨row', hrow', hexpires', -⟩ := hs.row row hrow
  refine ⟨row', hrow', hexpires'.trans hexpires, ?_⟩
  have hseen := hs.seen
  omega

/-- The row, if there is one, expires then. -/
def Expires (expiresAt : Int) (s : Store) : Prop := ∃ row, s.row = some row ∧ row.expiresAt = expiresAt

theorem Expires.later (h : Expires expiresAt s) (hs : Leads cacheSeconds s s') : Expires expiresAt s' := by
  obtain ⟨row, hrow, hexpires⟩ := h
  obtain ⟨row', hrow', hexpires', -⟩ := hs.row row hrow
  exact ⟨row', hrow', hexpires'.trans hexpires⟩

section Instructions

variable {γ : Type} {post : γ → Store → Prop}

theorem safe_ret {a : γ} (h : ∀ s', Leads cacheSeconds s s' → Coherent cacheSeconds s' → post a s') :
    (rules cacheSeconds).Safe post (.ret a) s := h

theorem safe_now {f : Int → Call γ}
    (h : ∀ s', Leads cacheSeconds s s' → Coherent cacheSeconds s' → (rules cacheSeconds).Safe post (f s'.clock) s') :
    (rules cacheSeconds).Safe post (.call .now f) s := acts_now (c := rules cacheSeconds) (fun _ => trivial) h

variable {f : Option UserSession → Call γ}

theorem safe_readRow
    (h : ∀ s', Leads cacheSeconds s s' → Coherent cacheSeconds s' → (rules cacheSeconds).Safe post (f s'.row) s') :
    (rules cacheSeconds).Safe post (.call .readRow f) s := acts_readRow (c := rules cacheSeconds) (fun _ => trivial) h

theorem safe_update {g : UserSession → Option UserSession} (hg : Revises g)
    (hnone : ∀ s', Leads cacheSeconds s s' → Coherent cacheSeconds s' → (rules cacheSeconds).Safe post (f none) s')
    (hsome : ∀ s0 s' row row', Leads cacheSeconds s s0 → Coherent cacheSeconds s0 → Leads cacheSeconds s0 s' →
      s0.row = some row → g row = some row' → s'.row = some row' → Coherent cacheSeconds s' →
      (rules cacheSeconds).Safe post (f (some row)) s') : (rules cacheSeconds).Safe post (.call (.update g) f) s := by
  intro s' hrel hinv w _
  obtain ⟨hleads, hinv'⟩ := update_leads hg hinv
  refine ⟨hleads, hinv', trivial, ?_⟩
  simp only [sessions, exec]
  cases hr : (s'.update g).1 with
  | none => exact hnone _ (hrel.trans hleads) hinv'
  | some row =>
    obtain ⟨row', hrow, hrow', heq⟩ := update_some hr
    exact hsome s' _ row row' hrel hinv hleads hrow hrow' (by rw [heq]; rfl) hinv'

theorem safe_insert (hactive : row.status = .active) {f : Bool → Call γ}
    (hdone : ∀ s0 s', Leads cacheSeconds s s0 → Coherent cacheSeconds s0 → s0.clock ≤ s'.clock → s'.row = some row →
      s'.revokedClock = none → Leads cacheSeconds s s' → Coherent cacheSeconds s' →
      (rules cacheSeconds).Safe post (f true) s')
    (hexists : ∀ s', Leads cacheSeconds s s' → Coherent cacheSeconds s' → (rules cacheSeconds).Safe post (f false) s') :
    (rules cacheSeconds).Safe post (.call (.insert row) f) s := by
  intro s' hrel hinv w _
  cases hr : s'.row with
  | none =>
    obtain ⟨hleads, hinv'⟩ := insert_leads hactive hinv hr
    simp only [sessions, exec, hr]
    refine ⟨hleads, hinv', trivial, hdone s' _ hrel hinv le_rfl rfl ?_ (hrel.trans hleads) hinv'⟩
    exact hinv'.seen_active rfl hactive
  | some =>
    simp only [sessions, exec, hr]
    exact ⟨Leads.refl s', hinv, trivial, hexists s' hrel hinv⟩

theorem safe_eval_active (hactive : entry.status = .active) {f : Reply → Call γ}
    (hdated : Dated cacheSeconds entry.expiresAt expires s) (hexpires : expires ≤ entry.expiresAt * 1000)
    (h : ∀ r s', Leads cacheSeconds s s' → Coherent cacheSeconds s' → (rules cacheSeconds).Safe post (f r) s') :
    (rules cacheSeconds).Safe post (.call (.eval entry (.at expires)) f) s := by
  intro s' hrel hinv w _
  obtain ⟨_, hrow, hrowExpires, _⟩ := hdated.later hrel
  have hscript : Leads cacheSeconds s' (s'.script entry (.at expires)).2 ∧
      Coherent cacheSeconds (s'.script entry (.at expires)).2 := by
    rcases script_cases s' entry (.at expires) with hr | ⟨hr, hcurrent⟩
    · rw [hr]
      exact ⟨Leads.refl s', hinv⟩
    · rw [hr]
      exact cached_active_leads hinv (hcurrent hactive) hrow
        (by rw [Store.horizon, hrowExpires, Expiration.time]; omega)
  simp only [sessions, exec]
  cases w.redis with
  | done => exact ⟨hscript.1, hscript.2, trivial, h _ _ (hrel.trans hscript.1) hscript.2⟩
  | failed => exact ⟨Leads.refl s', hinv, trivial, h _ _ hrel hinv⟩
  | lost => exact ⟨hscript.1, hscript.2, trivial, h _ _ (hrel.trans hscript.1) hscript.2⟩

/-- A tombstone that is applied to a revoked session seals it. -/
theorem safe_eval_deny {ttl : Int} (hdeny : entry.status ≠ .active) {f : Reply → Call γ}
    (hexpires : Expires entry.expiresAt s) (httl : 0 < ttl)
    (hreaches : min (entry.expiresAt * 1000) (s.clock + window cacheSeconds) ≤ s.clock + ttl)
    (h : ∀ r s0 s', Leads cacheSeconds s s0 → Leads cacheSeconds s0 s' → Coherent cacheSeconds s' →
      (entry.status = .revoked → s0.Revoked → Sealed cacheSeconds s') → (rules cacheSeconds).Safe post (f r) s') :
    (rules cacheSeconds).Safe post (.call (.eval entry (.after ttl)) f) s := by
  intro s' hrel hinv w hfair
  have hlater : s'.clock < s'.clock + ttl := by omega
  have hrow : ∀ row, s'.row = some row → s'.horizon cacheSeconds row ≤ s'.clock + ttl := by
    intro row hr
    obtain ⟨_, hr', hexpires'⟩ := hexpires.later hrel
    cases hr.symm.trans hr'
    have hclock := hrel.clock
    have hseen := hinv.seen_le
    rw [Store.horizon, hexpires']
    omega
  have hscript : Leads cacheSeconds s' (s'.script entry (.after ttl)).2 ∧
      Coherent cacheSeconds (s'.script entry (.after ttl)).2 := by
    rcases script_cases s' entry (.after ttl) with hr | ⟨hr, -⟩
    · rw [hr]
      exact ⟨Leads.refl s', hinv⟩
    · rw [hr]
      exact cached_deny_leads hinv hdeny hlater hrow
  simp only [sessions, exec]
  have happlied := @deny_applied entry (.after ttl) w s' hfair
  cases hw : w.redis with
  | done =>
    refine ⟨hscript.1, hscript.2, trivial, h _ s' _ hrel hscript.1 hscript.2 fun hstatus hrevoked => ?_⟩
    rw [(happlied hstatus).2]
    exact cached_deny_sealed hdeny hlater hrow hrevoked
  | failed =>
    refine ⟨Leads.refl s', hinv, trivial, h _ s' _ hrel (Leads.refl s') hinv fun hstatus => ?_⟩
    cases hw.symm.trans (happlied hstatus).1
  | lost =>
    refine ⟨hscript.1, hscript.2, trivial, h _ s' _ hrel hscript.1 hscript.2 fun hstatus => ?_⟩
    cases hw.symm.trans (happlied hstatus).1

end Instructions

/-! ## Snapshots -/

variable (cacheSeconds) in
theorem denyTTL_reaches (entry : CacheEntry) (now : Int) : 0 < denyTTL cacheSeconds entry now ∧
      min (entry.expiresAt * 1000) (now + window cacheSeconds) ≤ now + denyTTL cacheSeconds entry now := by
  unfold denyTTL window
  dsimp only
  split_ifs <;> omega

theorem safe_writeDeny (hdeny : entry.status ≠ .active) (hexpires : Expires entry.expiresAt s) :
    (rules cacheSeconds).Safe (fun _ s' => entry.status = .revoked → s.Revoked → Sealed cacheSeconds s')
      (writeDeny cacheSeconds entry) s := by
  apply safe_now
  intro s1 h1 _
  obtain ⟨httl, hreaches⟩ := denyTTL_reaches cacheSeconds entry s1.clock
  apply safe_eval_deny hdeny (hexpires.later h1) httl hreaches
  intro r s2 s3 h2 _ _ hsealed
  have hlast : ∀ s4, Leads cacheSeconds s3 s4 → entry.status = .revoked → s.Revoked → Sealed cacheSeconds s4 :=
    fun s4 h4 hstatus hrevoked => h4.sealed (hsealed hstatus ((h1.trans h2).revoked hrevoked))
  cases r with
  | failed | refused | applied => exact safe_ret fun s4 h4 _ => hlast s4 h4

theorem safe_writeActive (hactive : entry.status = .active) (hdated : Dated cacheSeconds entry.expiresAt deadline s) :
    (rules cacheSeconds).Safe (fun _ _ => True) (writeActive entry deadline) s := by
  unfold writeActive
  simp only [perform_bind]
  apply safe_now
  intro s1 h1 _
  split_ifs
  · exact fun _ _ _ => trivial
  · exact fun _ _ _ => trivial
  · exact fun _ _ _ => trivial
  · obtain ⟨row, hrow, hexpires, _⟩ := hdated.later h1
    refine safe_eval_active hactive ⟨row, hrow, hexpires, by omega⟩ (by omega) fun r s2 _ _ => ?_
    cases r with
    | failed | refused => exact fun _ _ _ => trivial
    | applied =>
      apply safe_now
      intro s3 _ _
      split_ifs <;> exact fun _ _ _ => trivial

theorem safe_writeUserSessionCache (hdeny : entry.status ≠ .active) (hexpires : Expires entry.expiresAt s)
    {deadline : Option Int} :
    (rules cacheSeconds).Safe (fun _ s' => entry.status = .revoked → s.Revoked → Sealed cacheSeconds s')
      (writeUserSessionCache cacheSeconds entry deadline) s := by
  unfold writeUserSessionCache
  rw [if_neg hdeny]
  exact safe_writeDeny hdeny hexpires

theorem safe_confirm :
    (rules cacheSeconds).Safe (fun r _ => r ≠ some .refreshReuse) (confirmUserSessionActiveSnapshot session) s := by
  unfold confirmUserSessionActiveSnapshot unix
  simp only [perform_bind]
  split_ifs
  · exact safe_ret fun _ _ _ h => by cases h
  · apply safe_now
    intro s1 _ _
    apply safe_readRow
    intro s2 _ _
    cases s2.row with
    | none => exact safe_ret fun _ _ _ h => by cases h
    | some =>
      dsimp only
      split_ifs
      · exact safe_ret fun _ _ _ h => by cases h
      · exact safe_ret fun _ _ _ h => by cases h

theorem safe_writeSnapshot (hactive : entry.status = .active) (hdated : Dated cacheSeconds entry.expiresAt deadline s) :
    (rules cacheSeconds).Safe (fun _ _ => True) (writeUserSessionCache cacheSeconds entry (some deadline)) s := by
  unfold writeUserSessionCache
  rw [if_pos hactive]
  exact safe_writeActive hactive hdated

theorem safe_publishActive (hinv : Coherent cacheSeconds s) (hactive : session.status = .active)
    (hdated : Dated cacheSeconds session.expiresAt deadline s) :
    (rules cacheSeconds).Safe (fun r _ => r ≠ some .refreshReuse) (publishActive cacheSeconds session deadline) s := by
  refine Rules.Acts.bind hinv (safe_writeSnapshot hactive hdated) fun r s' _ _ _ => ?_
  match r with
  | some .stale => exact safe_confirm
  | some .inactive => exact safe_ret fun _ _ _ h => by cases h
  | some .invalid => exact safe_ret fun _ _ _ h => by cases h
  | some .redis => exact safe_ret fun _ _ _ h => by cases h
  | none => exact safe_ret fun _ _ _ h => by cases h

theorem dated_of_active (hinv : Coherent cacheSeconds s) (hrow : s.row = some row)
    (hactive : row.status = .active) (hclock : clock ≤ s.clock) :
    Dated cacheSeconds row.expiresAt (clock + window cacheSeconds) s := by
  refine ⟨row, hrow, rfl, ?_⟩
  have hseen : s.seen = s.clock := by rw [Store.seen, hinv.seen_active hrow hactive]; rfl
  omega

/-! ## Calls -/

theorem safe_loadUserSession (hquiet : quiet → s.Revoked) :
    (rules cacheSeconds).Safe (fun r _ => quiet → ∀ session, r ≠ .ok session) (loadUserSession cacheSeconds) s := by
  unfold loadUserSession userSessionCacheDeadline getUserSessionBySID unix
  simp only [perform_bind, call_bind, ret_bind, pure_eq]
  apply safe_now
  intro s1 h1 _
  apply safe_readRow
  intro s2 h2 hinv2
  cases hrow : s2.row with
  | none => exact safe_ret fun _ _ _ _ _ h => by cases h
  | some session =>
    apply safe_now
    intro s3 h3 hinv3
    split_ifs with husable
    · have hdated := (dated_of_active hinv2 hrow husable.1 h2.clock).later h3
      refine Rules.Acts.bind hinv3 (safe_publishActive hinv3 husable.1 hdated) fun r s4 _ _ _ => ?_
      cases r with
      | some => exact safe_ret fun _ _ _ _ _ h => by cases h
      | none =>
        refine safe_ret fun _ _ _ hq => ?_
        obtain ⟨_, hrow', hstatus⟩ := (h1.trans h2).revoked (hquiet hq)
        cases hrow.symm.trans hrow'
        exact absurd husable.1 hstatus
    · have hexpires : Expires session.expiresAt s3 := Expires.later ⟨session, hrow, rfl⟩ h3
      refine Rules.Acts.bind hinv3 (safe_writeUserSessionCache (by simp) hexpires) fun r s4 _ _ _ => ?_
      exact safe_ret fun _ _ _ _ _ h => by cases h

/-- On a sealed session the snapshot that is found is a tombstone, and the row is no longer active. -/
theorem safe_getUserSessionCached (hquiet : quiet → Sealed cacheSeconds s) :
    (rules cacheSeconds).Safe (fun r _ => quiet → ∀ session, r ≠ .ok session)
    (getUserSessionCached cacheSeconds) s := by
  unfold getUserSessionCached unix
  simp only [perform_bind, call_bind, ret_bind, pure_eq]
  refine acts_readCache (c := rules cacheSeconds) (fun _ => trivial) ?_ ?_ ?_
  · intro s1 entry h1 _ hlive
    dsimp only
    split_ifs
    · exact safe_loadUserSession fun hq => h1.revoked (hquiet hq).revoked
    · apply safe_now
      intro s2 _ _
      split_ifs with husable
      · exact safe_ret fun _ _ _ hq => absurd husable.1 ((h1.sealed (hquiet hq)).hidden entry hlive)
      · exact safe_ret fun _ _ _ _ _ h => by cases h
  · exact fun s1 h1 _ => safe_loadUserSession fun hq => h1.revoked (hquiet hq).revoked
  · exact fun s1 h1 _ => safe_loadUserSession fun hq => h1.revoked (hquiet hq).revoked

theorem safe_createUserSession :
    (rules cacheSeconds).Safe (fun _ _ => True) (createUserSession cacheSeconds session) s := by
  unfold createUserSession unix userSessionCacheDeadline
  simp only [perform_bind, call_bind, ret_bind, pure_eq]
  apply safe_now
  intro s1 _ _
  split
  · exact fun _ _ _ => trivial
  · rename_i hvalid
    have hactive : session.status = .active := by
      by_contra h
      exact hvalid (by simp [h])
    apply safe_now
    intro s2 h2 _
    apply safe_insert
    · exact hactive
    · intro s3 s4 h3 _ hclock hrow _ _ hinv4
      have hle := Int.le_trans h3.clock hclock
      refine Rules.Acts.bind hinv4 (safe_publishActive hinv4 hactive (dated_of_active hinv4 hrow hactive hle)) ?_
      intro r s5 _ _ _
      cases r <;> exact fun _ _ _ => trivial
    · exact fun s3 _ _ => safe_ret fun _ _ _ => trivial

theorem safe_fence {now : Int} {reason : String} (hexpires : Expires session.expiresAt s) :
    (rules cacheSeconds).Safe (fun _ _ => True)
    (writeUserSessionDenyFence cacheSeconds session .revoking now reason) s :=
  (safe_writeUserSessionCache (by simp) hexpires).imp fun _ _ _ _ => trivial

theorem safe_finalize {now : Int} {reason : String} (hexpires : Expires session.expiresAt s) (hrevoked : s.Revoked) :
    (rules cacheSeconds).Safe (fun _ s' => Sealed cacheSeconds s')
      (writeUserSessionCache cacheSeconds (session.revoke now reason).cacheEntry none) s :=
  (safe_writeUserSessionCache (by simp [UserSession.revoke, UserSession.cacheEntry]) hexpires).imp
    fun _ _ _ h => h rfl hrevoked

variable {now : Int} {reason : String} {g : UserSession → Option UserSession}

theorem Revokes.revises (h : Revokes now reason g) : Revises g := by
  intro row row' hrow
  obtain ⟨hactive, rfl⟩ := h row row' hrow
  exact ⟨hactive, rfl⟩

theorem safe_revoke (hg : Revokes now reason g) {γ : Type} {post : γ → Store → Prop} {f : Option UserSession → Call γ}
    (hnone : ∀ s', Leads cacheSeconds s s' → Coherent cacheSeconds s' → (rules cacheSeconds).Safe post (f none) s')
    (hsome : ∀ s' row, Leads cacheSeconds s s' → Coherent cacheSeconds s' → s'.Revoked → Expires row.expiresAt s' →
      (rules cacheSeconds).Safe post (f (some row)) s') : (rules cacheSeconds).Safe post (.call (.update g) f) s := by
  apply safe_update hg.revises hnone
  intro s0 s' row row' h₀ _ h' _ hrow hrow' hinv'
  obtain ⟨-, rfl⟩ := hg row row' hrow
  exact hsome s' row (h₀.trans h') hinv' ⟨_, hrow', by simp [UserSession.revoke]⟩ ⟨_, hrow', rfl⟩

theorem safe_revokeFenced (hg : Revokes now reason g) (hinv : Coherent cacheSeconds s)
    (hexpires : Expires session.expiresAt s) {broken : WriteError → γ} {missed done : γ}
    (hbroken : ∀ e, broken e ≠ done) (hmissed : missed ≠ done) :
    (rules cacheSeconds).Safe (fun r s' => r = done → Sealed cacheSeconds s')
      (revokeFenced cacheSeconds session now reason g broken missed done) s := by
  refine Rules.Acts.bind hinv (safe_fence hexpires) fun r s1 h1 _ _ => ?_
  cases r with
  | some e => exact safe_ret fun _ _ _ h => absurd h (hbroken e)
  | none =>
    simp only [perform_bind]
    apply safe_revoke hg
    · exact fun s2 _ _ => safe_ret fun _ _ _ h => absurd h hmissed
    · intro s2 row h2 hinv2 hrevoked _
      have hexpires2 := hexpires.later (h1.trans h2)
      refine Rules.Acts.bind hinv2 (safe_finalize hexpires2 hrevoked) fun r s3 _ _ hsealed => ?_
      exact safe_ret fun s4 h4 hinv4 _ => hsealed s4 h4 hinv4

theorem safe_revokeReused (hinv : Coherent cacheSeconds s) (hexpires : Expires session.expiresAt s) :
    (rules cacheSeconds).Safe (fun r s' => r = .failed .refreshReuse → Sealed cacheSeconds s')
      (revokeReused cacheSeconds session now) s :=
  safe_revokeFenced (revokes_ite (fun row h => h.1) now _) hinv hexpires (by simp) (by simp)

theorem revises_rotate : Revises (rotateRow presentedHash nextHash now graceSeconds) := by
  intro row row' h
  unfold rotateRow at h
  split_ifs at h with hrow
  cases h
  exact ⟨hrow.1.1, rfl⟩

theorem safe_rotateRounds : (rules cacheSeconds).Safe (fun r s' => r = .failed .refreshReuse → Sealed cacheSeconds s')
      (rotateRounds cacheSeconds presentedHash nextHash now graceSeconds rounds) s := by
  induction rounds generalizing s with
  | zero => exact safe_ret fun _ _ _ h => by cases h
  | succ _ ih =>
    unfold rotateRounds userSessionCacheDeadline
    simp only [perform_bind]
    apply safe_now
    intro s1 h1 _
    apply safe_readRow
    intro s2 h2 hinv2
    cases hrow : s2.row with
    | none => exact safe_ret fun _ _ _ h => by cases h
    | some session =>
      dsimp only
      split_ifs with husable hcurrent hunknown hrace
      · have hactive : session.status = .active := husable.1
        have hdated := dated_of_active hinv2 hrow hactive h2.clock
        apply safe_update revises_rotate
        · exact fun _ _ _ => ih
        · intro s3 s4 _ _ h3 _ h4 _ _ _ hinv4
          have hdated4 := hdated.later (h3.trans h4)
          refine Rules.Acts.bind hinv4 (safe_publishActive hinv4 hactive hdated4) fun r s5 _ hinv5 hpost => ?_
          cases r with
          | some =>
            refine safe_ret fun _ _ _ h => ?_
            cases h
            exact absurd rfl (hpost s5 (Leads.refl s5) hinv5)
          | none => exact safe_ret fun _ _ _ h => by cases h
      · exact safe_ret fun _ _ _ h => by cases h
      · exact safe_ret fun _ _ _ h => by cases h
      · exact safe_revokeReused hinv2 ⟨session, hrow, rfl⟩
      · exact safe_ret fun _ _ _ h => by cases h

theorem safe_rotateUserSessionRefresh :
    (rules cacheSeconds).Safe (fun r s' => r = .failed .refreshReuse → Sealed cacheSeconds s')
      (rotateUserSessionRefresh cacheSeconds presentedHash nextHash now graceSeconds) s := by
  unfold rotateUserSessionRefresh unix
  simp only [perform_bind]
  split_ifs
  · exact safe_ret fun _ _ _ h => by cases h
  · exact safe_now fun _ _ _ => safe_ret fun _ _ _ h => by cases h
  · exact safe_now fun _ _ _ => safe_rotateRounds
  · exact safe_ret fun _ _ _ h => by cases h
  · exact safe_rotateRounds

theorem safe_revokeUserSession : (rules cacheSeconds).Safe (fun r s' => r = .ok true → Sealed cacheSeconds s')
      (revokeUserSession cacheSeconds reason) s := by
  unfold revokeUserSession unix
  simp only [perform_bind]
  apply safe_now
  intro s1 _ _
  apply safe_readRow
  intro s2 _ hinv2
  cases hrow : s2.row with
  | none => exact safe_ret fun _ _ _ h => by cases h
  | some candidate =>
    dsimp only
    split
    · exact safe_ret fun _ _ _ h => by cases h
    · exact safe_revokeFenced (revokes_revokeRow _ reason) hinv2 ⟨candidate, hrow, rfl⟩ (by simp) (by simp)

theorem safe_revokeUserSessionByRefreshHash :
    (rules cacheSeconds).Safe (fun r s' => r = .ok true → Sealed cacheSeconds s')
      (revokeUserSessionByRefreshHash cacheSeconds presentedHash reason) s := by
  unfold revokeUserSessionByRefreshHash unix
  split
  · exact safe_ret fun _ _ _ h => by cases h
  simp only [perform_bind]
  apply safe_now
  intro s1 _ _
  apply safe_readRow
  intro s2 _ hinv2
  cases hrow : s2.row with
  | none => exact safe_ret fun _ _ _ h => by cases h
  | some session =>
    dsimp only
    split
    · exact safe_ret fun _ _ _ h => by cases h
    · exact safe_revokeFenced (revokes_ite (fun row h => h) _ reason) hinv2 ⟨session, hrow, rfl⟩ (by simp) (by simp)

/-- Once a round has revoked the session it is sealed, whatever the later rounds find. -/
theorem safe_revokeRounds (now : Int) (reason : String) (rounds affected : Nat)
    (hdone : 0 < affected → Sealed cacheSeconds s) :
    (rules cacheSeconds).Safe (fun r s' => ∀ n, r = .ok (some n) → 0 < n → Sealed cacheSeconds s')
      (revokeRounds cacheSeconds now reason rounds affected) s := by
  induction rounds generalizing affected s with
  | zero => exact safe_ret fun _ _ _ n h => by cases h
  | succ _ ih =>
    have hreturn {s1 : Store} (h1 : Leads cacheSeconds s s1) : (rules cacheSeconds).Safe
        (fun r s' => ∀ n, r = .ok (some n) → 0 < n → Sealed cacheSeconds s')
        (.ret (.ok (some affected)) : Call (Except SessionError (Option Nat))) s1 := by
      refine safe_ret fun s2 h2 _ n hn hpos => ?_
      cases hn
      exact (h1.trans h2).sealed (hdone hpos)
    unfold revokeRounds
    simp only [perform_bind]
    apply safe_readRow
    intro s1 h1 hinv1
    cases hrow : s1.row with
    | none => exact hreturn h1
    | some candidate =>
      have hexpires : Expires candidate.expiresAt s1 := ⟨candidate, hrow, rfl⟩
      dsimp only
      split
      · exact hreturn h1
      · refine Rules.Acts.bind hinv1 (safe_fence hexpires)
          fun r s2 h2 _ _ => ?_
        cases r with
        | some => exact safe_ret fun _ _ _ n h => by cases h
        | none =>
          apply safe_revoke (revokes_ite (fun row h => h) now reason)
          · exact fun s3 h3 _ => ih affected fun hpos => (h1.trans (h2.trans h3)).sealed (hdone hpos)
          · intro s3 row h3 hinv3 hrevoked hexpires3
            refine Rules.Acts.bind hinv3 (safe_finalize hexpires3 hrevoked) fun r s4 _ hinv4 hsealed => ?_
            exact ih (affected + 1) fun _ => hsealed s4 (Leads.refl s4) hinv4

theorem safe_revokeUserSessions :
    (rules cacheSeconds).Safe (fun r s' => ∀ n, r = .ok (some n) → 0 < n → Sealed cacheSeconds s')
      (revokeUserSessions cacheSeconds reason rounds) s := by
  exact safe_now fun s1 _ _ => safe_revokeRounds _ reason rounds 0 (by simp)

theorem safe_advanceUserSessionAuthVersion {expectedSessionVersion expectedUserAuthVersion nextUserAuthVersion : Int} :
    (rules cacheSeconds).Safe (fun _ _ => True) (advanceUserSessionAuthVersion cacheSeconds expectedSessionVersion
      expectedUserAuthVersion nextUserAuthVersion) s := by
  unfold advanceUserSessionAuthVersion userSessionCacheDeadline unix
  simp only [perform_bind]
  split
  · exact fun _ _ _ => trivial
  · apply safe_now
    intro s1 _ _
    apply safe_now
    intro s2 h2 _
    apply safe_update
    · intro row row' h
      unfold advanceRow at h
      split_ifs at h with hrow
      cases h
      exact ⟨hrow.1, rfl⟩
    · exact fun _ _ _ => safe_ret fun _ _ _ => trivial
    · intro s3 s4 row row' h3 hinv3 h4 hrow hadvance _ hinv4
      unfold advanceRow at hadvance
      split_ifs at hadvance with hexpected
      have hdated := (dated_of_active hinv3 hrow hexpected.1 (h2.trans h3).clock).later h4
      refine Rules.Acts.bind hinv4 (safe_writeSnapshot hexpected.1 hdated) fun r s5 _ hinv5 _ => ?_
      match r with
      | none => exact fun _ _ _ => trivial
      | some .stale =>
        refine Rules.Acts.bind hinv5 safe_confirm fun r _ _ _ _ => ?_
        cases r <;> exact fun _ _ _ => trivial
      | some .invalid => exact fun _ _ _ => trivial
      | some .inactive => exact fun _ _ _ => trivial
      | some .redis => exact fun _ _ _ => trivial

/-! ## Runs -/

/-- What a call returns: that it has revoked only over a sealed session, and nothing that was cached where it started on
one. -/
def Promises (cacheSeconds : Int) (quiet : Prop) (o : Outcome) (s : Store) : Prop :=
  (o.Revoked → Sealed cacheSeconds s) ∧ (quiet → ∀ session, o ≠ .loaded (.ok session))

theorem safe_request {b : Request} (hquiet : quiet → Sealed cacheSeconds s) :
    (rules cacheSeconds).Safe (Promises cacheSeconds quiet) (b.call cacheSeconds) s := by
  cases b with
  | load =>
    refine (safe_getUserSessionCached hquiet).map fun r s1 _ hpost => ⟨fun h => h.elim, fun hq session h => ?_⟩
    cases h
    exact hpost hq session rfl
  | create session =>
    exact safe_createUserSession.map fun r s1 _ _ => ⟨fun h => h.elim, fun _ _ h => by cases h⟩
  | rotate presentedHash nextHash now graceSeconds =>
    exact safe_rotateUserSessionRefresh.map fun r s1 _ hpost =>
      ⟨fun h => hpost h.rotated, fun _ _ h => by cases h⟩
  | revoke reason =>
    exact safe_revokeUserSession.map fun r s1 _ hpost => ⟨fun h => hpost h.revoked, fun _ _ h => by cases h⟩
  | revokeByHash presentedHash reason =>
    exact safe_revokeUserSessionByRefreshHash.map fun r s1 _ hpost =>
      ⟨fun h => hpost h.revoked, fun _ _ h => by cases h⟩
  | revokeAll reason rounds =>
    refine safe_revokeUserSessions.map fun r s1 _ hpost => ⟨fun h => ?_, fun _ _ h => by cases h⟩
    obtain ⟨n, hn, hpos⟩ := h.revokedAll
    exact hpost n hn hpos
  | advance =>
    exact safe_advanceUserSessionAuthVersion.map fun r s1 _ _ => ⟨fun h => h.elim, fun _ _ h => by cases h⟩

def empty (clock : Int) : Pool Store Instr Instr.Answer Outcome := ⟨{ clock := clock }, []⟩

theorem empty_keeps (post : Nat → Outcome → Store → Prop) :
    (rules cacheSeconds).Keeps (fun _ _ _ => True) post (empty clock) where
  inv := by
    refine ⟨fun _ row h => ?_, fun c h => ?_, fun k h => ?_⟩
    · cases h
    · cases h
    · cases h
  safe j q h := by simp [empty] at h

/-- Whatever happens before, meanwhile and afterwards: as long as no tombstone is overtaken by a later version, a call
that starts once a revocation has returned never finds the session. -/
theorem revoked_session_not_loaded (cacheSeconds clock : Int) (before later : List (Event Request Choice Nat))
    (hdeny : Along (sessions cacheSeconds).step (rules cacheSeconds).Fair (empty clock) (before ++ later)) (i : Nat)
    (o : Outcome) (hreturned : (run (sessions cacheSeconds).step (empty clock) before).calls[i]? = some (.ret o))
    (hrevoked : o.Revoked) (j : Nat) (hj : (run (sessions cacheSeconds).step (empty clock) before).calls.length ≤ j)
    (session : UserSession) :
    (run (sessions cacheSeconds).step (empty clock) (before ++ later)).calls[j]? ≠
      some (.ret (.loaded (.ok session))) := by
  obtain ⟨hbefore, hlater⟩ := along_append.mp hdeny
  -- Up to the moment of the return the calls keep their promises, so the session is sealed.
  have hfirst := Rules.safe_run (empty_keeps fun _ => Promises cacheSeconds False) hbefore
    fun _ b s _ _ _ => safe_request False.elim
  set p := run (sessions cacheSeconds).step (empty clock) before with hp
  have hsealed : Sealed cacheSeconds p.shared :=
    (hfirst.1.safe i _ hreturned p.shared (Leads.refl _) hfirst.1.inv).1 hrevoked
  -- The calls that start from now on promise more.
  have hkeeps : (rules cacheSeconds).Keeps (fun _ _ _ => True)
    (fun k => Promises cacheSeconds (p.calls.length ≤ k)) p := by
    refine ⟨hfirst.1.inv, fun k q hq => ?_⟩
    have hlt := (List.getElem?_eq_some_iff.mp hq).1
    refine (hfirst.1.safe k q hq).imp fun o s _ h => ⟨h.1, fun hle => ?_⟩
    omega
  have hsecond := Rules.safe_run hkeeps hlater fun _ b s _ hrel _ => safe_request fun _ => hrel.sealed hsealed
  rw [run_append]
  intro hloaded
  exact (hsecond.1.safe j _ hloaded _ (Leads.refl _) hsecond.1.inv).2 hj session rfl

def turns (j n : Nat) : List (Event Request Choice Nat) := List.replicate n (.advance j {})

def login : Request := .create { userID := 7, userAuthVersion := 1, refreshHash := "h0", expiresAt := 1000 }

/-- A reader that is slow to fill the cache, and a logout meanwhile. -/
def slowFill : List (Event Request Choice Nat) :=
  [.start login] ++ turns 0 6 ++ [.start .load, .advance 1 { redis := .failed }] ++ turns 1 4 ++
    [.start (.revoke "logout")] ++
    turns 2 7

def afterLogout : List (Event Request Choice Nat) := [.env 60001] ++ turns 1 3 ++ [.start .load] ++ turns 3 8

theorem revoked_session_not_loaded_slow : (run (sessions 60).step (empty 0) (slowFill ++ afterLogout)).calls[3]? ≠
      some (.ret (.loaded (.ok { userID := 7, userAuthVersion := 1, refreshHash := "h0", expiresAt := 1000 }))) :=
  revoked_session_not_loaded 60 0 slowFill afterLogout (by decide) 2 (.revoked (.ok true))
    (by rfl) (by rfl) 3 (by decide) _

/-- A logout whose fence runs out before it commits. Meanwhile the session goes to its next version. -/
def overtakenLogout : List (Event Request Choice Nat) :=
  [.start login] ++ turns 0 6 ++ [.start (.revoke "logout")] ++ turns 1 4 ++ [.env 60001, .start (.advance 1 1 2)] ++
    turns 2 6 ++ turns 1 3

def RedisAnswers : Event Request Choice Nat → Bool
  | .advance _ w => w.redis = .done
  | .start _ | .env _ => true

/-- Every Redis write is answered. The logout commits, and its tombstone of version 1 is refused over the snapshot of
version 2; it returns success, and the next load finds the session. -/
theorem overtaken_tombstone_is_refused : (∀ e ∈ overtakenLogout ++ [.start .load] ++ turns 3 2, RedisAnswers e) ∧
    (run (sessions 60).step (empty 0) overtakenLogout).calls[1]? = some (.ret (.revoked (.ok true))) ∧
    (run (sessions 60).step (empty 0) (overtakenLogout ++ [.start .load] ++ turns 3 2)).calls[3]? =
      some (.ret (.loaded (.ok
        { userID := 7, version := 2, userAuthVersion := 2, refreshHash := "",
          lastActiveAt := 60, expiresAt := 1000 }))) :=
  ⟨by decide, rfl, rfl⟩

end System

end CubeRouter.Auth
