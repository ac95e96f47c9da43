import CubeRouter.Auth.UserCache

/-!
# A security change invalidates older credentials

From its commit on, the version of a security change is below the floor or below a fence that is still there, whatever
is written to the hash: a reader of an older snapshot asks for the floor after it has read the hash, and everybody
else reads the row. What has to hold for this is that the version is published before its fence runs out.
-/

namespace CubeRouter.Auth.UserCache

open Concurrency Expiring Transition

section Rules

variable (cacheSeconds : Int)

/-- How long a fence is kept, in milliseconds. -/
def fenceWindow : Int := userAuthFenceTTLSeconds cacheSeconds * 1000

theorem fenceWindow_pos : 0 < fenceWindow cacheSeconds := by
  unfold fenceWindow userAuthFenceTTLSeconds userCacheTTLSeconds
  split_ifs <;> omega

structure Coherent (s : Store) : Prop where
  version : 1 ≤ s.row.authVersion
  floor : s.floor ≤ s.row.authVersion
  hash : ∀ k, s.hash = some k → k.value.authVersion ≤ s.row.authVersion
  raised : s.raised ≤ s.row.authVersion
  fence : ∀ k, s.fence = some k → k.expires ≤ s.clock + fenceWindow cacheSeconds
  /-- The committed version is published, or its fence is there. -/
  guarded : s.raised ≤ s.floor ∨
    s.clock ≤ s.raisedUntil ∧ ∃ k, s.fence = some k ∧ s.raised ≤ k.value ∧ s.raisedUntil ≤ k.expires

/-- A fence that was asked for up to a time is there up to this time, as long as the row is below it. -/
def Fenced (version fencedUntil : Int) (s : Store) : Prop :=
  fencedUntil < s.clock ∨ version ≤ s.row.authVersion ∨
    ∃ k, s.fence = some k ∧ version ≤ k.value ∧ fencedUntil ≤ k.expires

structure Leads (s s' : Store) : Prop where
  clock : s.clock ≤ s'.clock
  version : s.row.authVersion ≤ s'.row.authVersion
  raised : s.raised ≤ s'.raised
  fences : s.fences ≤ s'.fences
  fenced : ∀ version fencedUntil, Fenced version fencedUntil s → Fenced version fencedUntil s'
  /-- A fence that was not there has been published. -/
  silent : s'.fences = s.fences → ∀ x, live s'.clock s'.fence = some x → live s.clock s.fence = some x

variable {cacheSeconds} {s s' s'' : Store}

theorem Leads.refl (s : Store) : Leads s s :=
  ⟨Int.le_refl _, Int.le_refl _, Int.le_refl _, Nat.le_refl _, fun _ _ h => h, fun _ _ h => h⟩

theorem Leads.trans (h : Leads s s') (h' : Leads s' s'') : Leads s s'' where
  clock := Int.le_trans h.clock h'.clock
  version := Int.le_trans h.version h'.version
  raised := Int.le_trans h.raised h'.raised
  fences := Nat.le_trans h.fences h'.fences
  fenced version fencedUntil hf := h'.fenced version fencedUntil (h.fenced version fencedUntil hf)
  silent hsame x hx := by
    have hfirst := h.fences
    have hsecond := h'.fences
    exact h.silent (by omega) x (h'.silent (by omega) x hx)

theorem pending_le_iff {n : Int} (hn : 0 ≤ n) : s.pending ≤ n ↔ ∀ x, live s.clock s.fence = some x → x ≤ n := by
  unfold Store.pending
  cases live s.clock s.fence with
  | none => simp [hn]
  | some => simp

theorem leads_hash (h : Coherent cacheSeconds s) (hash : Option (Key UserBase))
    (hhash : ∀ k, hash = some k → k.value.authVersion ≤ s.row.authVersion) :
    Leads s { s with hash := hash } ∧ Coherent cacheSeconds { s with hash := hash } :=
  ⟨⟨Int.le_refl _, Int.le_refl _, Int.le_refl _, Nat.le_refl _, fun _ _ h => h, fun _ _ h => h⟩,
    h.version, h.floor, hhash, h.raised, h.fence, h.guarded⟩

variable {incoming fencedUntil : Int} {includeQuota : Bool} {field : Field} {value : String} {row : UserBase}
  {edit : UserBase → UserBase} {rounds : Nat}

theorem pass_leads (h : Coherent cacheSeconds s) (hincoming : incoming ≤ s.row.authVersion) :
    Leads s (s.pass incoming) ∧ Coherent cacheSeconds (s.pass incoming) := by
  have hfence : (s.pass incoming).fence = s.fence ∨ (s.pass incoming).fence = none ∧
      ∀ x, live s.clock s.fence = some x → x ≤ incoming := by
    simp only [Store.pass]
    split_ifs with hpass
    · exact .inr ⟨rfl, (pending_le_iff (by omega)).mp hpass.2⟩
    · exact .inl rfl
  refine ⟨⟨Int.le_refl _, Int.le_refl _, Int.le_refl _, Nat.le_refl _,
    fun version fencedUntil hf => ?_, fun _ x hx => ?_⟩,
    ⟨h.version, ?_, h.hash, h.raised, fun k hk => ?_, ?_⟩⟩
  · rcases hf with hpast | hversion | ⟨k, hk, hvalue, hexpires⟩
    · exact .inl hpast
    · exact .inr (.inl hversion)
    · rcases hfence with hkept | ⟨-, hle⟩
      · exact .inr (.inr ⟨k, hkept.trans hk, hvalue, hexpires⟩)
      · by_cases hlive : s.clock ≤ k.expires
        · have hvalue' := hle k.value (live_eq_some_iff.mpr ⟨k, hk, hlive, rfl⟩)
          refine .inr (.inl ?_)
          show version ≤ s.row.authVersion
          omega
        · refine .inl ?_
          show fencedUntil < s.clock
          omega
  · rcases hfence with hkept | ⟨hnone, -⟩
    · rwa [hkept] at hx
    · rw [hnone] at hx
      cases hx
  · have hold := h.floor
    show max s.floor incoming ≤ s.row.authVersion
    omega
  · rcases hfence with hkept | ⟨hnone, -⟩
    · exact h.fence k (hkept.symm.trans hk)
    · cases hnone.symm.trans hk
  · show s.raised ≤ max s.floor incoming ∨ _
    rcases h.guarded with _ | ⟨hclock, k, hk, hvalue, hexpires⟩
    · exact .inl (by omega)
    · rcases hfence with hkept | ⟨-, hle⟩
      · exact .inr ⟨hclock, k, hkept.trans hk, hvalue, hexpires⟩
      · have hvalue' := hle k.value (live_eq_some_iff.mpr ⟨k, hk, Int.le_trans hclock hexpires, rfl⟩)
        exact .inl (by omega)

variable {user : UserBase} {authVersion : Int} {o : Store}

theorem writeCache_leads (h : Coherent cacheSeconds s) (huser : user.authVersion ≤ s.row.authVersion) :
    Leads s (s.writeCache cacheSeconds user includeQuota).2 ∧
      Coherent cacheSeconds (s.writeCache cacheSeconds user includeQuota).2 := by
  obtain ⟨hleads, hcoherent⟩ := pass_leads h huser
  unfold Store.writeCache
  split_ifs
  · exact ⟨Leads.refl s, h⟩
  · exact ⟨hleads, hcoherent⟩
  · have hhash := leads_hash hcoherent (put s.clock user (s.clock + userCacheTTLSeconds cacheSeconds * 1000))
      fun k hk => by
        obtain ⟨-, rfl⟩ := put_eq_some_iff.mp hk
        exact huser
    exact ⟨hleads.trans hhash.1, hhash.2⟩

theorem writeField_leads (h : Coherent cacheSeconds s) (hversion : authVersion ≤ s.row.authVersion) :
    Leads s (s.writeField field value authVersion).2 ∧
    Coherent cacheSeconds (s.writeField field value authVersion).2 := by
  obtain ⟨hleads, hcoherent⟩ := pass_leads h hversion
  unfold Store.writeField
  split_ifs
  · exact ⟨Leads.refl s, h⟩
  · split
    · rename_i k hk
      split_ifs
      · have hhash := leads_hash hcoherent (some { k with value := field.set value k.value }) fun k' hk' => by
          cases hk'
          simpa [Store.pass] using h.hash k hk
        exact ⟨hleads.trans hhash.1, hhash.2⟩
      · exact ⟨hleads, hcoherent⟩
    · exact ⟨hleads, hcoherent⟩

/-- A fence that is published is there for the whole time, and takes nothing from another one. -/
theorem setFence_leads (h : Coherent cacheSeconds s) (hpositive : 0 < authVersion) :
    Leads s (s.setFence cacheSeconds authVersion) ∧ Coherent cacheSeconds (s.setFence cacheSeconds authVersion) ∧
      ∃ k, (s.setFence cacheSeconds authVersion).fence = some k ∧ authVersion ≤ k.value := by
  have hwindow := fenceWindow_pos cacheSeconds
  unfold Store.setFence
  split_ifs with hpending
  · have hput : put s.clock authVersion (s.clock + userAuthFenceTTLSeconds cacheSeconds * 1000) =
        some ⟨authVersion, s.clock + fenceWindow cacheSeconds⟩ :=
          put_eq_some_iff.mpr ⟨by unfold fenceWindow at hwindow; omega, rfl⟩
    have hbelow (k : Key Int) (hk : s.fence = some k) (hlive : s.clock ≤ k.expires) :
        k.value ≤ authVersion ∧ k.expires ≤ s.clock + fenceWindow cacheSeconds :=
      ⟨(pending_le_iff (by omega)).mp hpending _ (live_eq_some_iff.mpr ⟨k, hk, hlive, rfl⟩), h.fence k hk⟩
    rw [hput]
    refine ⟨⟨le_rfl, le_rfl, le_rfl, Nat.le_succ _, fun version fencedUntil hf => ?_, fun hsame => ?_⟩,
      ⟨h.version, h.floor, h.hash, h.raised, fun k hk => ?_, ?_⟩, _, rfl, le_rfl⟩
    · rcases hf with hpast | hversion | ⟨k, hk, hvalue, hexpires⟩
      · exact .inl hpast
      · exact .inr (.inl hversion)
      · by_cases hlive : s.clock ≤ k.expires
        · obtain ⟨hle, hle'⟩ := hbelow k hk hlive
          exact .inr (.inr ⟨_, rfl, Int.le_trans hvalue hle, Int.le_trans hexpires hle'⟩)
        · refine .inl ?_
          show fencedUntil < s.clock
          omega
    · exact absurd hsame (Nat.succ_ne_self _)
    · cases hk
      exact le_rfl
    · rcases h.guarded with hpublished | ⟨hclock, k, hk, hvalue, hexpires⟩
      · exact .inl hpublished
      · obtain ⟨hle, hle'⟩ := hbelow k hk (Int.le_trans hclock hexpires)
        exact .inr ⟨hclock, _, rfl, Int.le_trans hvalue hle, Int.le_trans hexpires hle'⟩
  · obtain ⟨x, hx, hlt⟩ : ∃ x, live s.clock s.fence = some x ∧ authVersion < x := by
      by_contra hnone
      refine hpending ((pending_le_iff (by omega)).mpr fun x hx => ?_)
      exact Int.not_lt.mp fun hlt => hnone ⟨x, hx, hlt⟩
    obtain ⟨k, hk, -, rfl⟩ := live_eq_some_iff.mp hx
    exact ⟨⟨le_rfl, le_rfl, le_rfl, Nat.le_succ _, fun _ _ h => h,
      fun hsame => absurd hsame (Nat.succ_ne_self _)⟩, ⟨h.version, h.floor, h.hash, h.raised, h.fence, h.guarded⟩,
      k, hk, Int.le_of_lt hlt⟩

theorem tick_leads (n : Nat) (h : Coherent cacheSeconds s) (hn : s.raised ≤ s.floor ∨ s.clock + n ≤ s.raisedUntil) :
    Leads s { s with clock := s.clock + n } ∧ Coherent cacheSeconds { s with clock := s.clock + n } := by
  have hclock : s.clock ≤ s.clock + n := Int.le_add_of_nonneg_right (Int.natCast_nonneg n)
  refine ⟨⟨hclock, Int.le_refl _, Int.le_refl _, Nat.le_refl _, fun version fencedUntil hf => ?_, fun _ x hx => ?_⟩,
    ⟨h.version, h.floor, h.hash, h.raised, fun k hk => ?_, ?_⟩⟩
  · rcases hf with hpast | hkept
    · exact .inl (Int.lt_of_lt_of_le hpast hclock)
    · exact .inr hkept
  · exact live_later hx hclock
  · exact Int.le_trans (h.fence k hk) (Int.add_le_add_right hclock _)
  · rcases hn with hpublished | hlater
    · exact .inl hpublished
    · exact h.guarded.imp id fun hguard => ⟨hlater, hguard.2⟩

theorem save_raise_leads (h : Coherent cacheSeconds s)
    (hraise : s.row.authVersion < row.authVersion) (hfenced : Fenced row.authVersion fencedUntil s)
    (hclock : s.clock ≤ fencedUntil) :
    Leads s (s.save (some fencedUntil) row) ∧ Coherent cacheSeconds (s.save (some fencedUntil) row) := by
  unfold Store.save
  rw [if_pos hraise]
  have hversion := h.version
  have hfloor := h.floor
  have hraised := h.raised
  refine ⟨⟨Int.le_refl _, Int.le_of_lt hraise, Int.le_trans hraised (Int.le_of_lt hraise), Nat.le_refl _,
    fun version fencedUntil' hf => ?_, fun _ _ hx => hx⟩, ⟨?_, ?_, fun k hk => ?_, Int.le_refl _, h.fence, ?_⟩⟩
  · rcases hf with hpast | hbelow | hkept
    · exact .inl hpast
    · exact .inr (.inl (Int.le_trans hbelow (Int.le_of_lt hraise)))
    · exact .inr (.inr hkept)
  · show 1 ≤ row.authVersion
    omega
  · show s.floor ≤ row.authVersion
    omega
  · exact Int.le_trans (h.hash k hk) (Int.le_of_lt hraise)
  · rcases hfenced with _ | _ | ⟨k, hk, hvalue, hexpires⟩
    · omega
    · omega
    · exact .inr ⟨hclock, k, hk, hvalue, hexpires⟩

theorem save_same_leads (h : Coherent cacheSeconds s) (hsame : row.authVersion = s.row.authVersion)
    {fencedUntil : Option Int} : Leads s (s.save fencedUntil row) ∧ Coherent cacheSeconds (s.save fencedUntil row) := by
  unfold Store.save
  rw [if_neg (by omega)]
  refine ⟨⟨Int.le_refl _, Int.le_of_eq hsame.symm, Int.le_refl _, Nat.le_refl _, fun version fencedUntil hf => ?_,
    fun _ _ hx => hx⟩, ⟨?_, ?_, fun k hk => ?_, ?_, h.fence, h.guarded⟩⟩
  · rcases hf with hpast | hbelow | hkept
    · exact .inl hpast
    · exact .inr (.inl (Int.le_trans hbelow (Int.le_of_eq hsame.symm)))
    · exact .inr (.inr hkept)
  · exact hsame ▸ h.version
  · exact hsame ▸ h.floor
  · exact hsame ▸ h.hash k hk
  · exact hsame ▸ h.raised

/-- No reader is told a floor below the last change. -/
theorem Coherent.raised_le_floor (h : Coherent cacheSeconds s) : s.raised ≤ max 0 (max s.pending s.floor) := by
  rcases h.guarded with _ | ⟨hclock, k, hk, _, hexpires⟩
  · omega
  · have hpending : s.pending = k.value := by
      have hlive := live_eq_some_iff.mpr ⟨k, hk, Int.le_trans hclock hexpires, rfl⟩
      rw [Store.pending, hlive]
      rfl
    omega

/-! ## The system -/

def CommitsInTime : Instr → Choice → Store → Prop
  | .update (some fencedUntil) _, w, s => w.commit = true → s.clock ≤ fencedUntil
  | _, _, _ => True

/-- Time does not pass the end of the fence of a change that has committed and is not published. -/
def PublishedInTime (n : Nat) (s : Store) : Prop := s.raised ≤ s.floor ∨ s.clock + n ≤ s.raisedUntil

instance (i : Instr) (w : Choice) (s : Store) : Decidable (CommitsInTime i w s) :=
  match i with
  | .update (some fencedUntil) _ => inferInstanceAs (Decidable (w.commit = true → s.clock ≤ fencedUntil))
  | .update none _ | .now | .readRow | .readHash | .readFloor | .writeCache _ _ | .writeField _ _ _ | .setFence _ |
    .publish _ | .deleteHash => .isTrue trivial

instance (n : Nat) (s : Store) : Decidable (PublishedInTime n s) := inferInstanceAs (Decidable (_ ∨ _))

variable (cacheSeconds) (hash next : String → String)

def rules : Rules (users cacheSeconds hash next) where
  inv := Coherent cacheSeconds
  rel := Leads
  fair := CommitsInTime
  lets := PublishedInTime
  refl := Leads.refl
  trans _ _ _ h h' := h.trans h'
  env n _ h hn := tick_leads n h hn

instance (i : Instr) (w : Choice) (s : Store) : Decidable ((rules cacheSeconds hash next).fair i w s) :=
  inferInstanceAs (Decidable (CommitsInTime i w s))

instance (n : Nat) (s : Store) : Decidable ((rules cacheSeconds hash next).lets n s) :=
  inferInstanceAs (Decidable (PublishedInTime n s))

/-! ## Instructions -/

variable {cacheSeconds hash next} {γ : Type} {post : γ → Store → Prop} {f : Option Int → Call γ}

theorem safe_now {f : Int → Call γ}
    (h : ∀ s', Leads s s' → Coherent cacheSeconds s' → (rules cacheSeconds hash next).Safe post (f s'.clock) s') :
    (rules cacheSeconds hash next).Safe post (.call .now f) s :=
  fun s' hrel hinv _ _ => ⟨Leads.refl s', hinv, trivial, h s' hrel hinv⟩

theorem safe_readRow {f : UserBase → Call γ}
    (h : ∀ s', Leads s s' → Coherent cacheSeconds s' → (rules cacheSeconds hash next).Safe post (f s'.row) s') :
    (rules cacheSeconds hash next).Safe post (.call .readRow f) s :=
  fun s' hrel hinv _ _ => ⟨Leads.refl s', hinv, trivial, h s' hrel hinv⟩

/-- An instruction that keeps to the rules however it ends. -/
theorem safe_any {i : Instr} {f : i.Answer → Call γ} (hexec : ∀ s', Leads s s' → Coherent cacheSeconds s' → ∀ w,
      Leads s' (exec cacheSeconds i w s').2 ∧ Coherent cacheSeconds (exec cacheSeconds i w s').2)
    (h : ∀ s' r, Leads s s' → Coherent cacheSeconds s' → (rules cacheSeconds hash next).Safe post (f r) s') :
    (rules cacheSeconds hash next).Safe post (.call i f) s := by
  intro s' hrel hinv w _
  obtain ⟨hleads, hcoherent⟩ := hexec s' hrel hinv w
  exact ⟨hleads, hcoherent, trivial, h _ _ (hrel.trans hleads) hcoherent⟩

theorem safe_readFloor (hread : ∀ s', Leads s s' → Coherent cacheSeconds s' →
      (rules cacheSeconds hash next).Safe post (f (some (max 0 (max s'.pending s'.floor)))) s')
    (hfailed : ∀ s', Leads s s' → Coherent cacheSeconds s' → (rules cacheSeconds hash next).Safe post (f none) s') :
    (rules cacheSeconds hash next).Safe post (.call .readFloor f) s := by
  intro s' hrel hinv w _
  simp only [users, exec]
  split_ifs
  · exact ⟨Leads.refl s', hinv, trivial, hread s' hrel hinv⟩
  · exact ⟨Leads.refl s', hinv, trivial, hfailed s' hrel hinv⟩

theorem reach_leads {α : Type} (fate : Fate) (failed : α) {r : α × Store} (h : Coherent cacheSeconds s)
    (hr : Leads s r.2 ∧ Coherent cacheSeconds r.2) :
    Leads s (reach fate failed r s).2 ∧ Coherent cacheSeconds (reach fate failed r s).2 := by
  cases fate with
  | done => exact hr
  | failed => exact ⟨Leads.refl s, h⟩
  | lost => exact hr

theorem safe_writeCache {f : Reply → Call γ} (huser : user.authVersion ≤ s.row.authVersion)
    (h : ∀ s0 s' r, Leads s s0 → Coherent cacheSeconds s0 → (r = .refused → s0.Refuses user.authVersion) → Leads s0 s' →
      Coherent cacheSeconds s' → (rules cacheSeconds hash next).Safe post (f r) s') :
    (rules cacheSeconds hash next).Safe post (.call (.writeCache user includeQuota) f) s := by
  intro s' hrel hinv w _
  have huser' : user.authVersion ≤ s'.row.authVersion := Int.le_trans huser hrel.version
  obtain ⟨hleads, hcoherent⟩ := reach_leads w.redis .failed hinv (writeCache_leads hinv huser')
  refine ⟨hleads, hcoherent, trivial, h s' _ _ hrel hinv (fun hr => ?_) hleads hcoherent⟩
  simp only [users, exec, reach] at hr
  cases hw : w.redis with
  | done =>
    rw [hw] at hr
    by_contra hpass
    simp only [Store.writeCache] at hr
    split_ifs at hr
  | failed | lost => simp [hw] at hr

theorem safe_setFence (hpositive : 0 < authVersion)
    (hfailed : ∀ s', Leads s s' → Coherent cacheSeconds s' → (rules cacheSeconds hash next).Safe post (f none) s')
    (hdone : ∀ s' fencedUntil, Leads s s' → Coherent cacheSeconds s' → Fenced authVersion fencedUntil s' →
      (rules cacheSeconds hash next).Safe post (f (some fencedUntil)) s') :
    (rules cacheSeconds hash next).Safe post (.call (.setFence authVersion) f) s := by
  intro s' hrel hinv w _
  obtain ⟨hleads, hcoherent, k, hk, hvalue⟩ := setFence_leads hinv hpositive
  simp only [users, exec]
  cases w.redis with
  | done =>
    refine ⟨hleads, hcoherent, trivial, ?_⟩
    simp only [hk]
    exact hdone _ k.expires (hrel.trans hleads) hcoherent (.inr (.inr ⟨k, hk, hvalue, le_rfl⟩))
  | failed => exact ⟨Leads.refl s', hinv, trivial, hfailed s' hrel hinv⟩
  | lost => exact ⟨hleads, hcoherent, trivial, hfailed _ (hrel.trans hleads) hcoherent⟩

theorem update_same_leads {g : UserBase → Option UserBase}
    (hg : ∀ row row', g row = some row' → row'.authVersion = row.authVersion)
    (h : Coherent cacheSeconds s) (w : Choice) :
    Leads s (exec cacheSeconds (.update none g) w s).2 ∧
    Coherent cacheSeconds (exec cacheSeconds (.update none g) w s).2 := by
  dsimp only [exec]
  split
  · exact ⟨Leads.refl s, h⟩
  · rename_i row hrow
    split_ifs
    · exact save_same_leads h (hg _ _ hrow)
    · exact ⟨Leads.refl s, h⟩

theorem safe_update_raise {version : Int} {f : Committed → Call γ}
    (hfenced : Fenced version fencedUntil s) (hraise : authVersion < version)
    (h : ∀ s' r, Leads s s' → Coherent cacheSeconds s' → (∀ row, r = .done row → row.authVersion ≤ s'.row.authVersion) →
      (rules cacheSeconds hash next).Safe post (f r) s') : (rules cacheSeconds hash next).Safe post
      (.call (.update (some fencedUntil) (raiseRow authVersion version edit)) f) s := by
  intro s' hrel hinv w hfair
  simp only [users, exec]
  split
  · exact ⟨Leads.refl s', hinv, trivial, h s' _ hrel hinv fun row hr => by cases hr⟩
  · rename_i row hrow
    split_ifs with hcommit
    · have hversion : row.authVersion = version ∧ s'.row.authVersion = authVersion := by
        unfold raiseRow at hrow
        split_ifs at hrow with hexpected
        cases hrow
        exact ⟨rfl, hexpected⟩
      obtain ⟨hrowVersion, _⟩ := hversion
      have hgrows : s'.row.authVersion < row.authVersion := by omega
      have hrowFenced : Fenced row.authVersion fencedUntil s' := hrowVersion ▸ hrel.fenced _ _ hfenced
      obtain ⟨hleads, hcoherent⟩ := save_raise_leads hinv hgrows hrowFenced (hfair hcommit)
      refine ⟨hleads, hcoherent, trivial, h _ _ (hrel.trans hleads) hcoherent fun r hr => ?_⟩
      cases hr
      unfold Store.save
      exact Int.le_of_eq (by rw [if_pos hgrows])
    · exact ⟨Leads.refl s', hinv, trivial, h s' _ hrel hinv fun row hr => by cases hr⟩

/-! ## Calls -/

theorem safe_writeUserCache (huser : user.authVersion ≤ s.row.authVersion) : (rules cacheSeconds hash next).Safe
      (fun r s' => r = some .pending → ∃ s0, Leads s s0 ∧ Coherent cacheSeconds s0 ∧
      s0.Refuses user.authVersion ∧ Leads s0 s')
      (writeUserCache user includeQuota) s := by
  unfold writeUserCache
  split
  · exact fun _ _ _ h => by cases h
  · apply safe_writeCache huser
    intro s0 s1 r h0 hinv0 hrefused h1 _ s2 h2 _ hr
    cases r with
    | failed => cases hr
    | refused => exact ⟨s0, h0, hinv0, hrefused rfl, h1.trans h2⟩
    | applied => cases hr

/-- Why a reader that has found nothing else to refuse is told to wait: the fence was there when it started, or
somebody has published one or raised the version since. -/
def Blocked (o s : Store) : Prop :=
  (∃ x, live o.clock o.fence = some x ∧ o.row.authVersion < x) ∨ o.fences < s.fences ∨
    o.row.authVersion < s.row.authVersion

theorem blocked_of_refuses {s0 : Store} (h0 : Leads o s0) (hinv0 : Coherent cacheSeconds s0)
    (hincoming : o.row.authVersion ≤ incoming) (hpositive : 0 ≤ incoming) (hrefuses : s0.Refuses incoming)
    (h : Leads s0 s) : Blocked o s := by
  have hversion := h.version
  have hfences := h.fences
  have hsince := h0.fences
  rcases hrefuses with _ | _ | _
  · obtain ⟨x, hx, hlt⟩ : ∃ x, live s0.clock s0.fence = some x ∧ incoming < x := by
      by_contra hnone
      have hle := (pending_le_iff hpositive).mpr fun x hx => Int.not_lt.mp fun hlt => hnone ⟨x, hx, hlt⟩
      omega
    by_cases hsame : s0.fences = o.fences
    · exact .inl ⟨x, h0.silent hsame x hx, by omega⟩
    · exact .inr (.inl (by omega))
  · have hbelow := hinv0.floor
    exact .inr (.inr (by omega))
  · have hbelow : s0.current ≤ max 0 s0.row.authVersion := by
      unfold Store.current
      cases hlive : live s0.clock s0.hash with
      | none =>
        simp only [Option.map_none, Option.getD_none]
        omega
      | some =>
        obtain ⟨k, hk, -, rfl⟩ := live_eq_some_iff.mp hlive
        have hle := hinv0.hash k hk
        simp only [Option.map_some, Option.getD_some]
        omega
    exact .inr (.inr (by omega))

/-- What is promised of a load that found `o` when it started. -/
def Loaded (o : Store) : Except CacheError UserBase → Store → Prop
  | .ok base, _ => o.raised ≤ base.authVersion
  | .error .pending, s => Blocked o s
  | .error _, _ => True

theorem safe_fillUserCache (ho : Leads o s) (huser : user.authVersion ≤ s.row.authVersion)
    (hversion : o.row.authVersion ≤ user.authVersion) (hraised : o.raised ≤ user.authVersion)
    (hpositive : 0 ≤ user.authVersion) (hinv : Coherent cacheSeconds s) :
    (rules cacheSeconds hash next).Safe (Loaded o) (fillUserCache user) s := by
  refine Rules.Acts.bind hinv (safe_writeUserCache huser) fun r s1 _ hinv1 hpost => ?_
  match r with
  | none => exact fun _ _ _ => hraised
  | some .pending =>
    intro s2 h2 hinv2
    obtain ⟨_, h0, hinv0, hrefuses, h⟩ := hpost s2 h2 hinv2 rfl
    exact blocked_of_refuses (ho.trans h0) hinv0 hversion hpositive hrefuses h
  | some .invalid => exact fun _ _ _ => hraised
  | some .redis => exact fun _ _ _ => hraised
  | some .changed => exact fun _ _ _ => hraised
  | some .transaction => exact fun _ _ _ => hraised

theorem safe_cacheGetUserBase (ho : Leads o s) :
    (rules cacheSeconds hash next).Safe (fun r _ => ∀ user, r = some user →
      o.raised ≤ user.authVersion) cacheGetUserBase s := by
  have hnone {s1 : Store} :
    (rules cacheSeconds hash next).Safe (fun r _ => ∀ user, r = some user → o.raised ≤ user.authVersion)
      (.ret none : Call (Option UserBase)) s1 := fun _ _ _ user h => by cases h
  unfold cacheGetUserBase
  simp only [perform_bind]
  apply safe_any
  · intro s1 _ hinv1 w
    dsimp only [exec]
    split <;> exact ⟨Leads.refl s1, hinv1⟩
  intro s1 r h1 _
  cases r with
  | failed | missing => exact hnone
  | found =>
    dsimp only
    split
    · exact hnone
    · apply safe_readFloor
      · intro s2 h2 hinv2
        dsimp only
        split
        · exact hnone
        · intro s3 _ _ user' huser
          cases huser
          have hraised := (ho.trans (h1.trans h2)).raised
          have hfloor := hinv2.raised_le_floor
          omega
      · exact fun _ _ _ => hnone

theorem safe_getUserCache (hinv : Coherent cacheSeconds s) :
    (rules cacheSeconds hash next).Safe (Loaded s) getUserCache s := by
  refine Rules.Acts.bind hinv (safe_cacheGetUserBase (Leads.refl s)) fun r s1 h1 hinv1 hpost => ?_
  cases r with
  | some user =>
    have hraised := hpost s1 (Leads.refl s1) hinv1 user rfl
    exact fun _ _ _ => hraised
  | none =>
    simp only [perform_bind]
    apply safe_readRow
    intro s2 h2 hinv2
    have ho := h1.trans h2
    have hraised : s.raised ≤ s2.row.authVersion := Int.le_trans ho.raised hinv2.raised
    have hpositive : 0 ≤ s2.row.authVersion := Int.le_trans (by omega) hinv2.version
    have hfill {s3 : Store} (h3 : Leads s2 s3) (hinv3 : Coherent cacheSeconds s3) :
        (rules cacheSeconds hash next).Safe (Loaded s) (fillUserCache s2.row) s3 :=
      safe_fillUserCache (ho.trans h3) h3.version ho.version hraised hpositive hinv3
    apply safe_readFloor
    · intro s3 h3 hinv3
      dsimp only
      split
      · refine fun s4 h4 _ => blocked_of_refuses (ho.trans h3) hinv3 ho.version hpositive ?_ h4
        by_contra hpass
        simp only [Store.Refuses] at hpass
        omega
      · exact hfill h3 hinv3
    · exact fun s3 h3 hinv3 => hfill h3 hinv3

theorem safe_incrementUserAuthVersion :
    (rules cacheSeconds hash next).Safe (fun r s' => ∀ row, r = some row → row.authVersion ≤ s'.row.authVersion)
      (incrementUserAuthVersion edit rounds) s := by
  induction rounds generalizing s with
  | zero => exact fun _ _ _ row h => by cases h
  | succ _ ih =>
    apply safe_readRow
    intro s1 _ hinv1
    apply safe_setFence (by omega)
    · exact fun _ _ _ _ _ _ row h => by cases h
    · intro s2 fencedUntil _ _ hfenced
      apply safe_update_raise hfenced (by omega)
      intro s3 r _ _ hdone
      cases r with
      | conflict => exact ih
      | rolledBack => exact fun _ _ _ row h => by cases h
      | done row =>
        intro s4 h4 _ row' hrow
        cases hrow
        exact Int.le_trans (hdone row rfl) h4.version

theorem safe_changeSecurity {publication : Publication} (hinv : Coherent cacheSeconds s) :
    (rules cacheSeconds hash next).Safe (fun _ _ => True) (changeSecurity edit publication) s := by
  refine Rules.Acts.bind hinv safe_incrementUserAuthVersion fun r s1 _ hinv1 hpost => ?_
  cases r with
  | none => exact fun _ _ _ => trivial
  | some row =>
    have hrow := hpost s1 (Leads.refl s1) hinv1 row rfl
    cases publication with
    | reread =>
      apply safe_readRow
      exact fun s2 _ _ => (safe_writeUserCache le_rfl).imp fun _ _ _ _ => trivial
    | snapshot => exact (safe_writeUserCache hrow).imp fun _ _ _ _ => trivial
    | floor =>
      apply safe_any
      · exact fun s2 h2 hinv2 w => reach_leads w.redis _ hinv2 (pass_leads hinv2 (Int.le_trans hrow h2.version))
      intro s2 r _ _
      cases r with
      | failed | refused => exact fun _ _ _ => trivial
      | applied =>
        apply safe_any
        · exact fun s3 _ hinv3 w => reach_leads w.redis _ hinv3 (leads_hash hinv3 none fun k hk => by cases hk)
        · exact fun _ _ _ _ _ _ _ => trivial

theorem safe_updateUserCacheFieldAtVersion (hversion : authVersion ≤ s.row.authVersion) :
    (rules cacheSeconds hash next).Safe (fun _ _ => True)
    (updateUserCacheFieldAtVersion field value authVersion) s := by
  unfold updateUserCacheFieldAtVersion
  split
  · exact fun _ _ _ => trivial
  · apply safe_any
    · exact fun s1 h1 hinv1 w =>
        reach_leads w.redis _ hinv1 (writeField_leads hinv1 (Int.le_trans hversion h1.version))
    · exact fun _ _ _ _ _ _ _ => trivial

theorem safe_refreshRounds {authoritative : UserBase} (hinv : Coherent cacheSeconds s)
    (hversion : authoritative.authVersion ≤ s.row.authVersion) :
    (rules cacheSeconds hash next).Safe (fun _ _ => True) (refreshRounds field rounds authoritative) s := by
  induction rounds generalizing s authoritative with
  | zero =>
    refine Rules.Acts.bind hinv (safe_updateUserCacheFieldAtVersion hversion) fun r _ _ _ _ => ?_
    cases r <;> exact fun _ _ _ => trivial
  | succ _ ih =>
    refine Rules.Acts.bind hinv (safe_updateUserCacheFieldAtVersion hversion) fun r s1 _ _ _ => ?_
    cases r with
    | some => exact fun _ _ _ => trivial
    | none =>
      simp only [perform_bind]
      apply safe_readRow
      intro s2 _ hinv2
      split
      · exact fun _ _ _ => trivial
      · exact ih hinv2 le_rfl

theorem safe_refreshUserField : (rules cacheSeconds hash next).Safe (fun _ _ => True) (refreshUserField field) s := by
  apply safe_readRow
  exact fun s1 _ hinv1 => safe_refreshRounds hinv1 le_rfl

theorem safe_changeField : (rules cacheSeconds hash next).Safe (fun _ _ => True) (changeField field value) s := by
  apply safe_any
  · exact fun s1 _ hinv1 w => update_same_leads (fun row row' h => by cases h; simp) hinv1 w
  · intro s1 r _ _
    cases r with
    | conflict | rolledBack => exact fun _ _ _ => trivial
    | done => exact safe_refreshUserField

theorem safe_getUserView (ho : Leads o s) (hinv : Coherent cacheSeconds s) :
    (rules cacheSeconds hash next).Safe (fun r _ => ∀ user, r = some user →
      o.raised ≤ user.authVersion) getUserView s := by
  refine Rules.Acts.bind hinv (safe_getUserCache hinv) fun r s1 _ hinv1 hpost => ?_
  cases r with
  | error => exact fun _ _ _ user h => by cases h
  | ok =>
    intro s2 _ _ view hview
    cases hview
    exact Int.le_trans ho.raised (hpost s1 (Leads.refl s1) hinv1)

theorem safe_validateLoginSession {identity : AuthIdentity} {session : Except SessionError UserSession} :
    (rules cacheSeconds hash next).Safe (fun r _ => ∀ a, r = .ok a → s.raised ≤ identity.userAuthVersion)
      (validateLoginSession (loginDeps session (.failed .invalid) true) identity) s := by
  cases session with
  | error => exact fun _ _ _ a h => by cases h
  | ok =>
    unfold validateLoginSession
    simp only [loginDeps, ret_bind, call_bind, perform_bind, pure_eq]
    apply safe_now
    intro s1 h1 hinv1
    split
    · exact fun _ _ _ a h => by cases h
    · refine Rules.Acts.bind hinv1 (safe_getUserView h1 hinv1) fun r s2 _ hinv2 hpost => ?_
      cases r with
      | none => exact fun _ _ _ a h => by cases h
      | some user =>
        have hraised := hpost s2 (Leads.refl s2) hinv2 user rfl
        dsimp only
        split
        · exact fun _ _ _ a h => by cases h
        · rename_i hsame
          have huser : user.authVersion = identity.userAuthVersion := by
            by_contra h
            exact hsame (.inr h)
          exact fun _ _ _ _ _ => huser ▸ hraised

theorem safe_refreshLoginSession {secret : String} {session : UserSession} {rotation : Rotation} {issued : Bool} :
    (rules cacheSeconds hash next).Safe (fun r _ => ∀ bundle, r = .ok bundle → s.raised ≤ session.userAuthVersion)
      (refreshLoginSession (loginDeps (.ok session) rotation issued) hash next secret) s := by
  have herror {e : RefreshError} {s' : Store} : (rules cacheSeconds hash next).Safe
      (fun r _ => ∀ bundle, r = .ok bundle → s.raised ≤ session.userAuthVersion)
      (.ret (.error e) : Call (Except RefreshError Bundle)) s' := fun _ _ _ a h => by cases h
  unfold refreshLoginSession
  simp only [loginDeps, ret_bind, call_bind, perform_bind, pure_eq]
  apply safe_now
  intro s1 h1 hinv1
  split
  · exact herror
  · refine Rules.Acts.bind hinv1 (safe_getUserView h1 hinv1) fun r s2 _ hinv2 hpost => ?_
    cases r with
    | none => exact herror
    | some cached =>
      have hraised := hpost s2 (Leads.refl s2) hinv2 cached rfl
      apply safe_readRow
      intro s3 _ _
      split
      · exact herror
      · rename_i hsame
        have hcached : cached.authVersion = session.userAuthVersion := by
          by_contra h
          exact hsame (.inr (.inl h))
        have hissue (found : UserSession) : (rules cacheSeconds hash next).Safe
            (fun r _ => ∀ bundle, r = .ok bundle → s.raised ≤ session.userAuthVersion)
            (issueAuthBundle (loginDeps (.ok session) rotation issued) found (next secret)) s3 := by
          cases issued with
          | true => exact fun _ _ _ _ _ => hcached ▸ hraised
          | false => exact herror
        cases rotation with
        | rotated found => exact hissue found
        | race found =>
          simp only [finishRefresh]
          split
          · exact hissue found
          · exact herror
        | failed e => cases e <;> exact herror

/-- What is promised of the answer to a call that found `o` when it started. -/
def Answered (o : Store) : Request → Answer → Store → Prop
  | .load, .loaded r, s => Loaded o r s
  | .validate identity _, .validated r, _ => ∀ a, r = .ok a → o.raised ≤ identity.userAuthVersion
  | .refresh _ (.ok session) _ _, .exchanged r, _ => ∀ bundle, r = .ok bundle → o.raised ≤ session.userAuthVersion
  | _, _, _ => True

theorem safe_call (b : Request) (hinv : Coherent cacheSeconds s) :
    (rules cacheSeconds hash next).Safe (Answered s b) (b.call hash next) s := by
  cases b with
  | load => exact (safe_getUserCache hinv).map fun _ _ _ h => h
  | changeSecurity edit publication => exact (safe_changeSecurity hinv).map fun _ _ _ _ => trivial
  | refreshField field => exact safe_refreshUserField.map fun _ _ _ _ => trivial
  | changeField field value => exact safe_changeField.map fun _ _ _ _ => trivial
  | validate identity session => exact safe_validateLoginSession.map fun _ _ _ h => h
  | refresh secret session rotation issued =>
    cases session with
    | error => exact fun _ _ _ => trivial
    | ok session => exact safe_refreshLoginSession.map fun _ _ _ h => h

/-! ## Runs -/

variable (cacheSeconds hash next) in
def start (row : UserBase) (clock : Int) : Pool Store Instr Instr.Answer Answer := ⟨{ row := row, clock := clock }, []⟩

/-- A call `b` that starts when a change to version `v` has committed: it loads no base below `v`, accepts no identity
below `v`, and gives no bundle for a session below `v`. A load is refused only over a fence that was there when it
started, or because a fence was published or the version raised since. -/
theorem security_change_invalidates (cacheSeconds : Int) (hash next : String → String) (row : UserBase) (clock : Int)
    (hrow : 1 ≤ row.authVersion) (before later : List (Event Request Choice Nat)) (b : Request)
    (hintime : Along (users cacheSeconds hash next).step (rules cacheSeconds hash next).Fair (start row clock)
      (before ++ .start b :: later)) :
    let m := users cacheSeconds hash next
    let p := run m.step (start row clock) before
    let q := run m.step p (.start b :: later)
    ∀ a, q.calls[p.calls.length]? = some (.ret a) →
      (∀ v ≤ p.shared.raised,
        (b = .load → ∀ base, a = .loaded (.ok base) → v ≤ base.authVersion) ∧
          (∀ identity session, b = .validate identity session → identity.userAuthVersion < v →
            ∀ accepted, a ≠ .validated (.ok accepted)) ∧
          ∀ secret session rotation issued, b = .refresh secret (.ok session) rotation issued →
            session.userAuthVersion < v → ∀ bundle, a ≠ .exchanged (.ok bundle)) ∧
        (b = .load → a = .loaded (.error .pending) → Blocked p.shared q.shared) := by
  intro m p q a ha
  obtain ⟨hbefore, hlater⟩ := along_append.mp hintime
  have hany (b : Request) (s : Store) (hinv : Coherent cacheSeconds s) :
      (rules cacheSeconds hash next).Safe (fun _ _ => True) (b.call hash next) s :=
    (safe_call b hinv).imp fun _ _ _ _ => trivial
  have hstart : (rules cacheSeconds hash next).Keeps (fun _ _ _ => True) (fun _ _ _ => True) (start row clock) := by
    refine ⟨⟨hrow, ?_, fun k hk => ?_, ?_, fun k hk => ?_, .inl le_rfl⟩, fun j q hq => by simp [start] at hq⟩
    · show 0 ≤ row.authVersion
      omega
    · cases hk
    · show 0 ≤ row.authVersion
      omega
    · cases hk
  obtain ⟨hp, -, -⟩ := Rules.safe_run hstart hbefore fun _ b s _ _ => hany b s
  obtain ⟨-, -, hanswer, -⟩ := Rules.own_run hp (safe_call b hp.inv) hany hlater
  have hanswered : Answered p.shared b a q.shared := hanswer a ha
  refine ⟨fun v hv => ⟨?_, ?_, ?_⟩, ?_⟩
  · rintro rfl base rfl
    exact Int.le_trans hv hanswered
  · rintro identity session rfl hbelow accepted rfl
    have hraised := hanswered accepted rfl
    omega
  · rintro secret session rotation issued rfl hbelow bundle rfl
    have hraised := hanswered bundle rfl
    omega
  · rintro rfl rfl
    exact hanswered

end Rules

/-! ## A change of a password -/

def before : UserBase := { authVersion := 1, group := "default", modelDiscounts := "" }

def turns (j n : Nat) : List (Event Request Choice Nat) := List.replicate n (.advance j {})

def publishedChange : List (Event Request Choice Nat) :=
  [.start .load] ++ turns 0 3 ++ [.start (.changeSecurity id .reread)] ++ turns 1 5

theorem security_change_invalidates_late :
    ∃ a, (run (users 60 id id).step (run (users 60 id id).step (start before 0) publishedChange)
        (.start .load :: turns 0 1 ++ turns 2 5)).calls[2]? = some (.ret a) ∧
      ∀ base, a = .loaded (.ok base) → 2 ≤ base.authVersion := by
  refine ⟨_, rfl, ?_⟩
  exact ((security_change_invalidates 60 id id before 0 (by decide) publishedChange (turns 0 1 ++ turns 2 5) .load
    (by decide) _ rfl).1 2 (by decide)).1 rfl

/-- The publication comes in time, but finds the fence of a change that is then rolled back. -/
def refusedChange : List (Event Request Choice Nat) :=
  [.start .load] ++ turns 0 3 ++ [.start (.changeSecurity id .reread)] ++ turns 1 4 ++
    [.start (.changeSecurity id .reread)] ++ turns 2 2 ++ turns 1 1

def slowFill : List (Event Request Choice Nat) := [.advance 2 { commit := false }, .env 120001] ++ turns 0 1

theorem refused_publication_readmits :
    let m := users 60 id id
    let published := run m.step (start before 0) refusedChange
    let filled := run m.step published slowFill
    published.calls[1]? = some (.ret (.refreshed (some .pending))) ∧
      published.shared.clock < published.shared.raisedUntil ∧
      filled.shared.raised = 2 ∧
      (run m.step filled (.start .load :: turns 3 2)).calls[3]? = some (.ret (.loaded (.ok before))) := by
  refine ⟨by rfl, by decide, by rfl, by rfl⟩

end CubeRouter.Auth.UserCache
