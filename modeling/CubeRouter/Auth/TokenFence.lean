import CubeRouter.Auth.TokenCache
import Mathlib.Data.Int.Order.Basic
import Mathlib.Order.Basic

/-!
# The fence of the token cache

The fence is not versioned: it holds by time. A reader publishes at most `b` after it has read the row, and a change
that is fenced beforehand commits at most `a` after its fence, and the fence lasts longer than both together. So
whoever has read the row before a commit meets the fence, and what is published when it is gone has been read after
the commit.
-/

namespace CubeRouter.Auth.TokenCache

open Concurrency Expiring Transition List Option

/-- The settings are those of commit `n` or a later one, as the hash holds them. -/
def Of (n : Nat) (settings : Settings String) (s : Store) : Prop :=
  ∃ k t row, n ≤ k ∧ s.history[k]? = some (t, some row) ∧ settings = (normalizeTokenScope row).write

/-- Who has read the row before commit `n` finds a fence when it publishes. -/
def Barred (b : Int) (n : Nat) (s : Store) : Prop :=
  ∃ e f, s.history[n]? = some e ∧ s.fence = some f ∧ e.1 + b < f.expires

structure Covered (b : Int) (n : Nat) (s : Store) : Prop where
  barred : Barred b n s
  hash : ∀ k, s.hash = some k → Of n k.value.settings s

/-- The hash was deleted under a fence of this time, and stays deleted as long as it lasts. -/
def Cleared (fencedAt : Int) (s : Store) : Prop :=
  ∃ f, s.fence = some f ∧ fencedAt + tokenCacheFence ≤ f.expires ∧
    (s.clock ≤ fencedAt + tokenCacheFence → s.hash = none)

structure Coherent (s : Store) : Prop where
  row : ∃ t, s.history.getLast? = some (t, s.row.map Token.settings)
  times : ∀ e ∈ s.history, e.1 ≤ s.clock
  fence : ∀ f, s.fence = some f → f.expires ≤ s.clock + tokenCacheFence
  hash : ∀ k, s.hash = some k → Of 0 k.value.settings s

structure Leads (b : Int) (s s' : Store) : Prop where
  clock : s.clock ≤ s'.clock
  fence : ∀ f, s.fence = some f → ∃ f', s'.fence = some f' ∧ f.expires ≤ f'.expires
  history : s.history <+: s'.history
  later : ∀ (n : Nat) (e : Int × Option (Settings (Option String))), s.history.length ≤ n →
    s'.history[n]? = some e → s.clock ≤ e.1
  covered : ∀ n, Covered b n s → Covered b n s'
  cleared : ∀ t, Cleared t s → Cleared t s'

section Store

variable {b : Int} {n : Nat} {s s' s'' : Store} {settings : Settings String}

theorem getElem?_kept {α : Type} {l l' : List α} (h : l <+: l') {k : Nat} {x : α} (hx : l[k]? = some x) :
    l'[k]? = some x := by
  obtain ⟨t, rfl⟩ := h
  rwa [List.getElem?_append_left (List.getElem?_eq_some_iff.mp hx).1]

theorem Of.later (h : Of n settings s) (hhistory : s.history <+: s'.history) : Of n settings s' := by
  obtain ⟨k, t, row, hk, hrow, hsettings⟩ := h
  exact ⟨k, t, row, hk, getElem?_kept hhistory hrow, hsettings⟩

theorem Barred.later (h : Barred b n s) (hhistory : s.history <+: s'.history)
    (hfence : ∀ f, s.fence = some f → ∃ f', s'.fence = some f' ∧ f.expires ≤ f'.expires) : Barred b n s' := by
  obtain ⟨e, f, he, hf, hlt⟩ := h
  obtain ⟨f', hf', hle⟩ := hfence f hf
  exact ⟨e, f', getElem?_kept hhistory he, hf', hlt.trans_le hle⟩

theorem Leads.refl (s : Store) : Leads b s s where
  clock := le_rfl
  fence f hf := ⟨f, hf, le_rfl⟩
  history := prefix_rfl
  later _ _ hn he := absurd (List.getElem?_eq_some_iff.mp he).1 (Nat.not_lt.mpr hn)
  covered _ h := h
  cleared _ h := h

theorem Leads.trans (h : Leads b s s') (h' : Leads b s' s'') : Leads b s s'' where
  clock := h.clock.trans h'.clock
  fence f hf := by
    obtain ⟨f', hf', hle⟩ := h.fence f hf
    obtain ⟨f'', hf'', hle'⟩ := h'.fence f' hf'
    exact ⟨f'', hf'', hle.trans hle'⟩
  history := h.history.trans h'.history
  later n e hn he := by
    rcases Nat.lt_or_ge n s'.history.length with hlt | hge
    · have hold : s'.history[n]? = some s'.history[n] := getElem?_eq_getElem hlt
      rw [getElem?_kept h'.history hold] at he
      exact h.later n e hn (hold.trans he)
    · exact h.clock.trans (h'.later n e hge he)
  covered n hn := h'.covered n (h.covered n hn)
  cleared t ht := h'.cleared t (h.cleared t ht)

/-! ## Steps -/

theorem quiet_leads (h : Coherent s) (hclock : s.clock ≤ s'.clock) (hhistory : s'.history = s.history)
    (hrow : s'.row.map Token.settings = s.row.map Token.settings)
    (hfence : ∀ f, s.fence = some f → ∃ f', s'.fence = some f' ∧ f.expires ≤ f'.expires)
    (hends : ∀ f, s'.fence = some f → f.expires ≤ s'.clock + tokenCacheFence)
    (hhash : ∀ k', s'.hash = some k' → ∃ k, s.hash = some k ∧ k'.value.settings = k.value.settings) :
    Leads b s s' ∧ Coherent s' := by
  have hprefix : s.history <+: s'.history := hhistory ▸ prefix_rfl
  have hof (n : Nat) (hall : ∀ k, s.hash = some k → Of n k.value.settings s) (k' : Key TokenHash)
    (hk' : s'.hash = some k') :
      Of n k'.value.settings s' := by
    obtain ⟨k, hk, hsame⟩ := hhash k' hk'
    exact hsame ▸ (hall k hk).later hprefix
  constructor
  · refine ⟨hclock, hfence, hprefix, fun n e hn he => ?_,
      fun n hn => ⟨hn.barred.later hprefix hfence, hof n hn.hash⟩, ?_⟩
    · rw [hhistory] at he
      exact absurd (List.getElem?_eq_some_iff.mp he).1 (Nat.not_lt.mpr hn)
    · rintro t ⟨f, hf, hlate, hnone⟩
      obtain ⟨f', hf', hle⟩ := hfence f hf
      refine ⟨f', hf', hlate.trans hle, fun hsoon => ?_⟩
      cases hk' : s'.hash with
      | none => rfl
      | some k' =>
        obtain ⟨k, hk, -⟩ := hhash k' hk'
        cases hk.symm.trans (hnone (hclock.trans hsoon))
  · obtain ⟨t, ht⟩ := h.row
    refine ⟨⟨t, by rw [hhistory, ht, hrow]⟩, fun e he => ?_, hends, hof 0 h.hash⟩
    exact (h.times e (hhistory ▸ he)).trans hclock

theorem setFence_leads (h : Coherent s) : Leads b s s.setFence ∧ Coherent s.setFence := by
  have hset : s.setFence.fence = some ⟨(), s.clock + tokenCacheFence⟩ :=
    put_eq_some_iff.mpr ⟨by unfold tokenCacheFence; omega, rfl⟩
  refine quiet_leads h le_rfl rfl rfl (fun f hf => ⟨_, hset, h.fence f hf⟩) (fun f hf => ?_) fun k hk => ⟨k, hk, rfl⟩
  cases hset.symm.trans hf
  exact le_rfl

theorem deleteHash_leads (h : Coherent s) : Leads b s { s with hash := none } ∧ Coherent { s with hash := none } :=
  quiet_leads h le_rfl rfl rfl (fun f hf => ⟨f, hf, le_rfl⟩) h.fence fun k hk => by cases hk

theorem moveHash_leads (h : Coherent s) {id delta now : Int} (p : Counters → Bool) :
    Leads b s (s.moveHash id delta now p) ∧ Coherent (s.moveHash id delta now p) := by
  unfold Store.moveHash
  cases hk : s.hash with
  | none => exact ⟨Leads.refl s, h⟩
  | some k =>
    dsimp only
    split_ifs
    · refine quiet_leads h le_rfl rfl rfl (fun f hf => ⟨f, hf, le_rfl⟩) h.fence fun k' hk' => ⟨k, hk, ?_⟩
      cases hk'
      rfl
    · exact ⟨Leads.refl s, h⟩

theorem change_leads (c : Change) (h : Coherent s) : Leads b s (c.apply s) ∧ Coherent (c.apply s) := by
  cases c with
  | tick n =>
    have hclock : s.clock ≤ s.clock + n := by omega
    refine quiet_leads h hclock rfl rfl (fun f hf => ⟨f, hf, le_rfl⟩) (fun f hf => ?_) fun k hk => ⟨k, hk, rfl⟩
    exact (h.fence f hf).trans (Int.add_le_add_right hclock _)
  | tryReserve id amount now => exact moveHash_leads h fun c => amount ≤ c.remainQuota
  | applyDelta id delta now => exact moveHash_leads h fun _ => true
  | increaseQuota =>
    refine quiet_leads h le_rfl rfl ?_ (fun f hf => ⟨f, hf, le_rfl⟩) h.fence fun k hk => ⟨k, hk, rfl⟩
    show Option.map Token.settings (Option.map _ s.row) = _
    rw [Option.map_map]
    rfl

/-- The token was read at this time, before all commits that came later. -/
def Read (token : Token) (readAt : Int) (s : Store) : Prop :=
  readAt ≤ s.clock ∧ ∃ k t row, s.history[k]? = some (t, some row) ∧ token.settings = normalizeTokenScope row ∧
    ∀ (n : Nat) (e : Int × Option (Settings (Option String))), k < n → s.history[n]? = some e → readAt ≤ e.1

variable {token : Token} {readAt : Int}

theorem Read.later (h : Read token readAt s) (hleads : Leads b s s') : Read token readAt s' := by
  obtain ⟨hclock, k, t, row, hrow, hsettings, hbefore⟩ := h
  refine ⟨hclock.trans hleads.clock, k, t, row, getElem?_kept hleads.history hrow, hsettings, fun n e hn he => ?_⟩
  rcases Nat.lt_or_ge n s.history.length with hlt | hge
  · have hold : s.history[n]? = some s.history[n] := getElem?_eq_getElem hlt
    rw [getElem?_kept hleads.history hold] at he
    exact hbefore n e hn (hold.trans he)
  · exact hclock.trans (hleads.later n e hge he)

/-- Who publishes in time and finds no fence has read the row after every commit that is covered. -/
theorem initToken_leads {redisKeyCacheSeconds : Int} (h : Coherent s) (hread : Read token readAt s)
    (htime : s.clock ≤ readAt + b) : Leads b s (s.initToken redisKeyCacheSeconds token).2 ∧
      Coherent (s.initToken redisKeyCacheSeconds token).2 := by
  unfold Store.initToken
  split_ifs with hfence
  · exact ⟨Leads.refl s, h⟩
  have hgone (f : Key Unit) (hf : s.fence = some f) : f.expires < s.clock := by
    rw [not_isSome_iff_eq_none, live_eq_none_iff] at hfence
    exact hfence f hf
  cases hlive : live s.clock s.hash with
  | some =>
    refine quiet_leads h le_rfl rfl rfl (fun f hf => ⟨f, hf, le_rfl⟩) h.fence fun k' hk' => ?_
    obtain ⟨k, hk, -, rfl⟩ := live_eq_some_iff.mp hlive
    obtain ⟨-, rfl⟩ := put_eq_some_iff.mp hk'
    exact ⟨k, hk, rfl⟩
  | none =>
    obtain ⟨-, k, t, row, hrow, hsettings, hbefore⟩ := hread
    have hof (n : Nat) (hn : n ≤ k) (x : Key TokenHash)
        (hx : put s.clock (⟨token.settings.write, token.counters, tokenCacheScopeVersion⟩ : TokenHash)
          (s.cacheExpires redisKeyCacheSeconds) = some x) : Of n x.value.settings s := by
      obtain ⟨-, rfl⟩ := put_eq_some_iff.mp hx
      exact ⟨k, t, row, hn, hrow, by rw [hsettings]⟩
    refine ⟨⟨le_rfl, fun f hf => ⟨f, hf, le_rfl⟩, prefix_rfl, (Leads.refl (b := b) s).later, fun n hn => ?_, ?_⟩,
      h.row, h.times, h.fence, fun x hx => hof 0 (Nat.zero_le k) x hx⟩
    · refine ⟨hn.barred, fun x hx => hof n ?_ x hx⟩
      obtain ⟨e, f, he, hf, _⟩ := hn.barred
      by_contra hlate
      have hcommit := hbefore n e (Nat.not_le.mp hlate) he
      have hpast := hgone f hf
      omega
    · rintro t0 ⟨f, hf, hlate, -⟩
      refine ⟨f, hf, hlate, fun hsoon => ?_⟩
      have hpast := hgone f hf
      have hearly : s.clock ≤ t0 + tokenCacheFence := hsoon
      omega

theorem commit_leads (h : Coherent s) (f : Option Token → Option Token) :
    Leads b s (s.commit f) ∧ Coherent (s.commit f) := by
  have hhistory : s.history <+: (s.commit f).history := prefix_append _ _
  have hfence (x : Key Unit) (hx : s.fence = some x) : ∃ x', (s.commit f).fence = some x' ∧ x.expires ≤ x'.expires :=
    ⟨x, hx, le_rfl⟩
  refine ⟨⟨le_rfl, hfence, hhistory, fun n e hn he => ?_, fun n hn => ⟨hn.barred.later hhistory hfence, fun k hk => ?_⟩,
    fun _ ht => ht⟩, ⟨s.clock, getLast?_concat⟩, fun e he => ?_, h.fence, fun k hk => (h.hash k hk).later hhistory⟩
  · have hn' : n = s.history.length := by
      have hlt := (List.getElem?_eq_some_iff.mp he).1
      simp only [Store.commit, length_append, length_singleton] at hlt
      omega
    subst hn'
    rw [Store.commit, getElem?_concat_length] at he
    cases he
    exact le_rfl
  · exact (hn.hash k hk).later hhistory
  · rcases mem_append.mp he with he | he
    · exact h.times e he
    · rw [mem_singleton.mp he]
      exact le_rfl

/-- A change whose fence came first is covered by its commit. -/
theorem covered_of_cleared {a fencedAt : Int} (hab : a + b < tokenCacheFence) (hcleared : Cleared fencedAt s)
    (htime : s.clock ≤ fencedAt + a) (hb : 0 ≤ b) (f : Option Token → Option Token) :
    Covered b s.history.length (s.commit f) := by
  obtain ⟨x, hx, _, hnone⟩ := hcleared
  have hhash : s.hash = none := hnone (by omega)
  refine ⟨⟨_, x, getElem?_concat_length, hx, ?_⟩, fun k hk => by cases hhash.symm.trans hk⟩
  show s.clock + b < x.expires
  omega

end Store

/-! ## Calls -/

section Rules

variable (redisKeyCacheSeconds a b : Int)

/-- A fenced change commits within `a` of its fence, and a reader publishes within `b` of its read. -/
def InTime : Instr → Choice → Store → Prop
  | .initToken _ readAt, _, s => s.clock ≤ readAt + b
  | .commit (some fencedAt) _, _, s => s.clock ≤ fencedAt + a
  | _, _, _ => True

instance (i : Instr) (w : Choice) (s : Store) : Decidable (InTime a b i w s) := by
  unfold InTime
  split <;> infer_instance

def rules : Rules (tokens redisKeyCacheSeconds) where
  inv := Coherent
  rel := Leads b
  fair := InTime a b
  lets _ _ := True
  refl := Leads.refl
  trans _ _ _ h h' := h.trans h'
  env c _ h _ := change_leads c h

instance (i : Instr) (w : Choice) (s : Store) : Decidable ((rules redisKeyCacheSeconds a b).fair i w s) :=
  inferInstanceAs (Decidable (InTime a b i w s))

instance (c : Change) (s : Store) : Decidable ((rules redisKeyCacheSeconds a b).lets c s) :=
  inferInstanceAs (Decidable True)

variable {redisKeyCacheSeconds a b} {γ : Type} {post : γ → Store → Prop} {s o : Store}

theorem reach_leads {α : Type} (fate : Fate) (failed : α) {r : α × Store} (h : Coherent s)
    (hr : Leads b s r.2 ∧ Coherent r.2) :
    Leads b s (reach fate failed r s).2 ∧ Coherent (reach fate failed r s).2 := by
  cases fate with
  | done => exact hr
  | failed => exact ⟨Leads.refl s, h⟩
  | lost => exact hr

/-- The answer is that of a state from commit `n` on. -/
def Served (n : Nat) (r : Option Token) (s : Store) : Prop :=
  match r with
  | none => ∃ k t, n ≤ k ∧ s.history[k]? = some (t, none)
  | some token => Of n token.settings.write s

/-- The answer misses no change that was covered at the start. -/
def Current (b : Int) (o : Store) (r : Option Token) (s : Store) : Prop := ∀ n, Covered b n o → Served n r s

variable {n : Nat}

theorem Served.later {r : Option Token} {s' : Store} (h : Served n r s) (hhistory : s.history <+: s'.history) :
    Served n r s' := by
  cases r with
  | none =>
    obtain ⟨k, t, hk, hrow⟩ := h
    exact ⟨k, t, hk, getElem?_kept hhistory hrow⟩
  | some => exact Of.later h hhistory

theorem Coherent.last (h : Coherent s) :
    ∃ k t, s.history[k]? = some (t, s.row.map Token.settings) ∧ k + 1 = s.history.length := by
  obtain ⟨t, ht⟩ := h.row
  rw [getLast?_eq_getElem?] at ht
  have hlt := (List.getElem?_eq_some_iff.mp ht).1
  exact ⟨_, t, ht, by omega⟩

theorem Covered.lt (h : Covered b n s) : n < s.history.length := by
  obtain ⟨e, f, he, -⟩ := h.barred
  exact (List.getElem?_eq_some_iff.mp he).1

theorem safe_loadToken (ho : Leads b o s) : (rules redisKeyCacheSeconds a b).Safe (Current b o) loadToken s := by
  intro s1 hrel1 hinv1 w1 _
  refine ⟨Leads.refl s1, hinv1, trivial, ?_⟩
  obtain ⟨k, t, hlast, _⟩ := hinv1.last
  have hle (n : Nat) (hn : Covered b n o) : n ≤ k := by
    have hlt := ((ho.trans hrel1).covered n hn).lt
    omega
  have hread : ((tokens redisKeyCacheSeconds).exec .readRow w1 s1) = ((s1.row, s1.clock), s1) := rfl
  rw [hread]
  cases hrow : s1.row with
  | none =>
    rw [hrow] at hlast
    exact fun s2 hrel2 _ n hn => Served.later (r := none) ⟨k, t, hle n hn, hlast⟩ hrel2.history
  | some row =>
    rw [hrow] at hlast
    have hserved (n : Nat) (hn : Covered b n o) :
      Served n (some { row with settings := normalizeTokenScope row.settings }) s1 :=
      ⟨k, t, row.settings, hle n hn, hlast, rfl⟩
    have hknown : Read { row with settings := normalizeTokenScope row.settings } s1.clock s1 := by
      refine ⟨le_rfl, k, t, row.settings, hlast, rfl, fun n e hn he => ?_⟩
      have hlt := (List.getElem?_eq_some_iff.mp he).1
      omega
    intro s2 hrel2 hinv2 w2 htime
    obtain ⟨hleads, hinv2'⟩ := reach_leads w2.redis none (r := (some _, _)) hinv2
      (initToken_leads hinv2 (hknown.later hrel2) htime)
    refine ⟨hleads, hinv2', trivial, fun s3 hrel3 _ n hn => ?_⟩
    exact (hserved n hn).later (hrel2.trans (hleads.trans hrel3)).history

theorem safe_cacheGetTokenByKey (ho : Leads b o s) : (rules redisKeyCacheSeconds a b).Safe
    (fun r s => ∀ token, r = some token → Current b o (some token) s) cacheGetTokenByKey s := by
  intro s1 hrel1 hinv1 w1 _
  refine ⟨Leads.refl s1, hinv1, trivial, ?_⟩
  cases hget : ((tokens redisKeyCacheSeconds).exec .readHash w1 s1).1 with
  | none => exact fun _ _ _ token htoken => by cases htoken
  | some hash =>
    have hlive : live s1.clock s1.hash = some hash := by
      simp only [tokens, exec] at hget
      split_ifs at hget
      exact hget
    obtain ⟨x, hx, -, rfl⟩ := live_eq_some_iff.mp hlive
    simp only [Prog.bind]
    split_ifs
    · exact fun _ _ _ token htoken => by cases htoken
    · exact fun _ _ _ token htoken => by cases htoken
    · intro s2 hrel2 _ token htoken n hn
      cases htoken
      have hof := ((ho.trans hrel1).covered n hn).hash x hx
      have hserved : Of n (x.value.settings.read.write) s1 := by rwa [Settings.write_read]
      exact hserved.later hrel2.history

theorem safe_getTokenByKey {fromDB : Bool} (hinv : Coherent s) :
    (rules redisKeyCacheSeconds a b).Safe (Current b s) (getTokenByKey fromDB) s := by
  cases fromDB with
  | true => exact safe_loadToken (Leads.refl s)
  | false =>
    refine Rules.Acts.bind hinv (safe_cacheGetTokenByKey (Leads.refl s)) fun r s1 hrel hinv1 hr => ?_
    cases r with
    | none => exact safe_loadToken hrel
    | some token => exact fun s2 hrel2 hinv2 => hr s2 hrel2 hinv2 token rfl

/-- When both commands have got through, the hash was deleted under a fence that was raised since. -/
theorem safe_invalidate : (rules redisKeyCacheSeconds a b).Safe
    (fun r s' => ∀ fencedAt, r = some fencedAt → s.clock ≤ fencedAt ∧ Cleared fencedAt s' ∧
      ∀ n e, s.history[n]? = some e → e.1 + b < fencedAt + tokenCacheFence → Covered b n s')
    invalidateTokenCacheForMutation s := by
  intro s1 hrel1 hinv1 w1 _
  obtain ⟨hleads, hinv1'⟩ := reach_leads w1.redis none (r := (some s1.clock, _)) hinv1 (setFence_leads (b := b) hinv1)
  refine ⟨hleads, hinv1', trivial, ?_⟩
  cases hw : w1.redis with
  | failed | lost =>
    simp only [tokens, exec, reach, hw]
    exact fun _ _ _ fencedAt h => by cases h
  | done =>
    simp only [tokens, exec, reach, hw] at hleads ⊢
    intro s2 hrel2 hinv2 w2 _
    obtain ⟨hleads2, hinv2'⟩ := reach_leads w2.redis false (r := (true, _)) hinv2 (deleteHash_leads (b := b) hinv2)
    refine ⟨hleads2, hinv2', trivial, ?_⟩
    cases hw2 : w2.redis with
    | failed =>
      simp only [exec, reach, hw2]
      exact fun _ _ _ fencedAt h => by cases h
    | lost =>
      simp only [exec, reach, hw2]
      exact fun _ _ _ fencedAt h => by cases h
    | done =>
      simp only [exec, reach, hw2] at hleads2 ⊢
      have hset : s1.setFence.fence = some ⟨(), s1.clock + tokenCacheFence⟩ :=
        put_eq_some_iff.mpr ⟨by unfold tokenCacheFence; omega, rfl⟩
      obtain ⟨f, hf, hlate⟩ := hrel2.fence _ hset
      intro s3 hrel3 _ fencedAt h
      cases h
      have hcleared : Cleared s1.clock { s2 with hash := none } := ⟨f, hf, hlate, fun _ => rfl⟩
      refine ⟨hrel1.clock, hrel3.cleared _ hcleared, fun n e he hsoon => hrel3.covered n ⟨⟨e, f, ?_, hf, ?_⟩, ?_⟩⟩
      · exact getElem?_kept ((hrel1.trans hleads).trans hrel2).history he
      · exact hsoon.trans_le hlate
      · exact fun k hk => by cases hk

/-- What is promised of the answer to a call that found `o` when it started. -/
def Answered (b : Int) (o : Store) : Answer → Store → Prop
  | .token r, s => Current b o r s
  | .mutated (some n, true), s => Covered b n s
  | .mutated _, _ => True

def Mutated (b : Int) (r : Option Nat × Bool) (s : Store) : Prop := ∀ n, r = (some n, true) → Covered b n s

theorem safe_mutateToken (hab : a + b < tokenCacheFence) (hb : 0 ≤ b)
    (f : Option Token → Option Token) (hinv : Coherent s) :
    (rules redisKeyCacheSeconds a b).Safe (Mutated b) (mutateToken f) s := by
  refine Rules.Acts.bind hinv safe_invalidate fun fencedAt s1 _ _ hfenced => ?_
  intro s2 hrel2 hinv2 w2 htime
  obtain ⟨hleads, hinv2'⟩ := commit_leads (b := b) hinv2 f
  cases hw : w2.commit with
  | false =>
    simp only [tokens, exec, hw]
    refine ⟨Leads.refl s2, hinv2, trivial, fun _ _ _ n hn => by cases hn⟩
  | true =>
    simp only [tokens, exec, hw]
    refine ⟨hleads, hinv2', trivial, fun s3 hrel3 _ n hn => ?_⟩
    obtain ⟨hplace, hdone⟩ := Prod.mk.inj hn
    obtain ⟨fencedAt, rfl⟩ := isSome_iff_exists.mp hdone
    cases hplace
    obtain ⟨-, hcleared, -⟩ := hfenced s2 hrel2 hinv2 fencedAt rfl
    exact hrel3.covered _ (covered_of_cleared hab hcleared htime hb f)

theorem safe_commitThenInvalidate (hb : b < tokenCacheFence) (f : Option Token → Option Token) :
    (rules redisKeyCacheSeconds a b).Safe (Mutated b) (commitThenInvalidate f) s := by
  intro s1 _ hinv1 w1 _
  obtain ⟨hleads, hinv1'⟩ := commit_leads (b := b) hinv1 f
  cases hw : w1.commit with
  | false =>
    simp only [tokens, exec, hw]
    refine ⟨Leads.refl s1, hinv1, trivial, Rules.Acts.map (safe_invalidate (s := s1)) fun r s2 _ _ n hn => by cases hn⟩
  | true =>
    simp only [tokens, exec, hw]
    refine ⟨hleads, hinv1', trivial, Rules.Acts.map (safe_invalidate (s := s1.commit f)) fun r s2 _ hr n hn => ?_⟩
    obtain ⟨hplace, hdone⟩ := Prod.mk.inj hn
    obtain ⟨fencedAt, rfl⟩ := isSome_iff_exists.mp hdone
    cases hplace
    obtain ⟨hlate, -, hcovered⟩ := hr fencedAt rfl
    refine hcovered _ _ getElem?_concat_length ?_
    have hclock : s1.clock ≤ fencedAt := hlate
    show s1.clock + b < fencedAt + tokenCacheFence
    omega

theorem safe_call (ha : 0 ≤ a) (hb : 0 ≤ b) (hab : a + b < tokenCacheFence) (r : Request) (hinv : Coherent s) :
    (rules redisKeyCacheSeconds a b).Safe (Answered b s) r.call s := by
  have hnoted (r : Option Nat × Bool) (s' : Store) (h : Mutated b r s') : Answered b s (.mutated r) s' := by
    obtain ⟨_ | n, _ | _⟩ := r
    · trivial
    · trivial
    · trivial
    · exact h n rfl
  cases r with
  | get fromDB => exact (safe_getTokenByKey hinv).map fun _ _ _ h => h
  | mutate f => exact (safe_mutateToken hab hb f hinv).map fun r s' _ h => hnoted r s' h
  | commitThenInvalidate f => exact (safe_commitThenInvalidate (by omega) f).map fun r s' _ h => hnoted r s' h

/-! ## Runs -/

def start (row : Option Token) (clock : Int) : Pool Store Instr Instr.Answer Answer :=
  ⟨{ clock := clock, row := row, history := [(clock, row.map Token.settings)] }, []⟩

/-- When a change has returned, with its invalidation made, no call that starts later answers with settings from
before it. -/
theorem stale_token_not_served (redisKeyCacheSeconds a b : Int) (ha : 0 ≤ a) (hb : 0 ≤ b)
    (hab : a + b < tokenCacheFence)
    (row : Option Token) (clock : Int) (before later : List (Event Request Choice Change)) (fromDB : Bool)
    (htime : Along (tokens redisKeyCacheSeconds).step (rules redisKeyCacheSeconds a b).Fair (start row clock)
      (before ++ .start (.get fromDB) :: later)) :
    let m := tokens redisKeyCacheSeconds
    let p : Pool Store Instr Instr.Answer Answer := run m.step (start row clock) before
    let q : Pool Store Instr Instr.Answer Answer := run m.step p (.start (.get fromDB) :: later)
    (∀ r, q.calls[p.calls.length]? = some (.ret (.token r)) →
      ∀ j n : Nat, p.calls[j]? = some (.ret (.mutated (some n, true))) →
      Served n r q.shared) ∧
    ∀ (s : Store) (w : Choice) (token : Token) (readAt : Int) (hash : TokenHash), live s.clock s.hash = some hash →
      live s.clock (exec redisKeyCacheSeconds (.initToken token readAt) w s).2.hash = some hash := by
  intro m p q
  refine ⟨fun r hr j n hn => ?_, initToken_keeps redisKeyCacheSeconds⟩
  obtain ⟨hbefore, hlater⟩ := along_append.mp htime
  have hany (r : Request) (s : Store) (hinv : Coherent s) :
      (rules redisKeyCacheSeconds a b).Safe (fun _ _ => True) r.call s :=
    (safe_call ha hb hab r hinv).imp fun _ _ _ _ => trivial
  -- what a change promises does not depend on when it started
  have hnoted (r : Request) (s : Store) (hinv : Coherent s) : (rules redisKeyCacheSeconds a b).Safe
      (fun x s => ∀ n, x = .mutated (some n, true) → Covered b n s) r.call s :=
    (safe_call ha hb hab r hinv).imp fun x s _ h n hn => by subst hn; exact h
  have hstart (post : Nat → Answer → Store → Prop) :
      (rules redisKeyCacheSeconds a b).Keeps (fun _ _ _ => True) post (start row clock) := by
    refine ⟨⟨⟨clock, rfl⟩, fun e he => ?_, fun f hf => (by cases hf), fun k hk => by cases hk⟩,
      fun j q hq => by cases hq⟩
    rw [mem_singleton.mp he]
    exact le_rfl
  obtain ⟨hp, -, -⟩ := Rules.safe_run (hstart fun _ x s => ∀ n, x = .mutated (some n, true) → Covered b n s) hbefore
    fun _ r s _ _ hinv => hnoted r s hinv
  have hcovered : Covered b n p.shared := hp.safe j _ hn p.shared (Leads.refl _) hp.inv n rfl
  have hp' : (rules redisKeyCacheSeconds a b).Keeps (fun _ _ _ => True) (fun _ _ _ => True) p :=
    ⟨hp.inv, fun j q hq => (hp.safe j q hq).imp fun _ _ _ _ => trivial⟩
  obtain ⟨-, -, hanswer, -⟩ := Rules.own_run hp' (safe_call ha hb hab (.get fromDB) hp.inv) hany hlater
  exact hanswer (.token r) hr n hcovered

end Rules

/-! ## A token that is disabled -/

def enabledToken : Token := ⟨{ id := 1, userId := 7, allowIps := none }, {}⟩

def disable (row : Option Token) : Option Token := row.map fun t =>
    { t with settings := { t.settings with status := 2 } }

def turns (j n : Nat) : List (Event Request Choice Change) := List.replicate n (.advance j {})

/-- A reader has read the row before the change, and comes to publish it a second later. -/
def lateReader : List (Event Request Choice Change) :=
  [.start (.get false)] ++ turns 0 2 ++ [.start (.mutate disable)] ++ turns 1 3 ++ [.env (.tick 1000)] ++ turns 0 1

theorem stale_token_not_served_lateReader :
    let p := run (tokens 60).step (start (some enabledToken) 0) lateReader
    let q := run (tokens 60).step p (.start (.get false) :: turns 2 3)
    ∃ token, q.calls[2]? = some (.ret (.token (some token))) ∧ token.settings.status = 2 ∧
      Served 1 (some token) q.shared := by
  have hcall : ∃ token : Token, (run (tokens 60).step (run (tokens 60).step (start (some enabledToken) 0) lateReader)
      (.start (.get false) :: turns 2 3)).calls[2]? = some (.ret (.token (some token))) ∧ token.settings.status = 2 :=
    ⟨_, rfl, rfl⟩
  obtain ⟨token, htoken, hstatus⟩ := hcall
  exact ⟨token, htoken, hstatus, (stale_token_not_served 60 1000 1000 (by decide) (by decide)
    (by decide) (some enabledToken) 0
    lateReader (turns 2 3) false (by decide)).1 _ htoken 1 1 rfl⟩

end CubeRouter.Auth.TokenCache
