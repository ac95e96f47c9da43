import CubeRouter.Auth.OneTimeFlow

/-!
# Single use

The row of an accepted assertion stays for the retention time, and an assertion that expires within it is refused by its
expiry when the row is gone. Together with the invariant of the flows this gives single use in every run (`one_time`).
-/

namespace CubeRouter.Auth.Flow

open List Option Function

open Ledger (trimSpace)

variable {H ε : Type} {hash : String → H} {s s' : State H ε} {i : Nat} {tx : Tx ε} {token : String}
  {input : AuthFlowCreate} {flow : AuthFlow}

/-! ## Commits are what has happened -/

/-- What has been consumed, and the effects in the world, are those of the committed transactions. -/
structure CommitInv (hash : String → H) (s : State H ε) : Prop where
  world : s.world = s.order.flatMap fun i => ((s.txs i).map Tx.effects).getD []
  nodup : s.order.Nodup
  order : ∀ i, i ∈ s.order ↔ ∃ tx, s.txs i = some tx ∧ tx.status = .committed
  consumedBy : ∀ h flow t, s.rows h = some flow → flow.consumedAt = some t →
    ∃ i tx, s.txs i = some tx ∧ tx.status = .committed ∧
    ((∃ c, tx.consumed = some c ∧ hash c.token = h ∧ c.at_ = t) ∨ ∃ c ∈ tx.claims, hash c.key = h ∧ c.at_ = t)

theorem CommitInv.of_same (h : CommitInv hash s) (hworld : s'.world = s.world) (horder : s'.order = s.order)
    (hcommitted : ∀ i tx, tx.status = .committed → (s'.txs i = some tx ↔ s.txs i = some tx))
    (hrows : ∀ h flow t, s'.rows h = some flow → flow.consumedAt = some t → s.rows h = some flow) :
    CommitInv hash s' := by
  have hiff (i : Nat) (tx : Tx ε) : s'.txs i = some tx ∧ tx.status = .committed ↔ s.txs i = some tx ∧
    tx.status = .committed :=
    and_congr_left (hcommitted i tx)
  constructor
  · rw [hworld, horder, h.world]
    refine flatMap_congr fun i hi => ?_
    obtain ⟨tx, htx, hstatus⟩ := (h.order i).mp hi
    rw [htx, (hcommitted i tx hstatus).mpr htx]
  · rw [horder]
    exact h.nodup
  · intro i
    rw [horder, h.order]
    simp [hiff]
  · intro k flow t hrow ht
    obtain ⟨i, tx, htx, hstatus, hby⟩ := h.consumedBy k flow t (hrows k flow t hrow ht) ht
    exact ⟨i, tx, (hcommitted i tx hstatus).mpr htx, hstatus, hby⟩

variable {tx' : Tx ε} {c : Claim} {now expiresAt : Time} {purpose assertion : String}

theorem CommitInv.setTx (h : CommitInv hash s) (hold : ∀ tx, s.txs i = some tx → tx.status ≠ .committed)
    (hnew : tx'.status ≠ .committed) : CommitInv hash (s.setTx i tx') := by
  refine h.of_same rfl rfl (fun j tx hstatus => ?_) fun _ _ _ hrow _ => hrow
  constructor
  · intro htx
    rcases setTx_txs htx with ⟨rfl, rfl⟩ | ⟨-, hj⟩
    · exact absurd hstatus hnew
    · exact hj
  · intro htx
    have hj : j ≠ i := fun hj => hold tx (hj ▸ htx) hstatus
    exact (update_of_ne hj _ _).trans htx

/-! ## The invariant -/

structure Inv (hash : String → H) (s : State H ε) : Prop where
  flows : FlowInv hash s
  claims : ClaimInv hash s
  commits : CommitInv hash s

theorem Inv.start (now : Time) : Inv hash ({ now } : State H ε) := by
  refine ⟨⟨nodup_nil, ?_, ?_, ?_, ?_, ?_, ?_, ?_⟩, ⟨?_, ?_, ?_, ?_, ?_, ?_⟩, ⟨rfl, nodup_nil, ?_, ?_⟩⟩
  all_goals simp [Live]

theorem Inv.setTx (h : Inv hash s) (hold : ∀ tx, s.txs i = some tx → tx.status = .active)
    (hnew : tx'.status ≠ .committed) (hflows : FlowInv hash (s.setTx i tx')) (hclaims : ClaimInv hash (s.setTx i tx')) :
    Inv hash (s.setTx i tx') := by
  refine ⟨hflows, hclaims, h.commits.setTx (fun tx htx hcommitted => ?_) hnew⟩
  cases (hold tx htx).symm.trans hcommitted

theorem FlowInv.goOn (h : FlowInv hash s) (htx : s.txs i = some tx) (hgoes : Goes tx tx')
    (hconsumed : tx'.consumed = tx.consumed) (hfound : tx'.found = tx.found) : FlowInv hash (s.setTx i tx') := by
  refine h.of_same rfl rfl (fun j tx1 c htx1 hc => ?_) fun j tx1 f htx1 hf => ?_
  · rcases setTx_txs htx1 with ⟨rfl, rfl⟩ | ⟨-, hj⟩
    · exact ⟨tx, htx, hgoes, hconsumed.symm.trans hc⟩
    · exact ⟨tx1, hj, .inl rfl, hc⟩
  · rcases setTx_txs htx1 with ⟨rfl, rfl⟩ | ⟨-, hj⟩
    · exact h.found j tx f htx (hfound.symm.trans hf)
    · exact h.found j tx1 f hj hf

theorem ClaimInv.goOn (h : ClaimInv hash s) (htx : s.txs i = some tx) (hgoes : Goes tx tx')
    (hclaims : tx'.claims = tx.claims) : ClaimInv hash (s.setTx i tx') := by
  refine h.of_same rfl le_rfl fun j tx1 htx1 => .inr ?_
  rcases setTx_txs htx1 with ⟨rfl, rfl⟩ | ⟨-, hj⟩
  · exact ⟨tx, htx, hgoes, hclaims⟩
  · exact ⟨tx1, hj, .inl rfl, rfl⟩

theorem Inv.begin {found : Option Found} (h : Inv hash s) (hnew : s.txs i = none) (hfound : ∀ f, found = some f →
      (f.token, f.flow.toAuthFlowCreate) ∈ s.issued ∧ Matches f.flow.toAuthFlowCreate f.fields) :
    Inv hash (s.setTx i { found }) := by
  refine h.setTx (fun tx htx => ?_) (fun hstatus => by cases hstatus)
    (h.flows.of_same rfl rfl (fun j tx c htx hc => ?_) fun j tx f htx hf => ?_)
    (h.claims.of_same rfl le_rfl fun j tx htx => ?_)
  · cases hnew.symm.trans htx
  · rcases setTx_txs htx with ⟨-, rfl⟩ | ⟨-, hj⟩
    · cases hc
    · exact ⟨tx, hj, .inl rfl, hc⟩
  · rcases setTx_txs htx with ⟨-, rfl⟩ | ⟨-, hj⟩
    · exact hfound f hf
    · exact h.flows.found j tx f hj hf
  · rcases setTx_txs htx with ⟨-, rfl⟩ | ⟨-, hj⟩
    · exact .inl rfl
    · exact .inr ⟨tx, hj, .inl rfl, rfl⟩

/-! ## What follows from it -/

variable {c' : Claim} {first : Time} {rows : H → Option AuthFlow} {claims : List Claim} {k : H}

/-- Within a day of its first claim an assertion is not claimed again. -/
theorem not_separated (hfirst : first ≤ c.at_) (hc : c.at_ < c.expiresAt)
    (hc' : c'.at_ < c'.expiresAt) (hday : c'.expiresAt ≤ first + authFlowDefaultCleanupRetention) :
    ¬Separated c c' := by
  rintro (hsep | hsep)
  · have hlate := (Int.add_le_add_right hfirst authFlowDefaultCleanupRetention).trans_lt (hsep.trans hc')
    exact absurd (hlate.trans_le hday) (lt_irrefl _)
  · have hlate := (Int.add_le_add_right (hfirst.trans hc.le) authFlowDefaultCleanupRetention).trans_lt (hsep.trans hc')
    exact absurd (hlate.trans_le hday) (lt_irrefl _)

theorem FlowInv.consumed_once (h : FlowInv hash s) (hinj : Function.Injective hash) (hcommits : CommitInv hash s)
    (hmem : (token, input) ∈ s.issued) (hrow : s.rows (hash token) = some flow) (t : Time) : flow.consumedAt = some t ↔
      ∃ i tx c, s.txs i = some tx ∧ tx.status = .committed ∧ tx.consumed = some c ∧ c.token = token ∧ c.at_ = t := by
  have hby (t : Time) (ht : flow.consumedAt = some t) :
      ∃ i tx c, s.txs i = some tx ∧ tx.status = .committed ∧ tx.consumed = some c ∧ c.token = token ∧ c.at_ = t := by
    obtain ⟨i, tx, htx, hcommitted, ⟨c, hc, htoken, hat⟩ | ⟨c, -, hkey, -⟩⟩ := hcommits.consumedBy _ flow t hrow ht
    · exact ⟨i, tx, c, htx, hcommitted, hc, hinj htoken, hat⟩
    · exact absurd (hinj hkey).symm (h.token_ne_key hmem c)
  refine ⟨hby t, ?_⟩
  rintro ⟨i, tx, c, htx, hcommitted, hc, rfl, rfl⟩
  obtain ⟨t, ht⟩ := ne_none_iff_exists'.mp (h.spent i tx c flow htx hcommitted hc hrow)
  -- the transaction that has marked the row is this one
  obtain ⟨j, tx', c', htx', hcommitted', hc', htoken, rfl⟩ := hby t ht
  have hlive : Live s i tx := ⟨htx, by rw [hcommitted]; decide⟩
  have hlive' : Live s j tx' := ⟨htx', by rw [hcommitted']; decide⟩
  obtain rfl := h.single j i tx' tx c' c hlive' hlive hc' hc htoken
  cases htx.symm.trans htx'
  cases hc.symm.trans hc'
  exact ht

theorem Inv.accepted_once (h : Inv hash s) {key : String}
    (hday : ∀ i tx c, s.txs i = some tx → c ∈ tx.claims → c.key = key →
      first ≤ c.at_ ∧ c.expiresAt ≤ first + authFlowDefaultCleanupRetention) {j : Nat} (hi : Live s i tx)
    (hj : Live s j tx') (hc : c ∈ tx.claims) (hc' : c' ∈ tx'.claims) (hkey : c.key = key) (hkey' : c'.key = key) :
    i = j ∧ c = c' := by
  obtain ⟨hfirst, hexpiry⟩ := hday i tx c hi.1 hc hkey
  obtain ⟨hfirst', hexpiry'⟩ := hday j tx' c' hj.1 hc' hkey'
  have htime := (h.claims.times i tx c hi.1 hc).2
  have htime' := (h.claims.times j tx' c' hj.1 hc').2
  have hij : i = j := by
    by_contra hne
    rcases h.claims.separated i j tx tx' c c' hi hj hc hc' (hkey.trans hkey'.symm) hne with hsep | hsep
    · exact not_separated hfirst htime htime' hexpiry' hsep
    · exact not_separated hfirst' htime' htime hexpiry hsep
  subst hij
  cases hi.1.symm.trans hj.1
  exact ⟨rfl, inj_on_of_nodup_map (h.claims.keys i tx hi.1) hc hc' (hkey.trans hkey'.symm)⟩

theorem Inv.unclaimed (h : Inv hash s) (hinj : Function.Injective hash) (c : Claim)
    (hback : ∀ j tx' c', s.txs j = some tx' → c' ∈ tx'.claims → c'.key = c.key → tx'.status = .rolledBack) :
    s.rows (hash c.key) = none ∧ ¬Locked hash s (hash c.key) := by
  have hnot (j : Nat) (tx' : Tx ε) (c' : Consumption) (htx' : s.txs j = some tx') (hc' : tx'.consumed = some c') :
      hash c'.token ≠ hash c.key := by
    intro heq
    obtain ⟨_, hmem, -⟩ := h.flows.valid j tx' c' htx' hc'
    exact h.flows.token_ne_key hmem c (hinj heq)
  constructor
  · cases hrow : s.rows (hash c.key) with
    | none => rfl
    | some flow =>
      cases ht : flow.consumedAt with
      | none =>
        obtain ⟨_, htoken, hmem⟩ := h.flows.flow _ flow hrow ht
        exact absurd (hinj htoken) (h.flows.token_ne_key hmem c)
      | some t =>
        obtain ⟨j, tx', htx', hcommitted, ⟨c', hc', heq, -⟩ | ⟨c', hc', heq, -⟩⟩ :=
          h.commits.consumedBy _ flow t hrow ht
        · exact absurd heq (hnot j tx' c' htx' hc')
        · cases hcommitted.symm.trans (hback j tx' c' htx' hc' (hinj heq))
  · rintro ⟨j, tx', htx', hactive, ⟨c', hc', heq⟩ | ⟨c', hc', heq⟩⟩
    · exact hnot j tx' c' htx' hc' heq
    · cases hactive.symm.trans (hback j tx' c' htx' hc' (hinj heq))

variable [DecidableEq H]

/-! ## Claims -/

theorem ClaimInv.create (h : ClaimInv hash s) (hindex : s.rows (hash token) = none)
    (hfree : ¬Locked hash s (hash token)) :
    ClaimInv hash { s with
      rows := Function.update s.rows (hash token) (some flow)
      issued := s.issued ++ [(token, input)] } := by
  have hother {k : H} (hk : k ≠ hash token) : Function.update s.rows (hash token) (some flow) k = s.rows k :=
    update_of_ne hk _ _
  refine ⟨h.exclusive, fun i tx c htx hactive hc => ?_, fun i tx c htx hcommitted hc => ?_,
    h.times, h.keys, h.separated⟩
  · have hne : hash c.key ≠ hash token := fun heq => hfree ⟨i, tx, htx, hactive, .inr ⟨c, hc, heq⟩⟩
    exact (hother hne).trans (h.pending i tx c htx hactive hc)
  · refine (h.claimed i tx c htx hcommitted hc).imp_left fun hrow => ?_
    have hne : hash c.key ≠ hash token := fun heq => by cases (heq ▸ hrow).symm.trans hindex
    exact (hother hne).trans hrow

theorem claimExternalAuthAssertion_ok
    (h : claimExternalAuthAssertion hash rows claims now purpose assertion expiresAt = .ok c) :
    c = ⟨trimSpace purpose, trimSpace assertion, expiresAt, now⟩ ∧ now < expiresAt ∧ rows (hash c.key) = none ∧
      ∀ c' ∈ claims, hash c'.key ≠ hash c.key := by
  unfold claimExternalAuthAssertion at h
  dsimp only at h
  split_ifs at h with hbad htaken
  obtain rfl := Except.ok.inj h
  rw [not_or] at htaken
  refine ⟨rfl, ?_, by simpa using htaken.1, fun c' hc' heq => htaken.2 (any_eq_true.mpr ⟨c', hc', by simpa using heq⟩)⟩
  by_contra hlate
  exact hbad (.inr (.inr hlate))

theorem ClaimInv.claim (h : ClaimInv hash s) (htx : s.txs i = some tx) (hactive : tx.status = .active)
    (hok : claimExternalAuthAssertion hash s.rows tx.claims s.now purpose assertion expiresAt = .ok c)
    (hfree : ¬LockedByOther hash s i (hash c.key)) :
    ClaimInv hash (s.setTx i { tx with claims := tx.claims ++ [c] }) := by
  obtain ⟨hc, hexpiry, hindex, hown⟩ := claimExternalAuthAssertion_ok hok
  have hat : c.at_ = s.now := by rw [hc]
  have hexpires : c.expiresAt = expiresAt := by rw [hc]
  -- what another transaction has claimed under this key is gone
  have hgone (j : Nat) (tx' : Tx ε) (c' : Claim) (hj : j ≠ i) (hlive : Live s j tx') (hc' : c' ∈ tx'.claims)
      (hkey : c'.key = c.key) : Separated c' c := by
    obtain ⟨htx', hback⟩ := hlive
    cases hstatus : tx'.status with
    | active => exact absurd ⟨j, tx', hj, htx', hstatus, .inr ⟨c', hc', by rw [hkey]⟩⟩ hfree
    | committed =>
      rcases h.claimed j tx' c' htx' hstatus hc' with hrow | hold
      · rw [hkey, hindex] at hrow
        cases hrow
      · unfold Separated
        rw [hat]
        exact hold
    | rolledBack => exact absurd hstatus hback
  have hmem {c' : Claim} (hc' : c' ∈ tx.claims ++ [c]) : c' ∈ tx.claims ∨ c' = c := by
    rwa [mem_append, mem_singleton] at hc'
  constructor
  · intro j k tx' tx'' c' c'' hj hk hactive' hactive'' hc' hc'' hkey
    rcases setTx_txs hj with ⟨hji, htx'⟩ | ⟨hne, hj'⟩ <;> rcases setTx_txs hk with ⟨hki, htx''⟩ | ⟨hne', hk'⟩
    · rw [hji, hki]
    · rw [htx'] at hc'
      rw [hji]
      rcases hmem hc' with hc' | rfl
      · exact h.exclusive i k tx tx'' c' c'' htx hk' hactive hactive'' hc' hc'' hkey
      · exact absurd ⟨k, tx'', hne', hk', hactive'', .inr ⟨c'', hc'', by rw [hkey]⟩⟩ hfree
    · rw [htx''] at hc''
      rw [hki]
      rcases hmem hc'' with hc'' | rfl
      · exact h.exclusive j i tx' tx c' c'' hj' htx hactive' hactive hc' hc'' hkey
      · exact absurd ⟨j, tx', hne, hj', hactive', .inr ⟨c', hc', by rw [hkey]⟩⟩ hfree
    · exact h.exclusive j k tx' tx'' c' c'' hj' hk' hactive' hactive'' hc' hc'' hkey
  · intro j tx' c' htx' hactive' hc'
    rcases setTx_txs htx' with ⟨rfl, rfl⟩ | ⟨-, hj⟩
    · rcases hmem hc' with hc' | rfl
      · exact h.pending j tx c' htx hactive hc'
      · exact hindex
    · exact h.pending j tx' c' hj hactive' hc'
  · intro j tx' c' htx' hcommitted hc'
    rcases setTx_txs htx' with ⟨rfl, rfl⟩ | ⟨-, hj⟩
    · cases hactive.symm.trans hcommitted
    · exact h.claimed j tx' c' hj hcommitted hc'
  · intro j tx' c' htx' hc'
    rcases setTx_txs htx' with ⟨rfl, rfl⟩ | ⟨-, hj⟩
    · rcases hmem hc' with hc' | rfl
      · exact h.times j tx c' htx hc'
      · exact ⟨hat.le, by rw [hat, hexpires]; exact hexpiry⟩
    · exact h.times j tx' c' hj hc'
  · intro j tx' htx'
    rcases setTx_txs htx' with ⟨rfl, rfl⟩ | ⟨-, hj⟩
    · rw [map_append, nodup_append]
      refine ⟨h.keys j tx htx, nodup_singleton _, fun a ha b hb => ?_⟩
      obtain ⟨c', hc', rfl⟩ := mem_map.mp ha
      rw [map_singleton, mem_singleton] at hb
      rw [hb]
      exact fun heq => hown c' hc' (by rw [heq])
    · exact h.keys j tx' hj
  · rintro j k tx' tx'' c' c'' ⟨hj, hlive⟩ ⟨hk, hlive'⟩ hc' hc'' hkey hjk
    have hself : Live s i tx := ⟨htx, by rw [hactive]; decide⟩
    rcases setTx_txs hj with ⟨hji, htx'⟩ | ⟨hne, hj'⟩ <;> rcases setTx_txs hk with ⟨hki, htx''⟩ | ⟨hne', hk'⟩
    · exact absurd (hji.trans hki.symm) hjk
    · rw [htx'] at hc'
      rcases hmem hc' with hc' | rfl
      · exact h.separated i k tx tx'' c' c'' hself ⟨hk', hlive'⟩ hc' hc'' hkey (Ne.symm hne')
      · exact .inr (hgone k tx'' c'' hne' ⟨hk', hlive'⟩ hc'' hkey.symm)
    · rw [htx''] at hc''
      rcases hmem hc'' with hc'' | rfl
      · exact h.separated j i tx' tx c' c'' ⟨hj', hlive⟩ hself hc' hc'' hkey hne
      · exact .inl (hgone j tx' c' hne ⟨hj', hlive⟩ hc' hkey)
    · exact h.separated j k tx' tx'' c' c'' ⟨hj', hlive⟩ ⟨hk', hlive'⟩ hc' hc'' hkey hjk

/-! ## Commits -/

variable (hash) in
theorem write_cases (tx : Tx ε) (rows : H → Option AuthFlow) (h : H) :
    (∃ c ∈ tx.claims, hash c.key = h ∧ tx.write hash rows h = some c.flow) ∨
    (∃ c, tx.consumed = some c ∧ hash c.token = h ∧
        tx.write hash rows h = (rows h).map fun flow => { flow with consumedAt := some c.at_ }) ∨
      (∀ c, tx.consumed = some c → hash c.token ≠ h) ∧ (∀ c ∈ tx.claims, hash c.key ≠ h) ∧
        tx.write hash rows h = rows h := by
  unfold Tx.write
  cases hfind : tx.claims.find? fun c => hash c.key = h with
  | some c => exact .inl ⟨c, mem_of_find?_eq_some hfind, by simpa using find?_some hfind, rfl⟩
  | none =>
    have hnone (c : Claim) (hc : c ∈ tx.claims) : hash c.key ≠ h := by simpa using find?_eq_none.mp hfind c hc
    right
    cases hconsumed : tx.consumed with
    | none => exact .inr ⟨fun c hc => (by cases hc), hnone, rfl⟩
    | some c =>
      dsimp only
      split_ifs with hhash
      · exact .inl ⟨c, rfl, hhash, rfl⟩
      · exact .inr ⟨fun c' hc' => by obtain rfl := some.inj hc'; exact hhash, hnone, rfl⟩

theorem FlowInv.commit (h : FlowInv hash s) (hclaim : ClaimInv hash s) (hinj : Function.Injective hash)
    (htx : s.txs i = some tx)
    (hactive : tx.status = .active) :
    FlowInv hash { s.setTx i { tx with status := .committed } with
      rows := tx.write hash s.rows
      order := s.order ++ [i]
      world := s.world ++ tx.effects } := by
  have hself : Live s i tx := ⟨htx, by rw [hactive]; decide⟩
  constructor
  · exact h.issued
  · exact h.base64
  · intro k flow hrow hnone
    rcases write_cases hash tx s.rows k with ⟨c, -, -, hwrite⟩ | ⟨c, -, -, hwrite⟩ | ⟨-, -, hwrite⟩
    · cases hwrite.symm.trans hrow
      cases hnone
    · obtain ⟨flow', -, rfl⟩ := map_eq_some_iff.mp (hwrite.symm.trans hrow)
      cases hnone
    · exact h.flow k flow (hwrite.symm.trans hrow) hnone
  · intro j tx' f htx' hf
    rcases setTx_txs htx' with ⟨rfl, rfl⟩ | ⟨-, hj⟩
    · exact h.found j tx f htx hf
    · exact h.found j tx' f hj hf
  · intro j tx' c htx' hc
    rcases setTx_txs htx' with ⟨rfl, rfl⟩ | ⟨-, hj⟩
    · exact h.valid j tx c htx hc
    · exact h.valid j tx' c hj hc
  · intro j tx' c htx' hactive' hc
    obtain ⟨hne, hj⟩ := commit_active htx' hactive'
    obtain ⟨flow, hrow, hnone⟩ := h.held j tx' c hj hactive' hc
    rcases write_cases hash tx s.rows (hash c.token) with ⟨c', hc', heq, -⟩ | ⟨c', hc', heq, -⟩ | ⟨-, -, hwrite⟩
    · exact absurd heq.symm (pending_ne_held h hclaim hj hactive' hc htx hactive hc')
    · have hlive : Live s j tx' := ⟨hj, by rw [hactive']; decide⟩
      exact absurd (h.single i j tx tx' c' c hself hlive hc' hc (hinj heq)).symm hne
    · exact ⟨flow, hwrite.trans hrow, hnone⟩
  · intro j tx' c flow htx' hcommitted hc hrow hnone
    rcases write_cases hash tx s.rows (hash c.token) with ⟨c', -, -, hwrite⟩ | ⟨c', -, -, hwrite⟩ | ⟨hown, -, hwrite⟩
    · cases hwrite.symm.trans hrow
      cases hnone
    · obtain ⟨_, -, rfl⟩ := map_eq_some_iff.mp (hwrite.symm.trans hrow)
      cases hnone
    · rcases setTx_txs htx' with ⟨rfl, rfl⟩ | ⟨-, hj⟩
      · exact hown c hc rfl
      · exact h.spent j tx' c flow hj hcommitted hc (hwrite.symm.trans hrow) hnone
  · intro j k tx' tx'' c c' hj hk hc hc' htoken
    obtain ⟨tx0, hlive, hconsumed, -⟩ := commit_live htx hactive hj
    obtain ⟨tx1, hlive', hconsumed', -⟩ := commit_live htx hactive hk
    exact h.single j k tx0 tx1 c c' hlive hlive' (hconsumed.trans hc) (hconsumed'.trans hc') htoken

theorem ClaimInv.commit (h : ClaimInv hash s) (hflow : FlowInv hash s) (hinj : Function.Injective hash)
    (htx : s.txs i = some tx)
    (hactive : tx.status = .active) :
    ClaimInv hash { s.setTx i { tx with status := .committed } with
      rows := tx.write hash s.rows
      order := s.order ++ [i]
      world := s.world ++ tx.effects } := by
  constructor
  · intro j k tx' tx'' c c' hj hk hactive' hactive'' hc hc' hkey
    obtain ⟨-, hj⟩ := commit_active hj hactive'
    obtain ⟨-, hk⟩ := commit_active hk hactive''
    exact h.exclusive j k tx' tx'' c c' hj hk hactive' hactive'' hc hc' hkey
  · intro j tx' c htx' hactive' hc
    obtain ⟨hne, hj⟩ := commit_active htx' hactive'
    rcases write_cases hash tx s.rows (hash c.key) with ⟨c', hc', heq, -⟩ | ⟨c', hc', heq, -⟩ | ⟨-, -, hwrite⟩
    · exact absurd (h.exclusive i j tx tx' c' c htx hj hactive hactive' hc' hc (hinj heq)).symm hne
    · exact absurd heq (pending_ne_held hflow h htx hactive hc' hj hactive' hc)
    · exact hwrite.trans (h.pending j tx' c hj hactive' hc)
  · intro j tx' c htx' hcommitted hc
    rcases write_cases hash tx s.rows (hash c.key) with ⟨c', hc', heq, hwrite⟩ |
      ⟨c', hc', heq, hwrite⟩ | ⟨-, hother, hwrite⟩
    all_goals rcases setTx_txs htx' with ⟨rfl, rfl⟩ | ⟨-, hj⟩
    -- the claim is the one that has been written
    · have hsame := inj_on_of_nodup_map (h.keys j tx htx) hc' hc (hinj heq)
      rw [hsame] at hwrite
      exact .inl hwrite
    · refine (h.claimed j tx' c hj hcommitted hc).imp_left fun hrow => ?_
      have hnone := h.pending i tx c' htx hactive hc'
      rw [heq, hrow] at hnone
      cases hnone
    · exact absurd heq (pending_ne_held hflow h htx hactive hc' htx hactive hc)
    · refine (h.claimed j tx' c hj hcommitted hc).imp_left fun hrow => ?_
      obtain ⟨_, hrow', hnone⟩ := hflow.held i tx c' htx hactive hc'
      rw [heq, hrow] at hrow'
      cases hrow'
      cases hnone
    · exact absurd rfl (hother c hc)
    · exact (h.claimed j tx' c hj hcommitted hc).imp_left hwrite.trans
  · intro j tx' c htx' hc
    rcases setTx_txs htx' with ⟨rfl, rfl⟩ | ⟨-, hj⟩
    · exact h.times j tx c htx hc
    · exact h.times j tx' c hj hc
  · intro j tx' htx'
    rcases setTx_txs htx' with ⟨rfl, rfl⟩ | ⟨-, hj⟩
    · exact h.keys j tx htx
    · exact h.keys j tx' hj
  · intro j k tx' tx'' c c' hj hk hc hc' hkey hne
    obtain ⟨tx0, hlive, -, hclaims⟩ := commit_live htx hactive hj
    obtain ⟨tx1, hlive', -, hclaims'⟩ := commit_live htx hactive hk
    exact h.separated j k tx0 tx1 c c' hlive hlive' (hclaims ▸ hc) (hclaims' ▸ hc') hkey hne

/-! ## The clean-up -/

theorem deletesAuthFlow_iff : deletesAuthFlow now flow = true ↔ flow.expiresAt + authFlowDefaultCleanupRetention < now ∨
      ∃ t, flow.consumedAt = some t ∧ t + authFlowDefaultCleanupRetention < now := by
  unfold deletesAuthFlow
  cases flow.consumedAt <;> simp [lt_sub_iff_add_lt]

theorem FlowInv.cleanup (h : FlowInv hash s) (hfree : ¬Locked hash s k) :
    FlowInv hash { s with rows := Function.update s.rows k none } := by
  have hold {k' : H} {flow : AuthFlow} (hrow : Function.update s.rows k none k' = some flow) :
    s.rows k' = some flow := by
    by_cases hk : k' = k
    · subst hk
      rw [update_self] at hrow
      cases hrow
    · rwa [update_of_ne hk] at hrow
  refine ⟨h.issued, h.base64, fun k' flow hrow => h.flow k' flow (hold hrow), h.found, h.valid, ?_,
    fun i tx c flow htx hcommitted hc hrow => h.spent i tx c flow htx hcommitted hc (hold hrow), h.single⟩
  intro i tx c htx hactive hc
  obtain ⟨flow, hrow, hnone⟩ := h.held i tx c htx hactive hc
  have hne : hash c.token ≠ k := fun heq => hfree ⟨i, tx, htx, hactive, .inl ⟨c, hc, heq⟩⟩
  exact ⟨flow, (update_of_ne hne _ _).trans hrow, hnone⟩

theorem ClaimInv.cleanup (h : ClaimInv hash s) (hnow : now ≤ s.now) (hrow : s.rows k = some flow)
    (hdeletes : deletesAuthFlow now flow = true) : ClaimInv hash { s with rows := Function.update s.rows k none } := by
  refine ⟨h.exclusive, fun i tx c htx hactive hc => ?_, fun i tx c htx hcommitted hc => ?_,
    h.times, h.keys, h.separated⟩
  · by_cases hk : hash c.key = k
    · dsimp only
      rw [hk, update_self]
    · exact (update_of_ne hk _ _).trans (h.pending i tx c htx hactive hc)
  · rcases h.claimed i tx c htx hcommitted hc with hclaimed | hgone
    · by_cases hk : hash c.key = k
      · rw [hk, hrow] at hclaimed
        cases hclaimed
        rcases deletesAuthFlow_iff.mp hdeletes with hexpired | ⟨t, ht, hconsumed⟩
        · exact .inr (.inr (hexpired.trans_le hnow))
        · cases ht
          exact .inr (.inl (hconsumed.trans_le hnow))
      · exact .inl ((update_of_ne hk _ _).trans hclaimed)
    · exact .inr hgone

theorem CommitInv.commit (h : CommitInv hash s) (htx : s.txs i = some tx) (hactive : tx.status = .active) :
    CommitInv hash { s.setTx i { tx with status := .committed } with
      rows := tx.write hash s.rows
      order := s.order ++ [i]
      world := s.world ++ tx.effects } := by
  have hself : (s.setTx i { tx with status := .committed }).txs i = some { tx with status := .committed } :=
    update_self i _ s.txs
  have hnot : i ∉ s.order := by
    intro hi
    obtain ⟨tx', htx', hcommitted⟩ := (h.order i).mp hi
    cases htx.symm.trans htx'
    cases hactive.symm.trans hcommitted
  have hother {j : Nat} (hj : j ∈ s.order) : (s.setTx i { tx with status := .committed }).txs j = s.txs j :=
    update_of_ne (ne_of_mem_of_not_mem hj hnot) _ _
  have hstays {j : Nat} {tx' : Tx ε} (htx' : s.txs j = some tx') (hcommitted : tx'.status = .committed) :
      (s.setTx i { tx with status := .committed }).txs j = some tx' :=
    (hother ((h.order j).mpr ⟨tx', htx', hcommitted⟩)).trans htx'
  constructor
  · rw [flatMap_append, flatMap_singleton, hself, h.world]
    refine congrArg (· ++ tx.effects) (flatMap_congr fun j hj => ?_)
    rw [hother hj]
  · refine nodup_append.mpr ⟨h.nodup, nodup_singleton _, fun a ha b hb hab => ?_⟩
    rw [mem_singleton] at hb
    exact hnot (hb ▸ hab ▸ ha)
  · intro j
    constructor
    · intro hj
      rcases mem_append.mp hj with hj | hj
      · obtain ⟨tx', htx', hcommitted⟩ := (h.order j).mp hj
        exact ⟨tx', hstays htx' hcommitted, hcommitted⟩
      · obtain rfl := mem_singleton.mp hj
        exact ⟨_, hself, rfl⟩
    · rintro ⟨tx', htx', hcommitted⟩
      rcases setTx_txs htx' with ⟨rfl, -⟩ | ⟨-, hj⟩
      · exact mem_append_right _ (mem_singleton.mpr rfl)
      · exact mem_append_left _ ((h.order j).mpr ⟨tx', hj, hcommitted⟩)
  · intro k flow t hrow ht
    rcases write_cases hash tx s.rows k with ⟨c, hc, heq, hwrite⟩ | ⟨c, hc, heq, hwrite⟩ | ⟨-, -, hwrite⟩
    · cases hwrite.symm.trans hrow
      exact ⟨i, _, hself, rfl, .inr ⟨c, hc, heq, some.inj ht⟩⟩
    · obtain ⟨_, -, rfl⟩ := map_eq_some_iff.mp (hwrite.symm.trans hrow)
      exact ⟨i, _, hself, rfl, .inl ⟨c, hc, heq, some.inj ht⟩⟩
    · obtain ⟨j, tx', htx', hcommitted, hby⟩ := h.consumedBy k flow t (hwrite.symm.trans hrow) ht
      exact ⟨j, tx', hstays htx' hcommitted, hcommitted, hby⟩

/-! ## Every run -/

theorem Inv.step (h : Inv hash s) (hinj : Function.Injective hash) (hstep : Step hash s s') : Inv hash s' := by
  have honly {tx : Tx ε} {i : Nat} (htx : s.txs i = some tx) (hactive : tx.status = .active) (tx' : Tx ε)
      (htx' : s.txs i = some tx') : tx'.status = .active := by
    cases htx.symm.trans htx'
    exact hactive
  have hactive_ne {tx : Tx ε} (hactive : tx.status = .active) : tx.status ≠ .committed := by
    rw [hactive]
    decide
  cases hstep with
  | tick _ hnow =>
    exact ⟨h.flows.of_same rfl rfl (fun i tx c htx hc => ⟨tx, htx, .inl rfl, hc⟩) h.flows.found,
      h.claims.of_same rfl hnow fun i tx htx => .inr ⟨tx, htx, .inl rfl, rfl⟩,
      h.commits.of_same rfl rfl (fun _ _ _ => Iff.rfl) fun _ _ _ hrow _ => hrow⟩
  | create token input _ hok hbase64 hfresh hindex hfree =>
    refine ⟨h.flows.create hinj hok hbase64 hfresh hindex, h.claims.create hindex hfree,
      h.commits.of_same rfl rfl (fun _ _ _ => Iff.rfl) fun k flow' t hrow ht => ?_⟩
    obtain rfl := createAuthFlow_ok hok
    by_cases hk : k = hash token
    · subst hk
      dsimp only at hrow
      rw [update_self] at hrow
      cases hrow
      cases ht
    · rwa [← update_of_ne hk (some { input with }) s.rows]
  | begin i hnew => exact h.begin hnew fun f hf => by cases hf
  | find i _ m _ hnew hok =>
    refine h.begin hnew fun f hf => ?_
    cases hf
    obtain ⟨htoken, hrow, hmatches, hnone⟩ := findAuthFlow_ok hok
    obtain ⟨t, ht, hmem⟩ := h.flows.flow _ _ hrow hnone
    obtain rfl := hinj ht
    exact ⟨htoken ▸ hmem, hmatches⟩
  | mark i _ _ c htx hactive hfound hfree hok =>
    refine h.setTx (honly htx hactive) (hactive_ne hactive) (h.flows.mark hinj htx hactive hfound hfree hok)
      (h.claims.goOn htx (.inl rfl) rfl)
  | act i _ e htx hactive =>
    exact h.setTx (honly htx hactive) (hactive_ne hactive) (h.flows.goOn htx (.inl rfl) rfl rfl)
      (h.claims.goOn htx (.inl rfl) rfl)
  | claim i _ _ _ _ c htx hactive _ hok hfree =>
    exact h.setTx (honly htx hactive) (hactive_ne hactive) (h.flows.goOn htx (.inl rfl) rfl rfl)
      (h.claims.claim htx hactive hok hfree)
  | commit i _ htx hactive =>
    exact ⟨h.flows.commit h.claims hinj htx hactive, h.claims.commit h.flows hinj htx hactive,
      h.commits.commit htx hactive⟩
  | rollback i _ htx hactive =>
    exact h.setTx (honly htx hactive) (fun hstatus => by cases hstatus) (h.flows.goOn htx (.inr rfl) rfl rfl)
      (h.claims.goOn htx (.inr rfl) rfl)
  | cleanup k _ _ hnow hrow hfree hdeletes =>
    refine ⟨h.flows.cleanup hfree, h.claims.cleanup hnow hrow hdeletes,
      h.commits.of_same rfl rfl (fun _ _ _ => Iff.rfl) fun k' flow' t hrow' _ => ?_⟩
    by_cases hk : k' = k
    · subst hk
      dsimp only at hrow'
      rw [update_self] at hrow'
      cases hrow'
    · rwa [← update_of_ne hk none s.rows]

theorem Reachable.inv (hinj : Function.Injective hash) (h : Reachable hash s) : Inv hash s := by
  induction h with
  | start now => exact Inv.start now
  | step _ hstep ih => exact ih.step hinj hstep

/-! ## Single use -/

structure OneTime (hash : String → H) (s : State H ε) : Prop where
  /-- One call consumes a token, whether it has been committed yet or not. -/
  once : ∀ i j tx tx' c c', Live s i tx → Live s j tx' → tx.consumed = some c → tx'.consumed = some c' →
    c.token = c'.token → i = j
  valid : ∀ i tx c, s.txs i = some tx → tx.consumed = some c →
    ∃ input, (c.token, input) ∈ s.issued ∧ Matches input c.fields ∧ c.at_ < input.expiresAt
  /-- The effects in the world are those of the committed transactions, -/
  effects : s.world = (s.order.flatMap fun i => ((s.txs i).map Tx.effects).getD []) ∧ s.order.Nodup ∧
    ∀ i, i ∈ s.order ↔ ∃ tx, s.txs i = some tx ∧ tx.status = .committed
  /-- and the row of a token is consumed, as long as it is there, by a committed transaction and no other. -/
  consumption : ∀ token input flow, (token, input) ∈ s.issued → s.rows (hash token) = some flow →
    ∀ t, flow.consumedAt = some t ↔
      ∃ i tx c, s.txs i = some tx ∧ tx.status = .committed ∧ tx.consumed = some c ∧ c.token = token ∧ c.at_ = t
  assertions : ∀ key first, (∀ i tx c, s.txs i = some tx → c ∈ tx.claims → c.key = key →
      first ≤ c.at_ ∧ c.expiresAt ≤ first + 24 * 3600 * 1000000000) →
    ∀ i j tx tx' c c', Live s i tx → Live s j tx' → c ∈ tx.claims → c' ∈ tx'.claims → c.key = key →
      c'.key = key → i = j ∧ c = c'
  claimable : ∀ i tx purpose assertion expiresAt, s.txs i = some tx → tx.status = .active →
    let c : Claim := ⟨trimSpace purpose, trimSpace assertion, expiresAt, s.now⟩
    c.purpose ≠ "" → c.assertion ≠ "" → s.now < expiresAt →
    (∀ j tx' c', s.txs j = some tx' → c' ∈ tx'.claims → c'.key = c.key → tx'.status = .rolledBack) →
    claimExternalAuthAssertion hash s.rows tx.claims s.now purpose assertion expiresAt = .ok c ∧
      ¬LockedByOther hash s i (hash c.key)

theorem claimExternalAuthAssertion_of_free
    (hpurpose : trimSpace purpose ≠ "") (hassertion : trimSpace assertion ≠ "") (hnow : now < expiresAt)
    (hrow : rows (hash (Claim.mk (trimSpace purpose) (trimSpace assertion) expiresAt now).key) = none)
    (hown : ∀ c ∈ claims, hash c.key ≠ hash (Claim.mk (trimSpace purpose) (trimSpace assertion) expiresAt now).key) :
    claimExternalAuthAssertion hash rows claims now purpose assertion expiresAt =
      .ok ⟨trimSpace purpose, trimSpace assertion, expiresAt, now⟩ := by
  unfold claimExternalAuthAssertion
  rw [if_neg, if_neg]
  · rw [hrow]
    simpa using hown
  · rintro (h | h | h)
    · exact hpurpose h
    · exact hassertion h
    · exact h hnow

/-- Flows and external assertions are used once, in every run. -/
theorem one_time (hash : String → H) (hinj : Function.Injective hash) (s : State H ε) (h : Reachable hash s) :
    OneTime hash s := by
  have hinv := h.inv hinj
  refine ⟨hinv.flows.single, hinv.flows.valid, ⟨hinv.commits.world, hinv.commits.nodup, hinv.commits.order⟩, ?_, ?_, ?_⟩
  · intro token input flow hmem hrow t
    exact hinv.flows.consumed_once hinj hinv.commits hmem hrow t
  · intro key first hday i j tx tx' c c' hi hj hc hc' hkey hkey'
    exact hinv.accepted_once hday hi hj hc hc' hkey hkey'
  · intro i tx purpose assertion expiresAt htx hactive c hpurpose hassertion hnow hback
    obtain ⟨hrow, hfree⟩ := hinv.unclaimed hinj c hback
    refine ⟨claimExternalAuthAssertion_of_free hpurpose hassertion hnow hrow fun c' hc' heq => ?_,
      fun ⟨j, tx', _, hlocks⟩ => hfree ⟨j, tx', hlocks⟩⟩
    cases hactive.symm.trans (hback i tx c' htx hc' (hinj heq))

omit [DecidableEq H]

/-- All transactions but `i` are committed. -/
def Alone (txs : Nat → Option (Tx ε)) (i : Nat) : Prop := ∀ j tx, txs j = some tx → j = i ∨ tx.status = .committed

variable {txs : Nat → Option (Tx ε)}

theorem Alone.update (h : Alone txs i) (tx : Tx ε) : Alone (Function.update txs i (some tx)) i := by
  intro j tx' htx'
  by_cases hj : j = i
  · exact .inl hj
  · exact h j tx' ((update_of_ne hj _ _).symm.trans htx')

theorem Alone.commit (h : Alone txs i) (htx : tx.status = .committed) (k : Nat) :
    Alone (Function.update txs i (some tx)) k := by
  intro j tx' htx'
  rcases h.update tx j tx' htx' with rfl | hcommitted
  · rw [update_self] at htx'
    exact .inr (some.inj htx' ▸ htx)
  · exact .inr hcommitted

theorem not_locked_of_alone (h : ∀ i, Alone s.txs i) : ¬Locked hash s k := by
  rintro ⟨j, tx', htx', hactive, -⟩
  cases ((h (j + 1) j tx' htx').resolve_left j.lt_succ_self.ne).symm.trans hactive

theorem Alone.not_locked (h : Alone s.txs i) : ¬LockedByOther hash s i k := by
  rintro ⟨j, tx', hj, htx', hactive, -⟩
  cases ((h j tx' htx').resolve_left hj).symm.trans hactive

/-- A flow is consumed by a login, and an assertion is claimed twice, with a clean-up between. -/
theorem one_time_login : ∃ s : State String Nat, Reachable id s ∧ s.world = [7, 8, 9] ∧ OneTime id s := by
  have hstart : Reachable id ({ now := 0 } : State String Nat) := .start 0
  have hcreate := hstart.step
    (.create _ "a" { purpose := "login", expiresAt := 60 } _ rfl (by decide) (by decide) rfl fun
      ⟨i, tx, htx, _⟩ => by cases htx)
  have halone : Alone (fun _ : Nat => (none : Option (Tx Nat))) 0 := fun j tx htx => by cases htx
  have hfind := hcreate.step (.find _ 0 "a" { purpose := "login" } _ rfl rfl)
  have hmark := hfind.step (.mark _ 0 _ _ _ rfl rfl rfl (halone.update _).not_locked rfl)
  have hact := hmark.step (.act _ 0 _ 7 rfl rfl rfl)
  have hcommit := hact.step (.commit _ 0 _ rfl rfl rfl)
  have hbegin := hcommit.step (.begin _ 1 rfl)
  have hclaim := hbegin.step (.claim _ 1 _ "oidc" "nonce" 60 _ rfl rfl rfl rfl
    (Alone.not_locked (((((halone.update _).update _).update _).commit (by rfl) 1).update _)))
  have hact' := hclaim.step (.act _ 1 _ 8 rfl rfl rfl)
  have hcommit' := hact'.step (.commit _ 1 _ rfl rfl rfl)
  have htick := hcommit'.step (.tick _ (authFlowDefaultCleanupRetention + 100) (by decide))
  have hcleanup := htick.step (.cleanup _ "external:oidc:nonce" _ _ le_rfl rfl
    (not_locked_of_alone (Alone.commit
    (((((((halone.update _).update _).update _).commit (by rfl) 1).update _).update _).update _) (by rfl))) rfl)
  have hbegin'' := hcleanup.step (.begin _ 2 rfl)
  have hclaim'' := hbegin''.step (.claim _ 2 _ "oidc" "nonce" (authFlowDefaultCleanupRetention + 160) _ rfl rfl rfl rfl
    (Alone.not_locked ((Alone.commit
    (((((((halone.update _).update _).update _).commit (by rfl) 1).update _).update _).update _) (by rfl) 2).update _)))
  have hact'' := hclaim''.step (.act _ 2 _ 9 rfl rfl rfl)
  have hcommit'' := hact''.step (.commit _ 2 _ rfl rfl rfl)
  exact ⟨_, hcommit'', rfl, one_time id injective_id _ hcommit''⟩

end CubeRouter.Auth.Flow
