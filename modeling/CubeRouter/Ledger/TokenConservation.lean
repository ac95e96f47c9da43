import CubeRouter.Ledger.Conservation

/-!
# Conservation of a token's quota

A session of an organization token records in `token_remain_deducted_quota` what it has taken from the
token's `remain_quota`. This module shows that nothing is taken or given back without being recorded: for
one token `t`, `remain_quota` plus what its sessions have deducted is constant over every run of the ledger,
also when the token's unlimited flag is switched or the token is soft-deleted between two transactions.

A session is `Booked` when what it records is what it holds of the organization, or nothing for a session
opened while the token was unlimited. The movements of a booked session are exact: neither clamp at `0` of
the settlement and the refund is reached.
-/

namespace CubeRouter.Ledger

open Relational Transition Option Table

/-! ## What a movement does to `remain_quota` -/

section Movement

variable {quota moved : Int} {unscoped unlimitedQuota : Bool} {tokens tokens' : Table Token}
  {relayInfo relayInfo' : RelayInfo} {enough : Token → Bool} {unlimited limited : Token → Token}

theorem moveTokenQuotaTx_noToken
    (h : moveTokenQuotaTx unscoped tokens relayInfo quota (some unlimitedQuota) enough unlimited limited =
      .ok (moved, relayInfo', tokens')) (hnone : noToken relayInfo) : moved = 0 ∧ tokens' = tokens := by
  unfold moveTokenQuotaTx at h
  split_ifs at h with hneg hskip
  · cases h
    exact ⟨rfl, rfl⟩
  · obtain ⟨⟨r, _⟩, hload, hrest⟩ := bind_eq_ok.mp h
    rw [loadTokenForQuotaTx, if_pos hnone] at hload
    cases hload
    cases hrest
    exact ⟨rfl, rfl⟩

/-- A movement for a request that names its token by id, or none: either no `remain_quota` changes or the
one of the named token does. -/
theorem moveTokenQuotaTx_remain {delta : Int}
    (h : moveTokenQuotaTx unscoped tokens relayInfo quota (some unlimitedQuota) enough unlimited limited =
      .ok (moved, relayInfo', tokens')) (hid : 0 < relayInfo.tokenId ∨ noToken relayInfo)
    (hunlimited : ∀ t, (unlimited t).remainQuota = t.remainQuota)
    (hlimited : ∀ t, (limited t).remainQuota = t.remainQuota + delta) :
    (moved = 0 ∧ ∀ t, remainOf tokens' t = remainOf tokens t) ∨
      (moved = quota ∧ 0 < quota ∧ (∃ token, tokens.get? relayInfo.tokenId = some token ∧ enough token = true) ∧
        ∀ t, remainOf tokens' t = (remainOf tokens t).map (· + if relayInfo.tokenId = t then delta else 0)) := by
  rcases hid with hpos | hnone
  · rcases moveTokenQuotaTx_ok h with ⟨rfl, rfl, -⟩ | ⟨_, token, -, hquota, hfound, hmove⟩
    · exact .inl ⟨rfl, fun _ => rfl⟩
    · obtain ⟨hget, -, hsame⟩ := findTokenForQuota_some hfound
      obtain rfl := hsame hpos
      rcases hmove with ⟨-, rfl, rfl⟩ | ⟨-, henough, rfl, rfl⟩
      · refine .inl ⟨rfl, fun t => ?_⟩
        have hsame : ∀ t, (unlimited t).remainQuota = t.remainQuota + 0 := fun t => by rw [hunlimited, add_zero]
        rw [remainOf_modify hget hsame]
        simp
      · refine .inr ⟨rfl, hquota, ⟨token, hget, henough⟩, fun t => ?_⟩
        rw [remainOf_modify hget hlimited]
        by_cases ht : t = relayInfo.tokenId
        · rw [if_pos ht, if_pos ht.symm]
        · rw [if_neg ht, if_neg (Ne.symm ht)]
          simp
  · obtain ⟨rfl, rfl⟩ := moveTokenQuotaTx_noToken h hnone
    exact .inl ⟨rfl, fun _ => rfl⟩

theorem moveTokenQuotaTx_moved
    (h : moveTokenQuotaTx unscoped tokens relayInfo quota (some unlimitedQuota) enough unlimited limited =
      .ok (moved, relayInfo', tokens')) (hplay : relayInfo.isPlayground = false) (hid : 0 < relayInfo.tokenId) :
    moved = if unlimitedQuota then 0 else quota := by
  rcases moveTokenQuotaTx_ok h with ⟨rfl, -, hskip⟩ | ⟨_, _, -, -, -, ⟨hunl, rfl, -⟩ | ⟨hlim, -, rfl, -⟩⟩
  · have hzero : quota = 0 := by
      rcases hskip with hp | hq | hno
      · rw [hplay] at hp
        cases hp
      · exact hq
      · exact absurd hno.1 (by omega)
    rw [hzero, ite_self]
  · have hunl' : unlimitedQuota = true := hunl
    rw [hunl', if_pos rfl]
  · have hlim' : unlimitedQuota = false := hlim
    rw [hlim']
    rfl

end Movement

/-- `remain_quota` of `t` is `remain`, and stays where it was but for the amount `moved` on `tokenId`. -/
structure RemainMoved (tokens tokens' : Table Token) (tokenId : Nat) (moved : Int) : Prop where
  remain : ∀ t, remainOf tokens' t = (remainOf tokens t).map (· - if tokenId = t then moved else 0)
  nonneg : ∀ t q, remainOf tokens t = some q → 0 ≤ q → 0 ≤ q - if tokenId = t then moved else 0

theorem RemainMoved.refl (tokens : Table Token) (tokenId : Nat) : RemainMoved tokens tokens tokenId 0 :=
  ⟨fun t => by simp, fun t q _ hq => by simpa using hq⟩

variable {now moved delta : Int} {unlimitedQuota : Bool} {tokens tokens' : Table Token} {relayInfo : RelayInfo}
  {quota amount : Int} {unscoped : Bool} {relayInfo' : RelayInfo} {token? : Option (Nat × Token)}
  {identity : SessionIdentity}

theorem decreaseTokenQuotaTx_remainMoved
    (h : decreaseTokenQuotaTx now unscoped tokens relayInfo quota (some unlimitedQuota) =
      .ok (moved, relayInfo', tokens')) (hid : 0 < relayInfo.tokenId ∨ noToken relayInfo) :
    RemainMoved tokens tokens' relayInfo.tokenId moved := by
  rcases moveTokenQuotaTx_remain h hid (fun _ => rfl) (fun t => sub_eq_add_neg t.remainQuota quota)
    with ⟨rfl, hsame⟩ | ⟨rfl, -, ⟨token, hget, henough⟩, hmoved⟩
  · refine ⟨fun t => by rw [hsame t]; simp, fun t q _ hq => by simpa using hq⟩
  · refine ⟨fun t => ?_, fun t q hq hnonneg => ?_⟩
    · rw [hmoved t]
      split_ifs <;> simp [sub_eq_add_neg]
    · split_ifs with ht
      · subst ht
        rw [remainOf, hget] at hq
        have hremain : token.remainQuota = q := Option.some.inj hq
        have hle : moved ≤ token.remainQuota := by simpa using henough
        omega
      · omega

theorem increaseTokenQuotaTx_remainMoved
    (h : increaseTokenQuotaTx now unscoped tokens relayInfo quota (some unlimitedQuota) =
      .ok (moved, relayInfo', tokens')) (hid : 0 < relayInfo.tokenId ∨ noToken relayInfo) :
    RemainMoved tokens tokens' relayInfo.tokenId (-moved) := by
  rcases moveTokenQuotaTx_remain h hid (fun _ => rfl) (fun _ => rfl) with ⟨rfl, hsame⟩ | ⟨rfl, hpos, -, hmoved⟩
  · refine ⟨fun t => by rw [hsame t]; simp, fun t q _ hq => by simpa using hq⟩
  · refine ⟨fun t => ?_, fun t q hq hnonneg => ?_⟩
    · rw [hmoved t]
      split_ifs <;> simp
    · split_ifs <;> omega

theorem settleTokenQuotaTx_remainMoved
    (h : settleTokenQuotaTx now tokens relayInfo delta unlimitedQuota = .ok (moved, tokens'))
    (hid : 0 < relayInfo.tokenId ∨ noToken relayInfo) : RemainMoved tokens tokens' relayInfo.tokenId moved ∧
      (relayInfo.isPlayground = false → 0 < relayInfo.tokenId → moved = if unlimitedQuota then 0 else delta) := by
  unfold settleTokenQuotaTx at h
  split_ifs at h with hpos hneg
  · obtain ⟨⟨m, r', t⟩, hmove, hrest⟩ := bind_eq_ok.mp h
    cases hrest
    exact ⟨decreaseTokenQuotaTx_remainMoved hmove hid, moveTokenQuotaTx_moved hmove⟩
  · obtain ⟨⟨m, _, t⟩, hmove, hrest⟩ := bind_eq_ok.mp h
    cases hrest
    refine ⟨increaseTokenQuotaTx_remainMoved hmove hid, fun hplay hpos' => ?_⟩
    have hm := moveTokenQuotaTx_moved hmove hplay hpos'
    split_ifs at hm ⊢ <;> omega
  · cases h
    refine ⟨.refl _ _, fun _ _ => ?_⟩
    split_ifs <;> omega

theorem refundTokenQuotaTx_remainMoved {session : OrganizationBillingSession}
    (h : refundTokenQuotaTx now tokens relayInfo session = .ok (moved, tokens'))
    (hid : 0 < relayInfo.tokenId ∨ noToken relayInfo) : RemainMoved tokens tokens' relayInfo.tokenId (-moved) ∧
      (relayInfo.isPlayground = false → 0 < relayInfo.tokenId → session.tokenRefunded = false →
        0 ≤ session.tokenRefundQuota →
        moved = if session.tokenUnlimitedQuota then 0 else session.tokenRefundQuota) := by
  unfold refundTokenQuotaTx at h
  split_ifs at h with hrefund
  · obtain ⟨⟨m, _, t⟩, hmove, hrest⟩ := bind_eq_ok.mp h
    cases hrest
    exact ⟨increaseTokenQuotaTx_remainMoved hmove hid, fun hplay hpos _ _ => moveTokenQuotaTx_moved hmove hplay hpos⟩
  · cases h
    refine ⟨.refl _ _, fun _ _ hnot hnonneg => ?_⟩
    rw [not_and_or] at hrefund
    have hzero : session.tokenRefundQuota = 0 := by
      rcases hrefund with _ | hflag
      · omega
      · simp [hnot] at hflag
    rw [hzero, ite_self]

/-! ## Booked sessions -/

/-- A session has deducted from its token what it holds of the organization, or nothing under an unlimited
snapshot, and it has not given it back yet. -/
structure OrganizationBillingSession.Booked (s : OrganizationBillingSession) : Prop where
  wellFormed : s.WellFormed
  deducted : s.tokenRemainDeductedQuota = if s.tokenUnlimitedQuota then 0 else s.hold
  unrefunded : s.status ≠ .refunded → s.tokenRefunded = false

/-- What the sessions of token `t` have deducted from it. -/
def deducted (t : Nat) (db : DB) : Int :=
  db.sessions.sum fun s => if s.tokenId = t then s.tokenRemainDeductedQuota else 0

/-- Token `t` has `remain_quota` and deductions that add up to `total`. -/
structure TokenConserved (t : Nat) (total : Int) (db : DB) : Prop where
  booked : ∀ i s, db.sessions.get? i = some s → s.tokenId = t → s.Booked
  remain : ∃ q, remainOf db.tokens t = some q ∧ 0 ≤ q ∧ q + deducted t db = total

variable {t : Nat} {total : Int} {env : Env} {f f' : OrganizationFunding} {db db' : DB} {id : Nat}
  {s s' : OrganizationBillingSession}

theorem TokenConserved.pos (hc : TokenConserved t total db) : 0 < t := by
  obtain ⟨q, hq, -⟩ := hc.remain
  obtain ⟨_, htoken, -⟩ := map_eq_some_iff.mp hq
  exact pos_of_get? htoken

/-- A step on one session whose token moves by the change of the session's deduction. -/
theorem TokenConserved.sessionStep (hc : TokenConserved t total db) (hstep : SessionStep db db' id s s' delta)
    (hid : s'.tokenId = s.tokenId) (htokens : RemainMoved db.tokens db'.tokens s.tokenId moved)
    (hbooked : s.tokenId = t → s.Booked → s'.Booked ∧
      moved = s'.tokenRemainDeductedQuota - s.tokenRemainDeductedQuota) : TokenConserved t total db' := by
  obtain ⟨q, hq, hnonneg, _⟩ := hc.remain
  refine ⟨fun i r hr ht => ?_, q - if s.tokenId = t then moved else 0, ?_, htokens.nonneg t q hq hnonneg, ?_⟩
  · by_cases hi : i = id
    · subst hi
      obtain rfl : s' = r := mem_unique hstep.get_self hr
      have hs : s.tokenId = t := hid ▸ ht
      exact (hbooked hs (hc.booked i s hstep.get hs)).1
    · rw [hstep.get_of_ne hi] at hr
      exact hc.booked i r hr ht
  · rw [htokens.remain, hq]
    rfl
  · have hdeducted : deducted t db' = deducted t db + if s.tokenId = t then moved else 0 := by
      unfold deducted
      rw [hstep.sessions, sum_modify _ _ _ hstep.get, hid]
      split_ifs with ht
      · rw [(hbooked ht (hc.booked id s hstep.get ht)).2]
      · simp
    omega

theorem tokenQuotaRelayInfo_named (id : Nat) (s : OrganizationBillingSession) (r : RelayInfo) :
    0 < (organizationBillingTokenQuotaRelayInfo id s r).tokenId ∨
      noToken (organizationBillingTokenQuotaRelayInfo id s r) := by
  rcases Nat.eq_zero_or_pos s.tokenId with hzero | hpos
  · exact .inr ⟨hzero, rfl⟩
  · exact .inl hpos

/-! ## The transactions -/

/-- What a request of the playground promises. Its temporary token has neither id nor key, and it works on
the session it has opened, which therefore has no token. -/
def PlaygroundWithoutToken (db : DB) : LedgerOp → Prop
  | .preConsumeWithToken _ f _ => f.relayInfo.isPlayground = true → noToken f.relayInfo
  | .reserveMoreWithToken _ f _ | .settleWithTokenActual _ f _ | .refundWithToken _ f =>
    f.relayInfo.isPlayground = true →
      ∀ r ∈ (f.ensureSession db).toOption, ∀ s ∈ db.sessions.get? r.2.1, s.tokenId = 0
  | .touch .. | .claimExpired .. | .markRepairFailed .. => True

theorem notPlayground {f0 : OrganizationFunding} {mem : OrganizationBillingSession}
    (hplay : f.relayInfo.isPlayground = true →
      ∀ r ∈ (f.ensureSession db).toOption, ∀ s ∈ db.sessions.get? r.2.1, s.tokenId = 0)
    (hensure : f.ensureSession db = .ok (f0, id, mem)) (hget : db.sessions.get? id = some s)
    (hpos : 0 < s.tokenId) : (organizationBillingTokenQuotaRelayInfo id s f0.relayInfo).isPlayground = false := by
  have hsame : f0.relayInfo.isPlayground = f.relayInfo.isPlayground := (ensureSession_ok hensure).2.1.isPlayground
  show f0.relayInfo.isPlayground = false
  rw [hsame]
  by_contra hne
  have hzero := hplay (by simpa using hne) (f0, id, mem) (toOption_eq_some.mpr hensure) s hget
  omega

/-- A new session records what was deducted, whatever it had planned. -/
theorem newSession_deducted (env : Env) (relayInfo : RelayInfo) (token? : Option (Nat × Token))
    (amount : Int) (identity : SessionIdentity) (moved : Int) :
    ((newSession env relayInfo token? amount identity).deductedAs moved).tokenRemainDeductedQuota = moved := by
  unfold OrganizationBillingSession.deductedAs
  split_ifs with hne
  · rfl
  · exact (not_not.mp hne).symm

theorem newSession_booked (hamount : 0 ≤ amount)
    (hmoved : moved = if (newSession env relayInfo token? amount identity).tokenUnlimitedQuota then 0 else amount) :
    ((newSession env relayInfo token? amount identity).deductedAs moved).Booked := by
  refine ⟨newSession_wellFormed hamount, ?_, fun _ => ?_⟩
  · rw [newSession_hold, deductedAs_tokenUnlimitedQuota]
    rw [newSession_deducted, hmoved]
  · unfold OrganizationBillingSession.deductedAs
    split_ifs <;> rfl

theorem TokenConserved.created
    (hc : TokenConserved t total db) (hamount : 0 ≤ amount)
    (hplay : f.relayInfo.isPlayground = true → noToken f.relayInfo)
    (h : Created env f f' amount db db' identity relayInfo token? moved) : TokenConserved t total db' := by
  have hpos := hc.pos
  obtain ⟨q, hq, hnonneg, _⟩ := hc.remain
  obtain ⟨_, htoken⟩ := h.token
  set s := newSession env relayInfo token? amount identity with hs
  -- the session and the request name the token that was loaded
  have hnamed : (0 < relayInfo.tokenId ∨ noToken relayInfo) ∧ s.tokenId = relayInfo.tokenId ∧
      (0 < relayInfo.tokenId → relayInfo.isPlayground = false) := by
    rcases loadTokenForQuotaTx_ok h.load with ⟨rfl, rfl, hnone⟩ | ⟨id, token, rfl, rfl, hfound⟩
    · exact ⟨.inr hnone, rfl, fun hp => absurd hnone.1 (by omega)⟩
    · refine ⟨.inl (pos_of_get? (findTokenForQuota_some hfound).1), rfl, fun _ => ?_⟩
      show f.relayInfo.isPlayground = false
      by_contra hne
      have hload := h.load
      rw [loadTokenForQuotaTx, if_pos (hplay (by simpa using hne))] at hload
      have hnone : none = some (id, token) := congrArg Prod.snd (Except.ok.inj hload)
      cases hnone
  obtain ⟨hid, htokenId, hlive⟩ := hnamed
  have htokens := decreaseTokenQuotaTx_remainMoved htoken hid
  have hbooked : s.tokenId = t → (s.deductedAs moved).Booked := by
    intro ht
    have hidpos : 0 < relayInfo.tokenId := by omega
    exact newSession_booked hamount (moveTokenQuotaTx_moved htoken (hlive hidpos) hidpos)
  refine ⟨fun i r hr ht => ?_, q - if relayInfo.tokenId = t then moved else 0, ?_,
    htokens.nonneg t q hq hnonneg, ?_⟩
  · rcases h.row i r hr with ⟨-, rfl⟩ | ⟨-, hold⟩
    · rw [deductedAs_tokenId] at ht
      exact hbooked ht
    · exact hc.booked i r hold ht
  · rw [htokens.remain, hq]
    rfl
  · have hdeducted : deducted t db' = deducted t db + if relayInfo.tokenId = t then moved else 0 := by
      rw [deducted, h.sum, deductedAs_tokenId, htokenId, newSession_deducted, deducted]
    omega

theorem TokenConserved.reserveMore (hc : TokenConserved t total db)
    (hplay : PlaygroundWithoutToken db (.reserveMoreWithToken env f delta))
    (h : f.reserveMoreWithToken env delta db = .ok (f', db')) : TokenConserved t total db' := by
  have hpos := hc.pos
  rcases reserveMoreWithToken_ok h with ⟨-, -, rfl⟩ | ⟨_, _, _, _, hensure, htx⟩
  · exact hc
  · obtain ⟨s, hget, ⟨rfl, -⟩ | ⟨moved, _, hstatus, hstep, htoken, -⟩⟩ := reserveMoreTx_ok htx
    · exact hc
    · refine hc.sessionStep hstep rfl (decreaseTokenQuotaTx_remainMoved htoken (tokenQuotaRelayInfo_named ..))
        fun ht hbooked => ?_
      have hmoved := moveTokenQuotaTx_moved htoken (notPlayground hplay hensure hget (by omega))
        (show 0 < s.tokenId by omega)
      have hpre := hbooked.wellFormed.preConsumed
      have hdeducted := hbooked.deducted
      have hhold : s.hold = s.preConsumedQuota ∧
          (s.reserved env delta moved).hold = s.preConsumedQuota + delta := by
        rcases hstatus with hst | hst <;>
          simp [OrganizationBillingSession.hold, OrganizationBillingSession.reserved, hst]
      refine ⟨⟨⟨?_, hbooked.wellFormed.settled, hbooked.wellFormed.refunded⟩, ?_, hbooked.unrefunded⟩, ?_⟩
      · show 0 ≤ s.preConsumedQuota + delta
        omega
      · show s.tokenRemainDeductedQuota + moved = if s.tokenUnlimitedQuota then 0 else _
        split_ifs at hdeducted hmoved ⊢ <;> omega
      · show moved = s.tokenRemainDeductedQuota + moved - s.tokenRemainDeductedQuota
        omega

theorem TokenConserved.settle {actual : Int} (hc : TokenConserved t total db)
    (hplay : PlaygroundWithoutToken db (.settleWithTokenActual env f actual))
    (h : f.settleWithTokenActual env actual db = .ok (f', db')) : TokenConserved t total db' := by
  have hpos := hc.pos
  rcases settleWithTokenActual_ok h with ⟨-, -, rfl⟩ | ⟨hactual, _, _, _, hensure, htx⟩
  · exact hc
  · obtain ⟨s, hget, ⟨rfl, -⟩ | ⟨moved, _, hrefunded, hstep, htoken, -⟩⟩ := settleTx_ok htx
    · exact hc
    · obtain ⟨htokens, hexact⟩ := settleTokenQuotaTx_remainMoved htoken (tokenQuotaRelayInfo_named ..)
      refine hc.sessionStep hstep rfl htokens fun ht hbooked => ?_
      have hmoved := hexact (notPlayground hplay hensure hget (by omega)) (show 0 < s.tokenId by omega)
      have hdeducted := hbooked.deducted
      have hhold : s.hold = s.preConsumedQuota := by
        unfold OrganizationBillingSession.hold
        split <;> first | rfl | contradiction
      -- the deduction ends at the settled amount, so the clamp is not reached
      have hend : s.tokenRemainDeductedQuota + moved = if s.tokenUnlimitedQuota then 0 else actual := by
        split_ifs at hdeducted hmoved ⊢ <;> omega
      have hclamp : (s.settledAs env.now actual moved).tokenRemainDeductedQuota
          = s.tokenRemainDeductedQuota + moved := by
        have hnot : ¬ s.tokenRemainDeductedQuota + moved < 0 := by
          rw [hend]
          split_ifs <;> omega
        exact if_neg hnot
      refine ⟨⟨⟨hbooked.wellFormed.preConsumed, hactual, fun _ => hbooked.wellFormed.refunded hrefunded⟩, ?_,
        fun _ => hbooked.unrefunded hrefunded⟩, ?_⟩
      · rw [hclamp, hend]
        rfl
      · omega

theorem TokenConserved.refund (hc : TokenConserved t total db)
    (hplay : PlaygroundWithoutToken db (.refundWithToken env f))
    (h : f.refundWithToken env db = .ok (f', db')) : TokenConserved t total db' := by
  have hpos := hc.pos
  rcases refundWithToken_ok h with ⟨-, -, rfl⟩ | ⟨_, _, _, hensure, htx⟩
  · exact hc
  · obtain ⟨s, hget, ⟨rfl, -⟩ | ⟨moved, hrefunded, hstep, htoken, -⟩⟩ := refundTx_ok htx
    · exact hc
    · obtain ⟨htokens, hexact⟩ := refundTokenQuotaTx_remainMoved htoken (tokenQuotaRelayInfo_named ..)
      refine hc.sessionStep hstep rfl htokens fun ht hbooked => ?_
      have hdeducted := hbooked.deducted
      have hhold := hbooked.wellFormed.hold_nonneg
      have hquota := refundQuota_eq_hold hbooked.wellFormed hrefunded
      have hbasis : s.tokenRefundQuota = s.hold := by
        unfold OrganizationBillingSession.tokenRefundQuota
        split_ifs with hunl
        · exact hquota
        · rw [hdeducted, if_neg hunl]
      have hmoved := hexact (notPlayground hplay hensure hget (by omega)) (show 0 < s.tokenId by omega)
        (hbooked.unrefunded hrefunded) (by omega)
      have hend : s.tokenRemainDeductedQuota - moved = 0 := by
        split_ifs at hdeducted hmoved <;> omega
      have hclamp : (s.refundedWith env.now moved).tokenRemainDeductedQuota = 0 := by
        have hnot : ¬ s.tokenRemainDeductedQuota - moved < 0 := by omega
        exact (if_neg hnot).trans hend
      refine ⟨⟨⟨hbooked.wellFormed.preConsumed, hbooked.wellFormed.settled, fun hne => absurd rfl hne⟩, ?_,
        fun hne => absurd rfl hne⟩, ?_⟩
      · rw [hclamp]
        exact (ite_self 0).symm
      · omega

/-- A write to a row that leaves what concerns the token as it is. -/
theorem TokenConserved.sameBooking {g : OrganizationBillingSession → OrganizationBillingSession}
    (hc : TokenConserved t total db) (hg : ∀ r, db.sessions.get? id = some r → (g r).tokenId = r.tokenId ∧
      (g r).tokenRemainDeductedQuota = r.tokenRemainDeductedQuota ∧ (r.Booked → (g r).Booked)) :
    TokenConserved t total { db with sessions := db.sessions.modify id g } := by
  obtain ⟨hbooked, hremain⟩ := hc
  have hdeducted : deducted t { db with sessions := db.sessions.modify id g } = deducted t db := by
    apply sum_modify_congr
    intro r hr
    rw [(hg r hr).1, (hg r hr).2.1]
  refine ⟨fun i r hr ht => ?_, by rw [hdeducted]; exact hremain⟩
  rw [Table.get?_modify] at hr
  split_ifs at hr with hi
  · subst hi
    obtain ⟨r0, hr0, rfl⟩ := map_eq_some_iff.mp hr
    exact (hg r0 hr0).2.2 (hbooked i r0 hr0 ((hg r0 hr0).1 ▸ ht))
  · exact hbooked i r hr ht

theorem TokenConserved.saved (hc : TokenConserved t total db) (hget : db.sessions.get? id = some s)
    (htokenId : s'.tokenId = s.tokenId)
    (hdeducted : s'.tokenRemainDeductedQuota = s.tokenRemainDeductedQuota) (hbooked : s.Booked → s'.Booked) :
    TokenConserved t total (saveSession db id s') := by
  refine hc.sameBooking fun r hr => ?_
  obtain rfl : s = r := mem_unique hget hr
  exact ⟨htokenId, hdeducted, hbooked⟩

theorem TokenConserved.touch {ttl : Int} (hc : TokenConserved t total db) :
    TokenConserved t total (touchOrganizationBillingSession env relayInfo ttl db) := by
  unfold touchOrganizationBillingSession
  split_ifs
  · exact hc
  · refine hc.sameBooking fun r _ => ?_
    split_ifs
    · exact ⟨rfl, rfl, fun h => ⟨⟨h.1.1, h.1.2, h.1.3⟩, h.2, h.3⟩⟩
    · exact ⟨rfl, rfl, fun h => h⟩

theorem TokenConserved.claim (hc : TokenConserved t total db) :
    TokenConserved t total (claimExpiredOrganizationBillingSession id now db).2 := by
  unfold claimExpiredOrganizationBillingSession
  split
  · exact hc
  · rename_i s hget
    split_ifs with hclaim
    · have hopen : s.status ≠ .refunded := by
        intro hst
        simp [OrganizationBillingSession.claimable, hst] at hclaim
      refine hc.saved hget rfl rfl fun h => ⟨⟨h.1.1, h.1.2, fun _ => h.1.3 hopen⟩, ?_, fun _ => h.3 hopen⟩
      rw [hold_claimed hclaim]
      exact h.deducted
    · exact hc

theorem TokenConserved.markFailed {message : String} (hc : TokenConserved t total db) :
    TokenConserved t total (markOrganizationBillingSessionRepairFailed id message now db).2 := by
  unfold markOrganizationBillingSessionRepairFailed
  split
  · exact hc
  · rename_i s hget
    split_ifs with hst
    · have hopen : s.status ≠ .refunded := by simp [hst]
      refine hc.saved hget rfl rfl fun h => ⟨⟨h.1.1, h.1.2, fun _ => h.1.3 hopen⟩, ?_, fun _ => h.3 hopen⟩
      have hdeducted := h.deducted
      rw [show s.hold = s.preConsumedQuota by simp [OrganizationBillingSession.hold, hst]] at hdeducted
      exact hdeducted
    · exact hc

theorem TokenConserved.apply (hc : TokenConserved t total db) (op : LedgerOp)
    (hplay : PlaygroundWithoutToken db op) : TokenConserved t total (op.apply db) := by
  cases op with
  | preConsumeWithToken =>
    refine commit_invariant hc fun f' db' h => ?_
    rcases preConsumeWithToken_ok h with ⟨-, -, rfl⟩ | ⟨-, hamount, _, -, ⟨rfl, -⟩ | hcreated⟩
    · exact hc
    · exact hc
    · obtain ⟨_, _, _, hcreated⟩ := hcreated
      exact hc.created hamount hplay hcreated
  | reserveMoreWithToken => exact commit_invariant hc fun _ _ h => hc.reserveMore hplay h
  | settleWithTokenActual => exact commit_invariant hc fun _ _ h => hc.settle hplay h
  | refundWithToken => exact commit_invariant hc fun _ _ h => hc.refund hplay h
  | touch => exact hc.touch
  | claimExpired => exact hc.claim
  | markRepairFailed => exact hc.markFailed

/-! ## Runs -/

/-- The transactions of the ledger and the two edits of a token that may fall between them. -/
inductive TokenEvent
  | ledger (op : LedgerOp)
  | setUnlimited (tokenId : Nat) (unlimitedQuota : Bool)
  | softDelete (tokenId : Nat)

def TokenEvent.apply (db : DB) : TokenEvent → DB
  | .ledger op => op.apply db
  | .setUnlimited tokenId unlimitedQuota =>
    { db with tokens := db.tokens.modify tokenId fun token => { token with unlimitedQuota } }
  | .softDelete tokenId =>
    { db with tokens := db.tokens.modify tokenId fun token => { token with deleted := true } }

def TokenEvent.PlaygroundWithoutToken (db : DB) : TokenEvent → Prop
  | .ledger op => Ledger.PlaygroundWithoutToken db op
  | .setUnlimited .. => True
  | .softDelete .. => True

theorem TokenConserved.edited {g : Token → Token} (hc : TokenConserved t total db)
    (hg : ∀ token, (g token).remainQuota = token.remainQuota) :
    TokenConserved t total { db with tokens := db.tokens.modify id g } := by
  obtain ⟨hbooked, q, hq, hnonneg, hsum⟩ := hc
  refine ⟨hbooked, q, ?_, hnonneg, hsum⟩
  rw [← hq, remainOf, remainOf, Table.get?_modify]
  split_ifs
  · rw [map_map]
    exact congrArg (Option.map · (db.tokens.get? t)) (funext hg)
  · rfl

theorem TokenConserved.event (hc : TokenConserved t total db) (e : TokenEvent)
    (hplay : e.PlaygroundWithoutToken db) : TokenConserved t total (e.apply db) := by
  cases e with
  | ledger op => exact hc.apply op hplay
  | setUnlimited | softDelete => exact hc.edited fun _ => rfl

/-- **Token quota is conserved by the ledger.** Take a token that starts with `remain_quota ≥ 0` and without
sessions, and any run of the ledger's transactions, of switches of its unlimited flag and of soft-deletes.
Then `remain_quota` plus what its sessions have deducted is what it started with, `remain_quota` is not
negative, and a refunded session has nothing deducted. -/
theorem remainQuota_add_deducted (db : DB) (t : Nat) (token : Token) (htoken : db.tokens.get? t = some token)
    (hremain : 0 ≤ token.remainQuota)
    (hnone : ∀ i s, db.sessions.get? i = some s → s.tokenId ≠ t) (events : List TokenEvent)
    (hplay : Along TokenEvent.apply TokenEvent.PlaygroundWithoutToken db events) :
    ∃ token', (run TokenEvent.apply db events).tokens.get? t = some token' ∧
      token'.remainQuota + deducted t (run TokenEvent.apply db events) = token.remainQuota ∧ 0 ≤ token'.remainQuota ∧
      ∀ i s, (run TokenEvent.apply db events).sessions.get? i = some s → s.tokenId = t →
        s.status = .refunded → s.tokenRemainDeductedQuota = 0 := by
  have hstart : TokenConserved t token.remainQuota db := by
    refine ⟨fun i s hs ht => absurd ht (hnone i s hs), token.remainQuota, ?_, hremain, ?_⟩
    · rw [remainOf, htoken]
      rfl
    · have hzero : deducted t db = 0 := by
        apply sum_eq_zero
        intro i s hs
        rw [if_neg (hnone i s hs)]
      rw [hzero, add_zero]
  have hinv : TokenConserved t token.remainQuota (run TokenEvent.apply db events) :=
    run_invariant (fun _ e h hp => h.event e hp) hstart hplay
  obtain ⟨q, hq, hnonneg, hsum⟩ := hinv.remain
  obtain ⟨token', htoken', rfl⟩ := map_eq_some_iff.mp hq
  refine ⟨token', htoken', hsum, hnonneg, fun i s hs ht hst => ?_⟩
  have hdeducted := (hinv.booked i s hs ht).deducted
  rw [hdeducted, show s.hold = 0 by simp [OrganizationBillingSession.hold, hst], ite_self]

/-- Pre-consume `100`, make the token unlimited, top up by `20`, delete the token and settle `60`. -/
def sampleTokenEvents : List TokenEvent :=
  [.ledger (.preConsumeWithToken (sampleEnv 10) ⟨sampleRequest, none, 0⟩ 100), .setUnlimited 1 true,
    .ledger (.reserveMoreWithToken (sampleEnv 11) ⟨sampleRequest, none, 0⟩ 20), .softDelete 1,
    .ledger (.settleWithTokenActual (sampleEnv 12) ⟨sampleRequest, none, 0⟩ 60)]

theorem remainQuota_add_deducted_sample :
    remainOf (run TokenEvent.apply sampleDB sampleTokenEvents).tokens 1 = some 440 ∧
    ∃ token', (run TokenEvent.apply sampleDB sampleTokenEvents).tokens.get? 1 = some token' ∧
      token'.remainQuota + deducted 1 (run TokenEvent.apply sampleDB sampleTokenEvents) = 500 ∧
      0 ≤ token'.remainQuota ∧
      ∀ i s, (run TokenEvent.apply sampleDB sampleTokenEvents).sessions.get? i = some s → s.tokenId = 1 →
        s.status = .refunded → s.tokenRemainDeductedQuota = 0 := by
  have hplay : sampleRequest.isPlayground ≠ true := by decide
  exact ⟨by decide +kernel, remainQuota_add_deducted sampleDB 1 _ rfl (by decide) (fun i s h => by cases h)
    sampleTokenEvents
    ⟨fun h => absurd h hplay, trivial, fun h => absurd h hplay, trivial, fun h => absurd h hplay, trivial⟩⟩

end CubeRouter.Ledger
