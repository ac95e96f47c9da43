import CubeRouter.Billing.Accounts

/-!
# What the account operations move

Each balance of a personal request is a column plus the movements that batch update has recorded for it.
`WalletMoved` and `TokenMoved` say that one balance moved by `delta` and everything else stayed; the
lemmas below give one of them for each operation of `Accounts`, in every setting, so that the proofs
about sessions never look at the settings again.
-/

namespace CubeRouter.Billing

open Relational Transition Ledger

variable {st : Settings} {w w' w'' : World} {id : Nat} {quota delta delta' : Int}

/-! ## The wallet -/

/-- The wallet `id` moved by `delta`. The column is where it moved when batch update is off, which the
ceiling of `increaseUserQuota` looks at. -/
structure WalletMoved (st : Settings) (w w' : World) (id : Nat) (delta : Int) : Prop where
  wallet : w'.walletQuota id = w.walletQuota id + delta
  stored : ∀ u, w.users.get? id = some u → ∃ u', w'.users.get? id = some u' ∧
    (st.batchUpdateEnabled = false → u'.quota = u.quota + delta)
  frame : ∃ users pendingUserQuota, w' = { w with users, pendingUserQuota }

theorem WalletMoved.refl (st : Settings) (w : World) (id : Nat) : WalletMoved st w w id 0 :=
  ⟨(add_zero _).symm, fun u hu => ⟨u, hu, fun _ => (add_zero _).symm⟩, _, _, rfl⟩

theorem WalletMoved.tokens (h : WalletMoved st w w' id delta) : w'.tokens = w.tokens := by
  obtain ⟨_, _, rfl⟩ := h.frame
  rfl

theorem WalletMoved.pendingTokenQuota (h : WalletMoved st w w' id delta) :
    w'.pendingTokenQuota = w.pendingTokenQuota := by
  obtain ⟨_, _, rfl⟩ := h.frame
  rfl

theorem recordUserQuota_moved (hbatch : st.batchUpdateEnabled = true) :
    WalletMoved st w (w.recordUserQuota id delta) id delta := by
  refine ⟨?_, fun u hu => ⟨u, hu, fun hoff => ?_⟩, _, _, rfl⟩
  · simp [World.walletQuota, World.recordUserQuota, add_assoc]
  · rw [hbatch] at hoff
    cases hoff

variable {u : User} {ok : Bool} {answer : CacheAnswer} {now : Int} {relayInfo : RelayInfo}

theorem addUserQuota_moved (hu : w.users.get? id = some u) : WalletMoved st w (w.addUserQuota id delta) id delta := by
  have hrow : (w.addUserQuota id delta).users.get? id = some { u with quota := u.quota + delta } := by
    simp [World.addUserQuota, hu]
  refine ⟨?_, fun u' hu' => ⟨_, hrow, fun _ => ?_⟩, _, _, rfl⟩
  · rw [World.walletQuota, World.walletQuota, hrow, hu]
    show u.quota + delta + w.pendingUserQuota id = u.quota + w.pendingUserQuota id + delta
    omega
  · obtain rfl : u = u' := Option.mem_unique hu hu'
    rfl

theorem decreaseUserQuota_moved (st : Settings) (hu : w.users.get? id = some u) (hquota : 0 ≤ quota) :
    ∃ w', decreaseUserQuota st w id quota = .ok w' ∧ WalletMoved st w w' id (-quota) := by
  unfold decreaseUserQuota
  rw [if_neg (not_lt.mpr hquota)]
  by_cases hbatch : st.batchUpdateEnabled = true
  · rw [if_pos hbatch]
    exact ⟨_, rfl, recordUserQuota_moved hbatch⟩
  · rw [if_neg hbatch]
    exact ⟨_, rfl, addUserQuota_moved hu⟩

theorem increaseUserQuota_moved (hu : w.users.get? id = some u) (hquota : 0 ≤ quota) (hmax : quota ≤ maxWalletQuota)
    (hroom : st.batchUpdateEnabled = false → u.quota + quota ≤ maxWalletQuota) :
    ∃ w', increaseUserQuota st w id quota = .ok w' ∧ WalletMoved st w w' id quota := by
  unfold increaseUserQuota
  rw [if_neg (not_lt.mpr hquota), if_neg (not_lt.mpr hmax)]
  by_cases hbatch : st.batchUpdateEnabled = true
  · rw [if_pos hbatch]
    exact ⟨_, rfl, recordUserQuota_moved hbatch⟩
  · have hle := hroom (by simpa using hbatch)
    rw [if_neg hbatch, hu]
    simp only
    rw [if_pos (by omega)]
    exact ⟨_, rfl, addUserQuota_moved hu⟩

theorem reserveUserQuotaDB_moved (h : reserveUserQuotaDB w id quota = (ok, w')) :
    (ok = true ∧ WalletMoved st w w' id (-quota)) ∨ (ok = false ∧ w' = w) := by
  unfold reserveUserQuotaDB at h
  split at h
  · cases h
    exact .inr ⟨rfl, rfl⟩
  · rename_i u hu
    split at h
    · cases h
      exact .inl ⟨rfl, addUserQuota_moved hu⟩
    · cases h
      exact .inr ⟨rfl, rfl⟩

theorem persistUserQuotaDelta_moved (h : persistUserQuotaDelta st w id delta = .ok w') :
    WalletMoved st w w' id delta := by
  unfold persistUserQuotaDelta at h
  split at h
  · rename_i hbatch
    cases h
    exact recordUserQuota_moved hbatch
  · split at h
    · cases h
    · rename_i u hu
      cases h
      exact addUserQuota_moved hu

theorem tryReserveUserQuota_moved (h : tryReserveUserQuota st answer w id quota = .ok (ok, w')) :
    (ok = true ∧ WalletMoved st w w' id (-quota)) ∨ (ok = false ∧ w' = w) := by
  unfold tryReserveUserQuota at h
  split at h
  · cases h
  · split at h
    · rename_i hzero
      cases h
      subst hzero
      exact .inl ⟨rfl, WalletMoved.refl st w id⟩
    · split at h
      · exact reserveUserQuotaDB_moved (Except.ok.inj h)
      · cases answer with
        | unavailable => exact reserveUserQuotaDB_moved (Except.ok.inj h)
        | insufficient =>
          cases h
          exact .inr ⟨rfl, rfl⟩
        | ok =>
          obtain ⟨_, hpersist, hrest⟩ := bind_eq_ok.mp h
          cases hrest
          exact .inl ⟨rfl, persistUserQuotaDelta_moved hpersist⟩

/-! ## The token -/

/-- The token `id` got `delta` back: `remain_quota` rose and `used_quota` fell by it. -/
structure TokenMoved (w w' : World) (id : Nat) (delta : Int) : Prop where
  remain : w'.tokenRemain id = w.tokenRemain id + delta
  used : w'.tokenUsed id = w.tokenUsed id - delta
  live : (w.liveToken id).isSome → (w'.liveToken id).isSome
  frame : ∃ tokens pendingTokenQuota, w' = { w with tokens, pendingTokenQuota }

theorem TokenMoved.refl (w : World) (id : Nat) : TokenMoved w w id 0 :=
  ⟨(add_zero _).symm, (sub_zero _).symm, fun h => h, _, _, rfl⟩

theorem TokenMoved.users (h : TokenMoved w w' id delta) : w'.users = w.users := by
  obtain ⟨_, _, rfl⟩ := h.frame
  rfl

theorem TokenMoved.walletQuota (h : TokenMoved w w' id delta) (i : Nat) : w'.walletQuota i = w.walletQuota i := by
  obtain ⟨_, _, rfl⟩ := h.frame
  rfl

theorem WalletMoved.tokenRemain (h : WalletMoved st w w' id delta) (i : Nat) : w'.tokenRemain i = w.tokenRemain i := by
  rw [World.tokenRemain, World.tokenRemain, h.tokens, h.pendingTokenQuota]

theorem WalletMoved.tokenUsed (h : WalletMoved st w w' id delta) (i : Nat) : w'.tokenUsed i = w.tokenUsed i := by
  rw [World.tokenUsed, World.tokenUsed, h.tokens, h.pendingTokenQuota]

theorem WalletMoved.liveToken (h : WalletMoved st w w' id delta) (i : Nat) : w'.liveToken i = w.liveToken i := by
  rw [World.liveToken, World.liveToken, h.tokens]

theorem liveToken_some {t : Token} (h : w.liveToken id = some t) : w.tokens.get? id = some t ∧ t.deleted = false := by
  obtain ⟨hget, hlive⟩ := Option.filter_eq_some_iff.mp h
  exact ⟨hget, by simpa using hlive⟩

theorem recordTokenQuota_moved : TokenMoved w (w.recordTokenQuota id delta) id delta := by
  refine ⟨?_, ?_, fun h => h, _, _, rfl⟩
  · simp [World.tokenRemain, World.recordTokenQuota, add_assoc]
  · simp [World.tokenUsed, World.recordTokenQuota, sub_sub]

theorem addTokenQuota_moved (hlive : (w.liveToken id).isSome) :
    TokenMoved w (w.addTokenQuota now id delta) id delta := by
  obtain ⟨t, ht⟩ := Option.isSome_iff_exists.mp hlive
  obtain ⟨hget, hdel⟩ := liveToken_some ht
  have hrow : (w.addTokenQuota now id delta).tokens.get? id = some { t with
      remainQuota := t.remainQuota + delta
      usedQuota := t.usedQuota - delta
      accessedTime := now } := by
    simp [World.addTokenQuota, hget, hdel]
  refine ⟨?_, ?_, fun _ => ?_, _, _, rfl⟩
  · rw [World.tokenRemain, World.tokenRemain, hrow, hget]
    show t.remainQuota + delta + w.pendingTokenQuota id = t.remainQuota + w.pendingTokenQuota id + delta
    omega
  · rw [World.tokenUsed, World.tokenUsed, hrow, hget]
    show t.usedQuota - delta - w.pendingTokenQuota id = t.usedQuota - w.pendingTokenQuota id - delta
    omega
  · rw [World.liveToken, hrow]
    simp [hdel]

theorem moveTokenQuota_moved (st : Settings) (now : Int) (hlive : (w.liveToken id).isSome) (hquota : 0 ≤ quota) :
    ∃ w', moveTokenQuota st w now id quota delta = .ok w' ∧ TokenMoved w w' id delta := by
  unfold moveTokenQuota
  rw [if_neg (not_lt.mpr hquota)]
  by_cases hbatch : st.batchUpdateEnabled = true
  · rw [if_pos hbatch]
    exact ⟨_, rfl, recordTokenQuota_moved⟩
  · rw [if_neg hbatch]
    exact ⟨_, rfl, addTokenQuota_moved hlive⟩

theorem increaseTokenQuota_moved (st : Settings) (now : Int) (hlive : (w.liveToken id).isSome) (hquota : 0 ≤ quota) :
    ∃ w', increaseTokenQuota st w now id quota = .ok w' ∧ TokenMoved w w' id quota :=
  moveTokenQuota_moved st now hlive hquota

theorem decreaseTokenQuota_moved (st : Settings) (now : Int) (hlive : (w.liveToken id).isSome) (hquota : 0 ≤ quota) :
    ∃ w', decreaseTokenQuota st w now id quota = .ok w' ∧ TokenMoved w w' id (-quota) :=
  moveTokenQuota_moved st now hlive hquota

theorem reserveTokenQuotaDB_moved (h : reserveTokenQuotaDB w now id quota = (ok, w')) :
    (ok = true ∧ TokenMoved w w' id (-quota)) ∨ (ok = false ∧ w' = w) := by
  unfold reserveTokenQuotaDB at h
  split at h
  · cases h
    exact .inr ⟨rfl, rfl⟩
  · rename_i t ht
    split at h
    · cases h
      exact .inl ⟨rfl, addTokenQuota_moved (by simp [ht])⟩
    · cases h
      exact .inr ⟨rfl, rfl⟩

theorem persistTokenQuotaDelta_moved (h : persistTokenQuotaDelta st w now id delta = .ok w') :
    TokenMoved w w' id delta := by
  unfold persistTokenQuotaDelta at h
  split at h
  · cases h
    exact recordTokenQuota_moved
  · split at h
    · cases h
    · rename_i t ht
      cases h
      exact addTokenQuota_moved (by simp [ht])

theorem tryReserveTokenQuota_moved {unlimited : Bool} (hlive : (w.liveToken id).isSome)
    (h : tryReserveTokenQuota st answer w now id quota unlimited = .ok (ok, w')) :
    (ok = true ∧ TokenMoved w w' id (-quota)) ∨ (ok = false ∧ w' = w) := by
  unfold tryReserveTokenQuota at h
  split at h
  · cases h
  · rename_i hneg
    split at h
    · rename_i hzero
      cases h
      subst hzero
      exact .inl ⟨rfl, TokenMoved.refl w id⟩
    · split at h
      · obtain ⟨w1, hdec, hmoved⟩ := decreaseTokenQuota_moved st now hlive (not_lt.mp hneg)
        rw [hdec] at h
        cases h
        exact .inl ⟨rfl, hmoved⟩
      · split at h
        · exact reserveTokenQuotaDB_moved (Except.ok.inj h)
        · cases answer with
          | unavailable => exact reserveTokenQuotaDB_moved (Except.ok.inj h)
          | insufficient =>
            cases h
            exact .inr ⟨rfl, rfl⟩
          | ok =>
            obtain ⟨_, hpersist, hrest⟩ := bind_eq_ok.mp h
            cases hrest
            exact .inl ⟨rfl, persistTokenQuotaDelta_moved hpersist⟩

theorem preConsumeTokenQuota_moved (hlive : relayInfo.isPlayground = false → (w.liveToken relayInfo.tokenId).isSome)
    (h : preConsumeTokenQuota st answer w now relayInfo quota = .ok w') :
    TokenMoved w w' relayInfo.tokenId (if relayInfo.isPlayground then 0 else -quota) := by
  unfold preConsumeTokenQuota at h
  split at h
  · cases h
  · split at h
    · rename_i hplay
      cases h
      rw [if_pos hplay]
      exact TokenMoved.refl _ _
    · rename_i hplay
      rw [if_neg hplay]
      obtain ⟨⟨_, _⟩, hreserve, hrest⟩ := bind_eq_ok.mp h
      rcases tryReserveTokenQuota_moved (hlive (by simpa using hplay)) hreserve with ⟨rfl, hmoved⟩ | ⟨rfl, -⟩
      · cases hrest
        exact hmoved
      · cases hrest

theorem preConsumeTokenQuota_unlimited (hlive : (w.liveToken relayInfo.tokenId).isSome)
    (hunl : relayInfo.tokenUnlimited = true) (hquota : 0 ≤ quota) :
    ∃ w', preConsumeTokenQuota st answer w now relayInfo quota = .ok w' := by
  unfold preConsumeTokenQuota tryReserveTokenQuota
  rw [if_neg (not_lt.mpr hquota)]
  by_cases hplay : relayInfo.isPlayground = true
  · rw [if_pos hplay]
    exact ⟨w, rfl⟩
  · obtain ⟨w1, hdec, -⟩ := decreaseTokenQuota_moved st now hlive hquota
    rw [if_neg hplay, if_neg (not_lt.mpr hquota)]
    by_cases hzero : quota = 0
    · rw [if_pos hzero]
      exact ⟨w, rfl⟩
    · rw [if_neg hzero, if_pos hunl, hdec]
      exact ⟨w1, rfl⟩

/-- Whatever a token operation does, it does to the token's columns or to the recorded movements. -/
def TokenFrame (w w' : World) : Prop := ∃ tokens pendingTokenQuota, w' = { w with tokens, pendingTokenQuota }

theorem TokenFrame.refl (w : World) : TokenFrame w w := ⟨_, _, rfl⟩

theorem moveTokenQuota_frame (h : moveTokenQuota st w now id quota delta = .ok w') : TokenFrame w w' := by
  unfold moveTokenQuota at h
  split_ifs at h
  · cases h
    exact ⟨_, _, rfl⟩
  · cases h
    exact ⟨_, _, rfl⟩

theorem tryReserveTokenQuota_frame {unlimited : Bool}
    (h : tryReserveTokenQuota st answer w now id quota unlimited = .ok (ok, w')) : TokenFrame w w' := by
  have hdb : ∀ r, reserveTokenQuotaDB w now id quota = r → TokenFrame w r.2 := by
    rintro ⟨b, w1⟩ hr
    rcases reserveTokenQuotaDB_moved hr with ⟨-, hmoved⟩ | ⟨-, rfl⟩
    · exact hmoved.frame
    · exact TokenFrame.refl w1
  unfold tryReserveTokenQuota at h
  split at h
  · cases h
  · split at h
    · cases h
      exact TokenFrame.refl w
    · split at h
      · obtain ⟨w1, hdec, hrest⟩ := bind_eq_ok.mp h
        cases hrest
        exact moveTokenQuota_frame hdec
      · split at h
        · exact hdb _ (Except.ok.inj h)
        · cases answer with
          | unavailable => exact hdb _ (Except.ok.inj h)
          | insufficient =>
            cases h
            exact TokenFrame.refl w
          | ok =>
            obtain ⟨_, hpersist, hrest⟩ := bind_eq_ok.mp h
            cases hrest
            exact (persistTokenQuotaDelta_moved hpersist).frame

theorem preConsumeTokenQuota_frame (h : preConsumeTokenQuota st answer w now relayInfo quota = .ok w') :
    TokenFrame w w' := by
  unfold preConsumeTokenQuota at h
  split at h
  · cases h
  · split at h
    · cases h
      exact TokenFrame.refl w
    · obtain ⟨⟨_, _⟩, hreserve, hrest⟩ := bind_eq_ok.mp h
      have hframe := tryReserveTokenQuota_frame hreserve
      simp only at hrest
      split at hrest
      · cases hrest
        exact hframe
      · cases hrest

structure SubscriptionMoved (w w' : World) (id : Nat) (delta : Int) : Prop where
  used : w'.amountUsed id = w.amountUsed id + delta
  row : (w'.subscriptions.get? id).isSome
  frame : ∃ subscriptions, w' = { w with subscriptions }

theorem postConsumeUserSubscriptionDelta_moved (hrow : (w.subscriptions.get? id).isSome)
    (hlow : 0 ≤ w.amountUsed id + delta) :
    ∃ w', postConsumeUserSubscriptionDelta w id delta = .ok w' ∧ SubscriptionMoved w w' id delta := by
  obtain ⟨sub, hsub⟩ := Option.isSome_iff_exists.mp hrow
  have hused : w.amountUsed id = sub.amountUsed := by
    rw [World.amountUsed, hsub]
    rfl
  have hid : id ≠ 0 := (Table.pos_of_get? hsub).ne'
  unfold postConsumeUserSubscriptionDelta
  rw [if_neg hid]
  by_cases hzero : delta = 0
  · rw [if_pos hzero]
    exact ⟨w, rfl, by omega, hrow, _, rfl⟩
  · rw [if_neg hzero, hsub]
    simp only
    rw [if_neg (by omega)]
    have hnew : (w.subscriptions.modify id fun _ =>
        { sub with amountUsed := sub.amountUsed + delta }).get? id =
        some { sub with amountUsed := sub.amountUsed + delta } := by
      rw [Table.get?_modify_self, hsub]
      rfl
    refine ⟨_, rfl, ?_, ?_, _, rfl⟩
    · rw [hused]
      simp [World.amountUsed, hnew]
    · simp [hnew]

end CubeRouter.Billing
