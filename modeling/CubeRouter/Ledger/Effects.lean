import CubeRouter.Ledger.Funding

/-!
# What the operations of the ledger can do

One inversion lemma per operation of `Funding`: a successful call either leaves the database as it is,
for a stated reason, or is one `SessionStep`, which changes one session row, moves the organization's
`used_quota` by a stated amount and hands the token table to a stated token movement. All invariants of
the ledger are derived from these lemmas; no later proof unfolds an operation.
-/

namespace CubeRouter.Ledger

open Relational Transition

variable {env : Env} {f f' : OrganizationFunding} {db db' : DB} {id : Nat}
  {s : OrganizationBillingSession}

/-! ## The building blocks -/

/-- The ledger never changes who is billed, nor the playground flag. -/
structure SameRequest (r r' : RelayInfo) : Prop where
  isPlayground : r'.isPlayground = r.isPlayground
  billingAccountType : r'.billingAccountType = r.billingAccountType
  billingAccountId : r'.billingAccountId = r.billingAccountId

theorem SameRequest.refl (r : RelayInfo) : SameRequest r r := ⟨rfl, rfl, rfl⟩

variable {r r' : RelayInfo} {amount now delta actual : Int} {identity : SessionIdentity} {tokens : Table Token}

theorem SameRequest.trans {r'' : RelayInfo} (h : SameRequest r r') (h' : SameRequest r' r'') : SameRequest r r'' :=
  ⟨h'.1.trans h.1, h'.2.trans h.2, h'.3.trans h.3⟩

theorem SameRequest.billing (h : SameRequest r r') : isOrganizationBilling r' = isOrganizationBilling r := by
  unfold isOrganizationBilling
  rw [h.billingAccountType, h.billingAccountId]

theorem sameRequest_withToken (r : RelayInfo) (id : Nat) (token : Token) :
    SameRequest r (r.withToken id token) := ⟨rfl, rfl, rfl⟩

theorem sameRequest_withSession
    {consumed : Int} : SameRequest f.relayInfo (f.withSession id s consumed).relayInfo := ⟨rfl, rfl, rfl⟩

theorem syncOrganizationQuotaFromTx_eq (h : syncOrganizationQuotaFromTx db r = .ok r') :
    ∃ organizationId organizationQuota, r' = { r with organizationId, organizationQuota } := by
  unfold syncOrganizationQuotaFromTx at h
  split at h
  · cases h
    exact ⟨_, _, rfl⟩
  · split at h
    · cases h
    · cases h
      exact ⟨_, _, rfl⟩

theorem syncOrganizationQuotaFromTx_ok (h : syncOrganizationQuotaFromTx db r = .ok r') : SameRequest r r' := by
  obtain ⟨_, _, rfl⟩ := syncOrganizationQuotaFromTx_eq h
  exact ⟨rfl, rfl, rfl⟩

theorem syncOrganizationQuotaFromTx_sessionId (h : syncOrganizationQuotaFromTx db r = .ok r') :
    r'.organizationBillingSessionId = r.organizationBillingSessionId := by
  obtain ⟨_, _, rfl⟩ := syncOrganizationQuotaFromTx_eq h
  rfl

theorem syncOrganizationQuotaFromTx_tokenId (h : syncOrganizationQuotaFromTx db r = .ok r') :
    r'.tokenId = r.tokenId := by
  obtain ⟨_, _, rfl⟩ := syncOrganizationQuotaFromTx_eq h
  rfl

theorem createOrganizationBillingSession_ok {session : OrganizationBillingSession}
    (h : createOrganizationBillingSession db session = .ok db') : findSession db session.idempotencyKey = none ∧
      db' = { db with sessions := db.sessions.insert session } := by
  unfold createOrganizationBillingSession at h
  split at h
  · cases h
  · rename_i hfresh
    cases h
    exact ⟨hfresh, rfl⟩

/-- A record with a new key is inserted. -/
structure Recorded (db db' : DB) (record : OrganizationBillingRecord) : Prop where
  fresh : ∀ i r, db.records.get? i = some r → r.recordKey.text ≠ record.recordKey.text
  records : db'.records = db.records.insert record

/-- The organization `o` and its member `userId` are charged `delta`, with the snapshots `before` and
`after` of the organization. -/
def Charge (db db' : DB) (o : Nat) (delta : Int) (userId : Nat) (enforce : Bool)
    (before after : Organization) : Prop :=
  ∃ sessions increment requireActive now charged,
    updateOrganizationUsedQuotaTx { db with sessions } o delta increment requireActive now userId enforce =
      .ok (before, after, charged) ∧
    db'.organizations = charged.organizations ∧ db'.members = charged.members

variable {record : OrganizationBillingRecord} {after : Organization} {s' : OrganizationBillingSession}
  {unscoped : Bool} {tokens' : Table Token} {moved : Int}

theorem createOrganizationBillingRecordTx_recorded
    (h : createOrganizationBillingRecordTx db record = .ok db') : Recorded db db' record := by
  unfold createOrganizationBillingRecordTx at h
  split at h
  · cases h
  · rename_i hnone
    cases h
    refine ⟨fun i r hr heq => ?_, rfl⟩
    have hne := Table.find?_eq_none_iff.mp hnone i r hr
    simp [heq] at hne

theorem createOrganizationBillingRecordTx_ok (h : createOrganizationBillingRecordTx db record = .ok db') :
    db' = { db with records := db.records.insert record } := by
  unfold createOrganizationBillingRecordTx at h
  split at h
  · cases h
  · cases h
    rfl

theorem lockSession_ok (h : lockSession db id = .ok s) : db.sessions.get? id = some s := by
  unfold lockSession at h
  split at h
  · cases h
  · rename_i hget
    cases h
    exact hget

theorem bookViolationFee_frame (db : DB) (r : RelayInfo) (s : OrganizationBillingSession) (actual : Int) :
    ∃ channelUsedQuota, bookViolationFee db r s actual = { db with channelUsedQuota } := by
  unfold bookViolationFee
  split_ifs
  · exact ⟨_, rfl⟩
  · exact ⟨db.channelUsedQuota, rfl⟩

theorem lookupSession_some (h : lookupSession db r = .ok (some (id, s))) : db.sessions.get? id = some s := by
  unfold lookupSession at h
  split at h
  · simp only at h
    split at h
    · cases h
    · obtain ⟨t, hget, ht⟩ := Option.bind_eq_some_iff.mp (Except.ok.inj h)
      split at ht
      · cases ht
        exact hget
      · cases ht
  · obtain ⟨_, -, hrest⟩ := bind_eq_ok.mp h
    exact (Table.find?_some (Except.ok.inj hrest)).1

theorem lookupSession_id (hid : 0 < r.organizationBillingSessionId) (h : lookupSession db r = .ok (some (id, s))) :
    id = r.organizationBillingSessionId := by
  unfold lookupSession at h
  rw [if_pos hid] at h
  simp only at h
  split at h
  · cases h
  · obtain ⟨t, -, ht⟩ := Option.bind_eq_some_iff.mp (Except.ok.inj h)
    split at ht
    · cases ht
      rfl
    · cases ht

theorem loadSession_ok (h : f.loadSession db = .ok f') :
    ∃ id s, f' = f.withSession id s s.tokenRemainDeductedQuota ∧ db.sessions.get? id = some s ∧
      (0 < f.relayInfo.organizationBillingSessionId → id = f.relayInfo.organizationBillingSessionId) := by
  obtain ⟨found, hfound, hrest⟩ := bind_eq_ok.mp h
  rcases found with - | ⟨id, s⟩
  · cases hrest
  · cases hrest
    exact ⟨id, s, rfl, lookupSession_some hfound, fun hid => lookupSession_id hid hfound⟩

theorem recordPreConsume_ok {before : Organization} (h : recordPreConsume db id s amount before after now = .ok db') :
    ∃ records, db' = { db with records } ∧ if 0 < amount then
        Recorded db db' (buildOrganizationBillingRecordFromSession id s (.preConsume id) .preConsume amount 0
          before after now) else records = db.records := by
  unfold recordPreConsume at h
  split_ifs at h with hpos
  · refine ⟨_, createOrganizationBillingRecordTx_ok h, ?_⟩
    rw [if_pos hpos]
    exact createOrganizationBillingRecordTx_recorded h
  · cases h
    refine ⟨_, rfl, ?_⟩
    rw [if_neg hpos]

theorem ensureSession_ok (h : f.ensureSession db = .ok (f', id, s)) :
    f'.session = some (id, s) ∧ SameRequest f.relayInfo f'.relayInfo ∧
      (f.session = some (id, s) ∨ f.session = none ∧ db.sessions.get? id = some s ∧
        (0 < f.relayInfo.organizationBillingSessionId → id = f.relayInfo.organizationBillingSessionId)) := by
  unfold OrganizationFunding.ensureSession at h
  split at h
  · rename_i hs
    cases h
    exact ⟨hs, .refl _, .inl hs⟩
  · rename_i hnone
    obtain ⟨g, hload, hrest⟩ := bind_eq_ok.mp h
    obtain ⟨j, t, rfl, hget, hid⟩ := loadSession_ok hload
    cases hrest
    exact ⟨rfl, sameRequest_withSession .., .inr ⟨hnone, hget, hid⟩⟩

theorem ensureSession_of_session (h : f.session = some (id, s)) : f.ensureSession db = .ok (f, id, s) := by
  unfold OrganizationFunding.ensureSession
  rw [h]

/-! ## A step on one session -/

/-- The row `id` goes from `s` to `s'` while the organization of `s` is charged `delta`. -/
structure SessionStep (db db' : DB) (id : Nat) (s s' : OrganizationBillingSession) (delta : Int) :
    Prop where
  get : db.sessions.get? id = some s
  sessions : db'.sessions = db.sessions.modify id fun _ => s'
  organization : ∃ org after, UsedQuotaMoved db.organizations db'.organizations db.usedQuotaUpdates
    db'.usedQuotaUpdates s.organizationId delta org after

theorem SessionStep.get_self (h : SessionStep db db' id s s' delta) : db'.sessions.get? id = some s' := by
  rw [h.sessions, Table.get?_modify_self, h.get]
  rfl

theorem SessionStep.get_of_ne (h : SessionStep db db' id s s' delta) {j : Nat}
    (hj : j ≠ id) : db'.sessions.get? j = db.sessions.get? j := by
  rw [h.sessions, Table.get?_modify_of_ne _ _ hj]

theorem UsedQuotaMoved.used_add {orgs orgs' : Table Organization} {updates updates' : List UsedQuotaUpdate}
    {used : Int} {org : Organization} (h : UsedQuotaMoved orgs orgs' updates updates' id delta org after)
    (hused : ∃ org, orgs.get? id = some org ∧ org.usedQuota = used) (hlow : 0 ≤ used + delta) :
    ∃ org, orgs'.get? id = some org ∧ org.usedQuota = used + delta := by
  obtain ⟨org0, hget, rfl⟩ := hused
  obtain rfl : org = org0 := Option.mem_unique h.get hget
  exact ⟨after, by rw [h.get', if_pos rfl], by rw [h.used, usedQuotaExpr_eq hlow]⟩

/-! ## Pre-consuming -/

theorem reuseOrganizationBillingSession_ok (h : f.reuseOrganizationBillingSession db amount identity = .ok (some f')) :
    ∃ id s, findSession db identity.key = some (id, s) ∧
      organizationBillingSessionMatches s f.relayInfo amount identity = true ∧
      f'.session = some (id, s) ∧ SameRequest f.relayInfo f'.relayInfo := by
  unfold OrganizationFunding.reuseOrganizationBillingSession at h
  split at h
  · cases h
  · rename_i id s hfound
    split at h
    · cases h
    · rename_i hmatch
      obtain ⟨r, hsync, hrest⟩ := bind_eq_ok.mp h
      cases hrest
      have hsame := syncOrganizationQuotaFromTx_ok hsync
      exact ⟨id, s, hfound, by simpa using hmatch, rfl, (sameRequest_withSession ..).trans hsame⟩

theorem preConsumedQuota_of_matches (h : organizationBillingSessionMatches s r amount identity = true) :
    s.preConsumedQuota = amount := by
  simp only [organizationBillingSessionMatches, Bool.and_eq_true, beq_iff_eq] at h
  exact h.1.1.1.2

section DeductedAs

variable (s : OrganizationBillingSession) (d : Int)

@[simp] theorem deductedAs_organizationId : (s.deductedAs d).organizationId = s.organizationId := by
  unfold OrganizationBillingSession.deductedAs
  split_ifs <;> rfl

@[simp] theorem deductedAs_status : (s.deductedAs d).status = s.status := by
  unfold OrganizationBillingSession.deductedAs
  split_ifs <;> rfl

@[simp] theorem deductedAs_preConsumedQuota : (s.deductedAs d).preConsumedQuota = s.preConsumedQuota := by
  unfold OrganizationBillingSession.deductedAs
  split_ifs <;> rfl

@[simp] theorem deductedAs_tokenId : (s.deductedAs d).tokenId = s.tokenId := by
  unfold OrganizationBillingSession.deductedAs
  split_ifs <;> rfl

@[simp] theorem deductedAs_tokenUnlimitedQuota : (s.deductedAs d).tokenUnlimitedQuota = s.tokenUnlimitedQuota := by
  unfold OrganizationBillingSession.deductedAs
  split_ifs <;> rfl

end DeductedAs

/-- A pre-consumption that created a session: row `db.sessions.next` holds `session`, the organization
is charged `amount`, and the token moved by `deducted`. -/
structure Created (env : Env) (f f' : OrganizationFunding) (amount : Int) (db db' : DB)
    (identity : SessionIdentity) (relayInfo : RelayInfo) (token? : Option (Nat × Token))
    (deducted : Int) : Prop where
  load : loadTokenForQuotaTx false db.tokens f.relayInfo = .ok (relayInfo, token?)
  fresh : findSession db identity.key = none
  sessions : db'.sessions = (db.sessions.insert (newSession env relayInfo token? amount identity)).modify
    db.sessions.next fun _ => (newSession env relayInfo token? amount identity).deductedAs deducted
  organization : ∃ org after, UsedQuotaMoved db.organizations db'.organizations db.usedQuotaUpdates
    db'.usedQuotaUpdates f.relayInfo.billingAccountId amount org after
  token : ∃ relayInfo', decreaseTokenQuotaTx env.now false db.tokens relayInfo amount
    (some (newSession env relayInfo token? amount identity).tokenUnlimitedQuota) =
      .ok (deducted, relayInfo', db'.tokens)
  session' : f'.session = some (db.sessions.next,
    (newSession env relayInfo token? amount identity).deductedAs deducted)
  request : SameRequest f.relayInfo f'.relayInfo
  linked : f'.relayInfo.organizationBillingSessionId = db.sessions.next
  tokenId : 0 < relayInfo.tokenId → f'.relayInfo.tokenId = relayInfo.tokenId
  entry : ∃ before after, Charge db db' f.relayInfo.billingAccountId amount relayInfo.responsibleUserId true
      before after ∧
    if 0 < amount then
      Recorded db db' (buildOrganizationBillingRecordFromSession db.sessions.next
        ((newSession env relayInfo token? amount identity).deductedAs deducted)
        (.preConsume db.sessions.next) .preConsume amount 0 before after env.now)
    else db'.records = db.records

theorem loadTokenForQuotaTx_same {token? : Option (Nat × Token)}
    (h : loadTokenForQuotaTx unscoped tokens r = .ok (r', token?)) : SameRequest r r' := by
  rcases loadTokenForQuotaTx_ok h with ⟨-, rfl, -⟩ | ⟨_, _, -, rfl, -⟩
  · exact .refl _
  · exact sameRequest_withToken ..

theorem decreaseTokenQuotaTx_same {quota : Int} {snapshot : Option Bool}
    (h : decreaseTokenQuotaTx now unscoped tokens r quota snapshot = .ok (moved, r', tokens')) : SameRequest r r' := by
  rcases moveTokenQuotaTx_relayInfo h with rfl | ⟨_, _, rfl, -⟩
  · exact .refl _
  · exact sameRequest_withToken ..

theorem preConsumeTx_ok (h : f.preConsumeTx env amount identity db = .ok (f', db')) :
    (db' = db ∧ ∃ id s, findSession db identity.key = some (id, s) ∧ f'.session = some (id, s) ∧
        SameRequest f.relayInfo f'.relayInfo ∧ s.preConsumedQuota = amount) ∨
      ∃ relayInfo token? deducted, Created env f f' amount db db' identity relayInfo token? deducted := by
  obtain ⟨⟨relayInfo, token?⟩, hload, h1⟩ := bind_eq_ok.mp h
  have hreq : SameRequest f.relayInfo relayInfo := loadTokenForQuotaTx_same hload
  obtain ⟨reused, hreuse, h2⟩ := bind_eq_ok.mp h1
  rcases reused with - | g
  · right
    obtain ⟨_, hcreate, h3⟩ := bind_eq_ok.mp h2
    obtain ⟨hfresh, rfl⟩ := createOrganizationBillingSession_ok hcreate
    obtain ⟨⟨before, after, _⟩, hupdate, h4⟩ := bind_eq_ok.mp h3
    rw [hreq.billingAccountId] at hupdate
    obtain ⟨org, _, _, _, hmoved, rfl⟩ := updateOrganizationUsedQuotaTx_ok hupdate
    simp only [bind_eq_ok] at h4
    obtain ⟨⟨deducted, relayInfo', _⟩, htoken, _, hrecord, synced, hsync, h7⟩ := h4
    obtain ⟨records, rfl, hrecords⟩ := recordPreConsume_ok hrecord
    cases h7
    have hsame : SameRequest f.relayInfo synced :=
      (hreq.trans (decreaseTokenQuotaTx_same htoken)).trans
        (sameRequest_withSession.trans (syncOrganizationQuotaFromTx_ok hsync))
    have htokenId : 0 < relayInfo.tokenId → relayInfo'.tokenId = relayInfo.tokenId := moveTokenQuotaTx_tokenId htoken
    refine ⟨relayInfo, token?, deducted, hload, hfresh, rfl,
      ⟨org, after, hmoved⟩, ⟨relayInfo', htoken⟩, rfl, hsame,
      syncOrganizationQuotaFromTx_sessionId hsync, fun hpos =>
        (syncOrganizationQuotaFromTx_tokenId hsync).trans (htokenId hpos), before, after,
      ⟨_, _, _, _, _, hupdate, rfl, rfl⟩, ?_⟩
    split_ifs at hrecords ⊢ with hpos
    · exact ⟨hrecords.fresh, hrecords.records⟩
    · exact hrecords
  · left
    cases h2
    obtain ⟨id, s, hfound, hmatch, hs, hsame⟩ := reuseOrganizationBillingSession_ok hreuse
    exact ⟨rfl, id, s, hfound, hs, hreq.trans hsame, preConsumedQuota_of_matches hmatch⟩

/-- A successful `PreConsumeWithToken` creates a session, reuses one, or has nothing to do. -/
theorem preConsumeWithToken_ok (h : f.preConsumeWithToken env amount db = .ok (f', db')) :
    (isOrganizationBilling f.relayInfo = false ∧ f' = f ∧ db' = db) ∨
      (isOrganizationBilling f.relayInfo = true ∧ 0 ≤ amount ∧
        ∃ identity, organizationBillingSessionIdentity f.relayInfo = .ok identity ∧
          ((db' = db ∧ ∃ id s, findSession db identity.key = some (id, s) ∧
              f'.session = some (id, s) ∧ SameRequest f.relayInfo f'.relayInfo ∧ s.preConsumedQuota = amount) ∨
            ∃ relayInfo token? deducted, Created env f f' amount db db' identity relayInfo token? deducted)) := by
  unfold OrganizationFunding.preConsumeWithToken at h
  by_cases hbill : isOrganizationBilling f.relayInfo = true
  · rw [if_neg (by simp [hbill])] at h
    by_cases hneg : amount < 0
    · rw [if_pos hneg] at h
      cases h
    · rw [if_neg hneg] at h
      obtain ⟨identity, hid, hrest⟩ := bind_eq_ok.mp h
      refine .inr ⟨hbill, by omega, identity, hid, ?_⟩
      split at hrest
      · rename_i r htx
        cases hrest
        exact preConsumeTx_ok htx
      · obtain ⟨reused, hreuse, hlast⟩ := bind_eq_ok.mp hrest
        rcases reused with - | g
        · cases hlast
        · cases hlast
          obtain ⟨id, s, hfound, hmatch, hs, hsame⟩ := reuseOrganizationBillingSession_ok hreuse
          exact .inl ⟨rfl, id, s, hfound, hs, hsame, preConsumedQuota_of_matches hmatch⟩
      · cases hrest
  · rw [if_pos (by simp [hbill])] at h
    cases h
    exact .inl ⟨by simpa using hbill, rfl, rfl⟩

/-! ## Reserving more -/

theorem reserveMoreTx_ok (h : f.reserveMoreTx env delta id db = .ok (f', db')) : ∃ s, db.sessions.get? id = some s ∧
      ((db' = db ∧ s.status ≠ .preConsumed ∧ s.status ≠ .failed ∧ f' = f.withSession id s s.tokenRemainDeductedQuota) ∨
        ∃ deducted relayInfo', (s.status = .preConsumed ∨ s.status = .failed) ∧
          SessionStep db db' id s (s.reserved env delta deducted) delta ∧ decreaseTokenQuotaTx env.now true db.tokens
            (organizationBillingTokenQuotaRelayInfo id s f.relayInfo) delta
            (some s.tokenUnlimitedQuota) = .ok (deducted, relayInfo', db'.tokens) ∧
          f'.session = some (id, s.reserved env delta deducted) ∧ SameRequest f.relayInfo f'.relayInfo ∧
          f'.relayInfo.organizationBillingSessionId = id ∧
          ∃ before after, Charge db db' s.organizationId delta s.responsibleUserId false before after ∧
            Recorded db db' (buildOrganizationBillingRecordFromSession id (s.reserved env delta deducted)
              (.reserve id (s.preConsumedQuota + delta)) .preConsume delta 0 before after env.now)) := by
  obtain ⟨s, hlock, h1⟩ := bind_eq_ok.mp h
  have hget := lockSession_ok hlock
  refine ⟨s, hget, ?_⟩
  split at h1
  · rename_i hstatus
    right
    obtain ⟨⟨before, after, _⟩, hupdate, h2⟩ := bind_eq_ok.mp h1
    obtain ⟨org, _, _, _, hmoved, rfl⟩ := updateOrganizationUsedQuotaTx_ok hupdate
    simp only [bind_eq_ok] at h2
    obtain ⟨⟨deducted, relayInfo', _⟩, htoken, _, hrecord, _, hsync, h5⟩ := h2
    have hrecorded := createOrganizationBillingRecordTx_recorded hrecord
    obtain rfl := createOrganizationBillingRecordTx_ok hrecord
    cases h5
    have hsame := sameRequest_withSession.trans (syncOrganizationQuotaFromTx_ok hsync)
    exact ⟨deducted, relayInfo', hstatus, ⟨hget, rfl, org, after, hmoved⟩, htoken, rfl, hsame,
      syncOrganizationQuotaFromTx_sessionId hsync, before, after, ⟨_, _, _, _, _, hupdate, rfl, rfl⟩,
      hrecorded.fresh, hrecorded.records⟩
  · rename_i hstatus
    cases h1
    push Not at hstatus
    exact .inl ⟨rfl, hstatus.1, hstatus.2, rfl⟩

theorem reserveMoreWithToken_ok (h : f.reserveMoreWithToken env delta db = .ok (f', db')) :
    ((isOrganizationBilling f.relayInfo = false ∨ delta ≤ 0) ∧ f' = f ∧ db' = db) ∨
      (0 < delta ∧ ∃ f0 id s, f.ensureSession db = .ok (f0, id, s) ∧
      f0.reserveMoreTx env delta id db = .ok (f', db')) := by
  unfold OrganizationFunding.reserveMoreWithToken at h
  split at h
  · rename_i hskip
    cases h
    rw [Bool.or_eq_true, Bool.not_eq_true', decide_eq_true_eq] at hskip
    exact .inl ⟨hskip, rfl, rfl⟩
  · rename_i hgo
    rw [Bool.or_eq_true, decide_eq_true_eq, not_or] at hgo
    obtain ⟨⟨f0, id, s⟩, hensure, hrest⟩ := bind_eq_ok.mp h
    exact .inr ⟨by omega, f0, id, s, hensure, hrest⟩

/-- A session under repair is not topped up, and the call succeeds. -/
theorem reserveMoreWithToken_skips (hbill : isOrganizationBilling f.relayInfo = true) (hdelta : 0 < delta)
    {mem : OrganizationBillingSession} (hmem : f.session = some (id, mem)) (hget : db.sessions.get? id = some s)
    (hs : s.status = .repairing) : f.reserveMoreWithToken env delta db =
      .ok (f.withSession id s s.tokenRemainDeductedQuota, db) := by
  unfold OrganizationFunding.reserveMoreWithToken
  rw [if_neg (by simp [hbill]; omega), ensureSession_of_session hmem]
  show OrganizationFunding.reserveMoreTx f env delta id db = _
  unfold OrganizationFunding.reserveMoreTx lockSession
  rw [hget]
  show (if s.status = .preConsumed ∨ s.status = .failed then _ else _) = _
  rw [if_neg (by simp [hs])]

/-! ## Settling -/

theorem settleTokenQuotaTx_limited
    (h : settleTokenQuotaTx now tokens r delta false = .ok (moved, tokens')) (hplay : r.isPlayground = false)
    (hid : 0 < r.tokenId) : remainOf tokens' r.tokenId = (remainOf tokens r.tokenId).map fun q => q - delta := by
  unfold settleTokenQuotaTx at h
  split_ifs at h with hpos hneg
  · obtain ⟨⟨m, r', t⟩, hmove, hrest⟩ := bind_eq_ok.mp h
    cases hrest
    exact decreaseTokenQuotaTx_limited hmove hplay hid
  · obtain ⟨⟨m, _, t⟩, hmove, hrest⟩ := bind_eq_ok.mp h
    cases hrest
    rw [increaseTokenQuotaTx_limited hmove hplay hid]
    simp [sub_eq_add_neg]
  · cases h
    obtain rfl : delta = 0 := by omega
    simp

theorem validateOrganizationSettledQuota_ok {u : Unit} (h : validateOrganizationSettledQuota s actual = .ok u) :
    s.status = .settled → s.settledQuota = actual := by
  intro hs
  by_contra hne
  rw [validateOrganizationSettledQuota, if_pos ⟨hs, hne⟩] at h
  cases h

theorem settleTx_ok (h : f.settleTx env actual id db = .ok (f', db')) : ∃ s, db.sessions.get? id = some s ∧
      ((db' = db ∧ s.status = .settled ∧ s.settledQuota = actual ∧ f' = f.withSession id s s.tokenRemainDeductedQuota) ∨
        ∃ tokenDelta, s.status ≠ .settled ∧ s.status ≠ .refunded ∧
          SessionStep db db' id s (s.settledAs env.now actual tokenDelta) (actual - s.preConsumedQuota) ∧
          settleTokenQuotaTx env.now db.tokens
            (organizationBillingTokenQuotaRelayInfo id s f.relayInfo) (actual - s.preConsumedQuota)
            s.tokenUnlimitedQuota = .ok (tokenDelta, db'.tokens) ∧
          f'.session = some (id, s.settledAs env.now actual tokenDelta) ∧ SameRequest f.relayInfo f'.relayInfo ∧
          ∃ before after, Charge db db' s.organizationId (actual - s.preConsumedQuota) s.responsibleUserId
              false before after ∧ Recorded db db' (buildOrganizationBillingRecordFromSession id
              (s.settledAs env.now actual tokenDelta) (.settle id) .settle (actual - s.preConsumedQuota) actual
              before after env.now)) := by
  obtain ⟨s, hlock, h1⟩ := bind_eq_ok.mp h
  obtain ⟨_, hvalid, h2⟩ := bind_eq_ok.mp h1
  have hget := lockSession_ok hlock
  refine ⟨s, hget, ?_⟩
  split at h2
  · rename_i hsettled
    cases h2
    exact .inl ⟨rfl, hsettled, validateOrganizationSettledQuota_ok hvalid hsettled, rfl⟩
  · rename_i hsettled
    split at h2
    · cases h2
    · rename_i hrefunded
      right
      obtain ⟨⟨before, after, _⟩, hupdate, h3⟩ := bind_eq_ok.mp h2
      obtain ⟨org, organizations, members, updates, hmoved, rfl⟩ := updateOrganizationUsedQuotaTx_ok hupdate
      obtain ⟨⟨tokenDelta, tokens⟩, htoken, h4⟩ := bind_eq_ok.mp h3
      obtain ⟨_, hfee⟩ := bookViolationFee_frame
        { db with organizations, members, tokens, usedQuotaUpdates := updates } f.relayInfo s actual
      obtain ⟨_, hrecord, h5⟩ := bind_eq_ok.mp h4
      simp only [hfee] at hrecord
      have hrecorded := createOrganizationBillingRecordTx_recorded hrecord
      obtain rfl := createOrganizationBillingRecordTx_ok hrecord
      obtain ⟨_, -, h6⟩ := bind_eq_ok.mp h5
      cases h6
      exact ⟨tokenDelta, hsettled, hrefunded, ⟨hget, rfl, org, after, hmoved⟩, htoken, rfl,
        ⟨rfl, rfl, rfl⟩, before, after, ⟨_, _, _, _, _, hupdate, rfl, rfl⟩, hrecorded.fresh, hrecorded.records⟩

theorem settleWithTokenActual_ok (h : f.settleWithTokenActual env actual db = .ok (f', db')) :
    (isOrganizationBilling f.relayInfo = false ∧ f' = f ∧ db' = db) ∨
      (0 ≤ actual ∧ ∃ f0 id s, f.ensureSession db = .ok (f0, id, s) ∧
      f0.settleTx env actual id db = .ok (f', db')) := by
  unfold OrganizationFunding.settleWithTokenActual at h
  split at h
  · rename_i hbill
    cases h
    exact .inl ⟨by simpa using hbill, rfl, rfl⟩
  · split at h
    · cases h
    · obtain ⟨⟨f0, id, s⟩, hensure, h1⟩ := bind_eq_ok.mp h
      obtain ⟨_, -, h2⟩ := bind_eq_ok.mp h1
      exact .inr ⟨by omega, f0, id, s, hensure, h2⟩

/-! ## Refunding -/

theorem refundTx_ok (h : f.refundTx env id db = .ok (f', db')) : ∃ s, db.sessions.get? id = some s ∧
      ((db' = db ∧ s.status = .refunded ∧ f' = f.withSession id s 0) ∨ ∃ tokenRefunded, s.status ≠ .refunded ∧
          SessionStep db db' id s (s.refundedWith env.now tokenRefunded) (-s.refundQuota) ∧
          refundTokenQuotaTx env.now db.tokens (organizationBillingTokenQuotaRelayInfo id s f.relayInfo) s =
              .ok (tokenRefunded, db'.tokens) ∧ f'.session = some (id, s.refundedWith env.now tokenRefunded) ∧
          SameRequest f.relayInfo f'.relayInfo ∧
          ∃ before after, Charge db db' s.organizationId (-s.refundQuota) s.responsibleUserId false before after ∧
            Recorded db db' (buildOrganizationBillingRecordFromSession id
              (s.refundedWith env.now tokenRefunded) (.refund id) .refund (-s.refundQuota)
              (if s.status = .settled then -s.refundQuota else 0) before after env.now)) := by
  obtain ⟨s, hlock, h1⟩ := bind_eq_ok.mp h
  have hget := lockSession_ok hlock
  refine ⟨s, hget, ?_⟩
  split at h1
  · rename_i hrefunded
    cases h1
    exact .inl ⟨rfl, hrefunded, rfl⟩
  · rename_i hrefunded
    right
    obtain ⟨⟨before, after, _⟩, hupdate, h2⟩ := bind_eq_ok.mp h1
    obtain ⟨org, _, _, _, hmoved, rfl⟩ := updateOrganizationUsedQuotaTx_ok hupdate
    obtain ⟨⟨tokenRefunded, _⟩, htoken, h3⟩ := bind_eq_ok.mp h2
    obtain ⟨_, hrecord, h4⟩ := bind_eq_ok.mp h3
    have hrecorded := createOrganizationBillingRecordTx_recorded hrecord
    obtain rfl := createOrganizationBillingRecordTx_ok hrecord
    obtain ⟨_, -, h5⟩ := bind_eq_ok.mp h4
    cases h5
    exact ⟨tokenRefunded, hrefunded, ⟨hget, rfl, org, after, hmoved⟩, htoken, rfl, ⟨rfl, rfl, rfl⟩, before,
      after, ⟨_, _, _, _, _, hupdate, rfl, rfl⟩, hrecorded.fresh, hrecorded.records⟩

theorem refundWithToken_ok (h : f.refundWithToken env db = .ok (f', db')) :
    (isOrganizationBilling f.relayInfo = false ∧ f' = f ∧ db' = db) ∨
      ∃ f0 id s, f.ensureSession db = .ok (f0, id, s) ∧ f0.refundTx env id db = .ok (f', db') := by
  unfold OrganizationFunding.refundWithToken at h
  split at h
  · rename_i hbill
    cases h
    exact .inl ⟨by simpa using hbill, rfl, rfl⟩
  · obtain ⟨⟨f0, id, s⟩, hensure, hrest⟩ := bind_eq_ok.mp h
    exact .inr ⟨f0, id, s, hensure, hrest⟩

end CubeRouter.Ledger
