import CubeRouter.Ledger.Administration

/-!
# The ledger replays to the account

Every charge of an organization leaves a billing record. This module shows that the records of a session add
up to what the session holds and has used, that each record's snapshots are the real `used_quota` before and
after its transaction, and that the unique `record_key` never gets in the way of a transaction.

The invariant `Replays` says which keys are taken: a `reserve:` key carries the pre-consumed total after the
top-up, which only grows, and the keys of settlement and refund are taken only by a session that has left the
status from which the key is written. The texts of the keys are compared (`RecordKey.text_injective`), as the
index of the table does.
-/

namespace CubeRouter.Ledger

open Relational Transition Option Table

/-! ## The texts of the keys -/

theorem toDigits_injective {a b : Nat} (h : Nat.toDigits 10 a = Nat.toDigits 10 b) : a = b := by
  have hread : ∀ n, Nat.ofDigitChars 10 (Nat.toDigits 10 n) 0 = n := fun _ => Nat.ofDigitChars_ten_toDigits
  rw [← hread a, h, hread]

theorem notMem_toDigits {c : Char} (hc : c.isDigit = false) (n : Nat) : c ∉ Nat.toDigits 10 n := by
  intro hmem
  have hdigit := Nat.isDigit_of_mem_toDigits (by decide) (by decide) hmem
  rw [hc] at hdigit
  cases hdigit

theorem toList_repr_ofNat (m : Nat) : (Int.ofNat m).repr.toList = Nat.toDigits 10 m := Nat.toList_repr

theorem toList_repr_negSucc (m : Nat) : (Int.negSucc m).repr.toList = '-' :: Nat.toDigits 10 (m + 1) := by
  show ("-" ++ (m + 1).repr).toList = _
  rw [String.toList_append, Nat.toList_repr]
  rfl

theorem colon_notMem_repr (q : Int) : ':' ∉ q.repr.toList := by
  cases q with
  | ofNat m =>
    rw [toList_repr_ofNat]
    exact notMem_toDigits (by decide) m
  | negSucc m =>
    rw [toList_repr_negSucc, List.mem_cons, not_or]
    exact ⟨by decide, notMem_toDigits (by decide) (m + 1)⟩

theorem repr_injective {a b : Int} (h : a.repr.toList = b.repr.toList) : a = b := by
  have hsign : ∀ m n : Nat, (Int.ofNat m).repr.toList ≠ (Int.negSucc n).repr.toList := by
    intro m n heq
    apply notMem_toDigits (c := '-') (by decide) m
    rw [← toList_repr_ofNat, heq, toList_repr_negSucc]
    exact List.mem_cons_self
  cases a with
  | ofNat m =>
    cases b with
    | ofNat =>
      rw [toList_repr_ofNat, toList_repr_ofNat] at h
      rw [toDigits_injective h]
    | negSucc n => exact absurd h (hsign m n)
  | negSucc m =>
    cases b with
    | ofNat n => exact absurd h.symm (hsign n m)
    | negSucc =>
      rw [toList_repr_negSucc, toList_repr_negSucc] at h
      have hsucc := toDigits_injective (List.cons.inj h).2
      rw [Nat.succ.inj hsucc]

theorem RecordKey.text_injective {k k' : RecordKey} (h : k.text = k'.text) : k = k' := by
  have hlist := congrArg String.toList h
  cases k <;> cases k' <;> simp [RecordKey.text] at hlist
  case preConsume.preConsume id id' => rw [toDigits_injective hlist]
  case settle.settle id id' => rw [toDigits_injective hlist]
  case refund.refund id id' => rw [toDigits_injective hlist]
  case adjust.adjust key key' => rw [String.toList_inj.mp hlist]
  case reserve.reserve id q id' q' =>
    obtain ⟨hid, -, hq⟩ := (List.append_cons_inj_of_notMem (notMem_toDigits (by decide) id)
      (colon_notMem_repr q)).mp hlist
    rw [toDigits_injective hid, repr_injective hq]

/-! ## The invariant -/

/-- The sum of a column over the records of session `id`. -/
def replayed (column : OrganizationBillingRecord → Int) (id : Nat) (db : DB) : Int :=
  db.records.sum fun r => if r.sessionId = id then column r else 0

/-- What a session has used: its settled amount while it is settled. -/
def OrganizationBillingSession.usage (s : OrganizationBillingSession) : Int :=
  if s.status = .settled then s.settledQuota else 0

/-- The key of a record says what its session has gone through. -/
def RecordKey.Taken (db : DB) : RecordKey → Prop
  | .preConsume id => id < db.sessions.next
  | .reserve id quota => ∃ s, db.sessions.get? id = some s ∧ quota ≤ s.preConsumedQuota
  | .settle id => ∃ s, db.sessions.get? id = some s ∧ ¬s.status.Open
  | .refund id => ∃ s, db.sessions.get? id = some s ∧ s.status = .refunded
  | .adjust _ => True

structure Replays (db : DB) : Prop where
  wellFormed : ∀ id s, db.sessions.get? id = some s → s.WellFormed
  used : ∀ id s, db.sessions.get? id = some s → replayed (·.usedQuotaDelta) id db = s.hold
  usage : ∀ id s, db.sessions.get? id = some s → replayed (·.usageQuota) id db = s.usage
  exact : ∀ i r, db.records.get? i = some r → r.usedQuotaAfter - r.usedQuotaBefore = r.usedQuotaDelta
  taken : ∀ i r, db.records.get? i = some r → r.sessionId < db.sessions.next ∧ r.recordKey.Taken db
  funded : ∀ o org, db.organizations.get? o = some org → held o db ≤ org.usedQuota

/-- Every record that is new in `db'` has the `used_quota` of `db` as its "before". -/
def Snapshots (db db' : DB) : Prop :=
  ∀ i r, db'.records.get? i = some r → db.records.get? i = some r ∨
    ∃ org, db.organizations.get? r.organizationId = some org ∧ r.usedQuotaBefore = org.usedQuota

variable {db db' : DB} {o id : Nat}

theorem Snapshots.refl (db : DB) : Snapshots db db := fun _ _ h => .inl h

variable {column : OrganizationBillingRecord → Int} {record : OrganizationBillingRecord} {after : Organization}
  {type : RecordType} {usage : Int}

theorem replayed_insert (hrecords : db'.records = db.records.insert record) (id : Nat) :
    replayed column id db' = replayed column id db + if record.sessionId = id then column record else 0 := by
  rw [replayed, hrecords, sum_insert, replayed]

theorem Replays.replayed_fresh (h : Replays db) (column : OrganizationBillingRecord → Int) :
    replayed column db.sessions.next db = 0 := by
  apply sum_eq_zero
  intro i r hr
  rw [if_neg (h.taken i r hr).1.ne]

variable {delta : Int} {s s' : OrganizationBillingSession} {key : RecordKey} {orgs : Table Organization}

theorem Charge.snapshots {userId : Nat} {enforce : Bool} {before org : Organization}
    (hcharge : Charge db db' o delta userId enforce before after) (hget : db.organizations.get? o = some org)
    (hlow : 0 ≤ org.usedQuota) (hlow' : 0 ≤ org.usedQuota + delta) :
    before.usedQuota = org.usedQuota ∧ after.usedQuota = org.usedQuota + delta := by
  obtain ⟨sessions, increment, _, now, charged, hupdate, -⟩ := hcharge
  unfold updateOrganizationUsedQuotaTx at hupdate
  rw [show ({ db with sessions } : DB).organizations.get? o = some org from hget] at hupdate
  simp only at hupdate
  split_ifs at hupdate with hread hactive hguard
  · cases hupdate
    exact ⟨rfl, by omega⟩
  · obtain ⟨_, -, hrest⟩ := bind_eq_ok.mp hupdate
    cases hrest
    have hafter : (org.charged delta increment now).usedQuota = org.usedQuota + delta := usedQuotaExpr_eq hlow'
    refine ⟨?_, hafter⟩
    simp only [Organization.before]
    split_ifs <;> omega

/-! ## One step -/

theorem RecordKey.Taken.step (h : key.Taken db) (hstep : SessionStep db db' id s s' delta)
    (hpre : s.preConsumedQuota ≤ s'.preConsumedQuota) (hclosed : ¬s.status.Open → ¬s'.status.Open)
    (hrefunded : s.status = .refunded → s'.status = .refunded) : key.Taken db' := by
  -- a fact about a row of `db` that the change of row `id` keeps
  have hrow : ∀ {P : OrganizationBillingSession → Prop} {j : Nat}, (P s → P s') →
      (∃ r, db.sessions.get? j = some r ∧ P r) → ∃ r, db'.sessions.get? j = some r ∧ P r := by
    rintro P j hP ⟨r, hr, hPr⟩
    by_cases hj : j = id
    · subst hj
      obtain rfl : s = r := mem_unique hstep.get hr
      exact ⟨s', hstep.get_self, hP hPr⟩
    · exact ⟨r, by rw [hstep.get_of_ne hj, hr], hPr⟩
  cases key with
  | preConsume j =>
    show j < db'.sessions.next
    rw [hstep.sessions, next_modify]
    exact h
  | reserve => exact hrow (fun hle => hle.trans hpre) h
  | settle => exact hrow hclosed h
  | refund => exact hrow hrefunded h
  | adjust => trivial

theorem held_step (hstep : SessionStep db db' id s s' delta) (horg : s'.organizationId = s.organizationId)
    (hdelta : delta = s'.hold - s.hold) (o : Nat) :
    held o db' = held o db + if s.organizationId = o then delta else 0 := by
  unfold held
  rw [hstep.sessions, sum_modify _ _ _ hstep.get, horg]
  split_ifs
  · rw [hdelta]
  · simp

/-- The organization's row after a charge that the holds follow. -/
theorem funded_moved {orgs' : Table Organization} {updates updates' : List UsedQuotaUpdate}
    {org0 : Organization} {h h' : Nat → Int} (hmoved : UsedQuotaMoved orgs orgs' updates updates' id delta org0 after)
    (hfunded : ∀ o org, orgs.get? o = some org → h o ≤ org.usedQuota)
    (hheld : ∀ o, h' o = h o + if id = o then delta else 0) (hnonneg : ∀ o, 0 ≤ h' o) :
    ∀ o org, orgs'.get? o = some org → h' o ≤ org.usedQuota := by
  intro o org hget
  rw [hmoved.get'] at hget
  have hho := hheld o
  split_ifs at hget hho with ho ho' ho'
  · cases hget
    subst ho
    have hle := hfunded o org0 hmoved.get
    have hpos := hnonneg o
    rw [hmoved.used, usedQuotaExpr_eq (by omega)]
    omega
  · exact absurd ho.symm ho'
  · exact absurd ho'.symm ho
  · have hle := hfunded o org hget
    omega

/-- The sum of a column follows an amount of the session, when the new record carries its change. -/
theorem Moved.replayed (hmoved : Moved db db' id s s' key type delta usage) {total : OrganizationBillingSession → Int}
    (hprev : ∀ j r, db.sessions.get? j = some r → replayed column j db = total r)
    (hcolumn : ∀ before after now, column (buildOrganizationBillingRecordFromSession id s' key type delta usage
      before after now) = total s' - total s) :
    ∀ j r, db'.sessions.get? j = some r → Ledger.replayed column j db' = total r := by
  obtain ⟨hstep, before, after, now, -, hrecorded⟩ := hmoved
  have hsession : (buildOrganizationBillingRecordFromSession id s' key type delta usage before after
    now).sessionId = id := rfl
  intro j r hr
  rw [replayed_insert hrecorded.records, hsession]
  by_cases hj : j = id
  · subst hj
    obtain rfl : s' = r := mem_unique hstep.get_self hr
    have hsum := hprev j s hstep.get
    rw [if_pos rfl, hcolumn]
    omega
  · rw [hstep.get_of_ne hj] at hr
    rw [if_neg (Ne.symm hj), hprev j r hr, add_zero]

/-- A session that moves with a charge and a record: the record carries the change of the hold and of the
usage, and its key was not taken. -/
theorem Replays.moved (h : Replays db)
    (hmoved : Moved db db' id s s' key type delta usage) (horg : s'.organizationId = s.organizationId)
    (hwf : s'.WellFormed) (hdelta : delta = s'.hold - s.hold) (husage : usage = s'.usage - s.usage)
    (hpre : s.preConsumedQuota ≤ s'.preConsumedQuota) (hclosed : ¬s.status.Open → ¬s'.status.Open)
    (hrefunded : s.status = .refunded → s'.status = .refunded) (hkey : key.Taken db') :
    Replays db' ∧ Snapshots db db' := by
  have hstep := hmoved.step
  obtain ⟨before, after, _, hcharge, hrecorded⟩ := hmoved.entry
  obtain ⟨org, _, hused⟩ := hstep.organization
  have hwf' : ∀ j r, db'.sessions.get? j = some r → r.WellFormed := by
    intro j r hr
    by_cases hj : j = id
    · subst hj
      obtain rfl : s' = r := mem_unique hstep.get_self hr
      exact hwf
    · rw [hstep.get_of_ne hj] at hr
      exact h.wellFormed j r hr
  have hheld := held_step hstep horg hdelta
  have hnonneg : ∀ o, 0 ≤ held o db' := fun o => held_nonneg fun j r hr _ => hwf' j r hr
  have hnonneg0 : 0 ≤ held s.organizationId db := held_nonneg fun j r hr _ => h.wellFormed j r hr
  have hfunded := h.funded s.organizationId org hused.get
  have hheldself := hheld s.organizationId
  have hpos := hnonneg s.organizationId
  obtain ⟨hbefore, _⟩ := hcharge.snapshots hused.get (by omega) (by omega)
  refine ⟨⟨hwf', hmoved.replayed h.used fun _ _ _ => hdelta, hmoved.replayed h.usage fun _ _ _ => husage,
    fun i r hr => ?_, fun i r hr => ?_,
    funded_moved hused h.funded hheld hnonneg⟩, fun i r hr => ?_⟩
  · rw [hrecorded.records, Table.get?_insert] at hr
    split_ifs at hr
    · cases hr
      show after.usedQuota - before.usedQuota = delta
      omega
    · exact h.exact i r hr
  · rw [hrecorded.records, Table.get?_insert] at hr
    rw [hstep.sessions, next_modify]
    split_ifs at hr
    · cases hr
      exact ⟨lt_next_of_get? hstep.get, hkey⟩
    · exact ⟨(h.taken i r hr).1, (h.taken i r hr).2.step hstep hpre hclosed hrefunded⟩
  · rw [hrecorded.records, Table.get?_insert] at hr
    split_ifs at hr
    · cases hr
      refine .inr ⟨org, ?_, hbefore⟩
      show db.organizations.get? s'.organizationId = some org
      rw [horg]
      exact hused.get
    · exact .inl hr

theorem RecordKey.Taken.mono (h : key.Taken db)
    (hrows : ∀ j r, db.sessions.get? j = some r → db'.sessions.get? j = some r)
    (hnext : db.sessions.next ≤ db'.sessions.next) : key.Taken db' := by
  have hrow : ∀ {P : OrganizationBillingSession → Prop} {j : Nat},
      (∃ r, db.sessions.get? j = some r ∧ P r) → ∃ r, db'.sessions.get? j = some r ∧ P r := by
    rintro P j ⟨r, hr, hPr⟩
    exact ⟨r, hrows j r hr, hPr⟩
  cases key with
  | preConsume => exact Nat.lt_of_lt_of_le h hnext
  | reserve | settle | refund => exact hrow h
  | adjust => trivial

section Opened

variable {env : Env} {f f' : OrganizationFunding} {amount deducted : Int} {identity : SessionIdentity}
  {relayInfo : RelayInfo} {token? : Option (Nat × Token)}

/-- The records of the new session sum up to what it holds and has used. -/
theorem Created.replayed (hcreated : Created env f f' amount db db' identity relayInfo token? deducted)
    (h : Replays db) {column : OrganizationBillingRecord → Int} {total : OrganizationBillingSession → Int}
    (hprev : ∀ j r, db.sessions.get? j = some r → replayed column j db = total r)
    (hnew : ∀ j, replayed column j db' = Ledger.replayed column j db + if db.sessions.next = j then
        total ((newSession env relayInfo token? amount identity).deductedAs deducted) else 0) :
    ∀ j r, db'.sessions.get? j = some r → Ledger.replayed column j db' = total r := by
  intro j r hr
  rw [hnew]
  rcases hcreated.row j r hr with ⟨rfl, rfl⟩ | ⟨hj, hr⟩
  · rw [if_pos rfl, h.replayed_fresh, zero_add]
  · rw [if_neg (Ne.symm hj), hprev j r hr, add_zero]

theorem Replays.opened (h : Replays db) (hamount : 0 ≤ amount)
    (hcreated : Created env f f' amount db db' identity relayInfo token? deducted) :
    Replays db' ∧ Snapshots db db' := by
  set s := (newSession env relayInfo token? amount identity).deductedAs deducted with hs
  have hhold : s.hold = amount := newSession_hold
  have husage : s.usage = 0 := by
    rw [OrganizationBillingSession.usage, hs, deductedAs_status]
    rfl
  obtain ⟨before, after, hcharge, hrecord⟩ := hcreated.entry
  obtain ⟨org, _, hused⟩ := hcreated.organization
  have hnext := hcreated.next
  have hwf' : ∀ j r, db'.sessions.get? j = some r → r.WellFormed := by
    intro j r hr
    rcases hcreated.row j r hr with ⟨-, rfl⟩ | ⟨-, hr⟩
    · exact newSession_wellFormed hamount
    · exact h.wellFormed j r hr
  have hnonneg : ∀ o, 0 ≤ held o db' := fun o => held_nonneg fun j r hr _ => hwf' j r hr
  have hpos : 0 ≤ held f.relayInfo.billingAccountId db := held_nonneg fun j r hr _ => h.wellFormed j r hr
  have hfunded := h.funded _ org hused.get
  obtain ⟨hbefore, _⟩ := hcharge.snapshots hused.get (by omega) (by omega)
  have hfunded' := funded_moved hused h.funded hcreated.held hnonneg
  have htaken : ∀ i r, db.records.get? i = some r → r.sessionId < db'.sessions.next ∧ r.recordKey.Taken db' := by
    intro i r hr
    obtain ⟨hlt, hkey⟩ := h.taken i r hr
    exact ⟨by omega, hkey.mono hcreated.kept (by omega)⟩
  by_cases hzero : 0 < amount
  · rw [if_pos hzero] at hrecord
    refine ⟨⟨hwf', hcreated.replayed h h.used fun j => ?_, hcreated.replayed h h.usage fun j => ?_,
      fun i r hr => ?_, fun i r hr => ?_, hfunded'⟩, fun i r hr => ?_⟩
    · rw [replayed_insert hrecord.records, ← hs, hhold]
      rfl
    · rw [replayed_insert hrecord.records, ← hs, husage]
      rfl
    · rw [hrecord.records, Table.get?_insert] at hr
      split_ifs at hr
      · cases hr
        show after.usedQuota - before.usedQuota = amount
        omega
      · exact h.exact i r hr
    · rw [hrecord.records, Table.get?_insert] at hr
      split_ifs at hr
      · cases hr
        have hlt : db.sessions.next < db'.sessions.next := by omega
        exact ⟨hlt, hlt⟩
      · exact htaken i r hr
    · rw [hrecord.records, Table.get?_insert] at hr
      split_ifs at hr
      · cases hr
        refine .inr ⟨org, ?_, hbefore⟩
        rw [← hused.get, ← hcreated.organizationId]
        rfl
      · exact .inl hr
  · -- a pre-consumption of `0` leaves no record, and its session holds nothing
    rw [if_neg hzero] at hrecord
    have hsame : ∀ column j, replayed column j db' = replayed column j db := by
      intro column j
      rw [replayed, hrecord, replayed]
    refine ⟨⟨hwf', hcreated.replayed h h.used fun j => ?_, hcreated.replayed h h.usage fun j => ?_,
      fun i r hr => ?_, fun i r hr => ?_, hfunded'⟩, fun i r hr => ?_⟩
    · rw [hsame, ← hs, hhold]
      split_ifs <;> omega
    · rw [hsame, ← hs, husage, ite_self, add_zero]
    · rw [hrecord] at hr
      exact h.exact i r hr
    · rw [hrecord] at hr
      exact htaken i r hr
    · rw [hrecord] at hr
      exact .inl hr

end Opened

theorem Replays.leased {g : OrganizationBillingSession → OrganizationBillingSession} (h : Replays db)
    (hdb : db' = { db with sessions := db.sessions.modify id g })
    (hg : ∀ s, db.sessions.get? id = some s → SameAmounts s (g s)) : Replays db' := by
  subst hdb
  have hrow : ∀ j r, (db.sessions.modify id g).get? j = some r →
      ∃ s, db.sessions.get? j = some s ∧ SameAmounts s r := fun j r hr => sameAmounts_of_modify hg hr
  have hrow' : ∀ j s, db.sessions.get? j = some s →
      ∃ r, (db.sessions.modify id g).get? j = some r ∧ SameAmounts s r := by
    intro j s hs
    rw [Table.get?_modify]
    split_ifs with hj
    · subst hj
      exact ⟨g s, by rw [hs]; rfl, hg s hs⟩
    · exact ⟨s, hs, .refl s⟩
  have husage : ∀ {s r : OrganizationBillingSession}, SameAmounts s r → r.usage = s.usage := by
    intro s r hsame
    unfold OrganizationBillingSession.usage
    rcases hsame.status with hst | ⟨hs, hr⟩
    · rw [hst, hsame.settledQuota]
    · rw [if_neg hs.1, if_neg hr.1]
  have hheld : ∀ o, held o { db with sessions := db.sessions.modify id g } = held o db := by
    intro o
    apply sum_modify_congr
    intro s hs
    rw [(hg s hs).organizationId, (hg s hs).hold]
  refine ⟨fun j r hr => ?_, fun j r hr => ?_, fun j r hr => ?_, h.exact, fun i r hr => ?_, fun o org hget => ?_⟩
  · obtain ⟨s, hs, hsame⟩ := hrow j r hr
    exact hsame.wellFormed (h.wellFormed j s hs)
  · obtain ⟨s, hs, hsame⟩ := hrow j r hr
    rw [hsame.hold]
    exact h.used j s hs
  · obtain ⟨s, hs, hsame⟩ := hrow j r hr
    rw [husage hsame]
    exact h.usage j s hs
  · obtain ⟨hlt, hkey⟩ := h.taken i r hr
    refine ⟨hlt, ?_⟩
    cases hk : r.recordKey with
    | preConsume =>
      rw [hk] at hkey
      exact hkey
    | reserve j =>
      rw [hk] at hkey
      obtain ⟨s, hs, hle⟩ := hkey
      obtain ⟨r', hr', hsame⟩ := hrow' j s hs
      exact ⟨r', hr', hsame.preConsumedQuota ▸ hle⟩
    | settle j =>
      rw [hk] at hkey
      obtain ⟨s, hs, hclosed⟩ := hkey
      obtain ⟨r', hr', hsame⟩ := hrow' j s hs
      rcases hsame.status with hst | ⟨hopen, -⟩
      · exact ⟨r', hr', hst ▸ hclosed⟩
      · exact absurd hopen hclosed
    | refund j =>
      rw [hk] at hkey
      obtain ⟨s, hs, hrefunded⟩ := hkey
      obtain ⟨r', hr', hsame⟩ := hrow' j s hs
      rcases hsame.status with hst | ⟨hopen, -⟩
      · exact ⟨r', hr', hst.trans hrefunded⟩
      · exact absurd hrefunded hopen.2
    | adjust => trivial
  · rw [hheld]
    exact h.funded o org hget

/-! ## Every transaction -/

theorem usage_of_open (h : s.status.Open) : s.usage = 0 := if_neg h.1

theorem Replays.ledger (h : Replays db) (heffect : LedgerEffect db db') : Replays db' ∧ Snapshots db db' := by
  cases heffect with
  | nothing hsame =>
    subst hsame
    exact ⟨h, .refl _⟩
  | opened hamount hcreated => exact h.opened hamount hcreated
  | @reserved id s env delta deducted _ hopen hmoved =>
    have hget := hmoved.step.get
    have hwf := h.wellFormed id s hget
    have hpre := hwf.preConsumed
    refine h.moved hmoved rfl ⟨?_, hwf.settled, hwf.refunded⟩ ?_ ?_ ?_ (fun hne => hne) (fun heq => heq) ?_
    · show 0 ≤ s.preConsumedQuota + delta
      omega
    · rw [hold_reserved hopen]
      omega
    · rw [usage_of_open hopen, usage_of_open (s := s.reserved env delta deducted) hopen, sub_zero]
    · show s.preConsumedQuota ≤ s.preConsumedQuota + delta
      omega
    · exact ⟨_, hmoved.step.get_self, le_rfl⟩
  | @settled id s now actual tokenDelta hactual hopen hmoved =>
    have hwf := h.wellFormed id s hmoved.step.get
    have hclosed : ¬(s.settledAs now actual tokenDelta).status.Open := fun hset => hset.1 rfl
    refine h.moved hmoved rfl ⟨hwf.preConsumed, hactual, fun _ => hwf.refunded hopen.2⟩ ?_ ?_ le_rfl
      (fun _ => hclosed) (fun heq => absurd heq hopen.2) ⟨_, hmoved.step.get_self, hclosed⟩
    · rw [hold_of_open hopen]
      rfl
    · rw [usage_of_open hopen, sub_zero]
      rfl
  | @refunded id s now tokenRefunded hrefunded hmoved =>
    have hwf := h.wellFormed id s hmoved.step.get
    have hquota := refundQuota_eq_hold hwf hrefunded
    refine h.moved hmoved rfl ⟨hwf.preConsumed, hwf.settled, fun hne => absurd rfl hne⟩ ?_ ?_ le_rfl
      (fun _ hopen => hopen.2 rfl) (fun _ => rfl) ⟨_, hmoved.step.get_self, rfl⟩
    · rw [hquota, show (s.refundedWith now tokenRefunded).hold = 0 from rfl]
      omega
    · -- a refund takes back the usage of a settled session; an open session had none
      rw [show (s.refundedWith now tokenRefunded).usage = 0 from rfl, hquota]
      unfold OrganizationBillingSession.usage OrganizationBillingSession.hold
      split_ifs with hset
      · simp only [hset]
        omega
      · omega
  | leased hdb hg =>
    refine ⟨h.leased hdb hg, fun i r hr => .inl ?_⟩
    rw [hdb] at hr
    exact hr

/-- Rows of organizations may change in all but `used_quota`. -/
theorem Replays.organizations (h : Replays db) (horgs : ∀ o org', orgs.get? o = some org' →
      ∃ org, db.organizations.get? o = some org ∧ org.usedQuota = org'.usedQuota) :
    Replays { db with organizations := orgs } := by
  refine ⟨h.wellFormed, h.used, h.usage, h.exact, fun i r hr => ?_, fun o org' hget => ?_⟩
  · obtain ⟨hlt, hkey⟩ := h.taken i r hr
    exact ⟨hlt, hkey.mono (fun _ _ hj => hj) le_rfl⟩
  · obtain ⟨org, hget0, hused⟩ := horgs o org' hget
    rw [← hused]
    exact h.funded o org hget0

theorem usedQuota_of_modify {g : Organization → Organization} (hg : ∀ org, (g org).usedQuota = org.usedQuota)
    {org' : Organization} (hget : (orgs.modify id g).get? o = some org') :
    ∃ org, orgs.get? o = some org ∧ org.usedQuota = org'.usedQuota := by
  rw [Table.get?_modify] at hget
  split_ifs at hget
  · obtain ⟨org, horg, rfl⟩ := map_eq_some_iff.mp hget
    exact ⟨org, horg, (hg org).symm⟩
  · exact ⟨org', hget, rfl⟩

theorem Replays.adjusted {a : OrganizationQuotaAdjustment} (h : Replays db) :
    Replays { db with
      adjustments := db.adjustments.insert a
      records := db.records.insert (quotaAdjustmentBillingRecord a) } := by
  have hsum : ∀ {column : OrganizationBillingRecord → Int} (id : Nat),
      column (quotaAdjustmentBillingRecord a) = 0 →
      replayed column id { db with
        adjustments := db.adjustments.insert a
        records := db.records.insert (quotaAdjustmentBillingRecord a) } = replayed column id db := by
    intro column id hzero
    rw [replayed_insert rfl, hzero, ite_self, add_zero]
  refine ⟨h.wellFormed, fun id s hs => ?_, fun id s hs => ?_, fun i r hr => ?_, fun i r hr => ?_, h.funded⟩
  · rw [hsum id rfl]
    exact h.used id s hs
  · rw [hsum id rfl]
    exact h.usage id s hs
  · rw [Table.get?_insert] at hr
    split_ifs at hr
    · cases hr
      exact sub_self a.usedQuota
    · exact h.exact i r hr
  · rw [Table.get?_insert] at hr
    split_ifs at hr
    · cases hr
      exact ⟨db.sessions.next_pos, trivial⟩
    · obtain ⟨hlt, hkey⟩ := h.taken i r hr
      exact ⟨hlt, hkey.mono (fun _ _ hj => hj) le_rfl⟩

theorem Replays.apply (h : Replays db) (heffect : OrganizationEffect db db') : Replays db' ∧ Snapshots db db' := by
  cases heffect with
  | ledger heffect => exact h.ledger heffect
  | @adjusted org a hget hused _ hdb =>
    subst hdb
    refine ⟨h.adjusted.organizations fun o org' hget' => usedQuota_of_modify (fun _ => ?_) hget', fun i r hr => ?_⟩
    · rfl
    simp only [Table.get?_insert] at hr
    split_ifs at hr
    · cases hr
      exact .inr ⟨org, hget, hused⟩
    · exact .inl hr
  | limited _ hdb =>
    subst hdb
    refine ⟨⟨h.wellFormed, h.used, h.usage, h.exact, fun i r hr => ?_, h.funded⟩, fun i r hr => .inl hr⟩
    obtain ⟨hlt, hkey⟩ := h.taken i r hr
    exact ⟨hlt, hkey.mono (fun _ _ hj => hj) le_rfl⟩
  | status hdb =>
    subst hdb
    refine ⟨h.organizations fun o org' hget' => usedQuota_of_modify (fun _ => ?_) hget', fun i r hr => .inl hr⟩
    rfl

/-! ## Fresh keys -/

theorem createOrganizationBillingRecordTx_of_fresh
    (hfresh : ∀ i r, db.records.get? i = some r → r.recordKey ≠ record.recordKey) :
    ∃ db', createOrganizationBillingRecordTx db record = .ok db' := by
  unfold createOrganizationBillingRecordTx
  split
  · rename_i found hfound
    obtain ⟨hget, heq⟩ := Table.find?_some hfound
    exact absurd (RecordKey.text_injective (by simpa using heq)) (hfresh _ _ hget)
  · exact ⟨_, rfl⟩

section FreshKeys

variable {s : OrganizationBillingSession} {i : Nat} {r : OrganizationBillingRecord}

theorem Replays.preConsume_fresh (h : Replays db) (hr : db.records.get? i = some r) :
    r.recordKey ≠ .preConsume db.sessions.next := by
  intro heq
  have htaken := (h.taken i r hr).2
  rw [heq] at htaken
  exact absurd htaken (lt_irrefl db.sessions.next)

theorem Replays.reserve_fresh {total : Int} (h : Replays db) (hget : db.sessions.get? id = some s)
    (htotal : s.preConsumedQuota < total) (hr : db.records.get? i = some r) : r.recordKey ≠ .reserve id total := by
  intro heq
  have htaken := (h.taken i r hr).2
  rw [heq] at htaken
  obtain ⟨s', hget', _⟩ := htaken
  obtain rfl : s = s' := mem_unique hget hget'
  omega

theorem Replays.settle_fresh (h : Replays db) (hget : db.sessions.get? id = some s) (hopen : s.status.Open)
    (hr : db.records.get? i = some r) : r.recordKey ≠ .settle id := by
  intro heq
  have htaken := (h.taken i r hr).2
  rw [heq] at htaken
  obtain ⟨s', hget', hclosed⟩ := htaken
  obtain rfl : s = s' := mem_unique hget hget'
  exact hclosed hopen

theorem Replays.refund_fresh (h : Replays db) (hget : db.sessions.get? id = some s)
    (hst : s.status ≠ .refunded) (hr : db.records.get? i = some r) : r.recordKey ≠ .refund id := by
  intro heq
  have htaken := (h.taken i r hr).2
  rw [heq] at htaken
  obtain ⟨s', hget', hrefunded⟩ := htaken
  obtain rfl : s = s' := mem_unique hget hget'
  exact hst hrefunded

end FreshKeys

theorem Replays.start (hsessions : ∀ i, db.sessions.get? i = none) (hrecords : ∀ i, db.records.get? i = none)
    (hused : ∀ o org, db.organizations.get? o = some org → 0 ≤ org.usedQuota) : Replays db := by
  have hno : ∀ {i s}, db.sessions.get? i = some s → False := by
    intro i s hs
    rw [hsessions] at hs
    cases hs
  have hnor : ∀ {i r}, db.records.get? i = some r → False := by
    intro i r hr
    rw [hrecords] at hr
    cases hr
  refine ⟨fun _ _ hs => (hno hs).elim, fun _ _ hs => (hno hs).elim, fun _ _ hs => (hno hs).elim,
    fun _ _ hr => (hnor hr).elim, fun _ _ hr => (hnor hr).elim, fun o org hget => ?_⟩
  have hzero : held o db = 0 := sum_eq_zero fun i s hs => (hno hs).elim
  rw [hzero]
  exact hused o org hget

theorem usedQuota_sampleDB (o : Nat) (org : Organization) (hget : sampleDB.organizations.get? o = some org) :
    0 ≤ org.usedQuota := by
  simp only [sampleDB, Table.get?_insert] at hget
  split_ifs at hget
  · cases hget
    decide
  · cases hget

end CubeRouter.Ledger
