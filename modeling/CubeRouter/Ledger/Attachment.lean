import CubeRouter.Ledger.Replay

/-!
# The session a pre-consumption attaches

`PreConsumeWithToken` opens a session for its idempotency key or attaches the one that is there. It looks
the key up inside its transaction; when its insert meets the unique index, the transaction is rolled back and the key
is looked up once more, later (`replayPreConsume`). Whichever way the call returns `nil`, the session is the only one
of its key, and all that was pre-consumed under the key sums up to the amount of the call. The lookup does not ask for
the status of the session: a violation fee that is charged again finds its session settled, and settles it again for
the same amount.
-/

namespace CubeRouter.Ledger

open Relational Transition

def OrganizationBillingRecord.preConsumed (r : OrganizationBillingRecord) : Int :=
  if r.recordType = .preConsume then r.usedQuotaDelta else 0

/-- One session per idempotency key, and its pre-consumptions sum up to its pre-consumed quota. -/
structure Attachable (db : DB) : Prop where
  replays : Replays db
  preConsumed : ∀ id s, db.sessions.get? id = some s →
    replayed (·.preConsumed) id db = s.preConsumedQuota
  unique : ∀ i j s t, db.sessions.get? i = some s → db.sessions.get? j = some t →
    s.idempotencyKey = t.idempotencyKey → i = j

/-- The read of `PreConsumeWithToken` after its insert has met the unique index. -/
def OrganizationFunding.replayPreConsume (f : OrganizationFunding) (amount : Int) (db : DB) :
    Except BillingError OrganizationFunding := do
  let identity ← organizationBillingSessionIdentity f.relayInfo
  match ← f.reuseOrganizationBillingSession db amount identity with
  | some f => .ok f
  | none => .error .sessionInsertFailure

variable {env : Env} {f f' : OrganizationFunding} {db db' : DB} {id : Nat} {amount : Int}

/-! ## The invariant -/

theorem unique_of_rows {sessions sessions' : Table OrganizationBillingSession}
    (h : ∀ i j s t, sessions.get? i = some s → sessions.get? j = some t → s.idempotencyKey = t.idempotencyKey → i = j)
    (hrows : ∀ j r, sessions'.get? j = some r → ∃ s, sessions.get? j = some s ∧ s.idempotencyKey = r.idempotencyKey) :
    ∀ i j s t, sessions'.get? i = some s → sessions'.get? j = some t → s.idempotencyKey = t.idempotencyKey → i = j := by
  intro i j s t hs ht heq
  obtain ⟨s0, hs0, hkey⟩ := hrows i s hs
  obtain ⟨t0, ht0, hkey'⟩ := hrows j t ht
  exact h i j s0 t0 hs0 ht0 (by rw [hkey, hkey', heq])

variable {s s' : OrganizationBillingSession} {delta deducted : Int} {identity : SessionIdentity}
  {relayInfo : RelayInfo} {token? : Option (Nat × Token)} {key : String}

theorem SessionStep.keys (hstep : SessionStep db db' id s s' delta) (hkey : s'.idempotencyKey = s.idempotencyKey) :
    ∀ j r, db'.sessions.get? j = some r → ∃ t, db.sessions.get? j = some t ∧ t.idempotencyKey = r.idempotencyKey := by
  intro j r hr
  by_cases hj : j = id
  · subst hj
    obtain rfl : s' = r := Option.mem_unique hstep.get_self hr
    exact ⟨s, hstep.get, hkey.symm⟩
  · rw [hstep.get_of_ne hj] at hr
    exact ⟨r, hr, rfl⟩

@[simp] theorem deductedAs_idempotencyKey (s : OrganizationBillingSession) (d : Int) :
    (s.deductedAs d).idempotencyKey = s.idempotencyKey := by
  unfold OrganizationBillingSession.deductedAs
  split_ifs <;> rfl

theorem Attachable.opened (h : Attachable db) (hamount : 0 ≤ amount)
    (hcreated : Created env f f' amount db db' identity relayInfo token? deducted) : Attachable db' := by
  refine ⟨(h.replays.opened hamount hcreated).1, hcreated.replayed h.replays h.preConsumed fun j => ?_, ?_⟩
  · obtain ⟨_, _, -, hrecord⟩ := hcreated.entry
    rw [deductedAs_preConsumedQuota]
    by_cases hpos : 0 < amount
    · rw [if_pos hpos] at hrecord
      rw [replayed_insert hrecord.records]
      rfl
    · rw [if_neg hpos] at hrecord
      have hzero : (newSession env relayInfo token? amount identity).preConsumedQuota = 0 := by
        show amount = 0
        omega
      rw [hzero, ite_self, add_zero, replayed, hrecord, replayed]
  · -- the key of the new session was free
    have hfresh : ∀ j r, db.sessions.get? j = some r → r.idempotencyKey ≠ identity.key := by
      intro j r hr heq
      have hno := Table.find?_eq_none_iff.mp hcreated.fresh j r hr
      simp [heq] at hno
    have hkey : ((newSession env relayInfo token? amount identity).deductedAs deducted).idempotencyKey
        = identity.key := deductedAs_idempotencyKey _ _
    intro i j s t hs ht heq
    rcases hcreated.row i s hs with ⟨rfl, rfl⟩ | ⟨-, hs⟩
    · rcases hcreated.row j t ht with ⟨rfl, -⟩ | ⟨-, ht⟩
      · rfl
      · exact absurd (heq.symm.trans hkey) (hfresh j t ht)
    · rcases hcreated.row j t ht with ⟨rfl, rfl⟩ | ⟨-, ht⟩
      · exact absurd (heq.trans hkey) (hfresh i s hs)
      · exact h.unique i j s t hs ht heq

theorem Attachable.moved {key : RecordKey} {type : RecordType}
    {usage : Int} (h : Attachable db) (hreplays : Replays db')
    (hmoved : Moved db db' id s s' key type delta usage) (hkey : s'.idempotencyKey = s.idempotencyKey)
    (hpre : (if type = .preConsume then delta else 0) = s'.preConsumedQuota - s.preConsumedQuota) : Attachable db' :=
  ⟨hreplays, hmoved.replayed h.preConsumed fun _ _ _ => hpre, unique_of_rows h.unique (hmoved.step.keys hkey)⟩

theorem Attachable.ledger (h : Attachable db) (heffect : LedgerEffect db db') : Attachable db' := by
  have hreplays := (h.replays.ledger heffect).1
  cases heffect with
  | nothing hsame =>
    subst hsame
    exact h
  | opened hamount hcreated => exact h.opened hamount hcreated
  | @reserved _ s _ delta _ _ _ hmoved =>
    refine h.moved hreplays hmoved rfl ?_
    show delta = s.preConsumedQuota + delta - s.preConsumedQuota
    omega
  | settled _ _ hmoved | refunded _ hmoved => exact h.moved hreplays hmoved rfl (sub_self _).symm
  | leased hdb hg =>
    subst hdb
    refine ⟨hreplays, fun j r hr => ?_, unique_of_rows h.unique fun j r hr => ?_⟩
    · obtain ⟨s, hs, hsame⟩ := sameAmounts_of_modify hg hr
      rw [hsame.preConsumedQuota]
      exact h.preConsumed j s hs
    · obtain ⟨s, hs, hsame⟩ := sameAmounts_of_modify hg hr
      exact ⟨s, hs, hsame.idempotencyKey.symm⟩

theorem Attachable.apply (h : Attachable db) (heffect : OrganizationEffect db db') : Attachable db' := by
  have hreplays := (h.replays.apply heffect).1
  cases heffect with
  | ledger heffect => exact h.ledger heffect
  | @adjusted _ a _ _ _ hdb =>
    subst hdb
    refine ⟨hreplays, fun id s hs => ?_, h.unique⟩
    have hrecord : (quotaAdjustmentBillingRecord a).preConsumed = 0 := rfl
    have hsum := h.preConsumed id s hs
    rw [← hsum, replayed, Table.sum_insert, hrecord, ite_self, add_zero]
    rfl
  | limited _ hdb | status hdb =>
    subst hdb
    exact ⟨hreplays, h.preConsumed, h.unique⟩

theorem Attachable.start (hsessions : ∀ i, db.sessions.get? i = none) (hrecords : ∀ i, db.records.get? i = none)
    (hused : ∀ o org, db.organizations.get? o = some org → 0 ≤ org.usedQuota) : Attachable db := by
  refine ⟨.start hsessions hrecords hused, fun i s hs => ?_, fun i j s t hs => ?_⟩
  · rw [hsessions] at hs
    cases hs
  · rw [hsessions] at hs
    cases hs

/-! ## The call -/

/-- `PreConsumeWithToken` returns `nil`: its transaction committed, or it was rolled back by the unique index
and the session was read again. -/
def PreConsumed (env : Env) (f : OrganizationFunding) (amount : Int) (db : DB) (f' : OrganizationFunding)
    (db' : DB) : Prop :=
  f.preConsumeWithToken env amount db = .ok (f', db') ∨ f.replayPreConsume amount db = .ok f' ∧ db' = db

/-- What a pre-consumption of `amount` under `key` leaves: the session `id`, the only one of its key, for
which `amount` was pre-consumed in all, and which holds it as long as it is neither settled nor refunded. -/
structure Attached (db : DB) (f : OrganizationFunding) (amount : Int) (key : String) (id : Nat)
    (s : OrganizationBillingSession) : Prop where
  session : f.session = some (id, s)
  row : db.sessions.get? id = some s
  named : s.idempotencyKey = key
  only : ∀ j t, db.sessions.get? j = some t → t.idempotencyKey = key → j = id
  preConsumedQuota : s.preConsumedQuota = amount
  booked : replayed (·.preConsumed) id db = amount
  held : s.status.Open → replayed (·.usedQuotaDelta) id db = amount
  settled : s.status = .settled → replayed (·.usedQuotaDelta) id db = s.settledQuota

theorem Attachable.attached (h : Attachable db)
    (hsession : f.session = some (id, s)) (hrow : db.sessions.get? id = some s) (hkey : s.idempotencyKey = key)
    (hamount : s.preConsumedQuota = amount) : Attached db f amount key id s := by
  refine ⟨hsession, hrow, hkey, fun j t ht heq => ?_, hamount, ?_, fun hopen => ?_, fun hsettled => ?_⟩
  · exact h.unique j id t s ht hrow (heq.trans hkey.symm)
  · rw [h.preConsumed id s hrow, hamount]
  · rw [h.replays.used id s hrow, hold_of_open hopen, hamount]
  · rw [h.replays.used id s hrow]
    unfold OrganizationBillingSession.hold
    rw [hsettled]

theorem Attachable.found (h : Attachable db)
    (hfound : findSession db key = some (id, s)) (hsession : f.session = some (id, s))
    (hamount : s.preConsumedQuota = amount) : Attached db f amount key id s := by
  obtain ⟨hget, hkey⟩ := Table.find?_some hfound
  exact h.attached hsession hget (by simpa using hkey) hamount

theorem Attachable.created (h : Attachable db) (hamount : 0 ≤ amount)
    (hcreated : Created env f f' amount db db' identity relayInfo token? deducted) :
    ∃ id s, Attached db' f' amount identity.key id s ∧ s.status = .preConsumed ∧
      ∃ org org', db.organizations.get? f.relayInfo.billingAccountId = some org ∧
        db'.organizations.get? f.relayInfo.billingAccountId = some org' ∧ org'.usedQuota = org.usedQuota + amount := by
  have hrow : db'.sessions.get? db.sessions.next
      = some ((newSession env relayInfo token? amount identity).deductedAs deducted) := by
    rw [hcreated.sessions, Table.get?_modify_self, Table.get?_insert_self]
    rfl
  refine ⟨db.sessions.next, _, (h.opened hamount hcreated).attached hcreated.session' hrow
    (deductedAs_idempotencyKey _ _) (deductedAs_preConsumedQuota _ _), deductedAs_status _ _, ?_⟩
  obtain ⟨org, _, hmoved⟩ := hcreated.organization
  have hlow := h.replays.funded _ org hmoved.get
  have hheld : 0 ≤ held f.relayInfo.billingAccountId db := held_nonneg fun j r hr _ => h.replays.wellFormed j r hr
  obtain ⟨org', hget', hused⟩ := hmoved.used_add ⟨org, hmoved.get, rfl⟩ (by omega)
  exact ⟨org, org', hmoved.get, hget', hused⟩

theorem replayPreConsume_ok (h : f.replayPreConsume amount db = .ok f') :
    ∃ identity id s, organizationBillingSessionIdentity f.relayInfo = .ok identity ∧
      findSession db identity.key = some (id, s) ∧ f'.session = some (id, s) ∧ s.preConsumedQuota = amount := by
  obtain ⟨identity, hid, h1⟩ := bind_eq_ok.mp h
  obtain ⟨reused, hreuse, h2⟩ := bind_eq_ok.mp h1
  rcases reused with - | g
  · cases h2
  · cases h2
    obtain ⟨id, s, hfound, hmatch, hs, -⟩ := reuseOrganizationBillingSession_ok hreuse
    exact ⟨identity, id, s, hid, hfound, hs, preConsumedQuota_of_matches hmatch⟩

/-- **A replayed pre-consumption books once.** Whenever `PreConsumeWithToken` returns `nil` for an organization
request, after any run of the ledger and of the administration, the session it attached is the only one of its
key, has `PreConsumedQuota = amount`, and its pre-consumptions sum up to `amount`, which the organization's
`used_quota` still holds unless the session was settled or refunded. If the key was free, the session is
`pre_consumed` and `used_quota` went up by `amount`; if not, the call changed nothing. -/
theorem preConsume_attaches (db : DB) (hsessions : ∀ i, db.sessions.get? i = none)
    (hrecords : ∀ i, db.records.get? i = none)
    (hused : ∀ o org, db.organizations.get? o = some org → 0 ≤ org.usedQuota) (ops : List OrganizationOp)
    (env : Env) (f f' : OrganizationFunding) (amount : Int) (db' : DB)
    (hbill : isOrganizationBilling f.relayInfo = true)
    (hcall : PreConsumed env f amount (run OrganizationOp.apply db ops) f' db') :
    ∃ identity id s, organizationBillingSessionIdentity f.relayInfo = .ok identity ∧
      Attached db' f' amount identity.key id s ∧ (findSession (run OrganizationOp.apply db ops) identity.key ≠ none →
        db' = run OrganizationOp.apply db ops) ∧
      (findSession (run OrganizationOp.apply db ops) identity.key = none → s.status = .preConsumed ∧
        ∃ org org', (run OrganizationOp.apply db ops).organizations.get? f.relayInfo.billingAccountId = some org ∧
          db'.organizations.get? f.relayInfo.billingAccountId = some org' ∧
          org'.usedQuota = org.usedQuota + amount) := by
  have h : Attachable (run OrganizationOp.apply db ops) :=
    run_invariant' (fun db' op h => h.apply (op.effect db')) (.start hsessions hrecords hused) ops
  generalize run OrganizationOp.apply db ops = db1 at h hcall ⊢
  rcases hcall with hcall | ⟨hreplay, rfl⟩
  · rcases preConsumeWithToken_ok hcall with ⟨hno, -⟩ | ⟨-, hamount, identity, hid, hcase⟩
    · rw [hbill] at hno
      cases hno
    · rcases hcase with ⟨rfl, id, s, hfound, hs, -, hpre⟩ | ⟨_, _, _, hcreated⟩
      · refine ⟨identity, id, s, hid, h.found hfound hs hpre, fun _ => rfl, fun hnone => ?_⟩
        rw [hfound] at hnone
        cases hnone
      · obtain ⟨id, s, hattached, hstatus, hcharged⟩ := h.created hamount hcreated
        exact ⟨identity, id, s, hid, hattached, fun hne => absurd hcreated.fresh hne, fun _ => ⟨hstatus, hcharged⟩⟩
  · obtain ⟨identity, id, s, hid, hfound, hs, hpre⟩ := replayPreConsume_ok hreplay
    refine ⟨identity, id, s, hid, h.found hfound hs hpre, fun _ => rfl, fun hnone => ?_⟩
    rw [hfound] at hnone
    cases hnone

def toppedUpOps : List OrganizationOp := (sampleOps.take 2).map .ledger

def sampleFunding : OrganizationFunding := ⟨sampleRequest, none, 0⟩

/-- The session was topped up to `120`, and a call with that amount is a replay of it. -/
theorem preConsume_attaches_sample : ∃ f' db',
    PreConsumed (sampleEnv 13) sampleFunding 120 (run OrganizationOp.apply sampleDB toppedUpOps) f' db' ∧
    ∃ identity id s, organizationBillingSessionIdentity sampleFunding.relayInfo = .ok identity ∧
      Attached db' f' 120 identity.key id s ∧
      (findSession (run OrganizationOp.apply sampleDB toppedUpOps) identity.key ≠ none →
        db' = run OrganizationOp.apply sampleDB toppedUpOps) ∧
      (findSession (run OrganizationOp.apply sampleDB toppedUpOps) identity.key = none → s.status = .preConsumed ∧
        ∃ org org', (run OrganizationOp.apply sampleDB toppedUpOps).organizations.get?
            sampleFunding.relayInfo.billingAccountId = some org ∧
          db'.organizations.get? sampleFunding.relayInfo.billingAccountId = some org' ∧
          org'.usedQuota = org.usedQuota + 120) := by
  have hok : (sampleFunding.preConsumeWithToken (sampleEnv 13) 120
      (run OrganizationOp.apply sampleDB toppedUpOps)).toOption.isSome = true := by decide +kernel
  obtain ⟨⟨f', db'⟩, hr⟩ := Option.isSome_iff_exists.mp hok
  have hcall : PreConsumed (sampleEnv 13) sampleFunding 120 (run OrganizationOp.apply sampleDB toppedUpOps) f' db' :=
    .inl (toOption_eq_some.mp hr)
  exact ⟨f', db', hcall, preConsume_attaches sampleDB (fun _ => rfl) (fun _ => rfl) usedQuota_sampleDB
    toppedUpOps _ _ f' 120 db' (by decide) hcall⟩

/-- The request was settled for `60`; its replay succeeds on the settled session. -/
theorem replay_attaches_settled_session :
    ¬ ∀ (ops : List OrganizationOp) (env : Env) (f f' : OrganizationFunding) (amount : Int) (db' : DB),
      isOrganizationBilling f.relayInfo = true →
      PreConsumed env f amount (run OrganizationOp.apply sampleDB ops) f' db' →
      ∃ id s, f'.session = some (id, s) ∧ s.status = .preConsumed := by
  intro h
  have hstatus : ((sampleFunding.preConsumeWithToken (sampleEnv 20) 120
      (run OrganizationOp.apply sampleDB (sampleOps.map .ledger))).toOption.bind fun r =>
        r.1.session.map fun x => x.2.status) = some .settled := by decide +kernel
  obtain ⟨⟨f', db'⟩, hr, hsettled⟩ := Option.bind_eq_some_iff.mp hstatus
  obtain ⟨_, s, hs, hpre⟩ := h (sampleOps.map .ledger) (sampleEnv 20) sampleFunding f' 120 db'
    (by decide) (.inl (toOption_eq_some.mp hr))
  simp only [hs, Option.map_some] at hsettled
  rw [hpre] at hsettled
  cases hsettled

end CubeRouter.Ledger
