import CubeRouter.Billing.Session
import CubeRouter.Ledger.Conservation

/-!
# An organization session and its ledger row

A `BillingSession` over an organization keeps its own `preConsumedQuota` and hands the ledger a
difference; the ledger adds it to the row's `preConsumedQuota`. The two agree as long as every top-up the
session counts is made by the ledger. `ReserveMoreWithToken` skips a session under repair without an
error, and `Reserve` counts the top-up all the same: from then on the two are apart by it (`gap`), and a
settlement charges that much too little.

`Open` is the invariant of a session between pre-consumption and settlement. Each event keeps it and
leaves the gap alone, except a top-up under repair, which widens it (`Open.step`).
-/

namespace CubeRouter.Billing

open Relational Transition Ledger Option

/-- The session `NewBillingSession` builds for an organization request. -/
def BillingSession.forOrganization (relayInfo : RelayInfo) : BillingSession where
  relayInfo := relayInfo
  funding := .organization { relayInfo }

def BillingSession.sessionId (s : BillingSession) : Nat :=
  match s.funding with
  | .organization f => f.session.elim 0 fun p => p.1
  | _ => 0

/-- A call of `Reserve`, or a transition of the session's row by the repair worker. -/
inductive LiveEvent
  | reserve (env : Env) (answer : CacheAnswer) (targetQuota : Int)
  | claimExpired (now : Int)
  | markRepairFailed (message : String) (now : Int)

def Live.step (st : Settings) (σ : Live) : LiveEvent → Live
  | .reserve env answer targetQuota =>
    let o := σ.session.reserve st env answer targetQuota σ.world
    ⟨o.session, o.world⟩
  | .claimExpired now =>
    { σ with world := { σ.world with
      toDB := (claimExpiredOrganizationBillingSession σ.session.sessionId now σ.world.toDB).2 } }
  | .markRepairFailed message now =>
    { σ with world := { σ.world with
      toDB := (markOrganizationBillingSessionRepairFailed σ.session.sessionId message now
        σ.world.toDB).2 } }

def Live.rowStatus (σ : Live) : Option SessionStatus :=
  (σ.world.sessions.get? σ.session.sessionId).map fun s => s.status

def Live.notUnderRepair (σ : Live) : LiveEvent → Prop
  | .reserve _ _ targetQuota =>
    ¬ (σ.session.preConsumedQuota < targetQuota ∧ σ.rowStatus = some .repairing)
  | _ => True

instance (σ : Live) (e : LiveEvent) : Decidable (σ.notUnderRepair e) :=
  match e with
  | .reserve _ _ targetQuota => inferInstanceAs
      (Decidable (¬ (σ.session.preConsumedQuota < targetQuota ∧ σ.rowStatus = some .repairing)))
  | .claimExpired .. | .markRepairFailed .. => .isTrue trivial

/-! ## The invariant -/

/-- An open session: row `id` of organization `o`, not settled and not refunded, known in memory with its
current pre-consumed quota, which is what the organization is charged on top of `u`. A limited token
`limited` has paid the same. -/
structure Open (id o : Nat) (u : Int) (limited : Option (Nat × Int)) (σ : Live)
    (f : OrganizationFunding) (row : OrganizationBillingSession) : Prop where
  funding : σ.session.funding = .organization f
  memory : ∃ mem, f.session = some (id, mem) ∧ mem.preConsumedQuota = row.preConsumedQuota
  billing : isOrganizationBilling f.relayInfo = true
  request : isOrganizationBilling σ.session.relayInfo = true ∧
    σ.session.relayInfo.organizationBillingSessionId = id
  get : σ.world.sessions.get? id = some row
  organizationId : row.organizationId = o
  unsettled : row.status ≠ .settled
  unrefunded : row.status ≠ .refunded
  flags : σ.session.settled = false ∧ σ.session.refunded = false ∧ σ.session.trusted = false
  nonneg : 0 ≤ row.preConsumedQuota
  used : ∃ org, σ.world.organizations.get? o = some org ∧ org.usedQuota = u + row.preConsumedQuota
  token : ∀ t ∈ limited, f.relayInfo.isPlayground = false ∧ row.tokenId = t.1 ∧ 0 < t.1 ∧
    row.tokenUnlimitedQuota = false ∧
    remainOf σ.world.tokens t.1 = some (t.2 - row.preConsumedQuota)

/-- How far the session's running total is ahead of the row. -/
def gap (σ : Live) (row : OrganizationBillingSession) : Int :=
  σ.session.preConsumedQuota - row.preConsumedQuota

variable {st : Settings} {env : Env} {id o : Nat} {u : Int} {limited : Option (Nat × Int)} {σ : Live}
  {f f' : OrganizationFunding} {row : OrganizationBillingSession}

theorem Open.sessionId (h : Open id o u limited σ f row) : σ.session.sessionId = id := by
  obtain ⟨_, hmem, -⟩ := h.memory
  simp [BillingSession.sessionId, h.funding, hmem]

theorem Open.rowStatus (h : Open id o u limited σ f row) : σ.rowStatus = some row.status := by
  rw [Live.rowStatus, h.sessionId, h.get]
  rfl

theorem Open.saveSession (h : Open id o u limited σ f row) {row' : OrganizationBillingSession}
    (horg : row'.organizationId = row.organizationId) (htoken : row'.tokenId = row.tokenId)
    (hunl : row'.tokenUnlimitedQuota = row.tokenUnlimitedQuota)
    (hpre : row'.preConsumedQuota = row.preConsumedQuota) (h1 : row'.status ≠ .settled) (h2 : row'.status ≠ .refunded) :
    Open id o u limited { σ with world := { σ.world with toDB := saveSession σ.world.toDB id row' } } f row' := by
  refine ⟨h.funding, ?_, h.billing, h.request, ?_, horg.trans h.organizationId, h1, h2, h.flags, ?_, ?_, ?_⟩
  · rw [hpre]
    exact h.memory
  · show (σ.world.sessions.modify id fun _ => row').get? id = some row'
    rw [Table.get?_modify_self, h.get]
    rfl
  · rw [hpre]
    exact h.nonneg
  · rw [hpre]
    exact h.used
  · rw [htoken, hunl, hpre]
    exact h.token

/-! ## Topping up -/

variable {deducted : Int} {relayInfo' : RelayInfo} {s' : BillingSession} {t : Nat × Int}

theorem Open.toppedUp {delta : Int} {db' : DB} (h : Open id o u limited σ f row) (hdelta : 0 < delta) (hlow : 0 ≤ u)
    (hstatus : row.status = .preConsumed ∨ row.status = .failed)
    (hstep : SessionStep σ.world.toDB db' id row (row.reserved env delta deducted) delta)
    (htoken : decreaseTokenQuotaTx env.now true σ.world.tokens
      (organizationBillingTokenQuotaRelayInfo id row f.relayInfo) delta
      (some row.tokenUnlimitedQuota) = .ok (deducted, relayInfo', db'.tokens))
    (hmem : f'.session = some (id, row.reserved env delta deducted))
    (hsame : SameRequest f.relayInfo f'.relayInfo) (hfunding : s'.funding = .organization f')
    (hrequest : isOrganizationBilling s'.relayInfo = true ∧ s'.relayInfo.organizationBillingSessionId = id)
    (hflags : s'.settled = false ∧ s'.refunded = false ∧ s'.trusted = false) :
    Open id o u limited ⟨s', { σ.world with toDB := db' }⟩ f' (row.reserved env delta deducted) := by
  have hnonneg := h.nonneg
  refine ⟨hfunding, ⟨_, hmem, rfl⟩, hsame.billing.trans h.billing, hrequest, hstep.get_self,
    h.organizationId, ?_, ?_, hflags, ?_, ?_, fun t ht => ?_⟩
  · rcases hstatus with hst | hst <;> simp [OrganizationBillingSession.reserved, hst]
  · rcases hstatus with hst | hst <;> simp [OrganizationBillingSession.reserved, hst]
  · show 0 ≤ row.preConsumedQuota + delta
    omega
  · obtain ⟨org, _, hmoved⟩ := hstep.organization
    rw [h.organizationId] at hmoved
    have hadd := hmoved.used_add h.used (by omega)
    show ∃ org, db'.organizations.get? o = some org ∧ org.usedQuota = u + (row.preConsumedQuota + delta)
    rw [← add_assoc]
    exact hadd
  · obtain ⟨hplay, hid, hpos, hunl, hremain⟩ := h.token t ht
    refine ⟨hsame.isPlayground.trans hplay, hid, hpos, hunl, ?_⟩
    rw [hunl] at htoken
    have hrow : (organizationBillingTokenQuotaRelayInfo id row f.relayInfo).tokenId = t.1 := hid
    have hmove := decreaseTokenQuotaTx_limited htoken hplay (by rw [hrow]; exact hpos)
    rw [hrow] at hmove
    show remainOf db'.tokens t.1 = some (t.2 - (row.preConsumedQuota + delta))
    rw [hmove, hremain, map_some, sub_sub]

theorem Open.skipped (h : Open id o u limited σ f row)
    (hfunding : s'.funding = .organization (f.withSession id row row.tokenRemainDeductedQuota))
    (hrequest : isOrganizationBilling s'.relayInfo = true ∧ s'.relayInfo.organizationBillingSessionId = id)
    (hflags : s'.settled = false ∧ s'.refunded = false ∧ s'.trusted = false) :
    Open id o u limited ⟨s', σ.world⟩ (f.withSession id row row.tokenRemainDeductedQuota) row :=
  ⟨hfunding, ⟨row, rfl, rfl⟩, h.billing, hrequest, h.get, h.organizationId, h.unsettled, h.unrefunded, hflags,
    h.nonneg, h.used, h.token⟩

theorem reserve_organization {answer : CacheAnswer} {target : Int}
    (h : Open id o u limited σ f row) (hmore : σ.session.preConsumedQuota < target) :
    σ.session.reserve st env answer target σ.world =
      match f.reserveMoreWithToken env (target - σ.session.preConsumedQuota) σ.world.toDB with
      | .error e => ⟨some e, σ.session, σ.world⟩ | .ok (f, db) =>
        ⟨none, { σ.session with
          funding := .organization f
          preConsumedQuota := target
          tokenConsumed := f.tokenConsumed
          extraReserved := σ.session.extraReserved + (target - σ.session.preConsumedQuota)
          relayInfo := { f.relayInfo with
            finalPreConsumedQuota := target
            billingSource := .organization
            subscriptionId := 0 } }, { σ.world with toDB := db }⟩ := by
  obtain ⟨hsettled, hrefunded, htrusted⟩ := h.flags
  unfold BillingSession.reserve
  rw [if_neg (by simp [hsettled, hrefunded, htrusted]; omega)]
  simp only [h.funding]
  cases f.reserveMoreWithToken env (target - σ.session.preConsumedQuota) σ.world.toDB with
  | error => rfl
  | ok =>
    have htarget : σ.session.preConsumedQuota + (target - σ.session.preConsumedQuota) = target := by omega
    simp [BillingSession.toppedUp, BillingSession.syncRelayInfo, BillingSession.currentRelayInfo, FundingSource.source,
      FundingSource.subscriptionId]

theorem Open.reserve (h : Open id o u limited σ f row) (hlow : 0 ≤ u) (answer : CacheAnswer) (target : Int) :
    ∃ f' row', Open id o u limited (σ.step st (.reserve env answer target)) f' row' ∧
      (σ.notUnderRepair (.reserve env answer target) → gap (σ.step st (.reserve env answer target)) row' = gap σ row) ∧
      (¬ σ.notUnderRepair (.reserve env answer target) →
      gap σ row < gap (σ.step st (.reserve env answer target)) row') := by
  obtain ⟨hsettled, hrefunded, htrusted⟩ := h.flags
  obtain ⟨_, hmem, _⟩ := h.memory
  simp only [Live.notUnderRepair, h.rowStatus, Option.some.injEq, not_not, Live.step]
  by_cases hmore : σ.session.preConsumedQuota < target
  · rw [reserve_organization h hmore]
    have hdelta : 0 < target - σ.session.preConsumedQuota := by omega
    by_cases hrepair : row.status = .repairing
    · -- the ledger skips the top-up and the session counts it
      rw [reserveMoreWithToken_skips h.billing hdelta hmem h.get hrepair]
      refine ⟨_, row, h.skipped rfl ⟨h.billing, rfl⟩ ⟨hsettled, hrefunded, htrusted⟩,
        fun hno => absurd ⟨hmore, hrepair⟩ hno, fun _ => ?_⟩
      simp only [gap]
      omega
    · cases hres : f.reserveMoreWithToken env (target - σ.session.preConsumedQuota) σ.world.toDB with
      | error => exact ⟨f, row, h, fun _ => rfl, fun hskip => absurd hskip.2 hrepair⟩
      | ok r =>
        obtain ⟨f', _⟩ := r
        rcases reserveMoreWithToken_ok hres with ⟨hno, -, -⟩ | ⟨-, _, i, _, hensure, htx⟩
        · rcases hno with hno | hno
          · rw [h.billing] at hno
            cases hno
          · omega
        · rw [ensureSession_of_session hmem] at hensure
          cases hensure
          obtain ⟨s, hget, hcase⟩ := reserveMoreTx_ok htx
          obtain rfl : s = row := mem_unique hget h.get
          rcases hcase with ⟨-, h1, h2, -⟩ | ⟨_, _, hstatus, hstep, htoken, hs, hsame, hlink, -⟩
          · cases hst : s.status
            · exact absurd hst h1
            · exact absurd hst hrepair
            · exact absurd hst h.unsettled
            · exact absurd hst h.unrefunded
            · exact absurd hst h2
          · refine ⟨f', _, h.toppedUp hdelta hlow hstatus hstep htoken hs hsame rfl
              ⟨hsame.billing.trans h.billing, hlink⟩ ⟨hsettled, hrefunded, htrusted⟩,
              fun _ => ?_, fun hskip => absurd hskip.2 hrepair⟩
            simp only [gap, OrganizationBillingSession.reserved]
            omega
  · have hnone : σ.session.reserve st env answer target σ.world = ⟨none, σ.session, σ.world⟩ := by
      unfold BillingSession.reserve
      rw [if_pos (.inr (.inr (.inr (by omega))))]
    rw [hnone]
    exact ⟨f, row, h, fun _ => rfl, fun hskip => absurd hskip.1 hmore⟩

/-! ## One event -/

/-- Each event keeps the session open; it leaves the gap alone, or widens it when it is a top-up under
repair. -/
theorem Open.step (st : Settings) (h : Open id o u limited σ f row) (hlow : 0 ≤ u) (e : LiveEvent) :
    ∃ f' row', Open id o u limited (σ.step st e) f' row' ∧ (σ.notUnderRepair e → gap (σ.step st e) row' = gap σ row) ∧
      (¬ σ.notUnderRepair e → gap σ row < gap (σ.step st e) row') := by
  cases e with
  | reserve _ answer target => exact h.reserve hlow answer target
  | claimExpired =>
    simp only [Live.step, h.sessionId, claimExpiredOrganizationBillingSession, h.get]
    split_ifs with hclaim
    · exact ⟨f, _, h.saveSession rfl rfl rfl rfl (by simp [OrganizationBillingSession.claimed])
        (by simp [OrganizationBillingSession.claimed]), fun _ => rfl, fun hno => absurd trivial hno⟩
    · exact ⟨f, row, h, fun _ => rfl, fun hno => absurd trivial hno⟩
  | markRepairFailed =>
    simp only [Live.step, h.sessionId, markOrganizationBillingSessionRepairFailed, h.get]
    split_ifs with hst
    · exact ⟨f, _, h.saveSession rfl rfl rfl rfl (by simp) (by simp), fun _ => rfl,
        fun hno => absurd trivial hno⟩
    · exact ⟨f, row, h, fun _ => rfl, fun hno => absurd trivial hno⟩

/-- After a run the session is still open, and the gap has grown exactly when a top-up was asked for
under repair. -/
theorem Open.run (h : Open id o u limited σ f row) (hlow : 0 ≤ u) (events : List LiveEvent) :
    ∃ f' row', Open id o u limited (Transition.run (Live.step st) σ events) f' row' ∧
      gap σ row ≤ gap (Transition.run (Live.step st) σ events) row' ∧
      (gap (Transition.run (Live.step st) σ events) row' = gap σ row ↔
        Along (Live.step st) Live.notUnderRepair σ events) := by
  induction events generalizing σ f row with
  | nil => exact ⟨f, row, h, le_rfl, by simp [Along]⟩
  | cons e _ ih =>
    obtain ⟨_, _, h1, hkeep, hwiden⟩ := h.step st hlow e
    obtain ⟨f2, row2, h2, hle, hiff⟩ := ih h1
    refine ⟨f2, row2, h2, ?_⟩
    by_cases he : σ.notUnderRepair e
    · rw [hkeep he] at hle hiff
      exact ⟨hle, by simp [Along, he]; exact hiff⟩
    · have hlt := hwiden he
      simp only [run_cons, Along, he, false_and, iff_false]
      exact ⟨by omega, by omega⟩

/-! ## Opening and settling -/

def limitedToken (w : World) (relayInfo : RelayInfo) : Option (Nat × Int) :=
  if relayInfo.isPlayground ∨ noToken relayInfo then none
  else (findTokenForQuota false w.tokens relayInfo).bind fun p =>
    if p.2.unlimitedQuota then none else some (p.1, p.2.remainQuota)

variable {tokenAnswer fundingAnswer : CacheAnswer} {tokenQuota quota : Int} {w : World} {relayInfo : RelayInfo}

/-- An organization session is never trusted: it always pre-consumes the whole amount. -/
theorem preConsume_organization (relayInfo : RelayInfo) :
    (BillingSession.forOrganization relayInfo).preConsume st env tokenAnswer fundingAnswer tokenQuota quota w =
      match OrganizationFunding.preConsumeWithToken { relayInfo } env quota w.toDB with
      | .error e => ⟨some e, .forOrganization relayInfo, w⟩ | .ok (f, db) => ⟨none, {
          relayInfo := { f.relayInfo with
            finalPreConsumedQuota := quota
            billingSource := .organization
            subscriptionId := 0 }
          funding := .organization f
          preConsumedQuota := quota
          tokenConsumed := f.tokenConsumed }, { w with toDB := db }⟩ := by
  have htrust : (BillingSession.forOrganization relayInfo).shouldTrust st tokenQuota = false := by
    unfold BillingSession.shouldTrust
    split_ifs <;> rfl
  unfold BillingSession.preConsume BillingSession.effectiveQuota
  rw [htrust]
  simp only [BillingSession.forOrganization, Bool.false_eq_true, if_false]
  cases OrganizationFunding.preConsumeWithToken { relayInfo } env quota w.toDB with
  | error | ok => rfl

theorem preConsumeBilling_organization (st : Settings) (env : Env) (answers : OpenAnswers)
    (tokenQuota quota : Int) (r : Request) (w : World) (hbill : isOrganizationBilling r.relayInfo = true) :
    (∃ e, preConsumeBilling st env answers tokenQuota quota r w = (.error e, w)) ∨
      ∃ s w', (BillingSession.forOrganization r.relayInfo).preConsume st env (answers.token .organization)
          answers.wallet tokenQuota quota w = ⟨none, s, w'⟩ ∧
        preConsumeBilling st env answers tokenQuota quota r w = (.ok (.withBilling s), w') := by
  unfold preConsumeBilling newBillingSession BillingSession.open
  rw [if_pos hbill]
  by_cases hneg : quota < 0
  · exact .inl ⟨_, if_pos hneg⟩
  · simp only [if_neg hneg, FundingSource.source]
    rw [show ({ relayInfo := r.relayInfo, funding := .organization { relayInfo := r.relayInfo } } :
      BillingSession) = .forOrganization r.relayInfo from rfl, preConsume_organization]
    cases OrganizationFunding.preConsumeWithToken { relayInfo := r.relayInfo } env quota w.toDB with
    | error e => exact .inl ⟨e, rfl⟩
    | ok => exact .inr ⟨_, _, rfl, rfl⟩

theorem limitedToken_some (h : limitedToken w relayInfo = some t) :
    relayInfo.isPlayground = false ∧ ¬ noToken relayInfo ∧
      ∃ token, findTokenForQuota false w.tokens relayInfo = some (t.1, token) ∧
        token.unlimitedQuota = false ∧ remainOf w.tokens t.1 = some t.2 := by
  unfold limitedToken at h
  split_ifs at h with hskip
  rw [not_or, Bool.not_eq_true] at hskip
  obtain ⟨⟨i, token⟩, hfound, hlim⟩ := bind_eq_some_iff.mp h
  split_ifs at hlim with hunl
  cases hlim
  refine ⟨hskip.1, hskip.2, token, hfound, by simpa using hunl, ?_⟩
  rw [remainOf, (findTokenForQuota_some hfound).1]
  rfl

theorem created_limitedToken {db : DB} {identity : SessionIdentity}
    {token? : Option (Nat × Token)}
    (h : Created env { relayInfo } f quota w.toDB db identity relayInfo' token? deducted)
    (ht : limitedToken w relayInfo = some t) :
    let row := (newSession env relayInfo' token? quota identity).deductedAs deducted
    (f.relayInfo.isPlayground = false ∧ row.tokenId = t.1 ∧ 0 < t.1 ∧ row.tokenUnlimitedQuota = false ∧
      remainOf db.tokens t.1 = some (t.2 - quota)) ∧
    f.relayInfo.tokenId = t.1 ∧ ∀ token, db.tokens.get? t.1 = some token → token.unlimitedQuota = false := by
  obtain ⟨hplay, hnamed, token, hfound, hunl, hremain⟩ := limitedToken_some ht
  obtain ⟨hget, -, -⟩ := findTokenForQuota_some hfound
  have hpos : 0 < t.1 := Table.pos_of_get? hget
  rcases loadTokenForQuotaTx_ok h.load with ⟨-, -, hno⟩ | ⟨j, token', rfl, rfl, hfound'⟩
  · exact absurd hno hnamed
  · rw [hfound] at hfound'
    cases hfound'
    obtain ⟨relayInfo'', htoken⟩ := h.token
    have htoken' : decreaseTokenQuotaTx env.now false w.tokens (relayInfo.withToken t.1 token) quota
        (some false) = .ok (deducted, relayInfo'', db.tokens) := by
      simpa [newSession, hunl] using htoken
    have hmove := decreaseTokenQuotaTx_limited htoken' hplay hpos
    refine ⟨⟨h.request.isPlayground.trans hplay, by simp [newSession], hpos, by simp [newSession, hunl], ?_⟩,
      h.tokenId hpos, fun token' hget' => ?_⟩
    · rw [show (relayInfo.withToken t.1 token).tokenId = t.1 from rfl, hremain] at hmove
      rw [hmove]
      rfl
    · obtain ⟨token0, hget0, hflag⟩ := decreaseTokenQuotaTx_unlimited htoken' hget'
      obtain rfl : token = token0 := mem_unique hget hget0
      rw [← hflag]
      exact hunl

theorem preConsume_created (hbill : isOrganizationBilling relayInfo = true)
    (hfresh : ∀ identity, organizationBillingSessionIdentity relayInfo = .ok identity →
      findSession w.toDB identity.key = none)
    (hok : ((BillingSession.forOrganization relayInfo).preConsume st env tokenAnswer fundingAnswer
      tokenQuota quota w).error = none) : 0 ≤ quota ∧ ∃ f db identity relayInfo' token? deducted,
      Created env { relayInfo } f quota w.toDB db identity relayInfo' token? deducted ∧
      (BillingSession.forOrganization relayInfo).preConsume st env tokenAnswer fundingAnswer
      tokenQuota quota w = ⟨none, {
          relayInfo := { f.relayInfo with
            finalPreConsumedQuota := quota
            billingSource := .organization
            subscriptionId := 0 }
          funding := .organization f
          preConsumedQuota := quota
          tokenConsumed := f.tokenConsumed }, { w with toDB := db }⟩ := by
  rw [preConsume_organization] at hok ⊢
  cases hres : OrganizationFunding.preConsumeWithToken { relayInfo } env quota w.toDB with
  | error =>
    rw [hres] at hok
    cases hok
  | ok r =>
    obtain ⟨f, db⟩ := r
    rcases preConsumeWithToken_ok hres with ⟨hno, -, -⟩ | ⟨-, hquota, identity, hid, hcase⟩
    · rw [hbill] at hno
      cases hno
    · rcases hcase with ⟨-, i, s, hfound, -⟩ | ⟨relayInfo', token?, deducted, hc⟩
      · rw [hfresh identity hid] at hfound
        cases hfound
      · exact ⟨hquota, f, db, identity, relayInfo', token?, deducted, hc, rfl⟩

theorem Open.created {org : Organization} (hbill : isOrganizationBilling relayInfo = true)
    (hfresh : ∀ identity, organizationBillingSessionIdentity relayInfo = .ok identity →
      findSession w.toDB identity.key = none) (horg : w.organizations.get? relayInfo.billingAccountId = some org)
    (hused : 0 ≤ org.usedQuota)
    (hok : ((BillingSession.forOrganization relayInfo).preConsume st env tokenAnswer fundingAnswer
      tokenQuota quota w).error = none) :
    let o := (BillingSession.forOrganization relayInfo).preConsume st env tokenAnswer fundingAnswer
      tokenQuota quota w
    ∃ f row, Open w.sessions.next relayInfo.billingAccountId org.usedQuota (limitedToken w relayInfo)
      ⟨o.session, o.world⟩ f row ∧ gap ⟨o.session, o.world⟩ row = 0 ∧ row.status = .preConsumed := by
  intro o
  obtain ⟨hquota, f, db, identity, relayInfo', token?, deducted, hc, heq⟩ := preConsume_created hbill hfresh hok
  simp only [o, heq]
  have hsame := loadTokenForQuotaTx_same hc.load
  have hbill' := hc.request.billing.trans hbill
  refine ⟨f, (newSession env relayInfo' token? quota identity).deductedAs deducted,
    ⟨rfl, ⟨_, hc.session', rfl⟩, hbill', ⟨hbill', hc.linked⟩, ?_, ?_, ?_, ?_, ⟨rfl, rfl, rfl⟩, ?_, ?_,
      fun t ht => ?_⟩, ?_, ?_⟩
  · show db.sessions.get? w.sessions.next = _
    rw [hc.sessions, Table.get?_modify_self, Table.get?_insert_self]
    rfl
  · rw [deductedAs_organizationId]
    exact hsame.billingAccountId
  · simp [newSession]
  · simp [newSession]
  · simpa [newSession] using hquota
  · obtain ⟨_, _, hmoved⟩ := hc.organization
    have hadd := hmoved.used_add ⟨org, horg, rfl⟩ (by omega)
    simpa [newSession] using hadd
  · have hlimited := (created_limitedToken hc ht).1
    simpa [newSession] using hlimited
  · simp [gap, newSession]
  · simp [newSession]

theorem Open.settle {actual : Int} (h : Open id o u limited σ f row) (hlow : 0 ≤ u)
    (hok : (σ.session.settle st env actual σ.world).error = none) :
    let w' := (σ.session.settle st env actual σ.world).world
    (∃ row', w'.sessions.get? id = some row' ∧ row'.status = .settled ∧
        row'.settledQuota = actual - gap σ row) ∧
      (∃ org, w'.organizations.get? o = some org ∧ org.usedQuota = u + (actual - gap σ row)) ∧
      ∀ t ∈ limited, remainOf w'.tokens t.1 = some (t.2 - (actual - gap σ row)) := by
  obtain ⟨mem, hmem, hpre⟩ := h.memory
  have hactual : mem.preConsumedQuota + (actual - σ.session.preConsumedQuota) = actual - gap σ row := by
    rw [hpre, gap]
    omega
  have hsettle : f.settleWithToken env (actual - σ.session.preConsumedQuota) σ.world.toDB =
      f.settleWithTokenActual env (actual - gap σ row) σ.world.toDB := by
    unfold OrganizationFunding.settleWithToken
    rw [if_neg (by simp [h.billing]), ensureSession_of_session hmem, ← hactual]
    rfl
  unfold BillingSession.settle at hok ⊢
  simp only [h.funding, h.flags.1, hsettle] at hok ⊢
  cases hres : f.settleWithTokenActual env (actual - gap σ row) σ.world.toDB with
  | error =>
    rw [hres] at hok
    cases hok
  | ok r =>
    obtain ⟨_, db'⟩ := r
    rcases settleWithTokenActual_ok hres with ⟨hno, -, -⟩ | ⟨_, _, i, _, hensure, htx⟩
    · rw [h.billing] at hno
      cases hno
    · rw [ensureSession_of_session hmem] at hensure
      cases hensure
      obtain ⟨s, hget, hcase⟩ := settleTx_ok htx
      obtain rfl : s = row := mem_unique hget h.get
      rcases hcase with ⟨-, hst, -⟩ | ⟨_, -, -, hstep, htoken, -, -⟩
      · exact absurd hst h.unsettled
      · refine ⟨⟨_, hstep.get_self, rfl, rfl⟩, ?_, fun t ht => ?_⟩
        · obtain ⟨_, _, hmoved⟩ := hstep.organization
          rw [h.organizationId] at hmoved
          obtain ⟨org', hget', hused'⟩ := hmoved.used_add h.used (by omega)
          exact ⟨org', hget', by rw [hused']; omega⟩
        · obtain ⟨hplay, hid, hpos, hunl, hremain⟩ := h.token t ht
          rw [hunl] at htoken
          have hrow : (organizationBillingTokenQuotaRelayInfo id s f.relayInfo).tokenId = t.1 := hid
          have hmove := settleTokenQuotaTx_limited htoken hplay (by rw [hrow]; exact hpos)
          rw [hrow, hremain] at hmove
          show remainOf db'.tokens t.1 = _
          rw [hmove, map_some]
          congr 1
          omega

/-! ## The charge -/

/-- Between `w` and `w'` the request was charged `actual`: ledger session `id` is settled with it, the
organization's `used_quota` has grown by it, and the limited token, if the request has one, has paid
it. -/
structure ChargedExactly (w w' : World) (relayInfo : RelayInfo) (id : Nat) (actual : Int) : Prop where
  settled : ∃ row, w'.sessions.get? id = some row ∧ row.status = .settled ∧ row.settledQuota = actual
  organization : ∃ org org', w.organizations.get? relayInfo.billingAccountId = some org ∧
    w'.organizations.get? relayInfo.billingAccountId = some org' ∧
    org'.usedQuota = org.usedQuota + actual
  token : ∀ t ∈ limitedToken w relayInfo, remainOf w'.tokens t.1 = some (t.2 - actual)

/-- **What an organization session charges.** A session is opened by `preConsume` under a fresh
idempotency key; then `Reserve` calls and transitions of its row by the repair worker follow in any
order; then `Settle(actual)` returns nil. The request is charged exactly `actual` if and only if no
top-up was asked for while the row was under repair. -/
theorem chargedExactly_iff (st : Settings) (env env' : Env) (tokenAnswer fundingAnswer : CacheAnswer)
    (tokenQuota quota actual : Int) (w : World) (relayInfo : RelayInfo) (org : Organization)
    (events : List LiveEvent) (hbill : isOrganizationBilling relayInfo = true)
    (hfresh : ∀ identity, organizationBillingSessionIdentity relayInfo = .ok identity →
      findSession w.toDB identity.key = none)
    (horg : w.organizations.get? relayInfo.billingAccountId = some org) (hused : 0 ≤ org.usedQuota) (σ₀ : Live)
    (hopen : (BillingSession.forOrganization relayInfo).preConsume st env tokenAnswer fundingAnswer
      tokenQuota quota w = ⟨none, σ₀.session, σ₀.world⟩)
    (hsettle : ((run (Live.step st) σ₀ events).session.settle st env' actual
      (run (Live.step st) σ₀ events).world).error = none) : ChargedExactly w
        ((run (Live.step st) σ₀ events).session.settle st env' actual
          (run (Live.step st) σ₀ events).world).world relayInfo σ₀.session.sessionId actual ↔
      Along (Live.step st) Live.notUnderRepair σ₀ events := by
  have hcreated := Open.created hbill hfresh horg hused (congrArg Outcome.error hopen)
  simp only [hopen] at hcreated
  obtain ⟨f, _, hinit, hgap, -⟩ := hcreated
  obtain ⟨_, _, hfinal, -, hiff⟩ := hinit.run hused events
  obtain ⟨⟨r, hget, hstatus, hquota⟩, ⟨org', horg', hused'⟩, htoken⟩ := hfinal.settle hused hsettle
  rw [← hiff, hgap, hinit.sessionId]
  constructor
  · rintro ⟨⟨r1, hget1, -, hquota1⟩, -, -⟩
    obtain rfl : r = r1 := mem_unique hget hget1
    omega
  · intro hzero
    rw [hzero, sub_zero] at hquota hused' htoken
    exact ⟨⟨r, hget, hstatus, hquota⟩, ⟨org, org', horg, horg', hused'⟩, htoken⟩

def sampleWorld : World := { toDB := sampleDB }

def sampleOpen : Live :=
  let o := (BillingSession.forOrganization sampleRequest).preConsume {} (sampleEnv 10) .ok .ok 0 100
    sampleWorld
  ⟨o.session, o.world⟩

theorem chargedExactly_sample : ChargedExactly sampleWorld
      ((run (Live.step {}) sampleOpen [.reserve (sampleEnv 20) .ok 150, .claimExpired 900]).session.settle
        {} (sampleEnv 901) 130
        (run (Live.step {}) sampleOpen [.reserve (sampleEnv 20) .ok 150, .claimExpired 900]).world).world
      sampleRequest sampleOpen.session.sessionId 130 :=
  (chargedExactly_iff {} (sampleEnv 10) (sampleEnv 901) .ok .ok 0 100 130 sampleWorld sampleRequest
    { quota := 1000, usedQuota := 7, ownerUserId := 1 }
    [.reserve (sampleEnv 20) .ok 150, .claimExpired 900] (by decide +kernel)
    (fun identity _ => by
      rw [findSession, Table.find?_eq_none_iff]
      intro i s h
      cases h)
    rfl (by decide) sampleOpen
    (by
      have herr : ((BillingSession.forOrganization sampleRequest).preConsume {} (sampleEnv 10) .ok .ok 0
        100 sampleWorld).error = none := by decide +kernel
      rw [sampleOpen, ← herr])
    (by decide +kernel)).mpr (by decide +kernel)

/-- The row is claimed by the repair worker, then the request asks for `150` and settles `150`: the
settlement returns nil with `100` on the row, on the organization and on the token. -/
theorem skipped_reserve_undercharges :
    let σ := run (Live.step {}) sampleOpen [.claimExpired 900, .reserve (sampleEnv 901) .ok 150]
    let o := σ.session.settle {} (sampleEnv 902) 150 σ.world
    o.error = none ∧
      (o.world.sessions.get? 1).map (fun s => (s.status, s.settledQuota)) = some (.settled, 100) ∧
      (o.world.organizations.get? 1).map (fun g => g.usedQuota) = some (7 + 100) ∧
      remainOf o.world.tokens 1 = some (500 - 100) := by
  decide +kernel

end CubeRouter.Billing
