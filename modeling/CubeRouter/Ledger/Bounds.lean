import CubeRouter.Ledger.Administration

/-!
# Bounds of organization and member quotas

Over every run of the ledger and of the administration of quotas: the `used_quota` of an organization stays
between `0` and its `quota`, the `used_quota` of a member is what it started with plus what the sessions it is
responsible for hold, and a pre-consumption that books something keeps a limited member within its limit.
Setting limits alone never raises what they allocate above the quota, or above where it was.

The limit of a member is checked only when something is booked: a pre-consumption of `0` and a replay pass
whatever has been used (`preConsume_passes_exceeded_limit`).
-/

namespace CubeRouter.Ledger

open Relational Transition Option Table

variable {db db' : DB} {o u : Nat}

/-! ## The organization -/

/-- `0 ≤ used_quota ≤ quota`. -/
def Organization.Bounded (org : Organization) : Prop := 0 ≤ org.usedQuota ∧ org.usedQuota ≤ org.quota

def OrganizationBounded (o : Nat) (db : DB) : Prop := ∃ org, db.organizations.get? o = some org ∧ org.Bounded

variable {delta : Int} {id userId i : Nat} {after before org : Organization} {enforce : Bool}

theorem usedQuotaExpr_bounds {used quota : Int} (hlow : 0 ≤ used) (hhigh : used ≤ quota)
    (hfits : 0 < delta → used + delta ≤ quota) : 0 ≤ usedQuotaExpr used delta ∧ usedQuotaExpr used delta ≤ quota := by
  unfold usedQuotaExpr
  by_cases hdelta : 0 < delta
  · split_ifs <;> omega
  · split_ifs <;> omega

variable {orgs : Table Organization}

theorem bounded_of_usedQuotaMoved {orgs' : Table Organization} {updates updates' : List UsedQuotaUpdate}
    {org0 : Organization} (hmoved : UsedQuotaMoved orgs orgs' updates updates' id delta org0 after)
    (h : ∃ org, orgs.get? o = some org ∧ org.Bounded) : ∃ org, orgs'.get? o = some org ∧ org.Bounded := by
  obtain ⟨org, hget, hlow, hhigh⟩ := h
  by_cases ho : o = id
  · subst ho
    obtain rfl : org0 = org := mem_unique hmoved.get hget
    refine ⟨after, by rw [hmoved.get', if_pos rfl], ?_⟩
    rw [Organization.Bounded, hmoved.used, hmoved.quota]
    exact usedQuotaExpr_bounds hlow hhigh hmoved.fits
  · exact ⟨org, by rw [hmoved.get', if_neg ho, hget], hlow, hhigh⟩

theorem OrganizationBounded.effect (h : OrganizationBounded o db) (heffect : LedgerEffect db db') :
    OrganizationBounded o db' := by
  cases heffect with
  | nothing hsame => rwa [hsame]
  | opened _ hcreated =>
    obtain ⟨org, after, hmoved⟩ := hcreated.organization
    exact bounded_of_usedQuotaMoved hmoved h
  | reserved _ _ hmoved | settled _ _ hmoved =>
    obtain ⟨org, after, hmoved⟩ := hmoved.step.organization
    exact bounded_of_usedQuotaMoved hmoved h
  | refunded _ hmoved =>
    obtain ⟨_, _, hmoved⟩ := hmoved.step.organization
    exact bounded_of_usedQuotaMoved hmoved h
  | leased hleased => rwa [hleased]

theorem bounded_modify {g : Organization → Organization}
    (h : ∃ org, orgs.get? o = some org ∧ org.Bounded)
    (hg : ∀ org, orgs.get? id = some org → org.Bounded → (g org).Bounded) :
    ∃ org, (orgs.modify id g).get? o = some org ∧ org.Bounded := by
  obtain ⟨org, hget, hbounded⟩ := h
  by_cases ho : o = id
  · subst ho
    exact ⟨g org, by rw [Table.get?_modify_self, hget]; rfl, hg org hget hbounded⟩
  · exact ⟨org, by rw [Table.get?_modify_of_ne _ _ ho, hget], hbounded⟩

theorem OrganizationBounded.apply (h : OrganizationBounded o db) (heffect : OrganizationEffect db db') :
    OrganizationBounded o db' := by
  cases heffect with
  | ledger heffect => exact h.effect heffect
  | adjusted hget _ hle hdb =>
    subst hdb
    refine bounded_modify h fun org horg hbounded => ?_
    obtain rfl := mem_unique hget horg
    exact ⟨hbounded.1, hle⟩
  | limited _ hdb => rwa [hdb]
  | status hdb =>
    subst hdb
    exact bounded_modify h fun org _ hbounded => hbounded

/-! ## The members -/

def memberOf (o u : Nat) (m : OrganizationMember) : Bool := m.organizationId = o ∧ m.userId = u

variable {m : OrganizationMember}

/-- A booking changes the counter of the member it is for and of no other; a limited member who is not the
owner is only let through within its limit. -/
theorem updateOrganizationMemberUsedQuotaTx_member {owner : Nat}
    (h : updateOrganizationMemberUsedQuotaTx db id userId owner delta enforce = .ok db') (hid : 0 < id) (hu : 0 < u)
    (hfind : db.members.find? (memberOf o u) = some (i, m)) :
    ∃ m', db'.members.find? (memberOf o u) = some (i, m') ∧ m'.quotaLimit = m.quotaLimit ∧
      (m'.usedQuota = if o = id ∧ u = userId then usedQuotaExpr m.usedQuota delta else m.usedQuota) ∧
      (o = id → u = userId → enforce = true → 0 < delta → userId ≠ owner →
        m.quotaLimit = 0 ∨ m.usedQuota + delta ≤ m.quotaLimit) := by
  have hp : ∀ m : OrganizationMember,
      memberOf o u { m with usedQuota := usedQuotaExpr m.usedQuota delta } = memberOf o u m := fun _ => rfl
  unfold updateOrganizationMemberUsedQuotaTx at h
  by_cases hskip : id = 0 ∨ userId = 0 ∨ delta = 0
  · rw [if_pos hskip] at h
    cases h
    refine ⟨m, hfind, rfl, ?_, fun ho hu' _ hdelta _ => ?_⟩
    · by_cases hself : o = id ∧ u = userId
      · have hzero : delta = 0 := by omega
        rw [if_pos hself, hzero, usedQuotaExpr_zero]
      · rw [if_neg hself]
    · omega
  · have hrow : db.members.find? (fun m => decide (m.organizationId = id ∧ m.userId = userId))
        = db.members.find? (memberOf id userId) := rfl
    rw [if_neg hskip, hrow] at h
    by_cases hself : o = id ∧ u = userId
    · obtain ⟨rfl, rfl⟩ := hself
      rw [hfind] at h
      simp only at h
      have hbooked : (db.members.modify i fun m =>
          { m with usedQuota := usedQuotaExpr m.usedQuota delta }).find? (memberOf o u)
            = some (i, { m with usedQuota := usedQuotaExpr m.usedQuota delta }) :=
        Table.find?_modify hp hfind
      split_ifs at h with henforce hlimit
      · cases h
        exact ⟨_, hbooked, rfl, by rw [if_pos ⟨rfl, rfl⟩], fun _ _ _ _ _ => hlimit⟩
      · cases h
        exact ⟨_, hbooked, rfl, by rw [if_pos ⟨rfl, rfl⟩], fun _ _ he hd ho =>
          absurd ⟨he, hd, ho⟩ henforce⟩
    · have hother : o = id → u = userId → enforce = true → 0 < delta → userId ≠ owner →
          m.quotaLimit = 0 ∨ m.usedQuota + delta ≤ m.quotaLimit :=
        fun ho hu' => absurd ⟨ho, hu'⟩ hself
      split at h
      · cases h
        exact ⟨m, hfind, rfl, by rw [if_neg hself], hother⟩
      · rename_i j member hmember
        have hij : i ≠ j := by
          rintro rfl
          have hm := Table.find?_some hfind
          have hm' := Table.find?_some hmember
          obtain rfl : m = member := mem_unique hm.1 hm'.1
          simp only [memberOf, decide_eq_true_eq] at hm hm'
          exact hself ⟨hm.2.1.symm.trans hm'.2.1, hm.2.2.symm.trans hm'.2.2⟩
        have hsame : (db.members.modify j fun m =>
            { m with usedQuota := usedQuotaExpr m.usedQuota delta }).find? (memberOf o u) = some (i, m) :=
          Table.find?_modify_of_ne hp hfind hij
        split_ifs at h
        · cases h
          exact ⟨m, hsame, rfl, by rw [if_neg hself], hother⟩
        · cases h
          exact ⟨m, hsame, rfl, by rw [if_neg hself], hother⟩

theorem Charge.member (hcharge : Charge db db' id delta userId enforce before after) (hid : 0 < id) (hu : 0 < u)
    (hfind : db.members.find? (memberOf o u) = some (i, m)) :
    ∃ m', db'.members.find? (memberOf o u) = some (i, m') ∧ m'.quotaLimit = m.quotaLimit ∧
      (m'.usedQuota = if o = id ∧ u = userId then usedQuotaExpr m.usedQuota delta else m.usedQuota) ∧
      (o = id → u = userId → enforce = true → 0 < delta → userId ≠ after.ownerUserId →
        m.quotaLimit = 0 ∨ m.usedQuota + delta ≤ m.quotaLimit) := by
  obtain ⟨_, _, _, _, _, hupdate, -, hmembers⟩ := hcharge
  rw [hmembers]
  unfold updateOrganizationUsedQuotaTx at hupdate
  split at hupdate
  · cases hupdate
  · split_ifs at hupdate with hread hactive hguard
    · cases hupdate
      refine ⟨m, hfind, rfl, ?_, fun _ _ _ hdelta _ => absurd hread.1 hdelta.ne'⟩
      rw [hread.1, usedQuotaExpr_zero, ite_self]
    · obtain ⟨_, hmember, hrest⟩ := bind_eq_ok.mp hupdate
      cases hrest
      exact updateOrganizationMemberUsedQuotaTx_member hmember hid hu hfind

/-- What the sessions that user `u` is responsible for hold of organization `o`. -/
def heldBy (o u : Nat) (db : DB) : Int :=
  db.sessions.sum fun s => if s.organizationId = o ∧ s.responsibleUserId = u then s.hold else 0

/-- The counter of the member is what it started with plus what its sessions hold. -/
structure MemberCounted (o u i : Nat) (start : ℕ) (db : DB) : Prop where
  wellFormed : ∀ j s, db.sessions.get? j = some s → s.organizationId = o → s.responsibleUserId = u →
    s.WellFormed
  used : ∃ m, db.members.find? (memberOf o u) = some (i, m) ∧ m.usedQuota = start + heldBy o u db

theorem heldBy_nonneg (h : ∀ j s, db.sessions.get? j = some s → s.organizationId = o →
    s.responsibleUserId = u → s.WellFormed) : 0 ≤ heldBy o u db := by
  apply sum_nonneg
  intro i s hs
  split_ifs with hsel
  · exact (h i s hs hsel.1 hsel.2).hold_nonneg
  · exact le_rfl

section Counted

variable {i : Nat} {start : ℕ}

theorem MemberCounted.charged {id userId : Nat} {enforce : Bool}
    (hc : MemberCounted o u i start db) (hu : 0 < u) (hid : 0 < id)
    (hcharge : Charge db db' id delta userId enforce before after)
    (hwf : ∀ j s, db'.sessions.get? j = some s → s.organizationId = o → s.responsibleUserId = u → s.WellFormed)
    (hheld : heldBy o u db' = heldBy o u db + if o = id ∧ u = userId then delta else 0) :
    MemberCounted o u i start db' := by
  obtain ⟨m, hfind, _⟩ := hc.used
  obtain ⟨m', hfind', -, hused', -⟩ := hcharge.member hid hu hfind
  have hnonneg := heldBy_nonneg hwf
  refine ⟨hwf, m', hfind', ?_⟩
  rw [hused', hheld]
  split_ifs at hheld ⊢ with hself
  · rw [usedQuotaExpr_eq (by omega)]
    omega
  · omega

theorem MemberCounted.moved {id : Nat} {s s' : OrganizationBillingSession} {key : RecordKey}
    {type : RecordType} {usage : Int} (hc : MemberCounted o u i start db) (hu : 0 < u)
    (hmoved : Moved db db' id s s' key type delta usage) (hid : s'.organizationId = s.organizationId)
    (huser : s'.responsibleUserId = s.responsibleUserId)
    (hwf : s.WellFormed → s'.WellFormed ∧ delta = s'.hold - s.hold) : MemberCounted o u i start db' := by
  obtain ⟨_, _, _, hcharge, -⟩ := hmoved.entry
  obtain ⟨_, _, hused⟩ := hmoved.step.organization
  refine hc.charged hu (pos_of_get? hused.get) hcharge (fun j r hr ho hr' => ?_) ?_
  · by_cases hj : j = id
    · subst hj
      obtain rfl : s' = r := mem_unique hmoved.step.get_self hr
      exact (hwf (hc.wellFormed j s hmoved.step.get (hid ▸ ho) (huser ▸ hr'))).1
    · rw [hmoved.step.get_of_ne hj] at hr
      exact hc.wellFormed j r hr ho hr'
  · unfold heldBy
    rw [hmoved.step.sessions, sum_modify _ _ _ hmoved.step.get, hid, huser]
    by_cases hself : s.organizationId = o ∧ s.responsibleUserId = u
    · rw [if_pos hself, if_pos hself, if_pos ⟨hself.1.symm, hself.2.symm⟩,
        (hwf (hc.wellFormed id s hmoved.step.get hself.1 hself.2)).2]
    · omega

theorem MemberCounted.opened {env : Env} {f f' : OrganizationFunding} {amount deducted : Int}
    {identity : SessionIdentity} {relayInfo : RelayInfo} {token? : Option (Nat × Token)}
    (hc : MemberCounted o u i start db) (hu : 0 < u) (hamount : 0 ≤ amount)
    (hcreated : Created env f f' amount db db' identity relayInfo token? deducted) : MemberCounted o u i start db' := by
  obtain ⟨_, _, hcharge, -⟩ := hcreated.entry
  obtain ⟨_, _, hused⟩ := hcreated.organization
  refine hc.charged hu (pos_of_get? hused.get) hcharge (fun j r hr ho hr' => ?_) ?_
  · rcases hcreated.row j r hr with ⟨-, rfl⟩ | ⟨-, hold⟩
    · exact newSession_wellFormed hamount
    · exact hc.wellFormed j r hold ho hr'
  · have huser : ((newSession env relayInfo token? amount identity).deductedAs deducted).responsibleUserId
        = relayInfo.responsibleUserId := by
      unfold OrganizationBillingSession.deductedAs
      split_ifs <;> rfl
    rw [heldBy, hcreated.sum, hcreated.organizationId, huser, newSession_hold, heldBy]
    simp [eq_comm (a := o), eq_comm (a := u)]

theorem MemberCounted.effect (hc : MemberCounted o u i start db) (hu : 0 < u)
    (heffect : LedgerEffect db db') : MemberCounted o u i start db' := by
  cases heffect with
  | nothing hsame => rwa [hsame]
  | opened hamount hcreated => exact hc.opened hu hamount hcreated
  | @reserved _ s _ delta _ _ hopen hmoved =>
    refine hc.moved hu hmoved rfl rfl fun hwf => ⟨⟨?_, hwf.settled, hwf.refunded⟩, ?_⟩
    · have hpre := hwf.preConsumed
      show 0 ≤ s.preConsumedQuota + delta
      omega
    · rw [hold_reserved hopen]
      omega
  | @settled _ s _ _ _ hactual hopen hmoved =>
    refine hc.moved hu hmoved rfl rfl fun hwf => ⟨⟨hwf.preConsumed, hactual, fun _ => hwf.refunded hopen.2⟩, ?_⟩
    rw [hold_of_open hopen]
    rfl
  | @refunded _ s now tokenRefunded hrefunded hmoved =>
    refine hc.moved hu hmoved rfl rfl fun hwf => ⟨⟨hwf.preConsumed, hwf.settled, fun hne => absurd rfl hne⟩, ?_⟩
    rw [refundQuota_eq_hold hwf hrefunded, show (s.refundedWith now tokenRefunded).hold = 0 from rfl]
    omega
  | @leased id g hdb hsame =>
    subst hdb
    have hheld : heldBy o u { db with sessions := db.sessions.modify id g } = heldBy o u db := by
      apply sum_modify_congr
      intro s hs
      rw [(hsame s hs).organizationId, (hsame s hs).responsibleUserId, (hsame s hs).hold]
    obtain ⟨m, hfind, hused⟩ := hc.used
    refine ⟨fun j r hr ho hr' => ?_, m, hfind, by rw [hheld, hused]⟩
    obtain ⟨s, hs, hsame⟩ := sameAmounts_of_modify hsame hr
    rw [hsame.organizationId] at ho
    rw [hsame.responsibleUserId] at hr'
    exact hsame.wellFormed (hc.wellFormed j s hs ho hr')

theorem MemberCounted.apply (hc : MemberCounted o u i start db) (hu : 0 < u)
    (heffect : OrganizationEffect db db') : MemberCounted o u i start db' := by
  cases heffect with
  | ledger heffect => exact hc.effect hu heffect
  | adjusted _ _ _ hdb =>
    subst hdb
    exact ⟨hc.wellFormed, hc.used⟩
  | @limited j limit _ hdb =>
    subst hdb
    obtain ⟨m, hfind, hused⟩ := hc.used
    refine ⟨hc.wellFormed, ?_⟩
    have hp : ∀ m : OrganizationMember, memberOf o u { m with quotaLimit := limit } = memberOf o u m :=
      fun _ => rfl
    have hmap := Table.find?_modify_map db.members hp j
    rw [hfind, map_some] at hmap
    by_cases hij : i = j
    · rw [if_pos hij] at hmap
      exact ⟨_, hmap, hused⟩
    · rw [if_neg hij] at hmap
      exact ⟨_, hmap, hused⟩
  | status hdb =>
    subst hdb
    exact ⟨hc.wellFormed, hc.used⟩

end Counted

/-! ## The limit of a member at admission -/

theorem Charge.owner (hcharge : Charge db db' id delta userId enforce before after)
    (hget : db.organizations.get? id = some org) : after.ownerUserId = org.ownerUserId := by
  obtain ⟨sessions, _, _, _, _, hupdate, -⟩ := hcharge
  unfold updateOrganizationUsedQuotaTx at hupdate
  rw [show ({ db with sessions } : DB).organizations.get? id = some org from hget] at hupdate
  simp only at hupdate
  split_ifs at hupdate
  · cases hupdate
    rfl
  · obtain ⟨_, -, hrest⟩ := bind_eq_ok.mp hupdate
    cases hrest
    rfl

/-- A pre-consumption of organization `o` that opens a session for a positive amount leaves a limited member
who is not the owner within its limit. -/
def OpensWithinLimit (o : Nat) (db : DB) : Prop :=
  ∀ (env : Env) (f f' : OrganizationFunding) (amount : Int) (identity : SessionIdentity) (db' : DB) (i : Nat)
    (m : OrganizationMember), f.relayInfo.billingAccountId = o →
    f.preConsumeWithToken env amount db = .ok (f', db') → isOrganizationBilling f.relayInfo = true →
    organizationBillingSessionIdentity f.relayInfo = .ok identity → findSession db identity.key = none →
    0 < amount → 0 < f.relayInfo.responsibleUserId →
    db.members.find? (memberOf o f.relayInfo.responsibleUserId) = some (i, m) → 0 < m.quotaLimit →
    (∀ org, db.organizations.get? o = some org → f.relayInfo.responsibleUserId ≠ org.ownerUserId) →
    ∃ m', db'.members.find? (memberOf o f.relayInfo.responsibleUserId) = some (i, m') ∧
      m'.quotaLimit = m.quotaLimit ∧ m'.usedQuota ≤ m'.quotaLimit

theorem opensWithinLimit (o : Nat) (db : DB) : OpensWithinLimit o db := by
  intro env f f' amount identity db' i m ho h hbill hidentity hfresh hamount hu hfind hlimit howner
  subst ho
  rcases preConsumeWithToken_ok h with ⟨hno, -⟩ | ⟨-, -, identity', hidentity', hcase⟩
  · rw [hbill] at hno
    cases hno
  · obtain rfl : identity = identity' := Except.ok.inj (hidentity.symm.trans hidentity')
    rcases hcase with ⟨-, id, s, hfound, -⟩ | ⟨relayInfo, _, _, hcreated⟩
    · rw [hfresh] at hfound
      cases hfound
    · obtain ⟨_, _, hcharge, -⟩ := hcreated.entry
      obtain ⟨org, _, hused⟩ := hcreated.organization
      have huser : relayInfo.responsibleUserId = f.relayInfo.responsibleUserId := by
        rcases loadTokenForQuotaTx_ok hcreated.load with ⟨-, rfl, -⟩ | ⟨_, _, -, rfl, -⟩ <;> rfl
      rw [huser] at hcharge
      obtain ⟨m', hfind', hlimit', hused', henforced⟩ := hcharge.member (pos_of_get? hused.get) hu hfind
      have hlet := henforced rfl rfl rfl hamount (by rw [hcharge.owner hused.get]; exact howner org hused.get)
      refine ⟨m', hfind', hlimit', ?_⟩
      have hsum : usedQuotaExpr m.usedQuota amount = m.usedQuota + amount := if_neg (by omega)
      omega

/-! ## The budget of the limits -/

def LimitsNonneg (db : DB) : Prop := ∀ i m, db.members.get? i = some m → 0 ≤ m.quotaLimit

theorem LimitsNonneg.modify {g : OrganizationMember → OrganizationMember} (h : LimitsNonneg db) (j : Nat)
    (hg : ∀ m, 0 ≤ m.quotaLimit → 0 ≤ (g m).quotaLimit) :
    LimitsNonneg { db with members := db.members.modify j g } := by
  intro i m hm
  simp only [Table.get?_modify] at hm
  split_ifs at hm
  · obtain ⟨m0, hm0, rfl⟩ := map_eq_some_iff.mp hm
    exact hg m0 (h i m0 hm0)
  · exact h i m hm

theorem Charge.limitsNonneg (hcharge : Charge db db' id delta userId enforce before after) (h : LimitsNonneg db) :
    LimitsNonneg db' := by
  obtain ⟨_, _, _, _, _, hupdate, -, hmembers⟩ := hcharge
  unfold LimitsNonneg
  rw [hmembers]
  unfold updateOrganizationUsedQuotaTx at hupdate
  split at hupdate
  · cases hupdate
  · split_ifs at hupdate
    · cases hupdate
      exact h
    · obtain ⟨_, hmember, hrest⟩ := bind_eq_ok.mp hupdate
      cases hrest
      unfold updateOrganizationMemberUsedQuotaTx at hmember
      by_cases hskip : id = 0 ∨ userId = 0 ∨ delta = 0
      · rw [if_pos hskip] at hmember
        cases hmember
        exact h
      · rw [if_neg hskip] at hmember
        split at hmember
        · cases hmember
          exact h
        · split_ifs at hmember
          · cases hmember
            exact LimitsNonneg.modify h _ fun _ hm => hm
          · cases hmember
            exact LimitsNonneg.modify h _ fun _ hm => hm

theorem LimitsNonneg.apply (h : LimitsNonneg db) (heffect : OrganizationEffect db db') : LimitsNonneg db' := by
  cases heffect with
  | ledger heffect =>
    cases heffect with
    | nothing hsame => rwa [hsame]
    | opened _ hcreated =>
      obtain ⟨before, after, hcharge, -⟩ := hcreated.entry
      exact hcharge.limitsNonneg h
    | reserved _ _ hmoved =>
      obtain ⟨before, after, now, hcharge, -⟩ := hmoved.entry
      exact hcharge.limitsNonneg h
    | settled _ _ hmoved =>
      obtain ⟨before, after, now, hcharge, -⟩ := hmoved.entry
      exact hcharge.limitsNonneg h
    | refunded _ hmoved =>
      obtain ⟨_, _, _, hcharge, -⟩ := hmoved.entry
      exact hcharge.limitsNonneg h
    | leased hdb =>
      subst hdb
      exact h
  | adjusted _ _ _ hdb =>
    subst hdb
    exact h
  | limited hlimit hdb =>
    subst hdb
    exact h.modify _ fun _ _ => hlimit
  | status hdb =>
    subst hdb
    exact h

variable {target : OrganizationMember}

theorem allocatedQuota_setLimit (hget : db.members.get? i = some target) (o owner : Nat)
    (limit : Int) :
    allocatedQuota { db with members := db.members.modify i fun m => { m with quotaLimit := limit } } o owner
      = allocatedQuota db o owner +
        if target.organizationId = o ∧ target.userId ≠ owner ∧ target.budgeted = true
        then limit - target.quotaLimit else 0 := by
  unfold allocatedQuota
  rw [sum_modify _ _ _ hget]
  show _ + ((if target.organizationId = o ∧ target.userId ≠ owner ∧ target.budgeted = true then limit else 0)
    - if target.organizationId = o ∧ target.userId ≠ owner ∧ target.budgeted = true then target.quotaLimit
      else 0) = _
  split_ifs <;> omega

theorem quotaLimit_le_allocated {owner : Nat} (h : LimitsNonneg db)
    (hget : db.members.get? i = some target) (ho : target.organizationId = o) (howner : target.userId ≠ owner)
    (hbudgeted : target.budgeted = true) : target.quotaLimit ≤ allocatedQuota db o owner := by
  have hrest : 0 ≤ allocatedQuota { db with members := db.members.modify i fun m => { m with quotaLimit := 0 } }
      o owner := by
    apply sum_nonneg
    intro j m hm
    split_ifs
    · exact (h.modify i fun _ _ => le_rfl) j m hm
    · exact le_rfl
  rw [allocatedQuota_setLimit hget, if_pos ⟨ho, howner, hbudgeted⟩] at hrest
  omega

theorem wrapInt_eq {n : Int} (hlow : 0 ≤ n) (hhigh : n < 2 ^ 63) : wrapInt n = n :=
  Int.bmod_eq_of_le (by omega) (by omega)

/-- The step sets the limit of a member, and the new sum of the limits is an `int`. -/
def SetsLimit (db : DB) : OrganizationOp → Prop
  | .updateOrganizationMemberQuota _ organizationId _ targetUserId limit =>
    ∀ org ∈ db.organizations.get? organizationId,
      ∀ target ∈ (findQuotaMember db organizationId targetUserId).toOption,
        allocatedQuota db organizationId org.ownerUserId - target.2.quotaLimit + limit < 2 ^ 63
  | _ => False

theorem allocatedQuota_le_of_update {operatorUserId organizationId targetUserId : Nat} {decision : Option PolicyRole}
    {limit : Int} {v : Unit} (h : LimitsNonneg db) (hget : db.organizations.get? o = some org)
    (hfits : SetsLimit db (.updateOrganizationMemberQuota operatorUserId organizationId decision targetUserId limit))
    (hupdate : updateOrganizationMemberQuota operatorUserId organizationId decision targetUserId limit db =
      .ok (v, db')) : allocatedQuota db' o org.ownerUserId ≤ max org.quota (allocatedQuota db o org.ownerUserId) := by
  obtain ⟨_, org', i, target, hget', htarget, howner, hvalid, rfl⟩ := updateOrganizationMemberQuota_ok hupdate
  obtain ⟨hrow, ho, -, hbudgeted⟩ := findQuotaMember_ok htarget
  rw [allocatedQuota_setLimit hrow]
  by_cases hsame : organizationId = o
  · subst hsame
    obtain rfl : org' = org := mem_unique hget' hget
    have hpart := quotaLimit_le_allocated h hrow ho howner hbudgeted
    have hnonneg := h i target hrow
    have hnew := hfits org' hget' (i, target) (toOption_eq_some.mpr htarget)
    simp only at hnew
    have hsum := wrapInt_eq (by omega) hnew
    simp only [validateMemberQuotaBudget] at hvalid
    rw [le_max_iff]
    split_ifs at hvalid with hclear hover hraise hraise
    · right
      omega
    · right
      omega
    · left
      omega
  · omega

/-- Setting limits, any number of times, raises what they allocate neither above the quota nor above where
it was, as long as the sums are `int`s. -/
def LimitsWithinBudget (o : Nat) (db : DB) : Prop :=
  ∀ (updates : List OrganizationOp), Along OrganizationOp.apply SetsLimit db updates →
    ∀ org, db.organizations.get? o = some org →
      allocatedQuota (run OrganizationOp.apply db updates) o org.ownerUserId
        ≤ max org.quota (allocatedQuota db o org.ownerUserId)

/-- The state of organization `o` while limits are set: its row stays, the allocation below `bound`. -/
structure BudgetKept (o : Nat) (org : Organization) (bound : Int) (db : DB) : Prop where
  nonneg : LimitsNonneg db
  get : db.organizations.get? o = some org
  quota : org.quota ≤ bound
  le : allocatedQuota db o org.ownerUserId ≤ bound

theorem BudgetKept.setsLimit {bound : Int} (h : BudgetKept o org bound db) (op : OrganizationOp)
    (hsets : SetsLimit db op) : BudgetKept o org bound (op.apply db) := by
  cases op with
  | updateOrganizationMemberQuota =>
    refine commit_invariant h fun v db' hupdate => ?_
    have hmax := allocatedQuota_le_of_update h.nonneg h.get hsets hupdate
    obtain ⟨hlimit, _, i, _, -, -, -, -, rfl⟩ := updateOrganizationMemberQuota_ok hupdate
    exact ⟨h.nonneg.modify i fun _ _ => hlimit, h.get, h.quota, hmax.trans (max_le h.quota h.le)⟩
  | ledger | adjustOrganizationQuota | setOrganizationStatus => exact absurd hsets not_false

theorem limitsWithinBudget (h : LimitsNonneg db) (o : Nat) : LimitsWithinBudget o db := by
  intro updates hupdates org hget
  have hstart : BudgetKept o org (max org.quota (allocatedQuota db o org.ownerUserId)) db :=
    ⟨h, hget, le_max_left _ _, le_max_right _ _⟩
  exact (run_invariant (fun _ op hkept hsets => hkept.setsLimit op hsets) hstart hupdates).le

/-! ## All bounds -/

/-- **Bounds of organization and member quotas.** In every run of the ledger and of the administration of
quotas that starts with `0 ≤ used_quota ≤ quota`: the `used_quota` of the organization stays within its
quota; a member counts what it started with plus what the sessions it is responsible for hold; a
pre-consumption that opens a session for a positive amount keeps a limited member within its limit; and
setting limits alone does not allocate more than the quota or than was allocated before. -/
theorem quota_bounds (db : DB) (o : Nat) (org : Organization) (hget : db.organizations.get? o = some org)
    (hlow : 0 ≤ org.usedQuota) (hhigh : org.usedQuota ≤ org.quota) (hlimits : LimitsNonneg db)
    (ops : List OrganizationOp) :
    (∃ org', (run OrganizationOp.apply db ops).organizations.get? o = some org' ∧ 0 ≤ org'.usedQuota ∧
      org'.usedQuota ≤ org'.quota) ∧
    (∀ u i m, 0 < u → db.members.find? (memberOf o u) = some (i, m) → 0 ≤ m.usedQuota →
      (∀ j s, db.sessions.get? j = some s → ¬(s.organizationId = o ∧ s.responsibleUserId = u)) →
      ∃ m', (run OrganizationOp.apply db ops).members.find? (memberOf o u) = some (i, m') ∧
        m'.usedQuota = m.usedQuota + heldBy o u (run OrganizationOp.apply db ops) ∧ m.usedQuota ≤ m'.usedQuota) ∧
    OpensWithinLimit o (run OrganizationOp.apply db ops) ∧
    LimitsWithinBudget o (run OrganizationOp.apply db ops) := by
  refine ⟨?_, ?_, opensWithinLimit o _, ?_⟩
  · have hend : OrganizationBounded o (run OrganizationOp.apply db ops) :=
      run_invariant' (fun db' op h => h.apply (op.effect db')) ⟨org, hget, hlow, hhigh⟩ ops
    exact hend
  · intro u i m hu hfind hused hnone
    have hzero : heldBy o u db = 0 := by
      apply sum_eq_zero
      intro j s hs
      rw [if_neg (hnone j s hs)]
    have hstart : MemberCounted o u i m.usedQuota.toNat db := by
      refine ⟨fun j s hs ho hu' => absurd ⟨ho, hu'⟩ (hnone j s hs), m, hfind, ?_⟩
      omega
    have hend : MemberCounted o u i m.usedQuota.toNat (run OrganizationOp.apply db ops) :=
      run_invariant' (fun db' op h => h.apply hu (op.effect db')) hstart ops
    obtain ⟨m', hfind', _⟩ := hend.used
    have hnonneg := heldBy_nonneg hend.wellFormed
    exact ⟨m', hfind', by omega, by omega⟩
  · have hend : LimitsNonneg (run OrganizationOp.apply db ops) :=
      run_invariant' (fun db' op h => h.apply (op.effect db')) hlimits ops
    exact limitsWithinBudget hend o

/-- The organization of `sampleDB` with member `2`, who may use `100`. -/
def memberDB : DB :=
  { sampleDB with members := Table.empty.insert { organizationId := 1, userId := 2, quotaLimit := 100 } }

theorem limitsNonneg_memberDB : LimitsNonneg memberDB := by
  intro i m hm
  simp only [memberDB, Table.get?_insert] at hm
  split_ifs at hm
  · cases hm
    decide
  · cases hm

def memberOps : List OrganizationOp :=
  [.ledger (.preConsumeWithToken (sampleEnv 10) ⟨sampleRequest, none, 0⟩ 100),
    .ledger (.settleWithTokenActual (sampleEnv 12) ⟨sampleRequest, none, 0⟩ 150),
    .adjustOrganizationQuota 9 1 (some .platformRoot) { quotaDelta := 500, idempotencyKey := "a1" } 13,
    .updateOrganizationMemberQuota 1 1 (some .owner) 2 120]

theorem quota_bounds_sample :
    (∃ org', (run OrganizationOp.apply memberDB memberOps).organizations.get? 1 = some org' ∧
      0 ≤ org'.usedQuota ∧ org'.usedQuota ≤ org'.quota) ∧
    (∃ m', (run OrganizationOp.apply memberDB memberOps).members.find? (memberOf 1 2) = some (1, m') ∧
      m'.usedQuota = 0 + heldBy 1 2 (run OrganizationOp.apply memberDB memberOps) ∧ 0 ≤ m'.usedQuota) ∧
    OpensWithinLimit 1 (run OrganizationOp.apply memberDB memberOps) ∧
    LimitsWithinBudget 1 (run OrganizationOp.apply memberDB memberOps) := by
  obtain ⟨horg, hmember, hopens, hbudget⟩ :=
    quota_bounds memberDB 1 _ rfl (by decide) (by decide) limitsNonneg_memberDB memberOps
  exact ⟨horg, hmember 2 1 { organizationId := 1, userId := 2, quotaLimit := 100 } (by decide)
    (by decide +kernel) (by decide) (fun j s h => by cases h), hopens, hbudget⟩

/-- The second request of `sampleRequest`'s user. -/
def secondRequest : OrganizationFunding := ⟨{ sampleRequest with requestId := "r2" }, none, 0⟩

/-- A settlement has taken member `2` to `150` of its `100`; a pre-consumption of `0` still succeeds. -/
theorem preConsume_passes_exceeded_limit :
    ¬ ∀ (env : Env) (f f' : OrganizationFunding) (amount : Int) (db' : DB) (i : Nat) (m : OrganizationMember),
      f.preConsumeWithToken env amount (run OrganizationOp.apply memberDB (memberOps.take 2)) = .ok (f', db') →
      f.relayInfo.billingAccountId = 1 → 0 < f.relayInfo.responsibleUserId →
      (run OrganizationOp.apply memberDB (memberOps.take 2)).members.find?
        (memberOf 1 f.relayInfo.responsibleUserId) = some (i, m) → 0 < m.quotaLimit →
      (∀ org, (run OrganizationOp.apply memberDB (memberOps.take 2)).organizations.get? 1 = some org →
        f.relayInfo.responsibleUserId ≠ org.ownerUserId) →
      ∃ m', db'.members.find? (memberOf 1 f.relayInfo.responsibleUserId) = some (i, m') ∧
        m'.usedQuota ≤ m'.quotaLimit := by
  intro h
  have hok : (secondRequest.preConsumeWithToken (sampleEnv 20) 0
      (run OrganizationOp.apply memberDB (memberOps.take 2))).toOption.isSome = true := by decide +kernel
  obtain ⟨⟨f', db'⟩, hr⟩ := isSome_iff_exists.mp hok
  have hmember : (((secondRequest.preConsumeWithToken (sampleEnv 20) 0
      (run OrganizationOp.apply memberDB (memberOps.take 2))).toOption.bind fun r =>
        r.2.members.find? (memberOf 1 2)).map fun x => (x.2.usedQuota, x.2.quotaLimit)) = some (150, 100) := by
    decide +kernel
  have howner : ((run OrganizationOp.apply memberDB (memberOps.take 2)).organizations.get? 1).map
      (fun org => org.ownerUserId) = some 1 := by decide +kernel
  obtain ⟨m', hfind, _⟩ := h (sampleEnv 20) secondRequest f' 0 db' 1
    { organizationId := 1, userId := 2, quotaLimit := 100, usedQuota := 150 } (toOption_eq_some.mp hr)
    (by decide) (by decide) (by decide +kernel) (by decide) (fun org hget => by
      rw [hget] at howner
      have hone : org.ownerUserId = 1 := Option.some.inj howner
      rw [hone]
      decide)
  rw [hr] at hmember
  have hfind' : db'.members.find? (memberOf 1 2) = some (1, m') := hfind
  rw [bind_some, hfind', map_some, Option.some.injEq, Prod.mk.injEq] at hmember
  have hused : m'.usedQuota = 150 := hmember.1
  have hlimit : m'.quotaLimit = 100 := hmember.2
  omega

end CubeRouter.Ledger
