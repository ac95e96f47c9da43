import CubeRouter.Organization.JoinRules

/-!
# Whether an address can be claimed twice

Creations and deletions of join rules of any organizations interleave. A creation locks only the row of its own
organization, so one of another organization can commit between its reads and its writes. The unique index catches a
pattern that was taken meanwhile, and nothing catches a domain above or below it.

`Rivals` are two domain rules with an address in common. No address is claimed twice in any state of a run exactly when
no creation writes a rival of a rule it has not read (`Event.Unrivalled`).
-/

namespace CubeRouter.Organization.JoinRules

open Relational Strings Transition List Table

/-! ## The shape of a normalized pattern -/

/-- The base of a domain rule can stand behind an `@`. -/
def JoinRule.Shaped (rule : JoinRule) : Prop :=
  rule.matchType = .domain → joinRuleBase rule.patternNormalized ≠ [] ∧ '@' ∉ joinRuleBase rule.patternNormalized

theorem not_at_of_label {label : Text} (h : isDomainLabel label = true) : '@' ∉ label := by
  intro hat
  simp only [isDomainLabel, Bool.and_eq_true, all_eq_true] at h
  have hchar := h.2 '@' hat
  revert hchar
  decide

theorem shape_of_isDomainPattern {base : Text} (h : isDomainPattern base = true) : base ≠ [] ∧ '@' ∉ base := by
  simp only [isDomainPattern, decide_eq_true_eq, all_eq_true] at h
  obtain ⟨hlength, hlabels⟩ := h
  constructor
  · rintro rfl
    simp at hlength
  · intro hat
    have hjoin : ['.'].intercalate (base.splitOn '.') = base := intercalate_splitOn '.'
    rw [← hjoin] at hat
    rcases mem_of_mem_intercalate hat with h | ⟨label, hlabel, hat⟩
    · revert h
      decide
    · exact not_at_of_label (hlabels label hlabel) hat

theorem joinRuleBase_wildcard (base : Text) : joinRuleBase (text "*." ++ base) = base := by
  have hp : hasPrefix (text "*." ++ base) (text "*.") = true := by
    simp [hasPrefix]
  rw [joinRuleBase, trimPrefix, if_pos hp]
  exact drop_left

/-- Taking the wildcard off a pattern and putting it back loses nothing. -/
theorem joinRuleBase_normalized (pattern : Text) :
    joinRuleBase (if hasPrefix pattern (text "*.") then text "*." ++ trimPrefix pattern (text "*.")
      else trimPrefix pattern (text "*.")) = trimPrefix pattern (text "*.") := by
  split_ifs with hp
  · exact joinRuleBase_wildcard _
  · rw [trimPrefix, if_neg hp, joinRuleBase, trimPrefix, if_neg hp]

variable {config : Config} {a b rule : JoinRule} {rules rules' : Rules} {existing : List (Nat × JoinRule)}
  {accepted : List JoinRule} {caller : Caller} {s : JoinRuleTables}

theorem shape_of_normalize {raw normalized : Text} (h : config.normalizeJoinRulePattern .domain raw = .ok normalized) :
    joinRuleBase normalized ≠ [] ∧ '@' ∉ joinRuleBase normalized := by
  obtain ⟨_, hpattern, h⟩ := bind_eq_ok.mp h
  obtain ⟨_, -, h⟩ := bind_eq_ok.mp h
  cases h
  rw [joinRuleBase_normalized]
  exact shape_of_isDomainPattern (ensure_eq_ok.mp hpattern)

/-! ## Rivals -/

/-- Two domain rules with an address in common: one covers the domain of the other. -/
def Rivals (a b : JoinRule) : Prop :=
  a.matchType = .domain ∧ b.matchType = .domain ∧
    (a.covers (joinRuleBase b.patternNormalized) = true ∨ b.covers (joinRuleBase a.patternNormalized) = true)

instance (a b : JoinRule) : Decidable (Rivals a b) := by
  unfold Rivals
  infer_instance

theorem Rivals.symm (h : Rivals a b) : Rivals b a := ⟨h.2.1, h.1, h.2.2.symm⟩

theorem Rivals.overlap (h : Rivals a b) : joinRulesOverlap a b = true := by
  obtain ⟨ha, hb, h | h⟩ := h
  · exact overlap_of_covers ha hb h
  · exact overlap_symm hb ha (overlap_of_covers hb ha h)

variable {domain : Text} {candidate : JoinRule} {organizations : Table Organization} {now : Int} {s' : JoinRuleTables}

theorem emailDomain_at (hne : domain ≠ []) (hat : '@' ∉ domain) :
    emailDomain ('x' :: '@' :: domain) = some domain := by
  have hdomain : List.rtakeWhile (fun c => decide (c ≠ '@')) ('x' :: '@' :: domain) = domain := by
    have hall : ∀ c ∈ domain.reverse, decide (c ≠ '@') = true := by
      intro c hc
      simp only [mem_reverse] at hc
      simp only [decide_eq_true_eq]
      rintro rfl
      exact hat hc
    rw [List.rtakeWhile, reverse_cons, reverse_cons, append_assoc, takeWhile_append_of_pos hall]
    simp
  rw [emailDomain]
  simp only [hdomain]
  rw [if_pos ⟨by simp, hne⟩]

theorem match_of_covers (hrule : rule.matchType = .domain) (hne : domain ≠ []) (hat : '@' ∉ domain)
    (hcovers : rule.covers domain = true) : matchJoinRule rule ('x' :: '@' :: domain) = true := by
  rw [matchJoinRule, if_neg (by simp)]
  simp [hrule, emailDomain_at hne hat, hcovers]

theorem covers_base : rule.covers (joinRuleBase rule.patternNormalized) = true :=
  covers_iff.mpr (.inl rfl)

theorem rivals_iff (hshapeA : a.Shaped) (hshapeB : b.Shaped) (ha : a.matchType = .domain) (hb : b.matchType = .domain) :
    Rivals a b ↔ ∃ email, matchJoinRule a email = true ∧ matchJoinRule b email = true := by
  constructor
  · rintro ⟨-, -, h | h⟩
    · obtain ⟨hne, hat⟩ := hshapeB hb
      exact ⟨_, match_of_covers ha hne hat h, match_of_covers hb hne hat covers_base⟩
    · obtain ⟨hne, hat⟩ := hshapeA ha
      exact ⟨_, match_of_covers ha hne hat covers_base, match_of_covers hb hne hat h⟩
  · rintro ⟨email, hmatchA, hmatchB⟩
    exact ⟨ha, hb, covers_of_match ha hb hmatchA hmatchB⟩

/-! ## What one table promises -/

def Exclusive (rules : Rules) : Prop :=
  ∀ email i j a b, rules.table.get? i = some a → rules.table.get? j = some b → a.matchType = .domain →
    b.matchType = .domain → matchJoinRule a email = true → matchJoinRule b email = true → i = j

def ShapedRules (rules : Rules) : Prop := ∀ i rule, rules.table.get? i = some rule → rule.Shaped

theorem exclusive_iff (hshape : ShapedRules rules) : Exclusive rules ↔
      ∀ i j a b, rules.table.get? i = some a → rules.table.get? j = some b → Rivals a b → i = j := by
  constructor
  · intro h i j a b hi hj hrivals
    obtain ⟨email, hmatchA, hmatchB⟩ := (rivals_iff (hshape i a hi) (hshape j b hj) hrivals.1 hrivals.2.1).mp hrivals
    exact h email i j a b hi hj hrivals.1 hrivals.2.1 hmatchA hmatchB
  · intro h email i j a b hi hj ha hb hmatchA hmatchB
    exact h i j a b hi hj ⟨ha, hb, covers_of_match ha hb hmatchA hmatchB⟩

theorem eq_nil_or_singleton {p : JoinRule → Bool} {l : List (Nat × JoinRule)} (hl : l.Sublist (rules.table.select p))
    (hsame : ∀ x ∈ l, ∀ y ∈ l, x.1 = y.1) : l = [] ∨ ∃ x, l = [x] := by
  match l with
  | [] => exact .inl rfl
  | [x] => exact .inr ⟨x, rfl⟩
  | x :: y :: rest =>
    have hlt := (select_ids_lt rules.table p).sublist hl
    have hne := ((pairwise_cons.mp hlt).1 y (by simp)).ne
    exact absurd (hsame x (by simp) y (by simp)) hne

theorem matched_eq_nil_or_singleton (h : Exclusive rules) {email : Text} {candidates : List Text} :
    let matched := (rules.table.select fun r => r.matchType = .domain ∧ r.patternNormalized ∈ candidates).filter
      fun rule => matchJoinRule rule.2 email
    matched = [] ∨ ∃ x, matched = [x] := by
  refine eq_nil_or_singleton filter_sublist fun x hx y hy => ?_
  obtain ⟨hx, hmatchX⟩ := mem_filter.mp hx
  obtain ⟨hy, hmatchY⟩ := mem_filter.mp hy
  obtain ⟨hgetX, hpX⟩ := mem_select_iff.mp hx
  obtain ⟨hgetY, hpY⟩ := mem_select_iff.mp hy
  simp only [decide_eq_true_eq] at hpX hpY
  exact h email x.1 y.1 x.2 y.2 hgetX hgetY hpX.1 hpY.1 hmatchX hmatchY

theorem addressRules_eq_nil_or_singleton (rules : Rules) (email : Text) :
    let addressRules := rules.table.select fun r => r.matchType = .email ∧ r.patternNormalized = email
    addressRules = [] ∨ ∃ x, addressRules = [x] := by
  refine eq_nil_or_singleton (Sublist.refl _) fun x hx y hy => ?_
  obtain ⟨hgetX, hpX⟩ := mem_select_iff.mp hx
  obtain ⟨hgetY, hpY⟩ := mem_select_iff.mp hy
  simp only [decide_eq_true_eq] at hpX hpY
  exact rules.unique x.1 y.1 x.2 y.2 hgetX hgetY (hpX.2.trans hpY.2.symm)

/-- The index leaves one address rule, exclusion one domain rule. -/
theorem resolve_of_exclusive (h : Exclusive rules) (email : Text) :
    failure (resolveOrganizationJoinRule rules email) = none := by
  unfold resolveOrganizationJoinRule
  cases emailDomain email with
  | none => rfl
  | some domain =>
    simp only
    rcases addressRules_eq_nil_or_singleton rules email with haddress | ⟨x, haddress⟩
    · rw [haddress]
      rcases matched_eq_nil_or_singleton h with hmatched | ⟨x, hmatched⟩
      · rw [hmatched]
        rfl
      · rw [hmatched]
        rfl
    · rw [haddress]
      rfl

/-! ## A batch that has been checked -/

/-- What the checks give about the rules a creation will write. -/
structure Checked (existing : List (Nat × JoinRule)) (accepted : List JoinRule) : Prop where
  distinct : accepted.Pairwise fun a b => a.patternNormalized ≠ b.patternNormalized
  apart : ∀ a ∈ accepted, ∀ b ∈ accepted, Rivals a b → a = b
  clear : ∀ r ∈ existing, ∀ a ∈ accepted, ¬Rivals r.2 a
  shaped : ∀ a ∈ accepted, a.Shaped

theorem Checked.nil (existing : List (Nat × JoinRule)) : Checked existing [] :=
  ⟨.nil, by simp, by simp, by simp⟩

theorem Checked.append (h : Checked existing accepted) (hshape : candidate.Shaped)
    (hfresh : ∀ a ∈ accepted, a.patternNormalized ≠ candidate.patternNormalized)
    (hbatch : ∀ a ∈ accepted, ¬Rivals candidate a) (hexisting : ∀ r ∈ existing, ¬Rivals candidate r.2) :
    Checked existing (accepted ++ [candidate]) where
  distinct := by
    refine pairwise_append.mpr ⟨h.distinct, pairwise_singleton _ _, fun a ha b hb => ?_⟩
    rw [mem_singleton.mp hb]
    exact hfresh a ha
  apart a ha b hb hrivals := by
    rw [mem_append, mem_singleton] at ha hb
    rcases ha with ha | rfl
    · rcases hb with hb | rfl
      · exact h.apart a ha b hb hrivals
      · exact absurd hrivals.symm (hbatch a ha)
    · rcases hb with hb | rfl
      · exact absurd hrivals (hbatch b hb)
      · rfl
  clear r hr a ha := by
    rw [mem_append, mem_singleton] at ha
    rcases ha with ha | rfl
    · exact h.clear r hr a ha
    · exact fun hrivals => hexisting r hr hrivals.symm
  shaped a ha := by
    rw [mem_append, mem_singleton] at ha
    rcases ha with ha | rfl
    · exact h.shaped a ha
    · exact hshape

theorem Rivals.bothDomains (h : Rivals a b) : bothDomains b a = true := by
  simp [JoinRules.bothDomains, h.1, h.2.1]

theorem Batch.offer_checked {b : Batch} (h : Checked existing b.accepted) (hshape : candidate.Shaped) {line : Nat} :
    Checked existing (b.offer organizations existing line candidate).accepted := by
  unfold Batch.offer
  split_ifs with hseen
  · exact h
  split
  · exact h
  next hbatch =>
  split
  · split_ifs
    · exact h
    · exact h
  next hexisting =>
  rw [find?_eq_none] at hbatch hexisting
  refine h.append hshape (fun a ha heq => ?_) (fun a ha hrivals => ?_) (fun r hr hrivals => ?_)
  · exact hseen (any_eq_true.mpr ⟨a, ha, by simpa using heq⟩)
  · exact hbatch a ha (by rw [hrivals.bothDomains, hrivals.overlap]; rfl)
  · refine hexisting r hr ?_
    simp [stops, hrivals.overlap, hrivals.bothDomains]

theorem Config.readLine_checked {b : Batch} (h : Checked existing b.accepted) (line : Text × Nat) :
    Checked existing (config.readLine organizations existing caller now b line).accepted := by
  simp only [Config.readLine]
  split_ifs
  · exact h
  split
  · exact h
  next hnormalized =>
  refine Batch.offer_checked h (fun hdomain => ?_)
  simp only at hdomain
  rw [hdomain] at hnormalized
  exact shape_of_normalize hnormalized

theorem Config.readLines_checked (config : Config) {patterns : List Text} :
    Checked existing (config.readLines organizations existing caller now patterns).accepted := by
  have hfold : ∀ (lines : List (Text × Nat)) (b : Batch), Checked existing b.accepted →
      Checked existing (lines.foldl (config.readLine organizations existing caller now) b).accepted := by
    intro lines
    induction lines with
    | nil => exact fun _ h => h
    | cons line _ ih => exact fun _ h => ih _ (config.readLine_checked h line)
  exact hfold _ {} (.nil existing)

/-! ## What a commit writes -/

/-- The rules after the writes: those before and the new ones, at other ids. -/
structure Written (rules : Rules) (accepted : List JoinRule) (rules' : Rules) : Prop where
  kept : ∀ i r, rules.table.get? i = some r → rules'.table.get? i = some r
  added : ∀ a ∈ accepted, ∃ i, rules'.table.get? i = some a ∧ rules.table.get? i = none
  only : ∀ i r, rules'.table.get? i = some r → rules.table.get? i = some r ∨ r ∈ accepted

theorem get?_next : rules.table.get? rules.table.next = none := rules.table.row_fresh _ le_rfl

theorem insert_table (h : rules.insert rule = some rules') : rules'.table = rules.table.insert rule := by
  unfold Index.insert at h
  split_ifs at h
  cases h
  rfl

theorem insertRules_written (h : insertRules rules accepted = some rules') : Written rules accepted rules' := by
  induction accepted generalizing rules with
  | nil =>
    cases h
    exact ⟨fun _ _ h => h, by simp, fun _ _ h => .inl h⟩
  | cons rule _ ih =>
    obtain ⟨rules1, hinsert, hrest⟩ := Option.bind_eq_some_iff.mp h
    have htable := insert_table hinsert
    have hw := ih hrest
    have hkept : ∀ i r, rules.table.get? i = some r → rules1.table.get? i = some r := by
      intro i r hi
      rw [htable, Table.get?_insert_of_get? hi]
    refine ⟨fun i r hi => hw.kept i r (hkept i r hi), fun a ha => ?_, fun i r hi => ?_⟩
    · rcases mem_cons.mp ha with rfl | ha
      · refine ⟨rules.table.next, hw.kept _ _ ?_, get?_next⟩
        rw [htable, Table.get?_insert, if_pos rfl]
      · obtain ⟨i, hi, hnone⟩ := hw.added a ha
        refine ⟨i, hi, ?_⟩
        cases hrow : rules.table.get? i with
        | none => rfl
        | some r =>
          rw [hkept i r hrow] at hnone
          cases hnone
    · rcases hw.only i r hi with hi | hr
      · rw [htable, Table.get?_insert] at hi
        split_ifs at hi
        · cases hi
          exact .inr mem_cons_self
        · exact .inl hi
      · exact .inr (mem_cons_of_mem rule hr)

/-- The index lets no pattern through that is taken. -/
theorem Written.free (h : Written rules accepted rules') (ha : a ∈ accepted) :
    rules.find? a.patternNormalized = none := by
  refine Index.find?_eq_none_iff.mpr fun i rule hrule hpattern => ?_
  obtain ⟨j, hj, hnone⟩ := h.added a ha
  obtain rfl := rules'.unique i j rule a (h.kept i rule hrule) hj hpattern
  rw [hrule] at hnone
  cases hnone

theorem insertRules_isSome (hdistinct : accepted.Pairwise fun a b => a.patternNormalized ≠ b.patternNormalized)
    (hfree : ∀ a ∈ accepted, rules.find? a.patternNormalized = none) :
    ∃ rules', insertRules rules accepted = some rules' := by
  induction accepted generalizing rules with
  | nil => exact ⟨rules, rfl⟩
  | cons rule rest ih =>
    obtain ⟨hne, hdistinct⟩ := pairwise_cons.mp hdistinct
    have hfirst : rules.find? rule.patternNormalized = none := hfree rule mem_cons_self
    obtain ⟨rules1, hinsert⟩ : ∃ rules1, rules.insert rule = some rules1 := by
      rw [Index.insert, dif_pos hfirst]
      exact ⟨_, rfl⟩
    obtain ⟨rules', hrest⟩ : ∃ rules', insertRules rules1 rest = some rules' := ih hdistinct fun a ha => by
      rw [Index.find?_insert hinsert, if_neg (hne a ha).symm]
      exact hfree a (mem_cons_of_mem rule ha)
    exact ⟨rules', Option.bind_eq_some_iff.mpr ⟨rules1, hinsert, hrest⟩⟩

/-! ## Interleavings -/

/-- A step of some transaction. The organizations and members are as the transaction finds them. -/
inductive Event
  | read (emailVerificationEnabled : Bool) (organizations : State) (caller : Caller) (req : CreateJoinRulesRequest)
      (now : Int)
  | write (organizationId : Nat)
  | delete (organizations : State) (caller : Caller) (ruleId : Nat) (reason : Text)

def JoinRuleTables.step (config : Config) (s : JoinRuleTables) : Event → JoinRuleTables
  | .read enabled organizations caller req now =>
    attempt (readJoinRules config s enabled organizations caller req now) s
  | .write organizationId => writeJoinRules s organizationId
  | .delete organizations caller ruleId reason =>
    attempt (deleteOrganizationJoinRule s organizations caller ruleId reason) s

def JoinRuleTables.creation? (s : JoinRuleTables) (organizationId : Nat) : Option Creation :=
  s.creations.find? fun c => c.organizationId = organizationId

/-- A creation writes no rival of a rule that it has not read, unless the index refuses the whole batch. -/
def Event.Unrivalled (s : JoinRuleTables) : Event → Prop
  | .write organizationId => ∀ creation, s.creation? organizationId = some creation →
      (∀ a ∈ creation.accepted, s.rules.find? a.patternNormalized = none) →
      ∀ i rule, s.rules.table.get? i = some rule → (i, rule) ∉ creation.existing →
        ∀ a ∈ creation.accepted, ¬Rivals rule a
  | _ => True

structure JoinRuleTables.Sound (s : JoinRuleTables) : Prop where
  shaped : ShapedRules s.rules
  checked : ∀ c ∈ s.creations, Checked c.existing c.accepted

theorem readJoinRules_ok {enabled : Bool} {organizations : State} {req : CreateJoinRulesRequest}
    (h : readJoinRules config s enabled organizations caller req now = .ok s') :
    ∃ creation, Checked creation.existing creation.accepted ∧
      s' = { s with creations := s.creations ++ [creation] } := by
  obtain ⟨_, -, h⟩ := bind_eq_ok.mp h
  obtain ⟨_, -, h⟩ := bind_eq_ok.mp h
  obtain ⟨_, -, h⟩ := bind_eq_ok.mp h
  obtain ⟨_, -, h⟩ := bind_eq_ok.mp h
  obtain ⟨_, -, h⟩ := bind_eq_ok.mp h
  obtain ⟨_, -, h⟩ := bind_eq_ok.mp h
  cases h
  exact ⟨_, config.readLines_checked, rfl⟩

theorem deleteOrganizationJoinRule_ok {organizations : State} {ruleId : Nat} {reason : Text}
    (h : deleteOrganizationJoinRule s organizations caller ruleId reason = .ok s') :
    s' = { s with rules := s.rules.delete ruleId } := by
  obtain ⟨_, -, h⟩ := bind_eq_ok.mp h
  obtain ⟨_, -, h⟩ := bind_eq_ok.mp h
  obtain ⟨_, -, h⟩ := bind_eq_ok.mp h
  cases hrow : s.rules.table.get? ruleId with
  | none =>
    rw [hrow] at h
    cases h
  | some =>
    rw [hrow] at h
    obtain ⟨_, -, h⟩ := bind_eq_ok.mp h
    cases h
    rfl

theorem get?_of_delete {i j : Nat} (h : (rules.delete i).table.get? j = some rule) :
    rules.table.get? j = some rule := by
  change (rules.table.delete i).get? j = some rule at h
  rw [Table.get?_delete] at h
  split_ifs at h
  exact h

theorem Written.shaped (h : Written rules accepted rules') (hrules : ShapedRules rules)
    (haccepted : ∀ a ∈ accepted, a.Shaped) : ShapedRules rules' := by
  intro i rule hrule
  rcases h.only i rule hrule with hrule | hrule
  · exact hrules i rule hrule
  · exact haccepted rule hrule

theorem step_sound (config : Config) (h : s.Sound) (event : Event) : (s.step config event).Sound := by
  cases event with
  | read =>
    refine attempt_invariant h fun s' hs' => ?_
    obtain ⟨creation, hchecked, rfl⟩ := readJoinRules_ok hs'
    refine ⟨h.shaped, fun c hc => ?_⟩
    rw [mem_append, mem_singleton] at hc
    rcases hc with hc | rfl
    · exact h.checked c hc
    · exact hchecked
  | write organizationId =>
    simp only [JoinRuleTables.step, writeJoinRules]
    cases hfind : s.creations.find? fun c => c.organizationId = organizationId with
    | none => exact h
    | some creation =>
      have hchecked := h.checked creation (mem_of_find?_eq_some hfind)
      simp only
      refine ⟨?_, fun c hc => h.checked c (mem_filter.mp hc).1⟩
      cases hinsert : insertRules s.rules creation.accepted with
      | none => exact h.shaped
      | some => exact (insertRules_written hinsert).shaped h.shaped hchecked.shaped
  | delete =>
    refine attempt_invariant h fun s' hs' => ?_
    obtain rfl := deleteOrganizationJoinRule_ok hs'
    exact ⟨fun i rule hrule => h.shaped i rule (get?_of_delete hrule), h.checked⟩

/-- What a commit adds to a table without rivals has none exactly when none of it meets a rule it has not read. -/
theorem exclusive_written_iff {creation : Creation} (hshape : ShapedRules rules)
    (hchecked : Checked creation.existing creation.accepted) (hw : Written rules creation.accepted rules')
    (hexclusive : Exclusive rules) :
    Exclusive rules' ↔ ∀ i rule, rules.table.get? i = some rule → (i, rule) ∉ creation.existing →
      ∀ a ∈ creation.accepted, ¬Rivals rule a := by
  rw [exclusive_iff hshape] at hexclusive
  rw [exclusive_iff (hw.shaped hshape hchecked.shaped)]
  constructor
  · intro h i rule hrule _ a ha hrivals
    obtain ⟨j, hj, hnone⟩ := hw.added a ha
    obtain rfl := h i j rule a (hw.kept i rule hrule) hj hrivals
    rw [hrule] at hnone
    cases hnone
  · intro h i j a b hi hj hrivals
    -- A rule from before against a new one: read, and then checked, or not read.
    have hmixed : ∀ k rule new, rules.table.get? k = some rule → new ∈ creation.accepted → ¬Rivals rule new := by
      intro k rule new hrule hnew hrivals
      by_cases hread : (k, rule) ∈ creation.existing
      · exact hchecked.clear (k, rule) hread new hnew hrivals
      · exact h k rule hrule hread new hnew hrivals
    rcases hw.only i a hi with ha | ha
    · rcases hw.only j b hj with hb | hb
      · exact hexclusive i j a b ha hb hrivals
      · exact absurd hrivals (hmixed i a b ha hb)
    · rcases hw.only j b hj with hb | hb
      · exact absurd hrivals.symm (hmixed j b a hb ha)
      · obtain rfl := hchecked.apart a ha b hb hrivals
        exact rules'.unique i j a a hi hj rfl

theorem step_exclusive_iff (config : Config) (h : s.Sound) (hexclusive : Exclusive s.rules) (event : Event) :
    Exclusive (s.step config event).rules ↔ event.Unrivalled s := by
  cases event with
  | read =>
    refine iff_of_true ?_ trivial
    refine attempt_invariant (I := fun s : JoinRuleTables => Exclusive s.rules) hexclusive fun s' hs' => ?_
    obtain ⟨creation, -, rfl⟩ := readJoinRules_ok hs'
    exact hexclusive
  | write organizationId =>
    simp only [JoinRuleTables.step, writeJoinRules, Event.Unrivalled, JoinRuleTables.creation?]
    cases hfind : s.creations.find? fun c => c.organizationId = organizationId with
    | none => exact iff_of_true hexclusive (by simp)
    | some creation =>
      have hchecked := h.checked creation (mem_of_find?_eq_some hfind)
      simp only [Option.some.injEq, forall_eq']
      by_cases hfree : ∀ a ∈ creation.accepted, s.rules.find? a.patternNormalized = none
      · obtain ⟨_, hinsert⟩ := insertRules_isSome hchecked.distinct hfree
        rw [hinsert, Option.getD_some,
          exclusive_written_iff h.shaped hchecked (insertRules_written hinsert) hexclusive]
        exact ⟨fun h _ => h, fun h => h hfree⟩
      · have hnone : insertRules s.rules creation.accepted = none := by
          cases hinsert : insertRules s.rules creation.accepted with
          | none => rfl
          | some => exact absurd (fun a ha => (insertRules_written hinsert).free ha) hfree
        rw [hnone]
        exact iff_of_true hexclusive fun h => absurd h hfree
  | delete =>
    refine iff_of_true ?_ trivial
    refine attempt_invariant (I := fun s : JoinRuleTables => Exclusive s.rules) hexclusive fun s' hs' => ?_
    obtain rfl := deleteOrganizationJoinRule_ok hs'
    intro email i j a b hi hj
    exact hexclusive email i j a b (get?_of_delete hi) (get?_of_delete hj)

/-- No address is matched by two domain rules, and none is ever ambiguous. -/
def NeverAmbiguous (rules : Rules) : Prop :=
  Exclusive rules ∧ ∀ email, failure (resolveOrganizationJoinRule rules email) = none

theorem joinRules_neverAmbiguous_iff (config : Config) (events : List Event) : (∀ done rest, events = done ++ rest →
        NeverAmbiguous (run (JoinRuleTables.step config) {} done).rules) ↔
      Along (JoinRuleTables.step config) (fun s event => event.Unrivalled s) {} events := by
  have hsound : ({} : JoinRuleTables).Sound := ⟨fun i rule h => (by cases h), by simp⟩
  have hempty : Exclusive ({} : JoinRuleTables).rules := fun email i j a b h => (by cases h)
  have hiff := holds_iff_along (I := fun s => Exclusive s.rules) (J := JoinRuleTables.Sound)
    (D := fun _ _ => True) (P := fun s event => event.Unrivalled s)
    (fun s event h _ => step_sound config h event)
    (fun s event h _ hexclusive => step_exclusive_iff config h hexclusive event) hsound hempty
    (along_true _ events)
  rw [← hiff]
  constructor
  · exact fun h done rest hevents => (h done rest hevents).1
  · exact fun h done rest hevents => ⟨h done rest hevents, resolve_of_exclusive (h done rest hevents)⟩

def twoOrganizations : State where
  users := Table.empty.insert { role := roleAdminUser, email := "c@example.com" }
  organizations :=
    (Table.empty.insert
      { name := "acme", nameNormalized := "acme", slug := "acme", ownerUserId := 2, createdBy := 2 }).insert
      { name := "globex", nameNormalized := "globex", slug := "globex", ownerUserId := 3, createdBy := 3 }

/-- The case table on ASCII, and a check that lets every address through. -/
def asciiConfig : Config := ⟨Char.toLower, fun email => '@' ∈ email⟩

/-- `*.a.com` and `b.a.com` are claimed at the same time: each creation has read no rule. -/
def claimedAtOnce : List Event :=
  [.read true twoOrganizations ⟨1, 1, .admin⟩ ⟨[text "*.a.com"], text "sso"⟩ 1000,
    .read true twoOrganizations ⟨1, 2, .admin⟩ ⟨[text "b.a.com"], text "sso"⟩ 1000,
    .write 1,
    .write 2]

theorem address_claimed_twice :
    ¬∀ (config : Config) (events : List Event), NeverAmbiguous (run (JoinRuleTables.step config) {} events).rules := by
  intro h
  have hnone := (h asciiConfig claimedAtOnce).2 (text "x@b.a.com")
  have hsome : failure (resolveOrganizationJoinRule (run (JoinRuleTables.step asciiConfig) {} claimedAtOnce).rules
      (text "x@b.a.com")) = some (.domainRules [1, 2] (text "b.a.com")) := by
    decide +kernel
  rw [hsome] at hnone
  cases hnone

end CubeRouter.Organization.JoinRules
