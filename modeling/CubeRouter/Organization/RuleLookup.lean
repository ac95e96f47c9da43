import CubeRouter.Organization.ExclusiveRules

/-!
# The lookup of a join rule

An address is looked up by the patterns that can match it: itself, and the suffixes of its domain, bare and as a
wildcard. A normalized pattern has at least two labels, so no rule that matches is missed: the lookup decides what a
scan of all rules with `MatchJoinRule` decides (`resolve_eq_scan`).
-/

namespace CubeRouter.Organization.JoinRules

open Relational Strings Transition List Bool

/-! ## Normalized patterns -/

/-- What the case table of `unicode` does: a character is mapped once and for all, and white space to white space. -/
structure CaseTable (toLower : Char → Char) : Prop where
  idem : ∀ c, toLower (toLower c) = toLower c
  space : ∀ c, isSpace (toLower c) = isSpace c

variable {base p : Text} {config : Config} {c : Char} {raw domain : Text} {rule : JoinRule}

theorem char_of_isDomainPattern (h : isDomainPattern base = true) (hc : c ∈ base) :
    c = '.' ∨ isLabelChar c = true ∨ c = '-' := by
  simp only [isDomainPattern, decide_eq_true_eq, all_eq_true] at h
  have hjoin : ['.'].intercalate (base.splitOn '.') = base := intercalate_splitOn '.'
  rw [← hjoin] at hc
  rcases mem_of_mem_intercalate hc with hdot | ⟨label, hlabel, hc⟩
  · exact .inl hdot
  · have hall := h.2 label hlabel
    simp only [isDomainLabel, and_eq_true, all_eq_true] at hall
    have hchar := hall.2 c hc
    simp only [or_eq_true, decide_eq_true_eq] at hchar
    exact .inr hchar

theorem not_space_of_labelChar (h : isLabelChar c = true) : isSpace c = false := by
  simp only [isLabelChar, decide_eq_true_eq] at h
  unfold isSpace
  rw [decide_eq_false_iff_not]
  change _ ∨ _ at h
  have hbounds : (97 ≤ c.toNat ∧ c.toNat ≤ 122) ∨ (48 ≤ c.toNat ∧ c.toNat ≤ 57) := h
  omega

theorem not_space_of_isDomainPattern (h : isDomainPattern base = true) :
    ∀ c ∈ text "*." ++ base, isSpace c = false := by
  intro c hc
  rcases mem_append.mp hc with hstar | hc
  · have hall : (text "*.").all (fun c => !isSpace c) = true := by rfl
    simpa using all_eq_true.mp hall c hstar
  · rcases char_of_isDomainPattern h hc with rfl | hlabel | rfl
    · decide
    · exact not_space_of_labelChar hlabel
    · decide

theorem star_not_mem (h : isDomainPattern base = true) : '*' ∉ base := by
  intro hstar
  have hchar := char_of_isDomainPattern h hstar
  revert hchar
  decide

theorem no_trailing_dot (h : isDomainPattern base = true) : ¬['.'] <:+ base := by
  rintro ⟨rest, rfl⟩
  simp only [isDomainPattern, decide_eq_true_eq, all_eq_true, splitOn_append_cons_self] at h
  have hempty := h.2 [] (mem_append_right _ (by decide))
  revert hempty
  decide

/-- What a normalized domain pattern looks like. -/
structure DomainShape (config : Config) (p base : Text) : Prop where
  domain : isDomainPattern base = true
  form : p = base ∨ p = text "*." ++ base
  length : byteLength p ≤ organizationJoinRuleMaxPatternLength
  lower : p.map config.toLower = p

theorem trimPrefix_wildcard (s : Text) :
    (if hasPrefix s (text "*.") then text "*." ++ trimPrefix s (text "*.") else trimPrefix s (text "*.")) = s := by
  unfold trimPrefix
  split_ifs with h
  · obtain ⟨_, rfl⟩ := isPrefixOf_iff_prefix.mp h
    rw [drop_left]
  · rfl

theorem domainShape_of_normalize (htable : CaseTable config.toLower)
    (h : config.normalizeJoinRulePattern .domain raw = .ok p) : DomainShape config p (joinRuleBase p) := by
  obtain ⟨_, hpattern, h⟩ := bind_eq_ok.mp h
  obtain ⟨_, hlength, h⟩ := bind_eq_ok.mp h
  cases h
  rw [joinRuleBase_normalized]
  refine ⟨ensure_eq_ok.mp hpattern, ?_, by simpa using ensure_eq_ok.mp hlength, ?_⟩
  · split_ifs
    · exact .inr rfl
    · exact .inl rfl
  · rw [trimPrefix_wildcard]
    refine (map_congr_left fun c hc => ?_).trans (map_id _)
    obtain ⟨d, -, rfl⟩ := mem_map.mp (mem_trimSuffix hc)
    exact htable.idem d

theorem trimSuffix_dot (h : DomainShape config p base) : trimSuffix p (text ".") = p := by
  rw [trimSuffix, if_neg]
  rw [hasSuffix_iff]
  intro hdot
  have hbase : base <:+ p := by
    rcases h.form with rfl | rfl
    · exact suffix_refl _
    · exact suffix_append _ _
  rcases suffix_or_suffix_of_suffix hdot hbase with hsuffix | hsuffix
  · exact no_trailing_dot h.domain hsuffix
  · rcases suffix_cons_iff.mp hsuffix with heq | hnil
    · exact no_trailing_dot h.domain (heq ▸ suffix_refl _)
    · exact (shape_of_isDomainPattern h.domain).1 (suffix_nil.mp hnil)

theorem hasPrefix_base (h : isDomainPattern base = true) : hasPrefix base (text "*.") = false := by
  rw [eq_false_iff]
  intro hbegins
  obtain ⟨_, rfl⟩ := isPrefixOf_iff_prefix.mp hbegins
  exact star_not_mem h mem_cons_self

theorem joinRuleBase_of_shape (h : DomainShape config p base) : joinRuleBase p = base := by
  rcases h.form with rfl | rfl
  · rw [joinRuleBase, trimPrefix, hasPrefix_base h.domain, if_neg Bool.false_ne_true]
  · exact joinRuleBase_wildcard base

theorem normalize_of_domainShape (h : DomainShape config p base) :
    config.normalizeJoinRulePattern .domain p = .ok p := by
  have htrim : trimSpace p = p := by
    refine trimSpace_eq_self fun c hc => not_space_of_isDomainPattern h.domain c ?_
    rcases h.form with rfl | rfl
    · exact mem_append_right _ hc
    · exact hc
  have hpattern : trimSuffix ((trimSpace p).map config.toLower) (text ".") = p := by
    rw [htrim, h.lower, trimSuffix_dot h]
  have hbase : trimPrefix p (text "*.") = base := joinRuleBase_of_shape h
  have hform := trimPrefix_wildcard p
  rw [hbase] at hform
  unfold Config.normalizeJoinRulePattern
  dsimp only
  rw [hpattern, hbase, hform]
  exact bind_eq_ok.mpr ⟨(), ensure_eq_ok.mpr h.domain,
    bind_eq_ok.mpr ⟨(), ensure_eq_ok.mpr (by simpa using h.length), rfl⟩⟩

theorem normalize_normalized (htable : CaseTable config.toLower) {matchType : MatchType}
    (h : config.normalizeJoinRulePattern matchType raw = .ok p) :
    config.normalizeJoinRulePattern matchType p = .ok p := by
  cases matchType with
  | domain => exact normalize_of_domainShape (domainShape_of_normalize htable h)
  | email =>
    obtain ⟨_, hemail, h⟩ := bind_eq_ok.mp h
    obtain ⟨_, hlength, h⟩ := bind_eq_ok.mp h
    cases h
    have hsame : config.normalizeEmail (config.normalizeEmail raw) = config.normalizeEmail raw := by
      unfold Config.normalizeEmail
      rw [trimSpace_map htable.space, trimSpace_trimSpace, map_map]
      exact map_congr_left fun c _ => htable.idem c
    unfold Config.normalizeJoinRulePattern
    dsimp only
    rw [hsame]
    exact bind_eq_ok.mpr ⟨(), hemail, bind_eq_ok.mpr ⟨(), hlength, rfl⟩⟩

/-! ## The candidates of a domain -/

theorem mem_candidates (hlabels : 2 ≤ (base.splitOn '.').length) (h : domain = base ∨ '.' :: base <:+ domain) :
    base ∈ joinRuleDomainCandidates domain ∧ text "*." ++ base ∈ joinRuleDomainCandidates domain := by
  obtain ⟨i, hi, hdrop⟩ : ∃ i, i < (domain.splitOn '.').length - 1 ∧
    (domain.splitOn '.').drop i = base.splitOn '.' := by
    rcases h with rfl | ⟨above, rfl⟩
    · exact ⟨0, by omega, drop_zero⟩
    · refine ⟨(above.splitOn '.').length, ?_, ?_⟩
      · rw [splitOn_append_cons_self, length_append]
        omega
      · rw [splitOn_append_cons_self, drop_left]
  have hjoin : (text ".").intercalate ((domain.splitOn '.').drop i) = base := by
    rw [hdrop]
    exact intercalate_splitOn '.'
  constructor
  · refine mem_flatMap.mpr ⟨i, mem_range.mpr hi, ?_⟩
    rw [hjoin]
    exact mem_cons_self
  · refine mem_flatMap.mpr ⟨i, mem_range.mpr hi, ?_⟩
    rw [hjoin]
    exact mem_cons_of_mem _ mem_cons_self

theorem mem_candidates_of_covers
    (h : DomainShape config rule.patternNormalized base) (hcovers : rule.covers domain = true) :
    rule.patternNormalized ∈ joinRuleDomainCandidates domain := by
  have hlabels : 2 ≤ (base.splitOn '.').length := by
    have hdomain := h.domain
    simp only [isDomainPattern, decide_eq_true_eq] at hdomain
    exact hdomain.1
  have hbelow : domain = base ∨ '.' :: base <:+ domain := by
    rw [← joinRuleBase_of_shape h]
    exact (covers_iff.mp hcovers).imp_right And.right
  obtain ⟨hbare, hwildcard⟩ := mem_candidates hlabels hbelow
  rcases h.form with heq | heq <;> rw [heq]
  · exact hbare
  · exact hwildcard

/-! ## The lookup -/

/-- What a scan of all rules decides: the address rule that matches, or else the only domain rule that does. -/
def scanJoinRules (rules : Rules) (normalizedEmail : Text) : Except Ambiguous (Option (Nat × JoinRule)) :=
  let matched := rules.table.select fun r => matchJoinRule r normalizedEmail
  match matched.find? fun rule => rule.2.matchType = .email with
  | some rule => .ok (some rule)
  | none =>
    match matched with
    | [] => .ok none
    | [rule] => .ok (some rule)
    | matched => .error (.domainRules (matched.map Prod.fst) ((emailDomain normalizedEmail).getD []))

/-- Every pattern comes from `NormalizeJoinRulePattern`. -/
def Normalized (config : Config) (rules : Rules) : Prop :=
  ∀ id r, rules.table.get? id = some r →
    ∃ raw, config.normalizeJoinRulePattern r.matchType raw = .ok r.patternNormalized

theorem matchJoinRule_email {email : Text} (h : rule.matchType = .email) :
    matchJoinRule rule email = true ↔ email ≠ [] ∧ rule.patternNormalized = email := by
  unfold matchJoinRule
  rw [h]
  split_ifs with hnil
  · simp [hnil]
  · simp [hnil, eq_comm]

theorem filter_select (rules : Rules) (p q : JoinRule → Bool) :
    ((rules.table.select p).filter fun x => q x.2) = rules.table.select fun r => p r && q r := by
  unfold Table.select
  rw [filter_filterMap]
  refine filterMap_congr fun i _ => ?_
  cases rules.table.row i with
  | none => rfl
  | some r =>
    by_cases hp : p r = true <;> by_cases hq : q r = true <;> simp [hp, hq]

theorem select_congr {rules : Rules} {p q : JoinRule → Bool}
    (h : ∀ id r, rules.table.get? id = some r → p r = q r) : rules.table.select p = rules.table.select q := by
  have hkept : ∀ p : JoinRule → Bool,
    rules.table.select p = (rules.table.select fun _ => true).filter fun x => p x.2 := by
    intro p
    rw [filter_select]
    rfl
  rw [hkept p, hkept q]
  refine filter_congr fun x hx => ?_
  exact h x.1 x.2 (Table.mem_select_iff.mp hx).1

section Lookup

variable {config : Config} (htable : CaseTable config.toLower)
  (hemail : ∀ e, config.isEmail e = true → emailDomain e ≠ none) {rules : Rules} (hnormal : Normalized config rules)
include hemail hnormal

theorem select_of_no_domain {email : Text} (hdomain : emailDomain email = none) :
    (rules.table.select fun r => matchJoinRule r email) = [] := by
  refine eq_nil_iff_forall_not_mem.mpr fun x hx => ?_
  obtain ⟨hrow, hmatch⟩ := Table.mem_select_iff.mp hx
  cases htype : x.2.matchType with
  | domain =>
    obtain ⟨_, hsome, -⟩ := matchJoinRule_domain htype hmatch
    rw [hdomain] at hsome
    cases hsome
  | email =>
    obtain ⟨-, hpattern⟩ := (matchJoinRule_email htype).mp hmatch
    obtain ⟨_, hraw⟩ := hnormal x.1 x.2 hrow
    rw [htype] at hraw
    obtain ⟨_, hvalid, hraw⟩ := bind_eq_ok.mp hraw
    obtain ⟨_, -, hraw⟩ := bind_eq_ok.mp hraw
    rw [← hpattern, ← Except.ok.inj hraw] at hdomain
    exact hemail _ (ensure_eq_ok.mp hvalid).2 hdomain

include htable

/-- The lookup decides what the scan decides. -/
theorem resolve_eq_scan (email : Text) : resolveOrganizationJoinRule rules email = scanJoinRules rules email := by
  unfold resolveOrganizationJoinRule scanJoinRules
  cases hdomain : emailDomain email with
  | none =>
    rw [select_of_no_domain hemail hnormal hdomain]
    rfl
  | some domain =>
    have hne : email ≠ [] := by
      rintro rfl
      cases hdomain
    have haddress : ((rules.table.select fun r => matchJoinRule r email).filter fun x => x.2.matchType = .email) =
        rules.table.select fun r => r.matchType = .email ∧ r.patternNormalized = email := by
      rw [filter_select rules _ fun r => r.matchType = .email]
      refine select_congr fun id r _ => ?_
      by_cases htype : r.matchType = .email
      · have : matchJoinRule r email = true ↔ _ := matchJoinRule_email htype
        rw [Bool.eq_iff_iff]
        simp [htype, this, hne]
      · simp [htype]
    dsimp only
    rw [← head?_filter, haddress]
    rcases addressRules_eq_nil_or_singleton rules email with hnone | ⟨x, hone⟩
    · have hmatched : ((rules.table.select fun r =>
          r.matchType = .domain ∧ r.patternNormalized ∈ joinRuleDomainCandidates domain).filter
            fun rule => matchJoinRule rule.2 email) = rules.table.select fun r => matchJoinRule r email := by
        rw [filter_select rules _ fun r => matchJoinRule r email]
        refine select_congr fun id r hrow => ?_
        rw [and_eq_right_iff_imp]
        intro hmatch
        have htype : r.matchType = .domain := by
          cases htype : r.matchType with
          | domain => rfl
          | email =>
            have hmem : (id, r) ∈ rules.table.select fun r => r.matchType = .email ∧ r.patternNormalized = email :=
              Table.mem_select_iff.mpr ⟨hrow, decide_eq_true ⟨htype, ((matchJoinRule_email htype).mp hmatch).2⟩⟩
            rw [hnone] at hmem
            cases hmem
        obtain ⟨_, hraw⟩ := hnormal id r hrow
        rw [htype] at hraw
        obtain ⟨domain', hdomain', hcovers⟩ := matchJoinRule_domain htype hmatch
        obtain rfl : domain = domain' := Option.mem_unique hdomain hdomain'
        exact decide_eq_true ⟨htype, mem_candidates_of_covers (domainShape_of_normalize htable hraw) hcovers⟩
      rw [hnone, hmatched]
      rfl
    · rw [hone]
      rfl

end Lookup

/-- The lookup of an address decides what a scan of all rules does, domain rules that match one address overlap, and
what has been normalized stays what it is. -/
theorem lookup_is_a_scan (config : Config) (htable : CaseTable config.toLower)
    (hemail : ∀ e, config.isEmail e = true → emailDomain e ≠ none) (rules : Rules) (hnormal : Normalized config rules) :
    (∀ email, resolveOrganizationJoinRule rules email = scanJoinRules rules email) ∧
      (∀ a b : JoinRule, a.matchType = .domain → b.matchType = .domain →
        (∃ email, matchJoinRule a email = true ∧ matchJoinRule b email = true) → joinRulesOverlap a b = true) ∧
      ∀ matchType raw p, config.normalizeJoinRulePattern matchType raw = .ok p →
        config.normalizeJoinRulePattern matchType p = .ok p := by
  refine ⟨resolve_eq_scan htable hemail hnormal, ?_, fun _ _ _ => normalize_normalized htable⟩
  rintro a b ha hb ⟨email, hmatchA, hmatchB⟩
  rcases covers_of_match ha hb hmatchA hmatchB with hcovers | hcovers
  · exact overlap_of_covers ha hb hcovers
  · exact overlap_symm hb ha (overlap_of_covers hb ha hcovers)

/-- An address is whatever has a domain. -/
def plainConfig : Config := ⟨Char.toLower, fun email => (emailDomain email).isSome⟩

theorem toLower_cases (c : Char) :
    (65 ≤ c.toNat ∧ c.toNat ≤ 90 ∧ c.toLower.toNat = c.toNat + 32) ∨
    (¬(65 ≤ c.toNat ∧ c.toNat ≤ 90) ∧ c.toLower = c) := by
  have hbounds : (c.val ≥ 'A'.val ∧ c.val ≤ 'Z'.val) ↔ 65 ≤ c.toNat ∧ c.toNat ≤ 90 := Iff.rfl
  unfold Char.toLower
  split_ifs with h
  · have hcase := hbounds.mp h
    refine .inl ⟨hcase.1, hcase.2, ?_⟩
    change (c.val.toNat + 32) % 2 ^ 32 = c.val.toNat + 32
    change 65 ≤ c.val.toNat ∧ c.val.toNat ≤ 90 at hcase
    omega
  · exact .inr ⟨fun hcase => h (hbounds.mpr hcase), rfl⟩

theorem caseTable_toLower : CaseTable Char.toLower := by
  constructor
  · intro c
    rcases toLower_cases c with ⟨h1, h2, h⟩ | ⟨-, h⟩
    · exact (toLower_cases c.toLower).resolve_left (by omega) |>.2
    · rw [h, h]
  · intro c
    rcases toLower_cases c with ⟨_, _, h⟩ | ⟨-, h⟩
    · unfold isSpace
      dsimp only
      rw [h, Bool.eq_iff_iff, decide_eq_true_eq, decide_eq_true_eq]
      omega
    · rw [h]

def wildcardRule : JoinRule where
  organizationId := 1
  matchType := .domain
  pattern := text "*.A.com."
  patternNormalized := text "*.a.com"
  createdBy := 1
  createdAt := 1000
  updatedAt := 1000

def wildcardRules : Rules where
  table := Table.empty.insert wildcardRule
  unique i j r r' hi hj _ := by
    rw [Table.get?_insert] at hi hj
    split_ifs at hi hj with hi' hj'
    · rw [hi', hj']
    · cases hj
    · cases hi
    · cases hi

theorem lookup_is_a_scan_wildcard :
    (∀ email, resolveOrganizationJoinRule wildcardRules email = scanJoinRules wildcardRules email) ∧
      (∀ a b : JoinRule, a.matchType = .domain → b.matchType = .domain →
        (∃ email, matchJoinRule a email = true ∧ matchJoinRule b email = true) → joinRulesOverlap a b = true) ∧
      ∀ matchType raw p, plainConfig.normalizeJoinRulePattern matchType raw = .ok p →
        plainConfig.normalizeJoinRulePattern matchType p = .ok p := by
  refine lookup_is_a_scan plainConfig caseTable_toLower (fun e he => ?_) wildcardRules fun id r hrow => ?_
  · exact Option.isSome_iff_ne_none.mp he
  · refine ⟨text "*.A.com.", ?_⟩
    change (Table.empty.insert wildcardRule).get? id = some r at hrow
    rw [Table.get?_insert] at hrow
    split_ifs at hrow
    · cases hrow
      decide +kernel
    · cases hrow

end CubeRouter.Organization.JoinRules
