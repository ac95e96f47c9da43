import CubeRouter.Lib.Text
import CubeRouter.Organization.Membership

/-!
# Join rules

`service/organization_join_rule.go`: an address or a domain is claimed by an organization, and whoever registers with a
verified address there joins it. A domain rule is `enterprise.com`, for the bare domain, or `*.enterprise.com`, for its
subdomains too.

Two domain rules that match one address would leave the organization of its owner undecided, so `JoinRulesOverlap` is
meant to keep the second out. `covers_of_match` and `overlap_of_covers` say that the test is wide enough: rules
that match one address overlap.
-/

namespace CubeRouter.Organization.JoinRules

open Relational Strings Transition

/-! ## Patterns -/

inductive MatchType
  | domain
  | email
  deriving DecidableEq

structure JoinRule where
  organizationId : Nat
  matchType : MatchType
  pattern : Text
  patternNormalized : Text
  createdBy : Nat
  createdAt : Int
  updatedAt : Int
  deriving DecidableEq

/-- What the patterns depend on outside the repository: the case table of `unicode` and the `email` check of the
validator package. -/
structure Config where
  toLower : Char → Char
  isEmail : Text → Bool

def organizationJoinRuleMaxPatternLength : Nat := 191

def Config.normalizeEmail (config : Config) (email : Text) : Text := (trimSpace email).map config.toLower

def joinRuleMatchTypeFor (raw : Text) : MatchType := if '@' ∈ raw then .email else .domain

def isLabelChar (c : Char) : Bool := ('a' ≤ c ∧ c ≤ 'z') ∨ ('0' ≤ c ∧ c ≤ '9')

def isDomainLabel (label : Text) : Bool :=
  (label.head?.any isLabelChar) && (label.getLast?.any isLabelChar) && label.all fun c => isLabelChar c || c = '-'

/-- `organizationJoinRuleDomainPattern`: at least two labels. -/
def isDomainPattern (base : Text) : Bool :=
  2 ≤ (base.splitOn '.').length ∧ (base.splitOn '.').all isDomainLabel

inductive PatternError
  | invalidEmail
  | invalidDomain
  | tooLong
  deriving DecidableEq

def PatternError.message : PatternError → String
  | .invalidEmail => "invalid join rule email pattern"
  | .invalidDomain => "invalid join rule domain pattern"
  | .tooLong => "join rule pattern is too long"

def Config.normalizeJoinRulePattern (config : Config) (matchType : MatchType) (raw : Text) :
    Except PatternError Text := do
  match matchType with
  | .email =>
    let normalized := config.normalizeEmail raw
    ensure (normalized ≠ [] ∧ config.isEmail normalized) .invalidEmail
    ensure (byteLength normalized ≤ organizationJoinRuleMaxPatternLength) .tooLong
    .ok normalized
  | .domain =>
    let pattern := trimSuffix ((trimSpace raw).map config.toLower) (text ".")
    let base := trimPrefix pattern (text "*.")
    ensure (isDomainPattern base) .invalidDomain
    let normalized := if hasPrefix pattern (text "*.") then text "*." ++ base else base
    ensure (byteLength normalized ≤ organizationJoinRuleMaxPatternLength) .tooLong
    .ok normalized

def joinRuleBase (patternNormalized : Text) : Text := trimPrefix patternNormalized (text "*.")

/-! ## Matching -/

/-- What follows the last `@`, when it is not empty. -/
def emailDomain (normalizedEmail : Text) : Option Text :=
  let domain := normalizedEmail.rtakeWhile (· ≠ '@')
  if '@' ∈ normalizedEmail ∧ domain ≠ [] then some domain else none

/-- The domain of the rule is `domain`, or one above it when the rule is a wildcard. The test is for a suffix that
starts with a dot: `evil-enterprise.com` is not below `enterprise.com`. -/
def JoinRule.covers (rule : JoinRule) (domain : Text) : Bool :=
  domain = joinRuleBase rule.patternNormalized ∨
    (hasPrefix rule.patternNormalized (text "*.") ∧ hasSuffix domain (text "." ++ joinRuleBase rule.patternNormalized))

def matchJoinRule (rule : JoinRule) (normalizedEmail : Text) : Bool :=
  if normalizedEmail = [] then false
  else match rule.matchType with
    | .email => normalizedEmail = rule.patternNormalized
    | .domain => (emailDomain normalizedEmail).any rule.covers

/-- For two domain rules: one domain, or one below the other. -/
def joinRulesOverlap (a b : JoinRule) : Bool :=
  match a.matchType, b.matchType with
  | .email, .email => a.patternNormalized = b.patternNormalized
  | .email, .domain => matchJoinRule b a.patternNormalized
  | .domain, .email => matchJoinRule a b.patternNormalized
  | .domain, .domain =>
    let baseA := joinRuleBase a.patternNormalized
    let baseB := joinRuleBase b.patternNormalized
    baseA = baseB ∨ hasSuffix baseA (text "." ++ baseB) ∨ hasSuffix baseB (text "." ++ baseA)

variable {domain : Text} {a b : JoinRule}

theorem covers_iff {rule : JoinRule} : rule.covers domain = true ↔ domain = joinRuleBase rule.patternNormalized ∨
      (hasPrefix rule.patternNormalized (text "*.") = true ∧
      '.' :: joinRuleBase rule.patternNormalized <:+ domain) := by
  simp only [JoinRule.covers, decide_eq_true_eq, hasSuffix_iff]
  rfl

theorem matchJoinRule_domain {rule : JoinRule} {email : Text} (hdomain : rule.matchType = .domain)
    (hmatch : matchJoinRule rule email = true) :
    ∃ domain, emailDomain email = some domain ∧ rule.covers domain = true := by
  simp only [matchJoinRule, hdomain] at hmatch
  split_ifs at hmatch
  exact Option.any_eq_true .. |>.mp hmatch

theorem joinRulesOverlap_domain (ha : a.matchType = .domain) (hb : b.matchType = .domain) :
    joinRulesOverlap a b = true ↔
      joinRuleBase a.patternNormalized = joinRuleBase b.patternNormalized ∨
        '.' :: joinRuleBase b.patternNormalized <:+ joinRuleBase a.patternNormalized ∨
        '.' :: joinRuleBase a.patternNormalized <:+ joinRuleBase b.patternNormalized := by
  simp only [joinRulesOverlap, ha, hb, decide_eq_true_eq, hasSuffix_iff]
  rfl

/-- Both domains above `domain` start at a dot of it, so the longer one is below the shorter one. -/
theorem suffix_or_of_dotted {a b : Text} (ha : '.' :: a <:+ domain) (hb : '.' :: b <:+ domain) :
    a = b ∨ '.' :: a <:+ b ∨ '.' :: b <:+ a := by
  rcases List.suffix_or_suffix_of_suffix ha hb with h | h
  · rcases List.suffix_cons_iff.mp h with h | h
    · exact .inl (List.cons.inj h).2
    · exact .inr (.inl h)
  · rcases List.suffix_cons_iff.mp h with h | h
    · exact .inl (List.cons.inj h).2.symm
    · exact .inr (.inr h)

/-- Of two rules that cover one domain, one covers the domain of the other. -/
theorem covers_of_covers (ha : a.covers domain = true) (hb : b.covers domain = true) :
    a.covers (joinRuleBase b.patternNormalized) = true ∨ b.covers (joinRuleBase a.patternNormalized) = true := by
  rcases covers_iff.mp ha with rfl | ⟨hwildA, hbelowA⟩
  · exact .inr hb
  rcases covers_iff.mp hb with rfl | ⟨hwildB, hbelowB⟩
  · exact .inl ha
  rcases suffix_or_of_dotted hbelowA hbelowB with heq | h | h
  · exact .inl (covers_iff.mpr (.inl heq.symm))
  · exact .inl (covers_iff.mpr (.inr ⟨hwildA, h⟩))
  · exact .inr (covers_iff.mpr (.inr ⟨hwildB, h⟩))

theorem covers_of_match {email : Text} (hdomainA : a.matchType = .domain) (hdomainB : b.matchType = .domain)
    (ha : matchJoinRule a email = true) (hb : matchJoinRule b email = true) :
    a.covers (joinRuleBase b.patternNormalized) = true ∨ b.covers (joinRuleBase a.patternNormalized) = true := by
  obtain ⟨domain, hdomain, hcoversA⟩ := matchJoinRule_domain hdomainA ha
  obtain ⟨domain', hdomain', hcoversB⟩ := matchJoinRule_domain hdomainB hb
  obtain rfl : domain = domain' := Option.mem_unique hdomain hdomain'
  exact covers_of_covers hcoversA hcoversB

theorem overlap_of_covers (ha : a.matchType = .domain) (hb : b.matchType = .domain)
    (hcovers : a.covers (joinRuleBase b.patternNormalized) = true) : joinRulesOverlap a b = true := by
  rw [joinRulesOverlap_domain ha hb]
  rcases covers_iff.mp hcovers with heq | ⟨-, hbelow⟩
  · exact .inl heq.symm
  · exact .inr (.inr hbelow)

theorem overlap_symm (ha : a.matchType = .domain) (hb : b.matchType = .domain) (h : joinRulesOverlap a b = true) :
    joinRulesOverlap b a = true := by
  rw [joinRulesOverlap_domain ha hb] at h
  rw [joinRulesOverlap_domain hb ha]
  rcases h with h | h | h
  · exact .inl h.symm
  · exact .inr (.inr h)
  · exact .inr (.inl h)

/-! ## Resolving an address -/

abbrev Rules := Index JoinRule.patternNormalized

/-- Every suffix of at least two labels, bare and as a wildcard. -/
def joinRuleDomainCandidates (domain : Text) : List Text :=
  let labels := domain.splitOn '.'
  (List.range (labels.length - 1)).flatMap fun i =>
    let suffix := (text ".").intercalate (labels.drop i)
    [suffix, text "*." ++ suffix]

inductive Ambiguous
  | addressRules
  | domainRules (ids : List Nat) (domain : Text)
  deriving DecidableEq

def resolveOrganizationJoinRule (rules : Rules) (normalizedEmail : Text) : Except Ambiguous (Option (Nat × JoinRule)) :=
  match emailDomain normalizedEmail with
  | none => .ok none
  | some domain =>
    match rules.table.select fun r => r.matchType = .email ∧ r.patternNormalized = normalizedEmail with
    | [rule] => .ok (some rule)
    | _ :: _ :: _ => .error .addressRules
    | [] =>
      let domainRules := rules.table.select fun r =>
        r.matchType = .domain ∧ r.patternNormalized ∈ joinRuleDomainCandidates domain
      match domainRules.filter fun rule => matchJoinRule rule.2 normalizedEmail with
      | [] => .ok none
      | [rule] => .ok (some rule)
      | matched => .error (.domainRules (matched.map Prod.fst) domain)

/-! ## Creating rules -/

inductive LineErrorKind
  | invalidPattern
  | conflict

structure JoinRuleLineError where
  line : Nat
  pattern : Text
  kind : LineErrorKind
  message : String
  organizationName : String := ""
  conflictPattern : Text := []

inductive NoticeKind
  | coveredByOtherOrganization
  | coversOtherOrganizationEntry
  | publicMailboxProvider

structure JoinRuleNotice where
  pattern : Text
  kind : NoticeKind
  organizationName : String := ""
  patternConflict : Text

def organizationJoinRulePublicMailboxDomains : List String :=
  ["163.com", "126.com", "yeah.net", "qq.com", "foxmail.com", "sina.com", "sohu.com", "139.com", "gmail.com",
    "googlemail.com", "outlook.com", "hotmail.com", "live.com", "yahoo.com", "icloud.com", "me.com", "aol.com",
    "proton.me", "protonmail.com", "zoho.com", "gmx.net", "mail.ru", "yandex.com", "naver.com"]

/-- The provider a domain belongs to: the domain itself or one above it. -/
def joinRulePublicMailboxProvider (base : Text) : Option Text :=
  let labels := base.splitOn '.'
  ((List.range (labels.length - 1)).map fun i => (text ".").intercalate (labels.drop i)).find? fun suffix =>
    suffix ∈ organizationJoinRulePublicMailboxDomains.map text

structure CreateJoinRulesRequest where
  patterns : List Text
  reason : Text

/-- What the lines read so far have come to. The `seen` of the source is the patterns of `accepted`. -/
structure Batch where
  accepted : List JoinRule := []
  lineErrors : List JoinRuleLineError := []

def Batch.reject (b : Batch) (e : JoinRuleLineError) : Batch := { b with lineErrors := b.lineErrors ++ [e] }

def bothDomains (a b : JoinRule) : Bool := a.matchType = .domain ∧ b.matchType = .domain

/-- An existing rule that ends the search of the candidate's line: the candidate's own pattern, or a domain above or
below. An address inside a domain of another organization is let through. -/
def stops (candidate existing : JoinRule) : Bool :=
  joinRulesOverlap candidate existing ∧
    (existing.patternNormalized = candidate.patternNormalized ∨ bothDomains existing candidate)

def nameOf (organizations : Table Organization) (organizationId : Nat) : String :=
  ((organizations.get? organizationId).map Organization.name).getD ""

/-- The checks of one candidate, against the batch and against the rules that were read. -/
def Batch.offer (organizations : Table Organization) (existing : List (Nat × JoinRule)) (line : Nat) (b : Batch)
    (candidate : JoinRule) : Batch :=
  if b.accepted.any fun r => r.patternNormalized = candidate.patternNormalized then b
  else match b.accepted.find? fun r => bothDomains r candidate && joinRulesOverlap candidate r with
    | some r =>
      b.reject
        { line := line
          pattern := candidate.pattern
          kind := .conflict
          message := "pattern overlaps another pattern in this batch"
          conflictPattern := r.pattern }
    | none =>
      match existing.find? fun r => stops candidate r.2 with
      | some (_, r) =>
        -- The organization has the rule already: no error, and nothing to write.
        if r.organizationId = candidate.organizationId ∧ r.patternNormalized = candidate.patternNormalized then b
        else
          b.reject
            { line := line
              pattern := candidate.pattern
              kind := .conflict
              message := "pattern conflicts with an existing join rule"
              organizationName := nameOf organizations r.organizationId }
      | none => { b with accepted := b.accepted ++ [candidate] }

def Config.readLine (config : Config) (organizations : Table Organization) (existing : List (Nat × JoinRule))
    (caller : Caller) (now : Int) (b : Batch) (line : Text × Nat) : Batch :=
  let pattern := trimSpace line.1
  if pattern = [] then b
  else match config.normalizeJoinRulePattern (joinRuleMatchTypeFor pattern) pattern with
    | .error e => b.reject { line := line.2, pattern := pattern, kind := .invalidPattern, message := e.message }
    | .ok normalized =>
      b.offer organizations existing line.2
        { organizationId := caller.organizationId
          matchType := joinRuleMatchTypeFor pattern
          pattern := pattern
          patternNormalized := normalized
          createdBy := caller.operatorUserId
          createdAt := now
          updatedAt := now }

def Config.readLines (config : Config) (organizations : Table Organization) (existing : List (Nat × JoinRule))
    (caller : Caller) (now : Int) (patterns : List Text) : Batch :=
  (patterns.zipIdx 1).foldl (config.readLine organizations existing caller now) {}

/-- The first rule of another organization that shares an address with an accepted one. -/
def sharedNotice (organizations : Table Organization) (existing : List (Nat × JoinRule)) (rule : JoinRule) :
    Option JoinRuleNotice :=
  (existing.find? fun r => r.2.organizationId ≠ rule.organizationId ∧ joinRulesOverlap rule r.2).map fun r =>
    { pattern := rule.pattern
      kind := if rule.matchType = .domain then .coversOtherOrganizationEntry else .coveredByOtherOrganization
      organizationName := nameOf organizations r.2.organizationId
      patternConflict := r.2.pattern }

def providerNotice (rule : JoinRule) : Option JoinRuleNotice :=
  if rule.matchType = .domain then
    (joinRulePublicMailboxProvider (joinRuleBase rule.patternNormalized)).map fun provider =>
      { pattern := rule.pattern, kind := .publicMailboxProvider, patternConflict := provider }
  else none

def joinRuleNotices (organizations : Table Organization) (existing : List (Nat × JoinRule)) (accepted : List JoinRule) :
    List JoinRuleNotice :=
  accepted.filterMap (sharedNotice organizations existing) ++ accepted.filterMap providerNotice

/-! ## The transactions -/

/-- A creation between its reads and its writes. It holds the lock of the organization row. -/
structure Creation where
  organizationId : Nat
  existing : List (Nat × JoinRule)
  accepted : List JoinRule
  notices : List JoinRuleNotice

structure JoinRuleTables where
  rules : Rules := .empty
  creations : List Creation := []

inductive JoinRuleError
  | invalidRequest
  | emailVerificationDisabled
  | tooManyPatterns
  | reasonRequired
  | organization (e : OrganizationError)
  | permissionDenied
  | waiting
  | lineErrors (errors : List JoinRuleLineError)
  | recordNotFound
  | duplicatedKey

def organizationJoinRuleMaxBatchSize : Nat := 500

def JoinRuleTables.locked (s : JoinRuleTables) (organizationId : Nat) : Bool :=
  s.creations.any fun c => c.organizationId = organizationId

/-- `lockedOrganizationManagementDecisionWithTx`, for the platform only. -/
def lockAsPlatform (s : JoinRuleTables) (organizations : State) (caller : Caller) : Except JoinRuleError Unit := do
  ensure (¬s.locked caller.organizationId) .waiting
  let (_, decision) ← (lockedOrganizationManagementDecision organizations caller .manageMembers).mapError .organization
  ensure decision.isPlatform .permissionDenied

/-- `CreateOrganizationJoinRules` up to its writes. A batch with a wrong line ends here, with nothing to write. -/
def readJoinRules (config : Config) (s : JoinRuleTables) (emailVerificationEnabled : Bool) (organizations : State)
    (caller : Caller) (req : CreateJoinRulesRequest) (now : Int) : Except JoinRuleError JoinRuleTables := do
  ensure (0 < caller.operatorUserId ∧ 0 < caller.organizationId) .invalidRequest
  ensure emailVerificationEnabled .emailVerificationDisabled
  ensure (req.patterns.length ≤ organizationJoinRuleMaxBatchSize) .tooManyPatterns
  ensure (trimSpace req.reason ≠ []) .reasonRequired
  lockAsPlatform s organizations caller
  let existing := s.rules.table.select fun _ => true
  let batch := config.readLines organizations.organizations existing caller now req.patterns
  ensure (batch.lineErrors = []) (.lineErrors batch.lineErrors)
  .ok { s with
    creations := s.creations ++
      [{ organizationId := caller.organizationId
         existing := existing
         accepted := batch.accepted
         notices := joinRuleNotices organizations.organizations existing batch.accepted }] }

/-- `tx.Create` of the accepted rules in order. -/
def insertRules (rules : Rules) : List JoinRule → Option Rules
  | [] => some rules
  | rule :: rest => (rules.insert rule).bind fun rules => insertRules rules rest

/-- The writes of the creation of an organization and its commit; a pattern taken meanwhile rolls all of them back. -/
def writeJoinRules (s : JoinRuleTables) (organizationId : Nat) : JoinRuleTables :=
  match s.creations.find? fun c => c.organizationId = organizationId with
  | none => s
  | some creation =>
    { rules := (insertRules s.rules creation.accepted).getD s.rules
      creations := s.creations.filter fun c => c.organizationId ≠ organizationId }

def deleteOrganizationJoinRule (s : JoinRuleTables) (organizations : State) (caller : Caller) (ruleId : Nat)
    (reason : Text) : Except JoinRuleError JoinRuleTables := do
  ensure (0 < caller.operatorUserId ∧ 0 < caller.organizationId ∧ 0 < ruleId) .invalidRequest
  ensure (trimSpace reason ≠ []) .reasonRequired
  lockAsPlatform s organizations caller
  match s.rules.table.get? ruleId with
  | none => .error .recordNotFound
  | some rule =>
    ensure (rule.organizationId = caller.organizationId) .recordNotFound
    .ok { s with rules := s.rules.delete ruleId }

end CubeRouter.Organization.JoinRules
