import CubeRouter.Lib.Index
import CubeRouter.Lib.Text

/-!
# Constraints on channels

A request comes with filters, and a channel serves it only when it passes them all. The two selectors apply them in two
ways: `ChannelSatisfiesFilters` to one channel, kind by kind, and `filterCandidateIDs` to the candidates of the cache,
which is done with them as soon as a kind leaves none. What both decide is `Passes`.

The settings of a channel are those that its texts parse to; a text that does not parse stands for no settings.
-/

namespace CubeRouter.Routing.Selection

open Relational Strings List

def handleThinkingBudgetModel (name leading wildcard : Text) : Text :=
  if hasPrefix name leading ∧ contains name (text "-thinking-") then wildcard else name

def formatMatchingModelName (name : Text) : Text :=
  let name :=
    if hasPrefix name (text "gemini-2.5-flash-lite") then
      handleThinkingBudgetModel name (text "gemini-2.5-flash-lite") (text "gemini-2.5-flash-lite-thinking-*")
    else if hasPrefix name (text "gemini-2.5-flash") then
      handleThinkingBudgetModel name (text "gemini-2.5-flash") (text "gemini-2.5-flash-thinking-*")
    else if hasPrefix name (text "gemini-2.5-pro") then
      handleThinkingBudgetModel name (text "gemini-2.5-pro") (text "gemini-2.5-pro-thinking-*")
    else name
  let name := if hasPrefix name (text "gpt-4-gizmo") then text "gpt-4-gizmo-*" else name
  if hasPrefix name (text "gpt-4o-gizmo") then text "gpt-4o-gizmo-*" else name

/-! ## Rows -/

structure AdvancedCustomRoute where
  incomingPath : Text
  models : List Text := []
  deriving DecidableEq

structure AdvancedCustomConfig where
  routes : List AdvancedCustomRoute
  deriving DecidableEq

/-- A row of `channels` with the nulls it is stored with. -/
structure Channel where
  type : Int := 0
  status : Int
  models : Text
  group : Text
  weight : Option Nat := none
  priority : Option Int := none
  taskPluginKey : Text := []
  advancedCustom : Option AdvancedCustomConfig := none
  deriving DecidableEq

def Channel.getPriority (c : Channel) : Int := c.priority.getD 0

def Channel.getWeight (c : Channel) : Nat := c.weight.getD 0

def channelTypeAdvancedCustom : Int := 58
def channelTypeTaskPlugin : Int := 62
def channelTypeStudioReview : Int := 65

/-! ## Routes of a custom channel -/

def advancedCustomModelPlaceholder : Text := text "\x7bmodel\x7d"
def advancedCustomModelRegexPrefix : Text := text "re:"

/-- What is taken from outside: whether a pattern compiles and matches a text. -/
structure Regexps where
  matchString : Text → Text → Bool

def matchAdvancedCustomIncomingPathTemplate (configuredPath requestPath : Text) : Bool :=
  if ¬contains configuredPath advancedCustomModelPlaceholder then configuredPath = requestPath
  else
    match split configuredPath advancedCustomModelPlaceholder with
    | [before, after] =>
      if ¬hasPrefix requestPath before ∨ ¬hasSuffix requestPath after then false
      else
        let model := trimSuffix (trimPrefix requestPath before) after
        model ≠ [] ∧ ¬contains model (text "/")
    | _ => false

def matchAdvancedCustomIncomingPath (configuredPath requestPath : Text) : Bool :=
  if matchAdvancedCustomIncomingPathTemplate configuredPath requestPath then true
  else if contains configuredPath (text ":generateContent") then
    matchAdvancedCustomIncomingPathTemplate
      (replaceFirst (text ":generateContent") (text ":streamGenerateContent") configuredPath) requestPath
  else false

namespace Regexps

def matchAdvancedCustomRouteModelRule (regexps : Regexps) (rule model : Text) : Bool :=
  if ¬hasPrefix rule advancedCustomModelRegexPrefix then rule = model
  else
    let pattern := trimPrefix rule advancedCustomModelRegexPrefix
    if pattern = [] then false else regexps.matchString pattern model

def normalizeAdvancedCustomRouteModels (models : List Text) : List Text :=
  (models.map trimSpace).filter fun model => model ≠ []

def matchAdvancedCustomRouteModel (regexps : Regexps) (models : List Text) (model : Text) : Bool :=
  let normalizedModels := normalizeAdvancedCustomRouteModels models
  if normalizedModels = [] then true
  else normalizedModels.any fun allowedModel => regexps.matchAdvancedCustomRouteModelRule allowedModel model

def matchPathForModel (regexps : Regexps) (c : AdvancedCustomConfig) (requestPath model : Text) :
    Option AdvancedCustomRoute :=
  let model := trimSpace model
  c.routes.find? fun route =>
    matchAdvancedCustomIncomingPath (trimSpace route.incomingPath) requestPath &&
      regexps.matchAdvancedCustomRouteModel route.models model

def supportsPathForModel (regexps : Regexps) (c : AdvancedCustomConfig) (requestPath model : Text) : Bool :=
  (regexps.matchPathForModel c requestPath model).isSome

end Regexps

/-! ## Filters -/

/-- The kinds with a constant, and a kind that has none. -/
inductive ChannelFilterKind
  | requestPath
  | taskPluginIdentity
  | studioCapacity
  | other (name : Text)
  deriving DecidableEq

structure ChannelFilter where
  kind : ChannelFilterKind
  requestPath : Text := []
  taskPluginKey : Text := []
  taskPluginChannelTypes : List Int := []
  studioChannelIDs : List Nat := []
  studioExecution : Bool := false

def filterEvalOrder : List ChannelFilterKind := [.studioCapacity, .requestPath, .taskPluginIdentity]

variable (regexps : Regexps)

def channelMatchesFilter (id : Nat) (ch : Channel) (modelName : Text) (filter : ChannelFilter) : Bool :=
  match filter.kind with
  | .studioCapacity => ch.type ≠ channelTypeStudioReview ∧ (filter.studioExecution ∨ id ∉ filter.studioChannelIDs)
  | .requestPath =>
    if filter.requestPath = [] then true
    else if ch.type ≠ channelTypeAdvancedCustom then true
    else ch.advancedCustom.any fun config => regexps.supportsPathForModel config filter.requestPath modelName
  | .taskPluginIdentity =>
    if ch.type = channelTypeTaskPlugin then filter.taskPluginKey ≠ [] ∧ ch.taskPluginKey = filter.taskPluginKey
    else filter.taskPluginKey = [] ∨ ch.type ∈ filter.taskPluginChannelTypes
  | .other _ => true

/-- The filters of each kind in turn, and the kind of the first that fails. -/
def channelSatisfiesFilters (id : Nat) (ch : Option Channel) (modelName : Text) (filters : List ChannelFilter) :
    Bool × Option ChannelFilterKind :=
  match ch with
  | none => (false, none)
  | some ch =>
    match filterEvalOrder.find? fun kind =>
        filters.any fun filter => filter.kind = kind && !channelMatchesFilter regexps id ch modelName filter with
    | some kind => (false, some kind)
    | none => (true, none)

def filtersByKind (filters : List ChannelFilter) (kind : ChannelFilterKind) : List ChannelFilter :=
  filters.filter fun filter => filter.kind = kind

def candidatePassesKindFilters (id : Nat) (ch : Option Channel) (modelName : Text) (kind : ChannelFilterKind)
    (filters : List ChannelFilter) : Bool :=
  match ch with
  | none => kind = .requestPath
  | some ch => filters.all fun filter => channelMatchesFilter regexps id ch modelName filter

/-- The loop of `filterCandidateIDs` from some kind on. -/
def filterKinds (channelsIDM : Nat → Option Channel) (modelName : Text) (filters : List ChannelFilter) :
    List ChannelFilterKind → List Nat → List Nat × Option ChannelFilterKind
  | [], kept => (kept, none)
  | kind :: kinds, kept =>
    let kindFilters := filtersByKind filters kind
    if kindFilters = [] then filterKinds channelsIDM modelName filters kinds kept
    else
      let next := kept.filter fun id =>
        candidatePassesKindFilters regexps id (channelsIDM id) modelName kind kindFilters
      if kept ≠ [] ∧ next = [] then (next, some kind)
      else filterKinds channelsIDM modelName filters kinds next

def filterCandidateIDs (channelsIDM : Nat → Option Channel) (ids : List Nat) (modelName : Text)
    (filters : List ChannelFilter) : List Nat × Option ChannelFilterKind :=
  if ids = [] then (ids, none) else filterKinds regexps channelsIDM modelName filters filterEvalOrder ids

/-! ## What the filters decide -/

/-- The channel passes every filter of the request. -/
def Passes (id : Nat) (ch : Channel) (modelName : Text) (filters : List ChannelFilter) : Prop :=
  ∀ filter ∈ filters, channelMatchesFilter regexps id ch modelName filter = true

instance (id : Nat) (ch : Channel) (modelName : Text) (filters : List ChannelFilter) :
    Decidable (Passes regexps id ch modelName filters) :=
  inferInstanceAs (Decidable (∀ filter ∈ filters, _))

variable {regexps} {id : Nat} {ch : Channel} {modelName : Text} {filters : List ChannelFilter}

theorem channelMatchesFilter_of_not_mem {filter : ChannelFilter} (h : filter.kind ∉ filterEvalOrder) :
    channelMatchesFilter regexps id ch modelName filter = true := by
  unfold channelMatchesFilter
  cases hkind : filter.kind with
  | other => rfl
  | _ => simp [hkind, filterEvalOrder] at h

/-- It is enough to look at the kinds that are evaluated. -/
theorem passes_iff_kinds : Passes regexps id ch modelName filters ↔
    ∀ kind ∈ filterEvalOrder, ∀ filter ∈ filters, filter.kind = kind →
      channelMatchesFilter regexps id ch modelName filter = true := by
  constructor
  · intro h kind _ filter hfilter _
    exact h filter hfilter
  · intro h filter hfilter
    by_cases hkind : filter.kind ∈ filterEvalOrder
    · exact h filter.kind hkind filter hfilter rfl
    · exact channelMatchesFilter_of_not_mem hkind

theorem channelSatisfiesFilters_iff : (channelSatisfiesFilters regexps id (some ch) modelName filters).1 = true ↔
      Passes regexps id ch modelName filters := by
  rw [passes_iff_kinds]
  unfold channelSatisfiesFilters
  dsimp only
  split
  · rename_i kind hkind
    have hmem := mem_of_find?_eq_some hkind
    have hfails := find?_some hkind
    refine iff_of_false (by simp) fun h => ?_
    obtain ⟨filter, hfilter, hboth⟩ := any_eq_true.mp hfails
    have hmatches := h kind hmem filter hfilter
    simp at hboth
    simp [hmatches hboth.1] at hboth
  · rename_i hnone
    refine iff_of_true rfl fun kind hkind filter hfilter hof => ?_
    have hkinds := find?_eq_none.mp hnone kind hkind
    simp only [any_eq_true, not_exists, not_and] at hkinds
    have hmatches := hkinds filter hfilter
    simpa [hof] using hmatches

theorem mem_filterKinds {channelsIDM : Nat → Option Channel} {kinds : List ChannelFilterKind} {kept : List Nat}
    (hkept : ∀ id ∈ kept, (channelsIDM id).isSome) :
    id ∈ (filterKinds regexps channelsIDM modelName filters kinds kept).1 ↔
      id ∈ kept ∧ ∀ ch, channelsIDM id = some ch → ∀ kind ∈ kinds, ∀ filter ∈ filters, filter.kind = kind →
        channelMatchesFilter regexps id ch modelName filter = true := by
  induction kinds generalizing kept with
  | nil => simp [filterKinds]
  | cons kind _ ih =>
    -- the filters of this kind, for a candidate that the cache knows
    have hpasses : ∀ i ∈ kept, (candidatePassesKindFilters regexps i (channelsIDM i) modelName kind
        (filtersByKind filters kind) = true ↔ ∀ ch, channelsIDM i = some ch → ∀ filter ∈ filters, filter.kind = kind →
          channelMatchesFilter regexps i ch modelName filter = true) := by
      intro i hi
      obtain ⟨c, hc⟩ := Option.isSome_iff_exists.mp (hkept i hi)
      simp only [candidatePassesKindFilters, filtersByKind, hc, all_eq_true, mem_filter, decide_eq_true_eq,
        and_imp, Option.some.injEq, forall_eq']
    unfold filterKinds
    dsimp only
    split_ifs with hnil hempty
    · rw [ih hkept]
      have hnone : ∀ filter ∈ filters, filter.kind ≠ kind := by simpa [filtersByKind] using hnil
      simp only [forall_mem_cons]
      refine and_congr_right fun _ => forall₂_congr fun c _ => ⟨fun h => ⟨?_, h⟩, And.right⟩
      intro filter hfilter hof
      exact absurd hof (hnone filter hfilter)
    · rw [hempty.2]
      refine iff_of_false not_mem_nil ?_
      rintro ⟨hid, h⟩
      have hnot := filter_eq_nil_iff.mp hempty.2 id hid
      refine hnot ((hpasses id hid).mpr fun c hc => ?_)
      exact h c hc kind mem_cons_self
    · rw [ih fun i hi => hkept i (mem_of_mem_filter hi), mem_filter, and_assoc]
      refine and_congr_right fun hid => ?_
      rw [hpasses id hid]
      simp only [forall_mem_cons]
      constructor
      · rintro ⟨hkind, hkinds⟩ c hc
        exact ⟨hkind c hc, hkinds c hc⟩
      · intro h
        exact ⟨fun c hc => (h c hc).1, fun c hc => (h c hc).2⟩

theorem mem_filterCandidateIDs {channelsIDM : Nat → Option Channel} {ids : List Nat}
    (hids : ∀ id ∈ ids, (channelsIDM id).isSome) :
    id ∈ (filterCandidateIDs regexps channelsIDM ids modelName filters).1 ↔
      id ∈ ids ∧ ∀ ch, channelsIDM id = some ch → Passes regexps id ch modelName filters := by
  unfold filterCandidateIDs
  split_ifs with hnil
  · simp [hnil]
  · simp [mem_filterKinds hids, passes_iff_kinds]

end CubeRouter.Routing.Selection
