import CubeRouter.Lib.Run
import CubeRouter.Lib.Text
import Mathlib.Data.String.Basic
import Mathlib.Data.List.Infix
import Mathlib.Data.List.Sort
import Mathlib.Logic.Function.Basic

/-!
# Routing generations

`pkg/jsplugin/routing.go` compiles the effective plugins into a routing generation: indexes of the channel types, route
shapes, models and protocol endpoints, each of which one plugin may own. A plugin that claims what another owns makes
the build fail. `buildRoutingGenerationAdmitting` leaves such plugins out: it tries those that serve already, then
those that replace a serving one, then the new ones, and at last gives rejected keys back to the plugin that served
them.

A plugin is a pointer in the source: `id` tells two compilations of one text apart. Of the manifest only what routing
reads is kept, with what `normalizeV1Meta` has checked of the channel types. A map of plugins is a `Layer`, since every
map of the source has a plugin under its own key.
-/

namespace CubeRouter.Plugins

open Transition Strings List

/-! ## Manifests -/

def channelTypeTaskPlugin : Int := 62

structure Route where
  method : String
  path : String
  deriving DecidableEq

structure ProtocolClaim where
  name : String
  models : List String := []
  deriving DecidableEq

structure Meta where
  key : String
  channelTypes : List Int := []
  models : List String := []
  routes : List Route := []
  protocols : List ProtocolClaim := []
  deriving DecidableEq

structure LoadedPlugin where
  id : Nat
  manifest : Meta
  channelTypes : ∀ t ∈ manifest.channelTypes, 0 < t ∧ t ≠ channelTypeTaskPlugin := by decide
  deriving DecidableEq

def LoadedPlugin.key (p : LoadedPlugin) : String := p.manifest.key

structure HostProtocolOperation where
  name : String
  methods : List String
  path : String
  modelField : String := ""

structure HostProtocolDefinition where
  name : String
  operations : List HostProtocolOperation

def hostProtocols : List HostProtocolDefinition :=
  [{ name := "openai_responses"
     operations :=
      [{ name := "create", methods := ["POST"], path := "/v1/responses", modelField := "model" },
       { name := "retrieve", methods := ["GET"], path := "/v1/responses/:response_id" }] },
   { name := "openai_video"
     operations :=
      [{ name := "create", methods := ["POST"], path := "/v1/videos", modelField := "model" },
       { name := "retrieve", methods := ["GET"], path := "/v1/videos/:task_id" },
       { name := "content", methods := ["GET", "HEAD"], path := "/v1/videos/:task_id/content" }] }]

def hostProtocol (name : String) : Option HostProtocolDefinition := hostProtocols.find? fun d => d.name = name

/-! ## Route shapes -/

def isLetter (c : Char) : Bool := ('A' ≤ c ∧ c ≤ 'Z') ∨ ('a' ≤ c ∧ c ≤ 'z')

def isDigit (c : Char) : Bool := '0' ≤ c ∧ c ≤ '9'

def isPathName : Text → Bool
  | [] => false
  | c :: rest => (isLetter c || c = '_') && rest.all fun c => isLetter c || isDigit c || c = '_'

def isStaticSegment (s : Text) : Bool :=
  s ≠ [] && s.all fun c => isLetter c || isDigit c || c = '.' || c = '_' || c = '~' || c = '-'

inductive PathError
  | relative
  | reserved
  | query (path : Text)
  | emptySegment (path : Text)
  | dotSegment (path : Text)
  | parameter (path segment : Text)
  | repeated (path name : Text)
  | catchAll (path : Text)
  | static (path segment : Text)

/-- The verb `%q`. -/
def quote (s : Text) : String := (String.ofList s).quote

def PathError.text : PathError → String
  | relative => "plugin route path must start with /"
  | reserved => "plugin route path / is reserved"
  | query path => "plugin route path " ++ quote path ++ " must not contain a query, fragment, or percent-encoding"
  | emptySegment path => "plugin route path " ++ quote path ++ " must not contain empty segments"
  | dotSegment path => "plugin route path " ++ quote path ++ " must not contain dot segments"
  | parameter path segment => "plugin route path " ++ quote path ++ " has invalid parameter " ++ quote segment
  | repeated path name => "plugin route path " ++ quote path ++ " repeats parameter " ++ quote name
  | catchAll path => "plugin route path " ++ quote path ++ " has an invalid catch-all segment"
  | static path segment => "plugin route path " ++ quote path ++ " has invalid segment " ++ quote segment

/-- `strings.Split(strings.TrimPrefix(routePath, "/"), "/")`. -/
def segments (routePath : Text) : List Text := (trimPrefix routePath ['/']).splitOn '/'

/-- One turn of the loop over the segments: the parameter names seen so far. -/
def checkSegment (routePath : Text) (count : Nat) (seen : List Text) (index : Nat) (segment : Text) :
    Except PathError (List Text) := do
  if segment = [] ∧ index + 1 = count then return seen
  ensure (segment ≠ ['.'] ∧ segment ≠ ['.', '.']) (.dotSegment routePath)
  match segment with
  | ':' :: name =>
    ensure (isPathName name) (.parameter routePath segment)
    ensure (name ∉ seen) (.repeated routePath name)
    return name :: seen
  | '*' :: name =>
    ensure (index + 1 = count ∧ isPathName name) (.catchAll routePath)
    ensure (name ∉ seen) (.repeated routePath name)
    return name :: seen
  | segment =>
    ensure (isStaticSegment segment) (.static routePath segment)
    return seen

def normalizeRoutePath (routePath : Text) : Except PathError Text := do
  ensure (routePath.head? = some '/') .relative
  ensure (routePath ≠ ['/']) .reserved
  ensure (routePath.all fun c => c ≠ '?' ∧ c ≠ '#' ∧ c ≠ '%') (.query routePath)
  ensure (¬['/', '/'] <:+: routePath) (.emptySegment routePath)
  let parts := segments routePath
  let _ ← parts.zipIdx.foldlM (fun seen part => checkSegment routePath parts.length seen part.2 part.1) []
  return routePath

def segmentShape : Text → Text
  | ':' :: _ => [':']
  | '*' :: _ => ['*']
  | segment => segment

def routePathShape (routePath : Text) : Except PathError Text := do
  let normalized ← normalizeRoutePath routePath
  return '/' :: ['/'].intercalate ((segments normalized).map segmentShape)

/-! ## Maps of plugins -/

structure Layer where
  plugins : List LoadedPlugin
  nodup : (plugins.map LoadedPlugin.key).Nodup

namespace Layer

def empty : Layer := ⟨[], nodup_nil⟩

def get? (l : Layer) (key : String) : Option LoadedPlugin := l.plugins.find? fun p => p.key = key

def filter (l : Layer) (p : LoadedPlugin → Bool) : Layer :=
  ⟨l.plugins.filter p, l.nodup.sublist (filter_sublist.map _)⟩

def erase (l : Layer) (key : String) : Layer := l.filter fun p => p.key ≠ key

/-- `m[p.Meta.Key] = p`. -/
def insert (l : Layer) (p : LoadedPlugin) : Layer where
  plugins := (l.erase p.key).plugins ++ [p]
  nodup := by
    rw [map_append, nodup_append]
    refine ⟨(l.erase p.key).nodup, nodup_singleton _, fun key hkey other hother => ?_⟩
    rw [map_singleton, mem_singleton] at hother
    subst hother
    obtain ⟨q, hq, rfl⟩ := mem_map.mp hkey
    simpa using (mem_filter.mp hq).2

/-- `maps.Copy(l, m)`. -/
def copy (l m : Layer) : Layer := m.plugins.foldl insert l

def sorted (l : Layer) : List LoadedPlugin := l.plugins.insertionSort fun p q => p.key ≤ q.key

end Layer

/-! ## Indexes -/

structure RouteBinding where
  plugin : LoadedPlugin
  route : Route

structure ProtocolBinding where
  plugin : LoadedPlugin
  protocol : String
  operation : HostProtocolOperation
  model : String

structure RoutingGeneration where
  number : Nat
  byKey : String → Option LoadedPlugin := fun _ => none
  byModel : String → Option LoadedPlugin := fun _ => none
  canonicalModelByFold : String → Option String := fun _ => none
  byChannelType : Int → Option LoadedPlugin := fun _ => none
  routeIndex : Text → Option RouteBinding := fun _ => none
  protocolIndex : Text → List ProtocolBinding := fun _ => []
  plugins : List LoadedPlugin := []
  routes : List RouteBinding := []
  retainCurrent : List String := []

inductive RoutingConflict
  | model (key model other existing : String)
  | channelType (key : String) (channelType : Int) (other : String)
  | path (e : PathError)
  | route (key method path other otherPath : String)
  | protocol (key protocol method path model other : String)

def RoutingConflict.text : RoutingConflict → String
  | model key spelling other existing =>
    "plugin " ++ key ++ " model " ++ spelling.quote ++ " conflicts with plugin " ++ other ++ " model " ++ existing.quote
  | channelType key number other =>
    "plugin " ++ key ++ " channelType " ++ toString number ++ " conflicts with plugin " ++ other
  | path e => e.text
  | route key method declared other otherPath =>
    "plugin " ++ key ++ " route " ++ method ++ " " ++ declared ++ " conflicts with plugin " ++
      other ++ " route " ++ otherPath
  | protocol key name method endpoint spelling other =>
    "plugin " ++ key ++ " protocol " ++ name ++ " " ++ method ++ " " ++ endpoint ++ " model " ++ spelling.quote ++
      " conflicts with plugin " ++ other

def asciiFold (s : String) : String :=
  String.ofList (s.toList.map fun c => if 'A' ≤ c ∧ c ≤ 'Z' then Char.ofNat (c.toNat + 32) else c)

def endpointIndexKey (method path model : String) : Text := text method ++ '\x00' :: (text path ++ '\x00' :: text model)

def routeIndexKey (method : String) (shape : Text) : Text := text method ++ ' ' :: shape

/-- The turns of the innermost loop over the protocols of a plugin. -/
structure Endpoint where
  claim : ProtocolClaim
  operation : HostProtocolOperation
  method : String
  model : String

def Endpoint.indexKey (e : Endpoint) : Text := endpointIndexKey e.method e.operation.path e.model

def LoadedPlugin.boundModels (p : LoadedPlugin) (claim : ProtocolClaim) : List String :=
  if claim.models.length > 0 then claim.models else p.manifest.models

def LoadedPlugin.endpoints (p : LoadedPlugin) : List Endpoint :=
  p.manifest.protocols.flatMap fun claim =>
    (((hostProtocol claim.name).elim [] HostProtocolDefinition.operations).filter fun o => o.modelField ≠ "").flatMap
      fun operation => operation.methods.flatMap fun method =>
        (p.boundModels claim).map fun model =>
          { claim := claim, operation := operation, method := method, model := model }

namespace RoutingGeneration

def claimModel (p : LoadedPlugin) (g : RoutingGeneration) (model : String) :
    Except RoutingConflict RoutingGeneration :=
  let g := if (g.byModel model).isSome then g else { g with byModel := Function.update g.byModel model (some p) }
  match g.canonicalModelByFold (asciiFold model) with
  | some existing =>
    if existing ≠ model then
      throw (.model p.key model ((g.byModel existing).elim p.key LoadedPlugin.key) existing)
    else return g
  | none =>
    return { g with
      canonicalModelByFold := Function.update g.canonicalModelByFold (asciiFold model) (some model) }

def claimChannelType (p : LoadedPlugin) (g : RoutingGeneration) (channelType : Int) :
    Except RoutingConflict RoutingGeneration :=
  if channelType = 0 ∨ channelType = channelTypeTaskPlugin then return g
  else
    match g.byChannelType channelType with
    | some other => throw (.channelType p.key channelType other.key)
    | none => return { g with byChannelType := Function.update g.byChannelType channelType (some p) }

def claimRoute (p : LoadedPlugin) (g : RoutingGeneration) (route : Route) : Except RoutingConflict RoutingGeneration :=
  match routePathShape (text route.path) with
  | .error e => throw (.path e)
  | .ok shape =>
    match g.routeIndex (routeIndexKey route.method shape) with
    | some other => throw (.route p.key route.method route.path other.plugin.key other.route.path)
    | none =>
      let binding := { plugin := p, route := route }
      return { g with
        routeIndex := Function.update g.routeIndex (routeIndexKey route.method shape) (some binding)
        routes := g.routes ++ [binding] }

def claimEndpoint (p : LoadedPlugin) (g : RoutingGeneration) (e : Endpoint) :
    Except RoutingConflict RoutingGeneration :=
  let bindings := g.protocolIndex e.indexKey
  let bound := { g with
    protocolIndex := Function.update g.protocolIndex e.indexKey
      (bindings ++ [{ plugin := p, protocol := e.claim.name, operation := e.operation, model := e.model }]) }
  match bindings with
  | [] => return bound
  | other :: _ =>
    let legacyProviders := p.manifest.channelTypes ≠ [] ∧ other.plugin.manifest.channelTypes ≠ []
    if ¬legacyProviders ∨ e.claim.name ≠ other.protocol then
      throw (.protocol p.key e.claim.name e.method e.operation.path e.model other.plugin.key)
    else return bound

/-- One turn of the loop over the plugins. -/
def claimPlugin (g : RoutingGeneration) (p : LoadedPlugin) : Except RoutingConflict RoutingGeneration := do
  let g := { g with byKey := Function.update g.byKey p.key (some p), plugins := g.plugins ++ [p] }
  let g ← p.manifest.models.foldlM (claimModel p) g
  let g ← p.manifest.channelTypes.foldlM (claimChannelType p) g
  let g ← p.manifest.routes.foldlM (claimRoute p) g
  p.endpoints.foldlM (claimEndpoint p) g

end RoutingGeneration

def buildRoutingGenerationFromPlugins (effective : Layer) (number : Nat) : Except RoutingConflict RoutingGeneration :=
  effective.sorted.foldlM RoutingGeneration.claimPlugin { number := number }

def effectivePlugins (factory override : Layer) (overrideEnabled : Bool) : Layer :=
  let effective := Layer.empty.copy factory
  if overrideEnabled then effective.copy override else effective

def buildRoutingGeneration (factory override : Layer) (overrideEnabled : Bool) (number : Nat) :
    Except RoutingConflict RoutingGeneration :=
  buildRoutingGenerationFromPlugins (effectivePlugins factory override overrideEnabled) number

/-! ## Admission -/

/-- What the loops of `buildRoutingGenerationAdmitting` carry. -/
structure Admission where
  accepted : Layer := .empty
  generation : RoutingGeneration
  routingErrors : List (String × String) := []
  rejected : List LoadedPlugin := []

/-- One turn of the first loop. -/
def Admission.attempt (number : Nat) (a : Admission) (candidate : LoadedPlugin) : Admission :=
  match buildRoutingGenerationFromPlugins (a.accepted.insert candidate) number with
  | .ok trial => { a with accepted := a.accepted.insert candidate, generation := trial }
  | .error e =>
    { a with
      accepted := (a.accepted.insert candidate).erase candidate.key
      routingErrors := a.routingErrors ++
        [(candidate.key, "plugin " ++ candidate.key ++ " rejected from routing generation: " ++ e.text)]
      rejected := a.rejected ++ [candidate] }

/-- One turn of the second loop. -/
def Admission.fallback (number : Nat) (currentByKey : String → Option LoadedPlugin) (retainCurrent : List String)
    (a : Admission) (candidate : LoadedPlugin) : Admission :=
  match currentByKey candidate.key with
  | none => a
  | some incumbent =>
    if candidate.key ∉ retainCurrent ∨ incumbent = candidate then a
    else
      match buildRoutingGenerationFromPlugins (a.accepted.insert incumbent) number with
      | .ok fallback => { a with accepted := a.accepted.insert incumbent, generation := fallback }
      | .error _ => { a with accepted := (a.accepted.insert incumbent).erase candidate.key }

def currentByKey (current : Option RoutingGeneration) (key : String) : Option LoadedPlugin :=
  (current.elim [] RoutingGeneration.plugins).reverse.find? fun p => p.key = key

/-- The candidates in the order they are tried. -/
def orderedCandidates (candidates : Layer) (current : Option RoutingGeneration) : List LoadedPlugin :=
  let unchanged := candidates.filter fun c => currentByKey current c.key = some c
  let changed := candidates.filter fun c => (currentByKey current c.key).any fun incumbent => incumbent ≠ c
  let new := candidates.filter fun c => (currentByKey current c.key).isNone
  unchanged.sorted ++ changed.sorted ++ new.sorted

def buildRoutingGenerationAdmitting (factory override : Layer) (overrideEnabled : Bool) (number : Nat)
    (current : Option RoutingGeneration) (retainCurrent : List String) :
    Except RoutingConflict (RoutingGeneration × List (String × String)) := do
  let candidates := effectivePlugins factory override overrideEnabled
  let generation ← buildRoutingGenerationFromPlugins .empty number
  let first := (orderedCandidates candidates current).foldl (Admission.attempt number) { generation := generation }
  let last := first.rejected.foldl (Admission.fallback number (currentByKey current) retainCurrent) first
  return ({ last.generation with retainCurrent := retainCurrent }, last.routingErrors)

/-- Plugins are not nil. -/
def preflightRoutingConflict (current : Option RoutingGeneration) (candidate : LoadedPlugin) :
    Except RoutingConflict RoutingGeneration :=
  let effective := (current.elim [] RoutingGeneration.plugins).foldl Layer.insert .empty
  buildRoutingGenerationFromPlugins (effective.insert candidate) (current.elim 0 RoutingGeneration.number)

end CubeRouter.Plugins
