import CubeRouter.Lib.Index
import CubeRouter.Lib.Run
import CubeRouter.Lib.Text
import Mathlib.Data.List.Sort

/-!
# Channels and their abilities

A channel serves the models it lists to the groups it lists. Routing does not read the lists: for each group and each
model of a channel there is a row in the table `abilities`, with the status, the priority, the weight and the tag of the
channel copied into it. `model/channel.go` and `model/ability.go` keep the copies up in four ways: the rows are made
again, their flag is set, some of their columns are set, or they are deleted with the channel.

The struct of a request and the row of the table are two types. In the struct a pointer that is `nil` or a field with
its zero value means that nothing was given: an insert then takes the default of the column, and an update leaves the
column alone.
-/

namespace CubeRouter.Routing

open Relational Strings Transition

/-! ## Rows -/

def channelStatusEnabled : Int := 1
def channelStatusManuallyDisabled : Int := 2
def channelStatusAutoDisabled : Int := 3

/-- A map with integer keys: at most one entry for a key. -/
abbrev IntMap (α : Type) := List (Nat × α)

def IntMap.set {α : Type} (m : IntMap α) (k : Nat) (a : α) : IntMap α := (k, a) :: m.filter fun e => e.1 ≠ k

def IntMap.delete {α : Type} (m : IntMap α) (k : Nat) : IntMap α := m.filter fun e => e.1 ≠ k

structure ChannelInfo where
  isMultiKey : Bool := false
  multiKeySize : Nat := 0
  multiKeyStatusList : IntMap Int := []
  multiKeyDisabledReason : IntMap String := []
  multiKeyDisabledTime : IntMap Int := []
  deriving DecidableEq

/-- The two entries of `other_info` that the status flow writes. -/
structure OtherInfo where
  statusReason : Option String := none
  statusTime : Option Int := none
  deriving DecidableEq

structure Channel where
  key : Text
  status : Int
  weight : Nat
  models : Text
  group : Text
  priority : Int
  tag : Option Text
  modelMapping : Option Text := none
  paramOverride : Option Text := none
  headerOverride : Option Text := none
  otherInfo : OtherInfo := {}
  channelInfo : ChannelInfo := {}
  deriving DecidableEq

/-- The struct that is inserted or updated. -/
structure ChannelFields where
  key : Text := []
  status : Int := 0
  weight : Option Nat := none
  models : Text := []
  group : Text := []
  priority : Option Int := none
  tag : Option Text := none
  modelMapping : Option Text := none
  paramOverride : Option Text := none
  headerOverride : Option Text := none
  otherInfo : OtherInfo := {}
  channelInfo : ChannelInfo := {}
  deriving DecidableEq

structure Ability where
  group : Text
  model : Text
  channelId : Nat
  enabled : Bool
  priority : Int
  weight : Nat
  tag : Option Text
  deriving DecidableEq

def Ability.key (a : Ability) : Text × Text × Nat := (a.group, a.model, a.channelId)

abbrev Abilities := Index Ability.key

structure Tables where
  channels : Table Channel := .empty
  abilities : Abilities := .empty

/-- `Create`, with the defaults of the columns. -/
def ChannelFields.row (f : ChannelFields) : Channel where
  key := f.key
  status := if f.status = 0 then channelStatusEnabled else f.status
  weight := f.weight.getD 0
  models := f.models
  group := if f.group = [] then text "default" else f.group
  priority := f.priority.getD 0
  tag := f.tag
  modelMapping := f.modelMapping
  paramOverride := f.paramOverride
  headerOverride := f.headerOverride
  otherInfo := f.otherInfo
  channelInfo := f.channelInfo

/-- `Updates` with a struct: only what is not zero is written. -/
def ChannelFields.updates (f : ChannelFields) (c : Channel) : Channel where
  key := if f.key = [] then c.key else f.key
  status := if f.status = 0 then c.status else f.status
  weight := f.weight.getD c.weight
  models := if f.models = [] then c.models else f.models
  group := if f.group = [] then c.group else f.group
  priority := f.priority.getD c.priority
  tag := f.tag <|> c.tag
  modelMapping := f.modelMapping <|> c.modelMapping
  paramOverride := f.paramOverride <|> c.paramOverride
  headerOverride := f.headerOverride <|> c.headerOverride
  otherInfo := if f.otherInfo = {} then c.otherInfo else f.otherInfo
  channelInfo := if f.channelInfo = {} then c.channelInfo else f.channelInfo

/-! ## The rows of a channel -/

def Channel.models_ (c : Channel) : List Text := c.models.splitOn ','

def Channel.groups_ (c : Channel) : List Text := c.group.splitOn ','

/-- What the loop takes for the same group and model. -/
def abilityKey (p : Text × Text) : Text := p.1 ++ text "|" ++ p.2

/-- The groups and models in the order of the loop. -/
def Channel.pairs (c : Channel) : List (Text × Text) :=
  c.models_.flatMap fun model => c.groups_.map fun group => (group, model)

/-- Each is taken unless one before it has its key. -/
def takeNew (taken : List (Text × Text)) (p : Text × Text) : List (Text × Text) :=
  if taken.any fun q => abilityKey q = abilityKey p then taken else taken ++ [p]

def Channel.newPairs (c : Channel) : List (Text × Text) := c.pairs.foldl takeNew []

def Channel.ability (id : Nat) (c : Channel) (p : Text × Text) : Ability where
  group := p.1
  model := p.2
  channelId := id
  enabled := c.status = channelStatusEnabled
  priority := c.priority
  weight := c.weight
  tag := c.tag

/-- The chunks of fifty rows make no difference. -/
def Channel.addAbilities (id : Nat) (c : Channel) (x : Abilities) : Abilities :=
  c.newPairs.foldl (fun x p => x.insertNew (c.ability id p)) x

def deleteAbilities (id : Nat) (x : Abilities) : Abilities := x.deleteWhere fun a => a.channelId = id

def Channel.updateAbilities (id : Nat) (c : Channel) (x : Abilities) : Abilities :=
  c.addAbilities id (deleteAbilities id x)

def updateAbilityStatus (id : Nat) (status : Bool) (x : Abilities) : Abilities :=
  x.updateWhere (fun a => a.channelId = id) (fun a => { a with enabled := status }) fun _ => rfl

def updateAbilityStatusByTag (tag : Text) (status : Bool) (x : Abilities) : Abilities :=
  x.updateWhere (fun a => a.tag = some tag) (fun a => { a with enabled := status }) fun _ => rfl

/-- The struct of an ability has a weight, not a pointer to one, and a weight of zero is not written. -/
def updateAbilityByTag (tag : Text) (newTag : Option Text) (priority : Option Int) (weight : Option Nat)
    (x : Abilities) : Abilities :=
  x.updateWhere (fun a => a.tag = some tag)
    (fun a =>
      { a with
        tag := newTag <|> a.tag
        priority := priority.getD a.priority
        weight := if weight.getD 0 = 0 then a.weight else weight.getD 0 })
    fun _ => rfl

/-! ## Keys of a channel -/

/-- What is taken from outside: `Unmarshal` of an array, by the texts of its elements. -/
structure Config where
  unmarshalArray : Text → Option (List Text)

def Config.keyArray (config : Config) (key : Text) : Option (List Text) :=
  let trimmed := trimSpace key
  if hasPrefix trimmed (text "[") then config.unmarshalArray trimmed else none

def Config.getKeys (config : Config) (key : Text) : List Text :=
  if key = [] then []
  else (config.keyArray key).getD ((trim key '\n').splitOn '\n')

/-- The keys as `Update` counts them: an empty array is read as a key. -/
def Config.countedKeys (config : Config) (key : Text) : List Text :=
  if key = [] then []
  else match config.keyArray key with
    | some (k :: keys) => k :: keys
    | some [] | none => (trim key '\n').splitOn '\n'

def hasEnabledMultiKey (keys : List Text) (statusList : IntMap Int) : Bool :=
  (List.range keys.length).any fun i => (statusList.lookup i).all fun status => status = channelStatusEnabled

def OtherInfo.withStatus (_ : OtherInfo) (reason : String) (now : Int) : OtherInfo := ⟨some reason, some now⟩

/-- The status of one key, and of the channel when it follows from that. -/
def Config.handlerMultiKeyUpdate (config : Config) (c : Channel) (usingKey : Text) (status : Int) (reason : String)
    (now : Int) : Channel :=
  let keys := config.getKeys c.key
  if keys = [] then { c with status := status }
  else
    match keys.findIdx? (· = usingKey) with
    | none =>
      if usingKey ≠ [] then c
      else { c with status := status, otherInfo := c.otherInfo.withStatus reason now }
    | some keyIndex =>
      let info := c.channelInfo
      let info :=
        if status = channelStatusEnabled then
          { info with multiKeyStatusList := IntMap.delete info.multiKeyStatusList keyIndex }
        else
          { info with
            multiKeyStatusList := IntMap.set info.multiKeyStatusList keyIndex status
            multiKeyDisabledReason := IntMap.set info.multiKeyDisabledReason keyIndex reason
            multiKeyDisabledTime := IntMap.set info.multiKeyDisabledTime keyIndex now }
      if ¬hasEnabledMultiKey keys info.multiKeyStatusList then
        { c with
          channelInfo := info
          status := channelStatusAutoDisabled
          otherInfo := c.otherInfo.withStatus "All keys are disabled" now }
      else if status = channelStatusEnabled then { c with channelInfo := info, status := channelStatusEnabled }
      else { c with channelInfo := info }

/-! ## The operations -/

def Tables.insert (s : Tables) (f : ChannelFields) : Tables where
  channels := s.channels.insert f.row
  abilities := f.row.addAbilities s.channels.next s.abilities

/-- One transaction for all. -/
def Tables.batchInsertChannels (s : Tables) (fields : List ChannelFields) : Tables := fields.foldl Tables.insert s

/-- The number of the keys and the statuses that are left when it has changed. -/
def Config.recount (config : Config) (s : Tables) (id : Nat) (f : ChannelFields) : ChannelFields :=
  if f.channelInfo.isMultiKey then
    let keyStr := if f.key ≠ [] then f.key else ((s.channels.get? id).map Channel.key).getD []
    let size := (config.countedKeys keyStr).length
    { f with
      channelInfo :=
        { f.channelInfo with
          multiKeySize := size
          multiKeyStatusList := f.channelInfo.multiKeyStatusList.filter fun e => e.1 < size } }
  else f

/-- The struct as `UpdateAbilities` takes it when it could not be read back. -/
def ChannelFields.unread (f : ChannelFields) : Channel where
  key := f.key
  status := f.status
  weight := f.weight.getD 0
  models := f.models
  group := f.group
  priority := f.priority.getD 0
  tag := f.tag

/-- The struct is read back after the update, and whether that fails is not looked at. An update without an id is
refused by the database. -/
def Tables.update (config : Config) (s : Tables) (id : Nat) (f : ChannelFields) : Tables :=
  if id = 0 then s
  else
    let f := config.recount s id f
    let channels := s.channels.modify id f.updates
    { channels := channels
      abilities := ((channels.get? id).getD f.unread).updateAbilities id s.abilities }

/-- What `UpdateChannelStatus` finds in the memory cache. -/
inductive MemoryCache
  | disabled
  | missing
  | found (isMultiKey : Bool) (status : Int)

/-- The cache says that there is nothing to do. -/
def MemoryCache.skips (status : Int) : MemoryCache → Bool
  | disabled => false
  | missing => true
  | found isMultiKey cached => ¬isMultiKey ∧ cached = status

def Config.withStatus (config : Config) (c : Channel) (usingKey : Text) (status : Int) (reason : String) (now : Int) :
    Channel :=
  if c.channelInfo.isMultiKey then config.handlerMultiKeyUpdate c usingKey status reason now
  else { c with otherInfo := c.otherInfo.withStatus reason now, status := status }

/-- The abilities are set by the status that was asked for, when the status of the channel has changed. -/
def Tables.updateChannelStatus (config : Config) (s : Tables) (cache : MemoryCache) (channelId : Nat) (usingKey : Text)
    (status : Int) (reason : String) (now : Int) : Tables :=
  if cache.skips status then s
  else match s.channels.get? channelId with
    | none => s
    | some c =>
      if c.status = status then s
      else
        let c' := config.withStatus c usingKey status reason now
        { channels := s.channels.modify channelId fun _ => c'
          abilities :=
            if c.status = c'.status then s.abilities
            else updateAbilityStatus channelId (status = channelStatusEnabled) s.abilities }

def Tables.setStatusByTag (status : Int) (enabled : Bool) (s : Tables) (tag : Text) : Tables where
  channels := s.channels.updateWhere (fun c => c.tag = some tag) fun c => { c with status := status }
  abilities := updateAbilityStatusByTag tag enabled s.abilities

def Tables.enableChannelByTag : Tables → Text → Tables := Tables.setStatusByTag channelStatusEnabled true

def Tables.disableChannelByTag : Tables → Text → Tables := Tables.setStatusByTag channelStatusManuallyDisabled false

/-- The arguments of `EditChannelByTag` after the tag; `none` is `nil`. -/
structure TagEdit where
  newTag : Option Text := none
  modelMapping : Option Text := none
  models : Option Text := none
  group : Option Text := none
  priority : Option Int := none
  weight : Option Nat := none
  paramOverride : Option Text := none
  headerOverride : Option Text := none

/-- What is given and not empty. -/
def given (value : Option Text) : Option Text := value.filter fun t => t ≠ []

def TagEdit.shouldReCreateAbilities (edit : TagEdit) : Bool := (given edit.models).isSome || (given edit.group).isSome

def TagEdit.updates (edit : TagEdit) (c : Channel) : Channel :=
  { c with
    tag := edit.newTag <|> c.tag
    modelMapping := edit.modelMapping <|> c.modelMapping
    models := (given edit.models).getD c.models
    group := (given edit.group).getD c.group
    priority := edit.priority.getD c.priority
    weight := edit.weight.getD c.weight
    paramOverride := edit.paramOverride <|> c.paramOverride
    headerOverride := edit.headerOverride <|> c.headerOverride }

/-- By descending priority, and for one priority by the id. -/
def getChannelsByTag (channels : Table Channel) (tag : Text) : List (Nat × Channel) :=
  (channels.select fun c => c.tag = some tag).insertionSort fun a b => b.2.priority ≤ a.2.priority

/-- The rows of a channel are made again, or some columns of all of them are set. -/
def Tables.editChannelByTag (s : Tables) (tag : Text) (edit : TagEdit) : Tables :=
  let channels := s.channels.updateWhere (fun c => c.tag = some tag) edit.updates
  let updatedTag := edit.newTag.getD tag
  { channels := channels
    abilities :=
      if edit.shouldReCreateAbilities then
        (getChannelsByTag channels updatedTag).foldl (fun x c => c.2.updateAbilities c.1 x) s.abilities
      else updateAbilityByTag tag edit.newTag edit.priority edit.weight s.abilities }

def Tables.delete (s : Tables) (id : Nat) : Tables where
  channels := s.channels.delete id
  abilities := deleteAbilities id s.abilities

def Tables.batchDeleteChannels (s : Tables) (ids : List Nat) : Tables where
  channels := ids.foldl Table.delete s.channels
  abilities := s.abilities.deleteWhere fun a => a.channelId ∈ ids

def Channel.isDisabled (c : Channel) : Bool :=
  c.status = channelStatusAutoDisabled ∨ c.status = channelStatusManuallyDisabled

/-- The abilities are not touched. -/
def Tables.deleteDisabledChannel (s : Tables) : Tables :=
  { s with channels := s.channels.deleteWhere Channel.isDisabled }

/-- The table is emptied, so the deletes before each chunk find nothing. -/
def Tables.fixAbility (s : Tables) : Tables :=
  { s with abilities := (s.channels.select fun _ => true).foldl (fun x c => c.2.addAbilities c.1 x) .empty }

end CubeRouter.Routing
