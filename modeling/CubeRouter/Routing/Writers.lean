import CubeRouter.Routing.GroupMap
import CubeRouter.Routing.Projection

/-!
# Writers and rebuilds of the channel cache

`InitChannelCache` reads all channels and then all abilities, and builds the group map from the two. Between the reads,
and around them, other requests and instances write the two tables: an operation of `model/channel.go` or
`model/ability.go` is a `Writer` in the pool from its first statement to its last, and each of its statements is a step.
A transaction is one step. A writer whose process stops stays in the pool and is not picked again.

The struct of `Update` is the one after the keys have been counted again, which no ability depends on.
-/

namespace CubeRouter.Routing

open Relational Strings Transition

/-! ## The rebuild -/

/-- The groups of the abilities, whatever their flag. -/
def Abilities.groups (x : Abilities) : List Text := (x.table.select fun _ => true).map fun a => a.2.group

/-- The enabled channels among those that were read. -/
def members (channels : List (Nat × Channel)) : List Member :=
  (channels.filter fun c => c.2.status = channelStatusEnabled).map fun c =>
    { id := c.1, groups := c.2.groups_, models := c.2.models_ }

/-- `InitChannelCache` from its second read on. -/
def initChannelCache (channels : List (Nat × Channel)) (abilities : Abilities) : Except CachePanic GroupMap :=
  buildGroups abilities.groups (members channels)

/-! ## Writers -/

/-- An operation before its next statement. -/
inductive Writer
  | addAbilities (id : Nat) (c : Channel) (rest : List (Text × Text))
  | readBack (id : Nat) (f : ChannelFields)
  | updateAbilities (id : Nat) (c : Channel)
  | deleteAbilities (id : Nat)
  | updateStatusByTag (tag : Text) (status : Bool)
  | getChannelsByTag (updatedTag : Text)
  | updateTagged (channels : List (Nat × Channel))
  | updateAbilityByTag (tag : Text) (newTag : Option Text) (priority : Option Int) (weight : Option Nat)
  | findChannels
  | deleteChunk (channels : List (Nat × Channel))
  | addChunk (chunk : List (Nat × Channel × List (Text × Text))) (channels : List (Nat × Channel))
  deriving DecidableEq

/-- One `INSERT` of `AddAbilities`. -/
def addRows (id : Nat) (c : Channel) (pairs : List (Text × Text)) (x : Abilities) : Abilities :=
  pairs.foldl (fun x p => x.insertNew (c.ability id p)) x

/-- The chunks of `lo.Chunk`. -/
def chunkSize : Nat := 50

/-- The next statement and what is left of the operation. -/
def Writer.advance (s : Tables) : Writer → Tables × Option Writer
  | .addAbilities id c rest =>
    ({ s with abilities := addRows id c (rest.take chunkSize) s.abilities },
      if rest.drop chunkSize = [] then none else some (.addAbilities id c (rest.drop chunkSize)))
  | .readBack id f => (s, some (.updateAbilities id ((s.channels.get? id).getD f.unread)))
  | .updateAbilities id c => ({ s with abilities := c.updateAbilities id s.abilities }, none)
  | .deleteAbilities id => ({ s with abilities := Routing.deleteAbilities id s.abilities }, none)
  | .updateStatusByTag tag status => ({ s with abilities := updateAbilityStatusByTag tag status s.abilities }, none)
  | .getChannelsByTag updatedTag => (s, some (.updateTagged (Routing.getChannelsByTag s.channels updatedTag)))
  | .updateTagged [] => (s, none)
  | .updateTagged ((id, c) :: channels) =>
    ({ s with abilities := c.updateAbilities id s.abilities }, some (.updateTagged channels))
  | .updateAbilityByTag tag newTag priority weight =>
    ({ s with abilities := Routing.updateAbilityByTag tag newTag priority weight s.abilities }, none)
  | .findChannels => (s, some (.deleteChunk (s.channels.select fun _ => true)))
  | .deleteChunk channels =>
    if channels = [] then (s, none)
    else
      let chunk := channels.take chunkSize
      ({ s with abilities := s.abilities.deleteWhere fun a => a.channelId ∈ chunk.map Prod.fst },
        some (.addChunk (chunk.map fun c => (c.1, c.2, c.2.newPairs)) (channels.drop chunkSize)))
  | .addChunk [] channels => (s, some (.deleteChunk channels))
  | .addChunk ((id, c, rest) :: chunk) channels =>
    ({ s with abilities := addRows id c (rest.take chunkSize) s.abilities },
      some (.addChunk (if rest.drop chunkSize = [] then chunk else (id, c, rest.drop chunkSize) :: chunk) channels))

/-! ## The database with its writers -/

structure Site where
  tables : Tables := {}
  writers : List Writer := []
  /-- The channels that each rebuild has read which has not read the abilities yet. -/
  rebuilds : List (List (Nat × Channel)) := []

inductive Statement
  | insert (f : ChannelFields)
  | batchInsertChannels (fields : List ChannelFields)
  | update (id : Nat) (f : ChannelFields)
  | delete (id : Nat)
  | batchDeleteChannels (ids : List Nat)
  | deleteDisabledChannel
  | enableChannelByTag (tag : Text)
  | disableChannelByTag (tag : Text)
  | editChannelByTag (tag : Text) (edit : TagEdit)
  | fixAbility
  | advance (i : Nat)
  | readChannels
  | readAbilities (i : Nat)

namespace Site

/-- The first statement of an operation that goes on as `w`. -/
def start (s : Site) (tables : Tables) (w : Writer) : Site := { s with tables := tables, writers := s.writers ++ [w] }

def setStatusByTag (s : Site) (tag : Text) (status : Int) (enabled : Bool) : Site :=
  s.start
    { s.tables with
      channels := s.tables.channels.updateWhere (fun c => c.tag = some tag) fun c => { c with status := status } }
    (.updateStatusByTag tag enabled)

/-- A delete or an update without an id is refused by the database. -/
def step (s : Site) : Statement → Site
  | .insert f =>
    s.start { s.tables with channels := s.tables.channels.insert f.row }
      (.addAbilities s.tables.channels.next f.row f.row.newPairs)
  | .batchInsertChannels fields => { s with tables := s.tables.batchInsertChannels fields }
  | .update id f =>
    if id = 0 then s
    else s.start { s.tables with channels := s.tables.channels.modify id f.updates } (.readBack id f)
  | .delete id =>
    if id = 0 then s
    else s.start { s.tables with channels := s.tables.channels.delete id } (.deleteAbilities id)
  | .batchDeleteChannels ids => { s with tables := s.tables.batchDeleteChannels ids }
  | .deleteDisabledChannel => { s with tables := s.tables.deleteDisabledChannel }
  | .enableChannelByTag tag => s.setStatusByTag tag channelStatusEnabled true
  | .disableChannelByTag tag => s.setStatusByTag tag channelStatusManuallyDisabled false
  | .editChannelByTag tag edit =>
    s.start
      { s.tables with channels := s.tables.channels.updateWhere (fun c => c.tag = some tag) edit.updates }
      (if edit.shouldReCreateAbilities then .getChannelsByTag (edit.newTag.getD tag)
        else .updateAbilityByTag tag edit.newTag edit.priority edit.weight)
  | .fixAbility => s.start { s.tables with abilities := .empty } .findChannels
  | .advance i =>
    match s.writers[i]? with
    | none => s
    | some w =>
      { s with tables := (w.advance s.tables).1, writers := s.writers.eraseIdx i ++ (w.advance s.tables).2.toList }
  | .readChannels => { s with rebuilds := s.rebuilds ++ [s.tables.channels.select fun _ => true] }
  | .readAbilities i => { s with rebuilds := s.rebuilds.eraseIdx i }

/-- A rebuild that goes on with its second read does not panic. -/
def Rebuilds (s : Site) : Statement → Prop
  | .readAbilities i => ∀ channels, s.rebuilds[i]? = some channels →
      ∃ m, initChannelCache channels s.tables.abilities = .ok m
  | _ => True

end Site

end CubeRouter.Routing
