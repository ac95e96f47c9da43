import CubeRouter.Quota.Reserve
import Mathlib.Data.List.AList

/-!
# Batch accounting

With batch updates on, eight counters of the database (`model/utils.go`) are changed through maps in the
memory of the process: `addNewRecord` adds to a map, and a round of `batchUpdate` takes the maps out, one
lock after the other, and writes what they hold to the database, entry by entry. An entry that the database
refuses is queued again. Any number of records and rounds run at the same time: a critical section of a map and
a statement of the database are one step.

Conserved is the column plus the buffered value plus what the running rounds hold, for every counter and row
(`total_of_run`).
-/

namespace CubeRouter.Quota.Batch

open Pool Transition List Option Function

/-! ## The database -/

inductive BatchUpdateType where
  | userQuota
  | tokenQuota
  | usedQuota
  | channelUsedQuota
  | requestCount
  | totalPromptTokens
  | totalCompletionTokens
  | totalCacheTokens
deriving DecidableEq

/-- `for i := 0; i < BatchUpdateTypeCount; i++`. -/
def batchUpdateTypes : List BatchUpdateType :=
  [.userQuota, .tokenQuota, .usedQuota, .channelUsedQuota, .requestCount, .totalPromptTokens,
    .totalCompletionTokens, .totalCacheTokens]

/-- The types that the first loop over the stores leaves to the `UPDATE` of the user. -/
def BatchUpdateType.Combined (t : BatchUpdateType) : Prop :=
  t = .userQuota ∨ t = .usedQuota ∨ t = .requestCount

instance (t : BatchUpdateType) : Decidable t.Combined :=
  inferInstanceAs (Decidable (t = .userQuota ∨ t = .usedQuota ∨ t = .requestCount))

structure User where
  quota : Int
  usedQuota : Int
  requestCount : Int
  totalPromptTokens : Int
  totalCompletionTokens : Int
  totalCacheTokens : Int

structure Token where
  remainQuota : Int
  usedQuota : Int

structure Channel where
  usedQuota : Int

/-- The rows that a `WHERE id = ?` finds. -/
structure Database where
  users : Int → Option User
  tokens : Int → Option Token
  channels : Int → Option Channel

/-- The column that a counter is written to. -/
def Database.column (db : Database) (t : BatchUpdateType) (id : Int) : Option Int :=
  match t with
  | .userQuota => (db.users id).map (·.quota)
  | .tokenQuota => (db.tokens id).map (·.remainQuota)
  | .usedQuota => (db.users id).map (·.usedQuota)
  | .channelUsedQuota => (db.channels id).map (·.usedQuota)
  | .requestCount => (db.users id).map (·.requestCount)
  | .totalPromptTokens => (db.users id).map (·.totalPromptTokens)
  | .totalCompletionTokens => (db.users id).map (·.totalCompletionTokens)
  | .totalCacheTokens => (db.users id).map (·.totalCacheTokens)

/-- `UPDATE … WHERE id = ?`, which is no error when there is no such row. -/
def update {ρ : Type} (rows : Int → Option ρ) (id : Int) (g : ρ → ρ) : Int → Option ρ :=
  Function.update rows id ((rows id).map g)

/-! The writes of a round. `ok` says whether the database answers; `none` is an error. -/

def increaseTokenQuota (db : Database) (ok : Bool) (id quota : Int) : Option Database :=
  if ok then
    some { db with tokens := update db.tokens id fun token =>
      { token with remainQuota := token.remainQuota + quota, usedQuota := token.usedQuota - quota } }
  else
    none

def updateChannelUsedQuota (db : Database) (ok : Bool) (id quota : Int) : Option Database :=
  if ok then
    some { db with channels := update db.channels id fun channel =>
      { channel with usedQuota := channel.usedQuota + quota } }
  else
    none

def updateUser (db : Database) (ok : Bool) (id : Int) (g : User → User) : Option Database :=
  if ok then some { db with users := update db.users id g } else none

def updateUserTotalPromptTokens (db : Database) (ok : Bool) (id tokens : Int) : Option Database :=
  updateUser db ok id fun user => { user with totalPromptTokens := user.totalPromptTokens + tokens }

def updateUserTotalCompletionTokens (db : Database) (ok : Bool) (id tokens : Int) : Option Database :=
  updateUser db ok id fun user => { user with totalCompletionTokens := user.totalCompletionTokens + tokens }

def updateUserTotalCacheTokens (db : Database) (ok : Bool) (id tokens : Int) : Option Database :=
  updateUser db ok id fun user => { user with totalCacheTokens := user.totalCacheTokens + tokens }

def updateUserQuotaUsedQuotaAndRequestCount (db : Database) (ok : Bool) (id quota usedQuota requestCount : Int) :
    Option Database :=
  if quota = 0 ∧ usedQuota = 0 ∧ requestCount = 0 then
    some db
  else
    updateUser db ok id fun user =>
      { user with
        quota := user.quota + quota
        usedQuota := user.usedQuota + usedQuota
        requestCount := user.requestCount + requestCount }

/-- The `switch` of the first loop; a type without a case is no error. -/
def write (db : Database) (ok : Bool) (t : BatchUpdateType) (id value : Int) : Option Database :=
  match t with
  | .tokenQuota => increaseTokenQuota db ok id value
  | .channelUsedQuota => updateChannelUsedQuota db ok id value
  | .totalPromptTokens => updateUserTotalPromptTokens db ok id value
  | .totalCompletionTokens => updateUserTotalCompletionTokens db ok id value
  | .totalCacheTokens => updateUserTotalCacheTokens db ok id value
  | .userQuota | .usedQuota | .requestCount => some db

/-! ## The buffers -/

/-- A `map[int]int`. -/
abbrev Store := AList (fun _ : Int => Int64)

/-- `store[id]`, which is `0` for a key that is not there. -/
def Store.get (store : Store) (id : Int) : Int64 := (store.lookup id).getD 0

/-- The critical section of `addNewRecord`. -/
def Store.addNewRecord (store : Store) (id : Int) (value : Int64) : Store :=
  match store.lookup id with
  | none => store.insert id value
  | some old => store.insert id (Quota.addNewRecord old value)

/-- The arguments of a call of `addNewRecord`. -/
structure Record where
  type_ : BatchUpdateType
  id : Int
  value : Int64

/-- The database and `batchUpdateStores`. -/
structure Counters where
  db : Database
  stores : BatchUpdateType → Store

def Counters.addNewRecord (c : Counters) (r : Record) : Counters :=
  { c with stores := Function.update c.stores r.type_ ((c.stores r.type_).addNewRecord r.id r.value) }

/-! ## A round -/

/-- Where a round stands: in the loop that looks for data, in the loop that takes the maps out, in the loop
over the taken maps, or in the loop over `userIDs`. -/
inductive Phase where
  | checking (rest : List BatchUpdateType)
  | swapping (rest : List BatchUpdateType)
  | writing (rest : List BatchUpdateType)
  | users

/-- A running `batchUpdate`: its `stores` less the entries it has dealt with, and the records it is about
to queue again. -/
structure Round where
  stores : BatchUpdateType → Store
  phase : Phase
  retry : List Record

def Round.begin : Round := { stores := fun _ => ∅, phase := .checking batchUpdateTypes, retry := [] }

/-- The entries of `key` are dealt with, but for the records to queue again. -/
def Round.visited (round : Round) (types : List BatchUpdateType) (key : Int) (retry : List Record) : Round :=
  { round with
    stores := fun t => if t ∈ types then (round.stores t).erase key else round.stores t
    retry := retry }

/-- One entry of the first loop over the taken maps. -/
def Round.writeEntry (round : Round) (c : Counters) (t : BatchUpdateType) (key : Int) (value : Int64)
    (ok : Bool) : Counters × Round :=
  match write c.db ok t key value.toInt with
  | some db => ({ c with db := db }, round.visited [t] key [])
  | none => (c, round.visited [t] key [⟨t, key, value⟩])

/-- One key of `userIDs`: the three values are queued again one by one, without the zeros. -/
def Round.writeUser (round : Round) (c : Counters) (key : Int) (ok : Bool) : Counters × Round :=
  let quota := (round.stores .userQuota).get key
  let usedQuota := (round.stores .usedQuota).get key
  let requestCount := (round.stores .requestCount).get key
  let types := [.userQuota, .usedQuota, .requestCount]
  match updateUserQuotaUsedQuotaAndRequestCount c.db ok key quota.toInt usedQuota.toInt
      requestCount.toInt with
  | some db => ({ c with db := db }, round.visited types key [])
  | none =>
    let records : List Record :=
      [⟨.userQuota, key, quota⟩, ⟨.usedQuota, key, usedQuota⟩, ⟨.requestCount, key, requestCount⟩]
    (c, round.visited types key (records.filter fun r => r.value ≠ 0))

/-- The next step of a round, and what is left of it. A loop over a map takes its keys in any order: `key`
is the one that comes next, and a key that is not in the map is no step. -/
def Round.step (round : Round) (c : Counters) (key : Int) (ok : Bool) : Counters × List Round :=
  match round.retry with
  | r :: rest => (c.addNewRecord r, [{ round with retry := rest }])
  | [] =>
    match round.phase with
    | .checking [] => (c, [])
    | .checking (t :: rest) =>
      if (c.stores t).keys = [] then (c, [{ round with phase := .checking rest }])
      else (c, [{ round with phase := .swapping batchUpdateTypes }])
    | .swapping [] => (c, [{ round with phase := .writing batchUpdateTypes }])
    | .swapping (t :: rest) =>
      ({ c with stores := Function.update c.stores t ∅ },
        [{ round with stores := Function.update round.stores t (c.stores t), phase := .swapping rest }])
    | .writing [] => (c, [{ round with phase := .users }])
    | .writing (t :: rest) =>
      if t.Combined ∨ (round.stores t).keys = [] then
        (c, [{ round with phase := .writing rest }])
      else
        match (round.stores t).lookup key with
        | none => (c, [round])
        | some value =>
          let (c, round) := round.writeEntry c t key value ok
          (c, [round])
    | .users =>
      if ∀ t ∈ [BatchUpdateType.userQuota, .usedQuota, .requestCount], (round.stores t).keys = [] then
        (c, [])
      else if ∀ t ∈ [BatchUpdateType.userQuota, .usedQuota, .requestCount],
          key ∉ (round.stores t).keys then
        (c, [round])
      else
        let (c, round) := round.writeUser c key ok
        (c, [round])

/-! ## Runs -/

structure State where
  counters : Counters
  rounds : List Round

/-- What can happen next: a record, a round that begins, or the next step of the `i`-th running round. -/
inductive Event where
  | addNewRecord (r : Record)
  | batchUpdate
  | advance (i : Nat) (key : Int) (ok : Bool)

def step (s : State) : Event → State
  | .addNewRecord r => { s with counters := s.counters.addNewRecord r }
  | .batchUpdate => { s with rounds := s.rounds ++ [Round.begin] }
  | .advance i key ok =>
    match s.rounds[i]? with
    | none => s
    | some round =>
      let (counters, next) := round.step s.counters key ok
      { counters := counters, rounds := s.rounds.eraseIdx i ++ next }

/-- The state `init` leaves: empty maps and no round. -/
def State.init (db : Database) : State := { counters := { db := db, stores := fun _ => ∅ }, rounds := [] }

/-! ## What is conserved -/

/-- What a record adds to the counter `t` of the row `id`. -/
def Record.amount (r : Record) (t : BatchUpdateType) (id : Int) : Int :=
  if r.type_ = t ∧ r.id = id then r.value.toInt else 0

def Counters.buffered (c : Counters) (t : BatchUpdateType) (id : Int) : Int := ((c.stores t).get id).toInt

/-- What a round holds of a counter: the entry it has taken and the records it will queue again. -/
def Round.held (t : BatchUpdateType) (id : Int) (round : Round) : Int :=
  ((round.stores t).get id).toInt + weight (·.amount t id) round.retry

def State.held (s : State) (t : BatchUpdateType) (id : Int) : Int := weight (Round.held t id) s.rounds

/-- What an event records for the counter `t` of the row `id`. -/
def Event.recorded (t : BatchUpdateType) (id : Int) : Event → Int
  | .addNewRecord r => r.amount t id
  | .batchUpdate => 0
  | .advance .. => 0

/-- The sum that `addNewRecord` makes of the entry and the value is an `int`. -/
def Record.Fits (c : Counters) (r : Record) : Prop :=
  -2 ^ 63 ≤ ((c.stores r.type_).get r.id).toInt + r.value.toInt ∧
    ((c.stores r.type_).get r.id).toInt + r.value.toInt < 2 ^ 63

/-- The sum that an event makes, if it makes one, is an `int`. -/
def Fits (s : State) : Event → Prop
  | .addNewRecord r => r.Fits s.counters
  | .batchUpdate => True
  | .advance i _ _ => ∀ round ∈ s.rounds[i]?, ∀ r ∈ round.retry.head?, r.Fits s.counters

/-! ### The maps -/

theorem Store.get_empty (id : Int) : Store.get ∅ id = 0 := by
  rw [Store.get, AList.lookup_empty, getD_none]

theorem Store.get_insert (store : Store) (key id : Int) (value : Int64) :
    Store.get (store.insert key value) id = if id = key then value else store.get id := by
  split_ifs with h
  · rw [h, Store.get, AList.lookup_insert, getD_some]
  · rw [Store.get, AList.lookup_insert_ne h, Store.get]

theorem Store.get_erase (store : Store) (key id : Int) :
    Store.get (store.erase key) id = if id = key then 0 else store.get id := by
  split_ifs with h
  · rw [h, Store.get, AList.lookup_erase, getD_none]
  · rw [Store.get, AList.lookup_erase_ne h, Store.get]

variable {store : Store} {value : Int64} {key : Int} {c : Counters} {db db' : Database} {ok : Bool} {round : Round}
  {id : Int} {d : BatchUpdateType → Int} {t : BatchUpdateType} {s : State}

theorem Store.get_of_lookup (h : store.lookup id = some value) : store.get id = value := by
  rw [Store.get, h, getD_some]

theorem Store.get_of_keys_nil (h : store.keys = []) (id : Int) : store.get id = 0 := by
  have hmem : id ∉ store := by
    intro hid
    have hkeys : id ∈ store.keys := AList.mem_keys.mp hid
    rw [h] at hkeys
    exact not_mem_nil hkeys
  rw [Store.get, AList.lookup_eq_none.mpr hmem, getD_none]

theorem Store.get_addNewRecord (hle : -2 ^ 63 ≤ (store.get key).toInt + value.toInt)
    (hlt : (store.get key).toInt + value.toInt < 2 ^ 63) : ((store.addNewRecord key value).get id).toInt
      = (store.get id).toInt + if key = id then value.toInt else 0 := by
  by_cases hid : key = id
  · subst hid
    rw [if_pos rfl]
    cases hlookup : store.lookup key with
    | none =>
      have hold : store.get key = 0 := by rw [Store.get, hlookup, getD_none]
      rw [Store.addNewRecord, hlookup, Store.get_insert, if_pos rfl, hold, Int64.toInt_zero, zero_add]
    | some =>
      rw [Store.get_of_lookup hlookup] at hle hlt ⊢
      rw [Store.addNewRecord, hlookup, Store.get_insert, if_pos rfl, addNewRecord_toInt]
      omega
  · have hne : ¬id = key := fun h => hid h.symm
    rw [if_neg hid, add_zero, Store.addNewRecord]
    split <;> rw [Store.get_insert, if_neg hne]

theorem Counters.buffered_addNewRecord {r : Record} (hfits : r.Fits c) (t : BatchUpdateType) (id : Int) :
    (c.addNewRecord r).buffered t id = c.buffered t id + r.amount t id := by
  unfold Counters.buffered Counters.addNewRecord Record.amount
  by_cases ht : r.type_ = t
  · subst ht
    simp only [update_self, true_and]
    exact Store.get_addNewRecord hfits.1 hfits.2
  · have hne : ¬(r.type_ = t ∧ r.id = id) := fun h => ht h.1
    simp [if_neg hne, update_of_ne (Ne.symm ht)]

/-! ### The columns -/

theorem column_update {ρ : Type} {rows : Int → Option ρ} {g : ρ → ρ} {f : ρ → Int} {d : Int}
    (hg : ∀ row, f (g row) = f row + d) :
    (update rows key g id).map f = ((rows id).map f).map (· + if id = key then d else 0) := by
  unfold update
  by_cases hid : id = key
  · subst hid
    rw [update_self, if_pos rfl, Option.map_map, Option.map_map]
    exact congrArg (Option.map · (rows id)) (funext hg)
  · rw [update_of_ne hid, if_neg hid, Option.map_map]
    exact congrArg (Option.map · (rows id)) (funext fun row => (add_zero (f row)).symm)

/-- `db'` is `db` with `d t` added to the column `t` of the row `key`, if there is one. -/
def Added (db db' : Database) (key : Int) (d : BatchUpdateType → Int) : Prop :=
  ∀ t id, db'.column t id = (db.column t id).map (· + if id = key then d t else 0)

theorem map_add_none {column : Option Int} : column.map (· + if id = key then 0 else 0) = column := by
  simp

theorem Added.refl (db : Database) (key : Int) : Added db db key fun _ => 0 :=
  fun t id => map_add_none.symm

theorem added_updateUser {g : User → User} (hwrite : updateUser db ok key g = some db')
    (hquota : ∀ user, (g user).quota = user.quota + d .userQuota)
    (husedQuota : ∀ user, (g user).usedQuota = user.usedQuota + d .usedQuota)
    (hrequestCount : ∀ user, (g user).requestCount = user.requestCount + d .requestCount)
    (hprompt : ∀ user, (g user).totalPromptTokens = user.totalPromptTokens + d .totalPromptTokens)
    (hcompletion : ∀ user, (g user).totalCompletionTokens = user.totalCompletionTokens + d .totalCompletionTokens)
    (hcache : ∀ user, (g user).totalCacheTokens = user.totalCacheTokens + d .totalCacheTokens)
    (htoken : d .tokenQuota = 0) (hchannel : d .channelUsedQuota = 0) : Added db db' key d := by
  unfold updateUser at hwrite
  split_ifs at hwrite
  cases hwrite
  intro t id
  cases t with
  | userQuota => exact column_update hquota
  | usedQuota => exact column_update husedQuota
  | requestCount => exact column_update hrequestCount
  | totalPromptTokens => exact column_update hprompt
  | totalCompletionTokens => exact column_update hcompletion
  | totalCacheTokens => exact column_update hcache
  | tokenQuota =>
    rw [htoken]
    exact map_add_none.symm
  | channelUsedQuota =>
    rw [hchannel]
    exact map_add_none.symm

theorem added_user (hd : ∀ t, ¬t.Combined → d t = 0)
    (hwrite : updateUserQuotaUsedQuotaAndRequestCount db ok key (d .userQuota) (d .usedQuota)
      (d .requestCount) = some db') : Added db db' key d := by
  unfold updateUserQuotaUsedQuotaAndRequestCount at hwrite
  split_ifs at hwrite with hzero
  · obtain ⟨hquota, husedQuota, hrequestCount⟩ := hzero
    have hnone : d = fun _ => 0 := by
      funext t
      by_cases ht : t.Combined
      · rcases ht with rfl | rfl | rfl
        · exact hquota
        · exact husedQuota
        · exact hrequestCount
      · exact hd t ht
    cases hwrite
    rw [hnone]
    exact Added.refl db key
  · have hother : ∀ {t : BatchUpdateType} (n : Int), ¬t.Combined → n = n + d t := by
      intro t n ht
      rw [hd t ht, add_zero]
    exact added_updateUser hwrite (fun _ => rfl) (fun _ => rfl) (fun _ => rfl)
      (fun user => hother user.totalPromptTokens (by decide))
      (fun user => hother user.totalCompletionTokens (by decide))
      (fun user => hother user.totalCacheTokens (by decide)) (hd _ (by decide)) (hd _ (by decide))

theorem added_write {value : Int} (ht : ¬t.Combined) (hwrite : write db ok t key value = some db') :
    Added db db' key fun t' => if t' = t then value else 0 := by
  have hother : ∀ n : Int, n = n + 0 := fun n => (add_zero n).symm
  cases t with
  | userQuota | usedQuota | requestCount => exact absurd (by decide) ht
  | tokenQuota =>
    simp only [write, increaseTokenQuota] at hwrite
    split_ifs at hwrite
    cases hwrite
    intro t' id
    cases t' with
    | tokenQuota => exact column_update fun _ => rfl
    | _ => exact map_add_none.symm
  | channelUsedQuota =>
    simp only [write, updateChannelUsedQuota] at hwrite
    split_ifs at hwrite
    cases hwrite
    intro t' id
    cases t' with
    | channelUsedQuota => exact column_update fun _ => rfl
    | _ => exact map_add_none.symm
  | totalPromptTokens =>
    exact added_updateUser hwrite (fun _ => hother _) (fun _ => hother _) (fun _ => hother _) (fun _ => rfl)
      (fun _ => hother _) (fun _ => hother _) rfl rfl
  | totalCompletionTokens =>
    exact added_updateUser hwrite (fun _ => hother _) (fun _ => hother _) (fun _ => hother _)
      (fun _ => hother _) (fun _ => rfl) (fun _ => hother _) rfl rfl
  | totalCacheTokens =>
    exact added_updateUser hwrite (fun _ => hother _) (fun _ => hother _) (fun _ => hother _)
      (fun _ => hother _) (fun _ => hother _) (fun _ => rfl) rfl rfl

/-! ### A step of a round -/

/-- What a round has in its `stores` follows from where it stands: nothing before the maps are taken, at the
end only what is left for the `UPDATE` of the users. -/
def Round.Wf (round : Round) : Prop :=
  match round.phase with
  | .checking _ => ∀ t, (round.stores t).keys = []
  | .swapping rest => rest.Nodup ∧ ∀ t ∈ rest, (round.stores t).keys = []
  | .writing rest => ∀ t, ¬t.Combined → t ∉ rest → (round.stores t).keys = []
  | .users => ∀ t, ¬t.Combined → (round.stores t).keys = []

/-- A step moves amounts between the column, the buffer and the round, and leaves what is well formed. -/
structure Moved (c c' : Counters) (round : Round) (next : List Round) : Prop where
  wf : ∀ r ∈ next, r.Wf
  moved : ∀ t id, ∃ d, c'.db.column t id = (c.db.column t id).map (· + d) ∧
    d + c'.buffered t id + weight (Round.held t id) next = c.buffered t id + round.held t id

section Step

variable {c c' : Counters} {round round' : Round} {key : Int} {ok : Bool}

theorem erase_keys_nil (h : store.keys = []) : (store.erase key).keys = [] := by
  rw [AList.keys_erase, h]
  exact erase_nil key

theorem Round.Wf.visited (hwf : round.Wf) (types : List BatchUpdateType) (key : Int) (retry : List Record) :
    (round.visited types key retry).Wf := by
  have hkeys : ∀ t, (round.stores t).keys = [] →
      ((round.visited types key retry).stores t).keys = [] := by
    intro t ht
    simp only [Round.visited]
    split_ifs
    · exact erase_keys_nil ht
    · exact ht
  unfold Round.Wf at hwf ⊢
  cases hphase : round.phase <;> simp only [hphase, Round.visited] at hwf hkeys ⊢
  · exact fun t => hkeys t (hwf t)
  · exact ⟨hwf.1, fun t ht => hkeys t (hwf.2 t ht)⟩
  · exact fun t ht hrest => hkeys t (hwf t ht hrest)
  · exact fun t ht => hkeys t (hwf t ht)

variable {t : BatchUpdateType} {types : List BatchUpdateType}

theorem Round.held_of_keys_nil (h : (round.stores t).keys = [])
    (hretry : round.retry = []) (id : Int) : round.held t id = 0 := by
  rw [Round.held, Store.get_of_keys_nil h, hretry, weight_nil, Int64.toInt_zero, add_zero]

theorem Round.held_visited (types : List BatchUpdateType) (retry : List Record) (t : BatchUpdateType) (id : Int) :
    (round.visited types key retry).held t id
      = (if t ∈ types ∧ id = key then 0 else ((round.stores t).get id).toInt) + weight (·.amount t id) retry := by
  unfold Round.held Round.visited
  by_cases ht : t ∈ types
  · have hget : ((if t ∈ types then (round.stores t).erase key else round.stores t : Store).get id).toInt
        = if t ∈ types ∧ id = key then 0 else ((round.stores t).get id).toInt := by
      rw [if_pos ht, Store.get_erase]
      by_cases hid : id = key
      · rw [if_pos hid, if_pos ⟨ht, hid⟩, Int64.toInt_zero]
      · rw [if_neg hid, if_neg fun h => hid h.2]
    rw [hget]
  · have hne : ¬(t ∈ types ∧ id = key) := fun h => ht h.1
    simp [if_neg ht, if_neg hne]

theorem moved_quiet (hwf : round'.Wf) (hstores : round'.stores = round.stores)
    (hretry : round'.retry = round.retry) : Moved c c round [round'] := by
  refine ⟨fun r hr => ?_, fun t id => ⟨0, ?_, ?_⟩⟩
  · rw [mem_singleton.mp hr]
    exact hwf
  · simp
  · simp only [weight_cons, weight_nil, Round.held, hstores, hretry]
    omega

theorem moved_end (h : ∀ t, (round.stores t).keys = []) (hretry : round.retry = []) : Moved c c round [] := by
  refine ⟨fun r hr => absurd hr not_mem_nil, fun t id => ⟨0, ?_, ?_⟩⟩
  · simp
  · rw [Round.held_of_keys_nil (h t) hretry, weight_nil]
    omega

theorem moved_retry {r : Record} {rest : List Record} (hwf : round.Wf) (hretry : round.retry = r :: rest)
    (hfits : r.Fits c) : Moved c (c.addNewRecord r) round [{ round with retry := rest }] := by
  refine ⟨fun r hr => ?_, fun t id => ⟨0, ?_, ?_⟩⟩
  · rw [mem_singleton.mp hr]
    exact hwf
  · simp [Counters.addNewRecord]
  · simp only [Counters.buffered_addNewRecord hfits, weight_cons, weight_nil, Round.held, hretry]
    omega

theorem moved_swap {rest : List BatchUpdateType} (hwf : round.Wf)
    (hphase : round.phase = .swapping (t :: rest)) (hretry : round.retry = []) :
    Moved c { c with stores := Function.update c.stores t ∅ } round
      [{ round with stores := Function.update round.stores t (c.stores t), phase := .swapping rest }] := by
  simp only [Round.Wf, hphase, nodup_cons, mem_cons] at hwf
  obtain ⟨⟨hmem, hnodup⟩, hkeys⟩ := hwf
  refine ⟨fun r hr => ?_, fun t' id => ⟨0, ?_, ?_⟩⟩
  · rw [mem_singleton.mp hr]
    refine ⟨hnodup, fun t' ht' => ?_⟩
    have hne : t' ≠ t := fun h => hmem (h ▸ ht')
    simp only [update_of_ne hne]
    exact hkeys t' (Or.inr ht')
  · simp
  · by_cases ht : t' = t
    · subst ht
      simp only [weight_cons, weight_nil, Round.held, Counters.buffered, update_self, Store.get_empty,
        Store.get_of_keys_nil (hkeys t' (Or.inl rfl))]
      omega
    · simp only [weight_cons, weight_nil, Round.held, Counters.buffered, update_of_ne ht]
      omega

theorem moved_written (hwf : round.Wf) (hretry : round.retry = [])
    (hadded : Added c.db db key fun t => if t ∈ types then ((round.stores t).get key).toInt else 0) :
    Moved c { c with db := db } round [round.visited types key []] := by
  refine ⟨fun r hr => ?_, fun t id => ⟨_, hadded t id, ?_⟩⟩
  · rw [mem_singleton.mp hr]
    exact hwf.visited types key []
  · simp only [weight_cons, weight_nil, Round.held_visited, Counters.buffered]
    rw [Round.held, hretry, weight_nil]
    by_cases hid : id = key
    · subst hid
      by_cases ht : t ∈ types
      · rw [if_pos rfl, if_pos ht, if_pos ⟨ht, rfl⟩]
        omega
      · rw [if_pos rfl, if_neg ht, if_neg fun h => ht h.1]
        omega
    · omega

theorem moved_refused {records : List Record} (hwf : round.Wf) (hretry : round.retry = [])
    (hrecords : ∀ t id, weight (·.amount t id) records
      = if t ∈ types ∧ id = key then ((round.stores t).get key).toInt else 0) :
    Moved c c round [round.visited types key records] := by
  refine ⟨fun r hr => ?_, fun t id => ⟨0, ?_, ?_⟩⟩
  · rw [mem_singleton.mp hr]
    exact hwf.visited types key records
  · simp
  · simp only [weight_cons, weight_nil, Round.held_visited, hrecords]
    rw [Round.held, hretry, weight_nil]
    by_cases h : t ∈ types ∧ id = key
    · rw [if_pos h, if_pos h, h.2]
      omega
    · rw [if_neg h, if_neg h]
      omega

end Step

theorem weight_filter_nonzero (records : List Record) (t : BatchUpdateType) (id : Int) :
    weight (·.amount t id) (records.filter fun r => r.value ≠ 0) = weight (·.amount t id) records := by
  induction records with
  | nil => rfl
  | cons r _ ih =>
    by_cases hvalue : r.value = 0
    · have hnone : r.amount t id = 0 := by
        rw [Record.amount, hvalue, Int64.toInt_zero, ite_self]
      rw [filter_cons_of_neg (by simpa using hvalue), ih, weight_cons, hnone, zero_add]
    · rw [filter_cons_of_pos (by simpa using hvalue), weight_cons, weight_cons, ih]

theorem Round.writeEntry_moved (hwf : round.Wf) (hretry : round.retry = []) (ht : ¬t.Combined)
    (hvalue : (round.stores t).lookup key = some value) (ok : Bool) :
    Moved c (round.writeEntry c t key value ok).1 round [(round.writeEntry c t key value ok).2] := by
  have hget : (round.stores t).get key = value := Store.get_of_lookup hvalue
  unfold Round.writeEntry
  split
  · rename_i db hwrite
    refine moved_written hwf hretry fun t' id => ?_
    rw [added_write ht hwrite t' id]
    by_cases ht' : t' = t
    · subst ht'
      simp [hget]
    · simp [if_neg ht']
  · refine moved_refused hwf hretry fun t' id => ?_
    simp only [weight_cons, weight_nil, add_zero, Record.amount, mem_singleton]
    by_cases h : t' = t ∧ id = key
    · rw [if_pos ⟨h.1.symm, h.2.symm⟩, if_pos h, h.1, hget]
    · rw [if_neg fun h' => h ⟨h'.1.symm, h'.2.symm⟩, if_neg h]

theorem mem_combined : t ∈ [BatchUpdateType.userQuota, .usedQuota, .requestCount] ↔ t.Combined := by
  simp [BatchUpdateType.Combined]

theorem Round.writeUser_moved (hwf : round.Wf) (hretry : round.retry = []) (key : Int) (ok : Bool) :
    Moved c (round.writeUser c key ok).1 round [(round.writeUser c key ok).2] := by
  unfold Round.writeUser
  simp only
  split
  · rename_i db hwrite
    refine moved_written hwf hretry (added_user (fun t ht => ?_) hwrite)
    rw [if_neg (mem_combined.not.mpr ht)]
  · refine moved_refused hwf hretry fun t id => ?_
    rw [weight_filter_nonzero]
    by_cases hid : id = key
    · subst hid
      cases t <;> simp [Record.amount]
    · have hne : ¬key = id := fun h => hid h.symm
      simp [Record.amount, hid, hne]

theorem Round.step_moved (hwf : round.Wf) (hfits : ∀ r ∈ round.retry.head?, r.Fits c) (key : Int) (ok : Bool) :
    Moved c (round.step c key ok).1 round (round.step c key ok).2 := by
  unfold Round.step
  split
  · rename_i r rest hretry
    exact moved_retry hwf hretry (hfits r (by rw [hretry]; rfl))
  · rename_i hretry
    split
    · rename_i hphase
      simp only [Round.Wf, hphase] at hwf
      exact moved_end hwf hretry
    · rename_i t rest hphase
      simp only [Round.Wf, hphase] at hwf
      split_ifs
      · exact moved_quiet hwf rfl rfl
      · exact moved_quiet ⟨by decide, fun t _ => hwf t⟩ rfl rfl
    · have hall : ∀ t, t ∈ batchUpdateTypes := by
        intro t
        cases t <;> decide
      exact moved_quiet (fun t _ ht => absurd (hall t) ht) rfl rfl
    · rename_i t rest hphase
      exact moved_swap hwf hphase hretry
    · rename_i hphase
      simp only [Round.Wf, hphase] at hwf
      exact moved_quiet (fun t ht => hwf t ht not_mem_nil) rfl rfl
    · rename_i t rest hphase
      split_ifs with hskip
      · simp only [Round.Wf, hphase, mem_cons, not_or] at hwf
        refine moved_quiet (fun t' ht' hrest => ?_) rfl rfl
        -- the map of `t` is either left for the users or empty
        by_cases ht : t' = t
        · subst ht
          exact hskip.resolve_left ht'
        · exact hwf t' ht' ⟨ht, hrest⟩
      · rw [not_or] at hskip
        split
        · exact moved_quiet hwf rfl rfl
        · rename_i value hvalue
          exact round.writeEntry_moved hwf hretry hskip.1 hvalue ok
    · rename_i hphase
      split_ifs with hdone
      · simp only [Round.Wf, hphase] at hwf
        refine moved_end (fun t => ?_) hretry
        by_cases ht : t.Combined
        · exact hdone t (mem_combined.mpr ht)
        · exact hwf t ht
      · exact moved_quiet hwf rfl rfl
      · exact round.writeUser_moved hwf hretry key ok

/-! ## Runs keep the sum -/

def State.Wf (s : State) : Prop := ∀ round ∈ s.rounds, round.Wf

/-- One event adds what it records to the column, the buffer and the rounds taken together. -/
theorem step_total {e : Event} (hwf : s.Wf) (hfits : Fits s e) : (step s e).Wf ∧ ∀ t id, ∃ d,
      (step s e).counters.db.column t id = (s.counters.db.column t id).map (· + d) ∧
        d + (step s e).counters.buffered t id + (step s e).held t id
          = s.counters.buffered t id + s.held t id + e.recorded t id := by
  cases e with
  | addNewRecord =>
    refine ⟨hwf, fun t id => ⟨0, by simp [step, Counters.addNewRecord], ?_⟩⟩
    simp only [step, State.held, Event.recorded, Counters.buffered_addNewRecord hfits]
    omega
  | batchUpdate =>
    refine ⟨fun round hround => ?_, fun t id => ⟨0, by simp [step], ?_⟩⟩
    · rcases mem_append.mp hround with hround | hround
      · exact hwf round hround
      · rw [mem_singleton.mp hround]
        exact fun _ => rfl
    · have hbegin : Round.begin.held t id = 0 := Round.held_of_keys_nil rfl rfl id
      simp only [step, State.held, Event.recorded, weight_append, weight_cons, weight_nil]
      omega
  | advance i key ok =>
    cases hround : s.rounds[i]? with
    | none =>
      simp only [step, hround]
      exact ⟨hwf, fun t id => ⟨0, by simp, by simp [Event.recorded]⟩⟩
    | some round =>
      have hmem : round ∈ s.rounds := mem_of_getElem? hround
      have hmoved := Round.step_moved (hwf round hmem) (hfits round hround) key ok
      simp only [step, hround]
      refine ⟨fun r hr => ?_, fun t id => ?_⟩
      · rcases mem_append.mp hr with hr | hr
        · exact hwf r (mem_of_mem_eraseIdx hr)
        · exact hmoved.wf r hr
      · obtain ⟨d, hcolumn, _⟩ := hmoved.moved t id
        refine ⟨d, hcolumn, ?_⟩
        have hheld := weight_get (Round.held t id) hround
        simp only [State.held, weight_append, Event.recorded]
        omega

theorem run_total {l : List Event} (hwf : s.Wf) (hfits : Along step Fits s l) : ∃ d,
    (run step s l).counters.db.column t id = (s.counters.db.column t id).map (· + d) ∧
      d + (run step s l).counters.buffered t id + (run step s l).held t id
        = s.counters.buffered t id + s.held t id + (l.map (Event.recorded t id)).sum := by
  induction l generalizing s with
  | nil => exact ⟨0, by simp, by simp⟩
  | cons e l ih =>
    obtain ⟨hwf', hstep⟩ := step_total hwf hfits.1
    obtain ⟨d, hcolumn, _⟩ := hstep t id
    obtain ⟨d', hcolumn', _⟩ := ih hwf' hfits.2
    refine ⟨d + d', ?_, ?_⟩
    · rw [run_cons, hcolumn', hcolumn, Option.map_map]
      congr 1
      funext n
      exact Int.add_assoc n d d'
    · rw [run_cons, map_cons, sum_cons]
      omega

/-- **Batch accounting loses and duplicates nothing.** After any interleaving of records, rounds and refused
updates in which no sum of `addNewRecord` leaves the range of `int`, the column of a row that exists plus
what is buffered for it and what the running rounds hold is the initial column plus all that has been
recorded, for each of the eight counters. -/
theorem total_of_run (db : Database) (l : List Event) (hfits : Along step Fits (State.init db) l)
    (t : BatchUpdateType) (id initial : Int) (hrow : db.column t id = some initial) :
    ∃ column, (run step (State.init db) l).counters.db.column t id = some column ∧
      column + (run step (State.init db) l).counters.buffered t id + (run step (State.init db) l).held t id
        = initial + (l.map (Event.recorded t id)).sum := by
  have hwf : (State.init db).Wf := fun round hround => absurd hround not_mem_nil
  obtain ⟨d, hcolumn, _⟩ := run_total hwf hfits
  refine ⟨initial + d, ?_, ?_⟩
  · have hinit : (State.init db).counters.db.column t id = some initial := hrow
    rw [hcolumn, hinit, map_some]
  · have hheld : (State.init db).held t id = 0 := rfl
    have hbuffered : (State.init db).counters.buffered t id = 0 := by
      show (Store.get ∅ id).toInt = 0
      rw [Store.get_empty, Int64.toInt_zero]
    omega

instance (c : Counters) (r : Record) : Decidable (r.Fits c) :=
  inferInstanceAs (Decidable (_ ∧ _))

instance (s : State) : (e : Event) → Decidable (Fits s e)
  | .addNewRecord r => inferInstanceAs (Decidable (r.Fits s.counters))
  | .batchUpdate => .isTrue trivial
  | .advance i _ _ => inferInstanceAs (Decidable (∀ round ∈ s.rounds[i]?, ∀ r ∈ round.retry.head?, _))

def oneUser : Database :=
  { users := fun id => if id = 1 then some ⟨1000, 0, 0, 0, 0, 0⟩ else none
    tokens := fun _ => none
    channels := fun _ => none }

/-- A round takes a debit out and is refused; a second debit comes in before it has queued the first
again. -/
def refusedRound : List Event :=
  [.addNewRecord ⟨.userQuota, 1, -30⟩, .addNewRecord ⟨.requestCount, 1, 1⟩, .batchUpdate]
    ++ List.replicate 20 (.advance 0 1 false)
    ++ [.addNewRecord ⟨.userQuota, 1, -7⟩, .advance 0 1 true]

theorem total_of_refusedRound :
    ∃ column, (run step (State.init oneUser) refusedRound).counters.db.column .userQuota 1 = some column ∧
      column + (run step (State.init oneUser) refusedRound).counters.buffered .userQuota 1
          + (run step (State.init oneUser) refusedRound).held .userQuota 1
        = 1000 + (refusedRound.map (Event.recorded .userQuota 1)).sum :=
  total_of_run oneUser refusedRound (by decide +kernel) .userQuota 1 1000 (by decide)

end CubeRouter.Quota.Batch
