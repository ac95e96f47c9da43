import CubeRouter.Organization.ModelAllowList

/-!
# The cached allow list

The calls of one user on his cached list: reads that may refill it, and changes of the database that refresh it after
their commit. The cached list may expire at any time, the fence stays.
-/

namespace CubeRouter.Organization.AllowList

open Concurrency Transition List Option
open Auth (Fate Reply)

/-! ## What is cached -/

inductive Json
  | null
  | bool (b : Bool)
  | string (s : String)
  | array (l : List Json)
  | object (fields : List (String × Json))

/-- No models are a pointer that is nil. -/
structure UserModelAllowListCache where
  unlimited : Bool := false
  models : Option (List String) := none

/-- Both fields are left out when they are empty; a pointer to an empty list is not. -/
def UserModelAllowListCache.marshal (c : UserModelAllowListCache) : Json :=
  .object ((if c.unlimited then [("u", .bool true)] else []) ++
    match c.models with
    | some models => [("m", .array (models.map .string))]
    | none => [])

def unmarshalString : Json → Option String
  | .string s => some s
  | .null => some ""
  | _ => none

/-- One field of the object on what has been read before; other names are skipped. -/
def UserModelAllowListCache.unmarshalField (c : UserModelAllowListCache) (field : String × Json) :
    Option UserModelAllowListCache :=
  if field.1 = "u" ∨ field.1 = "U" then
    match field.2 with
    | .bool b => some { c with unlimited := b }
    | .null => some c
    | _ => none
  else if field.1 = "m" ∨ field.1 = "M" then
    match field.2 with
    | .array l => (l.mapM unmarshalString).map fun models => { c with models := some models }
    | .null => some { c with models := none }
    | _ => none
  else some c

def UserModelAllowListCache.unmarshal : Json → Option UserModelAllowListCache
  | .object fields => fields.foldlM UserModelAllowListCache.unmarshalField {}
  | .null => some {}
  | _ => none

/-- The payload of `cacheUserModelAllowListAtVersion`. -/
def payload : Option (List String) → UserModelAllowListCache
  | none => { unlimited := true }
  | some allow => { models := some (sortStrings allow) }

/-- What `GetUserModelAllowList` answers from the cache, if it does. -/
def cachedAllowList (raw : Json) : Option (Option (List String)) :=
  match UserModelAllowListCache.unmarshal raw with
  | some ⟨true, _⟩ => some none
  | some ⟨false, some models⟩ => some (some (sortStrings models))
  | _ => none

theorem mapM_unmarshalString (models : List String) : (models.map Json.string).mapM unmarshalString = some models := by
  induction models with
  | nil => rfl
  | cons a _ ih => rw [map_cons, mapM_cons, ih, unmarshalString, Option.bind_eq_bind, Option.bind_some,
      Option.bind_eq_bind, Option.bind_some, Option.pure_def]

theorem unmarshal_marshal (c : UserModelAllowListCache) : UserModelAllowListCache.unmarshal c.marshal = some c := by
  obtain ⟨unlimited, models⟩ := c
  have hmodels (c : UserModelAllowListCache) (models : List String) :
      c.unmarshalField ("m", .array (models.map .string)) = some { c with models := some models } := by
    unfold UserModelAllowListCache.unmarshalField
    dsimp only
    rw [mapM_unmarshalString]
    rfl
  cases models with
  | none => cases unlimited <;> rfl
  | some models => cases unlimited <;> exact bind_eq_some_iff.mpr ⟨_, hmodels _ models, rfl⟩

theorem cachedAllowList_payload (allow : Option (List String)) :
    cachedAllowList (payload allow).marshal = some (allow.map sortStrings) := by
  unfold cachedAllowList
  rw [unmarshal_marshal]
  cases allow with
  | none => rfl
  | some => simp [payload]

/-! ## The store -/

structure Store where
  database : Database
  /-- `user:model_allowlist:<id>`. -/
  cached : Option Json := none
  /-- `user:model_allowlist:ver:<id>`, zero when it is missing. -/
  version : Nat := 0
  /-- What the database has been, up to now. Nothing reads it. -/
  history : List Database
  /-- What of it the last refresh has met. Nothing reads it either. -/
  refreshed : Nat := 0

inductive Instr
  | getUserCache
  | isAdmin
  | redisGet
  | getVersion
  | loadRows
  | cacheAtVersion (raw : Json) (expectedVersion : Nat)
  | refresh
  /-- The answer is the place of the commit in the history; the code does not ask. -/
  | commit (f : Database → Database)

@[reducible] def Instr.Answer : Instr → Type
  | .getUserCache => Option Int
  | .isAdmin => Bool
  | .redisGet => Option Json
  | .getVersion => Option Nat
  | .loadRows => Option (List OrganizationMember)
  | .cacheAtVersion _ _ => Option Bool
  | .refresh => Bool
  | .commit _ => Nat

structure Choice where
  role : Option Int := some 1
  isAdmin : Bool := false
  redis : Fate := .done
  database : Bool := true

def reach {α : Type} (fate : Fate) (failed : α) (r : α × Store) (s : Store) : α × Store :=
  match fate with
  | .done => r
  | .failed => (failed, s)
  | .lost => (failed, r.2)

/-- The script of `cacheUserModelAllowListAtVersion`. -/
def Store.cacheAtVersion (s : Store) (raw : Json) (expectedVersion : Nat) : Bool × Store :=
  if s.version ≠ expectedVersion then (false, s) else (true, { s with cached := some raw })

/-- The script of `RefreshUserModelAllowListCache`. -/
def Store.refresh (s : Store) : Store :=
  { s with version := s.version + 1, cached := none, refreshed := s.history.length - 1 }

def Store.commit (s : Store) (f : Database → Database) : Store :=
  { s with database := f s.database, history := s.history ++ [f s.database] }

def exec (userId : Nat) : (i : Instr) → Choice → Store → i.Answer × Store
  | .getUserCache, w, s => (w.role, s)
  | .isAdmin, w, s => (w.isAdmin, s)
  | .redisGet, w, s => (if w.redis = .done then s.cached else none, s)
  | .getVersion, w, s => (if w.redis = .done then some s.version else none, s)
  | .loadRows, w, s => (if w.database then some (s.database.memberships userId) else none, s)
  | .cacheAtVersion raw expectedVersion, w, s =>
    let r := s.cacheAtVersion raw expectedVersion
    reach w.redis none (some r.1, r.2) s
  | .refresh, w, s => reach w.redis false (true, s.refresh) s
  | .commit f, _, s => (s.history.length, s.commit f)

/-! ## Calls -/

abbrev Call (α : Type) := Prog Instr Instr.Answer α

section Calls

variable (unmarshal : String → Option (List String))

/-- `GetUserModelAllowList` when the cache has no answer. -/
def refillAllowList : Call (Option (List String)) := do
  let version ← perform Instr.getVersion
  match ← perform Instr.loadRows with
  | none => return none
  | some rows =>
    let allow := memberModelAllowList unmarshal rows
    match version with
    | none => return allow
    | some cacheVersion =>
      let _ ← perform (Instr.cacheAtVersion (payload allow).marshal cacheVersion)
      return allow

def getMemberAllowList : Call (Option (List String)) := do
  match (← perform Instr.redisGet).bind cachedAllowList with
  | some allow => return allow
  | none => refillAllowList unmarshal

def getUserModelAllowList : Call (Option (List String)) := do
  match ← perform Instr.getUserCache with
  | some role => if RoleAdminUser ≤ role then return none else getMemberAllowList unmarshal
  | none => if ← perform Instr.isAdmin then return none else getMemberAllowList unmarshal

inductive Request
  | get
  /-- A change of memberships or organizations, and the refresh behind it. -/
  | change (f : Database → Database)
  | refresh

inductive Answer
  | allowList (r : Option (List String))
  | changed (n : Nat) (refreshed : Bool)
  | refreshed (done : Bool)

def Request.call : Request → Call Answer
  | .get => do return .allowList (← getUserModelAllowList unmarshal)
  | .change f => do
    let n ← perform (Instr.commit f)
    return .changed n (← perform Instr.refresh)
  | .refresh => do return .refreshed (← perform Instr.refresh)

def users (userId : Nat) : System Store Instr Instr.Answer Answer Request Choice Unit where
  exec := exec userId
  begin := Request.call unmarshal
  env _ s := { s with cached := none }

end Calls

/-! ## What holds of the store -/

section Rules

variable (unmarshal : String → Option (List String)) (userId : Nat)

/-- The list is that of the database in its state `n` or a later one. -/
def Fresh (n : Nat) (r : Option (List String)) (s : Store) : Prop :=
  ∃ k db, n ≤ k ∧ s.history[k]? = some db ∧ r = memberModelAllowList unmarshal (db.memberships userId)

structure Coherent (s : Store) : Prop where
  last : s.history.getLast? = some s.database
  refreshed : s.refreshed < s.history.length
  cached : ∀ raw, s.cached = some raw → ∃ r, raw = (payload r).marshal ∧ Fresh unmarshal userId s.refreshed r s

structure Leads (s s' : Store) : Prop where
  version : s.version ≤ s'.version
  /-- As long as the fence stays no refresh has been made. -/
  same : s.version = s'.version → s'.refreshed = s.refreshed
  refreshed : s.refreshed ≤ s'.refreshed
  history : s.history <+: s'.history

theorem Leads.refl (s : Store) : Leads s s := ⟨le_rfl, fun _ => rfl, le_rfl, prefix_rfl⟩

theorem Leads.trans {s s' s'' : Store} (h : Leads s s') (h' : Leads s' s'') : Leads s s'' := by
  refine ⟨h.version.trans h'.version, fun hsame => ?_, h.refreshed.trans h'.refreshed, h.history.trans h'.history⟩
  have hleft : s.version = s'.version := le_antisymm h.version (hsame ▸ h'.version)
  exact (h'.same (hleft.symm.trans hsame)).trans (h.same hleft)

variable {unmarshal userId} {r : Option (List String)}

theorem Fresh.later {n : Nat} {s s' : Store} (h : Fresh unmarshal userId n r s) (hhistory : s.history <+: s'.history) :
    Fresh unmarshal userId n r s' := by
  obtain ⟨k, db, hk, hdb, hr⟩ := h
  obtain ⟨l, hl⟩ := hhistory
  have hlt := (List.getElem?_eq_some_iff.mp hdb).1
  exact ⟨k, db, hk, by rw [← hl, getElem?_append_left hlt, hdb], hr⟩

theorem Fresh.mono {n n' : Nat} {s : Store} (h : Fresh unmarshal userId n' r s) (hn : n ≤ n') :
    Fresh unmarshal userId n r s := by
  obtain ⟨k, db, hk, hdb, hr⟩ := h
  exact ⟨k, db, hn.trans hk, hdb, hr⟩

theorem Coherent.fresh_now {s : Store} (h : Coherent unmarshal userId s) :
    Fresh unmarshal userId s.refreshed (memberModelAllowList unmarshal (s.database.memberships userId)) s := by
  have hrefreshed := h.refreshed
  refine ⟨s.history.length - 1, s.database, by omega, ?_, rfl⟩
  rw [← getLast?_eq_getElem?, h.last]

theorem Coherent.commit {s : Store} (h : Coherent unmarshal userId s) (f : Database → Database) :
    Leads s (s.commit f) ∧ Coherent unmarshal userId (s.commit f) := by
  have hhistory : s.history <+: (s.commit f).history := prefix_append _ _
  refine ⟨⟨le_rfl, fun _ => rfl, le_rfl, hhistory⟩, getLast?_concat, ?_, fun raw hraw => ?_⟩
  · exact h.refreshed.trans_le hhistory.length_le
  · obtain ⟨r, hr, hfresh⟩ := h.cached raw hraw
    exact ⟨r, hr, hfresh.later hhistory⟩

theorem Coherent.refresh {s : Store} (h : Coherent unmarshal userId s) :
    Leads s s.refresh ∧ Coherent unmarshal userId s.refresh := by
  have hrefreshed := h.refreshed
  refine ⟨⟨Nat.le_succ _, fun hsame => ?_, ?_, prefix_rfl⟩, h.last, ?_, fun raw hraw => by cases hraw⟩
  · exact absurd hsame (Nat.ne_of_lt (Nat.lt_succ_self _))
  · show s.refreshed ≤ s.history.length - 1
    omega
  · show s.history.length - 1 < s.history.length
    omega

theorem Coherent.cacheAtVersion {s : Store} (h : Coherent unmarshal userId s) {v : Nat}
    (hfresh : s.version = v → Fresh unmarshal userId s.refreshed r s) :
    Leads s (s.cacheAtVersion (payload r).marshal v).2 ∧
    Coherent unmarshal userId (s.cacheAtVersion (payload r).marshal v).2 := by
  unfold Store.cacheAtVersion
  split_ifs with hv
  · exact ⟨Leads.refl s, h⟩
  · refine ⟨⟨le_rfl, fun _ => rfl, le_rfl, prefix_rfl⟩, h.last, h.refreshed, fun raw hraw => ?_⟩
    exact ⟨r, (Option.some.inj hraw).symm, hfresh (not_not.mp hv)⟩

variable (unmarshal userId)

/-- The user is no administrator, and the database answers. -/
def Plain (_ : Instr) (w : Choice) (_ : Store) : Prop :=
  (∀ role, w.role = some role → role < RoleAdminUser) ∧ ¬w.isAdmin ∧ w.database

def rules : Rules (users unmarshal userId) where
  inv := Coherent unmarshal userId
  rel := Leads
  fair := Plain
  lets _ _ := True
  refl := Leads.refl
  trans _ _ _ h h' := h.trans h'
  env _ s h _ := ⟨⟨le_rfl, fun _ => rfl, le_rfl, List.prefix_rfl⟩, h.last, h.refreshed, fun raw hraw => by cases hraw⟩

variable {unmarshal userId} {γ : Type} {post : γ → Store → Prop} {s o : Store}

/-! ## Calls keep to the rules -/

theorem reach_leads {α : Type} (fate : Fate) (failed : α) {r : α × Store} (h : Coherent unmarshal userId s)
    (hr : Leads s r.2 ∧ Coherent unmarshal userId r.2) :
    Leads s (reach fate failed r s).2 ∧ Coherent unmarshal userId (reach fate failed r s).2 := by
  cases fate with
  | done => exact hr
  | failed => exact ⟨Leads.refl s, h⟩
  | lost => exact hr

theorem safe_refillAllowList (ho : Leads o s) :
    (rules unmarshal userId).Safe (Fresh unmarshal userId o.refreshed) (refillAllowList unmarshal) s := by
  intro s1 hrel1 hinv1 w1 _
  refine ⟨Leads.refl s1, hinv1, trivial, ?_⟩
  intro s2 hrel2 hinv2 w2 hplain
  refine ⟨Leads.refl s2, hinv2, trivial, ?_⟩
  have hleads : Leads o s2 := ho.trans (hrel1.trans hrel2)
  have hnow := hinv2.fresh_now
  have hload : ((users unmarshal userId).exec .loadRows w2 s2).1 = some (s2.database.memberships userId) :=
    if_pos hplain.2.2
  rw [hload]
  have hreturn (s3 : Store) (hrel3 : Leads s2 s3) :
      (rules unmarshal userId).Safe (Fresh unmarshal userId o.refreshed)
        (.ret (memberModelAllowList unmarshal (s2.database.memberships userId))) s3 :=
    fun s4 hrel4 _ => (hnow.later (hrel3.trans hrel4).history).mono hleads.refreshed
  by_cases hdone : w1.redis = .done
  · have hversion : ((users unmarshal userId).exec .getVersion w1 s1).1 = some s1.version := if_pos hdone
    rw [hversion]
    intro s3 hrel3 hinv3 w3 _
    -- no refresh has come between if the fence is where it was
    have hfresh (hsame : s3.version = s1.version) : Fresh unmarshal userId s3.refreshed
        (memberModelAllowList unmarshal (s2.database.memberships userId)) s3 := by
      have hstill : s2.version = s3.version := le_antisymm hrel3.version (hsame ▸ hrel2.version)
      rw [hrel3.same hstill]
      exact hnow.later hrel3.history
    obtain ⟨hleads', hinv'⟩ := reach_leads w3.redis none (r := (some _, _)) hinv3 (hinv3.cacheAtVersion hfresh)
    exact ⟨hleads', hinv', trivial, hreturn _ (hrel3.trans hleads')⟩
  · have hversion : ((users unmarshal userId).exec .getVersion w1 s1).1 = none := if_neg hdone
    rw [hversion]
    exact hreturn s2 (Leads.refl s2)

theorem safe_getMemberAllowList (ho : Leads o s) :
    (rules unmarshal userId).Safe (Fresh unmarshal userId o.refreshed) (getMemberAllowList unmarshal) s := by
  intro s1 hrel1 hinv1 w1 _
  refine ⟨Leads.refl s1, hinv1, trivial, ?_⟩
  have hleads : Leads o s1 := ho.trans hrel1
  have hmiss : (rules unmarshal userId).Safe (Fresh unmarshal userId o.refreshed) (refillAllowList unmarshal) s1 :=
    safe_refillAllowList hleads
  cases hget : ((users unmarshal userId).exec .redisGet w1 s1).1 with
  | none => exact hmiss
  | some raw =>
    have hcached : s1.cached = some raw := by
      simp only [users, exec] at hget
      split_ifs at hget
      exact hget
    obtain ⟨r, rfl, hfresh⟩ := hinv1.cached raw hcached
    obtain ⟨k, db, hk, hdb, rfl⟩ := hfresh
    simp only [Prog.bind, bind_some, cachedAllowList_payload, sorted_memberModelAllowList]
    exact fun s2 hrel2 _ => (Fresh.later ⟨k, db, hk, hdb, rfl⟩ hrel2.history).mono hleads.refreshed

theorem safe_getUserModelAllowList :
    (rules unmarshal userId).Safe (Fresh unmarshal userId s.refreshed) (getUserModelAllowList unmarshal) s := by
  intro s1 hrel1 hinv1 w1 hplain
  refine ⟨Leads.refl s1, hinv1, trivial, ?_⟩
  have hrole : ((users unmarshal userId).exec .getUserCache w1 s1).1 = w1.role := rfl
  rw [hrole]
  cases hw : w1.role with
  | some role =>
    simp only [Prog.bind, if_neg (Int.not_le.mpr (hplain.1 role hw))]
    exact safe_getMemberAllowList hrel1
  | none =>
    intro s2 hrel2 hinv2 w2 hplain2
    refine ⟨Leads.refl s2, hinv2, trivial, ?_⟩
    have hadmin : ((users unmarshal userId).exec .isAdmin w2 s2).1 = false := Bool.eq_false_iff.mpr hplain2.2.1
    rw [hadmin]
    exact safe_getMemberAllowList (hrel1.trans hrel2)

/-- What is promised of the answer to a call that found `o` when it started. -/
def Answered (unmarshal : String → Option (List String)) (userId : Nat) (o : Store) : Answer → Store → Prop
  | .allowList r, s => Fresh unmarshal userId o.refreshed r s
  | .changed n true, s => n ≤ s.refreshed
  | _, _ => True

theorem safe_call (b : Request) (s : Store) :
    (rules unmarshal userId).Safe (Answered unmarshal userId s) (b.call unmarshal) s := by
  have hrefresh (s1 : Store) (hinv : Coherent unmarshal userId s1) (w : Choice) :=
    reach_leads w.redis false (r := (true, s1.refresh)) hinv hinv.refresh
  cases b with
  | get => exact safe_getUserModelAllowList.map fun _ _ _ h => h
  | refresh =>
    intro s1 _ hinv w _
    obtain ⟨hleads, hinv'⟩ := hrefresh s1 hinv w
    exact ⟨hleads, hinv', trivial, fun _ _ _ => trivial⟩
  | change f =>
    intro s1 _ hinv w _
    obtain ⟨hleads, hinv'⟩ := hinv.commit f
    refine ⟨hleads, hinv', trivial, fun s2 hrel2 hinv2 w2 _ => ?_⟩
    obtain ⟨hleads2, hinv2'⟩ := hrefresh s2 hinv2 w2
    refine ⟨hleads2, hinv2', trivial, fun s3 hrel3 _ => ?_⟩
    -- the refresh has met the commit
    have hlength : s1.history.length + 1 ≤ s2.history.length := by
      simpa [users, exec, Store.commit] using hrel2.history.length_le
    cases hw : w2.redis with
    | failed => simp [users, exec, reach, hw, Answered]
    | lost => simp [users, exec, reach, hw, Answered]
    | done =>
      simp only [users, exec, hw] at hrel3 ⊢
      have hrefreshed : s2.history.length - 1 ≤ s3.refreshed := hrel3.refreshed
      show s1.history.length ≤ s3.refreshed
      omega

/-! ## Runs -/

def start (db : Database) : Pool Store Instr Instr.Answer Answer := ⟨{ database := db, history := [db] }, []⟩

/-- When a change has returned, with its refresh made, no call that starts later answers from a database before it. -/
theorem change_narrows_at_once (unmarshal : String → Option (List String)) (userId : Nat) (db : Database)
    (before later : List (Event Request Choice Unit))
    (hplain : Along (users unmarshal userId).step (rules unmarshal userId).Fair (start db)
      (before ++ .start .get :: later)) :
    let m := users unmarshal userId
    let p : Pool Store Instr Instr.Answer Answer := run m.step (start db) before
    let q : Pool Store Instr Instr.Answer Answer := run m.step p (.start .get :: later)
    (∀ r, q.calls[p.calls.length]? = some (.ret (.allowList r)) →
      ∀ j n : Nat, p.calls[j]? = some (.ret (.changed n true)) →
      Fresh unmarshal userId n r q.shared) ∧
    ∀ allow, cachedAllowList (payload allow).marshal = some (allow.map sortStrings) := by
  intro m p q
  refine ⟨fun r hr j n hn => ?_, cachedAllowList_payload⟩
  obtain ⟨hbefore, hlater⟩ := along_append.mp hplain
  have hany (b : Request) (s : Store) (_ : Coherent unmarshal userId s) :
      (rules unmarshal userId).Safe (fun _ _ => True) (b.call unmarshal) s :=
    (safe_call b s).imp fun _ _ _ _ => trivial
  -- what a change promises does not depend on when it started
  have hnoted (b : Request) (s : Store) : (rules unmarshal userId).Safe
      (fun a s => ∀ n, a = .changed n true → n ≤ s.refreshed) (b.call unmarshal) s :=
    (safe_call b s).imp fun a s _ h n hn => by subst hn; exact h
  have hstart (post : Nat → Answer → Store → Prop) :
    (rules unmarshal userId).Keeps (fun _ _ _ => True) post (start db) :=
    ⟨⟨rfl, Nat.zero_lt_one, fun raw hraw => by cases hraw⟩, fun j q hq => by cases hq⟩
  obtain ⟨hp, -, -⟩ := Rules.safe_run (hstart fun _ a s => ∀ n, a = .changed n true → n ≤ s.refreshed) hbefore
    fun _ b s _ _ _ => hnoted b s
  have hn : n ≤ p.shared.refreshed := hp.safe j _ hn p.shared (Leads.refl _) hp.inv n rfl
  have hp' : (rules unmarshal userId).Keeps (fun _ _ _ => True) (fun _ _ _ => True) p :=
    ⟨hp.inv, fun j q hq => (hp.safe j q hq).imp fun _ _ _ _ => trivial⟩
  obtain ⟨-, -, hanswer, -⟩ := Rules.own_run hp' (safe_call .get p.shared) hany hlater
  exact Fresh.mono (hanswer (.allowList r) hr) hn

/-- The membership of user 7, and the change that restricts it. -/
def memberships (modelAccess : String) : Database where
  organizations := [⟨1, .active⟩]
  members := [⟨7, 1, .active, modelAccess⟩]

def oneName (raw : String) : Option (List String) := if raw = "[a]" then some ["a"] else none

def turns (j n : Nat) : List (Event Request Choice Unit) := List.replicate n (.advance j {})

/-- A reader has read the rows before the change, and writes them after its refresh. -/
def slowRefill : List (Event Request Choice Unit) :=
  [.start .get] ++ turns 0 4 ++ [.start (.change fun _ => memberships "[a]")] ++ turns 1 2 ++ turns 0 1

theorem change_narrows_at_once_slowRefill :
    let p := run (users oneName 7).step (start (memberships "")) slowRefill
    let q := run (users oneName 7).step p (.start .get :: turns 2 5)
    q.calls[2]? = some (.ret (.allowList (some ["a"]))) ∧ Fresh oneName 7 1 (some ["a"]) q.shared := by
  have hplain : Along (users oneName 7).step (rules oneName 7).Fair (start (memberships ""))
      (slowRefill ++ .start .get :: turns 2 5) := by
    refine along_of_forall (P := fun e => ∀ p, (rules oneName 7).Fair p e) (fun e he p => ?_) _ |>.imp fun p e h => h p
    have hevent : (∃ b, e = .start b) ∨ ∃ j, e = .advance j {} := by
      simp only [slowRefill, turns] at he
      grind
    rcases hevent with ⟨b, rfl⟩ | ⟨j, rfl⟩
    · trivial
    · exact fun i _ => ⟨fun role hrole => by cases hrole; decide, by decide, rfl⟩
  have hcall : (run (users oneName 7).step (run (users oneName 7).step (start (memberships "")) slowRefill)
      (.start .get :: turns 2 5)).calls[2]? = some (.ret (.allowList (some ["a"]))) := by rfl
  exact ⟨hcall, (change_narrows_at_once oneName 7 (memberships "") slowRefill (turns 2 5) hplain).1 _ hcall 1 1 rfl⟩

end Rules

end CubeRouter.Organization.AllowList
