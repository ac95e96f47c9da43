import CubeRouter.Ledger.Funding
import Mathlib.Data.List.Nodup
import Mathlib.Logic.Function.Basic

/-!
# One-time authentication flows

`model/auth_flow.go`: a flow is a row whose token is handed out once, and is consumed by an `UPDATE` in the
transaction of the action it is for. An assertion of an external provider has no flow of its own: it is consumed by
the `INSERT` of a row that is consumed from the start, and the unique index on `token_hash` refuses a second one,
until the clean-up has deleted the row.

Transactions run at the same time. What one has written is seen by the others after its commit, and until then they
wait for the rows and index entries it has written. The `SELECT` of `ConsumeAuthFlowWithAction` is taken without its
lock, which SQLite does not have. A call reads the clock in the step that uses it.
-/

namespace CubeRouter.Auth.Flow

open List Function

open Ledger (trimSpace)

abbrev Time := Int

def authFlowDefaultCleanupRetention : Time := 24 * 3600 * 1000000000

inductive AuthFlowError
  | invalid
  | expired
  | consumed

structure AuthFlowCreate where
  purpose : String
  provider : String := ""
  intent : String := ""
  userId : Nat := 0
  sessionId : String := ""
  payload : String := ""
  expiresAt : Time

structure AuthFlow extends AuthFlowCreate where
  consumedAt : Option Time := none

structure AuthFlowMatch where
  purpose : String
  provider : String := ""
  intent : String := ""
  userId : Nat := 0
  sessionId : String := ""

/-- `applyAuthFlowMatch` on a row with the hash of the token: fields that are not given are not looked at. -/
def Matches (flow : AuthFlowCreate) (m : AuthFlowMatch) : Prop :=
  flow.purpose = m.purpose ∧ (m.provider ≠ "" → flow.provider = m.provider) ∧ (m.intent ≠ "" → flow.intent = m.intent) ∧
    (m.userId ≠ 0 → flow.userId = m.userId) ∧ (m.sessionId ≠ "" → flow.sessionId = m.sessionId)

instance (flow : AuthFlowCreate) (m : AuthFlowMatch) : Decidable (Matches flow m) := by
  unfold Matches
  infer_instance

/-- What `ConsumeAuthFlowWithAction` has found: its snapshot of the row. -/
structure Found where
  token : String
  fields : AuthFlowMatch
  flow : AuthFlow

structure Consumption where
  token : String
  fields : AuthFlowMatch
  at_ : Time

structure Claim where
  purpose : String
  assertion : String
  expiresAt : Time
  at_ : Time

/-- What is hashed for an external assertion. -/
def Claim.key (c : Claim) : String := "external:" ++ c.purpose ++ ":" ++ c.assertion

def Claim.flow (c : Claim) : AuthFlow where
  purpose := c.purpose
  expiresAt := c.expiresAt
  consumedAt := some c.at_

inductive TxStatus
  | active
  | committed
  | rolledBack
  deriving DecidableEq

/-- A transaction with what it has written; `ε` are the effects of the actions. -/
structure Tx (ε : Type) where
  status : TxStatus := .active
  found : Option Found := none
  consumed : Option Consumption := none
  claims : List Claim := []
  effects : List ε := []

/-- `issued` are the tokens drawn so far, with the flows they were drawn for, and `world` the effects that have been
committed. -/
structure State (H ε : Type) where
  now : Time := 0
  rows : H → Option AuthFlow := fun _ => none
  issued : List (String × AuthFlowCreate) := []
  txs : Nat → Option (Tx ε) := fun _ => none
  order : List Nat := []
  world : List ε := []

variable {H ε : Type}

-- `authFlowTokenHash`
variable (hash : String → H)

/-- `CreateAuthFlow` up to the `INSERT`. -/
def createAuthFlow (now : Time) (input : AuthFlowCreate) : Except AuthFlowError AuthFlow :=
  if trimSpace input.purpose = "" ∨ ¬now < input.expiresAt then .error .invalid
  else .ok { input with }

/-- `ConsumeAuthFlowWithAction` up to its first look at the row. -/
def findAuthFlow (rows : H → Option AuthFlow) (token : String) (m : AuthFlowMatch) : Except AuthFlowError Found :=
  if token = "" ∨ m.purpose = "" then .error .invalid
  else
    match rows (hash token) with
    | none => .error .invalid
    | some flow =>
      if ¬Matches flow.toAuthFlowCreate m then .error .invalid
      else if flow.consumedAt.isSome then .error .consumed
      else .ok ⟨token, m, flow⟩

/-- Its `UPDATE`, on the row as it is then. -/
def markAuthFlow (rows : H → Option AuthFlow) (now : Time) (found : Found) : Except AuthFlowError Consumption :=
  if ¬now < found.flow.expiresAt then .error .expired
  else
    match rows (hash found.token) with
    | none => .error .consumed
    | some flow =>
      if flow.consumedAt = none ∧ now < flow.expiresAt then .ok ⟨found.token, found.fields, now⟩
      else .error .consumed

/-- `ClaimExternalAuthAssertionWithTx` in a transaction that has made `claims`. -/
def claimExternalAuthAssertion [DecidableEq H] (rows : H → Option AuthFlow) (claims : List Claim) (now : Time)
    (purpose assertion : String)
    (expiresAt : Time) : Except AuthFlowError Claim :=
  let claim : Claim := ⟨trimSpace purpose, trimSpace assertion, expiresAt, now⟩
  if claim.purpose = "" ∨ claim.assertion = "" ∨ ¬now < expiresAt then .error .invalid
  else if (rows (hash claim.key)).isSome ∨ claims.any (fun c => hash c.key = hash claim.key) then .error .consumed
  else .ok claim

/-- `DeleteExpiredAuthFlows(now)`, on one row. -/
def deletesAuthFlow (now : Time) (flow : AuthFlow) : Bool :=
  let cutoff := now - authFlowDefaultCleanupRetention
  flow.expiresAt < cutoff || flow.consumedAt.any fun at_ => at_ < cutoff

def Tx.write [DecidableEq H] (tx : Tx ε) (rows : H → Option AuthFlow) (h : H) : Option AuthFlow :=
  match tx.claims.find? fun c => hash c.key = h with
  | some c => some c.flow
  | none =>
    match tx.consumed with
    | some c => if hash c.token = h then (rows h).map fun flow => { flow with consumedAt := some c.at_ } else rows h
    | none => rows h

/-- The transaction has written the row or the index entry, and the others wait for it. -/
def Tx.Locks (tx : Tx ε) (h : H) : Prop :=
  tx.status = .active ∧ ((∃ c, tx.consumed = some c ∧ hash c.token = h) ∨ ∃ c ∈ tx.claims, hash c.key = h)

def Locked (s : State H ε) (h : H) : Prop := ∃ i tx, s.txs i = some tx ∧ tx.Locks hash h

def LockedByOther (s : State H ε) (i : Nat) (h : H) : Prop := ∃ j tx, j ≠ i ∧ s.txs j = some tx ∧ tx.Locks hash h

def State.setTx (s : State H ε) (i : Nat) (tx : Tx ε) : State H ε := { s with txs := Function.update s.txs i (some tx) }

/-- One statement of some call. A call that fails ends without a trace, and an action may fail at any point. -/
inductive Step [DecidableEq H] : State H ε → State H ε → Prop
  | tick (s : State H ε) (now : Time) (h : s.now ≤ now) : Step s { s with now }
  /-- The token is random, and has not been drawn before; base64 has no colons. -/
  | create (s : State H ε) (token : String) (input : AuthFlowCreate) (flow : AuthFlow)
      (hok : createAuthFlow s.now input = .ok flow)
      (hbase64 : ':' ∉ token.toList) (hfresh : token ∉ s.issued.map Prod.fst) (hindex : s.rows (hash token) = none)
        (hfree : ¬Locked hash s (hash token)) :
      Step s { s with
        rows := Function.update s.rows (hash token) (some flow)
        issued := s.issued ++ [(token, input)] }
  /-- A transaction of another caller. -/
  | begin (s : State H ε) (i : Nat) (hnew : s.txs i = none) : Step s (s.setTx i {})
  | find (s : State H ε) (i : Nat) (token : String) (m : AuthFlowMatch) (found : Found) (hnew : s.txs i = none)
      (hok : findAuthFlow hash s.rows token m = .ok found) : Step s (s.setTx i { found := some found })
  | mark (s : State H ε) (i : Nat) (tx : Tx ε) (found : Found) (c : Consumption) (htx : s.txs i = some tx)
      (hactive : tx.status = .active) (hfound : tx.found = some found)
        (hfree : ¬LockedByOther hash s i (hash found.token))
      (hok : markAuthFlow hash s.rows s.now found = .ok c) :
      Step s (s.setTx i { tx with found := none, consumed := some c })
  | act (s : State H ε) (i : Nat) (tx : Tx ε) (e : ε) (htx : s.txs i = some tx) (hactive : tx.status = .active)
      (hfound : tx.found = none) : Step s (s.setTx i { tx with effects := tx.effects ++ [e] })
  | claim (s : State H ε) (i : Nat) (tx : Tx ε) (purpose assertion : String) (expiresAt : Time) (c : Claim)
      (htx : s.txs i = some tx) (hactive : tx.status = .active) (hfound : tx.found = none)
      (hok : claimExternalAuthAssertion hash s.rows tx.claims s.now purpose assertion expiresAt = .ok c)
      (hfree : ¬LockedByOther hash s i (hash c.key)) : Step s (s.setTx i { tx with claims := tx.claims ++ [c] })
  | commit (s : State H ε) (i : Nat) (tx : Tx ε) (htx : s.txs i = some tx) (hactive : tx.status = .active)
      (hfound : tx.found = none) :
      Step s { s.setTx i { tx with status := .committed } with
        rows := tx.write hash s.rows
        order := s.order ++ [i]
        world := s.world ++ tx.effects }
  | rollback (s : State H ε) (i : Nat) (tx : Tx ε) (htx : s.txs i = some tx) (hactive : tx.status = .active) :
      Step s (s.setTx i { tx with status := .rolledBack })
  /-- The clean-up deletes row after row, with the time it began at. -/
  | cleanup (s : State H ε) (h : H) (flow : AuthFlow) (now : Time) (hnow : now ≤ s.now) (hrow : s.rows h = some flow)
      (hfree : ¬Locked hash s h) (hdeletes : deletesAuthFlow now flow = true) :
      Step s { s with rows := Function.update s.rows h none }

inductive Reachable [DecidableEq H] : State H ε → Prop
  | start (now : Time) : Reachable { now }
  | step {s s' : State H ε} (h : Reachable s) (hstep : Step hash s s') : Reachable s'

/-! ## What holds of rows and transactions -/

/-- The transaction is not rolled back, and what it has written counts. -/
def Live (s : State H ε) (i : Nat) (tx : Tx ε) : Prop := s.txs i = some tx ∧ tx.status ≠ .rolledBack

/-- The second claim came after the clean-up of the first one. -/
def Separated (c c' : Claim) : Prop :=
  c.at_ + authFlowDefaultCleanupRetention < c'.at_ ∨ c.expiresAt + authFlowDefaultCleanupRetention < c'.at_

variable {hash}

structure FlowInv (hash : String → H) (s : State H ε) : Prop where
  issued : (s.issued.map Prod.fst).Nodup
  base64 : ∀ token ∈ s.issued.map Prod.fst, ':' ∉ token.toList
  /-- A row that is not consumed is a flow. -/
  flow : ∀ h flow, s.rows h = some flow → flow.consumedAt = none →
    ∃ token, hash token = h ∧ (token, flow.toAuthFlowCreate) ∈ s.issued
  found : ∀ i tx f, s.txs i = some tx → tx.found = some f →
    (f.token, f.flow.toAuthFlowCreate) ∈ s.issued ∧ Matches f.flow.toAuthFlowCreate f.fields
  valid : ∀ i tx c, s.txs i = some tx → tx.consumed = some c →
    ∃ input, (c.token, input) ∈ s.issued ∧ Matches input c.fields ∧ c.at_ < input.expiresAt
  held : ∀ i tx c, s.txs i = some tx → tx.status = .active → tx.consumed = some c →
    ∃ flow, s.rows (hash c.token) = some flow ∧ flow.consumedAt = none
  spent : ∀ i tx c flow, s.txs i = some tx → tx.status = .committed → tx.consumed = some c →
    s.rows (hash c.token) = some flow → flow.consumedAt ≠ none
  single : ∀ i j tx tx' c c', Live s i tx → Live s j tx' → tx.consumed = some c → tx'.consumed = some c' →
    c.token = c'.token → i = j

structure ClaimInv (hash : String → H) (s : State H ε) : Prop where
  exclusive : ∀ i j tx tx' c c', s.txs i = some tx → s.txs j = some tx' → tx.status = .active → tx'.status = .active →
    c ∈ tx.claims → c' ∈ tx'.claims → c.key = c'.key → i = j
  pending : ∀ i tx c, s.txs i = some tx → tx.status = .active → c ∈ tx.claims → s.rows (hash c.key) = none
  /-- The row of a claim is there from its commit on until it is cleaned up. -/
  claimed : ∀ i tx c, s.txs i = some tx → tx.status = .committed → c ∈ tx.claims →
    s.rows (hash c.key) = some c.flow ∨ c.at_ + authFlowDefaultCleanupRetention < s.now ∨
      c.expiresAt + authFlowDefaultCleanupRetention < s.now
  times : ∀ i tx c, s.txs i = some tx → c ∈ tx.claims → c.at_ ≤ s.now ∧ c.at_ < c.expiresAt
  keys : ∀ i tx, s.txs i = some tx → (tx.claims.map Claim.key).Nodup
  separated : ∀ i j tx tx' c c', Live s i tx → Live s j tx' → c ∈ tx.claims → c' ∈ tx'.claims → c.key = c'.key → i ≠ j →
    Separated c c' ∨ Separated c' c

/-! ## Steps that leave them alone -/

section Same

variable {s s' : State H ε} {i : Nat} {tx tx₀ : Tx ε}

def Goes (tx₀ tx : Tx ε) : Prop := tx.status = tx₀.status ∨ tx.status = .rolledBack

theorem Goes.status (h : Goes tx₀ tx) {status : TxStatus} (hstatus : tx.status = status) (hne : status ≠ .rolledBack) :
    tx₀.status = status := by
  rcases h with h | h
  · exact h.symm.trans hstatus
  · exact absurd (hstatus.symm.trans h) hne

theorem Goes.live (h : Goes tx₀ tx) (htx0 : s.txs i = some tx₀) (hlive : Live s' i tx) : Live s i tx₀ :=
  ⟨htx0, fun hback => hlive.2 (h.elim (fun heq => heq.trans hback) id)⟩

theorem FlowInv.of_same (h : FlowInv hash s) (hrows : s'.rows = s.rows) (hissued : s'.issued = s.issued)
    (hconsumed : ∀ i tx c, s'.txs i = some tx → tx.consumed = some c →
      ∃ tx₀, s.txs i = some tx₀ ∧ Goes tx₀ tx ∧ tx₀.consumed = some c)
    (hfound : ∀ i tx f, s'.txs i = some tx → tx.found = some f →
      (f.token, f.flow.toAuthFlowCreate) ∈ s.issued ∧ Matches f.flow.toAuthFlowCreate f.fields) : FlowInv hash s' := by
  constructor
  · rw [hissued]
    exact h.issued
  · rw [hissued]
    exact h.base64
  · rw [hrows, hissued]
    exact h.flow
  · rw [hissued]
    exact hfound
  · intro i tx c htx hc
    rw [hissued]
    obtain ⟨tx₀, htx0, -, hc0⟩ := hconsumed i tx c htx hc
    exact h.valid i tx₀ c htx0 hc0
  · intro i tx c htx hactive hc
    rw [hrows]
    obtain ⟨tx₀, htx0, hgoes, hc0⟩ := hconsumed i tx c htx hc
    exact h.held i tx₀ c htx0 (hgoes.status hactive (by decide)) hc0
  · intro i tx c flow htx hcommitted hc
    rw [hrows]
    obtain ⟨tx₀, htx0, hgoes, hc0⟩ := hconsumed i tx c htx hc
    exact h.spent i tx₀ c flow htx0 (hgoes.status hcommitted (by decide)) hc0
  · intro i j tx tx' c c' hi hj hc hc'
    obtain ⟨tx₀, htx0, hgoes, hc0⟩ := hconsumed i tx c hi.1 hc
    obtain ⟨tx1, htx1, hgoes', hc1⟩ := hconsumed j tx' c' hj.1 hc'
    exact h.single i j tx₀ tx1 c c' (hgoes.live htx0 hi) (hgoes'.live htx1 hj) hc0 hc1

theorem ClaimInv.of_same (h : ClaimInv hash s) (hrows : s'.rows = s.rows) (hnow : s.now ≤ s'.now)
    (hclaims : ∀ i tx, s'.txs i = some tx → tx.claims = [] ∨ ∃ tx₀, s.txs i = some tx₀ ∧ Goes tx₀ tx ∧
      tx.claims = tx₀.claims) :
    ClaimInv hash s' := by
  have hmem (i : Nat) (tx : Tx ε) (c : Claim) (htx : s'.txs i = some tx) (hc : c ∈ tx.claims) :
      ∃ tx₀, s.txs i = some tx₀ ∧ Goes tx₀ tx ∧ c ∈ tx₀.claims := by
    rcases hclaims i tx htx with hnil | ⟨tx₀, htx0, hgoes, hsame⟩
    · rw [hnil] at hc
      cases hc
    · exact ⟨tx₀, htx0, hgoes, hsame ▸ hc⟩
  constructor
  · intro i j tx tx' c c' hi hj hactive hactive' hc hc'
    obtain ⟨tx₀, htx0, hgoes, hc0⟩ := hmem i tx c hi hc
    obtain ⟨tx1, htx1, hgoes', hc1⟩ := hmem j tx' c' hj hc'
    exact h.exclusive i j tx₀ tx1 c c' htx0 htx1 (hgoes.status hactive (by decide))
      (hgoes'.status hactive' (by decide)) hc0 hc1
  · intro i tx c htx hactive hc
    rw [hrows]
    obtain ⟨tx₀, htx0, hgoes, hc0⟩ := hmem i tx c htx hc
    exact h.pending i tx₀ c htx0 (hgoes.status hactive (by decide)) hc0
  · intro i tx c htx hcommitted hc
    rw [hrows]
    obtain ⟨tx₀, htx0, hgoes, hc0⟩ := hmem i tx c htx hc
    exact (h.claimed i tx₀ c htx0 (hgoes.status hcommitted (by decide)) hc0).imp_right
      (Or.imp hnow.trans_lt' hnow.trans_lt')
  · intro i tx c htx hc
    obtain ⟨tx₀, htx0, -, hc0⟩ := hmem i tx c htx hc
    exact ⟨(h.times i tx₀ c htx0 hc0).1.trans hnow, (h.times i tx₀ c htx0 hc0).2⟩
  · intro i tx htx
    rcases hclaims i tx htx with hnil | ⟨tx₀, htx0, -, hsame⟩
    · rw [hnil]
      exact nodup_nil
    · rw [hsame]
      exact h.keys i tx₀ htx0
  · intro i j tx tx' c c' hi hj hc hc'
    obtain ⟨tx₀, htx0, hgoes, hc0⟩ := hmem i tx c hi.1 hc
    obtain ⟨tx1, htx1, hgoes', hc1⟩ := hmem j tx' c' hj.1 hc'
    exact h.separated i j tx₀ tx1 c c' (hgoes.live htx0 hi) (hgoes'.live htx1 hj) hc0 hc1

variable {tx' : Tx ε} {j : Nat}

theorem setTx_txs (h : (s.setTx i tx').txs j = some tx) : j = i ∧ tx = tx' ∨ j ≠ i ∧ s.txs j = some tx := by
  unfold State.setTx at h
  dsimp only at h
  by_cases hj : j = i
  · subst hj
    rw [update_self] at h
    exact .inl ⟨rfl, (Option.some.inj h).symm⟩
  · rw [update_of_ne hj] at h
    exact .inr ⟨hj, h⟩

theorem commit_live (htx : s.txs i = some tx) (hactive : tx.status = .active)
    (h : Live (s.setTx i { tx with status := .committed }) j tx') :
    ∃ tx₀, Live s j tx₀ ∧ tx₀.consumed = tx'.consumed ∧ tx₀.claims = tx'.claims := by
  obtain ⟨htx', hback⟩ := h
  rcases setTx_txs htx' with ⟨rfl, rfl⟩ | ⟨-, hj⟩
  · exact ⟨tx, ⟨htx, by rw [hactive]; decide⟩, rfl, rfl⟩
  · exact ⟨tx', ⟨hj, hback⟩, rfl, rfl⟩

theorem commit_active (h : (s.setTx i { tx with status := .committed }).txs j = some tx')
    (hactive : tx'.status = .active) : j ≠ i ∧ s.txs j = some tx' := by
  rcases setTx_txs h with ⟨-, rfl⟩ | hj
  · cases hactive
  · exact hj

end Same

/-! ## Flows -/

section Flows

variable {s : State H ε} {i : Nat} {tx : Tx ε} {token : String} {input : AuthFlowCreate} {flow : AuthFlow}
  {now : Time} {rows : H → Option AuthFlow}

theorem createAuthFlow_ok (h : createAuthFlow now input = .ok flow) : flow = { input with } := by
  unfold createAuthFlow at h
  split_ifs at h
  exact (Except.ok.inj h).symm

variable {f : Found} {c : Consumption}

theorem markAuthFlow_ok (h : markAuthFlow hash rows now f = .ok c) :
    c = ⟨f.token, f.fields, now⟩ ∧ ∃ flow, rows (hash f.token) = some flow ∧ flow.consumedAt = none ∧
    now < flow.expiresAt := by
  unfold markAuthFlow at h
  split_ifs at h
  cases hrow : rows (hash f.token) with
  | none =>
    rw [hrow] at h
    cases h
  | some flow =>
    rw [hrow] at h
    dsimp only at h
    split_ifs at h with hok
    exact ⟨(Except.ok.inj h).symm, flow, rfl, hok⟩

theorem findAuthFlow_ok {m : AuthFlowMatch} (h : findAuthFlow hash rows token m = .ok f) :
    f.token = token ∧ rows (hash token) = some f.flow ∧ Matches f.flow.toAuthFlowCreate f.fields ∧
    f.flow.consumedAt = none := by
  unfold findAuthFlow at h
  split_ifs at h
  cases hrow : rows (hash token) with
  | none =>
    rw [hrow] at h
    cases h
  | some =>
    rw [hrow] at h
    dsimp only at h
    split_ifs at h with hmatches hconsumed
    obtain rfl := Except.ok.inj h
    exact ⟨rfl, rfl, hmatches, by simpa using hconsumed⟩

theorem FlowInv.input_unique (h : FlowInv hash s) {input' : AuthFlowCreate} (hmem : (token, input) ∈ s.issued)
    (hmem' : (token, input') ∈ s.issued) : input = input' := by
  have hpair := inj_on_of_nodup_map h.issued hmem hmem' rfl
  exact (Prod.mk.inj hpair).2

theorem colon_mem_key (c : Claim) : ':' ∈ c.key.toList := by
  unfold Claim.key
  simp only [String.toList_append, mem_append]
  exact .inl (.inr (by decide))

theorem FlowInv.token_ne_key (h : FlowInv hash s) (hmem : (token, input) ∈ s.issued) (c : Claim) : token ≠ c.key := by
  rintro rfl
  exact h.base64 _ (mem_map.mpr ⟨_, hmem, rfl⟩) (colon_mem_key c)

theorem FlowInv.create [DecidableEq H] (h : FlowInv hash s) (hinj : Function.Injective hash)
    (hok : createAuthFlow s.now input = .ok flow) (hbase64 : ':' ∉ token.toList)
    (hfresh : token ∉ s.issued.map Prod.fst) (hindex : s.rows (hash token) = none) :
    FlowInv hash { s with
      rows := Function.update s.rows (hash token) (some flow)
      issued := s.issued ++ [(token, input)] } := by
  obtain rfl := createAuthFlow_ok hok
  have hother {k : H} (hk : k ≠ hash token) :
      Function.update s.rows (hash token) (some { input with }) k = s.rows k := update_of_ne hk _ _
  have hold {p : String × AuthFlowCreate} (hp : p ∈ s.issued) : p ∈ s.issued ++ [(token, input)] := mem_append_left _ hp
  constructor
  · rw [map_append, nodup_append]
    refine ⟨h.issued, nodup_singleton _, fun a ha b hb => ?_⟩
    rw [map_singleton, mem_singleton] at hb
    rintro rfl
    have htoken : a = token := hb
    exact hfresh (htoken ▸ ha)
  · intro token' hmem
    rw [map_append, mem_append, map_singleton, mem_singleton] at hmem
    rcases hmem with hmem | rfl
    · exact h.base64 token' hmem
    · exact hbase64
  · intro k flow hrow hnone
    dsimp only at hrow
    by_cases hk : k = hash token
    · subst hk
      rw [update_self] at hrow
      cases hrow
      exact ⟨token, rfl, mem_append_right _ (mem_singleton.mpr rfl)⟩
    · rw [hother hk] at hrow
      obtain ⟨t, ht, hmem⟩ := h.flow k flow hrow hnone
      exact ⟨t, ht, hold hmem⟩
  · intro i tx f htx hf
    exact ⟨hold (h.found i tx f htx hf).1, (h.found i tx f htx hf).2⟩
  · intro i tx c htx hc
    obtain ⟨input', hmem, hmatches, hat⟩ := h.valid i tx c htx hc
    exact ⟨input', hold hmem, hmatches, hat⟩
  · intro i tx c htx hactive hc
    obtain ⟨flow, hrow, hnone⟩ := h.held i tx c htx hactive hc
    have hne : hash c.token ≠ hash token := fun heq => by cases (heq ▸ hrow).symm.trans hindex
    exact ⟨flow, (hother hne).trans hrow, hnone⟩
  · intro i tx c flow htx hcommitted hc hrow
    have hne : hash c.token ≠ hash token := by
      intro heq
      obtain ⟨_, hmem, -⟩ := h.valid i tx c htx hc
      exact hfresh (mem_map.mpr ⟨_, hmem, hinj heq⟩)
    exact h.spent i tx c flow htx hcommitted hc ((hother hne).symm.trans hrow)
  · exact h.single

theorem FlowInv.mark (h : FlowInv hash s) (hinj : Function.Injective hash) (htx : s.txs i = some tx)
    (hactive : tx.status = .active) (hfound : tx.found = some f) (hfree : ¬LockedByOther hash s i (hash f.token))
    (hok : markAuthFlow hash s.rows s.now f = .ok c) :
    FlowInv hash (s.setTx i { tx with found := none, consumed := some c }) := by
  obtain ⟨rfl, flow, hrow, hnone, hnow⟩ := markAuthFlow_ok hok
  obtain ⟨t, ht, hmem⟩ := h.flow _ flow hrow hnone
  obtain rfl := hinj ht
  -- nobody else has consumed the token
  have halone (j : Nat) (tx' : Tx ε) (c' : Consumption) (hj : j ≠ i) (hlive : Live s j tx')
    (hc' : tx'.consumed = some c') :
      f.token ≠ c'.token := by
    intro htoken
    obtain ⟨htx', hback⟩ := hlive
    cases hstatus : tx'.status with
    | active => exact hfree ⟨j, tx', hj, htx', hstatus, .inl ⟨c', hc', by rw [htoken]⟩⟩
    | committed => exact h.spent j tx' c' flow htx' hstatus hc' (htoken ▸ hrow) hnone
    | rolledBack => exact hback hstatus
  constructor
  · exact h.issued
  · exact h.base64
  · exact h.flow
  · intro j tx' f' htx' hf'
    rcases setTx_txs htx' with ⟨rfl, rfl⟩ | ⟨-, hj⟩
    · cases hf'
    · exact h.found j tx' f' hj hf'
  · intro j tx' c' htx' hc'
    rcases setTx_txs htx' with ⟨rfl, rfl⟩ | ⟨-, hj⟩
    · cases hc'
      obtain ⟨hmem', hmatches⟩ := h.found j tx f htx hfound
      exact ⟨_, hmem, h.input_unique hmem hmem' ▸ hmatches, hnow⟩
    · exact h.valid j tx' c' hj hc'
  · intro j tx' c' htx' hactive' hc'
    rcases setTx_txs htx' with ⟨rfl, rfl⟩ | ⟨-, hj⟩
    · cases hc'
      exact ⟨flow, hrow, hnone⟩
    · exact h.held j tx' c' hj hactive' hc'
  · intro j tx' c' flow' htx' hcommitted hc'
    rcases setTx_txs htx' with ⟨rfl, rfl⟩ | ⟨-, hj⟩
    · cases hactive.symm.trans hcommitted
    · exact h.spent j tx' c' flow' hj hcommitted hc'
  · rintro j k tx' tx'' c' c'' ⟨hj, hlive⟩ ⟨hk, hlive'⟩ hc' hc'' htoken
    rcases setTx_txs hj with ⟨hji, hji'⟩ | ⟨hne, hj'⟩ <;> rcases setTx_txs hk with ⟨hki, hki'⟩ | ⟨hne', hk'⟩
    · rw [hji, hki]
    · rw [hji'] at hc'
      cases hc'
      exact absurd htoken (halone k tx'' c'' hne' ⟨hk', hlive'⟩ hc'')
    · rw [hki'] at hc''
      cases hc''
      exact absurd htoken.symm (halone j tx' c' hne ⟨hj', hlive⟩ hc')
    · exact h.single j k tx' tx'' c' c'' ⟨hj', hlive⟩ ⟨hk', hlive'⟩ hc' hc'' htoken

theorem pending_ne_held (hflow : FlowInv hash s) (hclaim : ClaimInv hash s) {j : Nat} {tx' : Tx ε} {c' : Claim}
    (htx : s.txs i = some tx) (hactive : tx.status = .active) (hc : tx.consumed = some c) (htx' : s.txs j = some tx')
    (hactive' : tx'.status = .active) (hc' : c' ∈ tx'.claims) : hash c.token ≠ hash c'.key := by
  intro heq
  obtain ⟨_, hrow, -⟩ := hflow.held i tx c htx hactive hc
  have hnone := hclaim.pending j tx' c' htx' hactive' hc'
  rw [← heq, hrow] at hnone
  cases hnone

end Flows

end CubeRouter.Auth.Flow
