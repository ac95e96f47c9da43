import CubeRouter.Lib.Text

/-!
# Retrying over the groups of `auto`

A request with a token of the group `auto`: `Distribute` of `middleware/distributor.go` chooses its first channel, and
the loop of `Relay` in `controller/relay.go` tries the upstream and chooses again, by `CacheGetRandomSatisfiedChannel`
of `service/channel_select.go`. The next group is an index in the context of the request, and the count of retries
goes back to zero when the group changes, where one increment is left out (`resetNextTry`).

Every choice is at a place `index * (RetryTimes + 1) + retry`, and the places of a run grow with each attempt
(`Selects.advances`).

The first channel can be the one that the requests of the user went to before. The index of its group is not noted, so
the loop then begins at the first group. What `Distribute` leaves in its own count is lost.
-/

namespace CubeRouter.Routing.Retry

open Strings List Option Nat

/-! ## The loop -/

structure NewAPIError where
  errorCode : Text
  statusCode : Int
  skipRetry : Bool := false

def NewAPIError.isChannelError (e : NewAPIError) : Bool := hasPrefix e.errorCode (text "channel:")

inductive Outcome
  /-- The helper returns no error. -/
  | answered
  /-- Billing or the body of the request fails before the helper is called. -/
  | aborted
  | failed (e : NewAPIError)

/-- A channel and the group it is chosen for. -/
structure Selection where
  groupIndex : Nat
  group : String
  channelId : Nat

structure StatusCodeRange where
  start : Int
  stop : Int

/-- What a request meets: the settings, what its context says, and at each moment the channels and the upstream. -/
structure Request where
  autoGroups : List String
  retryTimes : Nat
  crossGroupRetry : Bool
  automaticRetryStatusCodeRanges : List StatusCodeRange
  studioExecution : Bool := false
  skipRetryAfterChannelAffinityFailure : Bool := false
  suppressesRetry : Bool := false
  /-- The channel of the affinity, when it may be used, and `IsChannelEnabledForGroupModel` for it. -/
  preferred : Option (Nat × (String → Bool)) := none
  /-- `GetRandomSatisfiedChannel` in the choice `n` for the group at `i`; `none` is an error or no channel. -/
  satisfied (n i : Nat) (group : String) (retry : Nat) : Option Nat
  /-- How the attempt `n` ends. -/
  outcome (n : Nat) : Outcome

/-- `RetryParam`, and `ContextKeyAutoGroupIndex` of the context. -/
structure RetryState where
  retry : Nat := 0
  resetNextTry : Bool := false
  autoGroupIndex : Option Nat := none

def RetryState.startGroupIndex (s : RetryState) : Nat := s.autoGroupIndex.getD 0

def RetryState.increaseRetry (s : RetryState) : RetryState :=
  if s.resetNextTry then { s with resetNextTry := false } else { s with retry := s.retry + 1 }

/-- The groups from the one at `i` on. -/
def selectFrom (r : Request) (n startGroupIndex : Nat) : Nat → List String → RetryState → Option Selection × RetryState
  | _, [], s => (none, s)
  | i, autoGroup :: rest, s =>
    let priorityRetry := if startGroupIndex < i then 0 else s.retry
    match r.satisfied n i autoGroup priorityRetry with
    | none => selectFrom r n startGroupIndex (i + 1) rest { s with autoGroupIndex := some (i + 1), retry := 0 }
    | some channelId =>
      (some ⟨i, autoGroup, channelId⟩,
        if r.crossGroupRetry ∧ r.retryTimes ≤ priorityRetry then
          { s with autoGroupIndex := some (i + 1), retry := 0, resetNextTry := true }
        else { s with autoGroupIndex := some i })

/-- Without auto groups it is an error, which ends the loop as no channel does. -/
def cacheGetRandomSatisfiedChannel (r : Request) (n : Nat) (s : RetryState) : Option Selection × RetryState :=
  selectFrom r n s.startGroupIndex s.startGroupIndex (r.autoGroups.drop s.startGroupIndex) s

def alwaysSkipRetryStatusCodes : List Int := [504, 524]

def errorCodeBadResponseBody : Text := text "bad_response_body"

def matchStatusCodeRanges (code : Int) : List StatusCodeRange → Bool
  | [] => false
  | range :: rest =>
    if code < range.start then false else if code ≤ range.stop then true else matchStatusCodeRanges code rest

def shouldRetryByStatusCode (r : Request) (code : Int) : Bool :=
  if code ∈ alwaysSkipRetryStatusCodes then false
  else if code < 100 ∨ 599 < code then false
  else matchStatusCodeRanges code r.automaticRetryStatusCodeRanges

def shouldRetry (r : Request) (e : NewAPIError) (retryTimes : Int) : Bool :=
  if r.studioExecution then false
  else if r.skipRetryAfterChannelAffinityFailure then false
  else if e.isChannelError then true
  else if e.skipRetry then false
  else if retryTimes ≤ 0 then false
  else if r.suppressesRetry then false
  else if 200 ≤ e.statusCode ∧ e.statusCode < 300 then false
  else if e.statusCode < 100 ∨ 599 < e.statusCode then true
  else if e.errorCode = errorCodeBadResponseBody then false
  else shouldRetryByStatusCode r e.statusCode

/-- The first auto group that the preferred channel is enabled for. -/
def affinitySelection (r : Request) : Option Selection :=
  match r.preferred with
  | none => none
  | some (channelId, isEnabledFor) =>
    match r.autoGroups.findIdx? isEnabledFor with
    | none => none
    | some i => some ⟨i, r.autoGroups.getD i "", channelId⟩

/-- The first channel, and the state the loop starts in: of `Distribute` only the context is left. -/
def distribute (r : Request) : Option (Selection × RetryState) :=
  match affinitySelection r with
  | some selection => some (selection, {})
  | none =>
    match cacheGetRandomSatisfiedChannel r 0 {} with
    | (none, _) => none
    | (some selection, s) => some (selection, { autoGroupIndex := s.autoGroupIndex })

/-- The iterations from the choice `n` on. `first` is the channel of the context, which is taken as long as the
request has no `ChannelMeta`: the first attempt sets it. -/
def relayLoop (r : Request) (fuel n : Nat) (first : Option Selection) (s : RetryState) : Option (List Selection) :=
  match fuel with
  | 0 => none
  | fuel + 1 =>
    if r.retryTimes < s.retry then some []
    else
      match (match first with
        | some selection => (some selection, s)
        | none => cacheGetRandomSatisfiedChannel r n s) with
      | (none, _) => some []
      | (some selection, s) =>
        match r.outcome n with
        | .answered | .aborted => some [selection]
        | .failed e =>
          if shouldRetry r e (r.retryTimes - s.retry) then
            (relayLoop r fuel (n + 1) none s.increaseRetry).map (selection :: ·)
          else some [selection]

/-- The attempts of the request. -/
def relay (r : Request) (fuel : Nat) : Option (List Selection) :=
  match distribute r with
  | none => some []
  | some (selection, s) => relayLoop r fuel 0 (some selection) s

/-! ## One choice -/

variable {r : Request}

/-- The retry that the group at `i` is asked with. -/
def RetryState.retryAt (s : RetryState) (i : Nat) : Nat := if s.startGroupIndex < i then 0 else s.retry

/-- The state after a channel has been chosen for the group at `i` with the retry `p`. -/
def afterSelection (r : Request) (s : RetryState) (i p : Nat) : RetryState :=
  if r.crossGroupRetry ∧ r.retryTimes ≤ p then
    { retry := 0, resetNextTry := true, autoGroupIndex := some (i + 1) }
  else { retry := p, resetNextTry := s.resetNextTry, autoGroupIndex := some i }

structure Selects (r : Request) (n : Nat) (s : RetryState) (selection : Selection) (s' : RetryState) : Prop where
  start_le : s.startGroupIndex ≤ selection.groupIndex
  group : r.autoGroups[selection.groupIndex]? = some selection.group
  satisfied : r.satisfied n selection.groupIndex selection.group
    (s.retryAt selection.groupIndex) = some selection.channelId
  skipped : ∀ (j : Nat) (g : String), s.startGroupIndex ≤ j → j < selection.groupIndex → r.autoGroups[j]? = some g →
    r.satisfied n j g (s.retryAt j) = none
  state : s' = afterSelection r s selection.groupIndex (s.retryAt selection.groupIndex)

/-- No group from `i` on has a channel. -/
def NoneFrom (r : Request) (n : Nat) (s : RetryState) (i : Nat) : Prop :=
  ∀ (j : Nat) (g : String), i ≤ j → r.autoGroups[j]? = some g → r.satisfied n j g (s.retryAt j) = none

variable {n i index retry fuel : Nat} {s s' : RetryState} {selection : Selection} {attempts : List Selection}

/-- The walk at the group `i`, when it has found nothing in the groups before. -/
theorem selectFrom_spec {s0 : RetryState} (l : List String) (hl : r.autoGroups.drop i = l)
    (hi : s0.startGroupIndex ≤ i) (hretry : s.retry = s0.retryAt i) (hreset : s.resetNextTry = s0.resetNextTry)
    (hskipped : ∀ (j : Nat) (g : String), s0.startGroupIndex ≤ j → j < i → r.autoGroups[j]? = some g →
      r.satisfied n j g (s0.retryAt j) = none) :
    ((selectFrom r n s0.startGroupIndex i l s).1 = none ∧ NoneFrom r n s0 s0.startGroupIndex) ∨
      ∃ selection s', selectFrom r n s0.startGroupIndex i l s = (some selection, s') ∧ Selects r n s0 selection s' := by
  induction l generalizing i s with
  | nil =>
    refine .inl ⟨rfl, fun j g hj hg => hskipped j g hj ?_ hg⟩
    have hlength := drop_eq_nil_iff.mp hl
    have hlt := (List.getElem?_eq_some_iff.mp hg).1
    omega
  | cons autoGroup rest ih =>
    have hgroup : r.autoGroups[i]? = some autoGroup := by
      rw [← head?_drop, hl]
      rfl
    have hrest : r.autoGroups.drop (i + 1) = rest := by
      rw [← tail_drop, hl]
      rfl
    have hp : (if s0.startGroupIndex < i then 0 else s.retry) = s0.retryAt i := by
      rw [hretry, RetryState.retryAt]
      split_ifs
      · rfl
      · rfl
    simp only [selectFrom]
    rw [hp]
    cases hsatisfied : r.satisfied n i autoGroup (s0.retryAt i) with
    | none =>
      refine ih hrest (by omega) ?_ hreset fun j g hstart hj hg => ?_
      · rw [RetryState.retryAt, if_pos (by omega)]
      · by_cases hji : j = i
        · subst hji
          obtain rfl := mem_unique hgroup hg
          exact hsatisfied
        · exact hskipped j g hstart (by omega) hg
    | some =>
      refine .inr ⟨_, _, rfl, hi, hgroup, hsatisfied, hskipped, ?_⟩
      unfold afterSelection
      split_ifs
      · rfl
      · rw [← hretry, ← hreset]

theorem cacheGet_spec (s : RetryState) :
    (∃ s', cacheGetRandomSatisfiedChannel r n s = (none, s') ∧ NoneFrom r n s s.startGroupIndex) ∨
      ∃ selection s', cacheGetRandomSatisfiedChannel r n s = (some selection, s') ∧ Selects r n s selection s' := by
  have hspec : ((cacheGetRandomSatisfiedChannel r n s).1 = none ∧ NoneFrom r n s s.startGroupIndex) ∨
      ∃ selection s', cacheGetRandomSatisfiedChannel r n s = (some selection, s') ∧ Selects r n s selection s' := by
    refine selectFrom_spec _ rfl le_rfl ?_ rfl fun j g hstart hj => ?_
    · rw [RetryState.retryAt, if_neg (lt_irrefl _)]
    · omega
  refine hspec.imp_left fun ⟨hnone, hnoneFrom⟩ => ⟨_, Prod.ext hnone rfl, hnoneFrom⟩

/-! ## Places -/

/-- How many attempts come before the one with this retry in the group at `index`, when every group has all of its
own. -/
def Request.place (r : Request) (index retry : Nat) : Nat := index * (r.retryTimes + 1) + retry

def Request.places (r : Request) : Nat := r.autoGroups.length * (r.retryTimes + 1)

def Request.placeOf (r : Request) (s : RetryState) : Nat := r.place s.startGroupIndex s.retry

theorem place_succ (r : Request) (index : Nat) : r.place (index + 1) 0 = r.place index r.retryTimes + 1 := by
  simp only [Request.place, succ_mul]
  omega

theorem place_lt_of_lt (r : Request) {index' retry' : Nat} (h : index < index') (hretry : retry ≤ r.retryTimes) :
    r.place index retry < r.place index' retry' := by
  have hle : (index + 1) * (r.retryTimes + 1) ≤ index' * (r.retryTimes + 1) := mul_le_mul_right _ h
  simp only [Request.place, succ_mul] at hle ⊢
  omega

theorem place_lt_places (h : index < r.autoGroups.length) (hretry : retry ≤ r.retryTimes) :
    r.place index retry < r.places := by
  have hlt : r.place index retry < r.place r.autoGroups.length 0 := place_lt_of_lt r h hretry
  exact hlt

theorem Selects.lt_length (h : Selects r n s selection s') : selection.groupIndex < r.autoGroups.length :=
  (List.getElem?_eq_some_iff.mp h.group).1

theorem retryAt_le (h : s.retry ≤ r.retryTimes) (i : Nat) : s.retryAt i ≤ r.retryTimes := by
  unfold RetryState.retryAt
  split_ifs
  · exact zero_le _
  · exact h

/-- What the next iteration starts with. -/
structure Advances (r : Request) (s : RetryState) (selection : Selection) (next : RetryState) : Prop where
  resetNextTry : next.resetNextTry = false
  start_le : selection.groupIndex ≤ next.startGroupIndex
  place : r.placeOf next = r.place selection.groupIndex (s.retryAt selection.groupIndex) + 1
  place_le : r.placeOf s ≤ r.place selection.groupIndex (s.retryAt selection.groupIndex)

theorem Selects.advances (h : Selects r n s selection s') (hreset : s.resetNextTry = false)
    (hretry : s.retry ≤ r.retryTimes) : Advances r s selection s'.increaseRetry := by
  have hle := retryAt_le hretry selection.groupIndex
  have hplace : r.placeOf s ≤ r.place selection.groupIndex (s.retryAt selection.groupIndex) := by
    rcases h.start_le.lt_or_eq with hlt | heq
    · exact (place_lt_of_lt r hlt hretry).le
    · rw [Request.placeOf, RetryState.retryAt, heq, if_neg (lt_irrefl _)]
  rw [h.state]
  unfold afterSelection
  split_ifs with hswitch
  · have hlast : s.retryAt selection.groupIndex = r.retryTimes := le_antisymm hle hswitch.2
    refine ⟨rfl, le_succ _, ?_, hplace⟩
    rw [hlast, ← place_succ]
    rfl
  · have hkeep : RetryState.increaseRetry
        { retry := s.retryAt selection.groupIndex, resetNextTry := s.resetNextTry
          autoGroupIndex := some selection.groupIndex } =
        { retry := s.retryAt selection.groupIndex + 1, resetNextTry := false
          autoGroupIndex := some selection.groupIndex } := by
      rw [hreset]
      rfl
    rw [hkeep]
    exact ⟨rfl, le_rfl, rfl, hplace⟩

/-! ## The run of the loop -/

/-- The attempts from a state on. -/
structure RunsFrom (r : Request) (s : RetryState) (attempts : List Selection) : Prop where
  length : attempts.length + r.placeOf s ≤ max r.places (r.placeOf s)
  forward : attempts.Pairwise fun a b => a.groupIndex ≤ b.groupIndex
  start_le : ∀ a ∈ attempts, s.startGroupIndex ≤ a.groupIndex

theorem RunsFrom.nil (r : Request) (s : RetryState) : RunsFrom r s [] := by
  refine ⟨?_, .nil, ?_⟩
  · rw [length_nil, Nat.zero_add]
    exact le_max_right _ _
  · intro a ha
    cases ha

variable {next : RetryState} {start : Option Nat}

theorem RunsFrom.cons (hselects : Selects r n s selection s')
    (hadvances : Advances r s selection next) (hretry : s.retry ≤ r.retryTimes) (h : RunsFrom r next attempts) :
    RunsFrom r s (selection :: attempts) := by
  have hplace := hadvances.place
  have hle := hadvances.place_le
  have hlt : r.place selection.groupIndex (s.retryAt selection.groupIndex) < r.places :=
    place_lt_places hselects.lt_length (retryAt_le hretry _)
  have hlength := h.length
  refine ⟨?_, ?_, ?_⟩
  · rw [length_cons]
    omega
  · refine pairwise_cons.mpr ⟨fun a ha => ?_, h.forward⟩
    exact hadvances.start_le.trans (h.start_le a ha)
  · intro a ha
    rcases mem_cons.mp ha with rfl | ha
    · exact hselects.start_le
    · exact (hselects.start_le.trans hadvances.start_le).trans (h.start_le a ha)

theorem RunsFrom.single (hselects : Selects r n s selection s')
    (hadvances : Advances r s selection next) (hretry : s.retry ≤ r.retryTimes) : RunsFrom r s [selection] :=
  .cons hselects hadvances hretry (.nil r next)

/-- As many iterations as there are places left, and one more to see that there are none. -/
theorem relayLoop_runs (r : Request) (fuel n : Nat) (s : RetryState) (hreset : s.resetNextTry = false)
    (hfuel : r.places < fuel + r.placeOf s) (hpos : 0 < fuel) :
    ∃ attempts, relayLoop r fuel n none s = some attempts ∧ RunsFrom r s attempts := by
  induction fuel generalizing n s with
  | zero => cases hpos
  | succ _ ih =>
    rw [relayLoop]
    split_ifs with hover
    · exact ⟨[], rfl, .nil r s⟩
    have hretry : s.retry ≤ r.retryTimes := not_lt.mp hover
    rcases cacheGet_spec s with ⟨s', hnone, -⟩ | ⟨selection, s', hselect, hselects⟩
    · refine ⟨[], ?_, .nil r s⟩
      rw [hnone]
    · have hadvances := hselects.advances hreset hretry
      rw [hselect]
      dsimp only
      split
      · exact ⟨[selection], rfl, .single hselects hadvances hretry⟩
      · exact ⟨[selection], rfl, .single hselects hadvances hretry⟩
      · split_ifs
        · have hplace := hadvances.place
          have hle := hadvances.place_le
          have hlt : r.place selection.groupIndex (s.retryAt selection.groupIndex) < r.places :=
            place_lt_places hselects.lt_length (retryAt_le hretry _)
          obtain ⟨attempts, hattempts, hruns⟩ :=
            ih (n + 1) s'.increaseRetry hadvances.resetNextTry (by omega) (by omega)
          refine ⟨selection :: attempts, by rw [hattempts]; rfl, hruns.cons hselects hadvances hretry⟩
        · exact ⟨[selection], rfl, .single hselects hadvances hretry⟩

theorem relayLoop_mono {first : Option Selection} (h : relayLoop r fuel n first s = some attempts) {fuel' : Nat}
    (hle : fuel ≤ fuel') : relayLoop r fuel' n first s = some attempts := by
  induction fuel generalizing n first s attempts fuel' with
  | zero => cases h
  | succ _ ih =>
    obtain ⟨fuel', rfl⟩ : ∃ k, fuel' = k + 1 := ⟨fuel' - 1, by omega⟩
    unfold relayLoop at h ⊢
    split_ifs at h ⊢
    · exact h
    · split at h
      · exact h
      · split at h
        · exact h
        · exact h
        · split_ifs at h ⊢
          · obtain ⟨_, hrest, hattempts⟩ := map_eq_some_iff.mp h
            rw [ih hrest (by omega), ← hattempts]
            rfl
          · exact h

/-- The loop goes on after the first attempt. -/
def Request.RetriesFirst (r : Request) : Prop :=
  1 ≤ r.retryTimes ∧ ∃ e, r.outcome 0 = .failed e ∧ shouldRetry r e r.retryTimes = true

/-- The first attempt is at the channel of the context. The loop goes on, in the state after it, or that was the only
one. -/
theorem relayLoop_first (r : Request) (start : Option Nat) :
    (r.RetriesFirst ∧ relayLoop r (fuel + 2) 0 (some selection) { autoGroupIndex := start } =
      (relayLoop r (fuel + 1) 1 none { retry := 1, autoGroupIndex := start }).map (selection :: ·)) ∨
    (¬r.RetriesFirst ∧ relayLoop r (fuel + 2) 0 (some selection) { autoGroupIndex := start } = some [selection]) := by
  have hnotOver : ¬r.retryTimes < ({ autoGroupIndex := start } : RetryState).retry := not_lt_zero _
  rw [relayLoop, if_neg hnotOver]
  cases houtcome : r.outcome 0 with
  | answered | aborted =>
    refine .inr ⟨?_, rfl⟩
    rintro ⟨-, e, hfailed, -⟩
    rw [houtcome] at hfailed
    cases hfailed
  | failed e =>
    have hbudget : ((r.retryTimes : Int) - ((0 : Nat) : Int)) = r.retryTimes := by simp
    dsimp only
    rw [hbudget]
    by_cases hretries : shouldRetry r e r.retryTimes = true
    · rw [if_pos hretries]
      by_cases hpos : 1 ≤ r.retryTimes
      · exact .inl ⟨⟨hpos, e, houtcome, hretries⟩, rfl⟩
      · refine .inr ⟨fun h => hpos h.1, ?_⟩
        have hover : r.retryTimes < (RetryState.increaseRetry { autoGroupIndex := start }).retry := by
          show r.retryTimes < 1
          omega
        rw [relayLoop, if_pos hover]
        rfl
    · rw [if_neg hretries]
      refine .inr ⟨?_, rfl⟩
      rintro ⟨-, e', hfailed, hretries'⟩
      rw [houtcome] at hfailed
      cases hfailed
      exact hretries hretries'

/-! ## The run of a request -/

/-- The first channel, with the index that the context has for the group. -/
def StartsWith (r : Request) (selection : Selection) (start : Option Nat) : Prop :=
  (affinitySelection r = some selection ∧ start = none) ∨
    (affinitySelection r = none ∧ ∃ s', Selects r 0 {} selection s' ∧ start = s'.autoGroupIndex)

theorem distribute_spec (r : Request) : (distribute r = none ∧ affinitySelection r = none ∧ NoneFrom r 0 {} 0) ∨
      ∃ selection start, distribute r = some (selection, { autoGroupIndex := start }) ∧
      StartsWith r selection start := by
  unfold distribute
  cases haffinity : affinitySelection r with
  | some selection => exact .inr ⟨selection, none, rfl, .inl ⟨haffinity, rfl⟩⟩
  | none =>
    rcases cacheGet_spec {} with ⟨s', hnone, hnoneFrom⟩ | ⟨selection, s', hselect, hselects⟩
    · refine .inl ⟨?_, rfl, hnoneFrom⟩
      rw [hnone]
    · refine .inr ⟨selection, s'.autoGroupIndex, ?_, .inr ⟨haffinity, s', hselects, rfl⟩⟩
      rw [hselect]

/-- The attempts after the first one. -/
inductive Continues (r : Request) (start : Option Nat) : List Selection → Prop
  | ends : ¬r.RetriesFirst → Continues r start []
  | retries {rest : List Selection} : r.RetriesFirst →
      relayLoop r (r.places + 1) 1 none { retry := 1, autoGroupIndex := start } = some rest →
      RunsFrom r { retry := 1, autoGroupIndex := start } rest → Continues r start rest

inductive Runs (r : Request) : List Selection → Prop
  | noChannel : affinitySelection r = none → NoneFrom r 0 {} 0 → Runs r []
  | starts {selection : Selection} {start : Option Nat} {rest : List Selection} : StartsWith r selection start →
      Continues r start rest → Runs r (selection :: rest)

theorem relay_runs (r : Request) :
    ∃ attempts, (∀ fuel, r.places + 2 ≤ fuel → relay r fuel = some attempts) ∧ Runs r attempts := by
  unfold relay
  rcases distribute_spec r with ⟨hnone, haffinity, hnoneFrom⟩ | ⟨selection, start, hstart, hstarts⟩
  · rw [hnone]
    exact ⟨[], fun _ _ => rfl, .noChannel haffinity hnoneFrom⟩
  · rw [hstart]
    rcases relayLoop_first r start with ⟨hretries, hloop⟩ | ⟨hends, hloop⟩
    · obtain ⟨rest, hrest, hruns⟩ := relayLoop_runs r (r.places + 1) 1 { retry := 1, autoGroupIndex := start } rfl
        (by omega) (succ_pos _)
      rw [hrest] at hloop
      exact ⟨selection :: rest, fun fuel hfuel => relayLoop_mono hloop hfuel,
        .starts hstarts (.retries hretries hrest hruns)⟩
    · exact ⟨[selection], fun fuel hfuel => relayLoop_mono hloop hfuel, .starts hstarts (.ends hends)⟩

theorem Runs.length_le (h : Runs r attempts) : attempts.length ≤ r.places + 1 := by
  cases h with
  | noChannel => exact zero_le _
  | starts _ hcontinues =>
    rw [length_cons]
    cases hcontinues with
    | ends => simp
    | retries _ _ hruns =>
      have hlength := hruns.length
      omega

theorem StartsWith.lt_length (h : StartsWith r selection start) : selection.groupIndex < r.autoGroups.length := by
  rcases h with ⟨haffinity, -⟩ | ⟨-, _, hselects, -⟩
  · unfold affinitySelection at haffinity
    split at haffinity
    · cases haffinity
    · split at haffinity
      · cases haffinity
      · next i hfound =>
        cases haffinity
        exact (findIdx?_eq_some_iff_getElem.mp hfound).1
  · exact hselects.lt_length

/-! ## The index of the group -/

theorem relayLoop_head (h : relayLoop r (fuel + 1) n none s = some attempts) (hretry : s.retry ≤ r.retryTimes) :
    (attempts = [] ∧ NoneFrom r n s s.startGroupIndex) ∨
      ∃ selection s' rest, attempts = selection :: rest ∧ Selects r n s selection s' := by
  rw [relayLoop, if_neg (not_lt.mpr hretry)] at h
  rcases cacheGet_spec s with ⟨s', hnone, hnoneFrom⟩ | ⟨selection, s', hselect, hselects⟩
  · refine .inl ⟨?_, hnoneFrom⟩
    rw [hnone] at h
    cases h
    rfl
  · refine .inr ⟨selection, s', ?_⟩
    rw [hselect] at h
    dsimp only at h
    split at h
    · cases h
      exact ⟨[], rfl, hselects⟩
    · cases h
      exact ⟨[], rfl, hselects⟩
    · split_ifs at h
      · obtain ⟨rest, -, rfl⟩ := map_eq_some_iff.mp h
        exact ⟨rest, rfl, hselects⟩
      · cases h
        exact ⟨[], rfl, hselects⟩

/-- After an attempt at the channel of the affinity no group before its group has a channel when the loop chooses
anew. -/
def Request.KeepsAffinityGroup (r : Request) : Prop :=
  ∀ selection, affinitySelection r = some selection → r.RetriesFirst → ∀ (j : Nat) (g : String),
    j < selection.groupIndex → r.autoGroups[j]? = some g →
      r.satisfied 1 j g (RetryState.retryAt { retry := 1 } j) = none

theorem forward_iff (h : Runs r attempts) :
    (attempts.Pairwise fun a b => a.groupIndex ≤ b.groupIndex) ↔ r.KeepsAffinityGroup := by
  cases h with
  | noChannel haffinity =>
    refine iff_of_true .nil fun selection hsome => ?_
    rw [haffinity] at hsome
    cases hsome
  | @starts selection _ _ hstarts hcontinues =>
    cases hcontinues with
    | ends hends => exact iff_of_true (pairwise_singleton ..) fun _ _ hretries => absurd hretries hends
    | retries hretries hrest hruns =>
      rw [pairwise_cons, and_iff_left hruns.forward]
      rcases hstarts with ⟨haffinity, rfl⟩ | ⟨haffinity, s', hselects, rfl⟩
      · -- The loop begins at the first group again.
        rcases relayLoop_head hrest hretries.1 with ⟨rfl, hnoneFrom⟩ | ⟨second, s', _, rfl, hselects⟩
        · refine iff_of_true (fun a ha => absurd ha not_mem_nil) fun selection' _ _ j g _ hg => ?_
          exact hnoneFrom j g (zero_le j) hg
        · constructor
          · intro hle selection' hselection' _ j g hj hg
            obtain rfl := mem_unique haffinity hselection'
            have hsecond := hle second mem_cons_self
            exact hselects.skipped j g (zero_le j) (by omega) hg
          · intro hnone a ha
            have hsecond : selection.groupIndex ≤ second.groupIndex := by
              by_contra hlt
              have hsatisfied := hselects.satisfied
              have hskipped := hnone selection haffinity hretries second.groupIndex second.group
                (by omega) hselects.group
              rw [hskipped] at hsatisfied
              cases hsatisfied
            rcases mem_cons.mp ha with rfl | ha
            · exact hsecond
            · exact hsecond.trans ((pairwise_cons.mp hruns.forward).1 a ha)
      · refine iff_of_true (fun a ha => ?_) fun selection' hselection' => ?_
        · have hstart : selection.groupIndex ≤ s'.autoGroupIndex.getD 0 := by
            rw [hselects.state]
            unfold afterSelection
            split_ifs
            · exact le_succ _
            · exact le_rfl
          exact hstart.trans (hruns.start_le a ha)
        · rw [haffinity] at hselection'
          cases hselection'

/-! ## All attempts of all groups -/

/-- Every choice finds a channel in the group it asks first. -/
def Request.AlwaysAvailable (r : Request) : Prop := ∀ n i g retry, (r.satisfied n i g retry).isSome

theorem Request.AlwaysAvailable.ne_none (h : r.AlwaysAvailable) {g : String} : r.satisfied n i g retry ≠ none :=
  isSome_iff_ne_none.mp (h n i g retry)

/-- Every attempt fails, and `shouldRetry` lets the failure be retried. -/
def Request.RetriesEvery (r : Request) : Prop :=
  ∀ n, ∃ e, r.outcome n = .failed e ∧ shouldRetry r e r.retryTimes = true

/-- `RetryTimes + 1` attempts at each group, one group after the other. -/
def Request.allAttempts (r : Request) : List Nat :=
  (List.range r.autoGroups.length).flatMap fun i => List.replicate (r.retryTimes + 1) i

theorem shouldRetry_of_pos {e : NewAPIError} {budget budget' : Int} (hpos : 0 < budget')
    (h : shouldRetry r e budget = true) : shouldRetry r e budget' = true := by
  unfold shouldRetry at h ⊢
  split_ifs at h ⊢
  · rfl
  · omega
  · omega
  · rfl
  · exact h

theorem groupAt_place (h : retry ≤ r.retryTimes) : r.place index retry / (r.retryTimes + 1) = index := by
  rw [Request.place, Nat.mul_comm, Nat.mul_add_div (Nat.succ_pos _), Nat.div_eq_of_lt (by omega), Nat.add_zero]

theorem allAttempts_eq (r : Request) : r.allAttempts = (List.range r.places).map fun m => m / (r.retryTimes + 1) := by
  unfold Request.allAttempts Request.places
  induction r.autoGroups.length with
  | zero => simp
  | succ k ih =>
    rw [List.range_succ, List.flatMap_append, ih, succ_mul, List.range_add, List.map_append, List.map_map]
    congr 1
    rw [flatMap_singleton]
    refine Eq.symm (eq_replicate_iff.mpr ⟨by simp, fun m hm => ?_⟩)
    obtain ⟨j, hj, rfl⟩ := mem_map.mp hm
    exact groupAt_place (Nat.lt_succ_iff.mp (mem_range.mp hj))

theorem selects_first (havailable : r.AlwaysAvailable) (h : Selects r n s selection s') :
    selection.groupIndex = s.startGroupIndex := by
  by_contra hne
  have hlt : s.startGroupIndex < selection.groupIndex := lt_of_le_of_ne h.start_le (Ne.symm hne)
  exact havailable.ne_none (h.skipped s.startGroupIndex _ le_rfl hlt (getElem?_eq_getElem (hlt.trans h.lt_length)))

theorem noneFrom_available (havailable : r.AlwaysAvailable) (h : NoneFrom r n s i) : r.autoGroups.length ≤ i := by
  by_contra hlt
  exact havailable.ne_none (h i _ le_rfl (getElem?_eq_getElem (not_le.mp hlt)))

/-- From each place the loop goes through all places that are left. -/
theorem relayLoop_all (hpos : 1 ≤ r.retryTimes) (hcross : r.crossGroupRetry = true) (havailable : r.AlwaysAvailable)
    (hevery : r.RetriesEvery) (h : relayLoop r fuel n none s = some attempts) (hreset : s.resetNextTry = false)
    (hretry : s.retry ≤ r.retryTimes) (hplace : r.placeOf s ≤ r.places) : attempts.map Selection.groupIndex =
      (List.range' (r.placeOf s) (r.places - r.placeOf s)).map fun m => m / (r.retryTimes + 1) := by
  induction fuel generalizing n s attempts with
  | zero => cases h
  | succ _ ih =>
    rw [relayLoop, if_neg (not_lt.mpr hretry)] at h
    rcases cacheGet_spec s with ⟨s', hnone, hnoneFrom⟩ | ⟨selection, s', hselect, hselects⟩
    · have hend : r.places ≤ r.placeOf s := by
        have hle := mul_le_mul_right (r.retryTimes + 1) (noneFrom_available havailable hnoneFrom)
        exact hle.trans (le_add_right _ _)
      rw [hnone] at h
      cases h
      rw [Nat.sub_eq_zero_of_le hend]
      rfl
    · have hadvances := hselects.advances hreset hretry
      have hindex := selects_first havailable hselects
      have hat : s.retryAt selection.groupIndex = s.retry := by
        rw [RetryState.retryAt, hindex, if_neg (lt_irrefl _)]
      have hnext := hadvances.place
      rw [hat, hindex] at hnext
      change r.placeOf s'.increaseRetry = r.placeOf s + 1 at hnext
      have hlt : r.placeOf s < r.places := by
        rw [Request.placeOf, ← hindex]
        exact place_lt_places hselects.lt_length hretry
      -- In the last attempt at a group the count has gone back to zero already.
      have hbudget : s'.retry < r.retryTimes ∧ s'.increaseRetry.retry ≤ r.retryTimes := by
        rw [hselects.state, hat]
        unfold afterSelection RetryState.increaseRetry
        by_cases hlast : r.retryTimes ≤ s.retry
        · rw [if_pos ⟨hcross, hlast⟩, if_pos rfl]
          exact ⟨hpos, zero_le _⟩
        · rw [if_neg (fun h => hlast h.2), hreset, if_neg Bool.false_ne_true]
          exact ⟨not_le.mp hlast, not_le.mp hlast⟩
      obtain ⟨e, houtcome, hretries⟩ := hevery n
      rw [hselect] at h
      simp only [houtcome] at h
      rw [if_pos (shouldRetry_of_pos (by omega) hretries)] at h
      obtain ⟨_, hrest, rfl⟩ := map_eq_some_iff.mp h
      have htail := ih hrest hadvances.resetNextTry hbudget.2 (by omega)
      rw [map_cons, htail, hnext, show r.places - r.placeOf s = r.places - (r.placeOf s + 1) + 1 by omega,
        range'_succ, map_cons, hindex]
      congr 1
      exact (groupAt_place hretry).symm

/-- The count that `Distribute` leaves behind is only missed without retries, when a channel failed and there is
another group. -/
def Request.NeedsNoReset (r : Request) : Prop :=
  ¬(r.retryTimes = 0 ∧ 2 ≤ r.autoGroups.length ∧ r.crossGroupRetry = true ∧ r.AlwaysAvailable ∧ r.RetriesEvery)

theorem startsWith_available (hpos : 1 ≤ r.retryTimes) (havailable : r.AlwaysAvailable)
    (hevery : r.RetriesEvery) (hkeeps : r.KeepsAffinityGroup) (h : StartsWith r selection start) :
    selection.groupIndex = 0 ∧ start.getD 0 = 0 := by
  rcases h with ⟨haffinity, rfl⟩ | ⟨-, _, hselects, rfl⟩
  · refine ⟨?_, rfl⟩
    by_contra hne
    have hlt : 0 < selection.groupIndex := Nat.pos_of_ne_zero hne
    have hlength := (StartsWith.lt_length (.inl ⟨haffinity, rfl⟩) : selection.groupIndex < r.autoGroups.length)
    exact havailable.ne_none (hkeeps selection haffinity ⟨hpos, hevery 0⟩ 0 _ hlt
      (getElem?_eq_getElem (hlt.trans hlength)))
  · have hindex : selection.groupIndex = 0 := selects_first havailable hselects
    refine ⟨hindex, ?_⟩
    have hretry : RetryState.retryAt {} selection.groupIndex = 0 := by
      rw [RetryState.retryAt, ite_self]
    rw [hselects.state, hretry, afterSelection, if_neg (fun h => by omega), hindex]
    rfl

theorem all_iff (h : Runs r attempts) (hkeeps : r.KeepsAffinityGroup) :
    (r.crossGroupRetry = true → r.AlwaysAvailable → r.RetriesEvery →
      attempts.map Selection.groupIndex = r.allAttempts) ↔ r.NeedsNoReset := by
  constructor
  · rintro hall ⟨hzero, hgroups, hcross, havailable, hevery⟩
    have hlength := congrArg List.length (hall hcross havailable hevery)
    rw [allAttempts_eq, length_map, length_map, length_range, Request.places, hzero] at hlength
    cases h with
    | noChannel _ hnoneFrom =>
      have hnil := noneFrom_available havailable hnoneFrom
      omega
    | starts _ hcontinues =>
      cases hcontinues with
      | ends =>
        rw [length_singleton] at hlength
        omega
      | retries hretries =>
        have hpos := hretries.1
        omega
  · intro hreset hcross havailable hevery
    rw [allAttempts_eq]
    cases h with
    | noChannel _ hnoneFrom =>
      rw [Request.places, Nat.le_zero.mp (noneFrom_available havailable hnoneFrom), Nat.zero_mul]
      rfl
    | @starts selection start _ hstarts hcontinues =>
      have hlength := hstarts.lt_length
      cases hcontinues with
      | ends hends =>
        have hzero : r.retryTimes = 0 := by
          by_contra hne
          exact hends ⟨Nat.pos_of_ne_zero hne, hevery 0⟩
        have hone : r.autoGroups.length = 1 := by
          by_contra hne
          exact hreset ⟨hzero, by omega, hcross, havailable, hevery⟩
        have hindex : selection.groupIndex = 0 := by omega
        rw [Request.places, hone, hzero, map_singleton, hindex]
        rfl
      | retries hretries hrest =>
        obtain ⟨hindex, hstart⟩ := startsWith_available hretries.1 havailable hevery hkeeps hstarts
        have hplace : r.placeOf { retry := 1, autoGroupIndex := start } = 1 := by
          rw [Request.placeOf, RetryState.startGroupIndex, hstart, Request.place, Nat.zero_mul, Nat.zero_add]
        have hplaces : 1 ≤ r.places := Nat.mul_pos (Nat.zero_lt_of_lt hlength) (Nat.succ_pos _)
        have htail := relayLoop_all hretries.1 hcross havailable hevery hrest rfl hretries.1 (by omega)
        rw [map_cons, htail, hplace, hindex, range_eq_range',
          show List.range' 0 r.places = List.range' 0 (r.places - 1 + 1) by rw [Nat.sub_add_cancel hplaces],
          range'_succ, map_cons, Nat.zero_div]

/-- The loop ends after at most `(number of groups) * (RetryTimes + 1) + 1` attempts, and the groups of the attempts
follow one another as they should. -/
structure MovesForward (r : Request) (attempts : List Selection) : Prop where
  bounded : attempts.length ≤ r.autoGroups.length * (r.retryTimes + 1) + 1
  forward : attempts.Pairwise fun a b => a.groupIndex ≤ b.groupIndex
  all : r.crossGroupRetry = true → r.AlwaysAvailable → r.RetriesEvery →
    attempts.map Selection.groupIndex = r.allAttempts

/-- A request ends and moves forward through the groups if and only if the loop does not fall back behind the group of
the affinity, and is not without retries when the failure of a channel is to take it to the next group. -/
theorem moves_forward_iff (r : Request) :
    (∃ attempts, (∀ fuel, r.places + 2 ≤ fuel → relay r fuel = some attempts) ∧ MovesForward r attempts) ↔
      r.KeepsAffinityGroup ∧ r.NeedsNoReset := by
  obtain ⟨attempts, hattempts, hruns⟩ := relay_runs r
  have hsame : ∀ attempts', (∀ fuel, r.places + 2 ≤ fuel → relay r fuel = some attempts') → attempts' = attempts :=
    fun attempts' h => Option.some.inj ((h _ le_rfl).symm.trans (hattempts _ le_rfl))
  constructor
  · rintro ⟨attempts', hattempts', hmoves⟩
    obtain rfl := hsame attempts' hattempts'
    have hkeeps := (forward_iff hruns).mp hmoves.forward
    exact ⟨hkeeps, (all_iff hruns hkeeps).mp hmoves.all⟩
  · rintro ⟨hkeeps, hreset⟩
    exact ⟨attempts, hattempts, hruns.length_le, (forward_iff hruns).mpr hkeeps, (all_iff hruns hkeeps).mpr hreset⟩

/-- Two groups with a channel each, and an upstream that always fails; the channel of the second group is preferred. -/
def preferredRequest : Request where
  autoGroups := ["default", "vip"]
  retryTimes := 1
  crossGroupRetry := true
  automaticRetryStatusCodeRanges := [⟨500, 503⟩]
  preferred := some (2, fun group => group = "vip")
  satisfied _ i _ _ := some (i + 1)
  outcome _ := .failed { errorCode := text "do_request_failed", statusCode := 500 }

/-- The same without retries and without a preferred channel, when the channels have no usable key. -/
def keylessRequest : Request :=
  { preferredRequest with
    retryTimes := 0
    preferred := none
    outcome := fun _ => .failed { errorCode := text "channel:no_available_key", statusCode := 500 } }

/-- The first request goes to the group `vip`, then to `default` and to `vip` again; the second one never gets to
`vip`. -/
theorem retry_falls_short :
    (¬∃ attempts, (∀ fuel, preferredRequest.places + 2 ≤ fuel → relay preferredRequest fuel = some attempts) ∧
      MovesForward preferredRequest attempts) ∧
    ¬∃ attempts, (∀ fuel, keylessRequest.places + 2 ≤ fuel → relay keylessRequest fuel = some attempts) ∧
      MovesForward keylessRequest attempts := by
  constructor
  · rintro ⟨attempts, hattempts, hmoves⟩
    have hrun : (relay preferredRequest 6).map (List.map Selection.groupIndex) = some [1, 0, 1, 1] := by decide +kernel
    rw [hattempts 6 le_rfl, map_some, Option.some.injEq] at hrun
    have hforward := pairwise_map.mpr hmoves.forward
    rw [hrun] at hforward
    revert hforward
    decide
  · rintro ⟨attempts, hattempts, hmoves⟩
    have hrun : (relay keylessRequest 4).map (List.map Selection.groupIndex) = some [0] := by decide +kernel
    rw [hattempts 4 le_rfl, map_some, Option.some.injEq] at hrun
    have hall := hmoves.all rfl (fun _ _ _ _ => rfl) fun _ => ⟨_, rfl, by decide⟩
    rw [hrun] at hall
    revert hall
    decide

end CubeRouter.Routing.Retry
