import Mathlib.Data.List.Basic

/-!
# Runs of a state machine

A machine is a step function `step : σ → α → σ`; the events of a run are a list and the state after
it is a fold. `Along step P s l` says that `P` holds of every event of the run together with the
state just before it, which is how a condition on the schedule is stated. `run_invariant` is the
induction every safety theorem uses: an invariant kept by each step whose condition holds is kept by
each run whose conditions all hold.

A fallible operation is a function into `Except ε (α × σ)`; `commit` is its effect as a database
transaction, which changes nothing when it fails.
-/

namespace Transition

open List

variable {σ α β ε : Type*}

def run (step : σ → α → σ) (s : σ) (l : List α) : σ := l.foldl step s

/-- `P` holds at every event of the run, in the state the event meets. -/
def Along (step : σ → α → σ) (P : σ → α → Prop) : σ → List α → Prop
  | _, [] => True
  | s, a :: l => P s a ∧ Along step P (step s a) l

instance Along.decidable (step : σ → α → σ) (P : σ → α → Prop) [∀ s a, Decidable (P s a)] :
    ∀ (s : σ) (l : List α), Decidable (Along step P s l)
  | _, [] => .isTrue trivial
  | s, a :: l => @instDecidableAnd _ _ _ (Along.decidable step P (step s a) l)

variable {step : σ → α → σ}

@[simp] theorem run_nil (s : σ) : run step s [] = s := rfl

@[simp] theorem run_cons (s : σ) (a : α) (l : List α) : run step s (a :: l) = run step (step s a) l :=
  rfl

theorem run_append (s : σ) (l l' : List α) : run step s (l ++ l') = run step (run step s l) l' :=
  foldl_append

variable {s : σ} {l : List α} {P Q : σ → α → Prop} {I : σ → Prop} {tx : σ → Except ε (β × σ)} {e : ε} {r : Except ε β}

theorem along_append {l' : List α} :
    Along step P s (l ++ l') ↔ Along step P s l ∧ Along step P (run step s l) l' := by
  induction l generalizing s with
  | nil => simp [Along]
  | cons a l ih => simp [Along, ih, and_assoc]

theorem along_congr (h : ∀ s a, P s a ↔ Q s a) : Along step P s l ↔ Along step Q s l := by
  induction l generalizing s with
  | nil => exact Iff.rfl
  | cons a l ih => exact and_congr (h s a) ih

theorem along_and : Along step (fun s a => P s a ∧ Q s a) s l ↔ Along step P s l ∧ Along step Q s l := by
  induction l generalizing s with
  | nil => simp [Along]
  | cons a l ih =>
    simp only [Along, ih]
    exact and_and_and_comm

theorem Along.imp (h : ∀ s a, P s a → Q s a) (hl : Along step P s l) : Along step Q s l := by
  induction l generalizing s with
  | nil => trivial
  | cons a l ih => exact ⟨h s a hl.1, ih hl.2⟩

/-- An invariant kept by every step that meets `P` holds after every run that meets `P`. -/
theorem run_invariant (hstep : ∀ s a, I s → P s a → I (step s a)) (hs : I s)
    (hl : Along step P s l) : I (run step s l) := by
  induction l generalizing s with
  | nil => exact hs
  | cons a l ih => exact ih (hstep s a hs hl.1) hl.2

theorem along_true (s : σ) (l : List α) : Along step (fun _ _ => True) s l := by
  induction l generalizing s with
  | nil => trivial
  | cons a l ih => exact ⟨trivial, ih _⟩

theorem along_of_invariant (hstep : ∀ s a, I s → P s a → I (step s a))
    (hQ : ∀ s a, I s → P s a → Q s a) (hs : I s) (hl : Along step P s l) : Along step Q s l := by
  induction l generalizing s with
  | nil => trivial
  | cons a l ih => exact ⟨hQ s a hs hl.1, ih (hstep s a hs hl.1) hl.2⟩

theorem along_of_forall {P : α → Prop} (h : ∀ a ∈ l, P a) (s : σ) : Along step (fun _ a => P a) s l := by
  induction l generalizing s with
  | nil => trivial
  | cons a l ih => exact ⟨h a mem_cons_self, ih (fun b hb => h b (mem_cons_of_mem a hb)) _⟩

theorem along_of_split (h : ∀ done a rest, l = done ++ a :: rest → P (run step s done) a) : Along step P s l := by
  induction l generalizing s with
  | nil => trivial
  | cons a l ih =>
    refine ⟨h [] a l rfl, ih fun done b rest hl => ?_⟩
    exact h (a :: done) b rest (by rw [hl, cons_append])

theorem run_invariant' (hstep : ∀ s a, I s → I (step s a)) (hs : I s) (l : List α) : I (run step s l) :=
  run_invariant (fun s a h _ => hstep s a h) hs (along_true s l)

/-- A quantity that a step keeps exactly when `P` holds is the same in all states of a run exactly when
`P` holds along the run. -/
theorem constant_iff_along {m : σ → β} (hstep : ∀ s a, m (step s a) = m s ↔ P s a) :
    (∀ done rest, l = done ++ rest → m (run step s done) = m s) ↔ Along step P s l := by
  induction l generalizing s with
  | nil =>
    refine ⟨fun _ => trivial, fun _ done rest h => ?_⟩
    rw [(append_eq_nil_iff.mp h.symm).1, run_nil]
  | cons a l ih =>
    rw [Along, ← hstep, ← ih]
    constructor
    · intro h
      have hfirst : m (step s a) = m s := h [a] l rfl
      refine ⟨hfirst, fun done rest hl => ?_⟩
      rw [hfirst]
      exact h (a :: done) rest (by rw [hl, cons_append])
    · rintro ⟨hfirst, h⟩ done rest hl
      cases done with
      | nil => rfl
      | cons b done =>
        obtain ⟨rfl, htail⟩ := cons.inj hl
        rw [run_cons, h done rest htail, hfirst]

/-- A property that a step keeps exactly when `P` holds is true in all states of a run exactly when `P` holds
along the run. `J` and `D` are what the step may rely on. -/
theorem holds_iff_along {J : σ → Prop} {D : σ → α → Prop} (hkeep : ∀ s a, J s → D s a → J (step s a))
    (hstep : ∀ s a, J s → D s a → I s → (I (step s a) ↔ P s a)) (hJ : J s) (hI : I s) (hD : Along step D s l) :
    (∀ done rest, l = done ++ rest → I (run step s done)) ↔ Along step P s l := by
  induction l generalizing s with
  | nil =>
    refine ⟨fun _ => trivial, fun _ done rest h => ?_⟩
    rw [(append_eq_nil_iff.mp h.symm).1, run_nil]
    exact hI
  | cons a l ih =>
    have hJ' : J (step s a) := hkeep s a hJ hD.1
    constructor
    · intro h
      have hfirst : I (step s a) := h [a] l rfl
      refine ⟨(hstep s a hJ hD.1 hI).mp hfirst, (ih hJ' hfirst hD.2).mp fun done rest hl => ?_⟩
      exact h (a :: done) rest (by rw [hl, cons_append])
    · rintro ⟨hfirst, hrest⟩ done rest hl
      have hI' : I (step s a) := (hstep s a hJ hD.1 hI).mpr hfirst
      cases done with
      | nil => exact hI
      | cons b done =>
        obtain ⟨rfl, htail⟩ := cons.inj hl
        exact (ih hJ' hI' hD.2).mpr hrest done rest htail

/-- A property that a step establishes exactly when `P` holds, as long as `K` holds: `K` is stronger than the property
and kept by the steps that meet `P`. -/
theorem always_iff_along {K : σ → Prop} (hI : ∀ s, K s → I s)
    (hkeep : ∀ s a, K s → P s a → K (step s a)) (hstep : ∀ s a, K s → (I (step s a) ↔ P s a)) (hs : K s) :
    (∀ done rest, l = done ++ rest → I (run step s done)) ↔ Along step P s l := by
  constructor
  · intro h
    induction l generalizing s with
    | nil => trivial
    | cons a l ih =>
      have hfirst : P s a := (hstep s a hs).mp (h [a] l rfl)
      refine ⟨hfirst, ih (hkeep s a hs hfirst) fun done rest hl => ?_⟩
      exact h (a :: done) rest (by rw [hl, cons_append])
  · intro h done rest hl
    rw [hl, along_append] at h
    exact hI _ (run_invariant hkeep hs h.1)

/-! ## Records -/

/-- What the steps of a run leave in a record that is not part of the state. -/
def record (step : σ → α → σ) (f : σ → α → Option β) : σ → List α → List β
  | _, [] => []
  | s, a :: l => (f s a).toList ++ record step f (step s a) l

theorem record_invariant {I : σ → List β → Prop} {f : σ → α → Option β}
    (hstep : ∀ s a log, I s log → I (step s a) (log ++ (f s a).toList)) {log : List β} (hs : I s log) (l : List α) :
    I (run step s l) (log ++ record step f s l) := by
  induction l generalizing s log with
  | nil =>
    rw [record, append_nil]
    exact hs
  | cons a l ih =>
    rw [record, ← append_assoc]
    exact ih (hstep s a log hs)

/-! ## Fallible operations -/

/-- The state after a transaction: rolled back when the operation fails. -/
def commit (tx : σ → Except ε (β × σ)) (s : σ) : σ :=
  match tx s with
  | .ok r => r.2
  | .error _ => s

theorem commit_ok {r : β × σ} (h : tx s = .ok r) : commit tx s = r.2 := by
  rw [commit, h]

theorem commit_invariant (hs : I s) (h : ∀ b s', tx s = .ok (b, s') → I s') : I (commit tx s) := by
  rw [commit]
  split
  · rename_i r hr
    exact h r.1 r.2 hr
  · exact hs

/-- The state after a transaction without a result. -/
def attempt (r : Except ε σ) (s : σ) : σ :=
  match r with
  | .ok s' => s'
  | .error _ => s

theorem attempt_invariant {r : Except ε σ} (hs : I s) (h : ∀ s', r = .ok s' → I s') : I (attempt r s) := by
  rcases r with e | s'
  · exact hs
  · exact h s' rfl

def ensure (p : Prop) [Decidable p] (e : ε) : Except ε Unit := if p then .ok () else .error e

theorem ensure_eq_ok {p : Prop} [Decidable p] {u : Unit} : ensure p e = .ok u ↔ p := by
  unfold ensure
  split_ifs with hp
  · exact ⟨fun _ => hp, fun _ => rfl⟩
  · exact ⟨fun h => (nomatch h), fun h => absurd h hp⟩

theorem toOption_eq_some {b : β} : r.toOption = some b ↔ r = .ok b := by
  cases r <;> simp [Except.toOption]

def failure : Except ε β → Option ε
  | .ok _ => none
  | .error e => some e

theorem failure_eq_some : failure r = some e ↔ r = .error e := by
  cases r <;> simp [failure]

/-- Peeling one `do` step: the sequence succeeds when its first action does and then the rest. -/
theorem bind_eq_ok.{u} {γ δ : Type u} {first : Except ε γ} {rest : γ → Except ε δ} {d : δ} :
    (do rest (← first)) = Except.ok d ↔ ∃ c, first = Except.ok c ∧ rest c = Except.ok d := by
  rcases first with e | c
  · exact ⟨fun h => (nomatch h), fun ⟨c, hc, _⟩ => (nomatch hc)⟩
  · exact ⟨fun h => ⟨c, rfl, h⟩, fun ⟨_, rfl, h⟩ => h⟩

/-- A loop without a result succeeds when each of its rounds does. -/
theorem forM_eq_ok {l : List β} {f : β → Except ε PUnit} : l.forM f = .ok ⟨⟩ ↔ ∀ b ∈ l, f b = .ok ⟨⟩ := by
  induction l with
  | nil => exact ⟨fun _ _ hb => (nomatch hb), fun _ => rfl⟩
  | cons b l ih =>
    rw [List.forall_mem_cons, ← ih]
    exact bind_eq_ok.trans ⟨fun ⟨⟨⟩, hb, hl⟩ => ⟨hb, hl⟩, fun ⟨hb, hl⟩ => ⟨⟨⟩, hb, hl⟩⟩

theorem bind_ne_error.{u} {γ δ : Type u} {first : Except ε γ} {rest : γ → Except ε δ}
    (hfirst : first ≠ .error e) (hrest : ∀ c, first = .ok c → rest c ≠ .error e) :
    (do rest (← first)) ≠ Except.error e := by
  rcases first with _ | c
  · intro h
    apply hfirst
    rw [Except.error.inj h]
  · exact hrest c rfl

theorem exists_bind_ok.{u} {γ δ : Type u} {first : Except ε γ} {rest : γ → Except ε δ}
    (hfirst : ∃ c, first = .ok c) (hrest : ∀ c, first = .ok c → ∃ d, rest c = .ok d) :
    ∃ d, (do rest (← first)) = Except.ok d := by
  obtain ⟨c, hc⟩ := hfirst
  obtain ⟨d, hd⟩ := hrest c hc
  exact ⟨d, bind_eq_ok.mpr ⟨c, hc, hd⟩⟩

section Decides

variable {γ δ : Type} {P P' : Prop} {Q : γ → Prop} {Q' : δ → Prop}

/-- The computation succeeds just when `P` holds, and then its result satisfies `Q`. -/
def Decides (r : Except ε γ) (P : Prop) (Q : γ → Prop) : Prop := ((∃ c, r = .ok c) ↔ P) ∧ ∀ c, r = .ok c → Q c

theorem Decides.ok {c : γ} (hp : P) (hq : Q c) : Decides (.ok c : Except ε γ) P Q :=
  ⟨iff_of_true ⟨c, rfl⟩ hp, fun _ h => Except.ok.inj h ▸ hq⟩

theorem Decides.error {e : ε} (hp : ¬P) : Decides (.error e : Except ε γ) P Q :=
  ⟨iff_of_false (by simp) hp, fun _ h => (by cases h)⟩

theorem Decides.bind {first : Except ε γ} {rest : γ → Except ε δ} (h : Decides first P Q)
    (hrest : ∀ c, Q c → Decides (rest c) P' Q') : Decides (do rest (← first)) (P ∧ P') Q' := by
  rcases first with e | c
  · exact .error fun hp => by simpa using h.1.mpr hp.1
  · obtain ⟨hiff, hq⟩ := hrest c (h.2 c rfl)
    exact ⟨hiff.trans (and_iff_right (h.1.mp ⟨c, rfl⟩)).symm, hq⟩

end Decides

end Transition
