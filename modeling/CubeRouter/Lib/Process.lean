import CubeRouter.Lib.Run

/-!
# Calls that interleave

Requests of several processes work on one database and one cache with one statement at a time. `Prog` is such a call:
its next instruction and what it does with the answer. A `System` runs instructions on the shared state and lets the
environment act; in a run any call may be the next to take a step, and one that is never picked again has died.

The proof rules are those of rely and guarantee. `Rules` are an invariant of the shared state and a relation that every
step keeps to, so that what a call has learned and the relation preserves is still true when it takes its next step.
`Acts` says that a call keeps to the rules from here on, what each of its steps does and what it returns in the end, and
`safe_run` puts such calls together.
-/

namespace Concurrency

open Transition

/-- A call with answers `ρ i` to the instructions `i`. -/
inductive Prog (ι : Type) (ρ : ι → Type) (α : Type)
  | ret (a : α)
  | call (i : ι) (rest : ρ i → Prog ι ρ α)

section Prog

variable {ι : Type} {ρ : ι → Type} {α β : Type}

def Prog.bind : Prog ι ρ α → (α → Prog ι ρ β) → Prog ι ρ β
  | .ret a, f => f a
  | .call i rest, f => .call i fun r => (rest r).bind f

instance : Monad (Prog ι ρ) where
  pure := .ret
  bind := .bind

def perform (i : ι) : Prog ι ρ (ρ i) := .call i .ret

@[simp] theorem pure_eq (a : α) : (pure a : Prog ι ρ α) = .ret a := rfl

@[simp] theorem ret_bind (a : α) (f : α → Prog ι ρ β) : ((Prog.ret a : Prog ι ρ α) >>= f) = f a := rfl

@[simp] theorem call_bind (i : ι) (rest : ρ i → Prog ι ρ α) (f : α → Prog ι ρ β) :
    (Prog.call i rest >>= f) = .call i fun r => rest r >>= f := rfl

@[simp] theorem perform_bind (i : ι) (f : ρ i → Prog ι ρ β) : (perform i >>= f) = .call i f := rfl

theorem bind_bind {γ : Type} (p : Prog ι ρ α) (f : α → Prog ι ρ β) (g : β → Prog ι ρ γ) :
    (p >>= f >>= g) = p >>= fun a => f a >>= g := by
  induction p with
  | ret => rfl
  | call i _ ih => exact congrArg (Prog.call i) (funext ih)

end Prog

/-- The choices `ω` are how an instruction ends, where that is open; `β` are the calls that can be made and `ε` what the
environment does. -/
structure System (σ ι : Type) (ρ : ι → Type) (α β ω ε : Type) where
  exec : (i : ι) → ω → σ → ρ i × σ
  begin : β → Prog ι ρ α
  env : ε → σ → σ

structure Pool (σ ι : Type) (ρ : ι → Type) (α : Type) where
  shared : σ
  /-- In the order in which they were made; a call that has returned stays. -/
  calls : List (Prog ι ρ α) := []

inductive Event (β ω ε : Type)
  | start (b : β)
  | advance (j : Nat) (choice : ω)
  | env (e : ε)

section System

variable {σ ι : Type} {ρ : ι → Type} {α β ω ε : Type}

/-- The next instruction of call `j`. -/
def Pool.next (p : Pool σ ι ρ α) (j : Nat) : Option ι :=
  match p.calls[j]? with
  | some (.call i _) => some i
  | _ => none

def System.step (m : System σ ι ρ α β ω ε) (p : Pool σ ι ρ α) : Event β ω ε → Pool σ ι ρ α
  | .start b => { p with calls := p.calls ++ [m.begin b] }
  | .advance j choice =>
    match p.calls[j]? with
    | some (.call i rest) =>
      { shared := (m.exec i choice p.shared).2, calls := p.calls.set j (rest (m.exec i choice p.shared).1) }
    | _ => p
  | .env e => { p with shared := m.env e p.shared }

/-- An invariant of the shared state, a relation between what a step finds and what it leaves, and what is assumed of a
step. -/
structure Rules (m : System σ ι ρ α β ω ε) where
  inv : σ → Prop
  rel : σ → σ → Prop
  fair : ι → ω → σ → Prop
  lets : ε → σ → Prop
  refl : ∀ s, rel s s
  trans : ∀ s s' s'', rel s s' → rel s' s'' → rel s s''
  env : ∀ e s, inv s → lets e s → rel s (m.env e s) ∧ inv (m.env e s)

namespace Rules

variable {m : System σ ι ρ α β ω ε} (c : Rules m)

/-- From here on the call keeps to the rules, each of its steps does what `acts` says, and what it returns meets `post`
from then on. -/
def Acts {γ : Type} (acts : σ → σ → Prop) (post : γ → σ → Prop) : Prog ι ρ γ → σ → Prop
  | .ret a, s => ∀ s', c.rel s s' → c.inv s' → post a s'
  | .call i rest, s => ∀ s', c.rel s s' → c.inv s' → ∀ choice, c.fair i choice s' →
      c.rel s' (m.exec i choice s').2 ∧ c.inv (m.exec i choice s').2 ∧ acts s' (m.exec i choice s').2 ∧
        Acts acts post (rest (m.exec i choice s').1) (m.exec i choice s').2

/-- Where nothing is said of the single step. -/
abbrev Safe {γ : Type} (post : γ → σ → Prop) : Prog ι ρ γ → σ → Prop := c.Acts (fun _ _ => True) post

variable {c} {γ δ : Type} {acts : σ → σ → Prop} {post : γ → σ → Prop} {post' : δ → σ → Prop} {p : Prog ι ρ γ} {s : σ}

theorem Acts.later {s' : σ} (h : c.Acts acts post p s) (hrel : c.rel s s') : c.Acts acts post p s' := by
  cases p with
  | ret | call => exact fun s'' hrel' hinv => h s'' (c.trans s s' s'' hrel hrel') hinv

theorem Acts.imp {post' : γ → σ → Prop} (h : c.Acts acts post p s) (himp : ∀ a s, c.inv s → post a s → post' a s) :
    c.Acts acts post' p s := by
  induction p generalizing s with
  | ret a => exact fun s' hrel hinv => himp a s' hinv (h s' hrel hinv)
  | call i _ ih =>
    intro s' hrel hinv choice hfair
    obtain ⟨hrel', hinv', hacts, hrest⟩ := h s' hrel hinv choice hfair
    exact ⟨hrel', hinv', hacts, ih _ hrest⟩

theorem Acts.mono {acts' : σ → σ → Prop} (h : c.Acts acts post p s) (hmono : ∀ s s', acts s s' → acts' s s') :
    c.Acts acts' post p s := by
  induction p generalizing s with
  | ret => exact h
  | call i _ ih =>
    intro s' hrel hinv choice hfair
    obtain ⟨hrel', hinv', hacts, hrest⟩ := h s' hrel hinv choice hfair
    exact ⟨hrel', hinv', hmono _ _ hacts, ih _ hrest⟩

theorem Acts.map {g : γ → δ} (h : c.Acts acts post p s) (hg : ∀ a s, c.inv s → post a s → post' (g a) s) :
    c.Acts acts post' (p >>= fun a => .ret (g a)) s := by
  induction p generalizing s with
  | ret a => exact fun s' hrel hinv => hg a s' hinv (h s' hrel hinv)
  | call i _ ih =>
    intro s' hrel hinv choice hfair
    obtain ⟨hrel', hinv', hacts, hrest⟩ := h s' hrel hinv choice hfair
    exact ⟨hrel', hinv', hacts, ih _ hrest⟩

theorem Acts.bind {f : γ → Prog ι ρ δ} (hinv : c.inv s) (h : c.Acts acts post p s)
    (hf : ∀ a s', c.rel s s' → c.inv s' → (∀ s'', c.rel s' s'' → c.inv s'' → post a s'') → c.Acts acts post' (f a) s') :
    c.Acts acts post' (p >>= f) s := by
  induction p generalizing s with
  | ret a => exact hf a s (c.refl s) hinv h
  | call i _ ih =>
    intro s' hrel hinv' choice hfair
    obtain ⟨hrel', hinv'', hacts, hrest⟩ := h s' hrel hinv' choice hfair
    refine ⟨hrel', hinv'', hacts, ih _ hinv'' hrest fun a s'' hrel'' => ?_⟩
    exact hf a s'' (c.trans _ _ _ hrel (c.trans _ _ _ hrel' hrel''))

/-- Every call of the pool is safe; `acts` and `post` may differ from call to call. -/
structure Keeps (c : Rules m) (acts : Nat → σ → σ → Prop) (post : Nat → α → σ → Prop) (p : Pool σ ι ρ α) : Prop where
  inv : c.inv p.shared
  safe : ∀ j q, p.calls[j]? = some q → c.Acts (acts j) (post j) q p.shared

/-- What is assumed of a step of the system. -/
def Fair (c : Rules m) (p : Pool σ ι ρ α) : Event β ω ε → Prop
  | .start _ => True
  | .advance j choice => ∀ i, p.next j = some i → c.fair i choice p.shared
  | .env e => c.lets e p.shared

instance Fair.decidable [∀ i w s, Decidable (c.fair i w s)] [∀ e s, Decidable (c.lets e s)] (p : Pool σ ι ρ α) :
    ∀ e, Decidable (c.Fair p e)
  | .start _ => .isTrue trivial
  | .advance j choice =>
    match h : p.next j with
    | none => .isTrue fun _ hi => by cases h.symm.trans hi
    | some i => decidable_of_iff (c.fair i choice p.shared)
        ⟨fun hf _ hi => by cases h.symm.trans hi; exact hf, fun hf => hf i h⟩
  | .env e => inferInstanceAs (Decidable (c.lets e p.shared))

variable {acts : Nat → σ → σ → Prop} {post : Nat → α → σ → Prop}

/-- The step is not one of a call that has returned or was never made, or it is as `acts` says of its call. -/
def Does (m : System σ ι ρ α β ω ε) (acts : Nat → σ → σ → Prop) (p : Pool σ ι ρ α) (e : Event β ω ε) : Prop :=
  ∀ j choice, e = .advance j choice → (m.step p e).shared = p.shared ∨ acts j p.shared (m.step p e).shared

theorem Keeps.step {p : Pool σ ι ρ α} (h : c.Keeps acts post p) {e : Event β ω ε}
    (hstart : ∀ b, e = .start b → c.Acts (acts p.calls.length) (post p.calls.length) (m.begin b) p.shared)
    (hfair : c.Fair p e) : c.Keeps acts post (m.step p e) ∧ c.rel p.shared (m.step p e).shared ∧ Does m acts p e := by
  cases e with
  | start b =>
    refine ⟨⟨h.inv, fun j q hq => ?_⟩, c.refl _, fun _ _ he => by cases he⟩
    rcases Nat.lt_or_ge j p.calls.length with hold | _
    · exact h.safe j q ((List.getElem?_append_left hold).symm.trans hq)
    · have hj : j = p.calls.length := by
        have hlt := (List.getElem?_eq_some_iff.mp hq).1
        simp only [System.step, List.length_append, List.length_singleton] at hlt
        omega
      subst hj
      rw [System.step, List.getElem?_concat_length] at hq
      cases hq
      exact hstart b rfl
  | advance j choice =>
    rw [Does, System.step]
    cases hj : p.calls[j]? with
    | none => exact ⟨h, c.refl _, fun _ _ _ => .inl rfl⟩
    | some q =>
      cases q with
      | ret => exact ⟨h, c.refl _, fun _ _ _ => .inl rfl⟩
      | call i =>
        have hnext : p.next j = some i := by rw [Pool.next, hj]
        obtain ⟨hrel, hinv, hacts, hrest⟩ := h.safe j _ hj p.shared (c.refl _) h.inv choice (hfair i hnext)
        refine ⟨⟨hinv, fun k q hq => ?_⟩, hrel, fun _ _ he => ?_⟩
        · by_cases hk : k = j
          · subst hk
            have hlt := (List.getElem?_eq_some_iff.mp hj).1
            simp only [List.getElem?_set_self hlt] at hq
            cases hq
            exact hrest
          · simp only [List.getElem?_set_ne (Ne.symm hk)] at hq
            exact (h.safe k q hq).later hrel
        · cases he
          exact .inr hacts
  | env e =>
    obtain ⟨hrel, hinv⟩ := c.env e p.shared h.inv hfair
    exact ⟨⟨hinv, fun j q hq => (h.safe j q hq).later hrel⟩, hrel, fun _ _ he => by cases he⟩

theorem length_calls_step (p : Pool σ ι ρ α) (e : Event β ω ε) : p.calls.length ≤ (m.step p e).calls.length := by
  cases e with
  | start => simp [System.step]
  | advance =>
    unfold System.step
    dsimp only
    split
    · simp
    · exact Nat.le_refl _
  | env => exact Nat.le_refl _

/-- Along a run in which every call is safe when it starts, all calls stay safe. A call that starts at position `n` or
later starts in a state that the relation reaches, and each step lies between the two ends of the run. -/
theorem safe_run {p : Pool σ ι ρ α} (h : c.Keeps acts post p) {l : List (Event β ω ε)} (hfair : Along m.step c.Fair p l)
    (hstart : ∀ j b s, p.calls.length ≤ j → c.rel p.shared s → c.inv s → c.Acts (acts j) (post j) (m.begin b) s) :
    c.Keeps acts post (run m.step p l) ∧ c.rel p.shared (run m.step p l).shared ∧
      Along m.step (fun r e => c.rel p.shared r.shared ∧ c.rel r.shared (run m.step p l).shared ∧
      Does m acts r e) p l := by
  induction l generalizing p with
  | nil => exact ⟨h, c.refl _, trivial⟩
  | cons e l ih =>
    obtain ⟨hkeeps, hrel, hdoes⟩ := h.step (fun b _ => hstart _ b p.shared (Nat.le_refl _) (c.refl _) h.inv) hfair.1
    obtain ⟨hkeeps', hrel', hdoes'⟩ := ih hkeeps hfair.2 fun j b s hj hs =>
      hstart j b s (Nat.le_trans (length_calls_step p e) hj) (c.trans _ _ _ hrel hs)
    exact ⟨hkeeps', c.trans _ _ _ hrel hrel', ⟨c.refl _, c.trans _ _ _ hrel hrel', hdoes⟩,
      hdoes'.imp fun _ _ hr => ⟨c.trans _ _ _ hrel hr.1, hr.2⟩⟩

/-- One call of a run, started in `p`: what it returns, and what each of its steps does. -/
theorem own_run {acts : σ → σ → Prop} {post : α → σ → Prop} {p : Pool σ ι ρ α} {b : β} {l : List (Event β ω ε)}
    (hp : c.Keeps (fun _ _ _ => True) (fun _ _ _ => True) p) (hb : c.Acts acts post (m.begin b) p.shared)
    (hany : ∀ b s, c.inv s → c.Safe (fun _ _ => True) (m.begin b) s) (hfair : Along m.step c.Fair p (.start b :: l)) :
    c.Keeps (fun _ _ _ => True) (fun _ _ _ => True) (run m.step p (.start b :: l)) ∧
      c.rel p.shared (run m.step p (.start b :: l)).shared ∧
      (∀ a, (run m.step p (.start b :: l)).calls[p.calls.length]? = some (.ret a) →
        post a (run m.step p (.start b :: l)).shared) ∧
      Along m.step (fun r e => ∀ choice, e = .advance p.calls.length choice →
        c.rel r.shared (run m.step p (.start b :: l)).shared ∧
          ((m.step r e).shared = r.shared ∨ acts r.shared (m.step r e).shared)) (m.step p (.start b)) l := by
  have hkeeps : c.Keeps (fun j s s' => j = p.calls.length → acts s s')
    (fun j a s => j = p.calls.length → post a s) p := by
    refine ⟨hp.inv, fun j q hq => ?_⟩
    have hlt := (List.getElem?_eq_some_iff.mp hq).1
    exact ((hp.safe j q hq).mono fun _ _ _ hj => by omega).imp fun _ _ _ _ hj => by omega
  have hstep := hkeeps.step (fun b' hb' => by
    cases hb'
    exact (hb.mono fun _ _ h _ => h).imp fun _ _ _ h _ => h) hfair.1
  have hlength : (m.step p (.start b)).calls.length = p.calls.length + 1 := by simp [System.step]
  have hrun := safe_run hstep.1 hfair.2 fun j b' s hj _ hinv =>
    ((hany b' s hinv).mono fun _ _ _ hj' => by omega).imp fun _ _ _ _ hj' => by omega
  refine ⟨⟨hrun.1.inv, fun j q hq => ?_⟩, hrun.2.1, fun a ha => ?_, ?_⟩
  · exact ((hrun.1.safe j q hq).mono fun _ _ _ => trivial).imp fun _ _ _ _ => trivial
  · exact hrun.1.safe _ _ ha _ (c.refl _) hrun.1.inv rfl
  · exact hrun.2.2.imp fun r e h choice he => ⟨h.2.1, (h.2.2 _ choice he).imp id fun h => h rfl⟩

end Rules

end System

end Concurrency
