import CubeRouter.Organization.Purge

/-!
# Which references outlive an account

The operations that add a member lock the organization and read the user without a lock. The deletion of the user does
not lock an organization that does not refer to him yet, so a member row can be committed after the deletion has asked
for the memberships, or after it has ended. In every run where no commit adds such a row, nothing refers to the user
once his deletion has committed.
-/

namespace CubeRouter.Organization.Deletion

open Concurrency Transactions Relational Transition List

abbrev Requests := World State Statement Statement.Answer Row (Except AccountError Unit) Call

abbrev Request := Tx State Statement Statement.Answer Row (Except AccountError Unit)

def Call.deletes (t : Nat) : Call → Bool
  | .deleteUserAccount _ u _ => u = t
  | _ => false

/-! ## The condition -/

/-- The member rows that are new, by organization and user. -/
def joins (s s' : State) : List (Nat × Nat) :=
  (s'.members.table.select fun m => (s.members.find? m.key).isNone).map fun x => x.2.key

/-- The row of the user is there, and an open deletion of him that has read his memberships has found the
organization. -/
def mayJoin (w : Requests) (o u : Nat) : Bool :=
  (w.db.users.get? u).isSome && w.slots.all fun
    | .running call tx => !(call.deletes u && reads .membership tx.log) || decide (o ∈ found tx.log)
    | .ended _ _ => true

def joinsSafely (w : Requests) : Transactions.Event Call → Bool
  | .advance j =>
    match w.slots[j]? with
    | some (.running _ tx) =>
      match tx.rest with
      | .ret (.ok ()) => (joins w.db (tx.writes w.db)).all fun k => mayJoin w k.1 k.2
      | _ => true
    | _ => true
  | _ => true

variable {o t : Nat}

theorem mem_joins {s s' : State} (h : HasMember s' o t) (hnew : ¬HasMember s o t) : (o, t) ∈ joins s s' := by
  obtain ⟨m, hm⟩ := Option.isSome_iff_exists.mp h
  obtain ⟨i, hget, hkey⟩ := Index.find?_eq_some_iff.mp hm
  refine mem_map.mpr ⟨(i, m), Table.mem_select_iff.mpr ⟨hget, ?_⟩, hkey⟩
  rw [hkey]
  simpa [HasMember] using hnew

variable {w : Requests} {call : Call} {tx : Request}

theorem mayJoin_of_commit {config : Config} {j : Nat}
    (hsafe : joinsSafely w (.advance j) = true) (hj : w.slots[j]? = some (.running call tx))
    (hcommit : ∃ a, tx.rest = .ret a ∧ (service config).commits a = true) (h : HasMember (tx.writes w.db) o t)
    (hnew : ¬HasMember w.db o t) : mayJoin w o t = true := by
  obtain ⟨a, hrest, ha⟩ := hcommit
  cases a with
  | error => cases ha
  | ok =>
    simp only [joinsSafely, hj, hrest] at hsafe
    exact all_eq_true.mp hsafe _ (mem_joins h hnew)

theorem found_of_mayJoin {k : Nat} (h : mayJoin w o t = true)
    (hk : w.slots[k]? = some (.running call tx)) (hdeletes : call.deletes t = true)
    (hread : reads .membership tx.log = true) : o ∈ found tx.log := by
  obtain ⟨-, hall⟩ := Bool.and_eq_true_iff.mp h
  have hslot := all_eq_true.mp hall _ (mem_of_getElem? hk)
  simpa [hdeletes, hread] using hslot

/-! ## The invariant of the open transactions -/

section Guard

variable {config : Config} {t : Nat}

/-- An operation that does not delete the user. -/
def Bystanding (t : Nat) (s : State) (tx : Request) : Prop :=
  ∃ stage : Stage, stage.held = tx.held ∧ stage.Knows t s ∧ stage.Locked ∧
    (∀ b, stage.Knows t b → Mild t stage.held stage.joined b (tx.writes b)) ∧ Bystands t (fun _ _ => True) stage tx.rest

def Purging (t : Nat) (s : State) (tx : Request) : Prop :=
  ∃ p : Purge, p.held = tx.held ∧ p.log = tx.log ∧ p.Underway t s ∧ (∀ b, Sweep t p b (tx.writes b)) ∧
    Purges t (fun _ p => p.Done t) p tx.rest

theorem Sweep.refl (t : Nat) (s : State) : Sweep t {} s s where
  organizations := rfl
  members _ h := h
  kept _ h := .inl h
  removed := nofun
  tokens _ token h := ⟨token, h, rfl, id⟩
  keyed _ _ h := h
  users h := h
  gone := nofun

variable {s : State} {tx : Request} {i : Statement} {rest : i.Answer → Transaction Unit}

theorem Bystanding.execute (h : Bystanding t s tx)
    (hrest : tx.rest = .call i rest) : Bystanding t s (tx.execute store s i rest) := by
  obtain ⟨stage, hheld, hknows, hlocked, hmild, hfollows⟩ := h
  rw [hrest] at hfollows
  obtain ⟨next, hmoves, hnext⟩ := hfollows s (tx.writes s) ⟨hknows, hlocked, hmild s hknows⟩
  refine ⟨next, hmoves.held.trans (by rw [hheld]; rfl), hmoves.knows, hmoves.locked, fun b hb => ?_, hnext⟩
  have hbefore := hmild b ⟨fun o ho => hb.members o (hmoves.members ho), fun x hx => hb.tokens x (hmoves.tokens hx)⟩
  have hsub : stage.held ⊆ next.held := hmoves.held ▸ subset_append_right _ _
  refine (hbefore.mono hsub hmoves.joined).trans (hmoves.effect _ ?_)
  exact hb.of_mild (hbefore.mono hsub hmoves.joined)

theorem Purging.execute (h : Purging t s tx)
    (hrest : tx.rest = .call i rest) : Purging t s (tx.execute store s i rest) := by
  obtain ⟨p, hheld, hlog, hunderway, hsweep, hfollows⟩ := h
  rw [hrest] at hfollows
  obtain ⟨next, hmoves, hnext⟩ := hfollows s (tx.writes s) ⟨hunderway, hsweep s⟩
  refine ⟨next, hmoves.held.trans (by rw [hheld]; rfl), hmoves.log.trans (by rw [hlog]; rfl),
    hmoves.underway, fun b => ?_, hnext⟩
  exact hmoves.effect b (tx.writes b) (hsweep b)

theorem Purging.done (h : Purging t s tx) (hcommit : ∃ a, tx.rest = .ret a ∧ (service config).commits a = true) :
    ∃ p : Purge, p.held = tx.held ∧ p.Underway t s ∧ (∀ b, Sweep t p b (tx.writes b)) ∧ p.Done t := by
  obtain ⟨p, hheld, -, hunderway, hsweep, hfollows⟩ := h
  obtain ⟨a, hrest, ha⟩ := hcommit
  rw [hrest] at hfollows
  cases a with
  | ok => exact ⟨p, hheld, hunderway, hsweep, hfollows⟩
  | error => cases ha

def Minds (t : Nat) (s : State) (call : Call) (tx : Request) : Prop :=
  if call.deletes t then Purging t s tx else Bystanding t s tx

theorem minds_begin (s : State) (call : Call) : Minds t s call { rest := call.code config } := by
  unfold Minds
  split_ifs with hdeletes
  · cases call with
    | deleteUserAccount operatorUserId u now =>
      obtain rfl : u = t := of_decide_eq_true hdeletes
      refine ⟨{}, rfl, rfl, ⟨.inl rfl, nofun, nofun, nofun, nofun, nofun⟩, .refl u, ?_⟩
      exact purges_deleteUserAccount operatorUserId now
    | _ => cases hdeletes
  · refine ⟨{}, rfl, ⟨nofun, nofun⟩, ⟨nofun, nofun⟩, fun b _ => .refl t [] [] b,
      bystands_code config call fun operatorUserId now h => ?_⟩
    rw [h] at hdeletes
    exact hdeletes (decide_eq_true rfl)

theorem minds_commit {w : Requests} {j : Nat} {call : Call} (hsafe : joinsSafely w (.advance j) = true)
    (hj : w.slots[j]? = some (.running call tx)) (hcommit : ∃ a, tx.rest = .ret a ∧ (service config).commits a = true)
    (hminds : Minds t w.db call tx) {k : Nat} {call' : Call} {tx' : Request}
    (hk : w.slots[k]? = some (.running call' tx')) (hother : ∀ l ∈ tx.held, l ∉ tx'.held) (h : Minds t w.db call' tx') :
    Minds t (tx.writes w.db) call' tx' := by
  unfold Minds at hminds h ⊢
  by_cases hdeletes' : call'.deletes t = true
  · rw [if_pos hdeletes'] at h ⊢
    obtain ⟨p', hheld', hlog', hunderway', hsweep', hfollows'⟩ := h
    refine ⟨p', hheld', hlog', ?_, hsweep', hfollows'⟩
    by_cases hdeletes : call.deletes t = true
    · rw [if_pos hdeletes] at hminds
      -- both have locked the user, unless the open one has just begun
      obtain ⟨p, hheld, hunderway, -, hdone⟩ := hminds.done hcommit
      obtain hstart | hstart := hunderway'.start
      · subst hstart
        exact ⟨.inl rfl, nofun, nofun, nofun, nofun, nofun⟩
      · exact absurd (hheld' ▸ hstart) (hother _ (hheld ▸ hdone.user))
    · rw [if_neg hdeletes] at hminds
      obtain ⟨stage, hheld, hknows, hlocked, hmild, -⟩ := hminds
      refine hunderway'.of_mild (hmild w.db hknows) hlocked.joined (fun l hl => ?_) fun hread o ho hnew => ?_
      · rw [hheld']
        exact hother l (hheld ▸ hl)
      · rw [hlog'] at hread ⊢
        exact found_of_mayJoin (mayJoin_of_commit hsafe hj hcommit ho hnew) hk hdeletes' hread
  · rw [if_neg hdeletes'] at h ⊢
    obtain ⟨stage', hheld', hknows', hlocked', hmild', hfollows'⟩ := h
    refine ⟨stage', hheld', ?_, hlocked', hmild', hfollows'⟩
    by_cases hdeletes : call.deletes t = true
    · rw [if_pos hdeletes] at hminds
      obtain ⟨p, hheld, hunderway, hsweep, -⟩ := hminds.done hcommit
      refine hknows'.of_sweep hlocked' (hsweep w.db) hunderway.removed fun l hl => ?_
      rw [hheld']
      exact hother l (hheld ▸ hl)
    · rw [if_neg hdeletes] at hminds
      obtain ⟨_, -, hknows, -, hmild, -⟩ := hminds
      exact hknows'.of_mild (hmild w.db hknows)

def guard (config : Config) (t : Nat) : Guard (service config) where
  good := Minds t
  allows w e := joinsSafely w e = true
  begins s call := minds_begin s call
  executes s call tx i rest h hrest := by
    unfold Minds at h ⊢
    split_ifs at h ⊢
    · exact Purging.execute h hrest
    · exact Bystanding.execute h hrest
  commits w j call tx hsafe hj hcommit hminds k call' tx' hk hother h :=
    minds_commit hsafe hj hcommit hminds hk hother h

end Guard

/-! ## The runs -/

section Runs

variable {config : Config} {t : Nat}

def DeletedBy (w : Requests) (t : Nat) : Prop :=
  ∃ (j operatorUserId : Nat) (now : Int), w.slots[j]? = some
    (.ended (.deleteUserAccount operatorUserId t now) (some (.ok ())))

instance DeletedBy.decidable (w : Requests) (t : Nat) : Decidable (DeletedBy w t) :=
  decidable_of_iff (∃ slot ∈ w.slots, (match slot with
    | .ended (.deleteUserAccount _ u _) (some (.ok ())) => decide (u = t)
    | _ => false) = true) <| by
    constructor
    · rintro ⟨slot, hmem, hslot⟩
      obtain ⟨j, hj⟩ := mem_iff_getElem?.mp hmem
      split at hslot
      · rename_i operatorUserId u now
        exact ⟨j, operatorUserId, now, of_decide_eq_true hslot ▸ hj⟩
      · cases hslot
    · rintro ⟨j, operatorUserId, now, hj⟩
      exact ⟨_, mem_of_getElem? hj, decide_eq_true rfl⟩

def finished (w : Requests) : Bool :=
  w.slots.all fun
    | .running _ _ => false
    | .ended _ _ => true

def Clean (s : State) (t : Nat) : Prop := s.users.get? t = none ∧ ∀ o, ¬Refers s o t

theorem Clean.of_mild {s s' : State} {held : List Row} {joined : List Nat} (h : Clean s t)
    (hmild : Mild t held joined s s')
    (hnew : ∀ o, HasMember s' o t → ¬HasMember s o t → False) : Clean s' t := by
  have hmember (o : Nat) : ¬HasMember s' o t := fun ho => by
    by_cases hbefore : HasMember s o t
    · exact h.2 o (.inl hbefore)
    · exact hnew o ho hbefore
  refine ⟨by simpa [h.1] using hmild.user, fun o hrefers => ?_⟩
  obtain ho | ⟨organization, hget, hstatus, hrefers⟩ := hrefers
  · exact hmember o ho
  obtain ⟨before, hbefore, hsame⟩ := hmild.status o organization hget
  rw [← hsame] at hstatus
  obtain howner | hkeyed := hrefers
  · obtain ⟨_, hbefore', howner⟩ := (hmild.owner o ⟨organization, hget, howner⟩).resolve_right fun h => hmember o h.2
    obtain rfl := Option.mem_unique hbefore hbefore'
    exact h.2 o (.inr ⟨before, hbefore, hstatus, .inl howner⟩)
  · have hkeyed := (hmild.key o hkeyed).resolve_right fun h => hmember o h.2
    exact h.2 o (.inr ⟨before, hbefore, hstatus, .inr hkeyed⟩)

structure Tidy (config : Config) (t : Nat) (w : Requests) : Prop where
  guarded : (guard config t).Holds w
  clean : DeletedBy w t → Clean w.db t

variable {w : Requests} {e : Transactions.Event Call}

theorem Tidy.step (h : Tidy config t w) (hsafe : joinsSafely w e = true) :
    Tidy config t ((service config).step w e) := by
  refine ⟨h.guarded.step hsafe, ?_⟩
  have hcase := (service config).step_cases w e
  generalize (service config).step w e = w' at hcase ⊢
  cases hcase with
  | same => exact h.clean
  | began =>
    rintro ⟨j, operatorUserId, now, hj⟩
    refine h.clean ⟨j, operatorUserId, now, ?_⟩
    rw [List.getElem?_append] at hj
    split_ifs at hj
    · exact hj
    · obtain ⟨_, heq⟩ := List.getElem?_eq_some_iff.mp hj
      simp at heq
  | stepped =>
    rintro ⟨k, operatorUserId, now, hk⟩
    refine h.clean ⟨k, operatorUserId, now, ?_⟩
    rw [List.getElem?_set] at hk
    split_ifs at hk
    · cases hk
    · exact hk
  | closed j _ _ _ _ hfailed =>
    rintro ⟨k, operatorUserId, now, hk⟩
    refine h.clean ⟨k, operatorUserId, now, ?_⟩
    rw [List.getElem?_set] at hk
    split_ifs at hk
    · cases hk
      cases hfailed _ rfl
    · exact hk
  | committed j call tx a he hj hrest ha =>
    subst he
    rintro ⟨k, operatorUserId, now, hk⟩
    have hcommit : ∃ a, tx.rest = .ret a ∧ (service config).commits a = true := ⟨a, hrest, ha⟩
    have hminds : Minds t w.db call tx := h.guarded.good j call tx hj
    unfold Minds at hminds
    rw [List.getElem?_set] at hk
    by_cases hdeletes : call.deletes t = true
    · rw [if_pos hdeletes] at hminds
      obtain ⟨p, -, hunderway, hsweep, hdone⟩ := hminds.done hcommit
      exact hdone.clean hunderway (hsweep w.db)
    · rw [if_neg hdeletes] at hminds
      obtain ⟨_, -, hknows, -, hmild, -⟩ := hminds
      split_ifs at hk
      · cases hk
        exact absurd (decide_eq_true rfl) hdeletes
      · have hclean := h.clean ⟨k, operatorUserId, now, hk⟩
        refine hclean.of_mild (hmild w.db hknows) fun o ho hnew => ?_
        have hmay := mayJoin_of_commit hsafe hj hcommit ho hnew
        simp [mayJoin, hclean.1] at hmay

theorem db_of_not_ok {j : Nat} {call : Call} {tx : Request} (hj : w.slots[j]? = some (.running call tx))
    (he : e = .advance j ∨ e = .abort j)
    (hfailed : ((service config).step w e).slots[j]? ≠ some (.ended call (some (.ok ())))) :
    ((service config).step w e).db = w.db := by
  have hcase := (service config).step_cases w e
  generalize (service config).step w e = w' at hcase hfailed ⊢
  cases hcase with
  | committed k call' _ a hk hslot _ ha =>
    obtain rfl : k = j := by
      obtain rfl | rfl := he
      · exact (Transactions.Event.advance.inj hk).symm
      · cases hk
    obtain rfl : call' = call := by
      rw [hj] at hslot
      cases hslot
      rfl
    cases a with
    | ok => exact absurd (by rw [List.getElem?_set_self' , hj]; rfl) hfailed
    | error => cases ha
  | _ => rfl

/-- The deletion among the other operations: in every run whose commits add member rows safely, nothing refers to a user
whose deletion has committed, and a deletion that fails changes nothing. -/
theorem deletion_leaves_no_reference (config : Config) (s : State) (l : List (Transactions.Event Call))
    (h : Along (service config).step (fun w e => joinsSafely w e = true) { db := s } l) (t : Nat) :
    (DeletedBy (run (service config).step { db := s } l) t → Clean (run (service config).step { db := s } l).db t) ∧
      ∀ (j operatorUserId : Nat) (now : Int) (tx : Request) (e : Transactions.Event Call),
        (run (service config).step { db := s } l).slots[j]? = some
          (.running (.deleteUserAccount operatorUserId t now) tx) →
        e = .advance j ∨ e = .abort j →
        ((service config).step (run (service config).step { db := s } l) e).slots[j]? ≠
          some (.ended (.deleteUserAccount operatorUserId t now) (some (.ok ()))) →
        ((service config).step (run (service config).step { db := s } l) e).db =
          (run (service config).step { db := s } l).db := by
  have hstart : Tidy config t { db := s } := ⟨(guard config t).holds_start s, fun ⟨_, _, _, hj⟩ => by cases hj⟩
  have htidy : Tidy config t (run (service config).step { db := s } l) :=
    run_invariant (fun _ _ hw hsafe => hw.step hsafe) hstart h
  exact ⟨htidy.clean, fun j operatorUserId now tx e hj he hfailed => db_of_not_ok hj he hfailed⟩

end Runs

/-! ## A member row that comes too late -/

def acme : State :=
  (run (Organization.System.step sampleConfig) { users := sampleUsers } [.createOrganization 1 "acme" "acme"]).toState

/-- The administrator adds the second user, and then deletes his account. -/
def addsBeforeDeleted : List (Transactions.Event Call) :=
  [.begin (.addOrganizationMember ⟨3, 1, .admin⟩ 2 .unset)] ++ List.replicate 20 (.advance 0) ++
    [.begin (.deleteUserAccount 3 2 5)] ++ List.replicate 30 (.advance 1)

theorem addsBeforeDeleted_clean : Clean (run (service sampleConfig).step { db := acme } addsBeforeDeleted).db 2 :=
  (deletion_leaves_no_reference sampleConfig acme addsBeforeDeleted (by decide +kernel) 2).1 (by decide +kernel)

/-- The account is deleted after the user has been read and before his member row is written. -/
def addsWhileDeleted : List (Transactions.Event Call) :=
  [.begin (.addOrganizationMember ⟨3, 1, .admin⟩ 2 .unset)] ++ List.replicate 4 (.advance 0) ++
    [.begin (.deleteUserAccount 3 2 5)] ++ List.replicate 30 (.advance 1) ++ List.replicate 20 (.advance 0)

theorem member_outlives_account : ¬∀ (config : Config) (s : State) (l : List (Transactions.Event Call)) (t : Nat),
    finished (run (service config).step { db := s } l) = true → DeletedBy (run (service config).step { db := s } l) t →
    Clean (run (service config).step { db := s } l).db t := by
  intro h
  have hclean := h sampleConfig acme addsWhileDeleted 2 (by decide +kernel) (by decide +kernel)
  have hmember :
    ((run (service sampleConfig).step { db := acme } addsWhileDeleted).db.members.find? (1, 2)).isSome = true := by
    decide +kernel
  exact hclean.2 1 (.inl hmember)

end CubeRouter.Organization.Deletion
