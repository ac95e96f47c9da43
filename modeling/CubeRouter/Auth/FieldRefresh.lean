import CubeRouter.Auth.SecurityChange

/-!
# Group and discount changes reach the user cache

A refresh reads the row again behind every write, so that among refreshes the last write is always mended: a value
that is not the row's is in the hash only while some refresh still has to write (`Mends`). A fill does not look again.
Where the snapshot that it writes is no longer the row's, it depends on a refresh that is still under way.
-/

namespace CubeRouter.Auth.UserCache

open Concurrency Expiring Transition

/-- A refresh that did not return nil. Where the change itself was rolled back there was no refresh. -/
def Answer.RefreshFailed (a : Answer) : Prop := ∃ e, a = .refreshed (some e) ∧ e ≠ .transaction

/-- While the field of the row is `v`, the call goes on to write it, or fails. -/
def Mends (f : Field) (v : String) : Call Answer → Prop
  | .ret a => a.RefreshFailed
  | .call .readRow rest => ∀ row, f.get row = v → Mends f v (rest row)
  | .call (.writeField g w _) rest =>
    g = f ∧ (w ≠ v → Mends f v (rest .applied)) ∧ Mends f v (rest .failed) ∧ Mends f v (rest .refused)
  | .call _ _ => False

/-- What a call on its way may still do: write the hash at the version of the row, mend what it writes to a field, and
mend the field that it changes. -/
def Diligent (version : Int) : Call Answer → Prop
  | .ret _ => True
  | .call .now rest => ∀ r, Diligent version (rest r)
  | .call .readHash rest => ∀ r, Diligent version (rest r)
  | .call .readFloor rest => ∀ r, Diligent version (rest r)
  | .call .readRow rest => ∀ row, row.authVersion = version → Diligent version (rest row)
  | .call (.writeCache user _) rest => user.authVersion = version ∧ ∀ r, Diligent version (rest r)
  | .call (.writeField f w n) rest =>
    n = version ∧ (∀ v, w ≠ v → Mends f v (rest .applied)) ∧
      (∀ v, Mends f v (rest .failed) ∧ Mends f v (rest .refused)) ∧
      ∀ r, Diligent version (rest r)
  | .call (.update none g) rest =>
    (∀ row row', g row = some row' → ∃ f value, row' = f.set value row ∧ Mends f value (rest (.done row'))) ∧
      ∀ r, Diligent version (rest r)
  | .call (.update (some _) _) _ => False
  | .call (.setFence _) _ => False
  | .call (.publish _) _ => False
  | .call .deleteHash _ => False

/-! ## The calls -/

variable {version : Int} {hash next : String → String}

theorem refreshFailed_of_ne {e : CacheError} (he : e ≠ .transaction) : (Answer.refreshed (some e)).RefreshFailed :=
  ⟨e, rfl, he⟩

/-- A refresh about to write mends whatever it has read: when it finds the row different it writes again. -/
theorem mends_refreshRounds (f : Field) (v : String) (rounds : Nat) (authoritative : UserBase) :
    Mends f v (refreshRounds f rounds authoritative >>= fun r => .ret (.refreshed r)) := by
  induction rounds generalizing authoritative with
  | zero =>
    unfold refreshRounds updateUserCacheFieldAtVersion
    split
    · exact refreshFailed_of_ne (by decide)
    · exact ⟨rfl, fun _ => refreshFailed_of_ne (by decide), refreshFailed_of_ne (by decide),
        refreshFailed_of_ne (by decide)⟩
  | succ _ ih =>
    unfold refreshRounds updateUserCacheFieldAtVersion
    simp only [perform_bind]
    split
    · exact refreshFailed_of_ne (by decide)
    · refine ⟨rfl, fun hother row hrow => ?_, refreshFailed_of_ne (by decide), refreshFailed_of_ne (by decide)⟩
      have hdiffers : ¬(row.authVersion = authoritative.authVersion ∧ f.get row = f.get authoritative) :=
        fun hsame => hother (hsame.2.symm.trans hrow)
      simp only [hdiffers]
      exact ih row

theorem diligent_refreshRounds (f : Field) (rounds : Nat) {authoritative : UserBase}
    (hversion : authoritative.authVersion = version) :
    Diligent version (refreshRounds f rounds authoritative >>= fun r => .ret (.refreshed r)) := by
  induction rounds generalizing authoritative with
  | zero =>
    have hmends := fun v => mends_refreshRounds f v 0 authoritative
    unfold refreshRounds updateUserCacheFieldAtVersion at hmends ⊢
    split
    · trivial
    · rename_i hpositive
      simp only [hpositive] at hmends
      refine ⟨hversion, fun v => (hmends v).2.1, fun v => (hmends v).2.2, fun r => ?_⟩
      cases r <;> trivial
  | succ rounds ih =>
    have hmends := fun v => mends_refreshRounds f v (rounds + 1) authoritative
    unfold refreshRounds updateUserCacheFieldAtVersion at hmends ⊢
    simp only [perform_bind] at hmends ⊢
    split
    · trivial
    · rename_i hpositive
      simp only [hpositive] at hmends
      refine ⟨hversion, fun v => (hmends v).2.1, fun v => (hmends v).2.2, fun r => ?_⟩
      cases r with
      | failed => trivial
      | refused => trivial
      | applied =>
        intro row hrow
        dsimp only
        split
        · trivial
        · exact ih hrow

/-- The requests in question: fills, changes of a field, refreshes. -/
def Request.Plain : Request → Prop
  | .load | .refreshField _ | .changeField _ _ => True
  | _ => False

instance (b : Request) : Decidable b.Plain :=
  match b with
  | .load | .refreshField _ | .changeField _ _ => .isTrue trivial
  | .changeSecurity _ _ | .validate _ _ | .refresh _ _ _ _ => .isFalse id

theorem diligent_refreshUserField {f : Field} :
    Diligent version (refreshUserField f >>= fun r => .ret (.refreshed r)) :=
    fun _ hrow => diligent_refreshRounds f 3 hrow

theorem mends_refreshUserField {f : Field} {v : String} :
    Mends f v (refreshUserField f >>= fun r => .ret (.refreshed r)) := fun row _ => mends_refreshRounds f v 3 row

variable {user : UserBase} {i : Instr} {w : Choice}

theorem diligent_fillUserCache (hversion : user.authVersion = version) :
    Diligent version (fillUserCache user >>= fun r => .ret (.loaded r)) := by
  unfold fillUserCache writeUserCache
  split
  · trivial
  · refine ⟨hversion, fun r => ?_⟩
    cases r <;> trivial

theorem diligent_readThrough :
    Diligent version ((do
      let user ← readRow
      match ← readFloor with
      | some floor => if user.authVersion < floor then return .error .pending else fillUserCache user
      | none => fillUserCache user : Call (Except CacheError UserBase)) >>= fun r => .ret (.loaded r)) := by
  simp only [perform_bind]
  intro user huser floor
  cases floor with
  | none => exact diligent_fillUserCache huser
  | some =>
    dsimp only
    split
    · trivial
    · exact diligent_fillUserCache huser

theorem diligent_getUserCache : Diligent version (getUserCache >>= fun r => .ret (.loaded r)) := by
  unfold getUserCache cacheGetUserBase
  simp only [perform_bind]
  intro found
  cases found with
  | failed | missing => exact diligent_readThrough
  | found =>
    dsimp only
    split
    · exact diligent_readThrough
    · intro floor
      cases floor with
      | none => exact diligent_readThrough
      | some =>
        dsimp only
        split
        · exact diligent_readThrough
        · trivial

theorem diligent_changeField {f : Field} {value : String} :
    Diligent version (changeField f value >>= fun r => .ret (.refreshed r)) := by
  refine ⟨fun row row' hrow => ?_, fun r => ?_⟩
  · cases hrow
    exact ⟨f, value, rfl, mends_refreshUserField⟩
  · cases r with
    | done => exact diligent_refreshUserField
    | conflict | rolledBack => trivial

theorem diligent_call {b : Request} (hb : b.Plain) : Diligent version (b.call hash next) := by
  cases b with
  | load => exact diligent_getUserCache
  | refreshField f => exact diligent_refreshUserField
  | changeField f value => exact diligent_changeField
  | changeSecurity | validate | refresh => exact hb.elim

/-! ## One step -/

/-- What is cached of the field is what the row has. -/
def Fresh (f : Field) (s : Store) : Prop := ∀ user, live s.clock s.hash = some user → f.get user = f.get s.row

/-- The row and the hash are at the version. -/
structure At (version : Int) (s : Store) : Prop where
  row : s.row.authVersion = version
  hash : ∀ k, s.hash = some k → k.value.authVersion = version

variable {cacheSeconds : Int} {s s' : Store} {f : Field}

variable (cacheSeconds) in
theorem writeCache_at (h : At version s) (huser : user.authVersion = version) (includeQuota : Bool) :
    At version (s.writeCache cacheSeconds user includeQuota).2 ∧
      (s.writeCache cacheSeconds user includeQuota).2.row = s.row ∧
      ∀ f, Fresh f s → f.get user = f.get s.row → Fresh f (s.writeCache cacheSeconds user includeQuota).2 := by
  unfold Store.writeCache
  split_ifs
  · exact ⟨h, rfl, fun _ hfresh _ => hfresh⟩
  · exact ⟨⟨h.row, h.hash⟩, rfl, fun _ hfresh _ => hfresh⟩
  · refine ⟨⟨h.row, fun k hk => ?_⟩, rfl, fun f _ hsame cached hcached => ?_⟩
    · obtain ⟨-, rfl⟩ := put_eq_some_iff.mp hk
      exact huser
    · obtain ⟨k, hk, -, rfl⟩ := live_eq_some_iff.mp hcached
      obtain ⟨-, rfl⟩ := put_eq_some_iff.mp hk
      exact hsame

theorem writeField_at (h : At version s) {g : Field} {w : String} :
    At version (s.writeField g w version).2 ∧ (s.writeField g w version).2.row = s.row ∧
      (∀ f, f ≠ g → Fresh f s → Fresh f (s.writeField g w version).2) ∧
      ((s.writeField g w version).1 = .applied → w = g.get s.row → Fresh g (s.writeField g w version).2) := by
  unfold Store.writeField
  split_ifs
  · exact ⟨h, rfl, fun _ _ hfresh => hfresh, fun hrefused => by cases hrefused⟩
  · split
    · rename_i k hk
      have hversion := h.hash k hk
      split_ifs with hlive
      · refine ⟨⟨h.row, fun k' hk' => ?_⟩, rfl, fun f hother hfresh user huser => ?_, fun _ hsame user huser => ?_⟩
        · cases hk'
          simpa using hversion
        · obtain ⟨k', hk', -, rfl⟩ := live_eq_some_iff.mp huser
          cases hk'
          simp only [Field.get_set_of_ne hother]
          exact hfresh k.value (live_eq_some_iff.mpr ⟨k, hk, hlive.1, rfl⟩)
        · obtain ⟨_, hk', -, rfl⟩ := live_eq_some_iff.mp huser
          cases hk'
          exact (Field.get_set g w k.value).trans hsame
      · have hgone (x : Key UserBase) (hx : s.hash = some x) : ¬s.clock ≤ x.expires := by
          cases hk.symm.trans hx
          exact fun hle => hlive ⟨hle, hversion⟩
        refine ⟨⟨h.row, h.hash⟩, rfl, fun _ _ hfresh => hfresh, fun _ _ user huser => ?_⟩
        obtain ⟨x, hx, hle, -⟩ := live_eq_some_iff.mp huser
        exact absurd hle (hgone x hx)
    · rename_i hnone
      refine ⟨⟨h.row, h.hash⟩, rfl, fun _ _ hfresh => hfresh, fun _ _ user huser => ?_⟩
      obtain ⟨x, hx, -, -⟩ := live_eq_some_iff.mp huser
      exact absurd (hnone.symm.trans hx) (by simp)

/-- A fill is about to write a value that the row no longer has. -/
def Stale (f : Field) (w : Choice) (s : Store) : Instr → Prop
  | .writeCache user _ => w.redis ≠ .failed ∧ f.get user ≠ f.get s.row
  | _ => False

instance (f : Field) (w : Choice) (s : Store) : DecidablePred (Stale f w s)
  | .writeCache user _ => inferInstanceAs (Decidable (w.redis ≠ .failed ∧ f.get user ≠ f.get s.row))
  | .now | .readRow | .readHash | .readFloor | .writeField _ _ _ | .setFence _
  | .publish _ | .deleteHash | .update _ _ =>
    .isFalse id

/-- What a step means for a field: the hash has the row's value, or the call itself goes on to write it, or what the
hash has is as good as before and the call was not the one that had to write. -/
def Handled (f : Field) (i : Instr) (rest : i.Answer → Call Answer) (w : Choice) (s : Store)
    (r : i.Answer × Store) : Prop :=
  Fresh f r.2 ∨ Mends f (f.get r.2.row) (rest r.1) ∨
    f.get r.2.row = f.get s.row ∧ ¬Mends f (f.get s.row) (.call i rest) ∧ (Fresh f s → Fresh f r.2 ∨ Stale f w s i)

theorem handled_same {rest : i.Answer → Call Answer} {r : i.Answer × Store} (hsame : r.2 = s)
    (hmends : ¬Mends f (f.get s.row) (.call i rest)) : Handled f i rest w s r :=
  .inr (.inr ⟨hsame ▸ rfl, hmends, fun hfresh => .inl (hsame ▸ hfresh)⟩)

theorem writeCache_handled (h : At version s) {includeQuota : Bool} {rest : Reply → Call Answer}
    (hd : Diligent version (.call (.writeCache user includeQuota) rest)) :
    At version (reach w.redis Reply.failed (s.writeCache cacheSeconds user includeQuota) s).2 ∧ ∀ f,
      Handled f (.writeCache user includeQuota) rest w s
      (reach w.redis .failed (s.writeCache cacheSeconds user includeQuota) s) := by
  obtain ⟨hat, hrow, hfresh⟩ := writeCache_at cacheSeconds h hd.1 includeQuota
  have hwritten (f : Field) (hfate : w.redis ≠ .failed) (r : Reply) : Handled f (.writeCache user includeQuota) rest w s
      (r, (s.writeCache cacheSeconds user includeQuota).2) := by
    refine .inr (.inr ⟨congrArg f.get hrow, id, fun hold => ?_⟩)
    by_cases hsame : f.get user = f.get s.row
    · exact .inl (hfresh f hold hsame)
    · exact .inr ⟨hfate, hsame⟩
  cases hw : w.redis with
  | done | lost => exact ⟨hat, fun f => hwritten f (by simp [hw]) _⟩
  | failed => exact ⟨h, fun f => handled_same rfl id⟩

theorem writeField_handled (h : At version s) {g : Field} {value : String} {n : Int} {rest : Reply → Call Answer}
    (hd : Diligent version (.call (.writeField g value n) rest)) :
    At version (reach w.redis Reply.failed (s.writeField g value n) s).2 ∧ ∀ f,
      Handled f (.writeField g value n) rest w s (reach w.redis .failed (s.writeField g value n) s) := by
  obtain ⟨rfl, happlied, hmends, -⟩ := hd
  obtain ⟨hat, hrow, hother, hwritten⟩ := writeField_at h
  have hunwritten (r : Reply) (hr : r ≠ .applied) (v : String) : Mends g v (rest r) := by
    cases r with
    | failed => exact (hmends v).1
    | refused => exact (hmends v).2
    | applied => exact absurd rfl hr
  have helse (f : Field) (hne : f ≠ g) (r : Reply) :
      Handled f (.writeField g value n) rest w s (r, (s.writeField g value n).2) :=
    .inr (.inr ⟨congrArg f.get hrow, fun hmends => hne hmends.1.symm, fun hold => .inl (hother f hne hold)⟩)
  unfold reach
  cases w.redis with
  | failed =>
    refine ⟨h, fun f => ?_⟩
    by_cases hf : f = g
    · subst hf
      exact .inr (.inl (hunwritten .failed (by simp) _))
    · exact handled_same rfl fun hmends => hf hmends.1.symm
  | lost =>
    refine ⟨hat, fun f => ?_⟩
    by_cases hf : f = g
    · subst hf
      exact .inr (.inl (hunwritten .failed (by simp) _))
    · exact helse f hf _
  | done =>
    refine ⟨hat, fun f => ?_⟩
    by_cases hf : f = g
    · subst hf
      by_cases hr : (s.writeField f value n).1 = .applied
      · by_cases hsame : value = f.get s.row
        · exact .inl (hwritten hr hsame)
        · refine .inr (.inl ?_)
          rw [hr, hrow]
          exact happlied _ hsame
      · exact .inr (.inl (hunwritten _ hr _))
    · exact helse f hf _

theorem update_handled (h : At version s) {g : UserBase → Option UserBase} {rest : Committed → Call Answer}
    (hd : Diligent version (.call (.update none g) rest)) : At version (exec cacheSeconds (.update none g) w s).2 ∧
      ∀ f, Handled f (.update none g) rest w s (exec cacheSeconds (.update none g) w s) := by
  simp only [exec]
  split
  · exact ⟨h, fun f => handled_same rfl id⟩
  · rename_i row hrow
    split_ifs
    · obtain ⟨g, value, rfl, hmends⟩ := hd.1 _ _ hrow
      have hsave : s.save none (g.set value s.row) = { s with row := g.set value s.row } := by
        simp [Store.save]
      rw [hsave]
      refine ⟨⟨by simpa using h.row, h.hash⟩, fun f => ?_⟩
      by_cases hf : f = g
      · subst hf
        refine .inr (.inl ?_)
        simpa using hmends
      · have hkept : f.get (g.set value s.row) = f.get s.row := Field.get_set_of_ne hf value s.row
        exact .inr (.inr ⟨hkept, id, fun hold => .inl fun user huser => (hold user huser).trans hkept.symm⟩)
    · exact ⟨h, fun f => handled_same rfl id⟩

theorem call_step (h : At version s) {rest : i.Answer → Call Answer}
    (hd : Diligent version (.call i rest)) (w : Choice) :
    At version (exec cacheSeconds i w s).2 ∧ Diligent version (rest (exec cacheSeconds i w s).1) ∧
      ∀ f, Handled f i rest w s (exec cacheSeconds i w s) := by
  cases i with
  | now => exact ⟨h, hd _, fun f => handled_same rfl id⟩
  | readRow =>
    refine ⟨h, hd s.row h.row, fun f => ?_⟩
    by_cases hmends : Mends f (f.get s.row) (.call .readRow rest)
    · exact .inr (.inl (hmends s.row rfl))
    · exact handled_same rfl hmends
  | readHash =>
    have hsame : (exec cacheSeconds .readHash w s).2 = s := by
      unfold exec
      dsimp only
      split <;> rfl
    exact ⟨hsame.symm ▸ h, hd _, fun f => handled_same hsame id⟩
  | readFloor => exact ⟨h, hd _, fun f => handled_same rfl id⟩
  | writeCache =>
    obtain ⟨hat, hhandled⟩ := writeCache_handled (w := w) h hd
    exact ⟨hat, hd.2 _, hhandled⟩
  | writeField =>
    obtain ⟨hat, hhandled⟩ := writeField_handled (w := w) h hd
    exact ⟨hat, hd.2.2.2 _, hhandled⟩
  | update fencedUntil =>
    cases fencedUntil with
    | some => exact hd.elim
    | none =>
      obtain ⟨hat, hhandled⟩ := update_handled (w := w) h hd
      exact ⟨hat, hd.2 _, hhandled⟩
  | setFence | publish | deleteHash => exact hd.elim

/-! ## Runs -/

abbrev Requests := Pool Store Instr Instr.Answer Answer

/-- A call that is on its way still has to write what the row has. -/
def Owed (f : Field) (p : Requests) : Prop :=
  ∃ (j : Nat) (q : Call Answer), p.calls[j]? = some q ∧ Mends f (f.get p.shared.row) q

def Overwrites (f : Field) (p : Requests) : Event Request Choice Nat → Prop
  | .advance j w => ∃ i ∈ p.next j, Stale f w p.shared i
  | _ => False

instance (f : Field) (p : Requests) : DecidablePred (Overwrites f p)
  | .advance j w => inferInstanceAs (Decidable (∃ i ∈ p.next j, Stale f w p.shared i))
  | .start _ | .env _ => .isFalse id

/-- A fill writes what the row no longer has only while a refresh of the field still has to write. -/
def Orderly (p : Requests) (e : Event Request Choice Nat) : Prop := ∀ f, Overwrites f p e → Owed f p

structure Kept (version : Int) (p : Requests) : Prop where
  store : At version p.shared
  calls : ∀ (j : Nat) q, p.calls[j]? = some q → Diligent version q
  fields : ∀ f, Fresh f p.shared ∨ Owed f p

variable {p : Requests}

theorem kept_advance {j : Nat} {rest : i.Answer → Call Answer} (h : Kept version p)
    (hj : p.calls[j]? = some (.call i rest)) (horderly : ∀ {f}, Stale f w p.shared i → Owed f p) :
    Kept version ⟨(exec cacheSeconds i w p.shared).2, p.calls.set j (rest (exec cacheSeconds i w p.shared).1)⟩ := by
  obtain ⟨hstore, hcall, hhandled⟩ := @call_step version _ cacheSeconds _ h.store _ (h.calls j _ hj) w
  have hlt := (List.getElem?_eq_some_iff.mp hj).1
  have hself : (p.calls.set j (rest (exec cacheSeconds i w p.shared).1))[j]? =
      some (rest (exec cacheSeconds i w p.shared).1) := List.getElem?_set_self hlt
  refine ⟨hstore, fun k q hq => ?_, fun f => ?_⟩
  · by_cases hk : k = j
    · subst hk
      cases hself.symm.trans hq
      exact hcall
    · exact h.calls k q ((List.getElem?_set_ne (Ne.symm hk)).symm.trans hq)
  · rcases hhandled f with hfresh | hmends | ⟨hrow, hnot, hfresh⟩
    · exact .inl hfresh
    · exact .inr ⟨j, _, hself, hmends⟩
    · -- whoever owed it is another call
      have howed (ho : Owed f p) : Owed f
          ⟨(exec cacheSeconds i w p.shared).2, p.calls.set j (rest (exec cacheSeconds i w p.shared).1)⟩ := by
        obtain ⟨k, q, hq, hmends⟩ := ho
        have hk : k ≠ j := by
          rintro rfl
          cases hj.symm.trans hq
          exact hnot hmends
        exact ⟨k, q, (List.getElem?_set_ne (Ne.symm hk)).trans hq, by rwa [hrow]⟩
      rcases h.fields f with hold | hold
      · exact (hfresh hold).imp id fun hstale => howed (horderly hstale)
      · exact .inr (howed hold)

theorem kept_step {e : Event Request Choice Nat} (h : Kept version p) (he : Orderly p e ∧ ∀ b, e = .start b → b.Plain) :
    Kept version ((users cacheSeconds hash next).step p e) := by
  obtain ⟨horderly, hplain⟩ := he
  cases e with
  | start b =>
    refine ⟨h.store, fun j q hq => ?_, fun f => (h.fields f).imp id fun ⟨j, q, hq, hmends⟩ => ?_⟩
    · rcases List.mem_append.mp (List.mem_of_getElem? hq) with hold | hnew
      · obtain ⟨k, hk⟩ := List.getElem?_of_mem hold
        exact h.calls k q hk
      · rw [List.mem_singleton.mp hnew]
        exact diligent_call (hplain b rfl)
    · exact ⟨j, q, (List.getElem?_append_left (List.getElem?_eq_some_iff.mp hq).1).trans hq, hmends⟩
  | env n =>
    refine ⟨⟨h.store.row, h.store.hash⟩, h.calls, fun f => (h.fields f).imp (fun hfresh user huser => ?_) id⟩
    exact hfresh user (live_later huser (Int.le_add_of_nonneg_right (Int.natCast_nonneg n)))
  | advance j =>
    rw [System.step]
    cases hj : p.calls[j]? with
    | none => exact h
    | some q =>
      cases q with
      | ret => exact h
      | call i =>
        have hnext : p.next j = some i := by rw [Pool.next, hj]
        exact kept_advance h hj fun {g} hstale => horderly g ⟨i, hnext, hstale⟩

/-- When all calls have returned and no refresh has failed, the hash has the row's group and model discounts. -/
theorem field_change_reaches_cache (cacheSeconds : Int) (hash next : String → String) (row : UserBase) (clock : Int)
    (l : List (Event Request Choice Nat)) (hplain : ∀ b, .start b ∈ l → b.Plain)
    (horderly : Along (users cacheSeconds hash next).step Orderly (start row clock) l) :
    let p := run (users cacheSeconds hash next).step (start row clock) l
    (∀ q ∈ p.calls, ∃ a, q = .ret a ∧ ¬a.RefreshFailed) →
      ∀ user, live p.shared.clock p.shared.hash = some user →
        user.group = p.shared.row.group ∧ user.modelDiscounts = p.shared.row.modelDiscounts := by
  intro p hreturned user huser
  have hstart : Kept row.authVersion (start row clock) :=
    ⟨⟨rfl, fun k hk => by cases hk⟩, fun j q hq => by simp [start] at hq,
      fun f => .inl fun user huser => by cases huser⟩
  have halong : Along (users cacheSeconds hash next).step (fun p e => Orderly p e ∧ ∀ b, e = .start b → b.Plain)
      (start row clock) l :=
    along_and.mpr ⟨horderly, along_of_forall (P := fun e : Event Request Choice Nat => ∀ b, e = .start b → b.Plain)
      (fun _ he b hb => hplain b (hb ▸ he)) (start row clock)⟩
  have hkept : Kept row.authVersion p := run_invariant (fun _ _ h he => kept_step h he) hstart halong
  have hfresh (f : Field) : f.get user = f.get p.shared.row := by
    rcases hkept.fields f with hfresh | ⟨j, q, hq, hmends⟩
    · exact hfresh user huser
    · obtain ⟨a, rfl, hnot⟩ := hreturned q (List.mem_of_getElem? hq)
      exact absurd hmends hnot
  exact ⟨hfresh .group, hfresh .modelDiscounts⟩

/-! ## A fill that is late -/

def changedMeanwhile : List (Event Request Choice Nat) :=
  [.start .load] ++ turns 0 3 ++ [.start (.changeField .group "vip")] ++ turns 1 1

theorem orderly_of_not_overwrites {e : Event Request Choice Nat}
    (h : ¬Overwrites .group p e ∧ ¬Overwrites .modelDiscounts p e) : Orderly p e
  | .group, ho => absurd ho h.1
  | .modelDiscounts, ho => absurd ho h.2

/-- The reader fills the cache before the refresh writes. -/
theorem field_change_reaches_cache_fill :
    let p := run (users 60 id id).step (start before 0) (changedMeanwhile ++ turns 0 1 ++ turns 1 3)
    ∀ user, live p.shared.clock p.shared.hash = some user →
      user.group = p.shared.row.group ∧ user.modelDiscounts = p.shared.row.modelDiscounts := by
  have hcalm (l : List (Event Request Choice Nat)) (p : Requests)
      (h : Along (users 60 id id).step (fun p e => ¬Overwrites .group p e ∧ ¬Overwrites .modelDiscounts p e) p l) :
      Along (users 60 id id).step Orderly p l := h.imp fun _ _ => orderly_of_not_overwrites
  have hfill : Orderly (run (users 60 id id).step (start before 0) changedMeanwhile) (.advance 0 {})
    | .group, _ => ⟨1, _, rfl, mends_refreshUserField⟩
    | .modelDiscounts, ho => absurd ho (by decide)
  refine field_change_reaches_cache 60 id id before 0 (changedMeanwhile ++ turns 0 1 ++ turns 1 3) (fun b hb => ?_)
    (along_append.mpr ⟨along_append.mpr ⟨hcalm _ _ (by decide), hfill, trivial⟩, hcalm _ _ (by decide)⟩) fun q hq => ?_
  · have hb' : b = .load ∨ b = .changeField .group "vip" := by simpa [changedMeanwhile, turns] using hb
    rcases hb' with rfl | rfl <;> trivial
  · rcases List.mem_pair.mp hq with rfl | rfl
    · exact ⟨_, rfl, fun ⟨e, h, _⟩ => by cases h⟩
    · exact ⟨_, rfl, fun ⟨e, h, _⟩ => by cases h⟩

/-- The same when the refresh has come to its end. -/
theorem late_fill_undoes_change :
    let p := run (users 60 id id).step (start before 0) (changedMeanwhile ++ turns 1 3 ++ turns 0 1)
    (p.calls.all fun q => q matches .ret (.loaded (.ok _)) | .ret (.refreshed none)) ∧ p.shared.row.group = "vip" ∧
      live p.shared.clock p.shared.hash = some before := by
  decide

end CubeRouter.Auth.UserCache
