import CubeRouter.Ledger.Data
import CubeRouter.Lib.Run

/-!
# Token quota inside a billing transaction

`loadTokenForQuotaTx`, `decreaseTokenQuotaTx` and `increaseTokenQuotaTx` of `service/quota.go`. The
flag `unscoped` says whether the transaction handle is `tx.Unscoped()`, which also sees soft-deleted
tokens. Both movements take an optional snapshot of the token's unlimited flag: the ledger passes the
one it stored on the session. Each returns the quota it really moved on `remain_quota`. They read and
write no table but `tokens`, so that is the part of the database they are functions of.
-/

namespace CubeRouter.Ledger

open Relational Transition

/-- The row passes the soft-delete scope and, for an organization request, the token scope filter. -/
def tokenVisible (unscoped : Bool) (relayInfo : RelayInfo) (token : Token) : Bool :=
  (unscoped || !token.deleted) &&
    (relayInfo.scopeType != .organization ||
      (token.scopeType == .organization && token.organizationId == relayInfo.organizationId))

/-- `strings.TrimPrefix(key, "sk-")`. -/
def trimTokenPrefix (key : String) : String :=
  match key.toList with
  | 's' :: 'k' :: '-' :: rest => String.ofList rest
  | _ => key

/-- The lookup of `loadTokenForQuotaTx`: by id when the request has one, else by key. -/
def findTokenForQuota (unscoped : Bool) (tokens : Table Token) (relayInfo : RelayInfo) : Option (Nat × Token) :=
  if relayInfo.tokenId > 0 then
    (tokens.get? relayInfo.tokenId).bind fun token =>
      if tokenVisible unscoped relayInfo token then some (relayInfo.tokenId, token) else none
  else
    tokens.find? fun token =>
      tokenVisible unscoped relayInfo token && token.key == trimTokenPrefix relayInfo.tokenKey

/-- The request names no token: its quota movements leave every token alone. -/
def noToken (relayInfo : RelayInfo) : Prop := relayInfo.tokenId = 0 ∧ relayInfo.tokenKey = ""

instance (relayInfo : RelayInfo) : Decidable (noToken relayInfo) := inferInstanceAs (Decidable (_ ∧ _))

/-- The request after `loadTokenForQuotaTx` has found its token. -/
def RelayInfo.withToken (relayInfo : RelayInfo) (id : Nat) (token : Token) : RelayInfo :=
  { relayInfo with tokenId := id, tokenKey := token.key, tokenUnlimited := token.unlimitedQuota }

def loadTokenForQuotaTx (unscoped : Bool) (tokens : Table Token) (relayInfo : RelayInfo) :
    Except BillingError (RelayInfo × Option (Nat × Token)) :=
  if noToken relayInfo then
    .ok (relayInfo, none)
  else if relayInfo.scopeType = .organization ∧ relayInfo.organizationId = 0 then
    .error .tokenScopeInvalid
  else
    match findTokenForQuota unscoped tokens relayInfo with
    | none => .error .recordNotFound
    | some (id, token) => .ok (relayInfo.withToken id token, some (id, token))

/-- The common body of `decreaseTokenQuotaTx` and `increaseTokenQuotaTx`: `enough` is the balance
check of a limited token, `unlimited` and `limited` the two `UPDATE`s. -/
def moveTokenQuotaTx (unscoped : Bool) (tokens : Table Token) (relayInfo : RelayInfo) (quota : Int)
    (unlimitedQuota : Option Bool) (enough : Token → Bool) (unlimited limited : Token → Token) :
    Except BillingError (Int × RelayInfo × Table Token) :=
  if quota < 0 then
    .error .tokenQuotaNegative
  else if relayInfo.isPlayground ∨ quota = 0 then
    .ok (0, relayInfo, tokens)
  else do
    let (relayInfo, token?) ← loadTokenForQuotaTx unscoped tokens relayInfo
    match token? with
    | none => .ok (0, relayInfo, tokens)
    | some (id, token) =>
      if unlimitedQuota.getD token.unlimitedQuota then
        .ok (0, relayInfo, tokens.modify id unlimited)
      else if !enough token then
        .error .tokenQuotaNotEnough
      else
        .ok (quota, relayInfo, tokens.modify id limited)

def decreaseTokenQuotaTx (now : Int) (unscoped : Bool) (tokens : Table Token) (relayInfo : RelayInfo) (quota : Int)
    (unlimitedQuota : Option Bool) : Except BillingError (Int × RelayInfo × Table Token) :=
  moveTokenQuotaTx unscoped tokens relayInfo quota unlimitedQuota
    (fun token => quota ≤ token.remainQuota)
    (fun t => { t with usedQuota := t.usedQuota + quota, accessedTime := now })
    (fun t => { t with remainQuota := t.remainQuota - quota, usedQuota := t.usedQuota + quota,
                       accessedTime := now })

/-- `CASE WHEN used_quota - ? < 0 THEN 0 ELSE used_quota - ? END`. -/
def usedQuotaFloor (used quota : Int) : Int := if used - quota < 0 then 0 else used - quota

def increaseTokenQuotaTx (now : Int) (unscoped : Bool) (tokens : Table Token) (relayInfo : RelayInfo) (quota : Int)
    (unlimitedQuota : Option Bool) : Except BillingError (Int × RelayInfo × Table Token) :=
  moveTokenQuotaTx unscoped tokens relayInfo quota unlimitedQuota (fun _ => true)
    (fun t => { t with usedQuota := usedQuotaFloor t.usedQuota quota, accessedTime := now })
    (fun t => { t with remainQuota := t.remainQuota + quota,
                       usedQuota := usedQuotaFloor t.usedQuota quota, accessedTime := now })

/-! ## What the two movements do -/

variable {unscoped : Bool} {tokens tokens' : Table Token} {relayInfo relayInfo' : RelayInfo} {quota moved now : Int}
  {snapshot : Option Bool} {enough : Token → Bool} {unlimited limited : Token → Token} {id : Nat} {token : Token}
  {delta : Int}

theorem findTokenForQuota_some (h : findTokenForQuota unscoped tokens relayInfo = some (id, token)) :
    tokens.get? id = some token ∧ tokenVisible unscoped relayInfo token = true ∧
      (0 < relayInfo.tokenId → id = relayInfo.tokenId) := by
  unfold findTokenForQuota at h
  split_ifs at h with hid
  · obtain ⟨t, ht, hv⟩ := Option.bind_eq_some_iff.mp h
    split_ifs at hv with hvis
    cases hv
    exact ⟨ht, hvis, fun _ => rfl⟩
  · obtain ⟨hget, hp⟩ := Table.find?_some h
    rw [Bool.and_eq_true] at hp
    exact ⟨hget, hp.1, fun hpos => absurd hpos hid⟩

theorem loadTokenForQuotaTx_ok {token? : Option (Nat × Token)}
    (h : loadTokenForQuotaTx unscoped tokens relayInfo = .ok (relayInfo', token?)) :
    (token? = none ∧ relayInfo' = relayInfo ∧ noToken relayInfo) ∨
      ∃ id token, token? = some (id, token) ∧ relayInfo' = relayInfo.withToken id token ∧
        findTokenForQuota unscoped tokens relayInfo = some (id, token) := by
  unfold loadTokenForQuotaTx at h
  split_ifs at h with hnone hscope
  · cases h
    exact .inl ⟨rfl, rfl, hnone⟩
  · split at h
    · cases h
    · rename_i id token hfound
      cases h
      exact .inr ⟨id, token, rfl, rfl, hfound⟩

/-- A token movement either leaves the table alone, or changes one token by the update that fits
its unlimited flag, and only a limited token's `remain_quota` moves. -/
theorem moveTokenQuotaTx_ok (h : moveTokenQuotaTx unscoped tokens relayInfo quota snapshot enough unlimited limited =
      .ok (moved, relayInfo', tokens')) :
    (moved = 0 ∧ tokens' = tokens ∧ (relayInfo.isPlayground = true ∨ quota = 0 ∨ noToken relayInfo)) ∨
      ∃ id token, relayInfo.isPlayground = false ∧ 0 < quota ∧
        findTokenForQuota unscoped tokens relayInfo = some (id, token) ∧
        ((snapshot.getD token.unlimitedQuota = true ∧ moved = 0 ∧ tokens' = tokens.modify id unlimited) ∨
          (snapshot.getD token.unlimitedQuota = false ∧ enough token = true ∧ moved = quota ∧
            tokens' = tokens.modify id limited)) := by
  unfold moveTokenQuotaTx at h
  split_ifs at h with hneg hskip
  · cases h
    refine .inl ⟨rfl, rfl, ?_⟩
    rcases hskip with hplay | hzero
    · exact .inl hplay
    · exact .inr (.inl hzero)
  · obtain ⟨⟨_, _⟩, hload, hrest⟩ := bind_eq_ok.mp h
    rcases loadTokenForQuotaTx_ok hload with ⟨rfl, rfl, hno⟩ | ⟨id, token, rfl, rfl, hfound⟩
    · cases hrest
      exact .inl ⟨rfl, rfl, .inr (.inr hno)⟩
    · right
      simp only at hrest
      have hplay : relayInfo.isPlayground = false := by
        by_contra hne
        exact hskip (.inl (by simpa using hne))
      refine ⟨id, token, hplay, by omega, hfound, ?_⟩
      split_ifs at hrest with hunl henough
      · cases hrest
        exact .inl ⟨hunl, rfl, rfl⟩
      · cases hrest
        exact .inr ⟨by simpa using hunl, by simpa using henough, rfl, rfl⟩

theorem moveTokenQuotaTx_relayInfo
    (h : moveTokenQuotaTx unscoped tokens relayInfo quota snapshot enough unlimited limited =
      .ok (moved, relayInfo', tokens')) : relayInfo' = relayInfo ∨
      ∃ id token, relayInfo' = relayInfo.withToken id token ∧ (0 < relayInfo.tokenId → id = relayInfo.tokenId) := by
  unfold moveTokenQuotaTx at h
  split_ifs at h
  · cases h
    exact .inl rfl
  · obtain ⟨⟨r, _⟩, hload, hrest⟩ := bind_eq_ok.mp h
    rcases loadTokenForQuotaTx_ok hload with ⟨rfl, rfl, -⟩ | ⟨id, token, rfl, rfl, hfound⟩
    · cases hrest
      exact .inl rfl
    · refine .inr ⟨id, token, ?_, (findTokenForQuota_some hfound).2.2⟩
      simp only at hrest
      split_ifs at hrest <;> cases hrest <;> rfl

theorem moveTokenQuotaTx_tokenId
    (h : moveTokenQuotaTx unscoped tokens relayInfo quota snapshot enough unlimited limited =
      .ok (moved, relayInfo', tokens')) (hid : 0 < relayInfo.tokenId) : relayInfo'.tokenId = relayInfo.tokenId := by
  rcases moveTokenQuotaTx_relayInfo h with rfl | ⟨_, _, rfl, hsame⟩
  · rfl
  · exact hsame hid

/-! ## The remaining quota of one token -/

def remainOf (tokens : Table Token) (id : Nat) : Option Int :=
  (tokens.get? id).map fun t => t.remainQuota

theorem remainOf_modify {g : Token → Token}
    (hget : tokens.get? id = some token) (hg : ∀ t, (g t).remainQuota = t.remainQuota + delta) (i : Nat) :
    remainOf (tokens.modify id g) i =
      if i = id then (remainOf tokens i).map fun r => r + delta else remainOf tokens i := by
  unfold remainOf
  rw [Table.get?_modify]
  split_ifs with hi
  · subst hi
    simp [hget, hg]
  · rfl

/-- A movement of a limited token named by its id moves that token's `remain_quota` by all of it. -/
theorem moveTokenQuotaTx_limited
    (h : moveTokenQuotaTx unscoped tokens relayInfo quota snapshot enough unlimited limited =
      .ok (moved, relayInfo', tokens')) (hplay : relayInfo.isPlayground = false) (hid : 0 < relayInfo.tokenId)
    (hlim : ∀ token, tokens.get? relayInfo.tokenId = some token → snapshot.getD token.unlimitedQuota = false)
    (hzero : quota = 0 → delta = 0) (hg : ∀ t, (limited t).remainQuota = t.remainQuota + delta) :
    remainOf tokens' relayInfo.tokenId = (remainOf tokens relayInfo.tokenId).map fun r => r + delta := by
  rcases moveTokenQuotaTx_ok h with ⟨-, rfl, hskip⟩ | ⟨_, token, -, -, hfound, hmove⟩
  · have hq : delta = 0 := by
      rcases hskip with hp | hq | hno
      · rw [hplay] at hp
        cases hp
      · exact hzero hq
      · exact absurd hno.1 (by omega)
    simp [hq]
  · obtain ⟨hget, -, hsame⟩ := findTokenForQuota_some hfound
    obtain rfl := hsame hid
    rcases hmove with ⟨hunl, -⟩ | ⟨-, -, -, rfl⟩
    · rw [hlim token hget] at hunl
      cases hunl
    · rw [remainOf_modify hget hg, if_pos rfl]

theorem decreaseTokenQuotaTx_unlimited
    (h : decreaseTokenQuotaTx now unscoped tokens relayInfo quota snapshot = .ok (moved, relayInfo', tokens'))
    {i : Nat} {token' : Token} (hget : tokens'.get? i = some token') :
    ∃ token, tokens.get? i = some token ∧ token.unlimitedQuota = token'.unlimitedQuota := by
  have hmodify : ∀ (j : Nat) (g : Token → Token), tokens' = tokens.modify j g →
      (∀ t, (g t).unlimitedQuota = t.unlimitedQuota) →
      ∃ token, tokens.get? i = some token ∧ token.unlimitedQuota = token'.unlimitedQuota := by
    rintro j g rfl hg
    rw [Table.get?_modify] at hget
    split_ifs at hget
    · obtain ⟨token, htoken, rfl⟩ := Option.map_eq_some_iff.mp hget
      exact ⟨token, htoken, (hg token).symm⟩
    · exact ⟨token', hget, rfl⟩
  rcases moveTokenQuotaTx_ok h with ⟨-, rfl, -⟩ | ⟨id, _, -, -, -, ⟨-, -, htokens⟩ | ⟨-, -, -, htokens⟩⟩
  · exact ⟨token', hget, rfl⟩
  · exact hmodify id _ htokens fun _ => rfl
  · exact hmodify id _ htokens fun _ => rfl

theorem decreaseTokenQuotaTx_limited
    (h : decreaseTokenQuotaTx now unscoped tokens relayInfo quota (some false) = .ok (moved, relayInfo', tokens'))
    (hplay : relayInfo.isPlayground = false) (hid : 0 < relayInfo.tokenId) :
    remainOf tokens' relayInfo.tokenId = (remainOf tokens relayInfo.tokenId).map fun r => r - quota :=
  moveTokenQuotaTx_limited h hplay hid (fun _ _ => rfl) (by omega) fun _ => rfl

theorem increaseTokenQuotaTx_limited
    (h : increaseTokenQuotaTx now unscoped tokens relayInfo quota (some false) = .ok (moved, relayInfo', tokens'))
    (hplay : relayInfo.isPlayground = false) (hid : 0 < relayInfo.tokenId) :
    remainOf tokens' relayInfo.tokenId = (remainOf tokens relayInfo.tokenId).map fun r => r + quota :=
  moveTokenQuotaTx_limited h hplay hid (fun _ _ => rfl) (by omega) fun _ => rfl

end CubeRouter.Ledger
