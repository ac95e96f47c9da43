import CubeRouter.Auth.Session

/-!
# Login credentials

The calls of `service/auth_session.go` that accept an access token or trade a refresh secret. What they ask of the
session and of the account is a parameter, so that each side can be followed with the other one answering anything.
-/

namespace CubeRouter.Auth

open Concurrency

structure AuthIdentity where
  userID : Int
  sessionVersion : Int
  userAuthVersion : Int

/-- What the access token is issued for, and the refresh secret beside it. -/
structure Bundle where
  session : UserSession
  refreshToken : String

def Bundle.identity (b : Bundle) : AuthIdentity := ⟨b.session.userID, b.session.version, b.session.userAuthVersion⟩

inductive RefreshError
  | refreshTokenInvalid
  | loginSessionRevoked
  | refreshRace
  | user
  | issue
  | session (e : SessionError)

structure LoginDeps (ι : Type) (ρ : ι → Type) where
  getUserSessionCached : Prog ι ρ (Except SessionError UserSession)
  unix : Prog ι ρ Int
  getUserCache : Prog ι ρ (Option UserView)
  getUserById : Prog ι ρ (Option UserView)
  revokeUserSession : (reason : String) → Prog ι ρ (Except SessionError Bool)
  /-- `RotateUserSessionRefresh` with the digests of the secret and of the one derived from it. -/
  rotate : (secret : String) → Prog ι ρ Rotation
  issueAccessToken : Prog ι ρ Bool

section Calls

variable {ι : Type} {ρ : ι → Type} (deps : LoginDeps ι ρ)

def validateLoginSession (identity : AuthIdentity) : Prog ι ρ (Except RefreshError (UserSession × UserView)) := do
  match ← deps.getUserSessionCached with
  | .error e => return .error (if e = .inactive then .loginSessionRevoked else .session e)
  | .ok session =>
    let now ← deps.unix
    if session.userID ≠ identity.userID ∨ ¬session.Usable now ∨ session.version ≠ identity.sessionVersion ∨
        session.userAuthVersion ≠ identity.userAuthVersion then
      return .error .loginSessionRevoked
    else
      match ← deps.getUserCache with
      | none => return .error .user
      | some user =>
        if user.enabled = false ∨ user.authVersion ≠ identity.userAuthVersion then return .error .loginSessionRevoked
        else return .ok (session, user)

def issueAuthBundle (session : UserSession) (refreshToken : String) : Prog ι ρ (Except RefreshError Bundle) := do
  if ← deps.issueAccessToken then return .ok ⟨session, refreshToken⟩ else return .error .issue

variable (hashRefreshSecret deriveNextRefreshSecret : String → String)

/-- What `RefreshLoginSession` makes of the rotation. -/
def finishRefresh (nextSecret : String) : Rotation → Prog ι ρ (Except RefreshError Bundle)
  | .rotated session => issueAuthBundle deps session nextSecret
  | .race session =>
    if hashRefreshSecret nextSecret = session.refreshHash then issueAuthBundle deps session nextSecret
    else return .error .refreshRace
  | .failed .refreshReuse => return .error .loginSessionRevoked
  | .failed .refreshInvalid => return .error .refreshTokenInvalid
  | .failed e => return .error (.session e)

def refreshLoginSession (secret : String) : Prog ι ρ (Except RefreshError Bundle) := do
  match ← deps.getUserSessionCached with
  | .error e => return .error (if e = .inactive then .loginSessionRevoked else .refreshTokenInvalid)
  | .ok session =>
    let now ← deps.unix
    if ¬session.Usable now then return .error .loginSessionRevoked
    else
      match ← deps.getUserCache with
      | none => return .error .user
      | some cached =>
        match ← deps.getUserById with
        | none => return .error .user
        | some currentUser =>
          if cached.enabled = false ∨ cached.authVersion ≠ session.userAuthVersion ∨ currentUser.enabled = false ∨
              currentUser.authVersion ≠ session.userAuthVersion then
            let _ ← deps.revokeUserSession "user_security_changed"
            return .error .loginSessionRevoked
          else
            let rotation ← deps.rotate secret
            finishRefresh deps hashRefreshSecret (deriveNextRefreshSecret secret) rotation

end Calls

end CubeRouter.Auth
