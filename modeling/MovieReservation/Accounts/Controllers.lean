import MovieReservation.Accounts.Commands
import MovieReservation.Lib.Retry

/-! The routes of the accounts: the guards, which tell who a request is from by the token it
presents, and the controllers, which hand tokens out. A token verifies exactly if it was
signed here and has not expired; whoever presents one has it from a cookie or a redirect. -/

namespace MovieReservation

open Lib Lib.Prog

/-! ### Tokens -/

/-- The `state` of a sign-in with Google that links an account. -/
structure LinkState where
  sub : ℕ
  iat : ℤ
  deriving DecidableEq

/-- Each kind is signed with a secret of its own. -/
inductive Token where
  | access (t : AccessToken)
  | refresh (t : RefreshToken)
  | linkState (t : LinkState)
  deriving DecidableEq

namespace Token

/-- The user it was signed for. -/
def sub : Token → ℕ
  | access t => t.user.id
  | refresh t => t.sub
  | linkState t => t.sub

/-- `exp`, in seconds. -/
def exp : Token → ℤ
  | access t => t.exp
  | refresh t => t.iat + TokenService.refreshTtlSeconds
  | linkState t => t.iat + 10 * 60

end Token

inductive TokenCmd where
  /-- The token leaves the server. -/
  | send (t : Token)
  /-- Whether the signature is one of the server's own. -/
  | signed (t : Token)

@[reducible] def TokenCmd.Reply : TokenCmd → Type
  | .send _ => Unit
  | .signed _ => Bool

abbrev SiteCmd := AuthCmd ⊕ TokenCmd

abbrev SiteReply : SiteCmd → Type := SumReply AuthCmd.Reply TokenCmd.Reply

abbrev SiteM := Prog SiteCmd SiteReply Err

/-- The accounts, and the tokens that are in the hands of the clients. -/
structure Site where
  accounts : Accounts
  sent : List Token

namespace Site

def exec (lib : Hashing) : (c : SiteCmd) → Site → Except Err (SiteReply c) × Site
  | .inl c, s =>
    let out := Accounts.exec lib c s.accounts
    (out.1, { s with accounts := out.2 })
  | .inr (.send t), s => (.ok (), { s with sent := s.sent ++ [t] })
  | .inr (.signed t), s => (.ok (decide (t ∈ s.sent)), s)

end Site

theorem site_now (lib : Hashing) (c : SiteCmd) (s : Site) :
    (Site.exec lib c s).2.accounts.now = s.accounts.now := by
  rcases c with c | c
  · exact Accounts.exec_now
  · cases c <;> rfl

/-- The commands that `OtpService` sends in a pipeline. -/
def AuthCmd.piped : AuthCmd → Bool
  | .set (.otp _) _ _ | .set (.otpCooldown _) _ _ | .resetAttempts _ | .incrAttempts _
  | .expireAttempts _ _ => true
  | _ => false

/-- `exec` of a pipeline does not reject, so that its commands do not fail here. -/
def SiteCmd.fault : SiteCmd → Err → Bool
  | .inl c, e => !c.piped && c.fault e
  | .inr _, _ => false

namespace Token

def send (t : Token) : SiteM Unit := issue (R := SiteReply) (.inr (.send t) : SiteCmd)

def verify (t : Token) : SiteM Bool := do
  let now : Time ← (AuthM.request .dateNow).left
  let signed : Bool ← issue (R := SiteReply) (.inr (.signed t) : SiteCmd)
  return signed && decide (now / 1000 < t.exp)

end Token

namespace TokenService

def setAuthCookies (access : AccessToken) (refresh : RefreshToken) : SiteM Unit := do
  Token.send (.access access)
  Token.send (.refresh refresh)

def signLinkState (userId : ℕ) : SiteM LinkState := do
  let now : Time ← (AuthM.request .dateNow).left
  return ⟨userId, now / 1000⟩

def verifyLinkState : Option LinkState → SiteM ℕ
  | none => throw (.unauthorized "Missing link state")
  | some state => do
    let ok ← Token.verify (.linkState state)
    if ok then return state.sub else throw (.unauthorized "Invalid or expired link state")

end TokenService

/-! ### Guards -/

/-- What `passport` answers when a strategy finds no valid token. -/
def notAuthenticated : Err := .unauthorized "Unauthorized"

namespace JwtAuthGuard

/-- The user in the `access_token` cookie. -/
def canActivate : Option AccessToken → SiteM AuthUser
  | none => throw notAuthenticated
  | some token => do
    let ok ← Token.verify (.access token)
    if ok then (JwtStrategy.validate token).left else throw notAuthenticated

end JwtAuthGuard

namespace JwtRefreshGuard

/-- The token in the `refresh_token` cookie. -/
def canActivate : Option RefreshToken → SiteM RefreshToken
  | none => throw notAuthenticated
  | some token => do
    let ok ← Token.verify (.refresh token)
    if ok then return token else throw notAuthenticated

end JwtRefreshGuard

namespace RolesGuard

def canActivate (requiredRoles : List UserRole) (user : Option AuthUser) : Except Err Unit :=
  if requiredRoles = [] then .ok ()
  else if user.any fun u => u.role ∈ requiredRoles then .ok ()
  else .error (.forbidden "Insufficient role")

end RolesGuard

/-- What Google says of the account that was signed in with. -/
structure Profile where
  id : String
  displayName : String
  emails : List String
  deriving DecidableEq

/-- `GoogleStrategy.validate` and `GoogleLinkStrategy.validate`. -/
def Profile.validate (p : Profile) : Except Err GoogleProfile :=
  match p.emails.head?.filter (· ≠ "") with
  | none => .error (.unauthorized "Google account has no email")
  | some email => .ok ⟨email, p.displayName, p.id⟩

/-! ### Controllers -/

/-- The body of a response, or where it redirects to. -/
inductive SiteResponse where
  | user (user : AuthUser)
  | message (text : String)
  | pendingEmail (newEmail : Option String)
  | redirect (path : String)
  /-- To the consent screen, which sends the state back. -/
  | toGoogle (state : LinkState)
  deriving DecidableEq

def throwing {α : Type} : Except Err α → SiteM α
  | .ok a => return a
  | .error e => throw e

namespace AuthController

variable (env : AuthEnv)

/-- `TokenService.issueAuthCookies`. -/
def issueAuthCookies (user : AuthUser) : SiteM Unit := do
  let tokens ← (TokenService.issueAuthCookies user).left
  TokenService.setAuthCookies tokens.1 tokens.2

def register (dto : RegisterDto) : SiteM SiteResponse := do
  let message ← (AuthService.register env dto).left
  return .message message

def verifyOtp (email code : String) : SiteM SiteResponse := do
  let user ← (AuthService.verifyOtp env email code).left
  issueAuthCookies user.toAuthUser
  return .user user.toAuthUser

def resendOtp (email : String) : SiteM SiteResponse := do
  let message ← (AuthService.resendOtp env email).left
  return .message message

def login (email password : String) : SiteM SiteResponse := do
  let user ← (AuthService.validateUser email password).left
  issueAuthCookies user
  return .user user

def refresh (cookie : Option RefreshToken) : SiteM SiteResponse := do
  let token ← JwtRefreshGuard.canActivate cookie
  let fresh ← (AuthService.getAuthUser token.sub).left
  let tokens ← (TokenService.rotateAuthCookies token.sub token.jti fresh).left
  TokenService.setAuthCookies tokens.1 tokens.2
  return .message "Token refreshed"

def logout (cookie : Option AccessToken) : SiteM SiteResponse := do
  let user ← JwtAuthGuard.canActivate cookie
  (TokenService.revokeAllSessions user.id).left
  return .message "Logged out"

def me (cookie : Option AccessToken) : SiteM SiteResponse := do
  let user ← JwtAuthGuard.canActivate cookie
  return .user user

def isConflict : Err → Bool
  | .conflict _ => true
  | _ => false

def googleCallback (profile : Profile) : SiteM SiteResponse := do
  let profile ← throwing profile.validate
  try
    let user ← (AuthService.resolveGoogleUser profile).left
    issueAuthCookies user
    pure (.redirect "/auth/google/callback")
  catch err =>
    if isConflict err then pure (.redirect "/login?error=account_exists") else throw err

/-- `GoogleLinkAuthGuard` sends the state along. -/
def linkGoogle (cookie : Option AccessToken) : SiteM SiteResponse := do
  let user ← JwtAuthGuard.canActivate cookie
  let state ← TokenService.signLinkState user.id
  Token.send (.linkState state)
  return .toGoogle state

def linkGoogleCallback (profile : Profile) (state : Option LinkState) : SiteM SiteResponse := do
  let profile ← throwing profile.validate
  let id ← TokenService.verifyLinkState state
  try
    let _ ← (AuthService.linkGoogle id profile.googleId).left
    pure (.redirect "/settings?linked=google")
  catch err =>
    if isConflict err then pure (.redirect "/settings?error=google_already_linked") else throw err

end AuthController

namespace UsersService

def getPendingEmailChange (userId : ℕ) : AuthM (Option String) := do
  let newEmail : Option String ← AuthM.request (.get (.pendingEmail userId))
  return newEmail.filter fun email => email ≠ ""

end UsersService

namespace UsersController

variable (env : AuthEnv)

def updateName (cookie : Option AccessToken) (name : String) : SiteM SiteResponse := do
  let user ← JwtAuthGuard.canActivate cookie
  let user ← (UsersService.updateName user.id name).left
  return .user user

def requestEmailChange (cookie : Option AccessToken) (newEmail currentPassword : String) :
    SiteM SiteResponse := do
  let user ← JwtAuthGuard.canActivate cookie
  let message ← (UsersService.requestEmailChange env user.id newEmail currentPassword).left
  return .message message

def confirmEmailChange (cookie : Option AccessToken) (code : String) : SiteM SiteResponse := do
  let user ← JwtAuthGuard.canActivate cookie
  let user ← (UsersService.confirmEmailChange env user.id code).left
  return .user user

def getPendingEmailChange (cookie : Option AccessToken) : SiteM SiteResponse := do
  let user ← JwtAuthGuard.canActivate cookie
  let newEmail ← (UsersService.getPendingEmailChange user.id).left
  return .pendingEmail newEmail

def changePassword (cookie : Option AccessToken) (currentPassword newPassword : String) :
    SiteM SiteResponse := do
  let user ← JwtAuthGuard.canActivate cookie
  let tokens ← (UsersService.changePassword user.id currentPassword newPassword).left
  TokenService.setAuthCookies tokens.1 tokens.2
  return .message "Password changed"

end UsersController

/-- The guards of the routes that are for `ADMIN` only; the user is who goes on to the
handler. -/
def adminRoute (cookie : Option AccessToken) : SiteM SiteResponse := do
  let user ← JwtAuthGuard.canActivate cookie
  throwing (RolesGuard.canActivate [.admin] (some user))
  return .user user

inductive SiteRequest where
  | register (dto : RegisterDto)
  | verifyOtp (email code : String)
  | resendOtp (email : String)
  | login (email password : String)
  | refresh (cookie : Option RefreshToken)
  | logout (cookie : Option AccessToken)
  | me (cookie : Option AccessToken)
  | googleCallback (profile : Profile)
  | linkGoogle (cookie : Option AccessToken)
  | linkGoogleCallback (profile : Profile) (state : Option LinkState)
  | updateName (cookie : Option AccessToken) (name : String)
  | requestEmailChange (cookie : Option AccessToken) (newEmail currentPassword : String)
  | confirmEmailChange (cookie : Option AccessToken) (code : String)
  | getPendingEmailChange (cookie : Option AccessToken)
  | changePassword (cookie : Option AccessToken) (currentPassword newPassword : String)
  | adminRoute (cookie : Option AccessToken)

def SiteRequest.handle (env : AuthEnv) : SiteRequest → SiteM SiteResponse
  | register dto => AuthController.register env dto
  | verifyOtp email code => AuthController.verifyOtp env email code
  | resendOtp email => AuthController.resendOtp env email
  | login email password => AuthController.login email password
  | refresh cookie => AuthController.refresh cookie
  | logout cookie => AuthController.logout cookie
  | me cookie => AuthController.me cookie
  | googleCallback profile => AuthController.googleCallback profile
  | linkGoogle cookie => AuthController.linkGoogle cookie
  | linkGoogleCallback profile state => AuthController.linkGoogleCallback profile state
  | updateName cookie name => UsersController.updateName cookie name
  | requestEmailChange cookie newEmail currentPassword =>
    UsersController.requestEmailChange env cookie newEmail currentPassword
  | confirmEmailChange cookie code => UsersController.confirmEmailChange env cookie code
  | getPendingEmailChange cookie => UsersController.getPendingEmailChange cookie
  | changePassword cookie currentPassword newPassword =>
    UsersController.changePassword cookie currentPassword newPassword
  | adminRoute cookie => MovieReservation.adminRoute cookie

/-- Any number of requests, command by command, with any tokens. -/
def siteSystem (lib : Hashing) (env : AuthEnv) :
    System SiteCmd SiteReply Err Site SiteRequest ℕ SiteResponse where
  exec _ := Site.exec lib
  ready _ _ _ := true
  fault := SiteCmd.fault
  env ms s := { s with accounts := { s.accounts with now := s.accounts.now + ms } }
  handler := SiteRequest.handle env

end MovieReservation
