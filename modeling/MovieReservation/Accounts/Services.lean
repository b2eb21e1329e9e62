import MovieReservation.Accounts.Store

/-! The authentication and user services: one-time passwords, tokens, sign-up and
sign-in with a password or with Google, and the settings of a user. -/

namespace MovieReservation

open Lib

def AuthM.request (c : AuthCmd) : AuthM c.Reply := Prog.issue c

open AuthM (request)

/-- `!password`: null and the empty string are both falsy. -/
def User.truthyPassword (u : User) : Option String := u.password.filter fun p => p ≠ ""

namespace AuthRepository

def findByEmail (email : String) : AuthM (Option User) := request (.userFindByEmail email)

def findById (id : ℕ) : AuthM (Option User) := request (.userFindById id)

def findByGoogleId (googleId : String) : AuthM (Option User) :=
  request (.userFindByGoogleId googleId)

def createUser (data : UserCreate) : AuthM User := request (.userCreate data)

def createGoogleUser (name email googleId : String) : AuthM User :=
  request (.userCreate { name, email, googleId := some googleId, emailVerified := true })

def setGoogleId (userId : ℕ) (googleId : String) : AuthM User :=
  request (.userUpdate userId { googleId := some (some googleId) })

def markEmailVerified (id : ℕ) : AuthM User :=
  request (.userUpdate id { emailVerified := some true })

end AuthRepository

namespace UsersRepository

def findById (id : ℕ) : AuthM (Option User) := request (.userFindById id)

def findByEmail (email : String) : AuthM (Option User) := request (.userFindByEmail email)

def updateName (id : ℕ) (name : String) : AuthM User :=
  request (.userUpdate id { name := some name })

def updateEmail (id : ℕ) (email : String) : AuthM User :=
  request (.userUpdate id { email := some email })

def updatePassword (id : ℕ) (password : String) : AuthM User :=
  request (.userUpdate id { password := some (some password) })

end UsersRepository

namespace MailerService

def sendOtpEmail (email code : String) : AuthM Unit := request (.sendOtpEmail email code)

end MailerService

/-! ### One-time passwords -/

namespace OtpService

variable (env : AuthEnv)

def gen : AuthM String := do
  let n : ℕ ← request (.randomInt 100000 999999)
  return toString n

def issue (email : String) : AuthM String := do
  let coolingDown : Option Unit ← request (.get (.otpCooldown email))
  if coolingDown.isSome then
    throw (.badRequest "Please wait before requesting another code")
  else
    let code ← gen
    request (.set (.otp email) code env.otpTtlSeconds)
    request (.resetAttempts email)
    request (.set (.otpCooldown email) () env.otpResendCooldownSeconds)
    return code

def verify (email code : String) : AuthM Bool := do
  let stored : Option String ← request (.get (.otp email))
  match stored with
  | none => throw (.badRequest "Code expired or not found")
  | some stored =>
    let attempts : ℕ ← request (.incrAttempts email)
    request (.expireAttempts email env.otpTtlSeconds)
    if env.otpMaxAttempts < attempts then
      request (.del [.otp email])
      throw (.badRequest "Too many attempts, request a new code")
    else if stored ≠ code then return false
    else
      request (.del [.otp email])
      request (.del [.otpAttempts email])
      return true

end OtpService

/-! ### Tokens -/

structure AuthUser where
  id : ℕ
  name : String
  email : String
  role : UserRole
  deriving DecidableEq

def User.toAuthUser (u : User) : AuthUser := ⟨u.id, u.name, u.email, u.role⟩

structure AccessToken where
  user : AuthUser
  ver : ℕ
  /-- When it was signed, in seconds. -/
  iat : ℤ
  deriving DecidableEq

structure RefreshToken where
  sub : ℕ
  jti : ℕ
  iat : ℤ
  deriving DecidableEq

namespace TokenService

def refreshTtlSeconds : ℕ := 7 * 24 * 60 * 60

def getAccessVersion (userId : ℕ) : AuthM ℕ := do
  let val : Option ℕ ← request (.get (.accessVersion userId))
  return val.getD 0

def signAccess (user : AuthUser) : AuthM AccessToken := do
  let ver ← getAccessVersion user.id
  let now : Time ← request .dateNow
  return ⟨user, ver, now / 1000⟩

def signRefresh (userId : ℕ) : AuthM RefreshToken := do
  let jti : ℕ ← request .randomUUID
  let now : Time ← request .dateNow
  return ⟨userId, jti, now / 1000⟩

/-- The pair of cookies that the response sets. -/
def issueAuthCookies (user : AuthUser) : AuthM (AccessToken × RefreshToken) := do
  let access ← signAccess user
  let refresh ← signRefresh user.id
  request (.storeRefresh user.id refresh.jti refreshTtlSeconds)
  return (access, refresh)

def rotateAuthCookies (payloadId payloadJti : ℕ) (user : AuthUser) :
    AuthM (AccessToken × RefreshToken) := do
  let refresh ← signRefresh user.id
  let rotated : Bool ← request
    (.rotateRefresh payloadId payloadJti user.id refresh.jti refreshTtlSeconds)
  if rotated then
    let access ← signAccess user
    return (access, refresh)
  else throw (.unauthorized "Refresh token revoked or expired")

def incrementAccessVersion (userId : ℕ) : AuthM Unit :=
  request (.bumpAccessVersion userId refreshTtlSeconds)

def revokeAllSessions (userId : ℕ) : AuthM Unit := do
  let jtis : Option (List ℕ) ← request (.get (.refreshSessions userId))
  if 0 < (jtis.getD []).length then
    request (.del ((jtis.getD []).map (.refresh userId) ++ [.refreshSessions userId]))
  else return

end TokenService

namespace JwtStrategy

/-- The default of `JWT_ACCESS_EXPIRES_IN`, which a deployment may set otherwise. -/
def accessTtlSeconds : ℤ := 15 * 60

def tokenRevoked : Err := .unauthorized "Token revoked — please log in again"

/-- What is left to check once `passport-jwt` has found the token unexpired. -/
def validate (payload : AccessToken) : AuthM AuthUser := do
  let currentVersion ← TokenService.getAccessVersion payload.user.id
  if payload.ver < currentVersion then throw tokenRevoked else return payload.user

end JwtStrategy

/-- `exp`, in seconds. -/
def AccessToken.exp (t : AccessToken) : ℤ := t.iat + JwtStrategy.accessTtlSeconds

/-- A token is expired from the second `exp` on. -/
def AccessToken.Unexpired (t : AccessToken) (now : Time) : Prop := now / 1000 < t.exp

instance (t : AccessToken) (now : Time) : Decidable (t.Unexpired now) :=
  inferInstanceAs (Decidable (now / 1000 < t.exp))

/-! ### Sign-up and sign-in -/

structure RegisterDto where
  name : String
  email : String
  password : String
  deriving DecidableEq

structure GoogleProfile where
  email : String
  name : String
  googleId : String
  deriving DecidableEq

def invalidLogin : Err := .unauthorized "Invalid email or password"

namespace AuthService

variable (env : AuthEnv)

def eligible : String := "If eligible, a verification code was sent"

def register (dto : RegisterDto) : AuthM String :=
  try
    let existing ← AuthRepository.findByEmail dto.email
    if existing.isSome then pure eligible
    else
      let hash : String ← request (.argon2Hash dto.password)
      let user ← AuthRepository.createUser
        { name := dto.name, email := dto.email, password := some hash }
      let code ← OtpService.issue env user.email
      MailerService.sendOtpEmail user.email code
      pure eligible
  catch err => if err = .prisma .p2002 then pure eligible else throw err

def verifyOtp (email code : String) : AuthM User := do
  match ← AuthRepository.findByEmail email with
  | none => throw (.badRequest "Invalid email")
  | some user =>
    if user.emailVerified then throw (.badRequest "Already verified")
    else
      let ok ← OtpService.verify env email code
      if ok then AuthRepository.markEmailVerified user.id
      else throw (.badRequest "Invalid code")

/-- Wrong or missing credentials are a 401, an unverified account a 403. -/
def validateUser (email password : String) : AuthM AuthUser := do
  let user ← AuthRepository.findByEmail email
  match user.bind fun u => u.truthyPassword.map (u, ·) with
  | none => throw invalidLogin
  | some (user, digest) =>
    let isMatch : Bool ← request (.argon2Verify digest password)
    if isMatch then
      if user.emailVerified then return user.toAuthUser
      else throw (.forbidden "Email not verified")
    else throw invalidLogin

def getAuthUser (id : ℕ) : AuthM AuthUser := do
  match ← AuthRepository.findById id with
  | none => throw (.unauthorized "User no longer exists")
  | some user => return user.toAuthUser

def resolveGoogleUser (p : GoogleProfile) : AuthM AuthUser := do
  match ← AuthRepository.findByGoogleId p.googleId with
  | some byGoogle => return byGoogle.toAuthUser
  | none =>
    let byEmail ← AuthRepository.findByEmail p.email
    if byEmail.isSome then
      throw (.conflict ("An account with this email already exists. " ++
        "Log in with your password and link Google in settings."))
    else
      let user ← AuthRepository.createGoogleUser p.name p.email p.googleId
      return user.toAuthUser

def linkGoogle (userId : ℕ) (googleId : String) : AuthM User := do
  match ← AuthRepository.findByGoogleId googleId with
  | some owner =>
    if owner.id = userId then return owner
    else throw (.conflict "This Google account is already linked to another user")
  | none => AuthRepository.setGoogleId userId googleId

def resendOtp (email : String) : AuthM String := do
  match ← AuthRepository.findByEmail email with
  | none => return "If eligible, a code was sent"
  | some user =>
    if user.emailVerified then return "If eligible, a code was sent"
    else
      let code ← OtpService.issue env user.email
      MailerService.sendOtpEmail user.email code
      return "Verification code sent"

end AuthService

/-! ### Settings -/

def invalidCredentials : Err := .unauthorized "Invalid credentials"

namespace UsersService

variable (env : AuthEnv)

def updateName (userId : ℕ) (name : String) : AuthM AuthUser := do
  let _ ← UsersRepository.updateName userId name
  AuthService.getAuthUser userId

/-- The check of the current password in `requestEmailChange` and `changePassword`. -/
def checkPassword (userId : ℕ) (currentPassword : String) : AuthM Unit := do
  let user ← UsersRepository.findById userId
  match user.bind User.truthyPassword with
  | none => throw invalidCredentials
  | some digest =>
    let isMatch : Bool ← request (.bcryptCompare currentPassword digest)
    if isMatch then return else throw invalidCredentials

def requestEmailChange (userId : ℕ) (newEmail currentPassword : String) : AuthM String := do
  checkPassword userId currentPassword
  let existing ← UsersRepository.findByEmail newEmail
  if existing.isSome then throw (.conflict "Email already registered")
  else
    request (.set (.pendingEmail userId) newEmail env.otpTtlSeconds)
    let code ← OtpService.issue env newEmail
    MailerService.sendOtpEmail newEmail code
    return "Verification code sent to new email"

def confirmEmailChange (userId : ℕ) (code : String) : AuthM AuthUser := do
  let pendingEmail : Option String ← request (.get (.pendingEmail userId))
  match pendingEmail with
  | none => throw (.badRequest "No pending email change or it expired")
  | some pendingEmail =>
    let ok ← OtpService.verify env pendingEmail code
    if ok then
      let _ ← UsersRepository.updateEmail userId pendingEmail
      request (.del [.pendingEmail userId])
      AuthService.getAuthUser userId
    else throw (.badRequest "Invalid code")

def changePassword (userId : ℕ) (currentPassword newPassword : String) :
    AuthM (AccessToken × RefreshToken) := do
  checkPassword userId currentPassword
  let hash : String ← request (.bcryptHash newPassword 10)
  let _ ← UsersRepository.updatePassword userId hash
  TokenService.incrementAccessVersion userId
  TokenService.revokeAllSessions userId
  let authUser ← AuthService.getAuthUser userId
  TokenService.issueAuthCookies authUser

end UsersService

/-! ### Calls one after the other -/

inductive AccountRequest where
  | register (dto : RegisterDto)
  | verifyOtp (email code : String)
  | resendOtp (email : String)
  | login (email password : String)
  | refresh (userId jti : ℕ)
  | googleSignIn (profile : GoogleProfile)
  | linkGoogle (userId : ℕ) (googleId : String)
  | updateName (userId : ℕ) (name : String)
  | requestEmailChange (userId : ℕ) (newEmail currentPassword : String)
  | confirmEmailChange (userId : ℕ) (code : String)
  | changePassword (userId : ℕ) (currentPassword newPassword : String)

/-- What the controllers do; a response body is left out. -/
def AccountRequest.handle (env : AuthEnv) : AccountRequest → AuthM Unit
  | register dto => do let _ ← AuthService.register env dto
  | verifyOtp email code => do
    let user ← AuthService.verifyOtp env email code
    let _ ← TokenService.issueAuthCookies user.toAuthUser
  | resendOtp email => do let _ ← AuthService.resendOtp env email
  | login email password => do
    let user ← AuthService.validateUser email password
    let _ ← TokenService.issueAuthCookies user
  | refresh userId jti => do
    let fresh ← AuthService.getAuthUser userId
    let _ ← TokenService.rotateAuthCookies userId jti fresh
  | googleSignIn profile => do
    let user ← AuthService.resolveGoogleUser profile
    let _ ← TokenService.issueAuthCookies user
  | linkGoogle userId googleId => do let _ ← AuthService.linkGoogle userId googleId
  | updateName userId name => do let _ ← UsersService.updateName userId name
  | requestEmailChange userId newEmail currentPassword => do
    let _ ← UsersService.requestEmailChange env userId newEmail currentPassword
  | confirmEmailChange userId code => do let _ ← UsersService.confirmEmailChange env userId code
  | changePassword userId currentPassword newPassword => do
    let _ ← UsersService.changePassword userId currentPassword newPassword

namespace Accounts

/-- A call alone, with nothing in between. -/
def perform {α : Type} (lib : Hashing) (p : AuthM α) (s : Accounts) : Except Err α × Accounts :=
  p.run (fun c s => exec lib c s) s

section Perform
variable {α β : Type} (lib : Hashing)

theorem perform_bind (p : AuthM α) (f : α → AuthM β) (s : Accounts) :
    perform lib (p >>= f) s = match perform lib p s with
      | (.ok a, s') => perform lib (f a) s'
      | (.error e, s') => (.error e, s') := by
  unfold perform
  rw [Prog.run_bind]
  rcases p.run (fun c s => exec lib c s) s with ⟨_ | _, _⟩ <;> rfl

@[simp] theorem perform_throw (e : Err) (s : Accounts) :
    perform lib (throw e : AuthM α) s = (.error e, s) := rfl

end Perform

/-- A step of a history: time passes, or a request is served. -/
def turn (lib : Hashing) (env : AuthEnv) (s : Accounts) : ℕ ⊕ AccountRequest → Accounts
  | .inl ms => { s with now := s.now + ms }
  | .inr r => (perform lib (r.handle env) s).2

def history (lib : Hashing) (env : AuthEnv) (xs : List (ℕ ⊕ AccountRequest)) (s : Accounts) :
    Accounts :=
  xs.foldl (turn lib env) s

/-- Before the first sign-up. -/
def initial (now : Time) (entropy : ℕ → ℕ) : Accounts where
  users := Users.empty
  keys := fun _ => none
  now := now
  mails := []
  entropy := entropy
  draws := 0

end Accounts

end MovieReservation
