import MovieReservation.Accounts.Services
import MovieReservation.Lib.Path

/-! The commands that each authentication call can issue, as a rule for any property of
commands. -/

namespace MovieReservation

open Lib Lib.Prog

/-- What one call was answered. -/
abbrev AuthTrail := List (Answer AuthCmd AuthCmd.Reply Err)

/-- What the calls of a system were answered. -/
abbrev AuthLog := List (ℕ × Answer AuthCmd AuthCmd.Reply Err)

variable {P : AuthCmd → Prop}

theorem only_authRequest {c : AuthCmd} (h : P c) : Only P (AuthM.request c) := (only_issue c).mpr h

/-! ### Users -/

theorem getAuthUser_only {id : ℕ} (hfind : P (.userFindById id)) :
    Only P (AuthService.getAuthUser id) := by
  unfold AuthService.getAuthUser
  refine Only.bind (only_authRequest hfind) fun user => ?_
  cases user <;> trivial

theorem checkPassword_only {userId : ℕ} (hfind : P (.userFindById userId))
    (hcompare : ∀ password digest, P (.bcryptCompare password digest)) (current : String) :
    Only P (UsersService.checkPassword userId current) := by
  unfold UsersService.checkPassword
  refine Only.bind (only_authRequest hfind) fun user => ?_
  cases Option.bind user User.truthyPassword with
  | none => trivial
  | some digest =>
    refine Only.bind (only_authRequest (hcompare current digest)) fun isMatch => ?_
    split_ifs <;> trivial

theorem validateUser_only {email : String} (hfind : P (.userFindByEmail email))
    {password : String} (hverify : ∀ digest, P (.argon2Verify digest password)) :
    Only P (AuthService.validateUser email password) := by
  unfold AuthService.validateUser
  refine Only.bind (only_authRequest hfind) fun user => ?_
  cases Option.bind user fun u => u.truthyPassword.map (u, ·) with
  | none => trivial
  | some found =>
    refine Only.bind (only_authRequest (hverify found.2)) fun isMatch => ?_
    split_ifs <;> trivial

/-! ### One-time passwords -/

section Otp
variable {env : AuthEnv} {email : String}

theorem issueOtp_only (hget : P (.get (.otpCooldown email))) (hdraw : P (.randomInt 100000 999999))
    (hset : ∀ code, P (.set (.otp email) code env.otpTtlSeconds))
    (hreset : P (.resetAttempts email))
    (hcool : P (.set (.otpCooldown email) () env.otpResendCooldownSeconds)) :
    Only P (OtpService.issue env email) := by
  unfold OtpService.issue OtpService.gen
  refine Only.bind (only_authRequest hget) fun coolingDown => ?_
  split_ifs
  · trivial
  · refine Only.bind (Only.bind (only_authRequest hdraw) fun _ => trivial) fun code => ?_
    refine Only.bind (only_authRequest (hset code)) fun _ => ?_
    refine Only.bind (only_authRequest hreset) fun _ => ?_
    exact Only.bind (only_authRequest hcool) fun _ => trivial

theorem verifyCode_only (hget : P (.get (.otp email))) (hincr : P (.incrAttempts email))
    (hexpire : P (.expireAttempts email env.otpTtlSeconds)) (hdel : P (.del [.otp email]))
    (hforget : P (.del [.otpAttempts email])) (code : String) :
    Only P (OtpService.verify env email code) := by
  unfold OtpService.verify
  refine Only.bind (only_authRequest hget) fun stored => ?_
  cases stored with
  | none => trivial
  | some stored =>
    refine Only.bind (only_authRequest hincr) fun attempts => ?_
    refine Only.bind (only_authRequest hexpire) fun _ => ?_
    split_ifs
    · exact Only.bind (only_authRequest hdel) fun _ => trivial
    · trivial
    · refine Only.bind (only_authRequest hdel) fun _ => ?_
      exact Only.bind (only_authRequest hforget) fun _ => trivial

end Otp

/-! ### Tokens -/

section Tokens
variable {user : AuthUser}

theorem signAccess_only (hversion : P (.get (.accessVersion user.id))) (hnow : P .dateNow) :
    Only P (TokenService.signAccess user) := by
  unfold TokenService.signAccess TokenService.getAccessVersion
  refine Only.bind (Only.bind (only_authRequest hversion) fun _ => trivial) fun ver => ?_
  exact Only.bind (only_authRequest hnow) fun _ => trivial

theorem signRefresh_only (hdraw : P .randomUUID) (hnow : P .dateNow) (userId : ℕ) :
    Only P (TokenService.signRefresh userId) := by
  unfold TokenService.signRefresh
  refine Only.bind (only_authRequest hdraw) fun jti => ?_
  exact Only.bind (only_authRequest hnow) fun _ => trivial

theorem issueAuthCookies_only (hversion : P (.get (.accessVersion user.id))) (hnow : P .dateNow)
    (hdraw : P .randomUUID)
    (hstore : ∀ jti, P (.storeRefresh user.id jti TokenService.refreshTtlSeconds)) :
    Only P (TokenService.issueAuthCookies user) := by
  unfold TokenService.issueAuthCookies
  refine Only.bind (signAccess_only hversion hnow) fun access => ?_
  refine Only.bind (signRefresh_only hdraw hnow user.id) fun refresh => ?_
  exact Only.bind (only_authRequest (hstore refresh.jti)) fun _ => trivial

theorem rotateAuthCookies_only {userId jti : ℕ} (hversion : P (.get (.accessVersion user.id)))
    (hnow : P .dateNow) (hdraw : P .randomUUID)
    (hrotate : ∀ new, P (.rotateRefresh userId jti user.id new TokenService.refreshTtlSeconds)) :
    Only P (TokenService.rotateAuthCookies userId jti user) := by
  unfold TokenService.rotateAuthCookies
  refine Only.bind (signRefresh_only hdraw hnow user.id) fun refresh => ?_
  refine Only.bind (only_authRequest (hrotate refresh.jti)) fun rotated => ?_
  split_ifs
  · exact Only.bind (signAccess_only hversion hnow) fun _ => trivial
  · trivial

theorem revokeAllSessions_only {userId : ℕ} (hread : P (.get (.refreshSessions userId)))
    (hdel : ∀ jtis : List ℕ, P (.del (jtis.map (.refresh userId) ++ [.refreshSessions userId]))) :
    Only P (TokenService.revokeAllSessions userId) := by
  unfold TokenService.revokeAllSessions
  refine Only.bind (only_authRequest hread) fun jtis => ?_
  split_ifs
  · exact only_authRequest (hdel (jtis.getD []))
  · trivial

end Tokens

/-! ### What each request writes to the users -/

def AuthCmd.leavesUsers : AuthCmd → Prop
  | .userCreate _ | .userUpdate _ _ => False
  | _ => True

def GoogleProfile.data (p : GoogleProfile) : UserCreate :=
  { name := p.name, email := p.email, googleId := some p.googleId, emailVerified := true }

inductive AccountRequest.Writes : AccountRequest → AuthCmd → Prop
  | register (dto : RegisterDto) (hash : String) : Writes (.register dto)
    (.userCreate { name := dto.name, email := dto.email, password := some hash })
  | googleSignIn (p : GoogleProfile) : Writes (.googleSignIn p) (.userCreate p.data)
  | verifyOtp (email code : String) (id : ℕ) : Writes (.verifyOtp email code)
    (.userUpdate id { emailVerified := some true })
  | linkGoogle (id : ℕ) (googleId : String) : Writes (.linkGoogle id googleId)
    (.userUpdate id { googleId := some (some googleId) })
  | updateName (id : ℕ) (name : String) : Writes (.updateName id name)
    (.userUpdate id { name := some name })
  | confirmEmailChange (id : ℕ) (code email : String) : Writes (.confirmEmailChange id code)
    (.userUpdate id { email := some email })
  | changePassword (id : ℕ) (current new hash : String) : Writes (.changePassword id current new)
    (.userUpdate id { password := some (some hash) })

section Writes
variable {env : AuthEnv}

/-- A request issues no other writes of users. -/
abbrev OnlyWrites {α : Type} (r : AccountRequest) (p : AuthM α) : Prop :=
  Only (fun c => c.leavesUsers ∨ r.Writes c) p

variable {r : AccountRequest}

theorem Only.onlyWrites {α : Type} {p : AuthM α} (h : Only AuthCmd.leavesUsers p) :
    OnlyWrites r p :=
  h.mono fun _ hc => .inl hc

theorem onlyWrites_request {c : AuthCmd} (h : c.leavesUsers) : OnlyWrites r (AuthM.request c) :=
  only_authRequest (.inl h)

theorem issueOtp_onlyWrites (email : String) : OnlyWrites r (OtpService.issue env email) :=
  Only.onlyWrites (issueOtp_only trivial trivial (fun _ => trivial) trivial trivial)

theorem verifyCode_onlyWrites (email code : String) :
    OnlyWrites r (OtpService.verify env email code) :=
  Only.onlyWrites (verifyCode_only trivial trivial trivial trivial trivial code)

theorem issueAuthCookies_onlyWrites (user : AuthUser) :
    OnlyWrites r (TokenService.issueAuthCookies user) :=
  Only.onlyWrites (issueAuthCookies_only trivial trivial trivial fun _ => trivial)

theorem getAuthUser_onlyWrites (id : ℕ) : OnlyWrites r (AuthService.getAuthUser id) :=
  Only.onlyWrites (getAuthUser_only trivial)

theorem checkPassword_onlyWrites (userId : ℕ) (current : String) :
    OnlyWrites r (UsersService.checkPassword userId current) :=
  Only.onlyWrites (checkPassword_only trivial (fun _ _ => trivial) current)

theorem sendCode_onlyWrites {α : Type} (email : String) (a : α) : OnlyWrites r (do
    let code ← OtpService.issue env email
    MailerService.sendOtpEmail email code
    pure a) :=
  Only.bind (issueOtp_onlyWrites email) fun _ =>
    Only.bind (onlyWrites_request trivial) fun _ => trivial

theorem register_onlyWrites (dto : RegisterDto) :
    OnlyWrites (.register dto) (AuthService.register env dto) := by
  unfold AuthService.register
  refine Only.tryCatch ?_ fun err => ?_
  · refine Only.bind (onlyWrites_request trivial) fun existing => ?_
    split_ifs
    · trivial
    · refine Only.bind (onlyWrites_request trivial) fun hash => ?_
      refine Only.bind (only_authRequest (.inr (.register dto hash))) fun user => ?_
      exact sendCode_onlyWrites user.email _
  · split_ifs <;> trivial

theorem verifyOtp_onlyWrites (email code : String) :
    OnlyWrites (.verifyOtp email code) (AuthService.verifyOtp env email code) := by
  unfold AuthService.verifyOtp
  refine Only.bind (onlyWrites_request trivial) fun user => ?_
  cases user with
  | none => trivial
  | some user =>
    dsimp only
    split_ifs
    · trivial
    · refine Only.bind (verifyCode_onlyWrites email code) fun ok => ?_
      split_ifs
      · exact only_authRequest (.inr (.verifyOtp email code user.id))
      · trivial

theorem resolveGoogleUser_onlyWrites (p : GoogleProfile) :
    OnlyWrites (.googleSignIn p) (AuthService.resolveGoogleUser p) := by
  unfold AuthService.resolveGoogleUser
  refine Only.bind (onlyWrites_request trivial) fun byGoogle => ?_
  cases byGoogle with
  | some byGoogle => trivial
  | none =>
    refine Only.bind (onlyWrites_request trivial) fun byEmail => ?_
    split_ifs
    · trivial
    · exact Only.bind (only_authRequest (.inr (.googleSignIn p))) fun _ => trivial

theorem linkGoogle_onlyWrites (userId : ℕ) (googleId : String) :
    OnlyWrites (.linkGoogle userId googleId) (AuthService.linkGoogle userId googleId) := by
  unfold AuthService.linkGoogle
  refine Only.bind (onlyWrites_request trivial) fun owner => ?_
  cases owner with
  | some owner =>
    dsimp only
    split_ifs <;> trivial
  | none => exact only_authRequest (.inr (.linkGoogle userId googleId))

theorem resendOtp_onlyWrites (email : String) :
    OnlyWrites r (AuthService.resendOtp env email) := by
  unfold AuthService.resendOtp
  refine Only.bind (onlyWrites_request trivial) fun user => ?_
  cases user with
  | none => trivial
  | some user =>
    dsimp only
    split_ifs
    · trivial
    · exact sendCode_onlyWrites user.email _

theorem requestEmailChange_onlyWrites (userId : ℕ) (newEmail current : String) :
    OnlyWrites r (UsersService.requestEmailChange env userId newEmail current) := by
  unfold UsersService.requestEmailChange
  refine Only.bind (checkPassword_onlyWrites userId current) fun _ => ?_
  refine Only.bind (onlyWrites_request trivial) fun existing => ?_
  split_ifs
  · trivial
  · exact Only.bind (onlyWrites_request trivial) fun _ => sendCode_onlyWrites newEmail _

theorem confirmEmailChange_onlyWrites (userId : ℕ) (code : String) :
    OnlyWrites (.confirmEmailChange userId code)
      (UsersService.confirmEmailChange env userId code) := by
  unfold UsersService.confirmEmailChange
  refine Only.bind (onlyWrites_request trivial) fun pendingEmail => ?_
  cases pendingEmail with
  | none => trivial
  | some pendingEmail =>
    refine Only.bind (verifyCode_onlyWrites pendingEmail code) fun ok => ?_
    split_ifs
    · refine Only.bind (only_authRequest (.inr (.confirmEmailChange userId code _))) fun _ => ?_
      exact Only.bind (onlyWrites_request trivial) fun _ => getAuthUser_onlyWrites userId
    · trivial

theorem changePassword_onlyWrites (userId : ℕ) (current new : String) :
    OnlyWrites (.changePassword userId current new)
      (UsersService.changePassword userId current new) := by
  unfold UsersService.changePassword
  refine Only.bind (checkPassword_onlyWrites userId current) fun _ => ?_
  refine Only.bind (onlyWrites_request trivial) fun hash => ?_
  refine Only.bind (only_authRequest (.inr (.changePassword userId current new hash))) fun _ => ?_
  refine Only.bind (onlyWrites_request trivial) fun _ => ?_
  refine Only.bind (Only.onlyWrites (revokeAllSessions_only trivial fun _ => trivial)) fun _ => ?_
  exact Only.bind (getAuthUser_onlyWrites userId) fun user => issueAuthCookies_onlyWrites user

theorem AccountRequest.handle_onlyWrites (r : AccountRequest) : OnlyWrites r (r.handle env) := by
  cases r with
  | register dto => exact Only.bind (register_onlyWrites dto) fun _ => trivial
  | verifyOtp email code =>
    refine Only.bind (verifyOtp_onlyWrites email code) fun user => ?_
    exact Only.bind (issueAuthCookies_onlyWrites user.toAuthUser) fun _ => trivial
  | resendOtp email => exact Only.bind (resendOtp_onlyWrites email) fun _ => trivial
  | login email password =>
    refine Only.bind (Only.onlyWrites (validateUser_only trivial fun _ => trivial)) fun user => ?_
    exact Only.bind (issueAuthCookies_onlyWrites user) fun _ => trivial
  | refresh userId jti =>
    refine Only.bind (getAuthUser_onlyWrites userId) fun fresh => ?_
    refine Only.bind (Only.onlyWrites ?_) fun _ => trivial
    exact rotateAuthCookies_only trivial trivial trivial fun _ => trivial
  | googleSignIn p =>
    refine Only.bind (resolveGoogleUser_onlyWrites p) fun user => ?_
    exact Only.bind (issueAuthCookies_onlyWrites user) fun _ => trivial
  | linkGoogle userId googleId =>
    exact Only.bind (linkGoogle_onlyWrites userId googleId) fun _ => trivial
  | updateName userId name =>
    refine Only.bind (Only.bind (only_authRequest (.inr (.updateName userId name))) fun _ => ?_)
      fun _ => trivial
    exact getAuthUser_onlyWrites userId
  | requestEmailChange userId newEmail current =>
    exact Only.bind (requestEmailChange_onlyWrites userId newEmail current) fun _ => trivial
  | confirmEmailChange userId code =>
    exact Only.bind (confirmEmailChange_onlyWrites userId code) fun _ => trivial
  | changePassword userId current new =>
    exact Only.bind (changePassword_onlyWrites userId current new) fun _ => trivial

end Writes

end MovieReservation
