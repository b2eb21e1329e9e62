import MovieReservation.Accounts.Services

/-! Calls that ask for a one-time password, with a mail server that works or not. A code is
refused while the address cools down; if it is not, it is stored before it is mailed. -/

namespace MovieReservation

open Lib Lib.Prog Lib.Table

open AuthM (request)

def pleaseWait : Err := .badRequest "Please wait before requesting another code"

namespace Accounts

/-- A code was issued for the e-mail a moment ago. -/
def CoolingDown (s : Accounts) (email : String) : Prop :=
  (s.keys.get s.now (.otpCooldown email)).isSome

instance (s : Accounts) (email : String) : Decidable (s.CoolingDown email) :=
  inferInstanceAs (Decidable (_ = true))

/-- Every service but the mail server is up. -/
def execMail (lib : Hashing) (mailerUp : Bool) :
    (c : AuthCmd) → Accounts → Except Err c.Reply × Accounts
  | .sendOtpEmail email code, s =>
    if mailerUp then exec lib (.sendOtpEmail email code) s else (.error .unreachable, s)
  | c, s => exec lib c s

theorem perform_eq_execMail {α : Type} (lib : Hashing) (p : AuthM α) (s : Accounts) :
    perform lib p s = p.run (execMail lib true) s := by
  have hexec : execMail lib true = fun c s => exec lib c s := by
    funext c s
    cases c with
    | _ => rfl
  rw [hexec, perform]

section Calls
variable {lib : Hashing} {env : AuthEnv} {mailerUp : Bool} {s : Accounts} {email : String}

/-! ### Issuing a code -/

theorem issue_cooling (h : s.CoolingDown email) :
    (OtpService.issue env email).run (execMail lib mailerUp) s = (.error pleaseWait, s) := by
  have hread : (request (.get (.otpCooldown email))).run (execMail lib mailerUp) s =
      (.ok (s.keys.get s.now (.otpCooldown email)), s) := rfl
  unfold OtpService.issue
  rw [run_bind_of_ok hread, if_pos (show (s.keys.get _ _).isSome = true from h)]
  rfl

/-- The cooldown is the last of what is written. -/
theorem issue_granted (h : ¬ s.CoolingDown email) : ∃ code s',
    (OtpService.issue env email).run (execMail lib mailerUp) s = (.ok code, s') ∧
      s'.users = s.users ∧ ∃ ks : Keyspace,
        s'.keys = ks.set s.now (.otpCooldown email) () env.otpResendCooldownSeconds := by
  have hread : (request (.get (.otpCooldown email))).run (execMail lib mailerUp) s =
      (.ok (s.keys.get s.now (.otpCooldown email)), s) := rfl
  unfold OtpService.issue
  rw [run_bind_of_ok hread, if_neg (show ¬ (s.keys.get _ _).isSome = true from h)]
  exact ⟨_, _, rfl, rfl, _, rfl⟩

/-- The end of a call that mails a code. -/
def sendCode (env : AuthEnv) (email reply : String) : AuthM String := do
  let code ← OtpService.issue env email
  MailerService.sendOtpEmail email code
  pure reply

def codeAnswer (mailerUp : Bool) (s : Accounts) (email reply : String) : Except Err String :=
  if s.CoolingDown email then .error pleaseWait
  else if mailerUp then .ok reply else .error .unreachable

/-- A code that is not refused is stored, whether it can be mailed or not. -/
theorem sendCode_run (lib : Hashing) (env : AuthEnv) (mailerUp : Bool) (s : Accounts)
    (email reply : String) : ∃ s' : Accounts,
      (sendCode env email reply).run (execMail lib mailerUp) s =
        (codeAnswer mailerUp s email reply, s') ∧
      s'.users = s.users ∧ (s.CoolingDown email → s' = s) ∧
      (¬ s.CoolingDown email → ∃ ks : Keyspace,
        s'.keys = ks.set s.now (.otpCooldown email) () env.otpResendCooldownSeconds) := by
  unfold sendCode codeAnswer
  by_cases hcool : s.CoolingDown email
  · refine ⟨s, ?_, rfl, fun _ => rfl, fun h => absurd hcool h⟩
    rw [run_bind_of_error (issue_cooling hcool), if_pos hcool]
  · obtain ⟨code, s₁, hissued, husers, hkeys⟩ := @issue_granted lib env mailerUp s email hcool
    rw [run_bind_of_ok hissued, if_neg hcool]
    cases mailerUp with
    | true =>
      exact ⟨{ s₁ with mails := s₁.mails ++ [(email, code)] }, rfl, husers,
        fun h => absurd h hcool, fun _ => hkeys⟩
    | false => exact ⟨s₁, rfl, husers, fun h => absurd h hcool, fun _ => hkeys⟩

/-! ### Sign-up -/

/-- A sign-up with an e-mail that is somebody's. -/
theorem register_taken {dto : RegisterDto} (h : ∃ u ∈ s.users.table.rows, u.email = dto.email) :
    (AuthService.register env dto).run (execMail lib mailerUp) s =
      (.ok AuthService.eligible, s) := by
  have hread : (AuthRepository.findByEmail dto.email).run (execMail lib mailerUp) s =
      (.ok (s.users.findByEmail dto.email), s) := rfl
  have hfound : (s.users.findByEmail dto.email).isSome = true := by
    simpa [Users.findByEmail] using h
  unfold AuthService.register
  refine run_tryCatch_of_ok ?_
  rw [run_bind_of_ok hread, if_pos hfound]
  rfl

/-- A sign-up with an e-mail that nobody has: the account is there, whatever comes of the
code. -/
theorem register_new {dto : RegisterDto} (h : ∀ u ∈ s.users.table.rows, u.email ≠ dto.email) :
    ∃ s', (AuthService.register env dto).run (execMail lib mailerUp) s =
        (codeAnswer mailerUp s dto.email AuthService.eligible, s') ∧
      ∃ u, s'.users.table.rows = s.users.table.rows ++ [u] := by
  have hread : (AuthRepository.findByEmail dto.email).run (execMail lib mailerUp) s =
      (.ok (s.users.findByEmail dto.email), s) := rfl
  have hnone : ¬ (s.users.findByEmail dto.email).isSome = true := by
    simpa [Users.findByEmail] using h
  have hhash : (request (.argon2Hash dto.password)).run (execMail lib mailerUp) s =
      (.ok (lib.argon2Hash s.draw.1 dto.password), s.draw.2) := rfl
  obtain ⟨us', hcreate, hrows⟩ := @Users.create_ok s.users
    ⟨dto.name, dto.email, some (lib.argon2Hash s.draw.1 dto.password), false, none⟩ h rfl
  have hcreated : (AuthRepository.createUser
      ⟨dto.name, dto.email, some (lib.argon2Hash s.draw.1 dto.password), false, none⟩).run
        (execMail lib mailerUp) s.draw.2 = (.ok _, { s.draw.2 with users := us' }) :=
    congrArg s.draw.2.commit hcreate
  obtain ⟨s', hsent, husers, -, -⟩ := sendCode_run lib env mailerUp
    { s.draw.2 with users := us' } dto.email AuthService.eligible
  refine ⟨s', ?_, _, (congrArg (fun us => us.table.rows) husers).trans hrows⟩
  have hstart : (AuthService.register env dto).run (execMail lib mailerUp) s =
      (tryCatch (sendCode env dto.email AuthService.eligible) fun err =>
        if err = .prisma .p2002 then pure AuthService.eligible else throw err).run
          (execMail lib mailerUp) { s.draw.2 with users := us' } := by
    unfold AuthService.register
    rw [run_tryCatch, run_tryCatch, run_bind_of_ok hread, if_neg hnone, run_bind_of_ok hhash,
      run_bind_of_ok hcreated]
    rfl
  -- neither error is a violated index
  have hanswer : codeAnswer mailerUp { s.draw.2 with users := us' } dto.email
      AuthService.eligible = codeAnswer mailerUp s dto.email AuthService.eligible := rfl
  rw [hstart, run_tryCatch, hsent, hanswer]
  unfold codeAnswer
  split_ifs
  · rfl
  · rfl
  · rfl

end Calls

end Accounts

end MovieReservation
