import MovieReservation.Accounts.Codes
import MovieReservation.Properties.AccessTokens

/-! What a rejected sign-up or e-mail change leaves. Both calls write their first record
before they ask for a one-time password, and the request for it can be refused, or the mail
can fail, so that what was written stays. -/

namespace MovieReservation

open Lib Lib.Prog Lib.Table Accounts

open AuthM (request)

/-- The calls that write for an address and then ask for a code to it. -/
inductive CodeRequest where
  | register (dto : RegisterDto)
  | requestEmailChange (userId : ℕ) (newEmail currentPassword : String)

namespace CodeRequest

def handle (env : AuthEnv) : CodeRequest → AuthM String
  | register dto => AuthService.register env dto
  | requestEmailChange userId newEmail currentPassword =>
    UsersService.requestEmailChange env userId newEmail currentPassword

def address : CodeRequest → String
  | register dto => dto.email
  | requestEmailChange _ newEmail _ => newEmail

def caller : CodeRequest → Option ℕ
  | register _ => none
  | requestEmailChange userId _ _ => some userId

/-- The users, the pending change of the caller and the keys of the address are the same. -/
structure Untouched (r : CodeRequest) (s s' : Accounts) : Prop where
  users : s'.users.table.rows = s.users.table.rows
  pending : ∀ u ∈ r.caller,
    s'.keys.live s.now (.pendingEmail u) = s.keys.live s.now (.pendingEmail u)
  code : s'.keys.live s.now (.otp r.address) = s.keys.live s.now (.otp r.address)
  attempts : s'.keys.live s.now (.otpAttempts r.address) =
    s.keys.live s.now (.otpAttempts r.address)
  cooldown : s'.keys.live s.now (.otpCooldown r.address) =
    s.keys.live s.now (.otpCooldown r.address)

/-- If the call is rejected, nothing is half done. -/
def Clean (lib : Hashing) (env : AuthEnv) (mailerUp : Bool) (r : CodeRequest) (s : Accounts) :
    Prop :=
  ∀ e s', (r.handle env).run (execMail lib mailerUp) s = (.error e, s') → r.Untouched s s'

/-- The caller has a password, and it is the one given. -/
def Knows (lib : Hashing) (s : Accounts) (userId : ℕ) (password : String) : Prop :=
  ∃ user ∈ s.users.table.get userId, ∃ digest ∈ user.truthyPassword,
    lib.bcryptCompare password digest = .ok true

/-- The call is rejected before it writes, or not rejected, or writes what was there. -/
def Sound (lib : Hashing) (env : AuthEnv) (mailerUp : Bool) (s : Accounts) : CodeRequest → Prop
  | register dto => (∃ u ∈ s.users.table.rows, u.email = dto.email) ∨
    ¬ s.CoolingDown dto.email ∧ mailerUp = true
  | requestEmailChange userId newEmail currentPassword =>
    ¬ Knows lib s userId currentPassword ∨ (∃ u ∈ s.users.table.rows, u.email = newEmail) ∨
    ¬ s.CoolingDown newEmail ∧ mailerUp = true ∨
    s.CoolingDown newEmail ∧
      s.keys.live s.now (.pendingEmail userId) =
        some ⟨newEmail, some (s.now + env.otpTtlSeconds * 1000)⟩

end CodeRequest

/-! ### E-mail changes -/

section Calls
variable {lib : Hashing} {env : AuthEnv} {mailerUp : Bool} {s : Accounts} {email : String}

theorem live_set (ks : Keyspace) (now : Time) (k : AuthKey) (v : k.Value) {seconds : ℕ}
    (h : 0 < seconds) : (ks.set now k v seconds).live now k =
      some ⟨v, some (now + seconds * 1000)⟩ := by
  unfold Keyspace.live Keyspace.set Keyspace.put
  rw [Function.update_self, Option.filter_some, if_pos]
  simp
  omega

theorem live_set_ne (ks : Keyspace) (now : Time) {k k' : AuthKey} (h : k' ≠ k) (v : k.Value)
    (seconds : ℕ) : (ks.set now k v seconds).live now k' = ks.live now k' := by
  unfold Keyspace.live
  rw [ks.set_ne now h]

theorem checkPassword_cases (userId : ℕ) (password : String) :
    (CodeRequest.Knows lib s userId password ∧
      (UsersService.checkPassword userId password).run (execMail lib mailerUp) s = (.ok (), s)) ∨
    ¬ CodeRequest.Knows lib s userId password ∧ ∃ e,
      (UsersService.checkPassword userId password).run (execMail lib mailerUp) s =
        (.error e, s) := by
  have hread : (UsersRepository.findById userId).run (execMail lib mailerUp) s =
      (.ok (s.users.table.get userId), s) := rfl
  have hdigest : CodeRequest.Knows lib s userId password ↔
      ∃ digest ∈ (s.users.table.get userId).bind User.truthyPassword,
        lib.bcryptCompare password digest = .ok true := by
    unfold CodeRequest.Knows
    cases s.users.table.get userId with
    | none => simp
    | some user => simp
  rw [hdigest]
  unfold UsersService.checkPassword
  rw [run_bind_of_ok hread]
  cases (s.users.table.get userId).bind User.truthyPassword with
  | none => exact .inr ⟨by simp, _, rfl⟩
  | some digest =>
    have hcompare : (request (.bcryptCompare password digest)).run (execMail lib mailerUp) s =
        (lib.bcryptCompare password digest, s) := rfl
    simp only [Option.mem_some_iff, exists_eq_left']
    rcases hmatch : lib.bcryptCompare password digest with e | _ | _
    · rw [hmatch] at hcompare
      exact .inr ⟨nofun, e, run_bind_of_error hcompare⟩
    · rw [hmatch] at hcompare
      exact .inr ⟨nofun, _, run_bind_of_ok hcompare⟩
    · rw [hmatch] at hcompare
      exact .inl ⟨rfl, run_bind_of_ok hcompare⟩

/-- The pending change of the user, before the code is asked for. -/
def setPending (env : AuthEnv) (userId : ℕ) (newEmail : String) (s : Accounts) : Accounts :=
  { s with keys := s.keys.set s.now (.pendingEmail userId) newEmail env.otpTtlSeconds }

theorem emailChange_cases (userId : ℕ) (newEmail password : String) :
    ((¬ CodeRequest.Knows lib s userId password ∨ ∃ u ∈ s.users.table.rows, u.email = newEmail) ∧
      ∃ e, (UsersService.requestEmailChange env userId newEmail password).run
        (execMail lib mailerUp) s = (.error e, s)) ∨
    (CodeRequest.Knows lib s userId password ∧ ¬ ∃ u ∈ s.users.table.rows, u.email = newEmail) ∧
      (UsersService.requestEmailChange env userId newEmail password).run
        (execMail lib mailerUp) s =
          (sendCode env newEmail "Verification code sent to new email").run
            (execMail lib mailerUp) (setPending env userId newEmail s) := by
  have hread : (UsersRepository.findByEmail newEmail).run (execMail lib mailerUp) s =
      (.ok (s.users.findByEmail newEmail), s) := rfl
  have hfound : (s.users.findByEmail newEmail).isSome = true ↔
      ∃ u ∈ s.users.table.rows, u.email = newEmail := by
    simp [Users.findByEmail]
  unfold UsersService.requestEmailChange
  rcases @checkPassword_cases lib mailerUp s userId password with
    ⟨hknows, hrun⟩ | ⟨hknows, e, hrun⟩
  · rw [run_bind_of_ok hrun, run_bind_of_ok hread]
    by_cases hregistered : (s.users.findByEmail newEmail).isSome = true
    · rw [if_pos hregistered]
      exact .inl ⟨.inr (hfound.mp hregistered), _, rfl⟩
    · rw [if_neg hregistered]
      exact .inr ⟨⟨hknows, fun h => hregistered (hfound.mpr h)⟩, rfl⟩
  · exact .inl ⟨.inl hknows, e, run_bind_of_error hrun⟩

end Calls

namespace CodeRequest
variable {lib : Hashing} {env : AuthEnv} {mailerUp : Bool} {s : Accounts}

theorem Untouched.refl (r : CodeRequest) (s : Accounts) : r.Untouched s s :=
  ⟨rfl, fun _ _ => rfl, rfl, rfl, rfl⟩

theorem codeAnswer_ok_iff {email reply : String} :
    (∃ a, codeAnswer mailerUp s email reply = .ok a) ↔ ¬ s.CoolingDown email ∧ mailerUp = true := by
  unfold codeAnswer
  split_ifs with hcool hup
  · exact iff_of_false nofun fun h => h.1 hcool
  · exact iff_of_true ⟨_, rfl⟩ ⟨hcool, hup⟩
  · exact iff_of_false nofun fun h => hup h.2

theorem clean_register_iff (dto : RegisterDto) :
    (register dto).Clean lib env mailerUp s ↔ (register dto).Sound lib env mailerUp s := by
  by_cases hregistered : ∃ u ∈ s.users.table.rows, u.email = dto.email
  · refine iff_of_true (fun e s' hrun => ?_) (.inl hregistered)
    cases hrun.symm.trans (register_taken hregistered)
  · have hnew : ∀ u ∈ s.users.table.rows, u.email ≠ dto.email := by
      simpa using hregistered
    obtain ⟨s', hrun, u, hrows⟩ := @register_new lib env mailerUp s dto hnew
    rw [Sound, or_iff_right hregistered,
      ← @codeAnswer_ok_iff mailerUp s dto.email AuthService.eligible]
    cases hanswer : codeAnswer mailerUp s dto.email AuthService.eligible with
    | ok a =>
      refine iff_of_true (fun e s'' hrun' => ?_) ⟨a, rfl⟩
      rw [hanswer] at hrun
      cases hrun'.symm.trans hrun
    | error e =>
      rw [hanswer] at hrun
      refine iff_of_false (fun hclean => ?_) nofun
      exact absurd (List.append_right_eq_self.mp (hrows.symm.trans (hclean e s' hrun).users))
        (List.cons_ne_nil u [])

theorem clean_emailChange_iff (hcooldown : 0 < env.otpResendCooldownSeconds)
    (httl : 0 < env.otpTtlSeconds) (userId : ℕ) (newEmail password : String) :
    (requestEmailChange userId newEmail password).Clean lib env mailerUp s ↔
      (requestEmailChange userId newEmail password).Sound lib env mailerUp s := by
  rcases @emailChange_cases lib env mailerUp s userId newEmail password with
    ⟨hrefused, e, hrun⟩ | ⟨⟨hknows, hnew⟩, hrun⟩
  · refine iff_of_true (fun e' s' hrun' => ?_) (hrefused.imp_right .inl)
    cases hrun'.symm.trans hrun
    exact .refl _ s
  rw [Sound, or_iff_right (not_not.mpr hknows), or_iff_right hnew]
  have hsame : ∀ k, k ≠ .pendingEmail userId →
      (setPending env userId newEmail s).keys.live s.now k = s.keys.live s.now k :=
    fun k hk => live_set_ne s.keys s.now hk newEmail env.otpTtlSeconds
  have hpending : (setPending env userId newEmail s).keys.live s.now (.pendingEmail userId) =
      some ⟨newEmail, some (s.now + env.otpTtlSeconds * 1000)⟩ :=
    live_set s.keys s.now (.pendingEmail userId) newEmail httl
  have hcools : (setPending env userId newEmail s).CoolingDown newEmail ↔
      s.CoolingDown newEmail := by
    have hlive := hsame (.otpCooldown newEmail) nofun
    exact iff_of_eq (congrArg (fun e => (Option.map Entry.value e).isSome = true) hlive)
  obtain ⟨s', hsent, -, hrefused, hissued⟩ := sendCode_run lib env mailerUp
    (setPending env userId newEmail s) newEmail "Verification code sent to new email"
  have hrun := hrun.trans hsent
  by_cases hcool : s.CoolingDown newEmail
  · -- the pending change is all that was written
    obtain rfl := hrefused (hcools.mpr hcool)
    rw [or_iff_right fun h => h.1 hcool, and_iff_right hcool]
    rw [codeAnswer, if_pos (hcools.mpr hcool)] at hrun
    constructor
    · intro hclean
      exact ((hclean _ _ hrun).pending userId rfl).symm.trans hpending
    · intro hold e' s' hrun'
      cases hrun'.symm.trans hrun
      refine ⟨rfl, fun u hu => ?_, hsame _ nofun, hsame _ nofun, hsame _ nofun⟩
      cases hu
      exact hpending.trans hold.symm
  · rw [or_iff_left fun h => hcool h.1, and_iff_right hcool]
    rw [codeAnswer, if_neg (mt hcools.mp hcool)] at hrun
    cases mailerUp with
    | true =>
      refine iff_of_true (fun e' s'' hrun' => ?_) rfl
      cases hrun'.symm.trans hrun
    | false =>
      -- the code was issued, so the cooldown is active now
      refine iff_of_false (fun hclean => ?_) Bool.false_ne_true
      obtain ⟨ks, hks⟩ := hissued (mt hcools.mp hcool)
      have hstarted : s'.keys.live s.now (.otpCooldown newEmail) = some ⟨(), _⟩ :=
        hks ▸ live_set ks s.now (.otpCooldown newEmail) () hcooldown
      have hbefore := hstarted.symm.trans (hclean _ _ hrun).cooldown
      exact hcool (congrArg (fun e => (Option.map Entry.value e).isSome) hbefore).symm

end CodeRequest

/-- **A rejected call leaves nothing half done exactly if it is rejected before it writes, or
is not rejected, or repeats the same pending change.** -/
theorem rejection_clean_iff (lib : Hashing) (env : AuthEnv) (mailerUp : Bool) (r : CodeRequest)
    (s : Accounts) (hcooldown : 0 < env.otpResendCooldownSeconds) (httl : 0 < env.otpTtlSeconds) :
    r.Clean lib env mailerUp s ↔ r.Sound lib env mailerUp s := by
  cases r with
  | register dto => exact CodeRequest.clean_register_iff dto
  | requestEmailChange userId newEmail password =>
    exact CodeRequest.clean_emailChange_iff hcooldown httl userId newEmail password

/-- The first sign-up for an address. -/
theorem first_signup_clean :
    CodeRequest.Clean plainText ⟨600, 5, 60⟩ true (.register ⟨"Ada", "ada@example.org", "Secret"⟩)
        loadTestUser ↔
      CodeRequest.Sound plainText ⟨600, 5, 60⟩ true loadTestUser
        (.register ⟨"Ada", "ada@example.org", "Secret"⟩) :=
  rejection_clean_iff plainText ⟨600, 5, 60⟩ true _ loadTestUser (by decide) (by decide)

/-- An address that another user just asked a code for is signed up: the call is refused, and
the account stays. -/
theorem refused_signup_stays : ¬ ∀ (xs : List (ℕ ⊕ AccountRequest)) (r : CodeRequest),
    r.Clean plainText ⟨600, 5, 60⟩ true (history plainText ⟨600, 5, 60⟩ xs loadTestUser) := by
  intro h
  have hsound := CodeRequest.clean_register_iff ⟨"Ada", "ada@example.org", "Secret"⟩ |>.mp
    (h [.inr (.requestEmailChange 1 "ada@example.org" "LoadTest123!")] _)
  rcases hsound with hregistered | ⟨hfree, -⟩
  · revert hregistered
    decide +kernel
  · revert hfree
    decide +kernel

end MovieReservation
