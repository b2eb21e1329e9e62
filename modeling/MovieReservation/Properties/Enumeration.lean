import MovieReservation.Accounts.Codes
import MovieReservation.Properties.Credentials

/-! What a stranger learns about an e-mail from sign-up and resend, in two states that differ
in whether somebody has it. Both services answer a new sign-up and an existing account alike,
unless a code was issued a moment ago, and `resendOtp` has its own words for an account that
is not verified. -/

namespace MovieReservation

open Lib Lib.Prog Accounts

/-- The e-mail is nobody's in the first state and the user's in the second; they differ in
nothing else that is stored. -/
structure DifferBy (email : String) (u : User) (s s' : Accounts) : Prop where
  now : s'.now = s.now
  keys : s'.keys = s.keys
  absent : ∀ v ∈ s.users.table.rows, v.email ≠ email
  present : u ∈ s'.users.table.rows ∧ u.email = email
  others : ∀ v, v.email ≠ email → (v ∈ s'.users.table.rows ↔ v ∈ s.users.table.rows)

/-- The two states answer a sign-up with the e-mail and a resend to it alike. -/
def SameAnswers (lib : Hashing) (env : AuthEnv) (dto : RegisterDto) (s s' : Accounts) : Prop :=
  (perform lib (AuthService.register env dto) s).1 =
      (perform lib (AuthService.register env dto) s').1 ∧
    (perform lib (AuthService.resendOtp env dto.email) s).1 =
      (perform lib (AuthService.resendOtp env dto.email) s').1

section Answers
variable {lib : Hashing} {env : AuthEnv} {s : Accounts} {email : String}

/-- A sign-up with an e-mail that nobody has. -/
theorem perform_register_new {dto : RegisterDto}
    (h : ∀ v ∈ s.users.table.rows, v.email ≠ dto.email) :
    (perform lib (AuthService.register env dto) s).1 =
      if s.CoolingDown dto.email then .error pleaseWait else .ok AuthService.eligible := by
  obtain ⟨s', hrun, -⟩ := @register_new lib env true s dto h
  rw [perform_eq_execMail, hrun]
  rfl

/-- A sign-up with an e-mail that is somebody's. -/
theorem perform_register_taken {dto : RegisterDto} {u : User} (hu : u ∈ s.users.table.rows)
    (hemail : u.email = dto.email) :
    (perform lib (AuthService.register env dto) s).1 = .ok AuthService.eligible := by
  rw [perform_eq_execMail, register_taken ⟨u, hu, hemail⟩]

theorem resendOtp_unknown (h : ∀ v ∈ s.users.table.rows, v.email ≠ email) :
    (perform lib (AuthService.resendOtp env email) s).1 = .ok "If eligible, a code was sent" := by
  have hfind : s.users.findByEmail email = none :=
    List.find?_eq_none.mpr fun v hv => by simpa using h v hv
  have hread : perform lib (AuthRepository.findByEmail email) s = (.ok none, s) := by
    rw [← hfind]
    rfl
  rw [AuthService.resendOtp, perform_bind, hread]
  rfl

theorem resendOtp_known {u : User} (hu : u ∈ s.users.table.rows) (hemail : u.email = email) :
    (perform lib (AuthService.resendOtp env email) s).1 =
      if u.emailVerified then .ok "If eligible, a code was sent"
      else if s.CoolingDown email then .error pleaseWait else .ok "Verification code sent" := by
  have hread : perform lib (AuthRepository.findByEmail email) s = (.ok (some u), s) := by
    rw [← hemail, ← Users.findByEmail_of_mem hu]
    rfl
  rw [AuthService.resendOtp, perform_bind, hread]
  dsimp only
  by_cases hv : u.emailVerified = true
  · rw [if_pos hv, if_pos hv]
    rfl
  · obtain ⟨s', hsent, -⟩ := sendCode_run lib env true s email "Verification code sent"
    rw [if_neg hv, if_neg hv, hemail]
    change (perform lib (sendCode env email "Verification code sent") s).1 = _
    rw [perform_eq_execMail, hsent]
    rfl

end Answers

section Differ
variable {lib : Hashing} {env : AuthEnv} {s s' : Accounts} {dto : RegisterDto} {u : User}

/-- Sign-up tells the states apart exactly if a code was issued a moment ago. -/
theorem DifferBy.register_iff (h : DifferBy dto.email u s s') :
    (perform lib (AuthService.register env dto) s).1 =
        (perform lib (AuthService.register env dto) s').1 ↔ ¬ s.CoolingDown dto.email := by
  rw [perform_register_new h.absent, perform_register_taken h.present.1 h.present.2]
  split_ifs with hcool
  · exact iff_of_false nofun fun hnot => hnot hcool
  · exact iff_of_true rfl hcool

/-- Resending tells them apart exactly if the user is not verified. -/
theorem DifferBy.resendOtp_iff (h : DifferBy dto.email u s s') :
    (perform lib (AuthService.resendOtp env dto.email) s).1 =
        (perform lib (AuthService.resendOtp env dto.email) s').1 ↔ u.emailVerified = true := by
  rw [resendOtp_unknown h.absent, resendOtp_known h.present.1 h.present.2]
  split_ifs with hverified hcool
  · exact iff_of_true rfl hverified
  · exact iff_of_false nofun hverified
  · refine iff_of_false (fun he => ?_) hverified
    exact absurd (Except.ok.inj he) (by decide)

end Differ

/-- Two states that differ in whether the e-mail is somebody's answer alike exactly if no code
was issued for it a moment ago and its user is verified. -/
theorem same_answers_iff (lib : Hashing) (env : AuthEnv) (dto : RegisterDto) (u : User)
    (s s' : Accounts) (h : DifferBy dto.email u s s') :
    SameAnswers lib env dto s s' ↔ ¬ s.CoolingDown dto.email ∧ u.emailVerified = true :=
  and_congr h.register_iff h.resendOtp_iff

/-! ### Ada's account -/

/-- Ada has signed up, and verified her e-mail or not. -/
def withAda (verified : Bool) : Accounts :=
  (exec plainText (.userCreate
    ⟨"Ada", "ada@example.com", some "$argon2id$Secret123", verified, none⟩)
      (Accounts.initial 0 fun _ => 0)).2

def adaAgain : RegisterDto := ⟨"Ada", "ada@example.com", "Secret123"⟩

theorem withAda_differs (verified : Bool) : DifferBy "ada@example.com"
    { ada with emailVerified := verified } (Accounts.initial 0 fun _ => 0) (withAda verified) := by
  have hrows : (withAda verified).users.table.rows = [{ ada with emailVerified := verified }] := by
    cases verified <;> rfl
  refine ⟨rfl, rfl, fun v hv => ?_, ?_, fun v hne => ?_⟩
  · cases hv
  · rw [hrows]
    exact ⟨List.mem_singleton_self _, rfl⟩
  · rw [hrows]
    refine iff_of_false (fun hv => ?_) nofun
    rw [List.mem_singleton.mp hv] at hne
    exact hne rfl

theorem ada_not_told : SameAnswers plainText ⟨600, 5, 60⟩ adaAgain (Accounts.initial 0 fun _ => 0)
    (withAda true) :=
  (same_answers_iff plainText ⟨600, 5, 60⟩ adaAgain _ _ _ (withAda_differs true)).mpr
    ⟨by decide +kernel, rfl⟩

/-- A resend tells that Ada has signed up but has not verified her e-mail. -/
theorem ada_told : ¬ ∀ dto u s s', DifferBy dto.email u s s' →
    SameAnswers plainText ⟨600, 5, 60⟩ dto s s' := by
  intro h
  have hdiffer : DifferBy adaAgain.email _ _ _ := withAda_differs false
  cases hdiffer.resendOtp_iff.mp (h adaAgain _ _ _ hdiffer).2

end MovieReservation
