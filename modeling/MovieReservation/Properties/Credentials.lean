import MovieReservation.Accounts.Commands

/-! Signing in checks a password against an argon2 hash, the settings check it
against a bcrypt hash. Sign-up stores argon2 hashes only, so the settings refuse every
current password and the two agree exactly on the passwords that are wrong anyway. -/

namespace MovieReservation

open Lib Lib.Prog Lib.Table Accounts

variable {lib : Hashing} {env : AuthEnv}

/-! ### What is stored -/

/-- Every stored password is a hash that argon2 made. -/
def ArgonOnly (lib : Hashing) (us : Users) : Prop :=
  ∀ u ∈ us.table.rows, ∀ d, u.password = some d → ∃ salt p, d = lib.argon2Hash salt p

theorem argonOnly_create {us us' : Users} {d : UserCreate} {u : User} (h : ArgonOnly lib us)
    (hd : ∀ digest, d.password = some digest → ∃ salt p, digest = lib.argon2Hash salt p)
    (hc : us.create d = .ok (u, us')) : ArgonOnly lib us' := by
  obtain ⟨rfl, ht⟩ := Users.create_eq_ok hc
  intro v hv digest hp
  rw [ht, rows_insert, List.mem_append, List.mem_singleton] at hv
  rcases hv with hv | rfl
  · exact h v hv digest hp
  · exact hd digest hp

theorem argonOnly_update {us us' : Users} {id : ℕ} {d : UserData} {u : User}
    (h : ArgonOnly lib us) (hd : d.password = none) (hc : us.update id d = .ok (u, us')) :
    ArgonOnly lib us' := by
  obtain ⟨u₀, hu₀, rfl, ht⟩ := Users.update_eq_ok hc
  intro v hv digest hp
  rw [ht, mem_modify] at hv
  rcases hv with ⟨hv, -⟩ | ⟨w, hw, -, rfl⟩
  · exact h v hv digest hp
  · refine h w hw digest ?_
    simpa only [UserData.apply, hd, Option.getD_none] using hp

/-- Commands that store no password. -/
def AuthCmd.storesNone : AuthCmd → Prop
  | .userCreate d => d.password = none
  | .userUpdate _ d => d.password = none
  | _ => True

theorem exec_argonOnly {c : AuthCmd} (s : Accounts) (hc : c.storesNone)
    (h : ArgonOnly lib s.users) : ArgonOnly lib (exec lib c s).2.users := by
  cases c
  case userCreate d =>
    show ArgonOnly lib (s.commit (s.users.create d)).2.users
    cases hres : s.users.create d with
    | error e => exact h
    | ok out =>
      refine argonOnly_create h (fun digest hp => ?_) hres
      rw [show d.password = none from hc] at hp
      cases hp
  case userUpdate id d =>
    show ArgonOnly lib (s.commit (s.users.update id d)).2.users
    cases hres : s.users.update id d with
    | error e => exact h
    | ok out => exact argonOnly_update h hc hres
  case rotateRefresh old oldJti u jti seconds =>
    simp only [exec]
    split_ifs <;> exact h
  all_goals exact h

/-! ### Programs that store no password -/

/-- A program of commands that store no password. -/
abbrev StoresNone {α : Type} (p : AuthM α) : Prop := Only AuthCmd.storesNone p

theorem StoresNone.argonOnly {α : Type} {p : AuthM α} (hp : StoresNone p) {s : Accounts}
    (h : ArgonOnly lib s.users) : ArgonOnly lib (perform lib p s).2.users :=
  hp.run (fun c s => exec lib c s) (fun _ t hc ht => exec_argonOnly t hc ht) h

theorem AuthCmd.leavesUsers.storesNone {c : AuthCmd} (h : c.leavesUsers) : c.storesNone := by
  cases c <;> trivial

/-- Only signing up and a new password write a password. -/
theorem AccountRequest.Writes.storesNone {r : AccountRequest} {c : AuthCmd} (hw : r.Writes c)
    (hregister : ∀ dto, r ≠ .register dto)
    (hchange : ∀ userId current new, r ≠ .changePassword userId current new) : c.storesNone := by
  cases hw with
  | register dto hash => exact absurd rfl (hregister dto)
  | changePassword id current new hash => exact absurd rfl (hchange id current new)
  | _ => rfl

theorem handle_storesNone {r : AccountRequest} (hregister : ∀ dto, r ≠ .register dto)
    (hchange : ∀ userId current new, r ≠ .changePassword userId current new) :
    StoresNone (r.handle env) := by
  refine r.handle_onlyWrites.mono fun c hc => ?_
  rcases hc with hleaves | hwrites
  · exact hleaves.storesNone
  · exact hwrites.storesNone hregister hchange

/-! ### The current password -/

/-- `bcrypt.compare` accepts no argon2 hash, so the settings refuse everybody. -/
theorem checkPassword_refused {s : Accounts} (h : ArgonOnly lib s.users) (userId : ℕ)
    (current : String) :
    perform lib (UsersService.checkPassword userId current) s = (.error invalidCredentials, s) := by
  have hread : perform lib (UsersRepository.findById userId) s =
      (.ok (s.users.table.get userId), s) := rfl
  rw [UsersService.checkPassword, perform_bind, hread]
  dsimp only
  cases hd : (s.users.table.get userId).bind User.truthyPassword with
  | none => rfl
  | some digest =>
    obtain ⟨u, hu, hp⟩ := Option.bind_eq_some_iff.mp hd
    obtain ⟨hpass, -⟩ := Option.filter_eq_some_iff.mp hp
    obtain ⟨salt, p, rfl⟩ := h u (mem_of_get hu) digest hpass
    have hcompare : perform lib (AuthM.request (.bcryptCompare current (lib.argon2Hash salt p))) s =
        (.ok false, s) := congrArg (·, s) (lib.bcryptCompare_foreign salt p current)
    dsimp only
    rw [perform_bind, hcompare]
    rfl

theorem changePassword_refused {s : Accounts} (h : ArgonOnly lib s.users) (userId : ℕ)
    (current new : String) :
    perform lib (UsersService.changePassword userId current new) s =
      (.error invalidCredentials, s) := by
  rw [UsersService.changePassword, perform_bind, checkPassword_refused h]

theorem requestEmailChange_refused {s : Accounts} (h : ArgonOnly lib s.users) (userId : ℕ)
    (newEmail current : String) :
    perform lib (UsersService.requestEmailChange env userId newEmail current) s =
      (.error invalidCredentials, s) := by
  rw [UsersService.requestEmailChange, perform_bind, checkPassword_refused h]

/-! ### Every history -/

theorem StoresNone.holds {α : Type} {Q : Except Err α → Accounts → Prop}
    (hq : ∀ r s, ArgonOnly lib s.users → Q r s) {p : AuthM α} (hp : StoresNone p) {s : Accounts}
    (h : ArgonOnly lib s.users) : Holds (fun c s => exec lib c s) (fun _ _ => True) Q p s :=
  Only.holds (fun _ t hc ht => exec_argonOnly t hc ht) hq hp h

/-- Sign-up stores the hash that argon2 made just before. -/
theorem register_argonOnly (env : AuthEnv) {s : Accounts} (h : ArgonOnly lib s.users)
    (dto : RegisterDto) : ArgonOnly lib (perform lib (AuthService.register env dto) s).2.users := by
  have hcatch : ∀ err : Err, StoresNone
      (if err = .prisma .p2002 then pure AuthService.eligible else throw err : AuthM String) := by
    intro err
    split_ifs <;> trivial
  have hrest : ∀ email : String, StoresNone (do
      let code ← OtpService.issue env email
      MailerService.sendOtpEmail email code
      pure AuthService.eligible) := fun email =>
    Only.bind (issueOtp_only trivial trivial (fun _ => trivial) trivial trivial) fun _ =>
      Only.bind (only_authRequest trivial) fun _ => trivial
  refine (holds_true_iff (Q := fun _ (t : Accounts) => ArgonOnly lib t.users)).mp ?_
  unfold AuthService.register
  refine Holds.tryCatch ?_
  refine Holds.bind fun _ => ?_
  show Holds _ _ _ (ite _ _ _) s
  split_ifs with hexists
  · exact h
  · refine Holds.bind fun _ => ?_
    refine Holds.bind fun _ => ?_
    let data : UserCreate :=
      ⟨dto.name, dto.email, some (lib.argon2Hash s.draw.1 dto.password), false, none⟩
    have hexec : exec lib (.userCreate data) s.draw.2 = s.draw.2.commit (s.users.create data) := rfl
    show Holds _ _ _ (done (exec lib (.userCreate data) s.draw.2).1)
      (exec lib (.userCreate data) s.draw.2).2
    rw [hexec]
    cases hres : s.users.create data with
    | error e => exact (hcatch e).holds (fun _ _ hu => hu) h
    | ok out =>
      obtain ⟨user, us⟩ := out
      have hus : ArgonOnly lib us := by
        refine argonOnly_create h (fun digest hp => ?_) hres
        exact ⟨s.draw.1, dto.password, (Option.some.inj hp).symm⟩
      refine (hrest user.email).holds (s := { s.draw.2 with users := us }) (fun r t ht => ?_) hus
      cases r with
      | ok a => exact ht
      | error e => exact (hcatch e).holds (fun _ _ hu => hu) ht

theorem handle_argonOnly (r : AccountRequest) {s : Accounts} (h : ArgonOnly lib s.users) :
    ArgonOnly lib (perform lib (r.handle env) s).2.users := by
  cases r with
  | register dto =>
    have hkeep := register_argonOnly env h dto
    show ArgonOnly lib (perform lib (AuthService.register env dto >>= fun _ => pure ()) s).2.users
    rw [perform_bind]
    rcases hres : perform lib (AuthService.register env dto) s with ⟨_ | _, t⟩ <;>
      rw [hres] at hkeep <;> exact hkeep
  | changePassword userId current new =>
    show ArgonOnly lib (perform lib (UsersService.changePassword userId current new >>=
      fun _ => pure ()) s).2.users
    rw [perform_bind, changePassword_refused h]
    exact h
  | _ =>
    refine StoresNone.argonOnly (handle_storesNone ?_ ?_) h
    · exact fun _ => nofun
    · exact fun _ _ _ => nofun

theorem history_argonOnly (xs : List (ℕ ⊕ AccountRequest)) {s : Accounts}
    (h : ArgonOnly lib s.users) : ArgonOnly lib (history lib env xs s).users := by
  induction xs generalizing s with
  | nil => exact h
  | cons x xs ih =>
    refine ih ?_
    cases x with
    | inl ms => exact h
    | inr r => exact handle_argonOnly r h

theorem argonOnly_initial (now : Time) (entropy : ℕ → ℕ) :
    ArgonOnly lib (Accounts.initial now entropy).users := by
  intro u hu
  cases hu

/-! ### Where the two agree -/

/-- The two ways of checking a password agree on `p` for user `u`, and a successful
change from `p` replaces it. -/
structure CredentialsAgree (lib : Hashing) (env : AuthEnv) (s : Accounts) (u : User) (p : String) :
    Prop where
  changePassword : ∀ new, (∃ a, (perform lib (AuthService.validateUser u.email p) s).1 = .ok a) ↔
    (perform lib (UsersService.changePassword u.id p new) s).1 ≠ .error invalidCredentials
  requestEmailChange : ∀ newEmail,
    (∃ a, (perform lib (AuthService.validateUser u.email p) s).1 = .ok a) ↔
      (perform lib (UsersService.requestEmailChange env u.id newEmail p) s).1 ≠
        .error invalidCredentials
  changed : ∀ new cookies t, new ≠ p →
    perform lib (UsersService.changePassword u.id p new) s = (.ok cookies, t) →
      (∃ a, (perform lib (AuthService.validateUser u.email new) t).1 = .ok a) ∧
        (perform lib (AuthService.validateUser u.email p) t).1 = .error invalidLogin

/-- A verified user signs in with the password whose argon2 hash is stored. -/
theorem validateUser_ok_iff {s : Accounts} (h : ArgonOnly lib s.users) {u : User}
    (hu : u ∈ s.users.table.rows) (hv : u.emailVerified = true) (p : String) :
    (∃ a, (perform lib (AuthService.validateUser u.email p) s).1 = .ok a) ↔
      ∃ salt, u.password = some (lib.argon2Hash salt p) := by
  have hread : perform lib (AuthRepository.findByEmail u.email) s = (.ok (some u), s) := by
    rw [← Users.findByEmail_of_mem hu]
    rfl
  cases hpass : u.password with
  | none =>
    have hnone : u.truthyPassword = none := by rw [User.truthyPassword, hpass]; rfl
    rw [AuthService.validateUser, perform_bind, hread]
    simp only [Option.bind_some, hnone, Option.map_none, perform_throw]
    simp
  | some digest =>
    obtain ⟨salt, q, rfl⟩ := h u hu digest hpass
    have hsome : u.truthyPassword = some (lib.argon2Hash salt q) := by
      rw [User.truthyPassword, hpass, Option.filter_some]
      simp [lib.argon2Hash_ne_empty]
    have hverify : perform lib (AuthM.request (.argon2Verify (lib.argon2Hash salt q) p)) s =
        (.ok (decide (p = q)), s) := congrArg (·, s) (lib.argon2Verify_hash salt q p)
    rw [AuthService.validateUser, perform_bind, hread]
    simp only [Option.bind_some, hsome, Option.map_some]
    rw [perform_bind, hverify]
    by_cases hq : p = q
    · subst hq
      simp only [decide_true, if_true, hv]
      exact ⟨fun _ => ⟨salt, rfl⟩, fun _ => ⟨u.toAuthUser, rfl⟩⟩
    · simp only [hq, decide_false, Bool.false_eq_true, if_false, perform_throw]
      refine ⟨fun ⟨_, ha⟩ => (nomatch ha), fun ⟨salt', hs⟩ => ?_⟩
      -- one digest would be of two passwords
      have htwo := lib.argon2Verify_hash salt q p
      rw [Option.some.inj hs, lib.argon2Verify_hash salt' p p] at htwo
      simp [hq] at htwo

/-- After any history, signing in and the settings agree on a password of a verified
user exactly if it is not the user's password. -/
theorem credentials_agree_iff (lib : Hashing) (env : AuthEnv) (now : Time) (entropy : ℕ → ℕ)
    (xs : List (ℕ ⊕ AccountRequest)) (u : User)
    (hu : u ∈ (history lib env xs (Accounts.initial now entropy)).users.table.rows)
    (hv : u.emailVerified = true) (p : String) :
    CredentialsAgree lib env (history lib env xs (Accounts.initial now entropy)) u p ↔
      ¬ ∃ salt, u.password = some (lib.argon2Hash salt p) := by
  have h : ArgonOnly lib (history lib env xs (Accounts.initial now entropy)).users :=
    history_argonOnly xs (argonOnly_initial now entropy)
  generalize history lib env xs (Accounts.initial now entropy) = s at hu h ⊢
  have hlogin := validateUser_ok_iff h hu hv p
  constructor
  · intro hagree hpass
    exact ((hagree.changePassword "").mp (hlogin.mpr hpass))
      (congrArg Prod.fst (changePassword_refused h u.id p ""))
  · intro hpass
    have hout : ¬ ∃ a, (perform lib (AuthService.validateUser u.email p) s).1 = .ok a :=
      fun ha => hpass (hlogin.mp ha)
    refine ⟨fun new => ⟨fun ha => absurd ha hout, fun hne => ?_⟩,
      fun newEmail => ⟨fun ha => absurd ha hout, fun hne => ?_⟩, fun new cookies t _ hok => ?_⟩
    · exact absurd (congrArg Prod.fst (changePassword_refused h u.id p new)) hne
    · exact absurd (congrArg Prod.fst (requestEmailChange_refused h u.id newEmail p)) hne
    · rw [changePassword_refused h] at hok
      cases congrArg Prod.fst hok

/-! ### An account -/

/-- The two encodings with nothing hashed. -/
def plainText : Hashing where
  argon2Hash _ p := "$argon2id$" ++ p
  argon2Verify d q := .ok (d = "$argon2id$" ++ q)
  bcryptHash _ p := "$2b$10$" ++ p
  bcryptCompare q d := .ok (d = "$2b$10$" ++ q)
  argon2Hash_ne_empty s p h := by
    have := congrArg String.toList h
    simp at this
  argon2Verify_hash s p q := by
    have hiff : "$argon2id$" ++ p = "$argon2id$" ++ q ↔ q = p :=
      (String.append_right_inj _).trans eq_comm
    simp only [hiff]
  bcryptCompare_foreign s p q := by
    have hne : "$argon2id$" ++ p ≠ "$2b$10$" ++ q := by
      intro h
      have := congrArg String.toList h
      simp at this
    simp [hne]

/-- Ada signs up and enters the code that was mailed to her. -/
def signUp : List (ℕ ⊕ AccountRequest) :=
  [.inr (.register ⟨"Ada", "ada@example.com", "Secret123"⟩),
    .inr (.verifyOtp "ada@example.com" "100000")]

def ada : User := ⟨1, "Ada", "ada@example.com", some "$argon2id$Secret123", true, none, .user⟩

theorem wrong_password_agrees : CredentialsAgree plainText ⟨600, 5, 60⟩
    (history plainText ⟨600, 5, 60⟩ signUp (Accounts.initial 0 fun _ => 0)) ada "Secret321" :=
  (credentials_agree_iff plainText ⟨600, 5, 60⟩ 0 (fun _ => 0) signUp ada (by decide +kernel) rfl
    "Secret321").mpr fun ⟨_, h⟩ => by simp [plainText, ada] at h

/-- Ada can sign in with her password but cannot change it. -/
theorem own_password_refused :
    ¬ ∀ xs, ∀ u ∈ (history plainText ⟨600, 5, 60⟩ xs
        (Accounts.initial 0 fun _ => 0)).users.table.rows, u.emailVerified = true →
      ∀ p, CredentialsAgree plainText ⟨600, 5, 60⟩
        (history plainText ⟨600, 5, 60⟩ xs (Accounts.initial 0 fun _ => 0)) u p := by
  intro h
  have hagree := (h signUp ada (by decide +kernel) rfl "Secret123").changePassword "Better456"
  exact hagree.mp ⟨⟨1, "Ada", "ada@example.com", .user⟩, by decide +kernel⟩ (by decide +kernel)

end MovieReservation
