import MovieReservation.Lib.Effects
import MovieReservation.Properties.Credentials

/-! The e-mail of a verified user was proven: every request may be served in any order, side
by side with others, and fail at any command. The flag is set and the e-mail is changed
by a process that has compared its code equal; while the process that sets the flag is on
its way, the e-mail can only be replaced by one that was proven too. -/

namespace MovieReservation

open Lib Lib.Prog Lib.Table Lib.System Accounts

/-! ### The system -/

/-- Any number of requests, whether or not their users hold a token, command by command. -/
def accountSystem (lib : Hashing) (env : AuthEnv) :
    System AuthCmd AuthCmd.Reply Err Accounts AccountRequest ℕ Unit where
  exec _ := exec lib
  ready _ _ _ := true
  fault := AuthCmd.fault
  env ms s := { s with now := s.now + ms }
  handler := AccountRequest.handle env

/-- The process called `OtpService.verify` for the user with this e-mail and code. -/
def MadeFor (id : ℕ) (email code : String) (l : AuthTrail) : AccountRequest → Prop
  | .verifyOtp e c => e = email ∧ c = code ∧
    ∃ u : User, ⟨.userFindByEmail email, .ok (some u)⟩ ∈ l ∧ u.id = id
  | .confirmEmailChange userId c => userId = id ∧ c = code ∧
    ⟨.get (.pendingEmail id), .ok (some email)⟩ ∈ l
  | _ => False

/-- The call came as far as the comparison, and what was stored was the code. -/
def ComparedEqual (env : AuthEnv) (email code : String) (l : AuthTrail) : Prop :=
  ∃ attempts ≤ env.otpMaxAttempts, [⟨.get (.otp email), .ok (some code)⟩,
    ⟨.incrAttempts email, .ok attempts⟩, ⟨.expireAttempts email env.otpTtlSeconds, .ok ()⟩] <:+: l

/-- Some process compared the code for this user and e-mail. -/
def Proven (env : AuthEnv) (ops : List AccountRequest) (tr : AuthLog) (id : ℕ) (email : String) :
    Prop :=
  ∃ i op code, ops[i]? = some op ∧ MadeFor id email code (own i tr) op ∧
    ComparedEqual env email code (own i tr)

/-- The account was created by a sign-in with Google with the e-mail. -/
def CreatedByGoogle (ops : List AccountRequest) (done : AuthLog) (id : ℕ) (email : String) : Prop :=
  ∃ i profile u, ops[i]? = some (.googleSignIn profile) ∧ profile.email = email ∧
    (i, ⟨.userCreate profile.data, .ok u⟩) ∈ done ∧ u.id = id

/-! ### What a process knows -/

/-- Only a sign-in with Google creates a verified user, only `verifyOtp` sets the flag and
only `confirmEmailChange` changes the e-mail, both once the codes were equal. -/
def EmailGround (env : AuthEnv) (op : AccountRequest) (l : AuthTrail) : AuthCmd → Prop
  | .userCreate d => d.emailVerified = true → ∃ profile, op = .googleSignIn profile ∧
    d = profile.data
  | .userUpdate id d =>
    (∀ b, d.emailVerified = some b →
      ∃ (email code : String) (u : User), op = .verifyOtp email code ∧
      ⟨.userFindByEmail email, .ok (some u)⟩ ∈ l ∧ u.id = id ∧ ComparedEqual env email code l) ∧
    ∀ email, d.email = some email → ∃ code, op = .confirmEmailChange id code ∧
      ⟨.get (.pendingEmail id), .ok (some email)⟩ ∈ l ∧ ComparedEqual env email code l
  | _ => True

section Ground
variable {env : AuthEnv} {op : AccountRequest} {l : AuthTrail}

theorem emailGround_of_leaves {c : AuthCmd} (h : c.leavesUsers) : EmailGround env op l c := by
  cases c with
  | userCreate d => exact h.elim
  | userUpdate id d => exact h.elim
  | _ => trivial

theorem Only.emailGround {α : Type} {p : AuthM α} (h : Only AuthCmd.leavesUsers p) :
    Informed (EmailGround env op) l p :=
  .of_only (h.mono fun _ hc _ => emailGround_of_leaves hc)

theorem issueAuthCookies_ground (user : AuthUser) :
    Informed (EmailGround env op) l (TokenService.issueAuthCookies user) :=
  Only.emailGround (issueAuthCookies_only trivial trivial trivial fun _ => trivial)

theorem issueOtp_ground (email : String) :
    Informed (EmailGround env op) l (OtpService.issue env email) :=
  Only.emailGround (issueOtp_only trivial trivial (fun _ => trivial) trivial trivial)

theorem getAuthUser_ground (id : ℕ) :
    Informed (EmailGround env op) l (AuthService.getAuthUser id) :=
  Only.emailGround (getAuthUser_only trivial)

theorem checkPassword_ground (userId : ℕ) (current : String) :
    Informed (EmailGround env op) l (UsersService.checkPassword userId current) :=
  Only.emailGround (checkPassword_only trivial (fun _ _ => trivial) current)

/-- When `OtpService.verify` answers `true`, the codes were equal. -/
theorem verify_yields (email code : String) :
    Yields (fun l r => r = .ok true → ComparedEqual env email code l) l
      (OtpService.verify env email code) := by
  unfold OtpService.verify
  refine yields_issue_bind nofun fun stored => ?_
  cases stored with
  | none => exact nofun
  | some stored =>
    refine yields_issue_bind nofun fun attempts => yields_issue_bind nofun fun _ => ?_
    split_ifs with hmany hne
    · exact yields_issue_bind nofun fun _ => nofun
    · exact nofun
    · refine yields_issue_bind nofun fun _ => yields_issue_bind nofun fun _ _ => ?_
      obtain rfl : stored = code := not_not.mp hne
      refine ⟨attempts, Nat.le_of_not_lt hmany, l, ?_⟩
      exact ⟨[⟨.del [.otp email], .ok ()⟩, ⟨.del [.otpAttempts email], .ok ()⟩], by simp⟩

/-- What goes on after `OtpService.verify` answers `true` knows that the codes were equal. -/
theorem verify_ground {α : Type} {email code : String} {f : Bool → AuthM α}
    (htrue : ∀ l', ComparedEqual env email code (l ++ l') →
      Informed (EmailGround env op) (l ++ l') (f true))
    (hfalse : ∀ l', Informed (EmailGround env op) l' (f false)) :
    Informed (EmailGround env op) l (OtpService.verify env email code >>= f) := by
  refine Informed.bind_yields (Only.emailGround ?_) (verify_yields email code) fun ok l' hok => ?_
  · exact verifyCode_only trivial trivial trivial trivial trivial code
  · cases ok with
    | true => exact htrue l' (hok rfl)
    | false => exact hfalse _

theorem register_ground (dto : RegisterDto) :
    Informed (EmailGround env op) l (AuthService.register env dto) := by
  unfold AuthService.register
  refine Informed.tryCatch ?_ fun err l' => ?_
  · refine informed_issue_bind trivial fun existing => ?_
    split_ifs
    · trivial
    · refine informed_issue_bind trivial fun hash => ?_
      refine informed_issue_bind (fun hverified => ?_) fun user => ?_
      · cases hverified
      · exact (issueOtp_ground user.email).bind fun code l' =>
          informed_issue_bind trivial fun _ => trivial
  · split_ifs <;> trivial

theorem verifyOtp_ground (email code : String) :
    Informed (EmailGround env (.verifyOtp email code)) []
      (AuthService.verifyOtp env email code) := by
  unfold AuthService.verifyOtp
  refine informed_issue_bind trivial fun user => ?_
  cases user with
  | none => trivial
  | some user =>
    dsimp only
    split_ifs
    · trivial
    · refine verify_ground (fun l' hequal => ?_) fun l' => trivial
      refine ⟨⟨fun b _ => ⟨email, code, user, rfl, ?_, rfl, hequal⟩, fun e he => ?_⟩, fun r => ?_⟩
      · simp
      · cases he
      · cases r <;> trivial

theorem resolveGoogleUser_ground (p : GoogleProfile) :
    Informed (EmailGround env (.googleSignIn p)) l (AuthService.resolveGoogleUser p) := by
  unfold AuthService.resolveGoogleUser
  refine informed_issue_bind trivial fun byGoogle => ?_
  cases byGoogle with
  | some byGoogle => trivial
  | none =>
    refine informed_issue_bind trivial fun byEmail => ?_
    split_ifs
    · trivial
    · exact informed_issue_bind (fun _ => ⟨p, rfl, rfl⟩) fun _ => trivial

theorem linkGoogle_ground (userId : ℕ) (googleId : String) :
    Informed (EmailGround env op) l (AuthService.linkGoogle userId googleId) := by
  unfold AuthService.linkGoogle
  refine informed_issue_bind trivial fun owner => ?_
  cases owner with
  | some owner =>
    dsimp only
    split_ifs <;> trivial
  | none => exact ⟨⟨nofun, nofun⟩, fun r => by cases r <;> trivial⟩

theorem resendOtp_ground (email : String) :
    Informed (EmailGround env op) l (AuthService.resendOtp env email) := by
  unfold AuthService.resendOtp
  refine informed_issue_bind trivial fun user => ?_
  cases user with
  | none => trivial
  | some user =>
    dsimp only
    split_ifs
    · trivial
    · exact (issueOtp_ground user.email).bind fun code l' =>
        informed_issue_bind trivial fun _ => trivial

theorem requestEmailChange_ground (userId : ℕ) (newEmail current : String) :
    Informed (EmailGround env op) l
      (UsersService.requestEmailChange env userId newEmail current) := by
  unfold UsersService.requestEmailChange
  refine (checkPassword_ground userId current).bind fun _ l' => ?_
  refine informed_issue_bind trivial fun existing => ?_
  split_ifs
  · trivial
  · refine informed_issue_bind trivial fun _ => ?_
    exact (issueOtp_ground newEmail).bind fun code l' =>
      informed_issue_bind trivial fun _ => trivial

theorem confirmEmailChange_ground (userId : ℕ) (code : String) :
    Informed (EmailGround env (.confirmEmailChange userId code)) []
      (UsersService.confirmEmailChange env userId code) := by
  unfold UsersService.confirmEmailChange
  refine informed_issue_bind trivial fun pendingEmail => ?_
  cases pendingEmail with
  | none => trivial
  | some pendingEmail =>
    refine verify_ground (fun l' hequal => ?_) fun l' => trivial
    refine informed_issue_bind ⟨nofun, fun e he => ?_⟩ fun _ => ?_
    · cases he
      exact ⟨code, rfl, by simp, hequal⟩
    · exact informed_issue_bind trivial fun _ => getAuthUser_ground userId

theorem AccountRequest.handle_ground (r : AccountRequest) :
    Informed (EmailGround env r) [] (r.handle env) := by
  cases r with
  | register dto => exact (register_ground dto).bind fun _ _ => trivial
  | verifyOtp email code =>
    refine (verifyOtp_ground email code).bind fun user _ => ?_
    exact (issueAuthCookies_ground user.toAuthUser).bind fun _ _ => trivial
  | resendOtp email => exact (resendOtp_ground email).bind fun _ _ => trivial
  | login email password =>
    refine Informed.bind (Only.emailGround ?_) fun user _ =>
      (issueAuthCookies_ground user).bind fun _ _ => trivial
    exact validateUser_only trivial fun _ => trivial
  | refresh userId jti =>
    refine (getAuthUser_ground userId).bind fun fresh _ => Informed.bind (Only.emailGround ?_)
      fun _ _ => trivial
    exact rotateAuthCookies_only trivial trivial trivial fun _ => trivial
  | googleSignIn profile =>
    refine (resolveGoogleUser_ground profile).bind fun user _ => ?_
    exact (issueAuthCookies_ground user).bind fun _ _ => trivial
  | linkGoogle userId googleId => exact (linkGoogle_ground userId googleId).bind fun _ _ => trivial
  | updateName userId name =>
    exact Informed.bind (informed_issue_bind ⟨nofun, nofun⟩ fun _ => getAuthUser_ground userId)
      fun _ _ => trivial
  | requestEmailChange userId newEmail current =>
    exact (requestEmailChange_ground userId newEmail current).bind fun _ _ => trivial
  | confirmEmailChange userId code =>
    exact (confirmEmailChange_ground userId code).bind fun _ _ => trivial
  | changePassword userId current new =>
    refine Informed.bind ?_ fun _ _ => trivial
    refine (checkPassword_ground userId current).bind fun _ _ => ?_
    refine informed_issue_bind trivial fun hash => ?_
    refine informed_issue_bind ⟨nofun, nofun⟩ fun _ => informed_issue_bind trivial fun _ => ?_
    refine Informed.bind (Only.emailGround (revokeAllSessions_only trivial fun _ => trivial))
      fun _ _ => (getAuthUser_ground userId).bind fun user _ => issueAuthCookies_ground user

end Ground

/-! ### What a run keeps -/

/-- The e-mail of a verified user is accounted for; so is that of every user who was looked
up by e-mail, unless it is still the one that was looked up. -/
structure Traceable (env : AuthEnv) (ops : List AccountRequest) (tr done : AuthLog)
    (s : Accounts) : Prop where
  verified : ∀ u ∈ s.users.table.rows, u.emailVerified = true →
    CreatedByGoogle ops done u.id u.email ∨ Proven env ops tr u.id u.email
  found : ∀ i email (u : User), (i, ⟨.userFindByEmail email, .ok (some u)⟩) ∈ tr →
    ∃ v, s.users.table.get u.id = some v ∧ (v.email = email ∨ Proven env ops tr u.id v.email)

section Run
variable {lib : Hashing} {env : AuthEnv} {ops : List AccountRequest} {tr done : AuthLog}
  {s : Accounts} {id : ℕ} {email : String}

theorem MadeFor.append {code : String} {l : AuthTrail} {op : AccountRequest}
    (h : MadeFor id email code l op) (l' : AuthTrail) : MadeFor id email code (l ++ l') op := by
  cases op with
  | verifyOtp e c =>
    obtain ⟨he, hc, u, hu, hid⟩ := h
    exact ⟨he, hc, u, List.mem_append_left _ hu, hid⟩
  | confirmEmailChange userId c =>
    obtain ⟨hid, hc, hread⟩ := h
    exact ⟨hid, hc, List.mem_append_left _ hread⟩
  | _ => exact h.elim

theorem ComparedEqual.append {code : String} {l : AuthTrail} (h : ComparedEqual env email code l)
    (l' : AuthTrail) : ComparedEqual env email code (l ++ l') := by
  obtain ⟨attempts, hle, hin⟩ := h
  exact ⟨attempts, hle, hin.trans (List.prefix_append l l').isInfix⟩

theorem Proven.append (h : Proven env ops tr id email) (tr' : AuthLog) :
    Proven env ops (tr ++ tr') id email := by
  obtain ⟨i, op, code, hi, hmade, hequal⟩ := h
  refine ⟨i, op, code, hi, ?_, ?_⟩
  · rw [own_append]
    exact hmade.append _
  · rw [own_append]
    exact hequal.append _

theorem Proven.spawn (h : Proven env ops tr id email) (op : AccountRequest) :
    Proven env (ops ++ [op]) tr id email := by
  obtain ⟨i, op', code, hi, h⟩ := h
  have hlt : i < ops.length := (List.getElem?_eq_some_iff.mp hi).1
  exact ⟨i, op', code, (List.getElem?_append_left hlt).trans hi, h⟩

theorem CreatedByGoogle.append (h : CreatedByGoogle ops done id email) (done' : AuthLog) :
    CreatedByGoogle ops (done ++ done') id email := by
  obtain ⟨i, profile, u, hi, he, hmem, hid⟩ := h
  exact ⟨i, profile, u, hi, he, List.mem_append_left _ hmem, hid⟩

theorem CreatedByGoogle.spawn (h : CreatedByGoogle ops done id email) (op : AccountRequest) :
    CreatedByGoogle (ops ++ [op]) done id email := by
  obtain ⟨i, profile, u, hi, h⟩ := h
  have hlt : i < ops.length := (List.getElem?_eq_some_iff.mp hi).1
  exact ⟨i, profile, u, (List.getElem?_append_left hlt).trans hi, h⟩

theorem Traceable.spawn (h : Traceable env ops tr done s) (op : AccountRequest) :
    Traceable env (ops ++ [op]) tr done s where
  verified u hu hv := (h.verified u hu hv).imp (·.spawn op) (·.spawn op)
  found i email u hmem := by
    obtain ⟨v, hv, he⟩ := h.found i email u hmem
    exact ⟨v, hv, he.imp_right (·.spawn op)⟩

/-- Nothing is written to the users; a user who is looked up by e-mail is there. -/
theorem Traceable.keep (h : Traceable env ops tr done s) {s' : Accounts}
    (hs : s'.users = s.users) (i : ℕ) (a : Answer AuthCmd AuthCmd.Reply Err) (done' : AuthLog)
    (ha : ∀ email u, a = ⟨.userFindByEmail email, .ok (some u)⟩ →
      s.users.findByEmail email = some u) :
    Traceable env ops (tr ++ [(i, a)]) (done ++ done') s' := by
  refine ⟨fun u hu hv => ?_, fun k email u hmem => ?_⟩
  · rw [hs] at hu
    exact (h.verified u hu hv).imp (·.append _) (·.append _)
  · rw [hs]
    rcases List.mem_append.mp hmem with hmem | hmem
    · obtain ⟨v, hv, he⟩ := h.found k email u hmem
      exact ⟨v, hv, he.imp_right (·.append _)⟩
    · have hfind := ha email u (Prod.mk.inj (List.mem_singleton.mp hmem)).2.symm
      refine ⟨u, get_of_mem (List.mem_of_find?_eq_some hfind), .inl ?_⟩
      simpa using List.find?_some hfind

theorem exec_users {c : AuthCmd} (h : c.leavesUsers) : (exec lib c s).2.users = s.users := by
  cases c with
  | userCreate d => exact h.elim
  | userUpdate id d => exact h.elim
  | rotateRefresh old oldJti v jti seconds =>
    simp only [Accounts.exec]
    split_ifs <;> rfl
  | _ => rfl

/-- A user is created; a verified one by Google. -/
theorem Traceable.create (h : Traceable env ops tr done s) {i : ℕ} {op : AccountRequest}
    {d : UserCreate} {r : Except Err User} (hi : ops[i]? = some op)
    (hground : EmailGround env op (own i tr) (.userCreate d)) :
    Traceable env ops (tr ++ [(i, ⟨.userCreate d, r⟩)])
      (done ++ [(i, ⟨.userCreate d, (exec lib (.userCreate d) s).1⟩)])
      (exec lib (.userCreate d) s).2 := by
  have hexec : exec lib (.userCreate d) s = s.commit (s.users.create d) := rfl
  rw [hexec]
  cases hres : s.users.create d with
  | error e => exact h.keep rfl i _ _ fun email u ha => by cases (Sigma.mk.inj ha).1
  | ok out =>
    obtain ⟨u, us⟩ := out
    obtain ⟨hu, ht⟩ := Users.create_eq_ok hres
    refine ⟨fun v hv hverified => ?_, fun k email v hmem => ?_⟩
    · change v ∈ us.table.rows at hv
      rw [ht, rows_insert, List.mem_append, List.mem_singleton] at hv
      rcases hv with hv | rfl
      · exact (h.verified v hv hverified).imp (·.append _) (·.append _)
      · obtain ⟨profile, rfl, rfl⟩ := hground hverified
        refine .inl ⟨i, profile, u, hi, rfl, ?_, by rw [hu]⟩
        exact List.mem_append_right _ (List.mem_singleton_self _)
    · have hmem : (k, ⟨.userFindByEmail email, .ok (some v)⟩) ∈ tr := by simpa using hmem
      obtain ⟨w, hw, he⟩ := h.found k email v hmem
      refine ⟨w, ?_, he.imp_right (·.append _)⟩
      change us.table.get v.id = some w
      rw [ht, get_insert, if_neg (Nat.ne_of_lt (lt_serial_of_get hw)), hw]

/-- A user is changed: whoever is verified now, and whatever the e-mail is now, was proven. -/
theorem Traceable.update (h : Traceable env ops tr done s) {i : ℕ} {op : AccountRequest}
    {d : UserData} {r : Except Err User} (hi : ops[i]? = some op)
    (hground : EmailGround env op (own i tr) (.userUpdate id d)) (done' : AuthLog) :
    Traceable env ops (tr ++ [(i, ⟨.userUpdate id d, r⟩)]) (done ++ done')
      (exec lib (.userUpdate id d) s).2 := by
  have hexec : exec lib (.userUpdate id d) s = s.commit (s.users.update id d) := rfl
  rw [hexec]
  cases hres : s.users.update id d with
  | error e => exact h.keep rfl i _ _ fun email u ha => by cases (Sigma.mk.inj ha).1
  | ok out =>
    obtain ⟨u, us⟩ := out
    obtain ⟨u₀, hu₀, -, ht⟩ := Users.update_eq_ok hres
    obtain ⟨hflag, hemail⟩ := hground
    have hproven : ∀ {e}, d.email = some e → Proven env ops tr id e := by
      intro e he
      obtain ⟨code, rfl, hread, hequal⟩ := hemail e he
      exact ⟨i, _, code, hi, ⟨rfl, rfl, hread⟩, hequal⟩
    -- an e-mail that the change leaves alone is still accounted for
    have hkept : ∀ {w : User} {P : String → Prop}, (d.email = none → P w.email) →
        (∀ e, d.email = some e → P e) → P (d.apply w).email := by
      intro w P hnone hsome
      cases he : d.email with
      | none => simpa [UserData.apply, he] using hnone he
      | some e => simpa [UserData.apply, he] using hsome e he
    refine ⟨fun v hv hverified => ?_, fun k email v hmem => ?_⟩
    · change v ∈ us.table.rows at hv
      rw [ht, mem_modify] at hv
      rcases hv with ⟨hv, -⟩ | ⟨w, hw, hid, rfl⟩
      · exact (h.verified v hv hverified).imp (·.append _) (·.append _)
      · change w.id = id at hid
        refine hkept (P := fun e => CreatedByGoogle ops (done ++ done') w.id e ∨
          Proven env ops _ w.id e) (fun _ => ?_) fun e he => .inr ?_
        · cases hb : d.emailVerified with
          | none =>
            have hbefore : w.emailVerified = true := by
              simpa [UserData.apply, hb] using hverified
            exact (h.verified w hw hbefore).imp (·.append _) (·.append _)
          | some b =>
            obtain ⟨email, code, v, rfl, hread, rfl, hequal⟩ := hflag b hb
            obtain ⟨w', hw', he⟩ := h.found i email v (mem_own.mp hread)
            obtain rfl : w' = w := Option.some.inj (hw'.symm.trans (hid ▸ get_of_mem hw))
            rcases he with rfl | hp
            · exact .inr (Proven.append ⟨i, _, code, hi, ⟨rfl, rfl, v, hread, hid.symm⟩, hequal⟩ _)
            · rw [hid]
              exact .inr (hp.append _)
        · rw [hid]
          exact (hproven he).append _
    · have hmem : (k, ⟨.userFindByEmail email, .ok (some v)⟩) ∈ tr := by simpa using hmem
      obtain ⟨w, hw, he⟩ := h.found k email v hmem
      change ∃ v', us.table.get v.id = some v' ∧ _
      rw [ht, get_modify, hw]
      split_ifs with hid
      · refine ⟨d.apply w, rfl, hkept (P := fun e => e = email ∨ Proven env ops _ v.id e)
          (fun _ => he.imp_right (·.append _)) fun e he => .inr ?_⟩
        rw [hid]
        exact (hproven he).append _
      · exact ⟨w, rfl, he.imp_right (·.append _)⟩

theorem Traceable.step (h : Traceable env ops tr done s) {i : ℕ} {op : AccountRequest}
    {c : AuthCmd} {r : Except Err c.Reply} (hi : ops[i]? = some op)
    (hground : EmailGround env op (own i tr) c) (hr : r = (exec lib c s).1 ∨ ∃ e, r = .error e) :
    Traceable env ops (tr ++ [(i, ⟨c, r⟩)]) (done ++ [(i, ⟨c, (exec lib c s).1⟩)])
      (exec lib c s).2 := by
  by_cases hc : c.leavesUsers
  · refine h.keep (exec_users hc) i _ _ fun email u ha => ?_
    obtain ⟨rfl, ha⟩ := Sigma.mk.inj ha
    rcases hr with rfl | ⟨e, rfl⟩
    · exact Except.ok.inj (eq_of_heq ha)
    · cases eq_of_heq ha
  · cases c with
    | userCreate d => exact h.create hi hground
    | userUpdate id d => exact h.update hi hground _
    | _ => exact absurd trivial hc

end Run

/-! ### Every verified e-mail was proven -/

/-- Every verified user signed up with Google with the e-mail, or some process compared a
code equal for this user and e-mail. -/
def EmailsProven (env : AuthEnv) (ops : List AccountRequest) (tr done : AuthLog) (s : Accounts) :
    Prop :=
  ∀ u ∈ s.users.table.rows, u.emailVerified = true →
    CreatedByGoogle ops done u.id u.email ∨ Proven env ops tr u.id u.email

theorem emails_proven (lib : Hashing) (env : AuthEnv) {s : Accounts}
    {xs : List (Choice Err AccountRequest ℕ)}
    {q : Pool AuthCmd AuthCmd.Reply Err Accounts AccountRequest Unit}
    (hs : ∀ u ∈ s.users.table.rows, u.emailVerified = false)
    (hx : (accountSystem lib env).schedule xs ⟨s, []⟩ = some q) :
    EmailsProven env (q.procs.map Prod.fst) ((accountSystem lib env).trace xs ⟨s, []⟩)
      ((accountSystem lib env).effects xs ⟨s, []⟩) q.state := by
  refine (history_rule (I := Traceable env) ⟨fun u hu hv => ?_, fun _ _ _ hmem => ?_⟩ ?_ ?_ ?_ ?_
    hx).verified
  · rw [hs u hu] at hv
    cases hv
  · cases hmem
  · intro ops tr done t op h
    exact h.spawn op
  · intro ops tr done t ms h
    exact ⟨h.verified, h.found⟩
  · intro ops tr done t i op c k e hi hpath h
    have hkeep : Traceable env ops _ (done ++ []) t := h.keep rfl i ⟨c, .error e⟩ []
      fun email u ha => by
        obtain ⟨rfl, ha⟩ := Sigma.mk.inj ha
        cases eq_of_heq ha
    rwa [List.append_nil] at hkeep
  · intro ops tr done t i op c k r hi hpath hr h
    exact h.step hi ((AccountRequest.handle_ground op).path hpath) hr

/-- Ada signs up and enters the code that was mailed to her, while Grace signs in with
Google. -/
def signUps : List (Choice Err AccountRequest ℕ) :=
  [.spawn (.register ⟨"Ada", "ada@example.com", "password1"⟩)] ++ solo 0 8 ++
    [.spawn (.verifyOtp "ada@example.com" "100000"),
      .spawn (.googleSignIn ⟨"grace@example.com", "Grace", "117"⟩)] ++ solo 1 4 ++ solo 2 8 ++
        solo 1 8

theorem emails_proven_of_signUps : ∃ q, (accountSystem plainText ⟨300, 5, 60⟩).schedule signUps
    ⟨Accounts.initial 0 fun _ => 0, []⟩ = some q ∧
      q.state.users.table.rows.countP (fun u => u.emailVerified) = 2 ∧
      EmailsProven ⟨300, 5, 60⟩ (q.procs.map Prod.fst)
        ((accountSystem plainText ⟨300, 5, 60⟩).trace signUps ⟨Accounts.initial 0 fun _ => 0, []⟩)
        ((accountSystem plainText ⟨300, 5, 60⟩).effects signUps
          ⟨Accounts.initial 0 fun _ => 0, []⟩) q.state := by
  have hrun : ((accountSystem plainText ⟨300, 5, 60⟩).schedule signUps
      ⟨Accounts.initial 0 fun _ => 0, []⟩).any fun q =>
        q.state.users.table.rows.countP (fun u => u.emailVerified) = 2 := by decide +kernel
  obtain ⟨q, hq, hverified⟩ := (Option.any_eq_true _ _).mp hrun
  refine ⟨q, hq, of_decide_eq_true hverified, emails_proven plainText ⟨300, 5, 60⟩ ?_ hq⟩
  intro u hu
  cases hu

end MovieReservation
