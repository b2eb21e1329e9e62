import MovieReservation.Accounts.SignIns

/-! Every command of every route, with what it rests on: `SiteRequest.handle_ground`. -/

namespace MovieReservation

open Lib Lib.Prog

/-! ### What the services write -/

section Free
variable {env : AuthEnv}

theorem free_request {c : AuthCmd} (h : c.free env) : Free env (AuthM.request c) :=
  only_authRequest h

theorem free_del {k : AuthKey} (h : k.isCode = true) : AuthCmd.free env (.del [k]) :=
  List.forall_mem_singleton.mpr h

theorem issueOtp_free (email : String) : Free env (OtpService.issue env email) :=
  issueOtp_only trivial trivial (fun _ => .inl rfl) trivial (.inr ⟨email, rfl, rfl⟩)

theorem verifyCode_free (email code : String) : Free env (OtpService.verify env email code) :=
  verifyCode_only trivial trivial trivial (free_del rfl) (free_del rfl) code

theorem getAuthUser_free (id : ℕ) : Free env (AuthService.getAuthUser id) :=
  getAuthUser_only trivial

theorem checkPassword_free (userId : ℕ) (current : String) :
    Free env (UsersService.checkPassword userId current) :=
  checkPassword_only trivial (fun _ _ => trivial) current

theorem signAccess_free (user : AuthUser) : Free env (TokenService.signAccess user) :=
  signAccess_only trivial trivial

theorem signRefresh_free (userId : ℕ) : Free env (TokenService.signRefresh userId) :=
  signRefresh_only trivial trivial userId

theorem verifyOtp_free (email code : String) :
    Free env (AuthService.verifyOtp env email code) := by
  unfold AuthService.verifyOtp
  refine Only.bind (free_request trivial) fun user => ?_
  cases user with
  | none => trivial
  | some user =>
    dsimp only
    split_ifs
    · trivial
    · refine Only.bind (verifyCode_free email code) fun ok => ?_
      split_ifs
      · exact free_request ⟨by decide, rfl, rfl⟩
      · trivial

theorem validateUser_free (email password : String) :
    Free env (AuthService.validateUser email password) :=
  validateUser_only trivial fun _ => trivial

theorem resolveGoogleUser_writes (env : AuthEnv) (p : GoogleProfile) :
    Only (fun c => c.free env ∨ c = .userCreate p.data) (AuthService.resolveGoogleUser p) := by
  unfold AuthService.resolveGoogleUser
  refine Only.bind (only_authRequest (.inl trivial)) fun byGoogle => ?_
  cases byGoogle with
  | some byGoogle => trivial
  | none =>
    refine Only.bind (only_authRequest (.inl trivial)) fun byEmail => ?_
    split_ifs
    · trivial
    · exact Only.bind (only_authRequest (.inr rfl)) fun _ => trivial

theorem linkGoogle_writes (env : AuthEnv) (userId : ℕ) (googleId : String) :
    Only (fun c => c.free env ∨ c = .userUpdate userId { googleId := some (some googleId) })
      (AuthService.linkGoogle userId googleId) := by
  refine Only.bind (only_authRequest (.inl trivial)) fun owner => ?_
  cases owner with
  | some owner =>
    dsimp only
    split_ifs <;> trivial
  | none => exact only_authRequest (.inr rfl)

theorem updateName_free (userId : ℕ) (name : String) :
    Free env (UsersService.updateName userId name) :=
  Only.bind (free_request ⟨by simp, rfl, rfl⟩) fun _ => getAuthUser_free userId

theorem confirmEmailChange_free (userId : ℕ) (code : String) :
    Free env (UsersService.confirmEmailChange env userId code) := by
  unfold UsersService.confirmEmailChange
  refine Only.bind (free_request trivial) fun pendingEmail => ?_
  cases pendingEmail with
  | none => trivial
  | some pendingEmail =>
    refine Only.bind (verifyCode_free pendingEmail code) fun ok => ?_
    split_ifs
    · refine Only.bind (free_request ⟨by simp, rfl, rfl⟩) fun _ => ?_
      exact Only.bind (free_request (free_del rfl)) fun _ => getAuthUser_free userId
    · trivial

theorem getPendingEmailChange_free (userId : ℕ) :
    Free env (UsersService.getPendingEmailChange userId) :=
  Only.bind (free_request trivial) fun _ => trivial

end Free

/-! ### Mails -/

section Mails
variable {env : AuthEnv} {l : AuthTrail} {α : Type}

/-- The command rests on nothing, or mails a code once the cooldown was started. -/
def MailsCooled (env : AuthEnv) (l : AuthTrail) (c : AuthCmd) : Prop :=
  c.free env ∨ ∃ email code, c = .sendOtpEmail email code ∧ Cooled env email l

theorem Free.mailsCooled {p : AuthM α} (h : Free env p) : Informed (MailsCooled env) l p :=
  .of_only (h.mono fun _ hc _ => .inl hc)

theorem Unmailed.snoc (h : Unmailed l) {a : Answer AuthCmd AuthCmd.Reply Err}
    (ha : ∀ email code, a.1 ≠ .sendOtpEmail email code) : Unmailed (l ++ [a]) := by
  intro email code r hmem
  rcases List.mem_append.mp hmem with hmem | hmem
  · exact h email code r hmem
  · exact ha email code (by rw [← List.mem_singleton.mp hmem])

/-- What rests on nothing mails nothing. -/
theorem Free.unmailed {p : AuthM α} (hp : Free env p) (h : Unmailed l) :
    Yields (fun l _ => Unmailed l) l p := by
  refine Only.yields (I := Unmailed) hp (fun l a ha hl => hl.snoc fun email code he => ?_) h
  rw [he] at ha
  exact ha

theorem sendCode_cooled (h : Unmailed l) (email : String) (a : α) : Informed (MailsCooled env) l (do
    let code ← OtpService.issue env email
    MailerService.sendOtpEmail email code
    pure a) := by
  have hfree : Free env (OtpService.issue env email) := issueOtp_free email
  have hcooled := (issueOtp_cools env email).and (hfree.unmailed h)
  refine hfree.mailsCooled.bind_yields hcooled fun code l' hl => ?_
  obtain ⟨hlapsed, hstarted⟩ := hl.1 code rfl
  exact informed_issue_bind (.inr ⟨email, code, rfl, hlapsed, hstarted, hl.2⟩) fun _ => trivial

theorem register_cooled (dto : RegisterDto) (h : Unmailed l) :
    Informed (MailsCooled env) l (AuthService.register env dto) := by
  unfold AuthService.register
  refine Informed.tryCatch ?_ fun err l' => ?_
  · refine informed_issue_bind (.inl trivial) fun existing => ?_
    split_ifs
    · trivial
    · refine informed_issue_bind (.inl trivial) fun hash => ?_
      refine informed_issue_bind (.inl rfl) fun user => sendCode_cooled ?_ user.email _
      exact ((h.snoc (by simp)).snoc (by simp)).snoc (by simp)
  · split_ifs <;> trivial

theorem resendOtp_cooled (email : String) (h : Unmailed l) :
    Informed (MailsCooled env) l (AuthService.resendOtp env email) := by
  unfold AuthService.resendOtp
  refine informed_issue_bind (.inl trivial) fun user => ?_
  cases user with
  | none => trivial
  | some user =>
    dsimp only
    split_ifs
    · trivial
    · exact sendCode_cooled (h.snoc (by simp)) user.email _

theorem requestEmailChange_cooled (userId : ℕ) (newEmail current : String) (h : Unmailed l) :
    Informed (MailsCooled env) l (UsersService.requestEmailChange env userId newEmail current) := by
  unfold UsersService.requestEmailChange
  have hfree : Free env (UsersService.checkPassword userId current) :=
    checkPassword_free userId current
  refine hfree.mailsCooled.bind_yields (hfree.unmailed h) fun _ l' hl => ?_
  refine informed_issue_bind (.inl trivial) fun existing => ?_
  split_ifs
  · trivial
  · refine informed_issue_bind (.inl (.inl rfl)) fun _ => sendCode_cooled ?_ newEmail _
    exact (hl.snoc (by simp)).snoc (by simp)

end Mails

/-! ### Tokens -/

section Tokens
variable (env : AuthEnv) {P : AuthTrail → AuthCmd → Prop} {l : AuthTrail}

variable {env} in
theorem Free.informed {α : Type} {p : AuthM α} (h : Free env p)
    (hfree : ∀ l c, c.free env → P l c) : Informed P l p :=
  .of_only (h.mono fun c hc l' => hfree (l ++ l') c hc)

/-- Where a new refresh token is stored, its id has been drawn. -/
theorem issueAuthCookies_informed (user : AuthUser) (hfree : ∀ l c, c.free env → P l c)
    (hstore : ∀ l' jti, ⟨.randomUUID, .ok jti⟩ ∈ l ++ l' →
      P (l ++ l') (.storeRefresh user.id jti TokenService.refreshTtlSeconds)) :
    Informed P l (TokenService.issueAuthCookies user) := by
  unfold TokenService.issueAuthCookies
  refine (Free.informed (signAccess_free user) hfree).bind fun access l₁ => ?_
  refine (Free.informed (signRefresh_free user.id) hfree).bind_yields (signRefresh_draws user.id)
    fun refresh l₂ hdrawn => ?_
  have hknown := (hdrawn refresh rfl).2
  rw [List.append_assoc] at hknown ⊢
  exact informed_issue_bind (hstore _ _ hknown) fun _ => trivial

theorem rotateAuthCookies_informed (userId jti : ℕ) (user : AuthUser)
    (hfree : ∀ l c, c.free env → P l c)
    (hrotate : ∀ l' new, ⟨.randomUUID, .ok new⟩ ∈ l ++ l' →
      P (l ++ l') (.rotateRefresh userId jti user.id new TokenService.refreshTtlSeconds)) :
    Informed P l (TokenService.rotateAuthCookies userId jti user) := by
  unfold TokenService.rotateAuthCookies
  refine (Free.informed (signRefresh_free user.id) hfree).bind_yields (signRefresh_draws user.id)
    fun refresh l₁ hdrawn => ?_
  refine informed_issue_bind (hrotate l₁ _ (hdrawn refresh rfl).2) fun rotated => ?_
  split_ifs
  · exact (Free.informed (signAccess_free user) hfree).bind fun _ _ => trivial
  · trivial

/-- Nothing has been drawn by the time the sessions are revoked. -/
theorem revokeAllSessions_informed {u : ℕ} (hfree : ∀ l c, c.free env → P l c)
    (hrevoke : ∀ (jtis : Option (List ℕ)) l, ⟨.get (.refreshSessions u), .ok jtis⟩ ∈ l →
      (∀ jti, ⟨.randomUUID, .ok jti⟩ ∉ l) → P l (.del (revokedKeys u jtis)))
    (hnone : ∀ jti, ⟨.randomUUID, .ok jti⟩ ∉ l) :
    Informed P l (TokenService.revokeAllSessions u) := by
  unfold TokenService.revokeAllSessions
  refine informed_issue_bind (hfree _ _ trivial) fun jtis => ?_
  change Option (List ℕ) at jtis
  split_ifs
  · refine ⟨hrevoke jtis _ (by simp) fun jti hmem => ?_, fun _ => trivial⟩
    rcases List.mem_append.mp hmem with hold | hnew
    · exact hnone jti hold
    · cases List.mem_singleton.mp hnew
  · trivial

/-- The password was compared with the one that was found. -/
def Matched (userId : ℕ) (current : String) (l : AuthTrail) : Prop :=
  ∃ (user : User) (digest : String), ⟨.userFindById userId, .ok (some user)⟩ ∈ l ∧
    user.password = some digest ∧ ⟨.bcryptCompare current digest, .ok true⟩ ∈ l

theorem Matched.append {userId : ℕ} {current : String} {l : AuthTrail}
    (h : Matched userId current l) (l' : AuthTrail) : Matched userId current (l ++ l') := by
  obtain ⟨user, digest, hfound, hpassword, hmatch⟩ := h
  exact ⟨user, digest, List.mem_append_left _ hfound, hpassword, List.mem_append_left _ hmatch⟩

theorem checkPassword_matches (userId : ℕ) (current : String) {l : AuthTrail} :
    Yields (fun l r => ∀ u, r = .ok u → Matched userId current l) l
      (UsersService.checkPassword userId current) := by
  unfold UsersService.checkPassword
  refine yields_issue_bind nofun fun user => ?_
  change Option User at user
  cases hdigest : user.bind User.truthyPassword with
  | none => exact nofun
  | some digest =>
    obtain ⟨u, rfl, htruthy⟩ := Option.bind_eq_some_iff.mp hdigest
    have hpassword : u.password = some digest := (Option.filter_eq_some_iff.mp htruthy).1
    refine yields_issue_bind nofun fun isMatch => ?_
    change Bool at isMatch
    cases isMatch with
    | false => exact nofun
    | true => exact fun _ _ => ⟨u, digest, by simp, hpassword, by simp⟩

theorem changePassword_informed (userId : ℕ) (current new : String)
    (hfree : ∀ l c, c.free env → P l c)
    (hwrite : ∀ l hash, Matched userId current l → ⟨.bcryptHash new 10, .ok hash⟩ ∈ l →
      P l (.userUpdate userId { password := some (some hash) }))
    (hrevoke : ∀ (jtis : Option (List ℕ)) l, ⟨.get (.refreshSessions userId), .ok jtis⟩ ∈ l →
      (∀ jti, ⟨.randomUUID, .ok jti⟩ ∉ l) → P l (.del (revokedKeys userId jtis)))
    (hstore : ∀ l user jti, FoundById userId l user → ⟨.randomUUID, .ok jti⟩ ∈ l →
      P l (.storeRefresh user.id jti TokenService.refreshTtlSeconds))
    (hnone : ∀ jti, ⟨.randomUUID, .ok jti⟩ ∉ l) :
    Informed P l (UsersService.changePassword userId current new) := by
  have hdraws : Only (· ≠ .randomUUID) (UsersService.checkPassword userId current) :=
    checkPassword_only (by simp) (fun _ _ => by simp) current
  unfold UsersService.changePassword
  refine Informed.bind_yields (Free.informed (checkPassword_free userId current) hfree)
    ((checkPassword_matches userId current).and (Only.yields hdraws
      (I := fun l => ∀ jti, ⟨.randomUUID, .ok jti⟩ ∉ l) (fun l a ha hl => ?_) hnone))
    fun u l₁ hchecked => ?_
  · intro jti hmem
    rcases List.mem_append.mp hmem with hold | hnew
    · exact hl jti hold
    · obtain rfl := (List.mem_singleton.mp hnew).symm
      exact ha rfl
  refine informed_issue_bind (hfree _ _ trivial) fun hash => ?_
  refine informed_issue_bind (hwrite _ hash ((hchecked.1 u rfl).append _) (by simp)) fun _ => ?_
  refine informed_issue_bind (hfree _ _ trivial) fun _ => ?_
  refine (revokeAllSessions_informed env hfree hrevoke fun jti hmem => ?_).bind fun _ _ => ?_
  · simp only [List.mem_append, List.mem_singleton] at hmem
    rcases hmem with ((hold | hnew) | hnew) | hnew
    · exact hchecked.2 jti (List.mem_append.mpr hold)
    all_goals cases hnew
  · refine (Free.informed (getAuthUser_free userId) hfree).bind_yields (getAuthUser_finds userId)
      fun user l₂ hfound => ?_
    exact issueAuthCookies_informed env user hfree fun l' jti hdrawn =>
      hstore _ user jti ((hfound user rfl).append l') hdrawn

end Tokens

/-! ### What the routes rest on -/

section Routes
variable {env : AuthEnv} {op : SiteRequest} {l : SiteTrail} {user : AuthUser}

theorem lift_found {id : ℕ} (ht : ∃ t : Token, Presented l t ∧ t.sub = id)
    (h : FoundById id (lefts l) user) : Entitled l user := by
  obtain ⟨t, ht, rfl⟩ := ht
  obtain ⟨u, hu, rfl⟩ := h
  exact .token ht (mem_lefts.mp hu)

theorem mails_ground {α : Type} {p : AuthM α} (h : Informed (MailsCooled env) (lefts l) p) :
    Informed (SiteGround env op) l (p.left : SiteM α) := by
  refine Informed.left (I := fun _ => True) (fun _ _ _ _ => trivial)
    (h.mono fun l c hc l' hl _ => ?_) trivial
  rcases hc with hc | ⟨email, code, rfl, hcooled⟩
  · exact siteGround_of_free hc
  · subst hl
    exact hcooled

/-- The cookies of a user who is entitled to them. -/
theorem setAuthCookies_ground {x : AccessToken × RefreshToken} (h : Entitled l user)
    (hx : MadeOut user (lefts l) x) :
    Informed (SiteGround env op) l (TokenService.setAuthCookies x.1 x.2) := by
  have hdrawn : DrawnId x.2.jti l := mem_lefts.mp hx.drawn
  refine (ground_send ?_).bind fun _ l' =>
    ground_send ⟨hdrawn.append l', user, h.append l', hx.refresh.symm⟩
  rw [← hx.access] at h
  exact h

theorem signIn_ground (h : Entitled l user) :
    Informed (SiteGround env op) l (AuthController.issueAuthCookies user) := by
  unfold AuthController.issueAuthCookies
  have hground : Informed (SiteGround env op) l (TokenService.issueAuthCookies user).left := by
    refine Informed.left (I := (Entitled · user)) (fun l c r h => h.append _)
      (issueAuthCookies_informed env user (fun _ c hc _ _ _ => siteGround_of_free hc)
        fun l' jti hdrawn l'' hl hentitled => ⟨?_, user, hentitled, rfl⟩) h
    exact mem_lefts.mp (hl ▸ hdrawn)
  exact hground.bind_yields (issueAuthCookies_madeOut user).left fun x l' hx =>
    setAuthCookies_ground (h.append l') (hx x rfl)

theorem AuthController.verifyOtp_ground (email code : String) :
    Informed (SiteGround env op) l (AuthController.verifyOtp env email code) := by
  unfold AuthController.verifyOtp
  refine (Free.ground (verifyOtp_free email code)).bind_yields
    (verifyOtp_proves email code).left fun u l' hu => ?_
  obtain ⟨id, hmem⟩ := hu u rfl
  exact (signIn_ground (.proven (mem_lefts.mp hmem))).bind fun _ _ => trivial

theorem AuthController.login_ground (email password : String) :
    Informed (SiteGround env op) l (AuthController.login email password) := by
  unfold AuthController.login
  refine (Free.ground (validateUser_free email password)).bind_yields
    (validateUser_finds email password).left fun user l' huser => ?_
  obtain ⟨u, hmem, hverified, rfl⟩ := huser user rfl
  exact (signIn_ground (.password (mem_lefts.mp hmem) hverified)).bind fun _ _ => trivial

theorem AuthController.refresh_ground (cookie : Option RefreshToken) :
    Informed (SiteGround env op) l (AuthController.refresh cookie) := by
  unfold AuthController.refresh
  refine (ground_of_reads (refreshGuard_reads cookie)).bind_yields (refreshGuard_presents cookie)
    fun token l₁ htoken => ?_
  obtain ⟨-, hpresented⟩ := htoken token rfl
  refine (Free.ground (getAuthUser_free token.sub)).bind_yields
    (getAuthUser_finds token.sub).left fun fresh l₂ hfresh => ?_
  have hentitled := lift_found ⟨_, hpresented.append l₂, rfl⟩ (hfresh fresh rfl)
  obtain ⟨u, hfound, rfl⟩ := hfresh fresh rfl
  have hground : Informed (SiteGround env op) (l ++ l₁ ++ l₂)
      (TokenService.rotateAuthCookies token.sub token.jti u.toAuthUser).left := by
    refine Informed.left (I := (Entitled · u.toAuthUser)) (fun l c r h => h.append _)
      (rotateAuthCookies_informed env _ _ _
        (fun _ c hc _ _ _ => siteGround_of_free hc)
        fun l' new hdrawn l'' hl h => ⟨?_, ⟨_, h, rfl⟩, u, ?_, rfl⟩) hentitled
    · exact mem_lefts.mp (hl ▸ hdrawn)
    · refine mem_lefts.mp ?_
      rw [hl]
      exact List.mem_append_left _ hfound
  refine hground.bind_yields (rotateAuthCookies_madeOut _ _ _).left fun x l₃ hx => ?_
  exact (setAuthCookies_ground (hentitled.append l₃) (hx x rfl).1).bind fun _ _ => trivial

theorem validate_id {profile : Profile} {p : GoogleProfile} (h : profile.validate = .ok p) :
    profile.id = p.googleId := by
  unfold Profile.validate at h
  split at h
  · cases h
  · cases h
    rfl

theorem AuthController.googleCallback_ground (profile : Profile) :
    Informed (SiteGround env (.googleCallback profile)) l
      (AuthController.googleCallback profile) := by
  unfold AuthController.googleCallback
  cases hprofile : profile.validate with
  | error e => trivial
  | ok p =>
    refine Informed.tryCatch ?_ fun err l' => ?_
    · refine Informed.bind_yields (.of_only
        ((resolveGoogleUser_writes env p).left fun c hc l' => ?_))
        (resolveGoogleUser_finds p).left fun user l' huser => ?_
      · rcases hc with hc | rfl
        · exact siteGround_of_free hc
        · intro googleId hg
          cases hg
          exact ⟨rfl, profile, rfl, validate_id hprofile⟩
      · obtain ⟨u, rfl, hmem⟩ := huser user rfl
        refine (signIn_ground ?_).bind fun _ _ => trivial
        rcases hmem with hmem | hmem
        · exact .google (mem_lefts.mp hmem)
        · exact .created (mem_lefts.mp hmem)
    · split_ifs <;> trivial

theorem AuthController.linkGoogle_ground (cookie : Option AccessToken) :
    Informed (SiteGround env (.linkGoogle cookie)) l (AuthController.linkGoogle cookie) := by
  unfold AuthController.linkGoogle
  refine (ground_of_reads (jwtGuard_reads cookie)).bind_yields (jwtGuard_presents cookie)
    fun user l₁ huser => ?_
  obtain ⟨t, rfl, hpresented, rfl⟩ := huser user rfl
  refine (ground_of_reads (signLinkState_reads t.user.id)).bind_yields
    (signLinkState_signs t.user.id) fun state l₂ hs => ?_
  obtain ⟨asked, hasked, rfl⟩ := hs state rfl
  refine (ground_send ?_).bind fun _ _ => trivial
  exact ⟨t, asked, rfl, hpresented.append l₂, rfl, hasked, rfl⟩

theorem AuthController.linkGoogleCallback_ground (profile : Profile) (state : Option LinkState) :
    Informed (SiteGround env (.linkGoogleCallback profile state)) l
      (AuthController.linkGoogleCallback profile state) := by
  unfold AuthController.linkGoogleCallback
  cases hprofile : profile.validate with
  | error e => trivial
  | ok p =>
    refine (ground_of_reads (linkState_reads state)).bind_yields (linkState_presents state)
      fun id l₁ hid => ?_
    obtain ⟨st, rfl, hpresented, rfl⟩ := hid id rfl
    refine Informed.tryCatch (Informed.bind (.of_only
      ((linkGoogle_writes env st.sub p.googleId).left fun c hc l' => ?_))
      fun _ _ => trivial) fun err l' => ?_
    · rcases hc with hc | rfl
      · exact siteGround_of_free hc
      · refine ⟨by simp, fun googleId hg => ?_, nofun⟩
        cases hg
        exact ⟨profile, st, rfl, congrArg some (validate_id hprofile), rfl, hpresented.append l'⟩
    · split_ifs <;> trivial

/-- A route that only lets a user in and then writes nothing of note. -/
theorem guarded_ground {α : Type} (cookie : Option AccessToken) {p : AuthUser → AuthM α}
    (hp : ∀ user, Free env (p user)) (f : α → SiteResponse) : Informed (SiteGround env op) l (do
      let user ← JwtAuthGuard.canActivate cookie
      let a ← (p user).left
      return f a) :=
  (ground_of_reads (jwtGuard_reads cookie)).bind fun user _ =>
    (Free.ground (hp user)).bind fun _ _ => trivial

theorem AuthController.logout_ground (cookie : Option AccessToken) :
    Informed (SiteGround env op) [] (AuthController.logout cookie) := by
  unfold AuthController.logout
  refine Informed.bind_only (ground_of_reads (jwtGuard_reads cookie)) (jwtGuard_reads cookie)
    fun user l₁ hreads => ?_
  refine Informed.bind (Informed.left (I := fun _ => True) (fun _ _ _ _ => trivial)
    (revokeAllSessions_informed env (fun _ c hc _ _ _ => siteGround_of_free hc)
      (fun jtis l hread hnone l' hl _ => .inr ⟨⟨_, jtis, ?_, rfl⟩, fun jti h => ?_⟩)
      (undrawn_of_reads hreads)) trivial) fun _ _ => trivial
  · exact mem_lefts.mp (hl ▸ hread)
  · exact hnone jti (hl ▸ mem_lefts.mpr h)

theorem UsersController.requestEmailChange_ground (cookie : Option AccessToken)
    (newEmail current : String) : Informed (SiteGround env op) []
      (UsersController.requestEmailChange env cookie newEmail current) := by
  unfold UsersController.requestEmailChange
  refine Informed.bind_only (ground_of_reads (jwtGuard_reads cookie)) (jwtGuard_reads cookie)
    fun user l₁ hreads => ?_
  exact (mails_ground (requestEmailChange_cooled user.id newEmail current
    (unmailed_of_reads hreads))).bind fun _ _ => trivial

theorem UsersController.changePassword_ground (cookie : Option AccessToken)
    (current new : String) :
    Informed (SiteGround env (.changePassword cookie current new)) []
      (UsersController.changePassword cookie current new) := by
  unfold UsersController.changePassword
  refine Informed.bind_yields (ground_of_reads (jwtGuard_reads cookie))
    ((jwtGuard_presents cookie).and (Only.yields (jwtGuard_reads cookie)
      (I := fun l => ∀ x ∈ l, SiteCmd.reads x.1) (fun l a ha hl => ?_) (List.forall_mem_nil _)))
    fun user l₁ h => ?_
  · exact List.forall_mem_append.mpr ⟨hl, List.forall_mem_singleton.mpr ha⟩
  obtain ⟨t, rfl, hpresented, rfl⟩ := h.1 user rfl
  have hground : Informed (SiteGround env (.changePassword (some t) current new)) ([] ++ l₁)
      (UsersService.changePassword t.user.id current new).left := by
    refine Informed.left (I := (Presented · (.access t))) (fun l c r h => h.append _)
      (changePassword_informed env t.user.id current new
        (fun _ c hc _ _ _ => siteGround_of_free hc)
        (fun l hash hmatched hhash l' hl ht => ⟨by simp, nofun, fun password hp => ?_⟩)
        (fun jtis l hread hnone l' hl _ => .inr ⟨⟨_, jtis, ?_, rfl⟩, fun jti h => ?_⟩)
        (fun l user jti hfound hdrawn l' hl ht => ⟨?_, user, ?_, rfl⟩)
        (undrawn_of_reads h.2)) hpresented
    · cases hp
      subst hl
      obtain ⟨user, digest, hfound, hpassword, hmatch⟩ := hmatched
      exact ⟨hash, rfl, t, current, new, rfl, rfl, ht, mem_lefts.mp hhash, user, digest,
        mem_lefts.mp hfound, hpassword, mem_lefts.mp hmatch⟩
    · exact mem_lefts.mp (hl ▸ hread)
    · exact hnone jti (hl ▸ mem_lefts.mpr h)
    · exact mem_lefts.mp (hl ▸ hdrawn)
    · subst hl
      exact lift_found ⟨_, ht, rfl⟩ hfound
  refine hground.bind_yields (changePassword_madeOut t.user.id current new).left fun x l₂ hx => ?_
  obtain ⟨-, user, hfound, hmade⟩ := hx x rfl
  have hentitled := lift_found ⟨_, hpresented.append l₂, rfl⟩ hfound
  exact (setAuthCookies_ground hentitled hmade).bind fun _ _ => trivial

theorem adminRoute_ground (cookie : Option AccessToken) :
    Informed (SiteGround env op) l (adminRoute cookie) := by
  refine (ground_of_reads (jwtGuard_reads cookie)).bind fun user _ => ?_
  cases RolesGuard.canActivate [.admin] (some user) <;> trivial

theorem SiteRequest.handle_ground (r : SiteRequest) :
    Informed (SiteGround env r) [] (r.handle env) := by
  have hunmailed : Unmailed (lefts ([] : SiteTrail)) := fun _ _ _ h => by cases h
  cases r with
  | register dto => exact (mails_ground (register_cooled dto hunmailed)).bind fun _ _ => trivial
  | verifyOtp email code => exact AuthController.verifyOtp_ground email code
  | resendOtp email =>
    exact (mails_ground (resendOtp_cooled email hunmailed)).bind fun _ _ => trivial
  | login email password => exact AuthController.login_ground email password
  | refresh cookie => exact AuthController.refresh_ground cookie
  | logout cookie => exact AuthController.logout_ground cookie
  | me cookie => exact (ground_of_reads (jwtGuard_reads cookie)).bind fun _ _ => trivial
  | googleCallback profile => exact AuthController.googleCallback_ground profile
  | linkGoogle cookie => exact AuthController.linkGoogle_ground cookie
  | linkGoogleCallback profile state =>
    exact AuthController.linkGoogleCallback_ground profile state
  | updateName cookie name =>
    exact guarded_ground cookie (fun user => updateName_free user.id name) _
  | requestEmailChange cookie newEmail current =>
    exact UsersController.requestEmailChange_ground cookie newEmail current
  | confirmEmailChange cookie code =>
    exact guarded_ground cookie (fun user => confirmEmailChange_free user.id code) _
  | getPendingEmailChange cookie =>
    exact guarded_ground cookie (fun user => getPendingEmailChange_free user.id) _
  | changePassword cookie current new =>
    exact UsersController.changePassword_ground cookie current new
  | adminRoute cookie => exact adminRoute_ground cookie

end Routes

end MovieReservation
