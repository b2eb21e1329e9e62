import MovieReservation.Accounts.Controllers
import MovieReservation.Lib.CacheAside

/-! What each route knows when it signs somebody in, hands a token out, ends sessions, mails a
code or writes to the users: a proof of the e-mail, a password, a Google account, or a token
that was presented and verified; that an id has been drawn; what has been read before. -/

namespace MovieReservation

open Lib Lib.Prog

/-- What one call was answered. -/
abbrev SiteTrail := List (Answer SiteCmd SiteReply Err)

/-- What the calls of a site were answered. -/
abbrev SiteLog := List (ℕ × Answer SiteCmd SiteReply Err)

/-! ### Entitlement -/

/-- The call was told that the token verifies. -/
structure Presented (l : SiteTrail) (t : Token) : Prop where
  signed : ⟨.inr (.signed t), .ok true⟩ ∈ l
  unexpired : ∃ now, ⟨.inl .dateNow, .ok now⟩ ∈ l ∧ now / 1000 < t.exp

/-- What lets a call sign the user in. -/
inductive Entitled (l : SiteTrail) : AuthUser → Prop
  | proven {id : ℕ} {u : User} :
    ⟨.inl (.userUpdate id { emailVerified := some true }), .ok u⟩ ∈ l → Entitled l u.toAuthUser
  | password {email : String} {u : User} : ⟨.inl (.userFindByEmail email), .ok (some u)⟩ ∈ l →
    u.emailVerified = true → Entitled l u.toAuthUser
  | google {googleId : String} {u : User} :
    ⟨.inl (.userFindByGoogleId googleId), .ok (some u)⟩ ∈ l → Entitled l u.toAuthUser
  | created {p : GoogleProfile} {u : User} : ⟨.inl (.userCreate p.data), .ok u⟩ ∈ l →
    Entitled l u.toAuthUser
  | token {t : Token} {u : User} : Presented l t →
    ⟨.inl (.userFindById t.sub), .ok (some u)⟩ ∈ l → Entitled l u.toAuthUser

/-- The random number generator has yielded the id of a refresh token. -/
def DrawnId (jti : ℕ) (l : SiteTrail) : Prop := ⟨.inl .randomUUID, .ok jti⟩ ∈ l

/-- What a token that is handed out rests on. -/
def Token.Earned (op : SiteRequest) (l : SiteTrail) : Token → Prop
  | .access t => Entitled l t.user
  | .refresh t => DrawnId t.jti l ∧ ∃ user, Entitled l user ∧ user.id = t.sub
  | .linkState state => ∃ t, ∃ asked : Time, op = .linkGoogle (some t) ∧
    Presented l (.access t) ∧ t.user.id = state.sub ∧ ⟨.inl .dateNow, .ok asked⟩ ∈ l ∧
      state.iat = asked / 1000

/-! ### What commands rest on -/

/-- The keys of a code that was mailed, which are written and deleted at will. -/
def AuthKey.isCode : AuthKey → Bool
  | .otp _ | .otpAttempts _ | .pendingEmail _ => true
  | _ => false

/-- The user's tokens that were read, and the set that lists them. -/
def revokedKeys (u : ℕ) (jtis : Option (List ℕ)) : List AuthKey :=
  (jtis.getD []).map (.refresh u) ++ [.refreshSessions u]

/-- The user's sessions were read, and no id has been drawn. -/
structure Revokes (l : SiteTrail) (keys : List AuthKey) : Prop where
  read : ∃ (u : ℕ) (jtis : Option (List ℕ)),
    ⟨.inl (.get (.refreshSessions u)), .ok jtis⟩ ∈ l ∧ keys = revokedKeys u jtis
  undrawn : ∀ jti, ¬ DrawnId jti l

/-- No code has been mailed. -/
def Unmailed (l : AuthTrail) : Prop := ∀ email code r, ⟨.sendOtpEmail email code, r⟩ ∉ l

/-- The cooldown of the address had lapsed and was started, and this is the first mail. -/
structure Cooled (env : AuthEnv) (email : String) (l : AuthTrail) : Prop where
  lapsed : ⟨.get (.otpCooldown email), .ok none⟩ ∈ l
  started : ⟨.set (.otpCooldown email) () env.otpResendCooldownSeconds, .ok ()⟩ ∈ l
  first : Unmailed l

/-- The request brings a token that verifies, the password that was found in the account of its
user, and a new one with the digest `hash`. -/
def PasswordGiven (op : SiteRequest) (l : SiteTrail) (id : ℕ) (hash : String) : Prop :=
  ∃ token current new, op = .changePassword (some token) current new ∧ token.user.id = id ∧
    Presented l (.access token) ∧ ⟨.inl (.bcryptHash new 10), .ok hash⟩ ∈ l ∧
      ∃ (user : User) (digest : String), ⟨.inl (.userFindById id), .ok (some user)⟩ ∈ l ∧
        user.password = some digest ∧ ⟨.inl (.bcryptCompare current digest), .ok true⟩ ∈ l

/-- What a command of a route rests on. -/
def SiteGround (env : AuthEnv) (op : SiteRequest) (l : SiteTrail) : SiteCmd → Prop
  | .inl (.storeRefresh id jti _) => DrawnId jti l ∧ ∃ user, Entitled l user ∧ user.id = id
  | .inl (.rotateRefresh old _ id jti _) => DrawnId jti l ∧
    (∃ user, Entitled l user ∧ user.id = id) ∧
      ∃ u : User, ⟨.inl (.userFindById old), .ok (some u)⟩ ∈ l ∧ u.id = id
  | .inl (.set k _ seconds) => k.isCode = true ∨
    ∃ email, k = .otpCooldown email ∧ seconds = env.otpResendCooldownSeconds
  | .inl (.del keys) => (∀ k ∈ keys, k.isCode = true) ∨ Revokes l keys
  | .inl (.userCreate d) => ∀ googleId, d.googleId = some googleId → d.emailVerified = true ∧
    ∃ profile, op = .googleCallback profile ∧ profile.id = googleId
  | .inl (.userUpdate id d) => d.emailVerified ≠ some false ∧
    (∀ googleId, d.googleId = some googleId → ∃ profile state,
      op = .linkGoogleCallback profile (some state) ∧ some profile.id = googleId ∧
        state.sub = id ∧ Presented l (.linkState state)) ∧
    ∀ password, d.password = some password →
      ∃ hash, password = some hash ∧ PasswordGiven op l id hash
  | .inl (.sendOtpEmail email _) => Cooled env email (lefts l)
  | .inr (.send t) => t.Earned op l
  | _ => True

/-- Commands that rest on nothing. -/
def AuthCmd.free (env : AuthEnv) : AuthCmd → Prop
  | .storeRefresh _ _ _ | .rotateRefresh _ _ _ _ _ | .sendOtpEmail _ _ => False
  | .set k _ seconds => k.isCode = true ∨
    ∃ email, k = .otpCooldown email ∧ seconds = env.otpResendCooldownSeconds
  | .del keys => ∀ k ∈ keys, k.isCode = true
  | .userCreate d => d.googleId = none
  | .userUpdate _ d => d.emailVerified ≠ some false ∧ d.googleId = none ∧ d.password = none
  | _ => True

abbrev Free (env : AuthEnv) {α : Type} (p : AuthM α) : Prop := Only (AuthCmd.free env) p

section Ground
variable {env : AuthEnv} {op : SiteRequest} {l : SiteTrail} {user : AuthUser} {t : Token}
  {α : Type}

theorem DrawnId.append {jti : ℕ} (h : DrawnId jti l) (l' : SiteTrail) : DrawnId jti (l ++ l') :=
  List.mem_append_left _ h

theorem Presented.append (h : Presented l t) (l' : SiteTrail) : Presented (l ++ l') t where
  signed := List.mem_append_left _ h.signed
  unexpired := by
    obtain ⟨now, hnow, hlt⟩ := h.unexpired
    exact ⟨now, List.mem_append_left _ hnow, hlt⟩

theorem Entitled.append (h : Entitled l user) (l' : SiteTrail) : Entitled (l ++ l') user := by
  have hmore : ∀ {a : Answer SiteCmd SiteReply Err}, a ∈ l → a ∈ l ++ l' :=
    List.mem_append_left _
  cases h with
  | proven hu => exact .proven (hmore hu)
  | password hu hv => exact .password (hmore hu) hv
  | google hu => exact .google (hmore hu)
  | created hu => exact .created (hmore hu)
  | token ht hu => exact .token (ht.append _) (hmore hu)

theorem siteGround_of_free {c : AuthCmd} (h : c.free env) : SiteGround env op l (.inl c) := by
  cases c with
  | storeRefresh => exact h.elim
  | rotateRefresh => exact h.elim
  | sendOtpEmail => exact h.elim
  | set k v seconds => exact h
  | del keys => exact .inl h
  | userCreate d =>
    intro googleId hg
    rw [show d.googleId = none from h] at hg
    cases hg
  | userUpdate id d =>
    refine ⟨h.1, fun googleId hg => ?_, fun password hp => ?_⟩
    · rw [h.2.1] at hg
      cases hg
    · rw [h.2.2] at hp
      cases hp
  | _ => trivial

theorem Free.ground {p : AuthM α} (h : Free env p) :
    Informed (SiteGround env op) l (p.left : SiteM α) :=
  .of_only (h.left fun _ hc _ => siteGround_of_free hc)

theorem ground_send (h : t.Earned op l) : Informed (SiteGround env op) l t.send :=
  ⟨h, fun r => by cases r <;> trivial⟩

theorem verify_presents (t : Token) :
    Yields (fun l r => r = .ok true → Presented l t) l t.verify := by
  rintro (e | now)
  · rintro h
    cases h
  refine yields_issue_bind (fun e h => by cases h) fun signed h => ?_
  obtain ⟨rfl, hexp⟩ : signed = true ∧ now / 1000 < t.exp := by simpa using h
  exact ⟨by simp, now, by simp, hexp⟩

/-! ### Guards -/

/-- The commands of a guard. -/
def SiteCmd.reads : SiteCmd → Prop
  | .inl .dateNow | .inl (.get _) | .inr (.signed _) => True
  | _ => False

theorem ground_of_reads {p : SiteM α} (h : Only SiteCmd.reads p) :
    Informed (SiteGround env op) l p := by
  refine .of_only (h.mono fun c hc l' => ?_)
  rcases c with c | c
  · cases c with
    | dateNow | get k => trivial
    | _ => exact hc.elim
  · cases c with
    | signed t => trivial
    | send t => exact hc.elim

/-- A guard draws nothing. -/
theorem undrawn_of_reads (h : ∀ x ∈ l, SiteCmd.reads x.1) (jti : ℕ) :
    ⟨.randomUUID, .ok jti⟩ ∉ lefts l := fun hmem => h _ (mem_lefts.mp hmem)

/-- A guard mails nothing. -/
theorem unmailed_of_reads (h : ∀ x ∈ l, SiteCmd.reads x.1) : Unmailed (lefts l) :=
  fun _ _ _ hmem => h _ (mem_lefts.mp hmem)

theorem verify_reads (t : Token) : Only SiteCmd.reads t.verify :=
  Only.bind ((only_issue _).mpr trivial) fun _ =>
    Only.bind ((only_issue _).mpr trivial) fun _ => trivial

theorem jwtGuard_reads (cookie : Option AccessToken) :
    Only SiteCmd.reads (JwtAuthGuard.canActivate cookie) := by
  cases cookie with
  | none => trivial
  | some token =>
    refine Only.bind (verify_reads _) fun ok => ?_
    split_ifs
    · refine Only.left (P := fun c => SiteCmd.reads (.inl c)) (fun _ h => h) ?_
      refine Only.bind (Only.bind (only_authRequest trivial) fun _ => trivial) fun version => ?_
      split_ifs <;> trivial
    · trivial

theorem refreshGuard_reads (cookie : Option RefreshToken) :
    Only SiteCmd.reads (JwtRefreshGuard.canActivate cookie) := by
  cases cookie with
  | none => trivial
  | some token =>
    refine Only.bind (verify_reads _) fun ok => ?_
    split_ifs <;> trivial

theorem linkState_reads (state : Option LinkState) :
    Only SiteCmd.reads (TokenService.verifyLinkState state) := by
  cases state with
  | none => trivial
  | some state =>
    refine Only.bind (verify_reads _) fun ok => ?_
    split_ifs <;> trivial

/-- Whoever is let in has presented an access token. -/
theorem jwtGuard_presents (cookie : Option AccessToken) :
    Yields (Knows fun l user => ∃ t, cookie = some t ∧ Presented l (.access t) ∧ user = t.user) l
      (JwtAuthGuard.canActivate cookie) := by
  cases cookie with
  | none =>
    intro v hv
    cases hv
  | some token =>
    refine (verify_presents _).bind (fun l e _ v hv => by cases hv) fun ok l hok => ?_
    split_ifs with htrue
    · subst htrue
      have hpresented := hok rfl
      rintro (e | version)
      · intro v hv
        cases hv
      · change Yields _ _ (left (if token.ver < version.getD 0 then throw JwtStrategy.tokenRevoked
          else pure token.user) : SiteM AuthUser)
        split_ifs
        · intro v hv
          cases hv
        · intro v hv
          cases hv
          exact ⟨token, rfl, hpresented.append _, rfl⟩
    · intro v hv
      cases hv

theorem refreshGuard_presents (cookie : Option RefreshToken) :
    Yields (Knows fun l t => cookie = some t ∧ Presented l (.refresh t)) l
      (JwtRefreshGuard.canActivate cookie) := by
  cases cookie with
  | none =>
    intro v hv
    cases hv
  | some token =>
    refine (verify_presents _).bind (fun l e _ v hv => by cases hv) fun ok l hok => ?_
    split_ifs with htrue
    · subst htrue
      intro v hv
      cases hv
      exact ⟨rfl, hok rfl⟩
    · intro v hv
      cases hv

theorem signLinkState_reads (userId : ℕ) :
    Only SiteCmd.reads (TokenService.signLinkState userId) :=
  Only.bind ((only_issue _).mpr trivial) fun _ => trivial

theorem signLinkState_signs (userId : ℕ) :
    Yields (Knows fun l state => ∃ asked, ⟨.inl .dateNow, .ok asked⟩ ∈ l ∧
      state = ⟨userId, asked / 1000⟩) l (TokenService.signLinkState userId) := by
  rintro (e | asked)
  · intro v hv
    cases hv
  · intro v hv
    cases hv
    exact ⟨asked, by simp, rfl⟩

theorem linkState_presents (state : Option LinkState) :
    Yields (Knows fun l id => ∃ st, state = some st ∧ Presented l (.linkState st) ∧ id = st.sub) l
      (TokenService.verifyLinkState state) := by
  cases state with
  | none =>
    intro v hv
    cases hv
  | some state =>
    refine (verify_presents _).bind (fun l e _ v hv => by cases hv) fun ok l hok => ?_
    split_ifs with htrue
    · subst htrue
      intro v hv
      cases hv
      exact ⟨state, rfl, hok rfl, rfl⟩
    · intro v hv
      cases hv

end Ground

/-! ### What the services answer -/

section Services
variable {env : AuthEnv} {l : AuthTrail} {α : Type}

/-- The user who was found by this id. -/
def FoundById (id : ℕ) (l : AuthTrail) (user : AuthUser) : Prop :=
  ∃ u, ⟨.userFindById id, .ok (some u)⟩ ∈ l ∧ user = u.toAuthUser

theorem FoundById.append {id : ℕ} {user : AuthUser} (h : FoundById id l user) (l' : AuthTrail) :
    FoundById id (l ++ l') user := by
  obtain ⟨u, hu, rfl⟩ := h
  exact ⟨u, List.mem_append_left _ hu, rfl⟩

theorem knows_error {K : AuthTrail → α → Prop} (e : Err) :
    Yields (Knows K) l (throw e : AuthM α) := fun v h => by cases h

theorem knows_ok {K : AuthTrail → α → Prop} {v : α} (h : K l v) :
    Yields (Knows K) l (pure v : AuthM α) := fun v' hv => by
  cases hv
  exact h

theorem knows_request {c : AuthCmd} {K : AuthTrail → α → Prop} {f : c.Reply → AuthM α}
    (hf : ∀ a, Yields (Knows K) (l ++ [⟨c, .ok a⟩]) (f a)) :
    Yields (Knows K) l (AuthM.request c >>= f) :=
  yields_issue_bind (fun e v h => by cases h) hf

/-- A first part that fails or passes on what it knows. -/
theorem knows_bind {β : Type} {K : AuthTrail → β → Prop} {K' : AuthTrail → α → Prop}
    {p : AuthM β} {f : β → AuthM α} (h : Yields (Knows K) l p)
    (hf : ∀ b l, K l b → Yields (Knows K') l (f b)) : Yields (Knows K') l (p >>= f) :=
  h.bind (fun l e _ v hv => by cases hv) fun b l hb => hf b l (hb b rfl)

/-- A first part of which nothing need be known. -/
theorem knows_after {β : Type} {K : AuthTrail → α → Prop} (p : AuthM β) {f : β → AuthM α}
    (hf : ∀ b l, Yields (Knows K) l (f b)) : Yields (Knows K) l (p >>= f) :=
  knows_bind (K := fun _ _ => True) (yields_of (fun _ _ _ _ => trivial) p) fun b l _ => hf b l

theorem verifyOtp_proves (email code : String) : Yields (Knows fun l u =>
    ∃ id, ⟨.userUpdate id { emailVerified := some true }, .ok u⟩ ∈ l) l
      (AuthService.verifyOtp env email code) := by
  unfold AuthService.verifyOtp
  refine knows_request fun user => ?_
  cases user with
  | none => exact knows_error _
  | some user =>
    dsimp only
    split_ifs
    · exact knows_error _
    · refine knows_after _ fun ok l => ?_
      split_ifs
      · intro r u hu
        subst hu
        exact ⟨user.id, by simp⟩
      · exact knows_error _

theorem validateUser_finds (email password : String) : Yields (Knows fun l user =>
    ∃ u, ⟨.userFindByEmail email, .ok (some u)⟩ ∈ l ∧ u.emailVerified = true ∧
      user = u.toAuthUser) l (AuthService.validateUser email password) := by
  unfold AuthService.validateUser
  refine knows_request fun user => ?_
  change Option User at user
  cases hfound : user.bind fun u => u.truthyPassword.map (u, ·) with
  | none => exact knows_error _
  | some found =>
    obtain ⟨u, hu, hpair⟩ := Option.bind_eq_some_iff.mp hfound
    obtain ⟨digest, -, rfl⟩ := Option.map_eq_some_iff.mp hpair
    subst hu
    refine knows_request fun isMatch => ?_
    split_ifs with hmatch hverified
    · exact knows_ok ⟨u, by simp, hverified, rfl⟩
    · exact knows_error _
    · exact knows_error _

theorem getAuthUser_finds (id : ℕ) :
    Yields (Knows (FoundById id)) l (AuthService.getAuthUser id) := by
  unfold AuthService.getAuthUser
  refine knows_request fun user => ?_
  cases user with
  | none => exact knows_error _
  | some u => exact knows_ok ⟨u, by simp, rfl⟩

theorem resolveGoogleUser_finds (p : GoogleProfile) : Yields (Knows fun l user =>
    ∃ u, user = u.toAuthUser ∧ (⟨.userFindByGoogleId p.googleId, .ok (some u)⟩ ∈ l ∨
      ⟨.userCreate p.data, .ok u⟩ ∈ l)) l (AuthService.resolveGoogleUser p) := by
  unfold AuthService.resolveGoogleUser
  refine knows_request fun byGoogle => ?_
  cases byGoogle with
  | some u => exact knows_ok ⟨u, rfl, .inl (by simp)⟩
  | none =>
    refine knows_request fun byEmail => ?_
    split_ifs
    · exact knows_error _
    · refine knows_request fun u => knows_ok ⟨u, rfl, .inr ?_⟩
      exact List.mem_append_right _ (List.mem_singleton_self _)

/-- The code that is answered goes with a cooldown. -/
theorem issueOtp_cools (env : AuthEnv) (email : String) : Yields (Knows fun l _ =>
    ⟨.get (.otpCooldown email), .ok none⟩ ∈ l ∧
      ⟨.set (.otpCooldown email) () env.otpResendCooldownSeconds, .ok ()⟩ ∈ l) l
        (OtpService.issue env email) := by
  unfold OtpService.issue OtpService.gen
  refine knows_request fun coolingDown => ?_
  cases coolingDown with
  | some _ => exact knows_error _
  | none =>
    simp only [Option.isSome_none, Bool.false_eq_true, if_false, bind_assoc, pure_bind]
    refine knows_request fun n => knows_request fun _ => knows_request fun _ => ?_
    exact knows_request fun _ => knows_ok ⟨by simp, by simp⟩

/-- The pair of tokens is for the user, and the refresh token has an id of its own. -/
structure MadeOut (user : AuthUser) (l : AuthTrail) (x : AccessToken × RefreshToken) : Prop where
  access : x.1.user = user
  refresh : x.2.sub = user.id
  drawn : ⟨.randomUUID, .ok x.2.jti⟩ ∈ l

theorem signAccess_user (user : AuthUser) :
    Yields (Knows fun _ t => t.user = user) l (TokenService.signAccess user) := by
  unfold TokenService.signAccess
  exact knows_after _ fun ver l => knows_request fun now => knows_ok rfl

theorem signRefresh_draws (userId : ℕ) :
    Yields (Knows fun l t => t.sub = userId ∧ ⟨.randomUUID, .ok t.jti⟩ ∈ l) l
      (TokenService.signRefresh userId) := by
  unfold TokenService.signRefresh
  exact knows_request fun jti => knows_request fun now => knows_ok ⟨rfl, by simp⟩

theorem issueAuthCookies_madeOut (user : AuthUser) :
    Yields (Knows (MadeOut user)) l (TokenService.issueAuthCookies user) := by
  unfold TokenService.issueAuthCookies
  refine knows_bind (signAccess_user user) fun access l haccess => ?_
  refine knows_bind (signRefresh_draws user.id) fun refresh l hrefresh => ?_
  exact knows_request fun _ =>
    knows_ok ⟨haccess, hrefresh.1, List.mem_append_left _ hrefresh.2⟩

/-- The refresh token was swapped for another. -/
def Exchanged (userId jti : ℕ) (l : AuthTrail) : Prop :=
  ∃ id new seconds, ⟨.rotateRefresh userId jti id new seconds, .ok true⟩ ∈ l

theorem Exchanged.append {userId jti : ℕ} (h : Exchanged userId jti l) (l' : AuthTrail) :
    Exchanged userId jti (l ++ l') := by
  obtain ⟨id, new, seconds, hswap⟩ := h
  exact ⟨id, new, seconds, List.mem_append_left _ hswap⟩

theorem rotateAuthCookies_madeOut (payloadId payloadJti : ℕ) (user : AuthUser) :
    Yields (Knows fun l x => MadeOut user l x ∧ Exchanged payloadId payloadJti l) l
      (TokenService.rotateAuthCookies payloadId payloadJti user) := by
  unfold TokenService.rotateAuthCookies
  refine knows_bind (signRefresh_draws user.id) fun refresh l hrefresh => ?_
  refine knows_request fun rotated => ?_
  split_ifs with hrotated
  · subst hrotated
    have hknown := (signAccess_user (l := l ++ [⟨.rotateRefresh payloadId payloadJti user.id
      refresh.jti TokenService.refreshTtlSeconds, .ok true⟩]) user).keep
        (K := fun l => ⟨.randomUUID, .ok refresh.jti⟩ ∈ l ∧ Exchanged payloadId payloadJti l)
        (fun l a h => ⟨List.mem_append_left _ h.1, h.2.append [a]⟩)
        ⟨List.mem_append_left _ hrefresh.2, _, _, _, List.mem_append_right _ (.head _)⟩
    refine hknown.bind (fun l e _ v hv => by cases hv) fun access l h => ?_
    exact knows_ok ⟨⟨h.2 access rfl, hrefresh.1, h.1.1⟩, h.1.2⟩
  · exact knows_error _

/-- The sessions of the user were read, and deleted if there were any. -/
def RevokedAll (u : ℕ) (l : AuthTrail) : Prop :=
  ∃ jtis : Option (List ℕ), ⟨.get (.refreshSessions u), .ok jtis⟩ ∈ l ∧
    (jtis.getD [] = [] ∨ ⟨.del (revokedKeys u jtis), .ok ()⟩ ∈ l)

theorem RevokedAll.append {u : ℕ} (h : RevokedAll u l) (l' : AuthTrail) :
    RevokedAll u (l ++ l') := by
  obtain ⟨jtis, hread, hdel⟩ := h
  exact ⟨jtis, List.mem_append_left _ hread, hdel.imp_right (List.mem_append_left _)⟩

theorem revokeAllSessions_revokes (u : ℕ) :
    Yields (Knows fun l _ => RevokedAll u l) l (TokenService.revokeAllSessions u) := by
  unfold TokenService.revokeAllSessions
  refine knows_request fun jtis => ?_
  change Option (List ℕ) at jtis
  split_ifs with hsome
  · intro r v hr
    subst hr
    exact ⟨jtis, by simp, .inr (List.mem_append_right _ (List.mem_singleton_self _))⟩
  · refine knows_ok ⟨jtis, by simp, .inl ?_⟩
    simpa using hsome

theorem changePassword_madeOut (userId : ℕ) (current new : String) :
    Yields (Knows fun l x => RevokedAll userId l ∧
      ∃ user, FoundById userId l user ∧ MadeOut user l x) l
        (UsersService.changePassword userId current new) := by
  unfold UsersService.changePassword
  refine knows_after _ fun _ l => knows_request fun hash => knows_request fun _ => ?_
  refine knows_after _ fun _ l => knows_bind (revokeAllSessions_revokes userId) fun _ l hr => ?_
  have hfound := (getAuthUser_finds (l := l) userId).keep (K := RevokedAll userId)
    (fun l a h => h.append [a]) hr
  refine hfound.bind (fun l e _ v hv => by cases hv) fun user l h => ?_
  have hmade := (issueAuthCookies_madeOut (l := l) user).keep
    (K := fun l => RevokedAll userId l ∧ FoundById userId l user)
    (fun l a h => ⟨h.1.append [a], h.2.append [a]⟩) ⟨h.1, h.2 user rfl⟩
  exact hmade.mono fun l r h x hx => ⟨h.1.1, user, h.1.2, h.2 x hx⟩

end Services

end MovieReservation
