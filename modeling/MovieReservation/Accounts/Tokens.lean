import MovieReservation.Accounts.Commands
import MovieReservation.Lib.Run

/-! The tokens of one user: when they are signed, and when the password changes. A change
increments the access version, which every token carries and which the strategy compares. -/

namespace MovieReservation

open Lib Lib.Prog Accounts

/-- The calls that answer with a fresh pair of tokens. -/
inductive TokenRequest where
  | issue (user : AuthUser)
  | rotate (userId jti : ℕ) (user : AuthUser)
  | changePassword (userId : ℕ) (currentPassword newPassword : String)

def TokenRequest.handle : TokenRequest → AuthM (AccessToken × RefreshToken)
  | issue user => TokenService.issueAuthCookies user
  | rotate userId jti user => TokenService.rotateAuthCookies userId jti user
  | changePassword userId current new => UsersService.changePassword userId current new

def TokenRequest.changes (u : ℕ) : TokenRequest → Bool
  | changePassword userId _ _ => userId = u
  | _ => false

/-! ### What leaves an access version alone -/

def AuthCmd.leavesVersion (u : ℕ) : AuthCmd → Prop
  | .set k _ _ => k ≠ .accessVersion u
  | .del keys => .accessVersion u ∉ keys
  | .bumpAccessVersion v _ => v ≠ u
  | _ => True

section Frame
variable {lib : Hashing} {s : Accounts} {u : ℕ}

theorem AuthCmd.leavesVersion.not_writes {c : AuthCmd} (h : c.leavesVersion u) :
    ¬ c.writesKey (.accessVersion u) := by
  cases c with
  | set k v seconds => exact Ne.symm h
  | del keys => exact h
  | bumpAccessVersion v seconds =>
    intro hk
    cases hk
    exact h rfl
  | _ => simp [AuthCmd.writesKey]

theorem exec_leavesVersion {c : AuthCmd} (h : c.leavesVersion u) :
    (exec lib c s).2.keys (.accessVersion u) = s.keys (.accessVersion u) :=
  exec_key h.not_writes

end Frame

/-! ### What the calls do to it -/

/-- What `getAccessVersion` answers. -/
def Accounts.version (s : Accounts) (u : ℕ) : ℕ := (s.keys.get s.now (.accessVersion u)).getD 0

section Calls
variable {lib : Hashing} {s s' : Accounts} {u : ℕ}

theorem version_congr (hnow : s'.now = s.now)
    (hkey : s'.keys (.accessVersion u) = s.keys (.accessVersion u)) :
    s'.version u = s.version u := by
  simp only [Accounts.version, Keyspace.get, Keyspace.live, hnow, hkey]

theorem version_eq (s : Accounts) (u : ℕ) : s.version u =
    ((s.keys.live s.now (.accessVersion u)).map Entry.value).getD 0 := rfl

theorem version_of_live {e : Entry ℕ} (h : s.keys (.accessVersion u) = some e)
    (hlive : ∀ t ∈ e.expiresAt, s.now < t) : s.version u = e.value := by
  have hany : e.expiresAt.any (fun t => decide (t ≤ s.now)) = false := by
    cases he : e.expiresAt with
    | none => rfl
    | some t => simpa using hlive t he
  have hfound : s.keys.live s.now (.accessVersion u) = some e := by
    unfold Keyspace.live
    rw [h]
    exact if_pos (Bool.not_eq_true' _ ▸ hany)
  rw [Accounts.version, Keyspace.get, hfound]
  rfl

variable (lib)

theorem perform_now {α : Type} (p : AuthM α) (s : Accounts) :
    (perform lib p s).2.now = s.now := by
  have hall : Only (fun _ => True) p := by
    induction p with
    | done r => trivial
    | call c k ih => exact ⟨trivial, ih⟩
  exact hall.run (fun c s => exec lib c s) (I := fun t => t.now = s.now)
    (fun _ _ _ ht => exec_now.trans ht) rfl

theorem perform_leavesVersion {α : Type} {p : AuthM α} (h : Only (AuthCmd.leavesVersion u) p)
    (s : Accounts) : (perform lib p s).2.keys (.accessVersion u) = s.keys (.accessVersion u) :=
  h.run (fun c s => exec lib c s)
    (I := fun t => t.keys (.accessVersion u) = s.keys (.accessVersion u))
    (fun _ _ hc ht => (exec_leavesVersion hc).trans ht) rfl

theorem perform_validate (t : AccessToken) (s : Accounts) :
    (perform lib (JwtStrategy.validate t) s).1 =
      if t.ver < s.version t.user.id then .error JwtStrategy.tokenRevoked else .ok t.user := by
  change (perform lib (if t.ver < s.version t.user.id then throw JwtStrategy.tokenRevoked
    else pure t.user) s).1 = _
  split_ifs <;> rfl

theorem issueAuthCookies_leavesVersion (user : AuthUser) :
    Only (AuthCmd.leavesVersion u) (TokenService.issueAuthCookies user) :=
  issueAuthCookies_only trivial trivial trivial fun _ => trivial

theorem rotateAuthCookies_leavesVersion (userId jti : ℕ) (user : AuthUser) :
    Only (AuthCmd.leavesVersion u) (TokenService.rotateAuthCookies userId jti user) :=
  rotateAuthCookies_only trivial trivial trivial fun _ => trivial

theorem revokeAllSessions_leavesVersion (userId : ℕ) :
    Only (AuthCmd.leavesVersion u) (TokenService.revokeAllSessions userId) :=
  revokeAllSessions_only trivial fun jtis => by simp [AuthCmd.leavesVersion]

/-- Only a change of the password writes the version, and only the user's own. -/
theorem TokenRequest.handle_leavesVersion {r : TokenRequest} (h : r.changes u = false) :
    Only (AuthCmd.leavesVersion u) r.handle := by
  cases r with
  | issue user => exact issueAuthCookies_leavesVersion user
  | rotate userId jti user => exact rotateAuthCookies_leavesVersion userId jti user
  | changePassword userId current new =>
    refine Only.bind (checkPassword_only trivial (fun _ _ => trivial) current) fun _ => ?_
    refine Only.bind (only_authRequest trivial) fun hash => ?_
    refine Only.bind (only_authRequest trivial) fun _ => ?_
    refine Only.bind (only_authRequest (of_decide_eq_false h)) fun _ => ?_
    refine Only.bind (revokeAllSessions_leavesVersion userId) fun _ => ?_
    refine Only.bind (getAuthUser_only trivial) fun user => ?_
    exact issueAuthCookies_leavesVersion user

/-- The access token is signed with the version that is in force, now. -/
theorem perform_issueAuthCookies (user : AuthUser) (s : Accounts) :
    ∃ refresh s', perform lib (TokenService.issueAuthCookies user) s =
      (.ok (⟨user, s.version user.id, s.now / 1000⟩, refresh), s') := ⟨_, _, rfl⟩

theorem perform_rotateAuthCookies {userId jti : ℕ} {user : AuthUser}
    {x : AccessToken × RefreshToken}
    (h : perform lib (TokenService.rotateAuthCookies userId jti user) s = (.ok x, s')) :
    x.1 = ⟨user, s.version user.id, s.now / 1000⟩ := by
  have hsign : perform lib (TokenService.signRefresh user.id) s =
      (.ok ⟨user.id, s.draws, s.now / 1000⟩, s.draw.2) := rfl
  rw [TokenService.rotateAuthCookies, perform_bind, hsign] at h
  dsimp only at h
  rw [perform_bind] at h
  have hnow := perform_now lib (AuthM.request (.rotateRefresh userId jti user.id s.draws
    TokenService.refreshTtlSeconds)) s.draw.2
  have hkey := perform_leavesVersion lib (only_authRequest (P := AuthCmd.leavesVersion user.id)
    (c := .rotateRefresh userId jti user.id s.draws TokenService.refreshTtlSeconds) trivial)
      s.draw.2
  rcases hrun : perform lib (AuthM.request (.rotateRefresh userId jti user.id s.draws
    TokenService.refreshTtlSeconds)) s.draw.2 with ⟨e | rotated, t⟩
  · rw [hrun] at h
    cases h
  · rw [hrun] at h hnow hkey
    cases rotated with
    | false => cases h
    | true =>
      have hversion : t.version user.id = s.version user.id := version_congr hnow hkey
      have hx : (.ok (⟨user, t.version user.id, t.now / 1000⟩,
        ⟨user.id, s.draws, s.now / 1000⟩), t) = ((.ok x, s') : Except Err _ × Accounts) := h
      cases hx
      rw [hversion, show s'.now = s.now from hnow]

theorem perform_revokeAllSessions (userId : ℕ) (s : Accounts) :
    ∃ keys, perform lib (TokenService.revokeAllSessions userId) s = (.ok (), { s with keys }) := by
  have hread : perform lib (AuthM.request (.get (.refreshSessions userId))) s =
      (.ok (s.keys.get s.now (.refreshSessions userId)), s) := rfl
  rw [TokenService.revokeAllSessions, perform_bind, hread]
  dsimp only
  split_ifs
  · exact ⟨_, rfl⟩
  · exact ⟨s.keys, rfl⟩

theorem Keyspace.live_put {ks : Keyspace} {now : Time} {k : AuthKey} {e : Entry k.Value}
    (h : e.expiresAt.any (fun t => decide (t ≤ now)) = false) :
    (ks.put k (some e)).live now k = some e := by
  simp [Keyspace.live, Keyspace.put, h]

/-- `INCR` with `EXPIRE`. -/
theorem Keyspace.bump_self (ks : Keyspace) (now : Time) (u seconds : ℕ) :
    ((ks.incrVersion now u).expire now (.accessVersion u) seconds) (.accessVersion u) =
      some ⟨(ks.get now (.accessVersion u)).getD 0 + 1, some (now + seconds * 1000)⟩ := by
  have hlive : ((ks.live now (.accessVersion u)).getD ⟨0, none⟩).expiresAt.any
      (fun t => decide (t ≤ now)) = false := by
    cases he : ks.live now (.accessVersion u) with
    | none => rfl
    | some e => simpa using (Option.filter_eq_some_iff.mp he).2
  unfold Keyspace.expire Keyspace.incrVersion
  rw [Keyspace.live_put (by exact hlive)]
  simp only [Keyspace.put, Function.update_self, Option.map_some, Keyspace.get]
  cases ks.live now (.accessVersion u) <;> rfl

/-- What follows once the new password is stored. -/
theorem perform_renew {userId : ℕ} {user : User} (hu : s.users.table.get userId = some user) :
    ∃ x s', perform lib (TokenService.incrementAccessVersion userId >>= fun _ =>
        TokenService.revokeAllSessions userId >>= fun _ =>
          AuthService.getAuthUser userId >>= TokenService.issueAuthCookies) s = (.ok x, s') ∧
      x.1.user.id = userId ∧ x.1.iat = s.now / 1000 ∧ x.1.ver = s.version userId + 1 ∧
      s'.keys (.accessVersion userId) = some ⟨s.version userId + 1,
        some (s.now + TokenService.refreshTtlSeconds * 1000)⟩ := by
  obtain ⟨s₁, hbump, hnow₁, hkey₁, hu₁⟩ : ∃ s₁,
      perform lib (TokenService.incrementAccessVersion userId) s = (.ok (), s₁) ∧
      s₁.now = s.now ∧ s₁.keys (.accessVersion userId) = some ⟨s.version userId + 1,
        some (s.now + TokenService.refreshTtlSeconds * 1000)⟩ ∧ s₁.users = s.users :=
    ⟨_, rfl, rfl, Keyspace.bump_self s.keys s.now userId TokenService.refreshTtlSeconds, rfl⟩
  obtain ⟨keys, hrevoke⟩ := perform_revokeAllSessions lib userId s₁
  have hkey₂ : keys (.accessVersion userId) = some ⟨s.version userId + 1,
      some (s.now + TokenService.refreshTtlSeconds * 1000)⟩ := by
    have hkept := perform_leavesVersion lib (u := userId)
      (revokeAllSessions_leavesVersion userId) s₁
    rw [hrevoke] at hkept
    exact hkept.trans hkey₁
  have hfind : perform lib (AuthService.getAuthUser userId) { s₁ with keys } =
      (.ok user.toAuthUser, { s₁ with keys }) := by
    have hread : perform lib (AuthRepository.findById userId) { s₁ with keys } =
        (.ok (s₁.users.table.get userId), { s₁ with keys }) := rfl
    rw [AuthService.getAuthUser, perform_bind, hread, hu₁, hu]
    rfl
  have hid : user.toAuthUser.id = userId := Table.id_of_get hu
  have hversion : ({ s₁ with keys } : Accounts).version userId = s.version userId + 1 := by
    refine version_of_live (s := { s₁ with keys }) hkey₂ fun t ht => ?_
    rw [← Option.some.inj ht]
    show s₁.now < _
    rw [hnow₁]
    exact Int.lt_add_of_pos_right _ (by decide)
  obtain ⟨refresh, s', hissue⟩ :=
    perform_issueAuthCookies lib user.toAuthUser { s₁ with keys }
  have hkey₃ := perform_leavesVersion lib (u := userId)
    (issueAuthCookies_leavesVersion user.toAuthUser) { s₁ with keys }
  rw [perform_bind, hbump]
  dsimp only
  rw [perform_bind, hrevoke]
  dsimp only
  rw [perform_bind, hfind]
  dsimp only
  rw [hissue] at hkey₃ ⊢
  refine ⟨_, s', rfl, hid, congrArg (· / 1000) hnow₁, ?_, hkey₃.trans hkey₂⟩
  show ({ s₁ with keys } : Accounts).version user.toAuthUser.id = _
  rw [hid, hversion]

/-- A change of the password fails and leaves Redis alone, or increments the version and
signs a token with it. -/
theorem changePassword_cases (userId : ℕ) (current new : String) (s : Accounts) :
    (∃ e s', perform lib (UsersService.changePassword userId current new) s = (.error e, s') ∧
      s'.keys = s.keys) ∨
    ∃ x s', perform lib (UsersService.changePassword userId current new) s = (.ok x, s') ∧
      x.1.user.id = userId ∧ x.1.iat = s.now / 1000 ∧ x.1.ver = s.version userId + 1 ∧
      s'.keys (.accessVersion userId) = some ⟨s.version userId + 1,
        some (s.now + TokenService.refreshTtlSeconds * 1000)⟩ := by
  have hcheck : ∃ x, perform lib (UsersService.checkPassword userId current) s = (x, s) := by
    have hread : perform lib (UsersRepository.findById userId) s =
        (.ok (s.users.table.get userId), s) := rfl
    rw [UsersService.checkPassword, perform_bind, hread]
    dsimp only
    cases (s.users.table.get userId).bind User.truthyPassword with
    | none => exact ⟨_, rfl⟩
    | some digest =>
      have hcompare : perform lib (AuthM.request (.bcryptCompare current digest)) s =
          (lib.bcryptCompare current digest, s) := rfl
      dsimp only
      rw [perform_bind, hcompare]
      cases lib.bcryptCompare current digest with
      | error e => exact ⟨_, rfl⟩
      | ok isMatch => cases isMatch <;> exact ⟨_, rfl⟩
  obtain ⟨x, hx⟩ := hcheck
  rw [UsersService.changePassword, perform_bind, hx]
  cases x with
  | error e => exact .inl ⟨e, s, rfl, rfl⟩
  | ok _ =>
    have hhash : perform lib (AuthM.request (.bcryptHash new 10)) s =
        (.ok (lib.bcryptHash s.draw.1 new), s.draw.2) := rfl
    dsimp only
    rw [perform_bind, hhash]
    dsimp only
    have hstore : ∀ hash, perform lib (UsersRepository.updatePassword userId hash) s.draw.2 =
        s.draw.2.commit (s.users.update userId { password := some (some hash) }) := fun _ => rfl
    rw [perform_bind, hstore]
    cases hup : s.users.update userId
        { password := some (some (lib.bcryptHash s.draw.1 new)) } with
    | error e => exact .inl ⟨e, s.draw.2, rfl, rfl⟩
    | ok out =>
      obtain ⟨user, us⟩ := out
      obtain ⟨u₀, hu₀, rfl, ht⟩ := Users.update_eq_ok hup
      obtain ⟨user, hget⟩ : ∃ user, us.table.get userId = some user := by
        rw [ht, Table.get_modify, if_pos rfl, hu₀]
        exact ⟨_, rfl⟩
      exact .inr (perform_renew lib (s := { s.draw.2 with users := us }) hget)

/-- Any other call that signs a token for the user signs it with the version, now. -/
theorem TokenRequest.signed {r : TokenRequest} {x : AccessToken × RefreshToken}
    (hr : r.changes u = false) (h : perform lib r.handle s = (.ok x, s')) (hid : x.1.user.id = u) :
    x.1.iat = s.now / 1000 ∧ x.1.ver = s.version u := by
  cases r with
  | issue user =>
    obtain ⟨refresh, t, ht⟩ := perform_issueAuthCookies lib user s
    have heq := ht.symm.trans h
    cases heq
    exact ⟨rfl, congrArg s.version hid⟩
  | rotate userId jti user =>
    have hx := perform_rotateAuthCookies lib h
    rw [hx] at hid ⊢
    exact ⟨rfl, congrArg s.version hid⟩
  | changePassword userId current new =>
    rcases changePassword_cases lib userId current new s with
      ⟨e, t, ht, -⟩ | ⟨y, t, ht, hy, -⟩
    · cases ht.symm.trans h
    · cases ht.symm.trans h
      exact absurd (hy.symm.trans hid) (of_decide_eq_false hr)

/-- A call fails and leaves the versions alone, or answers with a token of the version that
is in force then; it has raised the version of the user whose password it changed. -/
theorem TokenRequest.handle_cases (r : TokenRequest) (s : Accounts) :
    (∃ e s', perform lib r.handle s = (.error e, s') ∧ s'.now = s.now ∧
      ∀ u, s'.version u = s.version u) ∨
    ∃ x s', perform lib r.handle s = (.ok x, s') ∧ s'.now = s.now ∧ x.1.iat = s.now / 1000 ∧
      x.1.ver = s'.version x.1.user.id ∧
      ∀ u, s'.version u = if r.changes u then s.version u + 1 else s.version u := by
  have hnow := perform_now lib r.handle s
  have hother : ∀ u, r.changes u = false →
      (perform lib r.handle s).2.version u = s.version u := fun u hr =>
    version_congr hnow (perform_leavesVersion lib (r.handle_leavesVersion hr) s)
  by_cases hchanges : ∃ userId current new, r = .changePassword userId current new
  · obtain ⟨userId, current, new, rfl⟩ := hchanges
    rcases changePassword_cases lib userId current new s with
      ⟨e, s', hrun, hkeys⟩ | ⟨x, s', hrun, hid, hiat, hver, hkey⟩
    · have hrun : perform lib (handle (.changePassword userId current new)) s = (.error e, s') :=
        hrun
      rw [hrun] at hnow
      exact .inl ⟨e, s', hrun, hnow, fun u => version_congr hnow (by rw [hkeys])⟩
    · have hrun : perform lib (handle (.changePassword userId current new)) s = (.ok x, s') :=
        hrun
      rw [hrun] at hnow hother
      have hversion : s'.version userId = s.version userId + 1 := by
        refine version_of_live hkey fun t ht => ?_
        rw [← Option.some.inj ht, show s'.now = s.now from hnow]
        exact Int.lt_add_of_pos_right _ (by decide)
      refine .inr ⟨x, s', hrun, hnow, hiat, by rw [hid, hver, hversion], fun u => ?_⟩
      split_ifs with hu
      · rw [← of_decide_eq_true hu, hversion]
      · exact hother u (Bool.not_eq_true _ ▸ hu)
  · have hnot : ∀ u, r.changes u = false := by
      intro u
      cases r with
      | changePassword userId current new => exact absurd ⟨userId, current, new, rfl⟩ hchanges
      | _ => rfl
    rcases hrun : perform lib r.handle s with ⟨e | x, s'⟩
    · rw [hrun] at hnow hother
      exact .inl ⟨e, s', rfl, hnow, fun u => hother u (hnot u)⟩
    · rw [hrun] at hnow hother
      obtain ⟨hiat, hver⟩ := TokenRequest.signed lib (hnot x.1.user.id) hrun rfl
      refine .inr ⟨x, s', rfl, hnow, hiat, ?_, fun u => ?_⟩
      · rw [hver, hother _ (hnot _)]
      · rw [hnot u]
        exact hother u (hnot u)

/-- A version lapses with its key. -/
theorem version_advance (s : Accounts) (ms u : ℕ) :
    ({ s with now := s.now + ms } : Accounts).version u ≤ s.version u := by
  rw [version_eq, version_eq]
  cases hlive : ({ s with now := s.now + ms } : Accounts).keys.live (s.now + ms)
      (.accessVersion u) with
  | none => exact Nat.zero_le _
  | some e =>
    obtain ⟨hkey, hany⟩ := Option.filter_eq_some_iff.mp hlive
    have hbefore : s.keys.live s.now (.accessVersion u) = some e := by
      refine Option.filter_eq_some_iff.mpr ⟨hkey, ?_⟩
      cases he : e.expiresAt with
      | none => rfl
      | some t =>
        have hlater : ¬ t ≤ s.now + ms := by simpa [he] using hany
        have hnow : ¬ t ≤ s.now :=
          fun h => hlater (Int.le_trans h (Int.le_add_of_nonneg_right (Int.natCast_nonneg ms)))
        simpa using hnow
    rw [hbefore]

end Calls

end MovieReservation
