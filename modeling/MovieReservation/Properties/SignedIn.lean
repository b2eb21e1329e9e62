import MovieReservation.Accounts.Routes
import MovieReservation.Properties.Rotation
import MovieReservation.Properties.VerifiedEmails

/-! Who can be signed in: every token in the hands of a client, and every session that can
be refreshed, is of a user who is there and has a verified e-mail, and says what role the
user has. The role is that of the row, which no request changes; so whoever is let through
to a route of the administrators was one from the start. -/

namespace MovieReservation

open Lib Lib.Prog Lib.Table Lib.System Accounts

/-! ### Users -/

/-- What becomes of a user: the role stays, and a verified e-mail stays verified. -/
def User.Keeps (u v : User) : Prop :=
  v.role = u.role ∧ (u.emailVerified = true → v.emailVerified = true)

theorem User.Keeps.refl (u : User) : u.Keeps u := ⟨rfl, fun h => h⟩

/-- The user is there with the role and a verified e-mail. -/
def Users.Verified (us : Users) (id : ℕ) (role : UserRole) : Prop :=
  ∃ u, us.table.get id = some u ∧ u.emailVerified = true ∧ u.role = role

/-- A user who was answered is still there with the role, and has a verified e-mail if that
was known. -/
def Users.Still (us : Users) (u : User) (known : Prop) : Prop :=
  ∃ v, us.table.get u.id = some v ∧ v.role = u.role ∧ (known → v.emailVerified = true)

abbrev Users.GrowsTo (us us' : Users) : Prop := Grows User.Keeps us.table us'.table

section Users
variable {us us' : Users} {id : ℕ} {role : UserRole} {u : User} {known : Prop}

theorem Users.Verified.mono (h : us.Verified id role) (hgrows : us.GrowsTo us') :
    us'.Verified id role := by
  obtain ⟨u, hu, hverified, hrole⟩ := h
  obtain ⟨v, hv, hkept, hstays⟩ := hgrows id u hu
  exact ⟨v, hv, hstays hverified, hkept.trans hrole⟩

theorem Users.Still.mono (h : us.Still u known) (hgrows : us.GrowsTo us') :
    us'.Still u known := by
  obtain ⟨v, hv, hrole, hknown⟩ := h
  obtain ⟨w, hw, hkept, hstays⟩ := hgrows u.id v hv
  exact ⟨w, hw, hkept.trans hrole, fun hk => hstays (hknown hk)⟩

theorem Users.Still.verified (h : us.Still u known) (hknown : known) :
    us.Verified u.id u.role := by
  obtain ⟨v, hv, hrole, hverified⟩ := h
  exact ⟨v, hv, hverified hknown, hrole⟩

theorem still_of_mem (hu : u ∈ us.table.rows) (h : known → u.emailVerified = true) :
    us.Still u known := ⟨u, get_of_mem hu, rfl, h⟩

end Users

/-! ### What is in the hands of the clients -/

/-- The token says the truth of a verified user. -/
def Users.Vouches (us : Users) : Token → Prop
  | .access t => us.Verified t.user.id t.user.role
  | .refresh t => ∃ role, us.Verified t.sub role
  | .linkState t => ∃ role, us.Verified t.sub role

/-- What was answered to a command is so for good. -/
def HoldsOn (s : Site) : Answer SiteCmd SiteReply Err → Prop
  | ⟨.inl (.userFindByEmail _), .ok (some u)⟩ => s.accounts.users.Still u (u.emailVerified = true)
  | ⟨.inl (.userFindById id), .ok (some u)⟩ =>
    u.id = id ∧ s.accounts.users.Still u (u.emailVerified = true)
  | ⟨.inl (.userFindByGoogleId _), .ok (some u)⟩ => s.accounts.users.Still u True
  | ⟨.inl (.userUpdate _ d), .ok u⟩ => s.accounts.users.Still u (d.emailVerified = some true)
  | ⟨.inl (.userCreate d), .ok u⟩ => s.accounts.users.Still u (d.emailVerified = true)
  | ⟨.inr (.signed t), .ok true⟩ => t ∈ s.sent
  | _ => True

/-- What every run keeps that begins with the users `start`. -/
structure WellKept (start : Users) (tr : SiteLog) (s : Site) : Prop where
  admins : ∀ u ∈ s.accounts.users.table.rows, u.role = .admin →
    ∃ v, start.table.get u.id = some v ∧ v.role = .admin
  linked : ∀ u ∈ s.accounts.users.table.rows, u.googleId.isSome = true → u.emailVerified = true
  sent : ∀ t ∈ s.sent, s.accounts.users.Vouches t
  sessions : ∀ id jti, jti ∈ s.accounts.keys.tokens id → ∃ role, s.accounts.users.Verified id role
  answers : ∀ a ∈ tr, HoldsOn s a.2

section WellKept
variable {lib : Hashing} {start : Users} {tr : SiteLog} {s s' : Site} {l : SiteTrail}
  {user : AuthUser} {t : Token} {c : SiteCmd}

theorem Users.Vouches.mono {us us' : Users} (h : us.Vouches t) (hgrows : us.GrowsTo us') :
    us'.Vouches t := by
  cases t with
  | access t => exact Users.Verified.mono h hgrows
  | refresh t | linkState t => exact h.imp fun role hrole => hrole.mono hgrows

theorem Users.Vouches.verified {us : Users} (h : us.Vouches t) :
    ∃ role, us.Verified t.sub role := by
  cases t with
  | access t => exact ⟨_, h⟩
  | refresh t | linkState t => exact h

theorem HoldsOn.mono {a : Answer SiteCmd SiteReply Err} (h : HoldsOn s a)
    (hgrows : s.accounts.users.GrowsTo s'.accounts.users) (hsent : s.sent ⊆ s'.sent) :
    HoldsOn s' a := by
  obtain ⟨c | c, r⟩ := a
  · cases c with
    | userFindByEmail email =>
      rcases r with e | (_ | u)
      · trivial
      · trivial
      · exact Users.Still.mono h hgrows
    | userFindById id =>
      rcases r with e | (_ | u)
      · trivial
      · trivial
      · exact ⟨h.1, h.2.mono hgrows⟩
    | userFindByGoogleId googleId =>
      rcases r with e | (_ | u)
      · trivial
      · trivial
      · exact Users.Still.mono h hgrows
    | userUpdate id d | userCreate d =>
      rcases r with e | u
      · trivial
      · exact Users.Still.mono h hgrows
    | _ => trivial
  · cases c with
    | send t => trivial
    | signed t =>
      rcases r with e | (_ | _)
      · trivial
      · trivial
      · exact hsent h

/-- A user who is entitled to be signed in has a verified e-mail, and the role. -/
theorem Entitled.verified (h : Entitled l user) (hl : ∀ a ∈ l, HoldsOn s a)
    (hsent : ∀ t ∈ s.sent, s.accounts.users.Vouches t) :
    s.accounts.users.Verified user.id user.role := by
  cases h with
  | proven hu => exact Users.Still.verified (hl _ hu) rfl
  | password hu hverified => exact Users.Still.verified (hl _ hu) hverified
  | google hu => exact Users.Still.verified (hl _ hu) trivial
  | created hu => exact Users.Still.verified (hl _ hu) rfl
  | @token t u ht hu =>
    have hin : t ∈ s.sent := hl _ ht.signed
    obtain ⟨hid, v, hv, hrole, -⟩ := hl _ hu
    obtain ⟨role, w, hw, hverified, -⟩ := (hsent t hin).verified
    have hsame : w = v := by
      rw [hid, hw] at hv
      exact Option.some.inj hv
    exact ⟨v, hv, hsame ▸ hverified, hrole⟩

end WellKept

/-! ### What a command does -/

section Exec
variable {lib : Hashing} {env : AuthEnv} {op : SiteRequest} {s : Site} {l : SiteTrail}

/-- A user that is created has the role of a user. -/
theorem usersCreate_cases (d : UserCreate) (us : Users) :
    (∃ e, us.create d = .error e) ∨ ∃ us', us.create d = .ok (d.row us.table.serial, us') ∧
      us'.table = us.table.insert d.row d.id_row := by
  cases h : us.create d with
  | error e => exact .inl ⟨e, rfl⟩
  | ok out =>
    obtain ⟨u, us'⟩ := out
    obtain ⟨rfl, ht⟩ := Users.create_eq_ok h
    exact .inr ⟨us', rfl, ht⟩

theorem usersUpdate_cases (id : ℕ) (d : UserData) (us : Users) :
    (∃ e, us.update id d = .error e) ∨ ∃ u us', us.table.get id = some u ∧
      us.update id d = .ok (d.apply u, us') ∧
        us'.table = us.table.modify id d.apply d.id_apply := by
  cases h : us.update id d with
  | error e => exact .inl ⟨e, rfl⟩
  | ok out =>
    obtain ⟨v, us'⟩ := out
    obtain ⟨u, hu, rfl, ht⟩ := Users.update_eq_ok h
    exact .inr ⟨u, us', hu, rfl, ht⟩

theorem keeps_apply {d : UserData} (hd : d.emailVerified ≠ some false) (u : User) :
    u.Keeps (d.apply u) := by
  refine ⟨rfl, fun hverified => ?_⟩
  change d.emailVerified.getD u.emailVerified = true
  cases hflag : d.emailVerified with
  | none => exact hverified
  | some b =>
    cases b with
    | true => rfl
    | false => exact absurd hflag hd

theorem exec_userCreate (d : UserCreate) (s : Accounts) :
    Accounts.exec lib (.userCreate d) s = s.commit (s.users.create d) := rfl

theorem exec_userUpdate (id : ℕ) (d : UserData) (s : Accounts) :
    Accounts.exec lib (.userUpdate id d) s = s.commit (s.users.update id d) := rfl

theorem exec_grows {c : SiteCmd} (hc : SiteGround env op l c) :
    s.accounts.users.GrowsTo (Site.exec lib c s).2.accounts.users := by
  rcases c with c | c
  · change Users.GrowsTo _ (Accounts.exec lib c s.accounts).2.users
    by_cases hleaves : c.leavesUsers
    · rw [exec_users hleaves]
      exact Grows.refl User.Keeps.refl _
    cases c with
    | userCreate d =>
      rw [exec_userCreate]
      rcases usersCreate_cases d s.accounts.users with ⟨e, he⟩ | ⟨us', hres, ht⟩
      · rw [he]
        exact Grows.refl User.Keeps.refl _
      · rw [hres]
        change Grows User.Keeps _ us'.table
        rw [ht]
        exact grows_insert User.Keeps.refl d.id_row
    | userUpdate id d =>
      rw [exec_userUpdate]
      rcases usersUpdate_cases id d s.accounts.users with ⟨e, he⟩ | ⟨u, us', hu, hres, ht⟩
      · rw [he]
        exact Grows.refl User.Keeps.refl _
      · rw [hres]
        change Grows User.Keeps _ us'.table
        rw [ht]
        exact grows_modify User.Keeps.refl d.id_apply fun u _ => keeps_apply hc.1 u
    | _ => exact absurd trivial hleaves
  · cases c <;> exact Grows.refl User.Keeps.refl _

theorem exec_sent (lib : Hashing) (s : Site) (c : SiteCmd) : s.sent ⊆ (Site.exec lib c s).2.sent ∧
    ∀ t ∈ (Site.exec lib c s).2.sent, t ∈ s.sent ∨ c = .inr (.send t) := by
  rcases c with c | c
  · exact ⟨fun t ht => ht, fun t ht => .inl ht⟩
  · cases c with
    | send t =>
      refine ⟨List.subset_append_left _ _, fun t' ht => ?_⟩
      rcases List.mem_append.mp ht with ht | ht
      · exact .inl ht
      · rw [List.mem_singleton.mp ht]
        exact .inr rfl
    | signed t => exact ⟨fun t ht => ht, fun t ht => .inl ht⟩

/-- Where a user of the next state comes from. -/
theorem exec_row {c : SiteCmd} {u : User}
    (hu : u ∈ (Site.exec lib c s).2.accounts.users.table.rows) :
    u ∈ s.accounts.users.table.rows ∨
      (∃ d, c = .inl (.userCreate d) ∧ u = d.row s.accounts.users.table.serial) ∨
        ∃ d, ∃ v ∈ s.accounts.users.table.rows,
          c = .inl (.userUpdate v.id d) ∧ u = d.apply v := by
  rcases c with c | c
  · change u ∈ (Accounts.exec lib c s.accounts).2.users.table.rows at hu
    by_cases hleaves : c.leavesUsers
    · rw [exec_users hleaves] at hu
      exact .inl hu
    cases c with
    | userCreate d =>
      rw [exec_userCreate] at hu
      rcases usersCreate_cases d s.accounts.users with ⟨e, he⟩ | ⟨us', hres, ht⟩
      · rw [he] at hu
        exact .inl hu
      · rw [hres] at hu
        change u ∈ us'.table.rows at hu
        rw [ht, rows_insert, List.mem_append, List.mem_singleton] at hu
        rcases hu with hu | rfl
        · exact .inl hu
        · exact .inr (.inl ⟨d, rfl, rfl⟩)
    | userUpdate id d =>
      rw [exec_userUpdate] at hu
      rcases usersUpdate_cases id d s.accounts.users with ⟨e, he⟩ | ⟨v, us', hv, hres, ht⟩
      · rw [he] at hu
        exact .inl hu
      · rw [hres] at hu
        change u ∈ us'.table.rows at hu
        rw [ht, mem_modify] at hu
        rcases hu with ⟨hu, -⟩ | ⟨w, hw, hid, rfl⟩
        · exact .inl hu
        · refine .inr (.inr ⟨d, w, hw, ?_, rfl⟩)
          rw [← show w.id = id from hid]
    | _ => exact absurd trivial hleaves
  · cases c <;> exact .inl hu

/-- Where a session of the next state comes from. -/
theorem exec_session {c : SiteCmd} (hc : SiteGround env op l c) {id jti : ℕ}
    (h : jti ∈ (Site.exec lib c s).2.accounts.keys.tokens id) :
    jti ∈ s.accounts.keys.tokens id ∨ ∃ user, Entitled l user ∧ user.id = id := by
  rcases c with c | c
  · change jti ∈ (Accounts.exec lib c s.accounts).2.keys.tokens id at h
    by_cases hwrites : c.writesKey (.refresh id jti)
    · cases c with
      | storeRefresh v j seconds =>
        change jti ∈ ((s.accounts.keys.set _ _ _ _).onSessions _ _ _).tokens id at h
        rw [Keyspace.tokens_onSessions, Keyspace.tokens_set] at h
        rcases h with h | ⟨rfl, -⟩
        · exact .inl h
        · exact .inr hc.2
      | rotateRefresh old k v j seconds =>
        simp only [Accounts.exec] at h
        split_ifs at h
        · dsimp only at h
          rw [Keyspace.tokens_onSessions, Keyspace.tokens_onSessions, Keyspace.tokens_set] at h
          rcases h with h | ⟨rfl, -⟩
          · exact .inl (Keyspace.tokens_del_subset _ h)
          · exact .inr hc.2.1
        · exact .inl h
      | del keys => exact .inl (Keyspace.tokens_del_subset keys h)
      | set k v seconds =>
        obtain rfl : AuthKey.refresh id jti = k := hwrites
        rcases hc with hc | ⟨email, hc, -⟩ <;> cases hc
      | _ => cases hwrites
    · refine .inl ?_
      change (Accounts.exec lib c s.accounts).2.keys (.refresh id jti) ≠ none at h
      rwa [exec_key hwrites] at h
  · cases c <;> exact .inl h

/-- What a command is answered holds from then on. -/
theorem exec_answer {c : SiteCmd}
    (hlinked : ∀ u ∈ s.accounts.users.table.rows, u.googleId.isSome = true →
      u.emailVerified = true) :
    HoldsOn (Site.exec lib c s).2 ⟨c, (Site.exec lib c s).1⟩ := by
  rcases c with c | c
  · cases c with
    | userFindById id =>
      change HoldsOn s ⟨.inl (.userFindById id), .ok (s.accounts.users.table.get id)⟩
      cases hu : s.accounts.users.table.get id with
      | none => trivial
      | some u => exact ⟨id_of_get hu, still_of_mem (mem_of_get hu) fun h => h⟩
    | userFindByEmail email =>
      change HoldsOn s ⟨.inl (.userFindByEmail email), .ok (s.accounts.users.findByEmail email)⟩
      cases hu : s.accounts.users.findByEmail email with
      | none => trivial
      | some u => exact still_of_mem (List.mem_of_find?_eq_some hu) fun h => h
    | userFindByGoogleId googleId =>
      change HoldsOn s ⟨.inl (.userFindByGoogleId googleId),
        .ok (s.accounts.users.findByGoogleId googleId)⟩
      cases hu : s.accounts.users.findByGoogleId googleId with
      | none => trivial
      | some u =>
        have hmem := List.mem_of_find?_eq_some hu
        have hgoogle : u.googleId = some googleId := by simpa using List.find?_some hu
        exact still_of_mem hmem fun _ => hlinked u hmem (by rw [hgoogle]; rfl)
    | userCreate d =>
      rcases usersCreate_cases d s.accounts.users with ⟨e, he⟩ | ⟨us', hres, ht⟩
      · simp only [Site.exec, exec_userCreate, he]
        trivial
      · simp only [Site.exec, exec_userCreate, hres]
        have hmem : d.row s.accounts.users.table.serial ∈ us'.table.rows := by
          rw [ht, rows_insert]
          exact List.mem_append_right _ (List.mem_singleton_self _)
        exact still_of_mem hmem fun h => h
    | userUpdate id d =>
      rcases usersUpdate_cases id d s.accounts.users with ⟨e, he⟩ | ⟨u, us', hu, hres, ht⟩
      · simp only [Site.exec, exec_userUpdate, he]
        trivial
      · simp only [Site.exec, exec_userUpdate, hres]
        have hmem : d.apply u ∈ us'.table.rows := by
          rw [ht, mem_modify]
          exact .inr ⟨u, mem_of_get hu, id_of_get hu, rfl⟩
        refine still_of_mem hmem fun h => ?_
        change d.emailVerified.getD u.emailVerified = true
        rw [h]
        rfl
    | _ => trivial
  · cases c with
    | send t => trivial
    | signed t =>
      change HoldsOn s ⟨.inr (.signed t), .ok (decide (t ∈ s.sent))⟩
      by_cases ht : t ∈ s.sent
      · rw [decide_eq_true ht]
        exact ht
      · rw [decide_eq_false ht]
        trivial

end Exec

/-! ### Whole runs -/

section Run
variable {lib : Hashing} {env : AuthEnv} {op : SiteRequest} {start : Users} {tr : SiteLog}
  {s : Site} {i : ℕ}

theorem holdsOn_error (c : SiteCmd) (e : Err) : HoldsOn s ⟨c, .error e⟩ := by
  rcases c with c | c <;> cases c <;> trivial

theorem WellKept.own (h : WellKept start tr s) : ∀ a ∈ own i tr, HoldsOn s a :=
  fun _ ha => h.answers _ (mem_own.mp ha)

theorem WellKept.entitled (h : WellKept start tr s) {user : AuthUser}
    (hu : Entitled (System.own i tr) user) : s.accounts.users.Verified user.id user.role :=
  hu.verified h.own h.sent

/-- The account that a state was signed for is verified. -/
theorem WellKept.presented (h : WellKept start tr s) {t : Token}
    (ht : Presented (System.own i tr) t) : s.accounts.users.Vouches t :=
  h.sent t (h.own _ ht.signed)

theorem WellKept.earned (h : WellKept start tr s) {t : Token}
    (ht : t.Earned op (System.own i tr)) : s.accounts.users.Vouches t := by
  cases t with
  | access t => exact h.entitled ht
  | refresh t =>
    obtain ⟨-, user, hu, hid⟩ := ht
    exact ⟨_, hid ▸ h.entitled hu⟩
  | linkState state =>
    obtain ⟨t, asked, -, ht, hid, -⟩ := ht
    have hverified : s.accounts.users.Verified t.user.id t.user.role := h.presented ht
    rw [hid] at hverified
    exact ⟨_, hverified⟩

theorem WellKept.lost (h : WellKept start tr s) (c : SiteCmd) (e : Err) :
    WellKept start (tr ++ [(i, ⟨c, .error e⟩)]) s := by
  refine ⟨h.admins, h.linked, h.sent, h.sessions, fun a ha => ?_⟩
  rcases List.mem_append.mp ha with ha | ha
  · exact h.answers a ha
  · rw [List.mem_singleton.mp ha]
    exact holdsOn_error c e

/-- A linked account is verified, because the state of the link was signed for it. -/
theorem WellKept.linked_step (h : WellKept start tr s) {c : SiteCmd}
    (hc : SiteGround env op (System.own i tr) c) {u : User}
    (hu : u ∈ (Site.exec lib c s).2.accounts.users.table.rows) (hg : u.googleId.isSome = true) :
    u.emailVerified = true := by
  rcases exec_row hu with hold | ⟨d, rfl, rfl⟩ | ⟨d, v, hv, rfl, rfl⟩
  · exact h.linked u hold hg
  · obtain ⟨googleId, hd⟩ := Option.isSome_iff_exists.mp hg
    exact (hc googleId hd).1
  · refine (keeps_apply hc.1 v).2 ?_
    cases hd : d.googleId with
    | none =>
      refine h.linked v hv ?_
      simpa [UserData.apply, hd] using hg
    | some x =>
      obtain ⟨profile, state, -, -, hsub, hstate⟩ := hc.2.1 x hd
      obtain ⟨role, w, hw, hverified, -⟩ := h.presented hstate
      have hget : s.accounts.users.table.get v.id = some v := get_of_mem hv
      rw [hsub, hget] at hw
      cases hw
      exact hverified

theorem WellKept.exec (h : WellKept start tr s) {c : SiteCmd}
    (hc : SiteGround env op (System.own i tr) c) {r : Except Err (SiteReply c)}
    (hr : r = (Site.exec lib c s).1 ∨ ∃ e, r = .error e) :
    WellKept start (tr ++ [(i, ⟨c, r⟩)]) (Site.exec lib c s).2 := by
  have hgrows : s.accounts.users.GrowsTo (Site.exec lib c s).2.accounts.users := exec_grows hc
  obtain ⟨hsub, hsent⟩ := exec_sent lib s c
  refine ⟨fun u hu hrole => ?_, fun u hu hg => h.linked_step hc hu hg, fun t ht => ?_,
    fun id jti hjti => ?_, fun a ha => ?_⟩
  · rcases exec_row hu with hold | ⟨d, -, rfl⟩ | ⟨d, v, hv, -, rfl⟩
    · exact h.admins u hold hrole
    · cases hrole
    · exact h.admins v hv hrole
  · rcases hsent t ht with hold | rfl
    · exact (h.sent t hold).mono hgrows
    · exact (h.earned hc).mono hgrows
  · rcases exec_session hc hjti with hold | ⟨user, hu, rfl⟩
    · exact (h.sessions id jti hold).imp fun role hrole => hrole.mono hgrows
    · exact ⟨user.role, (h.entitled hu).mono hgrows⟩
  · rcases List.mem_append.mp ha with ha | ha
    · exact (h.answers a ha).mono hgrows hsub
    · rw [List.mem_singleton.mp ha]
      rcases hr with rfl | ⟨e, rfl⟩
      · exact exec_answer h.linked
      · exact holdsOn_error c e

/-- A site that has just been set up: nobody is signed in. -/
structure Site.Fresh (s : Site) : Prop where
  sent : s.sent = []
  sessions : ∀ id jti, s.accounts.keys (.refresh id jti) = none
  linked : ∀ u ∈ s.accounts.users.table.rows, u.googleId.isSome = true → u.emailVerified = true

variable {xs : List (Choice Err SiteRequest ℕ)}
  {q : Pool SiteCmd SiteReply Err Site SiteRequest SiteResponse}

theorem wellKept_run (hs : s.Fresh) (hx : (siteSystem lib env).schedule xs ⟨s, []⟩ = some q) :
    WellKept s.accounts.users ((siteSystem lib env).trace xs ⟨s, []⟩) q.state := by
  refine history_rule (I := fun _ tr _ t => WellKept s.accounts.users tr t) ?_ ?_ ?_ ?_ ?_ hx
  · refine ⟨fun u hu hrole => ⟨u, get_of_mem hu, hrole⟩, hs.linked, fun t ht => ?_,
      fun id jti hjti => ?_, List.forall_mem_nil _⟩
    · rw [hs.sent] at ht
      cases ht
    · exact absurd (hs.sessions id jti) hjti
  · exact fun ops tr done t op h => h
  · exact fun ops tr done t ms h => ⟨h.admins, h.linked, h.sent, h.sessions, h.answers⟩
  · exact fun ops tr done t i op c k e hi hpath h => h.lost c e
  · exact fun ops tr done t i op c k r hi hpath hr h =>
      h.exec (op.handle_ground.path hpath) hr

end Run

/-! ### A run -/

/-- One administrator. -/
def oneAdmin : Users where
  table := Table.empty.insert (fun id => ⟨id, "Grace", "grace@example.com",
    some "$argon2id$Secret123", true, none, .admin⟩) fun _ => rfl
  email_key := (uniqueOn_empty _).insert _ (by rintro ⟨u, hu, -⟩; cases hu)
  googleId_key := (uniqueOn_empty _).insert _ (by rintro ⟨u, hu, -⟩; cases hu)

def newSite : Site := ⟨{ Accounts.initial 0 fun _ => 0 with users := oneAdmin }, []⟩

/-- Grace logs in while Ada signs up; both try a route of the administrators. -/
def graceAndAda : List (Choice Err SiteRequest ℕ) :=
  [.spawn (.login "grace@example.com" "Secret123"),
    .spawn (.register ⟨"Ada", "ada@example.com", "Secret123"⟩)] ++ solo 0 4 ++ solo 1 9 ++
    solo 0 5 ++
    [.spawn (.adminRoute (some ⟨⟨1, "Grace", "grace@example.com", .admin⟩, 0, 0⟩)),
      .spawn (.verifyOtp "ada@example.com" "100000")] ++ solo 3 14 ++ solo 2 3 ++
    [.spawn (.adminRoute (some ⟨⟨2, "Ada", "ada@example.com", .user⟩, 0, 0⟩))] ++ solo 4 3

theorem newSite_fresh : newSite.Fresh where
  sent := rfl
  sessions _ _ := rfl
  linked u hu hg := by
    obtain rfl : u = ⟨1, "Grace", "grace@example.com", some "$argon2id$Secret123", true, none,
        .admin⟩ := List.mem_singleton.mp hu
    rfl

/-- Whoever holds a token or a session has proven the e-mail of the account. -/
structure OnlyVerified (s : Site) : Prop where
  tokens : ∀ t ∈ s.sent, ∃ u, s.accounts.users.table.get t.sub = some u ∧ u.emailVerified = true
  sessions : ∀ id jti, s.accounts.keys.Holds s.accounts.now id jti →
    ∃ u, s.accounts.users.table.get id = some u ∧ u.emailVerified = true
  linked : ∀ u ∈ s.accounts.users.table.rows, ∀ googleId, u.googleId = some googleId →
    u.emailVerified = true

/-- **Nobody is signed in without a verified e-mail**: not with a password, not by Google and
not by a linked account, whatever requests are served side by side with whatever tokens. -/
theorem only_verified (lib : Hashing) (env : AuthEnv) {s : Site} (hs : s.Fresh)
    {xs : List (Choice Err SiteRequest ℕ)}
    {q : Pool SiteCmd SiteReply Err Site SiteRequest SiteResponse}
    (hx : (siteSystem lib env).schedule xs ⟨s, []⟩ = some q) : OnlyVerified q.state where
  tokens t ht := by
    obtain ⟨role, u, hu, hverified, -⟩ := ((wellKept_run hs hx).sent t ht).verified
    exact ⟨u, hu, hverified⟩
  sessions id jti hholds := by
    have hkey : jti ∈ q.state.accounts.keys.tokens id := by
      intro hnone
      simp [Keyspace.Holds, Keyspace.live, hnone] at hholds
    obtain ⟨role, u, hu, hverified, -⟩ := (wellKept_run hs hx).sessions id jti hkey
    exact ⟨u, hu, hverified⟩
  linked u hu googleId hg := (wellKept_run hs hx).linked u hu (by rw [hg]; rfl)

/-- Both are signed in, and have a verified e-mail. -/
theorem graceAndAda_verified :
    ∃ q, (siteSystem plainText ⟨300, 5, 60⟩).schedule graceAndAda ⟨newSite, []⟩ = some q ∧
      q.state.sent.length = 4 ∧ OnlyVerified q.state := by
  have hrun : ((siteSystem plainText ⟨300, 5, 60⟩).schedule graceAndAda ⟨newSite, []⟩).any
      fun q => q.state.sent.length = 4 := by decide +kernel
  obtain ⟨q, hq, hsent⟩ := (Option.any_eq_true _ _).mp hrun
  exact ⟨q, hq, of_decide_eq_true hsent, only_verified plainText ⟨300, 5, 60⟩ newSite_fresh hq⟩

/-! ### Administrators -/

/-- Whoever goes on to a handler for administrators has presented a token with the role. -/
theorem adminRoute_admits {l : SiteTrail} (cookie : Option AccessToken) :
    Yields (Knows fun l a => ∃ t, Presented l (.access t) ∧ a = .user t.user ∧
      t.user.role = .admin) l (adminRoute cookie) := by
  refine (jwtGuard_presents cookie).bind (fun l e _ v hv => by cases hv) fun user l huser => ?_
  obtain ⟨t, -, ht, rfl⟩ := huser user rfl
  cases hrole : t.user.role with
  | user =>
    have hrefused : RolesGuard.canActivate [.admin] (some t.user) =
        .error (.forbidden "Insufficient role") := by simp [RolesGuard.canActivate, hrole]
    rw [hrefused]
    intro v hv
    cases hv
  | admin =>
    have hlet : RolesGuard.canActivate [.admin] (some t.user) = .ok () := by
      simp [RolesGuard.canActivate, hrole]
    rw [hlet]
    intro v hv
    cases hv
    exact ⟨t, ht, rfl, hrole⟩

/-- Nobody becomes an administrator. -/
structure NoNewAdmins (start : Users)
    (q : Pool SiteCmd SiteReply Err Site SiteRequest SiteResponse) : Prop where
  rows : ∀ u ∈ q.state.accounts.users.table.rows, u.role = .admin →
    ∃ v, start.table.get u.id = some v ∧ v.role = .admin
  admitted : ∀ (i : ℕ) (cookie : Option AccessToken) (user : AuthUser),
    q.procs[i]? = some (.adminRoute cookie, .done (.ok (.user user))) →
      ∃ v, start.table.get user.id = some v ∧ v.role = .admin

/-- **No request makes an administrator**: whoever is let through to a route of the
administrators has been one from the start. -/
theorem no_new_admins (lib : Hashing) (env : AuthEnv) {s : Site} (hs : s.Fresh)
    {xs : List (Choice Err SiteRequest ℕ)}
    {q : Pool SiteCmd SiteReply Err Site SiteRequest SiteResponse}
    (hx : (siteSystem lib env).schedule xs ⟨s, []⟩ = some q) :
    NoNewAdmins s.accounts.users q where
  rows := (wellKept_run hs hx).admins
  admitted i cookie user hi := by
    have h := wellKept_run hs hx
    have hpath := (onPath hx).follows i _ _ hi
    obtain ⟨t, ht, huser, hrole⟩ := (adminRoute_admits (l := []) cookie).path hpath _ rfl
    cases huser
    rw [List.nil_append] at ht
    obtain ⟨u, hu, -, hsame⟩ := h.presented ht
    have hid : u.id = t.user.id := id_of_get hu
    have hadmin := h.admins u (mem_of_get hu) (hsame.trans hrole)
    rwa [hid] at hadmin

/-- Grace is let in, and Ada is not. -/
theorem graceAndAda_admins :
    ∃ q, (siteSystem plainText ⟨300, 5, 60⟩).schedule graceAndAda ⟨newSite, []⟩ = some q ∧
      (q.procs[2]?.bind fun x => x.2.result) =
        some (.ok (.user ⟨1, "Grace", "grace@example.com", .admin⟩)) ∧
      (q.procs[4]?.bind fun x => x.2.result) = some (.error (.forbidden "Insufficient role")) ∧
      NoNewAdmins newSite.accounts.users q := by
  have hrun : ((siteSystem plainText ⟨300, 5, 60⟩).schedule graceAndAda ⟨newSite, []⟩).any
      fun q => (q.procs[2]?.bind fun x => x.2.result) =
          some (.ok (.user ⟨1, "Grace", "grace@example.com", .admin⟩)) ∧
        (q.procs[4]?.bind fun x => x.2.result) =
          some (.error (.forbidden "Insufficient role")) := by decide +kernel
  obtain ⟨q, hq, hends⟩ := (Option.any_eq_true _ _).mp hrun
  obtain ⟨hgrace, hada⟩ := of_decide_eq_true hends
  exact ⟨q, hq, hgrace, hada, no_new_admins plainText ⟨300, 5, 60⟩ newSite_fresh hq⟩

end MovieReservation
