import MovieReservation.Properties.VerifiedEmails

/-! Google sign-in never takes over an account: the Google id of a user was last written
by the sign-in that created the account or by a link for this user, whatever the order in
which requests are served and wherever they fail. -/

namespace MovieReservation

open Lib Lib.Prog Lib.Table Lib.System Accounts

/-! ### Writes of a Google id -/

/-- The command wrote the Google id of this user. -/
def writesGoogleId (id : ℕ) : Answer AuthCmd AuthCmd.Reply Err → Bool
  | ⟨.userCreate _, .ok u⟩ => u.id = id
  | ⟨.userUpdate i d, .ok _⟩ => decide (i = id) && d.googleId.isSome
  | _ => false

def lastGoogleWrite (id : ℕ) (done : AuthLog) : Option (ℕ × Answer AuthCmd AuthCmd.Reply Err) :=
  (done.filter fun x => writesGoogleId id x.2).getLast?

/-- The account was created by the sign-in with this Google id, or linked to it. -/
def Granted (ops : List AccountRequest) (id : ℕ) (googleId : String) :
    ℕ × Answer AuthCmd AuthCmd.Reply Err → Prop
  | (i, a) => (∃ p u, ops[i]? = some (.googleSignIn p) ∧ p.googleId = googleId ∧
      a = ⟨.userCreate p.data, .ok u⟩ ∧ u.id = id) ∨
    ∃ u, ops[i]? = some (.linkGoogle id googleId) ∧
      a = ⟨.userUpdate id { googleId := some (some googleId) }, .ok u⟩

/-- Every Google id is the one that was written last, and was granted. -/
def GoogleIdsGranted (ops : List AccountRequest) (done : AuthLog) (s : Accounts) : Prop :=
  ∀ u ∈ s.users.table.rows, ∀ googleId, u.googleId = some googleId →
    ∃ x, lastGoogleWrite u.id done = some x ∧ Granted ops u.id googleId x

section Writes
variable {lib : Hashing} {ops : List AccountRequest} {done : AuthLog} {s : Accounts} {id i : ℕ}
  {a : Answer AuthCmd AuthCmd.Reply Err} {googleId : String}

theorem lastGoogleWrite_keep (h : writesGoogleId id a = false) :
    lastGoogleWrite id (done ++ [(i, a)]) = lastGoogleWrite id done := by
  simp [lastGoogleWrite, List.filter_append, h]

theorem lastGoogleWrite_write (h : writesGoogleId id a = true) :
    lastGoogleWrite id (done ++ [(i, a)]) = some (i, a) := by
  simp [lastGoogleWrite, List.filter_append, h]

theorem writesGoogleId_of_leaves {c : AuthCmd} {r : Except Err c.Reply} (h : c.leavesUsers) :
    writesGoogleId id ⟨c, r⟩ = false := by
  cases c with
  | userCreate d => exact h.elim
  | userUpdate i d => exact h.elim
  | _ => rfl

theorem Granted.spawn {x : ℕ × Answer AuthCmd AuthCmd.Reply Err} (h : Granted ops id googleId x)
    (op : AccountRequest) : Granted (ops ++ [op]) id googleId x := by
  have hget : ∀ {i : ℕ} {op' : AccountRequest}, ops[i]? = some op' →
      (ops ++ [op])[i]? = some op' := fun hi =>
    (List.getElem?_append_left (List.getElem?_eq_some_iff.mp hi).1).trans hi
  obtain ⟨i, a⟩ := x
  rcases h with ⟨p, u, hi, h⟩ | ⟨u, hi, h⟩
  · exact .inl ⟨p, u, hget hi, h⟩
  · exact .inr ⟨u, hget hi, h⟩

theorem GoogleIdsGranted.spawn (h : GoogleIdsGranted ops done s) (op : AccountRequest) :
    GoogleIdsGranted (ops ++ [op]) done s := by
  intro u hu g hg
  obtain ⟨x, hlast, hx⟩ := h u hu g hg
  exact ⟨x, hlast, hx.spawn op⟩

/-- Nothing was written to the users. -/
theorem GoogleIdsGranted.keep (h : GoogleIdsGranted ops done s) {s' : Accounts}
    (hs : s'.users = s.users) (ha : ∀ id, writesGoogleId id a = false) :
    GoogleIdsGranted ops (done ++ [(i, a)]) s' := by
  intro u hu g hg
  rw [hs] at hu
  rw [lastGoogleWrite_keep (ha u.id)]
  exact h u hu g hg

/-- A new user has a Google id only from the sign-in that created the account. -/
theorem GoogleIdsGranted.create (h : GoogleIdsGranted ops done s) {op : AccountRequest}
    {d : UserCreate} (hi : ops[i]? = some op) (hw : op.Writes (.userCreate d)) :
    GoogleIdsGranted ops (done ++ [(i, ⟨.userCreate d, (exec lib (.userCreate d) s).1⟩)])
      (exec lib (.userCreate d) s).2 := by
  have hexec : exec lib (.userCreate d) s = s.commit (s.users.create d) := rfl
  rw [hexec]
  cases hres : s.users.create d with
  | error e => exact h.keep rfl fun _ => rfl
  | ok out =>
    obtain ⟨new, us⟩ := out
    obtain ⟨hnew, ht⟩ := Users.create_eq_ok hres
    intro u hu g hg
    change u ∈ us.table.rows at hu
    rw [ht, rows_insert, List.mem_append, List.mem_singleton] at hu
    rcases hu with hu | rfl
    · have hother : new.id ≠ u.id := by
        rw [hnew]
        exact (Nat.ne_of_lt (lt_serial_of_get (get_of_mem hu))).symm
      rw [lastGoogleWrite_keep (by simpa [commit, writesGoogleId] using hother)]
      exact h u hu g hg
    · refine ⟨_, lastGoogleWrite_write (by simp [commit, writesGoogleId, hnew]), .inl ?_⟩
      cases hw with
      | register dto hash => cases hg
      | googleSignIn p =>
        cases hg
        exact ⟨p, new, hi, rfl, rfl, by rw [hnew]⟩

/-- An update writes a Google id only for a link of this user. -/
theorem GoogleIdsGranted.update (h : GoogleIdsGranted ops done s) {op : AccountRequest}
    {d : UserData} (hi : ops[i]? = some op) (hw : op.Writes (.userUpdate id d)) :
    GoogleIdsGranted ops (done ++ [(i, ⟨.userUpdate id d, (exec lib (.userUpdate id d) s).1⟩)])
      (exec lib (.userUpdate id d) s).2 := by
  have hexec : exec lib (.userUpdate id d) s = s.commit (s.users.update id d) := rfl
  rw [hexec]
  cases hres : s.users.update id d with
  | error e => exact h.keep rfl fun _ => rfl
  | ok out =>
    obtain ⟨new, us⟩ := out
    obtain ⟨-, -, -, ht⟩ := Users.update_eq_ok hres
    intro u hu g hg
    change u ∈ us.table.rows at hu
    rw [ht, mem_modify] at hu
    rcases hu with ⟨hu, hid⟩ | ⟨w, hw', hid, rfl⟩
    · change u.id ≠ id at hid
      rw [lastGoogleWrite_keep (by simp [commit, writesGoogleId, hid.symm])]
      exact h u hu g hg
    · change w.id = id at hid
      subst hid
      cases hd : d.googleId with
      | none =>
        have hg : w.googleId = some g := by simpa [UserData.apply, hd] using hg
        rw [lastGoogleWrite_keep (by simp [commit, writesGoogleId, hd])]
        exact h w hw' g hg
      | some x =>
        refine ⟨_, lastGoogleWrite_write (by simp [commit, writesGoogleId, hd, UserData.apply]),
          .inr ?_⟩
        cases hw with
        | linkGoogle _ googleId =>
          cases hg
          exact ⟨new, hi, rfl⟩
        | _ => cases hd

theorem GoogleIdsGranted.step (h : GoogleIdsGranted ops done s) {op : AccountRequest}
    {c : AuthCmd} (hi : ops[i]? = some op) (hw : c.leavesUsers ∨ op.Writes c) :
    GoogleIdsGranted ops (done ++ [(i, ⟨c, (exec lib c s).1⟩)]) (exec lib c s).2 := by
  by_cases hc : c.leavesUsers
  · exact h.keep (exec_users hc) fun _ => writesGoogleId_of_leaves hc
  · have hw := hw.resolve_left hc
    cases c with
    | userCreate d => exact h.create hi hw
    | userUpdate id d => exact h.update hi hw
    | _ => exact absurd trivial hc

end Writes

theorem googleIds_granted (lib : Hashing) (env : AuthEnv) {s : Accounts}
    {xs : List (Choice Err AccountRequest ℕ)}
    {q : Pool AuthCmd AuthCmd.Reply Err Accounts AccountRequest Unit}
    (hs : ∀ u ∈ s.users.table.rows, u.googleId = none)
    (hx : (accountSystem lib env).schedule xs ⟨s, []⟩ = some q) :
    GoogleIdsGranted (q.procs.map Prod.fst) ((accountSystem lib env).effects xs ⟨s, []⟩)
      q.state := by
  refine history_rule (I := fun ops _ done t => GoogleIdsGranted ops done t) ?_ ?_ ?_ ?_ ?_ hx
  · intro u hu g hg
    rw [hs u hu] at hg
    cases hg
  · intro ops tr done t op h
    exact h.spawn op
  · intro ops tr done t ms h
    exact h
  · intro ops tr done t i op c k e hi hpath h
    exact h
  · intro ops tr done t i op c k r hi hpath hr h
    exact h.step hi (hpath.only_rest op.handle_onlyWrites).1

/-! ### Sign-in with Google -/

section SignIn
variable {lib : Hashing} {s : Accounts} {p : GoogleProfile}

theorem perform_googleLookup (googleId : String) :
    perform lib (AuthRepository.findByGoogleId googleId) s =
      (.ok (s.users.findByGoogleId googleId), s) := rfl

/-- Whoever has the Google id is signed in. -/
theorem resolveGoogleUser_known {u : User} (h : s.users.findByGoogleId p.googleId = some u) :
    perform lib (AuthService.resolveGoogleUser p) s = (.ok u.toAuthUser, s) := by
  rw [AuthService.resolveGoogleUser, perform_bind, perform_googleLookup, h]
  rfl

def ownedEmail : Err := .conflict ("An account with this email already exists. " ++
  "Log in with your password and link Google in settings.")

theorem resolveGoogleUser_blocked (h : s.users.findByGoogleId p.googleId = none)
    (he : (s.users.findByEmail p.email).isSome) :
    perform lib (AuthService.resolveGoogleUser p) s = (.error ownedEmail, s) := by
  have hread : perform lib (AuthRepository.findByEmail p.email) s =
      (.ok (s.users.findByEmail p.email), s) := rfl
  rw [AuthService.resolveGoogleUser, perform_bind, perform_googleLookup, h]
  simp only [perform_bind, hread, he, if_true]
  rfl

/-- A user that was not there before is created with a new id. -/
theorem resolveGoogleUser_new (h : s.users.findByGoogleId p.googleId = none) {a : AuthUser}
    {s' : Accounts} (hrun : perform lib (AuthService.resolveGoogleUser p) s = (.ok a, s')) :
    a.id = s.users.table.serial := by
  cases he : (s.users.findByEmail p.email).isSome with
  | true =>
    rw [resolveGoogleUser_blocked h he] at hrun
    cases hrun
  | false =>
    have hread : perform lib (AuthRepository.findByEmail p.email) s =
        (.ok (s.users.findByEmail p.email), s) := rfl
    have hcreate : perform lib (AuthRepository.createGoogleUser p.name p.email p.googleId) s =
        s.commit (s.users.create p.data) := rfl
    rw [AuthService.resolveGoogleUser, perform_bind, perform_googleLookup, h] at hrun
    simp only [perform_bind, hread, he, Bool.false_eq_true, if_false, hcreate] at hrun
    cases hres : s.users.create p.data with
    | error e =>
      rw [hres] at hrun
      cases hrun
    | ok out =>
      obtain ⟨u, us⟩ := out
      rw [hres] at hrun
      cases hrun
      rw [(Users.create_eq_ok hres).1]
      rfl

end SignIn

/-- What sign-in with Google guarantees in a state that such requests have led to. -/
structure SignInSafe (lib : Hashing) (ops : List AccountRequest) (done : AuthLog)
    (s : Accounts) : Prop where
  /-- Only a user whom the Google id was granted, by the last write, is signed in. -/
  existing : ∀ p a s', perform lib (AuthService.resolveGoogleUser p) s = (.ok a, s') →
    ∀ u ∈ s.users.table.rows, a.id = u.id → s' = s ∧ a = u.toAuthUser ∧
      u.googleId = some p.googleId ∧
        ∃ x, lastGoogleWrite u.id done = some x ∧ Granted ops u.id p.googleId x
  unique : ∀ u ∈ s.users.table.rows, ∀ v ∈ s.users.table.rows, ∀ googleId,
    u.googleId = some googleId → v.googleId = some googleId → u = v
  blocked : ∀ p, (∀ u ∈ s.users.table.rows, u.googleId ≠ some p.googleId) →
    (∃ u ∈ s.users.table.rows, u.email = p.email) →
      perform lib (AuthService.resolveGoogleUser p) s = (.error ownedEmail, s)

theorem signIn_safe (lib : Hashing) (env : AuthEnv) {s : Accounts}
    {xs : List (Choice Err AccountRequest ℕ)}
    {q : Pool AuthCmd AuthCmd.Reply Err Accounts AccountRequest Unit}
    (hs : ∀ u ∈ s.users.table.rows, u.googleId = none)
    (hx : (accountSystem lib env).schedule xs ⟨s, []⟩ = some q) :
    SignInSafe lib (q.procs.map Prod.fst) ((accountSystem lib env).effects xs ⟨s, []⟩) q.state where
  existing := by
    intro p a s' hrun u hu hid
    cases hfind : q.state.users.findByGoogleId p.googleId with
    | none =>
      have hnew := resolveGoogleUser_new hfind hrun
      have hlt := lt_serial_of_get (get_of_mem hu)
      change u.id < _ at hlt
      omega
    | some v =>
      rw [resolveGoogleUser_known hfind] at hrun
      cases hrun
      have hv := List.mem_of_find?_eq_some hfind
      have hg : v.googleId = some p.googleId := by simpa using List.find?_some hfind
      obtain rfl : v = u := eq_of_id hv hu hid
      exact ⟨rfl, rfl, hg, googleIds_granted lib env hs hx v hv p.googleId hg⟩
  unique := by
    intro u hu v hv googleId hgu hgv
    exact q.state.users.googleId_key.eq hu hv hgu hgv
  blocked := by
    intro p hunknown ⟨u, hu, hemail⟩
    refine resolveGoogleUser_blocked ?_ ?_
    · exact List.find?_eq_none.mpr fun v hv => by simpa using hunknown v hv
    · rw [← hemail, Users.findByEmail_of_mem hu]
      rfl

/-- Ada signs up with a password and links Google; Grace's account is created by Google, and
then somebody tries to sign in with a new Google id and Ada's e-mail. -/
def googleSignUps : List (Choice Err AccountRequest ℕ) :=
  [.spawn (.register ⟨"Ada", "ada@example.com", "password1"⟩)] ++ solo 0 8 ++
    [.spawn (.googleSignIn ⟨"grace@example.com", "Grace", "117"⟩),
      .spawn (.linkGoogle 1 "42")] ++ solo 1 2 ++ solo 2 2 ++ solo 1 6 ++
    [.spawn (.googleSignIn ⟨"ada@example.com", "Mallory", "666"⟩)] ++ solo 3 2

theorem signIn_safe_of_signUps :
    ∃ q, (accountSystem plainText ⟨300, 5, 60⟩).schedule googleSignUps
        ⟨Accounts.initial 0 fun _ => 0, []⟩ = some q ∧
      q.state.users.table.rows.map User.googleId = [some "42", some "117"] ∧
      SignInSafe plainText (q.procs.map Prod.fst)
        ((accountSystem plainText ⟨300, 5, 60⟩).effects googleSignUps
          ⟨Accounts.initial 0 fun _ => 0, []⟩) q.state := by
  have hrun : ((accountSystem plainText ⟨300, 5, 60⟩).schedule googleSignUps
      ⟨Accounts.initial 0 fun _ => 0, []⟩).any fun q =>
        q.state.users.table.rows.map User.googleId = [some "42", some "117"] := by decide +kernel
  obtain ⟨q, hq, hids⟩ := (Option.any_eq_true _ _).mp hrun
  refine ⟨q, hq, of_decide_eq_true hids, signIn_safe plainText ⟨300, 5, 60⟩ ?_ hq⟩
  intro u hu
  cases hu

end MovieReservation
