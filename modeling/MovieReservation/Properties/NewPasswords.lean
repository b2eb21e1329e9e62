import MovieReservation.Properties.GoogleLinks

/-! The digest of an account's password is put in the place of another on one route only. The
request brings an access token of the account's user and the password that is stored, next to
the one that is to replace it. -/

namespace MovieReservation

open Lib Lib.Prog Lib.Table Lib.System

/-- The user of the account has sent, with an access token, the password that was found in
the account, and one whose digest `hash` is. -/
def ChangeAsked (lib : Hashing) (ops : List SiteRequest) (tr : SiteLog) (i id : ℕ)
    (hash : String) : Prop :=
  ∃ token current new salt, ∃ (user : User) (digest : String),
    ops[i]? = some (.changePassword (some token) current new) ∧ token.user.id = id ∧
      Presented (own i tr) (.access token) ∧
        ⟨.inl (.userFindById id), .ok (some user)⟩ ∈ own i tr ∧ user.password = some digest ∧
          lib.bcryptCompare current digest = .ok true ∧ hash = lib.bcryptHash salt new

/-- The password that a command stores in the place of another is one that was asked for. -/
def PasswordWanted (lib : Hashing) (ops : List SiteRequest) (tr : SiteLog) (i : ℕ) :
    SiteCmd → Prop
  | .inl (.userUpdate id d) => ∀ password, d.password = some password →
    ∃ hash, password = some hash ∧ ChangeAsked lib ops tr i id hash
  | _ => True

/-- The comparisons and the digests of a run are those of the libraries. -/
structure Hashed (lib : Hashing) (ops : List SiteRequest) (tr done : SiteLog) : Prop where
  compared : ∀ i password digest b,
    (i, ⟨.inl (.bcryptCompare password digest), .ok b⟩) ∈ tr →
      lib.bcryptCompare password digest = .ok b
  hashed : ∀ i password rounds hash,
    (i, ⟨.inl (.bcryptHash password rounds), .ok hash⟩) ∈ tr →
      ∃ salt, hash = lib.bcryptHash salt password
  changes : ∀ x ∈ done, PasswordWanted lib ops tr x.1 x.2.1

section Run
variable {lib : Hashing} {env : AuthEnv} {ops : List SiteRequest} {tr done : SiteLog} {s : Site}
  {i id : ℕ} {hash : String} {c : SiteCmd}

theorem ChangeAsked.spawn (h : ChangeAsked lib ops tr i id hash) (op : SiteRequest) :
    ChangeAsked lib (ops ++ [op]) tr i id hash := by
  obtain ⟨token, current, new, salt, user, digest, hi, h⟩ := h
  exact ⟨token, current, new, salt, user, digest, spawned_get hi, h⟩

theorem ChangeAsked.append (h : ChangeAsked lib ops tr i id hash) (tr' : SiteLog) :
    ChangeAsked lib ops (tr ++ tr') i id hash := by
  obtain ⟨token, current, new, salt, user, digest, hi, hid, ht, hfound, h⟩ := h
  rw [ChangeAsked, own_append]
  exact ⟨token, current, new, salt, user, digest, hi, hid, ht.append _,
    List.mem_append_left _ hfound, h⟩

theorem PasswordWanted.mono {ops' : List SiteRequest} {tr' : SiteLog}
    (hmono : ∀ id hash, ChangeAsked lib ops tr i id hash → ChangeAsked lib ops' tr' i id hash)
    (h : PasswordWanted lib ops tr i c) : PasswordWanted lib ops' tr' i c := by
  rcases c with c | c
  · cases c with
    | userUpdate id d =>
      intro password hp
      obtain ⟨hash, hhash, hasked⟩ := h password hp
      exact ⟨hash, hhash, hmono id hash hasked⟩
    | _ => trivial
  · trivial

theorem Hashed.spawn (h : Hashed lib ops tr done) (op : SiteRequest) :
    Hashed lib (ops ++ [op]) tr done where
  compared := h.compared
  hashed := h.hashed
  changes x hx := (h.changes x hx).mono fun _ _ ha => ha.spawn op

theorem Hashed.lost (h : Hashed lib ops tr done) (c : SiteCmd) (e : Err) :
    Hashed lib ops (tr ++ [(i, ⟨c, .error e⟩)]) done where
  compared j password digest b ha := by
    rcases List.mem_append.mp ha with ha | ha
    · exact h.compared j password digest b ha
    · cases List.mem_singleton.mp ha
  hashed j password rounds hash ha := by
    rcases List.mem_append.mp ha with ha | ha
    · exact h.hashed j password rounds hash ha
    · cases List.mem_singleton.mp ha
  changes x hx := (h.changes x hx).mono fun _ _ ha => ha.append _

theorem Hashed.wanted (h : Hashed lib ops tr done) {op : SiteRequest}
    (hi : ops[i]? = some op) (hc : SiteGround env op (own i tr) c) :
    PasswordWanted lib ops tr i c := by
  rcases c with c | c
  · cases c with
    | userUpdate id d =>
      intro password hp
      obtain ⟨hash, hhash, token, current, new, rfl, hid, ht, hnew, user, digest, hfound,
        hpassword, hmatch⟩ := hc.2.2 password hp
      obtain ⟨salt, hsalt⟩ := h.hashed i new 10 hash (mem_own.mp hnew)
      have hcompare : lib.bcryptCompare current digest = .ok true :=
        h.compared i current digest true (mem_own.mp hmatch)
      exact ⟨hash, hhash, token, current, new, salt, user, digest, hi, hid, ht, hfound,
        hpassword, hcompare, hsalt⟩
    | _ => trivial
  · trivial

theorem Hashed.exec (h : Hashed lib ops tr done) {op : SiteRequest} (hi : ops[i]? = some op)
    (hc : SiteGround env op (own i tr) c) {r : Except Err (SiteReply c)}
    (hr : r = (Site.exec lib c s).1 ∨ ∃ e, r = .error e) :
    Hashed lib ops (tr ++ [(i, ⟨c, r⟩)]) (done ++ [(i, ⟨c, (Site.exec lib c s).1⟩)]) where
  compared j password digest b ha := by
    rcases told_result (fun c => (Site.exec lib c s).1) hr ha with hold | hnew
    · exact h.compared j password digest b hold
    · exact hnew
  hashed j password rounds hash ha := by
    rcases told_result (fun c => (Site.exec lib c s).1) hr ha with hold | hnew
    · exact h.hashed j password rounds hash hold
    · exact ⟨_, (Except.ok.inj hnew).symm⟩
  changes x hx := by
    rcases List.mem_append.mp hx with hx | hx
    · exact (h.changes x hx).mono fun _ _ ha => ha.append _
    · rw [List.mem_singleton.mp hx]
      exact (h.wanted hi hc).mono fun _ _ ha => ha.append _

end Run

/-- **Nobody's password is changed by anyone who does not know it**: whatever requests are
served side by side, with whatever tokens, each password that takes the place of another is one
that the account's user has sent, together with an access token and the password that was
stored. -/
theorem passwords_wanted (lib : Hashing) (env : AuthEnv) {s : Site}
    {xs : List (Choice Err SiteRequest ℕ)}
    {q : Pool SiteCmd SiteReply Err Site SiteRequest SiteResponse}
    (hx : (siteSystem lib env).schedule xs ⟨s, []⟩ = some q) :
    ∀ i c r, (i, ⟨c, r⟩) ∈ (siteSystem lib env).effects xs ⟨s, []⟩ →
      PasswordWanted lib (q.procs.map Prod.fst) ((siteSystem lib env).trace xs ⟨s, []⟩) i c := by
  have h : Hashed lib (q.procs.map Prod.fst) ((siteSystem lib env).trace xs ⟨s, []⟩)
      ((siteSystem lib env).effects xs ⟨s, []⟩) := by
    refine history_rule (I := fun ops tr done _ => Hashed lib ops tr done) ?_ ?_ ?_ ?_ ?_ hx
    · exact ⟨fun _ _ _ _ ha => absurd ha List.not_mem_nil,
        fun _ _ _ _ ha => absurd ha List.not_mem_nil, List.forall_mem_nil _⟩
    · exact fun ops tr done t op h => h.spawn op
    · exact fun ops tr done t ms h => h
    · exact fun ops tr done t i op c k e hi hpath h => h.lost c e
    · exact fun ops tr done t i op c k r hi hpath hr h =>
        h.exec hi (op.handle_ground.path hpath) hr
  exact fun i c r hmem => h.changes _ hmem

/-- One user, who is known to Google and whose password is a digest of `bcrypt`. -/
def oneMember : Users where
  table := Table.empty.insert (fun id => ⟨id, "Grace", "grace@example.com",
    some "$2b$10$Secret123", true, some "grace-1", .user⟩) fun _ => rfl
  email_key := (uniqueOn_empty _).insert _ (by rintro ⟨u, hu, -⟩; cases hu)
  googleId_key := (uniqueOn_empty _).insert _ (by rintro ⟨u, hu, -⟩; cases hu)

def memberSite : Site := ⟨{ Accounts.initial 0 fun _ => 0 with users := oneMember }, []⟩

/-- Grace signs in with Google, gets her password wrong once, and then changes it. -/
def graceChanges : List (Choice Err SiteRequest ℕ) :=
  [.spawn (.googleCallback ⟨"grace-1", "Grace", ["grace@example.com"]⟩)] ++ solo 0 8 ++
    [.spawn (.changePassword (some ⟨⟨1, "Grace", "grace@example.com", .user⟩, 0, 0⟩)
      "Secret132" "Secret456")] ++ solo 1 5 ++
    [.spawn (.changePassword (some ⟨⟨1, "Grace", "grace@example.com", .user⟩, 0, 0⟩)
      "Secret123" "Secret456")] ++ solo 2 18

/-- The new one is stored. -/
theorem graceChanges_wanted :
    ∃ q, (siteSystem plainText ⟨300, 5, 60⟩).schedule graceChanges ⟨memberSite, []⟩ = some q ∧
      q.state.accounts.users.table.rows.map User.password = [some "$2b$10$Secret456"] ∧
      ∀ i c r,
        (i, ⟨c, r⟩) ∈ (siteSystem plainText ⟨300, 5, 60⟩).effects graceChanges ⟨memberSite, []⟩ →
          PasswordWanted plainText (q.procs.map Prod.fst)
            ((siteSystem plainText ⟨300, 5, 60⟩).trace graceChanges ⟨memberSite, []⟩) i c := by
  have hrun : ((siteSystem plainText ⟨300, 5, 60⟩).schedule graceChanges ⟨memberSite, []⟩).any
      fun q => q.state.accounts.users.table.rows.map User.password = [some "$2b$10$Secret456"] := by
    decide +kernel
  obtain ⟨q, hq, hstored⟩ := (Option.any_eq_true _ _).mp hrun
  exact ⟨q, hq, of_decide_eq_true hstored, passwords_wanted plainText ⟨300, 5, 60⟩ hq⟩

end MovieReservation
