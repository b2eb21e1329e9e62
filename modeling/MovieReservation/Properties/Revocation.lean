import MovieReservation.Accounts.Sessions
import MovieReservation.Lib.Trace
import MovieReservation.Properties.AccessTokens

/-! One change of the password while other sessions of the user rotate their refresh
tokens. The change reads which tokens there are and deletes them with a second command: it
revokes every other session as long as no rotation succeeds between the two. -/

namespace MovieReservation

open Lib Lib.Prog Lib.System Accounts

/-! ### The system -/

inductive SessionOp where
  | changePassword (currentPassword newPassword : String)
  | refresh (jti : ℕ)
  deriving DecidableEq

def SessionOp.changes : SessionOp → Bool
  | changePassword _ _ => true
  | refresh _ => false

def SessionOp.handle (userId : ℕ) : SessionOp → AuthM (AccessToken × RefreshToken)
  | changePassword current new => UsersService.changePassword userId current new
  | refresh jti => do
    let fresh ← AuthService.getAuthUser userId
    TokenService.rotateAuthCookies userId jti fresh

/-- Commands in any order, with time passing between them. -/
def sessionSystem (lib : Hashing) (userId : ℕ) :
    System AuthCmd AuthCmd.Reply Err Accounts SessionOp ℕ (AccessToken × RefreshToken) where
  exec _ := exec lib
  ready _ _ _ := true
  fault _ _ := false
  env ms s := { s with now := s.now + ms }
  handler := SessionOp.handle userId

/-- `SMEMBERS` of the sessions. -/
def AuthCmd.readsSessions : AuthCmd → Bool
  | .get (.refreshSessions _) => true
  | _ => false

def AuthCmd.deletes : AuthCmd → Bool
  | .del _ => true
  | _ => false

/-- A rotation that succeeded. -/
def rotated : Answer AuthCmd AuthCmd.Reply Err → Bool
  | ⟨.rotateRefresh _ _ _ _ _, .ok b⟩ => b
  | _ => false

/-- Process `k` has read the sessions and not yet deleted them. -/
def Open (k : ℕ) (tr : AuthLog) : Prop :=
  (tr.any fun x => x.1 = k && x.2.1.readsSessions) = true ∧
    (tr.any fun x => x.1 = k && x.2.1.deletes) = false

instance (k : ℕ) : DecidablePred (Open k) := fun _ =>
  inferInstanceAs (Decidable (_ ∧ _))

def UndisturbedAfter (k : ℕ) (past : AuthLog) : AuthLog → Prop
  | [] => True
  | x :: tr => (rotated x.2 = true → ¬ Open k past) ∧ UndisturbedAfter k (past ++ [x]) tr

/-- No rotation succeeds while process `k` has read the sessions and not deleted them. -/
def Undisturbed (k : ℕ) (tr : AuthLog) : Prop := UndisturbedAfter k [] tr

instance decidableUndisturbedAfter (k : ℕ) :
    ∀ past tr, Decidable (UndisturbedAfter k past tr)
  | _, [] => inferInstanceAs (Decidable True)
  | past, x :: tr =>
    have : Decidable (UndisturbedAfter k (past ++ [x]) tr) :=
      decidableUndisturbedAfter k (past ++ [x]) tr
    inferInstanceAs (Decidable ((rotated x.2 = true → ¬ Open k past) ∧ _))

instance (k : ℕ) : DecidablePred (Undisturbed k) := fun tr =>
  decidableUndisturbedAfter k [] tr

theorem undisturbedAfter_snoc {k : ℕ} {past tr : AuthLog}
    {x : ℕ × Answer AuthCmd AuthCmd.Reply Err} : UndisturbedAfter k past (tr ++ [x]) ↔
      UndisturbedAfter k past tr ∧ (rotated x.2 = true → ¬ Open k (past ++ tr)) := by
  induction tr generalizing past with
  | nil => simp [UndisturbedAfter]
  | cons y tr ih => simp [UndisturbedAfter, ih, and_assoc]

theorem undisturbed_snoc {k : ℕ} {tr : AuthLog} {x : ℕ × Answer AuthCmd AuthCmd.Reply Err} :
    Undisturbed k (tr ++ [x]) ↔ Undisturbed k tr ∧ (rotated x.2 = true → ¬ Open k tr) :=
  undisturbedAfter_snoc

/-! ### What a process knows -/

/-- Only the change reads the sessions, deletes what it has read, and stores a token, in
this order; a rotation is of the token that was presented. -/
def SessionGround (u : ℕ) (op : SessionOp) (l : AuthTrail) : AuthCmd → Prop
  | .del keys => op.changes = true ∧
    (∃ jtis : Option (List ℕ), ⟨.get (.refreshSessions u), .ok jtis⟩ ∈ l ∧
      keys = (jtis.getD []).map (.refresh u) ++ [.refreshSessions u]) ∧
    ∀ v j seconds x, ⟨.storeRefresh v j seconds, x⟩ ∉ l
  | .storeRefresh _ _ _ => op.changes = true
  | .rotateRefresh v j _ _ _ => v = u ∧ op = .refresh j
  | c => c.leavesSessions = true

/-- The sessions were read, and deleted if there were any. -/
def Cleared (u : ℕ) (l : AuthTrail) : Prop :=
  ∃ jtis : Option (List ℕ), ⟨.get (.refreshSessions u), .ok jtis⟩ ∈ l ∧
    (jtis.getD [] = [] ∨ ∃ keys x, ⟨.del keys, x⟩ ∈ l)

/-- What the change of the password was answered in the end. -/
def Renewed (u : ℕ) (l : AuthTrail) : Except Err (AccessToken × RefreshToken) → Prop
  | .ok (_, refresh) => Cleared u l ∧
    ∀ v j seconds x, ⟨.storeRefresh v j seconds, x⟩ ∈ l → j = refresh.jti
  | .error _ => True

section Ground
variable {u : ℕ} {op : SessionOp} {l : AuthTrail}

theorem checkPassword_leavesSessions (userId : ℕ) (current : String) :
    Only (fun c => c.leavesSessions = true) (UsersService.checkPassword userId current) :=
  checkPassword_only (P := (·.leavesSessions = true)) rfl (fun _ _ => rfl) current

theorem ground_of_leaves {c : AuthCmd} (h : c.leavesSessions = true) : SessionGround u op l c := by
  cases c with
  | del keys => cases h
  | storeRefresh v j seconds => cases h
  | rotateRefresh v j v' j' seconds => cases h
  | _ => exact h

theorem getAuthUser_leavesSessions (userId : ℕ) :
    Only (fun c => c.leavesSessions = true) (AuthService.getAuthUser userId) :=
  getAuthUser_only (P := (·.leavesSessions = true)) rfl

theorem signRefresh_leavesSessions (userId : ℕ) :
    Only (fun c => c.leavesSessions = true) (TokenService.signRefresh userId) :=
  signRefresh_only (P := (·.leavesSessions = true)) rfl rfl userId

theorem signAccess_leavesSessions (user : AuthUser) :
    Only (fun c => c.leavesSessions = true) (TokenService.signAccess user) :=
  signAccess_only (P := (·.leavesSessions = true)) rfl rfl

theorem Only.ground {α : Type} {p : AuthM α} (h : Only (fun c => c.leavesSessions = true) p) :
    Informed (SessionGround u op) l p :=
  .of_only (h.mono fun _ hc _ => ground_of_leaves hc)

theorem revokeAllSessions_ground (hop : op.changes = true)
    (hnone : ∀ v j seconds x, ⟨.storeRefresh v j seconds, x⟩ ∉ l) :
    Informed (SessionGround u op) l (TokenService.revokeAllSessions u) := by
  unfold TokenService.revokeAllSessions
  refine informed_issue_bind rfl fun jtis => ?_
  split_ifs
  · refine ⟨⟨hop, ⟨jtis, ?_, rfl⟩, fun v j seconds x hmem => ?_⟩, fun _ => trivial⟩
    · exact List.mem_append_right _ (List.mem_singleton_self _)
    · rcases List.mem_append.mp hmem with hold | hnew
      · exact hnone v j seconds x hold
      · cases (Sigma.mk.inj (List.mem_singleton.mp hnew)).1
  · trivial

theorem not_mem_of_leaves (h : ∀ x ∈ l, x.1.leavesSessions = true) (v j seconds : ℕ)
    (x : Except Err Unit) : ⟨.storeRefresh v j seconds, x⟩ ∉ l := fun hmem => by
  cases h _ hmem

theorem SessionOp.handle_ground (u : ℕ) (op : SessionOp) :
    Informed (SessionGround u op) [] (op.handle u) := by
  cases op with
  | refresh jti =>
    refine Informed.bind (Only.ground (getAuthUser_leavesSessions u)) fun fresh _ => ?_
    refine Informed.bind (Only.ground (signRefresh_leavesSessions fresh.id)) fun refresh _ => ?_
    refine informed_issue_bind ⟨rfl, rfl⟩ fun ok => ?_
    split_ifs
    · exact Informed.bind (Only.ground (signAccess_leavesSessions fresh)) fun _ _ => trivial
    · trivial
  | changePassword current new =>
    refine Informed.bind_only (Only.ground (checkPassword_leavesSessions u current))
      (checkPassword_leavesSessions u current) fun _ l hl => ?_
    refine informed_issue_bind rfl fun hash => informed_issue_bind rfl fun _ => ?_
    refine informed_issue_bind rfl fun _ => Informed.bind (revokeAllSessions_ground rfl ?_)
      fun _ _ => Informed.bind (Only.ground (getAuthUser_leavesSessions u)) fun user _ => ?_
    · intro v j seconds x hmem
      have hold : ⟨.storeRefresh v j seconds, x⟩ ∈ l := by simpa using hmem
      exact not_mem_of_leaves hl v j seconds x hold
    · refine Informed.bind (Only.ground (signAccess_leavesSessions user)) fun access _ => ?_
      refine Informed.bind (Only.ground (signRefresh_leavesSessions user.id)) fun refresh _ => ?_
      exact informed_issue_bind rfl fun _ => trivial

theorem Cleared.append (h : Cleared u l) (l' : AuthTrail) : Cleared u (l ++ l') := by
  obtain ⟨jtis, hread, hdel⟩ := h
  refine ⟨jtis, List.mem_append_left _ hread, hdel.imp_right fun ⟨keys, x, hx⟩ => ?_⟩
  exact ⟨keys, x, List.mem_append_left _ hx⟩

theorem renew_yields (hcleared : Cleared u l)
    (hnone : ∀ v j seconds x, ⟨.storeRefresh v j seconds, x⟩ ∉ l) :
    Yields (Renewed u) l (AuthService.getAuthUser u >>= TokenService.issueAuthCookies) := by
  refine Only.yields_bind (getAuthUser_leavesSessions u) (fun _ _ => trivial) fun user l₁ h₁ => ?_
  refine Only.yields_bind (signAccess_leavesSessions user) (fun _ _ => trivial)
    fun access l₂ h₂ => ?_
  refine Only.yields_bind (signRefresh_leavesSessions user.id) (fun _ _ => trivial)
    fun refresh l₃ h₃ => ?_
  refine yields_issue_bind (fun _ => trivial) fun _ => ⟨?_, fun v j seconds x hmem => ?_⟩
  · exact (((hcleared.append l₁).append l₂).append l₃).append _
  · simp only [List.mem_append, List.mem_singleton] at hmem
    rcases hmem with (((hmem | hmem) | hmem) | hmem) | hmem
    · exact absurd hmem (hnone v j seconds x)
    · exact absurd hmem (not_mem_of_leaves h₁ v j seconds x)
    · exact absurd hmem (not_mem_of_leaves h₂ v j seconds x)
    · exact absurd hmem (not_mem_of_leaves h₃ v j seconds x)
    · cases (Sigma.mk.inj hmem).1
      rfl

theorem changePassword_yields (u : ℕ) (current new : String) :
    Yields (Renewed u) [] (UsersService.changePassword u current new) := by
  refine Only.yields_bind (checkPassword_leavesSessions u current) (fun _ _ => trivial)
    fun _ l hl => ?_
  refine yields_issue_bind (fun _ => trivial) fun hash => ?_
  refine yields_issue_bind (fun _ => trivial) fun _ => ?_
  refine yields_issue_bind (fun _ => trivial) fun _ => ?_
  unfold TokenService.revokeAllSessions
  rw [bind_assoc]
  refine yields_issue_bind (fun _ => trivial) fun jtis => ?_
  have hnone : ∀ v j seconds x, ⟨.storeRefresh v j seconds, x⟩ ∉ l :=
    not_mem_of_leaves hl
  split_ifs with hjtis
  · refine yields_issue_bind (fun _ => trivial) fun _ => renew_yields ?_ ?_
    · exact ⟨jtis, by simp, .inr ⟨_, _, List.mem_append_right _ (List.mem_singleton_self _)⟩⟩
    · simpa using hnone
  · refine renew_yields ⟨jtis, by simp, .inl ?_⟩ ?_
    · simpa using hjtis
    · simpa using hnone

end Ground

/-! ### What a run keeps -/

/-- Process `k` stored the token. -/
def Stored (k u jti : ℕ) (tr : AuthLog) : Prop :=
  ∃ seconds x, (k, ⟨.storeRefresh u jti seconds, x⟩) ∈ tr

theorem Stored.append {k u jti : ℕ} {tr : AuthLog} (h : Stored k u jti tr) (tr' : AuthLog) :
    Stored k u jti (tr ++ tr') := by
  obtain ⟨seconds, x, hx⟩ := h
  exact ⟨seconds, x, List.mem_append_left _ hx⟩

/-- Every token that can be used is listed; process `k` has read each that it did not store
itself, and once it has deleted what it read there is no other. -/
structure Revoking (k u : ℕ) (tr : AuthLog) (s : Accounts) : Prop where
  listed : s.keys.Listed s.now u
  read : ∀ jtis : Option (List ℕ), (k, ⟨.get (.refreshSessions u), .ok jtis⟩) ∈ tr →
    ∀ jti, s.keys.Holds s.now u jti → jti ∈ jtis.getD [] ∨ Stored k u jti tr
  gone : ∀ keys x, (k, ⟨.del keys, x⟩) ∈ tr →
    ∀ jti, s.keys.Holds s.now u jti → Stored k u jti tr

section Run
variable {lib : Hashing} {k u own : ℕ} {tr : AuthLog} {s : Accounts}

theorem Revoking.start (h : s.keys.Listed s.now u) : Revoking k u [] s where
  listed := h
  read _ hmem := by cases hmem
  gone _ _ hmem := by cases hmem

theorem Revoking.later (h : Revoking k u tr s) (ms : ℕ) :
    Revoking k u tr { s with now := s.now + ms } := by
  have hle : s.now ≤ s.now + ms := Int.le_add_of_nonneg_right (Int.natCast_nonneg ms)
  refine ⟨h.listed.later hle, fun jtis hmem jti hj => ?_, fun keys x hmem jti hj => ?_⟩
  · exact h.read jtis hmem jti (Keyspace.holds_earlier hj hle)
  · exact h.gone keys x hmem jti (Keyspace.holds_earlier hj hle)

/-- The sessions may be read, by process `k` too. -/
theorem Revoking.leave (h : Revoking k u tr s) (i : ℕ) {c : AuthCmd}
    (hc : c.leavesSessions = true) :
    Revoking k u (tr ++ [(i, ⟨c, (exec lib c s).1⟩)]) (exec lib c s).2 := by
  obtain ⟨hrefresh, hset⟩ := exec_leavesSessions lib s hc u
  have hnow : (exec lib c s).2.now = s.now := exec_now
  have hholds : ∀ {jti}, (exec lib c s).2.keys.Holds (exec lib c s).2.now u jti →
      s.keys.Holds s.now u jti := by
    intro jti hj
    rw [hnow] at hj
    exact (Keyspace.holds_congr (hrefresh jti)).mp hj
  refine ⟨⟨by rw [hset]; exact h.listed.lasting, fun jti hj => ?_⟩, fun jtis hmem jti hj => ?_,
    fun keys x hmem jti hj => ?_⟩
  · rw [hnow, Keyspace.sessions_congr hset]
    exact h.listed.listed jti (hholds hj)
  · rcases List.mem_append.mp hmem with hmem | hmem
    · exact (h.read jtis hmem jti (hholds hj)).imp_right (·.append _)
    · obtain ⟨rfl, hans⟩ := Prod.mk.inj (List.mem_singleton.mp hmem)
      obtain ⟨rfl, hans⟩ := Sigma.mk.inj hans
      cases eq_of_heq hans
      exact .inl (h.listed.listed jti (hholds hj))
  · rcases List.mem_append.mp hmem with hmem | hmem
    · exact (h.gone keys x hmem jti (hholds hj)).append _
    · cases (Sigma.mk.inj (Prod.mk.inj (List.mem_singleton.mp hmem)).2).1
      cases hc

theorem Revoking.store (h : Revoking k u tr s) (v jti seconds : ℕ) (x : Except Err Unit) :
    Revoking k u (tr ++ [(k, ⟨.storeRefresh v jti seconds, x⟩)])
      (exec lib (.storeRefresh v jti seconds) s).2 := by
  have hholds : ∀ {i}, ((s.keys.set s.now (.refresh v jti) () seconds).onSessions s.now v
      (List.insert jti)).Holds s.now u i → s.keys.Holds s.now u i ∨
        Stored k u i (tr ++ [(k, ⟨.storeRefresh v jti seconds, x⟩)]) := by
    intro i hi
    refine (Keyspace.holds_set (Keyspace.holds_onSessions.mp hi)).imp_right ?_
    rintro ⟨rfl, rfl⟩
    exact ⟨seconds, x, List.mem_append_right _ (List.mem_singleton_self _)⟩
  refine ⟨h.listed.store v jti seconds, fun jtis hmem i hi => ?_, fun keys y hmem i hi => ?_⟩
  · have hmem : (k, ⟨.get (.refreshSessions u), .ok jtis⟩) ∈ tr := by simpa using hmem
    rcases hholds hi with hi | hi
    · exact (h.read jtis hmem i hi).imp_right (·.append _)
    · exact .inr hi
  · have hmem : (k, ⟨.del keys, y⟩) ∈ tr := by simpa using hmem
    rcases hholds hi with hi | hi
    · exact (h.gone keys y hmem i hi).append _
    · exact hi

/-- A rotation that fails changes nothing; one that succeeds, of a token that process `k` did
not store, comes before it reads or would be of a token that is gone. -/
theorem Revoking.rotate (h : Revoking k u tr s) (i jti v new seconds : ℕ)
    (hopen : rotated ⟨.rotateRefresh u jti v new seconds,
      (exec lib (.rotateRefresh u jti v new seconds) s).1⟩ = true → ¬ Open k tr)
    (hother : ¬ Stored k u jti tr) :
    Revoking k u (tr ++ [(i, ⟨.rotateRefresh u jti v new seconds,
      (exec lib (.rotateRefresh u jti v new seconds) s).1⟩)])
      (exec lib (.rotateRefresh u jti v new seconds) s).2 := by
  have hread : ∀ {x} {jtis : Option (List ℕ)}, (k, ⟨.get (.refreshSessions u), .ok jtis⟩) ∈
      tr ++ [(i, ⟨.rotateRefresh u jti v new seconds, x⟩)] →
        (k, ⟨.get (.refreshSessions u), .ok jtis⟩) ∈ tr := by
    intro x jtis hmem
    simpa using hmem
  have hdel : ∀ {x keys y}, (k, ⟨.del keys, y⟩) ∈
      tr ++ [(i, ⟨.rotateRefresh u jti v new seconds, x⟩)] → (k, ⟨.del keys, y⟩) ∈ tr := by
    intro x keys y hmem
    simpa using hmem
  simp only [Accounts.exec] at hopen ⊢
  split_ifs at hopen ⊢ with hlive
  · have hheld : s.keys.Holds s.now u jti := by
      unfold Keyspace.get at hlive
      rwa [Option.isSome_map] at hlive
    have hnotdel : ∀ keys y, (k, ⟨.del keys, y⟩) ∉ tr := fun keys y hmem =>
      hother (h.gone keys y hmem jti hheld)
    have hnotread : ∀ jtis : Option (List ℕ), (k, ⟨.get (.refreshSessions u), .ok jtis⟩) ∉ tr := by
      intro jtis hmem
      refine hopen rfl ⟨List.any_eq_true.mpr ⟨_, hmem, by simp [AuthCmd.readsSessions]⟩, ?_⟩
      refine List.any_eq_false.mpr ?_
      rintro ⟨j, c, y⟩ hx hany
      obtain ⟨hk, hdels⟩ := Bool.and_eq_true_iff.mp hany
      obtain rfl : j = k := of_decide_eq_true hk
      cases c with
      | del keys => exact hnotdel keys y hx
      | _ => cases hdels
    refine ⟨h.listed.rotate v jti new seconds, fun jtis hmem => ?_, fun keys y hmem => ?_⟩
    · exact absurd (hread hmem) (hnotread jtis)
    · exact absurd (hdel hmem) (hnotdel keys y)
  · refine ⟨h.listed, fun jtis hmem j hj => ?_, fun keys y hmem j hj => ?_⟩
    · exact (h.read jtis (hread hmem) j hj).imp_right (·.append _)
    · exact (h.gone keys y (hdel hmem) j hj).append _

/-- What was read is deleted, and it was all there was. -/
theorem Revoking.delete (h : Revoking k u tr s) {jtis : Option (List ℕ)}
    (hread : (k, ⟨.get (.refreshSessions u), .ok jtis⟩) ∈ tr)
    (hnone : ∀ jti, ¬ Stored k u jti tr) (tr' : AuthLog) :
    Revoking k u tr' (exec lib
      (.del ((jtis.getD []).map (.refresh u) ++ [.refreshSessions u])) s).2 := by
  have hnot : ∀ jti, ¬ (s.keys.del ((jtis.getD []).map (.refresh u) ++
      [.refreshSessions u])).Holds s.now u jti := by
    intro jti hj
    obtain ⟨hout, hj⟩ := Keyspace.holds_revoke hj
    exact (h.read jtis hread jti hj).elim hout (hnone jti)
  refine ⟨⟨fun e he => ?_, fun jti hj => absurd hj (hnot jti)⟩, fun _ _ jti hj =>
    absurd hj (hnot jti), fun _ _ _ jti hj => absurd hj (hnot jti)⟩
  simp [Accounts.exec, Keyspace.del] at he

/-- Only process `k` changes the password, and no one presents the token it issues. -/
def OneChange (k own i : ℕ) (op : SessionOp) : Prop :=
  (op.changes = true → i = k) ∧ op ≠ .refresh own

instance (k own i : ℕ) (op : SessionOp) : Decidable (OneChange k own i op) :=
  inferInstanceAs (Decidable (_ ∧ _))

theorem Revoking.step (h : Revoking k u tr s) (hown : ∀ jti, Stored k u jti tr → jti = own)
    {i : ℕ} {op : SessionOp} {c : AuthCmd} (hc : SessionGround u op (System.own i tr) c)
    (hop : OneChange k own i op)
    (hopen : rotated ⟨c, (exec lib c s).1⟩ = true → ¬ Open k tr) :
    Revoking k u (tr ++ [(i, ⟨c, (exec lib c s).1⟩)]) (exec lib c s).2 := by
  cases c with
  | del keys =>
    obtain ⟨hchanges, ⟨jtis, hread, rfl⟩, hnone⟩ := hc
    obtain rfl := hop.1 hchanges
    refine h.delete (mem_own.mp hread) (fun jti ⟨seconds, x, hx⟩ => ?_) _
    exact hnone u jti seconds x (mem_own.mpr hx)
  | storeRefresh v jti seconds =>
    obtain rfl := hop.1 hc
    exact h.store v jti seconds _
  | rotateRefresh v jti v' new seconds =>
    obtain ⟨rfl, rfl⟩ := hc
    refine h.rotate i jti v' new seconds hopen fun hstored => hop.2 ?_
    rw [hown jti hstored]
  | _ => exact h.leave i hc

theorem sessionSystem_finish {i : ℕ} {c : AuthCmd} {o : Outcome Err}
    {out : Except Err c.Reply × Accounts}
    (h : (sessionSystem lib u).finish i c s o = some out) : o = .answered ∧ out = exec lib c s := by
  cases o with
  | answered => exact ⟨rfl, (Option.some.inj h).symm⟩
  | lost e => cases h
  | unacknowledged e => cases h

/-- In a run without a rotation while process `k` is revoking. -/
theorem revoking_run {xs : List (Choice Err SessionOp ℕ)}
    {q : Pool AuthCmd AuthCmd.Reply Err Accounts SessionOp (AccessToken × RefreshToken)}
    (hs : s.keys.Listed s.now u) (hx : (sessionSystem lib u).schedule xs ⟨s, []⟩ = some q)
    (ha : (sessionSystem lib u).AllMeet (fun i op _ _ => OneChange k own i op) xs ⟨s, []⟩)
    (hund : Undisturbed k ((sessionSystem lib u).trace xs ⟨s, []⟩))
    (hown : ∀ jti, Stored k u jti ((sessionSystem lib u).trace xs ⟨s, []⟩) → jti = own) :
    Revoking k u ((sessionSystem lib u).trace xs ⟨s, []⟩) q.state := by
  refine (trace_rule (I := fun tr t => Undisturbed k tr →
    (∀ jti, Stored k u jti tr → jti = own) → Revoking k u tr t) ?_ ?_ ?_ hx ha).2 hund hown
  · intro _ _
    exact .start hs
  · intro tr t ms h hund hown
    exact (h hund hown).later ms
  · intro tr t i op c k' o out h hpath hout hop hund hown
    obtain ⟨rfl, rfl⟩ := sessionSystem_finish hout
    obtain ⟨hbefore, hopen⟩ := undisturbed_snoc.mp hund
    have hown' : ∀ jti, Stored k u jti tr → jti = own := fun jti hj => hown jti (hj.append _)
    have hground := (SessionOp.handle_ground u op).path hpath
    exact (h hbefore hown').step hown' hground (hop nofun) hopen

end Run

/-! ### The sessions are revoked -/

namespace Keyspace

theorem Listed.revokeAllSessions {lib : Hashing} {u : ℕ} {s : Accounts}
    (h : s.keys.Listed s.now u) (jti : ℕ) :
    ¬ (perform lib (TokenService.revokeAllSessions u) s).2.keys.Holds s.now u jti := by
  have hread : perform lib (AuthM.request (.get (.refreshSessions u))) s =
      (.ok (s.keys.get s.now (.refreshSessions u)), s) := rfl
  rw [TokenService.revokeAllSessions, perform_bind, hread]
  dsimp only
  split_ifs with hsome
  · intro hj
    obtain ⟨hout, hj⟩ := holds_revoke hj
    exact hout (h.listed jti hj)
  · intro hj
    exact hsome (List.length_pos_of_mem (h.listed jti hj))

end Keyspace

/-- Only the token `own` can be rotated, and a later `revokeAllSessions` reaches every token
there is. -/
structure SessionsRevoked (lib : Hashing) (u own : ℕ) (s : Accounts) : Prop where
  others : ∀ jti x s', perform lib ((SessionOp.refresh jti).handle u) s = (.ok x, s') → jti = own
  listed : ∀ jti, s.keys.Holds s.now u jti → jti ∈ s.keys.sessions s.now u
  reached : ∀ jti, ¬ (perform lib (TokenService.revokeAllSessions u) s).2.keys.Holds s.now u jti

/-- A token that is rotated is there. -/
theorem holds_of_refresh {lib : Hashing} {u jti : ℕ} {s s' : Accounts}
    {x : AccessToken × RefreshToken}
    (h : perform lib ((SessionOp.refresh jti).handle u) s = (.ok x, s')) :
    s.keys.Holds s.now u jti := by
  have hread : perform lib (AuthRepository.findById u) s = (.ok (s.users.table.get u), s) := rfl
  rw [SessionOp.handle, AuthService.getAuthUser, perform_bind, perform_bind, hread] at h
  dsimp only at h
  cases hu : s.users.table.get u with
  | none =>
    rw [hu] at h
    cases h
  | some user =>
    rw [hu] at h
    have hsign : perform lib (TokenService.signRefresh user.toAuthUser.id) s =
        (.ok ⟨user.toAuthUser.id, s.draws, s.now / 1000⟩, s.draw.2) := rfl
    change perform lib (TokenService.rotateAuthCookies u jti user.toAuthUser) s = (.ok x, s') at h
    rw [TokenService.rotateAuthCookies, perform_bind, hsign] at h
    dsimp only at h
    by_contra hnot
    have hdead : (s.draw.2.keys.get s.draw.2.now (.refresh u jti)).isSome = false := by
      unfold Keyspace.get
      rw [Option.isSome_map]
      exact Bool.eq_false_iff.mpr hnot
    have hfails : perform lib (AuthM.request (.rotateRefresh u jti user.toAuthUser.id s.draws
        TokenService.refreshTtlSeconds)) s.draw.2 = (.ok false, s.draw.2) :=
      if_neg (Bool.eq_false_iff.mp hdead)
    rw [perform_bind, hfails] at h
    cases h

/-- The change revokes the other sessions, in any order of commands in which no rotation
succeeds between its reading of the sessions and its deletion of them. -/
theorem sessions_revoked (lib : Hashing) {u k : ℕ} {s : Accounts}
    {xs : List (Choice Err SessionOp ℕ)}
    {q : Pool AuthCmd AuthCmd.Reply Err Accounts SessionOp (AccessToken × RefreshToken)}
    {current new : String} {access : AccessToken} {refresh : RefreshToken}
    (hs : s.keys.Listed s.now u) (hx : (sessionSystem lib u).schedule xs ⟨s, []⟩ = some q)
    (hdone : q.procs[k]? = some (.changePassword current new, .done (.ok (access, refresh))))
    (ha : (sessionSystem lib u).AllMeet (fun i op _ _ => OneChange k refresh.jti i op) xs ⟨s, []⟩)
    (hund : Undisturbed k ((sessionSystem lib u).trace xs ⟨s, []⟩)) :
    SessionsRevoked lib u refresh.jti q.state := by
  have hpath := (onPath hx).follows k _ _ hdone
  obtain ⟨⟨jtis, hread, hdel⟩, hown⟩ := (changePassword_yields u current new).path hpath
  have hstored : ∀ jti, Stored k u jti ((sessionSystem lib u).trace xs ⟨s, []⟩) →
      jti = refresh.jti := by
    rintro jti ⟨seconds, x, hx⟩
    exact hown u jti seconds x (mem_own.mpr hx)
  have h := revoking_run hs hx ha hund hstored
  have honly : ∀ jti, q.state.keys.Holds q.state.now u jti → jti = refresh.jti := by
    intro jti hj
    rcases hdel with hnil | ⟨keys, x, hx⟩
    · rcases h.read jtis (mem_own.mp hread) jti hj with hmem | hmine
      · rw [hnil] at hmem
        cases hmem
      · exact hstored jti hmine
    · exact hstored jti (h.gone keys x (mem_own.mp hx) jti hj)
  refine ⟨fun jti x s' hrot => honly jti (holds_of_refresh hrot), h.listed.listed, ?_⟩
  exact h.listed.revokeAllSessions

/-! ### A rotation in between -/

/-- The user has signed in, with the token 0. -/
def signedIn : Accounts :=
  (perform plainText (TokenService.issueAuthCookies
    ⟨1, "Load Test User 0", "loadtest0@test.local", .user⟩) loadTestUser).2

theorem signedIn_listed : signedIn.keys.Listed signedIn.now 1 := by
  have hnone : loadTestUser.keys.Listed loadTestUser.now 1 :=
    ⟨fun e he => (by cases he), fun jti hj => (by cases hj)⟩
  exact hnone.store 1 0 _

def changed (q : Pool AuthCmd AuthCmd.Reply Err Accounts SessionOp (AccessToken × RefreshToken))
    (i jti : ℕ) : Bool :=
  q.procs[i]?.any fun x => x.1.changes &&
    (x.2.result.bind Except.toOption).any fun y => y.2.jti = jti

theorem changed_cases
    {q : Pool AuthCmd AuthCmd.Reply Err Accounts SessionOp (AccessToken × RefreshToken)}
    {i jti : ℕ} (h : changed q i jti = true) : ∃ current new access refresh,
      q.procs[i]? = some (.changePassword current new, .done (.ok (access, refresh))) ∧
        refresh.jti = jti := by
  obtain ⟨⟨op, p⟩, hi, h⟩ := (Option.any_eq_true _ _).mp h
  obtain ⟨hop, h⟩ := Bool.and_eq_true_iff.mp h
  obtain ⟨⟨access, refresh⟩, hres, hjti⟩ := (Option.any_eq_true _ _).mp h
  obtain ⟨r, hr, hok⟩ := Option.bind_eq_some_iff.mp hres
  cases op with
  | refresh jti => cases hop
  | changePassword current new =>
    cases r with
    | error e => cases hok
    | ok y =>
      cases hok
      refine ⟨current, new, access, refresh, ?_, of_decide_eq_true hjti⟩
      obtain rfl := eq_done_of_result hr
      exact hi

/-- One rotation before the change reads the sessions, and an attempt after it. -/
def rotatedBefore : List (Choice Err SessionOp ℕ) :=
  [.spawn (.changePassword "LoadTest123!" "Better456"), .spawn (.refresh 0)] ++ solo 0 5 ++
    solo 1 6 ++ solo 0 8 ++ [.spawn (.refresh 2)] ++ solo 2 4

theorem revoked_after_rotation : ∃ q,
    (sessionSystem plainText 1).schedule rotatedBefore ⟨signedIn, []⟩ = some q ∧
      SessionsRevoked plainText 1 3 q.state := by
  have hrun : ((sessionSystem plainText 1).schedule rotatedBefore ⟨signedIn, []⟩).any
      (changed · 0 3) := by decide +kernel
  obtain ⟨q, hq, hchanged⟩ := (Option.any_eq_true _ _).mp hrun
  obtain ⟨current, new, access, refresh, hdone, hjti⟩ := changed_cases hchanged
  have h := sessions_revoked plainText signedIn_listed hq hdone
    (by rw [hjti]; decide +kernel) (by decide +kernel)
  exact ⟨q, hq, hjti ▸ h⟩

/-- The session rotates its token between the two commands of `revokeAllSessions`. -/
def rotatedMeanwhile : List (Choice Err SessionOp ℕ) :=
  [.spawn (.changePassword "LoadTest123!" "Better456"), .spawn (.refresh 0)] ++ solo 0 6 ++
    solo 1 6 ++ solo 0 7

theorem session_survives : ¬ ∀ (s : Accounts) (xs : List (Choice Err SessionOp ℕ)) q k
    current new access refresh, s.keys.Listed s.now 1 →
    (sessionSystem plainText 1).schedule xs ⟨s, []⟩ = some q →
    q.procs[k]? = some (.changePassword current new, .done (.ok (access, refresh))) →
    (sessionSystem plainText 1).AllMeet (fun i op _ _ => OneChange k refresh.jti i op) xs ⟨s, []⟩ →
    SessionsRevoked plainText 1 refresh.jti q.state := by
  intro h
  have hrun : ((sessionSystem plainText 1).schedule rotatedMeanwhile ⟨signedIn, []⟩).any
      fun q => changed q 0 3 &&
        (perform plainText ((SessionOp.refresh 2).handle 1) q.state).1.toOption.isSome := by
    decide +kernel
  obtain ⟨q, hq, hrun⟩ := (Option.any_eq_true _ _).mp hrun
  obtain ⟨hchanged, hrotates⟩ := Bool.and_eq_true_iff.mp hrun
  obtain ⟨current, new, access, refresh, hdone, hjti⟩ := changed_cases hchanged
  have hrevoked := h signedIn rotatedMeanwhile q 0 current new access refresh signedIn_listed hq
    hdone (by rw [hjti]; decide +kernel)
  rcases hrot : perform plainText ((SessionOp.refresh 2).handle 1) q.state with ⟨e | x, s'⟩
  · rw [hrot] at hrotates
    cases hrotates
  · have hown := hrevoked.others 2 x s' hrot
    rw [hjti] at hown
    cases hown

end MovieReservation
