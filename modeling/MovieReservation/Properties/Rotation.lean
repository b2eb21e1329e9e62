import Mathlib.Data.Set.Card
import MovieReservation.Lib.Effects
import MovieReservation.Properties.Revocation

/-! Sessions that are begun, rotated and revoked side by side. A jti is drawn once and stored
once, by the process that drew it; a rotation takes one token for another. So no token is
rotated twice, and a user has no more tokens than sessions were begun. -/

namespace MovieReservation

open Lib Lib.Prog Lib.System Accounts

/-! ### The system -/

inductive CookieOp where
  | issueAuthCookies (user : AuthUser)
  /-- The token that was presented is one of the user's own. -/
  | rotateAuthCookies (jti : ℕ) (user : AuthUser)
  | revokeAllSessions (userId : ℕ)
  deriving DecidableEq

def CookieOp.handle : CookieOp → AuthM Unit
  | issueAuthCookies user => do let _ ← TokenService.issueAuthCookies user
  | rotateAuthCookies jti user => do let _ ← TokenService.rotateAuthCookies user.id jti user
  | revokeAllSessions userId => TokenService.revokeAllSessions userId

def CookieOp.begins (u : ℕ) : CookieOp → Bool
  | issueAuthCookies user => user.id = u
  | _ => false

def cookieSystem (lib : Hashing) :
    System AuthCmd AuthCmd.Reply Err Accounts CookieOp ℕ Unit where
  exec _ := exec lib
  ready _ _ _ := true
  fault := AuthCmd.fault
  env ms s := { s with now := s.now + ms }
  handler := CookieOp.handle

abbrev CookiePool := Pool AuthCmd AuthCmd.Reply Err Accounts CookieOp Unit

/-- The script found the token and took it. -/
def accepts (u jti : ℕ) : Answer AuthCmd AuthCmd.Reply Err → Bool
  | ⟨.rotateRefresh v j _ _ _, .ok b⟩ => b && decide (v = u) && decide (j = jti)
  | _ => false

/-- In the run `xs` from `s` to `q`, a token is accepted at most once, a rotation that is
refused changes no key, and a user has at most one live token for each session begun. -/
structure NeverForks (lib : Hashing) (xs : List (Choice Err CookieOp ℕ)) (s : Accounts)
    (q : CookiePool) : Prop where
  once : ∀ u jti, ((cookieSystem lib).trace xs ⟨s, []⟩).countP (fun a => accepts u jti a.2) ≤ 1
  refused : ∀ i op message, q.procs[i]? = some (op, .done (.error (.unauthorized message))) →
    ∀ ys o zs p p', xs = ys ++ .step i o :: zs → (cookieSystem lib).schedule ys ⟨s, []⟩ = some p →
      (cookieSystem lib).act (.step i o) p = some p' → p'.state.keys = p.state.keys
  live : ∀ u, {jti | q.state.keys.Holds q.state.now u jti}.encard ≤
    q.procs.countP fun x => x.1.begins u

/-! ### What a process knows -/

/-- The command gives the user the token. -/
def AuthCmd.brings (u jti : ℕ) : AuthCmd → Bool
  | .storeRefresh v j _ => v = u ∧ j = jti
  | .rotateRefresh _ _ v j _ => v = u ∧ j = jti
  | _ => false

def AuthCmd.bringsAny : AuthCmd → Bool
  | .storeRefresh _ _ _ | .rotateRefresh _ _ _ _ _ => true
  | _ => false

def AuthCmd.begins (u : ℕ) : AuthCmd → Bool
  | .storeRefresh v _ _ => v = u
  | _ => false

theorem bringsAny_of_brings {u jti : ℕ} {c : AuthCmd} (h : c.brings u jti = true) :
    c.bringsAny = true := by
  cases c with
  | storeRefresh v j seconds => rfl
  | rotateRefresh old oldJti v j seconds => rfl
  | _ => cases h

/-- A token is given once, by the process that drew it; what a rotation takes is of the
user whom it gives the new one. -/
def CookieGround (op : CookieOp) (l : AuthTrail) : AuthCmd → Prop
  | .storeRefresh v j _ => op.begins v = true ∧ ⟨.randomUUID, .ok j⟩ ∈ l ∧
    ∀ a ∈ l, a.1.bringsAny = false
  | .rotateRefresh old _ v j _ => old = v ∧ ⟨.randomUUID, .ok j⟩ ∈ l ∧
    ∀ a ∈ l, a.1.bringsAny = false
  | .del _ | .get _ | .dateNow | .randomUUID => True
  | _ => False

theorem CookieOp.handle_ground (op : CookieOp) : Informed (CookieGround op) [] op.handle := by
  cases op with
  | issueAuthCookies user =>
    simp only [CookieOp.handle, TokenService.issueAuthCookies, TokenService.signAccess,
      TokenService.getAccessVersion, TokenService.signRefresh, bind_assoc]
    refine informed_issue_bind trivial fun ver => informed_issue_bind trivial fun now => ?_
    refine informed_issue_bind trivial fun jti => informed_issue_bind trivial fun now' => ?_
    refine informed_issue_bind ⟨by simp [CookieOp.begins], by simp, ?_⟩ fun _ => trivial
    simp [AuthCmd.bringsAny]
  | rotateAuthCookies jti user =>
    simp only [CookieOp.handle, TokenService.rotateAuthCookies, TokenService.signRefresh,
      bind_assoc]
    refine informed_issue_bind trivial fun new => informed_issue_bind trivial fun now => ?_
    refine informed_issue_bind ⟨rfl, by simp, by simp [AuthCmd.bringsAny]⟩ fun rotated => ?_
    split_ifs
    · simp only [TokenService.signAccess, TokenService.getAccessVersion, bind_assoc]
      exact informed_issue_bind trivial fun ver => informed_issue_bind trivial fun _ => trivial
    · trivial
  | revokeAllSessions userId =>
    refine informed_issue_bind trivial fun jtis => ?_
    split_ifs
    · exact ⟨trivial, fun _ => trivial⟩
    · trivial

/-- An answer that came with no change of a key. -/
def idle : Answer AuthCmd AuthCmd.Reply Err → Bool
  | ⟨.rotateRefresh _ _ _ _ _, .ok b⟩ => !b
  | ⟨.get _, _⟩ | ⟨.dateNow, _⟩ | ⟨.randomUUID, _⟩ => true
  | _ => false

/-- A process that ends with 401 was told so, or has changed no key. -/
def Unchanging (l : AuthTrail) (r : Except Err Unit) : Prop :=
  ∀ message, r = .error (.unauthorized message) →
    (∀ a ∈ l, idle a = true) ∨ ∃ c, ⟨c, .error (.unauthorized message)⟩ ∈ l

theorem unchanging_issue_bind {l : AuthTrail} {c : AuthCmd} {f : c.Reply → AuthM Unit}
    (hf : ∀ a, Yields Unchanging (l ++ [⟨c, .ok a⟩]) (f a)) :
    Yields Unchanging l (issue c >>= f) := by
  refine yields_issue_bind (fun e message he => .inr ⟨c, ?_⟩) hf
  cases he
  exact List.mem_append_right _ (List.mem_singleton_self _)

theorem unchanging_ok {l : AuthTrail} : Unchanging l (.ok ()) := nofun

theorem CookieOp.handle_unchanging (op : CookieOp) : Yields Unchanging [] op.handle := by
  cases op with
  | issueAuthCookies user =>
    simp only [CookieOp.handle, TokenService.issueAuthCookies, TokenService.signAccess,
      TokenService.getAccessVersion, TokenService.signRefresh, bind_assoc]
    refine unchanging_issue_bind fun ver => unchanging_issue_bind fun now => ?_
    refine unchanging_issue_bind fun jti => unchanging_issue_bind fun now' => ?_
    exact unchanging_issue_bind fun _ => unchanging_ok
  | rotateAuthCookies jti user =>
    simp only [CookieOp.handle, TokenService.rotateAuthCookies, TokenService.signRefresh,
      bind_assoc]
    refine unchanging_issue_bind fun new => unchanging_issue_bind fun now => ?_
    refine unchanging_issue_bind fun rotated => ?_
    split_ifs with hrotated
    · simp only [TokenService.signAccess, TokenService.getAccessVersion, bind_assoc]
      refine unchanging_issue_bind fun ver => unchanging_issue_bind fun _ => unchanging_ok
    · refine fun message _ => .inl ?_
      simp [idle, hrotated]
  | revokeAllSessions userId =>
    refine unchanging_issue_bind fun jtis => ?_
    split_ifs
    · intro r
      cases r with
      | ok a => exact unchanging_ok
      | error e =>
        intro message he
        cases he
        exact .inr ⟨_, List.mem_append_right _ (List.mem_singleton_self _)⟩
    · exact unchanging_ok

/-! ### What a run keeps -/

/-- The refresh tokens that Redis has for the user, lapsed ones among them. -/
def Keyspace.tokens (ks : Keyspace) (u : ℕ) : Set ℕ := {jti | ks (.refresh u jti) ≠ none}

/-- A process has tried to give the user the token. -/
def Brought (u jti : ℕ) (tr : AuthLog) : Prop := ∃ a ∈ tr, a.2.1.brings u jti = true

theorem Brought.append {u jti : ℕ} {tr : AuthLog} (h : Brought u jti tr) (tr' : AuthLog) :
    Brought u jti (tr ++ tr') := by
  obtain ⟨a, ha, hbrings⟩ := h
  exact ⟨a, List.mem_append_left _ ha, hbrings⟩

structure Unforked (tr : AuthLog) (s : Accounts) : Prop where
  drawn : ∀ i jti, (i, ⟨.randomUUID, .ok jti⟩) ∈ tr → jti < s.draws
  drawer : ∀ i k jti, (i, ⟨.randomUUID, .ok jti⟩) ∈ tr → (k, ⟨.randomUUID, .ok jti⟩) ∈ tr → i = k
  brought : ∀ a ∈ tr, ∀ u jti, a.2.1.brings u jti = true → (a.1, ⟨.randomUUID, .ok jti⟩) ∈ tr
  present : ∀ u jti, jti ∈ s.keys.tokens u → Brought u jti tr
  once : ∀ u jti, tr.countP (fun a => accepts u jti a.2) ≤ 1
  spent : ∀ u jti, 0 < tr.countP (fun a => accepts u jti a.2) →
    Brought u jti tr ∧ jti ∉ s.keys.tokens u
  bounded : ∀ u, (s.keys.tokens u).encard ≤ tr.countP fun a => a.2.1.begins u
  honest : ∀ a ∈ tr, ∀ message, a.2.2 ≠ .error (.unauthorized message)

section Run
variable {lib : Hashing} {tr : AuthLog} {s s' : Accounts} {i v j : ℕ}

theorem Unforked.start (h : ∀ u, s.keys.tokens u = ∅) : Unforked [] s where
  drawn _ _ hmem := by cases hmem
  drawer _ _ _ hmem := by cases hmem
  brought _ hmem := by cases hmem
  present u jti hmem := by
    rw [h u] at hmem
    cases hmem
  once _ _ := Nat.zero_le _
  spent _ _ hpos := absurd hpos (Nat.lt_irrefl 0)
  bounded u := by simp [h u]
  honest _ hmem := by cases hmem

/-- The process that drew a jti gives it to a user only once. -/
theorem Unforked.fresh (h : Unforked tr s) (hdrew : ⟨.randomUUID, .ok j⟩ ∈ own i tr)
    (hnone : ∀ a ∈ own i tr, a.1.bringsAny = false) (u : ℕ) : ¬ Brought u j tr := by
  rintro ⟨⟨k, a⟩, ha, hbrings⟩
  obtain rfl := h.drawer _ _ _ (mem_own.mp hdrew) (h.brought _ ha u j hbrings)
  have hfalse := hnone a (mem_own.mpr ha)
  rw [bringsAny_of_brings hbrings] at hfalse
  cases hfalse

/-- A command that gives no token to anyone. -/
theorem Unforked.keep (h : Unforked tr s) {a : Answer AuthCmd AuthCmd.Reply Err}
    (ha : a.1.bringsAny = false) (hdraws : s.draws ≤ s'.draws)
    (hdrew : ∀ jti, a = ⟨.randomUUID, .ok jti⟩ → jti = s.draws ∧ s.draws < s'.draws)
    (htokens : ∀ u, s'.keys.tokens u ⊆ s.keys.tokens u)
    (hhonest : ∀ message, a.2 ≠ .error (.unauthorized message)) :
    Unforked (tr ++ [(i, a)]) s' := by
  have hbrings : ∀ u jti, a.1.brings u jti = false := fun u jti =>
    Bool.eq_false_iff.mpr fun hb => by
      rw [bringsAny_of_brings hb] at ha
      cases ha
  have haccepts : ∀ u jti, accepts u jti a = false := by
    intro u jti
    obtain ⟨c, r⟩ := a
    cases c with
    | rotateRefresh => cases ha
    | _ => rfl
  have hbegins : ∀ u, a.1.begins u = false := by
    intro u
    obtain ⟨c, r⟩ := a
    cases c with
    | storeRefresh => cases ha
    | _ => rfl
  have hcount : ∀ u jti, (tr ++ [(i, a)]).countP (fun a => accepts u jti a.2) =
      tr.countP fun a => accepts u jti a.2 := by
    intro u jti
    rw [List.countP_append, List.countP_singleton, if_neg (by simp [haccepts]), Nat.add_zero]
  refine ⟨fun k jti hmem => ?_, fun k l jti hk hl => ?_, fun b hb u jti hbr => ?_,
    fun u jti hmem => (h.present u jti (htokens u hmem)).append _, fun u jti => ?_,
    fun u jti hpos => ?_, fun u => ?_, fun b hb => ?_⟩
  · rcases List.mem_append.mp hmem with hmem | hmem
    · exact Nat.lt_of_lt_of_le (h.drawn k jti hmem) hdraws
    · obtain ⟨rfl, hlt⟩ := hdrew jti (Prod.mk.inj (List.mem_singleton.mp hmem)).2.symm
      exact hlt
  · rcases List.mem_append.mp hk with hk | hk <;> rcases List.mem_append.mp hl with hl | hl
    · exact h.drawer k l jti hk hl
    · have hlt := h.drawn k jti hk
      rw [(hdrew jti (Prod.mk.inj (List.mem_singleton.mp hl)).2.symm).1] at hlt
      exact absurd hlt (Nat.lt_irrefl _)
    · have hlt := h.drawn l jti hl
      rw [(hdrew jti (Prod.mk.inj (List.mem_singleton.mp hk)).2.symm).1] at hlt
      exact absurd hlt (Nat.lt_irrefl _)
    · rw [(Prod.mk.inj (List.mem_singleton.mp hk)).1, (Prod.mk.inj (List.mem_singleton.mp hl)).1]
  · rcases List.mem_append.mp hb with hb | hb
    · exact List.mem_append_left _ (h.brought b hb u jti hbr)
    · rw [List.mem_singleton.mp hb, hbrings] at hbr
      cases hbr
  · rw [hcount]
    exact h.once u jti
  · rw [hcount] at hpos
    obtain ⟨hbrought, hgone⟩ := h.spent u jti hpos
    exact ⟨hbrought.append _, fun hmem => hgone (htokens u hmem)⟩
  · rw [List.countP_append, List.countP_singleton, if_neg (by simp [hbegins]), Nat.add_zero]
    exact (Set.encard_le_encard (htokens u)).trans (h.bounded u)
  · rcases List.mem_append.mp hb with hb | hb
    · exact h.honest b hb
    · rw [List.mem_singleton.mp hb]
      exact hhonest

/-- A command that gives a token for the first time, and perhaps takes another. -/
theorem Unforked.bring (h : Unforked tr s) {a : Answer AuthCmd AuthCmd.Reply Err}
    (hbrings : ∀ u jti, a.1.brings u jti = true ↔ v = u ∧ j = jti)
    (hdrew : (i, ⟨.randomUUID, .ok j⟩) ∈ tr) (hfresh : ¬ Brought v j tr)
    (hnot : ∀ jti, a ≠ ⟨.randomUUID, .ok jti⟩) (hdraws : s'.draws = s.draws)
    (htokens : ∀ u, s'.keys.tokens u ⊆ s.keys.tokens u ∪ {jti | v = u ∧ j = jti})
    (htaken : ∀ u jti, accepts u jti a = true →
      jti ∈ s.keys.tokens u ∧ jti ∉ s'.keys.tokens u)
    (hbounded : ∀ u, (s'.keys.tokens u).encard ≤
      (s.keys.tokens u).encard + if a.1.begins u then 1 else 0)
    (hhonest : ∀ message, a.2 ≠ .error (.unauthorized message)) :
    Unforked (tr ++ [(i, a)]) s' := by
  have hmem_drawn : ∀ {k jti}, (k, ⟨.randomUUID, .ok jti⟩) ∈ tr ++ [(i, a)] →
      (k, ⟨.randomUUID, .ok jti⟩) ∈ tr := by
    intro k jti hmem
    rcases List.mem_append.mp hmem with hmem | hmem
    · exact hmem
    · exact absurd (Prod.mk.inj (List.mem_singleton.mp hmem)).2.symm (hnot jti)
  have hcount : ∀ u jti, (tr ++ [(i, a)]).countP (fun a => accepts u jti a.2) =
      tr.countP (fun a => accepts u jti a.2) + if accepts u jti a then 1 else 0 := by
    intro u jti
    rw [List.countP_append, List.countP_singleton]
  -- a token that is there has not been taken before
  have hunspent : ∀ u jti, jti ∈ s.keys.tokens u →
      tr.countP (fun a => accepts u jti a.2) = 0 := by
    intro u jti hmem
    by_contra hne
    exact (h.spent u jti (Nat.pos_of_ne_zero hne)).2 hmem
  refine ⟨fun k jti hmem => ?_, fun k l jti hk hl => ?_, fun b hb u jti hbr => ?_,
    fun u jti hmem => ?_, fun u jti => ?_, fun u jti hpos => ?_, fun u => ?_, fun b hb => ?_⟩
  · rw [hdraws]
    exact h.drawn k jti (hmem_drawn hmem)
  · exact h.drawer k l jti (hmem_drawn hk) (hmem_drawn hl)
  · rcases List.mem_append.mp hb with hb | hb
    · exact List.mem_append_left _ (h.brought b hb u jti hbr)
    · rw [List.mem_singleton.mp hb] at hbr ⊢
      obtain ⟨-, rfl⟩ := (hbrings u jti).mp hbr
      exact List.mem_append_left _ hdrew
  · rcases htokens u hmem with hmem | hnew
    · exact (h.present u jti hmem).append _
    · exact ⟨_, List.mem_append_right _ (List.mem_singleton_self _), (hbrings u jti).mpr hnew⟩
  · rw [hcount]
    split_ifs with ha
    · rw [hunspent u jti (htaken u jti ha).1]
    · exact h.once u jti
  · rw [hcount] at hpos
    split_ifs at hpos with ha
    · obtain ⟨hthere, hgone⟩ := htaken u jti ha
      exact ⟨(h.present u jti hthere).append _, hgone⟩
    · obtain ⟨hbrought, hgone⟩ := h.spent u jti hpos
      refine ⟨hbrought.append _, fun hmem => ?_⟩
      rcases htokens u hmem with hmem | ⟨rfl, rfl⟩
      · exact hgone hmem
      · exact hfresh hbrought
  · rw [List.countP_append, List.countP_singleton]
    push_cast
    exact (hbounded u).trans (add_le_add_left (h.bounded u) _)
  · rcases List.mem_append.mp hb with hb | hb
    · exact h.honest b hb
    · rw [List.mem_singleton.mp hb]
      exact hhonest

end Run

section Tokens
variable {ks : Keyspace} {now : Time} {u v j : ℕ}

theorem Keyspace.tokens_congr {ks' : Keyspace}
    (h : ∀ jti, ks' (.refresh u jti) = ks (.refresh u jti)) : ks'.tokens u = ks.tokens u := by
  ext jti
  simp only [tokens, Set.mem_ofPred_eq, h]

variable (ks now v) in
theorem Keyspace.tokens_onSessions (f : List ℕ → List ℕ) :
    (ks.onSessions now v f).tokens u = ks.tokens u := by
  refine tokens_congr fun jti => ?_
  have hne : AuthKey.refresh u jti ≠ .refreshSessions v := nofun
  exact ks.onSessions_ne now v hne f

variable (ks now u v j) in
theorem Keyspace.tokens_set (seconds : ℕ) : (ks.set now (.refresh v j) () seconds).tokens u =
    ks.tokens u ∪ {jti | v = u ∧ j = jti} := by
  ext jti
  by_cases h : AuthKey.refresh u jti = .refresh v j
  · cases h
    simp [tokens, set, put]
  · have hnew : ¬ (v = u ∧ j = jti) := by
      rintro ⟨rfl, rfl⟩
      exact h rfl
    simp [tokens, ks.set_ne now h () seconds, hnew]

variable (ks u v j) in
theorem Keyspace.tokens_del : (ks.del [.refresh v j]).tokens u =
    ks.tokens u \ {jti | v = u ∧ j = jti} := by
  ext jti
  by_cases h : AuthKey.refresh u jti = .refresh v j
  · cases h
    simp [tokens, del]
  · have hkey : (ks.del [.refresh v j]) (.refresh u jti) = ks (.refresh u jti) :=
      if_neg (by simpa using h)
    have hother : ¬ (v = u ∧ j = jti) := by
      rintro ⟨rfl, rfl⟩
      exact h rfl
    simp [tokens, hkey, hother]

theorem Keyspace.tokens_del_subset (keys : List AuthKey) :
    (ks.del keys).tokens u ⊆ ks.tokens u := by
  intro jti hmem hnone
  refine hmem ?_
  unfold del
  split_ifs
  · rfl
  · exact hnone

theorem Keyspace.mem_tokens_of_get (h : (ks.get now (.refresh u j)).isSome = true) :
    j ∈ ks.tokens u := by
  intro hnone
  simp [get, live, hnone] at h

theorem encard_union_le (A : Set ℕ) : (A ∪ {jti | v = u ∧ j = jti}).encard ≤
    A.encard + if v = u then 1 else 0 := by
  split_ifs with hv
  · have hset : {jti | v = u ∧ j = jti} = {j} := by
      ext jti
      simp [hv, eq_comm]
    rw [hset]
    exact (Set.encard_union_le _ _).trans (by rw [Set.encard_singleton])
  · have hset : {jti | v = u ∧ j = jti} = ∅ := by
      ext jti
      simp [hv]
    rw [hset, Set.union_empty, add_zero]

/-- One token for another. -/
theorem encard_swap_le {A : Set ℕ} {k : ℕ} (hk : v = u → k ∈ A) :
    (A \ {jti | v = u ∧ k = jti} ∪ {jti | v = u ∧ j = jti}).encard ≤ A.encard := by
  refine (encard_union_le _).trans ?_
  split_ifs with hv
  · have hset : {jti | v = u ∧ k = jti} = {k} := by
      ext jti
      simp [hv, eq_comm]
    rw [hset, Set.encard_sdiff_singleton_add_one (hk hv)]
  · rw [add_zero]
    exact Set.encard_le_encard Set.sdiff_subset

end Tokens

section Step
variable {lib : Hashing} {tr : AuthLog} {s : Accounts} {i : ℕ} {op : CookieOp}

/-- No command answers 401 of itself. -/
theorem cookieSystem_honest {c : AuthCmd} {o : Outcome Err}
    {out : Except Err c.Reply × Accounts} (hc : CookieGround op (own i tr) c)
    (hout : (cookieSystem lib).finish i c s o = some out) (message : String) :
    out.1 ≠ .error (.unauthorized message) := by
  intro he
  rcases finish_error _ hout he with hexec | hfault
  · cases c with
    | rotateRefresh old oldJti v j seconds =>
      simp only [cookieSystem, Accounts.exec] at hexec
      split_ifs at hexec
    | dateNow | randomUUID | get | del | storeRefresh => cases hexec
    | _ => exact hc
  · cases c <;> cases hfault

theorem exec_draws_le (lib : Hashing) (c : AuthCmd) (s : Accounts) :
    s.draws ≤ (exec lib c s).2.draws := by
  cases c with
  | randomInt | randomUUID | argon2Hash | bcryptHash => exact Nat.le_succ _
  | userCreate d => exact (commit_draws _).ge
  | userUpdate id d => exact (commit_draws _).ge
  | rotateRefresh old oldJti v jti seconds =>
    simp only [Accounts.exec]
    split_ifs <;> exact Nat.le_refl _
  | _ => exact Nat.le_refl _

/-- A command that leaves every token alone, or deletes some. -/
theorem Unforked.keep_step (h : Unforked tr s) {c : AuthCmd} {o : Outcome Err}
    {out : Except Err c.Reply × Accounts} (hc : CookieGround op (own i tr) c)
    (hbrings : c.bringsAny = false) (hout : (cookieSystem lib).finish i c s o = some out)
    (htokens : ∀ u, (exec lib c s).2.keys.tokens u ⊆ s.keys.tokens u) :
    Unforked (tr ++ [(i, ⟨c, out.1⟩)]) out.2 := by
  have hhonest := cookieSystem_honest hc hout
  have hstate := finish_state _ hout
  refine h.keep hbrings ?_ (fun jti ha => ?_) (fun u => ?_) hhonest
  · rcases hstate with hs | hs
    · rw [hs]
    · rw [hs]
      exact exec_draws_le lib c s
  · obtain ⟨rfl, ha⟩ := Sigma.mk.inj ha
    obtain ⟨hexec, -⟩ := finish_ok _ hout (eq_of_heq ha)
    obtain ⟨hjti, hs⟩ := Prod.mk.inj hexec
    cases hjti
    rw [← hs]
    exact ⟨rfl, Nat.lt_succ_self _⟩
  · rcases hstate with hs | hs
    · rw [hs]
    · rw [hs]
      exact htokens u

theorem Unforked.store_step (h : Unforked tr s) {v j seconds : ℕ} {o : Outcome Err}
    {out : Except Err Unit × Accounts} (hc : CookieGround op (own i tr) (.storeRefresh v j seconds))
    (hout : (cookieSystem lib).finish i (.storeRefresh v j seconds) s o = some out) :
    Unforked (tr ++ [(i, ⟨.storeRefresh v j seconds, out.1⟩)]) out.2 := by
  have hhonest := cookieSystem_honest hc hout
  obtain ⟨-, hdrew, hnone⟩ := hc
  have htokens : ∀ u, out.2.keys.tokens u = s.keys.tokens u ∨
      out.2.keys.tokens u = s.keys.tokens u ∪ {jti | v = u ∧ j = jti} := by
    intro u
    rcases finish_state _ hout with hs | hs
    · exact .inl (by rw [hs])
    · refine .inr ?_
      rw [hs]
      exact (Keyspace.tokens_onSessions _ _ _ _).trans (Keyspace.tokens_set _ _ _ _ _ _)
  refine h.bring (v := v) (j := j) (fun u jti => by simp [AuthCmd.brings]) (mem_own.mp hdrew)
    (h.fresh hdrew hnone v) (fun jti => nofun) ?_ (fun u => ?_) (fun u jti ha => by cases ha)
    (fun u => ?_) hhonest
  · rcases finish_state _ hout with hs | hs
    · rw [hs]
    · rw [hs]
      rfl
  · rcases htokens u with hu | hu
    · rw [hu]
      exact Set.subset_union_left
    · exact hu.subset
  · rcases htokens u with hu | hu
    · rw [hu]
      exact le_self_add
    · rw [hu]
      simpa [AuthCmd.begins] using encard_union_le (s.keys.tokens u)

/-- The script swaps one token for another, or finds none and changes nothing. -/
theorem exec_rotateRefresh (lib : Hashing) (s : Accounts) (v k j seconds : ℕ) :
    (exec lib (.rotateRefresh v k v j seconds) s = (.ok false, s)) ∨
      k ∈ s.keys.tokens v ∧
        (exec lib (.rotateRefresh v k v j seconds) s).2.draws = s.draws ∧
        ∀ u, (exec lib (.rotateRefresh v k v j seconds) s).2.keys.tokens u =
          s.keys.tokens u \ {jti | v = u ∧ k = jti} ∪ {jti | v = u ∧ j = jti} := by
  simp only [Accounts.exec]
  split_ifs with hlive
  · refine .inr ⟨Keyspace.mem_tokens_of_get hlive, rfl, fun u => ?_⟩
    dsimp only
    rw [Keyspace.tokens_onSessions, Keyspace.tokens_onSessions, Keyspace.tokens_set,
      Keyspace.tokens_del]
  · exact .inl rfl

theorem Unforked.rotate_step (h : Unforked tr s) {old k v j seconds : ℕ} {o : Outcome Err}
    {out : Except Err Bool × Accounts}
    (hc : CookieGround op (own i tr) (.rotateRefresh old k v j seconds))
    (hout : (cookieSystem lib).finish i (.rotateRefresh old k v j seconds) s o = some out) :
    Unforked (tr ++ [(i, ⟨.rotateRefresh old k v j seconds, out.1⟩)]) out.2 := by
  have hhonest := cookieSystem_honest hc hout
  obtain ⟨rfl, hdrew, hnone⟩ := hc
  have hfresh := h.fresh hdrew hnone old
  have hbring := fun hdraws htokens htaken hbounded =>
    (h.bring (v := old) (j := j) (a := ⟨.rotateRefresh old k old j seconds, out.1⟩)
      (fun u jti => by simp [AuthCmd.brings]) (mem_own.mp hdrew) hfresh (fun jti => nofun) hdraws
      htokens htaken hbounded hhonest : Unforked _ out.2)
  -- nothing changes, and no one is told that the token was accepted
  have hsame : out.2 = s → out.1 ≠ .ok true →
      Unforked (tr ++ [(i, ⟨.rotateRefresh old k old j seconds, out.1⟩)]) out.2 := by
    intro hs hnot
    refine hbring (by rw [hs]) (fun u => ?_) (fun u jti ha => ?_) fun u => ?_
    · rw [hs]
      exact Set.subset_union_left
    · exfalso
      refine hnot ?_
      rcases hr : out.1 with e | b
      · rw [hr] at ha
        cases ha
      · rw [hr] at ha
        simp only [accepts, Bool.and_eq_true] at ha
        rw [ha.1.1]
    · rw [hs]
      exact le_self_add
  rcases exec_rotateRefresh lib s old k j seconds with hno | ⟨hthere, hdraws, htokens⟩
  · rcases finish_cases _ hout with ⟨-, rfl⟩ | ⟨e, -, rfl⟩ | ⟨e, -, rfl⟩
    · exact hsame (congrArg Prod.snd hno) (by simp [cookieSystem, hno])
    · exact hsame rfl nofun
    · exact hsame (congrArg Prod.snd hno) nofun
  · have hne : k ≠ j := by
      rintro rfl
      exact hfresh (h.present old k hthere)
    have hswap : out.2 = (Accounts.exec lib (.rotateRefresh old k old j seconds) s).2 →
        Unforked (tr ++ [(i, ⟨.rotateRefresh old k old j seconds, out.1⟩)]) out.2 := by
      intro hs
      refine hbring (by rw [hs, hdraws]) (fun u => ?_) (fun u jti ha => ?_) fun u => ?_
      · rw [hs, htokens]
        exact Set.union_subset_union_left _ Set.sdiff_subset
      · rcases hr : out.1 with e | b
        · rw [hr] at ha
          cases ha
        · rw [hr] at ha
          simp only [accepts, Bool.and_eq_true, decide_eq_true_eq] at ha
          obtain ⟨⟨-, rfl⟩, rfl⟩ := ha
          rw [hs, htokens]
          exact ⟨hthere, by simp [hne]⟩
      · rw [hs, htokens]
        exact (encard_swap_le fun hu => hu ▸ hthere).trans le_self_add
    rcases finish_cases _ hout with ⟨-, rfl⟩ | ⟨e, -, rfl⟩ | ⟨e, -, rfl⟩
    · exact hswap rfl
    · exact hsame rfl nofun
    · exact hswap rfl

theorem Unforked.step (h : Unforked tr s) {c : AuthCmd} {o : Outcome Err}
    {out : Except Err c.Reply × Accounts} (hc : CookieGround op (own i tr) c)
    (hout : (cookieSystem lib).finish i c s o = some out) :
    Unforked (tr ++ [(i, ⟨c, out.1⟩)]) out.2 := by
  cases c with
  | storeRefresh v j seconds => exact h.store_step hc hout
  | rotateRefresh old k v j seconds => exact h.rotate_step hc hout
  | del keys => exact h.keep_step hc rfl hout fun u => Keyspace.tokens_del_subset keys
  | get | dateNow | randomUUID => exact h.keep_step hc rfl hout fun u => Set.Subset.refl _
  | _ => exact hc.elim

theorem unforked_run {xs : List (Choice Err CookieOp ℕ)} {q : CookiePool}
    (hs : ∀ u, s.keys.tokens u = ∅) (hx : (cookieSystem lib).schedule xs ⟨s, []⟩ = some q) :
    Unforked ((cookieSystem lib).trace xs ⟨s, []⟩) q.state := by
  refine (trace_rule (A := fun _ _ _ _ => True) (.start hs) ?_ ?_ hx
    ((cookieSystem lib).allMeet_of_forall (fun _ _ _ _ => trivial) xs _)).2
  · intro tr t ms h
    exact ⟨h.drawn, h.drawer, h.brought, h.present, h.once, h.spent, h.bounded, h.honest⟩
  · intro tr t i op c k o out h hpath hout _
    exact h.step ((CookieOp.handle_ground op).path hpath) hout

/-- A command whose answer is idle changes no key. -/
theorem keys_of_idle {c : AuthCmd} {o : Outcome Err} {out : Except Err c.Reply × Accounts}
    (hout : (cookieSystem lib).finish i c s o = some out)
    (hidle : idle ⟨c, out.1⟩ = true) : out.2.keys = s.keys := by
  rcases finish_cases _ hout with ⟨-, rfl⟩ | ⟨e, -, rfl⟩ | ⟨e, -, rfl⟩
  · cases c with
    | rotateRefresh old k v j seconds =>
      simp only [cookieSystem, Accounts.exec] at hidle ⊢
      split_ifs at hidle ⊢
      · cases hidle
      · rfl
    | get | dateNow | randomUUID => rfl
    | _ => cases hidle
  · rfl
  · cases c with
    | get | dateNow | randomUUID => rfl
    | _ => cases hidle

end Step

/-! ### Rotation never forks a session -/

/-- Each process that begins a session of the user stores one token. -/
theorem begins_le {lib : Hashing} {s : Accounts} {xs : List (Choice Err CookieOp ℕ)}
    {q : CookiePool} (hx : (cookieSystem lib).schedule xs ⟨s, []⟩ = some q) (u : ℕ) :
    ((cookieSystem lib).trace xs ⟨s, []⟩).countP (fun a => a.2.1.begins u) ≤
      q.procs.countP fun x => x.1.begins u := by
  refine (onPath hx).countP_le (Q := fun a => a.1.begins u) fun i op p hi => ?_
  refine Informed.countP_le_one ((CookieOp.handle_ground op).mono fun l c hc hbegins => ?_)
    ((onPath hx).follows i op p hi)
  cases c with
  | storeRefresh v j seconds =>
    obtain ⟨hop, -, hnone⟩ := hc
    obtain rfl : v = u := of_decide_eq_true hbegins
    refine ⟨hop, fun a ha => ?_⟩
    have hother := hnone a ha
    obtain ⟨c, r⟩ := a
    cases c with
    | storeRefresh => cases hother
    | _ => rfl
  | _ => cases hbegins

theorem rotation_never_forks (lib : Hashing) {s : Accounts} {xs : List (Choice Err CookieOp ℕ)}
    {q : CookiePool} (hs : ∀ u jti, s.keys (.refresh u jti) = none)
    (hx : (cookieSystem lib).schedule xs ⟨s, []⟩ = some q) : NeverForks lib xs s q := by
  have hempty : ∀ u, s.keys.tokens u = ∅ := by
    intro u
    ext jti
    simp [Keyspace.tokens, hs]
  have h := unforked_run hempty hx
  refine ⟨h.once, fun i op message hi ys o zs p p' hxs hys hact => ?_, fun u => ?_⟩
  · obtain ⟨c, out, hout, hstate, hmem⟩ := step_mem_trace _ zs hys hact
    rw [← hxs] at hmem
    have hpath := (onPath hx).follows i op _ hi
    rcases (CookieOp.handle_unchanging op).path hpath message rfl with hidle | ⟨c', hc'⟩
    · rw [hstate]
      exact keys_of_idle hout (hidle _ (mem_own.mpr hmem))
    · exact absurd rfl (h.honest _ (mem_own.mp hc') message)
  · have hsub : {jti | q.state.keys.Holds q.state.now u jti} ⊆ q.state.keys.tokens u := by
      intro jti hholds hnone
      simp [Keyspace.Holds, Keyspace.live, hnone] at hholds
    exact ((Set.encard_le_encard hsub).trans (h.bounded u)).trans
      (Nat.cast_le.mpr (begins_le hx u))

/-- A session is begun, two requests rotate its token side by side, and everything is
revoked. -/
def twoRotations : List (Choice Err CookieOp ℕ) :=
  [.spawn (.issueAuthCookies ⟨1, "Load Test User 0", "loadtest0@test.local", .user⟩)] ++ solo 0 5 ++
    [.spawn (.rotateAuthCookies 0 ⟨1, "Load Test User 0", "loadtest0@test.local", .user⟩),
     .spawn (.rotateAuthCookies 0 ⟨1, "Load Test User 0", "loadtest0@test.local", .user⟩)] ++
    solo 1 2 ++ solo 2 3 ++ solo 1 1 ++ solo 2 2 ++ [.spawn (.revokeAllSessions 1)] ++ solo 3 2

theorem two_rotations_of_one : ∃ q,
    (cookieSystem plainText).schedule twoRotations ⟨loadTestUser, []⟩ = some q ∧
      NeverForks plainText twoRotations loadTestUser q := by
  have hrun : ((cookieSystem plainText).schedule twoRotations ⟨loadTestUser, []⟩).isSome := by
    decide +kernel
  obtain ⟨q, hq⟩ := Option.isSome_iff_exists.mp hrun
  exact ⟨q, hq, rotation_never_forks plainText (fun _ _ => rfl) hq⟩

end MovieReservation
