import Mathlib.Data.Set.Card
import MovieReservation.Accounts.Tokens
import MovieReservation.Lib.Trace
import MovieReservation.Properties.Credentials

/-! One-time passwords that are guessed side by side. Each call takes a number from the
counter of attempts before it compares, no two the same number, and the counter outlives
the code it was reset for: whatever the order, only the first so many may compare. -/

namespace MovieReservation

open Lib Lib.Prog Lib.System Accounts

/-! ### The system -/

inductive OtpCall where
  | issue (email : String)
  | verify (email code : String)

inductive OtpReply where
  | code (code : String)
  | verified (ok : Bool)

def OtpCall.handle (env : AuthEnv) : OtpCall → AuthM OtpReply
  | issue email => do
    let code ← OtpService.issue env email
    return .code code
  | verify email code => do
    let ok ← OtpService.verify env email code
    return .verified ok

def otpSystem (lib : Hashing) (env : AuthEnv) :
    System AuthCmd AuthCmd.Reply Err Accounts OtpCall ℕ OtpReply where
  exec _ := exec lib
  ready _ _ _ := true
  fault := AuthCmd.fault
  env ms s := { s with now := s.now + ms }
  handler := OtpCall.handle env

abbrev OtpPool := Pool AuthCmd AuthCmd.Reply Err Accounts OtpCall OtpReply

/-- In the run from `s` to `p`, a call of `issue` stored the code until `expiry`, and has
returned it. -/
def IssuedUntil (lib : Hashing) (env : AuthEnv) (s : Accounts) (p : OtpPool) (email code : String)
    (expiry : Time) : Prop :=
  ∃ ys ws m n k o, (otpSystem lib env).schedule ys ⟨s, []⟩ = some m ∧
    (otpSystem lib env).act (.step k o) m = some n ∧
    (otpSystem lib env).answers (.step k o) m =
      [(k, ⟨.set (.otp email) code env.otpTtlSeconds, .ok ()⟩)] ∧
    (otpSystem lib env).schedule ws n = some p ∧
    p.procs[k]? = some (.issue email, .done (.ok (.code code))) ∧
    expiry = m.state.now + env.otpTtlSeconds * 1000

/-- The call was given a number that is not too high, and goes on to compare. -/
def Compares (env : AuthEnv) (email : String) (l : AuthTrail) : Prop :=
  ∃ n : ℕ, n ≤ env.otpMaxAttempts ∧ ⟨.incrAttempts email, .ok n⟩ ∈ l

/-- The reset of the counter: by `issue`, and at the end of a call that found its code right. -/
def AuthCmd.dropsAttempts (email : String) : AuthCmd → Bool
  | .del keys => .otpAttempts email ∈ keys
  | .resetAttempts e => e = email
  | _ => false

/-- Only a call that compares answers whether the code was right. -/
theorem compares_of_answer {env : AuthEnv} {email : String} (code : String) :
    Yields (fun l r => ∀ ok, r = .ok ok → Compares env email l) []
      (OtpService.verify env email code) := by
  unfold OtpService.verify
  refine yields_issue_bind nofun fun stored => ?_
  cases stored with
  | none => exact fun _ h => by cases h
  | some stored =>
    refine yields_issue_bind nofun fun attempts => ?_
    refine yields_issue_bind nofun fun _ => ?_
    split_ifs with hmany hwrong
    · exact yields_issue_bind nofun fun _ => fun _ h => by cases h
    · exact fun _ _ => ⟨attempts, Nat.le_of_not_lt hmany, by simp⟩
    · refine yields_issue_bind nofun fun _ => yields_issue_bind nofun fun _ => ?_
      exact fun _ _ => ⟨attempts, Nat.le_of_not_lt hmany, by simp⟩

/-! ### What the calls do to the counter -/

/-- The commands of the calls. -/
def OtpCmd (env : AuthEnv) : AuthCmd → Prop
  | .get _ | .randomInt _ _ | .resetAttempts _ | .incrAttempts _ => True
  | .set k _ _ => ∀ email, k ≠ .otpAttempts email
  | .del _ => True
  | .expireAttempts _ seconds => seconds = env.otpTtlSeconds
  | _ => False

theorem OtpCall.only (env : AuthEnv) (op : OtpCall) : Only (OtpCmd env) (op.handle env) := by
  cases op with
  | issue email =>
    refine Only.bind (issueOtp_only trivial trivial (fun _ => ?_) trivial ?_) fun _ => trivial
    · simp [OtpCmd]
    · simp [OtpCmd]
  | verify email code =>
    refine Only.bind (verifyCode_only ?_ ?_ ?_ ?_ ?_ code) fun _ => trivial
    · trivial
    · trivial
    · exact rfl
    · trivial
    · trivial

/-- From now on the counter does not expire before `expiry`, and may not even be set to. -/
structure Lasting (env : AuthEnv) (email : String) (expiry : Time) (s : Accounts) : Prop where
  near : expiry ≤ s.now + env.otpTtlSeconds * 1000
  lasts : ∀ e, s.keys (.otpAttempts email) = some e → ∀ t ∈ e.expiresAt, expiry ≤ t

section Commands
variable {lib : Hashing} {env : AuthEnv} {email : String} {expiry : Time} {s : Accounts}
  {c : AuthCmd}

theorem exec_leavesAttempts (h : OtpCmd env c) (hincr : c ≠ .incrAttempts email)
    (hexpire : ∀ seconds, c ≠ .expireAttempts email seconds)
    (hdel : c.dropsAttempts email = false) :
    (exec lib c s).2.keys (.otpAttempts email) = s.keys (.otpAttempts email) := by
  refine exec_key fun hk => ?_
  cases c with
  | set k v seconds => exact h email hk.symm
  | del keys => exact of_decide_eq_false hdel hk
  | resetAttempts e =>
    cases hk
    exact of_decide_eq_false hdel rfl
  | incrAttempts e =>
    cases hk
    exact hincr rfl
  | expireAttempts e seconds =>
    cases hk
    exact hexpire seconds rfl
  | get k => exact hk
  | randomInt low high => exact hk
  | _ => exact h

theorem exec_dropsAttempts (h : c.dropsAttempts email = true) :
    (exec lib c s).2.keys (.otpAttempts email) = none := by
  cases c with
  | del keys => exact if_pos (of_decide_eq_true h)
  | resetAttempts e =>
    obtain rfl : e = email := of_decide_eq_true h
    exact if_pos (List.mem_singleton_self _)
  | _ => cases h

/-- The entry of a counter that has not expired. -/
theorem Lasting.live (h : Lasting env email expiry s) (hnow : s.now < expiry) :
    s.keys.live s.now (.otpAttempts email) = s.keys (.otpAttempts email) := by
  cases hkey : s.keys (.otpAttempts email) with
  | none => rw [Keyspace.live, hkey]; rfl
  | some e =>
    refine Option.filter_eq_some_iff.mpr ⟨hkey, ?_⟩
    cases he : e.expiresAt with
    | none => rfl
    | some t =>
      have hle := h.lasts e hkey t he
      have hlt : ¬ t ≤ s.now := Int.not_le.mpr (Int.lt_of_lt_of_le hnow hle)
      simpa using hlt

/-- `INCR` makes the counter, or leaves its expiry alone. -/
theorem Lasting.incr (h : Lasting env email expiry s) {e : Entry ℕ}
    (he : (exec lib (.incrAttempts email) s).2.keys (.otpAttempts email) = some e) :
    ∀ t ∈ e.expiresAt, expiry ≤ t := by
  have hput : (exec lib (.incrAttempts email) s).2.keys (.otpAttempts email) =
      some { (s.keys.live s.now (.otpAttempts email)).getD ⟨0, none⟩ with
        value := ((s.keys.live s.now (.otpAttempts email)).getD ⟨0, none⟩).value + 1 } :=
    Function.update_self ..
  intro t ht
  rw [hput, Option.some.injEq] at he
  subst he
  cases hlive : s.keys.live s.now (.otpAttempts email) with
  | none =>
    rw [hlive] at ht
    cases ht
  | some e₀ =>
    rw [hlive] at ht
    exact h.lasts e₀ (Option.filter_eq_some_iff.mp hlive).1 t ht

/-- Later calls put the expiry of the counter off, each by as much as the code was given. -/
theorem Lasting.exec (h : Lasting env email expiry s) (hc : OtpCmd env c) :
    Lasting env email expiry (exec lib c s).2 := by
  refine ⟨by rw [exec_now]; exact h.near, fun e he t ht => ?_⟩
  by_cases hincr : c = .incrAttempts email
  · subst hincr
    exact h.incr he t ht
  by_cases hexpire : ∃ seconds, c = .expireAttempts email seconds
  · obtain ⟨seconds, rfl⟩ := hexpire
    obtain rfl : seconds = env.otpTtlSeconds := hc
    have hput : (Accounts.exec lib (.expireAttempts email env.otpTtlSeconds) s).2.keys
        (.otpAttempts email) = (s.keys.live s.now (.otpAttempts email)).map fun e =>
          { e with expiresAt := some (s.now + env.otpTtlSeconds * 1000) } := Function.update_self ..
    rw [hput] at he
    obtain ⟨e₀, -, rfl⟩ := Option.map_eq_some_iff.mp he
    rw [← Option.some.inj ht]
    exact h.near
  by_cases hdel : c.dropsAttempts email = true
  · rw [exec_dropsAttempts hdel] at he
    cases he
  · rw [Bool.not_eq_true] at hdel
    rw [exec_leavesAttempts hc hincr (fun seconds he => hexpire ⟨seconds, he⟩) hdel] at he
    exact h.lasts e he t ht

theorem Lasting.advance (h : Lasting env email expiry s) (ms : ℕ) :
    Lasting env email expiry { s with now := s.now + ms } := by
  refine ⟨Int.le_trans h.near ?_, h.lasts⟩
  exact Int.add_le_add_right (Int.le_add_of_nonneg_right (Int.natCast_nonneg ms)) _

end Commands

/-! ### The numbers that were given out -/

/-- The number that an answer gives a call for this e-mail. -/
def numberOf (email : String) : ℕ × Answer AuthCmd AuthCmd.Reply Err → Option (ℕ × ℕ)
  | (i, ⟨.incrAttempts e, .ok n⟩) => if e = email then some (i, n) else none
  | _ => none

def numbers (email : String) (tr : AuthLog) : List (ℕ × ℕ) := tr.filterMap (numberOf email)

/-- Those that let a call compare. -/
def lowNumbers (env : AuthEnv) (email : String) (tr : AuthLog) : List (ℕ × ℕ) :=
  (numbers email tr).filter fun x => x.2 ≤ env.otpMaxAttempts

/-- No number was given out twice, and the counter stands at the last. -/
structure Numbered (email : String) (tr : AuthLog) (s : Accounts) : Prop where
  nodup : ((numbers email tr).map Prod.snd).Nodup
  within : ∀ x ∈ numbers email tr, 1 ≤ x.2 ∧
    ∃ e, s.keys (.otpAttempts email) = some e ∧ x.2 ≤ e.value

section Numbers
variable {lib : Hashing} {env : AuthEnv} {email : String} {expiry : Time} {s s' : Accounts}
  {c : AuthCmd} {tr : AuthLog} {i : ℕ}

theorem numberOf_iff {a : Answer AuthCmd AuthCmd.Reply Err} {x : ℕ × ℕ} :
    numberOf email (i, a) = some x ↔ a = ⟨.incrAttempts email, .ok x.2⟩ ∧ i = x.1 := by
  unfold numberOf
  split
  next j e n heq =>
    obtain ⟨rfl, rfl⟩ := Prod.mk.inj heq
    split_ifs with he
    · subst he
      constructor
      · rintro h
        cases h
        exact ⟨rfl, rfl⟩
      · rintro ⟨ha, rfl⟩
        cases ha
        rfl
    · refine iff_of_false nofun ?_
      rintro ⟨ha, -⟩
      cases ha
      exact he rfl
  next hnot =>
    refine iff_of_false nofun ?_
    rintro ⟨rfl, -⟩
    exact hnot i email x.2 rfl

theorem mem_numbers {x : ℕ × ℕ} :
    x ∈ numbers email tr ↔ (x.1, ⟨.incrAttempts email, .ok x.2⟩) ∈ tr := by
  unfold numbers
  rw [List.mem_filterMap]
  constructor
  · rintro ⟨⟨j, a⟩, hmem, hx⟩
    obtain ⟨rfl, rfl⟩ := numberOf_iff.mp hx
    exact hmem
  · exact fun hmem => ⟨_, hmem, numberOf_iff.mpr ⟨rfl, rfl⟩⟩

theorem numbers_snoc_of_none {a : ℕ × Answer AuthCmd AuthCmd.Reply Err}
    (h : numberOf email a = none) : numbers email (tr ++ [a]) = numbers email tr := by
  simp [numbers, List.filterMap_append, h]

/-- The counter does not go back. -/
theorem Numbered.mono (h : Numbered email tr s)
    (hkey : ∀ e, s.keys (.otpAttempts email) = some e →
      ∃ e', s'.keys (.otpAttempts email) = some e' ∧ e.value ≤ e'.value) :
    Numbered email tr s' := by
  refine ⟨h.nodup, fun x hx => ?_⟩
  obtain ⟨hpos, e, he, hle⟩ := h.within x hx
  obtain ⟨e', he', hmore⟩ := hkey e he
  exact ⟨hpos, e', he', hle.trans hmore⟩

variable (lib) in
/-- `INCR` answers with more than the counter held. -/
theorem exec_incrAttempts (hlast : Lasting env email expiry s) (hnow : s.now < expiry) :
    ∃ e, (exec lib (.incrAttempts email) s).2.keys (.otpAttempts email) = some e ∧
      (exec lib (.incrAttempts email) s).1 = .ok e.value ∧ 1 ≤ e.value ∧
      ∀ e₀, s.keys (.otpAttempts email) = some e₀ → e₀.value < e.value := by
  refine ⟨_, Function.update_self .., rfl, Nat.le_add_left 1 _, fun e₀ he₀ => ?_⟩
  dsimp only
  rw [hlast.live hnow, he₀]
  exact Nat.lt_succ_self _

theorem exec_counts (hlast : Lasting env email expiry s) (hnow : s.now < expiry)
    (hc : OtpCmd env c) (hkept : c.dropsAttempts email = false) :
    ∀ e, s.keys (.otpAttempts email) = some e →
      ∃ e', (exec lib c s).2.keys (.otpAttempts email) = some e' ∧ e.value ≤ e'.value := by
  intro e he
  by_cases hincr : c = .incrAttempts email
  · subst hincr
    obtain ⟨e', he', -, -, hmore⟩ := exec_incrAttempts lib hlast hnow
    exact ⟨e', he', Nat.le_of_lt (hmore e he)⟩
  by_cases hexpire : ∃ seconds, c = .expireAttempts email seconds
  · obtain ⟨seconds, rfl⟩ := hexpire
    have hput : (exec lib (.expireAttempts email seconds) s).2.keys (.otpAttempts email) =
        (s.keys.live s.now (.otpAttempts email)).map fun e =>
          { e with expiresAt := some (s.now + seconds * 1000) } := Function.update_self ..
    rw [hput, hlast.live hnow, he]
    exact ⟨_, rfl, Nat.le_refl _⟩
  · rw [exec_leavesAttempts hc hincr (fun seconds he => hexpire ⟨seconds, he⟩) hkept]
    exact ⟨e, he, Nat.le_refl _⟩

theorem Numbered.step {o : Outcome Err} {out : Except Err c.Reply × Accounts}
    (h : Numbered email tr s) (hlast : Lasting env email expiry s) (hnow : s.now < expiry)
    (hc : OtpCmd env c) (hkept : (∀ e, o ≠ .lost e) → c.dropsAttempts email = false)
    (hout : (otpSystem lib env).finish i c s o = some out) :
    Numbered email (tr ++ [(i, ⟨c, out.1⟩)]) out.2 := by
  have hold : Numbered email tr out.2 := by
    rcases finish_cases _ hout with ⟨rfl, rfl⟩ | ⟨e, rfl, rfl⟩ | ⟨e, rfl, rfl⟩
    · exact h.mono (exec_counts hlast hnow hc (hkept nofun))
    · exact h
    · exact h.mono (exec_counts hlast hnow hc (hkept nofun))
  cases hnumber : numberOf email (i, ⟨c, out.1⟩) with
  | none =>
    have hsame : numbers email (tr ++ [(i, ⟨c, out.1⟩)]) = numbers email tr :=
      numbers_snoc_of_none hnumber
    exact ⟨by rw [hsame]; exact hold.nodup, by rw [hsame]; exact hold.within⟩
  | some x =>
    obtain ⟨ha, rfl⟩ := numberOf_iff.mp hnumber
    obtain ⟨rfl, hr⟩ := Sigma.mk.inj ha
    obtain ⟨hexec, -⟩ := finish_ok _ hout (eq_of_heq hr)
    obtain ⟨e, he, hanswer, hpos, hmore⟩ := exec_incrAttempts lib hlast hnow
    have hvalue : e.value = x.2 := by
      have hok : (exec lib (.incrAttempts email) s).1 = .ok x.2 := (Prod.mk.inj hexec).1
      exact Except.ok.inj (hanswer.symm.trans hok)
    have hstate : out.2.keys (.otpAttempts email) = some e := by
      rw [← he]
      exact congrArg (fun t : Accounts => t.keys _) (Prod.mk.inj hexec).2.symm
    have hsnoc : numbers email (tr ++ [(x.1, ⟨.incrAttempts email, out.1⟩)]) =
        numbers email tr ++ [x] := by
      simp [numbers, List.filterMap_append, hnumber]
    refine ⟨?_, fun y hy => ?_⟩
    · rw [hsnoc, List.map_append]
      refine List.nodup_append.mpr ⟨h.nodup, List.nodup_singleton _, fun n hn n' hn' => ?_⟩
      obtain ⟨y, hy, rfl⟩ := List.mem_map.mp hn
      obtain ⟨-, e₀, he₀, hle⟩ := h.within y hy
      rw [List.mem_singleton.mp hn', ← hvalue]
      exact Nat.ne_of_lt (Nat.lt_of_le_of_lt hle (hmore e₀ he₀))
    · rw [hsnoc] at hy
      rcases List.mem_append.mp hy with hy | hy
      · exact hold.within y hy
      · rw [List.mem_singleton.mp hy, ← hvalue]
        exact ⟨hpos, e, hstate, Nat.le_refl _⟩

theorem Numbered.length_low (h : Numbered email tr s) :
    (lowNumbers env email tr).length ≤ env.otpMaxAttempts := by
  have hnodup : ((lowNumbers env email tr).map Prod.snd).Nodup :=
    h.nodup.sublist (List.filter_sublist.map Prod.snd)
  have hinto : (lowNumbers env email tr).map Prod.snd ⊆ List.range' 1 env.otpMaxAttempts := by
    intro n hn
    obtain ⟨x, hx, rfl⟩ := List.mem_map.mp hn
    obtain ⟨hx, hle⟩ := List.mem_filter.mp hx
    have hpos := (h.within x hx).1
    have hle := of_decide_eq_true hle
    exact List.mem_range'_1.mpr ⟨hpos, by omega⟩
  have hlength := (hnodup.subperm hinto).length_le
  rwa [List.length_map, List.length_range'] at hlength

/-- So few calls get a number that is not too high. -/
theorem Numbered.compares_le (h : Numbered email tr s) :
    {i | Compares env email (own i tr)}.encard ≤ env.otpMaxAttempts := by
  have hsubset : {i | Compares env email (own i tr)} ⊆
      ↑((lowNumbers env email tr).map Prod.fst).toFinset := by
    rintro i ⟨n, hn, hmem⟩
    have hx : (i, n) ∈ lowNumbers env email tr :=
      List.mem_filter.mpr ⟨mem_numbers.mpr (mem_own.mp hmem), decide_eq_true hn⟩
    simpa using ⟨n, hx⟩
  calc {i | Compares env email (own i tr)}.encard
      ≤ (↑((lowNumbers env email tr).map Prod.fst).toFinset : Set ℕ).encard :=
        Set.encard_le_encard hsubset
    _ = ((lowNumbers env email tr).map Prod.fst).toFinset.card :=
        Set.encard_coe_eq_coe_finsetCard _
    _ ≤ env.otpMaxAttempts := by
        refine Nat.cast_le.mpr ((List.toFinset_card_le _).trans ?_)
        rw [List.length_map]
        exact h.length_low

end Numbers

/-! ### Every run -/

section Runs
variable {lib : Hashing} {env : AuthEnv} {email code : String} {expiry : Time} {s : Accounts}
  {tr : AuthLog} {p q : OtpPool} {xs : List (Choice Err OtpCall ℕ)}

/-- What the commands of the calls keep, and the passing of time, a run keeps. -/
theorem otp_keeps {I : Accounts → Prop} (hexec : ∀ c t, OtpCmd env c → I t → I (exec lib c t).2)
    (hadvance : ∀ (t : Accounts) (ms : ℕ), I t → I { t with now := t.now + ms })
    (hpath : OnPath (otpSystem lib env) tr p) (hI : I p.state)
    (hx : (otpSystem lib env).schedule xs p = some q) :
    OnPath (otpSystem lib env) (tr ++ (otpSystem lib env).trace xs p) q ∧ I q.state := by
  have hact : ∀ (tr : AuthLog) (p : OtpPool) x (q : OtpPool), OnPath (otpSystem lib env) tr p →
      I p.state → Meets (fun _ _ _ _ => True) x p → (otpSystem lib env).act x p = some q →
        I q.state := by
    intro tr p x q hpath hI _ hq
    cases x with
    | spawn op =>
      cases hq
      exact hI
    | env ms =>
      cases hq
      exact hadvance p.state ms hI
    | step i o =>
      obtain ⟨op, c, k, out, hi, hout, rfl, -⟩ := act_step _ hq
      have hc : OtpCmd env c := ((hpath.follows i op _ hi).only_rest (op.only env)).1
      rcases finish_state _ hout with hs | hs
      · rwa [hs]
      · rw [hs]
        exact hexec c p.state hc hI
  have hall := (otpSystem lib env).allMeet_of_forall (A := fun _ _ _ _ => True)
    (fun _ _ _ _ => trivial) xs p
  exact stages_rule (I := fun _ p => I p.state) hact xs hpath hI hx (hall.stages _ tr)

/-- As long as nobody drops the counter and the code has not expired, the calls are numbered. -/
theorem otp_numbered (hpath : OnPath (otpSystem lib env) tr p)
    (hlast : Lasting env email expiry p.state)
    (hx : (otpSystem lib env).schedule xs p = some q)
    (hkept : (otpSystem lib env).AllMeet (fun _ _ c _ => c.dropsAttempts email = false) xs p)
    (hnow : q.state.now < expiry) :
    Numbered email ((otpSystem lib env).trace xs p) q.state := by
  have hact : ∀ (tr' : AuthLog) (p : OtpPool) x (q : OtpPool),
      OnPath (otpSystem lib env) tr' p →
      (∃ since, tr' = tr ++ since ∧ Lasting env email expiry p.state ∧
        (p.state.now < expiry → Numbered email since p.state)) →
      Meets (fun _ _ c _ => c.dropsAttempts email = false) x p →
      (otpSystem lib env).act x p = some q →
      ∃ since, tr' ++ (otpSystem lib env).answers x p = tr ++ since ∧
        Lasting env email expiry q.state ∧
          (q.state.now < expiry → Numbered email since q.state) := by
    rintro tr' p x q hpath ⟨since, rfl, hlast, hnumbered⟩ hmeets hq
    cases x with
    | spawn op =>
      cases hq
      exact ⟨since, by simp [answers], hlast, hnumbered⟩
    | env ms =>
      cases hq
      refine ⟨since, by simp [answers], hlast.advance ms, fun hnow => ?_⟩
      have hbefore : p.state.now < expiry :=
        Int.lt_of_le_of_lt (Int.le_add_of_nonneg_right (Int.natCast_nonneg ms)) hnow
      exact ⟨(hnumbered hbefore).nodup, (hnumbered hbefore).within⟩
    | step i o =>
      obtain ⟨op, c, k, out, hi, hout, rfl, hans⟩ := act_step _ hq
      have hc : OtpCmd env c := ((hpath.follows i op _ hi).only_rest (op.only env)).1
      have hstate := finish_state _ hout
      have hnow : out.2.now = p.state.now := by
        rcases hstate with hs | hs
        · rw [hs]
        · rw [hs]
          exact exec_now
      refine ⟨since ++ [(i, ⟨c, out.1⟩)], by rw [hans, List.append_assoc], ?_, fun hlater => ?_⟩
      · rcases hstate with hs | hs
        · rwa [hs]
        · rw [hs]
          exact hlast.exec hc
      · have hbefore : p.state.now < expiry := hnow ▸ hlater
        refine (hnumbered hbefore).step hlast hbefore hc (fun hcarried => ?_) hout
        cases o with
        | lost e => exact absurd rfl (hcarried e)
        | answered => simpa only [Meets, Issues, hi] using hmeets
        | unacknowledged e => simpa only [Meets, Issues, hi] using hmeets
  have hstart : Numbered email [] p.state :=
    ⟨List.nodup_nil, fun x hx => absurd hx List.not_mem_nil⟩
  obtain ⟨-, since, hsince, -, hnumbered⟩ := stages_rule hact xs hpath
    ⟨[], (List.append_nil tr).symm, hlast, fun _ => hstart⟩ hx (hkept.stages _ tr)
  rw [List.append_cancel_left hsince]
  exact hnumbered hnow

/-- What a call of `issue` was told when it returns. -/
def IssueTrail (env : AuthEnv) (email : String) (l : AuthTrail) : Prop :=
  ∃ code x y, l = [⟨.get (.otpCooldown email), x⟩, ⟨.randomInt 100000 999999, y⟩,
    ⟨.set (.otp email) code env.otpTtlSeconds, .ok ()⟩, ⟨.resetAttempts email, .ok ()⟩,
    ⟨.set (.otpCooldown email) () env.otpResendCooldownSeconds, .ok ()⟩]

theorem issue_trail (env : AuthEnv) (email : String) :
    Yields (fun l r => ∀ code, r = .ok code → IssueTrail env email l) []
      (OtpService.issue env email) := by
  unfold OtpService.issue OtpService.gen
  refine yields_issue_bind nofun fun coolingDown => ?_
  split_ifs
  · exact fun _ h => by cases h
  rw [bind_assoc]
  refine yields_issue_bind nofun fun n => ?_
  refine yields_issue_bind nofun fun _ => ?_
  refine yields_issue_bind nofun fun _ => ?_
  refine yields_issue_bind nofun fun _ => ?_
  exact fun _ _ => ⟨_, _, _, rfl⟩

/-- `issue` drops the counter after it has stored the code. -/
theorem IssueTrail.reset_mem {l₁ l₂ : AuthTrail} {seconds : ℕ}
    (h : IssueTrail env email (l₁ ++ ⟨.set (.otp email) code seconds, .ok ()⟩ :: l₂)) :
    ⟨.resetAttempts email, .ok ()⟩ ∈ l₂ := by
  obtain ⟨code', x, y, hl⟩ := h
  rcases l₁ with _ | ⟨a, _ | ⟨b, _ | ⟨c, _ | ⟨d, _ | ⟨e, l₁⟩⟩⟩⟩⟩ <;> simp_all

theorem otp_now_le (hpath : OnPath (otpSystem lib env) tr p)
    (hx : (otpSystem lib env).schedule xs p = some q) : p.state.now ≤ q.state.now := by
  refine (otp_keeps (I := fun t => p.state.now ≤ t.now) (fun c t _ ht => ?_) (fun t ms ht => ?_)
    hpath (Int.le_refl _) hx).2
  · rw [exec_now]
    exact ht
  · exact Int.le_trans ht (Int.le_add_of_nonneg_right (Int.natCast_nonneg ms))

theorem schedule_snoc {x : Choice Err OtpCall ℕ} {m : OtpPool}
    (hx : (otpSystem lib env).schedule xs p = some m)
    (hact : (otpSystem lib env).act x m = some q) :
    (otpSystem lib env).schedule (xs ++ [x]) p = some q := by
  rw [schedule_append, hx]
  simp [schedule, hact]

/-- A counter that is dropped now lasts as long as what is stored by now for as long. -/
theorem lasting_of_reset (h : expiry ≤ s.now + env.otpTtlSeconds * 1000) :
    Lasting env email expiry (exec lib (.resetAttempts email) s).2 := by
  refine ⟨by rw [exec_now]; exact h, fun e he => ?_⟩
  rw [exec_dropsAttempts (by simp [AuthCmd.dropsAttempts])] at he
  cases he

/-- When `issue` has returned, the counter lasts as long as the code it stored. -/
theorem IssuedUntil.lasting (h : IssuedUntil lib env s p email code expiry) :
    ∃ tr, OnPath (otpSystem lib env) tr p ∧ Lasting env email expiry p.state := by
  obtain ⟨ys, ws, m, n, k, o, hys, hact, hset, hws, hk, rfl⟩ := h
  have hn := schedule_snoc hys hact
  have hp : (otpSystem lib env).schedule (ys ++ [.step k o] ++ ws) ⟨s, []⟩ = some p := by
    rw [schedule_append, hn]
    exact hws
  -- the call was told something before it stored the code, and what it was told since
  have hsplit : own k ((otpSystem lib env).trace (ys ++ [.step k o] ++ ws) ⟨s, []⟩) =
      own k ((otpSystem lib env).trace ys ⟨s, []⟩) ++
        ⟨.set (.otp email) code env.otpTtlSeconds, .ok ()⟩ ::
          own k ((otpSystem lib env).trace ws n) := by
    rw [trace_append _ _ _ hn, trace_append _ _ _ hys]
    simp [trace, hact, hset, own]
  obtain ⟨code', l₁, l₂, hl, hissue, hreturn⟩ := ((onPath hp).follows k _ _ hk).bind_ok
  obtain ⟨rfl, -⟩ := hreturn.of_done
  have htrail := (issue_trail env email).path hissue code' rfl
  rw [List.nil_append, ← List.append_nil l₁, ← hl, hsplit] at htrail
  obtain ⟨l₃, l₄, hdel⟩ := List.append_of_mem htrail.reset_mem
  obtain ⟨vs, o', us, m', n', rfl, hvs, hact', hus, -, hans, -⟩ := split_at_answer _ k ws hws hdel
  obtain ⟨op, k', -, -, -, hstate⟩ := answered_step _ hans hact'
  have hstate : n'.state = (exec lib (.resetAttempts email) m'.state).2 := hstate
  have htime : m.state.now ≤ m'.state.now := by
    have hm' : (otpSystem lib env).schedule (.step k o :: vs) m = some m' := by
      rw [schedule, hact]
      exact hvs
    exact otp_now_le (onPath hys) hm'
  have hn' : (otpSystem lib env).schedule (ys ++ [.step k o] ++ vs ++ [.step k o']) ⟨s, []⟩ =
      some n' := by
    refine schedule_snoc ?_ hact'
    rw [schedule_append, hn]
    exact hvs
  have hdropped : Lasting env email (m.state.now + env.otpTtlSeconds * 1000) n'.state := by
    rw [hstate]
    exact lasting_of_reset (Int.add_le_add_right htime _)
  have hlater := otp_keeps (fun _ _ hc ht => ht.exec hc) (fun _ ms ht => ht.advance ms)
    (onPath hn') hdropped hus
  exact ⟨_, hlater⟩

end Runs

/-- Once a code was issued, and until it expires or another call drops the counter, no more
calls than are allowed compare with what is stored, whatever the order of all their commands;
and the counter does not expire before the code. An `INCR` that fails makes its call fail: that
`exec` reports it without rejecting, and the call then compares, is left out. -/
theorem guesses_bounded (lib : Hashing) (env : AuthEnv) (s : Accounts) (email code : String)
    (expiry : Time) (zs : List (Choice Err OtpCall ℕ)) (p q : OtpPool)
    (hissued : IssuedUntil lib env s p email code expiry)
    (hzs : (otpSystem lib env).schedule zs p = some q)
    (hkept : (otpSystem lib env).AllMeet (fun _ _ c _ => c.dropsAttempts email = false) zs p)
    (hbefore : q.state.now < expiry) :
    {i | Compares env email (own i ((otpSystem lib env).trace zs p))}.encard ≤
        env.otpMaxAttempts ∧
      ∀ e, q.state.keys (.otpAttempts email) = some e → ∀ t ∈ e.expiresAt, expiry ≤ t := by
  obtain ⟨tr, hpath, hlast⟩ := hissued.lasting
  have hend := (otp_keeps (fun _ _ hc ht => ht.exec hc) (fun _ ms ht => ht.advance ms)
    hpath hlast hzs).2
  exact ⟨(otp_numbered hpath hlast hzs hkept hbefore).compares_le, hend.lasts⟩

def twoAttempts : AuthEnv := ⟨600, 2, 60⟩

/-- Four guesses: all have read the code before the first of them is counted. -/
def fourGuesses : List (Choice Err OtpCall ℕ) :=
  List.replicate 4 (.spawn (.verify "ada@example.org" "111111")) ++ solo 1 1 ++ solo 2 1 ++
    solo 3 1 ++ solo 4 1 ++ solo 2 2 ++ solo 4 1 ++ [.env 1000] ++ solo 1 3 ++ solo 3 3 ++ solo 4 1

/-- The code is issued to somebody who is signing up. -/
def codeIssued : List (Choice Err OtpCall ℕ) := [.spawn (.issue "ada@example.org")] ++ solo 0 5

theorem two_of_four_guesses : ∃ p q,
    (otpSystem plainText twoAttempts).schedule codeIssued ⟨Accounts.initial 0 fun _ => 0, []⟩ =
      some p ∧
    (otpSystem plainText twoAttempts).schedule fourGuesses p = some q ∧
    {i | Compares twoAttempts "ada@example.org"
      (own i ((otpSystem plainText twoAttempts).trace fourGuesses p))}.encard ≤ 2 := by
  obtain ⟨p, hp, hissued⟩ : ∃ p, (otpSystem plainText twoAttempts).schedule codeIssued
      ⟨Accounts.initial 0 fun _ => 0, []⟩ = some p ∧
      IssuedUntil plainText twoAttempts (Accounts.initial 0 fun _ => 0) p "ada@example.org"
        (toString 100000) 600000 :=
    ⟨_, rfl, [.spawn (.issue "ada@example.org")] ++ solo 0 2, solo 0 2, _, _, 0, .answered,
      rfl, rfl, rfl, rfl, rfl, rfl⟩
  have hruns : ((otpSystem plainText twoAttempts).schedule codeIssued
      ⟨Accounts.initial 0 fun _ => 0, []⟩).all (fun p =>
        (otpSystem plainText twoAttempts).AllMeet
          (fun _ _ c _ => c.dropsAttempts "ada@example.org" = false) fourGuesses p &&
        ((otpSystem plainText twoAttempts).schedule fourGuesses p).any fun q =>
          q.state.now < 600000) = true := by decide +kernel
  rw [hp, Option.all_some, Bool.and_eq_true] at hruns
  obtain ⟨q, hq, hnow⟩ := (Option.any_eq_true _ _).mp hruns.2
  exact ⟨p, q, hp, hq, (guesses_bounded plainText twoAttempts _ "ada@example.org" _ 600000
    fourGuesses p q hissued hq (of_decide_eq_true hruns.1) (of_decide_eq_true hnow)).1⟩

end MovieReservation
