import Mathlib.Data.Finset.Card
import MovieReservation.Services.Sales
import MovieReservation.Services.TestMode

/-! Calls of `recordFailure` for one user side by side. Each adds its failure before it
counts, and none removes a failure that is less than a day older than the newest, so the
call that adds last counts them all; unless the key expires in between, which a call
extends only after it has added to it. -/

namespace MovieReservation

open Lib Lib.Prog Lib.System PaymentAbuseService

variable {σ A : Type}

/-! ### The system -/

/-- A call reads the time from the clock of its own server. -/
def World.execAt (api : StripeApi σ A) (stamp : ℕ → Time) (i : ℕ) :
    (c : Cmd) → World σ → Except Err c.Reply × World σ
  | .dateNow, w => (.ok (stamp i), w)
  | c, w => w.exec api c

/-- The moves of the environment let the time pass by which keys expire. -/
def abuseSystem (api : StripeApi σ A) (u : ℕ) (stamp : ℕ → Time) :
    System Cmd Cmd.Reply Err (World σ) Unit ℕ Unit where
  exec := World.execAt api stamp
  ready _ _ _ := true
  fault := Cmd.fault
  env ms w := { w with now := w.now + ms }
  handler _ := recordFailure u

/-- The failures of a user that Redis holds. -/
def World.failures (w : World σ) (u : ℕ) : SortedSet := (w.redis.paymentFailures u).live w.now

/-- The key does not expire, or holds no failure after `t`. -/
def World.KeepsFailures (w : World σ) (u : ℕ) (t : Time) (ms : ℕ) : Prop :=
  (∀ x ∈ (w.redis.paymentFailures u).expiresAt, w.now + ms < x) ∨
    ∀ score ∈ (w.failures u).scores, score ≤ t

instance (w : World σ) (u : ℕ) (t : Time) (ms : ℕ) : Decidable (w.KeepsFailures u t ms) :=
  inferInstanceAs (Decidable (_ ∨ _))

/-- Whatever else happens, failures after `t` do not expire. -/
def FailuresStay (u : ℕ) (t : Time) (_ : Log) :
    Choice Err Unit ℕ → Pool Cmd Cmd.Reply Err (World σ) Unit Unit → Prop
  | .env ms, p => p.state.KeepsFailures u t ms
  | _, _ => True

instance decidableFailuresStay (u : ℕ) (t : Time) (tr : Log) :
    ∀ (x : Choice Err Unit ℕ) (p : Pool Cmd Cmd.Reply Err (World σ) Unit Unit),
      Decidable (FailuresStay u t tr x p)
  | .env _, _ => inferInstanceAs (Decidable (World.KeepsFailures _ _ _ _))
  | .spawn _, _ | .step _ _, _ => inferInstanceAs (Decidable True)

/-- The latest of the first `n` times. -/
def Newest (stamp : ℕ → Time) (n : ℕ) (m : Time) : Prop :=
  (∃ i < n, stamp i = m) ∧ ∀ i < n, stamp i ≤ m

instance (stamp : ℕ → Time) (n : ℕ) (m : Time) : Decidable (Newest stamp n m) :=
  inferInstanceAs (Decidable (_ ∧ _))

/-- Those that lie in the day before `m`. -/
def withinDay (stamp : ℕ → Time) (n : ℕ) (m : Time) : Finset ℕ :=
  (Finset.range n).filter fun i => m - windowMs < stamp i ∧ stamp i ≤ m

/-! ### What a call knows -/

/-- The commands of a call, with what it was told before it issued them. -/
def AbuseKnows (u : ℕ) (l : Trail) : Cmd → Prop
  | .dateNow => True
  | .zaddFailure v t => v = u ∧ ⟨.dateNow, .ok t⟩ ∈ l ∧ ∀ n : ℕ, ⟨.zcardFailures u, .ok n⟩ ∉ l
  | .pexpireFailures v ms => v = u ∧ ms = windowMs
  | .zremrangeFailures v high =>
    v = u ∧ ∃ t : Time, ⟨.dateNow, .ok t⟩ ∈ l ∧ high = t - windowMs
  | .zcardFailures v | .setLockout v _ => v = u
  | _ => False

/-- What a call has done when it returns. -/
def Recorded (u : ℕ) (l : Trail) : Except Err Unit → Prop
  | .error _ => True
  | .ok _ => (∃ t : Time, ⟨.zaddFailure u t, .ok ()⟩ ∈ l) ∧
    ∃ n : ℕ, ⟨.zcardFailures u, .ok n⟩ ∈ l ∧
      (failureThreshold ≤ n → ∃ ms : Time, ⟨.setLockout u ms, .ok ()⟩ ∈ l)

theorem recordFailure_knows (u : ℕ) : Informed (AbuseKnows u) [] (recordFailure u) := by
  unfold recordFailure
  refine informed_issue_bind trivial fun t => ?_
  refine informed_issue_bind ⟨rfl, by simp, by simp⟩ fun _ => ?_
  refine informed_issue_bind ⟨rfl, rfl⟩ fun _ => ?_
  refine informed_issue_bind ⟨rfl, t, by simp, rfl⟩ fun _ => ?_
  refine informed_issue_bind rfl fun count => ?_
  split_ifs
  · exact ⟨rfl, fun _ => trivial⟩
  · trivial

theorem recordFailure_recorded (u : ℕ) : Yields (Recorded u) [] (recordFailure u) := by
  unfold recordFailure
  refine yields_issue_bind (fun _ => trivial) fun t => ?_
  refine yields_issue_bind (fun _ => trivial) fun _ => ?_
  refine yields_issue_bind (fun _ => trivial) fun _ => ?_
  refine yields_issue_bind (fun _ => trivial) fun _ => ?_
  refine yields_issue_bind (fun _ => trivial) fun count => ?_
  split_ifs with hcount
  · intro r
    cases r with
    | error e => trivial
    | ok x => exact ⟨⟨t, by simp⟩, count, by simp, fun _ => ⟨lockoutMs, by simp⟩⟩
  · exact ⟨⟨t, by simp⟩, count, by simp, fun h => absurd h hcount⟩

/-! ### What the commands do to the failures -/

section Commands
variable {api : StripeApi σ A} {stamp : ℕ → Time} {i u : ℕ} {w : World σ} {t : Time}

/-- The failures after `t`. -/
def World.failuresAfter (w : World σ) (u : ℕ) (t : Time) : ℕ :=
  (w.failures u).scores.countP fun score => t < score

theorem SortedSet.live_of_lt {z : SortedSet} {now : Time} (h : ∀ x ∈ z.expiresAt, now < x) :
    z.live now = z := by
  unfold SortedSet.live
  refine if_neg fun hany => ?_
  obtain ⟨x, hx, hle⟩ := (Option.any_eq_true _ _).mp hany
  exact absurd (of_decide_eq_true hle) (Int.not_le.mpr (h x hx))

theorem SortedSet.live_expiresAt (z : SortedSet) (now : Time) :
    ∀ x ∈ (z.live now).expiresAt, now < x := by
  intro x hx
  unfold SortedSet.live at hx
  split_ifs at hx with hany
  · cases hx
  · refine Int.not_le.mp fun hle => hany ?_
    exact (Option.any_eq_true _ _).mpr ⟨x, hx, decide_eq_true hle⟩

theorem World.failures_onFailures {f : SortedSet → SortedSet}
    (h : ∀ x ∈ (f (w.failures u)).expiresAt, w.now < x) :
    (w.onFailures u f).failures u = f (w.failures u) := by
  have hset : (w.onFailures u f).redis.paymentFailures u = f (w.failures u) :=
    Function.update_self ..
  unfold World.failures at hset ⊢
  rw [hset]
  exact SortedSet.live_of_lt h

theorem World.failures_live (w : World σ) (u : ℕ) : ∀ x ∈ (w.failures u).expiresAt, w.now < x :=
  SortedSet.live_expiresAt _ _

variable (api stamp i w) in
/-- One failure more after the one that is added, and none less after any command of a call
whose time is at most a day after `t`. -/
theorem World.failuresAfter_exec {l : Trail} {c : Cmd} (h : AbuseKnows u l c)
    (hstamp : ∀ t' : Time, ⟨.dateNow, .ok t'⟩ ∈ l → t' - windowMs ≤ t) :
    w.failuresAfter u t ≤ (w.execAt api stamp i c).2.failuresAfter u t ∧
      ∀ score, c = .zaddFailure u score → t < score →
        w.failuresAfter u t + 1 ≤ (w.execAt api stamp i c).2.failuresAfter u t := by
  have hlive := w.failures_live u
  cases c with
  | zaddFailure v score =>
    obtain ⟨rfl, -⟩ := h
    have hadd : (w.execAt api stamp i (.zaddFailure v score)).2.failures v =
        { w.failures v with scores := (w.failures v).scores ++ [score] } :=
      failures_onFailures hlive
    unfold failuresAfter
    rw [hadd]
    refine ⟨by simp, fun score' hc ht => ?_⟩
    cases hc
    simp [ht]
  | pexpireFailures v ms =>
    obtain ⟨rfl, rfl⟩ := h
    have hexpire : (w.execAt api stamp i (.pexpireFailures v windowMs)).2.failures v =
        { w.failures v with expiresAt := some (w.now + windowMs) } := by
      refine failures_onFailures fun x hx => ?_
      rw [← Option.some.inj hx]
      exact Int.lt_add_of_pos_right _ (by decide)
    unfold failuresAfter
    rw [hexpire]
    exact ⟨Nat.le_refl _, fun _ hc => by cases hc⟩
  | zremrangeFailures v high =>
    obtain ⟨rfl, t', ht', rfl⟩ := h
    have hprune :
        ((w.execAt api stamp i (.zremrangeFailures v (t' - windowMs))).2.failures v).scores =
          (w.failures v).scores.filter fun x => ¬ (0 ≤ x ∧ x ≤ t' - windowMs) :=
      congrArg SortedSet.scores (failures_onFailures hlive)
    have hle := hstamp t' ht'
    unfold failuresAfter
    rw [hprune]
    refine ⟨Nat.le_of_eq ?_, fun _ hc => by cases hc⟩
    rw [List.countP_filter]
    refine List.countP_congr fun x _ => ?_
    simp only [decide_eq_true_eq, Bool.and_eq_true]
    exact ⟨fun hx => ⟨hx, fun hin => absurd (Int.le_trans hin.2 hle) (Int.not_le.mpr hx)⟩, And.left⟩
  | dateNow => exact ⟨Nat.le_refl _, fun _ hc => by cases hc⟩
  | zcardFailures v => exact ⟨Nat.le_refl _, fun _ hc => by cases hc⟩
  | setLockout v ms => exact ⟨Nat.le_refl _, fun _ hc => by cases hc⟩
  | _ => exact h.elim

end Commands

/-! ### Every run -/

/-- A failure later than `t`, added and acknowledged. -/
def addsAfter (stamp : ℕ → Time) (t : Time) : ℕ × Answer Cmd Cmd.Reply Err → Bool
  | (i, ⟨.zaddFailure _ _, .ok _⟩) => t < stamp i
  | _ => false

/-- What the answers say of the failures after `t`: Redis holds as many as were added, and
once the threshold is reached some call that added one counts that many or will. -/
structure Counting (stamp : ℕ → Time) (u : ℕ) (t : Time) (tr : Log) (w : World σ) : Prop where
  clock : ∀ i (s : Time), (i, ⟨.dateNow, .ok s⟩) ∈ tr → s = stamp i
  held : tr.countP (addsAfter stamp t) ≤ w.failuresAfter u t
  counted : failureThreshold ≤ tr.countP (addsAfter stamp t) →
    ∃ i s, (i, ⟨.zaddFailure u s, .ok ()⟩) ∈ tr ∧
      ∀ n : ℕ, (i, ⟨.zcardFailures u, .ok n⟩) ∈ tr → failureThreshold ≤ n

section Runs
variable {api : StripeApi σ A} {stamp : ℕ → Time} {u i : ℕ} {t : Time} {tr : Log} {w : World σ}

theorem addsAfter_iff {a : Answer Cmd Cmd.Reply Err} : addsAfter stamp t (i, a) = true ↔
    (∃ v s, a = ⟨.zaddFailure v s, .ok ()⟩) ∧ t < stamp i := by
  unfold addsAfter
  split
  next j v s r heq =>
    obtain ⟨rfl, rfl⟩ := Prod.mk.inj heq
    simp
  next hnot =>
    refine iff_of_false Bool.false_ne_true ?_
    rintro ⟨⟨v, s, rfl⟩, -⟩
    exact hnot i v s () rfl

/-- A call counts what Redis holds. -/
theorem zcard_le {n : ℕ} {o : Outcome Err} {out : Except Err ℕ × World σ}
    (hout : (abuseSystem api u stamp).finish i (.zcardFailures u) w o = some out)
    (hn : out.1 = .ok n) : w.failuresAfter u t ≤ n := by
  obtain ⟨hexec, -⟩ := finish_ok _ hout hn
  have hlength : (w.failures u).scores.length = n := Except.ok.inj (Prod.mk.inj hexec).1
  rw [← hlength]
  exact List.countP_le_length

theorem Counting.step {c : Cmd} {o : Outcome Err} {out : Except Err c.Reply × World σ}
    (h : Counting stamp u t tr w) (hknows : AbuseKnows u (own i tr) c)
    (hday : stamp i - windowMs ≤ t)
    (hout : (abuseSystem api u stamp).finish i c w o = some out) :
    Counting stamp u t (tr ++ [(i, ⟨c, out.1⟩)]) out.2 := by
  have hstamp : ∀ t' : Time, ⟨.dateNow, .ok t'⟩ ∈ own i tr → t' - windowMs ≤ t := by
    intro t' ht'
    rw [h.clock i t' (mem_own.mp ht')]
    exact hday
  obtain ⟨hkept, hadded⟩ := World.failuresAfter_exec api stamp i w hknows hstamp
  have hcount : ∀ a, (tr ++ [(i, a)]).countP (addsAfter stamp t) =
      tr.countP (addsAfter stamp t) + if addsAfter stamp t (i, a) then 1 else 0 := by
    intro a
    rw [List.countP_append, List.countP_singleton]
  refine ⟨fun j s hj => ?_, ?_, fun hmany => ?_⟩
  · rcases mem_snoc hj with hold | ⟨rfl, heq⟩
    · exact h.clock j s hold
    · obtain ⟨rfl, hr⟩ := Sigma.mk.inj heq
      obtain ⟨hexec, -⟩ := finish_ok _ hout (eq_of_heq hr).symm
      exact (Except.ok.inj (Prod.mk.inj hexec).1).symm
  · rw [hcount]
    have hheld := h.held
    split_ifs with hadds
    · obtain ⟨⟨v, s, heq⟩, hlate⟩ := addsAfter_iff.mp hadds
      obtain ⟨rfl, hr⟩ := Sigma.mk.inj heq
      obtain ⟨hexec, -⟩ := finish_ok _ hout (eq_of_heq hr)
      obtain ⟨rfl, hs, -⟩ := hknows
      have hlater := hadded s rfl (by rw [h.clock i s (mem_own.mp hs)]; exact hlate)
      have hstate : out.2 = (w.execAt api stamp i (.zaddFailure v s)).2 :=
        (Prod.mk.inj hexec).2.symm
      rw [hstate]
      exact (Nat.add_le_add_right hheld 1).trans hlater
    · rw [Nat.add_zero]
      rcases finish_state _ hout with hs | hs
      · rwa [hs]
      · rw [hs]
        exact hheld.trans hkept
  · by_cases hbefore : failureThreshold ≤ tr.countP (addsAfter stamp t)
    · obtain ⟨j, s, hj, hall⟩ := h.counted hbefore
      refine ⟨j, s, List.mem_append_left _ hj, fun n hn => ?_⟩
      rcases mem_snoc hn with hold | ⟨rfl, heq⟩
      · exact hall n hold
      · obtain ⟨rfl, hr⟩ := Sigma.mk.inj heq
        exact (hbefore.trans h.held).trans (zcard_le hout (eq_of_heq hr).symm)
    · rw [hcount] at hmany
      have hadds : addsAfter stamp t (i, ⟨c, out.1⟩) = true := by
        by_contra hnot
        rw [if_neg hnot] at hmany
        exact hbefore hmany
      obtain ⟨⟨v, s, heq⟩, -⟩ := addsAfter_iff.mp hadds
      obtain ⟨rfl, hr⟩ := Sigma.mk.inj heq
      obtain ⟨rfl, -, hfirst⟩ := hknows
      refine ⟨i, s, List.mem_append_right _ ?_, fun n hn => ?_⟩
      · rw [eq_of_heq hr]
        exact List.mem_singleton_self _
      · rcases mem_snoc hn with hold | ⟨-, heq'⟩
        · exact absurd (mem_own.mpr hold) (hfirst n)
        · cases (Sigma.mk.inj heq').1

theorem Counting.env {ms : ℕ} (h : Counting stamp u t tr w) (hstay : w.KeepsFailures u t ms) :
    Counting stamp u t tr { w with now := w.now + ms } := by
  refine ⟨h.clock, ?_, h.counted⟩
  rcases hstay with hlater | hold
  · have hsame : ({ w with now := w.now + ms } : World σ).failures u = w.failures u := by
      have hnow : ∀ x ∈ (w.redis.paymentFailures u).expiresAt, w.now < x := fun x hx =>
        Int.lt_of_le_of_lt (Int.le_add_of_nonneg_right (Int.natCast_nonneg ms)) (hlater x hx)
      unfold World.failures
      rw [SortedSet.live_of_lt hnow]
      exact SortedSet.live_of_lt hlater
    unfold World.failuresAfter
    rw [hsame]
    exact h.held
  · have hzero : w.failuresAfter u t = 0 := by
      refine List.countP_eq_zero.mpr fun score hscore => ?_
      simpa using hold score hscore
    exact (h.held.trans (Nat.le_of_eq hzero)).trans (Nat.zero_le _)

theorem counting {xs : List (Choice Err Unit ℕ)}
    {q : Pool Cmd Cmd.Reply Err (World σ) Unit Unit}
    (hx : (abuseSystem api u stamp).schedule xs ⟨w, []⟩ = some q)
    (hstay : (abuseSystem api u stamp).AllStages (FailuresStay u t) xs [] ⟨w, []⟩)
    (hday : ∀ i < q.procs.length, stamp i - windowMs ≤ t) :
    Counting stamp u t ((abuseSystem api u stamp).trace xs ⟨w, []⟩) q.state := by
  have hstart : Counting stamp u t [] w := by
    refine ⟨fun i s h => ?_, Nat.zero_le _, fun h => ?_⟩
    · cases h
    · cases h
  have hact : ∀ tr (p : Pool Cmd Cmd.Reply Err (World σ) Unit Unit) x p',
      OnPath (abuseSystem api u stamp) tr p →
      ((∀ a ∈ tr, stamp a.1 - windowMs ≤ t) → Counting stamp u t tr p.state) →
      FailuresStay u t tr x p → (abuseSystem api u stamp).act x p = some p' →
      (∀ a ∈ tr ++ (abuseSystem api u stamp).answers x p, stamp a.1 - windowMs ≤ t) →
        Counting stamp u t (tr ++ (abuseSystem api u stamp).answers x p) p'.state := by
    intro tr p x p' hpath hI hB hact hall
    have hold : ∀ a ∈ tr, stamp a.1 - windowMs ≤ t :=
      fun a ha => hall a (List.mem_append_left _ ha)
    cases x with
    | spawn op =>
      cases hact
      simpa [answers] using hI hold
    | env ms =>
      cases hact
      have henv : Counting stamp u t tr ((abuseSystem api u stamp).env ms p.state) :=
        (hI hold).env hB
      simpa [answers] using henv
    | step i o =>
      obtain ⟨op, c, k, out, hi, hout, rfl, hans⟩ := act_step _ hact
      rw [hans] at hall ⊢
      have hknows := (recordFailure_knows u).path (hpath.follows i op _ hi)
      have hday := hall _ (List.mem_append_right _ (List.mem_singleton_self _))
      exact (hI hold).step hknows hday hout
  obtain ⟨hpath, h⟩ := stages_rule hact xs (onPath_empty w) (fun _ => hstart) hx hstay
  exact h fun a ha => hday a.1 (hpath.spawned a ha)

/-- A call that returned has added its failure and counted, and locked the user out if it
counted enough. -/
theorem recorded_of_returned {xs : List (Choice Err Unit ℕ)}
    {q : Pool Cmd Cmd.Reply Err (World σ) Unit Unit}
    (hx : (abuseSystem api u stamp).schedule xs ⟨w, []⟩ = some q)
    (hdone : ∀ x ∈ q.procs, x.2.result = some (.ok ())) (hi : i < q.procs.length) :
    Recorded u (own i ((abuseSystem api u stamp).trace xs ⟨w, []⟩)) (.ok ()) := by
  obtain ⟨x, hget⟩ : ∃ x, q.procs[i]? = some x := ⟨_, List.getElem?_eq_getElem hi⟩
  have hpath := (onPath hx).follows i x.1 x.2 hget
  rw [eq_done_of_result (hdone x (List.mem_of_getElem? hget))] at hpath
  exact (recordFailure_recorded u).path hpath

end Runs

def timesOf (times : List Time) (i : ℕ) : Time := times[i]?.getD 0

/-- Three calls add their failures before the first of them counts. -/
def addedAtOnce : List (Choice Err Unit ℕ) :=
  [.spawn (), .spawn (), .spawn ()] ++ solo 0 2 ++ [.env 10] ++ solo 1 2 ++ [.env 10] ++
    solo 2 2 ++ solo 1 3 ++ solo 2 4 ++ solo 0 4 ++ solo 1 1

/-- The second and the third failure come in the last second before the key expires; both are
added, and only then is its expiry put off. -/
def expiredBetween : List (Choice Err Unit ℕ) :=
  [.spawn ()] ++ solo 0 5 ++ [.env 86399000, .spawn (), .spawn ()] ++ solo 1 1 ++ solo 2 1 ++
    solo 1 1 ++ solo 2 1 ++ [.env 1000] ++ solo 1 3 ++ solo 2 3

end MovieReservation
