import MovieReservation.Lib.SlidingWindow
import MovieReservation.Properties.AbuseLockout

/-! Calls of `recordFailure` one after another, at times that never go back, with the keys
expiring by the same clock. What Redis holds of a user is then a function of that user's
failures, and a user is locked out exactly in the half hours that follow a third failure
within a day. -/

namespace MovieReservation

open Lib Lib.Prog PaymentAbuseService

variable {σ A : Type}

/-! ### Failures within a day -/

/-- A call of `recordFailure`. -/
structure Failure where
  time : ℕ
  userId : ℕ
  deriving DecidableEq

def Failure.InOrder (fs : List Failure) : Prop := fs.Pairwise fun f g => f.time ≤ g.time

instance (fs : List Failure) : Decidable (Failure.InOrder fs) :=
  inferInstanceAs (Decidable (List.Pairwise _ _))

/-- At least three failures of its user, itself included, lie in the day that ends with it. -/
def Failure.IsThird (fs : List Failure) (f : Failure) : Prop :=
  3 ≤ (fs.filter fun g => g.userId = f.userId ∧
    (f.time : ℤ) - 24 * 60 * 60000 < g.time ∧ g.time ≤ f.time).length

instance (fs : List Failure) (f : Failure) : Decidable (f.IsThird fs) :=
  inferInstanceAs (Decidable (3 ≤ _))

/-- The user has a third failure in the last half hour. -/
def Locked (fs : List Failure) (u t : ℕ) : Prop :=
  ∃ f ∈ fs, f.userId = u ∧ f.time ≤ t ∧ t < f.time + 30 * 60000 ∧ f.IsThird fs

instance (fs : List Failure) (u t : ℕ) : Decidable (Locked fs u t) :=
  inferInstanceAs (Decidable (∃ f ∈ fs, _))

section
variable (api : StripeApi σ A)

/-- The world after the calls, each carried out at its time. -/
def World.recordAll (w : World σ) (fs : List Failure) : World σ :=
  fs.foldl (fun w f => (perform api (recordFailure f.userId) { w with now := f.time }).2) w

/-- What `isLockedOut` answers at `t`. -/
def World.lockedOutAt (w : World σ) (u t : ℕ) : Except Err Bool :=
  (perform api (isLockedOut u) { w with now := t }).1

end

/-- No failure and no lockout is in Redis yet. -/
structure World.NoFailures (w : World σ) : Prop where
  failures : ∀ u, w.redis.paymentFailures u = SortedSet.empty
  lockout : ∀ u, w.redis.paymentLockout u = none

/-! ### One call -/

/-- The failures of a user after one more at `now`. -/
def SortedSet.record (z : SortedSet) (now : Time) : SortedSet where
  scores := (z.scores ++ [now]).filter fun t => ¬ (0 ≤ t ∧ t ≤ now - windowMs)
  expiresAt := some (now + windowMs)

section Call
variable {api : StripeApi σ A} {u : ℕ} {w : World σ} {f g : SortedSet → SortedSet}

theorem World.onFailures_onFailures (h : ∀ x ∈ (f (w.failures u)).expiresAt, w.now < x) :
    (w.onFailures u f).onFailures u g = w.onFailures u fun z => g (f z) := by
  have hfirst : (w.onFailures u f).failures u = f (w.failures u) := failures_onFailures h
  unfold World.failures at hfirst
  rw [onFailures, hfirst]
  simp only [onFailures, Function.update_idem]

theorem SortedSet.record_live (z : SortedSet) (now : Time) :
    (z.record now).live now = z.record now := by
  refine live_of_lt fun x hx => ?_
  rw [← Option.some.inj hx]
  exact Int.lt_add_of_pos_right now (by decide)

/-- The three writes of a call record its failure. -/
theorem World.onFailures_record (w : World σ) (u : ℕ) :
    ((w.onFailures u fun z => { z with scores := z.scores ++ [w.now] }).onFailures u
      fun z => { z with expiresAt := some (w.now + windowMs) }).onFailures u (fun z =>
        { z with scores := z.scores.filter fun t => ¬ (0 ≤ t ∧ t ≤ w.now - windowMs) }) =
      w.onFailures u fun z => z.record w.now := by
  rw [onFailures_onFailures (f := fun z => { z with scores := z.scores ++ [w.now] })
    (w.failures_live u), onFailures_onFailures]
  · rfl
  · intro x hx
    rw [← Option.some.inj hx]
    exact Int.lt_add_of_pos_right w.now (by decide)

/-- The call adds its failure, prunes the older ones and sets the lockout by the count. -/
theorem perform_recordFailure (w : World σ) :
    (perform api (recordFailure u) w).2.redis.paymentFailures =
      Function.update w.redis.paymentFailures u ((w.failures u).record w.now) ∧
    (perform api (recordFailure u) w).2.redis.paymentLockout =
      if 3 ≤ ((w.failures u).record w.now).scores.length then
        Function.update w.redis.paymentLockout u (some (w.now + lockoutMs))
      else w.redis.paymentLockout := by
  have hcount : ((w.onFailures u fun z => z.record w.now).redis.paymentFailures u).live w.now =
      (w.failures u).record w.now := by
    rw [← SortedSet.record_live]
    exact congrArg (SortedSet.live · w.now) (Function.update_self ..)
  have hrun : perform api (recordFailure u) w = perform api
      (if failureThreshold ≤ ((w.failures u).record w.now).scores.length then
        request (.setLockout u lockoutMs) else pure ())
      (w.onFailures u fun z => z.record w.now) := by
    rw [← hcount, ← World.onFailures_record]
    rfl
  rw [hrun, failureThreshold]
  split_ifs <;> exact ⟨rfl, rfl⟩

end Call

/-! ### What Redis holds after a history -/

def dayMs : ℕ := 24 * 60 * 60000

theorem windowMs_eq : windowMs = dayMs := by decide

/-- The failures of one user as Redis holds them: those in the day before the last. -/
def stored (fs : List Failure) : SortedSet :=
  match fs.getLast? with
  | none => SortedSet.empty
  | some f =>
    ⟨(within Failure.time dayMs f.time fs).map fun g => (g.time : Time), some (f.time + windowMs)⟩

theorem stored_snoc (fs : List Failure) (x : Failure) : stored (fs ++ [x]) =
    ⟨(within Failure.time dayMs x.time (fs ++ [x])).map fun g => (g.time : Time),
      some (x.time + windowMs)⟩ := by
  simp [stored]

/-- To prune the scores is to forget the failures of the days before. -/
theorem prune_times (fs : List Failure) (t : ℕ) :
    (fs.map fun g => (g.time : Time)).filter (fun s => ¬ (0 ≤ s ∧ s ≤ (t : Time) - windowMs)) =
      (within Failure.time dayMs t fs).map fun g => (g.time : Time) := by
  rw [List.filter_map, within]
  congr 1
  refine List.filter_congr fun g _ => decide_eq_decide.mpr ?_
  show ¬ ((0 : ℤ) ≤ g.time ∧ (g.time : ℤ) ≤ t - 86400000) ↔ t < g.time + 86400000
  omega

theorem Failure.InOrder.init {fs : List Failure} {x : Failure} (h : InOrder (fs ++ [x])) :
    InOrder fs := (List.pairwise_append.mp h).1

theorem Failure.InOrder.le_last {fs : List Failure} {x : Failure} (h : InOrder (fs ++ [x])) :
    ∀ f ∈ fs, f.time ≤ x.time := fun f hf =>
  (List.pairwise_append.mp h).2.2 f hf x (List.mem_singleton_self x)

theorem SortedSet.live_some (scores : List Time) (e now : Time) :
    (⟨scores, some e⟩ : SortedSet).live now =
      if e ≤ now then SortedSet.empty else ⟨scores, some e⟩ := by
  simp [live]

/-- A call records its failure with those that it keeps. -/
theorem record_kept {fs : List Failure} {x : Failure} (gs : List Failure) (e : Option Time)
    (h : within Failure.time dayMs x.time gs = within Failure.time dayMs x.time fs) :
    (⟨gs.map fun g => (g.time : Time), e⟩ : SortedSet).record x.time = stored (fs ++ [x]) := by
  rw [stored_snoc, within_append, ← h, ← within_append, ← prune_times]
  simp [SortedSet.record]

theorem Failure.InOrder.time_le_last {fs : List Failure} {x : Failure}
    (h : InOrder (fs ++ [x])) : ∀ f ∈ fs ++ [x], f.time ≤ x.time := by
  intro f hf
  rcases List.mem_append.mp hf with hf | hf
  · exact h.le_last f hf
  · rw [List.mem_singleton.mp hf]

theorem stored_record {fs : List Failure} {x : Failure} (h : Failure.InOrder (fs ++ [x])) :
    ((stored fs).live x.time).record x.time = stored (fs ++ [x]) := by
  rcases List.eq_nil_or_concat' fs with rfl | ⟨gs, y, rfl⟩
  · exact record_kept [] none rfl
  have hyx : y.time ≤ x.time := h.le_last y (by simp)
  rw [stored_snoc gs y]
  rw [SortedSet.live_some]
  split_ifs with hexpired
  · have hpast : y.time + dayMs ≤ x.time := by
      rw [windowMs_eq] at hexpired
      exact_mod_cast hexpired
    have hnone : within Failure.time dayMs x.time (gs ++ [y]) = [] := by
      rw [within, List.filter_eq_nil_iff]
      intro g hg
      have hgy := h.init.time_le_last g hg
      rw [decide_eq_true_eq]
      omega
    exact record_kept [] none hnone.symm
  · exact record_kept _ _ (within_within hyx)

section History
variable {api : StripeApi σ A} {w : World σ} {fs gs : List Failure} {x : Failure} {u : ℕ}

theorem recordAll_snoc : w.recordAll api (fs ++ [x]) =
    (perform api (recordFailure x.userId) { w.recordAll api fs with now := x.time }).2 := by
  simp [World.recordAll]

/-- Redis holds of each user's failures what it would hold if there were no other users. -/
theorem recordAll_failures (hw : w.NoFailures) (h : Failure.InOrder fs) (u : ℕ) :
    (w.recordAll api fs).redis.paymentFailures u = stored (fs.filter fun f => f.userId = u) := by
  induction fs using List.reverseRecOn with
  | nil => exact hw.failures u
  | append_singleton fs x ih =>
    have hbefore := ih h.init
    rw [recordAll_snoc, (perform_recordFailure _).1, List.filter_append]
    by_cases hx : x.userId = u
    · subst hx
      have hown : Failure.InOrder ((fs.filter fun f => f.userId = x.userId) ++ [x]) :=
        h.sublist ((List.filter_sublist ..).append (List.Sublist.refl _))
      have hrecord := stored_record hown
      rw [← hbefore] at hrecord
      rw [Function.update_self, List.filter_singleton, decide_eq_true rfl]
      exact hrecord
    · rw [Function.update_of_ne (Ne.symm hx), List.filter_singleton]
      simpa [hx] using hbefore

/-! ### The lockout after a history -/

theorem lt_lockoutMs (t s : ℕ) : (t : Time) < s + lockoutMs ↔ t < s + 30 * 60000 := by
  rw [lockoutMs]
  norm_cast

theorem isThird_mono (h : fs.Sublist gs) {f : Failure} (hf : f.IsThird fs) : f.IsThird gs :=
  hf.trans (h.filter _).length_le

/-- The failures that the last one counts are those that Redis holds. -/
theorem isThird_last (h : Failure.InOrder (fs ++ [x])) : x.IsThird (fs ++ [x]) ↔
    3 ≤ (stored ((fs.filter fun f => f.userId = x.userId) ++ [x])).scores.length := by
  have hown : (fs.filter fun f => f.userId = x.userId) ++ [x] =
      (fs ++ [x]).filter fun f => f.userId = x.userId := by
    simp [List.filter_append]
  have hsame : ((fs ++ [x]).filter fun g => g.userId = x.userId ∧
      (x.time : ℤ) - 24 * 60 * 60000 < g.time ∧ g.time ≤ x.time) =
        within Failure.time dayMs x.time ((fs ++ [x]).filter fun f => f.userId = x.userId) := by
    rw [within, List.filter_filter]
    refine List.filter_congr fun g hg => ?_
    have hle := h.time_le_last g hg
    simp only [Bool.decide_and, dayMs, Bool.and_comm (decide (g.userId = x.userId)),
      decide_eq_true hle, Bool.and_true]
    congr 1
    refine decide_eq_decide.mpr ?_
    omega
  rw [stored_snoc, List.length_map, hown, ← hsame, Failure.IsThird]

/-- An earlier failure is the third of the same failures after one more, unless that one is
the same. -/
theorem isThird_snoc (h : Failure.InOrder (fs ++ [x])) {f : Failure} (hf : f ∈ fs)
    (hne : f ≠ x) (hthird : f.IsThird (fs ++ [x])) : f.IsThird fs := by
  have hle := h.le_last f hf
  unfold Failure.IsThird at hthird ⊢
  rw [List.filter_append, List.filter_singleton] at hthird
  have hnot : ¬ (x.userId = f.userId ∧ (f.time : ℤ) - 24 * 60 * 60000 < x.time ∧
      x.time ≤ f.time) := by
    rintro ⟨huser, -, hback⟩
    refine hne ?_
    cases f
    cases x
    simp only [Failure.mk.injEq] at *
    omega
  rw [decide_eq_false hnot] at hthird
  simpa using hthird

/-- A failure of another user, or one that is no third, is the cause of no lockout. -/
theorem third_init (h : Failure.InOrder (fs ++ [x])) {t : ℕ}
    (hnot : ¬ (x.userId = u ∧ x.IsThird (fs ++ [x]))) :
    (∃ f ∈ fs ++ [x], f.userId = u ∧ t < f.time + 30 * 60000 ∧ f.IsThird (fs ++ [x])) ↔
      ∃ f ∈ fs, f.userId = u ∧ t < f.time + 30 * 60000 ∧ f.IsThird fs := by
  constructor
  · rintro ⟨f, hf, huser, ht, hthird⟩
    have hne : f ≠ x := by
      rintro rfl
      exact hnot ⟨huser, hthird⟩
    have hold : f ∈ fs := by simpa [hne] using hf
    exact ⟨f, hold, huser, ht, isThird_snoc h hold hne hthird⟩
  · rintro ⟨f, hf, huser, ht, hthird⟩
    exact ⟨f, List.mem_append_left _ hf, huser, ht,
      isThird_mono (List.sublist_append_left ..) hthird⟩

/-- The lockout is in force for half an hour after each third failure. -/
theorem recordAll_lockout (hw : w.NoFailures) (h : Failure.InOrder fs) (u t : ℕ) :
    (∃ e ∈ (w.recordAll api fs).redis.paymentLockout u, (t : Time) < e) ↔
      ∃ f ∈ fs, f.userId = u ∧ t < f.time + 30 * 60000 ∧ f.IsThird fs := by
  induction fs using List.reverseRecOn with
  | nil =>
    rw [show (w.recordAll api []).redis.paymentLockout u = none from hw.lockout u]
    simp
  | append_singleton fs x ih =>
    have hbefore := ih h.init
    have hcount : 3 ≤ ((({ w.recordAll api fs with now := x.time } : World σ).failures
        x.userId).record x.time).scores.length ↔ x.IsThird (fs ++ [x]) := by
      have hown : Failure.InOrder ((fs.filter fun f => f.userId = x.userId) ++ [x]) :=
        h.sublist ((List.filter_sublist ..).append (List.Sublist.refl _))
      have hheld := stored_record hown
      rw [isThird_last h, ← hheld, ← recordAll_failures hw h.init]
      rfl
    rw [recordAll_snoc, (perform_recordFailure _).2]
    by_cases hthird : x.IsThird (fs ++ [x])
    · rw [if_pos (hcount.mpr hthird)]
      by_cases hx : x.userId = u
      · subst hx
        rw [Function.update_self]
        simp only [Option.mem_some_iff, exists_eq_left', lt_lockoutMs]
        constructor
        · intro ht
          exact ⟨x, by simp, rfl, ht, hthird⟩
        · rintro ⟨f, hf, -, ht, -⟩
          exact ht.trans_le (Nat.add_le_add_right (h.time_le_last f hf) _)
      · rw [Function.update_of_ne (Ne.symm hx)]
        exact hbefore.trans (third_init h fun hc => hx hc.1).symm
    · rw [if_neg (hcount.not.mpr hthird)]
      exact hbefore.trans (third_init h fun hc => hthird hc.2).symm

/-- What comes later makes no failure a third. -/
theorem isThird_past {f : Failure} {t : ℕ} (hle : f.time ≤ t) :
    f.IsThird (fs.filter fun g => g.time ≤ t) ↔ f.IsThird fs := by
  unfold Failure.IsThird
  rw [List.filter_filter]
  have hsame : (fs.filter fun g => (decide (g.userId = f.userId ∧
      (f.time : ℤ) - 24 * 60 * 60000 < g.time ∧ g.time ≤ f.time) && decide (g.time ≤ t))) =
      fs.filter fun g => g.userId = f.userId ∧ (f.time : ℤ) - 24 * 60 * 60000 < g.time ∧
        g.time ≤ f.time := by
    refine List.filter_congr fun g _ => ?_
    rw [← Bool.decide_and, decide_eq_decide]
    constructor
    · exact And.left
    · exact fun hg => ⟨hg, hg.2.2.trans hle⟩
  rw [hsame]

/-- A user is locked out at a time exactly if a third failure of that user within a day lies
less than half an hour back; the failures of others do not matter. -/
theorem locked_out_iff (api : StripeApi σ A) (w : World σ) (hw : w.NoFailures)
    (fs : List Failure) (h : Failure.InOrder fs) (u t : ℕ) :
    (w.recordAll api (fs.filter fun f => f.time ≤ t)).lockedOutAt api u t = .ok true ↔
      Locked fs u t := by
  have hread : ∀ v : World σ, v.lockedOutAt api u t = .ok true ↔
      ∃ e ∈ v.redis.paymentLockout u, (t : Time) < e := by
    intro v
    have hrun : v.lockedOutAt api u t =
        .ok ((v.redis.paymentLockout u).any fun e => decide ((t : Time) < e)) := rfl
    rw [hrun, Except.ok.injEq, Option.any_eq_true]
    simp
  rw [hread, recordAll_lockout hw (h.sublist List.filter_sublist)]
  constructor
  · rintro ⟨f, hf, huser, ht, hthird⟩
    obtain ⟨hf, hle⟩ := List.mem_filter.mp hf
    rw [decide_eq_true_eq] at hle
    exact ⟨f, hf, huser, hle, ht, (isThird_past hle).mp hthird⟩
  · rintro ⟨f, hf, huser, hle, ht, hthird⟩
    refine ⟨f, ?_, huser, ht, (isThird_past hle).mpr hthird⟩
    exact List.mem_filter.mpr ⟨hf, decide_eq_true hle⟩

end History

/-- Three failures of user 1 within a day, with one of user 2 among them. -/
def threeFailures : List Failure := [⟨0, 1⟩, ⟨3600000, 2⟩, ⟨7200000, 1⟩, ⟨86399999, 1⟩]

/-- The server before its first failure. -/
def opening : World Account := World.initial ⟨[], []⟩ 0 100

theorem opening_noFailures : opening.NoFailures :=
  ⟨fun _ => rfl, fun _ => rfl⟩

/-- The third one, just before the day is over, locks user 1 out, and user 2 not. -/
theorem third_failure_locks :
    (opening.recordAll testMode (threeFailures.filter fun f => f.time ≤ 87000000)).lockedOutAt
      testMode 1 87000000 = .ok true ∧
    (opening.recordAll testMode (threeFailures.filter fun f => f.time ≤ 87000000)).lockedOutAt
      testMode 2 87000000 ≠ .ok true := by
  have hiff := locked_out_iff testMode opening opening_noFailures threeFailures (by decide)
  rw [Ne, hiff, hiff]
  decide

end MovieReservation
