import Mathlib.Data.List.Induction
import MovieReservation.Services.Sales
import MovieReservation.Services.TestMode

/-! Deliveries of one failed-payment event, any number of them side by side, with
overlapping ticks of the reconciliation. Each payment counts once towards the lockout of a
user, as long as no write of a payment finds that it was already failed or declined. -/

namespace MovieReservation

open Lib Lib.Prog Lib.Table Lib.System

/-! ### The system -/

inductive FailureOp where
  | deliver
  | reconcile

def FailureOp.request (eventId : ℕ) (session : CheckoutSessionObject) :
    FailureOp → BookingRequest
  | deliver => .webhook (.ok ⟨eventId, .checkoutSessionAsyncPaymentFailed session⟩)
  | reconcile => .reconcilePayments

def failureSystem {σ A : Type} (api : StripeApi σ A) (eventId : ℕ)
    (session : CheckoutSessionObject) :
    System Cmd Cmd.Reply Err (World σ) FailureOp (Env A) Response where
  exec _ := World.exec api
  ready _ _ _ := true
  fault := Cmd.fault
  env := World.elapse api
  handler op := (op.request eventId session).handle

/-! ### What is charged -/

/-- The payment that an answer tells a process it has failed or declined. -/
def failureOf : Answer Cmd Cmd.Reply Err → Option ℕ
  | ⟨.paymentUpdate _ _, .ok payment⟩ => some payment.id
  | ⟨.declineWithReservation p _, .ok _⟩ => some p
  | _ => none

theorem failureOf_error (c : Cmd) (e : Err) : failureOf ⟨c, .error e⟩ = none := by
  unfold failureOf
  split
  next heq => cases heq
  next heq => cases heq
  next => rfl

/-- The payment that the process failed or declined last. -/
def lastFailure (l : Trail) : Option ℕ := l.reverse.findSome? failureOf

/-- A failure that is added to the counter of a user is that of the payment the process
failed or declined last. -/
def charge (past : Log) : ℕ × Answer Cmd Cmd.Reply Err → List (ℕ × ℕ)
  | (i, ⟨.zaddFailure u _, _⟩) => (lastFailure (own i past)).toList.map fun p => (p, u)
  | _ => []

def chargesAfter (past : Log) : Log → List (ℕ × ℕ)
  | [] => []
  | x :: tr => charge past x ++ chargesAfter (past ++ [x]) tr

/-- The payments that failures were added for, each with the user who was charged. -/
def charges (tr : Log) : List (ℕ × ℕ) := chargesAfter [] tr

theorem chargesAfter_snoc (past tr : Log) (x : ℕ × Answer Cmd Cmd.Reply Err) :
    chargesAfter past (tr ++ [x]) = chargesAfter past tr ++ charge (past ++ tr) x := by
  induction tr generalizing past with
  | nil => simp [chargesAfter]
  | cons y tr ih => simp [chargesAfter, ih]

theorem charges_snoc (tr : Log) (x : ℕ × Answer Cmd Cmd.Reply Err) :
    charges (tr ++ [x]) = charges tr ++ charge tr x := chargesAfter_snoc [] tr x

theorem charge_eq_nil {past : Log} {i : ℕ} {a : Answer Cmd Cmd.Reply Err}
    (h : ∀ u t r, a ≠ ⟨.zaddFailure u t, r⟩) : charge past (i, a) = [] := by
  unfold charge
  split
  next u t r heq => exact absurd (Prod.mk.inj heq).2 (h u t r)
  next => rfl

/-! ### What a process owes -/

def owedAfter (cur : Option ℕ) : Answer Cmd Cmd.Reply Err → Option ℕ
  | ⟨.zaddFailure _ _, _⟩ => none
  | a => (failureOf a).or cur

/-- The payment that the process failed or declined and has not yet counted. -/
def owed (l : Trail) : Option ℕ := l.foldl owedAfter none

theorem owed_snoc (l : Trail) (a : Answer Cmd Cmd.Reply Err) :
    owed (l ++ [a]) = owedAfter (owed l) a := List.foldl_concat ..

theorem lastFailure_snoc (l : Trail) (a : Answer Cmd Cmd.Reply Err) :
    lastFailure (l ++ [a]) = (failureOf a).or (lastFailure l) := by
  unfold lastFailure
  rw [List.reverse_append, List.reverse_singleton, List.singleton_append, List.findSome?_cons]
  cases failureOf a <;> rfl

theorem owedAfter_of_none {cur : Option ℕ} {a : Answer Cmd Cmd.Reply Err}
    (ha : failureOf a = none) : owedAfter cur a = none ∨ owedAfter cur a = cur := by
  unfold owedAfter
  split
  · exact .inl rfl
  · rw [ha]
    exact .inr rfl

theorem lastFailure_of_owed {l : Trail} {p : ℕ} (h : owed l = some p) :
    lastFailure l = some p := by
  induction l using List.reverseRecOn with
  | nil => cases h
  | append_singleton l a ih =>
    rw [owed_snoc] at h
    rw [lastFailure_snoc]
    unfold owedAfter at h
    split at h
    · cases h
    · cases hf : failureOf a with
      | none =>
        rw [hf] at h
        exact ih h
      | some q =>
        rw [hf] at h
        exact h

/-! ### What the handlers know -/

/-- A failure is counted by who owes one, a user locked out by who has read that many
failures; and these are the writes. -/
def FailureGround (l : Trail) : Cmd → Prop
  | .zaddFailure _ _ => (owed l).isSome
  | .setLockout u _ => ∃ n : ℕ, ⟨.zcardFailures u, .ok n⟩ ∈ l ∧
    PaymentAbuseService.failureThreshold ≤ n
  | .paymentUpdate _ d => d.status = some .failed
  | .declineWithReservation _ _ | .confirmWithReservation _ _ _ => True
  | c => c.quiet = true

section Ground
variable {l : Trail}

theorem recordFailure_ground (u : ℕ) (h : (owed l).isSome) :
    Informed FailureGround l (PaymentAbuseService.recordFailure u) := by
  unfold PaymentAbuseService.recordFailure
  refine informed_issue_bind rfl fun t => informed_issue_bind ?_ fun _ => ?_
  · show (owed _).isSome
    rw [owed_snoc]
    exact h
  refine informed_issue_bind rfl fun _ => informed_issue_bind rfl fun _ => ?_
  refine informed_issue_bind rfl fun count => ?_
  split_ifs with hcount
  · refine ⟨⟨count, ?_, hcount⟩, fun _ => trivial⟩
    simp
  · trivial

theorem handleAsyncPaymentFailed_ground (eventId : ℕ) (session : CheckoutSessionObject) :
    Informed FailureGround l (PaymentsService.handleAsyncPaymentFailed eventId session) := by
  unfold PaymentsService.handleAsyncPaymentFailed ReservationsService.getById
  refine informed_issue_bind rfl fun payment => ?_
  rw [bind_assoc]
  refine informed_issue_bind rfl fun found => ?_
  cases found with
  | none => trivial
  | some reservation =>
    refine recordFailure_ground _ ?_
    rw [owed_snoc, owed_snoc]
    rfl

theorem reconcile_ground (p : Payment) :
    Informed FailureGround l (PaymentsService.reconcile p) := by
  unfold PaymentsService.reconcile
  refine informed_issue_bind rfl fun session => ?_
  split_ifs
  · exact informed_issue_bind trivial fun x => ⟨rfl, fun _ => trivial⟩
  · refine informed_issue_bind trivial fun x => informed_issue_bind rfl fun _ => ?_
    refine recordFailure_ground _ ?_
    rw [owed_snoc, owed_snoc]
    rfl

theorem FailureOp.handle_ground (eventId : ℕ) (session : CheckoutSessionObject)
    (op : FailureOp) : Informed FailureGround [] (op.request eventId session).handle := by
  cases op with
  | deliver =>
    refine Informed.bind ?_ fun _ _ => trivial
    refine informed_issue_bind rfl fun processed => ?_
    split_ifs
    · trivial
    · exact handleAsyncPaymentFailed_ground eventId session
  | reconcile =>
    refine Informed.bind (Informed.tryCatch ?_ fun _ _ => trivial) fun _ _ => trivial
    refine informed_issue_bind rfl fun t => informed_issue_bind rfl fun stuck => ?_
    exact Informed.forM (fun p _ => reconcile_ground p) stuck

end Ground

/-! ### The payments -/

/-- The payment was failed or declined. -/
def Db.Failed (p : ℕ) (db : Db) : Prop :=
  ∃ x ∈ db.payments.get p, x.status = .failed ∨ x.status = .declined

instance (p : ℕ) : DecidablePred (Db.Failed p) := fun db =>
  inferInstanceAs (Decidable (∃ x ∈ db.payments.get p, x.status = .failed ∨ x.status = .declined))

/-- The payment whose outcome a command decides. -/
def Cmd.decides : Cmd → Option ℕ
  | .paymentUpdate id _ => id
  | .declineWithReservation p _ | .confirmWithReservation p _ _ => some p
  | _ => none

/-- The outcome that a command decides is not of a payment that was failed or declined. -/
def Cmd.First (db : Db) (c : Cmd) : Prop := ∀ p ∈ c.decides, ¬ db.Failed p

instance (db : Db) : DecidablePred (Cmd.First db) := fun c =>
  inferInstanceAs (Decidable (∀ p ∈ c.decides, ¬ db.Failed p))

section Payments
variable {σ A : Type} {api : StripeApi σ A} {w : World σ} {op : BookingRequest} {c : Cmd} {p : ℕ}

/-- Once failed or declined, a payment stays so. -/
theorem Db.Failed.exec {l : Trail} (hc : BookingCmd op c) (hg : FailureGround l c)
    (hfirst : c.First w.db) (h : w.db.Failed p) : (World.exec api c w).2.db.Failed p := by
  obtain ⟨x, hx, hst⟩ := h
  have hne : p ∉ c.decides := fun hp => hfirst p hp ⟨x, hx, hst⟩
  have hrw := payment_step api hc hx
  unfold Failed
  generalize (World.exec api c w).2.db.payments.get p = y at hrw ⊢
  cases hrw with
  | keep => exact ⟨x, rfl, hst⟩
  | update d => exact absurd rfl hne
  | delete => cases hg
  | decline n => exact absurd rfl hne
  | settle n i => exact absurd rfl hne

/-- A write that was answered with a failure has failed its payment. -/
theorem failed_of_answer {l : Trail} {r : c.Reply} {w' : World σ} (hg : FailureGround l c)
    (hexec : World.exec api c w = (.ok r, w')) (h : failureOf ⟨c, .ok r⟩ = some p) :
    w'.db.Failed p ∧ p ∈ c.decides := by
  unfold failureOf at h
  split at h
  next id d payment heq =>
    cases heq
    cases h
    cases id with
    | none => cases hexec
    | some n =>
      simp only [World.exec] at hexec
      rcases w.commit_cases (w.db.paymentUpdate n d) with ⟨x, db', hok, hcm⟩ | ⟨e, -, hcm⟩
      · rw [hcm] at hexec
        cases hexec
        obtain ⟨p₀, hp₀, rfl, -, ht⟩ := Db.paymentUpdate_eq_ok hok
        have hid : (d.apply p₀).id = n := (d.id_apply p₀).trans (id_of_get hp₀)
        have hget : db'.payments.get n = some (d.apply p₀) := by
          simp only [ht, get_modify, if_true, hp₀, Option.map_some]
        refine ⟨⟨_, hid ▸ hget, .inl ?_⟩, congrArg some hid.symm⟩
        simp [PaymentData.apply, show d.status = some .failed from hg]
      · rw [hcm] at hexec
        cases hexec
  next n m x heq =>
    cases heq
    cases h
    simp only [World.exec] at hexec
    rcases w.commit_cases (w.db.declineWithReservation p m) with ⟨y, db', hok, hcm⟩ | ⟨e, -, hcm⟩
    · rw [hcm] at hexec
      cases hexec
      obtain ⟨db₁, h₁, h₂⟩ := Db.updateBoth_eq_ok hok
      obtain ⟨p₀, hp₀, -, -, ht₁⟩ := Db.paymentUpdate_eq_ok h₁
      obtain ⟨_, -, -, -, ht₂⟩ := Db.reservationUpdate_eq_ok h₂
      have hget : db'.payments.get p =
          some (PaymentData.apply { status := some .declined } p₀) := by
        simp only [ht₂, ht₁, get_modify, if_true, hp₀, Option.map_some]
      exact ⟨⟨_, hget, .inr rfl⟩, rfl⟩
    · rw [hcm] at hexec
      cases hexec
  next => cases h

end Payments

/-! ### Every run -/

/-- No payment is charged twice, each that was charged or that a process owes has been
failed or declined, and two processes owe for different payments. -/
structure Distinct (tr : Log) (db : Db) : Prop where
  nodup : ((charges tr).map Prod.fst).Nodup
  failed : ∀ x ∈ charges tr, db.Failed x.1
  owed : ∀ i p, owed (own i tr) = some p → db.Failed p ∧ p ∉ (charges tr).map Prod.fst ∧
    ∀ j, MovieReservation.owed (own j tr) = some p → j = i

section Runs
variable {σ A : Type} {api : StripeApi σ A} {w : World σ} {op : BookingRequest} {c : Cmd}
  {tr : Log} {i : ℕ}

theorem owed_step (tr : Log) (i j : ℕ) (a : Answer Cmd Cmd.Reply Err) :
    owed (own j (tr ++ [(i, a)])) =
      if i = j then owedAfter (owed (own j tr)) a else owed (own j tr) := by
  rw [own_snoc]
  split_ifs
  · exact owed_snoc _ _
  · rfl

/-- A command that is not answered with a failure leaves fewer payments owed for. -/
theorem Distinct.of_silent {db db' : Db} {a : Answer Cmd Cmd.Reply Err} (h : Distinct tr db)
    (hfailed : ∀ p, db.Failed p → db'.Failed p) (ha : failureOf a = none)
    (hcount : ∀ u t r, a ≠ ⟨.zaddFailure u t, r⟩) : Distinct (tr ++ [(i, a)]) db' := by
  have hcharges : charges (tr ++ [(i, a)]) = charges tr := by
    rw [charges_snoc, charge_eq_nil hcount, List.append_nil]
  have hold : ∀ j p, MovieReservation.owed (own j (tr ++ [(i, a)])) = some p →
      MovieReservation.owed (own j tr) = some p := by
    intro j p hp
    rw [owed_step] at hp
    split_ifs at hp
    · rcases @owedAfter_of_none (MovieReservation.owed (own j tr)) _ ha with hn | hn
      · rw [hn] at hp
        cases hp
      · rwa [hn] at hp
    · exact hp
  constructor
  · rw [hcharges]
    exact h.nodup
  · rw [hcharges]
    exact fun x hx => hfailed x.1 (h.failed x hx)
  · intro j p hp
    obtain ⟨hf, hnot, huniq⟩ := h.owed j p (hold j p hp)
    rw [hcharges]
    exact ⟨hfailed p hf, hnot, fun m hm => huniq m (hold m p hm)⟩

/-- A failure is counted by a process that owes one. -/
theorem Distinct.charge {db : Db} {u p : ℕ} {t : Time} {r : Except Err Unit}
    (h : Distinct tr db) (hp : MovieReservation.owed (own i tr) = some p) :
    Distinct (tr ++ [(i, ⟨.zaddFailure u t, r⟩)]) db := by
  obtain ⟨hf, hnot, huniq⟩ := h.owed i p hp
  have hcharges : charges (tr ++ [(i, ⟨.zaddFailure u t, r⟩)]) = charges tr ++ [(p, u)] := by
    rw [charges_snoc, MovieReservation.charge, lastFailure_of_owed hp]
    rfl
  have hold : ∀ j q,
      MovieReservation.owed (own j (tr ++ [(i, ⟨.zaddFailure u t, r⟩)])) = some q →
      i ≠ j ∧ MovieReservation.owed (own j tr) = some q := by
    intro j q hq
    rw [owed_step] at hq
    split_ifs at hq with hij
    · cases hq
    · exact ⟨hij, hq⟩
  constructor
  · rw [hcharges, List.map_append, List.nodup_append]
    refine ⟨h.nodup, List.nodup_singleton p, fun x hx y hy => ?_⟩
    rw [List.mem_singleton.mp hy]
    rintro rfl
    exact hnot hx
  · rw [hcharges]
    intro x hx
    rcases List.mem_append.mp hx with hx | hx
    · exact h.failed x hx
    · rw [List.mem_singleton.mp hx]
      exact hf
  · intro j q hq
    obtain ⟨hij, hq⟩ := hold j q hq
    obtain ⟨hqf, hqnot, hquniq⟩ := h.owed j q hq
    refine ⟨hqf, ?_, fun m hm => hquniq m (hold m q hm).2⟩
    rw [hcharges, List.map_append, List.mem_append, not_or]
    refine ⟨hqnot, fun hqp => hij ?_⟩
    rw [List.mem_singleton.mp hqp] at hq
    exact (huniq j hq).symm

/-- A process that fails a payment, which nobody has failed before, owes for it. -/
theorem Distinct.fail {db db' : Db} {a : Answer Cmd Cmd.Reply Err} {p : ℕ} (h : Distinct tr db)
    (hfailed : ∀ q, db.Failed q → db'.Failed q) (ha : failureOf a = some p)
    (hfirst : ¬ db.Failed p) (hp : db'.Failed p) : Distinct (tr ++ [(i, a)]) db' := by
  have hcharges : charges (tr ++ [(i, a)]) = charges tr := by
    rw [charges_snoc, charge_eq_nil, List.append_nil]
    rintro u t r rfl
    cases ha
  have hnew : ∀ cur, owedAfter cur a = some p := by
    intro cur
    unfold owedAfter
    split
    · cases ha
    · rw [ha]
      rfl
  constructor
  · rw [hcharges]
    exact h.nodup
  · rw [hcharges]
    exact fun x hx => hfailed x.1 (h.failed x hx)
  · intro j q hq
    simp only [owed_step, hnew] at hq ⊢
    rw [hcharges]
    split_ifs at hq with hij
    · -- the process itself: nobody else owes for its payment, nor was it charged
      cases hq
      subst hij
      refine ⟨hp, fun hmem => ?_, fun m hm => ?_⟩
      · obtain ⟨x, hx, rfl⟩ := List.mem_map.mp hmem
        exact hfirst (h.failed x hx)
      · split_ifs at hm with him
        · exact him.symm
        · exact absurd (h.owed m p hm).1 hfirst
    · obtain ⟨hqf, hqnot, hquniq⟩ := h.owed j q hq
      refine ⟨hfailed q hqf, hqnot, fun m hm => ?_⟩
      split_ifs at hm with him
      · cases hm
        exact absurd hqf hfirst
      · exact hquniq m hm

theorem Distinct.step {o : Outcome Err} {out : Except Err c.Reply × World σ} {eventId : ℕ}
    {session : CheckoutSessionObject}
    (h : Distinct tr w.db) (hc : BookingCmd op c) (hg : FailureGround (own i tr) c)
    (hfirst : (∀ e, o ≠ .lost e) → c.First w.db)
    (hout : (failureSystem api eventId session).finish i c w o = some out) :
    Distinct (tr ++ [(i, ⟨c, out.1⟩)]) out.2.db := by
  have hfailed : ∀ p, w.db.Failed p → out.2.db.Failed p := by
    intro p hp
    rcases finish_cases _ hout with ⟨rfl, rfl⟩ | ⟨e, -, rfl⟩ | ⟨e, rfl, rfl⟩
    · exact hp.exec hc hg (hfirst nofun)
    · exact hp
    · exact hp.exec hc hg (hfirst nofun)
  by_cases hcount : ∃ u t, c = .zaddFailure u t
  · obtain ⟨u, t, rfl⟩ := hcount
    obtain ⟨p, hp⟩ := Option.isSome_iff_exists.mp hg
    have hdb : out.2.db = w.db := by
      rcases finish_state _ hout with hs | hs <;> rw [hs]
      rfl
    rw [hdb]
    exact h.charge hp
  · push Not at hcount
    cases ha : failureOf ⟨c, out.1⟩ with
    | none =>
      refine h.of_silent hfailed ha fun u t r heq => hcount u t ?_
      exact (Sigma.mk.inj heq).1
    | some p =>
      obtain ⟨r, hr⟩ : ∃ r, out.1 = .ok r := by
        cases hr : out.1 with
        | ok r => exact ⟨r, rfl⟩
        | error e =>
          rw [hr, failureOf_error] at ha
          cases ha
      obtain ⟨hexec, rfl⟩ := finish_ok _ hout hr
      rw [hr] at ha
      obtain ⟨hp, hmem⟩ := failed_of_answer hg hexec ha
      exact h.fail hfailed (by rw [hr]; exact ha) (hfirst nofun p hmem) hp

end Runs

/-! ### The counter -/

/-- Additions to the counter of `u`. -/
def Cmd.addsTo (u : ℕ) : Cmd → Bool
  | .zaddFailure v _ => v = u
  | _ => false

section Counter
variable {σ A : Type} {api : StripeApi σ A} {w : World σ} {c : Cmd} {u : ℕ}

theorem SortedSet.length_live (z : SortedSet) (now : Time) :
    (z.live now).scores.length ≤ z.scores.length := by
  unfold SortedSet.live
  split_ifs
  · exact Nat.zero_le _
  · exact Nat.le_refl _

theorem onFailures_length {v : ℕ} {f : SortedSet → SortedSet} {k : ℕ}
    (hf : ∀ z, (f z).scores.length ≤ z.scores.length + k) :
    ((w.onFailures v f).redis.paymentFailures u).scores.length ≤
      (w.redis.paymentFailures u).scores.length + if v = u then k else 0 := by
  simp only [World.onFailures, Function.update_apply, eq_comm (a := u)]
  split_ifs with h
  · subst h
    exact (hf _).trans (Nat.add_le_add_right (SortedSet.length_live _ _) k)
  · exact Nat.le_refl _

variable (api) in
/-- The counter of a user grows by additions only. -/
theorem exec_failures (c : Cmd) (w : World σ) (u : ℕ) :
    ((World.exec api c w).2.redis.paymentFailures u).scores.length ≤
      (w.redis.paymentFailures u).scores.length + if c.addsTo u then 1 else 0 := by
  have hsame : ∀ {w' : World σ}, w'.redis.paymentFailures = w.redis.paymentFailures →
      (w'.redis.paymentFailures u).scores.length ≤ (w.redis.paymentFailures u).scores.length +
        if c.addsTo u then 1 else 0 := by
    intro w' h
    rw [h]
    exact Nat.le_add_right _ _
  cases c with
  | zaddFailure v t =>
    refine (onFailures_length (k := 1) fun z => ?_).trans ?_
    · simp
    · simp [Cmd.addsTo]
  | pexpireFailures v t =>
    refine (onFailures_length (f := fun z => { z with expiresAt := some (w.now + t) }) (k := 0)
      fun z => Nat.le_refl _).trans ?_
    simp
  | zremrangeFailures v t =>
    refine (onFailures_length (k := 0) fun z => List.length_filter_le _ _).trans ?_
    simp
  | acquire =>
    refine hsame ?_
    simp only [World.exec]
    split_ifs <;> rfl
  | paymentFindById id => cases id <;> exact hsame rfl
  | paymentFindByStripePaymentId id => cases id <;> exact hsame rfl
  | paymentUpdate id d =>
    cases id with
    | none => exact hsame rfl
    | some id => exact hsame (congrArg Redis.paymentFailures (w.commit_redis _))
  | _ => first | exact hsame rfl | exact hsame (congrArg Redis.paymentFailures (w.commit_redis _))

/-- Only a lockout locks out. -/
theorem exec_lockout (hc : ∀ t, c ≠ .setLockout u t) :
    (World.exec api c w).2.redis.paymentLockout u = w.redis.paymentLockout u := by
  have hcommit : ∀ {α : Type} (x : Except Err (α × Db)),
      (w.commit x).2.redis.paymentLockout u = w.redis.paymentLockout u := fun x => by
    rw [w.commit_redis]
  cases c with
  | setLockout v t =>
    have hne : u ≠ v := fun h => hc t (h ▸ rfl)
    simp [World.exec, Function.update_of_ne hne]
  | acquire =>
    simp only [World.exec]
    split_ifs <;> rfl
  | paymentFindById id => cases id <;> rfl
  | paymentFindByStripePaymentId id => cases id <;> rfl
  | paymentUpdate id d =>
    cases id with
    | none => rfl
    | some id => exact hcommit _
  | _ => first | rfl | exact hcommit _

/-- How often a user was charged. -/
def chargesOf (u : ℕ) (tr : Log) : ℕ := (charges tr).countP fun x => x.2 = u

/-- Counted from `w₀` on: the counter of a user holds no more than what it held and what
was added, nobody has read more, and who is locked out has reached the threshold. -/
structure Counted (w₀ : World σ) (tr : Log) (w : World σ) : Prop where
  counter : ∀ u, (w.redis.paymentFailures u).scores.length ≤
    (w₀.redis.paymentFailures u).scores.length + chargesOf u tr
  read : ∀ i u (n : ℕ), (i, ⟨.zcardFailures u, .ok n⟩) ∈ tr →
    n ≤ (w₀.redis.paymentFailures u).scores.length + chargesOf u tr
  locked : ∀ u, w.redis.paymentLockout u ≠ w₀.redis.paymentLockout u →
    PaymentAbuseService.failureThreshold ≤
      (w₀.redis.paymentFailures u).scores.length + chargesOf u tr

variable {w₀ : World σ} {tr : Log} {i : ℕ}

theorem chargesOf_snoc (u : ℕ) (tr : Log) (i : ℕ) {a : Answer Cmd Cmd.Reply Err}
    (h : ∀ v t, a.1 = .zaddFailure v t → (owed (own i tr)).isSome) :
    chargesOf u (tr ++ [(i, a)]) = chargesOf u tr + if a.1.addsTo u then 1 else 0 := by
  unfold chargesOf
  rw [charges_snoc, List.countP_append]
  congr 1
  by_cases hc : ∃ v t, a.1 = .zaddFailure v t
  · obtain ⟨v, t, hc⟩ := hc
    obtain ⟨c, r⟩ := a
    cases hc
    obtain ⟨p, hp⟩ := Option.isSome_iff_exists.mp (h v t rfl)
    rw [charge, lastFailure_of_owed hp]
    by_cases hv : v = u <;> simp [Cmd.addsTo, hv]
  · push Not at hc
    rw [charge_eq_nil fun v t r heq => hc v t (by rw [heq])]
    have hadds : a.1.addsTo u = false := by
      unfold Cmd.addsTo
      split
      next v t heq => exact absurd heq (hc v t)
      next => rfl
    rw [hadds]
    rfl

theorem Counted.step {o : Outcome Err} {out : Except Err c.Reply × World σ} {eventId : ℕ}
    {session : CheckoutSessionObject} (h : Counted w₀ tr w) (hg : FailureGround (own i tr) c)
    (hout : (failureSystem api eventId session).finish i c w o = some out) :
    Counted w₀ (tr ++ [(i, ⟨c, out.1⟩)]) out.2 := by
  have hcharges : ∀ u, chargesOf u (tr ++ [(i, ⟨c, out.1⟩)]) =
      chargesOf u tr + if c.addsTo u then 1 else 0 := by
    intro u
    refine chargesOf_snoc u tr i fun v t hc => ?_
    dsimp only at hc
    subst hc
    exact hg
  have hgrow : ∀ u, chargesOf u tr ≤ chargesOf u (tr ++ [(i, ⟨c, out.1⟩)]) := by
    intro u
    rw [hcharges]
    exact Nat.le_add_right _ _
  refine ⟨fun u => ?_, fun j u n hmem => ?_, fun u hu => ?_⟩
  · have hu := h.counter u
    rw [hcharges]
    rcases finish_state _ hout with hs | hs
    · rw [hs]
      omega
    · have hexec := exec_failures api c w u
      rw [hs]
      change ((World.exec api c w).2.redis.paymentFailures u).scores.length ≤ _
      omega
  · rcases mem_snoc hmem with hold | ⟨rfl, heq⟩
    · exact (h.read j u n hold).trans (Nat.add_le_add_left (hgrow u) _)
    · obtain ⟨rfl, hr⟩ := Sigma.mk.inj heq
      obtain ⟨hexec, -⟩ := finish_ok _ hout (eq_of_heq hr).symm
      have hn : n = ((w.redis.paymentFailures u).live w.now).scores.length :=
        (Except.ok.inj (Prod.mk.inj hexec).1).symm
      have hlive := SortedSet.length_live (w.redis.paymentFailures u) w.now
      have hu := h.counter u
      have hmore := hgrow u
      omega
  · by_cases hc : ∃ t, c = .setLockout u t
    · obtain ⟨t, rfl⟩ := hc
      obtain ⟨n, hn, hmin⟩ := hg
      exact (hmin.trans (h.read i u n (mem_own.mp hn))).trans (Nat.add_le_add_left (hgrow u) _)
    · refine (h.locked u fun hsame => hu ?_).trans (Nat.add_le_add_left (hgrow u) _)
      push Not at hc
      rcases finish_state _ hout with hs | hs
      · rwa [hs]
      · rw [hs]
        exact (exec_lockout hc).trans hsame

end Counter

/-! ### Every run -/

/-- What the answers `tr` say of a run from `w₀` to `w`: each payment was charged at most
once, what was charged is a failed payment, and a user who was locked out had as many
failures as it takes: those that were counted before, and one of each payment charged. -/
structure CountedOnce {σ : Type} (w₀ : World σ) (tr : Log) (w : World σ) : Prop where
  nodup : ((charges tr).map Prod.fst).Nodup
  failed : ∀ x ∈ charges tr, w.db.Failed x.1
  locked : ∀ u, w.redis.paymentLockout u ≠ w₀.redis.paymentLockout u →
    3 ≤ (w₀.redis.paymentFailures u).scores.length + chargesOf u tr

/-- In every run in which no payment is failed, declined or settled after it was failed or
declined. -/
theorem failures_counted_once {σ A : Type} (api : StripeApi σ A) (w : World σ) (eventId : ℕ)
    (session : CheckoutSessionObject) (xs : List (Choice Err FailureOp (Env A)))
    (q : Pool Cmd Cmd.Reply Err (World σ) FailureOp Response)
    (hx : (failureSystem api eventId session).schedule xs ⟨w, []⟩ = some q)
    (ha : (failureSystem api eventId session).AllMeet (fun _ _ c v => c.First v.db) xs ⟨w, []⟩) :
    CountedOnce w ((failureSystem api eventId session).trace xs ⟨w, []⟩) q.state := by
  have hstart : Distinct [] w.db ∧ Counted w [] w := by
    refine ⟨⟨List.nodup_nil, fun x hx => ?_, fun i p hp => ?_⟩, ⟨fun u => ?_, ?_, ?_⟩⟩
    · cases hx
    · cases hp
    · exact Nat.le_refl _
    · intro i u n h
      cases h
    · exact fun u h => absurd rfl h
  have henv : ∀ tr v e, Distinct tr v.db ∧ Counted w tr v →
      Distinct tr (v.elapse api e).db ∧ Counted w tr (v.elapse api e) := by
    intro tr v e ⟨hd, hc⟩
    rw [World.elapse_db]
    refine ⟨hd, ?_⟩
    cases e <;> exact ⟨hc.counter, hc.read, hc.locked⟩
  have hstep : ∀ tr v i (op : FailureOp) c k o out, Distinct tr v.db ∧ Counted w tr v →
      Follows (op.request eventId session).handle (own i tr) (.call c k) →
      (failureSystem api eventId session).finish i c v o = some out →
      ((∀ e, o ≠ .lost e) → c.First v.db) →
      Distinct (tr ++ [(i, ⟨c, out.1⟩)]) out.2.db ∧
        Counted w (tr ++ [(i, ⟨c, out.1⟩)]) out.2 := by
    intro tr v i op c k o out ⟨hd, hcount⟩ hpath hout hfirst
    have hg : FailureGround (own i tr) c := (op.handle_ground eventId session).path hpath
    have hc : BookingCmd (op.request eventId session) c :=
      (hpath.only_rest (op.request eventId session).handle_only).1
    exact ⟨hd.step hc hg hfirst hout, hcount.step hg hout⟩
  obtain ⟨-, hd, hc⟩ := trace_rule (A := fun _ _ c v => c.First v.db)
    (I := fun tr v => Distinct tr v.db ∧ Counted w tr v) hstart henv hstep hx ha
  exact ⟨hd.nodup, hd.failed, hc.locked⟩

/-! ### Three deliveries at once -/

/-- The checkout session 1, failed for payment 1. -/
def sessionFailed : CheckoutSessionObject := ⟨.unpaid, none, some 1⟩

def heldAndOpen : List (Turn BookingRequest Account.Action) :=
  [.perform (.reserve 1 ⟨1, 1⟩) inOrder, .perform (.createCheckoutSession 1 1) []]

/-- Three deliveries look for the event before one of them records it. -/
def deliveredThrice : List (Choice Err FailureOp (Env Account.Action)) :=
  [.spawn .deliver, .spawn .deliver, .spawn .deliver] ++
    (System.solo 0 1 ++ System.solo 1 1 ++ System.solo 2 1) ++
    (System.solo 0 7 ++ System.solo 1 7 ++ System.solo 2 8)

/-- Payment 1 is charged to its user each time, who is locked out for this one payment. -/
theorem locked_out_for_one : ∃ q,
    (failureSystem testMode 7 sessionFailed).schedule deliveredThrice
      ⟨afterTurns heldAndOpen, []⟩ = some q ∧
    charges ((failureSystem testMode 7 sessionFailed).trace deliveredThrice
      ⟨afterTurns heldAndOpen, []⟩) = [(1, 1), (1, 1), (1, 1)] ∧
    (afterTurns heldAndOpen).redis.paymentFailures 1 = SortedSet.empty ∧
    (afterTurns heldAndOpen).redis.paymentLockout 1 = none ∧
    (q.state.redis.paymentLockout 1).isSome := by
  have hruns : ((failureSystem testMode 7 sessionFailed).schedule deliveredThrice
      ⟨afterTurns heldAndOpen, []⟩).any fun q => (q.state.redis.paymentLockout 1).isSome := by
    decide +kernel
  obtain ⟨q, hq, hlocked⟩ := (Option.any_eq_true _ _).mp hruns
  exact ⟨q, hq, by decide +kernel, by decide +kernel, by decide +kernel, hlocked⟩

/-- The event is delivered again while its first delivery counts the failure, and a tick
finds nothing to do. -/
def deliveredTwice : List (Choice Err FailureOp (Env Account.Action)) :=
  [.spawn .deliver] ++ System.solo 0 4 ++ [.spawn .deliver, .spawn .reconcile] ++
    (System.solo 2 1 ++ System.solo 1 1 ++ System.solo 2 1) ++ System.solo 0 4

theorem counted_once_of_two : ∃ q,
    (failureSystem testMode 7 sessionFailed).schedule deliveredTwice
      ⟨afterTurns heldAndOpen, []⟩ = some q ∧
    CountedOnce (afterTurns heldAndOpen) ((failureSystem testMode 7 sessionFailed).trace
      deliveredTwice ⟨afterTurns heldAndOpen, []⟩) q.state := by
  have hruns : ((failureSystem testMode 7 sessionFailed).schedule deliveredTwice
      ⟨afterTurns heldAndOpen, []⟩).isSome := by decide +kernel
  obtain ⟨q, hq⟩ := Option.isSome_iff_exists.mp hruns
  exact ⟨q, hq, failures_counted_once testMode _ 7 sessionFailed deliveredTwice q hq
    (by decide +kernel)⟩

end MovieReservation
