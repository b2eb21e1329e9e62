import MovieReservation.Effects
import MovieReservation.Lib.Loop
import MovieReservation.Services.Footprint
import MovieReservation.Services.TestMode

/-! Stuck payments. The tick settles the stuck payments one after another and ends with the
first whose turn fails, so a failing payment blocks those behind it. -/

namespace MovieReservation

open Lib Lib.Prog Lib.Table PaymentsService PaymentAbuseService

variable {σ A : Type} (api : StripeApi σ A)

/-! ### Turns of the loop that fail on their own -/

/-- How each command fares in each turn of the loop, from 1; the list itself is read. -/
structure Outages where
  outcome : ℕ → Cmd → Outcome Err
  listed : ∀ c, outcome 0 c = .answered

/-- A turn begins with the retrieval of its session. -/
def Cmd.retrieves : Cmd → Bool
  | .sessionsRetrieve _ => true
  | _ => false

/-- A command in the turn that is counted beside the world. -/
def execAmid (x : Outages) (c : Cmd) (s : ℕ × World σ) : Except Err c.Reply × ℕ × World σ :=
  let turn := if c.retrieves then s.1 + 1 else s.1
  let out := World.exec api c s.2
  match x.outcome turn c with
  | .answered => (out.1, turn, out.2)
  | .lost e => (.error e, turn, s.2)
  | .unacknowledged e => (.error e, turn, out.2)

def stuckPayments (w : World σ) : List Payment :=
  w.db.findStuckTimedOut (w.now - reconcileGraceMinutes * 60000)

/-- The world after one tick. -/
def afterTick (x : Outages) (w : World σ) : World σ :=
  (HoldExpiryCron.handleReconcilePayments.run (execAmid api x) (0, w)).2.2

/-- The stuck payments whose retrieval, transaction or abuse recording fails. -/
def failingPayments (x : Outages) (w : World σ) : List Payment :=
  failing (execAmid api x) reconcile (stuckPayments w) (0, w)

/-- The payment is SUCCEEDED or DECLINED, and its reservation with it. -/
def Reconciled (db : Db) (p : Payment) : Prop :=
  ∃ payment reservation, db.payments.get p.id = some payment ∧
    db.reservations.get p.reservationId = some reservation ∧
    (payment.status = .succeeded ∧ reservation.status = .confirmed ∨
      payment.status = .declined ∧ reservation.status = .cancelled)

/-- No payment stays stuck because of another. -/
def Unblocked (x : Outages) (w : World σ) : Prop :=
  ∀ p ∈ stuckPayments w, p ∉ failingPayments api x w → Reconciled (afterTick api x w).db p

/-! ### Commands among failures -/

section Commands
variable {api} {x : Outages}

theorem execAmid_state (c : Cmd) (s : ℕ × World σ) :
    (execAmid api x c s).2.2 = s.2 ∨ (execAmid api x c s).2.2 = (World.exec api c s.2).2 := by
  rw [execAmid]
  split
  · exact .inr rfl
  · exact .inl rfl
  · exact .inr rfl

theorem execAmid_ok {c : Cmd} {s t : ℕ × World σ} {a : c.Reply}
    (h : execAmid api x c s = (.ok a, t)) : World.exec api c s.2 = (.ok a, t.2) := by
  rw [execAmid] at h
  split at h
  · obtain ⟨hanswer, rfl⟩ := Prod.mk.inj h
    exact Prod.ext hanswer rfl
  · exact nomatch (Prod.mk.inj h).1
  · exact nomatch (Prod.mk.inj h).1

theorem request_ok {c : Cmd} {s t : ℕ × World σ} {a : c.Reply}
    (h : (request c).run (execAmid api x) s = (.ok a, t)) : execAmid api x c s = (.ok a, t) := h

/-- Before the first turn nothing fails. -/
theorem run_listing {c : Cmd} (hc : c.retrieves = false) (w : World σ) :
    (request c).run (execAmid api x) (0, w) =
      ((World.exec api c w).1, 0, (World.exec api c w).2) := by
  change execAmid api x c (0, w) = _
  simp [execAmid, hc, x.listed]

/-- What a statement keeps, it keeps among failures. -/
theorem execAmid_keeps {P : Db → Prop} {c : Cmd}
    (hc : ∀ w : World σ, P w.db → P (World.exec api c w).2.db) {s : ℕ × World σ}
    (hs : P s.2.db) : P (execAmid api x c s).2.2.db := by
  have hstate : (execAmid api x c s).2.2 = s.2 ∨
      (execAmid api x c s).2.2 = (World.exec api c s.2).2 := execAmid_state c s
  rcases hstate with h | h
  · rw [h]
    exact hs
  · rw [h]
    exact hc s.2 hs

end Commands

/-! ### One turn -/

section Turn
variable {db db' : Db}

/-- The two updates of a transaction write one row each. -/
theorem updateBoth_rows {pid rid : ℕ} {p : PaymentData} {r : ReservationData}
    {y : Payment × Reservation} (h : db.updateBoth pid p rid r = .ok (y, db')) :
    (∃ p₀, db'.payments.get pid = some (p.apply p₀)) ∧
      (∃ r₀, db'.reservations.get rid = some (r.apply r₀)) ∧
      (∀ i ≠ pid, db'.payments.get i = db.payments.get i) ∧
      ∀ i ≠ rid, db'.reservations.get i = db.reservations.get i := by
  obtain ⟨db₁, h₁, h₂⟩ := Db.updateBoth_eq_ok h
  obtain ⟨p₀, hp, -, -, ht₁⟩ := Db.paymentUpdate_eq_ok h₁
  obtain ⟨r₀, hr, -, -, ht₂⟩ := Db.reservationUpdate_eq_ok h₂
  refine ⟨⟨p₀, ?_⟩, ⟨r₀, ?_⟩, fun i hi => ?_, fun i hi => ?_⟩
  · rw [ht₂]
    simp only [ht₁, get_modify, hp, if_true, Option.map_some]
  · rw [ht₂]
    simp only [get_modify, hr, if_true, Option.map_some]
  · rw [ht₂]
    simp only [ht₁, get_modify, if_neg hi]
  · rw [ht₂]
    simp only [ht₁, get_modify, if_neg hi]

variable {p q : Payment}

theorem reconciled_confirmed {intent : Option ℕ} {y : Payment × Reservation}
    (h : db.confirmWithReservation p.id p.reservationId intent = .ok (y, db')) :
    Reconciled db' p := by
  obtain ⟨⟨p₀, hp⟩, ⟨r₀, hr⟩, -, -⟩ := updateBoth_rows h
  exact ⟨_, _, hp, hr, .inl ⟨rfl, rfl⟩⟩

theorem reconciled_declined {y : Payment × Reservation}
    (h : db.declineWithReservation p.id p.reservationId = .ok (y, db')) : Reconciled db' p := by
  obtain ⟨⟨p₀, hp⟩, ⟨r₀, hr⟩, -, -⟩ := updateBoth_rows h
  exact ⟨_, _, hp, hr, .inr ⟨rfl, rfl⟩⟩

/-- A turn writes its payment and the reservation of that. -/
theorem reconcile_writes (p : Payment) :
    Only (fun c => c.quiet ∨ c = .declineWithReservation p.id p.reservationId ∨
      ∃ i, c = .confirmWithReservation p.id p.reservationId i) (reconcile p) := by
  unfold reconcile
  refine Only.bind ((only_issue _).mpr (.inl rfl)) fun session => ?_
  split_ifs
  · refine Only.bind ((only_issue _).mpr (.inr (.inr ⟨_, rfl⟩))) fun y => ?_
    exact (only_issue _).mpr (.inl rfl)
  · refine Only.bind ((only_issue _).mpr (.inr (.inl rfl))) fun y => ?_
    refine Only.bind ((only_issue _).mpr (.inl rfl)) fun _ => ?_
    exact (recordFailure_quiet _).mono fun c hc => .inl hc

/-- The rows of the payment `q` are `a` and `b`. -/
def Rows (q : Payment) (a : Option Payment) (b : Option Reservation) (db : Db) : Prop :=
  db.payments.get q.id = a ∧ db.reservations.get q.reservationId = b

theorem rows_updateBoth {a : Option Payment} {b : Option Reservation} {d : PaymentData}
    {e : ReservationData} (hid : q.id ≠ p.id) (hres : q.reservationId ≠ p.reservationId)
    {w : World σ} (h : Rows q a b w.db) :
    Rows q a b (w.commit (w.db.updateBoth p.id d p.reservationId e)).2.db := by
  refine World.commit_rule h fun y db' hu => ?_
  obtain ⟨-, -, hpayments, hreservations⟩ := updateBoth_rows hu
  exact ⟨(hpayments q.id hid).trans h.1, (hreservations q.reservationId hres).trans h.2⟩

variable {api} {x : Outages}

theorem rows_turn {a : Option Payment} {b : Option Reservation} (hid : q.id ≠ p.id)
    (hres : q.reservationId ≠ p.reservationId) {s : ℕ × World σ} (h : Rows q a b s.2.db) :
    Rows q a b ((reconcile p).run (execAmid api x) s).2.2.db := by
  refine (reconcile_writes p).run (I := fun t => Rows q a b t.2.db) (execAmid api x)
    (fun c t hc ht => execAmid_keeps (fun w hw => ?_) ht) h
  rcases hc with hc | rfl | ⟨i, rfl⟩
  · rw [World.exec_quiet api hc]
    exact hw
  · exact rows_updateBoth hid hres hw
  · exact rows_updateBoth hid hres hw

theorem reconciled_iff_of_rows {db₁ db₂ : Db}
    (h : Rows q (db₁.payments.get q.id) (db₁.reservations.get q.reservationId) db₂) :
    Reconciled db₂ q ↔ Reconciled db₁ q := by
  rw [Reconciled, Reconciled, h.1, h.2]

/-- A turn that did not fail reconciles its payment. -/
theorem reconciled_turn {s t : ℕ × World σ}
    (h : (reconcile p).run (execAmid api x) s = (.ok (), t)) : Reconciled t.2.db p := by
  have hquiet : ∀ {f : M Unit} {u : ℕ × World σ}, Only (fun c => c.quiet) f →
      f.run (execAmid api x) u = (.ok (), t) → t.2.db = u.2.db := by
    intro f u hf hrun
    have := hf.run (I := fun v => v.2.db = u.2.db) (execAmid api x)
      (fun c v hc hv => execAmid_keeps (P := fun db => db = u.2.db)
        (fun w hw => (World.exec_quiet api hc w).trans hw) hv) rfl
    rwa [hrun] at this
  unfold reconcile at h
  obtain ⟨session, u, -, h⟩ := run_bind_ok _ h
  split_ifs at h
  · obtain ⟨y, v, hcommit, h⟩ := run_bind_ok _ h
    rw [hquiet (quiet_request rfl) h]
    exact reconciled_confirmed (World.eq_of_commit (execAmid_ok (request_ok hcommit)))
  · obtain ⟨y, v, hcommit, h⟩ := run_bind_ok _ h
    rw [hquiet (Only.bind (quiet_request rfl) fun _ => recordFailure_quiet _) h]
    exact reconciled_declined (World.eq_of_commit (execAmid_ok (request_ok hcommit)))

end Turn

/-! ### The tick -/

section Tick
variable {api} {x : Outages} {w : World σ}

theorem mem_stuckPayments {p : Payment} (hp : p ∈ stuckPayments w) :
    p ∈ w.db.payments.rows ∧ p.status = .timedOut := by
  obtain ⟨hmem, hstuck⟩ := List.mem_filter.mp hp
  exact ⟨hmem, (of_decide_eq_true hstuck).1⟩

theorem stuckPayments_nodup (w : World σ) : (stuckPayments w).Nodup :=
  (List.Nodup.of_map _ w.db.payments.nodup).filter _

/-- Two stuck payments are of two reservations. -/
theorem stuckPayments_apart {p q : Payment} (hp : p ∈ stuckPayments w) (hq : q ∈ stuckPayments w)
    (hne : q ≠ p) : q.id ≠ p.id ∧ q.reservationId ≠ p.reservationId := by
  have hpm := (mem_stuckPayments hp).1
  have hqm := (mem_stuckPayments hq).1
  refine ⟨fun h => hne (eq_of_id hqm hpm h), fun h => hne ?_⟩
  exact w.db.payment_reservationId_key.eq hqm hpm rfl (congrArg some h.symm)

theorem not_reconciled_stuck {p : Payment} (hp : p ∈ stuckPayments w) : ¬ Reconciled w.db p := by
  rintro ⟨q, r, hq, -, hstatus⟩
  obtain ⟨hmem, hstuck⟩ := mem_stuckPayments hp
  obtain rfl : p = q := Option.some.inj ((get_of_mem hmem).symm.trans hq)
  rcases hstatus with ⟨h, -⟩ | ⟨h, -⟩ <;> rw [hstuck] at h <;> cases h

theorem afterTick_eq (api : StripeApi σ A) (x : Outages) (w : World σ) :
    afterTick api x w =
      (Prog.run (execAmid api x) (forM (stuckPayments w) reconcile) (0, w)).2.2 := by
  have hnow : now.run (execAmid api x) (0, w) = (.ok w.now, 0, w) :=
    run_listing (c := .dateNow) rfl w
  have hstuck : (PaymentsRepository.findStuckTimedOut
      (w.now - reconcileGraceMinutes * 60000)).run (execAmid api x) (0, w) =
        (.ok (stuckPayments w), 0, w) :=
    run_listing (c := .findStuckTimedOut _) rfl w
  have hlist : Prog.run (execAmid api x) reconcileTimedOutPayments (0, w) =
      Prog.run (execAmid api x) (forM (stuckPayments w) reconcile) (0, w) := by
    unfold reconcileTimedOutPayments
    rw [run_bind, hnow]
    simp only [run_bind, hstuck]
  unfold afterTick HoldExpiryCron.handleReconcilePayments
  rw [run_tryCatch, hlist]
  rcases Prog.run (execAmid api x) (forM (stuckPayments w) reconcile) (0, w) with ⟨e | _, t⟩ <;> rfl

/-- Every stuck payment that does not fail itself is reconciled exactly if those that fail are
the last of the list. -/
theorem unblocked_iff (api : StripeApi σ A) (x : Outages) (w : World σ) :
    Unblocked api x w ↔ failingPayments api x w <:+ stuckPayments w := by
  unfold Unblocked failingPayments
  rw [afterTick_eq]
  refine forM_settles_iff (Q := fun p s => Reconciled s.2.db p) (stuckPayments_nodup w)
    (fun p _ s t h => reconciled_turn h) (fun p hp q hq hne s => ?_) (0, w)
    fun p hp => not_reconciled_stuck hp
  obtain ⟨hid, hres⟩ := stuckPayments_apart hp hq hne
  exact reconciled_iff_of_rows (rows_turn hid hres ⟨rfl, rfl⟩)

end Tick

/-- The checkout session of the payment expired unpaid. -/
def sessionLapsed (n : ℕ) : StripeEvent := ⟨n, .checkoutSessionExpired ⟨.unpaid, none, some n⟩⟩

/-- Users 1 and 2 let their sessions expire, half an hour ago. -/
def bothLapsed : List (Turn BookingRequest Account.Action) :=
  [.perform (.reserve 1 ⟨1, 1⟩) inOrder, .perform (.createCheckoutSession 1 1) [],
    .perform (.reserve 2 ⟨1, 2⟩) inOrder, .perform (.createCheckoutSession 2 2) [],
    .perform (.webhook (.ok (sessionLapsed 1))) [], .perform (.webhook (.ok (sessionLapsed 2))) [],
    .env (.advance 1800000)]

/-- Stripe does not answer the first retrieval. -/
def firstUnanswered : Outages where
  outcome turn c := if turn = 1 ∧ c.retrieves then .lost .stripe else .answered
  listed := by simp

/-- The second payment stays TIMED_OUT. -/
theorem second_blocked : ¬ ∀ x w, Unblocked testMode x w := by
  intro hall
  have hblocked : (stuckPayments (afterTurns bothLapsed)).any fun p =>
      p ∉ failingPayments testMode firstUnanswered (afterTurns bothLapsed) ∧
        ((afterTick testMode firstUnanswered (afterTurns bothLapsed)).db.payments.get p.id).map
          Payment.status = some .timedOut := by decide +kernel
  obtain ⟨p, hp, hblocked⟩ := List.any_eq_true.mp hblocked
  obtain ⟨hnot, htimedOut⟩ := of_decide_eq_true hblocked
  obtain ⟨q, r, hq, -, hstatus⟩ := hall firstUnanswered (afterTurns bothLapsed) p hp hnot
  rw [hq, Option.map_some, Option.some.injEq] at htimedOut
  rcases hstatus with ⟨h, -⟩ | ⟨h, -⟩ <;> rw [htimedOut] at h <;> cases h

end MovieReservation
