import MovieReservation.Properties.DeadEnds

/-! Checkouts that fail on the way, any number of them. Whichever step fails, the payment is
not there, or the compensating delete removes it, so the tables are what they were and a
later checkout finds the way open. -/

namespace MovieReservation

open Lib Lib.Prog Lib.Table PaymentsService

variable {σ A : Type}

/-! ### Attempts -/

/-- The steps of a checkout that write. -/
inductive CheckoutStep where
  | insertPayment
  | createSession
  | storeSessionId
  | extendHold
  deriving DecidableEq

def Cmd.checkoutStep : Cmd → Option CheckoutStep
  | .paymentCreate _ => some .insertPayment
  | .sessionsCreate _ => some .createSession
  | .paymentUpdate _ _ => some .storeSessionId
  | .reservationUpdate _ _ => some .extendHold
  | _ => none

/-- Every service is up, but the step throws and has no effect. -/
def World.execBut (api : StripeApi σ A) (step : CheckoutStep) (err : Err) (c : Cmd)
    (w : World σ) : Except Err c.Reply × World σ :=
  if c.checkoutStep = some step then (.error err, w) else exec api c w

/-- A call that fails at the step, if it comes so far. -/
structure FailedCheckout where
  userId : ℕ
  step : CheckoutStep
  error : Err

def FailedCheckout.call (x : FailedCheckout) (api : StripeApi σ A) (id : ℕ) (w : World σ) :
    Except Err String × World σ :=
  (createCheckoutSession x.userId id).run (World.execBut api x.step x.error) w

/-- Failed calls for reservation `id`, one at a time, and what happens in between. -/
def afterFailures (api : StripeApi σ A) (id : ℕ) (xs : List (Env A ⊕ FailedCheckout))
    (w : World σ) : World σ :=
  xs.foldl (fun w x => x.elim (World.elapse api · w) fun x => (x.call api id w).2) w

/-- Both tables are what they were. -/
structure Traceless (w v : World σ) : Prop where
  payments : v.db.payments.rows = w.db.payments.rows
  reservations : v.db.reservations = w.db.reservations

theorem Traceless.refl (w : World σ) : Traceless w w := ⟨rfl, rfl⟩

theorem Traceless.trans {u v w : World σ} (h : Traceless u v) (h' : Traceless v w) :
    Traceless u w := ⟨h'.payments.trans h.payments, h'.reservations.trans h.reservations⟩

/-! ### One attempt -/

/-- Without payment `n`, the tables are what they were. -/
structure Undoable (w : World σ) (n : ℕ) (v : World σ) : Prop where
  reservations : v.db.reservations = w.db.reservations
  others : (v.db.payments.erase n).rows = w.db.payments.rows
  there : (v.db.payments.get n).isSome

section Attempt
variable {api : StripeApi σ A} {step : CheckoutStep} {err : Err} {w v : World σ} {n : ℕ}
  {payment : Payment} {db : Db}

theorem run_step {c : Cmd} (h : c.checkoutStep = some step) :
    (request c).run (World.execBut api step err) w = (.error err, w) := if_pos h

theorem run_other {c : Cmd} (h : c.checkoutStep ≠ some step) :
    (request c).run (World.execBut api step err) w = World.exec api c w := if_neg h

theorem Undoable.create {d : Db.PaymentCreate}
    (h : w.db.paymentCreate w.now d = .ok (payment, db)) :
    Undoable w payment.id { w with db } := by
  obtain ⟨-, rfl, -, ht⟩ := Db.paymentCreate_eq_ok h
  refine ⟨?_, ?_, ?_⟩
  · simp only [ht]
  · simp only [ht]
    exact rows_erase_insert (d.id_row w.now)
  · simp only [ht, get_insert, Db.PaymentCreate.row, if_true, Option.isSome_some]

theorem Undoable.stripe (h : Undoable w n v) (t : σ) : Undoable w n { v with stripe := t } :=
  ⟨h.reservations, h.others, h.there⟩

theorem Undoable.update (h : Undoable w n v) {d : PaymentData}
    (hok : v.db.paymentUpdate n d = .ok (payment, db)) : Undoable w n { v with db } := by
  obtain ⟨p₀, hp₀, -, -, ht⟩ := Db.paymentUpdate_eq_ok hok
  refine ⟨?_, ?_, ?_⟩
  · simp only [ht]
    exact h.reservations
  · simp only [ht, rows_erase_modify]
    exact h.others
  · simp only [ht, get_modify, if_true, hp₀, Option.map_some, Option.isSome_some]

theorem Undoable.delete (h : Undoable w n v) :
    ∃ p v', (PaymentsRepository.delete n).run (World.execBut api step err) v = (.ok p, v') ∧
      Traceless w v' := by
  obtain ⟨p, hp⟩ := Option.isSome_iff_exists.mp h.there
  obtain ⟨db, hok⟩ : ∃ db, v.db.paymentDelete n = .ok (p, db) := by
    unfold Db.paymentDelete
    rw [hp]
    exact ⟨_, rfl⟩
  obtain ⟨-, ht⟩ := Db.paymentDelete_eq_ok hok
  refine ⟨p, { v with db }, World.commit_ok hok, ?_, ?_⟩
  · simp only [ht]
    exact h.others
  · simp only [ht]
    exact h.reservations

/-- The steps of a checkout once its payment is there. -/
def openSession (reservationId : ℕ) (amount : ℤ) (payment : Payment) : M String := do
  let expiresAt := (← now) / 1000 + checkoutExpiryMinutes * 60
  let session ← Stripe.sessionsCreate
    { reservationId, amount, currency, expiresAt, paymentId := payment.id }
  let _ ← PaymentsRepository.update (some payment.id) { stripeSessionId := some (some session.id) }
  let _ ← ReservationsService.extendHold reservationId (expiresAt * 1000)
  pure session.url

/-- A step after the insertion fails, and the payment is all there is to undo. -/
theorem openSession_fails (hstep : step ≠ .insertPayment) (h : Undoable w payment.id v) (id : ℕ)
    (amount : ℤ) : ∃ e v', (openSession id amount payment).run (World.execBut api step err) v =
      (.error e, v') ∧ Undoable w payment.id v' := by
  have hclock : now.run (World.execBut api step err) v = (.ok v.now, v) := rfl
  unfold openSession
  rw [run_bind_of_ok hclock]
  by_cases hsession : step = .createSession
  · subst hsession
    exact ⟨err, v, run_bind_of_error (run_step rfl), h⟩
  have hcreate : ∀ params, (Stripe.sessionsCreate params).run (World.execBut api step err) v =
      v.onStripe (api.createSession params v.stripe) :=
    fun params => run_other fun heq => hsession (Option.some.inj heq).symm
  rcases hanswer : api.createSession ⟨id, amount, currency,
      v.now / 1000 + checkoutExpiryMinutes * 60, payment.id⟩ v.stripe with ⟨e | session, t⟩
  · refine ⟨e, { v with stripe := t }, run_bind_of_error ((hcreate _).trans ?_), h.stripe t⟩
    rw [hanswer]
    rfl
  rw [run_bind_of_ok (t := { v with stripe := t }) ((hcreate _).trans (by rw [hanswer]; rfl))]
  by_cases hstore : step = .storeSessionId
  · subst hstore
    exact ⟨err, _, run_bind_of_error (run_step rfl), h.stripe t⟩
  have hupdate : (PaymentsRepository.update (some payment.id)
      { stripeSessionId := some (some session.id) }).run (World.execBut api step err)
        { v with stripe := t } = World.commit { v with stripe := t } (v.db.paymentUpdate payment.id
          { stripeSessionId := some (some session.id) }) :=
    run_other fun heq => hstore (Option.some.inj heq).symm
  rcases World.commit_cases { v with stripe := t } (v.db.paymentUpdate payment.id
      { stripeSessionId := some (some session.id) }) with ⟨p, db, hok, hcm⟩ | ⟨e, -, hcm⟩
  · rw [run_bind_of_ok (hupdate.trans hcm)]
    have hextend : step = .extendHold := by
      cases step with
      | insertPayment => exact absurd rfl hstep
      | createSession => exact absurd rfl hsession
      | storeSessionId => exact absurd rfl hstore
      | extendHold => rfl
    subst hextend
    exact ⟨err, _, run_bind_of_error (run_step rfl), (h.stripe t).update hok⟩
  · exact ⟨e, _, run_bind_of_error (hupdate.trans hcm), h.stripe t⟩

theorem findOwned_cases (userId id : ℕ) :
    (∃ e, (ReservationsService.findOwned userId id).run (World.execBut api step err) w =
      (.error e, w)) ∨
    ∃ r, (ReservationsService.findOwned userId id).run (World.execBut api step err) w =
      (.ok r, w) := by
  have hread : (ReservationsRepository.findById id).run (World.execBut api step err) w =
      (.ok (w.db.reservations.get id), w) := run_other nofun
  unfold ReservationsService.findOwned ReservationsService.getById
  rw [run_bind, run_bind_of_ok hread]
  cases w.db.reservations.get id with
  | none => exact .inl ⟨_, rfl⟩
  | some r =>
    by_cases hown : r.userId ≠ userId
    · exact .inl ⟨_, run_throwIf_bind_of hown⟩
    · exact .inr ⟨r, run_throwIf_bind_of_not hown⟩

/-- The payment is not inserted, or inserted and there to be undone. -/
theorem create_cases (d : Db.PaymentCreate) :
    (∃ e, (PaymentsRepository.create d).run (World.execBut api step err) w = (.error e, w)) ∨
    step ≠ .insertPayment ∧ ∃ payment v,
      (PaymentsRepository.create d).run (World.execBut api step err) w = (.ok payment, v) ∧
        Undoable w payment.id v := by
  by_cases hstep : step = .insertPayment
  · subst hstep
    exact .inl ⟨err, run_step rfl⟩
  have hrun : (PaymentsRepository.create d).run (World.execBut api step err) w =
      w.commit (w.db.paymentCreate w.now d) :=
    run_other fun heq => hstep (Option.some.inj heq).symm
  rcases w.commit_cases (w.db.paymentCreate w.now d) with ⟨payment, db, hok, hcm⟩ | ⟨e, -, hcm⟩
  · exact .inr ⟨hstep, payment, _, hrun.trans hcm, .create hok⟩
  · exact .inl ⟨e, hrun.trans hcm⟩

end Attempt

/-- A call that fails leaves both tables as they were. -/
theorem FailedCheckout.traceless (x : FailedCheckout) (api : StripeApi σ A) (id : ℕ)
    (w : World σ) : ∃ e v, x.call api id w = (.error e, v) ∧ Traceless w v := by
  obtain ⟨userId, step, err⟩ := x
  have hpaid : (PaymentsRepository.findByReservationId id).run (World.execBut api step err) w =
      (.ok (w.db.payments.rows.find? fun p => p.reservationId = id), w) :=
    run_other (Option.some_ne_none step).symm
  unfold FailedCheckout.call createCheckoutSession
  rcases findOwned_cases userId id with ⟨e, he⟩ | ⟨r, hr⟩
  · exact ⟨e, w, run_bind_of_error he, .refl w⟩
  rw [run_bind_of_ok hr]
  by_cases hheld : r.status ≠ .held
  · exact ⟨_, w, run_throwIf_bind_of hheld, .refl w⟩
  rw [run_throwIf_bind_of_not hheld, run_bind_of_ok hpaid]
  by_cases hexisting : (w.db.payments.rows.find? fun p => p.reservationId = id).isSome = true
  · exact ⟨_, w, run_throwIf_bind_of hexisting, .refl w⟩
  have hscreening : (ScreeningsRepository.findById r.screeningId).run
      (World.execBut api step err) w = (.ok (w.db.screeningFindById r.screeningId), w) :=
    run_other (Option.some_ne_none step).symm
  rw [run_throwIf_bind_of_not hexisting, run_bind_of_ok hscreening]
  cases w.db.screeningFindById r.screeningId with
  | none => exact ⟨_, w, rfl, .refl w⟩
  | some s =>
    dsimp only
    rcases create_cases ⟨id, s.price * 100, currency, .pending, none⟩ with
      ⟨e, he⟩ | ⟨hstep, payment, v, hcreated, hundo⟩
    · obtain ⟨e', he'⟩ : ∃ e', (tryCatch (PaymentsRepository.create
          ⟨id, s.price * 100, currency, .pending, none⟩) fun err =>
            if err = .prisma .p2002 then throw alreadyHasPayment else throw err).run
              (World.execBut api step err) w = (.error e', w) := by
        rw [run_tryCatch_of_error he]
        split_ifs
        · exact ⟨_, rfl⟩
        · exact ⟨_, rfl⟩
      exact ⟨e', w, run_bind_of_error he', .refl w⟩
    · obtain ⟨e, v₁, hfail, hundo₁⟩ := openSession_fails hstep hundo id (s.price * 100)
      obtain ⟨p, v₂, hdelete, htraceless⟩ :=
        @Undoable.delete σ A api step err w v₁ payment.id hundo₁
      refine ⟨e, v₂, ?_, htraceless⟩
      rw [run_bind_of_ok (run_tryCatch_of_ok hcreated)]
      refine (run_tryCatch_of_error hfail).trans ?_
      rw [run_bind_of_ok hdelete]
      rfl

/-! ### Any number of attempts -/

theorem afterFailures_append (api : StripeApi σ A) (id : ℕ) (xs : List (Env A ⊕ FailedCheckout))
    (x : Env A ⊕ FailedCheckout) (w : World σ) : afterFailures api id (xs ++ [x]) w =
      x.elim (World.elapse api · (afterFailures api id xs w))
        fun x => (x.call api id (afterFailures api id xs w)).2 := by
  simp only [afterFailures, List.foldl_append, List.foldl_cons, List.foldl_nil]

theorem afterFailures_traceless (api : StripeApi σ A) (id : ℕ)
    (xs : List (Env A ⊕ FailedCheckout)) (w : World σ) :
    Traceless w (afterFailures api id xs w) := by
  induction xs using List.reverseRecOn with
  | nil => exact .refl w
  | append_singleton xs x ih =>
    rw [afterFailures_append]
    cases x with
    | inl e =>
      have hdb := World.elapse_db api e (afterFailures api id xs w)
      exact ih.trans ⟨by rw [Sum.elim_inl, hdb], by rw [Sum.elim_inl, hdb]⟩
    | inr x =>
      obtain ⟨_, v, hcall, htraceless⟩ := x.traceless api id (afterFailures api id xs w)
      rw [Sum.elim_inr, hcall]
      exact ih.trans htraceless

/-- The call opened a session for the reservation's one payment, which is PENDING with the id
of that session, and the hold lasts until the session expires. -/
def CheckedOut (api : StripeApi σ A) (id : ℕ) (w : World σ) (out : Except Err String × World σ) :
    Prop :=
  ∃ (params : CheckoutParams) (session : Session) (p : Payment),
    params.reservationId = id ∧ params.paymentId = p.id ∧
    params.expiresAt = w.now / 1000 + checkoutExpiryMinutes * 60 ∧
    (api.createSession params w.stripe).1 = .ok session ∧ out.1 = .ok session.url ∧
    (∀ q, q ∈ out.2.db.payments.rows ∧ q.reservationId = id ↔ q = p) ∧
    p.status = .pending ∧ p.stripeSessionId = some session.id ∧
    ∃ r ∈ out.2.db.reservations.get id, r.heldUntil = some (params.expiresAt * 1000)

/-- **Failed checkouts leave no trace, and the next one succeeds.** -/
theorem failed_checkouts_traceless (api : StripeApi σ A) (id : ℕ)
    (xs : List (Env A ⊕ FailedCheckout)) (w : World σ) :
    (∀ ys x, ys ++ [.inr x] <+: xs →
      (∃ e, (x.call api id (afterFailures api id ys w)).1 = .error e) ∧
      Traceless (afterFailures api id ys w) (x.call api id (afterFailures api id ys w)).2 ∧
      Traceless w (x.call api id (afterFailures api id ys w)).2) ∧
    ∀ r s, w.db.reservations.get id = some r → r.status = .held →
      (∀ q ∈ w.db.payments.rows, q.reservationId ≠ id) →
      (afterFailures api id xs w).db.screenings.get r.screeningId = some s →
      Int4 (s.price * 100) → StripeOpens api (afterFailures api id xs w) →
        CheckedOut api id (afterFailures api id xs w)
          (perform api (createCheckoutSession r.userId id) (afterFailures api id xs w)) := by
  refine ⟨fun ys x _ => ?_, fun r s hr hheld hfree hs hfits hstripe => ?_⟩
  · obtain ⟨e, v, hcall, htraceless⟩ := x.traceless api id (afterFailures api id ys w)
    rw [hcall]
    exact ⟨⟨e, rfl⟩, htraceless, (afterFailures_traceless api id ys w).trans htraceless⟩
  · have htraceless := afterFailures_traceless api id xs w
    obtain rfl : r.id = id := id_of_get hr
    rw [← htraceless.payments] at hfree
    rw [← htraceless.reservations] at hr
    obtain ⟨_, params, session, p, w', rfl, rfl, hsession, hrun, hp, hid, hstatus, hstored, hr'⟩ :=
      checkout_run hr hheld hs hfits hfree hstripe
    rw [hrun]
    refine ⟨_, session, p, rfl, rfl, rfl, hsession, rfl, fun q => ?_, hstatus, hstored, _, hr', rfl⟩
    constructor
    · rintro ⟨hq, hqid⟩
      exact w'.db.payment_reservationId_key.eq hq (mem_of_get hp) rfl
        (congrArg some (hid.trans hqid.symm))
    · rintro rfl
      exact ⟨mem_of_get hp, hid⟩

/-- User 1 fails once at every step. -/
def everyStepFails : List (Env Account.Action ⊕ FailedCheckout) :=
  [.inr ⟨1, .insertPayment, .unreachable⟩, .inr ⟨1, .createSession, .stripe⟩,
    .inl (.advance 60000), .inr ⟨1, .storeSessionId, .unreachable⟩,
    .inr ⟨1, .extendHold, .unreachable⟩]

/-- User 1 holds seat 1. -/
def seatHeld : World Account := afterTurns [.perform (.reserve 1 ⟨1, 1⟩) inOrder]

theorem every_step_undone : ∃ r, seatHeld.db.reservations.get 1 = some r ∧
    CheckedOut testMode 1 (afterFailures testMode 1 everyStepFails seatHeld)
      (perform testMode (createCheckoutSession r.userId 1)
        (afterFailures testMode 1 everyStepFails seatHeld)) := by
  have hheld : (seatHeld.db.reservations.get 1).any fun r => r.status = .held ∧
      (∀ q ∈ seatHeld.db.payments.rows, q.reservationId ≠ 1) ∧
      ∃ s ∈ (afterFailures testMode 1 everyStepFails seatHeld).db.screenings.get r.screeningId,
        Int4 (s.price * 100) := by decide +kernel
  obtain ⟨r, hr, hheld⟩ := (Option.any_eq_true _ _).mp hheld
  obtain ⟨hstatus, hfree, s, hs, hfits⟩ := of_decide_eq_true hheld
  exact ⟨r, hr, (failed_checkouts_traceless testMode 1 everyStepFails seatHeld).2 r s hr hstatus
    hfree hs hfits fun _ => ⟨_, rfl⟩⟩

end MovieReservation
