import MovieReservation.Effects
import MovieReservation.Services.Requests
import MovieReservation.Services.TestMode

/-! Webhooks whose payment does not exist. The handlers that look the payment up take such
an event; those that update it without a look make the endpoint answer with an error, so
Stripe sends the event again. -/

namespace MovieReservation

open Lib Lib.Prog Lib.System PaymentsService

variable {σ A : Type}

/-- The event is of a handled type, and no payment has the id or the intent it names. -/
def StripeEvent.NamesNone (db : Db) (event : StripeEvent) : Prop :=
  match event.body with
  | .checkoutSessionCompleted session | .checkoutSessionAsyncPaymentFailed session
  | .checkoutSessionExpired session => ∀ id ∈ session.paymentId, db.payments.get id = none
  | .chargeDisputeCreated dispute =>
    ∀ intent ∈ dispute.paymentIntent, ∀ p ∈ db.payments.rows, p.stripePaymentId ≠ some intent
  | .other => False

instance (db : Db) (event : StripeEvent) : Decidable (event.NamesNone db) := by
  unfold StripeEvent.NamesNone
  split <;> infer_instance

/-- The handler looks the payment up, and the event says by what. -/
def StripeEvent.LooksUp (event : StripeEvent) : Prop :=
  match event.body with
  | .checkoutSessionCompleted session => session.paymentId ≠ none
  | .chargeDisputeCreated dispute => dispute.paymentIntent ≠ none
  | _ => False

/-- The event was acknowledged, and no payment, reservation or abuse counter changed. -/
structure Harmless (w : World σ) (out : Except Err Unit × World σ) : Prop where
  received : out.1 = .ok ()
  payments : out.2.db.payments = w.db.payments
  reservations : out.2.db.reservations = w.db.reservations
  failures : out.2.redis.paymentFailures = w.redis.paymentFailures
  lockouts : out.2.redis.paymentLockout = w.redis.paymentLockout

section Handlers
variable (api : StripeApi σ A) {w : World σ}

theorem Harmless.unchanged : Harmless w (.ok (), w) := ⟨rfl, rfl, rfl, rfl, rfl⟩

theorem harmless_unchanged_iff {r : Except Err Unit} : Harmless w (r, w) ↔ r = .ok () :=
  ⟨fun h => h.received, fun h => h ▸ .unchanged⟩

/-- An update without a look fails where there is no row. -/
theorem perform_update_missing {id : Option ℕ} (h : ∀ n ∈ id, w.db.payments.get n = none)
    (data : PaymentData) {α : Type} (f : Payment → M α) :
    ∃ e, perform api (PaymentsRepository.update id data >>= f) w = (.error e, w) := by
  rw [perform_bind, PaymentsRepository.update, perform_request]
  cases id with
  | none => exact ⟨.prismaValidation, rfl⟩
  | some n =>
    have hmissing : w.db.paymentUpdate n data = .error (.prisma .p2025) := by
      unfold Db.paymentUpdate
      split
      · rfl
      · rename_i p hp
        cases (h n rfl).symm.trans hp
    refine ⟨.prisma .p2025, ?_⟩
    rw [World.exec, hmissing]
    rfl

/-- What the handler of an event makes of a payment that is not there. -/
theorem dispatch_namesNone {event : StripeEvent} (h : event.NamesNone w.db) :
    ∃ r, perform api (dispatch event) w = (r, w) ∧ (r = .ok () ↔ event.LooksUp) := by
  obtain ⟨eventId, body⟩ := event
  cases body with
  | checkoutSessionCompleted session =>
    obtain ⟨status, intent, id⟩ := session
    cases id with
    | none => exact ⟨.error .prismaValidation, rfl, iff_of_false nofun fun hn => hn rfl⟩
    | some n =>
      have hfound : perform api (PaymentsRepository.findById (some n)) w = (.ok none, w) :=
        congrArg (fun p => (Except.ok p, w)) (h n rfl)
      refine ⟨.ok (), ?_, iff_of_true rfl nofun⟩
      change perform api (handleCheckoutCompleted eventId ⟨status, intent, some n⟩) w = _
      exact perform_bind_ok hfound
  | checkoutSessionAsyncPaymentFailed session =>
    obtain ⟨e, he⟩ := perform_update_missing api h
      { status := some .failed, stripeEventId := some (some eventId) } fun payment => do
        let reservation ← ReservationsService.getById payment.reservationId
        PaymentAbuseService.recordFailure reservation.userId
    exact ⟨.error e, he, iff_of_false nofun id⟩
  | checkoutSessionExpired session =>
    obtain ⟨e, he⟩ := perform_update_missing api h
      { status := some .timedOut, stripeEventId := some (some eventId) } fun _ => pure ()
    exact ⟨.error e, he, iff_of_false nofun id⟩
  | chargeDisputeCreated dispute =>
    obtain ⟨intent, reason⟩ := dispute
    cases intent with
    | none => exact ⟨.error .prismaValidation, rfl, iff_of_false nofun fun hn => hn rfl⟩
    | some i =>
      have hnone : (w.db.payments.rows.find? fun p => p.stripePaymentId = some i) = none := by
        simpa using h i rfl
      have hfound : perform api (PaymentsRepository.findByStripePaymentId (some i)) w =
          (.ok none, w) := congrArg (fun p => (Except.ok p, w)) hnone
      refine ⟨.ok (), ?_, iff_of_true rfl nofun⟩
      change perform api (handleDisputeCreated eventId ⟨some i, reason⟩) w = _
      exact perform_bind_ok hfound
  | other => exact h.elim

end Handlers

/-- **An event that names no payment is acknowledged, with nothing changed, exactly if it was
processed before or its handler looks the payment up.** -/
theorem unknown_payment_harmless_iff (api : StripeApi σ A) (w : World σ) (event : StripeEvent)
    (h : event.NamesNone w.db) :
    Harmless w (perform api (handleWebhookEvent (.ok event)) w) ↔
      (∃ p ∈ w.db.payments.rows, p.stripeEventId = some event.id) ∨ event.LooksUp := by
  have hread : perform api (PaymentsRepository.findByStripeEventId event.id) w =
      (.ok (w.db.payments.rows.find? fun p => p.stripeEventId = some event.id), w) := rfl
  have hfound : (w.db.payments.rows.find? fun p => p.stripeEventId = some event.id).isSome ↔
      ∃ p ∈ w.db.payments.rows, p.stripeEventId = some event.id := by
    simp
  obtain ⟨r, hrun, hok⟩ := dispatch_namesNone api h
  unfold handleWebhookEvent
  rw [perform_bind_ok hread, ← hfound]
  split_ifs with hdone
  · exact iff_of_true .unchanged (.inl hdone)
  · rw [hrun, harmless_unchanged_iff, hok, or_iff_right hdone]

/-- A dispute about a payment that was not taken here. -/
theorem foreign_dispute_harmless :
    Harmless theatre (perform testMode (handleWebhookEvent
      (.ok ⟨1, .chargeDisputeCreated ⟨some 7, "fraudulent"⟩⟩)) theatre) ↔
    (∃ p ∈ theatre.db.payments.rows, p.stripeEventId = some 1) ∨
      StripeEvent.LooksUp ⟨1, .chargeDisputeCreated ⟨some 7, "fraudulent"⟩⟩ :=
  unknown_payment_harmless_iff testMode theatre ⟨1, .chargeDisputeCreated ⟨some 7, "fraudulent"⟩⟩
    (by decide +kernel)

/-- The session of payment 1 is open at Stripe, but its id is not stored, so the payment is
deleted. -/
def checkoutUndone : List (Choice Err Request (Env Account.Action)) :=
  .spawn (.booking (.reserve 1 ⟨1, 1⟩)) :: solo 0 8 ++
    .spawn (.booking (.createCheckoutSession 1 1)) :: solo 1 6 ++
      [.step 1 (.lost .unreachable), .step 1 .answered]

/-- The session lapses. -/
theorem lapsed_session_refused : ¬ ∀ xs p event,
    (serviceSystem testMode).schedule xs ⟨theatre, []⟩ = some p → event.NamesNone p.state.db →
      Harmless p.state (perform testMode (handleWebhookEvent (.ok event)) p.state) := by
  intro hall
  have hrun : ((serviceSystem testMode).schedule checkoutUndone ⟨theatre, []⟩).any fun p =>
      (⟨1, .checkoutSessionExpired ⟨.unpaid, none, some 1⟩⟩ : StripeEvent).NamesNone p.state.db ∧
        (perform testMode (handleWebhookEvent
          (.ok ⟨1, .checkoutSessionExpired ⟨.unpaid, none, some 1⟩⟩)) p.state).1 ≠ .ok () := by
    decide +kernel
  obtain ⟨p, hp, hrun⟩ := (Option.any_eq_true _ _).mp hrun
  obtain ⟨hnone, hrefused⟩ := of_decide_eq_true hrun
  exact hrefused (hall checkoutUndone p _ hp hnone).received

end MovieReservation
