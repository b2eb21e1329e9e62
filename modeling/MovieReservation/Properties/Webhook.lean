import MovieReservation.Services.Steps
import MovieReservation.Services.TestMode

/-! Webhook deliveries, one at a time. When a paid session gives its customer the
seat, and when a second delivery of an event changes nothing. -/

namespace MovieReservation

open Lib Lib.Table PaymentsService

/-! ### What the two writes can meet -/

/-- The `data` of a paid session's payment. -/
def successData (eventId : ℕ) (intent : Option ℕ) : PaymentData :=
  { status := some .succeeded, stripeEventId := some (some eventId),
    stripePaymentId := some intent }

section Writes
variable {db db' : Db} {id : ℕ}

theorem not_clash_of_fresh {e : ℕ} (h : ∀ q ∈ db.payments.rows, q.stripeEventId ≠ some e) :
    ¬ db.payments.Clash Payment.stripeEventId id (some e) := by
  rintro ⟨q, hq, -, -, he⟩
  exact h q hq he

end Writes

/-! ### Deliveries -/

section Deliveries
variable {σ A : Type} (api : StripeApi σ A)

theorem perform_confirmPayment (id : ℕ) (w : World σ) :
    perform api (ReservationsService.confirmPayment id) w =
      match w.db.reservationUpdate id confirmData with
      | .error e => (.error e, w)
      | .ok (r, db) => (.ok r, { w with
          db := db
          pending := w.pending ++ [.confirmed r.screeningId [r.seatId]]
          rooms := w.rooms ++ [(r.screeningId, .seatBooked [r.seatId] .booked)] }) := by
  have hconfirm : perform api (ReservationsRepository.confirm id) w =
      w.commit (w.db.reservationUpdate id confirmData) := rfl
  rw [ReservationsService.confirmPayment, perform_bind, hconfirm]
  cases w.db.reservationUpdate id confirmData with
  | error e => rfl
  | ok x => rfl

/-- The payment that the metadata of a session names. -/
def paymentOf (session : CheckoutSessionObject) (db : Db) : Option Payment :=
  session.paymentId.bind db.payments.get

theorem perform_findById (session : CheckoutSessionObject) (w : World σ) :
    perform api (PaymentsRepository.findById session.paymentId) w =
      match session.paymentId with
      | none => (.error .prismaValidation, w)
      | some _ => (.ok (paymentOf session w.db), w) := by
  unfold paymentOf
  cases session.paymentId <;> rfl

/-- A delivery of an event that some payment carries does nothing. -/
theorem perform_processed {e : StripeEvent} {w : World σ}
    (h : ∃ q ∈ w.db.payments.rows, q.stripeEventId = some e.id) :
    perform api (handleWebhookEvent (.ok e)) w = (.ok (), w) := by
  have hfind : (w.db.payments.rows.find? fun q => q.stripeEventId = some e.id).isSome := by
    simpa using h
  have hread : perform api (PaymentsRepository.findByStripeEventId e.id) w =
      (.ok (w.db.payments.rows.find? fun q => q.stripeEventId = some e.id), w) := rfl
  rw [handleWebhookEvent, perform_bind, hread]
  dsimp only
  rw [if_pos hfind, perform_pure]

/-- Any other event is dispatched. -/
theorem perform_fresh {e : StripeEvent} {w : World σ}
    (h : ∀ q ∈ w.db.payments.rows, q.stripeEventId ≠ some e.id) :
    perform api (handleWebhookEvent (.ok e)) w = perform api (dispatch e) w := by
  have hfind : (w.db.payments.rows.find? fun q => q.stripeEventId = some e.id) = none := by
    simpa [List.find?_eq_none] using h
  have hread : perform api (PaymentsRepository.findByStripeEventId e.id) w =
      (.ok (w.db.payments.rows.find? fun q => q.stripeEventId = some e.id), w) := rfl
  rw [handleWebhookEvent, perform_bind, hread]
  dsimp only
  rw [if_neg (by simp [hfind])]

/-- A paid session whose payment exists: the reservation is confirmed, then the
payment is updated, each in a statement of its own. -/
theorem perform_paid {session : CheckoutSessionObject} {e : ℕ} {p : Payment} {w : World σ}
    (hpaid : session.paymentStatus = .paid) (hp : paymentOf session w.db = some p) :
    (∃ err, w.db.reservationUpdate p.reservationId confirmData = .error err ∧
      perform api (handleCheckoutCompleted e session) w = (.error err, w)) ∨
    ∃ r db₁, w.db.reservationUpdate p.reservationId confirmData = .ok (r, db₁) ∧
      ((∃ err, db₁.paymentUpdate p.id (successData e session.paymentIntent) = .error err ∧
        (perform api (handleCheckoutCompleted e session) w).1 = .error err ∧
        (perform api (handleCheckoutCompleted e session) w).2.db = db₁) ∨
      ∃ q db₂, db₁.paymentUpdate p.id (successData e session.paymentIntent) = .ok (q, db₂) ∧
        (perform api (handleCheckoutCompleted e session) w).1 = .ok () ∧
        (perform api (handleCheckoutCompleted e session) w).2.db = db₂) := by
  obtain ⟨i, hi, hget⟩ := Option.bind_eq_some_iff.mp hp
  have hid : p.id = i := id_of_get hget
  subst hid
  have hrun : perform api (handleCheckoutCompleted e session) w =
      perform api (do
        let _ ← ReservationsService.confirmPayment p.reservationId
        let _ ← PaymentsRepository.update (some p.id) (successData e session.paymentIntent)) w := by
    rw [handleCheckoutCompleted, perform_bind, paymentIdFrom, perform_findById, hi, ← hi, hp]
    simp only [hi, hpaid, if_true]
    rfl
  rw [hrun, perform_bind, perform_confirmPayment]
  cases w.db.reservationUpdate p.reservationId confirmData with
  | error err => exact .inl ⟨err, rfl, rfl⟩
  | ok x =>
    refine .inr ⟨x.1, x.2, rfl, ?_⟩
    dsimp only
    rw [perform_bind]
    have hupdate : ∀ w' : World σ, perform api (PaymentsRepository.update (some p.id)
        (successData e session.paymentIntent)) w' =
          w'.commit (w'.db.paymentUpdate p.id (successData e session.paymentIntent)) :=
      fun _ => rfl
    rw [hupdate]
    cases x.2.paymentUpdate p.id (successData e session.paymentIntent) with
    | error err => exact .inl ⟨err, rfl, rfl, rfl⟩
    | ok y => exact .inr ⟨y.1, y.2, rfl, rfl, rfl⟩

/-- The write of `confirm` is refused exactly when the seat is taken. -/
theorem confirm_error_iff {db : Db} {p : Payment} (hp : p ∈ db.payments.rows) :
    (∃ err, db.reservationUpdate p.reservationId confirmData = .error err) ↔
      SeatTaken p.reservationId db := by
  obtain ⟨r, hr⟩ := db.payment_reservation.get hp
  rw [← clash_confirm_iff hr]
  constructor
  · rintro ⟨err, herr⟩
    by_contra hc
    obtain ⟨db', hok⟩ := Db.reservationUpdate_ok hr hc
    rw [hok] at herr
    cases herr
  · intro hc
    exact ⟨_, Db.reservationUpdate_clash hr hc⟩

/-- The write of the payment is not refused: no payment carries the event. -/
theorem success_ok {db : Db} {p : Payment} {e : ℕ} {intent : Option ℕ}
    (hp : db.payments.get p.id = some p)
    (hfresh : ∀ q ∈ db.payments.rows, q.stripeEventId ≠ some e) :
    ∃ db', db.paymentUpdate p.id (successData e intent) =
      .ok ((successData e intent).apply p, db') :=
  Db.paymentUpdate_ok (successData e intent) hp (not_clash_of_fresh hfresh)

/-- What becomes of the first delivery of a paid session whose payment exists: the
seat is refused, or both rows are written. -/
theorem paid_cases {session : CheckoutSessionObject} {e : ℕ} {p : Payment} {w : World σ}
    (hpaid : session.paymentStatus = .paid) (hp : paymentOf session w.db = some p)
    (hfresh : ∀ q ∈ w.db.payments.rows, q.stripeEventId ≠ some e) :
    (SeatTaken p.reservationId w.db ∧
      ∃ err, perform api (handleCheckoutCompleted e session) w = (.error err, w)) ∨
    ∃ r db₁ q db₂, ¬ SeatTaken p.reservationId w.db ∧
      w.db.reservationUpdate p.reservationId confirmData = .ok (r, db₁) ∧
      db₁.paymentUpdate p.id (successData e session.paymentIntent) = .ok (q, db₂) ∧
      (perform api (handleCheckoutCompleted e session) w).1 = .ok () ∧
      (perform api (handleCheckoutCompleted e session) w).2.db = db₂ := by
  obtain ⟨i, -, hget⟩ := Option.bind_eq_some_iff.mp hp
  rw [← (id_of_get hget : p.id = i)] at hget
  have hseat := confirm_error_iff (mem_of_get hget)
  rcases perform_paid api (e := e) hpaid hp with ⟨err, herr, hrun⟩ | ⟨r, db₁, hr, hcase⟩
  · exact .inl ⟨hseat.mp ⟨err, herr⟩, err, hrun⟩
  have hfree : ¬ SeatTaken p.reservationId w.db := by
    rw [← hseat, hr]
    rintro ⟨err, herr⟩
    cases herr
  have hpay : db₁.payments = w.db.payments := by
    obtain ⟨_, -, -, -, ht⟩ := Db.reservationUpdate_eq_ok hr
    rw [ht]
  obtain ⟨db₂, hok⟩ : ∃ db₂, db₁.paymentUpdate p.id (successData e session.paymentIntent) =
      .ok ((successData e session.paymentIntent).apply p, db₂) :=
    success_ok (hpay ▸ hget) (hpay ▸ hfresh)
  rcases hcase with ⟨err, herr, -, -⟩ | ⟨q, db₂', hq, h1, h2⟩
  · rw [hok] at herr
    cases herr
  · exact .inr ⟨r, db₁, q, db₂', hfree, hr, hq, h1, h2⟩

end Deliveries

/-! ### Paid sessions -/

section Paid
variable {σ A : Type} (api : StripeApi σ A)

/-- The payment is a success and its reservation has the seat. -/
def Seated (p : Payment) (db : Db) : Prop :=
  (∃ q ∈ db.payments.get p.id, q.status = .succeeded) ∧
    ∃ r ∈ db.reservations.get p.reservationId, r.status = .confirmed

instance (p : Payment) : DecidablePred (Seated p) := fun db =>
  inferInstanceAs (Decidable ((∃ q ∈ db.payments.get p.id, q.status = .succeeded) ∧
    ∃ r ∈ db.reservations.get p.reservationId, r.status = .confirmed))

theorem seated_of_writes {db db₁ db₂ : Db} {p q : Payment} {r : Reservation} {e : ℕ}
    {intent : Option ℕ} (h₁ : db.reservationUpdate p.reservationId confirmData = .ok (r, db₁))
    (h₂ : db₁.paymentUpdate p.id (successData e intent) = .ok (q, db₂)) : Seated p db₂ := by
  obtain ⟨r₀, hr₀, -, -, ht₁⟩ := Db.reservationUpdate_eq_ok h₁
  obtain ⟨p₀, hp₀, -, -, ht₂⟩ := Db.paymentUpdate_eq_ok h₂
  constructor
  · refine ⟨(successData e intent).apply p₀, ?_, rfl⟩
    simp only [ht₂, Option.mem_def, get_modify, if_true, hp₀, Option.map_some]
  · refine ⟨confirmData.apply r₀, ?_, rfl⟩
    simp only [ht₂, ht₁, Option.mem_def, get_modify, if_true, hr₀, Option.map_some]

theorem paid_delivery_seated_iff {w : World σ} {e : ℕ} {session : CheckoutSessionObject}
    {p : Payment} (hpaid : session.paymentStatus = .paid) (hp : paymentOf session w.db = some p)
    (hfresh : ∀ q ∈ w.db.payments.rows, q.stripeEventId ≠ some e) :
    (perform api (handleWebhookEvent (.ok ⟨e, .checkoutSessionCompleted session⟩)) w).1 = .ok () ∧
      Seated p (perform api (handleWebhookEvent
        (.ok ⟨e, .checkoutSessionCompleted session⟩)) w).2.db ↔
    ¬ SeatTaken p.reservationId w.db := by
  rw [perform_fresh api hfresh]
  show (perform api (handleCheckoutCompleted e session) w).1 = .ok () ∧
    Seated p (perform api (handleCheckoutCompleted e session) w).2.db ↔ _
  rcases paid_cases api hpaid hp hfresh with
    ⟨htaken, err, hrun⟩ | ⟨r, db₁, q, db₂, hfree, hr, hq, h1, h2⟩
  · simp [hrun, htaken]
  · rw [h1, h2]
    simp [hfree, seated_of_writes hr hq]

/-- After any history, the first delivery of a paid session's event whose payment
exists returns and seats its customer, if and only if nobody else has the seat by
then. -/
theorem paid_session_seated_iff (ys : List (Turn BookingRequest A)) (w₀ w : World σ)
    (_hw : history api BookingRequest.handle ys w₀ = some w) (e : ℕ)
    (session : CheckoutSessionObject) (p : Payment) (hpaid : session.paymentStatus = .paid)
    (hp : paymentOf session w.db = some p)
    (hfresh : ∀ q ∈ w.db.payments.rows, q.stripeEventId ≠ some e) :
    (perform api (handleWebhookEvent (.ok ⟨e, .checkoutSessionCompleted session⟩)) w).1 = .ok () ∧
      Seated p (perform api (handleWebhookEvent
        (.ok ⟨e, .checkoutSessionCompleted session⟩)) w).2.db ↔
    ¬ SeatTaken p.reservationId w.db :=
  paid_delivery_seated_iff api hpaid hp hfresh

theorem paid_in_time : ∃ p ∈ paymentOf ⟨.paid, some 1, some 1⟩ (afterTurns heldAndPaid).db,
    (perform testMode (handleWebhookEvent (.ok sessionPaid)) (afterTurns heldAndPaid)).1 = .ok () ∧
      Seated p (perform testMode (handleWebhookEvent (.ok sessionPaid))
        (afterTurns heldAndPaid)).2.db := by
  have hsome : (paymentOf ⟨.paid, some 1, some 1⟩ (afterTurns heldAndPaid).db).isSome := by
    decide +kernel
  have hfree : ∀ p ∈ paymentOf ⟨.paid, some 1, some 1⟩ (afterTurns heldAndPaid).db,
      ¬ SeatTaken p.reservationId (afterTurns heldAndPaid).db := by decide +kernel
  obtain ⟨p, hp⟩ := Option.isSome_iff_exists.mp hsome
  exact ⟨p, hp, (paid_session_seated_iff testMode heldAndPaid theatre _
    (history_afterTurns (by decide +kernel)) 1 ⟨.paid, some 1, some 1⟩ p rfl hp
    (by decide +kernel)).mpr (hfree p hp)⟩

/-- The hold runs out with the session, the sweep releases the seat and user 2 takes it. -/
def lapsedAndRetaken : List (Turn BookingRequest Account.Action) :=
  heldAndPaid ++ [.env (.advance (31 * 60000)),
    .perform .expireHolds (inOrder ++ System.solo 3 1), .perform (.reserve 2 ⟨1, 1⟩) inOrder]

theorem paid_too_late : ¬ ∀ ys w, history testMode BookingRequest.handle ys theatre = some w →
    ∀ (e : ℕ) (session : CheckoutSessionObject), session.paymentStatus = .paid →
    ∀ p ∈ paymentOf session w.db, (∀ q ∈ w.db.payments.rows, q.stripeEventId ≠ some e) →
      (perform testMode (handleWebhookEvent
        (.ok ⟨e, .checkoutSessionCompleted session⟩)) w).1 = .ok () ∧
      Seated p (perform testMode (handleWebhookEvent
        (.ok ⟨e, .checkoutSessionCompleted session⟩)) w).2.db := by
  intro h
  have hsome : (paymentOf ⟨.paid, some 1, some 1⟩ (afterTurns lapsedAndRetaken).db).isSome := by
    decide +kernel
  obtain ⟨p, hp⟩ := Option.isSome_iff_exists.mp hsome
  have hok := (h lapsedAndRetaken _ (history_afterTurns (by decide +kernel)) 1
    ⟨.paid, some 1, some 1⟩ rfl p hp (by decide +kernel)).1
  have hrefused : (perform testMode (handleWebhookEvent (.ok sessionPaid))
      (afterTurns lapsedAndRetaken)).1 = .error (.prisma .p2002) := by decide +kernel
  exact absurd (hok.symm.trans hrefused) (by simp)

end Paid

/-! ### Redeliveries -/

/-- Every payment row and every reservation row as it was. -/
def Unchanged (db db' : Db) : Prop :=
  db'.payments.rows = db.payments.rows ∧ db'.reservations.rows = db.reservations.rows

instance (db : Db) : DecidablePred (Unchanged db) := fun db' =>
  inferInstanceAs (Decidable (db'.payments.rows = db.payments.rows ∧
    db'.reservations.rows = db.reservations.rows))

/-- What an event that no payment carries finds to write: nothing if it is of a type
that is ignored or names no payment; nothing either if the first write of a paid session
is refused, because somebody else has the seat. -/
def NothingToWrite (e : StripeEvent) (db : Db) : Prop :=
  match e.body with
  | .checkoutSessionCompleted session => ∀ p ∈ paymentOf session db,
    session.paymentStatus = .paid ∧ SeatTaken p.reservationId db
  | .checkoutSessionAsyncPaymentFailed session | .checkoutSessionExpired session =>
    paymentOf session db = none
  | .chargeDisputeCreated dispute =>
    ∀ i ∈ dispute.paymentIntent, ∀ q ∈ db.payments.rows, q.stripePaymentId ≠ some i
  | .other => True

section Redelivery
variable {σ A : Type} (api : StripeApi σ A)

theorem unchanged_refl (db : Db) : Unchanged db db := ⟨rfl, rfl⟩

/-- A write that records a fresh event changes its payment. -/
theorem paymentUpdate_changes {db db' : Db} {id e : ℕ} {data : PaymentData} {q : Payment}
    (he : data.stripeEventId = some (some e))
    (hfresh : ∀ q ∈ db.payments.rows, q.stripeEventId ≠ some e)
    (h : db.paymentUpdate id data = .ok (q, db')) : db'.payments.rows ≠ db.payments.rows := by
  obtain ⟨p, hp, -, -, ht⟩ := Db.paymentUpdate_eq_ok h
  intro hrows
  have hmem : data.apply p ∈ db'.payments.rows := by
    simp only [ht, mem_modify]
    exact .inr ⟨p, mem_of_get hp, id_of_get hp, rfl⟩
  rw [hrows] at hmem
  refine hfresh _ hmem ?_
  simp [PaymentData.apply, he]

theorem perform_update (id : Option ℕ) (data : PaymentData) (w : World σ) :
    perform api (PaymentsRepository.update id data) w =
      match id with
      | none => (.error .prismaValidation, w)
      | some id => w.commit (w.db.paymentUpdate id data) := by
  cases id <;> rfl

/-- The handlers that record their event on the payment in one write. -/
theorem unchanged_update_iff {id : Option ℕ} {e : ℕ} {data : PaymentData} {w : World σ}
    (he : data.stripeEventId = some (some e))
    (hfresh : ∀ q ∈ w.db.payments.rows, q.stripeEventId ≠ some e) {f : Payment → M Unit}
    (hf : ∀ q, Quiet (f q)) :
    Unchanged w.db (perform api (PaymentsRepository.update id data >>= f) w).2.db ↔
      id.bind w.db.payments.get = none := by
  rw [perform_bind, perform_update]
  cases id with
  | none => simp [unchanged_refl]
  | some id =>
    dsimp only [Option.bind_some]
    cases hp : w.db.payments.get id with
    | none =>
      rw [Db.paymentUpdate_missing hp]
      simp [World.commit, unchanged_refl]
    | some p =>
      have hevent : (data.apply p).stripeEventId = some e := by simp [PaymentData.apply, he]
      obtain ⟨db', hok⟩ := Db.paymentUpdate_ok data hp
        (hevent ▸ not_clash_of_fresh hfresh)
      have hne := paymentUpdate_changes he hfresh hok
      rw [hok]
      simp only [World.commit]
      rw [perform_quiet api (hf _)]
      simp [Unchanged, hne]

theorem unchanged_paid_iff {session : CheckoutSessionObject} {e : ℕ} {p : Payment} {w : World σ}
    (hpaid : session.paymentStatus = .paid) (hp : paymentOf session w.db = some p)
    (hfresh : ∀ q ∈ w.db.payments.rows, q.stripeEventId ≠ some e) :
    Unchanged w.db (perform api (handleCheckoutCompleted e session) w).2.db ↔
      SeatTaken p.reservationId w.db := by
  rcases paid_cases api hpaid hp hfresh with
    ⟨htaken, err, hrun⟩ | ⟨r, db₁, q, db₂, hfree, hr, hq, -, h2⟩
  · simp [hrun, htaken, unchanged_refl]
  · have hpay : db₁.payments = w.db.payments := by
      obtain ⟨_, -, -, -, ht⟩ := Db.reservationUpdate_eq_ok hr
      rw [ht]
    have hne := paymentUpdate_changes (e := e) rfl (hpay ▸ hfresh) hq
    rw [hpay] at hne
    rw [h2]
    simp [Unchanged, hne, hfree]

theorem unchanged_completed_iff {session : CheckoutSessionObject} {e : ℕ} {w : World σ}
    (hfresh : ∀ q ∈ w.db.payments.rows, q.stripeEventId ≠ some e) :
    Unchanged w.db (perform api (handleCheckoutCompleted e session) w).2.db ↔
      NothingToWrite ⟨e, .checkoutSessionCompleted session⟩ w.db := by
  have hread := perform_findById api session w
  cases hp : paymentOf session w.db with
  | none =>
    have hkeep : (perform api (handleCheckoutCompleted e session) w).2.db = w.db := by
      rw [handleCheckoutCompleted, perform_bind, paymentIdFrom, hread, hp]
      cases session.paymentId <;> rfl
    simp [hkeep, unchanged_refl, NothingToWrite, hp]
  | some p =>
    by_cases hpaid : session.paymentStatus = .paid
    · rw [unchanged_paid_iff api hpaid hp hfresh]
      simp [NothingToWrite, hp, hpaid]
    · obtain ⟨i, hi, hget⟩ := Option.bind_eq_some_iff.mp hp
      rw [handleCheckoutCompleted, perform_bind, paymentIdFrom, hread, hp]
      simp only [hi, hpaid, if_false]
      refine (unchanged_update_iff api rfl hfresh fun _ => by trivial).trans ?_
      simp [NothingToWrite, hp, hpaid, hget]

theorem unchanged_dispute_iff {dispute : DisputeObject} {e : ℕ} {w : World σ}
    (hfresh : ∀ q ∈ w.db.payments.rows, q.stripeEventId ≠ some e) :
    Unchanged w.db (perform api (handleDisputeCreated e dispute) w).2.db ↔
      NothingToWrite ⟨e, .chargeDisputeCreated dispute⟩ w.db := by
  rw [handleDisputeCreated, perform_bind]
  cases hi : dispute.paymentIntent with
  | none =>
    refine iff_of_true (unchanged_refl _) ?_
    simp [NothingToWrite, hi]
  | some i =>
    have hread : perform api (PaymentsRepository.findByStripePaymentId (some i)) w =
        (.ok (w.db.payments.rows.find? fun q => q.stripePaymentId = some i), w) := rfl
    rw [hread]
    cases hp : w.db.payments.rows.find? (fun q => q.stripePaymentId = some i) with
    | none =>
      refine iff_of_true (unchanged_refl _) ?_
      simpa [NothingToWrite, hi, List.find?_eq_none] using hp
    | some p =>
      have hmem := List.mem_of_find?_eq_some hp
      have hintent : p.stripePaymentId = some i := by simpa using List.find?_some hp
      have hget : w.db.payments.get p.id = some p := get_of_mem hmem
      have hnow : perform api now w = (.ok w.now, w) := rfl
      dsimp only
      rw [perform_bind, hnow]
      dsimp only
      refine (unchanged_update_iff api rfl hfresh fun _ => by trivial).trans ?_
      refine iff_of_false (by simp [hget]) fun h => ?_
      exact h i (by simp [hi]) p hmem hintent

/-- Delivered anew, an event changes no row exactly when a payment still carries it
or it finds nothing to write. -/
theorem delivery_unchanged_iff (e : StripeEvent) (w : World σ) :
    Unchanged w.db (perform api (handleWebhookEvent (.ok e)) w).2.db ↔
      (∃ q ∈ w.db.payments.rows, q.stripeEventId = some e.id) ∨ NothingToWrite e w.db := by
  by_cases hseen : ∃ q ∈ w.db.payments.rows, q.stripeEventId = some e.id
  · rw [perform_processed api hseen]
    exact iff_of_true (unchanged_refl _) (.inl hseen)
  have hfresh : ∀ q ∈ w.db.payments.rows, q.stripeEventId ≠ some e.id := by
    simpa using hseen
  rw [perform_fresh api hfresh, or_iff_right hseen]
  obtain ⟨id, body⟩ := e
  cases body with
  | other => exact iff_of_true (unchanged_refl _) trivial
  | checkoutSessionAsyncPaymentFailed session =>
    refine unchanged_update_iff api rfl hfresh fun q => ?_
    refine Prog.Only.bind (ReservationsService.getById_quiet _) fun r => ?_
    exact PaymentAbuseService.recordFailure_quiet _
  | checkoutSessionExpired session =>
    exact unchanged_update_iff api rfl hfresh fun q => trivial
  | chargeDisputeCreated dispute => exact unchanged_dispute_iff api hfresh
  | checkoutSessionCompleted session => exact unchanged_completed_iff api hfresh

/-- In any history, an event that was processed and comes again at any later point
changes no row exactly when a payment still carries it or it finds nothing to write. -/
theorem redelivery_unchanged_iff (ys zs : List (Turn BookingRequest A)) (w₀ w₁ w : World σ)
    (_h₁ : history api BookingRequest.handle ys w₀ = some w₁) (e : StripeEvent)
    (_hok : (perform api (handleWebhookEvent (.ok e)) w₁).1 = .ok ())
    (xs : List (Choice Err Listener Empty))
    (_h : history api BookingRequest.handle (.perform (.webhook (.ok e)) xs :: zs) w₁ = some w) :
    Unchanged w.db (perform api (handleWebhookEvent (.ok e)) w).2.db ↔
      (∃ q ∈ w.db.payments.rows, q.stripeEventId = some e.id) ∨ NothingToWrite e w.db :=
  delivery_unchanged_iff api e w

end Redelivery

theorem redelivered_at_once : Unchanged (afterTurns (heldAndPaid ++ [paidTurn])).db
    (perform testMode (handleWebhookEvent (.ok sessionPaid))
      (afterTurns (heldAndPaid ++ [paidTurn]))).2.db := by
  have hturn : history testMode BookingRequest.handle [paidTurn] (afterTurns heldAndPaid) =
      some (afterTurns (heldAndPaid ++ [paidTurn])) := by
    rw [← history_afterTurns (by decide +kernel), history_append,
      history_afterTurns (by decide +kernel), Option.bind_some]
  exact (redelivery_unchanged_iff testMode heldAndPaid [] theatre _ _
    (history_afterTurns (by decide +kernel)) sessionPaid (by decide +kernel) _ hturn).mpr
      (.inl (by decide +kernel))

/-- A dispute of the charge takes the event's place on the payment; then the seat is
cancelled and the payment refunded. -/
def disputedAndRefunded : List (Turn BookingRequest Account.Action) :=
  [.perform (.webhook (.ok ⟨2, .chargeDisputeCreated ⟨some 1, "fraudulent"⟩⟩)) [],
    .perform (.cancel 1 1) inOrder]

/-- The event of the paid session comes again and confirms the refunded seat. -/
theorem redelivered_after_refund : ¬ ∀ ys zs w₁ w,
    history testMode BookingRequest.handle ys theatre = some w₁ → ∀ e xs,
    (perform testMode (handleWebhookEvent (.ok e)) w₁).1 = .ok () →
    history testMode BookingRequest.handle (.perform (.webhook (.ok e)) xs :: zs) w₁ = some w →
      Unchanged w.db (perform testMode (handleWebhookEvent (.ok e)) w).2.db := by
  intro h
  have hturns : history testMode BookingRequest.handle (paidTurn :: disputedAndRefunded)
      (afterTurns heldAndPaid) =
        some (afterTurns (heldAndPaid ++ paidTurn :: disputedAndRefunded)) := by
    rw [← history_afterTurns (by decide +kernel), history_append,
      history_afterTurns (by decide +kernel), Option.bind_some]
  have hsame := h heldAndPaid disputedAndRefunded _ _ (history_afterTurns (by decide +kernel))
    sessionPaid _ (by decide +kernel) hturns
  have hchanged : ¬ Unchanged (afterTurns (heldAndPaid ++ paidTurn :: disputedAndRefunded)).db
      (perform testMode (handleWebhookEvent (.ok sessionPaid))
        (afterTurns (heldAndPaid ++ paidTurn :: disputedAndRefunded))).2.db := by decide +kernel
  exact hchanged hsame

end MovieReservation
