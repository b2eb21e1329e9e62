import MovieReservation.Lib.Binary64
import MovieReservation.Services.Reservations

/-! Paying for a held seat: checkout sessions, Stripe's webhook, refunds and the
reconciliation of timed-out payments; then `ReservationsService.cancel`, which
refunds what was paid. -/

namespace MovieReservation

open Lib

namespace PaymentsRepository

def findByReservationId (reservationId : ℕ) : M (Option Payment) :=
  request (.paymentFindByReservationId reservationId)

def findById (id : Option ℕ) : M (Option Payment) := request (.paymentFindById id)

def findByStripeEventId (stripeEventId : ℕ) : M (Option Payment) :=
  request (.paymentFindByStripeEventId stripeEventId)

def findByStripePaymentId (stripePaymentId : Option ℕ) : M (Option Payment) :=
  request (.paymentFindByStripePaymentId stripePaymentId)

def create (data : Db.PaymentCreate) : M Payment := request (.paymentCreate data)

def update (id : Option ℕ) (data : PaymentData) : M Payment := request (.paymentUpdate id data)

def delete (id : ℕ) : M Payment := request (.paymentDelete id)

def findStuckTimedOut (olderThan : Time) : M (List Payment) :=
  request (.findStuckTimedOut olderThan)

def findRefundPolicy (hoursUntilScreening : ℚ) : M (Option RefundPolicy) :=
  request (.findRefundPolicy hoursUntilScreening)

def declineWithReservation (paymentId reservationId : ℕ) : M (Payment × Reservation) :=
  request (.declineWithReservation paymentId reservationId)

def confirmWithReservation (paymentId reservationId : ℕ) (stripePaymentId : Option ℕ) :
    M (Payment × Reservation) :=
  request (.confirmWithReservation paymentId reservationId stripePaymentId)

end PaymentsRepository

namespace Stripe

def sessionsCreate (params : CheckoutParams) : M Session := request (.sessionsCreate params)

def sessionsRetrieve (id : Option ℕ) : M Session := request (.sessionsRetrieve id)

def refundsCreate (paymentIntent : ℕ) (amount : ℤ) (idempotencyKey : ℕ) : M Refund :=
  request (.refundsCreate paymentIntent amount idempotencyKey)

end Stripe

/-- `Math.round`: half up. -/
def mathRound (x : ℚ) : ℤ := ⌊x + 1 / 2⌋

/-- `Math.round((amount * refundPercent) / 100)`: the percent of the column, the product and the
quotient are doubles. -/
def refundShare (amount : ℤ) (refundPercent : ℚ) : ℤ :=
  mathRound (Binary64.div (Binary64.mul amount (Binary64.round refundPercent)) 100)

section Share
variable {a : ℤ} {x y : ℚ}

theorem mathRound_mono (h : x ≤ y) : mathRound x ≤ mathRound y :=
  Int.floor_mono (by linarith)

theorem mathRound_intCast (a : ℤ) : mathRound a = a := by
  rw [mathRound, Int.floor_eq_iff]
  constructor <;> linarith

theorem refundShare_mono (ha : 0 ≤ a) (hx : 0 ≤ x) (h : x ≤ y) :
    refundShare a x ≤ refundShare a y := by
  have ha' : (0 : ℚ) ≤ a := by exact_mod_cast ha
  have hproduct : (0 : ℚ) ≤ a * Binary64.round x := mul_nonneg ha' (Binary64.round_nonneg hx)
  have hmul : Binary64.mul a (Binary64.round x) ≤ Binary64.mul a (Binary64.round y) :=
    Binary64.round_mono hproduct (mul_le_mul_of_nonneg_left (Binary64.round_mono hx h) ha')
  refine mathRound_mono (Binary64.round_mono ?_ (div_le_div_of_nonneg_right hmul (by norm_num)))
  exact div_nonneg (Binary64.round_nonneg hproduct) (by norm_num)

theorem Int4.abs_le (h : Int4 a) : |a| ≤ 2147483648 := by
  obtain ⟨hlow, hhigh⟩ := h
  exact abs_le'.mpr ⟨by omega, by omega⟩

/-- A whole product of an amount is exact. -/
theorem mul_percent (ha : Int4 a) {n : ℤ} (hn : |n| ≤ 100) :
    Binary64.mul a (Binary64.round n) = a * n := by
  have hsmall : |a * n| < 2 ^ 53 := by
    calc |a * n| = |a| * |n| := abs_mul a n
      _ ≤ 2147483648 * 100 := mul_le_mul ha.abs_le hn (abs_nonneg n) (by norm_num)
      _ < 2 ^ 53 := by norm_num
  rw [Binary64.mul, Binary64.round_intCast (hn.trans_lt (by norm_num))]
  exact_mod_cast Binary64.round_intCast hsmall

/-- So is the half of an amount. -/
theorem round_half (ha : Int4 a) : Binary64.round (a / 2) = a / 2 := by
  have hsmall : |a| < 2 ^ 53 := ha.abs_le.trans_lt (by norm_num)
  have hfits := Binary64.round_of_fits a (-1) hsmall
  rwa [zpow_neg_one, ← div_eq_mul_inv] at hfits

theorem refundShare_full (ha : Int4 a) : refundShare a 100 = a := by
  have hmul : Binary64.mul a (Binary64.round 100) = a * 100 := by
    exact_mod_cast mul_percent ha (n := 100) (by simp)
  have hsmall : |a| < 2 ^ 53 := ha.abs_le.trans_lt (by norm_num)
  rw [refundShare, hmul, Binary64.div, mul_div_cancel_right₀ (a : ℚ) (by norm_num),
    Binary64.round_intCast hsmall, mathRound_intCast]

theorem refundShare_half (ha : Int4 a) : refundShare a 50 = mathRound (a / 2) := by
  have hmul : Binary64.mul a (Binary64.round 50) = a * 50 := by
    exact_mod_cast mul_percent ha (n := 50) (by simp)
  have hdiv : (a : ℚ) * 50 / 100 = a / 2 := by ring
  rw [refundShare, hmul, Binary64.div, hdiv, round_half ha]

theorem refundShare_none (a : ℤ) : refundShare a 0 = 0 := by
  have hzero : Binary64.round 0 = 0 := by exact_mod_cast Binary64.round_intCast (n := 0) (by simp)
  have hround : mathRound 0 = 0 := by exact_mod_cast mathRound_intCast 0
  rw [refundShare, Binary64.mul, hzero, mul_zero, hzero, Binary64.div, zero_div, hzero, hround]

theorem refundShare_nonneg (ha : 0 ≤ a) (hx : 0 ≤ x) : 0 ≤ refundShare a x :=
  (refundShare_none a).symm.le.trans (refundShare_mono ha le_rfl hx)

/-- A refund of a share is no more than the whole. -/
theorem refundShare_le (ha : 0 ≤ a) (h4 : Int4 a) (hx : 0 ≤ x) (h : x ≤ 100) :
    refundShare a x ≤ a :=
  (refundShare_mono ha hx h).trans_eq (refundShare_full h4)

-- the half of 160.5 is lost already in the double nearest to 10.7
example : refundShare 1500 (107 / 10) = 160 := by decide +kernel

end Share

namespace PaymentsService

def checkoutExpiryMinutes : ℤ := 30
def reconcileGraceMinutes : Time := 10
def currency : String := "usd"

def alreadyHasPayment : Err := .conflict "This reservation already has a payment"

def createCheckoutSession (userId reservationId : ℕ) : M String := do
  let reservation ← ReservationsService.findOwned userId reservationId
  throwIf (reservation.status ≠ .held) (.conflict "Reservation is not held")
  let existing ← PaymentsRepository.findByReservationId reservationId
  throwIf existing.isSome alreadyHasPayment
  match ← ScreeningsRepository.findById reservation.screeningId with
  | none => throw (.conflict "Screening no longer exists")
  | some screening =>
    let amount := screening.price * 100
    let payment ←
      try
        PaymentsRepository.create
          { reservationId, amount, currency, status := .pending, stripeSessionId := none }
      catch err => if err = .prisma .p2002 then throw alreadyHasPayment else throw err
    try
      let expiresAt := (← now) / 1000 + checkoutExpiryMinutes * 60
      let session ← Stripe.sessionsCreate
        { reservationId, amount, currency, expiresAt, paymentId := payment.id }
      let _ ← PaymentsRepository.update (some payment.id)
        { stripeSessionId := some (some session.id) }
      let _ ← ReservationsService.extendHold reservationId (expiresAt * 1000)
      pure session.url
    catch err =>
      let _ ← PaymentsRepository.delete payment.id
      throw err

def paymentIdFrom (session : CheckoutSessionObject) : Option ℕ := session.paymentId

def handleCheckoutCompleted (eventId : ℕ) (session : CheckoutSessionObject) : M Unit := do
  let paymentId := paymentIdFrom session
  match ← PaymentsRepository.findById paymentId with
  | none => return
  | some payment =>
    if session.paymentStatus = .paid then
      let _ ← ReservationsService.confirmPayment payment.reservationId
      let _ ← PaymentsRepository.update paymentId
        { status := some .succeeded, stripeEventId := some (some eventId),
          stripePaymentId := some session.paymentIntent }
    else
      let _ ← PaymentsRepository.update paymentId
        { status := some .inProgress, stripeEventId := some (some eventId) }

def handleAsyncPaymentFailed (eventId : ℕ) (session : CheckoutSessionObject) : M Unit := do
  let payment ← PaymentsRepository.update (paymentIdFrom session)
    { status := some .failed, stripeEventId := some (some eventId) }
  let reservation ← ReservationsService.getById payment.reservationId
  PaymentAbuseService.recordFailure reservation.userId

def handleCheckoutExpired (eventId : ℕ) (session : CheckoutSessionObject) : M Unit := do
  let _ ← PaymentsRepository.update (paymentIdFrom session)
    { status := some .timedOut, stripeEventId := some (some eventId) }

def handleDisputeCreated (eventId : ℕ) (dispute : DisputeObject) : M Unit := do
  match ← PaymentsRepository.findByStripePaymentId dispute.paymentIntent with
  | none => return
  | some payment =>
    let _ ← PaymentsRepository.update (some payment.id)
      { disputed := some (some true), disputeReason := some (some dispute.reason),
        disputedAt := some (some (← now)), stripeEventId := some (some eventId) }

/-- Dispatch of a verified event that no payment row carries the id of. -/
def dispatch (event : StripeEvent) : M Unit :=
  match event.body with
  | .checkoutSessionCompleted session => handleCheckoutCompleted event.id session
  | .checkoutSessionAsyncPaymentFailed session => handleAsyncPaymentFailed event.id session
  | .checkoutSessionExpired session => handleCheckoutExpired event.id session
  | .chargeDisputeCreated dispute => handleDisputeCreated event.id dispute
  | .other => return

/-- `constructed` is what `stripe.webhooks.constructEvent` makes of the raw body
and the signature: the event, or the message of its error. -/
def handleWebhookEvent (constructed : Except String StripeEvent) : M Unit :=
  match constructed with
  | .error message => throw (.badRequest s!"Webhook signature verification failed: {message}")
  | .ok event => do
    let alreadyProcessed ← PaymentsRepository.findByStripeEventId event.id
    if alreadyProcessed.isSome then return else dispatch event

/-- The end of `refundReservation`, once Stripe has answered or was left out. -/
def recordRefund (reservation : Reservation) (payment : Payment) (refundId : Option ℕ) :
    M Reservation := do
  let _ ← PaymentsRepository.update (some payment.id)
    { status := some .refunded, refundId := refundId.map some, refundedAt := some (some (← now)) }
  ReservationsService.finalizeCancel reservation

def refundReservation (reservation : Reservation) : M Reservation := do
  match ← PaymentsRepository.findByReservationId reservation.id with
  | none => throw (.notFound s!"No payment found for reservation {reservation.id}")
  | some payment =>
    if payment.status = .refunded then ReservationsService.finalizeCancel reservation
    else
      match ← ScreeningsRepository.findById reservation.screeningId with
      | none => throw (.conflict "Screening no longer exists")
      | some screening =>
        let hoursUntilScreening : ℚ := ((screening.startTime - (← now) : ℤ) : ℚ) / (60 * 60 * 1000)
        let policy ← PaymentsRepository.findRefundPolicy hoursUntilScreening
        let refundPercent : ℚ := (policy.map RefundPolicy.refundPercent).getD 0
        let refundAmount := refundShare payment.amount refundPercent
        match payment.stripePaymentId with
        | some intent =>
          if 0 < refundPercent then
            let refund ← Stripe.refundsCreate intent refundAmount payment.id
            recordRefund reservation payment (some refund.id)
          else recordRefund reservation payment none
        | none => recordRefund reservation payment none

/-- One turn of the loop of `reconcileTimedOutPayments`. -/
def reconcile (payment : Payment) : M Unit := do
  let session ← Stripe.sessionsRetrieve payment.stripeSessionId
  if session.paymentStatus = .paid then
    let (_, reservation) ← PaymentsRepository.confirmWithReservation payment.id
      payment.reservationId session.paymentIntent
    emit (.confirmed reservation.screeningId [reservation.seatId])
  else
    let (_, reservation) ← PaymentsRepository.declineWithReservation payment.id
      payment.reservationId
    emit (.cancelled reservation.screeningId [reservation.seatId])
    PaymentAbuseService.recordFailure reservation.userId

def reconcileTimedOutPayments : M Unit := do
  let cutoff := (← now) - reconcileGraceMinutes * 60000
  let stuck ← PaymentsRepository.findStuckTimedOut cutoff
  forM stuck reconcile

def getStatus (userId reservationId : ℕ) : M (ReservationStatus × Option PaymentStatus) := do
  let reservation ← ReservationsService.findOwned userId reservationId
  let payment ← PaymentsRepository.findByReservationId reservationId
  return (reservation.status, payment.map Payment.status)

end PaymentsService

def ReservationsService.cancel (userId id : ℕ) : M Reservation := do
  let reservation ← findOwned userId id
  if reservation.status = .confirmed then PaymentsService.refundReservation reservation
  else
    throwIf (reservation.status ≠ .held)
      (.conflict "Only a held or confirmed reservation can be cancelled")
    finalizeCancel reservation

end MovieReservation
