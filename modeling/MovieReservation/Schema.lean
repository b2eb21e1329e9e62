import Mathlib.Data.Rat.Defs
import MovieReservation.Lib.Table

/-! The rows of the database schema and the errors of the services. Instants are
milliseconds since the epoch; the identifiers that Stripe hands out are opaque
numbers, and an empty `stripeSessionId` is `none`. -/

namespace MovieReservation

open Lib (Row)

/-! ### Enumerations -/

inductive ReservationStatus where
  | held | confirmed | cancelled
  deriving DecidableEq, Repr

inductive SeatStatus where
  | available | held | booked
  deriving DecidableEq, Repr

inductive ScreenStatus where
  | scheduled | completed | cancelled
  deriving DecidableEq, Repr

inductive PaymentStatus where
  | pending | inProgress | succeeded | declined | timedOut | failed | refunded
  deriving DecidableEq, Repr

inductive MovieStatus where
  | draft | published
  deriving DecidableEq, Repr

/-! ### Rows -/

abbrev Time := ℤ

/-- The range of the `integer` columns. -/
def Int4 (n : ℤ) : Prop := -2147483648 ≤ n ∧ n ≤ 2147483647

instance : DecidablePred Int4 := fun n =>
  inferInstanceAs (Decidable (-2147483648 ≤ n ∧ n ≤ 2147483647))

structure Movie where
  id : ℕ
  name : String
  description : String
  duration : ℕ
  posterImgUrl : String
  movieType : String
  rating : ℚ
  language : String
  genre : String
  status : MovieStatus
  deriving DecidableEq

structure Hall where
  id : ℕ
  name : String
  capacity : ℕ
  deriving DecidableEq

structure Screening where
  id : ℕ
  hallId : ℕ
  movieId : ℕ
  startTime : Time
  status : ScreenStatus
  price : ℤ
  deriving DecidableEq

structure Seat where
  id : ℕ
  hallId : ℕ
  row : String
  number : String
  deriving DecidableEq

structure Reservation where
  id : ℕ
  screeningId : ℕ
  seatId : ℕ
  userId : ℕ
  status : ReservationStatus
  heldUntil : Option Time
  deriving DecidableEq

structure Payment where
  id : ℕ
  reservationId : ℕ
  amount : ℤ
  currency : String
  status : PaymentStatus
  stripePaymentId : Option ℕ
  stripeSessionId : Option ℕ
  stripeEventId : Option ℕ
  refundId : Option ℕ
  refundedAt : Option Time
  disputed : Option Bool
  disputeReason : Option String
  disputedAt : Option Time
  createdAt : Time
  deriving DecidableEq

structure RefundPolicy where
  id : ℕ
  hoursFrom : ℤ
  hoursTo : ℤ
  refundPercent : ℚ
  deriving DecidableEq

instance : Row Movie := ⟨Movie.id⟩
instance : Row Hall := ⟨Hall.id⟩
instance : Row Screening := ⟨Screening.id⟩
instance : Row Seat := ⟨Seat.id⟩
instance : Row Reservation := ⟨Reservation.id⟩
instance : Row Payment := ⟨Payment.id⟩
instance : Row RefundPolicy := ⟨RefundPolicy.id⟩

@[simp] theorem row_movie (r : Movie) : Row.id r = r.id := rfl
@[simp] theorem row_hall (r : Hall) : Row.id r = r.id := rfl
@[simp] theorem row_screening (r : Screening) : Row.id r = r.id := rfl
@[simp] theorem row_seat (r : Seat) : Row.id r = r.id := rfl
@[simp] theorem row_reservation (r : Reservation) : Row.id r = r.id := rfl
@[simp] theorem row_payment (r : Payment) : Row.id r = r.id := rfl
@[simp] theorem row_refundPolicy (r : RefundPolicy) : Row.id r = r.id := rfl

/-! ### Errors -/

/-- The codes of Prisma that the services can meet: a unique constraint, a foreign
key, a value out of the range of its column, a missing record. -/
inductive PrismaCode where
  | p2002 | p2003 | p2020 | p2025
  deriving DecidableEq, Repr

inductive Err where
  | badRequest (message : String)
  | unauthorized (message : String)
  | forbidden (message : String)
  | notFound (message : String)
  | conflict (message : String)
  | internalServerError (message : String)
  | serviceUnavailable (message : String)
  | prisma (code : PrismaCode)
  | prismaValidation
  | stripe
  /-- The database, Redis or Stripe could not be reached. -/
  | unreachable
  deriving DecidableEq, Repr

/-- Whether the error is one of the framework's `HttpException`s. -/
def Err.isHttpException : Err → Bool
  | .prisma _ | .prismaValidation | .stripe | .unreachable => false
  | _ => true

/-! ### Partial writes

The `data` of a Prisma update: `none` is a column that is left as it is. -/

structure ReservationData where
  status : Option ReservationStatus := none
  heldUntil : Option (Option Time) := none
  deriving DecidableEq

def ReservationData.apply (d : ReservationData) (r : Reservation) : Reservation :=
  { r with status := d.status.getD r.status, heldUntil := d.heldUntil.getD r.heldUntil }

structure PaymentData where
  status : Option PaymentStatus := none
  stripePaymentId : Option (Option ℕ) := none
  stripeSessionId : Option (Option ℕ) := none
  stripeEventId : Option (Option ℕ) := none
  refundId : Option (Option ℕ) := none
  refundedAt : Option (Option Time) := none
  disputed : Option (Option Bool) := none
  disputeReason : Option (Option String) := none
  disputedAt : Option (Option Time) := none
  deriving DecidableEq

def PaymentData.apply (d : PaymentData) (p : Payment) : Payment :=
  { p with
    status := d.status.getD p.status
    stripePaymentId := d.stripePaymentId.getD p.stripePaymentId
    stripeSessionId := d.stripeSessionId.getD p.stripeSessionId
    stripeEventId := d.stripeEventId.getD p.stripeEventId
    refundId := d.refundId.getD p.refundId
    refundedAt := d.refundedAt.getD p.refundedAt
    disputed := d.disputed.getD p.disputed
    disputeReason := d.disputeReason.getD p.disputeReason
    disputedAt := d.disputedAt.getD p.disputedAt }

structure ScreeningData where
  movieId : Option ℕ := none
  hallId : Option ℕ := none
  startTime : Option Time := none
  price : Option ℤ := none
  status : Option ScreenStatus := none
  deriving DecidableEq

def ScreeningData.apply (d : ScreeningData) (s : Screening) : Screening :=
  { s with
    movieId := d.movieId.getD s.movieId
    hallId := d.hallId.getD s.hallId
    startTime := d.startTime.getD s.startTime
    price := d.price.getD s.price
    status := d.status.getD s.status }

structure MovieData where
  name : Option String := none
  description : Option String := none
  duration : Option ℕ := none
  posterImgUrl : Option String := none
  movieType : Option String := none
  rating : Option ℚ := none
  language : Option String := none
  genre : Option String := none
  status : Option MovieStatus := none
  deriving DecidableEq

def MovieData.apply (d : MovieData) (m : Movie) : Movie :=
  { m with
    name := d.name.getD m.name
    description := d.description.getD m.description
    duration := d.duration.getD m.duration
    posterImgUrl := d.posterImgUrl.getD m.posterImgUrl
    movieType := d.movieType.getD m.movieType
    rating := d.rating.getD m.rating
    language := d.language.getD m.language
    genre := d.genre.getD m.genre
    status := d.status.getD m.status }

section Apply
variable (d : ReservationData) (r : Reservation) (e : PaymentData) (p : Payment)

theorem ReservationData.id_apply : Row.id (d.apply r) = Row.id r := rfl
theorem PaymentData.id_apply : Row.id (e.apply p) = Row.id p := rfl
theorem ScreeningData.id_apply (d : ScreeningData) (s : Screening) :
    Row.id (d.apply s) = Row.id s := rfl
theorem MovieData.id_apply (d : MovieData) (m : Movie) : Row.id (d.apply m) = Row.id m := rfl

@[simp] theorem ReservationData.apply_id : (d.apply r).id = r.id := rfl
@[simp] theorem ReservationData.apply_screeningId : (d.apply r).screeningId = r.screeningId := rfl
@[simp] theorem ReservationData.apply_seatId : (d.apply r).seatId = r.seatId := rfl
@[simp] theorem ReservationData.apply_userId : (d.apply r).userId = r.userId := rfl
@[simp] theorem PaymentData.apply_id : (e.apply p).id = p.id := rfl
@[simp] theorem PaymentData.apply_reservationId : (e.apply p).reservationId = p.reservationId := rfl
@[simp] theorem PaymentData.apply_amount : (e.apply p).amount = p.amount := rfl

end Apply

end MovieReservation
