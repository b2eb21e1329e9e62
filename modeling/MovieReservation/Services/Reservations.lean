import MovieReservation.World

/-! Holding, releasing and confirming seats: the reservations repository, the
circuit breaker in front of it, the payment-abuse lockout and the reservations
service, except for `cancel`, which needs the payments service. -/

namespace MovieReservation

open Lib

def now : M Time := request .dateNow

def emit (e : ReservationEvent) : M Unit := request (.emit e)

def throwIf (c : Prop) [Decidable c] (e : Err) : M Unit := if c then throw e else pure ()

section ThrowIf
variable {S α : Type} {exec : (c : Cmd) → S → Except Err c.Reply × S} {c : Prop} [Decidable c]
  {e : Err} {f : Unit → M α} {s : S}

theorem run_throwIf_bind_of (h : c) : (throwIf c e >>= f).run exec s = (.error e, s) := by
  rw [throwIf, if_pos h]
  rfl

theorem run_throwIf_bind_of_not (h : ¬ c) :
    (throwIf c e >>= f).run exec s = (f ()).run exec s := by
  rw [throwIf, if_neg h]
  rfl

end ThrowIf

namespace ReservationsRepository

def holdSeat (params : Db.HoldSeatParams) : M Reservation := request (.holdSeat params)

def extendHold (id : ℕ) (deadline : Time) : M Reservation :=
  request (.reservationUpdate id { heldUntil := some (some deadline) })

def confirm (id : ℕ) : M Reservation :=
  request (.reservationUpdate id { status := some .confirmed, heldUntil := some none })

def releaseExpiredHolds (now : Time) : M (List Db.ExpiredHold) :=
  request (.releaseExpiredHolds now)

def findById (id : ℕ) : M (Option Reservation) := request (.reservationFindById id)

def setStatus (id : ℕ) (status : ReservationStatus) : M Reservation :=
  request (.reservationUpdate id { status := some status })

end ReservationsRepository

namespace ScreeningsRepository

def findById (id : ℕ) : M (Option ScreeningWithMovieHall) := request (.screeningFindById id)

end ScreeningsRepository

namespace ConcurrencyGuard

def acquire : M Unit := request .acquire

def release : M Unit := request .release

end ConcurrencyGuard

def underHeavyLoad : Err := .serviceUnavailable "System is under heavy load — please try again"

/-- An open breaker, a timeout and any other error that is not an `HttpException`
come out as a 503. -/
def ReservationBreaker.holdSeat (params : Db.HoldSeatParams) : M Reservation :=
  try ReservationsRepository.holdSeat params
  catch err => if err.isHttpException then throw err else throw underHeavyLoad

namespace PaymentAbuseService

def windowMs : Time := 24 * 60 * 60000
def lockoutMs : Time := 30 * 60000
def failureThreshold : ℕ := 3

def recordFailure (userId : ℕ) : M Unit := do
  let now ← now
  request (.zaddFailure userId now)
  request (.pexpireFailures userId windowMs)
  request (.zremrangeFailures userId (now - windowMs))
  let count : ℕ ← request (.zcardFailures userId)
  if failureThreshold ≤ count then request (.setLockout userId lockoutMs) else pure ()

def isLockedOut (userId : ℕ) : M Bool := request (.existsLockout userId)

end PaymentAbuseService

structure CreateReservationDto where
  screeningId : ℕ
  seatId : ℕ
  deriving DecidableEq

namespace ReservationsService

def holdMinutes : Time := 10

def screeningNotFound (id : ℕ) : Err := .notFound s!"Screening {id} not found"

def reservationNotFound (id : ℕ) : Err := .notFound s!"Reservation {id} not found"

def reserve (userId : ℕ) (dto : CreateReservationDto) : M Reservation := do
  let lockedOut ← PaymentAbuseService.isLockedOut userId
  throwIf lockedOut (.forbidden "Too many failed payments — try again later")
  match ← ScreeningsRepository.findById dto.screeningId with
  | none => throw (screeningNotFound dto.screeningId)
  | some screening =>
    throwIf (screening.status ≠ .scheduled) (screeningNotFound dto.screeningId)
    throwIf (screening.startTime ≤ (← now)) (.badRequest "Screening has already started")
    let heldUntil := (← now) + holdMinutes * 60000
    ConcurrencyGuard.acquire
    let reservation ← (ReservationBreaker.holdSeat
      { userId, screeningId := dto.screeningId, hallId := screening.hallId,
        seatId := dto.seatId, heldUntil }).ensuring ConcurrencyGuard.release
    emit (.created dto.screeningId [reservation.seatId])
    return reservation

/-- `push` on the list of `key` in a map that keeps the order of first insertion. -/
def pushTo (key seatId : ℕ) : List (ℕ × List ℕ) → List (ℕ × List ℕ)
  | [] => [(key, [seatId])]
  | (k, seatIds) :: m =>
    if k = key then (k, seatIds ++ [seatId]) :: m else (k, seatIds) :: pushTo key seatId m

def byScreening (released : List Db.ExpiredHold) : List (ℕ × List ℕ) :=
  released.foldl (fun m r => pushTo r.screeningId r.seatId m) []

def expireHolds : M Unit := do
  let released ← ReservationsRepository.releaseExpiredHolds (← now)
  -- the early return on an empty list: both loops below then do nothing
  forM (byScreening released) fun g => emit (.cancelled g.1 g.2)
  forM released fun r => emit (.holdExpired r.userId r.screeningId r.seatId)

/-- Sets CANCELLED and emits the shared event; the refund flow calls it too. -/
def finalizeCancel (reservation : Reservation) : M Reservation := do
  let cancelled ← ReservationsRepository.setStatus reservation.id .cancelled
  emit (.cancelled reservation.screeningId [reservation.seatId])
  return cancelled

def getById (id : ℕ) : M Reservation := do
  match ← ReservationsRepository.findById id with
  | none => throw (reservationNotFound id)
  | some reservation => return reservation

/-- 404 (not 403) when it belongs to someone else. -/
def findOwned (userId id : ℕ) : M Reservation := do
  let reservation ← getById id
  throwIf (reservation.userId ≠ userId) (reservationNotFound id)
  return reservation

def extendHold (id : ℕ) (deadline : Time) : M Reservation :=
  ReservationsRepository.extendHold id deadline

def confirmPayment (id : ℕ) : M Reservation := do
  let reservation ← ReservationsRepository.confirm id
  emit (.confirmed reservation.screeningId [reservation.seatId])
  return reservation

end ReservationsService

end MovieReservation
