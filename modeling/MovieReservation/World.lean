import Mathlib.Data.List.Sort
import MovieReservation.Lib.Pool
import MovieReservation.Database

/-! The services around the database and the commands that the handlers issue:
single statements and transactions of the repositories, Redis commands, Stripe
calls, reading the clock, emitting an event. Stripe is a parameter: what it does is
given by a `StripeApi`, whose laws are the documented ones that the code relies on. -/

namespace MovieReservation

open Lib

/-! ### Views -/

structure ScreeningWithMovieHall extends Screening where
  movie : Movie
  hall : Hall
  deriving DecidableEq

/-- One seat in a screening's seat map, with reservation-derived status. -/
structure SeatMapEntry where
  seatId : ℕ
  row : String
  number : String
  status : SeatStatus
  deriving DecidableEq

structure ScreeningSummary where
  screeningId : ℕ
  capacity : ℕ
  held : ℕ
  booked : ℕ
  available : ℕ
  reserved : ℕ
  deriving DecidableEq

structure FutureScreening where
  id : ℕ
  startTime : Time
  price : ℤ
  hall : Hall
  deriving DecidableEq

/-- A movie with the ids of at most one future scheduled screening. -/
structure MovieWithFutureFlag extends Movie where
  screens : List ℕ
  deriving DecidableEq

/-! ### Queries -/

namespace Db

def screeningFindById (db : Db) (id : ℕ) : Option ScreeningWithMovieHall := do
  let s ← db.screenings.get id
  let movie ← db.movies.get s.movieId
  let hall ← db.halls.get s.hallId
  return { s with movie, hall }

def seatBefore (a b : Seat) : Prop := a.row < b.row ∨ (a.row = b.row ∧ a.id ≤ b.id)

instance : DecidableRel seatBefore := fun a b =>
  inferInstanceAs (Decidable (a.row < b.row ∨ (a.row = b.row ∧ a.id ≤ b.id)))

/-- Seats of a hall by row, then id. -/
def findSeatsByHall (db : Db) (hallId : ℕ) : List Seat :=
  (db.seats.rows.filter fun s => s.hallId = hallId).insertionSort seatBefore

def findActiveReservations (db : Db) (screeningId : ℕ) : List Reservation :=
  db.reservations.rows.filter fun r => r.screeningId = screeningId ∧ r.status.active

/-- Non-cancelled screenings of the hall, with the duration of their movie. -/
def screeningCandidates (db : Db) (hallId : ℕ) (excludeId : Option ℕ) : List (Screening × ℕ) :=
  (db.screenings.rows.filter fun s =>
    s.hallId = hallId ∧ s.status ≠ .cancelled ∧ excludeId ≠ some s.id).filterMap fun s =>
      (db.movies.get s.movieId).map fun m => (s, m.duration)

def findFutureScheduledByMovie (db : Db) (movieId : ℕ) (now : Time) : List FutureScreening :=
  ((db.screenings.rows.filter fun s =>
    s.movieId = movieId ∧ s.status = .scheduled ∧ now < s.startTime).filterMap fun s =>
      (db.halls.get s.hallId).map fun h =>
        (⟨s.id, s.startTime, s.price, h⟩ : FutureScreening)).insertionSort
          fun a b => a.startTime ≤ b.startTime

/-- A draft is invisible to the public. -/
def findPublishedById (db : Db) (id : ℕ) : Option Movie :=
  (db.movies.get id).filter fun m => m.status = .published

/-- The published movies, latest first, each with one screening that is still to come. -/
def findPublishedForBrowse (db : Db) (now : Time) : List MovieWithFutureFlag :=
  (db.movies.rows.filter fun m => m.status = .published).reverse.map fun m =>
    { m with screens := ((db.screenings.rows.filter fun s =>
        s.movieId = m.id ∧ s.status = .scheduled ∧ now < s.startTime).take 1).map Screening.id }

def findStuckTimedOut (db : Db) (olderThan : Time) : List Payment :=
  db.payments.rows.filter fun p => p.status = .timedOut ∧ p.createdAt < olderThan

def findRefundPolicy (db : Db) (hoursUntilScreening : ℚ) : Option RefundPolicy :=
  db.refundPolicies.rows.find? fun p =>
    (p.hoursFrom : ℚ) ≤ hoursUntilScreening ∧ hoursUntilScreening < (p.hoursTo : ℚ)

end Db

/-! ### Redis -/

inductive CacheKey where
  | seatMap (screeningId : ℕ)
  | screeningDetail (id : ℕ)
  | movieScreenings (movieId : ℕ)
  | hallList
  | movie (id : ℕ)
  | nowShowing
  | comingSoon
  deriving DecidableEq

/-- What a key holds, after `JSON.parse`. -/
@[reducible] def CacheKey.Value : CacheKey → Type
  | .seatMap _ => List SeatMapEntry
  | .screeningDetail _ => ScreeningWithMovieHall
  | .movieScreenings _ => List FutureScreening
  | .hallList => List Hall
  | .movie _ => Movie
  | .nowShowing | .comingSoon => List Movie

/-- The scores of a sorted set, with the expiry of its key. The members are
`${now}-${randomUUID()}`, so no two additions share one and each keeps its score. -/
structure SortedSet where
  scores : List Time
  expiresAt : Option Time
  deriving DecidableEq

def SortedSet.empty : SortedSet := ⟨[], none⟩

/-- A key past its expiry reads as absent. -/
def SortedSet.live (z : SortedSet) (now : Time) : SortedSet :=
  if z.expiresAt.any (fun t => decide (t ≤ now)) then SortedSet.empty else z

structure Redis where
  cache : (k : CacheKey) → Option k.Value
  paymentFailures : ℕ → SortedSet
  /-- The instant at which `payment_lockout:user:{id}` expires. -/
  paymentLockout : ℕ → Option Time

def Redis.del (r : Redis) (keys : List CacheKey) : Redis :=
  { r with cache := fun k => if k ∈ keys then none else r.cache k }

def Redis.set (r : Redis) (k : CacheKey) (v : k.Value) : Redis :=
  { r with cache := Function.update r.cache k (some v) }

/-! ### Stripe -/

inductive SessionPaymentStatus where
  | paid | unpaid | noPaymentRequired
  deriving DecidableEq, Repr

structure CheckoutParams where
  reservationId : ℕ
  amount : ℤ
  currency : String
  /-- Unix time, in seconds. -/
  expiresAt : ℤ
  paymentId : ℕ
  deriving DecidableEq

structure Session where
  id : ℕ
  url : String
  paymentStatus : SessionPaymentStatus
  paymentIntent : Option ℕ
  deriving DecidableEq

structure Refund where
  id : ℕ
  paymentIntent : ℕ
  amount : ℤ
  idempotencyKey : ℕ
  deriving DecidableEq

/-- Stripe as the code sees it: `σ` is its state, `A` what happens there between
our calls (a customer pays, a session expires). A refund that was answered is in
Stripe's books with the parameters of the call, and the books only grow. -/
structure StripeApi (σ A : Type) where
  createSession : CheckoutParams → σ → Except Err Session × σ
  retrieveSession : Option ℕ → σ → Except Err Session × σ
  createRefund : (paymentIntent : ℕ) → (amount : ℤ) → (idempotencyKey : ℕ) → σ →
    Except Err Refund × σ
  act : A → σ → σ
  refunds : σ → List Refund
  createRefund_issues : ∀ i a k s r, (createRefund i a k s).1 = .ok r →
    r ∈ refunds (createRefund i a k s).2 ∧ r.paymentIntent = i ∧ r.amount = a ∧ r.idempotencyKey = k
  createSession_keeps : ∀ p s, refunds s ⊆ refunds (createSession p s).2
  retrieveSession_keeps : ∀ i s, refunds s ⊆ refunds (retrieveSession i s).2
  createRefund_keeps : ∀ i a k s, refunds s ⊆ refunds (createRefund i a k s).2
  act_keeps : ∀ a s, refunds s ⊆ refunds (act a s)

structure CheckoutSessionObject where
  paymentStatus : SessionPaymentStatus
  paymentIntent : Option ℕ
  /-- `Number(session.metadata?.paymentId)`; `none` is `NaN`. -/
  paymentId : Option ℕ
  deriving DecidableEq

structure DisputeObject where
  paymentIntent : Option ℕ
  reason : String
  deriving DecidableEq

inductive StripeEventBody where
  | checkoutSessionCompleted (session : CheckoutSessionObject)
  | checkoutSessionAsyncPaymentFailed (session : CheckoutSessionObject)
  | checkoutSessionExpired (session : CheckoutSessionObject)
  | chargeDisputeCreated (dispute : DisputeObject)
  | other
  deriving DecidableEq

/-- An event whose signature was verified. -/
structure StripeEvent where
  id : ℕ
  body : StripeEventBody
  deriving DecidableEq

/-! ### Reservation events and room messages -/

inductive ReservationEvent where
  | created (screeningId : ℕ) (seatIds : List ℕ)
  | cancelled (screeningId : ℕ) (seatIds : List ℕ)
  | confirmed (screeningId : ℕ) (seatIds : List ℕ)
  | holdExpired (userId screeningId seatId : ℕ)
  deriving DecidableEq

inductive RoomMessage where
  | seatReserved (seatIds : List ℕ) (status : SeatStatus)
  | seatCancelled (seatIds : List ℕ) (status : SeatStatus)
  | seatBooked (seatIds : List ℕ) (status : SeatStatus)
  | summary (s : ScreeningSummary)
  deriving DecidableEq

/-- What the broadcast listener sends to the screening's room before its first
`await`, that is while the event is being emitted. -/
def ReservationEvent.delta : ReservationEvent → List (ℕ × RoomMessage)
  | .created s seats => [(s, .seatReserved seats .held)]
  | .cancelled s seats => [(s, .seatCancelled seats .available)]
  | .confirmed s seats => [(s, .seatBooked seats .booked)]
  | .holdExpired _ _ _ => []

/-! ### The world and its commands -/

structure World (σ : Type) where
  db : Db
  redis : Redis
  stripe : σ
  now : Time
  /-- `ConcurrencyGuard.active` and its limit. -/
  active : ℕ
  limit : ℕ
  /-- Emitted events whose listeners have not run yet. -/
  pending : List ReservationEvent
  /-- Everything sent to the screening rooms, in order. -/
  rooms : List (ℕ × RoomMessage)
  /-- `hold:expired` messages sent to a holder's sockets: user, screening, seat. -/
  notices : List (ℕ × ℕ × ℕ)

inductive Cmd where
  | dateNow
  | emit (e : ReservationEvent)
  | emitToRoom (screeningId : ℕ) (m : RoomMessage)
  | emitToUser (userId screeningId seatId : ℕ)
  | acquire
  | release
  -- ReservationsRepository
  | holdSeat (p : Db.HoldSeatParams)
  | reservationUpdate (id : ℕ) (data : ReservationData)
  | releaseExpiredHolds (now : Time)
  | reservationFindById (id : ℕ)
  -- PaymentsRepository
  | paymentFindByReservationId (reservationId : ℕ)
  | paymentFindById (id : Option ℕ)
  | paymentFindByStripeEventId (eventId : ℕ)
  | paymentFindByStripePaymentId (intent : Option ℕ)
  | paymentCreate (data : Db.PaymentCreate)
  | paymentUpdate (id : Option ℕ) (data : PaymentData)
  | paymentDelete (id : ℕ)
  | findStuckTimedOut (olderThan : Time)
  | findRefundPolicy (hoursUntilScreening : ℚ)
  | declineWithReservation (paymentId reservationId : ℕ)
  | confirmWithReservation (paymentId reservationId : ℕ) (stripePaymentId : Option ℕ)
  -- ScreeningsRepository
  | screeningCreate (data : Db.ScreeningCreate)
  | screeningUpdate (id : ℕ) (data : ScreeningData)
  | screeningFindById (id : ℕ)
  | screeningDelete (id : ℕ)
  | screeningHasReservations (screeningId : ℕ)
  | screeningCandidates (hallId : ℕ) (excludeId : Option ℕ)
  | findFutureScheduledByMovie (movieId : ℕ) (now : Time)
  | findSeatsByHall (hallId : ℕ)
  | findActiveReservations (screeningId : ℕ)
  -- HallsRepository
  | createHallWithSeats (hall : Db.HallCreate) (seats : List (String × String))
  | hallFindById (id : ℕ)
  | hallDelete (id : ℕ)
  | hallHasReservations (hallId : ℕ)
  -- MoviesRepository
  | movieCreate (data : Db.MovieCreate)
  | movieUpdate (id : ℕ) (data : MovieData)
  | movieFindById (id : ℕ)
  | movieDelete (id : ℕ)
  | movieHasReservations (movieId : ℕ)
  | findPublishedById (id : ℕ)
  | findPublishedForBrowse (now : Time)
  -- Redis
  | cacheGet (k : CacheKey)
  | cacheSet (k : CacheKey) (v : k.Value)
  | cacheDel (keys : List CacheKey)
  | zaddFailure (userId : ℕ) (score : Time)
  | pexpireFailures (userId : ℕ) (ms : Time)
  | zremrangeFailures (userId : ℕ) (high : Time)
  | zcardFailures (userId : ℕ)
  | setLockout (userId : ℕ) (ms : Time)
  | existsLockout (userId : ℕ)
  -- Stripe
  | sessionsCreate (p : CheckoutParams)
  | sessionsRetrieve (id : Option ℕ)
  | refundsCreate (paymentIntent : ℕ) (amount : ℤ) (idempotencyKey : ℕ)

@[reducible] def Cmd.Reply : Cmd → Type
  | .dateNow => Time
  | .emit _ | .emitToRoom _ _ | .emitToUser _ _ _ | .acquire | .release => Unit
  | .holdSeat _ | .reservationUpdate _ _ => Reservation
  | .releaseExpiredHolds _ => List Db.ExpiredHold
  | .reservationFindById _ => Option Reservation
  | .paymentFindByReservationId _ | .paymentFindById _ | .paymentFindByStripeEventId _
  | .paymentFindByStripePaymentId _ => Option Payment
  | .paymentCreate _ | .paymentUpdate _ _ | .paymentDelete _ => Payment
  | .findStuckTimedOut _ => List Payment
  | .findRefundPolicy _ => Option RefundPolicy
  | .declineWithReservation _ _ | .confirmWithReservation _ _ _ => Payment × Reservation
  | .screeningCreate _ | .screeningUpdate _ _ | .screeningDelete _ => Screening
  | .screeningFindById _ => Option ScreeningWithMovieHall
  | .screeningHasReservations _ | .hallHasReservations _ | .movieHasReservations _ => Bool
  | .screeningCandidates _ _ => List (Screening × ℕ)
  | .findFutureScheduledByMovie _ _ => List FutureScreening
  | .findSeatsByHall _ => List Seat
  | .findActiveReservations _ => List Reservation
  | .createHallWithSeats _ _ | .hallDelete _ => Hall
  | .hallFindById _ => Option Hall
  | .movieCreate _ | .movieUpdate _ _ | .movieDelete _ => Movie
  | .movieFindById _ | .findPublishedById _ => Option Movie
  | .findPublishedForBrowse _ => List MovieWithFutureFlag
  | .cacheGet k => Option k.Value
  | .cacheSet _ _ | .cacheDel _ => Unit
  | .zaddFailure _ _ | .pexpireFailures _ _ | .zremrangeFailures _ _ | .setLockout _ _ => Unit
  | .zcardFailures _ => ℕ
  | .existsLockout _ => Bool
  | .sessionsCreate _ | .sessionsRetrieve _ => Session
  | .refundsCreate _ _ _ => Refund

/-- A handler. -/
abbrev M := Prog Cmd Cmd.Reply Err

def request (c : Cmd) : M c.Reply := Prog.issue c

namespace World

variable {σ A : Type}

/-- Commit a statement, or leave the database as it was. -/
def commit {α : Type} (w : World σ) : Except Err (α × Db) → Except Err α × World σ
  | .ok (a, db) => (.ok a, { w with db })
  | .error e => (.error e, w)

def onStripe {α : Type} (w : World σ) (r : Except Err α × σ) : Except Err α × World σ :=
  (r.1, { w with stripe := r.2 })

def onFailures (w : World σ) (userId : ℕ) (f : SortedSet → SortedSet) : World σ :=
  let z := f ((w.redis.paymentFailures userId).live w.now)
  { w with redis := { w.redis with
    paymentFailures := Function.update w.redis.paymentFailures userId z } }

variable (api : StripeApi σ A)

def exec : (c : Cmd) → World σ → Except Err c.Reply × World σ
  | .dateNow, w => (.ok w.now, w)
  | .emit e, w => (.ok (), { w with pending := w.pending ++ [e], rooms := w.rooms ++ e.delta })
  | .emitToRoom s m, w => (.ok (), { w with rooms := w.rooms ++ [(s, m)] })
  | .emitToUser u s seat, w => (.ok (), { w with notices := w.notices ++ [(u, s, seat)] })
  | .acquire, w =>
    if w.limit ≤ w.active then
      (.error (.serviceUnavailable "System is under heavy load — please try again"), w)
    else (.ok (), { w with active := w.active + 1 })
  | .release, w => (.ok (), { w with active := w.active - 1 })
  | .holdSeat p, w => w.commit (w.db.holdSeat p)
  | .reservationUpdate id d, w => w.commit (w.db.reservationUpdate id d)
  | .releaseExpiredHolds now, w => w.commit (.ok (w.db.releaseExpiredHolds now))
  | .reservationFindById id, w => (.ok (w.db.reservations.get id), w)
  | .paymentFindByReservationId id, w =>
    (.ok (w.db.payments.rows.find? fun p => p.reservationId = id), w)
  | .paymentFindById id, w => match id with
    | none => (.error .prismaValidation, w)
    | some id => (.ok (w.db.payments.get id), w)
  | .paymentFindByStripeEventId e, w =>
    (.ok (w.db.payments.rows.find? fun p => p.stripeEventId = some e), w)
  | .paymentFindByStripePaymentId i, w => match i with
    | none => (.error .prismaValidation, w)
    | some i => (.ok (w.db.payments.rows.find? fun p => p.stripePaymentId = some i), w)
  | .paymentCreate d, w => w.commit (w.db.paymentCreate w.now d)
  | .paymentUpdate id d, w => match id with
    | none => (.error .prismaValidation, w)
    | some id => w.commit (w.db.paymentUpdate id d)
  | .paymentDelete id, w => w.commit (w.db.paymentDelete id)
  | .findStuckTimedOut t, w => (.ok (w.db.findStuckTimedOut t), w)
  | .findRefundPolicy h, w => (.ok (w.db.findRefundPolicy h), w)
  | .declineWithReservation p r, w => w.commit (w.db.declineWithReservation p r)
  | .confirmWithReservation p r i, w => w.commit (w.db.confirmWithReservation p r i)
  | .screeningCreate d, w => w.commit (w.db.screeningCreate d)
  | .screeningUpdate id d, w => w.commit (w.db.screeningUpdate id d)
  | .screeningFindById id, w => (.ok (w.db.screeningFindById id), w)
  | .screeningDelete id, w => w.commit (w.db.screeningDelete id)
  | .screeningHasReservations id, w =>
    (.ok (w.db.reservations.rows.any fun r => r.screeningId = id), w)
  | .screeningCandidates h x, w => (.ok (w.db.screeningCandidates h x), w)
  | .findFutureScheduledByMovie m t, w => (.ok (w.db.findFutureScheduledByMovie m t), w)
  | .findSeatsByHall h, w => (.ok (w.db.findSeatsByHall h), w)
  | .findActiveReservations s, w => (.ok (w.db.findActiveReservations s), w)
  | .createHallWithSeats d seats, w => w.commit (w.db.createHallWithSeats d seats)
  | .hallFindById id, w => (.ok (w.db.halls.get id), w)
  | .hallDelete id, w => w.commit (w.db.hallDelete id)
  | .hallHasReservations id, w =>
    (.ok (w.db.reservations.rows.any fun r =>
      (w.db.screenings.get r.screeningId).any fun s => s.hallId = id), w)
  | .movieCreate d, w => w.commit (.ok (w.db.movieCreate d))
  | .movieUpdate id d, w => w.commit (w.db.movieUpdate id d)
  | .movieFindById id, w => (.ok (w.db.movies.get id), w)
  | .movieDelete id, w => w.commit (w.db.movieDelete id)
  | .movieHasReservations id, w =>
    (.ok (w.db.reservations.rows.any fun r =>
      (w.db.screenings.get r.screeningId).any fun s => s.movieId = id), w)
  | .findPublishedById id, w => (.ok (w.db.findPublishedById id), w)
  | .findPublishedForBrowse t, w => (.ok (w.db.findPublishedForBrowse t), w)
  | .cacheGet k, w => (.ok (w.redis.cache k), w)
  | .cacheSet k v, w => (.ok (), { w with redis := w.redis.set k v })
  | .cacheDel keys, w => (.ok (), { w with redis := w.redis.del keys })
  | .zaddFailure u score, w =>
    (.ok (), w.onFailures u fun z => { z with scores := z.scores ++ [score] })
  | .pexpireFailures u ms, w =>
    (.ok (), w.onFailures u fun z => { z with expiresAt := some (w.now + ms) })
  | .zremrangeFailures u high, w =>
    (.ok (), w.onFailures u fun z =>
      { z with scores := z.scores.filter fun t => ¬ (0 ≤ t ∧ t ≤ high) })
  | .zcardFailures u, w => (.ok ((w.redis.paymentFailures u).live w.now).scores.length, w)
  | .setLockout u ms, w => (.ok (), { w with redis := { w.redis with
    paymentLockout := Function.update w.redis.paymentLockout u (some (w.now + ms)) } })
  | .existsLockout u, w =>
    (.ok ((w.redis.paymentLockout u).any fun t => decide (w.now < t)), w)
  | .sessionsCreate p, w => w.onStripe (api.createSession p w.stripe)
  | .sessionsRetrieve id, w => w.onStripe (api.retrieveSession id w.stripe)
  | .refundsCreate i a k, w => w.onStripe (api.createRefund i a k w.stripe)

end World

end MovieReservation
