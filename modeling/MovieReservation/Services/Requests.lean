import MovieReservation.Services.Screenings

/-! The system the services make up: the requests and jobs that reach them, how they
interleave, and histories in which they run one at a time, with the listeners of
what an operation emitted running before the next one starts. -/

namespace MovieReservation

open Lib

/-! ### Entry points -/

inductive BookingRequest where
  | reserve (userId : ℕ) (dto : CreateReservationDto)
  | cancel (userId id : ℕ)
  | createCheckoutSession (userId reservationId : ℕ)
  | webhook (constructed : Except String StripeEvent)
  | expireHolds
  | reconcilePayments
  | getStatus (userId reservationId : ℕ)
  | getSeatMap (screeningId : ℕ)

inductive AdminRequest where
  | createHall (dto : HallsService.CreateHallDto)
  | deleteHall (id : ℕ)
  | createMovie (dto : Db.MovieCreate)
  | updateMovie (id : ℕ) (dto : MovieData)
  | publish (id : ℕ)
  | unpublish (id : ℕ)
  | deleteMovie (id : ℕ)
  | createScreening (dto : Db.ScreeningCreate)
  | updateScreening (id : ℕ) (dto : ScreeningsService.UpdateScreeningDto)
  | cancelScreening (id : ℕ)
  | deleteScreening (id : ℕ)

inductive Request where
  | booking (r : BookingRequest)
  | admin (r : AdminRequest)

inductive Response where
  | reservation (r : Reservation)
  | url (url : String)
  | status (reservation : ReservationStatus) (payment : Option PaymentStatus)
  | seatMap (seatMap : List SeatMapEntry)
  | hall (h : Hall)
  | movie (m : Movie)
  | screening (s : Screening)
  | received
  deriving DecidableEq

namespace HoldExpiryCron

/-- A failed tick is logged and forgotten. -/
def handleExpireHolds : M Unit :=
  try ReservationsService.expireHolds catch _ => pure ()

def handleReconcilePayments : M Unit :=
  try PaymentsService.reconcileTimedOutPayments catch _ => pure ()

end HoldExpiryCron

def BookingRequest.handle : BookingRequest → M Response
  | reserve userId dto => .reservation <$> ReservationsService.reserve userId dto
  | cancel userId id => .reservation <$> ReservationsService.cancel userId id
  | createCheckoutSession userId reservationId =>
    .url <$> PaymentsService.createCheckoutSession userId reservationId
  | webhook constructed => do
    PaymentsService.handleWebhookEvent constructed
    return .received
  | expireHolds => do
    HoldExpiryCron.handleExpireHolds
    return .received
  | reconcilePayments => do
    HoldExpiryCron.handleReconcilePayments
    return .received
  | getStatus userId reservationId =>
    (fun s => .status s.1 s.2) <$> PaymentsService.getStatus userId reservationId
  | getSeatMap screeningId => .seatMap <$> ScreeningsService.getSeatMap screeningId

def AdminRequest.handle : AdminRequest → M Response
  | createHall dto => .hall <$> HallsService.createHall dto
  | deleteHall id => .hall <$> HallsService.deleteHall id
  | createMovie dto => .movie <$> MoviesService.createMovie dto
  | updateMovie id dto => .movie <$> MoviesService.updateMovie id dto
  | publish id => .movie <$> MoviesService.publish id
  | unpublish id => .movie <$> MoviesService.unpublish id
  | deleteMovie id => .movie <$> MoviesService.deleteMovie id
  | createScreening dto => .screening <$> ScreeningsService.createScreening dto
  | updateScreening id dto => .screening <$> ScreeningsService.updateScreening id dto
  | cancelScreening id => .screening <$> ScreeningsService.cancelScreening id
  | deleteScreening id => .screening <$> ScreeningsService.deleteScreening id

def Request.handle : Request → M Response
  | booking r => r.handle
  | admin r => r.handle

/-! ### Interleavings -/

/-- What can happen besides our own commands: time passes, a cache key lapses,
something happens at Stripe. -/
inductive Env (A : Type) where
  | advance (ms : ℕ)
  | evict (k : CacheKey)
  | stripe (a : A)

/-- A command that leaves the process can fail on its way, with an error of the
client that carries it. -/
def Cmd.fault : Cmd → Err → Bool
  | .dateNow, _ | .emit _, _ | .emitToRoom _ _, _ | .emitToUser _ _ _, _ | .acquire, _
  | .release, _ => false
  | .sessionsCreate _, e | .sessionsRetrieve _, e | .refundsCreate _ _ _, e => e = .stripe
  | _, e => e = .unreachable

namespace World

variable {σ A : Type}

def elapse (api : StripeApi σ A) : Env A → World σ → World σ
  | .advance ms, w => { w with now := w.now + ms }
  | .evict k, w => { w with redis := w.redis.del [k] }
  | .stripe a, w => { w with stripe := api.act a w.stripe }

end World

section Systems
variable {σ A : Type} (api : StripeApi σ A)

def bookingSystem : System Cmd Cmd.Reply Err (World σ) BookingRequest (Env A) Response where
  exec _ := World.exec api
  ready _ _ _ := true
  fault := Cmd.fault
  env := World.elapse api
  handler := BookingRequest.handle

/-- Bookings and the work of the admins, side by side. -/
def serviceSystem : System Cmd Cmd.Reply Err (World σ) Request (Env A) Response where
  exec _ := World.exec api
  ready _ _ _ := true
  fault := Cmd.fault
  env := World.elapse api
  handler := Request.handle

inductive Listener where
  | cache (e : ReservationEvent)
  | broadcast (e : ReservationEvent)

def Listener.handle : Listener → M Unit
  | cache e => ReservationCacheListener.invalidateSeatMap e
  | broadcast e => ReservationBroadcastListener.handle e

/-- The listeners of emitted events, side by side and with every service up. -/
def listenerSystem : System Cmd Cmd.Reply Err (World σ) Listener Empty Unit where
  exec _ := World.exec api
  ready _ _ _ := true
  fault _ _ := false
  env e _ := nomatch e
  handler := Listener.handle

/-! ### Histories -/

def listeners (events : List ReservationEvent) : List (Listener × M Unit) :=
  events.flatMap fun e => [.cache e, .broadcast e].map fun l => (l, l.handle)

/-- The listeners of the pending events run to their end in the order `xs`. -/
def deliver (xs : List (Choice Err Listener Empty)) (w : World σ) : Option (World σ) :=
  ((listenerSystem api).schedule xs ⟨{ w with pending := [] }, listeners w.pending⟩).bind fun p =>
    if System.Quiescent p then some p.state else none

/-- A step of a history: an operation with the order in which its listeners run, or
a move of the environment. -/
inductive Turn (R A : Type) where
  | perform (r : R) (xs : List (Choice Err Listener Empty))
  | env (e : Env A)

/-- The operation alone, with nothing in between. -/
def perform {α : Type} (p : M α) (w : World σ) : Except Err α × World σ := p.run (World.exec api) w

section Perform
variable {α β : Type}

theorem perform_bind (p : M α) (f : α → M β) (w : World σ) :
    perform api (p >>= f) w = match perform api p w with
      | (.ok a, w') => perform api (f a) w'
      | (.error e, w') => (.error e, w') := by
  unfold perform
  rw [Prog.run_bind]
  rcases p.run (World.exec api) w with ⟨_ | _, _⟩ <;> rfl

theorem perform_request (c : Cmd) (w : World σ) : perform api (request c) w = World.exec api c w :=
  rfl

@[simp] theorem perform_pure (a : α) (w : World σ) :
    perform api (pure a) w = (.ok a, w) := rfl

@[simp] theorem perform_throw (e : Err) (w : World σ) :
    perform api (throw e : M α) w = (.error e, w) := rfl

variable {api}

theorem perform_bind_ok {p : M α} {f : α → M β} {a : α} {w v : World σ}
    (h : perform api p w = (.ok a, v)) : perform api (p >>= f) w = perform api (f a) v :=
  Prog.run_bind_of_ok h

theorem perform_throwIf_bind {x : Prop} [Decidable x] {e : Err} {f : Unit → M α} {w : World σ}
    (h : ¬ x) : perform api (throwIf x e >>= f) w = perform api (f ()) w :=
  run_throwIf_bind_of_not h

theorem perform_tryCatch_ok {p : M α} {f : Err → M α} {a : α} {w v : World σ}
    (h : perform api p w = (.ok a, v)) : perform api (tryCatch p f) w = (.ok a, v) :=
  Prog.run_tryCatch_of_ok h

/-- A request that is scheduled without interruption does what `perform` says. -/
theorem schedule_perform (i : ℕ) (r : Request) (w : World σ) (ps : List (Request × M Response))
    (hi : ps[i]? = some (r, r.handle)) : ∃ n,
      (serviceSystem api).schedule (System.solo i n) ⟨w, ps⟩ =
        some ⟨(perform api r.handle w).2, ps.set i (r, .done (perform api r.handle w).1)⟩ :=
  (serviceSystem api).schedule_alone i (fun _ _ => rfl) r r.handle w ps hi

end Perform

variable {R : Type} (handle : R → M Response)

def turn : Turn R A → World σ → Option (World σ)
  | .perform r xs, w => deliver api xs (perform api (handle r) w).2
  | .env e, w => some (w.elapse api e)

/-- The world after a history, if every operation's listeners were run to their end. -/
def history : List (Turn R A) → World σ → Option (World σ)
  | [], w => some w
  | x :: xs, w => (turn api handle x w).bind (history xs)

theorem history_append (xs ys : List (Turn R A)) (w : World σ) :
    history api handle (xs ++ ys) w = (history api handle xs w).bind (history api handle ys) := by
  induction xs generalizing w with
  | nil => rfl
  | cons x xs ih =>
    simp only [List.cons_append, history, Option.bind_assoc]
    congr 1
    funext w'
    exact ih w'

end Systems

end MovieReservation
