import MovieReservation.Services.Payments

/-! Seat maps with their cache, the administration of screenings, halls and movies,
and the listeners of reservation events. -/

namespace MovieReservation

open Lib

/-! ### Caches

Redis errors are swallowed: a read degrades to a miss, a write to nothing. -/

def cacheGet (k : CacheKey) : M (Option k.Value) :=
  try request (.cacheGet k) catch _ => pure none

def cacheSet (k : CacheKey) (v : k.Value) : M Unit :=
  try request (.cacheSet k v) catch _ => pure ()

def cacheDel (keys : List CacheKey) : M Unit :=
  try request (.cacheDel keys) catch _ => pure ()

namespace ScreeningsCache

def getSeatMap (screeningId : ℕ) : M (Option (List SeatMapEntry)) := cacheGet (.seatMap screeningId)

def setSeatMap (screeningId : ℕ) (seatMap : List SeatMapEntry) : M Unit :=
  cacheSet (.seatMap screeningId) seatMap

def delSeatMap (screeningId : ℕ) : M Unit := cacheDel [.seatMap screeningId]

def delScreeningDetail (id : ℕ) : M Unit := cacheDel [.screeningDetail id]

def delMovieScreenings (movieId : ℕ) : M Unit := cacheDel [.movieScreenings movieId]

def delHalls : M Unit := cacheDel [.hallList]

end ScreeningsCache

namespace MoviesCache

def delMovie (id : ℕ) : M Unit := cacheDel [.movie id]

def delLists : M Unit := cacheDel [.nowShowing, .comingSoon]

end MoviesCache

/-! ### Seat maps -/

namespace ScreeningsService

def toSeatStatus : Option ReservationStatus → SeatStatus
  | some .held => .held
  | some .confirmed => .booked
  | _ => .available

/-- The map that the loop over the reservations fills; the last write wins. -/
def statusBySeat (reservations : List Reservation) : ℕ → Option ReservationStatus :=
  reservations.foldl (fun m r => Function.update m r.seatId (some r.status)) (fun _ => none)

def seatMap (seats : List Seat) (reservations : List Reservation) : List SeatMapEntry :=
  seats.map fun seat =>
    ⟨seat.id, seat.row, seat.number, toSeatStatus (statusBySeat reservations seat.id)⟩

def getSeatMap (screeningId : ℕ) : M (List SeatMapEntry) := do
  match ← ScreeningsCache.getSeatMap screeningId with
  | some cached => return cached
  | none =>
    match ← ScreeningsRepository.findById screeningId with
    | none => throw (ReservationsService.screeningNotFound screeningId)
    | some screening =>
      throwIf (screening.status = .cancelled) (ReservationsService.screeningNotFound screeningId)
      let seats : List Seat ← request (.findSeatsByHall screening.hallId)
      let reservations : List Reservation ← request (.findActiveReservations screeningId)
      let seatMap := seatMap seats reservations
      ScreeningsCache.setSeatMap screeningId seatMap
      return seatMap

def getScreeningSummary (screeningId : ℕ) : M ScreeningSummary := do
  let seatMap ← getSeatMap screeningId
  let held := seatMap.countP fun seat => seat.status = .held
  let booked := seatMap.countP fun seat => seat.status = .booked
  let capacity := seatMap.length
  return { screeningId, capacity, held, booked, available := capacity - held - booked,
           reserved := held + booked }

/-! ### Screening administration -/

def computeEnd (start : Time) (durationMinutes : ℕ) : Time := start + durationMinutes * 60000

/-- Half-open intervals overlap iff each starts before the other ends. -/
def overlapping (startMs endMs : Time) (s : Screening × ℕ) : Bool :=
  decide (s.1.startTime < endMs) && decide (startMs < computeEnd s.1.startTime s.2)

def assertNoOverlap (hallId : ℕ) (start finish : Time) (excludeId : Option ℕ) : M Unit := do
  let candidates : List (Screening × ℕ) ← request (.screeningCandidates hallId excludeId)
  throwIf (candidates.any (overlapping start finish))
    (.conflict "Hall already has a screening scheduled in this time range")

def getMovie (movieId : ℕ) : M Movie := do
  let movie : Option Movie ← request (.movieFindById movieId)
  match movie with
  | none => throw (.notFound s!"Movie {movieId} not found")
  | some movie => return movie

def getHall (hallId : ℕ) : M Hall := do
  let hall : Option Hall ← request (.hallFindById hallId)
  match hall with
  | none => throw (.notFound s!"Hall {hallId} not found")
  | some hall => return hall

def getExisting (id : ℕ) : M ScreeningWithMovieHall := do
  match ← ScreeningsRepository.findById id with
  | none => throw (ReservationsService.screeningNotFound id)
  | some screening => return screening

def createScreening (dto : Db.ScreeningCreate) : M Screening := do
  let movie ← getMovie dto.movieId
  let _ ← getHall dto.hallId
  assertNoOverlap dto.hallId dto.startTime (computeEnd dto.startTime movie.duration) none
  let screening : Screening ← request (.screeningCreate dto)
  MoviesCache.delLists
  ScreeningsCache.delMovieScreenings dto.movieId
  return screening

/-- What `updateScreening`, `cancelScreening` and `deleteScreening` invalidate. -/
def invalidate (id movieId : ℕ) : M Unit := do
  MoviesCache.delLists
  ScreeningsCache.delSeatMap id
  ScreeningsCache.delScreeningDetail id
  ScreeningsCache.delMovieScreenings movieId

structure UpdateScreeningDto where
  movieId : Option ℕ := none
  hallId : Option ℕ := none
  startTime : Option Time := none
  price : Option ℤ := none
  deriving DecidableEq

/-- The duration of the movie that is shown after the update. -/
def effectiveDuration (existing : ScreeningWithMovieHall) : Option ℕ → M ℕ
  | none => return existing.movie.duration
  | some movieId =>
    if movieId = existing.movieId then return existing.movie.duration
    else return (← getMovie movieId).duration

def checkHall (existing : ScreeningWithMovieHall) : Option ℕ → M Unit
  | none => return
  | some hallId =>
    if hallId = existing.hallId then return
    else do let _ ← getHall hallId

def updateScreening (id : ℕ) (dto : UpdateScreeningDto) : M Screening := do
  let existing ← getExisting id
  let hallId := dto.hallId.getD existing.hallId
  let start := dto.startTime.getD existing.startTime
  let duration ← effectiveDuration existing dto.movieId
  checkHall existing dto.hallId
  assertNoOverlap hallId start (computeEnd start duration) (some id)
  let updated : Screening ← request (.screeningUpdate id
    { movieId := dto.movieId, hallId := dto.hallId, startTime := dto.startTime,
      price := dto.price })
  invalidate id existing.movieId
  return updated

def cancelScreening (id : ℕ) : M Screening := do
  let existing ← getExisting id
  throwIf (existing.status = .cancelled) (.badRequest "Screening is already cancelled")
  let cancelled : Screening ← request (.screeningUpdate id { status := some .cancelled })
  invalidate id existing.movieId
  return cancelled

def deleteScreening (id : ℕ) : M Screening := do
  let existing ← getExisting id
  let hasReservations : Bool ← request (.screeningHasReservations id)
  throwIf hasReservations
    (.conflict "Cannot delete a screening with existing reservations; cancel it instead")
  let deleted : Screening ← request (.screeningDelete id)
  invalidate id existing.movieId
  return deleted

end ScreeningsService

/-! ### Halls -/

namespace HallsRepository

/-- The letters of a zero-based row index: 0 → A, 25 → Z, 26 → AA, 27 → AB, … -/
def rowLabelFrom (n : ℕ) (label : List Char) : List Char :=
  let label := Char.ofNat (65 + n % 26) :: label
  -- the loop leaves when `Math.floor(n / 26) - 1` is negative
  if n / 26 = 0 then label else rowLabelFrom (n / 26 - 1) label
termination_by n
decreasing_by omega

def rowLabel (index : ℕ) : String := String.ofList (rowLabelFrom index [])

/-- The seat grid: row by row, in each row the numbers `1..seatsPerRow`. -/
def grid (rows seatsPerRow : ℕ) : List (String × String) :=
  (List.range rows).flatMap fun r =>
    (List.range seatsPerRow).map fun s => (rowLabel r, toString (s + 1))

def createHallWithSeats (name : String) (rows seatsPerRow : ℕ) : M Hall :=
  request (.createHallWithSeats { name, capacity := rows * seatsPerRow } (grid rows seatsPerRow))

end HallsRepository

namespace HallsService

structure CreateHallDto where
  name : String
  rows : ℕ
  seatsPerRow : ℕ
  deriving DecidableEq

def createHall (dto : CreateHallDto) : M Hall := do
  let hall ← HallsRepository.createHallWithSeats dto.name dto.rows dto.seatsPerRow
  ScreeningsCache.delHalls
  return hall

def deleteHall (id : ℕ) : M Hall := do
  let _ ← ScreeningsService.getHall id
  let hasReservations : Bool ← request (.hallHasReservations id)
  throwIf hasReservations (.conflict "Cannot delete a hall with existing reservations")
  let deleted : Hall ← request (.hallDelete id)
  ScreeningsCache.delHalls
  return deleted

end HallsService

/-! ### Movies -/

namespace MoviesService

def createMovie (dto : Db.MovieCreate) : M Movie := request (.movieCreate dto)

def updateMovie (id : ℕ) (dto : MovieData) : M Movie := do
  let _ ← ScreeningsService.getMovie id
  let movie : Movie ← request (.movieUpdate id { dto with status := none })
  MoviesCache.delMovie id
  return movie

def publish (id : ℕ) : M Movie := do
  let movie ← ScreeningsService.getMovie id
  throwIf (movie.status = .published) (.badRequest "Movie is already published")
  let published : Movie ← request (.movieUpdate id { status := some .published })
  MoviesCache.delLists
  return published

def unpublish (id : ℕ) : M Movie := do
  let movie ← ScreeningsService.getMovie id
  throwIf (movie.status = .draft) (.badRequest "Movie is already a draft")
  let draft : Movie ← request (.movieUpdate id { status := some .draft })
  MoviesCache.delMovie id
  MoviesCache.delLists
  return draft

def deleteMovie (id : ℕ) : M Movie := do
  let _ ← ScreeningsService.getMovie id
  let hasReservations : Bool ← request (.movieHasReservations id)
  throwIf hasReservations
    (.conflict "Cannot delete a movie with existing reservations; unpublish it instead")
  let deleted : Movie ← request (.movieDelete id)
  MoviesCache.delMovie id
  MoviesCache.delLists
  return deleted

end MoviesService

/-! ### Listeners

What each listener does after the event was emitted; the message that the broadcast
listener sends while it is being emitted is `ReservationEvent.delta`. -/

/-- Subscribed to `created` and `cancelled`. -/
def ReservationCacheListener.invalidateSeatMap : ReservationEvent → M Unit
  | .created screeningId _ | .cancelled screeningId _ => ScreeningsCache.delSeatMap screeningId
  | .confirmed _ _ | .holdExpired _ _ _ => return

namespace ReservationBroadcastListener

def broadcast (screeningId : ℕ) : M Unit :=
  try
    let summary ← ScreeningsService.getScreeningSummary screeningId
    request (.emitToRoom screeningId (.summary summary))
  catch _ => pure ()

def handle : ReservationEvent → M Unit
  | .created screeningId _ | .cancelled screeningId _ | .confirmed screeningId _ =>
    broadcast screeningId
  | .holdExpired userId screeningId seatId => request (.emitToUser userId screeningId seatId)

end ReservationBroadcastListener

end MovieReservation
