import MovieReservation.Effects
import MovieReservation.Services.Requests

/-! What comes of an admin request that runs alone. It reads and it checks; then it throws
with nothing changed, or it carries out its one statement and drops the cached views that
are named here. -/

namespace MovieReservation

open Lib Lib.Prog Lib.Table

variable {σ A : Type}

/-! ### Requests, by what they check, write and drop -/

/-- The update is carried out: what it names is there, and the hall is free then. -/
def ScreeningsService.Accepts (db : Db) (id : ℕ) (dto : UpdateScreeningDto) : Prop :=
  ∃ existing ∈ db.screenings.get id, (∀ h ∈ dto.hallId, (db.halls.get h).isSome) ∧
    ∃ movie ∈ db.movies.get (dto.movieId.getD existing.movieId),
      let start := dto.startTime.getD existing.startTime
      ¬ (db.screeningCandidates (dto.hallId.getD existing.hallId) (some id)).any
        (overlapping start (computeEnd start movie.duration))

instance (db : Db) (id : ℕ) (dto : ScreeningsService.UpdateScreeningDto) :
    Decidable (ScreeningsService.Accepts db id dto) := by
  unfold ScreeningsService.Accepts
  infer_instance

namespace AdminRequest

def Accepts (db : Db) : AdminRequest → Prop
  | createHall dto => (db.createHallWithSeats
      { name := dto.name, capacity := dto.rows * dto.seatsPerRow }
      (HallsRepository.grid dto.rows dto.seatsPerRow)).toOption.isSome
  | deleteHall id => (db.halls.get id).isSome ∧
    ∀ r ∈ db.reservations.rows, ∀ s ∈ db.screenings.get r.screeningId, s.hallId ≠ id
  | createMovie _ => True
  | updateMovie id _ => (db.movies.get id).isSome
  | publish id => ∃ movie ∈ db.movies.get id, movie.status ≠ .published
  | unpublish id => ∃ movie ∈ db.movies.get id, movie.status ≠ .draft
  | deleteMovie id => (db.movies.get id).isSome ∧
    ∀ r ∈ db.reservations.rows, ∀ s ∈ db.screenings.get r.screeningId, s.movieId ≠ id
  | createScreening dto => ∃ movie ∈ db.movies.get dto.movieId, (db.halls.get dto.hallId).isSome ∧
    ¬ (db.screeningCandidates dto.hallId none).any (ScreeningsService.overlapping dto.startTime
      (ScreeningsService.computeEnd dto.startTime movie.duration))
  | updateScreening id dto => ScreeningsService.Accepts db id dto
  | cancelScreening id => ∃ s ∈ db.screenings.get id, s.status ≠ .cancelled
  | deleteScreening id => (db.screenings.get id).isSome ∧
    ∀ r ∈ db.reservations.rows, r.screeningId ≠ id

instance (db : Db) (op : AdminRequest) : Decidable (op.Accepts db) := by
  induction op using AdminRequest.casesOn <;> unfold Accepts <;> infer_instance

def statement : AdminRequest → Cmd
  | createHall dto => .createHallWithSeats
      { name := dto.name, capacity := dto.rows * dto.seatsPerRow }
      (HallsRepository.grid dto.rows dto.seatsPerRow)
  | deleteHall id => .hallDelete id
  | createMovie dto => .movieCreate dto
  | updateMovie id dto => .movieUpdate id { dto with status := none }
  | publish id => .movieUpdate id { status := some .published }
  | unpublish id => .movieUpdate id { status := some .draft }
  | deleteMovie id => .movieDelete id
  | createScreening dto => .screeningCreate dto
  | updateScreening id dto => .screeningUpdate id
      { movieId := dto.movieId, hallId := dto.hallId, startTime := dto.startTime,
        price := dto.price }
  | cancelScreening id => .screeningUpdate id { status := some .cancelled }
  | deleteScreening id => .screeningDelete id

/-- The lists, and the views of the screening and of the movie that it was of. -/
def viewsOf (db : Db) (id : ℕ) : List CacheKey :=
  [.nowShowing, .comingSoon, .seatMap id, .screeningDetail id] ++
    ((db.screenings.get id).map fun s => CacheKey.movieScreenings s.movieId).toList

def drops (db : Db) : AdminRequest → List CacheKey
  | createHall _ | deleteHall _ => [.hallList]
  | createMovie _ => []
  | updateMovie id _ => [.movie id]
  | publish _ => [.nowShowing, .comingSoon]
  | unpublish id | deleteMovie id => [.movie id, .nowShowing, .comingSoon]
  | createScreening dto => [.nowShowing, .comingSoon, .movieScreenings dto.movieId]
  | updateScreening id _ | cancelScreening id | deleteScreening id => viewsOf db id

end AdminRequest

/-! ### Upshots -/

theorem Redis.del_del (r : Redis) (keys keys' : List CacheKey) :
    (r.del keys).del keys' = r.del (keys ++ keys') := by
  unfold Redis.del
  congr 1
  funext k
  by_cases h' : k ∈ keys' <;> by_cases h : k ∈ keys <;> simp [h, h']

theorem Redis.del_nil (r : Redis) : r.del [] = r := by
  unfold Redis.del
  simp

section Upshots
variable {api : StripeApi σ A} {α β : Type} {accepts : Prop} {c : Cmd} {keys : List CacheKey}
  {w : World σ}

variable (api accepts c keys w) in
/-- Nothing but an error comes of the request, or its statement is carried out and the keys
are gone. -/
inductive Upshot : Except Err α × World σ → Prop
  | refused (e : Err) : ¬ accepts → Upshot (.error e, w)
  | done (y : α) {x : c.Reply} {db : Db} : accepts →
    World.exec api c w = (.ok x, { w with db }) →
      Upshot (.ok y, { w with db, redis := w.redis.del keys })

theorem Upshot.map {p : M α} (f : α → β) (h : Upshot api accepts c keys w (perform api p w)) :
    Upshot api accepts c keys w (perform api (f <$> p) w) := by
  rw [map_eq, perform_bind]
  generalize perform api p w = r at h
  cases h with
  | refused e h => exact .refused e h
  | done y h hx => exact .done (f y) h hx

theorem Upshot.read {p : M β} {f : β → M α} {b : β} (hp : perform api p w = (.ok b, w))
    (h : Upshot api accepts c keys w (perform api (f b) w)) :
    Upshot api accepts c keys w (perform api (p >>= f) w) := by
  rw [perform_bind_ok hp]
  exact h

theorem Upshot.missing {p : M β} {f : β → M α} {e : Err} (hp : perform api p w = (.error e, w))
    (h : ¬ accepts) : Upshot api accepts c keys w (perform api (p >>= f) w) := by
  rw [perform_bind, hp]
  exact .refused e h

theorem Upshot.check {x : Prop} [Decidable x] {e : Err} {f : Unit → M α}
    (hx : x → ¬ accepts) (h : ¬ x → Upshot api accepts c keys w (perform api (f ()) w)) :
    Upshot api accepts c keys w (perform api (throwIf x e >>= f) w) := by
  by_cases hc : x
  · refine .missing (e := e) ?_ (hx hc)
    rw [throwIf, if_pos hc]
    rfl
  · refine .read (b := ()) ?_ (h hc)
    rw [throwIf, if_neg hc]
    rfl

theorem Upshot.write {f : c.Reply → M α} {x : c.Reply} {db : Db} {y : α} (h : accepts)
    (hx : World.exec api c w = (.ok x, { w with db }))
    (hdrop : perform api (f x) { w with db } =
      (.ok y, { w with db, redis := w.redis.del keys })) :
    Upshot api accepts c keys w (perform api (request c >>= f) w) := by
  have hwrite : perform api (request c) w = (.ok x, { w with db }) := hx
  rw [perform_bind_ok hwrite, hdrop]
  exact .done y h hx

/-! ### What the requests look up -/

variable (api) in
theorem perform_getById (id : ℕ) (w : World σ) :
    perform api (ReservationsService.getById id) w =
      ((match w.db.reservations.get id with
        | none => .error (ReservationsService.reservationNotFound id)
        | some r => .ok r), w) := by
  change perform api (match w.db.reservations.get id with
    | none => throw (ReservationsService.reservationNotFound id)
    | some r => pure r) w = _
  cases w.db.reservations.get id <;> rfl

theorem findOwned_ok {u id : ℕ} {v : World σ} {r : Reservation}
    (h : perform api (ReservationsService.findOwned u id) w = (.ok r, v)) :
    v = w ∧ w.db.reservations.get id = some r ∧ r.userId = u := by
  rw [ReservationsService.findOwned, perform_bind, perform_getById] at h
  cases hr : w.db.reservations.get id with
  | none =>
    rw [hr] at h
    cases h
  | some r₀ =>
    rw [hr] at h
    change perform api (throwIf (r₀.userId ≠ u) _ >>= fun _ => pure r₀) w = _ at h
    by_cases howner : r₀.userId = u
    · rw [throwIf, if_neg (not_not.mpr howner)] at h
      cases h
      exact ⟨rfl, rfl, howner⟩
    · rw [throwIf, if_pos howner] at h
      cases h

theorem findOwned_run {r : Reservation} (hr : w.db.reservations.get r.id = some r) :
    perform api (ReservationsService.findOwned r.userId r.id) w = (.ok r, w) := by
  have hget : perform api (ReservationsService.getById r.id) w = (.ok r, w) := by
    rw [perform_getById, hr]
  rw [ReservationsService.findOwned, perform_bind_ok hget, perform_throwIf_bind (not_not.mpr rfl)]
  rfl

theorem perform_getMovie_some {id : ℕ} {movie : Movie} (h : w.db.movies.get id = some movie) :
    perform api (ScreeningsService.getMovie id) w = (.ok movie, w) := by
  have hread : perform api (request (.movieFindById id)) w = (.ok (some movie), w) := by
    rw [← h]
    rfl
  rw [ScreeningsService.getMovie, perform_bind_ok hread]
  rfl

theorem perform_getMovie_none {id : ℕ} (h : w.db.movies.get id = none) :
    perform api (ScreeningsService.getMovie id) w =
      (.error (.notFound s!"Movie {id} not found"), w) := by
  have hread : perform api (request (.movieFindById id)) w = (.ok none, w) := by
    rw [← h]
    rfl
  rw [ScreeningsService.getMovie, perform_bind_ok hread]
  rfl

theorem perform_getHall_some {id : ℕ} {hall : Hall} (h : w.db.halls.get id = some hall) :
    perform api (ScreeningsService.getHall id) w = (.ok hall, w) := by
  have hread : perform api (request (.hallFindById id)) w = (.ok (some hall), w) := by
    rw [← h]
    rfl
  rw [ScreeningsService.getHall, perform_bind_ok hread]
  rfl

theorem perform_getHall_none {id : ℕ} (h : w.db.halls.get id = none) :
    perform api (ScreeningsService.getHall id) w =
      (.error (.notFound s!"Hall {id} not found"), w) := by
  have hread : perform api (request (.hallFindById id)) w = (.ok none, w) := by
    rw [← h]
    rfl
  rw [ScreeningsService.getHall, perform_bind_ok hread]
  rfl

/-- A screening is found with its movie and its hall. -/
theorem Db.screeningFindById_eq {db : Db} {id : ℕ} {s : Screening}
    (h : db.screenings.get id = some s) :
    ∃ movie hall, db.movies.get s.movieId = some movie ∧
      db.screeningFindById id = some { s with movie, hall } := by
  have hs : s ∈ db.screenings.rows := mem_of_get h
  obtain ⟨movie, hm⟩ := Option.isSome_iff_exists.mp (db.screening_movie s hs)
  obtain ⟨hall, hh⟩ := Option.isSome_iff_exists.mp (db.screening_hall s hs)
  exact ⟨movie, hall, hm, by simp [Db.screeningFindById, h, hm, hh]⟩

variable (api) in
theorem perform_getExisting_some {id : ℕ} {s : Screening} (h : w.db.screenings.get id = some s) :
    ∃ existing, perform api (ScreeningsService.getExisting id) w = (.ok existing, w) ∧
      existing.toScreening = s ∧ w.db.movies.get s.movieId = some existing.movie := by
  obtain ⟨movie, hall, hm, hfound⟩ := Db.screeningFindById_eq h
  refine ⟨{ s with movie, hall }, ?_, rfl, hm⟩
  have hread : perform api (ScreeningsRepository.findById id) w =
      (.ok (some { s with movie, hall }), w) := by
    rw [← hfound]
    rfl
  rw [ScreeningsService.getExisting, perform_bind_ok hread]
  rfl

theorem perform_getExisting_none {id : ℕ} (h : w.db.screenings.get id = none) :
    perform api (ScreeningsService.getExisting id) w =
      (.error (ReservationsService.screeningNotFound id), w) := by
  have hfound : w.db.screeningFindById id = none := by simp [Db.screeningFindById, h]
  have hread : perform api (ScreeningsRepository.findById id) w = (.ok none, w) := by
    rw [← hfound]
    rfl
  rw [ScreeningsService.getExisting, perform_bind_ok hread]
  rfl

theorem World.commit_ok {a : α} {r : Except Err (α × Db)} {db : Db} (h : r = .ok (a, db)) :
    w.commit r = (.ok a, { w with db }) := by
  rw [h]
  rfl

variable (api) in
/-- The program is all that the request does. -/
abbrev AdminRequest.RunBy (op : AdminRequest) (p : M α) (w : World σ) : Prop :=
  Upshot api (op.Accepts w.db) op.statement (op.drops w.db) w (perform api p w)

/-! ### Movies -/

theorem Db.movieUpdate_ok {db : Db} {id : ℕ} {movie : Movie} (h : db.movies.get id = some movie)
    (d : MovieData) : ∃ db', db.movieUpdate id d = .ok (d.apply movie, db') := by
  unfold Db.movieUpdate
  rw [h]
  exact ⟨_, rfl⟩

theorem createMovie_upshot (dto : Db.MovieCreate) (w : World σ) :
    (AdminRequest.createMovie dto).RunBy api (MoviesService.createMovie dto) w := by
  have hdone : World.exec api (.movieCreate dto) w =
      (.ok (w.db.movieCreate dto).1, { w with db := (w.db.movieCreate dto).2 }) := rfl
  have hrun : Upshot api True (.movieCreate dto) [] w _ :=
    .done (w.db.movieCreate dto).1 trivial hdone
  rwa [Redis.del_nil] at hrun

theorem updateMovie_upshot (id : ℕ) (dto : MovieData) (w : World σ) :
    (AdminRequest.updateMovie id dto).RunBy api (MoviesService.updateMovie id dto) w := by
  cases hm : w.db.movies.get id with
  | none =>
    refine .missing (perform_getMovie_none hm) fun h => ?_
    simp [AdminRequest.Accepts, hm] at h
  | some movie =>
    refine .read (perform_getMovie_some hm) ?_
    obtain ⟨db, hok⟩ := Db.movieUpdate_ok hm { dto with status := none }
    exact .write (by simp [AdminRequest.Accepts, hm]) (World.commit_ok hok) rfl

theorem publish_upshot (id : ℕ) (w : World σ) :
    (AdminRequest.publish id).RunBy api (MoviesService.publish id) w := by
  cases hm : w.db.movies.get id with
  | none =>
    refine .missing (perform_getMovie_none hm) fun h => ?_
    simp [AdminRequest.Accepts, hm] at h
  | some movie =>
    refine .read (perform_getMovie_some hm) (.check (fun hst h => ?_) fun hst => ?_)
    · simp [AdminRequest.Accepts, hm, hst] at h
    · obtain ⟨db, hok⟩ := Db.movieUpdate_ok hm { status := some .published }
      exact .write ⟨movie, hm, hst⟩ (World.commit_ok hok) rfl

theorem unpublish_upshot (id : ℕ) (w : World σ) :
    (AdminRequest.unpublish id).RunBy api (MoviesService.unpublish id) w := by
  cases hm : w.db.movies.get id with
  | none =>
    refine .missing (perform_getMovie_none hm) fun h => ?_
    simp [AdminRequest.Accepts, hm] at h
  | some movie =>
    refine .read (perform_getMovie_some hm) (.check (fun hst h => ?_) fun hst => ?_)
    · simp [AdminRequest.Accepts, hm, hst] at h
    · obtain ⟨db, hok⟩ := Db.movieUpdate_ok hm { status := some .draft }
      refine .write (y := MovieData.apply { status := some .draft } movie) ⟨movie, hm, hst⟩
        (World.commit_ok hok) ?_
      change (_, ({ w with db, redis := (w.redis.del _).del _ } : World σ)) = _
      rw [Redis.del_del]
      rfl

theorem Db.movieDelete_ok {db : Db} {id : ℕ} {movie : Movie} (h : db.movies.get id = some movie) :
    ∃ db', db.movieDelete id = .ok (movie, db') := by
  unfold Db.movieDelete
  rw [h]
  exact ⟨_, rfl⟩

/-- The answer of a guard that goes through the screening. -/
theorem Db.guard_eq_false_iff {db : Db} {f : Screening → ℕ} {i : ℕ} :
    (db.reservations.rows.any fun r =>
      (db.screenings.get r.screeningId).any fun s => f s = i) = false ↔
        ∀ r ∈ db.reservations.rows, ∀ s ∈ db.screenings.get r.screeningId, f s ≠ i := by
  simp only [List.any_eq_false, Bool.not_eq_true]
  refine forall₂_congr fun r _ => ?_
  cases db.screenings.get r.screeningId <;> simp

theorem deleteMovie_upshot (id : ℕ) (w : World σ) :
    (AdminRequest.deleteMovie id).RunBy api (MoviesService.deleteMovie id) w := by
  cases hm : w.db.movies.get id with
  | none =>
    refine .missing (perform_getMovie_none hm) fun h => ?_
    simp [AdminRequest.Accepts, hm] at h
  | some movie =>
    refine .read (perform_getMovie_some hm) (.read (perform_request api _ w) ?_)
    refine .check (fun hfound h => ?_) fun hfound => ?_
    · rw [Db.guard_eq_false_iff.mpr h.2] at hfound
      cases hfound
    · obtain ⟨db, hok⟩ := Db.movieDelete_ok hm
      refine .write (y := movie) ⟨by rw [hm]; rfl, ?_⟩ (World.commit_ok hok) ?_
      · exact Db.guard_eq_false_iff.mp (Bool.not_eq_true _ ▸ hfound)
      · change (_, ({ w with db, redis := (w.redis.del _).del _ } : World σ)) = _
        rw [Redis.del_del]
        rfl

/-! ### Halls -/

theorem Db.hallDelete_ok {db : Db} {id : ℕ} {hall : Hall} (h : db.halls.get id = some hall) :
    ∃ db', db.hallDelete id = .ok (hall, db') := by
  unfold Db.hallDelete
  rw [h]
  exact ⟨_, rfl⟩

theorem createHall_upshot (dto : HallsService.CreateHallDto) (w : World σ) :
    (AdminRequest.createHall dto).RunBy api (HallsService.createHall dto) w := by
  cases hok : w.db.createHallWithSeats
      { name := dto.name, capacity := dto.rows * dto.seatsPerRow }
      (HallsRepository.grid dto.rows dto.seatsPerRow) with
  | error e =>
    refine .missing (e := e) ?_ fun h => ?_
    · change w.commit _ = _
      rw [hok]
      rfl
    · simp [AdminRequest.Accepts, hok, Except.toOption] at h
  | ok x =>
    exact .write (by simp [AdminRequest.Accepts, hok, Except.toOption]) (World.commit_ok hok) rfl

theorem deleteHall_upshot (id : ℕ) (w : World σ) :
    (AdminRequest.deleteHall id).RunBy api (HallsService.deleteHall id) w := by
  cases hh : w.db.halls.get id with
  | none =>
    refine .missing (perform_getHall_none hh) fun h => ?_
    simp [AdminRequest.Accepts, hh] at h
  | some hall =>
    refine .read (perform_getHall_some hh) (.read (perform_request api _ w) ?_)
    refine .check (fun hfound h => ?_) fun hfound => ?_
    · rw [Db.guard_eq_false_iff.mpr h.2] at hfound
      cases hfound
    · obtain ⟨db, hok⟩ := Db.hallDelete_ok hh
      refine .write (y := hall) ⟨by rw [hh]; rfl, ?_⟩ (World.commit_ok hok) rfl
      exact Db.guard_eq_false_iff.mp (Bool.not_eq_true _ ▸ hfound)

/-! ### Screenings -/

namespace Db
variable {db : Db} {id : ℕ}

theorem screeningCreate_ok {d : ScreeningCreate} (hm : (db.movies.get d.movieId).isSome)
    (hh : (db.halls.get d.hallId).isSome) : ∃ s db', db.screeningCreate d = .ok (s, db') := by
  unfold screeningCreate
  rw [dif_pos hh, dif_pos hm]
  exact ⟨_, _, rfl⟩

theorem screeningUpdate_ok {d : ScreeningData} {s : Screening} (hs : db.screenings.get id = some s)
    (hh : ∀ h ∈ d.hallId, (db.halls.get h).isSome)
    (hm : ∀ m ∈ d.movieId, (db.movies.get m).isSome) :
    ∃ db', db.screeningUpdate id d = .ok (d.apply s, db') := by
  unfold screeningUpdate
  split
  · rename_i hnone
    rw [hs] at hnone
    cases hnone
  · rename_i s' hs'
    obtain rfl : s = s' := Option.some.inj (hs.symm.trans hs')
    rw [dif_pos hh, dif_pos hm]
    exact ⟨_, rfl⟩

theorem screeningDelete_ok {s : Screening} (h : db.screenings.get id = some s) :
    ∃ db', db.screeningDelete id = .ok (s, db') := by
  unfold screeningDelete
  rw [h]
  exact ⟨_, rfl⟩

end Db

/-- What `updateScreening`, `cancelScreening` and `deleteScreening` drop, for a screening that
was found. -/
theorem perform_invalidate_bind {id : ℕ} {s : Screening} {db : Db} {f : Unit → M α} {y : α}
    (hs : w.db.screenings.get id = some s) (hf : f () = pure y) :
    perform api (ScreeningsService.invalidate id s.movieId >>= f) { w with db } =
      (.ok y, { w with db, redis := w.redis.del (AdminRequest.viewsOf w.db id) }) := by
  have hkeys : AdminRequest.viewsOf w.db id = [.nowShowing, .comingSoon] ++ [.seatMap id] ++
      [.screeningDetail id] ++ [.movieScreenings s.movieId] := by
    rw [AdminRequest.viewsOf, hs]
    rfl
  rw [hkeys, ← Redis.del_del, ← Redis.del_del, ← Redis.del_del]
  change perform api (f ()) _ = _
  rw [hf]
  rfl

theorem createScreening_upshot (dto : Db.ScreeningCreate) (w : World σ) :
    (AdminRequest.createScreening dto).RunBy api (ScreeningsService.createScreening dto) w := by
  cases hm : w.db.movies.get dto.movieId with
  | none =>
    refine .missing (perform_getMovie_none hm) fun h => ?_
    simp [AdminRequest.Accepts, hm] at h
  | some movie =>
    refine .read (perform_getMovie_some hm) ?_
    cases hh : w.db.halls.get dto.hallId with
    | none =>
      refine .missing (perform_getHall_none hh) fun h => ?_
      simp [AdminRequest.Accepts, hh] at h
    | some hall =>
      refine .read (perform_getHall_some hh) ?_
      rw [ScreeningsService.assertNoOverlap, bind_assoc]
      refine .read (perform_request api _ w) (.check (fun hover h => ?_) fun hfree => ?_)
      · obtain ⟨movie', hm', -, hfree⟩ := h
        obtain rfl : movie = movie' := Option.some.inj (hm.symm.trans hm')
        exact hfree hover
      · obtain ⟨s, db, hok⟩ := Db.screeningCreate_ok (d := dto) (by rw [hm]; rfl) (by rw [hh]; rfl)
        refine .write (y := s) ⟨movie, hm, by rw [hh]; rfl, hfree⟩ (World.commit_ok hok) ?_
        change (_, ({ w with db, redis := (w.redis.del _).del _ } : World σ)) = _
        rw [Redis.del_del]
        rfl

variable (api) in
/-- The duration is that of the movie shown after the update, if it exists. -/
theorem perform_effectiveDuration {existing : ScreeningWithMovieHall} (movieId : Option ℕ)
    (h : w.db.movies.get existing.movieId = some existing.movie) :
    (∃ movie, w.db.movies.get (movieId.getD existing.movieId) = some movie ∧
      perform api (ScreeningsService.effectiveDuration existing movieId) w =
        (.ok movie.duration, w)) ∨
    w.db.movies.get (movieId.getD existing.movieId) = none ∧ ∃ e,
      perform api (ScreeningsService.effectiveDuration existing movieId) w = (.error e, w) := by
  cases movieId with
  | none => exact .inl ⟨existing.movie, h, rfl⟩
  | some movieId =>
    rw [Option.getD_some, ScreeningsService.effectiveDuration]
    split_ifs with hsame
    · rw [hsame]
      exact .inl ⟨existing.movie, h, rfl⟩
    · cases hm : w.db.movies.get movieId with
      | none =>
        refine .inr ⟨rfl, .notFound s!"Movie {movieId} not found", ?_⟩
        rw [perform_bind, perform_getMovie_none hm]
      | some movie =>
        refine .inl ⟨movie, rfl, ?_⟩
        rw [perform_bind_ok (perform_getMovie_some hm)]
        rfl

variable (api) in
/-- The hall that is named is looked up, unless it is the screening's. -/
theorem perform_checkHall {existing : ScreeningWithMovieHall} (hallId : Option ℕ)
    (h : (w.db.halls.get existing.hallId).isSome) :
    (∀ n ∈ hallId, (w.db.halls.get n).isSome) ∧
      perform api (ScreeningsService.checkHall existing hallId) w = (.ok (), w) ∨
    (¬ ∀ n ∈ hallId, (w.db.halls.get n).isSome) ∧
      ∃ e, perform api (ScreeningsService.checkHall existing hallId) w = (.error e, w) := by
  cases hallId with
  | none => exact .inl ⟨nofun, rfl⟩
  | some hallId =>
    simp only [Option.mem_def, Option.some.injEq, forall_eq']
    rw [ScreeningsService.checkHall]
    split_ifs with hsame
    · rw [hsame]
      exact .inl ⟨h, rfl⟩
    · cases hh : w.db.halls.get hallId with
      | none =>
        refine .inr ⟨nofun, .notFound s!"Hall {hallId} not found", ?_⟩
        rw [perform_bind, perform_getHall_none hh]
      | some hall =>
        refine .inl ⟨rfl, ?_⟩
        rw [perform_bind_ok (perform_getHall_some hh)]
        rfl

theorem updateScreening_upshot (id : ℕ) (dto : ScreeningsService.UpdateScreeningDto) (w : World σ) :
    (AdminRequest.updateScreening id dto).RunBy api
      (ScreeningsService.updateScreening id dto) w := by
  cases hs : w.db.screenings.get id with
  | none =>
    refine .missing (perform_getExisting_none hs) ?_
    rintro ⟨s, hs', -⟩
    rw [hs] at hs'
    cases hs'
  | some s =>
    obtain ⟨existing, hrun, rfl, hmovie⟩ := perform_getExisting_some api hs
    have haccepts : (AdminRequest.updateScreening id dto).Accepts w.db ↔
        (∀ h ∈ dto.hallId, (w.db.halls.get h).isSome) ∧
          ∃ movie ∈ w.db.movies.get (dto.movieId.getD existing.movieId),
            ¬ (w.db.screeningCandidates (dto.hallId.getD existing.hallId) (some id)).any
              (ScreeningsService.overlapping (dto.startTime.getD existing.startTime)
                (ScreeningsService.computeEnd (dto.startTime.getD existing.startTime)
                  movie.duration)) := by
      simp only [AdminRequest.Accepts, ScreeningsService.Accepts, hs, Option.mem_def,
        Option.some.injEq, exists_eq_left']
    refine .read hrun ?_
    rcases perform_effectiveDuration api dto.movieId hmovie with
      ⟨movie, hm, hduration⟩ | ⟨hm, e, hduration⟩
    · refine .read hduration ?_
      rcases perform_checkHall api dto.hallId
          (w.db.screening_hall existing.toScreening (mem_of_get hs)) with
        ⟨hh, hcheck⟩ | ⟨hh, e, hcheck⟩
      · refine .read hcheck ?_
        rw [ScreeningsService.assertNoOverlap, bind_assoc]
        refine .read (perform_request api _ w) (.check (fun hover h => ?_) fun hfree => ?_)
        · obtain ⟨-, movie', hm', hfree⟩ := haccepts.mp h
          obtain rfl : movie = movie' := Option.some.inj (hm.symm.trans hm')
          exact hfree hover
        · have hmovies : ∀ m ∈ dto.movieId, (w.db.movies.get m).isSome := by
            intro m hmem
            rw [Option.mem_def.mp hmem, Option.getD_some] at hm
            exact Option.isSome_iff_exists.mpr ⟨movie, hm⟩
          let d : ScreeningData := { movieId := dto.movieId, hallId := dto.hallId,
                                     startTime := dto.startTime, price := dto.price }
          obtain ⟨db, hok⟩ := Db.screeningUpdate_ok (d := d) hs hh hmovies
          exact .write (haccepts.mpr ⟨hh, movie, hm, hfree⟩) (World.commit_ok hok)
            (perform_invalidate_bind hs rfl)
      · exact .missing hcheck fun h => hh (haccepts.mp h).1
    · refine .missing hduration fun h => ?_
      obtain ⟨-, movie, hm', -⟩ := haccepts.mp h
      rw [hm] at hm'
      cases hm'

theorem cancelScreening_upshot (id : ℕ) (w : World σ) :
    (AdminRequest.cancelScreening id).RunBy api (ScreeningsService.cancelScreening id) w := by
  cases hs : w.db.screenings.get id with
  | none =>
    refine .missing (perform_getExisting_none hs) fun h => ?_
    simp [AdminRequest.Accepts, hs] at h
  | some s =>
    obtain ⟨existing, hrun, rfl, -⟩ := perform_getExisting_some api hs
    refine .read hrun (.check (fun hst h => ?_) fun hst => ?_)
    · simp [AdminRequest.Accepts, hs, hst] at h
    · obtain ⟨db, hok⟩ := Db.screeningUpdate_ok (d := { status := some .cancelled }) hs nofun nofun
      exact .write ⟨_, hs, hst⟩ (World.commit_ok hok) (perform_invalidate_bind hs rfl)

theorem deleteScreening_upshot (id : ℕ) (w : World σ) :
    (AdminRequest.deleteScreening id).RunBy api (ScreeningsService.deleteScreening id) w := by
  cases hs : w.db.screenings.get id with
  | none =>
    refine .missing (perform_getExisting_none hs) fun h => ?_
    simp [AdminRequest.Accepts, hs] at h
  | some s =>
    obtain ⟨existing, hrun, rfl, -⟩ := perform_getExisting_some api hs
    refine .read hrun (.read (perform_request api _ w) ?_)
    refine .check (fun hfound h => ?_) fun hfound => ?_
    · obtain ⟨r, hr, hid⟩ := List.any_eq_true.mp hfound
      exact h.2 r hr (of_decide_eq_true hid)
    · obtain ⟨db, hok⟩ := Db.screeningDelete_ok hs
      refine .write ⟨by rw [hs]; rfl, fun r hr hid => hfound ?_⟩ (World.commit_ok hok)
        (perform_invalidate_bind hs rfl)
      exact List.any_eq_true.mpr ⟨r, hr, decide_eq_true hid⟩

/-- Every request is its checks, its statement and its drops. -/
theorem AdminRequest.upshot (op : AdminRequest) (w : World σ) : op.RunBy api op.handle w := by
  cases op with
  | createHall dto => exact (createHall_upshot dto w).map _
  | deleteHall id => exact (deleteHall_upshot id w).map _
  | createMovie dto => exact (createMovie_upshot dto w).map _
  | updateMovie id dto => exact (updateMovie_upshot id dto w).map _
  | publish id => exact (publish_upshot id w).map _
  | unpublish id => exact (unpublish_upshot id w).map _
  | deleteMovie id => exact (deleteMovie_upshot id w).map _
  | createScreening dto => exact (createScreening_upshot dto w).map _
  | updateScreening id dto => exact (updateScreening_upshot id dto w).map _
  | cancelScreening id => exact (cancelScreening_upshot id w).map _
  | deleteScreening id => exact (deleteScreening_upshot id w).map _

section Whole
variable {op : AdminRequest}

theorem AdminRequest.refused (h : ¬ op.Accepts w.db) : (perform api op.handle w).2 = w := by
  have hrun : op.RunBy api op.handle w := op.upshot w
  unfold AdminRequest.RunBy at hrun
  generalize perform api op.handle w = r at hrun ⊢
  cases hrun with
  | refused e _ => rfl
  | done y ha _ => exact absurd ha h

variable (api) in
theorem AdminRequest.accepted (h : op.Accepts w.db) :
    ∃ x db, World.exec api op.statement w = (.ok x, { w with db }) ∧
      (perform api op.handle w).2 = { w with db, redis := w.redis.del (op.drops w.db) } := by
  have hrun : op.RunBy api op.handle w := op.upshot w
  unfold AdminRequest.RunBy at hrun
  generalize perform api op.handle w = r at hrun ⊢
  cases hrun with
  | refused e hr => exact absurd h hr
  | done y _ hx => exact ⟨_, _, hx, rfl⟩

/-- A request that throws has changed nothing. -/
theorem AdminRequest.thrown {e : Err} {v : World σ}
    (h : perform api op.handle w = (.error e, v)) : ¬ op.Accepts w.db ∧ v = w := by
  have hrun : op.RunBy api op.handle w := op.upshot w
  unfold AdminRequest.RunBy at hrun
  generalize perform api op.handle w = r at hrun h
  cases hrun with
  | refused e' hr =>
    cases h
    exact ⟨hr, rfl⟩
  | done y _ _ => cases h

end Whole

end Upshots

end MovieReservation
