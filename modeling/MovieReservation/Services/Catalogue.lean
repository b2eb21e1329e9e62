import MovieReservation.Services.Moves
import MovieReservation.Services.Upshot

/-! What visitors read of the catalogue: movies, the two browse lists, screenings and seat
maps, each through its cache; and visits, in which they read and admins write, one at a
time. -/

namespace MovieReservation

open Lib Lib.Prog Lib.Table

/-! ### Reads -/

structure BrowseLists where
  nowShowing : List Movie
  comingSoon : List Movie
  deriving DecidableEq

namespace MoviesCache

def getMovie (id : ℕ) : M (Option Movie) := cacheGet (.movie id)

def setMovie (movie : Movie) : M Unit := cacheSet (.movie movie.id) movie

/-- Both lists, or a miss if either is absent. -/
def getLists : M (Option BrowseLists) := do
  let nowRaw : Option (List Movie) ← cacheGet .nowShowing
  let soonRaw : Option (List Movie) ← cacheGet .comingSoon
  match nowRaw, soonRaw with
  | some nowShowing, some comingSoon => return some { nowShowing, comingSoon }
  | _, _ => return none

def setLists (lists : BrowseLists) : M Unit := do
  cacheSet .nowShowing lists.nowShowing
  cacheSet .comingSoon lists.comingSoon

end MoviesCache

namespace MoviesService

/-- The loop over the published movies, with the marker stripped. -/
def split (movies : List MovieWithFutureFlag) : BrowseLists where
  nowShowing := (movies.filter fun m => 0 < m.screens.length).map (·.toMovie)
  comingSoon := (movies.filter fun m => ¬ 0 < m.screens.length).map (·.toMovie)

def browseMovies : M BrowseLists := do
  match ← MoviesCache.getLists with
  | some cached => return cached
  | none =>
    let now : Time ← request .dateNow
    let movies : List MovieWithFutureFlag ← request (.findPublishedForBrowse now)
    let lists := split movies
    MoviesCache.setLists lists
    return lists

def getPublishedMovie (id : ℕ) : M Movie := do
  match ← MoviesCache.getMovie id with
  | some cached => return cached
  | none =>
    let movie : Option Movie ← request (.findPublishedById id)
    match movie with
    | none => throw (.notFound s!"Movie {id} not found")
    | some movie =>
      MoviesCache.setMovie movie
      return movie

end MoviesService

namespace ScreeningsCache

def getScreeningDetail (id : ℕ) : M (Option ScreeningWithMovieHall) :=
  cacheGet (.screeningDetail id)

def setScreeningDetail (screening : ScreeningWithMovieHall) : M Unit :=
  cacheSet (.screeningDetail screening.id) screening

def getMovieScreenings (movieId : ℕ) : M (Option (List FutureScreening)) :=
  cacheGet (.movieScreenings movieId)

def setMovieScreenings (movieId : ℕ) (screenings : List FutureScreening) : M Unit :=
  cacheSet (.movieScreenings movieId) screenings

end ScreeningsCache

namespace ScreeningsService

def getScreeningDetail (id : ℕ) : M ScreeningWithMovieHall := do
  match ← ScreeningsCache.getScreeningDetail id with
  | some cached =>
    throwIf (cached.status = .cancelled) (ReservationsService.screeningNotFound id)
    return cached
  | none =>
    match ← ScreeningsRepository.findById id with
    | none => throw (ReservationsService.screeningNotFound id)
    | some screening =>
      throwIf (screening.status = .cancelled) (ReservationsService.screeningNotFound id)
      ScreeningsCache.setScreeningDetail screening
      return screening

def getMovieScreenings (movieId : ℕ) : M (List FutureScreening) := do
  match ← ScreeningsCache.getMovieScreenings movieId with
  | some cached => return cached
  | none =>
    let movie : Option Movie ← request (.findPublishedById movieId)
    match movie with
    | none => throw (.notFound s!"Movie {movieId} not found")
    | some _ =>
      let now : Time ← request .dateNow
      let screenings : List FutureScreening ← request (.findFutureScheduledByMovie movieId now)
      ScreeningsCache.setMovieScreenings movieId screenings
      return screenings

end ScreeningsService

/-! ### Visits -/

inductive CatalogueRequest where
  | admin (r : AdminRequest)
  | browseMovies
  | getPublishedMovie (id : ℕ)
  | getScreeningDetail (id : ℕ)
  | getMovieScreenings (movieId : ℕ)
  | getSeatMap (screeningId : ℕ)

inductive CatalogueResponse where
  | admin (r : Response)
  | lists (lists : BrowseLists)
  | movie (movie : Movie)
  | screening (screening : ScreeningWithMovieHall)
  | screenings (screenings : List FutureScreening)
  | seatMap (seatMap : List SeatMapEntry)

def CatalogueRequest.handle : CatalogueRequest → M CatalogueResponse
  | admin r => .admin <$> r.handle
  | browseMovies => .lists <$> MoviesService.browseMovies
  | getPublishedMovie id => .movie <$> MoviesService.getPublishedMovie id
  | getScreeningDetail id => .screening <$> ScreeningsService.getScreeningDetail id
  | getMovieScreenings movieId => .screenings <$> ScreeningsService.getMovieScreenings movieId
  | getSeatMap screeningId => .seatMap <$> ScreeningsService.getSeatMap screeningId

/-- A request that runs alone, or what happens between two requests. -/
def visit {σ A : Type} (api : StripeApi σ A) (w : World σ) : CatalogueRequest ⊕ Env A → World σ
  | .inl r => (perform api r.handle w).2
  | .inr e => w.elapse api e

/-! ### What a read finds -/

section Reads
variable {σ A : Type} (api : StripeApi σ A) (w : World σ)

/-- The world after a view was cached. -/
def World.cached (k : CacheKey) (v : k.Value) : World σ := { w with redis := w.redis.set k v }

theorem perform_getPublishedMovie (id : ℕ) :
    perform api (MoviesService.getPublishedMovie id) w =
      match w.redis.cache (.movie id) with
      | some movie => (.ok movie, w)
      | none => match w.db.findPublishedById id with
        | some movie => (.ok movie, w.cached (.movie movie.id) movie)
        | none => (.error (.notFound s!"Movie {id} not found"), w) := by
  have hcached : perform api (MoviesCache.getMovie id) w = (.ok (w.redis.cache (.movie id)), w) :=
    rfl
  unfold MoviesService.getPublishedMovie
  rw [perform_bind_ok hcached]
  cases w.redis.cache (.movie id) with
  | some movie => rfl
  | none =>
    dsimp only
    rw [perform_bind, perform_request]
    simp only [World.exec]
    cases w.db.findPublishedById id <;> rfl

theorem perform_browseMovies : perform api MoviesService.browseMovies w =
    match w.redis.cache .nowShowing, w.redis.cache .comingSoon with
    | some nowShowing, some comingSoon => (.ok { nowShowing, comingSoon }, w)
    | _, _ =>
      let lists := MoviesService.split (w.db.findPublishedForBrowse w.now)
      (.ok lists, (w.cached .nowShowing lists.nowShowing).cached .comingSoon lists.comingSoon) := by
  have hcached : perform api MoviesCache.getLists w =
      ((match w.redis.cache .nowShowing, w.redis.cache .comingSoon with
        | some nowShowing, some comingSoon => .ok (some ⟨nowShowing, comingSoon⟩)
        | _, _ => .ok none), w) := by
    unfold MoviesCache.getLists
    rw [perform_bind_ok (show perform api (cacheGet .nowShowing) w = (.ok _, w) from rfl),
      perform_bind_ok (show perform api (cacheGet .comingSoon) w = (.ok _, w) from rfl)]
    rcases w.redis.cache .nowShowing with _ | nowShowing
    · rfl
    · rcases w.redis.cache .comingSoon with _ | comingSoon <;> rfl
  unfold MoviesService.browseMovies
  rw [perform_bind, hcached]
  rcases w.redis.cache .nowShowing with _ | nowShowing
  · rfl
  · rcases w.redis.cache .comingSoon with _ | comingSoon <;> rfl

theorem perform_getScreeningDetail (id : ℕ) :
    perform api (ScreeningsService.getScreeningDetail id) w =
      match w.redis.cache (.screeningDetail id) with
      | some cached =>
        if cached.status = .cancelled then (.error (ReservationsService.screeningNotFound id), w)
        else (.ok cached, w)
      | none => match w.db.screeningFindById id with
        | some screening =>
          if screening.status = .cancelled then
            (.error (ReservationsService.screeningNotFound id), w)
          else (.ok screening, w.cached (.screeningDetail screening.id) screening)
        | none => (.error (ReservationsService.screeningNotFound id), w) := by
  have hcached : perform api (ScreeningsCache.getScreeningDetail id) w =
      (.ok (w.redis.cache (.screeningDetail id)), w) := rfl
  unfold ScreeningsService.getScreeningDetail
  rw [perform_bind_ok hcached]
  cases w.redis.cache (.screeningDetail id) with
  | some cached =>
    dsimp only
    unfold throwIf
    split_ifs <;> rfl
  | none =>
    have hfound : perform api (ScreeningsRepository.findById id) w =
        (.ok (w.db.screeningFindById id), w) := rfl
    dsimp only
    rw [perform_bind_ok hfound]
    cases w.db.screeningFindById id with
    | none => rfl
    | some screening =>
      dsimp only
      unfold throwIf
      split_ifs <;> rfl

theorem perform_getMovieScreenings (movieId : ℕ) :
    perform api (ScreeningsService.getMovieScreenings movieId) w =
      match w.redis.cache (.movieScreenings movieId) with
      | some cached => (.ok cached, w)
      | none => match w.db.findPublishedById movieId with
        | some _ =>
          let screenings := w.db.findFutureScheduledByMovie movieId w.now
          (.ok screenings, w.cached (.movieScreenings movieId) screenings)
        | none => (.error (.notFound s!"Movie {movieId} not found"), w) := by
  have hcached : perform api (ScreeningsCache.getMovieScreenings movieId) w =
      (.ok (w.redis.cache (.movieScreenings movieId)), w) := rfl
  unfold ScreeningsService.getMovieScreenings
  rw [perform_bind_ok hcached]
  cases w.redis.cache (.movieScreenings movieId) with
  | some cached => rfl
  | none =>
    dsimp only
    rw [perform_bind, perform_request]
    simp only [World.exec]
    cases w.db.findPublishedById movieId <;> rfl

theorem perform_map {α β : Type} (f : α → β) (p : M α) :
    perform api (f <$> p) w = ((perform api p w).1.map f, (perform api p w).2) := by
  rw [map_eq, perform_bind]
  rcases perform api p w with ⟨_ | _, _⟩ <;> rfl

/-! ### What a visit does to the cache -/

variable {api w}

/-- What a read leaves: the world as it was, or with what was found in the cache. -/
inductive ReadLeaves (w : World σ) : World σ → Prop
  | same : ReadLeaves w w
  | movie {movie : Movie} : w.db.findPublishedById movie.id = some movie →
    ReadLeaves w (w.cached (.movie movie.id) movie)
  | lists : ReadLeaves w ((w.cached .nowShowing
      (MoviesService.split (w.db.findPublishedForBrowse w.now)).nowShowing).cached .comingSoon
      (MoviesService.split (w.db.findPublishedForBrowse w.now)).comingSoon)
  | detail {screening : ScreeningWithMovieHall} :
    w.db.screeningFindById screening.id = some screening → screening.status ≠ .cancelled →
      ReadLeaves w (w.cached (.screeningDetail screening.id) screening)
  | screenings {movieId : ℕ} : (w.db.findPublishedById movieId).isSome → ReadLeaves w
    (w.cached (.movieScreenings movieId) (w.db.findFutureScheduledByMovie movieId w.now))
  | seatMap {screeningId : ℕ} {seatMap : List SeatMapEntry} :
    w.db.freshSeatMap screeningId = some seatMap →
      ReadLeaves w (w.cached (.seatMap screeningId) seatMap)

theorem Db.id_of_findPublishedById {db : Db} {id : ℕ} {movie : Movie}
    (h : db.findPublishedById id = some movie) : movie.id = id := by
  rw [findPublishedById, Option.filter_eq_some_iff] at h
  exact id_of_get h.1

theorem Db.id_of_screeningFindById {db : Db} {id : ℕ} {screening : ScreeningWithMovieHall}
    (h : db.screeningFindById id = some screening) : screening.id = id := by
  obtain ⟨s, hs, hrest⟩ := Option.bind_eq_some_iff.mp h
  obtain ⟨movie, -, hrest⟩ := Option.bind_eq_some_iff.mp hrest
  obtain ⟨hall, -, heq⟩ := Option.bind_eq_some_iff.mp hrest
  cases heq
  exact id_of_get hs

theorem CatalogueRequest.leaves {r : CatalogueRequest} (h : ∀ op, r ≠ .admin op) :
    ReadLeaves w (visit api w (.inl r)) := by
  change ReadLeaves w (perform api r.handle w).2
  cases r with
  | admin op => exact absurd rfl (h op)
  | browseMovies =>
    rw [handle, perform_map, perform_browseMovies]
    rcases w.redis.cache .nowShowing with _ | nowShowing
    · exact .lists
    · rcases w.redis.cache .comingSoon with _ | comingSoon
      · exact .lists
      · exact .same
  | getPublishedMovie id =>
    rw [handle, perform_map, perform_getPublishedMovie]
    cases w.redis.cache (.movie id) with
    | some cached => exact .same
    | none =>
      cases hfound : w.db.findPublishedById id with
      | none => exact .same
      | some movie => exact .movie (by rwa [Db.id_of_findPublishedById hfound])
  | getScreeningDetail id =>
    rw [handle, perform_map, perform_getScreeningDetail]
    cases w.redis.cache (.screeningDetail id) with
    | some cached =>
      dsimp only
      split_ifs <;> exact .same
    | none =>
      cases hfound : w.db.screeningFindById id with
      | none => exact .same
      | some screening =>
        dsimp only
        split_ifs with hst
        · exact .same
        · exact .detail (by rwa [Db.id_of_screeningFindById hfound]) hst
  | getMovieScreenings movieId =>
    rw [handle, perform_map, perform_getMovieScreenings]
    cases w.redis.cache (.movieScreenings movieId) with
    | some cached => exact .same
    | none =>
      cases hfound : w.db.findPublishedById movieId with
      | none => exact .same
      | some movie => exact .screenings (by rw [hfound]; rfl)
  | getSeatMap screeningId =>
    rw [handle, perform_map, perform_getSeatMap]
    cases w.redis.cache (.seatMap screeningId) with
    | some cached => exact .same
    | none =>
      cases hfresh : w.db.freshSeatMap screeningId with
      | none => exact .same
      | some seatMap => exact .seatMap hfresh

/-- What admin requests, reads and the environment each keep, a visit keeps. -/
theorem visit_rule {I : World σ → Prop} {x : CatalogueRequest ⊕ Env A}
    (hadmin : ∀ op, x = .inl (.admin op) → I (perform api op.handle w).2)
    (hread : ∀ v, ReadLeaves w v → I v) (henv : ∀ e, x = .inr e → I (w.elapse api e)) :
    I (visit api w x) := by
  rcases x with r | e
  · by_cases h : ∃ op, r = .admin op
    · obtain ⟨op, rfl⟩ := h
      rw [visit, CatalogueRequest.handle, perform_map]
      exact hadmin op rfl
    · exact hread _ (CatalogueRequest.leaves fun op heq => h ⟨op, heq⟩)
  · exact henv e rfl

@[simp] theorem World.cached_db (k : CacheKey) (x : k.Value) : (w.cached k x).db = w.db := rfl

@[simp] theorem World.cached_now (k : CacheKey) (x : k.Value) : (w.cached k x).now = w.now := rfl

theorem World.cached_self (k : CacheKey) (x : k.Value) : (w.cached k x).redis.cache k = some x :=
  Function.update_self ..

theorem World.cached_of_ne {k k' : CacheKey} (h : k' ≠ k) (x : k.Value) :
    (w.cached k x).redis.cache k' = w.redis.cache k' :=
  Function.update_of_ne h ..

theorem Redis.cache_del (r : Redis) (keys : List CacheKey) (k : CacheKey) :
    (r.del keys).cache k = if k ∈ keys then none else r.cache k := rfl

theorem Redis.mem_of_del {r : Redis} {keys : List CacheKey} {k : CacheKey} {x : k.Value}
    (h : (r.del keys).cache k = some x) : k ∉ keys ∧ r.cache k = some x := by
  rw [cache_del] at h
  split_ifs at h with hk
  exact ⟨hk, h⟩

end Reads

end MovieReservation
