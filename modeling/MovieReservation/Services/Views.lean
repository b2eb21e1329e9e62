import MovieReservation.Lib.CacheAside
import MovieReservation.Services.Lifetimes
import MovieReservation.Services.Paths

/-! The views that visitors read: what each is of the database, and that every read returns
what it found in the cache or what the database has answered it, and caches nothing else. -/

namespace MovieReservation

open Lib Lib.Prog Lib.Table

variable {σ A : Type}

/-! ### Views -/

/-- What the key would be set to at a moment. -/
def ViewOf (w : World σ) : (k : CacheKey) → k.Value → Prop
  | .seatMap id, seatMap => w.db.freshSeatMap id = some seatMap
  | .screeningDetail id, screening =>
    w.db.screeningFindById id = some screening ∧ screening.status ≠ .cancelled
  | .movieScreenings id, screenings => (w.db.findPublishedById id).isSome ∧
    screenings = w.db.findFutureScheduledByMovie id w.now
  | .hallList, halls => halls = w.db.listHalls
  | .movie id, movie => w.db.findPublishedById id = some movie
  | .nowShowing, movies =>
    movies = (MoviesService.split (w.db.findPublishedForBrowse w.now)).nowShowing
  | .comingSoon, movies =>
    movies = (MoviesService.split (w.db.findPublishedForBrowse w.now)).comingSoon

/-- The view was so at one of these moments, and its lifetime from then on is not over. -/
def Recent (past : List (World σ)) (now : Time) (k : CacheKey) (v : k.Value) : Prop :=
  ∃ w ∈ past, now < w.now + k.ttlSeconds * 1000 ∧ ViewOf w k v

/-- What a key is set to, from the answers of the database. -/
inductive Drawn (l : Trail) : (k : CacheKey) → k.Value → Prop
  | seatMap {id : ℕ} {screening : ScreeningWithMovieHall} {seats : List Seat}
    {reservations : List Reservation} : ⟨.screeningFindById id, .ok (some screening)⟩ ∈ l →
      screening.status ≠ .cancelled → ⟨.findSeatsByHall screening.hallId, .ok seats⟩ ∈ l →
        ⟨.findActiveReservations id, .ok reservations⟩ ∈ l →
          Drawn l (.seatMap id) (ScreeningsService.seatMap seats reservations)
  | detail {id n : ℕ} {screening : ScreeningWithMovieHall} :
    ⟨.screeningFindById id, .ok (some screening)⟩ ∈ l → screening.status ≠ .cancelled →
      n = id ∨ n = screening.id → Drawn l (.screeningDetail n) screening
  | screenings {id : ℕ} {movie : Movie} {t : Time} {screenings : List FutureScreening} :
    ⟨.findPublishedById id, .ok (some movie)⟩ ∈ l → ⟨.dateNow, .ok t⟩ ∈ l →
      ⟨.findFutureScheduledByMovie id t, .ok screenings⟩ ∈ l →
        Drawn l (.movieScreenings id) screenings
  | movie {id n : ℕ} {movie : Movie} : ⟨.findPublishedById id, .ok (some movie)⟩ ∈ l →
    n = id ∨ n = movie.id → Drawn l (.movie n) movie
  | nowShowing {t : Time} {movies : List MovieWithFutureFlag} : ⟨.dateNow, .ok t⟩ ∈ l →
    ⟨.findPublishedForBrowse t, .ok movies⟩ ∈ l →
      Drawn l .nowShowing (MoviesService.split movies).nowShowing
  | comingSoon {t : Time} {movies : List MovieWithFutureFlag} : ⟨.dateNow, .ok t⟩ ∈ l →
    ⟨.findPublishedForBrowse t, .ok movies⟩ ∈ l →
      Drawn l .comingSoon (MoviesService.split movies).comingSoon

/-- The view was in the cache, or the database has answered it. -/
def Seen (k : CacheKey) (l : Trail) (v : k.Value) : Prop :=
  ⟨.cacheGet k, .ok (some v)⟩ ∈ l ∨ Drawn l k v

/-- What was read is true at the moment, or recent if it was cached. -/
def TrueAt (past : List (World σ)) (w : World σ) : Answer Cmd Cmd.Reply Err → Prop
  | ⟨.dateNow, .ok t⟩ => t = w.now
  | ⟨.screeningFindById id, .ok found⟩ => found = w.db.screeningFindById id
  | ⟨.findSeatsByHall id, .ok seats⟩ => seats = w.db.findSeatsByHall id
  | ⟨.findActiveReservations id, .ok reservations⟩ =>
    reservations = w.db.findActiveReservations id
  | ⟨.findPublishedById id, .ok found⟩ => found = w.db.findPublishedById id
  | ⟨.findFutureScheduledByMovie id t, .ok screenings⟩ =>
    screenings = w.db.findFutureScheduledByMovie id t
  | ⟨.findPublishedForBrowse t, .ok movies⟩ => movies = w.db.findPublishedForBrowse t
  | ⟨.cacheGet k, .ok (some v)⟩ => Recent past w.now k v
  | _ => True

section Views
variable {past : List (World σ)} {w : World σ} {l : Trail} {k : CacheKey} {v : k.Value}

theorem CacheKey.ttl_pos (k : CacheKey) : (0 : Time) < k.ttlSeconds * 1000 := by
  have hpos : 0 < k.ttlSeconds := by cases k <;> exact Nat.zero_lt_succ _
  exact Int.mul_pos (Int.natCast_pos.mpr hpos) (by decide)

theorem Drawn.append (h : Drawn l k v) (l' : Trail) : Drawn (l ++ l') k v := by
  have hmore : ∀ {a : Answer Cmd Cmd.Reply Err}, a ∈ l → a ∈ l ++ l' := List.mem_append_left _
  cases h with
  | seatMap hfound hst hseats hreservations =>
    exact .seatMap (hmore hfound) hst (hmore hseats) (hmore hreservations)
  | detail hfound hst hn => exact .detail (hmore hfound) hst hn
  | screenings hmovie ht hlist => exact .screenings (hmore hmovie) (hmore ht) (hmore hlist)
  | movie hfound hn => exact .movie (hmore hfound) hn
  | nowShowing ht hlist => exact .nowShowing (hmore ht) (hmore hlist)
  | comingSoon ht hlist => exact .comingSoon (hmore ht) (hmore hlist)

theorem seen_lasting (k : CacheKey) : Persists (Seen k) := by
  rintro l a v (hmem | hdrawn)
  · exact .inl (List.mem_append_left _ hmem)
  · exact .inr (hdrawn.append _)

theorem Drawn.shows (h : Drawn l k v) (hl : ∀ a ∈ l, TrueAt past w a) : ViewOf w k v := by
  cases h with
  | seatMap hfound hst hseats hreservations =>
    have hscreening : some _ = w.db.screeningFindById _ := hl _ hfound
    have hseats : _ = w.db.findSeatsByHall _ := hl _ hseats
    have hreservations : _ = w.db.findActiveReservations _ := hl _ hreservations
    subst hseats hreservations
    simp [ViewOf, Db.freshSeatMap, ← hscreening, hst]
  | @detail id n screening hfound hst hn =>
    have hscreening : some screening = w.db.screeningFindById id := hl _ hfound
    have hid := Db.id_of_screeningFindById hscreening.symm
    obtain rfl : n = id := hn.elim (·) fun h => h.trans hid
    exact ⟨hscreening.symm, hst⟩
  | screenings hmovie ht hlist =>
    have hmovie : some _ = w.db.findPublishedById _ := hl _ hmovie
    have ht : _ = w.now := hl _ ht
    have hlist : _ = w.db.findFutureScheduledByMovie _ _ := hl _ hlist
    subst ht
    exact ⟨by rw [← hmovie]; rfl, hlist⟩
  | @movie id n movie hfound hn =>
    have hmovie : some movie = w.db.findPublishedById id := hl _ hfound
    have hid := Db.id_of_findPublishedById hmovie.symm
    obtain rfl : n = id := hn.elim (·) fun h => h.trans hid
    exact hmovie.symm
  | nowShowing ht hlist =>
    have ht : _ = w.now := hl _ ht
    have hlist : _ = w.db.findPublishedForBrowse _ := hl _ hlist
    subst ht hlist
    rfl
  | comingSoon ht hlist =>
    have ht : _ = w.now := hl _ ht
    have hlist : _ = w.db.findPublishedForBrowse _ := hl _ hlist
    subst ht hlist
    rfl

theorem ViewOf.recent (h : ViewOf w k v) (hw : w ∈ past) : Recent past w.now k v :=
  ⟨w, hw, Int.lt_add_of_pos_right _ k.ttl_pos, h⟩

theorem Seen.recent (h : Seen k l v) (hl : ∀ a ∈ l, TrueAt past w a) (hw : w ∈ past) :
    Recent past w.now k v := by
  rcases h with hmem | hdrawn
  · exact hl _ hmem
  · exact (hdrawn.shows hl).recent hw

end Views

/-! ### Reads -/

/-- Commands that put something in the cache. -/
def Cmd.sets : Cmd → Bool
  | .cacheSet _ _ => true
  | _ => false

theorem Cmd.ne_of_unset {c : Cmd} (h : c.sets = false) (k : CacheKey) (v : k.Value) :
    c ≠ .cacheSet k v := by
  rintro rfl
  cases h

/-- A command of a read: it writes nothing but the cache, and that only with what the database
has answered. -/
def Reads (l : Trail) (c : Cmd) : Prop :=
  c.quiet = true ∧ ∀ k v, c = .cacheSet k v → Drawn l k v

section Reads
variable {α β : Type} {l : Trail} {k : CacheKey} {id : ℕ}

theorem Quiet.reads {p : M α} (h : Only (fun c => c.quiet = true ∧ c.sets = false) p) :
    Informed Reads l p :=
  .of_only <| h.mono fun _ hc _ => ⟨hc.1, fun k v he => absurd he (Cmd.ne_of_unset hc.2 k v)⟩

theorem cacheGet_reads (l : Trail) : Informed Reads l (cacheGet k) :=
  Quiet.reads (Only.tryCatch ((only_issue _).mpr ⟨rfl, rfl⟩) fun _ => trivial)

theorem cacheGet_seen (l : Trail) :
    Yields (fun l r => ∀ v, r = .ok (some v) → Seen k l v) l (cacheGet k) := by
  rintro (e | found) v hv
  · cases hv
  · cases hv
    exact .inl (List.mem_append_right _ (List.mem_singleton_self _))

theorem cacheSet_reads {v : k.Value} (h : Drawn l k v) : Informed Reads l (cacheSet k v) := by
  refine Informed.tryCatch ⟨⟨rfl, fun k' v' he => ?_⟩, fun r => ?_⟩ fun _ _ => trivial
  · cases he
    exact h
  · cases r <;> trivial

/-- A read through the cache, if what it computes is drawn from the answers. -/
theorem through_cache {get : M (Option k.Value)} {compute : M k.Value} {set : k.Value → M Unit}
    (hget : ∀ l, Informed Reads l get)
    (hseen : ∀ l, Yields (fun l r => ∀ v, r = .ok (some v) → Seen k l v) l get)
    (hcompute : ∀ l, Informed Reads l compute)
    (hdrawn : ∀ l, Yields (Knows (Drawn · k)) l compute)
    (hset : ∀ l v, Drawn l k v → Informed Reads l (set v)) (l : Trail) :
    Informed Reads l (readThrough get compute set) ∧
      Yields (Knows (Seen k)) l (readThrough get compute set) := by
  have hknown : ∀ l, Yields (Knows (Seen k)) l compute := fun l =>
    (hdrawn l).mono fun l r h v hv => .inr (h v hv)
  exact ⟨informed_readThrough hget hcompute hdrawn hset l,
    yields_readThrough (seen_lasting k) hseen hknown l⟩

/-- What follows a query that the database answers with nothing or with something. -/
theorem yields_found_bind {c : Cmd} {K : Trail → β → Prop} {f : c.Reply → M β}
    (hf : ∀ a, Yields (Knows K) (l ++ [⟨c, .ok a⟩]) (f a)) :
    Yields (Knows K) l (request c >>= f) :=
  yields_issue_bind (fun e v h => by cases h) hf

theorem knows_throw {K : Trail → β → Prop} (e : Err) :
    Yields (Knows K) l (throw e : M β) := fun v h => by cases h

theorem knows_pure {K : Trail → β → Prop} {v : β} (h : K l v) :
    Yields (Knows K) l (pure v : M β) := fun v' hv => by
  cases hv
  exact h

end Reads

/-! ### What each read computes -/

namespace MoviesService

def findPublished (id : ℕ) : M Movie := do
  let movie : Option Movie ← request (.findPublishedById id)
  match movie with
  | none => throw (.notFound s!"Movie {id} not found")
  | some movie => return movie

theorem getPublishedMovie_through (id : ℕ) : getPublishedMovie id =
    readThrough (cacheGet (.movie id)) (findPublished id) MoviesCache.setMovie := by
  unfold getPublishedMovie readThrough findPublished
  refine congrArg _ (funext fun found => ?_)
  cases found with
  | some movie => rfl
  | none =>
    dsimp only
    rw [bind_assoc]
    refine congrArg _ (funext fun movie => ?_)
    cases movie <;> rfl

theorem getPublishedMovie_reads (id : ℕ) (l : Trail) : Informed Reads l (getPublishedMovie id) ∧
    Yields (Knows (Seen (.movie id))) l (getPublishedMovie id) := by
  rw [getPublishedMovie_through]
  refine through_cache cacheGet_reads cacheGet_seen (fun l => Quiet.reads ?_) (fun l => ?_)
    (fun l movie h => ?_) l
  · refine Only.bind ((only_issue _).mpr ⟨rfl, rfl⟩) fun movie => ?_
    cases movie <;> trivial
  · refine yields_found_bind fun found => ?_
    cases found with
    | none => exact knows_throw _
    | some movie => exact knows_pure (.movie (by simp) (.inl rfl))
  · cases h with
    | movie hfound hn => exact cacheSet_reads (.movie hfound (.inr rfl))

def findLists : M BrowseLists := do
  let now : Time ← request .dateNow
  let movies : List MovieWithFutureFlag ← request (.findPublishedForBrowse now)
  return split movies

theorem browseMovies_through :
    browseMovies = readThrough MoviesCache.getLists findLists MoviesCache.setLists := by
  unfold browseMovies readThrough findLists
  refine congrArg _ (funext fun found => ?_)
  cases found with
  | some lists => rfl
  | none => simp only [bind_assoc, pure_bind]

/-- Each list on its own: they are two keys, and may be of two moments. -/
theorem browseMovies_reads (l : Trail) : Informed Reads l browseMovies ∧
    Yields (Knows fun l lists => Seen .nowShowing l lists.nowShowing ∧
      Seen .comingSoon l lists.comingSoon) l browseMovies := by
  have hdrawn : ∀ l, Yields (Knows fun l lists => Drawn l .nowShowing lists.nowShowing ∧
      Drawn l .comingSoon lists.comingSoon) l findLists := by
    intro l
    refine yields_found_bind fun t => yields_found_bind fun movies => knows_pure ⟨?_, ?_⟩
    · exact .nowShowing (t := t) (by simp) (by simp)
    · exact .comingSoon (t := t) (by simp) (by simp)
  rw [browseMovies_through]
  constructor
  · refine informed_readThrough (fun l => ?_) (fun l => Quiet.reads ?_) hdrawn (fun l v h => ?_) l
    · refine (cacheGet_reads l).bind fun now l' => (cacheGet_reads _).bind fun soon l'' => ?_
      cases now <;> cases soon <;> trivial
    · exact Only.bind ((only_issue _).mpr ⟨rfl, rfl⟩) fun t =>
        Only.bind ((only_issue _).mpr ⟨rfl, rfl⟩) fun movies => trivial
    · exact (cacheSet_reads h.1).bind fun _ l' => cacheSet_reads (h.2.append l')
  · refine yields_readThrough ?_ (fun l => ?_) (fun l => (hdrawn l).mono ?_) l
    · exact fun l a v h => ⟨seen_lasting _ _ _ _ h.1, seen_lasting _ _ _ _ h.2⟩
    · refine (cacheGet_seen l).bind (fun l e _ v hv => by cases hv) fun now l hnow => ?_
      have hkeep := (cacheGet_seen (k := .comingSoon) l).keep
        (K := fun l => ∀ v, now = some v → Seen .nowShowing l v)
        (fun l a h v hv => seen_lasting _ l a v (h v hv)) fun v hv => hnow v (by rw [hv])
      refine hkeep.bind (fun l e _ v hv => by cases hv) fun soon l hsoon => ?_
      cases now with
      | none => exact fun v hv => by cases hv
      | some nowShowing =>
        cases soon with
        | none => exact fun v hv => by cases hv
        | some comingSoon =>
          intro v hv
          cases hv
          exact ⟨hsoon.1 _ rfl, hsoon.2 _ rfl⟩
    · exact fun l r h v hv => ⟨.inr (h v hv).1, .inr (h v hv).2⟩

end MoviesService

namespace ScreeningsService

def findSeatMap (screeningId : ℕ) : M (List SeatMapEntry) := do
  match ← ScreeningsRepository.findById screeningId with
  | none => throw (ReservationsService.screeningNotFound screeningId)
  | some screening =>
    throwIf (screening.status = .cancelled) (ReservationsService.screeningNotFound screeningId)
    let seats : List Seat ← request (.findSeatsByHall screening.hallId)
    let reservations : List Reservation ← request (.findActiveReservations screeningId)
    return seatMap seats reservations

theorem getSeatMap_through (id : ℕ) : getSeatMap id =
    readThrough (cacheGet (.seatMap id)) (findSeatMap id) (ScreeningsCache.setSeatMap id) := by
  unfold getSeatMap readThrough findSeatMap
  refine congrArg _ (funext fun found => ?_)
  cases found with
  | some seatMap => rfl
  | none =>
    dsimp only
    rw [bind_assoc]
    refine congrArg _ (funext fun screening => ?_)
    cases screening with
    | none => rfl
    | some screening => simp only [bind_assoc, pure_bind]

theorem getSeatMap_reads (id : ℕ) (l : Trail) : Informed Reads l (getSeatMap id) ∧
    Yields (Knows (Seen (.seatMap id))) l (getSeatMap id) := by
  rw [getSeatMap_through]
  refine through_cache cacheGet_reads cacheGet_seen (fun l => Quiet.reads ?_) (fun l => ?_)
    (fun l seatMap h => cacheSet_reads h) l
  · refine Only.bind ((only_issue _).mpr ⟨rfl, rfl⟩) fun screening => ?_
    cases screening with
    | none => trivial
    | some screening =>
      rw [only_throwIf_bind]
      exact fun _ => Only.bind ((only_issue _).mpr ⟨rfl, rfl⟩) fun _ =>
        Only.bind ((only_issue _).mpr ⟨rfl, rfl⟩) fun _ => trivial
  · refine yields_found_bind fun found => ?_
    cases found with
    | none => exact knows_throw _
    | some screening =>
      refine yields_throwIf_bind (fun _ v h => by cases h) fun hst => ?_
      refine yields_found_bind fun seats => yields_found_bind fun reservations => knows_pure ?_
      exact @Drawn.seatMap _ id screening seats reservations (by simp) hst (by simp) (by simp)

/-- The cached screening, unless it is cancelled. -/
def getCachedDetail (id : ℕ) : M (Option ScreeningWithMovieHall) := do
  match ← ScreeningsCache.getScreeningDetail id with
  | none => return none
  | some cached =>
    throwIf (cached.status = .cancelled) (ReservationsService.screeningNotFound id)
    return some cached

def findDetail (id : ℕ) : M ScreeningWithMovieHall := do
  match ← ScreeningsRepository.findById id with
  | none => throw (ReservationsService.screeningNotFound id)
  | some screening =>
    throwIf (screening.status = .cancelled) (ReservationsService.screeningNotFound id)
    return screening

theorem getScreeningDetail_through (id : ℕ) : getScreeningDetail id =
    readThrough (getCachedDetail id) (findDetail id) ScreeningsCache.setScreeningDetail := by
  unfold getScreeningDetail readThrough getCachedDetail findDetail
  rw [bind_assoc]
  refine congrArg _ (funext fun found => ?_)
  cases found with
  | some cached => simp only [bind_assoc, pure_bind]
  | none =>
    simp only [bind_assoc, pure_bind]
    refine congrArg _ (funext fun screening => ?_)
    cases screening with
    | none => rfl
    | some screening => simp only [bind_assoc, pure_bind]

theorem getScreeningDetail_reads (id : ℕ) (l : Trail) : Informed Reads l (getScreeningDetail id) ∧
    Yields (Knows (Seen (.screeningDetail id))) l (getScreeningDetail id) := by
  rw [getScreeningDetail_through]
  refine through_cache (k := .screeningDetail id) (fun l => ?_) (fun l => ?_)
    (fun l => Quiet.reads ?_) (fun l => ?_) (fun l screening h => ?_) l
  · refine (cacheGet_reads l).bind fun found l' => ?_
    cases found with
    | none => trivial
    | some cached => exact informed_throwIf_bind fun _ => trivial
  · refine (cacheGet_seen l).bind (fun l e _ v hv => by cases hv) fun found l hfound => ?_
    cases found with
    | none => exact fun v hv => by cases hv
    | some cached =>
      refine yields_throwIf_bind (fun _ v hv => by cases hv) fun _ => ?_
      intro v hv
      cases hv
      exact hfound cached rfl
  · refine Only.bind ((only_issue _).mpr ⟨rfl, rfl⟩) fun screening => ?_
    cases screening with
    | none => trivial
    | some screening =>
      rw [only_throwIf_bind]
      exact fun _ => trivial
  · refine yields_found_bind fun found => ?_
    cases found with
    | none => exact knows_throw _
    | some screening =>
      exact yields_throwIf_bind (fun _ v h => by cases h) fun hst =>
        knows_pure (.detail (by simp) hst (.inl rfl))
  · cases h with
    | detail hfound hst hn => exact cacheSet_reads (.detail hfound hst (.inr rfl))

def findMovieScreenings (movieId : ℕ) : M (List FutureScreening) := do
  let movie : Option Movie ← request (.findPublishedById movieId)
  match movie with
  | none => throw (.notFound s!"Movie {movieId} not found")
  | some _ =>
    let now : Time ← request .dateNow
    request (.findFutureScheduledByMovie movieId now)

theorem getMovieScreenings_through (movieId : ℕ) : getMovieScreenings movieId =
    readThrough (cacheGet (.movieScreenings movieId)) (findMovieScreenings movieId)
      (ScreeningsCache.setMovieScreenings movieId) := by
  unfold getMovieScreenings readThrough findMovieScreenings
  refine congrArg _ (funext fun found => ?_)
  cases found with
  | some screenings => rfl
  | none =>
    dsimp only
    rw [bind_assoc]
    refine congrArg _ (funext fun movie => ?_)
    cases movie with
    | none => rfl
    | some movie => simp only [bind_assoc]

theorem getMovieScreenings_reads (movieId : ℕ) (l : Trail) :
    Informed Reads l (getMovieScreenings movieId) ∧
      Yields (Knows (Seen (.movieScreenings movieId))) l (getMovieScreenings movieId) := by
  rw [getMovieScreenings_through]
  refine through_cache cacheGet_reads cacheGet_seen (fun l => Quiet.reads ?_) (fun l => ?_)
    (fun l screenings h => cacheSet_reads h) l
  · refine Only.bind ((only_issue _).mpr ⟨rfl, rfl⟩) fun movie => ?_
    cases movie with
    | none => trivial
    | some movie =>
      exact Only.bind ((only_issue _).mpr ⟨rfl, rfl⟩) fun _ => (only_issue _).mpr ⟨rfl, rfl⟩
  · refine yields_found_bind fun found => ?_
    cases found with
    | none => exact knows_throw _
    | some movie =>
      refine yields_found_bind fun t r screenings h => ?_
      subst h
      exact @Drawn.screenings _ movieId movie t screenings (by simp) (by simp) (by simp)

end ScreeningsService

/-! ### Requests -/

/-- The answers of a request of the server. -/
abbrev AppTrail := List (Answer AppCmd AppReply Err)

inductive AppDrawn (l : AppTrail) : (k : CacheKey) → k.Value → Prop
  | view {k : CacheKey} {v : k.Value} : Drawn (lefts l) k v → AppDrawn l k v
  | halls {halls : List Hall} : ⟨.inr .listHalls, .ok halls⟩ ∈ l → AppDrawn l .hallList halls

def AppSeen (k : CacheKey) (l : AppTrail) (v : k.Value) : Prop :=
  ⟨.inl (.cacheGet k), .ok (some v)⟩ ∈ l ∨ AppDrawn l k v

def AppReads (l : AppTrail) : AppCmd → Prop
  | .inl c => c.quiet = true ∧ ∀ k v, c = .cacheSet k v → AppDrawn l k v
  | .inr _ => True

section Requests
variable {α : Type} {l : AppTrail} {k : CacheKey} {v : k.Value}

theorem AppDrawn.append (h : AppDrawn l k v) (l' : AppTrail) : AppDrawn (l ++ l') k v := by
  cases h with
  | view h =>
    refine .view ?_
    rw [lefts_append]
    exact h.append _
  | halls h => exact .halls (List.mem_append_left _ h)

theorem appSeen_lasting (k : CacheKey) : Persists (AppSeen k) := by
  rintro l a v (hmem | hdrawn)
  · exact .inl (List.mem_append_left _ hmem)
  · exact .inr (hdrawn.append _)

theorem left_reads {p : M α} (h : ∀ l, Informed Reads l p) (l : AppTrail) :
    Informed AppReads l (p.left : AppM α) := by
  rw [← bind_pure p.left]
  exact Informed.left_bind (I := fun _ => True) (fun _ _ _ _ => trivial)
    (fun l c _ hc => ⟨hc.1, fun k v he => .view (hc.2 k v he)⟩) (h (lefts l)) trivial
    fun _ _ _ => trivial

theorem Seen.app (h : Seen k (lefts l) v) : AppSeen k l v := by
  rcases h with hmem | hdrawn
  · exact .inl (mem_lefts.mp hmem)
  · exact .inr (.view hdrawn)

theorem HallsService.listHalls_through : HallsService.listHalls =
    readThrough ScreeningsCache.getHalls.left HallsRepository.listHalls
      fun halls => (ScreeningsCache.setHalls halls).left := by
  unfold HallsService.listHalls readThrough
  refine congrArg _ (funext fun found => ?_)
  cases found <;> rfl

theorem listHalls_reads (l : AppTrail) : Informed AppReads l HallsService.listHalls ∧
    Yields (Knows (AppSeen .hallList)) l HallsService.listHalls := by
  have hdrawn : ∀ l, Yields (Knows fun l halls => AppDrawn l .hallList halls) l
      HallsRepository.listHalls := by
    rintro l r halls rfl
    exact .halls (by simp)
  rw [HallsService.listHalls_through]
  constructor
  · refine informed_readThrough (left_reads cacheGet_reads)
      (fun l => .of_only ((only_issue _).mpr fun _ => trivial)) hdrawn (fun l halls h => ?_) l
    refine ⟨⟨rfl, fun k v he => ?_⟩, fun r => ?_⟩
    · cases he
      exact h
    · cases r <;> trivial
  · refine yields_readThrough (appSeen_lasting _) (fun l => ?_) (fun l => (hdrawn l).mono ?_) l
    · exact (cacheGet_seen (lefts l)).left.mono fun l' r hr v hv => (hr v hv).app
    · exact fun l r h v hv => .inr (h v hv)

end Requests

end MovieReservation
