import MovieReservation.Lib.Run
import MovieReservation.Services.Admin
import MovieReservation.Services.Catalogue
import MovieReservation.Services.TestMode

/-! The movies that the public sees. A cached movie is the row as it is and published, and
browse lists that are both cached name every published movie once: each write drops what
it would make wrong, and drops nothing where the visitors could not have seen the movie. -/

namespace MovieReservation

open Lib Lib.Prog Lib.Table

variable {σ A : Type}

/-- The movie is there, and published. -/
def Db.Published (db : Db) (id : ℕ) : Prop := ∃ movie ∈ db.movies.get id, movie.status = .published

def BrowseLists.ids (lists : BrowseLists) : List ℕ :=
  (lists.nowShowing ++ lists.comingSoon).map Movie.id

/-- Every published movie is in one of the lists, once, and no other one is. -/
structure BrowseLists.Complete (db : Db) (lists : BrowseLists) : Prop where
  nodup : lists.ids.Nodup
  mem : ∀ id, id ∈ lists.ids ↔ db.Published id

/-- What visitors would be shown now. -/
structure ShowsPublished (api : StripeApi σ A) (w : World σ) : Prop where
  movie : ∀ id movie, (perform api (MoviesService.getPublishedMovie id) w).1 = .ok movie ↔
    w.db.movies.get id = some movie ∧ movie.status = .published
  lists : ∃ lists, (perform api MoviesService.browseMovies w).1 = .ok lists ∧
    lists.Complete w.db

/-- What the cache holds of movies. -/
structure MoviesCached (w : World σ) : Prop where
  movie : ∀ id, ∀ movie ∈ w.redis.cache (.movie id),
    w.db.movies.get id = some movie ∧ movie.status = .published
  lists : ∀ nowShowing ∈ w.redis.cache .nowShowing, ∀ comingSoon ∈ w.redis.cache .comingSoon,
    BrowseLists.Complete w.db { nowShowing, comingSoon }

/-! ### What the reads show -/

section Reads
variable {api : StripeApi σ A} {w : World σ}

theorem Db.findPublishedById_eq_some {db : Db} {id : ℕ} {movie : Movie} :
    db.findPublishedById id = some movie ↔
      db.movies.get id = some movie ∧ movie.status = .published := by
  rw [findPublishedById, Option.filter_eq_some_iff, decide_eq_true_eq]

/-- The split loses no movie and repeats none. -/
theorem MoviesService.split_complete (db : Db) (now : Time) :
    (MoviesService.split (db.findPublishedForBrowse now)).Complete db := by
  let found := db.findPublishedForBrowse now
  let rows := (db.movies.rows.filter fun m => m.status = .published).reverse
  have hids : found.map (fun m => m.id) = rows.map Movie.id := by
    simp [found, rows, Db.findPublishedForBrowse, Function.comp_def]
  have hperm : (MoviesService.split found).ids.Perm (rows.map Movie.id) := by
    let showing : MovieWithFutureFlag → Bool := fun m => decide (0 < m.screens.length)
    have hsplit : (MoviesService.split found).ids =
        (found.filter showing ++ found.filter fun m => !showing m).map fun m => m.id := by
      simp only [BrowseLists.ids, MoviesService.split, List.map_append, List.map_map, decide_not,
        showing]
      rfl
    rw [hsplit, ← hids]
    exact (List.filter_append_perm showing found).map _
  refine ⟨hperm.nodup_iff.mpr ?_, fun id => hperm.mem_iff.trans ?_⟩
  · rw [List.map_reverse, List.nodup_reverse]
    exact db.movies.nodup.sublist (List.Sublist.map _ List.filter_sublist)
  · simp only [rows, List.map_reverse, List.mem_reverse, List.mem_map, List.mem_filter,
      decide_eq_true_eq]
    constructor
    · rintro ⟨movie, ⟨hmem, hst⟩, rfl⟩
      exact ⟨movie, get_of_mem hmem, hst⟩
    · rintro ⟨movie, hget, hst⟩
      exact ⟨movie, ⟨mem_of_get hget, hst⟩, id_of_get hget⟩

theorem MoviesCached.shows (h : MoviesCached w) : ShowsPublished api w where
  movie id movie := by
    rw [perform_getPublishedMovie]
    cases hc : w.redis.cache (.movie id) with
    | some cached =>
      obtain ⟨hget, hst⟩ := h.movie id cached hc
      constructor
      · intro heq
        cases heq
        exact ⟨hget, hst⟩
      · rintro ⟨hget', -⟩
        rw [Option.some.inj (hget.symm.trans hget')]
    | none =>
      rw [← Db.findPublishedById_eq_some]
      cases w.db.findPublishedById id with
      | none => simp
      | some found => simp
  lists := by
    rw [perform_browseMovies]
    cases hn : w.redis.cache .nowShowing with
    | none => exact ⟨_, rfl, MoviesService.split_complete _ _⟩
    | some nowShowing =>
      cases hs : w.redis.cache .comingSoon with
      | none => exact ⟨_, rfl, MoviesService.split_complete _ _⟩
      | some comingSoon => exact ⟨_, rfl, h.lists nowShowing hn comingSoon hs⟩

end Reads

/-! ### What the statements do to the movies -/

namespace Db
variable {db db' : Db} {id i : ℕ}

theorem movieUpdate_get {d : MovieData} {movie : Movie}
    (h : db.movieUpdate id d = .ok (movie, db')) (i : ℕ) :
    db'.movies.get i = if i = id then (db.movies.get i).map d.apply else db.movies.get i := by
  rw [movieUpdate_eq_ok h]
  exact get_modify d.id_apply i

theorem published_update {d : MovieData} {movie : Movie}
    (h : db.movieUpdate id d = .ok (movie, db')) (hi : i ≠ id ∨ d.status = none) :
    db'.Published i ↔ db.Published i := by
  rw [Published, Published, movieUpdate_get h]
  split_ifs with heq
  · have hstatus := hi.resolve_left (not_not.mpr heq)
    cases db.movies.get i <;> simp [MovieData.apply, hstatus]
  · rfl

theorem movieCreate_get (dto : MovieCreate) (hi : i ≠ db.movies.serial) :
    (db.movieCreate dto).2.movies.get i = db.movies.get i := by
  simp only [movieCreate, get_insert, if_neg hi]

/-- A new movie is a draft, and its id is one that none had. -/
theorem published_create (dto : MovieCreate) :
    (db.movieCreate dto).2.Published i ↔ db.Published i := by
  by_cases hi : i = db.movies.serial
  · subst hi
    refine iff_of_false ?_ ?_
    · simp [Published, movieCreate, get_insert, MovieCreate.row]
    · rintro ⟨movie, hmovie, -⟩
      exact (lt_serial_of_get hmovie).ne rfl
  · rw [Published, Published, movieCreate_get dto hi]

theorem movieDelete_get {movie : Movie} (h : db.movieDelete id = .ok (movie, db')) (hi : i ≠ id) :
    db'.movies.get i = db.movies.get i := by
  rw [movieDelete_eq_ok h, cascade, get_filter]
  cases hmovie : db.movies.get i with
  | none => rfl
  | some movie =>
    refine if_pos (decide_eq_true ?_)
    rwa [show movie.id = i from id_of_get hmovie]

end Db

/-! ### What keeps the cache true -/

/-- The keys that hold movies. -/
def CacheKey.ofMovies : CacheKey → Bool
  | .movie _ | .nowShowing | .comingSoon => true
  | _ => false

/-- The requests that write the movies. -/
def AdminRequest.editsMovies : AdminRequest → Bool
  | createMovie _ | updateMovie _ _ | publish _ | unpublish _ | deleteMovie _ => true
  | _ => false

section Visits
variable {api : StripeApi σ A} {w v : World σ}

/-- Nothing of movies is cached anew, and what was cached of them still holds. -/
theorem MoviesCached.mono (h : MoviesCached w)
    (hcache : ∀ k : CacheKey, k.ofMovies = true → ∀ x ∈ v.redis.cache k, w.redis.cache k = some x)
    (hmovie : ∀ id, (v.redis.cache (.movie id)).isSome → w.db.Published id →
      v.db.movies.get id = w.db.movies.get id)
    (hlists : (v.redis.cache .nowShowing).isSome → (v.redis.cache .comingSoon).isSome →
      ∀ id, v.db.Published id ↔ w.db.Published id) : MoviesCached v where
  movie id movie hc := by
    obtain ⟨hget, hst⟩ := h.movie id movie (hcache _ rfl movie hc)
    rw [hmovie id (Option.isSome_iff_exists.mpr ⟨movie, hc⟩) ⟨movie, hget, hst⟩]
    exact ⟨hget, hst⟩
  lists nowShowing hn comingSoon hs := by
    obtain ⟨hnodup, hmem⟩ := h.lists nowShowing (hcache _ rfl _ hn) comingSoon (hcache _ rfl _ hs)
    refine ⟨hnodup, fun id => (hmem id).trans (hlists ?_ ?_ id).symm⟩
    · exact Option.isSome_iff_exists.mpr ⟨_, hn⟩
    · exact Option.isSome_iff_exists.mpr ⟨_, hs⟩

theorem MoviesCached.of_same (h : MoviesCached w)
    (hcache : ∀ k : CacheKey, k.ofMovies = true → ∀ x ∈ v.redis.cache k, w.redis.cache k = some x)
    (hmovies : v.db.movies.get = w.db.movies.get) : MoviesCached v :=
  h.mono hcache (fun id _ _ => by rw [hmovies])
    fun _ _ id => by rw [Db.Published, Db.Published, hmovies]

theorem MoviesCached.cached (h : MoviesCached w) {k : CacheKey} (hk : k.ofMovies = false)
    (x : k.Value) : MoviesCached (w.cached k x) := by
  refine h.of_same (fun k' hk' y hy => ?_) rfl
  rwa [World.cached_of_ne] at hy
  rintro rfl
  rw [hk] at hk'
  cases hk'

theorem MoviesCached.read (h : MoviesCached w) (hr : ReadLeaves w v) : MoviesCached v := by
  cases hr with
  | same => exact h
  | movie hfound =>
    refine ⟨fun i movie' hc => ?_, fun nowShowing hn comingSoon hs => ?_⟩
    · rename_i movie
      by_cases hi : i = movie.id
      · subst hi
        rw [World.cached_self] at hc
        cases hc
        exact Db.findPublishedById_eq_some.mp hfound
      · rw [World.cached_of_ne fun heq => hi (CacheKey.movie.inj heq)] at hc
        exact h.movie i movie' hc
    · exact h.lists nowShowing hn comingSoon hs
  | lists =>
    refine ⟨h.movie, fun nowShowing hn comingSoon hs => ?_⟩
    rw [World.cached_self] at hs
    cases hs
    change (w.cached .nowShowing _).redis.cache .nowShowing = _ at hn
    rw [World.cached_self] at hn
    cases hn
    exact MoviesService.split_complete w.db w.now
  | detail => exact h.cached rfl _
  | screenings => exact h.cached rfl _
  | seatMap => exact h.cached rfl _

/-- A statement that is not about movies. -/
theorem AdminRequest.sameMovies {op : AdminRequest} {x : op.statement.Reply} {db : Db}
    (hx : World.exec api op.statement w = (.ok x, { w with db })) (ho : op.editsMovies = false) :
    db.movies.get = w.db.movies.get := by
  have hcascade : ∀ hall screening,
      (w.db.cascade (fun _ => true) hall screening).movies.get = w.db.movies.get := by
    intro hall screening
    funext i
    rw [Db.cascade, get_filter]
    cases w.db.movies.get i <;> rfl
  cases op with
  | createHall dto =>
    obtain ⟨ht, -⟩ := Db.createHallWithSeats_eq_ok (World.ok_of_commit hx)
    rw [ht]
  | deleteHall id => rw [Db.hallDelete_eq_ok (World.ok_of_commit hx), hcascade]
  | createScreening dto =>
    obtain ⟨-, ht⟩ := Db.screeningCreate_eq_ok (World.ok_of_commit hx)
    rw [ht]
  | updateScreening id dto =>
    obtain ⟨_, -, -, ht⟩ := Db.screeningUpdate_eq_ok (World.ok_of_commit hx)
    rw [ht]
  | cancelScreening id =>
    obtain ⟨_, -, -, ht⟩ := Db.screeningUpdate_eq_ok (World.ok_of_commit hx)
    rw [ht]
  | deleteScreening id => rw [Db.screeningDelete_eq_ok (World.ok_of_commit hx), hcascade]
  | _ => cases ho

/-- An update of a movie, that drops it or leaves its row to those who cannot see it. -/
theorem MoviesCached.update (h : MoviesCached w) {id : ℕ} {d : MovieData} {x : Movie} {db : Db}
    {keys : List CacheKey} (hx : w.db.movieUpdate id d = .ok (x, db))
    (hmovie : CacheKey.movie id ∈ keys ∨ ¬ w.db.Published id)
    (hlists : CacheKey.nowShowing ∈ keys ∨ d.status = none) :
    MoviesCached { w with db, redis := w.redis.del keys } := by
  refine h.mono (fun k _ y hy => (Redis.mem_of_del hy).2) (fun i hc hpublished => ?_)
    fun hc _ i => ?_
  · obtain ⟨y, hy⟩ := Option.isSome_iff_exists.mp hc
    rw [Db.movieUpdate_get hx, if_neg]
    rintro rfl
    exact hmovie.elim (Redis.mem_of_del hy).1 fun hnot => hnot hpublished
  · obtain ⟨y, hy⟩ := Option.isSome_iff_exists.mp hc
    exact Db.published_update hx (.inr (hlists.resolve_left (Redis.mem_of_del hy).1))

theorem MoviesCached.create (h : MoviesCached w) (dto : Db.MovieCreate) :
    MoviesCached { w with db := (w.db.movieCreate dto).2 } := by
  refine h.mono (fun k _ x hx => hx) (fun i _ hpublished => ?_) fun _ _ i =>
    Db.published_create dto
  obtain ⟨movie, hmovie, -⟩ := hpublished
  exact Db.movieCreate_get dto (lt_serial_of_get hmovie).ne

theorem MoviesCached.delete (h : MoviesCached w) {id : ℕ} {x : Movie} {db : Db}
    (hx : w.db.movieDelete id = .ok (x, db)) : MoviesCached { w with
      db, redis := w.redis.del [.movie id, .nowShowing, .comingSoon] } := by
  refine h.mono (fun k _ y hy => (Redis.mem_of_del hy).2)
    (fun i hc _ => Db.movieDelete_get hx ?_) fun hc _ i => ?_
  · rintro rfl
    simp [Redis.cache_del] at hc
  · simp [Redis.cache_del] at hc

theorem MoviesCached.admin (h : MoviesCached w) (op : AdminRequest) :
    MoviesCached (perform api op.handle w).2 := by
  by_cases ha : op.Accepts w.db
  · obtain ⟨x, db, hx, hrun⟩ := AdminRequest.accepted api ha
    rw [hrun]
    by_cases ho : op.editsMovies = false
    · exact h.of_same (fun k _ y hy => (Redis.mem_of_del hy).2) (AdminRequest.sameMovies hx ho)
    cases op with
    | createMovie dto =>
      cases hx
      rw [show AdminRequest.drops w.db (.createMovie dto) = [] from rfl, Redis.del_nil]
      exact h.create dto
    | updateMovie id dto =>
      exact h.update (World.ok_of_commit hx) (.inl List.mem_cons_self) (.inr rfl)
    | publish id =>
      obtain ⟨movie, hmovie, hst⟩ := ha
      refine h.update (World.ok_of_commit hx) (.inr ?_) (.inl List.mem_cons_self)
      rintro ⟨movie', hmovie', hst'⟩
      rw [Option.some.inj (hmovie'.symm.trans hmovie)] at hst'
      exact hst hst'
    | unpublish id =>
      exact h.update (World.ok_of_commit hx) (.inl List.mem_cons_self)
        (.inl (List.mem_cons_of_mem _ List.mem_cons_self))
    | deleteMovie id => exact h.delete (World.ok_of_commit hx)
    | _ => exact absurd rfl ho
  · rw [AdminRequest.refused ha]
    exact h

theorem MoviesCached.visit (h : MoviesCached w) (x : CatalogueRequest ⊕ Env A) :
    MoviesCached (visit api w x) := by
  refine visit_rule (fun op _ => h.admin op) (fun v hr => h.read hr) fun e _ => ?_
  cases e with
  | advance ms => exact h.of_same (fun k _ y hy => hy) rfl
  | evict k => exact h.of_same (fun k _ y hy => (Redis.mem_of_del hy).2) rfl
  | stripe a => exact h.of_same (fun k _ y hy => hy) rfl

/-- Whatever is written, read and forgotten from a fresh cache on: the public sees the
published movies as they are, and no other ones. -/
theorem catalogue_shows_published (api : StripeApi σ A) (xs : List (CatalogueRequest ⊕ Env A))
    {w : World σ} (hw : ∀ k, w.redis.cache k = none) :
    AllStates (visit api) (ShowsPublished api) xs w := by
  have hempty : MoviesCached w := by
    refine ⟨fun id movie hc => ?_, fun nowShowing hn => ?_⟩
    · rw [hw] at hc
      cases hc
    · rw [hw] at hn
      cases hn
  have hrun : AllStates (visit api) MoviesCached xs w :=
    allStates_of_keeps (fun x _ v hv => hv.visit x) hempty
  exact fun ys hys => (hrun ys hys).shows

theorem theatre_fresh : ∀ k, theatre.redis.cache k = none :=
  admin_cache_none _ (admin_cache_none _ (admin_cache_none _ fun _ => rfl))

/-- A movie is published, both lists and the movie are read, and it is edited and withdrawn. -/
def premiere : List (CatalogueRequest ⊕ Env Account.Action) :=
  [.inl (.admin (.publish 1)), .inl .browseMovies, .inl (.getPublishedMovie 1),
    .inl (.admin (.updateMovie 1 { name := some "Metropolis, restored" })),
    .inl (.getPublishedMovie 1), .inl (.admin (.unpublish 1))]

theorem premiere_shows_published :
    AllStates (visit testMode) (ShowsPublished testMode) premiere theatre :=
  catalogue_shows_published testMode premiere theatre_fresh

end Visits

end MovieReservation
