import MovieReservation.Properties.Deletes
import MovieReservation.Properties.PublicCatalogue

/-! Withdrawn movies and screenings. The views of a screening are dropped by the requests
that name the screening; a movie that is unpublished or deleted keeps its cached list, and
what a cascade takes keeps its cached views, until these lapse. -/

namespace MovieReservation

open Lib Lib.Prog Lib.Table

variable {σ A : Type}

/-- The screening is there, and not cancelled. -/
def Db.Live (db : Db) (id : ℕ) : Prop := ∃ s ∈ db.screenings.get id, s.status ≠ .cancelled

def NotFound {α : Type} (r : Except Err α) : Prop := ∃ message, r = .error (.notFound message)

/-- What visitors would be told now of what is not to be seen. -/
structure HidesWithdrawn (api : StripeApi σ A) (w : World σ) : Prop where
  movie : ∀ m, ¬ w.db.Published m →
    NotFound (perform api (ScreeningsService.getMovieScreenings m) w).1
  detail : ∀ s, ¬ w.db.Live s →
    NotFound (perform api (ScreeningsService.getScreeningDetail s) w).1
  seatMap : ∀ s, ¬ w.db.Live s → NotFound (perform api (ScreeningsService.getSeatMap s) w).1

/-- A view of the screening is cached that visitors are shown. -/
def World.Shown (w : World σ) (id : ℕ) : Prop :=
  (w.redis.cache (.seatMap id)).isSome ∨
    ∃ screening ∈ w.redis.cache (.screeningDetail id), screening.status ≠ .cancelled

instance (w : World σ) (id : ℕ) : Decidable (w.Shown id) := by
  unfold World.Shown
  infer_instance

/-- Only what is to be seen is cached. -/
structure ViewsLive (w : World σ) : Prop where
  movie : ∀ m, (w.redis.cache (.movieScreenings m)).isSome → w.db.Published m
  screening : ∀ s, w.Shown s → w.db.Live s

/-- The request withdraws what is still cached. -/
def Withdraws : CatalogueRequest ⊕ Env A → World σ → Prop
  | .inl (.admin (.unpublish m)), w => (AdminRequest.unpublish m).Accepts w.db ∧
    (w.redis.cache (.movieScreenings m)).isSome
  | .inl (.admin (.deleteMovie m)), w => (AdminRequest.deleteMovie m).Accepts w.db ∧
    ((w.redis.cache (.movieScreenings m)).isSome ∨
      ∃ s ∈ w.db.screenings.rows, s.movieId = m ∧ w.Shown s.id)
  | .inl (.admin (.deleteHall h)), w => (AdminRequest.deleteHall h).Accepts w.db ∧
    ∃ s ∈ w.db.screenings.rows, s.hallId = h ∧ w.Shown s.id
  | _, _ => False

instance : ∀ (x : CatalogueRequest ⊕ Env A) (w : World σ), Decidable (Withdraws x w)
  | .inl (.admin op), w => by
    induction op using AdminRequest.casesOn <;> unfold Withdraws <;> infer_instance
  | .inl .browseMovies, _ | .inl (.getPublishedMovie _), _ | .inl (.getScreeningDetail _), _
  | .inl (.getMovieScreenings _), _ | .inl (.getSeatMap _), _ | .inr _, _ =>
    inferInstanceAs (Decidable False)

/-! ### What the statements do to the screenings -/

namespace Db
variable {db db' : Db} {id i : ℕ} {x : Screening}

theorem live_screeningCreate {d : ScreeningCreate} (h : db.screeningCreate d = .ok (x, db'))
    (hi : db.Live i) : db'.Live i := by
  obtain ⟨s, hs, hst⟩ := hi
  obtain ⟨-, ht⟩ := screeningCreate_eq_ok h
  refine ⟨s, ?_, hst⟩
  rw [ht, get_insert, if_neg (lt_serial_of_get hs).ne]
  exact hs

theorem live_screeningUpdate {d : ScreeningData} (h : db.screeningUpdate id d = .ok (x, db'))
    (hi : i ≠ id ∨ d.status = none) : db'.Live i ↔ db.Live i := by
  obtain ⟨_, -, -, ht⟩ := screeningUpdate_eq_ok h
  rw [Live, Live, ht, get_modify]
  split_ifs with heq
  · have hstatus := hi.resolve_left (not_not.mpr heq)
    cases db.screenings.get i <;> simp [ScreeningData.apply, hstatus]
  · rfl

theorem live_cascade {movie : Movie → Bool} {hall : Hall → Bool} {screening : Screening → Bool} :
    (db.cascade movie hall screening).Live i ↔
      ∃ s ∈ db.screenings.get i, db.KeptScreening movie hall screening s ∧
        s.status ≠ .cancelled := by
  have hmem : ∀ s, (db.cascade movie hall screening).screenings.get i = some s ↔
      db.screenings.get i = some s ∧ db.KeptScreening movie hall screening s := by
    intro s
    rw [cascade, get_filter, Option.filter_eq_some_iff]
    exact and_congr_right fun hs => cascade_screening (mem_of_get hs)
  simp only [Live, Option.mem_def, hmem, and_assoc]

theorem live_hallDelete {hall : Hall} (h : db.hallDelete id = .ok (hall, db')) :
    db'.Live i ↔ ∃ s ∈ db.screenings.get i, s.hallId ≠ id ∧ s.status ≠ .cancelled := by
  rw [hallDelete_eq_ok h, live_cascade]
  refine exists_congr fun s => and_congr_right fun hs => and_congr_left fun _ => ?_
  constructor
  · intro hkept
    obtain ⟨hall, hh⟩ := Option.isSome_iff_exists.mp (db.screening_hall s (mem_of_get hs))
    rw [← show hall.id = s.hallId from id_of_get hh]
    exact of_decide_eq_true (hkept.2.1 hall hh)
  · intro hne
    refine ⟨rfl, fun hall hh => decide_eq_true ?_, fun _ _ => rfl⟩
    rwa [show hall.id = s.hallId from id_of_get hh]

theorem live_movieDelete {movie : Movie} (h : db.movieDelete id = .ok (movie, db')) :
    db'.Live i ↔ ∃ s ∈ db.screenings.get i, s.movieId ≠ id ∧ s.status ≠ .cancelled := by
  rw [movieDelete_eq_ok h, live_cascade]
  refine exists_congr fun s => and_congr_right fun hs => and_congr_left fun _ => ?_
  constructor
  · intro hkept
    obtain ⟨movie, hm⟩ := Option.isSome_iff_exists.mp (db.screening_movie s (mem_of_get hs))
    rw [← show movie.id = s.movieId from id_of_get hm]
    exact of_decide_eq_true (hkept.2.2 movie hm)
  · intro hne
    refine ⟨rfl, fun _ _ => rfl, fun movie hm => decide_eq_true ?_⟩
    rwa [show movie.id = s.movieId from id_of_get hm]

theorem live_screeningDelete (h : db.screeningDelete id = .ok (x, db')) (hi : i ≠ id)
    (hl : db.Live i) : db'.Live i := by
  obtain ⟨s, hs, hst⟩ := hl
  rw [screeningDelete_eq_ok h, live_cascade]
  refine ⟨s, hs, ⟨decide_eq_true ?_, fun _ _ => rfl, fun _ _ => rfl⟩, hst⟩
  rwa [show s.id = i from id_of_get hs]

end Db

/-! ### What the reads tell -/

section Reads
variable {api : StripeApi σ A} {w : World σ}

theorem not_notFound_ok {α : Type} {a : α} : ¬ NotFound (.ok a) := by
  rintro ⟨message, h⟩
  cases h

theorem Db.findPublishedById_eq_none {db : Db} {id : ℕ} :
    db.findPublishedById id = none ↔ ¬ db.Published id := by
  rw [findPublishedById, Option.filter_eq_none_iff, Published]
  simp

/-- A screening that is not live is not found, or found cancelled. -/
theorem Db.not_live_iff {db : Db} {id : ℕ} : ¬ db.Live id ↔
    ∀ screening ∈ db.screeningFindById id, screening.status = .cancelled := by
  constructor
  · intro h screening hfound
    by_contra hst
    obtain ⟨s, hs, hrest⟩ := Option.bind_eq_some_iff.mp hfound
    obtain ⟨movie, -, hrest⟩ := Option.bind_eq_some_iff.mp hrest
    obtain ⟨hall, -, heq⟩ := Option.bind_eq_some_iff.mp hrest
    cases heq
    exact h ⟨s, hs, hst⟩
  · rintro h ⟨s, hs, hst⟩
    obtain ⟨movie, hall, -, hfound⟩ := Db.screeningFindById_eq hs
    exact hst (h _ hfound)

theorem Db.freshSeatMap_eq_none {db : Db} {id : ℕ} :
    db.freshSeatMap id = none ↔ ¬ db.Live id := by
  rw [not_live_iff, freshSeatMap]
  cases db.screeningFindById id with
  | none => simp
  | some screening => simp

theorem movieScreenings_notFound (m : ℕ) :
    NotFound (perform api (ScreeningsService.getMovieScreenings m) w).1 ↔
      w.redis.cache (.movieScreenings m) = none ∧ ¬ w.db.Published m := by
  rw [perform_getMovieScreenings]
  cases w.redis.cache (.movieScreenings m) with
  | some cached => exact iff_of_false not_notFound_ok fun h => nomatch h.1
  | none =>
    rw [← Db.findPublishedById_eq_none, and_iff_right rfl]
    cases w.db.findPublishedById m with
    | none => exact iff_of_true ⟨_, rfl⟩ rfl
    | some movie => exact iff_of_false not_notFound_ok nofun

theorem seatMap_notFound (s : ℕ) :
    NotFound (perform api (ScreeningsService.getSeatMap s) w).1 ↔
      w.redis.cache (.seatMap s) = none ∧ ¬ w.db.Live s := by
  rw [perform_getSeatMap]
  cases w.redis.cache (.seatMap s) with
  | some cached => exact iff_of_false not_notFound_ok fun h => nomatch h.1
  | none =>
    rw [← Db.freshSeatMap_eq_none, and_iff_right rfl]
    cases w.db.freshSeatMap s with
    | none => exact iff_of_true ⟨_, rfl⟩ rfl
    | some seatMap => exact iff_of_false not_notFound_ok nofun

theorem detail_notFound {s : ℕ} (hs : ¬ w.db.Live s) :
    NotFound (perform api (ScreeningsService.getScreeningDetail s) w).1 ↔
      ∀ screening ∈ w.redis.cache (.screeningDetail s), screening.status = .cancelled := by
  rw [perform_getScreeningDetail]
  cases w.redis.cache (.screeningDetail s) with
  | some cached =>
    dsimp only
    split_ifs with hst
    · exact iff_of_true ⟨_, rfl⟩ fun _ hc => Option.some.inj hc ▸ hst
    · exact iff_of_false not_notFound_ok fun h => hst (h cached rfl)
  | none =>
    refine iff_of_true ?_ nofun
    cases hfound : w.db.screeningFindById s with
    | none => exact ⟨_, rfl⟩
    | some screening =>
      dsimp only
      rw [if_pos (Db.not_live_iff.mp hs screening hfound)]
      exact ⟨_, rfl⟩

theorem hides_iff : HidesWithdrawn api w ↔ ViewsLive w := by
  constructor
  · intro h
    refine ⟨fun m hm => by_contra fun hnot => ?_, fun s hs => by_contra fun hnot => ?_⟩
    · rw [((movieScreenings_notFound m).mp (h.movie m hnot)).1] at hm
      cases hm
    · rcases hs with hs | ⟨cached, hc, hst⟩
      · rw [((seatMap_notFound s).mp (h.seatMap s hnot)).1] at hs
        cases hs
      · exact hst ((detail_notFound hnot).mp (h.detail s hnot) cached hc)
  · intro h
    refine ⟨fun m hm => (movieScreenings_notFound m).mpr ⟨?_, hm⟩,
      fun s hs => (detail_notFound hs).mpr fun cached hc => ?_,
      fun s hs => (seatMap_notFound s).mpr ⟨?_, hs⟩⟩
    · exact Option.not_isSome_iff_eq_none.mp fun hc => hm (h.movie m hc)
    · exact by_contra fun hst => hs (h.screening s (.inr ⟨cached, hc, hst⟩))
    · exact Option.not_isSome_iff_eq_none.mp fun hc => hs (h.screening s (.inl hc))

end Reads

/-! ### One visit -/

section Visits
variable {api : StripeApi σ A} {w v : World σ}

/-- Nothing is cached anew, and what is still shown can still be seen. -/
theorem ViewsLive.mono (h : ViewsLive w)
    (hcache : ∀ k : CacheKey, ∀ x ∈ v.redis.cache k, w.redis.cache k = some x)
    (hmovie : ∀ m, (v.redis.cache (.movieScreenings m)).isSome → w.db.Published m →
      v.db.Published m)
    (hscreening : ∀ s, v.Shown s → w.Shown s → w.db.Live s → v.db.Live s) : ViewsLive v := by
  have hsome : ∀ k : CacheKey, (v.redis.cache k).isSome → (w.redis.cache k).isSome := by
    intro k hk
    obtain ⟨x, hx⟩ := Option.isSome_iff_exists.mp hk
    exact Option.isSome_iff_exists.mpr ⟨x, hcache k x hx⟩
  refine ⟨fun m hm => hmovie m hm (h.movie m (hsome _ hm)), fun s hs => ?_⟩
  have hbefore : w.Shown s :=
    hs.imp (hsome _) fun ⟨screening, hc, hst⟩ => ⟨screening, hcache _ _ hc, hst⟩
  exact hscreening s hs hbefore (h.screening s hbefore)

/-- A view of something to be seen is cached. -/
theorem ViewsLive.cached (h : ViewsLive w) {k : CacheKey} (x : k.Value)
    (hk : ∀ m, k = .movieScreenings m → w.db.Published m)
    (hk' : ∀ s, k = .seatMap s ∨ k = .screeningDetail s → w.db.Live s) :
    ViewsLive (w.cached k x) := by
  refine ⟨fun m hm => ?_, fun s hs => ?_⟩
  · by_cases heq : k = .movieScreenings m
    · exact hk m heq
    · rw [World.cached_of_ne (Ne.symm heq)] at hm
      exact h.movie m hm
  · by_cases heq : k = .seatMap s ∨ k = .screeningDetail s
    · exact hk' s heq
    · obtain ⟨hne, hne'⟩ := not_or.mp heq
      unfold World.Shown at hs
      rw [World.cached_of_ne (Ne.symm hne), World.cached_of_ne (Ne.symm hne')] at hs
      exact h.screening s hs

/-- What is dropped is not shown. -/
theorem not_shown_del {db : Db} {keys : List CacheKey} {s : ℕ} (hs : CacheKey.seatMap s ∈ keys)
    (hd : CacheKey.screeningDetail s ∈ keys) :
    ¬ ({ w with db, redis := w.redis.del keys } : World σ).Shown s := by
  rintro (h | ⟨screening, hc, -⟩)
  · obtain ⟨x, hx⟩ := Option.isSome_iff_exists.mp h
    exact (Redis.mem_of_del hx).1 hs
  · exact (Redis.mem_of_del hc).1 hd

theorem ViewsLive.admin (h : ViewsLive w) (op : AdminRequest)
    (hop : ¬ Withdraws (.inl (.admin op) : CatalogueRequest ⊕ Env A) w) :
    ViewsLive (perform api op.handle w).2 := by
  by_cases ha : op.Accepts w.db
  · obtain ⟨x, db, hx, hrun⟩ := AdminRequest.accepted api ha
    rw [hrun]
    have hcache : ∀ k : CacheKey, ∀ y ∈ (w.redis.del (op.drops w.db)).cache k,
        w.redis.cache k = some y := fun k y hy => (Redis.mem_of_del hy).2
    have hsome : ∀ k : CacheKey, ((w.redis.del (op.drops w.db)).cache k).isSome →
        k ∉ op.drops w.db ∧ (w.redis.cache k).isSome := by
      intro k hk
      obtain ⟨y, hy⟩ := Option.isSome_iff_exists.mp hk
      exact ⟨(Redis.mem_of_del hy).1, Option.isSome_iff_exists.mpr ⟨y, (Redis.mem_of_del hy).2⟩⟩
    have hmovies : op.editsMovies = false → ∀ m, w.db.Published m → db.Published m := by
      intro ho m hm
      rwa [Db.Published, AdminRequest.sameMovies hx ho]
    have hscreenings : db.screenings = w.db.screenings → ∀ s, w.db.Live s → db.Live s := by
      intro hs s hl
      rwa [Db.Live, hs]
    cases op with
    | createHall dto =>
      obtain ⟨ht, -⟩ := Db.createHallWithSeats_eq_ok (World.ok_of_commit hx)
      exact h.mono hcache (fun m _ => hmovies rfl m) fun s _ _ => hscreenings (by rw [ht]) s
    | deleteHall n =>
      refine h.mono hcache (fun m _ => hmovies rfl m) fun s _ hshown hlive => ?_
      obtain ⟨screening, hs, hst⟩ := hlive
      refine (Db.live_hallDelete (World.ok_of_commit hx)).mpr ⟨screening, hs, fun hn => ?_, hst⟩
      rw [← show screening.id = s from id_of_get hs] at hshown
      exact hop ⟨ha, screening, mem_of_get hs, hn, hshown⟩
    | createMovie dto =>
      cases hx
      exact h.mono hcache (fun m _ => (Db.published_create dto).mpr) fun _ _ _ hl => hl
    | updateMovie n dto =>
      have hu := World.ok_of_commit hx
      refine h.mono hcache (fun m _ => (Db.published_update hu (.inr rfl)).mpr) fun s _ _ => ?_
      exact hscreenings (by rw [Db.movieUpdate_eq_ok hu]) s
    | publish n =>
      have hu := World.ok_of_commit hx
      refine h.mono hcache (fun m _ hm => ?_) fun s _ _ =>
        hscreenings (by rw [Db.movieUpdate_eq_ok hu]) s
      obtain ⟨movie, hmovie, hst⟩ := hm
      rw [Db.Published, Db.movieUpdate_get hu]
      split_ifs with hmn
      · exact ⟨_, Option.mem_map.mpr ⟨movie, hmovie, rfl⟩, rfl⟩
      · exact ⟨movie, hmovie, hst⟩
    | unpublish n =>
      have hu := World.ok_of_commit hx
      refine h.mono hcache (fun m hc hm => ?_) fun s _ _ =>
        hscreenings (by rw [Db.movieUpdate_eq_ok hu]) s
      refine (Db.published_update hu (.inl ?_)).mpr hm
      rintro rfl
      exact hop ⟨ha, (hsome _ hc).2⟩
    | deleteMovie n =>
      have hd := World.ok_of_commit hx
      refine h.mono hcache (fun m hc hm => ?_) fun s _ hshown hlive => ?_
      · rw [Db.Published, Db.movieDelete_get hd]
        · exact hm
        · rintro rfl
          exact hop ⟨ha, .inl (hsome _ hc).2⟩
      · obtain ⟨screening, hs, hst⟩ := hlive
        refine (Db.live_movieDelete hd).mpr ⟨screening, hs, fun hn => ?_, hst⟩
        rw [← show screening.id = s from id_of_get hs] at hshown
        exact hop ⟨ha, .inr ⟨screening, mem_of_get hs, hn, hshown⟩⟩
    | createScreening dto =>
      exact h.mono hcache (fun m _ => hmovies rfl m) fun s _ _ =>
        Db.live_screeningCreate (World.ok_of_commit hx)
    | updateScreening n dto =>
      exact h.mono hcache (fun m _ => hmovies rfl m) fun s _ _ =>
        (Db.live_screeningUpdate (World.ok_of_commit hx) (.inr rfl)).mpr
    | cancelScreening n =>
      refine h.mono hcache (fun m _ => hmovies rfl m) fun s hshown _ =>
        (Db.live_screeningUpdate (World.ok_of_commit hx) (.inl ?_)).mpr
      rintro rfl
      exact not_shown_del (by simp [AdminRequest.drops, AdminRequest.viewsOf])
        (by simp [AdminRequest.drops, AdminRequest.viewsOf]) hshown
    | deleteScreening n =>
      refine h.mono hcache (fun m _ => hmovies rfl m) fun s hshown _ =>
        Db.live_screeningDelete (World.ok_of_commit hx) ?_
      rintro rfl
      exact not_shown_del (by simp [AdminRequest.drops, AdminRequest.viewsOf])
        (by simp [AdminRequest.drops, AdminRequest.viewsOf]) hshown
  · rw [AdminRequest.refused ha]
    exact h

theorem ViewsLive.read (h : ViewsLive w) (hr : ReadLeaves w v) : ViewsLive v := by
  cases hr with
  | same => exact h
  | movie hfound => exact h.cached _ nofun fun s hs => by rcases hs with hs | hs <;> cases hs
  | lists =>
    have hfirst := h.cached (k := .nowShowing)
      (MoviesService.split (w.db.findPublishedForBrowse w.now)).nowShowing nofun fun s hs => by
        rcases hs with hs | hs <;> cases hs
    exact hfirst.cached _ nofun fun s hs => by rcases hs with hs | hs <;> cases hs
  | detail hfound hst =>
    refine h.cached _ nofun fun s hs => ?_
    rcases hs with heq | heq
    · cases heq
    · cases heq
      exact by_contra fun hnot => hst (Db.not_live_iff.mp hnot _ hfound)
  | screenings hfound =>
    refine h.cached _ (fun m heq => ?_) fun s hs => by rcases hs with hs | hs <;> cases hs
    cases heq
    obtain ⟨movie, hmovie⟩ := Option.isSome_iff_exists.mp hfound
    exact ⟨movie, Db.findPublishedById_eq_some.mp hmovie⟩
  | seatMap hfresh =>
    refine h.cached _ nofun fun s hs => ?_
    rcases hs with heq | heq
    · cases heq
      refine by_contra fun hnot => ?_
      rw [Db.freshSeatMap_eq_none.mpr hnot] at hfresh
      cases hfresh
    · cases heq

theorem ViewsLive.visit (h : ViewsLive w) {x : CatalogueRequest ⊕ Env A}
    (hx : ¬ Withdraws x w) : ViewsLive (visit api w x) := by
  refine visit_rule (fun op heq => h.admin op (heq ▸ hx)) (fun v hr => h.read hr) fun e _ => ?_
  cases e with
  | advance ms => exact h.mono (fun k y hy => hy) (fun _ _ hm => hm) fun _ _ _ hl => hl
  | evict k =>
    exact h.mono (fun k y hy => (Redis.mem_of_del hy).2) (fun _ _ hm => hm) fun _ _ _ hl => hl
  | stripe a => exact h.mono (fun k y hy => hy) (fun _ _ hm => hm) fun _ _ _ hl => hl

/-- What is withdrawn while it is cached is told of all the same. -/
theorem not_viewsLive_of_withdraws {x : CatalogueRequest ⊕ Env A} (hx : Withdraws x w) :
    ¬ ViewsLive (visit api w x) := by
  rcases x with r | e
  · cases r with
    | admin op =>
      rw [visit, CatalogueRequest.handle, perform_map]
      cases op with
      | unpublish m =>
        obtain ⟨ha, hc⟩ := hx
        obtain ⟨y, db, hy, hrun⟩ := AdminRequest.accepted api ha
        rw [hrun]
        intro hlive
        obtain ⟨movie, hmovie, hst⟩ := hlive.movie m hc
        rw [Option.mem_def, Db.movieUpdate_get (World.ok_of_commit hy), if_pos rfl] at hmovie
        obtain ⟨movie', -, rfl⟩ := Option.map_eq_some_iff.mp hmovie
        cases hst
      | deleteMovie m =>
        obtain ⟨ha, hc⟩ := hx
        obtain ⟨y, db, hy, hrun⟩ := AdminRequest.accepted api ha
        have hd := World.ok_of_commit hy
        rw [hrun]
        intro hlive
        rcases hc with hc | ⟨s, hs, hm, hshown⟩
        · obtain ⟨movie, hmovie, -⟩ := hlive.movie m hc
          rw [Option.mem_def, Db.movieDelete_eq_ok hd, Db.cascade, get_filter,
            Option.filter_eq_some_iff] at hmovie
          exact of_decide_eq_true hmovie.2 (id_of_get hmovie.1)
        · obtain ⟨s', hs', hne, -⟩ := (Db.live_movieDelete hd).mp (hlive.screening s.id hshown)
          rw [Option.mem_def, show w.db.screenings.get s.id = some s from get_of_mem hs] at hs'
          cases hs'
          exact hne hm
      | deleteHall n =>
        obtain ⟨ha, s, hs, hn, hshown⟩ := hx
        obtain ⟨y, db, hy, hrun⟩ := AdminRequest.accepted api ha
        have hd := World.ok_of_commit hy
        rw [hrun]
        intro hlive
        obtain ⟨s', hs', hne, -⟩ := (Db.live_hallDelete hd).mp (hlive.screening s.id hshown)
        rw [Option.mem_def, show w.db.screenings.get s.id = some s from get_of_mem hs] at hs'
        cases hs'
        exact hne hn
      | _ => exact hx.elim
    | _ => exact hx.elim
  · exact hx.elim

/-- In every run: visitors are told of nothing that was withdrawn exactly if nothing is
withdrawn by unpublishing, deleting or cascade while a view of it is cached. -/
theorem hides_withdrawn_iff (api : StripeApi σ A) (xs : List (CatalogueRequest ⊕ Env A))
    (hw : HidesWithdrawn api w) :
    AllStates (visit api) (HidesWithdrawn api) xs w ↔
      EachMeets (visit api) (fun x v => ¬ Withdraws x v) xs w :=
  allStates_iff (I := ViewsLive) (fun _ hv => hides_iff.mpr hv) (fun _ _ _ hv hx => hv.visit hx)
    (fun _ _ _ _ hx hhides => not_viewsLive_of_withdraws (not_not.mp hx) (hides_iff.mp hhides))
    (hides_iff.mp hw)

theorem theatre_hides : HidesWithdrawn testMode theatre := by
  refine hides_iff.mpr ⟨fun m hm => ?_, fun s hs => ?_⟩
  · rw [theatre_fresh] at hm
    cases hm
  · rcases hs with hs | ⟨screening, hc, -⟩
    · rw [theatre_fresh] at hs
      cases hs
    · rw [theatre_fresh] at hc
      cases hc

/-- A screening is looked at and cancelled, and then the movie is withdrawn. -/
def calledOffFirst : List (CatalogueRequest ⊕ Env Account.Action) :=
  [.inl (.admin (.publish 1)), .inl (.getScreeningDetail 1), .inl (.getSeatMap 1),
    .inl (.admin (.cancelScreening 1)), .inl (.admin (.unpublish 1))]

theorem called_off_hidden :
    AllStates (visit testMode) (HidesWithdrawn testMode) calledOffFirst theatre :=
  (hides_withdrawn_iff testMode calledOffFirst theatre_hides).mpr (by decide +kernel)

/-- Visitors look up the screenings of a movie, which is then unpublished. -/
def lookedUp : List (CatalogueRequest ⊕ Env Account.Action) :=
  [.inl (.admin (.publish 1)), .inl (.getMovieScreenings 1), .inl (.admin (.unpublish 1))]

theorem unpublished_listed :
    ¬ ∀ xs, AllStates (visit testMode) (HidesWithdrawn testMode) xs theatre := by
  intro h
  have hhides := h lookedUp lookedUp (List.prefix_refl _)
  have hdraft : ((lookedUp.foldl (visit testMode) theatre).db.movies.get 1).all
      (fun movie => movie.status = .draft) = true := by decide +kernel
  have hlisted : ((lookedUp.foldl (visit testMode) theatre).redis.cache
      (.movieScreenings 1)).isSome := by decide +kernel
  have htold := hhides.movie 1 (by
    rintro ⟨movie, hmovie, hst⟩
    rw [Option.mem_def.mp hmovie, Option.all_some, hst] at hdraft
    cases hdraft)
  rw [((movieScreenings_notFound 1).mp htold).1] at hlisted
  cases hlisted

end Visits

end MovieReservation
