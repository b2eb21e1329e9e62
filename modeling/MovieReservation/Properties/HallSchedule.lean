import Mathlib
import MovieReservation.Lib.Run
import MovieReservation.Properties.Deletes

/-! The schedule of a hall: the screenings that are not cancelled occupy it one after the
other. The administration of screenings keeps that, whatever it moves; an edit of a movie
moves the ends of its screenings, and nothing looks at what comes next in their halls. -/

namespace MovieReservation

open Lib Lib.Prog Lib.Table

/-! ### Intervals -/

namespace Db

/-- How many minutes a screening takes. -/
def lasts (db : Db) (s : Screening) : ℕ := ((db.movies.get s.movieId).map Movie.duration).getD 0

def occupied (db : Db) (s : Screening) : Set Time :=
  Set.Ico s.startTime (ScreeningsService.computeEnd s.startTime (db.lasts s))

/-- No two screenings that are not cancelled share a hall and an instant. -/
def HallsApart (db : Db) : Prop :=
  ∀ s ∈ db.screenings.rows, ∀ t ∈ db.screenings.rows, s.id ≠ t.id → s.hallId = t.hallId →
    s.status ≠ .cancelled → t.status ≠ .cancelled → Disjoint (db.occupied s) (db.occupied t)

variable {db db' : Db}

theorem lasts_of_get {s : Screening} {m : Movie} (h : db.movies.get s.movieId = some m) :
    db.lasts s = m.duration := by
  rw [lasts, h]
  rfl

theorem occupied_congr (h : db'.movies.get = db.movies.get) : db'.occupied = db.occupied := by
  funext s
  simp only [occupied, lasts, h]

/-- The test of `findOverlapping`. -/
theorem disjoint_of_not_overlapping {start finish : Time} {s : Screening}
    (h : ScreeningsService.overlapping start finish (s, db.lasts s) = false) :
    Disjoint (Set.Ico start finish) (db.occupied s) := by
  rw [ScreeningsService.overlapping, Bool.and_eq_false_iff, decide_eq_false_iff_not,
    decide_eq_false_iff_not, Int.not_lt, Int.not_lt] at h
  rw [occupied, Set.Ico_disjoint_Ico]
  rcases h with h | h
  · exact (min_le_left _ _).trans (h.trans (le_max_right _ _))
  · exact (min_le_right _ _).trans (h.trans (le_max_left _ _))

/-- What the check leaves free of the other screenings of the hall. -/
theorem free_of_candidates {hallId : ℕ} {start finish : Time} {excludeId : Option ℕ}
    (h : ¬ (db.screeningCandidates hallId excludeId).any
      (ScreeningsService.overlapping start finish) = true) {s : Screening}
    (hs : s ∈ db.screenings.rows) (hhall : s.hallId = hallId) (hst : s.status ≠ .cancelled)
    (hne : excludeId ≠ some s.id) : Disjoint (Set.Ico start finish) (db.occupied s) := by
  obtain ⟨m, hm⟩ := Option.isSome_iff_exists.mp (db.screening_movie s hs)
  have hmem : (s, db.lasts s) ∈ db.screeningCandidates hallId excludeId := by
    refine List.mem_filterMap.mpr
      ⟨s, List.mem_filter.mpr ⟨hs, decide_eq_true ⟨hhall, hst, hne⟩⟩, ?_⟩
    rw [hm, lasts_of_get hm]
    rfl
  refine disjoint_of_not_overlapping (Bool.eq_false_iff.mpr fun hover => h ?_)
  exact List.any_eq_true.mpr ⟨_, hmem, hover⟩

/-- A schedule with one screening that is new or rewritten. -/
theorem HallsApart.place (h : db.HallsApart) (hm : db'.movies.get = db.movies.get) (new : Screening)
    (hrows : ∀ s ∈ db'.screenings.rows, s = new ∨ s ∈ db.screenings.rows ∧ s.id ≠ new.id)
    (hfree : ∀ s ∈ db.screenings.rows, s.id ≠ new.id → s.hallId = new.hallId →
      s.status ≠ .cancelled → new.status ≠ .cancelled →
        Disjoint (db.occupied new) (db.occupied s)) : db'.HallsApart := by
  intro s hs t ht hne hhall hss hts
  rw [occupied_congr hm]
  rcases hrows s hs with rfl | ⟨hs, hsid⟩
  · rcases hrows t ht with rfl | ⟨ht, htid⟩
    · exact absurd rfl hne
    · exact hfree t ht htid hhall.symm hts hss
  · rcases hrows t ht with rfl | ⟨ht, -⟩
    · exact (hfree s hs hsid hhall hss hts).symm
    · exact h s hs t ht hne hhall hss hts

theorem screeningUpdate_rows {id : ℕ} {d : ScreeningData} {s : Screening}
    (h : db.screeningUpdate id d = .ok (s, db')) : db'.movies.get = db.movies.get ∧
      ∀ x ∈ db'.screenings.rows, x = s ∨ x ∈ db.screenings.rows ∧ x.id ≠ s.id := by
  obtain ⟨s₀, hs₀, rfl, ht⟩ := screeningUpdate_eq_ok h
  have hid : s₀.id = id := id_of_get hs₀
  refine ⟨by rw [ht], fun x hx => ?_⟩
  rw [ht] at hx
  rcases (mem_modify d.id_apply).mp hx with ⟨hx, hne⟩ | ⟨y, hy, hyid, rfl⟩
  · exact .inr ⟨hx, fun heq => hne (heq.trans hid)⟩
  · have hget := get_of_mem hy
    rw [hyid, hs₀] at hget
    rw [Option.some.inj hget]
    exact .inl rfl

end Db

/-! ### What the requests read and write -/

section Requests
variable {σ A : Type} {api : StripeApi σ A} {w v : World σ} {α β : Type}

/-! ### The requests keep the halls apart -/

theorem createScreening_apart {dto : Db.ScreeningCreate} {s : Screening} {db : Db}
    (hw : w.db.HallsApart) (ha : (AdminRequest.createScreening dto).Accepts w.db)
    (h : w.db.screeningCreate dto = .ok (s, db)) : db.HallsApart := by
  obtain ⟨movie, hm, -, hnone⟩ := ha
  obtain ⟨rfl, ht⟩ := Db.screeningCreate_eq_ok h
  have hmovies : db.movies.get = w.db.movies.get := by rw [ht]
  refine hw.place hmovies (dto.row w.db.screenings.serial) (fun x hx => ?_)
    fun x hx _ hhall hst _ => ?_
  · rw [ht] at hx
    rcases List.mem_append.mp hx with hx | hx
    · exact .inr ⟨hx, (w.db.screenings.fresh x hx).ne⟩
    · exact .inl (List.mem_singleton.mp hx)
  · have hlast : w.db.lasts (dto.row w.db.screenings.serial) = movie.duration :=
      Db.lasts_of_get hm
    rw [Db.occupied, hlast]
    exact Db.free_of_candidates hnone hx hhall hst nofun

theorem updateScreening_apart {id : ℕ} {dto : ScreeningsService.UpdateScreeningDto}
    {s : Screening} {db : Db} (hw : w.db.HallsApart)
    (ha : ScreeningsService.Accepts w.db id dto)
    (h : w.db.screeningUpdate id { movieId := dto.movieId, hallId := dto.hallId,
                                   startTime := dto.startTime, price := dto.price } = .ok (s, db)) :
    db.HallsApart := by
  obtain ⟨existing, hfound, -, movie, hm, hnone⟩ := ha
  obtain ⟨s₀, hs₀, hnew, -⟩ := Db.screeningUpdate_eq_ok h
  obtain ⟨hmovies, hrows⟩ := Db.screeningUpdate_rows h
  rw [hfound, Option.some.injEq] at hs₀
  subst hs₀ hnew
  have hid : existing.id = id := id_of_get hfound
  refine hw.place hmovies _ hrows fun x hx hne hhall hst _ => ?_
  rw [Db.occupied, Db.lasts_of_get hm]
  refine Db.free_of_candidates hnone hx hhall hst fun heq => hne ?_
  rw [← Option.some.inj heq]
  exact hid.symm

theorem cancelScreening_apart {id : ℕ} {s : Screening} {db : Db} (hw : w.db.HallsApart)
    (h : w.db.screeningUpdate id { status := some .cancelled } = .ok (s, db)) :
    db.HallsApart := by
  obtain ⟨s₀, -, hnew, -⟩ := Db.screeningUpdate_eq_ok h
  obtain ⟨hmovies, hrows⟩ := Db.screeningUpdate_rows h
  subst hnew
  exact hw.place hmovies _ hrows fun _ _ _ _ _ hst => absurd rfl hst

theorem deleteScreening_apart {id : ℕ} {s : Screening} {db : Db} (hw : w.db.HallsApart)
    (h : w.db.screeningDelete id = .ok (s, db)) : db.HallsApart := by
  have ht := Db.screeningDelete_eq_ok h
  have hmovies : db.movies.get = w.db.movies.get := by
    rw [ht]
    funext i
    rw [Db.cascade, get_filter]
    cases w.db.movies.get i <;> rfl
  intro x hx y hy
  rw [Db.occupied_congr hmovies]
  rw [ht] at hx hy
  exact hw x (List.mem_of_mem_filter hx) y (List.mem_of_mem_filter hy)

/-! ### A call that throws -/

variable (api) in
/-- When it throws, the database is as it was. -/
def Atomic (p : M α) : Prop := ∀ w e v, perform api p w = (.error e, v) → v.db = w.db

/-- The requests that plan the halls. -/
def AdminRequest.schedules : AdminRequest → Bool
  | createScreening _ | updateScreening _ _ | cancelScreening _ | deleteScreening _ => true
  | _ => false

theorem schedules_atomic (op : AdminRequest) : Atomic api op.handle := by
  intro w e v h
  rw [(AdminRequest.thrown h).2]

/-- One request after the other. -/
def administer (api : StripeApi σ A) (w : World σ) (op : AdminRequest) : World σ :=
  (perform api op.handle w).2

theorem administer_apart {op : AdminRequest} (h : op.schedules = true) (hw : w.db.HallsApart) :
    (administer api w op).db.HallsApart := by
  by_cases ha : op.Accepts w.db
  · obtain ⟨x, db, hx, hrun⟩ := AdminRequest.accepted api ha
    rw [administer, hrun]
    cases op with
    | createScreening dto => exact createScreening_apart hw ha (World.ok_of_commit hx)
    | updateScreening id dto => exact updateScreening_apart hw ha (World.ok_of_commit hx)
    | cancelScreening id => exact cancelScreening_apart hw (World.ok_of_commit hx)
    | deleteScreening id => exact deleteScreening_apart hw (World.ok_of_commit hx)
    | _ => cases h
  · rw [administer, AdminRequest.refused ha]
    exact hw

/-- From an empty schedule on, whatever is planned, moved, cancelled or deleted, no two
screenings share a hall and an instant, and a request that throws has changed nothing. -/
theorem halls_stay_apart (api : StripeApi σ A) {w : World σ} (hw : w.db.screenings.rows = [])
    (ops : List AdminRequest) (hops : ∀ op ∈ ops, op.schedules = true) :
    AllStates (administer api) (fun v => v.db.HallsApart) ops w ∧
      ∀ op ∈ ops, ∀ v e, (perform api op.handle v).1 = .error e →
        (administer api v op).db = v.db := by
  refine ⟨allStates_of_keeps (I := fun v : World σ => v.db.HallsApart)
    (fun op hop v hv => administer_apart (hops op hop) hv) ?_, ?_⟩
  · intro s hs
    rw [hw] at hs
    cases hs
  · intro op hop v e he
    exact schedules_atomic op v e _ (Prod.ext he rfl)

end Requests

/-- A hall with two movies and nothing planned. -/
def twoMovies : World Account :=
  [AdminRequest.createHall ⟨"Hall 1", 1, 2⟩,
    .createMovie ⟨"Metropolis", "", 153, "", "", 8, "de", "drama"⟩,
    .createMovie ⟨"Sunrise", "", 94, "", "", 8, "en", "drama"⟩].foldl (administer testMode)
      (World.initial ⟨[], []⟩ 0 100)

/-- Two screenings of *Sunrise*, one right after the other; the first then becomes a
screening of *Metropolis*, which is refused, and only half an hour earlier is not. -/
def planned : List AdminRequest :=
  [.createScreening ⟨2, 1, 100 * 60000, 10⟩, .createScreening ⟨2, 1, 194 * 60000, 10⟩,
    .updateScreening 1 { movieId := some 1 },
    .updateScreening 1 { movieId := some 1, startTime := some (41 * 60000) }]

theorem planned_apart :
    AllStates (administer testMode) (fun v => v.db.HallsApart) planned twoMovies ∧
      ∀ op ∈ planned, ∀ v e, (perform testMode op.handle v).1 = .error e →
        (administer testMode v op).db = v.db :=
  halls_stay_apart testMode (by decide +kernel) planned (by decide)

/-! ### Editing a movie -/

namespace Db
variable {db : Db}

theorem disjoint_Ico_iff {a b c d : Time} (hab : a ≤ b) (hbd : b < d) :
    Disjoint (Set.Ico a c) (Set.Ico b d) ↔ c ≤ b := by
  rw [Set.Ico_disjoint_Ico, max_eq_right hab, min_le_iff]
  exact ⟨fun h => h.resolve_right hbd.not_ge, Or.inl⟩

theorem lt_computeEnd (start : Time) {n : ℕ} (hn : 0 < n) :
    start < ScreeningsService.computeEnd start n := by
  have hms : (0 : ℤ) < n * 60000 := by omega
  exact lt_add_of_pos_right start hms

/-- Where every screening takes some time, the halls are apart if whatever starts later, or
at the same time, starts after the end. -/
theorem hallsApart_iff (hpos : ∀ s ∈ db.screenings.rows, 0 < db.lasts s) :
    db.HallsApart ↔ ∀ s ∈ db.screenings.rows, ∀ t ∈ db.screenings.rows, s.id ≠ t.id →
      s.hallId = t.hallId → s.status ≠ .cancelled → t.status ≠ .cancelled →
        s.startTime ≤ t.startTime →
          ScreeningsService.computeEnd s.startTime (db.lasts s) ≤ t.startTime := by
  constructor
  · intro h s hs t ht hne hhall hss hts hle
    exact (disjoint_Ico_iff hle (lt_computeEnd _ (hpos t ht))).mp (h s hs t ht hne hhall hss hts)
  · intro h s hs t ht hne hhall hss hts
    rcases le_total s.startTime t.startTime with hle | hle
    · refine (disjoint_Ico_iff hle (lt_computeEnd _ (hpos t ht))).mpr ?_
      exact h s hs t ht hne hhall hss hts hle
    · refine ((disjoint_Ico_iff hle (lt_computeEnd _ (hpos s hs))).mpr ?_).symm
      exact h t ht s hs hne.symm hhall.symm hts hss hle

/-- With the new duration, the screenings of the movie still end before the next one in
their hall starts. -/
def Fits (db : Db) (movieId : ℕ) (duration : Option ℕ) : Prop :=
  ∀ n ∈ duration, ∀ s ∈ db.screenings.rows, ∀ t ∈ db.screenings.rows, s.movieId = movieId →
    s.hallId = t.hallId → s.status ≠ .cancelled → t.status ≠ .cancelled →
      s.startTime < t.startTime → ScreeningsService.computeEnd s.startTime n ≤ t.startTime

instance (db : Db) (movieId : ℕ) (duration : Option ℕ) : Decidable (db.Fits movieId duration) := by
  unfold Fits
  infer_instance

theorem lasts_pos (hpos : ∀ m ∈ db.movies.rows, 0 < m.duration) {s : Screening}
    (hs : s ∈ db.screenings.rows) : 0 < db.lasts s := by
  obtain ⟨m, hm⟩ := Option.isSome_iff_exists.mp (db.screening_movie s hs)
  rw [lasts_of_get hm]
  exact hpos m (mem_of_get hm)

theorem lasts_movieUpdate {db' : Db} {id : ℕ} {d : MovieData} {m : Movie}
    (h : db.movieUpdate id d = .ok (m, db')) {s : Screening} (hs : s ∈ db.screenings.rows) :
    db'.lasts s = if s.movieId = id then d.duration.getD (db.lasts s) else db.lasts s := by
  obtain ⟨m₀, hm₀⟩ := Option.isSome_iff_exists.mp (db.screening_movie s hs)
  have ht : db'.movies = db.movies.modify id d.apply d.id_apply := by
    rw [movieUpdate_eq_ok h]
  rw [lasts_of_get hm₀, lasts, ht, get_modify, hm₀]
  split_ifs
  · rfl
  · rfl

/-- What the update does to the halls is up to the new duration. -/
theorem movieUpdate_apart_iff {db' : Db} {id : ℕ} {d : MovieData} {m : Movie}
    (hpos : ∀ m ∈ db.movies.rows, 0 < m.duration) (hd : ∀ n ∈ d.duration, 0 < n)
    (hdb : db.HallsApart) (h : db.movieUpdate id d = .ok (m, db')) :
    db'.HallsApart ↔ db.Fits id d.duration := by
  have hrows : db'.screenings.rows = db.screenings.rows := by rw [movieUpdate_eq_ok h]
  have hlong : ∀ s ∈ db.screenings.rows, 0 < db.lasts s := fun s hs => lasts_pos hpos hs
  have hlong' : ∀ s ∈ db'.screenings.rows, 0 < db'.lasts s := by
    intro s hs
    rw [hrows] at hs
    rw [lasts_movieUpdate h hs]
    cases hn : d.duration with
    | none => simpa using hlong s hs
    | some n =>
      have := hd n hn
      have := hlong s hs
      split_ifs <;> assumption
  rw [hallsApart_iff hlong', hrows]
  rw [hallsApart_iff hlong] at hdb
  constructor
  · intro hafter n hn s hs t ht hmovie hhall hss hts hlt
    have hne : s.id ≠ t.id := by
      intro heq
      have hget := get_of_mem hs
      rw [show Row.id s = Row.id t from heq, get_of_mem ht, Option.some.injEq] at hget
      rw [hget] at hlt
      exact lt_irrefl _ hlt
    have hend := hafter s hs t ht hne hhall hss hts hlt.le
    rwa [lasts_movieUpdate h hs, if_pos hmovie, hn] at hend
  · intro hfits s hs t ht hne hhall hss hts hle
    have hbefore := hdb s hs t ht hne hhall hss hts hle
    have hlt : s.startTime < t.startTime := (lt_computeEnd _ (hlong s hs)).trans_le hbefore
    rw [lasts_movieUpdate h hs]
    split_ifs with hmovie
    · cases hn : d.duration with
      | none => exact hbefore
      | some n => exact hfits n hn s hs t ht hmovie hhall hss hts hlt
    · exact hbefore

end Db

/-- An edit of a movie looks at no hall: a longer duration may reach into what comes next. -/
theorem updateMovie_apart_iff {σ A : Type} (api : StripeApi σ A) {w v : World σ} {id : ℕ}
    {dto : MovieData} {movie : Movie} (hpos : ∀ m ∈ w.db.movies.rows, 0 < m.duration)
    (hdto : ∀ n ∈ dto.duration, 0 < n) (hw : w.db.HallsApart)
    (h : perform api (MoviesService.updateMovie id dto) w = (.ok movie, v)) :
    v.db.HallsApart ↔ w.db.Fits id dto.duration := by
  have hrun : (AdminRequest.updateMovie id dto).RunBy api _ w := updateMovie_upshot id dto w
  rw [AdminRequest.RunBy, h] at hrun
  generalize hr : (Except.ok movie, v) = r at hrun
  cases hrun with
  | refused e _ => cases hr
  | done y _ hx =>
    cases hr
    exact Db.movieUpdate_apart_iff (d := { dto with status := none }) hpos hdto hw
      (World.ok_of_commit hx)

/-- Two screenings, one right after the other. -/
def backToBack : World Account :=
  (planned.take 2).foldl (administer testMode) twoMovies

theorem backToBack_apart : backToBack.db.HallsApart :=
  (Db.hallsApart_iff (by decide +kernel)).mpr (by decide +kernel)

/-- *Sunrise* is said to last one minute more. -/
theorem longer_movie_overlaps : ¬ ∀ (w : World Account) (id : ℕ) (dto : MovieData),
    (∀ m ∈ w.db.movies.rows, 0 < m.duration) → (∀ n ∈ dto.duration, 0 < n) → w.db.HallsApart →
      ∀ movie v, perform testMode (MoviesService.updateMovie id dto) w = (.ok movie, v) →
        v.db.HallsApart := by
  intro h
  have hafter := h backToBack 2 { duration := some 95 } (by decide +kernel) (by decide)
    backToBack_apart ⟨2, "Sunrise", "", 95, "", "", 8, "en", "drama", .draft⟩ _
    (Prod.ext (by decide +kernel) rfl)
  revert hafter
  rw [Db.hallsApart_iff (by decide +kernel)]
  decide +kernel

theorem shorter_movie_apart :
    (perform testMode (MoviesService.updateMovie 2 { duration := some 93 })
      backToBack).2.db.HallsApart := by
  have hrun : (perform testMode (MoviesService.updateMovie 2 { duration := some 93 })
      backToBack).1 = .ok ⟨2, "Sunrise", "", 93, "", "", 8, "en", "drama", .draft⟩ := by
    decide +kernel
  exact (updateMovie_apart_iff testMode (by decide +kernel) (by decide) backToBack_apart
    (Prod.ext hrun rfl)).mpr (by decide +kernel)

end MovieReservation
