import MovieReservation.Properties.HallSchedule
import MovieReservation.Properties.Withdrawn

/-! The list of a movie's screenings and the scheduling of screenings. Each write drops the
list of the movie that the screening was of; one that becomes a screening of another movie
is missing from that movie's list until it lapses. -/

namespace MovieReservation

open Lib Lib.Prog Lib.Table

variable {σ A : Type}

/-- Whoever asks for the screenings of a published movie now is told what the database holds. -/
def ListsCurrent (api : StripeApi σ A) (w : World σ) : Prop :=
  ∀ m, w.db.Published m → (perform api (ScreeningsService.getMovieScreenings m) w).1 =
    .ok (w.db.findFutureScheduledByMovie m w.now)

/-- Cached lists of published movies are what the query would return. -/
def ListsTrue (w : World σ) : Prop :=
  ∀ m, w.db.Published m → ∀ screenings ∈ w.redis.cache (.movieScreenings m),
    screenings = w.db.findFutureScheduledByMovie m w.now

/-- Scheduling and reading, with the clock standing still. -/
def Schedules : CatalogueRequest ⊕ Env A → Bool
  | .inl (.admin op) => op.schedules
  | .inr (.advance _) => false
  | _ => true

/-- A future screening becomes one of another movie, whose list is cached. -/
def Misplaces : CatalogueRequest ⊕ Env A → World σ → Prop
  | .inl (.admin (.updateScreening id dto)), w => ScreeningsService.Accepts w.db id dto ∧
    ∃ s ∈ w.db.screenings.get id, ∃ m ∈ dto.movieId, m ≠ s.movieId ∧ w.db.Published m ∧
      (w.redis.cache (.movieScreenings m)).isSome ∧ s.status = .scheduled ∧
        w.now < dto.startTime.getD s.startTime
  | _, _ => False

instance (db : Db) (id : ℕ) : Decidable (db.Published id) := by
  unfold Db.Published
  infer_instance

instance : ∀ (x : CatalogueRequest ⊕ Env A) (w : World σ), Decidable (Misplaces x w)
  | .inl (.admin op), w => by
    induction op using AdminRequest.casesOn <;> unfold Misplaces <;> infer_instance
  | .inl .browseMovies, _ | .inl (.getPublishedMovie _), _ | .inl (.getScreeningDetail _), _
  | .inl (.getMovieScreenings _), _ | .inl (.getSeatMap _), _ | .inr _, _ =>
    inferInstanceAs (Decidable False)

/-! ### The query -/

/-- The screening is one that the movie's list names. -/
def Upcoming (m : ℕ) (now : Time) (s : Screening) : Prop :=
  s.movieId = m ∧ s.status = .scheduled ∧ now < s.startTime

instance (m : ℕ) (now : Time) : DecidablePred (Upcoming m now) := fun s =>
  inferInstanceAs (Decidable (s.movieId = m ∧ s.status = .scheduled ∧ now < s.startTime))

namespace Db
variable {db db' : Db} {id m : ℕ} {now : Time}

theorem findFuture_congr (hh : db'.halls.get = db.halls.get)
    (hs : db'.screenings.rows.filter (Upcoming m now) =
      db.screenings.rows.filter (Upcoming m now)) :
    db'.findFutureScheduledByMovie m now = db.findFutureScheduledByMovie m now := by
  unfold findFutureScheduledByMovie
  rw [hh]
  change List.insertionSort _ (List.filterMap _ (db'.screenings.rows.filter (Upcoming m now))) = _
  rw [hs]
  rfl

theorem mem_findFuture {f : FutureScreening} : f ∈ db.findFutureScheduledByMovie m now ↔
    ∃ s ∈ db.screenings.rows, Upcoming m now s ∧
      ∃ hall ∈ db.halls.get s.hallId, f = ⟨s.id, s.startTime, s.price, hall⟩ := by
  simp only [findFutureScheduledByMovie, List.mem_insertionSort, List.mem_filterMap,
    List.mem_filter, decide_eq_true_eq, Option.map_eq_some_iff, Upcoming, and_assoc]
  refine exists_congr fun s => and_congr_right fun _ => and_congr_right fun _ =>
    and_congr_right fun _ => and_congr_right fun _ => exists_congr fun hall => ?_
  exact and_congr_right fun _ => eq_comm

theorem findFuture_create {d : ScreeningCreate} {x : Screening}
    (h : db.screeningCreate d = .ok (x, db')) (hm : m ≠ d.movieId) :
    db'.findFutureScheduledByMovie m now = db.findFutureScheduledByMovie m now := by
  obtain ⟨-, ht⟩ := screeningCreate_eq_ok h
  refine findFuture_congr (by rw [ht]) ?_
  have hnot : ¬ Upcoming m now (d.row db.screenings.serial) := fun hu => hm hu.1.symm
  rw [ht, rows_insert, List.filter_append, List.filter_singleton, decide_eq_false hnot]
  exact List.append_nil _

/-- An update of a screening that the list names neither before nor after. -/
theorem findFuture_update {d : ScreeningData} {x s : Screening}
    (h : db.screeningUpdate id d = .ok (x, db')) (hs : db.screenings.get id = some s)
    (hbefore : ¬ Upcoming m now s) (hafter : ¬ Upcoming m now (d.apply s)) :
    db'.findFutureScheduledByMovie m now = db.findFutureScheduledByMovie m now := by
  obtain ⟨_, -, -, ht⟩ := screeningUpdate_eq_ok h
  refine findFuture_congr (by rw [ht]) ?_
  rw [ht]
  refine filter_rows_modify d.id_apply fun r hr => ?_
  obtain rfl : s = r := Option.some.inj (hs.symm.trans hr)
  exact ⟨decide_eq_false hbefore, decide_eq_false hafter⟩

theorem findFuture_delete {x s : Screening} (h : db.screeningDelete id = .ok (x, db'))
    (hs : db.screenings.get id = some s) (hm : m ≠ s.movieId) :
    db'.findFutureScheduledByMovie m now = db.findFutureScheduledByMovie m now := by
  rw [screeningDelete_eq_ok h]
  refine findFuture_congr ?_ ?_
  · funext i
    rw [cascade, get_filter]
    cases db.halls.get i <;> rfl
  · rw [cascade, rows_filter, List.filter_filter]
    refine List.filter_congr fun r hr => ?_
    have hkept : Upcoming m now r → db.KeptScreening (fun _ => true) (fun _ => true)
        (fun s => s.id ≠ id) r := by
      intro hu
      refine ⟨decide_eq_true fun hid => hm ?_, fun _ _ => rfl, fun _ _ => rfl⟩
      have hget := get_of_mem hr
      rw [show Row.id r = id from hid, hs, Option.some.injEq] at hget
      rw [hget]
      exact hu.1.symm
    by_cases hu : Upcoming m now r
    · rw [decide_eq_true hu, (cascade_screening hr).mpr (hkept hu)]
      rfl
    · rw [decide_eq_false hu]
      rfl

/-- A future screening is on the list of the movie that it becomes one of. -/
theorem findFuture_moved {d : ScreeningData} {x s : Screening}
    (h : db.screeningUpdate id d = .ok (x, db')) (hs : db.screenings.get id = some s)
    (hm : d.movieId = some m) (hst : (d.apply s).status = .scheduled)
    (hstart : now < (d.apply s).startTime) :
    ∃ f ∈ db'.findFutureScheduledByMovie m now, f.id = id := by
  obtain ⟨_, -, -, ht⟩ := screeningUpdate_eq_ok h
  have hget : db'.screenings.get id = some (d.apply s) := by
    rw [ht, get_modify, if_pos rfl, hs, Option.map_some]
  have hmem : d.apply s ∈ db'.screenings.rows := mem_of_get hget
  obtain ⟨hall, hhall⟩ := Option.isSome_iff_exists.mp (db'.screening_hall _ hmem)
  refine ⟨_, mem_findFuture.mpr ⟨_, hmem, ⟨?_, hst, hstart⟩, hall, hhall, rfl⟩, id_of_get hget⟩
  rw [ScreeningData.apply, hm, Option.getD_some]

end Db

/-! ### One visit -/

section Visits
variable {api : StripeApi σ A} {w v : World σ}

theorem current_iff : ListsCurrent api w ↔ ListsTrue w := by
  constructor
  · intro h m hm screenings hc
    have htold := h m hm
    rw [perform_getMovieScreenings, Option.mem_def.mp hc] at htold
    exact Except.ok.inj htold
  · intro h m hm
    rw [perform_getMovieScreenings]
    cases hc : w.redis.cache (.movieScreenings m) with
    | some screenings => rw [h m hm screenings hc]
    | none =>
      cases hfound : w.db.findPublishedById m with
      | none => exact absurd hm (Db.findPublishedById_eq_none.mp hfound)
      | some movie => rfl

/-- No list is cached anew, and the query returns what it did for those that still are. -/
theorem ListsTrue.mono (h : ListsTrue w)
    (hcache : ∀ m, ∀ x ∈ v.redis.cache (.movieScreenings m),
      w.redis.cache (.movieScreenings m) = some x)
    (hpublished : ∀ m, v.db.Published m → w.db.Published m)
    (hquery : ∀ m, v.db.Published m → (v.redis.cache (.movieScreenings m)).isSome →
      v.db.findFutureScheduledByMovie m v.now = w.db.findFutureScheduledByMovie m w.now) :
    ListsTrue v := by
  intro m hm screenings hc
  rw [hquery m hm (Option.isSome_iff_exists.mpr ⟨screenings, hc⟩)]
  exact h m (hpublished m hm) screenings (hcache m screenings hc)

theorem ListsTrue.cached (h : ListsTrue w) {k : CacheKey} (x : k.Value)
    (hk : ∀ m, k ≠ .movieScreenings m) : ListsTrue (w.cached k x) := by
  refine h.mono (fun m y hy => ?_) (fun _ hm => hm) fun _ _ _ => rfl
  rwa [World.cached_of_ne (hk m).symm] at hy

theorem ListsTrue.read (h : ListsTrue w) (hr : ReadLeaves w v) : ListsTrue v := by
  cases hr with
  | same => exact h
  | movie => exact h.cached _ nofun
  | lists => exact (h.cached (k := .nowShowing) _ nofun).cached _ nofun
  | detail => exact h.cached _ nofun
  | screenings =>
    rename_i movieId _
    intro m hm screenings hc
    by_cases heq : m = movieId
    · subst heq
      rw [World.cached_self] at hc
      exact (Option.some.inj hc).symm
    · rw [World.cached_of_ne fun hk => heq (CacheKey.movieScreenings.inj hk)] at hc
      exact h m hm screenings hc
  | seatMap => exact h.cached _ nofun

/-- The list of the movie that a screening was of is dropped with its other views. -/
theorem not_movie_of_kept {id m : ℕ} {s : Screening} (hs : w.db.screenings.get id = some s)
    (hm : CacheKey.movieScreenings m ∉ AdminRequest.viewsOf w.db id) : m ≠ s.movieId := by
  rintro rfl
  refine hm (List.mem_append_right _ ?_)
  rw [hs]
  exact List.mem_singleton_self _

theorem ListsTrue.admin (h : ListsTrue w) {op : AdminRequest} (hop : op.schedules = true)
    (hplaced : ¬ Misplaces (.inl (.admin op) : CatalogueRequest ⊕ Env A) w) :
    ListsTrue (perform api op.handle w).2 := by
  by_cases ha : op.Accepts w.db
  · obtain ⟨x, db, hx, hrun⟩ := AdminRequest.accepted api ha
    rw [hrun]
    have hpublished : ∀ m, db.Published m ↔ w.db.Published m := by
      intro m
      have ho : op.editsMovies = false := by
        cases op <;> first | rfl | cases hop
      rw [Db.Published, Db.Published, AdminRequest.sameMovies hx ho]
    refine h.mono (fun m y hy => (Redis.mem_of_del hy).2) (fun m => (hpublished m).mp)
      fun m hm hc => ?_
    obtain ⟨y, hy⟩ := Option.isSome_iff_exists.mp hc
    obtain ⟨hkept, hcached⟩ := Redis.mem_of_del hy
    cases op with
    | createScreening dto =>
      refine Db.findFuture_create (World.ok_of_commit hx) ?_
      rintro rfl
      exact hkept (by simp [AdminRequest.drops])
    | updateScreening id dto =>
      have haccepts : ScreeningsService.Accepts w.db id dto := ha
      obtain ⟨s, hs, -⟩ := haccepts
      have hne : m ≠ s.movieId := not_movie_of_kept hs hkept
      refine Db.findFuture_update (World.ok_of_commit hx) hs (fun hu => hne hu.1.symm) ?_
      rintro ⟨hmovie, hst, hstart⟩
      cases hd : dto.movieId with
      | none =>
        rw [ScreeningData.apply, hd] at hmovie
        exact hne hmovie.symm
      | some m' =>
        rw [ScreeningData.apply, hd] at hmovie
        obtain rfl : m' = m := hmovie
        refine hplaced ⟨ha, s, hs, m', hd, hne, (hpublished m').mp hm, ?_, hst, hstart⟩
        exact Option.isSome_iff_exists.mpr ⟨y, hcached⟩
    | cancelScreening id =>
      obtain ⟨s, hs, -⟩ := ha
      have hne : m ≠ s.movieId := not_movie_of_kept hs hkept
      refine Db.findFuture_update (World.ok_of_commit hx) hs (fun hu => hne hu.1.symm) ?_
      rintro ⟨-, hst, -⟩
      cases hst
    | deleteScreening id =>
      obtain ⟨s, hs⟩ := Option.isSome_iff_exists.mp ha.1
      exact Db.findFuture_delete (World.ok_of_commit hx) hs (not_movie_of_kept hs hkept)
    | _ => cases hop
  · rw [AdminRequest.refused ha]
    exact h

theorem ListsTrue.visit (h : ListsTrue w) {x : CatalogueRequest ⊕ Env A}
    (hx : Schedules x = true) (hplaced : ¬ Misplaces x w) : ListsTrue (visit api w x) := by
  refine visit_rule (fun op heq => ?_) (fun v hr => h.read hr) fun e heq => ?_
  · subst heq
    exact h.admin hx hplaced
  · subst heq
    cases e with
    | advance ms => cases hx
    | evict k =>
      exact h.mono (fun m y hy => (Redis.mem_of_del hy).2) (fun _ hm => hm) fun _ _ _ => rfl
    | stripe a => exact h.mono (fun m y hy => hy) (fun _ hm => hm) fun _ _ _ => rfl

/-- The list of the movie that it comes to lacks the screening. -/
theorem ListsTrue.misplaces (h : ListsTrue w) {x : CatalogueRequest ⊕ Env A}
    (hx : Misplaces x w) : ¬ ListsTrue (MovieReservation.visit api w x) := by
  rcases x with r | e
  · cases r with
    | admin op =>
      rw [MovieReservation.visit, CatalogueRequest.handle, perform_map]
      cases op with
      | updateScreening id dto =>
        obtain ⟨ha, s, hs, m, hd, hne, hpublished, hc, hst, hstart⟩ := hx
        obtain ⟨screenings, hc⟩ := Option.isSome_iff_exists.mp hc
        have haccepts : (AdminRequest.updateScreening id dto).Accepts w.db := ha
        obtain ⟨y, db, hy, hrun⟩ := AdminRequest.accepted api haccepts
        rw [hrun]
        intro htrue
        have hkept : CacheKey.movieScreenings m ∉ AdminRequest.viewsOf w.db id := by
          rw [AdminRequest.viewsOf, Option.mem_def.mp hs]
          simpa using hne
        have hcached : (w.redis.del (AdminRequest.viewsOf w.db id)).cache (.movieScreenings m) =
            some screenings := by
          rw [Redis.cache_del, if_neg hkept]
          exact hc
        have hafter := htrue m (by rwa [Db.Published, AdminRequest.sameMovies hy rfl]) screenings
          hcached
        have hbefore := h m hpublished screenings hc
        have hlisted := Db.findFuture_moved (World.ok_of_commit hy) hs hd hst hstart
        obtain ⟨f, hf, hid⟩ := hlisted
        rw [← hafter, hbefore] at hf
        obtain ⟨s', hs', hu, hall, -, rfl⟩ := Db.mem_findFuture.mp hf
        have hget := get_of_mem hs'
        rw [show Row.id s' = id from hid, Option.mem_def.mp hs, Option.some.injEq] at hget
        rw [← hget] at hu
        exact hne hu.1.symm
      | _ => exact hx.elim
    | _ => exact hx.elim
  · exact hx.elim

/-- In every run of scheduling and reads at one instant: visitors are told what the database
holds exactly if no future screening becomes one of a movie whose list is cached. -/
theorem lists_current_iff (api : StripeApi σ A) {xs : List (CatalogueRequest ⊕ Env A)}
    (hxs : ∀ x ∈ xs, Schedules x = true) (hw : ListsCurrent api w) :
    AllStates (visit api) (ListsCurrent api) xs w ↔
      EachMeets (visit api) (fun x v => ¬ Misplaces x v) xs w :=
  allStates_iff (I := ListsTrue) (fun _ hv => current_iff.mpr hv)
    (fun x hx _ hv hplaced => hv.visit (hxs x hx) hplaced)
    (fun _ _ _ hv hplaced hcurrent =>
      hv.misplaces (not_not.mp hplaced) (current_iff.mp hcurrent)) (current_iff.mp hw)

/-- The hall of `theatre`, with two published movies and a screening of the first. -/
def twoPremieres : World Account :=
  [AdminRequest.publish 1, .createMovie ⟨"Sunrise", "", 94, "", "", 8, "en", "drama"⟩,
    .publish 2].foldl (administer testMode) theatre

theorem two_premieres_lists : ListsCurrent testMode twoPremieres := by
  have hfresh : ∀ k, twoPremieres.redis.cache k = none :=
    admin_cache_none _ (admin_cache_none _ (admin_cache_none _ theatre_fresh))
  refine current_iff.mpr fun m _ screenings hc => ?_
  rw [hfresh] at hc
  cases hc

/-- The screening moves to the second movie, whose list is read only then. -/
def movedFirst : List (CatalogueRequest ⊕ Env Account.Action) :=
  [.inl (.getMovieScreenings 1), .inl (.admin (.updateScreening 1 { movieId := some 2 })),
    .inl (.getMovieScreenings 2)]

theorem moved_first_current :
    AllStates (visit testMode) (ListsCurrent testMode) movedFirst twoPremieres :=
  (lists_current_iff testMode (by decide) two_premieres_lists).mpr (by decide +kernel)

/-- The list of the second movie is read, and then the screening moves there. -/
def readFirst : List (CatalogueRequest ⊕ Env Account.Action) :=
  [.inl (.getMovieScreenings 2), .inl (.admin (.updateScreening 1 { movieId := some 2 }))]

theorem read_first_lacks : ¬ ∀ xs, (∀ x ∈ xs, Schedules x = true) →
    AllStates (visit testMode) (ListsCurrent testMode) xs twoPremieres := by
  intro h
  have hcurrent := h readFirst (by decide) readFirst (List.prefix_refl _)
  have hpublished : (readFirst.foldl (visit testMode) twoPremieres).db.Published 2 := by
    decide +kernel
  have hlacks : ¬ ∀ screenings ∈ (readFirst.foldl (visit testMode) twoPremieres).redis.cache
      (.movieScreenings 2), screenings =
        (readFirst.foldl (visit testMode) twoPremieres).db.findFutureScheduledByMovie 2
          (readFirst.foldl (visit testMode) twoPremieres).now := by
    decide +kernel
  exact hlacks (current_iff.mp hcurrent 2 hpublished)

end Visits

end MovieReservation
