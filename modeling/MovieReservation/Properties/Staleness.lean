import MovieReservation.Services.TestMode
import MovieReservation.Services.Views

/-! How stale a view can be. Whatever fails, and whatever was not dropped in time, no visitor is
shown a view that is older than the lifetime it was cached with. -/

namespace MovieReservation

open Lib Lib.Prog Lib.Table Lib.System

variable {σ A : Type} {api : StripeApi σ A}

/-! ### Requests that cache nothing -/

abbrev Unset {α : Type} (p : M α) : Prop := Only (fun c => c.sets = false) p

section Unset

theorem unset_request {c : Cmd} (h : c.sets = false) : Unset (request c) :=
  (only_issue c).mpr h

theorem unset_of_plain {α : Type} {p : M α} (h : Only (fun c => c.plain = true) p) : Unset p :=
  h.mono fun c hc => by
    cases c with
    | cacheSet k v => cases hc
    | _ => rfl

/-- Of the booking requests only the seat map caches what it finds. -/
theorem BookingRequest.handle_unset {op : BookingRequest} (h : ∀ s, op ≠ .getSeatMap s) :
    Unset op.handle := by
  by_cases hsweep : op = .expireHolds
  · subst hsweep
    refine Only.bind (Only.tryCatch ?_ fun _ => trivial) fun _ => trivial
    refine Only.bind (unset_request rfl) fun t => Only.bind (unset_request rfl) fun rows => ?_
    refine Only.bind (Only.forM (fun g => ?_) _) fun _ => Only.forM (fun r => ?_) _
    · exact unset_request rfl
    · exact unset_request rfl
  · exact unset_of_plain (op.handle_plain hsweep h)

theorem AdminRequest.handle_unset (op : AdminRequest) : Unset op.handle :=
  op.handle_only.mono fun c hc => by
    cases c with
    | cacheSet k v =>
      cases hc with
      | read _ hstill => cases hstill
    | _ => rfl

/-- A request writes no cache, or it writes nothing else. -/
theorem AppRequest.handle_cases (r : AppRequest) :
    Only (fun c => ∀ k v, c ≠ .inl (.cacheSet k v)) r.handle ∨ Informed AppReads [] r.handle := by
  have hunset : ∀ {α β : Type} {p : M α} {f : α → β}, Unset p →
      Only (fun c => ∀ k v, c ≠ .inl (.cacheSet k v)) (f <$> (p.left : AppM α)) := by
    intro α β p f hp
    rw [map_eq]
    refine Only.bind (hp.left fun c hc k v he => ?_) fun _ => trivial
    exact Cmd.ne_of_unset hc k v (Sum.inl.inj he)
  have hreads : ∀ {α β : Type} {p : M α} {f : α → β}, (∀ l, Informed Reads l p) →
      Informed AppReads [] (f <$> (p.left : AppM α)) := by
    intro α β p f hp
    rw [map_eq]
    exact (left_reads hp []).bind fun _ _ => trivial
  have hmap : ∀ {α β : Type} {p : M α} (f : α → β) (l : Trail), Informed Reads l p →
      Informed Reads l (f <$> p) := by
    intro α β p f l hp
    rw [map_eq]
    exact hp.bind fun _ _ => trivial
  cases r with
  | catalogue r =>
    cases r with
    | admin op =>
      refine .inl (hunset ?_)
      rw [CatalogueRequest.handle, map_eq]
      exact Only.bind op.handle_unset fun _ => trivial
    | browseMovies =>
      exact .inr (hreads fun l => hmap _ l (MoviesService.browseMovies_reads l).1)
    | getPublishedMovie id =>
      exact .inr (hreads fun l => hmap _ l (MoviesService.getPublishedMovie_reads id l).1)
    | getScreeningDetail id =>
      exact .inr (hreads fun l => hmap _ l (ScreeningsService.getScreeningDetail_reads id l).1)
    | getMovieScreenings id =>
      exact .inr (hreads fun l => hmap _ l (ScreeningsService.getMovieScreenings_reads id l).1)
    | getSeatMap id =>
      exact .inr (hreads fun l => hmap _ l (ScreeningsService.getSeatMap_reads id l).1)
  | listHalls =>
    refine .inr ?_
    rw [AppRequest.handle, map_eq]
    exact (listHalls_reads []).1.bind fun _ _ => trivial
  | booking op =>
    by_cases h : ∃ s, op = .getSeatMap s
    · obtain ⟨s, rfl⟩ := h
      exact .inr (hreads fun l => hmap _ l (ScreeningsService.getSeatMap_reads s l).1)
    · exact .inl (hunset (BookingRequest.handle_unset fun s he => h ⟨s, he⟩))
  | listener e =>
    cases e with
    | cache e =>
      refine .inl (hunset ?_)
      cases e with
      | created s seats | cancelled s seats =>
        exact Only.tryCatch (unset_request rfl) fun _ => trivial
      | confirmed s seats | holdExpired u s seat => trivial
    | broadcast e =>
      refine .inr (hreads fun l => ?_)
      have hbroadcast : ∀ s, Informed Reads l (ReservationBroadcastListener.broadcast s) := by
        intro s
        refine Informed.tryCatch (Informed.bind ?_ fun summary l' => ?_) fun _ _ => trivial
        · exact (ScreeningsService.getSeatMap_reads s l).1.bind fun _ _ => trivial
        · exact Quiet.reads ((only_issue _).mpr ⟨rfl, rfl⟩)
      cases e with
      | created s seats | cancelled s seats | confirmed s seats => exact hbroadcast s
      | holdExpired u s seat => exact Quiet.reads ((only_issue _).mpr ⟨rfl, rfl⟩)

end Unset

/-! ### What is cached -/

/-- Every key that is set has a lifetime left, and shows what was so at a moment that lies no
farther back than that lifetime allows. -/
def Dated (past : List (World σ)) (t : Timed σ) : Prop :=
  ∀ k v, t.world.redis.cache k = some v → t.world.now < t.expires k ∧
    ∃ w ∈ past, t.expires k ≤ w.now + k.ttlSeconds * 1000 ∧ ViewOf w k v

def AppTrueAt (past : List (World σ)) (w : World σ) : Answer AppCmd AppReply Err → Prop
  | ⟨.inl c, r⟩ => TrueAt past w ⟨c, r⟩
  | ⟨.inr .listHalls, .ok halls⟩ => halls = w.db.listHalls
  | _ => True

section Dated
variable {past : List (World σ)} {w : World σ} {t : Timed σ} {k : CacheKey} {v : k.Value}

theorem Dated.recent (h : Dated past t) (hv : t.world.redis.cache k = some v) :
    Recent past t.world.now k v := by
  obtain ⟨hlt, w, hw, hle, hshows⟩ := h k v hv
  exact ⟨w, hw, lt_of_lt_of_le hlt hle, hshows⟩

theorem Dated.mono (h : Dated past t) {past' : List (World σ)} (hpast : past ⊆ past') :
    Dated past' t := by
  intro k v hv
  obtain ⟨hlt, w, hw, hle, hshows⟩ := h k v hv
  exact ⟨hlt, w, hpast hw, hle, hshows⟩

theorem AppDrawn.shows {l : AppTrail} (h : AppDrawn l k v) (hl : ∀ a ∈ l, AppTrueAt past w a) :
    ViewOf w k v := by
  cases h with
  | view h =>
    have hlefts : ∀ a ∈ lefts l, TrueAt past w a := fun a ha => hl _ (mem_lefts.mp ha)
    exact h.shows hlefts
  | halls h => exact hl _ h

theorem AppSeen.recent {l : AppTrail} (h : AppSeen k l v) (hl : ∀ a ∈ l, AppTrueAt past w a)
    (hw : w ∈ past) : Recent past w.now k v := by
  rcases h with hmem | hdrawn
  · exact hl _ hmem
  · exact (hdrawn.shows hl).recent hw

theorem appTrueAt_error (c : AppCmd) (e : Err) : AppTrueAt past w ⟨c, .error e⟩ := by
  rcases c with c | ⟨⟩
  · cases c <;> trivial
  · trivial

/-- A command that caches nothing leaves less in the cache, or what was there. -/
theorem cache_of_unset {c : Cmd} (hc : c.sets = false)
    (hv : (World.exec api c w).2.redis.cache k = some v) : w.redis.cache k = some v := by
  cases c with
  | cacheSet k' v' => cases hc
  | cacheDel keys => exact (Redis.mem_of_del hv).2
  | acquire =>
    simp only [World.exec] at hv
    split_ifs at hv <;> exact hv
  | paymentFindById id => cases id <;> exact hv
  | paymentFindByStripePaymentId i => cases i <;> exact hv
  | paymentUpdate id d =>
    cases id with
    | none => exact hv
    | some id => exact (congrArg (fun r : Redis => r.cache k) (w.commit_redis _)).symm.trans hv
  | _ =>
    first
      | exact hv
      | exact (congrArg (fun r : Redis => r.cache k) (w.commit_redis _)).symm.trans hv

theorem Timed.exec_inl (c : Cmd) (t : Timed σ) : (Timed.exec api (.inl c) t).1 =
    (World.exec api c t.world).1 ∧
      (Timed.exec api (.inl c) t).2.world = (World.exec api c t.world).2 := by
  cases c <;> exact ⟨rfl, rfl⟩

theorem Timed.exec_expires {c : Cmd} (hc : c.sets = false) (t : Timed σ) :
    (Timed.exec api (.inl c) t).2.expires = t.expires := by
  cases c with
  | cacheSet k v => cases hc
  | _ => rfl

theorem Timed.exec_now (c : AppCmd) (t : Timed σ) :
    (Timed.exec api c t).2.world.now = t.world.now := by
  rcases c with c | ⟨⟩
  · rw [(Timed.exec_inl c t).2, World.exec_now]
  · rfl

theorem Dated.unset (h : Dated past t) {c : AppCmd} (hc : ∀ k v, c ≠ .inl (.cacheSet k v)) :
    Dated past (Timed.exec api c t).2 := by
  rcases c with c | ⟨⟩
  · have hsets : c.sets = false := by
      cases c with
      | cacheSet k v => exact absurd rfl (hc k v)
      | _ => rfl
    intro k v hv
    rw [Timed.exec_now, Timed.exec_expires hsets]
    rw [(Timed.exec_inl c t).2] at hv
    exact h k v (cache_of_unset hsets hv)
  · exact h

/-- A key that is set to what the moment shows. -/
theorem Dated.set (h : Dated past t) (hw : w ∈ past) (hnow : t.world.now = w.now)
    (hv : ViewOf w k v) : Dated past (Timed.exec api (.inl (.cacheSet k v)) t).2 := by
  intro k' v' hv'
  have hcache : Function.update t.world.redis.cache k (some v) k' = some v' := hv'
  change t.world.now < Function.update t.expires k (t.world.now + k.ttlSeconds * 1000) k' ∧
    ∃ w ∈ past, Function.update t.expires k (t.world.now + k.ttlSeconds * 1000) k' ≤ _ ∧ _
  by_cases hk : k' = k
  · subst hk
    rw [Function.update_self] at hcache ⊢
    cases hcache
    exact ⟨Int.lt_add_of_pos_right _ k'.ttl_pos, w, hw, by rw [hnow], hv⟩
  · rw [Function.update_of_ne hk] at hcache ⊢
    exact h k' v' hcache

theorem Dated.elapse (h : Dated past t) (e : Env A) : Dated past (t.elapse api e) := by
  cases e with
  | advance ms =>
    intro k v hv
    have hcache : (if t.expires k ≤ t.world.now + ms then none
      else t.world.redis.cache k) = some v := hv
    split_ifs at hcache with hover
    obtain ⟨-, hshown⟩ := h k v hcache
    exact ⟨not_le.mp hover, hshown⟩
  | evict k' =>
    intro k v hv
    exact h k v (Redis.mem_of_del hv).2
  | stripe a => exact h

end Dated

/-! ### One request -/

section Request
variable {past : List (World σ)} {w : World σ} {t t' : Timed σ} {os : List (Outcome Err)}
  {cs : List AppCmd}

/-- What a read may rely on, and keeps: the database and the clock of the moment in which it
runs, and what it was answered. -/
structure Reading (past : List (World σ)) (w : World σ) (l : AppTrail) (t : Timed σ) : Prop where
  db : t.world.db = w.db
  now : t.world.now = w.now
  dated : Dated past t
  answers : ∀ a ∈ l, AppTrueAt past w a

theorem Reading.answer {l : AppTrail} (h : Reading past w l t) (c : AppCmd) :
    AppTrueAt past w ⟨c, (Timed.exec api c t).1⟩ := by
  rcases c with c | ⟨⟩
  · rw [AppTrueAt, (Timed.exec_inl c t).1]
    cases c with
    | dateNow => exact h.now
    | cacheGet k =>
      change TrueAt past w ⟨.cacheGet k, .ok (t.world.redis.cache k)⟩
      cases hv : t.world.redis.cache k with
      | none => trivial
      | some v =>
        have hrecent := h.dated.recent hv
        rwa [h.now] at hrecent
    | screeningFindById id => exact congrArg (Db.screeningFindById · id) h.db
    | findSeatsByHall id => exact congrArg (Db.findSeatsByHall · id) h.db
    | findActiveReservations id => exact congrArg (Db.findActiveReservations · id) h.db
    | findPublishedById id => exact congrArg (Db.findPublishedById · id) h.db
    | findFutureScheduledByMovie id t => exact congrArg (Db.findFutureScheduledByMovie · id t) h.db
    | findPublishedForBrowse t => exact congrArg (Db.findPublishedForBrowse · t) h.db
    | _ => trivial
  · exact congrArg Db.listHalls h.db

theorem Reading.step (hw : w ∈ past) {l : AppTrail} {c : AppCmd} (hc : AppReads l c)
    (h : Reading past w l t) {o : Outcome Err} {out : Except Err (AppReply c) × Timed σ}
    (hout : (appSystem api).finish 0 c t o = some out) :
    Reading past w (l ++ [⟨c, out.1⟩]) out.2 := by
  have hexec : Reading past w l (Timed.exec api c t).2 := by
    refine ⟨?_, (Timed.exec_now c t).trans h.now, ?_, h.answers⟩
    · rcases c with c | ⟨⟩
      · rw [(Timed.exec_inl c t).2, World.exec_quiet api hc.1]
        exact h.db
      · exact h.db
    · by_cases hset : ∃ k v, c = .inl (.cacheSet k v)
      · obtain ⟨k, v, rfl⟩ := hset
        exact h.dated.set hw h.now ((hc.2 k v rfl).shows h.answers)
      · exact h.dated.unset fun k v he => hset ⟨k, v, he⟩
  have hstate : Reading past w l out.2 := by
    rcases finish_state _ hout with hs | hs
    · rw [hs]
      exact h
    · rw [hs]
      exact hexec
  refine ⟨hstate.db, hstate.now, hstate.dated, List.forall_mem_append.mpr ⟨h.answers, ?_⟩⟩
  rw [List.forall_mem_singleton]
  rcases finish_cases _ hout with ⟨-, rfl⟩ | ⟨e, -, rfl⟩ | ⟨e, -, rfl⟩
  · exact h.answer c
  · exact appTrueAt_error c e
  · exact appTrueAt_error c e

/-- A read returns what is recent, wherever its commands fail. -/
theorem reading_attempt {α : Type} {p : AppM α} {K : AppTrail → α → Prop} {r : Except Err α}
    (hp : Informed AppReads [] p) (hq : Yields (Knows K) [] p) (ht : Dated past t)
    (hpast : t.world ∈ past) (h : (appSystem api).attempt 0 os p t = some (cs, r, t')) :
    ∃ l, Reading past t.world l t' ∧ ∀ v, r = .ok v → K l v :=
  attempt_rule (I := Reading past t.world) (fun _ _ _ _ _ hc hl hout => hl.step hpast hc hout)
    hp hq ⟨rfl, rfl, ht, List.forall_mem_nil _⟩ h

theorem Dated.attempt {r : AppRequest} {a : Except Err AppResponse} (h : Dated past t)
    (hpast : t.world ∈ past)
    (ha : (appSystem api).attempt 0 os r.handle t = some (cs, a, t')) : Dated past t' := by
  rcases r.handle_cases with hunset | hreads
  · exact attempt_keeps (I := Dated past) (fun c s hc hs => hs.unset hc) hunset h ha
  · obtain ⟨l, hl, -⟩ := reading_attempt (K := fun _ _ => True) hreads
      (yields_of (fun _ _ _ _ => trivial) _) h hpast ha
    exact hl.dated

end Request

/-! ### Whole runs -/

section Run

/-- The worlds between the requests of a run. -/
def moments (api : StripeApi σ A) : List (AppTurn A) → Timed σ → List (World σ)
  | [], t => [t.world]
  | x :: xs, t => t.world :: match (appSystem api).serve x t with
    | some t' => moments api xs t'
    | none => []

/-- No answer to a visitor is older than the lifetime of the view. -/
structure NothingStale (api : StripeApi σ A) (past : List (World σ)) (t : Timed σ) : Prop where
  movie : ∀ id movie, AppAnswers api t (.catalogue (.getPublishedMovie id))
    (.catalogue (.movie movie)) → ∃ w ∈ past,
      t.world.now < w.now + MoviesCache.movieTtlSeconds * 1000 ∧
        w.db.findPublishedById id = some movie
  /-- The two lists are cached under two keys, so they may be of two moments. -/
  lists : ∀ lists, AppAnswers api t (.catalogue .browseMovies) (.catalogue (.lists lists)) →
    (∃ w ∈ past, t.world.now < w.now + MoviesCache.listTtlSeconds * 1000 ∧ lists.nowShowing =
      (MoviesService.split (w.db.findPublishedForBrowse w.now)).nowShowing) ∧
    ∃ w ∈ past, t.world.now < w.now + MoviesCache.listTtlSeconds * 1000 ∧ lists.comingSoon =
      (MoviesService.split (w.db.findPublishedForBrowse w.now)).comingSoon
  detail : ∀ id screening, AppAnswers api t (.catalogue (.getScreeningDetail id))
    (.catalogue (.screening screening)) → ∃ w ∈ past,
      t.world.now < w.now + ScreeningsCache.screeningDetailTtlSeconds * 1000 ∧
        w.db.screeningFindById id = some screening ∧ screening.status ≠ .cancelled
  screenings : ∀ id screenings, AppAnswers api t (.catalogue (.getMovieScreenings id))
    (.catalogue (.screenings screenings)) → ∃ w ∈ past,
      t.world.now < w.now + ScreeningsCache.movieScreeningsTtlSeconds * 1000 ∧
        (w.db.findPublishedById id).isSome ∧
          screenings = w.db.findFutureScheduledByMovie id w.now
  seatMap : ∀ id seatMap, AppAnswers api t (.catalogue (.getSeatMap id))
    (.catalogue (.seatMap seatMap)) → ∃ w ∈ past,
      t.world.now < w.now + ScreeningsCache.seatMapTtlSeconds * 1000 ∧
        w.db.freshSeatMap id = some seatMap
  halls : ∀ halls, AppAnswers api t .listHalls (.halls halls) → ∃ w ∈ past,
    t.world.now < w.now + ScreeningsCache.hallListTtlSeconds * 1000 ∧ halls = w.db.listHalls

variable {past : List (World σ)} {t : Timed σ}

/-- A read of one view through the whole server. -/
theorem seen_answer {α : Type} {p : M α} {f : α → CatalogueResponse} {K : Trail → α → Prop}
    {r : CatalogueRequest} (hr : r.handle = f <$> p) (hp : ∀ l, Informed Reads l p)
    (hq : ∀ l, Yields (Knows K) l p) (h : Dated past t) (hpast : t.world ∈ past)
    {a : CatalogueResponse} (ha : AppAnswers api t (.catalogue r) (.catalogue a)) :
    ∃ l t' v, Reading past t.world l t' ∧ a = f v ∧ K (lefts l) v := by
  obtain ⟨os, cs, t', ha⟩ := ha
  have hleft : AppRequest.handle (.catalogue r) =
      AppResponse.catalogue <$> ((f <$> p).left : AppM CatalogueResponse) := by
    rw [AppRequest.handle, hr]
  rw [hleft] at ha
  have hread : ∀ l, Informed Reads l (f <$> p) := fun l => by
    rw [map_eq]
    exact (hp l).bind fun _ _ => trivial
  have hknows : Yields (Knows fun l a => ∃ v, a = f v ∧ K l v) [] (f <$> p) := by
    rw [map_eq]
    exact (hq []).bind (fun l e _ v hv => by cases hv) fun v l hv =>
      knows_pure ⟨v, rfl, hv v rfl⟩
  have hyields : Yields (Knows fun l a => ∃ v, a = AppResponse.catalogue (f v) ∧ K (lefts l) v) []
      (AppResponse.catalogue <$> ((f <$> p).left : AppM CatalogueResponse)) := by
    rw [map_eq]
    refine (Yields.left (l := []) hknows).bind (fun l e _ v hv => by cases hv) fun b l hb => ?_
    obtain ⟨v, rfl, hv⟩ := hb b rfl
    intro c hc
    cases hc
    exact ⟨v, rfl, hv⟩
  have hinformed : Informed AppReads []
      (AppResponse.catalogue <$> ((f <$> p).left : AppM CatalogueResponse)) := by
    rw [map_eq]
    exact (left_reads hread []).bind fun _ _ => trivial
  obtain ⟨l, hl, hend⟩ := reading_attempt hinformed hyields h hpast ha
  obtain ⟨v, hv, hK⟩ := hend _ rfl
  exact ⟨l, t', v, hl, AppResponse.catalogue.inj hv, hK⟩

theorem Dated.reads_recent (h : Dated past t) (hpast : t.world ∈ past) :
    NothingStale api past t where
  movie id movie ha := by
    obtain ⟨l, t', v, hl, hv, hseen⟩ := seen_answer rfl
      (fun l => (MoviesService.getPublishedMovie_reads id l).1)
      (fun l => (MoviesService.getPublishedMovie_reads id l).2) h hpast ha
    cases hv
    exact hseen.app.recent hl.answers hpast
  lists lists ha := by
    obtain ⟨l, t', v, hl, hv, hseen⟩ := seen_answer rfl
      (fun l => (MoviesService.browseMovies_reads l).1)
      (fun l => (MoviesService.browseMovies_reads l).2) h hpast ha
    cases hv
    exact ⟨hseen.1.app.recent hl.answers hpast, hseen.2.app.recent hl.answers hpast⟩
  detail id screening ha := by
    obtain ⟨l, t', v, hl, hv, hseen⟩ := seen_answer rfl
      (fun l => (ScreeningsService.getScreeningDetail_reads id l).1)
      (fun l => (ScreeningsService.getScreeningDetail_reads id l).2) h hpast ha
    cases hv
    exact hseen.app.recent hl.answers hpast
  screenings id screenings ha := by
    obtain ⟨l, t', v, hl, hv, hseen⟩ := seen_answer rfl
      (fun l => (ScreeningsService.getMovieScreenings_reads id l).1)
      (fun l => (ScreeningsService.getMovieScreenings_reads id l).2) h hpast ha
    cases hv
    exact hseen.app.recent hl.answers hpast
  seatMap id seatMap ha := by
    obtain ⟨l, t', v, hl, hv, hseen⟩ := seen_answer rfl
      (fun l => (ScreeningsService.getSeatMap_reads id l).1)
      (fun l => (ScreeningsService.getSeatMap_reads id l).2) h hpast ha
    cases hv
    exact hseen.app.recent hl.answers hpast
  halls halls ha := by
    obtain ⟨os, cs, t', ha⟩ := ha
    rw [AppRequest.handle, map_eq] at ha
    have hyields : Yields (Knows fun l a => ∃ halls, a = AppResponse.halls halls ∧
        AppSeen .hallList l halls) [] (HallsService.listHalls >>= fun halls =>
          pure (AppResponse.halls halls)) := by
      refine (listHalls_reads []).2.bind (fun l e _ v hv => by cases hv) fun halls l hhalls => ?_
      intro a ha
      cases ha
      exact ⟨halls, rfl, hhalls halls rfl⟩
    have hinformed : Informed AppReads [] (HallsService.listHalls >>= fun halls =>
        pure (AppResponse.halls halls)) := (listHalls_reads []).1.bind fun _ _ => trivial
    obtain ⟨l, hl, hend⟩ := reading_attempt hinformed hyields h hpast ha
    obtain ⟨halls', hhalls, hseen⟩ := hend _ rfl
    cases hhalls
    exact hseen.recent hl.answers hpast

theorem moments_head (api : StripeApi σ A) (xs : List (AppTurn A)) (t : Timed σ) :
    t.world ∈ moments api xs t := by
  cases xs <;> exact List.mem_cons_self

theorem dated_run : ∀ (xs : List (AppTurn A)) {past : List (World σ)} {t t' : Timed σ},
    Dated past t → t.world ∈ past → (appSystem api).serveAll xs t = some t' →
      Dated (past ++ moments api xs t) t' ∧ t'.world ∈ past ++ moments api xs t
  | [], past, t, t', h, hpast, hx => by
    cases hx
    exact ⟨h.mono (List.subset_append_left _ _), List.mem_append_left _ hpast⟩
  | x :: xs, past, t, t', h, hpast, hx => by
    obtain ⟨m, hm, hx⟩ := Option.bind_eq_some_iff.mp hx
    have hm : (appSystem api).serve x t = some m := hm
    have hstep : Dated past m := by
      rcases x with ⟨r, os⟩ | e
      · obtain ⟨⟨cs, a, m'⟩, ha, he⟩ := Option.map_eq_some_iff.mp hm
        cases he
        exact h.attempt hpast ha
      · cases hm
        exact h.elapse e
    have hmoments : moments api (x :: xs) t = t.world :: moments api xs m := by
      rw [moments, hm]
    have hstep : Dated (past ++ [m.world]) m := hstep.mono (List.subset_append_left _ _)
    have hnext := dated_run xs hstep (by simp) hx
    have hsub : past ++ [m.world] ++ moments api xs m ⊆ past ++ moments api (x :: xs) t := by
      rw [hmoments]
      intro w hw
      rcases List.mem_append.mp hw with hw | hw
      · rcases List.mem_append.mp hw with hw | hw
        · exact List.mem_append_left _ hw
        · rw [List.mem_singleton.mp hw]
          exact List.mem_append_right _ (List.mem_cons_of_mem _ (moments_head api xs m))
      · exact List.mem_append_right _ (List.mem_cons_of_mem _ hw)
    exact ⟨hnext.1.mono hsub, hsub hnext.2⟩

/-- **Nothing stale is shown**, whatever ran since the cache was empty, whatever of it failed at
which step, and whichever commands fail now. -/
theorem nothing_stale (api : StripeApi σ A) (t : Timed σ) (ht : ∀ k, t.world.redis.cache k = none)
    (xs : List (AppTurn A)) (t' : Timed σ) (hx : (appSystem api).serveAll xs t = some t') :
    NothingStale api (moments api xs t) t' := by
  have hstart : Dated [t.world] t := by
    intro k v hv
    rw [ht k] at hv
    cases hv
  have hrun := dated_run xs hstart (List.mem_singleton_self _) hx
  have hsub : [t.world] ++ moments api xs t ⊆ moments api xs t := by
    intro w hw
    rcases List.mem_append.mp hw with hw | hw
    · rw [List.mem_singleton.mp hw]
      exact moments_head api xs t
    · exact hw
  exact (hrun.1.mono hsub).reads_recent (hsub hrun.2)

end Run

/-- The movie is published, shown and renamed, but Redis does not get to know of the new title. -/
def lostDrop : List (AppTurn Account.Action) :=
  [.inl (.catalogue (.admin (.publish 1)), [.answered, .answered, .answered]),
    .inl (.catalogue (.getPublishedMovie 1), [.answered, .answered, .answered]),
    .inl (.catalogue (.admin (.updateMovie 1 { name := some "M" })),
      [.answered, .answered, .lost .unreachable]),
    .inr (.advance 3599999)]

def shownMovie : Except Err AppResponse → Option Movie
  | .ok (.catalogue (.movie movie)) => some movie
  | _ => none

theorem shownMovie_eq {a : Except Err AppResponse} {movie : Movie}
    (h : shownMovie a = some movie) : a = .ok (.catalogue (.movie movie)) := by
  unfold shownMovie at h
  split at h
  · cases h
    rfl
  · cases h

/-- The old title is still shown just before the hour is over. -/
theorem lost_drop_shown : ∃ t movie,
    (appSystem testMode).serveAll lostDrop ⟨theatre, fun _ => 0⟩ = some t ∧
    AppAnswers testMode t (.catalogue (.getPublishedMovie 1)) (.catalogue (.movie movie)) ∧
      t.world.db.findPublishedById 1 ≠ some movie ∧
        NothingStale testMode (moments testMode lostDrop ⟨theatre, fun _ => 0⟩) t := by
  have hrun : ((appSystem testMode).serveAll lostDrop ⟨theatre, fun _ => 0⟩).any fun t =>
      ((appSystem testMode).attempt 0 [.answered]
        (AppRequest.catalogue (.getPublishedMovie 1)).handle t).any fun x =>
          (shownMovie x.2.1).any fun movie => t.world.db.findPublishedById 1 ≠ some movie := by
    decide +kernel
  obtain ⟨t, ht, hrun⟩ := (Option.any_eq_true _ _).mp hrun
  obtain ⟨⟨cs, a, t'⟩, ha, hrun⟩ := (Option.any_eq_true _ _).mp hrun
  obtain ⟨movie, hmovie, hother⟩ := (Option.any_eq_true _ _).mp hrun
  have hanswer : a = .ok (.catalogue (.movie movie)) := shownMovie_eq hmovie
  have hfresh : ∀ k, theatre.redis.cache k = none :=
    admin_cache_none _ (admin_cache_none _ (admin_cache_none _ fun _ => rfl))
  rw [hanswer] at ha
  exact ⟨t, movie, ht, ⟨_, cs, t', ha⟩, of_decide_eq_true hother,
    nothing_stale testMode ⟨theatre, fun _ => 0⟩ hfresh lostDrop t ht⟩

end MovieReservation
