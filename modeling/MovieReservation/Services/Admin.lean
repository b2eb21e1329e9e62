import MovieReservation.Lib.Commit
import MovieReservation.Services.Moves

/-! The commands that the administration can issue: what it reads, the cached views it
drops, and its one statement. -/

namespace MovieReservation

open Lib Lib.Prog

/-- Commands by which Stripe is asked to give money back. -/
def Cmd.refunds : Cmd → Bool
  | .refundsCreate _ _ _ => true
  | _ => false

inductive AdminCmd : AdminRequest → Cmd → Prop
  | read {op : AdminRequest} {c : Cmd} : c.quiet = true → c.still = true → c.refunds = false →
    AdminCmd op c
  | drop {op : AdminRequest} (keys : List CacheKey) : AdminCmd op (.cacheDel keys)
  | createHall (dto : HallsService.CreateHallDto) (hall : Db.HallCreate)
    (seats : List (String × String)) :
    AdminCmd (.createHall dto) (.createHallWithSeats hall seats)
  | deleteHall (id : ℕ) : AdminCmd (.deleteHall id) (.hallDelete id)
  | createMovie (dto : Db.MovieCreate) : AdminCmd (.createMovie dto) (.movieCreate dto)
  | updateMovie (id : ℕ) (dto d : MovieData) : AdminCmd (.updateMovie id dto) (.movieUpdate id d)
  | publish (id : ℕ) : AdminCmd (.publish id) (.movieUpdate id { status := some .published })
  | unpublish (id : ℕ) : AdminCmd (.unpublish id) (.movieUpdate id { status := some .draft })
  | deleteMovie (id : ℕ) : AdminCmd (.deleteMovie id) (.movieDelete id)
  | createScreening (dto : Db.ScreeningCreate) :
    AdminCmd (.createScreening dto) (.screeningCreate dto)
  | updateScreening (id : ℕ) (dto : ScreeningsService.UpdateScreeningDto) :
    AdminCmd (.updateScreening id dto) (.screeningUpdate id
      { movieId := dto.movieId, hallId := dto.hallId, startTime := dto.startTime,
        price := dto.price })
  | cancelScreening (id : ℕ) :
    AdminCmd (.cancelScreening id) (.screeningUpdate id { status := some .cancelled })
  | deleteScreening (id : ℕ) : AdminCmd (.deleteScreening id) (.screeningDelete id)

/-- Commands by which the administration looks at what is there. -/
def Cmd.Looks (c : Cmd) : Prop := c.quiet = true ∧ c.still = true ∧ c.refunds = false

def Cmd.Drops (c : Cmd) : Prop := ∃ keys, c = .cacheDel keys

/-- The one statement of a request, after a look and before it drops the cached views. -/
abbrev AdminCommits {α : Type} (op : AdminRequest) (p : M α) : Prop :=
  Commits Cmd.Looks (fun c => AdminCmd op c ∧ c.writes = true) Cmd.Drops p

section Admin
variable {op : AdminRequest} {α : Type}

theorem looks_request {c : Cmd} (hq : c.quiet = true) (hs : c.still = true)
    (hr : c.refunds = false) : Only Cmd.Looks (request c) := (only_issue c).mpr ⟨hq, hs, hr⟩

theorem statement_request {c : Cmd} {f : c.Reply → M α} (h : AdminCmd op c) (hw : c.writes = true)
    (hf : ∀ a, Tidies Cmd.Drops (f a)) : AdminCommits op (request c >>= f) :=
  (commits_issue ⟨h, hw⟩).bind hf

theorem cacheDel_drops (keys : List CacheKey) : Tidies Cmd.Drops (cacheDel keys) :=
  Tidies.tryCatch ((only_issue _).mpr ⟨keys, rfl⟩) fun _ => ⟨_, rfl⟩

theorem getMovie_looks (id : ℕ) : Only Cmd.Looks (ScreeningsService.getMovie id) := by
  refine Only.bind (looks_request rfl rfl rfl) fun movie => ?_
  cases movie <;> trivial

theorem getHall_looks (id : ℕ) : Only Cmd.Looks (ScreeningsService.getHall id) := by
  refine Only.bind (looks_request rfl rfl rfl) fun hall => ?_
  cases hall <;> trivial

theorem getExisting_looks (id : ℕ) : Only Cmd.Looks (ScreeningsService.getExisting id) := by
  refine Only.bind (looks_request rfl rfl rfl) fun screening => ?_
  cases screening <;> trivial

theorem throwIf_looks (c : Prop) [Decidable c] (e : Err) : Only Cmd.Looks (throwIf c e) := by
  unfold throwIf
  split_ifs <;> trivial

theorem assertNoOverlap_looks (hallId : ℕ) (start finish : Time) (excludeId : Option ℕ) :
    Only Cmd.Looks (ScreeningsService.assertNoOverlap hallId start finish excludeId) :=
  Only.bind (looks_request rfl rfl rfl) fun _ => throwIf_looks _ _

theorem invalidate_drops (id movieId : ℕ) :
    Tidies Cmd.Drops (ScreeningsService.invalidate id movieId) := by
  refine Tidies.bind (cacheDel_drops _) fun _ => Tidies.bind (cacheDel_drops _) fun _ => ?_
  exact Tidies.bind (cacheDel_drops _) fun _ => cacheDel_drops _

theorem effectiveDuration_looks (existing : ScreeningWithMovieHall) (movieId : Option ℕ) :
    Only Cmd.Looks (ScreeningsService.effectiveDuration existing movieId) := by
  cases movieId with
  | none => trivial
  | some movieId =>
    show Only _ (ite _ _ _)
    split_ifs
    · trivial
    · exact Only.bind (getMovie_looks _) fun _ => trivial

theorem checkHall_looks (existing : ScreeningWithMovieHall) (hallId : Option ℕ) :
    Only Cmd.Looks (ScreeningsService.checkHall existing hallId) := by
  cases hallId with
  | none => trivial
  | some hallId =>
    show Only _ (ite _ _ _)
    split_ifs
    · trivial
    · exact Only.bind (getHall_looks _) fun _ => trivial

end Admin

theorem AdminRequest.handle_commits (op : AdminRequest) : AdminCommits op op.handle := by
  cases op with
  | createHall dto =>
    refine Commits.bind ?_ fun _ => ⟨_, rfl⟩
    refine statement_request (.createHall dto _ _) rfl fun hall => ?_
    exact Tidies.bind (cacheDel_drops _) fun _ => ⟨_, rfl⟩
  | deleteHall id =>
    refine Commits.bind (Commits.of_look (getHall_looks id) fun _ => ?_) fun _ => ⟨_, rfl⟩
    refine Commits.of_look (looks_request rfl rfl rfl) fun found => ?_
    refine Commits.of_look (throwIf_looks _ _) fun _ => ?_
    refine statement_request (.deleteHall id) rfl fun _ => ?_
    exact Tidies.bind (cacheDel_drops _) fun _ => ⟨_, rfl⟩
  | createMovie dto =>
    exact statement_request (.createMovie dto) rfl fun _ => ⟨_, rfl⟩
  | updateMovie id dto =>
    refine Commits.bind (Commits.of_look (getMovie_looks id) fun _ => ?_) fun _ => ⟨_, rfl⟩
    refine statement_request (.updateMovie id dto _) rfl fun _ => ?_
    exact Tidies.bind (cacheDel_drops _) fun _ => ⟨_, rfl⟩
  | publish id =>
    refine Commits.bind (Commits.of_look (getMovie_looks id) fun _ => ?_) fun _ => ⟨_, rfl⟩
    refine Commits.of_look (throwIf_looks _ _) fun _ => ?_
    refine statement_request (.publish id) rfl fun _ => ?_
    exact Tidies.bind (cacheDel_drops _) fun _ => ⟨_, rfl⟩
  | unpublish id =>
    refine Commits.bind (Commits.of_look (getMovie_looks id) fun _ => ?_) fun _ => ⟨_, rfl⟩
    refine Commits.of_look (throwIf_looks _ _) fun _ => ?_
    refine statement_request (.unpublish id) rfl fun _ => ?_
    exact Tidies.bind (cacheDel_drops _) fun _ => Tidies.bind (cacheDel_drops _) fun _ => ⟨_, rfl⟩
  | deleteMovie id =>
    refine Commits.bind (Commits.of_look (getMovie_looks id) fun _ => ?_) fun _ => ⟨_, rfl⟩
    refine Commits.of_look (looks_request rfl rfl rfl) fun found => ?_
    refine Commits.of_look (throwIf_looks _ _) fun _ => ?_
    refine statement_request (.deleteMovie id) rfl fun _ => ?_
    exact Tidies.bind (cacheDel_drops _) fun _ => Tidies.bind (cacheDel_drops _) fun _ => ⟨_, rfl⟩
  | createScreening dto =>
    refine Commits.bind (Commits.of_look (getMovie_looks _) fun _ => ?_) fun _ => ⟨_, rfl⟩
    refine Commits.of_look (getHall_looks _) fun _ => ?_
    refine Commits.of_look (assertNoOverlap_looks _ _ _ _) fun _ => ?_
    refine statement_request (.createScreening dto) rfl fun _ => ?_
    exact Tidies.bind (cacheDel_drops _) fun _ => Tidies.bind (cacheDel_drops _) fun _ => ⟨_, rfl⟩
  | updateScreening id dto =>
    refine Commits.bind (Commits.of_look (getExisting_looks id) fun _ => ?_) fun _ => ⟨_, rfl⟩
    refine Commits.of_look (effectiveDuration_looks _ _) fun _ => ?_
    refine Commits.of_look (checkHall_looks _ _) fun _ => ?_
    refine Commits.of_look (assertNoOverlap_looks _ _ _ _) fun _ => ?_
    refine statement_request (.updateScreening id dto) rfl fun _ => ?_
    exact Tidies.bind (invalidate_drops _ _) fun _ => ⟨_, rfl⟩
  | cancelScreening id =>
    refine Commits.bind (Commits.of_look (getExisting_looks id) fun _ => ?_) fun _ => ⟨_, rfl⟩
    refine Commits.of_look (throwIf_looks _ _) fun _ => ?_
    refine statement_request (.cancelScreening id) rfl fun _ => ?_
    exact Tidies.bind (invalidate_drops _ _) fun _ => ⟨_, rfl⟩
  | deleteScreening id =>
    refine Commits.bind (Commits.of_look (getExisting_looks id) fun _ => ?_) fun _ => ⟨_, rfl⟩
    refine Commits.of_look (looks_request rfl rfl rfl) fun found => ?_
    refine Commits.of_look (throwIf_looks _ _) fun _ => ?_
    refine statement_request (.deleteScreening id) rfl fun _ => ?_
    exact Tidies.bind (invalidate_drops _ _) fun _ => ⟨_, rfl⟩

theorem AdminRequest.handle_only (op : AdminRequest) : Only (AdminCmd op) op.handle := by
  refine op.handle_commits.only.mono fun c hc => ?_
  rcases hc with ⟨hq, hs, hr⟩ | ⟨hc, -⟩ | ⟨keys, rfl⟩
  · exact .read hq hs hr
  · exact hc
  · exact .drop keys

/-! ### What becomes of the bookings -/

/-- No booking was added or changed. -/
structure Db.Fewer (db db' : Db) : Prop where
  reservations : ∀ id r, db'.reservations.get id = some r → db.reservations.get id = some r
  payments : ∀ id p, db'.payments.get id = some p → db.payments.get id = some p

theorem Db.fewer_of_same {db db' : Db} (hr : db'.reservations = db.reservations)
    (hp : db'.payments = db.payments) : db.Fewer db' :=
  ⟨fun _ _ h => hr ▸ h, fun _ _ h => hp ▸ h⟩

theorem Db.fewer_cascade (db : Db) (movie : Movie → Bool) (hall : Hall → Bool)
    (screening : Screening → Bool) : db.Fewer (db.cascade movie hall screening) where
  reservations id r h := by
    have hfound : (db.reservations.filter _).get id = some r := h
    rw [Table.get_filter, Option.filter_eq_some_iff] at hfound
    exact hfound.1
  payments id p h := by
    have hfound : (db.payments.filter _).get id = some p := h
    rw [Table.get_filter, Option.filter_eq_some_iff] at hfound
    exact hfound.1

/-- The requests that remove a screening with its bookings. -/
inductive AdminRequest.Withdraws : AdminRequest → Prop
  | hall (id : ℕ) : Withdraws (.deleteHall id)
  | movie (id : ℕ) : Withdraws (.deleteMovie id)
  | screening (id : ℕ) : Withdraws (.deleteScreening id)

/-- The administration leaves the bookings as they are, or takes some away with what they
were for. -/
theorem AdminCmd.bookings {σ A : Type} (api : StripeApi σ A) {op : AdminRequest} {c : Cmd}
    (hc : AdminCmd op c) (w : World σ) :
    ((World.exec api c w).2.db.reservations = w.db.reservations ∧
      (World.exec api c w).2.db.payments = w.db.payments) ∨
        op.Withdraws ∧ w.db.Fewer (World.exec api c w).2.db := by
  have hcommit : ∀ {α : Type} {x : Except Err (α × Db)}, (∀ a db', x = .ok (a, db') →
      db'.reservations = w.db.reservations ∧ db'.payments = w.db.payments) →
        (w.commit x).2.db.reservations = w.db.reservations ∧
          (w.commit x).2.db.payments = w.db.payments :=
    World.commit_rule (P := fun db => db.reservations = w.db.reservations ∧
      db.payments = w.db.payments) ⟨rfl, rfl⟩
  have hfewer : ∀ {α : Type} {x : Except Err (α × Db)},
      (∀ a db', x = .ok (a, db') → w.db.Fewer db') → w.db.Fewer (w.commit x).2.db :=
    World.commit_rule (Db.fewer_of_same rfl rfl)
  cases hc with
  | read hquiet _ =>
    rw [World.exec_quiet api hquiet]
    exact .inl ⟨rfl, rfl⟩
  | drop keys => exact .inl ⟨rfl, rfl⟩
  | createHall dto hall seats =>
    refine .inl (hcommit fun a db' hok => ?_)
    obtain ⟨ht, -⟩ := Db.createHallWithSeats_eq_ok hok
    rw [ht]
    exact ⟨rfl, rfl⟩
  | deleteHall id =>
    refine .inr ⟨.hall id, hfewer fun a db' hok => ?_⟩
    rw [Db.hallDelete_eq_ok hok]
    exact w.db.fewer_cascade _ _ _
  | createMovie dto => exact .inl ⟨rfl, rfl⟩
  | updateMovie id dto d | publish id | unpublish id =>
    refine .inl (hcommit fun a db' hok => ?_)
    rw [Db.movieUpdate_eq_ok hok]
    exact ⟨rfl, rfl⟩
  | deleteMovie id =>
    refine .inr ⟨.movie id, hfewer fun a db' hok => ?_⟩
    rw [Db.movieDelete_eq_ok hok]
    exact w.db.fewer_cascade _ _ _
  | createScreening dto =>
    refine .inl (hcommit fun a db' hok => ?_)
    obtain ⟨-, ht⟩ := Db.screeningCreate_eq_ok hok
    rw [ht]
    exact ⟨rfl, rfl⟩
  | updateScreening id dto | cancelScreening id =>
    refine .inl (hcommit fun a db' hok => ?_)
    obtain ⟨_, -, -, ht⟩ := Db.screeningUpdate_eq_ok hok
    rw [ht]
    exact ⟨rfl, rfl⟩
  | deleteScreening id =>
    refine .inr ⟨.screening id, hfewer fun a db' hok => ?_⟩
    rw [Db.screeningDelete_eq_ok hok]
    exact w.db.fewer_cascade _ _ _

theorem AdminCmd.fewer {σ A : Type} (api : StripeApi σ A) {op : AdminRequest} {c : Cmd}
    (hc : AdminCmd op c) (w : World σ) : w.db.Fewer (World.exec api c w).2.db := by
  rcases hc.bookings api w with ⟨hr, hp⟩ | ⟨-, hfewer⟩
  · exact Db.fewer_of_same hr hp
  · exact hfewer

/-! ### Both kinds of request -/

/-- The commands that a request of either kind can issue. -/
def RequestCmd : Request → Cmd → Prop
  | .booking op => BookingCmd op
  | .admin op => AdminCmd op

theorem Request.handle_only : ∀ op : Request, Only (RequestCmd op) op.handle
  | .booking op => op.handle_only
  | .admin op => op.handle_only

/-- Where a reservation comes from: it was there and was rewritten, or it is a new hold. -/
theorem RequestCmd.reservation {σ A : Type} (api : StripeApi σ A) {op : Request} {c : Cmd}
    (hc : RequestCmd op c) {w : World σ} {n : ℕ} {s : Reservation}
    (hs : (World.exec api c w).2.db.reservations.get n = some s) :
    (∃ r, w.db.reservations.get n = some r ∧ Rewrite w.db n c r s) ∨
      ∃ p, c = .holdSeat p ∧ n = w.db.reservations.serial ∧ s = p.row n := by
  cases op with
  | admin op => exact .inl ⟨s, (AdminCmd.fewer api hc w).reservations n s hs, .keep _ _⟩
  | booking op =>
    cases hr : w.db.reservations.get n with
    | none => exact .inr (reservation_born api hc hr hs)
    | some r =>
      obtain ⟨s', hs', hrw⟩ := reservation_step api hc hr
      cases hs'.symm.trans hs
      exact .inl ⟨r, rfl, hrw⟩

section Cache
variable {σ A : Type} {api : StripeApi σ A}

/-- No admin request puts anything in the cache. -/
theorem AdminCmd.cache_none {op : AdminRequest} {c : Cmd} (hc : AdminCmd op c) {w : World σ}
    (k : CacheKey) (h : w.redis.cache k = none) : (World.exec api c w).2.redis.cache k = none := by
  cases hc with
  | read _ hs => rw [(World.exec_same api hs w).cache, h]
  | drop keys =>
    show (if k ∈ keys then none else w.redis.cache k) = none
    rw [h, ite_self]
  | _ => exact (congrArg (fun r : Redis => r.cache k) (w.commit_redis _)).trans h

theorem admin_cache_none (op : AdminRequest) {w : World σ} (h : ∀ k, w.redis.cache k = none)
    (k : CacheKey) : (perform api op.handle w).2.redis.cache k = none :=
  op.handle_only.run (World.exec api) (I := fun v => ∀ k, v.redis.cache k = none)
    (fun _ _ hc hv k => hc.cache_none k (hv k)) h k

end Cache

end MovieReservation
