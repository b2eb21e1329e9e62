import MovieReservation.Services.Admin
import MovieReservation.Services.Delivery
import MovieReservation.Services.Paths
import MovieReservation.Services.TestMode

/-! Seats and halls. `holdSeat` locks a seat of the screening's hall, and nothing looks at
the hall again: an edit can move a screening away from its active reservations, and a late
payment can confirm a reservation that a moved screening has left behind. Without the two,
every active reservation is in the hall of its screening. -/

namespace MovieReservation

open Lib Lib.Prog Lib.Table

/-- The seat of the reservation is in the hall its screening is assigned to. -/
def Reservation.Fits (db : Db) (r : Reservation) : Prop :=
  ∀ seat ∈ db.seats.get r.seatId, ∀ s ∈ db.screenings.get r.screeningId, seat.hallId = s.hallId

def Housed (db : Db) : Prop := ∀ r ∈ db.reservations.rows, r.status.active → r.Fits db

instance (db : Db) : DecidablePred (Reservation.Fits db) := fun r =>
  inferInstanceAs (Decidable (∀ seat ∈ db.seats.get r.seatId,
    ∀ s ∈ db.screenings.get r.screeningId, seat.hallId = s.hallId))

instance : DecidablePred Housed := fun db =>
  inferInstanceAs (Decidable (∀ r ∈ db.reservations.rows, r.status.active → r.Fits db))

/-- The screening that a command assigns to a hall, and the hall. -/
def Cmd.assigns : Cmd → Option (ℕ × ℕ)
  | .screeningUpdate id d => d.hallId.map fun h => (id, h)
  | _ => none

/-- A screening that is moved to another hall has no active reservation, and what is
confirmed was active or fits. -/
structure Cmd.Fitting (db : Db) (c : Cmd) : Prop where
  assigns : ∀ x ∈ c.assigns, ∀ s ∈ db.screenings.get x.1, s.hallId ≠ x.2 →
    ∀ r ∈ db.reservations.rows, r.screeningId = x.1 → r.status.active = false
  confirms : ∀ id ∈ c.confirms, ∀ r ∈ db.reservations.get id, r.status.active ∨ r.Fits db

instance (db : Db) : DecidablePred (Cmd.Fitting db) := fun c =>
  decidable_of_iff ((∀ x ∈ c.assigns, ∀ s ∈ db.screenings.get x.1, s.hallId ≠ x.2 →
      ∀ r ∈ db.reservations.rows, r.screeningId = x.1 → r.status.active = false) ∧
    ∀ id ∈ c.confirms, ∀ r ∈ db.reservations.get id, r.status.active ∨ r.Fits db)
    ⟨fun h => ⟨h.1, h.2⟩, fun h => ⟨h.1, h.2⟩⟩

section Steps
variable {db db' : Db}

/-- Fewer reservations, the seats that were there, and screenings that stayed. -/
theorem Housed.of_evolves (h : Housed db) (hr : ∀ r ∈ db'.reservations.rows,
      r ∈ db.reservations.rows) (hseats : Table.Evolves id db.seats db'.seats)
    (hscreenings : Table.Evolves Screening.hallId db.screenings db'.screenings) :
    Housed db' := by
  intro r hr' ha seat hseat s hs
  obtain ⟨seat₀, hseat₀⟩ := Option.isSome_iff_exists.mp (db.reservation_seat r (hr r hr'))
  obtain ⟨s₀, hs₀⟩ := Option.isSome_iff_exists.mp (db.reservation_screening r (hr r hr'))
  obtain ⟨seat₁, hseat₁, he⟩ := hseats.row _ (lt_serial_of_get hseat₀) seat hseat
  obtain ⟨s₁, hs₁, hhall⟩ := hscreenings.row _ (lt_serial_of_get hs₀) s hs
  rw [show seat = seat₁ from he, hhall]
  exact h r (hr r hr') ha seat₁ hseat₁ s₁ hs₁

theorem Reservation.fits_of_same {r : Reservation} (hseats : db'.seats = db.seats)
    (hscreenings : db'.screenings = db.screenings) : r.Fits db' ↔ r.Fits db := by
  unfold Reservation.Fits
  rw [hseats, hscreenings]

end Steps

/-! ### One command -/

section Commands
variable {σ A : Type} {api : StripeApi σ A} {w : World σ} {c : Cmd}

theorem Housed.booking {op : BookingRequest} (h : Housed w.db) (hc : BookingCmd op c)
    (hfit : c.Fitting w.db)
    (hhold : ∀ p, c = .holdSeat p → ∀ s ∈ w.db.screenings.get p.screeningId, s.hallId = p.hallId) :
    Housed (World.exec api c w).2.db := by
  have hplan : w.db.SamePlan (World.exec api c w).2.db := hc.samePlan
  intro r hr ha
  rw [Reservation.fits_of_same hplan.seats hplan.screenings]
  have hget := get_of_mem hr
  cases hr₀ : w.db.reservations.get r.id with
  | none =>
    obtain ⟨p, rfl, -, hrow⟩ := reservation_born api hc hr₀ hget
    have hrid : r = p.row r.id := hrow
    obtain ⟨seat₀, hseat₀, hhall⟩ : ∃ seat, w.db.seats.get p.seatId = some seat ∧
        seat.hallId = p.hallId := by
      rcases w.commit_cases (w.db.holdSeat p) with ⟨x, db', hok, -⟩ | ⟨e, -, hcm⟩
      · obtain ⟨seat, hseat, hhall, -⟩ := Db.holdSeat_eq_ok hok
        exact ⟨seat, hseat, hhall⟩
      · simp only [World.exec, hcm] at hget
        rw [show Row.id r = r.id from rfl, hr₀] at hget
        cases hget
    intro seat hseat s hs
    rw [hrid] at hseat hs
    rw [Option.some.inj (hseat.symm.trans hseat₀), hhall, hhold p rfl s hs]
  | some r₀ =>
    have hfit₀ : r₀.status.active → r₀.Fits w.db := h r₀ (mem_of_get hr₀)
    obtain ⟨s, hs, hrw⟩ := reservation_step api hc hr₀
    rw [show Row.id r = r.id from rfl, hs, Option.some.injEq] at hget
    subst hget
    cases hrw with
    | keep => exact hfit₀ ha
    | lapse | cancel | decline => cases ha
    | extend t => exact hfit₀ ha
    | confirm _ =>
      rcases hfit.confirms _ rfl r₀ hr₀ with hact | hfits
      · exact hfit₀ hact
      · exact hfits
    | settle p i _ _ =>
      rcases hfit.confirms _ rfl r₀ hr₀ with hact | hfits
      · exact hfit₀ hact
      · exact hfits

theorem Housed.cascade {db : Db} (h : Housed db) (movie : Movie → Bool) (hall : Hall → Bool)
    (screening : Screening → Bool) : Housed (db.cascade movie hall screening) :=
  h.of_evolves (fun _ hr => List.mem_of_mem_filter hr) evolves_filter evolves_filter

/-- A screening is edited: its hall stays, or nobody is in it. -/
theorem Housed.screeningUpdate {db db' : Db} (h : Housed db) {id : ℕ} {d : ScreeningData}
    {x : Screening} (hu : db.screeningUpdate id d = .ok (x, db'))
    (hfit : ∀ hallId ∈ d.hallId, ∀ s ∈ db.screenings.get id, s.hallId ≠ hallId →
      ∀ r ∈ db.reservations.rows, r.screeningId = id → r.status.active = false) : Housed db' := by
  obtain ⟨_, -, -, ht⟩ := Db.screeningUpdate_eq_ok hu
  have hreservations : db'.reservations = db.reservations := by rw [ht]
  have hseats : db'.seats = db.seats := by rw [ht]
  have hget : ∀ i, db'.screenings.get i =
      if i = id then (db.screenings.get i).map d.apply else db.screenings.get i := fun i => by
    rw [ht, get_modify]
  intro r hr ha seat hseat s hs
  rw [hreservations] at hr
  rw [hseats] at hseat
  rw [hget] at hs
  split_ifs at hs with hid
  · obtain ⟨s₀, hs₀, rfl⟩ := Option.map_eq_some_iff.mp hs
    rw [h r hr ha seat hseat s₀ hs₀]
    cases hd : d.hallId with
    | none => simp [ScreeningData.apply, hd]
    | some hallId =>
      by_contra hne
      have hmoved : s₀.hallId ≠ hallId := by simpa [ScreeningData.apply, hd] using hne
      have hgone := hfit hallId hd s₀ (hid ▸ hs₀) hmoved r hr hid
      rw [ha] at hgone
      cases hgone
  · exact h r hr ha seat hseat s hs

theorem Housed.admin {op : AdminRequest} (h : Housed w.db) (hc : AdminCmd op c)
    (hfit : c.Fitting w.db) : Housed (World.exec api c w).2.db := by
  have hcommit : ∀ {α : Type} {x : Except Err (α × Db)}, (∀ a db', x = .ok (a, db') → Housed db') →
      Housed (w.commit x).2.db := World.commit_rule h
  have hscreening : ∀ {id : ℕ} {d : ScreeningData}, c = .screeningUpdate id d →
      ∀ x db', w.db.screeningUpdate id d = .ok (x, db') → Housed db' := by
    rintro id d rfl x db' hu
    refine h.screeningUpdate hu fun hallId hh => hfit.assigns (id, hallId) ?_
    exact Option.mem_map.mpr ⟨hallId, hh, rfl⟩
  have hmovie : ∀ {id : ℕ} {d : MovieData} {x : Movie} {db' : Db},
      w.db.movieUpdate id d = .ok (x, db') → Housed db' := by
    intro id d x db' hu
    have ht := Db.movieUpdate_eq_ok hu
    refine h.of_evolves (fun r hr => ?_) ?_ ?_
    · rwa [ht] at hr
    · rw [ht]
      exact Table.Evolves.refl _ _
    · rw [ht]
      exact Table.Evolves.refl _ _
  cases hc with
  | read hq _ =>
    rw [World.exec_quiet api hq]
    exact h
  | drop keys => exact h
  | createHall dto hall seats =>
    refine hcommit fun x db' hu => ?_
    obtain ⟨ht, hseats⟩ := Db.createHallWithSeats_eq_ok hu
    refine h.of_evolves (fun r hr => ?_) hseats ?_
    · rwa [ht] at hr
    · rw [ht]
      exact Table.Evolves.refl _ _
  | createMovie dto =>
    exact h.of_evolves (fun _ hr => hr) (Table.Evolves.refl _ _) (Table.Evolves.refl _ _)
  | updateMovie id dto d => exact hcommit fun x db' hu => hmovie hu
  | publish id => exact hcommit fun x db' hu => hmovie hu
  | unpublish id => exact hcommit fun x db' hu => hmovie hu
  | createScreening dto =>
    refine hcommit fun x db' hu => ?_
    obtain ⟨-, ht⟩ := Db.screeningCreate_eq_ok hu
    refine h.of_evolves (fun r hr => ?_) ?_ ?_
    · rwa [ht] at hr
    · rw [ht]
      exact Table.Evolves.refl _ _
    · rw [ht]
      exact evolves_insert dto.id_row
  | updateScreening id dto => exact hcommit (hscreening rfl)
  | cancelScreening id => exact hcommit (hscreening rfl)
  | deleteHall id => exact hcommit fun x db' hd => Db.hallDelete_eq_ok hd ▸ h.cascade _ _ _
  | deleteMovie id => exact hcommit fun x db' hd => Db.movieDelete_eq_ok hd ▸ h.cascade _ _ _
  | deleteScreening id =>
    exact hcommit fun x db' hd => Db.screeningDelete_eq_ok hd ▸ h.cascade _ _ _

end Commands

/-! ### Every history -/

section Histories
variable {σ A : Type} {api : StripeApi σ A} {w w' : World σ}

/-- A seat is looked for in the hall that the screening was found in. -/
def InHall (l : Trail) (c : Cmd) : Prop :=
  ∀ p, c = .holdSeat p → ∃ s : ScreeningWithMovieHall,
    ⟨.screeningFindById p.screeningId, .ok (some s)⟩ ∈ l ∧ s.hallId = p.hallId

theorem inHall_quiet {l : Trail} {c : Cmd} (hc : c.quiet) : InHall l c := by
  rintro p rfl
  cases hc

theorem reserve_inHall (u : ℕ) (dto : CreateReservationDto) :
    Informed InHall [] (ReservationsService.reserve u dto) :=
  reserve_informed (fun _ _ hc => inHall_quiet hc) fun _ screening t t' _ _ p hp => by
    cases hp
    exact ⟨screening, by simp, rfl⟩

theorem BookingRequest.handle_inHall (op : BookingRequest) : Informed InHall [] op.handle := by
  have hother : (∀ u dto, op ≠ .reserve u dto) → Informed InHall [] op.handle := by
    refine fun hop => .of_only ((handle_only op).mono fun c hc l' p hp => ?_)
    subst hp
    cases hc with
    | quiet hq => cases hq
    | holdSeat _ h =>
      obtain ⟨dto, hdto⟩ := h
      exact absurd hdto (hop _ _)
  cases op with
  | reserve u dto => exact (reserve_inHall u dto).bind fun _ _ => trivial
  | _ => exact hother nofun

/-- The halls that the process was told the screenings are in are theirs. -/
def HallsKnown (l : Trail) (db : Db) : Prop :=
  ∀ id (s : ScreeningWithMovieHall), ⟨.screeningFindById id, .ok (some s)⟩ ∈ l →
    ∀ s' ∈ db.screenings.get id, s'.hallId = s.hallId

theorem HallsKnown.answered {op : BookingRequest} {l : Trail} {c : Cmd}
    (h : HallsKnown l w.db) (hc : BookingCmd op c) :
    HallsKnown (l ++ [⟨c, (World.exec api c w).1⟩]) (World.exec api c w).2.db := by
  have hplan : w.db.SamePlan (World.exec api c w).2.db := hc.samePlan
  intro id s hmem s' hs'
  rw [hplan.screenings] at hs'
  rcases List.mem_append.mp hmem with hold | hnew
  · exact h id s hold s' hs'
  · have heq := List.mem_singleton.mp hnew
    rw [Sigma.mk.injEq] at heq
    obtain ⟨rfl, heq⟩ := heq
    have hfound : w.db.screeningFindById id = some s := (Except.ok.inj (eq_of_heq heq)).symm
    unfold Db.screeningFindById at hfound
    simp only [Option.bind_eq_bind, Option.bind_eq_some_iff] at hfound
    obtain ⟨s₀, hs₀, movie, -, hall, -, hs⟩ := hfound
    cases hs'.symm.trans hs₀
    cases hs
    rfl

theorem booking_housed (op : BookingRequest) (hw : Housed w.db)
    (ha : Along (World.exec api) (fun c v => c.Fitting v.db) op.handle w) :
    Housed (perform api op.handle w).2.db := by
  have honly : Informed (fun _ => BookingCmd op) [] op.handle :=
    .of_only (op.handle_only.mono fun _ hc _ => hc)
  obtain ⟨l, h, -⟩ : ∃ l, Housed (perform api op.handle w).2.db ∧
      HallsKnown l (perform api op.handle w).2.db := by
    refine (op.handle_inHall.and honly).run_along (World.exec api)
      (I := fun l v => Housed v.db ∧ HallsKnown l v.db) ?_ ha ⟨hw, fun _ _ hs => by cases hs⟩
    rintro l c v ⟨hhall, hc⟩ hfit ⟨hv, hknown⟩
    refine ⟨hv.booking hc hfit fun p hp s hs => ?_, hknown.answered hc⟩
    obtain ⟨found, hfound, heq⟩ := hhall p hp
    rw [hknown _ found hfound s hs, heq]
  exact h

theorem admin_housed (op : AdminRequest) (hw : Housed w.db)
    (ha : Along (World.exec api) (fun c v => c.Fitting v.db) op.handle w) :
    Housed (perform api op.handle w).2.db := by
  have honly : Informed (fun _ => AdminCmd op) [] op.handle :=
    .of_only (op.handle_only.mono fun _ hc _ => hc)
  obtain ⟨_, h⟩ := honly.run_along (World.exec api) (I := fun _ v => Housed v.db)
    (fun _ _ _ hc hfit hv => hv.admin hc hfit) ha hw
  exact h

theorem turn_housed {x : Turn Request A} (hw : Housed w.db)
    (h : turn api Request.handle x w = some w')
    (hx : x.Along api Request.handle (fun c v => c.Fitting v.db) w) : Housed w'.db := by
  cases x with
  | env e =>
    cases h
    rwa [World.elapse_db]
  | perform r xs =>
    rw [deliver_db api h]
    cases r with
    | booking op => exact booking_housed op hw hx
    | admin op => exact admin_housed op hw hx

/-- In every history in which a screening is moved to another hall only while it has no
active reservation, and only reservations that are active or fit are confirmed: every
active reservation is in the hall of its screening. -/
theorem seats_in_hall (api : StripeApi σ A) (w : World σ) (hw : Housed w.db)
    (ys : List (Turn Request A)) (w' : World σ) (h : history api Request.handle ys w = some w')
    (hys : Throughout api Request.handle (fun x v _ =>
      x.Along api Request.handle (fun c u => c.Fitting u.db) v) ys w) : Housed w'.db :=
  Throughout.keeps (I := fun v => Housed v.db) (fun _ _ _ hv hturn hx => turn_housed hv hturn hx)
    hys hw h

end Histories

/-- A seat is held, and the screening moves to another hall. -/
def movedUnderHold : List (Turn Request Account.Action) :=
  [.perform (.admin (.createHall ⟨"Hall 2", 1, 1⟩)) [],
    .perform (.booking (.reserve 1 ⟨1, 1⟩)) inOrder,
    .perform (.admin (.updateScreening 1 { hallId := some 2 })) []]

theorem held_elsewhere : ¬ ∀ ys w, history testMode Request.handle ys theatre = some w →
    Housed w.db := by
  intro h
  have hwrong : (history testMode Request.handle movedUnderHold theatre).any
      fun w => ¬ Housed w.db := by
    decide +kernel
  obtain ⟨w, hw, hwrong⟩ := (Option.any_eq_true _ _).mp hwrong
  exact of_decide_eq_true hwrong (h movedUnderHold w hw)

/-- The hold is given back before the screening moves, and the new hall is booked. -/
def movedWhenEmpty : List (Turn Request Account.Action) :=
  [.perform (.admin (.createHall ⟨"Hall 2", 1, 1⟩)) [],
    .perform (.booking (.reserve 1 ⟨1, 1⟩)) inOrder,
    .perform (.booking (.cancel 1 1)) inOrder,
    .perform (.admin (.updateScreening 1 { hallId := some 2 })) [],
    .perform (.booking (.reserve 1 ⟨1, 3⟩)) inOrder]

theorem housed_after_move : ∃ w,
    history testMode Request.handle movedWhenEmpty theatre = some w ∧ Housed w.db := by
  have hruns : (history testMode Request.handle movedWhenEmpty theatre).isSome := by
    decide +kernel
  obtain ⟨w, hw⟩ := Option.isSome_iff_exists.mp hruns
  exact ⟨w, hw, seats_in_hall testMode theatre (by decide +kernel) movedWhenEmpty w hw
    (by decide +kernel)⟩

end MovieReservation
