import MovieReservation.Services.Admin
import MovieReservation.Services.Upshot
import MovieReservation.Services.Delivery
import MovieReservation.Services.TestMode

/-! What the deletes of the administration take with them. The cascade reaches the
reservations through their screening and through their seat, the guards look through the
screening only: a hall that a screening has left takes the bookings on its seats along. -/

namespace MovieReservation

open Lib Lib.Prog Lib.Table

/-- No booking and no payment is gone. -/
structure Db.Spared (db db' : Db) : Prop where
  reservations : ∀ r ∈ db.reservations.rows, r ∈ db'.reservations.rows
  payments : ∀ p ∈ db.payments.rows, p ∈ db'.payments.rows

instance (db db' : Db) : Decidable (db.Spared db') :=
  decidable_of_iff ((∀ r ∈ db.reservations.rows, r ∈ db'.reservations.rows) ∧
    ∀ p ∈ db.payments.rows, p ∈ db'.payments.rows) ⟨fun h => ⟨h.1, h.2⟩, fun h => ⟨h.1, h.2⟩⟩

theorem Db.Spared.refl (db : Db) : db.Spared db := ⟨fun _ h => h, fun _ h => h⟩

/-! ### The cascade -/

namespace Db
variable (db : Db) (movie : Movie → Bool) (hall : Hall → Bool) (screening : Screening → Bool)

/-- What the cascade does not reach from a screening, and from a seat. -/
def KeptScreening (s : Screening) : Prop :=
  screening s ∧ (∀ h ∈ db.halls.get s.hallId, hall h) ∧ ∀ m ∈ db.movies.get s.movieId, movie m

def KeptSeat (seat : Seat) : Prop := ∀ h ∈ db.halls.get seat.hallId, hall h

variable {db movie hall screening}

theorem isSome_filter {ρ : Type} [Row ρ] {t : Table ρ} {p : ρ → Bool} {i : ℕ}
    (h : (t.get i).isSome) :
    ((t.filter p).get i).isSome ↔ ∀ x ∈ t.get i, p x := by
  obtain ⟨x, hx⟩ := Option.isSome_iff_exists.mp h
  rw [get_filter, hx, Option.filter_some]
  split_ifs with hp
  · simpa using hp
  · simpa using hp

theorem cascade_screening {s : Screening} (hs : s ∈ db.screenings.rows) :
    (screening s && ((db.halls.filter hall).get s.hallId).isSome &&
      ((db.movies.filter movie).get s.movieId).isSome) = true ↔
        db.KeptScreening movie hall screening s := by
  simp only [Bool.and_eq_true, isSome_filter (db.screening_hall s hs),
    isSome_filter (db.screening_movie s hs), KeptScreening, and_assoc]

/-- The cascade spares the bookings exactly if it reaches the screening and the seat of
none. -/
theorem cascade_spares_iff : db.Spared (db.cascade movie hall screening) ↔
    ∀ r ∈ db.reservations.rows,
      (∀ s ∈ db.screenings.get r.screeningId, db.KeptScreening movie hall screening s) ∧
        ∀ seat ∈ db.seats.get r.seatId, db.KeptSeat hall seat := by
  have hmem : ∀ r ∈ db.reservations.rows, r ∈ (db.cascade movie hall screening).reservations.rows ↔
      (∀ s ∈ db.screenings.get r.screeningId, db.KeptScreening movie hall screening s) ∧
        ∀ seat ∈ db.seats.get r.seatId, db.KeptSeat hall seat := by
    intro r hr
    simp only [cascade, rows_filter, List.mem_filter, hr, true_and, Bool.and_eq_true,
      isSome_filter (db.reservation_screening r hr), isSome_filter (db.reservation_seat r hr)]
    refine and_congr (forall₂_congr fun s hs => ?_) (forall₂_congr fun seat hseat => ?_)
    · simpa only [Bool.and_eq_true] using cascade_screening (mem_of_get hs)
    · exact isSome_filter (db.seat_hall seat (mem_of_get hseat))
  constructor
  · exact fun h r hr => (hmem r hr).mp (h.reservations r hr)
  · intro h
    have hreservations : ∀ r ∈ db.reservations.rows,
        r ∈ (db.cascade movie hall screening).reservations.rows := fun r hr =>
      (hmem r hr).mpr (h r hr)
    refine ⟨hreservations, fun p hp => List.mem_filter.mpr ⟨hp, ?_⟩⟩
    obtain ⟨r, hr⟩ := Option.isSome_iff_exists.mp (db.payment_reservation p hp)
    have hkept := get_of_mem (hreservations r (mem_of_get hr))
    rw [show Row.id r = p.reservationId from id_of_get hr] at hkept
    exact Option.isSome_iff_exists.mpr ⟨r, hkept⟩

/-- A reservation on a seat of the hall, for a screening that is shown elsewhere; and none
for a screening that is shown there. -/
def Stranded (id : ℕ) (db : Db) : Prop :=
  (∀ r ∈ db.reservations.rows, ∀ s ∈ db.screenings.get r.screeningId, s.hallId ≠ id) ∧
    ∃ r ∈ db.reservations.rows, ∃ seat ∈ db.seats.get r.seatId, seat.hallId = id

variable {id : ℕ}

theorem hallDelete_spares_iff {db' : Db} {h : Hall} (hd : db.hallDelete id = .ok (h, db'))
    (hguard : ∀ r ∈ db.reservations.rows, ∀ s ∈ db.screenings.get r.screeningId, s.hallId ≠ id) :
    db.Spared db' ↔
      ∀ r ∈ db.reservations.rows, ∀ seat ∈ db.seats.get r.seatId, seat.hallId ≠ id := by
  have hall_ne : ∀ {i : ℕ}, i ≠ id → ∀ h ∈ db.halls.get i, decide (h.id ≠ id) = true := by
    intro i hi h hh
    rw [decide_eq_true_eq, show h.id = i from id_of_get hh]
    exact hi
  rw [hallDelete_eq_ok hd, cascade_spares_iff]
  refine forall₂_congr fun r hr => ?_
  constructor
  · rintro ⟨-, hkept⟩ seat hseat heq
    obtain ⟨h, hh⟩ := Option.isSome_iff_exists.mp (db.seat_hall seat (mem_of_get hseat))
    refine of_decide_eq_true (hkept seat hseat h hh) ?_
    rw [← heq]
    exact id_of_get hh
  · exact fun hne => ⟨fun s hs => ⟨rfl, hall_ne (hguard r hr s hs), fun _ _ => rfl⟩,
      fun seat hseat => hall_ne (hne seat hseat)⟩

theorem screeningDelete_spares {db' : Db} {s : Screening}
    (hd : db.screeningDelete id = .ok (s, db'))
    (hguard : ∀ r ∈ db.reservations.rows, r.screeningId ≠ id) : db.Spared db' := by
  rw [screeningDelete_eq_ok hd, cascade_spares_iff]
  refine fun r hr => ⟨fun s hs => ⟨?_, fun _ _ => rfl, fun _ _ => rfl⟩, fun _ _ _ _ => rfl⟩
  rw [decide_eq_true_eq, show s.id = r.screeningId from id_of_get hs]
  exact hguard r hr

theorem movieDelete_spares {db' : Db} {m : Movie} (hd : db.movieDelete id = .ok (m, db'))
    (hguard : ∀ r ∈ db.reservations.rows, ∀ s ∈ db.screenings.get r.screeningId, s.movieId ≠ id) :
    db.Spared db' := by
  rw [movieDelete_eq_ok hd, cascade_spares_iff]
  refine fun r hr => ⟨fun s hs => ⟨rfl, fun _ _ => rfl, fun m hm => ?_⟩, fun _ _ _ _ => rfl⟩
  rw [decide_eq_true_eq, show m.id = s.movieId from id_of_get hm]
  exact hguard r hr s hs

end Db

/-! ### Requests -/

section Requests
variable {σ A : Type} (api : StripeApi σ A) {w : World σ}

theorem deleteHall_spares_iff (id : ℕ) (w : World σ) :
    w.db.Spared (perform api (AdminRequest.deleteHall id).handle w).2.db ↔
      ¬ w.db.Stranded id := by
  by_cases ha : (AdminRequest.deleteHall id).Accepts w.db
  · obtain ⟨hall, db, hx, hrun⟩ := AdminRequest.accepted api ha
    rw [hrun, Db.hallDelete_spares_iff (World.ok_of_commit hx) ha.2, Db.Stranded,
      and_iff_right ha.2]
    push Not
    rfl
  · rw [AdminRequest.refused ha]
    refine iff_of_true (.refl _) fun hstranded => ha ⟨?_, hstranded.1⟩
    obtain ⟨r, hr, seat, hseat, heq⟩ := hstranded.2
    rw [← heq]
    exact w.db.seat_hall seat (mem_of_get hseat)

theorem deleteScreening_spares (id : ℕ) (w : World σ) :
    w.db.Spared (perform api (AdminRequest.deleteScreening id).handle w).2.db := by
  by_cases ha : (AdminRequest.deleteScreening id).Accepts w.db
  · obtain ⟨s, db, hx, hrun⟩ := AdminRequest.accepted api ha
    rw [hrun]
    exact Db.screeningDelete_spares (World.ok_of_commit hx) ha.2
  · rw [AdminRequest.refused ha]
    exact .refl _

theorem deleteMovie_spares (id : ℕ) (w : World σ) :
    w.db.Spared (perform api (AdminRequest.deleteMovie id).handle w).2.db := by
  by_cases ha : (AdminRequest.deleteMovie id).Accepts w.db
  · obtain ⟨movie, db, hx, hrun⟩ := AdminRequest.accepted api ha
    rw [hrun]
    exact Db.movieDelete_spares (World.ok_of_commit hx) ha.2
  · rw [AdminRequest.refused ha]
    exact .refl _

/-! ### Every history -/

/-- A request of the administration that deletes a hall, a screening or a movie. -/
def Turn.deletes : Turn Request A → Bool
  | .perform (.admin (.deleteHall _)) _ | .perform (.admin (.deleteScreening _)) _
  | .perform (.admin (.deleteMovie _)) _ => true
  | _ => false

def Turn.Spares (x : Turn Request A) (w w' : World σ) : Prop :=
  x.deletes = true → w.db.Spared w'.db

instance (x : Turn Request A) (w w' : World σ) : Decidable (x.Spares w w') :=
  inferInstanceAs (Decidable (x.deletes = true → w.db.Spared w'.db))

/-- It deletes a hall that has bookings of a screening which left it. -/
def Turn.Strands : Turn Request A → World σ → Prop
  | .perform (.admin (.deleteHall id)) _, w => w.db.Stranded id
  | _, _ => False

theorem turn_spares_iff {x : Turn Request A} {w w' : World σ}
    (h : turn api Request.handle x w = some w') : x.Spares w w' ↔ ¬ x.Strands w := by
  cases x with
  | env e => exact iff_of_true (fun hd => by cases hd) id
  | perform r xs =>
    have hdb : w'.db = (perform api r.handle w).2.db := deliver_db api h
    unfold Turn.Spares
    rw [hdb]
    cases r with
    | booking r => exact iff_of_true (fun hd => by cases hd) id
    | admin r =>
      cases r with
      | deleteHall n =>
        have hdelete := deleteHall_spares_iff api n w
        exact ⟨fun hs => hdelete.mp (hs rfl), fun hn _ => hdelete.mpr hn⟩
      | deleteScreening n => exact iff_of_true (fun _ => deleteScreening_spares api n w) id
      | deleteMovie n => exact iff_of_true (fun _ => deleteMovie_spares api n w) id
      | _ => exact iff_of_true (fun hd => by cases hd) id

/-- In every history: no delete of the administration takes a reservation or a payment
along exactly if none is of a hall that has bookings of a screening which left it. -/
theorem deletes_spare_iff (ys : List (Turn Request A)) (w : World σ) :
    Throughout api Request.handle Turn.Spares ys w ↔
      Throughout api Request.handle (fun x v _ => ¬ x.Strands v) ys w :=
  throughout_congr (fun _ _ _ h => turn_spares_iff api h) ys w

end Requests

/-- A seat of the first hall is booked, the screening moves to the second, and the first is
deleted. -/
def movedAway : List (Turn Request Account.Action) :=
  [.perform (.admin (.createHall ⟨"Hall 2", 1, 1⟩)) [],
    .perform (.booking (.reserve 1 ⟨1, 1⟩)) inOrder,
    .perform (.admin (.updateScreening 1 { hallId := some 2 })) [],
    .perform (.admin (.deleteHall 1)) []]

theorem booking_deleted :
    ¬ ∀ ys, Throughout testMode Request.handle Turn.Spares ys theatre := by
  intro h
  have hspares := h movedAway
  have hgone : ¬ Throughout testMode Request.handle Turn.Spares movedAway theatre := by
    decide +kernel
  exact hgone hspares

end MovieReservation
