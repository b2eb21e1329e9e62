import MovieReservation.Lib.Query
import MovieReservation.Services.Moves
import MovieReservation.Services.TestMode
import MovieReservation.Services.Upshot

/-! What a seat map tells that is computed afresh: whether a seat of it can be held, and how
many of its seats are held and booked. -/

namespace MovieReservation

open Lib Lib.Prog Lib.Table

/-! ### What can be held -/

section Holds
variable {σ A : Type} (api : StripeApi σ A)

/-- The hold succeeds, with one reservation more, which is HELD. -/
def CreatesHold (params : Db.HoldSeatParams) (w : World σ) : Prop :=
  ∃ r, (perform api (ReservationsRepository.holdSeat params) w).1 = .ok r ∧ r.status = .held ∧
    (perform api (ReservationsRepository.holdSeat params) w).2.db.reservations.rows =
      w.db.reservations.rows ++ [r]

/-- The hold is answered with a 409, or with a 400. -/
def ConflictsHold (params : Db.HoldSeatParams) (w : World σ) : Prop :=
  ∃ message, (perform api (ReservationsRepository.holdSeat params) w).1 = .error (.conflict message)

def RejectsHold (params : Db.HoldSeatParams) (w : World σ) : Prop :=
  ∃ message,
    (perform api (ReservationsRepository.holdSeat params) w).1 = .error (.badRequest message)

variable {api} {w : World σ} {params : Db.HoldSeatParams}

variable (api) in
/-- A hold of a screening that exists: the seat is not in the hall, is taken, or is free. -/
theorem holdSeat_cases (hscreening : (w.db.screenings.get params.screeningId).isSome) :
    (RejectsHold api params w ∧ ∀ seat ∈ w.db.seats.get params.seatId,
      seat.hallId ≠ params.hallId) ∨
    (ConflictsHold api params w ∧ (∃ seat ∈ w.db.seats.get params.seatId,
      seat.hallId = params.hallId) ∧ ∃ i, ∃ r ∈ w.db.reservations.get i,
        r.Occupies params.screeningId params.seatId) ∨
    (CreatesHold api params w ∧ (∃ seat ∈ w.db.seats.get params.seatId,
      seat.hallId = params.hallId) ∧ ∀ i, ∀ r ∈ w.db.reservations.get i,
        ¬ r.Occupies params.screeningId params.seatId) := by
  have hexec : perform api (ReservationsRepository.holdSeat params) w =
      w.commit (w.db.holdSeat params) := rfl
  cases hres : w.db.holdSeat params with
  | ok out =>
    obtain ⟨r, db'⟩ := out
    obtain ⟨seat, hs, hh, hfree, -, hr, ht⟩ := Db.holdSeat_eq_ok hres
    refine .inr (.inr ⟨⟨r, ?_, ?_, ?_⟩, ⟨seat, hs, hh⟩, fun i q hq hocc => ?_⟩)
    · rw [hexec, hres]
      rfl
    · rw [hr]
      rfl
    · rw [hexec, hres, hr]
      simp [World.commit, ht]
    · have hactive := hfree q (mem_of_get hq) hocc.1 hocc.2.1
      rw [hocc.2.2] at hactive
      cases hactive
  | error e =>
    have herror : (perform api (ReservationsRepository.holdSeat params) w).1 = .error e := by
      rw [hexec, hres]
      rfl
    rcases Db.holdSeat_eq_error hres with ⟨hmissing, rfl⟩ | ⟨seat, hs, hh, ⟨htaken, rfl⟩ | hnone⟩
    · exact .inl ⟨⟨_, herror⟩, hmissing⟩
    · obtain ⟨r, hr, hocc⟩ := htaken
      exact .inr (.inl ⟨⟨_, herror⟩, ⟨seat, hs, hh⟩, r.id, r, get_of_mem hr, hocc⟩)
    · exact absurd hscreening hnone.2.1

variable (api w params) in
/-- One answer excludes the others. -/
theorem holdSeat_exclusive :
    ¬ (RejectsHold api params w ∧ ConflictsHold api params w) ∧
      ¬ (RejectsHold api params w ∧ CreatesHold api params w) ∧
      ¬ (ConflictsHold api params w ∧ CreatesHold api params w) := by
  refine ⟨?_, ?_, ?_⟩
  · rintro ⟨⟨m, h⟩, m', h'⟩
    cases h.symm.trans h'
  · rintro ⟨⟨m, h⟩, r, h', -⟩
    cases h.symm.trans h'
  · rintro ⟨⟨m, h⟩, r, h', -⟩
    cases h.symm.trans h'

theorem mem_findSeatsByHall {db : Db} {hallId : ℕ} {seat : Seat} :
    seat ∈ db.findSeatsByHall hallId ↔ db.seats.get seat.id = some seat ∧ seat.hallId = hallId := by
  rw [Db.findSeatsByHall, List.mem_insertionSort, List.mem_filter, decide_eq_true_eq,
    get_eq_some]
  simp

/-- The seat map of a screening shows a seat of its hall, with the status it has. -/
theorem mem_freshSeatMap {db : Db} {screening : Screening} {m : List SeatMapEntry}
    (hs : db.screenings.get screening.id = some screening)
    (hm : db.freshSeatMap screening.id = some m) (seatId : ℕ) (st : SeatStatus) :
    (∃ e ∈ m, e.seatId = seatId ∧ e.status = st) ↔
      (∃ seat ∈ db.seats.get seatId, seat.hallId = screening.hallId) ∧
        db.seatStatus screening.id seatId = st := by
  obtain ⟨movie, hall, -, hfound⟩ := Db.screeningFindById_eq hs
  have heq : m = ScreeningsService.seatMap (db.findSeatsByHall screening.hallId)
      (db.findActiveReservations screening.id) := by
    simp only [Db.freshSeatMap, hfound, Option.bind_eq_bind, Option.bind_some] at hm
    split_ifs at hm
    exact (Option.some.inj hm).symm
  subst heq
  simp only [ScreeningsService.seatMap, List.mem_map]
  constructor
  · rintro ⟨e, ⟨seat, hseat, rfl⟩, rfl, hst⟩
    obtain ⟨hget, hhall⟩ := mem_findSeatsByHall.mp hseat
    exact ⟨⟨seat, hget, hhall⟩, hst⟩
  · rintro ⟨⟨seat, hget, hhall⟩, hst⟩
    have hid : seat.id = seatId := id_of_get hget
    subst hid
    exact ⟨_, ⟨seat, mem_findSeatsByHall.mpr ⟨hget, hhall⟩, rfl⟩, rfl, hst⟩

/-- What a seat map says of a seat is what a hold of the seat is answered. -/
structure PredictsHold (api : StripeApi σ A) (m : List SeatMapEntry) (params : Db.HoldSeatParams)
    (w : World σ) : Prop where
  available : (∃ e ∈ m, e.seatId = params.seatId ∧ e.status = .available) ↔
    CreatesHold api params w
  taken : (∃ e ∈ m, e.seatId = params.seatId ∧ (e.status = .held ∨ e.status = .booked)) ↔
    ConflictsHold api params w
  absent : (¬ ∃ e ∈ m, e.seatId = params.seatId) ↔ RejectsHold api params w

/-- A seat that is occupied shows as held or booked. -/
theorem seatStatus_occupied {db : Db} {s seat i : ℕ} {r : Reservation}
    (hr : db.reservations.get i = some r) (hocc : r.Occupies s seat) :
    db.seatStatus s seat = .held ∨ db.seatStatus s seat = .booked := by
  have hactive := hocc.2.2
  rw [Db.seatStatus_of_occupies hr hocc]
  cases hst : r.status with
  | held => exact .inl rfl
  | confirmed => exact .inr rfl
  | cancelled =>
    rw [hst] at hactive
    cases hactive

/-- A map that is computed now predicts every hold, be the seat's last reservation lapsed
and not swept yet, or cancelled however often. -/
theorem fresh_predicts {screening : Screening} {m : List SeatMapEntry}
    (hs : w.db.screenings.get screening.id = some screening)
    (hm : w.db.freshSeatMap screening.id = some m) (hscreening : params.screeningId = screening.id)
    (hhall : params.hallId = screening.hallId) : PredictsHold api m params w := by
  have hmem := mem_freshSeatMap hs hm params.seatId
  have hany : (∃ e ∈ m, e.seatId = params.seatId) ↔
      ∃ seat ∈ w.db.seats.get params.seatId, seat.hallId = screening.hallId := by
    constructor
    · rintro ⟨e, he, hid⟩
      exact ((hmem e.status).mp ⟨e, he, hid, rfl⟩).1
    · intro hseat
      obtain ⟨e, he, hid, -⟩ := (hmem _).mpr ⟨hseat, rfl⟩
      exact ⟨e, he, hid⟩
  have htaken : (∃ e ∈ m, e.seatId = params.seatId ∧ (e.status = .held ∨ e.status = .booked)) ↔
      (∃ seat ∈ w.db.seats.get params.seatId, seat.hallId = screening.hallId) ∧
        (w.db.seatStatus screening.id params.seatId = .held ∨
          w.db.seatStatus screening.id params.seatId = .booked) := by
    simp only [and_or_left, exists_or, hmem]
  obtain ⟨hrc, hra, hca⟩ := holdSeat_exclusive api w params
  have hexists : (w.db.screenings.get params.screeningId).isSome := by
    rw [hscreening, hs]
    rfl
  have hcases := holdSeat_cases api hexists
  rw [hscreening, hhall] at hcases
  rcases hcases with ⟨hreject, hmissing⟩ | ⟨hconflict, hseat, i, r, hr, hocc⟩ |
    ⟨hcreate, hseat, hfree⟩
  · have hno : ¬ ∃ seat ∈ w.db.seats.get params.seatId, seat.hallId = screening.hallId := by
      rintro ⟨seat, hseat, hh⟩
      exact hmissing seat hseat hh
    refine ⟨?_, ?_, ?_⟩
    · rw [hmem]
      exact iff_of_false (fun h => hno h.1) fun h => hra ⟨hreject, h⟩
    · rw [htaken]
      exact iff_of_false (fun h => hno h.1) fun h => hrc ⟨hreject, h⟩
    · rw [hany]
      exact iff_of_true hno hreject
  · have hst := seatStatus_occupied hr hocc
    refine ⟨?_, ?_, ?_⟩
    · rw [hmem]
      refine iff_of_false (fun h => ?_) fun h => hca ⟨hconflict, h⟩
      rw [h.2] at hst
      simp at hst
    · rw [htaken]
      exact iff_of_true ⟨hseat, hst⟩ hconflict
    · rw [hany]
      exact iff_of_false (fun h => h hseat) fun h => hrc ⟨h, hconflict⟩
  · have hst := Db.seatStatus_of_free hfree
    refine ⟨?_, ?_, ?_⟩
    · rw [hmem]
      exact iff_of_true ⟨hseat, hst⟩ hcreate
    · rw [htaken, hst]
      refine iff_of_false (fun h => ?_) fun h => hca ⟨h, hcreate⟩
      simp at h
    · rw [hany]
      exact iff_of_false (fun h => h hseat) fun h => hra ⟨h, hcreate⟩

variable (api) in
/-- With nothing cached and nothing in between, the seat map of a screening that is not
cancelled predicts what a hold of any seat is answered. -/
theorem seat_map_predicts_reserve (screening : Screening)
    (hs : w.db.screenings.get screening.id = some screening)
    (hst : screening.status ≠ .cancelled) (hcold : w.redis.cache (.seatMap screening.id) = none)
    (userId seatId : ℕ) (heldUntil : Time) :
    ∃ m w', perform api (ScreeningsService.getSeatMap screening.id) w = (.ok m, w') ∧
      PredictsHold api m ⟨userId, screening.id, screening.hallId, seatId, heldUntil⟩ w' := by
  obtain ⟨movie, hall, -, hfound⟩ := Db.screeningFindById_eq hs
  obtain ⟨m, hm⟩ : ∃ m, w.db.freshSeatMap screening.id = some m := by
    simp [Db.freshSeatMap, hfound, hst]
  refine ⟨m, { w with redis := w.redis.set (.seatMap screening.id) m }, ?_, ?_⟩
  · rw [perform_getSeatMap, hcold, hm]
  · exact fresh_predicts (w := { w with redis := w.redis.set (.seatMap screening.id) m })
      hs hm rfl rfl

end Holds

/-- User 1's hold of seat 1 has lapsed, unswept; seat 2 was held and given up twice. -/
def lapsedAndGivenUp : List (Turn BookingRequest Account.Action) :=
  [.perform (.reserve 2 ⟨1, 2⟩) inOrder, .perform (.cancel 2 1) inOrder,
    .perform (.reserve 2 ⟨1, 2⟩) inOrder, .perform (.cancel 2 2) inOrder,
    .perform (.reserve 1 ⟨1, 1⟩) inOrder, .env (.advance 3600000), .env (.evict (.seatMap 1))]

theorem lapsed_hold_predicted : ∃ m w', perform testMode (ScreeningsService.getSeatMap 1)
      (afterTurns lapsedAndGivenUp) = (.ok m, w') ∧
    PredictsHold testMode m ⟨2, 1, 1, 1, 7200000⟩ w' :=
  seat_map_predicts_reserve testMode ⟨1, 1, 1, 50 * 3600000, .scheduled, 10⟩ (by decide +kernel)
    (by decide) (by decide +kernel) 2 1 7200000

example : (perform testMode (ScreeningsService.getSeatMap 1) (afterTurns lapsedAndGivenUp)).1 =
    .ok [⟨1, "A", "1", .held⟩, ⟨2, "A", "2", .available⟩] := by
  decide +kernel

/-! ### How many seats are held and booked -/

/-- In the states of `I` a command is answered with `x`, and leads to such a state. -/
def AnswersWith {S : Type} (exec : (c : Cmd) → S → Except Err c.Reply × S) (I : S → Prop)
    (c : Cmd) (x : c.Reply) : Prop :=
  ∀ s, I s → (exec c s).1 = .ok x ∧ I (exec c s).2

/-- Services that answer the reads of a seat map with these rows, nothing being cached. -/
structure ReadsAs {S : Type} (exec : (c : Cmd) → S → Except Err c.Reply × S) (I : S → Prop)
    (screening : ScreeningWithMovieHall) (seats : List Seat) (reservations : List Reservation) :
    Prop where
  cold : AnswersWith exec I (.cacheGet (.seatMap screening.id)) none
  found : AnswersWith exec I (.screeningFindById screening.id) (some screening)
  seats : AnswersWith exec I (.findSeatsByHall screening.hallId) seats
  reservations : AnswersWith exec I (.findActiveReservations screening.id) reservations

/-- The summary counts the reservations of each status, and the seats that have none. -/
structure CountsReservations (seats : List Seat) (reservations : List Reservation)
    (summary : ScreeningSummary) : Prop where
  held : summary.held = reservations.countP fun r => r.status = .held
  booked : summary.booked = reservations.countP fun r => r.status = .confirmed
  reserved : summary.reserved = (reservations.countP fun r => r.status = .held) +
    reservations.countP fun r => r.status = .confirmed
  capacity : summary.capacity = seats.length
  available : summary.available =
    seats.countP fun seat => !reservations.any fun r => r.seatId = seat.id

section Summary
variable {S : Type} {exec : (c : Cmd) → S → Except Err c.Reply × S} {I : S → Prop}
  {screening : ScreeningWithMovieHall} {seats : List Seat} {reservations : List Reservation}

/-- The services around a database that is read, with an empty cache. -/
theorem readsAs_world {σ A : Type} (api : StripeApi σ A) {w : World σ}
    (hfound : w.db.screeningFindById screening.id = some screening)
    (hcold : w.redis.cache (.seatMap screening.id) = none) :
    ReadsAs (World.exec api) (· = w) screening (w.db.findSeatsByHall screening.hallId)
      (w.db.findActiveReservations screening.id) := by
  constructor
  · rintro v rfl
    exact ⟨congrArg Except.ok hcold, rfl⟩
  · rintro v rfl
    exact ⟨congrArg Except.ok hfound, rfl⟩
  · rintro v rfl
    exact ⟨rfl, rfl⟩
  · rintro v rfl
    exact ⟨rfl, rfl⟩

theorem run_answersWith {c : Cmd} {x : c.Reply} (h : AnswersWith exec I c x) {s : S} (hs : I s)
    {α : Type} (f : c.Reply → M α) :
    ∃ t, I t ∧ (request c >>= f).run exec s = (f x).run exec t := by
  obtain ⟨hx, ht⟩ := h s hs
  refine ⟨(exec c s).2, ht, ?_⟩
  rw [request, issue, bind_call, run_call, hx]
  rfl

/-- The map is computed, whatever becomes of storing it. -/
theorem run_getSeatMap (h : ReadsAs exec I screening seats reservations)
    (hlive : screening.status ≠ .cancelled) {s : S} (hs : I s) :
    ((ScreeningsService.getSeatMap screening.id).run exec s).1 =
      .ok (ScreeningsService.seatMap seats reservations) := by
  have hget : (ScreeningsCache.getSeatMap screening.id).run exec s =
      (.ok none, (exec (.cacheGet (.seatMap screening.id)) s).2) := by
    simp [ScreeningsCache.getSeatMap, cacheGet, request, issue, (h.cold s hs).1]
  have hset : ∀ m s, ((ScreeningsCache.setSeatMap screening.id m).run exec s).1 = .ok () := by
    intro m s
    simp only [ScreeningsCache.setSeatMap, cacheSet, request, issue, tryCatch_call, run_call]
    cases (exec (.cacheSet (.seatMap screening.id) m) s).1 <;> rfl
  have hstore : ∀ m s, ((ScreeningsCache.setSeatMap screening.id m >>= fun _ =>
      (pure m : M (List SeatMapEntry))).run exec s).1 = .ok m := by
    intro m s
    rw [run_bind]
    rcases hrun : (ScreeningsCache.setSeatMap screening.id m).run exec s with ⟨r, t⟩
    have hr : r = .ok () := by
      rw [← hset m s, hrun]
    rw [hr]
    rfl
  rw [ScreeningsService.getSeatMap, run_bind, hget]
  dsimp only
  obtain ⟨t₁, ht₁, hfound⟩ := run_answersWith h.found (h.cold s hs).2 _
  rw [ScreeningsRepository.findById, hfound]
  simp only [throwIf, if_neg hlive, pure_eq, bind_ok]
  obtain ⟨t₂, ht₂, hseats⟩ := run_answersWith h.seats ht₁ _
  obtain ⟨t₃, -, hreservations⟩ := run_answersWith h.reservations ht₂ _
  rw [hseats, hreservations]
  exact hstore _ _

theorem toSeatStatus_held {x : Option ReservationStatus} :
    ScreeningsService.toSeatStatus x = .held ↔ x = some .held := by
  rcases x with _ | _ | _ | _ <;> simp [ScreeningsService.toSeatStatus]

theorem toSeatStatus_booked {x : Option ReservationStatus} :
    ScreeningsService.toSeatStatus x = .booked ↔ x = some .confirmed := by
  rcases x with _ | _ | _ | _ <;> simp [ScreeningsService.toSeatStatus]

/-- Seats are counted as the reservations that give them their status. -/
theorem countP_seatMap (hids : (seats.map Seat.id).Nodup)
    (hone : (reservations.map Reservation.seatId).Nodup)
    (hhall : ∀ r ∈ reservations, ∃ seat ∈ seats, seat.id = r.seatId) (status : SeatStatus)
    (st : ReservationStatus)
    (hst : ∀ x, ScreeningsService.toSeatStatus x = status ↔ x = some st) :
    (ScreeningsService.seatMap seats reservations).countP (fun e => e.status = status) =
      reservations.countP fun r => r.status = st := by
  have hagree : ∀ r ∈ reservations, ∀ q ∈ reservations, r.seatId = q.seatId →
      r.status = q.status := fun r hr q hq hseat => by
    rw [List.inj_on_of_nodup_map hone hr hq hseat]
  rw [← countP_of_keys hids hone hhall, ScreeningsService.seatMap, List.countP_map]
  refine List.countP_congr fun seat _ => ?_
  simp [hst, ScreeningsService.statusBySeat_eq_some hagree]

/-- Nobody else has a seat: there are as many reservations as seats that are taken. -/
theorem countP_taken (hids : (seats.map Seat.id).Nodup)
    (hone : (reservations.map Reservation.seatId).Nodup)
    (hhall : ∀ r ∈ reservations, ∃ seat ∈ seats, seat.id = r.seatId) :
    (seats.countP fun seat => reservations.any fun r => r.seatId = seat.id) =
      reservations.length := by
  have hcount := countP_of_keys hids hone hhall fun _ => true
  simpa using hcount

theorem length_active (hactive : ∀ r ∈ reservations, r.status.active) :
    reservations.length = (reservations.countP fun r => r.status = .held) +
      reservations.countP fun r => r.status = .confirmed := by
  induction reservations with
  | nil => rfl
  | cons r rs ih =>
    have hr := hactive r List.mem_cons_self
    have hrs := ih fun q hq => hactive q (List.mem_cons_of_mem _ hq)
    simp only [List.length_cons, List.countP_cons]
    cases hst : r.status with
    | held => simp; omega
    | confirmed => simp; omega
    | cancelled =>
      rw [hst] at hr
      cases hr

variable (screening) in
/-- The seat map has an entry for each seat, in order, and the summary counts the
reservations: at most one for each seat, all of them active and of seats of the hall. -/
theorem summary_counts_reservations (h : ReadsAs exec I screening seats reservations)
    (hlive : screening.status ≠ .cancelled) (hids : (seats.map Seat.id).Nodup)
    (hactive : ∀ r ∈ reservations, r.status.active)
    (hone : (reservations.map Reservation.seatId).Nodup)
    (hhall : ∀ r ∈ reservations, ∃ seat ∈ seats, seat.id = r.seatId) {s : S} (hs : I s) :
    (∃ m, ((ScreeningsService.getSeatMap screening.id).run exec s).1 = .ok m ∧
      m.map (fun e => (e.seatId, e.row, e.number)) =
        seats.map fun seat => (seat.id, seat.row, seat.number)) ∧
    ∃ summary, ((ScreeningsService.getScreeningSummary screening.id).run exec s).1 = .ok summary ∧
      CountsReservations seats reservations summary := by
  have hrun := run_getSeatMap h hlive hs
  have hheld := countP_seatMap hids hone hhall .held .held fun _ => toSeatStatus_held
  have hbooked := countP_seatMap hids hone hhall .booked .confirmed fun _ => toSeatStatus_booked
  refine ⟨⟨_, hrun, by simp [ScreeningsService.seatMap]⟩, ?_⟩
  rcases hmap : (ScreeningsService.getSeatMap screening.id).run exec s with ⟨r, t⟩
  have hr : r = .ok (ScreeningsService.seatMap seats reservations) := by
    rw [← hrun, hmap]
  rw [ScreeningsService.getScreeningSummary, run_bind, hmap, hr]
  refine ⟨_, rfl, hheld, hbooked, ?_, ?_, ?_⟩
  · dsimp only
    rw [hheld, hbooked]
  · simp [ScreeningsService.seatMap]
  · have htaken := countP_taken hids hone hhall
    have hlength := length_active hactive
    have hsplit := List.length_eq_countP_add_countP
      (fun seat : Seat => reservations.any fun r => r.seatId = seat.id) (l := seats)
    have hcapacity : (ScreeningsService.seatMap seats reservations).length = seats.length := by
      simp [ScreeningsService.seatMap]
    simp only [Bool.not_eq_true, Bool.decide_eq_false] at hsplit
    dsimp only
    rw [hheld, hbooked, hcapacity]
    omega

end Summary

/-- Seat 1 is paid for, seat 2 is free. -/
def onePaid : List (Turn BookingRequest Account.Action) :=
  heldAndPaid ++ [paidTurn, .env (.evict (.seatMap 1))]

/-- The screening of the theatre as it is read. -/
def metropolis : ScreeningWithMovieHall where
  id := 1
  hallId := 1
  movieId := 1
  startTime := 50 * 3600000
  status := .scheduled
  price := 10
  movie := ⟨1, "Metropolis", "", 153, "", "", 8, "de", "drama", .draft⟩
  hall := ⟨1, "Hall 1", 2⟩

theorem one_paid_counted : (∃ m, ((ScreeningsService.getSeatMap 1).run (World.exec testMode)
      (afterTurns onePaid)).1 = .ok m ∧ m.map (fun e => (e.seatId, e.row, e.number)) =
        ((afterTurns onePaid).db.findSeatsByHall 1).map fun seat =>
          (seat.id, seat.row, seat.number)) ∧
    ∃ summary, ((ScreeningsService.getScreeningSummary 1).run (World.exec testMode)
      (afterTurns onePaid)).1 = .ok summary ∧
        CountsReservations ((afterTurns onePaid).db.findSeatsByHall 1)
          ((afterTurns onePaid).db.findActiveReservations 1) summary :=
  summary_counts_reservations metropolis
    (readsAs_world testMode (by decide +kernel) (by decide +kernel)) (by decide)
    (by decide +kernel) (by decide +kernel) (by decide +kernel) (by decide +kernel) rfl

end MovieReservation
