import MovieReservation.Lib.Grouping
import MovieReservation.Lib.Replica
import MovieReservation.Services.Steps

/-! The status of the seats of a screening, and the moves: the statements that rewrite it
with the events that announce them. Replayed over the statuses before a move, what it
announces gives the statuses after it, unless a decline gives up a seat that another
reservation has taken. -/

namespace MovieReservation

open Lib Lib.Prog Lib.Table

/-! ### The status of a seat -/

namespace ScreeningsService

/-- Where the reservations of a seat agree on their status, that is what the loop finds. -/
theorem statusBySeat_eq_some {seat : ℕ} {st : ReservationStatus} {l : List Reservation}
    (h : ∀ r ∈ l, ∀ q ∈ l, r.seatId = q.seatId → r.status = q.status) :
    statusBySeat l seat = some st ↔ ∃ r ∈ l, r.seatId = seat ∧ r.status = st := by
  induction l using List.reverseRecOn with
  | nil => simp [statusBySeat]
  | append_singleton l r ih =>
    have hstep : statusBySeat (l ++ [r]) =
        Function.update (statusBySeat l) r.seatId (some r.status) := by
      simp only [statusBySeat, List.foldl_append, List.foldl_cons, List.foldl_nil]
    have hr : r ∈ l ++ [r] := List.mem_append_right _ (List.mem_singleton_self r)
    rw [hstep]
    by_cases hseat : seat = r.seatId
    · subst hseat
      rw [Function.update_self, Option.some.injEq]
      constructor
      · exact fun hst => ⟨r, hr, rfl, hst⟩
      · rintro ⟨q, hq, hqseat, hst⟩
        exact (h r hr q hq hqseat.symm).trans hst
    · have ih' := ih fun a ha b hb => h a (List.mem_append_left _ ha) b (List.mem_append_left _ hb)
      rw [Function.update_of_ne hseat, ih']
      constructor
      · rintro ⟨q, hq, hq'⟩
        exact ⟨q, List.mem_append_left _ hq, hq'⟩
      · rintro ⟨q, hq, hqseat, hst⟩
        rcases List.mem_append.mp hq with hq | hq
        · exact ⟨q, hq, hqseat, hst⟩
        · rw [List.mem_singleton.mp hq] at hqseat
          exact absurd hqseat.symm hseat

end ScreeningsService

/-- An active reservation of the seat for the screening. -/
def Reservation.Occupies (screeningId seatId : ℕ) (r : Reservation) : Prop :=
  r.screeningId = screeningId ∧ r.seatId = seatId ∧ r.status.active

namespace Db

/-- The status that a seat map computed now shows. -/
def seatStatus (db : Db) (screeningId seatId : ℕ) : SeatStatus :=
  ScreeningsService.toSeatStatus
    (ScreeningsService.statusBySeat (db.findActiveReservations screeningId) seatId)

/-- What `getSeatMap` computes when nothing is cached. -/
def freshSeatMap (db : Db) (screeningId : ℕ) : Option (List SeatMapEntry) := do
  let screening ← db.screeningFindById screeningId
  if screening.status = .cancelled then none
  else some (ScreeningsService.seatMap (db.findSeatsByHall screening.hallId)
    (db.findActiveReservations screeningId))

variable {db db' : Db} {s seat : ℕ}

theorem occupies_unique {r q : Reservation} {i j : ℕ} (hr : db.reservations.get i = some r)
    (hq : db.reservations.get j = some q) (hro : r.Occupies s seat) (hqo : q.Occupies s seat) :
    i = j := by
  have hkey : ∀ {x : Reservation}, x.Occupies s seat → activeKey x = some (seat, s) :=
    fun hx => activeKey_eq_some.mpr ⟨hx.2.2, by rw [hx.1, hx.2.1]⟩
  have hrq := db.reservation_active_seat_screening_key.eq (mem_of_get hr) (mem_of_get hq)
    (hkey hro) (hkey hqo)
  rw [← id_of_get hr, ← id_of_get hq, hrq]

theorem seatStatus_iff {st : ReservationStatus} :
    ScreeningsService.statusBySeat (db.findActiveReservations s) seat = some st ↔
      ∃ i, ∃ r ∈ db.reservations.get i, r.Occupies s seat ∧ r.status = st := by
  have hmem : ∀ {r : Reservation}, r ∈ db.findActiveReservations s ↔
      db.reservations.get r.id = some r ∧ r.Occupies s r.seatId := by
    intro r
    simp only [findActiveReservations, List.mem_filter, decide_eq_true_eq, Reservation.Occupies,
      true_and, get_eq_some, row_reservation, and_true]
  rw [ScreeningsService.statusBySeat_eq_some]
  · constructor
    · rintro ⟨r, hr, rfl, hst⟩
      exact ⟨r.id, r, (hmem.mp hr).1, (hmem.mp hr).2, hst⟩
    · rintro ⟨i, r, hr, hro, hst⟩
      have hri : r.id = i := id_of_get hr
      refine ⟨r, hmem.mpr ⟨by rw [hri]; exact hr, ?_⟩, hro.2.1, hst⟩
      rw [hro.2.1]
      exact hro
  · intro r hr q hq hseat
    have hid := occupies_unique (hmem.mp hr).1 (hmem.mp hq).1 (hmem.mp hr).2
      (by rw [hseat]; exact (hmem.mp hq).2)
    have hget := (hmem.mp hr).1
    rw [hid, (hmem.mp hq).1] at hget
    rw [Option.some.inj hget]

theorem seatStatus_of_occupies {i : ℕ} {r : Reservation} (hr : db.reservations.get i = some r)
    (hro : r.Occupies s seat) :
    db.seatStatus s seat = ScreeningsService.toSeatStatus (some r.status) := by
  rw [seatStatus, seatStatus_iff.mpr ⟨i, r, hr, hro, rfl⟩]

theorem seatStatus_of_free (h : ∀ i, ∀ r ∈ db.reservations.get i, ¬ r.Occupies s seat) :
    db.seatStatus s seat = .available := by
  unfold seatStatus
  cases hst : ScreeningsService.statusBySeat (db.findActiveReservations s) seat with
  | none => rfl
  | some st =>
    obtain ⟨i, r, hr, hro, -⟩ := seatStatus_iff.mp hst
    exact absurd hro (h i r hr)

/-- The status of a seat is that of its active reservation, whichever row has it. -/
theorem seatStatus_congr
    (h : ∀ st, (∃ i, ∃ r ∈ db'.reservations.get i, r.Occupies s seat ∧ r.status = st) ↔
      ∃ i, ∃ r ∈ db.reservations.get i, r.Occupies s seat ∧ r.status = st) :
    db'.seatStatus s seat = db.seatStatus s seat := by
  unfold seatStatus
  congr 1
  refine Option.ext fun st => ?_
  simp only [seatStatus_iff, h]

theorem seatStatus_of_same (h : db'.reservations = db.reservations) :
    db'.seatStatus s = db.seatStatus s := by
  funext seat
  simp only [seatStatus, findActiveReservations, h]

theorem freshSeatMap_congr (hm : db'.movies = db.movies) (hh : db'.halls = db.halls)
    (hs : db'.screenings = db.screenings) (hseats : db'.seats = db.seats)
    (hst : db'.seatStatus s = db.seatStatus s) : db'.freshSeatMap s = db.freshSeatMap s := by
  have hentry : ∀ seats, ScreeningsService.seatMap seats (db'.findActiveReservations s) =
      ScreeningsService.seatMap seats (db.findActiveReservations s) := fun seats =>
    List.map_congr_left fun seat _ => congrArg _ (congrFun hst seat.id)
  simp only [freshSeatMap, screeningFindById, findSeatsByHall, hm, hh, hs, hseats, hentry]

/-! ### Rewrites of single rows -/

/-- A statement on row `id` leaves the seats of other rows as they are. -/
theorem seatStatus_update_of_not {id : ℕ} {d : ReservationData} {r r₀ : Reservation}
    (hr₀ : db.reservations.get id = some r₀) (hu : db.reservationUpdate id d = .ok (r, db'))
    (hne : ¬ (r₀.screeningId = s ∧ r₀.seatId = seat)) :
    db'.seatStatus s seat = db.seatStatus s seat := by
  obtain ⟨_, -, -, -, ht⟩ := reservationUpdate_eq_ok hu
  have hget : ∀ i, db'.reservations.get i =
      if i = id then (db.reservations.get i).map d.apply else db.reservations.get i := fun i => by
    rw [ht, get_modify]
  refine seatStatus_congr fun st => exists_congr fun i => ?_
  rw [hget]
  by_cases hi : i = id
  · subst hi
    rw [if_pos rfl, hr₀, Option.map_some]
    constructor
    · rintro ⟨q, hq, hqo, -⟩
      cases hq
      exact absurd ⟨hqo.1, hqo.2.1⟩ hne
    · rintro ⟨q, hq, hqo, -⟩
      cases hq
      exact absurd ⟨hqo.1, hqo.2.1⟩ hne
  · rw [if_neg hi]

/-- A rewrite that leaves the status leaves the seats. -/
theorem seatStatus_update_of_none {id : ℕ} {d : ReservationData} {r : Reservation}
    (hd : d.status = none) (hu : db.reservationUpdate id d = .ok (r, db')) :
    db'.seatStatus s seat = db.seatStatus s seat := by
  obtain ⟨_, -, -, -, ht⟩ := reservationUpdate_eq_ok hu
  have hstatus : ∀ q : Reservation, (d.apply q).status = q.status := fun q => by
    simp [ReservationData.apply, hd]
  refine seatStatus_congr fun st => exists_congr fun i => ?_
  rw [ht, get_modify]
  split_ifs
  · cases db.reservations.get i with
    | none => simp
    | some q =>
      simp only [Option.map_some, Option.mem_def, Option.some.injEq, exists_eq_left',
        Reservation.Occupies, ReservationData.apply_screeningId, ReservationData.apply_seatId,
        hstatus]
  · rfl

/-- A seat that is given up is free, unless another reservation has it. -/
theorem seatStatus_cancel {id : ℕ} {d : ReservationData} {r r₀ : Reservation}
    (hd : d.status = some .cancelled) (hr₀ : db.reservations.get id = some r₀)
    (hu : db.reservationUpdate id d = .ok (r, db')) (hfree : ¬ SeatTaken id db) :
    db'.seatStatus r₀.screeningId r₀.seatId = .available := by
  obtain ⟨_, -, -, -, ht⟩ := reservationUpdate_eq_ok hu
  refine seatStatus_of_free fun i q hq hqo => ?_
  rw [ht, get_modify] at hq
  split_ifs at hq with hi
  · obtain ⟨q₀, -, rfl⟩ := Option.map_eq_some_iff.mp hq
    simp [Reservation.Occupies, ReservationData.apply, hd, ReservationStatus.active] at hqo
  · have hqi : q.id = i := id_of_get hq
    exact hfree ⟨r₀, hr₀, q, mem_of_get hq, hqi ▸ hi, hqo.2.2, hqo.2.1, hqo.1⟩

theorem seatStatus_confirm {id : ℕ} {d : ReservationData} {r r₀ : Reservation}
    (hd : d.status = some .confirmed) (hr₀ : db.reservations.get id = some r₀)
    (hu : db.reservationUpdate id d = .ok (r, db')) :
    db'.seatStatus r₀.screeningId r₀.seatId = .booked := by
  have hget := reservationUpdate_get hu hr₀
  rw [if_pos rfl] at hget
  have hstatus : (d.apply r₀).status = .confirmed := by simp [ReservationData.apply, hd]
  have hocc : (d.apply r₀).Occupies r₀.screeningId r₀.seatId :=
    ⟨rfl, rfl, by rw [hstatus]; rfl⟩
  rw [seatStatus_of_occupies hget hocc, hstatus]
  rfl

/-- Nobody else has the seat of an active reservation. -/
theorem not_seatTaken_of_active {id : ℕ} {r : Reservation}
    (hr : db.reservations.get id = some r) (ha : r.status.active) : ¬ SeatTaken id db := by
  rintro ⟨r', hr', q, hq, hne, hqa, hseat, hscreening⟩
  cases hr.symm.trans hr'
  exact hne (occupies_unique (get_of_mem hq) hr ⟨hscreening, hseat, hqa⟩ ⟨rfl, rfl, ha⟩)

end Db

/-! ### Moves and what announces them -/

/-- What a message tells a client that keeps a seat map. -/
def RoomMessage.change : RoomMessage → Option (Delta ℕ SeatStatus)
  | .seatReserved seatIds status | .seatCancelled seatIds status | .seatBooked seatIds status =>
    some ⟨seatIds, status⟩
  | .summary _ => none

def changesIn (screeningId : ℕ) (rooms : List (ℕ × RoomMessage)) : List (Delta ℕ SeatStatus) :=
  rooms.filterMap fun x => if x.1 = screeningId then x.2.change else none

theorem changesIn_append (s : ℕ) (xs ys : List (ℕ × RoomMessage)) :
    changesIn s (xs ++ ys) = changesIn s xs ++ changesIn s ys := List.filterMap_append

/-- What `expireHolds` emits. -/
def sweepEvents (released : List Db.ExpiredHold) : List ReservationEvent :=
  (ReservationsService.byScreening released).map (fun g => .cancelled g.1 g.2) ++
    released.map fun r => .holdExpired r.userId r.screeningId r.seatId

/-- The statements that rewrite a status, with the events that follow them. -/
inductive Move : Cmd → Db → List ReservationEvent → Db → Prop
  | hold {p : Db.HoldSeatParams} {r : Reservation} {db db' : Db} : db.holdSeat p = .ok (r, db') →
    Move (.holdSeat p) db [.created p.screeningId [r.seatId]] db'
  | sweep (t : Time) (db : Db) : Move (.releaseExpiredHolds t) db
    (sweepEvents (db.releaseExpiredHolds t).1) (db.releaseExpiredHolds t).2
  | cancel {id : ℕ} {r x : Reservation} {db db' : Db} : db.reservations.get id = some r →
    r.status.active → db.reservationUpdate id { status := some .cancelled } = .ok (x, db') →
    Move (.reservationUpdate id { status := some .cancelled }) db
      [.cancelled r.screeningId [r.seatId]] db'
  | confirm {id : ℕ} {r : Reservation} {db db' : Db} :
    db.reservationUpdate id confirmData = .ok (r, db') →
    Move (.reservationUpdate id confirmData) db [.confirmed r.screeningId [r.seatId]] db'
  | decline {p id : ℕ} {x : Payment × Reservation} {db db' : Db} :
    db.declineWithReservation p id = .ok (x, db') →
    Move (.declineWithReservation p id) db [.cancelled x.2.screeningId [x.2.seatId]] db'
  | settle {p id : ℕ} {i : Option ℕ} {x : Payment × Reservation} {db db' : Db} :
    db.confirmWithReservation p id i = .ok (x, db') →
    Move (.confirmWithReservation p id i) db [.confirmed x.2.screeningId [x.2.seatId]] db'

/-- The reservation that a command confirms. -/
def Cmd.confirms : Cmd → Option ℕ
  | .reservationUpdate id d => if d.status = some .confirmed then some id else none
  | .confirmWithReservation _ id _ => some id
  | _ => none

/-- The reservation that a command gives up for a declined payment. -/
def Cmd.declines : Cmd → Option ℕ
  | .declineWithReservation _ id => some id
  | _ => none

/-- A decline for the screening finds no other reservation on the seat it gives up. -/
def Cmd.Clear (s : ℕ) (db : Db) (c : Cmd) : Prop :=
  ∀ id ∈ c.declines, ∀ r ∈ db.reservations.get id, r.screeningId = s → ¬ SeatTaken id db

instance (s : ℕ) (db : Db) : DecidablePred (Cmd.Clear s db) := fun c =>
  inferInstanceAs (Decidable (∀ id ∈ c.declines, ∀ r ∈ db.reservations.get id,
    r.screeningId = s → ¬ SeatTaken id db))

section Moves
variable {db db' : Db} {s seat : ℕ} {c : Cmd} {es : List ReservationEvent}

theorem pushTo_eq (k x : ℕ) (m : List (ℕ × List ℕ)) :
    ReservationsService.pushTo k x m = Grouping.push k x m := by
  induction m with
  | nil => rfl
  | cons g m ih => rw [ReservationsService.pushTo, Grouping.push, ih]

theorem byScreening_eq (released : List Db.ExpiredHold) :
    ReservationsService.byScreening released =
      Grouping.groupBy Db.ExpiredHold.screeningId Db.ExpiredHold.seatId released := by
  simp only [ReservationsService.byScreening, Grouping.groupBy, pushTo_eq]

theorem mem_byScreening {released : List Db.ExpiredHold} :
    (∃ g ∈ ReservationsService.byScreening released, g.1 = s ∧ seat ∈ g.2) ↔
      ∃ r ∈ released, r.screeningId = s ∧ r.seatId = seat := by
  simp only [byScreening_eq, Grouping.mem_groupBy]
  constructor
  · rintro ⟨g, ⟨-, hg⟩, rfl, hseat⟩
    exact Grouping.mem_valuesOf.mp (hg ▸ hseat)
  · rintro ⟨r, hr, rfl, rfl⟩
    exact ⟨(r.screeningId, Grouping.valuesOf _ _ r.screeningId released),
      ⟨List.mem_map_of_mem hr, rfl⟩, rfl, Grouping.mem_valuesOf.mpr ⟨r, hr, rfl, rfl⟩⟩

/-- The screenings that have a group. -/
theorem byScreening_keys {released : List Db.ExpiredHold} :
    (∃ g ∈ ReservationsService.byScreening released, g.1 = s) ↔
      ∃ r ∈ released, r.screeningId = s := by
  simp only [byScreening_eq, Grouping.mem_groupBy]
  constructor
  · rintro ⟨g, ⟨hg, -⟩, rfl⟩
    exact List.mem_map.mp hg
  · intro h
    exact ⟨(s, Grouping.valuesOf _ _ s released), ⟨List.mem_map.mpr h, rfl⟩, rfl⟩

theorem changesIn_sweep {released : List Db.ExpiredHold} {d : Delta ℕ SeatStatus} :
    d ∈ changesIn s ((sweepEvents released).flatMap ReservationEvent.delta) ↔
      d.value = .available ∧ (s, d.keys) ∈ ReservationsService.byScreening released := by
  obtain ⟨keys, value⟩ := d
  have hnone : (released.map fun r => ReservationEvent.holdExpired r.userId r.screeningId
      r.seatId).flatMap ReservationEvent.delta = [] := by
    simp [List.flatMap_eq_nil_iff, ReservationEvent.delta]
  simp only [sweepEvents, List.flatMap_append, hnone, List.append_nil, changesIn,
    List.mem_filterMap, List.mem_flatMap, List.mem_map]
  constructor
  · rintro ⟨x, ⟨e, ⟨g, hg, rfl⟩, hx⟩, hd⟩
    rw [List.mem_singleton.mp hx] at hd
    dsimp only at hd
    split_ifs at hd with hs
    cases hd
    exact ⟨rfl, hs ▸ hg⟩
  · rintro ⟨hv, hg⟩
    refine ⟨(s, .seatCancelled keys .available), ⟨_, ⟨(s, keys), hg, rfl⟩, ?_⟩, ?_⟩
    · exact List.mem_singleton_self _
    · rw [if_pos rfl, hv]
      rfl

/-- One row was rewritten and its seat announced. -/
theorem exact_of_single {r : Reservation} {m : RoomMessage} {v : SeatStatus}
    (hm : m.change = some ⟨[r.seatId], v⟩)
    (hne : ∀ seat, ¬ (r.screeningId = s ∧ r.seatId = seat) →
      db'.seatStatus s seat = db.seatStatus s seat)
    (heq : r.screeningId = s → db'.seatStatus r.screeningId r.seatId = v) :
    db'.seatStatus s = Delta.replay (changesIn s [(r.screeningId, m)]) (db.seatStatus s) := by
  funext seat
  by_cases hs : r.screeningId = s
  · subst hs
    simp only [changesIn, List.filterMap_cons, List.filterMap_nil, if_true, hm, Delta.replay_cons,
      Delta.replay_nil, Delta.apply, List.mem_singleton]
    split_ifs with hseat
    · rw [hseat, heq rfl]
    · exact hne seat fun h => hseat h.2.symm
  · simp only [changesIn, List.filterMap_cons, List.filterMap_nil, if_neg hs, Delta.replay_nil]
    exact hne seat fun h => hs h.1

theorem cancel_exact {id : ℕ} {d : ReservationData} {r x : Reservation}
    (hd : d.status = some .cancelled) (hr : db.reservations.get id = some r)
    (hu : db.reservationUpdate id d = .ok (x, db'))
    (hfree : r.screeningId = s → ¬ SeatTaken id db) :
    db'.seatStatus s = Delta.replay (changesIn s
      [(r.screeningId, .seatCancelled [r.seatId] .available)]) (db.seatStatus s) :=
  exact_of_single rfl (fun _ hne => Db.seatStatus_update_of_not hr hu hne)
    fun hs => Db.seatStatus_cancel hd hr hu (hfree hs)

theorem confirm_exact {id : ℕ} {r : Reservation}
    (hu : db.reservationUpdate id confirmData = .ok (r, db')) :
    db'.seatStatus s = Delta.replay (changesIn s
      [(r.screeningId, .seatBooked [r.seatId] .booked)]) (db.seatStatus s) := by
  obtain ⟨r₀, hr₀, rfl, -, -⟩ := Db.reservationUpdate_eq_ok hu
  exact exact_of_single (r := r₀) rfl (fun _ hne => Db.seatStatus_update_of_not hr₀ hu hne)
    fun _ => Db.seatStatus_confirm rfl hr₀ hu

theorem hold_exact {p : Db.HoldSeatParams} {r : Reservation} (hok : db.holdSeat p = .ok (r, db')) :
    db'.seatStatus s = Delta.replay (changesIn s
      [(p.screeningId, .seatReserved [r.seatId] .held)]) (db.seatStatus s) := by
  obtain ⟨_, -, -, -, -, rfl, ht⟩ := Db.holdSeat_eq_ok hok
  have hget : ∀ i, db'.reservations.get i = if i = db.reservations.serial
      then some (p.row db.reservations.serial) else db.reservations.get i := fun i => by
    rw [ht, get_insert]
  have hnew : db.reservations.get db.reservations.serial = none :=
    get_eq_none.mpr fun q hq => Nat.ne_of_lt (db.reservations.fresh q hq)
  refine exact_of_single (r := p.row db.reservations.serial) rfl (fun seat hne => ?_) fun _ => ?_
  · refine Db.seatStatus_congr fun st => exists_congr fun i => ?_
    rw [hget]
    split_ifs with hi
    · subst hi
      rw [hnew]
      constructor
      · rintro ⟨q, hq, hqo, -⟩
        cases hq
        exact absurd ⟨hqo.1, hqo.2.1⟩ hne
      · rintro ⟨q, hq, -⟩
        cases hq
    · rfl
  · exact Db.seatStatus_of_occupies ((hget _).trans (if_pos rfl)) ⟨rfl, rfl, rfl⟩

theorem sweep_exact (t : Time) :
    (db.releaseExpiredHolds t).2.seatStatus s = Delta.replay (changesIn s ((sweepEvents
      (db.releaseExpiredHolds t).1).flatMap ReservationEvent.delta)) (db.seatStatus s) := by
  have hget : ∀ i, (db.releaseExpiredHolds t).2.reservations.get i =
      (db.reservations.get i).map (Db.release t) := get_update (Db.release_id t)
  funext seat
  rw [Delta.replay_of_value (v := .available) fun d hd => (changesIn_sweep.mp hd).1]
  have htouched : (∃ d ∈ changesIn s ((sweepEvents (db.releaseExpiredHolds t).1).flatMap
      ReservationEvent.delta), seat ∈ d.keys) ↔
        ∃ r ∈ db.reservations.rows, Db.expired t r ∧ r.screeningId = s ∧ r.seatId = seat := by
    have hlist : (∃ r ∈ (db.releaseExpiredHolds t).1, r.screeningId = s ∧ r.seatId = seat) ↔
        ∃ r ∈ db.reservations.rows, Db.expired t r ∧ r.screeningId = s ∧ r.seatId = seat := by
      simp only [Db.releaseExpiredHolds, List.mem_map, List.mem_filter]
      constructor
      · rintro ⟨_, ⟨r, ⟨hr, he⟩, rfl⟩, hs, hseat⟩
        exact ⟨r, hr, he, hs, hseat⟩
      · rintro ⟨r, hr, he, hs, hseat⟩
        exact ⟨_, ⟨r, ⟨hr, he⟩, rfl⟩, hs, hseat⟩
    rw [← hlist, ← mem_byScreening]
    constructor
    · rintro ⟨d, hd, hseat⟩
      exact ⟨(s, d.keys), (changesIn_sweep.mp hd).2, rfl, hseat⟩
    · rintro ⟨⟨s', keys⟩, hg, hs, hseat⟩
      cases hs
      exact ⟨⟨keys, .available⟩, changesIn_sweep.mpr ⟨rfl, hg⟩, hseat⟩
  have hactive : ∀ {q : Reservation}, Db.expired t q → q.status.active := fun hq => by
    simp only [Db.expired, Bool.and_eq_true, decide_eq_true_eq] at hq
    rw [hq.1]
    rfl
  have hlapsed : ∀ {q : Reservation}, Db.expired t q → (Db.release t q).status.active = false :=
    fun hq => by rw [Db.release, if_pos hq]; rfl
  split_ifs with h
  · obtain ⟨r, hr, he, hs, hseat⟩ := htouched.mp h
    refine Db.seatStatus_of_free fun i q hq hqo => ?_
    rw [hget] at hq
    obtain ⟨q₀, hq₀, rfl⟩ := Option.map_eq_some_iff.mp hq
    by_cases he₀ : Db.expired t q₀
    · rw [Reservation.Occupies, hlapsed he₀] at hqo
      exact absurd hqo.2.2 (by decide)
    · rw [Db.release, if_neg he₀] at hqo
      have hid := Db.occupies_unique (get_of_mem hr) hq₀ ⟨hs, hseat, hactive he⟩ hqo
      rw [← hid, get_of_mem hr] at hq₀
      exact he₀ (Option.some.inj hq₀ ▸ he)
  · refine Db.seatStatus_congr fun st => exists_congr fun i => ?_
    rw [hget]
    cases hq : db.reservations.get i with
    | none => simp
    | some q =>
      simp only [Option.map_some, Option.mem_def, Option.some.injEq, exists_eq_left']
      by_cases he : Db.expired t q
      · refine iff_of_false (fun hqo => ?_) fun hqo => ?_
        · rw [Reservation.Occupies, hlapsed he] at hqo
          exact absurd hqo.1.2.2 (by decide)
        · exact h (htouched.mpr ⟨q, mem_of_get hq, he, hqo.1.1, hqo.1.2.1⟩)
      · rw [Db.release, if_neg he]

/-- The seats of a screening after a move are those before it with the announced changes. -/
theorem Move.exact (h : Move c db es db') (hc : c.Clear s db) :
    db'.seatStatus s =
      Delta.replay (changesIn s (es.flatMap ReservationEvent.delta)) (db.seatStatus s) := by
  cases h with
  | hold hok => exact hold_exact hok
  | sweep t => exact sweep_exact t
  | cancel hr ha hu =>
    exact cancel_exact rfl hr hu fun _ => Db.not_seatTaken_of_active hr ha
  | confirm hu => exact confirm_exact hu
  | decline hok =>
    obtain ⟨db₁, h₁, h₂⟩ := Db.updateBoth_eq_ok hok
    obtain ⟨_, -, -, -, ht⟩ := Db.paymentUpdate_eq_ok h₁
    have hsame : db₁.reservations = db.reservations := by rw [ht]
    obtain ⟨r₀, hr₀, he, -, -⟩ := Db.reservationUpdate_eq_ok h₂
    rw [he, ← Db.seatStatus_of_same hsame]
    refine cancel_exact (r := r₀) rfl hr₀ h₂ fun hs => ?_
    rw [hsame] at hr₀
    simpa only [SeatTaken, hsame] using hc _ rfl r₀ hr₀ hs
  | settle hok =>
    obtain ⟨db₁, h₁, h₂⟩ := Db.updateBoth_eq_ok hok
    obtain ⟨_, -, -, -, ht⟩ := Db.paymentUpdate_eq_ok h₁
    have hsame : db₁.reservations = db.reservations := by rw [ht]
    rw [← Db.seatStatus_of_same hsame]
    exact confirm_exact h₂

/-- The tables of the theatre: movies, halls, screenings, seats. -/
structure Db.SamePlan (db db' : Db) : Prop where
  movies : db'.movies = db.movies
  halls : db'.halls = db.halls
  screenings : db'.screenings = db.screenings
  seats : db'.seats = db.seats

theorem Db.SamePlan.refl (db : Db) : db.SamePlan db := ⟨rfl, rfl, rfl, rfl⟩

theorem Db.SamePlan.trans {a b c : Db} (h : a.SamePlan b) (h' : b.SamePlan c) : a.SamePlan c :=
  ⟨h'.movies.trans h.movies, h'.halls.trans h.halls, h'.screenings.trans h.screenings,
    h'.seats.trans h.seats⟩

theorem Db.SamePlan.of_reservations {t : Table Reservation}
    (h : db'.toTables = { db.toTables with reservations := t }) : db.SamePlan db' := by
  constructor <;> rw [h]

theorem Db.SamePlan.of_both {pid id : ℕ} {p : PaymentData} {d : ReservationData}
    {x : Payment × Reservation} (h : db.updateBoth pid p id d = .ok (x, db')) :
    db.SamePlan db' := by
  obtain ⟨db₁, h₁, h₂⟩ := Db.updateBoth_eq_ok h
  obtain ⟨_, -, -, -, ht₁⟩ := Db.paymentUpdate_eq_ok h₁
  obtain ⟨_, -, -, -, ht₂⟩ := Db.reservationUpdate_eq_ok h₂
  constructor <;> rw [ht₂, ht₁]

theorem Move.samePlan (h : Move c db es db') : db.SamePlan db' := by
  cases h with
  | hold hok =>
    obtain ⟨_, -, -, -, -, -, ht⟩ := Db.holdSeat_eq_ok hok
    exact .of_reservations ht
  | sweep t => exact ⟨rfl, rfl, rfl, rfl⟩
  | cancel hr ha hu =>
    obtain ⟨_, -, -, -, ht⟩ := Db.reservationUpdate_eq_ok hu
    exact .of_reservations ht
  | confirm hu =>
    obtain ⟨_, -, -, -, ht⟩ := Db.reservationUpdate_eq_ok hu
    exact .of_reservations ht
  | decline hok => exact .of_both hok
  | settle hok => exact .of_both hok

theorem Move.freshSeatMap (h : Move c db es db') (hst : db'.seatStatus s = db.seatStatus s) :
    db'.freshSeatMap s = db.freshSeatMap s :=
  Db.freshSeatMap_congr h.samePlan.movies h.samePlan.halls h.samePlan.screenings
    h.samePlan.seats hst

end Moves

end MovieReservation
