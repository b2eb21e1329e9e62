import MovieReservation.Schema

/-! The database: its tables with the constraints that Postgres keeps, and the
statements and transactions that the repositories issue. A value of `Db` satisfies
every foreign key and unique index that the migrations create, the partial index over
active reservations included, and holds amounts of four bytes, so a statement that would
break one answers with an error. No migration makes `Payment.stripePaymentId` unique. -/

namespace MovieReservation

open Lib (Row Table)
open Lib.Table

/-! ### Index entries -/

def ReservationStatus.active : ReservationStatus → Bool
  | .held | .confirmed => true
  | .cancelled => false

/-- The entry of a reservation in the partial index over active (seat, screening). -/
def activeKey (r : Reservation) : Option (ℕ × ℕ) :=
  if r.status.active then some (r.seatId, r.screeningId) else none

def seatKey (s : Seat) : Option (ℕ × String × String) := some (s.hallId, s.row, s.number)

def policyKey (p : RefundPolicy) : Option (ℤ × ℤ) := some (p.hoursFrom, p.hoursTo)

def paymentKey (p : Payment) : Option ℕ := some p.reservationId

theorem activeKey_eq_some {r : Reservation} {k : ℕ × ℕ} :
    activeKey r = some k ↔ r.status.active ∧ (r.seatId, r.screeningId) = k := by
  unfold activeKey
  split_ifs with h <;> simp [h]

structure Tables where
  movies : Table Movie
  halls : Table Hall
  screenings : Table Screening
  seats : Table Seat
  reservations : Table Reservation
  payments : Table Payment
  refundPolicies : Table RefundPolicy
  deriving DecidableEq

structure Db extends Tables where
  screening_hall : Refers Screening.hallId screenings halls
  screening_movie : Refers Screening.movieId screenings movies
  seat_hall : Refers Seat.hallId seats halls
  reservation_screening : Refers Reservation.screeningId reservations screenings
  reservation_seat : Refers Reservation.seatId reservations seats
  payment_reservation : Refers Payment.reservationId payments reservations
  seat_hallId_row_number_key : UniqueOn seatKey seats
  reservation_active_seat_screening_key : UniqueOn activeKey reservations
  payment_reservationId_key : UniqueOn paymentKey payments
  payment_stripeEventId_key : UniqueOn Payment.stripeEventId payments
  refund_policy_hours_key : UniqueOn policyKey refundPolicies
  payment_amount : Every (fun p => Int4 p.amount) payments

namespace Db

/-! ### Reservations -/

/-- The write of a single reservation row, with the partial index checked. -/
def reservationUpdate (db : Db) (id : ℕ) (data : ReservationData) : Except Err (Reservation × Db) :=
  match h : db.reservations.get id with
  | none => .error (.prisma .p2025)
  | some r =>
    if hc : db.reservations.Clash activeKey id (activeKey (data.apply r)) then
      .error (.prisma .p2002)
    else .ok (data.apply r, { db with
      reservations := db.reservations.modify id data.apply data.id_apply
      reservation_screening := db.reservation_screening.update _ fun r _ => .inr (by
        unfold atKey; split_ifs <;> rfl)
      reservation_seat := db.reservation_seat.update _ fun r _ => .inr (by
        unfold atKey; split_ifs <;> rfl)
      payment_reservation := db.payment_reservation.of_ids fun i hi => by
        rw [isSome_modify]; exact hi
      reservation_active_seat_screening_key :=
        db.reservation_active_seat_screening_key.modify _ fun s hs => by
          rw [h] at hs; cases hs; exact hc })

theorem reservationUpdate_eq_ok {db db' : Db} {id : ℕ} {data : ReservationData} {r : Reservation}
    (h : db.reservationUpdate id data = .ok (r, db')) :
    ∃ r₀, db.reservations.get id = some r₀ ∧ r = data.apply r₀ ∧
      ¬ db.reservations.Clash activeKey id (activeKey r) ∧
      db'.toTables = { db.toTables with
        reservations := db.reservations.modify id data.apply data.id_apply } := by
  unfold reservationUpdate at h
  split at h
  · cases h
  · rename_i r₀ hr
    split_ifs at h with hc
    cases h
    exact ⟨r₀, hr, rfl, hc, rfl⟩

theorem reservationUpdate_ok {db : Db} {id : ℕ} {data : ReservationData} {r : Reservation}
    (hr : db.reservations.get id = some r)
    (hc : ¬ db.reservations.Clash activeKey id (activeKey (data.apply r))) :
    ∃ db', db.reservationUpdate id data = .ok (data.apply r, db') := by
  unfold reservationUpdate
  split
  · rename_i hn
    rw [hr] at hn; cases hn
  · rename_i r₀ hr₀
    cases hr.symm.trans hr₀
    rw [dif_neg hc]
    exact ⟨_, rfl⟩

theorem reservationUpdate_clash {db : Db} {id : ℕ} {data : ReservationData} {r : Reservation}
    (hr : db.reservations.get id = some r)
    (hc : db.reservations.Clash activeKey id (activeKey (data.apply r))) :
    db.reservationUpdate id data = .error (.prisma .p2002) := by
  unfold reservationUpdate
  split
  · rename_i hn
    rw [hr] at hn; cases hn
  · rename_i r₀ hr₀
    cases hr.symm.trans hr₀
    rw [dif_pos hc]

/-- The rewrite of `releaseExpiredHolds`: HELD rows with `heldUntil < now` lapse. -/
def expired (now : Time) (r : Reservation) : Bool :=
  decide (r.status = .held) && r.heldUntil.any (fun t => decide (t < now))

def release (now : Time) (r : Reservation) : Reservation :=
  if expired now r then { r with status := .cancelled, heldUntil := none } else r

structure ExpiredHold where
  id : ℕ
  userId : ℕ
  screeningId : ℕ
  seatId : ℕ
  deriving DecidableEq

theorem release_id (now : Time) (r : Reservation) : Row.id (release now r) = Row.id r := by
  unfold release; split_ifs <;> rfl

theorem release_screeningId (now : Time) (r : Reservation) :
    (release now r).screeningId = r.screeningId := by
  unfold release; split_ifs <;> rfl

theorem release_seatId (now : Time) (r : Reservation) : (release now r).seatId = r.seatId := by
  unfold release; split_ifs <;> rfl

theorem release_activeKey (now : Time) (r : Reservation) (k : ℕ × ℕ)
    (h : activeKey (release now r) = some k) : activeKey r = some k := by
  unfold release at h
  split_ifs at h with he
  · simp [activeKey, ReservationStatus.active] at h
  · exact h

/-- The single `UPDATE ... RETURNING` of the sweep. -/
def releaseExpiredHolds (db : Db) (now : Time) : List ExpiredHold × Db :=
  ((db.reservations.rows.filter (expired now)).map fun r =>
      ⟨r.id, r.userId, r.screeningId, r.seatId⟩,
    { db with
      reservations := db.reservations.update (release now) (release_id now)
      reservation_screening := db.reservation_screening.update _ fun r _ =>
        .inr (release_screeningId now r)
      reservation_seat := db.reservation_seat.update _ fun r _ => .inr (release_seatId now r)
      payment_reservation := db.payment_reservation.of_ids fun i hi => by
        rw [isSome_update]; exact hi
      reservation_active_seat_screening_key :=
        db.reservation_active_seat_screening_key.update _ (release_activeKey now) })

structure HoldSeatParams where
  userId : ℕ
  screeningId : ℕ
  hallId : ℕ
  seatId : ℕ
  heldUntil : Time
  deriving DecidableEq

def seatTaken : Err := .conflict "This seat is already reserved for this screening"

/-- The row that `holdSeat` creates. -/
def HoldSeatParams.row (p : HoldSeatParams) (id : ℕ) : Reservation :=
  ⟨id, p.screeningId, p.seatId, p.userId, .held, some p.heldUntil⟩

theorem HoldSeatParams.id_row (p : HoldSeatParams) (i : ℕ) : Row.id (p.row i) = i := rfl

/-- The whole `holdSeat` transaction: the seat of the hall is locked, the active
reservations are looked up, the row is created. A missing screening is a foreign
key error, which the method turns into a 500. -/
def holdSeat (db : Db) (p : HoldSeatParams) : Except Err (Reservation × Db) :=
  match hs : db.seats.get p.seatId with
  | none => .error (.badRequest "Seat does not exist in this screening hall")
  | some seat =>
    if seat.hallId ≠ p.hallId then
      .error (.badRequest "Seat does not exist in this screening hall")
    else if hc : ∃ r ∈ db.reservations.rows, r.screeningId = p.screeningId ∧
        r.seatId = p.seatId ∧ r.status.active then .error seatTaken
    else if hscr : (db.screenings.get p.screeningId).isSome then
      .ok (p.row db.reservations.serial, { db with
        reservations := db.reservations.insert p.row p.id_row
        reservation_screening := db.reservation_screening.insert _ hscr
        reservation_seat := db.reservation_seat.insert _
          (show (db.seats.get p.seatId).isSome by rw [hs]; rfl)
        payment_reservation := db.payment_reservation.of_ids fun i hi => isSome_insert _ i hi
        reservation_active_seat_screening_key :=
          db.reservation_active_seat_screening_key.insert _ fun ⟨s, hm, _, _, hk⟩ => hc (by
            obtain ⟨ha, he⟩ := activeKey_eq_some.mp hk
            obtain ⟨hseat, hscreening⟩ := Prod.mk.inj he
            exact ⟨s, hm, hscreening, hseat, ha⟩) })
    else .error (.internalServerError "Reservation failed due to a database error")

theorem holdSeat_eq_ok {db db' : Db} {p : HoldSeatParams} {r : Reservation}
    (h : db.holdSeat p = .ok (r, db')) :
    ∃ seat, db.seats.get p.seatId = some seat ∧ seat.hallId = p.hallId ∧
      (∀ s ∈ db.reservations.rows, s.screeningId = p.screeningId → s.seatId = p.seatId →
        s.status.active = false) ∧
      (db.screenings.get p.screeningId).isSome ∧ r = p.row db.reservations.serial ∧
      db'.toTables =
        { db.toTables with reservations := db.reservations.insert p.row p.id_row } := by
  unfold holdSeat at h
  split at h
  · cases h
  · rename_i seat hs
    split_ifs at h with hh hc hscr
    cases h
    simp only [not_exists, not_and, Bool.not_eq_true] at hc
    exact ⟨seat, hs, not_not.mp hh, hc, hscr, rfl, rfl⟩

theorem holdSeat_eq_error {db : Db} {p : HoldSeatParams} {e : Err} (h : db.holdSeat p = .error e) :
    ((∀ seat, db.seats.get p.seatId = some seat → seat.hallId ≠ p.hallId) ∧
        e = .badRequest "Seat does not exist in this screening hall") ∨
      ∃ seat, db.seats.get p.seatId = some seat ∧ seat.hallId = p.hallId ∧
        ((∃ r ∈ db.reservations.rows, r.screeningId = p.screeningId ∧ r.seatId = p.seatId ∧
            r.status.active) ∧ e = seatTaken ∨
          (¬ ∃ r ∈ db.reservations.rows, r.screeningId = p.screeningId ∧ r.seatId = p.seatId ∧
            r.status.active) ∧ ¬ (db.screenings.get p.screeningId).isSome ∧
          e = .internalServerError "Reservation failed due to a database error") := by
  unfold holdSeat at h
  split at h
  · rename_i hs
    cases h
    refine .inl ⟨fun seat hseat => ?_, rfl⟩
    rw [hs] at hseat
    cases hseat
  · rename_i seat hs
    split_ifs at h with hh hc hscr
    · cases h
      refine .inl ⟨fun seat' hseat => ?_, rfl⟩
      rw [hs] at hseat
      cases hseat
      exact hh
    · cases h
      exact .inr ⟨seat, hs, not_not.mp hh, .inl ⟨hc, rfl⟩⟩
    · cases h
      exact .inr ⟨seat, hs, not_not.mp hh, .inr ⟨hc, hscr, rfl⟩⟩

/-! ### Payments -/

structure PaymentCreate where
  reservationId : ℕ
  amount : ℤ
  currency : String
  status : PaymentStatus
  stripeSessionId : Option ℕ
  deriving DecidableEq

/-- A fresh row; the columns that `create` does not name are null. -/
def PaymentCreate.row (d : PaymentCreate) (now : Time) (id : ℕ) : Payment :=
  ⟨id, d.reservationId, d.amount, d.currency, d.status, none, d.stripeSessionId, none, none, none,
    none, none, none, now⟩

theorem PaymentCreate.id_row (d : PaymentCreate) (now : Time) (i : ℕ) :
    Row.id (d.row now i) = i := rfl

def paymentCreate (db : Db) (now : Time) (data : PaymentCreate) : Except Err (Payment × Db) :=
  if ha : Int4 data.amount then
    if hr : (db.reservations.get data.reservationId).isSome then
      if hc : db.payments.Clash paymentKey db.payments.serial (some data.reservationId) then
        .error (.prisma .p2002)
      else .ok (data.row now db.payments.serial, { db with
        payments := db.payments.insert (data.row now) (data.id_row now)
        payment_reservation := db.payment_reservation.insert _ hr
        payment_reservationId_key := db.payment_reservationId_key.insert _ hc
        payment_stripeEventId_key := db.payment_stripeEventId_key.insert _
          fun ⟨_, _, _, h, _⟩ => by cases h
        payment_amount := db.payment_amount.insert _ ha })
    else .error (.prisma .p2003)
  else .error (.prisma .p2020)

theorem paymentCreate_eq_ok {db db' : Db} {now : Time} {data : PaymentCreate} {p : Payment}
    (h : db.paymentCreate now data = .ok (p, db')) :
    (db.reservations.get data.reservationId).isSome ∧ p = data.row now db.payments.serial ∧
      (∀ q ∈ db.payments.rows, q.reservationId ≠ data.reservationId) ∧
      db'.toTables = { db.toTables with
        payments := db.payments.insert (data.row now) (data.id_row now) } := by
  unfold paymentCreate at h
  split_ifs at h with _ hr hc
  cases h
  refine ⟨hr, rfl, fun q hq e => hc ⟨q, hq, ?_, rfl, ?_⟩, rfl⟩
  · exact Nat.ne_of_lt (db.payments.fresh q hq)
  · rw [paymentKey, e]

def paymentUpdate (db : Db) (id : ℕ) (data : PaymentData) : Except Err (Payment × Db) :=
  match h : db.payments.get id with
  | none => .error (.prisma .p2025)
  | some p =>
    if he : db.payments.Clash Payment.stripeEventId id (data.apply p).stripeEventId then
      .error (.prisma .p2002)
    else .ok (data.apply p, { db with
      payments := db.payments.modify id data.apply data.id_apply
      payment_reservation := db.payment_reservation.update _ fun r _ => .inr (by
        unfold atKey; split_ifs <;> rfl)
      payment_reservationId_key := db.payment_reservationId_key.update _ fun r k hk => by
        unfold atKey at hk; split_ifs at hk <;> exact hk
      payment_stripeEventId_key := db.payment_stripeEventId_key.modify _ fun s hs => by
        rw [h] at hs; cases hs; exact he
      payment_amount := db.payment_amount.modify _ fun _ hp => hp })

theorem paymentUpdate_eq_ok {db db' : Db} {id : ℕ} {data : PaymentData} {p : Payment}
    (h : db.paymentUpdate id data = .ok (p, db')) :
    ∃ p₀, db.payments.get id = some p₀ ∧ p = data.apply p₀ ∧
      ¬ db.payments.Clash Payment.stripeEventId id p.stripeEventId ∧
      db'.toTables = { db.toTables with
        payments := db.payments.modify id data.apply data.id_apply } := by
  unfold paymentUpdate at h
  split at h
  · cases h
  · rename_i p₀ hp
    split_ifs at h with he
    cases h
    exact ⟨p₀, hp, rfl, he, rfl⟩

theorem paymentUpdate_ok {db : Db} {id : ℕ} (data : PaymentData) {p : Payment}
    (hp : db.payments.get id = some p)
    (he : ¬ db.payments.Clash Payment.stripeEventId id (data.apply p).stripeEventId) :
    ∃ db', db.paymentUpdate id data = .ok (data.apply p, db') := by
  unfold paymentUpdate
  split
  · rename_i hn
    rw [hp] at hn; cases hn
  · rename_i p₀ hp₀
    cases hp.symm.trans hp₀
    rw [dif_neg he]
    exact ⟨_, rfl⟩

theorem paymentUpdate_missing {db : Db} {id : ℕ} {data : PaymentData}
    (hp : db.payments.get id = none) : db.paymentUpdate id data = .error (.prisma .p2025) := by
  unfold paymentUpdate
  split
  · rfl
  · rename_i p₀ hp₀
    rw [hp] at hp₀; cases hp₀

def paymentDelete (db : Db) (id : ℕ) : Except Err (Payment × Db) :=
  match db.payments.get id with
  | none => .error (.prisma .p2025)
  | some p => .ok (p, { db with
      payments := db.payments.erase id
      payment_reservation := db.payment_reservation.filter _
      payment_reservationId_key := db.payment_reservationId_key.filter _
      payment_stripeEventId_key := db.payment_stripeEventId_key.filter _
      payment_amount := db.payment_amount.filter _ })

theorem paymentDelete_eq_ok {db db' : Db} {id : ℕ} {p : Payment}
    (h : db.paymentDelete id = .ok (p, db')) :
    db.payments.get id = some p ∧
      db'.toTables = { db.toTables with payments := db.payments.erase id } := by
  unfold paymentDelete at h
  split at h
  · cases h
  · rename_i p₀ hp
    cases h
    exact ⟨hp, rfl⟩

/-- The transaction of two updates: both take effect or neither. -/
def updateBoth (db : Db) (paymentId : ℕ) (p : PaymentData) (reservationId : ℕ)
    (r : ReservationData) : Except Err ((Payment × Reservation) × Db) := do
  let (payment, db) ← db.paymentUpdate paymentId p
  let (reservation, db) ← db.reservationUpdate reservationId r
  return ((payment, reservation), db)

theorem updateBoth_eq_ok {db db' : Db} {pid rid : ℕ} {p : PaymentData} {r : ReservationData}
    {x : Payment × Reservation} (h : db.updateBoth pid p rid r = .ok (x, db')) :
    ∃ db₁, db.paymentUpdate pid p = .ok (x.1, db₁) ∧
      db₁.reservationUpdate rid r = .ok (x.2, db') := by
  unfold updateBoth at h
  cases hp : db.paymentUpdate pid p with
  | error e => rw [hp] at h; cases h
  | ok y =>
    rw [hp] at h
    cases hr : y.2.reservationUpdate rid r with
    | error e => simp [bind, Except.bind, hr] at h
    | ok z =>
      simp only [bind, Except.bind, hr, pure, Except.pure, Except.ok.injEq, Prod.mk.injEq] at h
      obtain ⟨rfl, rfl⟩ := h
      exact ⟨y.2, rfl, hr⟩

def declineWithReservation (db : Db) (paymentId reservationId : ℕ) :
    Except Err ((Payment × Reservation) × Db) :=
  db.updateBoth paymentId { status := some .declined } reservationId { status := some .cancelled }

def confirmWithReservation (db : Db) (paymentId reservationId : ℕ) (stripePaymentId : Option ℕ) :
    Except Err ((Payment × Reservation) × Db) :=
  db.updateBoth paymentId { status := some .succeeded, stripePaymentId := some stripePaymentId }
    reservationId { status := some .confirmed, heldUntil := some none }

/-! ### Screenings, halls, movies -/

structure ScreeningCreate where
  movieId : ℕ
  hallId : ℕ
  startTime : Time
  price : ℤ
  deriving DecidableEq

def ScreeningCreate.row (d : ScreeningCreate) (id : ℕ) : Screening :=
  ⟨id, d.hallId, d.movieId, d.startTime, .scheduled, d.price⟩

theorem ScreeningCreate.id_row (d : ScreeningCreate) (i : ℕ) : Row.id (d.row i) = i := rfl

def screeningCreate (db : Db) (data : ScreeningCreate) : Except Err (Screening × Db) :=
  if hh : (db.halls.get data.hallId).isSome then
    if hm : (db.movies.get data.movieId).isSome then
      .ok (data.row db.screenings.serial, { db with
        screenings := db.screenings.insert data.row data.id_row
        screening_hall := db.screening_hall.insert _ hh
        screening_movie := db.screening_movie.insert _ hm
        reservation_screening := db.reservation_screening.of_ids fun i hi => isSome_insert _ i hi })
    else .error (.prisma .p2003)
  else .error (.prisma .p2003)

def screeningUpdate (db : Db) (id : ℕ) (data : ScreeningData) : Except Err (Screening × Db) :=
  match db.screenings.get id with
  | none => .error (.prisma .p2025)
  | some s =>
    if hh : ∀ h ∈ data.hallId, (db.halls.get h).isSome then
      if hm : ∀ m ∈ data.movieId, (db.movies.get m).isSome then
        .ok (data.apply s, { db with
          screenings := db.screenings.modify id data.apply data.id_apply
          screening_hall := db.screening_hall.update _ fun r _ => by
            unfold atKey
            split_ifs
            · cases hd : data.hallId with
              | none => right; simp [ScreeningData.apply, hd]
              | some h => left; simpa [ScreeningData.apply, hd] using hh h hd
            · exact .inr rfl
          screening_movie := db.screening_movie.update _ fun r _ => by
            unfold atKey
            split_ifs
            · cases hd : data.movieId with
              | none => right; simp [ScreeningData.apply, hd]
              | some m => left; simpa [ScreeningData.apply, hd] using hm m hd
            · exact .inr rfl
          reservation_screening := db.reservation_screening.of_ids fun i hi => by
            rw [isSome_modify]; exact hi })
      else .error (.prisma .p2003)
    else .error (.prisma .p2003)

theorem screeningCreate_eq_ok {db db' : Db} {data : ScreeningCreate} {s : Screening}
    (h : db.screeningCreate data = .ok (s, db')) :
    s = data.row db.screenings.serial ∧
      db'.toTables = { db.toTables with
        screenings := db.screenings.insert data.row data.id_row } := by
  unfold screeningCreate at h
  split_ifs at h
  cases h
  exact ⟨rfl, rfl⟩

theorem screeningUpdate_eq_ok {db db' : Db} {id : ℕ} {data : ScreeningData} {s : Screening}
    (h : db.screeningUpdate id data = .ok (s, db')) :
    ∃ s₀, db.screenings.get id = some s₀ ∧ s = data.apply s₀ ∧
      db'.toTables = { db.toTables with
        screenings := db.screenings.modify id data.apply data.id_apply } := by
  unfold screeningUpdate at h
  split at h
  · cases h
  · rename_i s₀ hs
    split_ifs at h
    cases h
    exact ⟨s₀, hs, rfl, rfl⟩

structure HallCreate where
  name : String
  capacity : ℕ
  deriving DecidableEq

def HallCreate.row (d : HallCreate) (id : ℕ) : Hall := ⟨id, d.name, d.capacity⟩

theorem HallCreate.id_row (d : HallCreate) (i : ℕ) : Row.id (d.row i) = i := rfl

def hallCreate (db : Db) (data : HallCreate) : Hall × Db :=
  (data.row db.halls.serial, { db with
    halls := db.halls.insert data.row data.id_row
    screening_hall := db.screening_hall.of_ids fun i hi => isSome_insert _ i hi
    seat_hall := db.seat_hall.of_ids fun i hi => isSome_insert _ i hi })

structure SeatCreate where
  hallId : ℕ
  row : String
  number : String
  deriving DecidableEq

def SeatCreate.seat (d : SeatCreate) (id : ℕ) : Seat := ⟨id, d.hallId, d.row, d.number⟩

theorem SeatCreate.id_seat (d : SeatCreate) (i : ℕ) : Row.id (d.seat i) = i := rfl

def seatCreate (db : Db) (data : SeatCreate) : Except Err Db :=
  if hh : (db.halls.get data.hallId).isSome then
    if hc : db.seats.Clash seatKey db.seats.serial (some (data.hallId, data.row, data.number)) then
      .error (.prisma .p2002)
    else .ok { db with
      seats := db.seats.insert data.seat data.id_seat
      seat_hall := db.seat_hall.insert _ hh
      seat_hallId_row_number_key := db.seat_hallId_row_number_key.insert _ hc
      reservation_seat := db.reservation_seat.of_ids fun i hi => isSome_insert _ i hi }
  else .error (.prisma .p2003)

/-- `createMany`: one statement, so a row that is refused refuses them all. -/
def seatCreateMany (db : Db) (data : List SeatCreate) : Except Err Db :=
  data.foldlM seatCreate db

theorem seatCreate_eq_ok {db db' : Db} {data : SeatCreate} (h : db.seatCreate data = .ok db') :
    db'.toTables = { db.toTables with seats := db.seats.insert data.seat data.id_seat } := by
  unfold seatCreate at h
  split_ifs at h
  cases h
  rfl

theorem seatCreateMany_eq_ok {db db' : Db} {data : List SeatCreate}
    (h : db.seatCreateMany data = .ok db') :
    db'.toTables = { db.toTables with seats := db'.seats } ∧ Evolves id db.seats db'.seats := by
  unfold seatCreateMany at h
  induction data generalizing db with
  | nil =>
    cases h
    exact ⟨rfl, Evolves.refl _ _⟩
  | cons d ds ih =>
    rw [List.foldlM_cons] at h
    cases hd : db.seatCreate d with
    | error e => rw [hd] at h; cases h
    | ok db₁ =>
      rw [hd] at h
      obtain ⟨ht, he⟩ := ih h
      have h₁ := seatCreate_eq_ok hd
      rw [ht, h₁]
      refine ⟨rfl, Evolves.trans ?_ he⟩
      rw [h₁]
      exact evolves_insert d.id_seat

/-- The transaction of `createHallWithSeats`. -/
def createHallWithSeats (db : Db) (data : HallCreate) (seats : List (String × String)) :
    Except Err (Hall × Db) :=
  let created := db.hallCreate data
  (created.2.seatCreateMany (seats.map fun s => ⟨created.1.id, s.1, s.2⟩)).map fun db =>
    (created.1, db)

theorem createHallWithSeats_eq_ok {db db' : Db} {data : HallCreate}
    {seats : List (String × String)} {h : Hall}
    (hd : db.createHallWithSeats data seats = .ok (h, db')) :
    db'.toTables = { db.toTables with
      halls := db.halls.insert data.row data.id_row, seats := db'.seats } ∧
      Table.Evolves id db.seats db'.seats := by
  simp only [createHallWithSeats] at hd
  cases h₁ : (db.hallCreate data).2.seatCreateMany
      (seats.map fun s => ⟨(db.hallCreate data).1.id, s.1, s.2⟩) with
  | error e => rw [h₁] at hd; cases hd
  | ok db₁ =>
    rw [h₁] at hd
    cases hd
    exact seatCreateMany_eq_ok h₁

structure MovieCreate where
  name : String
  description : String
  duration : ℕ
  posterImgUrl : String
  movieType : String
  rating : ℚ
  language : String
  genre : String
  deriving DecidableEq

def MovieCreate.row (d : MovieCreate) (id : ℕ) : Movie :=
  ⟨id, d.name, d.description, d.duration, d.posterImgUrl, d.movieType, d.rating, d.language,
    d.genre, .draft⟩

theorem MovieCreate.id_row (d : MovieCreate) (i : ℕ) : Row.id (d.row i) = i := rfl

def movieCreate (db : Db) (data : MovieCreate) : Movie × Db :=
  (data.row db.movies.serial, { db with
    movies := db.movies.insert data.row data.id_row
    screening_movie := db.screening_movie.of_ids fun i hi => isSome_insert _ i hi })

def movieUpdate (db : Db) (id : ℕ) (data : MovieData) : Except Err (Movie × Db) :=
  match db.movies.get id with
  | none => .error (.prisma .p2025)
  | some m => .ok (data.apply m, { db with
      movies := db.movies.modify id data.apply data.id_apply
      screening_movie := db.screening_movie.of_ids fun i hi => by
        rw [isSome_modify]; exact hi })

theorem movieUpdate_eq_ok {db db' : Db} {id : ℕ} {data : MovieData} {m : Movie}
    (h : db.movieUpdate id data = .ok (m, db')) :
    db'.toTables = { db.toTables with
      movies := db.movies.modify id data.apply data.id_apply } := by
  unfold movieUpdate at h
  split at h
  · cases h
  · cases h
    rfl

/-! ### Deletes

Every delete goes through the schema's `onDelete: Cascade` relations: hall and
movie to screening, hall to seat, screening and seat to reservation, reservation
to payment. -/

def cascade (db : Db) (movie : Movie → Bool) (hall : Hall → Bool) (screening : Screening → Bool) :
    Db :=
  let movies := db.movies.filter movie
  let halls := db.halls.filter hall
  let screenings := db.screenings.filter fun s =>
    screening s && (halls.get s.hallId).isSome && (movies.get s.movieId).isSome
  let seats := db.seats.filter fun s => (halls.get s.hallId).isSome
  let reservations := db.reservations.filter fun r =>
    (screenings.get r.screeningId).isSome && (seats.get r.seatId).isSome
  { db with
    movies, halls, screenings, seats, reservations
    payments := db.payments.filter fun p => (reservations.get p.reservationId).isSome
    screening_hall := fun s hs => by
      have := (List.mem_filter.mp hs).2; simp only [Bool.and_eq_true] at this; exact this.1.2
    screening_movie := fun s hs => by
      have := (List.mem_filter.mp hs).2; simp only [Bool.and_eq_true] at this; exact this.2
    seat_hall := fun s hs => (List.mem_filter.mp hs).2
    reservation_screening := fun r hr => by
      have := (List.mem_filter.mp hr).2; simp only [Bool.and_eq_true] at this; exact this.1
    reservation_seat := fun r hr => by
      have := (List.mem_filter.mp hr).2; simp only [Bool.and_eq_true] at this; exact this.2
    payment_reservation := fun p hp => (List.mem_filter.mp hp).2
    seat_hallId_row_number_key := db.seat_hallId_row_number_key.filter _
    reservation_active_seat_screening_key := db.reservation_active_seat_screening_key.filter _
    payment_reservationId_key := db.payment_reservationId_key.filter _
    payment_stripeEventId_key := db.payment_stripeEventId_key.filter _
    payment_amount := db.payment_amount.filter _ }

def hallDelete (db : Db) (id : ℕ) : Except Err (Hall × Db) :=
  match db.halls.get id with
  | none => .error (.prisma .p2025)
  | some h => .ok (h, db.cascade (fun _ => true) (fun h => h.id ≠ id) (fun _ => true))

theorem hallDelete_eq_ok {db db' : Db} {id : ℕ} {h : Hall} (hd : db.hallDelete id = .ok (h, db')) :
    db' = db.cascade (fun _ => true) (fun h => h.id ≠ id) (fun _ => true) := by
  unfold hallDelete at hd
  split at hd
  · cases hd
  · cases hd
    rfl

def screeningDelete (db : Db) (id : ℕ) : Except Err (Screening × Db) :=
  match db.screenings.get id with
  | none => .error (.prisma .p2025)
  | some s => .ok (s, db.cascade (fun _ => true) (fun _ => true) (fun s => s.id ≠ id))

theorem screeningDelete_eq_ok {db db' : Db} {id : ℕ} {s : Screening}
    (hd : db.screeningDelete id = .ok (s, db')) :
    db' = db.cascade (fun _ => true) (fun _ => true) (fun s => s.id ≠ id) := by
  unfold screeningDelete at hd
  split at hd
  · cases hd
  · cases hd
    rfl

def movieDelete (db : Db) (id : ℕ) : Except Err (Movie × Db) :=
  match db.movies.get id with
  | none => .error (.prisma .p2025)
  | some m => .ok (m, db.cascade (fun m => m.id ≠ id) (fun _ => true) (fun _ => true))

theorem movieDelete_eq_ok {db db' : Db} {id : ℕ} {m : Movie}
    (hd : db.movieDelete id = .ok (m, db')) :
    db' = db.cascade (fun m => m.id ≠ id) (fun _ => true) (fun _ => true) := by
  unfold movieDelete at hd
  split at hd
  · cases hd
  · cases hd
    rfl

/-! ### Later states of the database -/

/-- What no statement ever rewrites: where a reservation sits and whose it is, what
a payment pays for and its amount, where a seat is. -/
structure Evolves (db db' : Db) : Prop where
  reservations : Table.Evolves (fun r => (r.screeningId, r.seatId, r.userId))
    db.reservations db'.reservations
  payments : Table.Evolves (fun p => (p.reservationId, p.amount)) db.payments db'.payments
  seats : Table.Evolves id db.seats db'.seats

theorem Evolves.refl (db : Db) : Evolves db db :=
  ⟨Table.Evolves.refl _ _, Table.Evolves.refl _ _, Table.Evolves.refl _ _⟩

theorem Evolves.trans {a b c : Db} (h : Evolves a b) (h' : Evolves b c) : Evolves a c :=
  ⟨h.reservations.trans h'.reservations, h.payments.trans h'.payments, h.seats.trans h'.seats⟩

theorem Evolves.reservation {a b : Db} (h : Evolves a b) {i : ℕ} {r s : Reservation}
    (hr : a.reservations.get i = some r) (hs : b.reservations.get i = some s) :
    s.screeningId = r.screeningId ∧ s.seatId = r.seatId ∧ s.userId = r.userId := by
  obtain ⟨r', hr', e⟩ := h.reservations.row i (lt_serial_of_get hr) s hs
  cases hr.symm.trans hr'
  simpa using e

theorem Evolves.payment {a b : Db} (h : Evolves a b) {i : ℕ} {p q : Payment}
    (hp : a.payments.get i = some p) (hq : b.payments.get i = some q) :
    q.reservationId = p.reservationId ∧ q.amount = p.amount := by
  obtain ⟨p', hp', e⟩ := h.payments.row i (lt_serial_of_get hp) q hq
  cases hp.symm.trans hp'
  simpa using e

section Evolves
variable {db db' : Db}

theorem evolves_reservationUpdate {id : ℕ} {data : ReservationData} {r : Reservation}
    (h : db.reservationUpdate id data = .ok (r, db')) : Evolves db db' := by
  obtain ⟨_, _, _, _, ht⟩ := reservationUpdate_eq_ok h
  constructor <;> rw [ht]
  · exact evolves_modify data.id_apply fun _ => rfl
  · exact Table.Evolves.refl _ _
  · exact Table.Evolves.refl _ _

theorem evolves_releaseExpiredHolds (now : Time) : Evolves db (db.releaseExpiredHolds now).2 :=
  ⟨evolves_update (release_id now) fun r => by
    rw [release_screeningId, release_seatId]; unfold release; split_ifs <;> rfl,
    Table.Evolves.refl _ _, Table.Evolves.refl _ _⟩

theorem evolves_holdSeat {p : HoldSeatParams} {r : Reservation}
    (h : db.holdSeat p = .ok (r, db')) : Evolves db db' := by
  obtain ⟨_, _, _, _, _, _, ht⟩ := holdSeat_eq_ok h
  constructor <;> rw [ht]
  · exact evolves_insert p.id_row
  · exact Table.Evolves.refl _ _
  · exact Table.Evolves.refl _ _

theorem evolves_paymentUpdate {id : ℕ} {data : PaymentData} {p : Payment}
    (h : db.paymentUpdate id data = .ok (p, db')) : Evolves db db' := by
  obtain ⟨_, _, _, _, ht⟩ := paymentUpdate_eq_ok h
  constructor <;> rw [ht]
  · exact Table.Evolves.refl _ _
  · exact evolves_modify data.id_apply fun _ => rfl
  · exact Table.Evolves.refl _ _

theorem evolves_paymentCreate {now : Time} {data : PaymentCreate} {p : Payment}
    (h : db.paymentCreate now data = .ok (p, db')) : Evolves db db' := by
  obtain ⟨_, _, _, ht⟩ := paymentCreate_eq_ok h
  constructor <;> rw [ht]
  · exact Table.Evolves.refl _ _
  · exact evolves_insert (data.id_row now)
  · exact Table.Evolves.refl _ _

theorem evolves_paymentDelete {id : ℕ} {p : Payment}
    (h : db.paymentDelete id = .ok (p, db')) : Evolves db db' := by
  obtain ⟨_, ht⟩ := paymentDelete_eq_ok h
  constructor <;> rw [ht]
  · exact Table.Evolves.refl _ _
  · exact evolves_filter
  · exact Table.Evolves.refl _ _

theorem evolves_updateBoth {pid rid : ℕ} {p : PaymentData} {r : ReservationData}
    {x : Payment × Reservation} (h : db.updateBoth pid p rid r = .ok (x, db')) :
    Evolves db db' := by
  obtain ⟨db₁, hp, hr⟩ := updateBoth_eq_ok h
  exact (evolves_paymentUpdate hp).trans (evolves_reservationUpdate hr)

theorem evolves_cascade (movie : Movie → Bool) (hall : Hall → Bool)
    (screening : Screening → Bool) : Evolves db (db.cascade movie hall screening) :=
  ⟨evolves_filter, evolves_filter, evolves_filter⟩

theorem evolves_screeningCreate {data : ScreeningCreate} {s : Screening}
    (h : db.screeningCreate data = .ok (s, db')) : Evolves db db' := by
  obtain ⟨-, ht⟩ := screeningCreate_eq_ok h
  constructor <;> rw [ht] <;> exact Table.Evolves.refl _ _

theorem evolves_screeningUpdate {id : ℕ} {data : ScreeningData} {s : Screening}
    (h : db.screeningUpdate id data = .ok (s, db')) : Evolves db db' := by
  obtain ⟨_, -, -, ht⟩ := screeningUpdate_eq_ok h
  constructor <;> rw [ht] <;> exact Table.Evolves.refl _ _

theorem evolves_createHallWithSeats {data : HallCreate} {seats : List (String × String)}
    {hall : Hall} (h : db.createHallWithSeats data seats = .ok (hall, db')) : Evolves db db' := by
  obtain ⟨ht, hs⟩ := createHallWithSeats_eq_ok h
  refine ⟨?_, ?_, hs⟩ <;> rw [ht] <;> exact Table.Evolves.refl _ _

theorem evolves_movieCreate (data : MovieCreate) : Evolves db (db.movieCreate data).2 :=
  ⟨Table.Evolves.refl _ _, Table.Evolves.refl _ _, Table.Evolves.refl _ _⟩

theorem evolves_movieUpdate {id : ℕ} {data : MovieData} {m : Movie}
    (h : db.movieUpdate id data = .ok (m, db')) : Evolves db db' := by
  have ht := movieUpdate_eq_ok h
  constructor <;> rw [ht] <;> exact Table.Evolves.refl _ _

theorem evolves_hallDelete {id : ℕ} {hall : Hall} (h : db.hallDelete id = .ok (hall, db')) :
    Evolves db db' :=
  hallDelete_eq_ok h ▸ evolves_cascade _ _ _

theorem evolves_screeningDelete {id : ℕ} {s : Screening}
    (h : db.screeningDelete id = .ok (s, db')) : Evolves db db' :=
  screeningDelete_eq_ok h ▸ evolves_cascade _ _ _

theorem evolves_movieDelete {id : ℕ} {m : Movie} (h : db.movieDelete id = .ok (m, db')) :
    Evolves db db' :=
  movieDelete_eq_ok h ▸ evolves_cascade _ _ _

end Evolves

end Db

end MovieReservation
