import MovieReservation.Database
import MovieReservation.Lib.Pool
import MovieReservation.Lib.RowLock

/-! The `holdSeat` transaction statement by statement, without the partial unique
index: the lock on the seat row, the existence check and the insert, interleaved with
other transactions and with the statements that release, prolong and confirm holds. -/

namespace MovieReservation

open Lib

/-! ### Statements -/

inductive TxCmd where
  /-- `SELECT id FROM seat WHERE id = .. AND hallId = .. FOR UPDATE` -/
  | lockSeat (seatId hallId : ℕ)
  | findActive (screeningId seatId : ℕ)
  | create (params : Db.HoldSeatParams)
  | commit
  | rollback
  -- statements outside of a transaction
  | cancel (id : ℕ)
  | releaseExpiredHolds (now : Time)
  | extendHold (id : ℕ) (deadline : Time)
  /-- `confirm`, of a row that is HELD. -/
  | confirmHeld (id : ℕ)

@[reducible] def TxCmd.Reply : TxCmd → Type
  | .lockSeat _ _ => List ℕ
  | .findActive _ _ => Option ℕ
  | .create _ => Reservation
  | _ => Unit

structure SeatStore where
  store : Store Reservation
  serial : ℕ
  seats : Table Seat
  screenings : Table Screening

namespace SeatStore

/-- The seat row that `lockSeat` would lock is there. -/
def hasSeat (s : SeatStore) (seatId hallId : ℕ) : Bool :=
  (s.seats.get seatId).any fun seat => seat.hallId = hallId

def confirmIfHeld (r : Reservation) : Reservation :=
  if r.status = .held then { r with status := .confirmed, heldUntil := none } else r

def rewrite (s : SeatStore) (f : Reservation → Reservation) : SeatStore :=
  { s with store := s.store.rewrite f }

def exec (i : ℕ) : (c : TxCmd) → SeatStore → Except Err c.Reply × SeatStore
  | .lockSeat seatId hallId, s =>
    if s.hasSeat seatId hallId then (.ok [seatId], { s with store := s.store.acquire i seatId })
    else (.ok [], s)
  | .findActive screeningId seatId, s =>
    (.ok (((s.store.view i).find? fun r =>
      r.screeningId = screeningId ∧ r.seatId = seatId ∧ r.status.active).map Reservation.id), s)
  | .create params, s =>
    if (s.screenings.get params.screeningId).isSome then
      (.ok (params.row s.serial), { s with
        store := s.store.insert i (params.row s.serial)
        serial := s.serial + 1 })
    else (.error (.prisma .p2003), s)
  | .commit, s => (.ok (), { s with store := s.store.commit i })
  | .rollback, s => (.ok (), { s with store := s.store.rollback i })
  | .cancel id, s =>
    (.ok (), s.rewrite (Table.atKey id (ReservationData.apply { status := some .cancelled })))
  | .releaseExpiredHolds now, s => (.ok (), s.rewrite (Db.release now))
  | .extendHold id t, s =>
    (.ok (), s.rewrite (Table.atKey id (ReservationData.apply { heldUntil := some (some t) })))
  | .confirmHeld id, s => (.ok (), s.rewrite (Table.atKey id confirmIfHeld))

/-- `FOR UPDATE` waits while another transaction holds the row's lock. -/
def ready (i : ℕ) : TxCmd → SeatStore → Bool
  | .lockSeat seatId hallId, s =>
    !s.hasSeat seatId hallId || s.store.locks seatId = none || s.store.locks seatId = some i
  | _, _ => true

/-- A database between transactions. -/
def ofDb (db : Db) : SeatStore where
  store := .idle db.reservations.rows
  serial := db.reservations.serial
  seats := db.seats
  screenings := db.screenings

end SeatStore

/-! ### The transaction -/

abbrev TxM := Prog TxCmd TxCmd.Reply Err

namespace TxM

def statement (c : TxCmd) : TxM c.Reply := Prog.issue c

/-- `prisma.$transaction`: an error rolls back, a result is committed. -/
def transaction {α : Type} (body : TxM α) : TxM α := do
  let result ←
    try body
    catch err => do
      statement .rollback
      throw err
  statement .commit
  return result

/-- The `catch` of `holdSeat`. -/
def holdSeatError : Err → Err
  | .conflict message => .conflict message
  | .badRequest message => .badRequest message
  | .prisma .p2002 => Db.seatTaken
  | .unreachable => .serviceUnavailable "System is under heavy load — please try again"
  | _ => .internalServerError "Reservation failed due to a database error"

def holdSeatBody (params : Db.HoldSeatParams) : TxM Reservation := do
  let locked ← statement (.lockSeat params.seatId params.hallId)
  if locked.length ≠ 1 then throw (.badRequest "Seat does not exist in this screening hall") else
  let taken ← statement (.findActive params.screeningId params.seatId)
  if taken.isSome then throw Db.seatTaken else
  statement (.create params)

def holdSeat (params : Db.HoldSeatParams) : TxM Reservation :=
  transaction (try holdSeatBody params catch err => throw (holdSeatError err))

end TxM

inductive SeatRequest where
  | holdSeat (params : Db.HoldSeatParams)
  | cancel (id : ℕ)
  | releaseExpiredHolds (now : Time)
  | extendHold (id : ℕ) (deadline : Time)
  | confirmHeld (id : ℕ)

def SeatRequest.handle : SeatRequest → TxM (Option Reservation)
  | holdSeat params => some <$> TxM.holdSeat params
  | cancel id => do TxM.statement (.cancel id); return none
  | releaseExpiredHolds now => do TxM.statement (.releaseExpiredHolds now); return none
  | extendHold id t => do TxM.statement (.extendHold id t); return none
  | confirmHeld id => do TxM.statement (.confirmHeld id); return none

/-- A statement that fails, before or after it took effect, fails its transaction. -/
def TxCmd.fault : TxCmd → Err → Bool
  | .commit, _ | .rollback, _ => false
  | _, e => e = .unreachable

def seatSystem : System TxCmd TxCmd.Reply Err SeatStore SeatRequest Empty (Option Reservation) where
  exec := SeatStore.exec
  ready := SeatStore.ready
  fault := TxCmd.fault
  env e _ := nomatch e
  handler := SeatRequest.handle

/-! ### A transaction with nobody in between -/

section Alone
variable (i : ℕ) (params : Db.HoldSeatParams) (s : SeatStore)

/-- The state after transaction `i` ended with `rows` committed. -/
def SeatStore.ended (rows : List Reservation) : SeatStore :=
  { s with store := s.store.finish i rows }

theorem run_transaction {α : Type} (body : TxM α) :
    (TxM.transaction body).run (SeatStore.exec i) s = match body.run (SeatStore.exec i) s with
      | (.ok a, t) => (.ok a, t.ended i (t.store.view i))
      | (.error e, t) => (.error e, t.ended i t.store.rows) := by
  rw [TxM.transaction, Prog.run_bind, Prog.run_tryCatch]
  rcases body.run (SeatStore.exec i) s with ⟨r, t⟩
  cases r <;> rfl

theorem run_holdSeatBody_missing (h : s.hasSeat params.seatId params.hallId = false) :
    (TxM.holdSeatBody params).run (SeatStore.exec i) s =
      (.error (.badRequest "Seat does not exist in this screening hall"), s) := by
  have hexec : SeatStore.exec i (.lockSeat params.seatId params.hallId) s = (.ok [], s) := by
    simp only [SeatStore.exec, h, Bool.false_eq_true, if_false]
  simp only [TxM.holdSeatBody, TxM.statement, Prog.issue, Prog.run_call, hexec, Prog.bind_call]
  rfl

/-- The look-up decides between an error and the insert. -/
theorem run_check_create :
    (do let taken ← TxM.statement (.findActive params.screeningId params.seatId)
        if taken.isSome then throw Db.seatTaken else
        TxM.statement (.create params) : TxM Reservation).run (SeatStore.exec i) s =
      if ∃ r ∈ s.store.view i, r.screeningId = params.screeningId ∧ r.seatId = params.seatId ∧
        r.status.active then (.error Db.seatTaken, s)
      else SeatStore.exec i (.create params) s := by
  have hread : SeatStore.exec i (.findActive params.screeningId params.seatId) s =
      (.ok (((s.store.view i).find? fun r => r.screeningId = params.screeningId ∧
        r.seatId = params.seatId ∧ r.status.active).map Reservation.id), s) := rfl
  simp only [TxM.statement, Prog.issue, Prog.bind_call, Prog.run_call, hread, Prog.bind_ok,
    Option.isSome_map, List.find?_isSome, decide_eq_true_eq]
  split_ifs <;> rfl

theorem run_holdSeatBody_locked (h : s.hasSeat params.seatId params.hallId = true) :
    (TxM.holdSeatBody params).run (SeatStore.exec i) s =
      if ∃ r ∈ s.store.view i, r.screeningId = params.screeningId ∧ r.seatId = params.seatId ∧
        r.status.active then
        (.error Db.seatTaken, { s with store := s.store.acquire i params.seatId })
      else SeatStore.exec i (.create params)
        { s with store := s.store.acquire i params.seatId } := by
  have hexec : SeatStore.exec i (.lockSeat params.seatId params.hallId) s =
      (.ok [params.seatId], { s with store := s.store.acquire i params.seatId }) := by
    simp only [SeatStore.exec, h, if_true]
  rw [TxM.holdSeatBody, TxM.statement, Prog.issue, Prog.bind_call, Prog.run_call, hexec]
  exact run_check_create i params _

/-- Alone, the statements of `holdSeat` do what `Db.holdSeat` does in one step. -/
theorem holdSeat_alone (db : Db) :
    (TxM.holdSeat params).run (SeatStore.exec i) (SeatStore.ofDb db) =
      match db.holdSeat params with
      | .ok (r, db') => (.ok r, SeatStore.ofDb db')
      | .error e => (.error e, SeatStore.ofDb db) := by
  have hidle : ∀ rows, (SeatStore.ofDb db).store.finish i rows = .idle rows :=
    Store.finish_eq_idle (fun _ _ => rfl) fun _ => .inl rfl
  have hlocked : ∀ rows, ((SeatStore.ofDb db).store.acquire i params.seatId).finish i rows =
      .idle rows := by
    refine Store.finish_eq_idle (fun _ _ => rfl) fun x => ?_
    by_cases hx : x = params.seatId
    · subst hx
      exact .inr (Function.update_self _ _ _)
    · exact .inl (Function.update_of_ne hx _ _)
  have hview : (SeatStore.ofDb db).store.view i = db.reservations.rows := Store.view_idle _ i
  have hseat : ∀ seat, db.seats.get params.seatId = some seat → seat.hallId = params.hallId →
      (SeatStore.ofDb db).hasSeat params.seatId params.hallId = true := by
    intro seat hs hh
    simp [SeatStore.hasSeat, SeatStore.ofDb, hs, hh]
  rw [TxM.holdSeat, run_transaction, Prog.run_tryCatch]
  cases hres : db.holdSeat params with
  | ok out =>
    obtain ⟨r, db'⟩ := out
    obtain ⟨seat, hs, hh, hfree, hscr, rfl, ht⟩ := Db.holdSeat_eq_ok hres
    have hnone : ¬ ∃ r ∈ db.reservations.rows, r.screeningId = params.screeningId ∧
        r.seatId = params.seatId ∧ r.status.active := by
      rintro ⟨r, hr, h1, h2, h3⟩
      rw [hfree r hr h1 h2] at h3
      cases h3
    rw [run_holdSeatBody_locked i params _ (hseat seat hs hh), hview, if_neg hnone]
    have hcreate : SeatStore.exec i (.create params) { SeatStore.ofDb db with
        store := (SeatStore.ofDb db).store.acquire i params.seatId } =
        (.ok (params.row db.reservations.serial), { SeatStore.ofDb db with
          store := ((SeatStore.ofDb db).store.acquire i params.seatId).insert i
            (params.row db.reservations.serial)
          serial := db.reservations.serial + 1 }) := by
      simp only [SeatStore.exec, SeatStore.ofDb, hscr, if_true]
    rw [hcreate]
    have hrows : (((SeatStore.ofDb db).store.acquire i params.seatId).insert i
        (params.row db.reservations.serial)).view i =
        db.reservations.rows ++ [params.row db.reservations.serial] := by
      simp [Store.view, Store.insert, Store.acquire, SeatStore.ofDb, Store.idle]
    simp only [SeatStore.ended, hrows, Store.finish_insert, hlocked]
    simp only [SeatStore.ofDb, ht]
    rfl
  | error e =>
    rcases Db.holdSeat_eq_error hres with ⟨hs, rfl⟩ | ⟨seat, hs, hh, hcase⟩
    · have hmissing : (SeatStore.ofDb db).hasSeat params.seatId params.hallId = false := by
        simp only [SeatStore.hasSeat, SeatStore.ofDb]
        cases hget : db.seats.get params.seatId with
        | none => rfl
        | some seat => simp [hs seat hget]
      rw [run_holdSeatBody_missing i params _ hmissing]
      simp only [Prog.throw_eq, Prog.run_done, SeatStore.ended, hidle]
      rfl
    · rw [run_holdSeatBody_locked i params _ (hseat seat hs hh), hview]
      rcases hcase with ⟨htaken, rfl⟩ | ⟨hnone, hscr, rfl⟩
      · rw [if_pos htaken]
        simp only [Prog.throw_eq, Prog.run_done, SeatStore.ended, hlocked]
        rfl
      · have hcreate : SeatStore.exec i (.create params) { SeatStore.ofDb db with
            store := (SeatStore.ofDb db).store.acquire i params.seatId } =
            (.error (.prisma .p2003), { SeatStore.ofDb db with
              store := (SeatStore.ofDb db).store.acquire i params.seatId }) := by
          simp only [SeatStore.exec, SeatStore.ofDb, hscr, Bool.false_eq_true, if_false]
        rw [if_neg hnone, hcreate]
        simp only [Prog.throw_eq, Prog.run_done, SeatStore.ended, hlocked]
        rfl

end Alone

end MovieReservation
