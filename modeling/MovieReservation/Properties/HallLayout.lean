import MovieReservation.Properties.SeatLabels
import MovieReservation.Services.SeatStatus
import MovieReservation.Services.TestMode

/-! The order of the seats of a hall. The queries sort by the text of the label and then by
id, and as text `AA` comes before `B`, so the seats of a hall come in the order of its grid
exactly when its rows have single letters. -/

namespace MovieReservation

open Lib Lib.Prog Lib.Table Lib.System

/-- A hall by id, with its seats by row, then id. -/
def Db.findHallWithSeats (db : Db) (id : ℕ) : Option (Hall × List Seat) :=
  (db.halls.get id).map fun hall =>
    (hall, (db.seats.rows.filter fun s => s.hallId = hall.id).insertionSort Db.seatBefore)

/-- Both queries give the seats row index by row index, and in a row number by number. -/
structure InGridOrder (db : Db) (hallId rows seatsPerRow : ℕ) : Prop where
  findSeatsByHall : (db.findSeatsByHall hallId).map Seat.cell =
    HallsRepository.grid rows seatsPerRow
  findHallWithSeats : (db.findHallWithSeats hallId).map (fun h => h.2.map Seat.cell) =
    some (HallsRepository.grid rows seatsPerRow)

/-! ### The order of the query -/

theorem Db.seatBefore_row {a b : Seat} (h : Db.seatBefore a b) : a.row ≤ b.row := by
  rcases h with hlt | ⟨heq, -⟩
  · exact String.lt_asymm hlt
  · exact heq ▸ String.le_refl _

theorem Db.seatBefore_of_le {a b : Seat} (hrow : a.row ≤ b.row) (hid : a.id ≤ b.id) :
    Db.seatBefore a b := by
  by_cases hlt : a.row < b.row
  · exact .inl hlt
  · exact .inr ⟨String.le_antisymm hrow (String.not_lt.mp hlt), hid⟩

instance : Std.Total Db.seatBefore where
  total a b := by
    by_cases hab : a.row < b.row
    · exact .inl (.inl hab)
    by_cases hba : b.row < a.row
    · exact .inr (.inl hba)
    have heq := String.le_antisymm (String.not_lt.mp hba) (String.not_lt.mp hab)
    exact (Nat.le_total a.id b.id).imp (fun h => .inr ⟨heq, h⟩) fun h => .inr ⟨heq.symm, h⟩

instance : IsTrans Seat Db.seatBefore where
  trans a b c := by
    rintro (hab | ⟨hab, hid⟩) (hbc | ⟨hbc, hid'⟩)
    · exact .inl (String.lt_trans hab hbc)
    · exact .inl (hbc ▸ hab)
    · exact .inl (hab ▸ hbc)
    · exact .inr ⟨hab.trans hbc, hid.trans hid'⟩

/-! ### The order of the labels -/

namespace HallsRepository

theorem rowLabel_of_lt {r : ℕ} (h : r < 26) : rowLabel r = String.ofList [letter r] := by
  rw [rowLabel, rowLabelFrom, Nat.mod_eq_of_lt h, if_pos (Nat.div_eq_of_lt h)]
  rfl

/-- Single letters are ordered like the rows. -/
theorem rowLabel_lt {r r' : ℕ} (h : r < r') (hr' : r' < 26) : rowLabel r < rowLabel r' := by
  have hr : r < 26 := h.trans hr'
  rw [rowLabel_of_lt hr, rowLabel_of_lt hr']
  change (String.ofList [letter r]).toList < (String.ofList [letter r']).toList
  rw [String.toList_ofList, String.toList_ofList, List.cons_lt_cons_iff]
  refine .inl (Char.lt_def.mpr (UInt32.lt_iff_toNat_lt.mpr ?_))
  change (letter r).toNat < (letter r').toNat
  rw [toNat_letter hr, toNat_letter hr']
  exact Nat.add_lt_add_left h 65

/-- The labels of a grid ascend exactly when they are single letters: `AA` comes before `B`. -/
theorem grid_pairwise_iff {rows seatsPerRow : ℕ} (hpos : 0 < seatsPerRow) :
    (grid rows seatsPerRow).Pairwise (fun a b => a.1 ≤ b.1) ↔ rows ≤ 26 := by
  have hcell : ∀ r, (rowLabel r, toString 1) ∈
      (List.range seatsPerRow).map fun s => (rowLabel r, toString (s + 1)) :=
    fun r => List.mem_map.mpr ⟨0, List.mem_range.mpr hpos, rfl⟩
  unfold grid
  rw [List.pairwise_flatMap]
  constructor
  · rintro ⟨-, hrows⟩
    by_contra hmany
    have hlength : (List.range rows).length = rows := List.length_range
    have hle := List.pairwise_iff_getElem.mp hrows 1 26 (by omega) (by omega) (by omega)
    rw [List.getElem_range, List.getElem_range] at hle
    exact absurd (hle _ (hcell 1) _ (hcell 26)) (by decide +kernel)
  · intro hfew
    refine ⟨fun r _ => ?_, ?_⟩
    · exact List.pairwise_map.mpr (List.pairwise_lt_range.imp fun _ => String.le_refl _)
    · refine List.pairwise_lt_range.imp_of_mem fun {r r'} _ hr' hlt x hx y hy => ?_
      obtain ⟨s, -, rfl⟩ := List.mem_map.mp hx
      obtain ⟨t, -, rfl⟩ := List.mem_map.mp hy
      have hr'' : r' < rows := List.mem_range.mp hr'
      exact String.lt_asymm (rowLabel_lt hlt (hr''.trans_le hfew))

end HallsRepository

/-! ### A new hall -/

/-- Seats that were inserted in the order of their labels come in that order. -/
theorem seatsFrom_pairwise {serial : ℕ} {data : List Db.SeatCreate}
    (h : data.Pairwise fun d e => d.row ≤ e.row) :
    (seatsFrom serial data).Pairwise Db.seatBefore := by
  induction data generalizing serial with
  | nil => exact List.Pairwise.nil
  | cons d data ih =>
    obtain ⟨hd, hrest⟩ := List.pairwise_cons.mp h
    rw [seatsFrom_cons]
    refine List.pairwise_cons.mpr ⟨fun s hs => ?_, ih hrest⟩
    obtain ⟨i, hi, rfl⟩ := List.mem_mapIdx.mp hs
    refine Db.seatBefore_of_le (hd _ (List.getElem_mem hi)) ?_
    exact (Nat.le_succ serial).trans (Nat.le_add_right _ i)

/-- The seats of the hall are those of a grid, inserted one after the other. -/
def LaidOut (db : Db) (hallId rows seatsPerRow : ℕ) : Prop :=
  ∃ serial, db.seatsIn hallId = seatsFrom serial
    ((HallsRepository.grid rows seatsPerRow).map fun c => ⟨hallId, c.1, c.2⟩)

theorem LaidOut.inGridOrder_iff {db : Db} {hallId rows seatsPerRow : ℕ}
    (h : LaidOut db hallId rows seatsPerRow) (hhall : (db.halls.get hallId).isSome)
    (hpos : 0 < seatsPerRow) : InGridOrder db hallId rows seatsPerRow ↔ rows ≤ 26 := by
  obtain ⟨serial, hseats⟩ := h
  have hcells : (db.seatsIn hallId).map Seat.cell = HallsRepository.grid rows seatsPerRow := by
    rw [hseats, seatsFrom_cells]
  rw [← HallsRepository.grid_pairwise_iff hpos]
  constructor
  · intro hinorder
    have hsorted : (db.findSeatsByHall hallId).Pairwise Db.seatBefore :=
      List.pairwise_insertionSort _ _
    rw [← hinorder.findSeatsByHall]
    exact List.pairwise_map.mpr (hsorted.imp Db.seatBefore_row)
  · intro hgrid
    have hsorted : (db.seatsIn hallId).Pairwise Db.seatBefore := by
      rw [hseats]
      exact seatsFrom_pairwise (List.pairwise_map.mpr hgrid)
    have hsame : (db.seatsIn hallId).insertionSort Db.seatBefore = db.seatsIn hallId :=
      hsorted.insertionSort_eq
    obtain ⟨hall, hget⟩ := Option.isSome_iff_exists.mp hhall
    refine ⟨(congrArg (List.map Seat.cell) hsame).trans hcells, ?_⟩
    have hid : hall.id = hallId := id_of_get hget
    unfold Db.findHallWithSeats
    rw [hget, Option.map_some, Option.map_some, hid]
    exact congrArg some ((congrArg (List.map Seat.cell) hsame).trans hcells)

/-! ### Later -/

/-- No hall comes back, and the seats of a hall that stays are the same. -/
structure Db.KeepsHalls (db db' : Db) : Prop where
  serial : db.halls.serial ≤ db'.halls.serial
  stays : ∀ h < db.halls.serial, (db'.halls.get h).isSome →
    (db.halls.get h).isSome ∧ db'.seatsIn h = db.seatsIn h

section KeepsHalls
variable {db db' : Db}

theorem Db.KeepsHalls.of_eq (hhalls : db'.halls = db.halls) (hseats : db'.seats = db.seats) :
    db.KeepsHalls db' where
  serial := hhalls ▸ le_refl _
  stays h _ hget := ⟨hhalls ▸ hget, by rw [Db.seatsIn, hseats, Db.seatsIn]⟩

theorem Db.keepsHalls_updateBoth {pid id : ℕ} {p : PaymentData} {d : ReservationData}
    {x : Payment × Reservation} (h : db.updateBoth pid p id d = .ok (x, db')) :
    db.KeepsHalls db' :=
  have hsame := Db.SamePlan.of_both h
  .of_eq hsame.halls hsame.seats

theorem Db.keepsHalls_cascade (movie : Movie → Bool) (hall : Hall → Bool)
    (screening : Screening → Bool) : db.KeepsHalls (db.cascade movie hall screening) where
  serial := le_refl _
  stays h _ hget := by
    refine ⟨?_, ?_⟩
    · change ((db.halls.filter hall).get h).isSome at hget
      rw [get_filter] at hget
      exact Option.isSome_of_isSome_filter _ _ hget
    · change (db.seats.rows.filter fun s => ((db.halls.filter hall).get s.hallId).isSome).filter
        (fun s => s.hallId = h) = _
      rw [List.filter_filter, Db.seatsIn]
      refine List.filter_congr fun s _ => ?_
      by_cases hs : s.hallId = h
      · simp only [hs, decide_true, Bool.true_and]
        exact hget
      · simp [hs]

theorem Db.keepsHalls_createHallWithSeats {data : Db.HallCreate} {cells : List (String × String)}
    {hall : Hall} (h : db.createHallWithSeats data cells = .ok (hall, db')) :
    db.KeepsHalls db' := by
  obtain ⟨ht, -⟩ := Db.createHallWithSeats_eq_ok h
  refine ⟨?_, fun id hlt hget => ⟨?_, ?_⟩⟩
  · rw [ht]
    exact Nat.le_succ _
  · rw [ht] at hget
    change ((db.halls.insert data.row data.id_row).get id).isSome at hget
    rwa [get_insert, if_neg (Nat.ne_of_lt hlt)] at hget
  · have hnone : (seatsFrom db.seats.serial (cells.map fun c =>
        ⟨db.halls.serial, c.1, c.2⟩)).filter (fun s => s.hallId = id) = [] := by
      refine List.filter_eq_nil_iff.mpr fun s hs heq => ?_
      rw [← of_decide_eq_true heq, seatsFrom_hallId s hs] at hlt
      exact Nat.lt_irrefl _ hlt
    rw [Db.seatsIn, Db.createHallWithSeats_rows h, List.filter_append, hnone, List.append_nil,
      Db.seatsIn]

end KeepsHalls

section Runs
variable {σ A : Type} (api : StripeApi σ A)

theorem World.exec_keepsHalls (c : Cmd) (w : World σ) :
    w.db.KeepsHalls (World.exec api c w).2.db := by
  have hcommit : ∀ {α : Type} {x : Except Err (α × Db)},
      (∀ a db', x = .ok (a, db') → w.db.KeepsHalls db') → w.db.KeepsHalls (w.commit x).2.db :=
    fun h => World.commit_rule (.of_eq rfl rfl) h
  cases c with
  | acquire =>
    simp only [World.exec]
    split_ifs <;> exact .of_eq rfl rfl
  | paymentFindById id => cases id <;> exact .of_eq rfl rfl
  | paymentFindByStripePaymentId i => cases i <;> exact .of_eq rfl rfl
  | holdSeat p =>
    refine hcommit fun a db' h => ?_
    obtain ⟨_, -, -, -, -, -, ht⟩ := Db.holdSeat_eq_ok h
    exact .of_eq (by rw [ht]) (by rw [ht])
  | reservationUpdate id d =>
    refine hcommit fun a db' h => ?_
    obtain ⟨_, -, -, -, ht⟩ := Db.reservationUpdate_eq_ok h
    exact .of_eq (by rw [ht]) (by rw [ht])
  | paymentCreate d =>
    refine hcommit fun a db' h => ?_
    obtain ⟨-, -, -, ht⟩ := Db.paymentCreate_eq_ok h
    exact .of_eq (by rw [ht]) (by rw [ht])
  | paymentUpdate id d =>
    cases id with
    | none => exact .of_eq rfl rfl
    | some id =>
      refine hcommit fun a db' h => ?_
      obtain ⟨_, -, -, -, ht⟩ := Db.paymentUpdate_eq_ok h
      exact .of_eq (by rw [ht]) (by rw [ht])
  | paymentDelete id =>
    refine hcommit fun a db' h => ?_
    obtain ⟨-, ht⟩ := Db.paymentDelete_eq_ok h
    exact .of_eq (by rw [ht]) (by rw [ht])
  | declineWithReservation p r => exact hcommit fun _ _ h => Db.keepsHalls_updateBoth h
  | confirmWithReservation p r i => exact hcommit fun _ _ h => Db.keepsHalls_updateBoth h
  | screeningCreate d =>
    refine hcommit fun a db' h => ?_
    obtain ⟨-, ht⟩ := Db.screeningCreate_eq_ok h
    exact .of_eq (by rw [ht]) (by rw [ht])
  | screeningUpdate id d =>
    refine hcommit fun a db' h => ?_
    obtain ⟨_, -, -, ht⟩ := Db.screeningUpdate_eq_ok h
    exact .of_eq (by rw [ht]) (by rw [ht])
  | movieUpdate id d =>
    refine hcommit fun a db' h => ?_
    have ht := Db.movieUpdate_eq_ok h
    exact .of_eq (by rw [ht]) (by rw [ht])
  | createHallWithSeats d cells =>
    exact hcommit fun _ _ h => Db.keepsHalls_createHallWithSeats h
  | hallDelete id =>
    exact hcommit fun _ _ h => Db.hallDelete_eq_ok h ▸ Db.keepsHalls_cascade _ _ _
  | screeningDelete id =>
    exact hcommit fun _ _ h => Db.screeningDelete_eq_ok h ▸ Db.keepsHalls_cascade _ _ _
  | movieDelete id =>
    exact hcommit fun _ _ h => Db.movieDelete_eq_ok h ▸ Db.keepsHalls_cascade _ _ _
  | _ => exact .of_eq rfl rfl

/-- As long as it is there, a hall keeps its seats, whatever requests run side by side. -/
theorem laidOut_keeps {xs : List (Choice Err Request (Env A))} {w : World σ}
    {procs : List (Request × M Response)} {p : Pool Cmd Cmd.Reply Err (World σ) Request Response}
    {hallId rows seatsPerRow : ℕ} (hlt : hallId < w.db.halls.serial)
    (hlaid : LaidOut w.db hallId rows seatsPerRow)
    (hx : (serviceSystem api).schedule xs ⟨w, procs⟩ = some p)
    (hget : (p.state.db.halls.get hallId).isSome) :
    LaidOut p.state.db hallId rows seatsPerRow := by
  have hkeeps : ∀ v : World σ, (hallId < v.db.halls.serial ∧
      ((v.db.halls.get hallId).isSome → LaidOut v.db hallId rows seatsPerRow)) → ∀ c,
        hallId < (World.exec api c v).2.db.halls.serial ∧
          (((World.exec api c v).2.db.halls.get hallId).isSome →
            LaidOut (World.exec api c v).2.db hallId rows seatsPerRow) := by
    rintro v ⟨hv, hI⟩ c
    have hkeep := World.exec_keepsHalls api c v
    refine ⟨hv.trans_le hkeep.serial, fun hgot => ?_⟩
    obtain ⟨hbefore, hsame⟩ := hkeep.stays hallId hv hgot
    obtain ⟨serial, hseats⟩ := hI hbefore
    exact ⟨serial, hsame.trans hseats⟩
  refine (Within.keeps (P := fun _ _ => True) (A := fun _ _ _ _ => True)
    (I := fun v : World σ => hallId < v.db.halls.serial ∧
      ((v.db.halls.get hallId).isSome → LaidOut v.db hallId rows seatsPerRow))
    (fun op => only_true _) (fun e v hv => ?_) (fun _ _ c v _ _ hv => hkeeps v hv c) xs
    (fun x _ => only_true _) ⟨hlt, fun _ => hlaid⟩ hx
    ((serviceSystem api).allMeet_of_forall (fun _ _ _ _ => trivial) xs _)).2 hget
  rw [show ((serviceSystem api).env e v).db = v.db from World.elapse_db api e v]
  exact hv

/-- A new hall is laid out. -/
theorem laidOut_created (name : String) (rows seatsPerRow : ℕ) (w : World σ) : ∃ w',
    perform api (HallsRepository.createHallWithSeats name rows seatsPerRow) w =
        (.ok ⟨w.db.halls.serial, name, rows * seatsPerRow⟩, w') ∧
      (w'.db.halls.get w.db.halls.serial).isSome ∧
      LaidOut w'.db w.db.halls.serial rows seatsPerRow := by
  obtain ⟨db', hok, hget, hseats⟩ := w.db.createHallWithSeats_ok
    { name, capacity := rows * seatsPerRow } (HallsRepository.grid_nodup rows seatsPerRow)
  refine ⟨{ w with db := db' }, ?_, Option.isSome_iff_exists.mpr ⟨_, hget⟩, ⟨_, hseats⟩⟩
  change w.commit (w.db.createHallWithSeats _ (HallsRepository.grid rows seatsPerRow)) = _
  rw [hok]
  rfl

/-- The seats of a new hall come in the order of its grid, then and later, exactly if it has at
most 26 rows. -/
theorem hall_in_order_iff {name : String} {rows seatsPerRow : ℕ} (hpos : 0 < seatsPerRow)
    {w w' : World σ} {hall : Hall}
    (hmade : perform api (HallsRepository.createHallWithSeats name rows seatsPerRow) w =
      (.ok hall, w')) (xs : List (Choice Err Request (Env A)))
    (procs : List (Request × M Response))
    (p : Pool Cmd Cmd.Reply Err (World σ) Request Response)
    (hx : (serviceSystem api).schedule xs ⟨w', procs⟩ = some p)
    (hthere : (p.state.db.halls.get hall.id).isSome) :
    InGridOrder p.state.db hall.id rows seatsPerRow ↔ rows ≤ 26 := by
  obtain ⟨v, hv, hget, hlaid⟩ := laidOut_created api name rows seatsPerRow w
  rw [hmade] at hv
  cases hv
  obtain ⟨hall, hhall⟩ := Option.isSome_iff_exists.mp hget
  exact (laidOut_keeps api (lt_serial_of_get hhall) hlaid hx hthere).inGridOrder_iff hthere hpos

end Runs

theorem theatre_halls : theatre.db.halls.serial = 2 := by decide +kernel

/-- A hall with two rows is in order. -/
theorem two_rows_in_order : ∃ w',
    perform testMode (HallsRepository.createHallWithSeats "Hall 2" 2 3) theatre =
        (.ok ⟨2, "Hall 2", 6⟩, w') ∧ InGridOrder w'.db 2 2 3 := by
  obtain ⟨w', hmade, hget, -⟩ := laidOut_created testMode "Hall 2" 2 3 theatre
  rw [theatre_halls] at hmade hget
  exact ⟨w', hmade, (hall_in_order_iff testMode (by decide) hmade [] [] ⟨w', []⟩ rfl hget).mpr
    (by decide)⟩

/-- With 27 rows, row `AA` comes between `A` and `B`. -/
theorem row_aa_out_of_order : ∃ w',
    perform testMode (HallsRepository.createHallWithSeats "Hall 2" 27 1) theatre =
        (.ok ⟨2, "Hall 2", 27⟩, w') ∧ ¬ InGridOrder w'.db 2 27 1 := by
  obtain ⟨w', hmade, hget, hlaid⟩ := laidOut_created testMode "Hall 2" 27 1 theatre
  rw [theatre_halls] at hmade hget hlaid
  exact ⟨w', hmade, fun h => absurd ((hlaid.inGridOrder_iff hget (by decide)).mp h) (by decide)⟩

end MovieReservation
