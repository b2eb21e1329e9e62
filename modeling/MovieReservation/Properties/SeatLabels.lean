import Mathlib.Data.List.Pairwise
import MovieReservation.Lib.Bijective
import MovieReservation.Services.Requests

/-! The labels of the rows of a hall are the numerals of the bijective base 26 over `A` to
`Z`, so no two rows share one, and a new hall gets all the seats of its grid. -/

namespace MovieReservation

open Lib Lib.Prog Lib.Table

namespace HallsRepository

/-! ### Labels -/

def letter (d : ℕ) : Char := Char.ofNat (65 + d)

def letterIndex (c : Char) : ℕ := c.toNat - 65

theorem toNat_letter {d : ℕ} (h : d < 26) : (letter d).toNat = 65 + d := by
  have hvalid : (65 + d).isValidChar := .inl (by omega)
  rw [letter, Char.ofNat, dif_pos hvalid]
  rfl

theorem isLetter_iff {c : Char} : 'A' ≤ c ∧ c ≤ 'Z' ↔ 65 ≤ c.toNat ∧ c.toNat ≤ 90 := by
  simp only [Char.le_def, UInt32.le_iff_toNat_le]
  rfl

theorem letterIndex_letter {d : ℕ} (h : d < 26) : letterIndex (letter d) = d := by
  rw [letterIndex, toNat_letter h, Nat.add_sub_cancel_left]

theorem letter_letterIndex {c : Char} (h : 'A' ≤ c ∧ c ≤ 'Z') : letter (letterIndex c) = c := by
  rw [letter, letterIndex, Nat.add_sub_cancel' (isLetter_iff.mp h).1, Char.ofNat_toNat]

def spell (ds : List ℕ) : String := String.ofList (ds.map letter)

def indices (label : String) : List ℕ := label.toList.map letterIndex

theorem indices_spell {ds : List ℕ} (h : ∀ d ∈ ds, d < 26) : indices (spell ds) = ds := by
  rw [indices, spell, String.toList_ofList, List.map_map]
  exact (List.map_congr_left fun d hd => letterIndex_letter (h d hd)).trans (List.map_id ds)

theorem spell_indices {label : String} (h : ∀ c ∈ label.toList, 'A' ≤ c ∧ c ≤ 'Z') :
    spell (indices label) = label := by
  have hletters : (label.toList.map letterIndex).map letter = label.toList := by
    rw [List.map_map]
    exact (List.map_congr_left fun c hc => letter_letterIndex (h c hc)).trans (List.map_id _)
  rw [spell, indices, hletters, String.ofList_toList]

/-- The words of letters are the lists of digits. -/
theorem spell_bijOn : Set.BijOn spell {ds | ds ≠ [] ∧ ∀ d ∈ ds, d < 26}
    {label | label ≠ "" ∧ ∀ c ∈ label.toList, 'A' ≤ c ∧ c ≤ 'Z'} := by
  have hinv : Set.InvOn indices spell {ds | ds ≠ [] ∧ ∀ d ∈ ds, d < 26}
      {label | label ≠ "" ∧ ∀ c ∈ label.toList, 'A' ≤ c ∧ c ≤ 'Z'} :=
    ⟨fun ds h => indices_spell h.2, fun label h => spell_indices h.2⟩
  refine hinv.bijOn ?_ ?_
  · rintro ds ⟨hne, hds⟩
    refine ⟨fun h => hne (List.map_eq_nil_iff.mp (String.ofList_eq_empty_iff.mp h)), ?_⟩
    rw [spell, String.toList_ofList]
    refine List.forall_mem_map.mpr fun d hd => isLetter_iff.mpr ?_
    have hlt := hds d hd
    rw [toNat_letter hlt]
    omega
  · rintro label ⟨hne, hletters⟩
    refine ⟨fun h => hne (String.toList_eq_nil_iff.mp (List.map_eq_nil_iff.mp h)), ?_⟩
    refine List.forall_mem_map.mpr fun c hc => ?_
    have hle := isLetter_iff.mp (hletters c hc)
    unfold letterIndex
    omega

/-- The loop spells the numeral. -/
theorem rowLabelFrom_eq (n : ℕ) (ds : List ℕ) :
    rowLabelFrom n (ds.map letter) = (Bijective.digitsFrom 26 n ds).map letter := by
  induction n, ds using Bijective.digitsFrom.induct 26 with
  | case1 n ds h =>
    rw [rowLabelFrom, Bijective.digitsFrom, if_pos h, if_pos h]
    rfl
  | case2 n ds h ih =>
    rw [rowLabelFrom, Bijective.digitsFrom, if_neg h, if_neg h, ← ih]
    rfl

theorem rowLabel_eq (n : ℕ) : rowLabel n = spell (Bijective.digits 26 n) :=
  congrArg String.ofList (rowLabelFrom_eq n [])

/-- Each non-empty string of letters is the label of one row. -/
theorem rowLabel_bijOn : Set.BijOn rowLabel Set.univ
    {label | label ≠ "" ∧ ∀ c ∈ label.toList, 'A' ≤ c ∧ c ≤ 'Z'} :=
  (spell_bijOn.comp (Bijective.digits_bijOn (by decide))).congr fun n _ => (rowLabel_eq n).symm

/-! ### The grid -/

theorem rowLabel_injective : Function.Injective rowLabel :=
  Set.injOn_univ.mp rowLabel_bijOn.injOn

theorem length_grid (rows seatsPerRow : ℕ) :
    (grid rows seatsPerRow).length = rows * seatsPerRow := by
  simp [grid, List.length_flatMap]

theorem number_injective {m n : ℕ} (h : toString m = toString n) : m = n := by
  have hdigits : Nat.toDigits 10 m = Nat.toDigits 10 n := by
    rw [← Nat.toList_repr, ← Nat.toList_repr]
    exact congrArg String.toList h
  have hvalue := congrArg (Nat.ofDigitChars 10 · 0) hdigits
  rwa [Nat.ofDigitChars_ten_toDigits, Nat.ofDigitChars_ten_toDigits] at hvalue

/-- Rows differ in their labels, the seats of a row in their numbers. -/
theorem grid_nodup (rows seatsPerRow : ℕ) : (grid rows seatsPerRow).Nodup := by
  refine List.nodup_flatMap.mpr ⟨fun r _ => ?_, ?_⟩
  · refine List.nodup_range.map fun s t h => ?_
    exact Nat.succ_injective (number_injective (Prod.mk.inj h).2)
  · refine List.nodup_range.imp fun {r r'} hne x hx hx' => hne ?_
    obtain ⟨s, -, rfl⟩ := List.mem_map.mp hx
    obtain ⟨t, -, ht⟩ := List.mem_map.mp hx'
    exact (rowLabel_injective (Prod.mk.inj ht).1).symm

end HallsRepository

/-! ### The seats of a new hall -/

/-- The seats as they are inserted, from the serial on. -/
def seatsFrom (serial : ℕ) (data : List Db.SeatCreate) : List Seat :=
  data.mapIdx fun i d => d.seat (serial + i)

theorem seatsFrom_cons (serial : ℕ) (d : Db.SeatCreate) (data : List Db.SeatCreate) :
    seatsFrom serial (d :: data) = d.seat serial :: seatsFrom (serial + 1) data := by
  unfold seatsFrom
  rw [List.mapIdx_cons, Nat.add_zero]
  simp only [Nat.add_assoc, Nat.add_comm 1]

theorem Db.seatCreateMany_rows {db db' : Db} {data : List Db.SeatCreate}
    (h : db.seatCreateMany data = .ok db') :
    db'.seats.rows = db.seats.rows ++ seatsFrom db.seats.serial data := by
  unfold Db.seatCreateMany at h
  induction data generalizing db with
  | nil =>
    cases h
    exact (List.append_nil _).symm
  | cons d data ih =>
    rw [List.foldlM_cons] at h
    cases hd : db.seatCreate d with
    | error e =>
      rw [hd] at h
      cases h
    | ok db₁ =>
      rw [hd] at h
      have ht := Db.seatCreate_eq_ok hd
      rw [ih h, ht, seatsFrom_cons]
      exact List.append_assoc _ [d.seat db.seats.serial] _

/-- Seats of existing halls at places that nobody has are all created. -/
theorem Db.seatCreateMany_ok {db : Db} {data : List Db.SeatCreate}
    (hhall : ∀ d ∈ data, (db.halls.get d.hallId).isSome)
    (hfree : ∀ d ∈ data, ∀ s ∈ db.seats.rows, (s.hallId, s.row, s.number) ≠
      (d.hallId, d.row, d.number))
    (hnodup : (data.map fun d => (d.hallId, d.row, d.number)).Nodup) :
    ∃ db', db.seatCreateMany data = .ok db' := by
  unfold Db.seatCreateMany
  induction data generalizing db with
  | nil => exact ⟨db, rfl⟩
  | cons d data ih =>
    obtain ⟨hd, hnodup⟩ := List.nodup_cons.mp hnodup
    have hclash : ¬ db.seats.Clash seatKey db.seats.serial (some (d.hallId, d.row, d.number)) :=
      fun ⟨s, hs, _, _, hk⟩ => hfree d List.mem_cons_self s hs (Option.some.inj hk)
    obtain ⟨db₁, hok⟩ : ∃ db₁, db.seatCreate d = .ok db₁ := by
      unfold Db.seatCreate
      rw [dif_pos (hhall d List.mem_cons_self), dif_neg hclash]
      exact ⟨_, rfl⟩
    rw [List.foldlM_cons, hok]
    have ht := Db.seatCreate_eq_ok hok
    refine ih (fun e he => ?_) (fun e he s hs => ?_) hnodup
    · rw [ht]
      exact hhall e (List.mem_cons_of_mem d he)
    · rw [ht] at hs
      rcases List.mem_append.mp hs with hs | hs
      · exact hfree e (List.mem_cons_of_mem d he) s hs
      · rw [List.mem_singleton.mp hs]
        exact fun h => hd (List.mem_map.mpr ⟨e, he, h.symm⟩)

/-- The seats of a hall, in the order in which they were created. -/
def Db.seatsIn (db : Db) (hallId : ℕ) : List Seat := db.seats.rows.filter fun s => s.hallId = hallId

def Seat.cell (s : Seat) : String × String := (s.row, s.number)

/-- A hall with all seats of its grid, each once. -/
structure Furnished (db : Db) (hall : Hall) (rows seatsPerRow : ℕ) : Prop where
  get : db.halls.get hall.id = some hall
  capacity : hall.capacity = rows * seatsPerRow
  length : (db.seatsIn hall.id).length = hall.capacity
  nodup : ((db.seatsIn hall.id).map Seat.cell).Nodup
  cells : (db.seatsIn hall.id).map Seat.cell = HallsRepository.grid rows seatsPerRow

/-- The new hall has no seats before. -/
theorem Db.seatsIn_serial (db : Db) : db.seatsIn db.halls.serial = [] := by
  refine List.filter_eq_nil_iff.mpr fun s hs h => ?_
  obtain ⟨hall, hhall⟩ := Option.isSome_iff_exists.mp (db.seat_hall s hs)
  have hlt := lt_serial_of_get hhall
  rw [of_decide_eq_true h] at hlt
  exact Nat.lt_irrefl _ hlt

theorem seatsFrom_cells (hallId serial : ℕ) (cells : List (String × String)) :
    (seatsFrom serial (cells.map fun c => ⟨hallId, c.1, c.2⟩)).map Seat.cell = cells := by
  induction cells generalizing serial with
  | nil => rfl
  | cons c cells ih =>
    rw [List.map_cons, seatsFrom_cons, List.map_cons, ih]
    rfl

theorem seatsFrom_hallId {hallId serial : ℕ} {cells : List (String × String)} :
    ∀ s ∈ seatsFrom serial (cells.map fun c => ⟨hallId, c.1, c.2⟩), s.hallId = hallId := by
  intro s hs
  obtain ⟨i, hi, rfl⟩ := List.mem_mapIdx.mp hs
  simp [Db.SeatCreate.seat]

theorem Db.createHallWithSeats_rows {db db' : Db} {data : Db.HallCreate}
    {cells : List (String × String)} {hall : Hall}
    (h : db.createHallWithSeats data cells = .ok (hall, db')) :
    db'.seats.rows = db.seats.rows ++
      seatsFrom db.seats.serial (cells.map fun c => ⟨db.halls.serial, c.1, c.2⟩) := by
  simp only [Db.createHallWithSeats] at h
  cases hmany : (db.hallCreate data).2.seatCreateMany
      (cells.map fun c => ⟨(db.hallCreate data).1.id, c.1, c.2⟩) with
  | error e =>
    rw [hmany] at h
    cases h
  | ok db₁ =>
    rw [hmany] at h
    cases h
    exact @Db.seatCreateMany_rows (db.hallCreate data).2 _ _ hmany

/-- A grid whose cells differ is created whole, and is all that the new hall has. -/
theorem Db.createHallWithSeats_ok (db : Db) (data : Db.HallCreate) {cells : List (String × String)}
    (h : cells.Nodup) :
    ∃ db', db.createHallWithSeats data cells = .ok (data.row db.halls.serial, db') ∧
      db'.halls.get db.halls.serial = some (data.row db.halls.serial) ∧
      db'.seatsIn db.halls.serial =
        seatsFrom db.seats.serial (cells.map fun c => ⟨db.halls.serial, c.1, c.2⟩) := by
  have hhall : (db.hallCreate data).2.halls.get db.halls.serial =
      some (data.row db.halls.serial) := (get_insert data.id_row _).trans (if_pos rfl)
  let seats : List Db.SeatCreate := cells.map fun c => ⟨db.halls.serial, c.1, c.2⟩
  have hhalls : ∀ d ∈ seats, ((db.hallCreate data).2.halls.get d.hallId).isSome := by
    intro d hd
    obtain ⟨c, -, rfl⟩ := List.mem_map.mp hd
    exact Option.isSome_iff_exists.mpr ⟨_, hhall⟩
  have hfree : ∀ d ∈ seats, ∀ s ∈ (db.hallCreate data).2.seats.rows,
      (s.hallId, s.row, s.number) ≠ (d.hallId, d.row, d.number) := by
    intro d hd s hs he
    obtain ⟨c, -, rfl⟩ := List.mem_map.mp hd
    have hmem : s ∈ db.seatsIn db.halls.serial :=
      List.mem_filter.mpr ⟨hs, decide_eq_true (Prod.mk.inj he).1⟩
    rw [db.seatsIn_serial] at hmem
    cases hmem
  have hnodup : (seats.map fun d => (d.hallId, d.row, d.number)).Nodup := by
    rw [List.map_map]
    exact h.map fun c c' he => (Prod.mk.inj he).2
  obtain ⟨db', hok⟩ := Db.seatCreateMany_ok hhalls hfree hnodup
  have hcreated : db.createHallWithSeats data cells = .ok (data.row db.halls.serial, db') :=
    congrArg (Except.map _) hok
  refine ⟨db', hcreated, ?_, ?_⟩
  · rw [(Db.seatCreateMany_eq_ok hok).1]
    exact hhall
  · have hold : db.seats.rows.filter (fun s => s.hallId = db.halls.serial) = [] :=
      db.seatsIn_serial
    rw [Db.seatsIn, Db.createHallWithSeats_rows hcreated, List.filter_append]
    refine (congrArg (· ++ _) hold).trans (List.filter_eq_self.mpr fun s hs => ?_)
    exact decide_eq_true (seatsFrom_hallId s hs)

section Rules
variable {σ A : Type} (api : StripeApi σ A)

end Rules

end MovieReservation
