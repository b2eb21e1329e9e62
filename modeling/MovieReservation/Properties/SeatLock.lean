import MovieReservation.HoldSeat
import MovieReservation.Services.TestMode

/-! The row lock and the check after it are enough: whatever transactions and
statements interleave, no seat gets a second active reservation for a screening, and
no transaction reaches an insert that the partial unique index would refuse. -/

namespace MovieReservation

open Lib Lib.Store

/-- At most one HELD or CONFIRMED reservation for each seat and screening. -/
def AtMostOneActive (rows : List Reservation) : Prop :=
  ∀ seatId screeningId, rows.countP (fun r =>
    r.seatId = seatId ∧ r.screeningId = screeningId ∧ r.status.active) ≤ 1

theorem activeKey_iff {r : Reservation} {seatId screeningId : ℕ} :
    activeKey r = some (seatId, screeningId) ↔
      r.seatId = seatId ∧ r.screeningId = screeningId ∧ r.status.active := by
  rw [activeKey_eq_some, Prod.mk.injEq]
  exact ⟨fun ⟨ha, hs, hc⟩ => ⟨hs, hc, ha⟩, fun ⟨hs, hc, ha⟩ => ⟨ha, hs, hc⟩⟩

theorem atMostOneActive_iff {rows : List Reservation} :
    AtMostOneActive rows ↔ Single activeKey rows := by
  simp only [AtMostOneActive, Single, Prod.forall, activeKey_iff]

/-- An index entry is guarded by the lock on its seat. -/
abbrev SeatsGuarded (s : Store Reservation) : Prop := Guarded activeKey Prod.fst s

theorem seatsGuarded_ofDb (db : Db) : SeatsGuarded (SeatStore.ofDb db).store where
  single i k := by
    simp only [SeatStore.ofDb, view_idle]
    exact db.reservation_active_seat_screening_key.countP_le_one k
  locked i r hr := by simp [SeatStore.ofDb, Store.idle] at hr

/-! ### The statements outside of a transaction -/

theorem activeKey_cancelled (id : ℕ) (r : Reservation) (k : ℕ × ℕ)
    (h : activeKey (Table.atKey id (ReservationData.apply { status := some .cancelled }) r) =
      some k) : activeKey r = some k := by
  unfold Table.atKey at h
  split_ifs at h
  · simp [activeKey, ReservationData.apply, ReservationStatus.active] at h
  · exact h

theorem activeKey_extended (id : ℕ) (t : Time) (r : Reservation) (k : ℕ × ℕ)
    (h : activeKey (Table.atKey id (ReservationData.apply { heldUntil := some (some t) }) r) =
      some k) : activeKey r = some k := by
  unfold Table.atKey at h
  split_ifs at h <;> exact h

theorem activeKey_confirmed (id : ℕ) (r : Reservation) (k : ℕ × ℕ)
    (h : activeKey (Table.atKey id SeatStore.confirmIfHeld r) = some k) :
    activeKey r = some k := by
  unfold Table.atKey SeatStore.confirmIfHeld at h
  split_ifs at h with hid hheld
  · rw [activeKey_eq_some] at h ⊢
    exact ⟨by simp [hheld, ReservationStatus.active], h.2⟩
  · exact h
  · exact h

/-- Rows are guarded by the locks on their seats, and their screenings exist. -/
structure SeatsOk (s : SeatStore) : Prop where
  guarded : SeatsGuarded s.store
  screened : Everywhere (fun r => (s.screenings.get r.screeningId).isSome) s.store

theorem seatsOk_ofDb (db : Db) : SeatsOk (SeatStore.ofDb db) where
  guarded := seatsGuarded_ofDb db
  screened i r hr := by
    simp only [SeatStore.ofDb, view_idle] at hr
    exact db.reservation_screening r hr

theorem screeningId_atKey {f : Reservation → Reservation} (id : ℕ)
    (hf : ∀ r, (f r).screeningId = r.screeningId) (r : Reservation) :
    (Table.atKey id f r).screeningId = r.screeningId := by
  unfold Table.atKey
  split_ifs
  · exact hf r
  · rfl

/-! ### Each program alone -/

def seatLock : System.Discipline TxCmd SeatRequest SeatStore where
  inv := SeatsOk
  rely i s t := Apart activeKey Prod.fst i s.store t.store
  rely_refl i s := Apart.refl _ _ i s.store
  rely_trans _ _ _ _ h h' := h.trans h'
  allow _ _ _ _ := True

section Programs
variable {i : ℕ} {op : SeatRequest}

/-- A statement that only needs the invariant. -/
theorem safe_statement {c : TxCmd} (s : SeatStore)
    (h : ∀ t : SeatStore, SeatsOk t → SeatsOk (SeatStore.exec i c t).2 ∧
      ∀ j, j ≠ i → Apart activeKey Prod.fst j t.store (SeatStore.exec i c t).2.store) :
    System.Safe seatSystem seatLock i op (fun _ _ => True) (TxM.statement c) s := by
  refine System.Safe.issue fun t _ ht => ⟨fun _ => trivial, fun _ _ => ?_⟩
  obtain ⟨h1, h2⟩ := h t ht
  exact ⟨h1, h2, trivial, fun _ => trivial⟩

theorem safe_rewrite {c : TxCmd} {f : Reservation → Reservation} (s : SeatStore)
    (hc : ∀ t, (SeatStore.exec i c t).2 = t.rewrite f)
    (hf : ∀ r k, activeKey (f r) = some k → activeKey r = some k)
    (hscr : ∀ r, (f r).screeningId = r.screeningId) :
    System.Safe seatSystem seatLock i op (fun _ _ => True) (TxM.statement c) s := by
  refine safe_statement s fun t ht => ?_
  rw [hc t]
  refine ⟨⟨ht.guarded.rewrite hf, ht.screened.rewrite fun r hr => ?_⟩, fun j _ => apart_rewrite hf⟩
  show (t.screenings.get (f r).screeningId).isSome
  rw [hscr]
  exact hr

/-- The seat is locked after `lockSeat` returned it. -/
theorem safe_lockSeat (seatId hallId : ℕ) (s : SeatStore) :
    System.Safe seatSystem seatLock i op
      (fun r t => ∀ locked, r = .ok locked → locked.length = 1 → t.store.locks seatId = some i)
      (TxM.statement (.lockSeat seatId hallId)) s := by
  refine System.Safe.issue fun t _ ht => ⟨fun _ _ h => (nomatch h), fun _ hready => ?_⟩
  by_cases hseat : t.hasSeat seatId hallId
  · have hfree : t.store.locks seatId = none ∨ t.store.locks seatId = some i := by
      simpa [seatSystem, SeatStore.ready, hseat] using hready
    have hexec : SeatStore.exec i (.lockSeat seatId hallId) t =
        (.ok [seatId], { t with store := t.store.acquire i seatId }) := by
      simp only [SeatStore.exec, hseat, if_true]
    refine ⟨?_, fun j hj => ?_, ?_, fun _ _ h => (nomatch h)⟩
    · show SeatsOk (SeatStore.exec i _ t).2
      rw [hexec]
      exact ⟨ht.guarded.acquire hfree, ht.screened⟩
    · show Apart _ _ j t.store (SeatStore.exec i _ t).2.store
      rw [hexec]; exact apart_acquire hfree hj
    · intro locked _ _
      show (SeatStore.exec i _ t).2.store.locks seatId = some i
      rw [hexec]
      simp [acquire]
  · have hexec : SeatStore.exec i (.lockSeat seatId hallId) t = (.ok [], t) := by
      simp only [SeatStore.exec, hseat, Bool.false_eq_true, if_false]
    refine ⟨?_, fun j _ => ?_, ?_, fun _ _ h => (nomatch h)⟩
    · show SeatsOk (SeatStore.exec i _ t).2
      rw [hexec]; exact ht
    · show Apart _ _ j t.store (SeatStore.exec i _ t).2.store
      rw [hexec]; exact Apart.refl _ _ j _
    · intro locked hl hlen
      have : (SeatStore.exec i (.lockSeat seatId hallId) t).1 = .ok locked := hl
      rw [hexec, Except.ok.injEq] at this
      rw [← this] at hlen
      cases hlen

/-- What the transaction knows when it has looked and found nothing. -/
def SeatFree (i seatId screeningId : ℕ) (s : SeatStore) : Prop :=
  s.store.locks seatId = some i ∧ Absent activeKey (seatId, screeningId) (s.store.view i)

theorem safe_findActive {seatId screeningId : ℕ} {s : SeatStore}
    (hs : s.store.locks seatId = some i) :
    System.Safe seatSystem seatLock i op
      (fun r t => r = .ok none → SeatFree i seatId screeningId t)
      (TxM.statement (.findActive screeningId seatId)) s := by
  refine System.Safe.issue fun t hst ht => ⟨fun _ h => (nomatch h), fun _ _ => ?_⟩
  refine ⟨ht, fun j _ => Apart.refl _ _ j _, ?_, fun _ h => (nomatch h)⟩
  intro hnone
  refine ⟨(hst.locks seatId).mpr hs, fun r hr hk => ?_⟩
  have hfind : (t.store.view i).find? (fun r =>
      r.screeningId = screeningId ∧ r.seatId = seatId ∧ r.status.active) = none := by
    have := Except.ok.inj hnone
    simpa using this
  obtain ⟨hseat, hscr, hact⟩ := activeKey_iff.mp hk
  have := List.find?_eq_none.mp hfind r hr
  simp [hseat, hscr, hact] at this

theorem activeKey_row (params : Db.HoldSeatParams) (id : ℕ) :
    activeKey (params.row id) = some (params.seatId, params.screeningId) := rfl

theorem exec_create (i : ℕ) (params : Db.HoldSeatParams) {s : SeatStore}
    (h : (s.screenings.get params.screeningId).isSome) :
    (SeatStore.exec i (.create params) s).2 =
      { s with store := s.store.insert i (params.row s.serial), serial := s.serial + 1 } := by
  simp only [SeatStore.exec, h, if_true]

theorem safe_create {params : Db.HoldSeatParams} {s : SeatStore}
    (hs : SeatFree i params.seatId params.screeningId s) :
    System.Safe seatSystem seatLock i op (fun _ _ => True)
      (TxM.statement (.create params)) s := by
  refine System.Safe.issue fun t hst ht => ⟨fun _ => trivial, fun _ _ => ?_⟩
  by_cases hscr : (t.screenings.get params.screeningId).isSome
  · have hexec := exec_create i params hscr
    refine ⟨?_, fun j hj => ?_, trivial, fun _ => trivial⟩
    · show SeatsOk (SeatStore.exec i _ t).2
      rw [hexec]
      exact ⟨ht.guarded.insert (activeKey_row params _) ((hst.locks _).mpr hs.1)
        (hst.view hs.1 hs.2), ht.screened.insert hscr⟩
    · show Apart _ _ j t.store (SeatStore.exec i _ t).2.store
      rw [hexec]
      exact apart_insert hj
  · have hexec : (SeatStore.exec i (.create params) t).2 = t := by
      simp only [SeatStore.exec, hscr, Bool.false_eq_true, if_false]
    refine ⟨?_, fun j _ => ?_, trivial, fun _ => trivial⟩
    · show SeatsOk (SeatStore.exec i _ t).2
      rw [hexec]; exact ht
    · show Apart _ _ j t.store (SeatStore.exec i _ t).2.store
      rw [hexec]; exact Apart.refl _ _ j _

theorem safe_holdSeatBody (params : Db.HoldSeatParams) (s : SeatStore) :
    System.Safe seatSystem seatLock i op (fun _ _ => True) (TxM.holdSeatBody params) s := by
  unfold TxM.holdSeatBody
  refine System.Safe.bind ((safe_lockSeat params.seatId params.hallId s).mono ?_)
  intro locked t ht
  cases locked with
  | error e => trivial
  | ok locked =>
    dsimp only
    split_ifs with hlen
    · trivial
    · have hlock := ht locked rfl (not_not.mp hlen)
      refine System.Safe.bind ((safe_findActive hlock).mono ?_)
      intro taken u hu
      cases taken with
      | error e => trivial
      | ok taken =>
        cases taken with
        | some id => trivial
        | none => exact safe_create (hu rfl)

theorem safe_commit (s : SeatStore) :
    System.Safe seatSystem seatLock i op (fun _ _ => True) (TxM.statement .commit) s :=
  safe_statement s fun _ ht =>
    ⟨⟨ht.guarded.commit, ht.screened.commit⟩, fun _ hj => ht.guarded.apart_commit hj⟩

theorem safe_rollback (s : SeatStore) :
    System.Safe seatSystem seatLock i op (fun _ _ => True) (TxM.statement .rollback) s :=
  safe_statement s fun _ ht =>
    ⟨⟨ht.guarded.rollback, ht.screened.rollback⟩, fun _ hj => apart_rollback hj⟩

/-- Whether it commits or rolls back, a transaction is as safe as its body. -/
theorem safe_transaction {α : Type} {body : TxM α} {s : SeatStore}
    (h : System.Safe seatSystem seatLock i op (fun _ _ => True) body s) :
    System.Safe seatSystem seatLock i op (fun _ _ => True) (TxM.transaction body) s := by
  unfold TxM.transaction
  refine System.Safe.bind (System.Safe.tryCatch (h.mono ?_))
  intro r t _
  cases r with
  | ok a =>
    refine System.Safe.bind ((safe_commit t).mono ?_)
    intro r' u _
    cases r' <;> trivial
  | error e =>
    refine System.Safe.bind ((safe_rollback t).mono ?_)
    intro r' u _
    cases r' <;> trivial

theorem safe_handle (op : SeatRequest) (s : SeatStore) :
    System.Safe seatSystem seatLock i op (fun _ _ => True) op.handle s := by
  have hthen : ∀ {c : TxCmd}, System.Safe seatSystem seatLock i op (fun _ _ => True)
      (TxM.statement c) s → System.Safe seatSystem seatLock i op (fun _ _ => True)
        (do let _ ← TxM.statement c; return (none : Option Reservation)) s := by
    intro c h
    refine System.Safe.bind (h.mono ?_)
    intro r t _
    cases r <;> trivial
  cases op with
  | holdSeat params =>
    refine System.Safe.bind ((safe_transaction (System.Safe.tryCatch
      ((safe_holdSeatBody params s).mono ?_))).mono ?_)
    · intro r t _
      cases r <;> trivial
    · intro r t _
      cases r <;> trivial
  | cancel id =>
    exact hthen (safe_rewrite s (fun _ => rfl) (activeKey_cancelled id)
      (screeningId_atKey _ fun _ => rfl))
  | releaseExpiredHolds now =>
    exact hthen (safe_rewrite s (fun _ => rfl) (Db.release_activeKey now)
      (Db.release_screeningId now))
  | extendHold id t =>
    exact hthen (safe_rewrite s (fun _ => rfl) (activeKey_extended id t)
      (screeningId_atKey _ fun _ => rfl))
  | confirmHeld id =>
    refine hthen (safe_rewrite s (fun _ => rfl) (activeKey_confirmed id)
      (screeningId_atKey _ fun r => ?_))
    unfold SeatStore.confirmIfHeld
    split_ifs <;> rfl

end Programs

/-! ### Every schedule -/

/-- No row, committed or not yet committed, stands in the way of `create params` in the
partial unique index. -/
def NoClash (s : SeatStore) (params : Db.HoldSeatParams) : Prop :=
  ∀ j, Absent activeKey (params.seatId, params.screeningId) (s.store.view j)

theorem noClash_of_safe {i : ℕ} {op : SeatRequest} {params : Db.HoldSeatParams}
    {k : Except Err Reservation → TxM (Option Reservation)} {s : SeatStore}
    {Q : Except Err (Option Reservation) → SeatStore → Prop} (hs : SeatsOk s)
    (h : System.Safe seatSystem seatLock i op Q (.call (.create params) k) s) :
    NoClash s params := by
  intro j
  by_cases hscr : (s.screenings.get params.screeningId).isSome
  · obtain ⟨-, hx⟩ := h s (Apart.refl _ _ i _) hs
    have hok : SeatsOk (SeatStore.exec i (.create params) s).2 := (hx trivial rfl).1
    rw [exec_create i params hscr] at hok
    exact hs.guarded.absent_of_insert hok.guarded (activeKey_row params _) j
  · -- the foreign key leaves no rows of a screening that is not there
    intro r hr hk
    have : (s.screenings.get r.screeningId).isSome := hs.screened j r hr
    rw [(activeKey_iff.mp hk).2.1] at this
    exact hscr this

/-- In whatever order transactions and statements interleave, the committed rows never
hold two active reservations of a seat for a screening, and no `create` that comes up
could be refused by the index: the P2002 branch is dead. -/
theorem row_lock_suffices (db : Db) (xs : List (Choice Err SeatRequest Empty))
    (p : Pool TxCmd TxCmd.Reply Err SeatStore SeatRequest (Option Reservation))
    (hrun : seatSystem.schedule xs ⟨SeatStore.ofDb db, []⟩ = some p) :
    AtMostOneActive p.state.store.rows ∧
      ∀ (i : ℕ) op params k, p.procs[i]? = some (op, Prog.call (TxCmd.create params) k) →
        NoClash p.state params := by
  have hall : seatSystem.AllMeet seatLock.allow xs ⟨SeatStore.ofDb db, []⟩ :=
    System.allMeet_of_forall _ (fun _ _ _ _ => trivial) xs _
  have hsafe : System.PoolSafe seatSystem seatLock (fun _ _ _ _ => True) p :=
    System.PoolSafe.schedule (fun _ _ _ _ _ _ _ _ => trivial) (fun _ op s _ => safe_handle op s)
      (fun e => nomatch e) xs (System.poolSafe_empty (seatsOk_ofDb db)) hrun hall
  refine ⟨atMostOneActive_iff.mpr hsafe.inv.guarded.rows, fun i op params k hi => ?_⟩
  exact noClash_of_safe hsafe.inv (hsafe.procs i op _ hi)

/-- Two users want seat 1: the first locks the row and looks, the second has to wait
until the first has committed, finds the seat taken and rolls back. -/
def twoUsers : List (Choice Err SeatRequest Empty) :=
  [.spawn (.holdSeat ⟨1, 1, 1, 1, 600⟩), .spawn (.holdSeat ⟨1, 1, 1, 2, 600⟩)] ++
    System.solo 0 4 ++ System.solo 1 3

theorem two_users_one_seat : ∃ p,
    seatSystem.schedule twoUsers ⟨SeatStore.ofDb theatre.db, []⟩ = some p ∧
      AtMostOneActive p.state.store.rows ∧
      ∀ (i : ℕ) op params k, p.procs[i]? = some (op, Prog.call (TxCmd.create params) k) →
        NoClash p.state params := by
  have hs : (seatSystem.schedule twoUsers ⟨SeatStore.ofDb theatre.db, []⟩).isSome := by
    decide +kernel
  obtain ⟨p, hp⟩ := Option.isSome_iff_exists.mp hs
  exact ⟨p, hp, row_lock_suffices theatre.db twoUsers p hp⟩

end MovieReservation
