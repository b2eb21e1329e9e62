import MovieReservation.Lib.Retry
import MovieReservation.Services.SeatStatus
import MovieReservation.Services.TestMode

/-! What a sweep of lapsed holds emits: the rows it released are grouped by screening, and
no seat gets lost, is invented or moves to another screening on the way. -/

namespace MovieReservation

open Lib Lib.Prog

namespace ReservationEvent

/-- The event gives up seats of the screening. -/
def cancels (screeningId : ℕ) : ReservationEvent → Bool
  | cancelled s _ => s = screeningId
  | _ => false

def isHoldExpired : ReservationEvent → Bool
  | holdExpired _ _ _ => true
  | _ => false

/-- The seats that the event gives up, with their screening. -/
def freed : ReservationEvent → List (ℕ × ℕ)
  | cancelled s seatIds => seatIds.map (s, ·)
  | _ => []

end ReservationEvent

/-- The events say of each row once that its seat is free, and once that its hold lapsed. -/
structure SweptBy (rows : List Db.ExpiredHold) (es : List ReservationEvent) : Prop where
  perScreening : ∀ s, es.filter (fun e => e.cancels s) =
    if s ∈ rows.map Db.ExpiredHold.screeningId
      then [.cancelled s ((rows.filter fun r => r.screeningId = s).map Db.ExpiredHold.seatId)]
      else []
  freed : (es.flatMap ReservationEvent.freed).Perm (rows.map fun r => (r.screeningId, r.seatId))
  perRow : es.filter ReservationEvent.isHoldExpired =
    rows.map fun r => .holdExpired r.userId r.screeningId r.seatId
  noOther : ∀ e ∈ es, e.isHoldExpired ∨ ∃ s, e.cancels s
  nothing : rows = [] → es = []

section Events
variable (rows : List Db.ExpiredHold)

theorem cancels_sweepEvents (s : ℕ) : (sweepEvents rows).filter (fun e => e.cancels s) =
    if s ∈ rows.map Db.ExpiredHold.screeningId
      then [.cancelled s ((rows.filter fun r => r.screeningId = s).map Db.ExpiredHold.seatId)]
      else [] := by
  have hgroups : (ReservationsService.byScreening rows).filter
      ((fun e => ReservationEvent.cancels s e) ∘ fun g => .cancelled g.1 g.2) =
        if s ∈ rows.map Db.ExpiredHold.screeningId
          then [(s, (rows.filter fun r => r.screeningId = s).map Db.ExpiredHold.seatId)]
          else [] := by
    rw [byScreening_eq]
    exact Grouping.filter_groupBy rows s
  have hexpired : (rows.map fun r => ReservationEvent.holdExpired r.userId r.screeningId
      r.seatId).filter (fun e => e.cancels s) = [] := by
    simp [List.filter_eq_nil_iff, ReservationEvent.cancels]
  rw [sweepEvents, List.filter_append, hexpired, List.append_nil, List.filter_map, hgroups]
  split_ifs <;> rfl

theorem freed_sweepEvents : ((sweepEvents rows).flatMap ReservationEvent.freed).Perm
    (rows.map fun r => (r.screeningId, r.seatId)) := by
  have hgroups : ((ReservationsService.byScreening rows).map fun g =>
      ReservationEvent.cancelled g.1 g.2).flatMap ReservationEvent.freed =
        Grouping.pairs (ReservationsService.byScreening rows) := by
    rw [List.flatMap_map]
    rfl
  have hexpired : (rows.map fun r => ReservationEvent.holdExpired r.userId r.screeningId
      r.seatId).flatMap ReservationEvent.freed = [] := by
    simp [List.flatMap_eq_nil_iff, ReservationEvent.freed]
  rw [sweepEvents, List.flatMap_append, hgroups, hexpired, List.append_nil, byScreening_eq]
  exact Grouping.pairs_groupBy rows

theorem isHoldExpired_sweepEvents : (sweepEvents rows).filter ReservationEvent.isHoldExpired =
    rows.map fun r => .holdExpired r.userId r.screeningId r.seatId := by
  have hgroups : ((ReservationsService.byScreening rows).map fun g =>
      ReservationEvent.cancelled g.1 g.2).filter ReservationEvent.isHoldExpired = [] := by
    rw [List.filter_eq_nil_iff]
    exact List.forall_mem_map.mpr fun _ _ => Bool.false_ne_true
  rw [sweepEvents, List.filter_append, hgroups, List.nil_append, List.filter_eq_self]
  exact List.forall_mem_map.mpr fun _ _ => rfl

theorem sweptBy_sweepEvents : SweptBy rows (sweepEvents rows) where
  perScreening := cancels_sweepEvents rows
  freed := freed_sweepEvents rows
  perRow := isHoldExpired_sweepEvents rows
  noOther := by
    intro e he
    rcases List.mem_append.mp he with he | he
    · obtain ⟨g, -, rfl⟩ := List.mem_map.mp he
      exact .inr ⟨g.1, decide_eq_true rfl⟩
    · obtain ⟨r, -, rfl⟩ := List.mem_map.mp he
      exact .inl rfl
  nothing := by
    rintro rfl
    rfl

end Events

/-! ### The run -/

section Run
variable {S : Type} {exec : (c : Cmd) → S → Except Err c.Reply × S} {s : S}

/-- The clock says `t`, the sweep of `t` returns these rows, and listeners throw nothing. -/
structure Sweeps (exec : (c : Cmd) → S → Except Err c.Reply × S) (t : Time)
    (rows : List Db.ExpiredHold) (s : S) : Prop where
  clock : (exec .dateNow s).1 = .ok t
  released : (exec (.releaseExpiredHolds t) (exec .dateNow s).2).1 = .ok rows
  emitted : ∀ e u, (exec (.emit e) u).1 = .ok ()

/-- A loop that emits an event for each element. -/
theorem issued_forM_emit {ι : Type} (hemit : ∀ e u, (exec (.emit e) u).1 = .ok ())
    (event : ι → ReservationEvent) (xs : List ι) (s : S) :
    (forM xs fun x => emit (event x)).issued exec s = xs.map (fun x => .emit (event x)) ∧
      ((forM xs fun x => emit (event x)).run exec s).1 = .ok () := by
  induction xs generalizing s with
  | nil => exact ⟨rfl, rfl⟩
  | cons x xs ih =>
    have hx : exec (.emit (event x)) s = (.ok (), (exec (.emit (event x)) s).2) :=
      Prod.ext (hemit _ s) rfl
    have hrun : (emit (event x)).run exec s = (.ok (), (exec (.emit (event x)) s).2) := hx
    obtain ⟨hissued, hok⟩ := ih (exec (.emit (event x)) s).2
    rw [List.forM_cons]
    refine ⟨?_, ?_⟩
    · rw [emit, request, issued_issue_bind hx, hissued, List.map_cons]
    · rw [run_bind_of_ok hrun]
      exact hok

/-- **A sweep announces the rows it was given.** -/
theorem expireHolds_accounts (exec : (c : Cmd) → S → Except Err c.Reply × S) (t : Time)
    (rows : List Db.ExpiredHold) (s : S) (h : Sweeps exec t rows s) : ∃ es, SweptBy rows es ∧
      ReservationsService.expireHolds.issued exec s =
        .dateNow :: .releaseExpiredHolds t :: es.map .emit ∧
      (ReservationsService.expireHolds.run exec s).1 = .ok () := by
  obtain ⟨s₁, hclock⟩ : ∃ s₁, exec .dateNow s = (.ok t, s₁) := ⟨_, Prod.ext h.clock rfl⟩
  obtain ⟨s₂, hreleased⟩ : ∃ s₂, exec (.releaseExpiredHolds t) s₁ = (.ok rows, s₂) :=
    ⟨_, Prod.ext (by rw [← h.released, hclock]) rfl⟩
  obtain ⟨hgroups, hgroups_ok⟩ := issued_forM_emit h.emitted (fun g => .cancelled g.1 g.2)
    (ReservationsService.byScreening rows) s₂
  obtain ⟨s₃, hs₃⟩ : ∃ s₃, (forM (ReservationsService.byScreening rows) fun g =>
      emit (.cancelled g.1 g.2)).run exec s₂ = (.ok (), s₃) := ⟨_, Prod.ext hgroups_ok rfl⟩
  obtain ⟨hrows, hrows_ok⟩ := issued_forM_emit h.emitted
    (fun r => .holdExpired r.userId r.screeningId r.seatId) rows s₃
  refine ⟨sweepEvents rows, sweptBy_sweepEvents rows, ?_, ?_⟩
  · unfold ReservationsService.expireHolds now ReservationsRepository.releaseExpiredHolds request
    rw [issued_issue_bind hclock, issued_issue_bind hreleased, issued_bind, hgroups, hs₃,
      sweepEvents, List.map_append, List.map_map, List.map_map]
    exact congrArg _ (congrArg _ (congrArg _ hrows))
  · have hnow : now.run exec s = (.ok t, s₁) := hclock
    have hrelease : (ReservationsRepository.releaseExpiredHolds t).run exec s₁ =
        (.ok rows, s₂) := hreleased
    unfold ReservationsService.expireHolds
    rw [run_bind_of_ok hnow, run_bind_of_ok hrelease, run_bind_of_ok hs₃]
    exact hrows_ok

end Run

/-- Two users hold a seat each, and both holds lapse. -/
theorem two_lapsed_accounted : ∃ es, SweptBy [⟨1, 1, 1, 1⟩, ⟨2, 2, 1, 2⟩] es ∧
    ReservationsService.expireHolds.issued (World.exec testMode) (afterTurns
      [.perform (.reserve 1 ⟨1, 1⟩) inOrder, .perform (.reserve 2 ⟨1, 2⟩) inOrder,
        .env (.advance (11 * 60000))]) =
      .dateNow :: .releaseExpiredHolds (11 * 60000) :: es.map .emit ∧
    (ReservationsService.expireHolds.run (World.exec testMode) (afterTurns
      [.perform (.reserve 1 ⟨1, 1⟩) inOrder, .perform (.reserve 2 ⟨1, 2⟩) inOrder,
        .env (.advance (11 * 60000))])).1 = .ok () :=
  expireHolds_accounts (World.exec testMode) _ _ _
    ⟨by decide +kernel, by decide +kernel, fun _ _ => rfl⟩

end MovieReservation
