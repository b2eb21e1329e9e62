import MovieReservation.Properties.LiveSeats

/-! The gauge of held reservations. It counts events: one up for a hold, one down for what
ends it. The events stand for the holds as long as what a statement ends was HELD, and a
sweep releases no two holds of one screening, which it announces in one event. -/

namespace MovieReservation

open Lib Lib.Prog Lib.Table

/-! ### The metrics listener -/

structure ReservationMetrics where
  createdCounter : ℕ := 0
  cancelledCounter : ℕ := 0
  confirmedCounter : ℕ := 0
  heldGauge : ℤ := 0
  deriving DecidableEq

namespace ReservationMetricsListener

def handleCreated (m : ReservationMetrics) : ReservationMetrics :=
  { m with createdCounter := m.createdCounter + 1, heldGauge := m.heldGauge + 1 }

def handleCancelled (m : ReservationMetrics) : ReservationMetrics :=
  { m with cancelledCounter := m.cancelledCounter + 1, heldGauge := m.heldGauge - 1 }

def handleConfirmed (m : ReservationMetrics) : ReservationMetrics :=
  { m with confirmedCounter := m.confirmedCounter + 1, heldGauge := m.heldGauge - 1 }

def handle (m : ReservationMetrics) : ReservationEvent → ReservationMetrics
  | .created _ _ => handleCreated m
  | .cancelled _ _ => handleCancelled m
  | .confirmed _ _ => handleConfirmed m
  | .holdExpired _ _ _ => m

end ReservationMetricsListener

/-- What the event adds to the gauge. -/
def ReservationEvent.gauge : ReservationEvent → ℤ
  | .created _ _ => 1
  | .cancelled _ _ | .confirmed _ _ => -1
  | .holdExpired _ _ _ => 0

def gaugeOf (es : List ReservationEvent) : ℤ := (es.map ReservationEvent.gauge).sum

@[simp] theorem gaugeOf_nil : gaugeOf [] = 0 := rfl

@[simp] theorem gaugeOf_cons (e : ReservationEvent) (es : List ReservationEvent) :
    gaugeOf (e :: es) = e.gauge + gaugeOf es := List.sum_cons

@[simp] theorem gaugeOf_append (es fs : List ReservationEvent) :
    gaugeOf (es ++ fs) = gaugeOf es + gaugeOf fs := by
  rw [gaugeOf, List.map_append, List.sum_append]
  rfl

theorem heldGauge_handle (m : ReservationMetrics) (e : ReservationEvent) :
    (ReservationMetricsListener.handle m e).heldGauge = m.heldGauge + e.gauge := by
  cases e with
  | holdExpired u s seat => exact (add_zero _).symm
  | _ => rfl

theorem heldGauge_foldl (es : List ReservationEvent) (m : ReservationMetrics) :
    (es.foldl ReservationMetricsListener.handle m).heldGauge = m.heldGauge + gaugeOf es := by
  induction es generalizing m with
  | nil => simp
  | cons e es ih => rw [List.foldl_cons, ih, heldGauge_handle, gaugeOf_cons, add_assoc]

/-! ### The rows that are HELD -/

namespace Db
variable {db db' : Db}

def held (db : Db) : ℕ := db.reservations.rows.countP fun r => r.status = .held

/-- The screening and seat of every hold. -/
def heldSeats (db : Db) : List (ℕ × ℕ) :=
  (db.reservations.rows.filter fun r => r.status = .held).map fun r => (r.screeningId, r.seatId)

theorem mem_heldSeats {s seat : ℕ} :
    (s, seat) ∈ db.heldSeats ↔ db.seatStatus s seat = .held := by
  have hstatus : db.seatStatus s seat = .held ↔ ScreeningsService.statusBySeat
      (db.findActiveReservations s) seat = some .held := by
    unfold seatStatus
    rcases ScreeningsService.statusBySeat (db.findActiveReservations s) seat with _ | _ | _ | _ <;>
      simp [ScreeningsService.toSeatStatus]
  rw [hstatus, seatStatus_iff, heldSeats, List.mem_map]
  constructor
  · rintro ⟨r, hr, heq⟩
    obtain ⟨hs, hseat⟩ := Prod.mk.inj heq
    obtain ⟨hr, hheld⟩ := List.mem_filter.mp hr
    have hheld : r.status = .held := of_decide_eq_true hheld
    exact ⟨r.id, r, get_of_mem hr, ⟨hs, hseat, by rw [hheld]; rfl⟩, hheld⟩
  · rintro ⟨i, r, hr, ⟨hs, hseat, -⟩, hheld⟩
    exact ⟨r, List.mem_filter.mpr ⟨mem_of_get hr, decide_eq_true hheld⟩, by rw [hs, hseat]⟩

theorem heldSeats_nodup (db : Db) : db.heldSeats.Nodup := by
  refine List.Nodup.map_on ?_ ((List.Nodup.of_map _ db.reservations.nodup).filter _)
  intro r hr q hq heq
  obtain ⟨hs, hseat⟩ := Prod.mk.inj heq
  obtain ⟨hr, hrheld⟩ := List.mem_filter.mp hr
  obtain ⟨hq, hqheld⟩ := List.mem_filter.mp hq
  refine eq_of_id hr hq (occupies_unique (get_of_mem hr) (get_of_mem hq) ⟨hs, hseat, ?_⟩
    ⟨rfl, rfl, ?_⟩)
  · rw [of_decide_eq_true hrheld]
    rfl
  · rw [of_decide_eq_true hqheld]
    rfl

/-- The seats tell how many reservations are HELD. -/
theorem held_congr (h : ∀ s, db'.seatStatus s = db.seatStatus s) : db'.held = db.held := by
  have hcard : ∀ d : Db, d.held = d.heldSeats.length := fun d => by
    rw [held, heldSeats, List.length_map, List.countP_eq_length_filter]
  rw [hcard, hcard]
  refine List.Perm.length_eq ((List.perm_ext_iff_of_nodup db'.heldSeats_nodup
    db.heldSeats_nodup).mpr fun x => ?_)
  rw [← Prod.mk.eta (p := x), mem_heldSeats, mem_heldSeats, h]

/-- A HELD reservation gets another status. -/
theorem held_reservationUpdate {id : ℕ} {d : ReservationData} {r : Reservation}
    {st : ReservationStatus} (hd : d.status = some st) (hst : st ≠ .held)
    (hheld : ∀ r ∈ db.reservations.get id, r.status = .held)
    (hu : db.reservationUpdate id d = .ok (r, db')) : (db'.held : ℤ) = db.held - 1 := by
  obtain ⟨r₀, hr₀, -, -, ht⟩ := reservationUpdate_eq_ok hu
  have hcount := countP_modify d.id_apply (fun r => decide (r.status = .held)) hr₀
  have hafter : (d.apply r₀).status = st := by simp [ReservationData.apply, hd]
  have hres : db'.reservations = db.reservations.modify id d.apply d.id_apply := by rw [ht]
  simp only [hheld r₀ hr₀, hafter, hst, decide_true, decide_false, if_true, Bool.false_eq_true,
    if_false] at hcount
  rw [held, held, hres]
  omega

theorem held_holdSeat {p : HoldSeatParams} {r : Reservation} (h : db.holdSeat p = .ok (r, db')) :
    (db'.held : ℤ) = db.held + 1 := by
  obtain ⟨_, -, -, -, -, -, ht⟩ := holdSeat_eq_ok h
  have hrow : (p.row db.reservations.serial).status = .held := rfl
  rw [held, ht, rows_insert, List.countP_append, List.countP_singleton, hrow]
  simp [held]

/-- The holds of a sweep: those that stay and those that lapse. -/
theorem held_sweep (db : Db) (t : Time) :
    ((db.releaseExpiredHolds t).2.held : ℤ) = db.held - (db.releaseExpiredHolds t).1.length := by
  have hsplit : ∀ l : List Reservation, l.countP (fun r => decide (r.status = .held)) =
      (l.map (release t)).countP (fun r => decide (r.status = .held)) +
        l.countP (expired t) := by
    intro l
    induction l with
    | nil => rfl
    | cons r l ih =>
      simp only [List.map_cons, List.countP_cons, ih]
      by_cases he : expired t r
      · have hheld : r.status = .held := by
          simp only [expired, Bool.and_eq_true, decide_eq_true_eq] at he
          exact he.1
        have hgone : (release t r).status = .cancelled := by rw [release, if_pos he]
        simp [he, hheld, hgone]
        omega
      · have hsame : release t r = r := if_neg he
        simp [he, hsame]
        omega
  have hreleased : (db.releaseExpiredHolds t).1.length =
      db.reservations.rows.countP (expired t) := by
    rw [releaseExpiredHolds, List.length_map, List.countP_eq_length_filter]
  have := hsplit db.reservations.rows
  rw [hreleased, held, held]
  simp only [releaseExpiredHolds, rows_update]
  omega

end Db

/-! ### One event for each screening of a sweep -/

theorem byScreening_length {released : List Db.ExpiredHold}
    (h : (released.map Db.ExpiredHold.screeningId).Nodup) :
    (ReservationsService.byScreening released).length = released.length := by
  rw [byScreening_eq, Grouping.length_groupBy_of_nodup h]

theorem gaugeOf_sweep (released : List Db.ExpiredHold) :
    gaugeOf (sweepEvents released) = -(ReservationsService.byScreening released).length := by
  have hcancelled : ∀ l : List (ℕ × List ℕ),
      gaugeOf (l.map fun g => .cancelled g.1 g.2) = -l.length := by
    intro l
    induction l with
    | nil => rfl
    | cons g l ih =>
      simp only [List.map_cons, gaugeOf_cons, ih, ReservationEvent.gauge, List.length_cons]
      omega
  have hexpired : gaugeOf (released.map fun r =>
      .holdExpired r.userId r.screeningId r.seatId) = 0 := by
    induction released with
    | nil => rfl
    | cons r released ih => simp [ih, ReservationEvent.gauge]
  rw [sweepEvents, gaugeOf_append, hcancelled, hexpired, add_zero]

/-! ### Moves -/

/-- The statement that ends a hold finds it HELD, if it goes through; the sweep finds no two
lapsed holds of one screening. -/
def Cmd.Counted : Cmd → Db → Prop
  | .reservationUpdate id d, db => d.status ≠ none →
    (db.reservationUpdate id d).toOption.isSome → ∀ r ∈ db.reservations.get id, r.status = .held
  | .declineWithReservation p id, db =>
    (db.declineWithReservation p id).toOption.isSome →
      ∀ r ∈ db.reservations.get id, r.status = .held
  | .confirmWithReservation p id i, db =>
    (db.confirmWithReservation p id i).toOption.isSome →
      ∀ r ∈ db.reservations.get id, r.status = .held
  | .releaseExpiredHolds t, db =>
    ((db.reservations.rows.filter (Db.expired t)).map Reservation.screeningId).Nodup
  | _, _ => True

instance (c : Cmd) (db : Db) : Decidable (c.Counted db) := by
  induction c using Cmd.casesOn <;> unfold Cmd.Counted <;> infer_instance

theorem Db.held_updateBoth {db db' : Db} {pid id : ℕ} {p : PaymentData} {d : ReservationData}
    {x : Payment × Reservation} {st : ReservationStatus} (hd : d.status = some st)
    (hst : st ≠ .held) (hheld : ∀ r ∈ db.reservations.get id, r.status = .held)
    (h : db.updateBoth pid p id d = .ok (x, db')) : (db'.held : ℤ) = db.held - 1 := by
  obtain ⟨db₁, h₁, h₂⟩ := updateBoth_eq_ok h
  obtain ⟨_, -, -, -, ht⟩ := paymentUpdate_eq_ok h₁
  have hsame : db₁.reservations = db.reservations := by rw [ht]
  have hcount := held_reservationUpdate hd hst (by rw [hsame]; exact hheld) h₂
  rw [hcount, held, held, hsame]

/-- The events of a move count its holds. -/
theorem Move.held {c : Cmd} {db db' : Db} {es : List ReservationEvent} (h : Move c db es db')
    (hc : c.Counted db) : (db'.held : ℤ) = db.held + gaugeOf es := by
  cases h with
  | hold hok => exact Db.held_holdSeat hok
  | sweep t =>
    have hnodup : ((db.releaseExpiredHolds t).1.map Db.ExpiredHold.screeningId).Nodup := by
      rw [Db.releaseExpiredHolds, List.map_map]
      exact hc
    rw [Db.held_sweep, gaugeOf_sweep, byScreening_length hnodup]
    omega
  | cancel hr ha hu =>
    exact Db.held_reservationUpdate rfl (by decide)
      (hc (Option.some_ne_none _) (by rw [hu]; rfl)) hu
  | confirm hu =>
    exact Db.held_reservationUpdate rfl (by decide)
      (hc (Option.some_ne_none _) (by rw [hu]; rfl)) hu
  | decline hok => exact Db.held_updateBoth rfl (by decide) (hc (by rw [hok]; rfl)) hok
  | settle hok => exact Db.held_updateBoth rfl (by decide) (hc (by rw [hok]; rfl)) hok

section Gauge
variable {σ A : Type}

/-- What holds while an operation runs: the pending events lead from the gauge to the number
of holds. -/
def Metered (gauge : ℤ) (w : World σ) : Prop := (w.db.held : ℤ) = gauge + gaugeOf w.pending

theorem metered_tracks (gauge : ℤ) :
    Tracks (σ := σ) (fun c w => c.Counted w.db) (Metered gauge) where
  same w w' hsame h := by
    rw [Metered, hsame.pending, Db.held_congr hsame.seats]
    exact h
  move c w es db hc hmove h := by
    have hheld : (db.held : ℤ) = w.db.held + gaugeOf es := hmove.held hc
    rw [Metered, World.moved, gaugeOf_append, ← add_assoc, ← h]
    exact hheld
  fill w s m hm h := h

/-! ### Every history -/

variable (api : StripeApi σ A)

/-- The events that a turn emits. -/
def Turn.events : Turn BookingRequest A → World σ → List ReservationEvent
  | .perform r _, w => (MovieReservation.perform api r.handle w).2.pending
  | .env _, _ => []

/-- The metrics after a history whose events were all delivered. -/
def metrics : List (Turn BookingRequest A) → World σ → ReservationMetrics → ReservationMetrics
  | [], _, m => m
  | x :: xs, w, m => (turn api BookingRequest.handle x w).elim m fun w' =>
    metrics xs w' ((x.events api w).foldl ReservationMetricsListener.handle m)

variable {api}

theorem exec_mute_pending {c : Cmd} (hc : c.mute = true) (w : World σ) :
    (World.exec api c w).2.pending = w.pending := by
  cases c with
  | acquire =>
    simp only [World.exec]
    split_ifs <;> rfl
  | paymentFindById id => cases id <;> rfl
  | paymentFindByStripePaymentId i => cases i <;> rfl
  | _ => first | rfl | cases hc

theorem deliver_pending {xs : List (Choice Err Listener Empty)} {w w' : World σ}
    (h : deliver api xs w = some w') : w'.pending = [] :=
  deliver_keeps api (P := fun _ c => c.mute = true) (I := fun v => v.pending = [])
    Listener.handle_mute (fun _ _ v hc hv => (exec_mute_pending hc v).trans hv) h rfl

theorem turn_metered {x : Turn BookingRequest A} {w w' : World σ} {m : ReservationMetrics}
    (hw : w.pending = []) (hm : m.heldGauge = w.db.held)
    (h : turn api BookingRequest.handle x w = some w')
    (hx : x.Along api BookingRequest.handle (fun c v => c.Counted v.db) w) :
    w'.pending = [] ∧
      ((x.events api w).foldl ReservationMetricsListener.handle m).heldGauge = w'.db.held := by
  cases x with
  | perform r xs =>
    have hstart : Metered m.heldGauge w := by rw [Metered, hw, hm, gaugeOf_nil, add_zero]
    have hkept : Keeps api (fun c v => c.Counted v.db) (Metered m.heldGauge)
        (BookingRequest.handle r) w := BookingRequest.handle_keeps (metered_tracks _) hstart r
    refine ⟨deliver_pending h, ?_⟩
    rw [heldGauge_foldl, deliver_db api h]
    exact (hkept.run hx).symm
  | env e =>
    cases h
    refine ⟨?_, ?_⟩
    · rw [← hw]
      cases e <;> rfl
    · rw [World.elapse_db]
      exact hm

/-- The gauge is the number of HELD reservations in every history from an empty table whose
statements and sweeps end nothing but holds, of one screening no more than one at a time. -/
theorem heldGauge_exact (api : StripeApi σ A) (w : World σ) (m : ReservationMetrics)
    (hrows : w.db.reservations.rows = []) (hpending : w.pending = []) (hm : m.heldGauge = 0)
    (ys : List (Turn BookingRequest A)) (w' : World σ)
    (h : history api BookingRequest.handle ys w = some w')
    (hys : Throughout api BookingRequest.handle
      (fun x v _ => x.Along api BookingRequest.handle (fun c u => c.Counted u.db) v) ys w) :
    (metrics api ys w m).heldGauge = w'.db.held := by
  have hstart : m.heldGauge = w.db.held := by rw [hm, Db.held, hrows]; rfl
  clear hrows hm
  induction ys generalizing w m with
  | nil =>
    cases h
    exact hstart
  | cons x ys ih =>
    obtain ⟨v, hv, h⟩ := Option.bind_eq_some_iff.mp h
    obtain ⟨hx, hys⟩ := hys v hv
    obtain ⟨hpending, hgauge⟩ := turn_metered hpending hstart hv hx
    rw [metrics, hv]
    exact ih v _ hpending h hys hgauge

end Gauge

/-! ### Runs -/

/-- One user holds two seats of the screening, and both holds lapse. -/
def bothLapse : List (Turn BookingRequest Account.Action) :=
  [.perform (.reserve 1 ⟨1, 1⟩) inOrder, .perform (.reserve 1 ⟨1, 2⟩) inOrder,
    .env (.advance (11 * 60000)), .perform .expireHolds
      (System.solo 0 1 ++ System.solo 1 6 ++ System.solo 3 1 ++ System.solo 5 1)]

/-- The sweep announces two lapsed holds in one event. -/
theorem gauge_keeps_one : ¬ ∀ ys w', history testMode BookingRequest.handle ys theatre = some w' →
    (metrics testMode ys theatre {}).heldGauge = w'.db.held := by
  intro h
  have hgauge := h bothLapse _ (history_afterTurns (by decide +kernel))
  revert hgauge
  decide +kernel

theorem gauge_of_paid : (metrics testMode (heldAndPaid ++ [paidTurn]) theatre {}).heldGauge =
    (afterTurns (heldAndPaid ++ [paidTurn])).db.held :=
  heldGauge_exact testMode theatre {} (by decide +kernel) (by decide +kernel) rfl
    (heldAndPaid ++ [paidTurn]) _ (history_afterTurns (by decide +kernel)) (by decide +kernel)

end MovieReservation
