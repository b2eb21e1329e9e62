import MovieReservation.Properties.SeatCache

/-! A client that took the seat map of a screening and applies what is broadcast to the
screening's room. Its map is the database's, as long as no reconciliation gives up a seat
that somebody else has taken since: that decline is announced as if it freed the seat. -/

namespace MovieReservation

open Lib Lib.Prog Lib.Table

/-! ### The client -/

def SeatMapEntry.withStatus (status : SeatStatus) (e : SeatMapEntry) : SeatMapEntry :=
  { e with status }

/-- The client's map, once it has applied the messages to the room of the screening. -/
def replica (screeningId : ℕ) (rooms : List (ℕ × RoomMessage)) (seatMap : List SeatMapEntry) :
    List SeatMapEntry :=
  (changesIn screeningId rooms).foldl
    (fun m d => d.patch SeatMapEntry.seatId SeatMapEntry.withStatus m) seatMap

theorem replica_append (s : ℕ) (xs ys : List (ℕ × RoomMessage)) (m : List SeatMapEntry) :
    replica s (xs ++ ys) m = replica s ys (replica s xs m) := by
  rw [replica, changesIn_append, List.foldl_append]
  rfl

theorem replica_silent {s : ℕ} {rooms : List (ℕ × RoomMessage)} (h : changesIn s rooms = [])
    (m : List SeatMapEntry) : replica s rooms m = m := by
  rw [replica, h, List.foldl_nil]

def Seat.entry (seat : Seat) (status : SeatStatus) : SeatMapEntry :=
  ⟨seat.id, seat.row, seat.number, status⟩

theorem seatMap_view (db : Db) (s : ℕ) (seats : List Seat) :
    ScreeningsService.seatMap seats (db.findActiveReservations s) =
      Delta.view Seat.entry Seat.id seats (db.seatStatus s) := rfl

theorem replica_view (s : ℕ) (rooms : List (ℕ × RoomMessage)) (seats : List Seat)
    (f : ℕ → SeatStatus) : replica s rooms (Delta.view Seat.entry Seat.id seats f) =
      Delta.view Seat.entry Seat.id seats (Delta.replay (changesIn s rooms) f) := by
  have hkey : ∀ (seat : Seat) v, (seat.entry v).seatId = seat.id := fun _ _ => rfl
  have hput : ∀ (seat : Seat) v v', (seat.entry v').withStatus v = seat.entry v :=
    fun _ _ _ => rfl
  exact Delta.foldl_patch_view hkey hput seats (changesIn s rooms) f

/-- A move and its announcement take the map that is computed to the one that is kept. -/
theorem Move.replica {c : Cmd} {db db' : Db} {es : List ReservationEvent} {s : ℕ}
    {m : List SeatMapEntry} (h : Move c db es db') (hc : c.Clear s db)
    (hm : db.freshSeatMap s = some m) :
    db'.freshSeatMap s =
      some (MovieReservation.replica s (es.flatMap ReservationEvent.delta) m) := by
  have hfound : db'.screeningFindById s = db.screeningFindById s := by
    simp only [Db.screeningFindById, h.samePlan.movies, h.samePlan.halls, h.samePlan.screenings]
  have hseats : db'.findSeatsByHall = db.findSeatsByHall := by
    funext hallId
    simp only [Db.findSeatsByHall, h.samePlan.seats]
  simp only [Db.freshSeatMap, seatMap_view] at hm ⊢
  rw [hfound, hseats, h.exact hc]
  cases hs : db.screeningFindById s with
  | none =>
    rw [hs] at hm
    cases hm
  | some screening =>
    simp only [hs, Option.bind_eq_bind, Option.bind_some] at hm ⊢
    split_ifs at hm ⊢ with hcancelled
    cases hm
    rw [replica_view]

/-! ### Runs -/

section Runs
variable {σ A : Type} {api : StripeApi σ A} {s : ℕ} {m : List SeatMapEntry}
  {rooms : List (ℕ × RoomMessage)}

/-- The messages sent since `rooms` lead from `m` to the map that is computed now. -/
def Followed (s : ℕ) (m : List SeatMapEntry) (rooms : List (ℕ × RoomMessage)) (w : World σ) :
    Prop :=
  ∃ sent, w.rooms = rooms ++ sent ∧ w.db.freshSeatMap s = some (replica s sent m)

theorem Followed.of_silent {w w' : World σ} (h : Followed s m rooms w)
    (hfresh : w'.db.freshSeatMap s = w.db.freshSeatMap s) {sent : List (ℕ × RoomMessage)}
    (hrooms : w'.rooms = w.rooms ++ sent) (hsilent : changesIn s sent = []) :
    Followed s m rooms w' := by
  obtain ⟨sent₀, hr, hm⟩ := h
  refine ⟨sent₀ ++ sent, by rw [hrooms, hr, List.append_assoc], ?_⟩
  rw [replica_append, replica_silent hsilent, hfresh, hm]

theorem followed_tracks : Tracks (σ := σ) (fun c w => c.Clear s w.db) (Followed s m rooms) where
  same w w' hsame h := h.of_silent (hsame.freshSeatMap s)
    (by rw [hsame.rooms, List.append_nil]) rfl
  move c w es db hc hmove h := by
    obtain ⟨sent, hr, hm⟩ := h
    refine ⟨sent ++ es.flatMap ReservationEvent.delta, ?_, ?_⟩
    · rw [World.moved, hr, List.append_assoc]
    · rw [replica_append]
      exact hmove.replica hc hm
  fill w s' m' hm' h := h.of_silent rfl (List.append_nil _).symm rfl

/-- Commands that tell the clients of no seat. -/
def Cmd.mute : Cmd → Bool
  | .emit _ => false
  | .emitToRoom _ message => message.change.isNone
  | c => c.quiet

theorem Cmd.mute_quiet {c : Cmd} (h : c.mute = true) : c.quiet = true := by
  cases c <;> first | rfl | exact h

variable (api) in
theorem exec_mute {c : Cmd} (hc : c.mute = true) (w : World σ) :
    ∃ sent, (World.exec api c w).2.rooms = w.rooms ++ sent ∧ changesIn s sent = [] := by
  cases c with
  | emitToRoom s' message =>
    refine ⟨[(s', message)], rfl, ?_⟩
    have hnone : message.change = none := Option.isNone_iff_eq_none.mp hc
    simp [changesIn, hnone]
  | acquire =>
    refine ⟨[], ?_, rfl⟩
    simp only [World.exec, List.append_nil]
    split_ifs <;> rfl
  | paymentFindById id => cases id <;> exact ⟨[], (List.append_nil _).symm, rfl⟩
  | paymentFindByStripePaymentId i => cases i <;> exact ⟨[], (List.append_nil _).symm, rfl⟩
  | _ => first | exact ⟨[], (List.append_nil _).symm, rfl⟩ | cases hc

theorem Cmd.mute_request {c : Cmd} (h : c.mute = true) :
    Only (fun c => c.mute = true) (request c) := (only_issue c).mpr h

theorem getSeatMap_mute (s : ℕ) :
    Only (fun c => c.mute = true) (ScreeningsService.getSeatMap s) := by
  unfold ScreeningsService.getSeatMap
  refine Only.bind (Only.tryCatch (Cmd.mute_request rfl) fun _ => trivial) fun cached => ?_
  cases cached with
  | some cached => trivial
  | none =>
    refine Only.bind (Cmd.mute_request rfl) fun found => ?_
    cases found with
    | none => trivial
    | some screening =>
      simp only [only_throwIf_bind]
      intro _
      refine Only.bind (Cmd.mute_request rfl) fun _ => Only.bind (Cmd.mute_request rfl) fun _ => ?_
      exact Only.bind (Only.tryCatch (Cmd.mute_request rfl) fun _ => trivial) fun _ => trivial

theorem broadcast_mute (s : ℕ) :
    Only (fun c => c.mute = true) (ReservationBroadcastListener.broadcast s) := by
  refine Only.tryCatch ?_ fun _ => trivial
  refine Only.bind (Only.bind (getSeatMap_mute s) fun _ => trivial) fun _ => ?_
  exact Cmd.mute_request rfl

/-- What a listener does after the event was emitted tells the clients of no seat. -/
theorem Listener.handle_mute (l : Listener) : Only (fun c => c.mute = true) l.handle := by
  cases l with
  | cache e =>
    cases e with
    | created s seats | cancelled s seats =>
      exact Only.tryCatch (Cmd.mute_request rfl) fun _ => trivial
    | confirmed s seats | holdExpired u s seat => trivial
  | broadcast e =>
    cases e with
    | created s seats | cancelled s seats | confirmed s seats => exact broadcast_mute s
    | holdExpired u s seat => exact Cmd.mute_request rfl

theorem turn_followed {x : Turn BookingRequest A} {w w' : World σ} (hw : Followed s m rooms w)
    (h : turn api BookingRequest.handle x w = some w')
    (hx : x.Along api BookingRequest.handle (fun c v => c.Clear s v.db) w) :
    Followed s m rooms w' := by
  cases x with
  | perform r xs =>
    have hkept : Keeps api (fun c v => c.Clear s v.db) (Followed s m rooms)
        (BookingRequest.handle r) w := BookingRequest.handle_keeps followed_tracks hw r
    refine deliver_keeps api (P := fun _ c => c.mute = true) Listener.handle_mute ?_ h
      (hkept.run hx)
    intro _ c v hc hv
    obtain ⟨sent, hsent, hsilent⟩ := exec_mute api hc v
    exact hv.of_silent (by rw [World.exec_quiet api (Cmd.mute_quiet hc)]) hsent hsilent
  | env e =>
    cases h
    refine hw.of_silent (by rw [World.elapse_db]) ?_ (rfl : changesIn s [] = [])
    cases e <;> exact (List.append_nil _).symm

/-- A client reads the map of the screening and follows its room: after every history in
which a reconciliation that gives up a seat of the screening finds nobody else on it, the
client has the map that would be computed then. The map it read was not a stale copy. -/
theorem replica_follows (api : StripeApi σ A) (s : ℕ) (w : World σ) (m : List SeatMapEntry)
    (hread : (perform api (ScreeningsService.getSeatMap s) w).1 = .ok m) (hcopy : Current s w)
    (ys : List (Turn BookingRequest A)) (w' : World σ)
    (h : history api BookingRequest.handle ys
      (perform api (ScreeningsService.getSeatMap s) w).2 = some w')
    (hys : Throughout api BookingRequest.handle (fun x v _ =>
      x.Along api BookingRequest.handle (fun c u => c.Clear s u.db) v) ys
      (perform api (ScreeningsService.getSeatMap s) w).2) :
    w'.db.freshSeatMap s = some (replica s (w'.rooms.drop w.rooms.length) m) := by
  have hstart : Followed s m w.rooms (perform api (ScreeningsService.getSeatMap s) w).2 := by
    rw [perform_getSeatMap] at hread ⊢
    cases hcache : w.redis.cache (.seatMap s) with
    | some cached =>
      rw [hcache] at hread
      cases hread
      exact ⟨[], (List.append_nil _).symm, hcopy _ hcache⟩
    | none =>
      rw [hcache] at hread
      cases hfresh : w.db.freshSeatMap s with
      | none =>
        rw [hfresh] at hread
        cases hread
      | some fresh =>
        rw [hfresh] at hread
        cases hread
        exact ⟨[], (List.append_nil _).symm, hfresh⟩
  obtain ⟨sent, hsent, hm⟩ := Throughout.keeps
    (fun _ _ _ hv hturn hx => turn_followed hv hturn hx) hys hstart h
  rw [hm, hsent, List.drop_left]

end Runs

/-! ### A seat that was taken again -/

/-- The session of a hold expires, the hold lapses, and somebody else holds the seat. -/
def retaken : List (Turn BookingRequest Account.Action) :=
  [.perform (.reserve 1 ⟨1, 1⟩) inOrder, .perform (.createCheckoutSession 1 1) [],
    .perform (.webhook (.ok ⟨2, .checkoutSessionExpired ⟨.unpaid, none, some 1⟩⟩)) [],
    .env (.advance (31 * 60000)),
    .perform .expireHolds (System.solo 0 1 ++ System.solo 1 6 ++ System.solo 3 1),
    .perform (.reserve 2 ⟨1, 1⟩) inOrder]

/-- The reconciliation declines the first payment and announces the seat as available. -/
def reconciled : List (Turn BookingRequest Account.Action) :=
  [.perform .reconcilePayments inOrder]

theorem freed_but_held : ¬ ∀ ys w s m zs w',
    history testMode BookingRequest.handle ys theatre = some w →
    (perform testMode (ScreeningsService.getSeatMap s) w).1 = .ok m →
    history testMode BookingRequest.handle zs
      (perform testMode (ScreeningsService.getSeatMap s) w).2 = some w' →
    w'.db.freshSeatMap s = some (replica s (w'.rooms.drop w.rooms.length) m) := by
  intro h
  have hwrong :
    (perform testMode (ScreeningsService.getSeatMap 1) (afterTurns retaken)).1.toOption.any
      fun m => (history testMode BookingRequest.handle reconciled
        (perform testMode (ScreeningsService.getSeatMap 1) (afterTurns retaken)).2).any
          fun w' => w'.db.freshSeatMap 1 ≠
            some (replica 1 (w'.rooms.drop (afterTurns retaken).rooms.length) m) := by
    decide +kernel
  obtain ⟨m, hm, hwrong⟩ := (Option.any_eq_true _ _).mp hwrong
  obtain ⟨w', hw', hwrong⟩ := (Option.any_eq_true _ _).mp hwrong
  refine of_decide_eq_true hwrong (h retaken _ 1 m reconciled w'
    (history_afterTurns (by decide +kernel)) ?_ hw')
  cases hread : (perform testMode (ScreeningsService.getSeatMap 1) (afterTurns retaken)).1 with
  | ok m' =>
    rw [hread] at hm
    rw [Option.some.inj hm]
  | error e =>
    rw [hread] at hm
    cases hm

/-- A seat is held, booked and given back while the client follows. -/
def heldToCancelled : List (Turn BookingRequest Account.Action) :=
  heldAndPaid ++ [paidTurn, .perform (.cancel 1 1) inOrder]

theorem followed_to_the_end : ∃ m w',
    (perform testMode (ScreeningsService.getSeatMap 1) theatre).1 = .ok m ∧
    history testMode BookingRequest.handle heldToCancelled
      (perform testMode (ScreeningsService.getSeatMap 1) theatre).2 = some w' ∧
    w'.db.freshSeatMap 1 = some (replica 1 (w'.rooms.drop theatre.rooms.length) m) := by
  have hruns : (perform testMode (ScreeningsService.getSeatMap 1) theatre).1.toOption.isSome ∧
      (history testMode BookingRequest.handle heldToCancelled
        (perform testMode (ScreeningsService.getSeatMap 1) theatre).2).isSome := by
    decide +kernel
  obtain ⟨w', hw'⟩ := Option.isSome_iff_exists.mp hruns.2
  cases hread : (perform testMode (ScreeningsService.getSeatMap 1) theatre).1 with
  | error e =>
    rw [hread] at hruns
    cases hruns.1
  | ok m =>
    exact ⟨m, w', rfl, hw', replica_follows testMode 1 theatre m hread (theatre_coherent 1)
      heldToCancelled w' hw' (by decide +kernel)⟩

end MovieReservation
