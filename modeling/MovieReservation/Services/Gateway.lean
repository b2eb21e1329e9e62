import MovieReservation.Services.SeatStatus

/-! The WebSocket gateway: a client enters the room of a screening and is acknowledged the
seat map. Its handler issues the commands of the services and `client.join`. -/

namespace MovieReservation

open Lib

inductive SocketCmd where
  | join (screeningId : ℕ)

abbrev GatewayCmd := Cmd ⊕ SocketCmd

abbrev GatewayReply : GatewayCmd → Type := Prog.SumReply Cmd.Reply fun _ => Unit

abbrev G := Prog GatewayCmd GatewayReply Err

inductive JoinScreeningResult where
  | joined (seats : List SeatMapEntry) (summary : ScreeningSummary)
  | refused (error : String)
  deriving DecidableEq

/-- `client.join` of the screening's room. -/
def Socket.join (screeningId : ℕ) : G Unit :=
  Prog.issue (R := GatewayReply) (.inr (.join screeningId) : GatewayCmd)

/-- The argument is `Number(data?.screeningId)`, if that is an integer. -/
def ScreeningGateway.handleJoin : Option ℤ → G JoinScreeningResult
  | none => return .refused "Invalid screeningId"
  | some screeningId =>
    if screeningId < 1 then return .refused "Invalid screeningId"
    else
      try
        let seats ← (ScreeningsService.getSeatMap screeningId.toNat).left
        let summary ← (ScreeningsService.getScreeningSummary screeningId.toNat).left
        Socket.join screeningId.toNat
        pure (.joined seats summary)
      catch err => match err with
        | .notFound message => pure (.refused message)
        | err => throw err

/-- A client in a room, with the number of messages that had been sent to the rooms when
it entered. -/
structure Member where
  client : ℕ
  screeningId : ℕ
  since : ℕ
  deriving DecidableEq

structure Hub (σ : Type) where
  world : World σ
  members : List Member

namespace Hub

variable {σ A : Type}

def exec (api : StripeApi σ A) (client : ℕ) :
    (c : GatewayCmd) → Hub σ → Except Err (GatewayReply c) × Hub σ
  | .inl c, h => ((World.exec api c h.world).1, { h with world := (World.exec api c h.world).2 })
  | .inr (.join screeningId), h =>
    (.ok (), { h with members := h.members ++ [⟨client, screeningId, h.world.rooms.length⟩] })

end Hub

/-! ### Changes

A change of reservations that commits, drops the cached maps and is told to the rooms in
one step. -/

inductive Change where
  | hold (p : Db.HoldSeatParams)
  | expire (now : Time)
  | cancel (id : ℕ)
  | confirm (id : ℕ)
  | decline (paymentId reservationId : ℕ)
  | settle (paymentId reservationId : ℕ) (stripePaymentId : Option ℕ)

namespace Change

def cmd : Change → Cmd
  | hold p => .holdSeat p
  | expire now => .releaseExpiredHolds now
  | cancel id => .reservationUpdate id { status := some .cancelled }
  | confirm id => .reservationUpdate id { status := some .confirmed, heldUntil := some none }
  | decline paymentId reservationId => .declineWithReservation paymentId reservationId
  | settle paymentId reservationId stripePaymentId =>
    .confirmWithReservation paymentId reservationId stripePaymentId

/-- The events that follow the statement, and the database it leaves. -/
def commit (db : Db) : Change → Option (List ReservationEvent × Db)
  | hold p => match db.holdSeat p with
    | .ok (r, db) => some ([.created p.screeningId [r.seatId]], db)
    | .error _ => none
  | expire now =>
    let (released, db) := db.releaseExpiredHolds now
    some (sweepEvents released, db)
  | cancel id => match db.reservations.get id with
    | none => none
    | some r =>
      if r.status.active then
        match db.reservationUpdate id { status := some .cancelled } with
        | .ok (_, db) => some ([.cancelled r.screeningId [r.seatId]], db)
        | .error _ => none
      else none
  | confirm id =>
    match db.reservationUpdate id { status := some .confirmed, heldUntil := some none } with
    | .ok (r, db) => some ([.confirmed r.screeningId [r.seatId]], db)
    | .error _ => none
  | decline paymentId reservationId => match db.declineWithReservation paymentId reservationId with
    | .ok (x, db) => some ([.cancelled x.2.screeningId [x.2.seatId]], db)
    | .error _ => none
  | settle paymentId reservationId stripePaymentId =>
    match db.confirmWithReservation paymentId reservationId stripePaymentId with
    | .ok (x, db) => some ([.confirmed x.2.screeningId [x.2.seatId]], db)
    | .error _ => none

theorem commit_move {x : Change} {db db' : Db} {es : List ReservationEvent}
    (h : x.commit db = some (es, db')) : Move x.cmd db es db' := by
  cases x with
  | hold p =>
    simp only [commit] at h
    split at h
    case h_1 r db₁ hok =>
      cases h
      exact .hold hok
    case h_2 => cases h
  | expire now =>
    cases h
    exact .sweep now db
  | cancel id =>
    simp only [commit] at h
    split at h
    case h_1 => cases h
    case h_2 r hr =>
      split_ifs at h with ha
      split at h
      case h_1 y db₁ hok =>
        cases h
        exact .cancel hr ha hok
      case h_2 => cases h
  | confirm id =>
    simp only [commit] at h
    split at h
    case h_1 r db₁ hok =>
      cases h
      exact .confirm hok
    case h_2 => cases h
  | decline p id =>
    simp only [commit] at h
    split at h
    case h_1 y db₁ hok =>
      cases h
      exact .decline hok
    case h_2 => cases h
  | settle p id i =>
    simp only [commit] at h
    split at h
    case h_1 y db₁ hok =>
      cases h
      exact .settle hok
    case h_2 => cases h

end Change

/-- The statement with its announcements; the cached map of every screening that is told
of a change is dropped. -/
def World.change {σ : Type} (x : Change) (w : World σ) : World σ :=
  match x.commit w.db with
  | none => w
  | some (es, db) =>
    let sent := es.flatMap ReservationEvent.delta
    { w with db, redis := w.redis.del (sent.map fun m => .seatMap m.1), rooms := w.rooms ++ sent }

inductive HubEnv (A : Type) where
  | change (x : Change)
  | other (e : Env A)

section System
variable {σ A : Type} (api : StripeApi σ A)

def Hub.elapse : HubEnv A → Hub σ → Hub σ
  | .change x, h => { h with world := h.world.change x }
  | .other e, h => { h with world := h.world.elapse api e }

/-- Clients enter rooms, side by side. -/
def gatewaySystem :
    System GatewayCmd GatewayReply Err (Hub σ) (Option ℤ) (HubEnv A) JoinScreeningResult where
  exec := Hub.exec api
  ready _ _ _ := true
  fault _ _ := false
  env := Hub.elapse api
  handler := ScreeningGateway.handleJoin

end System

end MovieReservation
