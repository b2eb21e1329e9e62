import MovieReservation.Services.Requests

/-! A Stripe account in test mode, which is one `StripeApi`, and the world the
server starts in: the seeded database, empty caches and nothing under way. -/

namespace MovieReservation

open Lib

/-- The checkout sessions that were opened and the refunds that were made. -/
structure Account where
  sessions : List Session
  books : List Refund

namespace Account

inductive Action where
  /-- The customer pays the session; its payment intent is numbered like it. -/
  | pay (sessionId : ℕ)

def createSession (_ : CheckoutParams) (a : Account) : Except Err Session × Account :=
  let session := ⟨a.sessions.length + 1, "https://checkout.stripe.com/c/pay", .unpaid, none⟩
  (.ok session, { a with sessions := a.sessions ++ [session] })

def retrieveSession (id : Option ℕ) (a : Account) : Except Err Session × Account :=
  match a.sessions.find? (fun s => some s.id = id) with
  | some session => (.ok session, a)
  | none => (.error .stripe, a)

/-- A repeated idempotency key is answered with the first refund, if the parameters
are the same, and is an error otherwise. -/
def createRefund (intent : ℕ) (amount : ℤ) (key : ℕ) (a : Account) : Except Err Refund × Account :=
  match a.books.find? (fun r => r.idempotencyKey = key) with
  | some r =>
    if r.paymentIntent = intent ∧ r.amount = amount then (.ok r, a) else (.error .stripe, a)
  | none =>
    let refund := ⟨a.books.length + 1, intent, amount, key⟩
    (.ok refund, { a with books := a.books ++ [refund] })

def act : Action → Account → Account
  | .pay id, a => { a with sessions := a.sessions.map fun s =>
      if s.id = id then { s with paymentStatus := .paid, paymentIntent := some id } else s }

theorem createRefund_ok (i : ℕ) (m : ℤ) (k : ℕ) (a : Account) (r : Refund)
    (h : (createRefund i m k a).1 = .ok r) :
    r ∈ (createRefund i m k a).2.books ∧ r.paymentIntent = i ∧ r.amount = m ∧
      r.idempotencyKey = k := by
  unfold createRefund at h ⊢
  cases hf : a.books.find? (fun r => r.idempotencyKey = k) with
  | none =>
    simp only [hf, Except.ok.injEq] at h ⊢
    subst h
    exact ⟨List.mem_append_right _ (List.mem_singleton_self _), rfl, rfl, rfl⟩
  | some r₀ =>
    simp only [hf] at h ⊢
    split_ifs at h ⊢ with hp
    cases h
    exact ⟨List.mem_of_find?_eq_some hf, hp.1, hp.2, by simpa using List.find?_some hf⟩

theorem createRefund_books (i : ℕ) (m : ℤ) (k : ℕ) (a : Account) :
    a.books ⊆ (createRefund i m k a).2.books := by
  unfold createRefund
  cases a.books.find? (fun r => r.idempotencyKey = k) with
  | none => exact List.subset_append_left _ _
  | some r₀ => dsimp only; split_ifs <;> exact List.Subset.refl _

theorem retrieveSession_books (i : Option ℕ) (a : Account) :
    a.books ⊆ (retrieveSession i a).2.books := by
  unfold retrieveSession
  split <;> exact List.Subset.refl _

end Account

def testMode : StripeApi Account Account.Action where
  createSession := Account.createSession
  retrieveSession := Account.retrieveSession
  createRefund := Account.createRefund
  act := Account.act
  refunds := Account.books
  createRefund_issues := Account.createRefund_ok
  createSession_keeps _ _ := List.Subset.refl _
  retrieveSession_keeps := Account.retrieveSession_books
  createRefund_keeps := Account.createRefund_books
  act_keeps a _ := by cases a; exact List.Subset.refl _

/-! ### The start -/

def Db.emptyTables (refundPolicies : Table RefundPolicy)
    (h : Table.UniqueOn policyKey refundPolicies) : Db where
  movies := Table.empty
  halls := Table.empty
  screenings := Table.empty
  seats := Table.empty
  reservations := Table.empty
  payments := Table.empty
  refundPolicies := refundPolicies
  screening_hall := Table.refers_empty _ _
  screening_movie := Table.refers_empty _ _
  seat_hall := Table.refers_empty _ _
  reservation_screening := Table.refers_empty _ _
  reservation_seat := Table.refers_empty _ _
  payment_reservation := Table.refers_empty _ _
  seat_hallId_row_number_key := Table.uniqueOn_empty _
  reservation_active_seat_screening_key := Table.uniqueOn_empty _
  payment_reservationId_key := Table.uniqueOn_empty _
  payment_stripeEventId_key := Table.uniqueOn_empty _
  refund_policy_hours_key := h
  payment_amount := Table.every_empty _

/-- The tiers of `seed.ts`. -/
def seededPolicies : Table RefundPolicy where
  rows := [⟨1, 48, 100000, 100⟩, ⟨2, 24, 48, 50⟩, ⟨3, 0, 24, 0⟩]
  serial := 4
  nodup := by decide
  fresh := by decide

theorem seededPolicies_unique : Table.UniqueOn policyKey seededPolicies := by
  simp [Table.UniqueOn, seededPolicies, policyKey]

namespace World
variable {σ : Type}

def initial (stripe : σ) (now : Time) (limit : ℕ) : World σ where
  db := Db.emptyTables seededPolicies seededPolicies_unique
  redis := ⟨fun _ => none, fun _ => SortedSet.empty, fun _ => none⟩
  stripe := stripe
  now := now
  active := 0
  limit := limit
  pending := []
  rooms := []
  notices := []

end World

/-- A hall of two seats and a movie shown there fifty hours after the epoch, at ten a
seat, all made through the admin requests. -/
def theatre : World Account :=
  [AdminRequest.createMovie ⟨"Metropolis", "", 153, "", "", 8, "de", "drama"⟩,
    .createHall ⟨"Hall 1", 1, 2⟩,
    .createScreening ⟨1, 1, 50 * 3600000, 10⟩].foldl
      (fun w r => (perform testMode r.handle w).2) (World.initial ⟨[], []⟩ 0 100)

/-- The theatre after a history. -/
def afterTurns (ys : List (Turn BookingRequest Account.Action)) : World Account :=
  (history testMode BookingRequest.handle ys theatre).getD theatre

theorem history_afterTurns {ys : List (Turn BookingRequest Account.Action)}
    (h : (history testMode BookingRequest.handle ys theatre).isSome) :
    history testMode BookingRequest.handle ys theatre = some (afterTurns ys) := by
  obtain ⟨w, hw⟩ := Option.isSome_iff_exists.mp h
  rw [afterTurns, hw, Option.getD_some]

/-- The listeners of one change of a seat, the cache listener first. -/
def inOrder : List (Choice Err Listener Empty) := System.solo 0 1 ++ System.solo 1 6

/-- User 1 holds seat 1, opens the checkout session and pays it. -/
def heldAndPaid : List (Turn BookingRequest Account.Action) :=
  [.perform (.reserve 1 ⟨1, 1⟩) inOrder, .perform (.createCheckoutSession 1 1) [],
    .env (.stripe (.pay 1))]

/-- The checkout session 1, paid for payment 1. -/
def sessionPaid : StripeEvent := ⟨1, .checkoutSessionCompleted ⟨.paid, some 1, some 1⟩⟩

/-- The webhook's turn: its listeners find the seat map in the cache. -/
def paidTurn : Turn BookingRequest Account.Action :=
  .perform (.webhook (.ok sessionPaid)) (System.solo 1 2)

end MovieReservation
