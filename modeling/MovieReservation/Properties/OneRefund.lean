import MovieReservation.Properties.Refunds
import MovieReservation.Services.Sales

/-! Cancellations of one paid reservation by its owner, any number of them side by side
and failing anywhere, while the screening's price is edited: Stripe refunds no more than
was charged, and the reservation is cancelled only once its payment is marked. -/

namespace MovieReservation

open Lib Lib.Prog Lib.Table Lib.System

/-! ### The system -/

inductive RefundOp where
  | cancel
  | editPrice (screeningId : ℕ) (price : ℤ)

def RefundOp.handle (userId id : ℕ) : RefundOp → M Unit
  | cancel => do let _ ← ReservationsService.cancel userId id
  | editPrice screeningId price => do
    let _ ← ScreeningsService.updateScreening screeningId { price := some price }

section
variable {σ A : Type} (api : StripeApi σ A)

def refundSystem (userId id : ℕ) :
    System Cmd Cmd.Reply Err (World σ) RefundOp (Env A) Unit where
  exec _ := World.exec api
  ready _ _ _ := true
  fault := Cmd.fault
  env := World.elapse api
  handler := RefundOp.handle userId id

/-- The refunds in Stripe's books under an idempotency key. -/
def StripeApi.under (key : ℕ) (s : σ) : List Refund :=
  (api.refunds s).filter fun r => r.idempotencyKey = key

/-- A key that was used is answered with the original refund or an error; one that was not
makes at most one refund, of the amount asked. Nobody else refunds under our keys. -/
structure StripeApi.Idempotent : Prop where
  repeated : ∀ i a key s, api.under key s ≠ [] →
    api.under key (api.createRefund i a key s).2 = api.under key s
  first : ∀ i a key s, api.under key s = [] → api.under key (api.createRefund i a key s).2 = [] ∨
    ∃ id, api.under key (api.createRefund i a key s).2 = [⟨id, i, a, key⟩]
  act : ∀ a key s, api.under key (api.act a s) = api.under key s

/-- The same of the whole books: a key that was used books nothing more, one that was not at
most one refund, as it was asked for. Nobody else refunds in our account. -/
structure StripeApi.BooksOnce : Prop where
  repeated : ∀ i a key s, api.under key s ≠ [] →
    api.refunds (api.createRefund i a key s).2 = api.refunds s
  first : ∀ i a key s, api.under key s = [] →
    api.refunds (api.createRefund i a key s).2 = api.refunds s ∨
      ∃ id, api.refunds (api.createRefund i a key s).2 = api.refunds s ++ [⟨id, i, a, key⟩]
  act : ∀ a s, api.refunds (api.act a s) = api.refunds s

variable {api} in
theorem StripeApi.BooksOnce.idempotent (h : api.BooksOnce) : api.Idempotent where
  repeated i a key s hne := by rw [StripeApi.under, h.repeated i a key s hne, StripeApi.under]
  first i a key s hnone := by
    rcases h.first i a key s hnone with hsame | ⟨id, hone⟩
    · exact .inl (by rw [StripeApi.under, hsame]; exact hnone)
    · refine .inr ⟨id, ?_⟩
      rw [StripeApi.under, hone, List.filter_append, ← StripeApi.under, hnone]
      simp
  act a key s := by rw [StripeApi.under, h.act, StripeApi.under]

/-- What Stripe has refunded to a payment intent, under whatever keys. -/
def StripeApi.refundedTo (intent : ℕ) (s : σ) : ℤ :=
  (((api.refunds s).filter fun r => r.paymentIntent = intent).map Refund.amount).sum

/-- What went to the intent went there under the key, and is no more than `amount`. -/
structure StripeApi.RefundsWithin (intent key : ℕ) (amount : ℤ) (s : σ) : Prop where
  keyed : ∀ refund ∈ api.refunds s, refund.paymentIntent = intent → refund.idempotencyKey = key
  total : api.refundedTo intent s ≤ amount

variable {api} in
/-- One more request under the key keeps within the amount. -/
theorem StripeApi.RefundsWithin.create (hapi : api.BooksOnce) {intent key : ℕ} {amount a : ℤ}
    {s : σ} (h : api.RefundsWithin intent key amount s) (ha : a ≤ amount) :
    api.RefundsWithin intent key amount (api.createRefund intent a key s).2 := by
  have hsame : ∀ {t : σ}, api.refunds t = api.refunds s →
      api.RefundsWithin intent key amount t := by
    intro t ht
    exact ⟨ht ▸ h.keyed, by rw [StripeApi.refundedTo, ht]; exact h.total⟩
  by_cases hunder : api.under key s = []
  · rcases hapi.first intent a key s hunder with hnone | ⟨id, hone⟩
    · exact hsame hnone
    · -- nothing has gone to the intent before, or it would be under the key
      have hempty : (api.refunds s).filter (fun r => r.paymentIntent = intent) = [] := by
        rw [List.filter_eq_nil_iff]
        intro refund hrefund hto
        have hkey := h.keyed refund hrefund (of_decide_eq_true hto)
        exact List.filter_eq_nil_iff.mp hunder refund hrefund (decide_eq_true hkey)
      refine ⟨fun refund hrefund hto => ?_, ?_⟩
      · rw [hone] at hrefund
        rcases List.mem_append.mp hrefund with hold | hnew
        · exact h.keyed refund hold hto
        · rw [List.mem_singleton.mp hnew]
      · simpa [StripeApi.refundedTo, hone, List.filter_append, hempty] using ha
  · exact hsame (hapi.repeated intent a key s hunder)

end

/-! ### What a cancellation knows -/

/-- What was answered before a command: Stripe is asked on a payment that was read, and
never read as REFUNDED; the reservation is written after the payment was, or after it was
read as REFUNDED, or if it was only held. -/
def RefundGround (id : ℕ) (l : Trail) : Cmd → Prop
  | .paymentFindByReservationId n =>
    (∃ r, ⟨.reservationFindById id, .ok (some r)⟩ ∈ l ∧ n = r.id) ∧
      ∀ i a k x, ⟨.refundsCreate i a k, x⟩ ∉ l
  | .refundsCreate i a k => ∃ n p h policy, ⟨.paymentFindByReservationId n, .ok (some p)⟩ ∈ l ∧
    ⟨.findRefundPolicy h, .ok (some policy)⟩ ∈ l ∧ k = p.id ∧ p.stripePaymentId = some i ∧
    a = refundShare p.amount policy.refundPercent ∧
    ∀ n q, ⟨.paymentFindByReservationId n, .ok (some q)⟩ ∈ l → q.status ≠ .refunded
  | .paymentUpdate m d => (∃ n p, ⟨.paymentFindByReservationId n, .ok (some p)⟩ ∈ l ∧
    m = some p.id) ∧ d.status = some .refunded ∧ d.stripePaymentId = none
  | .reservationUpdate _ d => d.status = some .cancelled ∧
    ((∃ n p, ⟨.paymentFindByReservationId n, .ok (some p)⟩ ∈ l ∧ p.status = .refunded) ∨
      (∃ m d x, ⟨.paymentUpdate m d, .ok x⟩ ∈ l) ∨
      ∃ r, ⟨.reservationFindById id, .ok (some r)⟩ ∈ l ∧ r.status = .held)
  | .screeningUpdate _ _ => True
  | .sessionsRetrieve _ => False
  | c => c.quiet = true

section Ground
variable {id : ℕ} {l : Trail}

theorem finalizeCancel_ground {r : Reservation}
    (h : (∃ n p, ⟨.paymentFindByReservationId n, .ok (some p)⟩ ∈ l ∧ p.status = .refunded) ∨
      (∃ m d x, ⟨.paymentUpdate m d, .ok x⟩ ∈ l) ∨
      ∃ r, ⟨.reservationFindById id, .ok (some r)⟩ ∈ l ∧ r.status = .held) :
    Informed (RefundGround id) l (ReservationsService.finalizeCancel r) := by
  unfold ReservationsService.finalizeCancel
  refine informed_issue_bind ⟨rfl, h⟩ fun c => ?_
  exact informed_issue_bind rfl fun _ => trivial

theorem recordRefund_ground {r : Reservation} {p : Payment} {n : ℕ} (refundId : Option ℕ)
    (h : ⟨.paymentFindByReservationId n, .ok (some p)⟩ ∈ l) :
    Informed (RefundGround id) l (PaymentsService.recordRefund r p refundId) := by
  unfold PaymentsService.recordRefund
  refine informed_issue_bind rfl fun t => ?_
  refine informed_issue_bind ⟨⟨n, p, ?_, rfl⟩, rfl, rfl⟩ fun x => ?_
  · exact List.mem_append_left _ h
  · refine finalizeCancel_ground (.inr (.inl ⟨_, _, x, ?_⟩))
    exact List.mem_append_right _ (List.mem_singleton_self _)

theorem refundReservation_ground {r : Reservation}
    (h : l = [⟨.reservationFindById id, .ok (some r)⟩]) :
    Informed (RefundGround id) l (PaymentsService.refundReservation r) := by
  subst h
  unfold PaymentsService.refundReservation
  refine informed_issue_bind ⟨⟨r, by simp, rfl⟩, by simp⟩ fun found => ?_
  cases found with
  | none => trivial
  | some payment =>
    change Informed _ _ (ite _ _ _)
    split_ifs with hrefunded
    · exact finalizeCancel_ground (.inl ⟨r.id, payment, by simp, hrefunded⟩)
    refine informed_issue_bind rfl fun screening => ?_
    cases screening with
    | none => trivial
    | some screening =>
      refine informed_issue_bind rfl fun t => informed_issue_bind rfl fun policy => ?_
      cases hintent : payment.stripePaymentId with
      | none => exact recordRefund_ground (n := r.id) none (by simp)
      | some intent =>
        change Informed _ _ (ite _ _ _)
        split_ifs with hpercent
        · refine informed_issue_bind ?_ fun refund => ?_
          · cases policy with
            | none => simp at hpercent
            | some policy =>
              refine ⟨r.id, payment, _, policy, by simp, List.mem_append_right _
                (List.mem_singleton_self _), rfl, hintent, rfl, fun n q hq => ?_⟩
              have hqp : n = r.id ∧ q = payment := by simpa using hq
              rw [hqp.2]
              exact hrefunded
          · exact recordRefund_ground (n := r.id) _ (by simp)
        · exact recordRefund_ground (n := r.id) none (by simp)

theorem cancel_ground (u : ℕ) :
    Informed (RefundGround id) [] (ReservationsService.cancel u id) := by
  unfold ReservationsService.cancel ReservationsService.findOwned ReservationsService.getById
  rw [bind_assoc, bind_assoc]
  refine informed_issue_bind rfl fun found => ?_
  cases found with
  | none => trivial
  | some r =>
    change Informed _ _ (throwIf (r.userId ≠ u) (ReservationsService.reservationNotFound id) >>=
      (fun _ => pure r) >>= _)
    rw [bind_assoc]
    refine informed_throwIf_bind fun _ => ?_
    change Informed _ _ (ite _ _ _)
    split_ifs with hconfirmed
    · exact refundReservation_ground rfl
    · refine informed_throwIf_bind fun hheld => finalizeCancel_ground (.inr (.inr ⟨r, ?_, ?_⟩))
      · exact List.mem_singleton_self _
      · exact not_not.mp hheld

theorem cacheDel_ground (keys : List CacheKey) :
    Only (fun c => ∀ l', RefundGround id (l ++ l') c) (cacheDel keys) :=
  Only.tryCatch ((only_issue _).mpr fun _ => rfl) fun _ => trivial

theorem editPrice_ground (screeningId : ℕ) (price : ℤ) : Informed (RefundGround id) []
    (ScreeningsService.updateScreening screeningId { price := some price }) := by
  refine .of_only ?_
  unfold ScreeningsService.updateScreening
  refine Only.bind (Only.bind ((only_issue _).mpr fun _ => rfl) fun found => ?_) fun existing => ?_
  · cases found <;> trivial
  refine Only.bind trivial fun duration => Only.bind trivial fun _ => ?_
  refine Only.bind (Only.bind ((only_issue _).mpr fun _ => rfl) fun candidates => ?_) fun _ => ?_
  · unfold throwIf
    split_ifs <;> trivial
  refine Only.bind ((only_issue _).mpr fun _ => trivial) fun updated => ?_
  refine Only.bind ?_ fun _ => trivial
  refine Only.bind (cacheDel_ground _) fun _ => Only.bind (cacheDel_ground _) fun _ => ?_
  exact Only.bind (cacheDel_ground _) fun _ => cacheDel_ground _

theorem RefundOp.handle_ground (userId : ℕ) (op : RefundOp) :
    Informed (RefundGround id) [] (op.handle userId id) := by
  cases op with
  | cancel => exact (cancel_ground userId).bind fun _ _ => trivial
  | editPrice screeningId price =>
    exact (editPrice_ground screeningId price).bind fun _ _ => trivial

end Ground

/-! ### The state -/

/-- What holds at any time, for the payment `p₀` of reservation `id`: its row is the one
that was charged, the reservation is CANCELLED only once the row is REFUNDED, and what Stripe
has refunded to its intent is within the charge. -/
structure Charged {σ A : Type} (api : StripeApi σ A) (policies : Table RefundPolicy) (id : ℕ)
    (p₀ : Payment) (w : World σ) : Prop where
  payment : ∃ p, w.db.payments.get p₀.id = some p ∧ p.reservationId = id ∧
    p.amount = p₀.amount ∧ p.stripePaymentId = p₀.stripePaymentId ∧
      (p.status = .succeeded ∨ p.status = .refunded)
  reservation : ∀ r ∈ w.db.reservations.get id,
    r.status = .confirmed ∨ r.status = .cancelled ∧ Refunded p₀.id w.db
  policies : w.db.refundPolicies = policies
  within : ∀ intent ∈ p₀.stripePaymentId,
    api.RefundsWithin intent p₀.id p₀.amount w.stripe

/-- The commands by which cancellations and edits of prices move that state. -/
inductive RefundStep (p₀ : Payment) (db : Db) : Cmd → Prop
  | quiet {c : Cmd} : c.quiet = true → (∀ i a k, c ≠ .refundsCreate i a k) →
    (∀ i, c ≠ .sessionsRetrieve i) → RefundStep p₀ db c
  | refund {i : ℕ} {a : ℤ} : p₀.stripePaymentId = some i → a ≤ p₀.amount →
    RefundStep p₀ db (.refundsCreate i a p₀.id)
  | mark {d : PaymentData} : d.status = some .refunded → d.stripePaymentId = none →
    RefundStep p₀ db (.paymentUpdate (some p₀.id) d)
  | cancel (n : ℕ) {d : ReservationData} : d.status = some .cancelled → Refunded p₀.id db →
    RefundStep p₀ db (.reservationUpdate n d)
  | edit (n : ℕ) (d : ScreeningData) : RefundStep p₀ db (.screeningUpdate n d)

section Charged
variable {σ A : Type} {api : StripeApi σ A} {policies : Table RefundPolicy} {w : World σ} {id : ℕ}
  {p₀ : Payment} {c : Cmd}

theorem exec_stripe (hq : c.quiet = true) (hr : ∀ i a k, c ≠ .refundsCreate i a k)
    (hs : ∀ i, c ≠ .sessionsRetrieve i) : (World.exec api c w).2.stripe = w.stripe := by
  cases c with
  | acquire => simp only [World.exec]; split_ifs <;> rfl
  | paymentFindById id => cases id <;> rfl
  | paymentFindByStripePaymentId i => cases i <;> rfl
  | refundsCreate i a k => exact absurd rfl (hr i a k)
  | sessionsRetrieve i => exact absurd rfl (hs i)
  | _ => first | rfl | cases hq

theorem refunded_iff {db : Db} {p : Payment} (hp : db.payments.get p₀.id = some p) :
    Refunded p₀.id db ↔ p.status = .refunded := by
  constructor
  · rintro ⟨q, hq, hid, hst⟩
    have hget : db.payments.get q.id = some q := get_of_mem hq
    rw [hid, hp] at hget
    rw [Option.some.inj hget]
    exact hst
  · exact fun hst => ⟨p, mem_of_get hp, id_of_get hp, hst⟩

/-- A state with the same payments and reservations. -/
theorem Charged.of_same {w' : World σ} (h : Charged api policies id p₀ w)
    (hp : w'.db.payments = w.db.payments) (hr : w'.db.reservations = w.db.reservations)
    (hpol : w'.db.refundPolicies = w.db.refundPolicies)
    (ht : api.refunds w'.stripe = api.refunds w.stripe) :
    Charged api policies id p₀ w' where
  payment := hp ▸ h.payment
  reservation := by
    simpa only [hr, Refunded, hp] using h.reservation
  policies := hpol.trans h.policies
  within intent hi := ⟨ht ▸ (h.within intent hi).keyed, by
    rw [StripeApi.refundedTo, ht]
    exact (h.within intent hi).total⟩

theorem Charged.refund (hapi : api.BooksOnce) (h : Charged api policies id p₀ w) {i : ℕ} {a : ℤ}
    (hi : p₀.stripePaymentId = some i) (ha : a ≤ p₀.amount) : Charged api policies id p₀
      (World.exec api (.refundsCreate i a p₀.id) w).2 where
  payment := h.payment
  reservation := h.reservation
  policies := h.policies
  within intent hintent := by
    rw [hi, Option.mem_some_iff] at hintent
    subst hintent
    exact (h.within i hi).create hapi ha

theorem refunded_of_mark {db db' : Db} {n : ℕ} {d : PaymentData} {x : Payment}
    (hd : d.status = some .refunded) (hok : db.paymentUpdate n d = .ok (x, db')) :
    Refunded n db' := by
  obtain ⟨p, hp, -, -, ht⟩ := Db.paymentUpdate_eq_ok hok
  refine ⟨d.apply p, ?_, id_of_get hp, by simp [PaymentData.apply, hd]⟩
  rw [ht]
  exact (mem_modify d.id_apply).mpr (.inr ⟨p, mem_of_get hp, id_of_get hp, rfl⟩)

theorem Charged.mark (h : Charged api policies id p₀ w) {d : PaymentData}
    (hd : d.status = some .refunded) (hi : d.stripePaymentId = none) :
    Charged api policies id p₀ (World.exec api (.paymentUpdate (some p₀.id) d) w).2 := by
  simp only [World.exec]
  rcases w.commit_cases (w.db.paymentUpdate p₀.id d) with ⟨x, db', hok, hcm⟩ | ⟨e, -, hcm⟩
  · obtain ⟨p, hp, hid, hamount, hintent, -⟩ := h.payment
    have hmarked := refunded_of_mark hd hok
    obtain ⟨_, -, -, -, ht⟩ := Db.paymentUpdate_eq_ok hok
    have hget : db'.payments.get p₀.id = some (d.apply p) := by
      simp only [ht, get_modify, if_true, hp, Option.map_some]
    have hpol : db'.refundPolicies = w.db.refundPolicies := by rw [ht]
    rw [hcm]
    have hkept : (d.apply p).stripePaymentId = p₀.stripePaymentId := by
      rw [← hintent, PaymentData.apply, hi]
      rfl
    refine ⟨⟨_, hget, hid, hamount, hkept, .inr ((refunded_iff hget).mp hmarked)⟩, fun r hr => ?_,
      hpol.trans h.policies, h.within⟩
    have hr' : r ∈ w.db.reservations.get id := by
      simpa only [ht] using hr
    exact (h.reservation r hr').imp_right fun hc => ⟨hc.1, hmarked⟩
  · rw [hcm]
    exact h

theorem Charged.cancel (h : Charged api policies id p₀ w) (n : ℕ) {d : ReservationData}
    (hd : d.status = some .cancelled) (hmarked : Refunded p₀.id w.db) :
    Charged api policies id p₀ (World.exec api (.reservationUpdate n d) w).2 := by
  simp only [World.exec]
  rcases w.commit_cases (w.db.reservationUpdate n d) with ⟨x, db', hok, hcm⟩ | ⟨e, -, hcm⟩
  · obtain ⟨_, -, -, -, ht⟩ := Db.reservationUpdate_eq_ok hok
    have hpay : db'.payments = w.db.payments := by rw [ht]
    have hpol : db'.refundPolicies = w.db.refundPolicies := by rw [ht]
    have hmarked' : Refunded p₀.id db' := by
      rw [Refunded, hpay]
      exact hmarked
    rw [hcm]
    refine ⟨by rw [hpay]; exact h.payment, fun r hr => ?_, hpol.trans h.policies, h.within⟩
    have hr' : r ∈ if id = n then (w.db.reservations.get id).map d.apply
        else w.db.reservations.get id := by
      rw [← get_modify d.id_apply]
      simpa only [ht] using hr
    split_ifs at hr' with hn
    · obtain ⟨r₀, -, rfl⟩ := Option.map_eq_some_iff.mp hr'
      exact .inr ⟨by simp [ReservationData.apply, hd], hmarked'⟩
    · exact (h.reservation r hr').imp_right fun hc => ⟨hc.1, hmarked'⟩
  · rw [hcm]
    exact h

theorem Charged.step (hapi : api.BooksOnce) (h : Charged api policies id p₀ w)
    (hc : RefundStep p₀ w.db c) : Charged api policies id p₀ (World.exec api c w).2 := by
  cases hc with
  | quiet hq hr hs =>
    have hdb := World.exec_quiet api hq w
    exact h.of_same (by rw [hdb]) (by rw [hdb]) (by rw [hdb]) (by rw [exec_stripe hq hr hs])
  | refund hi ha => exact h.refund hapi hi ha
  | mark hd hi => exact h.mark hd hi
  | cancel n hd hmarked => exact h.cancel n hd hmarked
  | edit n d =>
    simp only [World.exec]
    rcases w.commit_cases (w.db.screeningUpdate n d) with ⟨x, db', hok, hcm⟩ | ⟨e, -, hcm⟩
    · obtain ⟨_, -, -, ht⟩ := Db.screeningUpdate_eq_ok hok
      rw [hcm]
      exact h.of_same (by rw [ht]) (by rw [ht]) (by rw [ht]) rfl
    · rw [hcm]
      exact h

end Charged

/-! ### The trace -/

/-- What processes were told of the reservation, its payment and the policies is true of
them, and who has read the payment as REFUNDED does not ask Stripe. -/
structure Told (policies : Table RefundPolicy) (id : ℕ) (p₀ : Payment) (tr : Log) (db : Db) :
    Prop where
  found : ∀ i r, (i, ⟨.reservationFindById id, .ok (some r)⟩) ∈ tr → r.status ≠ .held ∧ r.id = id
  read : ∀ i n p, (i, ⟨.paymentFindByReservationId n, .ok (some p)⟩) ∈ tr →
    p.id = p₀.id ∧ p.amount = p₀.amount ∧ p.stripePaymentId = p₀.stripePaymentId ∧
      (p.status = .refunded → Refunded p₀.id db)
  marked : ∀ i m d x, (i, ⟨.paymentUpdate m d, .ok x⟩) ∈ tr → Refunded p₀.id db
  policy : ∀ i h q, (i, ⟨.findRefundPolicy h, .ok (some q)⟩) ∈ tr → q ∈ policies.rows
  silent : ∀ i n p, (i, ⟨.paymentFindByReservationId n, .ok (some p)⟩) ∈ tr →
    p.status = .refunded → ∀ j a k x, (i, ⟨.refundsCreate j a k, x⟩) ∉ tr
  asked : ∀ i j a k x, (i, ⟨.refundsCreate j a k, x⟩) ∈ tr →
    k = p₀.id ∧ p₀.stripePaymentId = some j

section Told
variable {σ A : Type} {api : StripeApi σ A} {policies : Table RefundPolicy} {w : World σ} {id : ℕ}
  {p₀ : Payment} {tr : Log} {c : Cmd}

/-- What a command rests on makes it one of those that move the state. -/
theorem Told.refundStep (h : Told policies id p₀ tr w.db) (hamount : 0 ≤ p₀.amount)
    (hint : Int4 p₀.amount)
    (hpercent : ∀ q ∈ policies.rows, 0 ≤ q.refundPercent ∧ q.refundPercent ≤ 100) {i : ℕ}
    (hg : RefundGround id (own i tr) c) : RefundStep p₀ w.db c := by
  cases c with
  | refundsCreate j a k =>
    obtain ⟨n, p, hours, q, hp, hq, rfl, hintent, rfl, -⟩ := hg
    obtain ⟨hid, ha, hi, -⟩ := h.read i n p (mem_own.mp hp)
    rw [hid, ha]
    obtain ⟨hlow, hhigh⟩ := hpercent q (h.policy i hours q (mem_own.mp hq))
    exact .refund (hi.symm.trans hintent) (refundShare_le hamount hint hlow hhigh)
  | paymentUpdate m d =>
    obtain ⟨⟨n, p, hp, rfl⟩, hd, hi⟩ := hg
    rw [(h.read i n p (mem_own.mp hp)).1]
    exact .mark hd hi
  | reservationUpdate n d =>
    obtain ⟨hd, ⟨m, p, hp, hst⟩ | ⟨m, d', x, hx⟩ | ⟨r, hr, hst⟩⟩ := hg
    · exact .cancel n hd ((h.read i m p (mem_own.mp hp)).2.2.2 hst)
    · exact .cancel n hd (h.marked i m d' x (mem_own.mp hx))
    · exact absurd hst (h.found i r (mem_own.mp hr)).1
  | screeningUpdate n d => exact .edit n d
  | sessionsRetrieve n => cases hg
  | paymentFindByReservationId n =>
    exact .quiet rfl (fun _ _ _ h => by cases h) fun _ h => by cases h
  | _ => exact .quiet hg (fun _ _ _ h => by cases h) fun _ h => by cases h

/-- Once REFUNDED, the payment stays so. -/
theorem RefundStep.keeps (hc : RefundStep p₀ w.db c) (hr : Refunded p₀.id w.db) :
    Refunded p₀.id (World.exec api c w).2.db := by
  cases hc with
  | quiet hq _ _ =>
    rw [World.exec_quiet api hq]
    exact hr
  | refund _ _ => exact hr
  | mark hd _ => exact World.commit_rule hr fun x db' hok => refunded_of_mark hd hok
  | cancel n _ _ =>
    refine World.commit_rule hr fun x db' hok => ?_
    obtain ⟨_, -, -, -, ht⟩ := Db.reservationUpdate_eq_ok hok
    rw [Refunded, ht]
    exact hr
  | edit n d =>
    refine World.commit_rule hr fun x db' hok => ?_
    obtain ⟨_, -, -, ht⟩ := Db.screeningUpdate_eq_ok hok
    rw [Refunded, ht]
    exact hr

/-- The payment that is found for the reservation is the one that was charged. -/
theorem Charged.found (h : Charged api policies id p₀ w) {p : Payment}
    (hp : w.db.payments.rows.find? (fun p => p.reservationId = id) = some p) :
    w.db.payments.get p₀.id = some p ∧ p.amount = p₀.amount ∧
      p.stripePaymentId = p₀.stripePaymentId := by
  obtain ⟨q, hq, hqid, hamount, hintent, -⟩ := h.payment
  have hpid : p.reservationId = id := by simpa using List.find?_some hp
  have hpq : p = q := w.db.payment_reservationId_key.eq (List.mem_of_find?_eq_some hp)
    (mem_of_get hq) (congrArg some hpid) (congrArg some hqid)
  rw [hpq]
  exact ⟨hq, hamount, hintent⟩

theorem Told.step (h : Told policies id p₀ tr w.db) (hw : Charged api policies id p₀ w)
    {i userId : ℕ} {o : Outcome Err} {out : Except Err c.Reply × World σ}
    (hg : RefundGround id (own i tr) c) (hc : RefundStep p₀ w.db c)
    (hout : (refundSystem api userId id).finish i c w o = some out) :
    Told policies id p₀ (tr ++ [(i, ⟨c, out.1⟩)]) out.2.db := by
  have hkeep : Refunded p₀.id w.db → Refunded p₀.id out.2.db := by
    intro hr
    rcases finish_state _ hout with hs | hs
    · rwa [hs]
    · rw [hs]
      exact hc.keeps hr
  -- an answer that is the last one was given by the world as it was
  have hexec : ∀ {j : ℕ} {d : Cmd} {x : d.Reply},
      (j, (⟨d, .ok x⟩ : Answer Cmd Cmd.Reply Err)) ∈ tr ++ [(i, ⟨c, out.1⟩)] →
      (j, ⟨d, .ok x⟩) ∈ tr ∨ j = i ∧ d = c ∧ World.exec api d w = (.ok x, out.2) := by
    intro j d x hmem
    rcases mem_snoc hmem with hmem | ⟨rfl, he⟩
    · exact .inl hmem
    · obtain ⟨rfl, he⟩ := Sigma.mk.inj he
      exact .inr ⟨rfl, rfl, (finish_ok _ hout (eq_of_heq he).symm).1⟩
  refine ⟨?_, ?_, ?_, ?_, ?_, ?_⟩
  · intro j r hmem
    rcases hexec hmem with hmem | ⟨rfl, rfl, hx⟩
    · exact h.found j r hmem
    · have hget : w.db.reservations.get id = some r := Except.ok.inj (Prod.mk.inj hx).1
      refine ⟨?_, id_of_get hget⟩
      rcases hw.reservation r hget with hst | ⟨hst, -⟩ <;> rw [hst] <;> decide
  · intro j n p hmem
    rcases hexec hmem with hmem | ⟨rfl, rfl, hx⟩
    · obtain ⟨h₁, h₂, h₃, h₄⟩ := h.read j n p hmem
      exact ⟨h₁, h₂, h₃, fun hst => hkeep (h₄ hst)⟩
    · obtain ⟨⟨r, hr, rfl⟩, -⟩ := hg
      rw [(h.found _ r (mem_own.mp hr)).2] at hx
      obtain ⟨hget, hamount, hintent⟩ := hw.found (Except.ok.inj (Prod.mk.inj hx).1)
      exact ⟨id_of_get hget, hamount, hintent, fun hst => hkeep ((refunded_iff hget).mpr hst)⟩
  · intro j m d x hmem
    rcases hexec hmem with hmem | ⟨rfl, rfl, hx⟩
    · exact hkeep (h.marked j m d x hmem)
    · cases hc with
      | quiet hq => cases hq
      | mark hd _ =>
        simp only [World.exec] at hx
        rcases w.commit_cases (w.db.paymentUpdate p₀.id d) with ⟨y, db', hok, hcm⟩ | ⟨e, -, hcm⟩
        · rw [hcm] at hx
          rw [← (Prod.mk.inj hx).2]
          exact refunded_of_mark hd hok
        · rw [hcm] at hx
          cases (Prod.mk.inj hx).1
  · intro j hours q hmem
    rcases hexec hmem with hmem | ⟨rfl, rfl, hx⟩
    · exact h.policy j hours q hmem
    · have hfind : w.db.findRefundPolicy hours = some q := Except.ok.inj (Prod.mk.inj hx).1
      rw [← hw.policies]
      exact List.mem_of_find?_eq_some hfind
  · intro j n p hmem hst m a k x hasked
    rcases mem_snoc hasked with hold | ⟨rfl, he⟩
    · rcases hexec hmem with hmem | ⟨rfl, rfl, -⟩
      · exact h.silent j n p hmem hst m a k x hold
      · exact hg.2 m a k x (mem_own.mpr hold)
    · obtain ⟨rfl, -⟩ := Sigma.mk.inj he
      rcases hexec hmem with hmem | ⟨-, hcmd, -⟩
      · obtain ⟨_, _, _, _, -, -, -, -, -, hno⟩ := hg
        exact hno n p (mem_own.mpr hmem) hst
      · cases hcmd
  · intro j m a k x hmem
    rcases mem_snoc hmem with hold | ⟨rfl, he⟩
    · exact h.asked j m a k x hold
    · obtain ⟨rfl, -⟩ := Sigma.mk.inj he
      cases hc with
      | quiet _ hno _ => exact absurd rfl (hno m a k)
      | refund hi _ => exact ⟨rfl, hi⟩

end Told

/-! ### Every run -/

section Runs
variable {σ A : Type}

/-- A reservation that is CANCELLED has its payment REFUNDED; a process that read the
payment as REFUNDED has not asked Stripe for a refund; every refund that was asked for is to
the intent of the payment, under its key; and all that Stripe has refunded to this intent,
under whatever keys, is no more than was charged. -/
structure RefundedOnce (api : StripeApi σ A) (id intent : ℕ) (p₀ : Payment) (tr : Log)
    (w : World σ) : Prop where
  recorded : ∀ r ∈ w.db.reservations.get id, r.status = .cancelled →
    ∃ p ∈ w.db.payments.get p₀.id, p.status = .refunded
  silent : ∀ i n p, (i, ⟨.paymentFindByReservationId n, .ok (some p)⟩) ∈ tr →
    p.status = .refunded → ∀ j a k x, (i, ⟨.refundsCreate j a k, x⟩) ∉ tr
  asked : ∀ i j a k x, (i, ⟨.refundsCreate j a k, x⟩) ∈ tr → j = intent ∧ k = p₀.id
  total : api.refundedTo intent w.stripe ≤ p₀.amount

/-- In every run of cancellations and edits of prices, from a CONFIRMED reservation whose
payment has SUCCEEDED; what Stripe has refunded of it so far, if anything, is within the
charge and under its key. -/
theorem refunded_once (api : StripeApi σ A) (hapi : api.BooksOnce) (w : World σ)
    (userId id intent : ℕ) (r : Reservation) (p₀ : Payment)
    (hr : w.db.reservations.get id = some r) (hconfirmed : r.status = .confirmed)
    (hp : p₀ ∈ w.db.payments.rows) (hid : p₀.reservationId = id)
    (hsucceeded : p₀.status = .succeeded) (hintent : p₀.stripePaymentId = some intent)
    (hamount : 0 ≤ p₀.amount) (hbooked : api.RefundsWithin intent p₀.id p₀.amount w.stripe)
    (hpercent : ∀ q ∈ w.db.refundPolicies.rows, 0 ≤ q.refundPercent ∧ q.refundPercent ≤ 100)
    (xs : List (Choice Err RefundOp (Env A)))
    (q : Pool Cmd Cmd.Reply Err (World σ) RefundOp Unit)
    (hx : (refundSystem api userId id).schedule xs ⟨w, []⟩ = some q) :
    RefundedOnce api id intent p₀ ((refundSystem api userId id).trace xs ⟨w, []⟩) q.state := by
  have hstart : Charged api w.db.refundPolicies id p₀ w := by
    refine ⟨⟨p₀, get_of_mem hp, hid, rfl, rfl, .inl hsucceeded⟩, fun s hs => .inl ?_, rfl,
      fun j hj => ?_⟩
    · rw [Option.some.inj (hs.symm.trans hr)]
      exact hconfirmed
    · rwa [← Option.some.inj (hintent.symm.trans hj)]
  have hstep : ∀ tr v i op c k o out, Charged api w.db.refundPolicies id p₀ v ∧
      Told w.db.refundPolicies id p₀ tr v.db →
      Follows (RefundOp.handle userId id op) (own i tr) (.call c k) →
      (refundSystem api userId id).finish i c v o = some out →
      ((∀ e, o ≠ .lost e) → True) → Charged api w.db.refundPolicies id p₀ out.2 ∧
        Told w.db.refundPolicies id p₀ (tr ++ [(i, ⟨c, out.1⟩)]) out.2.db := by
    intro tr v i op c k o out ⟨hv, ht⟩ hpath hout _
    have hg : RefundGround id (own i tr) c := (op.handle_ground userId).path hpath
    have hc := ht.refundStep hamount (w.db.payment_amount p₀ hp) hpercent hg
    refine ⟨?_, ht.step hv hg hc hout⟩
    rcases finish_state _ hout with hs | hs
    · rw [hs]
      exact hv
    · rw [hs]
      exact hv.step hapi hc
  have henv : ∀ tr v e, Charged api w.db.refundPolicies id p₀ v ∧
      Told w.db.refundPolicies id p₀ tr v.db →
      Charged api w.db.refundPolicies id p₀ (v.elapse api e) ∧
        Told w.db.refundPolicies id p₀ tr (v.elapse api e).db := by
    intro tr v e ⟨hv, ht⟩
    have hdb : (v.elapse api e).db = v.db := World.elapse_db api e v
    refine ⟨hv.of_same (by rw [hdb]) (by rw [hdb]) (by rw [hdb]) ?_, ?_⟩
    · cases e with
      | stripe a => exact hapi.act a v.stripe
      | _ => rfl
    · rw [hdb]
      exact ht
  obtain ⟨-, hcharged, htold⟩ := trace_rule (A := fun _ _ _ _ => True)
    (I := fun tr v => Charged api w.db.refundPolicies id p₀ v ∧
      Told w.db.refundPolicies id p₀ tr v.db) ⟨hstart, by constructor <;> simp⟩ henv hstep hx
    (allMeet_of_forall _ (fun _ _ _ _ => trivial) xs _)
  refine ⟨fun s hs hcancelled => ?_, htold.silent, fun i j a k x hmem => ?_,
    (hcharged.within intent hintent).total⟩
  · rcases hcharged.reservation s hs with hst | ⟨-, hmarked⟩
    · rw [hcancelled] at hst
      cases hst
    · obtain ⟨p, hget, -⟩ := hcharged.payment
      exact ⟨p, hget, (refunded_iff hget).mp hmarked⟩
  · obtain ⟨hkey, hto⟩ := htold.asked i j a k x hmem
    exact ⟨Option.some.inj (hto.symm.trans hintent), hkey⟩

end Runs

/-! ### Two cancellations -/

theorem testMode_booksOnce : testMode.BooksOnce where
  repeated := by
    intro i a key s hne
    show (Account.createRefund i a key s).2.books = s.books
    unfold Account.createRefund
    cases hf : s.books.find? (fun r => r.idempotencyKey = key) with
    | none =>
      refine absurd (List.filter_eq_nil_iff.mpr fun r hr => ?_) hne
      simpa using List.find?_eq_none.mp hf r hr
    | some r => dsimp only; split_ifs <;> rfl
  first := by
    intro i a key s hnone
    have hf : s.books.find? (fun r => r.idempotencyKey = key) = none :=
      List.find?_eq_none.mpr (List.filter_eq_nil_iff.mp hnone)
    refine .inr ⟨s.books.length + 1, ?_⟩
    show (Account.createRefund i a key s).2.books = _
    simp only [Account.createRefund, hf]
    rfl
  act := by
    intro a s
    cases a
    rfl

theorem testMode_idempotent : testMode.Idempotent := testMode_booksOnce.idempotent

/-- Two cancellations while the price is raised; the first is cut off when Stripe has
booked the refund, and a third one is made before the second has ended. -/
def cancelledTwice : List (Choice Err RefundOp (Env Account.Action)) :=
  [.spawn .cancel, .spawn (.editPrice 1 99), .spawn .cancel] ++
    System.solo 0 5 ++ [.step 0 (.unacknowledged .stripe)] ++ System.solo 1 3 ++
    System.solo 2 6 ++ [.spawn .cancel] ++ System.solo 3 10 ++ System.solo 2 4

theorem refunded_once_of_three : ∃ intent,
    ∃ p₀ ∈ (afterTurns (heldAndPaid ++ [paidTurn])).db.payments.rows,
    ∃ q, (refundSystem testMode 1 1).schedule cancelledTwice
      ⟨afterTurns (heldAndPaid ++ [paidTurn]), []⟩ = some q ∧
    RefundedOnce testMode 1 intent p₀ ((refundSystem testMode 1 1).trace cancelledTwice
      ⟨afterTurns (heldAndPaid ++ [paidTurn]), []⟩) q.state := by
  have hstart : ((afterTurns (heldAndPaid ++ [paidTurn])).db.reservations.get 1).any
      (fun r => r.status = .confirmed) := by decide +kernel
  have hpaid : ∃ p ∈ (afterTurns (heldAndPaid ++ [paidTurn])).db.payments.rows,
      p.reservationId = 1 ∧ p.status = .succeeded ∧ 0 ≤ p.amount ∧ p.stripePaymentId.isSome := by
    decide +kernel
  have hbooks : (afterTurns (heldAndPaid ++ [paidTurn])).stripe.books = [] := by decide +kernel
  have hruns : ((refundSystem testMode 1 1).schedule cancelledTwice
      ⟨afterTurns (heldAndPaid ++ [paidTurn]), []⟩).isSome := by decide +kernel
  obtain ⟨r, hr, hconfirmed⟩ := (Option.any_eq_true _ _).mp hstart
  obtain ⟨p₀, hp, hid, hsucceeded, hamount, hintent⟩ := hpaid
  obtain ⟨intent, hintent⟩ := Option.isSome_iff_exists.mp hintent
  obtain ⟨q, hq⟩ := Option.isSome_iff_exists.mp hruns
  -- nothing is refunded yet
  have hnone : testMode.refunds (afterTurns (heldAndPaid ++ [paidTurn])).stripe = [] := hbooks
  have hwithin : testMode.RefundsWithin intent p₀.id p₀.amount
      (afterTurns (heldAndPaid ++ [paidTurn])).stripe :=
    ⟨by simp [hnone], by simpa [StripeApi.refundedTo, hnone] using hamount⟩
  exact ⟨intent, p₀, hp, q, hq, refunded_once testMode testMode_booksOnce _ 1 1 intent r p₀ hr
    (of_decide_eq_true hconfirmed) hp hid hsucceeded hintent hamount hwithin (by decide +kernel)
    cancelledTwice q hq⟩

end MovieReservation
