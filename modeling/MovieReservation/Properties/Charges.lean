import MovieReservation.Properties.Collections
import MovieReservation.Properties.HeldSeats
import MovieReservation.Properties.OnSale
import MovieReservation.Properties.OneRefund

/-! The books of the box office: whatever runs side by side and fails, Stripe gives back under
the key of a payment no more than its checkout session charged, and it is asked to give it
back to the payment intent that it named for this very payment. -/

namespace MovieReservation

open Lib Lib.Prog Lib.Table Lib.System

/-! ### What the money moves on -/

/-- Stripe named the intent for payment `m`: in a webhook on a paid session of it, or in the
session that the reconciliation has retrieved for it. -/
inductive NamedFor (m intent : ℕ) : Request → Trail → Prop
  | webhook {l : Trail} (eventId : ℕ) (session : CheckoutSessionObject) :
    session.paymentStatus = .paid → session.paymentId = some m →
      session.paymentIntent = some intent →
        NamedFor m intent (.booking (.webhook (.ok ⟨eventId, .checkoutSessionCompleted session⟩))) l
  | reconcile {l : Trail} (cutoff : Time) (stuck : List Payment) (p : Payment)
    (session : Session) : session.paymentStatus = .paid → session.paymentIntent = some intent →
      p.id = m → p ∈ stuck → ⟨.findStuckTimedOut cutoff, .ok stuck⟩ ∈ l →
        ⟨.sessionsRetrieve p.stripeSessionId, .ok session⟩ ∈ l →
          NamedFor m intent (.booking .reconcilePayments) l

theorem NamedFor.append {m intent : ℕ} {op : Request} {l : Trail} (h : NamedFor m intent op l)
    (l' : Trail) : NamedFor m intent op (l ++ l') := by
  cases h with
  | webhook eventId session hpaid hm hintent => exact .webhook eventId session hpaid hm hintent
  | reconcile cutoff stuck p session hpaid hintent hm hp hstuck hread =>
    exact .reconcile cutoff stuck p session hpaid hintent hm hp (List.mem_append_left _ hstuck)
      (List.mem_append_left _ hread)

/-- The price that a request asks for; no DTO with a negative one is valid. -/
def Request.price : Request → Option ℤ
  | .admin (.createScreening dto) => some dto.price
  | .admin (.updateScreening _ dto) => dto.price
  | _ => none

/-- What was answered before money is asked for, given back or booked. -/
def Funded (op : Request) (l : Trail) : Cmd → Prop
  | .paymentCreate d => ∃ n s, ⟨.screeningFindById n, .ok (some s)⟩ ∈ l ∧ d.amount = s.price * 100
  | .sessionsCreate params => ∃ d p, ⟨.paymentCreate d, .ok p⟩ ∈ l ∧ params.paymentId = p.id ∧
    params.amount = d.amount
  | .refundsCreate i a k => ∃ n p h policy, ⟨.paymentFindByReservationId n, .ok (some p)⟩ ∈ l ∧
    ⟨.findRefundPolicy h, .ok (some policy)⟩ ∈ l ∧ k = p.id ∧ p.stripePaymentId = some i ∧
      a = refundShare p.amount policy.refundPercent
  | .paymentUpdate n d => ∀ m i, n = some m → d.stripePaymentId = some (some i) →
    NamedFor m i op l
  | .confirmWithReservation m _ i => ∀ j, i = some j → NamedFor m j op l
  | _ => True

section Funded
variable {op : Request} {l : Trail}

theorem funded_of_moneyless {c : Cmd} (hc : c.moneyless = true) : Funded op l c := by
  cases c <;> trivial

theorem funded_of_only {α : Type} {p : M α} (h : Only (fun c => c.moneyless = true) p) :
    Informed (Funded op) l p :=
  .of_only (h.mono fun _ hc _ => funded_of_moneyless hc)

theorem moneyless_request {c : Cmd} (hc : c.moneyless = true) :
    Only (fun c => c.moneyless = true) (request c) := (only_issue c).mpr hc

theorem findOwned_moneyless (u id : ℕ) :
    Only (fun c => c.moneyless = true) (ReservationsService.findOwned u id) := by
  refine (findOwned_reads u id).mono fun c hc => ?_
  rw [hc]
  rfl

theorem finalizeCancel_moneyless (r : Reservation) :
    Only (fun c => c.moneyless = true) (ReservationsService.finalizeCancel r) :=
  Only.bind (moneyless_request rfl) fun _ => Only.bind (moneyless_request rfl) fun _ => trivial

theorem expireHolds_moneyless :
    Only (fun c => c.moneyless = true) ReservationsService.expireHolds := by
  unfold ReservationsService.expireHolds
  refine Only.bind (moneyless_request rfl) fun t => ?_
  refine Only.bind (moneyless_request rfl) fun released => ?_
  refine Only.bind (Only.forM (fun g => moneyless_request rfl) _) fun _ => ?_
  exact Only.forM (fun r => moneyless_request rfl) _

theorem getSeatMap_moneyless (id : ℕ) :
    Only (fun c => c.moneyless = true) (ScreeningsService.getSeatMap id) := by
  unfold ScreeningsService.getSeatMap
  refine Only.bind (Only.tryCatch (moneyless_request rfl) fun _ => trivial) fun cached => ?_
  cases cached with
  | some cached => trivial
  | none =>
    refine Only.bind (moneyless_request rfl) fun screening => ?_
    cases screening with
    | none => trivial
    | some screening =>
      simp only [only_throwIf_bind]
      refine fun _ => Only.bind (moneyless_request rfl) fun seats => ?_
      refine Only.bind (moneyless_request rfl) fun reservations => ?_
      exact Only.bind (Only.tryCatch (moneyless_request rfl) fun _ => trivial) fun _ => trivial

/-- The creation of a payment, with the `catch` around it. -/
theorem create_funded {α : Type} {d : Db.PaymentCreate} {f : Payment → M α}
    (hd : Funded op l (.paymentCreate d))
    (hf : ∀ p l', ⟨.paymentCreate d, .ok p⟩ ∈ l' → Informed (Funded op) l' (f p)) :
    Informed (Funded op) l ((do
      try PaymentsRepository.create d
      catch err =>
        if err = .prisma .p2002 then throw PaymentsService.alreadyHasPayment else throw err) >>=
          f) := by
  refine ⟨hd, fun r => ?_⟩
  cases r with
  | error e =>
    change Informed _ _ (ite _ _ _ >>= f)
    split_ifs <;> trivial
  | ok p => exact hf p _ (List.mem_append_right _ (List.mem_singleton_self _))

theorem createCheckoutSession_funded (u id : ℕ) :
    Informed (Funded op) l (PaymentsService.createCheckoutSession u id) := by
  unfold PaymentsService.createCheckoutSession
  refine (funded_of_only (findOwned_moneyless u id)).bind fun r l₁ => ?_
  refine informed_throwIf_bind fun _ => informed_issue_bind trivial fun existing => ?_
  refine informed_throwIf_bind fun _ => informed_issue_bind trivial fun screening => ?_
  cases screening with
  | none => trivial
  | some screening =>
    have hread : (⟨.screeningFindById r.screeningId, .ok (some screening)⟩ :
        Answer Cmd Cmd.Reply Err) ∈ l ++ l₁ ++ [⟨.paymentFindByReservationId id, .ok existing⟩] ++
          [⟨.screeningFindById r.screeningId, .ok (some screening)⟩] := by simp
    refine create_funded ⟨_, screening, hread, rfl⟩ fun payment l₂ hcreated => ?_
    refine Informed.tryCatch ?_ fun e l₃ => informed_issue_bind trivial fun _ => trivial
    refine informed_issue_bind trivial fun t => ?_
    refine informed_issue_bind ⟨_, payment, List.mem_append_left _ hcreated, rfl, rfl⟩ fun s => ?_
    refine informed_issue_bind ?_ fun _ => informed_issue_bind trivial fun _ => trivial
    rintro m i - hintent
    cases hintent

/-- The end of a refund, which leaves the intent as it was. -/
theorem recordRefund_funded (r : Reservation) (p : Payment) (refundId : Option ℕ) :
    Informed (Funded op) l (PaymentsService.recordRefund r p refundId) := by
  unfold PaymentsService.recordRefund
  refine informed_issue_bind trivial fun t => informed_issue_bind ?_ fun _ => ?_
  · rintro m i - hintent
    cases hintent
  · exact funded_of_only (finalizeCancel_moneyless r)

theorem refundReservation_funded (r : Reservation) :
    Informed (Funded op) l (PaymentsService.refundReservation r) := by
  unfold PaymentsService.refundReservation
  refine informed_issue_bind trivial fun found => ?_
  cases found with
  | none => trivial
  | some payment =>
    change Informed _ _ (ite _ _ _)
    split_ifs
    · exact funded_of_only (finalizeCancel_moneyless r)
    refine informed_issue_bind trivial fun screening => ?_
    cases screening with
    | none => trivial
    | some screening =>
      refine informed_issue_bind trivial fun t => informed_issue_bind trivial fun policy => ?_
      cases hintent : payment.stripePaymentId with
      | none => exact recordRefund_funded r payment none
      | some intent =>
        change Informed _ _ (ite _ _ _)
        split_ifs with hpercent
        · refine informed_issue_bind ?_ fun refund => recordRefund_funded r payment _
          cases policy with
          | none => exact absurd hpercent (lt_irrefl 0)
          | some policy =>
            exact ⟨r.id, payment, _, policy, by simp, List.mem_append_right _
              (List.mem_singleton_self _), rfl, hintent, rfl⟩
        · exact recordRefund_funded r payment none

theorem cancel_funded (u id : ℕ) : Informed (Funded op) l (ReservationsService.cancel u id) := by
  unfold ReservationsService.cancel
  refine (funded_of_only (findOwned_moneyless u id)).bind fun r l₁ => ?_
  split_ifs
  · exact refundReservation_funded r
  · exact informed_throwIf_bind fun _ => funded_of_only (finalizeCancel_moneyless r)

/-- A webhook writes the intent of a paid session that names the payment, and no other. -/
theorem dispatch_funded (event : StripeEvent) :
    Informed (Funded (.booking (.webhook (.ok event)))) l (PaymentsService.dispatch event) := by
  obtain ⟨eventId, body⟩ := event
  have hmark : ∀ {l' : Trail} {n : Option ℕ} {d : PaymentData}, d.stripePaymentId = none →
      Funded (.booking (.webhook (.ok ⟨eventId, body⟩))) l' (.paymentUpdate n d) := by
    rintro l' n d hd m i - hintent
    rw [hd] at hintent
    cases hintent
  cases body with
  | checkoutSessionCompleted session =>
    refine informed_issue_bind trivial fun found => ?_
    cases found with
    | none => trivial
    | some payment =>
      change Informed _ _ (ite _ _ _)
      split_ifs with hpaid
      · unfold ReservationsService.confirmPayment
        rw [bind_assoc]
        refine informed_issue_bind trivial fun r => ?_
        rw [bind_assoc]
        refine informed_issue_bind trivial fun _ => ?_
        refine informed_issue_bind ?_ fun _ => trivial
        exact fun m i hm hintent => .webhook eventId session hpaid hm (Option.some.inj hintent)
      · exact informed_issue_bind (hmark rfl) fun _ => trivial
  | checkoutSessionAsyncPaymentFailed session =>
    refine informed_issue_bind (hmark rfl) fun payment => ?_
    refine Informed.bind (funded_of_only ?_) fun _ _ => funded_of_only (recordFailure_moneyless _)
    refine Only.bind (moneyless_request rfl) fun r => ?_
    cases r <;> trivial
  | checkoutSessionExpired session => exact informed_issue_bind (hmark rfl) fun _ => trivial
  | chargeDisputeCreated dispute =>
    refine informed_issue_bind trivial fun payment => ?_
    cases payment with
    | none => trivial
    | some payment =>
      refine informed_issue_bind trivial fun _ => ?_
      exact informed_issue_bind (hmark rfl) fun _ => trivial
  | other => trivial

/-- The reconciliation of one payment writes the intent of its session. -/
theorem reconcile_funded {cutoff : Time} {stuck : List Payment} {p : Payment} (hp : p ∈ stuck)
    (hl : ⟨.findStuckTimedOut cutoff, .ok stuck⟩ ∈ l) :
    Informed (Funded (.booking .reconcilePayments)) l (PaymentsService.reconcile p) := by
  unfold PaymentsService.reconcile
  refine informed_issue_bind trivial fun session => ?_
  split_ifs with hpaid
  · refine informed_issue_bind ?_ fun x => ⟨trivial, fun _ => trivial⟩
    exact fun j hintent => .reconcile cutoff stuck p session hpaid hintent rfl hp
      (List.mem_append_left _ hl) (List.mem_append_right _ (List.mem_singleton_self _))
  · refine informed_issue_bind trivial fun x => ?_
    exact informed_issue_bind trivial fun _ => funded_of_only (recordFailure_moneyless _)

theorem AdminCmd.funded {op : AdminRequest} {c : Cmd} (h : AdminCmd op c) (l : Trail) :
    Funded (.admin op) l c := by
  cases h with
  | read hquiet _ hrefunds =>
    refine funded_of_moneyless ?_
    cases c with
    | refundsCreate => cases hrefunds
    | _ => first | rfl | cases hquiet
  | _ => trivial

theorem handle_funded : ∀ op : Request, Informed (Funded op) [] op.handle
  | .admin op => .of_only (op.handle_only.mono fun c hc l' => hc.funded _)
  | .booking op => by
    cases op with
    | cancel u id => exact (cancel_funded u id).bind fun _ _ => trivial
    | createCheckoutSession u id =>
      exact (createCheckoutSession_funded u id).bind fun _ _ => trivial
    | webhook constructed =>
      refine Informed.bind ?_ fun _ _ => trivial
      cases constructed with
      | error m => trivial
      | ok event =>
        refine informed_issue_bind trivial fun found => ?_
        split_ifs
        · trivial
        · exact dispatch_funded event
    | reconcilePayments =>
      refine Informed.bind (Informed.tryCatch ?_ fun _ _ => trivial) fun _ _ => trivial
      unfold PaymentsService.reconcileTimedOutPayments
      refine informed_issue_bind trivial fun t => informed_issue_bind trivial fun stuck => ?_
      refine informed_forM_mem (I := fun l => ∃ cutoff, ⟨.findStuckTimedOut cutoff, .ok stuck⟩ ∈ l)
        (fun l l' ⟨cutoff, hmem⟩ => ⟨cutoff, List.mem_append_left _ hmem⟩)
        (fun p hp l ⟨cutoff, hmem⟩ => reconcile_funded hp hmem)
        ⟨_, List.mem_append_right _ (List.mem_singleton_self _)⟩
    | reserve u dto =>
      exact (funded_of_only (reserve_moneyless u dto)).bind fun _ _ => trivial
    | expireHolds =>
      exact funded_of_only (Only.bind (Only.tryCatch expireHolds_moneyless fun _ => trivial)
        fun _ => trivial)
    | getStatus u id =>
      refine (Informed.bind (funded_of_only (findOwned_moneyless u id)) fun r _ => ?_).bind
        fun _ _ => trivial
      exact informed_issue_bind trivial fun _ => trivial
    | getSeatMap id => exact (funded_of_only (getSeatMap_moneyless id)).bind fun _ _ => trivial

end Funded

/-! ### What no statement changes -/

section Exec
variable {σ A : Type} (api : StripeApi σ A)

/-- No call but the creation of a refund books one under our keys, and that one books it under
its own. -/
structure StripeApi.KeysApart : Prop where
  create : ∀ p key s, api.under key (api.createSession p s).2 = api.under key s
  retrieve : ∀ i key s, api.under key (api.retrieveSession i s).2 = api.under key s
  other : ∀ i a key key' s, key' ≠ key →
    api.under key' (api.createRefund i a key s).2 = api.under key' s

variable {api} in
theorem exec_under (hapart : api.KeysApart) {c : Cmd} (hc : c.refunds = false) (key : ℕ)
    (w : World σ) : api.under key (World.exec api c w).2.stripe = api.under key w.stripe := by
  have hcommit : ∀ {α : Type} (r : Except Err (α × Db)),
      api.under key (w.commit r).2.stripe = api.under key w.stripe := by
    intro α r
    rw [w.commit_frame r]
  cases c with
  | acquire => simp only [World.exec]; split_ifs <;> rfl
  | paymentFindById id => cases id <;> rfl
  | paymentFindByStripePaymentId i => cases i <;> rfl
  | paymentUpdate id d => cases id <;> first | rfl | exact hcommit _
  | sessionsCreate p => exact hapart.create p key w.stripe
  | sessionsRetrieve id => exact hapart.retrieve id key w.stripe
  | refundsCreate i a k => cases hc
  | _ => first | rfl | exact hcommit _

/-- The percentages are those of `policies`, and no price is negative. -/
structure Db.Tariff (policies : Table RefundPolicy) (db : Db) : Prop where
  policies : db.refundPolicies = policies
  priced : ∀ s ∈ db.screenings.rows, 0 ≤ s.price

variable {policies : Table RefundPolicy} {db db' : Db} {w : World σ}

theorem Db.Tariff.congr (h : db.Tariff policies) (hp : db'.refundPolicies = db.refundPolicies)
    (hs : db'.screenings = db.screenings) : db'.Tariff policies :=
  ⟨hp.trans h.policies, hs ▸ h.priced⟩

theorem Db.Tariff.cascade (h : db.Tariff policies) (movie : Movie → Bool) (hall : Hall → Bool)
    (screening : Screening → Bool) : (db.cascade movie hall screening).Tariff policies :=
  ⟨h.policies, fun s hs => h.priced s (List.mem_filter.mp hs).1⟩

theorem Db.Tariff.update (h : db.Tariff policies) {id : ℕ} {d : ScreeningData} {s : Screening}
    (hd : ∀ x ∈ d.price, 0 ≤ x) (hok : db.screeningUpdate id d = .ok (s, db')) :
    db'.Tariff policies := by
  obtain ⟨s₀, hs₀, -, ht⟩ := Db.screeningUpdate_eq_ok hok
  refine ⟨by rw [ht]; exact h.policies, fun s hs => ?_⟩
  rw [ht] at hs
  rcases (mem_modify d.id_apply).mp hs with ⟨hs, -⟩ | ⟨r, hr, -, rfl⟩
  · exact h.priced s hs
  · unfold ScreeningData.apply
    cases hx : d.price with
    | none => exact h.priced r hr
    | some x => exact hd x hx

theorem Db.Tariff.booking (h : w.db.Tariff policies) {op : BookingRequest} {c : Cmd}
    (hc : BookingCmd op c) : (World.exec api c w).2.db.Tariff policies :=
  h.congr (booking_offer api hc).refundPolicies (booking_offer api hc).screenings

/-- The administration writes only prices that it was asked for. -/
theorem Db.Tariff.admin (h : w.db.Tariff policies) {op : AdminRequest} {c : Cmd}
    (hc : AdminCmd op c) (hprice : ∀ x ∈ (Request.admin op).price, 0 ≤ x) :
    (World.exec api c w).2.db.Tariff policies := by
  cases hc with
  | read hq _ _ => exact h.congr (by rw [World.exec_quiet api hq]) (by rw [World.exec_quiet api hq])
  | drop keys => exact h
  | createMovie dto => exact ⟨h.policies, h.priced⟩
  | createScreening dto =>
    refine World.commit_rule h fun s db' hok => ?_
    obtain ⟨-, ht⟩ := Db.screeningCreate_eq_ok hok
    refine ⟨by rw [ht]; exact h.policies, fun s hs => ?_⟩
    rw [ht, rows_insert] at hs
    rcases List.mem_append.mp hs with hs | hs
    · exact h.priced s hs
    · rw [List.mem_singleton.mp hs]
      exact hprice dto.price rfl
  | updateScreening id dto => exact World.commit_rule h fun _ _ hok => h.update hprice hok
  | cancelScreening id => exact World.commit_rule h fun _ _ hok => h.update (by simp) hok
  | createHall dto hall seats =>
    refine World.commit_rule h fun s db' hok => ?_
    obtain ⟨ht, -⟩ := Db.createHallWithSeats_eq_ok hok
    exact h.congr (by rw [ht]) (by rw [ht])
  | updateMovie id dto d =>
    refine World.commit_rule h fun s db' hok => ?_
    exact h.congr (by rw [Db.movieUpdate_eq_ok hok]) (by rw [Db.movieUpdate_eq_ok hok])
  | publish id | unpublish id =>
    refine World.commit_rule h fun s db' hok => ?_
    exact h.congr (by rw [Db.movieUpdate_eq_ok hok]) (by rw [Db.movieUpdate_eq_ok hok])
  | deleteHall id =>
    refine World.commit_rule h fun s db' hok => ?_
    rw [Db.hallDelete_eq_ok hok]
    exact h.cascade _ _ _
  | deleteScreening id =>
    refine World.commit_rule h fun s db' hok => ?_
    rw [Db.screeningDelete_eq_ok hok]
    exact h.cascade _ _ _
  | deleteMovie id =>
    refine World.commit_rule h fun s db' hok => ?_
    rw [Db.movieDelete_eq_ok hok]
    exact h.cascade _ _ _

end Exec

/-! ### The books -/

/-- What the answers say of the amounts: payment `m` is of `amount m`, and its session, if one
was asked for, charges as much. -/
def Entered (policies : Table RefundPolicy) (amount : ℕ → ℤ) (serial : ℕ) :
    Answer Cmd Cmd.Reply Err → Prop
  | ⟨.paymentCreate d, .ok p⟩ => p.id < serial ∧ d.amount = amount p.id
  | ⟨.paymentFindByReservationId _, .ok (some p)⟩ => p.id < serial ∧ p.amount = amount p.id
  | ⟨.findRefundPolicy _, .ok (some policy)⟩ => policy ∈ policies.rows
  | ⟨.screeningFindById _, .ok (some s)⟩ => 0 ≤ s.price
  | ⟨.sessionsCreate params, _⟩ =>
    params.paymentId < serial ∧ params.amount = amount params.paymentId
  | _ => True

/-- Every payment has an amount for good, also once it is deleted; what Stripe has booked
under its key, if anything, is one refund of no more. -/
structure Books {σ A : Type} (api : StripeApi σ A) (policies : Table RefundPolicy)
    (amount : ℕ → ℤ) (tr : Log) (w : World σ) : Prop where
  rows : ∀ m p, w.db.payments.get m = some p → p.amount = amount m
  nonneg : ∀ m, 0 ≤ amount m
  int4 : ∀ m, Int4 (amount m)
  entered : ∀ a ∈ tr, Entered policies amount w.db.payments.serial a.2
  tariff : w.db.Tariff policies
  booked : ∀ k, api.under k w.stripe = [] ∨ k < w.db.payments.serial ∧
    ∃ r, api.under k w.stripe = [r] ∧ 0 ≤ r.amount ∧ r.amount ≤ amount k

/-- The refunds that Stripe has booked under a payment's key, in total. -/
def StripeApi.refunded {σ A : Type} (api : StripeApi σ A) (key : ℕ) (s : σ) : ℤ :=
  ((api.under key s).map Refund.amount).sum

/-- The amounts with those of the payments that have come up. -/
def amountsAfter (amount : ℕ → ℤ) (serial : ℕ) (db : Db) (m : ℕ) : ℤ :=
  if m < serial then amount m else ((db.payments.get m).map Payment.amount).getD 0

section Books
variable {σ A : Type} {api : StripeApi σ A} {policies : Table RefundPolicy} {amount : ℕ → ℤ}
  {serial : ℕ} {tr : Log} {w : World σ} {op : Request} {c : Cmd}

theorem amountsAfter_old {m : ℕ} (h : m < serial) (db : Db) :
    amountsAfter amount serial db m = amount m := if_pos h

theorem Entered.later {a : Answer Cmd Cmd.Reply Err} {amount' : ℕ → ℤ} {serial' : ℕ}
    (hle : serial ≤ serial') (heq : ∀ m < serial, amount' m = amount m)
    (h : Entered policies amount serial a) : Entered policies amount' serial' a := by
  have hboth : ∀ {m : ℕ} {x : ℤ}, m < serial ∧ x = amount m → m < serial' ∧ x = amount' m :=
    fun hm => ⟨hm.1.trans_le hle, hm.2.trans (heq _ hm.1).symm⟩
  obtain ⟨c, r⟩ := a
  cases c with
  | paymentCreate d => rcases r with e | p; exacts [trivial, hboth h]
  | paymentFindByReservationId n => rcases r with e | ⟨_ | p⟩; exacts [trivial, trivial, hboth h]
  | findRefundPolicy t => rcases r with e | ⟨_ | p⟩; exacts [trivial, trivial, h]
  | screeningFindById n => rcases r with e | ⟨_ | s⟩; exacts [trivial, trivial, h]
  | sessionsCreate params => exact hboth h
  | _ => trivial

/-- The session that a process asks for charges the amount of the payment that it created. -/
theorem Books.session (h : Books api policies amount tr w) {i : ℕ} {params : CheckoutParams}
    (hg : Funded op (own i tr) (.sessionsCreate params)) (r : Except Err Session) :
    Entered policies amount w.db.payments.serial ⟨.sessionsCreate params, r⟩ := by
  obtain ⟨d, p, hmem, hid, hamount⟩ := hg
  obtain ⟨hlt, hd⟩ : p.id < w.db.payments.serial ∧ d.amount = amount p.id :=
    h.entered _ (mem_own.mp hmem)
  exact ⟨hid ▸ hlt, hid ▸ hamount.trans hd⟩

/-- A refund that a process asks for is of a share of the amount. -/
theorem Books.refund (h : Books api policies amount tr w)
    (hpercent : ∀ q ∈ policies.rows, 0 ≤ q.refundPercent ∧ q.refundPercent ≤ 100) {i : ℕ}
    {intent k : ℕ} {a : ℤ} (hg : Funded op (own i tr) (.refundsCreate intent a k)) :
    k < w.db.payments.serial ∧ 0 ≤ a ∧ a ≤ amount k := by
  obtain ⟨n, p, hours, q, hp, hq, rfl, -, rfl⟩ := hg
  obtain ⟨hlt, hamount⟩ : p.id < w.db.payments.serial ∧ p.amount = amount p.id :=
    h.entered _ (mem_own.mp hp)
  have hq : q ∈ policies.rows := h.entered _ (mem_own.mp hq)
  obtain ⟨hlow, hhigh⟩ := hpercent q hq
  have hnonneg : 0 ≤ p.amount := hamount ▸ h.nonneg p.id
  have h4 : Int4 p.amount := hamount ▸ h.int4 p.id
  refine ⟨hlt, refundShare_nonneg hnonneg hlow, ?_⟩
  rw [← hamount]
  exact refundShare_le hnonneg h4 hlow hhigh

/-- A payment that was not there before a command is created by it, for a price that was read. -/
theorem Books.born (h : Books api policies amount tr w) (hc : RequestCmd op c) {i : ℕ}
    (hg : Funded op (own i tr) c) {m : ℕ} (hm : w.db.payments.serial ≤ m) {p : Payment}
    (hp : (World.exec api c w).2.db.payments.get m = some p) : 0 ≤ p.amount := by
  have hnone : w.db.payments.get m = none := by
    cases hold : w.db.payments.get m with
    | none => rfl
    | some q => exact absurd (lt_serial_of_get hold) (Nat.not_lt.mpr hm)
  cases op with
  | admin op =>
    have hold := (AdminCmd.fewer api hc w).payments m p hp
    rw [hnone] at hold
    cases hold
  | booking op =>
    obtain ⟨d, rfl, -, rfl, -⟩ := payment_born api hc hnone hp
    obtain ⟨n, s, hread, hamount⟩ := hg
    have hprice : 0 ≤ s.price := h.entered _ (mem_own.mp hread)
    change 0 ≤ d.amount
    omega

/-- What a command answers is in the books. -/
theorem Books.answer (h : Books api policies amount tr w) {i : ℕ} (hg : Funded op (own i tr) c) :
    Entered policies (amountsAfter amount w.db.payments.serial (World.exec api c w).2.db)
      (World.exec api c w).2.db.payments.serial ⟨c, (World.exec api c w).1⟩ := by
  have hle := (World.exec_evolves api c w).payments.serial
  have hlater := fun a (ha : Entered policies amount w.db.payments.serial a) =>
    ha.later hle fun m hm => amountsAfter_old hm (World.exec api c w).2.db
  cases c with
  | sessionsCreate params => exact hlater _ (h.session hg _)
  | paymentCreate d =>
    simp only [World.exec]
    rcases w.commit_cases (w.db.paymentCreate w.now d) with ⟨p, db', hok, hcm⟩ | ⟨e, -, hcm⟩
    · rw [hcm]
      obtain ⟨-, rfl, -, ht⟩ := Db.paymentCreate_eq_ok hok
      change w.db.payments.serial < db'.payments.serial ∧
        d.amount = amountsAfter amount w.db.payments.serial db' w.db.payments.serial
      rw [amountsAfter, if_neg (lt_irrefl _), ht, get_insert, if_pos rfl]
      exact ⟨Nat.lt_succ_self _, rfl⟩
    · rw [hcm]
      trivial
  | paymentFindByReservationId n =>
    refine hlater ⟨_, .ok _⟩ ?_
    cases hp : w.db.payments.rows.find? fun p => p.reservationId = n with
    | none => trivial
    | some p =>
      have hget := get_of_mem (List.mem_of_find?_eq_some hp)
      exact ⟨lt_serial_of_get hget, h.rows _ p hget⟩
  | findRefundPolicy t =>
    refine hlater ⟨_, .ok _⟩ ?_
    cases hq : w.db.findRefundPolicy t with
    | none => trivial
    | some q => exact h.tariff.policies ▸ List.mem_of_find?_eq_some hq
  | screeningFindById n =>
    refine hlater ⟨_, .ok _⟩ ?_
    cases hs : w.db.screeningFindById n with
    | none => trivial
    | some s => exact h.tariff.priced _ (mem_of_get (Db.screening_of_find hs))
  | _ => trivial

/-- What Stripe has booked after a command. -/
theorem Books.afterwards (hapi : api.Idempotent) (hapart : api.KeysApart)
    (hpercent : ∀ q ∈ policies.rows, 0 ≤ q.refundPercent ∧ q.refundPercent ≤ 100)
    (h : Books api policies amount tr w) {i : ℕ} (hg : Funded op (own i tr) c) (k : ℕ) :
    api.under k (World.exec api c w).2.stripe = [] ∨ k < w.db.payments.serial ∧
      ∃ r, api.under k (World.exec api c w).2.stripe = [r] ∧ 0 ≤ r.amount ∧
        r.amount ≤ amount k := by
  cases hr : c.refunds with
  | false =>
    rw [exec_under hapart hr]
    exact h.booked k
  | true =>
    obtain ⟨intent, a, key, rfl⟩ : ∃ intent a key, c = .refundsCreate intent a key := by
      cases c with
      | refundsCreate intent a key => exact ⟨intent, a, key, rfl⟩
      | _ => cases hr
    change api.under k (api.createRefund intent a key w.stripe).2 = [] ∨ _ ∧
      ∃ r, api.under k (api.createRefund intent a key w.stripe).2 = [r] ∧ _
    by_cases hk : k = key
    · subst hk
      rcases h.booked k with hnone | ⟨hlt, r, hone, hle⟩
      · rcases hapi.first intent a k w.stripe hnone with hnone | ⟨id, hone⟩
        · exact .inl hnone
        · obtain ⟨hlt, hle⟩ := h.refund hpercent hg
          exact .inr ⟨hlt, _, hone, hle⟩
      · have hrepeated := hapi.repeated intent a k w.stripe (by rw [hone]; simp)
        exact .inr ⟨hlt, r, hrepeated.trans hone, hle⟩
    · rw [hapart.other intent a key k w.stripe hk]
      exact h.booked k

/-- A command that failed says nothing new. -/
theorem Books.failed (h : Books api policies amount tr w) {i : ℕ} {amount' : ℕ → ℤ}
    {serial' : ℕ} (hle : w.db.payments.serial ≤ serial')
    (heq : ∀ m < w.db.payments.serial, amount' m = amount m) (hg : Funded op (own i tr) c)
    (e : Err) : Entered policies amount' serial' ⟨c, .error e⟩ := by
  cases c with
  | sessionsCreate params => exact (h.session hg _).later hle heq
  | _ => trivial

theorem Books.exec (hapi : api.Idempotent) (hapart : api.KeysApart)
    (hpercent : ∀ q ∈ policies.rows, 0 ≤ q.refundPercent ∧ q.refundPercent ≤ 100)
    (h : Books api policies amount tr w) (hc : RequestCmd op c)
    (hprice : ∀ x ∈ op.price, 0 ≤ x) {i : ℕ} (hg : Funded op (own i tr) c)
    {r : Except Err c.Reply} (hr : r = (World.exec api c w).1 ∨ ∃ e, r = .error e) :
    Books api policies (amountsAfter amount w.db.payments.serial (World.exec api c w).2.db)
      (tr ++ [(i, ⟨c, r⟩)]) (World.exec api c w).2 := by
  have he := (World.exec_evolves api c w).payments
  have hold : ∀ m < w.db.payments.serial, amountsAfter amount w.db.payments.serial
      (World.exec api c w).2.db m = amount m := fun m hm => amountsAfter_old hm _
  refine ⟨fun m p hp => ?_, fun m => ?_, fun m => ?_, ?_, ?_, fun k => ?_⟩
  · by_cases hm : m < w.db.payments.serial
    · obtain ⟨q, hq, heq⟩ := he.row m hm p hp
      rw [hold m hm, (Prod.mk.inj heq).2]
      exact h.rows m q hq
    · rw [amountsAfter, if_neg hm, hp]
      rfl
  · unfold amountsAfter
    split_ifs with hm
    · exact h.nonneg m
    · cases hp : (World.exec api c w).2.db.payments.get m with
      | none => exact le_refl 0
      | some p => exact h.born hc hg (Nat.le_of_not_lt hm) hp
  · unfold amountsAfter
    split_ifs with hm
    · exact h.int4 m
    · cases hp : (World.exec api c w).2.db.payments.get m with
      | none => exact (by decide : Int4 0)
      | some p => exact (World.exec api c w).2.db.payment_amount.get hp
  · rw [List.forall_mem_append]
    refine ⟨fun a ha => (h.entered a ha).later he.serial hold, List.forall_mem_singleton.mpr ?_⟩
    rcases hr with rfl | ⟨e, rfl⟩
    · exact h.answer hg
    · exact h.failed he.serial hold hg e
  · cases op with
    | admin op => exact h.tariff.admin api hc hprice
    | booking op => exact h.tariff.booking api hc
  · refine (h.afterwards hapi hapart hpercent hg k).imp_right fun ⟨hlt, r, hone, hnonneg, hle⟩ => ?_
    exact ⟨hlt.trans_le he.serial, r, hone, hnonneg, (hold k hlt).symm ▸ hle⟩

theorem Books.lost (h : Books api policies amount tr w) {i : ℕ} (hg : Funded op (own i tr) c)
    (e : Err) : Books api policies amount (tr ++ [(i, ⟨c, .error e⟩)]) w := by
  refine ⟨h.rows, h.nonneg, h.int4, ?_, h.tariff, h.booked⟩
  rw [List.forall_mem_append]
  exact ⟨h.entered, List.forall_mem_singleton.mpr (h.failed le_rfl (fun _ _ => rfl) hg e)⟩

theorem Books.elapse (hapi : api.Idempotent) (h : Books api policies amount tr w) (e : Env A) :
    Books api policies amount tr (w.elapse api e) := by
  have hdb : (w.elapse api e).db = w.db := World.elapse_db api e w
  refine ⟨hdb ▸ h.rows, h.nonneg, h.int4, hdb ▸ h.entered, hdb ▸ h.tariff, fun k => ?_⟩
  have hbooks : api.under k (w.elapse api e).stripe = api.under k w.stripe := by
    cases e with
    | stripe a => exact hapi.act a k w.stripe
    | _ => rfl
  rw [hdb, hbooks]
  exact h.booked k

/-- The books at the start, without a payment or a refund. -/
theorem books_start (hpayments : w.db.payments.rows = []) (hbooks : api.refunds w.stripe = [])
    (hprices : ∀ s ∈ w.db.screenings.rows, 0 ≤ s.price) :
    Books api w.db.refundPolicies (fun _ => 0) [] w where
  rows m p hp := by
    have hmem := mem_of_get hp
    rw [hpayments] at hmem
    cases hmem
  nonneg _ := le_refl 0
  int4 _ := by decide
  entered := List.forall_mem_nil _
  tariff := ⟨rfl, hprices⟩
  booked k := .inl (by rw [StripeApi.under, hbooks]; rfl)

/-- The books of a run in which no negative price is asked for. -/
theorem books_run (hapi : api.Idempotent) (hapart : api.KeysApart)
    (hpercent : ∀ q ∈ w.db.refundPolicies.rows, 0 ≤ q.refundPercent ∧ q.refundPercent ≤ 100)
    (hpayments : w.db.payments.rows = []) (hbooks : api.refunds w.stripe = [])
    (hprices : ∀ s ∈ w.db.screenings.rows, 0 ≤ s.price)
    {xs : List (Choice Err Request (Env A))}
    {q : Pool Cmd Cmd.Reply Err (World σ) Request Response}
    (hx : (serviceSystem api).schedule xs ⟨w, []⟩ = some q)
    (hasked : ∀ op ∈ q.procs.map Prod.fst, ∀ x ∈ op.price, 0 ≤ x) :
    ∃ amount, Books api w.db.refundPolicies amount ((serviceSystem api).trace xs ⟨w, []⟩)
      q.state := by
  refine history_rule (I := fun ops tr _ t => (∀ op ∈ ops, ∀ x ∈ op.price, 0 ≤ x) →
    ∃ amount, Books api w.db.refundPolicies amount tr t) ?_ ?_ ?_ ?_ ?_ hx hasked
  · exact fun _ => ⟨_, books_start hpayments hbooks hprices⟩
  · exact fun ops tr _ t op h hops => h fun op' hop => hops op' (List.mem_append_left _ hop)
  · intro ops tr _ t e h hops
    obtain ⟨amount, h⟩ := h hops
    exact ⟨amount, h.elapse hapi e⟩
  · intro ops tr _ t i op c k e hi hpath h hops
    obtain ⟨amount, h⟩ := h hops
    exact ⟨amount, h.lost ((handle_funded op).path hpath) e⟩
  · intro ops tr _ t i op c k r hi hpath hr h hops
    obtain ⟨amount, h⟩ := h hops
    have hc : RequestCmd op c := (hpath.only_rest op.handle_only).1
    exact ⟨_, h.exec hapi hapart hpercent hc (hops op (List.mem_of_getElem? hi))
      ((handle_funded op).path hpath) hr⟩

/-- **The books balance**: Stripe gives back under the key of a payment no more than the
checkout session of the payment charges, whatever runs side by side and fails. -/
theorem refunds_within_charge (hapi : api.Idempotent) (hapart : api.KeysApart)
    (hpercent : ∀ q ∈ w.db.refundPolicies.rows, 0 ≤ q.refundPercent ∧ q.refundPercent ≤ 100)
    (hpayments : w.db.payments.rows = []) (hbooks : api.refunds w.stripe = [])
    (hprices : ∀ s ∈ w.db.screenings.rows, 0 ≤ s.price)
    {xs : List (Choice Err Request (Env A))}
    {q : Pool Cmd Cmd.Reply Err (World σ) Request Response}
    (hx : (serviceSystem api).schedule xs ⟨w, []⟩ = some q)
    (hasked : ∀ op ∈ q.procs.map Prod.fst, ∀ x ∈ op.price, 0 ≤ x) {i : ℕ}
    {params : CheckoutParams} {rep : Except Err Session}
    (hsession : (i, ⟨.sessionsCreate params, rep⟩) ∈ (serviceSystem api).trace xs ⟨w, []⟩) :
    (∀ r ∈ api.under params.paymentId q.state.stripe, 0 ≤ r.amount) ∧
      api.refunded params.paymentId q.state.stripe ≤ params.amount := by
  obtain ⟨amount, h⟩ := books_run hapi hapart hpercent hpayments hbooks hprices hx hasked
  obtain ⟨-, hcharge⟩ : params.paymentId < _ ∧ params.amount = amount params.paymentId :=
    h.entered _ hsession
  rw [hcharge, StripeApi.refunded]
  rcases h.booked params.paymentId with hnone | ⟨-, r, hone, hnonneg, hle⟩
  · rw [hnone]
    exact ⟨List.forall_mem_nil _, h.nonneg _⟩
  · rw [hone]
    exact ⟨List.forall_mem_singleton.mpr hnonneg, by simpa using hle⟩

end Books

theorem testMode_keysApart : testMode.KeysApart where
  create _ _ _ := rfl
  retrieve i key s := by
    change (Account.retrieveSession i s).2.books.filter _ = s.books.filter _
    unfold Account.retrieveSession
    split <;> rfl
  other i a key key' s hne := by
    change (Account.createRefund i a key s).2.books.filter _ = s.books.filter _
    unfold Account.createRefund
    cases s.books.find? fun r => r.idempotencyKey = key with
    | none => simp [List.filter_append, hne.symm]
    | some r => dsimp only; split_ifs <;> rfl

/-- After the sale of seat 1, fifty hours ahead, its holder gives it back. -/
def givenBack : List (Choice Err Request (Env Account.Action)) :=
  soldOnce ++ .spawn (.booking (.cancel 1 1)) :: solo 3 10

/-- Ten were charged, and ten are given back. -/
theorem givenBack_within_charge : ∃ q i params rep, (serviceSystem testMode).schedule givenBack
    ⟨theatre, []⟩ = some q ∧ (i, ⟨.sessionsCreate params, rep⟩) ∈
      (serviceSystem testMode).trace givenBack ⟨theatre, []⟩ ∧
    testMode.refunded params.paymentId q.state.stripe = 1000 ∧ 1000 ≤ params.amount := by
  have hrun : ((serviceSystem testMode).schedule givenBack ⟨theatre, []⟩).any fun q =>
      (∀ op ∈ q.procs.map Prod.fst, ∀ x ∈ op.price, 0 ≤ x) ∧
        ∃ a ∈ (serviceSystem testMode).trace givenBack ⟨theatre, []⟩,
          ∃ params ∈ openedSession a.2,
            testMode.refunded params.paymentId q.state.stripe = 1000 := by decide +kernel
  obtain ⟨q, hq, hrun⟩ := (Option.any_eq_true _ _).mp hrun
  obtain ⟨hasked, ⟨i, ⟨c, rep⟩⟩, hmem, params, hopened, htotal⟩ := of_decide_eq_true hrun
  obtain ⟨rep, hmem⟩ : ∃ rep, (i, ⟨.sessionsCreate params, rep⟩) ∈
      (serviceSystem testMode).trace givenBack ⟨theatre, []⟩ := by
    cases c with
    | sessionsCreate params' =>
      cases hopened
      exact ⟨rep, hmem⟩
    | _ => cases hopened
  have hbalanced := refunds_within_charge testMode_idempotent testMode_keysApart
    (by decide +kernel) (by decide +kernel) (by decide +kernel) (by decide +kernel) hq hasked hmem
  exact ⟨q, i, params, rep, hq, hmem, htotal, htotal ▸ hbalanced.2⟩

/-! ### Where it goes -/

/-- The requests so far hold one to which Stripe named the intent for payment `m`. -/
def IntentNamed (ops : List Request) (tr : Log) (m intent : ℕ) : Prop :=
  ∃ i op, ops[i]? = some op ∧ NamedFor m intent op (own i tr)

/-- The intents of the payments that were read are named, and so are those of the refunds. -/
def ReadNamed (ops : List Request) (tr : Log) : Answer Cmd Cmd.Reply Err → Prop
  | ⟨.paymentFindByReservationId _, .ok (some p)⟩ =>
    ∀ intent, p.stripePaymentId = some intent → IntentNamed ops tr p.id intent
  | ⟨.refundsCreate intent _ k, _⟩ => IntentNamed ops tr k intent
  | _ => True

/-- Every intent in the database, once read from it, or asked to give back, is named. -/
structure NamedIntents (ops : List Request) (tr : Log) (db : Db) : Prop where
  rows : ∀ m p intent, db.payments.get m = some p → p.stripePaymentId = some intent →
    IntentNamed ops tr m intent
  read : ∀ a ∈ tr, ReadNamed ops tr a.2

section Named
variable {σ A : Type} (api : StripeApi σ A) {ops ops' : List Request} {tr tr' : Log} {w : World σ}
  {op : Request} {c : Cmd} {i m intent : ℕ}

theorem IntentNamed.snoc (h : IntentNamed ops tr m intent) (j : ℕ) (a : Answer Cmd Cmd.Reply Err) :
    IntentNamed ops (tr ++ [(j, a)]) m intent := by
  obtain ⟨i, op, hi, hnamed⟩ := h
  refine ⟨i, op, hi, ?_⟩
  rw [own_append]
  exact hnamed.append _

theorem IntentNamed.spawn (h : IntentNamed ops tr m intent) (op : Request) :
    IntentNamed (ops ++ [op]) tr m intent := by
  obtain ⟨i, op', hi, hnamed⟩ := h
  have hlt := (List.getElem?_eq_some_iff.mp hi).1
  exact ⟨i, op', (List.getElem?_append_left hlt).trans hi, hnamed⟩

theorem ReadNamed.imp {a : Answer Cmd Cmd.Reply Err}
    (himp : ∀ m intent, IntentNamed ops tr m intent → IntentNamed ops' tr' m intent)
    (h : ReadNamed ops tr a) : ReadNamed ops' tr' a := by
  obtain ⟨c, r⟩ := a
  cases c with
  | paymentFindByReservationId n =>
    rcases r with e | ⟨_ | p⟩
    · trivial
    · trivial
    · exact fun intent hintent => himp _ _ (h intent hintent)
  | refundsCreate intent x k => exact himp _ _ h
  | _ => trivial

/-- A payment after a command is what the command makes of one that was there before, or has
come up without an intent. -/
theorem RequestCmd.payment (hc : RequestCmd op c) {p : Payment}
    (hp : (World.exec api c w).2.db.payments.get m = some p) :
    (∃ p₀, w.db.payments.get m = some p₀ ∧ PaymentRewrite m c p₀ (some p)) ∨
      p.stripePaymentId = none := by
  cases op with
  | admin op => exact .inl ⟨p, (AdminCmd.fewer api hc w).payments m p hp, .keep _ _⟩
  | booking op =>
    cases hp₀ : w.db.payments.get m with
    | none =>
      obtain ⟨d, -, -, rfl, -⟩ := payment_born api hc hp₀ hp
      exact .inr rfl
    | some p₀ => exact .inl ⟨p₀, rfl, hp ▸ payment_step api hc hp₀⟩

/-- The intent of a payment after a command was named before, or to the process just now. -/
theorem NamedIntents.row (h : NamedIntents ops tr w.db) (hi : ops[i]? = some op)
    (hc : RequestCmd op c) (hg : Funded op (own i tr) c) {p : Payment}
    (hp : (World.exec api c w).2.db.payments.get m = some p)
    (hintent : p.stripePaymentId = some intent) : IntentNamed ops tr m intent := by
  rcases RequestCmd.payment api hc hp with ⟨p₀, hp₀, hrw⟩ | hnone
  · cases hrw with
    | keep => exact h.rows m p intent hp₀ hintent
    | update d =>
      cases hd : d.stripePaymentId with
      | none =>
        refine h.rows m p₀ intent hp₀ ?_
        simpa [PaymentData.apply, hd] using hintent
      | some x =>
        have hx : x = some intent := by simpa [PaymentData.apply, hd] using hintent
        exact ⟨i, op, hi, hg m intent rfl (hx ▸ hd)⟩
    | decline n => exact h.rows m p₀ intent hp₀ hintent
    | settle n j => exact ⟨i, op, hi, hg intent hintent⟩
  · rw [hnone] at hintent
    cases hintent

/-- A refund is asked of an intent that the process has read. -/
theorem NamedIntents.refund (h : NamedIntents ops tr w.db) {x : ℤ} {k : ℕ}
    (hg : Funded op (own i tr) (.refundsCreate intent x k)) : IntentNamed ops tr k intent := by
  obtain ⟨n, p, hours, policy, hp, -, rfl, hintent, -⟩ := hg
  exact h.read _ (mem_own.mp hp) intent hintent

theorem NamedIntents.failed (h : NamedIntents ops tr w.db) (hg : Funded op (own i tr) c)
    (e : Err) : ReadNamed ops tr ⟨c, .error e⟩ := by
  cases c with
  | refundsCreate intent x k => exact h.refund hg
  | _ => trivial

theorem NamedIntents.answer (h : NamedIntents ops tr w.db) (hg : Funded op (own i tr) c) :
    ReadNamed ops tr ⟨c, (World.exec api c w).1⟩ := by
  cases c with
  | refundsCreate intent x k => exact h.refund hg
  | paymentFindByReservationId n =>
    change ReadNamed ops tr ⟨_, .ok _⟩
    cases hp : w.db.payments.rows.find? fun p => p.reservationId = n with
    | none => trivial
    | some p =>
      have hget := get_of_mem (List.mem_of_find?_eq_some hp)
      exact fun intent hintent => h.rows _ p intent hget hintent
  | _ => trivial

/-- An answer is added to what is named. -/
theorem NamedIntents.told {a : Answer Cmd Cmd.Reply Err} (h : ∀ a ∈ tr, ReadNamed ops tr a.2)
    (ha : ReadNamed ops tr a) : ∀ b ∈ tr ++ [(i, a)], ReadNamed ops (tr ++ [(i, a)]) b.2 := by
  rw [List.forall_mem_append]
  exact ⟨fun b hb => (h b hb).imp fun _ _ hm => hm.snoc _ _,
    List.forall_mem_singleton.mpr (ha.imp fun _ _ hm => hm.snoc _ _)⟩

theorem NamedIntents.exec (h : NamedIntents ops tr w.db) (hi : ops[i]? = some op)
    (hc : RequestCmd op c) (hg : Funded op (own i tr) c) {r : Except Err c.Reply}
    (hr : r = (World.exec api c w).1 ∨ ∃ e, r = .error e) :
    NamedIntents ops (tr ++ [(i, ⟨c, r⟩)]) (World.exec api c w).2.db := by
  refine ⟨fun m p intent hp hintent => (h.row api hi hc hg hp hintent).snoc _ _, told h.read ?_⟩
  rcases hr with rfl | ⟨e, rfl⟩
  · exact h.answer api hg
  · exact h.failed hg e

/-- **Money goes back to where it came from**: a refund is asked of an intent that Stripe named
for the payment under whose key it is asked, in a webhook on a paid session of the payment or
in answer to the reconciliation. -/
theorem refund_to_payer (hpayments : w.db.payments.rows = [])
    {xs : List (Choice Err Request (Env A))}
    {q : Pool Cmd Cmd.Reply Err (World σ) Request Response}
    (hx : (serviceSystem api).schedule xs ⟨w, []⟩ = some q) {k : ℕ} {x : ℤ}
    {rep : Except Err Refund}
    (hrefund : (i, ⟨.refundsCreate intent x k, rep⟩) ∈ (serviceSystem api).trace xs ⟨w, []⟩) :
    ∃ j op p, q.procs[j]? = some (op, p) ∧
      NamedFor k intent op (own j ((serviceSystem api).trace xs ⟨w, []⟩)) := by
  have hstart : NamedIntents [] [] w.db := by
    refine ⟨fun m p intent hp _ => ?_, List.forall_mem_nil _⟩
    have hmem := mem_of_get hp
    rw [hpayments] at hmem
    cases hmem
  have hnamed : NamedIntents (q.procs.map Prod.fst) ((serviceSystem api).trace xs ⟨w, []⟩)
      q.state.db := by
    refine history_rule (I := fun ops tr _ t => NamedIntents ops tr t.db) hstart ?_ ?_ ?_ ?_ hx
    · intro ops tr _ t op h
      exact ⟨fun m p intent hp hintent => (h.rows m p intent hp hintent).spawn op,
        fun a ha => (h.read a ha).imp fun _ _ hm => hm.spawn op⟩
    · intro ops tr _ t e h
      rw [show ((serviceSystem api).env e t).db = t.db from World.elapse_db api e t]
      exact h
    · intro ops tr _ t i op c k e hi hpath h
      exact ⟨fun m p intent hp hintent => (h.rows m p intent hp hintent).snoc _ _,
        NamedIntents.told h.read (h.failed ((handle_funded op).path hpath) e)⟩
    · intro ops tr _ t i op c k r hi hpath hr h
      have hc : RequestCmd op c := (hpath.only_rest op.handle_only).1
      exact h.exec api hi hc ((handle_funded op).path hpath) hr
  obtain ⟨j, op, hj, hfor⟩ := hnamed.read _ hrefund
  rw [List.getElem?_map, Option.map_eq_some_iff] at hj
  obtain ⟨⟨op', p⟩, hj, rfl⟩ := hj
  exact ⟨j, op', p, hj, hfor⟩

end Named

/-- The intent under which a refund was asked. -/
def refundedIntent : Answer Cmd Cmd.Reply Err → Option (ℕ × ℕ)
  | ⟨.refundsCreate intent _ k, _⟩ => some (intent, k)
  | _ => none

/-- The ten go back to intent 1, which Stripe named in the webhook on payment 1. -/
theorem givenBack_to_payer : ∃ q j op p, (serviceSystem testMode).schedule givenBack
    ⟨theatre, []⟩ = some q ∧ q.procs[j]? = some (op, p) ∧
      NamedFor 1 1 op (own j ((serviceSystem testMode).trace givenBack ⟨theatre, []⟩)) := by
  have hrun : ((serviceSystem testMode).schedule givenBack ⟨theatre, []⟩).isSome ∧
      ∃ a ∈ (serviceSystem testMode).trace givenBack ⟨theatre, []⟩,
        refundedIntent a.2 = some (1, 1) := by decide +kernel
  obtain ⟨hsome, ⟨i, ⟨c, rep⟩⟩, hmem, hintent⟩ := hrun
  obtain ⟨q, hq⟩ := Option.isSome_iff_exists.mp hsome
  have hnone : theatre.db.payments.rows = [] := by decide +kernel
  cases c with
  | refundsCreate intent x k =>
    cases hintent
    obtain ⟨j, op, p, hj, hfor⟩ := refund_to_payer testMode hnone hq hmem
    exact ⟨q, j, op, p, hq, hj, hfor⟩
  | _ => cases hintent

end MovieReservation
