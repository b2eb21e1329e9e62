import MovieReservation.Services.Requests

/-! The commands that the handlers can issue. -/

namespace MovieReservation

open Lib Lib.Prog

/-- Commands that write the database. -/
def Cmd.writes : Cmd → Bool
  | .holdSeat _ | .reservationUpdate _ _ | .releaseExpiredHolds _ | .paymentCreate _
  | .paymentUpdate _ _ | .paymentDelete _ | .declineWithReservation _ _
  | .confirmWithReservation _ _ _ | .screeningCreate _ | .screeningUpdate _ _ | .screeningDelete _
  | .createHallWithSeats _ _ | .hallDelete _ | .movieCreate _ | .movieUpdate _ _
  | .movieDelete _ => true
  | _ => false

/-- Commands that leave the database alone and open no checkout session. -/
def Cmd.quiet : Cmd → Bool
  | .sessionsCreate _ => false
  | c => !c.writes

theorem World.exec_quiet {σ A : Type} (api : StripeApi σ A) {c : Cmd} (hc : c.quiet)
    (w : World σ) : (World.exec api c w).2.db = w.db := by
  cases c
  case acquire => simp only [World.exec]; split_ifs <;> rfl
  case paymentFindById id => cases id <;> rfl
  case paymentFindByStripePaymentId i => cases i <;> rfl
  all_goals first | rfl | cases hc

theorem World.elapse_db {σ A : Type} (api : StripeApi σ A) (e : Env A) (w : World σ) :
    (w.elapse api e).db = w.db := by
  cases e <;> rfl

/-- A program of such commands leaves the database alone. -/
theorem perform_quiet {σ A α : Type} (api : StripeApi σ A) {p : M α}
    (h : Only (fun c => c.quiet) p) (w : World σ) : (perform api p w).2.db = w.db := by
  have hkeep : ∀ (c : Cmd) (w' : World σ), c.quiet → w'.db = w.db →
      (World.exec api c w').2.db = w.db :=
    fun c w' hc hw' => (World.exec_quiet api hc w').trans hw'
  exact h.run (World.exec api) hkeep rfl

/-- The payments and the statuses that a request can write to them. -/
def BookingRequest.Marks : BookingRequest → Option ℕ → PaymentStatus → Prop
  | cancel _ _, _, s => s = .refunded
  | webhook (.ok event), n, s => match event.body with
    | .checkoutSessionCompleted session =>
      n = session.paymentId ∧
        s = if session.paymentStatus = .paid then .succeeded else .inProgress
    | .checkoutSessionAsyncPaymentFailed session => n = session.paymentId ∧ s = .failed
    | .checkoutSessionExpired session => n = session.paymentId ∧ s = .timedOut
    | _ => False
  | _, _, _ => False

/-- The commands that a request can issue. -/
inductive BookingCmd (op : BookingRequest) : Cmd → Prop
  | quiet {c : Cmd} : c.quiet → BookingCmd op c
  | holdSeat (p : Db.HoldSeatParams) : (∃ dto, op = .reserve p.userId dto) →
    BookingCmd op (.holdSeat p)
  | session (params : CheckoutParams) : (∃ u id, op = .createCheckoutSession u id) →
    BookingCmd op (.sessionsCreate params)
  | sweep (t : Time) : op = .expireHolds → BookingCmd op (.releaseExpiredHolds t)
  | extend (id : ℕ) (t : Time) : (∃ u, op = .createCheckoutSession u id) →
    BookingCmd op (.reservationUpdate id { heldUntil := some (some t) })
  | confirm (id : ℕ) : (∃ event, op = .webhook event) →
    BookingCmd op (.reservationUpdate id { status := some .confirmed, heldUntil := some none })
  | cancel (id : ℕ) : (∃ u n, op = .cancel u n) →
    BookingCmd op (.reservationUpdate id { status := some .cancelled })
  | pay {d : Db.PaymentCreate} : d.status = .pending →
    (∃ u, op = .createCheckoutSession u d.reservationId) → BookingCmd op (.paymentCreate d)
  | payment (n : Option ℕ) (d : PaymentData) : (∀ s ∈ d.status, op.Marks n s) →
    BookingCmd op (.paymentUpdate n d)
  | drop (n : ℕ) : (∃ u id, op = .createCheckoutSession u id) → BookingCmd op (.paymentDelete n)
  | decline (p id : ℕ) : op = .reconcilePayments → BookingCmd op (.declineWithReservation p id)
  | settle (p id : ℕ) (i : Option ℕ) : op = .reconcilePayments →
    BookingCmd op (.confirmWithReservation p id i)

theorem marks_refunded {op : BookingRequest} {n : Option ℕ} (h : op.Marks n .refunded) :
    ∃ u id, op = .cancel u id := by
  unfold BookingRequest.Marks at h
  split at h
  · exact ⟨_, _, rfl⟩
  · split at h
    · split_ifs at h
      · cases h.2
      · cases h.2
    · cases h.2
    · cases h.2
    · cases h
  · cases h

theorem marks_timedOut {op : BookingRequest} {n : Option ℕ} (h : op.Marks n .timedOut) :
    ∃ eventId session, op = .webhook (.ok ⟨eventId, .checkoutSessionExpired session⟩) ∧
      n = session.paymentId := by
  unfold BookingRequest.Marks at h
  split at h
  · cases h
  · rename_i event
    obtain ⟨eventId, body⟩ := event
    cases body with
    | checkoutSessionCompleted session =>
      have hst := h.2
      split_ifs at hst
    | checkoutSessionAsyncPaymentFailed session => cases h.2
    | checkoutSessionExpired session => exact ⟨eventId, session, rfl, h.1⟩
    | chargeDisputeCreated dispute => cases h
    | other => cases h
  · cases h

/-- The commands that cancel `r`, the refund of its payment included. -/
inductive CancelCmd (r : Reservation) : Cmd → Prop
  | findPayment : CancelCmd r (.paymentFindByReservationId r.id)
  | findScreening : CancelCmd r (.screeningFindById r.screeningId)
  | dateNow : CancelCmd r .dateNow
  | findPolicy (hours : ℚ) : CancelCmd r (.findRefundPolicy hours)
  | refund (intent : ℕ) (amount : ℤ) (paymentId : ℕ) :
    CancelCmd r (.refundsCreate intent amount paymentId)
  | mark (n : Option ℕ) (d : PaymentData) : d.status = some .refunded →
    CancelCmd r (.paymentUpdate n d)
  | cancel : CancelCmd r (.reservationUpdate r.id { status := some .cancelled })
  | announce : CancelCmd r (.emit (.cancelled r.screeningId [r.seatId]))

theorem CancelCmd.booking {r : Reservation} {c : Cmd} {u id : ℕ} (h : CancelCmd r c) :
    BookingCmd (.cancel u id) c := by
  cases h with
  | mark n d hd =>
    refine .payment n d fun s hs => ?_
    rw [hd] at hs
    exact (Option.some.inj hs).symm
  | cancel => exact .cancel r.id ⟨u, id, rfl⟩
  | _ => exact .quiet rfl

section
variable {P : Cmd → Prop} {α : Type}

@[simp] theorem only_throwIf_bind {c : Prop} [Decidable c] {e : Err} {f : Unit → M α} :
    Only P (throwIf c e >>= f) ↔ (¬ c → Only P (f ())) := by
  unfold throwIf
  split_ifs with h <;> simp [h]

end

section
variable {op : BookingRequest}

theorem only_quiet {c : Cmd} (h : c.quiet = true) : Only (BookingCmd op) (request c) :=
  (only_issue c).mpr (.quiet h)

theorem only_request {c : Cmd} (h : BookingCmd op c) : Only (BookingCmd op) (request c) :=
  (only_issue c).mpr h

/-- Programs that never write the database. -/
abbrev Quiet {α : Type} (p : M α) : Prop := Only (fun c => c.quiet = true) p

theorem Quiet.only {α : Type} {p : M α} (h : Quiet p) : Only (BookingCmd op) p :=
  h.mono fun _ => .quiet

theorem quiet_request {c : Cmd} (h : c.quiet = true) : Quiet (request c) := (only_issue c).mpr h

theorem PaymentAbuseService.recordFailure_quiet (u : ℕ) : Quiet (recordFailure u) := by
  unfold recordFailure
  refine Only.bind (quiet_request rfl) fun t => ?_
  refine Only.bind (quiet_request rfl) fun _ => ?_
  refine Only.bind (quiet_request rfl) fun _ => ?_
  refine Only.bind (quiet_request rfl) fun _ => ?_
  refine Only.bind (quiet_request rfl) fun count => ?_
  split_ifs
  · exact quiet_request rfl
  · trivial

namespace ReservationsService

theorem reserve_only (u : ℕ) (dto : CreateReservationDto) :
    Only (BookingCmd (.reserve u dto)) (reserve u dto) := by
  unfold reserve
  refine Only.bind (only_quiet rfl) fun lockedOut => ?_
  rw [only_throwIf_bind]
  intro _
  refine Only.bind (only_quiet rfl) fun screening => ?_
  cases screening with
  | none => trivial
  | some screening =>
    simp only [only_throwIf_bind]
    intro _
    refine Only.bind (only_quiet rfl) fun t => ?_
    rw [only_throwIf_bind]
    intro _
    refine Only.bind (only_quiet rfl) fun t' => ?_
    refine Only.bind (only_quiet rfl) fun _ => ?_
    refine Only.bind (Only.ensuring ?_ (only_quiet rfl)) fun r => ?_
    · refine Only.tryCatch (only_request (.holdSeat _ ⟨dto, rfl⟩)) fun e => ?_
      split_ifs <;> trivial
    · exact Only.bind (only_quiet rfl) fun _ => trivial

theorem expireHolds_only : Only (BookingCmd .expireHolds) expireHolds := by
  unfold expireHolds
  refine Only.bind (only_quiet rfl) fun t => ?_
  refine Only.bind (only_request (.sweep t rfl)) fun released => ?_
  refine Only.bind (Only.forM (fun g => only_quiet rfl) _) fun _ => ?_
  exact Only.forM (fun r => only_quiet rfl) _

theorem finalizeCancel_cancels (r : Reservation) : Only (CancelCmd r) (finalizeCancel r) := by
  unfold finalizeCancel
  refine Only.bind ((only_issue _).mpr .cancel) fun c => ?_
  exact Only.bind ((only_issue _).mpr .announce) fun _ => trivial

theorem getById_quiet (id : ℕ) : Quiet (getById id) := by
  unfold getById
  refine Only.bind (quiet_request rfl) fun r => ?_
  cases r <;> trivial

theorem findOwned_quiet (u id : ℕ) : Quiet (findOwned u id) := by
  unfold findOwned
  refine Only.bind (getById_quiet id) fun r => ?_
  rw [only_throwIf_bind]
  exact fun _ => trivial

theorem confirmPayment_only (event : Except String StripeEvent) (id : ℕ) :
    Only (BookingCmd (.webhook event)) (confirmPayment id) := by
  unfold confirmPayment
  refine Only.bind (only_request (.confirm id ⟨event, rfl⟩)) fun r => ?_
  exact Only.bind (only_quiet rfl) fun _ => trivial

end ReservationsService

namespace PaymentsService

theorem createCheckoutSession_only (u id : ℕ) :
    Only (BookingCmd (.createCheckoutSession u id)) (createCheckoutSession u id) := by
  unfold createCheckoutSession
  refine Only.bind (ReservationsService.findOwned_quiet u id).only fun r => ?_
  rw [only_throwIf_bind]
  intro _
  refine Only.bind (only_quiet rfl) fun existing => ?_
  rw [only_throwIf_bind]
  intro _
  refine Only.bind (only_quiet rfl) fun screening => ?_
  cases screening with
  | none => trivial
  | some screening =>
    refine Only.bind (Only.tryCatch (only_request (.pay rfl ⟨u, rfl⟩)) fun e => ?_)
      fun payment => ?_
    · split_ifs <;> trivial
    refine Only.tryCatch ?_ fun e =>
      Only.bind (only_request (.drop _ ⟨u, id, rfl⟩)) fun _ => trivial
    refine Only.bind (only_quiet rfl) fun t => ?_
    refine Only.bind (only_request (.session _ ⟨u, id, rfl⟩)) fun session => ?_
    refine Only.bind (only_request (.payment _ _ nofun)) fun _ => ?_
    exact Only.bind (only_request (.extend _ _ ⟨u, rfl⟩)) fun _ => trivial

theorem dispatch_only (event : StripeEvent) :
    Only (BookingCmd (.webhook (.ok event))) (dispatch event) := by
  obtain ⟨eventId, body⟩ := event
  cases body with
  | checkoutSessionCompleted session =>
    refine Only.bind (only_quiet ?_) fun payment => ?_
    · cases session.paymentId <;> rfl
    cases payment with
    | none => trivial
    | some payment =>
      show Only _ (ite _ _ _)
      split_ifs with hpaid
      · refine Only.bind (ReservationsService.confirmPayment_only _ _) fun _ => ?_
        refine Only.bind (only_request (.payment _ _ fun s hs => ?_)) fun _ => trivial
        cases hs
        exact ⟨rfl, (if_pos hpaid).symm⟩
      · refine Only.bind (only_request (.payment _ _ fun s hs => ?_)) fun _ => trivial
        cases hs
        exact ⟨rfl, (if_neg hpaid).symm⟩
  | checkoutSessionAsyncPaymentFailed session =>
    refine Only.bind (only_request (.payment _ _ fun s hs => ?_)) fun payment => ?_
    · cases hs
      exact ⟨rfl, rfl⟩
    refine Only.bind (ReservationsService.getById_quiet _).only fun r => ?_
    exact (PaymentAbuseService.recordFailure_quiet _).only
  | checkoutSessionExpired session =>
    refine Only.bind (only_request (.payment _ _ fun s hs => ?_)) fun _ => trivial
    cases hs
    exact ⟨rfl, rfl⟩
  | chargeDisputeCreated dispute =>
    refine Only.bind (only_quiet rfl) fun payment => ?_
    cases payment with
    | none => trivial
    | some payment =>
      refine Only.bind (only_quiet rfl) fun t => ?_
      exact Only.bind (only_request (.payment _ _ nofun)) fun _ => trivial
  | other => trivial

theorem handleWebhookEvent_only (constructed : Except String StripeEvent) :
    Only (BookingCmd (.webhook constructed)) (handleWebhookEvent constructed) := by
  cases constructed with
  | error message => trivial
  | ok event =>
    refine Only.bind (only_quiet rfl) fun processed => ?_
    split_ifs
    · trivial
    · exact dispatch_only event

theorem recordRefund_cancels (r : Reservation) (p : Payment) (refundId : Option ℕ) :
    Only (CancelCmd r) (recordRefund r p refundId) := by
  unfold recordRefund
  refine Only.bind ((only_issue _).mpr .dateNow) fun t => ?_
  refine Only.bind ((only_issue _).mpr (.mark _ _ rfl)) fun _ => ?_
  exact ReservationsService.finalizeCancel_cancels r

theorem refundReservation_cancels (r : Reservation) :
    Only (CancelCmd r) (refundReservation r) := by
  unfold refundReservation
  refine Only.bind ((only_issue _).mpr .findPayment) fun payment => ?_
  cases payment with
  | none => trivial
  | some payment =>
    show Only _ (ite _ _ _)
    split_ifs
    · exact ReservationsService.finalizeCancel_cancels r
    refine Only.bind ((only_issue _).mpr .findScreening) fun screening => ?_
    cases screening with
    | none => trivial
    | some screening =>
      refine Only.bind ((only_issue _).mpr .dateNow) fun t => ?_
      refine Only.bind ((only_issue _).mpr (.findPolicy _)) fun policy => ?_
      cases payment.stripePaymentId with
      | none => exact recordRefund_cancels r payment none
      | some intent =>
        show Only _ (ite _ _ _)
        split_ifs
        · refine Only.bind ((only_issue _).mpr (.refund _ _ _)) fun refund => ?_
          exact recordRefund_cancels r payment _
        · exact recordRefund_cancels r payment none

theorem reconcile_only (p : Payment) : Only (BookingCmd .reconcilePayments) (reconcile p) := by
  unfold reconcile
  refine Only.bind (only_quiet rfl) fun session => ?_
  split_ifs
  · refine Only.bind (only_request (.settle _ _ _ rfl)) fun x => ?_
    exact only_quiet rfl
  · refine Only.bind (only_request (.decline _ _ rfl)) fun x => ?_
    refine Only.bind (only_quiet rfl) fun _ => ?_
    exact (PaymentAbuseService.recordFailure_quiet _).only

theorem reconcileTimedOutPayments_only :
    Only (BookingCmd .reconcilePayments) reconcileTimedOutPayments := by
  unfold reconcileTimedOutPayments
  refine Only.bind (only_quiet rfl) fun t => ?_
  refine Only.bind (only_quiet rfl) fun stuck => ?_
  exact Only.forM reconcile_only stuck

end PaymentsService

/-- What `cancel` does with the reservation that it has read. -/
theorem ReservationsService.cancel_cancels (r : Reservation) : Only (CancelCmd r)
    (if r.status = .confirmed then PaymentsService.refundReservation r
      else do
        throwIf (r.status ≠ .held)
          (.conflict "Only a held or confirmed reservation can be cancelled")
        finalizeCancel r) := by
  split_ifs
  · exact PaymentsService.refundReservation_cancels r
  · rw [only_throwIf_bind]
    exact fun _ => finalizeCancel_cancels r

theorem ReservationsService.cancel_only (u id : ℕ) :
    Only (BookingCmd (.cancel u id)) (ReservationsService.cancel u id) := by
  unfold cancel
  refine Only.bind (findOwned_quiet u id).only fun r => ?_
  exact (cancel_cancels r).mono fun _ hc => hc.booking

theorem ScreeningsService.getSeatMap_quiet (id : ℕ) : Quiet (getSeatMap id) := by
  unfold getSeatMap
  refine Only.bind (Only.tryCatch (quiet_request rfl) fun _ => trivial) fun cached => ?_
  cases cached with
  | some cached => trivial
  | none =>
    refine Only.bind (quiet_request rfl) fun screening => ?_
    cases screening with
    | none => trivial
    | some screening =>
      simp only [only_throwIf_bind]
      intro _
      refine Only.bind (quiet_request rfl) fun seats => ?_
      refine Only.bind (quiet_request rfl) fun reservations => ?_
      exact Only.bind (Only.tryCatch (quiet_request rfl) fun _ => trivial) fun _ => trivial

end

theorem BookingRequest.handle_only (op : BookingRequest) : Only (BookingCmd op) op.handle := by
  cases op with
  | reserve u dto => exact Only.bind (ReservationsService.reserve_only u dto) fun _ => trivial
  | cancel u id => exact Only.bind (ReservationsService.cancel_only u id) fun _ => trivial
  | createCheckoutSession u id =>
    exact Only.bind (PaymentsService.createCheckoutSession_only u id) fun _ => trivial
  | webhook constructed =>
    exact Only.bind (PaymentsService.handleWebhookEvent_only constructed) fun _ => trivial
  | expireHolds =>
    exact Only.bind (Only.tryCatch ReservationsService.expireHolds_only fun _ => trivial)
      fun _ => trivial
  | reconcilePayments =>
    exact Only.bind (Only.tryCatch PaymentsService.reconcileTimedOutPayments_only
      fun _ => trivial) fun _ => trivial
  | getStatus u id =>
    refine Only.bind ?_ fun _ => trivial
    refine Only.bind (ReservationsService.findOwned_quiet u id).only fun r => ?_
    exact Only.bind (only_quiet rfl) fun _ => trivial
  | getSeatMap id => exact Only.bind (ScreeningsService.getSeatMap_quiet id).only fun _ => trivial

end MovieReservation
