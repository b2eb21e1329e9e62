import MovieReservation.Properties.Webhook
import MovieReservation.Services.Delivery
import MovieReservation.Services.Sales

/-! What becomes of a payment that has come to an outcome. The handlers of the webhook
write the status that their event reports without reading the one that is there. -/

namespace MovieReservation

open Lib Lib.Prog Lib.Table PaymentsService

/-! ### Outcomes -/

def BookingRequest.isCancel : BookingRequest → Bool
  | cancel _ _ => true
  | _ => false

def BookingRequest.isWebhook : BookingRequest → Bool
  | webhook _ => true
  | _ => false

/-- The moves of a payment's status that leave its outcome standing: a success ends only
in a refund, and no event takes a failure or a refund back. -/
def BookingRequest.MayMove (r : BookingRequest) (s t : PaymentStatus) : Prop :=
  (s = .succeeded → t = .succeeded ∨ t = .refunded ∧ r.isCancel) ∧
    (r.isWebhook → s = .failed ∨ s = .refunded →
      t ≠ .pending ∧ t ≠ .inProgress ∧ t ≠ .timedOut ∧ t ≠ .succeeded)

def KeepsOutcomes (r : BookingRequest) (db db' : Db) : Prop :=
  ∀ p ∈ db.payments.rows, ∃ q ∈ db'.payments.get p.id, r.MayMove p.status q.status

/-- The event comes with an id that no payment carries and finds its payment at an
outcome that its handler overwrites. -/
def StripeEvent.Late (e : StripeEvent) (db : Db) : Prop :=
  (∀ q ∈ db.payments.rows, q.stripeEventId ≠ some e.id) ∧ match e.body with
  | .checkoutSessionCompleted session => ∃ p ∈ paymentOf session db,
    if session.paymentStatus = .paid then
      (p.status = .failed ∨ p.status = .refunded) ∧ ¬ SeatTaken p.reservationId db
    else p.status = .succeeded ∨ p.status = .failed ∨ p.status = .refunded
  | .checkoutSessionAsyncPaymentFailed session =>
    ∃ p ∈ paymentOf session db, p.status = .succeeded
  | .checkoutSessionExpired session =>
    ∃ p ∈ paymentOf session db, p.status = .succeeded ∨ p.status = .failed ∨ p.status = .refunded
  | .chargeDisputeCreated _ | .other => False

instance (r : BookingRequest) (s t : PaymentStatus) : Decidable (r.MayMove s t) :=
  inferInstanceAs (Decidable (_ ∧ _))

instance (r : BookingRequest) (db db' : Db) : Decidable (KeepsOutcomes r db db') :=
  inferInstanceAs (Decidable (∀ p ∈ db.payments.rows, ∃ q ∈ db'.payments.get p.id,
    r.MayMove p.status q.status))

theorem BookingRequest.mayMove_refl (r : BookingRequest) (s : PaymentStatus) : r.MayMove s s := by
  refine ⟨fun h => .inl h, fun _ h => ?_⟩
  rcases h with rfl | rfl <;> decide

/-- What an event may write over an outcome. -/
theorem mayMove_event_iff {constructed : Except String StripeEvent} {s t : PaymentStatus} :
    (BookingRequest.webhook constructed).MayMove s t ↔ (s = .succeeded → t = .succeeded) ∧
      (s = .failed ∨ s = .refunded →
        t ≠ .pending ∧ t ≠ .inProgress ∧ t ≠ .timedOut ∧ t ≠ .succeeded) := by
  simp [BookingRequest.MayMove, BookingRequest.isWebhook, BookingRequest.isCancel]

theorem keepsOutcomes_same {r : BookingRequest} {db db' : Db} (h : db'.payments = db.payments) :
    KeepsOutcomes r db db' := by
  intro p hp
  rw [h]
  exact ⟨p, get_of_mem hp, r.mayMove_refl _⟩

/-- Where one payment is written, the outcomes are kept exactly if its own is. -/
theorem keepsOutcomes_write_iff {r : BookingRequest} {db db' : Db} {p : Payment}
    {d : PaymentData} (hp : db.payments.get p.id = some p)
    (h : ∀ id, db'.payments.get id =
      if id = p.id then (db.payments.get id).map d.apply else db.payments.get id) :
    KeepsOutcomes r db db' ↔ r.MayMove p.status (d.apply p).status := by
  constructor
  · intro hkeep
    obtain ⟨q, hq, hmove⟩ := hkeep p (mem_of_get hp)
    rw [Option.mem_def, h, if_pos rfl, hp] at hq
    cases hq
    exact hmove
  · intro hmove q hq
    have hget : db.payments.get q.id = some q := get_of_mem hq
    by_cases hid : q.id = p.id
    · have hqp : q = p := Option.some.inj (hget.symm.trans (hid ▸ hp))
      subst hqp
      exact ⟨d.apply q, by rw [Option.mem_def, h, if_pos hid, hget, Option.map_some], hmove⟩
    · exact ⟨q, by rw [Option.mem_def, h, if_neg hid, hget], r.mayMove_refl _⟩

/-! ### Deliveries of events -/

section Delivered
variable {σ A : Type} (api : StripeApi σ A)

/-- A write of a status and a fresh event reaches its payment, if there is one. -/
theorem update_payments (session : CheckoutSessionObject) (s : PaymentStatus) {e : ℕ}
    {w : World σ} (hfresh : ∀ q ∈ w.db.payments.rows, q.stripeEventId ≠ some e)
    {f : Payment → M Unit} (hf : ∀ q, Quiet (f q)) {db' : Db}
    (hdb : db' = (perform api (PaymentsRepository.update session.paymentId
      { status := some s, stripeEventId := some (some e) } >>= f) w).2.db) :
    (paymentOf session w.db = none ∧ db'.payments = w.db.payments) ∨
      ∃ p, paymentOf session w.db = some p ∧ w.db.payments.get p.id = some p ∧
        ∀ id, db'.payments.get id = if id = p.id then (w.db.payments.get id).map
          (PaymentData.apply { status := some s, stripeEventId := some (some e) })
          else w.db.payments.get id := by
  subst hdb
  rw [perform_bind, perform_update]
  unfold paymentOf
  cases session.paymentId with
  | none => exact .inl ⟨rfl, rfl⟩
  | some n =>
    dsimp only [Option.bind_some]
    cases hp : w.db.payments.get n with
    | none =>
      rw [Db.paymentUpdate_missing hp]
      exact .inl ⟨rfl, rfl⟩
    | some p =>
      obtain ⟨db', hok⟩ := Db.paymentUpdate_ok
        { status := some s, stripeEventId := some (some e) } hp (not_clash_of_fresh hfresh)
      obtain ⟨_, -, -, -, ht⟩ := Db.paymentUpdate_eq_ok hok
      have hid : p.id = n := id_of_get hp
      refine .inr ⟨p, rfl, hid ▸ hp, fun id => ?_⟩
      rw [hok]
      simp only [World.commit]
      rw [perform_quiet api (hf _), ht, hid]
      exact get_modify (PaymentData.id_apply _) id

/-- What an event of the expired or the failed kind makes of the outcomes. -/
theorem update_keeps_iff {r : BookingRequest} {session : CheckoutSessionObject} {e : ℕ}
    {s : PaymentStatus} {w : World σ}
    (hfresh : ∀ q ∈ w.db.payments.rows, q.stripeEventId ≠ some e)
    {f : Payment → M Unit} (hf : ∀ q, Quiet (f q)) :
    KeepsOutcomes r w.db (perform api (PaymentsRepository.update session.paymentId
      { status := some s, stripeEventId := some (some e) } >>= f) w).2.db ↔
      ∀ p ∈ paymentOf session w.db, r.MayMove p.status s := by
  rcases update_payments api session s hfresh hf rfl with ⟨hnone, hsame⟩ | ⟨p, hp, hget, hwrite⟩
  · simp [hnone, keepsOutcomes_same hsame]
  · rw [keepsOutcomes_write_iff hget hwrite, hp]
    simp [PaymentData.apply]

theorem completed_missing {session : CheckoutSessionObject} {e : ℕ} {w : World σ}
    (hp : paymentOf session w.db = none) :
    (perform api (handleCheckoutCompleted e session) w).2 = w := by
  rw [handleCheckoutCompleted, perform_bind, paymentIdFrom, perform_findById, hp]
  cases session.paymentId <;> rfl

theorem completed_unpaid {session : CheckoutSessionObject} {e : ℕ} {p : Payment} {w : World σ}
    (hpaid : session.paymentStatus ≠ .paid) (hp : paymentOf session w.db = some p) :
    perform api (handleCheckoutCompleted e session) w =
      perform api (PaymentsRepository.update session.paymentId
        { status := some .inProgress, stripeEventId := some (some e) } >>= fun _ => pure ()) w := by
  obtain ⟨i, hi, -⟩ := Option.bind_eq_some_iff.mp hp
  rw [handleCheckoutCompleted, perform_bind, paymentIdFrom, perform_findById, hp]
  simp only [hi, hpaid, if_false]

theorem paid_keeps_iff {r : BookingRequest} {session : CheckoutSessionObject} {e : ℕ}
    {p : Payment} {w : World σ} (hpaid : session.paymentStatus = .paid)
    (hp : paymentOf session w.db = some p)
    (hfresh : ∀ q ∈ w.db.payments.rows, q.stripeEventId ≠ some e) :
    KeepsOutcomes r w.db (perform api (handleCheckoutCompleted e session) w).2.db ↔
      (¬ SeatTaken p.reservationId w.db → r.MayMove p.status .succeeded) := by
  obtain ⟨i, -, hi⟩ := Option.bind_eq_some_iff.mp hp
  have hget : w.db.payments.get p.id = some p := get_of_mem (mem_of_get hi)
  rcases paid_cases api hpaid hp hfresh with
    ⟨htaken, err, hrun⟩ | ⟨x, db₁, q, db₂, hfree, hx, hq, -, h2⟩
  · rw [hrun]
    exact iff_of_true (keepsOutcomes_same rfl) fun hfree => absurd htaken hfree
  · obtain ⟨_, -, -, -, ht₁⟩ := Db.reservationUpdate_eq_ok hx
    obtain ⟨_, -, -, -, ht₂⟩ := Db.paymentUpdate_eq_ok hq
    have hwrite : ∀ id, db₂.payments.get id = if id = p.id then (w.db.payments.get id).map
        (successData e session.paymentIntent).apply else w.db.payments.get id := by
      intro id
      rw [ht₂, ht₁]
      exact get_modify (PaymentData.id_apply _) id
    rw [h2, keepsOutcomes_write_iff hget hwrite]
    simp [hfree, PaymentData.apply, successData]

end Delivered

/-! ### Everything else -/

/-- In the middle of `r`, which has been answered `l`: the payment `p` stands, and none
of what `r` created or listed as stuck is `p` after it succeeded. -/
structure Standing (r : BookingRequest) (p : Payment) (l : Trail) (db : Db) : Prop where
  kept : ∃ q ∈ db.payments.get p.id, r.MayMove p.status q.status
  created : ∀ d x, ⟨.paymentCreate d, .ok x⟩ ∈ l → x.id ≠ p.id
  listed : p.status = .succeeded → ∀ cutoff ps, ⟨.findStuckTimedOut cutoff, .ok ps⟩ ∈ l →
    ∀ x ∈ ps, x.id ≠ p.id

section Others
variable {σ A : Type} (api : StripeApi σ A) {r : BookingRequest} {p : Payment} {l : Trail}
  {c : Cmd} {w : World σ}

theorem Standing.kept_step (hmarks : ∀ n s, r.Marks n s → s = .refunded ∧ r.isCancel)
    (hc : BookingCmd r c) (hg : Grounded r l c) (h : Standing r p l w.db) :
    ∃ q ∈ (World.exec api c w).2.db.payments.get p.id, r.MayMove p.status q.status := by
  obtain ⟨q, hq, hmove⟩ := h.kept
  have hrw := payment_step api hc hq
  generalize (World.exec api c w).2.db.payments.get p.id = after at hrw
  cases hrw with
  | keep => exact ⟨q, rfl, hmove⟩
  | update d =>
    refine ⟨d.apply q, rfl, ?_⟩
    cases hd : d.status with
    | none =>
      have hst : (d.apply q).status = q.status := by simp [PaymentData.apply, hd]
      rwa [hst]
    | some s =>
      have hst : (d.apply q).status = s := by simp [PaymentData.apply, hd]
      cases hc with
      | quiet hc => cases hc
      | payment _ _ hm =>
        obtain ⟨rfl, hcancel⟩ := hmarks _ _ (hm s hd)
        rw [hst]
        exact ⟨fun _ => .inr ⟨rfl, hcancel⟩, fun _ _ => by decide⟩
  | delete =>
    obtain ⟨d, x, hx, hid⟩ := hg
    exact absurd hid (h.created d x hx)
  | decline n =>
    have hr : r = .reconcilePayments := by
      cases hc with
      | quiet hc => cases hc
      | decline _ _ hr => exact hr
    obtain ⟨cutoff, ps, hps, x, hx, hid, -⟩ := hg
    subst hr
    refine ⟨_, rfl, fun hs => absurd hid (h.listed hs cutoff ps hps x hx), fun hs => ?_⟩
    cases hs
  | settle n i =>
    have hr : r = .reconcilePayments := by
      cases hc with
      | quiet hc => cases hc
      | settle _ _ _ hr => exact hr
    subst hr
    refine ⟨_, rfl, fun _ => .inl rfl, fun hs => ?_⟩
    cases hs

theorem Standing.step (hmarks : ∀ n s, r.Marks n s → s = .refunded ∧ r.isCancel)
    (hc : BookingCmd r c) (hg : Grounded r l c) (h : Standing r p l w.db) :
    Standing r p (l ++ [⟨c, (World.exec api c w).1⟩]) (World.exec api c w).2.db where
  kept := h.kept_step api hmarks hc hg
  created := by
    intro d x hx
    rcases List.mem_append.mp hx with hx | hx
    · exact h.created d x hx
    obtain ⟨q, hq, -⟩ := h.kept
    obtain ⟨rfl, hans⟩ := Sigma.mk.inj (List.mem_singleton.mp hx)
    obtain ⟨rfl, -, -⟩ := paymentCreate_exec api (Prod.ext (eq_of_heq hans).symm rfl)
    exact Nat.ne_of_gt (lt_serial_of_get hq)
  listed := by
    intro hs cutoff ps hps x hx hid
    rcases List.mem_append.mp hps with hps | hps
    · exact h.listed hs cutoff ps hps x hx hid
    obtain ⟨rfl, hans⟩ := Sigma.mk.inj (List.mem_singleton.mp hps)
    obtain rfl : ps = w.db.findStuckTimedOut cutoff := Except.ok.inj (eq_of_heq hans)
    obtain ⟨hmem, hstuck⟩ := List.mem_filter.mp hx
    obtain ⟨q, hq, hmove⟩ := h.kept
    have hx' : w.db.payments.get x.id = some x := get_of_mem hmem
    have hxq : x = q := Option.some.inj (hx'.symm.trans (hid ▸ hq))
    rw [← hxq] at hmove
    have hst : x.status = .timedOut := (of_decide_eq_true hstuck).1
    rcases hmove.1 hs with h' | ⟨h', -⟩ <;> rw [hst] at h' <;> cases h'

/-- Outside the deliveries that report an outcome, only a refund moves one. -/
theorem keepsOutcomes_of_marks (hmarks : ∀ n s, r.Marks n s → s = .refunded ∧ r.isCancel) :
    KeepsOutcomes r w.db (perform api r.handle w).2.db := by
  intro p hp
  have hstart : Standing r p [] w.db :=
    ⟨⟨p, get_of_mem hp, r.mayMove_refl _⟩, fun _ _ h => absurd h List.not_mem_nil,
      fun _ _ _ h => absurd h List.not_mem_nil⟩
  have honly : Informed (fun _ => BookingCmd r) [] r.handle :=
    .of_only (r.handle_only.mono fun c hc _ => hc)
  have hinformed := r.handle_grounded.and honly
  obtain ⟨l, hl⟩ := hinformed.run (World.exec api)
    (I := fun l v => Standing r p l v.db) (fun l c v hc h => h.step api hmarks hc.2 hc.1) hstart
  exact hl.kept

theorem webhook_keeps_iff (e : StripeEvent) :
    KeepsOutcomes (.webhook (.ok e)) w.db
      (perform api (BookingRequest.webhook (.ok e)).handle w).2.db ↔ ¬ e.Late w.db := by
  have hrun : (perform api (BookingRequest.webhook (.ok e)).handle w).2 =
      (perform api (handleWebhookEvent (.ok e)) w).2 := by
    show (perform api (handleWebhookEvent (.ok e) >>= fun _ => pure _) w).2 = _
    rw [perform_bind]
    rcases perform api (handleWebhookEvent (.ok e)) w with ⟨_ | _, _⟩ <;> rfl
  by_cases hseen : ∃ q ∈ w.db.payments.rows, q.stripeEventId = some e.id
  · rw [hrun, perform_processed api hseen]
    refine iff_of_true (keepsOutcomes_same rfl) fun hlate => ?_
    obtain ⟨q, hq, he⟩ := hseen
    exact hlate.1 q hq he
  have hfresh : ∀ q ∈ w.db.payments.rows, q.stripeEventId ≠ some e.id := by
    simpa using hseen
  obtain ⟨id, body⟩ := e
  cases body with
  | other | chargeDisputeCreated dispute =>
    refine iff_of_true (keepsOutcomes_of_marks api fun n s h => ?_) fun hlate => hlate.2
    cases h
  | checkoutSessionExpired session =>
    rw [hrun, perform_fresh api hfresh]
    refine Iff.trans (update_keeps_iff api hfresh ?_) ?_
    · exact fun q => trivial
    · rw [StripeEvent.Late, and_iff_right hfresh]
      simp [mayMove_event_iff, not_or]
  | checkoutSessionAsyncPaymentFailed session =>
    rw [hrun, perform_fresh api hfresh]
    refine Iff.trans (update_keeps_iff api hfresh fun q => ?_) ?_
    · refine Only.bind (ReservationsService.getById_quiet _) fun r => ?_
      exact PaymentAbuseService.recordFailure_quiet _
    · rw [StripeEvent.Late, and_iff_right hfresh]
      simp [mayMove_event_iff]
  | checkoutSessionCompleted session =>
    rw [hrun, perform_fresh api hfresh]
    show KeepsOutcomes _ w.db (perform api (handleCheckoutCompleted id session) w).2.db ↔ _
    cases hp : paymentOf session w.db with
    | none =>
      rw [completed_missing api hp]
      refine iff_of_true (keepsOutcomes_same rfl) fun hlate => ?_
      obtain ⟨p, hp', -⟩ := hlate.2
      rw [hp] at hp'
      cases hp'
    | some p =>
      by_cases hpaid : session.paymentStatus = .paid
      · rw [paid_keeps_iff api hpaid hp hfresh]
        rw [StripeEvent.Late, and_iff_right hfresh]
        simp [mayMove_event_iff, hp, hpaid]
        tauto
      · rw [completed_unpaid api hpaid hp]
        refine Iff.trans (update_keeps_iff api hfresh ?_) ?_
        · exact fun q => trivial
        · rw [StripeEvent.Late, and_iff_right hfresh]
          simp [mayMove_event_iff, hp, hpaid, not_or]

end Others

/-! ### Every history -/

section History
variable {σ A : Type} (api : StripeApi σ A)

/-- The outcomes of all payments are kept; the environment touches none. -/
def Turn.KeepsOutcomes : Turn BookingRequest A → World σ → World σ → Prop
  | .perform r _, w, w' => MovieReservation.KeepsOutcomes r w.db w'.db
  | .env _, w, w' => w'.db.payments = w.db.payments

def Turn.Late : Turn BookingRequest A → World σ → Prop
  | .perform (.webhook (.ok e)) _, w => e.Late w.db
  | _, _ => False

theorem turn_keepsOutcomes_iff {x : Turn BookingRequest A} {w w' : World σ}
    (h : turn api BookingRequest.handle x w = some w') : x.KeepsOutcomes w w' ↔ ¬ x.Late w := by
  cases x with
  | env e =>
    cases h
    refine iff_of_true ?_ id
    show (w.elapse api e).db.payments = w.db.payments
    rw [World.elapse_db]
  | perform r xs =>
    have hdb : w'.db = (perform api r.handle w).2.db := deliver_db api h
    show KeepsOutcomes r w.db w'.db ↔ _
    rw [hdb]
    cases r with
    | webhook constructed =>
      cases constructed with
      | ok e => exact webhook_keeps_iff api e
      | error message => exact iff_of_true (keepsOutcomes_of_marks api fun _ _ h => by cases h) id
    | cancel u n =>
      refine iff_of_true (keepsOutcomes_of_marks api fun _ s h => ?_) id
      exact ⟨h, rfl⟩
    | reserve | createCheckoutSession | expireHolds | reconcilePayments | getStatus | getSeatMap =>
      exact iff_of_true (keepsOutcomes_of_marks api fun _ _ h => by cases h) id

/-- In every history: no payment loses its outcome exactly if no event is late. -/
theorem outcomes_kept_iff (ys : List (Turn BookingRequest A)) (w : World σ) :
    Throughout api BookingRequest.handle Turn.KeepsOutcomes ys w ↔
      Throughout api BookingRequest.handle (fun x v _ => ¬ x.Late v) ys w :=
  throughout_congr (fun _ _ _ h => turn_keepsOutcomes_iff api h) ys w

end History

/-- A session is completed, unpaid at first, then its payment fails; the second event
comes first. -/
def failedFirst : List (Turn BookingRequest Account.Action) :=
  [.perform (.reserve 1 ⟨1, 1⟩) inOrder, .perform (.createCheckoutSession 1 1) [],
    .perform (.webhook (.ok ⟨2, .checkoutSessionAsyncPaymentFailed ⟨.unpaid, some 1, some 1⟩⟩)) []]

def completedLate : Turn BookingRequest Account.Action :=
  .perform (.webhook (.ok ⟨1, .checkoutSessionCompleted ⟨.unpaid, some 1, some 1⟩⟩)) []

/-- The failed payment is in progress again. -/
theorem failed_then_in_progress :
    ¬ ∀ ys, Throughout testMode BookingRequest.handle Turn.KeepsOutcomes ys theatre := by
  intro h
  have hturn : turn testMode BookingRequest.handle completedLate (afterTurns failedFirst) =
      some (afterTurns (failedFirst ++ [completedLate])) := by
    have hall : history testMode BookingRequest.handle (failedFirst ++ [completedLate]) theatre =
        some (afterTurns (failedFirst ++ [completedLate])) :=
      history_afterTurns (by decide +kernel)
    rw [history_append, history_afterTurns (by decide +kernel), Option.bind_some] at hall
    simpa [history] using hall
  have hlast := Throughout.last hturn (h _) (history_afterTurns (by decide +kernel))
  have hmoved : ¬ KeepsOutcomes (.webhook (.ok ⟨1, .checkoutSessionCompleted
      ⟨.unpaid, some 1, some 1⟩⟩)) (afterTurns failedFirst).db
      (afterTurns (failedFirst ++ [completedLate])).db := by decide +kernel
  exact hmoved hlast

end MovieReservation
