import MovieReservation.Lib.Effects
import MovieReservation.Properties.OtherUsers
import MovieReservation.Services.TestMode

/-! No free seats: a reservation is confirmed only on Stripe's word, in a webhook or in an
answer to the reconciliation, that a payment of it was paid; and such a payment comes from a
checkout that the holder of the reservation started. -/

namespace MovieReservation

open Lib Lib.Prog Lib.Table Lib.System

/-! ### On whose word -/

/-- Stripe said that a payment of reservation `n` was paid: the request is a webhook whose
session was, or the reconciliation has retrieved a session that was. -/
inductive Collected (n : ℕ) : Request → Trail → Prop
  | webhook {l : Trail} (eventId : ℕ) (session : CheckoutSessionObject) (p : Payment) :
    session.paymentStatus = .paid → p.reservationId = n →
      ⟨.paymentFindById session.paymentId, .ok (some p)⟩ ∈ l →
        Collected n (.booking (.webhook (.ok ⟨eventId, .checkoutSessionCompleted session⟩))) l
  | reconcile {l : Trail} (cutoff : Time) (stuck : List Payment) (p : Payment)
    (session : Session) : session.paymentStatus = .paid → p.reservationId = n → p ∈ stuck →
      ⟨.findStuckTimedOut cutoff, .ok stuck⟩ ∈ l →
        ⟨.sessionsRetrieve p.stripeSessionId, .ok session⟩ ∈ l →
          Collected n (.booking .reconcilePayments) l

theorem Collected.append {n : ℕ} {op : Request} {l : Trail} (h : Collected n op l) (l' : Trail) :
    Collected n op (l ++ l') := by
  cases h with
  | webhook eventId session p hpaid hn hread =>
    exact .webhook eventId session p hpaid hn (List.mem_append_left _ hread)
  | reconcile cutoff stuck p session hpaid hn hp hstuck hread =>
    exact .reconcile cutoff stuck p session hpaid hn hp (List.mem_append_left _ hstuck)
      (List.mem_append_left _ hread)

/-- What was answered before a reservation is confirmed. -/
def Vouched (op : Request) (l : Trail) : Cmd → Prop
  | .reservationUpdate n d => d.status = some .confirmed → Collected n op l
  | .confirmWithReservation _ n _ => Collected n op l
  | _ => True

section Vouched
variable {op : Request} {l : Trail}

theorem vouched_quiet {c : Cmd} (hc : c.quiet = true) : Vouched op l c := by
  cases c <;> trivial

theorem confirmPayment_vouched {n : ℕ} (h : Collected n op l) :
    Informed (Vouched op) l (ReservationsService.confirmPayment n) := by
  unfold ReservationsService.confirmPayment
  exact informed_issue_bind (fun _ => h) fun r => informed_issue_bind trivial fun _ => trivial

theorem handleCheckoutCompleted_vouched (eventId : ℕ) (session : CheckoutSessionObject) :
    Informed (Vouched (.booking (.webhook (.ok ⟨eventId, .checkoutSessionCompleted session⟩)))) l
      (PaymentsService.handleCheckoutCompleted eventId session) := by
  unfold PaymentsService.handleCheckoutCompleted
  refine informed_issue_bind trivial fun found => ?_
  cases found with
  | none => trivial
  | some payment =>
    change Informed _ _ (ite _ _ _)
    split_ifs with hpaid
    · have hread : (⟨.paymentFindById session.paymentId, .ok (some payment)⟩ :
          Answer Cmd Cmd.Reply Err) ∈
            l ++ [⟨.paymentFindById session.paymentId, .ok (some payment)⟩] := by simp
      refine (confirmPayment_vouched (.webhook eventId session payment hpaid rfl hread)).bind
        fun _ _ => ?_
      exact informed_issue_bind trivial fun _ => trivial
    · exact informed_issue_bind trivial fun _ => trivial

theorem recordFailure_vouched (u : ℕ) :
    Informed (Vouched op) l (PaymentAbuseService.recordFailure u) :=
  .of_only ((PaymentAbuseService.recordFailure_quiet u).mono fun _ hc _ => vouched_quiet hc)

/-- The reconciliation of one payment of the list confirms what Stripe says was paid. -/
theorem reconcile_vouched {cutoff : Time} {stuck : List Payment} {p : Payment} (hp : p ∈ stuck)
    (hl : ⟨.findStuckTimedOut cutoff, .ok stuck⟩ ∈ l) :
    Informed (Vouched (.booking .reconcilePayments)) l (PaymentsService.reconcile p) := by
  unfold PaymentsService.reconcile
  refine informed_issue_bind trivial fun session => ?_
  split_ifs with hpaid
  · refine informed_issue_bind ?_ fun x => ⟨trivial, fun _ => trivial⟩
    exact .reconcile cutoff stuck p session hpaid rfl hp (List.mem_append_left _ hl)
      (List.mem_append_right _ (List.mem_singleton_self _))
  · refine informed_issue_bind trivial fun x => ?_
    exact informed_issue_bind trivial fun _ => recordFailure_vouched _

theorem handle_vouched : ∀ op : Request, Informed (Vouched op) [] op.handle
  | .admin op => .of_only <| op.handle_only.mono fun c hc l' => by
    cases hc with
    | read hquiet _ => exact vouched_quiet hquiet
    | _ => trivial
  | .booking op => by
    have hother : ∀ c, BookingCmd op c → (∀ event, op ≠ .webhook event) →
        op ≠ .reconcilePayments → ∀ l', Vouched (.booking op) ([] ++ l') c := by
      intro c hc hwebhook hreconcile l'
      cases hc with
      | quiet hquiet => exact vouched_quiet hquiet
      | confirm id hconfirm =>
        obtain ⟨event, he⟩ := hconfirm
        exact absurd he (hwebhook event)
      | settle p id i hsettle => exact absurd hsettle hreconcile
      | cancel id _ => nofun
      | extend id t _ => nofun
      | _ => trivial
    cases op with
    | webhook constructed =>
      refine Informed.bind ?_ fun _ _ => trivial
      cases constructed with
      | error m => trivial
      | ok event =>
        obtain ⟨eventId, body⟩ := event
        refine informed_issue_bind trivial fun found => ?_
        split_ifs
        · trivial
        · cases body with
          | checkoutSessionCompleted session => exact handleCheckoutCompleted_vouched _ session
          | checkoutSessionAsyncPaymentFailed session =>
            refine informed_issue_bind trivial fun payment => ?_
            refine Informed.bind (.of_only ?_) fun _ _ => recordFailure_vouched _
            exact (ReservationsService.getById_quiet _).mono fun _ hc _ => vouched_quiet hc
          | checkoutSessionExpired session =>
            exact informed_issue_bind trivial fun _ => trivial
          | chargeDisputeCreated dispute =>
            refine informed_issue_bind trivial fun payment => ?_
            cases payment with
            | none => trivial
            | some payment =>
              refine informed_issue_bind trivial fun _ => ?_
              exact informed_issue_bind trivial fun _ => trivial
          | other => trivial
    | reconcilePayments =>
      refine Informed.bind (Informed.tryCatch ?_ fun _ _ => trivial) fun _ _ => trivial
      unfold PaymentsService.reconcileTimedOutPayments
      refine informed_issue_bind trivial fun t => informed_issue_bind trivial fun stuck => ?_
      refine informed_forM_mem (I := fun l => ∃ cutoff, ⟨.findStuckTimedOut cutoff, .ok stuck⟩ ∈ l)
        (fun l l' ⟨cutoff, hmem⟩ => ⟨cutoff, List.mem_append_left _ hmem⟩)
        (fun p hp l ⟨cutoff, hmem⟩ => reconcile_vouched hp hmem)
        ⟨_, List.mem_append_right _ (List.mem_singleton_self _)⟩
    | reserve | cancel | createCheckoutSession | expireHolds | getStatus | getSeatMap =>
      exact .of_only ((BookingRequest.handle_only _).mono fun c hc => hother c hc nofun nofun)

end Vouched

/-! ### Whose checkout -/

/-- The holder of reservation `n` has asked for a checkout of it. -/
def Opened (ops : List Request) (db : Db) (n : ℕ) : Prop :=
  ∃ u, .booking (.createCheckoutSession u n) ∈ ops ∧ n < db.reservations.serial ∧
    ∀ r, db.reservations.get n = some r → r.userId = u

/-- The payments that were read come from such a checkout. -/
def ReadOpened (ops : List Request) (db : Db) : Answer Cmd Cmd.Reply Err → Prop
  | ⟨.paymentFindById _, .ok (some p)⟩ => Opened ops db p.reservationId
  | ⟨.findStuckTimedOut _, .ok stuck⟩ => ∀ p ∈ stuck, Opened ops db p.reservationId
  | _ => True

/-- Every payment comes from a checkout of the holder, and every confirmed reservation from
the word of Stripe. -/
structure CollectedSales (ops : List Request) (tr : Log) (db : Db) : Prop where
  opened : ∀ m p, db.payments.get m = some p → Opened ops db p.reservationId
  read : ∀ a ∈ tr, ReadOpened ops db a.2
  still : ∀ a ∈ tr, StillTrue db a.2
  confirmed : ∀ n r, db.reservations.get n = some r → r.status = .confirmed →
    ∃ i op, ops[i]? = some op ∧ Collected n op (own i tr)

section CollectedSales
variable {σ A : Type} {ops : List Request} {tr : Log} {db db' : Db}

theorem Opened.evolves {n : ℕ} (h : Opened ops db n) (he : db.Evolves db') :
    Opened ops db' n := by
  obtain ⟨u, hop, hlt, hkept⟩ := h
  refine ⟨u, hop, Nat.lt_of_lt_of_le hlt he.reservations.serial, fun r hr => ?_⟩
  obtain ⟨s, hs, heq⟩ := he.reservations.row n hlt r hr
  rw [← hkept s hs]
  exact (Prod.mk.inj (Prod.mk.inj heq).2).2

theorem ReadOpened.imp {ops' : List Request} {a : Answer Cmd Cmd.Reply Err}
    (himp : ∀ n, Opened ops db n → Opened ops' db' n) (h : ReadOpened ops db a) :
    ReadOpened ops' db' a := by
  obtain ⟨c, r⟩ := a
  cases c with
  | paymentFindById n =>
    rcases r with e | ⟨_ | p⟩
    · trivial
    · trivial
    · exact himp _ h
  | findStuckTimedOut cutoff =>
    rcases r with e | stuck
    · trivial
    · exact fun p hp => himp _ (h p hp)
  | _ => trivial

theorem readOpened_error (c : Cmd) (e : Err) : ReadOpened ops db ⟨c, .error e⟩ := by
  cases c <;> trivial

theorem stillTrue_error (c : Cmd) (e : Err) : StillTrue db ⟨c, .error e⟩ := by
  cases c <;> trivial

/-- What a command answers are payments of the database. -/
theorem readOpened_exec (api : StripeApi σ A) (c : Cmd) {w : World σ}
    (h : ∀ m p, w.db.payments.get m = some p → Opened ops w.db p.reservationId) :
    ReadOpened ops (World.exec api c w).2.db ⟨c, (World.exec api c w).1⟩ := by
  cases c with
  | paymentFindById n =>
    cases n with
    | none => trivial
    | some n =>
      change ReadOpened ops w.db ⟨.paymentFindById (some n), .ok (w.db.payments.get n)⟩
      cases hp : w.db.payments.get n with
      | none => trivial
      | some p => exact h n p hp
  | findStuckTimedOut cutoff =>
    intro p hp
    exact h p.id p (get_of_mem (List.mem_filter.mp hp).1)
  | _ => trivial

theorem accounted_start {w : World σ} (hpayments : w.db.payments.rows = [])
    (hconfirmed : ∀ n r, w.db.reservations.get n = some r → r.status ≠ .confirmed) :
    CollectedSales [] [] w.db where
  opened m p hp := by
    have hmem := mem_of_get hp
    rw [hpayments] at hmem
    cases hmem
  read := List.forall_mem_nil _
  still := List.forall_mem_nil _
  confirmed n r hr hst := absurd hst (hconfirmed n r hr)

theorem CollectedSales.spawn (h : CollectedSales ops tr db) (op : Request) :
    CollectedSales (ops ++ [op]) tr db := by
  have hmore : ∀ n, Opened ops db n → Opened (ops ++ [op]) db n := by
    rintro n ⟨u, hop, hrest⟩
    exact ⟨u, List.mem_append_left _ hop, hrest⟩
  refine ⟨fun m p hp => hmore _ (h.opened m p hp), fun a ha => (h.read a ha).imp hmore,
    h.still, fun n r hr hst => ?_⟩
  obtain ⟨i, op', hi, hcollected⟩ := h.confirmed n r hr hst
  have hlt := (List.getElem?_eq_some_iff.mp hi).1
  exact ⟨i, op', (List.getElem?_append_left hlt).trans hi, hcollected⟩

/-- An answer adds to what its process has read. -/
theorem Collected.snoc {n i j : ℕ} {op : Request} {a : Answer Cmd Cmd.Reply Err}
    (h : Collected n op (own i tr)) : Collected n op (own i (tr ++ [(j, a)])) := by
  rw [own_append]
  exact h.append _

theorem CollectedSales.lost (h : CollectedSales ops tr db) (i : ℕ) (c : Cmd) (e : Err) :
    CollectedSales ops (tr ++ [(i, ⟨c, .error e⟩)]) db := by
  refine ⟨h.opened, ?_, ?_, fun n r hr hst => ?_⟩
  · rw [List.forall_mem_append]
    exact ⟨h.read, List.forall_mem_singleton.mpr (readOpened_error c e)⟩
  · rw [List.forall_mem_append]
    exact ⟨h.still, List.forall_mem_singleton.mpr (stillTrue_error c e)⟩
  · obtain ⟨j, op, hj, hcollected⟩ := h.confirmed n r hr hst
    exact ⟨j, op, hj, hcollected.snoc⟩

end CollectedSales

/-! ### Whole runs -/

section Run
variable {σ A : Type} (api : StripeApi σ A) {ops : List Request} {tr : Log} {w : World σ}
  {i : ℕ} {op : Request} {c : Cmd} {k : Except Err c.Reply → M Response}

/-- A payment that is there after a command was there before, or was created now for the
holder, who asked for it. -/
theorem opened_step (h : CollectedSales ops tr w.db) (hi : ops[i]? = some op)
    (hpath : Follows op.handle (own i tr) (.call c k)) {m : ℕ} {p : Payment}
    (hp : (World.exec api c w).2.db.payments.get m = some p) :
    Opened ops w.db p.reservationId := by
  have hkept : ∀ p₀, w.db.payments.get m = some p₀ → Opened ops w.db p.reservationId := by
    intro p₀ hp₀
    obtain ⟨p₁, hp₁, heq⟩ :=
      (World.exec_evolves api c w).payments.row m (lt_serial_of_get hp₀) p hp
    rw [(Prod.mk.inj heq).1]
    exact h.opened m p₁ hp₁
  cases op with
  | admin op =>
    have hc : AdminCmd op c := (hpath.only_rest op.handle_only).1
    exact hkept p ((hc.fewer api w).payments m p hp)
  | booking op =>
    have hc : BookingCmd op c := (hpath.only_rest op.handle_only).1
    cases hp₀ : w.db.payments.get m with
    | some p₀ => exact hkept p₀ hp₀
    | none =>
      obtain ⟨d, rfl, -, rfl, -⟩ := payment_born api hc hp₀ hp
      cases hc with
      | quiet hquiet => cases hquiet
      | pay _ hcheckout =>
        obtain ⟨u, rfl⟩ := hcheckout
        have hown : Owns u d.reservationId (own i tr) :=
          (BookingRequest.handle_own (.concerns .createCheckoutSession)).path hpath
        have hread : ∀ a ∈ own i tr, StillTrue w.db a := fun a ha => h.still _ (mem_own.mp ha)
        refine ⟨u, List.mem_of_getElem? hi, ?_, fun r hr => hown.owner hread hr⟩
        obtain ⟨id, r, hmem, -, hn⟩ := hown
        obtain ⟨hid, hlt, -⟩ := hread _ hmem
        have hid' : d.reservationId = id := hn.elim (·) fun he => he.trans hid
        rwa [← hid'] at hlt

/-- A reservation that is confirmed after a command was so before, or Stripe has vouched for
it. -/
theorem confirmed_step (h : CollectedSales ops tr w.db) (hi : ops[i]? = some op)
    (hpath : Follows op.handle (own i tr) (.call c k)) {n : ℕ} {r : Reservation}
    (hr : (World.exec api c w).2.db.reservations.get n = some r) (hst : r.status = .confirmed) :
    ∃ j op', ops[j]? = some op' ∧ Collected n op' (own j tr) := by
  have hvouched : Vouched op (own i tr) c := (handle_vouched op).path hpath
  have hc : RequestCmd op c := (hpath.only_rest op.handle_only).1
  rcases hc.reservation api hr with ⟨r₀, hr₀, hrw⟩ | ⟨p, -, -, rfl⟩
  · cases hrw with
    | keep => exact h.confirmed n r hr₀ hst
    | lapse => cases hst
    | extend t => exact h.confirmed n r₀ hr₀ hst
    | cancel => cases hst
    | decline => cases hst
    | confirm => exact ⟨i, op, hi, hvouched rfl⟩
    | settle => exact ⟨i, op, hi, hvouched⟩
  · cases hst

theorem CollectedSales.exec (h : CollectedSales ops tr w.db) (hi : ops[i]? = some op)
    (hpath : Follows op.handle (own i tr) (.call c k)) {r : Except Err c.Reply}
    (hr : r = (World.exec api c w).1 ∨ ∃ e, r = .error e) :
    CollectedSales ops (tr ++ [(i, ⟨c, r⟩)]) (World.exec api c w).2.db := by
  have he : w.db.Evolves (World.exec api c w).2.db := World.exec_evolves api c w
  have hopened : ∀ n, Opened ops w.db n → Opened ops (World.exec api c w).2.db n :=
    fun n hn => hn.evolves he
  refine ⟨fun m p hp => hopened _ (opened_step api h hi hpath hp), ?_, ?_, fun n s hs hst => ?_⟩
  · rw [List.forall_mem_append]
    refine ⟨fun a ha => (h.read a ha).imp hopened, List.forall_mem_singleton.mpr ?_⟩
    rcases hr with rfl | ⟨e, rfl⟩
    · exact readOpened_exec api c h.opened
    · exact readOpened_error c e
  · rw [List.forall_mem_append]
    refine ⟨fun a ha => (h.still a ha).evolves he, List.forall_mem_singleton.mpr ?_⟩
    rcases hr with rfl | ⟨e, rfl⟩
    · exact stillTrue_exec api c w
    · exact stillTrue_error c e
  · obtain ⟨j, op', hj, hcollected⟩ := confirmed_step api h hi hpath hs hst
    exact ⟨j, op', hj, hcollected.snoc⟩

theorem accounted_run {w : World σ} (hpayments : w.db.payments.rows = [])
    (hconfirmed : ∀ n r, w.db.reservations.get n = some r → r.status ≠ .confirmed)
    {xs : List (Choice Err Request (Env A))}
    {q : Pool Cmd Cmd.Reply Err (World σ) Request Response}
    (hx : (serviceSystem api).schedule xs ⟨w, []⟩ = some q) :
    CollectedSales (q.procs.map Prod.fst) ((serviceSystem api).trace xs ⟨w, []⟩) q.state.db := by
  refine history_rule (I := fun ops tr _ t => CollectedSales ops tr t.db) ?_ ?_ ?_ ?_ ?_ hx
  · exact accounted_start hpayments hconfirmed
  · intro ops tr _ t op h
    exact h.spawn op
  · intro ops tr _ t e h
    rw [show ((serviceSystem api).env e t).db = t.db from World.elapse_db api e t]
    exact h
  · intro ops tr _ t i op c k e _ _ h
    exact h.lost i c e
  · intro ops tr _ t i op c k r hi hpath hr h
    exact h.exec api hi hpath hr

/-- What a process has read of a payment that Stripe said was paid. -/
theorem Collected.opened {n : ℕ} {db : Db} (h : Collected n op (own i tr))
    (hread : ∀ a ∈ tr, ReadOpened ops db a.2) : Opened ops db n := by
  cases h with
  | webhook eventId session p _ hn hmem =>
    subst hn
    exact hread _ (mem_own.mp hmem)
  | reconcile cutoff stuck p session _ hn hp hstuck _ =>
    subst hn
    exact hread _ (mem_own.mp hstuck) p hp

/-- **No free seats**: whoever has a confirmed reservation asked for its checkout, and it was
confirmed on Stripe's word that a payment of it was paid. -/
theorem confirmed_on_stripes_word (w : World σ) (hpayments : w.db.payments.rows = [])
    (hconfirmed : ∀ n r, w.db.reservations.get n = some r → r.status ≠ .confirmed)
    (xs : List (Choice Err Request (Env A)))
    (q : Pool Cmd Cmd.Reply Err (World σ) Request Response)
    (hx : (serviceSystem api).schedule xs ⟨w, []⟩ = some q) (n : ℕ) (r : Reservation)
    (hr : q.state.db.reservations.get n = some r) (hst : r.status = .confirmed) :
    .booking (.createCheckoutSession r.userId n) ∈ q.procs.map Prod.fst ∧
      ∃ i op k, q.procs[i]? = some (op, k) ∧
        Collected n op (own i ((serviceSystem api).trace xs ⟨w, []⟩)) := by
  have haccounted := accounted_run api hpayments hconfirmed hx
  obtain ⟨i, op, hi, hcollected⟩ := haccounted.confirmed n r hr hst
  obtain ⟨u, hop, -, howner⟩ := hcollected.opened haccounted.read
  rw [List.getElem?_map, Option.map_eq_some_iff] at hi
  obtain ⟨⟨op', k⟩, hi, rfl⟩ := hi
  exact ⟨howner r hr ▸ hop, i, op', k, hi, hcollected⟩

end Run

/-- User 1 holds seat 1, opens the checkout, pays it, and Stripe's webhook comes in. -/
def soldOnce : List (Choice Err Request (Env Account.Action)) :=
  .spawn (.booking (.reserve 1 ⟨1, 1⟩)) :: solo 0 8 ++
    .spawn (.booking (.createCheckoutSession 1 1)) :: solo 1 8 ++
      .env (.stripe (.pay 1)) :: .spawn (.booking (.webhook (.ok sessionPaid))) :: solo 2 5

theorem soldOnce_on_stripes_word : ∃ q r, (serviceSystem testMode).schedule soldOnce
    ⟨theatre, []⟩ = some q ∧ q.state.db.reservations.get 1 = some r ∧ r.status = .confirmed ∧
      .booking (.createCheckoutSession r.userId 1) ∈ q.procs.map Prod.fst ∧
      ∃ i op k, q.procs[i]? = some (op, k) ∧
        Collected 1 op (own i ((serviceSystem testMode).trace soldOnce ⟨theatre, []⟩)) := by
  have hrun : ((serviceSystem testMode).schedule soldOnce ⟨theatre, []⟩).any fun q =>
      (q.state.db.reservations.get 1).any fun r => r.status = .confirmed := by decide +kernel
  obtain ⟨q, hq, hrun⟩ := (Option.any_eq_true _ _).mp hrun
  obtain ⟨r, hr, hst⟩ := (Option.any_eq_true _ _).mp hrun
  have hnone : theatre.db.reservations.rows = [] := by decide +kernel
  have hstart : ∀ n r, theatre.db.reservations.get n = some r → r.status ≠ .confirmed := by
    intro n r hr
    have hmem := mem_of_get hr
    rw [hnone] at hmem
    cases hmem
  exact ⟨q, r, hq, hr, of_decide_eq_true hst, confirmed_on_stripes_word testMode theatre
    (by decide +kernel) hstart soldOnce q hq 1 r hr (of_decide_eq_true hst)⟩

end MovieReservation
