import MovieReservation.Properties.OneSale

/-! No holder loses a held seat early. The sweep compares the deadline itself; the
reconciliation cancels by the status of the payment alone, so it rests on an invariant:
no deadline lies behind the expiry of the checkout session of a payment that is still
there, and a payment is TIMED_OUT only when its session has expired. -/

namespace MovieReservation

open Lib Lib.Prog Lib.System Lib.Table PaymentsService

variable {σ A : Type} {api : StripeApi σ A}

/-! ### What Stripe is trusted with -/

def openedSession : Answer Cmd Cmd.Reply Err → Option CheckoutParams
  | ⟨.sessionsCreate params, _⟩ => some params
  | _ => none

/-- A session was opened for the payment, and its `expires_at` has come. -/
def Due (tr : Log) (now : Time) (paymentId : ℕ) : Prop :=
  ∃ a ∈ tr, ∃ params ∈ openedSession a.2, params.paymentId = paymentId ∧
    params.expiresAt * 1000 ≤ now

instance (tr : Log) (now : Time) (paymentId : ℕ) : Decidable (Due tr now paymentId) :=
  inferInstanceAs (Decidable (∃ a ∈ tr, ∃ params ∈ openedSession a.2,
    params.paymentId = paymentId ∧ params.expiresAt * 1000 ≤ now))

/-- A session is reported as expired not before the time it was created to expire at. -/
def Punctual (tr : Log) (w : World σ) : BookingRequest → Prop
  | .webhook (.ok ⟨_, .checkoutSessionExpired session⟩) =>
    ∀ n ∈ session.paymentId, Due tr w.now n
  | _ => True

instance (tr : Log) (w : World σ) (op : BookingRequest) : Decidable (Punctual tr w op) := by
  unfold Punctual
  split <;> infer_instance

theorem due_iff {tr : Log} {now : Time} {paymentId : ℕ} :
    Due tr now paymentId ↔ ∃ i params rep, (i, ⟨.sessionsCreate params, rep⟩) ∈ tr ∧
      params.paymentId = paymentId ∧ params.expiresAt * 1000 ≤ now := by
  constructor
  · rintro ⟨⟨i, ⟨c, rep⟩⟩, hmem, params, hp, hid, hle⟩
    cases c
    case sessionsCreate params' =>
      cases hp
      exact ⟨i, params, rep, hmem, hid, hle⟩
    all_goals cases hp
  · rintro ⟨i, params, rep, hmem, hid, hle⟩
    exact ⟨_, hmem, params, rfl, hid, hle⟩

theorem Due.mono {tr : Log} {now later : Time} {n : ℕ} (h : Due tr now n) (l : Log)
    (hle : now ≤ later) : Due (tr ++ l) later n := by
  obtain ⟨a, hmem, params, hp, hid, hdue⟩ := h
  exact ⟨a, List.mem_append_left _ hmem, params, hp, hid, le_trans hdue hle⟩

theorem Punctual.mono {tr : Log} {w w' : World σ} {op : BookingRequest} (h : Punctual tr w op)
    (l : Log) (hle : w.now ≤ w'.now) : Punctual (tr ++ l) w' op := by
  unfold Punctual at h ⊢
  split
  · intro n hn
    exact (h n hn).mono l hle
  · trivial

/-! ### The invariant -/

theorem expiry_mono {s t : ℤ} (h : s ≤ t) : expiry s * 1000 ≤ expiry t * 1000 := by
  unfold expiry checkoutExpiryMinutes
  omega

/-- A fresh hold ends before a session that is opened later. -/
theorem hold_le_expiry {s t : ℤ} (h : s ≤ t) :
    s + ReservationsService.holdMinutes * 60000 ≤ expiry t * 1000 := by
  have hold : (ReservationsService.holdMinutes : ℤ) = 10 := rfl
  rw [hold]
  unfold expiry checkoutExpiryMinutes
  omega

structure Timely (tr : Log) (w : World σ) : Prop where
  sales : Sales tr w.db
  deadlines : Deadlines w.db
  clock : ∀ i t, (i, ⟨.dateNow, .ok t⟩) ∈ tr → t ≤ w.now
  bound : ∀ id r u, w.db.reservations.get id = some r → r.heldUntil = some u →
    u ≤ expiry w.now * 1000
  /-- Of a payment that is there the creator, once it has read the clock, promises an
  expiry that no deadline of the reservation lies behind. -/
  promised : ∀ i d payment t r u, (i, ⟨.paymentCreate d, .ok payment⟩) ∈ tr →
    (i, ⟨.dateNow, .ok t⟩) ∈ tr → (w.db.payments.get payment.id).isSome →
    w.db.reservations.get d.reservationId = some r → r.heldUntil = some u → u ≤ expiry t * 1000
  expired : ∀ p ∈ w.db.payments.rows, p.status = .timedOut → Due tr w.now p.id
  read : ∀ i cutoff ps p, (i, ⟨.findStuckTimedOut cutoff, .ok ps⟩) ∈ tr → p ∈ ps →
    Due tr w.now p.id ∧ p.id < w.db.payments.serial ∧
      ∀ q ∈ w.db.payments.get p.id, q.reservationId = p.reservationId
  owner : ∀ i n r₀, (i, ⟨.reservationFindById n, .ok (some r₀)⟩) ∈ tr → r₀.id = n ∧
    n < w.db.reservations.serial ∧ ∀ r ∈ w.db.reservations.get n, r.userId = r₀.userId

theorem payments_of_no_reservations {db : Db} (h : db.reservations.rows = []) :
    db.payments.rows = [] := by
  rw [List.eq_nil_iff_forall_not_mem]
  intro p hp
  obtain ⟨r, hr⟩ := Option.isSome_iff_exists.mp (db.payment_reservation p hp)
  have hmem := mem_of_get hr
  rw [h] at hmem
  cases hmem

theorem timely_start {w : World σ} (h : w.db.reservations.rows = []) : Timely [] w where
  sales := sales_start w.db
  deadlines r hr := by rw [h] at hr; cases hr
  clock i t ht := by cases ht
  bound id r u hr hu := by
    have hmem := mem_of_get hr
    rw [h] at hmem
    cases hmem
  promised i d payment t r u hp := by cases hp
  expired p hp := by
    rw [payments_of_no_reservations h] at hp
    cases hp
  read i cutoff ps p hps := by cases hps
  owner i n r₀ h := by cases h

theorem elapse_now (api : StripeApi σ A) (e : Env A) (w : World σ) :
    w.now ≤ (w.elapse api e).now := by
  cases e with
  | advance ms => exact Int.le_add_of_nonneg_right (Int.natCast_nonneg ms)
  | evict k => exact le_refl _
  | stripe a => exact le_refl _

theorem timely_env {tr : Log} {w : World σ} (h : Timely tr w) (e : Env A) :
    Timely tr (w.elapse api e) := by
  have hnow : w.now ≤ (w.elapse api e).now := elapse_now api e w
  have hdb : (w.elapse api e).db = w.db := World.elapse_db api e w
  constructor
  · rw [hdb]
    exact h.sales
  · rw [hdb]
    exact h.deadlines
  · intro i t ht
    exact le_trans (h.clock i t ht) hnow
  · intro id r u hr hu
    rw [hdb] at hr
    exact le_trans (h.bound id r u hr hu) (expiry_mono hnow)
  · intro i d payment t r u hp ht hsome hr hu
    rw [hdb] at hsome hr
    exact h.promised i d payment t r u hp ht hsome hr hu
  · intro p hp hst
    rw [hdb] at hp
    have := (h.expired p hp hst).mono [] hnow
    rwa [List.append_nil] at this
  · intro i cutoff ps p hps hp
    obtain ⟨hdue, hrest⟩ := h.read i cutoff ps p hps hp
    rw [hdb]
    refine ⟨?_, hrest⟩
    have := hdue.mono [] hnow
    rwa [List.append_nil] at this
  · intro i n r₀ hmem
    rw [hdb]
    exact h.owner i n r₀ hmem

/-! ### One command -/

section Step
variable {tr : Log} {w : World σ} {i : ℕ} {op : BookingRequest} {c : Cmd}
  {k : Except Err c.Reply → M Response} {o : Outcome Err} {out : Except Err c.Reply × World σ}

theorem finish_now (hout : (bookingSystem api).finish i c w o = some out) : out.2.now = w.now := by
  rcases finish_state _ hout with hs | hs
  · rw [hs]
  · rw [hs]
    exact World.exec_now api c w

/-- What the seller knows when it extends the hold. -/
theorem seller_knows {id : ℕ} {t : Time} {k : Except Err Reservation → M Response}
    (hpath : Follows op.handle (own i tr)
      (.call (.reservationUpdate id { heldUntil := some (some t) }) k)) :
    ∃ screening payment now,
      (i, ⟨.paymentCreate (checkoutPayment id screening), .ok payment⟩) ∈ tr ∧
      t = expiry now * 1000 ∧ (∀ t', (i, ⟨.dateNow, .ok t'⟩) ∈ tr ↔ t' = now) ∧
      ∀ rep, (i, ⟨.paymentDelete payment.id, rep⟩) ∉ tr := by
  obtain ⟨r, screening, payment, now, s, p, -, ht, hown⟩ := extend_path hpath
  refine ⟨screening, payment, now, ?_, ht, fun t' => ?_, fun rep hdel => ?_⟩
  · rw [← mem_own, hown]
    simp [opened]
  · rw [← mem_own, hown]
    simp [opened]
  · rw [← mem_own, hown] at hdel
    simp [opened] at hdel

theorem Timely.clock_step (h : Timely tr w)
    (hout : (bookingSystem api).finish i c w o = some out) (j : ℕ) (t : Time)
    (ht : (j, ⟨.dateNow, .ok t⟩) ∈ tr ++ [(i, ⟨c, out.1⟩)]) : t ≤ out.2.now := by
  rw [finish_now hout]
  rcases mem_snoc ht with hold | ⟨rfl, he⟩
  · exact h.clock j t hold
  · obtain ⟨rfl, hans⟩ := Sigma.mk.inj he
    obtain ⟨hexec, -⟩ := finish_ok _ hout (eq_of_heq hans).symm
    have hnow : w.now = t := Except.ok.inj (Prod.mk.inj hexec).1
    exact le_of_eq hnow.symm

theorem Timely.bound_step (h : Timely tr w) (hpath : Follows op.handle (own i tr) (.call c k))
    (hout : (bookingSystem api).finish i c w o = some out) {id : ℕ} {s : Reservation} {u : Time}
    (hs : out.2.db.reservations.get id = some s) (hu : s.heldUntil = some u) :
    u ≤ expiry out.2.now * 1000 := by
  have hc : BookingCmd op c := (hpath.only_rest op.handle_only).1
  rw [finish_now hout]
  rcases finish_state _ hout with hstate | hstate
  · rw [hstate] at hs
    exact h.bound id s u hs hu
  rw [hstate] at hs
  cases hr : w.db.reservations.get id with
  | none =>
    obtain ⟨p, rfl, -, rfl⟩ := reservation_born api hc hr hs
    obtain ⟨t, ht, hp⟩ := op.handle_grounded.path hpath
    cases hu
    rw [hp]
    exact hold_le_expiry (h.clock i t (mem_own.mp ht))
  | some r =>
    obtain ⟨s', hs', hrw⟩ := reservation_step api hc hr
    cases hs.symm.trans hs'
    cases hrw with
    | keep => exact h.bound id s u hr hu
    | lapse => cases hu
    | extend t =>
      obtain ⟨_, _, now, -, ht, hnow, -⟩ := seller_knows hpath
      cases hu
      rw [ht]
      exact expiry_mono (h.clock i now ((hnow now).mpr rfl))
    | cancel => exact h.bound id r u hr hu
    | confirm => cases hu
    | decline => exact h.bound id r u hr hu
    | settle => cases hu

theorem Timely.promised_step (h : Timely tr w) (hpath : Follows op.handle (own i tr) (.call c k))
    (hout : (bookingSystem api).finish i c w o = some out) {j : ℕ} {d : Db.PaymentCreate}
    {payment : Payment} {t u : Time} {s : Reservation}
    (hp : (j, ⟨.paymentCreate d, .ok payment⟩) ∈ tr ++ [(i, ⟨c, out.1⟩)])
    (ht : (j, ⟨.dateNow, .ok t⟩) ∈ tr ++ [(i, ⟨c, out.1⟩)])
    (hsome : (out.2.db.payments.get payment.id).isSome)
    (hs : out.2.db.reservations.get d.reservationId = some s) (hu : s.heldUntil = some u) :
    u ≤ expiry t * 1000 := by
  have hc : BookingCmd op c := (hpath.only_rest op.handle_only).1
  rcases mem_snoc ht with ht' | ⟨rfl, he⟩
  case inr =>
    -- the clock read just now bounds every deadline there is
    obtain ⟨rfl, hans⟩ := Sigma.mk.inj he
    obtain ⟨hexec, -⟩ := finish_ok _ hout (eq_of_heq hans).symm
    have hnow : w.now = t := Except.ok.inj (Prod.mk.inj hexec).1
    have hbound := h.bound_step hpath hout hs hu
    rwa [finish_now hout, hnow] at hbound
  case inl =>
    rcases mem_snoc hp with hp' | ⟨rfl, he⟩
    case inr =>
      obtain ⟨rfl, -⟩ := Sigma.mk.inj he
      exact absurd (mem_own.mpr ht') (create_after hpath _)
    case inl =>
      obtain ⟨hlt, -⟩ := h.sales.created j d payment hp'
      obtain ⟨q, hq⟩ := Option.isSome_iff_exists.mp hsome
      obtain ⟨q₀, hq₀, -⟩ := (finish_evolves hout).payments.row payment.id hlt q hq
      have hthere : (w.db.payments.get payment.id).isSome := by
        rw [hq₀]
        rfl
      rcases finish_state _ hout with hstate | hstate
      · rw [hstate] at hs
        exact h.promised j d payment t s u hp' ht' hthere hs hu
      rw [hstate] at hs
      obtain ⟨r, hr⟩ := Option.isSome_iff_exists.mp
        (w.db.payment_reservation q₀ (mem_of_get hq₀))
      rw [h.sales.home j d payment hp' q₀ hq₀] at hr
      obtain ⟨s', hs', hrw⟩ := reservation_step api hc hr
      cases hs.symm.trans hs'
      have hold := h.promised j d payment t r u hp' ht' hthere hr
      cases hrw with
      | keep => exact hold hu
      | lapse => cases hu
      | extend t' =>
        -- the payment of who extends is there too, so it is the same payment
        obtain ⟨screening, payment', now, hp'', ht'', hnow, hkept⟩ := seller_knows hpath
        have hthere' := (h.sales.kept i _ payment' hp'').resolve_right
          fun ⟨rep, hdel⟩ => hkept rep hdel
        obtain ⟨rfl, -⟩ := h.sales.same hp' hp'' rfl hthere hthere'
        cases hu
        rw [(hnow t).mp ht', ht'']
      | cancel => exact hold hu
      | confirm => cases hu
      | decline => exact hold hu
      | settle => cases hu

theorem Timely.expired_step (h : Timely tr w) (hspawn : Punctual tr w op)
    (hpath : Follows op.handle (own i tr) (.call c k))
    (hout : (bookingSystem api).finish i c w o = some out) {p : Payment}
    (hp : p ∈ out.2.db.payments.rows) (hst : p.status = .timedOut) :
    Due (tr ++ [(i, ⟨c, out.1⟩)]) out.2.now p.id := by
  have hc : BookingCmd op c := (hpath.only_rest op.handle_only).1
  rw [finish_now hout]
  suffices hdue : Due tr w.now p.id from hdue.mono _ (le_refl _)
  rcases finish_state _ hout with hstate | hstate
  · rw [hstate] at hp
    exact h.expired p hp hst
  rw [hstate] at hp
  have hget := get_of_mem hp
  rw [row_payment] at hget
  cases hp₀ : w.db.payments.get p.id with
  | none =>
    -- a new payment is PENDING
    obtain ⟨d, rfl, -, hrow, -⟩ := payment_born api hc hp₀ hget
    have hd : d.status = .pending := by
      cases hc with
      | quiet hq => cases hq
      | pay hd _ => exact hd
    rw [hrow] at hst
    have hst' : d.status = .timedOut := hst
    rw [hd] at hst'
    cases hst'
  | some p₀ =>
    have hrw := payment_step api hc hp₀
    have hexec : (World.exec api c w).2.db.payments.get p.id = some p := hget
    rw [hexec] at hrw
    have hid : p₀.id = p.id := id_of_get hp₀
    have hold : p₀.status = .timedOut → Due tr w.now p.id := by
      intro hst₀
      rw [← hid]
      exact h.expired p₀ (mem_of_get hp₀) hst₀
    generalize hn : p.id = n at hrw hold
    generalize hp' : some p = p' at hrw
    cases hrw with
    | keep =>
      cases hp'
      exact hold hst
    | update d =>
      cases hp'
      cases hd : d.status with
      | none =>
        simp only [PaymentData.apply, hd, Option.getD_none] at hst
        exact hold hst
      | some status =>
        simp only [PaymentData.apply, hd, Option.getD_some] at hst
        subst hst
        have hmarks : op.Marks (some n) .timedOut := by
          cases hc with
          | quiet hq => cases hq
          | payment _ _ hmarks => exact hmarks _ hd
        obtain ⟨eventId, session, rfl, hsession⟩ := marks_timedOut hmarks
        exact hspawn n hsession.symm
    | delete => cases hp'
    | decline =>
      cases hp'
      cases hst
    | settle =>
      cases hp'
      cases hst

theorem Timely.read_step (h : Timely tr w) (hout : (bookingSystem api).finish i c w o = some out)
    {j : ℕ} {cutoff : Time} {ps : List Payment} {p : Payment}
    (hps : (j, ⟨.findStuckTimedOut cutoff, .ok ps⟩) ∈ tr ++ [(i, ⟨c, out.1⟩)]) (hp : p ∈ ps) :
    Due (tr ++ [(i, ⟨c, out.1⟩)]) out.2.now p.id ∧ p.id < out.2.db.payments.serial ∧
      ∀ q ∈ out.2.db.payments.get p.id, q.reservationId = p.reservationId := by
  have hevolves := (finish_evolves hout).payments
  have hread : Due tr w.now p.id ∧ p.id < w.db.payments.serial ∧
      ∀ q ∈ w.db.payments.get p.id, q.reservationId = p.reservationId := by
    rcases mem_snoc hps with hold | ⟨rfl, he⟩
    · exact h.read j cutoff ps p hold hp
    · obtain ⟨rfl, hans⟩ := Sigma.mk.inj he
      obtain ⟨hexec, -⟩ := finish_ok _ hout (eq_of_heq hans).symm
      have hstuck : w.db.findStuckTimedOut cutoff = ps := Except.ok.inj (Prod.mk.inj hexec).1
      rw [← hstuck] at hp
      obtain ⟨hmem, hst⟩ := List.mem_filter.mp hp
      simp only [decide_eq_true_eq] at hst
      refine ⟨h.expired p hmem hst.1, w.db.payments.fresh p hmem, fun q hq => ?_⟩
      have hget := get_of_mem hmem
      cases hget.symm.trans hq
      rfl
  obtain ⟨hdue, hlt, hhome⟩ := hread
  refine ⟨?_, Nat.lt_of_lt_of_le hlt hevolves.serial, fun q hq => ?_⟩
  · rw [finish_now hout]
    exact hdue.mono _ (le_refl _)
  · obtain ⟨q₀, hq₀, he⟩ := hevolves.row p.id hlt q hq
    exact (Prod.mk.inj he).1.trans (hhome q₀ hq₀)

theorem Timely.owner_step (h : Timely tr w)
    (hout : (bookingSystem api).finish i c w o = some out) {j n : ℕ} {r₀ : Reservation}
    (hmem : (j, ⟨.reservationFindById n, .ok (some r₀)⟩) ∈ tr ++ [(i, ⟨c, out.1⟩)]) :
    r₀.id = n ∧ n < out.2.db.reservations.serial ∧
      ∀ r ∈ out.2.db.reservations.get n, r.userId = r₀.userId := by
  have hevolves := (finish_evolves hout).reservations
  have hread : r₀.id = n ∧ n < w.db.reservations.serial ∧
      ∀ r ∈ w.db.reservations.get n, r.userId = r₀.userId := by
    rcases mem_snoc hmem with hold | ⟨rfl, he⟩
    · exact h.owner j n r₀ hold
    · obtain ⟨rfl, hans⟩ := Sigma.mk.inj he
      obtain ⟨hexec, -⟩ := finish_ok _ hout (eq_of_heq hans).symm
      have hget : w.db.reservations.get n = some r₀ := Except.ok.inj (Prod.mk.inj hexec).1
      refine ⟨id_of_get hget, lt_serial_of_get hget, fun r hr => ?_⟩
      cases hget.symm.trans hr
      rfl
  obtain ⟨hid, hlt, howner⟩ := hread
  refine ⟨hid, Nat.lt_of_lt_of_le hlt hevolves.serial, fun r hr => ?_⟩
  obtain ⟨r₁, hr₁, he⟩ := hevolves.row n hlt r hr
  simp only [Prod.mk.injEq] at he
  exact he.2.2.trans (howner r₁ hr₁)

theorem Timely.step (h : Timely tr w) (hspawn : Punctual tr w op)
    (hpath : Follows op.handle (own i tr) (.call c k))
    (hout : (bookingSystem api).finish i c w o = some out) :
    Timely (tr ++ [(i, ⟨c, out.1⟩)]) out.2 where
  sales := h.sales.step hpath hout
  deadlines := by
    rcases finish_state _ hout with hs | hs
    · rw [hs]
      exact h.deadlines
    · rw [hs]
      exact deadlines_step (hpath.only_rest op.handle_only).1 h.deadlines
  clock := h.clock_step hout
  bound _ _ _ hr hu := h.bound_step hpath hout hr hu
  promised _ _ _ _ _ _ hp ht hsome hr hu := h.promised_step hpath hout hp ht hsome hr hu
  expired _ hp hst := h.expired_step hspawn hpath hout hp hst
  read _ _ _ _ hps hp := h.read_step hout hps hp
  owner _ _ _ hmem := h.owner_step hout hmem

/-- A declined payment that is still there was opened for a time that has come, and no
deadline of its reservation lies behind it. -/
theorem Timely.declined (h : Timely tr w)
    {p : Pool Cmd Cmd.Reply Err (World σ) BookingRequest Response}
    (hall : OnPath (bookingSystem api) tr p) {n id : ℕ}
    (hgrounded : Grounded op (own i tr) (.declineWithReservation n id))
    (hthere : (w.db.payments.get n).isSome) {r : Reservation} {u : Time}
    (hr : w.db.reservations.get id = some r) (hu : r.heldUntil = some u) : u ≤ w.now := by
  obtain ⟨cutoff, ps, hps, q, hq, rfl, rfl⟩ := hgrounded
  obtain ⟨hdue, hlt, hhome⟩ := h.read i cutoff ps q (mem_own.mp hps) hq
  obtain ⟨j, params, rep, hsession, hid, hle⟩ := due_iff.mp hdue
  have hj := List.getElem?_eq_getElem (hall.spawned _ hsession)
  obtain ⟨id', screening, payment, t, hcreate, hclock, rfl⟩ :=
    session_path (hall.follows j _ _ hj) (mem_own.mpr hsession)
  rw [mem_own] at hcreate hclock
  have hpayment : payment.id = q.id := hid
  obtain ⟨q', hq'⟩ := Option.isSome_iff_exists.mp hthere
  have hhome' := h.sales.home j _ payment hcreate q' (by rw [hpayment]; exact hq')
  have hres : id' = q.reservationId := by
    rw [← hhome q' hq', hhome']
    rfl
  subst hres
  have hpromise :=
    h.promised j _ payment t r u hcreate hclock (by rw [hpayment]; exact hthere) hr hu
  exact le_trans hpromise hle

end Step

/-! ### Every run -/

/-- The cancel of its own holder. -/
def CancelledByOwner (x : Choice Err BookingRequest (Env A))
    (p : Pool Cmd Cmd.Reply Err (World σ) BookingRequest Response) (r : Reservation) : Prop :=
  ∃ i o, x = .step i o ∧ (p.procs[i]?).map Prod.fst = some (.cancel r.userId r.id)

/-- In every run that starts without reservations and in which Stripe reports no session
as expired too early: a reservation goes from HELD to CANCELLED only by the cancel of
its own holder, or when its deadline has come. -/
theorem no_early_loss (api : StripeApi σ A) (w : World σ) (hw : w.db.reservations.rows = [])
    (xs : List (Choice Err BookingRequest (Env A))) (x : Choice Err BookingRequest (Env A))
    (p q : Pool Cmd Cmd.Reply Err (World σ) BookingRequest Response)
    (hx : (bookingSystem api).schedule xs ⟨w, []⟩ = some p)
    (hq : (bookingSystem api).act x p = some q)
    (hstripe : (bookingSystem api).AllSpawn Punctual xs [] ⟨w, []⟩) (id : ℕ) (r s : Reservation)
    (hr : p.state.db.reservations.get id = some r) (hheld : r.status = .held)
    (hs : q.state.db.reservations.get id = some s) (hcancelled : s.status = .cancelled) :
    CancelledByOwner x p r ∨ ∃ u, r.heldUntil = some u ∧ u ≤ p.state.now := by
  obtain ⟨hpath, -, htimely⟩ := spawn_rule (A := fun _ _ _ _ => True) (B := Punctual)
    (I := Timely) (timely_start hw) (fun tr v e h => timely_env h e)
    (fun tr v op e h => by
      have hlater : Punctual (tr ++ []) (v.elapse api e) op := h.mono [] (elapse_now api e v)
      rwa [List.append_nil] at hlater)
    (fun tr v op i c o out h hout => h.mono _ (le_of_eq (finish_now hout).symm))
    (fun tr v i op c k o out h hspawn hl hout _ => h.step hspawn hl hout) hx
    (allMeet_of_forall _ (fun _ _ _ _ => trivial) xs _) hstripe
  have hsame : q.state.db ≠ p.state.db := by
    intro he
    rw [he] at hs
    cases hr.symm.trans hs
    rw [hheld] at hcancelled
    cases hcancelled
  cases x with
  | spawn op =>
    simp only [act, Option.some.injEq] at hq
    exact absurd (by rw [← hq]) hsame
  | env e =>
    simp only [act, Option.some.injEq] at hq
    exact absurd (by rw [← hq]; exact World.elapse_db api e p.state) hsame
  | step i o =>
    simp only [act] at hq
    split at hq
    case h_2 => cases hq
    case h_1 op c k hi =>
      obtain ⟨out, hout, rfl⟩ := Option.map_eq_some_iff.mp hq
      have hfollows := hpath.follows i op _ hi
      have hc : BookingCmd op c := (hfollows.only_rest op.handle_only).1
      have hgrounded : Grounded op (own i _) c := op.handle_grounded.path hfollows
      obtain ⟨u, hu⟩ := Option.isSome_iff_exists.mp
        (htimely.deadlines r (mem_of_get hr) hheld)
      rcases finish_state _ hout with hstate | hstate
      · exact absurd (by rw [hstate]) hsame
      rw [hstate] at hs
      obtain ⟨s', hs', hrw⟩ := reservation_step api hc hr
      cases hs.symm.trans hs'
      cases hrw with
      | keep => rw [hheld] at hcancelled; cases hcancelled
      | lapse now _ hu' hlt =>
        have hclock := htimely.clock i now (mem_own.mp hgrounded)
        exact .inr ⟨_, hu', le_trans (le_of_lt hlt) hclock⟩
      | extend => rw [hheld] at hcancelled; cases hcancelled
      | cancel =>
        obtain ⟨v, n, r₀, rfl, hread, rfl, hid⟩ := hgrounded rfl
        obtain ⟨hn, -, howner⟩ := htimely.owner i n r₀ (mem_own.mp hread)
        have hn' : n = id := hn.symm.trans hid
        subst hn'
        refine .inl ⟨i, o, rfl, ?_⟩
        rw [hi, howner r hr, show r.id = n from id_of_get hr]
        rfl
      | confirm => cases hcancelled
      | decline n _ hthere =>
        exact .inr ⟨u, hu, htimely.declined hpath hgrounded hthere hr hu⟩
      | settle => cases hcancelled

/-- The session of payment 1, expired. -/
def sessionExpired : StripeEvent :=
  ⟨1, .checkoutSessionExpired ⟨.unpaid, none, some 1⟩⟩

/-- User 1 holds seat 1 and opens the checkout session, which expires after half an hour;
the reconciliation is about to decline the payment. -/
def abandoned : List (Choice Err BookingRequest (Env Account.Action)) :=
  .spawn (.reserve 1 ⟨1, 1⟩) :: solo 0 8 ++ .spawn (.createCheckoutSession 1 1) :: solo 1 8 ++
    .env (.advance 1800000) :: .spawn (.webhook (.ok sessionExpired)) :: solo 2 2 ++
    .spawn .reconcilePayments :: solo 3 3

theorem declined_in_time : ∃ (p q : Pool Cmd Cmd.Reply Err (World Account) BookingRequest Response)
    (r s : Reservation), (bookingSystem testMode).schedule abandoned ⟨theatre, []⟩ = some p ∧
      (bookingSystem testMode).act (.step 3 .answered) p = some q ∧
      p.state.db.reservations.get 1 = some r ∧ r.status = .held ∧
      q.state.db.reservations.get 1 = some s ∧ s.status = .cancelled ∧
      (CancelledByOwner (A := Account.Action) (.step 3 .answered) p r ∨
        ∃ u, r.heldUntil = some u ∧ u ≤ p.state.now) := by
  have hrun : ((bookingSystem testMode).schedule abandoned ⟨theatre, []⟩).any (fun p =>
      ((bookingSystem testMode).act (.step 3 .answered) p).any (fun q =>
        (p.state.db.reservations.get 1).any (fun r => r.status = .held) ∧
        (q.state.db.reservations.get 1).any (fun s => s.status = .cancelled))) = true := by
    decide +kernel
  have hstart : theatre.db.reservations.rows = [] ∧
      (bookingSystem testMode).AllSpawn Punctual abandoned [] ⟨theatre, []⟩ := by decide +kernel
  obtain ⟨p, hp, hrest⟩ := (Option.any_eq_true _ _).mp hrun
  obtain ⟨q, hq, hrest⟩ := (Option.any_eq_true _ _).mp hrest
  simp only [decide_eq_true_eq] at hrest
  obtain ⟨r, hr, hheld⟩ := (Option.any_eq_true _ _).mp hrest.1
  obtain ⟨s, hs, hcancelled⟩ := (Option.any_eq_true _ _).mp hrest.2
  simp only [decide_eq_true_eq] at hheld hcancelled
  exact ⟨p, q, r, s, hp, hq, hr, hheld, hs, hcancelled, no_early_loss testMode theatre hstart.1
    abandoned (.step 3 .answered) p q hp hq hstart.2 1 r s hr hheld hs hcancelled⟩

end MovieReservation
