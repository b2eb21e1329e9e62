import MovieReservation.Effects
import MovieReservation.Lib.Effects
import MovieReservation.Services.Paths
import MovieReservation.Services.Steps
import MovieReservation.Services.TestMode
import MovieReservation.Services.Upshot

/-! Checkouts after a failed attempt. The entry check of `createCheckoutSession` looks for any
payment of the reservation, whatever its status, so an attempt that was abandoned or failed
later ends the hold's way to a payment; only one that failed while it was being created
leaves the way open, by deleting its payment. -/

namespace MovieReservation

open Lib Lib.Prog Lib.System Lib.Table PaymentsService

variable {σ A : Type}

/-! ### Live holds and checkouts -/

/-- The reservation is HELD for some time to come, for a scheduled screening to come. -/
structure LiveHold (w : World σ) (r : Reservation) : Prop where
  found : w.db.reservations.get r.id = some r
  held : r.status = .held
  lasting : ∃ t ∈ r.heldUntil, w.now < t
  scheduled : ∃ s ∈ w.db.screenings.get r.screeningId, s.status = .scheduled ∧ w.now < s.startTime

instance (w : World σ) (r : Reservation) : Decidable (LiveHold w r) :=
  decidable_of_iff (w.db.reservations.get r.id = some r ∧ r.status = .held ∧
      (∃ t ∈ r.heldUntil, w.now < t) ∧ ∃ s ∈ w.db.screenings.get r.screeningId,
        s.status = .scheduled ∧ w.now < s.startTime)
    ⟨fun ⟨h₁, h₂, h₃, h₄⟩ => ⟨h₁, h₂, h₃, h₄⟩, fun h => ⟨h.1, h.2, h.3, h.4⟩⟩

/-- Stripe opens the sessions it is asked for. -/
def StripeOpens (api : StripeApi σ A) (w : World σ) : Prop :=
  ∀ params, ∃ session, (api.createSession params w.stripe).1 = .ok session

/-- The owner's request is answered with a checkout URL. -/
def CanCheckOut (api : StripeApi σ A) (w : World σ) (r : Reservation) : Prop :=
  ∃ url, (perform api (createCheckoutSession r.userId r.id) w).1 = .ok url

/-- The price of the reservation's screening, in cents, fits the column of the amounts. -/
def Chargeable (w : World σ) (r : Reservation) : Prop :=
  ∀ s ∈ w.db.screenings.get r.screeningId, Int4 (s.price * 100)

instance (w : World σ) (r : Reservation) : Decidable (Chargeable w r) :=
  inferInstanceAs (Decidable (∀ s ∈ w.db.screenings.get r.screeningId, Int4 (s.price * 100)))

/-- The payments left of reservation `id`, after a command took effect. -/
def leave (id : ℕ) (left : List ℕ) : ℕ × Answer Cmd Cmd.Reply Err → List ℕ
  | (_, ⟨.paymentCreate d, .ok payment⟩) =>
    if d.reservationId = id then left ++ [payment.id] else left
  | (_, ⟨.paymentDelete n, _⟩) => left.filter (· ≠ n)
  | _ => left

/-- The payments that the attempts for reservation `id` created and did not delete again. -/
def leftBehind (id : ℕ) (l : Log) : List ℕ := l.foldl (leave id) []

/-! ### The payments of a reservation -/

/-- Payment `n` is there, and of reservation `id`. -/
def Db.PaysFor (db : Db) (n id : ℕ) : Prop := ∃ p, db.payments.get n = some p ∧ p.reservationId = id

section Payments
variable {api : StripeApi σ A} {w : World σ} {db db' : Db} {n id : ℕ}

theorem paysFor_of_payments (h : db'.payments = db.payments) :
    db'.PaysFor n id ↔ db.PaysFor n id := by
  rw [Db.PaysFor, Db.PaysFor, h]

theorem paysFor_paymentUpdate {m : ℕ} {d : PaymentData} {x : Payment}
    (h : db.paymentUpdate m d = .ok (x, db')) : db'.PaysFor n id ↔ db.PaysFor n id := by
  obtain ⟨_, -, -, -, ht⟩ := Db.paymentUpdate_eq_ok h
  rw [Db.PaysFor, Db.PaysFor, ht]
  simp only [get_modify]
  split_ifs
  · simp [PaymentData.apply]
  · rfl

theorem paysFor_reservationUpdate {m : ℕ} {d : ReservationData} {x : Reservation}
    (h : db.reservationUpdate m d = .ok (x, db')) : db'.PaysFor n id ↔ db.PaysFor n id := by
  obtain ⟨_, -, -, -, ht⟩ := Db.reservationUpdate_eq_ok h
  exact paysFor_of_payments (by rw [ht])

theorem paysFor_updateBoth {pid rid : ℕ} {d : PaymentData} {e : ReservationData}
    {x : Payment × Reservation} (h : db.updateBoth pid d rid e = .ok (x, db')) :
    db'.PaysFor n id ↔ db.PaysFor n id := by
  obtain ⟨db₁, h₁, h₂⟩ := Db.updateBoth_eq_ok h
  exact (paysFor_reservationUpdate h₂).trans (paysFor_paymentUpdate h₁)

/-- A cascade that spares a reservation spares its payments. -/
theorem paysFor_cascade {movie : Movie → Bool} {hall : Hall → Bool} {screening : Screening → Bool}
    (h : ((db.cascade movie hall screening).reservations.get id).isSome) :
    (db.cascade movie hall screening).PaysFor n id ↔ db.PaysFor n id := by
  constructor
  · rintro ⟨p, hp, hid⟩
    simp only [Db.cascade, get_filter, Option.filter_eq_some_iff] at hp
    exact ⟨p, hp.1, hid⟩
  · rintro ⟨p, hp, rfl⟩
    refine ⟨p, ?_, rfl⟩
    simp only [Db.cascade, get_filter, Option.filter_eq_some_iff]
    refine ⟨hp, ?_⟩
    simpa only [Db.cascade, get_filter] using h

theorem paysFor_paymentCreate {now : Time} {d : Db.PaymentCreate} {p : Payment}
    (h : db.paymentCreate now d = .ok (p, db')) :
    db'.PaysFor n id ↔ db.PaysFor n id ∨ n = p.id ∧ d.reservationId = id := by
  obtain ⟨-, rfl, -, ht⟩ := Db.paymentCreate_eq_ok h
  rw [Db.PaysFor, Db.PaysFor, ht]
  simp only [get_insert]
  split_ifs with hn
  · subst hn
    have hfresh : ∀ q, db.payments.get db.payments.serial ≠ some q := fun q hq =>
      absurd (lt_serial_of_get hq) (Nat.lt_irrefl _)
    simp [hfresh, Db.PaymentCreate.row]
  · simp [hn, Db.PaymentCreate.row]

theorem paysFor_paymentDelete {m : ℕ} {p : Payment} (h : db.paymentDelete m = .ok (p, db')) :
    db'.PaysFor n id ↔ db.PaysFor n id ∧ n ≠ m := by
  obtain ⟨-, ht⟩ := Db.paymentDelete_eq_ok h
  rw [Db.PaysFor, Db.PaysFor, ht]
  simp only [erase, get_filter, Option.filter_eq_some_iff, decide_eq_true_eq]
  constructor
  · rintro ⟨q, ⟨hq, hne⟩, hid⟩
    exact ⟨⟨q, hq, hid⟩, (id_of_get hq) ▸ hne⟩
  · rintro ⟨⟨q, hq, hid⟩, hne⟩
    exact ⟨q, ⟨hq, (id_of_get hq).symm ▸ hne⟩, hid⟩

/-- No payment without its reservation. -/
theorem Db.PaysFor.reservation (h : db.PaysFor n id) : (db.reservations.get id).isSome := by
  obtain ⟨p, hp, rfl⟩ := h
  exact db.payment_reservation p (mem_of_get hp)

/-- A payment comes with its creation and goes with its deletion, or with its reservation. -/
theorem paysFor_exec (api : StripeApi σ A) {c : Cmd} (w : World σ)
    (hcreate : ∀ d, c ≠ .paymentCreate d) (hdelete : ∀ m, c ≠ .paymentDelete m)
    (hr : ((World.exec api c w).2.db.reservations.get id).isSome) :
    (World.exec api c w).2.db.PaysFor n id ↔ w.db.PaysFor n id := by
  have hcommit : ∀ {α : Type} {x : Except Err (α × Db)},
      ((w.commit x).2.db.reservations.get id).isSome →
      (∀ a db', x = .ok (a, db') → (db'.reservations.get id).isSome →
        (db'.PaysFor n id ↔ w.db.PaysFor n id)) →
      ((w.commit x).2.db.PaysFor n id ↔ w.db.PaysFor n id) := fun hr hx =>
    World.commit_rule (P := fun db => (db.reservations.get id).isSome →
      (db.PaysFor n id ↔ w.db.PaysFor n id)) (fun _ => Iff.rfl) hx hr
  cases c with
  | paymentCreate d => exact absurd rfl (hcreate d)
  | paymentDelete m => exact absurd rfl (hdelete m)
  | holdSeat p =>
    refine hcommit hr fun a db' hok _ => ?_
    obtain ⟨_, -, -, -, -, -, ht⟩ := Db.holdSeat_eq_ok hok
    exact paysFor_of_payments (by rw [ht])
  | reservationUpdate m d => exact hcommit hr fun a db' hok _ => paysFor_reservationUpdate hok
  | paymentFindById m => cases m <;> exact Iff.rfl
  | paymentFindByStripePaymentId i => cases i <;> exact Iff.rfl
  | paymentUpdate m d =>
    cases m with
    | none => exact Iff.rfl
    | some m => exact hcommit hr fun a db' hok _ => paysFor_paymentUpdate hok
  | declineWithReservation m k => exact hcommit hr fun a db' hok _ => paysFor_updateBoth hok
  | confirmWithReservation m k i => exact hcommit hr fun a db' hok _ => paysFor_updateBoth hok
  | screeningCreate d =>
    refine hcommit hr fun a db' hok _ => ?_
    obtain ⟨-, ht⟩ := Db.screeningCreate_eq_ok hok
    exact paysFor_of_payments (by rw [ht])
  | screeningUpdate m d =>
    refine hcommit hr fun a db' hok _ => ?_
    obtain ⟨_, -, -, ht⟩ := Db.screeningUpdate_eq_ok hok
    exact paysFor_of_payments (by rw [ht])
  | screeningDelete m =>
    refine hcommit hr fun a db' hok hr' => ?_
    obtain rfl := Db.screeningDelete_eq_ok hok
    exact paysFor_cascade hr'
  | createHallWithSeats d seats =>
    refine hcommit hr fun a db' hok _ => ?_
    obtain ⟨ht, -⟩ := Db.createHallWithSeats_eq_ok hok
    exact paysFor_of_payments (by rw [ht])
  | hallDelete m =>
    refine hcommit hr fun a db' hok hr' => ?_
    obtain rfl := Db.hallDelete_eq_ok hok
    exact paysFor_cascade hr'
  | movieUpdate m d =>
    refine hcommit hr fun a db' hok _ => ?_
    exact paysFor_of_payments (by rw [Db.movieUpdate_eq_ok hok])
  | movieDelete m =>
    refine hcommit hr fun a db' hok hr' => ?_
    obtain rfl := Db.movieDelete_eq_ok hok
    exact paysFor_cascade hr'
  | acquire =>
    simp only [World.exec]
    split_ifs <;> exact Iff.rfl
  | _ => exact Iff.rfl

end Payments

/-! ### What a run leaves -/

section Run
variable {api : StripeApi σ A} {w : World σ} {id : ℕ} {l : Log}

/-- The payments of reservation `id`, while it is there, are those that were left. -/
structure LeftPayments (id : ℕ) (l : Log) (db : Db) : Prop where
  unborn : db.reservations.serial ≤ id → leftBehind id l = []
  left : (db.reservations.get id).isSome → ∀ n, n ∈ leftBehind id l ↔ db.PaysFor n id

theorem leftBehind_snoc (x : ℕ × Answer Cmd Cmd.Reply Err) :
    leftBehind id (l ++ [x]) = leave id (leftBehind id l) x := List.foldl_append

theorem leave_other {c : Cmd} (hcreate : ∀ d, c ≠ .paymentCreate d)
    (hdelete : ∀ m, c ≠ .paymentDelete m) (left : List ℕ) (i : ℕ) (r : Except Err c.Reply) :
    leave id left (i, ⟨c, r⟩) = left := by
  cases c with
  | paymentCreate d => exact absurd rfl (hcreate d)
  | paymentDelete m => exact absurd rfl (hdelete m)
  | _ => rfl

/-- The reservation of a command's outcome was there before, or is new. -/
theorem LeftPayments.before (h : LeftPayments id l w.db) {c : Cmd}
    (hr : ((World.exec api c w).2.db.reservations.get id).isSome) (n : ℕ) :
    n ∈ leftBehind id l ↔ w.db.PaysFor n id := by
  by_cases hsome : (w.db.reservations.get id).isSome
  · exact h.left hsome n
  · obtain ⟨r, hr⟩ := Option.isSome_iff_exists.mp hr
    have hnew : w.db.reservations.serial ≤ id := by
      by_contra hlt
      obtain ⟨r', hr', -⟩ := (World.exec_evolves api c w).reservations.row id (by omega) r hr
      exact hsome (by rw [hr']; rfl)
    rw [h.unborn hnew]
    exact iff_of_false (List.not_mem_nil) fun hpays => hsome hpays.reservation

theorem LeftPayments.create (h : LeftPayments id l w.db) (i : ℕ) (d : Db.PaymentCreate) :
    LeftPayments id (l ++ [(i, ⟨.paymentCreate d, (World.exec api (.paymentCreate d) w).1⟩)])
      (World.exec api (.paymentCreate d) w).2.db := by
  have hserial := (World.exec_evolves api (.paymentCreate d) w).reservations.serial
  have hbefore : ((World.exec api (.paymentCreate d) w).2.db.reservations.get id).isSome →
      ∀ n, n ∈ leftBehind id l ↔ w.db.PaysFor n id := h.before
  rcases w.commit_cases (w.db.paymentCreate w.now d) with ⟨p, db', hok, hcm⟩ | ⟨e, -, hcm⟩
  · have hexec : World.exec api (.paymentCreate d) w = (.ok p, { w with db := db' }) := hcm
    rw [hexec] at hserial hbefore ⊢
    refine ⟨fun hn => ?_, fun hr n => ?_⟩
    · have hne : d.reservationId ≠ id := by
        rintro rfl
        obtain ⟨r, hr⟩ := Option.isSome_iff_exists.mp (Db.paymentCreate_eq_ok hok).1
        exact absurd (lt_serial_of_get hr) (Nat.not_lt.mpr (hserial.trans hn))
      rw [leftBehind_snoc, leave, if_neg hne]
      exact h.unborn (hserial.trans hn)
    · rw [leftBehind_snoc, leave, paysFor_paymentCreate hok, ← hbefore hr n]
      split_ifs with hid
      · simp [hid]
      · simp [hid]
  · have hexec : World.exec api (.paymentCreate d) w = (.error e, w) := hcm
    rw [hexec]
    exact ⟨fun hn => (leftBehind_snoc _).trans (h.unborn hn), fun hr n => by
      rw [leftBehind_snoc]
      exact h.left hr n⟩

theorem LeftPayments.delete (h : LeftPayments id l w.db) (i m : ℕ) :
    LeftPayments id (l ++ [(i, ⟨.paymentDelete m, (World.exec api (.paymentDelete m) w).1⟩)])
      (World.exec api (.paymentDelete m) w).2.db := by
  have hserial := (World.exec_evolves api (.paymentDelete m) w).reservations.serial
  refine ⟨fun hn => ?_, fun hr n => ?_⟩
  · rw [leftBehind_snoc, leave, h.unborn (hserial.trans hn)]
    rfl
  · rw [leftBehind_snoc, leave, List.mem_filter, decide_eq_true_eq, h.before hr n]
    rcases w.commit_cases (w.db.paymentDelete m) with ⟨p, db', hok, hcm⟩ | ⟨e, herr, hcm⟩
    · have hexec : World.exec api (.paymentDelete m) w = (.ok p, { w with db := db' }) := hcm
      rw [hexec]
      exact (paysFor_paymentDelete hok).symm
    · -- there was no such payment
      have hexec : World.exec api (.paymentDelete m) w = (.error e, w) := hcm
      rw [hexec, and_iff_left_iff_imp]
      rintro ⟨p, hp, -⟩ rfl
      unfold Db.paymentDelete at herr
      simp only [hp] at herr
      cases herr

theorem LeftPayments.exec (h : LeftPayments id l w.db) (i : ℕ) (c : Cmd) :
    LeftPayments id (l ++ [(i, ⟨c, (World.exec api c w).1⟩)]) (World.exec api c w).2.db := by
  by_cases hcreate : ∃ d, c = .paymentCreate d
  · obtain ⟨d, rfl⟩ := hcreate
    exact h.create i d
  by_cases hdelete : ∃ m, c = .paymentDelete m
  · obtain ⟨m, rfl⟩ := hdelete
    exact h.delete i m
  rw [not_exists] at hcreate hdelete
  refine ⟨fun hn => ?_, fun hr n => ?_⟩
  · rw [leftBehind_snoc, leave_other hcreate hdelete]
    exact h.unborn ((World.exec_evolves api c w).reservations.serial.trans hn)
  · rw [leftBehind_snoc, leave_other hcreate hdelete, h.before hr n]
    exact (paysFor_exec api w hcreate hdelete hr).symm

/-- After every run that began before the first payment. -/
theorem leftPayments_run (hw : w.db.payments.rows = [])
    {xs : List (Choice Err Request (Env A))}
    {p : Pool Cmd Cmd.Reply Err (World σ) Request Response}
    (hx : (serviceSystem api).schedule xs ⟨w, []⟩ = some p) (id : ℕ) :
    LeftPayments id ((serviceSystem api).effects xs ⟨w, []⟩) p.state.db := by
  have hstart : LeftPayments id [] w.db := by
    refine ⟨fun _ => rfl, fun _ n => iff_of_false List.not_mem_nil ?_⟩
    rintro ⟨q, hq, -⟩
    have hmem := mem_of_get hq
    rw [hw] at hmem
    cases hmem
  refine effects_rule (serviceSystem api) (P := fun _ _ => True)
    (I := fun l w => LeftPayments id l w.db) (fun op => only_true _) (fun l v e h => ?_)
    (fun l v i op c _ h => h.exec i c) xs [] (within_empty _ w) hstart hx
  exact (World.elapse_db api e v).symm ▸ h

end Run

/-! ### One checkout -/

section Checkout
variable {api : StripeApi σ A} {w : World σ} {r : Reservation}

theorem checkout_refused (hr : w.db.reservations.get r.id = some r) (hheld : r.status = .held)
    (hpaid : ∃ q ∈ w.db.payments.rows, q.reservationId = r.id) : ¬ CanCheckOut api w r := by
  have hfound : (w.db.payments.rows.find? fun q => q.reservationId = r.id).isSome := by
    simpa using hpaid
  have hread : perform api (PaymentsRepository.findByReservationId r.id) w =
      (.ok (w.db.payments.rows.find? fun q => q.reservationId = r.id), w) := rfl
  rintro ⟨url, hurl⟩
  unfold createCheckoutSession at hurl
  rw [perform_bind_ok (findOwned_run hr), perform_throwIf_bind (not_not.mpr hheld),
    perform_bind_ok hread, throwIf, if_pos hfound] at hurl
  cases hurl

/-- The column of the amounts refuses the payment. -/
theorem checkout_overflows (hr : w.db.reservations.get r.id = some r) (hheld : r.status = .held)
    {s : Screening} (hs : w.db.screenings.get r.screeningId = some s)
    (hfits : ¬ Int4 (s.price * 100)) : ¬ CanCheckOut api w r := by
  obtain ⟨movie, hall, -, hscreening⟩ := Db.screeningFindById_eq hs
  have hread : perform api (PaymentsRepository.findByReservationId r.id) w =
      (.ok (w.db.payments.rows.find? fun q => q.reservationId = r.id), w) := rfl
  have hfound : perform api (ScreeningsRepository.findById r.screeningId) w =
      (.ok (some { s with movie, hall }), w) := by
    rw [← hscreening]
    rfl
  have hrefused : perform api (PaymentsRepository.create
      ⟨r.id, s.price * 100, currency, .pending, none⟩) w = (.error (.prisma .p2020), w) := by
    change w.commit (w.db.paymentCreate w.now _) = _
    rw [Db.paymentCreate, dif_neg hfits]
    rfl
  rintro ⟨url, hurl⟩
  unfold createCheckoutSession at hurl
  rw [perform_bind_ok (findOwned_run hr), perform_throwIf_bind (not_not.mpr hheld),
    perform_bind_ok hread] at hurl
  by_cases hpaid : (w.db.payments.rows.find? fun q => q.reservationId = r.id).isSome
  · rw [throwIf, if_pos hpaid] at hurl
    cases hurl
  · rw [perform_throwIf_bind hpaid, perform_bind_ok hfound] at hurl
    dsimp only at hurl
    rw [perform, run_bind_of_error (run_tryCatch_of_error hrefused)] at hurl
    cases hurl

/-- The writes of a checkout that is not refused, and the rows they leave. -/
theorem checkout_writes (hr : w.db.reservations.get r.id = some r)
    (hfree : ∀ q ∈ w.db.payments.rows, q.reservationId ≠ r.id) (d : Db.PaymentCreate)
    (hd : d.reservationId = r.id) (hfits : Int4 d.amount) :
    ∃ payment db₁, w.db.paymentCreate w.now d = .ok (payment, db₁) ∧
      payment.reservationId = r.id ∧ payment.status = d.status ∧
      ∀ sessionId deadline, ∃ db₂ db₃,
        db₁.paymentUpdate payment.id { stripeSessionId := some (some sessionId) } =
          .ok ({ payment with stripeSessionId := some sessionId }, db₂) ∧
        db₂.reservationUpdate r.id { heldUntil := some (some deadline) } =
          .ok ({ r with heldUntil := some deadline }, db₃) ∧
        db₃.payments.get payment.id = some { payment with stripeSessionId := some sessionId } ∧
        db₃.reservations.get r.id = some { r with heldUntil := some deadline } := by
  have hcreate : ∃ x, w.db.paymentCreate w.now d = .ok x := by
    unfold Db.paymentCreate
    rw [dif_pos hfits, dif_pos (by rw [hd, hr]; rfl), dif_neg]
    · exact ⟨_, rfl⟩
    · rintro ⟨q, hq, -, -, hkey⟩
      exact hfree q hq ((Option.some.inj hkey).trans hd)
  obtain ⟨⟨payment, db₁⟩, hcreate⟩ := hcreate
  obtain ⟨-, hrow, -, ht₁⟩ := Db.paymentCreate_eq_ok hcreate
  have hpayment : db₁.payments.get payment.id = some payment := by
    rw [ht₁, hrow]
    simp [get_insert, Db.PaymentCreate.row]
  refine ⟨payment, db₁, hcreate, by rw [hrow]; exact hd, by rw [hrow]; rfl,
    fun sessionId deadline => ?_⟩
  -- the new payment has no event
  obtain ⟨db₂, hupdate⟩ := Db.paymentUpdate_ok { stripeSessionId := some (some sessionId) }
    hpayment (by rw [hrow]; rintro ⟨_, _, _, h, _⟩; cases h)
  obtain ⟨_, -, -, -, ht₂⟩ := Db.paymentUpdate_eq_ok hupdate
  have hr₂ : db₂.reservations.get r.id = some r := by
    rw [ht₂]
    simp only [ht₁]
    exact hr
  have hkey : ¬ db₂.reservations.Clash activeKey r.id
      (activeKey (ReservationData.apply { heldUntil := some (some deadline) } r)) :=
    not_clash_of_get (r := r) db₂.reservation_active_seat_screening_key hr₂
  obtain ⟨db₃, hextend⟩ := Db.reservationUpdate_ok hr₂ hkey
  obtain ⟨_, -, -, -, ht₃⟩ := Db.reservationUpdate_eq_ok hextend
  refine ⟨db₂, db₃, hupdate, hextend, ?_, ?_⟩
  · rw [ht₃, Db.paymentUpdate_map hupdate, hpayment, Option.map_some, if_pos rfl]
    rfl
  · rw [Db.reservationUpdate_get hextend hr₂, if_pos rfl]
    rfl

/-- A checkout that is not refused, and what it leaves. -/
theorem checkout_run (hr : w.db.reservations.get r.id = some r) (hheld : r.status = .held)
    {s : Screening} (hs : w.db.screenings.get r.screeningId = some s) (hfits : Int4 (s.price * 100))
    (hfree : ∀ q ∈ w.db.payments.rows, q.reservationId ≠ r.id) (hstripe : StripeOpens api w) :
    ∃ (expiresAt : ℤ) (params : CheckoutParams) (session : Session) (p : Payment) (w' : World σ),
      expiresAt = w.now / 1000 + checkoutExpiryMinutes * 60 ∧
      params = ⟨r.id, s.price * 100, currency, expiresAt, p.id⟩ ∧
      (api.createSession params w.stripe).1 = .ok session ∧
      perform api (createCheckoutSession r.userId r.id) w = (.ok session.url, w') ∧
      w'.db.payments.get p.id = some p ∧ p.reservationId = r.id ∧ p.status = .pending ∧
      p.stripeSessionId = some session.id ∧
      w'.db.reservations.get r.id = some { r with heldUntil := some (expiresAt * 1000) } := by
  obtain ⟨movie, hall, -, hscreening⟩ := Db.screeningFindById_eq hs
  have hnone : (w.db.payments.rows.find? fun q => q.reservationId = r.id) = none := by
    simpa using hfree
  have hread : perform api (PaymentsRepository.findByReservationId r.id) w = (.ok none, w) := by
    rw [← hnone]
    rfl
  have hfound : perform api (ScreeningsRepository.findById r.screeningId) w =
      (.ok (some { s with movie, hall }), w) := by
    rw [← hscreening]
    rfl
  obtain ⟨payment, db₁, hcreate, hid, hpending, hwrites⟩ := checkout_writes hr hfree
    ⟨r.id, s.price * 100, currency, .pending, none⟩ rfl hfits
  have hcreated : perform api (PaymentsRepository.create
      ⟨r.id, s.price * 100, currency, .pending, none⟩) w = _ := World.commit_ok hcreate
  obtain ⟨session, hsession⟩ := hstripe ⟨r.id, s.price * 100, currency,
    w.now / 1000 + checkoutExpiryMinutes * 60, payment.id⟩
  obtain ⟨t, hopened⟩ : ∃ t, perform api (Stripe.sessionsCreate ⟨r.id, s.price * 100, currency,
      w.now / 1000 + checkoutExpiryMinutes * 60, payment.id⟩) { w with db := db₁ } =
        (.ok session, { w with db := db₁, stripe := t }) := ⟨_, Prod.ext hsession rfl⟩
  obtain ⟨db₂, db₃, hupdate, hextend, hpayment, hhold⟩ := hwrites session.id
    ((w.now / 1000 + checkoutExpiryMinutes * 60) * 1000)
  have hupdated : ∀ v : World σ, v.db = db₁ → perform api (PaymentsRepository.update
      (some payment.id) { stripeSessionId := some (some session.id) }) v =
        (.ok _, { v with db := db₂ }) := fun v hv => World.commit_ok (hv.symm ▸ hupdate)
  have hextended : ∀ v : World σ, v.db = db₂ → perform api (ReservationsService.extendHold r.id
      ((w.now / 1000 + checkoutExpiryMinutes * 60) * 1000)) v = (.ok _, { v with db := db₃ }) :=
    fun v hv => World.commit_ok (hv.symm ▸ hextend)
  refine ⟨_, _, session, { payment with stripeSessionId := some session.id },
    { w with db := db₃, stripe := t }, rfl, rfl, hsession, ?_, hpayment, hid, hpending, rfl, hhold⟩
  unfold createCheckoutSession
  rw [perform_bind_ok (findOwned_run hr), perform_throwIf_bind (not_not.mpr hheld),
    perform_bind_ok hread,
    perform_throwIf_bind (x := (none : Option Payment).isSome = true) Bool.false_ne_true,
    perform_bind_ok hfound]
  dsimp only
  rw [perform_bind_ok (perform_tryCatch_ok hcreated)]
  refine perform_tryCatch_ok ?_
  rw [perform_bind_ok (a := w.now) (v := { w with db := db₁ }) rfl, perform_bind_ok hopened,
    perform_bind_ok (hupdated _ rfl), perform_bind_ok (hextended _ rfl)]
  rfl

theorem checkout_granted (hr : w.db.reservations.get r.id = some r) (hheld : r.status = .held)
    {s : Screening} (hs : w.db.screenings.get r.screeningId = some s) (hfits : Int4 (s.price * 100))
    (hfree : ∀ q ∈ w.db.payments.rows, q.reservationId ≠ r.id) (hstripe : StripeOpens api w) :
    CanCheckOut api w r := by
  obtain ⟨_, _, session, _, _, -, -, -, hrun, -⟩ := checkout_run hr hheld hs hfits hfree hstripe
  exact ⟨session.url, congrArg Prod.fst hrun⟩

end Checkout

/-- In every state of every run that began before the first payment, the owner of a live
hold can check out exactly if its price can be charged and each earlier attempt that created
a payment deleted it again. -/
theorem checkout_open_iff (api : StripeApi σ A) (w : World σ) (hw : w.db.payments.rows = [])
    (xs : List (Choice Err Request (Env A)))
    (p : Pool Cmd Cmd.Reply Err (World σ) Request Response)
    (hx : (serviceSystem api).schedule xs ⟨w, []⟩ = some p) (r : Reservation)
    (hr : LiveHold p.state r) (hstripe : StripeOpens api p.state) :
    CanCheckOut api p.state r ↔ Chargeable p.state r ∧
      leftBehind r.id ((serviceSystem api).effects xs ⟨w, []⟩) = [] := by
  have hleft := (leftPayments_run hw hx r.id).left (by rw [hr.found]; rfl)
  constructor
  · refine fun hopen => ⟨fun s hs => ?_, ?_⟩
    · by_contra hfits
      exact checkout_overflows hr.found hr.held hs hfits hopen
    · by_contra hne
      obtain ⟨n, hn⟩ := List.exists_mem_of_ne_nil _ hne
      obtain ⟨q, hq, hid⟩ := (hleft n).mp hn
      exact checkout_refused hr.found hr.held ⟨q, mem_of_get hq, hid⟩ hopen
  · rintro ⟨hprice, hnil⟩
    obtain ⟨s, hs, -⟩ := hr.scheduled
    refine checkout_granted hr.found hr.held hs (hprice s hs) (fun q hq hid => ?_) hstripe
    have hmem := (hleft q.id).mpr ⟨q, get_of_mem hq, hid⟩
    rw [hnil] at hmem
    cases hmem

/-- User 1 holds seat 1 and asks for a checkout session. -/
def heldAndAsked : List (Choice Err Request (Env Account.Action)) :=
  .spawn (.booking (.reserve 1 ⟨1, 1⟩)) :: solo 0 8 ++
    [.spawn (.booking (.createCheckoutSession 1 1))]

/-- Stripe opens no session, and the payment is deleted. -/
def sessionRefused : List (Choice Err Request (Env Account.Action)) :=
  heldAndAsked ++ solo 1 5 ++ [.step 1 (.lost .stripe), .step 1 .answered]

theorem refused_session_open : ∃ p r,
    (serviceSystem testMode).schedule sessionRefused ⟨theatre, []⟩ = some p ∧
      LiveHold p.state r ∧ CanCheckOut testMode p.state r := by
  have hrun : ((serviceSystem testMode).schedule sessionRefused ⟨theatre, []⟩).any fun p =>
      ∃ r ∈ p.state.db.reservations.get 1, r.id = 1 ∧ LiveHold p.state r ∧
        Chargeable p.state r := by decide +kernel
  obtain ⟨p, hp, hrun⟩ := (Option.any_eq_true _ _).mp hrun
  obtain ⟨r, -, hid, hr, hprice⟩ := of_decide_eq_true hrun
  refine ⟨p, r, hp, hr, (checkout_open_iff testMode theatre (by decide +kernel) sessionRefused p hp
    r hr fun _ => ⟨_, rfl⟩).mpr ⟨hprice, ?_⟩⟩
  rw [hid]
  decide +kernel

/-- User 1 gets the session and leaves it. -/
def sessionAbandoned : List (Choice Err Request (Env Account.Action)) :=
  heldAndAsked ++ solo 1 8

/-- A hold whose checkout was abandoned is a dead end. -/
theorem abandoned_dead_end : ¬ ∀ xs p r,
    (serviceSystem testMode).schedule xs ⟨theatre, []⟩ = some p → LiveHold p.state r →
      StripeOpens testMode p.state → CanCheckOut testMode p.state r := by
  intro hall
  have hrun : ((serviceSystem testMode).schedule sessionAbandoned ⟨theatre, []⟩).any fun p =>
      ∃ r ∈ p.state.db.reservations.get 1, LiveHold p.state r ∧
        ((perform testMode (createCheckoutSession r.userId r.id) p.state).1.toOption = none) := by
    decide +kernel
  obtain ⟨p, hp, hrun⟩ := (Option.any_eq_true _ _).mp hrun
  obtain ⟨r, -, hr, hrefused⟩ := of_decide_eq_true hrun
  obtain ⟨url, hurl⟩ := hall sessionAbandoned p r hp hr fun _ => ⟨_, rfl⟩
  rw [hurl] at hrefused
  cases hrefused

end MovieReservation
