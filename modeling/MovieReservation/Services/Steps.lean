import MovieReservation.Effects
import MovieReservation.Services.Footprint

/-! What one command of the booking handlers can do to a reservation and to a payment:
every way in which a row comes up, changes or goes, with the guard of each. -/

namespace MovieReservation

open Lib Lib.Table

/-- Another active reservation has the seat of reservation `id` for its screening. -/
def SeatTaken (id : ℕ) (db : Db) : Prop :=
  ∃ r ∈ db.reservations.get id, ∃ s ∈ db.reservations.rows, s.id ≠ id ∧ s.status.active ∧
    s.seatId = r.seatId ∧ s.screeningId = r.screeningId

instance (id : ℕ) : DecidablePred (SeatTaken id) := fun db =>
  inferInstanceAs (Decidable (∃ r ∈ db.reservations.get id, ∃ s ∈ db.reservations.rows,
    s.id ≠ id ∧ s.status.active ∧ s.seatId = r.seatId ∧ s.screeningId = r.screeningId))

/-- The `data` of `confirm`. -/
def confirmData : ReservationData := { status := some .confirmed, heldUntil := some none }

theorem clash_confirm_iff {db : Db} {id : ℕ} {r : Reservation}
    (hr : db.reservations.get id = some r) :
    db.reservations.Clash activeKey id (activeKey (confirmData.apply r)) ↔ SeatTaken id db := by
  have hkey : activeKey (confirmData.apply r) = some (r.seatId, r.screeningId) := rfl
  rw [hkey]
  constructor
  · rintro ⟨s, hs, hne, -, hk⟩
    obtain ⟨ha, he⟩ := activeKey_eq_some.mp hk
    obtain ⟨hseat, hscreening⟩ := Prod.mk.inj he
    exact ⟨r, hr, s, hs, hne, ha, hseat, hscreening⟩
  · rintro ⟨r', hr', s, hs, hne, ha, hseat, hscreening⟩
    rw [Option.mem_def, hr, Option.some.injEq] at hr'
    subst hr'
    exact ⟨s, hs, hne, rfl, activeKey_eq_some.mpr ⟨ha, by rw [hseat, hscreening]⟩⟩

/-! ### Reservations -/

/-- How a command rewrites reservation `id`. -/
inductive Rewrite (db : Db) (id : ℕ) : Cmd → Reservation → Reservation → Prop
  | keep (c : Cmd) (r : Reservation) : Rewrite db id c r r
  | lapse {r : Reservation} {until' : Time} (now : Time) : r.status = .held →
    r.heldUntil = some until' → until' < now →
    Rewrite db id (.releaseExpiredHolds now) r { r with status := .cancelled, heldUntil := none }
  | extend (t : Time) (r : Reservation) :
    Rewrite db id (.reservationUpdate id { heldUntil := some (some t) }) r
      { r with heldUntil := some t }
  | cancel (r : Reservation) :
    Rewrite db id (.reservationUpdate id { status := some .cancelled }) r
      { r with status := .cancelled }
  | confirm (r : Reservation) : ¬ SeatTaken id db →
    Rewrite db id (.reservationUpdate id confirmData) r
      { r with status := .confirmed, heldUntil := none }
  | decline (paymentId : ℕ) (r : Reservation) : (db.payments.get paymentId).isSome →
    Rewrite db id (.declineWithReservation paymentId id) r { r with status := .cancelled }
  | settle (paymentId : ℕ) (intent : Option ℕ) (r : Reservation) :
    (db.payments.get paymentId).isSome → ¬ SeatTaken id db →
    Rewrite db id (.confirmWithReservation paymentId id intent) r
      { r with status := .confirmed, heldUntil := none }

namespace Db
variable {db db' : Db} {id : ℕ} {r : Reservation}

/-- What an update makes of each reservation. -/
theorem reservationUpdate_map {n : ℕ} {d : ReservationData} {x : Reservation}
    (hu : db.reservationUpdate n d = .ok (x, db')) (id : ℕ) : db'.reservations.get id =
      (db.reservations.get id).map fun r => if id = n then d.apply r else r := by
  obtain ⟨_, -, -, -, ht⟩ := reservationUpdate_eq_ok hu
  rw [ht]
  exact get_modify_map d.id_apply id

theorem paymentUpdate_map {n : ℕ} {d : PaymentData} {x : Payment}
    (hu : db.paymentUpdate n d = .ok (x, db')) (id : ℕ) : db'.payments.get id =
      (db.payments.get id).map fun p => if id = n then d.apply p else p := by
  obtain ⟨_, -, -, -, ht⟩ := paymentUpdate_eq_ok hu
  rw [ht]
  exact get_modify_map d.id_apply id

section UpdateBoth
variable {pid n : ℕ} {p : PaymentData} {d : ReservationData} {x : Payment × Reservation}

theorem updateBoth_reservations (hu : db.updateBoth pid p n d = .ok (x, db')) (id : ℕ) :
    db'.reservations.get id =
      (db.reservations.get id).map fun r => if id = n then d.apply r else r := by
  obtain ⟨db₁, h₁, h₂⟩ := updateBoth_eq_ok hu
  obtain ⟨_, -, -, -, ht⟩ := paymentUpdate_eq_ok h₁
  rw [reservationUpdate_map h₂, ht]

theorem updateBoth_payments (hu : db.updateBoth pid p n d = .ok (x, db')) (id : ℕ) :
    db'.payments.get id =
      (db.payments.get id).map fun q => if id = pid then p.apply q else q := by
  obtain ⟨db₁, h₁, h₂⟩ := updateBoth_eq_ok hu
  obtain ⟨_, -, -, -, ht⟩ := reservationUpdate_eq_ok h₂
  rw [← paymentUpdate_map h₁, ht]

end UpdateBoth

theorem reservationUpdate_get {n : ℕ} {d : ReservationData} {x : Reservation}
    (hu : db.reservationUpdate n d = .ok (x, db')) (hr : db.reservations.get id = some r) :
    db'.reservations.get id = some (if id = n then d.apply r else r) := by
  rw [reservationUpdate_map hu, hr, Option.map_some]

theorem updateBoth_get {pid n : ℕ} {p : PaymentData} {d : ReservationData}
    {x : Payment × Reservation} (hu : db.updateBoth pid p n d = .ok (x, db'))
    (hr : db.reservations.get id = some r) :
    (db.payments.get pid).isSome ∧
      db'.reservations.get id = some (if id = n then d.apply r else r) := by
  obtain ⟨db₁, h₁, -⟩ := updateBoth_eq_ok hu
  obtain ⟨p₀, hp₀, -⟩ := paymentUpdate_eq_ok h₁
  refine ⟨by rw [hp₀]; rfl, ?_⟩
  rw [updateBoth_reservations hu, hr, Option.map_some]

/-- The reservation that was written sits where it sat. -/
theorem updateBoth_home {pid n : ℕ} {p : PaymentData} {d : ReservationData}
    {x : Payment × Reservation} (hu : db.updateBoth pid p n d = .ok (x, db'))
    (hr : db.reservations.get n = some r) :
    x.2.screeningId = r.screeningId ∧ x.2.seatId = r.seatId := by
  obtain ⟨db₁, h₁, h₂⟩ := updateBoth_eq_ok hu
  obtain ⟨_, -, -, -, ht⟩ := paymentUpdate_eq_ok h₁
  obtain ⟨r₀, hr₀, he, -, -⟩ := reservationUpdate_eq_ok h₂
  rw [ht, hr, Option.some.injEq] at hr₀
  rw [he, hr₀]
  exact ⟨rfl, rfl⟩

theorem not_seatTaken_of_confirm {x : Reservation}
    (hu : db.reservationUpdate id confirmData = .ok (x, db')) : ¬ SeatTaken id db := by
  obtain ⟨r₀, hr₀, rfl, hc, -⟩ := reservationUpdate_eq_ok hu
  rwa [clash_confirm_iff hr₀] at hc

end Db

section Step
variable {σ A : Type} (api : StripeApi σ A) {op : BookingRequest} {c : Cmd} {w : World σ} {id : ℕ}

/-- A statement that failed or kept the reservations. -/
theorem rewrite_commit {α : Type} {x : Except Err (α × Db)} {r : Reservation}
    (hr : w.db.reservations.get id = some r)
    (hx : ∀ a db', x = .ok (a, db') →
      ∃ s, db'.reservations.get id = some s ∧ Rewrite w.db id c r s) :
    ∃ s, (w.commit x).2.db.reservations.get id = some s ∧ Rewrite w.db id c r s :=
  World.commit_rule (P := fun db => ∃ s, db.reservations.get id = some s ∧ Rewrite w.db id c r s)
    ⟨r, hr, .keep _ _⟩ hx

/-- A reservation is never lost, and changes in these ways only. -/
theorem reservation_step (hc : BookingCmd op c) {r : Reservation}
    (hr : w.db.reservations.get id = some r) :
    ∃ s, (World.exec api c w).2.db.reservations.get id = some s ∧ Rewrite w.db id c r s := by
  cases hc with
  | quiet hc =>
    rw [World.exec_quiet api hc]
    exact ⟨r, hr, .keep _ _⟩
  | session params _ => exact ⟨r, hr, .keep _ _⟩
  | holdSeat p _ =>
    refine rewrite_commit hr fun a db' hok => ⟨r, ?_, .keep _ _⟩
    obtain ⟨_, -, -, -, -, -, ht⟩ := Db.holdSeat_eq_ok hok
    have hlt : id < w.db.reservations.serial := lt_serial_of_get hr
    rw [ht]
    simp only [get_insert, if_neg (Nat.ne_of_lt hlt)]
    exact hr
  | sweep t _ =>
    refine ⟨Db.release t r, ?_, ?_⟩
    · show (w.db.reservations.update (Db.release t) (Db.release_id t)).get id = _
      rw [get_update, hr, Option.map_some]
    · unfold Db.release
      split_ifs with he
      · simp only [Db.expired, Bool.and_eq_true, decide_eq_true_eq, Option.any_eq_true] at he
        obtain ⟨hheld, u, hu, hlt⟩ := he
        exact .lapse t hheld hu hlt
      · exact .keep _ _
  | extend n t _ =>
    refine rewrite_commit hr fun a db' hok => ⟨_, Db.reservationUpdate_get hok hr, ?_⟩
    split_ifs with hn
    · subst hn
      exact .extend t r
    · exact .keep _ _
  | confirm n _ =>
    refine rewrite_commit hr fun a db' hok => ⟨_, Db.reservationUpdate_get hok hr, ?_⟩
    split_ifs with hn
    · subst hn
      exact .confirm r (Db.not_seatTaken_of_confirm hok)
    · exact .keep _ _
  | cancel n _ =>
    refine rewrite_commit hr fun a db' hok => ⟨_, Db.reservationUpdate_get hok hr, ?_⟩
    split_ifs with hn
    · subst hn
      exact .cancel r
    · exact .keep _ _
  | pay hd _ =>
    refine rewrite_commit hr fun a db' hok => ⟨r, ?_, .keep _ _⟩
    obtain ⟨-, -, -, ht⟩ := Db.paymentCreate_eq_ok hok
    rw [ht]
    exact hr
  | payment n d hd =>
    cases n with
    | none => exact ⟨r, hr, .keep _ _⟩
    | some n =>
      refine rewrite_commit hr fun a db' hok => ⟨r, ?_, .keep _ _⟩
      obtain ⟨_, -, -, -, ht⟩ := Db.paymentUpdate_eq_ok hok
      rw [ht]
      exact hr
  | drop n _ =>
    refine rewrite_commit hr fun a db' hok => ⟨r, ?_, .keep _ _⟩
    obtain ⟨-, ht⟩ := Db.paymentDelete_eq_ok hok
    rw [ht]
    exact hr
  | decline p n hj =>
    refine rewrite_commit hr fun a db' hok => ⟨_, (Db.updateBoth_get hok hr).2, ?_⟩
    split_ifs with hn
    · subst hn
      exact .decline p r (Db.updateBoth_get hok hr).1
    · exact .keep _ _
  | settle p n i hj =>
    refine rewrite_commit hr fun a db' hok => ⟨_, (Db.updateBoth_get hok hr).2, ?_⟩
    split_ifs with hn
    · subst hn
      obtain ⟨db₁, h₁, h₂⟩ := Db.updateBoth_eq_ok hok
      obtain ⟨_, -, -, -, ht⟩ := Db.paymentUpdate_eq_ok h₁
      have hfree := Db.not_seatTaken_of_confirm h₂
      simp only [SeatTaken, ht] at hfree
      exact .settle p i r (Db.updateBoth_get hok hr).1 hfree
    · exact .keep _ _

/-- A reservation comes up only by being held, under the next key of the serial. -/
theorem reservation_born (hc : BookingCmd op c) {s : Reservation}
    (hnone : w.db.reservations.get id = none)
    (hs : (World.exec api c w).2.db.reservations.get id = some s) :
    ∃ p, c = .holdSeat p ∧ id = w.db.reservations.serial ∧ s = p.row id := by
  have hcommit : ∀ {α : Type} {x : Except Err (α × Db)},
      (∀ a db', x = .ok (a, db') → db'.reservations.get id = none) →
        (w.commit x).2.db.reservations.get id = none :=
    World.commit_rule (P := fun db => db.reservations.get id = none) hnone
  have hdead : (World.exec api c w).2.db.reservations.get id ≠ none := by
    rw [hs]
    exact Option.some_ne_none s
  cases hc with
  | quiet hc =>
    rw [World.exec_quiet api hc] at hdead
    exact absurd hnone hdead
  | session params _ => exact absurd hnone hdead
  | holdSeat p _ =>
    refine ⟨p, rfl, ?_⟩
    rcases w.commit_cases (w.db.holdSeat p) with ⟨a, db', hok, hcm⟩ | ⟨e, -, hcm⟩
    · obtain ⟨_, -, -, -, -, -, ht⟩ := Db.holdSeat_eq_ok hok
      simp only [World.exec, hcm, ht, get_insert] at hs
      split_ifs at hs with hid
      · cases hs
        exact ⟨hid, by rw [hid]⟩
      · rw [hnone] at hs
        cases hs
    · simp only [World.exec, hcm] at hs
      rw [hnone] at hs
      cases hs
  | sweep t _ =>
    refine absurd ?_ hdead
    show (w.db.reservations.update (Db.release t) (Db.release_id t)).get id = none
    rw [get_update, hnone, Option.map_none]
  | extend n t _ | confirm n _ | cancel n _ =>
    refine absurd (hcommit fun a db' hok => ?_) hdead
    rw [Db.reservationUpdate_map hok, hnone, Option.map_none]
  | pay hd _ =>
    refine absurd (hcommit fun a db' hok => ?_) hdead
    obtain ⟨-, -, -, ht⟩ := Db.paymentCreate_eq_ok hok
    rw [ht]
    exact hnone
  | payment n d hd =>
    cases n with
    | none => exact absurd hnone hdead
    | some n =>
      refine absurd (hcommit fun a db' hok => ?_) hdead
      obtain ⟨_, -, -, -, ht⟩ := Db.paymentUpdate_eq_ok hok
      rw [ht]
      exact hnone
  | drop n _ =>
    refine absurd (hcommit fun a db' hok => ?_) hdead
    obtain ⟨-, ht⟩ := Db.paymentDelete_eq_ok hok
    rw [ht]
    exact hnone
  | decline p n hj | settle p n i hj =>
    refine absurd (hcommit fun a db' hok => ?_) hdead
    rw [Db.updateBoth_reservations hok, hnone, Option.map_none]

/-! ### Payments -/

/-- How a command rewrites payment `id`, or deletes it. -/
inductive PaymentRewrite (id : ℕ) : Cmd → Payment → Option Payment → Prop
  | keep (c : Cmd) (p : Payment) : PaymentRewrite id c p (some p)
  | update (d : PaymentData) (p : Payment) :
    PaymentRewrite id (.paymentUpdate (some id) d) p (some (d.apply p))
  | delete (p : Payment) : PaymentRewrite id (.paymentDelete id) p none
  | decline (n : ℕ) (p : Payment) :
    PaymentRewrite id (.declineWithReservation id n) p (some { p with status := .declined })
  | settle (n : ℕ) (intent : Option ℕ) (p : Payment) :
    PaymentRewrite id (.confirmWithReservation id n intent) p
      (some { p with status := .succeeded, stripePaymentId := intent })

/-- A statement that failed or kept the payment. -/
theorem paymentRewrite_commit {α : Type} {x : Except Err (α × Db)} {p : Payment}
    (hp : w.db.payments.get id = some p)
    (hx : ∀ a db', x = .ok (a, db') → PaymentRewrite id c p (db'.payments.get id)) :
    PaymentRewrite id c p ((w.commit x).2.db.payments.get id) :=
  World.commit_rule (P := fun db => PaymentRewrite id c p (db.payments.get id))
    (hp ▸ .keep _ _) hx

theorem payment_step (hc : BookingCmd op c) {p : Payment} (hp : w.db.payments.get id = some p) :
    PaymentRewrite id c p ((World.exec api c w).2.db.payments.get id) := by
  have hsame : ∀ {db' : Db}, db'.payments = w.db.payments →
      PaymentRewrite id c p (db'.payments.get id) := by
    intro db' he
    rw [he, hp]
    exact .keep _ _
  cases hc with
  | quiet hc => exact hsame (by rw [World.exec_quiet api hc])
  | session params _ => exact hsame rfl
  | holdSeat q _ =>
    refine paymentRewrite_commit hp fun a db' hok => ?_
    obtain ⟨_, -, -, -, -, -, ht⟩ := Db.holdSeat_eq_ok hok
    exact hsame (by rw [ht])
  | sweep t _ => exact hsame rfl
  | extend n t _ | confirm n _ | cancel n _ =>
    refine paymentRewrite_commit hp fun a db' hok => ?_
    obtain ⟨_, -, -, -, ht⟩ := Db.reservationUpdate_eq_ok hok
    exact hsame (by rw [ht])
  | pay hd _ =>
    refine paymentRewrite_commit hp fun a db' hok => ?_
    obtain ⟨-, -, -, ht⟩ := Db.paymentCreate_eq_ok hok
    have hlt : id < w.db.payments.serial := lt_serial_of_get hp
    rw [ht]
    simp only [get_insert, if_neg (Nat.ne_of_lt hlt), hp]
    exact .keep _ _
  | payment n d hd =>
    cases n with
    | none => exact hsame rfl
    | some n =>
      refine paymentRewrite_commit hp fun a db' hok => ?_
      rw [Db.paymentUpdate_map hok, hp, Option.map_some]
      split_ifs with hn
      · subst hn
        exact .update d p
      · exact .keep _ _
  | drop n _ =>
    refine paymentRewrite_commit hp fun a db' hok => ?_
    obtain ⟨-, ht⟩ := Db.paymentDelete_eq_ok hok
    rw [ht]
    simp only [erase, get_filter, hp, Option.filter_some, row_payment, decide_eq_true_eq]
    have hid : p.id = id := id_of_get hp
    split_ifs with hn
    · exact .keep _ _
    · rw [hid, not_not] at hn
      subst hn
      exact .delete p
  | decline n rid hj =>
    refine paymentRewrite_commit hp fun a db' hok => ?_
    rw [Db.updateBoth_payments hok, hp, Option.map_some]
    split_ifs with hn
    · subst hn
      exact .decline rid p
    · exact .keep _ _
  | settle n rid i hj =>
    refine paymentRewrite_commit hp fun a db' hok => ?_
    rw [Db.updateBoth_payments hok, hp, Option.map_some]
    split_ifs with hn
    · subst hn
      exact .settle rid i p
    · exact .keep _ _

/-- A payment stays with its reservation, unless it is deleted. -/
theorem payment_kept (hc : BookingCmd op c) {p : Payment} (hp : w.db.payments.get id = some p) :
    (∃ q, (World.exec api c w).2.db.payments.get id = some q ∧
      q.reservationId = p.reservationId) ∨ c = .paymentDelete id := by
  have hrw := payment_step api hc hp
  cases hq : (World.exec api c w).2.db.payments.get id with
  | none =>
    rw [hq] at hrw
    cases hrw
    exact .inr rfl
  | some q =>
    rw [hq] at hrw
    cases hrw <;> exact .inl ⟨_, rfl, rfl⟩

/-- A payment comes up only by being created, under the next key of the serial, and as
the only one of its reservation. -/
theorem payment_born (hc : BookingCmd op c) {q : Payment} (hnone : w.db.payments.get id = none)
    (hq : (World.exec api c w).2.db.payments.get id = some q) :
    ∃ d, c = .paymentCreate d ∧ id = w.db.payments.serial ∧ q = d.row w.now id ∧
      ∀ x ∈ w.db.payments.rows, x.reservationId ≠ d.reservationId := by
  have hsame : ∀ {db' : Db}, db'.payments = w.db.payments → db'.payments.get id = none := by
    intro db' he
    rw [he, hnone]
  have hcommit : ∀ {α : Type} {x : Except Err (α × Db)},
      (∀ a db', x = .ok (a, db') → db'.payments.get id = none) →
        (w.commit x).2.db.payments.get id = none :=
    World.commit_rule (P := fun db => db.payments.get id = none) hnone
  have hdead : (World.exec api c w).2.db.payments.get id ≠ none := by
    rw [hq]
    exact Option.some_ne_none _
  cases hc with
  | quiet hc => exact absurd (hsame (by rw [World.exec_quiet api hc])) hdead
  | session params _ => exact absurd (hsame rfl) hdead
  | holdSeat p _ =>
    refine absurd (hcommit fun a db' hok => ?_) hdead
    obtain ⟨_, -, -, -, -, -, ht⟩ := Db.holdSeat_eq_ok hok
    exact hsame (by rw [ht])
  | sweep t _ => exact absurd (hsame rfl) hdead
  | extend n t _ | confirm n _ | cancel n _ =>
    refine absurd (hcommit fun a db' hok => ?_) hdead
    obtain ⟨_, -, -, -, ht⟩ := Db.reservationUpdate_eq_ok hok
    exact hsame (by rw [ht])
  | @pay d hd _ =>
    rcases w.commit_cases (w.db.paymentCreate w.now d) with ⟨a, db', hok, hcm⟩ | ⟨e, -, hcm⟩
    · obtain ⟨-, -, hfree, ht⟩ := Db.paymentCreate_eq_ok hok
      simp only [World.exec, hcm, ht, get_insert] at hq
      split_ifs at hq with hid
      · cases hq
        exact ⟨d, rfl, hid, by rw [hid], hfree⟩
      · rw [hnone] at hq
        cases hq
    · simp only [World.exec, hcm] at hq
      rw [hnone] at hq
      cases hq
  | payment n d hd =>
    cases n with
    | none => exact absurd (hsame rfl) hdead
    | some n =>
      refine absurd (hcommit fun a db' hok => ?_) hdead
      rw [Db.paymentUpdate_map hok, hnone, Option.map_none]
  | drop n _ =>
    refine absurd (hcommit fun a db' hok => ?_) hdead
    obtain ⟨-, ht⟩ := Db.paymentDelete_eq_ok hok
    rw [ht]
    simp only [erase, get_filter, hnone, Option.filter_none]
  | decline n rid hj | settle n rid i hj =>
    refine absurd (hcommit fun a db' hok => ?_) hdead
    rw [Db.updateBoth_payments hok, hnone, Option.map_none]

end Step

/-! ### What no booking writes -/

/-- The tables of what is offered: movies, halls, screenings, refund policies. -/
structure Db.SameOffer (db db' : Db) : Prop where
  movies : db'.movies = db.movies
  halls : db'.halls = db.halls
  screenings : db'.screenings = db.screenings
  refundPolicies : db'.refundPolicies = db.refundPolicies

section Offer
variable {db db' : Db}

theorem Db.SameOffer.refl (db : Db) : db.SameOffer db := ⟨rfl, rfl, rfl, rfl⟩

theorem Db.SameOffer.trans {a b c : Db} (h : a.SameOffer b) (h' : b.SameOffer c) : a.SameOffer c :=
  ⟨h'.movies.trans h.movies, h'.halls.trans h.halls, h'.screenings.trans h.screenings,
    h'.refundPolicies.trans h.refundPolicies⟩

theorem Db.SameOffer.of_tables {t : Table Reservation} {u : Table Payment}
    (h : db'.toTables = { db.toTables with reservations := t, payments := u }) :
    db.SameOffer db' := by
  constructor <;> rw [h]

theorem Db.SameOffer.screeningFindById (h : db.SameOffer db') (id : ℕ) :
    db'.screeningFindById id = db.screeningFindById id := by
  unfold Db.screeningFindById
  rw [h.screenings, h.movies, h.halls]

theorem Db.SameOffer.findRefundPolicy (h : db.SameOffer db') (hours : ℚ) :
    db'.findRefundPolicy hours = db.findRefundPolicy hours := by
  unfold Db.findRefundPolicy
  rw [h.refundPolicies]

variable {σ A : Type} (api : StripeApi σ A) {op : BookingRequest} {c : Cmd} {w : World σ}

/-- The booking handlers write reservations and payments only. -/
theorem booking_offer (hc : BookingCmd op c) : w.db.SameOffer (World.exec api c w).2.db := by
  have hcommit : ∀ {α : Type} {r : Except Err (α × Db)},
      (∀ a db, r = .ok (a, db) → w.db.SameOffer db) → w.db.SameOffer (w.commit r).2.db :=
    World.commit_rule (.refl w.db)
  cases hc with
  | quiet hq =>
    rw [World.exec_quiet api hq]
    exact .refl w.db
  | session params _ => exact .refl w.db
  | sweep t _ => exact ⟨rfl, rfl, rfl, rfl⟩
  | holdSeat p _ =>
    refine hcommit fun r db' hok => ?_
    obtain ⟨_, -, -, -, -, -, ht⟩ := Db.holdSeat_eq_ok hok
    exact .of_tables ht
  | extend n t _ | confirm n _ | cancel n _ =>
    refine hcommit fun r db' hok => ?_
    obtain ⟨_, -, -, -, ht⟩ := Db.reservationUpdate_eq_ok hok
    exact .of_tables ht
  | pay _ _ =>
    refine hcommit fun r db' hok => ?_
    obtain ⟨-, -, -, ht⟩ := Db.paymentCreate_eq_ok hok
    exact .of_tables ht
  | payment n d _ =>
    cases n with
    | none => exact .refl w.db
    | some n =>
      refine hcommit fun r db' hok => ?_
      obtain ⟨_, -, -, -, ht⟩ := Db.paymentUpdate_eq_ok hok
      exact .of_tables ht
  | drop n _ =>
    refine hcommit fun r db' hok => ?_
    obtain ⟨-, ht⟩ := Db.paymentDelete_eq_ok hok
    exact .of_tables ht
  | decline p n _ | settle p n i _ =>
    refine hcommit fun r db' hok => ?_
    obtain ⟨db₁, hp, hr⟩ := Db.updateBoth_eq_ok hok
    obtain ⟨_, -, -, -, ht₁⟩ := Db.paymentUpdate_eq_ok hp
    obtain ⟨_, -, -, -, ht⟩ := Db.reservationUpdate_eq_ok hr
    exact (Db.SameOffer.of_tables ht₁).trans (.of_tables ht)

end Offer

end MovieReservation
