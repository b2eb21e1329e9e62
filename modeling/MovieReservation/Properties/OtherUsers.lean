import MovieReservation.Lib.Retry
import MovieReservation.Services.Admin
import MovieReservation.Services.Sales

/-! The bookings of other users: a request on a reservation that belongs to somebody else
ends as if there were no such reservation, and no request of a user writes a row of
anybody else, whatever runs beside it and wherever it fails. -/

namespace MovieReservation

open Lib Lib.Prog Lib.Table Lib.System

variable {σ A : Type}

/-- The requests on reservation `id`. -/
inductive BookingRequest.Concerns (u id : ℕ) : BookingRequest → Prop
  | cancel : Concerns u id (.cancel u id)
  | createCheckoutSession : Concerns u id (.createCheckoutSession u id)
  | getStatus : Concerns u id (.getStatus u id)

/-- The booking and payment requests of a user. -/
inductive BookingRequest.By (u : ℕ) : BookingRequest → Prop
  | reserve (dto : CreateReservationDto) : By u (.reserve u dto)
  | concerns {id : ℕ} {op : BookingRequest} (h : op.Concerns u id) : By u op

/-- Reservation `id` is not the user's, be it another's or none at all. -/
def NotOwn (u id : ℕ) (db : Db) : Prop :=
  ∀ r, db.reservations.get id = some r → r.userId ≠ u

/-- No row that belongs to another user differs, is missing or was added. -/
structure Untouched (u : ℕ) (db db' : Db) : Prop where
  reservations : ∀ id r, r.userId ≠ u →
    (db.reservations.get id = some r ↔ db'.reservations.get id = some r)
  payments : ∀ n p r, db.reservations.get p.reservationId = some r → r.userId ≠ u →
    (db.payments.get n = some p ↔ db'.payments.get n = some p)

theorem Untouched.refl (u : ℕ) (db : Db) : Untouched u db db :=
  ⟨fun _ _ _ => Iff.rfl, fun _ _ _ _ _ => Iff.rfl⟩

theorem Untouched.trans {u : ℕ} {a b c : Db} (h : Untouched u a b) (h' : Untouched u b c) :
    Untouched u a c where
  reservations id r hr := (h.reservations id r hr).trans (h'.reservations id r hr)
  payments n p r hget hr :=
    (h.payments n p r hget hr).trans (h'.payments n p r ((h.reservations _ r hr).mp hget) hr)

/-! ### A reservation of somebody else -/

section Hidden
variable {u id : ℕ} {op : BookingRequest}

theorem concerns_handle (h : op.Concerns u id) :
    ∃ f, op.handle = ReservationsService.findOwned u id >>= f := by
  cases h with
  | cancel => exact ⟨_, map_bind _ _ _⟩
  | createCheckoutSession => exact ⟨_, map_bind _ _ _⟩
  | getStatus => exact ⟨_, map_bind _ _ _⟩

/-- Such a request looks the reservation up, and ends there unless it is the user's. -/
theorem concerns_lookup (h : op.Concerns u id) :
    ∃ k, op.handle = .call (.reservationFindById id) k ∧
      (∀ e, k (.error e) = .done (.error e)) ∧
      ∀ found : Option Reservation, (∀ r, found = some r → r.userId ≠ u) →
        k (.ok found) = .done (.error (ReservationsService.reservationNotFound id)) := by
  obtain ⟨f, hf⟩ := concerns_handle h
  refine ⟨_, hf, fun e => rfl, fun found hfound => ?_⟩
  cases found with
  | none => rfl
  | some r =>
    change (throwIf (r.userId ≠ u) (ReservationsService.reservationNotFound id) >>=
      fun _ => pure r) >>= f = _
    rw [throwIf, if_pos (hfound r rfl)]
    rfl

theorem concerns_perform (api : StripeApi σ A) (h : op.Concerns u id) {w : World σ}
    (hw : NotOwn u id w.db) :
    perform api op.handle w = (.error (ReservationsService.reservationNotFound id), w) ∧
      op.handle.issued (World.exec api) w = [.reservationFindById id] := by
  obtain ⟨k, hcall, -, hrefuse⟩ := concerns_lookup h
  have hend := hrefuse (w.db.reservations.get id) hw
  rw [hcall]
  constructor
  · change (k (.ok (w.db.reservations.get id))).run (World.exec api) w = _
    rw [hend]
    rfl
  · change .reservationFindById id :: (k (.ok (w.db.reservations.get id))).issued _ w = _
    rw [hend]
    rfl

/-- How a request on a reservation that is not the user's ends: what it carried out and its
response. -/
def refusal (id : ℕ) : List (Outcome Err) → Option (List Cmd × Except Err Response)
  | [.answered] =>
    some ([.reservationFindById id], .error (ReservationsService.reservationNotFound id))
  | [.lost e] => if e = .unreachable then some ([], .error e) else none
  | [.unacknowledged e] =>
    if e = .unreachable then some ([.reservationFindById id], .error e) else none
  | _ => none

theorem refusal_reads {os : List (Outcome Err)} {x : List Cmd × Except Err Response}
    (h : refusal id os = some x) :
    (∀ c ∈ x.1, c = .reservationFindById id) ∧ ∃ e, x.2 = .error e := by
  unfold refusal at h
  split at h
  · cases h
    exact ⟨fun c hc => List.mem_singleton.mp hc, _, rfl⟩
  · split_ifs at h
    cases h
    exact ⟨List.forall_mem_nil _, _, rfl⟩
  · split_ifs at h
    cases h
    exact ⟨fun c hc => List.mem_singleton.mp hc, _, rfl⟩
  · cases h

/-- However the command ends, the state is the one before, and the response does not tell
what there was under the id. -/
theorem concerns_attempt (api : StripeApi σ A) (h : op.Concerns u id) (i : ℕ)
    (os : List (Outcome Err)) {w : World σ} (hw : NotOwn u id w.db) :
    (serviceSystem api).attempt i os op.handle w = (refusal id os).map fun x => (x.1, x.2, w) := by
  obtain ⟨k, hcall, herror, hrefuse⟩ := concerns_lookup h
  have hend := hrefuse (w.db.reservations.get id) hw
  rw [hcall]
  cases os with
  | nil => rfl
  | cons o os =>
    cases o with
    | answered =>
      change (attempt _ i os (k (.ok (w.db.reservations.get id))) w).map _ = _
      rw [hend]
      cases os <;> rfl
    | lost e =>
      by_cases he : e = .unreachable
      · subst he
        change (attempt _ i os (k (.error .unreachable)) w).map _ = _
        rw [herror]
        cases os <;> rfl
      · have hfault : Cmd.fault (.reservationFindById id) e = false := decide_eq_false he
        cases os <;> simp [attempt, finish, serviceSystem, hfault, refusal, he]
    | unacknowledged e =>
      by_cases he : e = .unreachable
      · subst he
        change (attempt _ i os (k (.error .unreachable)) w).map _ = _
        rw [herror]
        cases os <;> rfl
      · have hfault : Cmd.fault (.reservationFindById id) e = false := decide_eq_false he
        cases os <;> simp [attempt, finish, serviceSystem, hfault, refusal, he]

end Hidden

/-! ### What a request knows of the rows it writes -/

/-- The reservation was looked up, and is the user's. -/
def Owns (u n : ℕ) (l : Trail) : Prop :=
  ∃ id r, ⟨.reservationFindById id, .ok (some r)⟩ ∈ l ∧ r.userId = u ∧ (n = id ∨ n = r.id)

/-- The payment was found for the user's reservation, or created for it. -/
def Pays (u m : ℕ) (l : Trail) : Prop :=
  (∃ n p, ⟨.paymentFindByReservationId n, .ok (some p)⟩ ∈ l ∧ p.id = m ∧ Owns u n l) ∨
    ∃ d p, ⟨.paymentCreate d, .ok p⟩ ∈ l ∧ p.id = m ∧ Owns u d.reservationId l

/-- Only rows of the user are written. -/
def OwnGround (u : ℕ) (l : Trail) : Cmd → Prop
  | .holdSeat p => p.userId = u
  | .reservationUpdate n _ => Owns u n l
  | .paymentCreate d => Owns u d.reservationId l
  | .paymentUpdate n _ => ∃ m, n = some m ∧ Pays u m l
  | .paymentDelete m => Pays u m l
  | c => c.writes = false

section Ground
variable {u : ℕ} {l : Trail}

theorem Owns.append {n : ℕ} (h : Owns u n l) (l' : Trail) : Owns u n (l ++ l') := by
  obtain ⟨id, r, hmem, h⟩ := h
  exact ⟨id, r, List.mem_append_left _ hmem, h⟩

theorem Pays.append {m : ℕ} (h : Pays u m l) (l' : Trail) : Pays u m (l ++ l') := by
  rcases h with ⟨n, p, hmem, hid, hown⟩ | ⟨d, p, hmem, hid, hown⟩
  · exact .inl ⟨n, p, List.mem_append_left _ hmem, hid, hown.append _⟩
  · exact .inr ⟨d, p, List.mem_append_left _ hmem, hid, hown.append _⟩

theorem Pays.created {d : Db.PaymentCreate} (h : Owns u d.reservationId l) (p : Payment) :
    Pays u p.id (l ++ [⟨.paymentCreate d, .ok p⟩]) :=
  .inr ⟨d, p, List.mem_append_right _ (List.mem_singleton_self _), rfl, h.append _⟩

theorem ownGround_quiet {c : Cmd} (hc : c.quiet) : OwnGround u l c := by
  cases c <;> first | rfl | cases hc

theorem finalizeCancel_own {r : Reservation} (h : Owns u r.id l) :
    Informed (OwnGround u) l (ReservationsService.finalizeCancel r) := by
  unfold ReservationsService.finalizeCancel
  exact informed_issue_bind h fun _ => informed_issue_bind rfl fun _ => trivial

theorem recordRefund_own {r : Reservation} {p : Payment} (h : Owns u r.id l) (hp : Pays u p.id l)
    (refundId : Option ℕ) :
    Informed (OwnGround u) l (PaymentsService.recordRefund r p refundId) := by
  unfold PaymentsService.recordRefund
  refine informed_issue_bind rfl fun t => informed_issue_bind ⟨p.id, rfl, hp.append _⟩ fun _ => ?_
  exact finalizeCancel_own ((h.append _).append _)

theorem refundReservation_own {r : Reservation} (h : Owns u r.id l) :
    Informed (OwnGround u) l (PaymentsService.refundReservation r) := by
  unfold PaymentsService.refundReservation
  refine informed_issue_bind rfl fun found => ?_
  cases found with
  | none => trivial
  | some payment =>
    have hp : Pays u payment.id (l ++ [⟨.paymentFindByReservationId r.id, .ok (some payment)⟩]) :=
      .inl ⟨r.id, payment, by simp, rfl, h.append _⟩
    change Informed _ _ (ite _ _ _)
    split_ifs
    · exact finalizeCancel_own (h.append _)
    refine informed_issue_bind rfl fun screening => ?_
    cases screening with
    | none => trivial
    | some screening =>
      refine informed_issue_bind rfl fun t => informed_issue_bind rfl fun policy => ?_
      have hrecord : ∀ (l' : Trail) refundId, Informed (OwnGround u)
          (l ++ [⟨.paymentFindByReservationId r.id, .ok (some payment)⟩] ++ l')
          (PaymentsService.recordRefund r payment refundId) := fun l' refundId =>
        recordRefund_own ((h.append _).append l') (hp.append l') refundId
      cases payment.stripePaymentId with
      | none => simpa only [List.append_assoc] using hrecord _ none
      | some intent =>
        change Informed _ _ (ite _ _ _)
        split_ifs
        · refine informed_issue_bind rfl fun refund => ?_
          simpa only [List.append_assoc] using hrecord _ (some refund.id)
        · simpa only [List.append_assoc] using hrecord _ none

/-- What follows the look-up of the user's reservation knows whose it is. -/
theorem findOwned_own {α : Type} {id : ℕ} {f : Reservation → M α}
    (hf : ∀ r, r.userId = u → Informed (OwnGround u)
      (l ++ [⟨.reservationFindById id, .ok (some r)⟩]) (f r)) :
    Informed (OwnGround u) l (ReservationsService.findOwned u id >>= f) := by
  unfold ReservationsService.findOwned ReservationsService.getById
  rw [bind_assoc, bind_assoc]
  refine informed_issue_bind rfl fun found => ?_
  cases found with
  | none => trivial
  | some r =>
    change Informed _ _ (throwIf (r.userId ≠ u) (ReservationsService.reservationNotFound id) >>=
      (fun _ => pure r) >>= _)
    rw [bind_assoc]
    exact informed_throwIf_bind fun howner => hf r (not_not.mp howner)

theorem cancel_own (id : ℕ) :
    Informed (OwnGround u) [] (ReservationsService.cancel u id) := by
  refine findOwned_own fun r hr => ?_
  have hown : Owns u r.id ([] ++ [⟨.reservationFindById id, .ok (some r)⟩]) :=
    ⟨id, r, by simp, hr, .inr rfl⟩
  split_ifs
  · exact refundReservation_own hown
  · exact informed_throwIf_bind fun _ => finalizeCancel_own hown

theorem reserve_own (dto : CreateReservationDto) :
    Informed (OwnGround u) [] (ReservationsService.reserve u dto) :=
  reserve_informed (fun _ _ hc => ownGround_quiet hc) fun _ _ _ _ _ _ => rfl

theorem checkout_own (id : ℕ) :
    Informed (OwnGround u) [] (PaymentsService.createCheckoutSession u id) := by
  refine findOwned_own fun r hr => ?_
  have hown : Owns u id ([] ++ [⟨.reservationFindById id, .ok (some r)⟩]) :=
    ⟨id, r, by simp, hr, .inl rfl⟩
  refine informed_throwIf_bind fun _ => informed_issue_bind rfl fun existing => ?_
  refine informed_throwIf_bind fun _ => informed_issue_bind rfl fun screening => ?_
  cases screening with
  | none => trivial
  | some screening =>
    have hread := (hown.append [⟨.paymentFindByReservationId id, .ok existing⟩]).append
      [⟨.screeningFindById r.screeningId, .ok (some screening)⟩]
    refine ⟨hread, fun created => ?_⟩
    cases created with
    | error e =>
      change Informed _ _ ((ite _ _ _ : M Payment) >>= _)
      split_ifs <;> trivial
    | ok payment =>
      have hpays := Pays.created (d := PaymentsService.checkoutPayment id screening) hread payment
      refine .of_only (Only.tryCatch ?_ fun e => ?_)
      · refine Only.bind ((only_issue _).mpr fun _ => rfl) fun t => ?_
        refine Only.bind ((only_issue _).mpr fun _ => rfl) fun session => ?_
        refine Only.bind ((only_issue _).mpr fun l' => ⟨_, rfl, hpays.append l'⟩) fun _ => ?_
        refine Only.bind ((only_issue _).mpr fun l' => ?_) fun _ => trivial
        exact (hread.append _).append l'
      · exact Only.bind ((only_issue _).mpr fun l' => hpays.append l') fun _ => trivial

theorem BookingRequest.handle_own {op : BookingRequest} (h : op.By u) :
    Informed (OwnGround u) [] op.handle := by
  cases h with
  | reserve dto => exact (reserve_own dto).bind fun _ _ => trivial
  | concerns h =>
    cases h with
    | cancel => exact (cancel_own _).bind fun _ _ => trivial
    | createCheckoutSession => exact (checkout_own _).bind fun _ _ => trivial
    | getStatus =>
      refine Informed.bind ?_ fun _ _ => trivial
      exact findOwned_own fun r _ => informed_issue_bind rfl fun _ => trivial

end Ground

/-! ### What stays true of what was read -/

/-- Rows that were read have kept their owners, as far as they are still there. -/
def StillTrue (db : Db) : Answer Cmd Cmd.Reply Err → Prop
  | ⟨.reservationFindById id, .ok (some r)⟩ => r.id = id ∧ id < db.reservations.serial ∧
    ∀ s, db.reservations.get id = some s → s.userId = r.userId
  | ⟨.paymentFindByReservationId n, .ok (some p)⟩ => p.id < db.payments.serial ∧
    ∀ q, db.payments.get p.id = some q → q.reservationId = n
  | ⟨.paymentCreate d, .ok p⟩ => p.id < db.payments.serial ∧
    ∀ q, db.payments.get p.id = some q → q.reservationId = d.reservationId
  | _ => True

section StillTrue
variable {db db' : Db}

theorem StillTrue.evolves (he : db.Evolves db') {a : Answer Cmd Cmd.Reply Err}
    (h : StillTrue db a) : StillTrue db' a := by
  have hpayment : ∀ {m n : ℕ}, m < db.payments.serial ∧
      (∀ q, db.payments.get m = some q → q.reservationId = n) → m < db'.payments.serial ∧
        ∀ q, db'.payments.get m = some q → q.reservationId = n := by
    rintro m n ⟨hlt, hkept⟩
    refine ⟨Nat.lt_of_lt_of_le hlt he.payments.serial, fun q hq => ?_⟩
    obtain ⟨p, hp, heq⟩ := he.payments.row m hlt q hq
    exact (Prod.mk.inj heq).1.trans (hkept p hp)
  obtain ⟨c, r⟩ := a
  cases c with
  | reservationFindById id =>
    rcases r with e | ⟨_ | r⟩
    · trivial
    · trivial
    · obtain ⟨hid, hlt, hkept⟩ := h
      refine ⟨hid, Nat.lt_of_lt_of_le hlt he.reservations.serial, fun s hs => ?_⟩
      obtain ⟨s', hs', heq⟩ := he.reservations.row id hlt s hs
      rw [← hkept s' hs']
      exact (Prod.mk.inj (Prod.mk.inj heq).2).2
  | paymentFindByReservationId n =>
    rcases r with e | ⟨_ | p⟩
    · trivial
    · trivial
    · exact hpayment h
  | paymentCreate d =>
    cases r with
    | error e => trivial
    | ok p => exact hpayment h
  | _ => trivial

/-- What a command answers is true of the state after it. -/
theorem stillTrue_exec (api : StripeApi σ A) (c : Cmd) (w : World σ) :
    StillTrue (World.exec api c w).2.db ⟨c, (World.exec api c w).1⟩ := by
  cases c with
  | reservationFindById id =>
    change StillTrue w.db ⟨.reservationFindById id, .ok (w.db.reservations.get id)⟩
    cases hr : w.db.reservations.get id with
    | none => trivial
    | some r =>
      refine ⟨id_of_get hr, lt_serial_of_get hr, fun s hs => ?_⟩
      rw [Option.some.inj (hs.symm.trans hr)]
  | paymentFindByReservationId n =>
    change StillTrue w.db ⟨.paymentFindByReservationId n,
      .ok (w.db.payments.rows.find? fun p => p.reservationId = n)⟩
    cases hp : w.db.payments.rows.find? fun p => p.reservationId = n with
    | none => trivial
    | some p =>
      have hget : w.db.payments.get p.id = some p := get_of_mem (List.mem_of_find?_eq_some hp)
      refine ⟨lt_serial_of_get hget, fun q hq => ?_⟩
      rw [Option.some.inj (hq.symm.trans hget)]
      simpa using List.find?_some hp
  | paymentCreate d =>
    rcases hexec : World.exec api (.paymentCreate d) w with ⟨e | p, w'⟩
    · trivial
    · obtain ⟨rfl, -, hget⟩ := paymentCreate_exec api hexec
      refine ⟨lt_serial_of_get hget, fun q hq => ?_⟩
      rw [Option.some.inj (hq.symm.trans hget)]
      rfl
  | _ => trivial

theorem Owns.owner {u n : ℕ} {l : Trail} (h : Owns u n l) (hl : ∀ a ∈ l, StillTrue db a)
    {r : Reservation} (hr : db.reservations.get n = some r) : r.userId = u := by
  obtain ⟨id, r₀, hmem, hu, hn⟩ := h
  obtain ⟨hid, -, hkept⟩ := hl _ hmem
  obtain rfl : n = id := hn.elim (·) fun h => h.trans hid
  exact (hkept r hr).trans hu

theorem Pays.owner {u m : ℕ} {l : Trail} (h : Pays u m l) (hl : ∀ a ∈ l, StillTrue db a)
    {p : Payment} (hp : db.payments.get m = some p) {r : Reservation}
    (hr : db.reservations.get p.reservationId = some r) : r.userId = u := by
  rcases h with ⟨n, p₀, hmem, rfl, hown⟩ | ⟨d, p₀, hmem, rfl, hown⟩
  · rw [(hl _ hmem).2 p hp] at hr
    exact hown.owner hl hr
  · rw [(hl _ hmem).2 p hp] at hr
    exact hown.owner hl hr

end StillTrue

/-! ### Frame -/

section Frame
variable {u : ℕ} {l : Trail} {db db' : Db}

theorem Untouched.of_reservations (hp : db'.payments = db.payments)
    (h : ∀ id r, r.userId ≠ u →
      (db.reservations.get id = some r ↔ db'.reservations.get id = some r)) :
    Untouched u db db' :=
  ⟨h, fun n p _ _ _ => by rw [hp]⟩

theorem Untouched.of_payments (hr : db'.reservations = db.reservations)
    (h : ∀ n p r, db.reservations.get p.reservationId = some r → r.userId ≠ u →
      (db.payments.get n = some p ↔ db'.payments.get n = some p)) :
    Untouched u db db' :=
  ⟨fun id r _ => by rw [hr], h⟩

theorem untouched_holdSeat {p : Db.HoldSeatParams} {r : Reservation} (hu : p.userId = u)
    (h : db.holdSeat p = .ok (r, db')) : Untouched u db db' := by
  obtain ⟨_, -, -, -, -, -, ht⟩ := Db.holdSeat_eq_ok h
  refine .of_reservations (by rw [ht]) fun id s hs => ?_
  rw [ht]
  simp only [get_insert]
  split_ifs with hid
  · refine iff_of_false (fun hget => ?_) fun hget => ?_
    · exact absurd hid (Nat.ne_of_lt (lt_serial_of_get hget))
    · cases hget
      exact hs hu
  · exact Iff.rfl

theorem untouched_reservationUpdate {n : ℕ} {d : ReservationData} {x : Reservation}
    (hown : ∀ r, db.reservations.get n = some r → r.userId = u)
    (h : db.reservationUpdate n d = .ok (x, db')) : Untouched u db db' := by
  obtain ⟨r₀, hr₀, -, -, ht⟩ := Db.reservationUpdate_eq_ok h
  refine .of_reservations (by rw [ht]) fun id s hs => ?_
  rw [ht]
  simp only [get_modify]
  split_ifs with hid
  · subst hid
    rw [hr₀, Option.map_some, Option.some.injEq, Option.some.injEq]
    refine iff_of_false (fun he => ?_) fun he => ?_
    · exact hs (he ▸ hown r₀ hr₀)
    · subst he
      exact hs (hown r₀ hr₀)
  · exact Iff.rfl

theorem untouched_paymentCreate {now : Time} {d : Db.PaymentCreate} {x : Payment}
    (hown : ∀ r, db.reservations.get d.reservationId = some r → r.userId = u)
    (h : db.paymentCreate now d = .ok (x, db')) : Untouched u db db' := by
  obtain ⟨-, -, -, ht⟩ := Db.paymentCreate_eq_ok h
  refine .of_payments (by rw [ht]) fun n p r hr hne => ?_
  rw [ht]
  simp only [get_insert]
  split_ifs with hid
  · refine iff_of_false (fun hget => ?_) fun hget => ?_
    · exact absurd hid (Nat.ne_of_lt (lt_serial_of_get hget))
    · cases hget
      exact hne (hown r hr)
  · exact Iff.rfl

theorem untouched_paymentUpdate {m : ℕ} {d : PaymentData} {x : Payment}
    (hown : ∀ p r, db.payments.get m = some p → db.reservations.get p.reservationId = some r →
      r.userId = u) (h : db.paymentUpdate m d = .ok (x, db')) : Untouched u db db' := by
  obtain ⟨p₀, hp₀, -, -, ht⟩ := Db.paymentUpdate_eq_ok h
  refine .of_payments (by rw [ht]) fun n p r hr hne => ?_
  rw [ht]
  simp only [get_modify]
  split_ifs with hid
  · subst hid
    rw [hp₀, Option.map_some, Option.some.injEq, Option.some.injEq]
    refine iff_of_false (fun he => ?_) fun he => ?_
    · exact hne (hown p₀ r hp₀ (he ▸ hr))
    · subst he
      exact hne (hown p₀ r hp₀ hr)
  · exact Iff.rfl

theorem untouched_paymentDelete {m : ℕ} {x : Payment}
    (hown : ∀ p r, db.payments.get m = some p → db.reservations.get p.reservationId = some r →
      r.userId = u) (h : db.paymentDelete m = .ok (x, db')) : Untouched u db db' := by
  obtain ⟨-, ht⟩ := Db.paymentDelete_eq_ok h
  refine .of_payments (by rw [ht]) fun n p r hr hne => ?_
  rw [ht]
  simp only [erase, get_filter, Option.filter_eq_some_iff]
  refine ⟨fun hget => ⟨hget, decide_eq_true fun hid => ?_⟩, fun h => h.1⟩
  have hn : n = m := (id_of_get hget).symm.trans hid
  subst hn
  exact hne (hown p r hget hr)

/-- A command of the user, in a state of which what the request has read is still true. -/
theorem untouched_exec (api : StripeApi σ A) {c : Cmd} {w : World σ} (hc : OwnGround u l c)
    (hl : ∀ a ∈ l, StillTrue w.db a) : Untouched u w.db (World.exec api c w).2.db := by
  have hread : ∀ {c : Cmd}, c.writes = false → Untouched u w.db (World.exec api c w).2.db := by
    intro c hc
    have hdb : (World.exec api c w).2.db = w.db := by
      cases c
      case sessionsCreate => rfl
      all_goals exact World.exec_quiet api (by simpa [Cmd.quiet] using hc) w
    rw [hdb]
    exact .refl u _
  have hcommit : ∀ {α : Type} {r : Except Err (α × Db)},
      (∀ a db', r = .ok (a, db') → Untouched u w.db db') → Untouched u w.db (w.commit r).2.db :=
    World.commit_rule (.refl u _)
  cases c with
  | holdSeat p => exact hcommit fun _ _ h => untouched_holdSeat hc h
  | reservationUpdate n d =>
    exact hcommit fun _ _ h => untouched_reservationUpdate (fun _ => hc.owner hl) h
  | paymentCreate d =>
    exact hcommit fun _ _ h => untouched_paymentCreate (fun _ => hc.owner hl) h
  | paymentUpdate n d =>
    obtain ⟨m, rfl, hpays⟩ := hc
    exact hcommit fun _ _ h => untouched_paymentUpdate (fun _ _ hp => hpays.owner hl hp) h
  | paymentDelete m =>
    exact hcommit fun _ _ h => untouched_paymentDelete (fun _ _ hp => hc.owner hl hp) h
  | _ => exact hread hc

end Frame

/-! ### Any user, any state -/

/-- What the requests of a user do about the rows of others. -/
structure Confined (api : StripeApi σ A) (u : ℕ) : Prop where
  /-- A reservation of another user gives the same response as none at all; nothing but the
  look-up was carried out, so neither Stripe nor the events were reached. -/
  alone : ∀ (id : ℕ) (op : BookingRequest), op.Concerns u id → ∀ w₁ w₂ : World σ,
    w₁.db.reservations.get id = none →
    (∃ r, w₂.db.reservations.get id = some r ∧ r.userId ≠ u) → ∀ w ∈ [w₁, w₂],
      perform api op.handle w = (.error (ReservationsService.reservationNotFound id), w) ∧
        op.handle.issued (World.exec api) w = [.reservationFindById id]
  /-- The same where the look-up may fail. -/
  failing : ∀ (id : ℕ) (op : BookingRequest), op.Concerns u id → ∀ w₁ w₂ : World σ,
    w₁.db.reservations.get id = none →
    (∃ r, w₂.db.reservations.get id = some r ∧ r.userId ≠ u) → ∀ i os,
      ∃ x : Option (List Cmd × Except Err Response),
        (∀ y ∈ x, (∀ c ∈ y.1, c = .reservationFindById id) ∧ ∃ e, y.2 = .error e) ∧
          ∀ w ∈ [w₁, w₂], (serviceSystem api).attempt i os op.handle w =
            x.map fun y => (y.1, y.2, w)
  frame : ∀ op : BookingRequest, op.By u → ∀ w : World σ,
    Untouched u w.db (perform api op.handle w).2.db
  /-- No step of such a request touches them, whatever has run and runs beside it. -/
  steps : ∀ (w : World σ) xs q i op p o q', (serviceSystem api).schedule xs ⟨w, []⟩ = some q →
    q.procs[i]? = some (.booking op, p) → op.By u →
      (serviceSystem api).act (.step i o) q = some q' → Untouched u q.state.db q'.state.db

section Confined
variable {u : ℕ} (api : StripeApi σ A)

theorem notOwn_cases {id : ℕ} {w₁ w₂ : World σ} (hnone : w₁.db.reservations.get id = none)
    (hother : ∃ r, w₂.db.reservations.get id = some r ∧ r.userId ≠ u) :
    ∀ w ∈ [w₁, w₂], NotOwn u id w.db := by
  intro w hw r hr
  obtain ⟨r', hr', hne⟩ := hother
  rcases List.mem_pair.mp hw with rfl | rfl
  · rw [hnone] at hr
    cases hr
  · rwa [Option.some.inj (hr.symm.trans hr')]

/-- A request from its start to its end, alone. -/
theorem untouched_perform {op : BookingRequest} (h : op.By u) (w : World σ) :
    Untouched u w.db (perform api op.handle w).2.db := by
  have hrun := (BookingRequest.handle_own h).run (World.exec api)
    (I := fun l t => Untouched u w.db t.db ∧ ∀ a ∈ l, StillTrue t.db a) ?_
    (s := w) ⟨.refl u _, List.forall_mem_nil _⟩
  · obtain ⟨_, hend, -⟩ := hrun
    exact hend
  · rintro l c t hc ⟨hkept, hl⟩
    refine ⟨hkept.trans (untouched_exec api hc hl), fun a ha => ?_⟩
    rcases List.mem_append.mp ha with ha | ha
    · exact (hl a ha).evolves (World.exec_evolves api c t)
    · rw [List.mem_singleton.mp ha]
      exact stillTrue_exec api c t

/-- What the processes have read is still true. -/
theorem stillTrue_run {w : World σ} {xs : List (Choice Err Request (Env A))}
    {q : Pool Cmd Cmd.Reply Err (World σ) Request Response}
    (hx : (serviceSystem api).schedule xs ⟨w, []⟩ = some q) :
    OnPath (serviceSystem api) ((serviceSystem api).trace xs ⟨w, []⟩) q ∧
      ∀ a ∈ (serviceSystem api).trace xs ⟨w, []⟩, StillTrue q.state.db a.2 := by
  refine trace_rule (A := fun _ _ _ _ => True) (I := fun tr t => ∀ a ∈ tr, StillTrue t.db a.2)
    (List.forall_mem_nil _) ?_ ?_ hx (allMeet_of_forall _ (fun _ _ _ _ => trivial) xs _)
  · intro tr t e h a ha
    rw [show ((serviceSystem api).env e t).db = t.db from World.elapse_db api e t]
    exact h a ha
  · intro tr t i op c k o out h _ hout _ a ha
    have hevolves : t.db.Evolves out.2.db := by
      rcases finish_state _ hout with hs | hs
      · rw [hs]
        exact .refl _
      · rw [hs]
        exact World.exec_evolves api c t
    rcases List.mem_append.mp ha with ha | ha
    · exact (h a ha).evolves hevolves
    · rw [List.mem_singleton.mp ha]
      rcases finish_cases _ hout with ⟨rfl, rfl⟩ | ⟨e, rfl, rfl⟩ | ⟨e, rfl, rfl⟩
      · exact stillTrue_exec api c t
      · cases c <;> trivial
      · cases c <;> trivial

theorem confined (u : ℕ) : Confined api u where
  alone := by
    intro id op h w₁ w₂ hnone hother w hw
    exact concerns_perform api h (notOwn_cases hnone hother w hw)
  failing := by
    intro id op h w₁ w₂ hnone hother i os
    refine ⟨refusal id os, fun y hy => refusal_reads hy, fun w hw => ?_⟩
    exact concerns_attempt api h i os (notOwn_cases hnone hother w hw)
  frame := by
    intro op h w
    exact untouched_perform api h w
  steps := by
    intro w xs q i op p o q' hx hi hop hact
    obtain ⟨hpath, htrue⟩ := stillTrue_run api hx
    obtain ⟨op', c, k, out, hi', hout, rfl, -⟩ := act_step _ hact
    obtain ⟨rfl, rfl⟩ := Prod.mk.inj (Option.some.inj (hi'.symm.trans hi))
    have hground : OwnGround u (own i ((serviceSystem api).trace xs ⟨w, []⟩)) c :=
      (BookingRequest.handle_own hop).path (hpath.follows i _ _ hi)
    rcases finish_state _ hout with hs | hs
    · rw [show _ = q.state from hs]
      exact .refl u _
    · rw [show _ = _ from hs]
      exact untouched_exec api hground fun a ha => htrue _ (mem_own.mp ha)

end Confined

end MovieReservation
