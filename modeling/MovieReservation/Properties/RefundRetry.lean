import MovieReservation.Properties.OneRefund
import MovieReservation.Properties.Retries

/-! Attempts at one refund that fail, and one more that is left alone: every attempt asks
for what the tier in force at its time gives, all under the idempotency key of the
payment. When the last attempt ends with the payment marked as it should be. -/

namespace MovieReservation

open Lib Lib.Prog Lib.System Lib.Table PaymentsService

section Keys
variable {σ A : Type} (api : StripeApi σ A)

/-- Stripe's idempotency keys, where `left` is what of a charge is left to be refunded. A
key that was not used is served if the amount is positive and within that; one that was
used is answered with the refund it made if the parameters are the same, and is otherwise
rejected. -/
structure StripeApi.Keyed (left : σ → ℕ → ℤ) : Prop extends api.Idempotent where
  serves : ∀ i a k s, api.under k s = [] → 0 < a → a ≤ left s i →
    ∃ refund, (api.createRefund i a k s).1 = .ok refund
  declines : ∀ i a k s, api.under k s = [] → ¬ (0 < a ∧ a ≤ left s i) →
    ∃ e, (api.createRefund i a k s).1 = .error e
  replays : ∀ i a k s refund, api.under k s = [refund] → refund.paymentIntent = i →
    refund.amount = a → (api.createRefund i a k s).1 = .ok refund
  rejects : ∀ i a k s refund, api.under k s = [refund] →
    ¬ (refund.paymentIntent = i ∧ refund.amount = a) →
    ∃ e, (api.createRefund i a k s).1 = .error e

/-- The id of the refund that Stripe has booked under a key. -/
def StripeApi.refundId (key : ℕ) (s : σ) : Option ℕ := (api.under key s).head?.map Refund.id

end Keys

section Definitions
variable {σ A : Type} (api : StripeApi σ A) (r : Reservation) (p : Payment)

/-- What the tier in force asks of Stripe, if there is anything to ask. -/
def refundDue (w : World σ) : Option ℤ := do
  let screening ← w.db.screeningFindById r.screeningId
  let policy ← w.db.findRefundPolicy
    (((screening.startTime - w.now : ℤ) : ℚ) / (60 * 60 * 1000))
  let _ ← p.stripePaymentId
  if 0 < policy.refundPercent then some (refundShare p.amount policy.refundPercent)
  else none

/-- The refund succeeded, and the payment is REFUNDED with the id of the refund that
Stripe has booked, or none if it has booked none. -/
structure Finished (out : Except Err Reservation × World σ) : Prop where
  succeeds : ∃ x, out.1 = .ok x
  recorded : ∃ q, out.2.db.payments.get p.id = some q ∧ q.status = .refunded ∧
    q.refundId = api.refundId p.id out.2.stripe

/-- An attempt that finds a refund booked and the payment not marked, but nothing to ask
of Stripe any more: it goes on to mark the payment if its sixth command, the write of the
payment, is carried out. -/
def MarksWithoutId (os : List (Outcome Err)) (w : World σ) : Prop :=
  (∃ q, w.db.payments.get p.id = some q ∧ q.status ≠ .refunded) ∧
    api.under p.id w.stripe ≠ [] ∧ refundDue r p w = none ∧ (os[5]?).any Outcome.effective

/-- The payment is marked; or Stripe has booked nothing and will refund what is due, if
anything is; or what is due is what it has booked. -/
def StillDue (left : σ → ℕ → ℤ) (w : World σ) : Prop :=
  (∃ q, w.db.payments.get p.id = some q ∧ q.status = .refunded) ∨
    (api.under p.id w.stripe = [] ∧
      ∀ a ∈ refundDue r p w, ∀ i ∈ p.stripePaymentId, 0 < a ∧ a ≤ left w.stripe i) ∨
    ∃ refund, api.under p.id w.stripe = [refund] ∧ refundDue r p w = some refund.amount

def World.elapsed (w : World σ) (es : List (Env A)) : World σ :=
  es.foldl (fun u e => u.elapse api e) w

/-- What `recordRefund` writes. -/
def refundData (n : Option ℕ) (time : Time) : PaymentData :=
  { status := some .refunded, refundId := n.map some, refundedAt := some (some time) }

/-- The state between attempts: the payment `p` of reservation `r` is not marked, or is
marked with a refund's id or none, and at most one refund is booked, of its charge. -/
structure Upkept (mark : Option (Option ℕ)) (w : World σ) : Prop where
  payment : ∃ q, w.db.payments.get p.id = some q ∧ q.reservationId = r.id ∧
    q.amount = p.amount ∧ q.stripePaymentId = p.stripePaymentId ∧
    (mark = none ∧ q.status ≠ .refunded ∧ q.refundId = none ∨
      mark = some q.refundId ∧ q.status = .refunded)
  reservation : ∃ x, w.db.reservations.get r.id = some x ∧ x.screeningId = r.screeningId
  booked : api.under p.id w.stripe = [] ∨ ∃ refund, api.under p.id w.stripe = [refund] ∧
    p.stripePaymentId = some refund.paymentIntent

end Definitions

/-! ### The state between attempts -/

section State
variable {σ A : Type} {api : StripeApi σ A} {r : Reservation} {p : Payment}
  {m : Option (Option ℕ)} {v w : World σ}

theorem Upkept.congr (h : Upkept api r p m v) (hdb : w.db = v.db)
    (hs : api.under p.id w.stripe = api.under p.id v.stripe) : Upkept api r p m w where
  payment := hdb ▸ h.payment
  reservation := hdb ▸ h.reservation
  booked := hs ▸ h.booked

theorem under_elapse (hapi : api.Idempotent) (e : Env A) (k : ℕ) :
    api.under k (v.elapse api e).stripe = api.under k v.stripe := by
  cases e with
  | stripe a => exact hapi.act a k v.stripe
  | _ => rfl

/-- The payment that is found for the reservation. -/
theorem Upkept.found (h : Upkept api r p m v) {q : Payment}
    (hq : v.db.payments.get p.id = some q) :
    v.db.payments.rows.find? (fun x => x.reservationId = r.id) = some q := by
  obtain ⟨q', hq', hid, -⟩ := h.payment
  cases hq.symm.trans hq'
  have hsome : (v.db.payments.rows.find? fun x => x.reservationId = r.id).isSome := by
    rw [List.find?_isSome]
    exact ⟨q, mem_of_get hq, by simpa using hid⟩
  obtain ⟨x, hx⟩ := Option.isSome_iff_exists.mp hsome
  have hxid : x.reservationId = r.id := by simpa using List.find?_some hx
  rw [hx, v.db.payment_reservationId_key.eq (List.mem_of_find?_eq_some hx) (mem_of_get hq)
    (congrArg some hxid) (congrArg some hid)]

theorem Upkept.screening (h : Upkept api r p m v) :
    ∃ s, v.db.screeningFindById r.screeningId = some s := by
  obtain ⟨x, hx, hs⟩ := h.reservation
  obtain ⟨s, hget⟩ := v.db.reservation_screening.get (mem_of_get hx)
  obtain ⟨movie, hmovie⟩ := v.db.screening_movie.get (mem_of_get hget)
  obtain ⟨hall, hhall⟩ := v.db.screening_hall.get (mem_of_get hget)
  rw [hs] at hget
  refine ⟨{ s with movie, hall }, ?_⟩
  simp [Db.screeningFindById, hget, hmovie, hhall]

/-- The reservation can be cancelled, also once more. -/
theorem Upkept.cancel (h : Upkept api r p m v) :
    ∃ x db', v.db.reservationUpdate r.id { status := some .cancelled } = .ok (x, db') ∧
      Upkept api r p m { v with db := db' } := by
  obtain ⟨x, hx, hs⟩ := h.reservation
  obtain ⟨db', hok⟩ : ∃ db', v.db.reservationUpdate r.id { status := some .cancelled } =
      .ok (_, db') :=
    Db.reservationUpdate_ok hx (by rintro ⟨y, -, -, hk, -⟩; cases hk)
  obtain ⟨_, -, -, -, ht⟩ := Db.reservationUpdate_eq_ok hok
  refine ⟨_, db', hok, ?_, ⟨ReservationData.apply { status := some .cancelled } x, ?_, hs⟩,
    h.booked⟩
  · rw [show db'.payments = v.db.payments by rw [ht]]
    exact h.payment
  · simp only [ht, get_modify, if_true, hx, Option.map_some]

/-- The payment can be marked. -/
theorem Upkept.mark (h : Upkept api r p none v) (n : Option ℕ) (time : Time) :
    ∃ x db', v.db.paymentUpdate p.id (refundData n time) = .ok (x, db') ∧
      Upkept api r p (some n) { v with db := db' } := by
  obtain ⟨q, hq, hid, hamount, hintent, ⟨-, -, hnone⟩ | ⟨hm, -⟩⟩ := h.payment
  · have hevent : ¬ v.db.payments.Clash Payment.stripeEventId p.id q.stripeEventId :=
      not_clash_of_get v.db.payment_stripeEventId_key hq
    obtain ⟨db', hok⟩ := Db.paymentUpdate_ok (refundData n time) hq hevent
    obtain ⟨_, -, -, -, ht⟩ := Db.paymentUpdate_eq_ok hok
    refine ⟨_, db', hok, ⟨(refundData n time).apply q, ?_, hid, hamount, hintent, .inr ⟨?_, rfl⟩⟩,
      ?_, h.booked⟩
    · simp only [ht, get_modify, if_true, hq, Option.map_some]
    · cases n with
      | none => exact congrArg some hnone.symm
      | some n => rfl
    · rw [show db'.reservations = v.db.reservations by rw [ht]]
      exact h.reservation
  · cases hm

/-- Stripe is asked for a refund of the payment's charge. -/
theorem Upkept.ask (hapi : api.Idempotent) (h : Upkept api r p m v) {i : ℕ} (a : ℤ)
    (hi : p.stripePaymentId = some i) :
    Upkept api r p m { v with stripe := (api.createRefund i a p.id v.stripe).2 } where
  payment := h.payment
  reservation := h.reservation
  booked := by
    show api.under p.id (api.createRefund i a p.id v.stripe).2 = [] ∨ _
    rcases h.booked with hnone | hone
    · rcases hapi.first i a p.id v.stripe hnone with hnone | ⟨n, hone⟩
      · exact .inl hnone
      · exact .inr ⟨_, hone, hi⟩
    · rw [hapi.repeated i a p.id v.stripe]
      · exact .inr hone
      · obtain ⟨refund, hone, -⟩ := hone
        rw [hone]
        exact List.cons_ne_nil _ _

theorem Upkept.booked_length (h : Upkept api r p m v) :
    (api.under p.id v.stripe).length ≤ 1 := by
  rcases h.booked with hnone | ⟨refund, hone, -⟩
  · simp [hnone]
  · simp [hone]

theorem refundId_eq_none {k : ℕ} {s : σ} : api.refundId k s = none ↔ api.under k s = [] := by
  simp [StripeApi.refundId]

/-- A refund that Stripe answers is the one it has booked. -/
theorem under_of_answer (hapi : api.Idempotent) {i k : ℕ} {a : ℤ} {s : σ} {refund : Refund}
    (hone : (api.under k s).length ≤ 1) (h : (api.createRefund i a k s).1 = .ok refund) :
    api.under k (api.createRefund i a k s).2 = [refund] := by
  obtain ⟨hmem, -, -, hk⟩ := api.createRefund_issues i a k s refund h
  have hunder : refund ∈ api.under k (api.createRefund i a k s).2 :=
    List.mem_filter.mpr ⟨hmem, by simpa using hk⟩
  by_cases hs : api.under k s = []
  · rcases hapi.first i a k s hs with hnone | ⟨n, hbooked⟩
    · rw [hnone] at hunder
      cases hunder
    · rw [hbooked] at hunder ⊢
      rw [List.mem_singleton.mp hunder]
  · rw [hapi.repeated i a k s hs] at hunder ⊢
    obtain ⟨x, hx⟩ : ∃ x, api.under k s = [x] :=
      List.length_eq_one_iff.mp (by have := List.length_pos_iff.mpr hs; omega)
    rw [hx] at hunder ⊢
    rw [List.mem_singleton.mp hunder]

end State

/-! ### One attempt -/

section Attempt
variable {σ A : Type} {api : StripeApi σ A} {r : Reservation} {p : Payment}
  {m : Option (Option ℕ)} {v t : World σ} {os : List (Outcome Err)} {cs : List Cmd}

section Commands
variable {α : Type} {c : Cmd} {f : c.Reply → M α} {res : Except Err α}

/-- A command that is answered, or at which the attempt ends in the state before or after. -/
theorem attempt_request {a : c.Reply} {v' : World σ} (hexec : World.exec api c v = (.ok a, v'))
    (h : (bookingSystem api).attempt 0 os (request c >>= f) v = some (cs, res, t)) :
    (∃ os' cs', os = .answered :: os' ∧
      (bookingSystem api).attempt 0 os' (f a) v' = some (cs', res, t)) ∨
      (∃ o, os = [o] ∧ o ≠ .answered ∧ t = if o.effective then v' else v) ∧
        ∃ e, res = .error e := by
  cases attempt_issue_bind h with
  | answered hx hrest =>
    cases hexec.symm.trans hx
    exact .inl ⟨_, _, rfl, hrest⟩
  | refused hx => cases hexec.symm.trans hx
  | lost e _ => exact .inr ⟨⟨_, rfl, nofun, rfl⟩, _, rfl⟩
  | unacknowledged e _ =>
    refine .inr ⟨⟨_, rfl, nofun, ?_⟩, _, rfl⟩
    show (World.exec api c v).2 = _
    rw [hexec]
    rfl

/-- A command that leaves everything as it was. -/
theorem attempt_read {a : c.Reply} (hexec : World.exec api c v = (.ok a, v))
    (h : (bookingSystem api).attempt 0 os (request c >>= f) v = some (cs, res, t)) :
    (∃ os' cs', os = .answered :: os' ∧
      (bookingSystem api).attempt 0 os' (f a) v = some (cs', res, t)) ∨
      t = v ∧ (∃ o, os = [o] ∧ o ≠ .answered) ∧ ∃ e, res = .error e := by
  refine (attempt_request hexec h).imp_right ?_
  rintro ⟨⟨o, ho, hne, ht⟩, he⟩
  exact ⟨ht.trans (ite_self v), ⟨o, ho, hne⟩, he⟩

end Commands

variable {res : Except Err Reservation}

/-- The attempt returned, or its plan has a fault. -/
def Unfaulted (os : List (Outcome Err)) (res : Except Err Reservation) : Prop :=
  (∀ o ∈ os, o = .answered) → ∃ x, res = .ok x

theorem Unfaulted.fault {e : Err} (h : Unfaulted os (.error e)) : ∃ o ∈ os, o ≠ .answered := by
  by_contra hnone
  obtain ⟨x, hx⟩ := h (by simpa using hnone)
  cases hx

theorem Unfaulted.cons {o : Outcome Err} (h : Unfaulted os res) : Unfaulted (o :: os) res :=
  fun hall => h fun o' ho => hall o' (List.mem_cons_of_mem _ ho)

theorem attempt_finalizeCancel (h : Upkept api r p m v)
    (hatt : (bookingSystem api).attempt 0 os (ReservationsService.finalizeCancel r) v =
      some (cs, res, t)) :
    Upkept api r p m t ∧ t.stripe = v.stripe ∧ Unfaulted os res := by
  obtain ⟨x, db', hok, hkept⟩ := h.cancel
  unfold ReservationsService.finalizeCancel at hatt
  have hexec : World.exec api (.reservationUpdate r.id { status := some .cancelled }) v =
      (.ok x, { v with db := db' }) := by
    simp only [World.exec, hok, World.commit]
  rcases attempt_request hexec hatt with
    ⟨os₁, cs₁, rfl, hnext⟩ | ⟨⟨o, rfl, hne, ht⟩, -⟩
  · rcases attempt_request rfl hnext with ⟨os₂, cs₂, rfl, hend⟩ | ⟨⟨o, rfl, hne, ht⟩, -⟩
    · obtain ⟨rfl, -, rfl, rfl⟩ := attempt_done hend
      exact ⟨hkept.congr rfl rfl, rfl, fun _ => ⟨_, rfl⟩⟩
    · rw [ht]
      refine ⟨?_, ?_, fun hall => absurd (hall o (by simp)) hne⟩
      · split_ifs <;> exact hkept.congr rfl rfl
      · split_ifs <;> rfl
  · rw [ht]
    refine ⟨?_, ?_, fun hall => absurd (hall o (by simp)) hne⟩
    · split_ifs
      · exact hkept
      · exact h
    · split_ifs <;> rfl

/-- The end of an attempt that finds the payment unmarked: it is marked if the second
command, the write of the payment, is carried out. -/
theorem attempt_recordRefund (h : Upkept api r p none v) {q : Payment} (hq : q.id = p.id)
    {n : Option ℕ} (hatt : (bookingSystem api).attempt 0 os (recordRefund r q n) v =
      some (cs, res, t)) :
    t.stripe = v.stripe ∧ Unfaulted os res ∧
      (Upkept api r p (some n) t ∧ (os[1]?).any Outcome.effective ∨
        Upkept api r p none t ∧ ¬ (os[1]?).any Outcome.effective ∧ ∃ e, res = .error e) := by
  unfold recordRefund at hatt
  rcases attempt_read rfl hatt with ⟨os₁, cs₁, rfl, hnext⟩ | ⟨rfl, ⟨o, rfl, hne⟩, he⟩
  · obtain ⟨x, db', hok, hkept⟩ := h.mark n v.now
    rw [← hq] at hok
    rcases attempt_request (exec_update api hok) hnext with
      ⟨os₂, cs₂, rfl, hend⟩ | ⟨⟨o, rfl, hne, ht⟩, he⟩
    · obtain ⟨ht, hs, hu⟩ := attempt_finalizeCancel hkept hend
      exact ⟨hs, hu.cons.cons, .inl ⟨ht, rfl⟩⟩
    · rw [ht]
      refine ⟨?_, fun hall => absurd (hall o (by simp)) hne, ?_⟩
      · split_ifs <;> rfl
      · split_ifs with heff
        · exact .inl ⟨hkept, by simpa using heff⟩
        · exact .inr ⟨h, by simpa using heff, he⟩
  · exact ⟨rfl, fun hall => absurd (hall o (by simp)) hne, .inr ⟨h, by simp, he⟩⟩

/-- An attempt that finds the payment marked only cancels the reservation. -/
theorem attempt_marked {n : Option ℕ} (h : Upkept api r p (some n) v)
    (hatt : (bookingSystem api).attempt 0 os (refundReservation r) v = some (cs, res, t)) :
    Upkept api r p (some n) t ∧ t.stripe = v.stripe ∧ Unfaulted os res := by
  obtain ⟨q, hq, -, -, -, ⟨hm, -⟩ | ⟨-, hst⟩⟩ := h.payment
  · cases hm
  unfold refundReservation at hatt
  rcases attempt_read rfl hatt with ⟨os₁, cs₁, rfl, hnext⟩ | ⟨rfl, ⟨o, rfl, hne⟩, -⟩
  · rw [h.found hq] at hnext
    change (bookingSystem api).attempt 0 os₁ (ite _ _ _) v = _ at hnext
    rw [if_pos hst] at hnext
    obtain ⟨ht, hs, hu⟩ := attempt_finalizeCancel h hnext
    exact ⟨ht, hs, hu.cons⟩
  · exact ⟨h, rfl, fun hall => absurd (hall o (by simp)) hne⟩

/-- How an attempt may end that finds the payment unmarked. -/
inductive Unmarked (api : StripeApi σ A) (r : Reservation) (p : Payment) (v : World σ)
    (os : List (Outcome Err)) (res : Except Err Reservation) (t : World σ) : Prop
  /-- It does not come to ask Stripe, or there is nothing to ask, and the payment is not written. -/
  | early : Upkept api r p none t → t.stripe = v.stripe →
    (refundDue r p v = none → ¬ (os[5]?).any Outcome.effective) → (∃ o ∈ os, o ≠ .answered) →
    Unmarked api r p v os res t
  /-- There is nothing to ask, and the payment is marked without an id. -/
  | free : refundDue r p v = none → Upkept api r p (some none) t → t.stripe = v.stripe →
    (os[5]?).any Outcome.effective → Unfaulted os res → Unmarked api r p v os res t
  /-- Stripe is asked; the payment is not written. -/
  | asked {i : ℕ} {a : ℤ} : p.stripePaymentId = some i → refundDue r p v = some a →
    Upkept api r p none t → t.stripe = (api.createRefund i a p.id v.stripe).2 →
    (∃ e, res = .error e) →
    ((∃ o ∈ os, o ≠ .answered) ∨ ∃ e, (api.createRefund i a p.id v.stripe).1 = .error e) →
    Unmarked api r p v os res t
  /-- Stripe answers, and the payment is marked with the refund's id. -/
  | answered {i : ℕ} {a : ℤ} {refund : Refund} : p.stripePaymentId = some i →
    refundDue r p v = some a → (api.createRefund i a p.id v.stripe).1 = .ok refund →
    Upkept api r p (some (some refund.id)) t → t.stripe = (api.createRefund i a p.id v.stripe).2 →
    Unfaulted os res → Unmarked api r p v os res t

/-- The call of Stripe and what comes after it. -/
theorem attempt_ask (hapi : api.Idempotent) (h : Upkept api r p none v) {q : Payment}
    (hq : q.id = p.id) {i : ℕ} {a : ℤ} (hi : p.stripePaymentId = some i)
    (hdue : refundDue r p v = some a)
    (hatt : (bookingSystem api).attempt 0 os (Stripe.refundsCreate i a p.id >>= fun refund =>
      recordRefund r q (some refund.id)) v = some (cs, res, t)) : Unmarked api r p v os res t := by
  have hasked := h.ask hapi a hi
  have hsome : refundDue r p v ≠ none := by
    rw [hdue]
    exact Option.some_ne_none a
  cases attempt_issue_bind hatt with
  | answered hx hrest =>
    obtain ⟨hanswer, rfl⟩ := Prod.mk.inj hx
    obtain ⟨hs, hu, ⟨ht, -⟩ | ⟨ht, -, e, rfl⟩⟩ := attempt_recordRefund hasked hq hrest
    · exact .answered hi hdue hanswer ht hs hu.cons
    · exact .asked hi hdue ht hs ⟨e, rfl⟩ (.inl hu.cons.fault)
  | refused hx =>
    obtain ⟨hanswer, rfl⟩ := Prod.mk.inj hx
    exact .asked hi hdue hasked rfl ⟨_, rfl⟩ (.inr ⟨_, hanswer⟩)
  | lost e _ =>
    exact .early h rfl (fun hnone => absurd hnone hsome) ⟨_, List.mem_singleton_self _, nofun⟩
  | unacknowledged e _ =>
    exact .asked hi hdue hasked rfl ⟨_, rfl⟩ (.inl ⟨_, List.mem_singleton_self _, nofun⟩)

/-- Four commands that are answered come first. -/
theorem Unmarked.after (h : Unmarked api r p v os res t)
    (hfree : refundDue r p v ≠ none) (o₁ o₂ o₃ o₄ : Outcome Err) :
    Unmarked api r p v (o₁ :: o₂ :: o₃ :: o₄ :: os) res t := by
  cases h with
  | early ht hs _ hfault =>
    obtain ⟨o, ho, hne⟩ := hfault
    exact .early ht hs (fun hnone => absurd hnone hfree) ⟨o, by simp [ho], hne⟩
  | free hnone => exact absurd hnone hfree
  | asked hi hdue ht hs he hfault =>
    refine .asked hi hdue ht hs he (hfault.imp_left ?_)
    rintro ⟨o, ho, hne⟩
    exact ⟨o, by simp [ho], hne⟩
  | answered hi hdue hanswer ht hs hu =>
    exact .answered hi hdue hanswer ht hs hu.cons.cons.cons.cons

theorem attempt_unmarked (hapi : api.Idempotent) (h : Upkept api r p none v)
    (hatt : (bookingSystem api).attempt 0 os (refundReservation r) v = some (cs, res, t)) :
    Unmarked api r p v os res t := by
  obtain ⟨q, hq, -, hamount, hintent, ⟨-, hst, -⟩ | ⟨hm, -⟩⟩ := h.payment
  case inr => cases hm
  have hid : q.id = p.id := id_of_get hq
  obtain ⟨screening, hscreening⟩ := h.screening
  -- up to here the attempt only reads
  have hearly : ∀ os' o, os = os' ++ [o] → os'.length ≤ 4 → o ≠ .answered →
      Unmarked api r p v os res v := by
    rintro os' o rfl hlen hne
    refine .early h rfl (fun _ => ?_) ⟨o, by simp, hne⟩
    rw [List.getElem?_eq_none (by simp; omega)]
    simp
  unfold refundReservation at hatt
  rcases attempt_read rfl hatt with ⟨os₁, cs₁, rfl, h₁⟩ | ⟨rfl, ⟨o, rfl, hne⟩, -⟩
  case inr => exact hearly [] o rfl (by simp) hne
  rw [h.found hq] at h₁
  change (bookingSystem api).attempt 0 os₁ (ite _ _ _) v = _ at h₁
  rw [if_neg hst] at h₁
  rcases attempt_read rfl h₁ with ⟨os₂, cs₂, rfl, h₂⟩ | ⟨rfl, ⟨o, rfl, hne⟩, -⟩
  case inr => exact hearly [_] o rfl (by simp) hne
  rw [hscreening] at h₂
  rcases attempt_read rfl h₂ with ⟨os₃, cs₃, rfl, h₃⟩ | ⟨rfl, ⟨o, rfl, hne⟩, -⟩
  case inr => exact hearly [_, _] o rfl (by simp) hne
  rcases attempt_read rfl h₃ with ⟨os₄, cs₄, rfl, h₄⟩ | ⟨rfl, ⟨o, rfl, hne⟩, -⟩
  case inr => exact hearly [_, _, _] o rfl (by simp) hne
  have hnothing : refundDue r p v = none → (bookingSystem api).attempt 0 os₄
      (recordRefund r q none) v = some (cs₄, res, t) →
      Unmarked api r p v (.answered :: .answered :: .answered :: .answered :: os₄) res t := by
    intro hnone hatt
    obtain ⟨hs, hu, ⟨ht, heff⟩ | ⟨ht, heff, e, rfl⟩⟩ := attempt_recordRefund h hid hatt
    · exact .free hnone ht hs heff hu.cons.cons.cons.cons
    · exact .early ht hs (fun _ => heff) hu.cons.cons.cons.cons.fault
  have hread : refundDue r p v = (v.db.findRefundPolicy
      (((screening.startTime - v.now : ℤ) : ℚ) / (60 * 60 * 1000))).bind fun policy =>
        p.stripePaymentId.bind fun _ => if 0 < policy.refundPercent then
          some (refundShare p.amount policy.refundPercent) else none := by
    rw [refundDue, hscreening]
    rfl
  rw [hintent] at h₄
  cases hi : p.stripePaymentId with
  | none =>
    rw [hi] at h₄
    refine hnothing ?_ h₄
    rw [hread, hi]
    cases v.db.findRefundPolicy _ <;> rfl
  | some i =>
    rw [hi] at h₄
    change (bookingSystem api).attempt 0 os₄ (ite _ _ _) v = _ at h₄
    split_ifs at h₄ with hpercent
    · cases hpolicy : v.db.findRefundPolicy
        (((screening.startTime - v.now : ℤ) : ℚ) / (60 * 60 * 1000)) with
      | none =>
        rw [hpolicy] at hpercent
        exact absurd hpercent (lt_irrefl _)
      | some policy =>
        rw [hpolicy] at hpercent h₄
        have hdue : refundDue r p v = some (refundShare p.amount policy.refundPercent) := by
          rw [hread, hpolicy, hi]
          exact if_pos hpercent
        rw [hamount, hid] at h₄
        exact (attempt_ask hapi h hid hi hdue h₄).after (hdue ▸ Option.some_ne_none _) _ _ _ _
    · refine hnothing ?_ h₄
      rw [hread, hi]
      cases hpolicy : v.db.findRefundPolicy
        (((screening.startTime - v.now : ℤ) : ℚ) / (60 * 60 * 1000)) with
      | none => rfl
      | some policy =>
        rw [hpolicy] at hpercent
        exact if_neg hpercent

end Attempt

/-! ### Every sequence of attempts -/

section Runs
variable {σ A : Type} {api : StripeApi σ A} {r : Reservation} {p : Payment}
  {m : Option (Option ℕ)} {v t : World σ} {os : List (Outcome Err)} {cs : List Cmd}

/-- The payment is marked, with an id that is not that of the refund booked. -/
def Misrecorded (api : StripeApi σ A) (p : Payment) (w : World σ) : Prop :=
  ∃ q, w.db.payments.get p.id = some q ∧ q.status = .refunded ∧
    q.refundId ≠ api.refundId p.id w.stripe

theorem Upkept.marked_iff (h : Upkept api r p m v) (P : Option ℕ → Prop) :
    (∃ q, v.db.payments.get p.id = some q ∧ q.status = .refunded ∧ P q.refundId) ↔
      ∃ n, m = some n ∧ P n := by
  obtain ⟨q, hq, -, -, -, ⟨rfl, hst, -⟩ | ⟨rfl, hst⟩⟩ := h.payment
  · constructor
    · rintro ⟨q', hq', hst', -⟩
      cases hq.symm.trans hq'
      exact absurd hst' hst
    · rintro ⟨n, hn, -⟩
      cases hn
  · constructor
    · rintro ⟨q', hq', -, hP⟩
      cases hq.symm.trans hq'
      exact ⟨_, rfl, hP⟩
    · rintro ⟨n, hn, hP⟩
      cases hn
      exact ⟨q, hq, hst, hP⟩

theorem Upkept.misrecorded_iff (h : Upkept api r p m v) :
    Misrecorded api p v ↔ ∃ n, m = some n ∧ n ≠ api.refundId p.id v.stripe :=
  h.marked_iff fun n => n ≠ api.refundId p.id v.stripe

theorem Upkept.stillDue_iff (h : Upkept api r p none v) {left : σ → ℕ → ℤ} :
    StillDue api r p left v ↔ (api.under p.id v.stripe = [] ∧
      ∀ a ∈ refundDue r p v, ∀ i ∈ p.stripePaymentId, 0 < a ∧ a ≤ left v.stripe i) ∨
    ∃ refund, api.under p.id v.stripe = [refund] ∧ refundDue r p v = some refund.amount := by
  refine or_iff_right ?_
  rintro ⟨q, hq, hst⟩
  obtain ⟨n, hn, -⟩ := (h.marked_iff fun _ => True).mp ⟨q, hq, hst, trivial⟩
  cases hn

theorem Upkept.marksWithoutId_iff (h : Upkept api r p none v) :
    MarksWithoutId api r p os v ↔ api.under p.id v.stripe ≠ [] ∧ refundDue r p v = none ∧
      (os[5]?).any Outcome.effective := by
  refine and_iff_right ?_
  obtain ⟨q, hq, -, -, -, ⟨-, hst, -⟩ | ⟨hm, -⟩⟩ := h.payment
  · exact ⟨q, hq, hst⟩
  · cases hm

theorem not_marksWithoutId {n : Option ℕ} (h : Upkept api r p (some n) v) :
    ¬ MarksWithoutId api r p os v := by
  rintro ⟨⟨q, hq, hst⟩, -⟩
  obtain ⟨q', hq', -, -, -, ⟨hm, -⟩ | ⟨-, hst'⟩⟩ := h.payment
  · cases hm
  · cases hq.symm.trans hq'
    exact hst hst'

/-- What one attempt that fails does to the record. -/
theorem misrecorded_attempt (hapi : api.Idempotent) {e : Err} (h : ∃ m, Upkept api r p m v)
    (hatt : (bookingSystem api).attempt 0 os (refundReservation r) v =
      some (cs, .error e, t)) :
    (∃ m, Upkept api r p m t) ∧
      (Misrecorded api p t ↔ Misrecorded api p v ∨ MarksWithoutId api r p os v) := by
  obtain ⟨m, h⟩ := h
  cases m with
  | some n =>
    obtain ⟨ht, hs, -⟩ := attempt_marked h hatt
    refine ⟨⟨_, ht⟩, ?_⟩
    rw [ht.misrecorded_iff, h.misrecorded_iff, hs, or_iff_left (not_marksWithoutId h)]
  | none =>
    have hv : ¬ Misrecorded api p v := by simp [h.misrecorded_iff]
    rw [or_iff_right hv, h.marksWithoutId_iff]
    cases attempt_unmarked hapi h hatt with
    | early ht hs heff _ =>
      refine ⟨⟨_, ht⟩, ?_⟩
      rw [ht.misrecorded_iff]
      constructor
      · rintro ⟨n, hn, -⟩
        cases hn
      · rintro ⟨-, hnone, hmark⟩
        exact absurd hmark (heff hnone)
    | free hnone ht hs heff _ =>
      refine ⟨⟨_, ht⟩, ?_⟩
      rw [ht.misrecorded_iff, hs]
      constructor
      · rintro ⟨n, hn, hne⟩
        cases hn
        exact ⟨fun hnil => hne (refundId_eq_none.mpr hnil).symm, hnone, heff⟩
      · rintro ⟨hne, -⟩
        exact ⟨none, rfl, fun hnil => hne (refundId_eq_none.mp hnil.symm)⟩
    | asked _ hdue ht _ _ _ =>
      refine ⟨⟨_, ht⟩, ?_⟩
      simp [ht.misrecorded_iff, hdue]
    | answered hi hdue hanswer ht hs _ =>
      refine ⟨⟨_, ht⟩, ?_⟩
      simp [ht.misrecorded_iff, hdue, hs, StripeApi.refundId,
        under_of_answer hapi h.booked_length hanswer]

/-- Stripe answers the attempt that asks for what is still due, and no other. -/
theorem Upkept.answers_iff {left : σ → ℕ → ℤ} (hapi : api.Keyed left) (h : Upkept api r p none v)
    {i : ℕ} {a : ℤ} (hi : p.stripePaymentId = some i) (hdue : refundDue r p v = some a) :
    (∃ refund, (api.createRefund i a p.id v.stripe).1 = .ok refund) ↔ StillDue api r p left v := by
  rw [h.stillDue_iff]
  constructor
  · rintro ⟨refund, hanswer⟩
    rcases h.booked with hnil | ⟨refund', hone, -⟩
    · refine .inl ⟨hnil, fun a' ha i' hi' => ?_⟩
      cases hdue.symm.trans ha
      cases hi.symm.trans hi'
      by_contra hinvalid
      obtain ⟨e, he⟩ := hapi.declines i a p.id v.stripe hnil hinvalid
      cases hanswer.symm.trans he
    · refine .inr ⟨refund', hone, ?_⟩
      by_contra hother
      obtain ⟨e, he⟩ := hapi.rejects i a p.id v.stripe refund' hone fun hsame =>
        hother (hdue.trans (congrArg some hsame.2.symm))
      cases hanswer.symm.trans he
  · rintro (⟨hnil, hvalid⟩ | ⟨refund, hone, hsame⟩)
    · obtain ⟨hpos, hle⟩ := hvalid a hdue i hi
      exact hapi.serves i a p.id v.stripe hnil hpos hle
    · refine ⟨refund, hapi.replays i a p.id v.stripe refund hone ?_ ?_⟩
      · rcases h.booked with hnil | ⟨refund', hone', hintent⟩
        · cases hnil.symm.trans hone
        · cases hone'.symm.trans hone
          exact (Option.some.inj (hi.symm.trans hintent)).symm
      · exact (Option.some.inj (hdue.symm.trans hsame)).symm

/-- The last attempt, which nothing disturbs. -/
theorem finished_iff {left : σ → ℕ → ℤ} (hapi : api.Keyed left) (h : Upkept api r p m v) :
    Finished api p (perform api (refundReservation r) v) ↔
      ¬ Misrecorded api p v ∧ StillDue api r p left v := by
  obtain ⟨k, hatt⟩ := attempt_answered (bookingSystem api) (i := 0) (fun _ _ => rfl)
    (refundReservation r) v
  have hall : ∀ o ∈ List.replicate k (Outcome.answered : Outcome Err), o = .answered :=
    fun o ho => List.eq_of_mem_replicate ho
  obtain ⟨⟨res, t⟩, hout⟩ : ∃ out, perform api (refundReservation r) v = out := ⟨_, rfl⟩
  change _ = some (_, perform api (refundReservation r) v) at hatt
  rw [hout] at hatt ⊢
  -- a run that succeeds is finished exactly if the mark is that of the refund booked
  have hfinished : ∀ {n : Option ℕ}, Upkept api r p (some n) t →
      Unfaulted (List.replicate k .answered) res →
      (Finished api p (res, t) ↔ n = api.refundId p.id t.stripe) := by
    intro n ht hu
    have hrow := ht.marked_iff fun n' => n' = api.refundId p.id t.stripe
    refine ⟨fun hf => ?_, fun hn => ⟨hu hall, hrow.mpr ⟨n, rfl, hn⟩⟩⟩
    obtain ⟨n', hn, hid⟩ := hrow.mp hf.recorded
    cases hn
    exact hid
  cases m with
  | some n =>
    obtain ⟨ht, hs, hu⟩ := attempt_marked h hatt
    have hmarked : StillDue api r p left v := .inl (by
      simpa using (h.marked_iff fun _ => True).mpr ⟨n, rfl, trivial⟩)
    rw [hfinished ht hu, h.misrecorded_iff, hs, and_iff_left hmarked]
    simp
  | none =>
    have hv : ¬ Misrecorded api p v := by simp [h.misrecorded_iff]
    rw [and_iff_right hv]
    cases attempt_unmarked hapi.toIdempotent h hatt with
    | early _ _ _ hfault =>
      obtain ⟨o, ho, hne⟩ := hfault
      exact absurd (hall o ho) hne
    | free hnone ht hs _ hu =>
      rw [hfinished ht hu, hs, eq_comm, refundId_eq_none, h.stillDue_iff]
      simp [hnone]
    | asked hi hdue _ _ he hfault =>
      obtain ⟨e, rfl⟩ := he
      obtain ⟨e', hrefused⟩ := hfault.resolve_left fun ⟨o, ho, hne⟩ => hne (hall o ho)
      rw [← h.answers_iff hapi hi hdue]
      refine iff_of_false (fun hf => by simpa using hf.succeeds) ?_
      rintro ⟨refund, hok⟩
      cases hok.symm.trans hrefused
    | answered hi hdue hanswer ht hs hu =>
      rw [hfinished ht hu, hs, StripeApi.refundId,
        under_of_answer hapi.toIdempotent h.booked_length hanswer, ← h.answers_iff hapi hi hdue]
      exact iff_of_true rfl ⟨_, hanswer⟩

theorem upkept_elapse (hapi : api.Idempotent) (e : Env A) (h : ∃ m, Upkept api r p m v) :
    (∃ m, Upkept api r p m (v.elapse api e)) ∧
      (Misrecorded api p (v.elapse api e) ↔ Misrecorded api p v) := by
  obtain ⟨m, h⟩ := h
  have hdb : (v.elapse api e).db = v.db := World.elapse_db api e v
  have hs := under_elapse (v := v) hapi e p.id
  refine ⟨⟨m, h.congr hdb hs⟩, ?_⟩
  rw [Misrecorded, Misrecorded, hdb, StripeApi.refundId, StripeApi.refundId, hs]

/-- Any number of attempts at the refund of a payment fail, at any command and with anything
happening at Stripe and any time passing in between; then one more is made. It succeeds
and the payment carries the id of the refund that Stripe has booked exactly if no failed
attempt marked the payment without that id, and what is due at the end is what Stripe has
booked or will still refund. -/
theorem refund_finishes_iff (api : StripeApi σ A) (left : σ → ℕ → ℤ) (hapi : api.Keyed left)
    (w v : World σ) (r : Reservation) (p : Payment)
    (hr : w.db.reservations.get r.id = some r) (hp : p ∈ w.db.payments.rows)
    (hid : p.reservationId = r.id) (hst : p.status ≠ .refunded) (hnone : p.refundId = none)
    (hfresh : api.under p.id w.stripe = [])
    (as : List (List (Env A) × List (Outcome Err)))
    (h : (bookingSystem api).failing 0 (refundReservation r) as w = some v) (es : List (Env A)) :
    Finished api p (perform api (refundReservation r) (v.elapsed api es)) ↔
      (∀ x ∈ (bookingSystem api).begun 0 (refundReservation r) as w,
        ¬ MarksWithoutId api r p x.1 x.2) ∧ StillDue api r p left (v.elapsed api es) := by
  have hstart : Upkept api r p none w :=
    ⟨⟨p, get_of_mem hp, hid, rfl, rfl, .inl ⟨rfl, hst, hnone⟩⟩, ⟨r, hr, rfl⟩, .inl hfresh⟩
  have hclean : ¬ Misrecorded api p w := by simp [hstart.misrecorded_iff]
  have henv : ∀ (u : World σ) e, (∃ m, Upkept api r p m u) →
      (∃ m, Upkept api r p m ((bookingSystem api).env e u)) ∧
        (Misrecorded api p ((bookingSystem api).env e u) ↔ Misrecorded api p u) :=
    fun u e hu => upkept_elapse hapi.toIdempotent e hu
  have hstep : ∀ (u : World σ) os cs e t, (∃ m, Upkept api r p m u) →
      (bookingSystem api).attempt 0 os (refundReservation r) u = some (cs, .error e, t) →
      (∃ m, Upkept api r p m t) ∧
        (Misrecorded api p t ↔ Misrecorded api p u ∨ MarksWithoutId api r p os u) :=
    fun _ _ _ _ _ hu hatt => misrecorded_attempt hapi.toIdempotent hu hatt
  obtain ⟨hkept, hfailed⟩ := failing_rule (W := Misrecorded api p)
    (B := MarksWithoutId api r p) henv hstep ⟨_, hstart⟩ h
  have hlast : (∃ m, Upkept api r p m (v.elapsed api es)) ∧
      (Misrecorded api p (v.elapsed api es) ↔ Misrecorded api p v) :=
    env_keeps (bookingSystem api) (I := fun u => (∃ m, Upkept api r p m u) ∧
      (Misrecorded api p u ↔ Misrecorded api p v))
      (fun u e hu => ⟨(henv u e hu.1).1, (henv u e hu.1).2.trans hu.2⟩) es ⟨hkept, Iff.rfl⟩
  obtain ⟨⟨m, hend⟩, hsame⟩ := hlast
  rw [finished_iff hapi hend, hsame, hfailed, or_iff_right hclean]
  simp only [not_exists, not_and]

end Runs

/-! ### Two tiers -/

namespace Account

/-- Of the price of a ticket, what has not been refunded. -/
def left (s : Account) (intent : ℕ) : ℤ :=
  1000 - ((s.books.filter fun x => x.paymentIntent = intent).map Refund.amount).sum

/-- A refund under a new key is bounded by what is left. -/
def refundWithin (intent : ℕ) (amount : ℤ) (key : ℕ) (s : Account) : Except Err Refund × Account :=
  if s.books.filter (fun x => x.idempotencyKey = key) = [] ∧
      ¬ (0 < amount ∧ amount ≤ s.left intent) then (.error .stripe, s)
  else s.createRefund intent amount key

end Account

/-- The account in test mode, which refunds no more than was charged. -/
def boundedMode : StripeApi Account Account.Action :=
  { testMode with
    createRefund := fun i a k s => s.refundWithin i a k
    createRefund_issues := by
      intro i a k s r h
      unfold Account.refundWithin at h ⊢
      split_ifs at h ⊢
      exact Account.createRefund_ok i a k s r h
    createRefund_keeps := by
      intro i a k s
      unfold Account.refundWithin
      split_ifs
      · exact List.Subset.refl _
      · exact Account.createRefund_books i a k s }

theorem Account.find?_books {k : ℕ} (s : Account) :
    s.books.find? (fun x => x.idempotencyKey = k) = (boundedMode.under k s).head? :=
  List.head?_filter.symm

theorem Account.createRefund_new {k : ℕ} {s : Account} (h : boundedMode.under k s = []) (i : ℕ)
    (a : ℤ) : s.createRefund i a k = (.ok ⟨s.books.length + 1, i, a, k⟩,
      { s with books := s.books ++ [⟨s.books.length + 1, i, a, k⟩] }) := by
  rw [createRefund, find?_books, h]
  rfl

theorem Account.createRefund_used {k : ℕ} {s : Account} {x : Refund}
    (h : boundedMode.under k s = [x]) (i : ℕ) (a : ℤ) : s.createRefund i a k =
      if x.paymentIntent = i ∧ x.amount = a then (.ok x, s) else (.error .stripe, s) := by
  rw [createRefund, find?_books, h]
  rfl

/-- The bound is for new keys only. -/
theorem boundedMode_createRefund {k : ℕ} {s : Account} {i : ℕ} {a : ℤ}
    (h : boundedMode.under k s ≠ [] ∨ 0 < a ∧ a ≤ s.left i) :
    boundedMode.createRefund i a k s = s.createRefund i a k := by
  refine if_neg ?_
  rintro ⟨hnil, hout⟩
  exact h.elim (fun hne => hne hnil) hout

theorem boundedMode_declines {k : ℕ} {s : Account} {i : ℕ} {a : ℤ}
    (h : boundedMode.under k s = []) (hout : ¬ (0 < a ∧ a ≤ s.left i)) :
    boundedMode.createRefund i a k s = (.error .stripe, s) :=
  if_pos ⟨h, hout⟩

theorem boundedMode_keyed : boundedMode.Keyed Account.left where
  repeated i a k s hne := by
    rw [boundedMode_createRefund (.inl hne)]
    exact testMode_idempotent.repeated i a k s hne
  first i a k s hnil := by
    by_cases hin : 0 < a ∧ a ≤ s.left i
    · rw [boundedMode_createRefund (.inr hin)]
      exact testMode_idempotent.first i a k s hnil
    · rw [boundedMode_declines hnil hin]
      exact .inl hnil
  act := testMode_idempotent.act
  serves i a k s hnil hpos hle := by
    rw [boundedMode_createRefund (.inr ⟨hpos, hle⟩), Account.createRefund_new hnil]
    exact ⟨_, rfl⟩
  declines i a k s hnil hout := by
    rw [boundedMode_declines hnil hout]
    exact ⟨_, rfl⟩
  replays i a k s x hone hi ha := by
    rw [boundedMode_createRefund (.inl (by simp [hone])), Account.createRefund_used hone,
      if_pos ⟨hi, ha⟩]
  rejects i a k s x hone hother := by
    rw [boundedMode_createRefund (.inl (by simp [hone])), Account.createRefund_used hone,
      if_neg hother]
    exact ⟨_, rfl⟩

/-- User 1's seat, paid fifty hours before the screening. -/
def ticket : Reservation := ⟨1, 1, 1, 1, .confirmed, none⟩

def ticketPayment : Payment :=
  ⟨1, 1, 1000, "usd", .succeeded, some 1, some 1, some 1, none, none, none, none, none, 0⟩

/-- Stripe refunds the whole price, and then the payment is not written. -/
def refundedUnwritten : List (List (Env Account.Action) × List (Outcome Err)) :=
  [([], List.replicate 6 .answered ++ [.lost .unreachable])]

theorem ticket_row : (afterTurns (heldAndPaid ++ [paidTurn])).db.reservations.get 1 = some ticket ∧
    (afterTurns (heldAndPaid ++ [paidTurn])).db.payments.get 1 = some ticketPayment ∧
    boundedMode.under 1 (afterTurns (heldAndPaid ++ [paidTurn])).stripe = [] := by
  decide +kernel

/-- An hour later the same is due. -/
theorem finished_in_time : ∃ v, (bookingSystem boundedMode).failing 0 (refundReservation ticket)
    refundedUnwritten (afterTurns (heldAndPaid ++ [paidTurn])) = some v ∧
    Finished boundedMode ticketPayment (perform boundedMode (refundReservation ticket)
      (v.elapsed boundedMode [.advance 3600000])) := by
  have hruns : ((bookingSystem boundedMode).failing 0 (refundReservation ticket)
      refundedUnwritten (afterTurns (heldAndPaid ++ [paidTurn]))).any (fun v =>
        (boundedMode.under 1 (v.elapsed boundedMode [.advance 3600000]).stripe).map Refund.amount =
          [1000] ∧ refundDue ticket ticketPayment (v.elapsed boundedMode [.advance 3600000]) =
          some 1000) := by decide +kernel
  obtain ⟨hr, hp, hfresh⟩ := ticket_row
  obtain ⟨v, hv, hend⟩ := (Option.any_eq_true _ _).mp hruns
  obtain ⟨hbooked, hdue⟩ := of_decide_eq_true hend
  obtain ⟨refund, hone, hamount⟩ := List.map_eq_singleton_iff.mp hbooked
  refine ⟨v, hv, (refund_finishes_iff boundedMode Account.left boundedMode_keyed _ v ticket
    ticketPayment hr (mem_of_get hp) rfl (by decide) rfl hfresh refundedUnwritten hv _).mpr
    ⟨fun x hx => ?_, .inr (.inr ⟨refund, hone, hdue.trans (congrArg some hamount.symm)⟩)⟩⟩
  simp only [refundedUnwritten, begun, List.foldl_nil, List.mem_cons] at hx
  rcases hx with rfl | hx
  · rintro ⟨-, hne, -⟩
    exact hne hfresh
  · split at hx <;> cases hx

/-- Three hours later half the price is due, and Stripe rejects the key. -/
theorem refund_stuck : ¬ ∀ (api : StripeApi Account Account.Action) (left : Account → ℕ → ℤ),
    api.Keyed left → ∀ (w v : World Account) (r : Reservation) (p : Payment),
    w.db.reservations.get r.id = some r → p ∈ w.db.payments.rows → p.reservationId = r.id →
    p.status ≠ .refunded → p.refundId = none → api.under p.id w.stripe = [] →
    ∀ as : List (List (Env Account.Action) × List (Outcome Err)),
      (bookingSystem api).failing 0 (refundReservation r) as w = some v →
      ∀ es : List (Env Account.Action),
        Finished api p (perform api (refundReservation r) (v.elapsed api es)) := by
  intro h
  have hruns : ((bookingSystem boundedMode).failing 0 (refundReservation ticket)
      refundedUnwritten (afterTurns (heldAndPaid ++ [paidTurn]))).any (fun v =>
        (perform boundedMode (refundReservation ticket)
          (v.elapsed boundedMode [.advance 10800000])).1 = .error .stripe) := by decide +kernel
  obtain ⟨hr, hp, hfresh⟩ := ticket_row
  obtain ⟨v, hv, hend⟩ := (Option.any_eq_true _ _).mp hruns
  obtain ⟨x, hx⟩ := (h boundedMode Account.left boundedMode_keyed _ v ticket ticketPayment hr
    (mem_of_get hp) rfl (by decide) rfl hfresh refundedUnwritten hv
    [.advance 10800000]).succeeds
  cases hx.symm.trans (of_decide_eq_true hend)

end MovieReservation
