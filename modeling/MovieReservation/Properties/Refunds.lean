import MovieReservation.Services.Paths
import MovieReservation.Services.Steps
import MovieReservation.Services.TestMode

/-! Refunds: a cancellation that marks a payment REFUNDED has had Stripe issue what
the matching policy owes, provided that it never reads the payment before its Stripe
payment id is stored. The webhook stores that id only after it has made the
reservation CONFIRMED, so a cancellation can come in between. -/

namespace MovieReservation

open Lib Lib.Prog Lib.Table Lib.System

variable {σ A : Type}

/-! ### What a refund owes -/

def hoursUntil (startTime now : Time) : ℚ := ((startTime - now : ℤ) : ℚ) / (60 * 60 * 1000)

def percent (policy : Option RefundPolicy) : ℚ := (policy.map RefundPolicy.refundPercent).getD 0

/-- The percent of the policy that matches the hours left until the reservation's screening. -/
def World.refundPercent (w : World σ) (reservationId : ℕ) : ℚ :=
  percent do
    let reservation ← w.db.reservations.get reservationId
    let screening ← w.db.screeningFindById reservation.screeningId
    w.db.findRefundPolicy (hoursUntil screening.startTime w.now)

/-- Process `i` asked for the payment to be marked REFUNDED. -/
def Marks (tr : Log) (i paymentId : ℕ) : Prop :=
  ∃ d r, (i, ⟨.paymentUpdate (some paymentId) d, r⟩) ∈ tr ∧ d.status = some .refunded

/-- A state that the run goes through while process `i` is under way and has not asked yet for
the payment to be marked REFUNDED. -/
def During (api : StripeApi σ A) (w : World σ) (xs : List (Choice Err BookingRequest (Env A)))
    (i paymentId : ℕ) (v : World σ) : Prop :=
  ∃ ys m, ys <+: xs ∧ (bookingSystem api).schedule ys ⟨w, []⟩ = some m ∧ i < m.procs.length ∧
    ¬ Marks ((bookingSystem api).trace ys ⟨w, []⟩) i paymentId ∧ m.state = v

def Refunded (paymentId : ℕ) (db : Db) : Prop :=
  ∃ p ∈ db.payments.rows, p.id = paymentId ∧ p.status = .refunded

/-- The payment was REFUNDED at the start, or someone asked for it to be marked so. -/
def Accounted (start : Db) (tr : Log) (paymentId : ℕ) : Prop :=
  Refunded paymentId start ∨ ∃ i, Marks tr i paymentId

/-- Whoever marks a payment REFUNDED has had Stripe refund what was owed: the share of its
amount by the percent that matches at a moment of the cancellation, to the intent that the
payment carries at another. A cancellation of a CONFIRMED reservation that completes has
marked its payment, or found it marked. -/
structure NoSilentLoss (api : StripeApi σ A) (w : World σ)
    (xs : List (Choice Err BookingRequest (Env A)))
    (p : Pool Cmd Cmd.Reply Err (World σ) BookingRequest Response) : Prop where
  issued : ∀ i n, Marks ((bookingSystem api).trace xs ⟨w, []⟩) i n →
    ∃ u v payment, During api w xs i n u ∧ During api w xs i n v ∧
      v.db.payments.get n = some payment ∧
      (0 < u.refundPercent payment.reservationId →
        ∃ refund ∈ api.refunds p.state.stripe, refund.idempotencyKey = n ∧
          payment.stripePaymentId = some refund.paymentIntent ∧
          refund.amount = refundShare payment.amount (u.refundPercent payment.reservationId))
  completed : ∀ (i userId id : ℕ) (response : Response) (r : Reservation),
    p.procs[i]? = some (BookingRequest.cancel userId id, Prog.done (.ok response)) →
    (i, ⟨.reservationFindById id, .ok (some r)⟩) ∈ (bookingSystem api).trace xs ⟨w, []⟩ →
    r.status = .confirmed →
    ∃ payment, (i, ⟨.paymentFindByReservationId r.id, .ok (some payment)⟩) ∈
        (bookingSystem api).trace xs ⟨w, []⟩ ∧
      (payment.status ≠ .refunded ∧ Marks ((bookingSystem api).trace xs ⟨w, []⟩) i payment.id ∨
        payment.status = .refunded ∧
          Accounted w.db ((bookingSystem api).trace xs ⟨w, []⟩) payment.id)

/-- A cancellation reads a payment that is not REFUNDED only once its Stripe payment id
is stored. -/
def KnowsIntent : ℕ → BookingRequest → Cmd → World σ → Prop
  | _, .cancel _ _, .paymentFindByReservationId id, w =>
    ∀ p ∈ w.db.payments.rows.find? fun p => p.reservationId = id,
      p.status ≠ .refunded → p.stripePaymentId.isSome
  | _, _, _, _ => True

instance (i : ℕ) (op : BookingRequest) (c : Cmd) (w : World σ) :
    Decidable (KnowsIntent i op c w) := by
  induction op using BookingRequest.casesOn with
  | cancel userId id =>
    induction c using Cmd.casesOn <;> unfold KnowsIntent <;> infer_instance
  | _ => exact instDecidableTrue

/-! ### The path of a refund -/

/-- The commands of `finalizeCancel`. -/
inductive CloseCmd : Cmd → Prop
  | cancel (id : ℕ) (d : ReservationData) : CloseCmd (.reservationUpdate id d)
  | emit (e : ReservationEvent) : CloseCmd (.emit e)

/-- The commands that record a refund and cancel the seat. -/
inductive EndCmd (paymentId : ℕ) : Cmd → Prop
  | dateNow : EndCmd paymentId .dateNow
  | mark (d : PaymentData) : EndCmd paymentId (.paymentUpdate (some paymentId) d)
  | close {c : Cmd} : CloseCmd c → EndCmd paymentId c

theorem finalizeCancel_closes (r : Reservation) :
    Only CloseCmd (ReservationsService.finalizeCancel r) := by
  unfold ReservationsService.finalizeCancel
  refine Only.bind ((only_issue _).mpr (.cancel _ _)) fun c => ?_
  exact Only.bind ((only_issue _).mpr (.emit _)) fun _ => trivial

theorem recordRefund_ends (r : Reservation) (payment : Payment) (refundId : Option ℕ) :
    Only (EndCmd payment.id) (PaymentsService.recordRefund r payment refundId) := by
  unfold PaymentsService.recordRefund
  refine Only.bind ((only_issue _).mpr .dateNow) fun t => ?_
  refine Only.bind ((only_issue _).mpr (.mark _)) fun _ => ?_
  exact (finalizeCancel_closes r).mono fun _ => .close

/-- What is read before a payment is marked REFUNDED. -/
def reads (r : Reservation) (payment : Payment) (screening : ScreeningWithMovieHall) (t : Time)
    (policy : Option RefundPolicy) : List (Answer Cmd Cmd.Reply Err) :=
  [⟨.paymentFindByReservationId r.id, .ok (some payment)⟩,
    ⟨.screeningFindById r.screeningId, .ok (some screening)⟩, ⟨.dateNow, .ok t⟩,
    ⟨.findRefundPolicy (hoursUntil screening.startTime t), .ok policy⟩]

/-- The rest of a refund after the policy was read: Stripe's answer, if Stripe was asked,
and the commands that end a cancellation. -/
structure Concludes (payment : Payment) (policy : Option RefundPolicy)
    (l : List (Answer Cmd Cmd.Reply Err)) : Prop where
  only : ∀ a ∈ l, EndCmd payment.id a.1 ∨ ∃ i m, a.1 = .refundsCreate i m payment.id
  issued : ∀ intent, payment.stripePaymentId = some intent → 0 < percent policy →
    (∃ a ∈ l, EndCmd payment.id a.1) → ∃ refund, (⟨.refundsCreate intent
      (refundShare payment.amount (percent policy)) payment.id, .ok refund⟩ :
        Answer Cmd Cmd.Reply Err) ∈ l

theorem concludes_of_ends {payment : Payment} {policy : Option RefundPolicy}
    {l : List (Answer Cmd Cmd.Reply Err)} (h : ∀ a ∈ l, EndCmd payment.id a.1)
    (hno : payment.stripePaymentId = none ∨ ¬ 0 < percent policy) :
    Concludes payment policy l where
  only a ha := .inl (h a ha)
  issued := by
    intro intent hi hp _
    rcases hno with hno | hno
    · rw [hno] at hi; cases hi
    · exact absurd hp hno

/-- The path of a refund that has come past the policy. -/
theorem refundReservation_path {r : Reservation} {l : List (Answer Cmd Cmd.Reply Err)}
    {q : M Reservation} (h : Follows (PaymentsService.refundReservation r) l q) :
    (∀ a ∈ l, ∀ n d, a.1 = .paymentUpdate n d → d.status ≠ some .refunded) ∨
      ∃ payment screening t policy rest, payment.status ≠ .refunded ∧
        l = reads r payment screening t policy ++ rest ∧ Concludes payment policy rest := by
  unfold PaymentsService.refundReservation at h
  have hpath := Follows.issue_bind (c := Cmd.paymentFindByReservationId r.id) h
  clear h
  rcases hpath with
    rfl | ⟨e, rfl, -⟩ | ⟨found, l₁, rfl, h⟩
  · exact .inl (by simp)
  · exact .inl (by simp)
  cases found with
  | none =>
    rw [(Follows.of_done h).1]
    exact .inl (by simp)
  | some payment =>
    change Follows (ite _ _ _) l₁ q at h
    split_ifs at h with hrefunded
    · refine .inl fun a ha n d => ?_
      rcases List.mem_cons.mp ha with rfl | ha
      · nofun
      · intro hc
        have hclose := h.only (finalizeCancel_closes r) a ha
        rw [hc] at hclose
        cases hclose
    have hpath := Follows.issue_bind (c := Cmd.screeningFindById r.screeningId) h
    clear h
    rcases hpath with
      rfl | ⟨e, rfl, -⟩ | ⟨found, l₂, rfl, h⟩
    · exact .inl (by simp)
    · exact .inl (by simp)
    cases found with
    | none =>
      rw [(Follows.of_done h).1]
      exact .inl (by simp)
    | some screening =>
      have hpath := Follows.issue_bind (c := Cmd.dateNow) h
      clear h
      rcases hpath with rfl | ⟨e, rfl, -⟩ | ⟨t, l₃, rfl, h⟩
      · exact .inl (by simp)
      · exact .inl (by simp)
      have hpath := Follows.issue_bind (c := Cmd.findRefundPolicy _) h
      clear h
      rcases hpath with rfl | ⟨e, rfl, -⟩ | ⟨policy, l₄, rfl, h⟩
      · exact .inl (by simp)
      · exact .inl (by simp)
      refine .inr ⟨payment, screening, t, policy, l₄, hrefunded, rfl, ?_⟩
      cases hintent : payment.stripePaymentId with
      | none =>
        simp only [hintent] at h
        exact concludes_of_ends (h.only (recordRefund_ends r payment none)) (.inl hintent)
      | some intent =>
        simp only [hintent] at h
        split_ifs at h with hpos
        · have hpath := Follows.issue_bind (c := Cmd.refundsCreate intent _ payment.id) h
          clear h
          rcases hpath with rfl | ⟨e, rfl, -⟩ | ⟨refund, l₅, rfl, h⟩
          · exact ⟨by simp, by simp⟩
          · refine ⟨fun a ha => ?_, fun _ _ _ ⟨a, ha, hend⟩ => ?_⟩
            · rw [List.mem_singleton.mp ha]
              exact .inr ⟨_, _, rfl⟩
            · rw [List.mem_singleton.mp ha] at hend
              cases hend with
              | close hc => cases hc
          · refine ⟨fun a ha => ?_, fun intent' hi _ _ => ⟨refund, ?_⟩⟩
            · rcases List.mem_cons.mp ha with rfl | ha
              · exact .inr ⟨_, _, rfl⟩
              · exact .inl (h.only (recordRefund_ends r payment _) a ha)
            · rw [hintent, Option.some.injEq] at hi
              subst hi
              exact List.mem_cons_self
        · exact concludes_of_ends (h.only (recordRefund_ends r payment none)) (.inr hpos)

/-- A refund that is recorded marks its payment. -/
theorem recordRefund_completed {r : Reservation} {payment : Payment} {refundId : Option ℕ}
    {l : List (Answer Cmd Cmd.Reply Err)} {x : Reservation}
    (h : Follows (PaymentsService.recordRefund r payment refundId) l (.done (.ok x))) :
    ∃ d rep, (⟨.paymentUpdate (some payment.id) d, rep⟩ : Answer Cmd Cmd.Reply Err) ∈ l ∧
      d.status = some .refunded := by
  unfold PaymentsService.recordRefund at h
  obtain ⟨t, l₁, l₂, rfl, -, h₂⟩ := h.bind_ok
  obtain ⟨q, l₃, l₄, rfl, h₃, -⟩ := h₂.bind_ok
  rw [h₃.issue_ok]
  refine ⟨_, .ok q, List.mem_append_right _ (List.mem_append_left _
    (List.mem_singleton_self _)), ?_⟩
  rfl

theorem refundReservation_completed {r : Reservation} {l : List (Answer Cmd Cmd.Reply Err)}
    {x : Reservation} (h : Follows (PaymentsService.refundReservation r) l (.done (.ok x))) :
    ∃ payment, (⟨.paymentFindByReservationId r.id, .ok (some payment)⟩ :
        Answer Cmd Cmd.Reply Err) ∈ l ∧
      (payment.status = .refunded ∨ payment.status ≠ .refunded ∧
        ∃ d rep, (⟨.paymentUpdate (some payment.id) d, rep⟩ : Answer Cmd Cmd.Reply Err) ∈ l ∧
          d.status = some .refunded) := by
  unfold PaymentsService.refundReservation at h
  obtain ⟨found, l₁, l₂, rfl, h₁, h⟩ := h.bind_ok
  rw [h₁.issue_ok]
  cases found with
  | none => cases h
  | some payment =>
    refine ⟨payment, List.mem_append_left _ (List.mem_singleton_self _), ?_⟩
    change Follows (ite _ _ _) l₂ _ at h
    split_ifs at h with hrefunded
    · exact .inl hrefunded
    refine .inr ⟨hrefunded, ?_⟩
    obtain ⟨screening, l₃, l₄, rfl, -, h⟩ := h.bind_ok
    cases screening with
    | none => cases h
    | some screening =>
      obtain ⟨t, l₅, l₆, rfl, -, h⟩ := h.bind_ok
      obtain ⟨policy, l₇, l₈, rfl, -, h⟩ := h.bind_ok
      have hmarked : ∃ d rep, (⟨.paymentUpdate (some payment.id) d, rep⟩ :
          Answer Cmd Cmd.Reply Err) ∈ l₈ ∧ d.status = some .refunded := by
        cases hintent : payment.stripePaymentId with
        | none =>
          simp only [hintent] at h
          exact recordRefund_completed h
        | some intent =>
          simp only [hintent] at h
          split_ifs at h
          · obtain ⟨refund, l₉, l₁₀, rfl, -, h⟩ := h.bind_ok
            obtain ⟨d, rep, hd, hs⟩ := recordRefund_completed h
            exact ⟨d, rep, List.mem_append_right _ hd, hs⟩
          · exact recordRefund_completed h
      obtain ⟨d, rep, hd, hs⟩ := hmarked
      refine ⟨d, rep, ?_, hs⟩
      simp only [List.mem_append]
      exact .inr (.inr (.inr (.inr hd)))

/-! ### The path of a cancellation -/

theorem handle_cancel (u id : ℕ) :
    (BookingRequest.cancel u id).handle =
      ReservationsService.findOwned u id >>= fun r =>
        ((if r.status = .confirmed then PaymentsService.refundReservation r
          else do
            throwIf (r.status ≠ .held)
              (.conflict "Only a held or confirmed reservation can be cancelled")
            ReservationsService.finalizeCancel r) >>= fun r' => pure (.reservation r')) := by
  show (ReservationsService.cancel u id >>= fun r' => pure (Response.reservation r')) = _
  rw [ReservationsService.cancel, bind_assoc]

theorem closing (r : Reservation) : Only CloseCmd (do
    throwIf (r.status ≠ .held) (.conflict "Only a held or confirmed reservation can be cancelled")
    ReservationsService.finalizeCancel r) := by
  rw [only_throwIf_bind]
  exact fun _ => finalizeCancel_closes r

/-- A refund does not read the reservation again. -/
theorem refundReservation_reads (r : Reservation) :
    Only (fun c => ∀ n, c ≠ .reservationFindById n) (PaymentsService.refundReservation r) :=
  (PaymentsService.refundReservation_cancels r).mono fun c hc n hn => by
    subst hn
    cases hc

/-- A cancellation marks a payment only at the end of a refund of what it read. -/
theorem cancel_path {u id : ℕ} {l : List (Answer Cmd Cmd.Reply Err)} {q : M Response}
    (h : Follows (BookingRequest.cancel u id).handle l q) :
    (∀ a ∈ l, ∀ n d, a.1 = .paymentUpdate n d → d.status ≠ some .refunded) ∨
      ∃ r payment screening t policy rest, payment.status ≠ .refunded ∧
        l = ⟨.reservationFindById id, .ok (some r)⟩ ::
          (reads r payment screening t policy ++ rest) ∧ Concludes payment policy rest := by
  rw [handle_cancel] at h
  rcases h.bind_cases with ⟨p, hp, -⟩ | ⟨r, l₁, l₂, rfl, h₁, h₂⟩
  · refine .inl fun a ha n d hc => ?_
    have hread := hp.only (findOwned_reads u id) a ha
    rw [hc] at hread
    cases hread
  rw [findOwned_path h₁]
  have hrest : ∃ p : M Reservation, Follows (if r.status = .confirmed then
      PaymentsService.refundReservation r else do
        throwIf (r.status ≠ .held)
          (.conflict "Only a held or confirmed reservation can be cancelled")
        ReservationsService.finalizeCancel r) l₂ p := by
    rcases h₂.bind_cases with ⟨p, hp, -⟩ | ⟨x, l₃, l₄, rfl, h₃, h₄⟩
    · exact ⟨p, hp⟩
    · rw [(Follows.of_done h₄).1, List.append_nil]
      exact ⟨_, h₃⟩
  obtain ⟨p, hp⟩ := hrest
  split_ifs at hp with hconfirmed
  · rcases refundReservation_path hp with
      hno | ⟨payment, screening, t, policy, rest, hst, rfl, hend⟩
    · refine .inl fun a ha n d hc => ?_
      rcases List.mem_cons.mp ha with rfl | ha
      · cases hc
      · exact hno a ha n d hc
    · exact .inr ⟨r, payment, screening, t, policy, rest, hst, rfl, hend⟩
  · refine .inl fun a ha n d hc => ?_
    rcases List.mem_cons.mp ha with rfl | ha
    · cases hc
    · have hclose := hp.only (closing r) a ha
      rw [hc] at hclose
      cases hclose

theorem cancel_completed {u id : ℕ} {l : List (Answer Cmd Cmd.Reply Err)} {x : Response}
    (h : Follows (BookingRequest.cancel u id).handle l (.done (.ok x))) {r : Reservation}
    (hr : (⟨.reservationFindById id, .ok (some r)⟩ : Answer Cmd Cmd.Reply Err) ∈ l)
    (hconfirmed : r.status = .confirmed) :
    ∃ payment, (⟨.paymentFindByReservationId r.id, .ok (some payment)⟩ :
        Answer Cmd Cmd.Reply Err) ∈ l ∧
      (payment.status = .refunded ∨ payment.status ≠ .refunded ∧
        ∃ d rep, (⟨.paymentUpdate (some payment.id) d, rep⟩ : Answer Cmd Cmd.Reply Err) ∈ l ∧
          d.status = some .refunded) := by
  rw [handle_cancel] at h
  obtain ⟨r', l₁, l₂, rfl, h₁, h₂⟩ := h.bind_ok
  obtain ⟨x', l₃, l₄, rfl, h₃, h₄⟩ := h₂.bind_ok
  rw [(Follows.of_done h₄).1, List.append_nil, findOwned_path h₁] at hr ⊢
  have heq : r' = r := by
    rcases List.mem_cons.mp hr with he | hr
    · cases he
      rfl
    · exfalso
      split_ifs at h₃
      · exact h₃.only (refundReservation_reads r') _ hr id rfl
      · have hclose := h₃.only (closing r') _ hr
        cases hclose
  subst heq
  rw [if_pos hconfirmed] at h₃
  obtain ⟨payment, hpay, hcase⟩ := refundReservation_completed h₃
  refine ⟨payment, List.mem_cons_of_mem _ hpay, ?_⟩
  rcases hcase with hst | ⟨hst, d, rep, hd, hds⟩
  · exact .inl hst
  · exact .inr ⟨hst, d, rep, List.mem_cons_of_mem _ hd, hds⟩

/-! ### What Stripe's answers and the statements leave -/

variable {api : StripeApi σ A}

/-- An answer is an earlier one or that of the last command. -/
theorem snoc_answer {tr : Log} {w : World σ} {i j : ℕ} {c c' : Cmd} {o : Outcome Err}
    {out : Except Err c.Reply × World σ} {x : c'.Reply}
    (hout : (bookingSystem api).finish i c w o = some out)
    (h : (j, ⟨c', .ok x⟩) ∈ tr ++ [(i, ⟨c, out.1⟩)]) :
    (j, ⟨c', .ok x⟩) ∈ tr ∨ World.exec api c' w = (.ok x, out.2) := by
  rcases List.mem_append.mp h with h | h
  · exact .inl h
  rw [List.mem_singleton, Prod.mk.injEq] at h
  obtain ⟨-, ha⟩ := h
  obtain ⟨rfl, hx⟩ := Sigma.mk.inj_iff.mp ha
  have hok : out.1 = .ok x := (eq_of_heq hx).symm
  rcases finish_cases _ hout with ⟨-, rfl⟩ | ⟨e, -, rfl⟩ | ⟨e, -, rfl⟩
  · exact .inr (Prod.ext hok rfl)
  · cases hok
  · cases hok

/-- Every refund that Stripe answered is in its books. -/
def Booked (api : StripeApi σ A) (tr : Log) (w : World σ) : Prop :=
  ∀ i intent amount key refund, (i, ⟨.refundsCreate intent amount key, .ok refund⟩) ∈ tr →
    refund ∈ api.refunds w.stripe ∧ refund.paymentIntent = intent ∧ refund.amount = amount ∧
      refund.idempotencyKey = key

theorem Booked.mono {tr : Log} {w w' : World σ} (h : Booked api tr w)
    (hw : api.refunds w.stripe ⊆ api.refunds w'.stripe) : Booked api tr w' := by
  intro i intent amount key refund hr
  obtain ⟨h1, h2⟩ := h i intent amount key refund hr
  exact ⟨hw h1, h2⟩

theorem booked_snoc {tr : Log} {w : World σ} {i : ℕ} {c : Cmd} {o : Outcome Err}
    {out : Except Err c.Reply × World σ} (h : Booked api tr w)
    (hout : (bookingSystem api).finish i c w o = some out) :
    Booked api (tr ++ [(i, ⟨c, out.1⟩)]) out.2 := by
  have hgrow : api.refunds w.stripe ⊆ api.refunds out.2.stripe := by
    rcases finish_cases _ hout with ⟨-, rfl⟩ | ⟨e, -, rfl⟩ | ⟨e, -, rfl⟩
    · exact World.exec_refunds api c w
    · exact List.Subset.refl _
    · exact World.exec_refunds api c w
  intro j intent amount key refund hr
  rcases snoc_answer hout hr with hr | hexec
  · exact h.mono hgrow j intent amount key refund hr
  · have hissues := api.createRefund_issues intent amount key w.stripe refund
      (congrArg Prod.fst hexec)
    rwa [← (congrArg Prod.snd hexec : (World.exec api (.refundsCreate intent amount key) w).2 = _)]

/-! ### How a payment becomes REFUNDED -/

section Statements
variable {db db' : Db} {id : ℕ}

theorem Refunded.of_payments (h : Refunded id db') (heq : db'.payments = db.payments) :
    Refunded id db := by
  obtain ⟨q, hq, hst⟩ := h
  exact ⟨q, heq ▸ hq, hst⟩

theorem refunded_paymentUpdate {paymentId : ℕ} {d : PaymentData} {p : Payment}
    (hu : db.paymentUpdate paymentId d = .ok (p, db')) (h : Refunded id db') :
    Refunded id db ∨ paymentId = id ∧ d.status = some .refunded := by
  obtain ⟨_, -, -, -, ht⟩ := Db.paymentUpdate_eq_ok hu
  obtain ⟨q, hq, rfl, hst⟩ := h
  simp only [ht, mem_modify] at hq
  rcases hq with ⟨hq, -⟩ | ⟨p₀, hp₀, hid, rfl⟩
  · exact .inl ⟨q, hq, rfl, hst⟩
  · cases hd : d.status with
    | none =>
      refine .inl ⟨p₀, hp₀, rfl, ?_⟩
      simpa only [PaymentData.apply, hd, Option.getD_none] using hst
    | some st =>
      simp only [PaymentData.apply, hd, Option.getD_some] at hst
      exact .inr ⟨hid.symm, congrArg some hst⟩

theorem refunded_updateBoth {pid rid : ℕ} {d : PaymentData} {e : ReservationData}
    {x : Payment × Reservation} (hd : d.status ≠ some .refunded)
    (hu : db.updateBoth pid d rid e = .ok (x, db')) (h : Refunded id db') : Refunded id db := by
  obtain ⟨db₁, hp, hr⟩ := Db.updateBoth_eq_ok hu
  obtain ⟨_, -, -, -, ht⟩ := Db.reservationUpdate_eq_ok hr
  rcases refunded_paymentUpdate hp (h.of_payments (by rw [ht])) with h | ⟨-, h⟩
  · exact h
  · exact absurd h hd

theorem refunded_paymentCreate {now : Time} {d : Db.PaymentCreate} {p : Payment}
    (hd : d.status = .pending) (hu : db.paymentCreate now d = .ok (p, db')) (h : Refunded id db') :
    Refunded id db := by
  obtain ⟨-, -, -, ht⟩ := Db.paymentCreate_eq_ok hu
  obtain ⟨q, hq, hid, hst⟩ := h
  rw [ht] at hq
  rcases List.mem_append.mp hq with hq | hq
  · exact ⟨q, hq, hid, hst⟩
  · rw [List.mem_singleton.mp hq] at hst
    simp [Db.PaymentCreate.row, hd] at hst

theorem refunded_paymentDelete {paymentId : ℕ} {p : Payment}
    (hu : db.paymentDelete paymentId = .ok (p, db')) (h : Refunded id db') : Refunded id db := by
  obtain ⟨-, ht⟩ := Db.paymentDelete_eq_ok hu
  obtain ⟨q, hq, hst⟩ := h
  rw [ht] at hq
  exact ⟨q, List.mem_of_mem_filter hq, hst⟩

theorem refunded_commit {α : Type} {w : World σ} {r : Except Err (α × Db)}
    (hr : ∀ a db', r = .ok (a, db') → Refunded id db' → Refunded id w.db)
    (h : Refunded id (w.commit r).2.db) : Refunded id w.db := by
  rcases w.commit_cases r with ⟨a, db', he, hc⟩ | ⟨e, -, hc⟩
  · rw [hc] at h
    exact hr a db' he h
  · rw [hc] at h
    exact h

/-- A payment becomes REFUNDED only by being marked. -/
theorem refunded_step {op : BookingRequest} {c : Cmd} (hc : BookingCmd op c) {w : World σ}
    (h : Refunded id (World.exec api c w).2.db) :
    Refunded id w.db ∨ ∃ d, c = .paymentUpdate (some id) d ∧ d.status = some .refunded := by
  cases hc with
  | quiet hc =>
    rw [World.exec_quiet api hc] at h
    exact .inl h
  | session _ _ => exact .inl h
  | holdSeat p _ =>
    refine .inl (refunded_commit (fun a db' hok h => ?_) h)
    obtain ⟨_, -, -, -, -, -, ht⟩ := Db.holdSeat_eq_ok hok
    exact h.of_payments (by rw [ht])
  | sweep t _ => exact .inl h
  | extend n t _ | confirm n _ | cancel n _ =>
    refine .inl (refunded_commit (fun a db' hok h => ?_) h)
    obtain ⟨_, -, -, -, ht⟩ := Db.reservationUpdate_eq_ok hok
    exact h.of_payments (by rw [ht])
  | pay hd _ => exact .inl (refunded_commit (fun a db' hok => refunded_paymentCreate hd hok) h)
  | payment n d hd =>
    cases n with
    | none => exact .inl h
    | some n =>
      by_cases hmark : n = id ∧ d.status = some .refunded
      · obtain ⟨rfl, hmark⟩ := hmark
        exact .inr ⟨d, rfl, hmark⟩
      · refine .inl (refunded_commit (fun a db' hok h => ?_) h)
        exact (refunded_paymentUpdate hok h).resolve_right hmark
  | drop n _ => exact .inl (refunded_commit (fun a db' hok => refunded_paymentDelete hok) h)
  | decline p r hj =>
    exact .inl (refunded_commit (fun a db' hok => refunded_updateBoth (by simp) hok) h)
  | settle p r i hj =>
    exact .inl (refunded_commit (fun a db' hok => refunded_updateBoth (by simp) hok) h)

end Statements

/-! ### Trace and world -/

theorem Accounted.append {start : Db} {tr : Log} {id : ℕ} (h : Accounted start tr id) (l : Log) :
    Accounted start (tr ++ l) id := by
  rcases h with h | ⟨i, d, r, hm, hd⟩
  · exact .inl h
  · exact .inr ⟨i, d, r, List.mem_append_left _ hm, hd⟩

/-- Every refund answered is booked; every REFUNDED payment, in its table or as someone
read it, was so at the start or is accounted for by the trace; what is offered is what it was
at the start and what was read; and a reservation that was read stays for its screening. -/
structure Accounting (api : StripeApi σ A) (start : Db) (tr : Log) (w : World σ) : Prop where
  booked : Booked api tr w
  rows : ∀ id, Refunded id w.db → Accounted start tr id
  reads : ∀ i id payment, (i, ⟨.paymentFindByReservationId id, .ok (some payment)⟩) ∈ tr →
    payment.status = .refunded → Accounted start tr payment.id
  offer : start.SameOffer w.db
  screenings : ∀ i id screening, (i, ⟨.screeningFindById id, .ok (some screening)⟩) ∈ tr →
    start.screeningFindById id = some screening
  policies : ∀ i hours policy, (i, ⟨.findRefundPolicy hours, .ok policy⟩) ∈ tr →
    start.findRefundPolicy hours = policy
  reserved : ∀ i id r, (i, ⟨.reservationFindById id, .ok (some r)⟩) ∈ tr →
    ∃ r' ∈ w.db.reservations.get r.id, r'.screeningId = r.screeningId

theorem accounting_start (w : World σ) : Accounting api w.db [] w where
  booked i intent amount key refund hr := by cases hr
  rows id h := .inl h
  reads i id payment hr := by cases hr
  offer := .refl w.db
  screenings i id screening hr := by cases hr
  policies i hours policy hr := by cases hr
  reserved i id r hr := by cases hr

variable (api) in
/-- A reservation that is there stays, for its screening. -/
theorem reserved_exec {op : BookingRequest} {c : Cmd} (hc : BookingCmd op c) {w : World σ} {id : ℕ}
    {r : Reservation} (hr : w.db.reservations.get id = some r) :
    ∃ r' ∈ (World.exec api c w).2.db.reservations.get id, r'.screeningId = r.screeningId := by
  obtain ⟨s, hs, -⟩ := reservation_step api hc hr
  exact ⟨s, hs, ((World.exec_evolves api c w).reservation hr hs).1⟩

theorem Accounting.step {start : Db} {tr : Log} {w : World σ} (h : Accounting api start tr w)
    {i : ℕ} {op : BookingRequest} {l : List (Answer Cmd Cmd.Reply Err)} {c : Cmd}
    {k : Except Err c.Reply → M Response} {o : Outcome Err} {out : Except Err c.Reply × World σ}
    (hpath : Follows op.handle l (.call c k))
    (hout : (bookingSystem api).finish i c w o = some out) :
    Accounting api start (tr ++ [(i, ⟨c, out.1⟩)]) out.2 := by
  have hc : BookingCmd op c := (hpath.only_rest op.handle_only).1
  -- the command took effect, or it was lost
  have hstate : out.2 = (World.exec api c w).2 ∨ out.2 = w := by
    rcases finish_cases _ hout with ⟨-, rfl⟩ | ⟨e, -, rfl⟩ | ⟨e, -, rfl⟩
    · exact .inl rfl
    · exact .inr rfl
    · exact .inl rfl
  refine ⟨booked_snoc h.booked hout, fun id hid => ?_, fun j id payment hr hst => ?_, ?_,
    fun j id screening hr => ?_, fun j hours policy hr => ?_, fun j id r hr => ?_⟩
  · have hstep : Refunded id w.db ∨ ∃ d, c = .paymentUpdate (some id) d ∧
        d.status = some .refunded := by
      rcases hstate with hs | hs
      · exact refunded_step hc (hs ▸ hid)
      · exact .inl (hs ▸ hid)
    rcases hstep with hid | ⟨d, rfl, hd⟩
    · exact (h.rows id hid).append _
    · exact .inr ⟨i, d, out.1, List.mem_append_right _ (List.mem_singleton_self _), hd⟩
  · rcases snoc_answer hout hr with hr | hexec
    · exact (h.reads j id payment hr hst).append _
    · have hfind : w.db.payments.rows.find? (fun p => p.reservationId = id) = some payment :=
        Except.ok.inj (congrArg Prod.fst hexec)
      exact (h.rows payment.id ⟨payment, List.mem_of_find?_eq_some hfind, rfl, hst⟩).append _
  · rcases hstate with hs | hs
    · exact hs ▸ h.offer.trans (booking_offer api hc)
    · exact hs ▸ h.offer
  · rcases snoc_answer hout hr with hr | hexec
    · exact h.screenings j id screening hr
    · rw [← h.offer.screeningFindById]
      exact Except.ok.inj (congrArg Prod.fst hexec)
  · rcases snoc_answer hout hr with hr | hexec
    · exact h.policies j hours policy hr
    · rw [← h.offer.findRefundPolicy]
      exact Except.ok.inj (congrArg Prod.fst hexec)
  · rcases snoc_answer hout hr with hr | hexec
    · obtain ⟨r', hr', hscreening⟩ := h.reserved j id r hr
      rcases hstate with hs | hs
      · obtain ⟨s, hs', hsame⟩ := reserved_exec api hc hr'
        exact ⟨s, hs ▸ hs', hsame.trans hscreening⟩
      · exact ⟨r', hs ▸ hr', hscreening⟩
    · have hget : w.db.reservations.get id = some r :=
        Except.ok.inj (congrArg Prod.fst hexec)
      have hsame : out.2 = w := (congrArg Prod.snd hexec).symm
      exact ⟨r, by rw [hsame, show r.id = id from id_of_get hget]; exact hget, rfl⟩

theorem accounting_env {start : Db} {tr : Log} {w : World σ} (h : Accounting api start tr w)
    (e : Env A) : Accounting api start tr (w.elapse api e) := by
  cases e with
  | stripe a => exact { h with booked := h.booked.mono (api.act_keeps a w.stripe) }
  | _ => exact { h with }

theorem accounting_run {w : World σ} {xs : List (Choice Err BookingRequest (Env A))}
    {p : Pool Cmd Cmd.Reply Err (World σ) BookingRequest Response}
    (hx : (bookingSystem api).schedule xs ⟨w, []⟩ = some p) :
    OnPath (bookingSystem api) ((bookingSystem api).trace xs ⟨w, []⟩) p ∧
      Accounting api w.db ((bookingSystem api).trace xs ⟨w, []⟩) p.state :=
  trace_rule (I := Accounting api w.db) (A := fun _ _ _ _ => True) (accounting_start w)
    (fun _ _ e h => accounting_env h e) (fun _ _ _ _ _ _ _ _ h hl hout _ => h.step hl hout) hx
    (allMeet_of_forall _ (fun _ _ _ _ => trivial) xs _)

/-- Who marks a payment has read it, and the policy before that. -/
theorem Concludes.marks {payment : Payment} {policy : Option RefundPolicy}
    {rest : List (Answer Cmd Cmd.Reply Err)} (h : Concludes payment policy rest) {n : ℕ}
    {d : PaymentData} {rep : Except Err Payment}
    (hmem : (⟨.paymentUpdate (some n) d, rep⟩ : Answer Cmd Cmd.Reply Err) ∈ rest) :
    n = payment.id := by
  rcases h.only _ hmem with hend | ⟨_, _, hc⟩
  · cases hend with
    | mark d => rfl
    | close hc => cases hc
  · cases hc

variable (api) in
/-- A moment of the run at which process `i` is answered, with nothing marked before. -/
theorem during_answer {w : World σ} {xs : List (Choice Err BookingRequest (Env A))}
    {p : Pool Cmd Cmd.Reply Err (World σ) BookingRequest Response}
    {i : ℕ} (n : ℕ) (l₁ : List (Answer Cmd Cmd.Reply Err))
    {l₂ : List (Answer Cmd Cmd.Reply Err)} {c : Cmd} {x : c.Reply}
    (hx : (bookingSystem api).schedule xs ⟨w, []⟩ = some p)
    (hown : own i ((bookingSystem api).trace xs ⟨w, []⟩) = l₁ ++ ⟨c, .ok x⟩ :: l₂)
    (hl : ∀ a ∈ l₁, ∀ m d, a.1 ≠ .paymentUpdate m d) :
    ∃ v tr, During api w xs i n v ∧ (World.exec api c v).1 = .ok x ∧
      Accounting api w.db tr v ∧ own i tr = l₁ := by
  obtain ⟨ys, o, zs, m, m', hxs, hys, hact, -, htr, hanswers, -⟩ := split_at_answer _ i xs hx hown
  obtain ⟨op, k, -, hi, hexec, -⟩ := answered_step _ hanswers hact
  refine ⟨m.state, _, ⟨ys, m, ⟨_, hxs.symm⟩, hys, (List.getElem?_eq_some_iff.mp hi).1, ?_, rfl⟩,
    hexec, (accounting_run hys).2, htr⟩
  rintro ⟨d, rep, hmark, -⟩
  rw [← mem_own, htr] at hmark
  exact hl _ hmark _ _ rfl

/-- Only a cancellation marks a payment REFUNDED. -/
theorem marking_cancel {tr : Log} {p : Pool Cmd Cmd.Reply Err (World σ) BookingRequest Response}
    (hpath : OnPath (bookingSystem api) tr p) {i n : ℕ} (h : Marks tr i n) :
    ∃ userId id k, p.procs[i]? = some (BookingRequest.cancel userId id, k) := by
  obtain ⟨d, rep, hmark, hd⟩ := h
  obtain ⟨⟨op, k⟩, hop⟩ : ∃ x, p.procs[i]? = some x :=
    ⟨_, List.getElem?_eq_getElem (hpath.spawned _ hmark)⟩
  have hcancel : ∃ userId id, op = .cancel userId id := by
    cases (hpath.follows i op k hop).only op.handle_only _ (mem_own.mpr hmark) with
    | quiet h => cases h
    | payment _ _ h => exact marks_refunded (h _ hd)
  obtain ⟨userId, id, rfl⟩ := hcancel
  exact ⟨userId, id, k, hop⟩

/-- The percent that a cancellation was told is the one in force when it read the clock. -/
theorem percent_told {w u v : World σ} {tr tr' : Log} {i id : ℕ} {r : Reservation}
    {screening : ScreeningWithMovieHall} {policy : Option RefundPolicy}
    (hthere : Accounting api w.db tr' u) (haccounts : Accounting api w.db tr v)
    (hr : (i, ⟨.reservationFindById id, .ok (some r)⟩) ∈ tr')
    (hs : (i, ⟨.screeningFindById r.screeningId, .ok (some screening)⟩) ∈ tr)
    (hq : (i, ⟨.findRefundPolicy (hoursUntil screening.startTime u.now), .ok policy⟩) ∈ tr) :
    u.refundPercent r.id = percent policy := by
  obtain ⟨r', hr', hscreening⟩ := hthere.reserved i id r hr
  have hs := haccounts.screenings i r.screeningId screening hs
  have hq := haccounts.policies i _ policy hq
  simp only [World.refundPercent, Option.mem_def.mp hr', Option.bind_eq_bind, Option.bind_some,
    hscreening, hthere.offer.screeningFindById, hs, hthere.offer.findRefundPolicy, hq]

/-- A cancellation of a CONFIRMED reservation that completes has marked its payment, or found
it marked. -/
theorem completed_accounted {start : Db} {v : World σ} {tr : Log}
    {p : Pool Cmd Cmd.Reply Err (World σ) BookingRequest Response}
    (hpath : OnPath (bookingSystem api) tr p) (haccounts : Accounting api start tr v)
    {i userId id : ℕ} {response : Response} {r : Reservation}
    (hdone : p.procs[i]? = some (BookingRequest.cancel userId id, Prog.done (.ok response)))
    (hr : (i, ⟨.reservationFindById id, .ok (some r)⟩) ∈ tr) (hconfirmed : r.status = .confirmed) :
    ∃ payment, (i, ⟨.paymentFindByReservationId r.id, .ok (some payment)⟩) ∈ tr ∧
      (payment.status ≠ .refunded ∧ Marks tr i payment.id ∨
        payment.status = .refunded ∧ Accounted start tr payment.id) := by
  rw [← mem_own] at hr
  obtain ⟨payment, hread, hcase⟩ := cancel_completed (hpath.follows i _ _ hdone) hr hconfirmed
  rw [mem_own] at hread
  refine ⟨payment, hread, ?_⟩
  rcases hcase with hst | ⟨hst, d, rep, hmark, hd⟩
  · exact .inr ⟨hst, haccounts.reads i r.id payment hread hst⟩
  · exact .inl ⟨hst, d, rep, mem_own.mp hmark, hd⟩

/-- In any schedule in which cancellations read a payment only once its Stripe payment
id is stored, no refund that is owed is lost. -/
theorem no_silent_loss (api : StripeApi σ A) (w : World σ)
    (xs : List (Choice Err BookingRequest (Env A)))
    (p : Pool Cmd Cmd.Reply Err (World σ) BookingRequest Response)
    (hx : (bookingSystem api).schedule xs ⟨w, []⟩ = some p)
    (hknows : (bookingSystem api).AllMeet KnowsIntent xs ⟨w, []⟩) :
    NoSilentLoss api w xs p := by
  obtain ⟨hpath, haccounts⟩ := accounting_run hx
  constructor
  · intro i n hmarks
    obtain ⟨userId, id, k, hop⟩ := marking_cancel hpath hmarks
    obtain ⟨d, rep, hmark, hd⟩ := hmarks
    rw [← mem_own] at hmark
    rcases cancel_path (hpath.follows i _ k hop) with
      hno | ⟨r, payment, screening, t, policy, rest, hst, hown, hend⟩
    · exact absurd hd (hno _ hmark _ _ rfl)
    have hread : ∀ a, a ∈ own i ((bookingSystem api).trace xs ⟨w, []⟩) →
        (i, a) ∈ (bookingSystem api).trace xs ⟨w, []⟩ := fun a => mem_own.mp
    rw [hown] at hmark hread
    have hmarked : ⟨.paymentUpdate (some n) d, rep⟩ ∈ rest := by simpa [reads] using hmark
    obtain rfl := hend.marks hmarked
    -- the payment as it was read, and the moment at which the clock was read
    obtain ⟨v, -, hv, hpayment, -, -⟩ := during_answer api payment.id
      [⟨.reservationFindById id, .ok (some r)⟩] hx hown (by simp)
    obtain ⟨u, tr, hu, hnow, hthere, hbefore⟩ := during_answer api (c := .dateNow) payment.id
      (⟨.reservationFindById id, .ok (some r)⟩ :: (reads r payment screening t policy).take 2)
      hx hown (by simp [reads])
    have hfind : v.db.payments.rows.find? (fun p => p.reservationId = r.id) = some payment :=
      Except.ok.inj hpayment
    have hid : payment.reservationId = r.id := by simpa using List.find?_some hfind
    obtain rfl : u.now = t := Except.ok.inj hnow
    have hfirst : (i, ⟨.reservationFindById id, .ok (some r)⟩) ∈ tr :=
      mem_own.mp (by rw [hbefore]; exact List.mem_cons_self)
    have hpercent : u.refundPercent payment.reservationId = percent policy := by
      rw [hid]
      refine percent_told hthere haccounts hfirst
        (hread ⟨.screeningFindById r.screeningId, .ok (some screening)⟩ ?_)
        (hread ⟨.findRefundPolicy (hoursUntil screening.startTime u.now), .ok policy⟩ ?_)
      · simp [reads]
      · simp [reads]
    refine ⟨u, v, payment, hu, hv, get_of_mem (List.mem_of_find?_eq_some hfind), fun hpos => ?_⟩
    rw [hpercent] at hpos ⊢
    obtain ⟨op', q', t', hop', hmet, hexec⟩ := answered hx hknows i
      (.paymentFindByReservationId r.id) (some payment) (hread _ (by simp [reads]))
    cases hop.symm.trans hop'
    obtain ⟨intent, hintent⟩ :=
      Option.isSome_iff_exists.mp (hmet payment (Except.ok.inj hexec) hst)
    obtain ⟨refund, hrefund⟩ := hend.issued intent hintent hpos ⟨_, hmarked, .mark d⟩
    obtain ⟨hbook, hto, hamount, hkey⟩ := haccounts.booked i intent _ _ refund
      (hread _ (List.mem_cons_of_mem _ (List.mem_append_right _ hrefund)))
    exact ⟨refund, hbook, hkey, by rw [hto, hintent], hamount⟩
  · exact fun i userId id response r hdone hr hconfirmed =>
      completed_accounted hpath haccounts hdone hr hconfirmed

/-! ### Two runs -/

/-- User 1 holds seat 1, opens the checkout session and pays; the webhook comes and
issues `n` commands, and then user 1 cancels with `m` commands. -/
def paidThenCancel (n m : ℕ) : List (Choice Err BookingRequest (Env Account.Action)) :=
  .spawn (.reserve 1 ⟨1, 1⟩) :: solo 0 8 ++
    .spawn (.createCheckoutSession 1 1) :: solo 1 8 ++ .env (.stripe (.pay 1)) ::
    .spawn (.webhook (.ok sessionPaid)) :: solo 2 n ++ .spawn (.cancel 1 1) :: solo 3 m

theorem refunded_in_order :
    ∃ p, (bookingSystem testMode).schedule (paidThenCancel 5 10) ⟨theatre, []⟩ = some p ∧
      NoSilentLoss testMode theatre (paidThenCancel 5 10) p := by
  have hs : ((bookingSystem testMode).schedule (paidThenCancel 5 10) ⟨theatre, []⟩).isSome := by
    decide +kernel
  obtain ⟨p, hp⟩ := Option.isSome_iff_exists.mp hs
  exact ⟨p, hp, no_silent_loss testMode theatre (paidThenCancel 5 10) p hp (by decide +kernel)⟩

/-- What matches at each moment from the cancellation on: all of the price of payment 1. -/
def FullRefund (ys : List (Choice Err BookingRequest (Env Account.Action))) : Prop :=
  ∀ m ∈ (bookingSystem testMode).schedule ys ⟨theatre, []⟩, 3 < m.procs.length →
    m.state.refundPercent 1 = 100 ∧ ∀ p ∈ m.state.db.payments.get 1, p.reservationId = 1

instance : DecidablePred FullRefund := fun _ => inferInstanceAs (Decidable (∀ _ ∈ _, _))

def markedBy3 : ℕ × Answer Cmd Cmd.Reply Err → Bool
  | (3, ⟨.paymentUpdate (some 1) d, _⟩) => d.status = some .refunded
  | _ => false

/-- The webhook has confirmed the seat and not yet stored the payment id. -/
theorem refund_lost : ¬ ∀ xs p,
    (bookingSystem testMode).schedule xs ⟨theatre, []⟩ = some p →
      NoSilentLoss testMode theatre xs p := by
  intro h
  have hrun : ((bookingSystem testMode).schedule (paidThenCancel 4 9) ⟨theatre, []⟩).any
      (fun p => p.state.stripe.books = []) = true := by decide +kernel
  obtain ⟨p, hp, hbooks⟩ := (Option.any_eq_true _ _).mp hrun
  have hmark : ((bookingSystem testMode).trace (paidThenCancel 4 9) ⟨theatre, []⟩).any markedBy3 =
    true := by decide +kernel
  have howed : ∀ ys ∈ (paidThenCancel 4 9).inits, FullRefund ys := by decide +kernel
  obtain ⟨a, ha, h₁⟩ := List.any_eq_true.mp hmark
  unfold markedBy3 at h₁
  split at h₁
  case h_2 => cases h₁
  case h_1 d rep =>
    simp only [decide_eq_true_eq] at h₁ hbooks
    obtain ⟨u, v, payment, hu, hv, hget, hdue⟩ := (h _ p hp).issued 3 1 ⟨d, rep, ha, h₁⟩
    obtain ⟨ys, m, hys, hm, hi, -, rfl⟩ := hu
    obtain ⟨zs, n, hzs, hn, hj, -, rfl⟩ := hv
    have hid := (howed zs ((List.mem_inits _ _).mpr hzs) n hn hj).2 payment hget
    have hpercent := (howed ys ((List.mem_inits _ _).mpr hys) m hm hi).1
    obtain ⟨refund, hrefund, -⟩ := hdue (by rw [hid, hpercent]; norm_num)
    change refund ∈ p.state.stripe.books at hrefund
    rw [hbooks] at hrefund
    cases hrefund

end MovieReservation
