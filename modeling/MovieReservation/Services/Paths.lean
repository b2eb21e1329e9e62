import MovieReservation.Lib.Trace
import MovieReservation.Services.Footprint

/-! Paths through the booking handlers: what a handler has been answered, and what it
does next. -/

namespace MovieReservation

open Lib Lib.Prog

/-- The answers of all processes, in order. -/
abbrev Log := List (ℕ × Answer Cmd Cmd.Reply Err)

/-- The answers of one process, in order. -/
abbrev Trail := List (Answer Cmd Cmd.Reply Err)

/-! ### What a command rests on -/

/-- What was answered before a command is issued: the clock before a sweep and a hold,
the own reservation before it is cancelled, the stuck payments before one is settled or
declined, the new payment before it is deleted. -/
def Grounded (op : BookingRequest) (l : Trail) : Cmd → Prop
  | .releaseExpiredHolds t => ⟨.dateNow, .ok t⟩ ∈ l
  | .holdSeat p => ∃ t, ⟨.dateNow, .ok t⟩ ∈ l ∧
    p.heldUntil = t + ReservationsService.holdMinutes * 60000
  | .reservationUpdate n d => d.status = some .cancelled → ∃ u id r, op = .cancel u id ∧
    ⟨.reservationFindById id, .ok (some r)⟩ ∈ l ∧ r.userId = u ∧ r.id = n
  | .declineWithReservation p n => ∃ cutoff ps, ⟨.findStuckTimedOut cutoff, .ok ps⟩ ∈ l ∧
    ∃ q ∈ ps, q.id = p ∧ q.reservationId = n
  | .confirmWithReservation p n _ => ∃ cutoff ps, ⟨.findStuckTimedOut cutoff, .ok ps⟩ ∈ l ∧
    ∃ q ∈ ps, q.id = p ∧ q.reservationId = n
  | .paymentDelete n => ∃ d p, ⟨.paymentCreate d, .ok p⟩ ∈ l ∧ p.id = n
  | _ => True

theorem grounded_quiet {op : BookingRequest} {l : Trail} {c : Cmd} (hc : c.quiet) :
    Grounded op l c := by
  cases c
  case holdSeat => cases hc
  case reservationUpdate => cases hc
  case releaseExpiredHolds => cases hc
  case declineWithReservation => cases hc
  case confirmWithReservation => cases hc
  case paymentDelete => cases hc
  all_goals trivial

theorem Quiet.grounded {α : Type} {op : BookingRequest} {l : Trail} {p : M α} (h : Quiet p) :
    Only (fun c => ∀ l', Grounded op (l ++ l') c) p :=
  h.mono fun _ hc _ => grounded_quiet hc

theorem informed_throwIf_bind {α : Type} {P : Trail → Cmd → Prop} {l : Trail} {x : Prop}
    [Decidable x] {e : Err} {f : Unit → M α} (h : ¬ x → Informed P l (f ())) :
    Informed P l (throwIf x e >>= f) := by
  unfold throwIf
  split_ifs with hx
  · trivial
  · exact h hx

theorem yields_throwIf_bind {α : Type} {Q : Trail → Except Err α → Prop} {l : Trail} {x : Prop}
    [Decidable x] {e : Err} {f : Unit → M α} (he : x → Q l (.error e))
    (h : ¬ x → Yields Q l (f ())) : Yields Q l (throwIf x e >>= f) := by
  unfold throwIf
  split_ifs with hx
  · exact he hx
  · exact h hx

theorem uncaught_throwIf_bind {α : Type} {P : Cmd → Prop} {x : Prop} [Decidable x] {e : Err}
    {f : Unit → M α} (h : Uncaught P (f ())) : Uncaught P (throwIf x e >>= f) := by
  unfold throwIf
  split_ifs
  · trivial
  · exact h

/-- What a call knows of its commands, if what it knows of its hold is known: the lockout, the
screening, the time twice and the permit were answered before. -/
theorem reserve_informed {P : Trail → Cmd → Prop} {u : ℕ} {dto : CreateReservationDto}
    (hquiet : ∀ l c, c.quiet → P l c)
    (hhold : ∀ lockedOut (screening : ScreeningWithMovieHall) t t', screening.status = .scheduled →
      t < screening.startTime →
      P [⟨.existsLockout u, .ok lockedOut⟩,
          ⟨.screeningFindById dto.screeningId, .ok (some screening)⟩,
          ⟨.dateNow, .ok t⟩, ⟨.dateNow, .ok t'⟩, ⟨.acquire, .ok ()⟩]
        (.holdSeat ⟨u, dto.screeningId, screening.hallId, dto.seatId,
          t' + ReservationsService.holdMinutes * 60000⟩)) :
    Informed P [] (ReservationsService.reserve u dto) := by
  have hrest : ∀ {α : Type} {p : M α} (l : Trail), Quiet p → Informed P l p := fun l hp =>
    .of_only (hp.mono fun c hc l' => hquiet _ c hc)
  unfold ReservationsService.reserve
  refine informed_issue_bind (hquiet _ _ rfl) fun lockedOut => informed_throwIf_bind fun _ => ?_
  refine informed_issue_bind (hquiet _ _ rfl) fun screening => ?_
  cases screening with
  | none => trivial
  | some screening =>
    refine informed_throwIf_bind fun hopen => informed_issue_bind (hquiet _ _ rfl) fun t => ?_
    refine informed_throwIf_bind fun hstart => informed_issue_bind (hquiet _ _ rfl) fun t' => ?_
    refine informed_issue_bind (hquiet _ _ rfl) fun _ => ?_
    refine ⟨?_, fun r => ?_⟩
    · exact hhold lockedOut screening t t' (not_not.mp hopen) (Int.not_le.mp hstart)
    · -- the rest gives the permit back, and announces the hold
      change Informed P _ ((MonadExcept.tryCatch (done r) _).ensuring _ >>= _)
      refine hrest _ (Only.bind (Only.ensuring ?_ (quiet_request rfl)) fun _ => ?_)
      · cases r with
        | ok row => trivial
        | error e =>
          rw [tryCatch_error]
          split_ifs <;> trivial
      · exact Only.bind (quiet_request rfl) fun _ => trivial

theorem reserve_grounded (u : ℕ) (dto : CreateReservationDto) (op : BookingRequest) :
    Informed (Grounded op) [] (ReservationsService.reserve u dto) :=
  reserve_informed (fun _ _ hc => grounded_quiet hc) fun lockedOut screening t t' _ _ =>
    ⟨t', by simp, rfl⟩

theorem expireHolds_grounded (op : BookingRequest) :
    Informed (Grounded op) [] ReservationsService.expireHolds := by
  unfold ReservationsService.expireHolds
  refine informed_issue_bind trivial fun t => informed_issue_bind ?_ fun released => .of_only ?_
  · simp [Grounded]
  · refine Only.bind (Only.forM (fun g => ?_) _) fun _ => Only.forM (fun r => ?_) _
    · exact (quiet_request rfl).grounded
    · exact (quiet_request rfl).grounded

theorem cancel_grounded (u id : ℕ) :
    Informed (Grounded (.cancel u id)) [] (ReservationsService.cancel u id) := by
  unfold ReservationsService.cancel ReservationsService.findOwned ReservationsService.getById
  rw [bind_assoc, bind_assoc]
  refine informed_issue_bind trivial fun found => ?_
  cases found with
  | none => trivial
  | some r =>
    change Informed _ _ (throwIf (r.userId ≠ u) (ReservationsService.reservationNotFound id) >>=
      (fun _ => pure r) >>= _)
    rw [bind_assoc]
    refine informed_throwIf_bind fun howner => ?_
    rw [not_not] at howner
    refine .of_only ((ReservationsService.cancel_cancels r).mono fun c hc l' => ?_)
    cases hc with
    | mark n d hd => trivial
    | cancel => exact fun _ => ⟨u, id, r, rfl, by simp, howner, rfl⟩
    | _ => exact grounded_quiet rfl

theorem reconcile_grounded (op : BookingRequest) :
    Informed (Grounded op) [] PaymentsService.reconcileTimedOutPayments := by
  unfold PaymentsService.reconcileTimedOutPayments
  refine informed_issue_bind trivial fun t => informed_issue_bind trivial fun stuck => ?_
  refine .of_only (Only.forM_mem fun p hp => ?_)
  unfold PaymentsService.reconcile
  refine Only.bind (quiet_request rfl).grounded fun session => ?_
  split_ifs
  · refine Only.bind ((only_issue _).mpr fun l' => ⟨_, stuck, ?_, p, hp, rfl, rfl⟩) fun x => ?_
    · simp
    · exact (quiet_request rfl).grounded
  · refine Only.bind ((only_issue _).mpr fun l' => ⟨_, stuck, ?_, p, hp, rfl, rfl⟩) fun x => ?_
    · simp
    · refine Only.bind (quiet_request rfl).grounded fun _ => ?_
      exact (PaymentAbuseService.recordFailure_quiet _).grounded

theorem checkout_grounded (u id : ℕ) (op : BookingRequest) :
    Informed (Grounded op) [] (PaymentsService.createCheckoutSession u id) := by
  unfold PaymentsService.createCheckoutSession
  refine Informed.bind (.of_only (ReservationsService.findOwned_quiet u id).grounded) fun r l => ?_
  refine informed_throwIf_bind fun _ => informed_issue_bind trivial fun existing => ?_
  refine informed_throwIf_bind fun _ => informed_issue_bind trivial fun screening => ?_
  cases screening with
  | none => trivial
  | some screening =>
    refine ⟨trivial, fun created => ?_⟩
    cases created with
    | error e =>
      change Informed _ _ ((ite _ _ _ : M Payment) >>= _)
      split_ifs <;> trivial
    | ok payment =>
      -- from here on the log ends in the new payment
      refine .of_only (Only.tryCatch ?_ fun e => ?_)
      · refine Only.bind (quiet_request rfl).grounded fun t => ?_
        refine Only.bind ((only_issue _).mpr fun _ => trivial) fun session => ?_
        refine Only.bind ((only_issue _).mpr fun _ => trivial) fun _ => ?_
        exact Only.bind ((only_issue _).mpr fun _ => nofun) fun _ => trivial
      · refine Only.bind ((only_issue _).mpr fun l' => ⟨_, payment, ?_, rfl⟩) fun _ => trivial
        simp

theorem BookingRequest.handle_grounded (op : BookingRequest) :
    Informed (Grounded op) [] op.handle := by
  have hother : ∀ c, BookingCmd op c → (∀ u dto, op ≠ .reserve u dto) →
      (∀ u id, op ≠ .cancel u id) → (∀ u id, op ≠ .createCheckoutSession u id) →
      op ≠ .expireHolds → op ≠ .reconcilePayments → ∀ l', Grounded op ([] ++ l') c := by
    intro c hc hreserve hcancel hcheckout hexpire hreconcile l'
    cases hc with
    | quiet hc => exact grounded_quiet hc
    | session _ _ => trivial
    | holdSeat p h => obtain ⟨dto, h⟩ := h; exact absurd h (hreserve _ _)
    | sweep t h => exact absurd h hexpire
    | extend _ _ _ => exact nofun
    | confirm _ _ => exact nofun
    | cancel _ h => obtain ⟨u, n, h⟩ := h; exact absurd h (hcancel u n)
    | pay _ _ => trivial
    | payment _ _ _ => trivial
    | drop _ h => obtain ⟨u, id, h⟩ := h; exact absurd h (hcheckout _ _)
    | decline _ _ h => exact absurd h hreconcile
    | settle _ _ _ h => exact absurd h hreconcile
  cases op with
  | reserve u dto => exact (reserve_grounded u dto _).bind fun _ _ => trivial
  | cancel u id => exact (cancel_grounded u id).bind fun _ _ => trivial
  | createCheckoutSession u id => exact (checkout_grounded u id _).bind fun _ _ => trivial
  | expireHolds =>
    refine Informed.bind (Informed.tryCatch (expireHolds_grounded _) fun _ _ => ?_) fun _ _ => ?_
    · trivial
    · trivial
  | reconcilePayments =>
    refine Informed.bind (Informed.tryCatch (reconcile_grounded _) fun _ _ => ?_) fun _ _ => ?_
    · trivial
    · trivial
  | webhook event | getStatus u id | getSeatMap id =>
    exact .of_only ((handle_only _).mono fun c hc =>
      hother c hc nofun nofun nofun nofun nofun)

/-! ### Reading the own reservation -/

theorem findOwned_path {u id : ℕ} {l : Trail} {r : Reservation}
    (h : Follows (ReservationsService.findOwned u id) l (.done (.ok r))) :
    l = [⟨.reservationFindById id, .ok (some r)⟩] := by
  unfold ReservationsService.findOwned ReservationsService.getById at h
  obtain ⟨a, l₁, l₂, rfl, h₁, h₂⟩ := h.bind_ok
  obtain ⟨found, l₃, l₄, rfl, h₃, h₄⟩ := h₁.bind_ok
  rw [h₃.issue_ok]
  cases found with
  | none => cases h₄
  | some b =>
    have hb := Follows.of_done h₄
    obtain ⟨_, l₅, l₆, rfl, h₅, h₆⟩ := h₂.bind_ok
    have ha := Follows.of_done h₆
    unfold throwIf at h₅
    split_ifs at h₅
    · cases h₅
    · have hnil := Follows.of_done h₅
      rw [hb.1, hnil.1, ha.1]
      cases hb.2
      cases ha.2
      rfl

theorem findOwned_reads (u id : ℕ) :
    Only (fun c => c = .reservationFindById id) (ReservationsService.findOwned u id) := by
  unfold ReservationsService.findOwned ReservationsService.getById
  refine Only.bind (Only.bind ((only_issue _).mpr rfl) fun found => ?_) fun r => ?_
  · cases found <;> trivial
  · rw [only_throwIf_bind]
    exact fun _ => trivial

/-! ### What a process did -/

/-- The user, the reservation and the URL of a checkout that returned one. -/
def checkedOut : BookingRequest × M Response → Option (ℕ × ℕ × String)
  | (.createCheckoutSession u id, .done (.ok (.url url))) => some (u, id, url)
  | _ => none

theorem checkedOut_eq {x : BookingRequest × M Response} {u id : ℕ} {url : String}
    (h : checkedOut x = some (u, id, url)) :
    x = (.createCheckoutSession u id, .done (.ok (.url url))) := by
  unfold checkedOut at h
  split at h
  · cases h
    rfl
  · cases h

/-- The reservation and the deadline of an extension that was carried out. -/
def extension : Answer Cmd Cmd.Reply Err → Option (ℕ × Time)
  | ⟨.reservationUpdate id ⟨none, some (some t)⟩, .ok _⟩ => some (id, t)
  | _ => none

theorem extension_eq {a : Answer Cmd Cmd.Reply Err} {id : ℕ} {t : Time}
    (h : extension a = some (id, t)) :
    ∃ x, a = ⟨.reservationUpdate id { heldUntil := some (some t) }, .ok x⟩ := by
  unfold extension at h
  split at h
  · cases h
    exact ⟨_, rfl⟩
  · cases h

theorem map_eq_call {α β : Type} {f : α → β} {p : M α} {c : Cmd} {k : Except Err c.Reply → M β}
    (h : f <$> p = .call c k) : ∃ k', p = .call c k' := by
  cases p with
  | done r => cases r <;> cases h
  | call c' k' =>
    cases h
    exact ⟨k', rfl⟩

/-! ### Opening a checkout session -/

namespace PaymentsService

def checkoutPayment (id : ℕ) (screening : ScreeningWithMovieHall) : Db.PaymentCreate :=
  { reservationId := id, amount := screening.price * 100, currency, status := .pending,
    stripeSessionId := none }

/-- The `expires_at` of a session that is created at the given time. -/
def expiry (t : Time) : ℤ := t / 1000 + checkoutExpiryMinutes * 60

def checkoutParams (id : ℕ) (screening : ScreeningWithMovieHall) (paymentId : ℕ) (t : Time) :
    CheckoutParams :=
  { reservationId := id, amount := screening.price * 100, currency, expiresAt := expiry t,
    paymentId }

/-- What was read before the payment was created, and the payment. -/
def opened (id : ℕ) (r : Reservation) (screening : ScreeningWithMovieHall) (payment : Payment) :
    Trail :=
  [⟨.reservationFindById id, .ok (some r)⟩, ⟨.paymentFindByReservationId id, .ok none⟩,
    ⟨.screeningFindById r.screeningId, .ok (some screening)⟩,
    ⟨.paymentCreate (checkoutPayment id screening), .ok payment⟩]

/-- The commands before the creation of the payment. -/
inductive OpeningCmd : Cmd → Prop
  | reservation (id : ℕ) : OpeningCmd (.reservationFindById id)
  | payment (id : ℕ) : OpeningCmd (.paymentFindByReservationId id)
  | screening (id : ℕ) : OpeningCmd (.screeningFindById id)

/-- Only reads, and a creation that failed. -/
def Unopened (l : Trail) : Prop :=
  ∀ a ∈ l, OpeningCmd a.1 ∨ ∃ d e, a = ⟨.paymentCreate d, .error e⟩

/-- The steps of a sale after its payment was created. -/
inductive Sale (id : ℕ) (screening : ScreeningWithMovieHall) (payment : Payment) :
    Trail → Cmd → Prop
  | clock : Sale id screening payment [] .dateNow
  | session (t : Time) : Sale id screening payment [⟨.dateNow, .ok t⟩]
    (.sessionsCreate (checkoutParams id screening payment.id t))
  | store (t : Time) (s : Session) : Sale id screening payment
    [⟨.dateNow, .ok t⟩, ⟨.sessionsCreate (checkoutParams id screening payment.id t), .ok s⟩]
    (.paymentUpdate (some payment.id) { stripeSessionId := some (some s.id) })
  | extend (t : Time) (s : Session) (p : Payment) : Sale id screening payment
    [⟨.dateNow, .ok t⟩, ⟨.sessionsCreate (checkoutParams id screening payment.id t), .ok s⟩,
      ⟨.paymentUpdate (some payment.id) { stripeSessionId := some (some s.id) }, .ok p⟩]
    (.reservationUpdate id { heldUntil := some (some (expiry t * 1000)) })

/-- Where a checkout stands: before its payment, in its sale, sold, or giving up. -/
inductive Selling (u id : ℕ) : Trail → M String → Prop
  | unopened {l : Trail} {q : M String} : Unopened l → (∀ url, q ≠ .done (.ok url)) →
    (∀ c k, q = .call c k → OpeningCmd c ∨ ∃ d, c = .paymentCreate d) → Selling u id l q
  | selling {r : Reservation} {screening : ScreeningWithMovieHall} {payment : Payment}
    {rest : Trail} {c : Cmd} (k : Except Err c.Reply → M String) : r.status = .held →
    r.userId = u → Sale id screening payment rest c →
    Selling u id (opened id r screening payment ++ rest) (.call c k)
  | sold {r : Reservation} {screening : ScreeningWithMovieHall} {payment : Payment}
    (t : Time) (s : Session) (p : Payment) (x : Reservation) : r.status = .held → r.userId = u →
    Selling u id (opened id r screening payment ++
      [⟨.dateNow, .ok t⟩, ⟨.sessionsCreate (checkoutParams id screening payment.id t), .ok s⟩,
        ⟨.paymentUpdate (some payment.id) { stripeSessionId := some (some s.id) }, .ok p⟩,
        ⟨.reservationUpdate id { heldUntil := some (some (expiry t * 1000)) }, .ok x⟩])
      (.done (.ok s.url))
  | giveUp {r : Reservation} {screening : ScreeningWithMovieHall} {payment : Payment}
    {rest : Trail} {c : Cmd} (e : Err) (k : Except Err Payment → M String) : r.status = .held →
    r.userId = u → Sale id screening payment rest c →
    Selling u id (opened id r screening payment ++ (rest ++ [⟨c, .error e⟩]))
      (.call (.paymentDelete payment.id) k)
  | givenUp {r : Reservation} {screening : ScreeningWithMovieHall} {payment : Payment}
    {rest : Trail} {c : Cmd} (e : Err) (rep : Except Err Payment) (e' : Err) : r.status = .held →
    r.userId = u → Sale id screening payment rest c →
    Selling u id (opened id r screening payment ++
      (rest ++ [⟨c, .error e⟩, ⟨.paymentDelete payment.id, rep⟩])) (.done (.error e'))

/-- The sale itself, in its `try` block. -/
theorem sale_path {u id : ℕ} {r : Reservation} {screening : ScreeningWithMovieHall}
    {payment : Payment} {l : Trail} {q : M String} (hheld : r.status = .held)
    (howner : r.userId = u)
    (h : Follows (do
      let t ← now
      let session ← Stripe.sessionsCreate (checkoutParams id screening payment.id t)
      let _ ← PaymentsRepository.update (some payment.id)
        { stripeSessionId := some (some session.id) }
      let _ ← ReservationsService.extendHold id (expiry t * 1000)
      pure session.url) l q) :
    (∃ c k, q = .call c k ∧ Sale id screening payment l c) ∨
      (∃ c rest e, q = .done (.error e) ∧ l = rest ++ [⟨c, .error e⟩] ∧
        Sale id screening payment rest c) ∨
      Selling u id (opened id r screening payment ++ l) q ∧ ∃ url, q = .done (.ok url) := by
  have hpath := Follows.issue_bind (c := Cmd.dateNow) h
  rcases hpath with rfl | ⟨e, rfl, rfl⟩ | ⟨t, l₁, rfl, h₁⟩
  · cases h
    exact .inl ⟨_, _, rfl, .clock⟩
  · exact .inr (.inl ⟨_, [], e, rfl, rfl, .clock⟩)
  have hpath := Follows.issue_bind (c := Cmd.sessionsCreate _) h₁
  rcases hpath with rfl | ⟨e, rfl, rfl⟩ | ⟨s, l₂, rfl, h₂⟩
  · cases h₁
    exact .inl ⟨_, _, rfl, .session t⟩
  · exact .inr (.inl ⟨_, [_], e, rfl, rfl, .session t⟩)
  have hpath := Follows.issue_bind (c := Cmd.paymentUpdate _ _) h₂
  rcases hpath with rfl | ⟨e, rfl, rfl⟩ | ⟨p, l₃, rfl, h₃⟩
  · cases h₂
    exact .inl ⟨_, _, rfl, .store t s⟩
  · exact .inr (.inl ⟨_, [_, _], e, rfl, rfl, .store t s⟩)
  have hpath := Follows.issue_bind (c := Cmd.reservationUpdate _ _) h₃
  rcases hpath with rfl | ⟨e, rfl, rfl⟩ | ⟨x, l₄, rfl, h₄⟩
  · cases h₃
    exact .inl ⟨_, _, rfl, .extend t s p⟩
  · exact .inr (.inl ⟨_, [_, _, _], e, rfl, rfl, .extend t s p⟩)
  obtain ⟨rfl, rfl⟩ := Follows.of_done h₄
  exact .inr (.inr ⟨.sold t s p x hheld howner, _, rfl⟩)

theorem unopened_error {u id : ℕ} {l : Trail} (hl : Unopened l) (e : Err) :
    Selling u id l (.done (.error e)) := by
  refine .unopened hl (fun url he => ?_) fun c k he => ?_
  · cases he
  · cases he

theorem unopened_call {u id : ℕ} {l : Trail} (hl : Unopened l) {c : Cmd}
    (hc : OpeningCmd c ∨ ∃ d, c = .paymentCreate d) (k : Except Err c.Reply → M String) :
    Selling u id l (.call c k) := by
  refine .unopened hl (fun url he => ?_) fun c' k' he => ?_
  · cases he
  · cases he
    exact hc

theorem unopened_nil : Unopened [] := by
  intro a ha
  cases ha

theorem Unopened.snoc {l : Trail} (hl : Unopened l) {c : Cmd} (hc : OpeningCmd c)
    (rep : Except Err c.Reply) : Unopened (l ++ [⟨c, rep⟩]) := by
  intro a ha
  rcases List.mem_append.mp ha with ha | ha
  · exact hl a ha
  · rw [List.mem_singleton.mp ha]
    exact .inl hc

/-- After the payment was created: the sale, and its undoing when it fails. -/
theorem opened_path {u id : ℕ} {r : Reservation} {screening : ScreeningWithMovieHall}
    {payment : Payment} {l : Trail} {q : M String} (hheld : r.status = .held)
    (howner : r.userId = u)
    (h : Follows (tryCatch (do
      let t ← now
      let session ← Stripe.sessionsCreate (checkoutParams id screening payment.id t)
      let _ ← PaymentsRepository.update (some payment.id)
        { stripeSessionId := some (some session.id) }
      let _ ← ReservationsService.extendHold id (expiry t * 1000)
      pure session.url) (fun err => do
        let _ ← PaymentsRepository.delete payment.id
        throw err) : M String) l q) :
    Selling u id (opened id r screening payment ++ l) q := by
  rcases h.tryCatch_cases with ⟨p', hp, rfl, hne⟩ | ⟨e, l₁, l₂, rfl, h₁, h₂⟩
  · rcases sale_path hheld howner hp with
      ⟨c, k, rfl, hsale⟩ | ⟨c, rest, e, rfl, -, -⟩ | ⟨hsold, url, rfl⟩
    · exact .selling _ hheld howner hsale
    · exact absurd rfl (hne e)
    · exact hsold
  · rcases sale_path hheld howner h₁ with
      ⟨c, k, he, -⟩ | ⟨c, rest, e', he, rfl, hsale⟩ | ⟨-, url, he⟩
    · cases he
    · have hpath := Follows.issue_bind (c := Cmd.paymentDelete payment.id) h₂
      rcases hpath with rfl | ⟨e'', rfl, rfl⟩ | ⟨p, l₃, rfl, h₃⟩
      · cases h₂
        rw [List.append_nil]
        exact .giveUp e' _ hheld howner hsale
      · rw [List.append_assoc]
        exact .givenUp e' _ e'' hheld howner hsale
      · obtain ⟨rfl, rfl⟩ := Follows.of_done h₃
        rw [List.append_assoc]
        exact .givenUp e' _ e hheld howner hsale
    · cases he

/-- One command before the payment: the checkout stops at it, fails, or goes on. -/
theorem reading_path {u id : ℕ} {l l' : Trail} {c : Cmd} {f : c.Reply → M String} {q : M String}
    (hl : Unopened l) (hc : OpeningCmd c) (h : Follows (request c >>= f) l' q) :
    Selling u id (l ++ l') q ∨ ∃ a l'', l' = ⟨c, .ok a⟩ :: l'' ∧ Follows (f a) l'' q := by
  rcases Follows.issue_bind h with rfl | ⟨e, rfl, rfl⟩ | ⟨a, l'', rfl, h'⟩
  · cases h
    rw [List.append_nil]
    exact .inl (unopened_call hl (.inl hc) _)
  · exact .inl (unopened_error (hl.snoc hc _) e)
  · exact .inr ⟨a, l'', rfl, h'⟩

/-- The creation of the payment: a failed one ends the checkout. -/
theorem create_path {u id : ℕ} {l l' : Trail} {d : Db.PaymentCreate} {f : Payment → M String}
    {q : M String} (hl : Unopened l)
    (h : Follows (tryCatch (request (.paymentCreate d)) (fun err =>
      if err = .prisma .p2002 then throw alreadyHasPayment else throw err : Err → M Payment)
        >>= f) l' q) :
    Selling u id (l ++ l') q ∨
      ∃ payment l'', l' = ⟨.paymentCreate d, .ok payment⟩ :: l'' ∧ Follows (f payment) l'' q := by
  cases h with
  | refl =>
    rw [List.append_nil]
    exact .inl (unopened_call hl (.inr ⟨d, rfl⟩) _)
  | step rep h =>
    cases rep with
    | ok payment => exact .inr ⟨payment, _, rfl, h⟩
    | error e =>
      have hl' : Unopened (l ++ [⟨.paymentCreate d, .error e⟩]) := by
        intro a ha
        rcases List.mem_append.mp ha with ha | ha
        · exact hl a ha
        · rw [List.mem_singleton.mp ha]
          exact .inr ⟨d, e, rfl⟩
      refine .inl ?_
      change Follows ((if e = .prisma .p2002 then throw alreadyHasPayment else throw e : M Payment)
        >>= f) _ q at h
      split_ifs at h
      · obtain ⟨rfl, rfl⟩ := Follows.of_done h
        exact unopened_error hl' _
      · obtain ⟨rfl, rfl⟩ := Follows.of_done h
        exact unopened_error hl' _

theorem checkout_path {u id : ℕ} {l : Trail} {q : M String}
    (h : Follows (createCheckoutSession u id) l q) : Selling u id l q := by
  unfold createCheckoutSession ReservationsService.findOwned ReservationsService.getById at h
  rw [bind_assoc, bind_assoc] at h
  rcases reading_path unopened_nil (.reservation id) h with h | ⟨found, l₁, rfl, h₁⟩
  · exact h
  have hl₁ := unopened_nil.snoc (.reservation id) (.ok found)
  cases found with
  | none =>
    obtain ⟨rfl, rfl⟩ := Follows.of_done h₁
    exact unopened_error hl₁ _
  | some r =>
    change Follows (throwIf (r.userId ≠ u) (ReservationsService.reservationNotFound id) >>=
      (fun _ => pure r) >>= _) l₁ q at h₁
    rw [throwIf] at h₁
    split_ifs at h₁ with howner
    · obtain ⟨rfl, rfl⟩ := Follows.of_done h₁
      exact unopened_error hl₁ _
    rw [not_not] at howner
    change Follows (throwIf (r.status ≠ .held) (.conflict "Reservation is not held") >>= _) l₁ q
      at h₁
    rw [throwIf] at h₁
    split_ifs at h₁ with hheld
    · obtain ⟨rfl, rfl⟩ := Follows.of_done h₁
      exact unopened_error hl₁ _
    rw [not_not] at hheld
    change Follows (request (.paymentFindByReservationId id) >>= _) l₁ q at h₁
    rcases reading_path hl₁ (.payment id) h₁ with h | ⟨existing, l₂, rfl, h₂⟩
    · exact h
    have hl₂ := hl₁.snoc (.payment id) (.ok existing)
    rw [throwIf] at h₂
    split_ifs at h₂ with hsome
    · obtain ⟨rfl, rfl⟩ := Follows.of_done h₂
      exact unopened_error hl₂ _
    obtain rfl : existing = none := by simpa using hsome
    change Follows (request (.screeningFindById r.screeningId) >>= _) l₂ q at h₂
    rcases reading_path hl₂ (.screening r.screeningId) h₂ with h | ⟨screening, l₃, rfl, h₃⟩
    · exact h
    have hl₃ := hl₂.snoc (.screening r.screeningId) (.ok screening)
    cases screening with
    | none =>
      obtain ⟨rfl, rfl⟩ := Follows.of_done h₃
      exact unopened_error hl₃ _
    | some screening =>
      change Follows (tryCatch (request (.paymentCreate (checkoutPayment id screening)))
        (fun err =>
          if err = .prisma .p2002 then throw alreadyHasPayment else throw err : Err → M Payment)
          >>= _) l₃ q at h₃
      rcases create_path hl₃ h₃ with h | ⟨payment, l₄, rfl, h₄⟩
      · exact h
      · exact opened_path hheld howner h₄

theorem checkout_handle_path {u id : ℕ} {l : Trail} {q : M Response}
    (h : Follows (BookingRequest.createCheckoutSession u id).handle l q) :
    ∃ q', Selling u id l q' ∧ q = Response.url <$> q' := by
  obtain ⟨q', hq, rfl⟩ := Follows.of_map h
  exact ⟨q', checkout_path hq, rfl⟩

/-- A checkout that returned its URL read the reservation as HELD, opened the session
and extended the hold to the session's end. -/
theorem sold_trail {u id : ℕ} {url : String} {l : Trail}
    (h : Follows (BookingRequest.createCheckoutSession u id).handle l (.done (.ok (.url url)))) :
    ∃ r l₁ l₂ params s x, r.status = .held ∧ s.url = url ∧
      l = ⟨.reservationFindById id, .ok (some r)⟩ :: (l₁ ++
        ⟨.sessionsCreate params, .ok s⟩ :: (l₂ ++
        [⟨.reservationUpdate id
          { heldUntil := some (some (params.expiresAt * 1000)) }, .ok x⟩])) := by
  obtain ⟨q, hq, hdone⟩ := Follows.of_map h
  have hq' : q = .done (.ok url) := by
    cases q with
    | call c k => cases hdone
    | done r =>
      cases r with
      | error e => cases hdone
      | ok url' => cases hdone; rfl
  subst hq'
  cases checkout_path hq with
  | unopened _ hne _ => exact absurd rfl (hne url)
  | @sold r screening payment t s p x hheld _ =>
    exact ⟨r, [_, _, _, _], [_], checkoutParams id screening payment.id t, s, x,
      hheld, rfl, rfl⟩

/-- The extension comes after the sale, and no deletion with it. -/
theorem extend_path {op : BookingRequest} {l : Trail} {id : ℕ} {t : Time}
    {k : Except Err Reservation → M Response}
    (h : Follows op.handle l
      (.call (.reservationUpdate id { heldUntil := some (some t) }) k)) :
    ∃ r screening payment now s p, r.status = .held ∧ t = expiry now * 1000 ∧
      l = opened id r screening payment ++ [⟨.dateNow, .ok now⟩,
        ⟨.sessionsCreate (checkoutParams id screening payment.id now), .ok s⟩,
        ⟨.paymentUpdate (some payment.id) { stripeSessionId := some (some s.id) }, .ok p⟩] := by
  have hc := (h.only_rest op.handle_only).1
  cases hc with
  | quiet hc => cases hc
  | extend _ _ hop =>
    obtain ⟨u, rfl⟩ := hop
    obtain ⟨q', hq, hcall⟩ := checkout_handle_path h
    obtain ⟨k', rfl⟩ := map_eq_call hcall.symm
    cases hq with
    | unopened _ _ hcmd =>
      rcases hcmd _ _ rfl with hc | ⟨d, hc⟩
      · cases hc
      · cases hc
    | selling _ hheld _ hsale =>
      cases hsale with
      | extend now s p => exact ⟨_, _, _, now, s, p, hheld, rfl, rfl⟩

/-- A deletion undoes the creation of the same process. -/
theorem delete_path {op : BookingRequest} {l : Trail} {n : ℕ}
    {k : Except Err Payment → M Response} (h : Follows op.handle l (.call (.paymentDelete n) k)) :
    ∃ d payment, ⟨.paymentCreate d, .ok payment⟩ ∈ l ∧ payment.id = n := by
  have hc := (h.only_rest op.handle_only).1
  cases hc with
  | quiet hc => cases hc
  | drop _ hop =>
    obtain ⟨u, id, rfl⟩ := hop
    obtain ⟨q', hq, hcall⟩ := checkout_handle_path h
    obtain ⟨k', rfl⟩ := map_eq_call hcall.symm
    cases hq with
    | unopened _ _ hcmd =>
      rcases hcmd _ _ rfl with hc | ⟨d, hc⟩
      · cases hc
      · cases hc
    | selling _ _ _ hsale => cases hsale
    | @giveUp r screening payment =>
      exact ⟨checkoutPayment id screening, payment, List.mem_append_left _ (by simp [opened]), rfl⟩

/-- A process that was told of an extension sold the reservation. -/
theorem extension_path {op : BookingRequest} {l : Trail} {q : M Response} {id : ℕ} {t : Time}
    {x : Reservation} (h : Follows op.handle l q)
    (hmem : ⟨.reservationUpdate id { heldUntil := some (some t) }, .ok x⟩ ∈ l) :
    ∃ r screening payment now s p, l = opened id r screening payment ++ [⟨.dateNow, .ok now⟩,
      ⟨.sessionsCreate (checkoutParams id screening payment.id now), .ok s⟩,
      ⟨.paymentUpdate (some payment.id) { stripeSessionId := some (some s.id) }, .ok p⟩,
      ⟨.reservationUpdate id { heldUntil := some (some t) }, .ok x⟩] := by
  have hc := h.only op.handle_only _ hmem
  cases hc with
  | quiet hc => cases hc
  | extend _ _ hop =>
    obtain ⟨u, rfl⟩ := hop
    obtain ⟨q', hq, -⟩ := checkout_handle_path h
    cases hq with
    | unopened hl _ _ =>
      rcases hl _ hmem with hc | ⟨d, e, hc⟩
      · cases hc
      · cases hc
    | @selling r screening payment rest c k _ _ hsale =>
      cases hsale <;> simp [opened] at hmem
    | @sold r screening payment now s p y hheld _ =>
      simp only [opened, List.cons_append, List.nil_append, List.mem_cons, Sigma.mk.injEq,
        reduceCtorEq, false_and, false_or, List.not_mem_nil, or_false] at hmem
      obtain ⟨hupdate, hans⟩ := hmem
      simp only [Cmd.reservationUpdate.injEq, ReservationData.mk.injEq, Option.some.injEq, true_and]
        at hupdate
      subst hupdate
      cases hans
      exact ⟨r, screening, payment, now, s, p, rfl⟩
    | giveUp _ _ _ _ hsale => cases hsale <;> simp [opened] at hmem
    | givenUp _ _ _ _ _ hsale => cases hsale <;> simp [opened] at hmem

/-- A session is opened for the payment that the same process created, and for the time
it read after that. -/
theorem session_path {op : BookingRequest} {l : Trail} {q : M Response} {params : CheckoutParams}
    {rep : Except Err Session} (h : Follows op.handle l q)
    (hmem : ⟨.sessionsCreate params, rep⟩ ∈ l) :
    ∃ id screening payment t, ⟨.paymentCreate (checkoutPayment id screening), .ok payment⟩ ∈ l ∧
      ⟨.dateNow, .ok t⟩ ∈ l ∧ params = checkoutParams id screening payment.id t := by
  have hc := h.only op.handle_only _ hmem
  cases hc with
  | quiet hc => cases hc
  | session _ hop =>
    obtain ⟨u, id, rfl⟩ := hop
    obtain ⟨q', hq, -⟩ := checkout_handle_path h
    cases hq with
    | unopened hl _ _ =>
      rcases hl _ hmem with hc | ⟨d, e, hc⟩
      · cases hc
      · cases hc
    | @selling r screening payment rest c k _ _ hsale =>
      refine ⟨id, screening, payment, ?_⟩
      cases hsale <;> simp_all [opened]
    | @sold r screening payment now s p y _ _ =>
      refine ⟨id, screening, payment, now, ?_⟩
      simp_all [opened]
    | @giveUp r screening payment rest c e k _ _ hsale =>
      refine ⟨id, screening, payment, ?_⟩
      cases hsale <;> simp_all [opened]
    | @givenUp r screening payment rest c e rep' e' _ _ hsale =>
      refine ⟨id, screening, payment, ?_⟩
      cases hsale <;> simp_all [opened]

/-- The clock is read after the payment was created. -/
theorem create_after {op : BookingRequest} {l : Trail} {d : Db.PaymentCreate}
    {k : Except Err Payment → M Response} (h : Follows op.handle l (.call (.paymentCreate d) k))
    (rep : Except Err Time) : ⟨.dateNow, rep⟩ ∉ l := by
  have hc := (h.only_rest op.handle_only).1
  cases hc with
  | quiet hc => cases hc
  | pay _ hop =>
    obtain ⟨u, rfl⟩ := hop
    obtain ⟨q', hq, hcall⟩ := checkout_handle_path h
    obtain ⟨k', rfl⟩ := map_eq_call hcall.symm
    intro hmem
    cases hq with
    | unopened hl _ _ =>
      rcases hl _ hmem with hc | ⟨d, e, hc⟩
      · cases hc
      · cases hc
    | selling _ _ _ hsale => cases hsale

end PaymentsService

end MovieReservation
