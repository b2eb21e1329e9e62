import MovieReservation.Services.SeatStatus

/-! The booking operations as sequences of moves: what every move keeps, every operation
keeps. -/

namespace MovieReservation

open Lib Lib.Prog Lib.Table

/-- Commands that neither rewrite a status nor announce anything. -/
def Cmd.still : Cmd → Bool
  | .reservationUpdate _ d => d.status = none
  | .paymentCreate _ | .paymentUpdate _ _ | .paymentDelete _ => true
  | .emit _ | .emitToRoom _ _ | .cacheSet _ _ | .cacheDel _ => false
  | c => !c.writes

/-- Commands that neither write a cache nor announce an expiry. -/
def Cmd.plain : Cmd → Bool
  | .cacheSet _ _ | .cacheDel _ | .emit (.holdExpired _ _ _) => false
  | _ => true

/-- Commands that move no money. -/
def Cmd.moneyless : Cmd → Bool
  | .paymentCreate _ | .sessionsCreate _ | .refundsCreate _ _ _ | .paymentUpdate _ _
  | .confirmWithReservation _ _ _ => false
  | _ => true

theorem Cmd.plain_of_still {c : Cmd} (h : c.still = true) : c.plain = true := by
  cases c with
  | emit e => cases h
  | cacheSet k v => cases h
  | cacheDel keys => cases h
  | _ => rfl

section Operations
variable {σ A : Type}

/-- What a still command leaves as it was. -/
structure World.Same (w w' : World σ) : Prop where
  plan : w.db.SamePlan w'.db
  seats : ∀ s, w'.db.seatStatus s = w.db.seatStatus s
  cache : w'.redis.cache = w.redis.cache
  pending : w'.pending = w.pending
  rooms : w'.rooms = w.rooms

/-- A move with its announcements. -/
def World.moved (w : World σ) (es : List ReservationEvent) (db : Db) : World σ :=
  { w with
    db, pending := w.pending ++ es, rooms := w.rooms ++ es.flatMap ReservationEvent.delta }

theorem World.Same.refl (w : World σ) : w.Same w :=
  ⟨⟨rfl, rfl, rfl, rfl⟩, fun _ => rfl, rfl, rfl, rfl⟩

theorem World.Same.freshSeatMap {w w' : World σ} (h : w.Same w') (s : ℕ) :
    w'.db.freshSeatMap s = w.db.freshSeatMap s :=
  Db.freshSeatMap_congr h.plan.movies h.plan.halls h.plan.screenings h.plan.seats (h.seats s)

variable (api : StripeApi σ A)

theorem World.exec_same {c : Cmd} (hc : c.still) (w : World σ) : w.Same (exec api c w).2 := by
  have hcommit : ∀ {α : Type} {x : Except Err (α × Db)}, (∀ a db', x = .ok (a, db') →
      w.db.SamePlan db' ∧ ∀ s, db'.seatStatus s = w.db.seatStatus s) →
        w.Same (w.commit x).2 := by
    intro α x h
    rcases w.commit_cases x with ⟨a, db', hok, hcm⟩ | ⟨e, -, hcm⟩
    · rw [hcm]
      exact ⟨(h a db' hok).1, (h a db' hok).2, rfl, rfl, rfl⟩
    · rw [hcm]
      exact .refl w
  have hpayments : ∀ {db' : Db} {t : Table Payment},
      db'.toTables = { w.db.toTables with payments := t } →
        w.db.SamePlan db' ∧ ∀ s, db'.seatStatus s = w.db.seatStatus s := by
    intro db' t ht
    refine ⟨by constructor <;> rw [ht], fun s => Db.seatStatus_of_same ?_⟩
    rw [ht]
  cases c with
  | acquire =>
    simp only [exec]
    split_ifs <;> exact ⟨⟨rfl, rfl, rfl, rfl⟩, fun _ => rfl, rfl, rfl, rfl⟩
  | paymentFindById id => cases id <;> exact .refl w
  | paymentFindByStripePaymentId i => cases i <;> exact .refl w
  | reservationUpdate id d =>
    refine hcommit fun a db' hu => ?_
    obtain ⟨_, -, -, -, ht⟩ := Db.reservationUpdate_eq_ok hu
    exact ⟨.of_reservations ht,
      fun s => funext fun seat => Db.seatStatus_update_of_none (of_decide_eq_true hc) hu⟩
  | paymentCreate d =>
    refine hcommit fun a db' hu => ?_
    obtain ⟨-, -, -, ht⟩ := Db.paymentCreate_eq_ok hu
    exact hpayments ht
  | paymentUpdate id d =>
    cases id with
    | none => exact .refl w
    | some id =>
      refine hcommit fun a db' hu => ?_
      obtain ⟨_, -, -, -, ht⟩ := Db.paymentUpdate_eq_ok hu
      exact hpayments ht
  | paymentDelete id =>
    refine hcommit fun a db' hu => ?_
    obtain ⟨-, ht⟩ := Db.paymentDelete_eq_ok hu
    exact hpayments ht
  | _ => first | exact ⟨⟨rfl, rfl, rfl, rfl⟩, fun _ => rfl, rfl, rfl, rfl⟩ | cases hc

/-- What operations keep: nothing but moves and the filling of the cache can break it. -/
structure Tracks (allow : Cmd → World σ → Prop) (I : World σ → Prop) : Prop where
  same : ∀ w w', w.Same w' → I w → I w'
  move : ∀ c w es db, allow c w → Move c w.db es db → I w → I (w.moved es db)
  fill : ∀ w s m, w.db.freshSeatMap s = some m → I w →
    I { w with redis := w.redis.set (.seatMap s) m }

/-- Run from `w`, the program ends with `I`, if its commands meet `allow`. -/
abbrev Keeps {α : Type} (allow : Cmd → World σ → Prop) (I : World σ → Prop) (p : M α)
    (w : World σ) : Prop :=
  Holds (World.exec api) allow (fun _ => I) p w

theorem request_still {c : Cmd} (h : c.still = true) : Only (fun c => c.still = true) (request c) :=
  (only_issue c).mpr h

theorem only_both {P Q : Cmd → Prop} {c : Cmd} (hP : P c) (hQ : Q c) :
    Only (fun c => P c ∧ Q c) (request c) := (only_issue c).mpr ⟨hP, hQ⟩

theorem recordFailure_tallies (u : ℕ) : Only (fun c => c.still = true ∧ c.moneyless = true)
    (PaymentAbuseService.recordFailure u) := by
  unfold PaymentAbuseService.recordFailure
  refine Only.bind (only_both rfl rfl) fun t => Only.bind (only_both rfl rfl) fun _ => ?_
  refine Only.bind (only_both rfl rfl) fun _ => Only.bind (only_both rfl rfl) fun _ => ?_
  refine Only.bind (only_both rfl rfl) fun n => ?_
  split_ifs
  · exact only_both rfl rfl
  · trivial

theorem recordFailure_still (u : ℕ) :
    Only (fun c => c.still = true) (PaymentAbuseService.recordFailure u) :=
  (recordFailure_tallies u).mono fun _ hc => hc.1

theorem recordFailure_moneyless (u : ℕ) :
    Only (fun c => c.moneyless = true) (PaymentAbuseService.recordFailure u) :=
  (recordFailure_tallies u).mono fun _ hc => hc.2

theorem getById_still (id : ℕ) :
    Only (fun c => c.still = true) (ReservationsService.getById id) := by
  unfold ReservationsService.getById
  refine Only.bind (request_still rfl) fun r => ?_
  cases r <;> trivial

theorem findOwned_still (u id : ℕ) :
    Only (fun c => c.still = true) (ReservationsService.findOwned u id) := by
  unfold ReservationsService.findOwned
  refine Only.bind (getById_still id) fun r => ?_
  rw [only_throwIf_bind]
  exact fun _ => trivial

theorem createCheckoutSession_still (u id : ℕ) :
    Only (fun c => c.still = true) (PaymentsService.createCheckoutSession u id) := by
  unfold PaymentsService.createCheckoutSession
  refine Only.bind (findOwned_still u id) fun r => ?_
  rw [only_throwIf_bind]
  intro _
  refine Only.bind (request_still rfl) fun existing => ?_
  rw [only_throwIf_bind]
  intro _
  refine Only.bind (request_still rfl) fun screening => ?_
  cases screening with
  | none => trivial
  | some screening =>
    refine Only.bind (Only.tryCatch (request_still rfl) fun e => ?_) fun payment => ?_
    · split_ifs <;> trivial
    refine Only.tryCatch ?_ fun e => Only.bind (request_still rfl) fun _ => trivial
    refine Only.bind (request_still rfl) fun t => Only.bind (request_still rfl) fun session => ?_
    refine Only.bind (request_still rfl) fun _ => Only.bind (request_still rfl) fun _ => trivial

theorem plain_request {c : Cmd} (h : c.plain = true) : Only (fun c => c.plain = true) (request c) :=
  (only_issue c).mpr h

theorem reserve_holds (u : ℕ) (dto : CreateReservationDto) :
    Only (fun c => c.plain = true ∧ c.moneyless = true) (ReservationsService.reserve u dto) := by
  unfold ReservationsService.reserve
  refine Only.bind (only_both rfl rfl) fun lockedOut => ?_
  rw [only_throwIf_bind]
  intro _
  refine Only.bind (only_both rfl rfl) fun screening => ?_
  cases screening with
  | none => trivial
  | some screening =>
    simp only [only_throwIf_bind]
    intro _
    refine Only.bind (only_both rfl rfl) fun t => ?_
    rw [only_throwIf_bind]
    intro _
    refine Only.bind (only_both rfl rfl) fun t' => ?_
    refine Only.bind (only_both rfl rfl) fun _ => ?_
    refine Only.bind (Only.ensuring ?_ (only_both rfl rfl)) fun r => ?_
    · refine Only.tryCatch (only_both rfl rfl) fun e => ?_
      split_ifs <;> trivial
    · exact Only.bind (only_both rfl rfl) fun _ => trivial

theorem reserve_plain (u : ℕ) (dto : CreateReservationDto) :
    Only (fun c => c.plain = true) (ReservationsService.reserve u dto) :=
  (reserve_holds u dto).mono fun _ hc => hc.1

theorem reserve_moneyless (u : ℕ) (dto : CreateReservationDto) :
    Only (fun c => c.moneyless = true) (ReservationsService.reserve u dto) :=
  (reserve_holds u dto).mono fun _ hc => hc.2

theorem CancelCmd.plain {r : Reservation} {c : Cmd} (h : CancelCmd r c) : c.plain = true := by
  cases h <;> rfl

theorem cancel_plain (u id : ℕ) :
    Only (fun c => c.plain = true) (ReservationsService.cancel u id) := by
  unfold ReservationsService.cancel
  refine Only.bind ((findOwned_still u id).mono fun _ => Cmd.plain_of_still) fun r => ?_
  exact (ReservationsService.cancel_cancels r).mono fun _ hc => hc.plain

theorem dispatch_plain (event : StripeEvent) :
    Only (fun c => c.plain = true) (PaymentsService.dispatch event) := by
  obtain ⟨eventId, body⟩ := event
  cases body with
  | checkoutSessionCompleted session =>
    refine Only.bind (plain_request rfl) fun payment => ?_
    cases payment with
    | none => trivial
    | some payment =>
      show Only _ (ite _ _ _)
      split_ifs
      · refine Only.bind (Only.bind (plain_request rfl) fun r => ?_) fun _ => ?_
        · exact Only.bind (plain_request rfl) fun _ => trivial
        · exact Only.bind (plain_request rfl) fun _ => trivial
      · exact Only.bind (plain_request rfl) fun _ => trivial
  | checkoutSessionAsyncPaymentFailed session =>
    refine Only.bind (plain_request rfl) fun payment => ?_
    refine Only.bind ((getById_still _).mono fun _ => Cmd.plain_of_still) fun r => ?_
    exact (recordFailure_still _).mono fun _ => Cmd.plain_of_still
  | checkoutSessionExpired session => exact Only.bind (plain_request rfl) fun _ => trivial
  | chargeDisputeCreated dispute =>
    refine Only.bind (plain_request rfl) fun payment => ?_
    cases payment with
    | none => trivial
    | some payment =>
      refine Only.bind (plain_request rfl) fun t => ?_
      exact Only.bind (plain_request rfl) fun _ => trivial
  | other => trivial

theorem reconcile_plain (p : Payment) :
    Only (fun c => c.plain = true) (PaymentsService.reconcile p) := by
  unfold PaymentsService.reconcile
  refine Only.bind (plain_request rfl) fun session => ?_
  split_ifs
  · exact Only.bind (plain_request rfl) fun x => plain_request rfl
  · refine Only.bind (plain_request rfl) fun x => ?_
    refine Only.bind (plain_request rfl) fun _ => ?_
    exact (recordFailure_still _).mono fun _ => Cmd.plain_of_still

/-- All but the sweep and the seat map leave the caches and the expired holds alone. -/
theorem BookingRequest.handle_plain (op : BookingRequest) (hsweep : op ≠ .expireHolds)
    (hmap : ∀ s, op ≠ .getSeatMap s) : Only (fun c => c.plain = true) op.handle := by
  have hstill : ∀ {α : Type} {p : M α}, Only (fun c => c.still = true) p →
      Only (fun c => c.plain = true) p := fun hp => hp.mono fun _ => Cmd.plain_of_still
  cases op with
  | reserve u dto => exact Only.bind (reserve_plain u dto) fun _ => trivial
  | cancel u id => exact Only.bind (cancel_plain u id) fun _ => trivial
  | createCheckoutSession u id =>
    exact Only.bind (hstill (createCheckoutSession_still u id)) fun _ => trivial
  | webhook constructed =>
    refine Only.bind ?_ fun _ => trivial
    cases constructed with
    | error message => trivial
    | ok event =>
      refine Only.bind (plain_request rfl) fun processed => ?_
      split_ifs
      · trivial
      · exact dispatch_plain event
  | expireHolds => exact absurd rfl hsweep
  | reconcilePayments =>
    refine Only.bind (Only.tryCatch ?_ fun _ => trivial) fun _ => trivial
    refine Only.bind (plain_request rfl) fun t => Only.bind (plain_request rfl) fun _ => ?_
    exact Only.forM reconcile_plain _
  | getStatus u id =>
    refine Only.bind ?_ fun _ => trivial
    refine Only.bind (hstill (findOwned_still u id)) fun r => ?_
    exact Only.bind (plain_request rfl) fun _ => trivial
  | getSeatMap s => exact absurd rfl (hmap s)

variable {api} in
theorem World.db_of_quiet {c : Cmd} {w w' : World σ} {r : Except Err c.Reply}
    (hx : World.exec api c w = (r, w')) (hq : c.quiet = true) : w'.db = w.db := by
  have hdb := World.exec_quiet api hq w
  rwa [hx] at hdb

variable {api} in
theorem World.reservations_of_pay {n : Option ℕ} {d : PaymentData} {w w' : World σ}
    {r : Except Err Payment} (hx : World.exec api (.paymentUpdate n d) w = (r, w')) :
    w'.db.reservations = w.db.reservations := by
  have hsame : (World.exec api (.paymentUpdate n d) w).2.db.reservations = w.db.reservations := by
    cases n with
    | none => rfl
    | some n =>
      refine World.commit_rule (P := fun db => db.reservations = w.db.reservations) rfl ?_
      intro a db hu
      obtain ⟨_, -, -, -, ht⟩ := Db.paymentUpdate_eq_ok hu
      rw [ht]
  rwa [hx] at hsame

variable {api} in
theorem holds_emits {allow : Cmd → World σ → Prop} {Q : Except Err PUnit → World σ → Prop}
    {β : Type}
    (g : β → ReservationEvent) : ∀ (xs : List β) (v : World σ),
      Q (.ok ⟨⟩) (v.moved (xs.map g) v.db) →
        Holds (World.exec api) allow Q (forM xs fun x => emit (g x)) v
  | [], v, h => by
    have hv : v.moved [] v.db = v := by simp [World.moved]
    rw [List.map_nil, hv] at h
    exact h
  | x :: xs, v, h => by
    rw [List.forM_cons]
    intro _
    refine holds_emits g xs _ ?_
    have hv : (World.exec api (.emit (g x)) v).2.moved (xs.map g) v.db =
        v.moved ((x :: xs).map g) v.db := by
      simp [World.exec, World.moved, List.append_assoc]
    exact hv ▸ h

/-- A cached map is answered as it is; otherwise what is computed is put in the cache. -/
theorem perform_getSeatMap (s : ℕ) (w : World σ) :
    perform api (ScreeningsService.getSeatMap s) w = match w.redis.cache (.seatMap s) with
      | some cached => (.ok cached, w)
      | none => match w.db.freshSeatMap s with
        | some m => (.ok m, { w with redis := w.redis.set (.seatMap s) m })
        | none => (.error (ReservationsService.screeningNotFound s), w) := by
  have hcached : perform api (ScreeningsCache.getSeatMap s) w =
      (.ok (w.redis.cache (.seatMap s)), w) := rfl
  unfold ScreeningsService.getSeatMap
  rw [perform_bind_ok hcached]
  cases w.redis.cache (.seatMap s) with
  | some cached => rfl
  | none =>
    have hfound : perform api (ScreeningsRepository.findById s) w =
        (.ok (w.db.screeningFindById s), w) := rfl
    simp only [Db.freshSeatMap]
    rw [perform_bind_ok hfound]
    cases w.db.screeningFindById s with
    | none => rfl
    | some screening =>
      simp only [Option.bind_eq_bind, Option.bind_some]
      rw [perform_bind]
      unfold throwIf
      split_ifs with hcancelled
      · rfl
      · rfl

section Keeps
variable {api} {allow : Cmd → World σ → Prop} {I : World σ → Prop} {α β : Type} {w : World σ}

theorem Keeps.bind {p : M α} {f : α → M β} (h : Keeps api allow I p w)
    (hf : ∀ a w', I w' → Keeps api allow I (f a) w') : Keeps api allow I (p >>= f) w := by
  refine Holds.bind (Holds.mono h fun r w' hw' => ?_)
  cases r with
  | ok a => exact hf a w' hw'
  | error e => exact hw'

theorem Keeps.tryCatch {p : M α} {f : Err → M α} (h : Keeps api allow I p w)
    (hf : ∀ e w', I w' → Keeps api allow I (f e) w') : Keeps api allow I (tryCatch p f) w := by
  refine Holds.tryCatch (Holds.mono h fun r w' hw' => ?_)
  cases r with
  | ok a => exact hw'
  | error e => exact hf e w' hw'

theorem Keeps.forM {f : β → M PUnit} (hf : ∀ x v, I v → Keeps api allow I (f x) v) :
    ∀ (xs : List β) (v : World σ), I v → Keeps api allow I (forM xs f) v
  | [], _, hv => hv
  | x :: xs, v, hv => by
    rw [List.forM_cons]
    exact Keeps.bind (hf x v hv) fun _ v' hv' => Keeps.forM hf xs v' hv'

theorem keeps_throwIf_bind {c : Prop} [Decidable c] {e : Err} {f : Unit → M α} (hI : I w)
    (hf : ¬ c → Keeps api allow I (f ()) w) : Keeps api allow I (throwIf c e >>= f) w := by
  unfold throwIf
  split_ifs with h
  · exact hI
  · exact hf h

variable (hT : Tracks allow I) (hI : I w)
include hT hI

theorem Tracks.still {p : M α} (hp : Only (fun c => c.still = true) p) : Keeps api allow I p w :=
  hp.holds (fun _ v hc hv => hT.same v _ (World.exec_same api hc v) hv) (fun _ _ h => h) hI

theorem Tracks.issue {c : Cmd} {f : c.Reply → M α} (hs : c.still = true)
    (hf : ∀ a w', I w' → World.exec api c w = (.ok a, w') → Keeps api allow I (f a) w') :
    Keeps api allow I (request c >>= f) w := by
  intro _
  have hkept := hT.same w _ (World.exec_same api hs w) hI
  cases hx : World.exec api c w with
  | mk r w' =>
    rw [hx] at hkept
    cases r with
    | ok a => exact hf a w' hkept hx
    | error e => exact hkept

/-- A statement that moves a status, and the event after it. -/
theorem Tracks.announced {c : Cmd} {e : c.Reply → ReservationEvent} {f : c.Reply → M α}
    {x : Except Err (c.Reply × Db)} (hx : World.exec api c w = w.commit x)
    (hmove : ∀ a db, x = .ok (a, db) → Move c w.db [e a] db)
    (hf : ∀ a w', I w' → Keeps api allow I (f a) w') :
    Keeps api allow I (request c >>= fun a => emit (e a) >>= fun _ => f a) w := by
  intro ha
  rcases w.commit_cases x with ⟨a, db, hok, hcm⟩ | ⟨err, -, hcm⟩
  · have hmoved := hT.move c w [e a] db ha (hmove a db hok) hI
    rw [World.moved, List.flatMap_singleton] at hmoved
    rw [hx, hcm]
    exact fun _ => hf a _ hmoved
  · rw [hx, hcm]
    exact hI

theorem finalizeCancel_keeps {r : Reservation} (hr : w.db.reservations.get r.id = some r)
    (ha : r.status.active) : Keeps api allow I (ReservationsService.finalizeCancel r) w :=
  hT.announced hI (e := fun _ => .cancelled r.screeningId [r.seatId]) rfl
    (fun _ _ hu => .cancel hr ha hu) fun _ _ hI' => hI'

theorem confirmPayment_keeps (id : ℕ) :
    Keeps api allow I (ReservationsService.confirmPayment id) w :=
  hT.announced hI (c := .reservationUpdate id confirmData)
    (e := fun r => .confirmed r.screeningId [r.seatId]) rfl
    (fun _ _ hu => .confirm hu) fun _ _ hI' => hI'

theorem recordRefund_keeps {r : Reservation} (p : Payment) (refundId : Option ℕ)
    (hr : w.db.reservations.get r.id = some r) (ha : r.status.active) :
    Keeps api allow I (PaymentsService.recordRefund r p refundId) w := by
  unfold PaymentsService.recordRefund
  refine hT.issue hI rfl fun t w₁ hI₁ h₁ => ?_
  refine hT.issue hI₁ rfl fun q w₂ hI₂ h₂ => ?_
  refine finalizeCancel_keeps hT hI₂ ?_ ha
  rw [World.reservations_of_pay h₂, World.db_of_quiet h₁ rfl]
  exact hr

theorem refundReservation_keeps {r : Reservation} (hr : w.db.reservations.get r.id = some r)
    (ha : r.status.active) : Keeps api allow I (PaymentsService.refundReservation r) w := by
  unfold PaymentsService.refundReservation
  refine hT.issue hI rfl fun found w₁ hI₁ h₁ => ?_
  have hdb₁ := World.db_of_quiet h₁ rfl
  cases found with
  | none => exact hI₁
  | some payment =>
    change Keeps _ _ _ (ite _ _ _) _
    split_ifs
    · exact finalizeCancel_keeps hT hI₁ (hdb₁ ▸ hr) ha
    refine hT.issue hI₁ rfl fun screening w₂ hI₂ h₂ => ?_
    have hdb₂ := (World.db_of_quiet h₂ rfl).trans hdb₁
    cases screening with
    | none => exact hI₂
    | some screening =>
      refine hT.issue hI₂ rfl fun t w₃ hI₃ h₃ => ?_
      have hdb₃ := (World.db_of_quiet h₃ rfl).trans hdb₂
      refine hT.issue hI₃ rfl fun policy w₄ hI₄ h₄ => ?_
      have hdb₄ := (World.db_of_quiet h₄ rfl).trans hdb₃
      cases payment.stripePaymentId with
      | none => exact recordRefund_keeps hT hI₄ payment none (hdb₄ ▸ hr) ha
      | some intent =>
        change Keeps _ _ _ (ite _ _ _) _
        split_ifs
        · refine hT.issue hI₄ rfl fun refund w₅ hI₅ h₅ => ?_
          have hdb₅ := (World.db_of_quiet h₅ rfl).trans hdb₄
          exact recordRefund_keeps hT hI₅ payment _ (hdb₅ ▸ hr) ha
        · exact recordRefund_keeps hT hI₄ payment none (hdb₄ ▸ hr) ha

theorem cancel_keeps (u id : ℕ) : Keeps api allow I (ReservationsService.cancel u id) w := by
  unfold ReservationsService.cancel ReservationsService.findOwned ReservationsService.getById
  rw [bind_assoc, bind_assoc]
  refine hT.issue hI rfl fun found w' hI' hx => ?_
  cases found with
  | none => exact hI'
  | some r =>
    have hget : w.db.reservations.get id = some r := Except.ok.inj (Prod.mk.inj hx).1
    have hr : w'.db.reservations.get r.id = some r := by
      rw [World.db_of_quiet hx rfl, show r.id = id from id_of_get hget]
      exact hget
    change Keeps _ _ _ ((throwIf _ _ >>= fun _ => pure r) >>= _) _
    rw [bind_assoc]
    refine keeps_throwIf_bind hI' fun _ => ?_
    change Keeps _ _ _ (ite _ _ _) _
    split_ifs with hconfirmed
    · exact refundReservation_keeps hT hI' hr (by rw [hconfirmed]; rfl)
    · refine keeps_throwIf_bind hI' fun hheld => ?_
      exact finalizeCancel_keeps hT hI' hr (by rw [not_not.mp hheld]; rfl)

theorem reconcile_keeps (p : Payment) : Keeps api allow I (PaymentsService.reconcile p) w := by
  unfold PaymentsService.reconcile
  refine hT.issue hI rfl fun session w' hI' _ => ?_
  split_ifs
  · have hsettle : Keeps api allow I _ w' := hT.announced hI' (f := fun _ => pure ())
      (c := .confirmWithReservation p.id p.reservationId session.paymentIntent)
      (e := fun x => .confirmed x.2.screeningId [x.2.seatId]) rfl
      (fun _ _ hu => .settle hu) fun _ _ h => h
    simp only [bind_pure_unit] at hsettle
    exact hsettle
  · refine hT.announced hI' (c := .declineWithReservation p.id p.reservationId)
      (e := fun x => .cancelled x.2.screeningId [x.2.seatId]) rfl
      (fun _ _ hu => .decline hu) fun x v hv => ?_
    exact hT.still hv (recordFailure_still x.2.userId)

theorem reserve_keeps (u : ℕ) (dto : CreateReservationDto) :
    Keeps api allow I (ReservationsService.reserve u dto) w := by
  unfold ReservationsService.reserve
  refine hT.issue hI rfl fun lockedOut w₁ hI₁ _ => keeps_throwIf_bind hI₁ fun _ => ?_
  refine hT.issue hI₁ rfl fun screening w₂ hI₂ _ => ?_
  cases screening with
  | none => exact hI₂
  | some screening =>
    refine keeps_throwIf_bind hI₂ fun _ => ?_
    refine hT.issue hI₂ rfl fun t w₃ hI₃ _ => keeps_throwIf_bind hI₃ fun _ => ?_
    refine hT.issue hI₃ rfl fun t' w₄ hI₄ _ => ?_
    refine hT.issue hI₄ rfl fun _ w₅ hI₅ _ => ?_
    generalize hp : Db.HoldSeatParams.mk u dto.screeningId screening.hallId dto.seatId
      (t' + ReservationsService.holdMinutes * 60000) = p
    have hscreening : p.screeningId = dto.screeningId := by rw [← hp]
    intro ha
    rcases w₅.commit_cases (w₅.db.holdSeat p) with ⟨r, db, hok, hcm⟩ | ⟨err, -, hcm⟩
    · have hmoved := hT.move _ w₅ _ db ha (.hold hok) hI₅
      rw [World.moved, List.flatMap_singleton, hscreening] at hmoved
      simp only [World.exec, hcm]
      -- the slot is released between the row and its event
      exact fun _ _ => hT.same _ _ (World.exec_same api (c := .release) rfl _) hmoved
    · have hreleased := hT.same _ _ (World.exec_same api (c := .release) rfl w₅) hI₅
      simp only [World.exec, hcm]
      change Keeps _ _ _ (((ite _ _ _ : M Reservation).ensuring ConcurrencyGuard.release).bind _) _
      split_ifs <;> exact fun _ => hreleased

theorem expireHolds_keeps : Keeps api allow I ReservationsService.expireHolds w := by
  unfold ReservationsService.expireHolds
  refine hT.issue hI rfl fun t v hv _ => ?_
  intro ha
  have hmoved := hT.move _ v _ _ ha (.sweep t v.db) hv
  generalize hreleased : (v.db.releaseExpiredHolds t).1 = released at hmoved
  have hexec : World.exec api (.releaseExpiredHolds t) v =
      (.ok released, { v with db := (v.db.releaseExpiredHolds t).2 }) := by
    rw [← hreleased]
    rfl
  rw [hexec]
  change Holds _ _ _ (forM _ _ >>= fun _ => forM _ _) _
  refine Holds.bind (holds_emits (fun g : ℕ × List ℕ => .cancelled g.1 g.2) _ _ ?_)
  refine holds_emits (fun r : Db.ExpiredHold => .holdExpired r.userId r.screeningId r.seatId) _ _ ?_
  simpa only [sweepEvents, World.moved, List.flatMap_append, List.append_assoc] using hmoved

theorem dispatch_keeps (event : StripeEvent) :
    Keeps api allow I (PaymentsService.dispatch event) w := by
  obtain ⟨eventId, body⟩ := event
  cases body with
  | checkoutSessionCompleted session =>
    refine hT.issue hI rfl fun found w' hI' _ => ?_
    cases found with
    | none => exact hI'
    | some payment =>
      change Keeps _ _ _ (ite _ _ _) _
      split_ifs
      · refine (confirmPayment_keeps hT hI' payment.reservationId).bind fun _ v hv => ?_
        exact hT.still hv (Only.bind (request_still rfl) fun _ => trivial)
      · exact hT.still hI' (Only.bind (request_still rfl) fun _ => trivial)
  | checkoutSessionAsyncPaymentFailed session =>
    refine hT.still hI (Only.bind (request_still rfl) fun payment => ?_)
    exact Only.bind (getById_still _) fun r => recordFailure_still _
  | checkoutSessionExpired session =>
    exact hT.still hI (Only.bind (request_still rfl) fun _ => trivial)
  | chargeDisputeCreated dispute =>
    refine hT.still hI (Only.bind (request_still rfl) fun payment => ?_)
    cases payment with
    | none => trivial
    | some payment =>
      exact Only.bind (request_still rfl) fun t => Only.bind (request_still rfl) fun _ => trivial
  | other => exact hI

theorem handleWebhookEvent_keeps (constructed : Except String StripeEvent) :
    Keeps api allow I (PaymentsService.handleWebhookEvent constructed) w := by
  cases constructed with
  | error message => exact hI
  | ok event =>
    refine hT.issue hI rfl fun processed w' hI' _ => ?_
    split_ifs
    · exact hI'
    · exact dispatch_keeps hT hI' event

theorem reconcileTimedOutPayments_keeps :
    Keeps api allow I PaymentsService.reconcileTimedOutPayments w := by
  unfold PaymentsService.reconcileTimedOutPayments
  refine hT.issue hI rfl fun t w₁ hI₁ _ => hT.issue hI₁ rfl fun stuck w₂ hI₂ _ => ?_
  exact Keeps.forM (fun p _ hv => reconcile_keeps hT hv p) stuck w₂ hI₂

theorem getSeatMap_keeps (s : ℕ) : Keeps api allow I (ScreeningsService.getSeatMap s) w := by
  refine holds_of_run ?_
  change I (perform api (ScreeningsService.getSeatMap s) w).2
  rw [perform_getSeatMap]
  cases w.redis.cache (.seatMap s) with
  | some cached => exact hI
  | none =>
    cases hm : w.db.freshSeatMap s with
    | some m => exact hT.fill w s m hm hI
    | none => exact hI

theorem BookingRequest.handle_keeps (op : BookingRequest) : Keeps api allow I op.handle w := by
  cases op with
  | reserve u dto => exact Keeps.bind (reserve_keeps hT hI u dto) fun _ _ h => h
  | cancel u id => exact Keeps.bind (cancel_keeps hT hI u id) fun _ _ h => h
  | createCheckoutSession u id =>
    exact Keeps.bind (hT.still hI (createCheckoutSession_still u id)) fun _ _ h => h
  | webhook constructed =>
    exact Keeps.bind (handleWebhookEvent_keeps hT hI constructed) fun _ _ h => h
  | expireHolds =>
    exact Keeps.bind (Keeps.tryCatch (expireHolds_keeps hT hI) fun _ _ h => h) fun _ _ h => h
  | reconcilePayments =>
    exact Keeps.bind (Keeps.tryCatch (reconcileTimedOutPayments_keeps hT hI) fun _ _ h => h)
      fun _ _ h => h
  | getStatus u id =>
    refine Keeps.bind (hT.still hI ?_) fun _ _ h => h
    exact Only.bind (findOwned_still u id) fun _ => Only.bind (request_still rfl) fun _ => trivial
  | getSeatMap s => exact Keeps.bind (getSeatMap_keeps hT hI s) fun _ _ h => h

end Keeps

end Operations

/-- Bookings leave the plan of the theatre alone. -/
theorem BookingCmd.samePlan {σ A : Type} {api : StripeApi σ A} {w : World σ} {c : Cmd}
    {op : BookingRequest} (hc : BookingCmd op c) :
    w.db.SamePlan (World.exec api c w).2.db := by
  have hcommit : ∀ {α : Type} {x : Except Err (α × Db)},
      (∀ a db', x = .ok (a, db') → w.db.SamePlan db') → w.db.SamePlan (w.commit x).2.db :=
    World.commit_rule (P := fun db => w.db.SamePlan db) ⟨rfl, rfl, rfl, rfl⟩
  cases hc with
  | quiet hq =>
    rw [World.exec_quiet api hq]
    exact ⟨rfl, rfl, rfl, rfl⟩
  | session params _ => exact ⟨rfl, rfl, rfl, rfl⟩
  | holdSeat p _ => exact hcommit fun _ _ hu => (Move.hold hu).samePlan
  | sweep t _ => exact (Move.sweep t w.db).samePlan
  | extend n t _ | confirm n _ | cancel n _ =>
    refine hcommit fun _ _ hu => ?_
    obtain ⟨_, -, -, -, ht⟩ := Db.reservationUpdate_eq_ok hu
    exact .of_reservations ht
  | pay hd _ =>
    refine hcommit fun _ _ hu => ?_
    obtain ⟨-, -, -, ht⟩ := Db.paymentCreate_eq_ok hu
    constructor <;> rw [ht]
  | payment n d _ =>
    cases n with
    | none => exact ⟨rfl, rfl, rfl, rfl⟩
    | some n => exact (World.exec_same api (c := .paymentUpdate (some n) d) rfl w).plan
  | drop n _ => exact (World.exec_same api (c := .paymentDelete n) rfl w).plan
  | decline p n _ => exact hcommit fun _ _ hu => .of_both hu
  | settle p n i _ => exact hcommit fun _ _ hu => .of_both hu

end MovieReservation
