import MovieReservation.Properties.HallSchedule
import MovieReservation.Services.Sales

/-! Checkout and the screening: `reserve` looks at its status and its start,
`createCheckoutSession` looks at neither. It charges for screenings that can be booked only
as long as nothing closes a screening while a hold on it is still to be paid. -/

namespace MovieReservation

open Lib Lib.Prog Lib.Table

variable {σ A : Type}

/-- What `reserve` asks of the screening holds of the reservation's. -/
def Bookable (w : World σ) (reservationId : ℕ) : Prop :=
  ∃ r ∈ w.db.reservations.get reservationId, ∃ s ∈ w.db.screenings.get r.screeningId,
    s.status = .scheduled ∧ w.now < s.startTime

instance (w : World σ) (id : ℕ) : Decidable (Bookable w id) := by
  unfold Bookable
  infer_instance

/-- A payment is created, and Stripe is asked for a session, for bookable screenings only. -/
def ChargesBookable : Cmd → World σ → Prop
  | .paymentCreate d, w => Bookable w d.reservationId
  | .sessionsCreate p, w => Bookable w p.reservationId
  | _, _ => True

instance (c : Cmd) (w : World σ) : Decidable (ChargesBookable c w) := by
  induction c using Cmd.casesOn <;> unfold ChargesBookable <;> infer_instance

/-- Whoever calls `createCheckoutSession` now, and on whatever reservation. -/
def SellsBookable (api : StripeApi σ A) (w : World σ) : Prop :=
  ∀ u id, Along (World.exec api) ChargesBookable (PaymentsService.createCheckoutSession u id) w

/-- A hold that a checkout would accept. -/
structure UnpaidHold (db : Db) (r : Reservation) : Prop where
  mem : r ∈ db.reservations.rows
  held : r.status = .held
  unpaid : ∀ p ∈ db.payments.rows, p.reservationId ≠ r.id

instance (db : Db) (r : Reservation) : Decidable (UnpaidHold db r) :=
  decidable_of_iff (r ∈ db.reservations.rows ∧ r.status = .held ∧
    ∀ p ∈ db.payments.rows, p.reservationId ≠ r.id)
    ⟨fun h => ⟨h.1, h.2.1, h.2.2⟩, fun h => ⟨h.mem, h.held, h.unpaid⟩⟩

/-- Every such hold is on a screening that can be booked. -/
def HoldsBookable (w : World σ) : Prop :=
  ∀ r, UnpaidHold w.db r → Bookable w r.id

/-! ### What a checkout charges for -/

section Checkout
variable {api : StripeApi σ A} {w v : World σ}

theorem along_throwIf_bind {α : Type} {P : Cmd → World σ → Prop} {x : Prop} [Decidable x] {e : Err}
    {f : Unit → M α} : Along (World.exec api) P (throwIf x e >>= f) w ↔
      (¬ x → Along (World.exec api) P (f ()) w) := by
  unfold throwIf
  split_ifs with hx
  · exact iff_of_true trivial fun h => absurd hx h
  · exact ⟨fun h _ => h, fun h => h hx⟩

/-- What is not a charge is no concern. -/
def Cmd.charges : Cmd → Bool
  | .paymentCreate _ | .sessionsCreate _ => true
  | _ => false

theorem chargesBookable_of_not {c : Cmd} (h : c.charges = false) (v : World σ) :
    ChargesBookable c v := by
  cases c <;> trivial

theorem Bookable.congr {id : ℕ} (h : Bookable w id) (hr : v.db.reservations = w.db.reservations)
    (hs : v.db.screenings = w.db.screenings) (hn : v.now = w.now) : Bookable v id := by
  unfold Bookable
  rwa [hr, hs, hn]

theorem paymentCreate_ok {d : Db.PaymentCreate} {p : Payment}
    (h : World.exec api (.paymentCreate d) w = (.ok p, v)) :
    v.db.reservations = w.db.reservations ∧ v.db.screenings = w.db.screenings ∧ v.now = w.now := by
  rcases w.commit_cases (w.db.paymentCreate w.now d) with ⟨b, db, hok, hc⟩ | ⟨e, -, hc⟩
  · rw [World.exec, hc] at h
    cases h
    obtain ⟨-, -, -, ht⟩ := Db.paymentCreate_eq_ok hok
    exact ⟨by rw [ht], by rw [ht], rfl⟩
  · rw [World.exec, hc] at h
    cases h

theorem HoldsBookable.sells (h : HoldsBookable w) : SellsBookable api w := by
  intro u id
  refine along_bind.mpr ⟨(ReservationsService.findOwned_quiet u id).along (fun c v hc =>
    chargesBookable_of_not (by cases c <;> first | rfl | cases hc) v) w, fun r v hr => ?_⟩
  obtain ⟨rfl, hget, -⟩ := findOwned_ok hr
  have hid : r.id = id := id_of_get hget
  refine along_throwIf_bind.mpr fun hheld => ?_
  refine along_bind.mpr ⟨⟨trivial, trivial⟩, fun existing x hexisting => ?_⟩
  obtain ⟨rfl, rfl⟩ : v.db.payments.rows.find? (fun p => p.reservationId = id) = existing ∧
      v = x := by
    cases hexisting
    exact ⟨rfl, rfl⟩
  refine along_throwIf_bind.mpr fun hnone => ?_
  have hbookable : Bookable v id := by
    rw [← hid]
    refine h r ⟨mem_of_get hget, not_not.mp hheld, fun p hp hres => hnone ?_⟩
    exact List.find?_isSome.mpr ⟨p, hp, decide_eq_true (hres.trans hid)⟩
  refine along_bind.mpr ⟨⟨trivial, trivial⟩, fun found x hread => ?_⟩
  cases hread
  cases v.db.screeningFindById r.screeningId with
  | none => trivial
  | some screening =>
    refine along_bind.mpr ⟨Along.tryCatch ⟨hbookable, ?_⟩ fun e t _ => ?_, fun payment t ht => ?_⟩
    · rcases World.exec api (.paymentCreate (PaymentsService.checkoutPayment id screening)) v
        with ⟨_ | _, _⟩ <;> trivial
    · split_ifs <;> trivial
    · have hcreate : World.exec api
          (.paymentCreate (PaymentsService.checkoutPayment id screening)) v = (.ok payment, t) :=
        run_tryCatch_ok (World.exec api) ht fun e u heq => by
          split_ifs at heq <;> cases heq
      obtain ⟨hr, hs, hn⟩ := paymentCreate_ok hcreate
      refine Along.tryCatch ?_ fun e x _ => ⟨trivial, ?_⟩
      · refine along_bind.mpr ⟨⟨trivial, trivial⟩, fun now x hnow => ?_⟩
        cases hnow
        refine along_bind.mpr ⟨⟨hbookable.congr hr hs hn, ?_⟩, fun session y _ => ?_⟩
        · trivial
        · refine Only.along (P := fun c => c.charges = false)
            (fun c x hc => chargesBookable_of_not hc x) ?_ y
          refine Only.bind ((only_issue _).mpr rfl) fun _ => ?_
          exact Only.bind ((only_issue _).mpr rfl) fun _ => trivial
      · rcases World.exec api (.paymentDelete payment.id) x with ⟨_ | _, _⟩ <;> trivial

/-- A hold that is not bookable would be charged for. -/
theorem SellsBookable.holds (h : SellsBookable api w) : HoldsBookable w := by
  intro r hr
  have hget : w.db.reservations.get r.id = some r := get_of_mem hr.mem
  obtain ⟨-, hrest⟩ := along_bind.mp (h r.userId r.id)
  have hheld := along_throwIf_bind.mp (hrest r w (findOwned_run hget)) (not_not.mpr hr.held)
  have hnone : w.db.payments.rows.find? (fun p => p.reservationId = r.id) = none :=
    List.find?_eq_none.mpr fun p hp => by simpa using hr.unpaid p hp
  have hread := along_throwIf_bind.mp hheld.2 (by
    rw [hnone]
    exact Bool.false_ne_true)
  obtain ⟨s, hs⟩ := Option.isSome_iff_exists.mp (w.db.reservation_screening r hr.mem)
  obtain ⟨movie, hall, -, hfound⟩ := Db.screeningFindById_eq hs
  have hcharge := (along_bind.mp hread).2 (some { s with movie, hall }) w (by
    rw [← hfound]
    rfl)
  exact (along_bind.mp hcharge).1.1

theorem sells_iff : SellsBookable api w ↔ HoldsBookable w :=
  ⟨SellsBookable.holds, HoldsBookable.sells⟩

end Checkout

/-! ### Turns that close a screening -/

/-- Time passes, or an admin acts, so that a screening on which there is a hold still to be
paid has begun or does not take place. -/
def Turn.Closes : Turn Request A → World σ → Prop
  | .env (.advance ms), w => ∃ r ∈ w.db.reservations.rows, UnpaidHold w.db r ∧
    ∃ s ∈ w.db.screenings.get r.screeningId, s.startTime ≤ w.now + ms
  | .perform (.admin (.cancelScreening id)) _, w =>
    ∃ r ∈ w.db.reservations.rows, UnpaidHold w.db r ∧ r.screeningId = id
  | .perform (.admin (.updateScreening id dto)) _, w => (∃ t ∈ dto.startTime, t ≤ w.now) ∧
    ScreeningsService.Accepts w.db id dto ∧
      ∃ r ∈ w.db.reservations.rows, UnpaidHold w.db r ∧ r.screeningId = id
  | _, _ => False

instance : ∀ (x : Turn Request A) (w : World σ), Decidable (x.Closes w)
  | .env e, w => by induction e using Env.casesOn <;> unfold Turn.Closes <;> infer_instance
  | .perform (.booking _) _, _ => inferInstanceAs (Decidable False)
  | .perform (.admin op) _, w => by
    induction op using AdminRequest.casesOn <;> unfold Turn.Closes <;> infer_instance

/-! ### Requests that add no hold -/

/-- Every hold that is still to be paid was so before, on the same screening. -/
structure Narrows (db db' : Db) : Prop where
  kept : ∀ r' ∈ db'.reservations.rows, ∃ r ∈ db.reservations.rows, r.id = r'.id ∧
    r.screeningId = r'.screeningId ∧ (r'.status = .held → r.status = .held)
  paid : ∀ p ∈ db.payments.rows, ∀ r' ∈ db'.reservations.rows, p.reservationId = r'.id →
    ∃ q ∈ db'.payments.rows, q.id = p.id ∧ q.reservationId = r'.id
  screenings : ∀ r' ∈ db'.reservations.rows,
    db'.screenings.get r'.screeningId = db.screenings.get r'.screeningId

section Narrows
variable {api : StripeApi σ A} {w v : World σ} {db : Db}

theorem Narrows.refl (db : Db) : Narrows db db :=
  ⟨fun r hr => ⟨r, hr, rfl, rfl, id⟩, fun p hp _ _ hres => ⟨p, hp, rfl, hres⟩, fun _ _ => rfl⟩

theorem Narrows.unpaid {db' : Db} (h : Narrows db db') {r' : Reservation}
    (hr' : UnpaidHold db' r') :
    ∃ r, UnpaidHold db r ∧ r.id = r'.id ∧ r.screeningId = r'.screeningId := by
  obtain ⟨r, hr, hid, hs, hheld⟩ := h.kept r' hr'.mem
  refine ⟨r, ⟨hr, hheld hr'.held, fun p hp hres => ?_⟩, hid, hs⟩
  obtain ⟨q, hq, -, hqres⟩ := h.paid p hp r' hr'.mem (hres.trans hid)
  exact hr'.unpaid q hq hqres

theorem Bookable.of_screening {r : Reservation} (hr : r ∈ w.db.reservations.rows) {s : Screening}
    (hs : w.db.screenings.get r.screeningId = some s) (hopen : s.status = .scheduled)
    (hlt : w.now < s.startTime) : Bookable w r.id :=
  ⟨r, get_of_mem hr, s, hs, hopen, hlt⟩

theorem Bookable.screening {r : Reservation} (h : Bookable w r.id)
    (hr : r ∈ w.db.reservations.rows) :
    ∃ s, w.db.screenings.get r.screeningId = some s ∧ s.status = .scheduled ∧
      w.now < s.startTime := by
  obtain ⟨x, hx, s, hs, hopen⟩ := h
  obtain rfl : x = r := Option.some.inj (hx.symm.trans (get_of_mem hr))
  exact ⟨s, hs, hopen⟩

theorem Narrows.holdsBookable (h : Narrows w.db v.db) (hn : v.now = w.now)
    (hw : HoldsBookable w) : HoldsBookable v := by
  intro r' hr'
  obtain ⟨r, hr, -, hscreening⟩ := h.unpaid hr'
  obtain ⟨s, hs, hopen, hlt⟩ := (hw r hr).screening hr.mem
  refine .of_screening hr'.mem (s := s) ?_ hopen (by rwa [hn])
  rw [h.screenings r' hr'.mem, ← hscreening]
  exact hs

/-- A reservation that is there now was there before, and is HELD only if it was. -/
theorem reservation_before {op : BookingRequest} {c : Cmd} (hc : BookingCmd op c)
    (hhold : ∀ p, c ≠ .holdSeat p) {r' : Reservation}
    (hr' : r' ∈ (World.exec api c w).2.db.reservations.rows) :
    ∃ r ∈ w.db.reservations.rows, r.id = r'.id ∧ r.screeningId = r'.screeningId ∧
      (r'.status = .held → r.status = .held) := by
  have hget' : (World.exec api c w).2.db.reservations.get r'.id = some r' := get_of_mem hr'
  cases hget : w.db.reservations.get r'.id with
  | none =>
    obtain ⟨p, rfl, -, -⟩ := reservation_born api hc hget hget'
    exact absurd rfl (hhold p)
  | some r =>
    refine ⟨r, mem_of_get hget, id_of_get hget, ?_⟩
    obtain ⟨s, hs, hrewrite⟩ := reservation_step api hc hget
    obtain rfl : s = r' := Option.some.inj (hs.symm.trans hget')
    cases hrewrite with
    | keep => exact ⟨rfl, id⟩
    | extend t => exact ⟨rfl, id⟩
    | lapse now h => exact ⟨rfl, fun _ => h⟩
    | cancel | decline | confirm | settle => exact ⟨rfl, nofun⟩

theorem Narrows.booking (h : Narrows db w.db) {op : BookingRequest} {c : Cmd}
    (hc : BookingCmd op c) (hhold : ∀ p, c ≠ .holdSeat p)
    (hdrop : ∀ n, c = .paymentDelete n → ∀ p ∈ db.payments.rows, p.id ≠ n) :
    Narrows db (World.exec api c w).2.db where
  kept := by
    intro r' hr'
    obtain ⟨r, hr, hid, hs, hheld⟩ := reservation_before hc hhold hr'
    obtain ⟨r₀, hr₀, hid₀, hs₀, hheld₀⟩ := h.kept r hr
    exact ⟨r₀, hr₀, hid₀.trans hid, hs₀.trans hs, hheld₀ ∘ hheld⟩
  paid := by
    intro p hp r' hr' hres
    obtain ⟨r, hr, hid, -, -⟩ := reservation_before hc hhold hr'
    obtain ⟨q, hq, hqid, hqres⟩ := h.paid p hp r hr (hres.trans hid.symm)
    rcases payment_kept api hc (get_of_mem hq) with ⟨q', hq', hqres'⟩ | hdel
    · exact ⟨q', mem_of_get hq', (id_of_get hq').trans hqid, hqres'.trans (hqres.trans hid)⟩
    · exact absurd hqid.symm (hdrop q.id hdel p hp)
  screenings := by
    intro r' hr'
    obtain ⟨r, hr, -, hs, -⟩ := reservation_before hc hhold hr'
    rw [hc.samePlan.screenings, ← hs]
    exact h.screenings r hr

end Narrows

/-! ### Bookings keep the holds bookable -/

section Bookings
variable {api : StripeApi σ A} {w v : World σ}

/-- A request that holds no seat. -/
theorem booking_narrows {op : BookingRequest} (hop : ∀ u dto, op ≠ .reserve u dto) :
    Narrows w.db (perform api op.handle w).2.db := by
  have honly : Informed (fun _ => BookingCmd op) [] op.handle :=
    .of_only (op.handle_only.mono fun _ hc _ => hc)
  -- a payment that is deleted was created by the request itself
  have hrun := (op.handle_grounded.and honly).run (World.exec api)
    (I := fun l v => Narrows w.db v.db ∧ w.db.payments.serial ≤ v.db.payments.serial ∧
      ∀ d p, ⟨.paymentCreate d, .ok p⟩ ∈ l → w.db.payments.serial ≤ p.id) ?_ (s := w)
    ⟨.refl _, le_rfl, fun d p hmem => absurd hmem List.not_mem_nil⟩
  · obtain ⟨_, h, -, -⟩ := hrun
    exact h
  · rintro l c v ⟨hground, hc⟩ ⟨hnarrows, hserial, hcreated⟩
    have hevolves := (World.exec_evolves api c v).payments.serial
    refine ⟨hnarrows.booking hc ?_ ?_, hserial.trans hevolves, fun d p hmem => ?_⟩
    · rintro p rfl
      cases hc with
      | quiet hq => cases hq
      | holdSeat p h =>
        obtain ⟨dto, h⟩ := h
        exact hop _ dto h
    · rintro n rfl p hp rfl
      obtain ⟨d, q, hmem, hid⟩ := hground
      have hlt := lt_serial_of_get (get_of_mem hp)
      have hle := hcreated d q hmem
      rw [hid] at hle
      exact absurd hlt (Nat.not_lt.mpr hle)
    · rcases List.mem_append.mp hmem with hmem | hmem
      · exact hcreated d p hmem
      · obtain ⟨rfl, hans⟩ := Sigma.mk.inj (List.mem_singleton.mp hmem)
        obtain ⟨rfl, -, -⟩ := paymentCreate_exec api
          (Prod.ext (eq_of_heq hans).symm rfl : World.exec api (.paymentCreate d) v = (.ok p, _))
        exact hserial

/-- A seat is held after its screening was read as SCHEDULED, and before its start. -/
def HoldGround (l : Trail) : Cmd → Prop
  | .holdSeat p => ∃ (s : ScreeningWithMovieHall) (t : Time),
    ⟨.screeningFindById p.screeningId, .ok (some s)⟩ ∈ l ∧ ⟨.dateNow, .ok t⟩ ∈ l ∧
      s.status = .scheduled ∧ t < s.startTime
  | c => c.quiet = true

theorem holdGround_quiet {l : Trail} {c : Cmd} (hc : c.quiet) : HoldGround l c := by
  cases c <;> first | exact hc | cases hc

theorem reserve_ground (u : ℕ) (dto : CreateReservationDto) :
    Informed HoldGround [] (ReservationsService.reserve u dto) :=
  reserve_informed (fun _ _ hc => holdGround_quiet hc) fun _ screening t t' hopen hstart =>
    ⟨screening, t, by simp, by simp, hopen, hstart⟩

/-- A hold on a screening that can be booked joins holds that can be. -/
theorem HoldsBookable.holdSeat (hw : HoldsBookable w) {p : Db.HoldSeatParams} {s : Screening}
    (hs : w.db.screenings.get p.screeningId = some s) (hopen : s.status = .scheduled)
    (hlt : w.now < s.startTime) : HoldsBookable (World.exec api (.holdSeat p) w).2 := by
  rcases w.commit_cases (w.db.holdSeat p) with ⟨r, db', hok, hc⟩ | ⟨e, -, hc⟩
  · obtain ⟨_, -, -, -, -, -, ht⟩ := Db.holdSeat_eq_ok hok
    rw [World.exec, hc]
    intro r' hr'
    have hmem : r' ∈ db'.reservations.rows := hr'.mem
    rw [ht] at hmem
    rcases List.mem_append.mp hmem with hold | hnew
    · obtain ⟨s', hs', hopen', hlt'⟩ := (hw r' ⟨hold, hr'.held, fun p hp => hr'.unpaid p (by
        change p ∈ db'.payments.rows
        rw [ht]
        exact hp)⟩).screening hold
      refine .of_screening hr'.mem (s := s') ?_ hopen' hlt'
      change db'.screenings.get r'.screeningId = some s'
      rw [ht]
      exact hs'
    · have hscreening : r'.screeningId = p.screeningId := by
        rw [List.mem_singleton.mp hnew]
        rfl
      refine .of_screening hr'.mem (s := s) ?_ hopen hlt
      change db'.screenings.get r'.screeningId = some s
      rw [ht, hscreening]
      exact hs
  · rw [World.exec, hc]
    exact hw

/-- The plan and the clock as they were when the request began, and what it has read of
them. -/
structure StillPlanned (w : World σ) (l : Trail) (v : World σ) : Prop where
  now : v.now = w.now
  screenings : v.db.screenings = w.db.screenings
  found : ∀ n (s : ScreeningWithMovieHall), ⟨.screeningFindById n, .ok (some s)⟩ ∈ l →
    w.db.screenings.get n = some s.toScreening
  clock : ∀ t, ⟨.dateNow, .ok t⟩ ∈ l → t = w.now

theorem stillPlanned_start (w : World σ) : StillPlanned w [] w :=
  ⟨rfl, rfl, fun _ _ h => absurd h List.not_mem_nil, fun _ h => absurd h List.not_mem_nil⟩

theorem Db.screening_of_find {db : Db} {id : ℕ} {s : ScreeningWithMovieHall}
    (h : db.screeningFindById id = some s) : db.screenings.get id = some s.toScreening := by
  unfold Db.screeningFindById at h
  simp only [Option.bind_eq_bind, Option.bind_eq_some_iff] at h
  obtain ⟨s₀, hs₀, movie, -, hall, -, hs⟩ := h
  cases hs
  exact hs₀

theorem StillPlanned.step {l : Trail} (h : StillPlanned w l v) {op : BookingRequest} {c : Cmd}
    (hc : BookingCmd op c) :
    StillPlanned w (l ++ [⟨c, (World.exec api c v).1⟩]) (World.exec api c v).2 where
  now := (World.exec_now api c v).trans h.now
  screenings := hc.samePlan.screenings.trans h.screenings
  found := by
    intro n s hmem
    rcases List.mem_append.mp hmem with hmem | hmem
    · exact h.found n s hmem
    · obtain ⟨rfl, hans⟩ := Sigma.mk.inj (List.mem_singleton.mp hmem)
      have hfound : v.db.screeningFindById n = some s := (Except.ok.inj (eq_of_heq hans)).symm
      rw [← h.screenings]
      exact Db.screening_of_find hfound
  clock := by
    intro t hmem
    rcases List.mem_append.mp hmem with hmem | hmem
    · exact h.clock t hmem
    · obtain ⟨rfl, hans⟩ := Sigma.mk.inj (List.mem_singleton.mp hmem)
      exact (Except.ok.inj (eq_of_heq hans)).trans h.now

theorem reserve_bookable (hw : HoldsBookable w) (u : ℕ) (dto : CreateReservationDto) :
    HoldsBookable (perform api (BookingRequest.reserve u dto).handle w).2 := by
  have hground : Informed HoldGround [] (BookingRequest.reserve u dto).handle :=
    (reserve_ground u dto).bind fun _ _ => trivial
  have honly : Informed (fun _ => BookingCmd (.reserve u dto)) []
      (BookingRequest.reserve u dto).handle :=
    .of_only ((BookingRequest.handle_only _).mono fun _ hc _ => hc)
  have hrun := (hground.and honly).run (World.exec api)
    (I := fun l v => HoldsBookable v ∧ StillPlanned w l v) ?_ (s := w) ⟨hw, stillPlanned_start w⟩
  · obtain ⟨_, h, -⟩ := hrun
    exact h
  · rintro l c v ⟨hhold, hc⟩ ⟨hv, hplan⟩
    refine ⟨?_, hplan.step hc⟩
    have hquiet : ∀ {c : Cmd}, c.quiet = true → HoldsBookable (World.exec api c v).2 := by
      intro c hq
      refine Narrows.holdsBookable ?_ (World.exec_now api c v) hv
      rw [World.exec_quiet api hq]
      exact .refl _
    cases c with
    | holdSeat p =>
      obtain ⟨s, t, hread, hclock, hopen, hlt⟩ := hhold
      refine hv.holdSeat (s := s.toScreening) ?_ hopen ?_
      · rw [hplan.screenings]
        exact hplan.found _ s hread
      · rw [hplan.now, ← hplan.clock t hclock]
        exact hlt
    | _ => exact hquiet hhold

theorem perform_clock {α : Type} (p : M α) (w : World σ) : (perform api p w).2.now = w.now := by
  unfold perform
  induction p generalizing w with
  | done r => rfl
  | call c k ih => exact (ih _ _).trans (World.exec_now api c w)

theorem booking_bookable (hw : HoldsBookable w) (op : BookingRequest) :
    HoldsBookable (perform api op.handle w).2 := by
  have hother : (∀ u dto, op ≠ .reserve u dto) → HoldsBookable (perform api op.handle w).2 :=
    fun hop => (booking_narrows hop).holdsBookable (perform_clock op.handle w) hw
  cases op with
  | reserve u dto => exact reserve_bookable hw u dto
  | _ =>
    refine hother fun n d heq => ?_
    cases heq

end Bookings

/-! ### The administration -/

section Admin
variable {api : StripeApi σ A} {w v : World σ} {id : ℕ}

theorem Narrows.trans {a b c : Db} (h : Narrows a b) (h' : Narrows b c) : Narrows a c where
  kept := by
    intro r hr
    obtain ⟨r', hr', hid', hs', hheld'⟩ := h'.kept r hr
    obtain ⟨r₀, hr₀, hid, hs, hheld⟩ := h.kept r' hr'
    exact ⟨r₀, hr₀, hid.trans hid', hs.trans hs', hheld ∘ hheld'⟩
  paid := by
    intro p hp r hr hres
    obtain ⟨r', hr', hid', -, -⟩ := h'.kept r hr
    obtain ⟨q, hq, hqid, hqres⟩ := h.paid p hp r' hr' (hres.trans hid'.symm)
    obtain ⟨q', hq', hqid', hqres'⟩ := h'.paid q hq r hr (hqres.trans hid')
    exact ⟨q', hq', hqid'.trans hqid, hqres'⟩
  screenings := by
    intro r hr
    obtain ⟨r', hr', -, hs', -⟩ := h'.kept r hr
    rw [h'.screenings r hr, ← hs', h.screenings r' hr']

theorem Narrows.of_same {db db' : Db} (hr : db'.reservations = db.reservations)
    (hp : db'.payments = db.payments)
    (hs : ∀ i, (db.screenings.get i).isSome → db'.screenings.get i = db.screenings.get i) :
    Narrows db db' where
  kept r hmem := ⟨r, hr ▸ hmem, rfl, rfl, fun h => h⟩
  paid p hmem _ _ hres := ⟨p, hp ▸ hmem, rfl, hres⟩
  screenings r hmem := hs _ (db.reservation_screening r (hr ▸ hmem))

theorem narrows_cascade (db : Db) (movie : Movie → Bool) (hall : Hall → Bool)
    (screening : Screening → Bool) : Narrows db (db.cascade movie hall screening) where
  kept r hr := ⟨r, List.mem_of_mem_filter hr, rfl, rfl, fun h => h⟩
  paid p hp r hr hres := by
    refine ⟨p, List.mem_filter.mpr ⟨hp, ?_⟩, rfl, hres⟩
    rw [hres]
    exact Option.isSome_iff_exists.mpr ⟨r, get_of_mem hr⟩
  screenings r hr := by
    have hkept := (db.cascade movie hall screening).reservation_screening r hr
    obtain ⟨s, hs⟩ := Option.isSome_iff_exists.mp hkept
    have hbefore := hs
    simp only [Db.cascade, get_filter, Option.filter_eq_some_iff] at hbefore
    exact hs.trans hbefore.1.symm

/-- A command of the administration other than an update of a screening. -/
theorem AdminCmd.narrows {op : AdminRequest} {c : Cmd} (hc : AdminCmd op c)
    (hupdate : ∀ n d, c ≠ .screeningUpdate n d) : Narrows w.db (World.exec api c w).2.db := by
  have hcommit : ∀ {α : Type} {r : Except Err (α × Db)},
      (∀ a db', r = .ok (a, db') → Narrows w.db db') → Narrows w.db (w.commit r).2.db :=
    World.commit_rule (.refl _)
  have hmovie : ∀ {n : ℕ} {d : MovieData} {m : Movie} {db' : Db},
      w.db.movieUpdate n d = .ok (m, db') → Narrows w.db db' := by
    intro n d m db' h
    have ht := Db.movieUpdate_eq_ok h
    exact .of_same (by rw [ht]) (by rw [ht]) fun _ _ => by rw [ht]
  cases hc with
  | read hq _ =>
    rw [World.exec_quiet api hq]
    exact .refl _
  | drop keys => exact .refl _
  | createHall dto hall seats =>
    refine hcommit fun a db' h => ?_
    obtain ⟨ht, -⟩ := Db.createHallWithSeats_eq_ok h
    exact .of_same (by rw [ht]) (by rw [ht]) fun _ _ => by rw [ht]
  | createMovie dto => exact .of_same rfl rfl fun _ _ => rfl
  | updateMovie n dto d => exact hcommit fun a db' h => hmovie h
  | publish n => exact hcommit fun a db' h => hmovie h
  | unpublish n => exact hcommit fun a db' h => hmovie h
  | createScreening dto =>
    refine hcommit fun a db' h => ?_
    obtain ⟨-, ht⟩ := Db.screeningCreate_eq_ok h
    refine .of_same (by rw [ht]) (by rw [ht]) fun i hi => ?_
    obtain ⟨s, hs⟩ := Option.isSome_iff_exists.mp hi
    rw [ht]
    simp only [get_insert, if_neg (Nat.ne_of_lt (lt_serial_of_get hs))]
  | updateScreening n dto => exact absurd rfl (hupdate _ _)
  | cancelScreening n => exact absurd rfl (hupdate _ _)
  | deleteHall n =>
    exact hcommit fun a db' h => Db.hallDelete_eq_ok h ▸ narrows_cascade _ _ _ _
  | deleteMovie n =>
    exact hcommit fun a db' h => Db.movieDelete_eq_ok h ▸ narrows_cascade _ _ _ _
  | deleteScreening n =>
    exact hcommit fun a db' h => Db.screeningDelete_eq_ok h ▸ narrows_cascade _ _ _ _

/-- No hold on the screening is still to be paid. -/
def NoneUnpaid (id : ℕ) (db : Db) : Prop := ∀ r, UnpaidHold db r → r.screeningId ≠ id

theorem Narrows.noneUnpaid {db db' : Db} (h : Narrows db db') (hs : NoneUnpaid id db) :
    NoneUnpaid id db' := by
  intro r' hr'
  obtain ⟨r, hr, -, hscreening⟩ := h.unpaid hr'
  rw [← hscreening]
  exact hs r hr

/-- What an update of a screening leaves as it was. -/
theorem screeningUpdate_unpaid {db db' : Db} {d : ScreeningData} {x : Screening}
    (h : db.screeningUpdate id d = .ok (x, db')) {r : Reservation} :
    UnpaidHold db' r ↔ UnpaidHold db r := by
  obtain ⟨_, -, -, ht⟩ := Db.screeningUpdate_eq_ok h
  constructor
  · rintro ⟨hmem, hheld, hunpaid⟩
    rw [ht] at hmem hunpaid
    exact ⟨hmem, hheld, hunpaid⟩
  · rintro ⟨hmem, hheld, hunpaid⟩
    exact ⟨by rwa [ht], hheld, by rwa [ht]⟩

theorem screeningUpdate_get {db db' : Db} {d : ScreeningData} {x : Screening}
    (h : db.screeningUpdate id d = .ok (x, db')) (i : ℕ) :
    db'.screenings.get i = if i = id then (db.screenings.get i).map d.apply
      else db.screenings.get i := by
  obtain ⟨_, -, -, ht⟩ := Db.screeningUpdate_eq_ok h
  rw [ht]
  exact get_modify d.id_apply i

theorem HoldsBookable.screeningUpdate (hw : HoldsBookable w) {d : ScreeningData}
    (h : NoneUnpaid id w.db ∨ d.status = none ∧ ∀ t ∈ d.startTime, w.now < t) :
    HoldsBookable (World.exec api (.screeningUpdate id d) w).2 := by
  rcases w.commit_cases (w.db.screeningUpdate id d) with ⟨x, db', hok, hc⟩ | ⟨e, -, hc⟩
  · rw [World.exec, hc]
    intro r hr
    have hbefore : UnpaidHold w.db r := (screeningUpdate_unpaid hok).mp hr
    obtain ⟨s, hs, hopen, hlt⟩ := (hw r hbefore).screening hbefore.mem
    have hget : db'.screenings.get r.screeningId = _ := screeningUpdate_get hok r.screeningId
    by_cases hid : r.screeningId = id
    · obtain ⟨hstatus, hstart⟩ := h.resolve_left fun hnone => hnone r hbefore hid
      rw [if_pos hid, hs, Option.map_some] at hget
      refine .of_screening hr.mem hget ?_ ?_
      · simpa [ScreeningData.apply, hstatus] using hopen
      · cases ht : d.startTime with
        | none => simpa [ScreeningData.apply, ht] using hlt
        | some t => simpa [ScreeningData.apply, ht] using hstart t ht
    · rw [if_neg hid, hs] at hget
      exact .of_screening hr.mem hget hopen hlt
  · rw [World.exec, hc]
    exact hw

/-- A request that does not update a screening. -/
theorem admin_narrows {op : AdminRequest} (hupdate : ∀ n d, ¬ AdminCmd op (.screeningUpdate n d)) :
    Narrows w.db (perform api op.handle w).2.db :=
  op.handle_only.run (World.exec api) (I := fun v => Narrows w.db v.db)
    (fun _ _ hc hv => hv.trans (hc.narrows fun n d heq => hupdate n d (heq ▸ hc))) (.refl _)

/-- A request that updates one, if nothing on it is still to be paid or it can be booked
afterwards. -/
theorem admin_bookable (id : ℕ) (hw : HoldsBookable w) {op : AdminRequest}
    (h : ∀ n d, AdminCmd op (.screeningUpdate n d) → n = id ∧
      (NoneUnpaid id w.db ∨ d.status = none ∧ ∀ t ∈ d.startTime, w.now < t)) :
    HoldsBookable (perform api op.handle w).2 := by
  refine (op.handle_only.run (World.exec api) (I := fun v => HoldsBookable v ∧ v.now = w.now ∧
    (NoneUnpaid id w.db → NoneUnpaid id v.db)) ?_ ⟨hw, rfl, fun h => h⟩).1
  rintro c v hc ⟨hv, hnow, hnone⟩
  have hclock := (World.exec_now api c v).trans hnow
  have hother : (∀ n d, c ≠ .screeningUpdate n d) → HoldsBookable (World.exec api c v).2 ∧
      (World.exec api c v).2.now = w.now ∧
        (NoneUnpaid id w.db → NoneUnpaid id (World.exec api c v).2.db) := by
    intro hne
    have hnarrows : Narrows v.db (World.exec api c v).2.db := hc.narrows hne
    exact ⟨hnarrows.holdsBookable (World.exec_now api c v) hv, hclock,
      fun h => hnarrows.noneUnpaid (hnone h)⟩
  cases c with
  | screeningUpdate n d =>
    obtain ⟨rfl, hcase⟩ := h n d hc
    refine ⟨hv.screeningUpdate (hcase.imp hnone fun hopen => ?_), hclock, fun hw r hr => ?_⟩
    · rwa [hnow]
    · refine hnone hw r ?_
      rcases v.commit_cases (v.db.screeningUpdate n d) with ⟨x, db', hok, hcm⟩ | ⟨e, -, hcm⟩
      · rw [World.exec, hcm] at hr
        exact (screeningUpdate_unpaid hok).mp hr
      · rwa [World.exec, hcm] at hr
  | _ =>
    refine hother fun n d heq => ?_
    cases heq

/-- An admin request that closes no screening. -/
theorem not_closes_bookable (hw : HoldsBookable w) (op : AdminRequest)
    {xs : List (Choice Err Listener Empty)}
    (h : ¬ (Turn.perform (.admin op) xs : Turn Request A).Closes w) :
    HoldsBookable (perform api op.handle w).2 := by
  have hother : (∀ n d, ¬ AdminCmd op (.screeningUpdate n d)) →
      HoldsBookable (perform api op.handle w).2 := fun hne =>
    (admin_narrows hne).holdsBookable (perform_clock op.handle w) hw
  cases op with
  | cancelScreening n =>
    refine admin_bookable n hw fun m d hc => ?_
    cases hc with
    | read hq _ => cases hq
    | cancelScreening => exact ⟨rfl, .inl fun r hr hid => h ⟨r, hr.mem, hr, hid⟩⟩
  | updateScreening n dto =>
    by_cases haccepted : (AdminRequest.updateScreening n dto).Accepts w.db
    · refine admin_bookable n hw fun m d hc => ?_
      cases hc with
      | read hq _ => cases hq
      | updateScreening =>
        refine ⟨rfl, ?_⟩
        by_cases hstart : ∃ t ∈ dto.startTime, t ≤ w.now
        · exact .inl fun r hr hid => h ⟨hstart, haccepted, r, hr.mem, hr, hid⟩
        · refine .inr ⟨rfl, fun t ht => ?_⟩
          exact Int.not_le.mp fun hle => hstart ⟨t, ht, hle⟩
    · rw [AdminRequest.refused haccepted]
      exact hw
  | _ =>
    refine hother fun n d hc => ?_
    cases hc with
    | read hq _ => cases hq

/-! What a turn that closes a screening does. -/

/-- The hold is there still, and its screening is not what it was. -/
theorem not_holdsBookable {d : ScreeningData} {x : Screening} {r : Reservation}
    (hr : UnpaidHold w.db r) (hid : r.screeningId = id)
    (hok : w.db.screeningUpdate id d = .ok (x, v.db))
    (hx : x.status = .scheduled → x.startTime ≤ v.now) : ¬ HoldsBookable v := by
  intro h
  have hr' : UnpaidHold v.db r := (screeningUpdate_unpaid hok).mpr hr
  obtain ⟨s, hs, hopen, hlt⟩ := (h r hr').screening hr'.mem
  obtain ⟨s₀, hs₀, rfl, -⟩ := Db.screeningUpdate_eq_ok hok
  rw [screeningUpdate_get hok, if_pos hid, hid, hs₀, Option.map_some] at hs
  cases hs
  exact absurd hlt (Int.not_lt.mpr (hx hopen))

end Admin

/-! ### Every history -/

section Histories
variable (api : StripeApi σ A) {w w' : World σ}

theorem deliver_now {xs : List (Choice Err Listener Empty)} (h : deliver api xs w = some w') :
    w'.now = w.now :=
  deliver_keeps api (I := fun v => v.now = w.now) (P := fun _ _ => True)
    (fun l => (Listener.handle_quiet l).mono fun _ _ => trivial)
    (fun _ c v _ hv => (World.exec_now api c v).trans hv) h rfl

theorem HoldsBookable.congr (h : HoldsBookable w) (hdb : w'.db = w.db) (hn : w'.now = w.now) :
    HoldsBookable w' := by
  refine Narrows.holdsBookable ?_ hn h
  rw [hdb]
  exact .refl _

theorem turn_bookable {x : Turn Request A} (hw : HoldsBookable w) (hx : ¬ x.Closes w)
    (h : turn api Request.handle x w = some w') : HoldsBookable w' := by
  cases x with
  | env e =>
    cases h
    cases e with
    | advance ms =>
      intro r hr
      obtain ⟨s, hs, hopen, -⟩ := (hw r hr).screening hr.mem
      exact .of_screening hr.mem hs hopen (Int.not_le.mp fun hle => hx ⟨r, hr.mem, hr, s, hs, hle⟩)
    | evict k => exact hw.congr rfl rfl
    | stripe a => exact hw.congr rfl rfl
  | perform r xs =>
    refine HoldsBookable.congr (w := (perform api r.handle w).2) ?_ (deliver_db api h)
      (deliver_now api h)
    cases r with
    | booking op => exact booking_bookable hw op
    | admin op => exact not_closes_bookable hw op hx

theorem turn_closed {x : Turn Request A} (hw : HoldsBookable w) (hx : x.Closes w)
    (h : turn api Request.handle x w = some w') : ¬ HoldsBookable w' := by
  cases x with
  | env e =>
    cases h
    cases e with
    | advance ms =>
      obtain ⟨r, -, hr, s, hs, hle⟩ := hx
      intro hholds
      obtain ⟨s', hs', -, hlt⟩ := (hholds r hr).screening hr.mem
      obtain rfl : s' = s := Option.some.inj (hs'.symm.trans hs)
      exact absurd hlt (Int.not_lt.mpr hle)
    | evict k => exact hx.elim
    | stripe a => exact hx.elim
  | perform r xs =>
    have hdb := deliver_db api h
    have hnow := (deliver_now api h).trans (perform_clock r.handle w)
    cases r with
    | booking op => exact hx.elim
    | admin op =>
      cases op with
      | cancelScreening n =>
        obtain ⟨r, -, hr, hid⟩ := hx
        obtain ⟨s, hs, hopen, -⟩ := (hw r hr).screening hr.mem
        rw [hid] at hs
        have haccepts : (AdminRequest.cancelScreening n).Accepts w.db :=
          ⟨s, hs, by rw [hopen]; nofun⟩
        obtain ⟨x, db, hexec, hrun⟩ := AdminRequest.accepted api haccepts
        have hok := World.ok_of_commit hexec
        obtain ⟨_, -, hnew, -⟩ := Db.screeningUpdate_eq_ok hok
        rw [← show w'.db = db by rw [hdb, Request.handle, hrun]] at hok
        refine not_holdsBookable hr hid hok fun hst => ?_
        rw [hnew] at hst
        cases hst
      | updateScreening n dto =>
        obtain ⟨⟨t, ht, hle⟩, ha, r, -, hr, hid⟩ := hx
        have haccepts : (AdminRequest.updateScreening n dto).Accepts w.db := ha
        obtain ⟨x, db, hexec, hrun⟩ := AdminRequest.accepted api haccepts
        have hok := World.ok_of_commit hexec
        obtain ⟨_, -, hnew, -⟩ := Db.screeningUpdate_eq_ok hok
        rw [← show w'.db = db by rw [hdb, Request.handle, hrun]] at hok
        refine not_holdsBookable hr hid hok fun _ => ?_
        rw [hnow, hnew, ScreeningData.apply, Option.mem_def.mp ht]
        exact hle
      | _ => exact hx.elim

/-- In every history: checkout charges for bookable screenings only, in every state, exactly
if no turn closes a screening on which there is a hold still to be paid. -/
theorem sells_bookable_iff (ys : List (Turn Request A)) (hw : SellsBookable api w) :
    Always api Request.handle (SellsBookable api) ys w ↔
      Throughout api Request.handle (fun x v _ => ¬ x.Closes v) ys w :=
  always_iff (I := HoldsBookable) (fun _ => HoldsBookable.sells)
    (fun _ _ _ hv hx h => turn_bookable api hv hx h)
    (fun _ _ _ hv hx h hsells => turn_closed api hv (not_not.mp hx) h hsells.holds) ys
    (sells_iff.mp hw)

/-- A seat is held for an hour that passes. -/
theorem theatre_sells_bookable : Always testMode Request.handle (SellsBookable testMode)
    [.perform (.booking (.reserve 1 ⟨1, 1⟩)) inOrder, .env (.advance 3600000)] theatre := by
  have hnone : theatre.db.reservations.rows = [] := by decide +kernel
  have hw : SellsBookable testMode theatre :=
    sells_iff.mpr fun r hr => absurd (hnone ▸ hr.mem) List.not_mem_nil
  exact (sells_bookable_iff testMode _ hw).mpr (by decide +kernel)

/-- A seat is held, and the screening is called off. -/
def calledOff : List (Turn Request Account.Action) :=
  [.perform (.booking (.reserve 1 ⟨1, 1⟩)) inOrder, .perform (.admin (.cancelScreening 1)) []]

/-- The user is asked to pay all the same. -/
theorem called_off_charged :
    ¬ ∀ ys, Always testMode Request.handle (SellsBookable testMode) ys theatre := by
  intro h
  have hlast : ∀ w ∈ history testMode Request.handle calledOff theatre,
      Along (World.exec testMode) ChargesBookable (PaymentsService.createCheckoutSession 1 1) w :=
    fun w hw => (h calledOff).last hw 1 1
  have hcharged : ¬ ∀ w ∈ history testMode Request.handle calledOff theatre,
      Along (World.exec testMode) ChargesBookable
        (PaymentsService.createCheckoutSession 1 1) w := by
    decide +kernel
  exact hcharged hlast

end Histories

end MovieReservation
