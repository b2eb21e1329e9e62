import MovieReservation.Properties.Collections
import MovieReservation.Services.SeatStatus
import MovieReservation.Services.TestMode

/-! The box office: who has a seat of a screening, and how it changes hands. A seat is free,
held or sold; a machine with one transition for each thing that can happen to it says who
may make it happen. Every step of the services, in any interleaving, is a step of that
machine, so a seat never goes from one customer to the next without being free in between. -/

namespace MovieReservation

open Lib Lib.Prog Lib.Table Lib.System

/-! ### The machine of one seat -/

/-- Who has a seat: the reservation and its user. -/
inductive Place where
  | free
  | held (id userId : ℕ)
  | sold (id userId : ℕ)
  deriving DecidableEq, Repr

/-- The reservation that has the seat. -/
def Place.ticket : Place → Option ℕ
  | free => none
  | held id _ | sold id _ => some id

/-- What may happen to a seat of a screening, and through whose request, of what it was told
before. A payment that comes in for a hold that was given up takes the seat back. -/
inductive Place.Next (s seat : ℕ) : Request → Trail → Place → Place → Prop
  | stay (op : Request) (l : Trail) (p : Place) : Next s seat op l p p
  | hold {u : ℕ} {dto : CreateReservationDto} (l : Trail) (id : ℕ) : dto.screeningId = s →
    dto.seatId = seat → Next s seat (.booking (.reserve u dto)) l free (held id u)
  | pay {op : Request} {l : Trail} (id u : ℕ) : Collected id op l →
    Next s seat op l (held id u) (sold id u)
  | late {op : Request} {l : Trail} (id u : ℕ) : Collected id op l →
    Next s seat op l free (sold id u)
  | giveUp (l : Trail) (n id u : ℕ) : Next s seat (.booking (.cancel u n)) l (held id u) free
  | refund (l : Trail) (n id u : ℕ) : Next s seat (.booking (.cancel u n)) l (sold id u) free
  | lapse (l : Trail) (id u : ℕ) : Next s seat (.booking .expireHolds) l (held id u) free
  | decline (l : Trail) (p : Place) : Next s seat (.booking .reconcilePayments) l p free
  | withdraw {op : AdminRequest} (l : Trail) (p : Place) : op.Withdraws →
    Next s seat (.admin op) l p free

/-- A step either keeps the reservation that has the seat, or begins or ends free. -/
theorem Place.Next.ticket {s seat : ℕ} {op : Request} {l : Trail} {p q : Place}
    (h : Next s seat op l p q) :
    p.ticket = q.ticket ∨ p = free ∨ q = free := by
  cases h with
  | stay => exact .inl rfl
  | hold => exact .inr (.inl rfl)
  | pay => exact .inl rfl
  | late => exact .inr (.inl rfl)
  | giveUp => exact .inr (.inr rfl)
  | refund => exact .inr (.inr rfl)
  | lapse => exact .inr (.inr rfl)
  | decline => exact .inr (.inr rfl)
  | withdraw => exact .inr (.inr rfl)

/-! ### The machine in the database -/

section Occupant
variable {db db' : Db} {s seat : ℕ} {r : Reservation}

instance (s seat : ℕ) (r : Reservation) : Decidable (r.Occupies s seat) :=
  inferInstanceAs (Decidable (r.screeningId = s ∧ r.seatId = seat ∧ r.status.active))

def Reservation.place (r : Reservation) : Place :=
  match r.status with
  | .held => .held r.id r.userId
  | .confirmed => .sold r.id r.userId
  | .cancelled => .free

namespace Db

/-- The active reservation of a seat. -/
def occupant (db : Db) (s seat : ℕ) : Option Reservation :=
  db.reservations.rows.find? fun r => r.Occupies s seat

def place (db : Db) (s seat : ℕ) : Place := (db.occupant s seat).elim .free Reservation.place

theorem occupant_eq_some : db.occupant s seat = some r ↔
    db.reservations.get r.id = some r ∧ r.Occupies s seat := by
  constructor
  · intro h
    exact ⟨get_of_mem (List.mem_of_find?_eq_some h), by simpa using List.find?_some h⟩
  · rintro ⟨hr, hocc⟩
    cases hq : db.occupant s seat with
    | none =>
      have hnot := List.find?_eq_none.mp hq r (mem_of_get hr)
      exact absurd (decide_eq_true hocc) hnot
    | some q =>
      have hmem := List.mem_of_find?_eq_some hq
      have hqocc : q.Occupies s seat := by simpa using List.find?_some hq
      have hid := occupies_unique (get_of_mem hmem) hr hqocc hocc
      have hget : db.reservations.get q.id = some q := get_of_mem hmem
      rw [row_reservation] at hid
      rw [hid, hr] at hget
      exact hget.symm

theorem occupant_eq_none : db.occupant s seat = none ↔
    ∀ i r, db.reservations.get i = some r → ¬ r.Occupies s seat := by
  constructor
  · intro h i r hr hocc
    have hnot := List.find?_eq_none.mp h r (mem_of_get hr)
    exact hnot (decide_eq_true hocc)
  · intro h
    refine List.find?_eq_none.mpr fun r hr hocc => ?_
    exact h _ r (get_of_mem hr) (of_decide_eq_true hocc)

theorem place_of_get {i : ℕ} (hr : db.reservations.get i = some r) (hocc : r.Occupies s seat) :
    db.place s seat = r.place := by
  have hid : r.id = i := id_of_get hr
  rw [place, occupant_eq_some.mpr ⟨by rw [hid]; exact hr, hocc⟩]
  rfl

theorem place_of_none (h : ∀ i r, db.reservations.get i = some r → ¬ r.Occupies s seat) :
    db.place s seat = .free := by
  rw [place, occupant_eq_none.mpr h]
  rfl

/-- A seat is free, or one reservation has it. -/
theorem place_cases (db : Db) (s seat : ℕ) :
    (db.place s seat = .free ∧ ∀ i r, db.reservations.get i = some r → ¬ r.Occupies s seat) ∨
      ∃ r, db.reservations.get r.id = some r ∧ r.Occupies s seat ∧ db.place s seat = r.place := by
  cases ho : db.occupant s seat with
  | none =>
    have hnone := occupant_eq_none.mp ho
    exact .inl ⟨place_of_none hnone, hnone⟩
  | some r =>
    obtain ⟨hr, hocc⟩ := occupant_eq_some.mp ho
    exact .inr ⟨r, hr, hocc, place_of_get hr hocc⟩

theorem place_congr (h : db'.reservations.rows = db.reservations.rows) :
    db'.place s seat = db.place s seat := by
  rw [place, place, occupant, occupant, h]

/-- Rows were only taken away. -/
theorem place_of_fewer (h : ∀ i r, db'.reservations.get i = some r →
    db.reservations.get i = some r) :
    db'.place s seat = db.place s seat ∨ db'.place s seat = .free := by
  rcases db'.place_cases s seat with ⟨hfree, -⟩ | ⟨r, hr, hocc, hplace⟩
  · exact .inr hfree
  · exact .inl (hplace.trans (place_of_get (h _ _ hr) hocc).symm)

end Db

theorem Reservation.Occupies.active {s seat : ℕ} {r : Reservation} (h : r.Occupies s seat) :
    r.place = .held r.id r.userId ∧ r.status = .held ∨
      r.place = .sold r.id r.userId ∧ r.status = .confirmed := by
  obtain ⟨-, -, hactive⟩ := h
  unfold Reservation.place
  cases hst : r.status with
  | held => exact .inl ⟨rfl, rfl⟩
  | confirmed => exact .inr ⟨rfl, rfl⟩
  | cancelled =>
    rw [hst] at hactive
    cases hactive

theorem not_occupies_cancelled {s seat : ℕ} {r : Reservation} (h : r.status = .cancelled) :
    ¬ r.Occupies s seat := by
  rintro ⟨-, -, hactive⟩
  rw [h] at hactive
  cases hactive

end Occupant

/-! ### Its steps -/

section Step
variable {σ A : Type} (api : StripeApi σ A) {op : BookingRequest} {c : Cmd} {w : World σ}
  {l : Trail} {s seat : ℕ}

/-- How the status of a reservation changes, and on whose request. -/
theorem rewrite_cases (hc : BookingCmd op c) (hv : Vouched (.booking op) l c) {db : Db}
    {id : ℕ} {r q : Reservation} (h : Rewrite db id c r q) : q.status = r.status ∨
      q.status = .confirmed ∧ Collected id (.booking op) l ∨
      q.status = .cancelled ∧ (op = .expireHolds ∧ r.status = .held ∨
        (∃ u n, op = .cancel u n) ∨ op = .reconcilePayments) := by
  cases h with
  | keep => exact .inl rfl
  | lapse now hheld _ _ =>
    cases hc with
    | quiet hquiet => cases hquiet
    | sweep _ hsweep => exact .inr (.inr ⟨rfl, .inl ⟨hsweep, hheld⟩⟩)
  | extend t => exact .inl rfl
  | cancel =>
    cases hc with
    | quiet hquiet => cases hquiet
    | cancel _ hcancel => exact .inr (.inr ⟨rfl, .inr (.inl hcancel)⟩)
  | confirm _ => exact .inr (.inl ⟨rfl, hv rfl⟩)
  | decline n _ =>
    cases hc with
    | quiet hquiet => cases hquiet
    | decline _ _ hreconcile => exact .inr (.inr ⟨rfl, .inr (.inr hreconcile)⟩)
  | settle n intent _ _ => exact .inr (.inl ⟨rfl, hv⟩)

theorem rewrite_home {db : Db} {id : ℕ} {r q : Reservation} (h : Rewrite db id c r q) :
    q.id = r.id ∧ q.userId = r.userId ∧ q.screeningId = r.screeningId ∧ q.seatId = r.seatId := by
  cases h <;> exact ⟨rfl, rfl, rfl, rfl⟩

/-- No command both gives up a seat and takes one. -/
theorem rewrite_exclusive {db : Db} {i j : ℕ} {r q t x : Reservation} (h : Rewrite db i c r q)
    (h' : Rewrite db j c t x) (hgone : q.status.active = false) (hr : r.status.active)
    (ht : t.status.active = false) : x.status.active = false := by
  have hrevive : q.status ≠ r.status := by
    intro he
    rw [he, hr] at hgone
    cases hgone
  cases h' with
  | keep => exact ht
  | lapse => rfl
  | extend t => exact ht
  | cancel => rfl
  | decline => rfl
  | confirm =>
    cases h with
    | keep => exact absurd rfl hrevive
    | confirm => cases hgone
  | settle =>
    cases h with
    | keep => exact absurd rfl hrevive
    | settle => cases hgone

/-- A seat is held only as the request asks for it. -/
def HoldsAsked (op : BookingRequest) (c : Cmd) : Prop :=
  ∀ p, c = .holdSeat p → ∃ u dto, op = .reserve u dto ∧ u = p.userId ∧
    p.screeningId = dto.screeningId ∧ p.seatId = dto.seatId

theorem holdsAsked_of_ne {c : Cmd} (h : ∀ p, c ≠ .holdSeat p) : HoldsAsked op c :=
  fun p hp => absurd hp (h p)

theorem holdsAsked_quiet {c : Cmd} (h : c.quiet = true) : Only (HoldsAsked op) (request c) := by
  refine (only_issue c).mpr (holdsAsked_of_ne ?_)
  rintro p rfl
  cases h

theorem reserve_asks (u : ℕ) (dto : CreateReservationDto) :
    Only (HoldsAsked (.reserve u dto)) (ReservationsService.reserve u dto) := by
  unfold ReservationsService.reserve
  refine Only.bind (holdsAsked_quiet rfl) fun lockedOut => ?_
  rw [only_throwIf_bind]
  intro _
  refine Only.bind (holdsAsked_quiet rfl) fun screening => ?_
  cases screening with
  | none => trivial
  | some screening =>
    simp only [only_throwIf_bind]
    intro _
    refine Only.bind (holdsAsked_quiet rfl) fun t => ?_
    rw [only_throwIf_bind]
    intro _
    refine Only.bind (holdsAsked_quiet rfl) fun t' => ?_
    refine Only.bind (holdsAsked_quiet rfl) fun _ => ?_
    refine Only.bind (Only.ensuring ?_ (holdsAsked_quiet rfl)) fun r => ?_
    · refine Only.tryCatch ((only_issue _).mpr ?_) fun e => ?_
      · rintro p ⟨⟩
        exact ⟨u, dto, rfl, rfl, rfl, rfl⟩
      · split_ifs <;> trivial
    · exact Only.bind (holdsAsked_quiet rfl) fun _ => trivial

/-- Only a request to reserve holds a seat. -/
theorem holdsAsked_of_booking {c : Cmd} (hop : ∀ u dto, op ≠ .reserve u dto)
    (hc : BookingCmd op c) : HoldsAsked op c := by
  rintro p rfl
  cases hc with
  | quiet hquiet => cases hquiet
  | holdSeat _ hreserve =>
    obtain ⟨dto, rfl⟩ := hreserve
    exact absurd rfl (hop _ dto)

theorem BookingRequest.handle_holds (op : BookingRequest) : Only (HoldsAsked op) op.handle := by
  by_cases hop : ∃ u dto, op = .reserve u dto
  · obtain ⟨u, dto, rfl⟩ := hop
    exact Only.bind (reserve_asks u dto) fun _ => trivial
  · refine op.handle_only.mono fun c hc => holdsAsked_of_booking (fun u dto he => ?_) hc
    exact hop ⟨u, dto, he⟩

/-- A free seat is held for who asks, or taken for paid. -/
theorem next_of_free (hc : BookingCmd op c) (hv : Vouched (.booking op) l c)
    (hholds : HoldsAsked op c)
    (hnone : ∀ i r, w.db.reservations.get i = some r → ¬ r.Occupies s seat) :
    Place.Next s seat (.booking op) l .free ((World.exec api c w).2.db.place s seat) := by
  rcases (World.exec api c w).2.db.place_cases s seat with ⟨hfree, -⟩ | ⟨t, ht, hocc, hplace⟩
  · rw [hfree]
    exact .stay _ _ _
  rw [hplace]
  cases ht₀ : w.db.reservations.get t.id with
  | none =>
    obtain ⟨p, rfl, -, hrow⟩ := reservation_born api hc ht₀ ht
    obtain ⟨u, dto, rfl, huser, hscreening, hseat⟩ := hholds p rfl
    rw [hrow] at hocc ⊢
    subst huser
    exact .hold l _ (hscreening.symm.trans hocc.1) (hseat.symm.trans hocc.2.1)
  | some t₀ =>
    obtain ⟨t', ht', hrw⟩ := reservation_step api hc ht₀
    obtain rfl : t' = t := Option.some.inj (ht'.symm.trans ht)
    obtain ⟨-, -, hscreening, hseat⟩ := rewrite_home hrw
    rcases rewrite_cases hc hv hrw with hst | ⟨hst, hcollects⟩ | ⟨hst, -⟩
    · have hocc₀ : t₀.Occupies s seat :=
        ⟨hscreening.symm.trans hocc.1, hseat.symm.trans hocc.2.1, hst ▸ hocc.2.2⟩
      exact absurd hocc₀ (hnone _ _ ht₀)
    · rw [Reservation.place, hst]
      exact .late _ _ hcollects
    · exact absurd hocc (not_occupies_cancelled hst)

/-- The command that cancels a reservation leaves its seat free. -/
theorem free_of_cancelled (hc : BookingCmd op c) {r q : Reservation}
    (hr : w.db.reservations.get r.id = some r) (hocc : r.Occupies s seat)
    (hq : (World.exec api c w).2.db.reservations.get r.id = some q)
    (hrw : Rewrite w.db r.id c r q) (hst : q.status = .cancelled) :
    (World.exec api c w).2.db.place s seat = .free := by
  refine Db.place_of_none fun i t ht htocc => ?_
  cases ht₀ : w.db.reservations.get i with
  | none =>
    obtain ⟨p, rfl, -, -⟩ := reservation_born api hc ht₀ ht
    cases hrw
    exact not_occupies_cancelled hst hocc
  | some t₀ =>
    obtain ⟨t', ht', hrw'⟩ := reservation_step api hc ht₀
    obtain rfl : t' = t := Option.some.inj (ht'.symm.trans ht)
    obtain ⟨-, -, hscreening, hseat⟩ := rewrite_home hrw'
    by_cases hactive : t₀.status.active
    · have hi : i = r.id := Db.occupies_unique ht₀ hr
        ⟨hscreening.symm.trans htocc.1, hseat.symm.trans htocc.2.1, hactive⟩ hocc
      subst hi
      obtain rfl : t' = q := Option.some.inj (ht.symm.trans hq)
      exact not_occupies_cancelled hst htocc
    · have hdead := rewrite_exclusive hrw hrw' (by rw [hst]; rfl) hocc.2.2
        (Bool.eq_false_iff.mpr hactive)
      rw [htocc.2.2] at hdead
      cases hdead

/-- A booking command moves every seat as the machine allows. -/
theorem place_booking (hc : BookingCmd op c) (hv : Vouched (.booking op) l c)
    (hholds : HoldsAsked op c)
    (hown : ∀ u n, op = .cancel u n → Untouched u w.db (World.exec api c w).2.db) :
    Place.Next s seat (.booking op) l (w.db.place s seat)
      ((World.exec api c w).2.db.place s seat) := by
  rcases w.db.place_cases s seat with ⟨hfree, hnone⟩ | ⟨r, hr, hocc, hplace⟩
  · rw [hfree]
    exact next_of_free api hc hv hholds hnone
  rw [hplace]
  obtain ⟨q, hq, hrw⟩ := reservation_step api hc hr
  obtain ⟨hid, huser, hscreening, hseat⟩ := rewrite_home hrw
  have hplaced : q.status.active → (World.exec api c w).2.db.place s seat = q.place :=
    fun hactive => Db.place_of_get hq ⟨hscreening.trans hocc.1, hseat.trans hocc.2.1, hactive⟩
  rcases rewrite_cases hc hv hrw with hst | ⟨hst, hcollects⟩ | ⟨hst, hwhy⟩
  · have hsame : q.place = r.place := by
      rw [Reservation.place, Reservation.place, hst, hid, huser]
    rw [hplaced (hst ▸ hocc.2.2), hsame]
    exact .stay _ _ _
  · have hsold : q.place = .sold r.id r.userId := by
      rw [Reservation.place, hst, hid, huser]
    rw [hplaced (by rw [hst]; rfl), hsold]
    rcases hocc.active with ⟨hheld, -⟩ | ⟨hdone, -⟩
    · rw [hheld]
      exact .pay _ _ hcollects
    · rw [hdone]
      exact .stay _ _ _
  · rw [free_of_cancelled api hc hr hocc hq hrw hst]
    rcases hwhy with ⟨rfl, hheld⟩ | ⟨u, n, rfl⟩ | rfl
    · rw [Reservation.place, hheld]
      exact .lapse _ _ _
    · have hmine : r.userId = u := by
        by_contra hne
        have hkept := ((hown u n rfl).reservations r.id r hne).mp hr
        obtain rfl : r = q := Option.some.inj (hkept.symm.trans hq)
        exact not_occupies_cancelled hst hocc
      subst hmine
      rcases hocc.active with ⟨hheld, -⟩ | ⟨hdone, -⟩
      · rw [hheld]
        exact .giveUp _ _ _ _
      · rw [hdone]
        exact .refund _ _ _ _
    · exact .decline _ _

/-- The administration frees seats only by withdrawing their screening. -/
theorem place_admin {op : AdminRequest} (hc : AdminCmd op c) :
    Place.Next s seat (.admin op) l (w.db.place s seat)
      ((World.exec api c w).2.db.place s seat) := by
  rcases hc.bookings api w with ⟨hsame, -⟩ | ⟨hop, hfewer⟩
  · rw [Db.place_congr (congrArg Table.rows hsame)]
    exact .stay _ _ _
  · have hplace : (World.exec api c w).2.db.place s seat = w.db.place s seat ∨
        (World.exec api c w).2.db.place s seat = .free := Db.place_of_fewer hfewer.reservations
    rcases hplace with he | he
    · rw [he]
      exact .stay _ _ _
    · rw [he]
      exact .withdraw _ _ hop

end Step

/-! ### Whole runs -/

section Run
variable {σ A : Type}

theorem place_env (api : StripeApi σ A) (e : Env A) (w : World σ) (s seat : ℕ) :
    ((serviceSystem api).env e w).db.place s seat = w.db.place s seat :=
  Db.place_congr (by rw [show ((serviceSystem api).env e w).db = w.db from World.elapse_db api e w])

/-- A command that a call makes is a step of the machine of each seat, or none. -/
theorem place_step (api : StripeApi σ A) {w : World σ} {xs : List (Choice Err Request (Env A))}
    {q q' : Pool Cmd Cmd.Reply Err (World σ) Request Response} {i : ℕ} {o : Outcome Err}
    (hx : (serviceSystem api).schedule xs ⟨w, []⟩ = some q)
    (hact : (serviceSystem api).act (.step i o) q = some q') (s seat : ℕ) :
    q'.state.db.place s seat = q.state.db.place s seat ∨
      ∃ op k, q.procs[i]? = some (op, k) ∧
        Place.Next s seat op (own i ((serviceSystem api).trace xs ⟨w, []⟩))
          (q.state.db.place s seat) (q'.state.db.place s seat) := by
  obtain ⟨hpath, htrue⟩ := stillTrue_run api hx
  obtain ⟨op, c, k, out, hi, hout, rfl, -⟩ := act_step _ hact
  rcases finish_state _ hout with hs | hs
  · exact .inl (congrArg (fun v : World σ => v.db.place s seat) hs)
  refine .inr ⟨op, _, hi, ?_⟩
  rw [show out.2 = (World.exec api c q.state).2 from hs]
  have hfollows := hpath.follows i op _ hi
  cases op with
  | admin op => exact place_admin api (hfollows.only_rest op.handle_only).1
  | booking op =>
    refine place_booking api (hfollows.only_rest op.handle_only).1
      ((handle_vouched (.booking op)).path hfollows) (hfollows.only_rest op.handle_holds).1 ?_
    · rintro u n rfl
      have hown : OwnGround u (own i ((serviceSystem api).trace xs ⟨w, []⟩)) c :=
        (BookingRequest.handle_own (.concerns .cancel)).path hfollows
      exact untouched_exec api hown fun a ha => htrue _ (mem_own.mp ha)

/-- In one step a seat keeps its reservation, had none, or becomes free. -/
theorem ticket_act (api : StripeApi σ A) {w : World σ} {xs : List (Choice Err Request (Env A))}
    {q q' : Pool Cmd Cmd.Reply Err (World σ) Request Response} {x : Choice Err Request (Env A)}
    (hx : (serviceSystem api).schedule xs ⟨w, []⟩ = some q)
    (hact : (serviceSystem api).act x q = some q') (s seat : ℕ) :
    (q.state.db.place s seat).ticket = (q'.state.db.place s seat).ticket ∨
      (q.state.db.place s seat).ticket = none ∨ q'.state.db.place s seat = .free := by
  cases x with
  | spawn op =>
    cases hact
    exact .inl rfl
  | env e =>
    cases hact
    exact .inl (congrArg Place.ticket (place_env api e q.state s seat).symm)
  | step i o =>
    rcases place_step api hx hact s seat with he | ⟨op, k, -, hnext⟩
    · exact .inl (congrArg Place.ticket he.symm)
    · rcases hnext.ticket with he | he | he
      · exact .inl he
      · exact .inr (.inl (congrArg Place.ticket he))
      · exact .inr (.inr he)

/-- **Every step of the services is a step of the machine of each seat.** -/
theorem seats_refine (api : StripeApi σ A) (w : World σ) (xs : List (Choice Err Request (Env A)))
    (q q' : Pool Cmd Cmd.Reply Err (World σ) Request Response) (x : Choice Err Request (Env A))
    (hx : (serviceSystem api).schedule xs ⟨w, []⟩ = some q)
    (hact : (serviceSystem api).act x q = some q') (s seat : ℕ) :
    q'.state.db.place s seat = q.state.db.place s seat ∨
      ∃ i o op k, x = .step i o ∧ q.procs[i]? = some (op, k) ∧
        Place.Next s seat op (own i ((serviceSystem api).trace xs ⟨w, []⟩))
          (q.state.db.place s seat) (q'.state.db.place s seat) := by
  cases x with
  | spawn op =>
    cases hact
    exact .inl rfl
  | env e =>
    cases hact
    exact .inl (place_env api e q.state s seat)
  | step i o =>
    rcases place_step api hx hact s seat with he | ⟨op, k, hi, hnext⟩
    · exact .inl he
    · exact .inr ⟨i, o, op, k, rfl, hi, hnext⟩

/-- **A seat goes from one reservation to another only by way of being free.** -/
theorem changes_hands_when_free (api : StripeApi σ A) (w : World σ)
    (xs ys : List (Choice Err Request (Env A)))
    (p q : Pool Cmd Cmd.Reply Err (World σ) Request Response)
    (hp : (serviceSystem api).schedule xs ⟨w, []⟩ = some p)
    (hq : (serviceSystem api).schedule ys p = some q) (s seat i j : ℕ)
    (hi : (p.state.db.place s seat).ticket = some i)
    (hj : (q.state.db.place s seat).ticket = some j) (hij : i ≠ j) :
    ∃ zs m, zs <+: ys ∧ (serviceSystem api).schedule zs p = some m ∧
      m.state.db.place s seat = .free := by
  induction ys generalizing xs p with
  | nil =>
    cases hq
    exact absurd (Option.some.inj (hi.symm.trans hj)) hij
  | cons x ys ih =>
    obtain ⟨m, hm, hrest⟩ := Option.bind_eq_some_iff.mp hq
    have hfirst : (serviceSystem api).schedule [x] p = some m := by
      rw [schedule, hm]
      rfl
    by_cases hfree : m.state.db.place s seat = .free
    · exact ⟨[x], m, List.cons_prefix_cons.mpr ⟨rfl, List.nil_prefix⟩, hfirst, hfree⟩
    have hkept : (m.state.db.place s seat).ticket = some i := by
      rcases ticket_act api hp hm s seat with he | he | he
      · rw [← he, hi]
      · rw [he] at hi
        cases hi
      · exact absurd he hfree
    have hx : (serviceSystem api).schedule (xs ++ [x]) ⟨w, []⟩ = some m := by
      rw [schedule_append, hp]
      exact hfirst
    obtain ⟨zs, v, hzs, hv, hvfree⟩ := ih (xs ++ [x]) m hx hrest hkept
    refine ⟨x :: zs, v, List.cons_prefix_cons.mpr ⟨rfl, hzs⟩, ?_, hvfree⟩
    rw [schedule, hm]
    exact hv

end Run

/-- User 1 holds seat 1. -/
def firstHold : List (Choice Err Request (Env Account.Action)) :=
  .spawn (.booking (.reserve 1 ⟨1, 1⟩)) :: solo 0 8

theorem hold_refines : ∃ q q', (serviceSystem testMode).schedule (firstHold.take 6) ⟨theatre, []⟩ =
    some q ∧ (serviceSystem testMode).act (.step 0 .answered) q = some q' ∧
      (q.state.db.place 1 1, q'.state.db.place 1 1) = (.free, .held 1 1) ∧
      (q'.state.db.place 1 1 = q.state.db.place 1 1 ∨ ∃ i o op k,
        Choice.step 0 Outcome.answered = (.step i o : Choice Err Request (Env Account.Action)) ∧
          q.procs[i]? = some (op, k) ∧ Place.Next 1 1 op
            (own i ((serviceSystem testMode).trace (firstHold.take 6) ⟨theatre, []⟩))
            (q.state.db.place 1 1) (q'.state.db.place 1 1)) := by
  have hrun : ((serviceSystem testMode).schedule (firstHold.take 6) ⟨theatre, []⟩).any fun q =>
      ((serviceSystem testMode).act (.step 0 .answered) q).any fun q' =>
        (q.state.db.place 1 1, q'.state.db.place 1 1) = (.free, .held 1 1) := by decide +kernel
  obtain ⟨q, hq, hrun⟩ := (Option.any_eq_true _ _).mp hrun
  obtain ⟨q', hq', hplaces⟩ := (Option.any_eq_true _ _).mp hrun
  exact ⟨q, q', hq, hq', of_decide_eq_true hplaces,
    seats_refine testMode theatre _ q q' (.step 0 .answered) hq hq' 1 1⟩

/-- User 1 gives the seat up, and user 2 holds it. -/
def passedOn : List (Choice Err Request (Env Account.Action)) :=
  .spawn (.booking (.cancel 1 1)) :: solo 1 3 ++
    .spawn (.booking (.reserve 2 ⟨1, 1⟩)) :: solo 2 8

theorem passed_on_when_free : ∃ p q, (serviceSystem testMode).schedule firstHold ⟨theatre, []⟩ =
    some p ∧ (serviceSystem testMode).schedule passedOn p = some q ∧
      q.state.db.place 1 1 = .held 2 2 ∧
      ∃ zs m, zs <+: passedOn ∧ (serviceSystem testMode).schedule zs p = some m ∧
        m.state.db.place 1 1 = .free := by
  have hrun : ((serviceSystem testMode).schedule firstHold ⟨theatre, []⟩).any fun p =>
      p.state.db.place 1 1 = .held 1 1 ∧
        ((serviceSystem testMode).schedule passedOn p).any fun q =>
          q.state.db.place 1 1 = .held 2 2 := by decide +kernel
  obtain ⟨p, hp, hrun⟩ := (Option.any_eq_true _ _).mp hrun
  obtain ⟨hfirst, hrun⟩ := of_decide_eq_true hrun
  obtain ⟨q, hq, hrun⟩ := (Option.any_eq_true _ _).mp hrun
  have hsecond : q.state.db.place 1 1 = .held 2 2 := of_decide_eq_true hrun
  refine ⟨p, q, hp, hq, hsecond, ?_⟩
  exact changes_hands_when_free testMode theatre firstHold passedOn p q hp hq 1 1 1 2
    (by rw [hfirst]; rfl) (by rw [hsecond]; rfl) (by decide)

end MovieReservation
