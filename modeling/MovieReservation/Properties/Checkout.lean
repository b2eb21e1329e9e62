import MovieReservation.Services.Paths
import MovieReservation.Services.Steps
import MovieReservation.Services.TestMode

/-! A checkout session that can be paid is covered by a hold. The checkout reads that
the reservation is HELD and extends the hold at its end, without looking at the status
again; in between lie the creation of the payment and a call to Stripe. So the hold
covers the session exactly if nothing took the reservation out of HELD meanwhile. -/

namespace MovieReservation

open Lib Lib.Prog Lib.System Lib.Table

variable {σ A : Type}

def Held (id : ℕ) (db : Db) : Prop := ∃ r ∈ db.reservations.get id, r.status = .held

/-- Reservation `id` is HELD until `t`, and nobody else has its seat. -/
def Covered (id : ℕ) (t : Time) (db : Db) : Prop :=
  (∃ r ∈ db.reservations.get id, r.status = .held ∧ r.heldUntil = some t) ∧ ¬ SeatTaken id db

instance (id : ℕ) (t : Time) : DecidablePred (Covered id t) := fun db =>
  inferInstanceAs (Decidable ((∃ r ∈ db.reservations.get id,
    r.status = .held ∧ r.heldUntil = some t) ∧ ¬ SeatTaken id db))

/-- The database does not carry the statement out. -/
def Refused {α : Type} (x : Except Err α) : Prop := ∃ e, x = .error e

/-- The command does not take reservation `id` out of HELD: it is no write of its status
(by a cancel or a confirmation), no sweep after its deadline, and a transaction of the
reconciliation over it is refused. -/
def StaysHeld (id : ℕ) : ℕ → BookingRequest → Cmd → World σ → Prop
  | _, _, .reservationUpdate n d, _ => n = id → d.status = none
  | _, _, .releaseExpiredHolds now, w =>
    ∀ r ∈ w.db.reservations.get id, ∀ t ∈ r.heldUntil, now ≤ t
  | _, _, .declineWithReservation p n, w => n = id → Refused (w.db.declineWithReservation p n)
  | _, _, .confirmWithReservation p n intent, w =>
    n = id → Refused (w.db.confirmWithReservation p n intent)
  | _, _, _, _ => True

section Step
variable {api : StripeApi σ A} {i : ℕ} {op : BookingRequest} {c : Cmd}
  {w : World σ} {id : ℕ}

/-- The partial index keeps everyone else off the seat of a held reservation. -/
theorem Held.not_seatTaken {db : Db} (h : Held id db) : ¬ SeatTaken id db := by
  obtain ⟨r, hr, hheld⟩ := h
  rintro ⟨r', hr', s, hs, hne, hactive, hseat, hscreening⟩
  cases hr.symm.trans hr'
  have hkey : activeKey r = some (r.seatId, r.screeningId) :=
    activeKey_eq_some.mpr ⟨by rw [hheld]; rfl, rfl⟩
  have hkey' : activeKey s = some (r.seatId, r.screeningId) :=
    activeKey_eq_some.mpr ⟨hactive, by rw [hseat, hscreening]⟩
  have hsr := db.reservation_active_seat_screening_key.eq hs (mem_of_get hr) hkey' hkey
  exact hne (hsr ▸ id_of_get hr)

theorem isSome_step (hc : BookingCmd op c) (h : (w.db.reservations.get id).isSome) :
    ((World.exec api c w).2.db.reservations.get id).isSome := by
  obtain ⟨r, hr⟩ := Option.isSome_iff_exists.mp h
  obtain ⟨s, hs, -⟩ := reservation_step api hc hr
  rw [hs]
  rfl

/-- No command brings a reservation back to HELD. -/
theorem held_lost (hc : BookingCmd op c) (hsome : (w.db.reservations.get id).isSome)
    (h : ¬ Held id w.db) : ¬ Held id (World.exec api c w).2.db := by
  obtain ⟨r, hr⟩ := Option.isSome_iff_exists.mp hsome
  have hst : r.status ≠ .held := fun hst => h ⟨r, hr, hst⟩
  obtain ⟨s, hs, hrw⟩ := reservation_step api hc hr
  rintro ⟨s', hs', hheld⟩
  cases hs.symm.trans hs'
  cases hrw with
  | keep => exact hst hheld
  | lapse _ hr' => exact hst hr'
  | extend => exact hst hheld
  | cancel => cases hheld
  | confirm => cases hheld
  | decline => cases hheld
  | settle => cases hheld

theorem held_of_update {db' : Db} {n : ℕ} {d : ReservationData} {x : Reservation}
    (hu : w.db.reservationUpdate n d = .ok (x, db')) (h : Held id w.db) :
    Held id db' ↔ (n = id → d.status.getD .held = .held) := by
  obtain ⟨r, hr, hheld⟩ := h
  have hget := Db.reservationUpdate_get hu hr
  unfold Held
  rw [hget]
  split_ifs with hn
  · simp [hn, ReservationData.apply, hheld]
  · simp [hheld, Ne.symm hn]

/-- The write of a status goes through on a held reservation, and takes it out of HELD. -/
theorem held_of_write {n : ℕ} {d : ReservationData} {status : ReservationStatus}
    (hd : d.status = some status) (hst : status ≠ .held) (h : Held id w.db) :
    Held id (w.commit (w.db.reservationUpdate n d)).2.db ↔ (n = id → d.status = none) := by
  rw [hd]
  rcases w.commit_cases (w.db.reservationUpdate n d) with ⟨x, db', hok, hcm⟩ | ⟨e, herr, hcm⟩
  · rw [hcm, held_of_update hok h, hd]
    simp [hst]
  · rw [hcm]
    refine iff_of_true h fun hn => ?_
    subst hn
    obtain ⟨r, hr, hheld⟩ := id h
    have hfree : ¬ w.db.reservations.Clash activeKey n (activeKey (d.apply r)) := by
      rintro ⟨s, hs, hne, hkey, hk⟩
      obtain ⟨key, hkey⟩ := Option.isSome_iff_exists.mp hkey
      rw [hkey] at hk
      obtain ⟨hactive, he⟩ := activeKey_eq_some.mp hk
      obtain ⟨-, he'⟩ := activeKey_eq_some.mp hkey
      obtain ⟨hseat, hscreening⟩ := Prod.mk.inj (he.trans he'.symm)
      exact h.not_seatTaken ⟨r, hr, s, hs, hne, hactive, hseat, hscreening⟩
    obtain ⟨db', hok⟩ := Db.reservationUpdate_ok hr hfree
    rw [hok] at herr
    cases herr

/-- A transaction of the reconciliation takes the reservation out of HELD if it goes
through. -/
theorem held_of_updateBoth {pid n : ℕ} {d : PaymentData} {e : ReservationData}
    {status : ReservationStatus} (he : e.status = some status) (hst : status ≠ .held)
    (h : Held id w.db) :
    Held id (w.commit (w.db.updateBoth pid d n e)).2.db ↔
      (n = id → Refused (w.db.updateBoth pid d n e)) := by
  rcases w.commit_cases (w.db.updateBoth pid d n e) with ⟨x, db', hok, hcm⟩ | ⟨err, herr, hcm⟩
  · obtain ⟨r, hr, hheld⟩ := h
    have hget := (Db.updateBoth_get hok hr).2
    have hthrough : ¬ Refused (w.db.updateBoth pid d n e) := by
      rintro ⟨err, herr⟩
      rw [hok] at herr
      cases herr
    rw [hcm]
    unfold Held
    rw [hget]
    split_ifs with hn
    · simp [hn, ReservationData.apply, he, hst, hthrough]
    · simp [hheld, Ne.symm hn]
  · rw [hcm]
    exact iff_of_true h fun _ => ⟨err, herr⟩

theorem staysHeld_quiet (hc : c.quiet) : StaysHeld id i op c w := by
  cases c
  case reservationUpdate => cases hc
  case releaseExpiredHolds => cases hc
  case declineWithReservation => cases hc
  case confirmWithReservation => cases hc
  all_goals trivial

theorem held_step (hc : BookingCmd op c) (h : Held id w.db) :
    Held id (World.exec api c w).2.db ↔ StaysHeld id i op c w := by
  have hkeeps : (∀ r s, Rewrite w.db id c r s → s = r) → Held id (World.exec api c w).2.db := by
    intro hsame
    obtain ⟨r, hr, hheld⟩ := h
    obtain ⟨s, hs, hrw⟩ := reservation_step api hc hr
    rw [hsame r s hrw] at hs
    exact ⟨r, hs, hheld⟩
  cases hc with
  | quiet hq =>
    rw [World.exec_quiet api hq]
    exact iff_of_true h (staysHeld_quiet hq)
  | session _ _ => exact iff_of_true h trivial
  | holdSeat p _ | pay _ _ | payment _ _ _ | drop _ _ =>
    refine iff_of_true (hkeeps fun r s hrw => ?_) trivial
    cases hrw
    rfl
  | sweep t _ =>
    obtain ⟨r, hr, hheld⟩ := h
    rw [Option.mem_def] at hr
    have hget : (World.exec api (.releaseExpiredHolds t) w).2.db.reservations.get id =
        some (Db.release t r) := by
      show (w.db.reservations.update (Db.release t) (Db.release_id t)).get id = _
      rw [get_update, hr, Option.map_some]
    simp only [Held, StaysHeld, hget, hr, Option.mem_def, Option.some.injEq, exists_eq_left',
      forall_eq']
    unfold Db.release Db.expired
    cases hu : r.heldUntil with
    | none => simp [hheld]
    | some u =>
      by_cases hlt : u < t
      · simp [hheld, hlt]
      · simp [hheld, hlt, Int.not_lt.mp hlt]
  | extend n t hs =>
    refine iff_of_true ?_ fun _ => rfl
    refine World.commit_rule (P := Held id) h fun a db' hok => ?_
    rw [held_of_update hok h]
    exact fun _ => rfl
  | confirm n _ => exact held_of_write rfl nofun h
  | cancel n _ => exact held_of_write rfl nofun h
  | decline p n hj => exact held_of_updateBoth rfl nofun h
  | settle p n intent hj => exact held_of_updateBoth rfl nofun h

end Step

/-- Between two points of a run the reservation stays HELD exactly if every command in
between leaves it so. -/
theorem held_between_iff (api : StripeApi σ A) {id : ℕ}
    (xs : List (Choice Err BookingRequest (Env A)))
    {p q : Pool Cmd Cmd.Reply Err (World σ) BookingRequest Response}
    (hp : Within BookingCmd p)
    (h : Held id p.state.db) (hx : (bookingSystem api).schedule xs p = some q) :
    Held id q.state.db ↔ (bookingSystem api).AllMeet (StaysHeld id) xs p := by
  have hsome : (p.state.db.reservations.get id).isSome := by
    obtain ⟨r, hr, -⟩ := h
    rw [hr]
    rfl
  refine Within.keeps_iff (I := fun v => Held id v.db)
    (J := fun v => (v.db.reservations.get id).isSome) BookingRequest.handle_only ?_ ?_ ?_ ?_ xs hp
    hsome h hx
  · intro e v
    rw [show ((bookingSystem api).env e v).db = v.db from World.elapse_db api e v]
    exact ⟨Iff.rfl, Iff.rfl⟩
  · intro i op c v hc hv
    exact isSome_step hc hv
  · intro i op c v hc hv hI
    exact held_lost hc hv hI
  · intro i op c v hc hv hI
    exact held_step hc hI

/-- The extension keeps the status, so it covers a reservation exactly if that was HELD. -/
theorem covered_of_extend (api : StripeApi σ A) {w : World σ} {id : ℕ} {t : Time} {x : Reservation}
    (h : (World.exec api (.reservationUpdate id { heldUntil := some (some t) }) w).1 = .ok x) :
    Covered id t (World.exec api (.reservationUpdate id { heldUntil := some (some t) }) w).2.db ↔
      Held id w.db := by
  simp only [World.exec] at h ⊢
  rcases w.commit_cases (w.db.reservationUpdate id { heldUntil := some (some t) }) with
    ⟨y, db', hok, hcm⟩ | ⟨e, -, hcm⟩
  · obtain ⟨r, hr, -, -, -⟩ := Db.reservationUpdate_eq_ok hok
    have hget := Db.reservationUpdate_get hok hr
    rw [if_pos rfl] at hget
    rw [hcm]
    constructor
    · rintro ⟨⟨r', hr', hheld, -⟩, -⟩
      cases hget.symm.trans hr'
      exact ⟨r, hr, hheld⟩
    · intro hheld
      have hheld' : Held id db' := (held_of_update hok hheld).mpr fun _ => rfl
      have hfree := hheld'.not_seatTaken
      obtain ⟨r', hr', hst⟩ := hheld'
      cases hget.symm.trans hr'
      exact ⟨⟨_, hget, hst, rfl⟩, hfree⟩
  · rw [hcm] at h
    cases h

/-- In every run and for every checkout in it that returned a URL: the run passes the
step that read the reservation as HELD and, later, the one in which `extendHold`
commits, for the `expires_at` the session was created with; and there the hold covers
the session exactly if every command in between left the reservation HELD. -/
theorem checkout_covered_iff (api : StripeApi σ A) (w : World σ)
    (xs : List (Choice Err BookingRequest (Env A)))
    (p : Pool Cmd Cmd.Reply Err (World σ) BookingRequest Response)
    (hx : (bookingSystem api).schedule xs ⟨w, []⟩ = some p) (i u id : ℕ) (url : String)
    (hi : p.procs[i]? = some (.createCheckoutSession u id, .done (.ok (.url url)))) :
    ∃ before between after m n q params s, xs = before ++ .step i .answered ::
        (between ++ .step i .answered :: after) ∧
      (bookingSystem api).schedule (before ++ [.step i .answered]) ⟨w, []⟩ = some m ∧
      Held id m.state.db ∧ (bookingSystem api).schedule between m = some n ∧
      (i, ⟨.sessionsCreate params, .ok s⟩) ∈ (bookingSystem api).trace between m ∧ s.url = url ∧
      (∃ x, (bookingSystem api).answers (.step i .answered) n =
        [(i, ⟨.reservationUpdate id { heldUntil := some (some (params.expiresAt * 1000)) },
          .ok x⟩)]) ∧
      (bookingSystem api).act (.step i .answered) n = some q ∧
      (Covered id (params.expiresAt * 1000) q.state.db ↔
        (bookingSystem api).AllMeet (StaysHeld id) between m) := by
  obtain ⟨r, l₁, l₂, params, s, x, hheld, hurl, hown⟩ :=
    PaymentsService.sold_trail ((onPath hx).follows i _ _ hi)
  rw [← List.nil_append (_ :: _)] at hown
  obtain ⟨before, o, rest, m₀, m, rfl, hbefore, hread, hrest, -, hans, hown'⟩ :=
    split_at_answer _ i xs hx hown
  obtain ⟨op, k, rfl, hproc, hexec, hstate⟩ := answered_step _ hans hread
  rw [← List.cons_append, ← List.append_assoc] at hown'
  obtain ⟨between, o', after, n, q, rfl, hbetween, hact, -, hopened, hans', -⟩ :=
    split_at_answer _ i rest hrest hown'
  obtain ⟨op', k', rfl, hproc', hexec', hstate'⟩ := answered_step _ hans' hact
  have hm : (bookingSystem api).schedule (before ++ [.step i .answered]) ⟨w, []⟩ = some m := by
    simp only [schedule_append, hbefore, Option.bind_some, schedule, hread]
  have hwithin := Within.schedule BookingRequest.handle_only _ (within_empty _ w) hm
  have hstart : Held id m.state.db := by
    rw [hstate]
    exact ⟨r, Except.ok.inj hexec, hheld⟩
  have hsession : (i, ⟨.sessionsCreate params, .ok s⟩) ∈ (bookingSystem api).trace between m := by
    rw [← mem_own, hopened]
    exact List.mem_append_right _ List.mem_cons_self
  refine ⟨before, between, after, m, n, q, params, s, rfl, hm, hstart, hbetween, hsession, hurl,
    ⟨x, hans'⟩, hact, ?_⟩
  rw [hstate', ← held_between_iff api between hwithin hstart hbetween]
  exact covered_of_extend api hexec'

/-! ### Two runs -/

/-- User 1 holds seat 1 and opens the checkout session, with nothing in between. -/
def checkoutAlone : List (Choice Err BookingRequest (Env Account.Action)) :=
  .spawn (.reserve 1 ⟨1, 1⟩) :: solo 0 8 ++ .spawn (.createCheckoutSession 1 1) :: solo 1 8

theorem covered_alone : ∃ p url, (bookingSystem testMode).schedule checkoutAlone ⟨theatre, []⟩ =
      some p ∧
    ∃ before between after m n q params s, checkoutAlone = before ++ .step 1 .answered ::
        (between ++ .step 1 .answered :: after) ∧
      (bookingSystem testMode).schedule (before ++ [.step 1 .answered]) ⟨theatre, []⟩ = some m ∧
      Held 1 m.state.db ∧ (bookingSystem testMode).schedule between m = some n ∧
      (1, ⟨.sessionsCreate params, .ok s⟩) ∈ (bookingSystem testMode).trace between m ∧
      s.url = url ∧
      (∃ x, (bookingSystem testMode).answers (.step 1 .answered) n =
        [(1, ⟨.reservationUpdate 1 { heldUntil := some (some (params.expiresAt * 1000)) },
          .ok x⟩)]) ∧
      (bookingSystem testMode).act (.step 1 .answered) n = some q ∧
      (Covered 1 (params.expiresAt * 1000) q.state.db ↔
        (bookingSystem testMode).AllMeet (StaysHeld 1) between m) := by
  have hrun : ((bookingSystem testMode).schedule checkoutAlone ⟨theatre, []⟩).any (fun p =>
      p.procs[1]?.any fun x => checkedOut x = some (1, 1, "https://checkout.stripe.com/c/pay")) =
        true := by decide +kernel
  obtain ⟨p, hp, hrest⟩ := (Option.any_eq_true _ _).mp hrun
  obtain ⟨x, hi, hx⟩ := (Option.any_eq_true _ _).mp hrest
  simp only [decide_eq_true_eq] at hx
  obtain rfl := checkedOut_eq hx
  exact ⟨p, _, hp, checkout_covered_iff testMode theatre checkoutAlone p hp 1 1 1 _ hi⟩

/-- While the session is being created user 1 gives the seat up. -/
def givenUpInBetween : List (Choice Err BookingRequest (Env Account.Action)) :=
  .spawn (.reserve 1 ⟨1, 1⟩) :: solo 0 8 ++ .spawn (.createCheckoutSession 1 1) :: solo 1 6 ++
    .spawn (.cancel 1 1) :: solo 2 3 ++ solo 1 1

theorem session_without_hold : ¬ ∀ xs p i u id url,
    (bookingSystem testMode).schedule xs ⟨theatre, []⟩ = some p →
      p.procs[i]? = some (.createCheckoutSession u id, .done (.ok (.url url))) →
        ∀ before after n q t x, xs = before ++ .step i .answered :: after →
          (bookingSystem testMode).schedule before ⟨theatre, []⟩ = some n →
          (bookingSystem testMode).answers (.step i .answered) n =
            [(i, ⟨.reservationUpdate id { heldUntil := some (some t) }, .ok x⟩)] →
          (bookingSystem testMode).act (.step i .answered) n = some q →
            Covered id t q.state.db := by
  intro h
  have hrun : ((bookingSystem testMode).schedule givenUpInBetween ⟨theatre, []⟩).any (fun n =>
      ((bookingSystem testMode).answers (.step 1 .answered) n).map
          (fun a => (a.1, extension a.2)) = [(1, some (1, 1800000))] ∧
      ((bookingSystem testMode).act (.step 1 .answered) n).any (fun q =>
        q.procs[1]?.any (fun x =>
          checkedOut x = some (1, 1, "https://checkout.stripe.com/c/pay")) ∧
        ¬ Covered 1 1800000 q.state.db)) = true := by decide +kernel
  obtain ⟨n, hn, hrest⟩ := (Option.any_eq_true _ _).mp hrun
  simp only [decide_eq_true_eq] at hrest
  obtain ⟨hans, hrest⟩ := hrest
  obtain ⟨q, hq, hbad⟩ := (Option.any_eq_true _ _).mp hrest
  simp only [decide_eq_true_eq] at hbad
  obtain ⟨hdone, hbad⟩ := hbad
  obtain ⟨⟨i, a⟩, hans', ha⟩ := List.map_eq_singleton_iff.mp hans
  rw [Prod.mk.injEq] at ha
  obtain ⟨rfl, ha⟩ := ha
  obtain ⟨x, rfl⟩ := extension_eq ha
  obtain ⟨y, hi, hy⟩ := (Option.any_eq_true _ _).mp hdone
  simp only [decide_eq_true_eq] at hy
  obtain rfl := checkedOut_eq hy
  have hall : (bookingSystem testMode).schedule (givenUpInBetween ++ [.step 1 .answered])
      ⟨theatre, []⟩ = some q := by
    simp only [schedule_append, hn, Option.bind_some, schedule, hq]
  exact hbad (h _ q 1 1 1 _ hall hi givenUpInBetween [] n q 1800000 x rfl hn hans' hq)

end MovieReservation
