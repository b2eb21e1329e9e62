import MovieReservation.Lib.Effects
import MovieReservation.Services.Sales
import MovieReservation.Services.TestMode

/-! A hold is prolonged once. The payment row that a checkout creates before it calls
Stripe is deleted by that checkout alone, and only if it fails; so while one checkout
of a reservation goes on, or once it has succeeded, the unique index over the
payments' reservations stops every other one before its extension. -/

namespace MovieReservation

open Lib Lib.Prog Lib.System Lib.Table

variable {σ A : Type} {api : StripeApi σ A}

/-- Every HELD reservation has a deadline. -/
def Deadlines (db : Db) : Prop :=
  ∀ r ∈ db.reservations.rows, r.status = .held → r.heldUntil.isSome

instance : DecidablePred Deadlines := fun db =>
  inferInstanceAs (Decidable (∀ r ∈ db.reservations.rows, r.status = .held → r.heldUntil.isSome))

theorem deadlines_step {op : BookingRequest} {c : Cmd} {w : World σ} (hc : BookingCmd op c)
    (h : Deadlines w.db) : Deadlines (World.exec api c w).2.db := by
  intro s hs hheld
  have hget := get_of_mem hs
  rw [row_reservation] at hget
  cases hr : w.db.reservations.get s.id with
  | none =>
    obtain ⟨p, -, -, hrow⟩ := reservation_born api hc hr hget
    rw [hrow]
    rfl
  | some r =>
    obtain ⟨s', hs', hrw⟩ := reservation_step api hc hr
    cases hget.symm.trans hs'
    cases hrw with
    | keep => exact h s (mem_of_get hr) hheld
    | lapse => cases hheld
    | extend => rfl
    | cancel => cases hheld
    | confirm => cases hheld
    | decline => cases hheld
    | settle => cases hheld

theorem deadlines_run (api : StripeApi σ A) {w : World σ} (h : Deadlines w.db)
    {xs : List (Choice Err BookingRequest (Env A))}
    {p : Pool Cmd Cmd.Reply Err (World σ) BookingRequest Response}
    (hx : (bookingSystem api).schedule xs ⟨w, []⟩ = some p) : Deadlines p.state.db := by
  refine Within.keeps (A := fun _ _ _ _ => True) (I := fun v => Deadlines v.db)
    BookingRequest.handle_only ?_ ?_ xs (within_empty _ w) h hx
    (allMeet_of_forall _ (fun _ _ _ _ => trivial) xs _)
  · intro e v hv
    rw [show ((bookingSystem api).env e v).db = v.db from World.elapse_db api e v]
    exact hv
  · intro i op c v hc _ hv
    exact deadlines_step hc hv

/-- A sweep after its deadline releases a held reservation. -/
theorem sweep_releases {db : Db} {r : Reservation} {t now : Time} (hr : r ∈ db.reservations.rows)
    (hheld : r.status = .held) (ht : r.heldUntil = some t) (hlt : t < now) :
    (db.releaseExpiredHolds now).2.reservations.get r.id =
      some { r with status := .cancelled, heldUntil := none } := by
  have hget := get_of_mem hr
  rw [row_reservation] at hget
  show (db.reservations.update (Db.release now) (Db.release_id now)).get r.id = _
  rw [get_update, hget, Option.map_some]
  simp [Db.release, Db.expired, hheld, ht, hlt]

/-- An extension of reservation `id` that was carried out. -/
def extensionOf (id : ℕ) (a : Answer Cmd Cmd.Reply Err) : Bool :=
  (extension a).any fun e => e.1 = id

theorem extensionOf_iff {id : ℕ} {a : Answer Cmd Cmd.Reply Err} :
    extensionOf id a ↔
      ∃ t x, a = ⟨.reservationUpdate id { heldUntil := some (some t) }, .ok x⟩ := by
  constructor
  · intro h
    obtain ⟨⟨n, t⟩, he, hn⟩ := (Option.any_eq_true _ _).mp h
    obtain ⟨x, rfl⟩ := extension_eq he
    simp only [decide_eq_true_eq] at hn
    exact ⟨t, x, by rw [hn]⟩
  · rintro ⟨t, x, rfl⟩
    simp [extensionOf, extension]

/-! ### The seller -/

section Seller
variable {tr : Log} {p : Pool Cmd Cmd.Reply Err (World σ) BookingRequest Response} {i j id : ℕ}
  {a b : Answer Cmd Cmd.Reply Err}

/-- Who was told of an extension created the payment, never deletes it and extends no
second time. -/
theorem seller (hpath : OnPath (bookingSystem api) tr p) (hmem : (i, a) ∈ tr)
    (ha : extensionOf id a) :
    ∃ d payment, (i, ⟨.paymentCreate d, .ok payment⟩) ∈ tr ∧ d.reservationId = id ∧
      (∀ n rep, (i, ⟨.paymentDelete n, rep⟩) ∉ tr) ∧ (own i tr).countP (extensionOf id) = 1 := by
  obtain ⟨t, x, rfl⟩ := extensionOf_iff.mp ha
  have hi := List.getElem?_eq_getElem (hpath.spawned _ hmem)
  have hfollows := hpath.follows i _ _ hi
  obtain ⟨r, screening, payment, now, s, y, hown⟩ :=
    PaymentsService.extension_path hfollows (mem_own.mpr hmem)
  refine ⟨PaymentsService.checkoutPayment id screening, payment, ?_, rfl, ?_, ?_⟩
  · rw [← mem_own, hown]
    simp [PaymentsService.opened]
  · intro n rep hdel
    rw [← mem_own, hown] at hdel
    simp [PaymentsService.opened] at hdel
  · rw [hown]
    simp [PaymentsService.opened, extensionOf, extension]

theorem same_seller (hpath : OnPath (bookingSystem api) tr p) (h : Sales tr p.state.db)
    (hi : (i, a) ∈ tr) (hj : (j, b) ∈ tr) (ha : extensionOf id a) (hb : extensionOf id b) :
    i = j := by
  obtain ⟨d, payment, hmem, hd, hkept, -⟩ := seller hpath hi ha
  obtain ⟨e, payment', hmem', he, hkept', -⟩ := seller hpath hj hb
  have hthere := (h.kept i d payment hmem).resolve_right fun ⟨rep, hdel⟩ => hkept _ rep hdel
  have hthere' := (h.kept j e payment' hmem').resolve_right fun ⟨rep, hdel⟩ => hkept' _ rep hdel
  exact (h.same hmem hmem' (hd.trans he.symm) hthere hthere').1

theorem extension_count (hpath : OnPath (bookingSystem api) tr p) (h : Sales tr p.state.db) :
    tr.countP (fun a => extensionOf id a.2) ≤ 1 := by
  by_cases hsome : ∃ x ∈ tr, extensionOf id x.2
  · obtain ⟨⟨i, a⟩, hmem, ha⟩ := hsome
    have hall : ∀ x ∈ tr, extensionOf id x.2 → x.1 = i := by
      intro x hx hext
      exact same_seller hpath h hx hmem hext ha
    obtain ⟨-, -, -, -, -, hone⟩ := seller hpath hmem ha
    rw [countP_own hall, hone]
  · have hnone : ∀ x ∈ tr, ¬ extensionOf id x.2 := fun x hx hext => hsome ⟨x, hx, hext⟩
    rw [List.countP_eq_zero.mpr hnone]
    exact Nat.zero_le _

/-- A checkout that returned its URL was told of its extension. -/
theorem checkedOut_extension (hpath : OnPath (bookingSystem api) tr p) {u : ℕ} {url : String}
    (hi : p.procs[i]? = some (.createCheckoutSession u id, .done (.ok (.url url)))) :
    ∃ a, (i, a) ∈ tr ∧ extensionOf id a := by
  obtain ⟨r, l₁, l₂, params, s, x, -, -, hown⟩ :=
    PaymentsService.sold_trail (hpath.follows i _ _ hi)
  refine ⟨⟨.reservationUpdate id { heldUntil := some (some (params.expiresAt * 1000)) }, .ok x⟩,
    ?_, extensionOf_iff.mpr ⟨_, _, rfl⟩⟩
  rw [← mem_own, hown]
  simp

end Seller

/-- In every run, at every interleaving and with a database statement that fails having
no effect: at most one checkout of a reservation returns a URL, its hold is extended at
most once, and a HELD reservation has a deadline after which a sweep releases it. -/
theorem one_sale (api : StripeApi σ A) (w : World σ) (hw : Deadlines w.db)
    (xs : List (Choice Err BookingRequest (Env A)))
    (p : Pool Cmd Cmd.Reply Err (World σ) BookingRequest Response)
    (hx : (bookingSystem api).schedule xs ⟨w, []⟩ = some p)
    (hacked : (bookingSystem api).AllAcked (fun c => c.writes) xs ⟨w, []⟩) (id : ℕ) :
    (∀ (i j u v : ℕ) (url url' : String),
      p.procs[i]? = some (.createCheckoutSession u id, .done (.ok (.url url))) →
        p.procs[j]? = some (.createCheckoutSession v id, .done (.ok (.url url'))) → i = j) ∧
    ((bookingSystem api).effects xs ⟨w, []⟩).countP (fun a => extensionOf id a.2) ≤ 1 ∧
    ∀ r ∈ p.state.db.reservations.rows, r.status = .held → ∃ t, r.heldUntil = some t ∧
      ∀ now, t < now → (p.state.db.releaseExpiredHolds now).2.reservations.get r.id =
        some { r with status := .cancelled, heldUntil := none } := by
  obtain ⟨hpath, hsales⟩ := trace_rule (A := fun _ _ _ _ => True)
    (I := fun tr v => Sales tr v.db) (sales_start w.db)
    (fun tr v e h => by
      rw [show ((bookingSystem api).env e v).db = v.db from World.elapse_db api e v]
      exact h)
    (fun tr v i op c k o out h hl hout _ => h.step hl hout) hx
    (allMeet_of_forall _ (fun _ _ _ _ => trivial) xs _)
  refine ⟨?_, ?_, ?_⟩
  · intro i j u v url url' hi hj
    obtain ⟨a, ha, hext⟩ := checkedOut_extension hpath hi
    obtain ⟨b, hb, hext'⟩ := checkedOut_extension hpath hj
    exact same_seller hpath hsales ha hb hext hext'
  · have herror : ∀ c e, extensionOf id ⟨c, .error e⟩ = false := by
      intro c e
      rw [Bool.eq_false_iff]
      intro h
      obtain ⟨t, x, he⟩ := extensionOf_iff.mp h
      cases he
    have hwrites : ∀ a, extensionOf id a → a.1.writes := by
      intro a h
      obtain ⟨t, x, rfl⟩ := extensionOf_iff.mp h
      rfl
    rw [countP_effects (bookingSystem api) herror hwrites xs hacked]
    exact extension_count hpath hsales
  · intro r hr hheld
    have hdeadline := deadlines_run api hw hx r hr hheld
    obtain ⟨t, ht⟩ := Option.isSome_iff_exists.mp hdeadline
    exact ⟨t, ht, fun now hlt => sweep_releases hr hheld ht hlt⟩

/-- User 1 holds seat 1 and opens two checkouts at once, of which the second finds the
payment of the first. -/
def racingCheckouts : List (Choice Err BookingRequest (Env Account.Action)) :=
  .spawn (.reserve 1 ⟨1, 1⟩) :: solo 0 8 ++ .spawn (.createCheckoutSession 1 1) ::
    .spawn (.createCheckoutSession 1 1) :: solo 1 3 ++ solo 2 3 ++ solo 1 1 ++ solo 2 1 ++ solo 1 4

theorem one_sale_of_two : ∃ p,
    (bookingSystem testMode).schedule racingCheckouts ⟨theatre, []⟩ = some p ∧
      (∀ (i j u v : ℕ) (url url' : String),
        p.procs[i]? = some (.createCheckoutSession u 1, .done (.ok (.url url))) →
          p.procs[j]? = some (.createCheckoutSession v 1, .done (.ok (.url url'))) → i = j) ∧
      ((bookingSystem testMode).effects racingCheckouts ⟨theatre, []⟩).countP
        (fun a => extensionOf 1 a.2) ≤ 1 ∧
      ∀ r ∈ p.state.db.reservations.rows, r.status = .held → ∃ t, r.heldUntil = some t ∧
        ∀ now, t < now → (p.state.db.releaseExpiredHolds now).2.reservations.get r.id =
          some { r with status := .cancelled, heldUntil := none } := by
  have hrun : ((bookingSystem testMode).schedule racingCheckouts ⟨theatre, []⟩).isSome ∧
      (bookingSystem testMode).AllAcked (fun c => c.writes) racingCheckouts ⟨theatre, []⟩ ∧
      Deadlines theatre.db := by decide +kernel
  obtain ⟨hsome, hacked, hstart⟩ := hrun
  obtain ⟨p, hp⟩ := Option.isSome_iff_exists.mp hsome
  exact ⟨p, hp, one_sale testMode theatre hstart racingCheckouts p hp hacked 1⟩

end MovieReservation
