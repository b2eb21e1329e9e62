import MovieReservation.Services.Steps
import MovieReservation.Services.TestMode

/-! A cancelled reservation stays cancelled, as long as no payment that comes in late
confirms it. Of the commands that write the status column only the two confirmations
can bring a CANCELLED row back, and neither looks at the status it overwrites. -/

namespace MovieReservation

open Lib Lib.Table

variable {σ A : Type}

def Cancelled (id : ℕ) (db : Db) : Prop :=
  ∃ r ∈ db.reservations.get id, r.status = .cancelled

instance (id : ℕ) : DecidablePred (Cancelled id) := fun db =>
  inferInstanceAs (Decidable (∃ r ∈ db.reservations.get id, r.status = .cancelled))

/-- A CANCELLED reservation is not confirmed, unless its seat has gone to another, for
then the index refuses the write. -/
def NoRevival : ℕ → BookingRequest → Cmd → World σ → Prop
  | _, _, .reservationUpdate id d, w =>
    d.status = some .confirmed → Cancelled id w.db → SeatTaken id w.db
  | _, _, .confirmWithReservation _ id _, w => Cancelled id w.db → SeatTaken id w.db
  | _, _, _, _ => True

instance (i : ℕ) (op : BookingRequest) (c : Cmd) (w : World σ) :
    Decidable (NoRevival i op c w) := by
  induction c using Cmd.casesOn <;> unfold NoRevival <;> infer_instance

theorem cancelled_step {api : StripeApi σ A} {i : ℕ} {op : BookingRequest} {c : Cmd}
    {w : World σ} {id : ℕ} (hc : BookingCmd op c) (ha : NoRevival i op c w)
    (h : Cancelled id w.db) : Cancelled id (World.exec api c w).2.db := by
  obtain ⟨r, hr, hst⟩ := h
  obtain ⟨s, hs, hrw⟩ := reservation_step api hc hr
  refine ⟨s, hs, ?_⟩
  cases hrw with
  | keep => exact hst
  | lapse => rfl
  | extend => exact hst
  | cancel => rfl
  | confirm _ hfree => exact absurd (ha rfl ⟨r, hr, hst⟩) hfree
  | decline => rfl
  | settle _ _ _ _ hfree => exact absurd (ha ⟨r, hr, hst⟩) hfree

/-- In a run from any point of any run, a reservation that is CANCELLED there is
CANCELLED at the end, if the commands in between meet `NoRevival`. -/
theorem cancelled_is_terminal (api : StripeApi σ A) (w : World σ)
    (xs ys : List (Choice Err BookingRequest (Env A)))
    (p q : Pool Cmd Cmd.Reply Err (World σ) BookingRequest Response)
    (hx : (bookingSystem api).schedule xs ⟨w, []⟩ = some p)
    (hy : (bookingSystem api).schedule ys p = some q)
    (ha : (bookingSystem api).AllMeet NoRevival ys p) (id : ℕ) (h : Cancelled id p.state.db) :
    Cancelled id q.state.db := by
  have hp := System.Within.schedule BookingRequest.handle_only xs (System.within_empty _ w) hx
  refine System.Within.keeps (I := fun v => Cancelled id v.db) BookingRequest.handle_only
    (fun e v hv => ?_) (fun i op c v hc hA hv => cancelled_step hc hA hv) ys hp h hy ha
  cases e <;> exact hv

/-! ### Two runs -/

/-- User 1 holds seat 1, opens the checkout session and gives the seat up. -/
def givenUp : List (Choice Err BookingRequest (Env Account.Action)) :=
  .spawn (.reserve 1 ⟨1, 1⟩) :: System.solo 0 8 ++
    .spawn (.createCheckoutSession 1 1) :: System.solo 1 8 ++
    .spawn (.cancel 1 1) :: System.solo 2 3

/-- User 2 holds the seat, and only then does the payment come in. -/
def takenBeforePaid : List (Choice Err BookingRequest (Env Account.Action)) :=
  .spawn (.reserve 2 ⟨1, 1⟩) :: System.solo 3 8 ++ .env (.stripe (.pay 1)) ::
    .spawn (.webhook (.ok sessionPaid)) :: System.solo 4 3

theorem stays_cancelled : ∃ p q,
    (bookingSystem testMode).schedule givenUp ⟨theatre, []⟩ = some p ∧
      (bookingSystem testMode).schedule takenBeforePaid p = some q ∧ Cancelled 1 q.state.db := by
  have hrun : ((bookingSystem testMode).schedule givenUp ⟨theatre, []⟩).any (fun p =>
      ((bookingSystem testMode).schedule takenBeforePaid p).isSome ∧
        (bookingSystem testMode).AllMeet NoRevival takenBeforePaid p ∧
          Cancelled 1 p.state.db) = true := by decide +kernel
  obtain ⟨p, hp, hrest⟩ := (Option.any_eq_true _ _).mp hrun
  simp only [decide_eq_true_eq] at hrest
  obtain ⟨hsome, hmeet, hcancelled⟩ := hrest
  obtain ⟨q, hq⟩ := Option.isSome_iff_exists.mp hsome
  exact ⟨p, q, hp, hq,
    cancelled_is_terminal testMode theatre givenUp takenBeforePaid p q hp hq hmeet 1 hcancelled⟩

/-- The payment comes in for the seat that was given up and is still free. -/
def paidAfterwards : List (Choice Err BookingRequest (Env Account.Action)) :=
  .env (.stripe (.pay 1)) :: .spawn (.webhook (.ok sessionPaid)) :: System.solo 3 5

theorem cancelled_then_confirmed : ¬ ∀ xs ys p q,
    (bookingSystem testMode).schedule xs ⟨theatre, []⟩ = some p →
      (bookingSystem testMode).schedule ys p = some q →
        ∀ id, Cancelled id p.state.db → Cancelled id q.state.db := by
  intro h
  have hrun : ((bookingSystem testMode).schedule givenUp ⟨theatre, []⟩).any (fun p =>
      Cancelled 1 p.state.db ∧ ((bookingSystem testMode).schedule paidAfterwards p).any (fun q =>
        ¬ Cancelled 1 q.state.db)) = true := by decide +kernel
  obtain ⟨p, hp, hrest⟩ := (Option.any_eq_true _ _).mp hrun
  simp only [decide_eq_true_eq] at hrest
  obtain ⟨hcancelled, hrest⟩ := hrest
  obtain ⟨q, hq, hbad⟩ := (Option.any_eq_true _ _).mp hrest
  simp only [decide_eq_true_eq] at hbad
  exact hbad (h givenUp paidAfterwards p q hp hq 1 hcancelled)

end MovieReservation
