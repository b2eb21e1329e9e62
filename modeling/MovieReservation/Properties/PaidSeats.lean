import MovieReservation.Effects
import MovieReservation.Services.Steps
import MovieReservation.Services.TestMode

/-! Paid seats: a payment that was taken belongs to a reservation that is confirmed, or was
moved to REFUNDED. The statements of the booking handlers keep this, in any interleaving and
with any command lost on its way, as long as four writes do not go through: `cancel`
releasing a seat that was paid after it looked, a webhook that makes a payment owed whose
seat is released, the reconciliation declining a payment that was taken after it looked, and
a checkout deleting one. -/

namespace MovieReservation

open Lib Lib.Table

/-- The customer is owed the seat: the payment succeeded, or Stripe's intent is stored with it
and it is not refunded. -/
def Payment.Owed (p : Payment) : Prop :=
  p.status = .succeeded ∨ p.stripePaymentId.isSome ∧ p.status ≠ .refunded

/-- The row still tells that money was taken. -/
def Payment.Taken (p : Payment) : Prop :=
  p.status = .succeeded ∨ p.status = .refunded ∨ p.stripePaymentId.isSome

instance : DecidablePred Payment.Owed := fun p =>
  inferInstanceAs (Decidable (p.status = .succeeded ∨
    p.stripePaymentId.isSome ∧ p.status ≠ .refunded))

instance : DecidablePred Payment.Taken := fun p =>
  inferInstanceAs (Decidable (p.status = .succeeded ∨ p.status = .refunded ∨
    p.stripePaymentId.isSome))

theorem Payment.Owed.taken {p : Payment} : p.Owed → p.Taken
  | .inl hs => .inl hs
  | .inr hi => .inr (.inr hi.1)

theorem Payment.Taken.owed {p : Payment} (h : p.Taken) (hr : p.status ≠ .refunded) : p.Owed := by
  obtain hs | hs | hi := h
  · exact .inl hs
  · exact absurd hs hr
  · exact .inr ⟨hi, hr⟩

/-- The reservation is CONFIRMED. -/
def Db.Confirmed (db : Db) (id : ℕ) : Prop := ∃ r ∈ db.reservations.get id, r.status = .confirmed

instance (db : Db) : DecidablePred db.Confirmed := fun id =>
  inferInstanceAs (Decidable (∃ r ∈ db.reservations.get id, r.status = .confirmed))

def Settled (db : Db) : Prop := ∀ p ∈ db.payments.rows, p.Owed → db.Confirmed p.reservationId

instance : DecidablePred Settled := fun db =>
  inferInstanceAs (Decidable (∀ p ∈ db.payments.rows, p.Owed → db.Confirmed p.reservationId))

/-- `Settled`, leaving out the payments of one reservation. -/
def SettledBut (id : ℕ) (db : Db) : Prop :=
  ∀ p ∈ db.payments.rows, p.Owed → p.reservationId ≠ id → db.Confirmed p.reservationId

/-- No payment of the reservation is owed its seat. -/
def Unpaid (id : ℕ) (db : Db) : Prop :=
  ∀ p ∈ db.payments.rows, p.reservationId = id → ¬ p.Owed

instance (id : ℕ) : DecidablePred (Unpaid id) := fun db =>
  inferInstanceAs (Decidable (∀ p ∈ db.payments.rows, p.reservationId = id → ¬ p.Owed))

theorem Settled.but {db : Db} (h : Settled db) (id : ℕ) : SettledBut id db :=
  fun p hp hs _ => h p hp hs

/-! ### The statements -/

section Statements
variable {db db' : Db}

/-- A write to one reservation concerns its own payments only. -/
theorem SettledBut.reservationUpdate {id : ℕ} {data : ReservationData} {r : Reservation}
    (h : SettledBut id db) (hu : db.reservationUpdate id data = .ok (r, db')) :
    SettledBut id db' := by
  obtain ⟨r₀, -, -, -, ht⟩ := Db.reservationUpdate_eq_ok hu
  intro p hp hs hne
  unfold Db.Confirmed
  rw [ht] at hp ⊢
  obtain ⟨s, hsr, hsc⟩ := h p hp hs hne
  refine ⟨s, ?_, hsc⟩
  simp only [Option.mem_def, get_modify, if_neg hne]
  exact hsr

theorem settled_of_unpaid {id : ℕ} (h : SettledBut id db) (hu : Unpaid id db) : Settled db :=
  fun p hp hs => h p hp hs fun hid => hu p hp hid hs

theorem settled_cancel {id : ℕ} {r : Reservation} (h : Settled db) (hup : Unpaid id db)
    (hu : db.reservationUpdate id { status := some .cancelled } = .ok (r, db')) : Settled db' := by
  refine settled_of_unpaid ((h.but id).reservationUpdate hu) ?_
  obtain ⟨_, -, -, -, ht⟩ := Db.reservationUpdate_eq_ok hu
  intro p hp
  rw [ht] at hp
  exact hup p hp

theorem SettledBut.confirm {id : ℕ} {r : Reservation} (h : SettledBut id db)
    (hu : db.reservationUpdate id { status := some .confirmed, heldUntil := some none } =
      .ok (r, db')) : Settled db' := by
  intro p hp hs
  by_cases hid : p.reservationId = id
  · obtain ⟨r₀, hr₀, -, -, ht⟩ := Db.reservationUpdate_eq_ok hu
    refine ⟨ReservationData.apply { status := some .confirmed, heldUntil := some none } r₀, ?_, rfl⟩
    simp only [ht, hid, Option.mem_def, get_modify, if_true, hr₀, Option.map_some]
  · exact h.reservationUpdate hu p hp hs hid

theorem settled_extend {id : ℕ} {t : Time} {r : Reservation} (h : Settled db)
    (hu : db.reservationUpdate id { heldUntil := some (some t) } = .ok (r, db')) :
    Settled db' := by
  intro p hp hs
  by_cases hid : p.reservationId = id
  · obtain ⟨r₀, hr₀, -, -, ht⟩ := Db.reservationUpdate_eq_ok hu
    unfold Db.Confirmed
    rw [ht] at hp ⊢
    obtain ⟨s, hsr, hsc⟩ := h p hp hs
    rw [hid, Option.mem_def, hr₀, Option.some.injEq] at hsr
    rw [hid]
    refine ⟨ReservationData.apply { heldUntil := some (some t) } s, ?_, hsc⟩
    simp only [Option.mem_def, get_modify, if_true, hr₀, Option.map_some, hsr]
  · exact (h.but id).reservationUpdate hu p hp hs hid

/-- The sweep touches HELD rows only. -/
theorem settled_sweep (h : Settled db) (now : Time) : Settled (db.releaseExpiredHolds now).2 := by
  intro p hp hs
  obtain ⟨r, hr, hc⟩ := h p hp hs
  have hkeep : Db.release now r = r := by simp [Db.release, Db.expired, hc]
  refine ⟨r, ?_, hc⟩
  simp only [Db.releaseExpiredHolds, Option.mem_def, get_update]
  rw [hr, Option.map_some, hkeep]

theorem settled_holdSeat {params : Db.HoldSeatParams} {r : Reservation} (h : Settled db)
    (hu : db.holdSeat params = .ok (r, db')) : Settled db' := by
  obtain ⟨_, -, -, -, -, -, ht⟩ := Db.holdSeat_eq_ok hu
  intro p hp hs
  unfold Db.Confirmed
  rw [ht] at hp ⊢
  obtain ⟨s, hsr, hsc⟩ := h p hp hs
  refine ⟨s, ?_, hsc⟩
  have hlt : p.reservationId < db.reservations.serial := lt_serial_of_get hsr
  simp only [Option.mem_def, get_insert, if_neg (Nat.ne_of_lt hlt)]
  exact hsr

theorem settled_paymentCreate {now : Time} {data : Db.PaymentCreate} {p : Payment}
    (h : Settled db) (hd : data.status = .pending)
    (hu : db.paymentCreate now data = .ok (p, db')) : Settled db' := by
  obtain ⟨-, -, -, ht⟩ := Db.paymentCreate_eq_ok hu
  intro q hq hs
  unfold Db.Confirmed
  rw [ht] at hq ⊢
  rcases List.mem_append.mp hq with hq | hq
  · exact h q hq hs
  · rw [List.mem_singleton.mp hq] at hs
    simp [Payment.Owed, Db.PaymentCreate.row, hd] at hs

theorem settled_paymentDelete {id : ℕ} {p : Payment} (h : Settled db)
    (hu : db.paymentDelete id = .ok (p, db')) : Settled db' := by
  obtain ⟨-, ht⟩ := Db.paymentDelete_eq_ok hu
  intro q hq hs
  unfold Db.Confirmed
  rw [ht] at hq ⊢
  exact h q (List.mem_of_mem_filter hq) hs

/-- A write to one payment concerns its own reservation only. -/
theorem settledBut_paymentUpdate {id : ℕ} {data : PaymentData} {p p₀ : Payment} (h : Settled db)
    (hp₀ : db.payments.get id = some p₀) (hu : db.paymentUpdate id data = .ok (p, db')) :
    SettledBut p₀.reservationId db' := by
  obtain ⟨_, -, -, -, ht⟩ := Db.paymentUpdate_eq_ok hu
  intro q hq hs hne
  simp only [ht, mem_modify, Db.Confirmed] at hq ⊢
  rcases hq with ⟨hq, -⟩ | ⟨q₀, hq₀, hid, rfl⟩
  · exact h q hq hs
  · have : q₀ = p₀ := eq_of_id hq₀ (mem_of_get hp₀) (hid.trans (id_of_get hp₀).symm)
    exact absurd (congrArg Payment.reservationId this) hne

theorem settled_paymentUpdate {id : ℕ} {data : PaymentData} {p : Payment} (h : Settled db)
    (hd : ∀ q ∈ db.payments.get id, (data.apply q).Owed → db.Confirmed q.reservationId)
    (hu : db.paymentUpdate id data = .ok (p, db')) : Settled db' := by
  obtain ⟨p₀, hp₀, -, -, ht⟩ := Db.paymentUpdate_eq_ok hu
  intro q hq hs
  simp only [ht, mem_modify, Db.Confirmed] at hq ⊢
  rcases hq with ⟨hq, -⟩ | ⟨q₀, hq₀, hid, rfl⟩
  · exact h q hq hs
  · exact hd q₀ (get_eq_some.mpr ⟨hq₀, hid⟩) hs

/-- Both rows of a payment are written together. -/
theorem settled_settle {pid rid : ℕ} {i : Option ℕ} {x : Payment × Reservation} (h : Settled db)
    (hr : ∀ q ∈ db.payments.get pid, q.reservationId = rid)
    (hu : db.confirmWithReservation pid rid i = .ok (x, db')) : Settled db' := by
  obtain ⟨db₁, hp, hres⟩ := Db.updateBoth_eq_ok hu
  obtain ⟨p₀, hp₀, -⟩ := Db.paymentUpdate_eq_ok hp
  have hbut : SettledBut p₀.reservationId db₁ := settledBut_paymentUpdate h hp₀ hp
  rw [hr p₀ hp₀] at hbut
  exact hbut.confirm hres

theorem settled_decline {pid rid : ℕ} {x : Payment × Reservation} (h : Settled db)
    (hr : ∀ q ∈ db.payments.get pid, q.reservationId = rid)
    (hfree : ∀ q ∈ db.payments.get pid, ¬ q.Taken)
    (hu : db.declineWithReservation pid rid = .ok (x, db')) : Settled db' := by
  obtain ⟨db₁, hp, hres⟩ := Db.updateBoth_eq_ok hu
  have hunowed : ∀ q ∈ db.payments.get pid,
      ¬ (PaymentData.apply { status := some .declined } q).Owed := by
    rintro q hq (hs | ⟨hi, -⟩)
    · cases hs
    · exact hfree q hq (.inr (.inr hi))
  refine settled_cancel (settled_paymentUpdate h (fun q hq ho => absurd ho (hunowed q hq)) hp) ?_
    hres
  -- the payment that was just declined is the only one of its reservation
  obtain ⟨p₀, hp₀, -, -, ht⟩ := Db.paymentUpdate_eq_ok hp
  intro q hq hid
  simp only [ht, mem_modify] at hq
  rcases hq with ⟨hq, hne⟩ | ⟨q₀, hq₀, hid₀, rfl⟩
  · have hkey : q.reservationId = p₀.reservationId := hid.trans (hr p₀ hp₀).symm
    have : q = p₀ := db.payment_reservationId_key.eq hq (mem_of_get hp₀)
      (congrArg some hkey) rfl
    rw [this] at hne
    exact absurd (id_of_get hp₀) hne
  · exact hunowed q₀ (get_eq_some.mpr ⟨hq₀, hid₀⟩)

end Statements

/-! ### The condition -/

/-- A seat is released only while no payment of it is owed, a payment is made owed only while
its seat is confirmed, and what a row tells of money that was taken is neither overwritten
nor declined nor deleted. -/
def KeepsPaid {σ : Type} (_ : ℕ) (_ : BookingRequest) (c : Cmd) (w : World σ) : Prop :=
  match c with
  | .reservationUpdate id data => data.status = some .cancelled → Unpaid id w.db
  | .paymentUpdate (some id) data => ∀ p ∈ w.db.payments.get id,
    ((data.apply p).Owed → w.db.Confirmed p.reservationId) ∧ (p.Taken → (data.apply p).Taken)
  | .declineWithReservation id _ => ∀ p ∈ w.db.payments.get id, ¬ p.Taken
  | .paymentDelete id => ∀ p ∈ w.db.payments.get id, ¬ p.Taken
  | _ => True

instance {σ : Type} (i : ℕ) (op : BookingRequest) (c : Cmd) (w : World σ) :
    Decidable (KeepsPaid i op c w) := by
  induction c using Cmd.casesOn with
  | paymentUpdate id data =>
    induction id using Option.casesOn <;> unfold KeepsPaid <;> infer_instance
  | _ =>
    unfold KeepsPaid
    infer_instance

section Runs
variable {σ A : Type} {api : StripeApi σ A} {i : ℕ} {op : BookingRequest}

theorem settled_commit {α : Type} {w : World σ} {r : Except Err (α × Db)} (h : Settled w.db)
    (hr : ∀ a db, r = .ok (a, db) → Settled db) : Settled (w.commit r).2.db := by
  rcases w.commit_cases r with ⟨a, db, ha, hc⟩ | ⟨e, -, hc⟩
  · rw [hc]; exact hr a db ha
  · rw [hc]; exact h

theorem settled_exec {r : BookingRequest} {c : Cmd} {w : World σ} (hc : BookingCmd r c)
    (hr : r ≠ .reconcilePayments) (h : Settled w.db) (ha : KeepsPaid i op c w) :
    Settled (World.exec api c w).2.db := by
  cases hc with
  | quiet hq => rw [World.exec_quiet api hq]; exact h
  | session _ _ => exact h
  | holdSeat p _ => exact settled_commit h fun _ _ hu => settled_holdSeat h hu
  | sweep t _ => exact settled_sweep h t
  | extend id t _ => exact settled_commit h fun _ _ hu => settled_extend h hu
  | confirm id _ => exact settled_commit h fun _ _ hu => (h.but id).confirm hu
  | cancel id _ => exact settled_commit h fun _ _ hu => settled_cancel h (ha rfl) hu
  | pay hd _ => exact settled_commit h fun _ _ hu => settled_paymentCreate h hd hu
  | payment id d _ =>
    cases id with
    | none => exact h
    | some id => exact settled_commit h fun _ _ hu =>
      settled_paymentUpdate h (fun p hp => (ha p hp).1) hu
  | drop id _ => exact settled_commit h fun _ _ hu => settled_paymentDelete h hu
  | decline p id hf => exact absurd hf hr
  | settle p id j hf => exact absurd hf hr

/-- What the proof of each handler rests on: the rows that others rewrite or remove
keep what is never rewritten. -/
def paidSeats (σ : Type) : System.Discipline Cmd BookingRequest (World σ) where
  inv w := Settled w.db
  rely _ w w' := w.db.Evolves w'.db
  rely_refl _ w := Db.Evolves.refl w.db
  rely_trans _ _ _ _ h h' := h.trans h'
  allow := KeepsPaid

theorem paidSeats_step {r : BookingRequest} (hr : r ≠ .reconcilePayments) (c : Cmd) (w : World σ)
    (hc : BookingCmd r c) (h : (paidSeats σ).inv w) (ha : (paidSeats σ).allow i op c w) :
    (paidSeats σ).inv (World.exec api c w).2 ∧
      ∀ j, (paidSeats σ).rely j w (World.exec api c w).2 :=
  ⟨@settled_exec σ A api i op r c w hc hr h ha, fun _ => World.exec_evolves api c w⟩

theorem reads_step (c : Cmd) (w : World σ) (hc : c.quiet = true) :
    (paidSeats σ).inv w → (paidSeats σ).allow i op c w →
      (paidSeats σ).inv (World.exec api c w).2 ∧
        ∀ j, (paidSeats σ).rely j w (World.exec api c w).2 :=
  paidSeats_step (r := .expireHolds) nofun c w (.quiet hc)

/-- The payments were read from an earlier state of this database. -/
def ReadFrom (ps : List Payment) (w : World σ) : Prop :=
  ∃ db : Db, (∀ p ∈ ps, db.payments.get p.id = some p) ∧ db.Evolves w.db

theorem ReadFrom.reservationId {ps : List Payment} {w : World σ} (h : ReadFrom ps w) {p : Payment}
    (hp : p ∈ ps) : ∀ q ∈ w.db.payments.get p.id, q.reservationId = p.reservationId := by
  obtain ⟨db, hdb, he⟩ := h
  intro q hq
  exact (he.payment (hdb p hp) hq).1

theorem ReadFrom.evolves {ps : List Payment} {w w' : World σ} (h : ReadFrom ps w)
    (he : w.db.Evolves w'.db) : ReadFrom ps w' := by
  obtain ⟨db, hdb, he₀⟩ := h
  exact ⟨db, hdb, he₀.trans he⟩

/-- Nobody's moves make a reading older than it was. -/
theorem readFrom_stable {ps : List Payment} (w w' : World σ) (h : (paidSeats σ).rely i w w')
    (hw : ReadFrom ps w) : ReadFrom ps w' :=
  hw.evolves h

/-- A transaction over both rows of a payment that was read before. -/
theorem safe_joint {ps : List Payment} {c : Cmd} {w : World σ} (hw : ReadFrom ps w)
    (hc : ∀ w' : World σ, ReadFrom ps w' → Settled w'.db → KeepsPaid i op c w' →
      Settled (World.exec api c w').2.db) :
    System.Safe (bookingSystem api) (paidSeats σ) i op (fun _ => ReadFrom ps) (request c) w := by
  refine System.Safe.issue fun t hwt ht => ?_
  have hr : ReadFrom ps t := hw.evolves hwt
  have he := World.exec_evolves api c t
  exact ⟨fun _ => hr,
    fun ha _ => ⟨hc t hr ht ha, fun _ _ => he, hr.evolves he, fun _ => hr.evolves he⟩⟩

theorem reconcile_safe {ps : List Payment} {p : Payment} (hp : p ∈ ps) {w : World σ}
    (hw : ReadFrom ps w) : System.Safe (bookingSystem api) (paidSeats σ) i op
      (fun _ => ReadFrom ps) (PaymentsService.reconcile p) w := by
  unfold PaymentsService.reconcile
  refine System.Safe.bind ((System.Safe.of_only reads_step readFrom_stable
    (quiet_request rfl) hw).mono ?_)
  intro session w₁ hw₁
  cases session with
  | error e => exact hw₁
  | ok session =>
    dsimp only
    split_ifs
    · refine System.Safe.bind (System.Safe.mono ?_ (safe_joint hw₁ fun w' hr h _ =>
        settled_commit h fun _ _ hu => settled_settle h (hr.reservationId hp) hu))
      intro x w₂ hw₂
      cases x with
      | error e => exact hw₂
      | ok x => exact System.Safe.of_only reads_step readFrom_stable (quiet_request rfl) hw₂
    · refine System.Safe.bind (System.Safe.mono ?_ (safe_joint hw₁ fun w' hr h ha =>
        settled_commit h fun _ _ hu => settled_decline h (hr.reservationId hp) ha hu))
      intro x w₂ hw₂
      cases x with
      | error e => exact hw₂
      | ok x =>
        refine System.Safe.of_only reads_step readFrom_stable ?_ hw₂
        exact Prog.Only.bind (quiet_request rfl) fun _ =>
          PaymentAbuseService.recordFailure_quiet _

theorem reconcileTimedOutPayments_safe (w : World σ) :
    System.Safe (bookingSystem api) (paidSeats σ) i op (fun _ _ => True)
      PaymentsService.reconcileTimedOutPayments w := by
  unfold PaymentsService.reconcileTimedOutPayments
  refine System.Safe.bind ((System.Safe.of_only reads_step (fun _ _ _ _ => trivial)
    (quiet_request rfl) trivial).mono ?_)
  intro t w₁ _
  cases t with
  | error e => trivial
  | ok t =>
    refine System.Safe.bind (System.Safe.issue fun w₂ _ h₂ => ⟨fun _ => trivial, fun _ _ => ?_⟩)
    refine ⟨h₂, fun _ _ => Db.Evolves.refl _, ?_, fun _ => trivial⟩
    have hread :
      ReadFrom (w₂.db.findStuckTimedOut (t - PaymentsService.reconcileGraceMinutes * 60000))
        w₂ := by
      refine ⟨w₂.db, fun p hp => ?_, Db.Evolves.refl _⟩
      exact get_of_mem (List.mem_of_mem_filter hp)
    exact (System.Safe.forM (fun p hp w hw => reconcile_safe hp hw) hread).mono fun _ _ _ => trivial

theorem handle_safe (r : BookingRequest) (w : World σ) :
    System.Safe (bookingSystem api) (paidSeats σ) i op (fun _ _ => True) r.handle w := by
  by_cases hr : r = .reconcilePayments
  · subst hr
    refine System.Safe.bind (System.Safe.tryCatch ((reconcileTimedOutPayments_safe w).mono ?_))
    intro x w' _
    cases x <;> trivial
  · exact System.Safe.of_only (paidSeats_step hr) (fun _ _ _ _ => trivial) r.handle_only trivial

/-! ### What was taken -/

/-- Payment `n` of reservation `id` is there and tells that money was taken. -/
def TakenFor (n id : ℕ) (db : Db) : Prop :=
  ∃ p, db.payments.get n = some p ∧ p.reservationId = id ∧ p.Taken

theorem takenFor_of_payments {n id : ℕ} {db db' : Db} (h : TakenFor n id db)
    (hp : db'.payments = db.payments) : TakenFor n id db' := by
  obtain ⟨p, hget, hrest⟩ := h
  exact ⟨p, by rw [hp]; exact hget, hrest⟩

theorem takenFor_paymentUpdate {n id m : ℕ} {db db' : Db} {data : PaymentData} {x : Payment}
    (h : TakenFor n id db) (hd : ∀ p ∈ db.payments.get m, p.Taken → (data.apply p).Taken)
    (hu : db.paymentUpdate m data = .ok (x, db')) : TakenFor n id db' := by
  obtain ⟨p, hget, hid, ht⟩ := h
  unfold TakenFor
  rw [Db.paymentUpdate_map hu, hget, Option.map_some]
  by_cases hn : n = m
  · subst hn
    exact ⟨_, rfl, by rw [if_pos rfl]; exact hid, by rw [if_pos rfl]; exact hd p hget ht⟩
  · exact ⟨p, by rw [if_neg hn], hid, ht⟩

theorem takenFor_reservationUpdate {n id m : ℕ} {db db' : Db} {data : ReservationData}
    {x : Reservation} (h : TakenFor n id db) (hu : db.reservationUpdate m data = .ok (x, db')) :
    TakenFor n id db' := by
  obtain ⟨_, -, -, -, ht⟩ := Db.reservationUpdate_eq_ok hu
  exact takenFor_of_payments h (by rw [ht])

/-- What a row tells of money that was taken, it goes on telling. -/
theorem takenFor_exec {n id : ℕ} {c : Cmd} {w : World σ} (hc : BookingCmd op c)
    (ha : KeepsPaid i op c w) (h : TakenFor n id w.db) :
    TakenFor n id (World.exec api c w).2.db := by
  cases hc with
  | quiet hq => rw [World.exec_quiet api hq]; exact h
  | session _ _ => exact h
  | sweep t _ => exact takenFor_of_payments h rfl
  | holdSeat p _ =>
    refine World.commit_rule h fun _ _ hu => ?_
    obtain ⟨_, -, -, -, -, -, ht⟩ := Db.holdSeat_eq_ok hu
    exact takenFor_of_payments h (by rw [ht])
  | extend m t _ => exact World.commit_rule h fun _ _ hu => takenFor_reservationUpdate h hu
  | confirm m _ => exact World.commit_rule h fun _ _ hu => takenFor_reservationUpdate h hu
  | cancel m _ => exact World.commit_rule h fun _ _ hu => takenFor_reservationUpdate h hu
  | pay _ _ =>
    refine World.commit_rule h fun _ _ hu => ?_
    obtain ⟨-, -, -, ht⟩ := Db.paymentCreate_eq_ok hu
    obtain ⟨p, hget, hrest⟩ := h
    refine ⟨p, ?_, hrest⟩
    rw [ht, get_insert, if_neg (Nat.ne_of_lt (lt_serial_of_get hget)), hget]
  | payment m d _ =>
    cases m with
    | none => exact h
    | some m =>
      exact World.commit_rule h fun _ _ hu =>
        takenFor_paymentUpdate h (fun p hp => (ha p hp).2) hu
  | drop m _ =>
    refine World.commit_rule h fun _ _ hu => ?_
    obtain ⟨p, hget, hid, ht⟩ := h
    obtain ⟨-, htables⟩ := Db.paymentDelete_eq_ok hu
    have hne : n ≠ m := fun hn => ha p (hn ▸ hget) ht
    refine ⟨p, ?_, hid, ht⟩
    rw [htables, erase, get_filter, hget, Option.filter_some, if_pos]
    simpa [id_of_get hget] using hne
  | decline m rid _ =>
    refine World.commit_rule h fun _ _ hu => ?_
    obtain ⟨db₁, hp, hr⟩ := Db.updateBoth_eq_ok hu
    exact takenFor_reservationUpdate
      (takenFor_paymentUpdate h (fun p hp ht => absurd ht (ha p hp)) hp) hr
  | settle m rid j _ =>
    refine World.commit_rule h fun _ _ hu => ?_
    obtain ⟨db₁, hp, hr⟩ := Db.updateBoth_eq_ok hu
    exact takenFor_reservationUpdate
      (takenFor_paymentUpdate h (fun _ _ _ => .inl rfl) hp) hr

/-! ### The runs -/

theorem settled_run {w : World σ} (hw : Settled w.db)
    {xs : List (Choice Err BookingRequest (Env A))}
    {p : Pool Cmd Cmd.Reply Err (World σ) BookingRequest Response}
    (hx : (bookingSystem api).schedule xs ⟨w, []⟩ = some p)
    (ha : (bookingSystem api).AllMeet KeepsPaid xs ⟨w, []⟩) : Settled p.state.db := by
  have henv : ∀ (e : Env A) (s : World σ), (paidSeats σ).inv s →
      (paidSeats σ).inv ((bookingSystem api).env e s) ∧
        ∀ i, (paidSeats σ).rely i s ((bookingSystem api).env e s) := by
    intro e s hs
    have hdb : ((bookingSystem api).env e s).db = s.db := by cases e <;> rfl
    refine ⟨?_, fun _ => ?_⟩
    · show Settled _
      rw [hdb]; exact hs
    · show Db.Evolves _ _
      rw [hdb]; exact Db.Evolves.refl _
  exact (System.PoolSafe.schedule (fun _ _ _ _ _ _ _ _ => trivial)
    (fun _ op s _ => handle_safe op s) henv xs (System.poolSafe_empty hw) hx ha).inv

theorem taken_run {n id : ℕ} {xs : List (Choice Err BookingRequest (Env A))}
    {p q : Pool Cmd Cmd.Reply Err (World σ) BookingRequest Response}
    (hp : System.Within BookingCmd p) (h : TakenFor n id p.state.db)
    (hx : (bookingSystem api).schedule xs p = some q)
    (ha : (bookingSystem api).AllMeet KeepsPaid xs p) : TakenFor n id q.state.db := by
  refine System.Within.keeps (I := fun w : World σ => TakenFor n id w.db)
    (fun op => op.handle_only) (fun e s hs => ?_) (fun i op c s hc ha hs => ?_) xs hp h hx ha
  · have hdb : ((bookingSystem api).env e s).db = s.db := by cases e <;> rfl
    rw [hdb]
    exact hs
  · exact takenFor_exec hc ha hs

/-- In every run, with any commands lost, that starts with every paid seat confirmed
and whose commands meet `KeepsPaid`, every paid seat stays confirmed, also while
handlers are under way; and a payment that has once succeeded is REFUNDED whenever its seat
is CANCELLED. -/
theorem paid_seats_stay_confirmed (api : StripeApi σ A) (w : World σ) (hw : Settled w.db)
    (xs ys : List (Choice Err BookingRequest (Env A)))
    (q p : Pool Cmd Cmd.Reply Err (World σ) BookingRequest Response)
    (hx : (bookingSystem api).schedule xs ⟨w, []⟩ = some q)
    (hy : (bookingSystem api).schedule ys q = some p)
    (ha : (bookingSystem api).AllMeet KeepsPaid (xs ++ ys) ⟨w, []⟩) :
    (∀ payment ∈ p.state.db.payments.rows, payment.status = .succeeded →
      ∃ r ∈ p.state.db.reservations.get payment.reservationId, r.status = .confirmed) ∧
    ∀ paid ∈ q.state.db.payments.rows, paid.status = .succeeded →
      ∃ payment ∈ p.state.db.payments.get paid.id,
        ∀ r ∈ p.state.db.reservations.get paid.reservationId, r.status = .cancelled →
          payment.status = .refunded := by
  have hxy : (bookingSystem api).schedule (xs ++ ys) ⟨w, []⟩ = some p := by
    rw [System.schedule_append, hx, Option.bind_some, hy]
  have hend : Settled p.state.db := settled_run hw hxy ha
  refine ⟨fun payment hmem hs => hend payment hmem (.inl hs), fun paid hmem hs => ?_⟩
  have hwithin : System.Within BookingCmd q :=
    System.Within.schedule (fun op => op.handle_only) xs (System.within_empty _ _) hx
  have hstart : TakenFor paid.id paid.reservationId q.state.db :=
    ⟨paid, get_of_mem hmem, rfl, .inl hs⟩
  obtain ⟨payment, hget, hid, htaken⟩ := taken_run hwithin hstart hy
    (((bookingSystem api).allMeet_append ys xs hx).mp ha).2
  refine ⟨payment, hget, fun r hr hcancelled => ?_⟩
  by_contra hrefund
  obtain ⟨r', hr', hconfirmed⟩ := hend payment (mem_of_get hget) (htaken.owed hrefund)
  rw [hid, hr] at hr'
  rw [← Option.some.inj hr', hcancelled] at hconfirmed
  cases hconfirmed

end Runs

/-! ### Two runs -/

/-- User 1 holds seat 1, opens the checkout session and pays; then the webhook comes. -/
def paidInOrder : List (Choice Err BookingRequest (Env Account.Action)) :=
  .spawn (.reserve 1 ⟨1, 1⟩) :: System.solo 0 8 ++
    .spawn (.createCheckoutSession 1 1) :: System.solo 1 8 ++ .env (.stripe (.pay 1)) ::
    .spawn (.webhook (.ok sessionPaid)) :: System.solo 2 5

/-- Fifty hours before the show, user 1 gives the seat back. -/
def seatReturned : List (Choice Err BookingRequest (Env Account.Action)) :=
  .spawn (.cancel 1 1) :: System.solo 3 10

theorem paid_in_order : ∃ q p,
    (bookingSystem testMode).schedule paidInOrder ⟨theatre, []⟩ = some q ∧
    (bookingSystem testMode).schedule seatReturned q = some p ∧
    ∃ paid ∈ q.state.db.payments.rows, paid.status = .succeeded ∧
      ∃ r ∈ p.state.db.reservations.get paid.reservationId, r.status = .cancelled ∧
        ∃ payment ∈ p.state.db.payments.get paid.id, payment.status = .refunded := by
  have hrun : ((bookingSystem testMode).schedule paidInOrder ⟨theatre, []⟩).any fun q =>
      ((bookingSystem testMode).schedule seatReturned q).any fun p =>
        ∃ paid ∈ q.state.db.payments.rows, paid.status = .succeeded ∧
          ∃ r ∈ p.state.db.reservations.get paid.reservationId, r.status = .cancelled := by
    decide +kernel
  obtain ⟨q, hq, hrun⟩ := (Option.any_eq_true _ _).mp hrun
  obtain ⟨p, hp, hrun⟩ := (Option.any_eq_true _ _).mp hrun
  obtain ⟨paid, hpaid, hs, r, hr, hcancelled⟩ := of_decide_eq_true hrun
  obtain ⟨payment, hget, hrefunded⟩ := (paid_seats_stay_confirmed testMode theatre
    (by decide +kernel) paidInOrder seatReturned q p hq hp (by decide +kernel)).2 paid hpaid hs
  exact ⟨q, p, hq, hp, paid, hpaid, hs, r, hr, hcancelled, payment, hget,
    hrefunded r hr hcancelled⟩

/-- `cancel` reads the reservation while it is HELD and writes CANCELLED after the
webhook has confirmed the seat and recorded the payment. -/
def cancelAroundWebhook : List (Choice Err BookingRequest (Env Account.Action)) :=
  .spawn (.reserve 1 ⟨1, 1⟩) :: System.solo 0 8 ++
    .spawn (.createCheckoutSession 1 1) :: System.solo 1 8 ++
    .spawn (.cancel 1 1) :: System.solo 2 1 ++ .env (.stripe (.pay 1)) ::
    .spawn (.webhook (.ok sessionPaid)) :: System.solo 3 5 ++ System.solo 2 2

theorem paid_seat_cancelled :
    ¬ ∀ xs p, (bookingSystem testMode).schedule xs ⟨theatre, []⟩ = some p →
      System.Quiescent p → ∀ payment ∈ p.state.db.payments.rows, payment.status = .succeeded →
        ∃ r ∈ p.state.db.reservations.get payment.reservationId, r.status = .confirmed := by
  intro h
  have hrun : ((bookingSystem testMode).schedule cancelAroundWebhook ⟨theatre, []⟩).any
      (fun p => System.Quiescent p ∧ ¬ ∀ payment ∈ p.state.db.payments.rows,
        payment.status = .succeeded →
          p.state.db.Confirmed payment.reservationId) = true := by decide +kernel
  obtain ⟨p, hp, hbad⟩ := (Option.any_eq_true _ _).mp hrun
  simp only [decide_eq_true_eq] at hbad
  exact hbad.2 (h _ p hp hbad.1)

end MovieReservation
