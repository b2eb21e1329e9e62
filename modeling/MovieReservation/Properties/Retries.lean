import MovieReservation.Lib.Retry
import MovieReservation.Properties.Webhook

/-! An event that is delivered over and over until the webhook returns, with handlers
that break off at any of their commands: which effects an attempt can lose for good. -/

namespace MovieReservation

open Lib Lib.Prog Lib.System Lib.Table PaymentsService

/-! ### Effects -/

/-- The row without the instant of its dispute. -/
def Payment.undated (p : Payment) : Payment := { p with disputedAt := p.disputedAt.map fun _ => 0 }

/-- How often the failure of a payment of `u` reached the abuse counter. -/
def recorded (u : ℕ) (cs : List Cmd) : ℕ :=
  cs.countP fun
    | .zaddFailure v _ => v = u
    | _ => false

/-- How often `u` was locked out. -/
def lockouts (u : ℕ) (cs : List Cmd) : ℕ :=
  cs.countP fun
    | .setLockout v _ => v = u
    | _ => false

/-- The commands `cs` that led to the state `db` had the effects that `ds` and `db'` have:
on the payments, the reservations, the abuse counter and the lockouts. -/
structure SameEffects (cs : List Cmd) (db : Db) (ds : List Cmd) (db' : Db) : Prop where
  payments : db.payments.rows.map Payment.undated = db'.payments.rows.map Payment.undated
  reservations : db.reservations.rows = db'.reservations.rows
  failures : ∀ u, recorded u cs = recorded u ds
  locked : ∀ u, lockouts u cs = lockouts u ds

/-- The user whose failed payment the event reports. -/
def StripeEvent.payer (e : StripeEvent) (db : Db) : Option ℕ :=
  match e.body with
  | .checkoutSessionAsyncPaymentFailed session =>
    (session.paymentId.bind db.payments.get).bind fun payment =>
      (db.reservations.get payment.reservationId).map Reservation.userId
  | _ => none

/-- One more failure of `u` makes enough of them within a day. -/
def LockoutDue {σ : Type} (w : World σ) (u : ℕ) : Prop :=
  PaymentAbuseService.failureThreshold ≤
    (((w.redis.paymentFailures u).live w.now).scores.filter fun t =>
      ¬ (0 ≤ t ∧ t ≤ w.now - PaymentAbuseService.windowMs)).length + 1

instance {σ : Type} (w : World σ) (u : ℕ) : Decidable (LockoutDue w u) :=
  inferInstanceAs (Decidable (_ ≤ _))

/-- From ZADD on, a lockout that is due is set. -/
def SetsLockout : List (Outcome Err) → Bool
  | [.answered, .answered, .answered, .answered, o] => o.effective
  | _ => false

/-- The attempt, begun in `v`, loses an effect of a delivery begun in `w`. It breaks off with
the payment marked as failed and the failure not counted: the answer to the update is lost,
the reservation is not read, or the counter not reached. Or it counts the failure, and
locks the payer out although the delivery would not have, or does not although it would. -/
def Loses {σ : Type} (e : StripeEvent) (w : World σ) (os : List (Outcome Err)) (v : World σ) :
    Prop :=
  match e.body, os with
  | .checkoutSessionAsyncPaymentFailed _, .answered :: .unacknowledged _ :: _
  | .checkoutSessionAsyncPaymentFailed _, .answered :: .answered :: .lost _ :: _
  | .checkoutSessionAsyncPaymentFailed _, .answered :: .answered :: .unacknowledged _ :: _
  | .checkoutSessionAsyncPaymentFailed _,
    .answered :: .answered :: .answered :: .answered :: .lost _ :: _ => True
  | .checkoutSessionAsyncPaymentFailed _,
    .answered :: .answered :: .answered :: .answered :: o :: os =>
    ∃ u ∈ e.payer w.db, ¬ (LockoutDue w u ↔ LockoutDue v u ∧ SetsLockout (o :: os))
  | _, _ => False

instance {σ : Type} (e : StripeEvent) (w : World σ) (os : List (Outcome Err)) (v : World σ) :
    Decidable (Loses e w os v) := by
  have hlock (os : List (Outcome Err)) : Decidable
      (∃ u ∈ e.payer w.db, ¬ (LockoutDue w u ↔ LockoutDue v u ∧ SetsLockout os)) :=
    match e.payer w.db with
    | none => isFalse fun ⟨_, hu, _⟩ => nomatch hu
    | some u => decidable_of_iff (¬ (LockoutDue w u ↔ LockoutDue v u ∧ SetsLockout os))
        ⟨fun h => ⟨u, rfl, h⟩, fun ⟨_, hu, h⟩ => Option.some.inj hu ▸ h⟩
  -- outcome by outcome, as far as `Loses` looks
  obtain ⟨id, body⟩ := e
  induction body using StripeEventBody.casesOn with
  | checkoutSessionAsyncPaymentFailed session =>
    induction os using List.casesOn with
    | nil => exact instDecidableFalse
    | cons o os =>
    induction o using Outcome.casesOn with
    | lost | unacknowledged => exact instDecidableFalse
    | answered =>
    induction os using List.casesOn with
    | nil => exact instDecidableFalse
    | cons o os =>
    induction o using Outcome.casesOn with
    | lost => exact instDecidableFalse
    | unacknowledged => exact instDecidableTrue
    | answered =>
    induction os using List.casesOn with
    | nil => exact instDecidableFalse
    | cons o os =>
    induction o using Outcome.casesOn with
    | lost | unacknowledged => exact instDecidableTrue
    | answered =>
    induction os using List.casesOn with
    | nil => exact instDecidableFalse
    | cons o os =>
    induction o using Outcome.casesOn with
    | lost | unacknowledged => exact instDecidableFalse
    | answered =>
    induction os using List.casesOn with
    | nil => exact instDecidableFalse
    | cons o os =>
    induction o using Outcome.casesOn with
    | lost => exact instDecidableTrue
    | answered | unacknowledged => exact hlock _
  | _ => exact instDecidableFalse

/-- Some payment carries the event's id. -/
def StripeEvent.Seen (e : StripeEvent) (db : Db) : Prop :=
  ∃ q ∈ db.payments.rows, q.stripeEventId = some e.id

/-- Both counts of a user. -/
def counts (u : ℕ) (cs : List Cmd) : ℕ × ℕ := (recorded u cs, lockouts u cs)

theorem counts_append (u : ℕ) (cs ds : List Cmd) :
    counts u (cs ++ ds) = counts u cs + counts u ds := by
  simp [counts, recorded, lockouts]

/-- Commands that add to the abuse counter or lock out. -/
def Cmd.counts : Cmd → Bool
  | .zaddFailure _ _ | .setLockout _ _ => true
  | _ => false

theorem counts_eq_zero {cs : List Cmd} (h : ∀ c ∈ cs, c.counts = false) (u : ℕ) :
    counts u cs = 0 := by
  have hzero : recorded u cs = 0 ∧ lockouts u cs = 0 := by
    constructor
    all_goals
      refine List.countP_eq_zero.mpr fun c hc hz => ?_
      have hc := h c hc
      cases c <;> first | cases hz | cases hc
  rw [counts, hzero.1, hzero.2]
  rfl

theorem counts_zadd (x u : ℕ) (now : Time) :
    counts x [.zaddFailure u now] = if x = u then (1, 0) else 0 := by
  by_cases h : x = u
  · subst h
    simp [counts, recorded, lockouts]
  · simp only [counts, recorded, lockouts, List.countP_cons, List.countP_nil, if_neg h,
      decide_eq_false (Ne.symm h)]
    rfl

theorem counts_setLockout (x u : ℕ) (ms : Time) :
    counts x [.setLockout u ms] = if x = u then (0, 1) else 0 := by
  by_cases h : x = u
  · subst h
    simp [counts, recorded, lockouts]
  · simp only [counts, recorded, lockouts, List.countP_cons, List.countP_nil, if_neg h,
      decide_eq_false (Ne.symm h)]
    rfl

/-! ### From one attempt to the next -/

section Attempts
variable {σ A : Type} (api : StripeApi σ A) {e : StripeEvent}

/-- An attempt, started in `w`. -/
abbrev attemptOf (e : StripeEvent) (os : List (Outcome Err)) (w : World σ) :
    Option (List Cmd × Except Err Unit × World σ) :=
  (bookingSystem api).attempt 0 os (handleWebhookEvent (.ok e)) w

/-- An attempt, begun in `v`, that had no effect to lose. -/
structure Idle (e : StripeEvent) (w : World σ) (os : List (Outcome Err)) (v : World σ)
    (cs : List Cmd) (r : Except Err Unit) : Prop where
  failed : ∃ err, r = .error err
  uncounted : ∀ u, counts u cs = 0
  unbroken : ¬ Loses e w os v
  faulty : ∃ o ∈ os, o ≠ .answered

/-- An attempt, begun in `v`, after which the event is done with: it counted `k`, or it lost
something of that. -/
structure Final (e : StripeEvent) (k : ℕ → ℕ × ℕ) (db : Db) (w : World σ) (os : List (Outcome Err))
    (v : World σ) (cs : List Cmd) (r : Except Err Unit) (t : World σ) : Prop where
  payments : t.db.payments.rows.map Payment.undated = db.payments.rows.map Payment.undated
  reservations : t.db.reservations.rows = db.reservations.rows
  stays : e.Seen t.db ∨ r = .ok ()
  counted : (∀ u, counts u cs = k u) ∧ ¬ Loses e w os v ∨
    Loses e w os v ∧ ∃ u, counts u cs ≠ k u
  whole : (∀ o ∈ os, o = .answered) → v = w → ¬ Loses e w os v

theorem not_loses_one (e : StripeEvent) (w : World σ) (o : Outcome Err) (v : World σ) :
    ¬ Loses e w [o] v := by
  intro h
  unfold Loses at h
  split at h <;> simp_all

/-- A delivery of an event that a payment carries does nothing. -/
theorem attempt_seen {v w t : World σ} {os : List (Outcome Err)} {cs : List Cmd}
    {r : Except Err Unit} (hseen : e.Seen v.db) (h : attemptOf api e os v = some (cs, r, t)) :
    t.db = v.db ∧ (∀ u, counts u cs = 0) ∧ ¬ Loses e w os v := by
  have hfind : (v.db.payments.rows.find? fun q => q.stripeEventId = some e.id).isSome := by
    simpa [StripeEvent.Seen] using hseen
  have hnone : ∀ u, counts u [.paymentFindByStripeEventId e.id] = 0 := fun _ => rfl
  cases attempt_issue_bind h with
  | answered hexec hrest =>
    cases hexec
    rw [if_pos hfind] at hrest
    obtain ⟨rfl, rfl, rfl, rfl⟩ := attempt_done hrest
    exact ⟨rfl, hnone, not_loses_one e w _ _⟩
  | refused hexec => cases hexec
  | lost err _ => exact ⟨rfl, fun _ => rfl, not_loses_one e w _ _⟩
  | unacknowledged err _ => exact ⟨rfl, hnone, not_loses_one e w _ _⟩

variable {k : ℕ → ℕ × ℕ} {db : Db} {E : Db → Prop} {w w' : World σ}

/-- The event is done with, after the attempts `ps`: it counted `k`, or one lost something. -/
structure Over (e : StripeEvent) (k : ℕ → ℕ × ℕ) (db : Db) (w : World σ)
    (ps : List (List (Outcome Err) × World σ)) (cs : List Cmd) (v : World σ) : Prop where
  payments : v.db.payments.rows.map Payment.undated = db.payments.rows.map Payment.undated
  reservations : v.db.reservations.rows = db.reservations.rows
  counted : (∀ u, counts u cs = k u) ∧ (∀ x ∈ ps, ¬ Loses e w x.1 x.2) ∨
    (∃ x ∈ ps, Loses e w x.1 x.2) ∧ ∃ u, counts u cs ≠ k u

/-- Nothing was lost so far. -/
structure Unbegun (e : StripeEvent) (E : Db → Prop) (w : World σ)
    (ps : List (List (Outcome Err) × World σ)) (cs : List Cmd) (v : World σ) : Prop where
  early : E v.db
  uncounted : ∀ u, counts u cs = 0
  unbroken : ∀ x ∈ ps, ¬ Loses e w x.1 x.2

section Next
variable {ps : List (List (Outcome Err) × World σ)} {cs ds : List Cmd} {u v t : World σ}
  {os : List (Outcome Err)} {r : Except Err Unit}

theorem Over.again (h : Over e k db w ps cs v) (hdb : t.db = v.db)
    (hds : ∀ u, counts u ds = 0) (hos : ¬ Loses e w os u) :
    Over e k db w (ps ++ [(os, u)]) (cs ++ ds) t where
  payments := hdb ▸ h.payments
  reservations := hdb ▸ h.reservations
  counted := by
    simp only [counts_append, hds, add_zero, List.mem_append, List.mem_singleton]
    rcases h.counted with ⟨hk, hps⟩ | ⟨⟨x, hmem, hb⟩, hk⟩
    · refine .inl ⟨hk, fun x hmem => ?_⟩
      rcases hmem with hmem | rfl
      · exact hps x hmem
      · exact hos
    · exact .inr ⟨⟨x, .inl hmem, hb⟩, hk⟩

theorem Unbegun.final (h : Unbegun e E w ps cs v) (hf : Final e k db w os u ds r t) :
    Over e k db w (ps ++ [(os, u)]) (cs ++ ds) t where
  payments := hf.payments
  reservations := hf.reservations
  counted := by
    simp only [counts_append, h.uncounted, zero_add, List.mem_append, List.mem_singleton]
    rcases hf.counted with ⟨hk, hos⟩ | ⟨hb, hk⟩
    · refine .inl ⟨hk, fun x hmem => ?_⟩
      rcases hmem with hmem | rfl
      · exact h.unbroken x hmem
      · exact hos
    · exact .inr ⟨⟨(os, u), .inr rfl, hb⟩, hk⟩

theorem Unbegun.idle (h : Unbegun e E w ps cs v) (ht : E t.db) (hi : Idle e w os u ds r) :
    Unbegun e E w (ps ++ [(os, u)]) (cs ++ ds) t where
  early := ht
  uncounted := by
    intro u
    rw [counts_append, h.uncounted, hi.uncounted, add_zero]
  unbroken := by
    intro x hmem
    rcases List.mem_append.mp hmem with hmem | hmem
    · exact h.unbroken x hmem
    · rw [List.mem_singleton.mp hmem]
      exact hi.unbroken

end Next

/-- If every attempt from an early state either leaves it early or ends the event's
processing, then retrying has the effects of one uninterrupted run exactly if no attempt
lost any. -/
theorem effects_iff_of_final (E : Db → Prop) (k : ℕ → ℕ × ℕ) (db : Db) (hw : E w.db)
    (hstep : ∀ (v : World σ) os cs r t, E v.db → attemptOf api e os v = some (cs, r, t) →
      E t.db ∧ Idle e w os v cs r ∨ Final e k db w os v cs r t)
    {as : List (List (Env A) × List (Outcome Err))} {cs : List Cmd}
    (h : (bookingSystem api).retry 0 (handleWebhookEvent (.ok e)) as w = some (cs, (), w')) :
    SameEffects cs w'.db (issued (World.exec api) (handleWebhookEvent (.ok e)) w)
      (perform api (handleWebhookEvent (.ok e)) w).2.db ↔
      ∀ x ∈ (bookingSystem api).begun 0 (handleWebhookEvent (.ok e)) as w,
        ¬ Loses e w x.1 x.2 := by
  have hover : Over e k db w ((bookingSystem api).begun 0 (handleWebhookEvent (.ok e)) as w)
      cs w' := by
    refine retry_rule (I := fun ps cs v => Unbegun e E w ps cs v ∨
      Over e k db w ps cs v ∧ e.Seen v.db) (Q := fun ps cs _ v => Over e k db w ps cs v)
      ?_ ?_ ?_ (.inl ⟨hw, fun _ => rfl, fun _ h => absurd h List.not_mem_nil⟩) h
    · intro ps cs v m hI
      have hdb := World.elapse_db api m v
      rcases hI with ⟨h1, h2, h3⟩ | ⟨⟨h1, h2, h3⟩, h4⟩
      · exact .inl ⟨hdb ▸ h1, h2, h3⟩
      · exact .inr ⟨⟨hdb ▸ h1, hdb ▸ h2, h3⟩, hdb ▸ h4⟩
    · intro ps cs v os ds err t hI hatt
      rcases hI with hI | ⟨hI, hseen⟩
      · rcases hstep v os ds _ t hI.early hatt with ⟨ht, hi⟩ | hf
        · exact .inl (hI.idle ht hi)
        · exact .inr ⟨hI.final hf, hf.stays.resolve_right nofun⟩
      · obtain ⟨hdb, hds, hos⟩ := attempt_seen api hseen hatt
        exact .inr ⟨hI.again hdb hds hos, hdb ▸ hseen⟩
    · intro ps cs v os ds b t hI hatt
      rcases hI with hI | ⟨hI, hseen⟩
      · rcases hstep v os ds _ t hI.early hatt with ⟨-, hi⟩ | hf
        · obtain ⟨err, herr⟩ := hi.failed
          cases herr
        · exact hI.final hf
      · obtain ⟨hdb, hds, hos⟩ := attempt_seen api hseen hatt
        exact hI.again hdb hds hos
  -- the uninterrupted run is an attempt that loses nothing
  obtain ⟨n, hn⟩ := attempt_answered (bookingSystem api) (i := 0) (fun _ _ => rfl)
    (handleWebhookEvent (.ok e)) w
  have hall : ∀ o ∈ List.replicate n (Outcome.answered : Outcome Err), o = .answered :=
    fun o ho => List.eq_of_mem_replicate ho
  have hbase := (hstep w _ _ _ _ hw hn).resolve_left fun hi => by
    obtain ⟨o, ho, hne⟩ := hi.2.faulty
    exact hne (hall o ho)
  have hcount := hbase.counted.resolve_right fun hb => hbase.whole hall rfl hb.1
  constructor
  · intro hsame
    refine (hover.counted.resolve_right ?_).2
    rintro ⟨-, u, hu⟩
    exact hu ((Prod.ext (hsame.failures u) (hsame.locked u)).trans (hcount.1 u))
  · intro hnone
    have hk := hover.counted.resolve_right fun hb => by
      obtain ⟨x, hx, hloses⟩ := hb.1
      exact hnone x hx hloses
    have hcounts := fun u => (hk.1 u).trans (hcount.1 u).symm
    exact ⟨hover.payments.trans hbase.payments.symm,
      hover.reservations.trans hbase.reservations.symm,
      fun u => congrArg Prod.fst (hcounts u), fun u => congrArg Prod.snd (hcounts u)⟩

/-- Where no attempt can end the event's processing, none returns. -/
theorem retry_of_idle (E : Db → Prop) (hw : E w.db)
    (hstep : ∀ (v : World σ) os cs r t, E v.db → attemptOf api e os v = some (cs, r, t) →
      E t.db ∧ ∃ err, r = .error err)
    {as : List (List (Env A) × List (Outcome Err))} {cs : List Cmd} :
    (bookingSystem api).retry 0 (handleWebhookEvent (.ok e)) as w ≠ some (cs, (), w') := by
  intro h
  refine retry_rule (I := fun _ _ v => E v.db) (Q := fun _ _ _ _ => False) ?_ ?_ ?_ hw h
  · intro ps cs v m hv
    rwa [show ((bookingSystem api).env m v).db = v.db from World.elapse_db api m v]
  · intro ps cs v os ds err t hv hatt
    exact (hstep v os ds _ t hv hatt).1
  · intro ps cs v os ds b t hv hatt
    obtain ⟨err, herr⟩ := (hstep v os ds _ t hv hatt).2
    cases herr

end Attempts

/-! ### Events that count nothing -/

section Uncounted
variable {σ A : Type} (api : StripeApi σ A) {e : StripeEvent}

/-- Programs that never add to the abuse counter. -/
abbrev Uncounted {α : Type} (p : M α) : Prop := Only (fun c => c.counts = false) p

theorem dispatch_uncounted (he : ∀ session, e.body ≠ .checkoutSessionAsyncPaymentFailed session) :
    Uncounted (dispatch e) := by
  have hrequest : ∀ c : Cmd, c.counts = false → Uncounted (request c) :=
    fun c hc => (only_issue c).mpr hc
  obtain ⟨eventId, body⟩ := e
  cases body with
  | checkoutSessionCompleted session =>
    refine Only.bind (hrequest _ rfl) fun payment => ?_
    cases payment with
    | none => trivial
    | some payment =>
      show Only _ (ite _ _ _)
      split_ifs
      · refine Only.bind (Only.bind (hrequest _ rfl) fun r => ?_) fun _ => ?_
        · exact Only.bind (hrequest _ rfl) fun _ => trivial
        · exact Only.bind (hrequest _ rfl) fun _ => trivial
      · exact Only.bind (hrequest _ rfl) fun _ => trivial
  | checkoutSessionAsyncPaymentFailed session => exact absurd rfl (he session)
  | checkoutSessionExpired session => exact Only.bind (hrequest _ rfl) fun _ => trivial
  | chargeDisputeCreated dispute =>
    refine Only.bind (hrequest _ rfl) fun payment => ?_
    cases payment with
    | none => trivial
    | some payment =>
      refine Only.bind (hrequest _ rfl) fun t => ?_
      exact Only.bind (hrequest _ rfl) fun _ => trivial
  | other => trivial

theorem not_loses (he : ∀ session, e.body ≠ .checkoutSessionAsyncPaymentFailed session)
    (w : World σ) (os : List (Outcome Err)) (v : World σ) : ¬ Loses e w os v := by
  intro h
  unfold Loses at h
  split at h
  all_goals first | exact he _ ‹_› | exact h

/-- A first delivery: it fails on looking the event up, or goes on to its handler. -/
theorem attempt_fresh {v t : World σ} {os : List (Outcome Err)} {cs : List Cmd}
    {r : Except Err Unit} (w : World σ) (hfresh : ¬ e.Seen v.db)
    (h : attemptOf api e os v = some (cs, r, t)) :
    t.db = v.db ∧ Idle e w os v cs r ∨ ∃ os' cs', os = .answered :: os' ∧
      cs = .paymentFindByStripeEventId e.id :: cs' ∧
      (bookingSystem api).attempt 0 os' (dispatch e) v = some (cs', r, t) := by
  have hfind : ¬ (v.db.payments.rows.find? fun q => q.stripeEventId = some e.id).isSome := by
    simpa [StripeEvent.Seen] using hfresh
  have hone := fun o : Outcome Err => not_loses_one e w o v
  cases attempt_issue_bind h with
  | answered hexec hrest =>
    cases hexec
    rw [if_neg hfind] at hrest
    exact .inr ⟨_, _, rfl, rfl, hrest⟩
  | refused hexec => cases hexec
  | lost err _ => exact .inl ⟨rfl, ⟨_, rfl⟩, fun _ => rfl, hone _, _, List.mem_cons_self, nofun⟩
  | unacknowledged err _ =>
    exact .inl ⟨rfl, ⟨_, rfl⟩, fun _ => rfl, hone _, _, List.mem_cons_self, nofun⟩

section Commands
variable {α : Type} {c : Cmd} {v t : World σ} {os : List (Outcome Err)} {cs : List Cmd}
  {r : Except Err α}

/-- An attempt whose first command would succeed and leave the database `db'`. -/
theorem attempt_command {f : c.Reply → M α} {a : c.Reply} {v' : World σ}
    (hexec : World.exec api c v = (.ok a, v'))
    (h : (bookingSystem api).attempt 0 os (request c >>= f) v = some (cs, r, t)) :
    ((t.db = v.db ∨ t.db = v'.db) ∧ (∃ err, r = .error err) ∧ ∃ o ∈ os, o ≠ .answered) ∨
      ∃ os' cs', os = .answered :: os' ∧ cs = c :: cs' ∧
        (bookingSystem api).attempt 0 os' (f a) v' = some (cs', r, t) := by
  cases attempt_issue_bind h with
  | answered hx hrest =>
    cases hexec.symm.trans hx
    exact .inr ⟨_, _, rfl, rfl, hrest⟩
  | refused hx => cases hexec.symm.trans hx
  | lost err _ => exact .inl ⟨.inl rfl, ⟨_, rfl⟩, _, List.mem_cons_self, nofun⟩
  | unacknowledged err _ =>
    refine .inl ⟨.inr ?_, ⟨_, rfl⟩, _, List.mem_cons_self, nofun⟩
    show (World.exec api c v).2.db = v'.db
    rw [hexec]

/-- An attempt whose first command would be refused. -/
theorem attempt_refused {f : c.Reply → M α} {err : Err}
    (hexec : World.exec api c v = (.error err, v))
    (h : (bookingSystem api).attempt 0 os (request c >>= f) v = some (cs, r, t)) :
    t.db = v.db ∧ ∃ err, r = .error err := by
  cases attempt_issue_bind h with
  | answered hx _ => cases hexec.symm.trans hx
  | refused hx =>
    cases hexec.symm.trans hx
    exact ⟨rfl, _, rfl⟩
  | lost err _ => exact ⟨rfl, _, rfl⟩
  | unacknowledged err' _ =>
    refine ⟨?_, _, rfl⟩
    show (World.exec api c v).2.db = v.db
    rw [hexec]

theorem exec_update {n : ℕ} {data : PaymentData} {q : Payment} {db' : Db}
    (hok : v.db.paymentUpdate n data = .ok (q, db')) :
    World.exec api (.paymentUpdate (some n) data) v = (.ok q, { v with db := db' }) := by
  simp only [World.exec, hok, World.commit]

end Commands

/-- An attempt at a write of a payment: it is lost, or the payment is written. -/
theorem attempt_update {n : ℕ} {data : PaymentData} {q : Payment} {db' : Db} {v t : World σ}
    {os : List (Outcome Err)} {cs : List Cmd} {r : Except Err Unit}
    (hok : v.db.paymentUpdate n data = .ok (q, db'))
    (h : (bookingSystem api).attempt 0 os
      (PaymentsRepository.update (some n) data >>= fun _ => pure ()) v = some (cs, r, t)) :
    (t.db = v.db ∧ (∃ err, r = .error err) ∧ ∃ o ∈ os, o ≠ .answered) ∨ t.db = db' := by
  rcases attempt_command api (exec_update api hok) h with
    ⟨hdb | hdb, hr, ho⟩ | ⟨os', cs', -, -, hrest⟩
  · exact .inl ⟨hdb, hr, ho⟩
  · exact .inr hdb
  · obtain ⟨-, -, -, rfl⟩ := attempt_done hrest
    exact .inr rfl

theorem seen_of_update {n : ℕ} {data : PaymentData} {q : Payment} {db db' : Db}
    (he : data.stripeEventId = some (some e.id))
    (h : db.paymentUpdate n data = .ok (q, db')) : e.Seen db' := by
  obtain ⟨p, hp, -, -, ht⟩ := Db.paymentUpdate_eq_ok h
  refine ⟨data.apply p, ?_, by simp [PaymentData.apply, he]⟩
  simp only [ht, mem_modify]
  exact .inr ⟨p, mem_of_get hp, id_of_get hp, rfl⟩

variable {v t w w' : World σ} {os : List (Outcome Err)} {cs : List Cmd} {r : Except Err Unit}
  {db : Db} {as : List (List (Env A) × List (Outcome Err))}

/-- For an event that counts nothing it is enough to follow the database. -/
theorem step_uncounted (E : Db → Prop)
    (he : ∀ session, e.body ≠ .checkoutSessionAsyncPaymentFailed session)
    (h : attemptOf api e os v = some (cs, r, t))
    (hstep : E t.db ∧ (∃ err, r = .error err) ∧ (∃ o ∈ os, o ≠ .answered) ∨
      (t.db.payments.rows.map Payment.undated = db.payments.rows.map Payment.undated ∧
        t.db.reservations.rows = db.reservations.rows) ∧ (e.Seen t.db ∨ r = .ok ())) :
    E t.db ∧ Idle e w os v cs r ∨ Final e (fun _ => 0) db w os v cs r t := by
  have honly : Uncounted (handleWebhookEvent (.ok e)) := by
    refine Only.bind ((only_issue _).mpr rfl) fun found => ?_
    split_ifs
    · trivial
    · exact dispatch_uncounted he
  have hzero := counts_eq_zero (attempt_only honly h)
  have hnone := not_loses he w os v
  rcases hstep with ⟨ht, hr, ho⟩ | ⟨⟨hp, hres⟩, hstay⟩
  · exact .inl ⟨ht, hr, hzero, hnone, ho⟩
  · exact .inr ⟨hp, hres, hstay, .inl ⟨hzero, hnone⟩, fun _ _ => hnone⟩

theorem other_step (he : ∀ session, e.body ≠ .checkoutSessionAsyncPaymentFailed session)
    (hfresh : ¬ e.Seen w.db) (hv : v.db = w.db) (h : attemptOf api e os v = some (cs, r, t))
    (hrest : ∀ os' cs', (bookingSystem api).attempt 0 os' (dispatch e) v = some (cs', r, t) →
      t.db = w.db ∧ (∃ err, r = .error err) ∧ (∃ o ∈ os', o ≠ .answered) ∨
      (t.db.payments.rows.map Payment.undated = db.payments.rows.map Payment.undated ∧
        t.db.reservations.rows = db.reservations.rows) ∧ (e.Seen t.db ∨ r = .ok ())) :
    t.db = w.db ∧ Idle e w os v cs r ∨ Final e (fun _ => 0) db w os v cs r t := by
  refine step_uncounted api (fun d => d = w.db) he h ?_
  rcases attempt_fresh api w (hv ▸ hfresh) h with ⟨ht, hi⟩ | ⟨os', cs', rfl, rfl, hd⟩
  · exact .inl ⟨ht.trans hv, hi.failed, hi.faulty⟩
  · rcases hrest os' cs' hd with ⟨ht, hr, o, ho, hne⟩ | hf
    · exact .inl ⟨ht, hr, o, List.mem_cons_of_mem _ ho, hne⟩
    · exact .inr hf

/-- A handler that consists of one write of a payment that exists. -/
theorem written_final {n : ℕ} {data : PaymentData} {q : Payment} {db' : Db}
    (he : ∀ session, e.body ≠ .checkoutSessionAsyncPaymentFailed session)
    (hfresh : ¬ e.Seen w.db) (hdata : data.stripeEventId = some (some e.id))
    (hok : w.db.paymentUpdate n data = .ok (q, db'))
    (hd : dispatch e = PaymentsRepository.update (some n) data >>= fun _ => pure ())
    (hv : v.db = w.db) (h : attemptOf api e os v = some (cs, r, t)) :
    t.db = w.db ∧ Idle e w os v cs r ∨ Final e (fun _ => 0) db' w os v cs r t := by
  refine other_step api he hfresh hv h fun os' cs' hrest => ?_
  rw [hd] at hrest
  rcases attempt_update api (hv ▸ hok) hrest with ⟨ht, hr, ho⟩ | ht
  · exact .inl ⟨ht.trans hv, hr, ho⟩
  · rw [ht]
    exact .inr ⟨⟨rfl, rfl⟩, .inl (seen_of_update hdata hok)⟩

theorem refused_idle {n : Option ℕ} {data : PaymentData} {f : Payment → M Unit}
    (hfresh : ¬ e.Seen w.db) (hn : n.bind w.db.payments.get = none)
    (hd : dispatch e = PaymentsRepository.update n data >>= f)
    (hv : v.db = w.db) (h : attemptOf api e os v = some (cs, r, t)) :
    t.db = w.db ∧ ∃ err, r = .error err := by
  rcases attempt_fresh api w (hv ▸ hfresh) h with ⟨ht, hi⟩ | ⟨os', cs', rfl, rfl, hrest⟩
  · exact ⟨ht.trans hv, hi.failed⟩
  · rw [hd] at hrest
    have hexec : ∃ err, World.exec api (.paymentUpdate n data) v = (.error err, v) := by
      cases n with
      | none => exact ⟨_, rfl⟩
      | some n =>
        refine ⟨.prisma .p2025, ?_⟩
        simp only [World.exec, hv, Db.paymentUpdate_missing hn, World.commit]
    obtain ⟨err, hexec⟩ := hexec
    obtain ⟨ht, hr⟩ := attempt_refused api hexec hrest
    exact ⟨ht.trans hv, hr⟩

/-- The events whose handler is one write of the session's payment. -/
theorem written_effects_iff {n : Option ℕ} {s : PaymentStatus}
    (he : ∀ session, e.body ≠ .checkoutSessionAsyncPaymentFailed session)
    (hfresh : ¬ e.Seen w.db)
    (hd : dispatch e = PaymentsRepository.update n
      { status := some s, stripeEventId := some (some e.id) } >>= fun _ => pure ())
    (h : (bookingSystem api).retry 0 (handleWebhookEvent (.ok e)) as w = some (cs, (), w')) :
    SameEffects cs w'.db (issued (World.exec api) (handleWebhookEvent (.ok e)) w)
      (perform api (handleWebhookEvent (.ok e)) w).2.db ↔
      ∀ x ∈ (bookingSystem api).begun 0 (handleWebhookEvent (.ok e)) as w,
        ¬ Loses e w x.1 x.2 := by
  cases hn : n.bind w.db.payments.get with
  | none =>
    exact absurd h (retry_of_idle api (fun d => d = w.db) rfl
      fun v os cs r t hv hatt => refused_idle api hfresh hn hd hv hatt)
  | some p =>
    obtain ⟨n, rfl, hget⟩ := Option.bind_eq_some_iff.mp hn
    have hfresh' : ∀ q ∈ w.db.payments.rows, q.stripeEventId ≠ some e.id := by
      simpa [StripeEvent.Seen] using hfresh
    obtain ⟨db', hok⟩ := Db.paymentUpdate_ok
      { status := some s, stripeEventId := some (some e.id) } hget
      (not_clash_of_fresh hfresh')
    exact effects_iff_of_final api (fun d => d = w.db) (fun _ => 0) db' rfl
      (fun v os cs r t hv hatt => written_final api he hfresh rfl hok hd hv hatt) h

end Uncounted

/-! ### Completed sessions -/

theorem Db.eq_of_toTables {db db' : Db} (h : db.toTables = db'.toTables) : db = db' := by
  cases db
  cases db'
  simp_all

/-- `confirm` is a status that can be set again. -/
theorem confirm_again {db db₁ : Db} {id : ℕ} {r : Reservation}
    (h : db.reservationUpdate id confirmData = .ok (r, db₁)) :
    db₁.reservationUpdate id confirmData = .ok (r, db₁) := by
  obtain ⟨r₀, hr₀, rfl, -, ht⟩ := Db.reservationUpdate_eq_ok h
  have hget : db₁.reservations.get id = some (confirmData.apply r₀) := by
    simp only [ht, get_modify, if_true, hr₀, Option.map_some]
  have hkey : ¬ db₁.reservations.Clash activeKey id (activeKey (confirmData.apply r₀)) :=
    not_clash_of_get db₁.reservation_active_seat_screening_key hget
  obtain ⟨db₂, hok⟩ : ∃ db₂, db₁.reservationUpdate id confirmData =
      .ok (confirmData.apply (confirmData.apply r₀), db₂) := Db.reservationUpdate_ok hget hkey
  obtain ⟨_, -, -, -, ht₂⟩ := Db.reservationUpdate_eq_ok hok
  have hrows : (db₁.reservations.modify id confirmData.apply confirmData.id_apply).rows =
      db₁.reservations.rows := by
    rw [rows_modify_eq_iff, hget]
    intro r hr
    cases hr
    rfl
  have htable : db₁.reservations.modify id confirmData.apply confirmData.id_apply =
      db₁.reservations := Table.eq_of_rows hrows (serial_modify _)
  have hdb : db₂ = db₁ := Db.eq_of_toTables (by rw [ht₂, htable])
  rw [hdb] at hok
  exact hok

section Completed
variable {σ A : Type} (api : StripeApi σ A) {id : ℕ} {session : CheckoutSessionObject}
  {v t w w' : World σ} {os : List (Outcome Err)} {cs : List Cmd} {r : Except Err Unit}
  {as : List (List (Env A) × List (Outcome Err))}

/-- What the paid handler does once it has found the payment. -/
def settlePaid (id : ℕ) (session : CheckoutSessionObject) (p : Payment) : M Unit :=
  request (.reservationUpdate p.reservationId confirmData) >>= fun r =>
    request (.emit (.confirmed r.screeningId [r.seatId])) >>= fun _ =>
      PaymentsRepository.update (some p.id) (successData id session.paymentIntent) >>= fun _ =>
        pure ()

/-- The handler of a completed session reads the payment and goes on from there. -/
theorem completed_eq : handleCheckoutCompleted id session =
    request (.paymentFindById session.paymentId) >>= fun found => match found with
      | none => pure ()
      | some p => if session.paymentStatus = .paid then
          ReservationsService.confirmPayment p.reservationId >>= fun _ =>
            PaymentsRepository.update session.paymentId (successData id session.paymentIntent) >>=
              fun _ => pure ()
        else PaymentsRepository.update session.paymentId
          { status := some .inProgress, stripeEventId := some (some id) } >>= fun _ => pure () := by
  refine congrArg (request (.paymentFindById session.paymentId) >>= ·) (funext fun found => ?_)
  cases found with
  | none => rfl
  | some p => rfl

/-- Past the confirmation, with the reservation confirmed in `db₁` and the payment to
come out in `db₂`. -/
theorem settlePaid_step {p q : Payment} {x : Reservation} {db₁ db₂ : Db}
    (hx : v.db.reservationUpdate p.reservationId confirmData = .ok (x, db₁))
    (hq : db₁.paymentUpdate p.id (successData id session.paymentIntent) = .ok (q, db₂))
    (h : (bookingSystem api).attempt 0 os (settlePaid id session p) v = some (cs, r, t)) :
    ((t.db = v.db ∨ t.db = db₁) ∧ (∃ err, r = .error err) ∧ ∃ o ∈ os, o ≠ .answered) ∨
      t.db = db₂ := by
  have hconfirm : World.exec api (.reservationUpdate p.reservationId confirmData) v =
      (.ok x, { v with db := db₁ }) := by
    simp only [World.exec, hx, World.commit]
  rcases attempt_command api hconfirm h with hfault | ⟨os₁, cs₁, rfl, -, h⟩
  · exact .inl hfault
  rcases attempt_command api rfl h with ⟨hdb, hr, o, ho, hne⟩ | ⟨os₂, cs₂, rfl, -, h⟩
  · exact .inl ⟨.inr (or_self_iff.mp hdb), hr, o, List.mem_cons_of_mem _ ho, hne⟩
  rcases attempt_update api hq h with ⟨hdb, hr, o, ho, hne⟩ | hdb
  · exact .inl ⟨.inr hdb, hr, o, List.mem_cons_of_mem _ (List.mem_cons_of_mem _ ho), hne⟩
  · exact .inr hdb

/-- The attempts of a completed session whose payment exists and that is not paid. -/
theorem unpaid_step {p q : Payment} {n : ℕ} {db' : Db} (hn : session.paymentId = some n)
    (hp : w.db.payments.get n = some p) (hpaid : session.paymentStatus ≠ .paid)
    (hfresh : ¬ StripeEvent.Seen ⟨id, .checkoutSessionCompleted session⟩ w.db)
    (hok : w.db.paymentUpdate n
      { status := some .inProgress, stripeEventId := some (some id) } = .ok (q, db'))
    (hv : v.db = w.db)
    (h : attemptOf api ⟨id, .checkoutSessionCompleted session⟩ os v = some (cs, r, t)) :
    t.db = w.db ∧ Idle ⟨id, .checkoutSessionCompleted session⟩ w os v cs r ∨
      Final ⟨id, .checkoutSessionCompleted session⟩ (fun _ => 0) db' w os v cs r t := by
  refine other_step api nofun hfresh hv h fun os' cs' hrest => ?_
  change (bookingSystem api).attempt 0 os' (handleCheckoutCompleted id session) v = _ at hrest
  rw [completed_eq, hn] at hrest
  rcases attempt_command api rfl hrest with ⟨hdb, hr, ho⟩ | ⟨os₁, cs₁, rfl, -, hrest⟩
  · exact .inl ⟨(or_self_iff.mp hdb).trans hv, hr, ho⟩
  rw [hv, hp] at hrest
  simp only [if_neg hpaid] at hrest
  rcases attempt_update api (hv ▸ hok) hrest with ⟨ht, hr, o, ho, hne⟩ | ht
  · exact .inl ⟨ht.trans hv, hr, o, List.mem_cons_of_mem _ ho, hne⟩
  · rw [ht]
    exact .inr ⟨⟨rfl, rfl⟩, .inl (seen_of_update rfl hok)⟩

/-- The paid handler's attempts up to the point where it has found the payment. -/
theorem paid_reads {p : Payment} (hp : v.db.payments.get p.id = some p)
    (hn : session.paymentId = some p.id) (hpaid : session.paymentStatus = .paid)
    (hfresh : ¬ StripeEvent.Seen ⟨id, .checkoutSessionCompleted session⟩ v.db)
    (h : attemptOf api ⟨id, .checkoutSessionCompleted session⟩ os v = some (cs, r, t)) :
    (t.db = v.db ∧ (∃ err, r = .error err) ∧ ∃ o ∈ os, o ≠ .answered) ∨
      ∃ os' cs', os = .answered :: .answered :: os' ∧
        (bookingSystem api).attempt 0 os' (settlePaid id session p) v = some (cs', r, t) := by
  rcases attempt_fresh api v hfresh h with ⟨ht, hi⟩ | ⟨os₁, cs₁, rfl, -, hrest⟩
  · exact .inl ⟨ht, hi.failed, hi.faulty⟩
  change (bookingSystem api).attempt 0 os₁ (handleCheckoutCompleted id session) v = _ at hrest
  rw [completed_eq, hn] at hrest
  rcases attempt_command api rfl hrest with ⟨hdb, hr, o, ho, hne⟩ | ⟨os₂, cs₂, rfl, -, hrest⟩
  · exact .inl ⟨or_self_iff.mp hdb, hr, o, List.mem_cons_of_mem _ ho, hne⟩
  rw [hp] at hrest
  simp only [if_pos hpaid, ReservationsService.confirmPayment, bind_assoc] at hrest
  exact .inr ⟨os₂, cs₂, rfl, hrest⟩

theorem paid_effects_iff {p : Payment} (hp : w.db.payments.get p.id = some p)
    (hn : session.paymentId = some p.id) (hpaid : session.paymentStatus = .paid)
    (hfresh : ¬ StripeEvent.Seen ⟨id, .checkoutSessionCompleted session⟩ w.db)
    (h : (bookingSystem api).retry 0
      (handleWebhookEvent (.ok ⟨id, .checkoutSessionCompleted session⟩)) as w = some (cs, (), w')) :
    SameEffects cs w'.db (issued (World.exec api)
      (handleWebhookEvent (.ok ⟨id, .checkoutSessionCompleted session⟩)) w)
      (perform api (handleWebhookEvent (.ok ⟨id, .checkoutSessionCompleted session⟩)) w).2.db ↔
      ∀ x ∈ (bookingSystem api).begun 0
        (handleWebhookEvent (.ok ⟨id, .checkoutSessionCompleted session⟩)) as w,
        ¬ Loses ⟨id, .checkoutSessionCompleted session⟩ w x.1 x.2 := by
  cases hx : w.db.reservationUpdate p.reservationId confirmData with
  | error err =>
    refine absurd h (retry_of_idle api (fun d => d = w.db) rfl fun v os cs r t hv h => ?_)
    have hv' : v.db = w.db := hv
    rcases paid_reads api (hv' ▸ hp) hn hpaid (hv' ▸ hfresh) h with
      ⟨ht, hr, -⟩ | ⟨os', cs', -, hrest⟩
    · exact ⟨ht.trans hv, hr⟩
    · have hexec : World.exec api (.reservationUpdate p.reservationId confirmData) v =
          (.error err, v) := by
        simp only [World.exec, hv', hx, World.commit]
      obtain ⟨ht, hr⟩ := attempt_refused api hexec hrest
      exact ⟨ht.trans hv, hr⟩
  | ok out =>
    obtain ⟨x, db₁⟩ := out
    obtain ⟨_, -, -, -, ht₁⟩ := Db.reservationUpdate_eq_ok hx
    have hpay : db₁.payments = w.db.payments := by rw [ht₁]
    -- whether an earlier attempt got to confirm or not, this one confirms and ends in `db₁`
    have hearly : ∀ v : World σ, v.db = w.db ∨ v.db = db₁ → v.db.payments = w.db.payments ∧
        v.db.reservationUpdate p.reservationId confirmData = .ok (x, db₁) := by
      rintro v (hv | hv)
      · rw [hv]
        exact ⟨rfl, hx⟩
      · rw [hv]
        exact ⟨hpay, confirm_again hx⟩
    have hseen : ∀ v : World σ, v.db.payments = w.db.payments →
        ¬ StripeEvent.Seen ⟨id, .checkoutSessionCompleted session⟩ v.db := by
      intro v hv
      rw [StripeEvent.Seen, hv]
      exact hfresh
    cases hq : db₁.paymentUpdate p.id (successData id session.paymentIntent) with
    | error err =>
      refine absurd h (retry_of_idle api (fun d => d = w.db ∨ d = db₁) (.inl rfl)
        fun v os cs r t hv h => ?_)
      obtain ⟨hsame, hconfirm⟩ := hearly v hv
      rcases paid_reads api (hsame ▸ hp) hn hpaid (hseen v hsame) h with
        ⟨ht, hr, -⟩ | ⟨os', cs', -, hrest⟩
      · exact ⟨ht ▸ hv, hr⟩
      have hexec : World.exec api (.reservationUpdate p.reservationId confirmData) v =
          (.ok x, { v with db := db₁ }) := by
        simp only [World.exec, hconfirm, World.commit]
      rcases attempt_command api hexec hrest with ⟨ht | ht, hr, -⟩ | ⟨os₁, cs₁, -, -, hrest⟩
      · exact ⟨ht ▸ hv, hr⟩
      · exact ⟨.inr ht, hr⟩
      rcases attempt_command api rfl hrest with ⟨ht, hr, -⟩ | ⟨os₂, cs₂, -, -, hrest⟩
      · exact ⟨.inr (or_self_iff.mp ht), hr⟩
      have hrefuse : ∀ u : World σ, u.db = db₁ → World.exec api (.paymentUpdate (some p.id)
          (successData id session.paymentIntent)) u = (.error err, u) := by
        intro u hu
        simp only [World.exec, hu, hq, World.commit]
      obtain ⟨ht, hr⟩ := attempt_refused api (hrefuse _ rfl) hrest
      exact ⟨.inr ht, hr⟩
    | ok out =>
      obtain ⟨q, db₂⟩ := out
      refine effects_iff_of_final api (fun d => d = w.db ∨ d = db₁) (fun _ => 0) db₂
        (.inl rfl) (fun v os cs r t hv h => ?_) h
      obtain ⟨hsame, hconfirm⟩ := hearly v hv
      have hbody : ∀ s, StripeEventBody.checkoutSessionCompleted session ≠
          .checkoutSessionAsyncPaymentFailed s := fun s heq => by cases heq
      refine step_uncounted api (fun d => d = w.db ∨ d = db₁) hbody h ?_
      rcases paid_reads api (hsame ▸ hp) hn hpaid (hseen v hsame) h with
        ⟨ht, hr, ho⟩ | ⟨os', cs', rfl, hrest⟩
      · exact .inl ⟨ht ▸ hv, hr, ho⟩
      rcases settlePaid_step api hconfirm hq hrest with ⟨ht | ht, hr, o, ho, hne⟩ | ht
      · exact .inl ⟨ht ▸ hv, hr, o, by simp [ho], hne⟩
      · exact .inl ⟨.inr ht, hr, o, by simp [ho], hne⟩
      · rw [ht]
        exact .inr ⟨⟨rfl, rfl⟩, .inl (seen_of_update rfl hq)⟩

theorem completed_effects_iff
    (hfresh : ¬ StripeEvent.Seen ⟨id, .checkoutSessionCompleted session⟩ w.db)
    (h : (bookingSystem api).retry 0
      (handleWebhookEvent (.ok ⟨id, .checkoutSessionCompleted session⟩)) as w = some (cs, (), w')) :
    SameEffects cs w'.db (issued (World.exec api)
      (handleWebhookEvent (.ok ⟨id, .checkoutSessionCompleted session⟩)) w)
      (perform api (handleWebhookEvent (.ok ⟨id, .checkoutSessionCompleted session⟩)) w).2.db ↔
      ∀ x ∈ (bookingSystem api).begun 0
        (handleWebhookEvent (.ok ⟨id, .checkoutSessionCompleted session⟩)) as w,
        ¬ Loses ⟨id, .checkoutSessionCompleted session⟩ w x.1 x.2 := by
  cases hn : session.paymentId with
  | none =>
    refine absurd h (retry_of_idle api (fun d => d = w.db) rfl fun v os cs r t hv h => ?_)
    have hv' : v.db = w.db := hv
    rcases attempt_fresh api w (hv' ▸ hfresh) h with ⟨ht, hi⟩ | ⟨os', cs', -, -, hrest⟩
    · exact ⟨ht.trans hv, hi.failed⟩
    · change (bookingSystem api).attempt 0 os' (handleCheckoutCompleted id session) v = _ at hrest
      rw [completed_eq, hn] at hrest
      obtain ⟨ht, hr⟩ := attempt_refused api rfl hrest
      exact ⟨ht.trans hv, hr⟩
  | some n =>
    cases hp : w.db.payments.get n with
    | none =>
      refine effects_iff_of_final api (fun d => d = w.db) (fun _ => 0) w.db rfl
        (fun v os cs r t hv h => ?_) h
      refine other_step api nofun hfresh hv h fun os' cs' hrest => ?_
      have hv' : v.db = w.db := hv
      change (bookingSystem api).attempt 0 os' (handleCheckoutCompleted id session) v = _ at hrest
      rw [completed_eq, hn] at hrest
      rcases attempt_command api rfl hrest with ⟨hdb, hr, ho⟩ | ⟨os₁, cs₁, -, -, hrest⟩
      · exact .inl ⟨(or_self_iff.mp hdb).trans hv, hr, ho⟩
      · rw [hv', hp] at hrest
        obtain ⟨-, -, rfl, rfl⟩ := attempt_done hrest
        rw [hv']
        exact .inr ⟨⟨rfl, rfl⟩, .inr rfl⟩
    | some p =>
      have hid : p.id = n := id_of_get hp
      by_cases hpaid : session.paymentStatus = .paid
      · subst hid
        exact paid_effects_iff api hp hn hpaid hfresh h
      · have hfresh' : ∀ q ∈ w.db.payments.rows, q.stripeEventId ≠ some id := by
          simpa [StripeEvent.Seen] using hfresh
        obtain ⟨db', hok⟩ := Db.paymentUpdate_ok
          { status := some .inProgress, stripeEventId := some (some id) } hp
          (not_clash_of_fresh hfresh')
        exact effects_iff_of_final api (fun d => d = w.db) (fun _ => 0) db' rfl
          (fun v os cs r t hv h => unpaid_step api hn hp hpaid hfresh hok hv h) h

end Completed

/-! ### Disputes -/

section Dispute
variable {σ A : Type} (api : StripeApi σ A) {id : ℕ} {dispute : DisputeObject}
  {v t w w' : World σ} {os : List (Outcome Err)} {cs : List Cmd} {r : Except Err Unit}
  {as : List (List (Env A) × List (Outcome Err))}

/-- The `data` of a dispute that is recorded at `now`. -/
def disputeData (id : ℕ) (dispute : DisputeObject) (now : Time) : PaymentData :=
  { disputed := some (some true), disputeReason := some (some dispute.reason),
    disputedAt := some (some now), stripeEventId := some (some id) }

theorem dispute_eq : handleDisputeCreated id dispute =
    request (.paymentFindByStripePaymentId dispute.paymentIntent) >>= fun found =>
      match found with
      | none => pure ()
      | some p => request .dateNow >>= fun now =>
          PaymentsRepository.update (some p.id) (disputeData id dispute now) >>= fun _ =>
            pure () := by
  refine congrArg (request (.paymentFindByStripePaymentId dispute.paymentIntent) >>= ·)
    (funext fun found => ?_)
  cases found with
  | none => rfl
  | some p => rfl

/-- The rows a dispute leaves do not depend on its instant, but for that instant. -/
theorem disputed_rows {db db₁ db₂ : Db} {n : ℕ} {now now' : Time} {p q : Payment}
    (h₁ : db.paymentUpdate n (disputeData id dispute now) = .ok (p, db₁))
    (h₂ : db.paymentUpdate n (disputeData id dispute now') = .ok (q, db₂)) :
    db₁.payments.rows.map Payment.undated = db₂.payments.rows.map Payment.undated ∧
      db₁.reservations.rows = db₂.reservations.rows := by
  obtain ⟨_, -, -, -, ht₁⟩ := Db.paymentUpdate_eq_ok h₁
  obtain ⟨_, -, -, -, ht₂⟩ := Db.paymentUpdate_eq_ok h₂
  refine ⟨?_, by rw [ht₁, ht₂]⟩
  rw [ht₁, ht₂]
  simp only [rows_modify, List.map_map]
  refine List.map_congr_left fun p _ => ?_
  simp only [Function.comp_apply, atKey]
  split_ifs <;> rfl

theorem dispute_effects_iff
    (hfresh : ¬ StripeEvent.Seen ⟨id, .chargeDisputeCreated dispute⟩ w.db)
    (h : (bookingSystem api).retry 0
      (handleWebhookEvent (.ok ⟨id, .chargeDisputeCreated dispute⟩)) as w = some (cs, (), w')) :
    SameEffects cs w'.db (issued (World.exec api)
      (handleWebhookEvent (.ok ⟨id, .chargeDisputeCreated dispute⟩)) w)
      (perform api (handleWebhookEvent (.ok ⟨id, .chargeDisputeCreated dispute⟩)) w).2.db ↔
      ∀ x ∈ (bookingSystem api).begun 0
        (handleWebhookEvent (.ok ⟨id, .chargeDisputeCreated dispute⟩)) as w,
        ¬ Loses ⟨id, .chargeDisputeCreated dispute⟩ w x.1 x.2 := by
  cases hi : dispute.paymentIntent with
  | none =>
    refine absurd h (retry_of_idle api (fun d => d = w.db) rfl fun v os cs r t hv h => ?_)
    have hv' : v.db = w.db := hv
    rcases attempt_fresh api w (hv' ▸ hfresh) h with ⟨ht, hi⟩ | ⟨os', cs', -, -, hrest⟩
    · exact ⟨ht.trans hv, hi.failed⟩
    · change (bookingSystem api).attempt 0 os' (handleDisputeCreated id dispute) v = _ at hrest
      rw [dispute_eq, hi] at hrest
      obtain ⟨ht, hr⟩ := attempt_refused api rfl hrest
      exact ⟨ht.trans hv, hr⟩
  | some i =>
    cases hp : w.db.payments.rows.find? (fun q => q.stripePaymentId = some i) with
    | none =>
      refine effects_iff_of_final api (fun d => d = w.db) (fun _ => 0) w.db rfl
        (fun v os cs r t hv h => ?_) h
      refine other_step api nofun hfresh hv h fun os' cs' hrest => ?_
      have hv' : v.db = w.db := hv
      change (bookingSystem api).attempt 0 os' (handleDisputeCreated id dispute) v = _ at hrest
      rw [dispute_eq, hi] at hrest
      rcases attempt_command api rfl hrest with ⟨hdb, hr, ho⟩ | ⟨os₁, cs₁, -, -, hrest⟩
      · exact .inl ⟨(or_self_iff.mp hdb).trans hv, hr, ho⟩
      · rw [hv', hp] at hrest
        obtain ⟨-, -, rfl, rfl⟩ := attempt_done hrest
        rw [hv']
        exact .inr ⟨⟨rfl, rfl⟩, .inr rfl⟩
    | some p =>
      have hget : w.db.payments.get p.id = some p := get_of_mem (List.mem_of_find?_eq_some hp)
      have hfresh' : ∀ q ∈ w.db.payments.rows, q.stripeEventId ≠ some id := by
        simpa [StripeEvent.Seen] using hfresh
      have hok : ∀ now, ∃ db', w.db.paymentUpdate p.id (disputeData id dispute now) =
          .ok ((disputeData id dispute now).apply p, db') := fun now =>
        Db.paymentUpdate_ok (disputeData id dispute now) hget (not_clash_of_fresh hfresh')
      obtain ⟨db', hok'⟩ := hok w.now
      refine effects_iff_of_final api (fun d => d = w.db) (fun _ => 0) db' rfl
        (fun v os cs r t hv h => ?_) h
      refine other_step api nofun hfresh hv h fun os' cs' hrest => ?_
      have hv' : v.db = w.db := hv
      change (bookingSystem api).attempt 0 os' (handleDisputeCreated id dispute) v = _ at hrest
      rw [dispute_eq, hi] at hrest
      rcases attempt_command api rfl hrest with ⟨hdb, hr, ho⟩ | ⟨os₁, cs₁, rfl, -, hrest⟩
      · exact .inl ⟨(or_self_iff.mp hdb).trans hv, hr, ho⟩
      rw [hv', hp] at hrest
      rcases attempt_command api rfl hrest with ⟨hdb, hr, o, ho, hne⟩ | ⟨os₂, cs₂, rfl, -, hrest⟩
      · exact .inl ⟨(or_self_iff.mp hdb).trans hv, hr, o, List.mem_cons_of_mem _ ho, hne⟩
      obtain ⟨db₂, hok₂⟩ := hok v.now
      rcases attempt_update api (hv' ▸ hok₂) hrest with ⟨ht, hr, o, ho, hne⟩ | ht
      · exact .inl ⟨ht.trans hv, hr, o, by simp [ho], hne⟩
      · rw [ht]
        exact .inr ⟨disputed_rows hok₂ hok', .inl (seen_of_update rfl hok₂)⟩

end Dispute

/-! ### Failed payments -/

section Failed
variable {σ A : Type} (api : StripeApi σ A) {id : ℕ} {session : CheckoutSessionObject}
  {v t w w' : World σ} {os : List (Outcome Err)} {cs : List Cmd} {r : Except Err Unit}
  {as : List (List (Env A) × List (Outcome Err))}

/-- What one delivery, begun in `w`, counts. -/
def countOne (w : World σ) (owner u : ℕ) : ℕ × ℕ :=
  if u = owner then (1, if LockoutDue w owner then 1 else 0) else 0

/-- A live set stays live for the moment. -/
theorem live_live (z : SortedSet) (scores : List Time) (now : Time) :
    SortedSet.live { z.live now with scores } now = { z.live now with scores } := by
  unfold SortedSet.live
  split_ifs with h h' <;> first | rfl | cases h'

/-- What ZCARD answers decides on the lockout. -/
theorem card_iff_due (w : World σ) (u : ℕ) :
    PaymentAbuseService.failureThreshold ≤ ((((((w.onFailures u
      fun z => { z with scores := z.scores ++ [w.now] }).onFailures u
      fun z => { z with expiresAt := some (w.now + PaymentAbuseService.windowMs) }).onFailures u
      fun z => { z with scores := z.scores.filter fun t =>
        ¬ (0 ≤ t ∧ t ≤ w.now - PaymentAbuseService.windowMs) }).redis.paymentFailures u).live
          w.now).scores.length) ↔ LockoutDue w u := by
  have hlast : ∀ scores : List Time, SortedSet.live
      ⟨scores, some (w.now + PaymentAbuseService.windowMs)⟩ w.now =
        ⟨scores, some (w.now + PaymentAbuseService.windowMs)⟩ := by
    intro scores
    simp [SortedSet.live, PaymentAbuseService.windowMs]
  have hnew : ¬ (0 ≤ w.now ∧ w.now ≤ w.now - PaymentAbuseService.windowMs) := by
    simp [PaymentAbuseService.windowMs]
  simp only [World.onFailures, Function.update_self, live_live, hlast, List.filter_append,
    List.length_append, LockoutDue]
  rw [List.filter_singleton, decide_eq_true hnew]
  rfl

/-- `recordFailure` from ZADD on. -/
def recordFrom (u : ℕ) (now : Time) : M Unit := do
  request (.zaddFailure u now)
  request (.pexpireFailures u PaymentAbuseService.windowMs)
  request (.zremrangeFailures u (now - PaymentAbuseService.windowMs))
  let count : ℕ ← request (.zcardFailures u)
  if PaymentAbuseService.failureThreshold ≤ count then
    request (.setLockout u PaymentAbuseService.lockoutMs) else pure ()

/-- An attempt that counts the failure locks out if that is due and it comes so far. -/
theorem recordFrom_counts {u : ℕ} (hlost : ∀ err os', os ≠ .lost err :: os')
    (h : (bookingSystem api).attempt 0 os (recordFrom u v.now) v = some (cs, r, t)) :
    (∀ x, counts x cs =
      if x = u then (1, if LockoutDue v u ∧ SetsLockout os then 1 else 0) else 0) ∧
    ((∀ o ∈ os, o = .answered) → LockoutDue v u → SetsLockout os) := by
  -- it breaks off before the lockout
  have hearly : ∀ {l : List Cmd} {os' : List (Outcome Err)}, (∀ c ∈ l, c.counts = false) →
      SetsLockout os' = false → (∃ o ∈ os', o ≠ .answered) →
      (∀ x, counts x (.zaddFailure u v.now :: l) =
        if x = u then (1, if LockoutDue v u ∧ SetsLockout os' then 1 else 0) else 0) ∧
      ((∀ o ∈ os', o = .answered) → LockoutDue v u → SetsLockout os') := by
    intro l os' hl hnot ⟨o, ho, hne⟩
    refine ⟨fun x => ?_, fun hall => absurd (hall o ho) hne⟩
    rw [hnot, ← List.singleton_append, counts_append, counts_eq_zero hl, add_zero, counts_zadd]
    simp
  -- it has locked out
  have hlate : ∀ {os' : List (Outcome Err)}, LockoutDue v u → SetsLockout os' = true →
      (∀ x, counts x [.zaddFailure u v.now, .pexpireFailures u PaymentAbuseService.windowMs,
        .zremrangeFailures u (v.now - PaymentAbuseService.windowMs), .zcardFailures u,
        .setLockout u PaymentAbuseService.lockoutMs] =
        if x = u then (1, if LockoutDue v u ∧ SetsLockout os' then 1 else 0) else 0) ∧
      ((∀ o ∈ os', o = .answered) → LockoutDue v u → SetsLockout os') := by
    intro os' hdue hsets
    refine ⟨fun x => ?_, fun _ _ => hsets⟩
    refine (counts_append x [.zaddFailure u v.now] (_ :: _ :: _ :: [_])).trans ?_
    refine (congrArg (_ + ·) (counts_append x [_, _, _] [_])).trans ?_
    rw [counts_zadd, counts_setLockout, counts_eq_zero (by simp [Cmd.counts])]
    simp only [hsets, hdue, and_self, if_true]
    split_ifs <;> rfl
  cases attempt_issue_bind h with
  | lost err _ => exact absurd rfl (hlost err [])
  | refused hx => cases hx
  | unacknowledged err _ => exact hearly (by simp) rfl ⟨_, List.mem_cons_self, nofun⟩
  | answered hx hrest =>
    cases hx
    cases attempt_issue_bind hrest with
    | refused hx => cases hx
    | lost err _ => exact hearly (by simp) rfl ⟨.lost err, by simp, nofun⟩
    | unacknowledged err _ =>
      exact hearly (by simp [Cmd.counts]) rfl ⟨.unacknowledged err, by simp, nofun⟩
    | answered hx hrest =>
      cases hx
      cases attempt_issue_bind hrest with
      | refused hx => cases hx
      | lost err _ => exact hearly (by simp [Cmd.counts]) rfl ⟨.lost err, by simp, nofun⟩
      | unacknowledged err _ =>
        exact hearly (by simp [Cmd.counts]) rfl ⟨.unacknowledged err, by simp, nofun⟩
      | answered hx hrest =>
        cases hx
        cases attempt_issue_bind hrest with
        | refused hx => cases hx
        | lost err _ => exact hearly (by simp [Cmd.counts]) rfl ⟨.lost err, by simp, nofun⟩
        | unacknowledged err _ =>
          exact hearly (by simp [Cmd.counts]) rfl ⟨.unacknowledged err, by simp, nofun⟩
        | answered hx hrest =>
          cases hx
          have hcard := card_iff_due v u
          split_ifs at hrest with henough
          · have hdue : LockoutDue v u := hcard.mp henough
            rw [← bind_pure (request _)] at hrest
            cases attempt_issue_bind hrest with
            | refused hx => cases hx
            | lost err _ => exact hearly (by simp [Cmd.counts]) rfl ⟨.lost err, by simp, nofun⟩
            | unacknowledged err _ => exact hlate hdue rfl
            | answered hx hrest =>
              cases hx
              obtain ⟨rfl, rfl, -, -⟩ := attempt_done hrest
              exact hlate hdue rfl
          · have hdue : ¬ LockoutDue v u := fun h => henough (hcard.mpr h)
            obtain ⟨rfl, rfl, -, -⟩ := attempt_done hrest
            refine ⟨fun x => ?_, fun _ h => absurd h hdue⟩
            refine (counts_append x [.zaddFailure u v.now] (_ :: _ :: [_])).trans ?_
            rw [counts_zadd, counts_eq_zero (by simp [Cmd.counts]), add_zero]
            simp only [hdue, false_and, if_false]

theorem loses_counted {u : ℕ}
    (hpayer : StripeEvent.payer ⟨id, .checkoutSessionAsyncPaymentFailed session⟩ w.db = some u)
    (hlost : ∀ err os', os ≠ .lost err :: os') (hne : os ≠ []) :
    Loses ⟨id, .checkoutSessionAsyncPaymentFailed session⟩ w
      (.answered :: .answered :: .answered :: .answered :: os) v ↔
        ¬ (LockoutDue w u ↔ LockoutDue v u ∧ SetsLockout os) := by
  cases os with
  | nil => exact absurd rfl hne
  | cons o os =>
    cases o with
    | lost err => exact absurd rfl (hlost err os)
    | answered | unacknowledged err => simp [Loses, hpayer]

theorem failed_step {q : Payment} {x : Reservation} {n : ℕ} {db' : Db}
    (hn : session.paymentId = some n)
    (hfresh : ¬ StripeEvent.Seen ⟨id, .checkoutSessionAsyncPaymentFailed session⟩ w.db)
    (hpayer : StripeEvent.payer ⟨id, .checkoutSessionAsyncPaymentFailed session⟩ w.db =
      some x.userId)
    (hok : w.db.paymentUpdate n
      { status := some .failed, stripeEventId := some (some id) } = .ok (q, db'))
    (hx : db'.reservations.get q.reservationId = some x) (hv : v.db = w.db)
    (h : attemptOf api ⟨id, .checkoutSessionAsyncPaymentFailed session⟩ os v = some (cs, r, t)) :
    t.db = w.db ∧ Idle ⟨id, .checkoutSessionAsyncPaymentFailed session⟩ w os v cs r ∨
      Final ⟨id, .checkoutSessionAsyncPaymentFailed session⟩ (countOne w x.userId) db' w os v cs r
        t := by
  have hdone : StripeEvent.Seen ⟨id, .checkoutSessionAsyncPaymentFailed session⟩ db' :=
    seen_of_update rfl hok
  have hlost : ∃ u, 0 ≠ countOne w x.userId u :=
    ⟨x.userId, fun h => by simpa [countOne] using congrArg Prod.fst h⟩
  rcases attempt_fresh api w (hv ▸ hfresh) h with ⟨ht, hi⟩ | ⟨os₁, cs₁, rfl, rfl, hrest⟩
  · exact .inl ⟨ht.trans hv, hi⟩
  change (bookingSystem api).attempt 0 os₁ (PaymentsRepository.update session.paymentId
    { status := some .failed, stripeEventId := some (some id) } >>= fun payment =>
      ReservationsService.getById payment.reservationId >>= fun reservation =>
        PaymentAbuseService.recordFailure reservation.userId) v = _ at hrest
  rw [hn] at hrest
  have hexec := exec_update api (v := v) (hv ▸ hok)
  cases attempt_issue_bind hrest with
  | lost err _ =>
    exact .inl ⟨hv, ⟨_, rfl⟩, fun _ => rfl, fun h => h, .lost err, by simp, nofun⟩
  | refused hx' => cases hexec.symm.trans hx'
  | unacknowledged err _ =>
    have ht : ((bookingSystem api).exec 0 (.paymentUpdate (some n)
        { status := some .failed, stripeEventId := some (some id) }) v).2.db = db' := by
      show (World.exec api _ v).2.db = db'
      rw [hexec]
    exact .inr ⟨by rw [ht], by rw [ht], .inl (ht ▸ hdone), .inr ⟨trivial, hlost⟩,
      fun hall => absurd (hall (.unacknowledged err) (by simp)) nofun⟩
  | answered hx' hrest =>
    cases hexec.symm.trans hx'
    simp only [ReservationsService.getById, bind_assoc] at hrest
    cases attempt_issue_bind hrest with
    | lost err _ =>
      exact .inr ⟨rfl, rfl, .inl hdone, .inr ⟨trivial, hlost⟩,
        fun hall => absurd (hall (.lost err) (by simp)) nofun⟩
    | unacknowledged err _ =>
      exact .inr ⟨rfl, rfl, .inl hdone, .inr ⟨trivial, hlost⟩,
        fun hall => absurd (hall (.unacknowledged err) (by simp)) nofun⟩
    | refused hx' => cases hx'
    | answered hx' hrest =>
      cases hx'
      rw [hx] at hrest
      change (bookingSystem api).attempt 0 _ (request .dateNow >>= fun now =>
        recordFrom x.userId now) _ = _ at hrest
      cases attempt_issue_bind hrest with
      | lost err hf | unacknowledged err hf => cases hf
      | refused hx' => cases hx'
      | @answered _ _ _ os₅ cs₅ _ hx' hrest =>
        cases hx'
        have hquiet : Only (fun c => c.quiet) (recordFrom x.userId v.now) :=
          (PaymentAbuseService.recordFailure_quiet x.userId).2 (.ok v.now)
        have ht : t.db = db' := attempt_keeps (I := fun u : World σ => u.db = db')
          (fun c u hc hu => (World.exec_quiet api hc u).trans hu) hquiet rfl hrest
        by_cases hlose : ∃ err os', os₅ = .lost err :: os'
        · obtain ⟨err, os', rfl⟩ := hlose
          cases attempt_issue_bind hrest with
          | lost err _ =>
            exact .inr ⟨rfl, rfl, .inl hdone, .inr ⟨trivial, hlost⟩,
              fun hall => absurd (hall (.lost err) (by simp)) nofun⟩
        obtain ⟨hcounts, hwhole⟩ := recordFrom_counts api
          (fun err os' h => hlose ⟨err, os', h⟩) hrest
        have hloses := loses_counted (v := v) hpayer (fun err os' h => hlose ⟨err, os', h⟩)
          (show os₅ ≠ [] by rintro rfl; cases hrest)
        have hsum : ∀ y, counts y (.paymentFindByStripeEventId id ::
            .paymentUpdate (some n) { status := some .failed, stripeEventId := some (some id) } ::
            .reservationFindById q.reservationId :: .dateNow :: cs₅) =
              if y = x.userId then (1, if LockoutDue v x.userId ∧ SetsLockout os₅ then 1 else 0)
              else 0 := by
          intro y
          refine (counts_append y [_, _, _, _] cs₅).trans ?_
          rw [counts_eq_zero (by simp [Cmd.counts]), zero_add]
          exact hcounts y
        refine .inr ⟨by rw [ht], by rw [ht], .inl (ht ▸ hdone), ?_, fun hall hvw hl => ?_⟩
        · by_cases hsame : LockoutDue w x.userId ↔ LockoutDue v x.userId ∧ SetsLockout os₅
          · refine .inl ⟨fun y => (hsum y).trans ?_, fun hl => hloses.mp hl hsame⟩
            simp only [countOne, hsame]
          · refine .inr ⟨hloses.mpr hsame, x.userId, fun heq => hsame ?_⟩
            have hlocked := congrArg Prod.snd ((hsum x.userId).symm.trans heq)
            simp only [countOne, if_true] at hlocked
            split_ifs at hlocked with h₁ h₂ h₂
            · exact iff_of_true h₂ h₁
            · exact iff_of_false h₂ h₁
        · refine hloses.mp hl ?_
          rw [hvw]
          refine ⟨fun hdue => ⟨hdue, hwhole (fun o ho => hall o (by simp [ho])) ?_⟩, And.left⟩
          rw [← hvw] at hdue
          exact hdue

theorem failed_effects_iff
    (hfresh : ¬ StripeEvent.Seen ⟨id, .checkoutSessionAsyncPaymentFailed session⟩ w.db)
    (h : (bookingSystem api).retry 0 (handleWebhookEvent
      (.ok ⟨id, .checkoutSessionAsyncPaymentFailed session⟩)) as w = some (cs, (), w')) :
    SameEffects cs w'.db (issued (World.exec api)
      (handleWebhookEvent (.ok ⟨id, .checkoutSessionAsyncPaymentFailed session⟩)) w)
      (perform api (handleWebhookEvent
        (.ok ⟨id, .checkoutSessionAsyncPaymentFailed session⟩)) w).2.db ↔
      ∀ x ∈ (bookingSystem api).begun 0
        (handleWebhookEvent (.ok ⟨id, .checkoutSessionAsyncPaymentFailed session⟩)) as w,
        ¬ Loses ⟨id, .checkoutSessionAsyncPaymentFailed session⟩ w x.1 x.2 := by
  cases hp : session.paymentId.bind w.db.payments.get with
  | none =>
    exact absurd h (retry_of_idle api (fun d => d = w.db) rfl
      fun v os cs r t hv hatt => refused_idle api hfresh hp rfl hv hatt)
  | some p =>
    obtain ⟨n, hn, hget⟩ := Option.bind_eq_some_iff.mp hp
    have hfresh' : ∀ q ∈ w.db.payments.rows, q.stripeEventId ≠ some id := by
      simpa [StripeEvent.Seen] using hfresh
    obtain ⟨db', hok⟩ := Db.paymentUpdate_ok
      { status := some .failed, stripeEventId := some (some id) } hget
      (not_clash_of_fresh hfresh')
    obtain ⟨_, -, -, -, ht⟩ := Db.paymentUpdate_eq_ok hok
    obtain ⟨x, hx⟩ := w.db.payment_reservation.get (mem_of_get hget)
    have hx' : db'.reservations.get p.reservationId = some x := by
      rw [ht]
      exact hx
    have hpayer : StripeEvent.payer ⟨id, .checkoutSessionAsyncPaymentFailed session⟩ w.db =
        some x.userId := by
      simp only [StripeEvent.payer, hp, Option.bind_some, hx, Option.map_some]
    exact effects_iff_of_final api (fun d => d = w.db) (countOne w x.userId) db' rfl
      (fun v os cs r t hv hatt => failed_step api hn hfresh hpayer hok hx' hv hatt) h

end Failed

/-! ### Every event -/

/-- User 1 holds seat 1 and has opened the checkout session. -/
def heldInSession : World Account :=
  afterTurns [.perform (.reserve 1 ⟨1, 1⟩) inOrder, .perform (.createCheckoutSession 1 1) []]

/-- The payment of session 1 failed. -/
def paymentFailed : StripeEvent :=
  ⟨2, .checkoutSessionAsyncPaymentFailed ⟨.unpaid, some 1, some 1⟩⟩

/-- The first attempt does not reach the payment; the second goes through. -/
def lostAtOnce : List (List (Env Account.Action) × List (Outcome Err)) :=
  [([], [.answered, .lost .unreachable]), ([.advance 60000], List.replicate 8 .answered)]

/-- The first attempt marks the payment and cannot read the reservation; the second finds
the event on the payment and returns. -/
def lostAfterUpdate : List (List (Env Account.Action) × List (Outcome Err)) :=
  [([], [.answered, .answered, .lost .unreachable]), ([.advance 60000], [.answered])]

end MovieReservation
