import MovieReservation.Properties.HeldSeats
import MovieReservation.Services.Admin

/-! Every hold ends. In whatever order the services run, a held reservation has a deadline that
is at most the lifetime of a checkout session away, and only an extension moves it; so a sweep
with a later cutoff leaves no such hold behind. -/

namespace MovieReservation

open Lib Lib.Prog Lib.System Lib.Table PaymentsService

variable {σ A : Type} {api : StripeApi σ A}

/-- Every held reservation has a deadline, and none lies farther away than a session that is
created now would. -/
structure Brief (tr : Log) (w : World σ) : Prop where
  clock : ∀ i t, (i, ⟨.dateNow, .ok t⟩) ∈ tr → t ≤ w.now
  held : ∀ n r, w.db.reservations.get n = some r → r.status = .held →
    ∃ u, r.heldUntil = some u ∧ u ≤ expiry w.now * 1000

theorem expiry_le (t : Time) : expiry t * 1000 ≤ t + checkoutExpiryMinutes * 60000 := by
  unfold expiry checkoutExpiryMinutes
  omega

theorem brief_start {w : World σ} (h : w.db.reservations.rows = []) : Brief [] w where
  clock i t ht := by cases ht
  held n r hr := by
    have hmem := mem_of_get hr
    rw [h] at hmem
    cases hmem

theorem Brief.elapse {tr : Log} {w : World σ} (h : Brief tr w) (e : Env A) :
    Brief tr (w.elapse api e) where
  clock i t ht := le_trans (h.clock i t ht) (elapse_now api e w)
  held n r hr hheld := by
    rw [World.elapse_db] at hr
    obtain ⟨u, hu, hle⟩ := h.held n r hr hheld
    exact ⟨u, hu, le_trans hle (expiry_mono (elapse_now api e w))⟩

theorem Brief.lost {tr : Log} {w : World σ} (h : Brief tr w) (i : ℕ) (c : Cmd) (e : Err) :
    Brief (tr ++ [(i, ⟨c, .error e⟩)]) w where
  clock j t ht := by
    rcases mem_snoc ht with hold | ⟨-, he⟩
    · exact h.clock j t hold
    · cases he
  held := h.held

section Step
variable {tr : Log} {w : World σ} {i : ℕ} {op : Request} {c : Cmd}
  {k : Except Err c.Reply → M Response}

theorem Brief.held_step (h : Brief tr w) (hpath : Follows op.handle (own i tr) (.call c k)) {n : ℕ}
    {s : Reservation} (hs : (World.exec api c w).2.db.reservations.get n = some s)
    (hheld : s.status = .held) : ∃ u, s.heldUntil = some u ∧ u ≤ expiry w.now * 1000 := by
  have hc : RequestCmd op c := (hpath.only_rest op.handle_only).1
  rcases hc.reservation api hs with ⟨r, hr, hrw⟩ | ⟨p, rfl, -, rfl⟩
  · cases hrw with
    | keep => exact h.held n s hr hheld
    | lapse => cases hheld
    | extend t =>
      cases op with
      | admin op =>
        cases hc with
        | read hquiet _ => cases hquiet
      | booking op =>
        obtain ⟨_, _, now, -, ht, hnow, -⟩ := seller_knows hpath
        exact ⟨t, rfl, ht ▸ expiry_mono (h.clock i now ((hnow now).mpr rfl))⟩
    | cancel => cases hheld
    | confirm => cases hheld
    | decline => cases hheld
    | settle => cases hheld
  · cases op with
    | admin op =>
      cases hc with
      | read hquiet _ => cases hquiet
    | booking op =>
      obtain ⟨t, ht, hp⟩ := op.handle_grounded.path hpath
      exact ⟨_, rfl, hp ▸ hold_le_expiry (h.clock i t (mem_own.mp ht))⟩

theorem Brief.exec (h : Brief tr w) (hpath : Follows op.handle (own i tr) (.call c k))
    {r : Except Err c.Reply} (hr : r = (World.exec api c w).1 ∨ ∃ e, r = .error e) :
    Brief (tr ++ [(i, ⟨c, r⟩)]) (World.exec api c w).2 where
  clock j t ht := by
    rw [World.exec_now]
    rcases mem_snoc ht with hold | ⟨-, he⟩
    · exact h.clock j t hold
    · obtain ⟨rfl, hans⟩ := Sigma.mk.inj he
      rcases hr with rfl | ⟨e, rfl⟩
      · have hnow : t = w.now := Except.ok.inj (eq_of_heq hans)
        exact le_of_eq hnow
      · cases eq_of_heq hans
  held n s hs hheld := by
    rw [World.exec_now]
    exact h.held_step hpath hs hheld

end Step

theorem brief_run (api : StripeApi σ A) {w : World σ} (hw : w.db.reservations.rows = [])
    {xs : List (Choice Err Request (Env A))}
    {q : Pool Cmd Cmd.Reply Err (World σ) Request Response}
    (hx : (serviceSystem api).schedule xs ⟨w, []⟩ = some q) :
    Brief ((serviceSystem api).trace xs ⟨w, []⟩) q.state := by
  refine history_rule (I := fun _ tr _ t => Brief tr t) ?_ ?_ ?_ ?_ ?_ hx
  · exact brief_start hw
  · intro ops tr _ t op h
    exact h
  · intro ops tr _ t e h
    exact h.elapse e
  · intro ops tr _ t i op c k e _ _ h
    exact h.lost i c e
  · intro ops tr _ t i op c k r _ hpath hr h
    exact h.exec hpath hr

/-! ### The sweep -/

/-- The cutoff of a sweep. -/
def sweepCutoff : Answer Cmd Cmd.Reply Err → Option Time
  | ⟨.releaseExpiredHolds cutoff, _⟩ => some cutoff
  | _ => none

theorem sweepCutoff_other {c : Cmd} (hc : ∀ cutoff, c ≠ .releaseExpiredHolds cutoff)
    (rep : Except Err c.Reply) : sweepCutoff ⟨c, rep⟩ = none := by
  cases c
  case releaseExpiredHolds cutoff => exact absurd rfl (hc cutoff)
  all_goals rfl

/-- Unless it was extended, reservation `n` is not held past `bound`, and is not held at all
once a sweep has gone beyond. -/
def Ending (n : ℕ) (bound : Time) (done : Log) (db : Db) : Prop :=
  (∀ e ∈ done, extensionOf n e.2 = false) → n < db.reservations.serial ∧
    ∀ r, db.reservations.get n = some r → r.status = .held →
      (∃ u, r.heldUntil = some u ∧ u ≤ bound) ∧
        ∀ e ∈ done, ∀ cutoff ∈ sweepCutoff e.2, cutoff ≤ bound

/-- A hold that a sweep has left has not passed its deadline. -/
theorem held_after_sweep {db : Db} {n : ℕ} {s : Reservation} {cutoff : Time}
    (hs : (db.releaseExpiredHolds cutoff).2.reservations.get n = some s)
    (hheld : s.status = .held) :
    db.reservations.get n = some s ∧ ∀ u, s.heldUntil = some u → cutoff ≤ u := by
  have hget : (db.reservations.update (Db.release cutoff) (Db.release_id cutoff)).get n = some s :=
    hs
  rw [get_update, Option.map_eq_some_iff] at hget
  obtain ⟨r, hr, hrel⟩ := hget
  unfold Db.release at hrel
  split_ifs at hrel with hexpired
  · subst hrel
    cases hheld
  · subst hrel
    refine ⟨hr, fun u hu => ?_⟩
    simpa [Db.expired, hheld, hu] using hexpired

/-- An extension that has changed the row was carried out. -/
theorem extended_or_same {w : World σ} {n : ℕ} {t : Time} {s : Reservation}
    (hs : (World.exec api
      (.reservationUpdate n { heldUntil := some (some t) }) w).2.db.reservations.get n = some s) :
    w.db.reservations.get n = some s ∨ extensionOf n
        ⟨.reservationUpdate n { heldUntil := some (some t) },
          (World.exec api (.reservationUpdate n { heldUntil := some (some t) }) w).1⟩ := by
  simp only [World.exec] at hs ⊢
  rcases w.commit_cases (w.db.reservationUpdate n { heldUntil := some (some t) }) with
    ⟨x, db', -, hcm⟩ | ⟨e, -, hcm⟩
  · rw [hcm]
    exact .inr (extensionOf_iff.mpr ⟨t, x, rfl⟩)
  · rw [hcm] at hs
    exact .inl hs

theorem Ending.step {n : ℕ} {bound : Time} {done : Log} {w : World σ}
    (h : Ending n bound done w.db) {op : Request} {c : Cmd} (hc : RequestCmd op c) (i : ℕ) :
    Ending n bound (done ++ [(i, ⟨c, (World.exec api c w).1⟩)]) (World.exec api c w).2.db := by
  intro hnone
  rw [List.forall_mem_append, List.forall_mem_singleton] at hnone
  obtain ⟨hold, hnew⟩ := hnone
  obtain ⟨hlt, hending⟩ := h hold
  refine ⟨Nat.lt_of_lt_of_le hlt (World.exec_evolves api c w).reservations.serial, ?_⟩
  intro s hs hheld
  -- a row that was there, and no sweep among the commands, leaves what was known
  have hkept : w.db.reservations.get n = some s → (∀ cutoff, c ≠ .releaseExpiredHolds cutoff) →
      (∃ u, s.heldUntil = some u ∧ u ≤ bound) ∧
        ∀ e ∈ done ++ [(i, ⟨c, (World.exec api c w).1⟩)], ∀ cutoff ∈ sweepCutoff e.2,
          cutoff ≤ bound := by
    intro hr hother
    obtain ⟨hdeadline, hswept⟩ := hending s hr hheld
    refine ⟨hdeadline, List.forall_mem_append.mpr ⟨hswept, ?_⟩⟩
    rw [List.forall_mem_singleton, sweepCutoff_other hother]
    exact fun cutoff hcutoff => by cases hcutoff
  by_cases hsweep : ∃ cutoff, c = .releaseExpiredHolds cutoff
  · obtain ⟨cutoff, rfl⟩ := hsweep
    obtain ⟨hr, hleft⟩ := held_after_sweep hs hheld
    obtain ⟨⟨u, hu, hle⟩, hswept⟩ := hending s hr hheld
    refine ⟨⟨u, hu, hle⟩, List.forall_mem_append.mpr ⟨hswept, ?_⟩⟩
    rw [List.forall_mem_singleton]
    intro cutoff' hcutoff
    cases hcutoff
    exact le_trans (hleft u hu) hle
  · have hother : ∀ cutoff, c ≠ .releaseExpiredHolds cutoff := fun cutoff he => hsweep ⟨cutoff, he⟩
    rcases hc.reservation api hs with ⟨r, hr, hrw⟩ | ⟨p, -, hserial, -⟩
    · cases hrw with
      | keep => exact hkept hr hother
      | lapse => cases hheld
      | extend t =>
        rcases extended_or_same hs with hsame | hext
        · exact hkept hsame hother
        · rw [hnew] at hext
          cases hext
      | cancel => cases hheld
      | confirm => cases hheld
      | decline => cases hheld
      | settle => cases hheld
    · exact absurd hserial (Nat.ne_of_lt hlt)

/-- **Every hold ends.** In every state that is reached a held reservation has a deadline at most
the lifetime of a session away. From there on, if nobody extends reservation `n`, it is not held
once a sweep has run whose cutoff lies beyond that lifetime. -/
theorem hold_ends (api : StripeApi σ A) (w : World σ) (hw : w.db.reservations.rows = [])
    (xs ys : List (Choice Err Request (Env A)))
    (p q : Pool Cmd Cmd.Reply Err (World σ) Request Response)
    (hx : (serviceSystem api).schedule xs ⟨w, []⟩ = some p)
    (hy : (serviceSystem api).schedule ys p = some q) (n : ℕ) :
    (∀ r, p.state.db.reservations.get n = some r → r.status = .held →
      ∃ u, r.heldUntil = some u ∧ u ≤ p.state.now + checkoutExpiryMinutes * 60000) ∧
    (n < p.state.db.reservations.serial →
      (∀ e ∈ (serviceSystem api).effects ys p, extensionOf n e.2 = false) →
      (∃ e ∈ (serviceSystem api).effects ys p, ∃ cutoff ∈ sweepCutoff e.2,
        p.state.now + checkoutExpiryMinutes * 60000 < cutoff) →
      ∀ r, q.state.db.reservations.get n = some r → r.status ≠ .held) := by
  have hbrief := brief_run api hw hx
  have hdeadline : ∀ r, p.state.db.reservations.get n = some r → r.status = .held →
      ∃ u, r.heldUntil = some u ∧ u ≤ p.state.now + checkoutExpiryMinutes * 60000 := by
    intro r hr hheld
    obtain ⟨u, hu, hle⟩ := hbrief.held n r hr hheld
    exact ⟨u, hu, le_trans hle (expiry_le _)⟩
  refine ⟨hdeadline, fun hlt hnone hswept r hr hheld => ?_⟩
  have hending : Ending n (p.state.now + checkoutExpiryMinutes * 60000)
      ((serviceSystem api).effects ys p) q.state.db := by
    refine effects_rule _ (P := RequestCmd) (I := fun l t => Ending n _ l t.db) Request.handle_only
      ?_ ?_ ys [] (Within.schedule Request.handle_only xs (within_empty _ w) hx) ?_ hy
    · intro l t e h
      rw [show ((serviceSystem api).env e t).db = t.db from World.elapse_db api e t]
      exact h
    · intro l t i op c hc h
      exact h.step hc i
    · intro _
      exact ⟨hlt, fun r hr hheld => ⟨hdeadline r hr hheld, List.forall_mem_nil _⟩⟩
  obtain ⟨e, hmem, cutoff, hcutoff, hlate⟩ := hswept
  obtain ⟨-, hnot⟩ := hending hnone
  exact absurd ((hnot r hr hheld).2 e hmem cutoff hcutoff) (not_le.mpr hlate)

/-- User 1 holds seat 1, and opens the checkout. -/
def heldForCheckout : List (Choice Err Request (Env Account.Action)) :=
  .spawn (.booking (.reserve 1 ⟨1, 1⟩)) :: solo 0 8 ++
    .spawn (.booking (.createCheckoutSession 1 1)) :: solo 1 8

/-- The lifetime of the session goes by, and the holds are swept. -/
def sweptLater : List (Choice Err Request (Env Account.Action)) :=
  .env (.advance 1800001) :: .spawn (.booking .expireHolds) :: solo 2 2

theorem checkout_hold_ends : ∃ p q r, (serviceSystem testMode).schedule heldForCheckout
    ⟨theatre, []⟩ = some p ∧ (serviceSystem testMode).schedule sweptLater p = some q ∧
      p.state.db.reservations.get 1 = some r ∧ r.status = .held ∧
      (∃ u, r.heldUntil = some u ∧ u ≤ p.state.now + checkoutExpiryMinutes * 60000) ∧
      ∀ r, q.state.db.reservations.get 1 = some r → r.status ≠ .held := by
  have hrun : ((serviceSystem testMode).schedule heldForCheckout ⟨theatre, []⟩).any fun p =>
      ((serviceSystem testMode).schedule sweptLater p).any fun q =>
        (p.state.db.reservations.get 1).any fun r => r.status = .held ∧
          1 < p.state.db.reservations.serial ∧
          (∀ e ∈ (serviceSystem testMode).effects sweptLater p, extensionOf 1 e.2 = false) ∧
          ∃ e ∈ (serviceSystem testMode).effects sweptLater p, ∃ cutoff ∈ sweepCutoff e.2,
            p.state.now + checkoutExpiryMinutes * 60000 < cutoff := by decide +kernel
  obtain ⟨p, hp, hrun⟩ := (Option.any_eq_true _ _).mp hrun
  obtain ⟨q, hq, hrun⟩ := (Option.any_eq_true _ _).mp hrun
  obtain ⟨r, hr, hrun⟩ := (Option.any_eq_true _ _).mp hrun
  obtain ⟨hheld, hlt, hnone, hswept⟩ := of_decide_eq_true hrun
  obtain ⟨hdeadline, hends⟩ := hold_ends testMode theatre (by decide +kernel) heldForCheckout
    sweptLater p q hp hq 1
  exact ⟨p, q, r, hp, hq, hr, hheld, hdeadline r hr hheld, hends hlt hnone hswept⟩

end MovieReservation
