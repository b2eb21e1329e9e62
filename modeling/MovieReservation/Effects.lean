import MovieReservation.World

/-! What the commands leave as it was. -/

namespace MovieReservation.World

open Lib

variable {σ A : Type} (api : StripeApi σ A)

/-- A statement takes effect as a whole or not at all. -/
theorem commit_cases {α : Type} (w : World σ) (r : Except Err (α × Db)) :
    (∃ a db, r = .ok (a, db) ∧ w.commit r = (.ok a, { w with db })) ∨
      ∃ e, r = .error e ∧ w.commit r = (.error e, w) := by
  rcases r with e | ⟨a, db⟩
  · exact .inr ⟨e, rfl, rfl⟩
  · exact .inl ⟨a, db, rfl, rfl⟩

/-- A statement that was answered wrote what it is said to write. -/
theorem eq_of_commit {α : Type} {w w' : World σ} {r : Except Err (α × Db)} {a : α}
    (h : w.commit r = (.ok a, w')) : r = .ok (a, w'.db) := by
  rcases w.commit_cases r with ⟨b, db, rfl, hc⟩ | ⟨e, -, hc⟩
  · rw [hc] at h
    cases h
    rfl
  · rw [hc] at h
    cases h

theorem ok_of_commit {α : Type} {w : World σ} {r : Except Err (α × Db)} {a : α} {db : Db}
    (h : w.commit r = (.ok a, { w with db })) : r = .ok (a, db) := eq_of_commit h

/-- What holds of the database and of every outcome of a statement holds after it. -/
theorem commit_rule {α : Type} {w : World σ} {r : Except Err (α × Db)} {P : Db → Prop}
    (h₀ : P w.db) (h : ∀ a db, r = .ok (a, db) → P db) : P (w.commit r).2.db := by
  rcases w.commit_cases r with ⟨a, db, hr, hc⟩ | ⟨e, -, hc⟩
  · rw [hc]; exact h a db hr
  · rw [hc]; exact h₀

/-- A statement writes the database only. -/
theorem commit_frame {α : Type} (w : World σ) (r : Except Err (α × Db)) :
    (w.commit r).2 = { w with db := (w.commit r).2.db } := by
  rcases w.commit_cases r with ⟨a, db, -, hc⟩ | ⟨e, -, hc⟩ <;> rw [hc]

theorem commit_redis {α : Type} (w : World σ) (r : Except Err (α × Db)) :
    (w.commit r).2.redis = w.redis := by
  rw [commit_frame]

theorem evolves_commit {α : Type} {w : World σ} {r : Except Err (α × Db)}
    (h : ∀ a db, r = .ok (a, db) → w.db.Evolves db) : w.db.Evolves (w.commit r).2.db :=
  commit_rule (Db.Evolves.refl _) h

theorem exec_evolves (c : Cmd) (w : World σ) : w.db.Evolves (exec api c w).2.db := by
  cases c with
  | acquire => simp only [exec]; split_ifs <;> exact Db.Evolves.refl _
  | holdSeat p => exact evolves_commit fun _ _ h => Db.evolves_holdSeat h
  | reservationUpdate id d => exact evolves_commit fun _ _ h => Db.evolves_reservationUpdate h
  | releaseExpiredHolds now => exact Db.evolves_releaseExpiredHolds now
  | paymentFindById id => cases id <;> exact Db.Evolves.refl _
  | paymentFindByStripePaymentId i => cases i <;> exact Db.Evolves.refl _
  | paymentCreate d => exact evolves_commit fun _ _ h => Db.evolves_paymentCreate h
  | paymentUpdate id d =>
    cases id with
    | none => exact Db.Evolves.refl _
    | some id => exact evolves_commit fun _ _ h => Db.evolves_paymentUpdate h
  | paymentDelete id => exact evolves_commit fun _ _ h => Db.evolves_paymentDelete h
  | declineWithReservation p r => exact evolves_commit fun _ _ h => Db.evolves_updateBoth h
  | confirmWithReservation p r i => exact evolves_commit fun _ _ h => Db.evolves_updateBoth h
  | screeningCreate d => exact evolves_commit fun _ _ h => Db.evolves_screeningCreate h
  | screeningUpdate id d => exact evolves_commit fun _ _ h => Db.evolves_screeningUpdate h
  | screeningDelete id => exact evolves_commit fun _ _ h => Db.evolves_screeningDelete h
  | createHallWithSeats d seats =>
    exact evolves_commit fun _ _ h => Db.evolves_createHallWithSeats h
  | hallDelete id => exact evolves_commit fun _ _ h => Db.evolves_hallDelete h
  | movieCreate d => exact Db.evolves_movieCreate d
  | movieUpdate id d => exact evolves_commit fun _ _ h => Db.evolves_movieUpdate h
  | movieDelete id => exact evolves_commit fun _ _ h => Db.evolves_movieDelete h
  | _ => exact Db.Evolves.refl _

/-- No command moves the clock. -/
theorem exec_now (c : Cmd) (w : World σ) : (exec api c w).2.now = w.now := by
  have hcommit : ∀ {α : Type} (r : Except Err (α × Db)), (w.commit r).2.now = w.now := by
    intro α r
    rw [w.commit_frame r]
  cases c with
  | acquire => simp only [exec]; split_ifs <;> rfl
  | paymentFindById id => cases id <;> rfl
  | paymentFindByStripePaymentId i => cases i <;> rfl
  | paymentUpdate id d => cases id <;> first | rfl | exact hcommit _
  | _ => first | rfl | exact hcommit _

/-- Stripe's books only grow. -/
theorem exec_refunds (c : Cmd) (w : World σ) :
    api.refunds w.stripe ⊆ api.refunds (exec api c w).2.stripe := by
  have hcommit : ∀ {α : Type} (r : Except Err (α × Db)),
      api.refunds w.stripe ⊆ api.refunds (w.commit r).2.stripe := by
    intro α r
    rw [w.commit_frame r]
    exact List.Subset.refl _
  cases c with
  | acquire => simp only [exec]; split_ifs <;> exact List.Subset.refl _
  | paymentFindById id => cases id <;> exact List.Subset.refl _
  | paymentFindByStripePaymentId i => cases i <;> exact List.Subset.refl _
  | paymentUpdate id d => cases id <;> first | exact List.Subset.refl _ | exact hcommit _
  | sessionsCreate p => exact api.createSession_keeps p w.stripe
  | sessionsRetrieve id => exact api.retrieveSession_keeps id w.stripe
  | refundsCreate i a k => exact api.createRefund_keeps i a k w.stripe
  | _ => first | exact List.Subset.refl _ | exact hcommit _

end MovieReservation.World
