import MovieReservation.Services.Paths
import MovieReservation.Services.Steps

/-! Whose payment is whose. A payment that a checkout created stays in its table until
that same checkout deletes it, so the unique index over its reservation keeps all other
checkouts of the reservation out for as long. -/

namespace MovieReservation

open Lib Lib.Prog Lib.System Lib.Table

variable {σ A : Type} {api : StripeApi σ A}

/-- The payments that processes were told they created: each is of its reservation for
good, no two have one key, and each is there until its creator has asked for its
deletion. -/
structure Sales (tr : Log) (db : Db) : Prop where
  created : ∀ i d payment, (i, ⟨.paymentCreate d, .ok payment⟩) ∈ tr →
    payment.id < db.payments.serial ∧ payment.reservationId = d.reservationId
  home : ∀ i d payment, (i, ⟨.paymentCreate d, .ok payment⟩) ∈ tr →
    ∀ q ∈ db.payments.get payment.id, q.reservationId = d.reservationId
  unique : ∀ i j d e p q, (i, ⟨.paymentCreate d, .ok p⟩) ∈ tr →
    (j, ⟨.paymentCreate e, .ok q⟩) ∈ tr → p.id = q.id → i = j
  kept : ∀ i d payment, (i, ⟨.paymentCreate d, .ok payment⟩) ∈ tr →
    (db.payments.get payment.id).isSome ∨ ∃ rep, (i, ⟨.paymentDelete payment.id, rep⟩) ∈ tr

theorem sales_start (db : Db) : Sales [] db where
  created i d payment h := by cases h
  home i d payment h := by cases h
  unique i j d e p q h := by cases h
  kept i d payment h := by cases h

theorem paymentCreate_exec (api : StripeApi σ A) {w w' : World σ} {d : Db.PaymentCreate}
    {payment : Payment}
    (h : World.exec api (.paymentCreate d) w = (.ok payment, w')) :
    payment = d.row w.now w.db.payments.serial ∧ w'.db.payments.serial = w.db.payments.serial + 1 ∧
      w'.db.payments.get payment.id = some payment := by
  simp only [World.exec] at h
  rcases w.commit_cases (w.db.paymentCreate w.now d) with ⟨p, db', hok, hcm⟩ | ⟨e, -, hcm⟩
  · rw [hcm] at h
    simp only [Prod.mk.injEq, Except.ok.injEq] at h
    obtain ⟨rfl, rfl⟩ := h
    obtain ⟨-, rfl, -, ht⟩ := Db.paymentCreate_eq_ok hok
    refine ⟨rfl, ?_, ?_⟩
    · rw [ht]
      rfl
    · rw [ht]
      simp [get_insert, Db.PaymentCreate.row]
  · rw [hcm] at h
    cases h

theorem finish_evolves {w : World σ} {i : ℕ} {c : Cmd} {o : Outcome Err}
    {out : Except Err c.Reply × World σ} (hout : (bookingSystem api).finish i c w o = some out) :
    w.db.Evolves out.2.db := by
  rcases finish_state _ hout with hs | hs
  · rw [hs]
    exact Db.Evolves.refl _
  · rw [hs]
    exact World.exec_evolves api c w

/-- An answer in the trace is an old one or the last. -/
theorem mem_snoc {tr : Log} {i j : ℕ} {a b : Answer Cmd Cmd.Reply Err}
    (h : (i, a) ∈ tr ++ [(j, b)]) : (i, a) ∈ tr ∨ i = j ∧ a = b := by
  rcases List.mem_append.mp h with h | h
  · exact .inl h
  · exact .inr (Prod.mk.inj (List.mem_singleton.mp h))

theorem Sales.step {tr : Log} {w : World σ} (h : Sales tr w.db) {i : ℕ} {op : BookingRequest}
    {c : Cmd} {k : Except Err c.Reply → M Response} {o : Outcome Err}
    {out : Except Err c.Reply × World σ} (hpath : Follows op.handle (own i tr) (.call c k))
    (hout : (bookingSystem api).finish i c w o = some out) :
    Sales (tr ++ [(i, ⟨c, out.1⟩)]) out.2.db := by
  have hc : BookingCmd op c := (hpath.only_rest op.handle_only).1
  have hserial : w.db.payments.serial ≤ out.2.db.payments.serial :=
    (finish_evolves hout).payments.serial
  -- a creation that was answered now has drawn a fresh key
  have hfresh : ∀ d payment, (⟨c, out.1⟩ : Answer Cmd Cmd.Reply Err) =
      ⟨.paymentCreate d, .ok payment⟩ → payment.id = w.db.payments.serial ∧
        payment.id < out.2.db.payments.serial ∧ payment.reservationId = d.reservationId ∧
        out.2.db.payments.get payment.id = some payment := by
    intro d payment he
    obtain ⟨rfl, hans⟩ := Sigma.mk.inj he
    obtain ⟨hexec, -⟩ := finish_ok _ hout (eq_of_heq hans)
    obtain ⟨rfl, hnext, hget⟩ := paymentCreate_exec api hexec
    refine ⟨rfl, ?_, rfl, hget⟩
    rw [hnext]
    exact Nat.lt_succ_self _
  constructor
  · intro j d payment hmem
    rcases mem_snoc hmem with hmem | ⟨rfl, he⟩
    · obtain ⟨hlt, hres⟩ := h.created j d payment hmem
      exact ⟨Nat.lt_of_lt_of_le hlt hserial, hres⟩
    · obtain ⟨-, hlt, hres, -⟩ := hfresh d payment he.symm
      exact ⟨hlt, hres⟩
  · intro j d payment hmem q hq
    rcases mem_snoc hmem with hold | ⟨rfl, he⟩
    · have hlt := (h.created j d payment hold).1
      obtain ⟨q₀, hq₀, he⟩ := (finish_evolves hout).payments.row payment.id hlt q hq
      exact (Prod.mk.inj he).1.trans (h.home j d payment hold q₀ hq₀)
    · obtain ⟨-, -, hres, hget⟩ := hfresh d payment he.symm
      cases hget.symm.trans hq
      exact hres
  · intro j m d e p q hp hq hid
    rcases mem_snoc hp with hp' | ⟨hj, hp'⟩ <;> rcases mem_snoc hq with hq' | ⟨hm, hq'⟩
    · exact h.unique j m d e p q hp' hq' hid
    · have hlt := (h.created j d p hp').1
      have hnew := (hfresh e q hq'.symm).1
      omega
    · have hlt := (h.created m e q hq').1
      have hnew := (hfresh d p hp'.symm).1
      omega
    · rw [hj, hm]
  · intro j d payment hmem
    rcases mem_snoc hmem with hold | ⟨rfl, he⟩
    · rcases h.kept j d payment hold with hsome | ⟨rep, hdel⟩
      · rcases finish_state _ hout with hs | hs
        · rw [hs]
          exact .inl hsome
        · obtain ⟨q, hq⟩ := Option.isSome_iff_exists.mp hsome
          rcases payment_kept api hc hq with ⟨q', hq', -⟩ | rfl
          · rw [hs]
            exact .inl (by rw [show ((bookingSystem api).exec i c w).2.db.payments.get payment.id =
              some q' from hq']; rfl)
          · -- only its creator deletes a payment
            obtain ⟨d', payment', hown, hid⟩ := PaymentsService.delete_path hpath
            have hij : j = i := h.unique j i d d' payment payment' hold (mem_own.mp hown) hid.symm
            subst hij
            exact .inr ⟨out.1, List.mem_append_right _ (List.mem_singleton_self _)⟩
      · exact .inr ⟨rep, List.mem_append_left _ hdel⟩
    · obtain ⟨-, -, -, hget⟩ := hfresh d payment he.symm
      exact .inl (by rw [hget]; rfl)

/-- Two payments of one reservation that are both there are one, and so are their creators. -/
theorem Sales.same {tr : Log} {db : Db} (h : Sales tr db) {i j : ℕ} {d e : Db.PaymentCreate}
    {p q : Payment} (hp : (i, ⟨.paymentCreate d, .ok p⟩) ∈ tr)
    (hq : (j, ⟨.paymentCreate e, .ok q⟩) ∈ tr) (hres : d.reservationId = e.reservationId)
    (hip : (db.payments.get p.id).isSome) (hjq : (db.payments.get q.id).isSome) :
    i = j ∧ p.id = q.id := by
  obtain ⟨p', hp'⟩ := Option.isSome_iff_exists.mp hip
  obtain ⟨q', hq'⟩ := Option.isSome_iff_exists.mp hjq
  have hkey : p'.reservationId = q'.reservationId := by
    rw [h.home i d p hp p' hp', h.home j e q hq q' hq', hres]
  have hsame : p' = q' := db.payment_reservationId_key.eq (mem_of_get hp') (mem_of_get hq')
    (k := q'.reservationId) (by rw [paymentKey, hkey]) rfl
  have hid : p.id = q.id := by
    rw [← id_of_get hp', ← id_of_get hq', hsame]
  exact ⟨h.unique i j d e p q hp hq hid, hid⟩

end MovieReservation
