import Mathlib.Tactic.Linarith
import MovieReservation.Lib.Query
import MovieReservation.Lib.Retry
import MovieReservation.Properties.RefundRetry

/-! The refund policy table as half-open ranges of hours. A tier that is added to the
seeded ones is found reliably where it overlaps none of another percent, since the lookup
takes whichever match the database returns first. A refund follows the seeded tiers up to
the far end of the last of them. -/

namespace MovieReservation

open Lib Lib.Prog

/-! ### Tiers -/

/-- A row of the policy table without its id. -/
structure Tier where
  hoursFrom : ℤ
  hoursTo : ℤ
  refundPercent : ℚ
  deriving DecidableEq

def RefundPolicy.tier (p : RefundPolicy) : Tier := ⟨p.hoursFrom, p.hoursTo, p.refundPercent⟩

def Tier.Covers (t : Tier) (hours : ℚ) : Prop :=
  (t.hoursFrom : ℚ) ≤ hours ∧ hours < (t.hoursTo : ℚ)

instance (t : Tier) (hours : ℚ) : Decidable (t.Covers hours) :=
  inferInstanceAs (Decidable (_ ∧ _))

/-- The tiers that `seed.ts` writes. -/
def seededTiers : List Tier := seededPolicies.rows.map RefundPolicy.tier

theorem mem_seededTiers {t : Tier} :
    t ∈ seededTiers ↔ t = ⟨48, 100000, 100⟩ ∨ t = ⟨24, 48, 50⟩ ∨ t = ⟨0, 24, 0⟩ := by
  simp [seededTiers, seededPolicies, RefundPolicy.tier]

/-- The table's tiers are the listed ones, in some order. -/
def Db.HasTiers (db : Db) (tiers : List Tier) : Prop :=
  (db.refundPolicies.rows.map RefundPolicy.tier).Perm tiers

instance (db : Db) (tiers : List Tier) : Decidable (db.HasTiers tiers) :=
  inferInstanceAs (Decidable (List.Perm _ _))

theorem findRefundPolicy_eq (db : Db) (hours : ℚ) :
    db.findRefundPolicy hours = db.refundPolicies.rows.find? fun p => p.tier.Covers hours := rfl

section Tables
variable {db : Db} {tiers : List Tier} {hours : ℚ}

theorem Db.HasTiers.mem {p : RefundPolicy} (h : db.HasTiers tiers)
    (hp : p ∈ db.refundPolicies.rows) : p.tier ∈ tiers :=
  h.subset (List.mem_map_of_mem hp)

theorem Db.HasTiers.exists_row {t : Tier} (h : db.HasTiers tiers) (ht : t ∈ tiers) :
    ∃ p ∈ db.refundPolicies.rows, p.tier = t :=
  List.mem_map.mp (h.symm.subset ht)

/-- The policy found is of a tier that covers the hours. -/
theorem Db.HasTiers.found {p : RefundPolicy} (h : db.HasTiers tiers)
    (hp : db.findRefundPolicy hours = some p) : p.tier ∈ tiers ∧ p.tier.Covers hours := by
  rw [findRefundPolicy_eq] at hp
  have hcovers := List.find?_some hp
  exact ⟨h.mem (List.mem_of_find?_eq_some hp), of_decide_eq_true hcovers⟩

/-- Where none is found, no tier covers the hours. -/
theorem Db.HasTiers.missed (h : db.HasTiers tiers) (hp : db.findRefundPolicy hours = none) :
    ∀ t ∈ tiers, ¬ t.Covers hours := by
  intro t ht hcovers
  obtain ⟨p, hmem, rfl⟩ := h.exists_row ht
  rw [findRefundPolicy_eq] at hp
  have hno := List.find?_eq_none.mp hp p hmem
  exact hno (decide_eq_true hcovers)

end Tables

/-! ### The order of the rows -/

/-- The database with the rows of its policy table in another order. -/
def Db.reorderPolicies (db : Db) (rows : List RefundPolicy)
    (h : rows.Perm db.refundPolicies.rows) : Db :=
  { db with
    refundPolicies :=
      { rows
        serial := db.refundPolicies.serial
        nodup := (h.map Row.id).nodup_iff.mpr db.refundPolicies.nodup
        fresh := fun p hp => db.refundPolicies.fresh p (h.subset hp) }
    refund_policy_hours_key := fun p hp q hq =>
      db.refund_policy_hours_key p (h.subset hp) q (h.subset hq) }

/-- Whatever order the table's rows are in, the percent found for these hours is one. -/
def Db.PercentDetermined (db : Db) (hours : ℚ) : Prop :=
  ∀ db₁ db₂ : Db, db₁.refundPolicies.rows.Perm db.refundPolicies.rows →
    db₂.refundPolicies.rows.Perm db.refundPolicies.rows →
    (db₁.findRefundPolicy hours).map RefundPolicy.refundPercent =
      (db₂.findRefundPolicy hours).map RefundPolicy.refundPercent

theorem percentDetermined_iff_rows {db : Db} {hours : ℚ} :
    db.PercentDetermined hours ↔ ∀ p ∈ db.refundPolicies.rows, ∀ q ∈ db.refundPolicies.rows,
      p.tier.Covers hours → q.tier.Covers hours → p.refundPercent = q.refundPercent := by
  have hquery := @first_perm_iff _ _ db.refundPolicies.rows
    (fun p => decide (p.tier.Covers hours)) RefundPolicy.refundPercent
  simp only [decide_eq_true_eq] at hquery
  rw [← hquery]
  constructor
  · intro h ys zs hys hzs
    exact h (db.reorderPolicies ys hys) (db.reorderPolicies zs hzs) hys hzs
  · intro h db₁ db₂ h₁ h₂
    exact h _ _ h₁ h₂

theorem percentDetermined_iff_tiers {db : Db} {tiers : List Tier} {hours : ℚ}
    (h : db.HasTiers tiers) : db.PercentDetermined hours ↔ ∀ t ∈ tiers, ∀ u ∈ tiers,
      t.Covers hours → u.Covers hours → t.refundPercent = u.refundPercent := by
  rw [percentDetermined_iff_rows]
  constructor
  · intro hrows t ht u hu
    obtain ⟨p, hp, rfl⟩ := h.exists_row ht
    obtain ⟨q, hq, rfl⟩ := h.exists_row hu
    exact hrows p hp q hq
  · intro htiers p hp q hq
    exact htiers _ (h.mem hp) _ (h.mem hq)

/-! ### A tier is inserted -/

/-- No number of hours lies in two seeded tiers. -/
theorem seededTiers_disjoint {t u : Tier} {hours : ℚ} (ht : t ∈ seededTiers)
    (hu : u ∈ seededTiers) (htc : t.Covers hours) (huc : u.Covers hours) : t = u := by
  simp only [Tier.Covers] at htc huc
  rcases mem_seededTiers.mp ht with rfl | rfl | rfl <;>
    rcases mem_seededTiers.mp hu with rfl | rfl | rfl <;> first
      | rfl
      | (norm_num at htc huc; linarith [htc.1, htc.2, huc.1, huc.2])

theorem inserted_determined_iff {db : Db} {new : Tier} (h : db.HasTiers (new :: seededTiers))
    (hours : ℚ) : db.PercentDetermined hours ↔ (new.Covers hours →
      ∀ t ∈ seededTiers, t.Covers hours → t.refundPercent = new.refundPercent) := by
  rw [percentDetermined_iff_tiers h]
  constructor
  · intro hall hnew t ht hcovers
    exact hall t (List.mem_cons_of_mem _ ht) new List.mem_cons_self hcovers hnew
  · intro hsame t ht u hu htc huc
    cases ht with
    | head =>
      cases hu with
      | head => rfl
      | tail _ hu => exact (hsame htc u hu huc).symm
    | tail _ ht =>
      cases hu with
      | head => exact hsame huc t ht htc
      | tail _ hu => rw [seededTiers_disjoint ht hu htc huc]

/-- Two ranges share some number of hours unless they lie apart or one is empty. -/
theorem exists_covered_iff {t u : Tier} : (∃ hours, t.Covers hours ∧ u.Covers hours) ↔
    t.hoursFrom < t.hoursTo ∧ u.hoursFrom < u.hoursTo ∧ t.hoursFrom < u.hoursTo ∧
      u.hoursFrom < t.hoursTo := by
  simp only [Tier.Covers]
  constructor
  · rintro ⟨hours, ⟨ht, ht'⟩, hu, hu'⟩
    refine ⟨?_, ?_, ?_, ?_⟩
    · exact_mod_cast ht.trans_lt ht'
    · exact_mod_cast hu.trans_lt hu'
    · exact_mod_cast ht.trans_lt hu'
    · exact_mod_cast hu.trans_lt ht'
  · rintro ⟨htt, huu, htu, hut⟩
    refine ⟨((max t.hoursFrom u.hoursFrom : ℤ) : ℚ), ⟨?_, ?_⟩, ?_, ?_⟩ <;> norm_cast <;> omega

/-- After a tier is inserted, the percent is a function of the table's contents, at a number
of hours and at all of them, exactly if the tier meets no seeded one of another percent. -/
theorem inserted_tier_determined (db : Db) (new : Tier) (h : db.HasTiers (new :: seededTiers)) :
    (∀ hours, db.PercentDetermined hours ↔ (new.Covers hours →
      ∀ t ∈ seededTiers, t.Covers hours → t.refundPercent = new.refundPercent)) ∧
    ((∀ hours, db.PercentDetermined hours) ↔
      ∀ t ∈ seededTiers, t.refundPercent ≠ new.refundPercent →
        ¬ (new.hoursFrom < new.hoursTo ∧ t.hoursFrom < new.hoursTo ∧
          new.hoursFrom < t.hoursTo)) := by
  have hat := inserted_determined_iff h
  refine ⟨hat, ?_⟩
  constructor
  · intro hall t ht hne hmeet
    have htt : t.hoursFrom < t.hoursTo := by
      rcases mem_seededTiers.mp ht with rfl | rfl | rfl <;> decide
    obtain ⟨hours, hcovers, hnew⟩ := exists_covered_iff.mpr ⟨htt, hmeet.1, hmeet.2.1, hmeet.2.2⟩
    exact hne ((hat hours).mp (hall hours) hnew t ht hcovers)
  · intro hapart hours
    refine (hat hours).mpr fun hnew t ht hcovers => ?_
    by_contra hne
    obtain ⟨-, hmeet⟩ := exists_covered_iff.mp ⟨hours, hcovers, hnew⟩
    exact hapart t ht hne hmeet

/-- The seeded table with the README's tier in its last row. -/
def readmePolicies : Table RefundPolicy where
  rows := seededPolicies.rows ++ [⟨4, 12, 24, 75⟩]
  serial := 5
  nodup := by decide
  fresh := by decide

def readmeDb : Db :=
  Db.emptyTables readmePolicies (by
    simp [Table.UniqueOn, readmePolicies, seededPolicies, policyKey])

theorem readmeDb_hasTiers : readmeDb.HasTiers (⟨12, 24, 75⟩ :: seededTiers) := by
  decide

/-- With the README's tier the percent depends on the order of the rows. -/
theorem readme_tier_undetermined :
    readmeDb.HasTiers (⟨12, 24, 75⟩ :: seededTiers) ∧
      ¬ ∀ hours, readmeDb.PercentDetermined hours := by
  refine ⟨readmeDb_hasTiers, ?_⟩
  rw [(inserted_tier_determined readmeDb ⟨12, 24, 75⟩ readmeDb_hasTiers).2]
  decide

/-- At eighteen hours the percent is 0 or 75. -/
theorem eighteen_hours_undetermined :
    ¬ ∀ (db : Db) (new : Tier), db.HasTiers (new :: seededTiers) →
      ∀ hours, db.PercentDetermined hours := by
  intro hall
  have hdetermined := hall readmeDb ⟨12, 24, 75⟩ readmeDb_hasTiers 18
  have hrows := percentDetermined_iff_rows.mp hdetermined ⟨3, 0, 24, 0⟩ (by decide)
    ⟨4, 12, 24, 75⟩ (by decide)
  simp [RefundPolicy.tier, Tier.Covers] at hrows
  norm_num at hrows

/-! ### The amount -/

/-- The amount a command asks Stripe to refund. -/
def Cmd.refundAmount : Cmd → Option ℤ
  | .refundsCreate _ amount _ => some amount
  | _ => none

section Amount
variable {σ A : Type} (api : StripeApi σ A)

/-- What `refundReservation`, run from `w`, has Stripe refund. -/
def refundedBy (r : Reservation) (w : World σ) : ℤ :=
  (((PaymentsService.refundReservation r).issued (World.exec api) w).filterMap
    Cmd.refundAmount).sum

/-- What the seeded tiers promise of a refund at so many hours, and that to cancel later
never refunds more. -/
structure RefundsByTier (r : Reservation) (amount : ℤ) (hours : ℚ) (w : World σ) : Prop where
  full : 48 ≤ hours → refundedBy api r w = amount
  half : 24 ≤ hours → hours < 48 → refundedBy api r w = mathRound (amount / 2) ∧
    |2 * refundedBy api r w - amount| ≤ 1
  nothing : hours < 24 → refundedBy api r w = 0
  nonneg : 0 ≤ refundedBy api r w
  le_amount : refundedBy api r w ≤ amount
  later : ∀ ms : Time, 0 ≤ ms →
    refundedBy api r { w with now := w.now + ms } ≤ refundedBy api r w

/-- The percent that the seeded tiers give. -/
def seededPercent (hours : ℚ) : ℚ :=
  if hours < 24 then 0 else if hours < 48 then 50 else if hours < 100000 then 100 else 0

theorem percent_seeded {db : Db} (h : db.HasTiers seededTiers) (hours : ℚ) :
    percent (db.findRefundPolicy hours) = seededPercent hours := by
  unfold seededPercent
  cases hfound : db.findRefundPolicy hours with
  | none =>
    have hno := h.missed hfound
    have hfull := hno ⟨48, 100000, 100⟩ (by decide)
    have hhalf := hno ⟨24, 48, 50⟩ (by decide)
    simp only [Tier.Covers] at hfull hhalf
    norm_num at hfull hhalf
    split_ifs with h24 h48 hfar
    · rfl
    · linarith [hhalf (not_lt.mp h24)]
    · linarith [hfull (not_lt.mp h48)]
    · rfl
  | some p =>
    obtain ⟨hmem, hcovers⟩ := h.found hfound
    have hpercent : percent (some p) = p.tier.refundPercent := rfl
    rw [hpercent]
    generalize p.tier = t at hmem hcovers
    simp only [Tier.Covers] at hcovers
    rcases mem_seededTiers.mp hmem with rfl | rfl | rfl <;> norm_num at hcovers
    · have h24 : ¬ hours < 24 := by linarith
      rw [if_neg h24, if_neg (not_lt.mpr hcovers.1), if_pos hcovers.2]
    · rw [if_neg (not_lt.mpr hcovers.1), if_pos hcovers.2]
    · rw [if_pos hcovers.2]

theorem seededPercent_mono {h₁ h₂ : ℚ} (hle : h₁ ≤ h₂) (hfar : h₂ < 100000) :
    seededPercent h₁ ≤ seededPercent h₂ := by
  unfold seededPercent
  split_ifs <;> linarith

/-- The nearest unit to a half. -/
theorem mathRound_half (a : ℤ) : |2 * mathRound (a / 2) - a| ≤ 1 := by
  have hfloor := Int.floor_eq_iff.mp (show ⌊((a : ℚ) / 2 + 1 / 2)⌋ = mathRound (a / 2) from rfl)
  rw [abs_le]
  constructor
  · have : (a : ℚ) - 1 ≤ 2 * mathRound (a / 2) := by linarith [hfloor.2]
    have : a - 1 ≤ 2 * mathRound (a / 2) := by exact_mod_cast this
    omega
  · have : 2 * (mathRound (a / 2) : ℚ) ≤ a + 1 := by linarith [hfloor.1]
    have : 2 * mathRound (a / 2) ≤ a + 1 := by exact_mod_cast this
    omega

/-! ### What Stripe is asked -/

variable {api} {w : World σ} {r : Reservation} {p : Payment} {s : ScreeningWithMovieHall}

/-- Recording a refund asks Stripe for nothing. -/
theorem recordRefund_asks_nothing (refundId : Option ℕ) (v : World σ) :
    ((PaymentsService.recordRefund r p refundId).issued (World.exec api) v).filterMap
      Cmd.refundAmount = [] := by
  rw [List.filterMap_eq_nil_iff]
  intro c hc
  cases (recordRefund_ends r p refundId).issued v c hc with
  | dateNow => rfl
  | mark d => rfl
  | close h => cases h <;> rfl

/-- A refund asks for its amount once, whatever Stripe answers. -/
theorem refund_asks (intent : ℕ) (amount : ℤ) (v : World σ) :
    ((Stripe.refundsCreate intent amount p.id >>= fun refund =>
      PaymentsService.recordRefund r p (some refund.id)).issued (World.exec api) v).filterMap
        Cmd.refundAmount = [amount] := by
  rw [issued_bind, List.filterMap_append]
  split
  · rw [recordRefund_asks_nothing]
    rfl
  · rfl

theorem seededPercent_nonneg (hours : ℚ) : 0 ≤ seededPercent hours := by
  unfold seededPercent
  split_ifs <;> linarith

/-- A payment that carries a Stripe payment id is refunded its tier's share, the others
nothing. -/
theorem refundedBy_eq (hpolicies : w.db.HasTiers seededTiers)
    (hpayment : w.db.payments.rows.find? (fun q => q.reservationId = r.id) = some p)
    (hstatus : p.status ≠ .refunded)
    (hscreening : w.db.screeningFindById r.screeningId = some s) :
    refundedBy api r w = if p.stripePaymentId.isSome then
      refundShare p.amount (seededPercent (hoursUntil s.startTime w.now)) else 0 := by
  have hread : World.exec api (.paymentFindByReservationId r.id) w = (.ok (some p), w) := by
    rw [World.exec, hpayment]
  have hshown : World.exec api (.screeningFindById r.screeningId) w = (.ok (some s), w) := by
    rw [World.exec, hscreening]
  have hpercent := percent_seeded hpolicies (hoursUntil s.startTime w.now)
  generalize hpolicy : w.db.findRefundPolicy (hoursUntil s.startTime w.now) = policy at hpercent
  have htier : World.exec api (.findRefundPolicy (hoursUntil s.startTime w.now)) w =
      (.ok policy, w) := by rw [World.exec, hpolicy]
  rw [hoursUntil] at htier
  unfold refundedBy PaymentsService.refundReservation
  rw [PaymentsRepository.findByReservationId, request, issued_issue_bind hread]
  simp only [if_neg hstatus]
  rw [ScreeningsRepository.findById, request, issued_issue_bind hshown]
  rw [now, request, issued_issue_bind (t := w) (a := w.now) rfl]
  rw [PaymentsRepository.findRefundPolicy, request, issued_issue_bind htier]
  cases p.stripePaymentId with
  | none =>
    change (List.filterMap Cmd.refundAmount
      (issued _ (PaymentsService.recordRefund r p none) w)).sum = _
    rw [recordRefund_asks_nothing]
    rfl
  | some intent =>
    dsimp only [Option.isSome_some]
    change (List.filterMap Cmd.refundAmount
      (issued _ (if 0 < percent policy then _ else _) w)).sum = _
    rw [hpercent]
    by_cases hpos : 0 < seededPercent (hoursUntil s.startTime w.now)
    · rw [if_pos hpos, refund_asks, List.sum_singleton, if_pos rfl, ← hpercent, percent]
    · have hzero := le_antisymm (not_lt.mp hpos) (seededPercent_nonneg _)
      rw [if_neg hpos, recordRefund_asks_nothing, hzero, refundShare_none, ite_self]
      rfl

end Amount

/-! ### Refunds by tier -/

section Tiers
variable {σ A : Type} {api : StripeApi σ A} {w : World σ} {r : Reservation} {p : Payment}
  {s : ScreeningWithMovieHall}

theorem hoursUntil_later (startTime now : Time) {ms : Time} (h : 0 ≤ ms) :
    hoursUntil startTime (now + ms) ≤ hoursUntil startTime now := by
  have hsub : startTime - (now + ms) ≤ startTime - now :=
    sub_le_sub_left (le_add_of_nonneg_right h) startTime
  unfold hoursUntil
  gcongr

theorem mathRound_half_pos {a : ℤ} (h : 0 < a) : 0 < mathRound (a / 2) := by
  have hnear := abs_le.mp (mathRound_half a)
  have hone : (1 : ℚ) ≤ a := by exact_mod_cast h
  exact Int.floor_pos.mpr (by linarith)

theorem seededPercent_far {hours : ℚ} (h : ¬ hours < 100000) : seededPercent hours = 0 := by
  unfold seededPercent
  split_ifs <;> linarith

theorem seededPercent_le (hours : ℚ) : seededPercent hours ≤ 100 := by
  unfold seededPercent
  split_ifs <;> linarith

/-- Where nothing is to be refunded, nothing is promised. -/
theorem refundsByTier_of_none {a : ℤ} {hours : ℚ} (ha : 0 ≤ a) (hnone : a = 0 ∨ hours < 24)
    (hnow : refundedBy api r w = 0)
    (hlater : ∀ ms : Time, 0 ≤ ms → refundedBy api r { w with now := w.now + ms } = 0) :
    RefundsByTier api r a hours w where
  full h48 := by
    rcases hnone with rfl | h24
    · exact hnow
    · linarith
  half h24' _ := by
    rcases hnone with rfl | h24
    · rw [hnow]
      exact ⟨by simpa using (mathRound_intCast 0).symm, by simp⟩
    · linarith
  nothing _ := hnow
  nonneg := hnow.ge
  le_amount := hnow.trans_le ha
  later ms hms := (hlater ms hms).trans_le hnow.ge

/-- A refund of the share that the seeded tiers give, before the last of them has run out. -/
theorem refundsByTier_of_share {a : ℤ} {startTime : Time} (ha : 0 ≤ a) (h4 : Int4 a)
    (hfar : hoursUntil startTime w.now < 100000)
    (hshare : ∀ ms : Time, refundedBy api r { w with now := w.now + ms } =
      refundShare a (seededPercent (hoursUntil startTime (w.now + ms)))) :
    RefundsByTier api r a (hoursUntil startTime w.now) w := by
  have hnow : refundedBy api r w =
      refundShare a (seededPercent (hoursUntil startTime w.now)) := by
    simpa using hshare 0
  refine ⟨fun h48 => ?_, fun h24 h48 => ?_, fun h24 => ?_, ?_, ?_, fun ms hms => ?_⟩
  · have h24 : ¬ hoursUntil startTime w.now < 24 := by linarith
    rw [hnow, seededPercent, if_neg h24, if_neg (not_lt.mpr h48), if_pos hfar,
      refundShare_full h4]
  · have hhalf : refundedBy api r w = mathRound (a / 2) := by
      rw [hnow, seededPercent, if_neg (not_lt.mpr h24), if_pos h48, refundShare_half h4]
    exact ⟨hhalf, hhalf ▸ mathRound_half a⟩
  · rw [hnow, seededPercent, if_pos h24, refundShare_none]
  · rw [hnow]
    exact refundShare_nonneg ha (seededPercent_nonneg _)
  · rw [hnow]
    exact refundShare_le ha h4 (seededPercent_nonneg _) (seededPercent_le _)
  · rw [hshare, hnow]
    exact refundShare_mono ha (seededPercent_nonneg _)
      (seededPercent_mono (hoursUntil_later startTime w.now hms) hfar)

/-- The refund follows the tiers exactly if there is nothing to refund, or the payment
carries a Stripe payment id and the last tier has not run out. -/
theorem refund_follows_tiers (hpolicies : w.db.HasTiers seededTiers)
    (hpayment : w.db.payments.rows.find? (fun q => q.reservationId = r.id) = some p)
    (hstatus : p.status ≠ .refunded)
    (hscreening : w.db.screeningFindById r.screeningId = some s) (hamount : 0 ≤ p.amount) :
    RefundsByTier api r p.amount (hoursUntil s.startTime w.now) w ↔
      p.amount = 0 ∨ hoursUntil s.startTime w.now < 24 ∨
        (p.stripePaymentId.isSome ∧ hoursUntil s.startTime w.now < 100000) := by
  have hshare : ∀ ms : Time, refundedBy api r { w with now := w.now + ms } =
      if p.stripePaymentId.isSome then refundShare p.amount
        (seededPercent (hoursUntil s.startTime (w.now + ms))) else 0 := fun ms =>
    refundedBy_eq (w := { w with now := w.now + ms }) hpolicies hpayment hstatus hscreening
  have hnow : refundedBy api r w = if p.stripePaymentId.isSome then refundShare p.amount
      (seededPercent (hoursUntil s.startTime w.now)) else 0 :=
    refundedBy_eq hpolicies hpayment hstatus hscreening
  constructor
  · intro h
    by_contra! hno
    obtain ⟨hne, h24, hgone⟩ := hno
    have hpos : 0 < refundedBy api r w := by
      by_cases h48 : hoursUntil s.startTime w.now < 48
      · rw [(h.half h24 h48).1]
        exact mathRound_half_pos (by omega)
      · rw [h.full (not_lt.mp h48)]
        omega
    by_cases hsome : p.stripePaymentId.isSome
    · rw [hnow, if_pos hsome, seededPercent_far (not_lt.mpr (hgone hsome)),
        refundShare_none] at hpos
      exact lt_irrefl _ hpos
    · rw [hnow, if_neg hsome] at hpos
      exact lt_irrefl _ hpos
  · rintro (hzero | h24 | ⟨hsome, hfar⟩)
    · have hnone : ∀ ms : Time, refundedBy api r { w with now := w.now + ms } = 0 := by
        intro ms
        rw [hshare, hzero]
        split_ifs
        · exact le_antisymm (refundShare_le le_rfl (by decide) (seededPercent_nonneg _)
            (seededPercent_le _)) (refundShare_nonneg le_rfl (seededPercent_nonneg _))
        · rfl
      exact refundsByTier_of_none hamount (.inl hzero) (by simpa using hnone 0) fun ms _ => hnone ms
    · have hnone : ∀ ms : Time, 0 ≤ ms → refundedBy api r { w with now := w.now + ms } = 0 := by
        intro ms hms
        have hlater := (hoursUntil_later s.startTime w.now hms).trans_lt h24
        rw [hshare, seededPercent, if_pos hlater, refundShare_none, ite_self]
      exact refundsByTier_of_none hamount (.inr h24) (by simpa using hnone 0 le_rfl) hnone
    · have h4 : Int4 p.amount := w.db.payment_amount p (List.mem_of_find?_eq_some hpayment)
      exact refundsByTier_of_share hamount h4 hfar fun ms => by rw [hshare, if_pos hsome]

end Tiers

/-- The theatre with its movie shown at `startTime`, and user 1's seat there paid. -/
def paidAt (startTime : Time) : World Account :=
  let opened := [AdminRequest.createMovie ⟨"Metropolis", "", 153, "", "", 8, "de", "drama"⟩,
    .createHall ⟨"Hall 1", 1, 2⟩, .createScreening ⟨1, 1, startTime, 10⟩].foldl
      (fun w r => (perform testMode r.handle w).2) (World.initial ⟨[], []⟩ 0 100)
  (history testMode BookingRequest.handle (heldAndPaid ++ [paidTurn]) opened).getD opened

/-- The rows of the ticket, hours before the screening. -/
structure TicketRows (hours : ℤ) (w : World Account) : Prop where
  policies : w.db.HasTiers seededTiers
  payment : w.db.payments.rows.find? (fun q => q.reservationId = ticket.id) = some ticketPayment
  screening : (w.db.screeningFindById ticket.screeningId).map (fun s => s.startTime - w.now) =
    some (hours * (60 * 60 * 1000))

theorem hoursUntil_eq {startTime now : Time} {hours : ℤ}
    (h : startTime - now = hours * (60 * 60 * 1000)) : hoursUntil startTime now = hours := by
  rw [hoursUntil, h]
  push_cast
  norm_num

theorem ticketRows_fifty : TicketRows 50 (paidAt (50 * 3600000)) :=
  ⟨by decide +kernel, by decide +kernel, by decide +kernel⟩

theorem ticketRows_far : TicketRows 100000 (paidAt (100000 * 3600000)) :=
  ⟨by decide +kernel, by decide +kernel, by decide +kernel⟩

/-- Fifty hours before the screening the whole price is refunded. -/
theorem refunded_in_full : RefundsByTier testMode ticket 1000 50 (paidAt (50 * 3600000)) ∧
    refundedBy testMode ticket (paidAt (50 * 3600000)) = 1000 := by
  obtain ⟨hpolicies, hpayment, hscreening⟩ := ticketRows_fifty
  obtain ⟨s, hs, htime⟩ := Option.map_eq_some_iff.mp hscreening
  have hhours := hoursUntil_eq htime
  have hrefund : RefundsByTier testMode ticket 1000 (hoursUntil s.startTime _) _ :=
    (refund_follows_tiers hpolicies hpayment (by decide) hs (by decide)).mpr
      (.inr (.inr ⟨rfl, by rw [hhours]; norm_num⟩))
  rw [hhours] at hrefund
  exact ⟨hrefund, hrefund.full (by norm_num)⟩

/-- A hundred thousand hours before it nothing is. -/
theorem refund_beyond_last_tier : ¬ ∀ (w : World Account) (r : Reservation) (p : Payment)
    (s : ScreeningWithMovieHall), w.db.HasTiers seededTiers →
    w.db.payments.rows.find? (fun q => q.reservationId = r.id) = some p →
    p.status ≠ .refunded → w.db.screeningFindById r.screeningId = some s → 0 ≤ p.amount →
    RefundsByTier testMode r p.amount (hoursUntil s.startTime w.now) w := by
  intro hall
  obtain ⟨hpolicies, hpayment, hscreening⟩ := ticketRows_far
  obtain ⟨s, hs, htime⟩ := Option.map_eq_some_iff.mp hscreening
  have hhours := hoursUntil_eq htime
  have hfull := (hall _ ticket ticketPayment s hpolicies hpayment (by decide) hs
    (by decide)).full (by rw [hhours]; norm_num)
  rw [refundedBy_eq hpolicies hpayment (by decide) hs, hhours, seededPercent_far (by norm_num),
    refundShare_none, ite_self] at hfull
  exact absurd hfull (by decide)

end MovieReservation
