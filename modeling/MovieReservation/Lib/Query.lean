import Mathlib.Data.List.Perm.Basic
import Mathlib.Data.List.Nodup

/-! Queries over lists of rows: what one that takes the first match may answer if the rows
come in no given order, and how many rows are matched by the keys of other rows. -/

namespace MovieReservation.Lib

variable {α β κ : Type}

/-- Each match of a query comes first in some order of the rows. -/
theorem exists_perm_first {xs : List α} {p : α → Bool} {a : α} (ha : a ∈ xs) (hp : p a = true) :
    ∃ ys : List α, ys.Perm xs ∧ ys.find? p = some a := by
  obtain ⟨before, after, rfl⟩ := List.append_of_mem ha
  refine ⟨a :: (before ++ after), List.perm_middle.symm, ?_⟩
  rw [List.find?_cons_of_pos hp]

/-- What the first match shows depends on no order exactly if all matches show the same. -/
theorem first_perm_iff {xs : List α} {p : α → Bool} (f : α → β) :
    (∀ ys zs : List α, ys.Perm xs → zs.Perm xs → (ys.find? p).map f = (zs.find? p).map f) ↔
      ∀ a ∈ xs, ∀ b ∈ xs, p a = true → p b = true → f a = f b := by
  constructor
  · intro h a ha b hb hpa hpb
    obtain ⟨ys, hys, hya⟩ := exists_perm_first ha hpa
    obtain ⟨zs, hzs, hzb⟩ := exists_perm_first hb hpb
    have hsame := h ys zs hys hzs
    rw [hya, hzb] at hsame
    exact Option.some.inj hsame
  · intro h ys zs hys hzs
    have hfound : ∀ {ys : List α} {a : α}, ys.Perm xs → ys.find? p = some a →
        a ∈ xs ∧ p a = true := fun hys ha =>
      ⟨hys.subset (List.mem_of_find?_eq_some ha), List.find?_some ha⟩
    have hnone : ∀ {ys : List α}, ys.Perm xs → ys.find? p = none → ∀ a ∈ xs, p a ≠ true :=
      fun hys hn a ha => List.find?_eq_none.mp hn a (hys.symm.subset ha)
    cases hy : ys.find? p with
    | none =>
      cases hz : zs.find? p with
      | none => rfl
      | some b => exact absurd (hfound hzs hz).2 (hnone hys hy b (hfound hzs hz).1)
    | some a =>
      obtain ⟨ha, hpa⟩ := hfound hys hy
      cases hz : zs.find? p with
      | none => exact absurd hpa (hnone hzs hz a ha)
      | some b =>
        obtain ⟨hb, hpb⟩ := hfound hzs hz
        simp [h a ha b hb hpa hpb]

/-- The rows whose key some row of `ys` with `p` has are as many as those rows of `ys`. -/
theorem countP_of_keys [DecidableEq κ] {f : α → κ} {g : β → κ} {xs : List α} {ys : List β}
    (hx : (xs.map f).Nodup) (hy : (ys.map g).Nodup) (hsub : ∀ y ∈ ys, ∃ x ∈ xs, f x = g y)
    (p : β → Bool) : xs.countP (fun x => ys.any fun y => g y = f x && p y) = ys.countP p := by
  have hkeys : ((xs.filter fun x => ys.any fun y => g y = f x && p y).map f).Perm
      ((ys.filter p).map g) := by
    refine (List.perm_ext_iff_of_nodup (hx.sublist (List.filter_sublist.map f))
      (hy.sublist (List.filter_sublist.map g))).mpr fun k => ?_
    simp only [List.mem_map, List.mem_filter, List.any_eq_true, Bool.and_eq_true,
      decide_eq_true_eq]
    constructor
    · rintro ⟨x, ⟨-, y, hmem, hk, hpy⟩, rfl⟩
      exact ⟨y, ⟨hmem, hpy⟩, hk⟩
    · rintro ⟨y, ⟨hmem, hpy⟩, rfl⟩
      obtain ⟨x, hxmem, hk⟩ := hsub y hmem
      exact ⟨x, ⟨hxmem, y, hmem, hk.symm, hpy⟩, hk⟩
  have hlength := hkeys.length_eq
  rwa [List.length_map, List.length_map, ← List.countP_eq_length_filter,
    ← List.countP_eq_length_filter] at hlength

end MovieReservation.Lib
