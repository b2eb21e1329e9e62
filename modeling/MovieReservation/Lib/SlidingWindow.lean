import Mathlib.Data.List.Sort

/-! Counting over a sliding window of time: the instants of a list that lie in the last
`w` before a given one, and the bound that follows for every window when no instant is added
to a full one. -/

namespace MovieReservation.Lib

variable {α : Type} (f : α → ℕ) (w n : ℕ)

/-- What happened in the window of length `w` that ends with `t`, its start left out. -/
def within (t : ℕ) (xs : List α) : List α := xs.filter fun x => t < f x + w

/-- Each was added in order of time, to a window that was not full. -/
inductive Spaced : List α → Prop
  | nil : Spaced []
  | add {xs : List α} {x : α} : Spaced xs → (∀ y ∈ xs, f y ≤ f x) →
    (within f w (f x) xs).length < n → Spaced (xs ++ [x])

variable {f w n} {xs : List α}

@[simp] theorem within_nil (t : ℕ) : within f w t ([] : List α) = [] := rfl

theorem mem_within {t : ℕ} {x : α} : x ∈ within f w t xs ↔ x ∈ xs ∧ t < f x + w := by
  simp [within]

theorem within_append (t : ℕ) (xs ys : List α) :
    within f w t (xs ++ ys) = within f w t xs ++ within f w t ys := List.filter_append ..

theorem within_within {s t : ℕ} (h : s ≤ t) : within f w t (within f w s xs) = within f w t xs := by
  simp only [within, List.filter_filter]
  congr 1
  funext x
  by_cases ht : t < f x + w
  · simp [ht, Nat.lt_of_le_of_lt h ht]
  · simp [ht]

/-- The window shrinks when one of its instants leaves it and none is added. -/
theorem length_within_lt {s t : ℕ} (hle : s ≤ t) {x : α} (hx : x ∈ within f w s xs)
    (hout : f x + w ≤ t) : (within f w t xs).length < (within f w s xs).length := by
  rw [← within_within hle]
  refine List.length_filter_lt_length_iff_exists.mpr ⟨x, hx, ?_⟩
  simpa using hout

/-- The window does not shrink before its first instant leaves it. -/
theorem length_within_le {s t : ℕ} (hkept : ∀ x ∈ within f w s xs, t < f x + w) (ys : List α) :
    (within f w s xs).length ≤ (within f w t (xs ++ ys)).length := by
  rw [within_append, List.length_append]
  refine le_trans ?_ (Nat.le_add_right _ _)
  rw [within, within, ← List.countP_eq_length_filter, ← List.countP_eq_length_filter]
  refine List.countP_mono_left fun x hx hs => decide_eq_true ?_
  exact hkept x (mem_within.mpr ⟨hx, of_decide_eq_true hs⟩)

/-- No window, wherever it lies, holds more than `n`. -/
theorem Spaced.window_le (h : Spaced f w n xs) (a : ℤ) :
    (xs.filter fun x => a < f x ∧ (f x : ℤ) ≤ a + w).length ≤ n := by
  induction h with
  | nil => exact Nat.zero_le n
  | @add xs x _ hle hlt ih =>
    rw [List.filter_append, List.length_append]
    by_cases hx : a < f x ∧ (f x : ℤ) ≤ a + w
    · have hsub : (xs.filter fun y => a < f y ∧ (f y : ℤ) ≤ a + w).length ≤
          (within f w (f x) xs).length := by
        refine (List.monotone_filter_right xs fun y hy => ?_).length_le
        simp only [decide_eq_true_eq] at hy ⊢
        omega
      have hone : [x].filter (fun y => a < f y ∧ (f y : ℤ) ≤ a + w) = [x] := by simp [hx]
      rw [hone, List.length_singleton]
      omega
    · have hnone : [x].filter (fun y => a < f y ∧ (f y : ℤ) ≤ a + w) = [] := by simpa using hx
      rw [hnone]
      exact ih

end MovieReservation.Lib
