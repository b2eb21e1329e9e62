import Mathlib.Data.List.Induction
import Mathlib.Data.Set.Function

/-! Bijective numeration: the digits of base `k` are `0` to `k - 1`, and a digit `d` counts
`d + 1` in its place, so no numeral has a leading zero and each number from one on has
exactly one numeral. -/

namespace MovieReservation.Lib.Bijective

variable {k : ℕ}

/-- The numeral of `n + 1`, in front of `ds`. -/
def digitsFrom (k n : ℕ) (ds : List ℕ) : List ℕ :=
  if n / k = 0 then n % k :: ds else digitsFrom k (n / k - 1) (n % k :: ds)
termination_by n
decreasing_by exact Nat.sub_one_lt_of_le (Nat.pos_of_ne_zero ‹_›) (Nat.div_le_self n k)

def digits (k n : ℕ) : List ℕ := digitsFrom k n []

/-- What the digits add to `v`, from the most significant on. -/
def valueFrom (k v : ℕ) (ds : List ℕ) : ℕ := ds.foldl (fun v d => v * k + (d + 1)) v

def value (k : ℕ) (ds : List ℕ) : ℕ := valueFrom k 0 ds

@[simp] theorem value_nil : value k [] = 0 := rfl

@[simp] theorem value_append (ds : List ℕ) (d : ℕ) :
    value k (ds ++ [d]) = value k ds * k + (d + 1) := by
  simp only [value, valueFrom, List.foldl_append, List.foldl_cons, List.foldl_nil]

/-- What each turn puts in front is what the number has more than the rest. -/
theorem valueFrom_digitsFrom (n : ℕ) (ds : List ℕ) :
    valueFrom k 0 (digitsFrom k n ds) = valueFrom k (n + 1) ds := by
  induction n, ds using digitsFrom.induct k with
  | case1 n ds h =>
    rw [digitsFrom, if_pos h]
    have hn : n % k = n := by
      have hdiv := Nat.div_add_mod n k
      rwa [h, Nat.mul_zero, Nat.zero_add] at hdiv
    simp [valueFrom, hn]
  | case2 n ds h ih =>
    rw [digitsFrom, if_neg h, ih]
    have hn : (n / k - 1 + 1) * k + (n % k + 1) = n + 1 := by
      rw [Nat.sub_add_cancel (Nat.pos_of_ne_zero h), Nat.mul_comm, ← Nat.add_assoc,
        Nat.div_add_mod]
    simp only [valueFrom, List.foldl_cons, hn]

theorem value_digits (n : ℕ) : value k (digits k n) = n + 1 := valueFrom_digitsFrom n []

theorem digitsFrom_lt (hk : 0 < k) (n : ℕ) {ds : List ℕ} (h : ∀ d ∈ ds, d < k) :
    ∀ d ∈ digitsFrom k n ds, d < k := by
  induction n, ds using digitsFrom.induct k with
  | case1 n ds hdiv =>
    rw [digitsFrom, if_pos hdiv]
    exact List.forall_mem_cons.mpr ⟨Nat.mod_lt n hk, h⟩
  | case2 n ds hdiv ih =>
    rw [digitsFrom, if_neg hdiv]
    exact ih (List.forall_mem_cons.mpr ⟨Nat.mod_lt n hk, h⟩)

theorem digits_ne_nil (n : ℕ) : digits k n ≠ [] := by
  intro h
  have hvalue := value_digits (k := k) n
  rw [h] at hvalue
  cases hvalue

/-- The last digit and the digits before it are the remainder and the quotient of the number
less one. -/
theorem value_inj {ds es : List ℕ} (hds : ∀ d ∈ ds, d < k) (hes : ∀ e ∈ es, e < k)
    (h : value k ds = value k es) : ds = es := by
  induction ds using List.reverseRecOn generalizing es with
  | nil =>
    cases es using List.reverseRecOn with
    | nil => rfl
    | append_singleton es e => simp at h
  | append_singleton ds d ih =>
    cases es using List.reverseRecOn with
    | nil => simp at h
    | append_singleton es e =>
      have hd : d < k := hds d (by simp)
      have he : e < k := hes e (by simp)
      rw [value_append, value_append, ← Nat.add_assoc, ← Nat.add_assoc, Nat.add_right_cancel_iff]
        at h
      have hlast : d = e := by
        have hmod := congrArg (· % k) h
        simpa [Nat.mul_add_mod_self_right, Nat.mod_eq_of_lt hd, Nat.mod_eq_of_lt he] using hmod
      subst hlast
      have hrest : value k ds = value k es :=
        Nat.eq_of_mul_eq_mul_right (Nat.zero_lt_of_lt hd) (Nat.add_right_cancel h)
      rw [ih (fun c hc => hds c (List.mem_append_left _ hc))
        (fun c hc => hes c (List.mem_append_left _ hc)) hrest]

/-- Each non-empty list of digits is the numeral of one number. -/
theorem digits_bijOn (hk : 0 < k) :
    Set.BijOn (digits k) Set.univ {ds | ds ≠ [] ∧ ∀ d ∈ ds, d < k} := by
  have hlt : ∀ n, ∀ d ∈ digits k n, d < k := fun n => digitsFrom_lt hk n nofun
  refine ⟨fun n _ => ⟨digits_ne_nil n, hlt n⟩, fun n _ m _ h => ?_, fun ds ⟨hne, hds⟩ => ?_⟩
  · have hvalue := congrArg (value k) h
    rwa [value_digits, value_digits, Nat.add_right_cancel_iff] at hvalue
  · refine ⟨value k ds - 1, trivial, value_inj (hlt _) hds ?_⟩
    rw [value_digits]
    refine Nat.sub_add_cancel ?_
    cases ds using List.reverseRecOn with
    | nil => exact absurd rfl hne
    | append_singleton ds d =>
      rw [value_append]
      exact Nat.le_add_left _ _

end MovieReservation.Lib.Bijective
