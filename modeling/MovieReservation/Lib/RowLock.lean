import Mathlib.Data.List.Count
import Mathlib.Data.List.Basic
import Mathlib.Logic.Function.Basic

/-! Transactions at READ COMMITTED that insert rows under a row lock. A transaction
reads what is committed and what it inserted itself; it holds the locks it took until
it ends. The pattern studied is lock, check, insert: each key of a row is guarded by a
lock, and a row is inserted only under the lock of its key by a transaction that saw
no other row with the key. -/

namespace MovieReservation.Lib

universe u v

/-- The rows that are committed, those that each transaction has inserted and not yet
committed, and the holder of each lock. -/
structure Store (ρ : Type u) where
  rows : List ρ
  pending : ℕ → List ρ
  locks : ℕ → Option ℕ

namespace Store

variable {ρ : Type u} {κ : Type v}

/-- What transaction `i` reads. -/
def view (s : Store ρ) (i : ℕ) : List ρ := s.rows ++ s.pending i

def acquire (s : Store ρ) (i x : ℕ) : Store ρ :=
  { s with locks := Function.update s.locks x (some i) }

def insert (s : Store ρ) (i : ℕ) (r : ρ) : Store ρ :=
  { s with pending := Function.update s.pending i (s.pending i ++ [r]) }

/-- The end of transaction `i` with `rows` committed. -/
def finish (s : Store ρ) (i : ℕ) (rows : List ρ) : Store ρ where
  rows := rows
  pending := Function.update s.pending i []
  locks x := if s.locks x = some i then none else s.locks x

def commit (s : Store ρ) (i : ℕ) : Store ρ := s.finish i (s.view i)

def rollback (s : Store ρ) (i : ℕ) : Store ρ := s.finish i s.rows

/-- Between transactions. -/
def idle (rows : List ρ) : Store ρ := ⟨rows, fun _ => [], fun _ => none⟩

/-- A statement of its own that rewrites committed rows. -/
def rewrite (s : Store ρ) (f : ρ → ρ) : Store ρ := { s with rows := s.rows.map f }

@[simp] theorem view_idle (rows : List ρ) (i : ℕ) : (idle rows).view i = rows :=
  List.append_nil rows

theorem finish_eq_idle {s : Store ρ} {i : ℕ} (hp : ∀ j, j ≠ i → s.pending j = [])
    (hl : ∀ x, s.locks x = none ∨ s.locks x = some i) (rows : List ρ) :
    s.finish i rows = idle rows := by
  have hpending : Function.update s.pending i [] = fun _ => [] := by
    funext j
    by_cases hj : j = i
    · rw [hj, Function.update_self]
    · rw [Function.update_of_ne hj, hp j hj]
  have hlocks : (fun x => if s.locks x = some i then none else s.locks x) = fun _ => none := by
    funext x
    rcases hl x with hx | hx <;> simp [hx]
  rw [finish, hpending, hlocks]
  rfl

theorem finish_insert (s : Store ρ) (i : ℕ) (r : ρ) (rows : List ρ) :
    (s.insert i r).finish i rows = s.finish i rows := by
  simp only [finish, insert, Function.update_idem]
  rfl

/-! ### What the others leave alone -/

def Absent (key : ρ → Option κ) (k : κ) (rows : List ρ) : Prop := ∀ r ∈ rows, key r ≠ some k

/-- What the moves of others leave to transaction `i`: its locks, its rows, and the
absence of a key that it guards. -/
structure Apart (key : ρ → Option κ) (guard : κ → ℕ) (i : ℕ) (s t : Store ρ) : Prop where
  locks : ∀ x, t.locks x = some i ↔ s.locks x = some i
  pending : t.pending i = s.pending i
  absent : ∀ k, s.locks (guard k) = some i → Absent key k s.rows → Absent key k t.rows

variable {key : ρ → Option κ} {guard : κ → ℕ} {s t u : Store ρ} {i j : ℕ}

theorem Apart.refl (key : ρ → Option κ) (guard : κ → ℕ) (i : ℕ) (s : Store ρ) :
    Apart key guard i s s :=
  ⟨fun _ => Iff.rfl, rfl, fun _ _ h => h⟩

theorem Apart.trans (h : Apart key guard i s t) (h' : Apart key guard i t u) :
    Apart key guard i s u where
  locks x := (h'.locks x).trans (h.locks x)
  pending := h'.pending.trans h.pending
  absent k hk ha := h'.absent k ((h.locks _).mpr hk) (h.absent k hk ha)

/-- The view of a transaction keeps a key absent that the transaction guards. -/
theorem Apart.view (h : Apart key guard i s t) {k : κ} (hk : s.locks (guard k) = some i)
    (ha : Absent key k (s.view i)) : Absent key k (t.view i) := by
  intro r hr
  rcases List.mem_append.mp hr with hr | hr
  · exact h.absent k hk (fun r hr => ha r (List.mem_append_left _ hr)) r hr
  · rw [h.pending] at hr
    exact ha r (List.mem_append_right _ hr)

theorem apart_acquire {x : ℕ} (hx : s.locks x = none ∨ s.locks x = some i) (hij : j ≠ i) :
    Apart key guard j s (s.acquire i x) where
  locks y := by
    by_cases hy : y = x
    · subst hy
      simp only [Store.acquire, Function.update_self, Option.some.injEq]
      rcases hx with hx | hx <;> rw [hx] <;> simp [Ne.symm hij]
    · simp only [Store.acquire, Function.update_of_ne hy]
  pending := rfl
  absent _ _ ha := ha

theorem apart_insert {r : ρ} (hij : j ≠ i) : Apart key guard j s (s.insert i r) where
  locks _ := Iff.rfl
  pending := by simp only [Store.insert, Function.update_of_ne hij]
  absent _ _ ha := ha

/-- The locks that are left after transaction `i` are those of others. -/
theorem locks_finish {rows : List ρ} (x : ℕ) (hij : j ≠ i) :
    (s.finish i rows).locks x = some j ↔ s.locks x = some j := by
  simp only [finish]
  split_ifs with hx
  · simp only [hx, Option.some.injEq, false_iff]
    exact Ne.symm hij
  · rfl

theorem apart_rollback (hij : j ≠ i) : Apart key guard j s (s.rollback i) where
  locks x := locks_finish x hij
  pending := by simp only [Store.rollback, finish, Function.update_of_ne hij]
  absent _ _ ha := ha

theorem apart_rewrite {f : ρ → ρ} (hf : ∀ r k, key (f r) = some k → key r = some k) :
    Apart key guard j s (s.rewrite f) where
  locks _ := Iff.rfl
  pending := rfl
  absent k _ ha := by
    intro r hr hkr
    obtain ⟨r', hr', rfl⟩ := List.mem_map.mp hr
    exact ha r' hr' (hf r' k hkr)

/-! ### The invariant -/

section Guarded
variable [DecidableEq κ]

/-- At most one row under each key. -/
def Single (key : ρ → Option κ) (rows : List ρ) : Prop :=
  ∀ k, rows.countP (fun r => key r = some k) ≤ 1

/-- No transaction sees two rows under one key, and each holds the lock that guards
the key of every row it inserted. -/
structure Guarded (key : ρ → Option κ) (guard : κ → ℕ) (s : Store ρ) : Prop where
  single : ∀ i, Single key (s.view i)
  locked : ∀ i, ∀ r ∈ s.pending i, ∀ k, key r = some k → s.locks (guard k) = some i

theorem absent_iff_countP {k : κ} {rows : List ρ} :
    Absent key k rows ↔ rows.countP (fun r => key r = some k) = 0 := by
  simp [Absent, List.countP_eq_zero]

/-- What is committed has at most one row under each key. -/
theorem Guarded.rows (h : Guarded key guard s) : Single key s.rows := by
  intro k
  have := h.single 0 k
  rw [view, List.countP_append] at this
  omega

theorem Guarded.acquire {x : ℕ} (h : Guarded key guard s)
    (hx : s.locks x = none ∨ s.locks x = some i) : Guarded key guard (s.acquire i x) where
  single := h.single
  locked := by
    intro j r hr k hk
    have hj := h.locked j r hr k hk
    by_cases hg : guard k = x
    · rw [hg] at hj ⊢
      rcases hx with hx | hx
      · rw [hx] at hj; cases hj
      · rw [hx] at hj
        simp only [Store.acquire, Function.update_self]
        exact hj
    · simp only [Store.acquire, Function.update_of_ne hg]
      exact hj

/-- The insert of a row whose key the transaction guards and does not see. -/
theorem Guarded.insert {r : ρ} {k : κ} (h : Guarded key guard s) (hr : key r = some k)
    (hk : s.locks (guard k) = some i) (ha : Absent key k (s.view i)) :
    Guarded key guard (s.insert i r) where
  single := by
    intro j k'
    by_cases hj : j = i
    · subst hj
      have h₁ := h.single j k'
      simp only [Store.view, Store.insert, Function.update_self, List.countP_append,
        List.countP_singleton, hr] at h₁ ⊢
      by_cases hkk : k = k'
      · subst hkk
        have h₀ := absent_iff_countP.mp ha
        simp only [Store.view, List.countP_append] at h₀
        split_ifs <;> omega
      · simp only [Option.some.injEq, hkk, decide_false, Bool.false_eq_true, if_false]
        omega
    · simp only [Store.view, Store.insert, Function.update_of_ne hj]
      exact h.single j k'
  locked := by
    intro j r' hr' k' hk'
    by_cases hj : j = i
    · subst hj
      simp only [Store.insert, Function.update_self, List.mem_append, List.mem_singleton] at hr'
      rcases hr' with hr' | rfl
      · exact h.locked j r' hr' k' hk'
      · rw [hr, Option.some.injEq] at hk'
        subst hk'
        exact hk
    · simp only [Store.insert, Function.update_of_ne hj] at hr'
      exact h.locked j r' hr' k' hk'

theorem Guarded.commit (h : Guarded key guard s) : Guarded key guard (s.commit i) where
  single := by
    intro j k
    by_cases hj : j = i
    · subst hj
      simp only [Store.commit, finish, Store.view, Function.update_self, List.append_nil]
      exact h.single j k
    · simp only [Store.commit, finish, Store.view, Function.update_of_ne hj, List.countP_append]
      have hi := h.single i k
      have hj' := h.single j k
      simp only [Store.view, List.countP_append] at hi hj'
      -- the lock that guards `k` lets one of the two have pending rows under it
      have hone : (s.pending i).countP (fun r => key r = some k) = 0 ∨
          (s.pending j).countP (fun r => key r = some k) = 0 := by
        by_contra hno
        obtain ⟨h1, h2⟩ := not_or.mp hno
        obtain ⟨r, hr, hrk⟩ := List.countP_pos_iff.mp (Nat.pos_of_ne_zero h1)
        obtain ⟨r', hr', hrk'⟩ := List.countP_pos_iff.mp (Nat.pos_of_ne_zero h2)
        have e := h.locked i r hr k (by simpa using hrk)
        rw [h.locked j r' hr' k (by simpa using hrk')] at e
        exact hj (Option.some.inj e)
      omega
  locked := by
    intro j r hr k hk
    by_cases hj : j = i
    · subst hj
      simp only [Store.commit, finish, Function.update_self, List.not_mem_nil] at hr
    · simp only [Store.commit, finish, Function.update_of_ne hj] at hr
      exact (locks_finish _ hj).mpr (h.locked j r hr k hk)

theorem Guarded.apart_commit (h : Guarded key guard s) (hij : j ≠ i) :
    Apart key guard j s (s.commit i) where
  locks x := locks_finish x hij
  pending := by simp only [Store.commit, finish, Function.update_of_ne hij]
  absent k hk ha := by
    intro r hr hkr
    rcases List.mem_append.mp hr with hr | hr
    · exact ha r hr hkr
    · have e := h.locked i r hr k hkr
      rw [hk] at e
      exact hij (Option.some.inj e)

theorem Guarded.rollback (h : Guarded key guard s) : Guarded key guard (s.rollback i) where
  single := by
    intro j k
    by_cases hj : j = i
    · subst hj
      simp only [Store.rollback, finish, Store.view, Function.update_self, List.append_nil]
      exact h.rows k
    · simp only [Store.rollback, finish, Store.view, Function.update_of_ne hj]
      exact h.single j k
  locked := by
    intro j r hr k hk
    by_cases hj : j = i
    · subst hj
      simp only [Store.rollback, finish, Function.update_self, List.not_mem_nil] at hr
    · simp only [Store.rollback, finish, Function.update_of_ne hj] at hr
      exact (locks_finish _ hj).mpr (h.locked j r hr k hk)

/-- A rewrite that gives no row a key it did not have. -/
theorem Guarded.rewrite {f : ρ → ρ} (h : Guarded key guard s)
    (hf : ∀ r k, key (f r) = some k → key r = some k) : Guarded key guard (s.rewrite f) where
  single := by
    intro j k
    have hj := h.single j k
    have hmono : (s.rows.map f).countP (fun r => key r = some k) ≤
        s.rows.countP (fun r => key r = some k) := by
      rw [List.countP_map]
      refine List.countP_mono_left fun r _ hr => ?_
      simpa using hf r k (by simpa using hr)
    simp only [Store.view, Store.rewrite, List.countP_append] at hj ⊢
    omega
  locked := h.locked

/-- The insert that a transaction is about to make gives nobody a second row under the
key: if it keeps the invariant, no row with the key is committed or pending. -/
theorem Guarded.absent_of_insert {r : ρ} {k : κ} (h : Guarded key guard s)
    (hi : Guarded key guard (s.insert i r)) (hr : key r = some k) (j : ℕ) :
    Absent key k (s.view j) := by
  have hview : Absent key k (s.view i) := by
    have h1 := hi.single i k
    simp only [Store.view, Store.insert, Function.update_self, List.countP_append,
      List.countP_singleton, hr, decide_true, if_true] at h1
    rw [absent_iff_countP, Store.view, List.countP_append]
    omega
  have hlock : s.locks (guard k) = some i := by
    refine hi.locked i r ?_ k hr
    simp only [Store.insert, Function.update_self, List.mem_append, List.mem_singleton, or_true]
  intro r' hr' hk
  rcases List.mem_append.mp hr' with hr' | hr'
  · exact hview r' (List.mem_append_left _ hr') hk
  · have hj := h.locked j r' hr' k hk
    rw [hlock, Option.some.injEq] at hj
    subst hj
    exact hview r' (List.mem_append_right _ hr') hk

end Guarded

/-! ### What holds of every row -/

/-- `P` holds of every row that some transaction sees. -/
def Everywhere (P : ρ → Prop) (s : Store ρ) : Prop := ∀ i, ∀ r ∈ s.view i, P r

variable {P : ρ → Prop}

theorem Everywhere.insert {r : ρ} (h : Everywhere P s) (hr : P r) :
    Everywhere P (s.insert i r) := by
  intro j r' hr'
  by_cases hj : j = i
  · subst hj
    simp only [Store.view, Store.insert, Function.update_self, ← List.append_assoc,
      List.mem_append, List.mem_singleton] at hr'
    rcases hr' with hr' | rfl
    · exact h j r' (List.mem_append.mpr hr')
    · exact hr
  · simp only [Store.view, Store.insert, Function.update_of_ne hj] at hr'
    exact h j r' hr'

theorem Everywhere.finish {rows : List ρ} (h : Everywhere P s) (hr : ∀ r ∈ rows, r ∈ s.view i) :
    Everywhere P (s.finish i rows) := by
  intro j r' hr'
  rcases List.mem_append.mp hr' with hr' | hr'
  · exact h i r' (hr r' hr')
  · by_cases hj : j = i
    · subst hj
      simp only [Store.finish, Function.update_self, List.not_mem_nil] at hr'
    · simp only [Store.finish, Function.update_of_ne hj] at hr'
      exact h j r' (List.mem_append_right _ hr')

theorem Everywhere.commit (h : Everywhere P s) : Everywhere P (s.commit i) :=
  h.finish fun _ hr => hr

theorem Everywhere.rollback (h : Everywhere P s) : Everywhere P (s.rollback i) :=
  h.finish fun _ hr => List.mem_append_left _ hr

theorem Everywhere.rewrite {f : ρ → ρ} (h : Everywhere P s) (hf : ∀ r, P r → P (f r)) :
    Everywhere P (s.rewrite f) := by
  intro j r' hr'
  rcases List.mem_append.mp hr' with hr' | hr'
  · obtain ⟨r, hr, rfl⟩ := List.mem_map.mp hr'
    exact hf r (h j r (List.mem_append_left _ hr))
  · exact h j r' (List.mem_append_right _ hr')

end Store

end MovieReservation.Lib
