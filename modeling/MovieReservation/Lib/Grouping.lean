import Mathlib.Data.List.Dedup
import Mathlib.Data.List.Induction
import Mathlib.Data.List.Perm.Basic

/-! Grouping the rows of a list by a key, one row after the other, in a map that keeps the
order of first insertion: each key that occurs has one group, the values of its rows in
their order. -/

namespace MovieReservation.Lib.Grouping

variable {κ α ρ : Type*} [DecidableEq κ]

/-- `x` at the end of the group of `k`, which is a new one where there is none. -/
def push (k : κ) (x : α) : List (κ × List α) → List (κ × List α)
  | [] => [(k, [x])]
  | (j, xs) :: m => if j = k then (j, xs ++ [x]) :: m else (j, xs) :: push k x m

def groupBy (key : ρ → κ) (value : ρ → α) (rows : List ρ) : List (κ × List α) :=
  rows.foldl (fun m r => push (key r) (value r) m) []

/-- The keys in the order of their first rows. -/
def order (key : ρ → κ) (rows : List ρ) : List κ := (rows.map key).reverse.dedup.reverse

def valuesOf (key : ρ → κ) (value : ρ → α) (k : κ) (rows : List ρ) : List α :=
  (rows.filter fun r => key r = k).map value

variable {key : ρ → κ} {value : ρ → α} {rows : List ρ} {k : κ}

@[simp] theorem groupBy_nil : groupBy key value [] = [] := rfl

@[simp] theorem groupBy_append (rows : List ρ) (r : ρ) :
    groupBy key value (rows ++ [r]) = push (key r) (value r) (groupBy key value rows) := by
  simp only [groupBy, List.foldl_append, List.foldl_cons, List.foldl_nil]

theorem mem_order : k ∈ order key rows ↔ k ∈ rows.map key := by
  rw [order, List.mem_reverse, List.mem_dedup, List.mem_reverse]

theorem nodup_order : (order key rows).Nodup := List.nodup_reverse.mpr (List.nodup_dedup _)

theorem order_append (rows : List ρ) (r : ρ) : order key (rows ++ [r]) =
    if key r ∈ order key rows then order key rows else order key rows ++ [key r] := by
  simp only [order, List.map_append, List.map_cons, List.map_nil, List.reverse_append,
    List.reverse_cons, List.reverse_nil, List.nil_append, List.singleton_append,
    List.mem_reverse, List.mem_dedup]
  split_ifs with h
  · rw [List.dedup_cons_of_mem (List.mem_reverse.mpr h)]
  · rw [List.dedup_cons_of_notMem fun hmem => h (List.mem_reverse.mp hmem), List.reverse_cons]

theorem order_of_nodup (h : (rows.map key).Nodup) : order key rows = rows.map key := by
  rw [order, (List.nodup_reverse.mpr h).dedup, List.reverse_reverse]

theorem mem_valuesOf {x : α} :
    x ∈ valuesOf key value k rows ↔ ∃ r ∈ rows, key r = k ∧ value r = x := by
  simp only [valuesOf, List.mem_map, List.mem_filter, decide_eq_true_eq, and_assoc]

theorem valuesOf_append (rows : List ρ) (r : ρ) : valuesOf key value k (rows ++ [r]) =
    if key r = k then valuesOf key value k rows ++ [value r] else valuesOf key value k rows := by
  simp only [valuesOf, List.filter_append, List.map_append, List.filter_singleton]
  split_ifs with h
  · rw [decide_eq_true h, cond_true, List.map_singleton]
  · rw [decide_eq_false h, cond_false, List.map_nil, List.append_nil]

theorem valuesOf_of_notMem (h : k ∉ rows.map key) : valuesOf key value k rows = [] := by
  rw [valuesOf, List.map_eq_nil_iff, List.filter_eq_nil_iff]
  intro r hr hk
  exact h (List.mem_map.mpr ⟨r, hr, of_decide_eq_true hk⟩)

/-- A push where the group of each key is a function of it. -/
theorem push_map {ks : List κ} (hks : ks.Nodup) (f : κ → List α) (x : α) :
    push k x (ks.map fun j => (j, f j)) = if k ∈ ks
      then ks.map fun j => (j, if k = j then f j ++ [x] else f j)
      else (ks.map fun j => (j, f j)) ++ [(k, [x])] := by
  induction ks with
  | nil => rfl
  | cons j ks ih =>
    obtain ⟨hj, hks⟩ := List.nodup_cons.mp hks
    rw [List.map_cons, push]
    by_cases hk : j = k
    · subst hk
      have hrest : ∀ i ∈ ks, ¬ j = i := fun i hi h => hj (h ▸ hi)
      rw [if_pos rfl, if_pos List.mem_cons_self, List.map_cons, if_pos rfl]
      congr 1
      exact List.map_congr_left fun i hi => by rw [if_neg (hrest i hi)]
    · rw [if_neg hk, ih hks]
      simp only [List.mem_cons, Ne.symm hk, false_or]
      split_ifs with hmem
      · rw [List.map_cons, if_neg (Ne.symm hk)]
      · rw [List.cons_append]

theorem groupBy_eq (rows : List ρ) :
    groupBy key value rows = (order key rows).map fun k => (k, valuesOf key value k rows) := by
  induction rows using List.reverseRecOn with
  | nil => rfl
  | append_singleton rows r ih =>
    rw [groupBy_append, ih, push_map nodup_order, order_append]
    simp only [valuesOf_append]
    split_ifs with h
    · rfl
    · have hold : ∀ j ∈ order key rows, ¬ key r = j := fun j hj hr => h (hr ▸ hj)
      rw [List.map_append, List.map_singleton, if_pos rfl,
        valuesOf_of_notMem (fun hmem => h (mem_order.mpr hmem)), List.nil_append]
      congr 1
      exact List.map_congr_left fun j hj => by rw [if_neg (hold j hj)]

theorem mem_groupBy {g : κ × List α} : g ∈ groupBy key value rows ↔
    g.1 ∈ rows.map key ∧ g.2 = valuesOf key value g.1 rows := by
  obtain ⟨k, xs⟩ := g
  rw [groupBy_eq, List.mem_map]
  simp only [mem_order, Prod.mk.injEq]
  constructor
  · rintro ⟨j, hj, rfl, rfl⟩
    exact ⟨hj, rfl⟩
  · rintro ⟨hk, rfl⟩
    exact ⟨k, hk, rfl, rfl⟩

theorem length_groupBy_of_nodup (h : (rows.map key).Nodup) :
    (groupBy key value rows).length = rows.length := by
  rw [groupBy_eq, List.length_map, order_of_nodup h, List.length_map]

/-- The one group of a key. -/
theorem filter_groupBy (rows : List ρ) (k : κ) :
    (groupBy key value rows).filter (fun g => g.1 = k) =
      if k ∈ rows.map key then [(k, valuesOf key value k rows)] else [] := by
  have hkeys : (order key rows).filter (fun j => j = k) =
      if k ∈ rows.map key then [k] else [] := by
    rw [List.filter_eq, nodup_order.count]
    simp only [mem_order]
    split_ifs <;> rfl
  rw [groupBy_eq, List.filter_map]
  have hcomp : ((fun g : κ × List α => decide (g.1 = k)) ∘
      fun j => (j, valuesOf key value j rows)) = fun j => decide (j = k) := rfl
  rw [hcomp, hkeys]
  split_ifs <;> rfl

/-! ### Nothing is lost, and nothing is added -/

/-- The pairs of a key and a value that the groups hold. -/
def pairs (m : List (κ × List α)) : List (κ × α) := m.flatMap fun g => g.2.map (g.1, ·)

theorem pairs_push (k : κ) (x : α) (m : List (κ × List α)) :
    (pairs (push k x m)).Perm ((k, x) :: pairs m) := by
  induction m with
  | nil => exact .refl _
  | cons g m ih =>
    obtain ⟨j, xs⟩ := g
    rw [push]
    split_ifs with h
    · subst h
      simp only [pairs, List.flatMap_cons, List.map_append, List.map_cons, List.map_nil,
        List.append_assoc]
      exact List.perm_middle
    · simp only [pairs, List.flatMap_cons] at ih ⊢
      exact (ih.append_left _).trans List.perm_middle

theorem pairs_groupBy (rows : List ρ) :
    (pairs (groupBy key value rows)).Perm (rows.map fun r => (key r, value r)) := by
  induction rows using List.reverseRecOn with
  | nil => exact .refl _
  | append_singleton rows r ih =>
    rw [groupBy_append, List.map_append, List.map_singleton]
    refine (pairs_push _ _ _).trans ((ih.cons _).trans ?_)
    exact (List.perm_append_singleton _ _).symm

end MovieReservation.Lib.Grouping
