import Mathlib.Data.List.Basic

/-! Replicas that are kept by deltas. The source is a function of keys; a delta gives
several keys one value. Whoever replays the source's deltas over a copy of it has a copy
of what the source has become, as a function and as a list of entries. -/

namespace MovieReservation.Lib

structure Delta (κ ν : Type) where
  keys : List κ
  value : ν

namespace Delta

variable {κ ν ρ E : Type} [DecidableEq κ]

def apply (d : Delta κ ν) (f : κ → ν) : κ → ν := fun k => if k ∈ d.keys then d.value else f k

def replay (ds : List (Delta κ ν)) (f : κ → ν) : κ → ν := ds.foldl (fun g d => d.apply g) f

@[simp] theorem replay_nil (f : κ → ν) : replay [] f = f := rfl

@[simp] theorem replay_cons (d : Delta κ ν) (ds : List (Delta κ ν)) (f : κ → ν) :
    replay (d :: ds) f = replay ds (d.apply f) := rfl

/-- Deltas that all write one value write it on the keys of any of them. -/
theorem replay_of_value {v : ν} {ds : List (Delta κ ν)} (h : ∀ d ∈ ds, d.value = v) (f : κ → ν)
    (k : κ) : replay ds f k = if ∃ d ∈ ds, k ∈ d.keys then v else f k := by
  induction ds generalizing f with
  | nil => simp
  | cons d ds ih =>
    have hd : d.value = v := h d List.mem_cons_self
    rw [replay_cons, ih (fun e he => h e (List.mem_cons_of_mem d he))]
    by_cases hk : k ∈ d.keys
    · simp [apply, hk, hd]
    · simp [apply, hk]

/-- A delta on a list of entries: `put` rewrites the entry of a key. -/
def patch (key : E → κ) (put : ν → E → E) (d : Delta κ ν) (es : List E) : List E :=
  es.map fun e => if key e ∈ d.keys then put d.value e else e

/-- The entries of a copy: one for each row, with the source's value at its key. -/
def view (entry : ρ → ν → E) (id : ρ → κ) (rows : List ρ) (f : κ → ν) : List E :=
  rows.map fun r => entry r (f (id r))

section View
variable {key : E → κ} {put : ν → E → E} {entry : ρ → ν → E} {id : ρ → κ}

theorem patch_view (hkey : ∀ r v, key (entry r v) = id r)
    (hput : ∀ r v v', put v (entry r v') = entry r v) (d : Delta κ ν) (rows : List ρ)
    (f : κ → ν) : d.patch key put (view entry id rows f) = view entry id rows (d.apply f) := by
  simp only [patch, view, List.map_map]
  refine List.map_congr_left fun r _ => ?_
  simp only [Function.comp_apply, hkey, hput, apply]
  split_ifs <;> rfl

/-- Patching a copy is replaying the deltas at the source. -/
theorem foldl_patch_view (hkey : ∀ r v, key (entry r v) = id r)
    (hput : ∀ r v v', put v (entry r v') = entry r v) (rows : List ρ) :
    ∀ (ds : List (Delta κ ν)) (f : κ → ν),
      ds.foldl (fun es d => d.patch key put es) (view entry id rows f) =
        view entry id rows (replay ds f)
  | [], _ => rfl
  | d :: ds, f => by
    rw [List.foldl_cons, patch_view hkey hput, foldl_patch_view hkey hput rows ds, replay_cons]

end View

end Delta

end MovieReservation.Lib
