import Mathlib.Data.List.Basic

/-! Runs of a deterministic system: a step function folded over a list of inputs, what
holds in every state such a run reaches, and a rule for when exactly that is so. -/

namespace MovieReservation.Lib

variable {X S : Type} (step : S → X → S)

/-- `Q` holds in every state of the run. -/
def AllStates (Q : S → Prop) (xs : List X) (s : S) : Prop :=
  ∀ ys, ys <+: xs → Q (ys.foldl step s)

/-- Every input meets `C` in the state it finds. -/
def EachMeets (C : X → S → Prop) : List X → S → Prop
  | [], _ => True
  | x :: xs, s => C x s ∧ EachMeets C xs (step s x)

instance decidableEachMeets (C : X → S → Prop) [∀ x s, Decidable (C x s)] :
    ∀ (xs : List X) (s : S), Decidable (EachMeets step C xs s)
  | [], _ => inferInstanceAs (Decidable True)
  | x :: xs, s =>
    have : Decidable (EachMeets step C xs (step s x)) := decidableEachMeets C xs _
    inferInstanceAs (Decidable (C x s ∧ EachMeets step C xs (step s x)))

variable {step} {I Q : S → Prop} {C : X → S → Prop}

theorem AllStates.start {xs : List X} {s : S} (h : AllStates step Q xs s) : Q s :=
  h [] List.nil_prefix

theorem allStates_cons {x : X} {xs : List X} {s : S} :
    AllStates step Q (x :: xs) s ↔ Q s ∧ AllStates step Q xs (step s x) := by
  constructor
  · intro h
    refine ⟨h.start, fun ys hys => ?_⟩
    exact h (x :: ys) (List.cons_prefix_cons.mpr ⟨rfl, hys⟩)
  · rintro ⟨hs, h⟩ ys hys
    cases ys with
    | nil => exact hs
    | cons y ys =>
      obtain ⟨rfl, hrest⟩ := List.cons_prefix_cons.mp hys
      exact h ys hrest

/-- What the inputs of a run keep holds throughout it. -/
theorem allStates_of_keeps {xs : List X} (hkeep : ∀ x ∈ xs, ∀ s, I s → I (step s x)) {s : S}
    (hs : I s) : AllStates step I xs s := by
  induction xs generalizing s with
  | nil =>
    intro ys hys
    rw [List.prefix_nil.mp hys]
    exact hs
  | cons x xs ih =>
    refine allStates_cons.mpr ⟨hs, ih (fun y hy => hkeep y (List.mem_cons_of_mem x hy)) ?_⟩
    exact hkeep x List.mem_cons_self s hs

/-- An invariant that implies `Q`, that the inputs meeting `C` keep, and after which all
other inputs break `Q`: then `Q` holds throughout exactly if the inputs meet `C`. -/
theorem allStates_iff {xs : List X} (hQ : ∀ s, I s → Q s)
    (hkeep : ∀ x ∈ xs, ∀ s, I s → C x s → I (step s x))
    (hbreak : ∀ x ∈ xs, ∀ s, I s → ¬ C x s → ¬ Q (step s x)) {s : S} (hs : I s) :
    AllStates step Q xs s ↔ EachMeets step C xs s := by
  induction xs generalizing s with
  | nil =>
    refine iff_of_true (fun ys hys => ?_) trivial
    rw [List.prefix_nil.mp hys]
    exact hQ s hs
  | cons x xs ih =>
    rw [allStates_cons, and_iff_right (hQ s hs)]
    by_cases hx : C x s
    · rw [ih (fun y hy => hkeep y (List.mem_cons_of_mem x hy))
        (fun y hy => hbreak y (List.mem_cons_of_mem x hy)) (hkeep x List.mem_cons_self s hs hx)]
      exact (and_iff_right hx).symm
    · refine iff_of_false (fun h => ?_) fun h => hx h.1
      exact hbreak x List.mem_cons_self s hs hx h.start

end MovieReservation.Lib
