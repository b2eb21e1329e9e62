import Mathlib.Data.List.Perm.Subperm
import MovieReservation.Lib.Prog

/-! Loops that stop at the first error. An element fails if its turn would, were each
element given its turn; the loop does for all others what their turns do exactly if the
failing elements stand at its end. -/

namespace MovieReservation.Lib.Prog

variable {C : Type} {R : C → Type} {ε S ι : Type} {exec : (c : C) → S → Except ε (R c) × S}
  {f : ι → Prog C R ε PUnit}

theorem run_forM_cons (x : ι) (xs : List ι) (s : S) :
    run exec (forM (x :: xs) f) s = match run exec (f x) s with
      | (.ok _, t) => run exec (forM xs f) t
      | (.error e, t) => (.error e, t) := by
  rw [List.forM_cons, run_bind]
  rcases run exec (f x) s with ⟨e | _, t⟩ <;> rfl

/-- The elements whose turn fails, when each has its turn. -/
def failing (exec : (c : C) → S → Except ε (R c) × S) (f : ι → Prog C R ε PUnit) :
    List ι → S → List ι
  | [], _ => []
  | x :: xs, s => match run exec (f x) s with
    | (.ok _, t) => failing exec f xs t
    | (.error _, t) => x :: failing exec f xs t

theorem failing_sublist (xs : List ι) (s : S) : (failing exec f xs s).Sublist xs := by
  induction xs generalizing s with
  | nil => exact .slnil
  | cons x xs ih =>
    rw [failing]
    rcases run exec (f x) s with ⟨e | _, t⟩
    · exact (ih t).cons_cons x
    · exact (ih t).cons x

section Settles
variable {Q : ι → S → Prop} {xs : List ι}

/-- What no turn changes, the loop does not change. -/
theorem forM_frame {P : S → Prop} (h : ∀ x ∈ xs, ∀ s, P (run exec (f x) s).2 ↔ P s) (s : S) :
    P (run exec (forM xs f) s).2 ↔ P s := by
  induction xs generalizing s with
  | nil => rfl
  | cons x xs ih =>
    have hx := h x List.mem_cons_self s
    have ih := ih fun y hy => h y (List.mem_cons_of_mem x hy)
    rw [run_forM_cons]
    rcases hrun : run exec (f x) s with ⟨e | _, t⟩
    · rwa [hrun] at hx
    · rw [hrun] at hx
      exact (ih t).trans hx

/-- `Q` comes of a turn that did not fail, and of no other element's turn. -/
theorem forM_settles_iff (hnodup : xs.Nodup)
    (hturn : ∀ x ∈ xs, ∀ s t, run exec (f x) s = (.ok ⟨⟩, t) → Q x t)
    (hothers : ∀ x ∈ xs, ∀ y ∈ xs, y ≠ x → ∀ s, Q y (run exec (f x) s).2 ↔ Q y s)
    (s : S) (hs : ∀ x ∈ xs, ¬ Q x s) :
    (∀ x ∈ xs, x ∉ failing exec f xs s → Q x (run exec (forM xs f) s).2) ↔
      failing exec f xs s <:+ xs := by
  induction xs generalizing s with
  | nil => simp [failing]
  | cons x xs ih =>
    obtain ⟨hx, hnodup⟩ := List.nodup_cons.mp hnodup
    have hne : ∀ y ∈ xs, y ≠ x := fun y hy h => hx (h ▸ hy)
    have hkept : ∀ y ∈ xs, ¬ Q y (run exec (f x) s).2 := fun y hy h =>
      hs y (List.mem_cons_of_mem x hy)
        ((hothers x List.mem_cons_self y (List.mem_cons_of_mem x hy) (hne y hy) s).mp h)
    rw [run_forM_cons, failing]
    rcases hrun : run exec (f x) s with ⟨e | ⟨⟩, t⟩
    · -- the loop is over, and the others are what they were
      rw [hrun] at hkept
      rw [List.suffix_cons_iff, List.cons_inj_right]
      have hall : (∀ y ∈ xs, y ∈ failing exec f xs t) ↔ failing exec f xs t = xs := by
        refine ⟨fun h => ?_, fun h y hy => h.symm ▸ hy⟩
        exact (failing_sublist xs t).eq_of_length_le (List.Nodup.subperm hnodup h).length_le
      rw [← hall]
      constructor
      · intro h
        refine .inl fun y hy => ?_
        by_contra hnot
        refine hkept y hy (h y (List.mem_cons_of_mem x hy) fun hmem => ?_)
        exact hnot ((List.mem_cons.mp hmem).resolve_left (hne y hy))
      · rintro (h | h) y hy hnot
        · rcases List.mem_cons.mp hy with rfl | hy
          · exact absurd List.mem_cons_self hnot
          · exact absurd (List.mem_cons_of_mem x (h y hy)) hnot
        · exact absurd (h.subset List.mem_cons_self) hx
    · rw [hrun] at hkept
      have hlater := ih hnodup (fun y hy => hturn y (List.mem_cons_of_mem x hy))
        (fun y hy z hz => hothers y (List.mem_cons_of_mem x hy) z (List.mem_cons_of_mem x hz))
        t hkept
      have hend : Q x (run exec (forM xs f) t).2 :=
        (forM_frame (fun y hy => hothers y (List.mem_cons_of_mem x hy) x List.mem_cons_self
          (hne y hy).symm) t).mpr (hturn x List.mem_cons_self s t hrun)
      have hnot : failing exec f xs t ≠ x :: xs := fun h =>
        hx ((failing_sublist xs t).subset (h ▸ List.mem_cons_self))
      rw [List.suffix_cons_iff, or_iff_right hnot, ← hlater, List.forall_mem_cons]
      exact and_iff_right fun _ => hend

end Settles

end MovieReservation.Lib.Prog
