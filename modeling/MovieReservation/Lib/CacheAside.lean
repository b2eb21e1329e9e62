import MovieReservation.Lib.Retry

/-! Reading through a cache: what was cached is returned, and what was not is computed, cached
and returned. Whatever is known of a value that is computed, and of one that is found, is known
of the value that is returned and of the value that is cached, wherever the commands fail. -/

namespace MovieReservation.Lib

variable {C : Type} {R : C → Type} {ε α β : Type}

namespace Prog

def readThrough (get : Prog C R ε (Option β)) (compute : Prog C R ε β)
    (set : β → Prog C R ε Unit) : Prog C R ε β := do
  match ← get with
  | some v => return v
  | none =>
    let v ← compute
    set v
    return v

section ReadThrough
variable {get : Prog C R ε (Option β)} {compute : Prog C R ε β} {set : β → Prog C R ε Unit}
  {K : List (Answer C R ε) → β → Prop}

/-- Of every value that the program returns `K` is known. -/
abbrev Knows (K : List (Answer C R ε) → β → Prop) (l : List (Answer C R ε))
    (r : Except ε β) : Prop := ∀ v, r = .ok v → K l v

/-- What is known once stays known. -/
def Persists (K : List (Answer C R ε) → β → Prop) : Prop :=
  ∀ l a v, K l v → K (l ++ [a]) v

theorem yields_return (hK : Persists K) {v : β} {p : Prog C R ε α} :
    ∀ {l : List (Answer C R ε)}, K l v → Yields (Knows K) l (p >>= fun _ => pure v) := by
  induction p with
  | done r =>
    intro l h
    cases r with
    | ok a =>
      intro v' hv
      cases hv
      exact h
    | error e =>
      intro v' hv
      cases hv
  | call c k ih =>
    intro l h r
    exact ih r (hK l _ v h)

theorem yields_readThrough (hK : Persists K)
    (hget : ∀ l, Yields (fun l r => ∀ v, r = .ok (some v) → K l v) l get)
    (hcompute : ∀ l, Yields (Knows K) l compute) (l : List (Answer C R ε)) :
    Yields (Knows K) l (readThrough get compute set) := by
  refine (hget l).bind (fun l e _ v hv => ?_) fun found l hfound => ?_
  · cases hv
  cases found with
  | some v =>
    intro v' hv
    cases hv
    exact hfound v rfl
  | none =>
    refine (hcompute l).bind (fun l e _ v hv => ?_) fun v l hv => ?_
    · cases hv
    · exact yields_return hK (hv v rfl)

theorem informed_readThrough {P : List (Answer C R ε) → C → Prop} (hget : ∀ l, Informed P l get)
    (hcompute : ∀ l, Informed P l compute) (hknown : ∀ l, Yields (Knows K) l compute)
    (hset : ∀ l v, K l v → Informed P l (set v)) (l : List (Answer C R ε)) :
    Informed P l (readThrough get compute set) := by
  refine (hget l).bind fun found l' => ?_
  cases found with
  | some v => trivial
  | none =>
    refine (hcompute _).bind_yields (hknown _) fun v l'' hv => ?_
    exact (hset _ v (hv v rfl)).bind fun _ _ => trivial

end ReadThrough

end Prog

end MovieReservation.Lib
