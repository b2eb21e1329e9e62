import Mathlib.Data.List.Basic

/-! Programs that talk to shared services one command at a time. A program is a
tree: it stops with a result or an error, or issues a command and continues on
the answer, which may be an error it can catch. The commands are a parameter.
`run` executes a program with nobody in between; `Holds` is the rule of pre- and
postconditions for that execution, with a side condition met by every command. -/

namespace MovieReservation.Lib

inductive Prog (C : Type) (R : C → Type) (ε α : Type) where
  | done (r : Except ε α)
  | call (c : C) (k : Except ε (R c) → Prog C R ε α)

namespace Prog

variable {C : Type} {R : C → Type} {ε α β γ S : Type}

/-! ### Composition -/

protected def bind : Prog C R ε α → (α → Prog C R ε β) → Prog C R ε β
  | done (.ok a), f => f a
  | done (.error e), _ => done (.error e)
  | call c k, f => call c fun r => (k r).bind f

protected def tryCatch : Prog C R ε α → (ε → Prog C R ε α) → Prog C R ε α
  | done (.ok a), _ => done (.ok a)
  | done (.error e), h => h e
  | call c k, h => call c fun r => (k r).tryCatch h

/-- `p`, then `f` whether `p` threw or not, then the outcome of `p`. -/
protected def ensuring : Prog C R ε α → Prog C R ε Unit → Prog C R ε α
  | done r, f => f.bind fun _ => done r
  | call c k, f => call c fun r => (k r).ensuring f

instance : Monad (Prog C R ε) where
  pure a := done (.ok a)
  bind := Prog.bind

instance : MonadExcept ε (Prog C R ε) where
  throw e := done (.error e)
  tryCatch := Prog.tryCatch

/-- Issue one command; its error is thrown. -/
def issue (c : C) : Prog C R ε (R c) := call c done

/-- The answers to two kinds of commands. -/
@[reducible] def SumReply {D : Type} (R : C → Type) (T : D → Type) : C ⊕ D → Type
  | .inl c => R c
  | .inr d => T d

/-- The program, over commands to which others were added. -/
def left {D : Type} {T : D → Type} : Prog C R ε α → Prog (C ⊕ D) (SumReply R T) ε α
  | done r => done r
  | call c k => call (.inl c) fun r => (k r).left

def finished : Prog C R ε α → Bool
  | done _ => true
  | call _ _ => false

def result : Prog C R ε α → Option (Except ε α)
  | done r => some r
  | call _ _ => none

theorem eq_done_of_result {p : Prog C R ε α} {r : Except ε α} (h : p.result = some r) :
    p = done r := by
  cases p with
  | done r' => exact congrArg done (Option.some.inj h)
  | call c k => cases h

@[simp] theorem pure_eq (a : α) : (pure a : Prog C R ε α) = done (.ok a) := rfl

@[simp] theorem throw_eq (e : ε) : (throw e : Prog C R ε α) = done (.error e) := rfl

@[simp] theorem bind_ok (a : α) (f : α → Prog C R ε β) : (done (.ok a) >>= f) = f a := rfl

@[simp] theorem bind_error (e : ε) (f : α → Prog C R ε β) :
    (done (.error e) >>= f) = done (.error e) := rfl

@[simp] theorem bind_call (c : C) (k : Except ε (R c) → Prog C R ε α) (f : α → Prog C R ε β) :
    (call c k >>= f) = call c fun r => k r >>= f := rfl

@[simp] theorem tryCatch_ok (a : α) (h : ε → Prog C R ε α) :
    tryCatch (done (.ok a) : Prog C R ε α) h = done (.ok a) := rfl

@[simp] theorem tryCatch_error (e : ε) (h : ε → Prog C R ε α) :
    tryCatch (done (.error e) : Prog C R ε α) h = h e := rfl

@[simp] theorem tryCatch_call (c : C) (k : Except ε (R c) → Prog C R ε α)
    (h : ε → Prog C R ε α) : tryCatch (call c k) h = call c fun r => tryCatch (k r) h := rfl

@[simp] theorem ensuring_done (r : Except ε α) (f : Prog C R ε Unit) :
    (done r).ensuring f = (f >>= fun _ => done r) := rfl

@[simp] theorem ensuring_call (c : C) (k : Except ε (R c) → Prog C R ε α) (f : Prog C R ε Unit) :
    (call c k).ensuring f = call c fun r => (k r).ensuring f := rfl

theorem bind_assoc (p : Prog C R ε α) (f : α → Prog C R ε β) (g : β → Prog C R ε γ) :
    (p >>= f) >>= g = p >>= fun a => f a >>= g := by
  induction p with
  | done r => cases r <;> rfl
  | call c k ih =>
    simp only [bind_call]
    congr 1
    funext r
    exact ih r

theorem map_eq (f : α → β) (p : Prog C R ε α) : f <$> p = p >>= fun a => pure (f a) := rfl

theorem id_map (p : Prog C R ε α) : id <$> p = p := by
  induction p with
  | done r => cases r <;> rfl
  | call c k ih => exact congrArg (call c) (funext ih)

instance : LawfulMonad (Prog C R ε) :=
  LawfulMonad.mk' _ id_map (fun _ _ => rfl) bind_assoc

/-! ### The commands a program can issue -/

/-- Every command the program may issue, whatever it is answered, satisfies `P`. -/
def Only (P : C → Prop) : Prog C R ε α → Prop
  | done _ => True
  | call c k => P c ∧ ∀ r, Only P (k r)

section Only
variable {P P' : C → Prop}

@[simp] theorem only_done (r : Except ε α) : Only P (done r : Prog C R ε α) := trivial

@[simp] theorem only_call (c : C) (k : Except ε (R c) → Prog C R ε α) :
    Only P (call c k) ↔ P c ∧ ∀ r, Only P (k r) := Iff.rfl

theorem Only.mono (hP : ∀ c, P c → P' c) {p : Prog C R ε α} (h : Only P p) : Only P' p := by
  induction p with
  | done r => trivial
  | call c k ih => exact ⟨hP c h.1, fun r => ih r (h.2 r)⟩

theorem only_true (p : Prog C R ε α) : Only (fun _ => True) p := by
  induction p with
  | done r => trivial
  | call c k ih => exact ⟨trivial, ih⟩

theorem Only.bind {p : Prog C R ε α} {f : α → Prog C R ε β} (h : Only P p)
    (hf : ∀ a, Only P (f a)) : Only P (p >>= f) := by
  induction p with
  | done r =>
    cases r with
    | ok a => exact hf a
    | error e => trivial
  | call c k ih => exact ⟨h.1, fun r => ih r (h.2 r)⟩

@[simp] theorem only_issue (c : C) : Only P (issue c : Prog C R ε (R c)) ↔ P c :=
  ⟨fun h => h.1, fun h => ⟨h, fun _ => trivial⟩⟩

@[simp] theorem only_issue_bind (c : C) (f : R c → Prog C R ε α) :
    Only P (issue c >>= f) ↔ P c ∧ ∀ a, Only P (f a) := by
  constructor
  · intro h
    exact ⟨h.1, fun a => h.2 (.ok a)⟩
  · rintro ⟨hc, hf⟩
    exact Only.bind ⟨hc, fun _ => trivial⟩ hf

theorem Only.tryCatch {p : Prog C R ε α} {f : ε → Prog C R ε α} (h : Only P p)
    (hf : ∀ e, Only P (f e)) : Only P (MonadExcept.tryCatch p f) := by
  induction p with
  | done r =>
    cases r with
    | ok a => trivial
    | error e => exact hf e
  | call c k ih => exact ⟨h.1, fun r => ih r (h.2 r)⟩

theorem Only.ensuring {p : Prog C R ε α} {f : Prog C R ε Unit} (h : Only P p) (hf : Only P f) :
    Only P (p.ensuring f) := by
  induction p with
  | done r => exact hf.bind fun _ => trivial
  | call c k ih => exact ⟨h.1, fun r => ih r (h.2 r)⟩

theorem Only.forM_mem {σ : Type} {f : σ → Prog C R ε PUnit} {xs : List σ}
    (hf : ∀ x ∈ xs, Only P (f x)) : Only P (forM xs f) := by
  induction xs with
  | nil => trivial
  | cons x xs ih =>
    rw [List.forM_cons]
    have hrest := ih fun y hy => hf y (List.mem_cons_of_mem x hy)
    exact (hf x List.mem_cons_self).bind fun _ => hrest

theorem Only.forM {σ : Type} {f : σ → Prog C R ε PUnit} (hf : ∀ x, Only P (f x)) (xs : List σ) :
    Only P (forM xs f) := Only.forM_mem fun x _ => hf x

end Only

/-! ### Uninterrupted execution -/

variable (exec : (c : C) → S → Except ε (R c) × S)

def run : Prog C R ε α → S → Except ε α × S
  | done r, s => (r, s)
  | call c k, s => run (k (exec c s).1) (exec c s).2

@[simp] theorem run_done (r : Except ε α) (s : S) : run exec (done r) s = (r, s) := rfl

@[simp] theorem run_call (c : C) (k : Except ε (R c) → Prog C R ε α) (s : S) :
    run exec (call c k) s = run exec (k (exec c s).1) (exec c s).2 := rfl

theorem run_bind (p : Prog C R ε α) (f : α → Prog C R ε β) (s : S) :
    run exec (p >>= f) s = match run exec p s with
      | (.ok a, s') => run exec (f a) s'
      | (.error e, s') => (.error e, s') := by
  induction p generalizing s with
  | done r => cases r <;> rfl
  | call c k ih => exact ih _ _

variable {exec} in
theorem run_bind_of_ok {p : Prog C R ε α} {f : α → Prog C R ε β} {s t : S} {a : α}
    (h : run exec p s = (.ok a, t)) : run exec (p >>= f) s = run exec (f a) t := by
  rw [run_bind, h]

variable {exec} in
theorem run_bind_of_error {p : Prog C R ε α} {f : α → Prog C R ε β} {s t : S} {e : ε}
    (h : run exec p s = (.error e, t)) : run exec (p >>= f) s = (.error e, t) := by
  rw [run_bind, h]

/-- A sequence that ended well has parts that did. -/
theorem run_bind_ok {p : Prog C R ε α} {f : α → Prog C R ε β} {s t : S} {b : β}
    (h : run exec (p >>= f) s = (.ok b, t)) :
    ∃ a u, run exec p s = (.ok a, u) ∧ run exec (f a) u = (.ok b, t) := by
  rw [run_bind] at h
  rcases hp : run exec p s with ⟨e | a, u⟩
  · rw [hp] at h
    cases h
  · rw [hp] at h
    exact ⟨a, u, rfl, h⟩

theorem run_tryCatch (p : Prog C R ε α) (h : ε → Prog C R ε α) (s : S) :
    run exec (tryCatch p h) s = match run exec p s with
      | (.ok a, s') => (.ok a, s')
      | (.error e, s') => run exec (h e) s' := by
  induction p generalizing s with
  | done r => cases r <;> rfl
  | call c k ih => exact ih _ _

variable {exec} in
theorem run_tryCatch_of_ok {p : Prog C R ε α} {h : ε → Prog C R ε α} {s t : S} {a : α}
    (hp : run exec p s = (.ok a, t)) : run exec (tryCatch p h) s = (.ok a, t) := by
  rw [run_tryCatch, hp]

variable {exec} in
theorem run_tryCatch_of_error {p : Prog C R ε α} {h : ε → Prog C R ε α} {s t : S} {e : ε}
    (hp : run exec p s = (.error e, t)) : run exec (tryCatch p h) s = run exec (h e) t := by
  rw [run_tryCatch, hp]

/-- The program itself ended well if no handler does. -/
theorem run_tryCatch_ok {p : Prog C R ε α} {h : ε → Prog C R ε α} {s t : S} {a : α}
    (hrun : run exec (tryCatch p h) s = (.ok a, t))
    (hh : ∀ e u, run exec (h e) u ≠ (.ok a, t)) : run exec p s = (.ok a, t) := by
  rw [run_tryCatch] at hrun
  rcases hp : run exec p s with ⟨e | b, u⟩
  · rw [hp] at hrun
    exact absurd hrun (hh e u)
  · rw [hp] at hrun
    exact hrun

/-- What every command of a program keeps, its run keeps. -/
theorem Only.run {P : C → Prop} {I : S → Prop} (hI : ∀ c s, P c → I s → I (exec c s).2)
    {p : Prog C R ε α} (h : Only P p) {s : S} (hs : I s) : I (run exec p s).2 := by
  induction p generalizing s with
  | done r => exact hs
  | call c k ih => exact ih _ (h.2 _) (hI c s h.1 hs)

/-! ### Preconditions and postconditions -/

/-- Run from `s`, the program ends in a state and with a result that satisfy `Q`,
given that every command it issues meets `A` in the state it is issued in. -/
def Holds (A : C → S → Prop) (Q : Except ε α → S → Prop) : Prog C R ε α → S → Prop
  | done r, s => Q r s
  | call c k, s => A c s → Holds A Q (k (exec c s).1) (exec c s).2

/-- Every command issued in the run from `s` meets `A`. -/
def Along (A : C → S → Prop) : Prog C R ε α → S → Prop
  | done _, _ => True
  | call c k, s => A c s ∧ Along A (k (exec c s).1) (exec c s).2

instance decidableAlong (A : C → S → Prop) [∀ c s, Decidable (A c s)] :
    ∀ (p : Prog C R ε α) (s : S), Decidable (Along exec A p s)
  | done _, _ => inferInstanceAs (Decidable True)
  | call c k, s =>
    have : Decidable (Along exec A (k (exec c s).1) (exec c s).2) := decidableAlong A _ _
    inferInstanceAs (Decidable (A c s ∧ _))

variable {exec} {A : C → S → Prop} {Q Q' : Except ε α → S → Prop}

@[simp] theorem holds_done (r : Except ε α) (s : S) : Holds exec A Q (done r) s ↔ Q r s := Iff.rfl

@[simp] theorem holds_call (c : C) (k : Except ε (R c) → Prog C R ε α) (s : S) :
    Holds exec A Q (call c k) s ↔ (A c s → Holds exec A Q (k (exec c s).1) (exec c s).2) := Iff.rfl

theorem Holds.run {p : Prog C R ε α} {s : S} (h : Holds exec A Q p s) (ha : Along exec A p s) :
    Q (run exec p s).1 (run exec p s).2 := by
  induction p generalizing s with
  | done r => exact h
  | call c k ih => exact ih _ (h ha.1) ha.2

theorem holds_true_iff {p : Prog C R ε α} {s : S} :
    Holds exec (fun _ _ => True) Q p s ↔ Q (Prog.run exec p s).1 (Prog.run exec p s).2 := by
  induction p generalizing s with
  | done r => rfl
  | call c k ih =>
    simp only [holds_call, forall_const, run_call]
    exact ih _

/-- What the run ends with, whatever condition its commands meet. -/
theorem holds_of_run {p : Prog C R ε α} {s : S}
    (h : Q (Prog.run exec p s).1 (Prog.run exec p s).2) : Holds exec A Q p s := by
  induction p generalizing s with
  | done r => exact h
  | call c k ih => exact fun _ => ih _ h

theorem along_true (p : Prog C R ε α) (s : S) : Along exec (fun _ _ => True) p s := by
  induction p generalizing s with
  | done r => trivial
  | call c k ih => exact ⟨trivial, ih _ _⟩

theorem along_bind {p : Prog C R ε α} {f : α → Prog C R ε β} {s : S} :
    Along exec A (p >>= f) s ↔ Along exec A p s ∧
      ∀ a t, Prog.run exec p s = (.ok a, t) → Along exec A (f a) t := by
  induction p generalizing s with
  | done r =>
    cases r with
    | ok a => exact ⟨fun h => ⟨trivial, fun _ _ ha => by cases ha; exact h⟩, fun h => h.2 _ _ rfl⟩
    | error e => exact iff_of_true trivial ⟨trivial, nofun⟩
  | call c k ih => exact (and_congr_right fun _ => ih _).trans and_assoc.symm

theorem Along.tryCatch {p : Prog C R ε α} {f : ε → Prog C R ε α} {s : S} (h : Along exec A p s)
    (hf : ∀ e t, Prog.run exec p s = (.error e, t) → Along exec A (f e) t) :
    Along exec A (MonadExcept.tryCatch p f) s := by
  induction p generalizing s with
  | done r =>
    cases r with
    | ok a => trivial
    | error e => exact hf e s rfl
  | call c k ih => exact ⟨h.1, ih _ h.2 hf⟩

theorem Only.along {P : C → Prop} (hP : ∀ c s, P c → A c s) {p : Prog C R ε α} (h : Only P p)
    (s : S) : Along exec A p s := by
  induction p generalizing s with
  | done r => trivial
  | call c k ih => exact ⟨hP c s h.1, ih _ (h.2 _) _⟩

theorem Holds.mono {p : Prog C R ε α} {s : S} (h : Holds exec A Q p s)
    (hq : ∀ r s, Q r s → Q' r s) : Holds exec A Q' p s := by
  induction p generalizing s with
  | done r => exact hq _ _ h
  | call c k ih => exact fun ha => ih _ (h ha)

theorem Holds.bind {Q : Except ε β → S → Prop} {p : Prog C R ε α} {f : α → Prog C R ε β} {s : S}
    (h : Holds exec A (fun r s' => match r with
      | .ok a => Holds exec A Q (f a) s'
      | .error e => Q (.error e) s') p s) : Holds exec A Q (p >>= f) s := by
  induction p generalizing s with
  | done r => cases r <;> exact h
  | call c k ih => exact fun ha => ih _ (h ha)

theorem Holds.tryCatch {p : Prog C R ε α} {f : ε → Prog C R ε α} {s : S}
    (h : Holds exec A (fun r s' => match r with
      | .ok a => Q (.ok a) s'
      | .error e => Holds exec A Q (f e) s') p s) :
    Holds exec A Q (MonadExcept.tryCatch p f) s := by
  induction p generalizing s with
  | done r => cases r <;> exact h
  | call c k ih => exact fun ha => ih _ (h ha)

/-- What every command of a program keeps holds when it ends. -/
theorem Only.holds {P : C → Prop} {I : S → Prop} (hI : ∀ c s, P c → I s → I (exec c s).2)
    (hq : ∀ r s, I s → Q r s) {p : Prog C R ε α} (h : Only P p) {s : S} (hs : I s) :
    Holds exec A Q p s := by
  induction p generalizing s with
  | done r => exact hq r s hs
  | call c k ih => exact fun _ => ih _ (h.2 _) (hI c s h.1 hs)

/-- The loop rule: `Inv` holds with the elements still to come, before each of them. -/
theorem Holds.forM {σ : Type} {Inv : List σ → S → Prop} {f : σ → Prog C R ε PUnit}
    {E : ε → S → Prop} (hf : ∀ x xs s, Inv (x :: xs) s → Holds exec A
      (fun r s' => match r with
        | .ok _ => Inv xs s'
        | .error e => E e s') (f x) s) :
    ∀ (xs : List σ) (s : S), Inv xs s → Holds exec A
      (fun r s' => match r with
        | .ok _ => Inv [] s'
        | .error e => E e s') (forM xs f) s
  | [], _, h => h
  | x :: xs, s, h => by
    rw [List.forM_cons]
    refine Holds.bind ((hf x xs s h).mono ?_)
    intro r s' hr
    cases r with
    | ok _ => exact Holds.forM hf xs s' hr
    | error e => exact hr

end Prog

end MovieReservation.Lib
