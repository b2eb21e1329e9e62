import Mathlib.Data.List.DropRight
import Mathlib.Data.List.Induction
import MovieReservation.Lib.Pool

/-! Paths through the tree of a program: the answers it was given, in order. What is known
when a command is issued, and what is known when the program ends, is what the answers
until then say. -/

namespace MovieReservation.Lib

variable {C : Type} {R : C → Type} {ε S Op Env α β : Type}

/-- A command with what its issuer was told. -/
abbrev Answer (C : Type) (R : C → Type) (ε : Type) := (c : C) × Except ε (R c)

/-! ### Since -/

section Since
variable {γ : Type} {q p : γ → Prop} [DecidablePred p]

/-- An entry with `q` stands behind the last one with `p`. -/
def Since (q p : γ → Prop) [DecidablePred p] (l : List γ) : Prop :=
  ∃ a ∈ l.rtakeWhile fun a => ¬ p a, q a

instance [DecidablePred q] (l : List γ) : Decidable (Since q p l) :=
  inferInstanceAs (Decidable (∃ a ∈ l.rtakeWhile fun a => ¬ p a, q a))

theorem not_since_nil : ¬ Since q p [] := by
  rintro ⟨a, ha, -⟩
  cases ha

theorem since_snoc {l : List γ} {a : γ} : Since q p (l ++ [a]) ↔ ¬ p a ∧ (Since q p l ∨ q a) := by
  unfold Since
  rw [List.rtakeWhile_concat]
  by_cases ha : p a
  · simp [ha]
  · simp only [ha, not_false_eq_true, decide_true, if_true, List.mem_append, List.mem_singleton,
      or_and_right, exists_or, exists_eq_left, true_and]

end Since

/-! ### Paths through a program -/

namespace Prog

/-- The answers `l` lead from the first program to the second. -/
inductive Follows : Prog C R ε α → List (Answer C R ε) → Prog C R ε α → Prop
  | refl (p : Prog C R ε α) : Follows p [] p
  | step {c : C} {k : Except ε (R c) → Prog C R ε α} (r : Except ε (R c))
      {l : List (Answer C R ε)} {q : Prog C R ε α} :
      Follows (k r) l q → Follows (call c k) (⟨c, r⟩ :: l) q

variable {p q : Prog C R ε α} {l : List (Answer C R ε)}

theorem Follows.snoc {c : C} {k : Except ε (R c) → Prog C R ε α} (h : Follows p l (call c k))
    (r : Except ε (R c)) : Follows p (l ++ [⟨c, r⟩]) (k r) := by
  generalize hq : call c k = q at h
  induction h with
  | refl p =>
    subst hq
    exact .step r (.refl _)
  | step r' _ ih => exact .step r' (ih hq)

/-- What every path through a program can contain. -/
theorem Follows.only {P : C → Prop} (h : Follows p l q) (hp : Only P p) : ∀ a ∈ l, P a.1 := by
  induction h with
  | refl p =>
    intro a ha
    cases ha
  | step r _ ih =>
    intro a ha
    rcases List.mem_cons.mp ha with rfl | ha
    · exact hp.1
    · exact ih (hp.2 r) a ha

theorem Follows.only_rest {P : C → Prop} (h : Follows p l q) (hp : Only P p) : Only P q := by
  induction h with
  | refl p => exact hp
  | step r _ ih => exact ih (hp.2 r)

/-- A path through a sequence ends in its first part, or passes its result on. -/
theorem Follows.bind_cases {p : Prog C R ε α} {f : α → Prog C R ε β} {q : Prog C R ε β}
    (h : Follows (p >>= f) l q) :
    (∃ p', Follows p l p' ∧ q = p' >>= f) ∨
      ∃ a l₁ l₂, l = l₁ ++ l₂ ∧ Follows p l₁ (done (.ok a)) ∧ Follows (f a) l₂ q := by
  induction p generalizing l with
  | done r =>
    cases r with
    | ok a => exact .inr ⟨a, [], l, rfl, .refl _, h⟩
    | error e =>
      cases h with
      | refl => exact .inl ⟨_, .refl _, rfl⟩
  | call c k ih =>
    rw [bind_call] at h
    cases h with
    | refl => exact .inl ⟨_, .refl _, rfl⟩
    | step r h =>
      rcases ih r h with ⟨p', hp, hq⟩ | ⟨a, l₁, l₂, hl, hp, hf⟩
      · exact .inl ⟨p', .step r hp, hq⟩
      · exact .inr ⟨a, ⟨c, r⟩ :: l₁, l₂, by rw [hl, List.cons_append], .step r hp, hf⟩

/-- A sequence that ends with a result has a first part that does. -/
theorem Follows.bind_ok {p : Prog C R ε α} {f : α → Prog C R ε β} {b : β}
    (h : Follows (p >>= f) l (done (.ok b))) :
    ∃ a l₁ l₂, l = l₁ ++ l₂ ∧ Follows p l₁ (done (.ok a)) ∧ Follows (f a) l₂ (done (.ok b)) := by
  rcases h.bind_cases with ⟨p', hp, hq⟩ | h
  · cases p' with
    | done r =>
      cases r with
      | ok a => exact ⟨a, l, [], (List.append_nil l).symm, hp, by rw [hq]; exact .refl _⟩
      | error e => cases hq
    | call c k => cases hq
  · exact h

/-- A path through a handled program ends inside it, or goes on in the handler. -/
theorem Follows.tryCatch_cases {p : Prog C R ε α} {f : ε → Prog C R ε α} {q : Prog C R ε α}
    (h : Follows (MonadExcept.tryCatch p f) l q) :
    (∃ p', Follows p l p' ∧ q = MonadExcept.tryCatch p' f ∧ ∀ e, p' ≠ done (.error e)) ∨
      ∃ e l₁ l₂, l = l₁ ++ l₂ ∧ Follows p l₁ (done (.error e)) ∧ Follows (f e) l₂ q := by
  induction p generalizing l with
  | done r =>
    cases r with
    | ok a =>
      obtain ⟨rfl, rfl⟩ : l = [] ∧ q = done (.ok a) := by
        cases h
        exact ⟨rfl, rfl⟩
      exact .inl ⟨_, .refl _, rfl, nofun⟩
    | error e => exact .inr ⟨e, [], l, rfl, .refl _, h⟩
  | call c k ih =>
    cases h with
    | refl => exact .inl ⟨_, .refl _, rfl, nofun⟩
    | step r h =>
      rcases ih r h with ⟨p', hp, hq, hne⟩ | ⟨e, l₁, l₂, hl, hp, hf⟩
      · exact .inl ⟨p', .step r hp, hq, hne⟩
      · exact .inr ⟨e, ⟨c, r⟩ :: l₁, l₂, by rw [hl, List.cons_append], .step r hp, hf⟩

theorem Follows.of_done {r : Except ε α} (h : Follows (done r) l q) : l = [] ∧ q = done r := by
  cases h
  exact ⟨rfl, rfl⟩

/-- The first command of a path. -/
theorem Follows.issue_bind {c : C} {f : R c → Prog C R ε β} {q : Prog C R ε β}
    (h : Follows (issue c >>= f) l q) :
    l = [] ∨ (∃ e, l = [⟨c, .error e⟩] ∧ q = done (.error e)) ∨
      ∃ a l', l = ⟨c, .ok a⟩ :: l' ∧ Follows (f a) l' q := by
  rw [issue, bind_call] at h
  cases h with
  | refl => exact .inl rfl
  | step r h =>
    cases r with
    | ok a => exact .inr (.inr ⟨a, _, rfl, h⟩)
    | error e =>
      cases h with
      | refl => exact .inr (.inl ⟨e, rfl, rfl⟩)

/-- A path through a program whose result is mapped. -/
theorem Follows.of_map {p : Prog C R ε α} {f : α → β} {q : Prog C R ε β}
    (h : Follows (f <$> p) l q) : ∃ p', Follows p l p' ∧ q = f <$> p' := by
  rcases h.bind_cases with ⟨p', hp, hq⟩ | ⟨a, l₁, l₂, rfl, hp, hf⟩
  · exact ⟨p', hp, hq⟩
  · obtain ⟨rfl, rfl⟩ : l₂ = [] ∧ q = done (.ok (f a)) := by
      cases hf
      exact ⟨rfl, rfl⟩
    rw [List.append_nil]
    exact ⟨_, hp, rfl⟩

theorem Follows.issue_ok {c : C} {a : R c} (h : Follows (issue c) l (done (.ok a))) :
    l = [⟨c, .ok a⟩] := by
  cases h with
  | step r h =>
    cases h with
    | refl => rfl

/-- The command of the last answer. -/
theorem Follows.last {p q : Prog C R ε α} {l : List (Answer C R ε)} {a : Answer C R ε}
    (h : Follows p (l ++ [a]) q) : ∃ k, Follows p l (call a.1 k) := by
  induction l generalizing p with
  | nil =>
    cases h with
    | step r h => exact ⟨_, .refl _⟩
  | cons b l ih =>
    cases h with
    | step r h =>
      obtain ⟨k, hk⟩ := ih h
      exact ⟨k, .step r hk⟩

/-! ### What is known when a command is issued -/

/-- Every command the program may issue satisfies `P`, of the answers it was given until
then. -/
def Informed (P : List (Answer C R ε) → C → Prop) : List (Answer C R ε) → Prog C R ε α → Prop
  | _, done _ => True
  | l, call c k => P l c ∧ ∀ r, Informed P (l ++ [⟨c, r⟩]) (k r)

section Informed
variable {P : List (Answer C R ε) → C → Prop}

theorem Informed.path {l l' : List (Answer C R ε)} {p : Prog C R ε α} {c : C}
    {k : Except ε (R c) → Prog C R ε α} (hp : Informed P l p) (h : Follows p l' (call c k)) :
    P (l ++ l') c := by
  generalize hq : call c k = q at h
  induction h generalizing l with
  | refl p =>
    subst hq
    rw [List.append_nil]
    exact hp.1
  | step r _ ih =>
    have := ih (hp.2 r) hq
    rwa [List.append_assoc] at this

theorem informed_issue_bind {l : List (Answer C R ε)} {c : C} {f : R c → Prog C R ε α}
    (hc : P l c) (hf : ∀ a, Informed P (l ++ [⟨c, .ok a⟩]) (f a)) :
    Informed P l (issue c >>= f) := by
  refine ⟨hc, fun r => ?_⟩
  cases r with
  | ok a => exact hf a
  | error e => trivial

theorem Informed.mono {P' : List (Answer C R ε) → C → Prop} (hP : ∀ l c, P l c → P' l c)
    {l : List (Answer C R ε)} {p : Prog C R ε α} (h : Informed P l p) : Informed P' l p := by
  induction p generalizing l with
  | done r => trivial
  | call c k ih => exact ⟨hP _ _ h.1, fun r => ih r (h.2 r)⟩

/-- Commands that need to know no more. -/
theorem Informed.of_only {l : List (Answer C R ε)} {p : Prog C R ε α}
    (h : Only (fun c => ∀ l', P (l ++ l') c) p) : Informed P l p := by
  induction p generalizing l with
  | done r => trivial
  | call c k ih =>
    refine ⟨?_, fun r => ih r ((h.2 r).mono fun c' hc' l' => ?_)⟩
    · have := h.1 []
      rwa [List.append_nil] at this
    · rw [List.append_assoc]
      exact hc' _

theorem Informed.bind {l : List (Answer C R ε)} {p : Prog C R ε α} {f : α → Prog C R ε β}
    (h : Informed P l p) (hf : ∀ a l', Informed P (l ++ l') (f a)) : Informed P l (p >>= f) := by
  induction p generalizing l with
  | done r =>
    cases r with
    | ok a =>
      have := hf a []
      rwa [List.append_nil] at this
    | error e => trivial
  | call c k ih =>
    refine ⟨h.1, fun r => ih r (h.2 r) fun a l' => ?_⟩
    rw [List.append_assoc]
    exact hf a _

/-- The answers of the first part are to commands that are known. -/
theorem Informed.bind_only {P' : C → Prop} {l : List (Answer C R ε)} {p : Prog C R ε α}
    {f : α → Prog C R ε β} (h : Informed P l p) (hp : Only P' p)
    (hf : ∀ a l', (∀ x ∈ l', P' x.1) → Informed P (l ++ l') (f a)) : Informed P l (p >>= f) := by
  induction p generalizing l with
  | done r =>
    cases r with
    | ok a =>
      have := hf a [] (fun x hx => by cases hx)
      rwa [List.append_nil] at this
    | error e => trivial
  | call c k ih =>
    refine ⟨h.1, fun r => ih r (h.2 r) (hp.2 r) fun a l' hl' => ?_⟩
    rw [List.append_assoc]
    refine hf a _ fun x hx => ?_
    rcases List.mem_append.mp hx with hx | hx
    · rw [List.mem_singleton.mp hx]
      exact hp.1
    · exact hl' x hx

theorem Informed.tryCatch {l : List (Answer C R ε)} {p : Prog C R ε α} {f : ε → Prog C R ε α}
    (h : Informed P l p) (hf : ∀ e l', Informed P (l ++ l') (f e)) :
    Informed P l (MonadExcept.tryCatch p f) := by
  induction p generalizing l with
  | done r =>
    cases r with
    | ok a => trivial
    | error e =>
      have := hf e []
      rwa [List.append_nil] at this
  | call c k ih =>
    refine ⟨h.1, fun r => ih r (h.2 r) fun e l' => ?_⟩
    rw [List.append_assoc]
    exact hf e _

theorem Informed.ensuring {P' : C → Prop} {l : List (Answer C R ε)} {p : Prog C R ε α}
    {f : Prog C R ε Unit} (h : Informed P l p) (hp : Only P' p)
    (hf : ∀ l', (∀ x ∈ l', P' x.1) → Informed P (l ++ l') f) : Informed P l (p.ensuring f) := by
  induction p generalizing l with
  | done r =>
    have hlast := hf [] (fun x hx => by cases hx)
    rw [List.append_nil] at hlast
    exact hlast.bind fun _ _ => trivial
  | call c k ih =>
    refine ⟨h.1, fun r => ih r (h.2 r) (hp.2 r) fun l' hl' => ?_⟩
    rw [List.append_assoc]
    refine hf _ fun x hx => ?_
    rcases List.mem_append.mp hx with hx | hx
    · rw [List.mem_singleton.mp hx]
      exact hp.1
    · exact hl' x hx

theorem Informed.forM {ι : Type} {f : ι → Prog C R ε PUnit} (hf : ∀ x l, Informed P l (f x))
    (xs : List ι) {l : List (Answer C R ε)} : Informed P l (forM xs f) := by
  induction xs generalizing l with
  | nil => trivial
  | cons x xs ih =>
    rw [List.forM_cons]
    exact (hf x l).bind fun _ _ => ih

/-- The same where each turn rests on something that was known before the loop. -/
theorem informed_forM_mem {ι : Type} {f : ι → Prog C R ε PUnit}
    {I : List (Answer C R ε) → Prop} (hI : ∀ l l', I l → I (l ++ l')) {xs : List ι}
    (hf : ∀ x ∈ xs, ∀ l, I l → Informed P l (f x)) {l : List (Answer C R ε)} (hl : I l) :
    Informed P l (forM xs f) := by
  induction xs generalizing l with
  | nil => trivial
  | cons x xs ih =>
    rw [List.forM_cons]
    refine (hf x List.mem_cons_self l hl).bind fun _ l' => ?_
    exact ih (fun y hy => hf y (List.mem_cons_of_mem x hy)) (hI l l' hl)

theorem Informed.and {Q : List (Answer C R ε) → C → Prop} {l : List (Answer C R ε)}
    {p : Prog C R ε α} (h : Informed P l p) (h' : Informed Q l p) :
    Informed (fun l c => P l c ∧ Q l c) l p := by
  induction p generalizing l with
  | done r => trivial
  | call c k ih => exact ⟨⟨h.1, h'.1⟩, fun r => ih r (h.2 r) (h'.2 r)⟩

/-- A command that is issued only where it was not issued before is issued at most once. -/
theorem Informed.countP_le_one {Q : C → Bool} {D : Prop} [Decidable D] {p q : Prog C R ε α}
    {l : List (Answer C R ε)}
    (hp : Informed (fun l c => Q c = true → D ∧ ∀ a ∈ l, Q a.1 = false) [] p)
    (h : Follows p l q) : l.countP (fun a => Q a.1) ≤ if D then 1 else 0 := by
  induction l using List.reverseRecOn generalizing q with
  | nil => exact Nat.zero_le _
  | append_singleton l a ih =>
    obtain ⟨k, hk⟩ := h.last
    rw [List.countP_append, List.countP_singleton]
    by_cases hQ : Q a.1 = true
    · obtain ⟨hD, hnone⟩ := hp.path hk hQ
      have hzero : l.countP (fun a => Q a.1) = 0 :=
        List.countP_eq_zero.mpr fun b hb => Bool.eq_false_iff.mp (hnone b hb)
      rw [hzero, if_pos hQ, if_pos hD]
    · rw [if_neg hQ, Nat.add_zero]
      exact ih hk

/-- What every command of a program keeps, of the answers and the state, a run of it keeps
whose commands meet `A`. -/
theorem Informed.run_along {S : Type} (exec : (c : C) → S → Except ε (R c) × S)
    {A : C → S → Prop} {I : List (Answer C R ε) → S → Prop}
    (hI : ∀ l c s, P l c → A c s → I l s → I (l ++ [⟨c, (exec c s).1⟩]) (exec c s).2)
    {l : List (Answer C R ε)} {p : Prog C R ε α} (h : Informed P l p) {s : S}
    (ha : Along exec A p s) (hs : I l s) : ∃ l', I l' (p.run exec s).2 := by
  induction p generalizing l s with
  | done r => exact ⟨l, hs⟩
  | call c k ih => exact ih _ (h.2 _) ha.2 (hI l c s h.1 ha.1 hs)

theorem Informed.run {S : Type} (exec : (c : C) → S → Except ε (R c) × S)
    {I : List (Answer C R ε) → S → Prop}
    (hI : ∀ l c s, P l c → I l s → I (l ++ [⟨c, (exec c s).1⟩]) (exec c s).2)
    {l : List (Answer C R ε)} {p : Prog C R ε α} (h : Informed P l p) {s : S} (hs : I l s) :
    ∃ l', I l' (p.run exec s).2 :=
  h.run_along exec (fun l c s hc _ => hI l c s hc) (along_true p s) hs

end Informed

/-! ### What is known when the program ends -/

/-- The program ends with answers and a result that satisfy `Q`, after the answers `l`. -/
def Yields (Q : List (Answer C R ε) → Except ε α → Prop) :
    List (Answer C R ε) → Prog C R ε α → Prop
  | l, done r => Q l r
  | l, call c k => ∀ r, Yields Q (l ++ [⟨c, r⟩]) (k r)

section Yields
variable {Q : List (Answer C R ε) → Except ε α → Prop}

theorem Yields.mono {Q' : List (Answer C R ε) → Except ε α → Prop} (hQ : ∀ l r, Q l r → Q' l r)
    {p : Prog C R ε α} : ∀ {l : List (Answer C R ε)}, Yields Q l p → Yields Q' l p := by
  induction p with
  | done r => exact hQ _ r
  | call c k ih => exact fun h r => ih r (h r)

theorem yields_of (hQ : ∀ l r, Q l r) (p : Prog C R ε α) :
    ∀ {l : List (Answer C R ε)}, Yields Q l p := by
  induction p with
  | done r => exact hQ _ r
  | call c k ih => exact fun r => ih r

/-- What the answers say for good is known at the end as well. -/
theorem Yields.keep {K : List (Answer C R ε) → Prop} (hK : ∀ l a, K l → K (l ++ [a]))
    {p : Prog C R ε α} : ∀ {l : List (Answer C R ε)}, K l → Yields Q l p →
      Yields (fun l r => K l ∧ Q l r) l p := by
  induction p with
  | done r => exact fun hl h => ⟨hl, h⟩
  | call c k ih => exact fun hl h r => ih r (hK _ _ hl) (h r)

theorem Yields.path {l l' : List (Answer C R ε)} {p : Prog C R ε α} {r : Except ε α}
    (hp : Yields Q l p) (h : Follows p l' (done r)) : Q (l ++ l') r := by
  generalize hq : done r = q at h
  induction h generalizing l with
  | refl p =>
    subst hq
    rw [List.append_nil]
    exact hp
  | step a _ ih =>
    have := ih (hp a) hq
    rwa [List.append_assoc] at this

theorem yields_issue_bind {l : List (Answer C R ε)} {c : C} {f : R c → Prog C R ε α}
    (he : ∀ e, Q (l ++ [⟨c, .error e⟩]) (.error e))
    (hf : ∀ a, Yields Q (l ++ [⟨c, .ok a⟩]) (f a)) : Yields Q l (issue c >>= f) := by
  intro r
  cases r with
  | ok a => exact hf a
  | error e => exact he e

/-- A first part of which only the commands are known. -/
theorem Only.yields_bind {P : C → Prop} {p : Prog C R ε β} (h : Only P p)
    {f : β → Prog C R ε α} {l : List (Answer C R ε)} (he : ∀ l e, Q l (.error e))
    (hf : ∀ a l', (∀ x ∈ l', P x.1) → Yields Q (l ++ l') (f a)) : Yields Q l (p >>= f) := by
  induction p generalizing l with
  | done r =>
    cases r with
    | ok a =>
      have := hf a [] (fun x hx => by cases hx)
      rwa [List.append_nil] at this
    | error e => exact he l e
  | call c k ih =>
    refine fun r => ih r (h.2 r) fun a l' hl' => ?_
    rw [List.append_assoc]
    refine hf a _ fun x hx => ?_
    rcases List.mem_append.mp hx with hx | hx
    · rw [List.mem_singleton.mp hx]
      exact h.1
    · exact hl' x hx

theorem Yields.bind {Q' : List (Answer C R ε) → Except ε β → Prop} {p : Prog C R ε β}
    {f : β → Prog C R ε α} {l : List (Answer C R ε)} (h : Yields Q' l p)
    (he : ∀ l e, Q' l (.error e) → Q l (.error e))
    (hf : ∀ a l, Q' l (.ok a) → Yields Q l (f a)) : Yields Q l (p >>= f) := by
  induction p generalizing l with
  | done r =>
    cases r with
    | ok a => exact hf a l h
    | error e => exact he l e h
  | call c k ih => exact fun r => ih r (h r)

theorem Yields.tryCatch {Q' : List (Answer C R ε) → Except ε α → Prop} {p : Prog C R ε α}
    {f : ε → Prog C R ε α} {l : List (Answer C R ε)} (h : Yields Q' l p)
    (ha : ∀ l a, Q' l (.ok a) → Q l (.ok a)) (hf : ∀ e l, Q' l (.error e) → Yields Q l (f e)) :
    Yields Q l (MonadExcept.tryCatch p f) := by
  induction p generalizing l with
  | done r =>
    cases r with
    | ok a => exact ha l a h
    | error e => exact hf e l h
  | call c k ih => exact fun r => ih r (h r)

/-- What the last part brings about after any answers to the commands of the first. -/
theorem Only.yields_ensuring {P : C → Prop} {I : List (Answer C R ε) → Prop} {p : Prog C R ε α}
    {f : Prog C R ε Unit} (h : Only P p) {l : List (Answer C R ε)}
    (hf : ∀ l', (∀ x ∈ l', P x.1) → Yields (fun l _ => I l) (l ++ l') f) :
    Yields (fun l _ => I l) l (p.ensuring f) := by
  induction p generalizing l with
  | done r =>
    have hend := hf [] (fun x hx => by cases hx)
    rw [List.append_nil] at hend
    exact hend.bind (fun _ _ h => h) fun _ _ h => h
  | call c k ih =>
    refine fun r => ih r (h.2 r) fun l' hl' => ?_
    rw [List.append_assoc]
    refine hf _ fun x hx => ?_
    rcases List.mem_append.mp hx with hx | hx
    · rw [List.mem_singleton.mp hx]
      exact h.1
    · exact hl' x hx

/-- What each of the commands keeps holds at the end. -/
theorem Only.yields {P : C → Prop} {I : List (Answer C R ε) → Prop} {p : Prog C R ε α}
    (h : Only P p) (hI : ∀ l a, P a.1 → I l → I (l ++ [a])) {l : List (Answer C R ε)}
    (hl : I l) : Yields (fun l _ => I l) l p := by
  induction p generalizing l with
  | done r => exact hl
  | call c k ih => exact fun r => ih r (h.2 r) (hI l ⟨c, r⟩ h.1 hl)

theorem Yields.and {Q' : List (Answer C R ε) → Except ε α → Prop} {l : List (Answer C R ε)}
    {p : Prog C R ε α} (h : Yields Q l p) (h' : Yields Q' l p) :
    Yields (fun l r => Q l r ∧ Q' l r) l p := by
  induction p generalizing l with
  | done r => exact ⟨h, h'⟩
  | call c k ih => exact fun r => ih r (h r) (h' r)

/-- What follows a program may know what its end says. -/
theorem Informed.bind_yields {P : List (Answer C R ε) → C → Prop} {l : List (Answer C R ε)}
    {p : Prog C R ε α} {f : α → Prog C R ε β} (h : Informed P l p) (hq : Yields Q l p)
    (hf : ∀ a l', Q (l ++ l') (.ok a) → Informed P (l ++ l') (f a)) :
    Informed P l (p >>= f) := by
  induction p generalizing l with
  | done r =>
    cases r with
    | ok a =>
      have hend := hf a []
      rw [List.append_nil] at hend
      exact hend hq
    | error e => trivial
  | call c k ih =>
    refine ⟨h.1, fun r => ih r (h.2 r) (hq r) fun a l' ha => ?_⟩
    rw [List.append_assoc] at ha ⊢
    exact hf a _ ha

end Yields

/-! ### Errors that end the program -/

/-- An error of a command with `P` is the program's own. -/
def Uncaught (P : C → Prop) : Prog C R ε α → Prop
  | done _ => True
  | call c k => (P c → ∀ e, k (.error e) = done (.error e)) ∧ ∀ r, Uncaught P (k r)

section Uncaught
variable {P : C → Prop}

theorem uncaught_issue_bind {c : C} {f : R c → Prog C R ε α} (hf : ∀ a, Uncaught P (f a)) :
    Uncaught P (issue c >>= f) := by
  refine ⟨fun _ e => rfl, fun r => ?_⟩
  cases r with
  | ok a => exact hf a
  | error e => trivial

theorem Uncaught.bind {p : Prog C R ε α} {f : α → Prog C R ε β} (h : Uncaught P p)
    (hf : ∀ a, Uncaught P (f a)) : Uncaught P (p >>= f) := by
  induction p with
  | done r =>
    cases r with
    | ok a => exact hf a
    | error e => trivial
  | call c k ih =>
    refine ⟨fun hc e => ?_, fun r => ih r (h.2 r)⟩
    change k (.error e) >>= f = _
    rw [h.1 hc e]
    rfl

theorem Only.uncaught {p : Prog C R ε α} (h : Only (fun c => ¬ P c) p) : Uncaught P p := by
  induction p with
  | done r => trivial
  | call c k ih => exact ⟨fun hc => absurd hc h.1, fun r => ih r (h.2 r)⟩

theorem Follows.uncaught {p q : Prog C R ε α} {l : List (Answer C R ε)} (h : Follows p l q)
    (hp : Uncaught P p) : Uncaught P q := by
  induction h with
  | refl p => exact hp
  | step r _ ih => exact ih (hp.2 r)

end Uncaught

/-! ### Commands that were added -/

section Left
variable {D : Type} {T : D → Type}

/-- The answers to the commands that were there before others were added. -/
def lefts (l : List (Answer (C ⊕ D) (SumReply R T) ε)) : List (Answer C R ε) :=
  l.filterMap fun a => match a with
    | ⟨.inl c, r⟩ => some ⟨c, r⟩
    | ⟨.inr _, _⟩ => none

theorem lefts_append (l l' : List (Answer (C ⊕ D) (SumReply R T) ε)) :
    lefts (l ++ l') = lefts l ++ lefts l' := List.filterMap_append

theorem mem_lefts {l : List (Answer (C ⊕ D) (SumReply R T) ε)} {c : C} {r : Except ε (R c)} :
    (⟨c, r⟩ : Answer C R ε) ∈ lefts l ↔ ⟨.inl c, r⟩ ∈ l := by
  constructor
  · intro h
    obtain ⟨⟨c' | d, r'⟩, hmem, he⟩ := List.mem_filterMap.mp h
    · cases he
      exact hmem
    · cases he
  · intro h
    exact List.mem_filterMap.mpr ⟨_, h, rfl⟩

theorem lefts_inl (l : List (Answer (C ⊕ D) (SumReply R T) ε)) (c : C) (r : Except ε (R c)) :
    lefts (l ++ [⟨.inl c, r⟩]) = lefts l ++ [⟨c, r⟩] := lefts_append _ _

theorem lefts_inr (l : List (Answer (C ⊕ D) (SumReply R T) ε)) (d : D) (r : Except ε (T d)) :
    lefts (l ++ [⟨.inr d, r⟩]) = lefts l := (lefts_append _ _).trans (List.append_nil _)

/-- A program whose commands may be issued among more commands, where `I` was known. -/
theorem Informed.left {P : List (Answer (C ⊕ D) (SumReply R T) ε) → C ⊕ D → Prop}
    {I : List (Answer (C ⊕ D) (SumReply R T) ε) → Prop}
    (hI : ∀ l c r, I l → I (l ++ [⟨.inl c, r⟩])) {p : Prog C R ε α}
    {l : List (Answer (C ⊕ D) (SumReply R T) ε)}
    (h : Informed (fun l c => ∀ l', lefts l' = l → I l' → P l' (.inl c)) (lefts l) p) (hl : I l) :
    Informed P l (Prog.left p : Prog (C ⊕ D) (SumReply R T) ε α) := by
  induction p generalizing l with
  | done r => trivial
  | call c k ih =>
    refine ⟨h.1 l rfl hl, fun r => ih r ?_ (hI l c r hl)⟩
    rw [lefts_inl]
    exact h.2 r

/-- What is known of a program is known of it among more commands. -/
theorem Informed.left_bind {P : List (Answer C R ε) → C → Prop}
    {P' : List (Answer (C ⊕ D) (SumReply R T) ε) → C ⊕ D → Prop}
    {I : List (Answer (C ⊕ D) (SumReply R T) ε) → Prop}
    (hI : ∀ l c r, I l → I (l ++ [⟨.inl c, r⟩])) (hP : ∀ l c, I l → P (lefts l) c → P' l (.inl c))
    {p : Prog C R ε β} {f : β → Prog (C ⊕ D) (SumReply R T) ε α}
    {l : List (Answer (C ⊕ D) (SumReply R T) ε)} (h : Informed P (lefts l) p) (hl : I l)
    (hf : ∀ a l', I (l ++ l') → Informed P' (l ++ l') (f a)) :
    Informed P' l (p.left >>= f) := by
  induction p generalizing l with
  | done r =>
    cases r with
    | ok a =>
      have hend := hf a []
      rw [List.append_nil] at hend
      exact hend hl
    | error e => trivial
  | call c k ih =>
    refine ⟨hP l c hl h.1, fun r => ih r ?_ (hI l c r hl) fun a l' hl' => ?_⟩
    · rw [lefts_inl]
      exact h.2 r
    · rw [List.append_assoc] at hl' ⊢
      exact hf a _ hl'

theorem Yields.left {Q : List (Answer C R ε) → Except ε α → Prop} {p : Prog C R ε α}
    {l : List (Answer (C ⊕ D) (SumReply R T) ε)} (h : Yields Q (lefts l) p) :
    Yields (fun l r => Q (lefts l) r) l (left p : Prog (C ⊕ D) (SumReply R T) ε α) := by
  induction p generalizing l with
  | done r => exact h
  | call c k ih =>
    refine fun r => ih r ?_
    rw [lefts_inl]
    exact h r

theorem Only.left {P : C → Prop} {P' : C ⊕ D → Prop} (hP : ∀ c, P c → P' (.inl c))
    {p : Prog C R ε α} (h : Only P p) :
    Only P' (left p : Prog (C ⊕ D) (SumReply R T) ε α) := by
  induction p with
  | done r => trivial
  | call c k ih => exact ⟨hP c h.1, fun r => ih r (h.2 r)⟩

end Left

end Prog

end MovieReservation.Lib
