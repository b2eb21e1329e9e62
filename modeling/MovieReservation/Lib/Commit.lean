import MovieReservation.Lib.Path

/-! Programs with one statement. They look around and give up, or they carry out their
statement and tidy up: the error of the statement is theirs, and behind it nothing fails. -/

namespace MovieReservation.Lib.Prog

variable {C : Type} {R : C → Type} {ε α β : Type}

/-- Commands with `tidy` only, and a result whatever they are answered. -/
def Tidies (tidy : C → Prop) : Prog C R ε α → Prop
  | done r => ∃ a, r = .ok a
  | call c k => tidy c ∧ ∀ r, Tidies tidy (k r)

/-- Commands with `look`, until the program gives up or issues one with `statement`. -/
def Commits (look statement tidy : C → Prop) : Prog C R ε α → Prop
  | done r => ∃ e, r = .error e
  | call c k => (look c ∧ ∀ r, Commits look statement tidy (k r)) ∨
    statement c ∧ (∀ e, k (.error e) = done (.error e)) ∧ ∀ a, Tidies tidy (k (.ok a))

section Rules
variable {look statement tidy : C → Prop} {p : Prog C R ε α} {f : α → Prog C R ε β}

theorem Tidies.bind (h : Tidies tidy p) (hf : ∀ a, Tidies tidy (f a)) :
    Tidies tidy (p >>= f) := by
  induction p with
  | done r =>
    obtain ⟨a, rfl⟩ := h
    exact hf a
  | call c k ih => exact ⟨h.1, fun r => ih r (h.2 r)⟩

/-- Errors that are handled. -/
theorem Tidies.tryCatch {f : ε → Prog C R ε α} (h : Only tidy p)
    (hf : ∀ e, Tidies tidy (f e)) : Tidies tidy (MonadExcept.tryCatch p f) := by
  induction p with
  | done r =>
    cases r with
    | ok a => exact ⟨a, rfl⟩
    | error e => exact hf e
  | call c k ih => exact ⟨h.1, fun r => ih r (h.2 r)⟩

theorem Tidies.only (h : Tidies tidy p) : Only tidy p := by
  induction p with
  | done r => trivial
  | call c k ih => exact ⟨h.1, fun r => ih r (h.2 r)⟩

theorem Commits.bind (h : Commits look statement tidy p) (hf : ∀ a, Tidies tidy (f a)) :
    Commits look statement tidy (p >>= f) := by
  induction p with
  | done r =>
    obtain ⟨e, rfl⟩ := h
    exact ⟨e, rfl⟩
  | call c k ih =>
    rcases h with ⟨hlook, h⟩ | ⟨hstatement, herror, h⟩
    · exact .inl ⟨hlook, fun r => ih r (h r)⟩
    · refine .inr ⟨hstatement, fun e => ?_, fun a => (h a).bind hf⟩
      change k (.error e) >>= f = _
      rw [herror]
      rfl

theorem Commits.of_look (h : Only look p) (hf : ∀ a, Commits look statement tidy (f a)) :
    Commits look statement tidy (p >>= f) := by
  induction p with
  | done r =>
    cases r with
    | ok a => exact hf a
    | error e => exact ⟨e, rfl⟩
  | call c k ih => exact .inl ⟨h.1, fun r => ih r (h.2 r)⟩

theorem commits_issue {c : C} (h : statement c) :
    Commits look statement tidy (issue c : Prog C R ε (R c)) :=
  .inr ⟨h, fun _ => rfl, fun a => ⟨a, rfl⟩⟩

theorem Commits.only (h : Commits look statement tidy p) :
    Only (fun c => look c ∨ statement c ∨ tidy c) p := by
  induction p with
  | done r => trivial
  | call c k ih =>
    rcases h with ⟨hlook, h⟩ | ⟨hstatement, herror, h⟩
    · exact ⟨.inl hlook, fun r => ih r (h r)⟩
    · refine ⟨.inr (.inl hstatement), fun r => ?_⟩
      cases r with
      | ok a => exact (h a).only.mono fun _ hc => .inr (.inr hc)
      | error e =>
        rw [herror]
        trivial

end Rules

/-! ### How far it came -/

section Paths
variable {look statement tidy P : C → Prop} [DecidablePred P] {p q : Prog C R ε α}
  {l : List (Answer C R ε)}

theorem Follows.tidies (h : Follows p l q) (hp : Tidies tidy p) : Tidies tidy q := by
  induction h with
  | refl p => exact hp
  | step r _ ih => exact ih (hp.2 r)

/-- The statement is still to come, or it failed and so did the program, or it was carried out
and the program tidies up. -/
theorem Follows.commits (hlook : ∀ c, look c → ¬ P c) (hstatement : ∀ c, statement c → P c)
    (htidy : ∀ c, tidy c → ¬ P c) (h : Follows p l q) (hp : Commits look statement tidy p) :
    (l.filter (fun a => P a.1) = [] ∧ Commits look statement tidy q) ∨
      (∃ c e, l.filter (fun a => P a.1) = [⟨c, .error e⟩] ∧ q = done (.error e)) ∨
        ∃ c a, l.filter (fun a => P a.1) = [⟨c, .ok a⟩] ∧ Tidies tidy q := by
  induction h with
  | refl p => exact .inl ⟨rfl, hp⟩
  | @step c k r l q hrest ih =>
    rcases hp with ⟨hc, hp⟩ | ⟨hc, herror, hp⟩
    · rw [List.filter_cons_of_neg (by simpa using hlook c hc)]
      exact ih (hp r)
    · rw [List.filter_cons_of_pos (by simpa using hstatement c hc)]
      cases r with
      | error e =>
        rw [herror] at hrest
        obtain ⟨rfl, rfl⟩ := hrest.of_done
        exact .inr (.inl ⟨c, e, rfl, rfl⟩)
      | ok a =>
        have hnone : l.filter (fun a => P a.1) = [] := by
          refine List.filter_eq_nil_iff.mpr fun x hx => ?_
          simpa using htidy x.1 (hrest.only (hp a).only x hx)
        rw [hnone]
        exact .inr (.inr ⟨c, a, rfl, hrest.tidies (hp a)⟩)

end Paths

end MovieReservation.Lib.Prog
