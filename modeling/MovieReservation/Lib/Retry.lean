import MovieReservation.Lib.Path

/-! A program alone, whose commands may fail on their way, and the same program started
over until it returns. A plan says of each command it issues how that command ends. -/

namespace MovieReservation.Lib

variable {C : Type} {R : C → Type} {ε S Op Env α β γ : Type}

/-- Whether the command is carried out. -/
def Outcome.effective : Outcome ε → Bool
  | answered | unacknowledged _ => true
  | lost _ => false

namespace Prog

/-- The commands of an uninterrupted run, in order. -/
def issued (exec : (c : C) → S → Except ε (R c) × S) : Prog C R ε α → S → List C
  | done _, _ => []
  | call c k, s => c :: issued exec (k (exec c s).1) (exec c s).2

theorem issued_bind (exec : (c : C) → S → Except ε (R c) × S) (p : Prog C R ε α)
    (f : α → Prog C R ε β) (s : S) :
    (p >>= f).issued exec s = p.issued exec s ++ match p.run exec s with
      | (.ok a, t) => (f a).issued exec t
      | (.error _, _) => [] := by
  induction p generalizing s with
  | done r => cases r <;> rfl
  | call c k ih => exact congrArg (c :: ·) (ih _ _)

/-- The command is answered, and the program goes on with the answer. -/
theorem issued_issue_bind {exec : (c : C) → S → Except ε (R c) × S} {c : C} {s t : S} {a : R c}
    (h : exec c s = (.ok a, t)) (f : R c → Prog C R ε α) :
    (issue c >>= f).issued exec s = c :: (f a).issued exec t := by
  rw [issued_bind, issue, run_call, h]
  rfl

theorem Only.issued {P : C → Prop} {exec : (c : C) → S → Except ε (R c) × S}
    {p : Prog C R ε α} (h : Only P p) (s : S) : ∀ c ∈ p.issued exec s, P c := by
  induction p generalizing s with
  | done r => simp [Prog.issued]
  | call c k ih =>
    intro d hd
    rcases List.mem_cons.mp hd with rfl | hd
    · exact h.1
    · exact ih _ (h.2 _) _ d hd

end Prog

namespace System

variable (sys : System C R ε S Op Env α) (i : ℕ)

/-- A run under a plan: the commands that were carried out, the result and the state. -/
def attempt : List (Outcome ε) → Prog C R ε β → S → Option (List C × Except ε β × S)
  | [], .done r, s => some ([], r, s)
  | o :: os, .call c k, s => (sys.finish i c s o).bind fun out =>
      (attempt os (k out.1) out.2).map fun x => (if o.effective then c :: x.1 else x.1, x.2)
  | [], .call _ _, _ | _ :: _, .done _, _ => none

/-- The program is started over, each time after some moves of the environment, until it
returns: all commands that were carried out, the result and the state. -/
def retry (p : Prog C R ε β) :
    List (List Env × List (Outcome ε)) → S → Option (List C × β × S)
  | [], _ => none
  | (es, os) :: as, s =>
    match sys.attempt i os p (es.foldl (fun t e => sys.env e t) s) with
    | some (cs, .ok b, t) => if as = [] then some (cs, b, t) else none
    | some (cs, .error _, t) => (retry p as t).map fun x => (cs ++ x.1, x.2)
    | none => none

/-- Attempts that all fail, each after some moves of the environment: where they lead. -/
def failing (p : Prog C R ε β) : List (List Env × List (Outcome ε)) → S → Option S
  | [], s => some s
  | (es, os) :: as, s =>
    match sys.attempt i os p (es.foldl (fun t e => sys.env e t) s) with
    | some (_, .error _, t) => failing p as t
    | _ => none

/-- Their plans, each with the state in which the attempt begins. -/
def begun (p : Prog C R ε β) :
    List (List Env × List (Outcome ε)) → S → List (List (Outcome ε) × S)
  | [], _ => []
  | (es, os) :: as, s =>
    let s' := es.foldl (fun t e => sys.env e t) s
    (os, s') :: match sys.attempt i os p s' with
      | some (_, _, t) => begun p as t
      | none => []

/-- How the first command of a program ends, and the rest of its plan. -/
inductive Attempted (c : C) (f : R c → Prog C R ε β) (s : S) :
    List (Outcome ε) → List C → Except ε β → S → Prop
  | answered {a : R c} {t t' : S} {os : List (Outcome ε)} {cs : List C} {r : Except ε β} :
    sys.exec i c s = (.ok a, t) → sys.attempt i os (f a) t = some (cs, r, t') →
    Attempted c f s (.answered :: os) (c :: cs) r t'
  | refused {e : ε} {t : S} : sys.exec i c s = (.error e, t) →
    Attempted c f s [.answered] [c] (.error e) t
  | lost (e : ε) : sys.fault c e = true → Attempted c f s [.lost e] [] (.error e) s
  | unacknowledged (e : ε) : sys.fault c e = true →
    Attempted c f s [.unacknowledged e] [c] (.error e) (sys.exec i c s).2

variable {sys i} {c : C} {s t : S} {os : List (Outcome ε)} {cs : List C} {r : Except ε β}

theorem attempt_done {a : Except ε β} (h : sys.attempt i os (.done a) s = some (cs, r, t)) :
    os = [] ∧ cs = [] ∧ r = a ∧ t = s := by
  cases os with
  | nil =>
    cases h
    exact ⟨rfl, rfl, rfl, rfl⟩
  | cons o os => cases h

theorem attempt_issue_bind {f : R c → Prog C R ε β}
    (h : sys.attempt i os (Prog.issue c >>= f) s = some (cs, r, t)) :
    sys.Attempted i c f s os cs r t := by
  cases os with
  | nil => cases h
  | cons o os =>
    obtain ⟨out, hout, h⟩ := Option.bind_eq_some_iff.mp h
    obtain ⟨⟨ds, r', t'⟩, hx, h⟩ := Option.map_eq_some_iff.mp h
    cases h
    cases o with
    | answered =>
      simp only [finish] at hout
      split_ifs at hout
      cases hout
      obtain ⟨⟨e | a, u⟩, hexec⟩ : ∃ out', sys.exec i c s = out' := ⟨_, rfl⟩
      · rw [hexec] at hx
        obtain ⟨rfl, rfl, rfl, rfl⟩ := attempt_done hx
        exact .refused hexec
      · rw [hexec] at hx
        exact .answered hexec hx
    | lost e =>
      simp only [finish] at hout
      split_ifs at hout with hf
      cases hout
      obtain ⟨rfl, rfl, rfl, rfl⟩ := attempt_done hx
      exact .lost e hf
    | unacknowledged e =>
      simp only [finish, Bool.and_eq_true] at hout
      split_ifs at hout with hf
      cases hout
      obtain ⟨rfl, rfl, rfl, rfl⟩ := attempt_done hx
      exact .unacknowledged e hf.2

/-- No command is carried out that the program cannot issue. -/
theorem attempt_only {P : C → Prop} {p : Prog C R ε β} (hp : p.Only P) :
    ∀ {os : List (Outcome ε)} {cs : List C} {s : S}, sys.attempt i os p s = some (cs, r, t) →
      ∀ d ∈ cs, P d := by
  induction p with
  | done a =>
    intro os cs s h d hd
    obtain ⟨-, rfl, -, -⟩ := attempt_done h
    cases hd
  | call c k ih =>
    intro os cs s h d hd
    cases os with
    | nil => cases h
    | cons o os =>
      obtain ⟨out, -, h⟩ := Option.bind_eq_some_iff.mp h
      obtain ⟨⟨ds, r', t'⟩, hx, h⟩ := Option.map_eq_some_iff.mp h
      cases h
      split_ifs at hd
      · rcases List.mem_cons.mp hd with rfl | hd
        · exact hp.1
        · exact ih _ (hp.2 _) hx d hd
      · exact ih _ (hp.2 _) hx d hd

/-- What every command of a program keeps, its attempts keep. -/
theorem attempt_keeps {P : C → Prop} {I : S → Prop}
    (hI : ∀ c s, P c → I s → I (sys.exec i c s).2) {p : Prog C R ε β} (hp : p.Only P) :
    ∀ {os : List (Outcome ε)} {cs : List C} {s : S}, I s →
      sys.attempt i os p s = some (cs, r, t) → I t := by
  induction p with
  | done a =>
    intro os cs s hs h
    obtain ⟨-, -, -, rfl⟩ := attempt_done h
    exact hs
  | call c k ih =>
    intro os cs s hs h
    cases os with
    | nil => cases h
    | cons o os =>
      obtain ⟨out, hout, h⟩ := Option.bind_eq_some_iff.mp h
      obtain ⟨⟨ds, r', t'⟩, hx, h⟩ := Option.map_eq_some_iff.mp h
      cases h
      have hkeep : I out.2 := by
        cases o with
        | answered | lost e | unacknowledged e =>
          simp only [finish] at hout
          split_ifs at hout
          cases hout
          first | exact hI c s hp.1 hs | exact hs
      exact ih _ (hp.2 _) hkeep hx

/-- The rule for an invariant of the answers and the state of an attempt. -/
theorem attempt_rule {P : List (Answer C R ε) → C → Prop}
    {Q : List (Answer C R ε) → Except ε β → Prop} {I : List (Answer C R ε) → S → Prop}
    (hI : ∀ l c s o out, P l c → I l s → sys.finish i c s o = some out →
      I (l ++ [⟨c, out.1⟩]) out.2) {p : Prog C R ε β} :
    ∀ {l : List (Answer C R ε)} {os : List (Outcome ε)} {cs : List C} {s : S},
      p.Informed P l → p.Yields Q l → I l s → sys.attempt i os p s = some (cs, r, t) →
        ∃ l', I l' t ∧ Q l' r := by
  induction p with
  | done a =>
    intro l os cs s _ hq hl h
    obtain ⟨-, -, rfl, rfl⟩ := attempt_done h
    exact ⟨l, hl, hq⟩
  | call c k ih =>
    intro l os cs s hp hq hl h
    cases os with
    | nil => cases h
    | cons o os =>
      obtain ⟨out, hout, h⟩ := Option.bind_eq_some_iff.mp h
      obtain ⟨⟨ds, r', t'⟩, hx, h⟩ := Option.map_eq_some_iff.mp h
      cases h
      exact ih _ (hp.2 _) (hq _) (hI l c s o out hp.1 hl hout) hx

/-- An uninterrupted run is an attempt under the plan that loses nothing. -/
theorem attempt_answered (sys : System C R ε S Op Env α) (hr : ∀ c s, sys.ready i c s = true)
    (p : Prog C R ε β) (s : S) :
    ∃ n, sys.attempt i (List.replicate n .answered) p s =
      some (p.issued (sys.exec i) s, p.run (sys.exec i) s) := by
  induction p generalizing s with
  | done a => exact ⟨0, rfl⟩
  | call c k ih =>
    obtain ⟨n, hn⟩ := ih (sys.exec i c s).1 (sys.exec i c s).2
    refine ⟨n + 1, ?_⟩
    simp only [List.replicate_succ, attempt, finish, hr, if_true, Option.bind_some, hn,
      Option.map_some, Outcome.effective, Prog.issued, Prog.run_call]

section Rule
variable {p : Prog C R ε β} {I : List (List (Outcome ε) × S) → List C → S → Prop}
  {Q : List (List (Outcome ε) × S) → List C → β → S → Prop}

theorem retry_from (henv : ∀ ps cs s e, I ps cs s → I ps cs (sys.env e s))
    (herror : ∀ ps cs s os ds e t, I ps cs s → sys.attempt i os p s = some (ds, .error e, t) →
      I (ps ++ [(os, s)]) (cs ++ ds) t)
    (hok : ∀ ps cs s os ds b t, I ps cs s → sys.attempt i os p s = some (ds, .ok b, t) →
      Q (ps ++ [(os, s)]) (cs ++ ds) b t) :
    ∀ (as : List (List Env × List (Outcome ε))) {ps : List (List (Outcome ε) × S)}
      {cs ds : List C} {s t : S} {b : β}, I ps cs s → sys.retry i p as s = some (ds, b, t) →
      Q (ps ++ sys.begun i p as s) (cs ++ ds) b t
  | [], _, _, _, _, _, _, _, h => by cases h
  | (es, os) :: as, ps, cs, ds, s, t, b, hI, h => by
    have hstart : I ps cs (es.foldl (fun t e => sys.env e t) s) := by
      clear h
      induction es generalizing s with
      | nil => exact hI
      | cons e es ih => exact ih _ (henv _ _ _ _ hI)
    unfold retry at h
    split at h
    · rename_i cs' b' t' hatt
      split_ifs at h with hlast
      cases h
      simp only [begun, hatt, hlast]
      exact hok _ _ _ _ _ _ _ hstart hatt
    · rename_i cs' e t' hatt
      obtain ⟨⟨ds', b', t''⟩, hx, h⟩ := Option.map_eq_some_iff.mp h
      cases h
      have hnext := retry_from henv herror hok as (herror _ _ _ _ _ _ _ hstart hatt) hx
      simp only [begun, hatt]
      simpa [List.append_assoc] using hnext
    · cases h

/-- What each attempt keeps and the environment does not disturb leads to the end. -/
theorem retry_rule (henv : ∀ ps cs s e, I ps cs s → I ps cs (sys.env e s))
    (herror : ∀ ps cs s os ds e t, I ps cs s → sys.attempt i os p s = some (ds, .error e, t) →
      I (ps ++ [(os, s)]) (cs ++ ds) t)
    (hok : ∀ ps cs s os ds b t, I ps cs s → sys.attempt i os p s = some (ds, .ok b, t) →
      Q (ps ++ [(os, s)]) (cs ++ ds) b t)
    {as : List (List Env × List (Outcome ε))} {b : β} (hs : I [] [] s)
    (h : sys.retry i p as s = some (cs, b, t)) : Q (sys.begun i p as s) cs b t := by
  have hend := retry_from henv herror hok as hs h
  simpa using hend

end Rule

section Failing
variable {p : Prog C R ε β} {I W : S → Prop} {B : List (Outcome ε) → S → Prop}

/-- What each move of the environment keeps, all of them keep. -/
theorem env_keeps (sys : System C R ε S Op Env α) (henv : ∀ s e, I s → I (sys.env e s))
    (es : List Env) {s : S} (hs : I s) :
    I (es.foldl (fun t e => sys.env e t) s) := by
  induction es generalizing s with
  | nil => exact hs
  | cons e es ih => exact ih (henv s e hs)

/-- Under an invariant, damage is done exactly by the attempts that have the means. -/
theorem failing_rule (henv : ∀ s e, I s → I (sys.env e s) ∧ (W (sys.env e s) ↔ W s))
    (hstep : ∀ s os cs e t, I s → sys.attempt i os p s = some (cs, .error e, t) →
      I t ∧ (W t ↔ W s ∨ B os s)) :
    ∀ {as : List (List Env × List (Outcome ε))} {s t : S}, I s → sys.failing i p as s = some t →
      I t ∧ (W t ↔ W s ∨ ∃ x ∈ sys.begun i p as s, B x.1 x.2) := by
  intro as
  induction as with
  | nil =>
    intro s t hs h
    cases h
    simpa [begun] using hs
  | cons a as ih =>
    obtain ⟨es, os⟩ := a
    intro s t hs h
    have hstart : I (es.foldl (fun t e => sys.env e t) s) ∧
        (W (es.foldl (fun t e => sys.env e t) s) ↔ W s) := by
      refine env_keeps sys (I := fun u => I u ∧ (W u ↔ W s)) ?_ es ⟨hs, Iff.rfl⟩
      rintro u e ⟨hu, hw⟩
      exact ⟨(henv u e hu).1, (henv u e hu).2.trans hw⟩
    unfold failing at h
    split at h
    · rename_i cs e u hatt
      obtain ⟨hu, hstepW⟩ := hstep _ _ _ _ _ hstart.1 hatt
      obtain ⟨ht, hrest⟩ := ih hu h
      refine ⟨ht, ?_⟩
      rw [hrest, hstepW, hstart.2]
      simp only [begun, hatt, List.exists_mem_cons_iff]
      tauto
    · cases h

end Failing

/-! ### Requests one at a time -/

/-- A request with how each of its commands ends, or a move of the environment. -/
abbrev Submission (ε Op Env : Type) := (Op × List (Outcome ε)) ⊕ Env

section Serve
variable (sys)

def serve : Submission ε Op Env → S → Option S
  | .inl (op, os), s => (sys.attempt 0 os (sys.handler op) s).map fun x => x.2.2
  | .inr e, s => some (sys.env e s)

def serveAll (xs : List (Submission ε Op Env)) (s : S) : Option S :=
  xs.foldlM (fun t x => sys.serve x t) s

variable {sys} {I : S → Prop}

/-- What every request keeps, wherever its commands fail, and every move of the
environment. -/
theorem serveAll_keeps (henv : ∀ e s, I s → I (sys.env e s))
    (hop : ∀ op os s cs a t, I s → sys.attempt 0 os (sys.handler op) s = some (cs, a, t) → I t) :
    ∀ {xs : List (Submission ε Op Env)} {s t : S}, I s → sys.serveAll xs s = some t → I t
  | [], s, t, hs, h => by
    cases h
    exact hs
  | x :: xs, s, t, hs, h => by
    obtain ⟨m, hm, h⟩ := Option.bind_eq_some_iff.mp h
    refine serveAll_keeps henv hop ?_ h
    rcases x with ⟨op, os⟩ | e
    · obtain ⟨⟨cs, a, u⟩, ha, rfl⟩ := Option.map_eq_some_iff.mp hm
      exact hop op os s cs a u hs ha
    · cases hm
      exact henv e s hs

end Serve

end System

end MovieReservation.Lib
