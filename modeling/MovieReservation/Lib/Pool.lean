import MovieReservation.Lib.Prog

/-! Programs run side by side over one state, one command at a time in any order,
with commands that block, commands that fail before or after they took effect, and
moves of the environment. The rule for it is rely-guarantee: an invariant of the
shared state, for each process a relation that the moves of all others keep, and a
proof for each program alone. A condition on the issued commands may be assumed. -/

namespace MovieReservation.Lib

/-- How an issued command ends: answered, failed without effect, or carried out
with its answer lost. -/
inductive Outcome (ε : Type) where
  | answered
  | lost (e : ε)
  | unacknowledged (e : ε)

structure System (C : Type) (R : C → Type) (ε S Op Env α : Type) where
  exec : ℕ → (c : C) → S → Except ε (R c) × S
  /-- Whether the command can be carried out now; otherwise its process waits. -/
  ready : ℕ → C → S → Bool
  /-- The errors by which a command can fail on its way. -/
  fault : C → ε → Bool
  env : Env → S → S
  handler : Op → Prog C R ε α

/-- The scheduler's choices. -/
inductive Choice (ε Op Env : Type) where
  | spawn (op : Op)
  | step (i : ℕ) (o : Outcome ε)
  | env (e : Env)

structure Pool (C : Type) (R : C → Type) (ε S Op α : Type) where
  state : S
  procs : List (Op × Prog C R ε α)

namespace System

variable {C : Type} {R : C → Type} {ε S Op Env α β : Type} (sys : System C R ε S Op Env α)

/-! ### Schedules -/

def finish (i : ℕ) (c : C) (s : S) : Outcome ε → Option (Except ε (R c) × S)
  | .answered => if sys.ready i c s then some (sys.exec i c s) else none
  | .lost e => if sys.fault c e then some (.error e, s) else none
  | .unacknowledged e =>
    if sys.ready i c s && sys.fault c e then some (.error e, (sys.exec i c s).2) else none

def act : Choice ε Op Env → Pool C R ε S Op α → Option (Pool C R ε S Op α)
  | .spawn op, p => some ⟨p.state, p.procs ++ [(op, sys.handler op)]⟩
  | .env e, p => some ⟨sys.env e p.state, p.procs⟩
  | .step i o, p => match p.procs[i]? with
    | some (op, .call c k) => (sys.finish i c p.state o).map fun out =>
        ⟨out.2, p.procs.set i (op, k out.1)⟩
    | _ => none

def schedule : List (Choice ε Op Env) → Pool C R ε S Op α → Option (Pool C R ε S Op α)
  | [], p => some p
  | x :: xs, p => (sys.act x p).bind (schedule xs)

theorem schedule_append (xs ys : List (Choice ε Op Env)) (p : Pool C R ε S Op α) :
    sys.schedule (xs ++ ys) p = (sys.schedule xs p).bind (sys.schedule ys) := by
  induction xs generalizing p with
  | nil => rfl
  | cons x xs ih =>
    simp only [List.cons_append, schedule, Option.bind_assoc]
    congr 1
    funext q
    exact ih q

/-- `n` steps of process `i` with nothing in between and nothing lost. -/
def solo (i n : ℕ) : List (Choice ε Op Env) := List.replicate n (.step i .answered)

/-- `A` holds of the command that process `i` is about to issue. -/
def Issues (A : ℕ → Op → C → S → Prop) (i : ℕ) (p : Pool C R ε S Op α) : Prop :=
  match p.procs[i]? with
  | some (op, .call c _) => A i op c p.state
  | _ => True

/-- `A` holds of the command this choice carries out, if it carries one out. -/
def Meets (A : ℕ → Op → C → S → Prop) : Choice ε Op Env → Pool C R ε S Op α → Prop
  | .spawn _, _ | .env _, _ | .step _ (.lost _), _ => True
  | .step i _, p => Issues A i p

/-- Every command carried out in the schedule meets `A`. -/
def AllMeet (A : ℕ → Op → C → S → Prop) : List (Choice ε Op Env) → Pool C R ε S Op α → Prop
  | [], _ => True
  | x :: xs, p => Meets A x p ∧ match sys.act x p with
    | some q => AllMeet A xs q
    | none => True

theorem allMeet_append {A : ℕ → Op → C → S → Prop} (ys : List (Choice ε Op Env)) :
    ∀ (xs : List (Choice ε Op Env)) {p q : Pool C R ε S Op α}, sys.schedule xs p = some q →
      (sys.AllMeet A (xs ++ ys) p ↔ sys.AllMeet A xs p ∧ sys.AllMeet A ys q)
  | [], p, q, h => by
    simp only [schedule, Option.some.injEq] at h
    simp only [List.nil_append, AllMeet, true_and, h]
  | x :: xs, p, q, h => by
    obtain ⟨m, hm, hmq⟩ := Option.bind_eq_some_iff.mp h
    simp only [List.cons_append, AllMeet, hm, allMeet_append ys xs hmq, and_assoc]

/-- A condition that always holds asks nothing of a schedule. -/
theorem allMeet_of_forall {A : ℕ → Op → C → S → Prop} (hA : ∀ i op c s, A i op c s) :
    ∀ (xs : List (Choice ε Op Env)) (p : Pool C R ε S Op α), sys.AllMeet A xs p
  | [], _ => trivial
  | x :: xs, p => by
    have hissues : ∀ i, Issues A i p := by
      intro i
      unfold Issues
      split
      · exact hA _ _ _ _
      · trivial
    have hmeets : Meets A x p := by
      cases x with
      | spawn _ => trivial
      | env _ => trivial
      | step i o => cases o <;> first | trivial | exact hissues i
    refine ⟨hmeets, ?_⟩
    cases sys.act x p with
    | none => trivial
    | some q => exact allMeet_of_forall hA xs q

section Decidable
variable (A : ℕ → Op → C → S → Prop) [∀ i op c s, Decidable (A i op c s)]

instance decidableIssues (i : ℕ) (p : Pool C R ε S Op α) : Decidable (Issues A i p) :=
  match h : p.procs[i]? with
  | some (op, .call c _) => decidable_of_iff (A i op c p.state) (by simp [Issues, h])
  | some (_, .done _) => .isTrue (by simp [Issues, h])
  | none => .isTrue (by simp [Issues, h])

instance decidableMeets : ∀ (x : Choice ε Op Env) (p : Pool C R ε S Op α), Decidable (Meets A x p)
  | .spawn _, _ | .env _, _ | .step _ (.lost _), _ => .isTrue trivial
  | .step i .answered, p | .step i (.unacknowledged _), p => decidableIssues A i p

instance decidableAllMeet :
    ∀ (xs : List (Choice ε Op Env)) (p : Pool C R ε S Op α), Decidable (sys.AllMeet A xs p)
  | [], _ => inferInstanceAs (Decidable True)
  | x :: xs, p =>
    have : Decidable (match sys.act x p with
        | some q => sys.AllMeet A xs q
        | none => True) :=
      match sys.act x p with
      | some q => decidableAllMeet xs q
      | none => inferInstanceAs (Decidable True)
    inferInstanceAs (Decidable (Meets A x p ∧ _))

end Decidable

/-- A process keeps its place and its operation. -/
theorem schedule_op {i : ℕ} {op : Op} :
    ∀ (xs : List (Choice ε Op Env)) {p p' : Pool C R ε S Op α} {q : Prog C R ε α},
      p.procs[i]? = some (op, q) → sys.schedule xs p = some p' →
        ∃ q', p'.procs[i]? = some (op, q')
  | [], p, p', q, hi, hx => by
    cases hx
    exact ⟨q, hi⟩
  | x :: xs, p, p', q, hi, hx => by
    obtain ⟨m, hm, hx⟩ := Option.bind_eq_some_iff.mp hx
    have hlt : i < p.procs.length := (List.getElem?_eq_some_iff.mp hi).1
    have hkept : ∃ q', m.procs[i]? = some (op, q') := by
      cases x with
      | spawn _ =>
        cases hm
        exact ⟨q, (List.getElem?_append_left hlt).trans hi⟩
      | env _ =>
        cases hm
        exact ⟨q, hi⟩
      | step j o =>
        simp only [act] at hm
        split at hm
        case h_2 => cases hm
        case h_1 op' c k hj =>
          obtain ⟨out, -, rfl⟩ := Option.map_eq_some_iff.mp hm
          by_cases hij : j = i
          · subst hij
            cases hi.symm.trans hj
            exact ⟨k out.1, by simp [hlt]⟩
          · exact ⟨q, (List.getElem?_set_ne hij).trans hi⟩
    obtain ⟨q', hq'⟩ := hkept
    exact schedule_op xs hq' hx

/-- No process is in the middle of its program. -/
def Quiescent (p : Pool C R ε S Op α) : Prop := ∀ x ∈ p.procs, x.2.finished

instance (p : Pool C R ε S Op α) : Decidable (Quiescent p) :=
  inferInstanceAs (Decidable (∀ x ∈ p.procs, x.2.finished))

/-- A process scheduled without interruption does what `Prog.run` does. -/
theorem schedule_alone (i : ℕ) (hr : ∀ c s, sys.ready i c s = true) (op : Op) (p : Prog C R ε α)
    (s : S) (ps : List (Op × Prog C R ε α)) (hi : ps[i]? = some (op, p)) :
    ∃ n, sys.schedule (solo i n) ⟨s, ps⟩ =
      some ⟨(p.run (sys.exec i) s).2, ps.set i (op, .done (p.run (sys.exec i) s).1)⟩ := by
  induction p generalizing s ps with
  | done r =>
    refine ⟨0, ?_⟩
    have hlt := (List.getElem?_eq_some_iff.mp hi).1
    have hget := (List.getElem?_eq_some_iff.mp hi).2
    simp only [solo, List.replicate_zero, schedule, Prog.run_done, ← hget, List.set_getElem_self]
  | call c k ih =>
    have hlt := (List.getElem?_eq_some_iff.mp hi).1
    obtain ⟨n, hn⟩ := ih (sys.exec i c s).1 (sys.exec i c s).2
      (ps.set i (op, k (sys.exec i c s).1)) (by simp [hlt])
    refine ⟨n + 1, ?_⟩
    simp only [solo] at hn ⊢
    simp only [List.replicate_succ, schedule, act, hi, finish, hr, if_true, Option.map_some,
      Option.bind_some, hn, Prog.run_call, List.set_set]

/-! ### Invariants of single commands -/

/-- Every process can issue no more than its request allows. -/
def Within (P : Op → C → Prop) (p : Pool C R ε S Op α) : Prop :=
  ∀ x ∈ p.procs, Prog.Only (P x.1) x.2

theorem within_empty (P : Op → C → Prop) (s : S) :
    Within P (⟨s, []⟩ : Pool C R ε S Op α) := by
  intro x hx
  cases hx

section Within
variable {P : Op → C → Prop} {A : ℕ → Op → C → S → Prop} {I : S → Prop}
  {p q : Pool C R ε S Op α} {sys : System C R ε S Op Env α}

theorem Within.set (h : Within P p) {i : ℕ} {op : Op} {k : Prog C R ε α} (hk : Prog.Only (P op) k)
    (s : S) :
    Within P ⟨s, p.procs.set i (op, k)⟩ := by
  intro x hx
  rcases List.mem_or_eq_of_mem_set hx with hx | rfl
  · exact h x hx
  · exact hk

/-- What a choice does: nothing to the state, an environment's move, or a command that
a process may issue and that meets the condition. -/
theorem Within.act (hspawn : ∀ op, Prog.Only (P op) (sys.handler op)) (h : Within P p)
    {x : Choice ε Op Env} (hx : sys.act x p = some q) (ha : Meets A x p) :
    Within P q ∧ (q.state = p.state ∨ (∃ e, q.state = sys.env e p.state) ∨
      ∃ i op c, P op c ∧ A i op c p.state ∧ q.state = (sys.exec i c p.state).2) := by
  cases x with
  | spawn op =>
    simp only [System.act, Option.some.injEq] at hx
    subst hx
    refine ⟨fun x hx => ?_, .inl rfl⟩
    rcases List.mem_append.mp hx with hx | hx
    · exact h x hx
    · rw [List.mem_singleton.mp hx]
      exact hspawn op
  | env e =>
    simp only [System.act, Option.some.injEq] at hx
    subst hx
    exact ⟨h, .inr (.inl ⟨e, rfl⟩)⟩
  | step i o =>
    simp only [System.act] at hx
    split at hx
    case h_2 => cases hx
    case h_1 op c k hi =>
      obtain ⟨out, hout, rfl⟩ := Option.map_eq_some_iff.mp hx
      have hc : Prog.Only (P op) (.call c k) := h _ (List.mem_of_getElem? hi)
      refine ⟨h.set (hc.2 _) _, ?_⟩
      cases o with
      | answered =>
        simp only [finish] at hout
        split_ifs at hout
        cases hout
        simp only [Meets, Issues, hi] at ha
        exact .inr (.inr ⟨i, op, c, hc.1, ha, rfl⟩)
      | lost e =>
        simp only [finish] at hout
        split_ifs at hout
        cases hout
        exact .inl rfl
      | unacknowledged e =>
        simp only [finish] at hout
        split_ifs at hout
        cases hout
        simp only [Meets, Issues, hi] at ha
        exact .inr (.inr ⟨i, op, c, hc.1, ha, rfl⟩)

theorem Within.schedule (hspawn : ∀ op, Prog.Only (P op) (sys.handler op)) :
    ∀ (xs : List (Choice ε Op Env)) {p q : Pool C R ε S Op α}, Within P p →
      sys.schedule xs p = some q → Within P q
  | [], p, q, h, hx => by
    simp only [System.schedule, Option.some.injEq] at hx
    exact hx ▸ h
  | x :: xs, p, q, h, hx => by
    obtain ⟨m, hm, hmq⟩ := Option.bind_eq_some_iff.mp hx
    have hmeet : Meets (fun _ _ _ _ => True) x p :=
      (sys.allMeet_of_forall (A := fun _ _ _ _ => True) (fun _ _ _ _ => trivial) [x] p).1
    exact Within.schedule hspawn xs (h.act hspawn hm hmeet).1 hmq

/-- What every command that meets the condition keeps, a schedule of such commands keeps. -/
theorem Within.keeps (hspawn : ∀ op, Prog.Only (P op) (sys.handler op))
    (henv : ∀ e s, I s → I (sys.env e s))
    (hstep : ∀ i op c s, P op c → A i op c s → I s → I (sys.exec i c s).2) :
    ∀ (xs : List (Choice ε Op Env)) {p q : Pool C R ε S Op α}, Within P p → I p.state →
      sys.schedule xs p = some q → sys.AllMeet A xs p → I q.state
  | [], p, q, _, hI, hx, _ => by
    simp only [System.schedule, Option.some.injEq] at hx
    exact hx ▸ hI
  | x :: xs, p, q, h, hI, hx, ha => by
    obtain ⟨m, hm, hmq⟩ := Option.bind_eq_some_iff.mp hx
    have ha' : sys.AllMeet A xs m := by
      have := ha.2
      rwa [hm] at this
    obtain ⟨hwithin, hstate⟩ := h.act hspawn hm ha.1
    refine Within.keeps hspawn henv hstep xs hwithin ?_ hmq ha'
    rcases hstate with hs | ⟨e, hs⟩ | ⟨i, op, c, hc, hA, hs⟩
    · exact hs ▸ hI
    · exact hs ▸ henv e _ hI
    · exact hs ▸ hstep i op c _ hc hA hI

/-- A fact that never comes back once it is lost holds at the end of a schedule exactly
when every command of the schedule kept it. -/
theorem Within.keeps_iff {J : S → Prop} (hspawn : ∀ op, Prog.Only (P op) (sys.handler op))
    (henv : ∀ e s, (J (sys.env e s) ↔ J s) ∧ (I (sys.env e s) ↔ I s))
    (hkeep : ∀ i op c s, P op c → J s → J (sys.exec i c s).2)
    (hlost : ∀ i op c s, P op c → J s → ¬ I s → ¬ I (sys.exec i c s).2)
    (hstep : ∀ i op c s, P op c → J s → I s → (I (sys.exec i c s).2 ↔ A i op c s)) :
    ∀ (xs : List (Choice ε Op Env)) {p q : Pool C R ε S Op α}, Within P p → J p.state →
      I p.state → sys.schedule xs p = some q → (I q.state ↔ sys.AllMeet A xs p)
  | [], p, q, _, _, hI, hx => by
    simp only [System.schedule, Option.some.injEq] at hx
    exact iff_of_true (hx ▸ hI) trivial
  | x :: xs, p, q, h, hJ, hI, hx => by
    obtain ⟨m, hm, hmq⟩ := Option.bind_eq_some_iff.mp hx
    have hall : sys.AllMeet A (x :: xs) p ↔ Meets A x p ∧ sys.AllMeet A xs m := by
      simp only [AllMeet, hm]
    have hmeet : Meets (fun _ _ _ _ => True) x p :=
      (sys.allMeet_of_forall (A := fun _ _ _ _ => True) (fun _ _ _ _ => trivial) [x] p).1
    obtain ⟨hwithin, hmoved⟩ := h.act hspawn hm hmeet
    have hJm : J m.state := by
      rcases hmoved with hs | ⟨e, hs⟩ | ⟨i, op, c, hc, -, hs⟩ <;> rw [hs]
      · exact hJ
      · exact (henv e _).1.mpr hJ
      · exact hkeep i op c _ hc hJ
    have hfirst : I m.state ↔ Meets A x p := by
      cases x with
      | spawn op =>
        simp only [System.act, Option.some.injEq] at hm
        subst hm
        exact iff_of_true hI trivial
      | env e =>
        simp only [System.act, Option.some.injEq] at hm
        subst hm
        exact iff_of_true ((henv e _).2.mpr hI) trivial
      | step i o =>
        simp only [System.act] at hm
        split at hm
        case h_2 => cases hm
        case h_1 op c k hi =>
          obtain ⟨out, hout, rfl⟩ := Option.map_eq_some_iff.mp hm
          have hc : Prog.Only (P op) (.call c k) := h _ (List.mem_of_getElem? hi)
          cases o with
          | answered =>
            simp only [finish] at hout
            split_ifs at hout
            cases hout
            simpa only [Meets, Issues, hi] using hstep i op c p.state hc.1 hJ hI
          | lost e =>
            simp only [finish] at hout
            split_ifs at hout
            cases hout
            exact iff_of_true hI trivial
          | unacknowledged e =>
            simp only [finish] at hout
            split_ifs at hout
            cases hout
            simpa only [Meets, Issues, hi] using hstep i op c p.state hc.1 hJ hI
    rw [hall, ← hfirst]
    by_cases hkept : I m.state
    · rw [Within.keeps_iff hspawn henv hkeep hlost hstep xs hwithin hJm hkept hmq]
      exact (and_iff_right hkept).symm
    · refine iff_of_false (fun hq => ?_) fun hq => hkept hq.1
      have hgone := Within.keeps (I := fun s => J s ∧ ¬ I s) (A := fun _ _ _ _ => True) hspawn
        (fun e s hs => ⟨(henv e s).1.mpr hs.1, fun hI => hs.2 ((henv e s).2.mp hI)⟩)
        (fun i op c s hc _ hs => ⟨hkeep i op c s hc hs.1, hlost i op c s hc hs.1 hs.2⟩) xs
        hwithin ⟨hJm, hkept⟩ hmq (sys.allMeet_of_forall (fun _ _ _ _ => trivial) xs m)
      exact hgone.2 hq

end Within

/-! ### Rely-guarantee -/

/-- What a proof about interleavings is made of. -/
structure Discipline (C Op S : Type) where
  inv : S → Prop
  /-- What process `i` may count on while others move. -/
  rely : ℕ → S → S → Prop
  rely_refl : ∀ i s, rely i s s
  rely_trans : ∀ i s t u, rely i s t → rely i t u → rely i s u
  /-- The condition on commands that is assumed of the schedule. -/
  allow : ℕ → Op → C → S → Prop

variable {sys} {d : Discipline C Op S} {i : ℕ} {op : Op}

/-- Process `i` keeps the invariant and everyone else's rely at each command it
carries out, whatever the others did in between, and ends in `Q`. -/
def Safe (sys : System C R ε S Op Env α) (d : Discipline C Op S) (i : ℕ) (op : Op)
    (Q : Except ε β → S → Prop) : Prog C R ε β → S → Prop
  | .done r, s => Q r s
  | .call c k, s => ∀ t, d.rely i s t → d.inv t →
    (∀ e, sys.fault c e → Safe sys d i op Q (k (.error e)) t) ∧
    (d.allow i op c t → sys.ready i c t → d.inv (sys.exec i c t).2 ∧
      (∀ j, j ≠ i → d.rely j t (sys.exec i c t).2) ∧
      Safe sys d i op Q (k (sys.exec i c t).1) (sys.exec i c t).2 ∧
      ∀ e, sys.fault c e → Safe sys d i op Q (k (.error e)) (sys.exec i c t).2)

theorem Safe.mono {Q Q' : Except ε β → S → Prop} (hq : ∀ r s, Q r s → Q' r s)
    {p : Prog C R ε β} {s : S} (h : Safe sys d i op Q p s) : Safe sys d i op Q' p s := by
  induction p generalizing s with
  | done r => exact hq _ _ h
  | call c k ih =>
    intro t hst ht
    obtain ⟨hl, hx⟩ := h t hst ht
    refine ⟨fun e he => ih _ (hl e he), fun ha hr => ?_⟩
    obtain ⟨h1, h2, h3, h4⟩ := hx ha hr
    exact ⟨h1, h2, ih _ h3, fun e he => ih _ (h4 e he)⟩

theorem Safe.bind {γ : Type} {Q : Except ε γ → S → Prop} {p : Prog C R ε β} {f : β → Prog C R ε γ}
    {s : S} (h : Safe sys d i op (fun r s' => match r with
      | .ok a => Safe sys d i op Q (f a) s'
      | .error e => Q (.error e) s') p s) : Safe sys d i op Q (p >>= f) s := by
  induction p generalizing s with
  | done r => cases r <;> exact h
  | call c k ih =>
    intro t hst ht
    obtain ⟨hl, hx⟩ := h t hst ht
    refine ⟨fun e he => ih _ (hl e he), fun ha hr => ?_⟩
    obtain ⟨h1, h2, h3, h4⟩ := hx ha hr
    exact ⟨h1, h2, ih _ h3, fun e he => ih _ (h4 e he)⟩

theorem Safe.tryCatch {Q : Except ε β → S → Prop} {p : Prog C R ε β} {f : ε → Prog C R ε β}
    {s : S} (h : Safe sys d i op (fun r s' => match r with
      | .ok a => Q (.ok a) s'
      | .error e => Safe sys d i op Q (f e) s') p s) :
    Safe sys d i op Q (MonadExcept.tryCatch p f) s := by
  induction p generalizing s with
  | done r => cases r <;> exact h
  | call c k ih =>
    intro t hst ht
    obtain ⟨hl, hx⟩ := h t hst ht
    refine ⟨fun e he => ih _ (hl e he), fun ha hr => ?_⟩
    obtain ⟨h1, h2, h3, h4⟩ := hx ha hr
    exact ⟨h1, h2, ih _ h3, fun e he => ih _ (h4 e he)⟩

/-- What a process knows survives the moves of the others. -/
theorem Safe.rely {Q : Except ε β → S → Prop}
    (hQ : ∀ r s t, d.rely i s t → d.inv t → Q r s → Q r t) {p : Prog C R ε β} {s t : S}
    (h : Safe sys d i op Q p s) (hst : d.rely i s t) (ht : d.inv t) : Safe sys d i op Q p t := by
  cases p with
  | done r => exact hQ r s t hst ht h
  | call c k => exact fun u htu hu => h u (d.rely_trans i s t u hst htu) hu

/-- A single command that keeps the invariant and everyone's rely, with what it may
be answered in the state it finds. -/
theorem Safe.issue {c : C} {Q : Except ε (R c) → S → Prop} {s : S}
    (h : ∀ t, d.rely i s t → d.inv t → (∀ e, Q (.error e) t) ∧ (d.allow i op c t →
      sys.ready i c t → d.inv (sys.exec i c t).2 ∧ (∀ j, j ≠ i → d.rely j t (sys.exec i c t).2) ∧
        Q (sys.exec i c t).1 (sys.exec i c t).2 ∧ ∀ e, Q (.error e) (sys.exec i c t).2)) :
    Safe sys d i op Q (Prog.issue c) s := by
  intro t hst ht
  obtain ⟨he, hx⟩ := h t hst ht
  refine ⟨fun e _ => he e, fun ha hr => ?_⟩
  obtain ⟨h1, h2, h3, h4⟩ := hx ha hr
  exact ⟨h1, h2, h3, fun e _ => h4 e⟩

/-- A program all of whose commands keep the invariant and everyone's rely is safe,
and ends with whatever it could rely on from the start. -/
theorem Safe.of_only {P : C → Prop} {I : S → Prop}
    (hP : ∀ c t, P c → d.inv t → d.allow i op c t →
      d.inv (sys.exec i c t).2 ∧ ∀ j, d.rely j t (sys.exec i c t).2)
    (hI : ∀ s t, d.rely i s t → I s → I t) {p : Prog C R ε β} (h : Prog.Only P p) {s : S}
    (hs : I s) : Safe sys d i op (fun _ => I) p s := by
  induction p generalizing s with
  | done r => exact hs
  | call c k ih =>
    intro t hst ht
    have hIt : I t := hI s t hst hs
    refine ⟨fun e _ => ih _ (h.2 _) hIt, fun ha _ => ?_⟩
    obtain ⟨h1, h2⟩ := hP c t h.1 ht ha
    have hIu : I (sys.exec i c t).2 := hI t _ (h2 i) hIt
    exact ⟨h1, fun j _ => h2 j, ih _ (h.2 _) hIu, fun e _ => ih _ (h.2 _) hIu⟩

/-- The loop rule: each turn keeps what the process knows. -/
theorem Safe.forM {σ : Type} {I : S → Prop} {f : σ → Prog C R ε PUnit} {xs : List σ}
    (hf : ∀ x ∈ xs, ∀ s, I s → Safe sys d i op (fun _ => I) (f x) s) {s : S} (hs : I s) :
    Safe sys d i op (fun _ => I) (forM xs f) s := by
  induction xs generalizing s with
  | nil => exact hs
  | cons x xs ih =>
    rw [List.forM_cons]
    refine Safe.bind ((hf x List.mem_cons_self s hs).mono ?_)
    intro r t ht
    cases r with
    | ok _ => exact ih (fun y hy => hf y (List.mem_cons_of_mem _ hy)) ht
    | error e => exact ht

/-- The invariant, and every process safe in the state reached. -/
structure PoolSafe (sys : System C R ε S Op Env α) (d : Discipline C Op S)
    (Q : ℕ → Op → Except ε α → S → Prop) (p : Pool C R ε S Op α) : Prop where
  inv : d.inv p.state
  procs : ∀ i op q, p.procs[i]? = some (op, q) → Safe sys d i op (Q i op) q p.state

variable {Q : ℕ → Op → Except ε α → S → Prop}

/-- Replacing process `i` after a move that the others can rely on. -/
theorem PoolSafe.set {p : Pool C R ε S Op α} (h : PoolSafe sys d Q p)
    (hQ : ∀ i op r s t, d.rely i s t → d.inv t → Q i op r s → Q i op r t) {t : S}
    (ht : d.inv t) (hr : ∀ j, j ≠ i → d.rely j p.state t) {q : Prog C R ε α}
    (hq : Safe sys d i op (Q i op) q t) : PoolSafe sys d Q ⟨t, p.procs.set i (op, q)⟩ where
  inv := ht
  procs := by
    intro j op' q' hj
    by_cases hij : i = j
    · subst hij
      rw [List.getElem?_set_self'] at hj
      cases hp : p.procs[i]? with
      | none => rw [hp] at hj; cases hj
      | some x =>
        rw [hp] at hj
        cases hj
        exact hq
    · rw [List.getElem?_set_ne hij] at hj
      exact (h.procs j op' q' hj).rely (hQ j op') (hr j (Ne.symm hij)) ht

theorem PoolSafe.act
    (hQ : ∀ i op r s t, d.rely i s t → d.inv t → Q i op r s → Q i op r t)
    (hspawn : ∀ i op s, d.inv s → Safe sys d i op (Q i op) (sys.handler op) s)
    (henv : ∀ e s, d.inv s → d.inv (sys.env e s) ∧ ∀ i, d.rely i s (sys.env e s))
    {x : Choice ε Op Env} {p q : Pool C R ε S Op α} (h : PoolSafe sys d Q p)
    (hx : sys.act x p = some q) (ha : Meets d.allow x p) : PoolSafe sys d Q q := by
  cases x with
  | spawn op =>
    simp only [System.act, Option.some.injEq] at hx
    subst hx
    refine ⟨h.inv, fun i op' q' hi => ?_⟩
    simp only [List.getElem?_append] at hi
    split_ifs at hi with hlt
    · exact h.procs i op' q' hi
    · obtain ⟨hz, he⟩ := List.getElem?_eq_some_iff.mp hi
      simp only [List.getElem_singleton, Prod.mk.injEq] at he
      obtain ⟨rfl, rfl⟩ := he
      exact hspawn i op _ h.inv
  | env e =>
    simp only [System.act, Option.some.injEq] at hx
    subst hx
    obtain ⟨hi, hr⟩ := henv e p.state h.inv
    exact ⟨hi, fun i op q' hq => (h.procs i op q' hq).rely (hQ i op) (hr i) hi⟩
  | step i o =>
    simp only [System.act] at hx
    split at hx
    case h_2 => cases hx
    case h_1 op c k hi =>
      obtain ⟨out, hout, rfl⟩ := Option.map_eq_some_iff.mp hx
      obtain ⟨hl, hc⟩ := h.procs i op _ hi p.state (d.rely_refl i _) h.inv
      cases o with
      | answered =>
        simp only [finish] at hout
        split_ifs at hout with hready
        cases hout
        simp only [Meets, Issues, hi] at ha
        obtain ⟨h1, h2, h3, -⟩ := hc ha hready
        exact h.set hQ h1 h2 h3
      | lost e =>
        simp only [finish] at hout
        split_ifs at hout with hf
        cases hout
        exact h.set hQ h.inv (fun j _ => d.rely_refl j _) (hl e hf)
      | unacknowledged e =>
        simp only [finish, Bool.and_eq_true] at hout
        split_ifs at hout with hf
        cases hout
        simp only [Meets, Issues, hi] at ha
        obtain ⟨h1, h2, -, h4⟩ := hc ha hf.1
        exact h.set hQ h1 h2 (h4 e hf.2)

/-- The rely-guarantee rule: programs proved safe one by one are safe in every
schedule that meets the condition. -/
theorem PoolSafe.schedule
    (hQ : ∀ i op r s t, d.rely i s t → d.inv t → Q i op r s → Q i op r t)
    (hspawn : ∀ i op s, d.inv s → Safe sys d i op (Q i op) (sys.handler op) s)
    (henv : ∀ e s, d.inv s → d.inv (sys.env e s) ∧ ∀ i, d.rely i s (sys.env e s)) :
    ∀ (xs : List (Choice ε Op Env)) {p q : Pool C R ε S Op α}, PoolSafe sys d Q p →
      sys.schedule xs p = some q → sys.AllMeet d.allow xs p → PoolSafe sys d Q q
  | [], p, q, h, hx, _ => by
    simp only [System.schedule, Option.some.injEq] at hx
    exact hx ▸ h
  | x :: xs, p, q, h, hx, ha => by
    obtain ⟨m, hm, hmq⟩ := Option.bind_eq_some_iff.mp hx
    have ha' : sys.AllMeet d.allow xs m := by
      have := ha.2
      rwa [hm] at this
    exact PoolSafe.schedule hQ hspawn henv xs (h.act hQ hspawn henv hm ha.1) hmq ha'

theorem poolSafe_empty {s : S} (h : d.inv s) : PoolSafe sys d Q ⟨s, []⟩ :=
  ⟨h, fun i op q hi => by simp at hi⟩

end System

end MovieReservation.Lib
