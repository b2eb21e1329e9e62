import MovieReservation.Lib.Path

/-! What the processes of a schedule issued and what they were told. The trace of a
schedule lists the answers in order; those of one process are a path through the
tree of its program. An invariant may relate the trace to the state. -/

namespace MovieReservation.Lib

variable {C : Type} {R : C → Type} {ε S Op Env α β : Type}

open Prog

/-! ### The trace of a schedule -/

namespace System

variable (sys : System C R ε S Op Env α)

/-- What a choice adds to the trace. -/
def answers : Choice ε Op Env → Pool C R ε S Op α → List (ℕ × Answer C R ε)
  | .step i o, p => match p.procs[i]? with
    | some (_, .call c _) => match sys.finish i c p.state o with
      | some out => [(i, ⟨c, out.1⟩)]
      | none => []
    | _ => []
  | _, _ => []

@[simp] theorem answers_spawn (op : Op) (p : Pool C R ε S Op α) :
    sys.answers (.spawn op) p = [] := rfl

@[simp] theorem answers_env (e : Env) (p : Pool C R ε S Op α) :
    sys.answers (.env e) p = [] := rfl

/-- A step of a process: the command it was about to issue, and how that ended. -/
theorem act_step {i : ℕ} {o : Outcome ε} {p q : Pool C R ε S Op α}
    (h : sys.act (.step i o) p = some q) :
    ∃ op c k out, p.procs[i]? = some (op, .call c k) ∧ sys.finish i c p.state o = some out ∧
      q = ⟨out.2, p.procs.set i (op, k out.1)⟩ ∧
      sys.answers (.step i o) p = [(i, ⟨c, out.1⟩)] := by
  simp only [act] at h
  split at h
  case h_2 => cases h
  case h_1 op c k hi =>
    obtain ⟨out, hout, rfl⟩ := Option.map_eq_some_iff.mp h
    exact ⟨op, c, k, out, hi, hout, rfl, by simp only [answers, hi, hout]⟩

def trace : List (Choice ε Op Env) → Pool C R ε S Op α → List (ℕ × Answer C R ε)
  | [], _ => []
  | x :: xs, p => sys.answers x p ++ match sys.act x p with
    | some q => trace xs q
    | none => []

/-- The answers that process `i` was given. -/
def own (i : ℕ) (tr : List (ℕ × Answer C R ε)) : List (Answer C R ε) :=
  tr.filterMap fun a => if a.1 = i then some a.2 else none

theorem mem_own {i : ℕ} {tr : List (ℕ × Answer C R ε)} {a : Answer C R ε} :
    a ∈ own i tr ↔ (i, a) ∈ tr := by
  simp only [own, List.mem_filterMap, Option.ite_none_right_eq_some, Option.some.injEq]
  constructor
  · rintro ⟨⟨j, b⟩, hb, rfl, rfl⟩
    exact hb
  · intro h
    exact ⟨(i, a), h, rfl, rfl⟩

theorem own_append (i : ℕ) (tr tr' : List (ℕ × Answer C R ε)) :
    own i (tr ++ tr') = own i tr ++ own i tr' := List.filterMap_append

theorem own_snoc (i j : ℕ) (tr : List (ℕ × Answer C R ε)) (a : Answer C R ε) :
    own j (tr ++ [(i, a)]) = if i = j then own j tr ++ [a] else own j tr := by
  rw [own_append]
  split_ifs with hij <;> simp [own, hij]

/-- How a command of process `i` can end: answered, or with an error, which leaves the
state as it was or not. -/
theorem finish_cases {i : ℕ} {c : C} {s : S} {o : Outcome ε} {out : Except ε (R c) × S}
    (h : sys.finish i c s o = some out) :
    (o = .answered ∧ out = sys.exec i c s) ∨ (∃ e, o = .lost e ∧ out = (.error e, s)) ∨
      ∃ e, o = .unacknowledged e ∧ out = (.error e, (sys.exec i c s).2) := by
  cases o with
  | answered =>
    simp only [finish] at h
    split_ifs at h
    exact .inl ⟨rfl, (Option.some.inj h).symm⟩
  | lost e =>
    simp only [finish] at h
    split_ifs at h
    exact .inr (.inl ⟨e, rfl, (Option.some.inj h).symm⟩)
  | unacknowledged e =>
    simp only [finish] at h
    split_ifs at h
    exact .inr (.inr ⟨e, rfl, (Option.some.inj h).symm⟩)

theorem finish_state {i : ℕ} {c : C} {s : S} {o : Outcome ε} {out : Except ε (R c) × S}
    (h : sys.finish i c s o = some out) : out.2 = s ∨ out.2 = (sys.exec i c s).2 := by
  rcases finish_cases sys h with ⟨-, rfl⟩ | ⟨e, -, rfl⟩ | ⟨e, -, rfl⟩
  · exact .inr rfl
  · exact .inl rfl
  · exact .inr rfl

theorem finish_error {i : ℕ} {c : C} {s : S} {o : Outcome ε} {out : Except ε (R c) × S} {e : ε}
    (h : sys.finish i c s o = some out) (he : out.1 = .error e) :
    (sys.exec i c s).1 = .error e ∨ sys.fault c e = true := by
  cases o with
  | answered =>
    simp only [finish] at h
    split_ifs at h
    cases h
    exact .inl he
  | lost e' =>
    simp only [finish] at h
    split_ifs at h with hf
    cases h
    cases he
    exact .inr hf
  | unacknowledged e' =>
    simp only [finish] at h
    split_ifs at h with hf
    cases h
    cases he
    exact .inr (Bool.and_eq_true_iff.mp hf).2

theorem finish_ok {i : ℕ} {c : C} {s : S} {o : Outcome ε} {out : Except ε (R c) × S} {r : R c}
    (h : sys.finish i c s o = some out) (hr : out.1 = .ok r) :
    sys.exec i c s = (.ok r, out.2) ∧ o = .answered := by
  rcases finish_cases sys h with ⟨ho, rfl⟩ | ⟨e, -, rfl⟩ | ⟨e, -, rfl⟩
  · exact ⟨Prod.ext hr rfl, ho⟩
  · cases hr
  · cases hr

/-- `B` holds of every choice, of the answers given before and the pool it finds. -/
def AllStages (B : List (ℕ × Answer C R ε) → Choice ε Op Env → Pool C R ε S Op α → Prop) :
    List (Choice ε Op Env) → List (ℕ × Answer C R ε) → Pool C R ε S Op α → Prop
  | [], _, _ => True
  | x :: xs, tr, p => B tr x p ∧ match sys.act x p with
    | some q => AllStages B xs (tr ++ sys.answers x p) q
    | none => True

theorem allStages_of_forall
    {B : List (ℕ × Answer C R ε) → Choice ε Op Env → Pool C R ε S Op α → Prop}
    (hB : ∀ tr x p, B tr x p) :
    ∀ (xs : List (Choice ε Op Env)) (tr : List (ℕ × Answer C R ε)) (p : Pool C R ε S Op α),
      sys.AllStages B xs tr p
  | [], _, _ => trivial
  | x :: xs, tr, p => by
    refine ⟨hB tr x p, ?_⟩
    cases sys.act x p with
    | none => trivial
    | some q => exact allStages_of_forall hB xs _ q

theorem AllStages.and
    {B B' : List (ℕ × Answer C R ε) → Choice ε Op Env → Pool C R ε S Op α → Prop} :
    ∀ {xs : List (Choice ε Op Env)} {tr : List (ℕ × Answer C R ε)} {p : Pool C R ε S Op α},
      sys.AllStages B xs tr p → sys.AllStages B' xs tr p →
        sys.AllStages (fun tr x p => B tr x p ∧ B' tr x p) xs tr p
  | [], _, _, _, _ => trivial
  | x :: xs, tr, p, h, h' => by
    refine ⟨⟨h.1, h'.1⟩, ?_⟩
    have hrest := h.2
    have hrest' := h'.2
    cases hq : sys.act x p with
    | none => trivial
    | some q =>
      rw [hq] at hrest hrest'
      exact hrest.and hrest'

theorem AllMeet.stages {A : ℕ → Op → C → S → Prop} :
    ∀ {xs : List (Choice ε Op Env)} {p : Pool C R ε S Op α} (tr : List (ℕ × Answer C R ε)),
      sys.AllMeet A xs p → sys.AllStages (fun _ x p => Meets A x p) xs tr p
  | [], _, _, _ => trivial
  | x :: xs, p, tr, h => by
    refine ⟨h.1, ?_⟩
    have hrest := h.2
    cases hq : sys.act x p with
    | none => trivial
    | some q =>
      rw [hq] at hrest
      exact hrest.stages _

instance decidableAllStages
    (B : List (ℕ × Answer C R ε) → Choice ε Op Env → Pool C R ε S Op α → Prop)
    [∀ tr x p, Decidable (B tr x p)] : ∀ (xs : List (Choice ε Op Env))
    (tr : List (ℕ × Answer C R ε)) (p : Pool C R ε S Op α), Decidable (sys.AllStages B xs tr p)
  | [], _, _ => inferInstanceAs (Decidable True)
  | x :: xs, tr, p =>
    have : Decidable (match sys.act x p with
        | some q => sys.AllStages B xs (tr ++ sys.answers x p) q
        | none => True) :=
      match sys.act x p with
      | some q => decidableAllStages B xs (tr ++ sys.answers x p) q
      | none => inferInstanceAs (Decidable True)
    inferInstanceAs (Decidable (B tr x p ∧ _))

/-- `B` holds of every request that is spawned, of the answers given before and the
state it finds. -/
def AllSpawn (B : List (ℕ × Answer C R ε) → S → Op → Prop) :
    List (Choice ε Op Env) → List (ℕ × Answer C R ε) → Pool C R ε S Op α → Prop
  | [], _, _ => True
  | x :: xs, tr, p =>
    (match x with
      | .spawn op => B tr p.state op
      | _ => True) ∧
    match sys.act x p with
      | some q => AllSpawn B xs (tr ++ sys.answers x p) q
      | none => True

theorem allSpawn_of_forall {B : List (ℕ × Answer C R ε) → S → Op → Prop}
    (hB : ∀ tr s op, B tr s op) :
    ∀ (xs : List (Choice ε Op Env)) (tr : List (ℕ × Answer C R ε)) (p : Pool C R ε S Op α),
      sys.AllSpawn B xs tr p
  | [], _, _ => trivial
  | x :: xs, tr, p => by
    refine ⟨?_, ?_⟩
    · cases x with
      | spawn op => exact hB _ _ _
      | step i o => trivial
      | env e => trivial
    · cases sys.act x p with
      | none => trivial
      | some q => exact allSpawn_of_forall hB xs _ q

section Decidable
variable (B : List (ℕ × Answer C R ε) → S → Op → Prop) [∀ tr s op, Decidable (B tr s op)]

instance decidableAllSpawn : ∀ (xs : List (Choice ε Op Env)) (tr : List (ℕ × Answer C R ε))
    (p : Pool C R ε S Op α), Decidable (sys.AllSpawn B xs tr p)
  | [], _, _ => inferInstanceAs (Decidable True)
  | x :: xs, tr, p =>
    have : Decidable (match x with
        | .spawn op => B tr p.state op
        | _ => True) := by
      cases x <;> infer_instance
    have : Decidable (match sys.act x p with
        | some q => sys.AllSpawn B xs (tr ++ sys.answers x p) q
        | none => True) :=
      match sys.act x p with
      | some q => decidableAllSpawn xs (tr ++ sys.answers x p) q
      | none => inferInstanceAs (Decidable True)
    inferInstanceAs (Decidable (_ ∧ _))

end Decidable

/-- An invariant of trace and pool that every choice keeps holds after the schedule. -/
theorem trace_invariant {A : ℕ → Op → C → S → Prop}
    {B : List (ℕ × Answer C R ε) → S → Op → Prop}
    {I : List (ℕ × Answer C R ε) → Pool C R ε S Op α → Prop}
    (hspawn : ∀ tr p op, I tr p → B tr p.state op →
      I tr ⟨p.state, p.procs ++ [(op, sys.handler op)]⟩)
    (henv : ∀ tr p e, I tr p → I tr ⟨sys.env e p.state, p.procs⟩)
    (hstep : ∀ tr p i op c k o out, I tr p → p.procs[i]? = some (op, .call c k) →
      sys.finish i c p.state o = some out → ((∀ e, o ≠ .lost e) → A i op c p.state) →
      I (tr ++ [(i, ⟨c, out.1⟩)]) ⟨out.2, p.procs.set i (op, k out.1)⟩) :
    ∀ (xs : List (Choice ε Op Env)) (tr : List (ℕ × Answer C R ε)) {p q}, I tr p →
      sys.schedule xs p = some q → sys.AllMeet A xs p → sys.AllSpawn B xs tr p →
      I (tr ++ sys.trace xs p) q
  | [], tr, p, q, h, hx, _, _ => by
    simp only [schedule, Option.some.injEq] at hx
    subst hx
    simpa [trace] using h
  | x :: xs, tr, p, q, h, hx, ha, hb => by
    obtain ⟨m, hm, hmq⟩ := Option.bind_eq_some_iff.mp hx
    have ha' : sys.AllMeet A xs m := by
      have := ha.2
      rwa [hm] at this
    have hb' : sys.AllSpawn B xs (tr ++ sys.answers x p) m := by
      have := hb.2
      rwa [hm] at this
    have hI : I (tr ++ sys.answers x p) m := by
      cases x with
      | spawn op =>
        simp only [act, Option.some.injEq] at hm
        subst hm
        simpa [answers] using hspawn tr p op h hb.1
      | env e =>
        simp only [act, Option.some.injEq] at hm
        subst hm
        simpa [answers] using henv tr p e h
      | step i o =>
        obtain ⟨op, c, k, out, hi, hout, rfl, hans⟩ := act_step sys hm
        rw [hans]
        refine hstep tr p i op c k o out h hi hout fun hlost => ?_
        have hmeets := ha.1
        cases o with
        | lost e => exact absurd rfl (hlost e)
        | answered => simpa only [Meets, Issues, hi] using hmeets
        | unacknowledged e => simpa only [Meets, Issues, hi] using hmeets
    have htrace : tr ++ sys.trace (x :: xs) p = (tr ++ sys.answers x p) ++ sys.trace xs m := by
      simp only [trace, hm, List.append_assoc]
    rw [htrace]
    exact trace_invariant hspawn henv hstep xs _ hI hmq ha' hb'

/-- Every process stands where its answers have led its program. -/
structure OnPath (tr : List (ℕ × Answer C R ε)) (p : Pool C R ε S Op α) : Prop where
  follows : ∀ i op q, p.procs[i]? = some (op, q) → Follows (sys.handler op) (own i tr) q
  spawned : ∀ a ∈ tr, a.1 < p.procs.length

theorem own_eq_nil {i : ℕ} {tr : List (ℕ × Answer C R ε)} (h : ∀ a ∈ tr, a.1 < i) :
    own i tr = [] := by
  rw [own, List.filterMap_eq_nil_iff]
  intro a ha
  rw [if_neg (Nat.ne_of_lt (h a ha))]

variable {sys} {tr : List (ℕ × Answer C R ε)} {p : Pool C R ε S Op α}

theorem OnPath.spawn (h : OnPath sys tr p) (op : Op) :
    OnPath sys tr ⟨p.state, p.procs ++ [(op, sys.handler op)]⟩ where
  follows := by
    intro i op' q hi
    rw [List.getElem?_append] at hi
    split_ifs at hi with hlt
    · exact h.follows i op' q hi
    · obtain ⟨hz, he⟩ := List.getElem?_eq_some_iff.mp hi
      simp only [List.getElem_singleton, Prod.mk.injEq] at he
      obtain ⟨rfl, rfl⟩ := he
      rw [own_eq_nil fun a ha => Nat.lt_of_lt_of_le (h.spawned a ha) (Nat.le_of_not_lt hlt)]
      exact .refl _
  spawned := by
    intro a ha
    rw [List.length_append]
    exact Nat.lt_add_right _ (h.spawned a ha)

theorem OnPath.step (h : OnPath sys tr p) {i : ℕ} {op : Op} {c : C}
    {k : Except ε (R c) → Prog C R ε α} (hi : p.procs[i]? = some (op, .call c k))
    (r : Except ε (R c)) (s : S) :
    OnPath sys (tr ++ [(i, ⟨c, r⟩)]) ⟨s, p.procs.set i (op, k r)⟩ where
  follows := by
    intro j op' q hj
    have hlt : i < p.procs.length := (List.getElem?_eq_some_iff.mp hi).1
    rw [own_snoc]
    by_cases hij : i = j
    · subst hij
      rw [List.getElem?_set_self hlt, Option.some.injEq, Prod.mk.injEq] at hj
      obtain ⟨rfl, rfl⟩ := hj
      rw [if_pos rfl]
      exact (h.follows i op _ hi).snoc r
    · rw [List.getElem?_set_ne hij] at hj
      rw [if_neg hij]
      exact h.follows j op' q hj
  spawned := by
    intro a ha
    rw [List.length_set]
    rcases List.mem_append.mp ha with ha | ha
    · exact h.spawned a ha
    · rw [List.mem_singleton.mp ha]
      exact (List.getElem?_eq_some_iff.mp hi).1

theorem OnPath.act (h : OnPath sys tr p) {x : Choice ε Op Env} {q : Pool C R ε S Op α}
    (hq : sys.act x p = some q) : OnPath sys (tr ++ sys.answers x p) q := by
  cases x with
  | spawn op =>
    cases hq
    simpa [answers] using h.spawn op
  | env e =>
    cases hq
    simpa [answers] using (⟨h.follows, h.spawned⟩ : OnPath sys tr ⟨sys.env e p.state, p.procs⟩)
  | step i o =>
    obtain ⟨op, c, k, out, hi, -, rfl, hans⟩ := act_step sys hq
    rw [hans]
    exact h.step hi out.1 out.2

theorem onPath_empty (s : S) : OnPath sys [] ⟨s, []⟩ where
  follows i op q hi := by simp at hi
  spawned a ha := by cases ha

/-- The rule for an invariant of trace and state that the commands keep which the
programs can issue and the schedule allows. What is known of a request when it is
spawned may be used as long as it lives, if nothing undoes it. -/
theorem spawn_rule {A : ℕ → Op → C → S → Prop} {B : List (ℕ × Answer C R ε) → S → Op → Prop}
    {I : List (ℕ × Answer C R ε) → S → Prop} {s : S} (h₀ : I [] s)
    (henv : ∀ tr t e, I tr t → I tr (sys.env e t))
    (hmove : ∀ tr t op e, B tr t op → B tr (sys.env e t) op)
    (hlast : ∀ tr t op i c o out, B tr t op → sys.finish i c t o = some out →
      B (tr ++ [(i, ⟨c, out.1⟩)]) out.2 op)
    (hstep : ∀ tr t i op c k o out, I tr t → B tr t op →
      Follows (sys.handler op) (own i tr) (.call c k) → sys.finish i c t o = some out →
      ((∀ e, o ≠ .lost e) → A i op c t) → I (tr ++ [(i, ⟨c, out.1⟩)]) out.2)
    {xs : List (Choice ε Op Env)} (hx : sys.schedule xs ⟨s, []⟩ = some p)
    (ha : sys.AllMeet A xs ⟨s, []⟩) (hb : sys.AllSpawn B xs [] ⟨s, []⟩) :
    OnPath sys (sys.trace xs ⟨s, []⟩) p ∧
      (∀ x ∈ p.procs, B (sys.trace xs ⟨s, []⟩) p.state x.1) ∧
      I (sys.trace xs ⟨s, []⟩) p.state := by
  refine trace_invariant sys
    (I := fun tr q => OnPath sys tr q ∧ (∀ x ∈ q.procs, B tr q.state x.1) ∧ I tr q.state)
    ?_ ?_ ?_ xs [] ⟨onPath_empty s, by simp, h₀⟩ hx ha hb
  · intro tr q op ⟨hpath, hB, hI⟩ hop
    refine ⟨hpath.spawn op, fun x hx => ?_, hI⟩
    rcases List.mem_append.mp hx with hx | hx
    · exact hB x hx
    · rw [List.mem_singleton.mp hx]
      exact hop
  · intro tr q e ⟨hpath, hB, hI⟩
    exact ⟨⟨hpath.follows, hpath.spawned⟩, fun x hx => hmove _ _ _ _ (hB x hx),
      henv tr q.state e hI⟩
  · intro tr q i op c k o out ⟨hpath, hB, hI⟩ hi hout hA
    have hop : B tr q.state op := hB _ (List.mem_of_getElem? hi)
    refine ⟨hpath.step hi out.1 out.2, fun x hx => ?_,
      hstep tr q.state i op c k o out hI hop (hpath.follows i op _ hi) hout hA⟩
    rcases List.mem_or_eq_of_mem_set hx with hx | rfl
    · exact hlast _ _ _ _ _ _ _ (hB x hx) hout
    · exact hlast _ _ _ _ _ _ _ hop hout

/-- The rule without a condition on the requests. -/
theorem trace_rule {A : ℕ → Op → C → S → Prop} {I : List (ℕ × Answer C R ε) → S → Prop} {s : S}
    (h₀ : I [] s) (henv : ∀ tr t e, I tr t → I tr (sys.env e t))
    (hstep : ∀ tr t i op c k o out, I tr t → Follows (sys.handler op) (own i tr) (.call c k) →
      sys.finish i c t o = some out → ((∀ e, o ≠ .lost e) → A i op c t) →
      I (tr ++ [(i, ⟨c, out.1⟩)]) out.2)
    {xs : List (Choice ε Op Env)} (hx : sys.schedule xs ⟨s, []⟩ = some p)
    (ha : sys.AllMeet A xs ⟨s, []⟩) :
    OnPath sys (sys.trace xs ⟨s, []⟩) p ∧ I (sys.trace xs ⟨s, []⟩) p.state := by
  obtain ⟨hpath, -, hI⟩ := spawn_rule (B := fun _ _ _ => True) h₀ henv
    (fun _ _ _ _ _ => trivial) (fun _ _ _ _ _ _ _ _ _ => trivial)
    (fun tr t i op c k o out h _ hl hout hA => hstep tr t i op c k o out h hl hout hA) hx ha
    (allSpawn_of_forall sys (fun _ _ _ => trivial) xs [] _)
  exact ⟨hpath, hI⟩

/-- The rule for an invariant of trace and pool where every choice meets `B`. -/
theorem stages_rule {B : List (ℕ × Answer C R ε) → Choice ε Op Env → Pool C R ε S Op α → Prop}
    {I : List (ℕ × Answer C R ε) → Pool C R ε S Op α → Prop}
    (hact : ∀ tr p x q, OnPath sys tr p → I tr p → B tr x p → sys.act x p = some q →
      I (tr ++ sys.answers x p) q) :
    ∀ (xs : List (Choice ε Op Env)) {tr : List (ℕ × Answer C R ε)} {p q : Pool C R ε S Op α},
      OnPath sys tr p → I tr p → sys.schedule xs p = some q → sys.AllStages B xs tr p →
        OnPath sys (tr ++ sys.trace xs p) q ∧ I (tr ++ sys.trace xs p) q
  | [], tr, p, q, hpath, h, hx, _ => by
    cases hx
    rw [trace, List.append_nil]
    exact ⟨hpath, h⟩
  | x :: xs, tr, p, q, hpath, h, hx, hb => by
    obtain ⟨m, hm, hmq⟩ := Option.bind_eq_some_iff.mp hx
    have hrest : sys.AllStages B xs (tr ++ sys.answers x p) m := by
      have := hb.2
      rwa [hm] at this
    simp only [trace, hm]
    rw [← List.append_assoc]
    exact stages_rule hact xs (hpath.act hm) (hact tr p x m hpath h hb.1 hm) hmq hrest

theorem onPath {s : S} {xs : List (Choice ε Op Env)} (hx : sys.schedule xs ⟨s, []⟩ = some p) :
    OnPath sys (sys.trace xs ⟨s, []⟩) p :=
  (trace_rule (A := fun _ _ _ _ => True) (I := fun _ _ => True) trivial
    (fun _ _ _ _ => trivial) (fun _ _ _ _ _ _ _ _ _ _ _ _ => trivial) hx
    (sys.allMeet_of_forall (fun _ _ _ _ => trivial) xs _)).1

/-- Every answer was given to a command that met the condition in some state, to a
process whose request can still be read off the pool. -/
theorem answered {A : ℕ → Op → C → S → Prop} {s : S} {xs : List (Choice ε Op Env)}
    (hx : sys.schedule xs ⟨s, []⟩ = some p) (ha : sys.AllMeet A xs ⟨s, []⟩) :
    ∀ i c r, (i, ⟨c, .ok r⟩) ∈ sys.trace xs ⟨s, []⟩ →
      ∃ op q t, p.procs[i]? = some (op, q) ∧ A i op c t ∧ (sys.exec i c t).1 = .ok r := by
  refine trace_invariant sys (I := fun tr q => ∀ i c r, (i, ⟨c, .ok r⟩) ∈ tr →
    ∃ op p' t, q.procs[i]? = some (op, p') ∧ A i op c t ∧ (sys.exec i c t).1 = .ok r)
    ?_ ?_ ?_ xs [] (by simp) hx ha (allSpawn_of_forall (B := fun _ _ _ => True) sys
      (fun _ _ _ => trivial) xs [] _)
  · intro tr q op hI _ i c r hr
    obtain ⟨op', p', t, hi, h⟩ := hI i c r hr
    refine ⟨op', p', t, ?_, h⟩
    rw [List.getElem?_append_left (List.getElem?_eq_some_iff.mp hi).1]
    exact hi
  · intro tr q e hI
    exact hI
  · intro tr q i op c k o out hI hi hout hA j c' r hr
    have hlt : i < q.procs.length := (List.getElem?_eq_some_iff.mp hi).1
    rcases List.mem_append.mp hr with hr | hr
    · obtain ⟨op', p', t, hj, h⟩ := hI j c' r hr
      by_cases hij : i = j
      · subst hij
        rw [hi, Option.some.injEq, Prod.mk.injEq] at hj
        rw [← hj.1] at h
        exact ⟨op, k out.1, t, List.getElem?_set_self hlt, h⟩
      · exact ⟨op', p', t, by rw [List.getElem?_set_ne hij]; exact hj, h⟩
    · rw [List.mem_singleton, Prod.mk.injEq] at hr
      obtain ⟨rfl, hans⟩ := hr
      obtain ⟨rfl, hans⟩ := Sigma.mk.inj hans
      have hok : out.1 = .ok r := (eq_of_heq hans).symm
      refine ⟨op, k out.1, q.state, List.getElem?_set_self hlt, ?_⟩
      rcases finish_cases _ hout with ⟨rfl, rfl⟩ | ⟨e, -, rfl⟩ | ⟨e, -, rfl⟩
      · exact ⟨hA nofun, hok⟩
      · cases hok
      · cases hok

/-! ### Splitting a schedule at an answer -/

section Split
variable (sys)

theorem trace_append (xs ys : List (Choice ε Op Env)) {p q : Pool C R ε S Op α}
    (h : sys.schedule xs p = some q) :
    sys.trace (xs ++ ys) p = sys.trace xs p ++ sys.trace ys q := by
  induction xs generalizing p with
  | nil =>
    simp only [schedule, Option.some.injEq] at h
    rw [h]
    rfl
  | cons x xs ih =>
    obtain ⟨m, hm, hmq⟩ := Option.bind_eq_some_iff.mp h
    simp only [List.cons_append, trace, hm, ih hmq, List.append_assoc]

/-- A choice gives a process no answer, or one, by a step of it. -/
theorem own_answers (i : ℕ) (x : Choice ε Op Env) (p : Pool C R ε S Op α) :
    own i (sys.answers x p) = [] ∨
      ∃ o a, x = .step i o ∧ sys.answers x p = [(i, a)] := by
  cases x with
  | spawn op => exact .inl rfl
  | env e => exact .inl rfl
  | step j o =>
    simp only [answers]
    split
    case h_2 => exact .inl rfl
    case h_1 op c k hi =>
      split
      case h_2 => exact .inl rfl
      case h_1 out hout =>
        by_cases hij : j = i
        · subst hij
          exact .inr ⟨o, _, rfl, rfl⟩
        · exact .inl (by simp [own, hij])

/-- A command that was answered with a result was carried out there. -/
theorem answered_step {i : ℕ} {o : Outcome ε} {p q : Pool C R ε S Op α} {c : C} {r : R c}
    (ha : sys.answers (.step i o) p = [(i, ⟨c, .ok r⟩)]) (hq : sys.act (.step i o) p = some q) :
    ∃ op k, o = .answered ∧ p.procs[i]? = some (op, .call c k) ∧
      (sys.exec i c p.state).1 = .ok r ∧ q.state = (sys.exec i c p.state).2 := by
  simp only [answers] at ha
  split at ha
  case h_2 => cases ha
  case h_1 op c' k hi =>
    simp only [act, hi] at hq
    obtain ⟨out, hout, rfl⟩ := Option.map_eq_some_iff.mp hq
    simp only [hout, List.cons.injEq, Prod.mk.injEq, and_true, true_and] at ha
    obtain ⟨rfl, hans⟩ := Sigma.mk.inj ha
    have hok : out.1 = .ok r := eq_of_heq hans
    rcases finish_cases sys hout with ⟨rfl, rfl⟩ | ⟨e, -, rfl⟩ | ⟨e, -, rfl⟩
    · exact ⟨op, k, rfl, hi, hok, rfl⟩
    · cases hok
    · cases hok

/-- A step of a process that was taken is in the trace. -/
theorem step_mem_trace {i : ℕ} {o : Outcome ε} {ys : List (Choice ε Op Env)}
    (zs : List (Choice ε Op Env)) {p m n : Pool C R ε S Op α} (hys : sys.schedule ys p = some m)
    (hact : sys.act (.step i o) m = some n) :
    ∃ c out, sys.finish i c m.state o = some out ∧ n.state = out.2 ∧
      (i, ⟨c, out.1⟩) ∈ sys.trace (ys ++ .step i o :: zs) p := by
  rw [trace_append sys ys _ hys, trace]
  obtain ⟨op, c, k, out, -, hout, rfl, hans⟩ := act_step sys hact
  refine ⟨c, out, hout, rfl, List.mem_append_right _ (List.mem_append_left _ ?_)⟩
  rw [hans]
  exact List.mem_singleton_self _

/-- Every answer to a process splits the schedule at the step that gave it. -/
theorem split_at_answer (i : ℕ) (xs : List (Choice ε Op Env)) {p q : Pool C R ε S Op α}
    (h : sys.schedule xs p = some q) {l₁ l₂ : List (Answer C R ε)} {a : Answer C R ε}
    (ha : own i (sys.trace xs p) = l₁ ++ a :: l₂) :
    ∃ ys o zs m n, xs = ys ++ .step i o :: zs ∧ sys.schedule ys p = some m ∧
      sys.act (.step i o) m = some n ∧ sys.schedule zs n = some q ∧
      own i (sys.trace ys p) = l₁ ∧ sys.answers (.step i o) m = [(i, a)] ∧
      own i (sys.trace zs n) = l₂ := by
  induction xs generalizing p l₁ with
  | nil => simp [trace, own] at ha
  | cons x xs ih =>
    obtain ⟨m, hm, hmq⟩ := Option.bind_eq_some_iff.mp h
    simp only [trace, hm, own_append] at ha
    rcases own_answers sys i x p with hnil | ⟨o, b, rfl, hb⟩
    · rw [hnil, List.nil_append] at ha
      obtain ⟨ys, o, zs, m', n, hxs, hys, hact, hzs, htr, hrest⟩ := ih hmq ha
      refine ⟨x :: ys, o, zs, m', n, by rw [hxs, List.cons_append], ?_, hact, hzs, ?_, hrest⟩
      · simp only [schedule, hm, Option.bind_some, hys]
      · simp only [trace, hm, own_append, hnil, List.nil_append, htr]
    · have hown : own i (sys.answers (.step i o) p) = [b] := by
        rw [hb]
        simp [own]
      rw [hown] at ha
      cases l₁ with
      | nil =>
        simp only [List.nil_append, List.cons_append, List.cons.injEq] at ha
        exact ⟨[], o, xs, p, m, rfl, rfl, hm, hmq, rfl, by rw [hb, ha.1], ha.2⟩
      | cons b' l₁ =>
        simp only [List.cons_append, List.nil_append, List.cons.injEq] at ha
        obtain ⟨rfl, ha⟩ := ha
        obtain ⟨ys, o', zs, m', n, hxs, hys, hact, hzs, htr, hrest⟩ := ih hmq ha
        refine ⟨.step i o :: ys, o', zs, m', n, by rw [hxs, List.cons_append], ?_, hact, hzs, ?_,
          hrest⟩
        · simp only [schedule, hm, Option.bind_some, hys]
        · simp only [trace, hm, own_append, hown, htr, List.cons_append, List.nil_append]

end Split

end System

end MovieReservation.Lib
