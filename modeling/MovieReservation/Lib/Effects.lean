import Mathlib.Algebra.BigOperators.Group.Finset.Piecewise
import Mathlib.Algebra.BigOperators.Fin
import Mathlib.Algebra.Order.BigOperators.Group.Finset
import MovieReservation.Lib.Trace

/-! What the commands of a schedule did, whether their processes were told of it or not,
and how often the processes did what one of them does at most once. -/

namespace MovieReservation.Lib

variable {C : Type} {R : C → Type} {ε S Op Env α β : Type}

open Prog

namespace System

variable {sys : System C R ε S Op Env α} {p : Pool C R ε S Op α}

/-! ### What took effect -/

section Effects
variable (sys)

/-- The command that a choice carries out, with its result, whether the process is told
of it or not. -/
def effect : Choice ε Op Env → Pool C R ε S Op α → List (ℕ × Answer C R ε)
  | .step _ (.lost _), _ => []
  | .step i o, p => match p.procs[i]? with
    | some (_, .call c _) =>
      if (sys.finish i c p.state o).isSome then [(i, ⟨c, (sys.exec i c p.state).1⟩)] else []
    | _ => []
  | _, _ => []

def effects : List (Choice ε Op Env) → Pool C R ε S Op α → List (ℕ × Answer C R ε)
  | [], _ => []
  | x :: xs, p => sys.effect x p ++ match sys.act x p with
    | some q => effects xs q
    | none => []

/-- A command of `D` is not carried out without its process being told. -/
def Acked (D : C → Prop) : Choice ε Op Env → Pool C R ε S Op α → Prop
  | .step i (.unacknowledged _), p => Issues (fun _ _ c _ => ¬ D c) i p
  | _, _ => True

def AllAcked (D : C → Prop) : List (Choice ε Op Env) → Pool C R ε S Op α → Prop
  | [], _ => True
  | x :: xs, p => Acked D x p ∧ match sys.act x p with
    | some q => AllAcked D xs q
    | none => True

instance decidableAcked (D : C → Prop) [DecidablePred D] :
    ∀ (x : Choice ε Op Env) (p : Pool C R ε S Op α), Decidable (Acked D x p)
  | .spawn _, _ | .env _, _ | .step _ (.lost _), _ | .step _ .answered, _ => .isTrue trivial
  | .step i (.unacknowledged _), p => decidableIssues (fun _ _ c _ => ¬ D c) i p

instance decidableAllAcked (D : C → Prop) [DecidablePred D] :
    ∀ (xs : List (Choice ε Op Env)) (p : Pool C R ε S Op α), Decidable (sys.AllAcked D xs p)
  | [], _ => inferInstanceAs (Decidable True)
  | x :: xs, p =>
    have : Decidable (match sys.act x p with
        | some q => sys.AllAcked D xs q
        | none => True) :=
      match sys.act x p with
      | some q => decidableAllAcked D xs q
      | none => inferInstanceAs (Decidable True)
    inferInstanceAs (Decidable (Acked D x p ∧ _))

variable {D : C → Prop} {Q : Answer C R ε → Bool}

theorem countP_effect (hok : ∀ c e, Q ⟨c, .error e⟩ = false) (hD : ∀ a, Q a → D a.1)
    {x : Choice ε Op Env} {p : Pool C R ε S Op α} (h : Acked D x p) :
    (sys.effect x p).countP (fun a => Q a.2) = (sys.answers x p).countP (fun a => Q a.2) := by
  cases x with
  | spawn op => rfl
  | env e => rfl
  | step i o =>
    cases hi : p.procs[i]? with
    | none => cases o <;> simp [effect, answers, hi]
    | some y =>
      obtain ⟨op, q⟩ := y
      cases q with
      | done r => cases o <;> simp [effect, answers, hi]
      | call c k =>
        cases o with
        | answered =>
          by_cases hready : sys.ready i c p.state <;> simp [effect, answers, hi, finish, hready]
        | lost e => by_cases hf : sys.fault c e <;> simp [effect, answers, hi, finish, hf, hok]
        | unacknowledged e =>
          have hnot : ¬ D c := by simpa only [Acked, Issues, hi] using h
          have hQ : ∀ r, Q ⟨c, r⟩ = false := fun r =>
            Bool.eq_false_iff.mpr fun hq => hnot (hD _ hq)
          by_cases hready : (sys.ready i c p.state && sys.fault c e) = true <;>
            simp [effect, answers, hi, finish, hready, hok, hQ]

/-- Of such commands what succeeded is what was answered. -/
theorem countP_effects (hok : ∀ c e, Q ⟨c, .error e⟩ = false) (hD : ∀ a, Q a → D a.1) :
    ∀ (xs : List (Choice ε Op Env)) {p : Pool C R ε S Op α}, sys.AllAcked D xs p →
      (sys.effects xs p).countP (fun a => Q a.2) = (sys.trace xs p).countP (fun a => Q a.2)
  | [], _, _ => rfl
  | x :: xs, p, h => by
    simp only [effects, trace, List.countP_append, countP_effect sys hok hD h.1]
    congr 1
    have hrest := h.2
    cases hm : sys.act x p with
    | none => rfl
    | some q =>
      rw [hm] at hrest
      exact countP_effects hok hD xs hrest

/-- A choice carries out nothing, or a command that a process may issue. -/
theorem effect_cases {P : Op → C → Prop} {p q : Pool C R ε S Op α} (h : Within P p)
    {x : Choice ε Op Env} (hx : sys.act x p = some q) :
    (sys.effect x p = [] ∧ (q.state = p.state ∨ ∃ e, q.state = sys.env e p.state)) ∨
      ∃ i op c, P op c ∧ sys.effect x p = [(i, ⟨c, (sys.exec i c p.state).1⟩)] ∧
        q.state = (sys.exec i c p.state).2 := by
  cases x with
  | spawn op =>
    cases hx
    exact .inl ⟨rfl, .inl rfl⟩
  | env e =>
    cases hx
    exact .inl ⟨rfl, .inr ⟨e, rfl⟩⟩
  | step i o =>
    simp only [act] at hx
    split at hx
    case h_2 => cases hx
    case h_1 op c k hi =>
      obtain ⟨out, hout, rfl⟩ := Option.map_eq_some_iff.mp hx
      have hc : Only (P op) (.call c k) := h _ (List.mem_of_getElem? hi)
      rcases finish_cases sys hout with ⟨rfl, rfl⟩ | ⟨e, rfl, rfl⟩ | ⟨e, rfl, rfl⟩
      · exact .inr ⟨i, op, c, hc.1, by simp [effect, hi, hout], rfl⟩
      · exact .inl ⟨rfl, .inl rfl⟩
      · exact .inr ⟨i, op, c, hc.1, by simp [effect, hi, hout], rfl⟩

/-- The rule for an invariant of what took effect and the state. -/
theorem effects_rule {P : Op → C → Prop} {I : List (ℕ × Answer C R ε) → S → Prop}
    (hspawn : ∀ op, Only (P op) (sys.handler op))
    (henv : ∀ l s e, I l s → I l (sys.env e s))
    (hstep : ∀ l s i op c, P op c → I l s →
      I (l ++ [(i, ⟨c, (sys.exec i c s).1⟩)]) (sys.exec i c s).2) :
    ∀ (xs : List (Choice ε Op Env)) (l : List (ℕ × Answer C R ε)) {p q : Pool C R ε S Op α},
      Within P p → I l p.state → sys.schedule xs p = some q → I (l ++ sys.effects xs p) q.state
  | [], l, p, q, _, hI, hx => by
    cases hx
    rwa [effects, List.append_nil]
  | x :: xs, l, p, q, h, hI, hx => by
    obtain ⟨m, hm, hmq⟩ := Option.bind_eq_some_iff.mp hx
    have hmeet : Meets (fun _ _ _ _ => True) x p :=
      (sys.allMeet_of_forall (A := fun _ _ _ _ => True) (fun _ _ _ _ => trivial) [x] p).1
    have hwithin : Within P m := (h.act hspawn hm hmeet).1
    have hI' : I (l ++ sys.effect x p) m.state := by
      rcases sys.effect_cases h hm with ⟨heff, hs | ⟨e, hs⟩⟩ | ⟨i, op, c, hc, heff, hs⟩
      · rw [heff, List.append_nil, hs]
        exact hI
      · rw [heff, List.append_nil, hs]
        exact henv l _ e hI
      · rw [heff, hs]
        exact hstep l _ i op c hc hI
    have hlist : l ++ sys.effects (x :: xs) p = (l ++ sys.effect x p) ++ sys.effects xs m := by
      simp only [effects, hm, List.append_assoc]
    rw [hlist]
    exact effects_rule hspawn henv hstep xs _ hwithin hI' hmq

/-- What the processes were told of results is among what took effect. -/
theorem trace_sublist_effects {f : Answer C R ε → List β} (hf : ∀ c e, f ⟨c, .error e⟩ = []) :
    ∀ (xs : List (Choice ε Op Env)) (p : Pool C R ε S Op α),
      ((sys.trace xs p).flatMap fun a => f a.2).Sublist ((sys.effects xs p).flatMap fun a => f a.2)
  | [], _ => .slnil
  | x :: xs, p => by
    have hhead : ((sys.answers x p).flatMap fun a => f a.2).Sublist
        ((sys.effect x p).flatMap fun a => f a.2) := by
      cases x with
      | spawn op => exact .slnil
      | env e => exact .slnil
      | step i o =>
        simp only [answers]
        split
        case h_2 => exact List.nil_sublist _
        case h_1 op c k hi =>
          split
          case h_2 => exact List.nil_sublist _
          case h_1 out hout =>
            rcases finish_cases sys hout with ⟨rfl, rfl⟩ | ⟨e, rfl, rfl⟩ | ⟨e, rfl, rfl⟩
            · simp [effect, hi, hout]
            · simp [hf]
            · simp [hf]
    simp only [trace, effects, List.flatMap_append]
    refine hhead.append ?_
    cases sys.act x p with
    | none => exact .slnil
    | some q => exact trace_sublist_effects hf xs q

end Effects

/-! ### Invariants of the whole history -/

section History

theorem effects_append (xs ys : List (Choice ε Op Env)) {p q : Pool C R ε S Op α}
    (h : sys.schedule xs p = some q) :
    sys.effects (xs ++ ys) p = sys.effects xs p ++ sys.effects ys q := by
  induction xs generalizing p with
  | nil =>
    cases h
    rfl
  | cons x xs ih =>
    obtain ⟨m, hm, hmq⟩ := Option.bind_eq_some_iff.mp h
    simp only [List.cons_append, effects, hm, ih hmq, List.append_assoc]

/-- A result that a process was told by the end of a step is an older one, or that of the
step. -/
theorem told_result {i j : ℕ} {tr : List (ℕ × Answer C R ε)} {c c' : C} {r : Except ε (R c)}
    {a : R c'} (f : ∀ c, Except ε (R c)) (hr : r = f c ∨ ∃ e, r = .error e)
    (ha : (j, ⟨c', .ok a⟩) ∈ tr ++ [(i, ⟨c, r⟩)]) : (j, ⟨c', .ok a⟩) ∈ tr ∨ f c' = .ok a := by
  rcases List.mem_append.mp ha with hold | hnew
  · exact .inl hold
  · obtain ⟨-, hnew⟩ := Prod.mk.inj (List.mem_singleton.mp hnew)
    obtain ⟨rfl, hnew⟩ := Sigma.mk.inj hnew
    obtain rfl := eq_of_heq hnew
    rcases hr with hr | ⟨e, he⟩
    · exact .inr hr.symm
    · cases he

/-- The rule for an invariant of the requests that were spawned, of what the processes were
told, of what took effect and of the state. -/
theorem history_rule
    {I : List Op → List (ℕ × Answer C R ε) → List (ℕ × Answer C R ε) → S → Prop} {s : S}
    (h₀ : I [] [] [] s)
    (hspawn : ∀ ops tr l t op, I ops tr l t → I (ops ++ [op]) tr l t)
    (henv : ∀ ops tr l t e, I ops tr l t → I ops tr l (sys.env e t))
    (hlost : ∀ ops tr l t i op c k e, ops[i]? = some op →
      Follows (sys.handler op) (own i tr) (.call c k) → I ops tr l t →
      I ops (tr ++ [(i, ⟨c, .error e⟩)]) l t)
    (hexec : ∀ ops tr l t i op c k r, ops[i]? = some op →
      Follows (sys.handler op) (own i tr) (.call c k) →
      r = (sys.exec i c t).1 ∨ (∃ e, r = .error e) → I ops tr l t →
      I ops (tr ++ [(i, ⟨c, r⟩)]) (l ++ [(i, ⟨c, (sys.exec i c t).1⟩)]) (sys.exec i c t).2)
    {xs : List (Choice ε Op Env)} {q : Pool C R ε S Op α}
    (hx : sys.schedule xs ⟨s, []⟩ = some q) :
    I (q.procs.map Prod.fst) (sys.trace xs ⟨s, []⟩) (sys.effects xs ⟨s, []⟩) q.state := by
  induction xs using List.reverseRecOn generalizing q with
  | nil =>
    cases hx
    exact h₀
  | append_singleton xs x ih =>
    rw [schedule_append] at hx
    obtain ⟨m, hm, hact⟩ := Option.bind_eq_some_iff.mp hx
    have hact : sys.act x m = some q := by
      simpa only [schedule, Option.bind_some, Option.bind_fun_some] using hact
    have hI := ih hm
    rw [trace_append sys xs _ hm, effects_append xs _ hm]
    simp only [trace, effects, hact, List.append_nil]
    cases x with
    | spawn op =>
      cases hact
      simp only [answers, effect, List.append_nil, List.map_append, List.map_cons, List.map_nil]
      exact hspawn _ _ _ _ op hI
    | env e =>
      cases hact
      simp only [answers, effect, List.append_nil]
      exact henv _ _ _ _ e hI
    | step i o =>
      simp only [act] at hact
      split at hact
      case h_2 => cases hact
      case h_1 op c k hi =>
        obtain ⟨out, hout, rfl⟩ := Option.map_eq_some_iff.mp hact
        have hpath := (onPath hm).follows i op _ hi
        have hop : (m.procs.map Prod.fst)[i]? = some op := by
          rw [List.getElem?_map, hi]
          rfl
        have hops : (m.procs.set i (op, k out.1)).map Prod.fst = m.procs.map Prod.fst := by
          obtain ⟨hlt, hget⟩ := List.getElem?_eq_some_iff.mp hop
          rw [List.map_set, ← hget, List.set_getElem_self]
        have hanswers : sys.answers (.step i o) m = [(i, ⟨c, out.1⟩)] := by
          simp only [answers, hi, hout]
        rw [hops, hanswers]
        rcases finish_cases sys hout with ⟨rfl, rfl⟩ | ⟨e, rfl, rfl⟩ | ⟨e, rfl, rfl⟩
        · simp only [effect, hi, hout, Option.isSome_some, if_true]
          exact hexec _ _ _ _ i op c k _ hop hpath (.inl rfl) hI
        · simp only [effect, List.append_nil]
          exact hlost _ _ _ _ i op c k e hop hpath hI
        · simp only [effect, hi, hout, Option.isSome_some, if_true]
          exact hexec _ _ _ _ i op c k _ hop hpath (.inr ⟨e, rfl⟩) hI

end History

/-! ### Counting over the processes -/

/-- Answers that all went to one process are counted there. -/
theorem countP_own {Q : Answer C R ε → Bool} {i : ℕ} {tr : List (ℕ × Answer C R ε)}
    (h : ∀ x ∈ tr, Q x.2 → x.1 = i) :
    tr.countP (fun a => Q a.2) = (own i tr).countP Q := by
  induction tr with
  | nil => rfl
  | cons x tr ih =>
    have htail := ih fun y hy => h y (List.mem_cons_of_mem _ hy)
    by_cases hi : x.1 = i
    · simp only [own, List.countP_cons, List.filterMap_cons, hi, if_true] at htail ⊢
      rw [htail]
    · have hQ : Q x.2 = false :=
        Bool.eq_false_iff.mpr fun hq => hi (h x List.mem_cons_self hq)
      simp only [own, List.countP_cons, List.filterMap_cons, hi, if_false, hQ] at htail ⊢
      simpa using htail

/-- A sum over the answers, process by process. -/
theorem sum_own (f : Answer C R ε → ℕ) {tr : List (ℕ × Answer C R ε)} {n : ℕ}
    (hn : ∀ a ∈ tr, a.1 < n) :
    (tr.map fun a => f a.2).sum = ∑ i ∈ Finset.range n, ((own i tr).map f).sum := by
  induction tr with
  | nil => simp [own]
  | cons a tr ih =>
    have hown : ∀ i, ((own i (a :: tr)).map f).sum =
        (if a.1 = i then f a.2 else 0) + ((own i tr).map f).sum := by
      intro i
      unfold own
      rw [List.filterMap_cons]
      split_ifs
      · simp
      · simp
    rw [List.map_cons, List.sum_cons, ih fun b hb => hn b (List.mem_cons_of_mem _ hb),
      Finset.sum_congr rfl fun i _ => hown i, Finset.sum_add_distrib, Finset.sum_ite_eq,
      if_pos (Finset.mem_range.mpr (hn a List.mem_cons_self))]

/-- What every process does no more often than something else, all of them do no more
often. -/
theorem subperm_of_own [DecidableEq β] {f g : Answer C R ε → List β}
    {tr : List (ℕ × Answer C R ε)}
    (h : ∀ i, ((own i tr).flatMap f).Subperm ((own i tr).flatMap g)) :
    (tr.flatMap fun a => f a.2).Subperm (tr.flatMap fun a => g a.2) := by
  obtain ⟨n, hn⟩ : ∃ n, ∀ a ∈ tr, a.1 < n := by
    obtain ⟨n, hn⟩ := (tr.map Prod.fst).toFinset.exists_nat_subset_range
    refine ⟨n, fun a ha => Finset.mem_range.mp (hn ?_)⟩
    exact List.mem_toFinset.mpr (List.mem_map_of_mem ha)
  rw [List.subperm_ext_iff]
  intro x _
  have hcount : ∀ f : Answer C R ε → List β, (tr.flatMap fun a => f a.2).count x =
      ∑ i ∈ Finset.range n, ((own i tr).flatMap f).count x := by
    intro f
    rw [List.count_flatMap]
    refine (sum_own (fun a => (f a).count x) hn).trans (Finset.sum_congr rfl fun i _ => ?_)
    rw [List.count_flatMap]
    rfl
  rw [hcount f, hcount g]
  exact Finset.sum_le_sum fun i _ => (h i).count_le x

theorem countP_eq_sum {ι : Type} (Q : ι → Bool) (l : List ι) :
    l.countP Q = (l.map fun a => if Q a then 1 else 0).sum := by
  induction l with
  | nil => rfl
  | cons a l ih =>
    rw [List.countP_cons, List.map_cons, List.sum_cons, ih, Nat.add_comm]

/-- What every process of some requests does at most once, and no other does, is done no
more often than there are such requests. -/
theorem OnPath.countP_le {tr : List (ℕ × Answer C R ε)} {p : Pool C R ε S Op α}
    (hpath : OnPath sys tr p) {Q : Answer C R ε → Bool} {D : Op → Bool}
    (h : ∀ i op q, p.procs[i]? = some (op, q) →
      (own i tr).countP Q ≤ if D op then 1 else 0) :
    tr.countP (fun a => Q a.2) ≤ p.procs.countP fun x => D x.1 := by
  rw [countP_eq_sum, countP_eq_sum, sum_own (fun a => if Q a then 1 else 0) hpath.spawned,
    Finset.sum_range, ← Fin.sum_univ_fun_getElem]
  refine Finset.sum_le_sum fun i _ => ?_
  rw [← countP_eq_sum]
  exact h i _ _ (List.getElem?_eq_getElem i.isLt)

end System

end MovieReservation.Lib
