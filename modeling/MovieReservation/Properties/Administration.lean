import MovieReservation.Services.Admin
import MovieReservation.Services.Paths
import MovieReservation.Services.TestMode

/-! The administration is all or nothing. A request has one statement: whatever runs beside it
and whatever fails, the database is changed in no step of it but that one, a check that fails
comes before it, and a cached view that is not dropped afterwards fails nobody. -/

namespace MovieReservation

open Lib Lib.Prog Lib.System

/-! ### All or nothing -/

/-- How many steps of process `i` change the database. -/
def dbChanges {σ A : Type} (api : StripeApi σ A) (i : ℕ) : List (Choice Err Request (Env A)) →
    Pool Cmd Cmd.Reply Err (World σ) Request Response → ℕ
  | [], _ => 0
  | x :: xs, p => match (serviceSystem api).act x p with
    | none => 0
    | some q => (match x with
        | .step j _ => if j = i ∧ q.state.db.toTables ≠ p.state.db.toTables then 1 else 0
        | _ => 0) + dbChanges api i xs q

/-- A request that has come to `p`, with the answers `l` and so many changes. -/
structure AllOrNothing (changes : ℕ) (l : Trail) (p : M Response) : Prop where
  once : changes ≤ 1
  /-- A request that is answered has carried its statement out. -/
  answered : ∀ r, p = done (.ok r) → ∃ c x, l.filter (fun a => a.1.writes) = [⟨c, .ok x⟩]
  /-- A request that is answered with an error has changed nothing, or the error is that of its
  statement. -/
  failed : ∀ e, p = done (.error e) → changes = 0 ∨
    ∃ c, l.filter (fun a => a.1.writes) = [⟨c, .error e⟩]

/-! ### One statement -/

theorem Cmd.writes_of_quiet {c : Cmd} (h : c.quiet = true) : c.writes = false := by
  cases c <;> first | rfl | cases h

theorem AdminRequest.one_statement (op : AdminRequest) {l : Trail} {p : M Response} {n : ℕ}
    (h : Follows op.handle l p) (hn : n ≤ (l.filter fun a => a.1.writes).length) :
    AllOrNothing n l p := by
  have hlooks : ∀ c : Cmd, c.Looks → ¬ c.writes = true := by
    rintro c ⟨hq, -, -⟩ hw
    rw [Cmd.writes_of_quiet hq] at hw
    cases hw
  have hdrops : ∀ c : Cmd, c.Drops → ¬ c.writes = true := by
    rintro c ⟨keys, rfl⟩ hw
    cases hw
  have hstages := h.commits hlooks (fun _ hc => hc.2) hdrops op.handle_commits
  simp only [Bool.decide_eq_true] at hstages
  rcases hstages with ⟨hnone, hp⟩ | ⟨c, e, hone, rfl⟩ | ⟨c, x, hone, hp⟩
  · rw [hnone] at hn
    refine ⟨hn.trans (Nat.zero_le 1), ?_, fun e _ => .inl (Nat.le_zero.mp hn)⟩
    rintro r rfl
    obtain ⟨e, he⟩ := hp
    cases he
  · rw [hone] at hn
    refine ⟨hn, nofun, ?_⟩
    intro e' he
    cases he
    exact .inr ⟨c, hone⟩
  · rw [hone] at hn
    refine ⟨hn, fun r _ => ⟨c, x, hone⟩, ?_⟩
    rintro e rfl
    obtain ⟨a, ha⟩ := hp
    cases ha

section Run
variable {σ A : Type} (api : StripeApi σ A)

theorem exec_db_of_not_writes {c : Cmd} (h : c.writes = false) (w : World σ) :
    (World.exec api c w).2.db = w.db := by
  cases c with
  | sessionsCreate params => rfl
  | _ => first | exact World.exec_quiet api rfl w | cases h

/-- A step that changes the database is the statement of its process. -/
theorem step_writes {p q : Pool Cmd Cmd.Reply Err (World σ) Request Response} {i : ℕ}
    {o : Outcome Err} (hact : (serviceSystem api).act (.step i o) p = some q)
    (hdb : q.state.db.toTables ≠ p.state.db.toTables) :
    ∃ a, (serviceSystem api).answers (.step i o) p = [(i, a)] ∧ a.1.writes = true := by
  obtain ⟨op, c, k, out, -, hout, rfl, hanswers⟩ := act_step _ hact
  refine ⟨⟨c, out.1⟩, hanswers, ?_⟩
  by_contra hquiet
  refine hdb (congrArg Db.toTables ?_)
  rcases finish_state _ hout with hs | hs
  · exact congrArg World.db hs
  · exact (congrArg World.db hs).trans
      (exec_db_of_not_writes api (Bool.eq_false_iff.mpr hquiet) p.state)

/-- The database changes no more often than statements are issued. -/
theorem dbChanges_le (i : ℕ) (xs : List (Choice Err Request (Env A)))
    (p : Pool Cmd Cmd.Reply Err (World σ) Request Response) : dbChanges api i xs p ≤
      ((own i ((serviceSystem api).trace xs p)).filter fun a => a.1.writes).length := by
  induction xs generalizing p with
  | nil => exact Nat.zero_le _
  | cons x xs ih =>
    simp only [dbChanges, trace]
    cases hact : (serviceSystem api).act x p with
    | none => exact Nat.zero_le _
    | some q =>
      simp only [own_append, List.filter_append, List.length_append]
      refine Nat.add_le_add ?_ (ih q)
      cases x with
      | spawn op => exact Nat.zero_le _
      | env e => exact Nat.zero_le _
      | step j o =>
        dsimp only
        split_ifs with hchange
        · obtain ⟨rfl, hdb⟩ := hchange
          obtain ⟨a, hanswers, hwrites⟩ := step_writes api hact hdb
          simp [hanswers, own, hwrites]
        · exact Nat.zero_le _

/-- **An admin request is all or nothing**, whatever runs beside it and whichever of its commands
is lost or is carried out unseen. -/
theorem administration_all_or_nothing (w : World σ) {xs : List (Choice Err Request (Env A))}
    {q : Pool Cmd Cmd.Reply Err (World σ) Request Response}
    (hx : (serviceSystem api).schedule xs ⟨w, []⟩ = some q) {i : ℕ} {op : AdminRequest}
    {p : M Response} (hi : q.procs[i]? = some (.admin op, p)) :
    AllOrNothing (dbChanges api i xs ⟨w, []⟩) (own i ((serviceSystem api).trace xs ⟨w, []⟩)) p :=
  op.one_statement ((onPath hx).follows i _ p hi) (dbChanges_le api i xs _)

end Run

/-- An admin adds a hall, and the cached list of halls cannot be dropped. -/
def hallAdded : List (Choice Err Request (Env Account.Action)) :=
  [.spawn (.admin (.createHall ⟨"Hall 2", 1, 2⟩)), .step 0 .answered,
    .step 0 (.lost .unreachable)]

/-- The hall is there, and the admin is told so. -/
theorem hallAdded_whole : ∃ q op p, (serviceSystem testMode).schedule hallAdded ⟨theatre, []⟩ =
    some q ∧ q.procs[0]? = some (.admin op, p) ∧ p.finished = true ∧
      AllOrNothing 1 (own 0 ((serviceSystem testMode).trace hallAdded ⟨theatre, []⟩)) p := by
  have hrun : ((serviceSystem testMode).schedule hallAdded ⟨theatre, []⟩).any fun q =>
      q.procs[0]?.any fun
        | (.admin _, p) => p.finished
        | (.booking _, _) => false := by decide +kernel
  have hone : dbChanges testMode 0 hallAdded ⟨theatre, []⟩ = 1 := by decide +kernel
  obtain ⟨q, hq, hrun⟩ := (Option.any_eq_true _ _).mp hrun
  obtain ⟨⟨op, p⟩, hp, hfinished⟩ := (Option.any_eq_true _ _).mp hrun
  cases op with
  | booking op => cases hfinished
  | admin op =>
    refine ⟨q, op, p, hq, hp, hfinished, ?_⟩
    rw [← hone]
    exact administration_all_or_nothing testMode theatre hq hp

end MovieReservation
