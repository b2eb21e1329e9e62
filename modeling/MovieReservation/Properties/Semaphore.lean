import Mathlib.Data.Finset.Card
import MovieReservation.Effects
import MovieReservation.Services.Paths
import MovieReservation.Services.TestMode

/-! The reservation semaphore. Reserve calls run side by side, any command that leaves the
server may fail with any error, and in between anything else may happen that leaves the
semaphore alone; its counter is the number of the calls that hold a permit. -/

namespace MovieReservation

open Lib Lib.Prog Lib.System

variable {σ A : Type}

/-! ### The system -/

/-- Commands that leave the server. -/
def Cmd.leaves : Cmd → Bool
  | .dateNow | .emit _ | .emitToRoom _ _ | .emitToUser _ _ _ | .acquire | .release => false
  | _ => true

/-- Commands that leave the semaphore alone. -/
def Cmd.Bare (c : Cmd) : Prop := c ≠ .acquire ∧ c ≠ .release

theorem exec_bare (api : StripeApi σ A) {c : Cmd} (h : c.Bare) (w : World σ) :
    (World.exec api c w).2.active = w.active ∧ (World.exec api c w).2.limit = w.limit := by
  have hcommit : ∀ {α : Type} (r : Except Err (α × Db)),
      (w.commit r).2.active = w.active ∧ (w.commit r).2.limit = w.limit := by
    intro α r
    rw [w.commit_frame r]
    exact ⟨rfl, rfl⟩
  cases c with
  | acquire => exact absurd rfl h.1
  | release => exact absurd rfl h.2
  | paymentFindById id => cases id <;> exact ⟨rfl, rfl⟩
  | paymentFindByStripePaymentId i => cases i <;> exact ⟨rfl, rfl⟩
  | paymentUpdate id d => cases id <;> first | exact ⟨rfl, rfl⟩ | exact hcommit _
  | _ => first | exact ⟨rfl, rfl⟩ | exact hcommit _

/-- A move of anything else: only `reserve` has the semaphore. -/
structure Elsewhere (σ : Type) where
  act : World σ → World σ
  active_kept : ∀ w, (act w).active = w.active
  limit_kept : ∀ w, (act w).limit = w.limit

def reserveSystem (api : StripeApi σ A) : System Cmd Cmd.Reply Err (World σ)
    (ℕ × CreateReservationDto) (Elsewhere σ) Reservation where
  exec _ := World.exec api
  ready _ _ _ := true
  fault c _ := c.leaves
  env e := e.act
  handler op := ReservationsService.reserve op.1 op.2

/-- Any command of anything else. -/
def Elsewhere.command (api : StripeApi σ A) (c : Cmd) (h : c.Bare) : Elsewhere σ where
  act w := (World.exec api c w).2
  active_kept w := (exec_bare api h w).1
  limit_kept w := (exec_bare api h w).2

/-! ### Who holds a permit -/

def acquires : Answer Cmd Cmd.Reply Err → Bool
  | ⟨.acquire, .ok _⟩ => true
  | _ => false

def releases : Answer Cmd Cmd.Reply Err → Bool
  | ⟨.release, _⟩ => true
  | _ => false

/-- The call was given a permit and has not given it back. -/
def Holding (l : Trail) : Prop := Since (fun a => acquires a) (fun a => releases a) l

instance (l : Trail) : Decidable (Holding l) := inferInstanceAs (Decidable (Since _ _ l))

/-- The calls, of the first `n`, that are between `acquire` and `release`. -/
def holders (tr : Log) (n : ℕ) : Finset ℕ := (Finset.range n).filter fun i => Holding (own i tr)

/-- The semaphore after the answers `tr`, in the pool that they led to. -/
structure PermitsExact (api : StripeApi σ A) (limit : ℕ) (tr : Log)
    (p : Pool Cmd Cmd.Reply Err (World σ) (ℕ × CreateReservationDto) Reservation) : Prop where
  counted : p.state.active = (holders tr p.procs.length).card
  bounded : p.state.active ≤ limit
  /-- The counter is at 0 when no call is in flight. -/
  idle : Quiescent p → p.state.active = 0
  /-- A permit is given back only while the counter is above 0. -/
  released : ∀ (i : ℕ) op k, p.procs[i]? = some (op, .call .release k) → 0 < p.state.active
  /-- The guard refuses exactly while all permits are held. -/
  refused : ∀ (i : ℕ) op k o out, p.procs[i]? = some (op, .call .acquire k) →
    (reserveSystem api).finish i .acquire p.state o = some out →
    (out.1 = .error underHeavyLoad ↔ (holders tr p.procs.length).card = limit)
  /-- What the guard throws is what the caller gets, and nothing is tried after it. -/
  raised : ∀ (i : ℕ) op k e, p.procs[i]? = some (op, .call .acquire k) →
    k (.error e) = .done (.error e)

/-! ### What a call knows -/

section Calls
variable {l : Trail}

theorem holding_snoc {a : Answer Cmd Cmd.Reply Err} :
    Holding (l ++ [a]) ↔ releases a = false ∧ (Holding l ∨ acquires a = true) := by
  rw [Holding, since_snoc, Bool.not_eq_true]
  rfl

theorem holding_bare {a : Answer Cmd Cmd.Reply Err} (h : a.1.Bare) :
    Holding (l ++ [a]) ↔ Holding l := by
  obtain ⟨c, r⟩ := a
  have hacquires : acquires ⟨c, r⟩ = false := by
    cases c <;> first | rfl | exact absurd rfl h.1
  have hreleases : releases ⟨c, r⟩ = false := by
    cases c <;> first | rfl | exact absurd rfl h.2
  simp [holding_snoc, hacquires, hreleases]

theorem holding_append_bare {l' : Trail} (h : ∀ a ∈ l', a.1.Bare) :
    Holding (l ++ l') ↔ Holding l := by
  induction l' using List.reverseRecOn with
  | nil => rw [List.append_nil]
  | append_singleton l' a ih =>
    rw [← List.append_assoc, holding_bare (h a (by simp)),
      ih fun b hb => h b (List.mem_append_left _ hb)]

theorem not_holding_bare (h : ∀ a ∈ l, a.1.Bare) : ¬ Holding l := by
  have hnil : ¬ Holding [] := not_since_nil
  rwa [← holding_append_bare h] at hnil

/-- A permit is asked for by a call without one, and given back by a call with one. -/
def PermitGround (l : Trail) : Cmd → Prop
  | .acquire => ¬ Holding l
  | .release => Holding l
  | _ => True

theorem permitGround_bare {c : Cmd} (h : c.Bare) : PermitGround l c := by
  cases c <;> first | trivial | exact absurd rfl h.1 | exact absurd rfl h.2

theorem holdSeat_bare (params : Db.HoldSeatParams) :
    Only Cmd.Bare (ReservationBreaker.holdSeat params) := by
  refine Only.tryCatch ((only_issue _).mpr ⟨nofun, nofun⟩) fun e => ?_
  split_ifs <;> trivial

theorem reserve_permits (u : ℕ) (dto : CreateReservationDto) :
    Informed PermitGround [] (ReservationsService.reserve u dto) := by
  unfold ReservationsService.reserve
  refine informed_issue_bind trivial fun lockedOut => informed_throwIf_bind fun _ => ?_
  refine informed_issue_bind trivial fun found => ?_
  cases found with
  | none => trivial
  | some screening =>
    refine informed_throwIf_bind fun _ => informed_issue_bind trivial fun t => ?_
    refine informed_throwIf_bind fun _ => informed_issue_bind trivial fun t' => ?_
    refine informed_issue_bind ?_ fun _ => ?_
    · exact not_holding_bare (by simp [Cmd.Bare])
    · refine Informed.bind ?_ fun r l' => informed_issue_bind trivial fun _ => trivial
      refine Informed.ensuring (Informed.of_only ?_) (holdSeat_bare _) fun l' hl' => ?_
      · exact (holdSeat_bare _).mono fun c hc l' => permitGround_bare hc
      · refine ⟨?_, fun _ => trivial⟩
        rw [PermitGround, holding_append_bare hl']
        exact holding_snoc.mpr ⟨rfl, .inr rfl⟩

/-- A call that has ended holds no permit. -/
theorem reserve_gives_back (u : ℕ) (dto : CreateReservationDto) :
    Yields (fun l _ => ¬ Holding l) [] (ReservationsService.reserve u dto) := by
  unfold ReservationsService.reserve
  refine yields_issue_bind (fun e => not_holding_bare (by simp [Cmd.Bare])) fun lockedOut => ?_
  refine yields_throwIf_bind (fun _ => not_holding_bare (by simp [Cmd.Bare])) fun _ => ?_
  refine yields_issue_bind (fun e => not_holding_bare (by simp [Cmd.Bare])) fun found => ?_
  cases found with
  | none => exact not_holding_bare (by simp [Cmd.Bare])
  | some screening =>
    refine yields_throwIf_bind (fun _ => not_holding_bare (by simp [Cmd.Bare])) fun _ => ?_
    refine yields_issue_bind (fun e => not_holding_bare (by simp [Cmd.Bare])) fun t => ?_
    refine yields_throwIf_bind (fun _ => not_holding_bare (by simp [Cmd.Bare])) fun _ => ?_
    refine yields_issue_bind (fun e => not_holding_bare (by simp [Cmd.Bare])) fun t' => ?_
    refine yields_issue_bind (fun e hholding => ?_) fun _ => ?_
    · refine not_holding_bare ?_ ((holding_snoc.mp hholding).2.resolve_right nofun)
      simp [Cmd.Bare]
    -- whatever holdSeat was answered, the permit is given back before anything else
    · refine Yields.bind (Only.yields_ensuring (I := fun l => ¬ Holding l) (holdSeat_bare _)
        fun l' hl' r hholding => ?_) (fun _ _ h => h) fun r l h => ?_
      · exact Bool.noConfusion (holding_snoc.mp hholding).1
      · have hemitted : ∀ (e : ReservationEvent) (x : Except Err Unit),
            ¬ Holding (l ++ [⟨.emit e, x⟩]) := fun e x =>
          (holding_bare (a := ⟨.emit e, x⟩) ⟨nofun, nofun⟩).not.mpr h
        exact yields_issue_bind (fun e => hemitted _ _) fun _ => hemitted _ _

theorem reserve_raises (u : ℕ) (dto : CreateReservationDto) :
    Uncaught (fun c => c = .acquire) (ReservationsService.reserve u dto) := by
  unfold ReservationsService.reserve
  refine uncaught_issue_bind fun lockedOut => uncaught_throwIf_bind ?_
  refine uncaught_issue_bind fun found => ?_
  cases found with
  | none => trivial
  | some screening =>
    refine uncaught_throwIf_bind (uncaught_issue_bind fun t => uncaught_throwIf_bind ?_)
    refine uncaught_issue_bind fun t' => uncaught_issue_bind fun _ => ?_
    refine Uncaught.bind (Only.uncaught ?_) fun r => uncaught_issue_bind fun _ => trivial
    exact Only.ensuring ((holdSeat_bare _).mono fun c hc => hc.1) ((only_issue _).mpr nofun)

end Calls

/-! ### One step -/

theorem Cmd.bare_cases (c : Cmd) : c = .acquire ∨ c = .release ∨ c.Bare := by
  by_cases hacquire : c = .acquire
  · exact .inl hacquire
  · by_cases hrelease : c = .release
    · exact .inr (.inl hrelease)
    · exact .inr (.inr ⟨hacquire, hrelease⟩)

section Steps
variable {api : StripeApi σ A} {tr : Log} {i n : ℕ}

theorem mem_holders {j : ℕ} : j ∈ holders tr n ↔ j < n ∧ Holding (own j tr) := by
  simp [holders]

/-- A call that is answered becomes a holder or not; the others stay what they are. -/
theorem mem_holders_snoc {j : ℕ} (a : Answer Cmd Cmd.Reply Err) :
    j ∈ holders (tr ++ [(i, a)]) n ↔
      if i = j then j < n ∧ Holding (own j tr ++ [a]) else j ∈ holders tr n := by
  rw [mem_holders, own_snoc]
  split_ifs with hij
  · rfl
  · rw [mem_holders]

theorem holders_insert (hi : i < n) {a : Answer Cmd Cmd.Reply Err}
    (h : Holding (own i tr ++ [a])) : holders (tr ++ [(i, a)]) n = insert i (holders tr n) := by
  ext j
  rw [mem_holders_snoc, Finset.mem_insert]
  split_ifs with hij
  · subst hij
    exact ⟨fun _ => .inl rfl, fun _ => ⟨hi, h⟩⟩
  · exact ⟨.inr, fun hj => hj.resolve_left (Ne.symm hij)⟩

theorem holders_erase {a : Answer Cmd Cmd.Reply Err} (h : ¬ Holding (own i tr ++ [a])) :
    holders (tr ++ [(i, a)]) n = (holders tr n).erase i := by
  ext j
  rw [mem_holders_snoc, Finset.mem_erase]
  split_ifs with hij
  · subst hij
    exact ⟨fun hj => absurd hj.2 h, fun hj => absurd rfl hj.1⟩
  · exact ⟨fun hj => ⟨Ne.symm hij, hj⟩, fun hj => hj.2⟩

theorem holders_bare {a : Answer Cmd Cmd.Reply Err} (h : a.1.Bare) :
    holders (tr ++ [(i, a)]) n = holders tr n := by
  ext j
  rw [mem_holders_snoc]
  split_ifs with hij
  · rw [holding_bare h, mem_holders]
  · rfl

/-- A command that stays in the server is answered. -/
theorem finish_inside {c : Cmd} (hc : c.leaves = false) {w : World σ} {o : Outcome Err}
    {out : Except Err (Cmd.Reply c) × World σ}
    (h : (reserveSystem api).finish i c w o = some out) : out = World.exec api c w := by
  cases o with
  | answered => exact (Option.some.inj h).symm
  | lost e => simp [System.finish, reserveSystem, hc] at h
  | unacknowledged e => simp [System.finish, reserveSystem, hc] at h

/-- The counter counts the holders, who are no more than the limit. -/
structure Balanced (limit : ℕ) (tr : Log)
    (p : Pool Cmd Cmd.Reply Err (World σ) (ℕ × CreateReservationDto) Reservation) : Prop where
  counted : p.state.active = (holders tr p.procs.length).card
  limited : p.state.limit = limit
  bounded : p.state.active ≤ limit

variable {limit : ℕ}
  {p : Pool Cmd Cmd.Reply Err (World σ) (ℕ × CreateReservationDto) Reservation}
  {op : ℕ × CreateReservationDto}

theorem permit_of_path {c : Cmd} {k : Except Err (Cmd.Reply c) → M Reservation}
    (hpath : OnPath (reserveSystem api) tr p) (hi : p.procs[i]? = some (op, .call c k)) :
    PermitGround (own i tr) c :=
  (reserve_permits op.1 op.2).path (hpath.follows i op _ hi)

theorem balanced_spawn (hpath : OnPath (reserveSystem api) tr p) (h : Balanced limit tr p)
    (op : ℕ × CreateReservationDto) :
    Balanced limit tr ⟨p.state, p.procs ++ [(op, (reserveSystem api).handler op)]⟩ := by
  have hholders : holders tr (p.procs.length + 1) = holders tr p.procs.length := by
    ext j
    rw [mem_holders, mem_holders]
    refine ⟨fun ⟨hj, hholding⟩ => ⟨?_, hholding⟩, fun ⟨hj, hholding⟩ => ⟨by omega, hholding⟩⟩
    -- the new call was answered nothing yet
    by_contra hlast
    have hnil : own j tr = [] := own_eq_nil fun a ha => by
      have := hpath.spawned a ha
      omega
    rw [hnil] at hholding
    exact not_since_nil hholding
  refine ⟨?_, h.limited, h.bounded⟩
  rw [List.length_append, List.length_singleton, hholders]
  exact h.counted

theorem balanced_acquire {k : Except Err Unit → M Reservation} {o : Outcome Err}
    {out : Except Err Unit × World σ} (hpath : OnPath (reserveSystem api) tr p)
    (h : Balanced limit tr p) (hi : p.procs[i]? = some (op, .call .acquire k))
    (hout : (reserveSystem api).finish i .acquire p.state o = some out) :
    Balanced limit (tr ++ [(i, ⟨.acquire, out.1⟩)]) ⟨out.2, p.procs.set i (op, k out.1)⟩ := by
  have hlt : i < p.procs.length := (List.getElem?_eq_some_iff.mp hi).1
  have hfree : i ∉ holders tr p.procs.length := fun hmem =>
    permit_of_path hpath hi (mem_holders.mp hmem).2
  obtain rfl := finish_inside rfl hout
  by_cases hfull : p.state.limit ≤ p.state.active
  · have hnot : ¬ Holding (own i tr ++ [⟨.acquire, (World.exec api .acquire p.state).1⟩]) := by
      simp only [World.exec, if_pos hfull, holding_snoc, acquires, Bool.false_eq_true, or_false]
      exact fun hholding => permit_of_path hpath hi hholding.2
    refine ⟨?_, ?_, ?_⟩
    · rw [List.length_set, holders_erase hnot, Finset.erase_eq_of_notMem hfree]
      simpa only [World.exec, if_pos hfull] using h.counted
    · simpa only [World.exec, if_pos hfull] using h.limited
    · simpa only [World.exec, if_pos hfull] using h.bounded
  · have hholding : Holding (own i tr ++ [⟨.acquire, (World.exec api .acquire p.state).1⟩]) := by
      simp only [World.exec, if_neg hfull]
      exact holding_snoc.mpr ⟨rfl, .inr rfl⟩
    refine ⟨?_, ?_, ?_⟩
    · rw [List.length_set, holders_insert hlt hholding, Finset.card_insert_of_notMem hfree]
      simpa only [World.exec, if_neg hfull] using congrArg (· + 1) h.counted
    · simpa only [World.exec, if_neg hfull] using h.limited
    · have hlimited := h.limited
      simp only [World.exec, if_neg hfull]
      omega

theorem balanced_release {k : Except Err Unit → M Reservation} {o : Outcome Err}
    {out : Except Err Unit × World σ} (hpath : OnPath (reserveSystem api) tr p)
    (h : Balanced limit tr p) (hi : p.procs[i]? = some (op, .call .release k))
    (hout : (reserveSystem api).finish i .release p.state o = some out) :
    Balanced limit (tr ++ [(i, ⟨.release, out.1⟩)]) ⟨out.2, p.procs.set i (op, k out.1)⟩ := by
  have hlt : i < p.procs.length := (List.getElem?_eq_some_iff.mp hi).1
  have hmem : i ∈ holders tr p.procs.length := mem_holders.mpr ⟨hlt, permit_of_path hpath hi⟩
  obtain rfl := finish_inside rfl hout
  have hnot : ¬ Holding (own i tr ++ [⟨.release, (World.exec api .release p.state).1⟩]) :=
    fun hholding => Bool.noConfusion (holding_snoc.mp hholding).1
  refine ⟨?_, h.limited, (Nat.sub_le _ _).trans h.bounded⟩
  rw [List.length_set, holders_erase hnot, Finset.card_erase_of_mem hmem, ← h.counted]
  rfl

theorem balanced_bare {c : Cmd} (hc : c.Bare) {k : Except Err (Cmd.Reply c) → M Reservation}
    {o : Outcome Err} {out : Except Err (Cmd.Reply c) × World σ} (h : Balanced limit tr p)
    (hout : (reserveSystem api).finish i c p.state o = some out) :
    Balanced limit (tr ++ [(i, ⟨c, out.1⟩)]) ⟨out.2, p.procs.set i (op, k out.1)⟩ := by
  have hkept : out.2.active = p.state.active ∧ out.2.limit = p.state.limit := by
    rcases finish_state _ hout with hstate | hstate
    · rw [hstate]
      exact ⟨rfl, rfl⟩
    · rw [hstate]
      exact exec_bare api hc p.state
  refine ⟨?_, hkept.2.trans h.limited, hkept.1.le.trans h.bounded⟩
  rw [List.length_set, holders_bare hc]
  exact hkept.1.trans h.counted

theorem balanced_act {x : Choice Err (ℕ × CreateReservationDto) (Elsewhere σ)}
    {q : Pool Cmd Cmd.Reply Err (World σ) (ℕ × CreateReservationDto) Reservation}
    (hpath : OnPath (reserveSystem api) tr p) (h : Balanced limit tr p)
    (hq : (reserveSystem api).act x p = some q) :
    Balanced limit (tr ++ (reserveSystem api).answers x p) q := by
  cases x with
  | spawn op =>
    cases hq
    simpa [answers] using balanced_spawn hpath h op
  | env e =>
    cases hq
    have hkept : Balanced limit tr ⟨(reserveSystem api).env e p.state, p.procs⟩ :=
      ⟨(e.active_kept _).trans h.counted, (e.limit_kept _).trans h.limited,
        (e.active_kept _).le.trans h.bounded⟩
    simpa [answers] using hkept
  | step i o =>
    obtain ⟨op, c, k, out, hi, hout, rfl, hans⟩ := act_step _ hq
    rw [hans]
    rcases c.bare_cases with rfl | rfl | hc
    · exact balanced_acquire hpath h hi hout
    · exact balanced_release hpath h hi hout
    · exact balanced_bare hc h hout

/-! ### Every run -/

theorem PermitsExact.of_balanced (hpath : OnPath (reserveSystem api) tr p)
    (h : Balanced limit tr p) : PermitsExact api limit tr p where
  counted := h.counted
  bounded := h.bounded
  idle := by
    intro hquiescent
    rw [h.counted, Finset.card_eq_zero, Finset.eq_empty_iff_forall_notMem]
    intro i hmem
    obtain ⟨hlt, hholding⟩ := mem_holders.mp hmem
    obtain ⟨⟨op, q⟩, hproc⟩ : ∃ x, p.procs[i] = x := ⟨_, rfl⟩
    have hfinished : q.finished := by
      have := hquiescent _ (List.getElem_mem hlt)
      rwa [hproc] at this
    have hfollows := hpath.follows i op q (by rw [List.getElem?_eq_getElem hlt, hproc])
    cases q with
    | done r => exact (reserve_gives_back op.1 op.2).path hfollows hholding
    | call c k => exact absurd hfinished (by simp [Prog.finished])
  released := by
    intro i op k hi
    rw [h.counted, Finset.card_pos]
    exact ⟨i, mem_holders.mpr ⟨(List.getElem?_eq_some_iff.mp hi).1, permit_of_path hpath hi⟩⟩
  refused := by
    intro i op k o out hi hout
    obtain rfl := finish_inside rfl hout
    have hcounted := h.counted
    have hlimited := h.limited
    have hbounded := h.bounded
    by_cases hfull : p.state.limit ≤ p.state.active
    · simp only [World.exec, if_pos hfull]
      exact ⟨fun _ => by omega, fun _ => rfl⟩
    · simp only [World.exec, if_neg hfull]
      refine ⟨fun herror => ?_, fun _ => by omega⟩
      cases herror
  raised := by
    intro i op k e hi
    exact ((hpath.follows i op _ hi).uncaught (reserve_raises op.1 op.2)).1 rfl e

end Steps

/-- However the calls interleave with each other and with everything else, and however their
commands end, no permit is lost, given back twice or given beyond the limit. -/
theorem permits_exact (api : StripeApi σ A) (w : World σ) (hw : w.active = 0)
    (xs : List (Choice Err (ℕ × CreateReservationDto) (Elsewhere σ)))
    (p : Pool Cmd Cmd.Reply Err (World σ) (ℕ × CreateReservationDto) Reservation)
    (hx : (reserveSystem api).schedule xs ⟨w, []⟩ = some p) :
    PermitsExact api w.limit ((reserveSystem api).trace xs ⟨w, []⟩) p := by
  have hstart : Balanced w.limit [] (⟨w, []⟩ : Pool Cmd Cmd.Reply Err (World σ) _ _) :=
    ⟨by simp [hw, holders], rfl, by simp [hw]⟩
  obtain ⟨hpath, hcounted⟩ := stages_rule (B := fun _ _ _ => True)
    (fun tr p x q hpath h _ hq => balanced_act hpath h hq) xs (onPath_empty w) hstart hx
    (allStages_of_forall _ (fun _ _ _ => trivial) xs [] _)
  exact .of_balanced hpath hcounted

/-- One permit and two calls: the second comes while the first waits for the database, whose
answer is lost. -/
def rush : List (Choice Err (ℕ × CreateReservationDto) (Elsewhere Account)) :=
  [.spawn (1, ⟨1, 1⟩), .spawn (2, ⟨1, 2⟩)] ++ solo 0 5 ++ solo 1 5 ++
    [.env (.command testMode (.movieDelete 1) ⟨nofun, nofun⟩), .step 0 (.unacknowledged .stripe),
      .step 0 .answered]

theorem rush_exact : ∃ p, (reserveSystem testMode).schedule rush ⟨{ theatre with limit := 1 }, []⟩ =
      some p ∧
    PermitsExact testMode 1
      ((reserveSystem testMode).trace rush ⟨{ theatre with limit := 1 }, []⟩) p := by
  have hrush : ((reserveSystem testMode).schedule rush
      ⟨{ theatre with limit := 1 }, []⟩).isSome := by decide +kernel
  obtain ⟨p, hp⟩ := Option.isSome_iff_exists.mp hrush
  exact ⟨p, hp, permits_exact testMode { theatre with limit := 1 } (by decide +kernel) rush p hp⟩

end MovieReservation
