import MovieReservation.Properties.LiveSeats
import MovieReservation.Properties.SeatMapRaces
import MovieReservation.Services.Gateway

/-! Clients that enter the room of a screening. The handler takes the seat map, then the
summary, and enters the room last: a change that commits in between is neither in the map
that it acknowledges nor told to it. A client that no change of the screening overtakes in
this way has, from then on, the map that the database gives. -/

namespace MovieReservation

open Lib Lib.Prog Lib.System Lib.Table

/-- The answers to one handler. -/
abbrev JoinTrail := List (Answer GatewayCmd GatewayReply Err)

abbrev JoinLog := List (ℕ × Answer GatewayCmd GatewayReply Err)

abbrev JoinPool (σ : Type) :=
  Pool GatewayCmd GatewayReply Err (Hub σ) (Option ℤ) JoinScreeningResult

/-! ### The window -/

/-- A copy of the screening's map, or the reservations that one is computed of. -/
def Shows (s : ℕ) : Answer Cmd Cmd.Reply Err → Prop
  | ⟨.cacheGet (.seatMap s'), .ok (some _)⟩ => s' = s
  | ⟨.findActiveReservations s', _⟩ => s' = s
  | _ => False

instance (s : ℕ) : DecidablePred (Shows s) := fun a => by
  unfold Shows
  split <;> infer_instance

/-- The handler has entered no room yet. -/
def Outside (l : JoinTrail) : Prop := ∀ a ∈ l, a.1.isLeft

/-- The handler has seen the seats of the screening, and has not entered its room. -/
def InWindow (s : ℕ) (l : JoinTrail) : Prop := Outside l ∧ ∃ a ∈ lefts l, Shows s a

instance (l : JoinTrail) : Decidable (Outside l) :=
  inferInstanceAs (Decidable (∀ a ∈ l, a.1.isLeft = true))

instance (s : ℕ) (l : JoinTrail) : Decidable (InWindow s l) :=
  inferInstanceAs (Decidable (Outside l ∧ ∃ a ∈ lefts l, Shows s a))

section Window
variable {σ A : Type}

/-- A change of the screening's seats finds no handler that has seen them and not entered
the room, and a decline finds nobody else on the seat that it gives up. -/
def NotOvertaken (s : ℕ) (tr : JoinLog) (x : Choice Err (Option ℤ) (HubEnv A)) (p : JoinPool σ) :
    Prop :=
  match x with
  | .env (.change x) => x.cmd.Clear s p.state.world.db ∧
    ((∃ a ∈ tr, InWindow s (own a.1 tr)) →
      (p.state.world.change x).db.freshSeatMap s = p.state.world.db.freshSeatMap s)
  | _ => True

instance (s : ℕ) (tr : JoinLog) (x : Choice Err (Option ℤ) (HubEnv A)) (p : JoinPool σ) :
    Decidable (NotOvertaken s tr x p) := by
  unfold NotOvertaken
  split
  · exact inferInstanceAs (Decidable (_ ∧ _))
  · infer_instance

/-- The map that a handler acknowledged to a client of the screening. -/
def acknowledged (s : ℕ) : Option ℤ × G JoinScreeningResult → Option (List SeatMapEntry)
  | (some n, .done (.ok (.joined seats _))) => if n = s then some seats else none
  | _ => none

/-- Every client that was acknowledged the screening's map has the map of the database,
once it has applied what was sent to the room since it entered. -/
def UpToDate (s : ℕ) (p : JoinPool σ) : Prop :=
  ∀ i < p.procs.length, ∀ x ∈ p.procs[i]?, ∀ seats ∈ acknowledged s x,
    ∃ y ∈ p.state.members, y.client = i ∧ y.screeningId = s ∧
      p.state.world.db.freshSeatMap s =
        some (replica s (p.state.world.rooms.drop y.since) seats)

instance (s : ℕ) (p : JoinPool σ) : Decidable (UpToDate s p) :=
  inferInstanceAs (Decidable (∀ i < p.procs.length, ∀ x ∈ p.procs[i]?, ∀ seats ∈ acknowledged s x,
    ∃ y ∈ p.state.members, y.client = i ∧ y.screeningId = s ∧
      p.state.world.db.freshSeatMap s =
        some (replica s (p.state.world.rooms.drop y.since) seats)))

theorem acknowledged_eq {s : ℕ} {x : Option ℤ × G JoinScreeningResult} {seats : List SeatMapEntry}
    (h : acknowledged s x = some seats) :
    ∃ summary, x = (some (s : ℤ), .done (.ok (.joined seats summary))) := by
  unfold acknowledged at h
  split at h
  · split_ifs at h with hs
    cases h
    exact ⟨_, by rw [hs]⟩
  · cases h

end Window

/-! ### The handler -/

/-- The map was found in the cache or computed. -/
def Acked (s : ℕ) (m : List SeatMapEntry) (l : Trail) : Prop :=
  ⟨.cacheGet (.seatMap s), .ok (some m)⟩ ∈ l ∨ ∃ l', l' <+: l ∧ Computed s m l'

theorem Acked.append {s : ℕ} {m : List SeatMapEntry} {l : Trail} (h : Acked s m l) (l' : Trail) :
    Acked s m (l ++ l') := by
  rcases h with h | ⟨l₀, hle, hm⟩
  · exact .inl (List.mem_append_left _ h)
  · exact .inr ⟨l₀, hle.trans (List.prefix_append _ _), hm⟩

theorem Acked.shows {s : ℕ} {m : List SeatMapEntry} {l : Trail} (h : Acked s m l) :
    ∃ a ∈ l, Shows s a := by
  rcases h with h | ⟨_, hle, l₀, screening, seats, rs, rfl, -⟩
  · exact ⟨_, h, rfl⟩
  · exact ⟨_, hle.subset (List.mem_append_right _ (List.mem_singleton_self _)), rfl⟩

theorem getSeatMap_acked (s : ℕ) (l : Trail) :
    Yields (fun l r => ∀ m, r = .ok m → Acked s m l) l (ScreeningsService.getSeatMap s) := by
  have hcopy : Yields (fun l r => ∀ m, r = .ok (some m) →
      ⟨.cacheGet (.seatMap s), .ok (some m)⟩ ∈ l) l (ScreeningsCache.getSeatMap s) := by
    intro r
    cases r with
    | error e => exact nofun
    | ok cached =>
      intro m hm
      rw [← Except.ok.inj hm]
      exact List.mem_append_right _ (List.mem_singleton_self _)
  unfold ScreeningsService.getSeatMap
  refine hcopy.bind (fun _ _ _ => nofun) fun cached l hcached => ?_
  cases cached with
  | some m => exact fun m' hm' => Except.ok.inj hm' ▸ .inl (hcached m rfl)
  | none =>
    refine yields_issue_bind (fun _ => nofun) fun found => ?_
    cases found with
    | none => exact nofun
    | some screening =>
      dsimp only
      unfold throwIf
      split_ifs with hst
      · exact nofun
      refine yields_issue_bind (fun _ => nofun) fun seats => ?_
      refine yields_issue_bind (fun _ => nofun) fun rs => ?_
      have hmade : Acked s (ScreeningsService.seatMap seats rs)
          (l ++ [⟨.screeningFindById s, .ok (some screening)⟩] ++
            [⟨.findSeatsByHall screening.hallId, .ok seats⟩] ++
              [⟨.findActiveReservations s, .ok rs⟩]) :=
        .inr ⟨_, List.prefix_refl _, _, screening, seats, rs, rfl, by simp, by simp, hst, rfl⟩
      have hset : Only (fun _ => True) (ScreeningsCache.setSeatMap s
          (ScreeningsService.seatMap seats rs)) := Only.tryCatch ⟨trivial, fun _ => trivial⟩
        fun _ => trivial
      refine (hset.yields (I := Acked s _) (fun l a _ h => h.append [a]) hmade).bind
        (fun _ _ _ => nofun) fun _ l h => ?_
      exact fun m hm => Except.ok.inj hm ▸ h

theorem outside_nil : Outside [] := List.forall_mem_nil _

theorem Outside.snoc {l : JoinTrail} (h : Outside l) (c : Cmd) (r : Except Err c.Reply) :
    Outside (l ++ [⟨.inl c, r⟩]) := by
  intro a ha
  rcases List.mem_append.mp ha with ha | ha
  · exact h a ha
  · rw [List.mem_singleton.mp ha]
    rfl

/-- A handler enters the room of its screening last, and only fills the cache before. -/
def Joining (op : Option ℤ) (l : JoinTrail) : GatewayCmd → Prop
  | .inl c => Outside l ∧ Filled (lefts l) c ∧ c.mute = true
  | .inr (.join s) => Outside l ∧ op = some (s : ℤ)

theorem handleJoin_joining (op : Option ℤ) :
    Informed (Joining op) [] (ScreeningGateway.handleJoin op) := by
  cases op with
  | none => trivial
  | some n =>
    change Informed _ _ (ite _ _ _)
    split_ifs with hn
    · trivial
    have hknown : ∀ (s : ℕ) (l : Trail), Informed (fun l c => Filled l c ∧ c.mute = true) l
        (ScreeningsService.getSeatMap s) := fun s l =>
      (getSeatMap_filled s l).and (.of_only ((getSeatMap_mute s).mono fun _ h _ => h))
    refine Informed.tryCatch ?_ fun e l => by cases e <;> trivial
    refine Informed.left_bind (I := Outside) (fun l c r h => h.snoc c r)
      (fun l c hl hc => ⟨hl, hc⟩) (hknown _ _) outside_nil fun seats l₁ h₁ => ?_
    refine Informed.left_bind (I := Outside) (fun l c r h => h.snoc c r)
      (fun l c hl hc => ⟨hl, hc⟩) ((hknown _ _).bind fun _ _ => trivial) h₁ fun summary l₂ h₂ => ?_
    refine ⟨⟨h₂, ?_⟩, fun r => by cases r <;> trivial⟩
    rw [Int.toNat_of_nonneg (by omega)]

/-- A client that was acknowledged a map is in the room. -/
def InRoom (s : ℕ) (l : JoinTrail) (r : Except Err JoinScreeningResult) : Prop :=
  ∀ seats summary, r = .ok (.joined seats summary) →
    Acked s seats (lefts l) ∧ ⟨.inr (.join s), .ok ()⟩ ∈ l

theorem handleJoin_inRoom (s : ℕ) :
    Yields (InRoom s) [] (ScreeningGateway.handleJoin (some (s : ℤ))) := by
  change Yields _ _ (ite _ _ _)
  split_ifs with hn
  · intro seats summary h
    cases h
  refine Yields.tryCatch (show Yields (InRoom s) _ _ from ?_) (fun l a h => h) fun e l _ => by
    cases e <;> exact nofun
  rw [Int.toNat_natCast]
  refine (Yields.left (getSeatMap_acked s _)).bind (fun _ _ _ => nofun) fun seats l hseats => ?_
  have hacked : Acked s seats (lefts l) := hseats seats rfl
  have hall : Only (fun _ => True)
      (left (ScreeningsService.getScreeningSummary s) : G ScreeningSummary) :=
    Only.left (fun _ _ => trivial) (getScreeningSummary_quiet s)
  refine (hall.yields (I := fun l => Acked s seats (lefts l)) (fun l a _ h => ?_) hacked).bind
    (fun _ _ _ => nofun) fun summary l h r => ?_
  · rw [lefts_append]
    exact h.append _
  cases r with
  | error e => exact nofun
  | ok _ =>
    intro seats' summary' heq
    cases heq
    refine ⟨?_, List.mem_append_right _ (List.mem_singleton_self _)⟩
    rw [lefts_inr]
    exact h

/-! ### Every run -/

/-- What a handler was shown of the screening is what would be shown now. -/
def Truthful (s : ℕ) (db : Db) : Answer Cmd Cmd.Reply Err → Prop
  | ⟨.cacheGet (.seatMap s'), .ok (some m)⟩ => s' = s → db.freshSeatMap s = some m
  | ⟨.findActiveReservations s', .ok reservations⟩ => s' = s →
    ∀ screening ∈ db.screeningFindById s, screening.status ≠ .cancelled →
      db.freshSeatMap s =
        some (ScreeningsService.seatMap (db.findSeatsByHall screening.hallId) reservations)
  | _ => True

section Truthful
variable {σ A : Type} {api : StripeApi σ A} {s : ℕ} {db db' : Db} {a : Answer Cmd Cmd.Reply Err}

theorem truthful_of_not_shows (h : ¬ Shows s a) : Truthful s db a := by
  unfold Truthful
  split
  · exact fun hs => absurd hs h
  · exact fun hs => absurd hs h
  · trivial

theorem Truthful.congr (h : Truthful s db a) (hplan : db.SamePlan db')
    (hfresh : db'.freshSeatMap s = db.freshSeatMap s) : Truthful s db' a := by
  have hfound : db'.screeningFindById s = db.screeningFindById s := by
    simp only [Db.screeningFindById, hplan.screenings, hplan.movies, hplan.halls]
  have hseats : db'.findSeatsByHall = db.findSeatsByHall := by
    funext hallId
    simp only [Db.findSeatsByHall, hplan.seats]
  unfold Truthful at h ⊢
  split
  · exact fun hs => hfresh.trans (h hs)
  · intro hs screening hscreening hst
    rw [hfresh, hseats]
    rw [hfound] at hscreening
    exact h hs screening hscreening hst
  · trivial

theorem truthful_exec {w : World σ} (h : Current s w) (c : Cmd) :
    Truthful s w.db ⟨c, (World.exec api c w).1⟩ := by
  cases c with
  | cacheGet k =>
    cases k with
    | seatMap s' =>
      simp only [World.exec]
      cases hm : w.redis.cache (.seatMap s') with
      | none => trivial
      | some m =>
        rintro rfl
        exact h m hm
    | _ => trivial
  | findActiveReservations s' =>
    rintro rfl screening hscreening hst
    simp only [Db.freshSeatMap, Option.mem_def.mp hscreening, Option.bind_eq_bind,
      Option.bind_some, if_neg hst]
  | _ => trivial

theorem Acked.fresh {db₀ : Db} {l : Trail} {m : List SeatMapEntry} (h : Acked s m l)
    (hplanned : ∀ a ∈ l, Planned db₀ a) (hplan : db₀.SamePlan db)
    (htrue : ∀ a ∈ l, Truthful s db a) : db.freshSeatMap s = some m := by
  rcases h with h | ⟨l', hle, hm⟩
  · exact htrue _ h rfl
  · obtain ⟨screening, rs, hlast, hfound, hst, rfl⟩ :=
      hm.of_plan (fun a ha => hplanned a (hle.subset ha)) hplan
    exact htrue _ (hle.subset (List.mem_of_getLast? hlast)) rfl screening hfound hst

end Truthful

section Changes
variable {σ : Type} {s : ℕ}

/-- A change as the screening sees it: its cached map is dropped, or nothing was told. -/
theorem change_cases (x : Change) (w : World σ) :
    w.change x = w ∨ ∃ es db sent, Move x.cmd w.db es db ∧
      sent = es.flatMap ReservationEvent.delta ∧
      w.change x = { w with
        db, redis := w.redis.del (sent.map fun m => .seatMap m.1), rooms := w.rooms ++ sent } := by
  unfold World.change
  cases h : x.commit w.db with
  | none => exact .inl rfl
  | some out => exact .inr ⟨out.1, out.2, _, Change.commit_move h, rfl, rfl⟩

theorem change_plan (x : Change) (w : World σ) : w.db.SamePlan (w.change x).db := by
  rcases change_cases x w with h | ⟨es, db, sent, hmove, -, h⟩
  · rw [h]
    exact .refl _
  · rw [h]
    exact hmove.samePlan

theorem change_current {x : Change} {w : World σ} (hc : x.cmd.Clear s w.db) (h : Current s w) :
    Current s (w.change x) := by
  rcases change_cases x w with hx | ⟨es, db, sent, hmove, rfl, hx⟩
  · rw [hx]
    exact h
  · rw [hx]
    intro m hm
    simp only [Redis.del] at hm
    split_ifs at hm with hdel
    · cases hm
    have hsilent : changesIn s (es.flatMap ReservationEvent.delta) = [] := by
      refine List.filterMap_eq_nil_iff.mpr fun y hy => if_neg fun hs => hdel ?_
      exact List.mem_map.mpr ⟨y, hy, by rw [hs]⟩
    have hst := hmove.exact hc
    rw [hsilent, Delta.replay_nil] at hst
    exact (hmove.freshSeatMap hst).trans (h m hm)

/-- What the rooms are told of a change takes the map before it to the map after it. -/
theorem change_replica {x : Change} {w : World σ} (hc : x.cmd.Clear s w.db) {n : ℕ}
    (hn : n ≤ w.rooms.length) {m : List SeatMapEntry}
    (h : w.db.freshSeatMap s = some (replica s (w.rooms.drop n) m)) :
    n ≤ (w.change x).rooms.length ∧
      (w.change x).db.freshSeatMap s = some (replica s ((w.change x).rooms.drop n) m) := by
  rcases change_cases x w with hx | ⟨es, db, sent, hmove, rfl, hx⟩
  · rw [hx]
    exact ⟨hn, h⟩
  · rw [hx]
    refine ⟨hn.trans (by simp), ?_⟩
    rw [List.drop_append_of_le_length hn, replica_append]
    exact hmove.replica hc h

end Changes

section Invariant
variable {σ A : Type} {api : StripeApi σ A} {s : ℕ} {w : World σ} {tr : JoinLog} {p q : JoinPool σ}

/-- What holds while clients enter the room and its screening changes. -/
structure RoomKept (s : ℕ) (w : World σ) (tr : JoinLog) (p : JoinPool σ) : Prop where
  plan : w.db.SamePlan p.state.world.db
  planned : ∀ i, ∀ a ∈ lefts (own i tr), Planned w.db a
  current : Current s p.state.world
  window : ∀ i, InWindow s (own i tr) → ∀ a ∈ lefts (own i tr), Truthful s p.state.world.db a
  entered : ∀ i, ⟨.inr (.join s), .ok ()⟩ ∈ own i tr → ∃ n, ⟨i, s, n⟩ ∈ p.state.members
  member : ∀ x ∈ p.state.members, x.screeningId = s → ¬ Outside (own x.client tr) ∧
    x.since ≤ p.state.world.rooms.length ∧ ∀ m, Acked s m (lefts (own x.client tr)) →
      p.state.world.db.freshSeatMap s = some (replica s (p.state.world.rooms.drop x.since) m)

theorem RoomKept.fresh (h : RoomKept s w tr p) {i : ℕ} (hout : Outside (own i tr))
    {m : List SeatMapEntry} (hm : Acked s m (lefts (own i tr))) :
    p.state.world.db.freshSeatMap s = some m :=
  hm.fresh (h.planned i) h.plan (h.window i ⟨hout, hm.shows⟩)

/-- A command of the services: it tells the rooms of no seat and leaves the database. -/
theorem RoomKept.service (h : RoomKept s w tr p) {i : ℕ} {op : Option ℤ} {c : Cmd}
    {procs : List (Option ℤ × G JoinScreeningResult)} (hc : Joining op (own i tr) (.inl c)) :
    RoomKept s w (tr ++ [(i, ⟨.inl c, (World.exec api c p.state.world).1⟩)])
      ⟨{ p.state with world := (World.exec api c p.state.world).2 }, procs⟩ := by
  obtain ⟨hout, hfilled, hmute⟩ := hc
  have hdb : (World.exec api c p.state.world).2.db = p.state.world.db :=
    World.exec_quiet api (Cmd.mute_quiet hmute) _
  obtain ⟨sent, hrooms, hsilent⟩ := exec_mute api hmute p.state.world
  refine ⟨by rw [hdb]; exact h.plan, fun j a ha => ?_, ?_, fun j hj a ha => ?_, fun j hj => ?_,
    fun x hx hxs => ?_⟩
  · rw [own_snoc] at ha
    split_ifs at ha
    · rw [lefts_inl] at ha
      rcases List.mem_append.mp ha with ha | ha
      · exact h.planned j a ha
      · rw [List.mem_singleton.mp ha]
        exact planned_exec h.plan c
    · exact h.planned j a ha
  · -- a map is put in the cache by a handler that is in its window
    cases hfill : c.fills s with
    | none =>
      intro m hm
      rw [hdb]
      rcases exec_cache api c p.state.world hfill with hkept | hnone
      · exact h.current m (hkept ▸ hm)
      · rw [hnone] at hm
        cases hm
    | some m =>
      have hm := h.fresh hout (.inr ⟨_, List.prefix_refl _, hfilled s m hfill⟩)
      obtain rfl := Cmd.eq_of_fills hfill
      exact current_set hm h.current
  · rw [hdb]
    rw [own_snoc] at ha hj
    split_ifs at ha hj with hij
    · subst hij
      rw [lefts_inl] at ha
      rcases List.mem_append.mp ha with ha | ha
      · by_cases hshown : ∃ b ∈ lefts (own i tr), Shows s b
        · exact h.window i ⟨hout, hshown⟩ a ha
        · exact truthful_of_not_shows fun hs => hshown ⟨a, ha, hs⟩
      · rw [List.mem_singleton.mp ha]
        exact truthful_exec h.current c
    · exact h.window j hj a ha
  · refine h.entered j ?_
    rw [own_snoc] at hj
    split_ifs at hj
    · exact (List.mem_append.mp hj).resolve_right fun hj => by simp at hj
    · exact hj
  · obtain ⟨hin, hsince, hm⟩ := h.member x hx hxs
    have hne : i ≠ x.client := by
      rintro rfl
      exact hin hout
    rw [own_snoc, if_neg hne, hdb]
    refine ⟨hin, ?_, fun m hacked => ?_⟩
    · rw [hrooms, List.length_append]
      exact hsince.trans (Nat.le_add_right _ _)
    · rw [hm m hacked, hrooms, List.drop_append_of_le_length hsince, replica_append,
        replica_silent hsilent]

/-- A client enters a room. -/
theorem RoomKept.join (h : RoomKept s w tr p) {i s' : ℕ} {op : Option ℤ}
    {procs : List (Option ℤ × G JoinScreeningResult)}
    (hc : Joining op (own i tr) (.inr (.join s'))) :
    RoomKept s w (tr ++ [(i, ⟨.inr (.join s'), .ok ()⟩)])
      ⟨{ p.state with
          members := p.state.members ++ [⟨i, s', p.state.world.rooms.length⟩] }, procs⟩ := by
  have hlefts : ∀ j, lefts (own j (tr ++ [(i, ⟨.inr (.join s'), .ok ()⟩)])) = lefts (own j tr) := by
    intro j
    rw [own_snoc]
    split_ifs
    · exact lefts_inr _ _ _
    · rfl
  have hinside : ¬ Outside (own i (tr ++ [(i, ⟨.inr (.join s'), .ok ()⟩)])) := fun hout => by
    rw [own_snoc, if_pos rfl] at hout
    cases hout _ (List.mem_append_right _ (List.mem_singleton_self _))
  refine ⟨h.plan, fun j a ha => h.planned j a (hlefts j ▸ ha), h.current, fun j hj a ha => ?_,
    fun j hj => ?_, fun x hx hxs => ?_⟩
  · have hne : i ≠ j := by
      rintro rfl
      exact hinside hj.1
    rw [own_snoc, if_neg hne] at hj ha
    exact h.window j hj a ha
  · rw [own_snoc] at hj
    split_ifs at hj with hij
    · rcases List.mem_append.mp hj with hj | hj
      · obtain ⟨n, hn⟩ := h.entered j hj
        exact ⟨n, List.mem_append_left _ hn⟩
      · cases List.mem_singleton.mp hj
        exact ⟨_, List.mem_append_right _ (by rw [hij]; exact List.mem_singleton_self _)⟩
    · obtain ⟨n, hn⟩ := h.entered j hj
      exact ⟨n, List.mem_append_left _ hn⟩
  · rcases List.mem_append.mp hx with hx | hx
    · obtain ⟨hin, hsince, hm⟩ := h.member x hx hxs
      have hne : i ≠ x.client := by
        rintro rfl
        exact hin hc.1
      rw [own_snoc, if_neg hne]
      exact ⟨hin, hsince, hm⟩
    · cases List.mem_singleton.mp hx
      refine ⟨hinside, Nat.le_refl _, fun m hm => ?_⟩
      rw [hlefts] at hm
      rw [List.drop_length]
      exact h.fresh hc.1 hm

theorem RoomKept.change (h : RoomKept s w tr p) {x : Change}
    (hx : NotOvertaken (A := A) s tr (.env (.change x)) p) :
    RoomKept s w tr ⟨{ p.state with world := p.state.world.change x }, p.procs⟩ := by
  obtain ⟨hclear, hstill⟩ := hx
  have hplan := change_plan x p.state.world
  refine ⟨h.plan.trans hplan, h.planned, change_current hclear h.current, fun i hi a ha => ?_,
    h.entered, fun y hy hys => ?_⟩
  · obtain ⟨b, hb, -⟩ := hi.2
    obtain ⟨b', hb', -⟩ := List.mem_filterMap.mp hb
    exact (h.window i hi a ha).congr hplan (hstill ⟨(i, b'), mem_own.mp hb', hi⟩)
  · obtain ⟨hin, hsince, hm⟩ := h.member y hy hys
    refine ⟨hin, hsince.trans ?_, fun m hacked => (change_replica hclear hsince (hm m hacked)).2⟩
    rcases change_cases x p.state.world with hsame | ⟨es, db, sent, -, -, hmoved⟩
    · rw [hsame]
    · rw [hmoved]
      exact (List.prefix_append _ _).length_le

theorem RoomKept.elapse (h : RoomKept s w tr p) (e : Env A) :
    RoomKept s w tr ⟨{ p.state with world := p.state.world.elapse api e }, p.procs⟩ := by
  have hdb : (p.state.world.elapse api e).db = p.state.world.db := World.elapse_db api e _
  have hrooms : (p.state.world.elapse api e).rooms = p.state.world.rooms := by cases e <;> rfl
  refine ⟨by rw [hdb]; exact h.plan, h.planned, ?_, fun i hi a ha => ?_, h.entered,
    fun x hx hxs => ?_⟩
  · cases e with
    | evict k => exact current_del _ h.current
    | advance ms => exact h.current
    | stripe a => exact h.current
  · rw [hdb]
    exact h.window i hi a ha
  · rw [hdb, hrooms]
    exact h.member x hx hxs

theorem RoomKept.act (h : RoomKept s w tr p) (hpath : OnPath (gatewaySystem api) tr p)
    {x : Choice Err (Option ℤ) (HubEnv A)} (hx : NotOvertaken s tr x p)
    (hq : (gatewaySystem api).act x p = some q) :
    RoomKept s w (tr ++ (gatewaySystem api).answers x p) q := by
  cases x with
  | spawn op =>
    cases hq
    rw [answers_spawn, List.append_nil]
    exact ⟨h.plan, h.planned, h.current, h.window, h.entered, h.member⟩
  | env e =>
    cases hq
    rw [answers_env, List.append_nil]
    cases e with
    | change x => exact h.change hx
    | other e => exact h.elapse e
  | step i o =>
    obtain ⟨op, c, k, out, hi, hout, rfl, hans⟩ := act_step _ hq
    have hexec : out = Hub.exec api i c p.state := by
      rcases finish_cases _ hout with ⟨-, rfl⟩ | ⟨e, rfl, -⟩ | ⟨e, rfl, -⟩
      · rfl
      · cases hout
      · cases hout
    rw [hans, hexec]
    have hjoining := (handleJoin_joining op).path (hpath.follows i op _ hi)
    rw [List.nil_append] at hjoining
    cases c with
    | inl c => exact h.service hjoining
    | inr d =>
      cases d with
      | join s' => exact h.join hjoining

end Invariant

/-- A client misses no update, in any run in which no change of the screening's seats finds
a handler that has seen them and not entered the room. -/
theorem join_misses_nothing {σ A : Type} (api : StripeApi σ A) (w : World σ) (s : ℕ)
    (hw : Current s w) (xs : List (Choice Err (Option ℤ) (HubEnv A))) (p : JoinPool σ)
    (hx : (gatewaySystem api).schedule xs ⟨⟨w, []⟩, []⟩ = some p)
    (hkept : (gatewaySystem api).AllStages (NotOvertaken s) xs [] ⟨⟨w, []⟩, []⟩) :
    UpToDate s p := by
  have hstart : RoomKept s w [] ⟨⟨w, []⟩, []⟩ := by
    refine ⟨.refl _, fun i a ha => ?_, hw, fun i hi a ha => ?_, fun i hi => ?_, fun x hx => ?_⟩
    · cases ha
    · cases ha
    · cases hi
    · cases hx
  obtain ⟨hpath, hrun⟩ := stages_rule (I := RoomKept s w)
    (fun tr p x q hpath h hx hq => h.act hpath hx hq) xs (onPath_empty _) hstart hx hkept
  intro i _ x hi seats hseats
  obtain ⟨summary, rfl⟩ := acknowledged_eq hseats
  have hroom := (handleJoin_inRoom s).path (hpath.follows i _ _ hi)
  rw [List.nil_append] at hroom
  obtain ⟨hacked, hjoined⟩ := hroom seats summary rfl
  obtain ⟨n, hn⟩ := hrun.entered i hjoined
  exact ⟨_, hn, rfl, rfl, (hrun.member _ hn rfl).2.2 seats hacked⟩

/-! ### Two runs -/

/-- User 1 holds seat 1 of screening 1. -/
def seatTaken : HubEnv Account.Action := .change (.hold ⟨1, 1, 1, 1, 600000⟩)

/-- The seat is taken once the client is in the room. -/
def takenAfter : List (Choice Err (Option ℤ) (HubEnv Account.Action)) :=
  .spawn (some 1) :: solo 0 7 ++ [.env seatTaken]

theorem told_of_the_seat : ∃ p,
    (gatewaySystem testMode).schedule takenAfter ⟨⟨theatre, []⟩, []⟩ = some p ∧
      UpToDate 1 p := by
  have hrun : ((gatewaySystem testMode).schedule takenAfter ⟨⟨theatre, []⟩, []⟩).isSome := by
    decide +kernel
  obtain ⟨p, hp⟩ := Option.isSome_iff_exists.mp hrun
  exact ⟨p, hp, join_misses_nothing testMode theatre 1 (theatre_coherent 1) takenAfter p hp
    (by decide +kernel)⟩

/-- The seat is taken when the client has been read the map, and is not in the room. -/
def takenBetween : List (Choice Err (Option ℤ) (HubEnv Account.Action)) :=
  .spawn (some 1) :: solo 0 6 ++ .env seatTaken :: solo 0 1

/-- The seat is held, and the client has it as free. -/
theorem missed_the_seat : ¬ ∀ (w : World Account) (s : ℕ), Current s w →
    ∀ (xs : List (Choice Err (Option ℤ) (HubEnv Account.Action))) (p : JoinPool Account),
      (gatewaySystem testMode).schedule xs ⟨⟨w, []⟩, []⟩ = some p → UpToDate s p := by
  intro h
  have hrun : ((gatewaySystem testMode).schedule takenBetween ⟨⟨theatre, []⟩, []⟩).any
      fun p => decide (¬ UpToDate 1 p) := by decide +kernel
  obtain ⟨p, hp, hmissed⟩ := (Option.any_eq_true _ _).mp hrun
  exact of_decide_eq_true hmissed (h theatre 1 (theatre_coherent 1) takenBetween p hp)

end MovieReservation
