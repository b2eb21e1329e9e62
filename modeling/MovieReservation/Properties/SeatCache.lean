import MovieReservation.Services.Admin
import MovieReservation.Services.Delivery
import MovieReservation.Services.TestMode

/-! The cached seat maps. A held or released seat drops the screening's copy; a confirmed
one does not, as no cache listener subscribes to the confirmation. The copies stay true in
every history in which what is confirmed had no copy of its map, or was confirmed before. -/

namespace MovieReservation

open Lib Lib.Prog Lib.System Lib.Table

section Coherence
variable {σ : Type}

/-- The cached map of the screening, if there is one, is what would be computed now. -/
def Current (s : ℕ) (w : World σ) : Prop :=
  ∀ m ∈ w.redis.cache (.seatMap s), w.db.freshSeatMap s = some m

def Coherent (w : World σ) : Prop := ∀ s, Current s w

instance (s : ℕ) : DecidablePred (Current (σ := σ) s) := fun w =>
  inferInstanceAs (Decidable (∀ m ∈ w.redis.cache (.seatMap s), w.db.freshSeatMap s = some m))

/-- The event makes the cache listener drop the map of the screening. -/
def ReservationEvent.Invalidates (s : ℕ) : ReservationEvent → Prop
  | .created s' _ | .cancelled s' _ => s' = s
  | .confirmed _ _ | .holdExpired _ _ _ => False

/-- What the command confirms was CONFIRMED before, or the map of its screening is not
cached. -/
def Unseen (c : Cmd) (w : World σ) : Prop :=
  ∀ id ∈ c.confirms, ∀ r ∈ w.db.reservations.get id,
    r.status = .confirmed ∨ w.redis.cache (.seatMap r.screeningId) = none

instance (c : Cmd) : DecidablePred (Unseen (σ := σ) c) := fun w =>
  inferInstanceAs (Decidable (∀ id ∈ c.confirms, ∀ r ∈ w.db.reservations.get id,
    r.status = .confirmed ∨ w.redis.cache (.seatMap r.screeningId) = none))

theorem current_set {s : ℕ} {w : World σ} {m : List SeatMapEntry}
    (h : w.db.freshSeatMap s = some m) {s' : ℕ} (hs' : Current s' w) :
    Current s' { w with redis := w.redis.set (.seatMap s) m } := by
  intro m' hm'
  by_cases he : s' = s
  · subst he
    have : m' = m := by simpa [Redis.set] using hm'.symm
    rw [this]
    exact h
  · refine hs' m' ?_
    have hne : CacheKey.seatMap s' ≠ .seatMap s := fun h' => he (CacheKey.seatMap.inj h')
    simpa only [Redis.set, Function.update_of_ne hne] using hm'

theorem current_del {s : ℕ} {w : World σ} (keys : List CacheKey) (h : Current s w) :
    Current s { w with redis := w.redis.del keys } := by
  intro m hm
  simp only [Redis.del] at hm
  split_ifs at hm
  · cases hm
  · exact h m hm

theorem current_del_self (s : ℕ) (w : World σ) :
    Current s { w with redis := w.redis.del [.seatMap s] } := by
  intro m hm
  simp [Redis.del] at hm

end Coherence

/-! ### Operations -/

section Operations
variable {σ : Type}

/-- What holds while operations run: a copy is true, or an event is pending that drops it. -/
def Attended (w : World σ) : Prop := ∀ s, Current s w ∨ ∃ e ∈ w.pending, e.Invalidates s

section Moves
variable {db db' : Db} {s : ℕ} {c : Cmd} {es : List ReservationEvent}

theorem changesIn_of_ne {s' : ℕ} (m : RoomMessage) (h : s' ≠ s) : changesIn s [(s', m)] = [] := by
  simp [changesIn, h]

/-- The seat was booked, and stays so. -/
theorem confirm_seatStatus {id : ℕ} {r : Reservation}
    (hu : db.reservationUpdate id confirmData = .ok (r, db'))
    (h : ∀ r₀ ∈ db.reservations.get id, r₀.screeningId = s → r₀.status = .confirmed) :
    db'.seatStatus s = db.seatStatus s := by
  obtain ⟨r₀, hr₀, rfl, -, -⟩ := Db.reservationUpdate_eq_ok hu
  rw [confirm_exact hu]
  by_cases hs : r₀.screeningId = s
  · have hst : r₀.status = .confirmed := h r₀ hr₀ hs
    have hbooked : db.seatStatus s r₀.seatId = .booked := by
      rw [Db.seatStatus_of_occupies hr₀ ⟨hs, rfl, by rw [hst]; rfl⟩, hst]
      rfl
    funext seat
    simp only [changesIn, ReservationData.apply_screeningId, hs, List.filterMap_cons,
      List.filterMap_nil, if_true, RoomMessage.change, Delta.replay_cons, Delta.replay_nil,
      Delta.apply, ReservationData.apply_seatId, List.mem_singleton]
    split_ifs with hseat
    · rw [hseat, hbooked]
    · rfl
  · rw [ReservationData.apply_screeningId, changesIn_of_ne _ hs, Delta.replay_nil]

/-- A move that drops no copy of the screening's map changes none of its seats. -/
theorem Move.seatStatus_eq (h : Move c db es db') (hes : ∀ e ∈ es, ¬ e.Invalidates s)
    (hc : ∀ id ∈ c.confirms, ∀ r ∈ db.reservations.get id,
      r.screeningId = s → r.status = .confirmed) :
    db'.seatStatus s = db.seatStatus s := by
  cases h with
  | hold hok =>
    rw [hold_exact hok, changesIn_of_ne _ (hes _ (List.mem_singleton_self _)), Delta.replay_nil]
  | sweep t =>
    have hnone : changesIn s ((sweepEvents (db.releaseExpiredHolds t).1).flatMap
        ReservationEvent.delta) = [] := by
      refine List.eq_nil_iff_forall_not_mem.mpr fun d hd => ?_
      have hmem := (changesIn_sweep.mp hd).2
      refine hes (.cancelled s d.keys) (List.mem_append_left _ ?_) rfl
      exact List.mem_map.mpr ⟨_, hmem, rfl⟩
    rw [sweep_exact, hnone, Delta.replay_nil]
  | cancel hr ha hu =>
    have hne := hes _ (List.mem_singleton_self _)
    rw [cancel_exact rfl hr hu fun hs => absurd hs hne, changesIn_of_ne _ hne, Delta.replay_nil]
  | confirm hu => exact confirm_seatStatus hu (hc _ rfl)
  | decline hok =>
    have hne := hes _ (List.mem_singleton_self _)
    refine (Move.exact (.decline hok) fun id hid r hr hs => absurd ?_ hne).trans ?_
    · cases hid
      exact (Db.updateBoth_home hok hr).1.trans hs
    · rw [List.flatMap_singleton, ReservationEvent.delta, changesIn_of_ne _ hne, Delta.replay_nil]
  | settle hok =>
    obtain ⟨db₁, h₁, h₂⟩ := Db.updateBoth_eq_ok hok
    obtain ⟨_, -, -, -, ht⟩ := Db.paymentUpdate_eq_ok h₁
    have hsame : db₁.reservations = db.reservations := by rw [ht]
    rw [← Db.seatStatus_of_same hsame]
    exact confirm_seatStatus h₂ (by rw [hsame]; exact hc _ rfl)

end Moves

theorem attended_tracks : Tracks (σ := σ) Unseen Attended where
  same w w' hsame h s := by
    refine (h s).imp (fun hs m hm => ?_) fun he => by rwa [hsame.pending]
    rw [hsame.freshSeatMap]
    exact hs m (by rwa [hsame.cache] at hm)
  move c w es db hc hmove h s := by
    rcases h s with hs | ⟨e, he, hinv⟩
    · by_cases hes : ∃ e ∈ es, e.Invalidates s
      · obtain ⟨e, he, hinv⟩ := hes
        exact .inr ⟨e, List.mem_append_right _ he, hinv⟩
      · refine .inl fun m hm => ?_
        have hst : db.seatStatus s = w.db.seatStatus s := by
          refine hmove.seatStatus_eq (fun e he hinv => hes ⟨e, he, hinv⟩) fun id hid r hr hrs => ?_
          refine (hc id hid r hr).resolve_right fun hnone => ?_
          rw [hrs] at hnone
          exact absurd (hnone ▸ hm) (by simp)
        exact (hmove.freshSeatMap hst).trans (hs m hm)
    · exact .inr ⟨e, List.mem_append_left _ he, hinv⟩
  fill w s m hm h s' := (h s').imp_left fun hs => current_set hm hs

end Operations

/-! ### Listeners -/

section Listeners
variable {σ A : Type} {api : StripeApi σ A} {db : Db} {events : List ReservationEvent}

/-- While the listeners of `events` run, the database stands still, a copy that is true
stays so, and one that is not has a listener that drops it. -/
def delivering (db : Db) (events : List ReservationEvent) : Discipline Cmd Listener (World σ) where
  inv w := w.db = db ∧ ∀ s, Current s w ∨ ∃ e ∈ events, e.Invalidates s
  rely _ v w := ∀ s, Current s v → Current s w
  rely_refl _ _ _ h := h
  rely_trans _ _ _ _ h h' s hs := h' s (h s hs)
  allow _ _ _ _ := True

/-- What a listener has seen to when it ends. -/
def Listener.Dropped : Listener → World σ → Prop
  | .cache e, w => ∀ s, e.Invalidates s → Current s w
  | .broadcast _, _ => True

section Rules
variable {i : ℕ} {l : Listener} {β : Type} {w : World σ}

/-- A request that leaves the database and true copies as they are. -/
theorem safe_request {c : Cmd} {Q : Except Err c.Reply → World σ → Prop}
    (h : ∀ t : World σ, t.db = db → (World.exec api c t).2.db = db ∧
      (∀ s, Current s t → Current s (World.exec api c t).2) ∧
        Q (World.exec api c t).1 (World.exec api c t).2) :
    Safe (listenerSystem api) (delivering db events) i l Q (request c) w := by
  intro t _ ht
  refine ⟨fun e he => Bool.noConfusion he, fun _ _ => ?_⟩
  obtain ⟨hdb, hkept, hQ⟩ := h t ht.1
  exact ⟨⟨hdb, fun s => (ht.2 s).imp_left (hkept s)⟩, fun _ _ => hkept, hQ,
    fun e he => Bool.noConfusion he⟩

variable {Q : Except Err β → World σ → Prop}

/-- A request that only reads, with its answer. -/
theorem safe_read {c : Cmd} {f : c.Reply → M β} (a : World σ → c.Reply)
    (ha : ∀ t, World.exec api c t = (.ok (a t), t))
    (h : ∀ t : World σ, t.db = db →
      Safe (listenerSystem api) (delivering db events) i l Q (f (a t)) t) :
    Safe (listenerSystem api) (delivering db events) i l Q (request c >>= f) w := by
  refine Safe.bind (safe_request fun t ht => ?_)
  rw [ha]
  exact ⟨ht, fun _ hs => hs, h t ht⟩

theorem safe_cacheGet (k : CacheKey) {f : Option k.Value → M β}
    (h : ∀ t : World σ, t.db = db →
      Safe (listenerSystem api) (delivering db events) i l Q (f (t.redis.cache k)) t) :
    Safe (listenerSystem api) (delivering db events) i l Q (cacheGet k >>= f) w := by
  refine Safe.bind (Safe.tryCatch (safe_request fun t ht => ?_))
  exact ⟨ht, fun _ hs => hs, h t ht⟩

theorem safe_setSeatMap {s : ℕ} {m : List SeatMapEntry} (hm : db.freshSeatMap s = some m)
    {f : Unit → M β} (h : ∀ t : World σ, t.db = db →
      Safe (listenerSystem api) (delivering db events) i l Q (f ()) t) :
    Safe (listenerSystem api) (delivering db events) i l Q
      (ScreeningsCache.setSeatMap s m >>= f) w := by
  refine Safe.bind (Safe.tryCatch (safe_request fun t ht => ?_))
  exact ⟨ht, fun _ hs => current_set (ht ▸ hm) hs, h _ ht⟩

theorem delSeatMap_safe (s : ℕ) :
    Safe (listenerSystem api) (delivering db events) i l (fun _ => Current s)
      (ScreeningsCache.delSeatMap s) w := by
  refine Safe.tryCatch (safe_request fun t ht => ?_)
  exact ⟨ht, fun _ hs => current_del _ hs, current_del_self s t⟩

theorem getSeatMap_safe (s : ℕ) :
    Safe (listenerSystem api) (delivering db events) i l (fun _ _ => True)
      (ScreeningsService.getSeatMap s) w := by
  unfold ScreeningsService.getSeatMap
  refine safe_cacheGet (.seatMap s) fun t ht => ?_
  cases t.redis.cache (.seatMap s) with
  | some cached => trivial
  | none =>
    refine safe_read (fun t => t.db.screeningFindById s) (fun _ => rfl) fun t₁ h₁ => ?_
    rw [h₁]
    cases hfound : db.screeningFindById s with
    | none => trivial
    | some screening =>
      dsimp only
      unfold throwIf
      split_ifs with hcancelled
      · trivial
      refine safe_read (fun t => t.db.findSeatsByHall screening.hallId) (fun _ => rfl)
        fun t₂ h₂ => ?_
      refine safe_read (fun t => t.db.findActiveReservations s) (fun _ => rfl) fun t₃ h₃ => ?_
      refine safe_setSeatMap ?_ fun _ _ => trivial
      simp [Db.freshSeatMap, hfound, hcancelled, h₂, h₃]

theorem broadcast_safe (s : ℕ) :
    Safe (listenerSystem api) (delivering db events) i l (fun _ _ => True)
      (ReservationBroadcastListener.broadcast s) w := by
  have hsummary : Safe (listenerSystem api) (delivering db events) i l (fun _ _ => True)
      (ScreeningsService.getScreeningSummary s) w := by
    refine Safe.bind ((getSeatMap_safe s).mono fun r _ _ => ?_)
    cases r <;> trivial
  refine Safe.tryCatch (Safe.bind (hsummary.mono fun r t _ => ?_))
  cases r with
  | error e => trivial
  | ok summary => exact safe_request fun t ht => ⟨ht, fun _ hs => hs, trivial⟩

theorem Listener.handle_safe :
    Safe (listenerSystem api) (delivering db events) i l (fun _ => l.Dropped) l.handle w := by
  cases l with
  | cache e =>
    cases e with
    | created s seats | cancelled s seats =>
      refine (delSeatMap_safe s).mono fun _ _ h s' hs' => ?_
      rw [← show s = s' from hs']
      exact h
    | confirmed s seats => exact fun s' hs' => hs'.elim
    | holdExpired u s seat => exact fun s' hs' => hs'.elim
  | broadcast e =>
    cases e with
    | created s seats | cancelled s seats | confirmed s seats => exact broadcast_safe s
    | holdExpired u s seat =>
      exact safe_request fun t ht => ⟨ht, fun _ hs => hs, trivial⟩

end Rules

theorem deliver_coherent {xs : List (Choice Err Listener Empty)} {w w' : World σ}
    (h : deliver api xs w = some w') (hw : Attended w) : Coherent w' := by
  obtain ⟨p, hp, hquiescent⟩ := Option.bind_eq_some_iff.mp h
  split_ifs at hquiescent with hq
  cases hquiescent
  have hstart : PoolSafe (listenerSystem api) (delivering w.db w.pending)
      (fun _ l _ => l.Dropped) ⟨{ w with pending := [] }, listeners w.pending⟩ := by
    refine ⟨⟨rfl, hw⟩, fun i l q hi => ?_⟩
    obtain ⟨e, -, he⟩ := List.mem_flatMap.mp (List.mem_of_getElem? hi)
    obtain ⟨l', -, hl⟩ := List.mem_map.mp he
    cases hl
    exact Listener.handle_safe
  have hend := PoolSafe.schedule (Q := fun _ l _ => l.Dropped) ?_ (fun i l v _ => l.handle_safe)
    (fun e _ _ => nomatch e) xs hstart hp (allMeet_of_forall _ (fun _ _ _ _ => trivial) xs _)
  · intro s
    rcases hend.inv.2 s with hs | ⟨e, he, hinv⟩
    · exact hs
    · -- its cache listener has run to its end
      have hmem : (Listener.cache e, (Listener.cache e).handle) ∈ listeners w.pending := by
        refine List.mem_flatMap.mpr ⟨e, he, ?_⟩
        exact List.mem_cons_self
      obtain ⟨i, hi⟩ := List.getElem?_of_mem hmem
      obtain ⟨q, hqi⟩ := schedule_op (listenerSystem api) xs hi hp
      have hdone : q.finished := hq _ (List.mem_of_getElem? hqi)
      cases q with
      | done r => exact hend.procs i _ _ hqi s hinv
      | call c k => cases hdone
  · intro i l r v v' hrely hinv hdropped
    cases l with
    | cache e => exact fun s hs => hrely s (hdropped s hs)
    | broadcast e => trivial

end Listeners

/-! ### Every history -/

section History
variable {σ A : Type} (api : StripeApi σ A)

theorem turn_coherent {x : Turn BookingRequest A} {w w' : World σ} (hw : Coherent w)
    (h : turn api BookingRequest.handle x w = some w')
    (hx : x.Along api BookingRequest.handle Unseen w) : Coherent w' := by
  cases x with
  | perform r xs =>
    have hkept : Keeps api Unseen Attended (BookingRequest.handle r) w :=
      BookingRequest.handle_keeps attended_tracks (fun s => .inl (hw s)) r
    exact deliver_coherent h (hkept.run hx)
  | env e =>
    cases h
    cases e with
    | evict k => exact fun s => current_del _ (hw s)
    | _ => exact hw

/-- In every history whose confirmations are of reservations that were confirmed before or
whose screening's map is not cached: every cached map is the one that would be computed. -/
theorem seatMaps_coherent (w : World σ) (hw : Coherent w) (ys : List (Turn BookingRequest A))
    (w' : World σ) (h : history api BookingRequest.handle ys w = some w')
    (hys : Throughout api BookingRequest.handle
      (fun x v _ => x.Along api BookingRequest.handle Unseen v) ys w) : Coherent w' :=
  Throughout.keeps (fun _ _ _ hv hturn hx => turn_coherent api hv hturn hx) hys hw h

end History

theorem theatre_coherent : Coherent theatre := by
  intro s m hm
  have hnone : ∀ k, theatre.redis.cache k = none :=
    admin_cache_none _ (admin_cache_none _ (admin_cache_none _ fun _ => rfl))
  rw [hnone] at hm
  cases hm

/-- The copy of the map lapses before the payment arrives. -/
def paidAfterLapse : List (Turn BookingRequest Account.Action) :=
  heldAndPaid ++ [.env (.evict (.seatMap 1)), .perform (.webhook (.ok sessionPaid)) (solo 1 6)]

theorem coherent_after_lapse : Coherent (afterTurns paidAfterLapse) :=
  seatMaps_coherent testMode theatre theatre_coherent paidAfterLapse _
    (history_afterTurns (by decide +kernel)) (by decide +kernel)

/-- The seat is booked, and its cached map still shows it as held. -/
theorem booked_but_held : ¬ ∀ ys w, history testMode BookingRequest.handle ys theatre = some w →
    Coherent w := by
  intro h
  have hcurrent := h (heldAndPaid ++ [paidTurn]) _
    (history_afterTurns (by decide +kernel)) 1
  revert hcurrent
  decide +kernel

end MovieReservation
