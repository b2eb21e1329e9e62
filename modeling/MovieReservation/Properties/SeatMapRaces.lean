import MovieReservation.Properties.SeatCache
import MovieReservation.Services.Paths

/-! Seat maps read while seats change hands. A read that finds no copy computes the map
from the database and puts it in the cache in two steps; a change that commits between
them, and whose cache listener runs before the second, leaves the old map behind. Where no
read stores a map that a change has overtaken, unless an invalidation is still to come, no
stale map is left. -/

namespace MovieReservation

open Lib Lib.Prog Lib.System Lib.Table

/-! ### The operations -/

inductive SeatOp where
  | getSeatMap (screeningId : ℕ)
  | reserve (userId : ℕ) (dto : CreateReservationDto)
  | cancel (userId id : ℕ)
  | expireHolds
  /-- The cache listener, called for the `n`-th event. -/
  | invalidateSeatMap (n : ℕ) (e : ReservationEvent)
  deriving DecidableEq

def SeatOp.handle : SeatOp → M Unit
  | getSeatMap s => do
    let _ ← ScreeningsService.getSeatMap s
  | reserve userId dto => do
    let _ ← ReservationsService.reserve userId dto
  | cancel userId id => do
    let _ ← ReservationsService.cancel userId id
  | expireHolds => ReservationsService.expireHolds
  | invalidateSeatMap _ e => ReservationCacheListener.invalidateSeatMap e

section System
variable {σ A : Type} (api : StripeApi σ A)

/-- Every service is up: a command is answered by what it finds. -/
def seatMapSystem : System Cmd Cmd.Reply Err (World σ) SeatOp (Env A) Unit where
  exec _ := World.exec api
  ready _ _ _ := true
  fault _ _ := false
  env := World.elapse api
  handler := SeatOp.handle

end System

/-! ### The race -/

instance (s : ℕ) : DecidablePred (ReservationEvent.Invalidates s)
  | .created s' _ | .cancelled s' _ => inferInstanceAs (Decidable (s' = s))
  | .confirmed _ _ | .holdExpired _ _ _ => inferInstanceAs (Decidable False)

/-- The screenings whose seats the statement changed. -/
def reseated : Answer Cmd Cmd.Reply Err → List ℕ
  | ⟨.holdSeat p, .ok _⟩ => [p.screeningId]
  | ⟨.releaseExpiredHolds _, .ok rows⟩ => rows.map Db.ExpiredHold.screeningId
  | ⟨.reservationUpdate _ d, .ok r⟩ => if d.status = none then [] else [r.screeningId]
  | _ => []

/-- The command emits an event that drops the map of the screening. -/
def Cmd.Announces (s : ℕ) : Cmd → Prop
  | .emit e => e.Invalidates s
  | _ => False

instance (s : ℕ) : DecidablePred (Cmd.Announces s) := fun c => by
  induction c using Cmd.casesOn <;> unfold Cmd.Announces <;> infer_instance

def Cmd.readsSeats (s : ℕ) : Cmd → Bool
  | .findActiveReservations s' => s' = s
  | _ => false

/-- The map that the command caches for the screening. -/
def Cmd.fills (s : ℕ) : Cmd → Option (List SeatMapEntry)
  | .cacheSet (.seatMap s') m => if s' = s then some m else none
  | _ => none

/-- The process changed seats of the screening and has not announced it since. -/
def Owing (s : ℕ) (l : Trail) : Prop :=
  Since (fun a => s ∈ reseated a) (fun a => a.1.Announces s) l

/-- Seats of the screening changed since process `i` read them. -/
def Overtaken (s i : ℕ) (tr : Log) : Prop :=
  Since (fun a => s ∈ reseated a.2) (fun a => a.1 = i ∧ a.2.1.readsSeats s) tr

instance (s : ℕ) : DecidablePred (Owing s) := fun l =>
  inferInstanceAs (Decidable (Since _ _ l))

instance (s i : ℕ) : DecidablePred (Overtaken s i) := fun tr =>
  inferInstanceAs (Decidable (Since _ _ tr))

section Race
variable {σ A : Type}

abbrev SeatPool (σ : Type) := Pool Cmd Cmd.Reply Err (World σ) SeatOp Unit

/-- An invalidation of the map is still to come: a change is not announced, or the cache
listener of an event has not dropped the map. -/
def Outstanding (s : ℕ) (tr : Log) (p : SeatPool σ) : Prop :=
  (∃ a ∈ tr, Owing s (own a.1 tr)) ∨
    ∃ x ∈ p.state.pending.zipIdx, x.1.Invalidates s ∧
      ∀ y ∈ p.procs, y.1 = .invalidateSeatMap x.2 x.1 → ¬ y.2.finished

instance (s : ℕ) (tr : Log) (p : SeatPool σ) : Decidable (Outstanding s tr p) :=
  inferInstanceAs (Decidable (_ ∨ _))

/-- A listener is called for an event that was emitted. -/
def Reacts (_ : Log) (x : Choice Err SeatOp (Env A)) (p : SeatPool σ) : Prop :=
  match x with
  | .spawn (.invalidateSeatMap n e) => p.state.pending[n]? = some e
  | _ => True

instance (tr : Log) (x : Choice Err SeatOp (Env A)) (p : SeatPool σ) :
    Decidable (Reacts tr x p) := by
  unfold Reacts
  split <;> infer_instance

/-- A map that a change has overtaken is stored only while an invalidation of it is still
to come. -/
def InTime (s : ℕ) (tr : Log) (x : Choice Err SeatOp (Env A)) (p : SeatPool σ) : Prop :=
  match x with
  | .step i _ => match p.procs[i]? with
    | some (_, .call c _) => (c.fills s).isSome → Overtaken s i tr → Outstanding s tr p
    | _ => True
  | _ => True

instance (s : ℕ) (tr : Log) (x : Choice Err SeatOp (Env A)) (p : SeatPool σ) :
    Decidable (InTime s tr x p) := by
  unfold InTime
  split
  · split <;> infer_instance
  · infer_instance

/-- Every operation has ended, and every event's listener has run. -/
def Complete (p : SeatPool σ) : Prop :=
  Quiescent p ∧ ∀ x ∈ p.state.pending.zipIdx, ∃ y ∈ p.procs, y.1 = .invalidateSeatMap x.2 x.1

instance (p : SeatPool σ) : Decidable (Complete p) := inferInstanceAs (Decidable (_ ∧ _))

end Race

/-! ### What a command does -/

/-- The booking request that issues the same commands. -/
def SeatOp.request : SeatOp → BookingRequest
  | getSeatMap s => .getSeatMap s
  | reserve userId dto => .reserve userId dto
  | cancel userId id => .cancel userId id
  | expireHolds => .expireHolds
  | invalidateSeatMap _ _ => .getSeatMap 0

/-- The commands of the operations: three statements change seats. -/
inductive SeatCmd : Cmd → Prop
  | holdSeat (p : Db.HoldSeatParams) : SeatCmd (.holdSeat p)
  | sweep (t : Time) : SeatCmd (.releaseExpiredHolds t)
  | cancel (id : ℕ) : SeatCmd (.reservationUpdate id { status := some .cancelled })
  | quiet {c : Cmd} : c.quiet → SeatCmd c
  | still {c : Cmd} : c.still → SeatCmd c

theorem seatCmd_of_booking {op : SeatOp} {c : Cmd} (h : BookingCmd op.request c) : SeatCmd c := by
  cases h with
  | quiet hc => exact .quiet hc
  | holdSeat p _ => exact .holdSeat p
  | sweep t _ => exact .sweep t
  | cancel id _ => exact .cancel id
  | session _ _ | pay _ _ | payment _ _ _ | drop _ _ | extend _ _ _ => exact .still rfl
  | confirm id hop =>
    obtain ⟨event, hop⟩ := hop
    cases op <;> cases hop
  | decline p id hop => cases op <;> cases hop
  | settle p id i hop => cases op <;> cases hop

theorem SeatOp.handle_booking (op : SeatOp) : Only (BookingCmd op.request) op.handle := by
  cases op with
  | getSeatMap s => exact Only.bind (ScreeningsService.getSeatMap_quiet s).only fun _ => trivial
  | reserve u dto => exact Only.bind (ReservationsService.reserve_only u dto) fun _ => trivial
  | cancel u id => exact Only.bind (ReservationsService.cancel_only u id) fun _ => trivial
  | expireHolds => exact ReservationsService.expireHolds_only
  | invalidateSeatMap n e =>
    cases e with
    | created s seats | cancelled s seats =>
      exact Only.tryCatch (only_quiet rfl) fun _ => trivial
    | confirmed s seats | holdExpired u s seat => trivial

section Command
variable {σ A : Type} (api : StripeApi σ A) {c : Cmd} {w : World σ} {s : ℕ}

theorem exec_plan (hc : SeatCmd c) (w : World σ) : w.db.SamePlan (World.exec api c w).2.db := by
  cases hc with
  | quiet hq =>
    rw [World.exec_quiet api hq]
    exact .refl _
  | still hst => exact (World.exec_same api hst w).plan
  | holdSeat p => exact World.commit_rule (.refl _) fun _ _ hok => (Move.hold hok).samePlan
  | sweep t => exact (Move.sweep t w.db).samePlan
  | cancel id =>
    refine World.commit_rule (.refl _) fun _ _ hok => ?_
    obtain ⟨_, -, -, -, ht⟩ := Db.reservationUpdate_eq_ok hok
    exact .of_reservations ht

/-- A statement changes no seat but of the screenings that its answer names. -/
theorem exec_seats (hc : SeatCmd c) (h : s ∉ reseated ⟨c, (World.exec api c w).1⟩) :
    (World.exec api c w).2.db.seatStatus s = w.db.seatStatus s := by
  cases hc with
  | quiet hq => rw [World.exec_quiet api hq]
  | still hst => exact (World.exec_same api hst w).seats s
  | holdSeat p =>
    simp only [World.exec] at h ⊢
    rcases w.commit_cases (w.db.holdSeat p) with ⟨r, db, hok, hcm⟩ | ⟨e, -, hcm⟩
    · rw [hcm] at h ⊢
      have hne : p.screeningId ≠ s := fun he => h (he ▸ List.mem_singleton_self _)
      rw [hold_exact hok, changesIn_of_ne _ hne, Delta.replay_nil]
    · rw [hcm]
  | sweep t =>
    have hnone : changesIn s ((sweepEvents (w.db.releaseExpiredHolds t).1).flatMap
        ReservationEvent.delta) = [] := by
      refine List.eq_nil_iff_forall_not_mem.mpr fun d hd => ?_
      obtain ⟨e, he, hs⟩ := byScreening_keys.mp ⟨_, (changesIn_sweep.mp hd).2, rfl⟩
      exact h (List.mem_map.mpr ⟨e, he, hs⟩)
    exact (sweep_exact t).trans (by rw [hnone, Delta.replay_nil])
  | cancel id =>
    simp only [World.exec] at h ⊢
    rcases w.commit_cases (w.db.reservationUpdate id { status := some .cancelled }) with
      ⟨r, db, hok, hcm⟩ | ⟨e, -, hcm⟩
    · rw [hcm] at h ⊢
      obtain ⟨r₀, hr₀, rfl, -, -⟩ := Db.reservationUpdate_eq_ok hok
      have hne : r₀.screeningId ≠ s := fun he => h (he ▸ List.mem_singleton_self _)
      exact funext fun seat => Db.seatStatus_update_of_not hr₀ hok fun hs => hne hs.1
    · rw [hcm]

/-- The events that a command emits. -/
def Cmd.emitted : Cmd → List ReservationEvent
  | .emit e => [e]
  | _ => []

theorem exec_pending (c : Cmd) (w : World σ) :
    (World.exec api c w).2.pending = w.pending ++ c.emitted := by
  have hcommit : ∀ {α : Type} (r : Except Err (α × Db)),
      (w.commit r).2.pending = w.pending ++ [] := by
    intro α r
    rw [List.append_nil, World.commit_frame]
  cases c with
  | emit e => rfl
  | acquire =>
    simp only [World.exec]
    split_ifs <;> exact (List.append_nil _).symm
  | paymentFindById id => cases id <;> exact (List.append_nil _).symm
  | paymentFindByStripePaymentId i => cases i <;> exact (List.append_nil _).symm
  | paymentUpdate id d => cases id <;> first | exact hcommit _ | exact (List.append_nil _).symm
  | _ => first | exact hcommit _ | exact (List.append_nil _).symm

/-- What a command leaves in the cache, unless it fills the map of the screening. -/
theorem exec_cache (c : Cmd) (w : World σ) (h : c.fills s = none) :
    (World.exec api c w).2.redis.cache (.seatMap s) = w.redis.cache (.seatMap s) ∨
      (World.exec api c w).2.redis.cache (.seatMap s) = none := by
  have hcommit : ∀ {α : Type} (r : Except Err (α × Db)),
      (w.commit r).2.redis.cache (.seatMap s) = w.redis.cache (.seatMap s) := by
    intro α r
    rw [World.commit_redis]
  cases c with
  | cacheSet k v =>
    refine .inl (Function.update_of_ne ?_ _ _)
    rintro rfl
    rw [Cmd.fills, if_pos rfl] at h
    cases h
  | cacheDel keys =>
    simp only [World.exec, Redis.del]
    split_ifs
    · exact .inr rfl
    · exact .inl rfl
  | acquire =>
    simp only [World.exec]
    split_ifs <;> exact .inl rfl
  | paymentFindById id => cases id <;> exact .inl rfl
  | paymentFindByStripePaymentId i => cases i <;> exact .inl rfl
  | paymentUpdate id d => cases id <;> first | exact .inl (hcommit _) | exact .inl rfl
  | _ => first | exact .inl (hcommit _) | exact .inl rfl

end Command

/-! ### What the programs do -/

/-- The reservation and the screening that an answer shows together. -/
def shown : Answer Cmd Cmd.Reply Err → Option (ℕ × ℕ)
  | ⟨.reservationFindById _, .ok (some r)⟩ => some (r.id, r.screeningId)
  | ⟨.reservationUpdate id _, .ok r⟩ => some (id, r.screeningId)
  | _ => none

/-- What the answers to a process are like: what stays inside the process succeeds, and a
reservation keeps its screening. -/
structure Sound (l : Trail) : Prop where
  emitted : ∀ e r, ⟨.emit e, r⟩ ∈ l → r = .ok ()
  released : ∀ r, ⟨.release, r⟩ ∈ l → r = .ok ()
  home : ∀ a ∈ l, ∀ b ∈ l, ∀ x ∈ shown a, ∀ y ∈ shown b, x.1 = y.1 → x.2 = y.2

theorem Sound.mono {l l' : Trail} (h : Sound l) (hl : l' ⊆ l) : Sound l' where
  emitted e r hr := h.emitted e r (hl hr)
  released r hr := h.released r (hl hr)
  home a ha b hb := h.home a (hl ha) b (hl hb)

/-- Every change of the screening's seats has been announced. -/
def Announced (s : ℕ) (l : Trail) : Prop := Sound l → ¬ Owing s l

/-- The program announces what it changes before it ends. -/
abbrev Settles {α : Type} (s : ℕ) (l : Trail) (p : M α) : Prop :=
  Yields (fun l _ => Announced s l) l p

/-- Whatever the answer, the command has changed no seat. -/
abbrev Unmoving (c : Cmd) : Prop := ∀ r, reseated ⟨c, r⟩ = []

section Programs
variable {s : ℕ} {l : Trail} {α β : Type}

theorem announced_nil (s : ℕ) : Announced s [] := fun _ => not_since_nil

theorem Announced.snoc (h : Announced s l) {a : Answer Cmd Cmd.Reply Err} (ha : s ∉ reseated a) :
    Announced s (l ++ [a]) := fun hs howing =>
  (since_snoc.mp howing).2.elim (h (hs.mono (List.subset_append_left _ _))) ha

theorem announced_emit {c : Cmd} (hc : c.Announces s) (l : Trail) (r : Except Err c.Reply) :
    Announced s (l ++ [⟨c, r⟩]) := fun _ howing => (since_snoc.mp howing).1 hc

theorem settles_bind {p : M β} {f : β → M α} (hl : Announced s l) (hp : Only Unmoving p)
    (hf : ∀ a l', Announced s (l ++ l') → Settles s (l ++ l') (f a)) : Settles s l (p >>= f) := by
  have hfirst : Yields (fun l₁ _ => ∃ l', l₁ = l ++ l' ∧ Announced s l₁) l p := by
    refine hp.yields (I := fun l₁ => ∃ l', l₁ = l ++ l' ∧ Announced s l₁) ?_
      ⟨[], (List.append_nil l).symm, hl⟩
    rintro _ a ha ⟨l', rfl, h⟩
    refine ⟨l' ++ [a], List.append_assoc _ _ _, h.snoc ?_⟩
    rw [show reseated a = [] from ha a.2]
    exact List.not_mem_nil
  refine hfirst.bind (fun l₁ e h => h.elim fun _ h => h.2) ?_
  rintro a _ ⟨l', rfl, h⟩
  exact hf a l' h

theorem settles_request {c : Cmd} {f : c.Reply → M α} (hl : Announced s l) (hc : Unmoving c)
    (hf : ∀ a l', Announced s (l ++ l') → Settles s (l ++ l') (f a)) :
    Settles s l (request c >>= f) := settles_bind hl ((only_issue c).mpr hc) hf

theorem settles_throwIf_bind {x : Prop} [Decidable x] {e : Err} {f : Unit → M α}
    (hl : Announced s l) (hf : Settles s l (f ())) : Settles s l (throwIf x e >>= f) := by
  unfold throwIf
  split_ifs
  · exact hl
  · exact hf

/-- A change of one screening's seats, and then its event. -/
theorem settles_emit {e : ReservationEvent} {a : Answer Cmd Cmd.Reply Err} {x : α}
    (l' : Trail) (hl : Announced s l) (hl' : ∀ b ∈ l', reseated b = [])
    (ha : Sound (l ++ [a] ++ l') → ∀ s' ∈ reseated a, e.Invalidates s') :
    Settles s (l ++ [a] ++ l') (emit e >>= fun _ => pure x) := by
  have hquiet : ∀ l' : Trail, (∀ b ∈ l', reseated b = []) → ∀ {l₁ : Trail}, Owing s (l₁ ++ l') →
      Owing s l₁ := by
    intro l' hl'
    induction l' using List.reverseRecOn with
    | nil => intro l₁ h; rwa [List.append_nil] at h
    | append_singleton l' b ih =>
      intro l₁ h
      rw [← List.append_assoc] at h
      refine ih (fun b hb => hl' b (List.mem_append_left _ hb)) ?_
      refine (since_snoc.mp h).2.resolve_right fun hb => ?_
      rw [hl' b (List.mem_append_right _ (List.mem_singleton_self b))] at hb
      cases hb
  intro r
  have hend : Announced s (l ++ [a] ++ l' ++ [⟨.emit e, r⟩]) := by
    by_cases he : e.Invalidates s
    · exact announced_emit (c := .emit e) he _ r
    · intro hs howing
      have hsound := hs.mono (List.subset_append_left _ _)
      have howed := hquiet l' hl' ((since_snoc.mp howing).2.resolve_right fun h => by cases h)
      rcases (since_snoc.mp howed).2 with howed | hmoved
      · exact hl (hsound.mono fun b hb => by simp [hb]) howed
      · exact he (ha hsound s hmoved)
  cases r <;> exact hend

theorem reserve_settles (u : ℕ) (dto : CreateReservationDto) :
    Settles s [] (ReservationsService.reserve u dto) := by
  unfold ReservationsService.reserve
  refine settles_request (announced_nil s) (fun _ => rfl) fun lockedOut l₁ h₁ => ?_
  refine settles_throwIf_bind h₁ (settles_request h₁ (fun _ => rfl) fun found l₂ h₂ => ?_)
  cases found with
  | none => exact h₂
  | some screening =>
    refine settles_throwIf_bind h₂ (settles_request h₂ (fun _ => rfl) fun t l₃ h₃ => ?_)
    refine settles_throwIf_bind h₃ (settles_request h₃ (fun _ => rfl) fun t' l₄ h₄ => ?_)
    refine settles_request h₄ (fun _ => rfl) fun _ l₅ h₅ r => ?_
    cases r with
    | error e =>
      -- no row was written: the slot is given back, and the error thrown
      have hlost : ∀ p, Announced s (_ ++ [⟨.holdSeat p, .error e⟩]) := fun p =>
        h₅.snoc List.not_mem_nil
      change Yields _ _ (((ite _ _ _ : M Reservation).ensuring ConcurrencyGuard.release).bind _)
      split_ifs <;> exact fun r => by cases r <;> exact (hlost _).snoc List.not_mem_nil
    | ok row =>
      intro r
      cases r with
      | error e =>
        intro hs
        cases hs.released (.error e) (by simp)
      | ok _ =>
        refine settles_emit [_] h₅ (fun b hb => ?_) fun _ s' hs' => ?_
        · rw [List.mem_singleton.mp hb]
          rfl
        · exact (List.mem_singleton.mp hs').symm

/-- A reservation that the process was shown. -/
def Shown (r : Reservation) (l : Trail) : Prop := ∃ a ∈ l, shown a = some (r.id, r.screeningId)

theorem Shown.append {r : Reservation} (h : Shown r l) (l' : Trail) : Shown r (l ++ l') := by
  obtain ⟨a, ha, hr⟩ := h
  exact ⟨a, List.mem_append_left _ ha, hr⟩

theorem finalizeCancel_settles {r : Reservation} (hl : Announced s l) (hr : Shown r l) :
    Settles s l (ReservationsService.finalizeCancel r) := by
  obtain ⟨a, ha, hshown⟩ := hr
  intro answer
  cases answer with
  | error e => exact hl.snoc List.not_mem_nil
  | ok x =>
    change Settles s _ (emit (.cancelled r.screeningId [r.seatId]) >>= fun _ => pure x)
    rw [← List.append_nil (l ++ _)]
    refine settles_emit [] hl (List.forall_mem_nil _) fun hs s' hs' => ?_
    rw [List.append_nil] at hs
    have hhome := hs.home a (List.mem_append_left _ ha) _ (List.mem_append_right _
      (List.mem_singleton_self _)) _ hshown (r.id, x.screeningId) rfl rfl
    exact hhome.trans (List.mem_singleton.mp hs').symm

theorem recordRefund_settles {r : Reservation} (p : Payment) (refundId : Option ℕ)
    (hl : Announced s l) (hr : Shown r l) :
    Settles s l (PaymentsService.recordRefund r p refundId) := by
  unfold PaymentsService.recordRefund
  refine settles_request hl (fun _ => rfl) fun t l₁ h₁ => ?_
  refine settles_request h₁ (fun _ => rfl) fun _ l₂ h₂ => ?_
  exact finalizeCancel_settles h₂ ((hr.append l₁).append l₂)

theorem refundReservation_settles {r : Reservation} (hl : Announced s l) (hr : Shown r l) :
    Settles s l (PaymentsService.refundReservation r) := by
  unfold PaymentsService.refundReservation
  refine settles_request hl (fun _ => rfl) fun found l₁ h₁ => ?_
  have hr₁ := hr.append l₁
  cases found with
  | none => exact h₁
  | some payment =>
    change Yields _ _ (ite _ _ _)
    split_ifs
    · exact finalizeCancel_settles h₁ hr₁
    refine settles_request h₁ (fun _ => rfl) fun screening l₂ h₂ => ?_
    have hr₂ := hr₁.append l₂
    cases screening with
    | none => exact h₂
    | some screening =>
      refine settles_request h₂ (fun _ => rfl) fun t l₃ h₃ => ?_
      refine settles_request h₃ (fun _ => rfl) fun policy l₄ h₄ => ?_
      have hr₄ := (hr₂.append l₃).append l₄
      cases payment.stripePaymentId with
      | none => exact recordRefund_settles payment none h₄ hr₄
      | some intent =>
        change Yields _ _ (ite _ _ _)
        split_ifs
        · refine settles_request h₄ (fun _ => rfl) fun refund l₅ h₅ => ?_
          exact recordRefund_settles payment _ h₅ (hr₄.append l₅)
        · exact recordRefund_settles payment none h₄ hr₄

theorem cancel_settles (u id : ℕ) : Settles s [] (ReservationsService.cancel u id) := by
  unfold ReservationsService.cancel ReservationsService.findOwned ReservationsService.getById
  rw [bind_assoc, bind_assoc]
  intro answer
  have hread : Announced s ([] ++ [⟨.reservationFindById id, answer⟩]) :=
    (announced_nil s).snoc List.not_mem_nil
  cases answer with
  | error e => exact hread
  | ok found =>
    cases found with
    | none => exact hread
    | some r =>
      have hr : Shown r ([] ++ [⟨.reservationFindById id, .ok (some r)⟩]) :=
        ⟨_, List.mem_singleton_self _, rfl⟩
      change Yields _ _ ((throwIf _ _ >>= fun _ => pure r) >>= _)
      rw [bind_assoc]
      refine settles_throwIf_bind hread ?_
      change Yields _ _ (ite _ _ _)
      split_ifs
      · exact refundReservation_settles hread hr
      · exact settles_throwIf_bind hread (finalizeCancel_settles hread hr)

/-- A sweep owes an event to every screening whose group is still to come. -/
theorem emits_settle (gs : List (ℕ × List ℕ)) (h : Sound l → Owing s l → ∃ g ∈ gs, g.1 = s) :
    Settles s l (forM gs fun g => emit (.cancelled g.1 g.2)) := by
  induction gs generalizing l with
  | nil =>
    intro hs howing
    obtain ⟨g, hg, -⟩ := h hs howing
    cases hg
  | cons g gs ih =>
    rw [List.forM_cons]
    intro r
    cases r with
    | error e =>
      intro hs
      cases hs.emitted _ (.error e) (List.mem_append_right _ (List.mem_singleton_self _))
    | ok _ =>
      refine ih fun hs howing => ?_
      obtain ⟨hne, howed⟩ := since_snoc.mp howing
      have howed := howed.resolve_right List.not_mem_nil
      obtain ⟨g', hg', hs'⟩ := h (hs.mono (List.subset_append_left _ _)) howed
      rcases List.mem_cons.mp hg' with rfl | hg'
      · exact absurd hs' hne
      · exact ⟨g', hg', hs'⟩

theorem expireHolds_settles : Settles s [] ReservationsService.expireHolds := by
  unfold ReservationsService.expireHolds
  refine settles_request (announced_nil s) (fun _ => rfl) fun t l₁ h₁ answer => ?_
  cases answer with
  | error e => exact h₁.snoc List.not_mem_nil
  | ok rows =>
    change Yields _ _ (forM _ _ >>= fun _ => forM _ _)
    refine (emits_settle _ fun hs howing => ?_).bind (fun l₂ e h => h) fun _ l₂ h₂ => ?_
    · refine byScreening_keys.mpr ?_
      have howed := (since_snoc.mp howing).2
      exact List.mem_map.mp (howed.resolve_left (h₁ (hs.mono (List.subset_append_left _ _))))
    · refine Only.yields (Only.forM (fun r => (only_issue (P := Unmoving) _).mpr fun _ => rfl) rows)
        (fun l a ha h => h.snoc ?_) h₂
      rw [show reseated a = [] from ha a.2]
      exact List.not_mem_nil

end Programs

theorem unmoving_of_quiet {c : Cmd} (h : c.quiet = true) : Unmoving c := by
  intro r
  cases c with
  | holdSeat p => cases h
  | releaseExpiredHolds t => cases h
  | reservationUpdate id d => cases h
  | _ => rfl

theorem SeatOp.handle_settles (s : ℕ) (op : SeatOp) : Settles s [] op.handle := by
  have hquiet : ∀ {α : Type} {p : M α}, Quiet p → Settles s [] p := fun hp =>
    (hp.mono fun _ => unmoving_of_quiet).yields (fun l a ha h => h.snoc (by
      rw [show reseated a = [] from ha a.2]
      exact List.not_mem_nil)) (announced_nil s)
  cases op with
  | getSeatMap s' =>
    exact hquiet (Only.bind (ScreeningsService.getSeatMap_quiet s') fun _ => trivial)
  | reserve u dto => exact (reserve_settles u dto).bind (fun _ _ h => h) fun _ _ h => h
  | cancel u id => exact (cancel_settles u id).bind (fun _ _ h => h) fun _ _ h => h
  | expireHolds => exact expireHolds_settles
  | invalidateSeatMap n e =>
    cases e with
    | created s' seats | cancelled s' seats =>
      exact hquiet (Only.tryCatch (quiet_request rfl) fun _ => trivial)
    | confirmed s' seats | holdExpired u s' seat => exact announced_nil s

/-- What a process was told of which the map was computed. -/
def Computed (s : ℕ) (m : List SeatMapEntry) (l : Trail) : Prop :=
  ∃ l₀ screening seats reservations,
    l = l₀ ++ [⟨.findActiveReservations s, .ok reservations⟩] ∧
      ⟨.screeningFindById s, .ok (some screening)⟩ ∈ l₀ ∧
      ⟨.findSeatsByHall screening.hallId, .ok seats⟩ ∈ l₀ ∧ screening.status ≠ .cancelled ∧
      m = ScreeningsService.seatMap seats reservations

/-- What is put in the cache was computed of what was read last. -/
abbrev Filled (l : Trail) (c : Cmd) : Prop := ∀ s m, c.fills s = some m → Computed s m l

theorem getSeatMap_filled (s : ℕ) (l : Trail) :
    Informed Filled l (ScreeningsService.getSeatMap s) := by
  unfold ScreeningsService.getSeatMap
  refine Informed.bind (Informed.tryCatch ⟨nofun, fun r => ?_⟩ fun _ _ => trivial) ?_
  · cases r <;> trivial
  intro cached l'
  cases cached with
  | some cached => trivial
  | none =>
    refine informed_issue_bind nofun fun found => ?_
    cases found with
    | none => trivial
    | some screening =>
      refine informed_throwIf_bind fun hst => ?_
      refine informed_issue_bind nofun fun seats => informed_issue_bind nofun fun reservations => ?_
      refine Informed.bind (Informed.tryCatch ⟨?_, fun r => ?_⟩ fun _ _ => trivial) ?_
      · intro s' m hm
        simp only [Cmd.fills] at hm
        split_ifs at hm with hs
        cases hm
        subst hs
        exact ⟨_, screening, seats, reservations, rfl, by simp, by simp, hst, rfl⟩
      · cases r <;> trivial
      · exact fun _ _ => trivial

theorem Cmd.eq_of_fills {s : ℕ} {c : Cmd} {m : List SeatMapEntry} (h : c.fills s = some m) :
    c = .cacheSet (.seatMap s) m := by
  unfold Cmd.fills at h
  split at h
  · split_ifs at h with hs
    cases h
    rw [hs]
  · cases h

theorem Cmd.fills_of_plain {c : Cmd} (h : c.plain = true) (s : ℕ) : c.fills s = none := by
  cases c with
  | cacheSet k v => cases h
  | _ => rfl

theorem SeatOp.handle_filled (op : SeatOp) : Informed Filled [] op.handle := by
  have hnone : ∀ {α : Type} {p : M α}, Only (fun c => ∀ s, c.fills s = none) p →
      Informed Filled [] p := fun hp => .of_only (hp.mono fun c hc l' s m hm => by
        rw [hc s] at hm
        cases hm)
  have hplain : ∀ {α : Type} {p : M α}, Only (fun c => c.plain = true) p → Informed Filled [] p :=
    fun hp => hnone (hp.mono fun c hc => Cmd.fills_of_plain hc)
  cases op with
  | getSeatMap s => exact (getSeatMap_filled s []).bind fun _ _ => trivial
  | reserve u dto => exact (hplain (reserve_plain u dto)).bind fun _ _ => trivial
  | cancel u id => exact (hplain (cancel_plain u id)).bind fun _ _ => trivial
  | expireHolds =>
    refine hnone (Only.bind ((only_issue _).mpr fun _ => rfl) fun t => ?_)
    refine Only.bind ((only_issue _).mpr fun _ => rfl) fun rows => ?_
    refine Only.bind (Only.forM (fun g => ?_) _) fun _ => Only.forM (fun r => ?_) _
    · exact (only_issue _).mpr fun _ => rfl
    · exact (only_issue _).mpr fun _ => rfl
  | invalidateSeatMap n e =>
    cases e with
    | created s seats | cancelled s seats =>
      exact hnone (Only.tryCatch ((only_issue _).mpr fun _ => rfl) fun _ => trivial)
    | confirmed s seats | holdExpired u s seat => trivial

/-- The listener of an event that invalidates a map does nothing but drop it. -/
theorem listener_drops {s : ℕ} {e : ReservationEvent} (he : e.Invalidates s) :
    Only (fun c => c = .cacheDel [.seatMap s]) (ReservationCacheListener.invalidateSeatMap e) ∧
      ¬ (ReservationCacheListener.invalidateSeatMap e).finished := by
  cases e with
  | created s' seats | cancelled s' seats =>
    subst he
    exact ⟨Only.tryCatch ((only_issue _).mpr rfl) fun _ => trivial, nofun⟩
  | confirmed s' seats | holdExpired u s' seat => cases he

/-! ### Every run -/

/-- An answer that the theatre's plan decides, or that no command is refused. -/
def Planned (db : Db) : Answer Cmd Cmd.Reply Err → Prop
  | ⟨.screeningFindById id, r⟩ => r = .ok (db.screeningFindById id)
  | ⟨.findSeatsByHall hallId, r⟩ => r = .ok (db.findSeatsByHall hallId)
  | ⟨.emit _, r⟩ | ⟨.release, r⟩ => r = .ok ()
  | _ => True

section Invariant
variable {σ A : Type} {api : StripeApi σ A} {w v : World σ} {s : ℕ} {c : Cmd} {tr : Log}

theorem planned_exec (h : w.db.SamePlan v.db) (c : Cmd) :
    Planned w.db ⟨c, (World.exec api c v).1⟩ := by
  cases c with
  | screeningFindById id =>
    simp only [Planned, World.exec, Db.screeningFindById, h.screenings, h.movies, h.halls]
  | findSeatsByHall id => simp only [Planned, World.exec, Db.findSeatsByHall, h.seats]
  | _ => first | rfl | trivial

/-- The rows that were shown are where they were. -/
def InPlace (tr : Log) (w : World σ) : Prop :=
  ∀ a ∈ tr, ∀ x ∈ shown a.2, ∃ r ∈ w.db.reservations.get x.1, r.screeningId = x.2

theorem InPlace.step (h : InPlace tr w) {op : SeatOp} (hc : BookingCmd op.request c) (i : ℕ) :
    InPlace (tr ++ [(i, ⟨c, (World.exec api c w).1⟩)]) (World.exec api c w).2 := by
  intro a ha x hx
  rcases List.mem_append.mp ha with ha | ha
  · obtain ⟨r, hr, hs⟩ := h a ha x hx
    obtain ⟨r', hr', -⟩ := reservation_step api hc hr
    exact ⟨r', hr', ((World.exec_evolves api c w).reservation hr hr').1.trans hs⟩
  · rw [List.mem_singleton.mp ha] at hx
    cases c with
    | reservationFindById id =>
      cases hget : w.db.reservations.get id with
      | none =>
        simp only [World.exec, hget, shown] at hx
        cases hx
      | some r =>
        simp only [World.exec, hget, shown] at hx
        cases hx
        exact ⟨r, by rw [show r.id = id from id_of_get hget]; exact hget, rfl⟩
    | reservationUpdate id d =>
      simp only [World.exec] at hx ⊢
      rcases w.commit_cases (w.db.reservationUpdate id d) with ⟨r, db, hok, hcm⟩ | ⟨e, -, hcm⟩
      · rw [hcm] at hx ⊢
        cases hx
        obtain ⟨r₀, hr₀, rfl, -, -⟩ := Db.reservationUpdate_eq_ok hok
        exact ⟨_, (Db.reservationUpdate_get hok hr₀).trans (by rw [if_pos rfl]), rfl⟩
      · rw [hcm] at hx
        cases hx
    | _ => cases hx

/-- What process `i` read of the seats is true, unless they changed since. -/
def Fresh (s : ℕ) (tr : Log) (w : World σ) : Prop :=
  ∀ i reservations, (own i tr).getLast? = some ⟨.findActiveReservations s, .ok reservations⟩ →
    Overtaken s i tr ∨ ∀ seat, ScreeningsService.toSeatStatus
      (ScreeningsService.statusBySeat reservations seat) = w.db.seatStatus s seat

theorem Fresh.step (h : Fresh s tr w) (hc : SeatCmd c) (i : ℕ) :
    Fresh s (tr ++ [(i, ⟨c, (World.exec api c w).1⟩)]) (World.exec api c w).2 := by
  intro j rs hlast
  rw [own_snoc] at hlast
  split_ifs at hlast with hij
  · rw [List.getLast?_append, List.getLast?_singleton, Option.some_or, Option.some.injEq] at hlast
    obtain ⟨rfl, hrs⟩ := Sigma.mk.inj hlast
    cases Except.ok.inj (eq_of_heq hrs)
    exact .inr fun seat => rfl
  · rcases h j rs hlast with hover | hfresh
    · exact .inl (since_snoc.mpr ⟨fun hr => hij hr.1, .inl hover⟩)
    · by_cases hmoved : s ∈ reseated ⟨c, (World.exec api c w).1⟩
      · exact .inl (since_snoc.mpr ⟨fun hr => hij hr.1, .inr hmoved⟩)
      · rw [exec_seats api hc hmoved]
        exact .inr hfresh

variable {p q : SeatPool σ}

/-- A listener runs for the event it was called for. -/
def Heard (p : SeatPool σ) : Prop :=
  ∀ y ∈ p.procs, ∀ n e, y.1 = .invalidateSeatMap n e → p.state.pending[n]? = some e

theorem Heard.step (h : Heard p) {i : ℕ} {op : SeatOp} {k : Except Err c.Reply → M Unit}
    (hi : p.procs[i]? = some (op, .call c k)) (r : Except Err c.Reply) :
    Heard ⟨(World.exec api c p.state).2, p.procs.set i (op, k r)⟩ := by
  intro y hy n e hop
  have hold : p.state.pending[n]? = some e := by
    rcases List.mem_or_eq_of_mem_set hy with hy | rfl
    · exact h y hy n e hop
    · exact h _ (List.mem_of_getElem? hi) n e hop
  rw [exec_pending, List.getElem?_append_left (List.getElem?_eq_some_iff.mp hold).1]
  exact hold

/-- An invalidation stays to come until the map is dropped. -/
theorem Outstanding.step (h : Outstanding s tr p) (hpath : OnPath (seatMapSystem api) tr p)
    (hheard : Heard p) {i : ℕ} {op : SeatOp} {k : Except Err c.Reply → M Unit}
    (hi : p.procs[i]? = some (op, .call c k)) (hdel : c ≠ .cacheDel [.seatMap s]) :
    Outstanding s (tr ++ [(i, ⟨c, (World.exec api c p.state).1⟩)])
      ⟨(World.exec api c p.state).2, p.procs.set i (op, k (World.exec api c p.state).1)⟩ := by
  rcases h with ⟨a, ha, howing⟩ | ⟨x, hx, hinv, hrun⟩
  · by_cases hann : a.1 = i ∧ c.Announces s
    · -- its event is new: no listener has been called for it
      obtain ⟨-, hann⟩ := hann
      cases c with
      | emit e =>
        refine .inr ⟨(e, p.state.pending.length), ?_, hann, fun y hy hop => ?_⟩
        · rw [List.mem_zipIdx_iff_getElem?, exec_pending]
          simp [Cmd.emitted]
        · have hy' : ∃ z ∈ p.procs, z.1 = y.1 := by
            rcases List.mem_or_eq_of_mem_set hy with hy | rfl
            · exact ⟨y, hy, rfl⟩
            · exact ⟨_, List.mem_of_getElem? hi, rfl⟩
          obtain ⟨z, hz, hzy⟩ := hy'
          have hnone := hheard z hz _ _ (hzy.trans hop)
          rw [List.getElem?_eq_none (Nat.le_refl _)] at hnone
          cases hnone
      | _ => cases hann
    · refine .inl ⟨a, List.mem_append_left _ ha, ?_⟩
      rw [own_snoc]
      split_ifs with hai
      · exact since_snoc.mpr ⟨fun hc => hann ⟨hai.symm, hc⟩, .inl howing⟩
      · exact howing
  · refine .inr ⟨x, ?_, hinv, fun y hy hop => ?_⟩
    · rw [List.mem_zipIdx_iff_getElem?] at hx ⊢
      rw [exec_pending, List.getElem?_append_left (List.getElem?_eq_some_iff.mp hx).1]
      exact hx
    · rcases List.mem_or_eq_of_mem_set hy with hy | rfl
      · exact hrun y hy hop
      · -- the listener of the event drops the map
        cases hop
        have hfollows := hpath.follows i _ _ hi
        exact absurd (hfollows.only_rest (listener_drops hinv).1).1 hdel

/-- What holds while operations and listeners run. -/
structure Tended (s : ℕ) (w : World σ) (tr : Log) (p : SeatPool σ) : Prop where
  plan : w.db.SamePlan p.state.db
  planned : ∀ a ∈ tr, Planned w.db a.2
  place : InPlace tr p.state
  heard : Heard p
  fresh : Fresh s tr p.state
  current : Current s p.state ∨ Outstanding s tr p

/-- What the map was computed of: the plan still says the same. -/
theorem Computed.of_plan {db₀ db : Db} {l : Trail} {m : List SeatMapEntry} (hm : Computed s m l)
    (hplanned : ∀ a ∈ l, Planned db₀ a) (hplan : db₀.SamePlan db) :
    ∃ screening reservations,
      l.getLast? = some ⟨.findActiveReservations s, .ok reservations⟩ ∧
        db.screeningFindById s = some screening ∧ screening.status ≠ .cancelled ∧
          m = ScreeningsService.seatMap (db.findSeatsByHall screening.hallId) reservations := by
  obtain ⟨l₀, screening, seats, rs, rfl, hscreening, hseats, hst, rfl⟩ := hm
  have hfound : some screening = db₀.screeningFindById s :=
    Except.ok.inj (hplanned _ (List.mem_append_left _ hscreening))
  have hgrid : seats = db₀.findSeatsByHall screening.hallId :=
    Except.ok.inj (hplanned _ (List.mem_append_left _ hseats))
  refine ⟨screening, rs, List.getLast?_concat, ?_, hst, ?_⟩
  · rw [hfound]
    simp only [Db.screeningFindById, hplan.screenings, hplan.movies, hplan.halls]
  · rw [hgrid]
    simp only [Db.findSeatsByHall, hplan.seats]

/-- A map that was computed of what is still true is the one that would be computed. -/
theorem Tended.computed (h : Tended s w tr p) {i : ℕ} {m : List SeatMapEntry}
    (hm : Computed s m (own i tr)) (hover : ¬ Overtaken s i tr) :
    p.state.db.freshSeatMap s = some m := by
  obtain ⟨screening, rs, hlast, hfound, hst, rfl⟩ :=
    hm.of_plan (fun a ha => h.planned (i, a) (mem_own.mp ha)) h.plan
  have hread := (h.fresh i rs hlast).resolve_left hover
  simp only [Db.freshSeatMap, hfound, Option.bind_eq_bind, Option.bind_some, if_neg hst]
  refine congrArg some (List.map_congr_left fun seat _ => ?_)
  rw [hread seat.id]
  rfl

theorem Tended.step (h : Tended s w tr p) (hpath : OnPath (seatMapSystem api) tr p) {i : ℕ}
    {op : SeatOp} {k : Except Err c.Reply → M Unit} (hi : p.procs[i]? = some (op, .call c k))
    (hin : (c.fills s).isSome → Overtaken s i tr → Outstanding s tr p) :
    Tended s w (tr ++ [(i, ⟨c, (World.exec api c p.state).1⟩)])
      ⟨(World.exec api c p.state).2, p.procs.set i (op, k (World.exec api c p.state).1)⟩ := by
  have hfollows := hpath.follows i op _ hi
  have hbooking : BookingCmd op.request c := (hfollows.only_rest op.handle_booking).1
  have hc := seatCmd_of_booking hbooking
  have hplan := exec_plan api hc p.state
  refine ⟨h.plan.trans hplan, fun a ha => ?_, h.place.step hbooking i, h.heard.step hi _,
    h.fresh.step hc i, ?_⟩
  · rcases List.mem_append.mp ha with ha | ha
    · exact h.planned a ha
    · rw [List.mem_singleton.mp ha]
      exact planned_exec h.plan c
  by_cases hdel : c = .cacheDel [.seatMap s]
  · subst hdel
    exact .inl (current_del_self s p.state)
  rcases h.current with hcur | hout
  case inr => exact .inr (hout.step hpath h.heard hi hdel)
  by_cases hmoved : s ∈ reseated ⟨c, (World.exec api c p.state).1⟩
  · refine .inr (.inl ⟨_, List.mem_append_right _ (List.mem_singleton_self _), ?_⟩)
    rw [own_snoc, if_pos rfl]
    refine since_snoc.mpr ⟨fun hann => ?_, .inr hmoved⟩
    cases c with
    | emit e => cases hmoved
    | _ => cases hann
  have hsame : (World.exec api c p.state).2.db.freshSeatMap s = p.state.db.freshSeatMap s :=
    Db.freshSeatMap_congr hplan.movies hplan.halls hplan.screenings hplan.seats
      (exec_seats api hc hmoved)
  cases hfill : c.fills s with
  | none =>
    refine .inl fun m hm => ?_
    rcases exec_cache api c p.state hfill with hkept | hnone
    · rw [hsame]
      exact hcur m (hkept ▸ hm)
    · rw [hnone] at hm
      cases hm
  | some m =>
    by_cases hover : Overtaken s i tr
    · have hout := hin (by rw [hfill]; rfl) hover
      exact .inr (hout.step hpath h.heard hi hdel)
    · have hm := h.computed (op.handle_filled.path hfollows s m hfill) hover
      obtain rfl := Cmd.eq_of_fills hfill
      exact .inl (current_set hm hcur)

/-- A new process, or a move of the environment. -/
theorem Tended.spawn (h : Tended s w tr p) (op : SeatOp)
    (hop : ∀ n e, op = .invalidateSeatMap n e → p.state.pending[n]? = some e) :
    Tended s w tr ⟨p.state, p.procs ++ [(op, op.handle)]⟩ := by
  refine ⟨h.plan, h.planned, h.place, fun y hy n e hye => ?_, h.fresh,
    h.current.imp_right fun hout => ?_⟩
  · rcases List.mem_append.mp hy with hy | hy
    · exact h.heard y hy n e hye
    · rw [List.mem_singleton.mp hy] at hye
      exact hop n e hye
  · refine hout.imp_right fun ⟨x, hx, hinv, hrun⟩ => ⟨x, hx, hinv, fun y hy hye => ?_⟩
    rcases List.mem_append.mp hy with hy | hy
    · exact hrun y hy hye
    · rw [List.mem_singleton.mp hy] at hye ⊢
      cases hye
      exact (listener_drops hinv).2

theorem Tended.elapse (h : Tended s w tr p) (e : Env A) :
    Tended s w tr ⟨p.state.elapse api e, p.procs⟩ := by
  have hdb : (p.state.elapse api e).db = p.state.db := World.elapse_db api e p.state
  have hpending : (p.state.elapse api e).pending = p.state.pending := by cases e <;> rfl
  refine ⟨by rw [hdb]; exact h.plan, h.planned, fun a ha x hx => ?_, fun y hy n e' hye => ?_,
    fun i rs hlast => ?_, h.current.imp (fun hcur => ?_) fun hout => ?_⟩
  · rw [hdb]
    exact h.place a ha x hx
  · rw [hpending]
    exact h.heard y hy n e' hye
  · rw [hdb]
    exact h.fresh i rs hlast
  · cases e with
    | evict k => exact current_del _ hcur
    | advance ms => exact hcur
    | stripe a => exact hcur
  · simpa only [Outstanding, hpending] using hout

theorem Tended.act (h : Tended s w tr p) (hpath : OnPath (seatMapSystem api) tr p)
    {x : Choice Err SeatOp (Env A)} (hx : Reacts tr x p ∧ InTime s tr x p)
    (hq : (seatMapSystem api).act x p = some q) :
    Tended s w (tr ++ (seatMapSystem api).answers x p) q := by
  cases x with
  | spawn op =>
    cases hq
    rw [answers_spawn, List.append_nil]
    refine h.spawn op fun n e hop => ?_
    subst hop
    exact hx.1
  | env e =>
    cases hq
    rw [answers_env, List.append_nil]
    exact h.elapse e
  | step i o =>
    obtain ⟨op, c, k, out, hi, hout, rfl, hans⟩ := act_step _ hq
    have hexec : out = World.exec api c p.state := by
      rcases finish_cases _ hout with ⟨-, rfl⟩ | ⟨e, rfl, -⟩ | ⟨e, rfl, -⟩
      · rfl
      · cases hout
      · cases hout
    rw [hans, hexec]
    refine h.step hpath hi ?_
    have hin := hx.2
    simpa only [InTime, hi] using hin

/-- Once everything has run, no invalidation is still to come. -/
theorem Tended.not_outstanding (h : Tended s w tr p) (hpath : OnPath (seatMapSystem api) tr p)
    (hend : Complete p) : ¬ Outstanding s tr p := by
  rintro (⟨a, ha, howing⟩ | ⟨x, hx, hinv, hrun⟩)
  · obtain ⟨⟨op, prog⟩, hi⟩ : ∃ y, p.procs[a.1]? = some y :=
      ⟨_, List.getElem?_eq_getElem (hpath.spawned a ha)⟩
    have hdone : prog.finished := hend.1 _ (List.mem_of_getElem? hi)
    have hfollows := hpath.follows a.1 op prog hi
    cases prog with
    | call c k => cases hdone
    | done r =>
      refine (op.handle_settles s).path hfollows ?_ howing
      rw [List.nil_append]
      refine ⟨fun e r hr => ?_, fun r hr => ?_, fun b hb c hc y hy z hz hyz => ?_⟩
      · exact h.planned _ (mem_own.mp hr)
      · exact h.planned _ (mem_own.mp hr)
      · obtain ⟨r₁, hr₁, hs₁⟩ := h.place _ (mem_own.mp hb) y hy
        obtain ⟨r₂, hr₂, hs₂⟩ := h.place _ (mem_own.mp hc) z hz
        rw [hyz, Option.mem_def] at hr₁
        cases hr₁.symm.trans hr₂
        exact hs₁.symm.trans hs₂
  · obtain ⟨y, hy, hye⟩ := hend.2 x hx
    exact hrun y hy hye (hend.1 y hy)

end Invariant

/-- No map is left stale, in any run in which none that a change has overtaken is stored
but while its invalidation is still to come. -/
theorem no_stale_map {σ A : Type} (api : StripeApi σ A) (w : World σ) (s : ℕ) (hw : Current s w)
    (xs : List (Choice Err SeatOp (Env A))) (p : SeatPool σ)
    (hx : (seatMapSystem api).schedule xs ⟨w, []⟩ = some p)
    (hreacts : (seatMapSystem api).AllStages Reacts xs [] ⟨w, []⟩)
    (hintime : (seatMapSystem api).AllStages (InTime s) xs [] ⟨w, []⟩) (hend : Complete p) :
    Current s p.state := by
  have hstart : Tended s w [] ⟨w, []⟩ :=
    ⟨.refl _, by simp, by simp [InPlace], by simp [Heard], by simp [Fresh, own], .inl hw⟩
  obtain ⟨hpath, hrun⟩ := stages_rule (I := Tended s w)
    (fun tr p x q hpath h hb hq => h.act hpath hb hq) xs (onPath_empty w) hstart hx
    (AllStages.and _ hreacts hintime)
  exact hrun.current.resolve_right (hrun.not_outstanding hpath hend)

/-- The map is stored while the change is not announced. -/
def storedInTime : List (Choice Err SeatOp (Env Account.Action)) :=
  .spawn (.getSeatMap 1) :: solo 0 4 ++ .spawn (.reserve 1 ⟨1, 1⟩) :: solo 1 7 ++
    [.step 0 .answered, .step 1 .answered, .spawn (.invalidateSeatMap 0 (.created 1 [1])),
      .step 2 .answered]

theorem stored_in_time :
    ∃ p, (seatMapSystem testMode).schedule storedInTime ⟨theatre, []⟩ = some p ∧
    Current 1 p.state := by
  have hrun : ((seatMapSystem testMode).schedule storedInTime ⟨theatre, []⟩).any
      fun p => decide (Complete p) := by decide +kernel
  obtain ⟨p, hp, hend⟩ := (Option.any_eq_true _ _).mp hrun
  exact ⟨p, hp, no_stale_map testMode theatre 1 (theatre_coherent 1) storedInTime p hp
    (by decide +kernel) (by decide +kernel) (of_decide_eq_true hend)⟩

/-- A map is read, the seat is taken and the copy dropped, and then the map is stored. -/
def storedLate : List (Choice Err SeatOp (Env Account.Action)) :=
  .spawn (.getSeatMap 1) :: solo 0 4 ++ .spawn (.reserve 1 ⟨1, 1⟩) :: solo 1 8 ++
    [.spawn (.invalidateSeatMap 0 (.created 1 [1])), .step 2 .answered, .step 0 .answered]

/-- The seat is held, and its cached map shows it as free. -/
theorem stale_map_left : ¬ ∀ (w : World Account) (s : ℕ), Current s w →
    ∀ (xs : List (Choice Err SeatOp (Env Account.Action))) (p : SeatPool Account),
      (seatMapSystem testMode).schedule xs ⟨w, []⟩ = some p →
        (seatMapSystem testMode).AllStages Reacts xs [] ⟨w, []⟩ → Complete p →
          Current s p.state := by
  intro h
  have hrun : ((seatMapSystem testMode).schedule storedLate ⟨theatre, []⟩).any
      fun p => decide (Complete p ∧ ¬ Current 1 p.state) := by decide +kernel
  obtain ⟨p, hp, hend⟩ := (Option.any_eq_true _ _).mp hrun
  have hstale := of_decide_eq_true hend
  exact hstale.2 (h theatre 1 (theatre_coherent 1) storedLate p hp (by decide +kernel) hstale.1)

end MovieReservation
