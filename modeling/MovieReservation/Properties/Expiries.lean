import MovieReservation.Lib.Effects
import MovieReservation.Properties.LiveSeats
import MovieReservation.Services.Paths

/-! The expiry of holds. A sweep releases what is HELD, and no statement makes a row HELD
again, so no reservation is released twice; and only a sweep announces an expiry, once for
each row that it got back. -/

namespace MovieReservation

open Lib Lib.Prog Lib.System Lib.Table

/-- The reservation has left HELD. -/
def LeftHeld (id : ℕ) (db : Db) : Prop := ∃ r ∈ db.reservations.get id, r.status ≠ .held

/-- The rows that a statement returned as released. -/
def releasedIn : Answer Cmd Cmd.Reply Err → List Db.ExpiredHold
  | ⟨.releaseExpiredHolds _, .ok rows⟩ => rows
  | _ => []

def released (tr : Log) : List Db.ExpiredHold :=
  tr.flatMap fun a => releasedIn a.2

/-- Whom a `reservation.hold_expired` event is about: user, screening and seat. -/
def Cmd.notices : Cmd → List (ℕ × ℕ × ℕ)
  | .emit (.holdExpired userId screeningId seatId) => [(userId, screeningId, seatId)]
  | _ => []

def Db.ExpiredHold.notice (r : Db.ExpiredHold) : ℕ × ℕ × ℕ := (r.userId, r.screeningId, r.seatId)

def notices (tr : Log) : List (ℕ × ℕ × ℕ) :=
  tr.flatMap fun a => a.2.1.notices

/-! ### A statement -/

section Statement
variable {σ A : Type} (api : StripeApi σ A) {op : BookingRequest} {c : Cmd} {w : World σ} {id : ℕ}

theorem leftHeld_step (hc : BookingCmd op c) (h : LeftHeld id w.db) :
    LeftHeld id (World.exec api c w).2.db := by
  obtain ⟨r, hr, hst⟩ := h
  obtain ⟨s, hs, hrw⟩ := reservation_step api hc hr
  refine ⟨s, hs, ?_⟩
  cases hrw with
  | keep => exact hst
  | lapse _ hheld => exact absurd hheld hst
  | extend => exact hst
  | cancel | confirm | decline | settle => nofun

/-- What a sweep takes is HELD and past its time, and what is CONFIRMED stays. -/
def Cmd.ReleasesDue (c : Cmd) (db : Db) : Prop :=
  match c with
  | .releaseExpiredHolds t =>
    (∀ e ∈ (db.releaseExpiredHolds t).1, ∃ r ∈ db.reservations.get e.id,
      r.status = .held ∧ ∃ deadline ∈ r.heldUntil, deadline < t) ∧
    ∀ id, ∀ r ∈ db.reservations.get id, r.status = .confirmed →
      (∀ e ∈ (db.releaseExpiredHolds t).1, e.id ≠ id) ∧
        (db.releaseExpiredHolds t).2.reservations.get id = some r
  | _ => True

theorem mem_released {db : Db} {t : Time} {e : Db.ExpiredHold} :
    e ∈ (db.releaseExpiredHolds t).1 ↔ ∃ r ∈ db.reservations.get e.id,
      Db.expired t r ∧ e = ⟨r.id, r.userId, r.screeningId, r.seatId⟩ := by
  rw [Db.releaseExpiredHolds, List.mem_map]
  constructor
  · rintro ⟨r, hr, rfl⟩
    obtain ⟨hr, hexp⟩ := List.mem_filter.mp hr
    exact ⟨r, get_of_mem hr, hexp, rfl⟩
  · rintro ⟨r, hr, hexp, he⟩
    exact ⟨r, List.mem_filter.mpr ⟨mem_of_get hr, hexp⟩, he.symm⟩

theorem expired_iff {t : Time} {r : Reservation} :
    Db.expired t r ↔ r.status = .held ∧ ∃ deadline ∈ r.heldUntil, deadline < t := by
  simp [Db.expired, Option.any_eq_true]

theorem releasesDue (c : Cmd) (db : Db) : c.ReleasesDue db := by
  cases c with
  | releaseExpiredHolds t =>
    refine ⟨fun e he => ?_, fun id r hr hst => ⟨fun e he hid => ?_, ?_⟩⟩
    · obtain ⟨r, hr, hexp, -⟩ := mem_released.mp he
      exact ⟨r, hr, expired_iff.mp hexp⟩
    · obtain ⟨r', hr', hexp, -⟩ := mem_released.mp he
      rw [hid, hr] at hr'
      rw [← Option.some.inj hr', expired_iff, hst] at hexp
      cases hexp.1
    · have hkept : Db.release t r = r := by
        refine if_neg fun hexp => ?_
        rw [expired_iff, hst] at hexp
        cases hexp.1
      show (db.reservations.update (Db.release t) (Db.release_id t)).get id = _
      rw [get_update, hr, Option.map_some, hkept]
  | _ => trivial

theorem released_nodup (db : Db) (t : Time) :
    ((db.releaseExpiredHolds t).1.map Db.ExpiredHold.id).Nodup := by
  rw [Db.releaseExpiredHolds, List.map_map]
  exact (db.reservations.nodup).sublist (List.filter_sublist.map _)

theorem leftHeld_of_released {db : Db} {t : Time} {e : Db.ExpiredHold}
    (he : e ∈ (db.releaseExpiredHolds t).1) : LeftHeld e.id (db.releaseExpiredHolds t).2 := by
  obtain ⟨r, hr, hexp, -⟩ := mem_released.mp he
  refine ⟨Db.release t r, ?_, ?_⟩
  · show (db.reservations.update (Db.release t) (Db.release_id t)).get e.id = _
    rw [get_update, hr, Option.map_some]
  · rw [Db.release, if_pos hexp]
    intro hheld
    cases hheld

/-- Only what is HELD is released. -/
theorem not_leftHeld_of_released {db : Db} {t : Time} {e : Db.ExpiredHold}
    (he : e ∈ (db.releaseExpiredHolds t).1) : ¬ LeftHeld e.id db := by
  rintro ⟨r, hr, hst⟩
  obtain ⟨r', hr', hexp, -⟩ := mem_released.mp he
  rw [hr] at hr'
  rw [← Option.some.inj hr', expired_iff] at hexp
  exact hst hexp.1

/-- What was released so far is over, and was released once. -/
def Swept (tr : Log) (w : World σ) : Prop :=
  ((released tr).map Db.ExpiredHold.id).Nodup ∧ ∀ e ∈ released tr, LeftHeld e.id w.db

theorem Swept.step {tr : Log} (h : Swept tr w) (i : ℕ)
    (hc : BookingCmd op c) :
    Swept (tr ++ [(i, ⟨c, (World.exec api c w).1⟩)]) (World.exec api c w).2 := by
  have hsplit : released (tr ++ [(i, ⟨c, (World.exec api c w).1⟩)]) =
      released tr ++ releasedIn ⟨c, (World.exec api c w).1⟩ := by simp [released]
  have hover : ∀ e ∈ released tr, LeftHeld e.id (World.exec api c w).2.db := fun e he =>
    leftHeld_step api hc (h.2 e he)
  rw [Swept, hsplit]
  cases c with
  | releaseExpiredHolds t =>
    refine ⟨?_, fun e he => ?_⟩
    · rw [List.map_append, List.nodup_append]
      refine ⟨h.1, released_nodup w.db t, fun a ha b hb hab => ?_⟩
      obtain ⟨e, he, rfl⟩ := List.mem_map.mp ha
      obtain ⟨e', he', rfl⟩ := List.mem_map.mp hb
      exact not_leftHeld_of_released he' (hab ▸ h.2 e he)
    · rcases List.mem_append.mp he with he | he
      · exact hover e he
      · exact leftHeld_of_released he
  | _ =>
    rw [show releasedIn _ = [] from rfl, List.append_nil]
    exact ⟨h.1, hover⟩

end Statement

/-! ### The programs -/

/-- The program announces no expiry. -/
abbrev Unheralded {α : Type} (p : M α) : Prop := Only (fun c => c.notices = []) p

theorem Cmd.notices_of_plain {c : Cmd} (h : c.plain = true) : c.notices = [] := by
  cases c with
  | emit e => cases e <;> first | rfl | cases h
  | _ => rfl

theorem Cmd.notices_of_mute {c : Cmd} (h : c.mute = true) : c.notices = [] := by
  cases c with
  | emit e => cases h
  | _ => rfl

/-- Only the sweep announces expiries. -/
theorem handle_unheralded {op : BookingRequest} (h : op ≠ .expireHolds) :
    Unheralded op.handle := by
  by_cases hmap : ∃ s, op = .getSeatMap s
  · obtain ⟨s, rfl⟩ := hmap
    exact Only.bind ((getSeatMap_mute s).mono fun _ => Cmd.notices_of_mute) fun _ => trivial
  · have hplain := op.handle_plain h fun s hs => hmap ⟨s, hs⟩
    exact hplain.mono fun _ => Cmd.notices_of_plain

/-- The commands of a loop of emissions, as far as it came. -/
theorem follows_emits {β : Type} (g : β → ReservationEvent) :
    ∀ (xs : List β) {l : List (Answer Cmd Cmd.Reply Err)} {q : M PUnit},
      Follows (forM xs fun x => emit (g x)) l q →
        l.map Sigma.fst <+: xs.map fun x => Cmd.emit (g x)
  | [], l, q, h => by
    obtain ⟨rfl, -⟩ := Follows.of_done h
    exact List.nil_prefix
  | x :: xs, l, q, h => by
    rw [List.forM_cons] at h
    rcases h.issue_bind with rfl | ⟨e, rfl, -⟩ | ⟨a, l', rfl, h'⟩
    · exact List.nil_prefix
    · exact List.cons_prefix_cons.mpr ⟨rfl, List.nil_prefix⟩
    · exact List.cons_prefix_cons.mpr ⟨rfl, follows_emits g xs h'⟩

/-- What a process announced, of what it was told. -/
def noticesOf (l : List (Answer Cmd Cmd.Reply Err)) : List (ℕ × ℕ × ℕ) :=
  l.flatMap fun a => a.1.notices

theorem noticesOf_emits {β : Type} (g : β → ReservationEvent) (xs : List β)
    {l : List (Answer Cmd Cmd.Reply Err)} {q : M PUnit}
    (h : Follows (forM xs fun x => emit (g x)) l q) :
    noticesOf l <+: xs.flatMap fun x => (Cmd.emit (g x)).notices := by
  have hprefix := (follows_emits g xs h).flatMap Cmd.notices
  rwa [List.flatMap_map, List.flatMap_map] at hprefix

/-- A sweep announces what it got back, from the first row on. -/
theorem expireHolds_notices {l : List (Answer Cmd Cmd.Reply Err)} {q : M Unit}
    (h : Follows ReservationsService.expireHolds l q) :
    noticesOf l <+: (l.flatMap releasedIn).map Db.ExpiredHold.notice := by
  rcases h.issue_bind with rfl | ⟨e, rfl, -⟩ | ⟨t, l₁, rfl, h₁⟩
  · exact List.nil_prefix
  · exact List.nil_prefix
  rcases h₁.issue_bind with rfl | ⟨e, rfl, -⟩ | ⟨rows, l₂, rfl, h₂⟩
  · exact List.nil_prefix
  · exact List.nil_prefix
  have hgroups : ∀ {l' : List (Answer Cmd Cmd.Reply Err)} {q' : M PUnit},
      Follows (forM (ReservationsService.byScreening rows) fun g => emit (.cancelled g.1 g.2))
        l' q' → noticesOf l' = [] := by
    intro l' q' h'
    refine List.prefix_nil.mp ((noticesOf_emits _ _ h').trans ?_)
    simp [Cmd.notices]
  have hrows : noticesOf l₂ <+: rows.map Db.ExpiredHold.notice := by
    rcases h₂.bind_cases with ⟨p', hp, -⟩ | ⟨_, l₃, l₄, rfl, h₃, h₄⟩
    · rw [hgroups hp]
      exact List.nil_prefix
    · have hfirst := hgroups h₃
      rw [noticesOf] at hfirst ⊢
      rw [List.flatMap_append, hfirst, List.nil_append, List.map_eq_flatMap]
      exact noticesOf_emits _ _ h₄
  refine hrows.trans ?_
  simp [releasedIn, List.map_append]

theorem handle_notices {op : BookingRequest} {l : List (Answer Cmd Cmd.Reply Err)}
    {q : M Response} (h : Follows op.handle l q) :
    noticesOf l <+: (l.flatMap releasedIn).map Db.ExpiredHold.notice := by
  by_cases hop : op = .expireHolds
  · subst hop
    -- neither the `catch` of the job nor the answer to it issues anything
    have hjob : ∀ {l' : List (Answer Cmd Cmd.Reply Err)} {q' : M Unit},
        Follows HoldExpiryCron.handleExpireHolds l' q' →
          noticesOf l' <+: (l'.flatMap releasedIn).map Db.ExpiredHold.notice := by
      intro l' q' h'
      rcases h'.tryCatch_cases with ⟨p', hp, -⟩ | ⟨e, l₁, l₂, rfl, hp, hcatch⟩
      · exact expireHolds_notices hp
      · obtain ⟨rfl, -⟩ := Follows.of_done hcatch
        rw [List.append_nil]
        exact expireHolds_notices hp
    rcases h.bind_cases with ⟨p', hp, -⟩ | ⟨_, l₁, l₂, rfl, hp, hend⟩
    · exact hjob hp
    · obtain ⟨rfl, -⟩ := Follows.of_done hend
      rw [List.append_nil]
      exact hjob hp
  · have hnone : noticesOf l = [] :=
      List.flatMap_eq_nil_iff.mpr fun a ha => h.only (handle_unheralded hop) a ha
    rw [hnone]
    exact List.nil_prefix

/-! ### Every run -/

/-- What is to hold of the sweeps of a run. -/
structure ExpiresOnce {σ A : Type} (api : StripeApi σ A) (w : World σ)
    (xs : List (Choice Err BookingRequest (Env A))) : Prop where
  /-- No reservation is in two results of a sweep's statement, told to a sweep or not. -/
  once : ((released ((bookingSystem api).effects xs ⟨w, []⟩)).map Db.ExpiredHold.id).Nodup
  due : (bookingSystem api).AllMeet (fun _ _ c v => c.ReleasesDue v.db) xs ⟨w, []⟩
  /-- Every announcement is of a reservation of its own that a sweep got back. -/
  announced : ∃ rows : List Db.ExpiredHold, (rows.map Db.ExpiredHold.id).Nodup ∧
    rows ⊆ released ((bookingSystem api).trace xs ⟨w, []⟩) ∧
      (rows.map Db.ExpiredHold.notice).Perm (notices ((bookingSystem api).trace xs ⟨w, []⟩))

/-- In every run, from any state: the sweeps release no reservation twice, only what is
HELD and past its time, and what they announce they announce once. -/
theorem expires_once {σ A : Type} (api : StripeApi σ A) (w : World σ)
    (xs : List (Choice Err BookingRequest (Env A)))
    (p : Pool Cmd Cmd.Reply Err (World σ) BookingRequest Response)
    (hx : (bookingSystem api).schedule xs ⟨w, []⟩ = some p) : ExpiresOnce api w xs := by
  have honce : Swept ((bookingSystem api).effects xs ⟨w, []⟩) p.state :=
    effects_rule (bookingSystem api) (I := Swept) BookingRequest.handle_only
      (fun l v e h => ⟨h.1, fun x hx => by
        have := h.2 x hx
        rwa [← World.elapse_db api e v] at this⟩)
      (fun l v i op c hc h => h.step api i hc) xs [] (within_empty _ w) ⟨List.nodup_nil, nofun⟩ hx
  refine ⟨honce.1, allMeet_of_forall _ (fun _ _ c v => releasesDue c _) xs _, ?_⟩
  have hpath := onPath hx
  have hown : ∀ i, ((own i ((bookingSystem api).trace xs ⟨w, []⟩)).flatMap fun a =>
      a.1.notices).Subperm ((own i ((bookingSystem api).trace xs ⟨w, []⟩)).flatMap fun a =>
        (releasedIn a).map Db.ExpiredHold.notice) := by
    intro i
    rw [← List.map_flatMap]
    cases hi : p.procs[i]? with
    | some y => exact (handle_notices (hpath.follows i y.1 y.2 hi)).sublist.subperm
    | none =>
      have hnil : own i ((bookingSystem api).trace xs ⟨w, []⟩) = [] :=
        own_eq_nil fun a ha => (hpath.spawned a ha).trans_le (List.getElem?_eq_none_iff.mp hi)
      rw [hnil]
      exact List.nil_subperm
  obtain ⟨l, hl, hsub⟩ := subperm_of_own hown
  rw [← List.map_flatMap] at hsub
  obtain ⟨rows, hrows, rfl⟩ := List.sublist_map_iff.mp hsub
  have htold := trace_sublist_effects (bookingSystem api) (f := releasedIn) (fun c e => ?_) xs
    ⟨w, []⟩
  · exact ⟨rows, honce.1.sublist ((hrows.trans htold).map _), hrows.subset, hl⟩
  · cases c <;> rfl

/-! ### A run -/

/-- A hold lapses, and two sweeps run side by side. -/
def sweptTwice : List (Choice Err BookingRequest (Env Account.Action)) :=
  .spawn (.reserve 1 ⟨1, 1⟩) :: solo 0 8 ++ [.env (.advance (11 * 60000)), .spawn .expireHolds,
    .spawn .expireHolds, .step 1 .answered, .step 2 .answered, .step 2 .answered,
    .step 1 .answered, .step 2 .answered, .step 2 .answered]

theorem swept_once : ExpiresOnce testMode theatre sweptTwice := by
  have hrun : ((bookingSystem testMode).schedule sweptTwice ⟨theatre, []⟩).isSome := by
    decide +kernel
  obtain ⟨p, hp⟩ := Option.isSome_iff_exists.mp hrun
  exact expires_once testMode theatre sweptTwice p hp

end MovieReservation
