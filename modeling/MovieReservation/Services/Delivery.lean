import MovieReservation.Services.Footprint

/-! The delivery of events: what the listeners do, and what they leave as it was. -/

namespace MovieReservation

open Lib Lib.Prog

theorem cacheDel_quiet (keys : List CacheKey) : Quiet (cacheDel keys) :=
  Only.tryCatch (quiet_request rfl) fun _ => trivial

theorem getScreeningSummary_quiet (id : ℕ) : Quiet (ScreeningsService.getScreeningSummary id) :=
  Only.bind (ScreeningsService.getSeatMap_quiet id) fun _ => trivial

theorem broadcast_quiet (id : ℕ) : Quiet (ReservationBroadcastListener.broadcast id) := by
  refine Only.tryCatch ?_ fun _ => trivial
  exact Only.bind (getScreeningSummary_quiet id) fun _ => quiet_request rfl

/-- No listener writes the database. -/
theorem Listener.handle_quiet (l : Listener) : Quiet l.handle := by
  cases l with
  | cache e =>
    cases e with
    | created id seatIds | cancelled id seatIds => exact cacheDel_quiet _
    | confirmed id seatIds => trivial
    | holdExpired userId id seatId => trivial
  | broadcast e =>
    cases e with
    | created id seatIds | cancelled id seatIds | confirmed id seatIds => exact broadcast_quiet id
    | holdExpired userId id seatId => exact quiet_request rfl

section Deliver
variable {σ A : Type} (api : StripeApi σ A)

theorem within_listeners {P : Listener → Cmd → Prop} (hP : ∀ l, Only (P l) l.handle)
    (events : List ReservationEvent) (w : World σ) :
    System.Within P (⟨w, listeners events⟩ : Pool Cmd Cmd.Reply Err (World σ) Listener Unit) := by
  intro x hx
  obtain ⟨e, -, he⟩ := List.mem_flatMap.mp hx
  obtain ⟨l, -, rfl⟩ := List.mem_map.mp he
  exact hP l

/-- What every command of the listeners keeps, a delivery keeps. -/
theorem deliver_keeps {P : Listener → Cmd → Prop} {I : World σ → Prop}
    (hP : ∀ l, Only (P l) l.handle)
    (hI : ∀ l c w, P l c → I w → I (World.exec api c w).2)
    {xs : List (Choice Err Listener Empty)} {w w' : World σ} (h : deliver api xs w = some w')
    (hw : I { w with pending := [] }) : I w' := by
  obtain ⟨p, hp, hq⟩ := Option.bind_eq_some_iff.mp h
  split_ifs at hq
  cases hq
  exact System.Within.keeps (A := fun _ _ _ _ => True) hP (fun e _ _ => nomatch e)
    (fun _ op c s hc _ hs => hI op c s hc hs) xs
    (within_listeners hP w.pending { w with pending := [] }) hw hp
    (System.allMeet_of_forall _ (fun _ _ _ _ => trivial) xs _)

theorem deliver_db {xs : List (Choice Err Listener Empty)} {w w' : World σ}
    (h : deliver api xs w = some w') : w'.db = w.db :=
  deliver_keeps api (I := fun v => v.db = w.db) Listener.handle_quiet
    (fun _ _ v hc hv => (World.exec_quiet api hc v).trans hv) h rfl

end Deliver

/-! ### Along a history -/

section Throughout
variable {σ A R : Type} (api : StripeApi σ A) (handle : R → M Response)

/-- `P` holds of every turn of a history, with the world it starts from and the world it
ends in. -/
def Throughout (P : Turn R A → World σ → World σ → Prop) : List (Turn R A) → World σ → Prop
  | [], _ => True
  | x :: xs, w => ∀ w' ∈ turn api handle x w, P x w w' ∧ Throughout P xs w'

instance decidableThroughout (P : Turn R A → World σ → World σ → Prop)
    [∀ x w w', Decidable (P x w w')] :
    ∀ (ys : List (Turn R A)) (w : World σ), Decidable (Throughout api handle P ys w)
  | [], _ => inferInstanceAs (Decidable True)
  | x :: xs, w =>
    match h : turn api handle x w with
    | none => .isTrue fun w' hw' => by rw [h] at hw'; cases hw'
    | some w' =>
      have : Decidable (Throughout api handle P xs w') := decidableThroughout P xs w'
      decidable_of_iff (P x w w' ∧ Throughout api handle P xs w') (by
        simp [Throughout, h])

/-- `Q` holds of every world that a history passes. -/
def Always (Q : World σ → Prop) : List (Turn R A) → World σ → Prop
  | [], w => Q w
  | x :: xs, w => Q w ∧ ∀ w' ∈ turn api handle x w, Always Q xs w'

variable {api handle} in
/-- So it holds of the last one. -/
theorem Always.last {Q : World σ → Prop} {ys : List (Turn R A)} {w v : World σ}
    (h : Always api handle Q ys w) (hv : history api handle ys w = some v) : Q v := by
  induction ys generalizing w with
  | nil =>
    cases hv
    exact h
  | cons x ys ih =>
    obtain ⟨w', hturn, hrest⟩ := Option.bind_eq_some_iff.mp hv
    exact ih (h.2 w' hturn) hrest

/-- Every command of the turn's operation meets `allow`. -/
def Turn.Along (allow : Cmd → World σ → Prop) : Turn R A → World σ → Prop
  | .perform r _, w => Prog.Along (World.exec api) allow (handle r) w
  | .env _, _ => True

instance decidableTurnAlong (allow : Cmd → World σ → Prop) [∀ c w, Decidable (allow c w)] :
    ∀ (x : Turn R A) (w : World σ), Decidable (x.Along api handle allow w)
  | .perform r _, w => Prog.decidableAlong (World.exec api) allow (handle r) w
  | .env _, _ => inferInstanceAs (Decidable True)

variable {api handle} {P Q : Turn R A → World σ → World σ → Prop}

/-- What every turn that satisfies `P` keeps, a history of such turns keeps. -/
theorem Throughout.keeps {I : World σ → Prop}
    (hstep : ∀ x w w', I w → turn api handle x w = some w' → P x w w' → I w') :
    ∀ {ys : List (Turn R A)} {w w' : World σ}, Throughout api handle P ys w → I w →
      history api handle ys w = some w' → I w'
  | [], _, _, _, hw, h => Option.some.inj h ▸ hw
  | x :: ys, w, w', hP, hw, h => by
    obtain ⟨v, hv, h⟩ := Option.bind_eq_some_iff.mp h
    obtain ⟨hx, hys⟩ := hP v hv
    exact Throughout.keeps hstep hys (hstep x w v hw hv hx) h

theorem throughout_congr
    (h : ∀ x w w', turn api handle x w = some w' → (P x w w' ↔ Q x w w')) :
    ∀ (xs : List (Turn R A)) (w : World σ),
      Throughout api handle P xs w ↔ Throughout api handle Q xs w
  | [], _ => Iff.rfl
  | x :: xs, w =>
    forall₂_congr fun w' hw' => and_congr (h x w w' hw') (throughout_congr h xs w')

theorem Throughout.last {x : Turn R A} {w w' : World σ} (hx : turn api handle x w = some w') :
    ∀ {ys : List (Turn R A)} {w₀ : World σ}, Throughout api handle P (ys ++ [x]) w₀ →
      history api handle ys w₀ = some w → P x w w'
  | [], w₀, h, hw => by
    cases hw
    exact (h w' hx).1
  | y :: ys, w₀, h, hw => by
    obtain ⟨v, hv, hw⟩ := Option.bind_eq_some_iff.mp hw
    exact Throughout.last hx (h v hv).2 hw

/-- An invariant that implies `Q`, that the turns meeting `C` keep, and after which all other
turns break `Q`: then `Q` holds everywhere exactly if the turns meet `C`. -/
theorem always_iff {I Q : World σ → Prop} {C : Turn R A → World σ → Prop}
    (hQ : ∀ w, I w → Q w)
    (hkeep : ∀ x w w', I w → C x w → turn api handle x w = some w' → I w')
    (hbreak : ∀ x w w', I w → ¬ C x w → turn api handle x w = some w' → ¬ Q w') :
    ∀ (ys : List (Turn R A)) {w : World σ}, I w →
      (Always api handle Q ys w ↔ Throughout api handle (fun x v _ => C x v) ys w)
  | [], w, hw => iff_of_true (hQ w hw) trivial
  | x :: ys, w, hw => by
    refine (and_iff_right (hQ w hw)).trans (forall₂_congr fun w' hw' => ?_)
    by_cases hx : C x w
    · rw [and_iff_right hx]
      exact always_iff hQ hkeep hbreak ys (hkeep x w w' hw hx hw')
    · refine iff_of_false (fun h => hbreak x w w' hw hx hw' ?_) fun h => hx h.1
      cases ys with
      | nil => exact h
      | cons y ys => exact h.1

end Throughout

end MovieReservation
