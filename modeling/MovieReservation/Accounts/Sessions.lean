import MovieReservation.Accounts.Tokens

/-! The refresh tokens of a user and the set that lists them: what storing, rotating and
deleting do to the two, and when every token that can be used is listed. -/

namespace MovieReservation

open Lib Lib.Prog Accounts

namespace Keyspace

/-- The refresh token can be rotated. -/
def Holds (ks : Keyspace) (now : Time) (u jti : ℕ) : Prop :=
  (ks.live now (.refresh u jti)).isSome = true

/-- What `SMEMBERS` answers. -/
def sessions (ks : Keyspace) (now : Time) (u : ℕ) : List ℕ :=
  (ks.get now (.refreshSessions u)).getD []

/-- Every token of the user that can be rotated is in the set, which does not expire. -/
structure Listed (ks : Keyspace) (now : Time) (u : ℕ) : Prop where
  lasting : ∀ e ∈ ks (.refreshSessions u), e.expiresAt = none
  listed : ∀ jti, ks.Holds now u jti → jti ∈ ks.sessions now u

variable {ks ks' : Keyspace} {now : Time} {u v i j : ℕ}

theorem live_congr {k : AuthKey} (h : ks' k = ks k) : ks'.live now k = ks.live now k := by
  unfold live
  rw [h]

theorem holds_congr (h : ks' (.refresh u j) = ks (.refresh u j)) :
    ks'.Holds now u j ↔ ks.Holds now u j := by
  unfold Holds
  rw [live_congr h]

theorem sessions_congr (h : ks' (.refreshSessions u) = ks (.refreshSessions u)) :
    ks'.sessions now u = ks.sessions now u := by
  unfold sessions get
  rw [live_congr h]

/-- A set that does not expire is read as it is stored. -/
theorem live_of_lasting (h : ∀ e ∈ ks (.refreshSessions u), e.expiresAt = none) (now : Time) :
    ks.live now (.refreshSessions u) = ks (.refreshSessions u) := by
  unfold live
  cases he : ks (.refreshSessions u) with
  | none => rfl
  | some e => simp [Option.filter, h e he]

variable (now) in
theorem onSessions_self (h : ∀ e ∈ ks (.refreshSessions u), e.expiresAt = none)
    (f : List ℕ → List ℕ) : (ks.onSessions now u f) (.refreshSessions u) =
      some ⟨f (ks.sessions now u), none⟩ := by
  unfold onSessions sessions get
  rw [live_of_lasting h]
  simp only [put, Function.update_self]
  cases he : ks (.refreshSessions u) with
  | none => rfl
  | some e =>
    obtain ⟨value, expiresAt⟩ := e
    cases h _ he
    rfl

theorem holds_set {seconds : ℕ} (h : (ks.set now (.refresh v j) () seconds).Holds now u i) :
    ks.Holds now u i ∨ v = u ∧ j = i := by
  by_cases hk : AuthKey.refresh u i = .refresh v j
  · cases hk
    exact .inr ⟨rfl, rfl⟩
  · exact .inl ((holds_congr (ks.set_ne now hk () seconds)).mp h)

theorem holds_del {keys : List AuthKey} :
    (ks.del keys).Holds now u i ↔ .refresh u i ∉ keys ∧ ks.Holds now u i := by
  by_cases hk : AuthKey.refresh u i ∈ keys
  · refine iff_of_false (fun h => ?_) fun h => h.1 hk
    simp [Holds, live, del, hk] at h
  · rw [and_iff_right hk]
    exact holds_congr (if_neg hk)

theorem holds_onSessions {f : List ℕ → List ℕ} :
    (ks.onSessions now v f).Holds now u i ↔ ks.Holds now u i := by
  have hne : AuthKey.refresh u i ≠ .refreshSessions v := nofun
  exact holds_congr (ks.onSessions_ne now v hne f)

theorem Listed.congr (h : ks.Listed now u)
    (hset : ks' (.refreshSessions u) = ks (.refreshSessions u))
    (htokens : ∀ jti, ks' (.refresh u jti) = ks (.refresh u jti)) : ks'.Listed now u := by
  refine ⟨hset ▸ h.lasting, fun jti hj => ?_⟩
  rw [sessions_congr hset]
  exact h.listed jti ((holds_congr (htokens jti)).mp hj)

variable (now v) in
/-- The set of a user after a change of some user's set. -/
theorem Listed.onSessions (h : ∀ e ∈ ks (.refreshSessions u), e.expiresAt = none)
    (f : List ℕ → List ℕ) :
    (∀ e ∈ (ks.onSessions now v f) (.refreshSessions u), e.expiresAt = none) ∧
      (ks.onSessions now v f).sessions now u =
        if v = u then f (ks.sessions now u) else ks.sessions now u := by
  split_ifs with hv
  · subst hv
    have hself := onSessions_self now h f
    have hlasting : ∀ e ∈ (ks.onSessions now v f) (.refreshSessions v), e.expiresAt = none := by
      rw [hself]
      intro e he
      cases he
      rfl
    refine ⟨hlasting, ?_⟩
    unfold sessions get
    rw [live_of_lasting hlasting, hself]
    rfl
  · have hne : (ks.onSessions now v f) (.refreshSessions u) = ks (.refreshSessions u) :=
      ks.onSessions_ne now v (fun he => hv (by cases he; rfl)) f
    exact ⟨by rwa [hne], sessions_congr hne⟩

/-- `SET` and `SADD` of a new token. -/
theorem Listed.store (h : ks.Listed now u) (v j seconds : ℕ) :
    ((ks.set now (.refresh v j) () seconds).onSessions now v (List.insert j)).Listed now u := by
  have hne : AuthKey.refreshSessions u ≠ .refresh v j := nofun
  have hset : (ks.set now (.refresh v j) () seconds) (.refreshSessions u) =
      ks (.refreshSessions u) := ks.set_ne now hne () seconds
  obtain ⟨hlasting, hsessions⟩ := Listed.onSessions now v (hset ▸ h.lasting) (List.insert j)
  refine ⟨hlasting, fun i hi => ?_⟩
  rw [hsessions, sessions_congr hset]
  rcases holds_set (holds_onSessions.mp hi) with hold | ⟨rfl, rfl⟩
  · have hmem := h.listed i hold
    split_ifs
    · exact List.mem_insert_of_mem hmem
    · exact hmem
  · rw [if_pos rfl]
    exact List.mem_insert_self

/-- The script that rotates a token. -/
theorem Listed.rotate (h : ks.Listed now u) (v i j seconds : ℕ) :
    ((((ks.del [.refresh u i]).set now (.refresh v j) () seconds).onSessions now v
      (List.filter (· ≠ i))).onSessions now v (List.insert j)).Listed now u := by
  have hne : AuthKey.refreshSessions u ≠ .refresh v j := nofun
  have hset : ((ks.del [.refresh u i]).set now (.refresh v j) () seconds) (.refreshSessions u) =
      ks (.refreshSessions u) :=
    ((ks.del [.refresh u i]).set_ne now hne () seconds).trans (if_neg (by simp))
  obtain ⟨hlasting, hfilter⟩ := Listed.onSessions now v (hset ▸ h.lasting) (List.filter (· ≠ i))
  obtain ⟨hlasting', hinsert⟩ := Listed.onSessions now v hlasting (List.insert j)
  refine ⟨hlasting', fun k hk => ?_⟩
  rw [hinsert, hfilter, sessions_congr hset]
  rcases holds_set (holds_onSessions.mp (holds_onSessions.mp hk)) with hold | ⟨rfl, rfl⟩
  · obtain ⟨hki, hold⟩ := holds_del.mp hold
    have hmem := h.listed k hold
    split_ifs
    · refine List.mem_insert_of_mem (List.mem_filter.mpr ⟨hmem, decide_eq_true ?_⟩)
      rintro rfl
      exact hki (List.mem_singleton_self _)
    · exact hmem
  · rw [if_pos rfl]
    exact List.mem_insert_self

/-- The deletion of tokens that were read, and of the set, leaves those that were not. -/
theorem holds_revoke {jtis : List ℕ}
    (h : (ks.del (jtis.map (.refresh u) ++ [.refreshSessions u])).Holds now u j) :
    j ∉ jtis ∧ ks.Holds now u j := by
  obtain ⟨hnot, hold⟩ := holds_del.mp h
  refine ⟨fun hj => hnot ?_, hold⟩
  exact List.mem_append_left _ (List.mem_map.mpr ⟨j, hj, rfl⟩)

theorem holds_earlier {now' : Time} (h : ks.Holds now' u j) (hle : now ≤ now') :
    ks.Holds now u j := by
  unfold Holds live at h ⊢
  cases hk : ks (.refresh u j) with
  | none =>
    rw [hk] at h
    cases h
  | some e =>
    rw [hk] at h
    obtain ⟨e', he'⟩ := Option.isSome_iff_exists.mp h
    obtain ⟨heq, hlive⟩ := Option.filter_eq_some_iff.mp he'
    cases heq
    refine Option.isSome_iff_exists.mpr ⟨e, Option.filter_eq_some_iff.mpr ⟨rfl, ?_⟩⟩
    cases hx : e.expiresAt with
    | none => rfl
    | some t =>
      have hlater : ¬ t ≤ now' := by simpa [hx] using hlive
      have hnow : ¬ t ≤ now := fun ht => hlater (Int.le_trans ht hle)
      simp [hnow]

/-- Time passes. -/
theorem Listed.later (h : ks.Listed now u) {now' : Time} (hle : now ≤ now') :
    ks.Listed now' u := by
  refine ⟨h.lasting, fun j hj => ?_⟩
  have hmem := h.listed j (holds_earlier hj hle)
  unfold sessions get at hmem ⊢
  rwa [live_of_lasting h.lasting] at hmem ⊢

end Keyspace

/-! ### What leaves the sessions alone -/

def AuthCmd.leavesSessions : AuthCmd → Bool
  | .set (.refresh _ _) _ _ | .set (.refreshSessions _) _ _ | .del _ | .storeRefresh _ _ _
  | .rotateRefresh _ _ _ _ _ => false
  | _ => true

theorem AuthCmd.not_writesKey_of_leavesSessions {c : AuthCmd} (h : c.leavesSessions = true)
    (u : ℕ) : (∀ j, ¬ c.writesKey (.refresh u j)) ∧ ¬ c.writesKey (.refreshSessions u) := by
  cases c with
  | set k v seconds =>
    cases k with
    | refresh v j => cases h
    | refreshSessions v => cases h
    | _ => simp [AuthCmd.writesKey]
  | del keys => cases h
  | storeRefresh v jti seconds => cases h
  | rotateRefresh old oldJti v jti seconds => cases h
  | _ => simp [AuthCmd.writesKey]

theorem exec_leavesSessions (lib : Hashing) (s : Accounts) {c : AuthCmd}
    (h : c.leavesSessions = true) (u : ℕ) :
    (∀ j, (exec lib c s).2.keys (.refresh u j) = s.keys (.refresh u j)) ∧
      (exec lib c s).2.keys (.refreshSessions u) = s.keys (.refreshSessions u) := by
  obtain ⟨htokens, hset⟩ := AuthCmd.not_writesKey_of_leavesSessions h u
  exact ⟨fun j => exec_key (htokens j), exec_key hset⟩

end MovieReservation
