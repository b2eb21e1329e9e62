import MovieReservation.Accounts.Sessions
import MovieReservation.Properties.SignedIn

/-! What ends a session. Logging out and changing the password delete every refresh token
that the user was given, with two commands: one reads which there are, the next deletes them.
Here requests are served one at a time, and any command of any request may fail but those
of a pipeline. -/

namespace MovieReservation

open Lib Lib.Prog Lib.System

/-! ### Requests that end sessions -/

/-- The user whose sessions the request ends. -/
def SiteRequest.ends : SiteRequest → Option ℕ
  | logout (some t) | changePassword (some t) _ _ => some t.user.id
  | _ => none

section Ends
variable {env : AuthEnv} {l : SiteTrail}

/-- What is known before the cookies are set is known when the response goes out. -/
theorem cookies_keep {K : AuthTrail → Prop} (hK : ∀ l a, K l → K (l ++ [a]))
    (x : AccessToken × RefreshToken) (body : SiteResponse) (h : K (lefts l)) :
    Yields (Knows fun l _ => K (lefts l)) l (do
      TokenService.setAuthCookies x.1 x.2
      return body) := by
  have hkept : ∀ (l : SiteTrail) a, K (lefts l) → K (lefts (l ++ [a])) := by
    rintro l ⟨c | c, r⟩ h
    · rw [lefts_inl]
      exact hK _ _ h
    · rw [lefts_inr]
      exact h
  exact ((yields_of (Q := fun _ _ => True) (fun _ _ => trivial) _).keep hkept h).mono
    fun l r h v _ => h.1

/-- A request that is answered has ended every session of the user. -/
theorem SiteRequest.handle_ends {r : SiteRequest} {u : ℕ} (h : r.ends = some u) :
    Yields (Knows fun l _ => RevokedAll u (lefts l)) [] (r.handle env) := by
  cases r with
  | logout cookie =>
    cases cookie with
    | none => cases h
    | some t =>
      cases h
      refine (jwtGuard_presents (some t)).bind (fun l e _ v hv => by cases hv)
        fun user l huser => ?_
      obtain ⟨-, ⟨⟩, -, rfl⟩ := huser user rfl
      refine (revokeAllSessions_revokes t.user.id).left.bind (fun l e _ v hv => by cases hv)
        fun _ l hr v hv => ?_
      cases hv
      exact hr () rfl
  | changePassword cookie current new =>
    cases cookie with
    | none => cases h
    | some t =>
      cases h
      refine (jwtGuard_presents (some t)).bind (fun l e _ v hv => by cases hv)
        fun user l huser => ?_
      obtain ⟨-, ⟨⟩, -, rfl⟩ := huser user rfl
      refine (changePassword_madeOut t.user.id current new).left.bind
        (fun l e _ v hv => by cases hv) fun x l hx => ?_
      exact cookies_keep (K := RevokedAll t.user.id) (fun l a h => h.append [a]) x _ (hx x rfl).1
  | _ => cases h

/-- A refresh that is answered has exchanged the token. -/
theorem refresh_exchanges (t : RefreshToken) :
    Yields (Knows fun l _ => Exchanged t.sub t.jti (lefts l)) []
      (AuthController.refresh (some t)) := by
  refine (refreshGuard_presents (some t)).bind (fun l e _ v hv => by cases hv)
    fun token l htoken => ?_
  obtain ⟨⟨⟩, -⟩ := htoken token rfl
  refine (yields_of (Q := fun _ _ => True) (fun _ _ => trivial) _).bind
    (fun l e _ v hv => by cases hv) fun fresh l _ => ?_
  refine (rotateAuthCookies_madeOut t.sub t.jti fresh).left.bind
    (fun l e _ v hv => by cases hv) fun x l hx => ?_
  exact cookies_keep (K := Exchanged t.sub t.jti) (fun l a h => h.append [a]) x _ (hx x rfl).2

end Ends

/-! ### One request -/

abbrev Site.Holds (s : Site) (u jti : ℕ) : Prop := s.accounts.keys.Holds s.accounts.now u jti

/-- What an answer that was given in a request says of the state. -/
def Says (start : Site) (l : SiteTrail) (s : Site) : Answer SiteCmd SiteReply Err → Prop
  | ⟨.inl .randomUUID, .ok jti⟩ => start.accounts.draws ≤ jti ∧ jti < s.accounts.draws
  | ⟨.inl (.userFindById id), .ok (some u)⟩ => u.id = id
  | ⟨.inl (.get (.refreshSessions u)), .ok jtis⟩ =>
    ∀ jti, s.Holds u jti → jti ∈ jtis.getD [] ∨ DrawnId jti l
  | ⟨.inl (.del keys), .ok _⟩ =>
    ∀ u, .refreshSessions u ∈ keys → ∀ jti, s.Holds u jti → DrawnId jti l
  | ⟨.inl (.rotateRefresh u jti _ _ _), .ok true⟩ => start.Holds u jti ∨ DrawnId jti l
  | _ => True

/-- In the middle of a request that has begun in the state `start`. -/
structure Midway (start : Site) (l : SiteTrail) (s : Site) : Prop where
  now : s.accounts.now = start.accounts.now
  draws : start.accounts.draws ≤ s.accounts.draws
  listed : ∀ u, s.accounts.keys.Listed s.accounts.now u
  sent : ∀ t, .refresh t ∈ s.sent → t.jti < s.accounts.draws
  old : ∀ u jti, s.Holds u jti → start.Holds u jti ∨ DrawnId jti l
  answers : ∀ a ∈ l, Says start l s a

section Step
variable {lib : Hashing} {env : AuthEnv} {op : SiteRequest} {start s t : Site} {l : SiteTrail}
  {c : SiteCmd}

theorem says_error (c : SiteCmd) (e : Err) : Says start l s ⟨c, .error e⟩ := by
  rcases c with c | c
  · cases c with
    | get k => cases k <;> trivial
    | _ => trivial
  · trivial

theorem Says.later {l' : SiteTrail} {a : Answer SiteCmd SiteReply Err} (h : Says start l s a)
    (hdraws : s.accounts.draws ≤ t.accounts.draws) (hl : ∀ jti, DrawnId jti l → DrawnId jti l')
    (hold : ∀ u jti, t.Holds u jti → s.Holds u jti ∨ DrawnId jti l') : Says start l' t a := by
  obtain ⟨c | c, r⟩ := a
  · cases r with
    | error e => exact says_error _ e
    | ok r =>
      cases c with
      | randomUUID => exact ⟨h.1, h.2.trans_le hdraws⟩
      | userFindById id => cases r <;> exact h
      | get k =>
        cases k with
        | refreshSessions u =>
          intro jti hj
          rcases hold u jti hj with hj | hj
          · exact (h jti hj).imp_right (hl jti)
          · exact .inr hj
        | _ => trivial
      | del keys =>
        intro u hu jti hj
        rcases hold u jti hj with hj | hj
        · exact hl jti (h u hu jti hj)
        · exact hj
      | rotateRefresh u jti v new seconds =>
        cases r with
        | false => trivial
        | true => exact h.imp_right (hl jti)
      | _ => trivial
  · trivial

theorem site_draws_le (lib : Hashing) (c : SiteCmd) (s : Site) :
    s.accounts.draws ≤ (Site.exec lib c s).2.accounts.draws := by
  rcases c with c | c
  · exact exec_draws_le lib c s.accounts
  · cases c <;> exact le_rfl

/-- Every token that can be rotated after a command could be before, or has been drawn. -/
theorem exec_holds (hc : SiteGround env op l c) {u jti : ℕ}
    (h : (Site.exec lib c s).2.Holds u jti) : s.Holds u jti ∨ DrawnId jti l := by
  rcases c with c | c
  · by_cases hwrites : c.writesKey (.refresh u jti)
    · cases c with
      | storeRefresh v j seconds =>
        rcases Keyspace.holds_set (Keyspace.holds_onSessions.mp h) with h | ⟨rfl, rfl⟩
        · exact .inl h
        · exact .inr hc.1
      | rotateRefresh v i w j seconds =>
        simp only [Site.exec, Accounts.exec] at h
        split_ifs at h
        · rcases Keyspace.holds_set (Keyspace.holds_onSessions.mp
            (Keyspace.holds_onSessions.mp h)) with h | ⟨rfl, rfl⟩
          · exact .inl (Keyspace.holds_del.mp h).2
          · exact .inr hc.1
        · exact .inl h
      | del keys => exact .inl (Keyspace.holds_del.mp h).2
      | set k v seconds =>
        obtain rfl : AuthKey.refresh u jti = k := hwrites
        rcases hc with hc | ⟨email, hc, -⟩ <;> cases hc
      | _ => cases hwrites
    · have hkeys : (Accounts.exec lib c s.accounts).2.keys.Holds
          (Accounts.exec lib c s.accounts).2.now u jti := h
      rw [Accounts.exec_now] at hkeys
      exact .inl ((Keyspace.holds_congr (Accounts.exec_key hwrites)).mp hkeys)
  · cases c <;> exact .inl h

/-- A command that writes none of the user's sessions. -/
theorem listed_of_spares {c : AuthCmd} {s : Accounts} {u : ℕ} (h : s.keys.Listed s.now u)
    (hset : ¬ c.writesKey (.refreshSessions u))
    (htokens : ∀ jti, ¬ c.writesKey (.refresh u jti)) :
    (Accounts.exec lib c s).2.keys.Listed (Accounts.exec lib c s).2.now u := by
  rw [Accounts.exec_now]
  exact h.congr (Accounts.exec_key hset) fun jti => Accounts.exec_key (htokens jti)

/-- The tokens that were read are all there are. -/
theorem Midway.not_holds_revoked (h : Midway start l s) {u : ℕ} {jtis : Option (List ℕ)}
    (hread : ⟨.inl (.get (.refreshSessions u)), .ok jtis⟩ ∈ l) (hnone : ∀ jti, ¬ DrawnId jti l)
    (jti : ℕ) : ¬ (s.accounts.keys.del (revokedKeys u jtis)).Holds s.accounts.now u jti := by
  intro hj
  obtain ⟨hout, hj⟩ := Keyspace.holds_revoke hj
  exact (h.answers _ hread jti hj).elim hout (hnone jti)

theorem Midway.exec_listed (h : Midway start l s) (hc : SiteGround env op l c) (u : ℕ) :
    (Site.exec lib c s).2.accounts.keys.Listed (Site.exec lib c s).2.accounts.now u := by
  rcases c with c | c
  · cases c with
    | storeRefresh v jti seconds => exact (h.listed u).store v jti seconds
    | rotateRefresh v i w j seconds =>
      obtain ⟨-, -, user, hfound, rfl⟩ := hc
      obtain rfl : user.id = v := h.answers _ hfound
      by_cases hu : user.id = u
      · subst hu
        change (Accounts.exec lib _ s.accounts).2.keys.Listed _ _
        simp only [Site.exec, Accounts.exec]
        split_ifs
        · exact (h.listed _).rotate user.id i j seconds
        · exact h.listed _
      · refine listed_of_spares (h.listed u) ?_ fun jti => ?_
        · rintro (he | he | he) <;> cases he
          exact hu rfl
        · rintro (he | he | he) <;> cases he <;> exact hu rfl
    | del keys =>
      rcases hc with hother | ⟨⟨v, jtis, hread, rfl⟩, hnone⟩
      · refine listed_of_spares (h.listed u) (fun hk => ?_) fun jti hk => ?_
        · cases hother _ hk
        · cases hother _ hk
      · by_cases hu : v = u
        · subst hu
          refine ⟨fun e he => ?_, fun jti hj => absurd hj (h.not_holds_revoked hread hnone jti)⟩
          simp [Site.exec, Accounts.exec, Keyspace.del, revokedKeys] at he
        · refine listed_of_spares (h.listed u) (fun hk => ?_) fun jti hk => ?_
          · simp [AuthCmd.writesKey, revokedKeys, Ne.symm hu] at hk
          · simp [AuthCmd.writesKey, revokedKeys, hu] at hk
    | set k v seconds =>
      refine listed_of_spares (h.listed u) (fun hk => ?_) fun jti hk => ?_
      · obtain rfl : AuthKey.refreshSessions u = k := hk
        rcases hc with hc | ⟨email, hc, -⟩ <;> cases hc
      · obtain rfl : AuthKey.refresh u jti = k := hk
        rcases hc with hc | ⟨email, hc, -⟩ <;> cases hc
    | _ => refine listed_of_spares (h.listed u) ?_ fun jti => ?_ <;> simp [AuthCmd.writesKey]
  · cases c <;> exact h.listed u

theorem Midway.jti_lt (h : Midway start l s) (hc : SiteGround env op l c) {t : RefreshToken}
    (ht : .refresh t ∈ (Site.exec lib c s).2.sent) :
    t.jti < (Site.exec lib c s).2.accounts.draws := by
  rcases (exec_sent lib s c).2 _ ht with ht | rfl
  · exact (h.sent t ht).trans_le (site_draws_le lib c s)
  · exact (h.answers _ hc.1).2

theorem Midway.exec_says (h : Midway start l s) (hc : SiteGround env op l c) :
    Says start (l ++ [⟨c, (Site.exec lib c s).1⟩]) (Site.exec lib c s).2
      ⟨c, (Site.exec lib c s).1⟩ := by
  rcases c with c | c
  · cases c with
    | randomUUID => exact ⟨h.draws, Nat.lt_succ_self _⟩
    | userFindById id =>
      change Says start _ s ⟨.inl (.userFindById id), .ok (s.accounts.users.table.get id)⟩
      cases hu : s.accounts.users.table.get id with
      | none => trivial
      | some u => exact Table.id_of_get hu
    | get k =>
      cases k with
      | refreshSessions u => exact fun jti hj => .inl ((h.listed u).listed jti hj)
      | _ => trivial
    | del keys =>
      intro u hu jti hj
      rcases hc with hother | ⟨⟨v, jtis, hread, rfl⟩, hnone⟩
      · cases hother _ hu
      · obtain rfl : u = v := by simpa [revokedKeys] using hu
        exact absurd hj (h.not_holds_revoked hread hnone jti)
    | rotateRefresh u jti v new seconds =>
      simp only [Site.exec, Accounts.exec]
      split_ifs with hlive
      · have hheld : s.Holds u jti := by
          unfold Keyspace.get at hlive
          rwa [Option.isSome_map] at hlive
        exact (h.old u jti hheld).imp_right fun hj => hj.append _
      · trivial
    | _ => trivial
  · cases c <;> trivial

theorem Midway.step (h : Midway start l s) (hc : SiteGround env op l c)
    {r : Except Err (SiteReply c)} (hr : r = (Site.exec lib c s).1 ∨ ∃ e, r = .error e) :
    Midway start (l ++ [⟨c, r⟩]) (Site.exec lib c s).2 where
  now := (site_now lib c s).trans h.now
  draws := h.draws.trans (site_draws_le lib c s)
  listed := h.exec_listed hc
  sent _ ht := h.jti_lt hc ht
  old u jti hj := by
    rcases exec_holds hc hj with hj | hj
    · exact (h.old u jti hj).imp_right fun hj => hj.append _
    · exact .inr (hj.append _)
  answers a ha := by
    rcases List.mem_append.mp ha with ha | ha
    · exact (h.answers a ha).later (site_draws_le lib c s) (fun jti hj => hj.append _)
        fun u jti hj => (exec_holds hc hj).imp_right fun hj => hj.append _
    · rw [List.mem_singleton.mp ha]
      rcases hr with rfl | ⟨e, rfl⟩
      · exact h.exec_says hc
      · exact says_error c e

theorem Midway.lost (h : Midway start l s) (c : SiteCmd) (e : Err) :
    Midway start (l ++ [⟨c, .error e⟩]) s where
  now := h.now
  draws := h.draws
  listed := h.listed
  sent := h.sent
  old u jti hj := (h.old u jti hj).imp_right fun hj => hj.append _
  answers a ha := by
    rcases List.mem_append.mp ha with ha | ha
    · exact (h.answers a ha).later le_rfl (fun jti hj => hj.append _) fun u jti hj => .inl hj
    · rw [List.mem_singleton.mp ha]
      exact says_error c e

end Step

/-! ### Requests one after the other -/

/-- Nobody is signed in, and nobody has a token. -/
structure Site.NoSessions (s : Site) : Prop where
  sent : s.sent = []
  tokens : ∀ u jti, s.accounts.keys (.refresh u jti) = none
  sets : ∀ u, s.accounts.keys (.refreshSessions u) = none

/-- Between two requests. -/
structure InOrder (s : Site) : Prop where
  listed : ∀ u, s.accounts.keys.Listed s.accounts.now u
  sent : ∀ t, .refresh t ∈ s.sent → t.jti < s.accounts.draws
  held : ∀ u jti, s.Holds u jti → jti < s.accounts.draws

/-- None of the first `n` refresh tokens is good for the user. -/
def Site.Ended (s : Site) (u n : ℕ) : Prop := ∀ jti < n, ¬ s.Holds u jti

section Serve
variable {lib : Hashing} {env : AuthEnv} {s t : Site} {u n : ℕ}

theorem Site.NoSessions.inOrder (h : s.NoSessions) : InOrder s := by
  have hnot : ∀ u jti, ¬ s.Holds u jti := by
    intro u jti hj
    have hnone := h.tokens u jti
    simp [Site.Holds, Keyspace.Holds, Keyspace.live, hnone] at hj
  refine ⟨fun u => ⟨fun e he => ?_, fun jti hj => absurd hj (hnot u jti)⟩, fun t ht => ?_,
    fun u jti hj => absurd hj (hnot u jti)⟩
  · rw [h.sets u] at he
    cases he
  · rw [h.sent] at ht
    cases ht

theorem InOrder.start (h : InOrder s) : Midway s [] s where
  now := rfl
  draws := le_rfl
  listed := h.listed
  sent := h.sent
  old _ _ hj := .inl hj
  answers := List.forall_mem_nil _

theorem Midway.inOrder {l : SiteTrail} (h : Midway s l t) (hs : InOrder s) : InOrder t where
  listed := h.listed
  sent := h.sent
  held u jti hj := by
    rcases h.old u jti hj with hj | hj
    · exact (hs.held u jti hj).trans_le h.draws
    · exact (h.answers _ hj).2

theorem Midway.ended {l : SiteTrail} (h : Midway s l t) (hs : s.Ended u n)
    (hn : n ≤ s.accounts.draws) : t.Ended u n := by
  intro jti hjti hj
  rcases h.old u jti hj with hj | hj
  · exact hs jti hjti hj
  · exact absurd (h.answers _ hj).1 (Nat.not_le.mpr (hjti.trans_le hn))

/-- A request, wherever its commands fail. -/
theorem InOrder.attempt (h : InOrder s) {r : SiteRequest} {os : List (Outcome Err)}
    {cs : List SiteCmd} {a : Except Err SiteResponse}
    {Q : SiteTrail → Except Err SiteResponse → Prop} (hq : Yields Q [] (r.handle env))
    (hr : (siteSystem lib env).attempt 0 os (r.handle env) s = some (cs, a, t)) :
    ∃ l, Midway s l t ∧ Q l a := by
  refine attempt_rule (I := fun l t => Midway s l t) ?_ r.handle_ground hq h.start hr
  intro l c v o out hc hv hout
  rcases finish_cases _ hout with ⟨-, rfl⟩ | ⟨e, -, rfl⟩ | ⟨e, -, rfl⟩
  · exact hv.step hc (.inl rfl)
  · exact hv.lost c e
  · exact hv.step hc (.inr ⟨e, rfl⟩)

theorem InOrder.later (h : InOrder s) (ms : ℕ) :
    InOrder ((siteSystem lib env).env ms s) where
  listed u := (h.listed u).later (Int.le_add_of_nonneg_right (Int.natCast_nonneg ms))
  sent := h.sent
  held u jti hj := h.held u jti
    (Keyspace.holds_earlier hj (Int.le_add_of_nonneg_right (Int.natCast_nonneg ms)))

/-- What has ended stays so. -/
theorem serveAll_ended {xs : List (Submission Err SiteRequest ℕ)} (hs : InOrder s)
    (hn : n ≤ s.accounts.draws) (hended : s.Ended u n)
    (h : (siteSystem lib env).serveAll xs s = some t) :
    InOrder t ∧ n ≤ t.accounts.draws ∧ t.Ended u n := by
  refine serveAll_keeps (I := fun t => InOrder t ∧ n ≤ t.accounts.draws ∧ t.Ended u n)
    ?_ ?_ ⟨hs, hn, hended⟩ h
  · rintro ms v ⟨hv, hn, hended⟩
    refine ⟨hv.later ms, hn, fun jti hjti hj => hended jti hjti ?_⟩
    exact Keyspace.holds_earlier hj (Int.le_add_of_nonneg_right (Int.natCast_nonneg ms))
  · rintro r os v cs a w ⟨hv, hn, hended⟩ hr
    obtain ⟨l, hw, -⟩ := hv.attempt (yields_of (Q := fun _ _ => True) (fun _ _ => trivial) _) hr
    exact ⟨hw.inOrder hv, hn.trans hw.draws, hw.ended hended hn⟩

theorem inOrder_run {xs : List (Submission Err SiteRequest ℕ)} (hs : InOrder s)
    (h : (siteSystem lib env).serveAll xs s = some t) : InOrder t :=
  (serveAll_ended (u := 0) (n := 0) hs (Nat.zero_le _) (fun _ h => absurd h (Nat.not_lt_zero _))
    h).1

/-- A request that ends the user's sessions and is answered has ended them. -/
theorem InOrder.ends (hs : InOrder s) {r : SiteRequest} {os : List (Outcome Err)}
    {cs : List SiteCmd} {a : SiteResponse} (hends : r.ends = some u)
    (hr : (siteSystem lib env).attempt 0 os (r.handle env) s = some (cs, .ok a, t)) :
    InOrder t ∧ s.accounts.draws ≤ t.accounts.draws ∧ t.Ended u s.accounts.draws := by
  obtain ⟨l, ht, hq⟩ := hs.attempt (SiteRequest.handle_ends hends) hr
  refine ⟨ht.inOrder hs, ht.draws, fun jti hjti hj => ?_⟩
  have hold : ¬ DrawnId jti l := fun h => absurd (ht.answers _ h).1 (Nat.not_le.mpr hjti)
  obtain ⟨jtis, hread, hdel⟩ := hq a rfl
  rcases hdel with hnil | hdel
  · rcases ht.answers _ (mem_lefts.mp hread) jti hj with hmem | hdrawn
    · rw [hnil] at hmem
      cases hmem
    · exact hold hdrawn
  · exact hold (ht.answers _ (mem_lefts.mp hdel) u (by simp [revokedKeys]) jti hj)

/-- A refresh that is answered presents a token that is good. -/
theorem InOrder.refreshed (hs : InOrder s) {token : RefreshToken} {os : List (Outcome Err)}
    {cs : List SiteCmd} {a : SiteResponse} (hjti : token.jti < s.accounts.draws)
    (hr : (siteSystem lib env).attempt 0 os (SiteRequest.handle env (.refresh (some token))) s =
      some (cs, .ok a, t)) : s.Holds token.sub token.jti := by
  obtain ⟨l, ht, hq⟩ := hs.attempt (refresh_exchanges token) hr
  obtain ⟨id, new, seconds, hswap⟩ := hq a rfl
  rcases ht.answers _ (mem_lefts.mp hswap) with hold | hdrawn
  · exact hold
  · exact absurd (ht.answers _ hdrawn).1 (Nat.not_le.mpr hjti)

end Serve

/-- **A session that was ended stays ended**: once a logout or a change of the password is
answered, no refresh token that the user was given before is taken again, whatever requests
follow. Requests are served one at a time, and any of their commands that is not in a pipeline
may fail, also in the requests that came before. -/
theorem sessions_end (lib : Hashing) (env : AuthEnv) {s s₁ s₂ s₃ s₄ : Site} (hs : s.NoSessions)
    {before after : List (Submission Err SiteRequest ℕ)} {r : SiteRequest} {u : ℕ}
    {os os' : List (Outcome Err)} {cs cs' : List SiteCmd} {a : SiteResponse}
    {b : Except Err SiteResponse} {token : RefreshToken}
    (hbefore : (siteSystem lib env).serveAll before s = some s₁) (hends : r.ends = some u)
    (hdone : (siteSystem lib env).attempt 0 os (r.handle env) s₁ = some (cs, .ok a, s₂))
    (hafter : (siteSystem lib env).serveAll after s₂ = some s₃)
    (hgiven : .refresh token ∈ s₁.sent) (hsub : token.sub = u)
    (hrefresh : (siteSystem lib env).attempt 0 os'
      (SiteRequest.handle env (.refresh (some token))) s₃ = some (cs', b, s₄)) :
    ∃ e, b = .error e := by
  have h₁ := inOrder_run hs.inOrder hbefore
  obtain ⟨h₂, hdraws, hended⟩ := h₁.ends hends hdone
  obtain ⟨h₃, hlater, hended⟩ := serveAll_ended h₂ hdraws hended hafter
  have hjti := h₁.sent token hgiven
  cases b with
  | error e => exact ⟨e, rfl⟩
  | ok b =>
    subst hsub
    exact absurd (h₃.refreshed (hjti.trans_le hlater) hrefresh) (hended token.jti hjti)

/-! ### A run -/

def graceAccess : AccessToken := ⟨⟨1, "Grace", "grace@example.com", .admin⟩, 0, 0⟩

def graceRefresh : RefreshToken := ⟨1, 0, 0⟩

theorem newSite_noSessions : newSite.NoSessions where
  sent := rfl
  tokens _ _ := rfl
  sets _ := rfl

/-- No command fails. -/
def allAnswered (n : ℕ) : List (Outcome Err) := List.replicate n .answered

/-- Grace logs in; the first time that she logs out, the deletion does not get through. -/
def graceBefore : List (Submission Err SiteRequest ℕ) :=
  [.inl (.login "grace@example.com" "Secret123", allAnswered 9),
    .inl (.logout (some graceAccess), allAnswered 4 ++ [.lost .unreachable])]

/-- A minute later she logs in again. -/
def graceAfter : List (Submission Err SiteRequest ℕ) :=
  [.inr 60000, .inl (.login "grace@example.com" "Secret123", allAnswered 9)]

/-- The states before and after the second logout and before the old token is presented, with
what it is answered. -/
def graceRun : Option (Site × (List SiteCmd × Except Err SiteResponse × Site) × Site ×
    (List SiteCmd × Except Err SiteResponse × Site)) := do
  let sys := siteSystem plainText ⟨300, 5, 60⟩
  let s₁ ← sys.serveAll graceBefore newSite
  let x ← sys.attempt 0 (allAnswered 5) (SiteRequest.handle ⟨300, 5, 60⟩
    (.logout (some graceAccess))) s₁
  let s₃ ← sys.serveAll graceAfter x.2.2
  let y ← sys.attempt 0 (allAnswered 6) (SiteRequest.handle ⟨300, 5, 60⟩
    (.refresh (some graceRefresh))) s₃
  return (s₁, x, s₃, y)

/-- The first token is not taken, although the first logout has failed. -/
theorem grace_sessions_end : ∃ s₁ x s₃ y, graceRun = some (s₁, x, s₃, y) ∧
    x.2.1 = .ok (.message "Logged out") ∧ .refresh graceRefresh ∈ s₁.sent ∧
      ∃ e, y.2.1 = .error e := by
  have hrun : graceRun.any fun z => z.2.1.2.1 = .ok (.message "Logged out") ∧
      .refresh graceRefresh ∈ z.1.sent := by decide +kernel
  obtain ⟨⟨s₁, x, s₃, y⟩, hz, hends⟩ := (Option.any_eq_true _ _).mp hrun
  obtain ⟨hanswered, hgiven⟩ := of_decide_eq_true hends
  refine ⟨s₁, x, s₃, y, hz, hanswered, hgiven, ?_⟩
  unfold graceRun at hz
  obtain ⟨s₁', h₁, hz⟩ := Option.bind_eq_some_iff.mp hz
  obtain ⟨⟨cs, a, s₂⟩, hx, hz⟩ := Option.bind_eq_some_iff.mp hz
  obtain ⟨s₃', h₃, hz⟩ := Option.bind_eq_some_iff.mp hz
  obtain ⟨⟨cs', b, s₄⟩, hy, hz⟩ := Option.bind_eq_some_iff.mp hz
  cases hz
  dsimp only at hanswered
  subst hanswered
  exact sessions_end plainText ⟨300, 5, 60⟩ newSite_noSessions h₁ rfl hx h₃ hgiven rfl hy

end MovieReservation
