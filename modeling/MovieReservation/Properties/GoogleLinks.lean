import MovieReservation.Properties.SignedIn

/-! A Google account gets to an account in two ways: by the sign-in with Google that creates
it, or by a link that the account itself has asked for. The request to link goes out with a
signed state, and what comes back from Google is taken for the account in the state, which
is good for ten minutes. -/

namespace MovieReservation

open Lib Lib.Prog Lib.System

/-! ### Links that were asked for -/

/-- The user of the state has asked to link a Google account at this time, with an access
token of the user. -/
def AskedAt (ops : List SiteRequest) (tr : SiteLog) (state : LinkState) (asked : Time) : Prop :=
  ∃ j token, ops[j]? = some (.linkGoogle (some token)) ∧ token.user.id = state.sub ∧
    Presented (own j tr) (.access token) ∧ ⟨.inl .dateNow, .ok asked⟩ ∈ own j tr ∧
      state.iat = asked / 1000

/-- The Google id that a command has given to an account is that of the sign-in that creates
the account, or the user of the account has asked for the link within ten minutes. -/
def LinkWanted (ops : List SiteRequest) (tr : SiteLog) (i : ℕ) : SiteCmd → Prop
  | .inl (.userCreate d) => ∀ googleId, d.googleId = some googleId →
    ∃ profile, ops[i]? = some (.googleCallback profile) ∧ profile.id = googleId
  | .inl (.userUpdate id d) => ∀ googleId, d.googleId = some (some googleId) →
    ∃ profile state, ∃ asked now : Time,
      ops[i]? = some (.linkGoogleCallback profile (some state)) ∧ profile.id = googleId ∧
        state.sub = id ∧ AskedAt ops tr state asked ∧ ⟨.inl .dateNow, .ok now⟩ ∈ own i tr ∧
          now < asked + 10 * 60 * 1000
  | _ => True

/-- Every state that is on its way was asked for. -/
structure StatesAsked (ops : List SiteRequest) (tr done : SiteLog) (s : Site) : Prop where
  sent : ∀ state, .linkState state ∈ s.sent → ∃ asked, AskedAt ops tr state asked
  signed : ∀ i state, (i, ⟨.inr (.signed (.linkState state)), .ok true⟩) ∈ tr →
    ∃ asked, AskedAt ops tr state asked
  links : ∀ x ∈ done, LinkWanted ops tr x.1 x.2.1

section Run
variable {lib : Hashing} {env : AuthEnv} {ops : List SiteRequest} {tr done : SiteLog} {s : Site}
  {state : LinkState} {asked : Time} {i : ℕ} {c : SiteCmd}

theorem spawned_get {op op' : SiteRequest} (h : ops[i]? = some op) :
    (ops ++ [op'])[i]? = some op :=
  (List.getElem?_append_left (List.getElem?_eq_some_iff.mp h).1).trans h

theorem AskedAt.spawn (h : AskedAt ops tr state asked) (op : SiteRequest) :
    AskedAt (ops ++ [op]) tr state asked := by
  obtain ⟨j, token, hj, h⟩ := h
  exact ⟨j, token, spawned_get hj, h⟩

theorem AskedAt.append (h : AskedAt ops tr state asked) (tr' : SiteLog) :
    AskedAt ops (tr ++ tr') state asked := by
  obtain ⟨j, token, hj, hid, ht, hasked, hiat⟩ := h
  rw [AskedAt]
  refine ⟨j, token, hj, hid, ?_, ?_, hiat⟩
  · rw [own_append]
    exact ht.append _
  · rw [own_append]
    exact List.mem_append_left _ hasked

theorem LinkWanted.spawn (h : LinkWanted ops tr i c) (op : SiteRequest) :
    LinkWanted (ops ++ [op]) tr i c := by
  rcases c with c | c
  · cases c with
    | userCreate d => exact fun g hg => (h g hg).imp fun p hp => ⟨spawned_get hp.1, hp.2⟩
    | userUpdate id d =>
      intro g hg
      obtain ⟨profile, state, asked, now, hi, hp, hsub, hask, hnow⟩ := h g hg
      exact ⟨profile, state, asked, now, spawned_get hi, hp, hsub, hask.spawn op, hnow⟩
    | _ => trivial
  · trivial

theorem LinkWanted.append (h : LinkWanted ops tr i c) (tr' : SiteLog) :
    LinkWanted ops (tr ++ tr') i c := by
  rcases c with c | c
  · cases c with
    | userCreate d => exact h
    | userUpdate id d =>
      intro g hg
      obtain ⟨profile, state, asked, now, hi, hp, hsub, hask, hnow, hlt⟩ := h g hg
      refine ⟨profile, state, asked, now, hi, hp, hsub, hask.append tr', ?_, hlt⟩
      rw [own_append]
      exact List.mem_append_left _ hnow
    | _ => trivial
  · trivial

theorem StatesAsked.spawn (h : StatesAsked ops tr done s) (op : SiteRequest) :
    StatesAsked (ops ++ [op]) tr done s where
  sent state hs := (h.sent state hs).imp fun _ ha => ha.spawn op
  signed i state hs := (h.signed i state hs).imp fun _ ha => ha.spawn op
  links x hx := (h.links x hx).spawn op

theorem StatesAsked.lost (h : StatesAsked ops tr done s) (c : SiteCmd) (e : Err) :
    StatesAsked ops (tr ++ [(i, ⟨c, .error e⟩)]) done s where
  sent state hs := (h.sent state hs).imp fun _ ha => ha.append _
  signed j state hs := by
    rcases List.mem_append.mp hs with hs | hs
    · exact (h.signed j state hs).imp fun _ ha => ha.append _
    · cases List.mem_singleton.mp hs
  links x hx := (h.links x hx).append _

/-- A state that verifies was asked for within ten minutes. -/
theorem StatesAsked.presented (h : StatesAsked ops tr done s)
    (ht : Presented (own i tr) (.linkState state)) : ∃ asked now : Time,
      AskedAt ops tr state asked ∧ ⟨.inl .dateNow, .ok now⟩ ∈ own i tr ∧
        now < asked + 10 * 60 * 1000 := by
  obtain ⟨asked, hasked⟩ := h.signed i state (mem_own.mp ht.signed)
  obtain ⟨now, hnow, hlt⟩ := ht.unexpired
  have hiat : state.iat = asked / 1000 := by
    obtain ⟨j, token, -, -, -, -, hiat⟩ := hasked
    exact hiat
  have hexp : now / 1000 < asked / 1000 + 10 * 60 := hiat ▸ hlt
  have hin : now < asked + 10 * 60 * 1000 := by omega
  exact ⟨asked, now, hasked, hnow, hin⟩

theorem StatesAsked.wanted (h : StatesAsked ops tr done s) {op : SiteRequest}
    (hi : ops[i]? = some op) (hc : SiteGround env op (own i tr) c) : LinkWanted ops tr i c := by
  rcases c with c | c
  · cases c with
    | userCreate d =>
      intro g hg
      obtain ⟨-, profile, rfl, hid⟩ := hc g hg
      exact ⟨profile, hi, hid⟩
    | userUpdate id d =>
      intro g hg
      obtain ⟨profile, state, rfl, hid, hsub, ht⟩ := hc.2.1 (some g) hg
      obtain ⟨asked, now, hask, hnow⟩ := h.presented ht
      exact ⟨profile, state, asked, now, hi, Option.some.inj hid, hsub, hask, hnow⟩
    | _ => trivial
  · trivial

theorem StatesAsked.exec (h : StatesAsked ops tr done s) {op : SiteRequest}
    (hi : ops[i]? = some op) (hc : SiteGround env op (own i tr) c) {r : Except Err (SiteReply c)}
    (hr : r = (Site.exec lib c s).1 ∨ ∃ e, r = .error e) :
    StatesAsked ops (tr ++ [(i, ⟨c, r⟩)]) (done ++ [(i, ⟨c, (Site.exec lib c s).1⟩)])
      (Site.exec lib c s).2 where
  sent state hs := by
    rcases c with c | c
    · exact (h.sent state hs).imp fun _ ha => ha.append _
    · cases c with
      | signed t => exact (h.sent state hs).imp fun _ ha => ha.append _
      | send t =>
        rcases List.mem_append.mp hs with hs | hs
        · exact (h.sent state hs).imp fun _ ha => ha.append _
        · obtain rfl := (List.mem_singleton.mp hs).symm
          obtain ⟨token, asked, rfl, ht, hid, hasked, hiat⟩ := hc
          have hask : AskedAt ops tr state asked := ⟨i, token, hi, hid, ht, hasked, hiat⟩
          exact ⟨asked, hask.append _⟩
  signed j state hs := by
    rcases told_result (fun c => (Site.exec lib c s).1) hr hs with hold | hnew
    · exact (h.signed j state hold).imp fun _ ha => ha.append _
    · have hin : .linkState state ∈ s.sent := of_decide_eq_true (Except.ok.inj hnew)
      exact (h.sent state hin).imp fun _ ha => ha.append _
  links x hx := by
    rcases List.mem_append.mp hx with hx | hx
    · exact (h.links x hx).append _
    · rw [List.mem_singleton.mp hx]
      exact (h.wanted hi hc).append _

end Run

/-- **A Google account is linked to nobody who has not asked for it**: whatever requests are
served side by side, with whatever states and tokens, the Google id that an account gets is
that of the sign-in that creates it, or of a link that the account's user has asked for, with
an access token, in the ten minutes before. -/
theorem links_wanted (lib : Hashing) (env : AuthEnv) {s : Site} (hs : s.sent = [])
    {xs : List (Choice Err SiteRequest ℕ)}
    {q : Pool SiteCmd SiteReply Err Site SiteRequest SiteResponse}
    (hx : (siteSystem lib env).schedule xs ⟨s, []⟩ = some q) :
    ∀ i c r, (i, ⟨c, r⟩) ∈ (siteSystem lib env).effects xs ⟨s, []⟩ →
      LinkWanted (q.procs.map Prod.fst) ((siteSystem lib env).trace xs ⟨s, []⟩) i c := by
  have h : StatesAsked (q.procs.map Prod.fst) ((siteSystem lib env).trace xs ⟨s, []⟩)
      ((siteSystem lib env).effects xs ⟨s, []⟩) q.state := by
    refine history_rule (I := fun ops tr done t => StatesAsked ops tr done t) ?_ ?_ ?_ ?_ ?_ hx
    · refine ⟨fun state hin => ?_, fun i state hin => ?_, List.forall_mem_nil _⟩
      · rw [hs] at hin
        cases hin
      · cases hin
    · exact fun ops tr done t op h => h.spawn op
    · exact fun ops tr done t ms h => ⟨h.sent, h.signed, h.links⟩
    · exact fun ops tr done t i op c k e hi hpath h => h.lost c e
    · exact fun ops tr done t i op c k r hi hpath hr h =>
        h.exec hi (op.handle_ground.path hpath) hr
  exact fun i c r hmem => h.links _ hmem

/-- Grace logs in, asks for a link, and is back from Google a minute later. -/
def graceLinks : List (Choice Err SiteRequest ℕ) :=
  [.spawn (.login "grace@example.com" "Secret123")] ++ solo 0 9 ++
    [.spawn (.linkGoogle (some ⟨⟨1, "Grace", "grace@example.com", .admin⟩, 0, 0⟩))] ++ solo 1 5 ++
    [.env 60000, .spawn (.linkGoogleCallback ⟨"grace-1", "Grace", ["grace@example.com"]⟩
      (some ⟨1, 0⟩))] ++ solo 2 4

/-- Her account has got the Google id. -/
theorem graceLinks_wanted :
    ∃ q, (siteSystem plainText ⟨300, 5, 60⟩).schedule graceLinks ⟨newSite, []⟩ = some q ∧
      q.state.accounts.users.table.rows.map User.googleId = [some "grace-1"] ∧
      ∀ i c r, (i, ⟨c, r⟩) ∈ (siteSystem plainText ⟨300, 5, 60⟩).effects graceLinks ⟨newSite, []⟩ →
        LinkWanted (q.procs.map Prod.fst)
          ((siteSystem plainText ⟨300, 5, 60⟩).trace graceLinks ⟨newSite, []⟩) i c := by
  have hrun : ((siteSystem plainText ⟨300, 5, 60⟩).schedule graceLinks ⟨newSite, []⟩).any fun q =>
      q.state.accounts.users.table.rows.map User.googleId = [some "grace-1"] := by decide +kernel
  obtain ⟨q, hq, hlinked⟩ := (Option.any_eq_true _ _).mp hrun
  exact ⟨q, hq, of_decide_eq_true hlinked, links_wanted plainText ⟨300, 5, 60⟩ rfl hq⟩

end MovieReservation
