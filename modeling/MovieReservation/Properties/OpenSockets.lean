import MovieReservation.Properties.Handshakes

/-! The registry of the gateway over any run of connections and disconnections: each user
has the open sockets whose token was verified for this user, so a private message goes to
these sockets, once to each. -/

namespace MovieReservation

open Lib ScreeningGateway Connections

open Issued (noSockets noSockets_fresh tokenJar)

/-! ### Runs -/

inductive SocketEvent where
  | connect (client : ℕ) (now : Time) (handshake : Handshake)
  | disconnect (client : ℕ)

section Runs
variable (jwt : JwtService) (frontendUrl : Option String)

def SocketEvent.handle (g : Connections) : SocketEvent → Except Uri.UriError Connections
  | connect client now handshake => handleConnection jwt frontendUrl now client handshake g
  | disconnect client => .ok (handleDisconnect client g)

def gatewayAfter (xs : List SocketEvent) : Except Uri.UriError Connections :=
  xs.foldlM (SocketEvent.handle jwt frontendUrl) noSockets

/-- A socket connects once, with a cookie that can be decoded, and disconnects at most once
afterwards. -/
inductive SocketHistory : List SocketEvent → Prop
  | nil : SocketHistory []
  | connect {xs : List SocketEvent} {client : ℕ} {now : Time} {handshake : Handshake} :
    SocketHistory xs → (∀ now' handshake', .connect client now' handshake' ∉ xs) →
      (∀ value ∈ rawCookie handshake.cookie "access_token", Uri.WellFormed value) →
        SocketHistory (xs ++ [.connect client now handshake])
  | disconnect {xs : List SocketEvent} {client : ℕ} {now : Time} {handshake : Handshake} :
    SocketHistory xs → .connect client now handshake ∈ xs → .disconnect client ∉ xs →
      SocketHistory (xs ++ [.disconnect client])

/-- The socket came from an allowed origin with a token that was verified for the user. -/
def BelongsTo (xs : List SocketEvent) (u client : ℕ) : Prop :=
  ∃ now handshake, .connect client now handshake ∈ xs ∧
    foreign frontendUrl handshake.origin = false ∧ Verified jwt now handshake u

/-- Such a socket, while it is open. -/
def OpenFor (xs : List SocketEvent) (u client : ℕ) : Prop :=
  BelongsTo jwt frontendUrl xs u client ∧ .disconnect client ∉ xs

end Runs

variable {jwt : JwtService} {frontendUrl : Option String} {xs ys : List SocketEvent}
  {g : Connections} {client c u v : ℕ} {now : Time} {handshake : Handshake}

theorem SocketHistory.of_prefix (h : SocketHistory xs) (hys : ys <+: xs) : SocketHistory ys := by
  induction h with
  | nil => exact List.prefix_nil.mp hys ▸ .nil
  | connect hxs hnew hcookie ih =>
    rcases List.prefix_concat_iff.mp hys with rfl | hys
    · exact .connect hxs hnew hcookie
    · exact ih hys
  | disconnect hxs hconnected hopen ih =>
    rcases List.prefix_concat_iff.mp hys with rfl | hys
    · exact .disconnect hxs hconnected hopen
    · exact ih hys

theorem SocketHistory.connected (h : SocketHistory xs) (hc : .disconnect c ∈ xs) :
    ∃ now handshake, .connect c now handshake ∈ xs := by
  induction h with
  | nil => cases hc
  | connect _ _ _ ih =>
    rcases List.mem_append.mp hc with hc | hc
    · obtain ⟨now, handshake, hmem⟩ := ih hc
      exact ⟨now, handshake, List.mem_append_left _ hmem⟩
    · cases List.mem_singleton.mp hc
  | @disconnect xs d now handshake _ hconnected _ ih =>
    rcases List.mem_append.mp hc with hc | hc
    · obtain ⟨now, handshake, hmem⟩ := ih hc
      exact ⟨now, handshake, List.mem_append_left _ hmem⟩
    · cases List.mem_singleton.mp hc
      exact ⟨now, handshake, List.mem_append_left _ hconnected⟩

theorem belongsTo_connect : BelongsTo jwt frontendUrl (xs ++ [.connect c now handshake]) u client ↔
    BelongsTo jwt frontendUrl xs u client ∨
      client = c ∧ foreign frontendUrl handshake.origin = false ∧ Verified jwt now handshake u := by
  simp only [BelongsTo, List.mem_append, List.mem_singleton, SocketEvent.connect.injEq]
  constructor
  · rintro ⟨now', handshake', hmem | ⟨rfl, rfl, rfl⟩, hverified⟩
    · exact .inl ⟨now', handshake', hmem, hverified⟩
    · exact .inr ⟨rfl, hverified⟩
  · rintro (⟨now', handshake', hmem, hverified⟩ | ⟨rfl, hverified⟩)
    · exact ⟨now', handshake', .inl hmem, hverified⟩
    · exact ⟨now, handshake, .inr ⟨rfl, rfl, rfl⟩, hverified⟩

theorem belongsTo_disconnect :
    BelongsTo jwt frontendUrl (xs ++ [.disconnect c]) u client ↔
      BelongsTo jwt frontendUrl xs u client := by
  simp only [BelongsTo, List.mem_append, List.mem_singleton, reduceCtorEq, or_false]

theorem openFor_connect (hxs : SocketHistory xs) (hnew : ∀ now' h', .connect c now' h' ∉ xs) :
    OpenFor jwt frontendUrl (xs ++ [.connect c now handshake]) u client ↔
      OpenFor jwt frontendUrl xs u client ∨
        client = c ∧ foreign frontendUrl handshake.origin = false ∧
          Verified jwt now handshake u := by
  have hclosed : .disconnect c ∉ xs := by
    intro hc
    obtain ⟨now', handshake', hmem⟩ := hxs.connected hc
    exact hnew now' handshake' hmem
  simp only [OpenFor, belongsTo_connect, List.mem_append, List.mem_singleton, reduceCtorEq,
    or_false]
  constructor
  · rintro ⟨h | h, hopen⟩
    · exact .inl ⟨h, hopen⟩
    · exact .inr h
  · rintro (⟨h, hopen⟩ | ⟨rfl, h⟩)
    · exact ⟨.inl h, hopen⟩
    · exact ⟨.inr ⟨rfl, h⟩, hclosed⟩

theorem openFor_disconnect : OpenFor jwt frontendUrl (xs ++ [.disconnect c]) u client ↔
    OpenFor jwt frontendUrl xs u client ∧ client ≠ c := by
  simp only [OpenFor, belongsTo_disconnect, List.mem_append, List.mem_singleton,
    SocketEvent.disconnect.injEq, not_or, and_assoc]

/-! ### The registry -/

/-- The registry after a run. -/
structure TracksSockets (jwt : JwtService) (frontendUrl : Option String) (xs : List SocketEvent)
    (g : Connections) : Prop where
  userId : ∀ u client, g.userId client = some u ↔ BelongsTo jwt frontendUrl xs u client
  registered : ∀ u client, g.Registered client u ↔ OpenFor jwt frontendUrl xs u client
  sets : ∀ u, ∀ sockets ∈ g.userSockets u, sockets.Nodup ∧ sockets ≠ []

theorem TracksSockets.initial : TracksSockets jwt frontendUrl [] noSockets where
  userId u client := iff_of_false nofun fun ⟨_, _, h, _⟩ => List.not_mem_nil h
  registered u client := by
    refine iff_of_false (noSockets_fresh client u) ?_
    rintro ⟨⟨_, _, h, -⟩, -⟩
    cases h
  sets u := nofun

theorem addSocket_nodup {sockets : List ℕ} (h : sockets.Nodup) : (addSocket sockets c).Nodup := by
  unfold addSocket
  split_ifs with hmem
  · exact h
  · exact List.concat_eq_append ▸ h.concat hmem

theorem addSocket_ne_nil (sockets : List ℕ) : addSocket sockets c ≠ [] := by
  unfold addSocket
  split_ifs with hmem
  · exact List.ne_nil_of_mem hmem
  · exact List.append_ne_nil_of_right_ne_nil _ (List.cons_ne_nil _ _)

theorem unregister_userSockets (g : Connections) (c u v : ℕ) :
    (g.unregister c u).userSockets v = if v = u
      then ((g.userSockets u).map (·.erase c)).filter (·.length ≠ 0) else g.userSockets v := by
  unfold unregister
  cases hu : g.userSockets u with
  | none =>
    split_ifs with hv
    · rw [hv, hu]
      rfl
    · rfl
  | some sockets =>
    by_cases hv : v = u
    · subst hv
      simp only [Function.update_self, if_true, Option.map_some, Option.filter_some]
      by_cases hlength : (sockets.erase c).length = 0
      · simp [hlength]
      · simp [hlength]
    · simp only [Function.update_of_ne hv, if_neg hv]

theorem registered_unregister (hnodup : ∀ sockets ∈ g.userSockets u, sockets.Nodup) :
    (g.unregister c u).dec.Registered client v ↔
      g.Registered client v ∧ ¬ (client = c ∧ v = u) := by
  have hsets : (g.unregister c u).dec.userSockets v = (g.unregister c u).userSockets v := rfl
  simp only [Registered, hsets, unregister_userSockets]
  by_cases hv : v = u
  · subst hv
    simp only [if_true, and_true]
    cases hsockets : g.userSockets v with
    | none => simp
    | some sockets =>
      have hmem : client ∈ sockets.erase c ↔ client ≠ c ∧ client ∈ sockets :=
        (hnodup sockets hsockets).mem_erase_iff
      have hlength : client ∈ sockets.erase c → (sockets.erase c).length ≠ 0 :=
        fun h hnil => List.ne_nil_of_mem h (List.length_eq_zero_iff.mp hnil)
      simp only [Option.map_some, Option.mem_def, Option.filter_eq_some_iff, Option.some.injEq,
        decide_eq_true_eq]
      constructor
      · rintro ⟨_, ⟨rfl, -⟩, h⟩
        exact ⟨⟨sockets, rfl, (hmem.mp h).2⟩, (hmem.mp h).1⟩
      · rintro ⟨⟨_, rfl, h⟩, hne⟩
        exact ⟨_, ⟨rfl, hlength (hmem.mpr ⟨hne, h⟩)⟩, hmem.mpr ⟨hne, h⟩⟩
  · simp only [hv, if_false, and_false, not_false_eq_true, and_true]

theorem TracksSockets.connect (h : TracksSockets jwt frontendUrl xs g) (hxs : SocketHistory xs)
    (hnew : ∀ now' handshake', .connect client now' handshake' ∉ xs)
    (hcookie : ∀ value ∈ rawCookie handshake.cookie "access_token", Uri.WellFormed value) :
    ∃ g', handleConnection jwt frontendUrl now client handshake g = .ok g' ∧
      TracksSockets jwt frontendUrl (xs ++ [.connect client now handshake]) g' := by
  have hunknown : ∀ v, ¬ BelongsTo jwt frontendUrl xs v client :=
    fun v ⟨now', handshake', hmem, _⟩ => hnew now' handshake' hmem
  -- a socket that is not registered adds no user to the registry
  have hkept : (∀ v, foreign frontendUrl handshake.origin = false →
      ¬ Verified jwt now handshake v) → ∀ g', g'.userId = g.userId →
        g'.userSockets = g.userSockets →
          TracksSockets jwt frontendUrl (xs ++ [.connect client now handshake]) g' := by
    intro hnone g' huserId hsockets
    refine ⟨fun v d => ?_, fun v d => ?_, fun v => ?_⟩
    · rw [huserId, h.userId, belongsTo_connect,
        or_iff_left fun hd => hnone v hd.2.1 hd.2.2]
    · rw [openFor_connect hxs hnew, or_iff_left fun hd => hnone v hd.2.1 hd.2.2, ← h.registered,
        Registered, Registered, hsockets]
    · rw [hsockets]
      exact h.sets v
  cases horigin : foreign frontendUrl handshake.origin with
  | true =>
    refine ⟨g.disconnect client, ?_, hkept (fun v hv => ?_) _ rfl rfl⟩
    · rw [handleConnection, horigin, if_pos rfl]
    · exact absurd (horigin.symm.trans hv) Bool.noConfusion
  | false =>
    rcases handleConnection_cases horigin hcookie now client g with
      ⟨u, hverified, hrun⟩ | ⟨hnone, hrun⟩
    · refine ⟨_, hrun, fun v d => ?_, fun v d => ?_, fun v => ?_⟩
      · change Function.update g.userId client (some u) d = some v ↔ _
        rw [belongsTo_connect, and_iff_right horigin, hverified]
        by_cases hd : d = client
        · subst hd
          rw [Function.update_self, Option.some.injEq, or_iff_right (hunknown v),
            and_iff_right rfl, eq_comm]
        · rw [Function.update_of_ne hd, h.userId, or_iff_left fun hd' => hd hd'.1]
      · rw [registered_register_iff, openFor_connect hxs hnew, and_iff_right horigin, hverified,
          h.registered, or_comm]
      · change ∀ sockets ∈ Function.update g.userSockets u _ v, _
        by_cases hv : v = u
        · subst hv
          rw [Function.update_self]
          rintro sockets hsockets
          cases hsockets
          refine ⟨addSocket_nodup ?_, addSocket_ne_nil _⟩
          cases hold : g.userSockets v with
          | none => exact List.nodup_nil
          | some sockets => exact (h.sets v sockets hold).1
        · rw [Function.update_of_ne hv]
          exact h.sets v
    · exact ⟨_, hrun, hkept (fun v _ => hnone v) _ rfl rfl⟩

theorem TracksSockets.disconnect (h : TracksSockets jwt frontendUrl xs g) :
    TracksSockets jwt frontendUrl (xs ++ [.disconnect client]) (handleDisconnect client g) := by
  have hopen : ∀ {v d}, OpenFor jwt frontendUrl xs v d → g.userId d = some v :=
    fun hd => (h.userId _ _).mpr hd.1
  unfold handleDisconnect
  cases hclient : g.userId client with
  | none =>
    refine ⟨fun v d => ?_, fun v d => ?_, h.sets⟩
    · rw [belongsTo_disconnect]
      exact h.userId v d
    · rw [openFor_disconnect, and_iff_left_of_imp]
      · exact h.registered v d
      · rintro hd rfl
        cases hclient.symm.trans (hopen hd)
  | some u =>
    refine ⟨fun v d => ?_, fun v d => ?_, fun v => ?_⟩
    · have hsame : (g.unregister client u).dec.userId = g.userId := by
        unfold unregister
        split <;> rfl
      rw [belongsTo_disconnect, hsame, h.userId]
    · rw [registered_unregister fun sockets hsockets => (h.sets u sockets hsockets).1,
        openFor_disconnect, h.registered]
      refine and_congr_right fun hd => not_congr (and_iff_left_of_imp ?_)
      rintro rfl
      exact Option.some.inj ((hopen hd).symm.trans hclient)
    · change ∀ sockets ∈ (g.unregister client u).userSockets v, _
      rw [unregister_userSockets]
      split_ifs with hv
      · intro sockets hsockets
        obtain ⟨hmem, hlength⟩ := Option.filter_eq_some_iff.mp hsockets
        obtain ⟨before, hbefore, rfl⟩ := Option.map_eq_some_iff.mp hmem
        refine ⟨(h.sets u before hbefore).1.erase client, fun hnil => ?_⟩
        exact of_decide_eq_true hlength (List.length_eq_zero_iff.mpr hnil)
      · exact h.sets v

theorem SocketHistory.tracks (h : SocketHistory xs) :
    ∃ g, gatewayAfter jwt frontendUrl xs = .ok g ∧ TracksSockets jwt frontendUrl xs g := by
  induction h with
  | nil => exact ⟨_, rfl, .initial⟩
  | @connect xs client now handshake hxs hnew hcookie ih =>
    obtain ⟨g, hg, htracks⟩ := ih
    obtain ⟨g', hg', htracks'⟩ := htracks.connect hxs hnew hcookie
    refine ⟨g', ?_, htracks'⟩
    rw [gatewayAfter] at hg ⊢
    rw [List.foldlM_append, hg]
    change SocketEvent.handle jwt frontendUrl g (.connect client now handshake) >>= pure = _
    rw [bind_pure]
    exact hg'
  | @disconnect xs client now handshake hxs hconnected hclosed ih =>
    obtain ⟨g, hg, htracks⟩ := ih
    refine ⟨_, ?_, htracks.disconnect⟩
    rw [gatewayAfter] at hg ⊢
    rw [List.foldlM_append, hg]
    rfl

/-- The sockets of a user, and what is sent to them. -/
theorem TracksSockets.mem_emitToUser (h : TracksSockets jwt frontendUrl xs g) {P : Type}
    (event : String) (payload : P) (x : ℕ × String × P) : x ∈ emitToUser u event payload g ↔
      ∃ client, OpenFor jwt frontendUrl xs u client ∧ x = (client, event, payload) := by
  simp only [← h.registered, Registered, emitToUser]
  cases g.userSockets u with
  | none => simp
  | some sockets => simp [eq_comm]

theorem TracksSockets.emitToUser_nodup (h : TracksSockets jwt frontendUrl xs g) {P : Type}
    (event : String) (payload : P) : (emitToUser u event payload g).Nodup := by
  unfold emitToUser
  cases hu : g.userSockets u with
  | none => exact List.nodup_nil
  | some sockets =>
    exact (h.sets u sockets hu).1.map fun client client' heq => (Prod.mk.inj heq).1

/-- **A private message goes to the open sockets of its user, once to each.** -/
theorem private_messages_exact (jwt : JwtService) (frontendUrl : Option String)
    (xs : List SocketEvent) (h : SocketHistory xs) : ∀ ys, ys <+: xs →
      ∃ g, gatewayAfter jwt frontendUrl ys = .ok g ∧
        (∀ u client, g.Registered client u ↔ OpenFor jwt frontendUrl ys u client) ∧
        (∀ u, g.userSockets u ≠ some []) ∧
        ∀ (P : Type) (u : ℕ) (event : String) (payload : P),
          (emitToUser u event payload g).Nodup ∧ ∀ x, x ∈ emitToUser u event payload g ↔
            ∃ client, OpenFor jwt frontendUrl ys u client ∧ x = (client, event, payload) := by
  intro ys hys
  obtain ⟨g, hg, htracks⟩ := @SocketHistory.tracks jwt frontendUrl ys (h.of_prefix hys)
  refine ⟨g, hg, htracks.registered, fun u hu => (htracks.sets u [] hu).2 rfl, ?_⟩
  exact fun P u event payload =>
    ⟨htracks.emitToUser_nodup event payload, htracks.mem_emitToUser event payload⟩

/-- Two tabs of one user, a visitor and a socket of another origin; a tab is closed. -/
def twoTabs (t : AccessToken) : List SocketEvent :=
  [.connect 1 0 ⟨none, some (cookieHeader (tokenJar unaryTokens t))⟩,
    .connect 2 0 ⟨none, some (cookieHeader (tokenJar unaryTokens t))⟩,
    .connect 3 0 ⟨none, none⟩, .connect 4 0 ⟨some "http://localhost:4000", none⟩, .disconnect 1]

theorem twoTabs_history (t : AccessToken) : SocketHistory (twoTabs t) := by
  have htoken : ∀ value ∈ rawCookie (some (cookieHeader (tokenJar unaryTokens t))) "access_token",
      Uri.WellFormed value :=
    extractCookie_isOk_iff.mp ⟨_, @extractCookie_token unaryTokens _ _ t rfl⟩
  have hfirst : SocketHistory ((twoTabs t).take 1) := SocketHistory.connect .nil nofun htoken
  have hsecond : SocketHistory ((twoTabs t).take 2) :=
    SocketHistory.connect hfirst (by simp [twoTabs]) htoken
  have hvisitor : SocketHistory ((twoTabs t).take 3) :=
    SocketHistory.connect hsecond (by simp [twoTabs]) nofun
  have hforeign : SocketHistory ((twoTabs t).take 4) :=
    SocketHistory.connect hvisitor (by simp [twoTabs]) nofun
  exact SocketHistory.disconnect hforeign List.mem_cons_self (by simp [twoTabs])

theorem twoTabs_messages : ∃ g, gatewayAfter unaryTokens none
      (twoTabs ⟨⟨1, "Ada", "ada@example.org", .user⟩, 0, 0⟩) = .ok g ∧
    ∀ x, x ∈ emitToUser 1 "hold:expired" (7, 3) g ↔ ∃ client, OpenFor unaryTokens none
      (twoTabs ⟨⟨1, "Ada", "ada@example.org", .user⟩, 0, 0⟩) 1 client ∧
        x = (client, "hold:expired", 7, 3) := by
  obtain ⟨g, hg, -, -, hsent⟩ :=
    private_messages_exact unaryTokens none _ (twoTabs_history _) _ List.prefix_rfl
  exact ⟨g, hg, (hsent (ℕ × ℕ) 1 "hold:expired" (7, 3)).2⟩

end MovieReservation
