import MovieReservation.Properties.SameIdentities

/-! Which handshakes the gateway survives. The cookie is decoded outside the `try` that
turns an invalid token into an anonymous connection, so a token with a broken escape makes
the connection handler throw. -/

namespace MovieReservation

open Lib ScreeningGateway

open Issued (noSockets noSockets_fresh)

namespace Connections

/-- The gateway has no user for the socket, and did not turn it away. -/
structure Anonymous (g : Connections) (client : ℕ) : Prop where
  userId : g.userId client = none
  unregistered : ∀ u, ¬ g.Registered client u
  connected : client ∉ g.disconnected

structure Disconnected (g : Connections) (client : ℕ) : Prop where
  disconnected : client ∈ g.disconnected
  userId : g.userId client = none
  unregistered : ∀ u, ¬ g.Registered client u

/-- The socket is connected under this user and no other. -/
structure ConnectedAs (g : Connections) (client u : ℕ) : Prop where
  userId : g.userId client = some u
  registered : ∀ v, g.Registered client v ↔ v = u
  connected : client ∉ g.disconnected

variable {g : Connections} {client : ℕ}

theorem Anonymous.disconnect (h : g.Anonymous client) :
    (g.disconnect client).Disconnected client :=
  ⟨List.mem_append_right _ (List.mem_singleton_self client), h.userId, h.unregistered⟩

theorem Anonymous.register (h : g.Anonymous client) (u : ℕ) :
    (g.register client u).inc.ConnectedAs client u :=
  ⟨Function.update_self .., registered_register h.unregistered, h.connected⟩

theorem Anonymous.inc (h : g.Anonymous client) : g.inc.Anonymous client :=
  ⟨h.userId, h.unregistered, h.connected⟩

end Connections

namespace ScreeningGateway

/-- What a handshake may leave of its socket. -/
inductive Admitted (jwt : JwtService) (frontendUrl : Option String) (now : Time) (client : ℕ)
    (handshake : Handshake) (g : Connections) : Prop
  | turnedAway : foreign frontendUrl handshake.origin = true → g.Disconnected client →
    Admitted jwt frontendUrl now client handshake g
  | identified (u : ℕ) : foreign frontendUrl handshake.origin = false →
    Verified jwt now handshake u → g.ConnectedAs client u →
      Admitted jwt frontendUrl now client handshake g
  | anonymous : foreign frontendUrl handshake.origin = false →
    (∀ u, ¬ Verified jwt now handshake u) → g.Anonymous client →
      Admitted jwt frontendUrl now client handshake g

/-- **The connection handler returns, with the socket turned away, known by its token or
anonymous, exactly if the origin is foreign or the access token can be decoded.** -/
theorem handshake_admitted_iff (jwt : JwtService) (frontendUrl : Option String) (now : Time)
    (client : ℕ) (handshake : Handshake) (g : Connections) (hnew : g.Anonymous client) :
    (∃ g', handleConnection jwt frontendUrl now client handshake g = .ok g' ∧
      Admitted jwt frontendUrl now client handshake g') ↔
    foreign frontendUrl handshake.origin = true ∨
      ∀ value ∈ rawCookie handshake.cookie "access_token", Uri.WellFormed value := by
  cases horigin : foreign frontendUrl handshake.origin with
  | true =>
    refine iff_of_true ⟨g.disconnect client, ?_, .turnedAway horigin hnew.disconnect⟩ (.inl rfl)
    rw [handleConnection, horigin, if_pos rfl]
  | false =>
    simp only [Bool.false_eq_true, false_or]
    constructor
    · rintro ⟨g', hrun, -⟩
      rw [← extractCookie_isOk_iff]
      rw [handleConnection, horigin, if_neg Bool.false_ne_true] at hrun
      cases htoken : extractCookie handshake.cookie "access_token" with
      | ok token => exact ⟨token, rfl⟩
      | error e =>
        rw [htoken] at hrun
        cases hrun
    · intro hcookie
      rcases handleConnection_cases horigin hcookie now client g with
        ⟨u, hverified, hrun⟩ | ⟨hnone, hrun⟩
      · exact ⟨_, hrun, .identified u horigin ((hverified u).mpr rfl) (hnew.register u)⟩
      · exact ⟨_, hrun, .anonymous horigin hnone hnew.inc⟩

end ScreeningGateway

theorem noSockets_anonymous (client : ℕ) : noSockets.Anonymous client :=
  ⟨rfl, noSockets_fresh client, List.not_mem_nil⟩

/-- A sign of percent that begins no escape. -/
theorem broken_escape_throws : ¬ ∀ (jwt : JwtService) (frontendUrl : Option String) (now : Time)
    (client : ℕ) (handshake : Handshake) (g : Connections), g.Anonymous client →
      ∃ g', handleConnection jwt frontendUrl now client handshake g = .ok g' ∧
        Admitted jwt frontendUrl now client handshake g' := by
  intro h
  obtain ⟨g', hrun, -⟩ := h unaryTokens (some "http://localhost:5173") 0 1
    ⟨some "http://localhost:5173", some "access_token=%"⟩ _ (noSockets_anonymous 1)
  have hthrown : handleConnection unaryTokens (some "http://localhost:5173") 0 1
      ⟨some "http://localhost:5173", some "access_token=%"⟩ noSockets =
        .error .malformed := by
    rfl
  rw [hthrown] at hrun
  cases hrun

/-- An escaped letter is no valid token, and the connection is anonymous. -/
theorem escaped_letter_admitted :
    (∃ g', handleConnection unaryTokens none 0 1 ⟨none, some "access_token=%C3%A9"⟩
      noSockets = .ok g' ∧
        Admitted unaryTokens none 0 1 ⟨none, some "access_token=%C3%A9"⟩ g') ↔
    foreign none none = true ∨
      ∀ value ∈ rawCookie (some "access_token=%C3%A9") "access_token", Uri.WellFormed value :=
  handshake_admitted_iff unaryTokens none 0 1 ⟨none, some "access_token=%C3%A9"⟩
    noSockets (noSockets_anonymous 1)

end MovieReservation
