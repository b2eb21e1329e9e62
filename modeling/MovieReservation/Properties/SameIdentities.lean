import MovieReservation.Accounts.Connections
import MovieReservation.Properties.AccessTokens
import Mathlib.Logic.Equiv.List

/-! Whom the API and the gateway take the bearer of an access token for. Both have the token
verified; only the strategy looks at its version, so after a change of the password the
gateway still knows the bearers of the tokens that the API refuses. -/

namespace MovieReservation

open Lib Lib.Prog Accounts ScreeningGateway

/-- The accounts with the access tokens that were handed out. -/
structure Issued where
  accounts : Accounts
  tokens : List AccessToken

namespace Issued
variable (lib : Hashing) (jwt : JwtService) (frontendUrl origin : Option String)

/-- Time passes, or a call is answered. -/
def step (l : Issued) : ℕ ⊕ TokenRequest → Issued
  | .inl ms => { l with accounts := { l.accounts with now := l.accounts.now + ms } }
  | .inr r =>
    match perform lib r.handle l.accounts with
    | (.error _, accounts) => { l with accounts }
    | (.ok (access, _), accounts) => ⟨accounts, l.tokens ++ [access]⟩

/-- The gateway registers a new socket that brings the token under the user. -/
def Connects (l : Issued) (jar : List Cookie) (g : Connections) (client u : ℕ) : Prop :=
  ∃ g', handleConnection jwt frontendUrl l.accounts.now client
    ⟨origin, some (cookieHeader jar)⟩ g = .ok g' ∧ g'.Registered client u

/-- The API takes the bearer of the token for the user. -/
def Authenticates (l : Issued) (token : String) (u : ℕ) : Prop :=
  ∃ user, (perform lib (JwtStrategy.authenticate jwt token) l.accounts).1 = .ok user ∧ user.id = u

/-- The gateway and the API take the bearers of all tokens for the same users. -/
def SameIdentities (l : Issued) : Prop :=
  ∀ t ∈ l.tokens, ∀ jar, cookieValue jar "access_token" = some (jwt.sign t) →
    ∀ (g : Connections) (client : ℕ), (∀ u, ¬ g.Registered client u) →
      ∀ u, l.Connects jwt frontendUrl origin jar g client u ↔
        l.Authenticates lib jwt (jwt.sign t) u

/-- A call that hands out tokens does so for sockets that the gateway does not turn away by
their origin, and raises the version of no token that is still in use. -/
def KeepsTokens (x : ℕ ⊕ TokenRequest) (l : Issued) : Prop :=
  ∀ r ∈ x.getRight?, (perform lib r.handle l.accounts).1.toBool = true →
    foreign frontendUrl origin = false ∧
      ∀ t ∈ l.tokens, r.changes t.user.id = true → t.Unexpired l.accounts.now →
        l.accounts.version t.user.id < t.ver

/-- No token that can be used is below the version, and sockets are let in. -/
structure Current (l : Issued) : Prop where
  admitted : l.tokens ≠ [] → foreign frontendUrl origin = false
  version : ∀ t ∈ l.tokens, t.Unexpired l.accounts.now → l.accounts.version t.user.id ≤ t.ver

variable {lib jwt frontendUrl origin} {l : Issued} {t : AccessToken} {u : ℕ}

theorem authenticates_iff : l.Authenticates lib jwt (jwt.sign t) u ↔
    t.Unexpired l.accounts.now ∧ l.accounts.version t.user.id ≤ t.ver ∧ t.user.id = u := by
  have hrun : (perform lib (JwtStrategy.authenticate jwt (jwt.sign t)) l.accounts).1 =
      if t.Unexpired l.accounts.now then (perform lib (JwtStrategy.validate t) l.accounts).1
      else .error (.unauthorized "Unauthorized") := by
    have hnow : perform lib (AuthM.request .dateNow) l.accounts =
        (.ok l.accounts.now, l.accounts) := rfl
    rw [JwtStrategy.authenticate, perform_bind, hnow]
    dsimp only
    rw [jwt.verify_sign]
    split_ifs <;> rfl
  unfold Authenticates
  rw [hrun]
  by_cases hun : t.Unexpired l.accounts.now
  · rw [if_pos hun, perform_validate, and_iff_right hun]
    by_cases hver : t.ver < l.accounts.version t.user.id
    · rw [if_pos hver]
      refine iff_of_false (fun h => ?_) fun h => absurd h.1 (Nat.not_le.mpr hver)
      obtain ⟨user, huser, -⟩ := h
      cases huser
    · rw [if_neg hver, and_iff_right (Nat.le_of_not_lt hver)]
      constructor
      · rintro ⟨user, huser, hid⟩
        cases huser
        exact hid
      · exact fun hid => ⟨_, rfl, hid⟩
  · rw [if_neg hun]
    refine iff_of_false (fun h => ?_) fun h => hun h.1
    obtain ⟨user, huser, -⟩ := h
    cases huser

section Socket
variable {jar : List Cookie} {g : Connections} {client : ℕ}
  (hjar : cookieValue jar "access_token" = some (jwt.sign t))
  (hfresh : ∀ v, ¬ g.Registered client v)
include hfresh

theorem not_connects_of_foreign (h : foreign frontendUrl origin = true) :
    ¬ l.Connects jwt frontendUrl origin jar g client u := by
  rintro ⟨g', hrun, hreg⟩
  rw [handleConnection, h, if_pos rfl] at hrun
  cases hrun
  exact hfresh u hreg

include hjar

theorem connects_iff (h : foreign frontendUrl origin = false) :
    l.Connects jwt frontendUrl origin jar g client u ↔
      t.Unexpired l.accounts.now ∧ t.user.id = u := by
  unfold Connects
  rw [handleConnection_token h hjar]
  by_cases hun : t.Unexpired l.accounts.now
  · rw [if_pos hun, and_iff_right hun]
    constructor
    · rintro ⟨g', hg', hreg⟩
      cases hg'
      exact ((Connections.registered_register hfresh u).mp hreg).symm
    · exact fun hu => ⟨_, rfl, (Connections.registered_register hfresh u).mpr hu.symm⟩
  · rw [if_neg hun]
    refine iff_of_false ?_ fun h => hun h.1
    rintro ⟨g', hg', hreg⟩
    cases hg'
    exact hfresh u hreg

end Socket

theorem Current.sameIdentities (h : l.Current frontendUrl origin) :
    l.SameIdentities lib jwt frontendUrl origin := by
  intro t ht jar hjar g client hfresh u
  rw [connects_iff hjar hfresh (h.admitted (List.ne_nil_of_mem ht)), authenticates_iff]
  refine and_congr_right fun hun => ?_
  rw [and_iff_right (h.version t ht hun)]

theorem Current.step (x : ℕ ⊕ TokenRequest) (h : l.Current frontendUrl origin)
    (hx : l.KeepsTokens lib frontendUrl origin x) :
    (l.step lib x).Current frontendUrl origin := by
  cases x with
  | inl ms =>
    refine ⟨h.admitted, fun t ht hun => ?_⟩
    have hbefore : t.Unexpired l.accounts.now := by
      refine Ledger.unexpired_iff.mpr (Int.lt_of_le_of_lt ?_ (Ledger.unexpired_iff.mp hun))
      exact Int.le_add_of_nonneg_right (Int.natCast_nonneg ms)
    exact Nat.le_trans (version_advance l.accounts ms t.user.id) (h.version t ht hbefore)
  | inr r =>
    rcases r.handle_cases lib l.accounts with
      ⟨e, s', hrun, hnow, hversion⟩ | ⟨x, s', hrun, hnow, hiat, hver, hversion⟩
    · have hstep : l.step lib (.inr r) = { l with accounts := s' } := by
        simp only [Issued.step, hrun]
      rw [hstep]
      refine ⟨h.admitted, fun t ht hun => ?_⟩
      rw [show s'.version t.user.id = _ from hversion t.user.id]
      exact h.version t ht (hnow ▸ hun)
    · have hstep : l.step lib (.inr r) = ⟨s', l.tokens ++ [x.1]⟩ := by
        simp only [Issued.step, hrun]
      obtain ⟨hadmitted, hkept⟩ := hx r rfl (by rw [hrun]; rfl)
      rw [hstep]
      refine ⟨fun _ => hadmitted, fun t ht hun => ?_⟩
      change s'.version t.user.id ≤ t.ver
      rcases List.mem_append.mp ht with hold | hnew
      · have hbefore : t.Unexpired l.accounts.now := hnow ▸ hun
        rw [hversion]
        split_ifs with hr
        · exact hkept t hold hr hbefore
        · exact h.version t hold hbefore
      · rw [List.mem_singleton.mp hnew, hver]

/-- A jar with nothing but the token. -/
def tokenJar (jwt : JwtService) (t : AccessToken) : List Cookie :=
  [{ name := "access_token"
     value := jwt.sign t
     name_chars := by simp [isSpace]
     value_chars := fun h => by
       have hchar := jwt.sign_chars t ';' h
       revert hchar
       decide }]

def noSockets : Connections := ⟨fun _ => none, fun _ => none, [], 0⟩

theorem noSockets_fresh (client u : ℕ) : ¬ noSockets.Registered client u := by
  rintro ⟨sockets, hsockets, -⟩
  cases hsockets

/-- A token that is handed out in spite of the condition tells the two apart, or an older one
does. -/
theorem not_sameIdentities (x : ℕ ⊕ TokenRequest) (hx : ¬ l.KeepsTokens lib frontendUrl origin x) :
    ¬ (l.step lib x).SameIdentities lib jwt frontendUrl origin := by
  unfold KeepsTokens at hx
  push Not at hx
  obtain ⟨r, hr, hok, hx⟩ := hx
  obtain rfl : x = .inr r := by
    cases x with
    | inl ms => cases hr
    | inr r' =>
      cases hr
      rfl
  rcases r.handle_cases lib l.accounts with
    ⟨e, s', hrun, -⟩ | ⟨x, s', hrun, hnow, hiat, hver, hversion⟩
  · rw [hrun] at hok
    cases hok
  · have hstep : l.step lib (.inr r) = ⟨s', l.tokens ++ [x.1]⟩ := by
      simp only [Issued.step, hrun]
    rw [hstep]
    intro hsame
    by_cases hf : foreign frontendUrl origin = false
    · obtain ⟨t, ht, hchanges, hun, hle⟩ := hx hf
      have hlater : t.Unexpired s'.now := hnow ▸ hun
      have hiff := hsame t (List.mem_append_left _ ht) (tokenJar jwt t) rfl noSockets 0
        (noSockets_fresh 0) t.user.id
      rw [connects_iff rfl (noSockets_fresh 0) hf, authenticates_iff] at hiff
      have haccepted := (hiff.mp ⟨hlater, rfl⟩).2.1
      change s'.version t.user.id ≤ t.ver at haccepted
      rw [hversion, if_pos hchanges] at haccepted
      omega
    · have hun : x.1.Unexpired s'.now := by
        unfold AccessToken.Unexpired AccessToken.exp JwtStrategy.accessTtlSeconds
        rw [hnow, hiat]
        exact Int.lt_add_of_pos_right _ (by decide)
      have hiff := hsame x.1 (List.mem_append_right _ (List.mem_singleton_self _))
        (tokenJar jwt x.1) rfl noSockets 0 (noSockets_fresh 0) x.1.user.id
      refine not_connects_of_foreign (noSockets_fresh 0) (Bool.not_eq_false _ ▸ hf) (hiff.mpr ?_)
      exact authenticates_iff.mpr ⟨hun, Nat.le_of_eq hver.symm, rfl⟩

end Issued

/-- The gateway and the API take the bearers of all tokens for the same users throughout a
history exactly if tokens are handed out to sockets that are let in, and none that is still in
use is behind a change of the password. -/
theorem same_identities_iff (lib : Hashing) (jwt : JwtService) (frontendUrl origin : Option String)
    (s : Accounts) (xs : List (ℕ ⊕ TokenRequest)) :
    AllStates (Issued.step lib) (Issued.SameIdentities lib jwt frontendUrl origin) xs ⟨s, []⟩ ↔
      EachMeets (Issued.step lib) (fun x l => l.KeepsTokens lib frontendUrl origin x) xs
        ⟨s, []⟩ := by
  refine allStates_iff (I := Issued.Current frontendUrl origin) (fun _ h => h.sameIdentities)
    (fun x _ _ h hx => h.step x hx) (fun x _ _ _ hx => Issued.not_sameIdentities x hx) ⟨?_, ?_⟩
  · exact fun h => absurd rfl h
  · intro t ht
    cases ht

/-! ### A token of before -/

namespace AccessToken

abbrev Fields := (ℕ × List ℕ × List ℕ × Bool) × ℕ × ℤ

def fields (t : AccessToken) : Fields :=
  ((t.user.id, t.user.name.toList.map Char.toNat, t.user.email.toList.map Char.toNat,
    t.user.role = .admin), t.ver, t.iat)

def ofFields : Fields → AccessToken
  | ((id, name, email, admin), ver, iat) =>
    ⟨⟨id, String.ofList (name.map Char.ofNat), String.ofList (email.map Char.ofNat),
      if admin then .admin else .user⟩, ver, iat⟩

theorem ofFields_fields (t : AccessToken) : ofFields t.fields = t := by
  obtain ⟨⟨userId, name, email, role⟩, ver, iat⟩ := t
  have hchars : ∀ s : String, String.ofList (s.toList.map (Char.ofNat ∘ Char.toNat)) = s := by
    intro s
    have hid : Char.ofNat ∘ Char.toNat = id := funext Char.ofNat_toNat
    rw [hid, List.map_id, String.ofList_toList]
  cases role <;> simp [fields, ofFields, hchars]

end AccessToken

/-- A token library without a secret: the number of a token in unary. -/
def unaryTokens : JwtService where
  sign t := String.ofList (List.replicate (Encodable.encode t.fields + 1) 'a')
  verify token now := do
    let fields : AccessToken.Fields ← Encodable.decode (token.toList.length - 1)
    let t := AccessToken.ofFields fields
    if t.Unexpired now then some t else none
  verify_sign t now := by
    simp [Encodable.encodek, AccessToken.ofFields_fields]
  sign_ne_empty t h := by
    have hlength := congrArg (fun s : String => s.toList.length) h
    simp at hlength
  sign_chars t c hc := by
    have ha : c = 'a' := by simpa using hc
    subst ha
    decide

/-- The user signs in on two devices and changes the password on one of them. -/
def changedElsewhere : List (ℕ ⊕ TokenRequest) :=
  [.inr (.issue ⟨1, "Load Test User 0", "loadtest0@test.local", .user⟩),
    .inr (.changePassword 1 "LoadTest123!" "Better456")]

theorem old_token_connects : ¬ ∀ xs,
    AllStates (Issued.step plainText) (Issued.SameIdentities plainText unaryTokens
      (some "http://localhost:5173") (some "http://localhost:5173")) xs ⟨loadTestUser, []⟩ := by
  intro h
  refine Issued.not_sameIdentities
    (l := Issued.step plainText ⟨loadTestUser, []⟩
      (.inr (.issue ⟨1, "Load Test User 0", "loadtest0@test.local", .user⟩)))
    (.inr (.changePassword 1 "LoadTest123!" "Better456")) (fun hkeeps => ?_)
    (h changedElsewhere changedElsewhere List.prefix_rfl)
  obtain ⟨-, hkept⟩ := hkeeps _ rfl (by decide +kernel)
  have hver := hkept ⟨⟨1, "Load Test User 0", "loadtest0@test.local", .user⟩, 0, 0⟩
    (by decide +kernel) (by decide +kernel) (by decide +kernel)
  revert hver
  decide +kernel

end MovieReservation
