import MovieReservation.Accounts.Tokens
import MovieReservation.Lib.Uri

/-! Who a request or a socket belongs to. Both bring the access token in a cookie, and the
token library, a parameter, verifies its signature and expiry; the strategy then compares
its version, and the gateway keeps the socket under its user. -/

namespace MovieReservation

open Lib

open AuthM (request)

/-! ### Tokens as text -/

/-- The token library with the access secret. A token is three base64url parts with dots
between them, and `verify` throws for what is not signed, or expired. -/
structure JwtService where
  sign : AccessToken → String
  verify : String → Time → Option AccessToken
  verify_sign : ∀ t now, verify (sign t) now = if t.Unexpired now then some t else none
  sign_ne_empty : ∀ t, sign t ≠ ""
  sign_chars : ∀ t, ∀ c ∈ (sign t).toList, c.isAlphanum ∨ c = '-' ∨ c = '_' ∨ c = '.'

/-- `passport-jwt` verifies the token that it finds in the cookie before `validate`. -/
def JwtStrategy.authenticate (jwt : JwtService) (token : String) : AuthM AuthUser := do
  let now : Time ← request .dateNow
  match jwt.verify token now with
  | none => throw (.unauthorized "Unauthorized")
  | some payload => validate payload

/-! ### Cookies -/

/-- What `\s` matches. -/
def isSpace (c : Char) : Bool :=
  c.toNat ∈ [0x09, 0x0a, 0x0b, 0x0c, 0x0d, 0x20, 0xa0, 0x1680, 0x2028, 0x2029, 0x202f, 0x205f,
    0x3000, 0xfeff] || (0x2000 ≤ c.toNat && c.toNat ≤ 0x200a)

namespace ScreeningGateway

/-- `name=([^;]+)`, from here on. -/
def cookieAt (name cs : List Char) : Option (List Char) := do
  let rest ← cs.dropPrefix? (name ++ ['='])
  let value := rest.takeWhile (· ≠ ';')
  if value = [] then none else some value

/-- `;\s*name=([^;]+)`, the first match. A name does not begin with white space, so `\s*`
never gives any back. -/
def cookieAfter (name : List Char) : List Char → Option (List Char)
  | [] => none
  | c :: cs =>
    if c = ';' then (cookieAt name (cs.dropWhile isSpace)).or (cookieAfter name cs)
    else cookieAfter name cs

def matchCookie (header name : String) : Option String :=
  ((cookieAt name.toList header.toList).or (cookieAfter name.toList header.toList)).map
    String.ofList

def extractCookie (header : Option String) (name : String) :
    Except Uri.UriError (Option String) :=
  match (header.filter (· ≠ "")).bind (matchCookie · name) with
  | none => .ok none
  | some value => (Uri.decodeURIComponent value).map some

end ScreeningGateway

/-! ### Sockets -/

structure Handshake where
  origin : Option String
  cookie : Option String
  deriving DecidableEq

/-- What the gateway keeps of its sockets. -/
structure Connections where
  /-- `client.data.userId`. -/
  userId : ℕ → Option ℕ
  userSockets : ℕ → Option (List ℕ)
  disconnected : List ℕ
  /-- `websocket_connections_current`. -/
  current : ℤ

namespace Connections

def disconnect (g : Connections) (client : ℕ) : Connections :=
  { g with disconnected := g.disconnected ++ [client] }

def inc (g : Connections) : Connections := { g with current := g.current + 1 }

def addSocket (sockets : List ℕ) (client : ℕ) : List ℕ :=
  if client ∈ sockets then sockets else sockets ++ [client]

def register (g : Connections) (client u : ℕ) : Connections :=
  { g with
    userId := Function.update g.userId client (some u)
    userSockets := Function.update g.userSockets u
      (some (addSocket ((g.userSockets u).getD []) client)) }

/-- `sockets?.delete(client)`; an entry that has become empty goes. -/
def unregister (g : Connections) (client u : ℕ) : Connections :=
  match g.userSockets u with
  | none => g
  | some sockets =>
    let sockets := sockets.erase client
    { g with userSockets :=
        Function.update g.userSockets u (if sockets.length = 0 then none else some sockets) }

def dec (g : Connections) : Connections := { g with current := g.current - 1 }

/-- The socket is in the set of the user. -/
def Registered (g : Connections) (client u : ℕ) : Prop :=
  ∃ sockets ∈ g.userSockets u, client ∈ sockets

end Connections

namespace ScreeningGateway

/-- `origin && allowedOrigin && origin !== allowedOrigin`. -/
def foreign (frontendUrl origin : Option String) : Bool :=
  (origin.filter (· ≠ "")).any fun o => (frontendUrl.filter (· ≠ "")).any fun allowed => o ≠ allowed

/-- A cookie that cannot be decoded makes it throw. -/
def handleConnection (jwt : JwtService) (frontendUrl : Option String) (now : Time) (client : ℕ)
    (handshake : Handshake) (g : Connections) : Except Uri.UriError Connections :=
  if foreign frontendUrl handshake.origin then .ok (g.disconnect client)
  else do
    let token ← extractCookie handshake.cookie "access_token"
    match (token.filter (· ≠ "")).bind (jwt.verify · now) with
    -- no token, or an invalid one: an anonymous connection
    | none => return g.inc
    | some payload => return (g.register client payload.user.id).inc

def handleDisconnect (client : ℕ) (g : Connections) : Connections :=
  match g.userId client with
  | none => g.dec
  | some u => (g.unregister client u).dec

/-- The sockets the message is sent to, in the order of the set. -/
def emitToUser {P : Type} (u : ℕ) (event : String) (payload : P) (g : Connections) :
    List (ℕ × String × P) :=
  match g.userSockets u with
  | none => []
  | some sockets => sockets.map (·, event, payload)

/-! ### What a handshake brings -/

/-- The value that the regular expression finds, before it is decoded. -/
def rawCookie (header : Option String) (name : String) : Option String :=
  (header.filter (· ≠ "")).bind (matchCookie · name)

/-- The token of the handshake is verified for the user. -/
def Verified (jwt : JwtService) (now : Time) (handshake : Handshake) (u : ℕ) : Prop :=
  ∃ token payload, extractCookie handshake.cookie "access_token" = .ok (some token) ∧
    jwt.verify token now = some payload ∧ payload.user.id = u

section Cookie
variable {name : List Char} {header : Option String} {n : String}

theorem cookieAt_ne_nil {cs value : List Char} (h : cookieAt name cs = some value) :
    value ≠ [] := by
  obtain ⟨rest, -, h⟩ := Option.bind_eq_some_iff.mp h
  simp only at h
  split_ifs at h with hvalue
  exact Option.some.inj h ▸ hvalue

theorem cookieAfter_ne_nil {cs value : List Char} (h : cookieAfter name cs = some value) :
    value ≠ [] := by
  induction cs with
  | nil => cases h
  | cons c cs ih =>
    rw [cookieAfter] at h
    split_ifs at h with hc
    · rcases Option.or_eq_some_iff.mp h with h | ⟨-, h⟩
      · exact cookieAt_ne_nil h
      · exact ih h
    · exact ih h

theorem rawCookie_ne_empty {value : String} (h : rawCookie header n = some value) :
    value ≠ "" := by
  obtain ⟨text, -, h⟩ := Option.bind_eq_some_iff.mp h
  obtain ⟨cs, hcs, rfl⟩ := Option.map_eq_some_iff.mp h
  refine fun he => ?_
  have hnil : cs = [] := String.ofList_eq_empty_iff.mp he
  rcases Option.or_eq_some_iff.mp hcs with h | ⟨-, h⟩
  · exact cookieAt_ne_nil h hnil
  · exact cookieAfter_ne_nil h hnil

theorem extractCookie_eq : extractCookie header n = match rawCookie header n with
    | none => .ok none
    | some value => (Uri.decodeURIComponent value).map some := rfl

/-- A cookie that is there can be decoded exactly if its escapes are in order. -/
theorem extractCookie_isOk_iff : (∃ token, extractCookie header n = .ok token) ↔
    ∀ value ∈ rawCookie header n, Uri.WellFormed value := by
  rw [extractCookie_eq]
  cases rawCookie header n with
  | none => exact iff_of_true ⟨none, rfl⟩ nofun
  | some value =>
    simp only [Option.mem_some_iff, forall_eq', ← Uri.decodeURIComponent_isOk_iff]
    cases Uri.decodeURIComponent value with
    | error e => exact iff_of_false (fun ⟨_, h⟩ => by cases h) fun ⟨_, h⟩ => by cases h
    | ok token => exact iff_of_true ⟨some token, rfl⟩ ⟨token, rfl⟩

theorem extractCookie_ne_empty {token : String} (h : extractCookie header n = .ok (some token)) :
    token ≠ "" := by
  rw [extractCookie_eq] at h
  cases hraw : rawCookie header n with
  | none =>
    rw [hraw] at h
    cases h
  | some value =>
    rw [hraw] at h
    cases hdecoded : Uri.decodeURIComponent value with
    | error e =>
      simp only [hdecoded] at h
      cases h
    | ok t =>
      simp only [hdecoded] at h
      cases h
      refine fun he => rawCookie_ne_empty hraw (String.toList_eq_nil_iff.mp ?_)
      have hread := Uri.decodeURIComponent_eq_ok.mp hdecoded
      rw [he] at hread
      exact hread.eq_nil

end Cookie

/-- A socket that is let in is registered under whom its token is verified for, if it has
one. -/
theorem handleConnection_cases {jwt : JwtService} {frontendUrl : Option String}
    {handshake : Handshake} (horigin : foreign frontendUrl handshake.origin = false)
    (hcookie : ∀ value ∈ rawCookie handshake.cookie "access_token", Uri.WellFormed value)
    (now : Time) (client : ℕ) (g : Connections) :
    (∃ u, (∀ v, Verified jwt now handshake v ↔ v = u) ∧
      handleConnection jwt frontendUrl now client handshake g = .ok (g.register client u).inc) ∨
    (∀ v, ¬ Verified jwt now handshake v) ∧
      handleConnection jwt frontendUrl now client handshake g = .ok g.inc := by
  obtain ⟨token, htoken⟩ := extractCookie_isOk_iff.mpr hcookie
  have hrun : handleConnection jwt frontendUrl now client handshake g =
      match token.bind (jwt.verify · now) with
      | none => .ok g.inc
      | some payload => .ok (g.register client payload.user.id).inc := by
    have hfilter : token.filter (· ≠ "") = token := by
      cases token with
      | none => rfl
      | some t => exact if_pos (decide_eq_true (extractCookie_ne_empty htoken))
    rw [handleConnection, horigin, if_neg Bool.false_ne_true, htoken]
    change (match (token.filter (· ≠ "")).bind (jwt.verify · now) with
      | none => pure g.inc
      | some payload => pure (g.register client payload.user.id).inc) = _
    rw [hfilter]
    rfl
  have hverified : ∀ v, Verified jwt now handshake v ↔
      (token.bind (jwt.verify · now)).map (·.user.id) = some v := by
    intro v
    simp only [Verified, htoken, Except.ok.injEq, Option.map_eq_some_iff, Option.bind_eq_some_iff]
    exact ⟨fun ⟨t, p, ht, hp, hv⟩ => ⟨p, ⟨t, ht, hp⟩, hv⟩,
      fun ⟨p, ⟨t, ht, hp⟩, hv⟩ => ⟨t, p, ht, hp, hv⟩⟩
  simp only [hrun, hverified]
  cases token.bind (jwt.verify · now) with
  | none => exact .inr ⟨nofun, rfl⟩
  | some payload =>
    refine .inl ⟨payload.user.id, fun v => ?_, rfl⟩
    rw [Option.map_some, Option.some.injEq, eq_comm]

end ScreeningGateway

/-! ### Headers that browsers send -/

structure Cookie where
  name : String
  value : String
  name_chars : ∀ c ∈ name.toList, c ≠ '=' ∧ c ≠ ';' ∧ isSpace c = false
  value_chars : ';' ∉ value.toList

def Cookie.text (c : Cookie) : String := c.name ++ "=" ++ c.value

def cookieHeader (jar : List Cookie) : String := "; ".intercalate (jar.map Cookie.text)

/-- The value of the first cookie of this name. -/
def cookieValue (jar : List Cookie) (name : String) : Option String :=
  (jar.find? (·.name = name)).map Cookie.value

namespace ScreeningGateway
variable {name : List Char} {c : Cookie}

theorem cookieAfter_append {cs : List Char} (h : ';' ∉ cs) (rest : List Char) :
    cookieAfter name (cs ++ rest) = cookieAfter name rest := by
  induction cs with
  | nil => rfl
  | cons d cs ih =>
    obtain ⟨hd, hcs⟩ := not_or.mp (mt List.mem_cons.mpr h)
    rw [List.cons_append, cookieAfter, if_neg fun he => hd he.symm]
    exact ih hcs

theorem toList_text (c : Cookie) : c.text.toList = c.name.toList ++ '=' :: c.value.toList := by
  simp [Cookie.text]

theorem notMem_text (c : Cookie) : ';' ∉ c.text.toList := by
  rw [toList_text]
  intro h
  rcases List.mem_append.mp h with hname | h
  · exact (c.name_chars _ hname).2.1 rfl
  · rcases List.mem_cons.mp h with he | hvalue
    · cases he
    · exact c.value_chars hvalue

theorem takeWhile_until {d : Char} {cs rest : List Char} (h : d ∉ cs)
    (hrest : ∀ e ∈ rest.head?, e = d) : (cs ++ rest).takeWhile (· ≠ d) = cs := by
  have hall : ∀ e ∈ cs, decide (e ≠ d) = true := fun e he => decide_eq_true fun heq => h (heq ▸ he)
  rw [List.takeWhile_append_of_pos hall]
  cases rest with
  | nil => simp
  | cons e rest => simp [hrest e rfl]

/-- A cookie of the name matches with its value, if that is not empty. -/
theorem cookieAt_text (hvalue : c.value ≠ "") {rest : List Char}
    (hrest : ∀ d ∈ rest.head?, d = ';') :
    cookieAt c.name.toList (c.text.toList ++ rest) = some c.value.toList := by
  have hdrop : (c.text.toList ++ rest).dropPrefix? (c.name.toList ++ ['=']) =
      some (c.value.toList ++ rest) :=
    List.dropPrefix?_eq_some_iff.mpr ⟨_, by simp [toList_text], beq_self_eq_true _⟩
  unfold cookieAt
  rw [hdrop]
  simp only [Option.bind_eq_bind, Option.bind_some, takeWhile_until c.value_chars hrest]
  exact if_neg fun h => hvalue (String.toList_eq_nil_iff.mp h)

/-- The text before the first `=` tells the names apart. -/
theorem cookieAt_other (hname : c.name.toList ≠ name) (heq : '=' ∉ name) (rest : List Char) :
    cookieAt name (c.text.toList ++ rest) = none := by
  have hdrop : (c.text.toList ++ rest).dropPrefix? (name ++ ['=']) = none := by
    cases hd : (c.text.toList ++ rest).dropPrefix? (name ++ ['=']) with
    | none => rfl
    | some r =>
      obtain ⟨p, hp, hbeq⟩ := List.dropPrefix?_eq_some_iff.mp hd
      have hsame : c.name.toList ++ '=' :: (c.value.toList ++ rest) = name ++ '=' :: r := by
        simpa [toList_text, eq_of_beq hbeq] using hp
      have hown : '=' ∉ c.name.toList := fun h => (c.name_chars _ h).1 rfl
      have hbefore := congrArg (List.takeWhile (· ≠ '=')) hsame
      rw [takeWhile_until hown (by simp), takeWhile_until heq (by simp)] at hbefore
      exact absurd hbefore hname
  unfold cookieAt
  rw [hdrop]
  rfl

/-- What follows the first cookie of a header. -/
def following (jar : List Cookie) : List Char := jar.flatMap fun c => "; ".toList ++ c.text.toList

theorem toList_header (c : Cookie) (jar : List Cookie) :
    (cookieHeader (c :: jar)).toList = c.text.toList ++ following jar := by
  induction jar generalizing c with
  | nil => simp [cookieHeader, following]
  | cons d jar ih =>
    have hcons : cookieHeader (c :: d :: jar) = c.text ++ "; " ++ cookieHeader (d :: jar) := by
      simp [cookieHeader]
    rw [hcons, String.toList_append, ih d]
    simp [following]

theorem following_head (jar : List Cookie) : ∀ d ∈ (following jar).head?, d = ';' := by
  intro d hd
  cases jar with
  | nil => cases hd
  | cons c jar => exact (Option.some.inj hd).symm

theorem dropWhile_text (c : Cookie) (rest : List Char) :
    (' ' :: (c.text.toList ++ rest)).dropWhile isSpace = c.text.toList ++ rest := by
  have hhead : ∀ d ∈ (c.text.toList ++ rest).head?, isSpace d = false := by
    intro d hd
    rw [toList_text] at hd
    cases hname : c.name.toList with
    | nil =>
      rw [hname] at hd
      cases hd
      decide
    | cons e cs =>
      rw [hname] at hd
      cases hd
      exact (c.name_chars _ (by simp [hname])).2.2
  rw [List.dropWhile_cons_of_pos (by decide)]
  cases htext : c.text.toList ++ rest with
  | nil => rfl
  | cons d cs =>
    exact List.dropWhile_cons_of_neg (by simp [hhead d (by simp [htext])])

theorem cookieAfter_following (c : Cookie) (jar : List Cookie) :
    cookieAfter name (following (c :: jar)) =
      (cookieAt name (c.text.toList ++ following jar)).or (cookieAfter name (following jar)) := by
  have hcons : following (c :: jar) = ';' :: ' ' :: (c.text.toList ++ following jar) := by
    simp [following]
  rw [hcons, cookieAfter, if_pos rfl, dropWhile_text, cookieAfter, if_neg (by decide),
    cookieAfter_append (notMem_text c)]

/-- The first cookie of the name is what is found in a header. -/
theorem matchCookie_header {jar : List Cookie} {n : String} {value : String}
    (hfind : cookieValue jar n = some value) (hvalue : value ≠ "") :
    matchCookie (cookieHeader jar) n = some value := by
  have heq : '=' ∉ n.toList := by
    obtain ⟨c, hc, -⟩ := Option.map_eq_some_iff.mp hfind
    have hn : c.name = n := by simpa using List.find?_some hc
    exact fun h => (c.name_chars _ (hn ▸ h)).1 rfl
  have hafter : cookieAfter n.toList (following jar) = some value.toList := by
    induction jar with
    | nil => cases hfind
    | cons c jar ih =>
      rw [cookieAfter_following]
      by_cases hc : c.name = n
      · have hval : c.value = value := by simpa [cookieValue, hc] using hfind
        rw [← hval] at hvalue ⊢
        rw [← hc, cookieAt_text hvalue (following_head jar)]
        rfl
      · have hother : c.name.toList ≠ n.toList := fun h => hc (String.toList_inj.mp h)
        rw [cookieAt_other hother heq, Option.none_or]
        exact ih (by simpa [cookieValue, hc] using hfind)
  cases jar with
  | nil => cases hfind
  | cons c jar =>
    have hsearch : (cookieAt n.toList (cookieHeader (c :: jar)).toList).or
        (cookieAfter n.toList (cookieHeader (c :: jar)).toList) = some value.toList := by
      rw [toList_header, cookieAfter_append (notMem_text c), ← cookieAfter_following, hafter]
    rw [matchCookie, hsearch, Option.map_some, String.ofList_toList]

theorem cookieHeader_ne_empty {jar : List Cookie} (h : jar ≠ []) : cookieHeader jar ≠ "" := by
  cases jar with
  | nil => exact absurd rfl h
  | cons c jar =>
    intro he
    have hchars := congrArg String.toList he
    rw [toList_header, toList_text] at hchars
    simp at hchars

theorem extractCookie_header {jar : List Cookie} {n : String} {value : String}
    (hfind : cookieValue jar n = some value) (hvalue : value ≠ "") (hplain : '%' ∉ value.toList) :
    extractCookie (some (cookieHeader jar)) n = .ok (some value) := by
  have hjar : cookieHeader jar ≠ "" := cookieHeader_ne_empty fun h => by
    rw [h] at hfind
    cases hfind
  have hheader : (some (cookieHeader jar)).filter (· ≠ "") = some (cookieHeader jar) :=
    if_pos (decide_eq_true hjar)
  rw [extractCookie, hheader, Option.bind_some, matchCookie_header hfind hvalue]
  simp only [Uri.decodeURIComponent_of_notMem hplain]
  rfl

theorem extractCookie_token {jwt : JwtService} {jar : List Cookie} {n : String} {t : AccessToken}
    (hfind : cookieValue jar n = some (jwt.sign t)) :
    extractCookie (some (cookieHeader jar)) n = .ok (some (jwt.sign t)) := by
  have hplain : '%' ∉ (jwt.sign t).toList := by
    intro h
    have hchar := jwt.sign_chars t '%' h
    revert hchar
    decide
  exact extractCookie_header hfind (jwt.sign_ne_empty t) hplain

/-- A socket that brings a token is registered under whom the library verifies it for. -/
theorem handleConnection_token {jwt : JwtService} {frontendUrl origin : Option String}
    (horigin : foreign frontendUrl origin = false) {jar : List Cookie} {t : AccessToken}
    (hfind : cookieValue jar "access_token" = some (jwt.sign t)) (now : Time) (client : ℕ)
    (g : Connections) :
    handleConnection jwt frontendUrl now client ⟨origin, some (cookieHeader jar)⟩ g =
      .ok (if t.Unexpired now then (g.register client t.user.id).inc else g.inc) := by
  have hsome : (some (jwt.sign t)).filter (· ≠ "") = some (jwt.sign t) :=
    if_pos (decide_eq_true (jwt.sign_ne_empty t))
  rw [handleConnection, horigin, if_neg Bool.false_ne_true, extractCookie_token hfind]
  change (match ((some (jwt.sign t)).filter (· ≠ "")).bind (jwt.verify · now) with
    | none => pure g.inc
    | some payload => pure (g.register client payload.user.id).inc) = _
  rw [hsome, Option.bind_some, jwt.verify_sign]
  split_ifs <;> rfl

end ScreeningGateway

theorem Connections.registered_register_iff {g : Connections} {client c u v : ℕ} :
    (g.register c u).inc.Registered client v ↔ client = c ∧ v = u ∨ g.Registered client v := by
  by_cases hv : v = u
  · subst hv
    have hset : (g.register c v).inc.userSockets v =
        some (addSocket ((g.userSockets v).getD []) c) := Function.update_self ..
    simp only [Registered, hset, Option.mem_some_iff, exists_eq_left', and_true]
    have hold : client ∈ (g.userSockets v).getD [] ↔
        ∃ sockets ∈ g.userSockets v, client ∈ sockets := by
      cases g.userSockets v <;> simp
    rw [← hold]
    unfold addSocket
    split_ifs with hmem
    · exact ⟨.inr, fun h => h.elim (fun he => he ▸ hmem) id⟩
    · rw [List.mem_append, List.mem_singleton, or_comm]
  · have hset : (g.register c u).inc.userSockets v = g.userSockets v := Function.update_of_ne hv ..
    simp only [Registered, hset, hv, and_false, false_or]

theorem Connections.registered_register {g : Connections} {client v : ℕ}
    (hfresh : ∀ u, ¬ g.Registered client u) (u : ℕ) :
    (g.register client v).inc.Registered client u ↔ u = v := by
  rw [registered_register_iff, or_iff_left (hfresh u), and_iff_right rfl]

end MovieReservation
