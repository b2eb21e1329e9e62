import MovieReservation.Schema
import MovieReservation.Lib.Prog

/-! What the authentication services keep and use: the users, the Redis keys of
one-time passwords, pending e-mail changes and sessions, the mails that were sent,
and two hashing libraries. The libraries are a parameter; their laws are the
documented ones that the code relies on. -/

namespace MovieReservation

open Lib Lib.Table

/-! ### Users -/

inductive UserRole where
  | user | admin
  deriving DecidableEq, Repr

structure User where
  id : ℕ
  name : String
  email : String
  password : Option String
  emailVerified : Bool
  googleId : Option String
  role : UserRole
  deriving DecidableEq

instance : Row User := ⟨User.id⟩

@[simp] theorem row_user (r : User) : Row.id r = r.id := rfl

def emailKey (u : User) : Option String := some u.email

structure UserCreate where
  name : String
  email : String
  password : Option String := none
  emailVerified : Bool := false
  googleId : Option String := none
  deriving DecidableEq

def UserCreate.row (d : UserCreate) (id : ℕ) : User :=
  ⟨id, d.name, d.email, d.password, d.emailVerified, d.googleId, .user⟩

theorem UserCreate.id_row (d : UserCreate) (i : ℕ) : Row.id (d.row i) = i := rfl

structure UserData where
  name : Option String := none
  email : Option String := none
  password : Option (Option String) := none
  emailVerified : Option Bool := none
  googleId : Option (Option String) := none
  deriving DecidableEq

def UserData.apply (d : UserData) (u : User) : User :=
  { u with
    name := d.name.getD u.name
    email := d.email.getD u.email
    password := d.password.getD u.password
    emailVerified := d.emailVerified.getD u.emailVerified
    googleId := d.googleId.getD u.googleId }

theorem UserData.id_apply (d : UserData) (u : User) : Row.id (d.apply u) = Row.id u := rfl

/-- The users with their unique indexes. -/
structure Users where
  table : Table User
  email_key : UniqueOn emailKey table
  googleId_key : UniqueOn User.googleId table

namespace Users

def empty : Users := ⟨Table.empty, uniqueOn_empty _, uniqueOn_empty _⟩

def findByEmail (us : Users) (email : String) : Option User :=
  us.table.rows.find? fun u => u.email = email

def findByGoogleId (us : Users) (googleId : String) : Option User :=
  us.table.rows.find? fun u => u.googleId = some googleId

def create (us : Users) (d : UserCreate) : Except Err (User × Users) :=
  if he : us.table.Clash emailKey us.table.serial (emailKey (d.row us.table.serial)) then
    .error (.prisma .p2002)
  else if hg : us.table.Clash User.googleId us.table.serial d.googleId then .error (.prisma .p2002)
  else .ok (d.row us.table.serial, {
    table := us.table.insert d.row d.id_row
    email_key := us.email_key.insert _ he
    googleId_key := us.googleId_key.insert _ hg })

def update (us : Users) (id : ℕ) (d : UserData) : Except Err (User × Users) :=
  match h : us.table.get id with
  | none => .error (.prisma .p2025)
  | some u =>
    if he : us.table.Clash emailKey id (emailKey (d.apply u)) then .error (.prisma .p2002)
    else if hg : us.table.Clash User.googleId id (d.apply u).googleId then .error (.prisma .p2002)
    else .ok (d.apply u, {
      table := us.table.modify id d.apply d.id_apply
      email_key := us.email_key.modify _ fun s hs => by rw [h] at hs; cases hs; exact he
      googleId_key := us.googleId_key.modify _ fun s hs => by rw [h] at hs; cases hs; exact hg })

theorem create_eq_ok {us us' : Users} {d : UserCreate} {u : User} (h : us.create d = .ok (u, us')) :
    u = d.row us.table.serial ∧ us'.table = us.table.insert d.row d.id_row := by
  unfold create at h
  split_ifs at h
  cases h
  exact ⟨rfl, rfl⟩

/-- A sign-up with an e-mail that nobody has goes through. -/
theorem create_ok {us : Users} {d : UserCreate} (hnew : ∀ u ∈ us.table.rows, u.email ≠ d.email)
    (hgoogle : d.googleId = none) : ∃ us', us.create d = .ok (d.row us.table.serial, us') ∧
      us'.table.rows = us.table.rows ++ [d.row us.table.serial] := by
  have hemail : ¬ us.table.Clash emailKey us.table.serial (emailKey (d.row us.table.serial)) := by
    rintro ⟨u, hu, -, -, hkey⟩
    exact hnew u hu (Option.some.inj hkey)
  have hid : ¬ us.table.Clash User.googleId us.table.serial d.googleId := by
    rintro ⟨u, -, -, hsome, -⟩
    rw [hgoogle] at hsome
    cases hsome
  unfold create
  rw [dif_neg hemail, dif_neg hid]
  exact ⟨_, rfl, rfl⟩

theorem update_eq_ok {us us' : Users} {id : ℕ} {d : UserData} {u : User}
    (h : us.update id d = .ok (u, us')) :
    ∃ u₀, us.table.get id = some u₀ ∧ u = d.apply u₀ ∧
      us'.table = us.table.modify id d.apply d.id_apply := by
  unfold update at h
  split at h
  · cases h
  · rename_i u₀ hu
    split_ifs at h
    cases h
    exact ⟨u₀, hu, rfl, rfl⟩

/-- The unique index makes the look-up by e-mail find the row itself. -/
theorem findByEmail_of_mem {us : Users} {u : User} (h : u ∈ us.table.rows) :
    us.findByEmail u.email = some u := by
  cases hf : us.findByEmail u.email with
  | none =>
    have := List.find?_eq_none.mp hf u h
    simp at this
  | some v =>
    have hv := List.mem_of_find?_eq_some hf
    have he : v.email = u.email := by simpa using List.find?_some hf
    rw [us.email_key.eq hv h (congrArg some he) rfl]

end Users

/-! ### Redis -/

inductive AuthKey where
  | otp (email : String)
  | otpCooldown (email : String)
  | otpAttempts (email : String)
  | pendingEmail (userId : ℕ)
  | accessVersion (userId : ℕ)
  | refresh (userId jti : ℕ)
  | refreshSessions (userId : ℕ)
  deriving DecidableEq

@[reducible] def AuthKey.Value : AuthKey → Type
  | .otp _ | .pendingEmail _ => String
  | .otpCooldown _ | .refresh _ _ => Unit
  | .otpAttempts _ | .accessVersion _ => ℕ
  | .refreshSessions _ => List ℕ

structure Entry (α : Type) where
  value : α
  expiresAt : Option Time

abbrev Keyspace := (k : AuthKey) → Option (Entry k.Value)

namespace Keyspace

/-- The entry of a key that has not lapsed. A key lapses in the millisecond of its expiry, one
before the first in which Redis takes it for expired. -/
def live (ks : Keyspace) (now : Time) (k : AuthKey) : Option (Entry k.Value) :=
  (ks k).filter fun e => !e.expiresAt.any fun t => decide (t ≤ now)

def get (ks : Keyspace) (now : Time) (k : AuthKey) : Option k.Value :=
  (ks.live now k).map Entry.value

def put (ks : Keyspace) (k : AuthKey) (e : Option (Entry k.Value)) : Keyspace :=
  Function.update ks k e

/-- `SET key value EX seconds`. -/
def set (ks : Keyspace) (now : Time) (k : AuthKey) (v : k.Value) (seconds : ℕ) : Keyspace :=
  ks.put k (some ⟨v, some (now + seconds * 1000)⟩)

def del (ks : Keyspace) (keys : List AuthKey) : Keyspace :=
  fun k => if k ∈ keys then none else ks k

def expire (ks : Keyspace) (now : Time) (k : AuthKey) (seconds : ℕ) : Keyspace :=
  ks.put k ((ks.live now k).map fun e => { e with expiresAt := some (now + seconds * 1000) })

/-- `SADD` and `SREM` leave the expiry of the set alone. -/
def onSessions (ks : Keyspace) (now : Time) (userId : ℕ) (f : List ℕ → List ℕ) : Keyspace :=
  let e := (ks.live now (.refreshSessions userId)).getD ⟨[], none⟩
  ks.put (.refreshSessions userId) (some { e with value := f e.value })

/-- `INCR` of an absent key gives 1 and no expiry. -/
def incrAttempts (ks : Keyspace) (now : Time) (email : String) : ℕ × Keyspace :=
  let e : Entry ℕ := (ks.live now (.otpAttempts email)).getD ⟨0, none⟩
  (e.value + 1, ks.put (.otpAttempts email) (some { e with value := e.value + 1 }))

def incrVersion (ks : Keyspace) (now : Time) (userId : ℕ) : Keyspace :=
  let e : Entry ℕ := (ks.live now (.accessVersion userId)).getD ⟨0, none⟩
  ks.put (.accessVersion userId) (some { e with value := e.value + 1 })

variable (ks : Keyspace) {k k' : AuthKey}

theorem put_ne (h : k' ≠ k) (e : Option (Entry k.Value)) : ks.put k e k' = ks k' := by
  unfold put
  rw [Function.update_of_ne h]

theorem set_ne (now : Time) (h : k' ≠ k) (v : k.Value) (seconds : ℕ) :
    ks.set now k v seconds k' = ks k' := ks.put_ne h _

theorem onSessions_ne (now : Time) (v : ℕ) (h : k ≠ .refreshSessions v) (f : List ℕ → List ℕ) :
    ks.onSessions now v f k = ks k := ks.put_ne h _

theorem expire_ne (now : Time) (h : k' ≠ k) (seconds : ℕ) : ks.expire now k seconds k' = ks k' :=
  ks.put_ne h _

theorem incrVersion_ne (now : Time) (v : ℕ) (h : k ≠ .accessVersion v) :
    ks.incrVersion now v k = ks k := ks.put_ne h _

end Keyspace

/-! ### Commands -/

/-- The hashing libraries. `argon2.verify` answers for one of its own encoded hashes
whether it is of the given password; `bcrypt.compare` answers `false` for a string that
is not in its own encoding. -/
structure Hashing where
  argon2Hash : (salt : ℕ) → (password : String) → String
  argon2Verify : (digest password : String) → Except Err Bool
  bcryptHash : (salt : ℕ) → (password : String) → String
  bcryptCompare : (password digest : String) → Except Err Bool
  argon2Hash_ne_empty : ∀ s p, argon2Hash s p ≠ ""
  argon2Verify_hash : ∀ s p q, argon2Verify (argon2Hash s p) q = .ok (decide (q = p))
  bcryptCompare_foreign : ∀ s p q, bcryptCompare q (argon2Hash s p) = .ok false

structure AuthEnv where
  otpTtlSeconds : ℕ
  otpMaxAttempts : ℕ
  otpResendCooldownSeconds : ℕ
  deriving DecidableEq

structure Accounts where
  users : Users
  keys : Keyspace
  now : Time
  /-- The codes that were mailed, with their addressees. -/
  mails : List (String × String)
  /-- What the random number generator yields, and how much of it was used. -/
  entropy : ℕ → ℕ
  draws : ℕ

inductive AuthCmd where
  | dateNow
  | randomInt (low high : ℕ)
  | randomUUID
  | argon2Hash (password : String)
  | argon2Verify (digest password : String)
  | bcryptHash (password : String) (rounds : ℕ)
  | bcryptCompare (password digest : String)
  | userFindById (id : ℕ)
  | userFindByEmail (email : String)
  | userFindByGoogleId (googleId : String)
  | userCreate (data : UserCreate)
  | userUpdate (id : ℕ) (data : UserData)
  | get (k : AuthKey)
  | set (k : AuthKey) (v : k.Value) (seconds : ℕ)
  | del (keys : List AuthKey)
  /-- `DEL` of the attempts at a code, in the pipeline that stores a new one. -/
  | resetAttempts (email : String)
  | incrAttempts (email : String)
  | expireAttempts (email : String) (seconds : ℕ)
  /-- `MULTI INCR, EXPIRE EXEC` on the access version. -/
  | bumpAccessVersion (userId seconds : ℕ)
  /-- `MULTI SET, SADD EXEC` for a new refresh token. -/
  | storeRefresh (userId jti seconds : ℕ)
  /-- The script that swaps a refresh token for a new one. -/
  | rotateRefresh (oldUserId oldJti userId newJti seconds : ℕ)
  | sendOtpEmail (email code : String)

@[reducible] def AuthCmd.Reply : AuthCmd → Type
  | .dateNow => Time
  | .randomInt _ _ | .randomUUID | .incrAttempts _ => ℕ
  | .argon2Hash _ | .bcryptHash _ _ => String
  | .argon2Verify _ _ | .bcryptCompare _ _ | .rotateRefresh _ _ _ _ _ => Bool
  | .userFindById _ | .userFindByEmail _ | .userFindByGoogleId _ => Option User
  | .userCreate _ | .userUpdate _ _ => User
  | .get k => Option k.Value
  | .set _ _ _ | .del _ | .resetAttempts _ | .expireAttempts _ _ | .bumpAccessVersion _ _ | .storeRefresh _ _ _
  | .sendOtpEmail _ _ => Unit

abbrev AuthM := Prog AuthCmd AuthCmd.Reply Err

/-- The database, Redis and the mail server may fail to answer. -/
def AuthCmd.fault : AuthCmd → Err → Bool
  | .dateNow, _ | .randomInt _ _, _ | .randomUUID, _ | .argon2Hash _, _ | .argon2Verify _ _, _
  | .bcryptHash _ _, _ | .bcryptCompare _ _, _ => false
  | _, e => e = .unreachable

namespace Accounts

def draw (s : Accounts) : ℕ × Accounts := (s.entropy s.draws, { s with draws := s.draws + 1 })

def commit {α : Type} (s : Accounts) : Except Err (α × Users) → Except Err α × Accounts
  | .ok (a, users) => (.ok a, { s with users })
  | .error e => (.error e, s)

variable (lib : Hashing)

def exec : (c : AuthCmd) → Accounts → Except Err c.Reply × Accounts
  | .dateNow, s => (.ok s.now, s)
  | .randomInt low high, s => (.ok (low + s.draw.1 % (high - low)), s.draw.2)
  -- no two UUIDs are the same
  | .randomUUID, s => (.ok s.draws, s.draw.2)
  | .argon2Hash p, s => (.ok (lib.argon2Hash s.draw.1 p), s.draw.2)
  | .argon2Verify d p, s => (lib.argon2Verify d p, s)
  | .bcryptHash p _, s => (.ok (lib.bcryptHash s.draw.1 p), s.draw.2)
  | .bcryptCompare p d, s => (lib.bcryptCompare p d, s)
  | .userFindById id, s => (.ok (s.users.table.get id), s)
  | .userFindByEmail email, s => (.ok (s.users.findByEmail email), s)
  | .userFindByGoogleId googleId, s => (.ok (s.users.findByGoogleId googleId), s)
  | .userCreate d, s => s.commit (s.users.create d)
  | .userUpdate id d, s => s.commit (s.users.update id d)
  | .get k, s => (.ok (s.keys.get s.now k), s)
  | .set k v seconds, s => (.ok (), { s with keys := s.keys.set s.now k v seconds })
  | .del ks, s => (.ok (), { s with keys := s.keys.del ks })
  | .resetAttempts email, s => (.ok (), { s with keys := s.keys.del [.otpAttempts email] })
  | .incrAttempts email, s =>
    (.ok (s.keys.incrAttempts s.now email).1,
      { s with keys := (s.keys.incrAttempts s.now email).2 })
  | .expireAttempts email seconds, s =>
    (.ok (), { s with keys := s.keys.expire s.now (.otpAttempts email) seconds })
  | .bumpAccessVersion u seconds, s =>
    (.ok (), { s with
      keys := (s.keys.incrVersion s.now u).expire s.now (.accessVersion u) seconds })
  | .storeRefresh u jti seconds, s =>
    (.ok (), { s with
      keys := (s.keys.set s.now (.refresh u jti) () seconds).onSessions s.now u (List.insert jti) })
  | .rotateRefresh old oldJti u jti seconds, s =>
    if (s.keys.get s.now (.refresh old oldJti)).isSome then
      (.ok true, { s with
        keys := (((s.keys.del [.refresh old oldJti]).set s.now (.refresh u jti) ()
          seconds).onSessions s.now u (List.filter (· ≠ oldJti))).onSessions s.now u
            (List.insert jti) })
    else (.ok false, s)
  | .sendOtpEmail email code, s => (.ok (), { s with mails := s.mails ++ [(email, code)] })

end Accounts

/-! ### What a command leaves alone -/

/-- The keys that a command can change. -/
def AuthCmd.writesKey (k : AuthKey) : AuthCmd → Prop
  | .set k' _ _ => k = k'
  | .del keys => k ∈ keys
  | .resetAttempts email | .incrAttempts email | .expireAttempts email _ => k = .otpAttempts email
  | .bumpAccessVersion u _ => k = .accessVersion u
  | .storeRefresh u jti _ => k = .refresh u jti ∨ k = .refreshSessions u
  | .rotateRefresh old oldJti u jti _ =>
    k = .refresh old oldJti ∨ k = .refresh u jti ∨ k = .refreshSessions u
  | _ => False

namespace Accounts

variable {lib : Hashing} {s : Accounts} {c : AuthCmd} {α : Type}

@[simp] theorem commit_keys (x : Except Err (α × Users)) : (s.commit x).2.keys = s.keys := by
  cases x <;> rfl

@[simp] theorem commit_now (x : Except Err (α × Users)) : (s.commit x).2.now = s.now := by
  cases x <;> rfl

@[simp] theorem commit_mails (x : Except Err (α × Users)) : (s.commit x).2.mails = s.mails := by
  cases x <;> rfl

@[simp] theorem commit_draws (x : Except Err (α × Users)) : (s.commit x).2.draws = s.draws := by
  cases x <;> rfl

theorem exec_now : (exec lib c s).2.now = s.now := by
  cases c with
  | userCreate d => exact commit_now _
  | userUpdate id d => exact commit_now _
  | rotateRefresh old oldJti v jti seconds =>
    simp only [exec]
    split_ifs <;> rfl
  | _ => rfl

theorem exec_key {k : AuthKey} (h : ¬ c.writesKey k) :
    (exec lib c s).2.keys k = s.keys k := by
  cases c with
  | userCreate d => exact congrFun (commit_keys _) k
  | userUpdate id d => exact congrFun (commit_keys _) k
  | set k' v seconds => exact s.keys.set_ne s.now h v seconds
  | del keys => exact if_neg h
  | resetAttempts email => exact if_neg fun hk => h (List.mem_singleton.mp hk)
  | incrAttempts email => exact s.keys.put_ne h _
  | expireAttempts email seconds => exact s.keys.expire_ne s.now h seconds
  | bumpAccessVersion v seconds =>
    exact ((s.keys.incrVersion s.now v).expire_ne s.now h seconds).trans
      (s.keys.incrVersion_ne s.now v h)
  | storeRefresh v jti seconds =>
    obtain ⟨htoken, hset⟩ := not_or.mp h
    exact ((s.keys.set s.now (.refresh v jti) () seconds).onSessions_ne s.now v hset _).trans
      (s.keys.set_ne s.now htoken () seconds)
  | rotateRefresh old oldJti v jti seconds =>
    obtain ⟨hold, hrest⟩ := not_or.mp h
    obtain ⟨hnew, hset⟩ := not_or.mp hrest
    simp only [exec]
    split_ifs
    · dsimp only
      rw [Keyspace.onSessions_ne _ _ _ hset, Keyspace.onSessions_ne _ _ _ hset,
        Keyspace.set_ne _ _ hnew]
      exact if_neg (by simpa using hold)
    · rfl
  | _ => rfl

end Accounts

end MovieReservation
