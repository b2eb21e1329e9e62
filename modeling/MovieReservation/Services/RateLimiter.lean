import Mathlib.Data.Prod.Lex
import Mathlib.Data.List.Sort
import Mathlib.Data.Rat.Floor
import Mathlib.Logic.Function.Basic

/-! The rate limiter: a Redis script over one sorted set for each key, which holds the calls
that were allowed lately; and its two callers, a guard with a bucket for each user and a
middleware with one for each address. -/

namespace MovieReservation

/-! ### Sorted sets -/

/-- Scores with their members, by score and then by member, and the expiry of the key. -/
structure ZSet where
  entries : List (ℕ × ℕ)
  expiresAt : Option ℕ

namespace ZSet

def before (a b : ℕ × ℕ) : Prop := toLex a ≤ toLex b

instance : DecidableRel before := fun a b => inferInstanceAs (Decidable (toLex a ≤ toLex b))

/-- A key past its expiry reads as absent. -/
def live (now : ℕ) (z : Option ZSet) : Option ZSet :=
  z.filter fun z => !z.expiresAt.any fun t => decide (t ≤ now)

/-- A set without members is removed with its key. -/
def zremrangebyscore (low high : ℤ) (z : Option ZSet) : Option ZSet :=
  (z.map fun z => { z with entries := z.entries.filter fun e => ¬ (low ≤ e.1 ∧ e.1 ≤ high) }).filter
    fun z => !z.entries.isEmpty

def zcard (z : Option ZSet) : ℕ := (z.map fun z => z.entries.length).getD 0

def zadd (score member : ℕ) (z : Option ZSet) : Option ZSet :=
  let z := z.getD ⟨[], none⟩
  some { z with
    entries := (z.entries.filter fun e => e.2 ≠ member).orderedInsert before (score, member) }

def pexpire (now ms : ℕ) (z : Option ZSet) : Option ZSet :=
  z.map fun z => { z with expiresAt := some (now + ms) }

/-- `ZRANGE key 0 0 WITHSCORES`. -/
def oldest (z : Option ZSet) : Option (ℕ × ℕ) := z.bind fun z => z.entries.head?

end ZSet

/-! ### The script -/

structure RateLimiterConfig where
  windowSize : ℕ
  maxRequests : ℕ

structure RateLimiterResult where
  allowed : Bool
  remaining : ℕ
  resetAfterMs : ℤ
  deriving DecidableEq

namespace RateLimiterService

/-- `RATE_LIMITER_SCRIPT`, on the set under its key. -/
def script (now : ℕ) (config : RateLimiterConfig) (member : ℕ) (z : Option ZSet) :
    RateLimiterResult × Option ZSet :=
  let windowStart : ℤ := now - config.windowSize
  let z := ZSet.zremrangebyscore 0 windowStart (ZSet.live now z)
  let count := ZSet.zcard z
  if count < config.maxRequests then
    (⟨true, config.maxRequests - count - 1, config.windowSize⟩,
      ZSet.pexpire now config.windowSize (ZSet.zadd now member z))
  else
    match ZSet.oldest z with
    | none => (⟨false, 0, 0⟩, z)
    | some e =>
      let resetAfterMs : ℤ := e.1 + config.windowSize - now
      (⟨false, 0, if resetAfterMs < 0 then 0 else resetAfterMs⟩, z)

end RateLimiterService

/-- The sorted sets of the limiter by their keys. -/
abbrev Limiter := String → Option ZSet

/-- A call of `rateLimiter`, with what `Date.now` and `randomUUID` give it. -/
structure LimiterCall where
  key : String
  timestamp : ℕ
  member : ℕ
  deriving DecidableEq

namespace RateLimiterService

def rateLimiter (config : RateLimiterConfig) (c : LimiterCall) (s : Limiter) :
    RateLimiterResult × Limiter :=
  let r := script c.timestamp config c.member (s c.key)
  (r.1, Function.update s c.key r.2)

end RateLimiterService

/-! ### Its callers -/

/-- How a request leaves the guard or the middleware: `Retry-After` is in seconds. -/
inductive Gate where
  | next
  | tooManyRequests (retryAfter : ℤ)
  deriving DecidableEq

/-- `Math.ceil(result.resetAfterMs / 1000)` -/
def retryAfter (resetAfterMs : ℤ) : ℤ := ⌈(resetAfterMs : ℚ) / 1000⌉

def RateLimiterResult.gate (result : RateLimiterResult) : Gate :=
  if result.allowed then .next else .tooManyRequests (retryAfter result.resetAfterMs)

/-- The metadata of `@RateLimit`, and a rule of the middleware. -/
structure RateLimitConfig where
  points : ℕ
  duration : ℕ
  key : String
  deriving DecidableEq

def RateLimitConfig.limiter (config : RateLimitConfig) : RateLimiterConfig :=
  ⟨config.duration, config.points⟩

/-- A call under a rule, and what the caller makes of its result. -/
def RateLimitConfig.enter (config : RateLimitConfig) (redisKey : String) (timestamp member : ℕ)
    (s : Limiter) : Gate × Limiter :=
  let r := RateLimiterService.rateLimiter config.limiter ⟨redisKey, timestamp, member⟩ s
  (r.1.gate, r.2)

/-- A value that may be missing, in a template. -/
def orUndefined (value : Option String) : String := value.getD "undefined"

namespace RateLimitGuard

def redisKey (userId : Option ℕ) (config : RateLimitConfig) : String :=
  s!"rate_limit:user:{orUndefined (userId.map toString)}:{config.key}"

/-- The `@RateLimit` of each handler that has one, all behind the `JwtAuthGuard`. -/
def handlers : List RateLimitConfig :=
  [⟨10, 3600000, "users:name"⟩, ⟨10, 3600000, "users:email-request"⟩,
    ⟨10, 3600000, "users:email-confirm"⟩, ⟨10, 3600000, "users:email-pending"⟩,
    ⟨10, 3600000, "users:password"⟩, ⟨3, 60000, "reservations:create"⟩,
    ⟨5, 60000, "payments:checkout"⟩]

def canActivate (config : Option RateLimitConfig) (userId : Option ℕ) (timestamp member : ℕ)
    (s : Limiter) : Gate × Limiter :=
  match config with
  | none => (.next, s)
  | some config => config.enter (redisKey userId config) timestamp member s

end RateLimitGuard

/-- What the middleware reads of a request; `path` is without the query string. -/
structure HttpRequest where
  method : String
  path : String
  ip : Option String
  deriving DecidableEq

namespace IpRateLimitMiddleware

/-- The rules by route key. `loginRateLimit` is `Number(process.env.LOGIN_RATE_LIMIT)`, with
0 for `NaN`. -/
def rules (loginRateLimit : ℕ) : List (String × RateLimitConfig) :=
  [("POST /auth/login", ⟨if loginRateLimit = 0 then 5 else loginRateLimit, 15 * 60000,
      "auth:login"⟩),
    ("GET /movies", ⟨60, 60000, "movies:browse"⟩),
    ("POST /auth/register", ⟨3, 60000, "auth:register"⟩),
    ("POST /auth/verify-otp", ⟨10, 60000, "auth:verify-otp"⟩),
    ("POST /auth/resend-otp", ⟨3, 60000, "auth:resend-otp"⟩),
    ("POST /auth/refresh", ⟨10, 60000, "auth:refresh"⟩)]

/-- The path without the global prefix. -/
def routePath (path : String) : String :=
  if "/api/v1".toList <+: path.toList then String.ofList (path.toList.drop "/api/v1".length)
  else path

def routeKey (req : HttpRequest) : String := req.method ++ " " ++ routePath req.path

def redisKey (ip : Option String) (rule : RateLimitConfig) : String :=
  s!"rate_limit:ip:{orUndefined ip}:{rule.key}"

def use (loginRateLimit : ℕ) (req : HttpRequest) (timestamp member : ℕ) (s : Limiter) :
    Gate × Limiter :=
  match (rules loginRateLimit).lookup (routeKey req) with
  | none => (.next, s)
  | some rule => rule.enter (redisKey req.ip rule) timestamp member s

end IpRateLimitMiddleware

structure Route where
  method : String
  path : String
  deriving DecidableEq

/-- The routes that the middleware is applied to, below the global prefix. -/
def AppModule.configure : List Route :=
  [⟨"POST", "auth/login"⟩, ⟨"GET", "movies"⟩, ⟨"POST", "auth/register"⟩,
    ⟨"POST", "auth/verify-otp"⟩, ⟨"POST", "auth/resend-otp"⟩, ⟨"POST", "auth/refresh"⟩]

end MovieReservation
