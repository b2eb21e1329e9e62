import Mathlib.Tactic.Linarith
import MovieReservation.Properties.RateLimits

/-! `Retry-After`: a refused call is told when the oldest call in its window leaves it. Until
then every call under its key is refused, and from then on the first one is allowed, so a
client that waits the seconds it was sent is let in. -/

namespace MovieReservation

open Lib Served

variable (config : String → RateLimiterConfig)

/-! ### The wait that a refused client is told -/

/-- Of the calls that come after `xs`, none under the key is allowed. -/
def NoneAllowed (key : String) (xs zs : List LimiterCall) : Prop :=
  ∀ before d rest, zs = before ++ d :: rest → d.key = key →
    ((after config (xs ++ before)).answer config d).allowed = false

/-- What the call after `xs` is told to wait. -/
def resetOf (xs : List LimiterCall) (c : LimiterCall) : ℤ :=
  ((after config xs).answer config c).resetAfterMs

/-- The caller sends the time to wait, rounded up to seconds, and lets the client in who
comes back after them, if no other call under the key was allowed in between. -/
def LetsIn (xs : List LimiterCall) (c : LimiterCall) (call : ℕ → ℕ → Limiter → Gate × Limiter) :
    Prop :=
  (call c.timestamp c.member (after config xs).limiter).1 =
      .tooManyRequests (retryAfter (resetOf config xs c)) ∧
    ∀ zs (t m : ℕ), Orderly (xs ++ c :: zs ++ [⟨c.key, t, m⟩]) →
      NoneAllowed config c.key (xs ++ [c]) zs →
      c.timestamp + 1000 * retryAfter (resetOf config xs c) ≤ t →
      (call t m (after config (xs ++ c :: zs)).limiter).1 = .next

/-- The call `c` after `xs`, which was refused. -/
structure RetryExact (xs : List LimiterCall) (c : LimiterCall) : Prop where
  positive : 0 < resetOf config xs c
  tooEarly : ∀ zs d, Orderly (xs ++ c :: zs ++ [d]) → d.key = c.key →
    d.timestamp < c.timestamp + resetOf config xs c →
    ((after config (xs ++ c :: zs)).answer config d).allowed = false
  inTime : ∀ zs d, Orderly (xs ++ c :: zs ++ [d]) → d.key = c.key →
    NoneAllowed config c.key (xs ++ [c]) zs →
    c.timestamp + resetOf config xs c ≤ d.timestamp →
    ((after config (xs ++ c :: zs)).answer config d).allowed = true
  guard : ∀ rule userId, c.key = RateLimitGuard.redisKey userId rule →
    config c.key = rule.limiter →
    LetsIn config xs c (RateLimitGuard.canActivate (some rule) userId)
  middleware : ∀ loginRateLimit req rule,
    (IpRateLimitMiddleware.rules loginRateLimit).lookup (IpRateLimitMiddleware.routeKey req) =
      some rule → c.key = IpRateLimitMiddleware.redisKey req.ip rule →
    config c.key = rule.limiter →
    LetsIn config xs c (IpRateLimitMiddleware.use loginRateLimit req)

/-! ### The oldest call in the window -/

section Window
variable {config} {cfg : RateLimiterConfig} {us : List (ℕ × ℕ)} {t : ℕ}

theorem head_le {e : ℕ × ℕ} (h : (us.insertionSort ZSet.before).head? = some e) :
    e ∈ us ∧ ∀ x ∈ us, e.1 ≤ x.1 := by
  have hmem : ∀ x, x ∈ us.insertionSort ZSet.before ↔ x ∈ us := fun x =>
    List.mem_insertionSort ZSet.before
  have hsorted := List.pairwise_insertionSort ZSet.before us
  cases hs : us.insertionSort ZSet.before with
  | nil =>
    rw [hs] at h
    cases h
  | cons a rest =>
    rw [hs] at h hmem hsorted
    obtain rfl : a = e := Option.some.inj h
    refine ⟨(hmem a).mp List.mem_cons_self, fun x hx => ?_⟩
    rcases List.mem_cons.mp ((hmem x).mpr hx) with rfl | hx
    · exact Nat.le_refl _
    · have hle : ZSet.before a x := (List.pairwise_cons.mp hsorted).1 x hx
      exact Prod.Lex.monotone_fst _ _ hle

/-- A refused call is told when the oldest call leaves the window. -/
theorem reference_refused (hmax : 0 < cfg.maxRequests) (h : (reference cfg us t).allowed = false) :
    cfg.maxRequests ≤ (within Prod.fst cfg.windowSize t us).length ∧
      ∃ e ∈ within Prod.fst cfg.windowSize t us,
        (∀ x ∈ within Prod.fst cfg.windowSize t us, e.1 ≤ x.1) ∧
        (reference cfg us t).resetAfterMs = e.1 + cfg.windowSize - t := by
  have hfull : ¬ (within Prod.fst cfg.windowSize t us).length < cfg.maxRequests := by
    rw [← reference_allowed, h]
    exact Bool.false_ne_true
  refine ⟨not_lt.mp hfull, ?_⟩
  simp only [reference, if_neg hfull]
  cases hhead : ((within Prod.fst cfg.windowSize t us).insertionSort ZSet.before).head? with
  | none =>
    have hnil : (within Prod.fst cfg.windowSize t us).length = 0 := by
      rw [← List.length_insertionSort ZSet.before, List.head?_eq_none_iff.mp hhead, List.length_nil]
    omega
  | some e =>
    obtain ⟨hmem, hle⟩ := head_le hhead
    exact ⟨e, hmem, hle, rfl⟩

end Window

/-! ### The calls under a key -/

section Calls
variable {config} {xs zs : List LimiterCall} {c : LimiterCall} {key : String}

/-- What was allowed stays so. -/
theorem under_append (xs zs : List LimiterCall) (key : String) :
    ∃ vs, (after config (xs ++ zs)).under key = (after config xs).under key ++ vs := by
  induction zs using List.reverseRecOn with
  | nil => exact ⟨[], by simp⟩
  | append_singleton zs d ih =>
    obtain ⟨vs, hvs⟩ := ih
    rw [← List.append_assoc, after_snoc, under_serve, hvs]
    split_ifs
    · exact ⟨vs ++ [allowedEntry d], by simp⟩
    · exact ⟨vs, rfl⟩

theorem NoneAllowed.under_eq (h : NoneAllowed config key xs zs) :
    (after config (xs ++ zs)).under key = (after config xs).under key := by
  induction zs using List.reverseRecOn with
  | nil => rw [List.append_nil]
  | append_singleton zs d ih =>
    have hzs : NoneAllowed config key xs zs := fun before f rest hsplit =>
      h before f (rest ++ [d]) (by rw [hsplit]; simp)
    have hlast : ¬ (((after config (xs ++ zs)).answer config d).allowed = true ∧ d.key = key) := by
      rintro ⟨ha, hkey⟩
      rw [h zs d [] rfl hkey] at ha
      cases ha
    rw [← List.append_assoc, after_snoc, under_serve, if_neg hlast, ih hzs]

/-- A refused call leaves the calls under its key as they were. -/
theorem under_refused (href : ((after config xs).answer config c).allowed = false) :
    (after config (xs ++ [c])).under key = (after config xs).under key := by
  rw [after_snoc, under_serve, href]
  exact if_neg fun h => Bool.false_ne_true h.1

/-- The window of a call holds no more than the maximum. -/
theorem length_within_max (h : Orderly (xs ++ [c])) :
    (within Prod.fst (config c.key).windowSize c.timestamp
      ((after config xs).under c.key)).length ≤ (config c.key).maxRequests := by
  have hpast : ∀ d ∈ xs, d.timestamp ≤ c.timestamp := fun d hd =>
    (List.pairwise_append.mp h.inOrder).2.2 d hd c (List.mem_singleton_self c)
  have hgood : Good config c.timestamp (after config xs) :=
    good_after (h.sublist (List.sublist_append_left _ _)) hpast
  have hle := (hgood.spaced c.key).window_le ((c.timestamp : ℤ) - (config c.key).windowSize)
  refine le_trans (le_of_eq ?_) hle
  rw [within]
  refine congrArg List.length (List.filter_congr fun e he => decide_eq_decide.mpr ?_)
  obtain ⟨d, hd, -, rfl⟩ := mem_under.mp he
  have hd := hgood.past d hd
  simp only [allowedEntry]
  omega

end Calls

/-! ### Every refused call -/

section Refused
variable {config} {xs : List LimiterCall} {c : LimiterCall}

theorem le_retryAfter (d : ℤ) : d ≤ 1000 * retryAfter d := by
  have hceil := Int.le_ceil ((d : ℚ) / 1000)
  have hcast : (d : ℚ) ≤ 1000 * (retryAfter d : ℚ) := by
    rw [retryAfter]
    linarith
  exact_mod_cast hcast

theorem enter_fst {rule : RateLimitConfig} (hrule : config c.key = rule.limiter) (t m : ℕ) :
    (rule.enter c.key t m (after config xs).limiter).1 =
      ((after config xs).answer config ⟨c.key, t, m⟩).gate := by
  rw [answer, hrule]
  rfl

/-- A caller that is refused sends the seconds after which it lets the client in. -/
theorem letsIn_enter {rule : RateLimitConfig} (hrule : config c.key = rule.limiter)
    (href : ((after config xs).answer config c).allowed = false)
    (hwait : ∀ zs d, Orderly (xs ++ c :: zs ++ [d]) → d.key = c.key →
      NoneAllowed config c.key (xs ++ [c]) zs →
      c.timestamp + resetOf config xs c ≤ d.timestamp →
      ((after config (xs ++ c :: zs)).answer config d).allowed = true) :
    LetsIn config xs c (rule.enter c.key) := by
  refine ⟨?_, fun zs t m h hnone ht => ?_⟩
  · rw [enter_fst hrule, RateLimiterResult.gate, href]
    rfl
  · have hle := le_retryAfter (resetOf config xs c)
    have hin := hwait zs ⟨c.key, t, m⟩ h rfl hnone (by simp only; omega)
    rw [enter_fst hrule, RateLimiterResult.gate, hin]
    rfl

/-- `Retry-After` is exact for every call that is refused. -/
theorem retry_exact (h : Orderly (xs ++ [c])) (hmax : 0 < (config c.key).maxRequests)
    (href : ((after config xs).answer config c).allowed = false) : RetryExact config xs c := by
  have hanswer : (after config xs).answer config c = _ := answer_after h
  obtain ⟨hfull, e, he, holdest, hreset⟩ := reference_refused hmax (hanswer ▸ href)
  rw [← hanswer] at hreset
  have hlate := (mem_within.mp he).2
  have hall : ∀ zs, xs ++ c :: zs = xs ++ [c] ++ zs := by simp
  have hwait : ∀ zs d, Orderly (xs ++ c :: zs ++ [d]) → d.key = c.key →
      NoneAllowed config c.key (xs ++ [c]) zs →
      c.timestamp + resetOf config xs c ≤ d.timestamp →
      ((after config (xs ++ c :: zs)).answer config d).allowed = true := by
    intro zs d hd hkey hnone htime
    rw [resetOf, hreset] at htime
    have hunder := hnone.under_eq
    rw [under_refused href, ← hall] at hunder
    rw [answer_after hd, reference_allowed, hkey, hunder]
    exact (length_within_lt (by omega) he (by omega)).trans_le (length_within_max h)
  refine ⟨?_, fun zs d hd hkey htime => ?_, hwait, fun rule userId hkey hrule => ?_,
    fun loginRateLimit req rule hlookup hkey hrule => ?_⟩
  · rw [resetOf, hreset]
    omega
  · rw [resetOf, hreset] at htime
    obtain ⟨vs, hvs⟩ : ∃ vs, (after config (xs ++ c :: zs)).under c.key =
        (after config xs).under c.key ++ vs := under_append xs (c :: zs) c.key
    have hnot : ¬ ((after config (xs ++ c :: zs)).answer config d).allowed = true := by
      rw [answer_after hd, reference_allowed, hkey, hvs, not_lt]
      refine hfull.trans (length_within_le (fun x hx => ?_) vs)
      have hle := holdest x hx
      omega
    simpa using hnot
  · have hcall : RateLimitGuard.canActivate (some rule) userId = rule.enter c.key := by
      rw [hkey]
      rfl
    rw [hcall]
    exact letsIn_enter hrule href hwait
  · have hcall : IpRateLimitMiddleware.use loginRateLimit req = rule.enter c.key := by
      funext t m s
      rw [hkey, IpRateLimitMiddleware.use, hlookup]
    rw [hcall]
    exact letsIn_enter hrule href hwait

end Refused

/-- Three registrations from one address, and the fourth within the minute. -/
def registrations : List LimiterCall :=
  [⟨"rate_limit:ip:1.2.3.4:auth:register", 0, 0⟩,
    ⟨"rate_limit:ip:1.2.3.4:auth:register", 100, 1⟩,
    ⟨"rate_limit:ip:1.2.3.4:auth:register", 500, 2⟩]

def fourthRegistration : LimiterCall := ⟨"rate_limit:ip:1.2.3.4:auth:register", 47500, 3⟩

/-- It is told to wait 12500 ms, which is 13 seconds. -/
theorem fourth_registration_exact :
    RetryExact (fun _ => ⟨60000, 3⟩) registrations fourthRegistration ∧
      resetOf (fun _ => ⟨60000, 3⟩) registrations fourthRegistration = 12500 ∧
      retryAfter 12500 = 13 := by
  refine ⟨retry_exact ⟨by decide, by decide⟩ (by decide : 0 < 3) (by decide), by decide, ?_⟩
  rw [retryAfter, Int.ceil_eq_iff]
  norm_num

end MovieReservation
