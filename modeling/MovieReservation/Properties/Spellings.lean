import Mathlib.Data.List.Basic
import MovieReservation.Services.RateLimiter

/-! The address limit and the spelling of a path. Express ignores the case of a path and a
slash at its end, and sends HEAD requests to the GET routes; the middleware looks its rule up
by the text of the method and the path, so it finds the rule of a route only for the one
spelling that the rule is written in. -/

namespace MovieReservation

open IpRateLimitMiddleware

/-! ### A route that is limited however it is spelled -/

/-- The path under which Nest registers a route. -/
def Route.fullPath (route : Route) : String := "/api/v1/" ++ route.path

/-- The default router: GET routes also serve HEAD, and a path matches whatever its case is
and with a slash at its end. -/
def Route.Dispatches (route : Route) (req : HttpRequest) : Prop :=
  (req.method = route.method ∨ req.method = "HEAD" ∧ route.method = "GET") ∧
    ∃ slash ∈ ["", "/"],
      req.path.toList.map Char.toLower = (route.fullPath ++ slash).toList

instance (route : Route) (req : HttpRequest) : Decidable (route.Dispatches req) :=
  inferInstanceAs (Decidable (_ ∧ ∃ slash ∈ ["", "/"], _))

def Route.name (route : Route) : String := route.method ++ " /" ++ route.path

/-- The middleware finds the route's rule, and the request consumes from its client's bucket
before it goes on. -/
def LimitsRoute (loginRateLimit : ℕ) (route : Route) (req : HttpRequest) : Prop :=
  ∃ rule, (route.name, rule) ∈ rules loginRateLimit ∧ ∀ timestamp member s,
    use loginRateLimit req timestamp member s =
      rule.enter (redisKey req.ip rule) timestamp member s

/-! ### The rules -/

section Rules
variable {loginRateLimit : ℕ} {route : Route} {req : HttpRequest} {rule : RateLimitConfig}

theorem rules_keys : (rules loginRateLimit).map Prod.fst = AppModule.configure.map Route.name := by
  simp only [rules, List.map_cons, List.map_nil]
  decide

/-- Every rule lets at least one request through. -/
theorem rule_points_pos {key : String} (h : (key, rule) ∈ rules loginRateLimit) :
    0 < rule.points := by
  simp only [rules, List.mem_cons, Prod.mk.injEq, List.not_mem_nil, or_false] at h
  rcases h with ⟨-, rfl⟩ | ⟨-, rfl⟩ | ⟨-, rfl⟩ | ⟨-, rfl⟩ | ⟨-, rfl⟩ | ⟨-, rfl⟩ <;>
    first | decide | (dsimp only; split_ifs <;> omega)

theorem mem_of_lookup {key : String} (h : (rules loginRateLimit).lookup key = some rule) :
    (key, rule) ∈ rules loginRateLimit := by
  obtain ⟨before, after, hsplit, -⟩ := List.lookup_eq_some_iff.mp h
  rw [hsplit]
  exact List.mem_append_right _ List.mem_cons_self

/-- Each route has a rule. -/
theorem exists_rule (h : route ∈ AppModule.configure) :
    ∃ rule, (rules loginRateLimit).lookup route.name = some rule := by
  have hkey : route.name ∈ (rules loginRateLimit).map Prod.fst := by
    rw [rules_keys]
    exact List.mem_map_of_mem h
  obtain ⟨⟨key, rule⟩, hmem, hname⟩ := List.mem_map.mp hkey
  cases hlookup : (rules loginRateLimit).lookup route.name with
  | none =>
    have hno := List.lookup_eq_none_iff.mp hlookup (key, rule) hmem
    simp [← hname] at hno
  | some rule => exact ⟨rule, rfl⟩

/-! ### The spelling -/

/-- A route is dispatched to under another route's registered path only if it is the same. -/
theorem fullPath_dispatched : ∀ route ∈ AppModule.configure, ∀ route' ∈ AppModule.configure,
    ∀ slash ∈ ["", "/"],
      route'.fullPath.toList.map Char.toLower = (route.fullPath ++ slash).toList →
        route' = route := by decide

/-- No request without the prefix is dispatched. -/
theorem barePath_undispatched : ∀ route ∈ AppModule.configure, ∀ route' ∈ AppModule.configure,
    ∀ slash ∈ ["", "/"],
      ("/" ++ route'.path).toList.map Char.toLower ≠ (route.fullPath ++ slash).toList := by decide

theorem routePath_fullPath : ∀ route ∈ AppModule.configure,
    routePath route.fullPath = "/" ++ route.path := by decide

theorem routeKey_eq_name (h : route ∈ AppModule.configure) :
    routeKey req = route.name ↔
      req.method = route.method ∧ routePath req.path = "/" ++ route.path := by
  have hspaces : ∀ route ∈ AppModule.configure,
      ' ' ∉ route.method.toList ∧ ' ' ∉ ("/" ++ route.path).toList := by decide
  obtain ⟨hmethod, hpath⟩ := hspaces route h
  have hname : route.name.toList = route.method.toList ++ ' ' :: ("/" ++ route.path).toList := by
    simp [Route.name]
  have hkey : (routeKey req).toList = req.method.toList ++ ' ' :: (routePath req.path).toList := by
    simp [routeKey]
  rw [← String.toList_inj, hkey, hname, eq_comm,
    List.append_cons_inj_of_notMem hmethod hpath, String.toList_inj, String.toList_inj]
  simp [eq_comm]

/-- A path whose prefix is stripped, or which has none. -/
theorem routePath_cases (path p : String) (h : routePath path = p) :
    path = "/api/v1" ++ p ∨ path = p := by
  unfold routePath at h
  split_ifs at h with hprefix
  · obtain ⟨rest, hrest⟩ := hprefix
    have hdrop : path.toList.drop "/api/v1".length = rest := by
      rw [← hrest]
      exact List.drop_left
    rw [hdrop] at h
    refine .inl (String.toList_inj.mp ?_)
    rw [← hrest, ← h]
    simp
  · exact .inr h

/-- A dispatched request has a route's key only if it is spelled as the route is. -/
theorem spelled_of_key {route' : Route} (hroute : route ∈ AppModule.configure)
    (hroute' : route' ∈ AppModule.configure) (h : route.Dispatches req)
    (hkey : routeKey req = route'.name) :
    req.method = route.method ∧ req.path = route.fullPath := by
  obtain ⟨-, slash, hslash, hlower⟩ := h
  obtain ⟨hmethod, hpath⟩ := (routeKey_eq_name hroute').mp hkey
  rcases routePath_cases _ _ hpath with hfull | hbare
  · have hregistered : req.path = route'.fullPath := by
      rw [hfull, Route.fullPath, ← String.append_assoc]
      rfl
    rw [hregistered] at hlower
    obtain rfl := fullPath_dispatched route hroute route' hroute' slash hslash hlower
    exact ⟨hmethod, hregistered⟩
  · rw [hbare] at hlower
    exact absurd hlower (barePath_undispatched route hroute route' hroute' slash hslash)

end Rules

/-! ### Every dispatched request -/

section Requests
variable {loginRateLimit : ℕ} {route : Route} {req : HttpRequest} {rule : RateLimitConfig}

/-- A request under a rule with points leaves something in an empty bucket. -/
theorem enter_empty {key : String} {t m : ℕ} (h : 0 < rule.points) :
    (rule.enter key t m fun _ => none).2 key ≠ none := by
  simp [RateLimitConfig.enter, RateLimiterService.rateLimiter, RateLimiterService.script,
    RateLimitConfig.limiter, ZSet.live, ZSet.zremrangebyscore, ZSet.zcard, ZSet.zadd,
    ZSet.pexpire, h]

/-- A request whose key has no rule consumes nothing. -/
theorem unlimited_of_unruled (h : (rules loginRateLimit).lookup (routeKey req) = none) :
    ¬ LimitsRoute loginRateLimit route req := by
  rintro ⟨rule, hrule, huse⟩
  have hnext := congrArg (fun r => r.2 (redisKey req.ip rule)) (huse 0 0 fun _ => none)
  simp only [use, h] at hnext
  exact enter_empty (rule_points_pos hrule) hnext.symm

/-- The limit of its route applies to a dispatched request exactly if its method and path are
spelled as they were registered. -/
theorem limits_route_iff (loginRateLimit : ℕ) (route : Route) (req : HttpRequest)
    (hroute : route ∈ AppModule.configure) (h : route.Dispatches req) :
    LimitsRoute loginRateLimit route req ↔
      req.method = route.method ∧ req.path = route.fullPath := by
  constructor
  · intro hlimits
    cases hlookup : (rules loginRateLimit).lookup (routeKey req) with
    | none => exact absurd hlimits (unlimited_of_unruled hlookup)
    | some rule =>
      have hkey : routeKey req ∈ (rules loginRateLimit).map Prod.fst :=
        List.mem_map_of_mem (mem_of_lookup hlookup)
      rw [rules_keys] at hkey
      obtain ⟨route', hroute', hname⟩ := List.mem_map.mp hkey
      exact spelled_of_key hroute hroute' h hname.symm
  · rintro ⟨hmethod, hpath⟩
    obtain ⟨rule, hlookup⟩ : ∃ rule, (rules loginRateLimit).lookup route.name = some rule :=
      exists_rule hroute
    have hkey : routeKey req = route.name := by
      refine (routeKey_eq_name hroute).mpr ⟨hmethod, ?_⟩
      rw [hpath]
      exact routePath_fullPath route hroute
    refine ⟨rule, mem_of_lookup hlookup, fun t m s => ?_⟩
    rw [use, hkey, hlookup]

end Requests

def loginRoute : Route := ⟨"POST", "auth/login"⟩

theorem login_limited : LimitsRoute 0 loginRoute ⟨"POST", "/api/v1/auth/login", some "1.2.3.4"⟩ :=
  (limits_route_iff 0 loginRoute _ (by decide) (by decide)).mpr ⟨rfl, by decide⟩

/-- A capital letter sidesteps the limit. -/
theorem capital_sidesteps : ¬ ∀ (loginRateLimit : ℕ) (route : Route) (req : HttpRequest),
    route ∈ AppModule.configure → route.Dispatches req → LimitsRoute loginRateLimit route req := by
  intro hall
  have hlimits := hall 0 loginRoute ⟨"POST", "/api/v1/auth/Login", some "1.2.3.4"⟩
    (by decide) (by decide)
  exact unlimited_of_unruled (by decide) hlimits

end MovieReservation
