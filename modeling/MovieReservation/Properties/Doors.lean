import MovieReservation.Properties.RateLimits

/-! The doors of the API. The middleware counts by address and the guard by user, every rule in
one Redis under keys of its own: no key of a bucket is that of another, so each bucket keeps to
its rule whatever comes to the others. -/

namespace MovieReservation

open Lib IpRateLimitMiddleware

/-! ### Who is counted -/

/-- What comes to the API: a request that the middleware sees, or a handler that the guard is
asked about for the signed-in user. -/
inductive Visit where
  | request (req : HttpRequest)
  | handler (userId : ℕ) (config : {config // config ∈ RateLimitGuard.handlers})
  deriving DecidableEq

/-- A visit, with what `Date.now` and `randomUUID` give it. -/
structure Arrival where
  visit : Visit
  timestamp : ℕ
  member : ℕ
  deriving DecidableEq

/-- An address or a user under one rule. -/
inductive Bucket where
  | address (ip : String) (rule : RateLimitConfig)
  | user (id : ℕ) (rule : RateLimitConfig)
  deriving DecidableEq

namespace Bucket

def rule : Bucket → RateLimitConfig
  | address _ rule | user _ rule => rule

def redisKey : Bucket → String
  | address ip rule => IpRateLimitMiddleware.redisKey (some ip) rule
  | user id rule => RateLimitGuard.redisKey (some id) rule

end Bucket

section Doors
variable (loginRateLimit : ℕ)

def Visit.bucket : Visit → Option Bucket
  | request req => ((rules loginRateLimit).lookup (routeKey req)).map
      (Bucket.address (orUndefined req.ip))
  | handler userId config => some (.user userId config)

def Visit.enter (v : Visit) (timestamp member : ℕ) (s : Limiter) : Gate × Limiter :=
  match v with
  | request req => use loginRateLimit req timestamp member s
  | handler userId config =>
    RateLimitGuard.canActivate (some config.1) (some userId) timestamp member s

/-- The limiter, with the arrivals that it let in. -/
structure Doors where
  limiter : Limiter
  letIn : List Arrival

namespace Doors

def gate (s : Doors) (a : Arrival) : Gate :=
  (a.visit.enter loginRateLimit a.timestamp a.member s.limiter).1

def pass (s : Doors) (a : Arrival) : Doors where
  limiter := (a.visit.enter loginRateLimit a.timestamp a.member s.limiter).2
  letIn := if s.gate loginRateLimit a = .next then s.letIn ++ [a] else s.letIn

def after (arrivals : List Arrival) : Doors :=
  arrivals.foldl (pass loginRateLimit) ⟨fun _ => none, []⟩

end Doors

/-- One clock, and no two arrivals with the same random identifier. -/
structure InTurn (arrivals : List Arrival) : Prop where
  inOrder : arrivals.Pairwise fun a b => a.timestamp ≤ b.timestamp
  distinct : (arrivals.map Arrival.member).Nodup

/-- Every bucket keeps to its own rule. -/
structure EachItsOwn (arrivals : List Arrival) : Prop where
  /-- An arrival is let in exactly if fewer of its bucket than the rule allows were let in in
  the window that it ends. -/
  counted : ∀ xs a ys b, arrivals = xs ++ a :: ys → a.visit.bucket loginRateLimit = some b →
    ((Doors.after loginRateLimit xs).gate loginRateLimit a = .next ↔
      ((Doors.after loginRateLimit xs).letIn.filter fun d =>
        d.visit.bucket loginRateLimit = some b ∧
        (a.timestamp : ℤ) - b.rule.duration < d.timestamp ∧
        d.timestamp ≤ a.timestamp).length < b.rule.points)
  uncounted : ∀ xs a ys, arrivals = xs ++ a :: ys → a.visit.bucket loginRateLimit = none →
    (Doors.after loginRateLimit xs).gate loginRateLimit a = .next
  bounded : ∀ b (t : ℤ), ((Doors.after loginRateLimit arrivals).letIn.filter fun d =>
    d.visit.bucket loginRateLimit = some b ∧ t < d.timestamp ∧
    d.timestamp ≤ t + b.rule.duration).length ≤ b.rule.points

/-! ### The keys -/

def limits : List RateLimitConfig := (rules loginRateLimit).map Prod.snd ++ RateLimitGuard.handlers

/-- The end of a Redis key, by which the rule is told. -/
def RateLimitConfig.ending (rule : RateLimitConfig) : List Char := ':' :: rule.key.toList

/-- The bucket of an address has a rule of the middleware, and that of a user one of the guard. -/
def Bucket.Known : Bucket → Prop
  | address _ rule => rule ∈ (rules loginRateLimit).map Prod.snd
  | user _ rule => rule ∈ RateLimitGuard.handlers

variable {loginRateLimit} {rule rule' : RateLimitConfig} {b b' : Bucket}

theorem limits_endings (loginRateLimit : ℕ) : (limits loginRateLimit).map RateLimitConfig.ending =
    (limits 0).map RateLimitConfig.ending := rfl

/-- No rule's ending is the end of another's. -/
theorem limits_apart (h : rule ∈ limits loginRateLimit) (h' : rule' ∈ limits loginRateLimit)
    (hsuffix : rule.ending <:+ rule'.ending) : rule = rule' := by
  have hcode : ∀ e ∈ (limits 0).map RateLimitConfig.ending,
      ∀ e' ∈ (limits 0).map RateLimitConfig.ending, e <:+ e' → e = e' := by decide +kernel
  have hnodup : ((limits 0).map RateLimitConfig.ending).Nodup := by decide +kernel
  rw [← limits_endings loginRateLimit] at hcode hnodup
  exact List.inj_on_of_nodup_map hnodup h h'
    (hcode _ (List.mem_map_of_mem h) _ (List.mem_map_of_mem h') hsuffix)

/-- Of two rules at the end of one key both are the same. -/
theorem rule_of_ending (h : rule ∈ limits loginRateLimit) (h' : rule' ∈ limits loginRateLimit)
    {key : List Char} (hkey : rule.ending <:+ key) (hkey' : rule'.ending <:+ key) :
    rule = rule' := by
  rcases List.suffix_or_suffix_of_suffix hkey hkey' with hs | hs
  · exact limits_apart h h' hs
  · exact (limits_apart h' h hs).symm

theorem Bucket.Known.mem_limits (h : b.Known loginRateLimit) : b.rule ∈ limits loginRateLimit := by
  cases b with
  | address ip rule => exact List.mem_append_left _ h
  | user id rule => exact List.mem_append_right _ h

theorem address_toList (ip : String) (rule : RateLimitConfig) :
    (Bucket.address ip rule).redisKey.toList =
      "rate_limit:ip:".toList ++ ip.toList ++ rule.ending := by
  change ("rate_limit:ip:" ++ ip ++ ":" ++ rule.key).toList = _
  rw [String.toList_append, String.toList_append, String.toList_append, List.append_assoc]
  rfl

theorem user_toList (id : ℕ) (rule : RateLimitConfig) :
    (Bucket.user id rule).redisKey.toList =
      "rate_limit:user:".toList ++ (Nat.repr id).toList ++ rule.ending := by
  change ("rate_limit:user:" ++ Nat.repr id ++ ":" ++ rule.key).toList = _
  rw [String.toList_append, String.toList_append, String.toList_append, List.append_assoc]
  rfl

theorem ending_suffix (b : Bucket) : b.rule.ending <:+ b.redisKey.toList := by
  cases b with
  | address ip rule => exact ⟨_, (address_toList ip rule).symm⟩
  | user id rule => exact ⟨_, (user_toList id rule).symm⟩

theorem repr_inj {m n : ℕ} (h : (Nat.repr m).toList = (Nat.repr n).toList) : m = n := by
  rw [Nat.toList_repr, Nat.toList_repr] at h
  have hdigits := congrArg (fun l => Nat.ofDigitChars 10 l 0) h
  simpa using hdigits

/-- Different buckets have different keys. -/
theorem redisKey_inj (hb : b.Known loginRateLimit) (hb' : b'.Known loginRateLimit)
    (h : b.redisKey = b'.redisKey) : b = b' := by
  have hlist : b.redisKey.toList = b'.redisKey.toList := congrArg String.toList h
  have hrule : b.rule = b'.rule :=
    rule_of_ending hb.mem_limits hb'.mem_limits (ending_suffix b) (hlist ▸ ending_suffix b')
  cases b with
  | address ip rule =>
    cases b' with
    | address ip' rule' =>
      obtain rfl : rule = rule' := hrule
      rw [address_toList, address_toList] at hlist
      have hip := List.append_cancel_left (List.append_cancel_right hlist)
      rw [String.toList_injective hip]
    | user id rule' =>
      rw [address_toList, user_toList] at hlist
      simp at hlist
  | user id rule =>
    cases b' with
    | address ip rule' =>
      rw [address_toList, user_toList] at hlist
      simp at hlist
    | user id' rule' =>
      obtain rfl : rule = rule' := hrule
      rw [user_toList, user_toList] at hlist
      have hid := List.append_cancel_left (List.append_cancel_right hlist)
      rw [repr_inj hid]

end Doors

/-! ### The limiter under its doors -/

section Run
variable (loginRateLimit : ℕ)

/-- What the limiter is asked for under a key. -/
def configOf (key : String) : RateLimiterConfig :=
  match (limits loginRateLimit).find? fun rule => rule.ending <:+ key.toList with
  | some rule => rule.limiter
  | none => ⟨1, 1⟩

/-- The call that an arrival makes. -/
def Arrival.call (a : Arrival) : Option LimiterCall :=
  (a.visit.bucket loginRateLimit).map fun b => ⟨b.redisKey, a.timestamp, a.member⟩

def calls (arrivals : List Arrival) : List LimiterCall :=
  arrivals.filterMap (Arrival.call loginRateLimit)

variable {loginRateLimit} {b : Bucket} {a : Arrival} {arrivals : List Arrival}

theorem configOf_redisKey (hb : b.Known loginRateLimit) :
    configOf loginRateLimit b.redisKey = b.rule.limiter := by
  unfold configOf
  cases hfind : (limits loginRateLimit).find? fun rule => rule.ending <:+ b.redisKey.toList with
  | none =>
    have hno := List.find?_eq_none.mp hfind b.rule hb.mem_limits
    exact absurd (decide_eq_true (ending_suffix b)) hno
  | some rule =>
    have hending := List.find?_some hfind
    rw [decide_eq_true_eq] at hending
    rw [rule_of_ending (List.mem_of_find?_eq_some hfind) hb.mem_limits hending (ending_suffix b)]

theorem Visit.known_bucket {v : Visit} (h : v.bucket loginRateLimit = some b) :
    b.Known loginRateLimit := by
  cases v with
  | request req =>
    obtain ⟨rule, hrule, rfl⟩ := Option.map_eq_some_iff.mp h
    obtain ⟨before, rest, hsplit, -⟩ := List.lookup_eq_some_iff.mp hrule
    refine List.mem_map.mpr ⟨(routeKey req, rule), ?_, rfl⟩
    rw [hsplit]
    exact List.mem_append_right _ List.mem_cons_self
  | handler userId config =>
    cases h
    exact config.2

theorem Visit.enter_counted {v : Visit} (h : v.bucket loginRateLimit = some b) :
    v.enter loginRateLimit = b.rule.enter b.redisKey := by
  cases v with
  | request req =>
    obtain ⟨rule, hrule, rfl⟩ := Option.map_eq_some_iff.mp h
    funext t m s
    rw [Visit.enter, use, hrule]
    rfl
  | handler userId config =>
    cases h
    rfl

theorem Visit.enter_uncounted {v : Visit} (h : v.bucket loginRateLimit = none) (t m : ℕ)
    (s : Limiter) : v.enter loginRateLimit t m s = (.next, s) := by
  cases v with
  | request req =>
    rw [Visit.enter, use, Option.map_eq_none_iff.mp h]
  | handler userId config => cases h

theorem gate_next_iff (result : RateLimiterResult) :
    result.gate = .next ↔ result.allowed = true := by
  unfold RateLimiterResult.gate
  split_ifs with h <;> simp [h]

theorem Arrival.call_counted (h : a.visit.bucket loginRateLimit = some b) :
    a.call loginRateLimit = some ⟨b.redisKey, a.timestamp, a.member⟩ := by
  rw [Arrival.call, h]
  rfl

theorem Arrival.call_uncounted (h : a.visit.bucket loginRateLimit = none) :
    a.call loginRateLimit = none := by
  rw [Arrival.call, h]
  rfl

theorem calls_snoc (arrivals : List Arrival) (a : Arrival) :
    calls loginRateLimit (arrivals ++ [a]) =
      calls loginRateLimit arrivals ++ (a.call loginRateLimit).toList := by
  rw [calls, List.filterMap_append]
  cases h : a.call loginRateLimit <;> simp [calls, h]

theorem Doors.after_snoc (arrivals : List Arrival) (a : Arrival) :
    Doors.after loginRateLimit (arrivals ++ [a]) =
      (Doors.after loginRateLimit arrivals).pass loginRateLimit a := by
  simp only [Doors.after, List.foldl_append, List.foldl_cons, List.foldl_nil]

/-- What the doors make of an arrival that is counted is what the limiter answers its call. -/
theorem enter_eq (h : a.visit.bucket loginRateLimit = some b) (s : Served) :
    a.visit.enter loginRateLimit a.timestamp a.member s.limiter =
      ((s.answer (configOf loginRateLimit) ⟨b.redisKey, a.timestamp, a.member⟩).gate,
        (s.serve (configOf loginRateLimit) ⟨b.redisKey, a.timestamp, a.member⟩).limiter) := by
  rw [Visit.enter_counted h, Served.answer, Served.serve,
    configOf_redisKey (Visit.known_bucket h)]
  rfl

/-- The doors are the limiter, asked the calls of those who are counted. -/
theorem Doors.after_eq (loginRateLimit : ℕ) (arrivals : List Arrival) :
    (Doors.after loginRateLimit arrivals).limiter =
        (Served.after (configOf loginRateLimit) (calls loginRateLimit arrivals)).limiter ∧
      calls loginRateLimit (Doors.after loginRateLimit arrivals).letIn =
        (Served.after (configOf loginRateLimit) (calls loginRateLimit arrivals)).allowed := by
  induction arrivals using List.reverseRecOn with
  | nil => exact ⟨rfl, rfl⟩
  | append_singleton arrivals a ih =>
    obtain ⟨hlimiter, hletIn⟩ := ih
    rw [Doors.after_snoc, calls_snoc]
    unfold Doors.pass Doors.gate
    cases hb : a.visit.bucket loginRateLimit with
    | none =>
      rw [Visit.enter_uncounted hb, Arrival.call_uncounted hb, if_pos rfl, calls_snoc,
        Arrival.call_uncounted hb, Option.toList_none, List.append_nil, List.append_nil]
      exact ⟨hlimiter, hletIn⟩
    | some b =>
      rw [Arrival.call_counted hb, Option.toList_some, Served.after_snoc, hlimiter, enter_eq hb]
      refine ⟨rfl, ?_⟩
      simp only [gate_next_iff, Served.serve]
      split_ifs
      · rw [calls_snoc, Arrival.call_counted hb, hletIn]
        rfl
      · exact hletIn

/-- Arrivals of a bucket are counted by their calls under its key. -/
theorem length_bucket (hb : b.Known loginRateLimit) (arrivals : List Arrival) (p : ℕ → Prop)
    [DecidablePred p] : (arrivals.filter fun d =>
        d.visit.bucket loginRateLimit = some b ∧ p d.timestamp).length =
      ((calls loginRateLimit arrivals).filter fun c =>
        c.key = b.redisKey ∧ p c.timestamp).length := by
  rw [← List.countP_eq_length_filter, ← List.countP_eq_length_filter, calls, List.countP_filterMap]
  refine List.countP_congr fun d _ => ?_
  cases hd : d.visit.bucket loginRateLimit with
  | none => simp [Arrival.call_uncounted hd]
  | some b' =>
    have hkey : b' = b ↔ b'.redisKey = b.redisKey :=
      ⟨congrArg _, redisKey_inj (Visit.known_bucket hd) hb⟩
    simp [Arrival.call_counted hd, hkey]

theorem InTurn.sublist {arrivals' : List Arrival} (h : InTurn arrivals)
    (hsub : List.Sublist arrivals' arrivals) : InTurn arrivals' :=
  ⟨h.inOrder.sublist hsub, h.distinct.sublist (hsub.map _)⟩

theorem InTurn.orderly (h : InTurn arrivals) : Orderly (calls loginRateLimit arrivals) := by
  have hcall : ∀ {a : Arrival} {c : LimiterCall}, c ∈ a.call loginRateLimit →
      c.timestamp = a.timestamp ∧ c.member = a.member := by
    intro a c hc
    obtain ⟨b, -, rfl⟩ := Option.map_eq_some_iff.mp hc
    exact ⟨rfl, rfl⟩
  have hdistinct := h.distinct
  rw [List.Nodup, List.pairwise_map] at hdistinct
  constructor
  · refine h.inOrder.filterMap _ fun a a' hle c hc c' hc' => ?_
    rw [(hcall hc).1, (hcall hc').1]
    exact hle
  · rw [List.Nodup, List.pairwise_map]
    refine hdistinct.filterMap _ fun a a' hne c hc c' hc' => ?_
    rw [(hcall hc).2, (hcall hc').2]
    exact hne

theorem Doors.gate_counted (h : InTurn (arrivals ++ [a]))
    (hb : a.visit.bucket loginRateLimit = some b) :
    (Doors.after loginRateLimit arrivals).gate loginRateLimit a = .next ↔
      ((Doors.after loginRateLimit arrivals).letIn.filter fun d =>
        d.visit.bucket loginRateLimit = some b ∧
        ((a.timestamp : ℤ) - b.rule.duration < d.timestamp ∧
        d.timestamp ≤ a.timestamp)).length < b.rule.points := by
  have hknown := Visit.known_bucket hb
  have horderly : Orderly (calls loginRateLimit (arrivals ++ [a])) := h.orderly
  rw [calls_snoc, Arrival.call_counted hb, Option.toList_some] at horderly
  have hallowed : ((Served.after (configOf loginRateLimit) _).answer _ _).allowed = true ↔ _ :=
    Served.answer_allowed horderly
  obtain ⟨hlimiter, hletIn⟩ := Doors.after_eq loginRateLimit arrivals
  rw [Doors.gate, hlimiter, enter_eq hb, gate_next_iff, hallowed, configOf_redisKey hknown,
    ← hletIn]
  have hlength := length_bucket hknown (Doors.after loginRateLimit arrivals).letIn fun x =>
    (a.timestamp : ℤ) - b.rule.duration < x ∧ x ≤ a.timestamp
  exact iff_of_eq (congrArg (· < b.rule.points) hlength.symm)

theorem Doors.letIn_le (h : InTurn arrivals) (b : Bucket) (t : ℤ) :
    ((Doors.after loginRateLimit arrivals).letIn.filter fun d =>
      d.visit.bucket loginRateLimit = some b ∧ (t < d.timestamp ∧
      d.timestamp ≤ t + b.rule.duration)).length ≤ b.rule.points := by
  by_cases hused : ∃ d ∈ (Doors.after loginRateLimit arrivals).letIn,
      d.visit.bucket loginRateLimit = some b
  · obtain ⟨d, -, hd⟩ := hused
    have hknown := Visit.known_bucket hd
    have horderly : Orderly (calls loginRateLimit arrivals) := h.orderly
    have hle : _ ≤ (configOf loginRateLimit b.redisKey).maxRequests :=
      Served.allowed_window_le horderly b.redisKey t
    rw [configOf_redisKey hknown, ← (Doors.after_eq loginRateLimit arrivals).2] at hle
    exact (length_bucket hknown _ fun x => t < x ∧ (x : ℤ) ≤ t + b.rule.duration).trans_le hle
  · rw [List.filter_eq_nil_iff.mpr fun d hd => ?_]
    · exact Nat.zero_le _
    · simpa using fun hbucket => absurd ⟨d, hd, hbucket⟩ hused

/-- **No door opens or closes for another**: an address or a user is let in exactly if it has
room under its own rule, whoever else comes. -/
theorem doors_each_its_own (h : InTurn arrivals) : EachItsOwn loginRateLimit arrivals where
  counted xs a ys b harrivals hb := by
    subst harrivals
    exact Doors.gate_counted (h.sublist (by simp)) hb
  uncounted xs a ys _ hb := by
    rw [Doors.gate, Visit.enter_uncounted hb]
  bounded := Doors.letIn_le h

end Run

def registration (ip : String) : Visit := .request ⟨"POST", "/api/v1/auth/register", some ip⟩

/-- Three registrations from one address and a fourth too early, one from another address, and
user 7, who reserves a seat in between. -/
def crowd : List Arrival :=
  [⟨registration "1.2.3.4", 0, 0⟩, ⟨registration "1.2.3.4", 10, 1⟩,
    ⟨.handler 7 ⟨⟨3, 60000, "reservations:create"⟩, by decide⟩, 20, 2⟩,
    ⟨registration "1.2.3.4", 30, 3⟩, ⟨registration "1.2.3.4", 40, 4⟩,
    ⟨registration "5.6.7.8", 50, 5⟩]

/-- Only the fourth registration of the one address is refused. -/
theorem crowd_each_its_own : EachItsOwn 0 crowd ∧
    (Doors.after 0 crowd).letIn.map Arrival.member = [0, 1, 2, 3, 5] :=
  ⟨doors_each_its_own ⟨by decide, by decide⟩, by decide +kernel⟩

end MovieReservation
