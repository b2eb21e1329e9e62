import Mathlib.Data.List.Induction
import MovieReservation.Lib.SlidingWindow
import MovieReservation.Services.RateLimiter

/-! The rate limiter against its reference: a call is allowed exactly if fewer calls than
the maximum were allowed in the window that ends with it. The sorted set of a key, pruned
as the script prunes it, holds just those calls, whatever was removed and has expired before. -/

namespace MovieReservation

open Lib

/-! ### The reference -/

def allowedEntry (c : LimiterCall) : ℕ × ℕ := (c.timestamp, c.member)

/-- What a call is answered, from the calls under its key that were allowed before it. -/
def reference (config : RateLimiterConfig) (allowed : List (ℕ × ℕ)) (t : ℕ) : RateLimiterResult :=
  let window := within Prod.fst config.windowSize t allowed
  if window.length < config.maxRequests then
    ⟨true, config.maxRequests - window.length - 1, config.windowSize⟩
  else
    match (window.insertionSort ZSet.before).head? with
    | none => ⟨false, 0, 0⟩
    | some e => ⟨false, 0, e.1 + config.windowSize - t⟩

/-- One clock, and no two calls with the same random identifier. -/
structure Orderly (calls : List LimiterCall) : Prop where
  inOrder : calls.Pairwise fun c d => c.timestamp ≤ d.timestamp
  distinct : (calls.map LimiterCall.member).Nodup

theorem Orderly.sublist {calls calls' : List LimiterCall} (h : Orderly calls)
    (hsub : List.Sublist calls' calls) : Orderly calls' :=
  ⟨h.inOrder.sublist hsub, h.distinct.sublist (hsub.map _)⟩

/-- The limiter, with the calls it has allowed. -/
structure Served where
  limiter : Limiter
  allowed : List LimiterCall

namespace Served

variable (config : String → RateLimiterConfig)

def answer (s : Served) (c : LimiterCall) : RateLimiterResult :=
  (RateLimiterService.rateLimiter (config c.key) c s.limiter).1

def serve (s : Served) (c : LimiterCall) : Served where
  limiter := (RateLimiterService.rateLimiter (config c.key) c s.limiter).2
  allowed := if (s.answer config c).allowed then s.allowed ++ [c] else s.allowed

def start : Served := ⟨fun _ => none, []⟩

def after (calls : List LimiterCall) : Served := calls.foldl (serve config) start

/-- The calls under a key. -/
def under (s : Served) (key : String) : List (ℕ × ℕ) :=
  (s.allowed.filter fun c => c.key = key).map allowedEntry

end Served

/-! ### The sorted set -/

namespace ZSet

instance : IsTrans (ℕ × ℕ) before := ⟨fun _ _ _ h h' => le_trans h h'⟩

instance : Std.Total before := ⟨fun a b => le_total (toLex a) (toLex b)⟩

instance : Std.Antisymm before := ⟨fun _ _ h h' => toLex.injective (le_antisymm h h')⟩

/-- What the set keeps of the entries `xs` that were added to it until `now`: in order, each
that is not older than `w`, and no expiry before the last of them is. -/
structure Keeps (w now : ℕ) (xs : List (ℕ × ℕ)) (z : Option ZSet) : Prop where
  sorted : ∀ s ∈ z, s.entries.Pairwise before
  nodup : ∀ s ∈ z, s.entries.Nodup
  added : ∀ s ∈ z, ∀ e ∈ s.entries, e ∈ xs
  kept : ∀ e ∈ xs, now < e.1 + w → ∃ s ∈ z, e ∈ s.entries ∧ ∀ t ∈ s.expiresAt, e.1 + w ≤ t

variable {w now t : ℕ} {xs : List (ℕ × ℕ)} {z : Option ZSet}

theorem Keeps.later (h : Keeps w now xs z) (hle : now ≤ t) : Keeps w t xs z :=
  ⟨h.sorted, h.nodup, h.added, fun e he hw => h.kept e he (Nat.lt_of_le_of_lt hle hw)⟩

/-- The set, as the script reads it once it has removed what is too old. -/
def pruned (w t : ℕ) (z : Option ZSet) : Option ZSet := zremrangebyscore 0 (t - w) (live t z)

theorem unexpired_iff {expiresAt : Option ℕ} :
    (!expiresAt.any fun x => decide (x ≤ t)) = true ↔ ∀ x ∈ expiresAt, t < x := by
  cases expiresAt <;> simp

theorem mem_pruned {s : ZSet} : s ∈ pruned w t z ↔ ∃ s₀ ∈ z, (∀ x ∈ s₀.expiresAt, t < x) ∧
    s = { s₀ with entries := s₀.entries.filter fun e => t < e.1 + w } ∧ s.entries ≠ [] := by
  have hold : ∀ e : ℕ × ℕ, (¬ ((0 : ℤ) ≤ e.1 ∧ (e.1 : ℤ) ≤ t - w)) ↔ t < e.1 + w := by
    intro e
    omega
  simp only [pruned, zremrangebyscore, live, Option.mem_def, Option.filter_eq_some_iff,
    Option.map_eq_some_iff, hold]
  constructor
  · rintro ⟨⟨s₀, ⟨hz, hlive⟩, rfl⟩, hne⟩
    exact ⟨s₀, hz, unexpired_iff.mp hlive, rfl, by simpa using hne⟩
  · rintro ⟨s₀, hz, hlive, rfl, hne⟩
    exact ⟨⟨s₀, ⟨hz, unexpired_iff.mpr hlive⟩, rfl⟩, by simpa using hne⟩

theorem Keeps.prune (h : Keeps w now xs z) (hle : now ≤ t) : Keeps w t xs (pruned w t z) where
  sorted s hs := by
    obtain ⟨s₀, hz, -, rfl, -⟩ := mem_pruned.mp hs
    exact (h.sorted s₀ hz).filter _
  nodup s hs := by
    obtain ⟨s₀, hz, -, rfl, -⟩ := mem_pruned.mp hs
    exact (h.nodup s₀ hz).filter _
  added s hs e he := by
    obtain ⟨s₀, hz, -, rfl, -⟩ := mem_pruned.mp hs
    exact h.added s₀ hz e (List.mem_of_mem_filter he)
  kept e he hw := by
    obtain ⟨s, hz, hmem, hexp⟩ := h.kept e he (by omega)
    have hkeep : e ∈ s.entries.filter fun e => t < e.1 + w :=
      List.mem_filter.mpr ⟨hmem, decide_eq_true hw⟩
    refine ⟨_, mem_pruned.mpr ⟨s, hz, fun x hx => ?_, rfl, List.ne_nil_of_mem hkeep⟩, hkeep, hexp⟩
    exact Nat.lt_of_lt_of_le hw (hexp x hx)

def entriesOf (z : Option ZSet) : List (ℕ × ℕ) := (z.map ZSet.entries).getD []

theorem mem_entriesOf {e : ℕ × ℕ} : e ∈ entriesOf z ↔ ∃ s ∈ z, e ∈ s.entries := by
  cases z <;> simp [entriesOf]

theorem zcard_eq (z : Option ZSet) : zcard z = (entriesOf z).length := by
  cases z <;> rfl

theorem oldest_eq (z : Option ZSet) : oldest z = (entriesOf z).head? := by
  cases z <;> rfl

/-- What is left is the window, in order. -/
theorem Keeps.entries_pruned (h : Keeps w now xs z) (hle : now ≤ t) (hxs : xs.Nodup) :
    entriesOf (pruned w t z) = (within Prod.fst w t xs).insertionSort before := by
  have hp := h.prune hle
  have hsorted : (entriesOf (pruned w t z)).Pairwise before := by
    cases hz : pruned w t z with
    | none => exact List.Pairwise.nil
    | some s => exact hp.sorted s hz
  have hnodup : (entriesOf (pruned w t z)).Nodup := by
    cases hz : pruned w t z with
    | none => exact List.nodup_nil
    | some s => exact hp.nodup s hz
  refine List.Perm.eq_of_pairwise' hsorted (List.pairwise_insertionSort before _) ?_
  refine List.Perm.trans ?_ (List.perm_insertionSort before _).symm
  have hwindow : (within Prod.fst w t xs).Nodup := hxs.filter _
  refine (List.perm_ext_iff_of_nodup hnodup hwindow).mpr fun e => ?_
  rw [mem_entriesOf, mem_within]
  constructor
  · rintro ⟨s, hs, he⟩
    obtain ⟨s₀, -, -, rfl, -⟩ := mem_pruned.mp hs
    exact ⟨hp.added _ hs e he, of_decide_eq_true (List.mem_filter.mp he).2⟩
  · rintro ⟨he, hw⟩
    obtain ⟨s, hs, hmem, -⟩ := hp.kept e he hw
    exact ⟨s, hs, hmem⟩

/-- `ZADD` and `PEXPIRE` for a call that is allowed. -/
theorem Keeps.add (h : Keeps w t xs z) {m : ℕ} (hpast : ∀ e ∈ xs, e.1 ≤ t)
    (hfresh : ∀ e ∈ xs, e.2 ≠ m) : Keeps w t (xs ++ [(t, m)]) (pexpire t w (zadd t m z)) := by
  have hentries : ((z.getD ⟨[], none⟩).entries.filter fun e => e.2 ≠ m) = entriesOf z := by
    cases z with
    | none => rfl
    | some s =>
      refine List.filter_eq_self.mpr fun e he => decide_eq_true ?_
      exact hfresh e (h.added s rfl e he)
  have hz : pexpire t w (zadd t m z) =
      some ⟨(entriesOf z).orderedInsert before (t, m), some (t + w)⟩ := by
    simp only [pexpire, zadd, Option.map_some, hentries]
  have hnew : (t, m) ∉ entriesOf z := fun hmem => by
    obtain ⟨s, hs, he⟩ := mem_entriesOf.mp hmem
    exact hfresh _ (h.added s hs _ he) rfl
  have hsorted : (entriesOf z).Pairwise before := by
    cases z with
    | none => exact List.Pairwise.nil
    | some s => exact h.sorted s rfl
  have hnodup : (entriesOf z).Nodup := by
    cases z with
    | none => exact List.nodup_nil
    | some s => exact h.nodup s rfl
  rw [hz]
  refine ⟨fun s hs => ?_, fun s hs => ?_, fun s hs e he => ?_, fun e he hw => ?_⟩
  · cases hs
    exact hsorted.orderedInsert _ _
  · cases hs
    exact (List.perm_orderedInsert before _ _).nodup_iff.mpr (List.nodup_cons.mpr ⟨hnew, hnodup⟩)
  · cases hs
    rcases (List.mem_orderedInsert before).mp he with rfl | he
    · exact List.mem_append_right _ (List.mem_singleton_self _)
    · obtain ⟨s, hs, he⟩ := mem_entriesOf.mp he
      exact List.mem_append_left _ (h.added s hs e he)
  · refine ⟨_, rfl, (List.mem_orderedInsert before).mpr ?_, fun x hx => ?_⟩
    · rcases List.mem_append.mp he with he | he
      · obtain ⟨s, hs, hmem, -⟩ := h.kept e he hw
        exact .inr (mem_entriesOf.mpr ⟨s, hs, hmem⟩)
      · exact .inl (List.mem_singleton.mp he)
    · cases hx
      rcases List.mem_append.mp he with he | he
      · exact Nat.add_le_add_right (hpast e he) w
      · rw [List.mem_singleton.mp he]

end ZSet

/-! ### One call -/

section Call
variable {config : RateLimiterConfig} {now t m : ℕ} {xs : List (ℕ × ℕ)} {z : Option ZSet}

theorem reference_allowed : (reference config xs t).allowed = true ↔
    (within Prod.fst config.windowSize t xs).length < config.maxRequests := by
  simp only [reference]
  split_ifs with hroom
  · exact iff_of_true rfl hroom
  · refine iff_of_false ?_ hroom
    cases ((within Prod.fst config.windowSize t xs).insertionSort ZSet.before).head? <;> exact nofun

theorem reference_remaining (h : ¬ (within Prod.fst config.windowSize t xs).length <
    config.maxRequests) : (reference config xs t).remaining = 0 := by
  simp only [reference, if_neg h]
  cases ((within Prod.fst config.windowSize t xs).insertionSort ZSet.before).head? <;> rfl

theorem script_eq (h : ZSet.Keeps config.windowSize now xs z) (hle : now ≤ t) (hxs : xs.Nodup) :
    (RateLimiterService.script t config m z).1 = reference config xs t ∧
      (RateLimiterService.script t config m z).2 =
        if (within Prod.fst config.windowSize t xs).length < config.maxRequests then
          ZSet.pexpire t config.windowSize (ZSet.zadd t m (ZSet.pruned config.windowSize t z))
        else ZSet.pruned config.windowSize t z := by
  have hentries := h.entries_pruned hle hxs
  have hcount : ZSet.zcard (ZSet.pruned config.windowSize t z) =
      (within Prod.fst config.windowSize t xs).length := by
    rw [ZSet.zcard_eq, hentries, List.length_insertionSort]
  have holdest : ZSet.oldest (ZSet.pruned config.windowSize t z) =
      ((within Prod.fst config.windowSize t xs).insertionSort ZSet.before).head? := by
    rw [ZSet.oldest_eq, hentries]
  have hpruned : ZSet.zremrangebyscore 0 (t - config.windowSize) (ZSet.live t z) =
      ZSet.pruned config.windowSize t z := rfl
  simp only [RateLimiterService.script, reference, hpruned, hcount, holdest]
  split_ifs with hroom
  · exact ⟨rfl, rfl⟩
  · cases hhead : ((within Prod.fst config.windowSize t xs).insertionSort ZSet.before).head? with
    | none => exact ⟨rfl, rfl⟩
    | some e =>
      have hmem : e ∈ within Prod.fst config.windowSize t xs :=
        (List.mem_insertionSort ZSet.before).mp (List.mem_of_head? hhead)
      have hlate := (mem_within.mp hmem).2
      refine ⟨?_, rfl⟩
      dsimp only
      rw [if_neg (by omega)]

end Call

/-! ### The calls so far -/

namespace Served
variable {config : String → RateLimiterConfig} {s : Served} {now : ℕ} {c : LimiterCall}

/-- The state after the calls until `now`. -/
structure Good (config : String → RateLimiterConfig) (now : ℕ) (s : Served) : Prop where
  keeps : ∀ key, ZSet.Keeps (config key).windowSize now (s.under key) (s.limiter key)
  past : ∀ d ∈ s.allowed, d.timestamp ≤ now
  distinct : (s.allowed.map LimiterCall.member).Nodup
  spaced : ∀ key, Spaced Prod.fst (config key).windowSize (config key).maxRequests (s.under key)

theorem mem_under {key : String} {e : ℕ × ℕ} :
    e ∈ s.under key ↔ ∃ d ∈ s.allowed, d.key = key ∧ allowedEntry d = e := by
  simp [under, and_assoc]

theorem Good.nodup_under (h : Good config now s) (key : String) : (s.under key).Nodup := by
  have hmembers : ((s.under key).map Prod.snd).Nodup := by
    have hsub : ((s.allowed.filter fun d => d.key = key).map LimiterCall.member).Nodup :=
      h.distinct.sublist ((List.filter_sublist).map _)
    simpa [under, allowedEntry, Function.comp_def] using hsub
  exact hmembers.of_map _

theorem Good.later (h : Good config now s) {t : ℕ} (hle : now ≤ t) : Good config t s :=
  ⟨fun key => (h.keeps key).later hle, fun d hd => (h.past d hd).trans hle, h.distinct, h.spaced⟩

theorem Good.answer_eq (h : Good config now s) (hle : now ≤ c.timestamp) :
    s.answer config c = reference (config c.key) (s.under c.key) c.timestamp :=
  (script_eq (h.keeps c.key) hle (h.nodup_under c.key)).1

theorem under_serve (s : Served) (c : LimiterCall) (key : String) :
    (s.serve config c).under key =
      if (s.answer config c).allowed ∧ c.key = key then s.under key ++ [allowedEntry c]
      else s.under key := by
  simp only [serve, under]
  by_cases ha : (s.answer config c).allowed = true
  · rw [if_pos ha, List.filter_append, List.map_append]
    by_cases hk : c.key = key <;> simp [ha, hk]
  · rw [if_neg ha, if_neg fun h => ha h.1]

theorem Good.serve (h : Good config now s) (hle : now ≤ c.timestamp)
    (hfresh : ∀ d ∈ s.allowed, d.member ≠ c.member) :
    Good config c.timestamp (s.serve config c) := by
  have hpast : ∀ e ∈ s.under c.key, e.1 ≤ c.timestamp := by
    intro e he
    obtain ⟨d, hd, -, rfl⟩ := mem_under.mp he
    exact (h.past d hd).trans hle
  have hnew : ∀ e ∈ s.under c.key, e.2 ≠ c.member := by
    intro e he
    obtain ⟨d, hd, -, rfl⟩ := mem_under.mp he
    exact hfresh d hd
  have hset := (script_eq (m := c.member) (h.keeps c.key) hle (h.nodup_under c.key)).2
  have hprune := (h.keeps c.key).prune hle
  have hanswer := h.answer_eq hle
  refine ⟨fun key => ?_, ?_, ?_, fun key => ?_⟩
  · by_cases hk : key = c.key
    · subst hk
      rw [under_serve]
      simp only [Served.serve, RateLimiterService.rateLimiter, Function.update_self, hset,
        hanswer, reference_allowed, and_true]
      split_ifs
      · exact hprune.add hpast hnew
      · exact hprune
    · rw [under_serve, if_neg fun h => hk h.2.symm]
      simp only [Served.serve, RateLimiterService.rateLimiter, Function.update_of_ne hk]
      exact (h.keeps key).later hle
  · intro d hd
    simp only [Served.serve] at hd
    split_ifs at hd
    · rcases List.mem_append.mp hd with hd | hd
      · exact (h.past d hd).trans hle
      · rw [List.mem_singleton.mp hd]
    · exact (h.past d hd).trans hle
  · simp only [Served.serve]
    split_ifs
    · rw [List.map_append, List.map_singleton]
      refine List.nodup_append.mpr ⟨h.distinct, List.nodup_singleton _, ?_⟩
      intro a ha b hb
      obtain ⟨d, hd, rfl⟩ := List.mem_map.mp ha
      rw [List.mem_singleton.mp hb]
      exact hfresh d hd
    · exact h.distinct
  · rw [under_serve]
    split_ifs with ha
    · obtain ⟨ha, rfl⟩ := ha
      rw [hanswer, reference_allowed] at ha
      exact .add (h.spaced c.key) hpast ha
    · exact h.spaced key

theorem good_start (config : String → RateLimiterConfig) : Good config 0 start where
  keeps _ := ⟨nofun, nofun, nofun, nofun⟩
  past := nofun
  distinct := List.nodup_nil
  spaced _ := .nil

/-! ### Any calls in order of time -/

theorem after_snoc (config : String → RateLimiterConfig) (calls : List LimiterCall)
    (c : LimiterCall) : after config (calls ++ [c]) = (after config calls).serve config c := by
  simp only [after, List.foldl_append, List.foldl_cons, List.foldl_nil]

theorem mem_of_allowed {calls : List LimiterCall} {d : LimiterCall}
    (h : d ∈ (after config calls).allowed) : d ∈ calls := by
  induction calls using List.reverseRecOn with
  | nil => cases h
  | append_singleton calls c ih =>
    rw [after_snoc] at h
    simp only [serve] at h
    split_ifs at h
    · rcases List.mem_append.mp h with h | h
      · exact List.mem_append_left _ (ih h)
      · exact List.mem_append_right _ h
    · exact List.mem_append_left _ (ih h)

/-- What one call keeps, any calls keep. -/
theorem good_after {calls : List LimiterCall} (h : Orderly calls)
    (hnow : ∀ c ∈ calls, c.timestamp ≤ now) : Good config now (after config calls) := by
  induction calls using List.reverseRecOn generalizing now with
  | nil => exact (good_start config).later (Nat.zero_le now)
  | append_singleton calls c ih =>
    have hbefore : ∀ d ∈ calls, d.timestamp ≤ c.timestamp := fun d hd =>
      (List.pairwise_append.mp h.inOrder).2.2 d hd c (List.mem_singleton_self c)
    have hfresh : ∀ d ∈ (after config calls).allowed, d.member ≠ c.member := by
      intro d hd heq
      have hdistinct := h.distinct
      rw [List.map_append] at hdistinct
      exact (List.nodup_append.mp hdistinct).2.2 _ (List.mem_map_of_mem (mem_of_allowed hd)) _
        (List.mem_singleton_self _) heq
    rw [after_snoc]
    have hgood := ih (h.sublist (List.sublist_append_left _ _)) hbefore
    exact (hgood.serve (Nat.le_refl _) hfresh).later
      (hnow c (List.mem_append_right _ (List.mem_singleton_self c)))

/-- A call is answered from what was allowed before it. -/
theorem answer_after {calls : List LimiterCall} (h : Orderly (calls ++ [c])) :
    (after config calls).answer config c =
      reference (config c.key) ((after config calls).under c.key) c.timestamp := by
  have hbefore : ∀ d ∈ calls, d.timestamp ≤ c.timestamp := fun d hd =>
    (List.pairwise_append.mp h.inOrder).2.2 d hd c (List.mem_singleton_self c)
  exact (good_after (h.sublist (List.sublist_append_left _ _)) hbefore).answer_eq (Nat.le_refl _)

theorem allowed_snoc (config : String → RateLimiterConfig) (calls : List LimiterCall)
    (c : LimiterCall) : (after config (calls ++ [c])).allowed =
      if ((after config calls).answer config c).allowed then (after config calls).allowed ++ [c]
      else (after config calls).allowed := by
  rw [after_snoc]
  rfl

/-- How many of some calls at one instant are allowed. -/
theorem allowed_at_once {calls further : List LimiterCall} {key : String} {t : ℕ}
    (hw : 0 < (config key).windowSize) (h : Orderly (calls ++ further))
    (hat : ∀ d ∈ further, d.key = key ∧ d.timestamp = t) :
    (after config (calls ++ further)).allowed.length = (after config calls).allowed.length +
      min further.length ((config key).maxRequests -
        (within Prod.fst (config key).windowSize t ((after config calls).under key)).length) := by
  induction further generalizing calls with
  | nil => simp
  | cons d further ih =>
    obtain ⟨rfl, rfl⟩ := hat d List.mem_cons_self
    have hsplit : calls ++ d :: further = calls ++ [d] ++ further := by simp
    rw [hsplit] at h ⊢
    have hd : (after config calls).answer config d = _ :=
      answer_after (h.sublist (List.sublist_append_left _ _))
    have hunder : ((after config calls).serve config d).under d.key = _ :=
      under_serve (after config calls) d d.key
    rw [← after_snoc, hd] at hunder
    rw [ih h fun e he => hat e (List.mem_cons_of_mem _ he), allowed_snoc, hunder, hd]
    by_cases hroom : (within Prod.fst (config d.key).windowSize d.timestamp
        ((after config calls).under d.key)).length < (config d.key).maxRequests
    · have hnew : within Prod.fst (config d.key).windowSize d.timestamp [allowedEntry d] =
          [allowedEntry d] := by simp [within, allowedEntry, hw]
      rw [if_pos (reference_allowed.mpr hroom), if_pos ⟨reference_allowed.mpr hroom, rfl⟩,
        within_append, hnew, List.length_append, List.length_append, List.length_singleton,
        List.length_singleton, List.length_cons]
      omega
    · have hfull := fun ha => hroom (reference_allowed.mp ha)
      rw [if_neg hfull, if_neg fun ha => hfull ha.1, List.length_cons]
      omega

/-- A call that was not allowed leaves no trace in what is allowed later. -/
theorem allowed_without {xs zs : List LimiterCall} (h : Orderly (xs ++ c :: zs))
    (hc : ((after config xs).answer config c).allowed = false) :
    (after config (xs ++ c :: zs)).allowed = (after config (xs ++ zs)).allowed := by
  induction zs using List.reverseRecOn with
  | nil =>
    rw [allowed_snoc, hc, List.append_nil]
    rfl
  | append_singleton zs d ih =>
    have hall : xs ++ c :: (zs ++ [d]) = xs ++ c :: zs ++ [d] := by simp
    rw [hall] at h
    have hrest := ih (h.sublist (List.sublist_append_left _ _))
    have hsub : List.Sublist (xs ++ zs ++ [d]) (xs ++ c :: zs ++ [d]) :=
      ((List.sublist_cons_self c zs).append_left xs).append_right [d]
    rw [hall, ← List.append_assoc, allowed_snoc, allowed_snoc, answer_after h,
      answer_after (h.sublist hsub), under, under, hrest]

end Served

/-! ### The limiter is its reference -/

/-- The answers to the calls, one after the other. -/
structure SlidingWindow (config : String → RateLimiterConfig) (calls : List LimiterCall) :
    Prop where
  /-- A call is allowed exactly if fewer than the maximum were in the window it ends. -/
  decides : ∀ xs c ys, calls = xs ++ c :: ys →
    (((Served.after config xs).answer config c).allowed = true ↔
      ((Served.after config xs).allowed.filter fun d => d.key = c.key ∧
        (c.timestamp : ℤ) - (config c.key).windowSize < d.timestamp ∧
        d.timestamp ≤ c.timestamp).length < (config c.key).maxRequests)
  /-- Of any calls that follow at the same instant, `remaining` are allowed. -/
  remains : ∀ xs c ys further, calls = xs ++ c :: ys →
    (∀ d ∈ further, d.key = c.key ∧ d.timestamp = c.timestamp) → Orderly (xs ++ c :: further) →
    (Served.after config (xs ++ c :: further)).allowed.length =
      (Served.after config (xs ++ [c])).allowed.length +
        min further.length ((Served.after config xs).answer config c).remaining
  bounded : ∀ key (a : ℤ), ((Served.after config calls).allowed.filter fun d =>
    d.key = key ∧ a < d.timestamp ∧ d.timestamp ≤ a + (config key).windowSize).length ≤
      (config key).maxRequests
  /-- A call that is not allowed changes no later answer. -/
  unblocked : ∀ xs c zs d ys, calls = xs ++ c :: zs ++ d :: ys →
    ((Served.after config xs).answer config c).allowed = false →
    (Served.after config (xs ++ c :: zs)).answer config d =
      (Served.after config (xs ++ zs)).answer config d

/-- The window as it is counted in the whole list of calls. -/
theorem Served.length_within {s : Served} {key : String} {w t : ℕ}
    (hpast : ∀ d ∈ s.allowed, d.timestamp ≤ t) :
    (within Prod.fst w t (s.under key)).length = (s.allowed.filter fun d => d.key = key ∧
      (t : ℤ) - w < d.timestamp ∧ d.timestamp ≤ t).length := by
  simp only [within, Served.under, List.filter_map, List.length_map, List.filter_filter]
  congr 1
  refine List.filter_congr fun d hd => ?_
  have hle := hpast d hd
  have hiff : (t < d.timestamp + w) ↔ ((t : ℤ) - w < d.timestamp ∧ d.timestamp ≤ t) := by omega
  simp only [Function.comp_apply, allowedEntry, hiff, Bool.decide_and, Bool.and_comm]

namespace Served

/-- A call is allowed exactly if fewer than the maximum were in the window it ends. -/
theorem answer_allowed {config : String → RateLimiterConfig} {xs : List LimiterCall}
    {c : LimiterCall} (h : Orderly (xs ++ [c])) :
    ((after config xs).answer config c).allowed = true ↔
      ((after config xs).allowed.filter fun d => d.key = c.key ∧
        (c.timestamp : ℤ) - (config c.key).windowSize < d.timestamp ∧
        d.timestamp ≤ c.timestamp).length < (config c.key).maxRequests := by
  have hpast : ∀ d ∈ (after config xs).allowed, d.timestamp ≤ c.timestamp := fun d hd =>
    (List.pairwise_append.mp h.inOrder).2.2 d (mem_of_allowed hd) c (List.mem_singleton_self c)
  rw [answer_after h, reference_allowed, length_within hpast]

/-- No window holds more allowed calls under a key than the maximum. -/
theorem allowed_window_le {config : String → RateLimiterConfig} {calls : List LimiterCall}
    (h : Orderly calls) (key : String) (a : ℤ) : ((after config calls).allowed.filter fun d =>
      d.key = key ∧ a < d.timestamp ∧ d.timestamp ≤ a + (config key).windowSize).length ≤
        (config key).maxRequests := by
  obtain ⟨now, hnow⟩ : ∃ now, ∀ c ∈ calls, c.timestamp ≤ now := by
    induction calls with
    | nil => exact ⟨0, fun c hc => absurd hc List.not_mem_nil⟩
    | cons c calls ih =>
      obtain ⟨now, hnow⟩ := ih (h.sublist (List.sublist_cons_self c calls))
      refine ⟨max c.timestamp now, fun d hd => ?_⟩
      rcases List.mem_cons.mp hd with rfl | hd
      · exact Nat.le_max_left _ _
      · exact (hnow d hd).trans (Nat.le_max_right _ _)
  have hgood : Good config now (after config calls) := good_after h hnow
  have hle := (hgood.spaced key).window_le a
  refine le_trans (le_of_eq ?_) hle
  simp only [under, List.filter_map, List.length_map, List.filter_filter]
  congr 1
  refine List.filter_congr fun d _ => ?_
  rw [Bool.eq_iff_iff]
  simp only [Function.comp_apply, allowedEntry, Bool.and_eq_true, decide_eq_true_eq]
  constructor
  · rintro ⟨hkey, hin⟩
    exact ⟨decide_eq_true hin, hkey⟩
  · rintro ⟨hin, hkey⟩
    exact ⟨hkey, of_decide_eq_true hin⟩

end Served

theorem limiter_exact (config : String → RateLimiterConfig)
    (hw : ∀ key, 0 < (config key).windowSize) {calls : List LimiterCall} (h : Orderly calls) :
    SlidingWindow config calls where
  decides xs c ys hcalls := by
    subst hcalls
    exact Served.answer_allowed (h.sublist (by simp))
  remains xs c ys further hcalls hat hfurther := by
    have hall : xs ++ c :: further = xs ++ [c] ++ further := by simp
    have hxs : Orderly (xs ++ [c]) := hfurther.sublist (by simp)
    have hunder : ((Served.after config xs).serve config c).under c.key = _ :=
      Served.under_serve (Served.after config xs) c c.key
    rw [← Served.after_snoc, Served.answer_after hxs] at hunder
    rw [hall, Served.allowed_at_once (hw c.key) (hall ▸ hfurther) hat, Served.answer_after hxs,
      hunder]
    congr 2
    by_cases hroom : (within Prod.fst (config c.key).windowSize c.timestamp
        ((Served.after config xs).under c.key)).length < (config c.key).maxRequests
    · have hnew : within Prod.fst (config c.key).windowSize c.timestamp [allowedEntry c] =
          [allowedEntry c] := by simp [within, allowedEntry, hw c.key]
      rw [if_pos ⟨reference_allowed.mpr hroom, rfl⟩, within_append, hnew, List.length_append,
        List.length_singleton]
      simp only [reference, if_pos hroom]
      omega
    · rw [if_neg fun ha => hroom (reference_allowed.mp ha.1), reference_remaining hroom]
      omega
  bounded key a := Served.allowed_window_le h key a
  unblocked xs c zs d ys hcalls hc := by
    subst hcalls
    have hwith : Orderly (xs ++ c :: zs ++ [d]) := h.sublist (by simp)
    have hwithout : Orderly (xs ++ zs ++ [d]) := hwith.sublist
      (((List.sublist_cons_self c zs).append_left xs).append_right [d])
    rw [Served.answer_after hwith, Served.answer_after hwithout, Served.under, Served.under,
      Served.allowed_without (hwith.sublist (List.sublist_append_left _ _)) hc]

/-- Three calls a second under each key. -/
def threeASecond : String → RateLimiterConfig := fun _ => ⟨1000, 3⟩

/-- The fourth call comes too early, the fifth just when the first has left the window. -/
def fiveCalls : List LimiterCall :=
  [⟨"auth:login", 0, 0⟩, ⟨"auth:login", 0, 1⟩, ⟨"auth:login", 500, 2⟩, ⟨"auth:login", 999, 3⟩,
    ⟨"auth:login", 1000, 4⟩]

theorem five_calls_exact : SlidingWindow threeASecond fiveCalls :=
  limiter_exact threeASecond (fun _ => (by decide : 0 < 1000)) ⟨by decide, by decide⟩

example : (Served.after threeASecond fiveCalls).allowed.map LimiterCall.member = [0, 1, 2, 4] := by
  decide

end MovieReservation
