import MovieReservation.Accounts.Tokens
import MovieReservation.Properties.Credentials

/-! Access tokens from before a change of the password. The strategy refuses a token whose
version is below the current one, but the key of the version lapses seven days after the
last change, and the next change counts from zero again. -/

namespace MovieReservation

open Lib Lib.Prog Accounts

/-- The accounts, with the access tokens of one user that were signed before the last change
of the password and since. -/
structure Ledger where
  accounts : Accounts
  before : List AccessToken
  since : List AccessToken

namespace Ledger
variable (lib : Hashing) (u : ℕ)

/-- Time passes, or a call is answered. -/
def step (l : Ledger) : ℕ ⊕ TokenRequest → Ledger
  | .inl ms => { l with accounts := { l.accounts with now := l.accounts.now + ms } }
  | .inr r =>
    match perform lib r.handle l.accounts with
    | (.error _, accounts) => { l with accounts }
    | (.ok (access, _), accounts) =>
      if r.changes u then ⟨accounts, l.before ++ l.since, [access]⟩
      else if access.user.id = u then ⟨accounts, l.before, l.since ++ [access]⟩
      else { l with accounts }

/-- What was signed before the last change of the password is refused or expired. -/
def Revoked (l : Ledger) : Prop :=
  ∀ t ∈ l.before, t.Unexpired l.accounts.now →
    (perform lib (JwtStrategy.validate t) l.accounts).1 = .error JwtStrategy.tokenRevoked

/-- A call that changes the password of the user: it is one, and it succeeds. -/
def Renews (l : Ledger) (r : TokenRequest) : Prop :=
  r.changes u = true ∧ (perform lib r.handle l.accounts).1.toBool = true

/-- A change of the password finds the version, or no token that was signed with one. -/
def Counted (x : ℕ ⊕ TokenRequest) (l : Ledger) : Prop :=
  ∀ r ∈ x.getRight?, l.Renews lib u r →
    (l.accounts.keys.live l.accounts.now (.accessVersion u)).isSome ∨
      ∀ t ∈ l.before ++ l.since, t.Unexpired l.accounts.now → t.ver = 0

/-- What the keys say of the tokens: an older one is below the version as long as it can be
used, and the version is there as long; a newer one carries it, or none. -/
structure Good (l : Ledger) : Prop where
  signed : ∀ t ∈ l.before ++ l.since, t.user.id = u ∧ t.iat ≤ l.accounts.now / 1000
  before : ∀ t ∈ l.before, ∃ e, l.accounts.keys (.accessVersion u) = some e ∧
    (∀ x ∈ e.expiresAt, t.exp * 1000 ≤ x) ∧ (t.Unexpired l.accounts.now → t.ver < e.value)
  since : ∀ t ∈ l.since, t.ver = 0 ∨
    ∃ e, l.accounts.keys (.accessVersion u) = some e ∧ t.ver = e.value

variable {lib u} {l : Ledger}

theorem unexpired_iff {t : AccessToken} {now : Time} : t.Unexpired now ↔ now < t.exp * 1000 :=
  Int.ediv_lt_iff_lt_mul (by decide)

theorem Good.revoked (h : Good u l) : l.Revoked lib := by
  intro t ht hun
  obtain ⟨e, hkey, hexp, hlt⟩ := h.before t ht
  have hversion : l.accounts.version u = e.value :=
    version_of_live hkey fun x hx => Int.lt_of_lt_of_le (unexpired_iff.mp hun) (hexp x hx)
  rw [perform_validate, (h.signed t (List.mem_append_left _ ht)).1, hversion, if_pos (hlt hun)]

/-- A token does not outlive the version that is written after it was signed. -/
theorem exp_le {t : AccessToken} {now : ℤ} (h : t.iat ≤ now / 1000) :
    t.exp * 1000 ≤ now + TokenService.refreshTtlSeconds * 1000 := by
  unfold AccessToken.exp JwtStrategy.accessTtlSeconds TokenService.refreshTtlSeconds
  omega

/-- Time passes: what can be used later could be used before. -/
theorem Good.advance (h : Good u l) (ms : ℕ) : Good u (l.step lib u (.inl ms)) := by
  have hle : l.accounts.now ≤ l.accounts.now + ms :=
    Int.le_add_of_nonneg_right (Int.natCast_nonneg ms)
  refine ⟨fun t ht => ?_, fun t ht => ?_, h.since⟩
  · obtain ⟨hid, hiat⟩ := h.signed t ht
    exact ⟨hid, Int.le_trans hiat (Int.ediv_le_ediv (by decide) hle)⟩
  · obtain ⟨e, hkey, hexp, hlt⟩ := h.before t ht
    refine ⟨e, hkey, hexp, fun hun => hlt (unexpired_iff.mpr ?_)⟩
    exact Int.lt_of_le_of_lt hle (unexpired_iff.mp hun)

/-- A call that leaves the version alone, and may sign a token with it. -/
theorem Good.sign (h : Good u l) {accounts : Accounts} (hnow : accounts.now = l.accounts.now)
    (hkey : accounts.keys (.accessVersion u) = l.accounts.keys (.accessVersion u))
    {ts : List AccessToken} (hts : ∀ t ∈ ts, t.user.id = u ∧ t.iat = l.accounts.now / 1000 ∧
      t.ver = l.accounts.version u) : Good u ⟨accounts, l.before, l.since ++ ts⟩ := by
  refine ⟨fun t ht => ?_, fun t ht => ?_, fun t ht => ?_⟩
  · rw [hnow]
    rcases List.mem_append.mp ht with hb | hs
    · exact h.signed t (List.mem_append_left _ hb)
    · rcases List.mem_append.mp hs with hs | hnew
      · exact h.signed t (List.mem_append_right _ hs)
      · obtain ⟨hid, hiat, -⟩ := hts t hnew
        exact ⟨hid, Int.le_of_eq hiat⟩
  · rw [hkey, hnow]
    exact h.before t ht
  · rw [hkey]
    rcases List.mem_append.mp ht with hs | hnew
    · exact h.since t hs
    · rw [(hts t hnew).2.2]
      cases hlive : l.accounts.keys.live l.accounts.now (.accessVersion u) with
      | none => exact .inl (by rw [version_eq, hlive]; rfl)
      | some e =>
        refine .inr ⟨e, (Option.filter_eq_some_iff.mp hlive).1, ?_⟩
        rw [version_eq, hlive]
        rfl

/-- The password changes: the new version is above that of every token, as long as the
token can be used, and lasts longer. -/
theorem Good.change (h : Good u l) {accounts : Accounts} {t : AccessToken}
    (hcounted : (l.accounts.keys.live l.accounts.now (.accessVersion u)).isSome ∨
      ∀ t ∈ l.before ++ l.since, t.Unexpired l.accounts.now → t.ver = 0)
    (hnow : accounts.now = l.accounts.now)
    (hkey : accounts.keys (.accessVersion u) = some ⟨l.accounts.version u + 1,
      some (l.accounts.now + TokenService.refreshTtlSeconds * 1000)⟩)
    (hid : t.user.id = u) (hiat : t.iat = l.accounts.now / 1000)
    (hver : t.ver = l.accounts.version u + 1) : Good u ⟨accounts, l.before ++ l.since, [t]⟩ := by
  have hbelow : ∀ t ∈ l.before ++ l.since, t.Unexpired l.accounts.now →
      t.ver < l.accounts.version u + 1 := by
    intro t ht hun
    rcases hcounted with hlive | hzero
    · obtain ⟨e, he⟩ := Option.isSome_iff_exists.mp hlive
      have hversion : l.accounts.version u = e.value := by
        rw [version_eq, he]
        rfl
      have hfound := (Option.filter_eq_some_iff.mp he).1
      rw [hversion]
      rcases List.mem_append.mp ht with hb | hs
      · obtain ⟨e', hkey', -, hlt⟩ := h.before t hb
        cases hfound.symm.trans hkey'
        exact Nat.lt_succ_of_lt (hlt hun)
      · rcases h.since t hs with hz | ⟨e', hkey', hv⟩
        · rw [hz]
          exact Nat.succ_pos _
        · cases hfound.symm.trans hkey'
          rw [hv]
          exact Nat.lt_succ_self _
    · rw [hzero t ht hun]
      exact Nat.succ_pos _
  refine ⟨fun t' ht' => ?_, fun t' ht' => ?_, fun t' ht' => ?_⟩
  · rw [hnow]
    rcases List.mem_append.mp ht' with hold | hnew
    · exact h.signed t' hold
    · rw [List.mem_singleton.mp hnew]
      exact ⟨hid, Int.le_of_eq hiat⟩
  · refine ⟨_, hkey, fun x hx => ?_, fun hun => hbelow t' ht' (hnow ▸ hun)⟩
    cases hx
    exact exp_le (h.signed t' ht').2
  · rw [List.mem_singleton.mp ht']
    exact .inr ⟨_, hkey, hver⟩

variable (lib u) in
/-- The three things that can come of a call. -/
theorem step_cases (l : Ledger) (r : TokenRequest) :
    (∃ accounts ts, l.step lib u (.inr r) = ⟨accounts, l.before, l.since ++ ts⟩ ∧
      ¬ l.Renews lib u r ∧ accounts.now = l.accounts.now ∧
      accounts.keys (.accessVersion u) = l.accounts.keys (.accessVersion u) ∧
      ∀ t ∈ ts, t.user.id = u ∧ t.iat = l.accounts.now / 1000 ∧ t.ver = l.accounts.version u) ∨
    ∃ accounts t, l.step lib u (.inr r) = ⟨accounts, l.before ++ l.since, [t]⟩ ∧
      l.Renews lib u r ∧ accounts.now = l.accounts.now ∧
      accounts.keys (.accessVersion u) = some ⟨l.accounts.version u + 1,
        some (l.accounts.now + TokenService.refreshTtlSeconds * 1000)⟩ ∧
      t.user.id = u ∧ t.iat = l.accounts.now / 1000 ∧ t.ver = l.accounts.version u + 1 := by
  have hnow := perform_now lib r.handle l.accounts
  cases hr : r.changes u with
  | true =>
    cases r with
    | issue user => cases hr
    | rotate userId jti user => cases hr
    | changePassword userId current new =>
      obtain rfl := of_decide_eq_true hr
      change (perform lib (UsersService.changePassword userId current new) l.accounts).2.now =
        l.accounts.now at hnow
      rcases changePassword_cases lib userId current new l.accounts with
        ⟨e, s', hrun, hkeys⟩ | ⟨x, s', hrun, hid, hiat, hver, hkey⟩
      · rw [hrun] at hnow
        refine .inl ⟨s', [], ?_, fun hrenews => ?_, hnow, by rw [hkeys], fun t ht => by cases ht⟩
        · simp only [step, TokenRequest.handle, hrun, List.append_nil]
        · have hok := hrenews.2
          simp only [TokenRequest.handle, hrun] at hok
          cases hok
      · rw [hrun] at hnow
        refine .inr ⟨s', x.1, ?_, ⟨hr, ?_⟩, hnow, hkey, hid, hiat, hver⟩
        · simp only [step, TokenRequest.handle, hrun, hr, if_true]
        · simp only [TokenRequest.handle, hrun]
          rfl
  | false =>
    have hkey := perform_leavesVersion lib (r.handle_leavesVersion hr) l.accounts
    have hnot : ¬ l.Renews lib u r := fun hrenews => by
      have htrue := hrenews.1
      rw [hr] at htrue
      cases htrue
    rcases hrun : perform lib r.handle l.accounts with ⟨e | x, s'⟩
    · rw [hrun] at hnow hkey
      refine .inl ⟨s', [], ?_, hnot, hnow, hkey, fun t ht => by cases ht⟩
      simp only [step, hrun, List.append_nil]
    · rw [hrun] at hnow hkey
      by_cases hid : x.1.user.id = u
      · refine .inl ⟨s', [x.1], ?_, hnot, hnow, hkey, fun t ht => ?_⟩
        · simp [step, hrun, hr, hid]
        · rw [List.mem_singleton.mp ht]
          exact ⟨hid, TokenRequest.signed lib hr hrun hid⟩
      · refine .inl ⟨s', [], ?_, hnot, hnow, hkey, fun t ht => by cases ht⟩
        simp [step, hrun, hr, hid]

theorem Good.step (x : ℕ ⊕ TokenRequest) (h : Good u l) (hx : l.Counted lib u x) :
    Good u (l.step lib u x) := by
  cases x with
  | inl ms => exact h.advance ms
  | inr r =>
    rcases l.step_cases lib u r with
      ⟨s', ts, hstep, -, hnow, hkey, hts⟩ | ⟨s', t, hstep, hrenews, hnow, hkey, hid, hiat, hver⟩
    · rw [hstep]
      exact h.sign hnow hkey hts
    · rw [hstep]
      exact h.change (hx r rfl hrenews) hnow hkey hid hiat hver

/-- Counted from zero again: a token with a version is accepted after the change. -/
theorem not_revoked (x : ℕ ⊕ TokenRequest) (h : Good u l) (hx : ¬ l.Counted lib u x) :
    ¬ (l.step lib u x).Revoked lib := by
  unfold Counted at hx
  push Not at hx
  obtain ⟨r, hr, hrenews, hlapsed, t, ht, hun, hver⟩ := hx
  obtain rfl : x = .inr r := by
    cases x with
    | inl ms => cases hr
    | inr r' =>
      cases hr
      rfl
  rcases l.step_cases lib u r with
    ⟨s', ts, -, hnot, -⟩ | ⟨s', t', hstep, -, hnow, hkey, -⟩
  · exact absurd hrenews hnot
  · intro hrevoked
    have hnone : l.accounts.keys.live l.accounts.now (.accessVersion u) = none :=
      Option.not_isSome_iff_eq_none.mp hlapsed
    have hzero : l.accounts.version u = 0 := by
      rw [version_eq, hnone]
      rfl
    have hversion : s'.version u = 1 := by
      rw [hzero] at hkey
      refine version_of_live hkey fun x hx => ?_
      rw [← Option.some.inj hx, hnow]
      exact Int.lt_add_of_pos_right _ (by decide)
    rw [hstep] at hrevoked
    have hrefused := hrevoked t ht (by rw [hnow]; exact hun)
    rw [perform_validate, (h.signed t ht).1, hversion, if_neg (by omega)] at hrefused
    cases hrefused

end Ledger

/-- The tokens signed before a change of the password are refused throughout a history
exactly if each change finds the version of the last one, or only tokens that are expired or
were signed without a version. -/
theorem tokens_revoked_iff (lib : Hashing) (s : Accounts) (u : ℕ)
    (xs : List (ℕ ⊕ TokenRequest)) :
    AllStates (Ledger.step lib u) (Ledger.Revoked lib) xs ⟨s, [], []⟩ ↔
      EachMeets (Ledger.step lib u) (fun x l => l.Counted lib u x) xs ⟨s, [], []⟩ := by
  refine allStates_iff (I := Ledger.Good u) (fun _ h => h.revoked) (fun x _ _ h hx => h.step x hx)
    (fun x _ _ h hx => Ledger.not_revoked x h hx) ⟨?_, ?_, ?_⟩
  · intro t ht
    cases ht
  · intro t ht
    cases ht
  · intro t ht
    cases ht

/-! ### A version that lapsed -/

/-- The first user of `load-test/seed.ts`, who has a bcrypt hash. -/
def loadTestUser : Accounts :=
  (exec plainText (.userCreate ⟨"Load Test User 0", "loadtest0@test.local",
    some "$2b$10$LoadTest123!", true, none⟩) (Accounts.initial 0 fun _ => 0)).2

/-- The session is refreshed a minute before the version lapses, and the password changes
again a minute after. -/
def changedAfterLapse : List (ℕ ⊕ TokenRequest) :=
  [.inr (.changePassword 1 "LoadTest123!" "Better456"), .inl (7 * 24 * 3600000 - 60000),
    .inr (.rotate 1 1 ⟨1, "Load Test User 0", "loadtest0@test.local", .user⟩), .inl 120000,
    .inr (.changePassword 1 "Better456" "Best789")]

theorem old_token_accepted : ¬ ∀ xs,
    AllStates (Ledger.step plainText 1) (Ledger.Revoked plainText) xs ⟨loadTestUser, [], []⟩ := by
  intro h
  have hend := h changedAfterLapse changedAfterLapse List.prefix_rfl
  have haccepted : ((changedAfterLapse.foldl (Ledger.step plainText 1)
      ⟨loadTestUser, [], []⟩).before.any fun t =>
        t.Unexpired (changedAfterLapse.foldl (Ledger.step plainText 1)
          ⟨loadTestUser, [], []⟩).accounts.now && (perform plainText (JwtStrategy.validate t)
            (changedAfterLapse.foldl (Ledger.step plainText 1)
              ⟨loadTestUser, [], []⟩).accounts).1.toBool) = true := by decide +kernel
  obtain ⟨t, ht, hok⟩ := List.any_eq_true.mp haccepted
  obtain ⟨hun, hok⟩ := Bool.and_eq_true_iff.mp hok
  rw [hend t ht (of_decide_eq_true hun)] at hok
  cases hok

end MovieReservation
