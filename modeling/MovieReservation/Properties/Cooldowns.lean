import MovieReservation.Properties.Logouts

/-! How many codes can be mailed to an address: one, and another one for every cooldown that
has passed. Requests are served one at a time, and any command of any request may fail but
those of the pipeline that starts the cooldown; a sign-up, a request for another code and a
change of the e-mail all share it. -/

namespace MovieReservation

open Lib Lib.Prog Lib.System

/-- The codes that were mailed to the address. -/
def Site.mailedTo (s : Site) (email : String) : ℕ :=
  s.accounts.mails.countP fun mail => mail.1 = email

/-- The cooldown, in milliseconds. -/
def AuthEnv.cooldown (env : AuthEnv) : ℤ := env.otpResendCooldownSeconds * 1000

theorem AuthEnv.cooldown_nonneg (env : AuthEnv) : 0 ≤ env.cooldown :=
  Int.mul_nonneg (Int.natCast_nonneg _) (by decide)

/-- The cooldown of the address ends at this time. -/
def Site.CoolsUntil (s : Site) (email : String) (t : Time) : Prop :=
  s.accounts.keys (.otpCooldown email) = some ⟨(), some t⟩

/-! Counting in time: `n` mails and a cooldown of `c`. -/

section Count
variable {n a b c t : ℤ}

theorem no_cooldown (h : a + c ≤ b) (hab : b = a) (hc : 0 ≤ c) : c = 0 := by omega

theorem one_more_fits (h : n * c ≤ b - a) : (n + 1) * c ≤ b + c - a := by
  rw [Int.add_mul, one_mul]
  omega

theorem fits_before (h : n * c ≤ t - a) (ht : t ≤ b + c) : (n - 1) * c ≤ b - a := by
  rw [Int.sub_mul, one_mul]
  omega

end Count

/-! ### One request -/

/-- In the middle of a request that has begun in the state `start`. -/
structure Mailing (env : AuthEnv) (email : String) (start : Site) (l : SiteTrail) (s : Site) :
    Prop where
  now : s.accounts.now = start.accounts.now
  entry : s.accounts.keys (.otpCooldown email) = start.accounts.keys (.otpCooldown email) ∨
    s.CoolsUntil email (start.accounts.now + env.cooldown)
  started : ⟨.inl (.set (.otpCooldown email) () env.otpResendCooldownSeconds), .ok ()⟩ ∈ l →
    s.CoolsUntil email (start.accounts.now + env.cooldown)
  lapsed : ⟨.inl (.get (.otpCooldown email)), .ok none⟩ ∈ l →
    ∀ t, start.CoolsUntil email t → t ≤ start.accounts.now ∨ env.cooldown = 0
  unmailed : Unmailed (lefts l) → s.mailedTo email = start.mailedTo email
  mailed : s.mailedTo email = start.mailedTo email ∨
    s.mailedTo email = start.mailedTo email + 1 ∧
      ⟨.inl (.get (.otpCooldown email)), .ok none⟩ ∈ l ∧
        ⟨.inl (.set (.otpCooldown email) () env.otpResendCooldownSeconds), .ok ()⟩ ∈ l

section Step
variable {lib : Hashing} {env : AuthEnv} {op : SiteRequest} {email : String} {start s : Site}
  {l : SiteTrail} {c : SiteCmd}

theorem set_cools (lib : Hashing) (env : AuthEnv) (email : String) (s : Site) :
    (Site.exec lib (.inl (.set (.otpCooldown email) () env.otpResendCooldownSeconds))
      s).2.CoolsUntil email (s.accounts.now + env.cooldown) := by
  simp only [Site.CoolsUntil, Site.exec, Accounts.exec, Keyspace.set, Keyspace.put,
    Function.update_self]
  rfl

/-- A command leaves the cooldown of the address alone, or starts it. -/
theorem exec_cooldown (lib : Hashing) (email : String) (hc : SiteGround env op l c) :
    (Site.exec lib c s).2.accounts.keys (.otpCooldown email) =
        s.accounts.keys (.otpCooldown email) ∨
      (Site.exec lib c s).2.CoolsUntil email (s.accounts.now + env.cooldown) := by
  rcases c with c | c
  · by_cases hwrites : c.writesKey (.otpCooldown email)
    · cases c with
      | set k v seconds =>
        obtain rfl : AuthKey.otpCooldown email = k := hwrites
        rcases hc with hc | ⟨email', hk, rfl⟩
        · cases hc
        · cases hk
          exact .inr (set_cools lib env email s)
      | del keys =>
        rcases hc with hc | ⟨⟨u, jtis, -, rfl⟩, -⟩
        · cases hc _ hwrites
        · simp [AuthCmd.writesKey, revokedKeys] at hwrites
      | storeRefresh | rotateRefresh => simp [AuthCmd.writesKey] at hwrites
      | _ => cases hwrites
    · exact .inl (Accounts.exec_key hwrites)
  · cases c <;> exact .inl rfl

theorem exec_mails {c : AuthCmd} {s : Accounts}
    (h : ∀ email code, c ≠ .sendOtpEmail email code) :
    (Accounts.exec lib c s).2.mails = s.mails := by
  cases c with
  | sendOtpEmail email code => exact absurd rfl (h email code)
  | userCreate d => exact Accounts.commit_mails _
  | userUpdate id d => exact Accounts.commit_mails _
  | rotateRefresh u jti v new seconds =>
    simp only [Accounts.exec]
    split_ifs <;> rfl
  | _ => rfl

/-- A command mails nothing to the address, or is the one mail that it gets. -/
theorem exec_mailedTo (lib : Hashing) (email : String) (c : SiteCmd) (s : Site) :
    (Site.exec lib c s).2.mailedTo email = s.mailedTo email ∨
      ∃ code, c = .inl (.sendOtpEmail email code) ∧
        (Site.exec lib c s).2.mailedTo email = s.mailedTo email + 1 := by
  rcases c with c | c
  · by_cases hmail : ∃ email' code, c = .sendOtpEmail email' code
    · obtain ⟨email', code, rfl⟩ := hmail
      by_cases he : email' = email
      · subst he
        exact .inr ⟨code, rfl, by simp [Site.mailedTo, Site.exec, Accounts.exec]⟩
      · exact .inl (by simp [Site.mailedTo, Site.exec, Accounts.exec, he])
    · refine .inl (congrArg (List.countP _) (exec_mails fun email' code he => ?_))
      exact hmail ⟨email', code, he⟩
  · cases c <;> exact .inl rfl

theorem Mailing.begin (env : AuthEnv) (email : String) (s : Site) :
    Mailing env email s [] s where
  now := rfl
  entry := .inl rfl
  started h := by cases h
  lapsed h := by cases h
  unmailed _ := rfl
  mailed := .inl rfl

theorem ok_mem_of_lost {c' : SiteCmd} {v : SiteReply c'} {e : Err}
    (h : ⟨c', .ok v⟩ ∈ l ++ [⟨c, .error e⟩]) : ⟨c', .ok v⟩ ∈ l := by
  rcases List.mem_append.mp h with h | h
  · exact h
  · cases List.mem_singleton.mp h

theorem Mailing.lost (h : Mailing env email start l s) (c : SiteCmd) (e : Err) :
    Mailing env email start (l ++ [⟨c, .error e⟩]) s where
  now := h.now
  entry := h.entry
  started hmem := h.started (ok_mem_of_lost hmem)
  lapsed hmem := h.lapsed (ok_mem_of_lost hmem)
  unmailed hnone := h.unmailed fun email code r hmem => hnone email code r (by
    rw [lefts_append]
    exact List.mem_append_left _ hmem)
  mailed := h.mailed.imp_right fun hm =>
    ⟨hm.1, List.mem_append_left _ hm.2.1, List.mem_append_left _ hm.2.2⟩

/-- An address whose cooldown is not found is not cooling down. -/
theorem lapsed_of_get {t : Time} (hget : s.accounts.keys.get s.accounts.now (.otpCooldown email) =
    none) (ht : s.CoolsUntil email t) : t ≤ s.accounts.now := by
  by_contra hlater
  have hlive : ¬ t ≤ s.accounts.now := hlater
  rw [Site.CoolsUntil] at ht
  simp [Keyspace.get, Keyspace.live, ht, hlive] at hget

theorem Mailing.step (h : Mailing env email start l s) (hc : SiteGround env op l c)
    {r : Except Err (SiteReply c)} (hr : r = (Site.exec lib c s).1 ∨ ∃ e, r = .error e) :
    Mailing env email start (l ++ [⟨c, r⟩]) (Site.exec lib c s).2 where
  now := (site_now lib c s).trans h.now
  entry := by
    rcases exec_cooldown lib email hc with hkept | hfresh
    · rcases h.entry with hold | hcools
      · exact .inl (hkept.trans hold)
      · exact .inr (hkept.trans hcools)
    · rw [h.now] at hfresh
      exact .inr hfresh
  started hmem := by
    rcases List.mem_append.mp hmem with hmem | hmem
    · rcases exec_cooldown lib email hc with hkept | hfresh
      · exact hkept.trans (h.started hmem)
      · rw [h.now] at hfresh
        exact hfresh
    · obtain ⟨rfl, -⟩ := Sigma.mk.inj (List.mem_singleton.mp hmem)
      rw [← h.now]
      exact set_cools lib env email s
  lapsed hmem t ht := by
    rcases List.mem_append.mp hmem with hmem | hmem
    · exact h.lapsed hmem t ht
    · obtain ⟨rfl, hr'⟩ := Sigma.mk.inj (List.mem_singleton.mp hmem)
      obtain rfl := eq_of_heq hr'
      have hget : s.accounts.keys.get s.accounts.now (.otpCooldown email) = none := by
        rcases hr with hr | ⟨e, he⟩
        · exact (Except.ok.inj hr).symm
        · cases he
      rcases h.entry with hold | hcools
      · exact .inl (h.now ▸ lapsed_of_get hget (hold.trans ht))
      · exact .inr (no_cooldown (lapsed_of_get hget hcools) h.now env.cooldown_nonneg)
  unmailed hnone := by
    have hbefore : Unmailed (lefts l) := fun email' code r hmem => hnone email' code r (by
      rw [lefts_append]
      exact List.mem_append_left _ hmem)
    rcases exec_mailedTo lib email c s with hkept | ⟨code, rfl, -⟩
    · exact hkept.trans (h.unmailed hbefore)
    · refine absurd ?_ (hnone email code r)
      rw [lefts_inl]
      exact List.mem_append_right _ (List.mem_singleton_self _)
  mailed := by
    rcases exec_mailedTo lib email c s with hkept | ⟨code, rfl, hmore⟩
    · rw [hkept]
      exact h.mailed.imp_right fun hm =>
        ⟨hm.1, List.mem_append_left _ hm.2.1, List.mem_append_left _ hm.2.2⟩
    · have hcooled : Cooled env email (lefts l) := hc
      rw [hmore, h.unmailed hcooled.first]
      exact .inr ⟨rfl, List.mem_append_left _ (mem_lefts.mp hcooled.lapsed),
        List.mem_append_left _ (mem_lefts.mp hcooled.started)⟩

end Step

/-! ### Requests one after the other -/

/-- The mails since the run began fit in the time until the cooldown ends. -/
structure Paced (env : AuthEnv) (email : String) (start s : Site) : Prop where
  now : start.accounts.now ≤ s.accounts.now
  mails : start.mailedTo email ≤ s.mailedTo email
  cools : s.mailedTo email = start.mailedTo email ∨ ∃ t, s.CoolsUntil email t ∧
    (s.mailedTo email - start.mailedTo email : ℤ) * env.cooldown ≤ t - start.accounts.now ∧
      t ≤ s.accounts.now + env.cooldown

section Serve
variable {lib : Hashing} {env : AuthEnv} {email : String} {start s t : Site}

/-- A request, wherever its commands fail. -/
theorem mailing_attempt {r : SiteRequest} {os : List (Outcome Err)} {cs : List SiteCmd}
    {a : Except Err SiteResponse}
    (h : (siteSystem lib env).attempt 0 os (r.handle env) s = some (cs, a, t)) :
    ∃ l, Mailing env email s l t := by
  have hstep : ∀ l c v o out, SiteGround env r l c → Mailing env email s l v →
      (siteSystem lib env).finish 0 c v o = some out → Mailing env email s (l ++ [⟨c, out.1⟩])
        out.2 := by
    intro l c v o out hc hv hout
    rcases finish_cases _ hout with ⟨-, rfl⟩ | ⟨e, -, rfl⟩ | ⟨e, -, rfl⟩
    · exact hv.step hc (.inl rfl)
    · exact hv.lost c e
    · exact hv.step hc (.inr ⟨e, rfl⟩)
  obtain ⟨l, ht, -⟩ := attempt_rule hstep r.handle_ground
    (yields_of (Q := fun _ _ => True) (fun _ _ => trivial) _) (Mailing.begin env email s) h
  exact ⟨l, ht⟩

theorem Paced.serve (h : Paced env email start s) {l : SiteTrail} (ht : Mailing env email s l t) :
    Paced env email start t := by
  have hnow : (start.accounts.now : ℤ) ≤ s.accounts.now := h.now
  have hmails := h.mails
  rcases ht.mailed with hnone | ⟨hone, hlapsed, hstarted⟩
  · refine ⟨ht.now ▸ h.now, hnone ▸ hmails, ?_⟩
    rw [hnone, ht.now]
    refine h.cools.imp_right fun ⟨T, hT, hfit, hsoon⟩ => ?_
    rcases ht.entry with hold | hfresh
    · exact ⟨T, hold.trans hT, hfit, hsoon⟩
    · exact ⟨_, hfresh, hfit.trans (Int.sub_le_sub_right hsoon _), le_rfl⟩
  · refine ⟨ht.now ▸ h.now, by omega, .inr ⟨_, ht.started hstarted, ?_, ?_⟩⟩
    · have hfit : (s.mailedTo email - start.mailedTo email : ℤ) * env.cooldown ≤
          s.accounts.now - start.accounts.now := by
        rcases h.cools with hsame | ⟨T, hT, hfit, hsoon⟩
        · rw [hsame]
          simpa using hnow
        · rcases ht.lapsed hlapsed T hT with hover | hzero
          · exact hfit.trans (Int.sub_le_sub_right hover _)
          · rw [hzero]
            simpa using hnow
      have hcount : (t.mailedTo email - start.mailedTo email : ℤ) =
          (s.mailedTo email - start.mailedTo email : ℤ) + 1 := by omega
      rw [hcount]
      exact one_more_fits hfit
    · rw [ht.now]

theorem paced_run {xs : List (Submission Err SiteRequest ℕ)} (email : String)
    (h : (siteSystem lib env).serveAll xs s = some t) : Paced env email s t := by
  refine serveAll_keeps (I := fun t => Paced env email s t) ?_ ?_ ⟨le_rfl, le_rfl, .inl rfl⟩ h
  · rintro ms v hv
    have hlater : v.accounts.now ≤ v.accounts.now + ms :=
      Int.le_add_of_nonneg_right (Int.natCast_nonneg ms)
    refine ⟨hv.now.trans hlater, hv.mails, hv.cools.imp_right fun ⟨T, hT, hfit, hsoon⟩ => ?_⟩
    exact ⟨T, hT, hfit, hsoon.trans (Int.add_le_add_right hlater _)⟩
  · rintro r os v cs a w hv hr
    obtain ⟨l, hw⟩ := mailing_attempt hr
    exact hv.serve hw

end Serve

/-- **A mailbox cannot be flooded**: of the codes that are mailed to an address, by sign-ups,
requests for another code and changes of the e-mail together, each but the first comes a
cooldown after the one before. Requests are served one at a time, and any of their commands
that is not in a pipeline may fail. -/
theorem mails_paced (lib : Hashing) (env : AuthEnv) {s t : Site}
    {xs : List (Submission Err SiteRequest ℕ)} (h : (siteSystem lib env).serveAll xs s = some t)
    (email : String) : (t.mailedTo email - s.mailedTo email - 1 : ℤ) * env.cooldown ≤
      t.accounts.now - s.accounts.now := by
  have hpaced := paced_run email h
  rcases hpaced.cools with hnone | ⟨T, -, hfit, hsoon⟩
  · have hlater : s.accounts.now ≤ t.accounts.now + env.cooldown :=
      hpaced.now.trans (Int.le_add_of_nonneg_right env.cooldown_nonneg)
    exact fits_before (by rw [hnone]; simp) hlater
  · exact fits_before hfit hsoon

/-- Ada signs up and asks for another code: at once, and a minute later. -/
def adaAsks : List (Submission Err SiteRequest ℕ) :=
  [.inl (.register ⟨"Ada", "ada@example.com", "Secret123"⟩, allAnswered 9),
    .inl (.resendOtp "ada@example.com", allAnswered 2), .inr 60000,
    .inl (.resendOtp "ada@example.com", allAnswered 7)]

/-- Two codes in a minute, which is the cooldown. -/
theorem ada_paced : ∃ t, (siteSystem plainText ⟨300, 5, 60⟩).serveAll adaAsks newSite = some t ∧
    t.mailedTo "ada@example.com" = 2 ∧ newSite.mailedTo "ada@example.com" = 0 ∧
      (2 - 0 - 1 : ℤ) * 60000 ≤ t.accounts.now - newSite.accounts.now := by
  have hrun : ((siteSystem plainText ⟨300, 5, 60⟩).serveAll adaAsks newSite).any fun t =>
      t.mailedTo "ada@example.com" = 2 := by decide +kernel
  obtain ⟨t, ht, hmails⟩ := (Option.any_eq_true _ _).mp hrun
  have hmails := of_decide_eq_true hmails
  have hnone : newSite.mailedTo "ada@example.com" = 0 := by decide +kernel
  have hpaced := mails_paced plainText ⟨300, 5, 60⟩ ht "ada@example.com"
  rw [hmails, hnone] at hpaced
  exact ⟨t, ht, hmails, hnone, hpaced⟩

end MovieReservation
