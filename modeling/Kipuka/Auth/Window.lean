/-
  The failure window: when does the last of `maxFailures` failures within one window lock?
-/
import Kipuka.Auth.Reference

namespace Kipuka.Auth

open Generic FailureTracker

/-- A failure at `now` opens a new window: the record is stale, or its lockout is over. -/
def OpensWindow (p : LockoutPolicy) (now : Int) (o : Option Record) : Prop :=
  ∀ r ∈ o, p.failureWindow ≤ durationSince now r.windowStart ∨ ∃ stop ∈ r.lockedUntil, stop ≤ now

/-- No lockout of the identity is active at `first` or later, at any time during the calls. -/
def Undisturbed (t : FailureTracker) (identity : String) (first : Int) (calls : List TimedCall) :
    Prop :=
  ∀ pre post, calls = pre ++ post → ∀ r ∈ (t.run pre).records.lookup identity,
    ∀ stop ∈ r.lockedUntil, stop ≤ first

variable {identity : String} {first : Int} {calls : List TimedCall}

theorem undisturbed_of_inits {t : FailureTracker}
    (h : ∀ pre ∈ calls.inits, ∀ r ∈ (t.run pre).records.lookup identity,
      ∀ stop ∈ r.lockedUntil, stop ≤ first) : Undisturbed t identity first calls := by
  intro pre post heq
  exact h pre ((List.mem_inits _ _).mpr ⟨post, heq.symm⟩)

/-! ## Counting -/

def countUp (p : LockoutPolicy) (now : Int) (n : Nat) (start : Int) : LockoutStatus × Record :=
  if n ≥ p.maxFailures then (.lockedOut p.lockoutDuration, ⟨n, start, some (now + p.lockoutDuration)⟩)
  else (.allowed, ⟨n, start, none⟩)

variable {now : Int} {p : LockoutPolicy} {start : Int} {n : Nat}

theorem countUp_isLocked : (countUp p now n start).1.isLocked = true ↔ p.maxFailures ≤ n := by
  unfold countUp
  split <;> simp [LockoutStatus.isLocked] <;> omega

variable {o : Option Record}

theorem failed_of_free (h : ∀ r ∈ o, ∀ stop ∈ r.lockedUntil, stop ≤ now) :
    failed p now o = countFailure p (o.getD (Record.fresh now)) now := by
  refine failed_of_statusAt (statusAt_eq_none.mpr fun r hr => ?_)
  rintro ⟨stop, hstop, hlt⟩
  have := h r hr stop hstop
  omega

theorem failed_opens
    (hfree : ∀ r ∈ o, ∀ stop ∈ r.lockedUntil, stop ≤ now) (h : OpensWindow p now o) :
    failed p now o = countUp p now 1 now := by
  rw [failed_of_free hfree]
  have hfresh : ∀ r : Record, (o.getD (Record.fresh now) = r) →
      (if (decide (p.failureWindow ≤ durationSince now r.windowStart) ||
        r.lockedUntil.any fun stop => decide (stop ≤ now)) = true then Record.fresh now else r) =
        Record.fresh now := by
    rintro r rfl
    cases o with
    | none => simp
    | some r =>
      rcases h r rfl with hstale | ⟨stop, hstop, hle⟩
      · simp [hstale]
      · simp [Option.mem_def.mp hstop, hle]
  unfold countFailure
  dsimp only
  rw [hfresh _ rfl]
  rfl

variable {r : Record}

theorem failed_continues (hfree : r.lockedUntil = none)
    (hopen : durationSince now r.windowStart < p.failureWindow) :
    failed p now (some r) = countUp p now (r.failures + 1) r.windowStart := by
  have hstops : ∀ r' ∈ some r, ∀ stop ∈ r'.lockedUntil, stop ≤ now := by
    intro r' hr' stop hstop
    rw [← Option.some.inj hr', hfree] at hstop
    exact nomatch hstop
  rw [failed_of_free hstops]
  have hnot : ¬ p.failureWindow ≤ durationSince now r.windowStart := by omega
  simp [countFailure, countUp, hfree, hnot]

theorem continues_of_not_opensWindow (hfree : ∀ r ∈ o, ∀ stop ∈ r.lockedUntil, stop ≤ now)
    (h : ¬ OpensWindow p now o) :
    ∃ r, o = some r ∧ r.lockedUntil = none ∧ durationSince now r.windowStart < p.failureWindow := by
  unfold OpensWindow at h
  push Not at h
  obtain ⟨r, hr, hopen, hlive⟩ := h
  refine ⟨r, hr, Option.eq_none_iff_forall_not_mem.mpr fun stop hstop => ?_, hopen⟩
  have := hlive stop hstop
  have := hfree r hr stop hstop
  omega

/-! ## Records of the reference -/

structure Record.WellCounted (p : LockoutPolicy) (r : Record) : Prop where
  counted : 1 ≤ r.failures
  below : r.lockedUntil = none → r.failures < p.maxFailures

theorem wellCounted_countUp (p : LockoutPolicy) (now start : Int) (hn : 1 ≤ n) :
    (countUp p now n start).2.WellCounted p := by
  unfold countUp
  split
  · exact ⟨hn, nofun⟩
  · exact ⟨hn, fun _ => by dsimp only; omega⟩

theorem wellCounted_failed (h : ∀ r ∈ o, r.WellCounted p) : (failed p now o).2.WellCounted p := by
  by_cases hlocked : ∃ r ∈ o, r.Locked now
  · -- a locked record stays as it is
    obtain ⟨r, rfl, stop, hstop, hlt⟩ := hlocked
    rw [failed, Option.getD_some, statusAt_of_locked hstop hlt]
    exact h r rfl
  · have hfree : ∀ r ∈ o, ∀ stop ∈ r.lockedUntil, stop ≤ now := by
      intro r hr stop hstop
      exact Int.not_lt.mp fun hlt => hlocked ⟨r, hr, stop, hstop, hlt⟩
    by_cases hopens : OpensWindow p now o
    · rw [failed_opens hfree hopens]
      exact wellCounted_countUp p now now (Nat.le_refl 1)
    · obtain ⟨r, rfl, hnone, hopen⟩ := continues_of_not_opensWindow hfree hopens
      rw [failed_continues hnone hopen]
      exact wellCounted_countUp p now _ (Nat.le_add_left 1 _)

namespace Reference

theorem apply_records (t : Reference) (hen : t.policy.isEnabled = true)
    (hlen : identity.utf8ByteSize ≤ 4096) (c : TimedCall) :
    (c.call = .recordFailure identity ∧
        (t.apply c).records identity = some (failed t.policy c.now (t.records identity)).2) ∨
      c.call ≠ .recordFailure identity ∧ ((t.apply c).records identity = t.records identity ∨
        c.call = .recordSuccess identity ∧ (t.apply c).records identity = none) := by
  obtain ⟨call, now⟩ := c
  cases call with
  | check who => exact .inr ⟨by simp, .inl rfl⟩
  | recordFailure who =>
    by_cases hwho : who = identity
    · subst hwho
      refine .inl ⟨rfl, ?_⟩
      simp [apply, recordFailure, hen, Nat.not_lt.mpr hlen]
    · refine .inr ⟨fun h => hwho (Call.recordFailure.inj h), .inl ?_⟩
      simp only [apply, recordFailure, hen, if_true]
      split
      · rfl
      · exact Function.update_of_ne (Ne.symm hwho) ..
  | recordSuccess who =>
    refine .inr ⟨by simp, ?_⟩
    simp only [apply, recordSuccess, hen, if_true]
    split
    · exact .inl rfl
    · by_cases hwho : who = identity
      · subst hwho
        exact .inr ⟨rfl, Function.update_self ..⟩
      · exact .inl (Function.update_of_ne (Ne.symm hwho) ..)

theorem run_wellCounted (hen : p.isEnabled = true)
    (hlen : identity.utf8ByteSize ≤ 4096) (calls : List TimedCall) :
    ∀ r ∈ ((Reference.new p).run calls).records identity, r.WellCounted p := by
  induction calls using List.reverseRecOn with
  | nil => exact fun r hr => nomatch hr
  | append_singleton calls c ih =>
    have hpolicy : ((Reference.new p).run calls).policy = p := run_policy _ _
    have hen' : ((Reference.new p).run calls).policy.isEnabled = true := by rw [hpolicy]; exact hen
    rw [run_snoc]
    intro r hr
    rcases apply_records ((Reference.new p).run calls) hen' hlen c with
      ⟨-, h⟩ | ⟨-, h | ⟨-, h⟩⟩
    · rw [h, hpolicy] at hr
      rw [← Option.some.inj hr]
      exact wellCounted_failed ih
    · exact ih r (h ▸ hr)
    · rw [h] at hr
      exact nomatch hr

end Reference

/-! ## The stretch -/

/-- The record during a stretch that began at `first`, after `j` of its failures. If the first one
    opened a window, all of them are counted in it. If not, the old window is still counting, or a
    later failure has opened one, or a lockout without duration has cleared the count. -/
def Counting (first : Int) (opened : Prop) (j : Nat) (r : Record) : Prop :=
  (opened ∧ r.lockedUntil = none ∧ r.windowStart = first ∧ r.failures = j) ∨
    ¬ opened ∧ (r.lockedUntil = none ∧ j < r.failures ∨
      r.lockedUntil = none ∧ first ≤ r.windowStart ∧ r.failures < j ∨
      ∃ stop, r.lockedUntil = some stop ∧ stop ≤ first)

section Stretch

variable {p : LockoutPolicy} {first last : Int} {opened : Prop} {j : Nat}

theorem counting_ahead (hopened : ¬opened) (hn : j < n)
    (hnext : ∀ stop ∈ (countUp p now n start).2.lockedUntil, stop ≤ first) :
    Counting first opened j (countUp p now n start).2 := by
  refine .inr ⟨hopened, ?_⟩
  unfold countUp at hnext ⊢
  split at hnext
  · next hlock =>
    rw [if_pos hlock]
    exact .inr (.inr ⟨_, rfl, hnext _ rfl⟩)
  · next hlock =>
    rw [if_neg hlock]
    exact .inl ⟨rfl, hn⟩

theorem counting_first (hmax : 1 < p.maxFailures) (hwell : ∀ r ∈ o, r.WellCounted p)
    (hstops : ∀ r ∈ o, ∀ stop ∈ r.lockedUntil, stop ≤ first)
    (hnext : ∀ stop ∈ (failed p first o).2.lockedUntil, stop ≤ first) :
    Counting first (OpensWindow p first o) 1 (failed p first o).2 := by
  by_cases hopens : OpensWindow p first o
  · rw [failed_opens hstops hopens, countUp, if_neg (by omega)]
    exact .inl ⟨hopens, rfl, rfl, rfl⟩
  · obtain ⟨r, rfl, hnone, hopen⟩ := continues_of_not_opensWindow hstops hopens
    have hcounted := (hwell r rfl).counted
    rw [failed_continues hnone hopen] at hnext ⊢
    exact counting_ahead hopens (by omega) hnext

variable (h : Counting first opened j r) (hj : 1 ≤ j)

include h hj

theorem Counting.next (hfirst : first ≤ now) (hlast : now ≤ last)
    (hwindow : last - first < p.failureWindow) :
    (opened ∧ failed p now (some r) = countUp p now (j + 1) first) ∨
      ¬ opened ∧ (∃ n start, j + 1 < n ∧ r.lockedUntil = none ∧ n = r.failures + 1 ∧
          failed p now (some r) = countUp p now n start ∨
        n ≤ j ∧ first ≤ start ∧ failed p now (some r) = countUp p now n start) := by
  have hfresh : (∃ stop ∈ r.lockedUntil, stop ≤ now) ∨
        (r.lockedUntil = none ∧ p.failureWindow ≤ durationSince now r.windowStart) →
      failed p now (some r) = countUp p now 1 now := by
    intro hcase
    refine failed_opens (fun r' hr' stop hstop => ?_) fun r' hr' => ?_
    · rw [← Option.some.inj hr'] at hstop
      rcases hcase with ⟨stop', hstop', hle⟩ | ⟨hnone, -⟩
      · rw [hstop'] at hstop
        rwa [← Option.some.inj hstop]
      · rw [hnone] at hstop
        exact nomatch hstop
    · rw [← Option.some.inj hr']
      exact hcase.elim .inr fun hstale => .inl hstale.2
  rcases h with ⟨hopened, hnone, hstart, hcount⟩ | ⟨hopened, hcase⟩
  · refine .inl ⟨hopened, ?_⟩
    have hopen : durationSince now r.windowStart < p.failureWindow := by
      unfold durationSince
      omega
    rw [failed_continues hnone hopen, hstart, hcount]
  · refine .inr ⟨hopened, ?_⟩
    rcases hcase with ⟨hnone, hcount⟩ | ⟨hnone, hstart, hcount⟩ | ⟨stop, hstop, hle⟩
    · by_cases hopen : durationSince now r.windowStart < p.failureWindow
      · exact ⟨r.failures + 1, r.windowStart, .inl ⟨by omega, hnone, rfl,
          failed_continues hnone hopen⟩⟩
      · exact ⟨1, now, .inr ⟨hj, hfirst, hfresh (.inr ⟨hnone, by omega⟩)⟩⟩
    · have hopen : durationSince now r.windowStart < p.failureWindow := by
        unfold durationSince
        omega
      exact ⟨r.failures + 1, r.windowStart, .inr ⟨by omega, hstart, failed_continues hnone hopen⟩⟩
    · exact ⟨1, now, .inr ⟨hj, hfirst, hfresh (.inl ⟨stop, hstop, hle.trans hfirst⟩)⟩⟩

theorem Counting.step (hmax : j + 1 < p.maxFailures) (hfirst : first ≤ now) (hlast : now ≤ last)
    (hwindow : last - first < p.failureWindow)
    (hnext : ∀ stop ∈ (failed p now (some r)).2.lockedUntil, stop ≤ first) :
    Counting first opened (j + 1) (failed p now (some r)).2 := by
  rcases h.next hj hfirst hlast hwindow with ⟨hopened, heq⟩ | ⟨hopened, n, start, hcase⟩
  · rw [heq, countUp, if_neg (by omega)]
    exact .inl ⟨hopened, rfl, rfl, rfl⟩
  · rcases hcase with ⟨hn, -, -, heq⟩ | ⟨hn, hstart, heq⟩
    · rw [heq] at hnext ⊢
      exact counting_ahead hopened hn hnext
    · rw [heq, countUp, if_neg (by omega)]
      exact .inr ⟨hopened, .inr (.inl ⟨rfl, hstart, by dsimp only; omega⟩)⟩

theorem Counting.locks_iff (hmax : j + 1 = p.maxFailures) (hwell : r.WellCounted p)
    (hfirst : first ≤ last) (hwindow : last - first < p.failureWindow) :
    (failed p last (some r)).1.isLocked = true ↔ opened := by
  rcases h.next hj hfirst (Int.le_refl _) hwindow with ⟨hopened, heq⟩ | ⟨hopened, n, start, hcase⟩
  · rw [heq, countUp_isLocked]
    exact ⟨fun _ => hopened, fun _ => by omega⟩
  · rcases hcase with ⟨hn, hnone, hcount, -⟩ | ⟨hn, -, heq⟩
    · -- the old window would have reached the threshold before
      have := hwell.below hnone
      omega
    · rw [heq, countUp_isLocked]
      exact ⟨fun _ => by omega, fun h => absurd h hopened⟩

end Stretch

/-! ## Runs -/

theorem failuresOf_append (identity : String) (calls calls' : List TimedCall) :
    failuresOf identity (calls ++ calls') = failuresOf identity calls + failuresOf identity calls' :=
  List.countP_append

theorem failuresOf_singleton_of_ne {c : TimedCall} (h : c.call ≠ .recordFailure identity) :
    failuresOf identity [c] = 0 := by
  simp [failuresOf, h]

theorem counting_run (hen : p.isEnabled = true)
    (hlen : identity.utf8ByteSize ≤ 4096) {first last : Int}
    (hwindow : last - first < p.failureWindow) (t : Reference) (ht : t.policy = p)
    (hwell : ∀ r ∈ t.records identity, r.WellCounted p) (mid : List TimedCall)
    (hbetween : ∀ c ∈ mid, first ≤ c.now ∧ c.now ≤ last ∧ c.call ≠ .recordSuccess identity)
    (hmax : 1 + failuresOf identity mid < p.maxFailures)
    (hstops : ∀ pre post, ⟨.recordFailure identity, first⟩ :: mid = pre ++ post →
      ∀ r ∈ (t.run pre).records identity, ∀ stop ∈ r.lockedUntil, stop ≤ first) :
    ∃ r, (t.run (⟨.recordFailure identity, first⟩ :: mid)).records identity = some r ∧
      Counting first (OpensWindow p first (t.records identity)) (1 + failuresOf identity mid) r := by
  induction mid using List.reverseRecOn with
  | nil =>
    have hone : (t.run [⟨.recordFailure identity, first⟩]).records identity =
        some (failed p first (t.records identity)).2 := by
      rcases Reference.apply_records t (ht ▸ hen) hlen ⟨.recordFailure identity, first⟩ with
        ⟨-, h⟩ | ⟨h, -⟩
      · rw [← ht]
        exact h
      · exact absurd rfl h
    refine ⟨_, hone, counting_first hmax hwell (hstops [] _ rfl) ?_⟩
    exact hstops [_] [] rfl _ hone
  | append_singleton mid c ih =>
    obtain ⟨hfirst, hlast, hsuccess⟩ := hbetween c (by simp)
    have hsplit := failuresOf_append identity mid [c]
    obtain ⟨r, hr, hcounting⟩ := ih (fun c' hc' => hbetween c' (List.mem_append_left _ hc'))
      (by omega) (fun pre post heq => hstops pre (post ++ [c]) (by
        rw [← List.append_assoc, ← heq, List.cons_append]))
    have hrun : t.run (⟨.recordFailure identity, first⟩ :: (mid ++ [c])) =
        (t.run (⟨.recordFailure identity, first⟩ :: mid)).apply c := by
      rw [← List.cons_append, Reference.run_snoc]
    have hpolicy : (t.run (⟨.recordFailure identity, first⟩ :: mid)).policy = p :=
      (Reference.run_policy _ _).trans ht
    rcases Reference.apply_records (t.run (⟨.recordFailure identity, first⟩ :: mid))
      (hpolicy ▸ hen) hlen c with ⟨hc, h⟩ | ⟨hc, h | ⟨hc', -⟩⟩
    · have hone : failuresOf identity [c] = 1 := by simp [failuresOf, hc]
      rw [hr, hpolicy] at h
      rw [← hrun] at h
      refine ⟨_, h, ?_⟩
      rw [hsplit, hone, ← Nat.add_assoc]
      refine hcounting.step (Nat.le_add_right 1 _) (by omega) hfirst hlast hwindow ?_
      exact hstops _ [] (List.append_nil _).symm _ h
    · rw [hsplit, failuresOf_singleton_of_ne hc, hrun, h]
      exact ⟨r, hr, hcounting⟩
    · exact absurd hc' hsuccess

theorem reference_undisturbed (hen : p.isEnabled = true) (start : Int)
    {before calls : List TimedCall} (hlen : identity.utf8ByteSize ≤ 4096)
    (hclock : Monotonic (before ++ calls)) (hids : (identities (before ++ calls)).card ≤ 10000)
    (hbefore : ∀ c ∈ before, c.now ≤ first)
    (hfree : Undisturbed ((new p start).run before) identity first calls) :
    ∀ pre post, calls = pre ++ post →
      ∀ r ∈ ((Reference.new p).run (before ++ pre)).records identity,
        ∀ stop ∈ r.lockedUntil, stop ≤ first := by
  intro pre
  induction pre using List.reverseRecOn with
  | nil =>
    intro post hpost r hr stop hstop
    rw [List.append_nil] at hr
    have hsim := simulates_run hen start hids before hclock.of_append.1
      (identities_mono (List.subset_append_left ..)) hbefore
    rcases hsim.stands identity with heq | ⟨-, hstale⟩
    · exact hfree [] calls rfl r (heq ▸ hr) stop hstop
    · exact Int.not_lt.mp fun hlt => Record.not_locked_of_prunable (hstale r hr) ⟨stop, hstop, hlt⟩
  | append_singleton pre c ih =>
    intro post hpost r hr stop hstop
    have hold := ih (c :: post) (by rw [hpost, List.append_assoc]; rfl)
    have hpolicy : ((Reference.new p).run (before ++ pre)).policy = p := Reference.run_policy _ _
    have hen' : ((Reference.new p).run (before ++ pre)).policy.isEnabled = true := by
      rw [hpolicy]
      exact hen
    rw [← List.append_assoc, Reference.run_snoc] at hr
    rcases Reference.apply_records ((Reference.new p).run (before ++ pre)) hen' hlen c with
      ⟨hc, h⟩ | ⟨-, h | ⟨-, h⟩⟩
    · -- a counted failure leaves the same record in both
      have hprefix : before ++ (pre ++ [c]) ⊆ before ++ calls := by
        rw [hpost, ← List.append_assoc before (pre ++ [c])]
        exact List.subset_append_left ..
      have hmono : Monotonic (before ++ pre ++ [c]) := by
        rw [hpost, ← List.append_assoc] at hclock
        rw [List.append_assoc]
        exact hclock.of_append.1
      have hnamed := identities_mono hprefix
      rw [← List.append_assoc] at hnamed
      have hsim := simulates_run hen start hids (before ++ pre) hmono.of_append.1
        ((identities_mono (List.subset_append_left ..)).trans hnamed) hmono.le_last
      have hcid : c.call.identity = identity := by rw [hc]; rfl
      have hid : identity ∈ identities (before ++ calls) :=
        hnamed (mem_identities.mpr ⟨c, by simp, hcid⟩)
      obtain ⟨-, hlookup⟩ := recordFailure_eq ((new p start).run (before ++ pre))
        (by rw [hsim.policy]; exact hen) hlen (hsim.room hids hid c.now)
      have htracker : (((new p start).run before).run (pre ++ [c])).records.lookup identity =
          some r := by
        have hrun : ((new p start).run before).run (pre ++ [c]) =
            (((new p start).run (before ++ pre)).recordFailure identity c.now).2 := by
          rw [FailureTracker.run_snoc]
          unfold FailureTracker.run FailureTracker.apply
          rw [hc, ← List.foldl_append]
        rw [hrun, hlookup, if_pos rfl, hsim.policy, (hsim.pruned (Int.le_refl _) identity).failed_eq]
        rw [hpolicy] at h
        exact h.symm.trans hr
      exact hfree (pre ++ [c]) post hpost r htracker stop hstop
    · exact hold r (h ▸ hr) stop hstop
    · rw [h] at hr
      exact nomatch hr

theorem Stands.opensWindow_iff {o' : Option Record} (h : Stands p now o o') :
    OpensWindow p now o ↔ OpensWindow p now o' := by
  rcases h with rfl | ⟨rfl, hstale⟩
  · exact Iff.rfl
  · refine ⟨fun _ r hr => .inl ?_, fun _ r hr => nomatch hr⟩
    have := hstale r hr
    unfold Record.isPrunable at this
    rw [Bool.and_eq_true, decide_eq_true_iff] at this
    exact this.2

/-- `maxFailures` failures of an identity, the first at `first` and the last at `last`, less than a
    window apart, with no success of it and no lockout in between, among fewer than 10 000
    identities: the last one locks if and only if the first one opened a window (or the identity is
    overlong and always refused). -/
theorem last_failure_locks_iff (p : LockoutPolicy) (start : Int) (identity : String)
    (before inside : List TimedCall) (first last : Int)
    (hburst : Burst identity first (inside ++ [⟨.recordFailure identity, last⟩]))
    (hclock : Monotonic (before ++ (inside ++ [⟨.recordFailure identity, last⟩])))
    (hids : (identities (before ++ (inside ++ [⟨.recordFailure identity, last⟩]))).card < 10000)
    (hcount : failuresOf identity (inside ++ [⟨.recordFailure identity, last⟩]) = p.maxFailures)
    (hwindow : last - first < p.failureWindow)
    (hfree : Undisturbed ((new p start).run before) identity first inside) :
    (((new p start).run (before ++ inside)).recordFailure identity last).1.isLocked = true ↔
      4096 < identity.utf8ByteSize ∨
        OpensWindow p first (((new p start).run before).records.lookup identity) := by
  have hone := failuresOf_snoc identity inside last
  have hen : p.isEnabled = true := decide_eq_true (by omega)
  have hpolicy : ((new p start).run (before ++ inside)).policy = p := FailureTracker.run_policy _ _
  by_cases hlen : identity.utf8ByteSize ≤ 4096
  · have hshort : ¬ 4096 < identity.utf8ByteSize := by omega
    have hmono := hclock
    rw [← List.append_assoc] at hmono
    have hbetween := between_of_monotonic (hclock : Monotonic _)
      (show _ = before ++ (inside ++ [_]) ++ [] by rw [List.append_nil]) hburst.opens
      (List.getLast?_concat ..)
    have hfirst : ∀ c ∈ before, c.now ≤ first := by
      intro c hc
      obtain ⟨rest, hrest⟩ := List.head?_eq_some_iff.mp hburst.opens
      rw [hrest, Monotonic, List.map_append, List.pairwise_append] at hclock
      exact hclock.2.2 c.now (List.mem_map_of_mem hc) first (by simp)
    -- the same question about the reference
    have hsub : before ++ inside ⊆ before ++ (inside ++ [⟨.recordFailure identity, last⟩]) := by
      rw [← List.append_assoc]
      exact List.subset_append_left ..
    have hsim := simulates_run hen start (Nat.le_of_lt hids) (before ++ inside) hmono.of_append.1
      (identities_mono hsub) hmono.le_last
    have hsim0 := simulates_run hen start (Nat.le_of_lt hids) before hclock.of_append.1
      (identities_mono (List.subset_append_left ..)) hfirst
    have hid : identity ∈ identities (before ++ (inside ++ [⟨.recordFailure identity, last⟩])) :=
      mem_identities.mpr ⟨⟨.recordFailure identity, last⟩, by simp, rfl⟩
    have hstatus := (recordFailure_eq ((new p start).run (before ++ inside))
      (by rw [hpolicy]; exact hen) hlen
      (hsim.room (Nat.le_of_lt hids) hid last)).1
    rw [hpolicy, (hsim.pruned (Int.le_refl _) identity).failed_eq] at hstatus
    rw [hstatus, or_iff_right hshort, (hsim0.stands identity).opensWindow_iff]
    have hstops := reference_undisturbed hen start hlen hmono.of_append.1
      ((Finset.card_le_card (identities_mono hsub)).trans (Nat.le_of_lt hids)) hfirst hfree
    have hwell := Reference.run_wellCounted hen hlen before
    cases inside with
    | nil =>
      -- one failure is enough
      have hmax : p.maxFailures = 1 := by
        rw [← hcount]
        simp [failuresOf]
      have hlast : last = first := by
        have := hburst.opens
        simpa using this
      rw [List.append_nil, hlast]
      have hstops0 := hstops [] [] rfl
      rw [List.append_nil] at hstops0
      by_cases hopens : OpensWindow p first (((Reference.new p).run before).records identity)
      · rw [failed_opens hstops0 hopens, countUp_isLocked]
        exact ⟨fun _ => hopens, fun _ => by omega⟩
      · refine ⟨fun _ => ?_, fun h => absurd h hopens⟩
        obtain ⟨r, hr, hnone, -⟩ := continues_of_not_opensWindow hstops0 hopens
        have hlow := (hwell r hr).below hnone
        have := (hwell r hr).counted
        omega
    | cons c mid =>
      have hc : c = ⟨.recordFailure identity, first⟩ := by
        have := hburst.opens
        simpa using this
      subst hc
      have hmid : failuresOf identity (⟨.recordFailure identity, first⟩ :: mid) =
          1 + failuresOf identity mid := by
        simp [failuresOf, Nat.add_comm]
      have hrun : ∀ calls, (Reference.new p).run (before ++ calls) =
          ((Reference.new p).run before).run calls := fun calls => List.foldl_append ..
      obtain ⟨r, hr, hcounting⟩ := counting_run hen hlen hwindow ((Reference.new p).run before)
        (Reference.run_policy _ _) hwell mid
        (fun c hc => by
          have hmem : c ∈ ⟨.recordFailure identity, first⟩ :: mid ++
              [⟨.recordFailure identity, last⟩] := by simp [hc]
          exact ⟨(hbetween c hmem).1, (hbetween c hmem).2, hburst.noSuccess c hmem⟩)
        (by omega)
        (fun pre post heq r hr => hstops pre post heq r (by rw [hrun]; exact hr))
      rw [hrun, hr]
      refine hcounting.locks_iff (Nat.le_add_right 1 _) (by omega) ?_ ?_ hwindow
      · refine Reference.run_wellCounted hen hlen (before ++ ⟨.recordFailure identity, first⟩ :: mid) r ?_
        rw [hrun]
        exact hr
      · exact (hbetween ⟨.recordFailure identity, first⟩ (by simp)).2
  · refine ⟨fun _ => .inl (by omega), fun _ => ?_⟩
    rw [recordFailure_overlong _ (by rw [hpolicy]; exact hen) (by omega)]
    rfl

/-- A window that is over: three failures from 65 s on are counted from 65 s on. -/
theorem last_failure_locks_iff_alice :
    let p : LockoutPolicy := ⟨3, fromSecs 60, fromSecs 300⟩
    let fail (n : Nat) : TimedCall := ⟨.recordFailure "alice", fromSecs n⟩
    (((new p 0).run ([fail 0] ++ [fail 65, fail 70])).recordFailure "alice" (fromSecs 90)).1.isLocked =
      true := by
  intro p fail
  refine (last_failure_locks_iff p 0 "alice" [fail 0] [fail 65, fail 70] (fromSecs 65) (fromSecs 90)
    ⟨rfl, by decide⟩ ?_ (by decide +kernel) (by decide) (by decide)
    (undisturbed_of_inits (by decide +kernel))).mpr (.inr ?_)
  · unfold Monotonic
    decide
  · unfold OpensWindow
    decide +kernel

/-- Three failures within 30 seconds of a window of 60 that do not lock: a failure at 0 s has opened
    a window that ends between them. -/
theorem burst_across_windows_allowed :
    let p : LockoutPolicy := ⟨3, fromSecs 60, fromSecs 300⟩
    let fail (n : Nat) : TimedCall := ⟨.recordFailure "alice", fromSecs n⟩
    let before := [fail 0]
    let inside := [fail 50, fail 70]
    Burst "alice" (fromSecs 50) (inside ++ [fail 80]) ∧
      Monotonic (before ++ (inside ++ [fail 80])) ∧
      (identities (before ++ (inside ++ [fail 80]))).card = 1 ∧
      failuresOf "alice" (inside ++ [fail 80]) = p.maxFailures ∧
      fromSecs 80 - fromSecs 50 < p.failureWindow ∧
      Undisturbed ((new p 0).run before) "alice" (fromSecs 50) inside ∧
      (((new p 0).run (before ++ inside)).recordFailure "alice" (fromSecs 80)).1 = .allowed := by
  intro p fail before inside
  refine ⟨⟨rfl, by decide⟩, ?_, by decide +kernel, by decide, by decide,
    undisturbed_of_inits (by decide +kernel), by decide +kernel⟩
  unfold Monotonic
  decide

end Kipuka.Auth
