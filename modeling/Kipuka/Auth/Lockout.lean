/-
  What the failure tracker guarantees for one identity, over every sequence of calls.
-/
import Kipuka.Auth.FailureTracker

namespace Kipuka.Auth

open Generic FailureTracker

/-! ## Records -/

def Record.Locked (r : Record) (now : Int) : Prop := ∃ stop, r.lockedUntil = some stop ∧ now < stop

variable {now : Int} {r : Record}

theorem Record.not_locked_of_prunable {window : Nat} (h : r.isPrunable now window = true) :
    ¬ r.Locked now := by
  rintro ⟨stop, hstop, hlt⟩
  simp [Record.isPrunable, hstop] at h
  omega

variable {stop : Int}

theorem statusAt_of_locked (hstop : r.lockedUntil = some stop) (hlt : now < stop) :
    statusAt (some r) now = some (.lockedOut (durationSince stop now)) := by
  simp [statusAt, hstop, hlt]

variable {o : Option Record}

theorem statusAt_eq_none : statusAt o now = none ↔ ∀ r ∈ o, ¬ r.Locked now := by
  constructor
  · rintro h r rfl ⟨stop, hstop, hlt⟩
    rw [statusAt_of_locked hstop hlt] at h
    exact nomatch h
  · intro h
    unfold statusAt
    split
    · rfl
    · next r =>
      split
      · next stop hstop => exact if_neg fun hlt => h r rfl ⟨stop, hstop, hlt⟩
      · rfl

/-- The record that a failure at `now` leaves where `o` was, when `o` is not locked. -/
def counted (p : LockoutPolicy) (now : Int) (o : Option Record) : Record :=
  (countFailure p (o.getD (Record.fresh now)) now).2

variable {p : LockoutPolicy}

theorem record_counted (p : LockoutPolicy) (now : Int) (o : Option Record) :
    ∃ r, (r = Record.fresh now ∨
        (o = some r ∧ durationSince now r.windowStart < p.failureWindow ∧
          ∀ stop ∈ r.lockedUntil, now < stop)) ∧
      counted p now o =
        { failures := r.failures + 1
          windowStart := r.windowStart
          lockedUntil := if p.maxFailures ≤ r.failures + 1 then some (now + p.lockoutDuration)
            else r.lockedUntil } := by
  unfold counted countFailure
  dsimp only
  generalize hr : (if (decide (p.failureWindow ≤
      durationSince now (o.getD (Record.fresh now)).windowStart) ||
    (o.getD (Record.fresh now)).lockedUntil.any fun stop => decide (stop ≤ now)) = true then
      Record.fresh now else o.getD (Record.fresh now)) = r
  refine ⟨r, ?_, ?_⟩
  · split at hr
    · exact .inl hr.symm
    · next hold =>
      cases o with
      | none => exact .inl hr.symm
      | some r' =>
        have hr' : r' = r := hr
        rw [← hr']
        simp only [Option.getD_some, Bool.or_eq_true, not_or, decide_eq_true_eq, Nat.not_le] at hold
        refine .inr ⟨rfl, hold.1, fun stop hstop => ?_⟩
        have hany := hold.2
        rw [Option.mem_def.mp hstop] at hany
        simpa using hany
  · split <;> rfl

/-! ## One call -/

inductive Effect (p : LockoutPolicy) (identity : String) (c : Call) (now : Int)
    (o : Option Record) : Option Record → Prop where
  | kept (h : c = .recordSuccess identity → ∀ r ∈ o, r.Locked now) : Effect p identity c now o o
  | dropped (h : ∀ r ∈ o, ¬ r.Locked now) : Effect p identity c now o none
  | counted (hc : c = .recordFailure identity) (h : ∀ r ∈ o, ¬ r.Locked now) :
      Effect p identity c now o (some (counted p now o))

/-- The record `o` of the tracker stands for the record `o'` of the reference. -/
def Stands (p : LockoutPolicy) (now : Int) (o o' : Option Record) : Prop :=
  o = o' ∨ o = none ∧ ∀ r ∈ o', r.isPrunable now p.failureWindow = true

variable {o' o'' : Option Record}

theorem Stands.drop (h : Stands p now o o') (hdrop : Stands p now o'' o) : Stands p now o'' o' := by
  rcases hdrop with rfl | ⟨rfl, hstale⟩
  · exact h
  · rcases h with rfl | ⟨-, hr⟩
    · exact .inr ⟨rfl, hstale⟩
    · exact .inr ⟨rfl, hr⟩

theorem Stands.eq_some (h : Stands p now o o') (ho : o = some r) : o' = some r := by
  rcases h with rfl | ⟨rfl, -⟩
  · exact ho
  · cases ho

theorem Stands.statusAt_eq (h : Stands p now o o') : statusAt o now = statusAt o' now := by
  rcases h with rfl | ⟨rfl, hr⟩
  · rfl
  · exact (statusAt_eq_none.mpr fun r hmem => Record.not_locked_of_prunable (hr r hmem)).symm

variable {identity : String}

theorem Stands.effect {c : Call} (h : Stands p now o' o) (hc : c ≠ .recordSuccess identity) :
    Effect p identity c now o o' := by
  rcases h with rfl | ⟨rfl, hstale⟩
  · exact .kept fun heq => absurd heq hc
  · exact .dropped fun r hr => Record.not_locked_of_prunable (hstale r hr)

section

variable (t : FailureTracker)

theorem lookup_pruneIfDue (identity : String) (now : Int) :
    Stands t.policy now ((t.pruneIfDue now).records.lookup identity)
      (t.records.lookup identity) := by
  unfold pruneIfDue
  split
  · show AList.lookup identity (t.records.retain _) = _ ∨ _
    dsimp only [FailureTracker.prune]
    rw [AList.lookup_retain]
    cases h : t.records.lookup identity with
    | none => exact .inl rfl
    | some r =>
      by_cases hr : r.isPrunable now t.policy.failureWindow = true
      · refine .inr ⟨by simp [Option.filter, hr], fun r' hr' => ?_⟩
        rwa [← Option.some.inj hr']
      · exact .inl (by simp [Option.filter, hr])
  · exact .inl rfl

theorem lookup_dropStale (identity who : String) (now : Int) :
    Stands t.policy now ((t.dropStale who now).records.lookup identity)
      (t.records.lookup identity) := by
  unfold dropStale
  split
  · next r hr =>
    split
    · next hp =>
      dsimp only
      rw [AList.lookup_erase_eq]
      split
      · next he =>
        refine .inr ⟨rfl, fun r' hr' => ?_⟩
        rw [he, hr] at hr'
        rwa [← Option.some.inj hr']
      · exact .inl rfl
    · exact .inl rfl
  · exact .inl rfl

theorem lookup_check (identity who : String) (now : Int) :
    Stands t.policy now ((t.check who now).2.records.lookup identity)
      (t.records.lookup identity) := by
  unfold check
  split
  · dsimp only
    have hpruned : Stands t.policy now ((if t.records.size ≥ 10000 then t.pruneIfDue now else
        t).records.lookup identity) (t.records.lookup identity) := by
      split
      · exact lookup_pruneIfDue t identity now
      · exact .inl rfl
    have hpolicy : (if t.records.size ≥ 10000 then t.pruneIfDue now else t).policy = t.policy := by
      split <;> simp
    generalize (if t.records.size ≥ 10000 then t.pruneIfDue now else t) = t' at hpruned hpolicy
    split
    · exact hpruned
    · split
      · exact hpruned
      · exact hpruned.drop (hpolicy ▸ lookup_dropStale t' identity who now)
  · exact .inl rfl

theorem check_effect (identity who : String) (now : Int) :
    Effect t.policy identity (.check who) now (t.records.lookup identity)
      ((t.check who now).2.records.lookup identity) :=
  (lookup_check t identity who now).effect nofun

end

/-! ### `record_failure` -/

/-- What a failure at `now` answers, and the record it leaves where `o` was. -/
def failed (p : LockoutPolicy) (now : Int) (o : Option Record) : LockoutStatus × Record :=
  match statusAt (some (o.getD (Record.fresh now))) now with
  | some status => (status, o.getD (Record.fresh now))
  | none => countFailure p (o.getD (Record.fresh now)) now

theorem failed_of_statusAt (h : statusAt o now = none) :
    failed p now o = countFailure p (o.getD (Record.fresh now)) now := by
  have hfree : statusAt (some (o.getD (Record.fresh now))) now = none := by
    cases o with
    | none => rfl
    | some r => exact h
  rw [failed, hfree]

theorem Stands.failed_eq (h : Stands p now o o') : failed p now o = failed p now o' := by
  rcases h with rfl | ⟨rfl, hr⟩
  · rfl
  · cases o' with
    | none => rfl
    | some r =>
      have hprunable := hr r rfl
      have hstale : decide (p.failureWindow ≤ durationSince now r.windowStart) = true := by
        simp only [Record.isPrunable, Bool.and_eq_true] at hprunable
        exact hprunable.2
      rw [failed_of_statusAt rfl, failed_of_statusAt (Stands.statusAt_eq (.inr ⟨rfl, hr⟩)).symm]
      simp [countFailure, hstale]

theorem failed_effect :
    Effect p identity (.recordFailure identity) now o (some (failed p now o).2) := by
  cases hstatus : statusAt o now with
  | none =>
    rw [failed_of_statusAt hstatus]
    exact .counted rfl (statusAt_eq_none.mp hstatus)
  | some status =>
    -- still locked: the entry keeps its value, so it was there
    cases o with
    | none => cases hstatus
    | some r =>
      rw [failed, Option.getD_some, hstatus]
      exact .kept nofun

section

variable (t : FailureTracker) (hen : t.policy.isEnabled = true)

include hen

theorem recordFailure_eq {identity : String} (hlen : identity.utf8ByteSize ≤ 4096)
    (hroom : (t.pruneIfDue now).records.size < 10000 ∨ identity ∈ (t.pruneIfDue now).records) :
    (t.recordFailure identity now).1 =
        (failed t.policy now ((t.pruneIfDue now).records.lookup identity)).1 ∧
      ∀ who, (t.recordFailure identity now).2.records.lookup who =
        if who = identity then
          some (failed t.policy now ((t.pruneIfDue now).records.lookup identity)).2
        else (t.pruneIfDue now).records.lookup who := by
  have hsaturated : ¬ ((t.pruneIfDue now).records.size ≥ 10000 ∧
      identity ∉ (t.pruneIfDue now).records) := by
    rintro ⟨hsize, hnot⟩
    exact hroom.elim (fun h => by omega) hnot
  unfold FailureTracker.recordFailure failed
  rw [if_pos hen]
  dsimp only
  rw [if_neg (by omega), if_neg hsaturated]
  rw [pruneIfDue_policy]
  generalize ((t.pruneIfDue now).records.lookup identity).getD (Record.fresh now) = r
  cases statusAt (some r) now with
  | some status => exact ⟨rfl, fun who => AList.lookup_insert_eq ..⟩
  | none =>
    refine ⟨rfl, fun who => ?_⟩
    dsimp only
    rw [AList.lookup_insert_eq, AList.lookup_insert_eq]
    split <;> rfl

theorem recordFailure_overlong (h : 4096 < identity.utf8ByteSize) :
    (t.recordFailure identity now).1 = .lockedOut (fromSecs 1) := by
  unfold FailureTracker.recordFailure
  rw [if_pos hen]
  dsimp only
  rw [if_pos h]

theorem recordFailure_refused
    (h : ¬ (identity.utf8ByteSize ≤ 4096 ∧ ((t.pruneIfDue now).records.size < 10000 ∨
      identity ∈ (t.pruneIfDue now).records))) :
    (t.recordFailure identity now).2 = t.pruneIfDue now := by
  unfold FailureTracker.recordFailure
  rw [if_pos hen]
  dsimp only
  split
  · rfl
  · next hlen =>
    rw [if_pos]
    constructor
    · exact Nat.not_lt.mp fun hroom => h ⟨Nat.not_lt.mp hlen, .inl hroom⟩
    · exact fun hmem => h ⟨Nat.not_lt.mp hlen, .inr hmem⟩

end

theorem recordFailure_effect (t : FailureTracker) (identity who : String) (now : Int) :
    Effect t.policy identity (.recordFailure who) now (t.records.lookup identity)
      ((t.recordFailure who now).2.records.lookup identity) := by
  have hpruned : Effect t.policy identity (.recordFailure who) now (t.records.lookup identity)
      ((t.pruneIfDue now).records.lookup identity) := (lookup_pruneIfDue t identity now).effect nofun
  by_cases hen : t.policy.isEnabled = true
  · by_cases hroom : who.utf8ByteSize ≤ 4096 ∧
        ((t.pruneIfDue now).records.size < 10000 ∨ who ∈ (t.pruneIfDue now).records)
    · rw [(recordFailure_eq t hen hroom.1 hroom.2).2, (lookup_pruneIfDue t who now).failed_eq]
      split
      · next hid =>
        subst hid
        exact failed_effect
      · exact hpruned
    · rw [recordFailure_refused t hen hroom]
      exact hpruned
  · rw [recordFailure, if_neg hen]
    exact .kept nofun

/-! ### `record_success` -/

section

variable (t : FailureTracker) (hen : t.policy.isEnabled = true)

include hen

theorem lookup_recordSuccess (identity who : String) (now : Int) :
    (t.recordSuccess who now).records.lookup identity =
      if identity = who ∧ statusAt (t.records.lookup who) now = none then none
      else t.records.lookup identity := by
  unfold recordSuccess
  rw [if_pos hen]
  cases ho : t.records.lookup who with
  | none =>
    dsimp only
    split
    · next h => rw [h.1, ho]
    · rfl
  | some r =>
    have hfree : statusAt (some r) now = none ↔
        ¬ r.lockedUntil.any (fun stop => decide (now < stop)) = true := by
      simp [statusAt_eq_none, Record.Locked, Option.any_eq_true]
    dsimp only
    split
    · next hlocked => rw [if_neg fun h => hfree.mp h.2 hlocked]
    · next hlocked =>
      simp only [AList.lookup_erase_eq, hfree.mpr hlocked, and_true]

theorem recordSuccess_effect (identity who : String) (now : Int) :
    Effect t.policy identity (.recordSuccess who) now (t.records.lookup identity)
      ((t.recordSuccess who now).records.lookup identity) := by
  rw [lookup_recordSuccess t hen]
  split
  · next h =>
    rw [h.1]
    exact .dropped (statusAt_eq_none.mp h.2)
  · next h =>
    refine .kept fun hc r hr => not_not.mp fun hfree => h ?_
    obtain rfl := Call.recordSuccess.inj hc
    refine ⟨rfl, statusAt_eq_none.mpr fun r' hr' => ?_⟩
    rwa [Option.some.inj (hr'.symm.trans hr)]

theorem apply_effect (identity : String) (c : TimedCall) :
    Effect t.policy identity c.call c.now (t.records.lookup identity)
      ((t.apply c).records.lookup identity) := by
  unfold apply
  split
  · next who hc =>
    rw [hc]
    exact check_effect t identity who c.now
  · next who hc =>
    rw [hc]
    exact recordFailure_effect t identity who c.now
  · next who hc =>
    rw [hc]
    exact recordSuccess_effect t hen identity who c.now

end

/-! ## What `check` answers -/

theorem check_status (t : FailureTracker) (hen : t.policy.isEnabled = true)
    (hlen : identity.utf8ByteSize ≤ 4096) (now : Int) :
    (t.check identity now).1 = (statusAt (t.records.lookup identity) now).getD .allowed := by
  unfold check
  rw [if_pos hen]
  dsimp only
  have hsame : statusAt ((if t.records.size ≥ 10000 then t.pruneIfDue now else t).records.lookup
      identity) now = statusAt (t.records.lookup identity) now := by
    split
    · exact (lookup_pruneIfDue t identity now).statusAt_eq
    · rfl
  rw [if_neg (by omega), hsame]
  split
  · next h => rw [h, Option.getD_some]
  · next h => rw [h, Option.getD_none]

/-- `recordFailure` locks the identity out because this failure reached the threshold: not because
    it was locked before, and not because the identity is overlong. -/
def ReachesThreshold (t : FailureTracker) (identity : String) (now : Int) : Prop :=
  (t.recordFailure identity now).1.isLocked = true ∧ identity.utf8ByteSize ≤ 4096 ∧
    statusAt (t.records.lookup identity) now = none

theorem countFailure_locked (h : (countFailure p r now).1.isLocked = true) :
    (countFailure p r now).2.lockedUntil = some (now + p.lockoutDuration) := by
  unfold countFailure at h ⊢
  dsimp only at h ⊢
  generalize (if (decide (p.failureWindow ≤ durationSince now r.windowStart) ||
    r.lockedUntil.any fun stop => decide (stop ≤ now)) = true then Record.fresh now else r) = r'
    at h ⊢
  split at h
  · next hmax => rw [if_pos hmax]
  · exact nomatch h

variable {t : FailureTracker}

theorem lookup_of_reachesThreshold (hen : t.policy.isEnabled = true)
    (h : ReachesThreshold t identity now) :
    ∃ r, (t.recordFailure identity now).2.records.lookup identity = some r ∧
      r.lockedUntil = some (now + t.policy.lockoutDuration) := by
  obtain ⟨hlocked, hlen, hfree⟩ := h
  by_cases hroom : (t.pruneIfDue now).records.size < 10000 ∨
      identity ∈ (t.pruneIfDue now).records
  · obtain ⟨hstatus, hlookup⟩ := recordFailure_eq t hen hlen hroom
    rw [(lookup_pruneIfDue t identity now).failed_eq, failed_of_statusAt hfree] at hstatus hlookup
    rw [hstatus] at hlocked
    exact ⟨_, (hlookup identity).trans (if_pos rfl), countFailure_locked hlocked⟩
  · unfold recordFailure at hlocked
    rw [not_or, Nat.not_lt] at hroom
    rw [if_pos hen] at hlocked
    dsimp only at hlocked
    rw [if_neg (Nat.not_lt.mpr hlen), if_pos hroom] at hlocked
    exact nomatch hlocked

/-! ## A lockout ends on time -/

/-- The calls are in the order of their times. -/
def Monotonic (calls : List TimedCall) : Prop := (calls.map TimedCall.now).Pairwise (· ≤ ·)

def failuresFrom (identity : String) (start : Int) (calls : List TimedCall) : Nat :=
  calls.countP fun c => decide (c.call = .recordFailure identity ∧ start ≤ c.now)

/-- The record of an identity whose lockout ends at `stop`, at a time `now` when `n` of its failures
    have come in after that end. -/
structure AfterLock (stop : Int) (n : Nat) (now : Int) (o : Option Record) : Prop where
  locked : now < stop → ∃ r, o = some r ∧ r.lockedUntil = some stop
  counting : ∀ r ∈ o, r.lockedUntil = some stop ∨
    (stop ≤ now ∧ r.lockedUntil = none ∧ r.failures ≤ n)

variable {n : Nat} {now' : Int}

theorem AfterLock.expired (h : AfterLock stop n now o) (hnow : now ≤ now')
    (hfree : ∀ r ∈ o, ¬ r.Locked now') : stop ≤ now' := by
  by_contra hlt
  obtain ⟨r, ho, hr⟩ := h.locked (by omega)
  exact hfree r ho ⟨stop, hr, by omega⟩

variable {c : TimedCall}

theorem AfterLock.step (h : AfterLock stop n now o)
    (hnow : now ≤ c.now) (heff : Effect p identity c.call c.now o o')
    (hroom : n + failuresFrom identity stop [c] < p.maxFailures) :
    AfterLock stop (n + failuresFrom identity stop [c]) c.now o' := by
  cases heff with
  | kept =>
    refine ⟨fun hlt => h.locked (by omega), fun r hr => ?_⟩
    exact (h.counting r hr).imp_right fun ⟨h1, h2, h3⟩ => ⟨by omega, h2, by omega⟩
  | dropped hfree =>
    refine ⟨fun hlt => ?_, fun r hr => nomatch hr⟩
    have := h.expired hnow hfree
    omega
  | counted hc hfree =>
    have hstop := h.expired hnow hfree
    have hone : failuresFrom identity stop [c] = 1 := by
      simp [failuresFrom, hc, hstop]
    rw [hone] at hroom ⊢
    obtain ⟨r, hbase, hrec⟩ := record_counted p c.now o
    -- the count so far: nothing in a new window, at most `n` in the old one
    have hr : r.lockedUntil = none ∧ r.failures ≤ n := by
      rcases hbase with rfl | ⟨ho, -, hlive⟩
      · exact ⟨rfl, Nat.zero_le _⟩
      · rcases h.counting r ho with hs | ⟨-, h2, h3⟩
        · have := hlive stop hs
          omega
        · exact ⟨h2, h3⟩
    refine ⟨fun hlt => by omega, fun r' hr' => .inr ⟨hstop, ?_⟩⟩
    rw [← Option.some.inj hr', hrec]
    dsimp only
    rw [if_neg (by omega)]
    exact ⟨hr.1, by omega⟩

theorem AfterLock.run (hen : t.policy.isEnabled = true) (calls : List TimedCall)
    (h : AfterLock stop n now (t.records.lookup identity))
    (hclock : (now :: calls.map TimedCall.now).Pairwise (· ≤ ·))
    (hroom : n + failuresFrom identity stop calls < t.policy.maxFailures) :
    ∃ now', (now' = now ∨ ∃ c ∈ calls, now' = c.now) ∧
      AfterLock stop (n + failuresFrom identity stop calls) now'
        ((t.run calls).records.lookup identity) := by
  induction calls generalizing t now n with
  | nil => exact ⟨now, .inl rfl, h⟩
  | cons c rest ih =>
    have hsplit : failuresFrom identity stop (c :: rest) =
        failuresFrom identity stop [c] + failuresFrom identity stop rest := by
      unfold failuresFrom
      rw [← List.countP_append, List.singleton_append]
    rw [hsplit, ← Nat.add_assoc] at hroom
    rw [List.map_cons] at hclock
    obtain ⟨hfirst, hrest⟩ := List.pairwise_cons.mp hclock
    have hstep := h.step (hfirst c.now (List.mem_cons_self ..)) (apply_effect t hen identity c)
      (by omega)
    rw [← apply_policy t c] at hen hroom
    obtain ⟨now', hmem, hafter⟩ := ih hen hstep hrest hroom
    refine ⟨now', .inr ?_, ?_⟩
    · rcases hmem with rfl | ⟨c', hc', rfl⟩
      · exact ⟨c, List.mem_cons_self .., rfl⟩
      · exact ⟨c', List.mem_cons_of_mem _ hc', rfl⟩
    · rw [hsplit, ← Nat.add_assoc]
      exact hafter

theorem afterLock_of_reachesThreshold (hen : t.policy.isEnabled = true)
    (h : ReachesThreshold t identity now) :
    AfterLock (now + t.policy.lockoutDuration) 0 now
      ((t.recordFailure identity now).2.records.lookup identity) := by
  obtain ⟨r, hr, hstop⟩ := lookup_of_reachesThreshold hen h
  refine ⟨fun _ => ⟨r, hr, hstop⟩, fun r' hr' => .inl ?_⟩
  rw [hr] at hr'
  rwa [← Option.some.inj hr']

theorem AfterLock.statusAt_locked (h : AfterLock stop n now o) (hnow : now ≤ now')
    (hlt : now' < stop) : statusAt o now' = some (.lockedOut (durationSince stop now')) := by
  obtain ⟨r, ho, hr⟩ := h.locked (by omega)
  rw [ho, statusAt_of_locked hr hlt]

theorem AfterLock.statusAt_free (h : AfterLock stop n now o) (hge : stop ≤ now') :
    statusAt o now' = none := by
  refine statusAt_eq_none.mpr fun r hr => ?_
  rintro ⟨stop', hstop', hlt⟩
  rcases h.counting r hr with hk | ⟨-, hk, -⟩
  · rw [hk] at hstop'
    have := Option.some.inj hstop'
    omega
  · simp [hk] at hstop'

theorem Monotonic.of_append {before after : List TimedCall} (h : Monotonic (before ++ after)) :
    Monotonic before ∧ Monotonic after := by
  rw [Monotonic, List.map_append, List.pairwise_append] at h
  exact ⟨h.1, h.2.1⟩

variable {calls : List TimedCall}

theorem Monotonic.le_last {last : TimedCall} (h : Monotonic (calls ++ [last])) :
    ∀ c ∈ calls, c.now ≤ last.now := by
  intro c hc
  rw [Monotonic, List.map_append, List.pairwise_append] at h
  exact h.2.2 c.now (List.mem_map_of_mem hc) last.now (List.mem_singleton_self _)

theorem failuresFrom_of_before {start : Int} (h : ∀ c ∈ calls, c.now < start) :
    failuresFrom identity start calls = 0 := by
  refine List.countP_eq_zero.mpr fun c hc hcounted => ?_
  have := h c hc
  have := (of_decide_eq_true hcounted).2
  omega

/-- A lockout that starts at `t` because the threshold was reached lasts exactly `lockoutDuration`,
    whatever calls follow: until then `check` reports the time that is left, and from then on it
    allows the identity until `maxFailures` further failures of it have been recorded. -/
theorem lockout_exact (p : LockoutPolicy) (henabled : 0 < p.maxFailures) (start : Int)
    (identity : String) (before after : List TimedCall) (t now : Int)
    (hclock : Monotonic (before ++ ⟨.recordFailure identity, t⟩ :: after ++ [⟨.check identity, now⟩]))
    (hlock : ReachesThreshold ((new p start).run before) identity t) :
    let s := (new p start).run (before ++ ⟨.recordFailure identity, t⟩ :: after)
    (now < t + p.lockoutDuration →
        (s.check identity now).1 = .lockedOut (t + p.lockoutDuration - now).toNat) ∧
      (t + p.lockoutDuration ≤ now →
        failuresFrom identity (t + p.lockoutDuration) after < p.maxFailures →
        (s.check identity now).1 = .allowed) := by
  intro s
  have hpolicy : ((new p start).run before).policy = p := run_policy _ _
  have hen : ((new p start).run before).policy.isEnabled = true := by
    rw [hpolicy]
    exact decide_eq_true henabled
  have hinit := afterLock_of_reachesThreshold hen hlock
  rw [hpolicy] at hinit
  -- the tracker right after the failure, and the calls that follow it
  generalize hs1 : (((new p start).run before).recordFailure identity t).2 = s1 at hinit
  have hpolicy1 : s1.policy = p := by
    rw [← hs1, recordFailure_policy, hpolicy]
  have hen1 : s1.policy.isEnabled = true := by
    rw [hpolicy1]
    exact decide_eq_true henabled
  have hs : s = s1.run after := by
    show (before ++ ⟨.recordFailure identity, t⟩ :: after).foldl apply (new p start) = _
    rw [List.foldl_append, List.foldl_cons, ← hs1]
    rfl
  have hens : s.policy.isEnabled = true := by
    rw [hs, run_policy]
    exact hen1
  have hle := hclock.le_last
  have hmain : failuresFrom identity (t + p.lockoutDuration) after < p.maxFailures →
      ∃ now' ≤ now, AfterLock (t + p.lockoutDuration)
        (failuresFrom identity (t + p.lockoutDuration) after) now' (s.records.lookup identity) := by
    intro hroom
    have hafter := hclock.of_append.1.of_append.2
    obtain ⟨now', hmem, h⟩ := hinit.run hen1 after hafter (by rw [hpolicy1]; omega)
    rw [Nat.zero_add, ← hs] at h
    refine ⟨now', ?_, h⟩
    rcases hmem with rfl | ⟨c, hc, rfl⟩
    · exact hle ⟨.recordFailure identity, now'⟩ (by simp)
    · exact hle c (by simp [hc])
  rw [check_status s hens hlock.2.1]
  constructor
  · intro hlt
    -- no call so far was made after the end of the lockout
    have hzero : failuresFrom identity (t + p.lockoutDuration) after = 0 :=
      failuresFrom_of_before fun c hc => Int.lt_of_le_of_lt (hle c (by simp [hc])) hlt
    obtain ⟨now', hnow', h⟩ := hmain (by omega)
    rw [h.statusAt_locked hnow' hlt]
    rfl
  · intro hge hroom
    obtain ⟨now', -, h⟩ := hmain hroom
    rw [h.statusAt_free hge]
    rfl

/-- Two failures of bob lock it out at 10 s; the failure during the lockout does not extend it, and
    one failure after its end does not renew it. -/
theorem lockout_exact_bob :
    let p : LockoutPolicy := ⟨2, fromSecs 60, fromSecs 5⟩
    let fail (n : Nat) : TimedCall := ⟨.recordFailure "bob", fromSecs n⟩
    let s := (new p 0).run ([fail 9] ++ fail 10 :: [fail 12, fail 16])
    (s.check "bob" (fromSecs 17)).1 = .allowed := by
  intro p fail s
  refine (lockout_exact p (by decide) 0 "bob" [fail 9] [fail 12, fail 16] (fromSecs 10)
    (fromSecs 17) ?_ ?_).2 (by decide) (by decide)
  · unfold Monotonic
    decide
  · unfold ReachesThreshold
    decide +kernel

/-! ## A lockout has a cause -/

/-- A stretch of the history that opens with a failure of `identity` at `first` and holds no success
    of it. -/
structure Burst (identity : String) (first : Int) (calls : List TimedCall) : Prop where
  opens : calls.head? = some ⟨.recordFailure identity, first⟩
  noSuccess : ∀ c ∈ calls, c.call ≠ .recordSuccess identity

def failuresOf (identity : String) (calls : List TimedCall) : Nat :=
  calls.countP fun c => decide (c.call = .recordFailure identity)

theorem Burst.snoc {first : Int} (h : Burst identity first calls)
    (hc : c.call ≠ .recordSuccess identity) : Burst identity first (calls ++ [c]) := by
  refine ⟨?_, fun c' hc' => ?_⟩
  · rw [List.head?_append, h.opens]
    rfl
  · rcases List.mem_append.mp hc' with hold | hnew
    · exact h.noSuccess c' hold
    · rwa [List.mem_singleton.mp hnew]

theorem burst_singleton (identity : String) (now : Int) :
    Burst identity now [⟨.recordFailure identity, now⟩] :=
  ⟨rfl, fun c hc => by rw [List.mem_singleton.mp hc]; nofun⟩

/-- The failures that a lockout until `last + lockoutDuration` rests on: at least `maxFailures` of
    them inside one interval shorter than the window, without a success in between. -/
structure Cause (p : LockoutPolicy) (identity : String) (calls : List TimedCall)
    (first last : Int) : Prop where
  burst : Burst identity first calls
  closes : calls.getLast? = some ⟨.recordFailure identity, last⟩
  enough : p.maxFailures ≤ failuresOf identity calls
  inWindow : last - first < p.failureWindow ∨ p.maxFailures = 1

structure Explained (p : LockoutPolicy) (identity : String) (history : List TimedCall)
    (r : Record) : Prop where
  unlocked : r.lockedUntil = none → ∃ old calls, history = old ++ calls ∧
    Burst identity r.windowStart calls ∧ r.failures ≤ failuresOf identity calls
  locked : ∀ stop ∈ r.lockedUntil, ∃ old calls later first last, history = old ++ calls ++ later ∧
    stop = last + p.lockoutDuration ∧ Cause p identity calls first last

theorem failuresOf_snoc (identity : String) (calls : List TimedCall) (now : Int) :
    failuresOf identity (calls ++ [⟨.recordFailure identity, now⟩]) =
      failuresOf identity calls + 1 := by
  simp [failuresOf, List.countP_append]

variable {history old : List TimedCall}

theorem explained_counted (hhistory : history = old ++ calls)
    (hburst : Burst identity r.windowStart (calls ++ [⟨.recordFailure identity, now⟩]))
    (hcount : r.failures ≤ failuresOf identity calls)
    (hwindow : now - r.windowStart < p.failureWindow ∨ (r.failures = 0 ∧ now = r.windowStart))
    (henabled : 0 < p.maxFailures) (hfree : r.lockedUntil = none) :
    Explained p identity (history ++ [⟨.recordFailure identity, now⟩])
      { failures := r.failures + 1
        windowStart := r.windowStart
        lockedUntil := if p.maxFailures ≤ r.failures + 1 then some (now + p.lockoutDuration)
          else r.lockedUntil } := by
  have hsnoc := failuresOf_snoc identity calls now
  refine ⟨fun _ => ⟨old, calls ++ [⟨.recordFailure identity, now⟩], ?_, hburst, ?_⟩,
    fun stop hstop => ⟨old, calls ++ [⟨.recordFailure identity, now⟩], [], r.windowStart, now,
      ?_, ?_, ?_⟩⟩
  · rw [hhistory, List.append_assoc]
  · show r.failures + 1 ≤ _
    omega
  · rw [hhistory, List.append_assoc, List.append_nil]
  · dsimp only at hstop
    split at hstop
    · exact (Option.some.inj hstop).symm
    · rw [hfree] at hstop
      exact nomatch hstop
  · dsimp only at hstop
    split at hstop
    · next hmax =>
      refine ⟨hburst, by simp, by omega, ?_⟩
      rcases hwindow with h | ⟨h, -⟩
      · exact .inl h
      · exact .inr (by omega)
    · rw [hfree] at hstop
      exact nomatch hstop

theorem Explained.step (henabled : 0 < p.maxFailures) (h : ∀ r ∈ o, Explained p identity history r)
    (heff : Effect p identity c.call c.now o o') :
    ∀ r ∈ o', Explained p identity (history ++ [c]) r := by
  intro r' hr'
  cases heff with
  | kept hsucc =>
    have hold := h r' hr'
    refine ⟨fun hfree => ?_, fun stop hstop => ?_⟩
    · obtain ⟨old, calls, hh, hburst, hcount⟩ := hold.unlocked hfree
      -- a success would have dropped this record
      have hc : c.call ≠ .recordSuccess identity := by
        intro hc
        obtain ⟨stop, hstop, -⟩ := hsucc hc r' hr'
        rw [hfree] at hstop
        exact nomatch hstop
      refine ⟨old, calls ++ [c], by rw [hh, List.append_assoc], hburst.snoc hc, ?_⟩
      rw [failuresOf, List.countP_append]
      exact Nat.le_add_right_of_le hcount
    · obtain ⟨old, calls, later, first, last, hh, hstop', hcause⟩ := hold.locked stop hstop
      exact ⟨old, calls, later ++ [c], first, last, by rw [hh, List.append_assoc], hstop', hcause⟩
  | dropped => exact nomatch hr'
  | counted hc hfree =>
    have hcall : c = ⟨.recordFailure identity, c.now⟩ := by rw [← hc]
    obtain ⟨r, hbase, hrec⟩ := record_counted p c.now o
    rw [← Option.some.inj hr', hrec, hcall]
    dsimp only
    rcases hbase with rfl | ⟨ho, hwindow, hlive⟩
    · have hhistory : history = history ++ [] := (List.append_nil history).symm
      exact explained_counted hhistory
        (burst_singleton identity c.now) (Nat.zero_le _) (.inr ⟨rfl, rfl⟩) henabled rfl
    · have hnone : r.lockedUntil = none := by
        rw [Option.eq_none_iff_forall_not_mem]
        exact fun stop hstop => hfree r ho ⟨stop, hstop, hlive stop hstop⟩
      obtain ⟨old, calls, hh, hburst, hcount⟩ := (h r ho).unlocked hnone
      refine explained_counted hh (hburst.snoc nofun) hcount (.inl ?_) henabled hnone
      unfold durationSince at hwindow
      omega

theorem Explained.run (henabled : 0 < p.maxFailures) (start : Int) (identity : String)
    (history : List TimedCall) :
    ∀ r ∈ ((new p start).run history).records.lookup identity, Explained p identity history r := by
  induction history using List.reverseRecOn with
  | nil => exact fun r hr => nomatch hr
  | append_singleton history c ih =>
    have hpolicy : ((new p start).run history).policy = p := run_policy _ _
    have heff := apply_effect ((new p start).run history)
      (by rw [hpolicy]; exact decide_eq_true henabled) identity c
    rw [hpolicy, ← run_snoc] at heff
    exact Explained.step henabled ih heff

theorem between_of_monotonic {history old later : List TimedCall} {a b : TimedCall}
    (hclock : Monotonic history) (hh : history = old ++ calls ++ later)
    (hfirst : calls.head? = some a) (hlast : calls.getLast? = some b) :
    ∀ c ∈ calls, a.now ≤ c.now ∧ c.now ≤ b.now := by
  rw [hh] at hclock
  have hcalls : Monotonic calls := hclock.of_append.1.of_append.2
  intro c hc
  constructor
  · obtain ⟨rest, rfl⟩ := List.head?_eq_some_iff.mp hfirst
    rw [Monotonic, List.map_cons, List.pairwise_cons] at hcalls
    rcases List.mem_cons.mp hc with rfl | hmem
    · exact Int.le_refl _
    · exact hcalls.1 _ (List.mem_map_of_mem hmem)
  · obtain ⟨init, rfl⟩ := List.getLast?_eq_some_iff.mp hlast
    rcases List.mem_append.mp hc with hmem | hmem
    · exact hcalls.le_last c hmem
    · exact Int.le_of_eq (by rw [List.mem_singleton.mp hmem])

/-- No spurious lockout: if `check` reports an identity of at most 4096 bytes as locked, the history
    holds a stretch that opens and closes with failures of that identity, has at least `maxFailures`
    of them inside an interval shorter than the failure window (or one is enough), no success of the
    identity, and closes less than `lockoutDuration` ago. -/
theorem lockout_justified (p : LockoutPolicy) (start : Int) (identity : String)
    (history : List TimedCall) (now : Int) (hlen : identity.utf8ByteSize ≤ 4096)
    (hclock : Monotonic (history ++ [⟨.check identity, now⟩]))
    (hlocked : (((new p start).run history).check identity now).1.isLocked = true) :
    ∃ old calls later first last, history = old ++ calls ++ later ∧
      calls.head? = some ⟨.recordFailure identity, first⟩ ∧
      calls.getLast? = some ⟨.recordFailure identity, last⟩ ∧
      p.maxFailures ≤ failuresOf identity calls ∧
      (∀ c ∈ calls, c.call ≠ .recordSuccess identity ∧ first ≤ c.now ∧ c.now ≤ last) ∧
      (last - first < p.failureWindow ∨ p.maxFailures = 1) ∧ now - last < p.lockoutDuration := by
  have hpolicy : ((new p start).run history).policy = p := run_policy _ _
  by_cases henabled : 0 < p.maxFailures
  · rw [check_status _ (by rw [hpolicy]; exact decide_eq_true henabled) hlen] at hlocked
    -- the record is locked, and its lock has a cause
    have hsome : ¬ statusAt (((new p start).run history).records.lookup identity) now = none := by
      intro hnone
      rw [hnone] at hlocked
      exact nomatch hlocked
    rw [statusAt_eq_none] at hsome
    push Not at hsome
    obtain ⟨r, hr, stop, hstop, hlt⟩ := hsome
    obtain ⟨old, calls, later, first, last, hh, hstop', hcause⟩ :=
      (Explained.run henabled start identity history r hr).locked stop hstop
    have hbetween := between_of_monotonic hclock.of_append.1 hh hcause.burst.opens hcause.closes
    exact ⟨old, calls, later, first, last, hh, hcause.burst.opens, hcause.closes, hcause.enough,
      fun c hc => ⟨hcause.burst.noSuccess c hc, hbetween c hc⟩, hcause.inWindow, by omega⟩
  · -- a disabled tracker never locks
    have hdisabled : ((new p start).run history).policy.isEnabled = false := by
      rw [hpolicy]
      exact decide_eq_false henabled
    rw [check, hdisabled] at hlocked
    exact nomatch hlocked

/-- Bob is locked out at 13 s, after a success that cleared its first failure and with failures of
    another identity in between. -/
theorem lockout_justified_bob :
    let p : LockoutPolicy := ⟨2, fromSecs 60, fromSecs 5⟩
    let at_ (n : Nat) (c : Call) : TimedCall := ⟨c, fromSecs n⟩
    let history := [at_ 1 (.recordFailure "bob"), at_ 2 (.recordSuccess "bob"),
      at_ 9 (.recordFailure "bob"), at_ 9 (.recordFailure "eve"), at_ 10 (.recordFailure "bob")]
    ∃ old calls later first last, history = old ++ calls ++ later ∧
      calls.head? = some ⟨.recordFailure "bob", first⟩ ∧
      calls.getLast? = some ⟨.recordFailure "bob", last⟩ ∧
      p.maxFailures ≤ failuresOf "bob" calls ∧
      (∀ c ∈ calls, c.call ≠ .recordSuccess "bob" ∧ first ≤ c.now ∧ c.now ≤ last) ∧
      (last - first < p.failureWindow ∨ p.maxFailures = 1) ∧
      ((fromSecs 13 : Nat) : Int) - last < p.lockoutDuration := by
  intro p at_ history
  refine lockout_justified p 0 "bob" history (fromSecs 13) (by decide +kernel) ?_ (by decide +kernel)
  unfold Monotonic
  decide

end Kipuka.Auth
