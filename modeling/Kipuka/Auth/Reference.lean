/-
  The failure tracker against a reference that keeps every record, over every sequence of calls. The
  tracker prunes its table and limits it; a simulation relates the two while the clock does not go
  back and the limit is not reached.
-/
import Kipuka.Auth.Lockout

namespace Kipuka.Auth

open Generic FailureTracker

/-! ## The reference -/

structure Reference where
  policy : LockoutPolicy
  records : String → Option Record

namespace Reference

def new (policy : LockoutPolicy) : Reference := ⟨policy, fun _ => none⟩

def check (t : Reference) (identity : String) (now : Int) : LockoutStatus :=
  if t.policy.isEnabled then
    if identity.utf8ByteSize > 4096 then .lockedOut (fromSecs 1)
    else (statusAt (t.records identity) now).getD .allowed
  else .allowed

def recordFailure (t : Reference) (identity : String) (now : Int) : LockoutStatus × Reference :=
  if t.policy.isEnabled then
    if identity.utf8ByteSize > 4096 then (.lockedOut (fromSecs 1), t)
    else
      let (status, r) := failed t.policy now (t.records identity)
      (status, { t with records := Function.update t.records identity (some r) })
  else (.allowed, t)

def recordSuccess (t : Reference) (identity : String) (now : Int) : Reference :=
  if t.policy.isEnabled then
    match statusAt (t.records identity) now with
    | some _ => t
    | none => { t with records := Function.update t.records identity none }
  else t

def apply (t : Reference) (c : TimedCall) : Reference :=
  match c.call with
  | .check _ => t
  | .recordFailure identity => (t.recordFailure identity c.now).2
  | .recordSuccess identity => t.recordSuccess identity c.now

def answer (t : Reference) (c : TimedCall) : Option LockoutStatus :=
  match c.call with
  | .check identity => some (t.check identity c.now)
  | .recordFailure identity => some (t.recordFailure identity c.now).1
  | .recordSuccess _ => none

def run (t : Reference) (calls : List TimedCall) : Reference := calls.foldl apply t

def answers : Reference → List TimedCall → List (Option LockoutStatus)
  | _, [] => []
  | t, c :: calls => t.answer c :: answers (t.apply c) calls

variable (t : Reference)

theorem run_snoc (calls : List TimedCall) (c : TimedCall) :
    t.run (calls ++ [c]) = (t.run calls).apply c := by
  rw [run, List.foldl_append]
  rfl

theorem answers_snoc (calls : List TimedCall) (c : TimedCall) :
    t.answers (calls ++ [c]) = t.answers calls ++ [(t.run calls).answer c] := by
  induction calls generalizing t with
  | nil => rfl
  | cons c' calls ih => exact congrArg (List.cons (t.answer c')) (ih (t.apply c'))

@[simp] theorem apply_policy (c : TimedCall) : (t.apply c).policy = t.policy := by
  unfold apply recordFailure recordSuccess
  split
  · rfl
  · split
    · split <;> rfl
    · rfl
  · split
    · split <;> rfl
    · rfl

theorem run_policy (calls : List TimedCall) : (t.run calls).policy = t.policy := by
  induction calls generalizing t with
  | nil => rfl
  | cons c calls ih => exact (ih (t.apply c)).trans (apply_policy t c)

end Reference

namespace FailureTracker

def answer (t : FailureTracker) (c : TimedCall) : Option LockoutStatus :=
  match c.call with
  | .check identity => some (t.check identity c.now).1
  | .recordFailure identity => some (t.recordFailure identity c.now).1
  | .recordSuccess _ => none

def answers : FailureTracker → List TimedCall → List (Option LockoutStatus)
  | _, [] => []
  | t, c :: calls => t.answer c :: answers (t.apply c) calls

theorem answers_snoc (t : FailureTracker) (calls : List TimedCall) (c : TimedCall) :
    t.answers (calls ++ [c]) = t.answers calls ++ [(t.run calls).answer c] := by
  induction calls generalizing t with
  | nil => rfl
  | cons c' calls ih => exact congrArg (List.cons (t.answer c')) (ih (t.apply c'))

end FailureTracker

/-! ## The relation -/

variable {r : Record} {now now' : Int}

theorem Record.isPrunable_mono {window : Nat} (hle : now ≤ now')
    (h : r.isPrunable now window = true) : r.isPrunable now' window = true := by
  have hstale : ∀ t, durationSince now t ≤ durationSince now' t := by
    intro t
    unfold durationSince
    omega
  unfold Record.isPrunable at h ⊢
  rw [Bool.and_eq_true, decide_eq_true_iff] at h ⊢
  refine ⟨?_, h.2.trans (hstale r.windowStart)⟩
  cases hl : r.lockedUntil with
  | none => rfl
  | some stop =>
    rw [hl] at h
    have hstop := of_decide_eq_true h.1
    exact decide_eq_true (by omega)

variable {p : LockoutPolicy} {o o' : Option Record}

theorem Stands.mono (h : Stands p now o o') (hle : now ≤ now') : Stands p now' o o' :=
  h.imp_right fun ⟨ho, hr⟩ => ⟨ho, fun r hmem => Record.isPrunable_mono hle (hr r hmem)⟩

theorem stands_update {l l' : String → Option Record}
    (h : ∀ who, Stands p now (l who) (l' who)) (identity : String) (o : Option Record)
    (who : String) :
    Stands p now (if who = identity then o else l who) (Function.update l' identity o who) := by
  by_cases hwho : who = identity
  · subst hwho
    rw [if_pos rfl, Function.update_self]
    exact .inl rfl
  · rw [if_neg hwho, Function.update_of_ne hwho]
    exact h who

/-! ## One call -/

def Call.identity : Call → String
  | .check identity => identity
  | .recordFailure identity => identity
  | .recordSuccess identity => identity

def identities (calls : List TimedCall) : Finset String :=
  (calls.map fun c => c.call.identity).toFinset

variable {calls : List TimedCall}

theorem mem_identities {identity : String} :
    identity ∈ identities calls ↔ ∃ c ∈ calls, c.call.identity = identity := by
  simp [identities]

theorem identities_mono {calls calls' : List TimedCall} (h : calls ⊆ calls') :
    identities calls ⊆ identities calls' := by
  intro identity hid
  obtain ⟨c, hc, rfl⟩ := mem_identities.mp hid
  exact mem_identities.mpr ⟨c, h hc, rfl⟩

variable {t : FailureTracker} {c : TimedCall}

theorem lookup_apply_some (hen : t.policy.isEnabled = true)
    {who : String} (h : (t.apply c).records.lookup who = some r) :
    who = c.call.identity ∨ ∃ r', t.records.lookup who = some r' := by
  have heff := apply_effect t hen who c
  rw [h] at heff
  generalize ho : t.records.lookup who = o at heff
  cases heff with
  | kept => exact .inr ⟨r, rfl⟩
  | counted hc =>
    refine .inl ?_
    rw [hc]
    rfl

theorem room_of_named {ids : Finset String}
    (h : ∀ who r, t.records.lookup who = some r → who ∈ ids) (hids : ids.card ≤ 10000)
    {identity : String} (hid : identity ∈ ids) (now : Int) :
    (t.pruneIfDue now).records.size < 10000 ∨ identity ∈ (t.pruneIfDue now).records := by
  by_cases hmem : identity ∈ (t.pruneIfDue now).records
  · exact .inr hmem
  · refine .inl (Nat.lt_of_lt_of_le (AList.size_lt_card ?_ hid hmem) hids)
    intro who hwho
    obtain ⟨r, hr⟩ := Option.isSome_iff_exists.mp (AList.lookup_isSome.mpr hwho)
    exact h who r ((lookup_pruneIfDue t who now).eq_some hr)

structure Simulates (p : LockoutPolicy) (ids : Finset String) (now : Int) (t : FailureTracker)
    (t' : Reference) : Prop where
  policy : t.policy = p
  policy' : t'.policy = p
  stands : ∀ who, Stands p now (t.records.lookup who) (t'.records who)
  named : ∀ who r, t.records.lookup who = some r → who ∈ ids

section Step

variable {p : LockoutPolicy} {ids : Finset String} {now : Int} {t : FailureTracker} {t' : Reference}
  (h : Simulates p ids now t t')

include h

theorem Simulates.pruned (hle : now ≤ now') (who : String) :
    Stands p now' ((t.pruneIfDue now').records.lookup who) (t'.records who) := by
  refine ((h.stands who).mono hle).drop ?_
  have hprune := lookup_pruneIfDue t who now'
  rwa [h.policy] at hprune

theorem Simulates.room (hids : ids.card ≤ 10000) {identity : String} (hid : identity ∈ ids)
    (now' : Int) :
    (t.pruneIfDue now').records.size < 10000 ∨ identity ∈ (t.pruneIfDue now').records :=
  room_of_named h.named hids hid now'

theorem Simulates.check (hen : p.isEnabled = true) (identity : String) (hle : now ≤ now') :
    (t.check identity now').1 = t'.check identity now' ∧
      ∀ who, Stands p now' ((t.check identity now').2.records.lookup who) (t'.records who) := by
  have hpruned : ∀ who, Stands p now' ((if t.records.size ≥ 10000 then t.pruneIfDue now' else
      t).records.lookup who) (t'.records who) := by
    intro who
    split
    · exact h.pruned hle who
    · exact (h.stands who).mono hle
  have hpolicy : (if t.records.size ≥ 10000 then t.pruneIfDue now' else t).policy = p := by
    split
    · rw [pruneIfDue_policy, h.policy]
    · exact h.policy
  unfold FailureTracker.check Reference.check
  rw [h.policy, h.policy', if_pos hen, if_pos hen]
  dsimp only
  generalize (if t.records.size ≥ 10000 then t.pruneIfDue now' else t) = s at hpruned hpolicy
  by_cases hlen : identity.utf8ByteSize > 4096
  · rw [if_pos hlen, if_pos hlen]
    exact ⟨rfl, hpruned⟩
  · rw [if_neg hlen, if_neg hlen, (hpruned identity).statusAt_eq]
    cases statusAt (t'.records identity) now' with
    | some status => exact ⟨rfl, hpruned⟩
    | none =>
      refine ⟨rfl, fun who => (hpruned who).drop ?_⟩
      have hdrop := lookup_dropStale s who identity now'
      rwa [hpolicy] at hdrop

theorem Simulates.recordFailure (hen : p.isEnabled = true) (hids : ids.card ≤ 10000)
    {identity : String} (hid : identity ∈ ids) (hle : now ≤ now') :
    (t.recordFailure identity now').1 = (t'.recordFailure identity now').1 ∧
      ∀ who, Stands p now' ((t.recordFailure identity now').2.records.lookup who)
        ((t'.recordFailure identity now').2.records who) := by
  by_cases hlen : identity.utf8ByteSize ≤ 4096
  · obtain ⟨hstatus, hlookup⟩ := recordFailure_eq t (h.policy ▸ hen) hlen (h.room hids hid now')
    rw [h.policy, (h.pruned hle identity).failed_eq] at hstatus
    rw [hstatus]
    unfold Reference.recordFailure
    rw [h.policy', if_pos hen, if_neg (by omega)]
    refine ⟨rfl, fun who => ?_⟩
    rw [hlookup who, h.policy, (h.pruned hle identity).failed_eq]
    exact stands_update (h.pruned hle) identity _ who
  · -- an overlong identity is refused by both, and only pruning happens
    unfold FailureTracker.recordFailure Reference.recordFailure
    rw [h.policy, h.policy', if_pos hen, if_pos hen]
    dsimp only
    rw [if_pos (by omega), if_pos (by omega)]
    exact ⟨rfl, h.pruned hle⟩

theorem Simulates.recordSuccess (hen : p.isEnabled = true) (identity : String) (hle : now ≤ now')
    (who : String) : Stands p now' ((t.recordSuccess identity now').records.lookup who)
      ((t'.recordSuccess identity now').records who) := by
  have hstands := fun who => (h.stands who).mono hle
  rw [lookup_recordSuccess t (h.policy ▸ hen), (hstands identity).statusAt_eq]
  unfold Reference.recordSuccess
  rw [h.policy', if_pos hen]
  cases statusAt (t'.records identity) now' with
  | some status =>
    rw [if_neg fun hboth => nomatch hboth.2]
    exact hstands who
  | none =>
    simp only [and_true]
    exact stands_update hstands identity none who

theorem Simulates.step (hen : p.isEnabled = true) (hids : ids.card ≤ 10000)
    (hc : c.call.identity ∈ ids) (hle : now ≤ c.now) :
    t.answer c = t'.answer c ∧ Simulates p ids c.now (t.apply c) (t'.apply c) := by
  have hnamed : ∀ who r, (t.apply c).records.lookup who = some r → who ∈ ids := by
    intro who r hr
    rcases lookup_apply_some (h.policy ▸ hen) hr with rfl | ⟨r', hr'⟩
    · exact hc
    · exact h.named who r' hr'
  have hkeep : ∀ {s : Reference}, t'.apply c = s →
      (∀ who, Stands p c.now ((t.apply c).records.lookup who) (s.records who)) →
      Simulates p ids c.now (t.apply c) (t'.apply c) := by
    intro s hs hstands
    refine ⟨(FailureTracker.apply_policy t c).trans h.policy, (Reference.apply_policy t' c).trans
      h.policy', ?_, hnamed⟩
    rwa [hs]
  obtain ⟨call, at_⟩ := c
  cases call with
  | check identity =>
    obtain ⟨hstatus, hstands⟩ := h.check hen identity hle
    exact ⟨congrArg some hstatus, hkeep rfl hstands⟩
  | recordFailure identity =>
    obtain ⟨hstatus, hstands⟩ := h.recordFailure hen hids hc hle
    exact ⟨congrArg some hstatus, hkeep rfl hstands⟩
  | recordSuccess identity => exact ⟨rfl, hkeep rfl (h.recordSuccess hen identity hle)⟩

end Step

/-! ## Sequences of calls -/

theorem simulates_run (hen : p.isEnabled = true) (start : Int)
    {ids : Finset String} (hids : ids.card ≤ 10000) (calls : List TimedCall)
    (hclock : Monotonic calls) (hnamed : identities calls ⊆ ids) (hnow : ∀ c ∈ calls, c.now ≤ now) :
    Simulates p ids now ((new p start).run calls) ((Reference.new p).run calls) := by
  induction calls using List.reverseRecOn generalizing now with
  | nil => exact ⟨rfl, rfl, fun who => .inl rfl, fun who r hr => nomatch hr⟩
  | append_singleton calls c ih =>
    have hbefore := ih hclock.of_append.1
      ((identities_mono (List.subset_append_left calls [c])).trans hnamed) hclock.le_last
    have hc : c.call.identity ∈ ids := hnamed (mem_identities.mpr ⟨c, by simp, rfl⟩)
    have hstep := (hbefore.step hen hids hc (Int.le_refl _)).2
    rw [run_snoc, Reference.run_snoc]
    exact ⟨hstep.policy, hstep.policy', fun who => (hstep.stands who).mono (hnow c (by simp)),
      hstep.named⟩

theorem answer_disabled (hen : p.isEnabled = false)
    {t' : Reference} (ht : t.policy = p) (ht' : t'.policy = p) (c : TimedCall) :
    t.answer c = t'.answer c := by
  unfold FailureTracker.answer Reference.answer
  cases c.call with
  | check identity => simp [FailureTracker.check, Reference.check, ht, ht', hen]
  | recordFailure identity =>
    simp [FailureTracker.recordFailure, Reference.recordFailure, ht, ht', hen]
  | recordSuccess identity => rfl

/-- Pruning cannot be observed: over at most 10 000 identities and with a monotonic clock the
    tracker answers every sequence of calls as the reference does. -/
theorem pruning_unobservable (p : LockoutPolicy) (start : Int) (calls : List TimedCall)
    (hclock : Monotonic calls) (hids : (identities calls).card ≤ 10000) :
    (new p start).answers calls = (Reference.new p).answers calls := by
  suffices h : ∀ before, identities before ⊆ identities calls → Monotonic before →
      (new p start).answers before = (Reference.new p).answers before from
    h calls (Finset.Subset.refl _) hclock
  intro before
  induction before using List.reverseRecOn with
  | nil => exact fun _ _ => rfl
  | append_singleton before c ih =>
    intro hnamed hmono
    have hold := (identities_mono (List.subset_append_left before [c])).trans hnamed
    rw [FailureTracker.answers_snoc, Reference.answers_snoc, ih hold hmono.of_append.1]
    congr 2
    cases hen : p.isEnabled with
    | false => exact answer_disabled hen (run_policy _ _) (Reference.run_policy _ _) c
    | true =>
      have hsim := simulates_run hen start hids before hmono.of_append.1 hold hmono.le_last
      exact (hsim.step hen hids (hnamed (mem_identities.mpr ⟨c, by simp, rfl⟩)) (Int.le_refl _)).1

/-- The record of bob is pruned at 70 s, and eve is locked out all the same. -/
theorem pruning_unobservable_stale :
    let p : LockoutPolicy := ⟨2, fromSecs 60, fromSecs 5⟩
    let fail (n : Nat) (who : String) : TimedCall := ⟨.recordFailure who, fromSecs n⟩
    let calls := [fail 1 "bob", fail 69 "eve", fail 70 "eve", ⟨.check "eve", fromSecs 71⟩]
    ((new p 0).run calls).records.lookup "bob" = none ∧
      (new p 0).answers calls = (Reference.new p).answers calls ∧
      (Reference.new p).answers calls = [some .allowed, some .allowed,
        some (.lockedOut (fromSecs 5)), some (.lockedOut (fromSecs 4))] := by
  intro p fail calls
  refine ⟨by decide +kernel, pruning_unobservable p 0 calls ?_ (by decide +kernel), by decide +kernel⟩
  unfold Monotonic
  decide

end Kipuka.Auth
