/-
  The way of a CA from `Unavailable` back to `Healthy` (`src/ha/health.rs`, `src/ha/pool.rs`).
-/
import Kipuka.Ha.Breaker

namespace Kipuka.Ha

open Generic

variable {H : HaManager} {start : Int}

structure Outage where
  successes : Nat
  recovering : Bool
  deriving DecidableEq, Repr

def outageStep (outage : Option Outage) : Event → Option Outage
  | .health .healthy => none
  | .health .unavailable => some (outage.elim ⟨0, false⟩ fun o => { o with recovering := false })
  | .health .recovering => outage.map fun o => { o with recovering := true }
  | .answered => outage.map fun o => { o with successes := o.successes + 1 }
  | .unanswered => outage.map fun o => { o with successes := 0 }
  | _ => outage

def outageOf (events : List Event) : Option Outage := events.foldl outageStep none

theorem outageOf_concat (events : List Event) (e : Event) :
    outageOf (events ++ [e]) = outageStep (outageOf events) e := by
  rw [outageOf, List.foldl_append]
  rfl

/-! ## Where a request may end

  A request that succeeds while the CA is unavailable ends the outage without a probe. One that fails
  after the CA has answered a probe, and makes it unavailable then, starts an outage that the checker
  ends with an answer from before it. -/

def Stage.answer : Stage → Bool
  | .answered _ | .judged _ _ | .marked _ => true
  | _ => false

/-- A report that leaves an outage as it is: a success while the CA is up, or a failure that does not
    open the circuit while a probe holds an answer. -/
def Calm (H : HaManager) (n : Node) : Option Nat → Prop
  | some _ => n.status.health ≠ .unavailable
  | none => n.status.health ≠ .unavailable → H.failureThreshold ≤ n.status.failuresAfter →
      ∀ stage ∈ n.stage, stage.answer = false

/-- What is known of an outage in which a CA is: the answer counts from the moment it is there, and
    the CA is marked as recovering before the success is recorded. -/
def Recovers (n : Node) : Option Outage → Prop
  | none => n.status.health ≠ .unavailable ∧
      ∀ state latency, n.stage = some (.judged state latency) → state ≠ .unavailable
  | some o => match n.stage with
    | some (.answered _) => n.status.health = .unavailable ∧ o.successes = 1
    | some (.judged state _) => n.status.health = .unavailable ∧ o.successes = 1 ∧ state = .recovering
    | some (.marked _) => n.status.health ≠ .unavailable ∧ o.successes = 1 ∧ o.recovering = true
    | _ => n.status.health = .unavailable ∧ o.successes = 0

/-- Every outage ends with one answer, in recovery. -/
def ProperEnds (events : List Event) : Prop :=
  Throughout (fun before e => e = .health .healthy →
    ∀ o, outageOf before = some o → o.successes = 1 ∧ o.recovering = true) events

section

variable {events : List Event} {n : Node} {o : Option Outage} {now : Int}

theorem outageStep_none {state : HealthState} (h : state ≠ .unavailable) :
    outageStep none (.health state) = none := by
  cases state with
  | unavailable => exact absurd rfl h
  | _ => rfl

theorem judge_ne_unavailable (health : HealthState) (successes latency : Nat) :
    (judge H health successes latency).1 ≠ .unavailable := by
  cases health with
  | unavailable => simp [judge]
  | _ =>
    simp only [judge]
    split <;> simp

theorem recordFailure_of_unavailable {st : CaStatus} {k : Nat} (h : st.health = .unavailable) :
    (st.recordFailure k now).health = .unavailable := by
  rw [CaStatus.recordFailure_health, h]
  split <;> rfl

theorem recordFailure_ne_healthy (st : CaStatus) (k : Nat) :
    (st.recordFailure k now).health ≠ .healthy := by
  rw [CaStatus.recordFailure_health]
  split
  · simp
  · split
    · simp
    · assumption

theorem recordFailure_below {st : CaStatus} {k : Nat} (h : st.health ≠ .unavailable)
    (hk : ¬ k ≤ st.failuresAfter) : (st.recordFailure k now).health ≠ .unavailable := by
  rw [CaStatus.recordFailure_health, if_neg hk]
  split
  · simp
  · exact h

theorem Recovers.judged (h : Recovers n o) {state : HealthState} {latency : Nat}
    (hstage : n.stage = some (.judged state latency)) : state ≠ .unavailable := by
  cases o with
  | none => exact h.2 state latency hstage
  | some o =>
    simp only [Recovers, hstage] at h
    rw [h.2.2]
    simp

/-- No answer is being recorded. -/
def Quiet (stage : Option Stage) : Prop := ∀ s ∈ stage, s.answer = false

theorem recovers_quiet {st : CaStatus} {stage : Option Stage} {w : Option Int} (h : Quiet stage) :
    Recovers ⟨st, stage, w⟩ o ↔
      match o with
      | none => st.health ≠ .unavailable
      | some o => st.health = .unavailable ∧ o.successes = 0 := by
  rcases stage with _ | stage
  · cases o <;> simp [Recovers]
  · have hquiet := h stage rfl
    cases stage with
    | answered | judged | marked => cases hquiet
    | _ => cases o <;> simp [Recovers]

variable (now) in
theorem Recovers.failure (h : Recovers n o) (hcalm : Calm H n none) :
    Recovers { n with status := n.status.recordFailure H.failureThreshold now }
      (outageStep o (.health (n.status.recordFailure H.failureThreshold now).health)) := by
  obtain ⟨st, stage, w⟩ := n
  cases o with
  | none =>
    obtain ⟨hhealth, hjudged⟩ := h
    by_cases hk : H.failureThreshold ≤ st.failuresAfter
    · -- the outage starts here, with no answer under way
      have hstage := hcalm hhealth hk
      have hdown : (st.recordFailure H.failureThreshold now).health = .unavailable := by
        rw [CaStatus.recordFailure_health, if_pos hk]
      dsimp only
      rw [hdown]
      rcases stage with _ | stage
      · exact ⟨hdown, rfl⟩
      · have hquiet := hstage stage rfl
        cases stage with
        | answered | judged | marked => cases hquiet
        | _ => exact ⟨hdown, rfl⟩
    · have hup : (st.recordFailure H.failureThreshold now).health ≠ .unavailable :=
        recordFailure_below hhealth hk
      rw [outageStep_none hup]
      exact ⟨hup, hjudged⟩
  | some o =>
    have hdown {m : Prop} (h : st.health = .unavailable ∧ m) :
        (st.recordFailure H.failureThreshold now).health = .unavailable :=
      recordFailure_of_unavailable h.1
    rcases stage with _ | stage
    · dsimp only
      rw [hdown h]
      exact ⟨hdown h, h.2⟩
    cases stage with
    | marked latency =>
      obtain ⟨hhealth, hsuccesses, hrecovering⟩ := h
      have hk : ¬ H.failureThreshold ≤ st.failuresAfter := fun hk =>
        Bool.noConfusion (hcalm hhealth hk _ rfl)
      have hup : (st.recordFailure H.failureThreshold now).health ≠ .unavailable :=
        recordFailure_below hhealth hk
      have hnot : (st.recordFailure H.failureThreshold now).health ≠ .healthy :=
        recordFailure_ne_healthy st H.failureThreshold
      dsimp only
      generalize hstate : (st.recordFailure H.failureThreshold now).health = state at hup hnot
      rw [← hstate] at hup
      cases state with
      | healthy => exact absurd rfl hnot
      | unavailable => exact absurd hstate hup
      | degraded => exact ⟨hup, hsuccesses, hrecovering⟩
      | recovering => exact ⟨hup, hsuccesses, rfl⟩
    | _ =>
      dsimp only
      rw [hdown h]
      exact ⟨hdown h, h.2⟩

theorem ProperEnds.single (h : ProperEnds events) {e : Event} (he : ∀ state, e ≠ .health state) :
    ProperEnds (events ++ [e]) :=
  h.concat fun heq => absurd heq (he _)

theorem ProperEnds.failure (h : ProperEnds events) (st : CaStatus) :
    ProperEnds (events ++
      [.failure now, .health (st.recordFailure H.failureThreshold now).health]) := by
  rw [List.append_cons]
  refine (h.single (by simp)).concat fun heq => ?_
  exact absurd (Event.health.inj heq) (recordFailure_ne_healthy st H.failureThreshold)

theorem ProperEnds.success (h : ProperEnds events) (hrecovers : Recovers n (outageOf events))
    (hn : (∃ latency, n.stage = some (.marked latency)) ∨ n.status.health ≠ .unavailable) :
    ProperEnds (events ++ [.success now, .health .healthy]) := by
  rw [List.append_cons]
  refine (h.single (by simp)).concat fun _ o ho => ?_
  rw [outageOf_concat] at ho
  have ho : outageOf events = some o := ho
  rw [ho] at hrecovers
  obtain ⟨st, stage, w⟩ := n
  rcases stage with _ | stage
  · obtain ⟨latency, hmarked⟩ | hhealth := hn
    · cases hmarked
    · exact absurd hrecovers.1 hhealth
  cases stage with
  | marked latency => exact hrecovers.2
  | _ =>
    obtain ⟨latency, hmarked⟩ | hhealth := hn
    · cases hmarked
    · exact absurd hrecovers.1 hhealth

theorem outageOf_success (events : List Event) (now : Int) :
    outageOf (events ++ [.success now, .health .healthy]) = none := by
  rw [List.append_cons, outageOf_concat]
  rfl

theorem outageOf_failure (events : List Event) (now : Int) (state : HealthState) :
    outageOf (events ++ [.failure now, .health state]) =
      outageStep (outageOf events) (.health state) := by
  rw [List.append_cons, outageOf_concat, outageOf_concat]
  rfl

theorem recovers_step {n' : Node} {out : List Event} (h : Recovers n (outageOf events))
    (hends : ProperEnds events) (hstep : NodeStep H (Calm H) now n n' out) :
    Recovers n' (outageOf (events ++ out)) ∧ ProperEnds (events ++ out) := by
  cases hstep with
  | stay => rw [List.append_nil]; exact ⟨h, hends⟩
  | requestOk _ latency hcalm =>
    refine ⟨?_, hends.success h (.inr hcalm)⟩
    rw [outageOf_success]
    exact ⟨by simp [CaStatus.recordSuccess], fun state latency hstage => h.judged hstage⟩
  | requestFailed _ hcalm =>
    refine ⟨?_, hends.failure n.status⟩
    rw [outageOf_failure]
    exact h.failure _ hcalm
  | roundStarts st wakeAt hwake stage hstage =>
    rw [List.append_nil]
    refine ⟨(recovers_quiet ?_).mpr ((recovers_quiet (by simp [Quiet])).mp h), hends⟩
    obtain rfl | rfl := hstage <;> simp [Quiet, Stage.answer]
  | roundEnds | found =>
    rw [List.append_nil]
    exact ⟨(recovers_quiet (by simp [Quiet, Stage.answer])).mpr
      ((recovers_quiet (by simp [Quiet, Stage.answer])).mp h), hends⟩
  | probe | reprobe =>
    refine ⟨?_, hends.single (by simp)⟩
    rw [outageOf_concat]
    exact (recovers_quiet (by simp [Quiet, Stage.answer])).mpr
      ((recovers_quiet (by simp [Quiet, Stage.answer])).mp h)
  | skip | noAnswer =>
    refine ⟨(recovers_quiet (by simp [Quiet, Stage.answer])).mpr ?_, hends.single (by simp)⟩
    have hquiet := (recovers_quiet (by simp [Quiet, Stage.answer])).mp h
    rw [outageOf_concat]
    cases ho : outageOf events with
    | none =>
      rw [ho] at hquiet
      exact hquiet
    | some o =>
      rw [ho] at hquiet
      exact ⟨hquiet.1, rfl⟩
  | answer st w begun latency =>
    refine ⟨?_, hends.single (by simp)⟩
    have hquiet := (recovers_quiet (by simp [Quiet, Stage.answer])).mp h
    rw [outageOf_concat]
    cases ho : outageOf events with
    | none =>
      rw [ho] at hquiet
      exact ⟨hquiet, by simp⟩
    | some o =>
      rw [ho] at hquiet
      exact ⟨hquiet.1, congrArg (· + 1) hquiet.2⟩
  | judged st w successes latency =>
    rw [List.append_nil]
    refine ⟨?_, hends⟩
    cases ho : outageOf events with
    | none =>
      rw [ho] at h
      refine ⟨h.1, fun state _ hstage => ?_⟩
      cases hstage
      exact judge_ne_unavailable _ _ _
    | some o =>
      rw [ho] at h
      refine ⟨h.1, h.2, ?_⟩
      rw [h.1]
      rfl
  | mark st w state latency =>
    have hstate := h.judged rfl
    cases ho : outageOf events with
    | none =>
      rw [outageOf_concat, ho, outageStep_none hstate]
      exact ⟨⟨hstate, by simp⟩, hends.concat fun _ o' ho' => by cases ho.symm.trans ho'⟩
    | some o =>
      rw [ho] at h
      obtain ⟨-, hsuccesses, rfl⟩ := h
      rw [outageOf_concat, ho]
      exact ⟨⟨hstate, hsuccesses, rfl⟩, hends.concat fun heq => by cases heq⟩
  | succeed st w latency =>
    refine ⟨?_, hends.success h (.inl ⟨latency, rfl⟩)⟩
    rw [outageOf_success]
    exact ⟨by simp [CaStatus.recordSuccess], by simp⟩
  | fail st w =>
    refine ⟨?_, hends.failure st⟩
    rw [outageOf_failure]
    have hfailed := h.failure (H := H) now fun _ _ => by simp [Stage.answer]
    exact (recovers_quiet (by simp [Quiet])).mpr
      ((recovers_quiet (by simp [Quiet, Stage.answer])).mp hfailed)

end

/-! ## Recoveries -/

def recovery : List Input :=
  unanswered 0 5 ++ unanswered 30 5 ++ unanswered 30 5 ++ unanswered 30 5 ++
    ⟨fromSecs 30, .check (.ok ())⟩ :: List.replicate 6 ⟨0, .check (.ok ())⟩

/-- In a run in which no request succeeds while the CA is unavailable, and none makes it unavailable
    while an answer is being recorded, an unavailable CA becomes healthy after enough answered probes
    and in recovery if and only if one answer is enough. -/
theorem recovery_proper_iff (hr : 1 ≤ H.recoveryThreshold) (inputs : List Input) (id : CaId)
    (hcalm : RunMeets H (Calm H) id (H.initial start) inputs) (st : CaStatus)
    (hst : (H.machine.run (H.initial start) inputs).1.statuses.lookup id = some st)
    {before after : List Event} {o : Outage}
    (hevents : eventsOf id (H.machine.run (H.initial start) inputs).2 =
      before ++ .health .healthy :: after) (ho : outageOf before = some o) :
    (H.recoveryThreshold ≤ o.successes ∧ o.recovering = true) ↔ H.recoveryThreshold = 1 := by
  obtain ⟨-, hends⟩ := node_invariant_when (H := H)
    (P := fun _ events n => Recovers n (outageOf events) ∧ ProperEnds events)
    ⟨⟨by simp [CaStatus.new], by simp⟩, throughout_nil _⟩
    (fun _ _ events n n' out _ h hstep => recovers_step h.1 h.2 hstep) hcalm hst
  obtain ⟨hsuccesses, hrecovering⟩ := hends before _ after hevents rfl o ho
  rw [hsuccesses, and_iff_left hrecovering]
  omega

/-- With a threshold of one the recovery is as it should be. -/
theorem recovery_proper_of_one :
    ∃ before o, eventsOf "ca" (({ oneCa with recoveryThreshold := 1 } : HaManager).machine.run
        (HaManager.initial { oneCa with recoveryThreshold := 1 } 0) recovery).2 =
        before ++ [.health .healthy] ∧
      outageOf before = some o ∧ 1 ≤ o.successes ∧ o.recovering = true := by
  let H : HaManager := { oneCa with recoveryThreshold := 1 }
  obtain ⟨st, hst⟩ := Option.isSome_iff_exists.mp (show
    ((H.machine.run (H.initial 0) recovery).1.statuses.lookup "ca").isSome = true by
      decide +kernel)
  have hevents : eventsOf "ca" (H.machine.run (H.initial 0) recovery).2 =
      (eventsOf "ca" (H.machine.run (H.initial 0) recovery).2).take 19 ++ [.health .healthy] := by
    decide +kernel
  have ho : outageOf ((eventsOf "ca" (H.machine.run (H.initial 0) recovery).2).take 19) =
      some ⟨1, true⟩ := by decide +kernel
  have hcalm : RunMeets H (Calm H) "ca" (H.initial 0) recovery :=
    runMeets_of_checks (by simp [recovery, unanswered]) "ca" _
  refine ⟨_, _, hevents, ho, ?_⟩
  exact (recovery_proper_iff (H := H) (by decide) recovery "ca" hcalm st hst hevents ho).mpr rfl

/-- The default threshold is two, and one answer is enough. -/
theorem healthy_after_one_answer :
    ∃ before, eventsOf "ca" (oneCa.machine.run (oneCa.initial 0) recovery).2 =
        before ++ [.health .healthy] ∧
      outageOf before = some ⟨1, true⟩ ∧ ¬ oneCa.recoveryThreshold ≤ 1 := by
  refine ⟨(eventsOf "ca" (oneCa.machine.run (oneCa.initial 0) recovery).2).take 19, ?_, ?_, ?_⟩
  · decide +kernel
  · decide +kernel
  · decide

end Kipuka.Ha
