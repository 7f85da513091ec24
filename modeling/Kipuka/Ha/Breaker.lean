/-
  The circuit breaker (`src/ha/pool.rs`, `src/ha/health.rs`). Requests and probes write to the
  status of a CA in single steps. Over every run the status says what the log of the CA says, the
  failures since the last success. The counter is taken below the limit of its 32 bits.
-/
import Kipuka.Ha.Health

namespace Kipuka.Ha

open Generic

variable {H : HaManager} {start : Int}

/-! ## An outage under the default configuration -/

def oneCa : HaManager where
  connections := [⟨"ca", "local:ca", 1, 0⟩]
  nodup := by decide
  strategy := .activePassive
  failureThreshold := 3
  cooldown := fromSecs 60
  probeInterval := fromSecs 30
  recoveryThreshold := 2
  degradedLatencyMs := 2000

def unanswered (elapsed steps : Nat) : List Input :=
  ⟨fromSecs elapsed, .check (.error "timeout")⟩ ::
    List.replicate (steps - 1) ⟨0, .check (.error "timeout")⟩

def outage : List Input :=
  unanswered 0 5 ++ unanswered 30 5 ++ unanswered 30 5 ++ unanswered 30 5 ++ unanswered 30 6 ++
    unanswered 30 3

def outageEvents : List Event := eventsOf "ca" (oneCa.machine.run (oneCa.initial 0) outage).2

/-! ## The streak of failures -/

def streakStep (failures : List Int) : Event → List Int
  | .success _ => []
  | .failure now => failures ++ [now]
  | _ => failures

def streak (events : List Event) : List Int := events.foldl streakStep []

theorem streak_append (events out : List Event) :
    streak (events ++ out) = out.foldl streakStep (streak events) := List.foldl_append

def healthAfter (k failures : Nat) : HealthState :=
  if k ≤ failures then .unavailable else if failures = 0 then .healthy else .degraded

variable {k : Nat}

theorem healthAfter_spec (hk : 1 ≤ k) (failures : Nat) :
    (healthAfter k failures = .unavailable ↔ k ≤ failures) ∧
      (healthAfter k failures = .healthy ↔ failures = 0) ∧
      (healthAfter k failures = .degraded ↔ 0 < failures ∧ failures < k) := by
  unfold healthAfter
  by_cases hle : k ≤ failures
  · rw [if_pos hle]
    refine ⟨by simp [hle], by simp; omega, by simp; omega⟩
  · rw [if_neg hle]
    by_cases hzero : failures = 0
    · rw [if_pos hzero]
      refine ⟨by simp; omega, by simp [hzero], by simp; omega⟩
    · rw [if_neg hzero]
      refine ⟨by simp; omega, by simp; omega, by simp; omega⟩

structure Tracks (k : Nat) (failures : List Int) (status : CaStatus) : Prop where
  consecutiveFailures : status.consecutiveFailures = failures.length
  circuitOpenSince : status.circuitOpenSince = failures[k - 1]?
  health : status.health = healthAfter k failures.length

theorem tracks_new (hk : 1 ≤ k) : Tracks k [] .new :=
  ⟨rfl, rfl, (if_neg (Nat.not_le.mpr hk)).symm⟩

theorem tracks_recordSuccess (hk : 1 ≤ k) (status : CaStatus) (latency : Nat)
    (now : Int) : Tracks k [] (status.recordSuccess latency now) :=
  ⟨rfl, rfl, (if_neg (Nat.not_le.mpr hk)).symm⟩

variable {failures : List Int} {status : CaStatus}

theorem Tracks.recordFailure (hk : 1 ≤ k)
    (h : Tracks k failures status) (hlen : failures.length + 1 < 2 ^ 32) (now : Int) :
    Tracks k (failures ++ [now]) (status.recordFailure k now) := by
  have hcount : status.failuresAfter = failures.length + 1 := by
    rw [CaStatus.failuresAfter, h.consecutiveFailures, Nat.mod_eq_of_lt hlen]
  have hopen : status.health = .unavailable ↔ k ≤ failures.length := by
    rw [h.health]
    exact (healthAfter_spec hk _).1
  constructor
  · rw [CaStatus.recordFailure_consecutiveFailures, hcount, List.length_append,
      List.length_singleton]
  · rw [CaStatus.recordFailure_circuitOpenSince, hcount, h.circuitOpenSince]
    by_cases hthis : k = failures.length + 1
    · -- the failure that reaches the threshold
      rw [if_pos ⟨by omega, by rw [Ne, hopen]; omega⟩, List.getElem?_append_right (by omega)]
      simp [hthis]
    · rw [if_neg (by rw [Ne, hopen]; omega)]
      by_cases hle : k ≤ failures.length
      · rw [List.getElem?_append_left (by omega)]
      · rw [List.getElem?_eq_none (by omega), List.getElem?_eq_none (by simp; omega)]
  · rw [CaStatus.recordFailure_health, hcount, List.length_append, List.length_singleton, h.health]
    unfold healthAfter
    by_cases hle : k ≤ failures.length + 1
    · rw [if_pos hle, if_pos hle]
    · have hlt : ¬ k ≤ failures.length := by omega
      rw [if_neg hle, if_neg hle, if_neg hlt, if_neg (Nat.succ_ne_zero _)]
      by_cases hzero : failures.length = 0
      · simp [hzero]
      · simp [hzero]

/-- No probe has marked the node and not yet recorded its latency. -/
def Node.Settled (n : Node) : Prop := ∀ latency, n.stage ≠ some (.marked latency)

theorem tracks_streak (hk : 1 ≤ H.failureThreshold) (inputs : List Input) (id : CaId)
    (st : CaStatus)
    (hst : (H.machine.run (H.initial start) inputs).1.statuses.lookup id = some st)
    (hsettled : ((H.machine.run (H.initial start) inputs).1.node id st).Settled)
    (hlen : (streak (eventsOf id (H.machine.run (H.initial start) inputs).2)).length < 2 ^ 32) :
    Tracks H.failureThreshold (streak (eventsOf id (H.machine.run (H.initial start) inputs).2))
      st := by
  refine node_invariant (P := fun _ events n => n.Settled → (streak events).length < 2 ^ 32 →
    Tracks H.failureThreshold (streak events) n.status) ?_ ?_ inputs id st hst hsettled hlen
  · exact fun _ _ => tracks_new hk
  · intro now now' events n n' out _ hP hstep hsettled' hlen'
    rw [streak_append] at hlen' ⊢
    cases hstep with
    | requestOk | succeed => exact tracks_recordSuccess hk _ _ _
    | requestFailed =>
      simp only [List.foldl_cons, List.foldl_nil, streakStep, List.length_append,
        List.length_singleton] at hlen'
      exact (hP hsettled' (by omega)).recordFailure hk hlen' now'
    | fail st w =>
      simp only [List.foldl_cons, List.foldl_nil, streakStep, List.length_append,
        List.length_singleton] at hlen'
      exact (hP (by simp [Node.Settled]) (by omega)).recordFailure hk hlen' now'
    | mark st w state latency => exact absurd rfl (hsettled' latency)
    | stay => exact hP hsettled' hlen'
    | _ => exact hP (by simp [Node.Settled]) hlen'

theorem Tracks.spec (hk : 1 ≤ k) (h : Tracks k failures status) :
    (status.health = .unavailable ↔ k ≤ status.consecutiveFailures) ∧
      (status.health = .unavailable ↔ status.circuitOpenSince.isSome = true) ∧
      (status.health = .healthy ↔ status.consecutiveFailures = 0) ∧
      (status.health = .degraded ↔
        0 < status.consecutiveFailures ∧ status.consecutiveFailures < k) ∧
      status.circuitOpenSince = failures[k - 1]? := by
  obtain ⟨hunavailable, hhealthy, hdegraded⟩ := healthAfter_spec hk failures.length
  have hopen : status.circuitOpenSince.isSome = true ↔ k ≤ failures.length := by
    rw [h.circuitOpenSince, Option.isSome_iff_ne_none, Ne, List.getElem?_eq_none_iff]
    omega
  rw [hopen, h.consecutiveFailures, h.health]
  exact ⟨hunavailable, hunavailable, hhealthy, hdegraded, h.circuitOpenSince⟩

/-- After every run of requests and probes, and at every moment except between the two writes that
    record an answer: a CA is unavailable exactly when it has failed often enough in a row, exactly
    when its breaker is open, healthy exactly when it has not failed, and the breaker opened at the
    failure that reached the threshold. -/
theorem breaker_tracks_streak (hk : 1 ≤ H.failureThreshold) (inputs : List Input) (id : CaId)
    (st : CaStatus)
    (hst : (H.machine.run (H.initial start) inputs).1.statuses.lookup id = some st)
    (hsettled : ((H.machine.run (H.initial start) inputs).1.node id st).Settled)
    (hlen : (streak (eventsOf id (H.machine.run (H.initial start) inputs).2)).length < 2 ^ 32) :
    st.consecutiveFailures =
        (streak (eventsOf id (H.machine.run (H.initial start) inputs).2)).length ∧
      (st.health = .unavailable ↔ H.failureThreshold ≤ st.consecutiveFailures) ∧
      (st.health = .unavailable ↔ st.circuitOpenSince.isSome = true) ∧
      (st.health = .healthy ↔ st.consecutiveFailures = 0) ∧
      (st.health = .degraded ↔
        0 < st.consecutiveFailures ∧ st.consecutiveFailures < H.failureThreshold) ∧
      st.circuitOpenSince =
        (streak (eventsOf id (H.machine.run (H.initial start) inputs).2))[
          H.failureThreshold - 1]? := by
  have htracks := tracks_streak hk inputs id st hst hsettled hlen
  exact ⟨htracks.consecutiveFailures, htracks.spec hk⟩

theorem breaker_open_in_outage :
    ∃ st, (oneCa.machine.run (oneCa.initial 0) outage).1.statuses.lookup "ca" = some st ∧
      st.health = .unavailable ∧ st.circuitOpenSince = some (fromSecs 60) := by
  obtain ⟨st, hst⟩ := Option.isSome_iff_exists.mp (show
    ((oneCa.machine.run (oneCa.initial 0) outage).1.statuses.lookup "ca").isSome = true by
      decide +kernel)
  have hstage : (oneCa.machine.run (oneCa.initial 0) outage).1.stageOf "ca" =
      some (.probing (fromSecs 150)) := by decide +kernel
  obtain ⟨hcount, hunavailable, -, -, -, hopened⟩ :=
    breaker_tracks_streak (H := oneCa) (by decide) outage "ca" st hst
      (by simp [Node.Settled, HaState.node, hstage]) (by decide +kernel)
  refine ⟨st, hst, hunavailable.mpr ?_, hopened.trans (by decide +kernel)⟩
  rw [hcount]
  decide +kernel

/-! ## Probes of an unavailable CA -/

def lastProbeStep (last : Option (Int × Bool)) : Event → Option (Int × Bool)
  | .probed now reprobe => some (now, reprobe)
  | _ => last

/-- The last probe that asked the CA: its time, and whether the CA was unavailable. -/
def lastProbe (events : List Event) : Option (Int × Bool) := events.foldl lastProbeStep none

theorem lastProbe_append (events out : List Event) :
    lastProbe (events ++ out) = out.foldl lastProbeStep (lastProbe events) := List.foldl_append

/-- Two probes with no other one between them, the second of a CA that is unavailable then and was
    at every change of its health since the first. -/
def ProbedTwice (events : List Event) (t₁ : Int) (reprobe : Bool) (t₂ : Int) : Prop :=
  ∃ before between after,
    events = (before ++ .probed t₁ reprobe :: between) ++ .probed t₂ true :: after ∧
      (∀ t r, Event.probed t r ∉ between) ∧ ∀ state, .health state ∈ between → state = .unavailable

theorem foldl_lastProbeStep {out : List Event} (h : ∀ t r, Event.probed t r ∉ out)
    (last : Option (Int × Bool)) : out.foldl lastProbeStep last = last := by
  induction out generalizing last with
  | nil => rfl
  | cons e out ih =>
    have hsame : lastProbeStep last e = last := by
      cases e with
      | probed t r => exact absurd List.mem_cons_self (h t r)
      | _ => rfl
    rw [List.foldl_cons, hsame]
    exact ih (fun t r hmem => h t r (List.mem_cons_of_mem e hmem)) last

theorem lastProbe_between {before between : List Event} {t : Int} {r : Bool}
    (h : ∀ t r, Event.probed t r ∉ between) :
    lastProbe (before ++ .probed t r :: between) = some (t, r) := by
  rw [lastProbe_append, List.foldl_cons]
  exact foldl_lastProbeStep h _

/-- The breaker of a CA that was last asked in the probe `last`: it is open only while the CA is
    unavailable, and if the CA was not unavailable at that probe, it opened after it. -/
structure OpenedAfter (last : Option (Int × Bool)) (status : CaStatus) : Prop where
  unavailable : status.circuitOpenSince ≠ none → status.health = .unavailable
  opened : ∀ t, last = some (t, false) →
    ∀ opened, status.circuitOpenSince = some opened → t ≤ opened

variable {last : Option (Int × Bool)}

theorem openedAfter_of_closed (h : status.circuitOpenSince = none) : OpenedAfter last status where
  unavailable hopen := absurd h hopen
  opened t _ o ho := by
    rw [h] at ho
    cases ho

theorem OpenedAfter.recordFailure
    (h : OpenedAfter last status) {now : Int} (hpast : ∀ t r, last = some (t, r) → t ≤ now)
    (k : Nat) : OpenedAfter last (status.recordFailure k now) := by
  constructor
  · rw [CaStatus.recordFailure_circuitOpenSince, CaStatus.recordFailure_health]
    by_cases hk : k ≤ status.failuresAfter
    · simp [hk]
    · intro hopen
      rw [if_neg fun hand => hk hand.1] at hopen
      rw [if_neg hk, h.unavailable hopen]
      rfl
  · intro t hlast o ho
    rw [CaStatus.recordFailure_circuitOpenSince] at ho
    split at ho
    · cases ho
      exact hpast t false hlast
    · exact h.opened t hlast o ho

def Turn (stage : Option Stage) : Prop :=
  stage = some .idle ∨ ∃ s, stage = some (.circuitOpen s)

structure Spaced (H : HaManager) (now : Int) (events : List Event) (n : Node) : Prop where
  inRound : n.stage ≠ none → n.wakeAt = none
  breaker : n.Settled → OpenedAfter (lastProbe events) n.status
  past : ∀ t r, lastProbe events = some (t, r) → t ≤ now
  /-- It is one interval back when the CA's turn comes, and when the next round starts. -/
  turn : ∀ t r, lastProbe events = some (t, r) → Turn n.stage → t + H.probeInterval ≤ now
  asleep : ∀ t r, lastProbe events = some (t, r) →
    ∀ wakeAt, n.wakeAt = some wakeAt → t + H.probeInterval ≤ wakeAt

theorem spaced_new : Spaced H start [] ⟨.new, none, some start⟩ where
  inRound h := absurd rfl h
  breaker _ := openedAfter_of_closed rfl
  past _ _ h := by cases h
  turn _ _ h := by cases h
  asleep _ _ h := by cases h

section

variable {now now' : Int} {events out : List Event} {n n' : Node}
  {C : Node → Option Nat → Prop}

theorem Spaced.move (h : Spaced H now events n) (hle : now ≤ now')
    (hout : ∀ t r, Event.probed t r ∉ out) (hwake : n'.wakeAt = n.wakeAt)
    (hround : n'.stage ≠ none → n.stage ≠ none) (hturn : Turn n'.stage → Turn n.stage)
    (hbreaker : n'.Settled → OpenedAfter (lastProbe events) n'.status) :
    Spaced H now' (events ++ out) n' := by
  have hlast : lastProbe (events ++ out) = lastProbe events := by
    rw [lastProbe_append]
    exact foldl_lastProbeStep hout _
  constructor
  · intro hstage
    rw [hwake]
    exact h.inRound (hround hstage)
  · rwa [hlast]
  · intro t r ht
    rw [hlast] at ht
    exact (h.past t r ht).trans hle
  · intro t r ht hstage
    rw [hlast] at ht
    exact (h.turn t r ht (hturn hstage)).trans hle
  · intro t r ht wakeAt hw
    rw [hlast] at ht
    rw [hwake] at hw
    exact h.asleep t r ht wakeAt hw

theorem not_turn_none : ¬ Turn none := by simp [Turn]

variable {st : CaStatus} {w : Option Int} {begun : Int}

theorem Spaced.asked {stage : Stage} {reprobe : Bool} (h : Spaced H now events ⟨st, some stage, w⟩)
    (hbreaker : OpenedAfter (some (now', reprobe)) st) :
    Spaced H now' (events ++ [.probed now' reprobe]) ⟨st, some (.probing begun), w⟩ := by
  have hlast : lastProbe (events ++ [.probed now' reprobe]) = some (now', reprobe) :=
    lastProbe_between (by simp : ∀ t r, Event.probed t r ∉ [])
  have hwake : w = none := h.inRound (by simp)
  subst hwake
  constructor
  · exact fun _ => rfl
  · exact fun _ => hlast ▸ hbreaker
  · intro t r ht
    rw [hlast] at ht
    cases ht
    exact le_rfl
  · intro t r _ hturn
    simp [Turn] at hturn
  · intro t r _ wakeAt hw
    cases hw

theorem spaced_step (h : Spaced H now events n) (hle : now ≤ now')
    (hstep : NodeStep H C now' n n' out) : Spaced H now' (events ++ out) n' := by
  have hpast : ∀ t r, lastProbe events = some (t, r) → t ≤ now' :=
    fun t r ht => (h.past t r ht).trans hle
  cases hstep with
  | stay => exact h.move hle (by simp) rfl id id h.breaker
  | requestOk latency =>
    exact h.move hle (by simp) rfl id id fun _ => openedAfter_of_closed rfl
  | requestFailed =>
    exact h.move hle (by simp) rfl id id fun hs => (h.breaker hs).recordFailure hpast _
  | roundStarts st wakeAt hwake stage hstage =>
    rw [List.append_nil]
    refine ⟨fun _ => rfl, fun _ => h.breaker (by simp [Node.Settled]), hpast, ?_, ?_⟩
    · intro t r ht _
      exact (h.asleep t r ht wakeAt rfl).trans hwake
    · intro t r _ w hw
      cases hw
  | roundEnds st =>
    rw [List.append_nil]
    refine ⟨fun hstage => absurd rfl hstage, h.breaker, hpast, ?_, ?_⟩
    · intro t r _ hturn
      exact absurd hturn not_turn_none
    · intro t r ht w hw
      cases hw
      have := hpast t r ht
      omega
  | found st w hst =>
    exact h.move hle (by simp) rfl (by simp) (fun _ => .inl rfl)
      fun _ => h.breaker (by simp [Node.Settled])
  | probe st w hst =>
    refine h.asked (openedAfter_of_closed ?_)
    by_contra hopen
    exact hst ((h.breaker (by simp [Node.Settled])).unavailable hopen)
  | reprobe st w begun hst =>
    have hopen := h.breaker (by simp [Node.Settled])
    exact h.asked ⟨hopen.unavailable, fun t ht => by cases ht⟩
  | skip | answer | noAnswer | judged =>
    exact h.move hle (by simp) rfl (by simp) (by simp [Turn])
      fun _ => h.breaker (by simp [Node.Settled])
  | mark st w state latency =>
    exact h.move hle (by simp) rfl (by simp) (by simp [Turn])
      fun hs => absurd rfl (hs latency)
  | succeed st w latency =>
    exact h.move hle (by simp) rfl (by simp) (fun hturn => absurd hturn not_turn_none)
      fun _ => openedAfter_of_closed rfl
  | fail st w =>
    exact h.move hle (by simp) rfl (by simp) (fun hturn => absurd hturn not_turn_none)
      fun _ => (h.breaker (by simp [Node.Settled])).recordFailure hpast _

/-- A probe of an unavailable CA comes a cooldown after the last one, if that was not a probe of the
    unavailable CA too or the rounds are that far apart. -/
def Apart (H : HaManager) (before : List Event) (e : Event) : Prop :=
  ∀ t₂, e = .probed t₂ true → ∀ t₁ reprobe, lastProbe before = some (t₁, reprobe) →
    reprobe = false ∨ H.cooldown ≤ H.probeInterval → t₁ + H.cooldown ≤ t₂

theorem Spaced.apart (h : Spaced H now events ⟨st, some (.circuitOpen begun), w⟩) (hle : now ≤ now')
    (hst : st.shouldReprobe H.cooldown now' = true) : Apart H events (.probed now' true) := by
  intro t₂ ht₂ t₁ reprobe hlast hcond
  cases ht₂
  rcases hcond with rfl | hinterval
  · obtain ⟨opened, hopened, hcooldown⟩ := (Option.any_eq_true _ _).mp hst
    have hafter := (h.breaker (by simp [Node.Settled])).opened t₁ hlast opened hopened
    have hpast := h.past t₁ false hlast
    rw [decide_eq_true_eq, durationSince] at hcooldown
    omega
  · have hturn := h.turn t₁ reprobe hlast (.inr ⟨begun, rfl⟩)
    omega

theorem apart_step (h : Spaced H now events n) (hle : now ≤ now')
    (hthroughout : Throughout (Apart H) events) (hstep : NodeStep H C now' n n' out) :
    Throughout (Apart H) (events ++ out) := by
  cases hstep with
  | reprobe st w begun hst => exact hthroughout.concat (h.apart hle hst)
  | _ =>
    refine hthroughout.append ?_
    intro e he before t₂ ht₂
    subst ht₂
    simp at he

end

/-- Two probes of a CA that stays unavailable between them are at least the cooldown apart if the
    first one found the CA not yet unavailable, or if the rounds are the cooldown apart. -/
theorem probes_apart (inputs : List Input) (id : CaId) (st : CaStatus)
    (hst : (H.machine.run (H.initial start) inputs).1.statuses.lookup id = some st)
    {t₁ t₂ : Int} {reprobe : Bool}
    (hprobes : ProbedTwice (eventsOf id (H.machine.run (H.initial start) inputs).2) t₁ reprobe t₂)
    (hcond : reprobe = false ∨ H.cooldown ≤ H.probeInterval) : t₁ + H.cooldown ≤ t₂ := by
  obtain ⟨-, hthroughout⟩ := node_invariant
    (P := fun now events n => Spaced H now events n ∧ Throughout (Apart H) events)
    ⟨spaced_new, throughout_nil _⟩
    (fun now now' events n n' out hle h hstep =>
      ⟨spaced_step h.1 hle hstep, apart_step h.1 hle h.2 hstep⟩) inputs id st hst
  obtain ⟨before, between, after, hevents, hbetween, -⟩ := hprobes
  exact hthroughout _ _ after hevents t₂ rfl t₁ reprobe (lastProbe_between hbetween) hcond

theorem reprobed_every_round :
    ProbedTwice outageEvents (fromSecs 120) true (fromSecs 150) ∧
      ¬ ((fromSecs 120 : Int) + oneCa.cooldown ≤ fromSecs 150) := by
  refine ⟨⟨outageEvents.take 15,
    [.unanswered, .failure (fromSecs 120), .health .unavailable], [], ?_, ?_, ?_⟩, by decide⟩
  · decide +kernel
  · simp
  · simp

theorem first_reprobe_apart : (fromSecs 60 : Int) + oneCa.cooldown ≤ fromSecs 120 := by
  obtain ⟨st, hst⟩ := Option.isSome_iff_exists.mp (show
    ((oneCa.machine.run (oneCa.initial 0) outage).1.statuses.lookup "ca").isSome = true by
      decide +kernel)
  suffices hprobes : ProbedTwice outageEvents (fromSecs 60) false (fromSecs 120) from
    probes_apart outage "ca" st hst hprobes (.inl rfl)
  refine ⟨outageEvents.take 8, [.unanswered, .failure (fromSecs 60), .health .unavailable,
    .unanswered, .failure (fromSecs 90), .health .unavailable], outageEvents.drop 16, ?_, ?_, ?_⟩
  · decide +kernel
  · simp
  · simp

end Kipuka.Ha
