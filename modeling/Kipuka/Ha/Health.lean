/-
  The health checker (`src/ha/health.rs`) beside the requests that use the pool.
-/
import Kipuka.Generic.Machine
import Kipuka.Ha.Pool

namespace Kipuka.Ha

open Generic

/-! ## The checker -/

structure ProbeMetrics where
  lastCheck : Option Int
  consecutiveFailures : Nat
  consecutiveSuccesses : Nat
  lastLatency : Option Nat
  deriving DecidableEq, Repr

def ProbeMetrics.new : ProbeMetrics := ⟨none, 0, 0, none⟩

structure HaManager extends CaPool where
  probeInterval : Nat
  recoveryThreshold : Nat
  degradedLatencyMs : Nat

inductive Stage where
  /-- It is next. -/
  | idle
  /-- It was found unavailable; whether its cooldown is over is read next. -/
  | circuitOpen (start : Int)
  /-- It is being asked. -/
  | probing (start : Int)
  /-- It answered. -/
  | answered (latency : Nat)
  /-- The new health is decided and not yet set. -/
  | judged (state : HealthState) (latency : Nat)
  /-- The new health is set, and the success is not yet recorded. -/
  | marked (latency : Nat)
  /-- The probe failed, and the failure is not yet recorded. -/
  | failed
  deriving DecidableEq, Repr

inductive Event where
  | success (now : Int)
  | failure (now : Int)
  | health (state : HealthState)
  | probed (now : Int) (reprobe : Bool)
  | answered
  | unanswered
  deriving DecidableEq, Repr

inductive Entry where
  | ca (id : CaId) (event : Event)
  /-- A selection, with the value of the counter that it took. -/
  | picked (allowed : List String) (ticket : Nat) (pick : CaId)
  deriving DecidableEq, Repr

structure HaState where
  clock : Int
  statuses : Statuses
  counter : Nat
  metrics : Table CaId ProbeMetrics
  /-- The CAs of this round that are not done, the current one first. -/
  remaining : List CaId
  stage : Stage
  /-- The end of the sleep, or `none` in a round. -/
  wakeAt : Option Int

inductive Act where
  /-- A request to a CA has ended, with its latency if it succeeded. -/
  | request (id : CaId) (latency : Option Nat)
  | select (allowed : List String)
  /-- The next step of the checker; `result` is the CA's answer where one is waited for. -/
  | check (result : Except String Unit)

structure Input where
  elapsed : Nat
  act : Act

def tagged (id : CaId) (events : List Event) : List Entry := events.map (Entry.ca id)

/-! ### Writes to the pool -/

/-- A write under the lock: the CA's new status, and what is logged. An unknown CA has none. -/
def HaState.update (s : HaState) (id : CaId) (f : CaStatus → CaStatus × List Event) :
    HaState × List Entry :=
  match s.statuses.lookup id with
  | none => (s, [])
  | some status =>
    ({ s with statuses := s.statuses.insert id (f status).1 }, tagged id (f status).2)

def recordSuccess (s : HaState) (id : CaId) (latency : Nat) : HaState × List Entry :=
  s.update id fun status =>
    (status.recordSuccess latency s.clock, [.success s.clock, .health .healthy])

def recordFailure (H : HaManager) (s : HaState) (id : CaId) : HaState × List Entry :=
  s.update id fun status =>
    let status' := status.recordFailure H.failureThreshold s.clock
    (status', [.failure s.clock, .health status'.health])

def setHealth (s : HaState) (id : CaId) (state : HealthState) : HaState × List Entry :=
  s.update id fun status => (status.setHealth state, [.health state])

def selectAllowed (H : HaManager) (s : HaState) (allowed : List String) : HaState × List Entry :=
  let choice := H.toCaPool.selectAllowed s.statuses s.counter allowed
  ({ s with counter := choice.2 },
    choice.1.toList.map fun conn => .picked allowed s.counter conn.id)

/-! ### A probe -/

def metricsOf (s : HaState) (id : CaId) : ProbeMetrics := (s.metrics.lookup id).getD .new

def noteFailure (s : HaState) (id : CaId) (start : Int) : HaState :=
  let m := metricsOf s id
  { s with
    metrics := s.metrics.insert id
      { lastCheck := some s.clock
        lastLatency := some (durationSince s.clock start)
        consecutiveFailures := (m.consecutiveFailures + 1) % 2 ^ 32
        consecutiveSuccesses := 0 }
    stage := .failed }

def noteSuccess (s : HaState) (id : CaId) (start : Int) : HaState :=
  let m := metricsOf s id
  { s with
    metrics := s.metrics.insert id
      { lastCheck := some s.clock
        lastLatency := some (durationSince s.clock start)
        consecutiveFailures := 0
        consecutiveSuccesses := (m.consecutiveSuccesses + 1) % 2 ^ 32 }
    stage := .answered (durationSince s.clock start) }

/-- The new health after an answer, and the successes that are counted from then on. -/
def judge (H : HaManager) (health : HealthState) (successes latency : Nat) : HealthState × Nat :=
  match health with
  | .unavailable => (.recovering, 1)
  | .recovering =>
    if H.recoveryThreshold ≤ successes then (.healthy, successes) else (.recovering, successes)
  | .degraded | .healthy =>
    if H.degradedLatencyMs < latency / 1000000 % 2 ^ 64 then (.degraded, successes)
    else (.healthy, successes)

def healthOf (s : HaState) (id : CaId) : HealthState :=
  (s.statuses.lookup id).elim .healthy CaStatus.health

def judgeAnswer (H : HaManager) (s : HaState) (id : CaId) (latency : Nat) : HaState :=
  let m := metricsOf s id
  let verdict := judge H (healthOf s id) m.consecutiveSuccesses latency
  { s with
    metrics := s.metrics.insert id { m with consecutiveSuccesses := verdict.2 }
    stage := .judged verdict.1 latency }

def nextCa (rest : List CaId) (r : HaState × List Entry) : HaState × List Entry :=
  ({ r.1 with remaining := rest, stage := .idle }, r.2)

def probeStep (H : HaManager) (s : HaState) (id : CaId) (rest : List CaId)
    (result : Except String Unit) : HaState × List Entry :=
  match s.stage with
  | .idle =>
    if (s.statuses.lookup id).any fun status => status.health = .unavailable then
      ({ s with stage := .circuitOpen s.clock }, [])
    else ({ s with stage := .probing s.clock }, tagged id [.probed s.clock false])
  | .circuitOpen start =>
    if (s.statuses.lookup id).any fun status => status.shouldReprobe H.cooldown s.clock then
      ({ s with stage := .probing start }, tagged id [.probed s.clock true])
    else (noteFailure s id start, tagged id [.unanswered])
  | .probing start =>
    match result with
    | .ok () => (noteSuccess s id start, tagged id [.answered])
    | .error _ => (noteFailure s id start, tagged id [.unanswered])
  | .answered latency => (judgeAnswer H s id latency, [])
  | .judged state latency =>
    let r := setHealth s id state
    ({ r.1 with stage := .marked latency }, r.2)
  | .marked latency => nextCa rest (recordSuccess s id latency)
  | .failed => nextCa rest (recordFailure H s id)

def checkStep (H : HaManager) (s : HaState) (result : Except String Unit) : HaState × List Entry :=
  match s.remaining, s.wakeAt with
  | id :: rest, _ => probeStep H s id rest result
  | [], none => ({ s with wakeAt := some (s.clock + H.probeInterval) }, [])
  | [], some wakeAt =>
    if wakeAt ≤ s.clock then
      ({ s with
          remaining := H.connections.map CaConnection.id
          stage := .idle
          wakeAt := none }, [])
    else (s, [])

/-! ### The machine -/

def HaManager.act (H : HaManager) (s : HaState) : Act → HaState × List Entry
  | .request id (some latency) => recordSuccess s id latency
  | .request id none => recordFailure H s id
  | .select allowed => selectAllowed H s allowed
  | .check result => checkStep H s result

def HaManager.step (H : HaManager) (s : HaState) (i : Input) : HaState × List Entry :=
  H.act { s with clock := s.clock + i.elapsed } i.act

def HaManager.machine (H : HaManager) : Machine HaState Input Entry := ⟨H.step⟩

def HaManager.initial (H : HaManager) (start : Int) : HaState where
  clock := start
  statuses := H.newStatuses
  counter := 0
  metrics := H.connections.foldl (fun metrics conn => metrics.insert conn.id .new) ∅
  remaining := []
  stage := .idle
  wakeAt := some start

/-! ## One CA -/

structure Node where
  status : CaStatus
  stage : Option Stage
  wakeAt : Option Int

/-- The steps of one CA where every request that ends finds it in `C`. -/
inductive NodeStep (H : HaManager) (C : Node → Option Nat → Prop) (now : Int) :
    Node → Node → List Event → Prop
  | stay (n : Node) : NodeStep H C now n n []
  | requestOk (n : Node) (latency : Nat) (hC : C n (some latency)) :
    NodeStep H C now n { n with status := n.status.recordSuccess latency now }
      [.success now, .health .healthy]
  | requestFailed (n : Node) (hC : C n none) :
    NodeStep H C now n { n with status := n.status.recordFailure H.failureThreshold now }
      [.failure now, .health (n.status.recordFailure H.failureThreshold now).health]
  | roundStarts (st : CaStatus) (wakeAt : Int) (h : wakeAt ≤ now) (stage : Option Stage)
      (hstage : stage = none ∨ stage = some .idle) :
    NodeStep H C now ⟨st, none, some wakeAt⟩ ⟨st, stage, none⟩ []
  | roundEnds (st : CaStatus) :
    NodeStep H C now ⟨st, none, none⟩ ⟨st, none, some (now + H.probeInterval)⟩ []
  | found (st : CaStatus) (w : Option Int) (h : st.health = .unavailable) :
    NodeStep H C now ⟨st, some .idle, w⟩ ⟨st, some (.circuitOpen now), w⟩ []
  | probe (st : CaStatus) (w : Option Int) (h : st.health ≠ .unavailable) :
    NodeStep H C now ⟨st, some .idle, w⟩ ⟨st, some (.probing now), w⟩ [.probed now false]
  | reprobe (st : CaStatus) (w : Option Int) (start : Int)
      (h : st.shouldReprobe H.cooldown now = true) :
    NodeStep H C now ⟨st, some (.circuitOpen start), w⟩ ⟨st, some (.probing start), w⟩
      [.probed now true]
  | skip (st : CaStatus) (w : Option Int) (start : Int) :
    NodeStep H C now ⟨st, some (.circuitOpen start), w⟩ ⟨st, some .failed, w⟩ [.unanswered]
  | answer (st : CaStatus) (w : Option Int) (start : Int) (latency : Nat) :
    NodeStep H C now ⟨st, some (.probing start), w⟩ ⟨st, some (.answered latency), w⟩ [.answered]
  | noAnswer (st : CaStatus) (w : Option Int) (start : Int) :
    NodeStep H C now ⟨st, some (.probing start), w⟩ ⟨st, some .failed, w⟩ [.unanswered]
  | judged (st : CaStatus) (w : Option Int) (successes latency : Nat) :
    NodeStep H C now ⟨st, some (.answered latency), w⟩
      ⟨st, some (.judged (judge H st.health successes latency).1 latency), w⟩ []
  | mark (st : CaStatus) (w : Option Int) (state : HealthState) (latency : Nat) :
    NodeStep H C now ⟨st, some (.judged state latency), w⟩
      ⟨st.setHealth state, some (.marked latency), w⟩ [.health state]
  | succeed (st : CaStatus) (w : Option Int) (latency : Nat) :
    NodeStep H C now ⟨st, some (.marked latency), w⟩ ⟨st.recordSuccess latency now, none, w⟩
      [.success now, .health .healthy]
  | fail (st : CaStatus) (w : Option Int) :
    NodeStep H C now ⟨st, some .failed, w⟩ ⟨st.recordFailure H.failureThreshold now, none, w⟩
      [.failure now, .health (st.recordFailure H.failureThreshold now).health]

/-- The stage of a CA: the first of the round is being probed, the others wait. -/
def HaState.stageOf (s : HaState) (id : CaId) : Option Stage :=
  match s.remaining with
  | [] => none
  | current :: rest => if id = current then some s.stage else if id ∈ rest then some .idle else none

def HaState.node (s : HaState) (id : CaId) (status : CaStatus) : Node :=
  ⟨status, s.stageOf id, s.wakeAt⟩

def eventsOf (id : CaId) (log : List Entry) : List Event :=
  log.filterMap fun entry =>
    match entry with
    | .ca id' event => if id' = id then some event else none
    | .picked .. => none

@[simp] theorem eventsOf_nil (id : CaId) : eventsOf id [] = [] := rfl

@[simp] theorem eventsOf_append (id : CaId) (log log' : List Entry) :
    eventsOf id (log ++ log') = eventsOf id log ++ eventsOf id log' := List.filterMap_append

@[simp] theorem eventsOf_tagged_self (id : CaId) (events : List Event) :
    eventsOf id (tagged id events) = events := by
  simp [eventsOf, tagged, List.filterMap_map]

theorem eventsOf_tagged_of_ne {id id' : CaId} (h : id' ≠ id) (events : List Event) :
    eventsOf id (tagged id' events) = [] := by
  simp [eventsOf, tagged, h]

structure Untouched (s : HaState) (r : HaState × List Entry) (id : CaId) : Prop where
  lookup : r.1.statuses.lookup id = s.statuses.lookup id
  stageOf : r.1.stageOf id = s.stageOf id
  wakeAt : r.1.wakeAt = s.wakeAt
  events : eventsOf id r.2 = []

def Simulated (H : HaManager) (C : Node → Option Nat → Prop) (s : HaState)
    (r : HaState × List Entry) (id : CaId) : Prop :=
  ∀ st, s.statuses.lookup id = some st → ∃ st', r.1.statuses.lookup id = some st' ∧
    NodeStep H C s.clock (s.node id st) (r.1.node id st') (eventsOf id r.2)

section Simulation

variable {H : HaManager} {C : Node → Option Nat → Prop} {s : HaState} {r : HaState × List Entry}
  {id id' : CaId} {rest : List CaId}

theorem Untouched.simulated (h : Untouched s r id) : Simulated H C s r id := by
  intro st hst
  refine ⟨st, h.lookup.trans hst, ?_⟩
  simp only [HaState.node, h.events, h.stageOf, h.wakeAt]
  exact .stay _

theorem stageOf_current (hrem : s.remaining = id :: rest) : s.stageOf id = some s.stage := by
  rw [HaState.stageOf, hrem]
  exact if_pos rfl

theorem stageOf_other (hrem : s.remaining = id :: rest) (hne : id' ≠ id) :
    s.stageOf id' = if id' ∈ rest then some .idle else none := by
  rw [HaState.stageOf, hrem]
  exact if_neg hne

theorem stageOf_waiting (hrem : s.remaining = rest) (hstage : s.stage = .idle) :
    s.stageOf id' = if id' ∈ rest then some .idle else none := by
  subst hrem
  unfold HaState.stageOf
  cases s.remaining with
  | nil => rfl
  | cons current rest =>
    by_cases h : id' = current
    · simp [h, hstage]
    · simp [h]

/-! ### Writes -/

section

variable (s : HaState) (id : CaId) (f : CaStatus → CaStatus × List Event)

theorem update_remaining : (s.update id f).1.remaining = s.remaining := by
  unfold HaState.update
  cases s.statuses.lookup id <;> rfl

theorem update_wakeAt : (s.update id f).1.wakeAt = s.wakeAt := by
  unfold HaState.update
  cases s.statuses.lookup id <;> rfl

theorem update_stageOf (id' : CaId) : (s.update id f).1.stageOf id' = s.stageOf id' := by
  unfold HaState.update
  cases s.statuses.lookup id <;> rfl

end

theorem update_self {st : CaStatus} (hst : s.statuses.lookup id = some st)
    (f : CaStatus → CaStatus × List Event) :
    (s.update id f).1.statuses.lookup id = some (f st).1 ∧
      eventsOf id (s.update id f).2 = (f st).2 := by
  unfold HaState.update
  rw [hst]
  exact ⟨AList.lookup_insert _, eventsOf_tagged_self _ _⟩

theorem update_other (hne : id' ≠ id) (f : CaStatus → CaStatus × List Event) :
    (s.update id f).1.statuses.lookup id' = s.statuses.lookup id' ∧
      eventsOf id' (s.update id f).2 = [] := by
  unfold HaState.update
  cases s.statuses.lookup id with
  | none => exact ⟨rfl, rfl⟩
  | some st => exact ⟨AList.lookup_insert_ne hne, eventsOf_tagged_of_ne hne.symm _⟩

theorem simulated_write (id : CaId) (f : CaStatus → CaStatus × List Event)
    (hr : r.1.statuses = (s.update id f).1.statuses ∧ r.1.wakeAt = s.wakeAt ∧
      r.2 = (s.update id f).2)
    {stage : Option Stage} (hself : r.1.stageOf id = stage)
    (hothers : ∀ id', id' ≠ id → r.1.stageOf id' = s.stageOf id')
    (hf : ∀ st, s.statuses.lookup id = some st →
      NodeStep H C s.clock (s.node id st) ⟨(f st).1, stage, s.wakeAt⟩ (f st).2)
    (id' : CaId) : Simulated H C s r id' := by
  obtain ⟨hstatuses, hwake, hlog⟩ := hr
  by_cases hne : id' = id
  · subst hne
    intro st hst
    obtain ⟨hlookup, hevents⟩ := update_self hst f
    refine ⟨(f st).1, by rw [hstatuses, hlookup], ?_⟩
    simp only [HaState.node, hlog, hevents, hwake, hself]
    exact hf st hst
  · obtain ⟨hlookup, hevents⟩ := update_other (s := s) hne f
    exact Untouched.simulated
      ⟨by rw [hstatuses, hlookup], hothers id' hne, hwake, by rw [hlog, hevents]⟩

theorem simulated_update (f : CaStatus → CaStatus × List Event)
    (hf : id' = id → ∀ st, s.statuses.lookup id = some st →
      NodeStep H C s.clock (s.node id st) { s.node id st with status := (f st).1 } (f st).2) :
    Simulated H C s (s.update id f) id' := by
  by_cases hid : id' = id
  · exact simulated_write id f ⟨rfl, update_wakeAt s id f, rfl⟩ (update_stageOf s id f id)
      (fun id' _ => update_stageOf s id f id') (hf hid) id'
  · obtain ⟨hlookup, hevents⟩ := update_other (s := s) hid f
    exact Untouched.simulated ⟨hlookup, update_stageOf s id f id', update_wakeAt s id f, hevents⟩

/-! ### Probes -/

theorem simulated_stage (events : List Event) (hrem : s.remaining = id :: rest) {stage : Stage}
    (hstage : s.stage = stage)
    (hr : r.1.remaining = s.remaining ∧ r.1.statuses = s.statuses ∧ r.1.wakeAt = s.wakeAt)
    (hevents : r.2 = tagged id events)
    (hstep : ∀ st, s.statuses.lookup id = some st →
      NodeStep H C s.clock ⟨st, some stage, s.wakeAt⟩ ⟨st, some r.1.stage, s.wakeAt⟩ events)
    (id' : CaId) : Simulated H C s r id' := by
  obtain ⟨hrem', hstatuses, hwake⟩ := hr
  rw [hrem] at hrem'
  by_cases hne : id' = id
  · subst hne
    intro st hst
    refine ⟨st, by rw [hstatuses, hst], ?_⟩
    simp only [HaState.node, stageOf_current hrem, stageOf_current hrem', hwake, hevents,
      eventsOf_tagged_self, hstage]
    exact hstep st hst
  · refine Untouched.simulated ⟨by rw [hstatuses], ?_, hwake, ?_⟩
    · rw [stageOf_other hrem hne, stageOf_other hrem' hne]
    · rw [hevents, eventsOf_tagged_of_ne (Ne.symm hne)]

section

variable (hrem : s.remaining = id :: rest)

include hrem

theorem simulated_done (hnodup : s.remaining.Nodup) (f : CaStatus → CaStatus × List Event)
    (hf : ∀ st, NodeStep H C s.clock ⟨st, some s.stage, s.wakeAt⟩ ⟨(f st).1, none, s.wakeAt⟩ (f st).2)
    (id' : CaId) : Simulated H C s (nextCa rest (s.update id f)) id' := by
  have hstage : ∀ id', (nextCa rest (s.update id f)).1.stageOf id' =
      if id' ∈ rest then some .idle else none := fun _ => stageOf_waiting rfl rfl
  rw [hrem, List.nodup_cons] at hnodup
  refine simulated_write id f ?_ ((hstage id).trans (if_neg hnodup.1)) (fun id' hne => ?_) ?_ id'
  · exact ⟨rfl, update_wakeAt s id f, rfl⟩
  · rw [hstage, stageOf_other hrem hne]
  · simpa only [HaState.node, stageOf_current hrem] using fun st _ => hf st

theorem simulated_mark {state : HealthState} {latency : Nat}
    (hstage : s.stage = .judged state latency) (id' : CaId) :
    Simulated H C s ({ (setHealth s id state).1 with stage := .marked latency },
      (setHealth s id state).2) id' := by
  let f : CaStatus → CaStatus × List Event := fun status =>
    (status.setHealth state, [.health state])
  have hrem' := (update_remaining s id f).trans hrem
  refine simulated_write (r := ({ (s.update id f).1 with stage := .marked latency }, _)) id f ?_
    (stageOf_current hrem') (fun id' hne => ?_) (fun st _ => ?_) id'
  · exact ⟨rfl, update_wakeAt s id f, rfl⟩
  · rw [stageOf_other hrem hne]
    exact stageOf_other hrem' hne
  · rw [HaState.node, stageOf_current hrem, hstage]
    exact .mark st s.wakeAt state latency

theorem simulated_probeStep (hnodup : s.remaining.Nodup) (result : Except String Unit) (id' : CaId) :
    Simulated H C s (probeStep H s id rest result) id' := by
  unfold probeStep
  split
  · next hstage =>
    split
    · next hun =>
      refine simulated_stage [] hrem hstage ⟨rfl, rfl, rfl⟩ rfl (fun st hst => ?_) id'
      rw [hst] at hun
      exact .found st s.wakeAt (by simpa using hun)
    · next hav =>
      refine simulated_stage _ hrem hstage ⟨rfl, rfl, rfl⟩ rfl (fun st hst => ?_) id'
      rw [hst] at hav
      exact .probe st s.wakeAt (by simpa using hav)
  · next start hstage =>
    split
    · next hre =>
      refine simulated_stage _ hrem hstage ⟨rfl, rfl, rfl⟩ rfl (fun st hst => ?_) id'
      rw [hst] at hre
      exact .reprobe st s.wakeAt start hre
    · exact simulated_stage _ hrem hstage ⟨rfl, rfl, rfl⟩ rfl (fun st _ => .skip st _ start) id'
  · next start hstage =>
    cases result with
    | ok u =>
      exact simulated_stage _ hrem hstage ⟨rfl, rfl, rfl⟩ rfl (fun st _ => .answer st _ start _) id'
    | error e =>
      exact simulated_stage _ hrem hstage ⟨rfl, rfl, rfl⟩ rfl (fun st _ => .noAnswer st _ start) id'
  · next latency hstage =>
    refine simulated_stage [] hrem hstage ⟨rfl, rfl, rfl⟩ rfl (fun st hst => ?_) id'
    have hhealth : healthOf s id = st.health := by rw [healthOf, hst]; rfl
    simp only [judgeAnswer, hhealth]
    exact .judged st s.wakeAt _ latency
  · next state latency hstage => exact simulated_mark hrem hstage id'
  · next latency hstage =>
    exact simulated_done hrem hnodup _ (fun st => hstage ▸ .succeed st s.wakeAt latency) id'
  · next hstage =>
    exact simulated_done hrem hnodup _ (fun st => hstage ▸ .fail st s.wakeAt) id'

end

theorem simulated_checkStep (hnodup : s.remaining.Nodup) (result : Except String Unit)
    (id' : CaId) : Simulated H C s (checkStep H s result) id' := by
  unfold checkStep
  split
  · next id rest hrem => exact simulated_probeStep hrem hnodup result id'
  · next hrem hwake =>
    intro st hst
    refine ⟨st, hst, ?_⟩
    simp only [HaState.node, HaState.stageOf, hrem, hwake, eventsOf_nil]
    exact .roundEnds st
  · next wakeAt hrem hwake =>
    split
    · next hle =>
      intro st hst
      have hnone : s.stageOf id' = none := by rw [HaState.stageOf, hrem]
      refine ⟨st, hst, ?_⟩
      rw [HaState.node, hnone, hwake, eventsOf_nil]
      refine .roundStarts st wakeAt hle _ ?_
      rw [stageOf_waiting rfl rfl]
      split
      · exact .inr rfl
      · exact .inl rfl
    · exact Untouched.simulated ⟨rfl, rfl, rfl, rfl⟩

theorem simulated_selectAllowed (allowed : List String) (id' : CaId) :
    Simulated H C s (selectAllowed H s allowed) id' := by
  refine Untouched.simulated ⟨rfl, rfl, rfl, ?_⟩
  simp only [selectAllowed]
  cases (H.toCaPool.selectAllowed s.statuses s.counter allowed).1 <;> rfl

/-- The request to the CA that ends with the act finds it in `C`. -/
def Meets (C : Node → Option Nat → Prop) (id : CaId) (s : HaState) (a : Act) : Prop :=
  ∀ latency st, a = .request id latency → s.statuses.lookup id = some st → C (s.node id st) latency

theorem simulated_act (hnodup : s.remaining.Nodup) {a : Act} (hmeets : Meets C id' s a) :
    Simulated H C s (H.act s a) id' := by
  cases a with
  | request id latency =>
    cases latency with
    | some latency =>
      refine simulated_update _ ?_
      rintro rfl st hst
      exact .requestOk _ latency (hmeets _ st rfl hst)
    | none =>
      refine simulated_update _ ?_
      rintro rfl st hst
      exact .requestFailed _ (hmeets _ st rfl hst)
  | select allowed => exact simulated_selectAllowed allowed id'
  | check result => exact simulated_checkStep hnodup result id'

theorem step_node (hnodup : s.remaining.Nodup) {i : Input} (hmeets : Meets C id s i.act)
    {st : CaStatus} (hst : s.statuses.lookup id = some st) :
    ∃ st', (H.step s i).1.statuses.lookup id = some st' ∧
      NodeStep H C (s.clock + i.elapsed) (s.node id st) ((H.step s i).1.node id st')
        (eventsOf id (H.step s i).2) :=
  simulated_act (s := { s with clock := s.clock + i.elapsed }) hnodup hmeets st hst

end Simulation

/-! ## Runs -/

section Runs

variable {H : HaManager} {s : HaState}

/-- What is common to all steps: the time, the CAs that have no status, and that a round only gets
    shorter, or starts anew. -/
structure Tame (H : HaManager) (s : HaState) (r : HaState × List Entry) : Prop where
  clock : r.1.clock = s.clock
  unknown : ∀ id, s.statuses.lookup id = none → r.1.statuses.lookup id = none
  remaining : r.1.remaining <:+ s.remaining ∨ r.1.remaining = H.connections.map CaConnection.id

theorem Tame.of_eq {r : HaState × List Entry} (hclock : r.1.clock = s.clock)
    (hstatuses : r.1.statuses = s.statuses) (hremaining : r.1.remaining = s.remaining) :
    Tame H s r :=
  ⟨hclock, fun _ h => hstatuses ▸ h, .inl (hremaining ▸ List.suffix_refl _)⟩

theorem tame_update (s : HaState) (id : CaId) (f : CaStatus → CaStatus × List Event) :
    Tame H s (s.update id f) := by
  refine ⟨?_, fun id' hnone => ?_, .inl (update_remaining s id f ▸ List.suffix_refl _)⟩
  · unfold HaState.update
    cases s.statuses.lookup id <;> rfl
  · by_cases hne : id' = id
    · subst hne
      rw [HaState.update, hnone]
      exact hnone
    · rw [(update_other hne f).1, hnone]

theorem tame_probeStep {id : CaId} {rest : List CaId} (hrem : s.remaining = id :: rest)
    (result : Except String Unit) : Tame H s (probeStep H s id rest result) := by
  have hrest : rest <:+ s.remaining := hrem ▸ List.suffix_cons id rest
  unfold probeStep
  split
  · split <;> exact .of_eq rfl rfl rfl
  · split <;> exact .of_eq rfl rfl rfl
  · cases result <;> exact .of_eq rfl rfl rfl
  · exact .of_eq rfl rfl rfl
  · obtain ⟨hclock, hunknown, hremaining⟩ := tame_update (H := H) s id _
    exact ⟨hclock, hunknown, hremaining⟩
  all_goals
    obtain ⟨hclock, hunknown, -⟩ := tame_update (H := H) s id _
    exact ⟨hclock, hunknown, .inl hrest⟩

theorem tame_act (a : Act) : Tame H s (H.act s a) := by
  cases a with
  | request id latency => cases latency <;> exact tame_update s id _
  | select allowed => exact .of_eq rfl rfl rfl
  | check result =>
    change Tame H s (checkStep H s result)
    unfold checkStep
    split
    · next id rest hrem => exact tame_probeStep hrem result
    · exact .of_eq rfl rfl rfl
    · split
      · exact ⟨rfl, fun _ h => h, .inr rfl⟩
      · exact .of_eq rfl rfl rfl

theorem Tame.nodup {r : HaState × List Entry} (h : Tame H s r) (hnodup : s.remaining.Nodup) :
    r.1.remaining.Nodup := by
  rcases h.remaining with hsuffix | hnew
  · exact hnodup.sublist hsuffix.sublist
  · exact hnew ▸ H.nodup

theorem lookup_newStatuses {pool : CaPool} {id : CaId} {st : CaStatus}
    (h : pool.newStatuses.lookup id = some st) : st = .new := by
  unfold CaPool.newStatuses at h
  suffices key : ∀ (conns : List CaConnection) (t : Statuses),
      AList.All (fun _ st => st = CaStatus.new) t →
      AList.All (fun _ st => st = CaStatus.new)
        (conns.foldl (fun statuses conn => statuses.insert conn.id .new) t) from
    key pool.connections ∅ (AList.all_empty _) id st h
  intro conns
  induction conns with
  | nil => exact fun t ht => ht
  | cons conn conns ih => exact fun t ht => ih _ (ht.insert rfl)

/-- Every request to the CA that ends in the run finds it in `C`. -/
def RunMeets (H : HaManager) (C : Node → Option Nat → Prop) (id : CaId) :
    HaState → List Input → Prop
  | _, [] => True
  | s, i :: inputs => Meets C id s i.act ∧ RunMeets H C id (H.step s i).1 inputs

theorem node_run {P : Int → List Event → Node → Prop} {C : Node → Option Nat → Prop} {id : CaId}
    (hstep : ∀ now now' events n n' out, now ≤ now' → P now events n → NodeStep H C now' n n' out →
      P now' (events ++ out) n')
    {inputs : List Input} (hmeets : RunMeets H C id s inputs) (hnodup : s.remaining.Nodup)
    (log : List Entry)
    (hP : ∀ st, s.statuses.lookup id = some st → P s.clock (eventsOf id log) (s.node id st))
    {st : CaStatus} (hst : (H.machine.run s inputs).1.statuses.lookup id = some st) :
    P (H.machine.run s inputs).1.clock (eventsOf id (log ++ (H.machine.run s inputs).2))
      ((H.machine.run s inputs).1.node id st) := by
  induction inputs generalizing s log with
  | nil =>
    rw [Machine.run_nil, List.append_nil]
    exact hP st hst
  | cons i inputs ih =>
    have htame : Tame H { s with clock := s.clock + i.elapsed } (H.step s i) := tame_act i.act
    rw [Machine.run_cons, ← List.append_assoc]
    refine ih hmeets.2 (htame.nodup hnodup) _ ?_ hst
    intro st' hst'
    cases hst : s.statuses.lookup id with
    | none => cases (htame.unknown id hst).symm.trans hst'
    | some st =>
      obtain ⟨st'', hst'', hnode⟩ := step_node hnodup hmeets.1 hst
      obtain rfl : st'' = st' := Option.some.inj (hst''.symm.trans hst')
      have hnext := hstep s.clock _ _ _ _ _ (by omega) (hP st hst) hnode
      rw [eventsOf_append, show (H.step s i).1.clock = _ from htame.clock]
      exact hnext

theorem node_invariant_when {P : Int → List Event → Node → Prop} {C : Node → Option Nat → Prop}
    {start : Int} (hinit : P start [] ⟨.new, none, some start⟩)
    (hstep : ∀ now now' events n n' out, now ≤ now' → P now events n → NodeStep H C now' n n' out →
      P now' (events ++ out) n')
    {inputs : List Input} {id : CaId} (hmeets : RunMeets H C id (H.initial start) inputs)
    {st : CaStatus}
    (hst : (H.machine.run (H.initial start) inputs).1.statuses.lookup id = some st) :
    P (H.machine.run (H.initial start) inputs).1.clock
      (eventsOf id (H.machine.run (H.initial start) inputs).2)
      ((H.machine.run (H.initial start) inputs).1.node id st) := by
  refine node_run hstep hmeets List.nodup_nil [] (fun st hst => ?_) hst
  rw [lookup_newStatuses hst]
  exact hinit

theorem runMeets_any (id : CaId) (s : HaState) (inputs : List Input) :
    RunMeets H (fun _ _ => True) id s inputs := by
  induction inputs generalizing s with
  | nil => trivial
  | cons i inputs ih => exact ⟨fun _ _ _ _ => trivial, ih _⟩

theorem runMeets_of_checks {C : Node → Option Nat → Prop} {inputs : List Input}
    (h : ∀ i ∈ inputs, ∃ result, i.act = .check result) (id : CaId) (s : HaState) :
    RunMeets H C id s inputs := by
  induction inputs generalizing s with
  | nil => trivial
  | cons i inputs ih =>
    refine ⟨fun latency st hact _ => ?_, ih (fun i hi => h i (List.mem_cons_of_mem _ hi)) _⟩
    obtain ⟨result, hcheck⟩ := h i List.mem_cons_self
    cases hcheck.symm.trans hact

theorem node_invariant {P : Int → List Event → Node → Prop} {start : Int}
    (hinit : P start [] ⟨.new, none, some start⟩)
    (hstep : ∀ now now' events n n' out, now ≤ now' → P now events n →
      NodeStep H (fun _ _ => True) now' n n' out → P now' (events ++ out) n')
    (inputs : List Input) (id : CaId) (st : CaStatus)
    (hst : (H.machine.run (H.initial start) inputs).1.statuses.lookup id = some st) :
    P (H.machine.run (H.initial start) inputs).1.clock
      (eventsOf id (H.machine.run (H.initial start) inputs).2)
      ((H.machine.run (H.initial start) inputs).1.node id st) :=
  node_invariant_when hinit hstep (runMeets_any id _ inputs) hst

end Runs

end Kipuka.Ha
