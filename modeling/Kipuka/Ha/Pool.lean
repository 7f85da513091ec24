/-
  The pool of CAs (`src/ha/pool.rs`) and the choice of a CA (`src/ha/strategy.rs`).
-/
import Kipuka.Generic.Runtime
import Mathlib.Algebra.Group.Nat.Defs

namespace Kipuka.Ha

open Generic

/-! ## Status of a CA -/

abbrev CaId : Type := String

inductive HealthState where
  | healthy | degraded | unavailable | recovering
  deriving DecidableEq, Repr

def HealthState.isAvailable : HealthState → Bool
  | healthy | degraded | recovering => true
  | unavailable => false

structure CaStatus where
  health : HealthState
  consecutiveFailures : Nat
  lastSuccess : Option Int
  circuitOpenSince : Option Int
  latencyEmaMs : Float
  lastLatency : Option Nat

namespace CaStatus

def new : CaStatus := ⟨.healthy, 0, none, none, 0.0, none⟩

def asSecsF64 (d : Nat) : Float :=
  Float.ofNat (d / 1000000000) + Float.ofNat (d % 1000000000) / 1000000000.0

def recordSuccess (status : CaStatus) (latency : Nat) (now : Int) : CaStatus where
  health := .healthy
  consecutiveFailures := 0
  lastSuccess := some now
  circuitOpenSince := none
  latencyEmaMs := status.latencyEmaMs * 0.7 + asSecsF64 latency * 1000.0 * 0.3
  lastLatency := some latency

def failuresAfter (status : CaStatus) : Nat := (status.consecutiveFailures + 1) % 2 ^ 32

def recordFailure (status : CaStatus) (failureThreshold : Nat) (now : Int) : CaStatus :=
  if failureThreshold ≤ status.failuresAfter then
    if status.health ≠ .unavailable then
      { status with
        consecutiveFailures := status.failuresAfter
        health := .unavailable
        circuitOpenSince := some now }
    else { status with consecutiveFailures := status.failuresAfter }
  else if status.health = .healthy then
    { status with consecutiveFailures := status.failuresAfter, health := .degraded }
  else { status with consecutiveFailures := status.failuresAfter }

def shouldReprobe (status : CaStatus) (cooldown : Nat) (now : Int) : Bool :=
  status.circuitOpenSince.any fun opened => cooldown ≤ durationSince now opened

def setHealth (status : CaStatus) (state : HealthState) : CaStatus :=
  { status with health := state }

end CaStatus

/-! ## The pool -/

structure CaConnection where
  id : CaId
  endpoint : String
  weight : Nat
  priority : Nat
  deriving DecidableEq, Repr

inductive FailoverStrategy where
  | activePassive | roundRobin | weighted | latencyBased
  deriving DecidableEq, Repr

/-- What a pool is built with. The configuration refuses two CAs with one id. -/
structure CaPool where
  connections : List CaConnection
  nodup : (connections.map CaConnection.id).Nodup
  strategy : FailoverStrategy
  failureThreshold : Nat
  cooldown : Nat

abbrev Statuses : Type := Table CaId CaStatus

def CaPool.newStatuses (pool : CaPool) : Statuses :=
  pool.connections.foldl (fun statuses conn => statuses.insert conn.id .new) ∅

/-! ## Selection -/

abbrev Candidate : Type := CaConnection × CaStatus

def minBy {α : Type} (greater : α → α → Bool) : List α → Option α
  | [] => none
  | x :: xs => some (xs.foldl (fun best y => if greater best y then y else best) x)

def selectActivePassive (candidates : List Candidate) : Option CaConnection :=
  (minBy (fun a b => a.1.priority > b.1.priority) candidates).map Prod.fst

def nextTicket (counter : Nat) : Nat := (counter + 1) % 2 ^ 64

def selectRoundRobin (counter : Nat) (candidates : List Candidate) : Option CaConnection × Nat :=
  (candidates[counter % candidates.length]?.map Prod.fst, nextTicket counter)

/-- The first candidate whose share of the weights reaches beyond the tick. -/
def weightedPick (tick : Nat) : Nat → List Candidate → Option CaConnection
  | _, [] => none
  | cumulative, c :: cs =>
    let cumulative := (cumulative + c.1.weight) % 2 ^ 32
    if tick < cumulative then some c.1 else weightedPick tick cumulative cs

def selectWeighted (counter : Nat) (candidates : List Candidate) : Option CaConnection × Nat :=
  let totalWeight := candidates.foldl (fun total c => total + c.1.weight) 0 % 2 ^ 32
  if totalWeight = 0 then selectRoundRobin counter candidates
  else
    let tick := counter % 2 ^ 32 % totalWeight
    ((weightedPick tick 0 candidates).or (candidates.getLast?.map Prod.fst), nextTicket counter)

def selectLatencyBased (candidates : List Candidate) : Option CaConnection :=
  (minBy (fun a b => decide (a.2.latencyEmaMs > b.2.latencyEmaMs)) candidates).map Prod.fst

def select (strategy : FailoverStrategy) (counter : Nat) (candidates : List Candidate) :
    Option CaConnection × Nat :=
  if candidates.isEmpty then (none, counter)
  else
    match strategy with
    | .activePassive => (selectActivePassive candidates, counter)
    | .roundRobin => selectRoundRobin counter candidates
    | .weighted => selectWeighted counter candidates
    | .latencyBased => (selectLatencyBased candidates, counter)

def CaPool.candidates (pool : CaPool) (statuses : Statuses) (allowed : List String) :
    List Candidate :=
  (pool.connections.filter fun c => allowed.contains c.id).filterMap fun c =>
    ((statuses.lookup c.id).filter fun s => s.health.isAvailable).map fun s => (c, s)

def CaPool.selectAllowed (pool : CaPool) (statuses : Statuses) (counter : Nat)
    (allowed : List String) : Option CaConnection × Nat :=
  select pool.strategy counter (pool.candidates statuses allowed)

/-! ## What the updates do to a status -/

namespace CaStatus

variable (s : CaStatus) (k : Nat) (now : Int)

@[simp] theorem recordFailure_consecutiveFailures :
    (s.recordFailure k now).consecutiveFailures = s.failuresAfter := by
  unfold recordFailure
  split <;> split <;> rfl

theorem recordFailure_health : (s.recordFailure k now).health =
      if k ≤ s.failuresAfter then .unavailable
      else if s.health = .healthy then .degraded else s.health := by
  unfold recordFailure
  split
  · split
    · rfl
    · next h => exact not_not.mp h
  · split <;> rfl

theorem recordFailure_circuitOpenSince : (s.recordFailure k now).circuitOpenSince =
      if k ≤ s.failuresAfter ∧ s.health ≠ .unavailable then some now else s.circuitOpenSince := by
  unfold recordFailure
  split
  · next hk =>
    split
    · next h => rw [if_pos ⟨hk, h⟩]
    · next h => rw [if_neg fun hand => h hand.2]
  · next hk => split <;> rw [if_neg fun hand => hk hand.1]

end CaStatus

end Kipuka.Ha
