/-
  Authentication failure tracking and lockout (`src/auth/failure_tracker.rs`).
-/
import Kipuka.Generic.Runtime

namespace Kipuka.Auth

open Generic

structure LockoutPolicy where
  maxFailures : Nat
  failureWindow : Nat
  lockoutDuration : Nat
  deriving DecidableEq, Repr

def LockoutPolicy.isEnabled (p : LockoutPolicy) : Bool := decide (0 < p.maxFailures)

inductive LockoutStatus where
  | allowed
  | lockedOut (retryAfter : Nat)
  deriving DecidableEq, Repr

def LockoutStatus.isLocked : LockoutStatus → Bool
  | .allowed => false
  | .lockedOut _ => true

structure Record where
  failures : Nat
  windowStart : Int
  lockedUntil : Option Int
  deriving DecidableEq, Repr

/-- `Record::is_prunable`: neither locked nor inside its failure window. -/
def Record.isPrunable (r : Record) (now : Int) (window : Nat) : Bool :=
  let lockExpired := r.lockedUntil.all fun stop => decide (stop ≤ now)
  let windowStale := decide (window ≤ durationSince now r.windowStart)
  lockExpired && windowStale

/-- The record a failure at `now` starts from: inserted for a new identity, and written over an
    old record whose window or lockout has run out. -/
def Record.fresh (now : Int) : Record where
  failures := 0
  windowStart := now
  lockedUntil := none

structure FailureTracker where
  policy : LockoutPolicy
  records : Table String Record
  lastPrune : Int

namespace FailureTracker

def new (policy : LockoutPolicy) (now : Int) : FailureTracker where
  policy := policy
  records := ∅
  lastPrune := now - fromSecs 1

def statusAt (record : Option Record) (now : Int) : Option LockoutStatus :=
  match record with
  | none => none
  | some r =>
    match r.lockedUntil with
    | some stop => if now < stop then some (.lockedOut (durationSince stop now)) else none
    | none => none

def prune (t : FailureTracker) (now : Int) : FailureTracker :=
  { t with records := t.records.retain fun _ r => !r.isPrunable now t.policy.failureWindow }

/-- The rate-limited call of `prune` that `check` and `record_failure` share. -/
def pruneIfDue (t : FailureTracker) (now : Int) : FailureTracker :=
  if min (fromSecs 1) t.policy.failureWindow ≤ durationSince now t.lastPrune then
    { t.prune now with lastPrune := now }
  else t

/-- The last step of `check`: an entry that is not locked goes if it is stale. -/
def dropStale (t : FailureTracker) (identity : String) (now : Int) : FailureTracker :=
  match t.records.lookup identity with
  | some r =>
    if r.isPrunable now t.policy.failureWindow then
      { t with records := t.records.erase identity }
    else t
  | none => t

def check (t : FailureTracker) (identity : String) (now : Int) : LockoutStatus × FailureTracker :=
  if t.policy.isEnabled then
    let t := if t.records.size ≥ 10000 then t.pruneIfDue now else t
    if identity.utf8ByteSize > 4096 then (.lockedOut (fromSecs 1), t)
    else
      match statusAt (t.records.lookup identity) now with
      | some status => (status, t)
      | none => (.allowed, t.dropStale identity now)
  else (.allowed, t)

/-- `record_failure` on a record that is not locked: start over if the window has elapsed or the
    last lockout has expired, count, and lock at the threshold. -/
def countFailure (p : LockoutPolicy) (r : Record) (now : Int) : LockoutStatus × Record :=
  let windowElapsed := decide (p.failureWindow ≤ durationSince now r.windowStart)
  let lockoutExpired := r.lockedUntil.any fun stop => decide (stop ≤ now)
  let r := if windowElapsed || lockoutExpired then Record.fresh now else r
  let r := { r with failures := r.failures + 1 }
  if r.failures ≥ p.maxFailures then
    (.lockedOut p.lockoutDuration, { r with lockedUntil := some (now + p.lockoutDuration) })
  else (.allowed, r)

def recordFailure (t : FailureTracker) (identity : String) (now : Int) :
    LockoutStatus × FailureTracker :=
  if t.policy.isEnabled then
    let t := t.pruneIfDue now
    if identity.utf8ByteSize > 4096 then (.lockedOut (fromSecs 1), t)
    else if t.records.size ≥ 10000 ∧ identity ∉ t.records then (.allowed, t)
    else
      -- `entry(identity).or_insert(..)`
      let r := (t.records.lookup identity).getD (Record.fresh now)
      let t := { t with records := t.records.insert identity r }
      match statusAt (some r) now with
      | some status => (status, t)
      | none =>
        let (status, r) := countFailure t.policy r now
        (status, { t with records := t.records.insert identity r })
  else (.allowed, t)

/-- `FailureTracker::record_success`: drops the record unless it is locked. -/
def recordSuccess (t : FailureTracker) (identity : String) (now : Int) : FailureTracker :=
  if t.policy.isEnabled then
    match t.records.lookup identity with
    | some r =>
      let locked := r.lockedUntil.any fun stop => decide (now < stop)
      if locked then t else { t with records := t.records.erase identity }
    | none => t
  else t

end FailureTracker

inductive Call where
  | check (identity : String)
  | recordFailure (identity : String)
  | recordSuccess (identity : String)
  deriving DecidableEq, Repr

structure TimedCall where
  call : Call
  now : Int
  deriving DecidableEq, Repr

namespace FailureTracker

def apply (t : FailureTracker) (c : TimedCall) : FailureTracker :=
  match c.call with
  | .check identity => (t.check identity c.now).2
  | .recordFailure identity => (t.recordFailure identity c.now).2
  | .recordSuccess identity => t.recordSuccess identity c.now

def run (t : FailureTracker) (calls : List TimedCall) : FailureTracker := calls.foldl apply t

theorem run_snoc (t : FailureTracker) (calls : List TimedCall) (c : TimedCall) :
    t.run (calls ++ [c]) = (t.run calls).apply c := by
  rw [run, List.foldl_append]
  rfl

/-! ## Frame facts -/

variable (t : FailureTracker)

@[simp] theorem pruneIfDue_policy (now : Int) : (t.pruneIfDue now).policy = t.policy := by
  unfold pruneIfDue
  split <;> rfl

@[simp] theorem dropStale_policy (identity : String) (now : Int) :
    (t.dropStale identity now).policy = t.policy := by
  unfold dropStale
  split
  · split <;> rfl
  · rfl

theorem check_policy (identity : String) (now : Int) :
    (t.check identity now).2.policy = t.policy := by
  unfold check
  split
  · dsimp only
    have hpruned : (if t.records.size ≥ 10000 then t.pruneIfDue now else t).policy = t.policy := by
      split <;> simp
    split
    · exact hpruned
    · split
      · exact hpruned
      · rw [dropStale_policy, hpruned]
  · rfl

theorem recordFailure_policy (identity : String) (now : Int) :
    (t.recordFailure identity now).2.policy = t.policy := by
  unfold recordFailure
  split
  · dsimp only
    split
    · exact pruneIfDue_policy t now
    · split
      · exact pruneIfDue_policy t now
      · split <;> exact pruneIfDue_policy t now
  · rfl

theorem recordSuccess_policy (identity : String) (now : Int) :
    (t.recordSuccess identity now).policy = t.policy := by
  unfold recordSuccess
  split
  · split
    · dsimp only
      split <;> rfl
    · rfl
  · rfl

theorem apply_policy (c : TimedCall) : (t.apply c).policy = t.policy := by
  unfold apply
  split
  · exact check_policy t _ _
  · exact recordFailure_policy t _ _
  · exact recordSuccess_policy t _ _

theorem run_policy (calls : List TimedCall) : (t.run calls).policy = t.policy := by
  induction calls generalizing t with
  | nil => rfl
  | cons c rest ih => exact (ih (t.apply c)).trans (apply_policy t c)

end FailureTracker

end Kipuka.Auth
