/-
  The pool of Dogtag backends (`crates/kipuka-dogtag/src/pool.rs`): `health_check_all`, which probes
  the backends in a pass.
-/
import Kipuka.Generic.Runtime
import Kipuka.Generic.Threads
import Mathlib.Algebra.Group.Nat.Defs

namespace Kipuka.Dogtag

open Generic

/-! ## The pool -/

inductive BackendHealth where
  | healthy | unhealthy | unknown
  deriving DecidableEq, Repr

structure PoolEntry where
  client : String
  health : BackendHealth
  lastHealthy : Option Int
  consecutiveFailures : Nat
  deriving DecidableEq, Repr

def PoolEntry.new (client : String) : PoolEntry := ⟨client, .unknown, none, 0⟩

structure DogtagPool where
  failureThreshold : Nat
  cooldown : Nat

/-- An unhealthy backend whose last success is less than the cooldown ago. -/
def PoolEntry.inCooldown (pool : DogtagPool) (now : Int) (e : PoolEntry) : Bool :=
  e.health = .unhealthy && e.lastHealthy.any fun last => durationSince now last < pool.cooldown

/-- The backends of a pass, each with its place and whether it is unhealthy. -/
def snapshot (pool : DogtagPool) (now : Int) (entries : List PoolEntry) : List (Nat × Bool) :=
  entries.zipIdx.filterMap fun (e, i) =>
    if e.inCooldown pool now then none else some (i, e.health = .unhealthy)

def PoolEntry.succeeded (now : Int) (e : PoolEntry) : PoolEntry :=
  { e with health := .healthy, lastHealthy := some now, consecutiveFailures := 0 }

def PoolEntry.failed (pool : DogtagPool) (e : PoolEntry) : PoolEntry :=
  let failures := (e.consecutiveFailures + 1) % 2 ^ 32
  if pool.failureThreshold ≤ failures then
    { e with consecutiveFailures := failures, health := .unhealthy }
  else { e with consecutiveFailures := failures }

/-! ## Passes -/

inductive Op where
  | snapshot
  | healthCheck (index : Nat)
  | record (index : Nat) (healthy : Bool)
  deriving DecidableEq, Repr

abbrev Reply : Op → Type
  | .snapshot => List (Nat × Bool)
  | .healthCheck _ => Except String Bool
  | .record .. => Unit

def probeAll : List (Nat × Bool) → Prog Op Reply Unit
  | [] => pure ()
  | (index, _) :: clients => do
    let answer ← Prog.op (.healthCheck index)
    let _ ← Prog.op (.record index (answer.toOption.getD false))
    probeAll clients

def healthCheckAll : Prog Op Reply Unit := do
  let clients ← Prog.op .snapshot
  probeAll clients

inductive Event where
  /-- A pass starts. It probes these unhealthy backends again. -/
  | pass (now : Int) (reprobed : List Nat)
  | healthy (index : Nat) (now : Int)
  /-- A backend that was not unhealthy is marked so. -/
  | unhealthy (index : Nat) (now : Int)
  deriving DecidableEq, Repr

structure World where
  clock : Int
  entries : List PoolEntry
  log : List Event

structure Env where
  elapsed : Nat
  answer : Except String Bool

def World.record (pool : DogtagPool) (s : World) (index : Nat) (healthy : Bool) : World :=
  match s.entries[index]? with
  | none => s
  | some e =>
    if healthy then
      { s with
        entries := s.entries.set index (e.succeeded s.clock)
        log := .healthy index s.clock :: s.log }
    else
      { s with
        entries := s.entries.set index (e.failed pool)
        log := if e.health ≠ .unhealthy ∧ (e.failed pool).health = .unhealthy then
            .unhealthy index s.clock :: s.log
          else s.log }

def perform (pool : DogtagPool) (e : Env) (s : World) : (op : Op) → Reply op × World
  | .snapshot =>
    let clients := snapshot pool s.clock s.entries
    (clients, { s with log := .pass s.clock ((clients.filter Prod.snd).map Prod.fst) :: s.log })
  | .healthCheck _ => (e.answer, s)
  | .record index healthy => ((), s.record pool index healthy)

def exec {W : Type} (pool : DogtagPool) (_ : W) (e : Env) (op : Op) (s : World) :
    Option (Reply op × World) :=
  some (perform pool e { s with clock := s.clock + e.elapsed } op)

def passes (W : Type) (pool : DogtagPool) : System W Env Op Unit Unit World Reply where
  exec := exec pool
  abandon := fun _ s => s
  prog := fun _ => healthCheckAll

def World.new (clients : List String) (start : Int) : World :=
  ⟨start, clients.map PoolEntry.new, []⟩

/-! ## What the log says -/

def lastHealthyIn (index : Nat) (log : List Event) : Option Int :=
  log.findSome? fun event =>
    match event with
    | .healthy i now => if i = index then some now else none
    | _ => none

/-- Every pass left out the unhealthy backends whose last success was less than the cooldown ago. -/
def CooledDown (pool : DogtagPool) : List Event → Prop
  | [] => True
  | .pass now reprobed :: older =>
    (∀ i ∈ reprobed, ∀ last, lastHealthyIn i older = some last → last + pool.cooldown ≤ now) ∧
      CooledDown pool older
  | _ :: older => CooledDown pool older

theorem CooledDown.of_append {pool : DogtagPool} {newer older : List Event}
    (h : CooledDown pool (newer ++ older)) : CooledDown pool older := by
  induction newer with
  | nil => exact h
  | cons event newer ih =>
    cases event with
    | pass now reprobed => exact ih h.2
    | healthy | unhealthy => exact ih h

structure Consistent (pool : DogtagPool) (s : World) : Prop where
  lastHealthy : ∀ i e, s.entries[i]? = some e → e.lastHealthy = lastHealthyIn i s.log
  past : ∀ i last, lastHealthyIn i s.log = some last → last ≤ s.clock
  cooledDown : CooledDown pool s.log

variable {pool : DogtagPool} {s : World}

theorem mem_reprobed {now : Int} {entries : List PoolEntry} {i : Nat}
    (h : i ∈ ((snapshot pool now entries).filter Prod.snd).map Prod.fst) :
    ∃ e, entries[i]? = some e ∧ e.health = .unhealthy ∧ e.inCooldown pool now = false := by
  obtain ⟨⟨i', unhealthy⟩, hmem, rfl⟩ := List.mem_map.mp h
  obtain ⟨hmem, hunhealthy⟩ := List.mem_filter.mp hmem
  obtain ⟨⟨e, j⟩, he, hsome⟩ := List.mem_filterMap.mp hmem
  dsimp only at hsome hunhealthy ⊢
  split at hsome
  · cases hsome
  · next hcool =>
    obtain ⟨rfl, rfl⟩ := Prod.mk.inj (Option.some.inj hsome)
    exact ⟨e, List.mem_zipIdx_iff_getElem?.mp he, of_decide_eq_true hunhealthy,
      Bool.not_eq_true _ ▸ hcool⟩

theorem cooldown_over {e : PoolEntry} {now last : Int} (hunhealthy : e.health = .unhealthy)
    (hcool : e.inCooldown pool now = false) (hlast : e.lastHealthy = some last)
    (hpast : last ≤ now) : last + pool.cooldown ≤ now := by
  have hover : ¬ durationSince now last < pool.cooldown := by
    simpa [PoolEntry.inCooldown, hunhealthy, hlast] using hcool
  unfold durationSince at hover
  omega

theorem lastHealthyIn_healthy (i index : Nat) (now : Int) (log : List Event) :
    lastHealthyIn i (.healthy index now :: log) =
      if index = i then some now else lastHealthyIn i log := by
  unfold lastHealthyIn
  rw [List.findSome?_cons]
  by_cases h : index = i <;> simp [h]

theorem PoolEntry.failed_lastHealthy (e : PoolEntry) : (e.failed pool).lastHealthy = e.lastHealthy := by
  unfold PoolEntry.failed
  dsimp only
  split <;> rfl

theorem getElem?_set_cases {entries : List PoolEntry} {index i : Nat} {new e : PoolEntry}
    (h : (entries.set index new)[i]? = some e) :
    (index = i ∧ e = new) ∨ (index ≠ i ∧ entries[i]? = some e) := by
  rw [List.getElem?_set] at h
  split at h
  · next heq =>
    split at h
    · exact .inl ⟨heq, (Option.some.inj h).symm⟩
    · cases h
  · next hne => exact .inr ⟨hne, h⟩

theorem consistent_record (h : Consistent pool s) (index : Nat) (healthy : Bool) :
    Consistent pool (s.record pool index healthy) := by
  unfold World.record
  split
  · exact h
  · next e he =>
    split
    · refine ⟨?_, ?_, h.cooledDown⟩
      · intro i e' he'
        rw [lastHealthyIn_healthy]
        rcases getElem?_set_cases he' with ⟨rfl, rfl⟩ | ⟨hne, he'⟩
        · rw [if_pos rfl]
          rfl
        · rw [if_neg hne]
          exact h.lastHealthy i e' he'
      · intro i last hlast
        rw [lastHealthyIn_healthy] at hlast
        split at hlast
        · rw [← Option.some.inj hlast]
        · exact h.past i last hlast
    · -- the mark does not change what the log says of successes
      have hentries : ∀ i e', (s.entries.set index (e.failed pool))[i]? = some e' →
          e'.lastHealthy = lastHealthyIn i s.log := by
        intro i e' he'
        rcases getElem?_set_cases he' with ⟨rfl, rfl⟩ | ⟨-, he'⟩
        · rw [e.failed_lastHealthy]
          exact h.lastHealthy _ e he
        · exact h.lastHealthy i e' he'
      split
      · exact ⟨hentries, h.past, h.cooledDown⟩
      · exact ⟨hentries, h.past, h.cooledDown⟩

theorem consistent_perform (h : Consistent pool s) (e : Env) (op : Op) :
    Consistent pool (perform pool e s op).2 := by
  cases op with
  | snapshot =>
    refine ⟨h.lastHealthy, h.past, ?_, h.cooledDown⟩
    intro i hi last hlast
    obtain ⟨entry, hentry, hunhealthy, hcool⟩ := mem_reprobed hi
    have hentryLast := (h.lastHealthy i entry hentry).trans hlast
    exact cooldown_over hunhealthy hcool hentryLast (h.past i last hlast)
  | healthCheck index => exact h
  | record index healthy => exact consistent_record h index healthy

theorem consistent_run {W : Type} [DecidableEq W] {clients : List String} {start : Int}
    {acts : List (Act W Env Unit)} {c : Config W Op Unit Unit World Reply}
    (hrun : (passes W pool).run (Config.initial (World.new clients start)) acts = some c) :
    Consistent pool c.shared := by
  refine (passes W pool).run_preserves (I := Consistent pool) ?_ ?_ ?_ hrun
  · intro w e op s r s' hexec h
    have heq : s' = (perform pool e { s with clock := s.clock + e.elapsed } op).2 :=
      (congrArg Prod.snd (Option.some.inj hexec)).symm
    have hlater : Consistent pool { s with clock := s.clock + e.elapsed } := by
      refine ⟨h.lastHealthy, ?_, h.cooledDown⟩
      intro i last hlast
      have hpast := h.past i last hlast
      change last ≤ s.clock + e.elapsed
      omega
    rw [heq]
    exact consistent_perform hlater e op
  · exact fun w s h => h
  · refine ⟨?_, ?_, trivial⟩
    · intro i e he
      obtain ⟨client, -, rfl⟩ : ∃ client, clients[i]? = some client ∧ PoolEntry.new client = e := by
        simpa [World.new, Config.initial] using he
      rfl
    · intro i last hlast
      cases hlast

/-! ## The cooldown -/

theorem lastHealthyIn_append {index : Nat} {newer older : List Event}
    (h : ∀ now, .healthy index now ∉ newer) :
    lastHealthyIn index (newer ++ older) = lastHealthyIn index older := by
  unfold lastHealthyIn
  rw [List.findSome?_append, List.findSome?_eq_none_iff.mpr, Option.none_or]
  intro event hevent
  cases event with
  | pass now reprobed => rfl
  | unhealthy i now => rfl
  | healthy i now =>
    have hne : i ≠ index := by
      rintro rfl
      exact h now hevent
    simp [hne]

/-- A backend was healthy, and marked unhealthy at `t`. No pass starts after the cooldown since its
    last success and before the cooldown since the mark. Then it is not probed again before the
    cooldown since the mark, as long as it has no success. -/
theorem reprobe_after_cooldown {W : Type} [DecidableEq W] (pool : DogtagPool)
    (clients : List String) (start : Int) (acts : List (Act W Env Unit))
    (c : Config W Op Unit Unit World Reply)
    (hrun : (passes W pool).run (Config.initial (World.new clients start)) acts = some c)
    (newer between older : List Event) (index : Nat) (t u : Int) (reprobed : List Nat)
    (hlog : c.shared.log =
      newer ++ .pass u reprobed :: (between ++ .unhealthy index t :: older))
    (hreprobed : index ∈ reprobed) (hno : ∀ now, .healthy index now ∉ between)
    (hpasses : ∃ last, lastHealthyIn index older = some last ∧
      ∀ now reprobed', .pass now reprobed' ∈ .pass u reprobed :: between →
        now < last + pool.cooldown ∨ t + pool.cooldown ≤ now) :
    t + pool.cooldown ≤ u := by
  obtain ⟨last, hlast, hschedule⟩ := hpasses
  have hcooled := (consistent_run hrun).cooledDown
  rw [hlog] at hcooled
  have hlast' : lastHealthyIn index (between ++ .unhealthy index t :: older) = some last := by
    rw [lastHealthyIn_append hno]
    exact hlast
  have hover := hcooled.of_append.1 index hreprobed last hlast'
  have hthis := hschedule u reprobed List.mem_cons_self
  omega

/-! ### One backend -/

def minutePool : DogtagPool := ⟨1, fromSecs 60⟩

def passAfter (seconds : Nat) (answer : Bool) : List (Act Unit Env Unit) :=
  [.start () (), .step () ⟨fromSecs seconds, .ok answer⟩, .step () ⟨0, .ok answer⟩,
    .step () ⟨0, .ok answer⟩, .step () ⟨0, .ok answer⟩]

def oneBackend (acts : List (Act Unit Env Unit)) : Option (Config Unit Op Unit Unit World Reply) :=
  (passes Unit minutePool).run (Config.initial (World.new ["ca"] 0)) acts

/-- Healthy, unhealthy one second later, and probed again a minute after that. -/
theorem reprobe_after_cooldown_minute :
    ∃ c, oneBackend (passAfter 0 true ++ passAfter 1 false ++ passAfter 60 true) = some c ∧
      (fromSecs 1 : Int) + minutePool.cooldown ≤ fromSecs 61 := by
  have hlog : (oneBackend (passAfter 0 true ++ passAfter 1 false ++ passAfter 60 true)).map
      (fun c => c.shared.log) = some [.healthy 0 (fromSecs 61), .pass (fromSecs 61) [0],
        .unhealthy 0 (fromSecs 1), .pass (fromSecs 1) [], .healthy 0 0, .pass 0 []] := by
    decide +kernel
  obtain ⟨c, hrun, hlog⟩ := Option.map_eq_some_iff.mp hlog
  refine ⟨c, hrun, ?_⟩
  refine reprobe_after_cooldown minutePool ["ca"] 0 _ c hrun [.healthy 0 (fromSecs 61)] []
    [.pass (fromSecs 1) [], .healthy 0 0, .pass 0 []] 0 (fromSecs 1) (fromSecs 61) [0]
    hlog (by decide) (by simp) ⟨0, by decide, ?_⟩
  intro now reprobed hmem
  obtain ⟨rfl, rfl⟩ : now = fromSecs 61 ∧ reprobed = [0] := by simpa using hmem
  exact .inr (by decide)

/-- A backend that was never healthy is marked unhealthy and probed again one second later, and so
    is one whose last success was an hour ago. -/
theorem reprobed_at_once :
    (oneBackend (passAfter 0 false ++ passAfter 1 false)).map (fun c => c.shared.log) =
        some [.pass (fromSecs 1) [0], .unhealthy 0 0, .pass 0 []] ∧
      (oneBackend (passAfter 0 true ++ passAfter 3600 false ++ passAfter 1 false)).map
          (fun c => c.shared.log) =
        some [.pass (fromSecs 3601) [0], .unhealthy 0 (fromSecs 3600), .pass (fromSecs 3600) [],
          .healthy 0 0, .pass 0 []] ∧
      (fromSecs 1 : Int) < 0 + minutePool.cooldown ∧
      (fromSecs 3601 : Int) < fromSecs 3600 + minutePool.cooldown := by
  decide +kernel

end Kipuka.Dogtag
