/-
  The round-robin strategy (`src/ha/strategy.rs`) with several sets of allowed CAs
  (`LabelExtractor::resolve`).
-/
import Kipuka.Generic.Evenly
import Kipuka.Ha.Health

namespace Kipuka.Ha

open Generic

/-! ## The CAs of a set -/

def CaPool.members (pool : CaPool) (allowed : List String) : List CaId :=
  (pool.connections.filter fun c => allowed.contains c.id).map CaConnection.id

theorem CaPool.nodup_members (pool : CaPool) (allowed : List String) :
    (pool.members allowed).Nodup :=
  pool.nodup.sublist (List.filter_sublist.map _)

/-- Every CA of the pool has a status and is available. -/
def AllAvailable (pool : CaPool) (statuses : Statuses) : Prop :=
  ∀ c ∈ pool.connections, ∃ st, statuses.lookup c.id = some st ∧ st.health.isAvailable = true

theorem candidates_eq {pool : CaPool} {statuses : Statuses} (h : AllAvailable pool statuses)
    (allowed : List String) :
    (pool.candidates statuses allowed).map (fun c => c.1.id) = pool.members allowed := by
  unfold CaPool.candidates CaPool.members
  have hconns : ∀ c ∈ pool.connections.filter fun c => allowed.contains c.id,
      ∃ st, statuses.lookup c.id = some st ∧ st.health.isAvailable = true :=
    fun c hc => h c (List.mem_of_mem_filter hc)
  generalize pool.connections.filter (fun c => allowed.contains c.id) = conns at hconns
  induction conns with
  | nil => rfl
  | cons c conns ih =>
    obtain ⟨st, hst, hav⟩ := hconns c List.mem_cons_self
    rw [List.filterMap_cons, hst, Option.filter_some, if_pos hav, List.map_cons,
      ← ih fun c' hc' => hconns c' (List.mem_cons_of_mem c hc')]
    rfl

variable {s : HaState}

theorem selectAllowed_roundRobin {H : HaManager} (hrr : H.strategy = .roundRobin)
    (h : AllAvailable H.toCaPool s.statuses) (allowed : List String) :
    selectAllowed H s allowed =
      if H.members allowed = [] then (s, [])
      else
        ({ s with counter := nextTicket s.counter },
          (H.members allowed)[s.counter % (H.members allowed).length]?.toList.map
            fun id => .picked allowed s.counter id) := by
  rw [← candidates_eq h allowed]
  unfold selectAllowed CaPool.selectAllowed select
  rw [hrr]
  generalize H.candidates s.statuses allowed = candidates
  by_cases hnil : candidates = []
  · subst hnil
    rfl
  · rw [if_neg (by simpa using hnil), if_neg (by simpa using hnil)]
    simp only [selectRoundRobin, List.length_map, List.getElem?_map]
    cases candidates[s.counter % candidates.length]? <;> rfl

/-! ## Picks -/

def picksFor (pool : CaPool) (allowed : List String) (log : List Entry) : List (Nat × CaId) :=
  log.filterMap fun entry =>
    match entry with
    | .picked allowed' ticket pick =>
      if pool.members allowed' = pool.members allowed then some (ticket, pick) else none
    | .ca .. => none

@[simp] theorem picksFor_append (pool : CaPool) (allowed : List String) (log log' : List Entry) :
    picksFor pool allowed (log ++ log') = picksFor pool allowed log ++ picksFor pool allowed log' :=
  List.filterMap_append

theorem picksFor_tagged (pool : CaPool) (allowed : List String) (id : CaId) (events : List Event) :
    picksFor pool allowed (tagged id events) = [] := by
  simp [picksFor, tagged]

variable {allowed : List String}

theorem mem_picksFor_singleton {pool : CaPool} {allowed' : List String} {ticket : Nat} {pick : CaId}
    {p : Nat × CaId} :
    p ∈ picksFor pool allowed [.picked allowed' ticket pick] ↔
      pool.members allowed' = pool.members allowed ∧ p = (ticket, pick) := by
  by_cases h : pool.members allowed' = pool.members allowed <;> simp [picksFor, h]

def tickets (log : List Entry) : List Nat :=
  log.filterMap fun entry =>
    match entry with
    | .picked _ ticket _ => some ticket
    | .ca .. => none

@[simp] theorem tickets_append (log log' : List Entry) :
    tickets (log ++ log') = tickets log ++ tickets log' := List.filterMap_append

theorem tickets_tagged (id : CaId) (events : List Event) : tickets (tagged id events) = [] := by
  simp [tickets, tagged]

structure NoPick (s : HaState) (r : HaState × List Entry) : Prop where
  counter : r.1.counter = s.counter
  out : ∃ id events, r.2 = tagged id events

theorem noPick_same {s' : HaState} (h : s'.counter = s.counter) : NoPick s (s', []) :=
  ⟨h, "", [], rfl⟩

theorem noPick_update (s : HaState) (id : CaId) (f : CaStatus → CaStatus × List Event) :
    NoPick s (s.update id f) := by
  unfold HaState.update
  cases hst : s.statuses.lookup id with
  | none => exact noPick_same rfl
  | some st => exact ⟨rfl, id, (f st).2, rfl⟩

theorem noPick_probeStep (H : HaManager) (s : HaState) (id : CaId) (rest : List CaId)
    (result : Except String Unit) : NoPick s (probeStep H s id rest result) := by
  unfold probeStep
  split
  · split
    · exact noPick_same rfl
    · exact ⟨rfl, id, _, rfl⟩
  · split <;> exact ⟨rfl, id, _, rfl⟩
  · cases result <;> exact ⟨rfl, id, _, rfl⟩
  · exact noPick_same rfl
  all_goals exact ⟨(noPick_update s id _).counter, (noPick_update s id _).out⟩

theorem noPick_checkStep (H : HaManager) (s : HaState) (result : Except String Unit) :
    NoPick s (checkStep H s result) := by
  unfold checkStep
  split
  · exact noPick_probeStep H s _ _ result
  · exact noPick_same rfl
  · split <;> exact noPick_same rfl

/-- What a step does to the counter, with all CAs available: a selection for a set of CAs takes the
    next ticket and the CA at its place, and nothing else draws tickets. -/
theorem act_pick {H : HaManager} (hrr : H.strategy = .roundRobin)
    (h : AllAvailable H.toCaPool s.statuses) (a : Act) :
    NoPick s (H.act s a) ∨
      ∃ allowed id, a = .select allowed ∧
        (H.members allowed)[s.counter % (H.members allowed).length]? = some id ∧
        (H.act s a).1.counter = nextTicket s.counter ∧
        (H.act s a).2 = [.picked allowed s.counter id] := by
  cases a with
  | request id latency => cases latency <;> exact .inl (noPick_update s id _)
  | select allowed =>
    have hselect : H.act s (.select allowed) = selectAllowed H s allowed := rfl
    rw [selectAllowed_roundRobin hrr h] at hselect
    by_cases hnil : H.members allowed = []
    · rw [if_pos hnil] at hselect
      rw [hselect]
      exact .inl (noPick_same rfl)
    · have hlt : s.counter % (H.members allowed).length < (H.members allowed).length :=
        Nat.mod_lt _ (List.length_pos_iff.mpr hnil)
      rw [if_neg hnil, List.getElem?_eq_getElem hlt] at hselect
      rw [hselect]
      exact .inr ⟨allowed, _, rfl, List.getElem?_eq_getElem hlt, rfl, rfl⟩
  | check result => exact .inl (noPick_checkStep H s result)

/-- The tickets drawn so far are all numbers in order, and each pick is at the place of its
    ticket. -/
structure Drawn (H : HaManager) (s : HaState) (log : List Entry) : Prop where
  counter : s.counter = (tickets log).length % 2 ^ 64
  tickets : tickets log = (List.range (tickets log).length).map (· % 2 ^ 64)
  picks : ∀ allowed, ∀ p ∈ picksFor H.toCaPool allowed log,
    (H.members allowed)[p.1 % (H.members allowed).length]? = some p.2

variable {H : HaManager} {start : Int} {log : List Entry}

theorem drawn_step (hrr : H.strategy = .roundRobin) (h : AllAvailable H.toCaPool s.statuses)
    (hdrawn : Drawn H s log) (a : Act) : Drawn H (H.act s a).1 (log ++ (H.act s a).2) := by
  rcases act_pick hrr h a with ⟨hcounter, id, events, hout⟩ | ⟨allowed, id, -, hid, hcounter, hout⟩
  · have hsame : Ha.tickets (log ++ tagged id events) = Ha.tickets log := by
      rw [tickets_append, tickets_tagged, List.append_nil]
    rw [hout]
    refine ⟨?_, ?_, ?_⟩
    · rw [hcounter, hsame, hdrawn.counter]
    · rw [hsame]
      exact hdrawn.tickets
    · intro allowed p hp
      rw [picksFor_append, picksFor_tagged, List.append_nil] at hp
      exact hdrawn.picks allowed p hp
  · have hmore : Ha.tickets (log ++ [.picked allowed s.counter id]) =
        Ha.tickets log ++ [s.counter] := by
      rw [tickets_append]
      rfl
    rw [hout]
    refine ⟨?_, ?_, ?_⟩
    · rw [hcounter, hmore, nextTicket, hdrawn.counter, List.length_append, List.length_singleton,
        Nat.mod_add_mod]
    · rw [hmore, List.length_append, List.length_singleton, List.range_succ, List.map_append,
        ← hdrawn.tickets, hdrawn.counter]
      rfl
    · intro allowed' p hp
      rw [picksFor_append, List.mem_append] at hp
      rcases hp with hp | hp
      · exact hdrawn.picks allowed' p hp
      · obtain ⟨hset, hp⟩ := mem_picksFor_singleton.mp hp
        rw [← hset, hp]
        exact hid

theorem drawn_run (hrr : H.strategy = .roundRobin) (inputs : List Input)
    (hall : ∀ done, done <+: inputs →
      AllAvailable H.toCaPool (H.machine.run (H.initial start) done).1.statuses) :
    Drawn H (H.machine.run (H.initial start) inputs).1
      (H.machine.run (H.initial start) inputs).2 := by
  induction inputs using List.reverseRecOn with
  | nil => exact ⟨rfl, rfl, fun _ p hp => absurd hp List.not_mem_nil⟩
  | append_singleton inputs i ih =>
    have hdrawn := ih fun done hdone => hall done (hdone.trans (List.prefix_append inputs [i]))
    have havailable := hall inputs (List.prefix_append inputs [i])
    rw [Machine.run_concat]
    generalize H.machine.run (H.initial start) inputs = r at hdrawn havailable
    -- only the clock has moved when the step is made
    have hlater : Drawn H { r.1 with clock := r.1.clock + i.elapsed } r.2 :=
      ⟨hdrawn.counter, hdrawn.tickets, hdrawn.picks⟩
    exact drawn_step hrr (s := { r.1 with clock := r.1.clock + i.elapsed }) havailable hlater i.act

/-! ## Even picks -/

theorem Drawn.pick_eq_iff (h : Drawn H s log) {p q : Nat × CaId}
    (hp : p ∈ picksFor H.toCaPool allowed log) (hq : q ∈ picksFor H.toCaPool allowed log) :
    p.2 = q.2 ↔
      p.1 % (H.members allowed).length = q.1 % (H.members allowed).length := by
  have hp' := h.picks allowed p hp
  have hq' := h.picks allowed q hq
  constructor
  · intro heq
    obtain ⟨hlt, -⟩ := List.getElem?_eq_some_iff.mp hp'
    exact (List.getElem?_inj hlt (H.nodup_members allowed)).mp (by rw [hp', hq', heq])
  · intro heq
    rw [heq, hq'] at hp'
    exact (Option.some.inj hp').symm

theorem Drawn.blocksNodup_iff (h : Drawn H s log) (allowed : List String) (n : Nat) :
    BlocksNodup n ((picksFor H.toCaPool allowed log).map Prod.snd) ↔
      BlocksNodup n ((picksFor H.toCaPool allowed log).map
        fun p => p.1 % (H.members allowed).length) := by
  refine forall_congr' fun j => ?_
  simp only [← List.map_drop, ← List.map_take, List.Nodup, List.pairwise_map]
  refine List.Pairwise.iff_of_mem fun hp hq => not_congr ?_
  exact h.pick_eq_iff (List.mem_of_mem_drop (List.mem_of_mem_take hp))
    (List.mem_of_mem_drop (List.mem_of_mem_take hq))

theorem Drawn.mem_members (h : Drawn H s log) (allowed : List String) :
    ∀ id ∈ (picksFor H.toCaPool allowed log).map Prod.snd, id ∈ H.members allowed := by
  intro id hid
  obtain ⟨p, hp, rfl⟩ := List.mem_map.mp hid
  exact List.mem_of_getElem? (h.picks allowed p hp)

/-! ### Four CAs -/

def fourCas : HaManager where
  connections := [⟨"a", "local:a", 1, 0⟩, ⟨"b", "local:b", 1, 1⟩, ⟨"c", "local:c", 1, 2⟩,
    ⟨"d", "local:d", 1, 3⟩]
  nodup := by decide
  strategy := .roundRobin
  failureThreshold := 3
  cooldown := fromSecs 60
  probeInterval := fromSecs 30
  recoveryThreshold := 2
  degradedLatencyMs := 2000

def selections (sets : List (List String)) : List Input :=
  sets.map fun allowed => ⟨0, .select allowed⟩

theorem selections_statuses (H : HaManager) (start : Int) (sets : List (List String)) :
    (H.machine.run (H.initial start) (selections sets)).1.statuses = H.newStatuses := by
  induction sets using List.reverseRecOn with
  | nil => rfl
  | append_singleton sets allowed ih =>
    rw [selections, List.map_append, List.map_singleton, Machine.run_concat]
    exact ih

theorem fourCas_available (start : Int) (sets : List (List String)) (done : List Input)
    (h : done <+: selections sets) :
    AllAvailable fourCas.toCaPool
      (fourCas.machine.run (fourCas.initial start) done).1.statuses := by
  obtain ⟨sets', -, rfl⟩ := List.prefix_map_iff.mp h
  rw [← selections, selections_statuses]
  intro c hc
  have hsome : ∀ c ∈ fourCas.connections, (fourCas.newStatuses.lookup c.id).isSome = true := by
    decide
  obtain ⟨st, hst⟩ := Option.isSome_iff_exists.mp (hsome c hc)
  exact ⟨st, hst, by rw [lookup_newStatuses hst]; rfl⟩

/-! ### The picks for a set -/

/-- With all CAs available the tickets are handed out in order, to whichever set is asked for. The
    picks for a set are even exactly when its tickets are pairwise different modulo its size in each
    of the blocks of that size. -/
theorem round_robin_even_iff (hrr : H.strategy = .roundRobin) (inputs : List Input)
    (hall : ∀ done, done <+: inputs →
      AllAvailable H.toCaPool (H.machine.run (H.initial start) done).1.statuses) :
    let log := (H.machine.run (H.initial start) inputs).2
    tickets log = (List.range (tickets log).length).map (· % 2 ^ 64) ∧
      ∀ allowed, EvenlyTaken (H.members allowed)
          ((picksFor H.toCaPool allowed log).map Prod.snd) ↔
        BlocksNodup (H.members allowed).length ((picksFor H.toCaPool allowed log).map
          fun p => p.1 % (H.members allowed).length) := by
  have hdrawn := drawn_run hrr inputs hall
  refine ⟨hdrawn.tickets, fun allowed => ?_⟩
  rw [evenlyTaken_iff (H.nodup_members allowed) (hdrawn.mem_members allowed)]
  exact hdrawn.blocksNodup_iff allowed _

theorem one_set_even :
    EvenlyTaken (fourCas.members ["a", "b", "c"])
      ((picksFor fourCas.toCaPool ["a", "b", "c"] (fourCas.machine.run (fourCas.initial 0)
        (selections (List.replicate 4 ["a", "b", "c"]))).2).map Prod.snd) := by
  refine ((round_robin_even_iff rfl _ (fourCas_available 0 _)).2 _).mpr ?_
  change BlocksNodup 3 [0, 1, 2, 0]
  intro j
  -- the block of the first three tickets, that of the fourth, and empty ones
  rcases j with _ | _ | j
  · decide
  · decide
  · rw [List.drop_eq_nil_of_le (by simp only [List.length_cons, List.length_nil]; omega)]
    exact List.nodup_nil

theorem alternating_sets_uneven :
    let inputs := selections [["a", "b"], ["c", "d"], ["a", "b"]]
    (∀ done, done <+: inputs →
      AllAvailable fourCas.toCaPool (fourCas.machine.run (fourCas.initial 0) done).1.statuses) ∧
    ¬ EvenlyTaken (fourCas.members ["a", "b"])
      ((picksFor fourCas.toCaPool ["a", "b"]
        (fourCas.machine.run (fourCas.initial 0) inputs).2).map Prod.snd) := by
  refine ⟨fourCas_available 0 _, fun h => ?_⟩
  have hpicks : (picksFor fourCas.toCaPool ["a", "b"] (fourCas.machine.run (fourCas.initial 0)
      (selections [["a", "b"], ["c", "d"], ["a", "b"]])).2).map Prod.snd = ["a", "a"] := by decide
  rw [hpicks] at h
  have := h ["a", "a"] List.prefix_rfl "a" (by decide) "b" (by decide)
  exact absurd this (by decide)

end Kipuka.Ha
