/-
  What a selection returns (`CaPool::select_allowed` in `src/ha/pool.rs`, `StrategySelector` in
  `src/ha/strategy.rs`), for any connections, statuses and counter.
-/
import Kipuka.Generic.Shares
import Kipuka.Ha.Pool

namespace Kipuka.Ha

open Generic

/-! ## Eligible CAs -/

/-- The candidates among some connections. Their ids need not be different. -/
def candidatesAmong (connections : List CaConnection) (statuses : Statuses)
    (allowed : List String) : List Candidate :=
  (connections.filter fun c => allowed.contains c.id).filterMap fun c =>
    ((statuses.lookup c.id).filter fun s => s.health.isAvailable).map fun s => (c, s)

def selectFrom (strategy : FailoverStrategy) (connections : List CaConnection)
    (statuses : Statuses) (counter : Nat) (allowed : List String) : Option CaConnection × Nat :=
  select strategy counter (candidatesAmong connections statuses allowed)

theorem candidates_eq_among (pool : CaPool) (statuses : Statuses) (allowed : List String) :
    pool.candidates statuses allowed = candidatesAmong pool.connections statuses allowed := rfl

theorem selectAllowed_eq_from (pool : CaPool) (statuses : Statuses) (counter : Nat)
    (allowed : List String) : pool.selectAllowed statuses counter allowed =
      selectFrom pool.strategy pool.connections statuses counter allowed := by
  rw [CaPool.selectAllowed, selectFrom, candidates_eq_among]

/-- The CA is allowed and available. -/
def Eligible (statuses : Statuses) (allowed : List String) (c : CaConnection) : Prop :=
  c.id ∈ allowed ∧ ∃ status, statuses.lookup c.id = some status ∧ status.health.isAvailable = true

variable {c : CaConnection}

theorem mem_candidatesAmong {connections : List CaConnection} {statuses : Statuses}
    {allowed : List String} :
    (∃ status, (c, status) ∈ candidatesAmong connections statuses allowed) ↔
      c ∈ connections ∧ Eligible statuses allowed c := by
  unfold candidatesAmong Eligible
  simp only [List.mem_filterMap, List.mem_filter, List.contains_iff_mem, Option.map_eq_some_iff,
    Option.filter_eq_some_iff]
  constructor
  · rintro ⟨status, c', ⟨hc, hallowed⟩, status', ⟨hstatus, havailable⟩, heq⟩
    cases heq
    exact ⟨hc, hallowed, status, hstatus, havailable⟩
  · rintro ⟨hc, hallowed, status, hstatus, havailable⟩
    exact ⟨status, c, ⟨hc, hallowed⟩, status, ⟨hstatus, havailable⟩, rfl⟩

/-! ## The strategies -/

theorem minBy_mem {α : Type} {greater : α → α → Bool} {xs : List α} {x : α}
    (h : minBy greater xs = some x) : x ∈ xs := by
  have hfold : ∀ (ys : List α) (best : α),
      ys.foldl (fun best y => if greater best y then y else best) best ∈ best :: ys := by
    intro ys
    induction ys with
    | nil => exact fun best => List.mem_cons_self
    | cons y ys ih =>
      intro best
      rw [List.foldl_cons]
      split
      · exact List.mem_cons_of_mem best (ih y)
      · rcases List.mem_cons.mp (ih best) with heq | hmem
        · exact List.mem_cons.mpr (.inl heq)
        · exact List.mem_cons_of_mem best (List.mem_cons_of_mem y hmem)
  cases xs with
  | nil => cases h
  | cons y ys =>
    cases h
    exact hfold ys y

theorem minBy_key_le {α : Type} {key : α → Nat} {xs : List α} {x : α}
    (h : minBy (fun a b => key a > key b) xs = some x) : ∀ y ∈ xs, key x ≤ key y := by
  have hfold : ∀ (ys : List α) (best : α), ∀ y ∈ best :: ys,
      key (ys.foldl (fun best y => if decide (key best > key y) then y else best) best) ≤ key y := by
    intro ys
    induction ys with
    | nil =>
      intro best y hy
      rw [List.mem_singleton.mp hy]
      exact Nat.le_refl _
    | cons z ys ih =>
      intro best y hy
      rw [List.foldl_cons]
      split
      · next hgreater =>
        have hz := ih z z List.mem_cons_self
        rcases List.mem_cons.mp hy with rfl | hy
        · exact hz.trans (Nat.le_of_lt (of_decide_eq_true hgreater))
        · exact ih z y hy
      · next hless =>
        have hbest := ih best best List.mem_cons_self
        have hle : key best ≤ key z := Nat.not_lt.mp fun hlt => hless (decide_eq_true hlt)
        rcases List.mem_cons.mp hy with rfl | hy
        · exact hbest
        · rcases List.mem_cons.mp hy with rfl | hy
          · exact hbest.trans hle
          · exact ih best y (List.mem_cons_of_mem _ hy)
  cases xs with
  | nil => cases h
  | cons y ys =>
    cases h
    exact hfold ys y

theorem minBy_isSome {α : Type} (greater : α → α → Bool) {xs : List α} (h : xs ≠ []) :
    (minBy greater xs).isSome = true := by
  cases xs with
  | nil => exact absurd rfl h
  | cons y ys => rfl

def totalWeight (candidates : List Candidate) : Nat := (candidates.map fun c => c.1.weight).sum

def weightShares (candidates : List Candidate) : List Candidate :=
  shares (fun c => c.1.weight) candidates

theorem length_weightShares (candidates : List Candidate) :
    (weightShares candidates).length = totalWeight candidates := length_shares _ candidates

theorem foldl_weight (candidates : List Candidate) (total : Nat) :
    candidates.foldl (fun total c => total + c.1.weight) total = total + totalWeight candidates := by
  induction candidates generalizing total with
  | nil => rfl
  | cons c cs ih => rw [List.foldl_cons, ih, totalWeight, totalWeight, List.map_cons, List.sum_cons,
      Nat.add_assoc]

theorem weightedPick_eq {tick cumulative : Nat} {candidates : List Candidate}
    (htick : cumulative ≤ tick) (hsum : cumulative + totalWeight candidates < 2 ^ 32) :
    weightedPick tick cumulative candidates =
      (weightShares candidates)[tick - cumulative]?.map Prod.fst := by
  induction candidates generalizing cumulative with
  | nil => rfl
  | cons c cs ih =>
    have htotal : totalWeight (c :: cs) = c.1.weight + totalWeight cs := rfl
    have hshares : weightShares (c :: cs) = List.replicate c.1.weight c ++ weightShares cs := rfl
    have hmod : (cumulative + c.1.weight) % 2 ^ 32 = cumulative + c.1.weight :=
      Nat.mod_eq_of_lt (by omega)
    simp only [weightedPick]
    rw [hmod, hshares, List.getElem?_append, List.length_replicate]
    by_cases hlt : tick < cumulative + c.1.weight
    · have hplace : tick - cumulative < c.1.weight := by omega
      rw [if_pos hlt, if_pos hplace, List.getElem?_replicate, if_pos hplace]
      rfl
    · have hplace : ¬ tick - cumulative < c.1.weight := by omega
      rw [if_neg hlt, if_neg hplace, ih (by omega) (by omega)]
      congr 2
      omega

variable {candidates : List Candidate} {counter : Nat}

theorem selectWeighted_shares (hpos : 0 < totalWeight candidates)
    (hsum : totalWeight candidates < 2 ^ 32) :
    selectWeighted counter candidates =
      ((weightShares candidates)[counter % 2 ^ 32 % totalWeight candidates]?.map Prod.fst,
        nextTicket counter) := by
  have hlt : counter % 2 ^ 32 % totalWeight candidates < (weightShares candidates).length := by
    rw [length_weightShares]
    exact Nat.mod_lt _ hpos
  simp only [selectWeighted]
  rw [foldl_weight, Nat.zero_add, Nat.mod_eq_of_lt hsum, if_neg hpos.ne',
    weightedPick_eq (Nat.zero_le _) (by omega), Nat.sub_zero, List.getElem?_eq_getElem hlt]
  rfl

theorem selectWeighted_zero (hzero : totalWeight candidates = 0) :
    selectWeighted counter candidates = selectRoundRobin counter candidates := by
  simp only [selectWeighted]
  rw [foldl_weight, hzero]
  rfl

theorem selectRoundRobin_picks (counter : Nat) (hne : candidates ≠ []) :
    ∃ c ∈ candidates, (selectRoundRobin counter candidates).1 = some c.1 := by
  have hlt : counter % candidates.length < candidates.length :=
    Nat.mod_lt _ (List.length_pos_iff.mpr hne)
  refine ⟨candidates[counter % candidates.length], List.getElem_mem hlt, ?_⟩
  rw [selectRoundRobin, List.getElem?_eq_getElem hlt]
  rfl

theorem selectWeighted_picks (counter : Nat) (hne : candidates ≠ [])
    (hsum : totalWeight candidates < 2 ^ 32) :
    ∃ c ∈ candidates, (selectWeighted counter candidates).1 = some c.1 ∧
      (0 < totalWeight candidates → 0 < c.1.weight) := by
  rcases Nat.eq_zero_or_pos (totalWeight candidates) with hzero | hpos
  · obtain ⟨c, hc, hpick⟩ := selectRoundRobin_picks counter hne
    refine ⟨c, hc, ?_, fun hpos => absurd hzero hpos.ne'⟩
    rw [selectWeighted_zero hzero, hpick]
  · have hlt : counter % 2 ^ 32 % totalWeight candidates < (weightShares candidates).length := by
      rw [length_weightShares]
      exact Nat.mod_lt _ hpos
    have hmem := List.getElem_mem hlt
    obtain ⟨hc, hweight⟩ := (mem_shares _).mp hmem
    refine ⟨_, hc, ?_, fun _ => hweight⟩
    rw [selectWeighted_shares hpos hsum, List.getElem?_eq_getElem hlt]
    rfl

theorem minBy_picks (greater : Candidate → Candidate → Bool) (hne : candidates ≠ []) :
    ∃ c ∈ candidates, (minBy greater candidates).map Prod.fst = some c.1 := by
  obtain ⟨c, hc⟩ := Option.isSome_iff_exists.mp (minBy_isSome greater hne)
  exact ⟨c, minBy_mem hc, by rw [hc]; rfl⟩

theorem select_picks (strategy : FailoverStrategy) (counter : Nat) (hne : candidates ≠ [])
    (hsum : totalWeight candidates < 2 ^ 32) :
    ∃ c ∈ candidates, (select strategy counter candidates).1 = some c.1 ∧
      (strategy = .weighted → 0 < totalWeight candidates → 0 < c.1.weight) := by
  have hempty : ¬ candidates.isEmpty = true := by simpa using hne
  unfold select
  rw [if_neg hempty]
  cases strategy with
  | activePassive =>
    obtain ⟨c, hc, hpick⟩ := minBy_picks (fun a b => a.1.priority > b.1.priority) hne
    exact ⟨c, hc, hpick, by simp⟩
  | roundRobin =>
    obtain ⟨c, hc, hpick⟩ := selectRoundRobin_picks counter hne
    exact ⟨c, hc, hpick, by simp⟩
  | weighted =>
    obtain ⟨c, hc, hpick, hweight⟩ := selectWeighted_picks counter hne hsum
    exact ⟨c, hc, hpick, fun _ => hweight⟩
  | latencyBased =>
    obtain ⟨c, hc, hpick⟩ :=
      minBy_picks (fun a b => decide (a.2.latencyEmaMs > b.2.latencyEmaMs)) hne
    exact ⟨c, hc, hpick, by simp⟩

theorem weightedPick_mem {tick cumulative : Nat}
    (h : weightedPick tick cumulative candidates = some c) :
    ∃ status, (c, status) ∈ candidates := by
  induction candidates generalizing cumulative with
  | nil => cases h
  | cons d ds ih =>
    simp only [weightedPick] at h
    split at h
    · cases h
      exact ⟨d.2, List.mem_cons_self⟩
    · obtain ⟨status, hmem⟩ := ih h
      exact ⟨status, List.mem_cons_of_mem d hmem⟩

theorem mem_of_map_fst {pick : Option Candidate} (hpick : ∀ d, pick = some d → d ∈ candidates)
    (h : pick.map Prod.fst = some c) : ∃ status, (c, status) ∈ candidates := by
  obtain ⟨d, hd, rfl⟩ := Option.map_eq_some_iff.mp h
  exact ⟨d.2, hpick d hd⟩

theorem select_mem {strategy : FailoverStrategy}
    (h : (select strategy counter candidates).1 = some c) : ∃ status, (c, status) ∈ candidates := by
  have hroundRobin : ∀ c, (selectRoundRobin counter candidates).1 = some c →
      ∃ status, (c, status) ∈ candidates :=
    fun c h => mem_of_map_fst (fun _ => List.mem_of_getElem?) h
  unfold select at h
  split at h
  · cases h
  · cases strategy with
    | activePassive | latencyBased => exact mem_of_map_fst (fun _ => minBy_mem) h
    | roundRobin => exact hroundRobin c h
    | weighted =>
      simp only [selectWeighted] at h
      split at h
      · exact hroundRobin c h
      · rcases Option.or_eq_some_iff.mp h with hpick | ⟨-, hlast⟩
        · exact weightedPick_mem hpick
        · exact mem_of_map_fst (fun _ => List.mem_of_getLast?) hlast

/-! ## Selections -/

theorem totalWeight_candidatesAmong_le (connections : List CaConnection) (statuses : Statuses)
    (allowed : List String) :
    totalWeight (candidatesAmong connections statuses allowed) ≤
      (connections.map CaConnection.weight).sum := by
  induction connections with
  | nil => exact Nat.le_refl 0
  | cons c cs ih =>
    have hcons : totalWeight (candidatesAmong (c :: cs) statuses allowed) ≤
        c.weight + totalWeight (candidatesAmong cs statuses allowed) := by
      unfold candidatesAmong
      rw [List.filter_cons]
      split
      · rw [List.filterMap_cons]
        split
        · exact Nat.le_add_left _ _
        · next s hs =>
          obtain ⟨status, -, rfl⟩ := Option.map_eq_some_iff.mp hs
          exact Nat.le_refl _
      · exact Nat.le_add_left _ _
    rw [List.map_cons, List.sum_cons]
    omega

theorem totalWeight_pos {c : Candidate} (hc : c ∈ candidates) (hpos : 0 < c.1.weight) :
    0 < totalWeight candidates := by
  have hshare : c ∈ weightShares candidates := (mem_shares _).mpr ⟨hc, hpos⟩
  rw [← length_weightShares]
  exact List.length_pos_of_mem hshare

/-- A selection succeeds exactly where some CA is eligible, and picks an eligible CA; under the
    weighted strategy it is one with a positive weight, if an eligible CA has one. -/
theorem selectFrom_spec (strategy : FailoverStrategy) (counter : Nat)
    (connections : List CaConnection) (statuses : Statuses) (allowed : List String)
    (hsum : (connections.map CaConnection.weight).sum < 2 ^ 32) :
    let pick := (selectFrom strategy connections statuses counter allowed).1
    (pick.isSome = true ↔ ∃ c ∈ connections, Eligible statuses allowed c) ∧
      ∀ c, pick = some c → c ∈ connections ∧ Eligible statuses allowed c ∧
        (strategy = .weighted →
          (∃ c' ∈ connections, Eligible statuses allowed c' ∧ 0 < c'.weight) → 0 < c.weight) := by
  intro pick
  have hfits : totalWeight (candidatesAmong connections statuses allowed) < 2 ^ 32 :=
    (totalWeight_candidatesAmong_le connections statuses allowed).trans_lt hsum
  by_cases hnil : candidatesAmong connections statuses allowed = []
  · have hnone : pick = none := by
      simp only [pick, selectFrom, hnil]
      rfl
    rw [hnone]
    refine ⟨⟨by simp, ?_⟩, by simp⟩
    rintro ⟨c, hc, heligible⟩
    obtain ⟨status, hmem⟩ := mem_candidatesAmong.mpr ⟨hc, heligible⟩
    rw [hnil] at hmem
    cases hmem
  · obtain ⟨c, hc, hpick, hweight⟩ := select_picks strategy counter hnil hfits
    have hsome : pick = some c.1 := hpick
    obtain ⟨hconn, heligible⟩ := mem_candidatesAmong.mp ⟨c.2, hc⟩
    rw [hsome]
    refine ⟨⟨fun _ => ⟨c.1, hconn, heligible⟩, fun _ => rfl⟩, ?_⟩
    intro c₀ heq
    obtain rfl := Option.some.inj heq
    refine ⟨hconn, heligible, ?_⟩
    rintro hstrategy ⟨c', hc', heligible', hpos⟩
    obtain ⟨status, hmem⟩ := mem_candidatesAmong.mpr ⟨hc', heligible'⟩
    exact hweight hstrategy (totalWeight_pos hmem hpos)

def unevenCas : List CaConnection := [⟨"a", "local:a", 3, 0⟩, ⟨"b", "local:b", 0, 1⟩]

theorem selectFrom_uneven :
    ((selectFrom .weighted unevenCas ((∅ : Statuses).insert "a" .new) 7 ["a", "b"]).1.isSome = true ↔
      ∃ c ∈ unevenCas, Eligible ((∅ : Statuses).insert "a" .new) ["a", "b"] c) :=
  (selectFrom_spec .weighted 7 unevenCas _ ["a", "b"] (by decide)).1

/-! ## Weighted selections in a row -/

def weightedPicks (candidates : List Candidate) : (n counter : Nat) → List (Option CaConnection)
  | 0, _ => []
  | n + 1, counter =>
    let (pick, counter') := select .weighted counter candidates
    pick :: weightedPicks candidates n counter'

theorem weightedPicks_eq (hpos : 0 < totalWeight candidates)
    (hsum : totalWeight candidates < 2 ^ 32) (n counter : Nat)
    (hlow : counter % 2 ^ 32 + n ≤ 2 ^ 32) :
    weightedPicks candidates n counter = (List.range n).map fun i =>
      (weightShares candidates)[(counter % 2 ^ 32 + i) % (weightShares candidates).length]?.map
        Prod.fst := by
  have hne : ¬ candidates.isEmpty = true := by
    intro hempty
    rw [List.isEmpty_iff.mp hempty] at hpos
    exact absurd hpos (Nat.lt_irrefl 0)
  induction n generalizing counter with
  | zero => rfl
  | succ n ih =>
    have hpick : select .weighted counter candidates =
        ((weightShares candidates)[counter % 2 ^ 32 % totalWeight candidates]?.map Prod.fst,
          nextTicket counter) := by
      unfold select
      rw [if_neg hne]
      exact selectWeighted_shares hpos hsum
    simp only [weightedPicks, hpick]
    rw [List.range_succ_eq_map, List.map_cons, List.map_map, length_weightShares, Nat.add_zero]
    congr 1
    rcases Nat.eq_zero_or_pos n with rfl | hn
    · rfl
    -- the lower half of the counter goes up by one
    have hnext : nextTicket counter % 2 ^ 32 = counter % 2 ^ 32 + 1 := by
      unfold nextTicket
      omega
    rw [ih (nextTicket counter) (by omega), hnext, length_weightShares]
    refine List.map_congr_left fun i _ => ?_
    simp only [Function.comp_apply]
    congr 3
    omega

def timesPicked (id : CaId) (picks : List (Option CaConnection)) : Nat :=
  picks.countP fun pick => pick.map CaConnection.id = some id

theorem timesPicked_window (hpos : 0 < totalWeight candidates)
    (hsum : totalWeight candidates < 2 ^ 32)
    (hlow : counter % 2 ^ 32 + totalWeight candidates ≤ 2 ^ 32) (id : CaId) :
    timesPicked id (weightedPicks candidates (totalWeight candidates) counter) =
      totalWeight (candidates.filter fun c => c.1.id = id) := by
  have hwindow := window_perm (weightShares candidates) (counter % 2 ^ 32)
  rw [weightedPicks_eq hpos hsum _ _ hlow, ← length_weightShares]
  have hpicks := hwindow.map (Option.map Prod.fst)
  rw [List.map_map] at hpicks
  have hcount := hpicks.countP_eq fun pick => decide (pick.map CaConnection.id = some id)
  refine hcount.trans ?_
  rw [List.countP_map, List.countP_map]
  have hshares := countP_shares (fun c : Candidate => c.1.weight) (fun c => decide (c.1.id = id))
    candidates
  simpa [Function.comp_def, weightShares, totalWeight] using hshares

theorem filter_id_eq (hnodup : (candidates.map fun c => c.1.id).Nodup) {c : Candidate}
    (hc : c ∈ candidates) : (candidates.filter fun c' => c'.1.id = c.1.id) = [c] := by
  induction candidates with
  | nil => cases hc
  | cons d ds ih =>
    rw [List.map_cons, List.nodup_cons] at hnodup
    rcases List.mem_cons.mp hc with rfl | hc
    · have hrest : (ds.filter fun c' => c'.1.id = c.1.id) = [] := by
        refine List.filter_eq_nil_iff.mpr fun d hd heq => hnodup.1 ?_
        exact List.mem_map.mpr ⟨d, hd, of_decide_eq_true heq⟩
      rw [List.filter_cons_of_pos (by simp), hrest]
    · have hne : d.1.id ≠ c.1.id := fun heq => hnodup.1 (List.mem_map.mpr ⟨c, hc, heq.symm⟩)
      rw [List.filter_cons_of_neg (by simpa using hne), ih hnodup.2 hc]

/-- As many weighted selections in a row as the weights sum up to, with the same candidates and
    without passing a multiple of 2^32, pick each CA as often as its weight says: the weights of all
    its entries, if the list has it more than once. -/
theorem weighted_window (candidates : List Candidate) (counter : Nat)
    (hpos : 1 ≤ totalWeight candidates) (hsum : totalWeight candidates ≤ 2 ^ 32 - 1)
    (hcross : counter / 2 ^ 32 = (counter + (totalWeight candidates - 1)) / 2 ^ 32) :
    let picks := weightedPicks candidates (totalWeight candidates) counter
    (∀ id, timesPicked id picks = totalWeight (candidates.filter fun c => c.1.id = id)) ∧
      ((candidates.map fun c => c.1.id).Nodup →
        ∀ c ∈ candidates, timesPicked c.1.id picks = c.1.weight) := by
  intro picks
  have htimes : ∀ id, timesPicked id picks =
      totalWeight (candidates.filter fun c => c.1.id = id) :=
    timesPicked_window (by omega) (by omega) (by omega)
  refine ⟨htimes, ?_⟩
  intro hnodup c hc
  rw [htimes, filter_id_eq hnodup hc]
  exact Nat.add_zero _

def weightedCas : List Candidate :=
  [(⟨"a", "local:a", 2, 0⟩, .new), (⟨"b", "local:b", 1, 1⟩, .new), (⟨"c", "local:c", 3, 2⟩, .new)]

theorem weighted_window_three :
    timesPicked "c" (weightedPicks weightedCas (totalWeight weightedCas) 4) = 3 :=
  ((weighted_window weightedCas 4 (by decide) (by decide) (by decide)).2 (by decide))
    (⟨"c", "local:c", 3, 2⟩, .new) (by simp [weightedCas])

end Kipuka.Ha
