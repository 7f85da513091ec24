/-
  Scripts in stages that a run can be cut off in.
-/
import Kipuka.Generic.Outcome
import Mathlib.Data.List.Infix
import Mathlib.Logic.Relation

namespace Kipuka.Generic

variable {σ ε : Type}

/-! ## Steps -/

def runSteps : List (σ → Except ε σ) → σ → Except ε σ
  | [], s => .ok s
  | step :: steps, s => step s >>= runSteps steps

theorem runSteps_cons (step : σ → Except ε σ) (steps : List (σ → Except ε σ)) (s : σ) :
    runSteps (step :: steps) s = step s >>= runSteps steps := rfl

theorem runSteps_append (steps steps' : List (σ → Except ε σ)) (s : σ) :
    runSteps (steps ++ steps') s = runSteps steps s >>= runSteps steps' := by
  induction steps generalizing s with
  | nil => rfl
  | cons step steps ih =>
    rw [List.cons_append, runSteps_cons, runSteps_cons, bind_assoc]
    exact congrArg _ (funext ih)

variable {steps : List (σ → Except ε σ)} {s t : σ}

theorem runSteps_append_eq_ok {steps' : List (σ → Except ε σ)} :
    runSteps (steps ++ steps') s = .ok t ↔
      ∃ mid, runSteps steps s = .ok mid ∧ runSteps steps' mid = .ok t := by
  rw [runSteps_append, except_bind_eq_ok]

variable {I : σ → Prop}

theorem runSteps_keeps (hkeep : ∀ step ∈ steps, ∀ s s', I s → step s = .ok s' → I s')
    (hs : I s) (h : runSteps steps s = .ok t) : I t := by
  induction steps generalizing s with
  | nil => exact Except.ok.inj h ▸ hs
  | cons step steps ih =>
    obtain ⟨mid, hstep, hrest⟩ := except_bind_eq_ok.mp h
    exact ih (fun step' hstep' => hkeep step' (List.mem_cons_of_mem step hstep'))
      (hkeep step List.mem_cons_self s mid hs hstep) hrest

theorem runSteps_idle (h : ∀ step ∈ steps, step s = .ok s) : runSteps steps s = .ok s := by
  induction steps with
  | nil => rfl
  | cons step steps ih =>
    rw [runSteps_cons, h step List.mem_cons_self, except_ok_bind]
    exact ih fun step' hstep' => h step' (List.mem_cons_of_mem step hstep')

theorem runSteps_ne_ok (hkeep : ∀ step ∈ steps, ∀ s s', I s → step s = .ok s' → I s')
    {step : σ → Except ε σ} (hmem : step ∈ steps) (hfail : ∀ s s', I s → step s ≠ .ok s')
    (hs : I s) (t : σ) : runSteps steps s ≠ .ok t := by
  intro h
  obtain ⟨before, after, rfl⟩ := List.append_of_mem hmem
  obtain ⟨mid, hbefore, hafter⟩ := runSteps_append_eq_ok.mp h
  obtain ⟨mid', hstep, -⟩ := except_bind_eq_ok.mp hafter
  refine hfail mid mid' (runSteps_keeps ?_ hs hbefore) hstep
  exact fun step' hstep' => hkeep step' (List.mem_append_left _ hstep')

/-! ## Stages -/

structure Stage (σ ε : Type) where
  number : Int
  steps : List (σ → Except ε σ)
  record : σ → Except ε σ

def Stage.all (g : Stage σ ε) : List (σ → Except ε σ) := g.steps ++ [g.record]

structure Script (σ ε : Type) where
  stages : List (Stage σ ε)
  /-- The number that a state remembers. -/
  number : σ → Int

namespace Script

def pending (stages : List (Stage σ ε)) (n : Int) : List (σ → Except ε σ) :=
  (stages.filter fun g => n < g.number).flatMap Stage.all

def run (P : Script σ ε) (s : σ) : Except ε σ := runSteps (pending P.stages (P.number s)) s

/-- One run of a script that ended early: a part of the pending steps was done. -/
def CutOff (P : Script σ ε) (s s' : σ) : Prop :=
  ∃ done, done <+: pending P.stages (P.number s) ∧ runSteps done s = .ok s'

/-- Any number of runs that ended early. -/
def Interrupted (P : Script σ ε) : σ → σ → Prop := Relation.ReflTransGen P.CutOff

/-- The stages are in order, and only their last steps change the number. -/
structure Lawful (P : Script σ ε) : Prop where
  ordered : P.stages.Pairwise fun g g' => g.number < g'.number
  steps_number : ∀ g ∈ P.stages, ∀ step ∈ g.steps, ∀ s s', step s = .ok s' →
    P.number s' = P.number s
  record_number : ∀ g ∈ P.stages, ∀ s s', P.number s < g.number → g.record s = .ok s' →
    P.number s' = g.number

variable {stages : List (Stage σ ε)} {n : Int}

theorem pending_of_lt (h : ∀ g ∈ stages, n < g.number) :
    pending stages n = stages.flatMap Stage.all := by
  rw [pending, List.filter_eq_self.mpr fun g hg => decide_eq_true (h g hg)]

variable {g : Stage σ ε}

theorem pending_cons_of_le (h : g.number ≤ n) : pending (g :: stages) n = pending stages n := by
  rw [pending, List.filter_cons_of_neg (by simpa using h)]
  rfl

variable {P : Script σ ε}

/-- Where a run of some stages was cut off: after `before`, which are whole stages, and a part of the
    next one. What is left to do then begins with that part. -/
structure Parted (P : Script σ ε) (stages : List (Stage σ ε)) (s s' : σ)
    (before part rest : List (σ → Except ε σ)) (mid : σ) : Prop where
  all : stages.flatMap Stage.all = before ++ (part ++ rest)
  runBefore : runSteps before s = .ok mid
  runPart : runSteps part mid = .ok s'
  left : pending stages (P.number s') = part ++ rest
  ofStage : part = [] ∨ ∃ g ∈ stages, P.number s' < g.number ∧ part <+: g.steps

variable {s' : σ}

theorem Lawful.part_number (h : P.Lawful) (hg : g ∈ P.stages) {part : List (σ → Except ε σ)}
    (hpart : part <+: g.steps) (hrun : runSteps part s = .ok s') : P.number s' = P.number s := by
  refine runSteps_keeps (I := fun u => P.number u = P.number s) ?_ rfl hrun
  intro step hstep u u' hu hok
  exact (h.steps_number g hg step (hpart.subset hstep) u u' hok).trans hu

theorem Lawful.stage_number (h : P.Lawful) (hg : g ∈ P.stages)
    (hlt : P.number s < g.number) (hrun : runSteps g.all s = .ok s') : P.number s' = g.number := by
  obtain ⟨mid, hsteps, hlast⟩ := runSteps_append_eq_ok.mp hrun
  obtain ⟨s'', hrecord, hs''⟩ := except_bind_eq_ok.mp hlast
  obtain rfl : s'' = s' := Except.ok.inj hs''
  have hmid := h.part_number hg List.prefix_rfl hsteps
  exact h.record_number g hg mid s'' (hmid ▸ hlt) hrecord

theorem prefix_of_prefix_stage {done after : List (σ → Except ε σ)} (h : done <+: g.all ++ after) :
    done <+: g.steps ∨ ∃ done', done = g.all ++ done' ∧ done' <+: after := by
  rcases List.prefix_or_prefix_of_prefix h (List.prefix_append g.all after) with hin | ⟨done', rfl⟩
  · rcases List.prefix_concat_iff.mp hin with rfl | hpart
    · exact .inr ⟨[], (List.append_nil _).symm, List.nil_prefix⟩
    · exact .inl hpart
  · exact .inr ⟨done', rfl, (List.prefix_append_right_inj _).mp h⟩

variable {done : List (σ → Except ε σ)}

/-- Every cut is of this form. The induction is over the stages: the cut is in the first one, or the
    first one is complete. -/
theorem Lawful.exists_parted (h : P.Lawful) (hsub : stages.Sublist P.stages)
    (hlt : ∀ g ∈ stages, P.number s < g.number)
    (hdone : done <+: stages.flatMap Stage.all) (hrun : runSteps done s = .ok s') :
    P.number s ≤ P.number s' ∧
      ∃ before part rest mid, Parted P stages s s' before part rest mid := by
  induction stages generalizing s done with
  | nil =>
    obtain rfl := List.prefix_nil.mp hdone
    obtain rfl := Except.ok.inj hrun
    exact ⟨Int.le_refl _, [], [], [], s, rfl, rfl, rfl, rfl, .inl rfl⟩
  | cons g stages ih =>
    have hg : g ∈ P.stages := hsub.subset List.mem_cons_self
    obtain ⟨hafter, -⟩ := List.pairwise_cons.mp (h.ordered.sublist hsub)
    rw [List.flatMap_cons] at hdone
    rcases prefix_of_prefix_stage hdone with hpart | ⟨done', rfl, hdone'⟩
    · have hnumber := h.part_number hg hpart hrun
      obtain ⟨rest, hrest⟩ := hdone
      refine ⟨Int.le_of_eq hnumber.symm, [], done, rest, s, ?_, rfl, hrun, ?_, ?_⟩
      · exact hrest.symm
      · rw [hnumber, pending_of_lt hlt]
        exact hrest.symm
      · exact .inr ⟨g, List.mem_cons_self, hnumber ▸ hlt g List.mem_cons_self, hpart⟩
    · obtain ⟨u, hstage, hrun'⟩ := runSteps_append_eq_ok.mp hrun
      have hu := h.stage_number hg (hlt g List.mem_cons_self) hstage
      obtain ⟨hle, before, part, rest, mid, hparted⟩ :=
        ih ((List.sublist_cons_self g stages).trans hsub)
          (fun g' hg' => hu ▸ hafter g' hg') hdone' hrun'
      rw [hu] at hle
      refine ⟨Int.le_trans (Int.le_of_lt (hlt g List.mem_cons_self)) hle,
        g.all ++ before, part, rest, mid, ?_, ?_, hparted.runPart, ?_, ?_⟩
      · rw [List.flatMap_cons, hparted.all, List.append_assoc]
      · exact runSteps_append_eq_ok.mpr ⟨u, hstage, hparted.runBefore⟩
      · rw [pending_cons_of_le hle, hparted.left]
      · refine hparted.ofStage.imp_right ?_
        rintro ⟨g', hg', hpart⟩
        exact ⟨g', List.mem_cons_of_mem g hg', hpart⟩

theorem pending_filter {n m : Int} (h : n ≤ m) :
    pending (stages.filter fun g => n < g.number) m = pending stages m := by
  unfold pending
  rw [List.filter_filter]
  congr 1
  refine List.filter_congr fun g _ => ?_
  simp only [Bool.and_eq_left_iff_imp, decide_eq_true_eq]
  exact Int.lt_of_le_of_lt h

theorem Lawful.cut_parted (h : P.Lawful) (hcut : P.CutOff s s') :
    P.number s ≤ P.number s' ∧ ∃ before part rest mid,
      Parted P (P.stages.filter fun g => P.number s < g.number) s s' before part rest mid := by
  obtain ⟨done, hdone, hrun⟩ := hcut
  refine h.exists_parted List.filter_sublist (fun g hg => ?_) hdone hrun
  exact of_decide_eq_true (List.mem_filter.mp hg).2

theorem Lawful.run_of_nothing_left (h : P.Lawful) (hcut : P.CutOff s s')
    (hleft : pending P.stages (P.number s') = []) : P.run s = .ok s' := by
  obtain ⟨hle, before, part, rest, mid, hparted⟩ := h.cut_parted hcut
  have hnil : part ++ rest = [] := by rw [← hparted.left, pending_filter hle, hleft]
  obtain ⟨rfl, rfl⟩ := List.append_eq_nil_iff.mp hnil
  have hmid : mid = s' := Except.ok.inj hparted.runPart
  rw [run, pending, hparted.all, List.append_nil, List.append_nil, hparted.runBefore, hmid]

theorem Lawful.resume (h : P.Lawful) (hrun : P.run s = .ok t) (hcut : P.CutOff s s')
    (hagain : ∀ g ∈ P.stages, P.number s' < g.number → ∀ part mid, part <+: g.steps →
      runSteps part mid = .ok s' → ∀ step ∈ part, step s' = .ok s') :
    P.run s' = .ok t := by
  obtain ⟨hle, before, part, rest, mid, hparted⟩ := h.cut_parted hcut
  have hidle : ∀ step ∈ part, step s' = .ok s' := by
    rcases hparted.ofStage with rfl | ⟨g, hg, hnumber, hpart⟩
    · exact List.forall_mem_nil _
    · exact hagain g (List.mem_of_mem_filter hg) hnumber part mid hpart hparted.runPart
  -- the rest leads from the cut to the end of the first run
  have hrest : runSteps rest s' = .ok t := by
    have hall : runSteps (before ++ (part ++ rest)) s = .ok t := hparted.all ▸ hrun
    obtain ⟨mid', hbefore, hall⟩ := runSteps_append_eq_ok.mp hall
    obtain ⟨s'', hpart, hrest⟩ := runSteps_append_eq_ok.mp hall
    obtain rfl := Except.ok.inj (hparted.runBefore.symm.trans hbefore)
    obtain rfl := Except.ok.inj (hparted.runPart.symm.trans hpart)
    exact hrest
  rw [run, ← pending_filter hle, hparted.left, runSteps_append, runSteps_idle hidle,
    except_ok_bind, hrest]

end Script

end Kipuka.Generic
