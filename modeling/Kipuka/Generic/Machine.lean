/-
  Machines that put out a log: a step takes the state and an input to a new state and some entries
  of the log.
-/
import Mathlib.Data.List.Basic

namespace Kipuka.Generic

structure Machine (σ ι ο : Type) where
  step : σ → ι → σ × List ο

namespace Machine

variable {σ ι ο : Type} (M : Machine σ ι ο)

def run : σ → List ι → σ × List ο
  | s, [] => (s, [])
  | s, i :: is =>
    let (s', out) := M.step s i
    let (s'', rest) := run s' is
    (s'', out ++ rest)

@[simp] theorem run_nil (s : σ) : M.run s [] = (s, []) := rfl

@[simp] theorem run_cons (s : σ) (i : ι) (is : List ι) :
    M.run s (i :: is) =
      ((M.run (M.step s i).1 is).1, (M.step s i).2 ++ (M.run (M.step s i).1 is).2) := rfl

theorem run_concat (s : σ) (is : List ι) (i : ι) :
    M.run s (is ++ [i]) =
      ((M.step (M.run s is).1 i).1, (M.run s is).2 ++ (M.step (M.run s is).1 i).2) := by
  induction is generalizing s with
  | nil => simp
  | cons i' is ih => simp [ih, List.append_assoc]

theorem run_invariant {I : List ο → σ → Prop}
    (hstep : ∀ log s i, I log s → I (log ++ (M.step s i).2) (M.step s i).1)
    (is : List ι) {log : List ο} {s : σ} (h : I log s) :
    I (log ++ (M.run s is).2) (M.run s is).1 := by
  induction is generalizing log s with
  | nil =>
    rw [run_nil, List.append_nil]
    exact h
  | cons i is ih =>
    rw [run_cons, ← List.append_assoc]
    exact ih (hstep log s i h)

end Machine

/-! ## Statements about entries and what stands before them -/

section

variable {ο : Type} {P : List ο → ο → Prop}

/-- Every entry of a log stands in a relation to those before it. -/
def Throughout (P : List ο → ο → Prop) (log : List ο) : Prop :=
  ∀ before e after, log = before ++ e :: after → P before e

theorem throughout_nil (P : List ο → ο → Prop) : Throughout P [] := by
  intro before e after h
  exact absurd h.symm (List.append_ne_nil_of_right_ne_nil _ (List.cons_ne_nil _ _))

theorem Throughout.concat {log : List ο} {e : ο} (h : Throughout P log) (he : P log e) :
    Throughout P (log ++ [e]) := by
  intro before e' after heq
  rcases List.eq_nil_or_concat after with rfl | ⟨after', last, rfl⟩
  · obtain ⟨rfl, hlast⟩ := List.append_inj' heq rfl
    rw [← List.cons.inj hlast |>.1]
    exact he
  · rw [List.concat_eq_append, ← List.cons_append, ← List.append_assoc] at heq
    exact h before e' after' (List.append_inj' heq rfl).1

theorem Throughout.append {log out : List ο} (h : Throughout P log)
    (hout : ∀ e ∈ out, ∀ before, P before e) : Throughout P (log ++ out) := by
  induction out generalizing log with
  | nil => rwa [List.append_nil]
  | cons e out ih =>
    rw [List.append_cons]
    exact ih (h.concat (hout e List.mem_cons_self log))
      fun e' he' => hout e' (List.mem_cons_of_mem e he')

theorem Throughout.of_begins {log before : List ο} {e : ο} (h : Throughout P log)
    (hbegins : before ++ [e] <+: log) : P before e := by
  obtain ⟨after, rfl⟩ := hbegins
  exact h before e after (List.append_assoc ..)

theorem Throughout.of_mem {log : List ο} {e : ο} (h : Throughout P log) (he : e ∈ log) :
    ∃ before, P before e := by
  obtain ⟨before, after, hlog⟩ := List.append_of_mem he
  exact ⟨before, h before e after hlog⟩

end

end Kipuka.Generic
