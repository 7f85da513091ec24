/-
  Searching a list for a pattern: `find`, `contains`, `split`, `trim` and `trim_end_matches` of
  `str`, over any type.
-/
import Mathlib.Data.List.DropRight

namespace Kipuka.Generic

variable {α : Type}

/-! ## Two elements kept apart -/

/-- The elements `x` and `y` do not follow each other, and `x` is not the last element. -/
def Apart (x y : α) : List α → Prop
  | [] => True
  | [a] => a ≠ x
  | a :: b :: l => ¬ (a = x ∧ b = y) ∧ Apart x y (b :: l)

instance Apart.decide [DecidableEq α] (x y : α) : (l : List α) → Decidable (Apart x y l)
  | [] => .isTrue trivial
  | [a] => inferInstanceAs (Decidable (a ≠ x))
  | a :: b :: l =>
    have := Apart.decide x y (b :: l)
    inferInstanceAs (Decidable (¬ (a = x ∧ b = y) ∧ Apart x y (b :: l)))

variable {x y : α} {l m : List α}

theorem Apart.append (hl : Apart x y l) (hm : Apart x y m) : Apart x y (l ++ m) := by
  induction l with
  | nil => exact hm
  | cons a l ih =>
    cases l with
    | nil =>
      cases m with
      | nil => exact hl
      | cons b m => exact ⟨fun h => hl h.1, hm⟩
    | cons b l => exact ⟨hl.1, ih hl.2⟩

theorem apart_of_not_mem (h : x ∉ l) : Apart x y l := by
  induction l with
  | nil => trivial
  | cons a l ih =>
    have ha : a ≠ x := fun ha => h (ha ▸ List.mem_cons_self)
    have hl := ih fun hx => h (List.mem_cons_of_mem a hx)
    cases l with
    | nil => exact ha
    | cons b l => exact ⟨fun hab => ha hab.1, hl⟩

section Search

variable [DecidableEq α]

/-- What stands before the leftmost occurrence of the pattern, and what stands behind it. -/
def breakOn (pat : List α) : List α → Option (List α × List α)
  | [] => if pat = [] then some ([], []) else none
  | c :: s =>
    if pat.isPrefixOf (c :: s) then some ([], (c :: s).drop pat.length)
    else (breakOn pat s).map fun (before, after) => (c :: before, after)

def splitParts (pat : List α) : (fuel : Nat) → List α → List (List α)
  | 0, s => [s]
  | fuel + 1, s =>
    match breakOn pat s with
    | none => [s]
    | some (before, after) => before :: splitParts pat fuel after

def trimEndMatches (pat : List α) : (fuel : Nat) → List α → List α
  | 0, s => s
  | fuel + 1, s =>
    if pat.isSuffixOf s then trimEndMatches pat fuel (s.take (s.length - pat.length)) else s

/-! ## The leftmost occurrence -/

variable {pat s before after : List α}

theorem breakOn_eq (h : breakOn pat s = some (before, after)) : s = before ++ (pat ++ after) := by
  induction s generalizing before with
  | nil =>
    rw [breakOn] at h
    split at h
    · next hpat =>
      cases h
      rw [hpat]
      rfl
    · cases h
  | cons c s ih =>
    rw [breakOn] at h
    split at h
    · next hpre =>
      cases h
      exact (List.prefix_iff_eq_append.mp (List.isPrefixOf_iff_prefix.mp hpre)).symm
    · obtain ⟨⟨b, a⟩, hb, hba⟩ := Option.map_eq_some_iff.mp h
      cases hba
      rw [List.cons_append, ← ih hb]

/-- The pattern is not found earlier, nor elsewhere, because more text follows. -/
theorem breakOn_append (h : breakOn pat s = some (before, after))
    (rest : List α) : breakOn pat (s ++ rest) = some (before, after ++ rest) := by
  induction s generalizing before with
  | nil =>
    rw [breakOn] at h
    split at h
    · next hpat =>
      cases h
      rw [hpat]
      cases rest <;> rfl
    · cases h
  | cons c s ih =>
    have heq := breakOn_eq h
    rw [breakOn] at h
    rw [List.cons_append, breakOn]
    split at h
    · next hpre =>
      have hpre' := List.isPrefixOf_iff_prefix.mp hpre
      cases h
      rw [← List.cons_append, if_pos, List.drop_append_of_le_length hpre'.length_le]
      exact List.isPrefixOf_iff_prefix.mpr (hpre'.trans (List.prefix_append (c :: s) rest))
    · next hpre =>
      obtain ⟨⟨b, a⟩, hb, hba⟩ := Option.map_eq_some_iff.mp h
      cases hba
      rw [if_neg, ih hb]
      · rfl
      · -- an occurrence at the front would fit into `c :: s`, which is at least as long
        intro hlong
        apply hpre
        apply List.isPrefixOf_iff_prefix.mpr
        have hlen : pat.length ≤ (c :: s).length := by
          rw [heq]
          simp only [List.length_append]
          omega
        exact List.prefix_of_prefix_length_le (List.isPrefixOf_iff_prefix.mp hlong)
          (List.prefix_append (c :: s) rest) hlen

/-- A pattern that starts with `x` and `y` stands behind a list that keeps them apart. -/
theorem breakOn_of_apart {pat pre : List α} (hpre : Apart x y pre) (rest : List α) :
    breakOn (x :: y :: pat) (pre ++ (x :: y :: pat ++ rest)) = some (pre, rest) := by
  induction pre with
  | nil =>
    rw [List.nil_append, List.cons_append, breakOn, ← List.cons_append, if_pos]
    · rw [List.drop_left]
    · exact List.isPrefixOf_iff_prefix.mpr (List.prefix_append _ rest)
  | cons a pre ih =>
    rw [List.cons_append, breakOn, if_neg]
    · rw [ih]
      · rfl
      · cases pre with
        | nil => trivial
        | cons b pre => exact hpre.2
    · intro hfront
      obtain ⟨hxa, htail⟩ := List.cons_prefix_cons.mp (List.isPrefixOf_iff_prefix.mp hfront)
      cases pre with
      | nil => exact hpre hxa.symm
      | cons b pre =>
        rw [List.cons_append] at htail
        exact hpre.1 ⟨hxa.symm, (List.cons_prefix_cons.mp htail).1.symm⟩

theorem splitParts_of_break (h : breakOn pat s = some (before, after)) (fuel : Nat) :
    splitParts pat (fuel + 1) s = before :: splitParts pat fuel after := by
  rw [splitParts, h]

theorem trimEndMatches_of_not_suffix (h : ¬ pat <:+ s) (fuel : Nat) :
    trimEndMatches pat fuel s = s := by
  cases fuel with
  | zero => rfl
  | succ fuel =>
    rw [trimEndMatches, if_neg]
    rwa [List.isSuffixOf_iff_suffix]

end Search

/-! ## Trimming -/

def trim (space : α → Bool) (s : List α) : List α := (s.dropWhile space).rdropWhile space

variable {space : α → Bool}

theorem dropWhile_spaces (hl : ∀ c ∈ l, space c = true)
    (hm : ∀ c ∈ m.head?, space c = false) : (l ++ m).dropWhile space = m := by
  rw [List.dropWhile_append_of_pos hl]
  cases m with
  | nil => rfl
  | cons c m =>
    have hc : ¬ space c = true := by
      rw [hm c rfl]
      decide
    exact List.dropWhile_cons_of_neg hc

/-- A text that starts and ends with no space is what is left after trimming. -/
theorem trim_spaces {l m r : List α} (hl : ∀ c ∈ l, space c = true)
    (hr : ∀ c ∈ r, space c = true) (hhead : ∀ c ∈ m.head?, space c = false)
    (hlast : ∀ c ∈ m.getLast?, space c = false) : trim space (l ++ (m ++ r)) = m := by
  have hback : ∀ c ∈ m.reverse.head?, space c = false := by
    rw [List.head?_reverse]
    exact hlast
  have hspaces : ∀ c ∈ r.reverse, space c = true := fun c hc => hr c (List.mem_reverse.mp hc)
  cases m with
  | nil =>
    have hall : ∀ c ∈ l ++ r, space c = true := List.forall_mem_append.mpr ⟨hl, hr⟩
    rw [List.nil_append, trim, List.dropWhile_eq_nil_iff.mpr hall]
    rfl
  | cons c m =>
    rw [trim, dropWhile_spaces (m := c :: m ++ r) hl hhead, List.rdropWhile, List.reverse_append,
      dropWhile_spaces hspaces hback, List.reverse_reverse]

end Kipuka.Generic
