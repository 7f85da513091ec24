/-
  Fields closed by a separator.
-/
import Mathlib.Algebra.GroupWithZero.Nat
import Mathlib.Data.List.Basic
import Mathlib.Data.List.DropRight

namespace Kipuka.Generic

variable {α : Type} {sep : α}

def closeFields (sep : α) : List (List α) → List α
  | [] => []
  | f :: fs => f ++ sep :: closeFields sep fs

theorem split_at_first {as bs as' bs' : List α} (h : as ++ sep :: bs = as' ++ sep :: bs')
    (has : sep ∉ as) (has' : sep ∉ as') : as = as' ∧ bs = bs' := by
  induction as generalizing as' with
  | nil =>
    cases as' with
    | nil => exact ⟨rfl, (List.cons.inj h).2⟩
    | cons a' as' =>
      have hhead : sep = a' := (List.cons.inj h).1
      exact absurd (hhead ▸ List.mem_cons_self) has'
  | cons a as ih =>
    cases as' with
    | nil =>
      have hhead : a = sep := (List.cons.inj h).1
      exact absurd (hhead ▸ List.mem_cons_self) has
    | cons a' as' =>
      obtain ⟨hhead, htail⟩ := List.cons.inj h
      obtain ⟨hl, hr⟩ := ih htail (fun hm => has (List.mem_cons_of_mem _ hm))
        (fun hm => has' (List.mem_cons_of_mem _ hm))
      exact ⟨by rw [hhead, hl], hr⟩

theorem closeFields_append (fs gs : List (List α)) :
    closeFields sep (fs ++ gs) = closeFields sep fs ++ closeFields sep gs := by
  induction fs with
  | nil => rfl
  | cons f fs ih => simp [closeFields, ih]

/-! ## Words between separators -/

/-- The list is the words, with a separator between two of them and perhaps more of them there and
    at both ends. -/
inductive Words (sep : α) : List α → List (List α) → Prop where
  | nil : Words sep [] []
  | skip {xs : List α} {ws : List (List α)} (h : Words sep xs ws) : Words sep (sep :: xs) ws
  | last {w : List α} (hne : w ≠ []) (hsep : sep ∉ w) : Words sep w [w]
  | word {w xs : List α} {ws : List (List α)} (hne : w ≠ []) (hsep : sep ∉ w)
      (h : Words sep xs ws) : Words sep (w ++ sep :: xs) (w :: ws)

namespace Words

theorem exists_words (sep : α) (xs : List α) : ∃ ws, Words sep xs ws := by
  classical
  induction xs with
  | nil => exact ⟨[], .nil⟩
  | cons x xs ih =>
    obtain ⟨ws, h⟩ := ih
    by_cases hx : x = sep
    · exact ⟨ws, hx ▸ h.skip⟩
    · -- the first word grows, or a word of one element begins
      have hone : sep ∉ [x] := by simpa using Ne.symm hx
      cases h with
      | nil => exact ⟨_, .last (by simp) hone⟩
      | skip h => exact ⟨_, .word (w := [x]) (by simp) hone h⟩
      | last hne hsep => exact ⟨_, .last (by simp) (by simp [hsep, Ne.symm hx])⟩
      | @word w xs ws hne hsep h =>
        exact ⟨_, .word (w := x :: w) (by simp) (by simp [hsep, Ne.symm hx]) h⟩

/-- A word at the front is where the first word begins. -/
theorem front {w : List α} (hne : w ≠ []) (hsep : sep ∉ w) (xs : List α) :
    ∃ u ws, Words sep (w ++ xs) ((w ++ u) :: ws) := by
  by_cases hmem : sep ∈ xs
  · obtain ⟨u, rest, rfl, hu⟩ := List.eq_append_cons_of_mem hmem
    obtain ⟨ws, h⟩ := exists_words sep rest
    refine ⟨u, ws, ?_⟩
    rw [← List.append_assoc]
    exact .word (by simp [hne]) (by simp [hsep, hu]) h
  · exact ⟨xs, [], .last (by simp [hne]) (by simp [hsep, hmem])⟩

theorem concat {xs : List α} {ws : List (List α)} (h : Words sep xs ws) :
    Words sep (xs ++ [sep]) ws := by
  induction h with
  | nil => exact .skip .nil
  | skip _ ih => exact .skip ih
  | last hne hsep => exact .word hne hsep .nil
  | word hne hsep _ ih =>
    rw [List.append_assoc]
    exact .word hne hsep ih

variable [DecidableEq α] {xs : List α} {ws ws' : List (List α)}

theorem splitOn (h : Words sep xs ws) : ((xs.splitOn sep).filter fun s => !s.isEmpty) = ws := by
  induction h with
  | nil => rfl
  | skip _ ih =>
    rw [List.splitOn_cons_eq_if_modifyHead, if_pos (by simp)]
    exact ih
  | last hne hsep => simp [List.splitOn_eq_singleton hsep, hne]
  | word hne hsep _ ih =>
    rw [List.splitOn_append_cons_self_of_not_mem hsep, List.filter_cons_of_pos (by simpa using hne),
      ih]

theorem unique (h : Words sep xs ws) (h' : Words sep xs ws') : ws = ws' :=
  h.splitOn.symm.trans h'.splitOn

theorem splitOn_iff : ((xs.splitOn sep).filter fun s => !s.isEmpty) = ws ↔ Words sep xs ws := by
  refine ⟨fun h => ?_, Words.splitOn⟩
  obtain ⟨ws', h'⟩ := exists_words sep xs
  rw [← h, h'.splitOn]
  exact h'

theorem skip_iff : Words sep (sep :: xs) ws ↔ Words sep xs ws := by
  refine ⟨fun h => ?_, .skip⟩
  obtain ⟨ws', h'⟩ := exists_words sep xs
  exact h.unique h'.skip ▸ h'

theorem dropWhile_iff : Words sep (xs.dropWhile fun x => x = sep) ws ↔ Words sep xs ws := by
  induction xs with
  | nil => rfl
  | cons x xs ih =>
    by_cases hx : x = sep
    · rw [List.dropWhile_cons_of_pos (by simpa using hx), ih, hx, skip_iff]
    · rw [List.dropWhile_cons_of_neg (by simpa using hx)]

theorem rdropWhile_iff : Words sep (xs.rdropWhile fun x => x = sep) ws ↔ Words sep xs ws := by
  induction xs using List.reverseRecOn with
  | nil => rfl
  | append_singleton xs x ih =>
    by_cases hx : x = sep
    · rw [List.rdropWhile_concat_pos _ _ _ (by simpa using hx), ih, hx]
      refine ⟨concat, fun h => ?_⟩
      obtain ⟨ws', h'⟩ := exists_words sep xs
      exact h.unique h'.concat ▸ h'
    · rw [List.rdropWhile_concat_neg _ _ _ (by simpa using hx)]

end Words

section Count

variable [DecidableEq α]

theorem count_closeFields (fs : List (List α)) :
    (closeFields sep fs).count sep = fs.length + (fs.map (List.count sep)).sum := by
  induction fs with
  | nil => rfl
  | cons f fs ih =>
    rw [closeFields, List.count_append, List.count_cons_self, ih, List.map_cons, List.sum_cons,
      List.length_cons]
    omega

theorem not_mem_of_count {fs : List (List α)}
    (h : (closeFields sep fs).count sep = fs.length) : ∀ f ∈ fs, sep ∉ f := by
  intro f hf
  rw [count_closeFields] at h
  have hsum : (fs.map (List.count sep)).sum = 0 := by omega
  have hcount : f.count sep = 0 :=
    List.sum_eq_zero_iff_forall_eq_nat.mp hsum _ (List.mem_map.mpr ⟨f, hf, rfl⟩)
  exact List.count_eq_zero.mp hcount

theorem count_of_not_mem {fs : List (List α)} (h : ∀ f ∈ fs, sep ∉ f) :
    (closeFields sep fs).count sep = fs.length := by
  have hsum : (fs.map (List.count sep)).sum = 0 := by
    apply List.sum_eq_zero_iff_forall_eq_nat.mpr
    intro n hn
    obtain ⟨f, hf, rfl⟩ := List.mem_map.mp hn
    exact List.count_eq_zero.mpr (h f hf)
  rw [count_closeFields, hsum, Nat.add_zero]

end Count

section

variable {fs gs : List (List α)} (hlen : gs.length = fs.length) (hfs : ∀ f ∈ fs, sep ∉ f)

include hlen hfs

theorem closeFields_inj (hgs : ∀ g ∈ gs, sep ∉ g) (h : closeFields sep gs = closeFields sep fs) :
    gs = fs := by
  induction fs generalizing gs with
  | nil => exact List.length_eq_zero_iff.mp hlen
  | cons f fs ih =>
    cases gs with
    | nil => exact absurd hlen (by simp)
    | cons g gs =>
      obtain ⟨hhead, htail⟩ := split_at_first h (hgs g List.mem_cons_self) (hfs f List.mem_cons_self)
      have hrest := ih (Nat.succ.inj hlen) (fun x hx => hfs x (List.mem_cons_of_mem _ hx))
        (fun x hx => hgs x (List.mem_cons_of_mem _ hx)) htail
      rw [hhead, hrest]

theorem closeFields_unique (h : closeFields sep gs = closeFields sep fs) : gs = fs := by
  classical
  have hgs : ∀ g ∈ gs, sep ∉ g := by
    apply not_mem_of_count
    rw [h, count_of_not_mem hfs, hlen]
  exact closeFields_inj hlen hfs hgs h

end

theorem ne_of_length_ne {pre l l' : List (List α)} {f g : List α} (h : f.length ≠ g.length) :
    pre ++ f :: l ≠ pre ++ g :: l' :=
  fun he => h (congrArg List.length (List.cons.inj (List.append_cancel_left he)).1)

theorem exists_other_reading {fs : List (List α)} (hlen : 2 ≤ fs.length) {f : List α}
    (hf : f ∈ fs) (hsep : sep ∈ f) :
    ∃ gs, gs.length = fs.length ∧ gs ≠ fs ∧ closeFields sep gs = closeFields sep fs := by
  obtain ⟨pre, post, rfl⟩ := List.append_of_mem hf
  obtain ⟨p, q, rfl⟩ := List.append_of_mem hsep
  cases post with
  | cons g post =>
    refine ⟨pre ++ p :: (q ++ sep :: g) :: post, ?_, ?_, ?_⟩
    · simp
    · apply ne_of_length_ne
      rw [List.length_append, List.length_cons]
      omega
    · simp [closeFields_append, closeFields]
  | nil =>
    obtain ⟨pre, g, rfl⟩ : ∃ pre' g, pre = pre' ++ [g] := by
      refine ⟨pre.dropLast, pre.getLast ?_, (List.dropLast_append_getLast _).symm⟩
      rintro rfl
      simp at hlen
    refine ⟨pre ++ [g ++ sep :: p, q], ?_, ?_, ?_⟩
    · simp
    · rw [List.append_assoc]
      apply ne_of_length_ne
      rw [List.length_append, List.length_cons]
      omega
    · simp [closeFields_append, closeFields]

end Kipuka.Generic
