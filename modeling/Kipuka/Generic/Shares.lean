/-
  Shares by weight: a list with each element as often as its weight.
-/
import Mathlib.Algebra.GroupWithZero.Nat
import Mathlib.Data.List.Rotate

namespace Kipuka.Generic

variable {α : Type} (weight : α → Nat)

def shares (xs : List α) : List α := xs.flatMap fun x => List.replicate (weight x) x

@[simp] theorem shares_cons (x : α) (xs : List α) :
    shares weight (x :: xs) = List.replicate (weight x) x ++ shares weight xs := rfl

theorem length_shares (xs : List α) : (shares weight xs).length = (xs.map weight).sum := by
  induction xs with
  | nil => rfl
  | cons x xs ih => rw [shares_cons, List.length_append, List.length_replicate, ih]; simp

theorem mem_shares {x : α} {xs : List α} : x ∈ shares weight xs ↔ x ∈ xs ∧ 0 < weight x := by
  simp only [shares, List.mem_flatMap, List.mem_replicate]
  constructor
  · rintro ⟨y, hy, hpos, rfl⟩
    exact ⟨hy, Nat.pos_of_ne_zero hpos⟩
  · rintro ⟨hx, hpos⟩
    exact ⟨x, hx, hpos.ne', rfl⟩

theorem countP_shares (p : α → Bool) (xs : List α) :
    (shares weight xs).countP p = ((xs.filter p).map weight).sum := by
  induction xs with
  | nil => rfl
  | cons x xs ih =>
    rw [shares_cons, List.countP_append, List.countP_replicate, ih]
    cases hp : p x <;> simp [hp]

theorem window_perm (xs : List α) (a : Nat) :
    ((List.range xs.length).map fun i => xs[(a + i) % xs.length]?).Perm (xs.map some) := by
  have hrotate : ((List.range xs.length).map fun i => xs[(a + i) % xs.length]?) =
      (xs.rotate a).map some := by
    refine List.ext_getElem (by simp) fun i hi hi' => ?_
    have hlt : i < xs.length := by simpa using hi
    have hplace : (i + a) % xs.length < xs.length := Nat.mod_lt _ (by omega)
    simp only [List.getElem_map, List.getElem_range, List.getElem_rotate]
    rw [Nat.add_comm a i, List.getElem?_eq_getElem hplace]
  rw [hrotate]
  exact (xs.rotate_perm a).map some

end Kipuka.Generic
