/-
  Taking the members of a finite set in turn.
-/
import Mathlib.Algebra.Order.BigOperators.Group.Finset

namespace Kipuka.Generic

variable {α : Type} [DecidableEq α] {members xs : List α}

/-- Over every prefix any two members were taken equally often, up to one. -/
def EvenlyTaken (members xs : List α) : Prop :=
  ∀ taken, taken <+: xs → ∀ a ∈ members, ∀ b ∈ members, taken.count a ≤ taken.count b + 1

/-- Cut into blocks of `n`, the sequence has no element twice in a block. -/
def BlocksNodup (n : Nat) (xs : List α) : Prop := ∀ j, ((xs.drop (j * n)).take n).Nodup

theorem sum_count_eq_length (hmem : ∀ x ∈ xs, x ∈ members) :
    ∑ a ∈ members.toFinset, xs.count a = xs.length := by
  have h := Multiset.sum_count_eq_card (s := members.toFinset) (m := (xs : Multiset α))
    (by simpa using hmem)
  simpa using h

theorem take_add_block (n j r : Nat) (xs : List α) (a : α) :
    (xs.take (j * n + r)).count a =
      (xs.take (j * n)).count a + ((xs.drop (j * n)).take r).count a := by
  rw [List.take_add, List.count_append]

theorem BlocksNodup.count_take_le {n : Nat} (h : BlocksNodup n xs) (j : Nat) (a : α) :
    (xs.take (j * n)).count a ≤ j := by
  induction j with
  | zero => simp
  | succ j ih =>
    rw [Nat.succ_mul, take_add_block]
    have hblock := List.nodup_iff_count_le_one.mp (h j) a
    omega

theorem length_lt_of_count_le {j : Nat} (hnodup : members.Nodup) (hmem : ∀ x ∈ xs, x ∈ members)
    (hle : ∀ b ∈ members, xs.count b ≤ j) {a : α} (ha : a ∈ members) (hlt : xs.count a < j) :
    xs.length < j * members.length := by
  rw [← sum_count_eq_length hmem, ← List.toFinset_card_of_nodup hnodup, mul_comm,
    ← Finset.sum_const_nat (f := fun _ => j) fun _ _ => rfl]
  refine Finset.sum_lt_sum (fun b hb => hle b (List.mem_toFinset.mp hb)) ⟨a, ?_, hlt⟩
  exact List.mem_toFinset.mpr ha

theorem lt_length_of_le_count {j : Nat} (hnodup : members.Nodup) (hmem : ∀ x ∈ xs, x ∈ members)
    (hle : ∀ b ∈ members, j ≤ xs.count b) {a : α} (ha : a ∈ members) (hlt : j < xs.count a) :
    j * members.length < xs.length := by
  rw [← sum_count_eq_length hmem, ← List.toFinset_card_of_nodup hnodup, mul_comm,
    ← Finset.sum_const_nat (f := fun _ => j) fun _ _ => rfl]
  refine Finset.sum_lt_sum (fun b hb => hle b (List.mem_toFinset.mp hb)) ⟨a, ?_, hlt⟩
  exact List.mem_toFinset.mpr ha

theorem BlocksNodup.count_take {j : Nat} (h : BlocksNodup members.length xs)
    (hnodup : members.Nodup) (hmem : ∀ x ∈ xs, x ∈ members) (hlen : j * members.length ≤ xs.length)
    {a : α} (ha : a ∈ members) : (xs.take (j * members.length)).count a = j := by
  by_contra hne
  have hlt : (xs.take (j * members.length)).count a < j :=
    lt_of_le_of_ne (h.count_take_le j a) hne
  have := length_lt_of_count_le hnodup (fun x hx => hmem x (List.mem_of_mem_take hx))
    (fun b _ => h.count_take_le j b) ha hlt
  rw [List.length_take, min_eq_left hlen] at this
  exact lt_irrefl _ this

variable (hnodup : members.Nodup) (hmem : ∀ x ∈ xs, x ∈ members)

include hnodup hmem

theorem evenlyTaken_of_blocksNodup (h : BlocksNodup members.length xs) :
    EvenlyTaken members xs := by
  intro taken htaken a ha b hb
  have ha' := fun j hfull => h.count_take (j := j) hnodup hmem hfull ha
  have hb' := fun j hfull => h.count_take (j := j) hnodup hmem hfull hb
  have hpos : 0 < members.length := List.length_pos_of_mem ha
  generalize members.length = n at h ha' hb' hpos
  -- the prefix is `j` full blocks and a part of the next one
  generalize hj : taken.length / n = j
  have hprefix : taken = xs.take (j * n + taken.length % n) := by
    rw [← hj, Nat.div_add_mod']
    exact List.prefix_iff_eq_take.mp htaken
  have hfull : j * n ≤ xs.length := hj ▸ (Nat.div_mul_le_self _ _).trans htaken.length_le
  have hpart : ((xs.drop (j * n)).take (taken.length % n)).Sublist ((xs.drop (j * n)).take n) :=
    (List.take_prefix_take_left (Nat.mod_lt _ hpos).le).sublist
  have hone := List.nodup_iff_count_le_one.mp ((h j).sublist hpart) a
  have hcount : ∀ c, taken.count c =
      (xs.take (j * n)).count c + ((xs.drop (j * n)).take (taken.length % n)).count c := by
    intro c
    rw [← take_add_block, ← hprefix]
  have hmore := hcount a
  have hless := hcount b
  rw [ha' j hfull] at hmore
  rw [hb' j hfull] at hless
  omega

theorem blocksNodup_of_evenlyTaken (h : EvenlyTaken members xs) :
    BlocksNodup members.length xs := by
  intro j
  obtain ⟨n, hn⟩ : ∃ n, members.length = n := ⟨_, rfl⟩
  rw [hn, List.nodup_iff_count_le_one]
  intro a
  by_cases ha : a ∈ (xs.drop (j * n)).take n
  · have ham : a ∈ members := hmem a (List.mem_of_mem_drop (List.mem_of_mem_take ha))
    have hlen : j * n < xs.length := by
      by_contra hge
      rw [List.drop_eq_nil_of_le (not_lt.mp hge)] at ha
      simp at ha
    have hmem' : ∀ m, ∀ x ∈ xs.take m, x ∈ members :=
      fun m x hx => hmem x (List.mem_of_mem_take hx)
    -- up to the block each member was taken at least `j` times, and after it at most `j + 1` times
    have hlow : j ≤ (xs.take (j * n)).count a := by
      by_contra hlt
      have hall : ∀ b ∈ members, (xs.take (j * n)).count b ≤ j := by
        intro b hb
        have := h _ (List.take_prefix (j * n) xs) b hb a ham
        omega
      have hshort := length_lt_of_count_le hnodup (hmem' _) hall ham (not_le.mp hlt)
      rw [List.length_take, min_eq_left hlen.le, hn] at hshort
      exact lt_irrefl _ hshort
    have hhigh : (xs.take (j * n + n)).count a ≤ j + 1 := by
      by_contra hlt
      have hall : ∀ b ∈ members, j + 1 ≤ (xs.take (j * n + n)).count b := by
        intro b hb
        have := h _ (List.take_prefix (j * n + n) xs) a ham b hb
        omega
      have hlong := lt_length_of_le_count hnodup (hmem' _) hall ham (not_le.mp hlt)
      rw [List.length_take, Nat.succ_mul, hn] at hlong
      exact absurd hlong (not_lt.mpr (min_le_left _ _))
    rw [take_add_block] at hhigh
    omega
  · rw [List.count_eq_zero_of_not_mem ha]
    exact Nat.zero_le 1

theorem evenlyTaken_iff : EvenlyTaken members xs ↔ BlocksNodup members.length xs :=
  ⟨blocksNodup_of_evenlyTaken hnodup hmem, evenlyTaken_of_blocksNodup hnodup hmem⟩

end Kipuka.Generic
