/-
  What the modelled servers take from the standard library: hash maps and the monotonic clock.
-/
import Mathlib.Data.Finset.Card
import Mathlib.Data.List.AList

namespace AList

variable {κ ν : Type} [DecidableEq κ]

def size (t : AList fun _ : κ => ν) : Nat := t.entries.length

def retain (keep : κ → ν → Bool) (t : AList fun _ : κ => ν) : AList fun _ : κ => ν where
  entries := t.entries.filter fun e => keep e.1 e.2
  nodupKeys := t.nodupKeys.sublist List.filter_sublist

theorem lookup_retain (keep : κ → ν → Bool) (t : AList fun _ : κ => ν) (k : κ) :
    (t.retain keep).lookup k = (t.lookup k).filter (keep k) := by
  apply Option.ext
  intro v
  rw [← Option.mem_def, ← Option.mem_def, mem_lookup_iff, Option.mem_filter_iff, mem_lookup_iff]
  show (⟨k, v⟩ : Sigma fun _ : κ => ν) ∈ t.entries.filter _ ↔ _
  rw [List.mem_filter]

theorem lookup_insert_eq (k k' : κ) (v : ν) (t : AList fun _ : κ => ν) :
    (t.insert k v).lookup k' = if k' = k then some v else t.lookup k' := by
  by_cases h : k' = k
  · subst h
    rw [lookup_insert, if_pos rfl]
  · rw [lookup_insert_ne h, if_neg h]

theorem lookup_erase_eq (k k' : κ) (t : AList fun _ : κ => ν) :
    (t.erase k).lookup k' = if k' = k then none else t.lookup k' := by
  by_cases h : k' = k
  · subst h
    rw [lookup_erase, if_pos rfl]
  · rw [lookup_erase_ne h, if_neg h]

def All (P : κ → ν → Prop) (t : AList fun _ : κ => ν) : Prop := ∀ k v, t.lookup k = some v → P k v

theorem all_empty (P : κ → ν → Prop) : All P (∅ : AList fun _ : κ => ν) := by
  intro k v h
  rw [lookup_empty] at h
  exact nomatch h

variable {t : AList fun _ : κ => ν} {P : κ → ν → Prop}

theorem All.imp {Q : κ → ν → Prop} (h : All P t) (hpq : ∀ k v, P k v → Q k v) : All Q t :=
  fun k v hk => hpq k v (h k v hk)

variable {k : κ}

theorem lookup_of_retain {keep : κ → ν → Bool} {v : ν} (h : (t.retain keep).lookup k = some v) :
    t.lookup k = some v ∧ keep k v = true := by
  rw [lookup_retain, Option.filter_eq_some_iff] at h
  exact h

theorem lookup_of_insert {k' : κ} {v w : ν} (h : (t.insert k v).lookup k' = some w) :
    (k' = k ∧ w = v) ∨ (k' ≠ k ∧ t.lookup k' = some w) := by
  rw [lookup_insert_eq] at h
  split at h
  · next hk => exact .inl ⟨hk, (Option.some.inj h).symm⟩
  · next hk => exact .inr ⟨hk, h⟩

theorem lookup_of_erase {k' : κ} {w : ν} (h : (t.erase k).lookup k' = some w) :
    k' ≠ k ∧ t.lookup k' = some w := by
  rw [lookup_erase_eq] at h
  split at h
  · exact nomatch h
  · next hk => exact ⟨hk, h⟩

theorem All.retain (h : All P t) (keep : κ → ν → Bool) : All P (t.retain keep) :=
  fun k v hk => h k v (lookup_of_retain hk).1

theorem All.insert (h : All P t) {v : ν} (hnew : P k v) : All P (t.insert k v) := by
  intro k' v' hk
  obtain ⟨rfl, rfl⟩ | ⟨-, hk⟩ := lookup_of_insert hk
  · exact hnew
  · exact h k' v' hk

theorem All.erase (h : All P t) (k : κ) : All P (t.erase k) :=
  fun k' v' hk => h k' v' (lookup_of_erase hk).2

/-! ## Sizes -/

theorem size_le_size {t' : AList fun _ : κ => ν}
    (h : ∀ k v, t'.lookup k = some v → ∃ w, t.lookup k = some w) : t'.size ≤ t.size := by
  have hsub : t'.keys ⊆ t.keys := by
    intro k hk
    obtain ⟨v, hv⟩ := Option.isSome_iff_exists.mp (lookup_isSome.mpr hk)
    obtain ⟨w, hw⟩ := h k v hv
    exact lookup_isSome.mp (Option.isSome_iff_exists.mpr ⟨w, hw⟩)
  have hle := (List.subperm_of_subset t'.keys_nodup hsub).length_le
  unfold keys List.keys at hle
  rw [List.length_map, List.length_map] at hle
  exact hle

theorem size_retain_le (keep : κ → ν → Bool) (t : AList fun _ : κ => ν) :
    (t.retain keep).size ≤ t.size :=
  size_le_size fun _ v h => ⟨v, (lookup_of_retain h).1⟩

theorem size_insert_of_none (v : ν) (h : t.lookup k = none) : (t.insert k v).size = t.size + 1 := by
  rw [size, entries_insert_of_notMem (lookup_eq_none.mp h), List.length_cons]
  rfl

theorem size_erase_le (k : κ) (t : AList fun _ : κ => ν) : (t.erase k).size ≤ t.size :=
  size_le_size fun _ v h => ⟨v, (lookup_of_erase h).2⟩

theorem size_insert_of_some {w : ν} (v : ν) (h : t.lookup k = some w) :
    (t.insert k v).size ≤ t.size := by
  refine size_le_size fun k' v' h' => ?_
  obtain ⟨rfl, -⟩ | ⟨-, hold⟩ := lookup_of_insert h'
  · exact ⟨w, h⟩
  · exact ⟨v', hold⟩

theorem size_insert_le (k : κ) (v : ν) (t : AList fun _ : κ => ν) :
    (t.insert k v).size ≤ t.size + 1 := by
  cases h : t.lookup k with
  | none => exact Nat.le_of_eq (size_insert_of_none v h)
  | some w => exact Nat.le_succ_of_le (size_insert_of_some v h)

theorem size_lt_card {ids : Finset κ} (h : ∀ k ∈ t, k ∈ ids) (hk : k ∈ ids) (hnot : k ∉ t) :
    t.size < ids.card := by
  have hsub : t.keys.toFinset ⊂ ids := by
    refine Finset.ssubset_iff_subset_ne.mpr ⟨fun k' hk' => h k' (List.mem_toFinset.mp hk'), ?_⟩
    rintro rfl
    exact hnot (List.mem_toFinset.mp hk)
  have hlt := Finset.card_lt_card hsub
  rw [List.toFinset_card_of_nodup t.keys_nodup] at hlt
  unfold keys List.keys at hlt
  rwa [List.length_map] at hlt

end AList

namespace Kipuka.Generic

abbrev Table (κ ν : Type) : Type := AList fun _ : κ => ν

def fromSecs (n : Nat) : Nat := n * 1000000000

def durationSince (now earlier : Int) : Nat := (now - earlier).toNat

end Kipuka.Generic
