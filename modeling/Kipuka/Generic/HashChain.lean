/-
  Hash chains over an arbitrary link function `f : Option η → β → η`.
-/
import Mathlib.Data.List.Basic
import Mathlib.Data.List.Induction

namespace Kipuka.Generic

variable {η β : Type}

/-- A link: the stored hash of its predecessor, its stored own hash, its body. -/
structure Link (η β : Type) where
  prev : Option η
  hash : Option η
  body : β

def Linked (f : Option η → β → η) : Option η → List (Link η β) → Prop
  | _, [] => True
  | p, l :: ls => l.prev = p ∧ l.hash = some (f l.prev l.body) ∧ Linked f l.hash ls

def lastHash : Option η → List (Link η β) → Option η
  | p, [] => p
  | _, l :: ls => lastHash l.hash ls

@[simp] theorem lastHash_concat (p : Option η) (ls : List (Link η β)) (l : Link η β) :
    lastHash p (ls ++ [l]) = l.hash := by
  induction ls generalizing p with
  | nil => rfl
  | cons a ls ih => exact ih a.hash

theorem lastHash_of_ne_nil {ls : List (Link η β)} (h : ls ≠ []) (p q : Option η) :
    lastHash p ls = lastHash q ls := by
  cases ls with
  | nil => exact absurd rfl h
  | cons a ls => rfl

variable {f : Option η → β → η}

theorem linked_append (p : Option η) (ls ms : List (Link η β)) :
    Linked f p (ls ++ ms) ↔ Linked f p ls ∧ Linked f (lastHash p ls) ms := by
  induction ls generalizing p with
  | nil => simp [Linked, lastHash]
  | cons a ls ih => simp [Linked, lastHash, ih, and_assoc]

section

variable {p : Option η} {ls : List (Link η β)} (h : Linked f p ls)

include h

theorem lastHash_eq_none : lastHash p ls = none ↔ p = none ∧ ls = [] := by
  induction ls generalizing p with
  | nil => simp [lastHash]
  | cons a ls ih =>
    -- the hash of a checked link is present, whatever follows it
    have hhash : a.hash = some (f a.prev a.body) := h.2.1
    have hrest := ih h.2.2
    rw [lastHash, hrest, hhash]
    simp

theorem prev_of_mem {l : Link η β} (hl : l ∈ ls) :
    l.prev = p ∨ ∃ m ∈ ls, l.prev = some (f m.prev m.body) := by
  induction ls generalizing p with
  | nil => cases hl
  | cons a ls ih =>
    obtain ⟨hprev, hhash, hrest⟩ := h
    rcases List.mem_cons.mp hl with rfl | hl
    · exact .inl hprev
    · rcases ih hrest hl with hp | ⟨m, hm, hp⟩
      · exact .inr ⟨a, List.mem_cons_self, hp.trans hhash⟩
      · exact .inr ⟨m, List.mem_cons_of_mem _ hm, hp⟩

end

def CollisionFreeOn (f : Option η → β → η) (ls ms : List (Link η β)) : Prop :=
  ∀ l ∈ ls, ∀ m ∈ ms, f l.prev l.body = f m.prev m.body → l.prev = m.prev ∧ l.body = m.body

/-- The last hash fixes the whole list. The induction runs from the last link back: equal hashes
    give equal bodies and equal predecessor hashes, and only a first link has no predecessor. -/
theorem linked_unique {ls ms : List (Link η β)} (hls : Linked f none ls) (hms : Linked f none ms)
    (hne : ls ≠ []) (hne' : ms ≠ []) (hlast : lastHash none ls = lastHash none ms)
    (hfree : CollisionFreeOn f ls ms) : ls = ms := by
  induction ls using List.reverseRecOn generalizing ms with
  | nil => exact absurd rfl hne
  | append_singleton ls l ih =>
    obtain ⟨ms, m, rfl⟩ : ∃ ms' m, ms = ms' ++ [m] :=
      ⟨ms.dropLast, ms.getLast hne', (List.dropLast_append_getLast hne').symm⟩
    obtain ⟨hls', hlprev, hlhash, -⟩ := (linked_append none ls [l]).mp hls
    obtain ⟨hms', hmprev, hmhash, -⟩ := (linked_append none ms [m]).mp hms
    rw [lastHash_concat, lastHash_concat] at hlast
    have hcollide : f l.prev l.body = f m.prev m.body := by
      rw [hlhash, hmhash] at hlast
      exact Option.some.inj hlast
    obtain ⟨hprev, hbody⟩ := hfree l (by simp) m (by simp) hcollide
    have hlm : l = m := by
      cases l
      cases m
      simp_all
    have htails : lastHash none ls = lastHash none ms := by
      rw [← hlprev, ← hmprev, hprev]
    have hinits : ls = ms := by
      by_cases hnil : ls = []
      · have hnone : lastHash none ms = none := by
          rw [← htails, hnil]
          rfl
        rw [hnil, ((lastHash_eq_none hms').mp hnone).2]
      · have hnil' : ms ≠ [] := by
          rintro rfl
          exact hnil ((lastHash_eq_none hls').mp htails).2
        exact ih hls' hms' hnil hnil' htails
          (fun a ha b hb => hfree a (by simp [ha]) b (by simp [hb]))
    rw [hinits, hlm]

end Kipuka.Generic
