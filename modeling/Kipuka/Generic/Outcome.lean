/-
  What a call of a checked systems language can end in: a value, an error the caller sees, or a
  panic (an index or slice out of range, an arithmetic overflow). `Outcome` is the monad the byte
  parsers are written in, so that "never panics" is a statement about the parser and not about
  the totality of the embedding.
-/
import Mathlib.Data.List.Forall2

namespace Kipuka.Generic

inductive Outcome (ε α : Type) where
  | ok (a : α)
  | err (e : ε)
  | panic
  deriving DecidableEq, Repr

namespace Outcome

variable {ε α β : Type}

def bind : Outcome ε α → (α → Outcome ε β) → Outcome ε β
  | ok a, f => f a
  | err e, _ => err e
  | panic, _ => panic

instance : Monad (Outcome ε) where
  pure := ok
  bind := bind

@[simp] theorem ok_bind (a : α) (f : α → Outcome ε β) : (ok a >>= f) = f a := rfl

@[simp] theorem pure_eq_ok (a : α) : (pure a : Outcome ε α) = ok a := rfl

variable {f : α → Outcome ε β}

def ofExcept : Except ε α → Outcome ε α
  | .ok a => ok a
  | .error e => err e

def idx (xs : List α) (i : Nat) : Outcome ε α :=
  match xs[i]? with
  | some x => ok x
  | none => panic

def slice (xs : List α) (lo hi : Nat) : Outcome ε (List α) :=
  if lo ≤ hi ∧ hi ≤ xs.length then ok ((xs.drop lo).take (hi - lo)) else panic

/-! ## What a call can end in -/

/-- No panic, and a value, if there is one, that satisfies `Q`. -/
def Yields (Q : α → Prop) : Outcome ε α → Prop
  | ok a => Q a
  | err _ => True
  | panic => False

section Yields

variable {Q : α → Prop} {R : β → Prop} {x : Outcome ε α}

theorem Yields.ne_panic (h : Yields Q x) : x ≠ panic := by
  rintro rfl
  exact h

theorem Yields.of_ok {a : α} (h : Yields Q x) (hx : x = ok a) : Q a := by
  rw [hx] at h
  exact h

theorem Yields.bind (hx : Yields Q x) (hf : ∀ a, Q a → Yields R (f a)) : Yields R (x >>= f) := by
  cases x with
  | ok a => exact hf a hx
  | err e => trivial
  | panic => exact hx

theorem Yields.mono {R : α → Prop} (hx : Yields Q x) (h : ∀ a, Q a → R a) : Yields R x := by
  cases x with
  | ok a => exact h a hx
  | err e => trivial
  | panic => exact hx

theorem Yields.called (hx : Yields Q x) : Yields (fun a => Q a ∧ x = ok a) x := by
  cases x with
  | ok a => exact ⟨hx, rfl⟩
  | err e => trivial
  | panic => exact hx

/-- A check that fails with an error. -/
theorem yields_guard {c : Prop} [Decidable c] {e : ε} (h : ¬ c → Yields Q x) :
    Yields Q (if c then err e else x) := by
  split
  · trivial
  · next hc => exact h hc

end Yields

variable {xs : List α}

/-! ## Reading at a position, given what stands there

  A parser's position is described by `xs.drop pos`, the bytes from it on. -/

variable {pos : Nat} {x : α} {rest : List α}

theorem idx_of_drop (h : xs.drop pos = x :: rest) : (idx xs pos : Outcome ε α) = ok x := by
  have hget : xs[pos]? = some x := by
    rw [← List.head?_drop, h]
    rfl
  simp [idx, hget]

theorem lt_of_drop (h : xs.drop pos = x :: rest) : pos < xs.length := by
  have hlen := congrArg List.length h
  rw [List.length_drop, List.length_cons] at hlen
  omega

variable {mid : List α}

theorem length_of_drop (hpos : pos ≤ xs.length)
    (h : xs.drop pos = mid ++ rest) : xs.length = pos + mid.length + rest.length := by
  have hlen := congrArg List.length h
  rw [List.length_drop, List.length_append] at hlen
  omega

theorem drop_add_of_drop (h : xs.drop pos = mid ++ rest) : xs.drop (pos + mid.length) = rest := by
  rw [← List.drop_drop, h, List.drop_left]

theorem drop_succ_of_drop (h : xs.drop pos = x :: rest) : xs.drop (pos + 1) = rest := by
  rw [← List.drop_drop, h]
  rfl

theorem slice_of_drop (hpos : pos ≤ xs.length) (h : xs.drop pos = mid ++ rest) :
    (slice xs pos (pos + mid.length) : Outcome ε (List α)) = ok mid := by
  have hlen := length_of_drop hpos h
  unfold slice
  rw [if_pos ⟨by omega, by omega⟩, h]
  simp

theorem yields_idx (h : pos < xs.length) :
    Yields (fun x => xs.drop pos = x :: xs.drop (pos + 1)) (idx xs pos : Outcome ε α) := by
  rw [idx, List.getElem?_eq_getElem h]
  exact List.drop_eq_getElem_cons h

theorem yields_slice {lo hi : Nat} (hlo : lo ≤ hi) (hhi : hi ≤ xs.length) :
    Yields (fun ys => lo + ys.length = hi ∧ xs.drop lo = ys ++ xs.drop hi)
      (slice xs lo hi : Outcome ε (List α)) := by
  rw [slice, if_pos ⟨hlo, hhi⟩]
  constructor
  · rw [List.length_take, List.length_drop]
    omega
  · have hdrop : xs.drop hi = (xs.drop lo).drop (hi - lo) := by
      rw [List.drop_drop, Nat.add_sub_cancel' hlo]
    rw [hdrop, List.take_append_drop]

theorem slice_end (hpos : pos ≤ xs.length) :
    (slice xs pos xs.length : Outcome ε (List α)) = ok (xs.drop pos) := by
  rw [slice, if_pos ⟨hpos, Nat.le_refl _⟩, List.take_of_length_le (Nat.le_of_eq List.length_drop)]

end Outcome

/-! ## Checks in sequence -/

def refuseIf {ε : Type} (bad : Bool) (e : ε) : Except ε Unit := if bad then .error e else .ok ()

variable {ε : Type} {bad : Bool} {e : ε}

theorem refuseIf_eq_ok : refuseIf bad e = .ok () ↔ bad = false := by
  cases bad <;> simp [refuseIf]

variable {α : Type} {a : α}

theorem refuseIf_bind_eq_ok {f : Unit → Except ε α} :
    (refuseIf bad e >>= f) = .ok a ↔ bad = false ∧ f () = .ok a := by
  cases bad with
  | false => exact ⟨fun h => ⟨rfl, h⟩, fun h => h.2⟩
  | true =>
    constructor
    · intro h
      cases h
    · rintro ⟨hbad, -⟩
      cases hbad

variable {β : Type}

@[simp] theorem except_ok_bind (a : α) (f : α → Except ε β) :
    ((Except.ok a : Except ε α) >>= f) = f a := rfl

variable {x : Except ε α} {f : α → Except ε β} {b : β}

theorem check_eq_ok {ε α : Type} {p : Prop} [Decidable p] {e : ε} {x : Except ε α} {a : α} :
    (if p then .error e else x) = .ok a ↔ ¬p ∧ x = .ok a := by
  by_cases hp : p <;> simp [hp]

theorem except_bind_eq_ok : (x >>= f) = .ok b ↔ ∃ a, x = .ok a ∧ f a = .ok b := by
  cases x with
  | error e =>
    constructor
    · intro h
      cases h
    · rintro ⟨a, ha, -⟩
      cases ha
  | ok a =>
    constructor
    · intro h
      exact ⟨a, rfl, h⟩
    · rintro ⟨a', ha, hf⟩
      cases ha
      exact hf

theorem except_bind_congr {f g : α → Except ε β}
    (h : ∀ a, x = .ok a → f a = g a) : (x >>= f) = (x >>= g) := by
  cases x with
  | error e => rfl
  | ok a => exact h a rfl

theorem mapError_eq_ok {ε ε' α : Type} {x : Except ε α} {f : ε → ε'} {a : α} :
    x.mapError f = .ok a ↔ x = .ok a := by
  cases x with
  | error | ok => simp [Except.mapError]

def okOrElse {ε α : Type} (e : ε) : Option α → Except ε α
  | none => .error e
  | some a => .ok a

theorem okOrElse_eq_ok {o : Option α} : okOrElse e o = .ok a ↔ o = some a := by
  cases o with
  | none | some => simp [okOrElse]

variable {xs : List α}

theorem forM_eq_ok {f : α → Except ε Unit} : xs.forM f = .ok () ↔ ∀ x ∈ xs, f x = .ok () := by
  induction xs with
  | nil => simp [List.forM, pure, Except.pure]
  | cons x xs ih =>
    rw [List.forM, except_bind_eq_ok, List.forall_mem_cons]
    constructor
    · rintro ⟨⟨⟩, hx, hxs⟩
      exact ⟨hx, ih.mp hxs⟩
    · rintro ⟨hx, hxs⟩
      exact ⟨(), hx, ih.mpr hxs⟩

theorem mapM_eq_ok {ys : List β} :
    xs.mapM f = .ok ys ↔ List.Forall₂ (fun x y => f x = .ok y) xs ys := by
  induction xs generalizing ys with
  | nil =>
    rw [List.mapM_nil, List.forall₂_nil_left_iff]
    exact ⟨fun h => (Except.ok.inj h).symm, fun h => congrArg Except.ok h.symm⟩
  | cons x xs ih =>
    rw [List.mapM_cons, except_bind_eq_ok, List.forall₂_cons_left_iff]
    constructor
    · rintro ⟨y, hy, hrest⟩
      obtain ⟨ys', hys', hret⟩ := except_bind_eq_ok.mp hrest
      exact ⟨y, ys', hy, ih.mp hys', (Except.ok.inj hret).symm⟩
    · rintro ⟨y, ys', hy, hys', rfl⟩
      exact ⟨y, hy, except_bind_eq_ok.mpr ⟨ys', ih.mpr hys', rfl⟩⟩

theorem foldlM_ok_induction {f : β → α → Except ε β} {P : List α → β → Prop}
    (hstep : ∀ done x acc acc', P done acc → f acc x = .ok acc' → P (done ++ [x]) acc')
    {init result : β} (hinit : P [] init) (h : xs.foldlM f init = .ok result) : P xs result := by
  suffices key : ∀ rest done acc, P done acc → rest.foldlM f acc = .ok result →
      P (done ++ rest) result from key xs [] init hinit h
  intro rest
  induction rest with
  | nil =>
    intro done acc hacc hrest
    cases hrest
    rwa [List.append_nil]
  | cons x rest ih =>
    intro done acc hacc hrest
    rw [List.foldlM_cons] at hrest
    obtain ⟨acc', hacc', hrest⟩ := except_bind_eq_ok.mp hrest
    rw [List.append_cons]
    exact ih _ acc' (hstep done x acc acc' hacc hacc') hrest

end Kipuka.Generic
