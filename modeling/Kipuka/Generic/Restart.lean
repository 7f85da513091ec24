/-
  Threads over a shared state whose process can restart.
-/
import Kipuka.Generic.Threads

namespace Kipuka.Generic

variable {W E B Op Task Res σ : Type} {Reply : Op → Type}

inductive Event (W E Task B : Type) where
  | act (a : Act W E Task)
  | restart (b : B)

namespace System

variable [DecidableEq W] (S : System W E Op Task Res σ Reply) (boot : B → σ → σ)

def event (c : Config W Op Task Res σ Reply) :
    Event W E Task B → Option (Config W Op Task Res σ Reply)
  | .act a => S.act c a
  | .restart b => some ⟨boot b c.shared, fun _ => none, c.done⟩

def live : Config W Op Task Res σ Reply → List (Event W E Task B) →
    Option (Config W Op Task Res σ Reply)
  | c, [] => some c
  | c, x :: xs => (S.event boot c x).bind fun c' => live c' xs

end System

/-! ## Pacts -/

/-- A contract that a restart keeps: `evolve` contains it, and all threads are idle after it. -/
structure Pact (S : System W E Op Task Res σ Reply) (boot : B → σ → σ) extends Contract S where
  boots : ∀ b s, inv s → inv (boot b s) ∧ evolve s (boot b s) ∧ ∀ w, idle w (boot b s)

namespace Pact

variable {S : System W E Op Task Res σ Reply} {boot : B → σ → σ} (C : Pact S boot)
  {c c' : Config W Op Task Res σ Reply}

theorem inv_restart (h : C.Inv c) (b : B) :
    C.Inv (⟨boot b c.shared, fun _ => none, c.done⟩ : Config W Op Task Res σ Reply) := by
  obtain ⟨hinv, hev, hidle⟩ := C.boots b c.shared h.shared
  exact ⟨hinv, hidle, fun f hf => C.post_stable (h.done f hf) hev⟩

variable [DecidableEq W]

theorem inv_event {x : Event W E Task B} (h : C.Inv c)
    (hx : S.event boot c x = some c') : C.Inv c' ∧ C.evolve c.shared c'.shared := by
  cases x with
  | act a => exact C.inv_act h (S.acts_of_act hx)
  | restart b =>
    cases hx
    exact ⟨C.inv_restart h b, (C.boots b c.shared h.shared).2.1⟩

variable {xs : List (Event W E Task B)}

theorem live_inv (h : C.Inv c)
    (hlive : S.live boot c xs = some c') : C.Inv c' ∧ C.evolve c.shared c'.shared := by
  induction xs generalizing c with
  | nil =>
    cases hlive
    exact ⟨h, C.evolve_refl _⟩
  | cons x xs ih =>
    obtain ⟨d, hd, hrest⟩ := Option.bind_eq_some_iff.mp hlive
    obtain ⟨hinv, hev⟩ := C.inv_event h hd
    obtain ⟨hinv', hev'⟩ := ih hinv hrest
    exact ⟨hinv', C.evolve_trans hev hev'⟩

/-! ### Tasks started under a stable condition -/

/-- Tasks of `w` that are started under the condition `P`, which stays true, end in `Q`. -/
abbrev Forces (w : W) (P : σ → Prop) (Q : Task → Res → Prop) : Prop :=
  C.Owns w P (fun _ => True) (fun _ => ()) Q

variable {w : W} {P : σ → Prop} {Q : Task → Res → Prop}

theorem live_forced (hforces : C.Forces w P Q) (hinv : C.Inv c) (hP : P c.shared)
    (hok : C.OwnedOk w (fun _ => ()) Q c.shared (c.threads w))
    (hlive : S.live boot c xs = some c') : Contract.EndedIn w Q c c' := by
  induction xs generalizing c with
  | nil =>
    cases hlive
    exact Contract.endedIn_of_done rfl
  | cons x xs ih =>
    obtain ⟨d, hd, hrest⟩ := Option.bind_eq_some_iff.mp hlive
    obtain ⟨hinv', hev⟩ := C.inv_event hinv hd
    have hstep : C.OwnedOk w (fun _ => ()) Q d.shared (d.threads w) ∧ Contract.EndedIn w Q c d := by
      cases x with
      | act a =>
        obtain ⟨hok', -, hended⟩ := C.owned_act hforces hinv hP hok (fun _ _ => trivial)
          (S.acts_of_act hd)
        exact ⟨hok', hended⟩
      | restart b =>
        cases hd
        exact ⟨trivial, Contract.endedIn_of_done rfl⟩
    exact hstep.2.trans (ih hinv' (hforces.stable hP hev) hstep.1 hrest)

end Pact

end Kipuka.Generic
