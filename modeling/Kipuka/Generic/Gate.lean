/-
  A gate in front of an action: a job may act only once it is admitted.
-/
import Kipuka.Generic.History

namespace Kipuka.Generic

inductive Standing (J : Type) where
  | closed
  | fresh (j : J)
  | admitted (j : J)
  | broken
  deriving DecidableEq, Repr

namespace Standing

variable {J : Type}

def admission (ok : Bool) : Standing J → Standing J
  | fresh j => if ok then admitted j else closed
  | m => m

def act : Standing J → Standing J
  | admitted j => admitted j
  | _ => broken

def Intact (m : Standing J) : Prop := m ≠ broken

theorem intact_closed : (closed : Standing J).Intact := nofun

theorem intact_fresh (j : J) : (fresh j).Intact := nofun

theorem intact_admitted (j : J) : (admitted j).Intact := nofun

theorem admission_ne_fresh (ok : Bool) (m : Standing J) (j : J) : m.admission ok ≠ fresh j := by
  cases m with
  | fresh j' =>
    cases ok with
    | false => nofun
    | true => nofun
  | closed | admitted | broken => nofun

theorem eq_admitted_of_intact_act {m : Standing J} (h : m.act.Intact) : ∃ j, m = admitted j := by
  cases m with
  | admitted j => exact ⟨j, rfl⟩
  | closed | fresh | broken => exact absurd rfl h

end Standing

section Rules

variable {J Op : Type} {Reply : Op → Type} {α β ε : Type}
  {step : Standing J → (o : Op) → Reply o → Standing J} {m : Standing J} {j : J}

/-! ## Programs that leave the standing alone -/

/-- A program that does not break the standing and leaves it as it was. -/
def Keeps (step : Standing J → (o : Op) → Reply o → Standing J) (m : Standing J) (p : Prog Op Reply α) :
    Prop :=
  Obeys step Standing.Intact (fun _ m' => m' = m) p m

theorem keeps_of_only (hm : m.Intact) {p : Prog Op Reply α}
    (hp : Only (fun o => ∀ r, step m o r = m) p) : Keeps step m p := by
  refine Steady.only (I := fun m' => m' = m) ⟨?_, fun _ _ hm hr => hr.trans hm⟩ hp rfl
  rintro answer o _ r m' ho rfl he
  cases he
  exact ⟨(ho _).symm ▸ hm, ho _⟩

variable {f : α → ExceptT ε (Prog Op Reply) β} {x : ExceptT ε (Prog Op Reply) α}

/-! ## Programs that admit their job -/

/-- From a fresh job on, the gate holds, and a value is returned only if the job is admitted. -/
def Admits (step : Standing J → (o : Op) → Reply o → Standing J) (j : J)
    (p : Prog Op Reply (Except ε α)) : Prop :=
  Obeys step Standing.Intact (Ends (fun _ m => m = .admitted j) fun _ _ => True) p (.fresh j)

theorem admits_mapErr {ε' : Type} {g : ε' → ε} {p : Prog Op Reply (Except ε' α)}
    (hp : Admits step j p) : Admits step j (Prog.mapErr g p).run := by
  refine safe_mapErr (hp.mono ?_)
  intro r m hr
  cases r with
  | ok a => exact hr
  | error e => trivial

theorem admits_after (hx : Only (fun o => ∀ r, step (.fresh j) o r = .fresh j) x.run)
    (hf : ∀ a, Admits step j (f a).run) : Admits step j (x >>= f).run := by
  refine safe_bind ((keeps_of_only (Standing.intact_fresh j) hx).mono ?_)
  rintro r _ rfl
  cases r with
  | ok a => exact hf a
  | error e => trivial

theorem admits_then (hx : Admits step j x.run) (hf : ∀ a, Keeps step (.admitted j) (f a).run) :
    Admits step j (x >>= f).run := by
  refine safe_seq hx ?_ fun _ _ _ => trivial
  rintro a _ rfl
  refine (hf a).mono ?_
  rintro r _ rfl
  cases r with
  | ok b => rfl
  | error e => trivial

end Rules

end Kipuka.Generic
