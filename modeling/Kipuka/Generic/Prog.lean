/-
  Programs over atomic operations, and a rely-guarantee rule for them.
-/
import Mathlib.Data.List.Basic

namespace Kipuka.Generic

/-- A program that calls operations `Op` and gets replies of type `Reply op`. -/
inductive Prog (Op : Type) (Reply : Op → Type) (α : Type) : Type where
  | ret (a : α)
  | call (op : Op) (k : Reply op → Prog Op Reply α)

namespace Prog

variable {Op : Type} {Reply : Op → Type} {α β ε : Type}

def bind : Prog Op Reply α → (α → Prog Op Reply β) → Prog Op Reply β
  | ret a, f => f a
  | call op k, f => call op fun r => (k r).bind f

instance : Monad (Prog Op Reply) where
  pure := ret
  bind := bind

def op (o : Op) : Prog Op Reply (Reply o) := call o ret

def lift (p : Prog Op Reply α) : ExceptT ε (Prog Op Reply) α :=
  ExceptT.mk (p.bind fun a => ret (.ok a))

def ofExcept (r : Except ε α) : ExceptT ε (Prog Op Reply) α := ExceptT.mk (ret r)

def mapErr {ε' : Type} (f : ε' → ε) (p : Prog Op Reply (Except ε' α)) :
    ExceptT ε (Prog Op Reply) α :=
  ExceptT.mk (p.bind fun r => ret (r.mapError f))

end Prog

section Safe

variable {Op E σ : Type} {Reply : Op → Type} {α β ε : Type}
  {exec : E → (op : Op) → σ → Option (Reply op × σ)} {R G : σ → σ → Prop}

/-- Every own step keeps `G` and the end satisfies `Q`, under interference `R`. -/
def Safe (exec : E → (op : Op) → σ → Option (Reply op × σ)) (R G : σ → σ → Prop)
    (Q : α → σ → Prop) : Prog Op Reply α → σ → Prop
  | .ret a, s => Q a s
  | .call op k, s => ∀ e r s', exec e op s = some (r, s') →
      G s s' ∧ ∀ s'', R s' s'' → Safe exec R G Q (k r) s''

variable {s : σ}

theorem safe_op {o : Op} {Q : Reply o → σ → Prop}
    (h : ∀ e r s', exec e o s = some (r, s') → G s s' ∧ ∀ s'', R s' s'' → Q r s'') :
    Safe exec R G Q (Prog.op o) s := h

variable {p : Prog Op Reply α}

theorem safe_bind {f : α → Prog Op Reply β} {Q : β → σ → Prop}
    (h : Safe exec R G (fun a s => Safe exec R G Q (f a) s) p s) :
    Safe exec R G Q (p >>= f) s := by
  induction p generalizing s with
  | ret a => exact h
  | call op k ih =>
    intro e r s' he
    obtain ⟨hg, hk⟩ := h e r s' he
    exact ⟨hg, fun s'' hr => ih r (hk s'' hr)⟩

theorem Safe.mono {Q Q' : α → σ → Prop}
    (h : Safe exec R G Q p s) (hQ : ∀ a s, Q a s → Q' a s) : Safe exec R G Q' p s := by
  induction p generalizing s with
  | ret a => exact hQ a s h
  | call op k ih =>
    intro e r s' he
    obtain ⟨hg, hk⟩ := h e r s' he
    exact ⟨hg, fun s'' hr => ih r (hk s'' hr)⟩

variable {Q : α → σ → Prop}

theorem Safe.guarantee {G' : σ → σ → Prop}
    (h : Safe exec R G Q p s) (hG : ∀ s s', G s s' → G' s s') : Safe exec R G' Q p s := by
  induction p generalizing s with
  | ret a => exact h
  | call op k ih =>
    intro e r s' he
    obtain ⟨hg, hk⟩ := h e r s' he
    exact ⟨hG s s' hg, fun s'' hr => ih r (hk s'' hr)⟩

theorem Safe.rely {R' : σ → σ → Prop} (h : Safe exec R G Q p s) (hR : ∀ s s', R' s s' → R s s') :
    Safe exec R' G Q p s := by
  induction p generalizing s with
  | ret a => exact h
  | call op k ih =>
    intro e r s' he
    obtain ⟨hg, hk⟩ := h e r s' he
    exact ⟨hg, fun s'' hr => ih r (hk s'' (hR s' s'' hr))⟩

theorem safe_invariant {I : σ → Prop}
    (hexec : ∀ e o s r s', I s → exec e o s = some (r, s') → G s s' ∧ I s')
    (hrely : ∀ s s', I s → R s s' → I s') (p : Prog Op Reply α) (h : I s) :
    Safe exec R G (fun _ s => I s) p s := by
  induction p generalizing s with
  | ret a => exact h
  | call op k ih =>
    intro e r s' he
    obtain ⟨hg, hI⟩ := hexec e op s r s' h he
    exact ⟨hg, fun s'' hr => ih r (hrely s' s'' hI hr)⟩

theorem safe_of_forall (hQ : ∀ a s, Q a s) (p : Prog Op Reply α) (s : σ) :
    Safe exec R (fun _ _ => True) Q p s :=
  (safe_invariant (I := fun _ => True) (fun _ _ _ _ _ _ _ => ⟨trivial, trivial⟩)
    (fun _ _ _ _ => trivial) p trivial).mono fun a s _ => hQ a s

def Ends (A : α → σ → Prop) (B : ε → σ → Prop) : Except ε α → σ → Prop
  | .ok a, s => A a s
  | .error e, s => B e s

theorem Safe.ends {p : Prog Op Reply (Except ε α)} {A A' : α → σ → Prop} {B B' : ε → σ → Prop}
    (h : Safe exec R G (Ends A B) p s) (hA : ∀ a s, A a s → A' a s)
    (hB : ∀ e s, B e s → B' e s) : Safe exec R G (Ends A' B') p s := by
  refine h.mono ?_
  intro r s' hr
  cases r with
  | ok a => exact hA a s' hr
  | error e => exact hB e s' hr

variable {f : α → ExceptT ε (Prog Op Reply) β} {A : α → σ → Prop} {B : ε → σ → Prop}

theorem safe_seq {x : ExceptT ε (Prog Op Reply) α} {Q : Except ε β → σ → Prop}
    (hx : Safe exec R G (Ends A B) x.run s)
    (hok : ∀ a s, A a s → Safe exec R G Q (f a).run s)
    (herr : ∀ e s, B e s → Q (.error e) s) : Safe exec R G Q (x >>= f).run s := by
  refine safe_bind (hx.mono ?_)
  intro r s' hr
  cases r with
  | ok a => exact hok a s' hr
  | error e => exact herr e s' hr

theorem safe_lift {Q : Except ε α → σ → Prop}
    (h : Safe exec R G (fun a s => Q (.ok a) s) p s) : Safe exec R G Q (Prog.lift p).run s :=
  safe_bind h

theorem safe_ask {Q : Except ε β → σ → Prop}
    (h : Safe exec R G (fun a s => Safe exec R G Q (f a).run s) p s) :
    Safe exec R G Q (Prog.lift p >>= f).run s :=
  safe_bind (safe_lift h)

variable {ε' : Type} {g : ε' → ε}

theorem safe_mapErr {p : Prog Op Reply (Except ε' α)} {Q : Except ε α → σ → Prop}
    (h : Safe exec R G (fun r s => Q (r.mapError g) s) p s) :
    Safe exec R G Q (Prog.mapErr g p).run s :=
  safe_bind h

theorem safe_try {p : Prog Op Reply (Except ε' α)} {Q : Except ε β → σ → Prop}
    (h : Safe exec R G (Ends (fun a s => Safe exec R G Q (f a).run s)
      (fun e s => Q (.error (g e)) s)) p s) : Safe exec R G Q (Prog.mapErr g p >>= f).run s := by
  refine safe_bind (safe_mapErr (h.mono ?_))
  intro r s' hr
  cases r with
  | ok a => exact hr
  | error e => exact hr

theorem safe_ofExcept {r : Except ε α}
    {Q : Except ε β → σ → Prop} (hok : ∀ a, r = .ok a → Safe exec R G Q (f a).run s)
    (herr : ∀ e, r = .error e → Q (.error e) s) :
    Safe exec R G Q (Prog.ofExcept r >>= f).run s := by
  cases r with
  | ok a => exact hok a rfl
  | error e => exact herr e rfl

end Safe

/-! ## One program against one environment -/

namespace Prog

variable {Op : Type} {Reply : Op → Type} {α β ε : Type} (answer : (op : Op) → Reply op)

def eval : Prog Op Reply α → α
  | ret a => a
  | call op k => (k (answer op)).eval

def trace : Prog Op Reply α → List Op
  | ret _ => []
  | call op k => op :: (k (answer op)).trace

section

variable (p : Prog Op Reply α) (f : α → Prog Op Reply β)

theorem eval_bind : (p >>= f).eval answer = (f (p.eval answer)).eval answer := by
  induction p with
  | ret a => rfl
  | call op k ih => exact ih (answer op)

theorem trace_bind :
    (p >>= f).trace answer = p.trace answer ++ (f (p.eval answer)).trace answer := by
  induction p with
  | ret a => rfl
  | call op k ih => exact congrArg (List.cons op) (ih (answer op))

end

@[simp] theorem eval_ofExcept (r : Except ε α) :
    (ofExcept r : ExceptT ε (Prog Op Reply) α).run.eval answer = r := rfl

theorem eval_mapErr {ε' : Type} (f : ε' → ε) (p : Prog Op Reply (Except ε' α)) :
    (mapErr f p).run.eval answer = (p.eval answer).mapError f :=
  eval_bind answer p _

variable {x : ExceptT ε (Prog Op Reply) α} {f : α → ExceptT ε (Prog Op Reply) β}

theorem eval_seq {b : β} : (x >>= f).run.eval answer = .ok b ↔
      ∃ a, x.run.eval answer = .ok a ∧ (f a).run.eval answer = .ok b := by
  have hbind : (x >>= f).run.eval answer = (ExceptT.bindCont f (x.run.eval answer)).eval answer :=
    eval_bind answer x.run _
  rw [hbind]
  cases x.run.eval answer with
  | error e =>
    constructor
    · intro h
      cases h
    · rintro ⟨a, ha, -⟩
      cases ha
  | ok a =>
    constructor
    · intro h
      exact ⟨a, rfl, h⟩
    · rintro ⟨a', ha, h⟩
      cases ha
      exact h

theorem mem_trace_seq {op : Op} : op ∈ (x >>= f).run.trace answer ↔ op ∈ x.run.trace answer ∨
        ∃ a, x.run.eval answer = .ok a ∧ op ∈ (f a).run.trace answer := by
  have hbind : (x >>= f).run.trace answer =
      x.run.trace answer ++ (ExceptT.bindCont f (x.run.eval answer)).trace answer :=
    trace_bind answer x.run _
  rw [hbind, List.mem_append]
  cases x.run.eval answer with
  | error e =>
    constructor
    · rintro (h | h)
      · exact .inl h
      · cases h
    · rintro (h | ⟨a, ha, -⟩)
      · exact .inl h
      · cases ha
  | ok a =>
    constructor
    · rintro (h | h)
      · exact .inl h
      · exact .inr ⟨a, rfl, h⟩
    · rintro (h | ⟨a', ha, h⟩)
      · exact .inl h
      · cases ha
        exact .inr h

end Prog

end Kipuka.Generic
