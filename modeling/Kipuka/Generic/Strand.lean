/-
  One thread among others.
-/
import Kipuka.Generic.History
import Kipuka.Generic.Threads

namespace Kipuka.Generic

variable {Op E σ α ε : Type} {Reply : Op → Type}

/-! ## Programs with loops -/

instance : LawfulMonad (Prog Op Reply) := by
  refine LawfulMonad.mk' (Prog Op Reply) (fun p => ?_) (fun _ _ => rfl) fun p f g => ?_
  all_goals
    induction p with
    | ret a => rfl
    | call op k ih => exact congrArg (Prog.call op) (funext ih)

/-! ## Strands -/

structure Moment (Op : Type) (Reply : Op → Type) (σ : Type) where
  before : σ
  call : Answered Op Reply
  after : σ

/-- One thread of a program with its calls and the states around them; between two calls the others
    may do what `R` allows. -/
inductive Strand (exec : E → (op : Op) → σ → Option (Reply op × σ)) (R : σ → σ → Prop) :
    Prog Op Reply α → σ → List (Moment Op Reply σ) → Prog Op Reply α → σ → Prop where
  | rest {p : Prog Op Reply α} {s s' : σ} (h : R s s') : Strand exec R p s [] p s'
  | call {op : Op} {k : Reply op → Prog Op Reply α} {s s' s'' t : σ} {e : E} {r : Reply op}
      {trace : List (Moment Op Reply σ)} {q : Prog Op Reply α} (h : R s s')
      (he : exec e op s' = some (r, s'')) (rest : Strand exec R (k r) s'' trace q t) :
      Strand exec R (.call op k) s (⟨s', ⟨op, r⟩, s''⟩ :: trace) q t

section Strands

variable {exec : E → (op : Op) → σ → Option (Reply op × σ)} {R : σ → σ → Prop}
  {p q : Prog Op Reply α} {s t : σ} {trace : List (Moment Op Reply σ)}

theorem Strand.plays (h : Strand exec R p s trace q t) : Plays p (trace.map Moment.call) q := by
  induction h with
  | rest h => exact .start _
  | call h he rest ih => exact .call _ _ _ ih

theorem Strand.executes (h : Strand exec R p s trace q t) :
    ∀ m ∈ trace, ∃ e, exec e m.call.1 m.before = some (m.call.2, m.after) := by
  induction h with
  | rest h => exact List.forall_mem_nil _
  | call h he rest ih => exact List.forall_mem_cons.mpr ⟨⟨_, he⟩, ih⟩

theorem Strand.of_ret {a : α} (h : Strand exec R (.ret a) s trace q t) : trace = [] := by
  cases h with
  | rest h => rfl

theorem Strand.of_call {op : Op} {k : Reply op → Prog Op Reply α}
    (h : Strand exec R (.call op k) s trace q t) :
    trace = [] ∨ ∃ e s' r s'' rest, R s s' ∧ exec e op s' = some (r, s'') ∧
      trace = ⟨s', ⟨op, r⟩, s''⟩ :: rest ∧ Strand exec R (k r) s'' rest q t := by
  cases h with
  | rest h => exact .inl rfl
  | call h he rest => exact .inr ⟨_, _, _, _, _, h, he, rfl, rest⟩

section Lasting

variable {P : σ → Prop} (hR : ∀ s s', R s s' → P s → P s')
  (hexec : ∀ e op s r s', exec e op s = some (r, s') → P s → P s')

include hR hexec

variable (h : Strand exec R p s trace q t)

include h

theorem Strand.lasts (hs : P s) : P t := by
  induction h with
  | rest h => exact hR _ _ h hs
  | call h he rest ih => exact ih (hexec _ _ _ _ _ he (hR _ _ h hs))

theorem Strand.after {m : Moment Op Reply σ} (hm : m ∈ trace) (hP : P m.after) : P t := by
  induction h with
  | rest h => cases hm
  | call h he rest ih =>
    rcases List.mem_cons.mp hm with rfl | hm
    · exact rest.lasts hR hexec hP
    · exact ih hm

end Lasting

def Prog.strandBy (exec : E → (op : Op) → σ → Option (Reply op × σ)) :
    List E → Prog Op Reply α → σ → List (Moment Op Reply σ) × Prog Op Reply α × σ
  | e :: es, .call op k, s =>
    match exec e op s with
    | none => ([], .call op k, s)
    | some (r, s') =>
      (⟨s, ⟨op, r⟩, s'⟩ :: ((k r).strandBy exec es s').1, ((k r).strandBy exec es s').2)
  | _, p, s => ([], p, s)

theorem strand_strandBy (hrefl : ∀ s, R s s) (es : List E) (p : Prog Op Reply α) (s : σ) :
    Strand exec R p s (p.strandBy exec es s).1 (p.strandBy exec es s).2.1
      (p.strandBy exec es s).2.2 := by
  induction es generalizing p s with
  | nil => exact .rest (hrefl s)
  | cons e es ih =>
    cases p with
    | ret a => exact .rest (hrefl s)
    | call op k =>
      cases he : exec e op s with
      | none =>
        simp only [Prog.strandBy, he]
        exact .rest (hrefl s)
      | some rs =>
        simp only [Prog.strandBy, he]
        exact .call (hrefl s) he (ih (k rs.1) rs.2)

theorem strand_of_value (hrefl : ∀ s, R s s) {es : List E} {a : α}
    (h : (p.strandBy exec es s).2.1.value = some a) :
    Strand exec R p s (p.strandBy exec es s).1 (.ret a) (p.strandBy exec es s).2.2 := by
  have hstrand : Strand exec R p s _ _ _ := strand_strandBy hrefl es p s
  cases hend : (p.strandBy exec es s).2.1 with
  | call op k =>
    rw [hend] at h
    cases h
  | ret a' =>
    rw [hend] at h
    obtain rfl := Option.some.inj h
    exact hend ▸ hstrand

end Strands

/-! ## Runs -/

variable {W Task Res : Type}

def Act.thread : Act W E Task → W
  | .start w _ => w
  | .step w _ => w
  | .abandon w => w

namespace System

variable [DecidableEq W] (S : System W E Op Task Res σ Reply)

/-- Every act that is possible changes the shared state as `T` allows its thread. -/
def Along (T : W → σ → σ → Prop) :
    Config W Op Task Res σ Reply → List (Act W E Task) → Prop
  | _, [] => True
  | c, a :: as => ∀ c', S.act c a = some c' → T a.thread c.shared c'.shared ∧ Along T c' as

variable {S}

theorem along_of_safe {w : W} {R G H : σ → σ → Prop} {Q : Res → σ → Prop}
    (hrefl : ∀ s, R s s) (htrans : ∀ s s' s'', R s s' → R s' s'' → R s s'')
    (hothers : ∀ v e op s r s', S.exec v e op s = some (r, s') → H s s' → R s s')
    (hdropped : ∀ v s, H s (S.abandon v s) → R s (S.abandon v s)) (hstay : ∀ s, G s s)
    (hdrop : ∀ s, G s (S.abandon w s)) {c : Config W Op Task Res σ Reply} {as : List (Act W E Task)}
    (hsafe : ∀ th, c.threads w = some th →
      ∀ s, R c.shared s → Safe (S.exec w) R G Q th.prog s)
    (hone : ∀ t, .start w t ∉ as) (hrun : S.Along (fun v s s' => v ≠ w → H s s') c as) :
    S.Along (fun v s s' => v = w → G s s') c as := by
  induction as generalizing c with
  | nil => trivial
  | cons a as ih =>
    intro c' hact
    obtain ⟨hH, hrun⟩ := hrun c' hact
    have hone' : ∀ t, .start w t ∉ as := fun t ht => hone t (List.mem_cons_of_mem _ ht)
    -- an act of another thread, which changes the state as `R` allows
    have hother : ∀ v th s, v ≠ w → R c.shared s →
        ∀ th', (c.set s v th).threads w = some th' →
          ∀ s', R s s' → Safe (S.exec w) R G Q th'.prog s' := by
      intro v th s hv hR th' hth' s' hR'
      rw [Config.set_threads_ne s (Ne.symm hv)] at hth'
      exact hsafe th' hth' s' (htrans _ _ _ hR hR')
    cases S.acts_of_act hact with
    | start v t hv =>
      have hvw : v ≠ w := by
        rintro rfl
        exact hone t List.mem_cons_self
      exact ⟨fun _ => hstay _, ih (hother v _ _ hvw (hrefl _)) hone' hrun⟩
    | finish v e t r hv =>
      refine ⟨fun _ => hstay _, ih ?_ hone' hrun⟩
      by_cases hvw : v = w
      · subst hvw
        intro th hth
        rw [Config.finish_threads, Config.set_threads_self] at hth
        cases hth
      · exact hother v none c.shared hvw (hrefl _)
    | call v e t op k r s' hv he =>
      by_cases hvw : v = w
      · subst hvw
        obtain ⟨hG, hk⟩ := hsafe _ hv c.shared (hrefl _) e r s' he
        refine ⟨fun _ => hG, ih ?_ hone' hrun⟩
        intro th hth
        rw [Config.set_threads_self] at hth
        cases hth
        exact hk
      · have hR : R c.shared s' := hothers v e op _ r s' he (hH hvw)
        exact ⟨fun heq => absurd heq hvw, ih (hother v _ s' hvw hR) hone' hrun⟩
    | abandon v th hv =>
      by_cases hvw : v = w
      · subst hvw
        refine ⟨fun _ => hdrop _, ih ?_ hone' hrun⟩
        intro th hth
        rw [Config.set_threads_self] at hth
        cases hth
      · have hR := hdropped v c.shared (hH hvw)
        exact ⟨fun heq => absurd heq hvw, ih (hother v none _ hvw hR) hone' hrun⟩

end System

end Kipuka.Generic
