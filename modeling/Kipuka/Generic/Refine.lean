/-
  Programs whose operations are themselves programs, and programs under a monitor.
-/
import Kipuka.Generic.Prog

namespace Kipuka.Generic

variable {Op Op' : Type} {Reply : Op → Type} {Reply' : Op' → Type} {α β ε : Type}

def Prog.interp (h : (o : Op) → Prog Op' Reply' (Reply o)) :
    Prog Op Reply α → Prog Op' Reply' α
  | .ret a => .ret a
  | .call o k => (h o).bind fun r => (k r).interp h

def Prog.interpE (h : (o : Op) → Prog Op' Reply' (Reply o)) (p : ExceptT ε (Prog Op Reply) α) :
    ExceptT ε (Prog Op' Reply') α :=
  ExceptT.mk (p.run.interp h)

variable {p : Prog Op Reply α}

theorem safe_interp {E E' σ : Type} {exec : E → (op : Op) → σ → Option (Reply op × σ)}
    {exec' : E' → (op : Op') → σ → Option (Reply' op × σ)}
    {h : (o : Op) → Prog Op' Reply' (Reply o)} {R G : σ → σ → Prop}
    (hop : ∀ o Q s, Safe exec R G Q (Prog.op o) s → Safe exec' R G Q (h o) s) {Q : α → σ → Prop}
    {s : σ} (hp : Safe exec R G Q p s) : Safe exec' R G Q (p.interp h) s := by
  induction p generalizing s with
  | ret a => exact hp
  | call o k ih =>
    have hstep : Safe exec R G (fun r s => Safe exec R G Q (k r) s) (Prog.op o) s := hp
    exact safe_bind ((hop o _ s hstep).mono fun r s' hr => ih r hr)

/-! ## Monitors -/

section Monitor

variable {μ : Type} {step : μ → (o : Op) → Reply o → μ} {allowed : μ → Prop}

def watch (step : μ → (o : Op) → Reply o → μ) (answer : (o : Op) → Reply o) (o : Op) (m : μ) :
    Option (Reply o × μ) :=
  some (answer o, step m o (answer o))

/-- From `m` on, the monitor only moves to allowed states and ends in `Q`. -/
abbrev Obeys (step : μ → (o : Op) → Reply o → μ) (allowed : μ → Prop) (Q : α → μ → Prop)
    (p : Prog Op Reply α) (m : μ) : Prop :=
  Safe (watch step) (fun m m' => m' = m) (fun _ m' => allowed m') Q p m

theorem obeys_op {o : Op} {Q : Reply o → μ → Prop} {m : μ}
    (h : ∀ r, allowed (step m o r) ∧ Q r (step m o r)) : Obeys step allowed Q (Prog.op o) m := by
  refine safe_op ?_
  intro answer r m' he
  cases he
  exact ⟨(h _).1, fun m'' hm => hm ▸ (h _).2⟩

variable {Q : α → μ → Prop} {m : μ}

theorem Obeys.call [∀ o, Nonempty (Reply o)] {o : Op} {k : Reply o → Prog Op Reply α}
    (h : Obeys step allowed Q (.call o k) m) (r : Reply o) :
    allowed (step m o r) ∧ Obeys step allowed Q (k r) (step m o r) := by
  classical
  obtain ⟨answer⟩ : Nonempty ((o : Op) → Reply o) := inferInstance
  have hr : Function.update answer o r o = r := Function.update_self ..
  have hcall := h (Function.update answer o r) r (step m o r) (by rw [watch, hr])
  exact ⟨hcall.1, hcall.2 _ rfl⟩

theorem Obeys.ends_allowed [∀ o, Nonempty (Reply o)] (h : Obeys step allowed Q p m) (hm : allowed m) :
    Obeys step allowed (fun a m' => Q a m' ∧ allowed m') p m := by
  induction p generalizing m with
  | ret a => exact ⟨h, hm⟩
  | call o k ih =>
    intro answer r m' he
    cases he
    obtain ⟨hallowed, hk⟩ := h.call (answer o)
    exact ⟨hallowed, fun m'' hm' => hm' ▸ ih _ hk hallowed⟩

theorem safe_of_obeys [∀ o, Nonempty (Reply o)] {E σ : Type}
    {exec : E → (op : Op') → σ → Option (Reply' op × σ)} {R G : σ → σ → Prop}
    {h : (o : Op) → Prog Op' Reply' (Reply o)} {link : μ → σ → Prop}
    (hop : ∀ o m s, link m s → (∀ r, allowed (step m o r)) →
      Safe exec R G (fun r s' => link (step m o r) s') (h o) s) {s : σ}
    (hp : Obeys step allowed Q p m) (hlink : link m s) :
    Safe exec R G (fun a s' => ∃ m', Q a m' ∧ link m' s') (p.interp h) s := by
  induction p generalizing m s with
  | ret a => exact ⟨m, hp, hlink⟩
  | call o k ih =>
    have hstep := hop o m s hlink fun r => (hp.call r).1
    exact safe_bind (hstep.mono fun r s' hlink' => ih r (hp.call r).2 hlink')

end Monitor

end Kipuka.Generic
