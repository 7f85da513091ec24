/-
  Threads that run programs over one shared state, in any interleaving.
-/
import Kipuka.Generic.Prog

namespace Kipuka.Generic

variable {W E Op Task Res σ : Type} {Reply : Op → Type}

/-- What the threads share: how an operation acts, what dropping a thread undoes, and the program
    of each task. `exec` gives `none` when the operation has to wait. -/
structure System (W E Op Task Res σ : Type) (Reply : Op → Type) where
  exec : W → E → (op : Op) → σ → Option (Reply op × σ)
  abandon : W → σ → σ
  prog : Task → Prog Op Reply Res

structure Thread (Op Task Res : Type) (Reply : Op → Type) where
  task : Task
  prog : Prog Op Reply Res

structure Finished (W Task Res : Type) where
  thread : W
  task : Task
  result : Res

/-- The shared state, what each thread is doing, and the finished tasks in order. -/
structure Config (W Op Task Res σ : Type) (Reply : Op → Type) where
  shared : σ
  threads : W → Option (Thread Op Task Res Reply)
  done : List (Finished W Task Res)

inductive Act (W E Task : Type) where
  | start (w : W) (t : Task)
  | step (w : W) (e : E)
  | abandon (w : W)
  deriving DecidableEq

variable {th : Option (Thread Op Task Res Reply)} {c : Config W Op Task Res σ Reply}

namespace Config

variable [DecidableEq W]

def initial (s : σ) : Config W Op Task Res σ Reply := ⟨s, fun _ => none, []⟩

def set (c : Config W Op Task Res σ Reply) (s : σ) (w : W) (th : Option (Thread Op Task Res Reply)) :
    Config W Op Task Res σ Reply :=
  { c with shared := s, threads := Function.update c.threads w th }

def finish (c : Config W Op Task Res σ Reply) (w : W) (t : Task) (r : Res) :
    Config W Op Task Res σ Reply :=
  { c.set c.shared w none with done := c.done ++ [⟨w, t, r⟩] }

@[simp] theorem set_threads_self (s : σ) (w : W)
    (th : Option (Thread Op Task Res Reply)) : (c.set s w th).threads w = th :=
  Function.update_self ..

theorem set_threads_ne (s : σ) {v w : W} (h : v ≠ w)
    (th : Option (Thread Op Task Res Reply)) : (c.set s w th).threads v = c.threads v :=
  Function.update_of_ne h ..

variable {w : W}

theorem forall_threads_set {s : σ} {P : W → Option (Thread Op Task Res Reply) → Prop}
    (hw : P w th) (hothers : ∀ v, v ≠ w → P v (c.threads v)) (v : W) :
    P v ((c.set s w th).threads v) :=
  (Function.forall_update_iff c.threads P).mpr ⟨hw, hothers⟩ v

@[simp] theorem finish_threads (t : Task) (r : Res) :
    (c.finish w t r).threads = (c.set c.shared w none).threads := rfl

end Config

variable {as : List (Act W E Task)} {a : Act W E Task}

namespace System

variable [DecidableEq W] (S : System W E Op Task Res σ Reply)

def act (c : Config W Op Task Res σ Reply) : Act W E Task → Option (Config W Op Task Res σ Reply)
  | .start w t =>
    match c.threads w with
    | none => some (c.set c.shared w (some ⟨t, S.prog t⟩))
    | some _ => none
  | .step w e =>
    match c.threads w with
    | none => none
    | some ⟨t, .ret r⟩ => some (c.finish w t r)
    | some ⟨t, .call op k⟩ =>
      (S.exec w e op c.shared).map fun rs => c.set rs.2 w (some ⟨t, k rs.1⟩)
  | .abandon w =>
    match c.threads w with
    | none => none
    | some _ => some (c.set (S.abandon w c.shared) w none)

def run : Config W Op Task Res σ Reply → List (Act W E Task) → Option (Config W Op Task Res σ Reply)
  | c, [] => some c
  | c, a :: as => (S.act c a).bind fun c' => run c' as

inductive Acts (c : Config W Op Task Res σ Reply) :
    Act W E Task → Config W Op Task Res σ Reply → Prop where
  | start (w : W) (t : Task) (h : c.threads w = none) :
      Acts c (.start w t) (c.set c.shared w (some ⟨t, S.prog t⟩))
  | finish (w : W) (e : E) (t : Task) (r : Res) (h : c.threads w = some ⟨t, .ret r⟩) :
      Acts c (.step w e) (c.finish w t r)
  | call (w : W) (e : E) (t : Task) (op : Op) (k : Reply op → Prog Op Reply Res) (r : Reply op)
      (s' : σ) (h : c.threads w = some ⟨t, .call op k⟩) (he : S.exec w e op c.shared = some (r, s')) :
      Acts c (.step w e) (c.set s' w (some ⟨t, k r⟩))
  | abandon (w : W) (th : Thread Op Task Res Reply) (h : c.threads w = some th) :
      Acts c (.abandon w) (c.set (S.abandon w c.shared) w none)

variable {c' : Config W Op Task Res σ Reply}

theorem acts_of_act (h : S.act c a = some c') : S.Acts c a c' := by
  cases a with
  | start w t =>
    simp only [act] at h
    split at h
    · next hw =>
      cases h
      exact .start w t hw
    · cases h
  | step w e =>
    simp only [act] at h
    split at h
    · cases h
    · next t r hw =>
      cases h
      exact .finish w e t r hw
    · next t op k hw =>
      obtain ⟨⟨r, s'⟩, he, rfl⟩ := Option.map_eq_some_iff.mp h
      exact .call w e t op k r s' hw he
  | abandon w =>
    simp only [act] at h
    split at h
    · cases h
    · next th hw =>
      cases h
      exact .abandon w th hw

theorem run_cons (h : S.run c (a :: as) = some c') : ∃ d, S.Acts c a d ∧ S.run d as = some c' := by
  obtain ⟨d, hd, hrest⟩ := Option.bind_eq_some_iff.mp h
  exact ⟨d, S.acts_of_act hd, hrest⟩

theorem run_append {c' d : Config W Op Task Res σ Reply} {as' : List (Act W E Task)}
    (h : S.run c as = some c') (h' : S.run c' as' = some d) : S.run c (as ++ as') = some d := by
  induction as generalizing c with
  | nil =>
    cases h
    exact h'
  | cons a as ih =>
    obtain ⟨b, hb, hrest⟩ := Option.bind_eq_some_iff.mp h
    exact Option.bind_eq_some_iff.mpr ⟨b, hb, ih hrest⟩

theorem run_preserves {I : σ → Prop}
    (hexec : ∀ w e op s r s', S.exec w e op s = some (r, s') → I s → I s')
    (habandon : ∀ w s, I s → I (S.abandon w s)) (h : I c.shared)
    (hrun : S.run c as = some c') : I c'.shared := by
  induction as generalizing c with
  | nil =>
    cases hrun
    exact h
  | cons a as ih =>
    obtain ⟨d, hact, hrest⟩ := S.run_cons hrun
    refine ih ?_ hrest
    cases hact with
    | start | finish => exact h
    | call w e t op k r s' hw he => exact hexec w e op _ r s' he h
    | abandon w th hw => exact habandon w _ h

end System

/-! ## Contracts -/

/-- What a proof about all runs needs to know of the system.

    * `inv` holds of the shared state at all times;
    * `rely w` is what the other threads may do while `w` runs, `guar w` what `w` itself does;
    * `idle w` is what `w` leaves behind between tasks;
    * `post w t r` is known once `w` ended `t` with `r`, and stays true;
    * `evolve` is a preorder that contains every guarantee. -/
structure Contract (S : System W E Op Task Res σ Reply) where
  inv : σ → Prop
  rely : W → σ → σ → Prop
  guar : W → σ → σ → Prop
  idle : W → σ → Prop
  post : W → Task → Res → σ → Prop
  evolve : σ → σ → Prop
  rely_refl : ∀ w s, rely w s s
  rely_trans : ∀ w {s s' s''}, rely w s s' → rely w s' s'' → rely w s s''
  guar_rely : ∀ {v w s s'}, v ≠ w → guar v s s' → rely w s s'
  idle_stable : ∀ {w s s'}, idle w s → rely w s s' → idle w s'
  post_stable : ∀ {w t r s s'}, post w t r s → evolve s s' → post w t r s'
  evolve_refl : ∀ s, evolve s s
  evolve_trans : ∀ {s s' s''}, evolve s s' → evolve s' s'' → evolve s s''
  guar_evolve : ∀ {w s s'}, guar w s s' → evolve s s'
  guar_inv : ∀ {w s s'}, guar w s s' → inv s'
  abandon : ∀ w s, inv s → guar w s (S.abandon w s) ∧ idle w (S.abandon w s)
  safe : ∀ w t s, inv s → idle w s →
    Safe (S.exec w) (fun s s' => inv s' ∧ rely w s s') (guar w)
      (fun r s => idle w s ∧ post w t r s) (S.prog t) s

namespace Contract

variable {S : System W E Op Task Res σ Reply} (C : Contract S)

def Seen (w : W) (s s' : σ) : Prop := C.inv s' ∧ C.rely w s s'

def ThreadOk (w : W) (s : σ) : Option (Thread Op Task Res Reply) → Prop
  | none => C.idle w s
  | some th => ∀ s', C.Seen w s s' → Safe (S.exec w) (C.Seen w) (C.guar w)
      (fun r s => C.idle w s ∧ C.post w th.task r s) th.prog s'

structure Inv (c : Config W Op Task Res σ Reply) : Prop where
  shared : C.inv c.shared
  threads : ∀ w, C.ThreadOk w c.shared (c.threads w)
  done : ∀ f ∈ c.done, C.post f.thread f.task f.result c.shared

variable {w : W} {s s' : σ}

theorem seen_trans {s'' : σ} (h : C.rely w s s') (h' : C.Seen w s' s'') : C.Seen w s s'' :=
  ⟨h'.1, C.rely_trans w h h'.2⟩

theorem threadOk_rely (h : C.ThreadOk w s th) (hr : C.rely w s s') : C.ThreadOk w s' th := by
  cases th with
  | none => exact C.idle_stable h hr
  | some th => exact fun s'' hr' => h s'' (C.seen_trans hr hr')

theorem inv_initial (hinv : C.inv s) (h : ∀ w, C.idle w s) :
    C.Inv (Config.initial s : Config W Op Task Res σ Reply) :=
  ⟨hinv, h, List.forall_mem_nil _⟩

variable [DecidableEq W]

theorem threads_set (h : C.Inv c) (hothers : ∀ v, v ≠ w → C.rely v c.shared s')
    (hth : C.ThreadOk w s' th) (v : W) : C.ThreadOk v s' ((c.set s' w th).threads v) :=
  Config.forall_threads_set (P := fun v => C.ThreadOk v s') hth
    (fun v hv => C.threadOk_rely (h.threads v) (hothers v hv)) v

theorem inv_set (h : C.Inv c) (hg : C.guar w c.shared s') (hth : C.ThreadOk w s' th) :
    C.Inv (c.set s' w th) where
  shared := C.guar_inv hg
  threads := C.threads_set h (fun _ hv => C.guar_rely (Ne.symm hv) hg) hth
  done f hf := C.post_stable (h.done f hf) (C.guar_evolve hg)

variable {c' : Config W Op Task Res σ Reply}

theorem inv_act (h : C.Inv c) (ha : S.Acts c a c') : C.Inv c' ∧ C.evolve c.shared c'.shared := by
  have hself : ∀ v, C.Seen v c.shared c.shared := fun v => ⟨h.shared, C.rely_refl v _⟩
  cases ha with
  | start w t hw =>
    have hidle : C.ThreadOk w c.shared none := hw ▸ h.threads w
    refine ⟨⟨h.shared, C.threads_set h (fun v _ => C.rely_refl v _) ?_, h.done⟩, C.evolve_refl _⟩
    exact fun s' hs => C.safe w t s' hs.1 (C.idle_stable hidle hs.2)
  | finish w e t r hw =>
    have hth : C.ThreadOk w c.shared (some ⟨t, .ret r⟩) := hw ▸ h.threads w
    obtain ⟨hidle, hpost⟩ := hth c.shared (hself w)
    have hset := C.threads_set h (fun v _ => C.rely_refl v _)
      (show C.ThreadOk w c.shared none from hidle)
    refine ⟨⟨h.shared, hset, ?_⟩, C.evolve_refl _⟩
    exact List.forall_mem_append.mpr ⟨h.done, List.forall_mem_singleton.mpr hpost⟩
  | call w e t op k r s' hw he =>
    have hth : C.ThreadOk w c.shared (some ⟨t, .call op k⟩) := hw ▸ h.threads w
    obtain ⟨hg, hk⟩ := hth c.shared (hself w) e r s' he
    exact ⟨C.inv_set h hg hk, C.guar_evolve hg⟩
  | abandon w th hw =>
    obtain ⟨hg, hidle⟩ := C.abandon w c.shared h.shared
    exact ⟨C.inv_set h hg hidle, C.guar_evolve hg⟩

theorem run_inv (h : C.Inv c) (hrun : S.run c as = some c') :
    C.Inv c' ∧ C.evolve c.shared c'.shared := by
  induction as generalizing c with
  | nil =>
    cases hrun
    exact ⟨h, C.evolve_refl _⟩
  | cons a as ih =>
    obtain ⟨d, hact, hrest⟩ := S.run_cons hrun
    obtain ⟨hd, hev⟩ := C.inv_act h hact
    obtain ⟨hinv, hev'⟩ := ih hd hrest
    exact ⟨hinv, C.evolve_trans hev hev'⟩

/-! ### Tasks started under a stable condition -/

section Owned

/-- Thread `w` owns the observable `o`: under the condition `P`, which the others keep, the tasks
    in `A` leave `o` alone and end in `Q`. -/
structure Owns {γ : Type} (w : W) (P : σ → Prop) (A : Task → Prop) (o : σ → γ) (Q : Task → Res → Prop) :
    Prop where
  stable : ∀ {s s'}, P s → C.evolve s s' → P s'
  stable_rely : ∀ {s s'}, P s → C.rely w s s' → P s'
  others : ∀ {v s s'}, v ≠ w → C.guar v s s' → o s' = o s
  abandon : ∀ s, o (S.abandon w s) = o s
  safe : ∀ t, A t → ∀ s, P s →
    Safe (S.exec w) (C.Seen w) (fun s s' => o s' = o s) (fun r _ => Q t r) (S.prog t) s

variable {γ : Type} {w : W} {P : σ → Prop} {A : Task → Prop} {o : σ → γ} {Q : Task → Res → Prop}

def OwnedOk (w : W) (o : σ → γ) (Q : Task → Res → Prop) (s : σ) : Option (Thread Op Task Res Reply) → Prop
  | none => True
  | some th => ∀ s', C.Seen w s s' →
      Safe (S.exec w) (C.Seen w) (fun s s' => o s' = o s) (fun r _ => Q th.task r) th.prog s'

omit [DecidableEq W] in
theorem ownedOk_rely (h : C.OwnedOk w o Q s th) (hr : C.rely w s s') : C.OwnedOk w o Q s' th := by
  cases th with
  | none => trivial
  | some th => exact fun s'' hr' => h s'' (C.seen_trans hr hr')

theorem ownedOk_set {v : W} (hok : C.OwnedOk w o Q c.shared (c.threads w))
    (hother : v ≠ w → C.rely w c.shared s') (hself : v = w → C.OwnedOk w o Q s' th) :
    C.OwnedOk w o Q s' ((c.set s' v th).threads w) := by
  by_cases hv : v = w
  · subst hv
    rw [Config.set_threads_self]
    exact hself rfl
  · rw [Config.set_threads_ne s' (Ne.symm hv)]
    exact C.ownedOk_rely hok (hother hv)

/-- The tasks that `c'` has finished since `c`, as far as `w` ran them, ended in `Q`. -/
def EndedIn (w : W) (Q : Task → Res → Prop) (c c' : Config W Op Task Res σ Reply) : Prop :=
  ∃ new, c'.done = c.done ++ new ∧ ∀ f ∈ new, f.thread = w → Q f.task f.result

omit [DecidableEq W] in
theorem endedIn_of_done (h : c'.done = c.done) : EndedIn w Q c c' :=
  ⟨[], by rw [h, List.append_nil], List.forall_mem_nil _⟩

omit [DecidableEq W] in
theorem EndedIn.trans {c'' : Config W Op Task Res σ Reply} (h : EndedIn w Q c c')
    (h' : EndedIn w Q c' c'') : EndedIn w Q c c'' := by
  obtain ⟨new, hdone, hnew⟩ := h
  obtain ⟨new', hdone', hnew'⟩ := h'
  refine ⟨new ++ new', by rw [hdone', hdone, List.append_assoc], ?_⟩
  exact List.forall_mem_append.mpr ⟨hnew, hnew'⟩

variable (hown : C.Owns w P A o Q) (hinv : C.Inv c) (hP : P c.shared)
  (hok : C.OwnedOk w o Q c.shared (c.threads w))

include hown hinv hP hok

theorem owned_act (htask : ∀ t, a = .start w t → A t) (ha : S.Acts c a c') :
    C.OwnedOk w o Q c'.shared (c'.threads w) ∧ o c'.shared = o c.shared ∧ EndedIn w Q c c' := by
  have hself : ∀ v, C.Seen v c.shared c.shared := fun v => ⟨hinv.shared, C.rely_refl v _⟩
  cases ha with
  | start v t hv =>
    refine ⟨C.ownedOk_set hok (fun _ => C.rely_refl w _) ?_, rfl, endedIn_of_done rfl⟩
    rintro rfl s' hr
    exact hown.safe t (htask t rfl) s' (hown.stable_rely hP hr.2)
  | finish v e t r hv =>
    refine ⟨C.ownedOk_set hok (fun _ => C.rely_refl w _) (fun _ => trivial), rfl,
      [⟨v, t, r⟩], rfl, ?_⟩
    intro f hf hfw
    rw [List.mem_singleton.mp hf] at hfw ⊢
    subst hfw
    rw [hv] at hok
    exact hok c.shared (hself _)
  | call v e t op k r s' hv he =>
    have hth := hinv.threads v
    rw [hv] at hth
    obtain ⟨hg, -⟩ := hth c.shared (hself v) e r s' he
    -- what `w` does itself it was safe to do; a step of another thread leaves `o` alone
    have hown' : v = w → o s' = o c.shared ∧ C.OwnedOk w o Q s' (some ⟨t, k r⟩) := by
      rintro rfl
      rw [hv] at hok
      exact hok c.shared (hself v) e r s' he
    refine ⟨C.ownedOk_set hok (fun hne => C.guar_rely hne hg) fun heq => (hown' heq).2, ?_,
      endedIn_of_done rfl⟩
    by_cases hvw : v = w
    · exact (hown' hvw).1
    · exact hown.others hvw hg
  | abandon v th hv =>
    have hg := (C.abandon v c.shared hinv.shared).1
    refine ⟨C.ownedOk_set hok (fun hne => C.guar_rely hne hg) (fun _ => trivial), ?_,
      endedIn_of_done rfl⟩
    by_cases hvw : v = w
    · subst hvw
      exact hown.abandon _
    · exact hown.others hvw hg

/-- A thread whose task was started under the condition, or that is idle when the condition holds,
    and that from then on only starts tasks in `A`, leaves the observable it owns alone, and all
    its tasks end in `Q`. -/
theorem run_owned (htasks : ∀ t, .start w t ∈ as → A t) (hrun : S.run c as = some c') :
    o c'.shared = o c.shared ∧ EndedIn w Q c c' := by
  induction as generalizing c with
  | nil =>
    cases hrun
    exact ⟨rfl, endedIn_of_done rfl⟩
  | cons a as ih =>
    obtain ⟨d, hact, hrest⟩ := S.run_cons hrun
    obtain ⟨hd, hev⟩ := C.inv_act hinv hact
    obtain ⟨hok', ho, hended⟩ := C.owned_act hown hinv hP hok
      (fun t ht => htasks t (ht ▸ List.mem_cons_self)) hact
    obtain ⟨ho', hended'⟩ := ih hd (hown.stable hP hev) hok'
      (fun t ht => htasks t (List.mem_cons_of_mem _ ht)) hrest
    exact ⟨ho'.trans ho, hended.trans hended'⟩

end Owned

end Contract

end Kipuka.Generic
