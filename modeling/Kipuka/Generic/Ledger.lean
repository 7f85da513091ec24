/-
  Counting calls in runs of threads.
-/
import Kipuka.Generic.History
import Kipuka.Generic.Threads
import Mathlib.Data.Finset.Card

namespace Kipuka.Generic

variable {W E Op Task Res σ : Type} {Reply : Op → Type}

structure Called (W E Op Task : Type) (Reply : Op → Type) where
  thread : W
  task : Task
  env : E
  op : Op
  reply : Reply op

variable {P : Op → Prop}

namespace System

variable (S : System W E Op Task Res σ Reply)

def called (c : Config W Op Task Res σ Reply) : Act W E Task → Option (Called W E Op Task Reply)
  | .step w e =>
    match c.threads w with
    | some ⟨t, .call op _⟩ => (S.exec w e op c.shared).map fun rs => ⟨w, t, e, op, rs.1⟩
    | _ => none
  | _ => none

variable {c : Config W Op Task Res σ Reply} {w : W} {e : E} {t : Task}

theorem called_call {op : Op} {k : Reply op → Prog Op Reply Res} {r : Reply op} {s' : σ}
    (h : c.threads w = some ⟨t, .call op k⟩) (he : S.exec w e op c.shared = some (r, s')) :
    S.called c (.step w e) = some ⟨w, t, e, op, r⟩ := by
  simp [called, h, he]

theorem called_ret {r : Res}
    (h : c.threads w = some ⟨t, .ret r⟩) : S.called c (.step w e) = none := by
  simp [called, h]

variable [DecidableEq W]

def history : Config W Op Task Res σ Reply → List (Act W E Task) → List (Called W E Op Task Reply)
  | _, [] => []
  | c, a :: as => (S.called c a).toList ++ (S.act c a).elim [] fun d => history d as

variable {A : Called W E Op Task Reply → Prop} {c' : Config W Op Task Res σ Reply}
  {as : List (Act W E Task)}

/-- Induction over a run with its history: `A` is assumed of its calls, `B` of its acts. -/
theorem run_induction {B : Act W E Task → Prop}
    {I : Config W Op Task Res σ Reply → List (Called W E Op Task Reply) → Prop}
    (hstep : ∀ {c a d h}, S.Acts c a d → (∀ x ∈ S.called c a, A x) → B a → I c h →
      I d (h ++ (S.called c a).toList))
    {h : List (Called W E Op Task Reply)} (hI : I c h) (hA : ∀ x ∈ S.history c as, A x)
    (hB : ∀ a ∈ as, B a) (hrun : S.run c as = some c') : I c' (h ++ S.history c as) := by
  induction as generalizing c h with
  | nil =>
    cases hrun
    rw [history, List.append_nil]
    exact hI
  | cons a as ih =>
    obtain ⟨d, hd, hrest⟩ := Option.bind_eq_some_iff.mp hrun
    have hhist : S.history c (a :: as) = (S.called c a).toList ++ S.history d as := by
      rw [history, hd]
      rfl
    rw [hhist] at hA ⊢
    rw [← List.append_assoc]
    refine ih (hstep (S.acts_of_act hd) ?_ (hB a List.mem_cons_self) hI) ?_ ?_ hrest
    · intro x hx
      exact hA x (List.mem_append_left _ (Option.mem_toList.mpr hx))
    · intro x hx
      exact hA x (List.mem_append_right _ hx)
    · intro b hb
      exact hB b (List.mem_cons_of_mem _ hb)

theorem run_shared {I : σ → List (Called W E Op Task Reply) → Prop}
    (hexec : ∀ {s s' h} (x : Called W E Op Task Reply),
      S.exec x.thread x.env x.op s = some (x.reply, s') → A x → I s h → I s' (h ++ [x]))
    (habandon : ∀ {w s h}, I s h → I (S.abandon w s) h)
    (hI : I c.shared []) (hA : ∀ x ∈ S.history c as, A x) (hrun : S.run c as = some c') :
    I c'.shared (S.history c as) := by
  refine S.run_induction (B := fun _ => True) (I := fun c h => I c.shared h) ?_ hI hA
    (fun _ _ => trivial) hrun
  intro c a d h hact hA _ hI
  cases hact with
  | start w t hw =>
    rw [called, Option.toList_none, List.append_nil]
    · exact hI
    · intros
      contradiction
  | finish w e t r hw =>
    rw [S.called_ret hw, Option.toList_none, List.append_nil]
    exact hI
  | call w e t op k r s' hw he =>
    rw [S.called_call hw he] at hA ⊢
    exact hexec ⟨w, t, e, op, r⟩ he (hA _ rfl) hI
  | abandon w th hw =>
    rw [called, Option.toList_none, List.append_nil]
    · exact habandon hI
    · intros
      contradiction

theorem run_calls {s : σ} (hstart : ∀ w t, .start w t ∈ as → Only P (S.prog t))
    (hrun : S.run (Config.initial s) as = some c) :
    ∀ x ∈ S.history (Config.initial s) as, P x.op := by
  have hinv := S.run_induction (A := fun _ => True)
    (B := fun a => ∀ w t, a = .start w t → Only P (S.prog t))
    (I := fun c h => (∀ w th, c.threads w = some th → Only P th.prog) ∧ ∀ x ∈ h, P x.op)
    ?_ (c := Config.initial s) (h := []) ?_ (fun _ _ => trivial) ?_ hrun
  · exact hinv.2
  · rintro c a d h hact - hB ⟨hthreads, hcalls⟩
    -- a thread keeps its program, or goes on with what is left of it
    have hset : ∀ (s' : σ) {w : W} {th : Option (Thread Op Task Res Reply)},
        (∀ th', th = some th' → Only P th'.prog) →
        ∀ v th', (c.set s' w th).threads v = some th' → Only P th'.prog :=
      fun s' _ _ hth => Config.forall_threads_set
        (P := fun _ th => ∀ th', th = some th' → Only P th'.prog) hth fun v _ => hthreads v
    cases hact with
    | start w t hw =>
      refine ⟨hset _ fun th' hth' => ?_, by simpa [called] using hcalls⟩
      rw [← Option.some.inj hth']
      exact hB w t rfl
    | finish w e t r hw =>
      have hnone : ∀ th', (none : Option (Thread Op Task Res Reply)) = some th' →
          Only P th'.prog := by
        intro th' hth'
        cases hth'
      refine ⟨hset c.shared hnone, ?_⟩
      rw [S.called_ret hw]
      simpa using hcalls
    | call w e t op k r s' hw he =>
      obtain ⟨hop, hk⟩ := hthreads w _ hw
      refine ⟨hset _ fun th' hth' => ?_, ?_⟩
      · rw [← Option.some.inj hth']
        exact hk r
      · rw [S.called_call hw he]
        intro x hx
        rcases List.mem_append.mp hx with hx | hx
        · exact hcalls x hx
        · rw [List.mem_singleton.mp hx]
          exact hop
    | abandon w th hw =>
      refine ⟨hset _ ?_, by simpa [called] using hcalls⟩
      intro th' hth'
      cases hth'
  · refine ⟨?_, ?_⟩
    · intro w th hth
      cases hth
    · intro x hx
      cases hx
  · intro a ha w t heq
    exact hstart w t (heq ▸ ha)

end System

/-! ## Ledgers -/

/-- Which calls gain and which settle, and how to read off a program whether its thread owes. The
    replies of `fair` calls are the ones the programs are read under. -/
structure Ledger (S : System W E Op Task Res σ Reply) where
  gains : Called W E Op Task Reply → Bool
  settles : Called W E Op Task Reply → Bool
  good : Task → Res → Bool
  fair : Called W E Op Task Reply → Prop
  clean : Task → Prog Op Reply Res → Prop
  owes : Task → Prog Op Reply Res → Prop
  start : ∀ t, clean t (S.prog t)
  exclusive : ∀ {x}, gains x = true → settles x = false
  clean_gain : ∀ {x k}, fair x → clean x.task (.call x.op k) → gains x = true →
    owes x.task (k x.reply)
  clean_other : ∀ {x k}, fair x → clean x.task (.call x.op k) → gains x = false →
    clean x.task (k x.reply)
  owes_gain : ∀ {x k}, fair x → owes x.task (.call x.op k) → gains x = false
  owes_settle : ∀ {x k}, fair x → owes x.task (.call x.op k) → settles x = true →
    clean x.task (k x.reply)
  owes_other : ∀ {x k}, fair x → owes x.task (.call x.op k) → settles x = false →
    owes x.task (k x.reply)
  clean_ret : ∀ {t a}, clean t (.ret a) → good t a = false
  owes_ret : ∀ {t a}, owes t (.ret a) → good t a = true

namespace Ledger

variable {S : System W E Op Task Res σ Reply} (L : Ledger S)

def goods (done : List (Finished W Task Res)) : Nat := done.countP fun f => L.good f.task f.result

structure Balance (c : Config W Op Task Res σ Reply) (h : List (Called W E Op Task Reply))
    (owing : Finset W) (surplus lost : Nat) : Prop where
  owes : ∀ w ∈ owing, ∃ th, c.threads w = some th ∧ L.owes th.task th.prog
  clean : ∀ w ∉ owing, ∀ th, c.threads w = some th → L.clean th.task th.prog
  sum : h.countP L.gains + surplus = h.countP L.settles + L.goods c.done + owing.card + lost
  surplus_le : surplus ≤ h.countP L.settles

variable {L} [DecidableEq W] {c : Config W Op Task Res σ Reply} {h : List (Called W E Op Task Reply)}
  {owing : Finset W} {surplus lost : Nat}

theorem Balance.others (hb : L.Balance c h owing surplus lost) (w : W) (s' : σ)
    (th : Option (Thread Op Task Res Reply)) (owing' : Finset W)
    (hsame : ∀ v, v ≠ w → (v ∈ owing' ↔ v ∈ owing))
    (howes : w ∈ owing' → ∃ th', th = some th' ∧ L.owes th'.task th'.prog)
    (hclean : w ∉ owing' → ∀ th', th = some th' → L.clean th'.task th'.prog) :
    (∀ v ∈ owing', ∃ th', (c.set s' w th).threads v = some th' ∧ L.owes th'.task th'.prog) ∧
      ∀ v ∉ owing', ∀ th', (c.set s' w th).threads v = some th' → L.clean th'.task th'.prog := by
  constructor
  · exact Config.forall_threads_set (P := fun v th => v ∈ owing' →
        ∃ th', th = some th' ∧ L.owes th'.task th'.prog) howes
      fun v hvw hv => hb.owes v ((hsame v hvw).mp hv)
  · exact Config.forall_threads_set (P := fun v th => v ∉ owing' →
        ∀ th', th = some th' → L.clean th'.task th'.prog) hclean
      fun v hvw hv => hb.clean v fun hmem => hv ((hsame v hvw).mpr hmem)

variable {v w : W}

theorem mem_erase_of_ne (h : v ≠ w) : v ∈ owing.erase w ↔ v ∈ owing := by
  simp [h]

theorem mem_insert_of_ne (h : v ≠ w) : v ∈ insert w owing ↔ v ∈ owing := by
  simp [h]

variable {x : Called W E Op Task Reply}

section

variable (hb : L.Balance c h owing surplus lost)

include hb

theorem Balance.record {th : Thread Op Task Res Reply} (s' : σ) {owing' : Finset W} {surplus' : Nat}
    (hsame : ∀ v, v ≠ x.thread → (v ∈ owing' ↔ v ∈ owing))
    (howes : x.thread ∈ owing' → L.owes th.task th.prog)
    (hclean : x.thread ∉ owing' → L.clean th.task th.prog)
    (hsum : (if L.gains x then 1 else 0) + owing.card + surplus' =
      (if L.settles x then 1 else 0) + owing'.card + surplus)
    (hle : surplus' ≤ surplus + if L.settles x then 1 else 0) :
    L.Balance (c.set s' x.thread (some th)) (h ++ [x]) owing' surplus' lost := by
  obtain ⟨h1, h2⟩ := hb.others x.thread s' (some th) owing' hsame (fun hmem => ⟨th, rfl, howes hmem⟩)
    fun hmem th' hth' => Option.some.inj hth' ▸ hclean hmem
  have hbooks := hb.sum
  have hsurplus := hb.surplus_le
  refine ⟨h1, h2, ?_, ?_⟩
  · rw [List.countP_append, List.countP_append, List.countP_singleton, List.countP_singleton]
    show _ = _ + L.goods c.done + _ + _
    omega
  · rw [List.countP_append, List.countP_singleton]
    omega

theorem Balance.call {k : Reply x.op → Prog Op Reply Res} (s' : σ)
    (hw : c.threads x.thread = some ⟨x.task, .call x.op k⟩) (hfair : L.fair x) :
    ∃ owing' surplus', L.Balance (c.set s' x.thread (some ⟨x.task, k x.reply⟩)) (h ++ [x]) owing'
      surplus' lost := by
  by_cases howing : x.thread ∈ owing
  · obtain ⟨th, hth, howes⟩ := hb.owes _ howing
    rw [hw] at hth
    cases hth
    have hgain := L.owes_gain hfair howes
    cases hsettle : L.settles x with
    | true =>
      have hcard := Finset.card_erase_add_one howing
      refine ⟨owing.erase x.thread, surplus, hb.record s' (fun v hv => mem_erase_of_ne hv)
        (fun hmem => absurd hmem (Finset.notMem_erase _ _))
        (fun _ => L.owes_settle hfair howes hsettle) ?_ ?_⟩
      · simp only [hgain, hsettle, if_true, Bool.false_eq_true, if_false]
        omega
      · omega
    | false =>
      refine ⟨owing, surplus, hb.record s' (fun v _ => Iff.rfl)
        (fun _ => L.owes_other hfair howes hsettle) (fun hmem => absurd howing hmem) ?_ ?_⟩
      · rw [hgain, hsettle]
      · omega
  · have hclean := hb.clean _ howing _ hw
    cases hgain : L.gains x with
    | true =>
      have hsettle := L.exclusive hgain
      have hcard := Finset.card_insert_of_notMem howing
      refine ⟨insert x.thread owing, surplus, hb.record s' (fun v hv => mem_insert_of_ne hv)
        (fun _ => L.clean_gain hfair hclean hgain)
        (fun hmem => absurd (Finset.mem_insert_self _ _) hmem) ?_ ?_⟩
      · simp only [hgain, hsettle, if_true, Bool.false_eq_true, if_false]
        omega
      · omega
    | false =>
      have hrest := L.clean_other hfair hclean hgain
      cases hsettle : L.settles x with
      | true =>
        -- settled without owing
        refine ⟨owing, surplus + 1, hb.record s' (fun v _ => Iff.rfl)
          (fun hmem => absurd hmem howing) (fun _ => hrest) ?_ ?_⟩
        · simp only [hgain, hsettle, if_true, Bool.false_eq_true, if_false]
          omega
        · rw [hsettle, if_pos rfl]
      | false =>
        refine ⟨owing, surplus, hb.record s' (fun v _ => Iff.rfl)
          (fun hmem => absurd hmem howing) (fun _ => hrest) ?_ ?_⟩
        · rw [hgain, hsettle]
        · omega

theorem Balance.finish {t : Task} {r : Res} (hw : c.threads w = some ⟨t, .ret r⟩) :
    L.Balance (c.finish w t r) h (owing.erase w) surplus lost := by
  obtain ⟨h1, h2⟩ := hb.others w c.shared none (owing.erase w)
    (fun v hv => mem_erase_of_ne hv)
    (fun hmem => absurd hmem (Finset.notMem_erase _ _)) (fun _ th' hth' => by cases hth')
  refine ⟨h1, h2, ?_, hb.surplus_le⟩
  have hsum := hb.sum
  have hgoods : L.goods (c.finish w t r).done = L.goods c.done + if L.good t r = true then 1 else 0 := by
    simp [goods, Config.finish, List.countP_append, List.countP_singleton]
  rw [hgoods]
  by_cases howing : w ∈ owing
  · obtain ⟨th, hth, howes⟩ := hb.owes _ howing
    rw [hw] at hth
    cases hth
    have hcard := Finset.card_erase_add_one howing
    rw [if_pos (L.owes_ret howes)]
    omega
  · rw [if_neg (by rw [L.clean_ret (hb.clean _ howing _ hw)]; exact Bool.false_ne_true),
      Finset.erase_eq_of_notMem howing]
    omega

end

theorem balance (L : Ledger S) {s : σ} {as : List (Act W E Task)}
    (hfair : ∀ x ∈ S.history (Config.initial s) as, L.fair x)
    (hrun : S.run (Config.initial s) as = some c) :
    ∃ owing surplus lost, L.Balance c (S.history (Config.initial s) as) owing surplus lost ∧
      ((∀ w, .abandon w ∉ as) → lost = 0) := by
  let strict : Prop := ∀ w, .abandon w ∉ as
  refine S.run_induction (A := L.fair) (B := fun a => strict → ∀ w, a ≠ .abandon w)
    (I := fun c h => ∃ owing surplus lost, L.Balance c h owing surplus lost ∧ (strict → lost = 0))
    ?_ (c := Config.initial s) (h := []) ?_ hfair ?_ hrun
  · rintro c a d h hact hA hB ⟨owing, surplus, lost, hb, hlost⟩
    cases hact with
    | start w t hw =>
      have hnot : w ∉ owing := by
        intro hmem
        obtain ⟨th, hth, -⟩ := hb.owes w hmem
        rw [hw] at hth
        cases hth
      obtain ⟨h1, h2⟩ := hb.others w c.shared (some ⟨t, S.prog t⟩) owing (fun v _ => Iff.rfl)
        (fun hmem => absurd hmem hnot) (fun _ th' hth' => Option.some.inj hth' ▸ L.start t)
      have hnone : S.called c (.start w t) = none := rfl
      rw [hnone, Option.toList_none, List.append_nil]
      exact ⟨owing, surplus, lost, ⟨h1, h2, hb.sum, hb.surplus_le⟩, hlost⟩
    | finish w e t r hw =>
      rw [S.called_ret hw, Option.toList_none, List.append_nil]
      exact ⟨owing.erase w, surplus, lost, hb.finish hw, hlost⟩
    | call w e t op k r s' hw he =>
      have hcalled := S.called_call hw he
      rw [hcalled] at hA ⊢
      obtain ⟨owing', surplus', hb'⟩ := hb.call (x := ⟨w, t, e, op, r⟩) (k := k) s' hw
        (hA _ rfl)
      exact ⟨owing', surplus', lost, hb', hlost⟩
    | abandon w th hw =>
      have hnone : S.called c (.abandon w) = none := rfl
      rw [hnone, Option.toList_none, List.append_nil]
      obtain ⟨h1, h2⟩ := hb.others w (S.abandon w c.shared) none (owing.erase w)
        (fun v hv => mem_erase_of_ne hv) (fun hmem => absurd hmem (Finset.notMem_erase _ _))
        (fun _ th' hth' => by cases hth')
      refine ⟨owing.erase w, surplus, lost + (owing.card - (owing.erase w).card), ⟨h1, h2, ?_,
        hb.surplus_le⟩, fun hstrict => absurd rfl (hB hstrict w)⟩
      have hsum := hb.sum
      have hcard := Finset.card_erase_le (a := w) (s := owing)
      simp only [Config.set, goods] at hsum ⊢
      omega
  · refine ⟨∅, 0, 0, ⟨?_, ?_, rfl, Nat.zero_le _⟩, fun _ => rfl⟩
    · exact fun w hw => absurd hw (Finset.notMem_empty w)
    · intro w _ th hth
      cases hth
  · rintro a ha hstrict w rfl
    exact hstrict w ha

end Ledger

end Kipuka.Generic
