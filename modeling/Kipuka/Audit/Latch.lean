/-
  A halted process (FAU_STG.4).
-/
import Kipuka.Audit.Contract

namespace Kipuka.Audit

open Generic

variable {W P : Type} [DecidableEq W] [DecidableEq P]

def commitsBy (w : W) (s : World W P) : List (Commit W) := s.history.filter (·.writer = w)

/-- The process of a writer has its halt flag set. -/
def Halted (p : W → P) (w : W) (s : World W P) : Prop := (s.procs (p w)).halted = true

instance (p : W → P) (w : W) (s : World W P) : Decidable (Halted p w s) :=
  inferInstanceAs (Decidable ((s.procs (p w)).halted = true))

def Task.audits : Task → Bool
  | .record _ => true
  | .recordChecked _ => true
  | .issuance parts => parts.any fun
    | .event _ _ => true
    | .statement _ => false

def Task.reports : Task → Bool
  | .record _ => false
  | .recordChecked _ => true
  | .issuance _ => true

variable {p : W → P} {w : W} {H : Hashes} {st : AuditState}

def Quiet (s s' : World W P) : Prop := s'.history = s.history ∧ HaltedStays s s'

structure Local (w : W) (s s' : World W P) : Prop where
  quiet : Quiet s s'
  tx : ∀ v, v ≠ w → s'.tx v = s.tx v

section

variable (w : W) (s : World W P)

omit [DecidableEq W] [DecidableEq P] in
theorem Local.refl : Local w s s :=
  ⟨⟨rfl, HaltedStays.refl s⟩, fun _ _ => rfl⟩

omit [DecidableEq P] in
theorem Local.setTx (tx : Option Tx) : Local w s (s.setTx w tx) :=
  ⟨⟨rfl, HaltedStays.refl s⟩, fun _ hv => Function.update_of_ne hv ..⟩

omit [DecidableEq W] in
theorem Local.setProc (q : P) (f : Proc W → Proc W)
    (hf : (s.procs q).halted = true → (f (s.procs q)).halted = true) : Local w s (s.setProc q f) :=
  ⟨⟨rfl, haltedStays_setProc s q f hf⟩, fun _ _ => rfl⟩

end

variable {e : Env} {α : Type} {s s' : World W P} {r : Except String α}

omit [DecidableEq W] [DecidableEq P] in
theorem local_stmt {effect : Option (α × World W P)}
    (heffect : ∀ a s', effect = some (a, s') → Local w s s')
    (h : stmt e s effect = some (r, s')) : Local w s s' := by
  rcases stmt_cases h with ⟨_, _, rfl⟩ | ⟨a, _, ha⟩
  · exact Local.refl w _
  · exact heffect a s' ha

omit [DecidableEq W] [DecidableEq P] in
theorem local_query {a : α} (h : stmt e s (some (a, s)) = some (r, s')) : Local w s s' := by
  refine local_stmt (fun _ _ ha => ?_) h
  cases ha
  exact Local.refl w s

omit [DecidableEq P] in
theorem local_addChange {c : Change} {a : Unit}
    (h : addChange s w c = some (a, s')) : Local w s s' := by
  obtain ⟨tx, _, heq⟩ := Option.map_eq_some_iff.mp h
  cases heq
  exact Local.setTx w s _

variable {o : Op} {r : Reply o}

theorem local_exec (ho : o ≠ .commit) (h : exec p w e o s = some (r, s')) : Local w s s' := by
  cases o with
  | isHalted | now =>
    cases h
    exact Local.refl w s
  | setHalted =>
    cases h
    exact Local.setProc w s _ _ (fun _ => rfl)
  | recordViolation | resetViolations | unlockWrites =>
    cases h
    exact Local.setProc w s _ _ (fun hq => hq)
  | lockWrites =>
    simp only [exec] at h
    split at h
    · cases h
      exact Local.setProc w s _ _ (fun hq => hq)
    · cases h
  | emitSyslogAlarm | countRows | oldestIds | chainTail => exact local_query h
  | begin =>
    refine local_stmt (fun _ _ ha => ?_) h
    cases ha
    exact Local.setTx w s _
  | updateWriterLock =>
    refine local_stmt (fun _ _ ha => ?_) h
    split at ha
    · cases ha
      exact ⟨⟨rfl, HaltedStays.refl s⟩, fun _ _ => rfl⟩
    · cases ha
  | deleteRow id => exact local_stmt (fun _ _ ha => local_addChange ha) h
  | insertRow row =>
    refine local_stmt (fun _ _ ha => ?_) h
    split at ha
    · exact local_addChange ha
    · cases ha
  | otherWrite sql =>
    refine local_stmt (fun _ _ ha => ?_) h
    obtain ⟨tx, _, heq⟩ := Option.map_eq_some_iff.mp ha
    cases heq
    exact Local.setTx w s _
  | commit => exact absurd rfl ho
  | rollback =>
    cases h
    exact ⟨⟨rfl, HaltedStays.refl s⟩, fun _ hv => Function.update_of_ne hv ..⟩

theorem quiet_exec (ho : o ≠ .commit) (h : exec p w e o s = some (r, s')) : Quiet s s' :=
  (local_exec ho h).quiet

theorem haltedStays_exec (h : exec p w e o s = some (r, s')) : HaltedStays s s' := by
  by_cases ho : o = .commit
  · subst ho
    obtain ⟨tx, -, rfl | ⟨-, rfl⟩⟩ := commit_cases h
    · exact HaltedStays.refl s
    · exact HaltedStays.refl s
  · exact (quiet_exec ho h).2

theorem history_exec (h : exec p w e o s = some (r, s')) :
    ∃ new, s'.history = s.history ++ new ∧ ∀ c ∈ new, c.writer = w := by
  have hsame : s'.history = s.history →
      ∃ new, s'.history = s.history ++ new ∧ ∀ c ∈ new, c.writer = w :=
    fun heq => ⟨[], by rw [heq, List.append_nil], List.forall_mem_nil _⟩
  by_cases ho : o = .commit
  · subst ho
    obtain ⟨tx, -, rfl | ⟨-, rfl⟩⟩ := commit_cases h
    · exact ⟨_, rfl, List.forall_mem_singleton.mpr rfl⟩
    · exact hsame rfl
  · exact hsame (quiet_exec ho h).1

theorem tx_exec {v : W} (hv : v ≠ w) (h : exec p w e o s = some (r, s')) : s'.tx v = s.tx v := by
  by_cases ho : o = .commit
  · subst ho
    obtain ⟨tx, -, rfl | ⟨-, rfl⟩⟩ := commit_cases h
    · exact Function.update_of_ne hv ..
    · exact Function.update_of_ne hv ..
  · exact (local_exec ho h).tx v hv

/-! ## Programs with the admission check ahead -/

def HaltedReply : (o : Op) → Reply o → Prop
  | .isHalted, halted => halted = true
  | _, _ => True

/-- As long as the process answers "halted" the program commits nothing and ends in `bad`. -/
def Gated {α : Type} (bad : α → Prop) : Prog Op Reply α → Prop
  | .ret a => bad a
  | .call o k => o ≠ .commit ∧ ∀ r, HaltedReply o r → Gated bad (k r)

section Gated

variable {α β ε : Type} {bad : α → Prop} {x : Prog Op Reply α}

theorem gated_bind {bad' : β → Prop}
    {f : α → Prog Op Reply β} (hx : Gated bad x) (hf : ∀ a, bad a → Gated bad' (f a)) :
    Gated bad' (x >>= f) := by
  induction x with
  | ret a => exact hf a hx
  | call o k ih => exact ⟨hx.1, fun r hr => ih r (hx.2 r hr)⟩

theorem gated_mono {bad bad' : α → Prop} (hx : Gated bad x)
    (h : ∀ a, bad a → bad' a) : Gated bad' x := by
  induction x with
  | ret a => exact h a hx
  | call o k ih => exact ⟨hx.1, fun r hr => ih r (hx.2 r hr)⟩

theorem gated_op (ho : o ≠ .commit) : Gated (HaltedReply o) (ask o) :=
  ⟨ho, fun _ hr => hr⟩

def Failed (r : Except ε α) : Prop := ∃ e, r = .error e

variable {x : ExceptT ε (Prog Op Reply) α} {f : α → ExceptT ε (Prog Op Reply) β}

theorem gated_seq (hx : Gated Failed x.run) : Gated Failed (x >>= f).run := by
  refine gated_bind hx ?_
  rintro r ⟨e, rfl⟩
  exact ⟨e, rfl⟩

theorem gated_then (hx : Gated (fun _ => True) x.run)
    (hf : ∀ a, Gated Failed (f a).run) : Gated Failed (x >>= f).run := by
  refine gated_bind hx fun r _ => ?_
  cases r with
  | ok a => exact hf a
  | error e => exact ⟨e, rfl⟩

theorem gated_stmt {g : String → ε} {x : Prog Op Reply (Except String α)}
    (hx : Gated (fun _ => True) x) : Gated (fun _ => True) (Prog.mapErr g x).run :=
  gated_bind hx fun _ _ => trivial

theorem gated_mapErr {ε' : Type} {g : ε' → ε} {x : Prog Op Reply (Except ε' α)}
    (hx : Gated Failed x) : Gated Failed (Prog.mapErr g x).run := by
  refine gated_bind hx ?_
  rintro r ⟨e, rfl⟩
  exact ⟨g e, rfl⟩

theorem gated_inTransaction (hx : Gated Failed x.run) : Gated Failed (inTransaction x).run := by
  refine gated_bind hx ?_
  rintro r ⟨e, rfl⟩
  exact gated_bind (gated_op (by decide)) fun _ _ => ⟨e, rfl⟩

end Gated

theorem gated_admission : Gated Failed admission.run := by
  have hasked : Gated (fun r : Except KipukaError Bool => r = .ok true)
      (Prog.lift (ask .isHalted) : Fallible Bool).run :=
    gated_bind (gated_op (by decide)) fun halted (hhalted : halted = true) => by rw [hhalted]; rfl
  refine gated_bind hasked ?_
  rintro r rfl
  exact ⟨_, rfl⟩

theorem gated_writeEvent (event : AuditEvent) : Gated Failed (writeEvent H st event).run :=
  gated_seq gated_admission

theorem gated_recordInner (event : AuditEvent) : Gated Failed (recordInner H st event).run :=
  gated_seq gated_admission

theorem gated_latch (cfg : AuditConfig) {result : Except KipukaError Unit} (h : Failed result) :
    Gated Failed (latch cfg result).run := by
  obtain ⟨e, rfl⟩ := h
  unfold latch
  cases cfg.overflowPolicy with
  | dropOldest => exact ⟨e, rfl⟩
  | halt => exact gated_then (gated_bind (gated_op (by decide)) fun _ _ => trivial) fun _ => ⟨e, rfl⟩

theorem gated_recordChecked (event : AuditEvent) (henabled : st.config.enabled = true) :
    Gated Failed (recordChecked H st event).run := by
  unfold recordChecked
  rw [if_neg (by simp [henabled])]
  refine gated_bind (gated_op (by decide)) fun _ _ => ?_
  refine gated_bind (gated_recordInner event) fun result hresult => ?_
  refine gated_bind (gated_latch st.config hresult) fun result hresult => ?_
  exact gated_bind (gated_op (by decide)) fun _ _ => hresult

theorem gated_recordIssuance (caId detail : String) (henabled : st.config.enabled = true) :
    Gated Failed (recordIssuanceInTransaction H st caId detail).run := by
  unfold recordIssuanceInTransaction
  rw [if_neg (by simp [henabled])]
  exact gated_bind (gated_writeEvent _) fun result hresult => gated_latch st.config hresult

section

variable (parts : List Part) (henabled : st.config.enabled = true)
  (hparts : (Task.issuance parts).audits = true)

include henabled hparts

theorem gated_runParts : Gated Failed (runParts H st parts).run := by
  induction parts with
  | nil => exact absurd hparts (by decide)
  | cons part parts ih =>
    cases part with
    | statement sql =>
      exact gated_then (gated_stmt (gated_bind (gated_op (o := .otherWrite sql) (by simp))
        fun _ _ => trivial)) fun _ => ih hparts
    | event caId detail => exact gated_seq (gated_mapErr (gated_recordIssuance caId detail henabled))

theorem gated_issue : Gated Failed (issue H st parts).run :=
  gated_then (gated_stmt (gated_bind (gated_op (o := Op.begin) (by decide)) fun _ _ => trivial))
    fun _ => gated_seq (gated_inTransaction (gated_runParts parts henabled hparts))

end

def SeesError (t : Task) (r : Except Failure Unit) : Prop := t.reports = true → Failed r

theorem gated_task (t : Task) (henabled : st.config.enabled = true) (ht : t.audits = true) :
    Gated (SeesError t) (t.prog H st) := by
  cases t with
  | record event =>
    have hrecord : Gated (fun _ : Unit => True) (Audit.record H st event) :=
      gated_bind (gated_recordChecked event henabled) fun _ _ => trivial
    exact gated_bind hrecord fun _ _ hreports => Bool.noConfusion hreports
  | recordChecked event =>
    exact gated_mono (gated_mapErr (gated_recordChecked event henabled)) fun _ hr _ => hr
  | issuance parts => exact gated_mono (gated_issue parts henabled ht) fun _ hr _ => hr

/-! ## Halted processes in a run -/

theorem haltedReply_exec (h : Halted p w s) (he : exec p w e o s = some (r, s')) :
    HaltedReply o r := by
  cases o with
  | isHalted =>
    cases he
    exact h
  | _ => trivial

variable {bad : α → Prop} {x : Prog Op Reply α}

theorem safe_of_gated (hx : Gated bad x) (h : Halted p w s) :
    Safe (exec p w) (Rely w) (fun s s' => commitsBy w s' = commitsBy w s) (fun a _ => bad a) x s := by
  induction x generalizing s with
  | ret a => exact hx
  | call o k ih =>
    intro e r s' he
    obtain ⟨hhistory, hhalted⟩ := quiet_exec hx.1 he
    refine ⟨?_, fun s'' hr => ih r (hx.2 r (haltedReply_exec h he)) (hr.halted _ (hhalted _ h))⟩
    exact congrArg (List.filter (·.writer = w)) hhistory

theorem haltedOwns (H : Hashes) (p : W → P) (w : W) (henabled : st.config.enabled = true) :
    (auditContract H st p).Owns w (Halted p w) (fun t => t.audits = true) (commitsBy w) SeesError where
  stable := fun h hev => hev.halted _ h
  stable_rely := fun h hr => hr.halted _ h
  others := fun hv hg => hg.others _ (Ne.symm hv)
  abandon := fun _ => rfl
  safe := fun t ht _ hs => (safe_of_gated (gated_task t henabled ht) hs).rely fun _ _ hr => hr.2

end Kipuka.Audit
