/-
  Admission over whole runs of the server: requests of every kind, renewal cycles and audit writes,
  interleaved call by call. What a job may do depends on the standing of its thread; each route is
  shown to obey it, and the run lemmas lift that to the journal and to the audit table. The library,
  the hashes and all answers from outside are parameters.
-/
import Kipuka.Audit.Trail
import Kipuka.Auth.CmsBinding
import Kipuka.Ca.Names
import Kipuka.Enroll.Server
import Kipuka.Generic.Machine
import Kipuka.Keygen.Archive
import Kipuka.Star.Refine

namespace Kipuka.Enroll

open Generic
open Audit (AuditEvent AuditEventType AuditRow AuditState HaltedStays Hashes Halted)

/-! ## Where a job stands -/

def isRequestRow (row : AuditRow) : Bool := row.eventType = AuditEventType.enrollRequest.asStr

inductive Phase where
  | idle
  | entered (job : Job)
  | writing (job : Job)
  | admitted (job : Job)

def Phase.next : Phase → Entry → Phase
  | _, .entered job => .entered job
  | .admitted job, _ => .admitted job
  | .entered job, .writes false => .writing job
  | .writing job, .committed rows => if rows.any isRequestRow then .admitted job else .idle
  | _, _ => .idle

def phaseOf (journal : List Entry) : Phase := journal.foldl Phase.next .idle

theorem phaseOf_concat (journal : List Entry) (entry : Entry) :
    phaseOf (journal ++ [entry]) = (phaseOf journal).next entry := by
  rw [phaseOf, List.foldl_concat]
  rfl

/-- The job was taken up, its audit write began with the flag clear and committed `rows`, one of
    them of an enroll-request event, and no other job was taken up since. -/
def AdmittedWith (job : Job) (rows : List AuditRow) (journal : List Entry) : Prop :=
  ∃ earlier later,
    journal = earlier ++ .entered job :: .writes false :: .committed rows :: later ∧
    (∃ row ∈ rows, row.eventType = AuditEventType.enrollRequest.asStr) ∧
    ∀ job', Entry.entered job' ∉ later

def Phase.Means (journal : List Entry) : Phase → Prop
  | .idle => True
  | .entered job => ∃ earlier, journal = earlier ++ [.entered job]
  | .writing job => ∃ earlier, journal = earlier ++ [.entered job, .writes false]
  | .admitted job => ∃ rows, AdmittedWith job rows journal

variable {job : Job} {journal : List Entry} {entry : Entry}

theorem AdmittedWith.concat {rows : List AuditRow}
    (h : AdmittedWith job rows journal) (hentry : ∀ job', entry ≠ .entered job') :
    AdmittedWith job rows (journal ++ [entry]) := by
  obtain ⟨earlier, later, rfl, hrow, hlater⟩ := h
  refine ⟨earlier, later ++ [entry], by simp, hrow, ?_⟩
  intro job' hmem
  rcases List.mem_append.mp hmem with hmem | hmem
  · exact hlater job' hmem
  · exact hentry job' (List.mem_singleton.mp hmem).symm

theorem Phase.means_next {phase : Phase} (h : phase.Means journal)
    (entry : Entry) : (phase.next entry).Means (journal ++ [entry]) := by
  cases phase with
  | idle =>
    cases entry with
    | entered job => exact ⟨journal, rfl⟩
    | _ => trivial
  | entered job =>
    cases entry with
    | entered job' => exact ⟨journal, rfl⟩
    | writes halted =>
      cases halted with
      | true => trivial
      | false =>
        obtain ⟨earlier, rfl⟩ := h
        exact ⟨earlier, List.append_assoc ..⟩
    | _ => trivial
  | writing job =>
    cases entry with
    | entered job' => exact ⟨journal, rfl⟩
    | committed rows =>
      obtain ⟨earlier, rfl⟩ := h
      simp only [Phase.next]
      split
      · next hany =>
        obtain ⟨row, hrow, htype⟩ := List.any_eq_true.mp hany
        exact ⟨rows, earlier, [], List.append_assoc .., ⟨row, hrow, of_decide_eq_true htype⟩,
          fun _ => List.not_mem_nil⟩
      · trivial
    | _ => trivial
  | admitted job =>
    obtain ⟨rows, hadmitted⟩ := h
    cases entry with
    | entered job' => exact ⟨journal, rfl⟩
    | _ => exact ⟨rows, hadmitted.concat fun _ heq => Entry.noConfusion heq⟩

theorem phaseOf_means (journal : List Entry) : (phaseOf journal).Means journal := by
  induction journal using List.reverseRecOn with
  | nil => trivial
  | append_singleton journal entry ih =>
    rw [phaseOf_concat]
    exact Phase.means_next ih entry

theorem admittedWith_of_phaseOf
    (h : phaseOf journal = .admitted job) : ∃ rows, AdmittedWith job rows journal := by
  have hmeans := phaseOf_means journal
  rw [h] at hmeans
  exact hmeans

variable {later : List Entry}

theorem foldl_next_eq_self {phase : Phase}
    (hphase : ∀ entry, (∀ job, entry ≠ .entered job) → phase.next entry = phase)
    (h : ∀ job, Entry.entered job ∉ later) : later.foldl Phase.next phase = phase := by
  induction later with
  | nil => rfl
  | cons entry later ih =>
    rw [List.foldl_cons, hphase entry fun job heq => h job (heq ▸ List.mem_cons_self)]
    exact ih fun job hmem => h job (List.mem_cons_of_mem _ hmem)

theorem next_idle (entry : Entry) (h : ∀ job, entry ≠ .entered job) :
    Phase.next .idle entry = .idle := by
  cases entry with
  | entered job => exact absurd rfl (h job)
  | _ => rfl

theorem next_admitted (job : Job) (entry : Entry) (h : ∀ job', entry ≠ .entered job') :
    Phase.next (.admitted job) entry = .admitted job := by
  cases entry with
  | entered job' => exact absurd rfl (h job')
  | _ => rfl

theorem phaseOf_halted {before later : List Entry} (h : ∀ job', Entry.entered job' ∉ later) :
    phaseOf (before ++ .entered job :: .writes true :: later) = .idle := by
  rw [phaseOf, List.foldl_append]
  exact foldl_next_eq_self next_idle h

/-! ## Signatures -/

abbrev Signed (journal : List Entry) : Prop :=
  Throughout (fun before entry => ∀ call, entry = .signing call →
    ∃ job, phaseOf before = .admitted job) journal

/-! ## Rely and guarantee -/

section

variable {W P : Type} [DecidableEq W] [DecidableEq P]

structure Rely (w : W) (s s' : World W P) : Prop where
  tx : s'.audit.tx w = s.audit.tx w
  halted : HaltedStays s.audit s'.audit
  journal : s'.journal w = s.journal w

structure Guar (w : W) (s s' : World W P) : Prop where
  others : ∀ v, v ≠ w → Rely v s s'
  signed : Signed (s.journal w) → Signed (s'.journal w)

omit [DecidableEq P] in
theorem Rely.refl (w : W) (s : World W P) : Rely w s s := ⟨rfl, HaltedStays.refl _, rfl⟩

omit [DecidableEq P] in
theorem Rely.trans (w : W) {s s' s'' : World W P} (h : Rely w s s') (h' : Rely w s' s'') :
    Rely w s s'' :=
  ⟨h'.tx.trans h.tx, h.halted.trans h'.halted, h'.journal.trans h.journal⟩

def Evolve (s s' : World W P) : Prop := ∀ v, Signed (s.journal v) → Signed (s'.journal v)

variable {w : W} {s s' : World W P}

omit [DecidableEq P] in
theorem Guar.evolve (h : Guar w s s') : Evolve s s' := by
  intro v hv
  by_cases hvw : v = w
  · subst hvw
    exact h.signed hv
  · rw [(h.others v hvw).journal]
    exact hv

variable {p : W → P} {w : W} {s s' : World W P} {e : Env} {o : Step} {r : StepReply o}

theorem guar_exec (h : exec p w e o s = some (r, s'))
    (hsigns : o.signs = true → ∃ job, phaseOf (s.journal w) = .admitted job) : Guar w s s' := by
  obtain ⟨a, hact, rfl⟩ := exec_cases h
  obtain ⟨htx, hhalted⟩ := frame_act hact
  refine ⟨fun v hv => ⟨htx v hv, hhalted, s.journal_extend_of_ne hv a _⟩, fun hsigned => ?_⟩
  rw [World.journal_extend]
  cases ho : o.signs with
  | false =>
    refine hsigned.append fun entry hmem _ call heq => ?_
    subst heq
    exact absurd (ho.symm.trans (mem_entries hmem)) Bool.false_ne_true
  | true =>
    cases o with
    | enter | audit => cases ho
    | sign what => exact hsigned.concat fun _ _ => hsigns ho
    | outside o =>
      have hissues : o.issues = true := ho
      rw [entries, if_pos hissues]
      exact hsigned.concat fun _ _ => hsigns ho

/-! ## The audit trail -/

abbrev auditExec (p : W → P) (w : W) (e : Env) (o : Audit.Op) (s : World W P) :
    Option (Audit.Reply o × World W P) :=
  exec p w e (.audit o) s

abbrev AuditSafe {α : Type} (p : W → P) (w : W) (Q : α → World W P → Prop)
    (x : Prog Audit.Op Audit.Reply α) (s : World W P) : Prop :=
  Safe (auditExec p w) (Rely w) (Guar w) Q x s

variable {α : Type}

theorem safe_interp_auditOp {Q : α → World W P → Prop}
    {x : Prog Audit.Op Audit.Reply α} (h : AuditSafe p w Q x s) :
    Safe (exec p w) (Rely w) (Guar w) Q (x.interp auditOp) s := by
  refine safe_interp ?_ h
  intro o Q s hop
  exact hop

theorem guar_audit {o : Audit.Op} {r : Audit.Reply o}
    (h : auditExec p w e o s = some (r, s')) : Guar w s s' :=
  guar_exec h fun hsigns => Bool.noConfusion hsigns

def World.phase (s : World W P) (w : W) : Phase := phaseOf (s.journal w)

omit [DecidableEq P] in
theorem Rely.phase (h : Rely w s s') : s'.phase w = s.phase w :=
  congrArg phaseOf h.journal

def silent : Audit.Op → Bool
  | .lockWrites => false
  | .commit => false
  | _ => true

theorem phase_silent {o : Audit.Op} (ho : silent o = true) {r : Audit.Reply o}
    (h : auditExec p w e o s = some (r, s')) : s'.phase w = s.phase w := by
  obtain ⟨a, hact, rfl⟩ := exec_cases h
  have hne : o ≠ .commit := by
    rintro rfl
    cases ho
  have hhistory : a.history = s.audit.history := (Audit.quiet_exec hne hact).1
  have hnone : entries p w s.audit a (.audit o) = [] := by
    have hdrop : (a.history.drop s.audit.history.length).map
        (fun c => Entry.committed c.rows) = [] := by
      rw [hhistory, List.drop_length, List.map_nil]
    cases o with
    | lockWrites => cases ho
    | _ => exact hdrop
  rw [World.phase, World.journal_extend, hnone, List.append_nil]
  rfl

variable (p w) in
/-- The silent operations leave the job where it stands. -/
theorem steady_phase (phase : Phase) :
    Steady (auditExec p w) (Rely w) (Guar w) (silent · = true) (·.phase w = phase) where
  step _ _ _ _ _ ho h he := ⟨guar_audit he, (phase_silent ho he).trans h⟩
  rely _ _ h hr := hr.phase.trans h

/-- Between the begin of the write and its admission check: the flag was clear, or it is set. -/
def Begun (p : W → P) (w : W) (job : Job) (s : World W P) : Prop :=
  s.phase w = .writing job ∨ Halted p w s.audit

theorem safe_lockWrites (h : s.phase w = .entered job) :
    AuditSafe p w (fun _ => Begun p w job) (Audit.ask .lockWrites) s := by
  refine safe_op ?_
  intro e r s' he
  refine ⟨guar_audit he, fun s'' hr => ?_⟩
  obtain ⟨a, hact, rfl⟩ := exec_cases he
  cases hflag : (s.audit.procs (p w)).halted with
  | true => exact .inr (hr.halted _ ((frame_act hact).2 _ hflag))
  | false =>
    left
    have hentries : entries p w s.audit a (.audit .lockWrites) = [.writes false] := by
      rw [entries, hflag]
    have hphase : phaseOf (s.journal w) = .entered job := h
    rw [hr.phase, World.phase, World.journal_extend, hentries, phaseOf_concat, hphase]
    rfl

theorem safe_admission (h : Begun p w job s) :
    AuditSafe p w (Ends (fun _ s => s.phase w = .writing job) fun _ _ => True)
      Audit.admission.run s := by
  refine safe_ask (safe_op fun e halted s' he => ⟨guar_audit he, fun s'' hr => ?_⟩)
  have hphase := hr.phase.trans (phase_silent rfl he)
  obtain ⟨a, hact, -⟩ := exec_cases he
  cases hact
  rcases h with h | h
  · split
    · trivial
    · exact hphase.trans h
  · have hset : (s.audit.procs (p w)).halted = true := h
    rw [hset]
    trivial

def Inserted (w : W) (s : World W P) : Prop :=
  ∃ tx, s.audit.tx w = some tx ∧ tx.inserted.any isRequestRow = true

omit [DecidableEq P] in
theorem Inserted.rely (h : Inserted w s) (hr : Rely w s s') : Inserted w s' := by
  obtain ⟨tx, htx, hrow⟩ := h
  exact ⟨tx, hr.tx.trans htx, hrow⟩

theorem safe_insertRow {row : Audit.NewRow}
    (htype : row.eventType = AuditEventType.enrollRequest.asStr) {phase : Phase}
    (h : s.phase w = phase) :
    AuditSafe p w (Ends (fun _ s => s.phase w = phase ∧ Inserted w s) fun _ _ => True)
      (Audit.ask (.insertRow row)) s := by
  refine safe_op ?_
  intro e r s' he
  refine ⟨guar_audit he, fun s'' hr => ?_⟩
  have hphase : s''.phase w = phase := (hr.phase.trans (phase_silent rfl he)).trans h
  obtain ⟨a, hact, rfl⟩ := exec_cases he
  rcases Audit.stmt_cases hact with ⟨msg, rfl, -⟩ | ⟨u, rfl, heffect⟩
  · trivial
  · refine ⟨hphase, Inserted.rely ?_ hr⟩
    split at heffect
    · obtain ⟨tx, htx, heq⟩ := Option.map_eq_some_iff.mp heffect
      cases heq
      refine ⟨_, Function.update_self .., ?_⟩
      rw [Audit.Tx.inserted_add, List.any_append]
      refine Bool.or_eq_true_iff.mpr (.inr ?_)
      simp [Audit.Change.added, isRequestRow, Audit.NewRow.withId, htype]
    · cases heffect

variable {H : Hashes} {st : AuditState} {event : AuditEvent} {job : Job}

theorem safe_writeEvent (htype : event.eventType = .enrollRequest)
    (h : s.phase w = .writing job) :
    AuditSafe p w (Ends (fun _ s => s.phase w = .writing job ∧ Inserted w s) fun _ _ => True)
      (Audit.writeEvent H st event).run s := by
  unfold Audit.writeEvent
  refine safe_seq (safe_admission (.inl h)) ?_ fun _ _ h => h
  intro _ s h
  have hsteady := steady_phase p w (.writing job)
  have hlimit := Audit.only_enforceRowLimit (P := (silent · = true)) (fun _ => rfl) rfl
    (fun _ => rfl) st.config
  refine hsteady.attempt (only_op rfl) h (fun _ s h => ?_) fun _ _ _ => trivial
  refine hsteady.seq hlimit h (fun _ s h => ?_) fun _ _ _ => trivial
  refine hsteady.ask (only_op rfl) h fun timestamp s h => ?_
  refine hsteady.attempt (only_op rfl) h (fun tail s h => ?_) fun _ _ _ => trivial
  refine safe_mapErr ((safe_insertRow ?_ h).mono ?_)
  · show event.eventType.asStr = _
    rw [htype]
  · intro r s hr
    cases r with
    | ok _ => exact hr
    | error e => trivial

theorem safe_commit (h : s.phase w = .writing job) (hrow : Inserted w s) :
    AuditSafe p w (Ends (fun _ s => s.phase w = .admitted job) fun _ _ => True)
      (Audit.ask .commit) s := by
  refine safe_op ?_
  intro e r s' he
  refine ⟨guar_audit he, fun s'' hr => ?_⟩
  obtain ⟨a, hact, rfl⟩ := exec_cases he
  obtain ⟨tx, htx, heffect⟩ := Audit.commit_cases (p := p) hact
  rcases heffect with rfl | ⟨⟨msg, rfl⟩, -⟩
  · cases r with
    | error e => trivial
    | ok _ =>
      obtain ⟨tx', htx', hany⟩ := hrow
      obtain rfl : tx' = tx := Option.some.inj (htx'.symm.trans htx)
      have hentries : entries p w s.audit (s.audit.commit w tx') (.audit .commit) =
          [.committed tx'.inserted] := by
        show ((s.audit.history ++ [_]).drop _).map _ = _
        rw [List.drop_left]
        rfl
      have hphase : phaseOf (s.journal w) = .writing job := h
      show s''.phase w = .admitted job
      rw [hr.phase, World.phase, World.journal_extend, hentries, phaseOf_concat, hphase]
      exact if_pos hany
  · trivial

variable {ε : Type} {x : ExceptT ε (Prog Audit.Op Audit.Reply) α}

theorem safe_inTransaction
    {A : α → World W P → Prop} (h : AuditSafe p w (Ends A fun _ _ => True) x.run s) :
    AuditSafe p w (Ends A fun _ _ => True) (Audit.inTransaction x).run s := by
  refine safe_bind (h.mono ?_)
  intro r s hr
  cases r with
  | ok a => exact hr
  | error e => exact (steady_phase p w _).bind (only_op rfl) rfl fun _ _ _ => trivial

theorem safe_recordInner (htype : event.eventType = .enrollRequest) (h : Begun p w job s) :
    AuditSafe p w (Ends (fun _ s => s.phase w = .admitted job) fun _ _ => True)
      (Audit.recordInner H st event).run s := by
  unfold Audit.recordInner
  refine safe_seq (safe_admission h) ?_ fun _ _ h => h
  intro _ s h
  refine (steady_phase p w (.writing job)).attempt (only_op rfl) h (fun _ s h => ?_)
    fun _ _ _ => trivial
  refine safe_seq (safe_inTransaction (safe_writeEvent htype h)) ?_ fun _ _ h => h
  rintro _ s ⟨h, hrow⟩
  refine safe_try ((safe_commit h hrow).ends ?_ fun _ _ h => h)
  intro _ s h
  -- an enroll-request event counts no violation
  rw [htype]
  exact h

theorem safe_latch (cfg : Audit.AuditConfig) {result : Except KipukaError Unit}
    (h : Ends (fun _ s => s.phase w = .admitted job) (fun _ _ => True) result s) :
    AuditSafe p w (Ends (fun _ s => s.phase w = .admitted job) fun _ _ => True)
      (Audit.latch cfg result).run s := by
  unfold Audit.latch
  split
  · exact (steady_phase p w _).ask (only_op rfl) rfl fun _ _ _ => trivial
  · exact h

theorem safe_recordChecked (henabled : st.config.enabled = true)
    (htype : event.eventType = .enrollRequest) (h : s.phase w = .entered job) :
    AuditSafe p w (Ends (fun _ s => s.phase w = .admitted job) fun _ _ => True)
      (Audit.recordChecked H st event).run s := by
  unfold Audit.recordChecked
  rw [if_neg (by simp [henabled])]
  refine safe_bind ((safe_lockWrites h).mono fun _ s h => ?_)
  refine safe_bind ((safe_recordInner htype h).mono fun result s h => ?_)
  refine safe_bind ((safe_latch st.config h).mono fun result s h => ?_)
  cases result with
  | ok _ => exact (steady_phase p w _).bind (only_op rfl) h fun _ _ h => h
  | error e => exact (steady_phase p w _).bind (only_op rfl) rfl fun _ _ _ => trivial

/-! ## The gate and the log -/

def Linked (w : W) (m : Standing Job) (s : World W P) : Prop :=
  match m with
  | .closed => True
  | .fresh job => s.phase w = .entered job
  | .admitted job => s.phase w = .admitted job
  | .broken => False

variable {m : Standing Job}

omit [DecidableEq P] in
theorem Linked.rely (h : Linked w m s) (hr : Rely w s s') : Linked w m s' := by
  cases m with
  | closed => trivial
  | fresh | admitted => exact hr.phase.trans h
  | broken => exact h

theorem phase_admitted (ho : ∀ job', o ≠ .enter job')
    (h : s.phase w = .admitted job) (he : exec p w e o s = some (r, s')) :
    s'.phase w = .admitted job := by
  obtain ⟨a, -, rfl⟩ := exec_cases he
  have hphase : (s.journal w).foldl Phase.next .idle = .admitted job := h
  rw [World.phase, World.journal_extend, phaseOf, List.foldl_append, hphase]
  exact foldl_next_eq_self (next_admitted job) fun job' hmem => ho job' (mem_entries hmem)

theorem safe_audit (hm : ∀ job, m ≠ .fresh job) (h : Linked w m s)
    (x : Prog Audit.Op Audit.Reply α) : AuditSafe p w (fun _ => Linked w m) x s := by
  refine safe_invariant ?_ (fun _ _ hlink hr => hlink.rely hr) x h
  intro e o s r s' hlink he
  refine ⟨guar_audit he, ?_⟩
  cases m with
  | closed => trivial
  | fresh job => exact absurd rfl (hm job)
  | admitted job => exact phase_admitted (fun _ heq => Step.noConfusion heq) hlink he
  | broken => exact hlink

theorem safe_audit_closed (h : Linked w m s) (x : Prog Audit.Op Audit.Reply α) :
    Safe (exec p w) (Rely w) (Guar w) (fun _ => Linked w (m.admission false)) (x.interp auditOp)
      s := by
  refine safe_interp_auditOp (safe_audit (Standing.admission_ne_fresh false m) ?_ x)
  cases m with
  | closed => trivial
  | fresh job => trivial
  | admitted job => exact h
  | broken => exact h

theorem phase_outside {o : Outside} (ho : o.issues = false) {r : Answer o}
    (he : exec p w e (.outside o) s = some (r, s')) : s'.phase w = s.phase w := by
  obtain ⟨a, -, rfl⟩ := exec_cases he
  rw [World.phase, World.journal_extend, entries, ho]
  exact congrArg phaseOf (List.append_nil _)

theorem safe_signs (ho : ∀ job', o ≠ .enter job') (h : s.phase w = .admitted job) :
    Safe (exec p w) (Rely w) (Guar w) (fun _ => Linked w (.admitted job)) (perform o) s := by
  refine safe_op ?_
  intro e r s' he
  have hphase := phase_admitted ho h he
  exact ⟨guar_exec he fun _ => ⟨job, h⟩, fun s'' hr => hr.phase.trans hphase⟩

theorem safe_outside (o : Outside) (h : Linked w m s)
    (hintact : (if o.issues then m.act else m).Intact) :
    Safe (exec p w) (Rely w) (Guar w) (fun _ => Linked w (if o.issues then m.act else m))
      (perform (.outside o)) s := by
  cases ho : o.issues with
  | true =>
    rw [ho] at hintact
    obtain ⟨job, rfl⟩ := Standing.eq_admitted_of_intact_act hintact
    exact safe_signs (fun _ heq => Step.noConfusion heq) h
  | false =>
    refine safe_op ?_
    intro e r s' he
    refine ⟨guar_exec he fun hsigns => Bool.noConfusion (ho.symm.trans hsigns), fun s'' hr => ?_⟩
    have hphase := hr.phase.trans (phase_outside ho he)
    cases m with
    | closed => trivial
    | fresh | admitted => exact hphase.trans h
    | broken => exact h

theorem safe_lower (henabled : st.config.enabled = true) (o : Op) (m : Standing Job)
    (s : World W P) (h : Linked w m s) (hintact : ∀ r, (gateStep m o r).Intact) :
    Safe (exec p w) (Rely w) (Guar w) (fun r s' => Linked w (gateStep m o r) s') (lower H st o)
      s := by
  cases o with
  | recordChecked event =>
    cases m with
    | fresh job =>
      cases htype : isAdmission event with
      | false =>
        refine (safe_audit_closed h (Audit.recordChecked H st event).run).mono fun r s' _ => ?_
        show Linked w (Standing.admission (isAdmission event && succeeded r) (.fresh job)) s'
        rw [htype]
        trivial
      | true =>
        refine safe_interp_auditOp
          ((safe_recordChecked henabled (of_decide_eq_true htype) h).mono fun r s' hr => ?_)
        show Linked w (Standing.admission (isAdmission event && succeeded r) (.fresh job)) s'
        rw [htype]
        cases r with
        | ok _ => exact hr
        | error e => trivial
    | closed | admitted => exact safe_audit_closed h _
    | broken => exact h.elim
  | record | issuance => exact safe_audit_closed h _
  | sign what =>
    obtain ⟨job, rfl⟩ := Standing.eq_admitted_of_intact_act (hintact (.error default))
    exact safe_signs (fun _ heq => Step.noConfusion heq) h
  | outside o =>
    obtain ⟨r⟩ : Nonempty (Answer o) := inferInstance
    exact safe_outside o h (hintact r)

theorem safe_starOp (henabled : st.config.enabled = true) {o : Star.Op}
    (h : Linked w m s) (hintact : ∀ r, (starStep m o r).Intact) :
    Safe (exec p w) (Rely w) (Guar w) (fun r s' => Linked w (starStep m o r) s')
      ((starOp o).interp (lower H st)) s := by
  refine (safe_of_obeys (safe_lower henabled) (obeys_starOp hintact) h).mono ?_
  rintro r s' ⟨m', rfl, hlink⟩
  exact hlink

theorem safe_enter (job : Job) (s : World W P) :
    Safe (exec p w) (Rely w) (Guar w) (fun _ => Linked w (.fresh job)) (perform (.enter job)) s := by
  refine safe_op ?_
  intro e r s' he
  refine ⟨guar_exec he fun hsigns => Bool.noConfusion hsigns, fun s'' hr => Linked.rely ?_ hr⟩
  obtain ⟨a, -, rfl⟩ := exec_cases he
  show phaseOf _ = _
  rw [World.journal_extend, entries, phaseOf_concat]
  cases phaseOf (s.journal w) <;> rfl

theorem safe_lowerCycle (henabled : st.config.enabled = true) (o : Star.Op) (m : Standing Job)
    (s : World W P) (h : Linked w m s) (hintact : ∀ r, (cycleStep m o r).Intact) :
    Safe (exec p w) (Rely w) (Guar w) (fun r s' => Linked w (cycleStep m o r) s')
      (lowerCycle H st o) s := by
  cases o with
  | getOrder id =>
    refine safe_bind ((safe_enter (.renewal id) s).mono fun _ s h => ?_)
    exact safe_starOp henabled h fun _ => Standing.intact_fresh _
  | _ => exact safe_starOp henabled h hintact

/-! ## Runs -/

theorem safe_body (henabled : st.config.enabled = true) (L : CmpLib) (t : Task)
    (h : Linked w (.fresh t.job) s) :
    Safe (exec p w) (Rely w) (Guar w) (fun _ _ => True) (t.body H st L) s := by
  cases t with
  | request app req =>
    exact (safe_of_obeys (safe_lower henabled) (gated_request L app req _) h).mono
      fun _ _ _ => trivial
  | cycle =>
    refine safe_bind ((safe_of_obeys (safe_lowerCycle henabled) (gated_cycle L.star)
      (s := s) trivial).mono ?_)
    exact fun _ _ _ => trivial
  | audit t =>
    exact safe_bind ((safe_audit_closed h (t.prog H st)).mono fun _ _ _ => trivial)

theorem guar_abandon (p : W → P) (w : W) (s : World W P) : Guar w s (abandon p w s) where
  others _ hv :=
    ⟨Function.update_of_ne hv .., Audit.haltedStays_abandon p w s.audit, rfl⟩
  signed h := h

def admissionContract (H : Hashes) (henabled : st.config.enabled = true) (L : CmpLib) (p : W → P) :
    Contract (server H st L p) where
  inv _ := True
  rely := Rely
  guar := Guar
  idle := fun _ _ => True
  post := fun _ _ _ _ => True
  evolve := Evolve
  rely_refl := Rely.refl
  rely_trans := Rely.trans
  guar_rely := fun hvw hg => hg.others _ (Ne.symm hvw)
  idle_stable := fun _ _ => trivial
  post_stable := fun _ _ => trivial
  evolve_refl := fun _ _ h => h
  evolve_trans := fun h h' v hv => h' v (h v hv)
  guar_evolve := Guar.evolve
  guar_inv _ := trivial
  abandon w s _ := ⟨guar_abandon p w s, trivial⟩
  safe _ t s _ _ := (safe_bind ((safe_enter t.job s).mono fun _ _ h =>
    (safe_body henabled L t h).mono fun _ _ _ => ⟨trivial, trivial⟩)).rely fun _ _ hr => hr.2

variable {L : CmpLib} {a : Audit.World W P} {acts : List (Act W Env Task)} {c : ServerConfig W P}

theorem signed_reachable (henabled : st.config.enabled = true) (h : Reaches H st L p a acts c)
    (w : W) : Signed (c.shared.journal w) := by
  have hinit : (admissionContract H henabled L p).Inv (Config.initial ⟨a, []⟩) :=
    (admissionContract H henabled L p).inv_initial trivial fun _ => trivial
  exact ((admissionContract H henabled L p).run_inv hinit h).2 w (throughout_nil _)

/-- What a journal says was committed is in the history, as a transaction of that thread. -/
def Recorded (s : World W P) : Prop :=
  ∀ w rows, Entry.committed rows ∈ s.journal w →
    ∃ commit ∈ s.audit.history, commit.writer = w ∧ commit.rows = rows

theorem recorded_exec (he : exec p w e o s = some (r, s')) (h : Recorded s) : Recorded s' := by
  obtain ⟨a, hact, rfl⟩ := exec_cases he
  obtain ⟨new, hhistory, hwriter⟩ := history_act hact
  have hold : ∀ v rows, Entry.committed rows ∈ s.journal v →
      ∃ commit ∈ a.history, commit.writer = v ∧ commit.rows = rows := by
    intro v rows hmem
    obtain ⟨commit, hcommit, hrest⟩ := h v rows hmem
    exact ⟨commit, hhistory ▸ List.mem_append_left new hcommit, hrest⟩
  intro v rows hmem
  by_cases hv : v = w
  · subst hv
    rw [World.journal_extend] at hmem
    rcases List.mem_append.mp hmem with hmem | hmem
    · exact hold v rows hmem
    · obtain ⟨commit, hcommit, hrows⟩ := mem_entries hmem
      rw [hhistory, List.drop_left] at hcommit
      exact ⟨commit, hhistory ▸ List.mem_append_right _ hcommit, hwriter commit hcommit, hrows⟩
  · rw [World.journal_extend_of_ne s hv] at hmem
    exact hold v rows hmem

theorem recorded_reachable (h : Reaches H st L p a acts c) : Recorded c.shared := by
  refine (server H st L p).run_preserves (fun w e o s r s' he hs => recorded_exec he hs)
    (fun _ _ hs => hs) ?_ h
  intro w rows hmem
  cases hmem

/-- The process of `w` is halted, and the audit writes that `w` began behind `earlier` found it so. -/
def HaltedSince (p : W → P) (w : W) (earlier : List Entry) (s : World W P) : Prop :=
  Halted p w s.audit ∧
    ∃ new, s.journal w = earlier ++ new ∧ ∀ flag, Entry.writes flag ∈ new → flag = true

theorem haltedSince_exec {v : W} {earlier : List Entry}
    (he : exec p v e o s = some (r, s')) (h : HaltedSince p w earlier s) :
    HaltedSince p w earlier s' := by
  obtain ⟨hhalted, new, hjournal, hnew⟩ := h
  obtain ⟨a, hact, rfl⟩ := exec_cases he
  refine ⟨(frame_act hact).2 _ hhalted, ?_⟩
  by_cases hv : w = v
  · subst hv
    refine ⟨new ++ entries p w s.audit a o, ?_, ?_⟩
    · rw [World.journal_extend, hjournal, List.append_assoc]
    · intro flag hmem
      rcases List.mem_append.mp hmem with hmem | hmem
      · exact hnew flag hmem
      · exact (mem_entries hmem).trans hhalted
  · exact ⟨new, (s.journal_extend_of_ne hv a _).trans hjournal, hnew⟩

theorem haltedSince_run {c₀ : ServerConfig W P} (hrun : (server H st L p).run c₀ acts = some c)
    (hhalted : Halted p w c₀.shared.audit) :
    HaltedSince p w (c₀.shared.journal w) c.shared := by
  refine (server H st L p).run_preserves (I := HaltedSince p w (c₀.shared.journal w))
    (fun _ _ _ _ _ _ he hs => haltedSince_exec he hs) ?_ ?_ hrun
  · rintro v s ⟨hs, hjournal⟩
    exact ⟨Audit.haltedStays_abandon p v s.audit _ hs, hjournal⟩
  · exact ⟨hhalted, [], (List.append_nil _).symm, fun _ hmem => absurd hmem List.not_mem_nil⟩

/-- With auditing enabled, in every run of requests, renewal cycles and audit writes, whatever
    fails:

    * a thread that signs has taken up a job, begun its audit write with the halt flag clear, and
      committed an enroll-request row in it, with no other job taken up since;
    * a thread whose job begins its audit write with the flag set signs nothing before it takes up
      another job;
    * every audit write that begins after the flag was set finds it set. -/
theorem signing_after_admission (H : Hashes) (st : AuditState) (henabled : st.config.enabled = true)
    (L : CmpLib) (p : W → P) (a : Audit.World W P) (acts : List (Act W Env Task))
    (c : ServerConfig W P) (hrun : Reaches H st L p a acts c) (w : W) :
    (∀ before call, before ++ [.signing call] <+: c.shared.journal w →
      ∃ job rows, AdmittedWith job rows before ∧
        ∃ commit ∈ c.shared.audit.history, commit.writer = w ∧ commit.rows = rows) ∧
    (∀ before job later call,
      before ++ .entered job :: .writes true :: later ++ [.signing call] <+: c.shared.journal w →
        ∃ job', Entry.entered job' ∈ later) ∧
    ∀ c₀ acts', (server H st L p).run c₀ acts' = some c → Halted p w c₀.shared.audit →
      ∃ new, c.shared.journal w = c₀.shared.journal w ++ new ∧
        ∀ flag, Entry.writes flag ∈ new → flag = true := by
  have hsigned := signed_reachable henabled hrun w
  refine ⟨?_, ?_, fun c₀ acts' hrun' hhalted => (haltedSince_run hrun' hhalted).2⟩
  · intro before call hbegins
    obtain ⟨job, hphase⟩ := hsigned.of_begins hbegins call rfl
    obtain ⟨rows, hadmitted⟩ := admittedWith_of_phaseOf hphase
    refine ⟨job, rows, hadmitted, recorded_reachable hrun w rows ?_⟩
    obtain ⟨earlier, later, rfl, -, -⟩ := hadmitted
    exact hbegins.subset (by simp)
  · intro before job later call hbegins
    by_contra hnone
    obtain ⟨job', hphase⟩ := hsigned.of_begins hbegins call rfl
    rw [phaseOf_halted fun job' hmem => hnone ⟨job', hmem⟩] at hphase
    cases hphase

end

/-! ### Two requests of one client -/

/-- Every text is the CSR of `alice`. -/
def aliceIssue : Ca.IssueLib :=
  { Ca.plainLib Keygen.aliceTemplate [] with
    fromDer := fun _ => .ok ⟨Keygen.aliceTemplate.subject, none⟩
    verifySignature := fun _ => .ok () }

def plainLib : CmpLib where
  toIssueLib := aliceIssue
  cms := Auth.Replay.library
  crypto :=
    { Keygen.aliceLib with
      csr := aliceIssue.toCsrLib
      x509Req := fun _ => .ok Keygen.aliceTemplate.subject
      publicKeyInfo := fun _ => some (.ec (some "P-256"))
      base64Decode := .ok }
  crypto_csr := rfl
  star := Star.plainLib
  normalized := id
  formatUtc _ := ""
  privateKey _ := .ok ()
  buildCsr _ _ _ _ := .ok []
  pemCerts _ := .ok []
  encodeCsrAttrs _ _ := .ok []
  parsePkiData _ := .error "no PKIData"
  unwrapSignedCmc _ := .error "no SignedData"
  taggedRequest _ := .error "no request"
  encodeControl _ := .ok ()
  buildPkiResponse _ := .ok []
  bindTransaction der _ := .ok der
  extendedKeyUsageOids _ := []
  pkiMessage _ := .error "no PKIMessage"
  bitString := .ok
  hexError _ := ""
  digest _ x := x
  hmac _ _ _ := .ok []
  certReqMessages _ := .ok []
  certRepMessage _ _ := .ok []
  revReqContent _ := .ok []
  revRepContent _ := .ok []
  genMsgContent _ := .ok ()
  encodeGenRep := .ok ()
  finishGenRep := .ok []
  nullDer := .ok []
  generalName _ := .ok []
  responseDer _ := .ok []
  withRecipient response _ := .ok response

def plainApp : AppState where
  est := ⟨false, false, false, 3600, none, [], none, []⟩
  cas := [⟨"ca1", [], [], "SHA256", 90, none, none⟩]
  caConfigs := ["ca1"]
  defaultCaId := "ca1"
  dogtag := none
  cmsEst := none
  cmp := none
  cmpMacSecrets := []

def aliceEnrolls : Request :=
  .simpleenroll ⟨⟨"alice", .mtls, none, none, []⟩, plainApp.defaultLabel, List.replicate 60 0x41⟩

def plainEnv (newId : Int) : Env where
  audit := Audit.envAt Audit.at0930 newId
  sign := .ok ⟨asBytes "certificate", "01", "CN=alice", 1767225600, 1769817600⟩
  answer
    | .now => some 1767225600
    | .resolveSigningKey _ => some (.ok ())
    | .insertCertificate _ => some (.ok ())
    | _ => none

/-- The first request is admitted and gets its certificate; the table is then full, so the event
    for it halts the process. The second request finds it halted. -/
def twoRequests : List (Act Unit Env Task) :=
  .start () (.request plainApp aliceEnrolls) :: List.replicate 26 (.step () (plainEnv 1)) ++
  .start () (.request plainApp aliceEnrolls) :: List.replicate 6 (.step () (plainEnv 2))

def Entry.kind : Entry → String
  | .entered _ => "entered"
  | .writes false => "writes"
  | .writes true => "writes while halted"
  | .committed _ => "committed"
  | .signing _ => "signing"

theorem signing_after_admission_twoRequests :
    ∃ c, Reaches Audit.trailDigests Audit.oneRowHalt plainLib id (Audit.started .empty)
        twoRequests c ∧
      (c.shared.journal ()).map Entry.kind =
        ["entered", "writes", "committed", "signing", "writes", "entered", "writes while halted"] ∧
      c.done.length = 2 ∧
      ∀ before call, before ++ [.signing call] <+: c.shared.journal () →
        ∃ job rows, AdmittedWith job rows before ∧
          ∃ commit ∈ c.shared.audit.history, commit.writer = () ∧ commit.rows = rows := by
  have hkinds : ((server Audit.trailDigests Audit.oneRowHalt plainLib id).run
      (Config.initial ⟨Audit.started .empty, []⟩) twoRequests).map
        (fun c => ((c.shared.journal ()).map Entry.kind, c.done.length)) =
      some (["entered", "writes", "committed", "signing", "writes", "entered",
        "writes while halted"], 2) := by decide +kernel
  obtain ⟨c, hrun, hc⟩ := Option.map_eq_some_iff.mp hkinds
  obtain ⟨hjournal, hdone⟩ := Prod.mk.inj hc
  have hsigning := signing_after_admission Audit.trailDigests Audit.oneRowHalt rfl plainLib id
    (Audit.started .empty) twoRequests c hrun ()
  exact ⟨c, hrun, hjournal, hdone, hsigning.1⟩

end Kipuka.Enroll
