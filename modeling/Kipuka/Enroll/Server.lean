/-
  The server as a system of threads: requests on all enrollment routes, renewal cycles and audit
  writes, in any interleaving, over the store of the audit trail.
-/
import Kipuka.Audit.Latch
import Kipuka.Enroll.Gate

namespace Kipuka.Enroll

open Generic
open Audit (AuditRow AuditState HaltedStays Hashes)
open Kipuka.Ca (IssuanceError IssuanceResult)

/-! ## Steps of the server -/

inductive Step where
  | enter (job : Job)
  | audit (o : Audit.Op)
  | sign (what : Signing)
  | outside (o : Outside)

abbrev StepReply : Step → Type
  | .enter _ => Unit
  | .audit o => Audit.Reply o
  | .sign _ => Except IssuanceError IssuanceResult
  | .outside o => Answer o

/-- The environment's part of a step. A call outside waits until it has an answer. -/
structure Env where
  audit : Audit.Env
  sign : Except IssuanceError IssuanceResult
  answer : (o : Outside) → Option (Answer o)

inductive Entry where
  | entered (job : Job)
  /-- `record_checked` has the write lock of its process, whose halt flag is the given one. -/
  | writes (halted : Bool)
  | committed (rows : List AuditRow)
  | signing (call : Op)

structure World (W P : Type) where
  audit : Audit.World W P
  log : List (W × Entry)

section Exec

variable {W P : Type} [DecidableEq W] [DecidableEq P]

def World.journal (s : World W P) (w : W) : List Entry :=
  (s.log.filter fun entry => entry.1 = w).map Prod.snd

def World.extend (s : World W P) (w : W) (a : Audit.World W P) (entries : List Entry) : World W P :=
  ⟨a, s.log ++ entries.map fun entry => (w, entry)⟩

def act (p : W → P) (w : W) (e : Env) :
    (o : Step) → Audit.World W P → Option (StepReply o × Audit.World W P)
  | .enter _, a => some ((), a)
  | .audit o, a => Audit.exec p w e.audit o a
  | .sign _, a => some (e.sign, a)
  | .outside o, a => (e.answer o).map fun r => (r, a)

def entries (p : W → P) (w : W) (a a' : Audit.World W P) : Step → List Entry
  | .enter job => [.entered job]
  | .audit .lockWrites => [.writes (a.procs (p w)).halted]
  | .audit _ => (a'.history.drop a.history.length).map fun c => .committed c.rows
  | .sign what => [.signing (.sign what)]
  | .outside o => if o.issues then [.signing (.outside o)] else []

def exec (p : W → P) (w : W) (e : Env) (o : Step) (s : World W P) :
    Option (StepReply o × World W P) :=
  (act p w e o s.audit).map fun r => (r.1, s.extend w r.2 (entries p w s.audit r.2 o))

def abandon (p : W → P) (w : W) (s : World W P) : World W P :=
  { s with audit := Audit.abandon p w s.audit }

end Exec

/-! ## Programs of single steps -/

section Lower

variable (H : Hashes) (st : AuditState)

abbrev perform (o : Step) : Prog Step StepReply (StepReply o) := Prog.op o

def auditOp (o : Audit.Op) : Prog Step StepReply (Audit.Reply o) := perform (.audit o)

def lower : (o : Op) → Prog Step StepReply (Reply o)
  | .recordChecked event => (Audit.recordChecked H st event).run.interp auditOp
  | .record event => (Audit.record H st event).interp auditOp
  | .issuance parts => (Audit.issue H st parts).run.interp auditOp
  | .sign what => perform (.sign what)
  | .outside o => perform (.outside o)

/-- A call of a renewal cycle. With the lookup of an order its renewal begins. -/
def lowerCycle : (o : Star.Op) → Prog Step StepReply (Star.Reply o)
  | .getOrder id => do
    perform (.enter (.renewal id))
    (starOp (.getOrder id)).interp (lower H st)
  | o => (starOp o).interp (lower H st)

inductive Task where
  | request (app : AppState) (req : Request)
  | cycle
  | audit (t : Audit.Task)

def Task.job : Task → Job
  | .request _ req => .request req
  | .cycle => .cycle
  | .audit t => .audit t

def Task.body (L : CmpLib) : Task → Prog Step StepReply Result
  | .request app req => (req.prog L app).interp (lower H st)
  | .cycle => resultOf .cycle ((Star.renewalCycle L.star).interp (lowerCycle H st))
  | .audit t => resultOf .audit ((t.prog H st).interp auditOp)

def Task.prog (L : CmpLib) (t : Task) : Prog Step StepReply Result := do
  perform (.enter t.job)
  t.body H st L

end Lower

def server {W P : Type} [DecidableEq W] [DecidableEq P] (H : Hashes) (st : AuditState) (L : CmpLib)
    (p : W → P) : System W Env Step Task Result (World W P) StepReply where
  exec := exec p
  abandon := abandon p
  prog := Task.prog H st L

section

variable {W P : Type} [DecidableEq W] [DecidableEq P]

abbrev ServerConfig (W P : Type) : Type := Config W Step Task Result (World W P) StepReply

/-- The server gets to this configuration by these steps, from an empty journal. -/
def Reaches (H : Hashes) (st : AuditState) (L : CmpLib) (p : W → P) (a : Audit.World W P)
    (acts : List (Act W Env Task)) (c : ServerConfig W P) : Prop :=
  (server H st L p).run (Config.initial ⟨a, []⟩) acts = some c

/-! ## What a step does -/

omit [DecidableEq P] in
theorem World.journal_extend (s : World W P) (w : W) (a : Audit.World W P) (new : List Entry) :
    (s.extend w a new).journal w = s.journal w ++ new := by
  simp [World.journal, World.extend, List.filter_append, List.filter_map, Function.comp_def]

omit [DecidableEq P] in
theorem World.journal_extend_of_ne (s : World W P) {v w : W} (hv : v ≠ w) (a : Audit.World W P)
    (new : List Entry) : (s.extend w a new).journal v = s.journal v := by
  simp [World.journal, World.extend, List.filter_append, List.filter_map, Function.comp_def,
    Ne.symm hv]

variable {p : W → P} {w : W} {s s' : World W P} {o : Step} {e : Env} {r : StepReply o}

theorem exec_cases (h : exec p w e o s = some (r, s')) :
    ∃ a, act p w e o s.audit = some (r, a) ∧ s' = s.extend w a (entries p w s.audit a o) := by
  obtain ⟨⟨r', a⟩, hact, heq⟩ := Option.map_eq_some_iff.mp h
  cases heq
  exact ⟨a, hact, rfl⟩

def Step.signs : Step → Bool
  | .sign _ => true
  | .outside o => o.issues
  | _ => false

variable {a a' : Audit.World W P}

theorem act_cases (h : act p w e o a = some (r, a')) :
    a' = a ∨ ∃ (e' : Audit.Env) (o' : Audit.Op) (r' : Audit.Reply o'),
      Audit.exec p w e' o' a = some (r', a') := by
  cases o with
  | enter | sign =>
    cases h
    exact .inl rfl
  | audit o => exact .inr ⟨e.audit, o, r, h⟩
  | outside o =>
    obtain ⟨r', -, heq⟩ := Option.map_eq_some_iff.mp h
    cases heq
    exact .inl rfl

theorem frame_act (h : act p w e o a = some (r, a')) :
    (∀ v, v ≠ w → a'.tx v = a.tx v) ∧ HaltedStays a a' := by
  rcases act_cases h with rfl | ⟨e', o', r', hexec⟩
  · exact ⟨fun _ _ => rfl, HaltedStays.refl _⟩
  · exact ⟨fun v hv => Audit.tx_exec hv hexec, Audit.haltedStays_exec hexec⟩

omit [DecidableEq W] [DecidableEq P] in
theorem mem_entries {entry : Entry} (h : entry ∈ entries p w a a' o) : match entry with
    | .entered job => o = .enter job
    | .writes flag => flag = (a.procs (p w)).halted
    | .committed rows => ∃ c ∈ a'.history.drop a.history.length, c.rows = rows
    | .signing _ => o.signs = true := by
  cases o with
  | enter | sign =>
    obtain rfl := List.mem_singleton.mp h
    rfl
  | audit o =>
    cases o with
    | lockWrites =>
      obtain rfl := List.mem_singleton.mp h
      rfl
    | _ =>
      obtain ⟨c, hc, rfl⟩ := List.mem_map.mp h
      exact ⟨c, hc, rfl⟩
  | outside o =>
    rw [entries] at h
    split at h
    · next hissues =>
      obtain rfl := List.mem_singleton.mp h
      exact hissues
    · cases h

theorem history_act (h : act p w e o a = some (r, a')) :
    ∃ new, a'.history = a.history ++ new ∧ ∀ commit ∈ new, commit.writer = w := by
  rcases act_cases h with rfl | ⟨e', o', r', hexec⟩
  · exact ⟨[], (List.append_nil _).symm, List.forall_mem_nil _⟩
  · exact Audit.history_exec hexec

end

end Kipuka.Enroll
