/-
  The write paths of the audit trail (`src/audit/mod.rs`) as programs over the store's operations:
  `write_event`, its two callers `record_checked` and `record_issuance_in_transaction`, and
  `commit_issuance`.
-/
import Kipuka.Audit.Store
import Kipuka.Error
import Kipuka.Generic.History

namespace Kipuka.Audit

open Generic

abbrev Fallible (α : Type) : Type := ExceptT KipukaError (Prog Op Reply) α

abbrev ask (o : Op) : Prog Op Reply (Reply o) := Prog.op o

def admission : Fallible Unit := do
  let halted ← Prog.lift (ask .isHalted)
  if halted then throw (.db "audit operation admission halted") else pure ()

def deleteRows : List Int → Fallible Unit
  | [] => pure ()
  | id :: ids => do
    Prog.mapErr KipukaError.db (ask (.deleteRow id))
    deleteRows ids

/-- The row limit: refuse under `halt`, delete the oldest rows under `drop_oldest`. -/
def enforceRowLimit (cfg : AuditConfig) : Fallible Unit :=
  match cfg.maxRows with
  | none => pure ()
  | some limit => do
    let count ← Prog.mapErr KipukaError.db (ask .countRows)
    if asI64 limit ≤ count then
      match cfg.overflowPolicy with
      | .halt => throw (.db "audit storage row limit reached")
      | .dropOldest => do
        let ids ← Prog.mapErr KipukaError.db (ask (.oldestIds (count - asI64 limit + 1)))
        deleteRows ids
    else pure ()

section

variable {P : Op → Prop} (hdelete : ∀ id, P (.deleteRow id))

include hdelete

theorem only_deleteRows (ids : List Int) : Only P (deleteRows ids).run := by
  induction ids with
  | nil => trivial
  | cons id ids ih => exact only_try (only_op (hdelete id)) fun _ => ih

theorem only_enforceRowLimit (hcount : P .countRows) (holdest : ∀ n, P (.oldestIds n))
    (cfg : AuditConfig) : Only P (enforceRowLimit cfg).run := by
  unfold enforceRowLimit
  split
  · trivial
  refine only_try (only_op hcount) fun count => ?_
  split
  · split
    · trivial
    · exact only_try (only_op (holdest _)) fun ids => only_deleteRows hdelete ids
  · trivial

end

/-- The row `write_event` inserts for an event, behind a predecessor with hash `prevHash`. -/
def newRow (H : Hashes) (st : AuditState) (event : AuditEvent) (timestamp : Timestamp)
    (prevHash : Option String) : NewRow where
  timestamp := timestamp.text
  eventType := event.eventType.asStr
  actor := event.operator
  target := event.subject
  detailJson := detailJson event.detail event.caId
  sourceIp := event.clientAddr
  sessionId := none
  prevHash := prevHash
  recordHash := some (st.chainHash H prevHash (canonicalBytes timestamp.text event.eventType.asStr
    event.operator event.subject (detailJson event.detail event.caId) event.clientAddr none))

def writeEvent (H : Hashes) (st : AuditState) (event : AuditEvent) : Fallible Unit := do
  admission
  Prog.mapErr KipukaError.db (ask .updateWriterLock)
  enforceRowLimit st.config
  let timestamp ← Prog.lift (ask .now)
  let tail ← Prog.mapErr (fun e => KipukaError.db ("loading audit chain tail: " ++ e)) (ask .chainTail)
  Prog.mapErr (fun e => KipukaError.db ("audit insert failed: " ++ e))
    (ask (.insertRow (newRow H st event timestamp tail.join)))

/-- Run `x` in the open transaction; on an early return the transaction is dropped. -/
def inTransaction {ε α : Type} (x : ExceptT ε (Prog Op Reply) α) : ExceptT ε (Prog Op Reply) α :=
  ExceptT.mk do
    match ← x.run with
    | .ok a => pure (.ok a)
    | .error e => do
      ask .rollback
      pure (.error e)

def raiseAlarm (cfg : AuditConfig) (count : UInt32) : Fallible Unit :=
  if cfg.alarmAction = "halt" then Prog.lift (ask .setHalted)
  else Prog.mapErr (fun e => KipukaError.db ("audit syslog alarm failed: " ++ e))
    (ask (.emitSyslogAlarm count))

/-- Violation counter and alarm (FAU_ARP.1), after the event is committed. -/
def trackViolations (cfg : AuditConfig) (eventType : AuditEventType) : Fallible Unit :=
  match eventType with
  | .securityViolation => do
    let count ← Prog.lift (ask .recordViolation)
    if cfg.alarmThreshold ≤ count then raiseAlarm cfg count else pure ()
  | .authSuccess => Prog.lift (ask .resetViolations)
  | _ => pure ()

def recordInner (H : Hashes) (st : AuditState) (event : AuditEvent) : Fallible Unit := do
  admission
  Prog.mapErr KipukaError.db (ask .begin)
  inTransaction (writeEvent H st event)
  Prog.mapErr KipukaError.db (ask .commit)
  trackViolations st.config event.eventType

/-- Under `halt` a refused write sets the flag. The result is passed on. -/
def latch (cfg : AuditConfig) (result : Except KipukaError Unit) : Fallible Unit :=
  match result, cfg.overflowPolicy with
  | .error e, .halt => do
    Prog.lift (ask .setHalted)
    throw e
  | result, _ => ExceptT.mk (pure result)

def recordChecked (H : Hashes) (st : AuditState) (event : AuditEvent) : Fallible Unit :=
  if st.config.enabled = false then pure () else ExceptT.mk do
    ask .lockWrites
    let result ← (recordInner H st event).run
    let result ← (latch st.config result).run
    ask .unlockWrites
    pure result

def record (H : Hashes) (st : AuditState) (event : AuditEvent) : Prog Op Reply Unit := do
  let _ ← (recordChecked H st event).run
  pure ()

def recordIssuanceInTransaction (H : Hashes) (st : AuditState) (caId detail : String) :
    Fallible Unit :=
  if st.config.enabled = false then pure () else ExceptT.mk do
    let event := ((AuditEvent.new .certIssue).withCaId caId).withDetail detail
    let result ← (writeEvent H st event).run
    (latch st.config result).run

def commitIssuance (st : AuditState) : Fallible Unit := ExceptT.mk do
  match ← ask .commit with
  | .ok _ => pure (.ok ())
  | .error e =>
    if st.config.enabled = true ∧ st.config.overflowPolicy = .halt then do
      ask .setHalted
      pure (.error (.db e))
    else pure (.error (.db e))

/-! ## Tasks -/

/-- A part of an issuance transaction: a statement of its own, or an audit event. -/
inductive Part where
  | statement (sql : String)
  | event (caId detail : String)
  deriving DecidableEq

inductive Task where
  | record (event : AuditEvent)
  | recordChecked (event : AuditEvent)
  | issuance (parts : List Part)
  deriving DecidableEq

/-- Why a task failed: an audit write or the commit was refused, or another statement failed. -/
inductive Failure where
  | refused (e : KipukaError)
  | failed (e : KipukaError)
  deriving DecidableEq

def runParts (H : Hashes) (st : AuditState) : List Part → ExceptT Failure (Prog Op Reply) Unit
  | [] => pure ()
  | .statement sql :: parts => do
    Prog.mapErr (fun e => Failure.failed (.db e)) (ask (.otherWrite sql))
    runParts H st parts
  | .event caId detail :: parts => do
    Prog.mapErr Failure.refused (recordIssuanceInTransaction H st caId detail).run
    runParts H st parts

/-- An issuance: everything in one transaction, published only after its commit. -/
def issue (H : Hashes) (st : AuditState) (parts : List Part) :
    ExceptT Failure (Prog Op Reply) Unit := do
  Prog.mapErr (fun e => Failure.failed (.db e)) (ask .begin)
  inTransaction (runParts H st parts)
  Prog.mapErr Failure.refused (commitIssuance st).run

def Task.prog (H : Hashes) (st : AuditState) : Task → Prog Op Reply (Except Failure Unit)
  | .record event => do
    Audit.record H st event
    pure (.ok ())
  | .recordChecked event => (Prog.mapErr Failure.refused (Audit.recordChecked H st event).run).run
  | .issuance parts => (issue H st parts).run

def trail {W P : Type} [DecidableEq W] [DecidableEq P] (H : Hashes) (st : AuditState) (p : W → P) :
    System W Env Op Task (Except Failure Unit) (World W P) Reply where
  exec := exec p
  abandon := abandon p
  prog := Task.prog H st

/-- A database that holds `t`, no transaction open, and processes that have just started. -/
def started {W P : Type} (t : Table) : World W P where
  table := t
  writerLock := none
  tx := fun _ => none
  procs := fun _ => { halted := false, violationCount := 0, writeLock := none }
  history := []

end Kipuka.Audit
