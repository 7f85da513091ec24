/-
  The store behind the audit trail: the `audit_events` table, the `audit_writer_lock` row, the open
  transactions of the writers, and the in-memory state of each server process.
-/
import Kipuka.Audit.Chain
import Kipuka.Generic.Threads

namespace Kipuka.Audit

open Generic

/-! ## The table -/

structure Table where
  rows : List AuditRow
  sorted : rows.Pairwise fun a b => a.id < b.id

namespace Table

def empty : Table := ⟨[], .nil⟩

def delete (t : Table) (id : Int) : Table := ⟨t.rows.filter (·.id ≠ id), t.sorted.filter _⟩

def insert (t : Table) (row : AuditRow) : Table where
  rows := t.rows.filter (·.id < row.id) ++ row :: t.rows.filter (row.id < ·.id)
  sorted := by
    refine List.pairwise_append.mpr ⟨t.sorted.filter _, List.pairwise_cons.mpr ⟨?_, t.sorted.filter _⟩, ?_⟩
    · intro b hb
      simpa using (List.mem_filter.mp hb).2
    · intro a ha b hb
      have haid : a.id < row.id := by simpa using (List.mem_filter.mp ha).2
      rcases List.mem_cons.mp hb with rfl | hb
      · exact haid
      · have hbid : row.id < b.id := by simpa using (List.mem_filter.mp hb).2
        omega

theorem insert_rows {t : Table} {row : AuditRow} (h : ∀ r ∈ t.rows, r.id < row.id) :
    (t.insert row).rows = t.rows ++ [row] := by
  have hbefore : t.rows.filter (·.id < row.id) = t.rows :=
    List.filter_eq_self.mpr fun r hr => by simpa using h r hr
  have hafter : t.rows.filter (row.id < ·.id) = [] :=
    List.filter_eq_nil_iff.mpr fun r hr => by simpa using Int.le_of_lt (h r hr)
  simp [insert, hbefore, hafter]

theorem delete_head {t : Table} {row : AuditRow} {rest : List AuditRow} (h : t.rows = row :: rest) :
    (t.delete row.id).rows = rest := by
  have hsorted := t.sorted
  rw [h, List.pairwise_cons] at hsorted
  have hne : rest.filter (·.id ≠ row.id) = rest :=
    List.filter_eq_self.mpr fun r hr => by
      have hlt := hsorted.1 r hr
      simpa using (by omega : r.id ≠ row.id)
  simp only [delete, h]
  rw [List.filter_cons_of_neg (by simp), hne]

end Table

/-! ## Transactions -/

inductive Change where
  | insert (row : AuditRow)
  | delete (id : Int)
  deriving DecidableEq, Repr

def Change.apply (t : Table) : Change → Table
  | .insert row => t.insert row
  | .delete id => t.delete id

def Change.added : Change → Option AuditRow
  | .insert row => some row
  | .delete _ => none

/-- An open transaction: its changes to the audit table and its other writes, in order. -/
structure Tx where
  changes : List Change
  writes : List String
  deriving DecidableEq, Repr

namespace Tx

def new : Tx := ⟨[], []⟩

def add (tx : Tx) (c : Change) : Tx := { tx with changes := tx.changes ++ [c] }

def view (tx : Tx) (t : Table) : Table := tx.changes.foldl Change.apply t

def inserted (tx : Tx) : List AuditRow := tx.changes.filterMap Change.added

@[simp] theorem view_add (tx : Tx) (c : Change) (t : Table) : (tx.add c).view t = c.apply (tx.view t) := by
  simp [add, view]

@[simp] theorem inserted_add (tx : Tx) (c : Change) :
    (tx.add c).inserted = tx.inserted ++ c.added.toList := by
  cases c with
  | insert | delete => simp [add, inserted, Change.added]

end Tx

structure Commit (W : Type) where
  writer : W
  rows : List AuditRow
  writes : List String

/-! ## Processes and the shared state -/

/-- The in-memory part of one server process: the flags of `AuditState` and its write lock. -/
structure Proc (W : Type) where
  halted : Bool
  violationCount : UInt32
  writeLock : Option W

structure World (W P : Type) where
  table : Table
  writerLock : Option W
  tx : W → Option Tx
  procs : P → Proc W
  /-- The committed transactions, oldest first. -/
  history : List (Commit W)

namespace World

variable {W P : Type} [DecidableEq W] [DecidableEq P]

def view (s : World W P) (w : W) : Table :=
  match s.tx w with
  | some tx => tx.view s.table
  | none => s.table

def setTx (s : World W P) (w : W) (tx : Option Tx) : World W P :=
  { s with tx := Function.update s.tx w tx }

def setProc (s : World W P) (p : P) (f : Proc W → Proc W) : World W P :=
  { s with procs := Function.update s.procs p (f (s.procs p)) }

def release (s : World W P) (w : W) : World W P :=
  { s with writerLock := if s.writerLock = some w then none else s.writerLock }

def rollback (s : World W P) (w : W) : World W P := (s.setTx w none).release w

def commit (s : World W P) (w : W) (tx : Tx) : World W P :=
  { s.rollback w with
    table := tx.view s.table
    history := s.history ++ [⟨w, tx.inserted, tx.writes⟩] }

end World

/-! ## Atomic operations -/

structure NewRow where
  timestamp : String
  eventType : String
  actor : Option String
  target : Option String
  detailJson : Option String
  sourceIp : Option String
  sessionId : Option String
  prevHash : Option String
  recordHash : Option String
  deriving DecidableEq

def NewRow.withId (row : NewRow) (id : Int) : AuditRow where
  id := id
  timestamp := row.timestamp
  eventType := row.eventType
  actor := row.actor
  target := row.target
  detailJson := row.detailJson
  sourceIp := row.sourceIp
  sessionId := row.sessionId
  prevHash := row.prevHash
  recordHash := row.recordHash

/-- What the audit code does in one step: atomics, the process's write lock, the clock, the system
    logger, statements. -/
inductive Op where
  | isHalted
  | setHalted
  | recordViolation
  | resetViolations
  | lockWrites
  | unlockWrites
  | now
  | emitSyslogAlarm (count : UInt32)
  | begin
  /-- `UPDATE audit_writer_lock SET revision = revision WHERE id = 1` -/
  | updateWriterLock
  /-- `SELECT COUNT(*) FROM audit_events` -/
  | countRows
  /-- `SELECT id FROM audit_events ORDER BY id LIMIT ?` -/
  | oldestIds (limit : Int)
  /-- `DELETE FROM audit_events WHERE id = ?` -/
  | deleteRow (id : Int)
  /-- `SELECT record_hash FROM audit_events ORDER BY id DESC LIMIT 1` -/
  | chainTail
  | insertRow (row : NewRow)
  /-- A statement of the enclosing issuance that leaves the audit table alone. -/
  | otherWrite (statement : String)
  | commit
  /-- A transaction that is dropped before its commit. -/
  | rollback
  deriving DecidableEq

abbrev Reply : Op → Type
  | .isHalted => Bool
  | .setHalted => Unit
  | .recordViolation => UInt32
  | .resetViolations => Unit
  | .lockWrites => Unit
  | .unlockWrites => Unit
  | .now => Timestamp
  | .emitSyslogAlarm _ => Except String Unit
  | .begin => Except String Unit
  | .updateWriterLock => Except String Unit
  | .countRows => Except String Int
  | .oldestIds _ => Except String (List Int)
  | .deleteRow _ => Except String Unit
  | .chainTail => Except String (Option (Option String))
  | .insertRow _ => Except String Unit
  | .otherWrite _ => Except String Unit
  | .commit => Except String Unit
  | .rollback => Unit

structure Env where
  /-- The statement fails with this message. -/
  fault : Option String
  /-- A failed commit was applied all the same. -/
  applied : Bool
  now : Timestamp
  newId : Int

section Exec

variable {W P : Type} [DecidableEq W] [DecidableEq P]

def stmt {α : Type} (e : Env) (s : World W P) (effect : Option (α × World W P)) :
    Option (Except String α × World W P) :=
  match e.fault with
  | some msg => some (.error msg, s)
  | none => effect.map fun r => (.ok r.1, r.2)

def addChange (s : World W P) (w : W) (c : Change) : Option (Unit × World W P) :=
  (s.tx w).map fun tx => ((), s.setTx w (some (tx.add c)))

/-- One step of writer `w` of process `p w`. `none`: the writer has to wait. -/
def exec (p : W → P) (w : W) (e : Env) : (op : Op) → World W P → Option (Reply op × World W P)
  | .isHalted, s => some ((s.procs (p w)).halted, s)
  | .setHalted, s => some ((), s.setProc (p w) fun q => { q with halted := true })
  | .recordViolation, s =>
    some ((s.procs (p w)).violationCount + 1,
      s.setProc (p w) fun q => { q with violationCount := q.violationCount + 1 })
  | .resetViolations, s => some ((), s.setProc (p w) fun q => { q with violationCount := 0 })
  | .lockWrites, s =>
    match (s.procs (p w)).writeLock with
    | none => some ((), s.setProc (p w) fun q => { q with writeLock := some w })
    | some _ => none
  | .unlockWrites, s => some ((), s.setProc (p w) fun q => { q with writeLock := none })
  | .now, s => some (e.now, s)
  | .emitSyslogAlarm _, s => stmt e s (some ((), s))
  | .begin, s => stmt e s (some ((), s.setTx w (some .new)))
  | .updateWriterLock, s =>
    -- another transaction holds the row: wait for its end
    stmt e s (if s.writerLock = none ∨ s.writerLock = some w then
      some ((), { s with writerLock := some w }) else none)
  | .countRows, s => stmt e s (some (((s.view w).rows.length : Int), s))
  | .oldestIds limit, s => stmt e s (some (((s.view w).rows.map AuditRow.id).take limit.toNat, s))
  | .deleteRow id, s => stmt e s (addChange s w (.delete id))
  | .chainTail, s => stmt e s (some ((s.view w).rows.getLast?.map AuditRow.recordHash, s))
  | .insertRow row, s =>
    -- ids increase in insertion order
    stmt e s (if (s.view w).rows.all (fun r => r.id < e.newId) then
      addChange s w (.insert (row.withId e.newId)) else none)
  | .otherWrite what, s =>
    stmt e s ((s.tx w).map fun tx =>
      ((), s.setTx w (some { tx with writes := tx.writes ++ [what] })))
  | .commit, s =>
    (s.tx w).map fun tx =>
      match e.fault with
      | none => (.ok (), s.commit w tx)
      | some msg => (.error msg, if e.applied then s.commit w tx else s.rollback w)
  | .rollback, s => some ((), s.rollback w)

/-- The future of `w` is dropped: its transaction and its guard go with it. -/
def abandon (p : W → P) (w : W) (s : World W P) : World W P :=
  (s.rollback w).setProc (p w) fun q =>
    { q with writeLock := if q.writeLock = some w then none else q.writeLock }

end Exec

end Kipuka.Audit
