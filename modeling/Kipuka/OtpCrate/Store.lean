/-
  The token stores of the crate `kipuka-otp` (`crates/kipuka-otp/src/store.rs`).
-/
import Kipuka.Generic.Outcome
import Kipuka.Generic.Runtime
import Kipuka.Generic.Text

namespace Kipuka.OtpCrate

open Generic

structure OtpLib where
  sha256 : List UInt8 → List UInt8
  toRfc3339 : Int → String
  parseFromRfc3339 : String → Except String Int
  /-- A text that is no hex text, and a column that is null. -/
  hexError : String
  nullError : String

abbrev Uuid : Type := BitVec 128

inductive OtpError where
  | notFound
  | expired (expiredAt : String)
  | usageLimitExceeded (maxUses : Nat)
  | revoked
  | storageError (msg : String)
  deriving DecidableEq, Repr

structure OtpRecord where
  id : Uuid
  tokenHash : List UInt8
  entityId : String
  label : String
  profile : String
  createdAt : Int
  expiresAt : Int
  maxUses : Nat
  currentUses : Nat
  revoked : Bool
  deriving DecidableEq, Repr

structure Fault where
  msg : String
  applied : Bool
  deriving DecidableEq, Repr

structure Env where
  now : Int
  fault : Option Fault
  deriving DecidableEq, Repr

/-! ## In memory -/

abbrev Records : Type := AList fun _ : Uuid => OtpRecord

namespace Memory

def insert (record : OtpRecord) (records : Records) : Except OtpError Unit × Records :=
  (.ok (), records.insert record.id record)

def findByHash (hash : List UInt8) (records : Records) : Except OtpError (Option OtpRecord) :=
  .ok ((records.entries.find? fun entry => entry.2.tokenHash = hash).map (·.2))

def incrementUses (id : Uuid) (maxUses : Nat) (records : Records) :
    Except OtpError Unit × Records :=
  match records.lookup id with
  | some r =>
    if maxUses ≤ r.currentUses then (.error (.usageLimitExceeded maxUses), records)
    else (.ok (), records.insert id { r with currentUses := r.currentUses + 1 })
  | none => (.error .notFound, records)

def revoke (id : Uuid) (records : Records) : Except OtpError Unit × Records :=
  match records.lookup id with
  | some r => (.ok (), records.insert id { r with revoked := true })
  | none => (.error .notFound, records)

def cleanupExpired (now : Int) (records : Records) : Except OtpError Nat × Records :=
  let kept := records.retain fun _ r => now < r.expiresAt
  (.ok (records.size - kept.size), kept)

end Memory

/-! ## In a database -/

structure OtpRow where
  id : Int
  tokenHash : String
  entityId : String
  label : Option String
  profile : Option String
  createdAt : String
  expiresAt : String
  maxUses : Int
  currentUses : Int
  revoked : Bool
  revokedAt : Option String
  deriving DecidableEq, Repr

structure OtpTable where
  rows : List OtpRow
  nextId : Int

def idToUuid (dbId : Int) : Uuid := BitVec.ofInt 128 dbId

def uuidToId (uuid : Uuid) : Int := (uuid.setWidth 64).toInt

def asI32 (n : Nat) : Int := (BitVec.ofNat 32 n).toInt

def asU32 (n : Int) : Nat := (BitVec.ofInt 32 n).toNat

namespace Database

variable (L : OtpLib)

def execute {α : Type} (e : Env) (what : String) (table : OtpTable) (result : α)
    (table' : OtpTable) : Except OtpError α × OtpTable :=
  match e.fault with
  | some f =>
    (.error (.storageError s!"{what} failed: {f.msg}"), if f.applied then table' else table)
  | none => (.ok result, table')

/-- A statement that changes the rows for which `p` holds; it returns their number. -/
def update (e : Env) (what : String) (p : OtpRow → Bool) (f : OtpRow → OtpRow)
    (table : OtpTable) : Except OtpError Nat × OtpTable :=
  execute e what table (table.rows.countP p)
    { table with rows := table.rows.map fun row => if p row then f row else row }

def insert (e : Env) (record : OtpRecord) (table : OtpTable) : Except OtpError Unit × OtpTable :=
  execute e "insert" table () ⟨table.rows ++ [{
      id := table.nextId
      tokenHash := hexEncode record.tokenHash
      entityId := record.entityId
      label := some record.label
      profile := some record.profile
      createdAt := L.toRfc3339 record.createdAt
      expiresAt := L.toRfc3339 record.expiresAt
      maxUses := asI32 record.maxUses
      currentUses := 0
      revoked := false
      revokedAt := none }], table.nextId + 1⟩

def record (row : OtpRow) : Except OtpError OtpRecord := do
  let label ← okOrElse (.storageError s!"find_by_hash query failed: {L.nullError}") row.label
  let profile ← okOrElse (.storageError s!"find_by_hash query failed: {L.nullError}") row.profile
  let tokenHash ← okOrElse (.storageError s!"invalid hex in token_hash: {L.hexError}")
    (hexDecode row.tokenHash)
  let createdAt ← (L.parseFromRfc3339 row.createdAt).mapError fun e =>
    .storageError s!"invalid created_at: {e}"
  let expiresAt ← (L.parseFromRfc3339 row.expiresAt).mapError fun e =>
    .storageError s!"invalid expires_at: {e}"
  pure ⟨idToUuid row.id, tokenHash, row.entityId, label, profile, createdAt, expiresAt,
    asU32 row.maxUses, asU32 row.currentUses, row.revoked⟩

def findRow (hash : List UInt8) (table : OtpTable) : Option OtpRow :=
  table.rows.find? fun row => row.tokenHash = hexEncode hash && !row.revoked

def findByHash (e : Env) (hash : List UInt8) (table : OtpTable) :
    Except OtpError (Option OtpRecord) :=
  match e.fault with
  | some f => .error (.storageError s!"find_by_hash query failed: {f.msg}")
  | none =>
    match findRow hash table with
    | none => .ok none
    | some row => (record L row).map some

def incrementUses (e : Env) (id : Uuid) (maxUses : Nat) (table : OtpTable) :
    Except OtpError Unit × OtpTable :=
  let (rowsAffected, table') := update e "increment_uses"
    (fun row => row.id = uuidToId id && row.currentUses < asI32 maxUses)
    (fun row => { row with currentUses := row.currentUses + 1 }) table
  (rowsAffected >>= fun n => refuseIf (n = 0) (.usageLimitExceeded maxUses), table')

def revoke (e : Env) (id : Uuid) (table : OtpTable) : Except OtpError Unit × OtpTable :=
  let (rowsAffected, table') := update e "revoke" (fun row => row.id = uuidToId id)
    (fun row => { row with revoked := true, revokedAt := some (L.toRfc3339 e.now) }) table
  (rowsAffected >>= fun n => refuseIf (n = 0) .notFound, table')

def cleanupExpired (e : Env) (table : OtpTable) : Except OtpError Nat × OtpTable :=
  let expired (row : OtpRow) : Bool := row.expiresAt < L.toRfc3339 e.now
  execute e "cleanup_expired" table (table.rows.countP expired)
    { table with rows := table.rows.filter fun row => !expired row }

end Database

/-! ## A store -/

inductive Store where
  | memory (records : Records)
  | database (table : OtpTable)

namespace Store

variable (L : OtpLib)

def insert (e : Env) (record : OtpRecord) : Store → Except OtpError Unit × Store
  | memory records =>
    let r := Memory.insert record records
    (r.1, memory r.2)
  | database table =>
    let r := Database.insert L e record table
    (r.1, database r.2)

def findByHash (e : Env) (hash : List UInt8) : Store → Except OtpError (Option OtpRecord)
  | memory records => Memory.findByHash hash records
  | database table => Database.findByHash L e hash table

def incrementUses (e : Env) (id : Uuid) (maxUses : Nat) : Store → Except OtpError Unit × Store
  | memory records =>
    let r := Memory.incrementUses id maxUses records
    (r.1, memory r.2)
  | database table =>
    let r := Database.incrementUses e id maxUses table
    (r.1, database r.2)

def revoke (e : Env) (id : Uuid) : Store → Except OtpError Unit × Store
  | memory records =>
    let r := Memory.revoke id records
    (r.1, memory r.2)
  | database table =>
    let r := Database.revoke L e id table
    (r.1, database r.2)

def cleanupExpired (e : Env) : Store → Except OtpError Nat × Store
  | memory records =>
    let r := Memory.cleanupExpired e.now records
    (r.1, memory r.2)
  | database table =>
    let r := Database.cleanupExpired L e table
    (r.1, database r.2)

end Store

end Kipuka.OtpCrate
