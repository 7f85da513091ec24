/-
  The validator of the crate `kipuka-otp` (`crates/kipuka-otp/src/validate.rs`).
-/
import Kipuka.Generic.Threads
import Kipuka.OtpCrate.Store

namespace Kipuka.OtpCrate

open Generic

/-! ## Operations -/

inductive Op where
  | findByHash (hash : List UInt8)
  | utcNow
  | incrementUses (id : Uuid) (maxUses : Nat)
  | revoke (id : Uuid)
  | cleanupExpired
  deriving DecidableEq, Repr

def Reply : Op → Type
  | .findByHash _ => Except OtpError (Option OtpRecord)
  | .utcNow => Int
  | .incrementUses .. => Except OtpError Unit
  | .revoke _ => Except OtpError Unit
  | .cleanupExpired => Except OtpError Nat

def step (L : OtpLib) (e : Env) (op : Op) (s : Store) : Reply op × Store :=
  match op with
  | .findByHash hash => (s.findByHash L e hash, s)
  | .utcNow => (e.now, s)
  | .incrementUses id maxUses => s.incrementUses e id maxUses
  | .revoke id => s.revoke L e id
  | .cleanupExpired => s.cleanupExpired L e

/-! ## Validation -/

structure ValidationResult where
  entityId : String
  profile : String
  label : String
  remainingUses : Nat
  deriving DecidableEq, Repr

abbrev ask (o : Op) : Prog Op Reply (Reply o) := Prog.op o

def hashToken (L : OtpLib) (plaintext : String) : List UInt8 := L.sha256 (asBytes plaintext)

/-- What `validate` returns for a record whose use was consumed; the count is that of the record as
    it was looked up, and the arithmetic is that of a `u32`. -/
def validationResult (record : OtpRecord) : ValidationResult where
  entityId := record.entityId
  profile := record.profile
  label := record.label
  remainingUses :=
    let newUses := (record.currentUses + 1) % 4294967296
    (record.maxUses + (4294967296 - newUses)) % 4294967296

def consume (L : OtpLib) (record : OtpRecord) :
    ExceptT OtpError (Prog Op Reply) ValidationResult :=
  if record.revoked then throw .revoked
  else do
    let now : Int ← Prog.lift (ask .utcNow)
    if record.expiresAt < now then throw (.expired (L.toRfc3339 record.expiresAt))
    else do
      Prog.mapErr id (ask (.incrementUses record.id record.maxUses))
      pure (validationResult record)

def validate (L : OtpLib) (plaintextToken : String) :
    ExceptT OtpError (Prog Op Reply) ValidationResult := do
  match ← Prog.mapErr id (ask (.findByHash (hashToken L plaintextToken))) with
  | none => throw .notFound
  | some record => consume L record

/-! ## Calls -/

inductive Task where
  | validate (plaintextToken : String)
  | revoke (id : Uuid)
  | cleanupExpired
  deriving DecidableEq, Repr

inductive Res where
  | validated (result : Except OtpError ValidationResult)
  | revoked (result : Except OtpError Unit)
  | cleaned (result : Except OtpError Nat)
  deriving DecidableEq

def prog (L : OtpLib) : Task → Prog Op Reply Res
  | .validate plaintextToken => do
    let result ← (validate L plaintextToken).run
    pure (.validated result)
  | .revoke id => do
    let result ← ask (.revoke id)
    pure (.revoked result)
  | .cleanupExpired => do
    let result ← ask .cleanupExpired
    pure (.cleaned result)

def validations (L : OtpLib) (W : Type) : System W Env Op Task Res Store Reply where
  exec _ e op s := some (step L e op s)
  abandon _ s := s
  prog := prog L

end Kipuka.OtpCrate
