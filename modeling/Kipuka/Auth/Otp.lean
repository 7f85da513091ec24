/-
  HTTP Basic authentication with one-time passwords (`src/auth/otp.rs`) and the revocation of a
  token (`src/routes/admin/otp.rs`).
-/
import Kipuka.Auth.FailureTracker
import Kipuka.Auth.NameMatch
import Kipuka.Inventory.Revoke

namespace Kipuka.Auth.Otp

open Generic
open Inventory (AdminRole requireOperator)

structure OtpLib where
  base64Decode : String → Option (List UInt8)
  sha256 : List UInt8 → List UInt8

/-! ## The token table -/

/-- A row of `otp_tokens`; the columns no modelled statement reads are left out. -/
structure OtpToken where
  id : Int
  tokenHash : String
  entityId : String
  expiresAt : String
  maxUses : Int
  currentUses : Int
  revoked : Bool
  revokedAt : Option String
  deriving DecidableEq, Repr

def OtpToken.key (tk : OtpToken) : String × String := (tk.entityId, tk.tokenHash)

def OtpToken.usable (now : String) (tk : OtpToken) : Bool :=
  !tk.revoked && decide (now < tk.expiresAt) && decide (tk.currentUses < tk.maxUses)

def OtpToken.matches (entityId tokenHash now : String) (tk : OtpToken) : Bool :=
  decide (tk.key = (entityId, tokenHash)) && tk.usable now

structure OtpValidationRow where
  id : Int
  tokenHash : String
  currentUses : Int
  maxUses : Int
  deriving DecidableEq, Repr

def consumeRow (entityId tokenHash now : String) (tk : OtpToken) : OtpToken :=
  if tk.matches entityId tokenHash now then { tk with currentUses := tk.currentUses + 1 } else tk

/-- `UPDATE otp_tokens SET revoked = TRUE, revoked_at = ? WHERE id = ?`. -/
def revokeRow (id : Int) (now : String) (tk : OtpToken) : OtpToken :=
  if tk.id = id then { tk with revoked := true, revokedAt := some now } else tk

/-! ## Operations -/

inductive Op where
  | check (entityId : String)
  | recordFailure (entityId : String)
  | recordSuccess (entityId : String)
  | utcNow
  | findToken (entityId tokenHash now : String)
  | consume (entityId tokenHash now : String)
  | findActive (entityId now : String)
  | revoke (id : Int) (now : String)
  | auditEvent (eventType : String) (actor : Option String) (detail : String)
  deriving DecidableEq, Repr

/-- Replies. A statement replies with the rows it found or changed, or with an error. -/
def Reply : Op → Type
  | .check _ => LockoutStatus
  | .recordFailure _ => LockoutStatus
  | .recordSuccess _ => Unit
  | .utcNow => String
  | .findToken .. => Except String (Option OtpValidationRow)
  | .consume .. => Except String Nat
  | .findActive .. => Except String (Option Int)
  | .revoke .. => Except String Nat
  | .auditEvent .. => Unit

/-- What the environment decides at a step: the monotonic clock of the tracker, the wall clock as a
    text, the table the read pool shows, and whether a statement fails. -/
structure Env where
  instant : Int
  utc : String
  replica : List OtpToken
  dbError : Option String

structure State where
  tokens : List OtpToken
  tracker : FailureTracker
  audit : List (String × Option String × String)

def reading {α : Type} (e : Env) (s : State) (row : α) : Except String α × State :=
  match e.dbError with
  | some msg => (.error msg, s)
  | none => (.ok row, s)

def updating (e : Env) (s : State) (p : OtpToken → Bool) (f : OtpToken → OtpToken) :
    Except String Nat × State :=
  match e.dbError with
  | some msg => (.error msg, s)
  | none => (.ok (s.tokens.countP p), { s with tokens := s.tokens.map f })

def step (e : Env) (op : Op) (s : State) : Reply op × State :=
  match op with
  | .check entityId =>
    let (status, tracker) := s.tracker.check entityId e.instant
    (status, { s with tracker := tracker })
  | .recordFailure entityId =>
    let (status, tracker) := s.tracker.recordFailure entityId e.instant
    (status, { s with tracker := tracker })
  | .recordSuccess entityId =>
    ((), { s with tracker := s.tracker.recordSuccess entityId e.instant })
  | .utcNow => (e.utc, s)
  | .findToken entityId tokenHash now =>
    reading e s ((e.replica.find? (·.matches entityId tokenHash now)).map fun tk =>
      ⟨tk.id, tk.tokenHash, tk.currentUses, tk.maxUses⟩)
  | .consume entityId tokenHash now =>
    updating e s (·.matches entityId tokenHash now) (consumeRow entityId tokenHash now)
  | .findActive entityId now =>
    reading e s ((e.replica.find? fun tk =>
      decide (tk.entityId = entityId) && tk.usable now).map (·.id))
  | .revoke id now => updating e s (fun tk => decide (tk.id = id)) (revokeRow id now)
  | .auditEvent eventType actor detail =>
    ((), { s with audit := s.audit ++ [(eventType, actor, detail)] })

def exec {W : Type} (_ : W) (e : Env) (op : Op) (s : State) : Option (Reply op × State) :=
  some (step e op s)

/-! ## Validation -/

abbrev ask (o : Op) : Prog Op Reply (Reply o) := Prog.op o

section

variable (L : OtpLib) (enabled : Bool)

def hashOf (value : String) : String := hexEncode (L.sha256 (asBytes value))

def databaseError (e : String) : String := s!"database error: {e}"

def consumeOtp (entityId tokenHash now : String) : ExceptT String (Prog Op Reply) Unit := do
  let rowsAffected ← Prog.mapErr databaseError (ask (.consume entityId tokenHash now))
  if rowsAffected = 0 then throw "OTP was consumed by a concurrent request" else pure ()

def validateOtp (entityId otpValue : String) : ExceptT String (Prog Op Reply) Unit :=
  if !enabled then throw "OTP authentication is not enabled"
  else do
    let incomingHash := hashOf L otpValue
    let now ← Prog.lift (ask .utcNow)
    match ← Prog.mapErr databaseError (ask (.findToken entityId incomingHash now)) with
    | none => throw "no valid OTP found for this entity"
    | some row =>
      if asBytes incomingHash ≠ asBytes row.tokenHash then
        throw "no valid OTP found for this entity"
      else consumeOtp entityId incomingHash now

theorem consumeOtp_eq (entityId tokenHash now : String) :
    (consumeOtp entityId tokenHash now).run = .call (.consume entityId tokenHash now) fun reply =>
      match reply with
      | .error msg => .ret (.error (databaseError msg))
      | .ok rows =>
        .ret (if rows = 0 then .error "OTP was consumed by a concurrent request" else .ok ()) := by
  refine congrArg (Prog.call _) (funext fun reply => ?_)
  cases reply with
  | error msg => rfl
  | ok rows =>
    cases rows with
    | zero => rfl
    | succ n => rfl

theorem validateOtp_eq (entityId otpValue : String) :
    (validateOtp L true entityId otpValue).run = .call .utcNow fun now =>
      .call (.findToken entityId (hashOf L otpValue) now) fun found =>
        match found with
        | .error msg => .ret (.error (databaseError msg))
        | .ok none => .ret (.error "no valid OTP found for this entity")
        | .ok (some row) =>
          if asBytes (hashOf L otpValue) ≠ asBytes row.tokenHash then
            .ret (.error "no valid OTP found for this entity")
          else (consumeOtp entityId (hashOf L otpValue) now).run := by
  refine congrArg (Prog.call Op.utcNow) (funext fun now => ?_)
  refine congrArg (Prog.call _) (funext fun found => ?_)
  cases found with
  | error msg => rfl
  | ok row =>
    cases row with
    | none => rfl
    | some row =>
      by_cases hne : asBytes (hashOf L otpValue) ≠ asBytes row.tokenHash
      · exact (if_pos hne).trans (if_pos hne).symm
      · exact (if_neg hne).trans (if_neg hne).symm

def hasActiveOtp (entityId : String) : ExceptT String (Prog Op Reply) Bool := do
  let now ← Prog.lift (ask .utcNow)
  let row ← Prog.mapErr id (ask (.findActive entityId now))
  pure row.isSome

/-! ## The request -/

structure Response where
  status : Nat
  body : String
  wwwAuthenticate : Option String
  retryAfter : Option String
  deriving DecidableEq, Repr

def lockedOutResponse (retryAfter : Nat) : Response where
  status := 429
  body := "too many failed authentication attempts; account temporarily locked"
  wwwAuthenticate := none
  retryAfter :=
    let secs := retryAfter / fromSecs 1 + if retryAfter % fromSecs 1 > 0 then 1 else 0
    some (toString secs)

def unauthorizedResponse (detail : String) : Response where
  status := 401
  body := detail
  wwwAuthenticate := some "Basic realm=\"kipuka-est\", charset=\"UTF-8\""
  retryAfter := none

inductive AuthMethod where
  | mtls | otp | gssapi | cms | none
  deriving DecidableEq, Repr

structure AuthResult where
  identity : String
  method : AuthMethod
  clientCertDer : Option (List UInt8)
  subjectDn : Option String
  subjectAltNames : List String
  extendedKeyUsage : List String
  deriving DecidableEq, Repr

def headerToStr (value : List UInt8) : Option String :=
  if value.all fun b => (32 ≤ b && b < 127) || b = 9 then fromUtf8 value else none

def withoutPrefix (front s : String) : Option String :=
  if front.toList <+: s.toList then some (String.ofList (s.toList.drop front.length)) else none

/-- The first half of `try_extract_otp`: `none` when there is no Basic header. -/
def basicCredentials (authorization : Option (List UInt8)) :
    Option (Except Response (String × String)) := do
  let authHeader ← headerToStr (← authorization)
  let credentialsB64 ← withoutPrefix "Basic " authHeader
  some do
    let decoded ← (L.base64Decode credentialsB64).elim
      (.error (unauthorizedResponse "malformed Basic auth encoding")) .ok
    if decoded.contains 0 then
      throw (unauthorizedResponse "Basic auth credentials contain null byte (rejected for security)")
    let credentials ← (fromUtf8 decoded).elim
      (.error (unauthorizedResponse "Basic auth credentials are not valid UTF-8 (RFC 7617 §2.1)")) .ok
    let (entityId, otpValue) ← (splitOnce ':' credentials.toList).elim
      (.error (unauthorizedResponse
        "malformed Basic auth credentials (missing ':' separator, RFC 7617 §2)")) .ok
    if entityId.isEmpty then
      throw (unauthorizedResponse "entity-id must not be empty (RFC 7617 §2)")
    if otpValue.isEmpty then throw (unauthorizedResponse "OTP value must not be empty")
    pure (String.ofList entityId, String.ofList otpValue)

/-- How `try_extract_otp` ends after a failure, by the status of the failure tracker. -/
def refuse (entityId : String) : LockoutStatus → Prog Op Reply Response
  | .lockedOut retryAfter => do
    let secs := retryAfter / fromSecs 1
    let _ ← ask (.auditEvent "auth_lockout" (some entityId)
      s!"entity_id={entityId}, lockout_secs={secs}")
    pure (lockedOutResponse retryAfter)
  | .allowed => pure (unauthorizedResponse "OTP authentication failed")

def failedAttempt (entityId reason : String) : Prog Op Reply Response := do
  let _ ← ask (.auditEvent "otp_auth_failure" (some entityId)
    s!"entity_id={entityId}, reason={reason}")
  let track := (← (hasActiveOtp entityId).run).toOption.getD false
  let status ← if track then ask (.recordFailure entityId) else pure LockoutStatus.allowed
  refuse entityId status

theorem failedAttempt_eq (entityId reason : String) :
    failedAttempt entityId reason =
      .call (.auditEvent "otp_auth_failure" (some entityId) s!"entity_id={entityId}, reason={reason}")
        fun _ => .call .utcNow fun now => .call (.findActive entityId now) fun found =>
          match found with
          | .ok (some _) => .call (.recordFailure entityId) fun status => refuse entityId status
          | _ => refuse entityId .allowed := by
  refine congrArg (Prog.call _) (funext fun _ => congrArg (Prog.call _) (funext fun now => ?_))
  refine congrArg (Prog.call _) (funext fun found => ?_)
  cases found with
  | error msg => rfl
  | ok row =>
    cases row with
    | none => rfl
    | some id => rfl

/-- The second half of `try_extract_otp`: a locked identity is refused before its password is looked
    at. -/
def authenticate (entityId otpValue : String) : Prog Op Reply (Except Response AuthResult) := do
  match ← ask (.check entityId) with
  | .lockedOut retryAfter => pure (.error (lockedOutResponse retryAfter))
  | .allowed =>
    match ← (validateOtp L enabled entityId otpValue).run with
    | .ok () =>
      let _ ← ask (.recordSuccess entityId)
      pure (.ok ⟨entityId, .otp, none, none, [], []⟩)
    | .error reason => do
      let refusal ← failedAttempt entityId reason
      pure (.error refusal)

def tryExtractOtp (authorization : Option (List UInt8)) :
    Prog Op Reply (Option (Except Response AuthResult)) :=
  match basicCredentials L authorization with
  | none => pure none
  | some (.error refusal) => pure (some (.error refusal))
  | some (.ok (entityId, otpValue)) => do
    let result ← authenticate L enabled entityId otpValue
    pure (some result)

end

/-! ## Revocation -/

def parseI64 (s : String) : Option Int :=
  let digits (negative : Bool) (cs : List Char) : Option Int :=
    if cs.isEmpty || !cs.all Char.isDigit then none
    else
      let n : Int := cs.foldl (fun n c => 10 * n + (c.toNat - 48)) 0
      let n := if negative then -n else n
      if -9223372036854775808 ≤ n ∧ n ≤ 9223372036854775807 then some n else none
  match s.toList with
  | '-' :: cs => digits true cs
  | '+' :: cs => digits false cs
  | cs => digits false cs

def revokeOtp (enabled : Bool) (role : AdminRole) (id : String) : Prog Op Reply Inventory.Response :=
  match requireOperator role with
  | some refusal => pure refusal
  | none =>
    if !enabled then
      pure ⟨400, some "otp_disabled", some "OTP authentication is not enabled"⟩
    else
      match parseI64 id with
      | none => pure ⟨400, some "invalid_id", some "OTP id must be a valid integer"⟩
      | some otpId => do
        let now ← ask .utcNow
        match ← ask (.revoke otpId now) with
        | .error _ => pure ⟨500, some "storage_error", some "Failed to revoke OTP"⟩
        | .ok rowsAffected =>
          if rowsAffected = 0 then pure ⟨404, some "not_found", some "OTP not found"⟩
          else do
            let _ ← ask (.auditEvent "otp_revoked" none s!"otp_id={id}")
            pure ⟨204, none, none⟩

/-! ## A small instance -/

def plainLib : OtpLib where
  base64Decode s := some (asBytes s)
  sha256 bs := bs

def oneUse : OtpToken := ⟨7, hashOf plainLib "p", "dev", "2027", 1, 0, false, none⟩

end Kipuka.Auth.Otp
