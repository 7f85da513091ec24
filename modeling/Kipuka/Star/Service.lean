/-
  The STAR requests (`src/routes/star.rs`) and the renewal loop (`src/star/renewal.rs`) as programs.
-/
import Kipuka.Generic.Restart
import Kipuka.Star.Store

namespace Kipuka.Star

open Generic
open Ca (CaValidity IssuanceError IssuanceResult IssueEnv ValidityProfile cabForumMaxValidityDays
  issueTimed)

/-! ## Shared state -/

/-- The process and the database. `config` is the `[star]` section, `manager` is there when STAR is
    enabled, `drawn` are the UUIDs drawn so far. -/
structure Core where
  config : Option StarConfig
  manager : Option StarManager
  db : Db
  drawn : List String

structure World (W : Type) where
  core : Core
  lock : Option W
  dropped : Bool

def Core.initial : Core := ⟨none, none, Db.empty, []⟩

def World.initial (W : Type) : World W := ⟨Core.initial, none, false⟩

/-! ## Operations -/

inductive Op where
  | star
  | now
  | getCa (caId : String)
  | signingKey (caId : String)
  | recordChecked (operator caId : Option String) (detail : String)
  | recordAuditEvent (eventType detail : String)
  | lock
  | unlock
  | createOrder (req : StarManager.NewOrder)
  | issue (csrDer : List UInt8) (profile : ValidityProfile) (ca : CaValidity)
  | commitAdmission (order : StarOrder) (cert : StarCertificate)
  | storeRenewedCertificate (id : String) (cert : StarCertificate)
  | removeOrder (id : String)
  | expiredIds (now : Nat)
  | markExpired (id : String)
  | ordersNeedingRenewalAt (now : Nat)
  | getOrder (id : String)
  | issuerDn (caId : String)
  | persistRenewal (order : StarOrder) (cert : StarCertificate) (dueAt : Nat)
  | commitCancel (id : String) (now : Nat)
  | cancelOrder (id : String)
  | getCurrentCertificate (id : String)

def Reply : Op → Type
  | .star => Except KipukaError StarConfig
  | .now => Nat
  | .getCa _ => Option CaValidity
  | .signingKey _ => Except KipukaError Unit
  | .recordChecked .. => Except KipukaError Unit
  | .recordAuditEvent .. => Unit
  | .lock => Unit
  | .unlock => Unit
  | .createOrder _ => Except StarError StarOrder
  | .issue .. => Except IssuanceError IssuanceResult
  | .commitAdmission .. => Except KipukaError Unit
  | .storeRenewedCertificate .. => Except StarError Unit
  | .removeOrder _ => Unit
  | .expiredIds _ => List String
  | .markExpired _ => Unit
  | .ordersNeedingRenewalAt _ => List String
  | .getOrder _ => Option StarOrder
  | .issuerDn _ => Except String String
  | .persistRenewal .. => Except KipukaError Unit
  | .commitCancel .. => Except KipukaError Unit
  | .cancelOrder _ => Except StarError Unit
  | .getCurrentCertificate _ => Except StarError StarCertificate

structure Env where
  now : Nat
  uuid : String
  ca : Option CaValidity
  issuer : Except String String
  issue : IssueEnv
  /-- The error of an audit write, a signing key or a transaction. -/
  fault : Option KipukaError
  /-- The database's clock. -/
  createdAt : Int
  /-- The order in which the map is walked. -/
  walk : List String

def Env.outcome (e : Env) : Except KipukaError Unit :=
  match e.fault with
  | some err => .error err
  | none => .ok ()

def Env.walked (e : Env) (ids : List String) : List String :=
  if e.walk.Perm ids then e.walk else ids

namespace Core

def transact (c : Core) (e : Env) (r : Except String Db) : Except KipukaError Unit × Core :=
  match e.fault, r with
  | some err, _ => (.error err, c)
  | none, .error msg => (.error (.db msg), c)
  | none, .ok db => (.ok (), { c with db := db })

def update (c : Core) (r : Except StarError StarManager) : Except StarError Unit × Core :=
  match r with
  | .error err => (.error err, c)
  | .ok m => (.ok (), { c with manager := some m })

/-- An operation on the manager. `none` for the operations that do not need it. -/
def onManager (c : Core) (m : StarManager) (e : Env) : (op : Op) → Option (Reply op × Core)
  | .createOrder req =>
    match m.createOrder req e.now e.uuid with
    | .error err => some (.error err, c)
    | .ok (order, m') =>
      if e.uuid ∈ c.drawn then none
      else some (.ok order, { c with manager := some m', drawn := e.uuid :: c.drawn })
  | .storeRenewedCertificate id cert => some (c.update (m.storeRenewedCertificate id cert))
  | .removeOrder id => some ((), { c with manager := some (m.removeOrder id) })
  | .expiredIds now => some (e.walked (m.expiredIds now), c)
  | .markExpired id => some ((), { c with manager := some (m.markExpired id) })
  | .ordersNeedingRenewalAt now => some (e.walked (m.ordersNeedingRenewalAt now), c)
  | .getOrder id => some (m.getOrder id, c)
  | .cancelOrder id => some (c.update (m.cancelOrder id e.now))
  | .getCurrentCertificate id => some (m.getCurrentCertificate id e.now, c)
  | _ => none

def step (c : Core) (e : Env) : (op : Op) → Option (Reply op × Core)
  | .star =>
    match c.config with
    | none => some (.error .notFound, c)
    | some config =>
      if !config.enabled then some (.error .notFound, c)
      else
        match c.manager with
        | none => some (.error (.serviceUnavailable "STAR manager not available"), c)
        | some _ => some (.ok config, c)
  | .now => some (e.now, c)
  | .getCa _ => some (e.ca, c)
  | .signingKey _ => some (e.outcome, c)
  | .recordChecked .. => some (e.outcome, c)
  | .recordAuditEvent .. => some ((), c)
  | .issue _ profile ca => some (issueTimed profile ca e.issue, c)
  | .issuerDn _ => some (e.issuer, c)
  | .commitAdmission order cert => some (c.transact e (c.db.commitAdmission order cert e.createdAt))
  | .persistRenewal order cert dueAt => some (c.transact e (c.db.persistRenewal order cert dueAt))
  | .commitCancel id now => some (c.transact e (.ok (c.db.cancelRow id now)))
  | op => c.manager.bind fun m => c.onManager m e op

end Core

def exec {W : Type} (w : W) (e : Env) (op : Op) (s : World W) : Option (Reply op × World W) :=
  match op with
  | .lock =>
    match s.lock with
    | none => some ((), { s with lock := some w })
    | some _ => none
  | .unlock => some ((), { s with lock := none })
  | op => (s.core.step e op).map fun r => (r.1, { s with core := r.2 })

/-! ## Requests -/

structure StarLib where
  decodeBase64 : List UInt8 → Except String (List UInt8)
  /-- `authorize_csr_der` with the label's policy. -/
  authorizeCsr : List UInt8 → String → Except String Unit
  keyType : List UInt8 → String
  toJson : ValidityProfile → Except String String
  fromJson : String → Except String ValidityProfile
  /-- The body of a response with one certificate. -/
  certsOnly : List UInt8 → Except KipukaError String

structure Response where
  status : Nat
  body : Option String
  starOrderId : Option String
  deriving DecidableEq, Repr

abbrev ask (o : Op) : Prog Op Reply (Reply o) := Prog.op o

abbrev Fallible (α : Type) : Type := ExceptT KipukaError (Prog Op Reply) α

def starErrorToKipuka : StarError → KipukaError
  | .orderNotFound _ => .notFound
  | .orderCancelled id => .badRequest s!"STAR order {id} is cancelled"
  | .orderExpired id => .badRequest s!"STAR order {id} has expired"
  | .maxRenewalsReached orderId max =>
    .badRequest s!"STAR order {orderId} reached maximum renewals ({max})"
  | .maxOrdersReached limit =>
    .serviceUnavailable s!"maximum active STAR orders reached ({limit})"
  | .invalidInterval requested min max =>
    .badRequest s!"renewal interval {requested}s outside allowed range {min}s–{max}s"
  | .issuanceError msg => .ca msg
  | .databaseError msg => .db msg

def parseUnsigned (max : Nat) (s : String) : Option Nat :=
  let digits := match s.toList with
    | '+' :: cs => cs
    | cs => cs
  if digits.isEmpty || !digits.all Char.isDigit then none
  else
    let n := digits.foldl (fun n c => 10 * n + (c.toNat - 48)) 0
    if n ≤ max then some n else none

/-- A `POST` with its label. A header that is not text counts as absent. -/
structure PostRequest where
  identity : String
  caId : String
  maxValidityDays : Option Nat
  starRenewalInterval : Option String
  starLifetime : Option String
  body : List UInt8
  deriving DecidableEq, Repr

def PostRequest.renewalIntervalSecs (req : PostRequest) (config : StarConfig) : Nat :=
  let asked := (req.starRenewalInterval.bind (parseUnsigned 18446744073709551615)).getD
    config.defaultRenewalIntervalSecs
  min (max asked config.minRenewalIntervalSecs) config.maxRenewalIntervalSecs

def PostRequest.lifetimeDays (req : PostRequest) (config : StarConfig) : Nat :=
  let asked := (req.starLifetime.bind (parseUnsigned 4294967295)).getD config.maxLifetimeDays
  min asked config.maxLifetimeDays

section

variable (L : StarLib)

def withLock {α : Type} (p : Prog Op Reply α) : Prog Op Reply α := do
  let _ ← ask .lock
  let a ← p
  let _ ← ask .unlock
  pure a

def PostRequest.csr (req : PostRequest) : Except KipukaError (List UInt8) := do
  let csrDer ← (L.decodeBase64 req.body).mapError fun e => .badRequest s!"CSR decoding failed: {e}"
  if csrDer.length < 60 then .error (.badRequest "CSR is too short to be valid")
  else
    (L.authorizeCsr csrDer req.identity).mapError .forbidden
    .ok csrDer

def PostRequest.profile (req : PostRequest) (config : StarConfig) (ca : CaValidity) (limitNow now : Int) :
    ValidityProfile where
  name := "default"
  maxValidityDays := min (req.maxValidityDays.getD ca.validityDays) (cabForumMaxValidityDays limitNow)
  maxValiditySeconds := some (req.renewalIntervalSecs config)
  maxNotAfter := some (now + days (req.lifetimeDays config))

/-- The block of `post_star_order` whose error removes the provisional order: issue, commit,
    publish. -/
def admitFirst (csrDer : List UInt8) (profile : ValidityProfile) (ca : CaValidity) (order : StarOrder) :
    Fallible IssuanceResult := do
  let result ← Prog.mapErr IssuanceError.toKipuka (ask (.issue csrDer profile ca))
  let firstCert := result.starCertificate 1 order.id
  Prog.mapErr id (ask (.commitAdmission order firstCert))
  Prog.mapErr starErrorToKipuka (ask (.storeRenewedCertificate order.id firstCert))
  pure result

def created (orderId : String) (result : IssuanceResult) : Except KipukaError Response := do
  let body ← L.certsOnly result.certificateDer
  .ok ⟨201, some body, some orderId⟩

def PostRequest.newOrder (req : PostRequest) (config : StarConfig) (csrDer : List UInt8)
    (profileJson : String) : StarManager.NewOrder where
  subjectDn := req.identity
  keyType := L.keyType csrDer
  profile := profileJson
  renewalIntervalSecs := req.renewalIntervalSecs config
  lifetimeDays := req.lifetimeDays config
  caId := req.caId
  csrDer := csrDer
  requestorDn := some req.identity

/-- From `create_order` on: the order is filed before its first certificate is issued, and removed
    again if that fails. -/
def admitOrder (new : StarManager.NewOrder) (profile : ValidityProfile) (ca : CaValidity) :
    Prog Op Reply (Except KipukaError Response) := do
  match ← ask (.createOrder new) with
  | .error e => pure (.error (starErrorToKipuka e))
  | .ok order =>
    match ← (admitFirst new.csrDer profile ca order).run with
    | .ok result => pure (created L order.id result)
    | .error e => do
      let _ ← ask (.removeOrder order.id)
      pure (.error e)

def postLocked (req : PostRequest) (config : StarConfig) (csrDer : List UInt8)
    (profile : ValidityProfile) (ca : CaValidity) : Prog Op Reply (Except KipukaError Response) :=
  match L.toJson profile with
  | .error e => pure (.error (.internal e))
  | .ok profileJson => admitOrder L (req.newOrder L config csrDer profileJson) profile ca

def postStarOrder (req : PostRequest) : Fallible Response := do
  let config : StarConfig ← Prog.mapErr id (ask .star)
  let csrDer ← Prog.ofExcept (req.csr L)
  let found : Option CaValidity ← Prog.lift (ask (.getCa req.caId))
  let ca ← Prog.ofExcept (found.elim (.error .notFound) .ok)
  Prog.mapErr id (ask (.signingKey req.caId))
  let limitNow : Nat ← Prog.lift (ask .now)
  let now : Nat ← Prog.lift (ask .now)
  let profile := req.profile config ca limitNow now
  Prog.mapErr id (ask (.recordChecked (some req.identity) none "STAR admission"))
  let result ← Prog.lift (withLock (postLocked L req config csrDer profile ca))
  Prog.ofExcept result

def getStarCertificate (orderId : String) : Fallible Response := do
  let _ ← Prog.mapErr id (ask .star)
  let found ← Prog.lift (ask (.getCurrentCertificate orderId))
  match found with
  | .ok cert => do
    let body ← Prog.ofExcept (L.certsOnly cert.certificateDer)
    pure ⟨200, some body, none⟩
  | .error (.orderCancelled _) => pure ⟨410, none, none⟩
  | .error (.orderExpired _) => pure ⟨410, none, none⟩
  | .error (.orderNotFound _) => throw .notFound
  | .error e => throw (.internal e.message)

def deleteLocked (identity orderId : String) : Fallible Response := do
  let found ← Prog.lift (ask (.getOrder orderId))
  let order ← Prog.ofExcept (found.elim (.error .notFound) .ok)
  if order.requestorDn ≠ some identity then throw (.forbidden "only the order owner may cancel")
  else do
    let now ← Prog.lift (ask .now)
    Prog.mapErr id (ask (.commitCancel orderId now))
    Prog.mapErr starErrorToKipuka (ask (.cancelOrder orderId))
    Prog.lift (ask (.recordAuditEvent "star_order_cancelled"
      s!"order_id={orderId}, identity={identity}"))
    pure ⟨204, none, none⟩

def deleteStarOrder (identity orderId : String) : Fallible Response := do
  let _ ← Prog.mapErr id (ask .star)
  let result ← Prog.lift (withLock (deleteLocked identity orderId).run)
  Prog.ofExcept result

/-! ## The renewal loop -/

/-- Why an order was not renewed in a cycle: it was passed over, or its renewal failed. -/
inductive Missed where
  | skipped | failed
  deriving DecidableEq, Repr

/-- The body of the loop of `renewal_cycle` for one id; `dueAt` is when the scan found it due. -/
def renewOne (dueAt : Nat) (id : String) : ExceptT Missed (Prog Op Reply) Unit := do
  let found ← Prog.lift (ask (.getOrder id))
  let order ← Prog.ofExcept (found.elim (.error .skipped) .ok)
  if order.status ≠ .active then throw .skipped
  else do
    let found ← Prog.lift (ask (.getCa order.caId))
    let ca ← Prog.ofExcept (found.elim (.error .failed) .ok)
    let stored ← Prog.ofExcept ((L.fromJson order.profile).mapError fun _ => .failed)
    Prog.mapErr (fun _ => .failed)
      (ask (.recordChecked none (some order.caId) s!"STAR renewal for {id}"))
    Prog.mapErr (fun _ => .failed) (ask (.signingKey order.caId))
    let result ← Prog.mapErr (fun _ => .failed)
      (ask (.issue order.csrDer (renewalProfile stored order) ca))
    let cert := result.starCertificate (order.currentRenewals + 1) id
    let _ ← Prog.mapErr (fun _ => .failed) (ask (.issuerDn order.caId))
    Prog.mapErr (fun _ => .failed) (ask (.persistRenewal order cert dueAt))
    Prog.mapErr (fun _ => .failed) (ask (.storeRenewedCertificate id cert))

/-- The loop of `renewal_cycle`: how many were renewed and how many failed. -/
def renewAll (dueAt : Nat) : List String → Prog Op Reply (Nat × Nat)
  | [] => pure (0, 0)
  | id :: ids => do
    let result ← (renewOne L dueAt id).run
    let (renewed, failed) ← renewAll dueAt ids
    match result with
    | .ok () => pure (renewed + 1, failed)
    | .error .failed => pure (renewed, failed + 1)
    | .error .skipped => pure (renewed, failed)

def expireAll : List String → Prog Op Reply Unit
  | [] => pure ()
  | id :: ids => do
    let _ ← ask (.markExpired id)
    let _ ← ask (.removeOrder id)
    expireAll ids

structure CycleReport where
  renewed : Nat
  failed : Nat
  expired : Nat
  deriving DecidableEq, Repr

def cycleLocked : Prog Op Reply CycleReport := do
  let now ← ask .now
  let expired ← ask (.expiredIds now)
  expireAll expired
  let dueAt ← ask .now
  let ids ← ask (.ordersNeedingRenewalAt dueAt)
  let (renewed, failed) ← renewAll L dueAt ids
  pure ⟨renewed, failed, List.length expired⟩

def renewalCycle : Prog Op Reply CycleReport := withLock (cycleLocked L)

/-! ## The system -/

inductive Task where
  | post (req : PostRequest)
  | fetch (orderId : String)
  | delete (identity orderId : String)
  | cycle
  deriving DecidableEq, Repr

inductive Result where
  | http (r : Except KipukaError Response)
  | cycle (r : CycleReport)

def taskProg : Task → Prog Op Reply Result
  | .post req => (postStarOrder L req).run >>= fun r => pure (.http r)
  | .fetch orderId => (getStarCertificate L orderId).run >>= fun r => pure (.http r)
  | .delete identity orderId => (deleteStarOrder identity orderId).run >>= fun r => pure (.http r)
  | .cycle => renewalCycle L >>= fun r => pure (.cycle r)

/-- Requests and renewal cycles on threads `W`. Dropping one releases the lock it holds. -/
def starSystem (W : Type) [DecidableEq W] : System W Env Op Task Result (World W) Reply where
  exec := exec
  abandon w s := if s.lock = some w then { s with lock := none, dropped := true } else s
  prog := taskProg L

end

/-! ## Restarts -/

/-- A start of the server: its `[star]` section, which was checked, and what happens in `restore`.
    `K` restricts the configuration. -/
structure Boot (K : StarConfig → Prop) where
  config : Option StarConfig
  accepted : ∀ c, config = some c → c.Accepted ∧ K c
  env : RestoreEnv

/-- The new process (`main`): it restores the orders when STAR is enabled. If that fails there is no
    process. -/
def Core.boot {K : StarConfig → Prop} (b : Boot K) (c : Core) : Core :=
  match b.config.filter (·.enabled) with
  | none => { c with config := b.config, manager := none }
  | some config =>
    match restore b.env config c.db with
    | (db, .ok m) => { c with config := b.config, manager := some m, db := db }
    | (db, .error _) => { c with config := none, manager := none, db := db }

/-- A restart: the tables stay, the manager is rebuilt, and nobody has the lock. -/
def World.boot {W : Type} {K : StarConfig → Prop} (b : Boot K) (s : World W) : World W :=
  ⟨s.core.boot b, none, s.dropped⟩

end Kipuka.Star
