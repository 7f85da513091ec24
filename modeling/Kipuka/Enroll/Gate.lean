/-
  All requests that can end in a certificate, the renewal cycle of STAR orders, and the gate in
  front of the signer.
-/
import Kipuka.Enroll.Client
import Kipuka.Enroll.Cmp
import Kipuka.Generic.Gate
import Kipuka.Star.Tasks

namespace Kipuka.Enroll

open Generic Auth
open Audit (AuditEvent AuditEventType Part)
open Coap (CoapError EstResponse HandlerCall)
open Keygen (decodeEstBase64)
open Kipuka.Star (StarCertificate StarOrder)

/-! ## STAR orders -/

def starEvent (operator caId : Option String) (detail : String) : AuditEvent :=
  { (AuditEvent.new .enrollRequest).withDetail detail with operator := operator, caId := caId }

def admissionParts (order : StarOrder) (cert : StarCertificate) : List Part :=
  [.statement "INSERT INTO star_orders", .statement "INSERT INTO star_certificates",
   .statement "INSERT INTO certificates",
   .event order.caId (s!"STAR order={order.id}, identity={order.subjectDn}, " ++
     s!"serial={cert.serialNumber}")]

def renewalParts (order : StarOrder) (cert : StarCertificate) : List Part :=
  [.statement "UPDATE star_orders", .statement "INSERT INTO star_certificates",
   .statement "INSERT INTO certificates",
   .event order.caId (s!"STAR renewal #{cert.renewalNumber} for order {order.id}, " ++
     s!"serial={cert.serialNumber}")]

def failureError : Audit.Failure → KipukaError
  | .refused e => e
  | .failed e => e

def transaction (parts : List Part) : Prog Op Reply (Except KipukaError Unit) := do
  let result ← ask (.issuance parts)
  pure (result.mapError failureError)

def starOp : (o : Star.Op) → Prog Op Reply (Star.Reply o)
  | .recordChecked operator caId detail => ask (.recordChecked (starEvent operator caId detail))
  | .recordAuditEvent eventType detail => recordAuditEvent eventType detail
  | .issue csrDer profile ca => ask (.sign (.star csrDer profile ca))
  | .commitAdmission order cert => transaction (admissionParts order cert)
  | .persistRenewal order cert _ => transaction (renewalParts order cert)
  | o => request (.star o)

def starLib (L : EnrollLib) (policy : EnrollAuthzPolicy) : Star.StarLib :=
  { L.star with
    decodeBase64 := decodeEstBase64 L.crypto
    authorizeCsr := fun csrDer identity => authorizeCsrDer L.toCsrLib csrDer identity policy
    keyType := fun csrDer => keyTypeDebug (Keygen.detectKeyTypeFromCsr L.crypto csrDer)
    certsOnly := fun der => (L.crypto.certsOnlyPkcs7 der).map (encodeEstBase64 L) }

/-! ## Requests -/

inductive Request where
  | simpleenroll (req : EstRequest)
  | simplereenroll (req : EstRequest)
  | serverkeygen (req : EstRequest)
  | fullcmc (req : EstRequest)
  | cmsSimpleenroll (req : CmsRequest)
  | cmsSimplereenroll (req : CmsRequest)
  | cmsServerkeygen (req : CmsRequest)
  | cmsFullcmc (req : CmsRequest)
  | cmp (body : List UInt8)
  | coap (call : HandlerCall)
  | star (policy : EnrollAuthzPolicy) (req : Star.PostRequest)

inductive Result where
  | http (r : Except KipukaError Response)
  | coap (r : Except CoapError EstResponse)
  | star (r : Except KipukaError Star.Response)
  | cycle (r : Star.CycleReport)
  | audit (r : Except Audit.Failure Unit)

def resultOf {Op : Type} {Reply : Op → Type} {α : Type} (f : α → Result) (p : Prog Op Reply α) :
    Prog Op Reply Result :=
  p >>= fun a => pure (f a)

def Request.prog (L : CmpLib) (app : AppState) : Request → Prog Op Reply Result
  | .simpleenroll req => resultOf .http (postSimpleenroll L.toEnrollLib app req).run
  | .simplereenroll req => resultOf .http (postSimplereenroll L.toEnrollLib app req).run
  | .serverkeygen req => resultOf .http (postServerkeygen L.toEnrollLib app req).run
  | .fullcmc req => resultOf .http (postFullcmc L.toEnrollLib app req).run
  | .cmsSimpleenroll req => resultOf .http (postCmsSimpleenroll L.toEnrollLib app req).run
  | .cmsSimplereenroll req => resultOf .http (postCmsSimplereenroll L.toEnrollLib app req).run
  | .cmsServerkeygen req => resultOf .http (postCmsServerkeygen L.toEnrollLib app req).run
  | .cmsFullcmc req => resultOf .http (postCmsFullcmc L.toEnrollLib app req).run
  | .cmp body => resultOf .http (postCmp L app body).run
  | .coap call => resultOf .coap (coapHandle L.toEnrollLib app call).run
  | .star policy req =>
    resultOf .star ((Star.postStarOrder (starLib L.toEnrollLib policy) req).run.interp starOp)

/-- What a thread is busy with: a request, a renewal cycle, the renewal of one order in it, or an
    audit write of its own. -/
inductive Job where
  | request (req : Request)
  | cycle
  | renewal (orderId : String)
  | audit (t : Audit.Task)

/-! ## Answers -/

instance : Inhabited KipukaError := ⟨.notFound⟩

instance : Inhabited Keygen.DogtagError := ⟨.noHealthyBackend⟩

instance : Inhabited Star.StarError := ⟨.orderNotFound ""⟩

instance : Inhabited Ca.IssuanceError := ⟨.invalidCsr ""⟩

instance (o : Star.Op) : Nonempty (Star.Reply o) := by
  unfold Star.Reply
  cases o <;> exact inferInstance

instance (o : Keygen.Op) : Nonempty (Keygen.Reply o) := by
  cases o <;> exact inferInstance

instance (o : Inventory.Op) : Nonempty (Inventory.Reply o) := by
  cases o <;> exact inferInstance

/-- Every call can be answered. -/
instance (o : Outside) : Nonempty (Answer o) := by
  cases o <;> exact inferInstance

instance (o : Op) : Nonempty (Reply o) := by
  cases o <;> exact inferInstance

/-! ## The gate -/

def isAdmission (event : AuditEvent) : Bool := event.eventType = .enrollRequest

def succeeded {ε α : Type} : Except ε α → Bool
  | .ok _ => true
  | .error _ => false

def Outside.issues : Outside → Bool
  | .enrollCertificate .. => true
  | .submitCmcRequest _ => true
  | .keygen (.submit _) => true
  | .keygen (.approve ..) => true
  | _ => false

def gateStep (m : Standing Job) : (o : Op) → Reply o → Standing Job
  | .recordChecked event, r => m.admission (isAdmission event && succeeded r)
  | .record _, _ => m.admission false
  | .issuance _, _ => m.admission false
  | .sign _, _ => m.act
  | .outside o, _ => if o.issues then m.act else m

def starStep (m : Standing Job) : (o : Star.Op) → Star.Reply o → Standing Job
  | .recordChecked .., (r : Except KipukaError Unit) => m.admission (succeeded r)
  | .recordAuditEvent .., _ => m.admission false
  | .commitAdmission .., _ => m.admission false
  | .persistRenewal .., _ => m.admission false
  | .issue .., _ => m.act
  | _, _ => m

def cycleStep (m : Standing Job) : (o : Star.Op) → Star.Reply o → Standing Job
  | .getOrder id, _ => .fresh (.renewal id)
  | o, r => starStep m o r

def Gated {α : Type} (p : Prog Op Reply α) : Prop :=
  ∀ j, Obeys gateStep Standing.Intact (fun _ _ => True) p (.fresh j)

variable {α β ε : Type} {j : Job}

theorem keeps_admitted (p : Prog Op Reply α) : Keeps gateStep (.admitted j) p := by
  refine keeps_of_only (Standing.intact_admitted j) (only_of_forall (fun o r => ?_) p)
  cases o with
  | outside o => exact ite_self (Standing.admitted j)
  | _ => rfl

abbrev Early (j : Job) (p : Prog Op Reply α) : Prop :=
  Only (fun o => ∀ r, gateStep (.fresh j) o r = .fresh j) p

theorem admits_admitEnrollment (identity operation : String) :
    Admits gateStep j (admitEnrollment identity operation) := by
  refine obeys_op ?_
  intro r
  cases r with
  | ok _ => exact ⟨Standing.intact_admitted j, rfl⟩
  | error e => exact ⟨Standing.intact_closed, trivial⟩

theorem admits_first {identity operation : String} {g : KipukaError → ε}
    (f : Unit → ExceptT ε (Prog Op Reply) β) :
    Admits gateStep j (Prog.mapErr g (admitEnrollment identity operation) >>= f).run :=
  admits_then (admits_mapErr (admits_admitEnrollment identity operation))
    fun a => keeps_admitted (f a).run

theorem gated_of_admits {p : Prog Op Reply (Except ε α)} (h : ∀ j, Admits gateStep j p) : Gated p :=
  fun j => (h j).mono fun _ _ _ => trivial

theorem gated_of_early {p : Prog Op Reply α} (h : ∀ j, Early j p) : Gated p :=
  fun j => (keeps_of_only (Standing.intact_fresh j) (h j)).mono fun _ _ _ => trivial

theorem gated_resultOf {f : α → Result} {p : Prog Op Reply α} (h : Gated p) : Gated (resultOf f p) :=
  fun j => safe_bind ((h j).mono fun _ _ _ => trivial)

/-! ## EST and CMC -/

section Routes

variable (L : EnrollLib) (app : AppState)

theorem admits_postSimpleenroll (req : EstRequest) :
    Admits gateStep j (postSimpleenroll L app req).run :=
  admits_first _

theorem admits_postSimplereenroll (req : EstRequest) :
    Admits gateStep j (postSimplereenroll L app req).run :=
  admits_after trivial fun _ => admits_first _

theorem admits_postFullcmc (req : EstRequest) : Admits gateStep j (postFullcmc L app req).run :=
  admits_first _

theorem admits_admitTemplate (cfg : Keygen.KeygenConfig) (req : Keygen.KeygenRequest) :
    Admits gateStep j (Prog.interpE keygenOp (Keygen.admitTemplate L.crypto cfg req)).run := by
  refine safe_bind (p := admitEnrollment req.identity "serverkeygen")
    ((admits_admitEnrollment req.identity "serverkeygen").mono ?_)
  intro r m hr
  cases r with
  | error e => trivial
  | ok _ =>
    obtain rfl : m = .admitted j := hr
    refine (keeps_admitted _).mono ?_
    rintro r _ rfl
    cases r with
    | ok csrDer => rfl
    | error e => trivial

theorem admits_postServerkeygen (req : EstRequest) :
    Admits gateStep j (postServerkeygen L app req).run :=
  admits_then (admits_admitTemplate L app.keygenConfig req.keygen) fun _ => keeps_admitted _

/-! ## CMS -/

section

variable (req : CmsRequest) (switch : Except KipukaError Unit)

theorem admits_cmsAdmission : Admits gateStep j (cmsAdmission L app req switch).run := by
  unfold cmsAdmission
  refine admits_after trivial fun config => ?_
  refine admits_after trivial fun message => ?_
  refine admits_after (only_mapErr (only_op fun _ => rfl)) fun _ => ?_
  refine admits_after trivial fun auth => ?_
  exact admits_first _

theorem admits_cms (f : CmsClient → Fallible Response) :
    Admits gateStep j (cmsAdmission L app req switch >>= f).run :=
  admits_then (admits_cmsAdmission L app req switch) fun client => keeps_admitted (f client).run

end

/-! ## CoAP -/

theorem early_coapRuntime : Early j coapRuntime.run :=
  only_ask (only_op fun _ => rfl) fun _ => trivial

theorem admits_coapAdmission (call : HandlerCall) :
    Admits gateStep j (coapAdmission app call).run := by
  unfold coapAdmission
  refine admits_after trivial fun cert => ?_
  refine admits_after trivial fun _ => ?_
  refine admits_after early_coapRuntime fun _ => ?_
  refine admits_after (only_mapErr (only_op fun _ => rfl)) fun _ => ?_
  exact admits_mapErr (admits_admitEnrollment _ _)

theorem early_resolve (label : Option String) : Early j (resolve app label).run :=
  only_resolve (fun _ _ => rfl) label

theorem early_dispatch {call : HandlerCall} (h : enrolls call.operation = false) :
    Early j (dispatch L app call).run := by
  unfold dispatch
  cases hop : call.operation with
  | caCerts =>
    refine only_try (early_resolve app _) fun labelEx => ?_
    exact only_ofExcept fun ca _ => only_ofExcept fun pkcs7 _ => trivial
  | csrAttrs =>
    exact only_try (early_resolve app _) fun labelEx => only_ofExcept fun der _ => trivial
  | simpleEnroll | simpleReenroll | serverKeygen =>
    rw [hop] at h
    cases h

theorem early_coapFinish (call : HandlerCall) (result : Except CoapError AuditedResponse) :
    Early j (coapFinish call result).run := by
  unfold coapFinish
  split
  · refine only_ask ?_ fun _ => trivial
    refine only_bind (only_op fun _ => rfl) fun available => ?_
    split
    · exact only_op fun _ => rfl
    · trivial
  · trivial

theorem gated_coapHandle (call : HandlerCall) : Gated (coapHandle L app call).run := by
  cases h : enrolls call.operation with
  | true =>
    refine gated_of_admits fun j => admits_after trivial fun _ => ?_
    rw [if_pos h]
    exact admits_then (admits_coapAdmission app call) fun _ => keeps_admitted _
  | false =>
    refine gated_of_early fun j => only_ofExcept fun _ _ => ?_
    rw [if_neg (by rw [h]; exact Bool.false_ne_true)]
    exact only_ask (early_dispatch L app h) fun result => early_coapFinish call result

end Routes

/-! ## CMP -/

section

variable (L : CmpLib) (app : AppState)

theorem early_validateCmpSigner (certDer : List UInt8) :
    Early j (validateCmpSigner L app certDer).run := by
  refine only_ofExcept fun _ _ => only_ofExcept fun cert _ => only_ofExcept fun _ _ => ?_
  refine only_ofExcept fun _ _ => only_try (only_op fun _ => rfl) fun revoked => ?_
  exact only_ofExcept fun _ _ => only_mapErr (only_op fun _ => rfl)

theorem early_verifyProtection (config : CmpConfig) (req : CmpRequest) (msg : PkiMessage)
    (part : Protected) : Early j (verifyProtection L app config req msg part).run := by
  unfold verifyProtection
  split
  · unfold verifySignatureProtection
    refine only_ofExcept fun _ _ => only_ofExcept fun ranges _ => only_ofExcept fun _ _ => ?_
    exact early_validateCmpSigner L app _
  · trivial

theorem admits_cmpAdmission (body : List UInt8) :
    Admits gateStep j (cmpAdmission L app body).run := by
  unfold cmpAdmission
  refine admits_after trivial fun parsed => ?_
  refine admits_after (early_verifyProtection L app _ _ _ _) fun _ => ?_
  refine admits_after trivial fun responseType => ?_
  exact admits_first _

theorem admits_postCmp (body : List UInt8) : Admits gateStep j (postCmp L app body).run :=
  admits_then (admits_cmpAdmission L app body) fun _ => keeps_admitted _

end

/-! ## STAR orders -/

variable {m : Standing Job} {o : Star.Op}

theorem obeys_starOp (h : ∀ r, (starStep m o r).Intact) :
    Obeys gateStep Standing.Intact (fun r m' => m' = starStep m o r) (starOp o) m := by
  cases o with
  | commitAdmission | persistRenewal =>
    exact safe_bind (obeys_op fun r => ⟨h (r.mapError failureError), rfl⟩)
  | _ => exact obeys_op fun r => ⟨h r, rfl⟩

theorem obeys_interp_starOp {Q : α → Standing Job → Prop} {p : Prog Star.Op Star.Reply α}
    (h : Obeys starStep Standing.Intact Q p m) :
    Obeys gateStep Standing.Intact Q (p.interp starOp) m := by
  refine safe_interp ?_ h
  intro o Q m hop
  have hcall : ∀ r, (starStep m o r).Intact ∧ Q r (starStep m o r) := Obeys.call hop
  exact (obeys_starOp fun r => (hcall r).1).mono fun r m' hm => hm ▸ (hcall r).2

theorem keeps_star_admitted (p : Prog Star.Op Star.Reply α) : Keeps starStep (.admitted j) p := by
  refine keeps_of_only (Standing.intact_admitted j) (only_of_forall (fun o r => ?_) p)
  cases o <;> rfl

theorem admits_star_recordChecked {step : Standing Job → (o : Star.Op) → Star.Reply o → Standing Job}
    (operator caId : Option String) (detail : String)
    (h : ∀ r : Except KipukaError Unit, step (.fresh j) (.recordChecked operator caId detail) r =
      Standing.admission (succeeded r) (.fresh j)) :
    Admits step j
      (Star.ask (.recordChecked operator caId detail) :
        Prog Star.Op Star.Reply (Except KipukaError Unit)) := by
  refine obeys_op ?_
  intro (r : Except KipukaError Unit)
  rw [h r]
  cases r with
  | ok _ => exact ⟨Standing.intact_admitted j, rfl⟩
  | error e => exact ⟨Standing.intact_closed, trivial⟩

theorem admits_postStarOrder (L : Star.StarLib) (req : Star.PostRequest) :
    Admits starStep j (Star.postStarOrder L req).run := by
  unfold Star.postStarOrder
  refine admits_after (only_mapErr (only_op fun _ => rfl)) fun config => ?_
  refine admits_after trivial fun csrDer => ?_
  refine admits_after (only_lift (only_op fun _ => rfl)) fun found => ?_
  refine admits_after trivial fun ca => ?_
  refine admits_after (only_mapErr (only_op fun _ => rfl)) fun _ => ?_
  refine admits_after (only_lift (only_op fun _ => rfl)) fun limitNow => ?_
  refine admits_after (only_lift (only_op fun _ => rfl)) fun now => ?_
  refine admits_then (admits_mapErr (admits_star_recordChecked _ _ _ fun _ => rfl)) fun _ => ?_
  exact keeps_star_admitted _

/-! ## Renewals -/

theorem obeys_renewOne (L : Star.StarLib) (dueAt : Nat) (id : String) (m : Standing Job) :
    Obeys cycleStep Standing.Intact (fun _ m' => m'.Intact) (Star.renewOne L dueAt id).run m := by
  have hfresh := Standing.intact_fresh (Job.renewal id)
  unfold Star.renewOne
  have hlookup : Obeys cycleStep Standing.Intact (fun _ m' => m' = Standing.fresh (Job.renewal id))
      (Star.ask (.getOrder id)) m := obeys_op fun _ => ⟨hfresh, rfl⟩
  refine safe_seq (A := fun _ m' => m' = Standing.fresh (Job.renewal id)) (B := fun _ _ => False)
    (safe_lift hlookup) ?_ fun _ _ h => h.elim
  rintro found _ rfl
  refine Safe.mono (Obeys.ends_allowed (Q := Ends (fun _ m => m = .admitted (.renewal id))
    fun _ _ => True) ?_ hfresh) fun _ _ h => h.2
  refine admits_after trivial fun order => ?_
  split
  · trivial
  · refine admits_after (only_lift (only_op fun _ => rfl)) fun found => ?_
    refine admits_after trivial fun ca => ?_
    refine admits_after trivial fun stored => ?_
    refine admits_then (admits_mapErr (admits_star_recordChecked _ _ _ fun _ => rfl)) fun _ => ?_
    refine keeps_of_only (Standing.intact_admitted _) ?_
    refine only_try (only_op fun _ => rfl) fun _ => only_try (only_op fun _ => rfl) fun result => ?_
    refine only_try (only_op fun _ => rfl) fun _ => only_try (only_op fun _ => rfl) fun _ => ?_
    exact only_mapErr (only_op fun _ => rfl)

theorem gated_cycle (L : Star.StarLib) :
    Obeys cycleStep Standing.Intact (fun _ _ => True) (Star.renewalCycle L) .closed := by
  have hsteady : Steady (watch cycleStep) (fun m m' => m' = m) (fun _ m' => m'.Intact)
      Star.Op.upkeep Standing.Intact := by
    refine ⟨fun answer o m r m' ho hm he => ?_, fun _ _ hm hsame => hsame ▸ hm⟩
    cases he
    have hstays : cycleStep m o (answer o) = m := by
      cases o <;> trivial
    exact ⟨hstays.symm ▸ hm, hstays.symm ▸ hm⟩
  have hcycle := Star.safe_renewalCycle hsteady
    (fun dueAt id m _ => obeys_renewOne L dueAt id m) Standing.intact_closed
  exact hcycle.mono fun _ _ _ => trivial

/-! ## Every request -/

theorem gated_request (L : CmpLib) (app : AppState) (req : Request) : Gated (req.prog L app) := by
  cases req with
  | simpleenroll req =>
    exact gated_resultOf (gated_of_admits fun j => admits_postSimpleenroll _ _ _)
  | simplereenroll req =>
    exact gated_resultOf (gated_of_admits fun j => admits_postSimplereenroll _ _ _)
  | serverkeygen req =>
    exact gated_resultOf (gated_of_admits fun j => admits_postServerkeygen _ _ _)
  | fullcmc req => exact gated_resultOf (gated_of_admits fun j => admits_postFullcmc _ _ _)
  | cmsSimpleenroll | cmsSimplereenroll | cmsServerkeygen | cmsFullcmc =>
    exact gated_resultOf (gated_of_admits fun j => admits_cms _ _ _ _ _)
  | cmp body => exact gated_resultOf (gated_of_admits fun j => admits_postCmp L app body)
  | coap call => exact gated_resultOf (gated_coapHandle _ _ call)
  | star policy req =>
    exact gated_resultOf
      (gated_of_admits fun j => obeys_interp_starOp (admits_postStarOrder _ req))

end Kipuka.Enroll
