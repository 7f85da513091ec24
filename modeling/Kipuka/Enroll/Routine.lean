/-
  The parts of the routes that neither sign nor store.
-/
import Kipuka.Enroll.Signing

namespace Kipuka.Enroll

open Generic Auth
open Coap (CoapError HandlerCall)

def Op.routine : Op → Bool
  | .sign _ => false
  | .issuance _ => false
  | .outside (.insertCertificate _) => false
  | .outside (.signedCmc ..) => false
  | .outside o => !o.issues
  | _ => true

section

variable {α ε : Type}

abbrev Routine (p : Prog Op Reply α) : Prop := Only (fun op => op.routine = true) p

theorem signs_of_routine {op : Op} (h : op.routine = true) : op.signs = false := by
  cases op with
  | sign what => cases h
  | outside o =>
    cases o with
    | insertCertificate | signedCmc => rfl
    | _ => exact (Bool.not_eq_true' _).mp h
  | _ => rfl

theorem Routine.signsNothing {p : Prog Op Reply α} (hp : Routine p) : SignsNothing p :=
  hp.mono fun _ => signs_of_routine

/-! ## What all routes use -/

theorem routine_request {o : Outside} (ho : (Op.outside o).routine = true) : Routine (request o) :=
  only_op ho

theorem routine_admitEnrollment (identity operation : String) :
    Routine (admitEnrollment identity operation) :=
  only_op rfl

theorem routine_recordAuditEvent (eventType detail : String) :
    Routine (recordAuditEvent eventType detail) :=
  only_op rfl

theorem routine_recordDenied (operation caId identity reason : String) :
    Routine (recordDenied operation caId identity reason) :=
  only_op rfl

theorem routine_caProfile (ca : CaState) : Routine (caProfile ca) :=
  only_bind (only_op rfl) fun _ => trivial

theorem routine_denied {p : Prog Op Reply Unit} (hp : Routine p) (c : Bool) (e : KipukaError) :
    Routine (do if c then Prog.lift p
                throw e : Fallible α).run := by
  cases c with
  | true => exact only_seq (only_lift hp) fun _ => trivial
  | false => trivial

end

section Routes

variable (L : EnrollLib) (app : AppState)

/-! ## EST and CMC -/

theorem routine_queueCsr (req : EstRequest) (csrDer : List UInt8) :
    Routine (queueCsr L app req csrDer).run := by
  refine only_seq (only_mapErr (routine_request rfl)) fun _ => ?_
  exact only_seq (only_lift (routine_recordAuditEvent _ _)) fun _ => trivial

theorem routine_recheckRevocation (auth : AuthResult) : Routine (recheckRevocation auth).run := by
  unfold recheckRevocation
  split
  · trivial
  · exact only_mapErr (routine_request rfl)

theorem routine_cmcTruststore (ca : CaState) : Routine (cmcTruststore L app ca).run := by
  unfold cmcTruststore
  split
  · trivial
  · refine only_seq (only_mapErr (routine_request rfl)) fun pem => ?_
    exact only_ofExcept fun certs _ => only_ofExcept fun _ _ => trivial

/-! ## CMS -/

theorem routine_cmsAdmission (req : CmsRequest) (switch : Except KipukaError Unit) :
    Routine (cmsAdmission L app req switch).run := by
  refine only_ofExcept fun config _ => only_ofExcept fun message _ => ?_
  refine only_seq (only_mapErr (routine_request rfl)) fun _ => only_ofExcept fun auth _ => ?_
  exact only_seq (only_mapErr (routine_admitEnrollment _ _)) fun _ => trivial

/-! ## CoAP -/

theorem routine_coapRuntime : Routine coapRuntime.run :=
  only_seq (only_lift (routine_request rfl)) fun _ => trivial

theorem routine_coapAdmission (call : HandlerCall) : Routine (coapAdmission app call).run := by
  refine only_ofExcept fun cert _ => only_ofExcept fun _ _ => ?_
  refine only_seq routine_coapRuntime fun _ => only_seq ?_ fun _ => ?_
  · exact only_mapErr (routine_request rfl)
  · exact only_mapErr (routine_admitEnrollment _ _)

theorem routine_coapFinish (call : HandlerCall) (result : Except CoapError AuditedResponse) :
    Routine (coapFinish call result).run := by
  unfold coapFinish
  split
  · refine only_seq (only_lift (only_bind (routine_request rfl) fun available => ?_)) fun _ => trivial
    split
    · exact routine_request rfl
    · trivial
  · trivial

end Routes

end Kipuka.Enroll
