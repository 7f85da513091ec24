/-
  Disconnected mode: `[est] disconnected`, or the setting of the label where it has one. A request
  under such a label is to wait: to be queued, or to be refused.

  * `request_waits`: the handlers that read the mode, and the one that refuses anyway, let every
    request wait, whatever is answered to it.
  * `signed_offline`: on each of the other five routes, a request is signed at once.
  * `disconnected_signs_nothing_iff`: so the routes that keep the mode are exactly the first ones.

  The clients are authenticated and the labels resolved before; CMP and STAR are no EST transports.
-/
import Kipuka.Enroll.CmcSigner

namespace Kipuka.Enroll

open Generic Auth
open Coap (HandlerCall)

/-! ## The mode of a request -/

abbrev AppState.disconnectedFor (app : AppState) (label : LabelExtractor) : Bool :=
  label.disconnected.getD app.est.disconnected

/-- The effective setting of the label under a name, as the configuration has it. -/
def AppState.disconnectedAt (app : AppState) (labelName : Option String) : Bool :=
  match labelName.filter fun name => !name.isEmpty with
  | none => app.est.disconnected
  | some name =>
    ((app.est.labels.find? fun label => label.name = name).bind (·.disconnected)).getD
      app.est.disconnected

variable {h : List (Answered Op Reply)}

theorem disconnectedFor_resolve {app : AppState} {labelName : Option String}
    {label : LabelExtractor} (hresolve : Ended (resolve app labelName).run h (.ok label)) :
    app.disconnectedFor label = app.disconnectedAt labelName := by
  unfold AppState.disconnectedAt
  rcases ended_resolve hresolve with ⟨hname, rfl⟩ | ⟨name, config, caId, hname, hconfig, rfl⟩
  · simp only [hname]
    rfl
  · simp only [hname, hconfig]
    rfl

/-- Requests under a label in disconnected mode. CMP and STAR are no EST transports. -/
def Request.disconnected (app : AppState) : Request → Bool
  | .simpleenroll req | .simplereenroll req | .serverkeygen req | .fullcmc req =>
    app.disconnectedFor req.label
  | .cmsSimpleenroll req | .cmsSimplereenroll req | .cmsServerkeygen req | .cmsFullcmc req =>
    app.disconnectedFor req.label
  | .coap call => app.disconnectedAt call.label
  | .cmp _ | .star .. => false

/-- The enrollment routes of the EST transports. -/
inductive EstRoute where
  | simpleenroll | simplereenroll | serverkeygen | fullcmc
  | cmsSimpleenroll | cmsSimplereenroll | cmsServerkeygen | cmsFullcmc
  | coapSimpleenroll | coapSimplereenroll | coapServerkeygen
  deriving DecidableEq, Repr

def Request.route : Request → Option EstRoute
  | .simpleenroll _ => some .simpleenroll
  | .simplereenroll _ => some .simplereenroll
  | .serverkeygen _ => some .serverkeygen
  | .fullcmc _ => some .fullcmc
  | .cmsSimpleenroll _ => some .cmsSimpleenroll
  | .cmsSimplereenroll _ => some .cmsSimplereenroll
  | .cmsServerkeygen _ => some .cmsServerkeygen
  | .cmsFullcmc _ => some .cmsFullcmc
  | .coap call =>
    match call.operation with
    | .simpleEnroll => some .coapSimpleenroll
    | .simpleReenroll => some .coapSimplereenroll
    | .serverKeygen => some .coapServerkeygen
    | .caCerts | .csrAttrs => none
  | .cmp _ | .star .. => none

/-- The routes whose handlers look at the mode, or refuse anyway. -/
def EstRoute.heedsMode : EstRoute → Bool
  | .simplereenroll | .serverkeygen | .fullcmc | .coapSimpleenroll | .coapSimplereenroll => false
  | .simpleenroll | .cmsSimpleenroll | .cmsSimplereenroll | .cmsServerkeygen | .cmsFullcmc
  | .coapServerkeygen => true

/-- The request ended with an error, or with the answer to a CSR that is put into the queue. -/
def Waits (app : AppState) (h : List (Answered Op Reply)) (r : Result) : Prop :=
  (∃ e, r = .http (.error e)) ∨ (∃ e, r = .coap (.error e)) ∨
    r = .http (.ok (acceptedResponse app.est.disconnectedRetryAfterSecs)) ∧
      ∃ row : PendingCsr, ⟨.outside (.insertPendingCsr row), .ok ()⟩ ∈ h

section Handlers

variable (L : EnrollLib) {app : AppState}

/-! ## `/simpleenroll` -/

variable {req : EstRequest}

theorem signsNothing_postSimpleenroll (hmode : app.disconnectedFor req.label = true) :
    SignsNothing (postSimpleenroll L app req).run := by
  refine only_seq (only_mapErr (routine_admitEnrollment _ _).signsNothing) fun _ => ?_
  refine only_ofExcept fun csrDer _ => ?_
  split
  · exact (routine_denied (routine_recordDenied _ _ _ _) _ _).signsNothing
  · rw [if_pos hmode]
    exact (routine_queueCsr L app req csrDer).signsNothing

theorem ended_queueCsr {csrDer : List UInt8} {response : Response}
    (hend : Ended (queueCsr L app req csrDer).run h (.ok response)) :
    response = acceptedResponse app.est.disconnectedRetryAfterSecs ∧
      ∃ row : PendingCsr, ⟨.outside (.insertPendingCsr row), .ok ()⟩ ∈ h := by
  obtain ⟨h₁, h₂, _, rfl, hinsert, hrest⟩ := ended_seq_ok.mp hend
  obtain ⟨_, _, _, rfl, -, hret⟩ := ended_seq_ok.mp hrest
  obtain ⟨-, hresponse⟩ := ended_pure.mp hret
  cases hresponse
  obtain ⟨r, hcall, hok⟩ := ended_mapErr.mp hinsert
  obtain rfl := ended_op.mp hcall
  cases r with
  | error e => cases hok
  | ok u => exact ⟨rfl, _, List.mem_append_left _ List.mem_cons_self⟩

theorem ended_postSimpleenroll (hmode : app.disconnectedFor req.label = true) {response : Response}
    (hend : Ended (postSimpleenroll L app req).run h (.ok response)) :
    response = acceptedResponse app.est.disconnectedRetryAfterSecs ∧
      ∃ row : PendingCsr, ⟨.outside (.insertPendingCsr row), .ok ()⟩ ∈ h := by
  obtain ⟨h₁, h₂, _, rfl, -, hrest⟩ := ended_seq_ok.mp hend
  obtain ⟨h₃, h₄, csrDer, rfl, -, hrest⟩ := ended_seq_ok.mp hrest
  split at hrest
  · split at hrest
    · obtain ⟨_, _, _, -, -, hthrow⟩ := ended_seq_ok.mp hrest
      cases (ended_throw.mp hthrow).2
    · cases (ended_throw.mp hrest).2
  · rw [if_pos hmode] at hrest
    obtain ⟨hresponse, row, hrow⟩ := ended_queueCsr L hrest
    exact ⟨hresponse, row, List.mem_append_right _ (List.mem_append_right _ hrow)⟩

/-! ## CMS-wrapped EST -/

variable {req : CmsRequest} (hmode : app.disconnectedFor req.label = true)
  (switch : Except KipukaError Unit)

include hmode

theorem cmsPreconditions_disconnected (config : CmsEstConfig) :
    cmsPreconditions app req switch ≠ .ok config := by
  intro hok
  obtain ⟨_, -, hok⟩ := except_bind_eq_ok.mp hok
  obtain ⟨hconnected, -⟩ := refuseIf_bind_eq_ok.mp hok
  exact Bool.false_ne_true (hconnected.symm.trans hmode)

theorem cms_refuses (f : CmsClient → Fallible Response) :
    ∃ e, (cmsAdmission L app req switch >>= f).run = .ret (.error e) := by
  cases hpre : cmsPreconditions app req switch with
  | ok config => exact absurd hpre (cmsPreconditions_disconnected hmode switch config)
  | error e =>
    refine ⟨e, ?_⟩
    unfold cmsAdmission
    rw [hpre]
    rfl

end Handlers

/-! ## Key generation over CoAP -/

section Coap

variable (L : EnrollLib) (app : AppState) {call : HandlerCall}
  (hop : call.operation = .serverKeygen)

include hop

theorem coapHandle_serverKeygen : coapHandle L app call = (do
      Prog.ofExcept (knownLabel app call.label)
      coapAdmission app call
      throw (.internal "server key generation not yet implemented for CoAP transport")) := by
  have hdispatch : dispatch L app call =
      throw (.internal "server key generation not yet implemented for CoAP transport") := by
    rw [dispatch, hop]
  have haudit : ∀ err, coapAudit call.operation (.error err) = none := by
    intro err
    rw [hop]
    rfl
  have henrolls : enrolls call.operation = true := by
    rw [hop]
    rfl
  unfold coapHandle
  rw [hdispatch]
  simp only [henrolls, if_true]
  congr 1
  funext _
  congr 1
  funext _
  show coapFinish call (.error _) = _
  rw [coapFinish, haudit]
  rfl

theorem signsNothing_coapHandle : SignsNothing (coapHandle L app call).run := by
  rw [coapHandle_serverKeygen L app hop]
  refine only_ofExcept fun _ _ => ?_
  exact only_seq (routine_coapAdmission app call).signsNothing fun _ => trivial

theorem ended_coapHandle {r : Except Coap.CoapError Coap.EstResponse}
    (hend : Ended (coapHandle L app call).run h r) : ∃ e, r = .error e := by
  rw [coapHandle_serverKeygen L app hop] at hend
  cases r with
  | error e => exact ⟨e, rfl⟩
  | ok response =>
    obtain ⟨_, _, _, -, -, hrest⟩ := ended_seq_ok.mp hend
    obtain ⟨_, _, _, -, -, hthrow⟩ := ended_seq_ok.mp hrest
    cases (ended_throw.mp hthrow).2

end Coap

/-! ## All requests -/

section Requests

variable {L : CmpLib} {app : AppState}

theorem cms_waits {req : CmsRequest} (hmode : app.disconnectedFor req.label = true)
    (switch : Except KipukaError Unit) (f : CmsClient → Fallible Response) :
    SignsNothing (resultOf .http (cmsAdmission L.toEnrollLib app req switch >>= f).run) ∧
      ∀ h r, Ended (resultOf .http (cmsAdmission L.toEnrollLib app req switch >>= f).run) h r →
        Waits app h r := by
  obtain ⟨e, he⟩ := cms_refuses L.toEnrollLib hmode switch f
  rw [he]
  refine ⟨trivial, fun h r hend => ?_⟩
  obtain ⟨a, ha, rfl⟩ := ended_resultOf.mp hend
  obtain ⟨-, rfl⟩ := ended_ret.mp ha
  exact .inl ⟨e, rfl⟩

theorem request_waits {req : Request} (hmode : req.disconnected app = true) {route : EstRoute}
    (hroute : req.route = some route) (hheeds : route.heedsMode = true) :
    SignsNothing (req.prog L app) ∧ ∀ h r, Ended (req.prog L app) h r → Waits app h r := by
  cases req with
  | simpleenroll req =>
    refine ⟨signsNothing_resultOf (signsNothing_postSimpleenroll _ hmode), fun h r hend => ?_⟩
    obtain ⟨a, ha, rfl⟩ := ended_resultOf.mp hend
    cases a with
    | error e => exact .inl ⟨e, rfl⟩
    | ok response =>
      obtain ⟨rfl, hrow⟩ := ended_postSimpleenroll _ hmode ha
      exact .inr (.inr ⟨rfl, hrow⟩)
  | cmsSimpleenroll | cmsSimplereenroll | cmsServerkeygen | cmsFullcmc => exact cms_waits hmode _ _
  | coap call =>
    have hop : call.operation = .serverKeygen := by
      cases hcall : call.operation with
      | serverKeygen => rfl
      | _ =>
        simp only [Request.route, hcall] at hroute
        cases hroute <;> cases hheeds
    refine ⟨signsNothing_resultOf (signsNothing_coapHandle _ app hop), fun h r hend => ?_⟩
    obtain ⟨a, ha, rfl⟩ := ended_resultOf.mp hend
    obtain ⟨e, rfl⟩ := ended_coapHandle _ app hop ha
    exact .inr (.inl ⟨e, rfl⟩)
  | simplereenroll | serverkeygen | fullcmc =>
    cases hroute
    cases hheeds
  | cmp | star => cases hroute

end Requests

/-! ### A server in disconnected mode -/

def offlineApp : AppState :=
  { cmcApp with est := { cmcApp.est with serverkeygen := true, disconnected := true } }

def aliceRequest : EstRequest where
  auth := ⟨"CN=alice", .mtls, none, some "CN=alice", []⟩
  label := offlineApp.defaultLabel
  body := List.replicate 60 0x41

/-- A CMC message by its client. -/
def raRequest : EstRequest :=
  ⟨mtlsClient (cmcLib true) Replay.raCert, offlineApp.defaultLabel, asBytes "message"⟩

def overCoapOf (operation : Coap.EstOperation) : Request :=
  .coap ⟨operation, none, List.replicate 60 0x41, none, some ⟨"CN=alice", [1], [0x30]⟩⟩

def raLib : CmpLib := { plainLib with toEnrollLib := cmcLib true }

def offlineCase : EstRoute → CmpLib × Request
  | .simplereenroll => (aliceLib, .simplereenroll aliceRequest)
  | .serverkeygen => (aliceLib, .serverkeygen aliceRequest)
  | .fullcmc => (raLib, .fullcmc raRequest)
  | .coapSimplereenroll => (aliceLib, overCoapOf .simpleReenroll)
  | _ => (aliceLib, overCoapOf .simpleEnroll)

def offlineAnswers : (o : Op) → Option (Reply o)
  | .outside (.readFile _) => some (.ok [])
  | o => nothingFails o

/-- The label of the request is in disconnected mode, and a play of the request signs. -/
def SignedOffline (L : CmpLib) (req : Request) : Prop :=
  req.disconnected offlineApp = true ∧
    ∃ h q, Plays (req.prog L offlineApp) h q ∧ ∃ call ∈ h, call.1.signs = true

theorem signed_offline (route : EstRoute) (hroute : route.heedsMode = false) :
    (offlineCase route).2.route = some route ∧
      SignedOffline (offlineCase route).1 (offlineCase route).2 := by
  have hany : ((offlineCase route).2.prog (offlineCase route).1 offlineApp |>.playBy
      offlineAnswers).1.any (fun call => call.1.signs) = true := by
    cases route with
    | simplereenroll | serverkeygen | fullcmc | coapSimpleenroll | coapSimplereenroll =>
      decide +kernel
    | _ => cases hroute
  have hmode : (offlineCase route).2.route = some route ∧
      (offlineCase route).2.disconnected offlineApp = true := by
    cases route with
    | simplereenroll | serverkeygen | fullcmc | coapSimpleenroll | coapSimplereenroll =>
      exact ⟨rfl, rfl⟩
    | _ => cases hroute
  exact ⟨hmode.1, hmode.2, _, _, plays_playBy offlineAnswers _, List.any_eq_true.mp hany⟩

/-- Re-enrollment, key generation and CMC over HTTP, enrollment and re-enrollment over CoAP. -/
theorem disconnected_signs :
    SignedOffline aliceLib (.simplereenroll aliceRequest) ∧
      SignedOffline aliceLib (.serverkeygen aliceRequest) ∧
      SignedOffline raLib (.fullcmc raRequest) ∧
      SignedOffline aliceLib (overCoapOf .simpleEnroll) ∧
      SignedOffline aliceLib (overCoapOf .simpleReenroll) :=
  ⟨(signed_offline .simplereenroll rfl).2, (signed_offline .serverkeygen rfl).2,
    (signed_offline .fullcmc rfl).2, (signed_offline .coapSimpleenroll rfl).2,
    (signed_offline .coapSimplereenroll rfl).2⟩

/-- On every server, under every label in disconnected mode and whatever is answered, the requests of
    a route are not signed while they are handled, and are refused or queued at their end, exactly if
    the route heeds the mode. -/
theorem disconnected_signs_nothing_iff (route : EstRoute) :
    (∀ (L : CmpLib) (app : AppState) (req : Request), req.route = some route →
      req.disconnected app = true → ∀ h q, Plays (req.prog L app) h q →
        (∀ call ∈ h, call.1.signs = false) ∧ ∀ r, q = .ret r → Waits app h r) ↔
      route.heedsMode = true := by
  constructor
  · intro hwaits
    cases hheeds : route.heedsMode with
    | true => rfl
    | false =>
      obtain ⟨hroute, hmode, h, q, hplay, call, hcall, hsigns⟩ := signed_offline _ hheeds
      have hnothing := (hwaits _ _ _ hroute hmode h q hplay).1 call hcall
      cases hsigns.symm.trans hnothing
  · rintro hheeds L app req hroute hmode h q hplay
    obtain ⟨hsigns, hwaits⟩ := request_waits (L := L) hmode hroute hheeds
    refine ⟨hsigns.plays hplay, ?_⟩
    rintro r rfl
    exact hwaits h r hplay

end Kipuka.Enroll
