/-
  Requests of EST over CoAP (`crates/kipuka-coap/src/server.rs`): codes and methods, the options the
  server reads, and `CoapEstRouter`, which maps a Uri-Path to an EST label and operation.
-/
import Kipuka.Coap.Block
import Kipuka.Generic.Text
import Mathlib.Data.List.DropRight

namespace Kipuka.Coap

open Generic

/-! ## Options -/

def optionUriPath : UInt16 := 11

def optionContentFormat : UInt16 := 12

def optionBlock2 : UInt16 := 23

def optionBlock1 : UInt16 := 27

def optionSize2 : UInt16 := 28

namespace CoapMessage

def option (m : CoapMessage) (number : UInt16) : Option CoapOption :=
  m.options.find? fun o => o.number = number

def uriPath (m : CoapMessage) : String :=
  let segments := (m.options.filter fun o => o.number = optionUriPath).filterMap
    fun o => fromUtf8 o.value
  if segments.isEmpty then "/" else "/" ++ "/".intercalate segments

def contentFormat (m : CoapMessage) : Option UInt16 :=
  (m.option optionContentFormat).map fun o => o.valueAsUint.toUInt16

def block1 (m : CoapMessage) : Option BlockOption :=
  (m.option optionBlock1).map fun o => BlockOption.decode o.valueAsUint

def block2 (m : CoapMessage) : Option BlockOption :=
  (m.option optionBlock2).map fun o => BlockOption.decode o.valueAsUint

end CoapMessage

/-! ## Codes and methods -/

namespace CoapCode

def badRequest : CoapCode := ⟨4, 0⟩

def created : CoapCode := ⟨2, 1⟩

def content : CoapCode := ⟨2, 5⟩

def unauthorized : CoapCode := ⟨4, 1⟩

def forbidden : CoapCode := ⟨4, 3⟩

def notFound : CoapCode := ⟨4, 4⟩

def methodNotAllowed : CoapCode := ⟨4, 5⟩

def unsupportedContentFormat : CoapCode := ⟨4, 15⟩

def internalServerError : CoapCode := ⟨5, 0⟩

def isRequest (c : CoapCode) : Bool := c.classBits = 0

def toText (c : CoapCode) : String :=
  if c.detail < 10 then s!"{c.classBits}.0{c.detail}" else s!"{c.classBits}.{c.detail}"

end CoapCode

inductive CoapMethod where
  | get
  | post
  | put
  | delete
  | fetch
  | patch
  | iPatch
  deriving DecidableEq, Repr

def CoapMethod.fromCode (code : CoapCode) : Option CoapMethod :=
  if code.classBits ≠ 0 then none
  else
    match code.detail with
    | 1 => some .get
    | 2 => some .post
    | 3 => some .put
    | 4 => some .delete
    | 5 => some .fetch
    | 6 => some .patch
    | 7 => some .iPatch
    | _ => none

def CoapMethod.toDebug : CoapMethod → String
  | .get => "Get"
  | .post => "Post"
  | .put => "Put"
  | .delete => "Delete"
  | .fetch => "Fetch"
  | .patch => "Patch"
  | .iPatch => "IPatch"

/-! ## Routing -/

inductive EstOperation where
  | caCerts
  | simpleEnroll
  | simpleReenroll
  | serverKeygen
  | csrAttrs
  deriving DecidableEq, Repr

structure CoapEstRequest where
  operation : EstOperation
  label : Option String
  method : CoapMethod
  message : CoapMessage
  deriving DecidableEq, Repr

/-- `str::trim_start_matches` with a text: copies of it are taken off the front. -/
def trimStartMatches (pattern : List Char) : (fuel : Nat) → List Char → List Char
  | 0, cs => cs
  | fuel + 1, cs =>
    if pattern.isPrefixOf cs then trimStartMatches pattern fuel (cs.drop pattern.length) else cs

def operationOf : String → Option EstOperation
  | "sen" | "simpleenroll" => some .simpleEnroll
  | "sren" | "simplereenroll" => some .simpleReenroll
  | "skg" | "serverkeygen" => some .serverKeygen
  | "att" | "csrattrs" => some .csrAttrs
  | "cacerts" | "crts" => some .caCerts
  | _ => none

def pathSegments (path : String) : List String :=
  let cs := path.toList.dropWhile fun c => c = '/'
  let cs := trimStartMatches ".well-known/est/".toList cs.length cs
  let cs := trimStartMatches ".well-known/est".toList cs.length cs
  let cs := (cs.dropWhile fun c => c = '/').rdropWhile fun c => c = '/'
  ((cs.splitOn '/').filter fun s => !s.isEmpty).map String.ofList

def routeWithLabel (path : String) : Except CoapError (Option String × EstOperation) :=
  let unknown : CoapError := .resourceNotFound s!"Unknown EST-coaps path: {path}"
  match pathSegments path with
  | [op] =>
    match operationOf op with
    | some operation => .ok (none, operation)
    | none => .error unknown
  | [label, op] =>
    match operationOf op with
    | some operation => .ok (some label, operation)
    | none => .error unknown
  | _ => .error unknown

def EstOperation.methods : EstOperation → List CoapMethod × String
  | .caCerts | .csrAttrs => ([.get, .fetch], "GET or FETCH")
  | .simpleEnroll | .simpleReenroll | .serverKeygen => ([.post], "POST")

def routeMessage (message : CoapMessage) : Except CoapError CoapEstRequest :=
  let path := message.uriPath
  match routeWithLabel path with
  | .error e => .error e
  | .ok (label, operation) =>
    match CoapMethod.fromCode message.code with
    | none => .error (.unsupportedMethod s!"Code {message.code.toText} is not a request")
    | some method =>
      let (allowed, names) := operation.methods
      if method ∈ allowed then .ok { operation, label, method, message }
      else .error (.unsupportedMethod s!"{path} requires {names}, got {method.toDebug}")

variable {message : CoapMessage} {request : CoapEstRequest}

section

variable (h : routeMessage message = .ok request)

include h

theorem routeMessage_eq_ok :
    request.message = message ∧ ∃ method, CoapMethod.fromCode message.code = some method := by
  unfold routeMessage at h
  dsimp only at h
  split at h
  · exact nomatch h
  · split at h
    · exact nomatch h
    · next method hmethod =>
      split at h
      · rw [← Except.ok.inj h]
        exact ⟨rfl, method, hmethod⟩
      · exact nomatch h

theorem routeMessage_message : request.message = message :=
  (routeMessage_eq_ok h).1

theorem routeMessage_isRequest : message.code.isRequest = true := by
  obtain ⟨-, method, hmethod⟩ := routeMessage_eq_ok h
  unfold CoapMethod.fromCode at hmethod
  split at hmethod
  · exact nomatch hmethod
  · next hclass =>
    rw [CoapCode.isRequest, decide_eq_true_eq]
    exact not_not.mp hclass

end

example : routeWithLabel "/.well-known/est/plant/sen" = .ok (some "plant", .simpleEnroll) := by
  decide +kernel

end Kipuka.Coap
