/-
  The CoAP message format (`crates/kipuka-coap/src/server.rs`): header, token, delta-compressed
  options and payload, with `CoapMessage.parse` and `CoapMessage.encode` as the source computes
  them.
-/
import Kipuka.Generic.Outcome
import Mathlib.Data.UInt

namespace Kipuka.Coap

open Generic

inductive CoapError where
  | invalidMessage (msg : String)
  | unsupportedMethod (msg : String)
  | unsupportedContentFormat (id : UInt16)
  | blockTransferError (msg : String)
  | dtlsError (msg : String)
  | payloadTooLarge (size max : Nat)
  | resourceNotFound (path : String)
  | unauthorized (msg : String)
  | forbidden (msg : String)
  | internal (msg : String)
  deriving DecidableEq, Repr

def CoapError.toText : CoapError → String
  | .invalidMessage msg => s!"Invalid CoAP message: {msg}"
  | .unsupportedMethod msg => s!"Unsupported CoAP method: {msg}"
  | .unsupportedContentFormat id => s!"Unsupported Content-Format: {id}"
  | .blockTransferError msg => s!"Block transfer error: {msg}"
  | .dtlsError msg => s!"DTLS error: {msg}"
  | .payloadTooLarge size max =>
    s!"Payload too large: {size} bytes exceeds maximum {max} bytes"
  | .resourceNotFound path => s!"Resource not found: {path}"
  | .unauthorized msg => s!"Unauthorized: {msg}"
  | .forbidden msg => s!"Forbidden: {msg}"
  | .internal msg => s!"Internal error: {msg}"

def coapVersion : UInt8 := 1

def payloadMarker : UInt8 := 0xFF

inductive CoapMessageType where
  | confirmable
  | nonConfirmable
  | acknowledgement
  | reset
  deriving DecidableEq, Repr

def CoapMessageType.fromBits (bits : UInt8) : Outcome CoapError CoapMessageType :=
  if bits = 0 then .ok .confirmable
  else if bits = 1 then .ok .nonConfirmable
  else if bits = 2 then .ok .acknowledgement
  else if bits = 3 then .ok .reset
  else .err (.invalidMessage s!"Invalid message type: {bits}")

def CoapMessageType.toBits : CoapMessageType → UInt8
  | .confirmable => 0
  | .nonConfirmable => 1
  | .acknowledgement => 2
  | .reset => 3

structure CoapCode where
  classBits : UInt8
  detail : UInt8
  deriving DecidableEq, Repr

def CoapCode.toByte (c : CoapCode) : UInt8 :=
  ((c.classBits &&& 0x07) <<< 5) ||| (c.detail &&& 0x1F)

def CoapCode.fromByte (byte : UInt8) : CoapCode where
  classBits := (byte >>> 5) &&& 0x07
  detail := byte &&& 0x1F

structure CoapOption where
  number : UInt16
  value : List UInt8
  deriving DecidableEq, Repr

structure CoapMessage where
  version : UInt8
  msgType : CoapMessageType
  code : CoapCode
  messageId : UInt16
  token : List UInt8
  options : List CoapOption
  payload : List UInt8
  deriving DecidableEq, Repr

def u16FromBe (hi lo : UInt8) : UInt16 := (hi.toUInt16 <<< 8) ||| lo.toUInt16

def u16ToBe (v : UInt16) : List UInt8 := [(v >>> 8).toUInt8, v.toUInt8]

def checkedAdd (a b : UInt16) : Option UInt16 :=
  if a.toNat + b.toNat < 65536 then some (a + b) else none

def addU16 (a b : UInt16) : Outcome CoapError UInt16 :=
  match checkedAdd a b with
  | some v => .ok v
  | none => .panic

def subUsize (a b : Nat) : Outcome CoapError Nat := if b ≤ a then .ok (a - b) else .panic

/-! ## Parsing -/

/-- The extended form of an option's delta or length nibble, read at `pos`. `parse` has this block
    twice, for `what = "delta"` and for `what = "length"`. Returns the value and the number of
    extension bytes. -/
def readExtended (what : String) (data : List UInt8) (nibble : UInt16) (pos : Nat) :
    Outcome CoapError (UInt16 × Nat) :=
  if nibble = 13 then do
    if pos ≥ data.length then
      .err (.invalidMessage s!"Truncated option {what} (13)")
    else
      let b ← Outcome.idx data pos
      let v ← addU16 b.toUInt16 13
      return (v, 1)
  else if nibble = 14 then do
    if pos + 1 ≥ data.length then
      .err (.invalidMessage s!"Truncated option {what} (14)")
    else
      let hi ← Outcome.idx data pos
      let lo ← Outcome.idx data (pos + 1)
      match checkedAdd (u16FromBe hi lo) 269 with
      | some v => return (v, 2)
      | none => .err (.invalidMessage "option value overflow")
  else if nibble = 15 then
    .err (.invalidMessage s!"Reserved option {what} value 15")
  else .ok (nibble, 0)

/-- One turn of the option loop after the payload-marker test: the option whose header byte
    stands at `pos`, and the number of bytes it takes after that byte. -/
def parseOption (data : List UInt8) (pos : Nat) (currentOptionNumber : UInt16) :
    Outcome CoapError (CoapOption × Nat) := do
  let optionByte ← Outcome.idx data pos
  let (delta, used) ←
    readExtended "delta" data ((optionByte >>> 4) &&& 0x0F).toUInt16 (pos + 1)
  let (length, used') ←
    readExtended "length" data (optionByte &&& 0x0F).toUInt16 (pos + 1 + used)
  match checkedAdd currentOptionNumber delta with
  | none => .err (.invalidMessage "option number overflow")
  | some number =>
    let start := pos + 1 + used + used'
    if start + length.toNat > data.length then
      let have_ ← subUsize data.length start
      .err (.invalidMessage
        s!"Truncated option value: need {length} bytes at offset {start}, have {have_}")
    else
      let value ← Outcome.slice data start (start + length.toNat)
      return ({ number, value }, used + used' + length.toNat)

/-- The option loop. Returns the options and the position where it stopped: after the payload
    marker, or at the end of the datagram. -/
def parseOptions (data : List UInt8) (pos : Nat) (currentOptionNumber : UInt16)
    (options : List CoapOption) : Outcome CoapError (List CoapOption × Nat) :=
  if pos < data.length then
    match (Outcome.idx data pos : Outcome CoapError UInt8) with
    | .ok b =>
      if b = payloadMarker then .ok (options, pos + 1)
      else
        match parseOption data pos currentOptionNumber with
        | .ok (opt, used) => parseOptions data (pos + 1 + used) opt.number (options ++ [opt])
        | .err e => .err e
        | .panic => .panic
    | .err e => .err e
    | .panic => .panic
  else .ok (options, pos)
termination_by data.length - pos

/-- The bytes after the payload marker; empty when the options ran to the end of the datagram. -/
def payloadFrom (data : List UInt8) (pos : Nat) : Outcome CoapError (List UInt8) :=
  if pos < data.length then Outcome.slice data pos data.length else .ok []

def CoapMessage.parse (data : List UInt8) : Outcome CoapError CoapMessage := do
  if data.length < 4 then
    .err (.invalidMessage s!"Message too short: {data.length} bytes (minimum 4)")
  else
    let b0 ← Outcome.idx data 0
    let version := (b0 >>> 6) &&& 0x03
    if version ≠ coapVersion then
      .err (.invalidMessage s!"Unsupported CoAP version: {version}")
    else
      let msgType ← CoapMessageType.fromBits ((b0 >>> 4) &&& 0x03)
      let tkl := (b0 &&& 0x0F).toNat
      if tkl > 8 then
        .err (.invalidMessage s!"Token length {tkl} exceeds maximum of 8")
      else
        let code := CoapCode.fromByte (← Outcome.idx data 1)
        let messageId := u16FromBe (← Outcome.idx data 2) (← Outcome.idx data 3)
        let tokenEnd := 4 + tkl
        if data.length < tokenEnd then
          .err (.invalidMessage
            s!"Message truncated in token: need {tokenEnd} bytes, have {data.length}")
        else
          let token ← Outcome.slice data 4 tokenEnd
          let (options, pos) ← parseOptions data tokenEnd 0 []
          let payload ← payloadFrom data pos
          return { version, msgType, code, messageId, token, options, payload }

/-! ## Encoding -/

def encodeOptionHeaderValue (value : UInt16) : UInt8 × List UInt8 :=
  if value < 13 then (value.toUInt8, [])
  else if value < 269 then (13, [(value - 13).toUInt8])
  else (14, u16ToBe (value - 269))

/-- One turn of the encoder's option loop: `opt` after an option numbered `prevNumber`. The
    subtraction does not wrap, since the options are sorted by then. -/
def encodeOption (prevNumber : UInt16) (opt : CoapOption) : List UInt8 :=
  let (deltaNibble, deltaExt) := encodeOptionHeaderValue (opt.number - prevNumber)
  let (lengthNibble, lengthExt) := encodeOptionHeaderValue opt.value.length.toUInt16
  [(deltaNibble <<< 4) ||| lengthNibble] ++ deltaExt ++ lengthExt ++ opt.value

def encodeOptions : UInt16 → List CoapOption → List UInt8
  | _, [] => []
  | prevNumber, opt :: rest => encodeOption prevNumber opt ++ encodeOptions opt.number rest

def sortByNumber (options : List CoapOption) : List CoapOption :=
  options.mergeSort (fun a b => decide (a.number ≤ b.number))

def CoapMessage.encode (m : CoapMessage) : List UInt8 :=
  let tkl := (min m.token.length 8).toUInt8
  [(coapVersion <<< 6) ||| (m.msgType.toBits <<< 4) ||| tkl, m.code.toByte]
    ++ u16ToBe m.messageId
    ++ m.token.take tkl.toNat
    ++ encodeOptions 0 (sortByNumber m.options)
    ++ (if m.payload.isEmpty then [] else payloadMarker :: m.payload)

end Kipuka.Coap
