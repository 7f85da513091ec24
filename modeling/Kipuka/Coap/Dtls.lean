/-
  DTLS connections (`crates/kipuka-coap/src/dtls.rs`): `DtlsConnection` and `ClientCertInfo`.
-/
import Kipuka.Coap.Message
import Kipuka.Generic.IpAddr

namespace Kipuka.Coap

open Generic

/-- `SocketAddr`. The last two fields are those of an IPv6 socket address and zero for IPv4. -/
structure SocketAddr where
  ip : IpAddr
  port : UInt16
  flowInfo : UInt32
  scopeId : UInt32
  deriving DecidableEq, Repr

structure ClientCertInfo where
  subjectDn : String
  serial : List UInt8
  derBytes : List UInt8
  deriving DecidableEq, Repr

/-- `ClientCertInfo::from_der`, over the certificate parser, which gives subject and serial
    number. -/
def ClientCertInfo.fromDer (parser : List UInt8 → Option (String × List UInt8))
    (der : List UInt8) : Option ClientCertInfo :=
  (parser der).map fun (subjectDn, serial) => { subjectDn, serial, derBytes := der }

/-- The result of `SslStream::accept`; `retry` for WANT_READ and WANT_WRITE. -/
inductive SslAccept where
  | done
  | retry
  | failed (e : String)

inductive SslRead where
  | data (bytes : List UInt8)
  | closed
  | retry
  | failed (e : String)

structure SslCalls where
  accept : SslAccept
  /-- The peer certificate and its `to_der`. -/
  peerCertificate : Option (Except String (List UInt8))
  certParser : List UInt8 → Option (String × List UInt8)
  /-- The results of the reads; after the last one there is nothing more to read. -/
  reads : List SslRead

structure DtlsConnection where
  number : Nat
  clientCert : Option ClientCertInfo
  handshakeComplete : Bool
  createdAt : Int
  deriving DecidableEq, Repr

def readLoop : List SslRead → Except CoapError (List (List UInt8))
  | [] | .closed :: _ | .retry :: _ => .ok []
  | .data bytes :: rest =>
    match readLoop rest with
    | .ok messages => .ok (bytes :: messages)
    | .error e => .error e
  | .failed e :: _ => .error (.dtlsError e)

namespace DtlsConnection

def new (number : Nat) (createdAt : Int) : DtlsConnection where
  number := number
  clientCert := none
  handshakeComplete := false
  createdAt := createdAt

def establish (c : DtlsConnection) (cert : ClientCertInfo) : DtlsConnection :=
  { c with clientCert := some cert, handshakeComplete := true }

def receive (c : DtlsConnection) (ssl : SslCalls) :
    Except CoapError (List (List UInt8)) × DtlsConnection :=
  if c.handshakeComplete then (readLoop ssl.reads, c)
  else
    match ssl.accept with
    | .done =>
      match ssl.peerCertificate with
      | none => (.error (.unauthorized "client certificate required"), c)
      | some (.error e) => (.error (.dtlsError e), c)
      | some (.ok der) =>
        match ClientCertInfo.fromDer ssl.certParser der with
        | none => (.error (.unauthorized "invalid client certificate"), c)
        | some cert => (readLoop ssl.reads, c.establish cert)
    | .retry => (.ok [], c)
    | .failed e => (.error (.dtlsError e), c)

theorem receive_ok {c c' : DtlsConnection} {ssl : SslCalls} {messages : List (List UInt8)}
    (h : c.receive ssl = (.ok messages, c')) :
    (c' = c ∧ (c.handshakeComplete = false → messages = [])) ∨
      (c.handshakeComplete = false ∧ ∃ cert, c' = c.establish cert) := by
  unfold receive at h
  split at h
  · next hdone =>
    refine .inl ⟨(Prod.mk.inj h).2.symm, fun hopen => ?_⟩
    rw [hdone] at hopen
    exact nomatch hopen
  · next hopen =>
    have hopen' : c.handshakeComplete = false := by simpa using hopen
    split at h
    · split at h
      · exact nomatch h
      · exact nomatch h
      · split at h
        · exact nomatch h
        · next cert _ => exact .inr ⟨hopen', cert, (Prod.mk.inj h).2.symm⟩
    · refine .inl ⟨(Prod.mk.inj h).2.symm, fun _ => ?_⟩
      exact (Except.ok.inj (Prod.mk.inj h).1).symm
    · exact nomatch h

end DtlsConnection

end Kipuka.Coap
