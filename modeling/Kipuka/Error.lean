/-
  The server's error type (`src/error.rs`).
-/
import Mathlib.Logic.Basic

namespace Kipuka

inductive KipukaError where
  | config (msg : String)
  | tls (msg : String)
  | db (msg : String)
  | hsm (msg : String)
  | auth (msg : String)
  | est (msg : String)
  | ca (msg : String)
  | audit (msg : String)
  | io (msg : String)
  | notFound
  | methodNotAllowed
  | payloadTooLarge
  | unsupportedMediaType
  | forbidden (msg : String)
  | badRequest (msg : String)
  | serviceUnavailable (msg : String)
  | internal (msg : String)
  deriving DecidableEq, Repr

def KipukaError.display : KipukaError → String
  | .config msg => s!"configuration error: {msg}"
  | .tls msg => s!"TLS error: {msg}"
  | .db msg => s!"database error: {msg}"
  | .hsm msg => s!"HSM error: {msg}"
  | .auth msg => s!"authentication error: {msg}"
  | .est msg => s!"EST error: {msg}"
  | .ca msg => s!"CA error: {msg}"
  | .audit msg => s!"audit error: {msg}"
  | .io msg => s!"I/O error: {msg}"
  | .notFound => "not found"
  | .methodNotAllowed => "method not allowed"
  | .payloadTooLarge => "payload too large"
  | .unsupportedMediaType => "unsupported media type"
  | .forbidden msg => s!"forbidden: {msg}"
  | .badRequest msg => s!"bad request: {msg}"
  | .serviceUnavailable msg => s!"service unavailable: {msg}"
  | .internal msg => s!"internal server error: {msg}"

end Kipuka
