/-
  Audit records (`src/audit/mod.rs`): the event taxonomy, the text stored in `detail_json`, and the
  canonical bytes of the seven hashed fields.
-/
import Kipuka.Generic.Delimited
import Kipuka.Generic.Text

namespace Kipuka.Audit

open Generic

/-! ## Events -/

inductive AuditEventType where
  | caStart | caStop | caHealthChange
  | enrollRequest | certIssue | certReenroll | enrollReject | certRevoke | crlGenerate
  | keyGenerate | keyLoad | keyDestroy
  | otpCreate | otpUse | otpExpire | otpRevoke
  | authSuccess | authFailure
  | adminLogin | adminLogout | adminAction
  | securityViolation
  deriving DecidableEq, Repr

def AuditEventType.asStr : AuditEventType → String
  | caStart => "ca.start"
  | caStop => "ca.stop"
  | caHealthChange => "ca.health-change"
  | enrollRequest => "enroll.request"
  | certIssue => "cert.issue"
  | certReenroll => "cert.reenroll"
  | enrollReject => "enroll.reject"
  | certRevoke => "cert.revoke"
  | crlGenerate => "crl.generate"
  | keyGenerate => "key.generate"
  | keyLoad => "key.load"
  | keyDestroy => "key.destroy"
  | otpCreate => "otp.create"
  | otpUse => "otp.use"
  | otpExpire => "otp.expire"
  | otpRevoke => "otp.revoke"
  | authSuccess => "auth.success"
  | authFailure => "auth.failure"
  | adminLogin => "admin.login"
  | adminLogout => "admin.logout"
  | adminAction => "admin.action"
  | securityViolation => "security.violation"

structure AuditEvent where
  eventType : AuditEventType
  caId : Option String
  subject : Option String
  detail : Option String
  clientAddr : Option String
  operator : Option String
  deriving DecidableEq, Repr

def AuditEvent.new (eventType : AuditEventType) : AuditEvent where
  eventType := eventType
  caId := none
  subject := none
  detail := none
  clientAddr := none
  operator := none

def AuditEvent.withCaId (e : AuditEvent) (caId : String) : AuditEvent := { e with caId := some caId }

def AuditEvent.withDetail (e : AuditEvent) (detail : String) : AuditEvent :=
  { e with detail := some detail }

def AuditEvent.withOperator (e : AuditEvent) (operator : String) : AuditEvent :=
  { e with operator := some operator }

/-! ## `detail_json`

  `serde_json` writes an object with its keys in order and escapes quotes, backslashes and control
  characters. -/

def jsonChar (c : Char) : List Char :=
  if c = '"' then ['\\', '"']
  else if c = '\\' then ['\\', '\\']
  else if c.toNat = 8 then ['\\', 'b']
  else if c.toNat = 9 then ['\\', 't']
  else if c.toNat = 10 then ['\\', 'n']
  else if c.toNat = 12 then ['\\', 'f']
  else if c.toNat = 13 then ['\\', 'r']
  else if c.toNat < 32 then
    ['\\', 'u', '0', '0', hexDigit (c.toNat / 16), hexDigit (c.toNat % 16)]
  else [c]

def jsonString (s : String) : String := String.ofList ('"' :: s.toList.flatMap jsonChar ++ ['"'])

/-- The text of `detail_json`. The keys come out sorted, `ca_id` before `detail`. -/
def detailJson (detail caId : Option String) : Option String :=
  match detail, caId with
  | some d, some ca =>
    some ("\x7b\"ca_id\":" ++ jsonString ca ++ ",\"detail\":" ++ jsonString d ++ "\x7d")
  | some d, none => some ("\x7b\"detail\":" ++ jsonString d ++ "\x7d")
  | none, some ca => some ("\x7b\"ca_id\":" ++ jsonString ca ++ "\x7d")
  | none, none => none

/-! ## Timestamps -/

def timestampChar (c : Char) : Bool := c.isDigit || ['-', '+', ':', '.', 'T', 'Z'].contains c

structure Timestamp where
  text : String
  wellFormed : text.toList.all timestampChar = true

/-! ## Canonical bytes -/

def rs : UInt8 := 0x1e

def rsChar : Char := Char.ofNat 0x1e

/-- The hash preimage of a record: each field, an absent one as the empty text, and an `RS`. -/
def canonicalBytes (timestamp eventType : String)
    (actor target detailJson sourceIp sessionId : Option String) : List UInt8 :=
  [timestamp, eventType, actor.getD "", target.getD "", detailJson.getD "", sourceIp.getD "",
    sessionId.getD ""].foldl (fun buf field => buf ++ asBytes field ++ [rs]) []

theorem foldl_fields (fields : List String) (buf : List UInt8) :
    fields.foldl (fun buf field => buf ++ asBytes field ++ [rs]) buf =
      buf ++ (closeFields rsChar (fields.map String.toList)).flatMap String.utf8EncodeChar := by
  induction fields generalizing buf with
  | nil => simp [closeFields]
  | cons f fs ih =>
    have hrs : String.utf8EncodeChar rsChar = [rs] := by decide
    rw [List.foldl_cons, ih, List.map_cons, closeFields, List.flatMap_append, List.flatMap_cons, hrs,
      ← asBytes_eq_flatMap]
    simp only [List.append_assoc]

structure Hashed where
  timestamp : Timestamp
  eventType : AuditEventType
  actor : Option String
  target : Option String
  detailJson : Option String
  sourceIp : Option String
  sessionId : Option String

namespace Hashed

def canonical (r : Hashed) : List UInt8 :=
  canonicalBytes r.timestamp.text r.eventType.asStr r.actor r.target r.detailJson r.sourceIp
    r.sessionId

def chosen (r : Hashed) : List String :=
  [r.actor.getD "", r.target.getD "", r.detailJson.getD "", r.sourceIp.getD "", r.sessionId.getD ""]

def fields (r : Hashed) : List String := r.timestamp.text :: r.eventType.asStr :: r.chosen

/-- Two records have the same time text, event type and chosen fields. -/
def Same (r r' : Hashed) : Prop :=
  r.timestamp.text = r'.timestamp.text ∧ r.eventType = r'.eventType ∧ r.chosen = r'.chosen

/-- No chosen field holds the separator of the canonical text. -/
def SeparatorFree (r : Hashed) : Prop := ∀ f ∈ r.chosen, rsChar ∉ f.toList

instance (r : Hashed) : Decidable r.SeparatorFree :=
  inferInstanceAs (Decidable (∀ f ∈ r.chosen, rsChar ∉ f.toList))

def withChosen (r : Hashed) (a t d ip sid : String) : Hashed :=
  { r with actor := some a, target := some t, detailJson := some d, sourceIp := some ip,
           sessionId := some sid }

end Hashed

/-! ## What the canonical bytes tell apart -/

theorem canonical_eq_iff (r r' : Hashed) :
    r.canonical = r'.canonical ↔
      closeFields rsChar (r.fields.map String.toList) =
        closeFields rsChar (r'.fields.map String.toList) := by
  have hbytes : ∀ x : Hashed, x.canonical =
      asBytes (String.ofList (closeFields rsChar (x.fields.map String.toList))) := by
    intro x
    rw [asBytes_ofList]
    exact foldl_fields x.fields []
  rw [hbytes, hbytes, asBytes_inj, String.ofList_inj]

def AuditEventType.ofStr (s : String) : Option AuditEventType :=
  [caStart, caStop, caHealthChange, enrollRequest, certIssue, certReenroll, enrollReject, certRevoke,
    crlGenerate, keyGenerate, keyLoad, keyDestroy, otpCreate, otpUse, otpExpire, otpRevoke,
    authSuccess, authFailure, adminLogin, adminLogout, adminAction, securityViolation].find?
      fun t => t.asStr = s

theorem AuditEventType.ofStr_asStr (t : AuditEventType) : ofStr t.asStr = some t := by
  cases t <;> decide

theorem AuditEventType.asStr_inj {t t' : AuditEventType} (h : t.asStr = t'.asStr) : t = t' := by
  have hof := congrArg ofStr h
  rw [ofStr_asStr, ofStr_asStr] at hof
  exact Option.some.inj hof

theorem AuditEventType.rsChar_not_mem_asStr (t : AuditEventType) : rsChar ∉ t.asStr.toList := by
  cases t <;> decide

theorem Timestamp.rsChar_not_mem (t : Timestamp) : rsChar ∉ t.text.toList := by
  intro h
  have hchar : timestampChar rsChar = true := List.all_eq_true.mp t.wellFormed _ h
  exact absurd hchar (by decide)

theorem fields_separatorFree {r : Hashed} (h : r.SeparatorFree) :
    ∀ f ∈ r.fields.map String.toList, rsChar ∉ f := by
  intro f hf
  obtain ⟨s, hs, rfl⟩ := List.mem_map.mp hf
  rcases List.mem_cons.mp hs with rfl | hs
  · exact r.timestamp.rsChar_not_mem
  rcases List.mem_cons.mp hs with rfl | hs
  · exact r.eventType.rsChar_not_mem_asStr
  · exact h s hs

theorem exists_same_canonical {r : Hashed} (h : ¬ r.SeparatorFree) :
    ∃ r' : Hashed, r'.canonical = r.canonical ∧ ¬ r'.Same r := by
  obtain ⟨f, hf, hsep⟩ : ∃ f ∈ r.chosen, rsChar ∈ f.toList := by
    simpa [Hashed.SeparatorFree] using h
  have hf' : f.toList ∈ r.chosen.map String.toList := List.mem_map.mpr ⟨f, hf, rfl⟩
  have htwo : 2 ≤ (r.chosen.map String.toList).length := by simp [Hashed.chosen]
  obtain ⟨gs, hlen, hne, hclose⟩ := exists_other_reading htwo hf' hsep
  obtain ⟨a, t, d, ip, sid, rfl⟩ : ∃ a t d ip sid, gs = [a, t, d, ip, sid] := by
    match gs, hlen with
    | [a, t, d, ip, sid], _ => exact ⟨a, t, d, ip, sid, rfl⟩
  let r' := r.withChosen (.ofList a) (.ofList t) (.ofList d) (.ofList ip) (.ofList sid)
  have hchosen : r'.chosen.map String.toList = [a, t, d, ip, sid] := by
    simp [r', Hashed.withChosen, Hashed.chosen]
  refine ⟨r', ?_, ?_⟩
  · rw [canonical_eq_iff]
    -- timestamp and event type stay in front of the texts that were cut apart anew
    rw [← hchosen] at hclose
    exact congrArg (fun rest => r.timestamp.text.toList ++ rsChar ::
      (r.eventType.asStr.toList ++ rsChar :: rest)) hclose
  · rintro ⟨-, -, hsame⟩
    apply hne
    rw [← hchosen, hsame]

/-- A record is told apart from every other one exactly when none of its chosen texts contains the
    separator: with one inside, text moves across a field boundary and the bytes stay the same. -/
theorem canonicalBytes_separates_iff (r : Hashed) :
    (∀ r' : Hashed, r'.canonical = r.canonical → r'.Same r) ↔ r.SeparatorFree := by
  constructor
  · intro hsep
    by_contra hfree
    obtain ⟨r', hbytes, hne⟩ := exists_same_canonical hfree
    exact hne (hsep r' hbytes)
  · intro hfree r' hbytes
    have hclose := (canonical_eq_iff r' r).mp hbytes
    have hfields : r'.fields.map String.toList = r.fields.map String.toList :=
      closeFields_unique rfl (fields_separatorFree hfree) hclose
    have htexts : r'.fields = r.fields :=
      List.map_injective_iff.mpr (fun s t hst => String.toList_inj.mp hst) hfields
    obtain ⟨hts, hrest⟩ := List.cons.inj htexts
    obtain ⟨htype, hchosen⟩ := List.cons.inj hrest
    exact ⟨hts, AuditEventType.asStr_inj htype, hchosen⟩

def separatorInActor : Hashed where
  timestamp := ⟨"2026-03-01T09:30:00.000Z", by decide⟩
  eventType := .authFailure
  actor := some "eve\x1ebob"
  target := none
  detailJson := none
  sourceIp := some "192.0.2.7"
  sessionId := none

def separatorInTarget : Hashed :=
  { separatorInActor with actor := some "eve", target := some "bob\x1e" }

theorem canonicalBytes_collision :
    separatorInActor.canonical = separatorInTarget.canonical ∧
      ¬ separatorInActor.Same separatorInTarget := by
  constructor
  · decide +kernel
  · rintro ⟨-, -, hchosen⟩
    exact absurd hchosen (by decide +kernel)

end Kipuka.Audit
