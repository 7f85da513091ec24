/-
  `ServerKeygenResponse` (`crates/kipuka-est/src/serverkeygen.rs`): the certificate and the key of a
  server-side key generation as one multipart body, and the client's parser for that body.
-/
import Kipuka.Generic.Base64
import Kipuka.Generic.Search
import Kipuka.Generic.Text

namespace Kipuka.Keygen

open Generic

inductive EstError where
  | invalidPkcs7 (message : String)
  | invalidPkcs8 (message : String)
  | invalidBase64 (message : String)
  | invalidMultipart (message : String)
  deriving DecidableEq, Repr

def alphabet : List Char :=
  "ABCDEFGHIJKLMNOPQRSTUVWXYZabcdefghijklmnopqrstuvwxyz0123456789+/=".toList

structure Base64 where
  encode : List UInt8 → String
  decode : String → Except String (List UInt8)
  decode_encode : ∀ bytes, decode (encode bytes) = .ok bytes
  encode_alphabet : ∀ bytes, ∀ c ∈ (encode bytes).toList, c ∈ alphabet
  encode_nil : encode [] = ""

def isWhitespace (c : Char) : Bool :=
  let n := c.toNat
  (9 ≤ n && n ≤ 13) || n == 32 || n == 0x85 || n == 0xA0 || n == 0x1680 ||
    (0x2000 ≤ n && n ≤ 0x200A) || n == 0x2028 || n == 0x2029 || n == 0x202F || n == 0x205F || n == 0x3000

structure ServerKeygenResponse where
  certPkcs7Der : List UInt8
  keyPkcs8Der : List UInt8
  boundary : String
  deriving DecidableEq, Repr

namespace ServerKeygenResponse

def validate (r : ServerKeygenResponse) : Except EstError Unit :=
  match r.certPkcs7Der with
  | [] => .error (.invalidPkcs7 "Empty certificate PKCS#7")
  | c :: _ =>
    if c ≠ 0x30 then .error (.invalidPkcs7 "Invalid DER: expected SEQUENCE tag")
    else
      match r.keyPkcs8Der with
      | [] => .error (.invalidPkcs8 "Empty PKCS#8 key")
      | k :: _ =>
        if k ≠ 0x30 then .error (.invalidPkcs8 "Invalid DER: expected SEQUENCE tag") else .ok ()

def certHeaders : String :=
  "\r\nContent-Type: application/pkcs7-mime\r\nContent-Transfer-Encoding: base64\r\n\r\n"

def keyHeaders : String :=
  "\r\nContent-Type: application/pkcs8\r\nContent-Transfer-Encoding: base64\r\n\r\n"

def toMultipartBody (B : Base64) (r : ServerKeygenResponse) : String :=
  let certB64 := B.encode r.certPkcs7Der
  let keyB64 := B.encode r.keyPkcs8Der
  "--" ++ r.boundary ++ certHeaders ++ certB64 ++ "\r\n" ++
    "--" ++ r.boundary ++ keyHeaders ++ keyB64 ++ "\r\n" ++
    "--" ++ r.boundary ++ "--\r\n"

def extractBase64Content (part : List Char) (expectedCt : String) : Except EstError (List Char) :=
  if (breakOn expectedCt.toList part).isNone then
    .error (.invalidMultipart s!"Expected Content-Type: {expectedCt}")
  else
    match (breakOn "\r\n\r\n".toList part).or (breakOn "\n\n".toList part) with
    | none => .error (.invalidMultipart "Missing blank line after headers")
    | some (headers, _) => .ok (trim isWhitespace (part.drop headers.length))

def decodePart (B : Base64) (part : List Char) (expectedCt : String) :
    Except EstError (List UInt8) := do
  let b64 ← extractBase64Content part expectedCt
  (B.decode (String.ofList (trim isWhitespace b64))).mapError .invalidBase64

def fromMultipartBody (B : Base64) (body boundary : String) :
    Except EstError ServerKeygenResponse :=
  let boundaryLine := "--" ++ boundary
  let endBoundary := "--" ++ boundary ++ "--"
  let text := body.toList
  match splitParts boundaryLine.toList (text.length + 1) text with
  | _ :: certPart :: keyPart :: _ => do
    let certPkcs7Der ← decodePart B certPart "application/pkcs7-mime"
    let keyPart := trim isWhitespace (trimEndMatches endBoundary.toList keyPart.length keyPart)
    let keyPkcs8Der ← decodePart B keyPart "application/pkcs8"
    return ⟨certPkcs7Der, keyPkcs8Der, boundary⟩
  | _ => .error (.invalidMultipart "Expected at least 2 MIME parts")

/-! ## The parts of a body -/

theorem isWhitespace_of_mem_alphabet {c : Char} (h : c ∈ alphabet) : isWhitespace c = false := by
  have hall : alphabet.all (fun c => !isWhitespace c) = true := by decide +kernel
  simpa using List.all_eq_true.mp hall c h

theorem isWhitespace_break : ∀ c ∈ "\r\n".toList, isWhitespace c = true :=
  List.all_eq_true.mp (by decide +kernel)

theorem isWhitespace_blankLine : ∀ c ∈ "\r\n\r\n".toList, isWhitespace c = true :=
  List.all_eq_true.mp (by decide +kernel)

/-- A text that stands between spaces: it neither starts nor ends with one, and has no dash. -/
structure Between (text : List Char) : Prop where
  head : ∀ c ∈ text.head?, isWhitespace c = false
  last : ∀ c ∈ text.getLast?, isWhitespace c = false
  dash : '-' ∉ text

theorem between_encode (B : Base64) (bytes : List UInt8) : Between (B.encode bytes).toList := by
  have hmem := B.encode_alphabet bytes
  refine ⟨fun c hc => ?_, fun c hc => ?_, fun hdash => absurd (hmem '-' hdash) (by decide)⟩
  · exact isWhitespace_of_mem_alphabet (hmem c (List.mem_of_mem_head? hc))
  · exact isWhitespace_of_mem_alphabet (hmem c (List.mem_of_mem_getLast? hc))

theorem encode_ne_nil (B : Base64) {bytes : List UInt8} (h : bytes ≠ []) :
    (B.encode bytes).toList ≠ [] := by
  intro hnil
  have hsame : B.encode bytes = B.encode [] := by
    rw [B.encode_nil, ← String.toList_eq_nil_iff, hnil]
  have hdecode := B.decode_encode bytes
  rw [hsame, B.decode_encode] at hdecode
  exact h (Except.ok.inj hdecode).symm

theorem key_ne_nil_of_validate {r : ServerKeygenResponse} (h : r.validate = .ok ()) :
    r.keyPkcs8Der ≠ [] := by
  intro hkey
  rw [validate, hkey] at h
  split at h
  · cases h
  · split at h <;> cases h

def decodeText (B : Base64) (text : List Char) : Except EstError (List UInt8) :=
  (B.decode (String.ofList text)).mapError .invalidBase64

/-- Headers that name the type and end with the blank line, the text, and spaces. -/
theorem decodePart_eq (B : Base64) {lead trail named afterName start text : List Char} {ct : String}
    (hct : breakOn ct.toList lead = some (named, afterName))
    (hblank : breakOn "\r\n\r\n".toList lead = some (start, []))
    (htrail : ∀ c ∈ trail, isWhitespace c = true) (htext : Between text) :
    decodePart B (lead ++ (text ++ trail)) ct = decodeText B text := by
  have hlead : lead = start ++ "\r\n\r\n".toList := by
    rw [breakOn_eq hblank, List.append_nil]
  have hdrop : (lead ++ (text ++ trail)).drop start.length =
      "\r\n\r\n".toList ++ (text ++ trail) := by
    rw [hlead, List.append_assoc, List.drop_left]
  have htrim : extractBase64Content (lead ++ (text ++ trail)) ct = .ok text := by
    rw [extractBase64Content, breakOn_append hct, breakOn_append hblank]
    show Except.ok (trim isWhitespace (List.drop start.length _)) = _
    rw [hdrop, trim_spaces isWhitespace_blankLine htrail htext.head htext.last]
  have hagain : trim isWhitespace text = text := by
    have h := trim_spaces (l := []) (r := []) (by simp) (by simp) htext.head htext.last
    rwa [List.nil_append, List.append_nil] at h
  rw [decodePart, htrim]
  show (B.decode (String.ofList (trim isWhitespace _))).mapError _ = _
  rw [hagain]
  rfl

theorem trim_keyPart {text : List Char} (htext : Between text) (hne : text ≠ []) :
    trim isWhitespace (keyHeaders.toList ++ (text ++ "\r\n".toList)) =
      keyHeaders.toList.drop 2 ++ (text ++ []) := by
  rw [List.append_nil]
  show trim isWhitespace ("\r\n".toList ++ keyHeaders.toList.drop 2 ++ _) = _
  rw [List.append_assoc, ← List.append_assoc (keyHeaders.toList.drop 2)]
  apply trim_spaces isWhitespace_break isWhitespace_break
  · intro c hc
    cases hc
    decide
  · intro c hc
    rw [List.getLast?_append_of_ne_nil _ hne] at hc
    exact htext.last c hc

theorem apart_part {lead text : List Char} (hlead : Apart '-' '-' lead) (htext : Between text) :
    Apart '-' '-' (lead ++ (text ++ "\r\n".toList)) :=
  hlead.append ((apart_of_not_mem htext.dash).append (by decide))

/-- A body with two parts, split at the lines that keep its dashes together. -/
theorem fromMultipartBody_parts (B : Base64) {body boundary : String}
    {pre lead cert key : List Char}
    (hbody : body.toList = pre ++ (("--" ++ boundary).toList ++
      (lead ++ (cert ++ "\r\n".toList) ++ (("--" ++ boundary).toList ++
        (keyHeaders.toList ++ (key ++ "\r\n".toList) ++
          (("--" ++ boundary).toList ++ "--\r\n".toList))))))
    (hpre : Apart '-' '-' pre) (hlead : Apart '-' '-' lead) (hcert : Between cert)
    (hkey : Between key) :
    fromMultipartBody B body boundary = do
      let certPkcs7Der ← decodePart B (lead ++ (cert ++ "\r\n".toList)) "application/pkcs7-mime"
      let keyPkcs8Der ← decodePart B
        (trim isWhitespace (keyHeaders.toList ++ (key ++ "\r\n".toList))) "application/pkcs8"
      return ⟨certPkcs7Der, keyPkcs8Der, boundary⟩ := by
  have hline : ("--" ++ boundary).toList = '-' :: '-' :: boundary.toList := String.toList_append
  obtain ⟨fuel, hfuel⟩ : ∃ fuel, body.toList.length + 1 = fuel + 3 := by
    refine ⟨body.toList.length - 2, ?_⟩
    rw [hbody, hline]
    simp only [List.length_append, List.length_cons]
    omega
  -- the part of the key ends with a line break, the closing boundary line with a dash
  have hend : ¬ ("--" ++ boundary ++ "--").toList <:+
      keyHeaders.toList ++ (key ++ "\r\n".toList) := by
    rintro ⟨front, hfront⟩
    have hlast := congrArg List.getLast? hfront
    rw [String.toList_append, ← List.append_assoc, List.getLast?_append_of_ne_nil _ (by decide),
      ← List.append_assoc, List.getLast?_append_of_ne_nil _ (by decide)] at hlast
    exact absurd hlast (by decide)
  have hkeyApart := apart_part (show Apart '-' '-' keyHeaders.toList by decide) hkey
  simp only [fromMultipartBody]
  rw [hfuel, hbody, hline, splitParts_of_break (breakOn_of_apart hpre _),
    splitParts_of_break (breakOn_of_apart (apart_part hlead hcert) _),
    splitParts_of_break (breakOn_of_apart hkeyApart _)]
  simp only
  rw [trimEndMatches_of_not_suffix hend]

/-! ## The round trip -/

theorem decodeText_encode (B : Base64) (bytes : List UInt8) :
    decodeText B (B.encode bytes).toList = .ok bytes := by
  rw [decodeText, String.ofList_toList, B.decode_encode]
  rfl

theorem toList_toMultipartBody (B : Base64) (r : ServerKeygenResponse) :
    (r.toMultipartBody B).toList =
      [] ++ (("--" ++ r.boundary).toList ++
        (certHeaders.toList ++ ((B.encode r.certPkcs7Der).toList ++ "\r\n".toList) ++
          (("--" ++ r.boundary).toList ++
            (keyHeaders.toList ++ ((B.encode r.keyPkcs8Der).toList ++ "\r\n".toList) ++
              (("--" ++ r.boundary).toList ++ "--\r\n".toList))))) := by
  unfold toMultipartBody
  generalize "--" = dashes, "\r\n" = lineBreak, "--\r\n" = last
  simp only [String.toList_append, List.append_assoc, List.nil_append]

theorem fromMultipartBody_toMultipartBody (B : Base64) (r : ServerKeygenResponse)
    (h : r.validate = .ok ()) :
    fromMultipartBody B (r.toMultipartBody B) r.boundary = .ok r := by
  have hkey := encode_ne_nil B (key_ne_nil_of_validate h)
  have hcertText := between_encode B r.certPkcs7Der
  have hkeyText := between_encode B r.keyPkcs8Der
  rw [fromMultipartBody_parts B (toList_toMultipartBody B r) trivial (by decide) hcertText hkeyText,
    trim_keyPart hkeyText hkey, decodePart_eq B rfl rfl isWhitespace_break hcertText,
    decodePart_eq B rfl rfl (by simp) hkeyText, decodeText_encode, decodeText_encode]
  rfl

theorem mem_alphabet {c : Char} (h : IsBase64 c) : c ∈ alphabet := by
  have hall : ∀ n : Fin 64, base64Char n ∈ alphabet := by decide +kernel
  obtain ⟨n, rfl⟩ | rfl := h
  · exact hall n
  · decide

def Sample.engine : Base64 where
  encode := base64Encode
  decode := fun s => base64Decode s.toList
  decode_encode := base64Decode_base64Encode
  encode_alphabet := by
    intro bytes c hc
    rw [base64Encode, String.toList_ofList] at hc
    exact mem_alphabet (isBase64_of_mem hc)
  encode_nil := rfl

theorem roundTrip_dashes :
    fromMultipartBody Sample.engine (toMultipartBody Sample.engine ⟨[0x30, 0x2d], [0x30], "--"⟩) "--" =
      .ok ⟨[0x30, 0x2d], [0x30], "--"⟩ :=
  fromMultipartBody_toMultipartBody Sample.engine ⟨[0x30, 0x2d], [0x30], "--"⟩ (by decide)

end ServerKeygenResponse

end Kipuka.Keygen
