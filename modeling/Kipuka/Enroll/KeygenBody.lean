/-
  The body of the server (`build_multipart_response` in `src/routes/serverkeygen.rs`) read by the
  client library (`ServerKeygenResponse::from_multipart_body`). The server wraps its base64 text at 76
  characters; the client decodes the text with the line breaks in it.
-/
import Kipuka.Enroll.Admission
import Kipuka.Keygen.Multipart

namespace Kipuka.Enroll

open Generic
open Keygen
open Keygen.ServerKeygenResponse

/-! ## Wrapped text -/

def wrapChar (ci : Char × Nat) : List Char :=
  if 0 < ci.2 ∧ ci.2 % 76 = 0 then ['\r', '\n', ci.1] else [ci.1]

def wrapFrom (i : Nat) (s : List Char) : List Char := (s.zipIdx i).flatMap wrapChar

theorem wrapFrom_concat (i : Nat) (s : List Char) (c : Char) :
    wrapFrom i (s ++ [c]) = wrapFrom i s ++ wrapChar (c, i + s.length) := by
  rw [wrapFrom, List.zipIdx_append, List.flatMap_append, Nat.add_comm]
  exact congrArg _ (List.append_nil _)

theorem getLast?_wrapFrom (i : Nat) (s : List Char) : (wrapFrom i s).getLast? = s.getLast? := by
  rcases List.eq_nil_or_concat s with rfl | ⟨s, c, rfl⟩
  · rfl
  · rw [List.concat_eq_append, wrapFrom_concat, wrapChar]
    split <;> simp

theorem mem_wrapFrom {i : Nat} {s : List Char} {c : Char} (h : c ∈ wrapFrom i s) :
    c ∈ s ∨ c ∈ ['\r', '\n'] := by
  obtain ⟨⟨d, j⟩, hmem, hc⟩ := List.mem_flatMap.mp h
  have hd := List.fst_mem_of_mem_zipIdx hmem
  unfold wrapChar at hc
  split at hc <;> simp at hc ⊢ <;> grind

theorem between_wrapFrom {s : List Char} (h : Between s) : Between (wrapFrom 0 s) where
  head := by
    cases s with
    | nil | cons => exact h.head
  last := by
    rw [getLast?_wrapFrom]
    exact h.last
  dash := fun hmem => (mem_wrapFrom hmem).elim h.dash (by decide)

/-- Line breaks are put in exactly when the text is longer than a line. -/
theorem wrapFrom_of_le {s : List Char} (h : s.length ≤ 76) : wrapFrom 0 s = s := by
  have hplain : ∀ ci ∈ s.zipIdx, wrapChar ci = [ci.1] := by
    rintro ⟨c, i⟩ hmem
    have hlt := List.snd_lt_of_mem_zipIdx hmem
    exact if_neg (by simp only at hlt ⊢; omega)
  rw [wrapFrom, List.flatMap_congr hplain, ← List.map_eq_flatMap, List.zipIdx_map_fst]

theorem break_mem_wrapFrom {s : List Char} (h : 76 < s.length) : '\r' ∈ wrapFrom 0 s := by
  refine List.mem_flatMap.mpr ⟨(s[76], 76), ?_, ?_⟩
  · exact List.mem_zipIdx_iff_getElem?.mpr (List.getElem?_eq_getElem h)
  · simp [wrapChar]

/-! ## The server's body -/

def serverCertHeaders : String :=
  "\r\n" ++ ("Content-Type: " ++ pkcs7Certs ++ "\r\n") ++ "Content-Transfer-Encoding: base64\r\n" ++
    "\r\n"

section

variable (L : EnrollLib) (B : Base64) {cert key : List UInt8}

theorem toList_encodeEstBase64 (hencode : L.crypto.base64Encode = B.encode) (der : List UInt8) :
    (encodeEstBase64 L der).toList = wrapFrom 0 (B.encode der).toList := by
  rw [encodeEstBase64, String.toList_ofList, hencode]
  rfl

theorem toList_buildMultipartResponse (cert key : List UInt8) :
    (buildMultipartResponse L cert key).toList = "\r\n".toList ++
      (("--" ++ multipartBoundary).toList ++
        (serverCertHeaders.toList ++ ((encodeEstBase64 L cert).toList ++ "\r\n".toList) ++
          (("--" ++ multipartBoundary).toList ++
            (keyHeaders.toList ++ ((encodeEstBase64 L key).toList ++ "\r\n".toList) ++
              (("--" ++ multipartBoundary).toList ++ "--\r\n".toList))))) := by
  have hopen : "\r\n--".toList = "\r\n".toList ++ "--".toList := rfl
  have hkey : keyHeaders.toList = "\r\n".toList ++ ("Content-Type: application/pkcs8\r\n".toList ++
      ("Content-Transfer-Encoding: base64\r\n".toList ++ "\r\n".toList)) := by
    decide
  have hmerge : ∀ s : String, toString s = s := fun _ => rfl
  unfold buildMultipartResponse
  simp only [hmerge, hopen, hkey, serverCertHeaders, String.toList_append, List.append_assoc]

theorem fromMultipartBody_server (hencode : L.crypto.base64Encode = B.encode) :
    fromMultipartBody B (buildMultipartResponse L cert key) multipartBoundary = do
      let certDer ← decodeText B (wrapFrom 0 (B.encode cert).toList)
      let keyDer ← decodePart B (trim isWhitespace (keyHeaders.toList ++
        (wrapFrom 0 (B.encode key).toList ++ "\r\n".toList))) "application/pkcs8"
      return ⟨certDer, keyDer, multipartBoundary⟩ := by
  have hbody := toList_buildMultipartResponse L cert key
  rw [toList_encodeEstBase64 L B hencode, toList_encodeEstBase64 L B hencode] at hbody
  have hcertText := between_wrapFrom (between_encode B cert)
  have hkeyText := between_wrapFrom (between_encode B key)
  have hct : breakOn "application/pkcs7-mime".toList serverCertHeaders.toList =
      some ("\r\nContent-Type: ".toList,
        "; smime-type=certs-only\r\nContent-Transfer-Encoding: base64\r\n\r\n".toList) := by
    decide +kernel
  have hblank : breakOn "\r\n\r\n".toList serverCertHeaders.toList =
      some (serverCertHeaders.toList.take 96, []) := by
    decide +kernel
  rw [fromMultipartBody_parts B hbody (by decide) (by decide +kernel) hcertText hkeyText,
    decodePart_eq B hct hblank isWhitespace_break hcertText]

theorem decodeText_wrapFrom
    (hrejects : ∀ s : String, (∃ c ∈ s.toList, c ∉ alphabet) → ∃ e, B.decode s = .error e)
    {bytes : List UInt8} : decodeText B (wrapFrom 0 (B.encode bytes).toList) = .ok bytes ↔
      (B.encode bytes).length ≤ 76 := by
  rw [← String.length_toList]
  constructor
  · intro h
    by_contra hlong
    have hbreak := break_mem_wrapFrom (not_le.mp hlong)
    obtain ⟨e, he⟩ := hrejects (String.ofList (wrapFrom 0 (B.encode bytes).toList))
      ⟨'\r', by rwa [String.toList_ofList], by decide⟩
    rw [decodeText, he] at h
    cases h
  · intro h
    rw [wrapFrom_of_le h, decodeText_encode]

/-- The part of an empty key is trimmed down to its headers, without the blank line behind them. -/
theorem decodePart_empty_key :
    decodePart B (trim isWhitespace (keyHeaders.toList ++ ([] ++ "\r\n".toList))) "application/pkcs8" =
      .error (.invalidMultipart "Missing blank line after headers") := by
  have hextract : extractBase64Content (trim isWhitespace (keyHeaders.toList ++ ([] ++ "\r\n".toList)))
      "application/pkcs8" = .error (.invalidMultipart "Missing blank line after headers") := by
    decide +kernel
  rw [decodePart, hextract]
  rfl

/-- The client gets the certificates and the key back exactly when both texts fit on one line and
    there is a key. -/
theorem client_reads_server_body_iff (hencode : L.crypto.base64Encode = B.encode)
    (hrejects : ∀ s : String, (∃ c ∈ s.toList, c ∉ alphabet) → ∃ e, B.decode s = .error e) :
    fromMultipartBody B (buildMultipartResponse L cert key) multipartBoundary =
        .ok ⟨cert, key, multipartBoundary⟩ ↔
      (B.encode cert).length ≤ 76 ∧ (B.encode key).length ≤ 76 ∧ key ≠ [] := by
  have hkeyText := between_wrapFrom (between_encode B key)
  rw [fromMultipartBody_server L B hencode, except_bind_eq_ok]
  by_cases hkey : key = []
  · subst hkey
    rw [B.encode_nil]
    simp only [ne_eq, not_true_eq_false, and_false, iff_false]
    rintro ⟨certDer, -, h⟩
    rw [show wrapFrom 0 "".toList = [] from rfl, decodePart_empty_key] at h
    cases h
  · have hne : wrapFrom 0 (B.encode key).toList ≠ [] := by
      intro hnil
      have hlast := getLast?_wrapFrom 0 (B.encode key).toList
      rw [hnil] at hlast
      exact encode_ne_nil B hkey (List.getLast?_eq_none_iff.mp hlast.symm)
    rw [trim_keyPart hkeyText hne, decodePart_eq B rfl rfl (by simp) hkeyText,
      ← decodeText_wrapFrom B hrejects, ← decodeText_wrapFrom B hrejects]
    constructor
    · rintro ⟨certDer, hcertDer, h⟩
      obtain ⟨keyDer, hkeyDer, h⟩ := except_bind_eq_ok.mp h
      cases h
      exact ⟨hcertDer, hkeyDer, hkey⟩
    · rintro ⟨hcertDer, hkeyDer, -⟩
      exact ⟨cert, hcertDer, except_bind_eq_ok.mpr ⟨key, hkeyDer, rfl⟩⟩

end

def engineLib : EnrollLib :=
  { plainLib.toEnrollLib with
    crypto := { plainLib.crypto with base64Encode := Sample.engine.encode }
    crypto_csr := rfl }

theorem engine_rejects (s : String) (h : ∃ c ∈ s.toList, c ∉ alphabet) :
    ∃ e, Sample.engine.decode s = .error e := by
  obtain ⟨c, hc, hout⟩ := h
  cases hbytes : base64Bytes s.toList with
  | none =>
    refine ⟨"invalid base64", ?_⟩
    simp only [Sample.engine, base64Decode, hbytes, Option.elim]
  | some bytes => exact absurd (mem_alphabet (isBase64_of_bytes hbytes c hc)) hout

/-- The text of 58 bytes has 80 characters. -/
theorem client_refuses_wrapped_body :
    ∃ e, fromMultipartBody Sample.engine
        (buildMultipartResponse engineLib (List.replicate 58 0x30) [0x30]) multipartBoundary =
      .error (.invalidBase64 e) := by
  have htext : ∃ e, decodeText Sample.engine
      (wrapFrom 0 (Sample.engine.encode (List.replicate 58 0x30)).toList) =
        .error (.invalidBase64 e) := by
    refine ⟨"invalid base64", ?_⟩
    decide +kernel
  obtain ⟨e, htext⟩ := htext
  rw [fromMultipartBody_server engineLib Sample.engine rfl, htext]
  exact ⟨e, rfl⟩

theorem client_reads_short_body :
    fromMultipartBody Sample.engine (buildMultipartResponse engineLib [0x30, 0x00] [0x30])
      multipartBoundary = .ok ⟨[0x30, 0x00], [0x30], multipartBoundary⟩ :=
  (client_reads_server_body_iff engineLib Sample.engine rfl engine_rejects).mpr (by decide)

end Kipuka.Enroll
