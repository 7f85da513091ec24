/-
  Text as bytes: the UTF-8 bytes of a string, its quoted form, and hexadecimal text.
-/
import Mathlib.Data.List.Basic

namespace Kipuka.Generic

/-! ## UTF-8 -/

def asBytes (s : String) : List UInt8 := s.toByteArray.data.toList

theorem asBytes_inj {s t : String} : asBytes s = asBytes t ↔ s = t := by
  constructor
  · intro h
    apply String.toByteArray_inj.mp
    apply ByteArray.ext
    exact Array.toList_inj.mp h
  · intro h
    rw [h]

theorem asBytes_ofList (cs : List Char) :
    asBytes (String.ofList cs) = cs.flatMap String.utf8EncodeChar := by
  unfold asBytes
  rw [String.toByteArray_ofList, List.utf8Encode]
  simp

theorem asBytes_eq_flatMap (s : String) : asBytes s = s.toList.flatMap String.utf8EncodeChar := by
  rw [← asBytes_ofList, String.ofList_toList]

def fromUtf8 (bs : List UInt8) : Option String := String.fromUTF8? ⟨bs.toArray⟩

theorem fromUtf8_asBytes (s : String) : fromUtf8 (asBytes s) = some s := by
  have hbytes : (⟨(asBytes s).toArray⟩ : ByteArray) = s.toByteArray := by
    unfold asBytes
    rw [Array.toArray_toList]
  unfold fromUtf8 String.fromUTF8?
  rw [hbytes]
  exact dif_pos s.isValidUTF8

theorem fromUtf8_eq_some {bs : List UInt8} {s : String} :
    fromUtf8 bs = some s ↔ bs = asBytes s := by
  constructor
  · intro h
    unfold fromUtf8 String.fromUTF8? at h
    split at h
    · rw [← Option.some.inj h]
      rfl
    · exact nomatch h
  · rintro rfl
    exact fromUtf8_asBytes s

/-! ## Quoting -/

/-- A character inside a quoted string. Of the characters without a printable form only the ASCII
    control characters are escaped here. -/
def escapeDebug (c : Char) : List Char :=
  match c with
  | '\t' => ['\\', 't']
  | '\n' => ['\\', 'n']
  | '\r' => ['\\', 'r']
  | '"' => ['\\', '"']
  | '\\' => ['\\', '\\']
  | c =>
    if c.toNat = 0 then ['\\', '0']
    else if c.toNat < 32 ∨ c.toNat = 127 then
      "\\u\x7b".toList ++ Nat.toDigits 16 c.toNat ++ "\x7d".toList
    else [c]

def debugStr (s : String) : String :=
  String.ofList ('"' :: s.toList.flatMap escapeDebug ++ ['"'])

/-! ## Hexadecimal -/

def hexDigit (n : Nat) : Char :=
  if n < 10 then Char.ofNat (48 + n) else Char.ofNat (87 + n)

def hexValue (c : Char) : Option Nat :=
  if '0' ≤ c ∧ c ≤ '9' then some (c.toNat - 48)
  else if 'a' ≤ c ∧ c ≤ 'f' then some (c.toNat - 87)
  else if 'A' ≤ c ∧ c ≤ 'F' then some (c.toNat - 55)
  else none

def hexChars (bs : List UInt8) : List Char :=
  bs.flatMap fun b => [hexDigit (b.toNat / 16), hexDigit (b.toNat % 16)]

def hexEncode (bs : List UInt8) : String := String.ofList (hexChars bs)

def hexBytes : List Char → Option (List UInt8)
  | [] => some []
  | hi :: lo :: rest => do
    let h ← hexValue hi
    let l ← hexValue lo
    let bs ← hexBytes rest
    return UInt8.ofNat (16 * h + l) :: bs
  | [_] => none

def hexDecode (s : String) : Option (List UInt8) := hexBytes s.toList

theorem hexValue_hexDigit : ∀ n : Fin 16, hexValue (hexDigit n.1) = some n.1 := by decide

theorem hexBytes_hexChars (bs : List UInt8) : hexBytes (hexChars bs) = some bs := by
  induction bs with
  | nil => rfl
  | cons b bs ih =>
    have hb := b.toNat_lt
    have hhi := hexValue_hexDigit ⟨b.toNat / 16, by omega⟩
    have hlo := hexValue_hexDigit ⟨b.toNat % 16, by omega⟩
    have hrec : 16 * (b.toNat / 16) + b.toNat % 16 = b.toNat := by omega
    have hcons : hexChars (b :: bs) =
        hexDigit (b.toNat / 16) :: hexDigit (b.toNat % 16) :: hexChars bs := rfl
    have hbyte : UInt8.ofNat (16 * (b.toNat / 16) + b.toNat % 16) = b := by
      rw [hrec]
      exact UInt8.ofNat_toNat
    rw [hcons, hexBytes, hhi, hlo, ih]
    exact congrArg (fun x => some (x :: bs)) hbyte

theorem hexDecode_hexEncode (bs : List UInt8) : hexDecode (hexEncode bs) = some bs := by
  unfold hexDecode hexEncode
  rw [String.toList_ofList, hexBytes_hexChars]

theorem hexEncode_inj {as bs : List UInt8} : hexEncode as = hexEncode bs ↔ as = bs := by
  constructor
  · intro h
    have hdec := congrArg hexDecode h
    rw [hexDecode_hexEncode, hexDecode_hexEncode] at hdec
    exact Option.some.inj hdec
  · intro h
    rw [h]

theorem le_hexDigit : ∀ n : Fin 16, 48 ≤ (hexDigit n.1).toNat := by decide

theorem le_of_mem_hexChars {bs : List UInt8} {c : Char} (h : c ∈ hexChars bs) :
    48 ≤ c.toNat := by
  unfold hexChars at h
  obtain ⟨b, _, hc⟩ := List.mem_flatMap.mp h
  have hb := b.toNat_lt
  simp only [List.mem_cons, List.not_mem_nil, or_false] at hc
  rcases hc with hc | hc
  · rw [hc]
    exact le_hexDigit ⟨b.toNat / 16, by omega⟩
  · rw [hc]
    exact le_hexDigit ⟨b.toNat % 16, by omega⟩

end Kipuka.Generic
