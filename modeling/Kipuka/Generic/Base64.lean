/-
  Base64 with the standard alphabet, padded, as a pair of functions on lists. The decoder takes what
  the encoder writes and nothing else: groups of four symbols, padding in the last group only, and no
  bits set behind the last byte. Proved are the round trip and which characters can occur.
-/
import Mathlib.Data.List.Basic

namespace Kipuka.Generic

def base64Char (n : Nat) : Char :=
  Char.ofNat (if n < 26 then n + 65 else if n < 52 then n + 71 else if n < 62 then n - 4
    else if n = 62 then 43 else 47)

def base64Value (c : Char) : Option Nat :=
  let n := c.toNat
  if 65 ≤ n ∧ n ≤ 90 then some (n - 65)
  else if 97 ≤ n ∧ n ≤ 122 then some (n - 71)
  else if 48 ≤ n ∧ n ≤ 57 then some (n + 4)
  else if n = 43 then some 62
  else if n = 47 then some 63
  else none

def base64Chars : List UInt8 → List Char
  | [] => []
  | [a] => [base64Char (a.toNat / 4), base64Char (a.toNat % 4 * 16), '=', '=']
  | [a, b] =>
    [base64Char (a.toNat / 4), base64Char (a.toNat % 4 * 16 + b.toNat / 16),
      base64Char (b.toNat % 16 * 4), '=']
  | a :: b :: c :: rest =>
    base64Char (a.toNat / 4) :: base64Char (a.toNat % 4 * 16 + b.toNat / 16) ::
      base64Char (b.toNat % 16 * 4 + c.toNat / 64) :: base64Char (c.toNat % 64) :: base64Chars rest

def base64Bytes : List Char → Option (List UInt8)
  | [] => some []
  | w :: x :: y :: z :: rest => do
    let i ← base64Value w
    let j ← base64Value x
    let a := UInt8.ofNat (i * 4 + j / 16)
    if y = '=' then
      if z = '=' ∧ rest = [] ∧ j % 16 = 0 then some [a] else none
    else
      let k ← base64Value y
      let b := UInt8.ofNat (j % 16 * 16 + k / 4)
      if z = '=' then
        if rest = [] ∧ k % 4 = 0 then some [a, b] else none
      else
        let l ← base64Value z
        let bytes ← base64Bytes rest
        return a :: b :: UInt8.ofNat (k % 4 * 64 + l) :: bytes
  | _ => none

def base64Encode (bytes : List UInt8) : String := String.ofList (base64Chars bytes)

def base64Decode (text : List Char) : Except String (List UInt8) :=
  (base64Bytes text).elim (.error "invalid base64") .ok

theorem base64Value_char : ∀ n : Fin 64,
    base64Value (base64Char n) = some n.1 ∧ base64Char n ≠ '=' := by
  decide +kernel

theorem base64Value_of_lt {n : Nat} (h : n < 64) : base64Value (base64Char n) = some n :=
  (base64Value_char ⟨n, h⟩).1

theorem base64Char_ne {n : Nat} (h : n < 64) : base64Char n ≠ '=' := (base64Value_char ⟨n, h⟩).2

/-- The symbols of a text: those of the numbers below 64, and the padding. -/
def IsBase64 (c : Char) : Prop := (∃ n : Fin 64, base64Char n = c) ∨ c = '='

theorem isBase64_of_value {c : Char} {n : Nat} (h : base64Value c = some n) : IsBase64 c := by
  have hchar : ∀ m k, c.toNat = k → (if m < 26 then m + 65 else if m < 52 then m + 71
      else if m < 62 then m - 4 else if m = 62 then 43 else 47) = k → base64Char m = c := by
    rintro m _ rfl hm
    rw [base64Char, hm, Char.ofNat_toNat]
  unfold base64Value at h
  have hn : n < 64 ∧ base64Char n = c := by
    grind
  exact .inl ⟨⟨n, hn.1⟩, hn.2⟩

theorem byte_of_eq (a : UInt8) {n : Nat} (h : n = a.toNat) : UInt8.ofNat n = a := by
  rw [h, UInt8.ofNat_toNat]

theorem base64Bytes_base64Chars (bytes : List UInt8) :
    base64Bytes (base64Chars bytes) = some bytes := by
  fun_induction base64Chars bytes with
  | case1 => rfl
  | case2 a =>
    have ha := a.toNat_lt
    simp (disch := omega) only [base64Bytes, base64Value_of_lt, Option.bind_eq_bind,
      Option.bind_some, Nat.mul_mod_left, and_self, if_true]
    rw [byte_of_eq a (by omega)]
  | case3 a b =>
    have ha := a.toNat_lt
    have hb := b.toNat_lt
    simp (disch := omega) only [base64Bytes, base64Value_of_lt, Option.bind_eq_bind,
      Option.bind_some, base64Char_ne, if_false, true_and, if_true]
    rw [if_pos (by omega), byte_of_eq a (by omega), byte_of_eq b (by omega)]
  | case4 a b c rest ih =>
    have ha := a.toNat_lt
    have hb := b.toNat_lt
    have hc := c.toNat_lt
    simp (disch := omega) only [base64Bytes, base64Value_of_lt, Option.bind_eq_bind,
      Option.bind_some, base64Char_ne, if_false, ih]
    rw [byte_of_eq a (by omega), byte_of_eq b (by omega), byte_of_eq c (by omega)]
    rfl

theorem isBase64_of_bytes {text : List Char} {bytes : List UInt8}
    (h : base64Bytes text = some bytes) : ∀ c ∈ text, IsBase64 c := by
  fun_induction base64Bytes text generalizing bytes with
  | case1 => simp
  | case2 w x y z rest ih =>
    obtain ⟨i, hi, h⟩ := Option.bind_eq_some_iff.mp h
    obtain ⟨j, hj, h⟩ := Option.bind_eq_some_iff.mp h
    simp only [List.forall_mem_cons, isBase64_of_value hi, isBase64_of_value hj, true_and]
    dsimp only at h
    split at h
    · next hy =>
      obtain ⟨hz, hrest, -⟩ := (Option.ite_none_right_eq_some.mp h).1
      exact ⟨.inr hy, .inr hz, by simp [hrest]⟩
    · obtain ⟨k, hk, h⟩ := Option.bind_eq_some_iff.mp h
      split at h
      · next hz =>
        obtain ⟨hrest, -⟩ := (Option.ite_none_right_eq_some.mp h).1
        exact ⟨isBase64_of_value hk, .inr hz, by simp [hrest]⟩
      · obtain ⟨l, hl, h⟩ := Option.bind_eq_some_iff.mp h
        obtain ⟨more, hmore, -⟩ := Option.bind_eq_some_iff.mp h
        exact ⟨isBase64_of_value hk, isBase64_of_value hl, ih hmore⟩
  | case3 => cases h

theorem isBase64_of_mem {bytes : List UInt8} {c : Char} (h : c ∈ base64Chars bytes) :
    IsBase64 c :=
  isBase64_of_bytes (base64Bytes_base64Chars bytes) c h

theorem base64Decode_base64Encode (bytes : List UInt8) :
    base64Decode (base64Encode bytes).toList = .ok bytes := by
  rw [base64Decode, base64Encode, String.toList_ofList, base64Bytes_base64Chars]
  rfl

end Kipuka.Generic
