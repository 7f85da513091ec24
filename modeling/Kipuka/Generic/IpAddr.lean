/-
  IP addresses as texts: the parser and the display form of Rust's `std::net::IpAddr`.
-/
import Kipuka.Generic.Text

namespace Kipuka.Generic

inductive IpAddr where
  | v4 (octets : Vector UInt8 4)
  | v6 (segments : Vector UInt16 8)
  deriving DecidableEq, Repr

namespace IpAddr

abbrev Reader (α : Type) : Type := List Char → Option (α × List Char)

def toDigit (radix : Nat) (c : Char) : Option Nat := (hexValue c).filter fun n => n < radix

def readNumber (radix maxDigits bound : Nat) (allowZeroPrefix : Bool) : Reader Nat := fun cs =>
  let digits := (cs.takeWhile fun c => (toDigit radix c).isSome).filterMap (toDigit radix)
  let value := digits.foldl (fun n d => radix * n + d) 0
  if digits.length = 0 ∨ maxDigits < digits.length then none
  else if allowZeroPrefix = false ∧ cs.head? = some '0' ∧ 1 < digits.length then none
  else if bound ≤ value then none
  else some (value, cs.drop digits.length)

def readGivenChar (target : Char) : Reader Unit
  | [] => none
  | c :: cs => if c = target then some ((), cs) else none

def readSeparator {α : Type} (sep : Char) (index : Nat) (inner : Reader α) : Reader α := fun cs =>
  if index = 0 then inner cs
  else do
    let (_, cs) ← readGivenChar sep cs
    inner cs

def readIpv4Addr : Reader (Vector UInt8 4) := fun cs => do
  let octet := fun i cs => readSeparator '.' i (readNumber 10 3 256 false) cs
  let (a, cs) ← octet 0 cs
  let (b, cs) ← octet 1 cs
  let (c, cs) ← octet 2 cs
  let (d, cs) ← octet 3 cs
  return (#v[a.toUInt8, b.toUInt8, c.toUInt8, d.toUInt8], cs)

def fromBeBytes (hi lo : UInt8) : UInt16 := (256 * hi.toNat + lo.toNat).toUInt16

/-- Up to `left` groups from position `i` on, whether an IPv4 address ended them, and the rest of
    the text. An IPv4 address needs two groups. -/
def readGroups : (left i : Nat) → List Char → List UInt16 × Bool × List Char
  | 0, _, cs => ([], false, cs)
  | left + 1, i, cs =>
    match (if 0 < left then readSeparator ':' i readIpv4Addr cs else none) with
    | some (ip, rest) => ([fromBeBytes ip[0] ip[1], fromBeBytes ip[2] ip[3]], true, rest)
    | none =>
      match readSeparator ':' i (readNumber 16 4 65536 true) cs with
      | none => ([], false, cs)
      | some (group, rest) =>
        let (groups, embedded, rest) := readGroups left (i + 1) rest
        (group.toUInt16 :: groups, embedded, rest)

def segmentsOf (head tail : List UInt16) : Vector UInt16 8 :=
  Vector.ofFn fun i =>
    if i.1 < head.length then head.getD i.1 0
    else if 8 - tail.length ≤ i.1 then tail.getD (i.1 - (8 - tail.length)) 0
    else 0

def readIpv6Addr : Reader (Vector UInt16 8) := fun cs =>
  match readGroups 8 0 cs with
  | (head, embedded, cs) =>
    if head.length = 8 then some (segmentsOf head [], cs)
    -- an IPv4 part is not allowed before `::`
    else if embedded then none
    else do
      let (_, cs) ← readGivenChar ':' cs
      let (_, cs) ← readGivenChar ':' cs
      -- `::` stands for at least one group
      let (tail, _, cs) := readGroups (8 - (head.length + 1)) 0 cs
      return (segmentsOf head tail, cs)

def readIpAddr : Reader IpAddr := fun cs =>
  match readIpv4Addr cs with
  | some (octets, rest) => some (.v4 octets, rest)
  | none => (readIpv6Addr cs).map fun (segments, rest) => (.v6 segments, rest)

def parse (s : String) : Option IpAddr :=
  match readIpAddr s.toList with
  | some (ip, []) => some ip
  | _ => none

/-! ## Display -/

def displayV4 (a b c d : UInt8) : String := s!"{a}.{b}.{c}.{d}"

def hexGroup (n : UInt16) : String := String.ofList (Nat.toDigits 16 n.toNat)

def displayGroups (groups : List UInt16) : String := ":".intercalate (groups.map hexGroup)

/-- Start and length of the longest run of zeros, the first one among equals. `i` is the position,
    `run` the length of the run of zeros that ends there. -/
def longestZeros : (i run : Nat) → (best : Nat × Nat) → List UInt16 → Nat × Nat
  | _, _, best, [] => best
  | i, run, best, group :: groups =>
    if group = 0 then
      let best := if best.2 < run + 1 then (i - run, run + 1) else best
      longestZeros (i + 1) (run + 1) best groups
    else longestZeros (i + 1) 0 best groups

def displayV6 (segments : List UInt16) : String :=
  match segments with
  | [0, 0, 0, 0, 0, 0xffff, g, h] =>
    "::ffff:" ++ displayV4 (g.toNat / 256).toUInt8 (g.toNat % 256).toUInt8
      (h.toNat / 256).toUInt8 (h.toNat % 256).toUInt8
  | _ =>
    let (start, len) := longestZeros 0 0 (0, 0) segments
    if 1 < len then
      displayGroups (segments.take start) ++ "::" ++ displayGroups (segments.drop (start + len))
    else displayGroups segments

def display : IpAddr → String
  | v4 octets => displayV4 octets[0] octets[1] octets[2] octets[3]
  | v6 segments => displayV6 segments.toList

example : parse "10.0.0.1" = some (.v4 #v[10, 0, 0, 1]) := by decide +kernel

example : (parse "2001:db8::1:0:0.0.0.5").map display = some "2001:db8::1:0:0:5" := by
  decide +kernel

example : parse "1.2.3.04" = none ∧ parse "1::2::3" = none := by decide +kernel

end IpAddr

end Kipuka.Generic
