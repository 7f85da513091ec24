/-
  Block-wise transfer (`crates/kipuka-coap/src/block.rs`): the packed Block option, the assembler
  that collects Block1 fragments, the disassembler that cuts a payload into blocks, and the uint
  option values (`CoapOption::from_uint`, `value_as_uint` in `server.rs`) that carry the option.
-/
import Kipuka.Coap.Message
import Mathlib.Data.Nat.Bitwise

namespace Kipuka.Coap

/-! ## Option values -/

def CoapOption.valueAsUint (o : CoapOption) : UInt32 :=
  o.value.foldl (fun result byte => (result <<< 8) ||| byte.toUInt32) 0

def CoapOption.fromUint (number : UInt16) (value : UInt32) : CoapOption where
  number := number
  value :=
    if value = 0 then []
    else if value ≤ 0xFF then [value.toUInt8]
    else if value ≤ 0xFFFF then [(value >>> 8).toUInt8, value.toUInt8]
    else if value ≤ 0xFFFFFF then [(value >>> 16).toUInt8, (value >>> 8).toUInt8, value.toUInt8]
    else [(value >>> 24).toUInt8, (value >>> 16).toUInt8, (value >>> 8).toUInt8, value.toUInt8]

/-! ## The Block option -/

def defaultSzx : UInt8 := 5

def maxSzx : UInt8 := 6

structure BlockOption where
  num : UInt32
  more : Bool
  szx : UInt8
  deriving DecidableEq, Repr

def BlockOption.decode (value : UInt32) : BlockOption where
  num := value >>> 4
  more := decide (value &&& 0x08 ≠ 0)
  szx := (value &&& 0x07).toUInt8

def BlockOption.encode (b : BlockOption) : UInt32 :=
  let value := b.num <<< 4
  let value := if b.more then value ||| 0x08 else value
  value ||| (b.szx.toUInt32 &&& 0x07)

def blockSizeFromSzx (szx : UInt8) : Nat := 1 <<< ((min szx maxSzx).toNat + 4)

def szxFromBlockSize (size : Nat) : Option UInt8 :=
  match size with
  | 16 => some 0
  | 32 => some 1
  | 64 => some 2
  | 128 => some 3
  | 256 => some 4
  | 512 => some 5
  | 1024 => some 6
  | _ => none

/-! ## Assembling -/

structure BlockAssembler where
  buffer : List UInt8
  nextNum : UInt32
  szx : UInt8
  maxPayload : Nat
  complete : Bool
  deriving DecidableEq, Repr

namespace BlockAssembler

def new (maxPayload : Nat) : BlockAssembler where
  buffer := []
  nextNum := 0
  szx := defaultSzx
  maxPayload := maxPayload
  complete := false

/-- `BlockAssembler::process_block`, with the assembler it leaves behind. A first block that is too
    large has already set the size exponent. -/
def processBlock (a : BlockAssembler) (block : BlockOption) (data : List UInt8) :
    Except CoapError Bool × BlockAssembler :=
  if a.complete then
    (.error (.blockTransferError "Transfer already complete"), a)
  else if block.num ≠ a.nextNum then
    (.error (.blockTransferError s!"Expected block {a.nextNum}, received block {block.num}"), a)
  else
    let a := if block.num = 0 then { a with szx := block.szx } else a
    let newSize := a.buffer.length + data.length
    if newSize > a.maxPayload then
      (.error (.payloadTooLarge newSize a.maxPayload), a)
    else
      let a := { a with buffer := a.buffer ++ data, nextNum := block.num + 1 }
      let a := if block.more then a else { a with complete := true }
      (.ok a.complete, a)

def payload (a : BlockAssembler) : Option (List UInt8) := if a.complete then some a.buffer else none

def intoPayload (a : BlockAssembler) : Except CoapError (List UInt8) :=
  if a.complete then .ok a.buffer
  else .error (.blockTransferError
    s!"Transfer incomplete: received {a.nextNum} blocks, waiting for more")

def reset (a : BlockAssembler) : BlockAssembler :=
  { a with buffer := [], nextNum := 0, szx := defaultSzx, complete := false }

end BlockAssembler

/-! ## Disassembling -/

structure BlockDisassembler where
  payload : List UInt8
  szx : UInt8
  deriving DecidableEq, Repr

namespace BlockDisassembler

def new (payload : List UInt8) (szx : UInt8) : BlockDisassembler where
  payload := payload
  szx := min szx maxSzx

def getBlock (d : BlockDisassembler) (blockNum : UInt32) : Option (List UInt8 × BlockOption) :=
  let blockSize := blockSizeFromSzx d.szx
  let offset := blockNum.toNat * blockSize
  if offset ≥ d.payload.length then none
  else
    let stop := min (offset + blockSize) d.payload.length
    let data := (d.payload.drop offset).take (stop - offset)
    let more := decide (stop < d.payload.length)
    some (data, { num := blockNum, more, szx := d.szx })

def divCeil (n d : Nat) : Nat := (n + d - 1) / d

def totalBlocks (d : BlockDisassembler) : UInt32 :=
  if d.payload.isEmpty then 1 else (divCeil d.payload.length (blockSizeFromSzx d.szx)).toUInt32

end BlockDisassembler

/-! ## Option values round trip -/

theorem toNat_shiftLeft_or (r : UInt32) (b : UInt8) (h : r.toNat < 2 ^ 24) :
    ((r <<< 8) ||| b.toUInt32).toNat = r.toNat * 256 + b.toNat := by
  have hb := b.toNat_lt
  rw [UInt32.toNat_or, UInt32.toNat_shiftLeft, UInt8.toNat_toUInt32]
  have h8 : (8 : UInt32).toNat % 32 = 8 := rfl
  rw [h8, Nat.mod_eq_of_lt (by rw [Nat.shiftLeft_eq]; omega), ← Nat.shiftLeft_add_eq_or_of_lt hb,
    Nat.shiftLeft_eq]

theorem toNat_byte (v : UInt32) (k : Nat) (hk : k < 32) :
    (v >>> k.toUInt32).toUInt8.toNat = v.toNat / 2 ^ k % 256 := by
  rw [UInt32.toNat_toUInt8, UInt32.toNat_shiftRight, Nat.shiftRight_eq_div_pow]
  have hk' : k.toUInt32.toNat % 32 = k := by
    rw [Nat.toUInt32, UInt32.toNat_ofNat']
    omega
  rw [hk']

theorem valueAsUint_fromUint (number : UInt16) (v : UInt32) :
    (CoapOption.fromUint number v).valueAsUint = v := by
  have hv := v.toNat_lt
  have h0 : v.toUInt8.toNat = v.toNat % 256 := UInt32.toNat_toUInt8 v
  have h8 : (v >>> 8).toUInt8.toNat = v.toNat / 2 ^ 8 % 256 := toNat_byte v 8 (by decide)
  have h16 : (v >>> 16).toUInt8.toNat = v.toNat / 2 ^ 16 % 256 := toNat_byte v 16 (by decide)
  have h24 : (v >>> 24).toUInt8.toNat = v.toNat / 2 ^ 24 % 256 := toNat_byte v 24 (by decide)
  have hz : (0 : UInt32).toNat = 0 := rfl
  apply UInt32.toNat_inj.mp
  unfold CoapOption.valueAsUint CoapOption.fromUint
  dsimp only
  split
  · next h =>
    rw [h]
    rfl
  · split
    · next h =>
      have hle : v.toNat ≤ 255 := UInt32.le_iff_toNat_le.mp h
      rw [List.foldl_cons, List.foldl_nil, toNat_shiftLeft_or _ _ (by omega)]
      omega
    · split
      · next h =>
        have hle : v.toNat ≤ 65535 := UInt32.le_iff_toNat_le.mp h
        simp only [List.foldl_cons, List.foldl_nil]
        have e1 := toNat_shiftLeft_or 0 (v >>> 8).toUInt8 (by omega)
        rw [toNat_shiftLeft_or _ _ (by omega), e1]
        omega
      · split
        · next h =>
          have hle : v.toNat ≤ 16777215 := UInt32.le_iff_toNat_le.mp h
          simp only [List.foldl_cons, List.foldl_nil]
          have e1 := toNat_shiftLeft_or 0 (v >>> 16).toUInt8 (by omega)
          have e2 := toNat_shiftLeft_or _ (v >>> 8).toUInt8 (by rw [e1]; omega)
          rw [toNat_shiftLeft_or _ _ (by omega), e2, e1]
          omega
        · simp only [List.foldl_cons, List.foldl_nil]
          have e1 := toNat_shiftLeft_or 0 (v >>> 24).toUInt8 (by omega)
          have e2 := toNat_shiftLeft_or _ (v >>> 16).toUInt8 (by rw [e1]; omega)
          have e3 := toNat_shiftLeft_or _ (v >>> 8).toUInt8 (by rw [e2, e1]; omega)
          rw [toNat_shiftLeft_or _ _ (by omega), e3, e2, e1]
          omega

section

variable (b : BlockOption) (hnum : b.num.toNat < 2 ^ 28) (hszx : b.szx.toNat < 8)

include hnum hszx

theorem toNat_encode :
    b.encode.toNat = b.num.toNat * 16 + (if b.more then 8 else 0) + b.szx.toNat := by
  have hshift : (b.num <<< 4).toNat = b.num.toNat * 16 := by
    rw [UInt32.toNat_shiftLeft]
    have h4 : (4 : UInt32).toNat % 32 = 4 := rfl
    rw [h4, Nat.shiftLeft_eq]
    omega
  have hlow : (b.szx.toUInt32 &&& 0x07).toNat = b.szx.toNat := by
    rw [UInt32.toNat_and, UInt8.toNat_toUInt32]
    show b.szx.toNat &&& (2 ^ 3 - 1) = _
    rw [Nat.and_two_pow_sub_one_eq_mod]
    omega
  -- each part goes below the bits that are already set
  have hor : ∀ hi k lo : Nat, lo < 2 ^ k → (hi * 2 ^ k) ||| lo = hi * 2 ^ k + lo := by
    intro hi k lo hlo
    rw [← Nat.shiftLeft_eq, Nat.shiftLeft_add_eq_or_of_lt hlo]
  unfold BlockOption.encode
  dsimp only
  rw [UInt32.toNat_or, hlow]
  split
  · rw [UInt32.toNat_or, hshift]
    have h8 : b.num.toNat * 16 ||| (0x08 : UInt32).toNat = b.num.toNat * 16 + 8 :=
      hor b.num.toNat 4 8 (by decide)
    have hszx' := hor (b.num.toNat * 2 + 1) 3 b.szx.toNat hszx
    rw [h8, show b.num.toNat * 16 + 8 = (b.num.toNat * 2 + 1) * 2 ^ 3 by omega, hszx']
  · have hszx' : b.num.toNat * 16 ||| b.szx.toNat = b.num.toNat * 16 + b.szx.toNat :=
      hor b.num.toNat 4 b.szx.toNat (by omega)
    rw [hshift, hszx', Nat.add_zero]

theorem decode_encode : BlockOption.decode b.encode = b := by
  have henc := toNat_encode b hnum hszx
  have hszx' : (b.encode &&& 0x07).toUInt8 = b.szx := by
    apply UInt8.toNat_inj.mp
    rw [UInt32.toNat_toUInt8, UInt32.toNat_and]
    show (b.encode.toNat &&& (2 ^ 3 - 1)) % 2 ^ 8 = _
    rw [Nat.and_two_pow_sub_one_eq_mod, henc]
    split <;> omega
  have hnum' : b.encode >>> 4 = b.num := by
    apply UInt32.toNat_inj.mp
    rw [UInt32.toNat_shiftRight, Nat.shiftRight_eq_div_pow]
    have h4 : (4 : UInt32).toNat % 32 = 4 := rfl
    rw [h4, henc]
    split <;> omega
  have hmore : decide (b.encode &&& 0x08 ≠ 0) = b.more := by
    have hand : (b.encode &&& 0x08).toNat = (b.encode.toNat.testBit 3).toNat * 8 := by
      rw [UInt32.toNat_and]
      exact Nat.and_two_pow b.encode.toNat 3
    have hbit : b.encode.toNat.testBit 3 = b.more := by
      rw [Nat.testBit_eq_decide_div_mod_eq, henc]
      cases b.more with
      | true | false => simp; omega
    have hzero : b.encode &&& 0x08 = 0 ↔ b.more = false := by
      rw [← UInt32.toNat_inj, hand, hbit]
      cases b.more with
      | true => decide
      | false => decide
    cases hm : b.more with
    | true => exact decide_eq_true fun h => by simp [hzero.mp h] at hm
    | false => exact decide_eq_false fun h => h (hzero.mpr hm)
  unfold BlockOption.decode
  rw [hszx', hnum', hmore]

end

/-! ## A whole transfer -/

/-- A block option as the other side reads it: written as an option value and decoded again. -/
def BlockOption.onWire (number : UInt16) (b : BlockOption) : BlockOption :=
  BlockOption.decode (CoapOption.fromUint number b.encode).valueAsUint

/-- An assembler that has taken no block. -/
structure BlockAssembler.Idle (a : BlockAssembler) : Prop where
  buffer : a.buffer = []
  nextNum : a.nextNum = 0
  complete : a.complete = false

theorem BlockAssembler.reset_idle (a : BlockAssembler) : a.reset.Idle := ⟨rfl, rfl, rfl⟩

/-- Feed blocks to the assembler and read `payload()` after each of them. -/
def BlockAssembler.feed (a : BlockAssembler) :
    List (List UInt8 × BlockOption) → Except CoapError (List (Option (List UInt8)))
  | [] => .ok []
  | (data, block) :: rest =>
    match a.processBlock block data with
    | (.error e, _) => .error e
    | (.ok _, a') => do
      let later ← a'.feed rest
      return a'.payload :: later

def BlockDisassembler.blocks (d : BlockDisassembler) (number : UInt16) (lo n : Nat) :
    List (List UInt8 × BlockOption) :=
  (List.range' lo n).filterMap fun i =>
    (d.getBlock i.toUInt32).map fun (data, block) => (data, block.onWire number)

theorem onWire_eq (number : UInt16) (b : BlockOption) (hnum : b.num.toNat < 2 ^ 28)
    (hszx : b.szx.toNat < 8) : b.onWire number = b := by
  rw [BlockOption.onWire, valueAsUint_fromUint, decode_encode b hnum hszx]

theorem processBlock_next (a : BlockAssembler) (block : BlockOption) (data : List UInt8)
    (hrunning : a.complete = false) (hnext : block.num = a.nextNum)
    (hsize : a.buffer.length + data.length ≤ a.maxPayload) :
    a.processBlock block data =
      (.ok (!block.more), ⟨a.buffer ++ data, block.num + 1,
        if block.num = 0 then block.szx else a.szx, a.maxPayload, !block.more⟩) := by
  have hbuf : ∀ c : Prop, [Decidable c] → (if c then { a with szx := block.szx } else a) =
      { a with szx := if c then block.szx else a.szx } := by
    intro c _
    split <;> rfl
  unfold BlockAssembler.processBlock
  rw [if_neg (by rw [hrunning]; nofun), if_neg (fun h => h hnext), hbuf]
  dsimp only
  rw [if_neg (by omega)]
  cases block.more with
  | true => simp [hrunning]
  | false => simp

/-- The block is the next one and fits. -/
structure BlockAssembler.Accepts (a : BlockAssembler) (block : BlockOption) (data : List UInt8) :
    Prop where
  running : a.complete = false
  next : block.num = a.nextNum
  size : a.buffer.length + data.length ≤ a.maxPayload

theorem processBlock_refused {a : BlockAssembler} {block : BlockOption} {data : List UInt8}
    (h : ¬ a.Accepts block data) :
    ∃ e, a.processBlock block data = (.error e, { a with szx :=
      if a.complete = false ∧ block.num = a.nextNum ∧ block.num = 0 then block.szx else a.szx }) := by
  unfold BlockAssembler.processBlock
  split
  · next hcomplete => exact ⟨_, by rw [if_neg fun hc => by simp [hcomplete] at hc]⟩
  · next hrunning =>
    split
    · next hother => exact ⟨_, by rw [if_neg fun hc => hother hc.2.1]⟩
    · next hnext =>
      have hrunning : a.complete = false := Bool.eq_false_iff.mpr hrunning
      have hnext : block.num = a.nextNum := not_not.mp hnext
      have hlarge : a.maxPayload < a.buffer.length + data.length :=
        Nat.not_le.mp fun hsize => h ⟨hrunning, hnext, hsize⟩
      dsimp only
      by_cases hzero : block.num = 0
      · rw [if_pos hzero, if_pos hlarge, if_pos ⟨hrunning, hnext, hzero⟩]
        exact ⟨_, rfl⟩
      · rw [if_neg hzero, if_pos hlarge, if_neg fun hc => hzero hc.2.2]
        exact ⟨_, rfl⟩

theorem blockSizeFromSzx_pos (szx : UInt8) : 0 < blockSizeFromSzx szx := by
  rw [blockSizeFromSzx, Nat.one_shiftLeft]
  exact Nat.two_pow_pos _

theorem BlockDisassembler.divCeil_cover {n size : Nat} (hpos : 0 < size) (hn : 0 < n) :
    0 < divCeil n size ∧ (divCeil n size - 1) * size < n ∧ n ≤ divCeil n size * size := by
  unfold divCeil
  have hdiv := Nat.div_add_mod (n + size - 1) size
  have hmod := Nat.mod_lt (n + size - 1) hpos
  generalize (n + size - 1) / size = q at hdiv
  have hq : 0 < q := by
    rcases Nat.eq_zero_or_pos q with rfl | h
    · omega
    · exact h
  obtain ⟨q', rfl⟩ : ∃ q', q = q' + 1 := ⟨q - 1, by omega⟩
  rw [Nat.mul_comm, Nat.add_mul, Nat.one_mul] at hdiv
  rw [Nat.add_sub_cancel, Nat.add_mul, Nat.one_mul]
  omega

theorem getBlock_of_lt (d : BlockDisassembler) (i : Nat) (hi : i < 2 ^ 32)
    (h : i * blockSizeFromSzx d.szx < d.payload.length) :
    d.getBlock i.toUInt32 = some ((d.payload.drop (i * blockSizeFromSzx d.szx)).take
        (blockSizeFromSzx d.szx),
      ⟨i.toUInt32, decide ((i + 1) * blockSizeFromSzx d.szx < d.payload.length), d.szx⟩) := by
  have hnat : i.toUInt32.toNat = i := by
    rw [Nat.toUInt32, UInt32.toNat_ofNat']
    omega
  unfold BlockDisassembler.getBlock
  dsimp only
  rw [hnat, if_neg (by omega), Nat.add_mul, Nat.one_mul]
  by_cases hlast : i * blockSizeFromSzx d.szx + blockSizeFromSzx d.szx < d.payload.length
  · rw [Nat.min_eq_left (Nat.le_of_lt hlast), Nat.add_sub_cancel_left]
  · rw [Nat.min_eq_right (by omega), List.take_of_length_le (by rw [List.length_drop]),
      List.take_of_length_le (by rw [List.length_drop]; omega)]
    simp [hlast]

theorem feed_from (d : BlockDisassembler) (hszx : d.szx.toNat ≤ 6) (number : UInt16) (n i : Nat)
    (hn : 0 < n) (hfit : i + n ≤ 2 ^ 20)
    (hlast : (i + n - 1) * blockSizeFromSzx d.szx < d.payload.length)
    (hend : d.payload.length ≤ (i + n) * blockSizeFromSzx d.szx) (a : BlockAssembler)
    (hbuf : a.buffer = d.payload.take (i * blockSizeFromSzx d.szx))
    (hnext : a.nextNum = i.toUInt32) (hrunning : a.complete = false)
    (hmax : d.payload.length ≤ a.maxPayload) :
    (d.blocks number i n).length = n ∧
      a.feed (d.blocks number i n) =
        .ok (List.replicate (n - 1) none ++ [some d.payload]) := by
  induction n generalizing i a with
  | zero => omega
  | succ n ih =>
    have hmul : i * blockSizeFromSzx d.szx ≤ (i + n) * blockSizeFromSzx d.szx :=
      Nat.mul_le_mul_right _ (by omega)
    have hget := getBlock_of_lt d i (by omega)
      (by rw [show i + (n + 1) - 1 = i + n by omega] at hlast; omega)
    have hnat : i.toUInt32.toNat = i := by
      rw [Nat.toUInt32, UInt32.toNat_ofNat']
      omega
    generalize hdata : (d.payload.drop (i * blockSizeFromSzx d.szx)).take
      (blockSizeFromSzx d.szx) = data at hget
    generalize hmore : decide ((i + 1) * blockSizeFromSzx d.szx < d.payload.length) = more at hget
    have hblocks : d.blocks number i (n + 1) =
        (data, ⟨i.toUInt32, more, d.szx⟩) :: d.blocks number (i + 1) n := by
      unfold BlockDisassembler.blocks
      rw [List.range'_succ, List.filterMap_cons, hget, Option.map_some]
      dsimp only
      rw [onWire_eq number _ (by rw [hnat]; omega) (by show d.szx.toNat < 8; omega)]
    have hbuffer : a.buffer ++ data = d.payload.take ((i + 1) * blockSizeFromSzx d.szx) := by
      rw [hbuf, ← hdata, Nat.add_mul, Nat.one_mul, List.take_add]
    have hsize : a.buffer.length + data.length ≤ a.maxPayload := by
      have hlen := congrArg List.length hbuffer
      rw [List.length_append, List.length_take] at hlen
      omega
    have hproc := processBlock_next a ⟨i.toUInt32, more, d.szx⟩ data hrunning hnext.symm hsize
    rw [hblocks, List.length_cons, BlockAssembler.feed, hproc, hbuffer]
    dsimp only
    by_cases hrest : n = 0
    · -- the last block: nothing of the payload is beyond it
      subst hrest
      have hnomore : more = false := by
        rw [← hmore, decide_eq_false_iff_not]
        exact Nat.not_lt.mpr hend
      rw [hnomore, List.take_of_length_le hend]
      exact ⟨rfl, rfl⟩
    · have hmore' : more = true := by
        have hle : (i + 1) * blockSizeFromSzx d.szx ≤ (i + n) * blockSizeFromSzx d.szx :=
          Nat.mul_le_mul_right _ (by omega)
        rw [← hmore, decide_eq_true_iff]
        rw [show i + (n + 1) - 1 = i + n by omega] at hlast
        omega
      have hsucc : i.toUInt32 + 1 = (i + 1).toUInt32 := by
        apply UInt32.toNat_inj.mp
        rw [UInt32.toNat_add, hnat, Nat.toUInt32, UInt32.toNat_ofNat']
        rfl
      obtain ⟨hlen, hfeed⟩ := ih (i + 1) (by omega) (by omega)
        (by rw [show i + 1 + n - 1 = i + (n + 1) - 1 by omega]; exact hlast)
        (by rw [show i + 1 + n = i + (n + 1) by omega]; exact hend)
        ⟨d.payload.take ((i + 1) * blockSizeFromSzx d.szx), i.toUInt32 + 1, _, a.maxPayload,
          !more⟩ rfl hsucc (by rw [hmore']; rfl) hmax
      rw [hlen, hfeed]
      refine ⟨rfl, ?_⟩
      show Except.ok _ = Except.ok _
      rw [hmore', show n + 1 - 1 = (n - 1) + 1 by omega, List.replicate_succ]
      rfl

/-- Cutting a non-empty payload into blocks whose numbers fit 20 bits, sending each block option
    through an option value and feeding the blocks in order to an idle assembler with room for the
    payload yields nothing for every block but the last and the payload at the last. -/
theorem feed_disassembled (payload : List UInt8) (hne : payload ≠ []) (szx : UInt8) (hszx : szx ≤ 6)
    (hfit : BlockDisassembler.divCeil payload.length (blockSizeFromSzx szx) ≤ 2 ^ 20)
    (number : UInt16) (a : BlockAssembler) (hidle : a.Idle) (hmax : payload.length ≤ a.maxPayload) :
    let d := BlockDisassembler.new payload szx
    let n := d.totalBlocks.toNat
    (d.blocks number 0 n).length = n ∧
      a.feed (d.blocks number 0 n) = .ok (List.replicate (n - 1) none ++ [some payload]) := by
  intro d n
  have hclamp : d.szx = szx := if_pos hszx
  have hpos := blockSizeFromSzx_pos szx
  have hlen : 0 < payload.length := List.length_pos_iff.mpr hne
  have hn : n = BlockDisassembler.divCeil payload.length (blockSizeFromSzx szx) := by
    have hempty : d.payload.isEmpty = false := by simpa [d, BlockDisassembler.new] using hne
    show (BlockDisassembler.totalBlocks d).toNat = _
    rw [BlockDisassembler.totalBlocks, hempty, hclamp]
    show (BlockDisassembler.divCeil payload.length (blockSizeFromSzx szx)).toUInt32.toNat = _
    rw [Nat.toUInt32, UInt32.toNat_ofNat']
    omega
  have hcover := BlockDisassembler.divCeil_cover hpos hlen
  rw [← hn, ← hclamp] at hcover
  refine feed_from d ?_ number n 0 hcover.1 (by omega) (by rw [Nat.zero_add]; exact hcover.2.1)
    (by rw [Nat.zero_add]; exact hcover.2.2) a ?_ ?_ hidle.complete hmax
  · rw [hclamp]
    exact UInt8.le_iff_toNat_le.mp hszx
  · rw [hidle.buffer, Nat.zero_mul, List.take_zero]
  · rw [hidle.nextNum]
    rfl

/-- Forty bytes in blocks of 16: two full blocks and a short one, into an assembler that was reset
    in the middle of another transfer. -/
theorem feed_disassembled_short_last :
    let payload := List.replicate 40 0x42
    let d := BlockDisassembler.new payload 0
    let n := d.totalBlocks.toNat
    let a := BlockAssembler.reset ⟨[1, 2, 3], 7, 4, 64, false⟩
    (d.blocks 27 0 n).length = n ∧
      a.feed (d.blocks 27 0 n) = .ok (List.replicate (n - 1) none ++ [some payload]) :=
  feed_disassembled (List.replicate 40 0x42) (by decide) 0 (by decide) (by decide) 27
    (BlockAssembler.reset ⟨[1, 2, 3], 7, 4, 64, false⟩) (BlockAssembler.reset_idle _) (by decide)

end Kipuka.Coap
