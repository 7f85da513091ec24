/-
  Block-wise transfer under any blocks: what the assembler keeps of the blocks a peer sends, and
  which blocks a payload has.
-/
import Kipuka.Coap.Block

namespace Kipuka.Coap

def BlockOption.offset (b : BlockOption) : Nat := b.num.toNat * blockSizeFromSzx b.szx

namespace BlockAssembler

/-! ## The blocks an assembler takes -/

/-- A block is processed; it is among the blocks taken unless it is refused. -/
def offer (s : BlockAssembler × List (BlockOption × List UInt8))
    (b : BlockOption × List UInt8) : BlockAssembler × List (BlockOption × List UInt8) :=
  match s.1.processBlock b.1 b.2 with
  | (.ok _, a) => (a, s.2 ++ [b])
  | (.error _, a) => (a, s.2)

def collect (maxPayload : Nat) (blocks : List (BlockOption × List UInt8)) :
    BlockAssembler × List (BlockOption × List UInt8) :=
  blocks.foldl offer (new maxPayload, [])

/-- The assembler has taken these blocks. Its size exponent is that of the first one until the
    block number wraps. -/
structure Took (maxPayload : Nat) (a : BlockAssembler) (taken : List (BlockOption × List UInt8)) :
    Prop where
  limit : a.maxPayload = maxPayload
  size : a.buffer.length ≤ maxPayload
  buffer : a.buffer = taken.flatMap Prod.snd
  nextNum : a.nextNum = taken.length.toUInt32
  running : a.complete = false → ∀ b ∈ taken, b.1.more = true
  szx : taken.length < 2 ^ 32 → ∀ b ∈ taken.head?, a.szx = b.1.szx

variable {maxPayload : Nat} {a : BlockAssembler} {taken : List (BlockOption × List UInt8)}

theorem Took.refused (h : Took maxPayload a taken) {b : BlockOption × List UInt8}
    (hb : ¬ a.Accepts b.1 b.2) :
    ∃ e a', a.processBlock b.1 b.2 = (.error e, a') ∧ Took maxPayload a' taken := by
  obtain ⟨e, hprocess⟩ := processBlock_refused hb
  refine ⟨e, _, hprocess, h.limit, h.size, h.buffer, h.nextNum, h.running, ?_⟩
  intro hfew first hfirst
  -- block 0 is the next one only if none was taken
  dsimp only
  rw [if_neg]
  · exact h.szx hfew first hfirst
  · rintro ⟨-, hnext, hzero⟩
    have hnat := congrArg UInt32.toNat (h.nextNum.symm.trans (hnext.symm.trans hzero))
    rw [Nat.toUInt32, UInt32.toNat_ofNat', Nat.mod_eq_of_lt hfew] at hnat
    rw [List.length_eq_zero_iff.mp hnat] at hfirst
    exact absurd hfirst (by simp)

theorem Took.accepted (h : Took maxPayload a taken) {b : BlockOption × List UInt8}
    (hb : a.Accepts b.1 b.2) :
    ∃ a', a.processBlock b.1 b.2 = (.ok (!b.1.more), a') ∧ Took maxPayload a' (taken ++ [b]) := by
  refine ⟨_, processBlock_next a b.1 b.2 hb.running hb.next hb.size, h.limit, ?_, ?_, ?_, ?_, ?_⟩
  · rw [List.length_append, ← h.limit]
    exact hb.size
  · simp [h.buffer]
  · dsimp only
    rw [hb.next, h.nextNum, List.length_append, List.length_singleton]
    exact (UInt32.ofNat_add taken.length 1).symm
  · intro hmore b' hb'
    rcases List.mem_append.mp hb' with hold | hnew
    · exact h.running hb.running b' hold
    · rw [List.mem_singleton.mp hnew]
      simpa using hmore
  · intro hfew first hfirst
    rw [List.length_append, List.length_singleton] at hfew
    have hnum : b.1.num = taken.length.toUInt32 := hb.next.trans h.nextNum
    dsimp only
    cases taken with
    | nil =>
      obtain rfl : b = first := by simpa using hfirst
      exact if_pos hnum
    | cons b₀ rest =>
      rw [if_neg]
      · exact h.szx (by omega) first hfirst
      · intro hzero
        have hnat := congrArg UInt32.toNat (hnum.symm.trans hzero)
        rw [Nat.toUInt32, UInt32.toNat_ofNat', Nat.mod_eq_of_lt (by omega)] at hnat
        simp at hnat

theorem Took.offer {s : BlockAssembler × List (BlockOption × List UInt8)}
    (h : Took maxPayload s.1 s.2) (b : BlockOption × List UInt8) :
    Took maxPayload (offer s b).1 (offer s b).2 := by
  unfold BlockAssembler.offer
  by_cases hb : s.1.Accepts b.1 b.2
  · obtain ⟨a', hprocess, htook⟩ := h.accepted hb
    rw [hprocess]
    exact htook
  · obtain ⟨e, a', hprocess, htook⟩ := h.refused hb
    rw [hprocess]
    exact htook

theorem took_collect (maxPayload : Nat) (blocks : List (BlockOption × List UInt8)) :
    Took maxPayload (collect maxPayload blocks).1 (collect maxPayload blocks).2 := by
  refine List.foldlRecOn blocks offer (motive := fun s => Took maxPayload s.1 s.2) ?_ ?_
  · exact ⟨rfl, Nat.zero_le _, rfl, rfl, by simp, by simp⟩
  · exact fun s hs b _ => hs.offer b

theorem offer_sublist (s : BlockAssembler × List (BlockOption × List UInt8))
    (b : BlockOption × List UInt8) : List.Sublist (offer s b).2 (s.2 ++ [b]) := by
  unfold offer
  split
  · exact List.Sublist.refl _
  · exact List.sublist_append_left _ _

theorem collect_sublist (maxPayload : Nat) (blocks : List (BlockOption × List UInt8)) :
    List.Sublist (collect maxPayload blocks).2 blocks := by
  induction blocks using List.reverseRecOn with
  | nil => exact List.Sublist.refl _
  | append_singleton blocks b ih =>
    unfold collect at ih ⊢
    rw [List.foldl_append]
    exact (offer_sublist _ b).trans (ih.append_right [b])

/-- A peer that sends every block with one size exponent, and every block with the more flag full,
    fills the buffer block by block: while the transfer runs the buffer ends where the block that
    the assembler waits for begins, and the size exponent of the assembler is that of every block it
    took. Fewer than 2³² blocks keep the block number from wrapping. -/
theorem collect_aligned (maxPayload : Nat) (blocks : List (BlockOption × List UInt8)) (szx : UInt8)
    (hsent : ∀ b ∈ blocks, b.1.szx = szx ∧ (b.1.more = true → b.2.length = blockSizeFromSzx szx))
    (hfew : blocks.length < 2 ^ 32) :
    let a := (collect maxPayload blocks).1
    (a.complete = false → a.buffer.length = (BlockOption.mk a.nextNum true a.szx).offset) ∧
      ∀ b ∈ (collect maxPayload blocks).2,
        b.1.szx = a.szx ∧ (b.1.more = true → b.2.length = blockSizeFromSzx a.szx) := by
  intro a
  have htook := took_collect maxPayload blocks
  have hsub := collect_sublist maxPayload blocks
  generalize (collect maxPayload blocks).2 = taken at htook hsub ⊢
  have hfew' : taken.length < 2 ^ 32 := Nat.lt_of_le_of_lt hsub.length_le hfew
  have hfull := fun b hb => hsent b (hsub.subset hb)
  have hszx : ∀ b ∈ taken, a.szx = szx := by
    intro b hb
    cases taken with
    | nil => cases hb
    | cons b₀ rest => exact (htook.szx hfew' b₀ rfl).trans (hfull b₀ List.mem_cons_self).1
  refine ⟨fun hrunning => ?_, fun b hb => ?_⟩
  · have hlengths : taken.map (fun b => b.2.length) =
        List.replicate taken.length (blockSizeFromSzx a.szx) := by
      apply List.eq_replicate_iff.mpr
      refine ⟨List.length_map _, fun n hn => ?_⟩
      obtain ⟨b, hb, rfl⟩ := List.mem_map.mp hn
      rw [hszx b hb]
      exact (hfull b hb).2 (htook.running hrunning b hb)
    rw [htook.buffer, List.length_flatMap, hlengths, List.sum_replicate_nat, BlockOption.offset,
      htook.nextNum, Nat.toUInt32, UInt32.toNat_ofNat', Nat.mod_eq_of_lt hfew']
  · rw [hszx b hb]
    exact hfull b hb

/-- Two full blocks of 16 bytes; the first is sent twice and refused the second time. -/
theorem collect_aligned_resent :
    let b₀ : BlockOption × List UInt8 := (⟨0, true, 0⟩, List.replicate 16 1)
    let b₁ : BlockOption × List UInt8 := (⟨1, true, 0⟩, List.replicate 16 2)
    let a := (collect 64 [b₀, b₀, b₁]).1
    (a.complete = false → a.buffer.length = (BlockOption.mk a.nextNum true a.szx).offset) ∧
      ∀ b ∈ (collect 64 [b₀, b₀, b₁]).2,
        b.1.szx = a.szx ∧ (b.1.more = true → b.2.length = blockSizeFromSzx a.szx) :=
  collect_aligned 64 _ 0 (by decide) (by decide)

/-- A block of 3 bytes with the more flag set is taken, and so is a second one with another size
    exponent: the buffer then has 6 bytes, and block 2 would begin at byte 32. -/
theorem collect_short_block :
    let blocks : List (BlockOption × List UInt8) :=
      [(⟨0, true, 0⟩, [1, 2, 3]), (⟨1, true, 4⟩, [4, 5, 6])]
    let a := (collect 64 blocks).1
    (collect 64 blocks).2 = blocks ∧ a.complete = false ∧ a.szx = 0 ∧ a.buffer.length = 6 ∧
      (BlockOption.mk a.nextNum true a.szx).offset = 32 := by
  decide

/-! ## Refused blocks -/

/-- A refused block leaves the assembler as it was, unless it is the first block of a transfer,
    with room for it missing, and has another size exponent than the assembler. The buffer stays
    within the limit in any case. -/
theorem refused_unchanged_iff (maxPayload : Nat) (blocks : List (BlockOption × List UInt8))
    (block : BlockOption) (data : List UInt8) :
    let a := (collect maxPayload blocks).1
    a.buffer.length ≤ maxPayload ∧
      ∀ e, (a.processBlock block data).1 = .error e → ((a.processBlock block data).2 = a ↔
        ¬ (a.complete = false ∧ block.num = a.nextNum ∧ block.num = 0 ∧ block.szx ≠ a.szx)) := by
  intro a
  refine ⟨(took_collect maxPayload blocks).size, fun e herror => ?_⟩
  have hrefused : ¬ a.Accepts block data := by
    intro haccepts
    rw [processBlock_next a block data haccepts.running haccepts.next haccepts.size] at herror
    cases herror
  obtain ⟨e', hprocess⟩ := processBlock_refused hrefused
  have hsame : ∀ szx, { a with szx := szx } = a ↔ szx = a.szx := fun szx =>
    ⟨fun h => congrArg BlockAssembler.szx h, fun h => by rw [h]⟩
  rw [hprocess, hsame]
  split_ifs with hfirst
  · constructor
    · exact fun hszx h => h.2.2.2 hszx
    · exact fun h => not_not.mp fun hszx => h ⟨hfirst.1, hfirst.2.1, hfirst.2.2, hszx⟩
  · refine iff_of_true rfl fun h => hfirst ⟨h.1, h.2.1, h.2.2.1⟩

/-- Block 1 before block 0. -/
theorem refused_unchanged_out_of_order :
    let a := (collect 4 []).1
    a.buffer.length ≤ 4 ∧ ((a.processBlock ⟨1, true, 0⟩ [1]).2 = a ↔
      ¬ (a.complete = false ∧ (1 : UInt32) = a.nextNum ∧ (1 : UInt32) = 0 ∧ (0 : UInt8) ≠ a.szx)) :=
  let ⟨hsize, hsame⟩ := refused_unchanged_iff 4 [] ⟨1, true, 0⟩ [1]
  ⟨hsize, hsame (.blockTransferError "Expected block 0, received block 1") (by decide)⟩

/-- A first block beyond the limit is refused and leaves its size exponent behind. -/
theorem refused_first_block_changes :
    let a := (collect 4 []).1
    (a.processBlock ⟨0, true, 2⟩ [1, 2, 3, 4, 5]).1 = .error (.payloadTooLarge 5 4) ∧ a.szx = 5 ∧
      (a.processBlock ⟨0, true, 2⟩ [1, 2, 3, 4, 5]).2 = { a with szx := 2 } := by
  decide

end BlockAssembler

/-! ## The blocks of a payload -/

namespace BlockDisassembler

theorem getBlock_isSome (d : BlockDisassembler) (i : UInt32) :
    (d.getBlock i).isSome ↔ i.toNat * blockSizeFromSzx d.szx < d.payload.length := by
  unfold getBlock
  dsimp only
  by_cases hout : d.payload.length ≤ i.toNat * blockSizeFromSzx d.szx
  · rw [if_pos hout]
    exact iff_of_false Bool.false_ne_true (Nat.not_lt.mpr hout)
  · rw [if_neg hout]
    exact iff_of_true rfl (Nat.not_le.mp hout)

theorem totalBlocks_toNat {d : BlockDisassembler} (hne : d.payload ≠ [])
    (hfit : divCeil d.payload.length (blockSizeFromSzx d.szx) < 2 ^ 32) :
    d.totalBlocks.toNat = divCeil d.payload.length (blockSizeFromSzx d.szx) := by
  have hempty : d.payload.isEmpty = false := by simpa using hne
  rw [totalBlocks, hempty]
  show (divCeil d.payload.length (blockSizeFromSzx d.szx)).toUInt32.toNat = _
  rw [Nat.toUInt32, UInt32.toNat_ofNat', Nat.mod_eq_of_lt hfit]

theorem flatMap_getBlock (d : BlockDisassembler) {n : Nat} (hn : n ≤ 2 ^ 32)
    (hall : ∀ i < n, i * blockSizeFromSzx d.szx < d.payload.length) :
    (List.range n).flatMap (fun i => ((d.getBlock i.toUInt32).map Prod.fst).getD []) =
      d.payload.take (n * blockSizeFromSzx d.szx) := by
  induction n with
  | zero => simp
  | succ n ih =>
    rw [List.range_succ, List.flatMap_append, ih (by omega) fun i hi => hall i (by omega),
      List.flatMap_singleton, getBlock_of_lt d n (by omega) (hall n (by omega)), Nat.add_mul,
      Nat.one_mul, List.take_add]
    rfl

/-- The blocks below `total_blocks()` are those that exist, the last of them alone has the more
    flag clear, and their data make the payload. -/
def Covered (d : BlockDisassembler) : Prop :=
  (∀ i, (d.getBlock i).isSome ↔ i < d.totalBlocks) ∧
  (∀ i data block, d.getBlock i = some (data, block) →
    (block.more = false ↔ i.toNat + 1 = d.totalBlocks.toNat)) ∧
  (List.range d.totalBlocks.toNat).flatMap
    (fun i => ((d.getBlock i.toUInt32).map Prod.fst).getD []) = d.payload

theorem covered {d : BlockDisassembler} (hne : d.payload ≠ [])
    (hfit : divCeil d.payload.length (blockSizeFromSzx d.szx) < 2 ^ 32) : d.Covered := by
  have htotal := totalBlocks_toNat hne hfit
  obtain ⟨hpos, hlast, hend⟩ :=
    divCeil_cover (blockSizeFromSzx_pos d.szx) (List.length_pos_iff.mpr hne)
  rw [← htotal] at hpos hlast hend
  have hsize := blockSizeFromSzx_pos d.szx
  -- a block below the count begins inside the payload, the first one that is not below it outside
  have hbelow : ∀ i, i * blockSizeFromSzx d.szx < d.payload.length ↔ i < d.totalBlocks.toNat := by
    intro i
    constructor
    · intro hi
      exact Nat.lt_of_mul_lt_mul_right (Nat.lt_of_lt_of_le hi hend)
    · intro hi
      exact Nat.lt_of_le_of_lt (Nat.mul_le_mul_right _ (by omega)) hlast
  refine ⟨fun i => ?_, fun i data block hget => ?_, ?_⟩
  · rw [getBlock_isSome, UInt32.lt_iff_toNat_lt]
    exact hbelow i.toNat
  · have hi : i.toNat < d.totalBlocks.toNat :=
      (hbelow i.toNat).mp ((getBlock_isSome d i).mp (by rw [hget]; rfl))
    have hblock := getBlock_of_lt d i.toNat i.toNat_lt ((hbelow i.toNat).mpr hi)
    rw [Nat.toUInt32, UInt32.ofNat_toNat, hget] at hblock
    obtain ⟨-, rfl⟩ := Prod.mk.inj (Option.some.inj hblock)
    rw [decide_eq_false_iff_not, hbelow]
    omega
  · rw [flatMap_getBlock d (Nat.le_of_lt d.totalBlocks.toNat_lt) fun i hi => (hbelow i).mpr hi]
    exact List.take_of_length_le hend

/-- The blocks cover the payload if and only if it is not empty and has fewer than 2³² blocks. -/
theorem blocks_cover (payload : List UInt8) (szx : UInt8) :
    (new payload szx).Covered ↔
      payload ≠ [] ∧ divCeil payload.length (blockSizeFromSzx (new payload szx).szx) < 2 ^ 32 := by
  constructor
  · rintro ⟨hblocks, -, -⟩
    have hne : payload ≠ [] := by
      rintro rfl
      cases (hblocks 0).mpr (by decide : (0 : UInt32) < 1)
    refine ⟨hne, ?_⟩
    by_contra hmany
    -- every number has its block, also the last, which is below no count
    obtain ⟨-, hlast, -⟩ :=
      divCeil_cover (blockSizeFromSzx_pos (new payload szx).szx) (List.length_pos_iff.mpr hne)
    have htop : ((new payload szx).getBlock 4294967295).isSome :=
      (getBlock_isSome _ _).mpr (Nat.lt_of_le_of_lt (Nat.mul_le_mul_right _ (by simp; omega)) hlast)
    have hlt := UInt32.lt_iff_toNat_lt.mp ((hblocks _).mp htop)
    have hcount := (new payload szx).totalBlocks.toNat_lt
    simp at hlt
    omega
  · rintro ⟨hne, hfit⟩
    exact covered hne hfit

/-- The empty payload has one block by its count, and none that can be had. -/
theorem empty_payload_block :
    (new [] 0).totalBlocks = 1 ∧ (new [] 0).getBlock 0 = none ∧ ¬ (new [] 0).Covered :=
  ⟨rfl, rfl, fun h => absurd ((h.1 0).mpr (by decide)) (by decide)⟩

end BlockDisassembler

end Kipuka.Coap
