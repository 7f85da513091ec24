/-
  The DER readers that are written by hand: those of `src/ocsp/mod.rs` and those of
  `src/routes/renewal_info.rs`. `None` is the error of an `Outcome`; `usize` has 64 bits.
-/
import Kipuka.Generic.Outcome

namespace Kipuka.Auth.Der

open Generic Generic.Outcome

/-! ## Readers of a length -/

/-- `(val << 8) | b`. -/
def shiftIn (val : Nat) (b : UInt8) : Nat := 256 * val % 18446744073709551616 + b.toNat

def lengthOctets (bytes : List UInt8) : (start n val : Nat) → Outcome Unit Nat
  | _, 0, val => .ok val
  | start, n + 1, val => do
    let b ← idx bytes start
    lengthOctets bytes (start + 1) n (shiftIn val b)

def lowBits (b : UInt8) : Nat := (b &&& 0x7f).toNat

def readDerLengthOcsp (bytes : List UInt8) (offset : Nat) : Outcome Unit (Nat × Nat) :=
  match bytes[offset]? with
  | none => .err ()
  | some first =>
    if first < 0x80 then .ok (first.toNat, 1)
    else
      let n := lowBits first
      if n = 0 ∨ n > 4 ∨ offset + 1 + n > bytes.length then .err ()
      else do
        let val ← lengthOctets bytes (offset + 1) n 0
        return (val, 1 + n)

def parseDerLength (data : List UInt8) : Outcome Unit (Nat × Nat) :=
  if data.isEmpty then .err ()
  else do
    let first ← idx data 0
    if first < 0x80 then return (first.toNat, 1)
    else if first = 0x80 then .err ()
    else
      let numBytes := lowBits first
      if numBytes > 4 ∨ numBytes + 1 > data.length then .err ()
      else
        let length ← lengthOctets data 1 numBytes 0
        return (length, 1 + numBytes)

/-- The length and the start of the value, as `extract_integer_value` and
    `extract_context_tagged_value` each find them. -/
def lengthInside (der : List UInt8) : Outcome Unit (Nat × Nat) :=
  if der.length < 2 then .err ()
  else do
    let lenByte ← idx der 1
    if lenByte < 0x80 then return (lenByte.toNat, 2)
    else
      let num := lowBits lenByte
      if der.length < 2 + num then .err ()
      else
        let len ← lengthOctets der 2 num 0
        return (len, 2 + num)

/-- `der.get(start..start + len)`. -/
def getFrom (der : List UInt8) (start len : Nat) : Outcome Unit (List UInt8) :=
  if 18446744073709551616 ≤ start + len then .panic
  else if start + len ≤ der.length then .ok ((der.drop start).take len) else .err ()

def extractIntegerValue (der : List UInt8) : Outcome Unit (List UInt8) :=
  if der.length < 2 ∨ der.head? ≠ some 0x02 then .err ()
  else do
    let (len, start) ← lengthInside der
    getFrom der start len

def extractContextTaggedValue (tlv : List UInt8) : Outcome Unit (List UInt8) := do
  let (len, start) ← lengthInside tlv
  let lenByte ← idx tlv 1
  -- the short form indexes, the long form asks
  if lenByte < 0x80 then slice tlv start (start + len) else getFrom tlv start len

/-! ## Readers of elements -/

def extractBasicOcspTbsBytes (der : List UInt8) : Outcome Unit (List UInt8) :=
  if der.head? ≠ some 0x30 then .err ()
  else do
    let (outerLen, outerLenBytes) ← readDerLengthOcsp der 1
    let contentStart := 1 + outerLenBytes
    if contentStart + outerLen > der.length then .err ()
    else if contentStart ≥ der.length then .err ()
    else
      let tag ← idx der contentStart
      if tag ≠ 0x30 then .err ()
      else
        let (len, lenBytes) ← readDerLengthOcsp der (contentStart + 1)
        let tbsEnd := contentStart + 1 + lenBytes + len
        if tbsEnd > der.length then .err () else slice der contentStart tbsEnd

/-- The loop of `parse_aki_key_identifier` from `pos` on. -/
def keyIdentifierFrom (aki : List UInt8) (seqEnd pos : Nat) : Outcome Unit (List UInt8) :=
  if pos < seqEnd then
    if pos ≥ aki.length then .err ()
    else do
      let tag ← idx aki pos
      let data ← slice aki (pos + 1) aki.length
      let (fieldLen, lb) ← parseDerLength data
      let value := pos + 1 + lb
      if tag = 0x80 then
        if value + fieldLen > aki.length then .err () else slice aki value (value + fieldLen)
      else keyIdentifierFrom aki seqEnd (value + fieldLen)
  else .err ()
termination_by seqEnd - pos

def parseAkiKeyIdentifier (aki : List UInt8) : Outcome Unit (List UInt8) :=
  if aki.length < 2 then .err ()
  else do
    let tag ← idx aki 0
    if tag ≠ 0x30 then .err ()
    else
      let data ← slice aki 1 aki.length
      let (seqLen, lenBytes) ← parseDerLength data
      let pos := 1 + lenBytes
      if pos + seqLen > aki.length then .err () else keyIdentifierFrom aki (pos + seqLen) pos

/-! ## Elements -/

def ofOctets (octets : List UInt8) : Nat := octets.foldl (fun n b => 256 * n + b.toNat) 0

/-- Length octets of the definite form and the length they declare. -/
inductive Declares : List UInt8 → Nat → Prop where
  | short {b : UInt8} (h : b < 0x80) : Declares [b] b.toNat
  | long {b : UInt8} {octets : List UInt8} (h : b.toNat = 128 + octets.length)
      (hne : octets ≠ []) : Declares (b :: octets) (ofOctets octets)

/-- The bytes are one element: a tag, length octets and as many octets as they declare. -/
def Element (tag : UInt8) (value bytes : List UInt8) : Prop :=
  ∃ len, bytes = tag :: (len ++ value) ∧ Declares len value.length

/-- The value of the first element with the tag, behind elements with other tags. -/
inductive FirstElement (tag : UInt8) (value : List UInt8) : List UInt8 → Prop where
  | here {bytes rest : List UInt8} (h : Element tag value bytes) :
      FirstElement tag value (bytes ++ rest)
  | later {other : UInt8} {v bytes rest : List UInt8} (hne : other ≠ tag)
      (h : Element other v bytes) (hrest : FirstElement tag value rest) :
      FirstElement tag value (bytes ++ rest)

/-- The input starts with a SEQUENCE with this content. -/
def Begins (content input : List UInt8) : Prop :=
  ∃ outer trailing, input = outer ++ trailing ∧ Element 0x30 content outer

/-! What the readers take: up to four octets behind the first one of a length. -/

def Reads (len : List UInt8) (n : Nat) : Prop := Declares len n ∧ len.length ≤ 5

/-- The bytes are a tag, a length that reads as that of the value, and the value. -/
def Field (tag : UInt8) (value bytes : List UInt8) : Prop :=
  ∃ len, bytes = tag :: (len ++ value) ∧ Reads len value.length

/-- The input starts with a SEQUENCE that declares `n` octets, which `rest` behind its length has. -/
def Opens (input : List UInt8) (n : Nat) (rest : List UInt8) : Prop :=
  ∃ len, input = 0x30 :: (len ++ rest) ∧ Reads len n ∧ n ≤ rest.length

/-- Behind fields with other tags, a `[0]` begins among the next `n` octets and ends after `stop`. -/
inductive Reached (value : List UInt8) : (n stop : Nat) → List UInt8 → Prop where
  | here {n : Nat} {bytes rest : List UInt8} (hn : 0 < n) (h : Field 0x80 value bytes) :
      Reached value n bytes.length (bytes ++ rest)
  | later {other : UInt8} {n stop : Nat} {v bytes rest : List UInt8} (hne : other ≠ 0x80)
      (h : Field other v bytes) (hrest : Reached value n stop rest) :
      Reached value (bytes.length + n) (bytes.length + stop) (bytes ++ rest)

/-! ## What a length reader returns -/

variable {bytes more : List UInt8} {offset : Nat}

theorem idx_first (a : UInt8) (l : List UInt8) : idx (ε := Unit) (a :: l) 0 = .ok a := rfl

theorem idx_second (a b : UInt8) (l : List UInt8) : idx (ε := Unit) (a :: b :: l) 1 = .ok b := rfl

theorem lengthOctets_eq {start n : Nat} (val : Nat) (h : bytes.drop start = more)
    (hn : n ≤ more.length) :
    lengthOctets bytes start n val = .ok ((more.take n).foldl shiftIn val) := by
  induction n generalizing start more val with
  | zero => rfl
  | succ n ih =>
    rcases more with _ | ⟨b, more⟩
    · exact absurd hn (Nat.not_succ_le_zero n)
    · rw [lengthOctets, idx_of_drop h, ok_bind]
      exact ih _ (drop_succ_of_drop h) (Nat.le_of_succ_le_succ hn)

/-- Nothing is shifted out of up to four octets. -/
theorem foldl_shiftIn {octets : List UInt8} (h : octets.length ≤ 4) :
    octets.foldl shiftIn 0 = ofOctets octets ∧ ofOctets octets < 4294967296 := by
  have hlt := fun b : UInt8 => b.toNat_lt
  rcases octets with _ | ⟨a, _ | ⟨b, _ | ⟨c, _ | ⟨d, _ | ⟨e, octets⟩⟩⟩⟩⟩
  all_goals simp only [List.foldl, shiftIn, ofOctets, List.length_cons, true_and] at h ⊢
  · omega
  · have ha := hlt a
    omega
  · have ha := hlt a
    have hb := hlt b
    omega
  · have ha := hlt a
    have hb := hlt b
    have hc := hlt c
    omega
  · have ha := hlt a
    have hb := hlt b
    have hc := hlt c
    have hd := hlt d
    omega
  · omega

theorem lowBits_eq (b : UInt8) : lowBits b = b.toNat % 128 := by
  rw [lowBits, UInt8.toNat_and]
  exact Nat.and_two_pow_sub_one_eq_mod b.toNat 7

theorem lowBits_of_not_lt {b : UInt8} (h : ¬ b < 0x80) : b.toNat = 128 + lowBits b := by
  have hlow := lowBits_eq b
  have hlt := b.toNat_lt
  have hge : 128 ≤ b.toNat := by
    rw [UInt8.lt_iff_toNat_lt] at h
    exact Nat.le_of_not_lt h
  omega

variable {first : UInt8}

theorem readDerLengthOcsp_nil (h : bytes.drop offset = []) :
    readDerLengthOcsp bytes offset = .err () := by
  rw [readDerLengthOcsp, ← List.head?_drop, h]
  rfl

/-- The reader by the octets from the position on. -/
theorem readDerLengthOcsp_cons (h : bytes.drop offset = first :: more) :
    readDerLengthOcsp bytes offset = if first < 0x80 then .ok (first.toNat, 1)
      else if lowBits first = 0 ∨ lowBits first > 4 ∨ more.length < lowBits first then .err ()
      else .ok ((more.take (lowBits first)).foldl shiftIn 0, 1 + lowBits first) := by
  have hlength := congrArg List.length h
  rw [List.length_drop, List.length_cons] at hlength
  rw [readDerLengthOcsp, ← List.head?_drop, h]
  refine if_congr Iff.rfl rfl ?_
  by_cases hn : lowBits first = 0 ∨ lowBits first > 4 ∨ more.length < lowBits first
  · rw [if_pos hn, if_pos (by omega)]
  · rw [if_neg hn, if_neg (by omega), lengthOctets_eq 0 (drop_succ_of_drop h) (by omega)]
    rfl

/-- What is read is declared by the octets there. -/
theorem readDerLengthOcsp_yields (bytes : List UInt8) (offset : Nat) :
    Yields (fun r => ∃ len rest, bytes.drop offset = len ++ rest ∧ Reads len r.1 ∧
      r.2 = len.length) (readDerLengthOcsp bytes offset) := by
  rcases hdrop : bytes.drop offset with _ | ⟨first, more⟩
  · rw [readDerLengthOcsp_nil hdrop]
    trivial
  rw [readDerLengthOcsp_cons hdrop]
  split
  · next hshort => exact ⟨[first], more, rfl, ⟨.short hshort, by simp⟩, rfl⟩
  · next hlong =>
    refine yields_guard fun hn => ?_
    have hlen : (more.take (lowBits first)).length = lowBits first :=
      List.length_take_of_le (by omega)
    refine ⟨first :: more.take (lowBits first), more.drop (lowBits first), ?_, ?_, ?_⟩
    · rw [List.cons_append, List.take_append_drop]
    · rw [(foldl_shiftIn (by omega)).1]
      refine ⟨.long (by rw [hlen, lowBits_of_not_lt hlong]) fun hnil => ?_, ?_⟩
      · rw [hnil] at hlen
        exact hn (.inl hlen.symm)
      · rw [List.length_cons, hlen]
        omega
    · rw [List.length_cons, hlen, Nat.add_comm]

theorem readDerLengthOcsp_reads {len rest : List UInt8} {n : Nat}
    (h : bytes.drop offset = len ++ rest) (hlen : Reads len n) :
    readDerLengthOcsp bytes offset = .ok (n, len.length) := by
  obtain ⟨hdeclares, hfive⟩ := hlen
  cases hdeclares with
  | short hshort =>
    rw [readDerLengthOcsp_cons h, if_pos hshort]
    rfl
  | @long b octets hb hne =>
    have hlow : lowBits b = octets.length := by
      rw [List.length_cons] at hfive
      rw [lowBits_eq, hb]
      omega
    have hpos := List.length_pos_iff.mpr hne
    have hlong : ¬ b < 0x80 := by
      rw [UInt8.lt_iff_toNat_lt, hb]
      exact Nat.not_lt.mpr (Nat.le_add_right 128 _)
    rw [List.length_cons] at hfive
    rw [readDerLengthOcsp_cons (h.trans (List.cons_append ..)), if_neg hlong, hlow, if_neg, List.take_left,
      (foldl_shiftIn (by omega)).1, List.length_cons, Nat.add_comm]
    rw [List.length_append]
    omega

theorem parseDerLength_eq (data : List UInt8) : parseDerLength data = readDerLengthOcsp data 0 := by
  cases data with
  | nil => rfl
  | cons first data =>
    rw [parseDerLength, readDerLengthOcsp, idx_first, ok_bind]
    dsimp only [List.isEmpty_cons, List.getElem?_cons_zero]
    rw [if_neg Bool.false_ne_true]
    by_cases hshort : first < 0x80
    · rw [if_pos hshort, if_pos hshort]
      rfl
    · rw [if_neg hshort, if_neg hshort]
      by_cases hzero : first = 0x80
      · subst hzero
        rfl
      · have hpos : lowBits first ≠ 0 := by
          intro hlow
          have hfirst := lowBits_of_not_lt hshort
          rw [hlow] at hfirst
          exact hzero (UInt8.toNat_inj.mp hfirst)
        rw [if_neg hzero]
        refine if_congr ?_ rfl rfl
        omega

/-! ## Elements have one reading -/

theorem Declares.unique {len len' more' : List UInt8} {n n' : Nat} (h : Declares len n)
    (h' : Declares len' n') (heq : len ++ more = len' ++ more') : len = len' ∧ n = n' := by
  have hform {b c : UInt8} {k : Nat} (hb : b < 0x80) (hc : c.toNat = 128 + k) : b ≠ c := by
    rintro rfl
    rw [UInt8.lt_iff_toNat_lt, hc] at hb
    exact absurd hb (Nat.not_lt.mpr (Nat.le_add_right 128 k))
  cases h with
  | short hb =>
    cases h' with
    | short =>
      obtain rfl := (List.cons.inj heq).1
      exact ⟨rfl, rfl⟩
    | long hc => exact absurd (List.cons.inj heq).1 (hform hb hc)
  | long hb =>
    cases h' with
    | short hc => exact absurd (List.cons.inj heq).1.symm (hform hc hb)
    | long hc =>
      obtain ⟨rfl, hrest⟩ := List.cons.inj heq
      obtain ⟨rfl, -⟩ := List.append_inj hrest (by omega)
      exact ⟨rfl, rfl⟩

variable {tag tag' : UInt8} {value value' element element' rest rest' : List UInt8}

theorem Element.unique (h : Element tag value element) (h' : Element tag' value' element')
    (heq : element ++ rest = element' ++ rest') :
    tag = tag' ∧ value = value' ∧ element = element' ∧ rest = rest' := by
  obtain ⟨len, rfl, hlen⟩ := h
  obtain ⟨len', rfl, hlen'⟩ := h'
  rw [List.cons_append, List.cons_append, List.append_assoc, List.append_assoc] at heq
  obtain ⟨htag, hrest⟩ := List.cons.inj heq
  obtain ⟨rfl, hlength⟩ := hlen.unique hlen' hrest
  obtain ⟨rfl, rfl⟩ := List.append_inj (List.append_cancel_left hrest) hlength
  exact ⟨htag, rfl, by rw [htag], rfl⟩

theorem Field.isElement {bytes : List UInt8} (h : Field tag value bytes) :
    Element tag value bytes := by
  obtain ⟨len, rfl, hlen⟩ := h
  exact ⟨len, rfl, hlen.1⟩

theorem Opens.begins_iff {input content : List UInt8} {n : Nat} (h : Opens input n rest) :
    Begins content input ↔ content = rest.take n := by
  obtain ⟨len, rfl, hlen, hn⟩ := h
  have helement : Element 0x30 (rest.take n) (0x30 :: (len ++ rest.take n)) :=
    ⟨len, rfl, by rw [List.length_take_of_le hn]; exact hlen.1⟩
  have hinput : 0x30 :: (len ++ rest) = 0x30 :: (len ++ rest.take n) ++ rest.drop n := by
    rw [List.cons_append, List.append_assoc, List.take_append_drop]
  constructor
  · rintro ⟨outer, trailing, heq, hcontent⟩
    exact (hcontent.unique helement (heq.symm.trans hinput)).2.1
  · rintro rfl
    exact ⟨_, _, hinput, helement⟩

/-! ## The elements that are returned -/

theorem take_declared (tag : UInt8) {len rest : List UInt8} {n : Nat} (hlen : Reads len n)
    (hn : n ≤ rest.length) : ∃ value after, rest = value ++ after ∧ value.length = n ∧
      Field tag value (tag :: (len ++ value)) := by
  have hlength : (rest.take n).length = n := List.length_take_of_le hn
  refine ⟨rest.take n, rest.drop n, (List.take_append_drop n rest).symm, hlength, len, rfl, ?_⟩
  rw [hlength]
  exact hlen

theorem keyIdentifierFrom_beyond {aki : List UInt8} {pos : Nat} (seqEnd : Nat)
    (h : aki.length ≤ pos) : keyIdentifierFrom aki seqEnd pos = .err () := by
  rw [keyIdentifierFrom, if_pos (c := pos ≥ aki.length) h]
  exact ite_self _

theorem Reached.pos {n stop : Nat} (h : Reached value n stop rest) : 0 < n := by
  induction h with
  | here hn => exact hn
  | later hne h hrest ih => exact Nat.add_pos_right _ ih

/-- The walk from a position on finds the first `[0]` from there on. -/
theorem keyIdentifierFrom_yields (aki : List UInt8) (seqEnd pos : Nat) :
    Yields (fun v => ∃ stop, Reached v (seqEnd - pos) stop (aki.drop pos))
      (keyIdentifierFrom aki seqEnd pos) := by
  induction hleft : seqEnd - pos using Nat.strongRecOn generalizing pos with
  | ind left ih =>
  rw [keyIdentifierFrom]
  split
  · next hpos =>
    refine yields_guard fun hend => (yields_idx (by omega)).bind fun tag htag => ?_
    rw [slice_end (by omega), ok_bind, parseDerLength_eq]
    refine (readDerLengthOcsp_yields _ 0).bind fun ⟨n, _⟩ hread => ?_
    obtain ⟨len, after, hlen, hdeclares, ⟨⟩⟩ := hread
    rw [List.drop_zero] at hlen
    have hvalue := drop_add_of_drop hlen
    have hlength := length_of_drop (by omega) hlen
    dsimp only at hdeclares ⊢
    by_cases hn : n ≤ after.length
    · obtain ⟨v, after, rfl, rfl, hfield⟩ := take_declared tag hdeclares hn
      have hall : aki.drop pos = (tag :: (len ++ v)) ++ after := by simp [htag, hlen]
      rw [List.length_append] at hlength
      rw [hall]
      split
      · next hkey =>
        subst hkey
        rw [if_neg (by omega), slice_of_drop (by omega) hvalue]
        exact ⟨_, .here (by omega) hfield⟩
      · next hkey =>
        refine (ih _ (by omega) (pos + 1 + len.length + v.length) rfl).mono fun w ⟨_, hw⟩ => ?_
        have hpos := hw.pos
        rw [drop_add_of_drop hvalue] at hw
        have hsum : (tag :: (len ++ v)).length + (seqEnd - (pos + 1 + len.length + v.length)) =
            left := by
          rw [List.length_cons, List.length_append]
          omega
        rw [← hsum]
        exact ⟨_, .later hkey hfield hw⟩
    · -- the field claims more than there is
      split
      · exact yields_guard fun hfits => absurd hfits (by omega)
      · rw [keyIdentifierFrom_beyond seqEnd (by omega)]
        trivial
  · trivial

/-- One step of the walk. -/
theorem keyIdentifierFrom_field {aki len after : List UInt8} {seqEnd pos n : Nat}
    (hpos : pos < seqEnd) (h : aki.drop pos = tag :: (len ++ after)) (hlen : Reads len n) :
    keyIdentifierFrom aki seqEnd pos =
      if tag = 0x80 then
        if pos + 1 + len.length + n > aki.length then .err ()
        else slice aki (pos + 1 + len.length) (pos + 1 + len.length + n)
      else keyIdentifierFrom aki seqEnd (pos + 1 + len.length + n) := by
  have hlt := lt_of_drop h
  have hread : readDerLengthOcsp (aki.drop (pos + 1)) 0 = .ok (n, len.length) :=
    readDerLengthOcsp_reads (drop_succ_of_drop h) hlen
  rw [keyIdentifierFrom, if_pos hpos, if_neg (Nat.not_le.mpr hlt), idx_of_drop h, ok_bind,
    slice_end hlt, ok_bind, parseDerLength_eq, hread, ok_bind]

theorem Reached.found {aki : List UInt8} {n stop pos : Nat} (h : Reached value n stop rest)
    (hpos : aki.drop pos = rest) : keyIdentifierFrom aki (pos + n) pos = .ok value := by
  induction h generalizing pos with
  | here hn hfield =>
    obtain ⟨len, rfl, hlen⟩ := hfield
    rw [List.cons_append, List.append_assoc] at hpos
    have hlt := lt_of_drop hpos
    have hdata := drop_succ_of_drop hpos
    have hvalue := drop_add_of_drop hdata
    have hlength := length_of_drop hlt hdata
    rw [List.length_append] at hlength
    rw [keyIdentifierFrom_field (by omega) hpos hlen, if_pos rfl, if_neg (by omega),
      slice_of_drop (by omega) hvalue]
  | @later other n stop v bytes rest hne hfield hrest ih =>
    obtain ⟨len, rfl, hlen⟩ := hfield
    have hnext := ih (drop_add_of_drop hpos)
    rw [List.cons_append, List.append_assoc] at hpos
    have hlength : pos + (other :: (len ++ v)).length = pos + 1 + len.length + v.length := by
      rw [List.length_cons, List.length_append]
      omega
    have hn := hrest.pos
    rw [Nat.add_assoc, ← Nat.add_assoc, hlength] at hnext
    rw [keyIdentifierFrom_field (by omega) hpos hlen, if_neg hne, ← Nat.add_assoc, hlength, hnext]

/-- The identifier that is returned. -/
theorem parseAkiKeyIdentifier_yields (aki : List UInt8) :
    Yields (fun v => ∃ n rest stop, Opens aki n rest ∧ Reached v n stop rest)
      (parseAkiKeyIdentifier aki) := by
  refine yields_guard fun htwo => (yields_idx (by omega)).bind fun tag htag => ?_
  refine yields_guard fun hseq => ?_
  rw [slice_end (by omega), ok_bind, parseDerLength_eq]
  refine (readDerLengthOcsp_yields _ 0).bind fun ⟨n, _⟩ ⟨len, rest, hlen, hreads, hlb⟩ => ?_
  cases hlb
  rw [List.drop_zero] at hlen
  have hlength := length_of_drop (by omega) hlen
  refine yields_guard fun hn => (keyIdentifierFrom_yields aki _ _).mono fun v ⟨stop, hv⟩ => ?_
  rw [drop_add_of_drop hlen, Nat.add_sub_cancel_left] at hv
  refine ⟨n, rest, stop, ⟨len, ?_, hreads, by omega⟩, hv⟩
  rw [← Decidable.not_not.mp hseq, ← hlen, ← htag, List.drop_zero]

theorem Reached.returned {aki : List UInt8} {n stop : Nat} (h : Reached value n stop rest)
    (hopens : Opens aki n rest) : parseAkiKeyIdentifier aki = .ok value := by
  obtain ⟨len, rfl, hlen, hn⟩ := hopens
  have hread : readDerLengthOcsp (len ++ rest) 0 = .ok (n, len.length) :=
    readDerLengthOcsp_reads rfl hlen
  have hpos : 0 < len.length := by
    cases hlen.1 <;> exact Nat.zero_lt_succ _
  have hslice : (slice (0x30 :: (len ++ rest)) 1 _ : Outcome Unit (List UInt8)) = _ :=
    slice_end (by simp)
  have hlength : (0x30 :: (len ++ rest)).length = len.length + rest.length + 1 := by
    rw [List.length_cons, List.length_append]
  rw [parseAkiKeyIdentifier, if_neg (by omega), idx_first, ok_bind, if_neg (by simp), hslice,
    ok_bind, parseDerLength_eq, List.drop_one, List.tail_cons, hread, ok_bind]
  dsimp only
  rw [if_neg (by omega)]
  refine h.found ?_
  rw [Nat.add_comm, List.drop_succ_cons, List.drop_left]

/-- A `[0]` that ends in the next `n` octets is the first one there. -/
theorem Reached.isFirst {n stop : Nat} (h : Reached value n stop rest) (hstop : stop ≤ n) :
    FirstElement 0x80 value (rest.take n) := by
  induction h with
  | here hn hfield =>
    rw [List.take_append, List.take_of_length_le hstop]
    exact .here hfield.isElement
  | later hne hfield hrest ih =>
    rw [List.take_length_add_append]
    exact .later hne hfield.isElement (ih (Nat.le_of_add_le_add_left hstop))

/-- With a first `[0]` in the next `n` octets, the one that is reached ends there. -/
theorem Reached.stop_le {n stop : Nat} (h : Reached value n stop rest)
    (hfirst : FirstElement 0x80 value' (rest.take n)) : stop ≤ n := by
  induction h with
  | @here n bytes rest hn hfield =>
    have hall := List.take_append_drop n (bytes ++ rest)
    have hlength := List.length_take_le n (bytes ++ rest)
    generalize (bytes ++ rest).take n = front at hfirst hall hlength
    cases hfirst with
    | here h =>
      rw [List.append_assoc] at hall
      obtain ⟨-, -, rfl, -⟩ := h.unique hfield.isElement hall
      rw [List.length_append] at hlength
      exact Nat.le_of_add_right_le hlength
    | later hne h =>
      rw [List.append_assoc] at hall
      exact absurd (h.unique hfield.isElement hall).1 hne
  | @later _ n _ _ bytes rest hne hfield hrest ih =>
    rw [List.take_length_add_append] at hfirst
    generalize hfront : bytes ++ rest.take n = front at hfirst
    refine Nat.add_le_add_left (ih ?_) _
    cases hfirst with
    | here h => exact absurd (hfield.isElement.unique h hfront).1 hne
    | later _ h hfirst =>
      rw [(hfield.isElement.unique h hfront).2.2.2]
      exact hfirst

/-- The identifier is the first `[0]` of the SEQUENCE if and only if a `[0]` that begins in the
    content of the SEQUENCE, behind whole fields with other tags, ends in it. -/
theorem key_identifier_inside (aki : List UInt8) : parseAkiKeyIdentifier aki ≠ .panic ∧
    ((∀ v, parseAkiKeyIdentifier aki = .ok v →
        ∃ content, Begins content aki ∧ FirstElement 0x80 v content) ↔
      ∀ n rest v stop, Opens aki n rest → Reached v n stop rest → stop ≤ n) := by
  have hyields := parseAkiKeyIdentifier_yields aki
  refine ⟨hyields.ne_panic, fun hinside n rest v stop hopens hreached => ?_, fun hends v hv => ?_⟩
  · obtain ⟨content, hbegins, hfirst⟩ := hinside v (hreached.returned hopens)
    rw [hopens.begins_iff.mp hbegins] at hfirst
    exact hreached.stop_le hfirst
  · obtain ⟨n, rest, stop, hopens, hreached⟩ := hyields.of_ok hv
    have hstop := hends n rest v stop hopens hreached
    exact ⟨_, hopens.begins_iff.mpr rfl, hreached.isFirst hstop⟩

theorem opens_short {n : UInt8} (hn : n < 0x80) (h : n.toNat ≤ rest.length) :
    Opens (0x30 :: n :: rest) n.toNat rest :=
  ⟨[n], rfl, ⟨.short hn, by simp⟩, h⟩

theorem FirstElement.length_le (h : FirstElement tag value rest) :
    value.length < rest.length := by
  induction h with
  | here h =>
    obtain ⟨len, rfl, -⟩ := h
    simp only [List.length_append, List.length_cons]
    omega
  | later hne h hrest ih =>
    rw [List.length_append]
    omega

/-- The identifier lies behind the SEQUENCE. -/
theorem key_identifier_past_end :
    parseAkiKeyIdentifier [0x30, 0x02, 0x80, 0x02, 0xAA, 0xBB] = .ok [0xAA, 0xBB] ∧
    ¬ ∃ content, Begins content [0x30, 0x02, 0x80, 0x02, 0xAA, 0xBB] ∧
      FirstElement 0x80 [0xAA, 0xBB] content := by
  constructor
  · change keyIdentifierFrom [0x30, 0x02, 0x80, 0x02, 0xAA, 0xBB] 4 2 = .ok [0xAA, 0xBB]
    rw [keyIdentifierFrom]
    rfl
  · rintro ⟨content, hbegins, hfirst⟩
    rw [(opens_short (by decide) (by decide)).begins_iff] at hbegins
    have hle := hfirst.length_le
    rw [hbegins] at hle
    exact absurd hle (by decide)

theorem extractBasicOcspTbsBytes_yields (der : List UInt8) :
    Yields (fun tbs => ∃ n rest value after, Opens der n rest ∧ Field 0x30 value tbs ∧
      rest = tbs ++ after) (extractBasicOcspTbsBytes der) := by
  refine yields_guard fun hhead => ?_
  rcases der with _ | ⟨first, data⟩
  · exact absurd (by simp) hhead
  obtain rfl : first = 0x30 := by simpa using hhead
  refine (readDerLengthOcsp_yields _ 1).bind fun ⟨n, _⟩ ⟨len, rest, hlen, hreads, hlb⟩ => ?_
  cases hlb
  have hcontent := drop_add_of_drop hlen
  have hlength := length_of_drop (by simp) hlen
  obtain rfl : data = len ++ rest := hlen
  refine yields_guard fun hn => yields_guard fun hmore => ?_
  refine (yields_idx (Nat.lt_of_not_le hmore)).bind fun tag htag => yields_guard fun hseq => ?_
  refine (readDerLengthOcsp_yields _ _).bind fun ⟨n', _⟩ ⟨len', rest', hlen', hreads', hlb⟩ => ?_
  cases hlb
  dsimp only at hn hreads hreads' hlen' htag ⊢
  have hlength' := length_of_drop (by omega) hlen'
  refine yields_guard fun hend => ?_
  obtain ⟨value, after, rfl, rfl, hfield⟩ :=
    take_declared tag hreads' (show n' ≤ rest'.length by omega)
  have hrest : rest = (tag :: (len' ++ value)) ++ after := by
    rw [← hcontent, htag, hlen', List.cons_append, List.append_assoc]
  have hslice := slice_of_drop (ε := Unit) (by omega) (hcontent.trans hrest)
  have hstop : 1 + len.length + (tag :: (len' ++ value)).length =
      1 + len.length + 1 + len'.length + value.length := by
    rw [List.length_cons, List.length_append]
    omega
  rw [← hstop, hslice]
  obtain rfl := Decidable.not_not.mp hseq
  exact ⟨n, rest, value, after, ⟨len, rfl, hreads, by omega⟩, hfield, hrest⟩

theorem extractBasicOcspTbsBytes_field {der tbs after : List UInt8} {n : Nat}
    (hopens : Opens der n (tbs ++ after)) (hfield : Field 0x30 value tbs) :
    extractBasicOcspTbsBytes der = .ok tbs := by
  obtain ⟨len, rfl, hlen, hn⟩ := hopens
  obtain ⟨len', rfl, hlen'⟩ := hfield
  set der := 0x30 :: (len ++ (0x30 :: (len' ++ value) ++ after)) with hder
  have houter : der.drop 1 = len ++ (0x30 :: (len' ++ value) ++ after) := rfl
  have hcontent := drop_add_of_drop houter
  have hlength := length_of_drop (Nat.succ_le_succ (Nat.zero_le _)) houter
  have hinner : der.drop (1 + len.length + 1) = len' ++ (value ++ after) := by
    rw [← List.append_assoc]
    exact drop_succ_of_drop hcontent
  have hslice := slice_of_drop (ε := Unit) (by omega) hcontent
  simp only [List.length_append, List.length_cons] at hn hlength hslice
  rw [extractBasicOcspTbsBytes, if_neg (by simp [hder]), readDerLengthOcsp_reads houter hlen, ok_bind]
  dsimp only
  rw [if_neg (by omega), if_neg (by omega), idx_of_drop hcontent, ok_bind,
    if_neg (by simp), readDerLengthOcsp_reads hinner hlen', ok_bind]
  dsimp only
  rw [if_neg (by omega), ← hslice]
  congr 1
  omega

/-- The bytes are the first element of the outer SEQUENCE if and only if an inner SEQUENCE at the
    start of the content ends in the content. -/
theorem tbs_bytes_inside (der : List UInt8) :
    (∀ tbs, extractBasicOcspTbsBytes der = .ok tbs → ∃ content value after,
      Begins content der ∧ Element 0x30 value tbs ∧ content = tbs ++ after) ↔
    ∀ n value tbs after, Opens der n (tbs ++ after) → Field 0x30 value tbs → tbs.length ≤ n := by
  constructor
  · intro hinside n value tbs after hopens hfield
    obtain ⟨content, -, after', hbegins, -, hcontent⟩ :=
      hinside tbs (extractBasicOcspTbsBytes_field hopens hfield)
    have hlength := List.length_take_le n (tbs ++ after)
    rw [← hopens.begins_iff.mp hbegins, hcontent, List.length_append] at hlength
    exact Nat.le_of_add_right_le hlength
  · intro hends tbs htbs
    obtain ⟨n, rest, value, after, hopens, hfield, rfl⟩ :=
      (extractBasicOcspTbsBytes_yields der).of_ok htbs
    have hle := hends n value tbs after hopens hfield
    refine ⟨_, value, after.take (n - tbs.length), hopens.begins_iff.mpr rfl, hfield.isElement, ?_⟩
    rw [List.take_append, List.take_of_length_le hle]

/-- The slice is longer than the content of the SEQUENCE. -/
theorem tbs_bytes_past_end :
    extractBasicOcspTbsBytes [0x30, 0x02, 0x30, 0x02, 0xAA, 0xBB] = .ok [0x30, 0x02, 0xAA, 0xBB] ∧
    ¬ ∃ content after, Begins content [0x30, 0x02, 0x30, 0x02, 0xAA, 0xBB] ∧
      content = [0x30, 0x02, 0xAA, 0xBB] ++ after := by
  constructor
  · decide
  · rintro ⟨content, after, hbegins, rfl⟩
    rw [(opens_short (by decide) (by decide)).begins_iff] at hbegins
    have hlength := congrArg List.length hbegins
    simp at hlength

/-! ## Three readers of one length -/

variable {pre : List UInt8}

/-- At the element's length octets the three readers find the same, and none goes wrong. -/
def ReadersAgree (pre : List UInt8) (tag : UInt8) (rest : List UInt8) : Prop :=
  readDerLengthOcsp (pre ++ tag :: rest) (pre.length + 1) ≠ .panic ∧
  (lengthInside (tag :: rest) =
    readDerLengthOcsp (pre ++ tag :: rest) (pre.length + 1) >>= fun r => .ok (r.1, 1 + r.2)) ∧
  extractIntegerValue (tag :: rest) ≠ .panic ∧ extractContextTaggedValue (tag :: rest) ≠ .panic

/-- A short form with its value there, a long form with up to four octets, or one without its
    octets. -/
def Usual : List UInt8 → Prop
  | [] => True
  | first :: more => (first < 0x80 ∧ first.toNat ≤ more.length) ∨
      (0x80 < first ∧ (lowBits first ≤ 4 ∨ more.length < lowBits first))

theorem drop_tag : (pre ++ tag :: rest).drop (pre.length + 1) = rest := by
  rw [← List.drop_drop, List.drop_left, List.drop_succ_cons, List.drop_zero]

theorem lengthInside_cons : lengthInside (tag :: first :: more) =
    if first < 0x80 then .ok (first.toNat, 2)
    else if more.length < lowBits first then .err ()
    else .ok ((more.take (lowBits first)).foldl shiftIn 0, 2 + lowBits first) := by
  rw [lengthInside, if_neg (by simp), idx_second, ok_bind]
  refine if_congr Iff.rfl rfl ?_
  simp only [List.length_cons]
  by_cases hn : more.length < lowBits first
  · rw [if_pos hn, if_pos (by omega)]
  · rw [if_neg hn, if_neg (by omega), lengthOctets_eq 0 rfl (Nat.le_of_not_lt hn)]
    rfl

theorem getFrom_yields {der : List UInt8} {start len : Nat}
    (h : start + len < 18446744073709551616) : Yields (fun _ => True) (getFrom der start len) := by
  rw [getFrom, if_neg (Nat.not_le.mpr h)]
  split <;> trivial

/-- A read length that leaves room in 64 bits. -/
def Small (r : Outcome Unit (Nat × Nat)) : Prop :=
  Yields (fun r => r.2 + r.1 < 18446744073709551616) r

theorem extractIntegerValue_yields {der : List UInt8} (h : Small (lengthInside der)) :
    Yields (fun _ => True) (extractIntegerValue der) :=
  yields_guard fun _ => h.bind fun _ hr => getFrom_yields hr

theorem extractContextTaggedValue_short (h : first < 0x80) :
    extractContextTaggedValue (tag :: first :: more) =
      slice (tag :: first :: more) 2 (2 + first.toNat) := by
  rw [extractContextTaggedValue, lengthInside_cons, if_pos h, ok_bind]
  dsimp only
  rw [idx_second, ok_bind, if_pos h]

theorem extractContextTaggedValue_long (h : ¬ first < 0x80)
    (hsmall : Small (lengthInside (tag :: first :: more))) :
    Yields (fun _ => True) (extractContextTaggedValue (tag :: first :: more)) := by
  refine Yields.bind hsmall fun r hr => ?_
  dsimp only
  rw [idx_second, ok_bind, if_neg h]
  exact getFrom_yields hr

theorem readers_agree_short (h : first < 0x80) :
    ReadersAgree pre tag (first :: more) ↔ first.toNat ≤ more.length := by
  have hinside : lengthInside (tag :: first :: more) = .ok (first.toNat, 2) := by
    rw [lengthInside_cons, if_pos h]
  rw [ReadersAgree, readDerLengthOcsp_cons drop_tag, if_pos h, extractContextTaggedValue_short h]
  constructor
  · rintro ⟨-, -, -, hpanic⟩
    by_contra hfits
    refine hpanic (if_neg ?_)
    simp only [List.length_cons]
    omega
  · intro hfits
    have hsmall : Small (lengthInside (tag :: first :: more)) := by
      have hlt := first.toNat_lt
      rw [hinside]
      show 2 + first.toNat < 18446744073709551616
      omega
    refine ⟨fun h => (by cases h), hinside, (extractIntegerValue_yields hsmall).ne_panic, ?_⟩
    refine (yields_slice (Nat.le_add_right ..) ?_).ne_panic
    simp only [List.length_cons]
    omega

theorem readers_agree_long (h : ¬ first < 0x80) : ReadersAgree pre tag (first :: more) ↔
    lowBits first ≠ 0 ∧ (lowBits first ≤ 4 ∨ more.length < lowBits first) := by
  have hinside : lengthInside (tag :: first :: more) = if more.length < lowBits first then .err ()
      else .ok ((more.take (lowBits first)).foldl shiftIn 0, 2 + lowBits first) := by
    rw [lengthInside_cons, if_neg h]
  constructor
  · rintro ⟨-, hagree, -, -⟩
    rw [hinside, readDerLengthOcsp_cons drop_tag, if_neg h] at hagree
    by_cases hcut : more.length < lowBits first
    · exact ⟨by omega, .inr hcut⟩
    · by_cases hbad : lowBits first = 0 ∨ lowBits first > 4 ∨ more.length < lowBits first
      · rw [if_neg hcut, if_pos hbad] at hagree
        cases hagree
      · exact ⟨by omega, .inl (by omega)⟩
  · rintro ⟨hne, hrest⟩
    have hsmall : Small (lengthInside (tag :: first :: more)) := by
      rw [hinside]
      refine yields_guard fun hcut => ?_
      have hval := @foldl_shiftIn (more.take (lowBits first)) (by rw [List.length_take]; omega)
      show 2 + lowBits first + _ < 18446744073709551616
      omega
    refine ⟨(readDerLengthOcsp_yields _ _).ne_panic, ?_,
      (extractIntegerValue_yields hsmall).ne_panic,
      (extractContextTaggedValue_long h hsmall).ne_panic⟩
    rw [hinside, readDerLengthOcsp_cons drop_tag, if_neg h]
    by_cases hcut : more.length < lowBits first
    · rw [if_pos hcut, if_pos (.inr (.inr hcut))]
      rfl
    · rw [if_neg hcut, if_neg (by omega), ok_bind, ← Nat.add_assoc]

/-- The three readers agree on the usual lengths and on no others. -/
theorem readers_agree_iff (pre : List UInt8) (tag : UInt8) (rest : List UInt8) :
    ReadersAgree pre tag rest ↔ Usual rest := by
  rcases rest with _ | ⟨first, more⟩
  · rw [ReadersAgree, readDerLengthOcsp_nil drop_tag]
    refine ⟨fun _ => trivial, fun _ => ⟨fun h => ?_, rfl, fun h => ?_, fun h => ?_⟩⟩ <;> cases h
  · rw [Usual]
    by_cases hshort : first < 0x80
    · have hlong : ¬ 0x80 < first := UInt8.lt_asymm hshort
      rw [readers_agree_short hshort]
      simp only [hshort, hlong, true_and, false_and, or_false]
    · have hlong : 0x80 < first ↔ lowBits first ≠ 0 := by
        rw [UInt8.lt_iff_toNat_lt, lowBits_of_not_lt hshort]
        change 128 < 128 + lowBits first ↔ _
        omega
      rw [readers_agree_long hshort]
      simp only [hshort, hlong, false_and, false_or]

/-- A short form without its value, an indefinite length, and eight length octets. -/
theorem readers_disagree :
    extractContextTaggedValue [0x86, 0x05] = .panic ∧
    readDerLengthOcsp [0x86, 0x05] 1 = .ok (5, 1) ∧
    lengthInside [0x02, 0x80] = .ok (0, 2) ∧ readDerLengthOcsp [0x02, 0x80] 1 = .err () ∧
    extractIntegerValue [0x02, 0x88, 0xFF, 0xFF, 0xFF, 0xFF, 0xFF, 0xFF, 0xFF, 0xFF] = .panic ∧
    ¬ ReadersAgree [] 0x86 [0x05] := by
  refine ⟨by decide, by decide, by decide, by decide, by decide, fun h => h.2.2.2 (by decide)⟩

end Kipuka.Auth.Der
