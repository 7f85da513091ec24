/-
  `CoapMessage.parse` after `CoapMessage.encode`: a message whose fields fit their widths is read
  back with its options sorted by number, equal numbers in their order. The induction is on the
  options, with the last number as the state of both sides.
-/
import Kipuka.Coap.Message

namespace Kipuka.Coap

open Generic Generic.Outcome

/-! ## Bit fields -/

theorem nibbles (a b : UInt8) (ha : a < 16) (hb : b < 16) :
    (((a <<< 4) ||| b) >>> 4) &&& 0x0F = a ∧ ((a <<< 4) ||| b) &&& 0x0F = b := by
  have key : ∀ x y : Fin 16,
      (((UInt8.ofNat x.1 <<< 4) ||| UInt8.ofNat y.1) >>> 4) &&& 0x0F = UInt8.ofNat x.1 ∧
        ((UInt8.ofNat x.1 <<< 4) ||| UInt8.ofNat y.1) &&& 0x0F = UInt8.ofNat y.1 := by
    decide +kernel
  simpa using key ⟨a.toNat, ha⟩ ⟨b.toNat, hb⟩

theorem headerByte (ty : CoapMessageType) (n : Nat) (hn : n ≤ 8) :
    let b0 := (coapVersion <<< 6) ||| (ty.toBits <<< 4) ||| n.toUInt8
    (b0 >>> 6) &&& 0x03 = coapVersion ∧ (b0 >>> 4) &&& 0x03 = ty.toBits ∧
      (b0 &&& 0x0F).toNat = n := by
  have key : ∀ x : Fin 9, ∀ t ∈ [(0 : UInt8), 1, 2, 3],
      let b0 := (coapVersion <<< 6) ||| (t <<< 4) ||| x.1.toUInt8
      (b0 >>> 6) &&& 0x03 = coapVersion ∧ (b0 >>> 4) &&& 0x03 = t ∧ (b0 &&& 0x0F).toNat = x.1 := by
    decide +kernel
  exact key ⟨n, by omega⟩ ty.toBits (by cases ty <;> simp [CoapMessageType.toBits])

theorem fromBits_toBits (ty : CoapMessageType) : CoapMessageType.fromBits ty.toBits = .ok ty := by
  cases ty <;> rfl

theorem fromByte_toByte (c : CoapCode) (hclass : c.classBits < 8) (hdetail : c.detail < 32) :
    CoapCode.fromByte c.toByte = c := by
  have key : ∀ x : Fin 8, ∀ y : Fin 32,
      CoapCode.fromByte (CoapCode.toByte ⟨UInt8.ofNat x.1, UInt8.ofNat y.1⟩) =
        ⟨UInt8.ofNat x.1, UInt8.ofNat y.1⟩ := by
    decide +kernel
  simpa using key ⟨c.classBits.toNat, hclass⟩ ⟨c.detail.toNat, hdetail⟩

theorem toNat_u16FromBe (hi lo : UInt8) : (u16FromBe hi lo).toNat = hi.toNat * 256 + lo.toNat := by
  have hhi := hi.toNat_lt
  have hlo := lo.toNat_lt
  unfold u16FromBe
  rw [UInt16.toNat_or, UInt16.toNat_shiftLeft, UInt8.toNat_toUInt16, UInt8.toNat_toUInt16]
  have h8 : (8 : UInt16).toNat % 16 = 8 := rfl
  rw [h8, Nat.mod_eq_of_lt (by rw [Nat.shiftLeft_eq]; omega), ← Nat.shiftLeft_add_eq_or_of_lt hlo,
    Nat.shiftLeft_eq]

theorem toNat_shiftRight_8 (v : UInt16) : (v >>> 8).toUInt8.toNat = v.toNat / 256 := by
  have hv := v.toNat_lt
  rw [UInt16.toNat_toUInt8, UInt16.toNat_shiftRight, Nat.shiftRight_eq_div_pow]
  show v.toNat / 256 % 256 = _
  omega

theorem u16FromBe_toBe (v : UInt16) : u16FromBe (v >>> 8).toUInt8 v.toUInt8 = v := by
  apply UInt16.toNat_inj.mp
  rw [toNat_u16FromBe, toNat_shiftRight_8, UInt16.toNat_toUInt8]
  omega

/-! ## Option headers -/

theorem checkedAdd_eq_some {a b v : UInt16} :
    checkedAdd a b = some v ↔ v.toNat = a.toNat + b.toNat := by
  have hv := v.toNat_lt
  unfold checkedAdd
  split
  · next h =>
    rw [Option.some.injEq, ← UInt16.toNat_inj, UInt16.toNat_add, Nat.mod_eq_of_lt h, eq_comm]
  · simp only [reduceCtorEq, false_iff]
    omega

theorem addU16_eq_ok {a b v : UInt16} : addU16 a b = .ok v ↔ v.toNat = a.toNat + b.toNat := by
  rw [← checkedAdd_eq_some, addU16]
  split
  · next h => simp [h]
  · next h => simp [h]

theorem checkedAdd_sub {a b : UInt16} (h : a ≤ b) : checkedAdd a (b - a) = some b := by
  have hle : a.toNat ≤ b.toNat := UInt16.le_iff_toNat_le.mp h
  rw [checkedAdd_eq_some, UInt16.toNat_sub_of_le _ _ h]
  omega

/-- The forms of a header value: in the nibble itself, or in one or two bytes behind it. -/
inductive HeaderForm (v : UInt16) : UInt8 → List UInt8 → Prop
  | nibble {n : UInt8} (hlt : n.toNat < 13) (hv : v.toNat = n.toNat) : HeaderForm v n []
  | oneByte {b : UInt8} (hv : v.toNat = b.toNat + 13) : HeaderForm v 13 [b]
  | twoBytes {hi lo : UInt8} (hv : v.toNat = (u16FromBe hi lo).toNat + 269) :
    HeaderForm v 14 [hi, lo]

theorem headerForm_encode (v : UInt16) :
    HeaderForm v (encodeOptionHeaderValue v).1 (encodeOptionHeaderValue v).2 := by
  unfold encodeOptionHeaderValue
  by_cases h13 : v < 13
  · have hv : v.toNat < 13 := UInt16.lt_iff_toNat_lt.mp h13
    have hn : v.toUInt8.toNat = v.toNat := by
      rw [UInt16.toNat_toUInt8]
      omega
    rw [if_pos h13]
    exact .nibble (hn ▸ hv) hn.symm
  · have hge : 13 ≤ v.toNat := UInt16.le_iff_toNat_le.mp (UInt16.not_lt.mp h13)
    rw [if_neg h13]
    by_cases h269 : v < 269
    · have hv : v.toNat < 269 := UInt16.lt_iff_toNat_lt.mp h269
      rw [if_pos h269]
      refine .oneByte ?_
      rw [UInt16.toNat_toUInt8, UInt16.toNat_sub_of_le _ _ (UInt16.not_lt.mp h13)]
      show v.toNat = (v.toNat - 13) % 256 + 13
      omega
    · have hv : 269 ≤ v.toNat := UInt16.le_iff_toNat_le.mp (UInt16.not_lt.mp h269)
      rw [if_neg h269]
      refine .twoBytes ?_
      rw [u16FromBe_toBe, UInt16.toNat_sub_of_le _ _ (UInt16.not_lt.mp h269)]
      exact (Nat.sub_add_cancel hv).symm

theorem encodeOptionHeaderValue_lt (v : UInt16) : (encodeOptionHeaderValue v).1 < 15 := by
  have hform := headerForm_encode v
  generalize (encodeOptionHeaderValue v).1 = n, (encodeOptionHeaderValue v).2 = ext at *
  cases hform with
  | nibble hlt hv => exact UInt8.lt_iff_toNat_lt.mpr (Nat.lt_trans hlt (by decide))
  | oneByte hv => decide
  | twoBytes hv => decide

theorem readExtended_encode (what : String) (data rest : List UInt8) (v : UInt16) (pos : Nat)
    (hpos : pos ≤ data.length) (h : data.drop pos = (encodeOptionHeaderValue v).2 ++ rest) :
    readExtended what data (encodeOptionHeaderValue v).1.toUInt16 pos =
      .ok (v, (encodeOptionHeaderValue v).2.length) := by
  have hlen := length_of_drop hpos h
  have hform := headerForm_encode v
  generalize (encodeOptionHeaderValue v).1 = n, (encodeOptionHeaderValue v).2 = ext at *
  unfold readExtended
  cases hform with
  | nibble hlt hv =>
    have hself : n.toUInt16 = v := by rw [← UInt16.toNat_inj, hv, UInt8.toNat_toUInt16]
    have hne : ∀ k : UInt16, 13 ≤ k.toNat → v ≠ k := by
      rintro k hk rfl
      omega
    rw [hself, if_neg (hne 13 (by decide)), if_neg (hne 14 (by decide)), if_neg (hne 15 (by decide))]
    rfl
  | @oneByte b hv =>
    have hadd : addU16 b.toUInt16 13 = .ok v := by
      rw [addU16_eq_ok, UInt8.toNat_toUInt16]
      exact hv
    rw [if_pos (by decide), if_neg (by simp at hlen; omega), idx_of_drop h, ok_bind, hadd]
    rfl
  | twoBytes hv =>
    rw [if_neg (by decide), if_pos (by decide), if_neg (by simp at hlen; omega), idx_of_drop h,
      ok_bind, idx_of_drop (drop_succ_of_drop h), ok_bind, checkedAdd_eq_some.mpr hv]
    rfl

/-! ## One option -/

theorem toNat_toUInt16_of_lt {n : Nat} (h : n < 65536) : n.toUInt16.toNat = n := by
  rw [Nat.toUInt16, UInt16.toNat_ofNat']
  omega

theorem encodeOption_eq (prev : UInt16) (o : CoapOption) :
    encodeOption prev o =
      ((encodeOptionHeaderValue (o.number - prev)).1 <<< 4 |||
          (encodeOptionHeaderValue o.value.length.toUInt16).1) ::
        ((encodeOptionHeaderValue (o.number - prev)).2 ++
          ((encodeOptionHeaderValue o.value.length.toUInt16).2 ++ o.value)) := by
  simp [encodeOption]

theorem encodeOption_head (prev : UInt16) (o : CoapOption) :
    ∃ b rest, encodeOption prev o = b :: rest ∧ b ≠ payloadMarker := by
  refine ⟨_, _, encodeOption_eq prev o, ?_⟩
  have ha := encodeOptionHeaderValue_lt (o.number - prev)
  have hb := encodeOptionHeaderValue_lt o.value.length.toUInt16
  intro hm
  have hn := (nibbles _ _ (UInt8.lt_trans ha (by decide)) (UInt8.lt_trans hb (by decide))).2
  rw [hm] at hn
  rw [← hn] at hb
  exact absurd hb (by decide)

theorem parseOption_encodeOption (data rest : List UInt8) (pos : Nat) (prev : UInt16)
    (o : CoapOption) (hpos : pos ≤ data.length) (hnum : prev ≤ o.number)
    (hval : o.value.length < 65536) (h : data.drop pos = encodeOption prev o ++ rest) :
    parseOption data pos prev = .ok (o, (encodeOption prev o).length - 1) := by
  have hdn := encodeOptionHeaderValue_lt (o.number - prev)
  have hln := encodeOptionHeaderValue_lt o.value.length.toUInt16
  have hrd := fun rest' => readExtended_encode "delta" data rest' (o.number - prev)
  have hrl := fun rest' => readExtended_encode "length" data rest' o.value.length.toUInt16
  rw [encodeOption_eq] at h ⊢
  rcases hd : encodeOptionHeaderValue (o.number - prev) with ⟨dn, dext⟩
  rcases hl : encodeOptionHeaderValue o.value.length.toUInt16 with ⟨ln, lext⟩
  rw [hd, hl] at h
  rw [hd] at hrd hdn
  rw [hl] at hrl hln
  dsimp only at h hrd hrl hdn hln ⊢
  obtain ⟨hhi, hlo⟩ := nibbles dn ln (UInt8.lt_trans hdn (by decide)) (UInt8.lt_trans hln (by decide))
  -- the suffixes at the four places where `parseOption` reads
  have h0 : data.drop pos = ((dn <<< 4) ||| ln) :: (dext ++ (lext ++ (o.value ++ rest))) := by
    simpa [List.append_assoc] using h
  have h1 : data.drop (pos + 1) = dext ++ (lext ++ (o.value ++ rest)) :=
    drop_succ_of_drop h0
  have h2 : data.drop (pos + 1 + dext.length) = lext ++ (o.value ++ rest) := drop_add_of_drop h1
  have h3 : data.drop (pos + 1 + dext.length + lext.length) = o.value ++ rest :=
    drop_add_of_drop h2
  have hlen := length_of_drop hpos h
  simp only [List.length_append, List.length_cons] at hlen
  have hn := toNat_toUInt16_of_lt hval
  unfold parseOption
  rw [idx_of_drop h0, ok_bind, hhi, hrd _ (pos + 1) (by omega) h1, ok_bind]
  dsimp only
  rw [hlo, hrl _ (pos + 1 + dext.length) (by omega) h2, ok_bind]
  dsimp only
  rw [checkedAdd_sub hnum]
  dsimp only
  rw [hn, if_neg (by omega), slice_of_drop (by omega) h3, ok_bind, pure_eq_ok]
  simp only [List.length_append, List.length_cons, Outcome.ok.injEq, Prod.mk.injEq]
  exact ⟨trivial, by omega⟩

/-! ## The option list -/

def SortedFrom : UInt16 → List CoapOption → Prop
  | _, [] => True
  | prev, o :: rest => prev ≤ o.number ∧ SortedFrom o.number rest

theorem sortedFrom_of_pairwise {prev : UInt16} {opts : List CoapOption}
    (hprev : ∀ o ∈ opts, prev ≤ o.number)
    (h : opts.Pairwise (fun a b => a.number ≤ b.number)) : SortedFrom prev opts := by
  induction opts generalizing prev with
  | nil => trivial
  | cons o rest ih =>
    rw [List.pairwise_cons] at h
    exact ⟨hprev o (List.mem_cons_self ..), ih h.1 h.2⟩

theorem sortByNumber_pairwise (opts : List CoapOption) :
    (sortByNumber opts).Pairwise (fun a b => a.number ≤ b.number) := by
  have htrans : ∀ a b c : CoapOption, decide (a.number ≤ b.number) = true →
      decide (b.number ≤ c.number) = true → decide (a.number ≤ c.number) = true := by
    intro a b c hab hbc
    exact decide_eq_true (UInt16.le_trans (of_decide_eq_true hab) (of_decide_eq_true hbc))
  have htotal : ∀ a b : CoapOption,
      (decide (a.number ≤ b.number) || decide (b.number ≤ a.number)) = true := by
    intro a b
    simpa using UInt16.le_total a.number b.number
  have h := List.pairwise_mergeSort htrans htotal opts
  simpa [sortByNumber] using h

/-- `ys` is `xs` stably sorted by option number: the same options, in order of their numbers,
    options of one number in their old order. -/
structure StablySorted (xs ys : List CoapOption) : Prop where
  perm : ys.Perm xs
  sorted : ys.Pairwise (fun a b => a.number ≤ b.number)
  stable : ∀ n, ys.filter (fun o => o.number = n) = xs.filter (fun o => o.number = n)

theorem sortByNumber_stablySorted (opts : List CoapOption) :
    StablySorted opts (sortByNumber opts) := by
  have hperm : (sortByNumber opts).Perm opts := List.mergeSort_perm ..
  refine ⟨hperm, sortByNumber_pairwise opts, fun n => ?_⟩
  -- the options numbered `n` are already in order, so the sort keeps them as a sublist
  have hself : (opts.filter (fun o => o.number = n)).Pairwise
      (fun a b => decide (a.number ≤ b.number) = true) := by
    refine List.pairwise_of_forall_mem_list (fun a ha b hb => ?_)
    have ha' : a.number = n := by simpa using (List.mem_filter.mp ha).2
    have hb' : b.number = n := by simpa using (List.mem_filter.mp hb).2
    rw [ha', hb']
    simp
  have hsub : (opts.filter (fun o => o.number = n)).Sublist (sortByNumber opts) :=
    List.sublist_mergeSort
      (fun a b c hab hbc => by simpa using UInt16.le_trans (by simpa using hab) (by simpa using hbc))
      (fun a b => by simpa using UInt16.le_total a.number b.number) hself List.filter_sublist
  have hsub' : (opts.filter (fun o => o.number = n)).Sublist
      ((sortByNumber opts).filter (fun o => o.number = n)) := by
    simpa using hsub.filter (fun o => o.number = n)
  exact (hsub'.eq_of_length ((hperm.filter _).length_eq).symm).symm

theorem sortByNumber_sortedFrom (opts : List CoapOption) : SortedFrom 0 (sortByNumber opts) :=
  sortedFrom_of_pairwise (fun _ _ => UInt16.le_iff_toNat_le.mpr (Nat.zero_le _))
    (sortByNumber_pairwise opts)

def payloadPart (payload : List UInt8) : List UInt8 :=
  if payload.isEmpty then [] else payloadMarker :: payload

theorem parseOptions_encodeOptions (data tail : List UInt8) (opts acc : List CoapOption)
    (prev : UInt16) (pos stop : Nat) (hpos : pos ≤ data.length) (hsorted : SortedFrom prev opts)
    (hval : ∀ o ∈ opts, o.value.length < 65536)
    (h : data.drop pos = encodeOptions prev opts ++ tail)
    (htail : tail = [] ∧ stop = data.length ∨
      ∃ rest, tail = payloadMarker :: rest ∧ stop + rest.length = data.length) :
    parseOptions data pos prev acc = .ok (acc ++ opts, stop) := by
  induction opts generalizing pos prev acc with
  | nil =>
    rw [encodeOptions, List.nil_append] at h
    rw [parseOptions, List.append_nil]
    have hlen := congrArg List.length h
    rw [List.length_drop] at hlen
    rcases htail with ⟨rfl, rfl⟩ | ⟨rest, rfl, hstop⟩
    · rw [List.length_nil] at hlen
      rw [if_neg (by omega), show pos = data.length by omega]
    · rw [List.length_cons] at hlen
      rw [if_pos (by omega), idx_of_drop h]
      dsimp only
      rw [if_pos rfl, show pos + 1 = stop by omega]
  | cons o rest ih =>
    obtain ⟨hnum, hrest⟩ := hsorted
    have ho := hval o (List.mem_cons_self ..)
    rw [encodeOptions, List.append_assoc] at h
    obtain ⟨b, bs, hb, hmark⟩ := encodeOption_head prev o
    have hcons : data.drop pos = b :: (bs ++ (encodeOptions o.number rest ++ tail)) := by
      rw [h, hb]
      rfl
    have hlen := length_of_drop hpos h
    have hpos' : 0 < (encodeOption prev o).length := by rw [hb]; simp
    rw [parseOptions, if_pos (by omega), idx_of_drop hcons]
    dsimp only
    rw [if_neg hmark, parseOption_encodeOption data _ pos prev o hpos hnum ho h]
    dsimp only
    rw [show pos + 1 + ((encodeOption prev o).length - 1) = pos + (encodeOption prev o).length by omega,
      ih (acc ++ [o]) o.number _ (by omega) hrest
        (fun o' ho' => hval o' (List.mem_cons_of_mem _ ho')) (drop_add_of_drop h)]
    simp

theorem payloadPart_tail (data payload : List UInt8) (hle : payload.length ≤ data.length) :
    payloadPart payload = [] ∧ data.length - payload.length = data.length ∨
      ∃ rest, payloadPart payload = payloadMarker :: rest ∧
        data.length - payload.length + rest.length = data.length := by
  unfold payloadPart
  split
  · next he => exact .inl ⟨rfl, by simp [List.isEmpty_iff.mp he]⟩
  · exact .inr ⟨payload, rfl, by omega⟩

/-! ## The whole message -/

theorem encode_eq (m : CoapMessage) (htoken : m.token.length ≤ 8) :
    m.encode =
      ((coapVersion <<< 6) ||| (m.msgType.toBits <<< 4) ||| m.token.length.toUInt8) ::
        m.code.toByte :: (m.messageId >>> 8).toUInt8 :: m.messageId.toUInt8 ::
          (m.token ++ (encodeOptions 0 (sortByNumber m.options) ++ payloadPart m.payload)) := by
  have hmin : min m.token.length 8 = m.token.length := Nat.min_eq_left htoken
  have htkl : m.token.length.toUInt8.toNat = m.token.length := by
    rw [Nat.toUInt8, UInt8.toNat_ofNat']
    omega
  simp only [CoapMessage.encode, hmin, htkl, List.take_length, u16ToBe, payloadPart]
  simp

theorem payloadFrom_suffix (data payload : List UInt8) (h : payload <:+ data) :
    payloadFrom data (data.length - payload.length) = .ok payload := by
  have hle := h.length_le
  unfold payloadFrom
  by_cases hp : payload = []
  · subst hp
    simp
  · have hpos : 0 < payload.length := List.length_pos_iff.mpr hp
    have hdrop : data.drop (data.length - payload.length) = payload ++ [] := by
      rw [List.append_nil]
      exact (List.suffix_iff_eq_drop.mp h).symm
    have hslice : Outcome.slice data _ _ = (.ok payload : Outcome CoapError _) :=
      slice_of_drop (by omega) hdrop
    rw [if_pos (by omega)]
    rwa [show data.length - payload.length + payload.length = data.length by omega] at hslice

theorem suffix_payloadPart (payload : List UInt8) : payload <:+ payloadPart payload := by
  unfold payloadPart
  split
  · next he => simp [List.isEmpty_iff.mp he]
  · exact List.suffix_cons _ _

/-- Parsing an encoded message gives the message back with its options stably sorted by number:
    any option numbers in any order, any payload. -/
theorem parse_encode (m : CoapMessage) (hversion : m.version = 1) (hclass : m.code.classBits < 8)
    (hdetail : m.code.detail < 32) (htoken : m.token.length ≤ 8)
    (hvalues : ∀ o ∈ m.options, o.value.length < 65536) :
    CoapMessage.parse m.encode = .ok { m with options := sortByNumber m.options } ∧
      StablySorted m.options (sortByNumber m.options) := by
  refine ⟨?_, sortByNumber_stablySorted m.options⟩
  have henc := encode_eq m htoken
  generalize hdata : m.encode = data at henc ⊢
  obtain ⟨hver, htype, htkl⟩ := headerByte m.msgType m.token.length htoken
  generalize (coapVersion <<< 6) ||| (m.msgType.toBits <<< 4) ||| m.token.length.toUInt8 = b0
    at henc hver htype htkl
  -- the suffixes at the header bytes, at the token and at the options
  have h0 : data.drop 0 = b0 :: _ := henc
  have h1 : data.drop 1 = m.code.toByte :: _ := drop_succ_of_drop h0
  have h2 : data.drop 2 = (m.messageId >>> 8).toUInt8 :: _ := drop_succ_of_drop h1
  have h3 : data.drop 3 = m.messageId.toUInt8 :: _ := drop_succ_of_drop h2
  have h4 : data.drop 4 = m.token ++ _ := drop_succ_of_drop h3
  have h5 := drop_add_of_drop h4
  have hlen4 : 4 ≤ data.length := by rw [henc]; simp
  have hlen := length_of_drop hlen4 h4
  have hsuffix : m.payload <:+ data := by
    have hdrop : m.payload <:+ data.drop (4 + m.token.length) := by
      rw [h5]
      exact (suffix_payloadPart m.payload).trans (List.suffix_append _ _)
    exact hdrop.trans (List.drop_suffix _ _)
  have hopts := parseOptions_encodeOptions data (payloadPart m.payload) (sortByNumber m.options) []
    0 (4 + m.token.length) (data.length - m.payload.length) (by omega)
    (sortByNumber_sortedFrom m.options)
    (fun o ho => hvalues o ((sortByNumber_stablySorted m.options).perm.mem_iff.mp ho)) h5
    (payloadPart_tail data m.payload hsuffix.length_le)
  unfold CoapMessage.parse
  rw [if_neg (by omega), idx_of_drop h0, ok_bind]
  dsimp only
  rw [hver, if_neg (by simp), htype, fromBits_toBits, ok_bind, htkl, if_neg (by omega),
    idx_of_drop h1, ok_bind, idx_of_drop h2, ok_bind, idx_of_drop h3, ok_bind,
    if_neg (by omega), slice_of_drop hlen4 h4, ok_bind, hopts, ok_bind]
  dsimp only
  rw [payloadFrom_suffix data m.payload hsuffix, ok_bind, u16FromBe_toBe,
    fromByte_toByte m.code hclass hdetail, List.nil_append, pure_eq_ok, hversion]
  rfl

def unsortedRequest : CoapMessage where
  version := 1
  msgType := .confirmable
  code := ⟨0, 2⟩
  messageId := 0xABCD
  token := [1, 2]
  options := [⟨2048, [7]⟩, ⟨11, [0x65, 0x73, 0x74]⟩, ⟨60, []⟩, ⟨11, List.replicate 20 0x61⟩]
  payload := [0x30, 0x82]

theorem parse_encode_unsortedRequest :
    CoapMessage.parse unsortedRequest.encode =
        .ok { unsortedRequest with options := sortByNumber unsortedRequest.options } ∧
      StablySorted unsortedRequest.options (sortByNumber unsortedRequest.options) :=
  parse_encode unsortedRequest rfl (by decide) (by decide) (by decide) (by decide)

end Kipuka.Coap
