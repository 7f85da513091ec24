/-
  `CoapMessage.encode` after `CoapMessage.parse`: how much of a datagram a parsed message fixes.
-/
import Kipuka.Coap.RoundTrip

namespace Kipuka.Coap

open Generic Generic.Outcome

/-! ## Header bytes -/

theorem headerByte_sound (b0 : UInt8) (ty : CoapMessageType)
    (hver : (b0 >>> 6) &&& 0x03 = coapVersion)
    (hty : CoapMessageType.fromBits ((b0 >>> 4) &&& 0x03) = .ok ty) :
    (coapVersion <<< 6) ||| (ty.toBits <<< 4) ||| (b0 &&& 0x0F) = b0 := by
  have key : ∀ x : Fin 256, (UInt8.ofNat x.1 >>> 6) &&& 0x03 = coapVersion →
      CoapMessageType.fromBits ((UInt8.ofNat x.1 >>> 4) &&& 0x03) = .ok ty →
      (coapVersion <<< 6) ||| (ty.toBits <<< 4) ||| (UInt8.ofNat x.1 &&& 0x0F) = UInt8.ofNat x.1 := by
    cases ty <;> decide +kernel
  simpa using key ⟨b0.toNat, b0.toNat_lt⟩ (by simpa using hver) (by simpa using hty)

theorem toByte_fromByte (b : UInt8) : (CoapCode.fromByte b).toByte = b := by
  have key : ∀ x : Fin 256, (CoapCode.fromByte (UInt8.ofNat x.1)).toByte = UInt8.ofNat x.1 := by
    decide +kernel
  simpa using key ⟨b.toNat, b.toNat_lt⟩

theorem nibbles_sound (b : UInt8) :
    (((b >>> 4) &&& 0x0F) <<< 4) ||| (b &&& 0x0F) = b ∧ (b >>> 4) &&& 0x0F < 16 ∧ b &&& 0x0F < 16 := by
  have key : ∀ x : Fin 256,
      (((UInt8.ofNat x.1 >>> 4) &&& 0x0F) <<< 4) ||| (UInt8.ofNat x.1 &&& 0x0F) = UInt8.ofNat x.1 ∧
        (UInt8.ofNat x.1 >>> 4) &&& 0x0F < 16 ∧ UInt8.ofNat x.1 &&& 0x0F < 16 := by
    decide +kernel
  simpa using key ⟨b.toNat, b.toNat_lt⟩

theorem u16ToBe_fromBe (hi lo : UInt8) : u16ToBe (u16FromBe hi lo) = [hi, lo] := by
  have hhi := hi.toNat_lt
  have hlo := lo.toNat_lt
  have h := toNat_u16FromBe hi lo
  have h1 : ((u16FromBe hi lo) >>> 8).toUInt8 = hi := by
    apply UInt8.toNat_inj.mp
    rw [toNat_shiftRight_8, h]
    omega
  have h2 : (u16FromBe hi lo).toUInt8 = lo := by
    apply UInt8.toNat_inj.mp
    rw [UInt16.toNat_toUInt8, h]
    omega
  rw [u16ToBe, h1, h2]

/-! ## Options -/

variable {v : UInt16}

theorem HeaderForm.encode_eq {n : UInt8} {ext : List UInt8} (h : HeaderForm v n ext) :
    encodeOptionHeaderValue v = (n, ext) := by
  unfold encodeOptionHeaderValue
  simp only [UInt16.lt_iff_toNat_lt]
  cases h with
  | nibble hlt hv =>
    have hn : v.toUInt8 = n := by
      rw [← UInt8.toNat_inj, UInt16.toNat_toUInt8]
      omega
    rw [if_pos (hv ▸ hlt), hn]
  | @oneByte b hv =>
    have hb := b.toNat_lt
    have hle : (13 : UInt16) ≤ v := UInt16.le_iff_toNat_le.mpr (hv ▸ Nat.le_add_left ..)
    have hbyte : (v - 13).toUInt8 = b := by
      rw [← UInt8.toNat_inj, UInt16.toNat_toUInt8, UInt16.toNat_sub_of_le _ _ hle]
      show (v.toNat - 13) % 256 = b.toNat
      omega
    rw [if_neg (by show ¬ v.toNat < 13; omega), if_pos (by show v.toNat < 269; omega), hbyte]
  | @twoBytes hi lo hv =>
    have hle : (269 : UInt16) ≤ v := UInt16.le_iff_toNat_le.mpr (hv ▸ Nat.le_add_left ..)
    have hsub : v - 269 = u16FromBe hi lo := by
      rw [← UInt16.toNat_inj, UInt16.toNat_sub_of_le _ _ hle, hv]
      exact Nat.add_sub_cancel ..
    rw [if_neg (by show ¬ v.toNat < 13; omega), if_neg (by show ¬ v.toNat < 269; omega), hsub,
      u16ToBe_fromBe]

variable {data : List UInt8} {pos : Nat} {prev : UInt16}

/-- The bytes from `pos` on start with `mid`. -/
def StandsAt (data : List UInt8) (pos : Nat) (mid : List UInt8) : Prop :=
  pos + mid.length ≤ data.length ∧ data.drop pos = mid ++ data.drop (pos + mid.length)

theorem StandsAt.append {mid mid' : List UInt8} (h : StandsAt data pos mid)
    (h' : StandsAt data (pos + mid.length) mid') : StandsAt data pos (mid ++ mid') := by
  rw [StandsAt, List.length_append, ← Nat.add_assoc, List.append_assoc, ← h'.2]
  exact ⟨h'.1, h.2⟩

theorem standsAt_of_drop {mid rest : List UInt8} (hpos : pos ≤ data.length)
    (h : data.drop pos = mid ++ rest) : StandsAt data pos mid := by
  have hlen := length_of_drop hpos h
  refine ⟨by omega, ?_⟩
  rw [drop_add_of_drop h, h]

theorem readExtended_yields (what : String) {nibble : UInt8} (hn : nibble < 16)
    (hpos : pos ≤ data.length) :
    Yields (fun r => ∃ ext, encodeOptionHeaderValue r.1 = (nibble, ext) ∧ r.2 = ext.length ∧
      StandsAt data pos ext) (readExtended what data nibble.toUInt16 pos) := by
  have hn' : nibble.toNat < 16 := UInt8.lt_iff_toNat_lt.mp hn
  have heq : ∀ k : UInt8, nibble.toUInt16 = k.toUInt16 ↔ nibble = k := fun k => UInt8.toUInt16_inj
  unfold readExtended
  split
  · next h13 =>
    obtain rfl := (heq 13).mp h13
    refine yields_guard fun hlt => (yields_idx (by omega)).bind fun b hb => ?_
    cases hadd : addU16 b.toUInt16 13 with
    | ok v =>
      have hv := addU16_eq_ok.mp hadd
      rw [UInt8.toNat_toUInt16] at hv
      exact ⟨[b], HeaderForm.encode_eq (.oneByte hv), rfl, standsAt_of_drop hpos hb⟩
    | err e => trivial
    | panic =>
      -- a byte and 13 are far from the end of the 16 bits
      have hlt := b.toNat_lt
      have hsum : b.toNat + (13 : UInt16).toNat < 65536 := by
        show b.toNat + 13 < 65536
        omega
      rw [addU16, checkedAdd, UInt8.toNat_toUInt16, if_pos hsum] at hadd
      cases hadd
  · next h13 =>
    split
    · next h14 =>
      obtain rfl := (heq 14).mp h14
      refine yields_guard fun hlt => (yields_idx (by omega)).bind fun hi hhi => ?_
      refine (yields_idx (by omega)).bind fun lo hlo => ?_
      rw [hlo] at hhi
      split
      · next v hadd =>
        have hform := HeaderForm.twoBytes (checkedAdd_eq_some.mp hadd)
        exact ⟨[hi, lo], hform.encode_eq, rfl, standsAt_of_drop hpos hhi⟩
      · trivial
    · next h14 =>
      refine yields_guard fun h15 => ?_
      have hne : nibble.toNat ≠ 13 ∧ nibble.toNat ≠ 14 ∧ nibble.toNat ≠ 15 :=
        ⟨fun e => h13 ((heq 13).mpr (UInt8.toNat_inj.mp e)),
          fun e => h14 ((heq 14).mpr (UInt8.toNat_inj.mp e)),
          fun e => h15 ((heq 15).mpr (UInt8.toNat_inj.mp e))⟩
      have hform := HeaderForm.nibble (by omega) (UInt8.toNat_toUInt16 nibble)
      exact ⟨[], hform.encode_eq, rfl, hpos, rfl⟩

theorem parseOption_yields (hpos : pos < data.length) :
    Yields (fun r => prev ≤ r.1.number ∧ r.1.value.length < 65536 ∧
      (encodeOption prev r.1).length = 1 + r.2 ∧ StandsAt data pos (encodeOption prev r.1))
      (parseOption data pos prev) := by
  refine (yields_idx hpos).bind fun b hb => ?_
  obtain ⟨hbyte, hhi, hlo⟩ := nibbles_sound b
  have hat : StandsAt data pos [b] := standsAt_of_drop (Nat.le_of_lt hpos) hb
  refine (readExtended_yields _ hhi hat.1).bind fun ⟨delta, _⟩ ⟨ext, hdelta, hused, hd⟩ => ?_
  cases hused
  refine (readExtended_yields _ hlo hd.1).bind fun ⟨length, _⟩ ⟨ext', hlength, hused, hl⟩ => ?_
  cases hused
  dsimp only at hdelta hlength ⊢
  split
  · trivial
  · next number hnumber =>
    split
    · have hroom : pos + 1 + ext.length + ext'.length ≤ data.length := hl.1
      rw [subUsize, if_pos hroom]
      trivial
    · next hfits =>
      refine (yields_slice (Nat.le_add_right ..) (Nat.le_of_not_lt hfits)).bind fun value hv => ?_
      have hsum := checkedAdd_eq_some.mp hnumber
      have hlenlt := length.toNat_lt
      have hvlen : value.length = length.toNat := by omega
      have hle : prev ≤ number := UInt16.le_iff_toNat_le.mpr (by omega)
      have hsub : number - prev = delta := by
        apply UInt16.toNat_inj.mp
        rw [UInt16.toNat_sub_of_le _ _ hle]
        omega
      have hlen16 : value.length.toUInt16 = length := by
        apply UInt16.toNat_inj.mp
        rw [toNat_toUInt16_of_lt (by omega), hvlen]
      have henc : encodeOption prev ⟨number, value⟩ = [b] ++ (ext ++ (ext' ++ value)) := by
        rw [encodeOption_eq]
        dsimp only
        rw [hsub, hlen16, hdelta, hlength, hbyte]
        rfl
      -- the four pieces stand one behind the other
      have hall := hat.append (hd.append (hl.append (standsAt_of_drop hl.1 hv.2)))
      rw [← henc] at hall
      refine ⟨hle, by show value.length < _; omega, ?_, hall⟩
      simp only [henc, List.length_append, List.length_singleton]
      omega

theorem parseOptions_yields (hpos : pos ≤ data.length) (acc : List CoapOption) :
    Yields (fun r => ∃ new, r.1 = acc ++ new ∧ SortedFrom prev new ∧
      (∀ o ∈ new, o.value.length < 65536) ∧
      (data.drop pos = encodeOptions prev new ∧ r.2 = data.length ∨ r.2 ≤ data.length ∧
        data.drop pos = encodeOptions prev new ++ payloadMarker :: data.drop r.2))
      (parseOptions data pos prev acc) := by
  fun_induction parseOptions data pos prev acc with
  | case1 pos prev acc hlt hmark =>
    have hdrop := (yields_idx hlt).of_ok hmark
    exact ⟨[], (List.append_nil acc).symm, trivial, by simp, .inr ⟨hlt, hdrop⟩⟩
  | case2 pos prev acc hlt b hb hmark o used ho ih =>
    obtain ⟨hle, hval, hlen, hat⟩ := (parseOption_yields hlt).of_ok ho
    rw [StandsAt, hlen, ← Nat.add_assoc] at hat
    refine (ih hat.1).mono fun r hr => ?_
    obtain ⟨new, hopts, hsorted, hvals, hend⟩ := hr
    refine ⟨o :: new, by rw [hopts, List.append_assoc]; rfl, ⟨hle, hsorted⟩, ?_, ?_⟩
    · exact List.forall_mem_cons.mpr ⟨hval, hvals⟩
    · rw [hat.2, encodeOptions, List.append_assoc]
      exact hend.imp (And.imp_left (congrArg _)) (And.imp_right (congrArg _))
  | case3 => trivial
  | case4 pos prev acc hlt b hb hmark ho => exact absurd ho (parseOption_yields hlt).ne_panic
  | case5 => trivial
  | case6 pos prev acc hlt hb => exact absurd hb (yields_idx hlt).ne_panic
  | case7 pos prev acc hlt =>
    refine ⟨[], (List.append_nil acc).symm, trivial, by simp, .inl ⟨?_, by omega⟩⟩
    rw [List.drop_of_length_le (by omega)]
    rfl

/-! ## The whole message -/

theorem pairwise_of_sortedFrom (h : SortedFrom prev opts) :
    (∀ o ∈ opts, prev ≤ o.number) ∧ opts.Pairwise (fun a b => a.number ≤ b.number) := by
  induction opts generalizing prev with
  | nil => exact ⟨nofun, List.Pairwise.nil⟩
  | cons o rest ih =>
    obtain ⟨hle, hrest⟩ := h
    obtain ⟨hall, hpair⟩ := ih hrest
    refine ⟨fun o' ho' => ?_, List.pairwise_cons.mpr ⟨hall, hpair⟩⟩
    rcases List.mem_cons.mp ho' with rfl | hmem
    · exact hle
    · exact UInt16.le_trans hle (hall o' hmem)

theorem sortByNumber_of_sortedFrom (h : SortedFrom prev opts) : sortByNumber opts = opts := by
  unfold sortByNumber
  apply List.mergeSort_of_pairwise
  exact (pairwise_of_sortedFrom h).2.imp fun hab => decide_eq_true hab

def CoapMessage.head (m : CoapMessage) : List UInt8 :=
  [(coapVersion <<< 6) ||| (m.msgType.toBits <<< 4) ||| m.token.length.toUInt8, m.code.toByte]
    ++ u16ToBe m.messageId ++ m.token

variable {m : CoapMessage}

theorem CoapMessage.head_length (m : CoapMessage) : m.head.length = 4 + m.token.length := by
  rw [CoapMessage.head, List.length_append, List.length_append]
  rfl

theorem payloadFrom_yields (hpos : pos ≤ data.length) :
    Yields (· = data.drop pos) (payloadFrom data pos) := by
  unfold payloadFrom
  split
  · rw [slice_end hpos]
    exact rfl
  · exact (List.drop_of_length_le (by omega)).symm

theorem parse_yields (data : List UInt8) :
    Yields (fun m => ∃ b0 b1 b2 b3 stop, m.head = b0 :: b1 :: b2 :: b3 :: m.token ∧
      m.token.length = (b0 &&& 0x0F).toNat ∧ m.token.length ≤ 8 ∧ StandsAt data 0 m.head ∧
      parseOptions data m.head.length 0 [] = .ok (m.options, stop) ∧
      stop ≤ data.length ∧ m.payload = data.drop stop) (CoapMessage.parse data) := by
  refine yields_guard fun hfour => (yields_idx (by omega)).bind fun b0 h0 => ?_
  refine yields_guard fun hver => ?_
  have hbits : Yields (fun _ => True) (CoapMessageType.fromBits ((b0 >>> 4) &&& 0x03)) := by
    unfold CoapMessageType.fromBits
    split_ifs <;> trivial
  refine hbits.called.bind fun ty hty => yields_guard fun htkl => ?_
  refine (yields_idx (by omega)).bind fun b1 h1 => (yields_idx (by omega)).bind fun b2 h2 => ?_
  refine (yields_idx (by omega)).bind fun b3 h3 => yields_guard fun htoken => ?_
  refine (yields_slice (by omega) (by omega)).bind fun token htok => ?_
  have hlen : token.length = (b0 &&& 0x0F).toNat := by omega
  have htkl8 : token.length.toUInt8 = b0 &&& 0x0F := by
    rw [hlen]
    exact UInt8.ofNat_toNat
  refine (parseOptions_yields (by omega) []).called.bind fun ⟨options, stop⟩ hopts => ?_
  have hstop : stop ≤ data.length := by
    obtain ⟨⟨_, -, -, -, ⟨-, hend⟩ | ⟨hend, -⟩⟩, -⟩ := hopts
    · exact Nat.le_of_eq hend
    · exact hend
  refine (payloadFrom_yields hstop).bind fun payload hpayload => ?_
  have hhead : CoapMessage.head ⟨(b0 >>> 6) &&& 0x03, ty, .fromByte b1, u16FromBe b2 b3, token,
      options, payload⟩ = b0 :: b1 :: b2 :: b3 :: token := by
    rw [CoapMessage.head]
    dsimp only
    rw [htkl8, headerByte_sound b0 ty (not_not.mp hver) hty.2, toByte_fromByte, u16ToBe_fromBe]
    rfl
  have hat : StandsAt data 0 (b0 :: b1 :: b2 :: b3 :: token) := by
    rw [htok.2] at h3
    rw [h1, h2, h3] at h0
    exact standsAt_of_drop (Nat.zero_le _) h0
  have hshort : token.length ≤ 8 := by omega
  refine ⟨b0, b1, b2, b3, stop, hhead, hlen, hshort, hhead ▸ hat, ?_, hstop, hpayload⟩
  rw [CoapMessage.head_length]
  dsimp only
  rw [hlen]
  exact hopts.2

theorem parse_sound (h : CoapMessage.parse data = .ok m) :
    m.token.length ≤ 8 ∧ SortedFrom 0 m.options ∧ (∀ o ∈ m.options, o.value.length < 65536) ∧
      (data = m.head ++ encodeOptions 0 m.options ∧ m.payload = [] ∨
        data = m.head ++ encodeOptions 0 m.options ++ payloadMarker :: m.payload) := by
  obtain ⟨_, _, _, _, stop, -, -, htkl, hat, hopts, -, hpayload⟩ := (parse_yields data).of_ok h
  rw [StandsAt, Nat.zero_add, List.drop_zero] at hat
  obtain ⟨new, hnew, hsorted, hvals, hend⟩ := (parseOptions_yields hat.1 []).of_ok hopts
  obtain rfl : m.options = new := hnew
  dsimp only at hend
  refine ⟨htkl, hsorted, hvals, ?_⟩
  rcases hend with ⟨hrest, hstop⟩ | ⟨hstop, hrest⟩
  · rw [hrest] at hat
    rw [hpayload, hstop, List.drop_length]
    exact .inl ⟨hat.2, rfl⟩
  · rw [hrest, ← hpayload] at hat
    rw [List.append_assoc]
    exact .inr hat.2

theorem encode_of_parsed (h : CoapMessage.parse data = .ok m) :
    m.encode = m.head ++ encodeOptions 0 m.options ++ payloadPart m.payload := by
  obtain ⟨htoken, hsorted, -, -⟩ := parse_sound h
  rw [encode_eq m htoken, sortByNumber_of_sortedFrom hsorted, CoapMessage.head, u16ToBe]
  simp

/-- The datagram ends with a payload marker: a four-byte header, the token it announces, options in
    order, and the marker as the last byte. -/
def EndsInMarker (data : List UInt8) : Prop :=
  ∃ b0 b1 b2 b3 token options, token.length = (b0 &&& 0x0F).toNat ∧ SortedFrom 0 options ∧
    (∀ o ∈ options, o.value.length < 65536) ∧
    data = b0 :: b1 :: b2 :: b3 :: (token ++ (encodeOptions 0 options ++ [payloadMarker]))

theorem parse_endsInMarker (hend : EndsInMarker data) (h : CoapMessage.parse data = .ok m) :
    m.payload = [] ∧ data.length = m.head.length + (encodeOptions 0 m.options).length + 1 := by
  obtain ⟨c0, c1, c2, c3, token, options, hctok, hsorted, hvals, hcdata⟩ := hend
  obtain ⟨b0, b1, b2, b3, stop, hhead, htlen, -, ⟨-, hdata⟩, hopts, -, hpayload⟩ :=
    (parse_yields data).of_ok h
  have hb0 : c0 = b0 := by
    rw [List.drop_zero, hcdata, hhead] at hdata
    exact (List.cons.inj hdata).1
  have htok : token.length = m.token.length := by rw [hctok, htlen, hb0]
  have h4 : data.drop 4 = token ++ (encodeOptions 0 options ++ [payloadMarker]) := by
    rw [hcdata]
    rfl
  have hdrop := drop_add_of_drop h4
  have htotal := length_of_drop (by rw [hcdata]; simp) h4
  rw [htok] at hdrop htotal
  have hread := parseOptions_encodeOptions data [payloadMarker] options [] 0 (4 + m.token.length)
    data.length (by omega) hsorted hvals hdrop (.inr ⟨[], rfl, rfl⟩)
  rw [CoapMessage.head_length, hread, List.nil_append] at hopts
  obtain ⟨hoptions, hstop⟩ := Prod.mk.inj (ok.inj hopts)
  constructor
  · rw [hpayload, ← hstop, List.drop_length]
  · rw [htotal, CoapMessage.head_length, ← hoptions, List.length_append, List.length_singleton]
    omega

/-- Encoding a parsed message gives the datagram back unless the datagram ends right after a payload
    marker. -/
theorem encode_parse_iff (data : List UInt8) (m : CoapMessage)
    (h : CoapMessage.parse data = .ok m) : m.encode = data ↔ ¬ EndsInMarker data := by
  obtain ⟨-, hsorted, hvals, hdata⟩ := parse_sound h
  rw [encode_of_parsed h]
  constructor
  · intro henc hend
    obtain ⟨hempty, hlen⟩ := parse_endsInMarker hend h
    rw [hempty, payloadPart] at henc
    rw [← henc] at hlen
    simp at hlen
  · intro hend
    rcases hdata with ⟨hd, hempty⟩ | hd
    · rw [hd, hempty, payloadPart]
      simp
    · by_cases hempty : m.payload = []
      · obtain ⟨b0, b1, b2, b3, _, hhead, htlen, -⟩ := (parse_yields data).of_ok h
        refine absurd ⟨b0, b1, b2, b3, m.token, m.options, htlen, hsorted, hvals, ?_⟩ hend
        rw [hd, hempty, hhead]
        simp
      · rw [hd, payloadPart, if_neg (by simpa using hempty)]

/-- Parsing never reads out of range and never overflows. In a message that it accepts the token
    has at most 8 bytes, the numbers of the options do not decrease and fit 16 bits, and header,
    token, options and payload make up the whole datagram. -/
theorem parse_total (data : List UInt8) :
    CoapMessage.parse data ≠ .panic ∧ ∀ m, CoapMessage.parse data = .ok m →
      m.token.length ≤ 8 ∧ m.options.Pairwise (fun a b => a.number ≤ b.number) ∧
        (∀ o ∈ m.options, o.number.toNat ≤ 65535) ∧
        (data = m.head ++ encodeOptions 0 m.options ∧ m.payload = [] ∨
          data = m.head ++ encodeOptions 0 m.options ++ payloadMarker :: m.payload) := by
  refine ⟨(parse_yields data).ne_panic, fun m h => ?_⟩
  obtain ⟨htoken, hsorted, -, hdata⟩ := parse_sound h
  exact ⟨htoken, (pairwise_of_sortedFrom hsorted).2, fun o _ => Nat.le_of_lt_succ o.number.toNat_lt,
    hdata⟩

/-! ## Two datagrams -/

def bareMarker : List UInt8 := [0x40, 0x01, 0x00, 0x07, 0xFF]

def bareGet : CoapMessage where
  version := 1
  msgType := .confirmable
  code := ⟨0, 1⟩
  messageId := 7
  token := []
  options := []
  payload := []

/-- The parser accepts a payload marker that no payload follows, and the encoder drops it. -/
theorem parse_bareMarker :
    CoapMessage.parse bareMarker = .ok bareGet ∧ bareGet.encode ≠ bareMarker := by
  decide +kernel

theorem parse_total_bareMarker :
    CoapMessage.parse bareMarker ≠ .panic ∧ bareGet.token.length ≤ 8 ∧
      bareGet.options.Pairwise (fun a b => a.number ≤ b.number) ∧
      (∀ o ∈ bareGet.options, o.number.toNat ≤ 65535) ∧
      (bareMarker = bareGet.head ++ encodeOptions 0 bareGet.options ∧ bareGet.payload = [] ∨
        bareMarker = bareGet.head ++ encodeOptions 0 bareGet.options ++
          payloadMarker :: bareGet.payload) :=
  ⟨(parse_total bareMarker).1, (parse_total bareMarker).2 bareGet (by decide +kernel)⟩

/-- The same request with a path and a payload is spelled in one way only. -/
theorem encode_parse_iff_post :
    let data := [0x41, 0x02, 0x00, 0x07, 0xAA, 0xB3, 0x73, 0x65, 0x6E, 0xFF, 0x30]
    let m : CoapMessage := ⟨1, .confirmable, ⟨0, 2⟩, 7, [0xAA], [⟨11, [0x73, 0x65, 0x6E]⟩], [0x30]⟩
    m.encode = data ↔ ¬ EndsInMarker data :=
  encode_parse_iff _ _ (by decide +kernel)

end Kipuka.Coap
