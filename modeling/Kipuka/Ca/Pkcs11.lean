/-
  The key label of an HSM-backed CA: `parse_pkcs11_object_label` in `src/ca/issue.rs`.
-/
import Kipuka.Auth.NameMatch

namespace Kipuka.Ca.Pkcs11

open Generic
open Auth (splitOnce)

/-! ## The parser -/

def hexDigit (b : UInt8) : Option UInt8 :=
  if 0x30 ≤ b ∧ b ≤ 0x39 then some (b - 0x30)
  else if 0x61 ≤ b ∧ b ≤ 0x66 then some (b - 0x61 + 10)
  else if 0x41 ≤ b ∧ b ≤ 0x46 then some (b - 0x41 + 10)
  else none

def percentLoop (i : Nat) : List UInt8 → Except String (List UInt8)
  | [] => .ok []
  | [b] => .ok [b]
  | [b, c] => .ok [b, c]
  | b :: c :: d :: rest =>
    if b = 0x25 then
      match hexDigit c with
      | none => .error s!"invalid percent-encoding at position {i}"
      | some hi =>
        match hexDigit d with
        | none => .error s!"invalid percent-encoding at position {i + 1}"
        | some lo => ((hi <<< 4 ||| lo) :: ·) <$> percentLoop (i + 3) rest
    else (b :: ·) <$> percentLoop (i + 1) (c :: d :: rest)

/-- `pkcs11_percent_decode`; `utf8Error` is the text of the error of `String::from_utf8`. -/
def pkcs11PercentDecode (utf8Error : List UInt8 → String) (s : List Char) : Except String String :=
  match percentLoop 0 (asBytes (String.ofList s)) with
  | .error e => .error e
  | .ok result =>
    match fromUtf8 result with
    | none => .error s!"invalid UTF-8 after percent-decoding: {utf8Error result}"
    | some label => .ok label

/-- One pass of the loop: the value, when the part is the attribute `object`. -/
def objectValue (part : List Char) : Option (List Char) :=
  match splitOnce '=' part with
  | some (key, value) => if key = "object".toList then some value else none
  | none => none

def scheme : List Char := "pkcs11:".toList

def parsePkcs11ObjectLabel (utf8Error : List UInt8 → String) (uri : String) :
    Except String String :=
  if scheme <+: uri.toList then
    let path := uri.toList.drop scheme.length
    match (path.splitOn ';').findSome? objectValue with
    | some value => pkcs11PercentDecode utf8Error value
    | none => .error s!"pkcs11 URI missing 'object' attribute: {uri}"
  else .error s!"not a pkcs11: URI: {uri}"

/-! ## URIs -/

/-- An attribute of the path. The escapes of the value may be malformed. -/
structure Attribute where
  name : List Char
  value : List Char
  name_plain : '=' ∉ name ∧ ';' ∉ name ∧ '?' ∉ name
  value_plain : ';' ∉ value ∧ '?' ∉ value

def Attribute.text (a : Attribute) : List Char := a.name ++ '=' :: a.value

structure Pkcs11Uri where
  attributes : List Attribute
  query : Option (List Char)
  query_plain : ∀ q ∈ query, ';' ∉ q

def Pkcs11Uri.queryText (u : Pkcs11Uri) : List Char := u.query.elim [] ('?' :: ·)

def Pkcs11Uri.render (u : Pkcs11Uri) : String :=
  String.ofList (scheme ++ ([';'].intercalate (u.attributes.map Attribute.text) ++ u.queryText))

/-- The bytes a value stands for; `none` for a malformed or truncated escape. -/
def percentDecode : List UInt8 → Option (List UInt8)
  | [] => some []
  | b :: rest =>
    if b = 0x25 then
      match rest with
      | c :: d :: rest => do
        let hi ← hexDigit c
        let lo ← hexDigit d
        return (hi <<< 4 ||| lo) :: (← percentDecode rest)
      | _ => none
    else return b :: (← percentDecode rest)

def Attribute.bytes (a : Attribute) : List UInt8 := asBytes (String.ofList a.value)

def Attribute.isObject (a : Attribute) : Bool := a.name = "object".toList

def Pkcs11Uri.label (u : Pkcs11Uri) : Option String := do
  let a ← u.attributes.find? Attribute.isObject
  fromUtf8 (← percentDecode a.bytes)

/-- The bytes end within an escape, and the escapes before it are well formed; the second list has
    these decoded and the cut one as it is. -/
inductive CutShort : List UInt8 → List UInt8 → Prop where
  | noDigit : CutShort [0x25] [0x25]
  | oneDigit (c : UInt8) : CutShort [0x25, c] [0x25, c]
  | plain {b : UInt8} {rest decoded : List UInt8} (hb : b ≠ 0x25) (h : CutShort rest decoded) :
      CutShort (b :: rest) (b :: decoded)
  | escape {c d hi lo : UInt8} {rest decoded : List UInt8} (hc : hexDigit c = some hi)
      (hd : hexDigit d = some lo) (h : CutShort rest decoded) :
      CutShort (0x25 :: c :: d :: rest) ((hi <<< 4 ||| lo) :: decoded)

/-- The bytes are well formed, or would be but for the escape that ends them. -/
def Decodes (bytes decoded : List UInt8) : Prop :=
  percentDecode bytes = some decoded ∨ CutShort bytes decoded

def IsText (bytes : List UInt8) : Prop := ∃ s, fromUtf8 bytes = some s

/-- What stands behind the value of the first attribute `object`, up to the next semicolon: the
    query, if it is the last attribute. -/
def Pkcs11Uri.behind (u : Pkcs11Uri) : List Char :=
  if u.attributes.dropLast.any Attribute.isObject then [] else u.queryText

/-- The first attribute `object` is misread. Without a query behind it, its value ends within an
    escape and is a text all the same; with one, it has a value, or with the query it is a text. -/
def Pkcs11Uri.Misread (u : Pkcs11Uri) : Prop :=
  ∃ a, u.attributes.find? Attribute.isObject = some a ∧
    if u.behind = [] then ∃ decoded, CutShort a.bytes decoded ∧ IsText decoded
    else
      (∃ decoded, percentDecode a.bytes = some decoded ∧ IsText decoded) ∨
        ∃ decoded, Decodes (a.bytes ++ asBytes (String.ofList u.behind)) decoded ∧ IsText decoded

/-! ## Escapes -/

section Escapes

variable {bytes decoded : List UInt8}

theorem percentDecode_escape {c d hi lo : UInt8} (hc : hexDigit c = some hi)
    (hd : hexDigit d = some lo) (rest : List UInt8) :
    percentDecode (0x25 :: c :: d :: rest) =
      (percentDecode rest).map ((hi <<< 4 ||| lo) :: ·) := by
  simp only [percentDecode, if_true, hc, hd]
  cases percentDecode rest <;> rfl

theorem percentDecode_plain {b : UInt8} (hb : b ≠ 0x25) (rest : List UInt8) :
    percentDecode (b :: rest) = (percentDecode rest).map (b :: ·) := by
  conv_lhs => unfold percentDecode
  rw [if_neg hb]
  cases percentDecode rest <;> rfl

theorem percentDecode_malformed {c d : UInt8} (h : hexDigit c = none ∨ hexDigit d = none)
    (rest : List UInt8) : percentDecode (0x25 :: c :: d :: rest) = none := by
  unfold percentDecode
  rw [if_pos rfl]
  obtain hc | hd := h
  · simp [hc]
  · cases hc : hexDigit c <;> simp [hd]

theorem cutShort_plain_iff {b : UInt8} (hb : b ≠ 0x25) {rest : List UInt8} :
    CutShort (b :: rest) decoded ↔ ∃ tail, CutShort rest tail ∧ decoded = b :: tail := by
  constructor
  · intro h
    cases h with
    | noDigit | oneDigit | escape => exact absurd rfl hb
    | plain _ h => exact ⟨_, h, rfl⟩
  · rintro ⟨tail, h, rfl⟩
    exact .plain hb h

theorem cutShort_escape_iff {c d hi lo : UInt8} (hc : hexDigit c = some hi)
    (hd : hexDigit d = some lo) {rest : List UInt8} :
    CutShort (0x25 :: c :: d :: rest) decoded ↔
      ∃ tail, CutShort rest tail ∧ decoded = (hi <<< 4 ||| lo) :: tail := by
  constructor
  · intro h
    cases h with
    | plain hb _ => exact absurd rfl hb
    | escape hc' hd' h =>
      obtain rfl := Option.some.inj (hc.symm.trans hc')
      obtain rfl := Option.some.inj (hd.symm.trans hd')
      exact ⟨_, h, rfl⟩
  · rintro ⟨tail, h, rfl⟩
    exact .escape hc hd h

theorem cutShort_two_iff {c : UInt8} : CutShort [0x25, c] decoded ↔ decoded = [0x25, c] := by
  constructor
  · intro h
    cases h with
    | oneDigit => rfl
    | plain hb _ => exact absurd rfl hb
  · rintro rfl
    exact .oneDigit c

theorem cutShort_one_iff {b : UInt8} : CutShort [b] decoded ↔ b = 0x25 ∧ decoded = [0x25] := by
  constructor
  · intro h
    cases h with
    | noDigit => exact ⟨rfl, rfl⟩
    | plain _ h => exact nomatch h
  · rintro ⟨rfl, rfl⟩
    exact .noDigit

theorem not_cutShort_malformed {c d : UInt8} (h : hexDigit c = none ∨ hexDigit d = none)
    {rest : List UInt8} : ¬ CutShort (0x25 :: c :: d :: rest) decoded := by
  intro hcut
  cases hcut with
  | plain hb _ => exact absurd rfl hb
  | escape hc hd _ =>
    obtain h | h := h
    · exact nomatch h.symm.trans hc
    · exact nomatch h.symm.trans hd

theorem CutShort.percentDecode (h : CutShort bytes decoded) : percentDecode bytes = none := by
  induction h with
  | noDigit => rfl
  | oneDigit c => rfl
  | plain hb _ ih => rw [percentDecode_plain hb, ih, Option.map_none]
  | escape hc hd _ ih => rw [percentDecode_escape hc hd, ih, Option.map_none]

theorem decodes_cons {b : UInt8} {whole rest : List UInt8}
    (hdecode : percentDecode whole = (percentDecode rest).map (b :: ·))
    (hcut : CutShort whole decoded ↔ ∃ tail, CutShort rest tail ∧ decoded = b :: tail) :
    Decodes whole decoded ↔ ∃ tail, Decodes rest tail ∧ b :: tail = decoded := by
  unfold Decodes
  rw [hdecode, hcut, Option.map_eq_some_iff]
  constructor
  · rintro (⟨tail, h, rfl⟩ | ⟨tail, h, rfl⟩)
    · exact ⟨tail, .inl h, rfl⟩
    · exact ⟨tail, .inr h, rfl⟩
  · rintro ⟨tail, h | h, rfl⟩
    · exact .inl ⟨tail, h, rfl⟩
    · exact .inr ⟨tail, h, rfl⟩

theorem decodes_plain {b : UInt8} (hb : b ≠ 0x25) {rest : List UInt8} :
    Decodes (b :: rest) decoded ↔ ∃ tail, Decodes rest tail ∧ b :: tail = decoded :=
  decodes_cons (percentDecode_plain hb rest) (cutShort_plain_iff hb)

theorem decodes_escape {c d hi lo : UInt8} (hc : hexDigit c = some hi) (hd : hexDigit d = some lo)
    {rest : List UInt8} : Decodes (0x25 :: c :: d :: rest) decoded ↔
      ∃ tail, Decodes rest tail ∧ (hi <<< 4 ||| lo) :: tail = decoded :=
  decodes_cons (percentDecode_escape hc hd rest) (cutShort_escape_iff hc hd)

theorem not_decodes_malformed {c d : UInt8} (h : hexDigit c = none ∨ hexDigit d = none)
    (rest decoded : List UInt8) : ¬ Decodes (0x25 :: c :: d :: rest) decoded := by
  rintro (hdecode | hcut)
  · exact nomatch hdecode.symm.trans (percentDecode_malformed h rest)
  · exact not_cutShort_malformed h hcut

theorem decodes_nil : Decodes [] decoded ↔ [] = decoded := by
  have hnil : ¬ CutShort [] decoded := fun h => nomatch h
  simp [Decodes, percentDecode, hnil]

theorem decodes_one {b : UInt8} : Decodes [b] decoded ↔ [b] = decoded := by
  by_cases hb : b = 0x25 <;> simp [Decodes, percentDecode, cutShort_one_iff, hb, eq_comm]

theorem decodes_two {b c : UInt8} : Decodes [b, c] decoded ↔ [b, c] = decoded := by
  by_cases hb : b = 0x25
  · subst hb
    simp [Decodes, percentDecode, cutShort_two_iff, eq_comm]
  · simp [decodes_plain hb, decodes_one]

theorem map_eq_ok_iff {b : UInt8} {x : Except String (List UInt8)} :
    (b :: ·) <$> x = .ok decoded ↔ ∃ tail, x = .ok tail ∧ b :: tail = decoded := by
  cases x <;> simp [Functor.map, Except.map]

/-- The loop of the source decodes what is well formed, and keeps an escape that is cut short. -/
theorem percentLoop_eq_ok {i : Nat} : percentLoop i bytes = .ok decoded ↔ Decodes bytes decoded := by
  induction i, bytes using percentLoop.induct generalizing decoded with
  | case1 i => rw [percentLoop, decodes_nil, Except.ok.injEq]
  | case2 i b => rw [percentLoop, decodes_one, Except.ok.injEq]
  | case3 i b c => rw [percentLoop, decodes_two, Except.ok.injEq]
  | case4 i c d rest hc => simp [percentLoop, hc, not_decodes_malformed (.inl hc)]
  | case5 i c d rest hi hc hd => simp [percentLoop, hc, hd, not_decodes_malformed (.inr hd)]
  | case6 i c d rest hi hc lo hd ih =>
    simp only [percentLoop, hc, hd, if_true]
    rw [map_eq_ok_iff, decodes_escape hc hd]
    exact exists_congr fun tail => and_congr_left fun _ => ih
  | case7 i b c d rest hb ih =>
    rw [percentLoop, if_neg hb, map_eq_ok_iff, decodes_plain hb]
    exact exists_congr fun tail => and_congr_left fun _ => ih

/-- Behind well-formed bytes, the others are decoded as if they stood alone. -/
theorem Decodes.of_append {more all : List UInt8} (h : percentDecode bytes = some decoded)
    (hall : Decodes (bytes ++ more) all) : ∃ tail, Decodes more tail ∧ decoded ++ tail = all := by
  induction bytes using percentDecode.induct generalizing decoded all with
  | case1 =>
    rw [← Option.some.inj h]
    exact ⟨all, hall, rfl⟩
  | case2 c d rest ih =>
    cases hc : hexDigit c with
    | none => exact nomatch h.symm.trans (percentDecode_malformed (.inl hc) rest)
    | some hi =>
      cases hd : hexDigit d with
      | none => exact nomatch h.symm.trans (percentDecode_malformed (.inr hd) rest)
      | some lo =>
        rw [percentDecode_escape hc hd, Option.map_eq_some_iff] at h
        obtain ⟨decoded, h, rfl⟩ := h
        obtain ⟨rest', hrest, rfl⟩ := (decodes_escape hc hd).mp hall
        obtain ⟨tail, htail, rfl⟩ := ih h hrest
        exact ⟨tail, htail, rfl⟩
  | case3 rest hshort =>
    rcases rest with _ | ⟨c, _ | ⟨d, rest⟩⟩
    · exact nomatch h
    · exact nomatch h
    · exact absurd rfl (hshort c d rest)
  | case4 b rest hb ih =>
    rw [percentDecode_plain hb, Option.map_eq_some_iff] at h
    obtain ⟨decoded, h, rfl⟩ := h
    obtain ⟨rest', hrest, rfl⟩ := (decodes_plain hb).mp hall
    obtain ⟨tail, htail, rfl⟩ := ih h hrest
    exact ⟨tail, htail, rfl⟩

theorem pkcs11PercentDecode_eq (utf8Error : List UInt8 → String) {value : List Char} {s : String} :
    (pkcs11PercentDecode utf8Error value).toOption = some s ↔
      ∃ decoded, Decodes (asBytes (String.ofList value)) decoded ∧ fromUtf8 decoded = some s := by
  simp only [← percentLoop_eq_ok (i := 0), pkcs11PercentDecode]
  cases percentLoop 0 (asBytes (String.ofList value)) with
  | error e => simp [Except.toOption]
  | ok result =>
    cases htext : fromUtf8 result <;> simp [Except.toOption, htext]

end Escapes

/-! ## The parts between the semicolons -/

def segments (suffix : List Char) : List Attribute → List (List Char)
  | [] => [suffix]
  | [a] => [a.text ++ suffix]
  | a :: b :: rest => a.text :: segments suffix (b :: rest)

section

variable (suffix : List Char) (attrs : List Attribute)

theorem segments_ne_nil : segments suffix attrs ≠ [] := by
  cases attrs using segments.fun_cases <;> simp [segments]

theorem intercalate_segments : [';'].intercalate (segments suffix attrs) =
      [';'].intercalate (attrs.map Attribute.text) ++ suffix := by
  induction attrs using segments.induct with
  | case1 | case2 => simp [segments]
  | case3 a b rest ih =>
    obtain ⟨s, ss, hs⟩ := List.exists_cons_of_ne_nil (segments_ne_nil suffix (b :: rest))
    rw [List.map_cons] at ih
    rw [hs] at ih
    rw [segments, hs, List.intercalate_cons_cons, ih, List.map_cons, List.map_cons,
      List.intercalate_cons_cons]
    simp only [List.append_assoc]

end

theorem semicolon_not_mem_segments {suffix : List Char} (h : ';' ∉ suffix) (attrs : List Attribute) :
    ∀ s ∈ segments suffix attrs, ';' ∉ s := by
  have htext : ∀ a : Attribute, ';' ∉ a.text := by
    intro a
    simp [Attribute.text, a.name_plain.2.1, a.value_plain.1]
  induction attrs using segments.induct with
  | case1 => simpa [segments] using h
  | case2 a => simp [segments, h, htext]
  | case3 a b rest ih => simpa [segments, htext] using ih

theorem splitOnce_text (a : Attribute) (suffix : List Char) :
    splitOnce '=' (a.text ++ suffix) = some (a.name, a.value ++ suffix) := by
  have hname : ∀ c ∈ a.name, decide (c ≠ '=') = true := by
    intro c hc
    exact decide_eq_true fun h => a.name_plain.1 (h ▸ hc)
  have htext : a.text ++ suffix = a.name ++ '=' :: (a.value ++ suffix) := by
    rw [Attribute.text, List.append_assoc, List.cons_append]
  rw [htext, splitOnce, if_pos (by simp), List.takeWhile_append_of_pos hname,
    List.dropWhile_append_of_pos hname]
  simp

theorem objectValue_text (a : Attribute) (suffix : List Char) :
    objectValue (a.text ++ suffix) = if a.isObject then some (a.value ++ suffix) else none := by
  rw [objectValue, splitOnce_text]
  simp [Attribute.isObject]

theorem objectValue_query (q : List Char) : objectValue ('?' :: q) = none := by
  unfold objectValue splitOnce
  split
  · next key value heq =>
    split at heq
    · cases heq
      exact if_neg (by simp)
    · cases heq
  · rfl

/-- The source finds the attribute `object`, and the suffix behind it if it is the last one. -/
theorem findSome_segments {suffix : List Char} (attrs : List Attribute)
    (hsuffix : suffix = [] ∨ ∃ q, suffix = '?' :: q) :
    (segments suffix attrs).findSome? objectValue = (attrs.find? Attribute.isObject).map fun a =>
      a.value ++ if attrs.dropLast.any Attribute.isObject then [] else suffix := by
  induction attrs using segments.induct with
  | case1 =>
    rcases hsuffix with rfl | ⟨q, rfl⟩
    · rfl
    · rw [segments, List.findSome?_cons, objectValue_query]
      rfl
  | case2 a =>
    rw [segments, List.findSome?_cons, objectValue_text, List.find?_cons]
    cases hobject : a.isObject <;> rfl
  | case3 a b rest ih =>
    have htext := objectValue_text a []
    simp only [List.append_nil] at htext
    rw [segments, List.findSome?_cons, htext, List.find?_cons, List.dropLast_cons_cons,
      List.any_cons]
    cases hobject : a.isObject with
    | false =>
      rw [Bool.false_or]
      exact ih
    | true => simp

/-! ## The label -/

theorem splitOn_render (u : Pkcs11Uri) :
    (u.render.toList.drop scheme.length).splitOn ';' = segments u.queryText u.attributes := by
  have hquery : ';' ∉ u.queryText := by
    unfold Pkcs11Uri.queryText
    cases hq : u.query with
    | none => simp
    | some q => simp [u.query_plain q hq]
  rw [Pkcs11Uri.render, String.toList_ofList, List.drop_left, ← intercalate_segments]
  exact List.splitOn_intercalate ';' (semicolon_not_mem_segments hquery _) (segments_ne_nil _ _)

theorem behind_cases (u : Pkcs11Uri) : u.behind = [] ∨ ∃ q, u.behind = '?' :: q := by
  unfold Pkcs11Uri.behind Pkcs11Uri.queryText
  split
  · exact .inl rfl
  · cases u.query with
    | none => exact .inl rfl
    | some q => exact .inr ⟨q, rfl⟩

theorem parse_toOption (utf8Error : List UInt8 → String) (u : Pkcs11Uri) :
    (parsePkcs11ObjectLabel utf8Error u.render).toOption =
      (u.attributes.find? Attribute.isObject).bind fun a =>
        (pkcs11PercentDecode utf8Error (a.value ++ u.behind)).toOption := by
  have hsuffix : u.queryText = [] ∨ ∃ q, u.queryText = '?' :: q := by
    unfold Pkcs11Uri.queryText
    cases u.query with
    | none => exact .inl rfl
    | some q => exact .inr ⟨q, rfl⟩
  have hscheme : scheme <+: u.render.toList := by
    rw [Pkcs11Uri.render, String.toList_ofList]
    exact List.prefix_append _ _
  rw [parsePkcs11ObjectLabel, if_pos hscheme]
  simp only [splitOn_render, findSome_segments _ hsuffix, Pkcs11Uri.behind]
  cases u.attributes.find? Attribute.isObject <;> rfl

section Label

variable {utf8Error : List UInt8 → String} {a : Attribute}

/-- Without a query behind it, the value is read as it should be if it does not end within an
    escape, or is not a text anyway. -/
theorem value_iff : (pkcs11PercentDecode utf8Error a.value).toOption =
      (percentDecode a.bytes).bind fromUtf8 ↔
    ¬ ∃ decoded, CutShort a.bytes decoded ∧ IsText decoded := by
  constructor
  · rintro h ⟨decoded, hcut, s, hs⟩
    have hsome := (pkcs11PercentDecode_eq utf8Error).mpr ⟨decoded, .inr hcut, hs⟩
    rw [h, hcut.percentDecode] at hsome
    exact nomatch hsome
  · intro h
    refine Option.ext fun s => ?_
    rw [pkcs11PercentDecode_eq, Option.bind_eq_some_iff]
    refine exists_congr fun decoded => and_congr_left fun hs => ?_
    exact or_iff_left fun hcut => h ⟨decoded, hcut, s, hs⟩

/-- With a query behind it, the value is read as it should be only if there is nothing to read. -/
theorem value_query_iff (q : List Char) :
    (pkcs11PercentDecode utf8Error (a.value ++ '?' :: q)).toOption =
        (percentDecode a.bytes).bind fromUtf8 ↔
      ¬ ((∃ decoded, percentDecode a.bytes = some decoded ∧ IsText decoded) ∨
        ∃ decoded, Decodes (a.bytes ++ asBytes (String.ofList ('?' :: q))) decoded ∧
          IsText decoded) := by
  have hbytes : asBytes (String.ofList (a.value ++ '?' :: q)) =
      a.bytes ++ asBytes (String.ofList ('?' :: q)) := by
    rw [Attribute.bytes, asBytes_ofList, asBytes_ofList, asBytes_ofList, List.flatMap_append]
  have hmark : asBytes (String.ofList ('?' :: q)) = 0x3F :: asBytes (String.ofList q) := by
    rw [asBytes_ofList, asBytes_ofList, List.flatMap_cons]
    rfl
  constructor
  · intro h
    have hnone : (percentDecode a.bytes).bind fromUtf8 = none := by
      refine Option.eq_none_iff_forall_ne_some.mpr fun s hs => ?_
      obtain ⟨decoded, hdecoded, htext⟩ := Option.bind_eq_some_iff.mp hs
      obtain ⟨all, hall, htext'⟩ := (pkcs11PercentDecode_eq utf8Error).mp (h.trans hs)
      rw [hbytes] at hall
      obtain ⟨tail, htail, rfl⟩ := hall.of_append hdecoded
      -- the question mark is decoded too, so the label would be longer
      rw [hmark, decodes_plain (by decide)] at htail
      obtain ⟨rest, -, rfl⟩ := htail
      have hsame := congrArg List.length
        ((fromUtf8_eq_some.mp htext).trans (fromUtf8_eq_some.mp htext').symm)
      simp at hsame
    rw [hnone] at h
    rintro (⟨decoded, hdecoded, s, hs⟩ | ⟨decoded, hdecoded, s, hs⟩)
    · exact nomatch hnone.symm.trans (Option.bind_eq_some_iff.mpr ⟨decoded, hdecoded, hs⟩)
    · rw [← hbytes] at hdecoded
      exact nomatch h.symm.trans
        ((pkcs11PercentDecode_eq utf8Error).mpr ⟨decoded, hdecoded, hs⟩)
  · intro h
    refine Option.ext fun s => ?_
    rw [pkcs11PercentDecode_eq, hbytes, Option.bind_eq_some_iff]
    constructor
    · rintro ⟨decoded, hdecoded, hs⟩
      exact absurd (.inr ⟨decoded, hdecoded, s, hs⟩) h
    · rintro ⟨decoded, hdecoded, hs⟩
      exact absurd (.inl ⟨decoded, hdecoded, s, hs⟩) h

end Label

/-- The parser returns the decoded value of the first attribute `object`, and refuses a malformed
    or truncated escape, exactly for the URIs in which this attribute is not misread. -/
theorem parse_render_iff (utf8Error : List UInt8 → String) (u : Pkcs11Uri) :
    (parsePkcs11ObjectLabel utf8Error u.render).toOption = u.label ↔ ¬ u.Misread := by
  rw [parse_toOption, Pkcs11Uri.label, Pkcs11Uri.Misread]
  cases u.attributes.find? Attribute.isObject with
  | none => simp
  | some a =>
    have hone : ∀ P : Attribute → Prop, (∃ b, some a = some b ∧ P b) ↔ P a := by simp
    rw [hone]
    obtain hnone | ⟨q, hq⟩ := behind_cases u
    · rw [if_pos hnone, hnone, Option.bind_some, List.append_nil]
      exact value_iff
    · rw [if_neg (by simp [hq]), hq, Option.bind_some]
      exact value_query_iff q

/-! ## Two URIs -/

def Sample.object (value : List Char) (h : ';' ∉ value ∧ '?' ∉ value) : Attribute :=
  ⟨"object".toList, value, by decide, h⟩

def Sample.queried : Pkcs11Uri :=
  ⟨[Sample.object "key".toList (by decide)], some "pin-value=1234".toList, by decide⟩

def Sample.truncated : Pkcs11Uri := ⟨[Sample.object "key%4".toList (by decide)], none, by decide⟩

theorem query_in_label :
    parsePkcs11ObjectLabel (fun _ => "") Sample.queried.render = .ok "key?pin-value=1234" ∧
      Sample.queried.label = some "key" ∧
      parsePkcs11ObjectLabel (fun _ => "") Sample.truncated.render = .ok "key%4" ∧
      Sample.truncated.label = none := by
  decide +kernel

end Kipuka.Ca.Pkcs11
