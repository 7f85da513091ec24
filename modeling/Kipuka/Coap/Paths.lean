/-
  Which lists of Uri-Path options the router accepts (`CoapMessage::uri_path` and
  `CoapEstRouter::route_with_label` in `crates/kipuka-coap/src/server.rs`).
-/
import Kipuka.Coap.Route
import Kipuka.Generic.Delimited

namespace Kipuka.Coap

open Generic

/-! ## The forms of a path -/

def CoapMessage.pathOptions (m : CoapMessage) : List (List UInt8) :=
  (m.options.filter fun o => o.number = optionUriPath).map CoapOption.value

/-- The segments of an operation, with or without a label, with or without the prefix. A label is a
    segment: not empty, and without a slash. -/
def EstPath (segments : List (List UInt8)) (label : Option String) (operation : EstOperation) :
    Prop :=
  (∀ l, label = some l → l.toList ≠ [] ∧ '/' ∉ l.toList) ∧ ∃ op, operationOf op = some operation ∧
    (segments = (label.toList ++ [op]).map asBytes ∨
      segments = (".well-known" :: "est" :: label.toList ++ [op]).map asBytes)

def behindPrefix : List String → List String
  | ".well-known" :: "est" :: rest => rest
  | segments => segments

/-- Segments that the router takes apart as they are: texts, not empty, without slashes, and after
    one prefix none that starts like another. -/
structure PlainPath (segments : List String) : Prop where
  nonempty : ∀ s ∈ segments, s.toList ≠ []
  noSlash : ∀ s ∈ segments, '/' ∉ s.toList
  once : ∀ s rest, behindPrefix segments = ".well-known" :: s :: rest → ¬ "est".toList <+: s.toList

def joined (segments : List String) : List Char := ['/'].intercalate (segments.map String.toList)

def copies (n : Nat) (pattern : List Char) : List Char := (List.replicate n pattern).flatten

/-- The text names the operation, with or without a label, when slashes at its front and then copies
    of the prefix are left out, first with the slash behind them and then without. -/
def Names (cs : List Char) (label : Option String) (op : String) : Prop :=
  ∃ i n k rest, cs = List.replicate i '/' ++
      (copies n ".well-known/est/".toList ++ (copies k ".well-known/est".toList ++ rest)) ∧
    Words '/' rest ((label.toList ++ [op]).map String.toList)

/-- The segments are not plain, and yet those that are texts, joined with slashes, name an
    operation. -/
def Misread (values : List (List UInt8)) : Prop :=
  (¬ ∃ texts, values = texts.map asBytes ∧ PlainPath texts) ∧
    ∃ label op operation, operationOf op = some operation ∧
      Names (joined (values.filterMap fromUtf8)) label op

/-! ## Joined segments -/

theorem joined_cons {s : String} {segments : List String} (h : segments ≠ []) :
    joined (s :: segments) = s.toList ++ '/' :: joined segments := by
  unfold joined
  rw [List.map_cons, List.intercalate_cons_of_ne_nil (by simpa using h), List.append_assoc]
  rfl

theorem joined_singleton (s : String) : joined [s] = s.toList := by simp [joined]

variable {segments : List String}

theorem front_of_joined (hslash : ∀ s ∈ segments, '/' ∉ s.toList) {w v : List Char}
    (hw : '/' ∉ w) (h : w ++ '/' :: v <+: joined segments) :
    ∃ rest, segments = String.ofList w :: rest ∧ rest ≠ [] ∧ v <+: joined rest := by
  obtain ⟨t, ht⟩ := h
  cases segments with
  | nil => simp [joined] at ht
  | cons s rest =>
    by_cases hrest : rest = []
    · rw [hrest, joined_singleton] at ht
      refine absurd ?_ (hslash s List.mem_cons_self)
      rw [← ht]
      simp
    · rw [joined_cons hrest, List.append_assoc, List.cons_append] at ht
      obtain ⟨hs, hv⟩ := split_at_first ht hw (hslash s List.mem_cons_self)
      refine ⟨rest, ?_, hrest, t, hv⟩
      rw [hs, String.ofList_toList]

variable {w : List Char}

theorem front_of_first (hw : '/' ∉ w) (hne : w ≠ []) (h : w <+: joined segments) :
    ∃ s rest, segments = s :: rest ∧ w <+: s.toList := by
  cases segments with
  | nil => exact absurd (List.prefix_nil.mp h) hne
  | cons s rest =>
    refine ⟨s, rest, rfl, ?_⟩
    by_cases hrest : rest = []
    · rwa [hrest, joined_singleton] at h
    · rw [joined_cons hrest] at h
      rcases List.prefix_or_prefix_of_prefix h (List.prefix_append _ _) with hs | ⟨u, rfl⟩
      · exact hs
      · obtain ⟨t, ht⟩ := h
        rw [List.append_assoc, List.append_cancel_left_eq] at ht
        cases u with
        | nil => rw [List.append_nil]
        | cons c u =>
          obtain rfl := (List.cons.inj ht).1
          exact absurd (by simp) hw

theorem joined_ends (hsegments : segments ≠ []) (hne : ∀ s ∈ segments, s.toList ≠ [])
    (hslash : ∀ s ∈ segments, '/' ∉ s.toList) :
    (∃ c cs, joined segments = c :: cs ∧ c ≠ '/') ∧ ∃ cs c, joined segments = cs ++ [c] ∧ c ≠ '/' := by
  induction segments with
  | nil => exact absurd rfl hsegments
  | cons s rest ih =>
    have hs := hslash s List.mem_cons_self
    obtain ⟨c, cs, hhead⟩ := List.exists_cons_of_ne_nil (hne s List.mem_cons_self)
    have hc : c ≠ '/' := by
      rintro rfl
      exact hs (hhead ▸ List.mem_cons_self)
    by_cases hrest : rest = []
    · subst hrest
      rw [joined_singleton]
      refine ⟨⟨c, cs, hhead, hc⟩, s.toList.dropLast, s.toList.getLast (hne s List.mem_cons_self),
        (List.dropLast_append_getLast _).symm, ?_⟩
      intro hlast
      exact hs (hlast ▸ List.getLast_mem _)
    · obtain ⟨-, cs', c', hlast, hc'⟩ := ih hrest
        (fun t ht => hne t (List.mem_cons_of_mem s ht))
        (fun t ht => hslash t (List.mem_cons_of_mem s ht))
      rw [joined_cons hrest]
      refine ⟨⟨c, cs ++ '/' :: joined rest, by rw [hhead]; rfl, hc⟩,
        s.toList ++ '/' :: cs', c', ?_, hc'⟩
      rw [hlast, List.append_assoc]
      rfl

section

variable (hne : ∀ s ∈ segments, s.toList ≠ []) (hslash : ∀ s ∈ segments, '/' ∉ s.toList)

include hne hslash

theorem trim_joined : ((joined segments).dropWhile fun c => c = '/') = joined segments ∧
      ((joined segments).rdropWhile fun c => c = '/') = joined segments := by
  by_cases hsegments : segments = []
  · subst hsegments
    exact ⟨rfl, rfl⟩
  · obtain ⟨⟨c, cs, hhead, hc⟩, cs', c', hlast, hc'⟩ := joined_ends hsegments hne hslash
    constructor
    · rw [hhead, List.dropWhile_cons_of_neg (by simpa using hc)]
    · rw [hlast, List.rdropWhile_concat_neg _ _ _ (by simpa using hc')]

theorem split_joined :
    (((joined segments).splitOn '/').filter fun s => !s.isEmpty).map String.ofList = segments := by
  by_cases hsegments : segments = []
  · subst hsegments
    rfl
  · unfold joined
    rw [List.splitOn_intercalate '/' (by simpa using hslash) (by simpa using hsegments),
      List.filter_eq_self.mpr (by simpa using hne), List.map_map]
    simp [Function.comp_def]

end

/-! ## The prefix -/

variable {cs : List Char} {pattern : List Char}

theorem trimStartMatches_of_not (h : ¬ pattern <+: cs) (fuel : Nat) :
    trimStartMatches pattern fuel cs = cs := by
  cases fuel with
  | zero => rfl
  | succ fuel =>
    rw [trimStartMatches, if_neg]
    rwa [List.isPrefixOf_iff_prefix]

theorem copies_succ (n : Nat) (pattern : List Char) :
    copies (n + 1) pattern = pattern ++ copies n pattern := rfl

theorem le_length_copies (hne : pattern ≠ []) (n : Nat) : n ≤ (copies n pattern).length := by
  have hpos := List.length_pos_iff.mpr hne
  induction n with
  | zero => exact Nat.zero_le _
  | succ n ih =>
    rw [copies_succ, List.length_append]
    omega

theorem trimStartMatches_copies (hne : pattern ≠ []) (h : ¬ pattern <+: cs) (n : Nat) :
    trimStartMatches pattern (copies n pattern ++ cs).length (copies n pattern ++ cs) = cs := by
  have hlength := le_length_copies hne n
  have htrim : ∀ fuel, n ≤ fuel → trimStartMatches pattern fuel (copies n pattern ++ cs) = cs := by
    clear hlength
    induction n with
    | zero => exact fun fuel _ => trimStartMatches_of_not h fuel
    | succ n ih =>
      intro fuel hfuel
      obtain ⟨fuel, rfl⟩ := Nat.exists_eq_add_one_of_ne_zero (Nat.ne_zero_of_lt hfuel)
      rw [copies_succ, List.append_assoc, trimStartMatches,
        if_pos (List.isPrefixOf_iff_prefix.mpr (List.prefix_append ..)), List.drop_left]
      exact ih fuel (Nat.le_of_succ_le_succ hfuel)
  refine htrim _ ?_
  rw [List.length_append]
  omega

theorem trimStartMatches_once (hne : pattern ≠ []) (h : ¬ pattern <+: cs) :
    trimStartMatches pattern (pattern ++ cs).length (pattern ++ cs) = cs := by
  have hone : copies 1 pattern = pattern := List.append_nil _
  have htrim := trimStartMatches_copies hne h 1
  rwa [hone] at htrim

theorem copies_succ' (n : Nat) (pattern : List Char) :
    copies (n + 1) pattern = copies n pattern ++ pattern := by
  rw [copies, List.replicate_succ', List.flatten_append, List.flatten_singleton]
  rfl

def trimPrefixes (cs : List Char) : List Char :=
  trimStartMatches ".well-known/est".toList
    (trimStartMatches ".well-known/est/".toList cs.length cs).length
    (trimStartMatches ".well-known/est/".toList cs.length cs)

theorem trimStartMatches_front (pattern : List Char) (fuel : Nat) (cs : List Char) :
    ∃ n, cs = copies n pattern ++ trimStartMatches pattern fuel cs := by
  induction fuel generalizing cs with
  | zero => exact ⟨0, rfl⟩
  | succ fuel ih =>
    rw [trimStartMatches]
    split
    · next hfront =>
      obtain ⟨rest, rfl⟩ := List.isPrefixOf_iff_prefix.mp hfront
      obtain ⟨n, hn⟩ := ih rest
      refine ⟨n + 1, ?_⟩
      rw [List.drop_left, copies_succ, List.append_assoc, ← hn]
    · exact ⟨0, rfl⟩

theorem prefix_of_joined (hslash : ∀ s ∈ segments, '/' ∉ s.toList)
    (h : ".well-known/est".toList <+: joined segments) :
    ∃ s rest, segments = ".well-known" :: s :: rest ∧ "est".toList <+: s.toList := by
  have hsplit : ".well-known/est".toList = ".well-known".toList ++ '/' :: "est".toList := by decide
  rw [hsplit] at h
  obtain ⟨rest, rfl, hrest, hest⟩ := front_of_joined hslash (by decide) h
  obtain ⟨s, rest', rfl, hs⟩ := front_of_first (by decide) (by decide) hest
  exact ⟨s, rest', rfl, hs⟩

variable {path : String}

theorem pathSegments_of_trimmed (hpath : path.toList = '/' :: cs)
    (hcs : (cs.dropWhile fun c => c = '/') = cs) (hne : ∀ s ∈ segments, s.toList ≠ [])
    (hslash : ∀ s ∈ segments, '/' ∉ s.toList) (htrim : trimPrefixes cs = joined segments) :
    pathSegments path = segments := by
  have hdrop : (path.toList.dropWhile fun c => c = '/') = cs := by
    rw [hpath, List.dropWhile_cons_of_pos (by simp), hcs]
  obtain ⟨hfront, hback⟩ := trim_joined hne hslash
  unfold trimPrefixes at htrim
  simp only [pathSegments]
  rw [hdrop, htrim, hfront, hback, split_joined hne hslash]

theorem PlainPath.not_prefix (h : PlainPath segments) (hsame : behindPrefix segments = segments) :
    ¬ ".well-known/est".toList <+: joined segments := by
  intro hprefix
  obtain ⟨s, rest, heq, hs⟩ := prefix_of_joined h.noSlash hprefix
  exact h.once s rest (hsame.trans heq) hs

theorem not_longer (h : ¬ ".well-known/est".toList <+: cs) :
    ¬ ".well-known/est/".toList <+: cs := by
  intro hlonger
  have hfront : ".well-known/est".toList <+: ".well-known/est/".toList := by decide
  exact h (hfront.trans hlonger)

theorem pathSegments_joined (h : PlainPath segments)
    (hpath : path.toList = '/' :: joined segments) :
    pathSegments path = behindPrefix segments := by
  have hfront := (trim_joined h.nonempty h.noSlash).1
  unfold behindPrefix
  split
  · next rest =>
    have hne : ∀ s ∈ rest, s.toList ≠ [] := fun s hs => h.nonempty s (by simp [hs])
    have hslash : ∀ s ∈ rest, '/' ∉ s.toList := fun s hs => h.noSlash s (by simp [hs])
    refine pathSegments_of_trimmed hpath hfront hne hslash ?_
    by_cases hrest : rest = []
    · subst hrest
      rfl
    · -- the prefix and one slash are taken off, and it does not come again
      have hsplit : joined (".well-known" :: "est" :: rest) =
          ".well-known/est/".toList ++ joined rest := by
        rw [joined_cons (by simp), joined_cons hrest]
        rfl
      have honce : ¬ ".well-known/est".toList <+: joined rest := by
        intro hprefix
        obtain ⟨s, rest', heq, hs⟩ := prefix_of_joined hslash hprefix
        exact h.once s rest' heq hs
      rw [trimPrefixes, hsplit, trimStartMatches_once (by decide) (not_longer honce),
        trimStartMatches_of_not honce]
  · next hother =>
    have hnot : ¬ ".well-known/est".toList <+: joined segments := by
      refine h.not_prefix ?_
      unfold behindPrefix
      split
      · exact absurd rfl (hother _)
      · rfl
    refine pathSegments_of_trimmed hpath hfront h.nonempty h.noSlash ?_
    rw [trimPrefixes, trimStartMatches_of_not (not_longer hnot), trimStartMatches_of_not hnot]

/-! ## Routing -/

variable {operation : EstOperation} {label : Option String}

theorem routeWithLabel_eq_ok : routeWithLabel path = .ok (label, operation) ↔
      ∃ op, operationOf op = some operation ∧ pathSegments path = label.toList ++ [op] := by
  unfold routeWithLabel
  dsimp only
  rcases pathSegments path with _ | ⟨a, _ | ⟨b, _ | ⟨c, rest⟩⟩⟩
  · simp
  · cases label with
    | none | some => cases hop : operationOf a <;> simp [hop]
  · cases label with
    | none => cases hop : operationOf b <;> simp [hop]
    | some l => cases hop : operationOf b <;> simp [hop, and_comm, eq_comm]
  · cases label <;> simp

theorem toList_uriPath (m : CoapMessage) :
    m.uriPath.toList = '/' :: joined (m.pathOptions.filterMap fromUtf8) := by
  have htexts : ((m.options.filter fun o => o.number = optionUriPath).filterMap
      fun o => fromUtf8 o.value) = m.pathOptions.filterMap fromUtf8 := by
    rw [CoapMessage.pathOptions, List.filterMap_map]
    rfl
  unfold CoapMessage.uriPath
  rw [htexts]
  cases m.pathOptions.filterMap fromUtf8 with
  | nil => rfl
  | cons s rest =>
    simp only [List.isEmpty_cons, Bool.false_eq_true, if_false, String.toList_append,
      String.toList_intercalate]
    rfl

theorem operationOf_est : operationOf "est" = none := by decide

theorem behindPrefix_eq_iff {op : String} (hop : operationOf op = some operation) :
    behindPrefix segments = label.toList ++ [op] ↔
      segments = label.toList ++ [op] ∨ segments = ".well-known" :: "est" :: label.toList ++ [op] := by
  constructor
  · intro h
    unfold behindPrefix at h
    split at h
    · exact .inr (by rw [h]; rfl)
    · exact .inl h
  · rintro (rfl | rfl)
    · unfold behindPrefix
      split
      · next rest heq =>
        -- one segment, or a label and the operation `est`
        cases label with
        | none => simp at heq
        | some l =>
          obtain ⟨-, rfl, -⟩ : l = ".well-known" ∧ op = "est" ∧ [] = rest := by simpa using heq
          rw [operationOf_est] at hop
          cases hop
      · rfl
    · rfl

theorem operationOf_plain {op : String} (h : operationOf op = some operation) :
    op.toList ≠ [] ∧ '/' ∉ op.toList ∧ ¬ "est".toList <+: op.toList := by
  unfold operationOf at h
  split at h
  all_goals first
    | decide
    | cases h

section Plain

variable {texts : List String}

theorem PlainPath.route (h : PlainPath texts) {m : CoapMessage}
    (hm : m.pathOptions = texts.map asBytes) :
    routeWithLabel m.uriPath = .ok (label, operation) ↔ EstPath m.pathOptions label operation := by
  have htexts : m.pathOptions.filterMap fromUtf8 = texts := by
    rw [hm, List.filterMap_map]
    simp [fromUtf8_asBytes]
  have hinj : ∀ x y, asBytes x = asBytes y → x = y := fun x y heq => asBytes_inj.mp heq
  rw [routeWithLabel_eq_ok, pathSegments_joined h (htexts ▸ toList_uriPath m), EstPath, hm]
  have hforms : ∀ op, operationOf op = some operation → (behindPrefix texts = label.toList ++ [op] ↔
      texts.map asBytes = (label.toList ++ [op]).map asBytes ∨
        texts.map asBytes = (".well-known" :: "est" :: label.toList ++ [op]).map asBytes) := by
    intro op hop
    rw [behindPrefix_eq_iff hop, List.map_inj_right hinj, List.map_inj_right hinj]
  constructor
  · rintro ⟨op, hop, hsegments⟩
    refine ⟨?_, op, hop, (hforms op hop).mp hsegments⟩
    rintro l rfl
    -- the label is one of the segments
    have hmem : l ∈ texts := by
      obtain rfl | rfl := (behindPrefix_eq_iff hop).mp hsegments <;> simp
    exact ⟨h.nonempty l hmem, h.noSlash l hmem⟩
  · rintro ⟨-, op, hop, hsegments⟩
    exact ⟨op, hop, (hforms op hop).mpr hsegments⟩

theorem EstPath.plain {values : List (List UInt8)} (h : EstPath values label operation) :
    ∃ texts, values = texts.map asBytes ∧ PlainPath texts := by
  obtain ⟨hlabel, op, hop, hvalues⟩ := h
  obtain ⟨hne, hslash, hest⟩ := operationOf_plain hop
  obtain ⟨texts, rfl, htexts⟩ : ∃ texts, values = texts.map asBytes ∧
      (texts = label.toList ++ [op] ∨ texts = ".well-known" :: "est" :: label.toList ++ [op]) := by
    obtain rfl | rfl := hvalues
    · exact ⟨_, rfl, .inl rfl⟩
    · exact ⟨_, rfl, .inr rfl⟩
  have hsegment : ∀ s ∈ texts, s.toList ≠ [] ∧ '/' ∉ s.toList := by
    intro s hs
    have hs : s = ".well-known" ∨ s = "est" ∨ label = some s ∨ s = op := by
      obtain rfl | rfl := htexts
      · simp at hs
        tauto
      · simp at hs
        tauto
    obtain rfl | rfl | hs | rfl := hs
    · decide
    · decide
    · exact hlabel s hs
    · exact ⟨hne, hslash⟩
  refine ⟨texts, rfl, fun s hs => (hsegment s hs).1, fun s hs => (hsegment s hs).2, ?_⟩
  intro s rest heq
  rw [(behindPrefix_eq_iff hop).mpr htexts] at heq
  cases label with
  | none => simp at heq
  | some l =>
    obtain ⟨-, rfl, -⟩ : l = ".well-known" ∧ op = s ∧ [] = rest := by simpa using heq
    exact hest

end Plain

/-! ## All other paths -/

section Named

variable {rest : List Char} {op : String}
  (hop : operationOf op = some operation)
  (hwords : Words '/' rest ((label.toList ++ [op]).map String.toList))

include hop hwords

theorem named_not_prefix : ¬ ".well-known/est".toList <+: rest := by
  rintro ⟨behind, rfl⟩
  have hsplit : ".well-known/est".toList ++ behind =
      ".well-known".toList ++ '/' :: ("est".toList ++ behind) := rfl
  obtain ⟨u, ws, hest⟩ : ∃ u ws, Words '/' ("est".toList ++ behind) (("est".toList ++ u) :: ws) :=
    Words.front (by decide) (by decide) behind
  have hfirst : Words '/' (".well-known/est".toList ++ behind)
      (".well-known".toList :: ("est".toList ++ u) :: ws) := by
    rw [hsplit]
    exact .word (by decide) (by decide) hest
  have heq := hwords.unique hfirst
  cases label with
  | none => simp at heq
  | some l =>
    have hhead : op.toList = "est".toList ++ u := by
      simp only [Option.toList_some, List.cons_append, List.nil_append, List.map_cons, List.map_nil,
        List.cons.injEq] at heq
      exact heq.2.1
    exact (operationOf_plain hop).2.2 ⟨u, hhead.symm⟩

/-- What the router takes off the front of a text that names an operation leaves its words. -/
theorem trimmed_words (n k : Nat)
    (hcs : cs = copies n ".well-known/est/".toList ++ (copies k ".well-known/est".toList ++ rest)) :
    Words '/' (trimPrefixes cs) ((label.toList ++ [op]).map String.toList) := by
  have hnot := named_not_prefix hop hwords
  have htrim : ∀ k rest', ¬ ".well-known/est".toList <+: rest' →
      ¬ ".well-known/est/".toList <+: copies k ".well-known/est".toList ++ rest' →
      ∀ n, trimPrefixes (copies n ".well-known/est/".toList ++
        (copies k ".well-known/est".toList ++ rest')) = rest' := by
    intro k rest' hshort hlong n
    rw [trimPrefixes, trimStartMatches_copies (by decide) hlong,
      trimStartMatches_copies (by decide) hshort]
  obtain ⟨c, hc⟩ | hlong := em (".well-known/est/".toList <+: copies k ".well-known/est".toList ++ rest)
  · -- the last copy is followed by a slash
    cases k with
    | zero => exact absurd ⟨c, hc⟩ (not_longer hnot)
    | succ k =>
      have hslash : '/' :: c = copies k ".well-known/est".toList ++ rest := by
        have hfront : ".well-known/est/".toList = ".well-known/est".toList ++ ['/'] := by decide
        rw [copies_succ, hfront, List.append_assoc, List.append_assoc] at hc
        exact List.append_cancel_left hc
      cases k with
      | succ k => exact absurd (List.cons.inj hslash).1 (by decide)
      | zero =>
        have hrest : rest = '/' :: c := hslash.symm
        rw [hrest, Words.skip_iff] at hwords
        have hnot' := named_not_prefix hop hwords
        have hmore : cs = copies (n + 1) ".well-known/est/".toList ++
            (copies 0 ".well-known/est".toList ++ c) := by
          rw [hcs, hrest, copies_succ' n, List.append_assoc (copies n _)]
          rfl
        rw [hmore, htrim 0 c hnot' (not_longer hnot')]
        exact hwords
  · rw [hcs, htrim k rest hnot hlong]
    exact hwords

end Named

theorem pathSegments_eq_iff {ws : List String} : pathSegments path = ws ↔
    Words '/' (trimPrefixes (path.toList.dropWhile fun c => c = '/')) (ws.map String.toList) := by
  have hlists : ∀ xs : List (List Char),
      xs.map String.ofList = ws ↔ xs = ws.map String.toList := by
    intro xs
    constructor
    · rintro rfl
      simp [Function.comp_def]
    · rintro rfl
      simp [Function.comp_def]
  rw [← Words.dropWhile_iff, ← Words.rdropWhile_iff, ← Words.splitOn_iff, ← hlists]
  rfl

theorem route_names (hpath : path.toList = '/' :: cs) :
    routeWithLabel path = .ok (label, operation) ↔
      ∃ op, operationOf op = some operation ∧ Names cs label op := by
  have hdrop : (path.toList.dropWhile fun c => c = '/') = cs.dropWhile fun c => c = '/' := by
    rw [hpath, List.dropWhile_cons_of_pos (by simp)]
  rw [routeWithLabel_eq_ok]
  refine exists_congr fun op => and_congr_right fun hop => ?_
  rw [pathSegments_eq_iff, hdrop]
  constructor
  · intro hwords
    obtain ⟨n, hn⟩ := trimStartMatches_front ".well-known/est/".toList _
      (cs.dropWhile fun c => c = '/')
    obtain ⟨k, hk⟩ := trimStartMatches_front ".well-known/est".toList _
      (trimStartMatches ".well-known/est/".toList _ (cs.dropWhile fun c => c = '/'))
    refine ⟨(cs.takeWhile fun c => c = '/').length, n, k, _, ?_, hwords⟩
    have hslashes : (cs.takeWhile fun c => c = '/') =
        List.replicate (cs.takeWhile fun c => c = '/').length '/' :=
      List.eq_replicate_of_mem fun c hc => by simpa using List.mem_takeWhile_imp hc
    rw [trimPrefixes, ← hk, ← hn, ← hslashes, List.takeWhile_append_dropWhile]
  · rintro ⟨i, n, k, rest, rfl, hwords⟩
    have hslashes : ((List.replicate i '/' ++ (copies n ".well-known/est/".toList ++
        (copies k ".well-known/est".toList ++ rest))).dropWhile fun c => c = '/') =
        (copies n ".well-known/est/".toList ++
          (copies k ".well-known/est".toList ++ rest)).dropWhile fun c => c = '/' :=
      List.dropWhile_append_of_pos fun c hc => by simp [List.eq_of_mem_replicate hc]
    rw [hslashes]
    cases n with
    | succ n => exact trimmed_words hop hwords (n + 1) k rfl
    | zero =>
      cases k with
      | succ k => exact trimmed_words hop hwords 0 (k + 1) rfl
      | zero => exact trimmed_words hop (Words.dropWhile_iff.mpr hwords) 0 0 rfl

/-- The router accepts the four forms of a path, with the label and the operation that they name,
    and rejects everything else, exactly for the lists of segments that it does not misread. -/
theorem route_forms_iff (m : CoapMessage) :
    (∀ label operation, routeWithLabel m.uriPath = .ok (label, operation) ↔
      EstPath m.pathOptions label operation) ↔ ¬ Misread m.pathOptions := by
  have hroute : ∀ label operation, routeWithLabel m.uriPath = .ok (label, operation) ↔
      ∃ op, operationOf op = some operation ∧
        Names (joined (m.pathOptions.filterMap fromUtf8)) label op :=
    fun label operation => route_names (toList_uriPath m)
  constructor
  · rintro h ⟨hnot, label, op, operation, hop, hnames⟩
    exact hnot ((h label operation).mp ((hroute label operation).mpr ⟨op, hop, hnames⟩)).plain
  · intro hread label operation
    by_cases hplain : ∃ texts, m.pathOptions = texts.map asBytes ∧ PlainPath texts
    · obtain ⟨texts, hm, hplain⟩ := hplain
      exact hplain.route hm
    · refine ⟨fun hok => ?_, fun hpath => absurd hpath.plain hplain⟩
      obtain ⟨op, hop, hnames⟩ := (hroute label operation).mp hok
      exact absurd ⟨hplain, label, op, operation, hop, hnames⟩ hread

def pathMessage (values : List (List UInt8)) : CoapMessage where
  version := 1
  msgType := .confirmable
  code := ⟨0, 2⟩
  messageId := 1
  token := []
  options := values.map fun value => ⟨optionUriPath, value⟩
  payload := []

theorem not_estPath_one {v : String} (hv : operationOf v = none) (label : Option String)
    (operation : EstOperation) : ¬ EstPath [asBytes v] label operation := by
  rintro ⟨-, op, hop, h | h⟩
  · cases label with
    | none =>
      obtain rfl := asBytes_inj.mp (List.cons.inj h).1
      rw [hv] at hop
      cases hop
    | some l => simp at h
  · simp at h

theorem EstPath.prefixed {segments : List (List UInt8)} (h : EstPath segments label operation)
    (hlong : 2 < segments.length) : segments.length ≤ 4 ∧ segments[1]? = some (asBytes "est") := by
  obtain ⟨-, op, -, rfl | rfl⟩ := h
  · cases label <;> simp at hlong
  · cases label <;> simp

theorem EstPath.label_text {v w : List UInt8} (h : EstPath [v, w] label operation) :
    ∃ l, fromUtf8 v = some l := by
  obtain ⟨-, op, -, h | h⟩ := h
  · cases label with
    | none => simp at h
    | some l =>
      obtain rfl := (List.cons.inj h).1
      exact ⟨l, fromUtf8_asBytes l⟩
  · simp at h

/-- A path that is routed and has none of the forms. -/
def BeyondForms (values : List (List UInt8)) : Prop :=
  (∃ result, routeWithLabel (pathMessage values).uriPath = .ok result) ∧
    ∀ label operation, ¬ EstPath (pathMessage values).pathOptions label operation

theorem route_beyond_forms :
    BeyondForms [asBytes "plant/sen"] ∧ BeyondForms [[0xFF], asBytes "sen"] ∧
      BeyondForms ([".well-known", "est", ".well-known", "est", "sen"].map asBytes) ∧
      BeyondForms ([".well-known", "estplant", "sen"].map asBytes) := by
  refine ⟨⟨⟨(some "plant", .simpleEnroll), by decide +kernel⟩, not_estPath_one (by decide)⟩,
    ⟨⟨(none, .simpleEnroll), by decide +kernel⟩, fun label operation h => ?_⟩,
    ⟨⟨(none, .simpleEnroll), by decide +kernel⟩, fun label operation h => ?_⟩,
    ⟨(some "plant", .simpleEnroll), by decide +kernel⟩, fun label operation h => ?_⟩
  · obtain ⟨l, hl⟩ := h.label_text
    have hnone : fromUtf8 [0xFF] = none := by decide +kernel
    rw [hnone] at hl
    cases hl
  · exact absurd (h.prefixed (by decide)).1 (by decide)
  · exact absurd (h.prefixed (by decide)).2 (by decide +kernel)

end Kipuka.Coap
