/-
  Matching of names (`src/auth/name_match.rs`): DNS names with wildcards, IP addresses and e-mail
  addresses. Strings are taken as their characters; case folding is ASCII.
-/
import Kipuka.Generic.IpAddr
import Mathlib.Data.List.DropRight

namespace Kipuka.Auth

open Generic

def toAsciiLowercase (s : String) : List Char := s.toList.map Char.toLower

def eqIgnoreAsciiCase (s t : String) : Bool := toAsciiLowercase s = toAsciiLowercase t

def stripSuffix (cs suffix : List Char) : Option (List Char) :=
  if suffix <:+ cs then some (cs.take (cs.length - suffix.length)) else none

def splitOnce (sep : Char) (cs : List Char) : Option (List Char × List Char) :=
  if sep ∈ cs then
    some (cs.takeWhile (fun c => c ≠ sep), (cs.dropWhile (fun c => c ≠ sep)).drop 1)
  else none

/-- The label that a wildcard stands for in `hostname`: one label in front of a dot and the
    suffix. -/
def wildcardCovers (wildcardSuffix hostname : List Char) : Bool :=
  match stripSuffix hostname wildcardSuffix with
  | none => false
  | some front =>
    if ¬ ['.'] <:+ front then false
    else
      let matchedLabel := front.dropLast
      !matchedLabel.isEmpty && '.' ∉ matchedLabel

def matchesDomain (pattern hostname : String) : Bool :=
  let pattern := toAsciiLowercase pattern
  let hostname := toAsciiLowercase hostname
  if pattern.isEmpty || hostname.isEmpty then false
  else
    let pattern := pattern.rdropWhile (fun c => c = '.')
    let hostname := hostname.rdropWhile (fun c => c = '.')
    if ¬ ['*', '.'] <+: pattern then
      if '*' ∈ pattern then false else pattern = hostname
    else
      let wildcardSuffix := pattern.drop 2
      if wildcardSuffix.isEmpty then false
      else if '*' ∈ wildcardSuffix then false
      else wildcardCovers wildcardSuffix hostname

def matchesIp (certIp clientIp : IpAddr) : Bool := certIp = clientIp

/-- The local part is compared as it is, the domain without case. A pattern without `@` stands for
    all addresses of its domain. -/
def matchesEmail (pattern email : String) : Bool :=
  if pattern.isEmpty || email.isEmpty then false
  else
    match splitOnce '@' pattern.toList, splitOnce '@' email.toList with
    | some (patLocal, patDomain), some (emailLocal, emailDomain) =>
      patLocal = emailLocal && patDomain.map Char.toLower = emailDomain.map Char.toLower
    | none, some (_, emailDomain) =>
      toAsciiLowercase pattern = emailDomain.map Char.toLower
    | _, none => false

example : matchesDomain "*.Example.com." "host.example.COM" ∧
    ¬ matchesDomain "*.example.com" "a.b.example.com" := by decide +kernel

/-! ## What a pattern covers -/

def comparedName (s : String) : List Char := (toAsciiLowercase s).rdropWhile (fun c => c = '.')

/-- What a pattern covers: itself if it has no wildcard, else each name with one label in front of
    its suffix. -/
inductive Covers : List Char → List Char → Prop
  | exact {name : List Char} (hstar : '*' ∉ name) : Covers name name
  | wildcard {label suffix : List Char} (hsuffix : suffix ≠ []) (hstar : '*' ∉ suffix)
      (hlabel : label ≠ []) (hdot : '.' ∉ label) :
      Covers ('*' :: '.' :: suffix) (label ++ '.' :: suffix)

theorem stripSuffix_eq_some {cs suffix front : List Char} :
    stripSuffix cs suffix = some front ↔ cs = front ++ suffix := by
  unfold stripSuffix
  constructor
  · intro h
    split at h
    · next hsuffix =>
      obtain ⟨t, rfl⟩ := hsuffix
      rw [List.length_append, Nat.add_sub_cancel, List.take_left, Option.some.injEq] at h
      rw [h]
    · cases h
  · rintro rfl
    rw [if_pos (List.suffix_append front suffix), List.length_append, Nat.add_sub_cancel,
      List.take_left]

theorem wildcardCovers_iff {suffix hostname : List Char} :
    wildcardCovers suffix hostname = true ↔
      ∃ label, label ≠ [] ∧ '.' ∉ label ∧ hostname = label ++ '.' :: suffix := by
  unfold wildcardCovers
  constructor
  · intro h
    split at h
    · cases h
    · next front hfront =>
      split at h
      · cases h
      · next hend =>
        obtain ⟨label, rfl⟩ := not_not.mp hend
        rw [List.dropLast_concat] at h
        refine ⟨label, ?_, ?_, ?_⟩
        · rintro rfl
          cases h
        · simp only [Bool.and_eq_true, decide_eq_true_eq] at h
          exact h.2
        · rw [stripSuffix_eq_some.mp hfront, List.append_assoc]
          rfl
  · rintro ⟨label, hlabel, hdot, rfl⟩
    have hfront : stripSuffix (label ++ '.' :: suffix) suffix = some (label ++ ['.']) :=
      stripSuffix_eq_some.mpr (by rw [List.append_assoc]; rfl)
    simp [hfront, hlabel, hdot]

theorem covers_of_not_wildcard {p h : List Char} (hp : ¬ ['*', '.'] <+: p) :
    Covers p h ↔ '*' ∉ p ∧ p = h := by
  constructor
  · intro hcovers
    cases hcovers with
    | exact hstar => exact ⟨hstar, rfl⟩
    | wildcard => exact absurd (List.prefix_append ['*', '.'] _) hp
  · rintro ⟨hstar, rfl⟩
    exact .exact hstar

theorem covers_wildcard_iff {suffix h : List Char} :
    Covers ('*' :: '.' :: suffix) h ↔
      suffix ≠ [] ∧ '*' ∉ suffix ∧ wildcardCovers suffix h = true := by
  rw [wildcardCovers_iff]
  constructor
  · intro hcovers
    cases hcovers with
    | exact hstar => exact absurd List.mem_cons_self hstar
    | wildcard hsuffix hstar hlabel hdot => exact ⟨hsuffix, hstar, _, hlabel, hdot, rfl⟩
  · rintro ⟨hsuffix, hstar, label, hlabel, hdot, rfl⟩
    exact .wildcard hsuffix hstar hlabel hdot

theorem matchesDomain_iff {pattern hostname : String} :
    matchesDomain pattern hostname = true ↔ toAsciiLowercase pattern ≠ [] ∧
      toAsciiLowercase hostname ≠ [] ∧ Covers (comparedName pattern) (comparedName hostname) := by
  unfold matchesDomain
  simp only [← comparedName.eq_1]
  by_cases hempty : (toAsciiLowercase pattern).isEmpty || (toAsciiLowercase hostname).isEmpty
  · rw [if_pos hempty]
    simp only [Bool.or_eq_true, List.isEmpty_iff] at hempty
    tauto
  rw [if_neg hempty]
  simp only [Bool.or_eq_true, List.isEmpty_iff, not_or] at hempty
  rw [and_iff_right hempty.1, and_iff_right hempty.2]
  by_cases hwild : ['*', '.'] <+: comparedName pattern
  · obtain ⟨suffix, hsuffix⟩ := hwild
    rw [← hsuffix, if_neg (not_not.mpr (List.prefix_append _ _))]
    refine Iff.trans ?_ covers_wildcard_iff.symm
    simp
  · rw [if_pos hwild, covers_of_not_wildcard hwild]
    simp

theorem label_eq_star {label suffix rest : List Char} (hdot : '.' ∉ label)
    (h : label ++ '.' :: suffix = '*' :: '.' :: rest) : label = ['*'] := by
  rcases label with _ | ⟨c, _ | ⟨d, label⟩⟩
  · cases h
  · obtain rfl := (List.cons.inj h).1
    rfl
  · obtain rfl : d = '.' := (List.cons.inj (List.cons.inj h).2).1
    exact absurd (List.mem_cons_of_mem _ List.mem_cons_self) hdot

theorem Covers.trans {p n h : List Char} (hpn : Covers p n) (hnh : Covers n h) : Covers p h := by
  generalize hm : n = m at hnh
  cases hnh with
  | exact _ => exact hm ▸ hpn
  | wildcard hsuffix hstar hlabel hdot =>
    cases hpn with
    | exact hstar' =>
      subst hm
      exact absurd List.mem_cons_self hstar'
    | wildcard _ _ _ hdot' =>
      obtain rfl := label_eq_star hdot' hm
      obtain rfl := (List.cons.inj (List.cons.inj hm).2).2
      exact .wildcard hsuffix hstar hlabel hdot

theorem matchesDomain_trans {p n h : String} (hpn : matchesDomain p n = true)
    (hnh : matchesDomain n h = true) : matchesDomain p h = true := by
  obtain ⟨hp, -, hcovers⟩ := matchesDomain_iff.mp hpn
  obtain ⟨-, hh, hcovers'⟩ := matchesDomain_iff.mp hnh
  exact matchesDomain_iff.mpr ⟨hp, hh, hcovers.trans hcovers'⟩

/-! ## The rule by labels -/

/-- RFC 6125, 6.4.3: a name without wildcard matches itself, and a wildcard, the whole leftmost
    label of a pattern, stands for one label. A name without labels matches nothing. -/
def LabelMatch (pattern name : List Char) : Prop :=
  ('*' ∉ pattern ∧ pattern = name ∧ name ≠ []) ∨
    ∃ label suffix, pattern = '*' :: '.' :: suffix ∧ suffix ≠ [] ∧ '*' ∉ suffix ∧
      name = label ++ '.' :: suffix ∧ label ≠ [] ∧ '.' ∉ label

theorem labelMatch_iff {pattern name : List Char} :
    LabelMatch pattern name ↔ name ≠ [] ∧ Covers pattern name := by
  constructor
  · rintro (⟨hstar, rfl, hname⟩ | ⟨label, suffix, rfl, hsuffix, hstar, rfl, hlabel, hdot⟩)
    · exact ⟨hname, .exact hstar⟩
    · exact ⟨by simp, .wildcard hsuffix hstar hlabel hdot⟩
  · rintro ⟨hname, hcovers⟩
    cases hcovers with
    | exact hstar => exact .inl ⟨hstar, rfl, hname⟩
    | wildcard hsuffix hstar hlabel hdot =>
      exact .inr ⟨_, _, rfl, hsuffix, hstar, rfl, hlabel, hdot⟩

theorem toAsciiLowercase_ne_nil {s : String} : toAsciiLowercase s ≠ [] ↔ s ≠ "" := by
  rw [toAsciiLowercase, Ne, List.map_eq_nil_iff, String.toList_eq_nil_iff]

theorem Covers.nil_iff {p n : List Char} (h : Covers p n) : p = [] ↔ n = [] := by
  cases h with
  | exact => rfl
  | wildcard => simp

/-- A text of dots and nothing else, of which the comparison leaves nothing. -/
def DotsOnly (s : String) : Prop := s ≠ "" ∧ comparedName s = []

/-- A pattern matches as the rule by labels says if and only if it and the name are not both
    dots only. -/
theorem matchesDomain_by_labels (pattern hostname : String) :
    (matchesDomain pattern hostname = true ↔
      LabelMatch (comparedName pattern) (comparedName hostname)) ↔
    ¬ (DotsOnly pattern ∧ DotsOnly hostname) := by
  rw [matchesDomain_iff, labelMatch_iff, toAsciiLowercase_ne_nil, toAsciiLowercase_ne_nil]
  constructor
  · rintro hrule ⟨⟨hp, hpattern⟩, hh, hhostname⟩
    have hcovers : Covers (comparedName pattern) (comparedName hostname) := by
      rw [hpattern, hhostname]
      exact .exact (by simp)
    exact (hrule.mp ⟨hp, hh, hcovers⟩).1 hhostname
  · intro hdots
    constructor
    · rintro ⟨hp, hh, hcovers⟩
      refine ⟨fun hempty => hdots ?_, hcovers⟩
      exact ⟨⟨hp, hcovers.nil_iff.mpr hempty⟩, hh, hempty⟩
    · rintro ⟨hname, hcovers⟩
      refine ⟨?_, ?_, hcovers⟩
      · rintro rfl
        exact hname (hcovers.nil_iff.mp rfl)
      · rintro rfl
        exact hname rfl

theorem dots_match :
    matchesDomain "." ".." = true ∧ ¬ LabelMatch (comparedName ".") (comparedName "..") := by
  refine ⟨by decide +kernel, ?_⟩
  rw [labelMatch_iff]
  rintro ⟨hname, -⟩
  exact hname (by decide +kernel)

end Kipuka.Auth
