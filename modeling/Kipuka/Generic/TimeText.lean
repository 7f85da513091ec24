/-
  Times as texts: `to_rfc3339_opts(SecondsFormat::Millis, true)` of a time in UTC.
-/
import Kipuka.Generic.Calendar
import Mathlib.Algebra.Group.Nat.Defs

namespace Kipuka.Generic

/-! ## Digits -/

def pad : Nat → Nat → List Char
  | 0, _ => []
  | w + 1, n => Nat.digitChar (n / 10 ^ w) :: pad w (n % 10 ^ w)

theorem digitChar_lt : ∀ a b : Fin 10, a < b → Nat.digitChar a.1 < Nat.digitChar b.1 := by decide

theorem pad_append_lt {w a b : Nat} {x y : List Char} (hb : b < 10 ^ w)
    (h : a < b ∨ a = b ∧ x < y) : pad w a ++ x < pad w b ++ y := by
  induction w generalizing a b with
  | zero =>
    obtain h | ⟨-, h⟩ := h
    · omega
    · exact h
  | succ w ih =>
    have hpow : 0 < 10 ^ w := Nat.pow_pos (by decide)
    have hmod := Nat.mod_lt b hpow
    rw [Nat.pow_succ] at hb
    have hdigit : b / 10 ^ w < 10 := Nat.div_lt_of_lt_mul hb
    rw [pad, pad, List.cons_append, List.cons_append, List.cons_lt_cons_iff]
    obtain h | ⟨rfl, h⟩ := h
    · -- either the first digit is less, or it is the same and the rest is less
      have hle : a / 10 ^ w ≤ b / 10 ^ w := Nat.div_le_div_right (Nat.le_of_lt h)
      rcases Nat.lt_or_eq_of_le hle with hlt | heq
      · exact .inl (digitChar_lt ⟨_, by omega⟩ ⟨_, hdigit⟩ hlt)
      · refine .inr ⟨by rw [heq], ih hmod (.inl ?_)⟩
        have hdiv := Nat.div_add_mod a (10 ^ w)
        have hdiv' := Nat.div_add_mod b (10 ^ w)
        rw [heq] at hdiv
        omega
    · exact .inr ⟨rfl, ih hmod (.inr ⟨rfl, h⟩)⟩

/-! ## The text -/

def yearText (year : Int) : List Char :=
  if 0 ≤ year ∧ year ≤ 9999 then pad 4 year.toNat
  else
    let digits := Nat.toDigits 10 year.natAbs
    (if year < 0 then '-' else '+') :: (List.replicate (4 - digits.length) '0' ++ digits)

def millis (t : Int) : Int := t / 1000000

def clockText (ms : Int) : List Char :=
  'T' :: (pad 2 (ms % 86400000 / 3600000).toNat ++
    ':' :: (pad 2 (ms % 3600000 / 60000).toNat ++
      ':' :: (pad 2 (ms % 60000 / 1000).toNat ++ '.' :: (pad 3 (ms % 1000).toNat ++ ['Z']))))

def millisText (ms : Int) : List Char :=
  let date := civil (ms / 86400000)
  yearText date.year ++ '-' :: (pad 2 date.month.toNat ++ '-' :: (pad 2 date.day.toNat ++ clockText ms))

def rfc3339Millis (t : Int) : String := String.ofList (millisText (millis t))

/-! ## Order -/

theorem sep_lt {c : Char} {x y : List Char} (h : x < y) : c :: x < c :: y :=
  List.cons_lt_cons_iff.mpr (.inr ⟨rfl, h⟩)

theorem clockText_lt {a b : Int} (hday : a / 86400000 = b / 86400000) (h : a < b) :
    clockText a < clockText b := by
  have hcases : a % 86400000 / 3600000 < b % 86400000 / 3600000 ∨
      a % 86400000 / 3600000 = b % 86400000 / 3600000 ∧
        (a % 3600000 / 60000 < b % 3600000 / 60000 ∨
          a % 3600000 / 60000 = b % 3600000 / 60000 ∧
            (a % 60000 / 1000 < b % 60000 / 1000 ∨
              a % 60000 / 1000 = b % 60000 / 1000 ∧ a % 1000 < b % 1000)) := by omega
  unfold clockText
  refine sep_lt (pad_append_lt (by omega) ?_)
  obtain hhour | ⟨hhour, hcases⟩ := hcases
  · exact .inl (by omega)
  refine .inr ⟨by omega, sep_lt (pad_append_lt (by omega) ?_)⟩
  obtain hminute | ⟨hminute, hcases⟩ := hcases
  · exact .inl (by omega)
  refine .inr ⟨by omega, sep_lt (pad_append_lt (by omega) ?_)⟩
  obtain hsecond | ⟨hsecond, hmilli⟩ := hcases
  · exact .inl (by omega)
  exact .inr ⟨by omega, sep_lt (pad_append_lt (by omega) (.inl (by omega)))⟩

/-- A time in nanoseconds from 1970 to the end of the year 9999. -/
def FourDigits (t : Int) : Prop := 0 ≤ t ∧ t < 253402300800000000000

theorem millisText_lt {a b : Int} (ha : 0 ≤ a) (hb : b < 253402300800000) (h : a < b) :
    millisText a < millisText b := by
  obtain ⟨hlow, hhigh⟩ := civil_year (show 0 ≤ a / 86400000 by omega) (by omega)
  obtain ⟨hlow', hhigh'⟩ := civil_year (show 0 ≤ b / 86400000 by omega) (by omega)
  have hmonth := civil_month_day (a / 86400000)
  have hmonth' := civil_month_day (b / 86400000)
  unfold millisText yearText
  dsimp only
  rw [if_pos ⟨by omega, hhigh⟩, if_pos ⟨by omega, hhigh'⟩]
  refine pad_append_lt (by omega) ?_
  rcases Int.lt_or_eq_of_le (Int.ediv_le_ediv (by decide : (0 : Int) < 86400000) (Int.le_of_lt h))
    with hday | hday
  · -- another day, and so a later date
    obtain hyear | ⟨hyear, hdate⟩ := civil_lt hday
    · exact .inl (by omega)
    refine .inr ⟨by omega, sep_lt (pad_append_lt (by omega) ?_)⟩
    obtain hmonth | ⟨hmonth, hday⟩ := hdate
    · exact .inl (by omega)
    exact .inr ⟨by omega, sep_lt (pad_append_lt (by omega) (.inl (by omega)))⟩
  · rw [hday]
    exact .inr ⟨rfl, sep_lt (pad_append_lt (by omega) (.inr ⟨rfl,
      sep_lt (pad_append_lt (by omega) (.inr ⟨rfl, clockText_lt hday h⟩))⟩))⟩

theorem rfc3339Millis_lt_iff {t u : Int} (ht : FourDigits t) (hu : FourDigits u) :
    rfc3339Millis t < rfc3339Millis u ↔ millis t < millis u := by
  have hmono : ∀ {t u}, FourDigits t → FourDigits u → millis t < millis u →
      rfc3339Millis t < rfc3339Millis u := by
    intro t u ht hu h
    unfold FourDigits at ht hu
    have htext := millisText_lt (by unfold millis; omega) (by unfold millis; omega) h
    show (String.ofList _).toList < (String.ofList _).toList
    rwa [String.toList_ofList, String.toList_ofList]
  constructor
  · intro hlt
    rcases Int.lt_trichotomy (millis t) (millis u) with h | h | h
    · exact h
    · rw [rfc3339Millis, rfc3339Millis, h] at hlt
      exact absurd hlt (String.lt_irrefl _)
    · exact absurd hlt (String.lt_asymm (hmono hu ht h))
  · exact hmono ht hu

/-- The last millisecond of the year 9999. -/
def latest : Int := 253402300799999000000

theorem fourDigits_latest : FourDigits latest := by
  unfold FourDigits latest
  omega

theorem yearText_append_lt {year : Int} (h : year ≠ 9999) (x y : List Char) :
    yearText year ++ x < pad 4 9999 ++ y := by
  have hsign : ∀ c : Char, c < '9' → ∀ x, c :: x < pad 4 9999 ++ y := fun c hc x =>
    List.cons_lt_cons_iff.mpr (.inl hc)
  unfold yearText
  split
  · exact pad_append_lt (by decide) (.inl (by omega))
  · dsimp only
    split
    · exact hsign '-' (by decide) _
    · exact hsign '+' (by decide) _

/-- No time has a text above that of the last one with a year of four digits. -/
theorem not_latest_lt (u : Int) : ¬ rfc3339Millis latest < rfc3339Millis u := by
  by_cases hu : FourDigits u
  · rw [rfc3339Millis_lt_iff fourDigits_latest hu]
    unfold FourDigits at hu
    unfold millis latest
    omega
  have hyear : (civil (millis u / 86400000)).year ≠ 9999 := by
    unfold FourDigits at hu
    by_cases hneg : u < 0
    · have hlt := civil_lt (show millis u / 86400000 < 0 by unfold millis; omega)
      have hfirst : civil 0 = ⟨1970, 1, 1⟩ := by decide
      simp only [hfirst] at hlt
      omega
    · have hlt := civil_lt (show 2932896 < millis u / 86400000 by unfold millis; omega)
      have hmonth := civil_month_day (millis u / 86400000)
      have hlast : civil 2932896 = ⟨9999, 12, 31⟩ := by decide
      simp only [hlast] at hlt
      omega
  have hlatest : millisText (millis latest) = pad 4 9999 ++ "-12-31T23:59:59.999Z".toList := by
    decide +kernel
  refine String.lt_asymm ?_
  show (String.ofList _).toList < (String.ofList _).toList
  rw [String.toList_ofList, String.toList_ofList, hlatest]
  exact yearText_append_lt hyear _ _

example : rfc3339Millis 1700000000123456789 = "2023-11-14T22:13:20.123Z" := by decide +kernel

end Kipuka.Generic
