/-
  File:      Beacon/Foundation/Rfc3339.lean
  Subject:   UTC instants and the RFC 3339 text printed for them.

  An instant is a number of nanoseconds since 1970. Its text is
  `YYYY-MM-DDTHH:MM:SS`, then the fraction in 0, 3, 6 or 9 digits (the fewest that lose
  nothing), then `+00:00`; a year outside 0 to 9999 is printed with its sign. A database that
  keeps instants as text compares the texts character by character, and that is right within
  years 0 to 9999 only:

  * `text_lt` -- **an earlier instant of these years has the smaller text**, although the
    texts have four different lengths;
  * `text_le_iff`, `text_lt_iff` -- so comparing texts is comparing instants;
  * `text_lt_of_signed` -- the text of a later or an earlier year sorts before all of these.
-/
import Mathlib.Data.String.Basic
import Mathlib.Data.List.Lex
import Beacon.Foundation.Calendar

namespace Foundation

/-! ## 1. Fixed-width decimals -/

/-- The last `w` decimal digits of `n`. -/
def pad : Nat → Nat → List Char
  | 0, _ => []
  | w + 1, n => Nat.digitChar (n / 10 ^ w % 10) :: pad w n

theorem length_pad (w n : Nat) : (pad w n).length = w := by
  induction w generalizing n with
  | zero => rfl
  | succ w ih => rw [pad, List.length_cons, ih]

theorem digitChar_lt {a b : Nat} (h : a < b) (hb : b < 10) : a.digitChar < b.digitChar := by
  have key : ∀ b < 10, ∀ a < b, a.digitChar < b.digitChar := by decide
  exact key b hb a h

theorem sign_lt_digitChar {c : Char} (hc : c = '+' ∨ c = '-') {a : Nat} (h : a < 10) :
    c < a.digitChar := by
  have key : ∀ a < 10, '+' < a.digitChar ∧ '-' < a.digitChar := by decide
  rcases hc with rfl | rfl
  · exact (key a h).1
  · exact (key a h).2

/-- Texts of one length decide the order whatever follows them. -/
theorem append_lt_append : ∀ {p q : List Char} (r s : List Char), p.length = q.length → p < q →
    p ++ r < q ++ s
  | [], [], _, _, _, h => absurd h (List.lt_irrefl [])
  | a :: p, b :: q, r, s, hlen, h => by
    rw [List.cons_append, List.cons_append, List.cons_lt_cons_iff]
    rcases List.cons_lt_cons_iff.mp h with h' | ⟨rfl, h'⟩
    · exact Or.inl h'
    · exact Or.inr ⟨rfl, append_lt_append r s (Nat.succ.inj hlen) h'⟩

theorem append_lt_left (p : List Char) {r s : List Char} (h : r < s) : p ++ r < p ++ s := by
  induction p with
  | nil => exact h
  | cons a p ih => exact List.cons_lt_cons_iff.mpr (Or.inr ⟨rfl, ih⟩)

/-- **Padded decimals are ordered as their digits are.** -/
theorem pad_lt_of_mod {w a b : Nat} (h : a % 10 ^ w < b % 10 ^ w) : pad w a < pad w b := by
  induction w with
  | zero =>
    rw [Nat.pow_zero, Nat.mod_one, Nat.mod_one] at h
    exact absurd h (Nat.lt_irrefl 0)
  | succ w ih =>
    rw [Nat.mod_pow_succ, Nat.mod_pow_succ] at h
    have hpos : 0 < 10 ^ w := Nat.pow_pos (by decide)
    have ha := Nat.mod_lt a hpos
    have hb := Nat.mod_lt b hpos
    have hb10 : b / 10 ^ w % 10 < 10 := Nat.mod_lt _ (by decide)
    rw [pad, pad, List.cons_lt_cons_iff]
    rcases Nat.lt_trichotomy (a / 10 ^ w % 10) (b / 10 ^ w % 10) with hd | hd | hd
    · exact Or.inl (digitChar_lt hd hb10)
    · rw [hd] at h
      exact Or.inr ⟨by rw [hd], ih (by omega)⟩
    · -- a larger leading digit would make `a` the larger number
      have hle := Nat.mul_le_mul_left (10 ^ w) (Nat.succ_le_of_lt hd)
      rw [Nat.mul_succ] at hle
      omega

theorem pad_lt {w a b : Nat} (h : a < b) (hb : b < 10 ^ w) : pad w a < pad w b := by
  apply pad_lt_of_mod
  rwa [Nat.mod_eq_of_lt hb, Nat.mod_eq_of_lt (Nat.lt_trans h hb)]

/-- A decimal splits into its leading and its trailing digits. -/
theorem pad_add (i k n : Nat) : pad (i + k) n = pad i (n / 10 ^ k) ++ pad k n := by
  induction i with
  | zero => rw [Nat.zero_add, pad, List.nil_append]
  | succ i ih =>
    rw [Nat.succ_add, pad, pad, List.cons_append, ih, Nat.div_div_eq_div_mul, ← Nat.pow_add,
      Nat.add_comm k i]

/-- A sign sorts before every digit. -/
theorem sign_lt_pad {c : Char} (hc : c = '+' ∨ c = '-') {k : Nat} (hk : 0 < k) (n : Nat)
    (r s : List Char) : c :: r < pad k n ++ s := by
  obtain ⟨k, rfl⟩ := Nat.exists_eq_succ_of_ne_zero (Nat.ne_of_gt hk)
  rw [pad, List.cons_append, List.cons_lt_cons_iff]
  exact Or.inl (sign_lt_digitChar hc (Nat.mod_lt _ (by decide)))

/-! ## 2. Fields of a fixed width -/

/-- Fields of the widths and with the separators of `fmt`, then `tail`. -/
def fields : List (Nat × List Char) → List Nat → List Char → List Char
  | (w, sep) :: fmt, v :: vs, tail => pad w v ++ (sep ++ fields fmt vs tail)
  | _, _, tail => tail

/-- Every field fits its width. -/
def Fits : List (Nat × List Char) → List Nat → Prop
  | (w, _) :: fmt, v :: vs => v < 10 ^ w ∧ Fits fmt vs
  | [], [] => True
  | _, _ => False

/-- **Fields decide the order as the lexicographic order of their values does.** -/
theorem fields_lt : ∀ {fmt : List (Nat × List Char)} {vs us : List Nat} (t t' : List Char),
    Fits fmt vs → Fits fmt us → vs < us → fields fmt vs t < fields fmt us t'
  | [], [], [], _, _, _, _, h => absurd h (List.lt_irrefl [])
  | (w, sep) :: fmt, v :: vs, u :: us, t, t', hv, hu, h => by
    rw [fields, fields]
    rcases List.cons_lt_cons_iff.mp h with h' | ⟨rfl, h'⟩
    · exact append_lt_append _ _ (by rw [length_pad, length_pad]) (pad_lt h' hu.1)
    · exact append_lt_left _ (append_lt_left _ (fields_lt t t' hv.2 hu.2 h'))

theorem fields_tail_lt : ∀ (fmt : List (Nat × List Char)) (vs : List Nat) {t t' : List Char},
    t < t' → fields fmt vs t < fields fmt vs t'
  | (_, sep) :: fmt, _ :: vs, _, _, h =>
    append_lt_left _ (append_lt_left sep (fields_tail_lt fmt vs h))
  | [], _, _, _, h => h
  | _ :: _, [], _, _, h => h

/-! ## 3. The fraction of a second -/

/-- The fraction of `n` nanoseconds, in as few groups of three digits as lose nothing. -/
def fraction (n : Nat) : List Char :=
  if n = 0 then []
  else if n % 1000000 = 0 then '.' :: pad 3 (n / 1000000)
  else if n % 1000 = 0 then '.' :: pad 6 (n / 1000)
  else '.' :: pad 9 n

/-- Digits compared with more digits. -/
theorem pad_plus_lt_pad {i k a b : Nat} (h : a * 10 ^ k < b) (hb : b < 10 ^ (i + k))
    (r s : List Char) : pad i a ++ '+' :: r < pad (i + k) b ++ s := by
  have hpos : 0 < 10 ^ k := Nat.pow_pos (by decide)
  rw [pad_add, List.append_assoc]
  have hle : a ≤ b / 10 ^ k := (Nat.le_div_iff_mul_le hpos).mpr (Nat.le_of_lt h)
  rcases Nat.lt_or_eq_of_le hle with hlt | heq
  · refine append_lt_append _ _ (by rw [length_pad, length_pad]) (pad_lt hlt ?_)
    exact Nat.div_lt_of_lt_mul (by rwa [Nat.mul_comm, ← Nat.pow_add])
  · rw [← heq]
    refine append_lt_left _ (sign_lt_pad (.inl rfl) ?_ b r s)
    -- with no further digit the two numbers would be equal
    refine Nat.pos_of_ne_zero fun hk => ?_
    rw [hk, Nat.pow_zero] at h heq
    omega

/-- Digits compared with fewer digits. -/
theorem pad_lt_pad_plus {j k a b : Nat} (h : a < b * 10 ^ k) (hb : b < 10 ^ j)
    (r s : List Char) : pad (j + k) a ++ r < pad j b ++ s := by
  rw [pad_add, List.append_assoc]
  refine append_lt_append _ _ (by rw [length_pad, length_pad]) (pad_lt ?_ hb)
  exact Nat.div_lt_of_lt_mul (by rwa [Nat.mul_comm])

/-- A fraction is the point and `w` digits that lose nothing. -/
theorem fraction_digits {n : Nat} (h : n ≠ 0) :
    ∃ w k, w + k = 9 ∧ n / 10 ^ k * 10 ^ k = n ∧ fraction n = '.' :: pad w (n / 10 ^ k) := by
  unfold fraction
  rw [if_neg h]
  split
  · exact ⟨3, 6, rfl, by omega, rfl⟩
  · split
    · exact ⟨6, 3, rfl, by omega, rfl⟩
    · exact ⟨9, 0, rfl, by omega, by simp⟩

/-- **Fractions are ordered as the nanoseconds are**, whatever number of digits each has. -/
theorem fraction_lt {m n : Nat} (h : m < n) (hn : n < 1000000000) (r s : List Char) :
    fraction m ++ '+' :: r < fraction n ++ '+' :: s := by
  obtain ⟨v, l, hvl, hb, en⟩ := fraction_digits (show n ≠ 0 by omega)
  rw [en]
  by_cases hm : m = 0
  · rw [fraction, if_pos hm]
    exact List.cons_lt_cons_iff.mpr (Or.inl (by decide))
  · obtain ⟨w, k, hwk, ha, em⟩ := fraction_digits hm
    rw [em, List.cons_append, List.cons_append, List.cons_lt_cons_iff]
    refine Or.inr ⟨rfl, ?_⟩
    have hbv : n / 10 ^ l < 10 ^ v := by
      apply Nat.div_lt_of_lt_mul
      rw [← Nat.pow_add, Nat.add_comm l v, hvl]
      exact hn
    generalize n / 10 ^ l = b at *
    generalize m / 10 ^ k = a at *
    rcases Nat.le_total w v with hle | hle
    · obtain ⟨d, rfl⟩ := Nat.exists_eq_add_of_le hle
      obtain rfl : k = l + d := by omega
      refine pad_plus_lt_pad (Nat.lt_of_mul_lt_mul_right (a := 10 ^ l) ?_) hbv r _
      rw [hb, Nat.mul_assoc, ← Nat.pow_add, Nat.add_comm d l, ha]
      exact h
    · obtain ⟨d, rfl⟩ := Nat.exists_eq_add_of_le hle
      obtain rfl : l = k + d := by omega
      refine pad_lt_pad_plus (Nat.lt_of_mul_lt_mul_right (a := 10 ^ k) ?_) hbv _ _
      rw [ha, Nat.mul_assoc, ← Nat.pow_add, Nat.add_comm d k, hb]
      exact h

/-! ## 4. Instants -/

/-- A UTC instant: nanoseconds since 1970-01-01T00:00:00Z. -/
@[ext] structure DateTime where
  nanos : Int
  deriving DecidableEq, Repr

namespace DateTime

instance : LE DateTime := ⟨fun a b => a.nanos ≤ b.nanos⟩
instance : LT DateTime := ⟨fun a b => a.nanos < b.nanos⟩
instance (a b : DateTime) : Decidable (a ≤ b) := inferInstanceAs (Decidable (a.nanos ≤ b.nanos))
instance (a b : DateTime) : Decidable (a < b) := inferInstanceAs (Decidable (a.nanos < b.nanos))

theorem le_iff {a b : DateTime} : a ≤ b ↔ a.nanos ≤ b.nanos := Iff.rfl
theorem lt_iff {a b : DateTime} : a < b ↔ a.nanos < b.nanos := Iff.rfl

/-- `n` seconds later (earlier for a negative `n`). -/
def addSeconds (t : DateTime) (n : Int) : DateTime := ⟨t.nanos + n * 1000000000⟩

/-- Nanoseconds in a day. -/
def dayNanos : Int := 86400000000000

/-- The day number of an instant. -/
def day (t : DateTime) : Int := Calendar.epochDay + t.nanos / dayNanos

/-- The second of the day. -/
def secondOfDay (t : DateTime) : Nat := (t.nanos % dayNanos / 1000000000).toNat

/-- The nanoseconds within the second. -/
def subsecond (t : DateTime) : Nat := (t.nanos % 1000000000).toNat

/-- The date of an instant. -/
def date (t : DateTime) : Calendar.Date := Calendar.civil t.day

/-- Month, day, hour, minute and second: what follows the year down to the second. -/
def clock (t : DateTime) : List Nat :=
  [t.date.month, t.date.day, t.secondOfDay / 3600, t.secondOfDay / 60 % 60, t.secondOfDay % 60]

/-- Widths and separators of the fields after the year. -/
def clockFormat : List (Nat × List Char) :=
  [(2, ['-']), (2, ['T']), (2, [':']), (2, [':']), (2, [])]

/-- The year: four digits, or with its sign outside 0 to 9999. -/
def yearText (y : Int) : List Char :=
  if 0 ≤ y ∧ y ≤ 9999 then pad 4 y.toNat
  else (if y < 0 then '-' else '+') :: (if y.natAbs < 10000 then pad 4 y.natAbs
    else y.natAbs.repr.toList)

/-- The text of an instant, character by character. -/
def chars (t : DateTime) : List Char :=
  yearText t.date.year ++ '-' :: fields clockFormat t.clock
    (fraction t.subsecond ++ ['+', '0', '0', ':', '0', '0'])

/-- The RFC 3339 text of an instant. -/
def toRfc3339 (t : DateTime) : String := String.ofList t.chars

/-- The years whose texts are ordered. -/
def InRange (t : DateTime) : Prop := 0 ≤ t.date.year ∧ t.date.year ≤ 9999

instance (t : DateTime) : Decidable t.InRange := inferInstanceAs (Decidable (_ ∧ _))

/-! ## 5. Texts are ordered as instants are -/

theorem fits_clock (t : DateTime) : Fits clockFormat t.clock := by
  have hc := Calendar.civil_bound t.day
  have hs : t.secondOfDay < 86400 := by
    unfold secondOfDay dayNanos
    omega
  refine ⟨?_, ?_, ?_, ?_, ?_, trivial⟩
  · exact Nat.lt_of_le_of_lt hc.1 (by decide)
  · exact Nat.lt_of_le_of_lt hc.2 (by decide)
  all_goals omega

/-- An earlier instant is earlier in the year, in the clock, or in the second. -/
theorem earlier_cases {a b : DateTime} (h : a < b) :
    a.date.year < b.date.year ∨ (a.date.year = b.date.year ∧
      (a.clock < b.clock ∨ (a.clock = b.clock ∧ a.subsecond < b.subsecond))) := by
  rw [lt_iff] at h
  rcases Int.lt_or_eq_of_le (show a.day ≤ b.day by unfold day dayNanos; omega) with hd | hd
  · rcases Calendar.civil_lt hd with hy | ⟨hy, hm | ⟨hm, hdd⟩⟩
    · exact Or.inl hy
    · exact Or.inr ⟨hy, Or.inl (List.cons_lt_cons_iff.mpr (Or.inl hm))⟩
    · exact Or.inr ⟨hy, Or.inl (List.cons_lt_cons_iff.mpr (Or.inr ⟨hm,
        List.cons_lt_cons_iff.mpr (Or.inl hdd)⟩))⟩
  · have hdate : a.date = b.date := by rw [date, date, hd]
    refine Or.inr ⟨by rw [hdate], ?_⟩
    have hsec : a.secondOfDay < b.secondOfDay ∨
        (a.secondOfDay = b.secondOfDay ∧ a.subsecond < b.subsecond) := by
      unfold day at hd
      unfold secondOfDay subsecond
      unfold dayNanos at *
      omega
    rcases hsec with hs | ⟨hs, hn⟩
    · left
      simp only [clock, hdate, List.cons_lt_cons_iff, Nat.lt_irrefl, false_or, true_and]
      omega
    · right
      exact ⟨by rw [clock, clock, hdate, hs], hn⟩

theorem le_addSeconds {t : DateTime} {n : Int} : t ≤ t.addSeconds n ↔ 0 ≤ n := by
  rw [le_iff]
  show t.nanos ≤ t.nanos + n * 1000000000 ↔ _
  omega

theorem addSeconds_le {t : DateTime} {m n : Int} : t.addSeconds m ≤ t.addSeconds n ↔ m ≤ n := by
  rw [le_iff]
  show t.nanos + m * 1000000000 ≤ t.nanos + n * 1000000000 ↔ _
  omega

theorem subsecond_lt (t : DateTime) : t.subsecond < 1000000000 := by
  unfold subsecond
  omega

theorem yearText_inRange {t : DateTime} (h : t.InRange) :
    yearText t.date.year = pad 4 t.date.year.toNat := if_pos h

theorem year_mono {a b : DateTime} (h : a ≤ b) : a.date.year ≤ b.date.year := by
  refine Calendar.yearOf_mono (Int.add_le_add_left ?_ _)
  exact Int.ediv_le_ediv (by decide) h

/-- What lies between two instants in range is in range. -/
theorem inRange_between {a b c : DateTime} (ha : a.InRange) (hc : c.InRange) (hab : a ≤ b)
    (hbc : b ≤ c) : b.InRange :=
  ⟨Int.le_trans ha.1 (year_mono hab), Int.le_trans (year_mono hbc) hc.2⟩

/-- The instants in range are those from 0000-01-01 to the end of 9999-12-31. -/
theorem nanos_of_inRange {t : DateTime} (h : t.InRange) :
    -62167219200000000000 ≤ t.nanos ∧ t.nanos < 253402300800000000000 := by
  constructor
  · refine Int.not_lt.mp fun hlt => ?_
    have hle : t ≤ ⟨-62167219200000000001⟩ := Int.le_sub_one_of_lt hlt
    have hy := Int.le_trans h.1 (year_mono hle)
    exact absurd hy (by decide)
  · refine Int.not_le.mp fun hge => ?_
    have hle : (⟨253402300800000000000⟩ : DateTime) ≤ t := hge
    have hy := Int.le_trans (year_mono hle) h.2
    exact absurd hy (by decide)

/-- **An earlier instant has the smaller text**, in years 0 to 9999. -/
theorem text_lt {a b : DateTime} (ha : a.InRange) (hb : b.InRange) (h : a < b) :
    a.toRfc3339 < b.toRfc3339 := by
  rw [toRfc3339, toRfc3339, String.lt_iff, String.toList_ofList, String.toList_ofList, chars,
    chars, yearText_inRange ha, yearText_inRange hb]
  rcases earlier_cases h with hy | ⟨hy, hc | ⟨hc, hn⟩⟩
  · refine append_lt_append _ _ (by rw [length_pad, length_pad]) (pad_lt ?_ ?_)
    · have := ha.1
      omega
    · have := hb.2
      omega
  · rw [hy]
    refine append_lt_left _ (List.cons_lt_cons_iff.mpr (Or.inr ⟨rfl, ?_⟩))
    exact fields_lt _ _ (fits_clock a) (fits_clock b) hc
  · rw [hy, hc]
    refine append_lt_left _ (List.cons_lt_cons_iff.mpr (Or.inr ⟨rfl, ?_⟩))
    exact fields_tail_lt _ _ (fraction_lt hn (subsecond_lt b) _ _)

/-- Comparing texts is comparing instants. -/
theorem text_lt_iff {a b : DateTime} (ha : a.InRange) (hb : b.InRange) :
    a.toRfc3339 < b.toRfc3339 ↔ a < b := by
  constructor
  · intro h
    rcases Int.lt_trichotomy a.nanos b.nanos with hlt | heq | hgt
    · exact hlt
    · rw [DateTime.ext heq] at h
      exact absurd h (lt_irrefl _)
    · exact absurd (text_lt hb ha hgt) (lt_asymm h)
  · exact text_lt ha hb

/-- Comparing texts is comparing instants. -/
theorem text_le_iff {a b : DateTime} (ha : a.InRange) (hb : b.InRange) :
    a.toRfc3339 ≤ b.toRfc3339 ↔ a ≤ b := by
  rw [← not_lt, text_lt_iff hb ha, lt_iff, le_iff, Int.not_lt]

/-- **Outside these years every text is too small**: its year starts with a sign. -/
theorem text_lt_of_signed {a b : DateTime} (ha : ¬ a.InRange) (hb : b.InRange) :
    a.toRfc3339 < b.toRfc3339 := by
  have hyear : yearText a.date.year =
      (if a.date.year < 0 then '-' else '+') :: (if a.date.year.natAbs < 10000 then
        pad 4 a.date.year.natAbs else a.date.year.natAbs.repr.toList) := if_neg ha
  rw [toRfc3339, toRfc3339, String.lt_iff, String.toList_ofList, String.toList_ofList, chars,
    chars, yearText_inRange hb, hyear, List.cons_append]
  refine sign_lt_pad ?_ (by decide) _ _ _
  split
  · exact .inr rfl
  · exact .inl rfl

/-- The text of an instant of these years is no other's. -/
theorem text_inj {a b : DateTime} (hb : b.InRange) (h : a.toRfc3339 = b.toRfc3339) : a = b := by
  by_cases ha : a.InRange
  · rcases Int.lt_trichotomy a.nanos b.nanos with hlt | heq | hgt
    · exact absurd (h ▸ text_lt ha hb hlt) (lt_irrefl _)
    · exact DateTime.ext heq
    · exact absurd (h ▸ text_lt hb ha hgt) (lt_irrefl _)
  · exact absurd (h ▸ text_lt_of_signed ha hb) (lt_irrefl _)

example : (DateTime.mk 1767225600000000000).toRfc3339 = "2026-01-01T00:00:00+00:00" := by decide
example : (DateTime.mk 1767225600500000000).toRfc3339 = "2026-01-01T00:00:00.500+00:00" := by
  decide

end DateTime

end Foundation
