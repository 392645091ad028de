/-
  File:      Beacon/Foundation/Calendar.lean
  Subject:   Day numbers as calendar dates, in the proleptic Gregorian calendar.

  Days are counted from 1 January of year 0. The year of a day is found by an estimate that is
  at most one year off and then corrected; the month by walking the month lengths. What a
  printed timestamp needs of this is one fact: dates are ordered as days are.

  * `yearOf_spec` -- a day lies in the year it is given;
  * `civil_lt` -- **an earlier day has a lexicographically smaller date**.
-/
import Mathlib.Data.List.Basic
import Mathlib.Algebra.Order.Ring.Int

namespace Foundation

namespace Calendar

/-- Days before 1 January of year `y`. -/
def daysBeforeYear (y : Int) : Int := 365 * y + (y + 3) / 4 - (y + 99) / 100 + (y + 399) / 400

/-- A first guess at the year of day `d`, at most one off. -/
def yearGuess (d : Int) : Int := 400 * d / 146097

/-- The year of day `d`. -/
def yearOf (d : Int) : Int :=
  if d < daysBeforeYear (yearGuess d) then yearGuess d - 1
  else if daysBeforeYear (yearGuess d + 1) ≤ d then yearGuess d + 1
  else yearGuess d

theorem yearGuess_low (d : Int) : daysBeforeYear (yearGuess d - 1) ≤ d := by
  unfold daysBeforeYear yearGuess
  omega

theorem yearGuess_high (d : Int) : d < daysBeforeYear (yearGuess d + 2) := by
  unfold daysBeforeYear yearGuess
  omega

/-- **A day lies in its year.** -/
theorem yearOf_spec (d : Int) : daysBeforeYear (yearOf d) ≤ d ∧ d < daysBeforeYear (yearOf d + 1) := by
  have hlow := yearGuess_low d
  have hhigh := yearGuess_high d
  unfold yearOf
  split
  · rename_i h
    exact ⟨hlow, by rwa [Int.sub_add_cancel]⟩
  · split
    · rename_i h
      exact ⟨h, by rwa [Int.add_assoc]⟩
    · rename_i h1 h2
      exact ⟨Int.not_lt.mp h1, Int.not_le.mp h2⟩

theorem daysBeforeYear_mono {y z : Int} (h : y ≤ z) : daysBeforeYear y ≤ daysBeforeYear z := by
  unfold daysBeforeYear
  omega

theorem yearOf_mono {d e : Int} (h : d ≤ e) : yearOf d ≤ yearOf e := by
  refine Int.not_lt.mp fun hlt => ?_
  have h1 := daysBeforeYear_mono (show yearOf e + 1 ≤ yearOf d from hlt)
  have h2 := (yearOf_spec e).2
  have h3 := (yearOf_spec d).1
  omega

/-- The lengths of the months of a year of `n` days. -/
def monthLengths (n : Int) : List Nat :=
  [31, if n = 366 then 29 else 28, 31, 30, 31, 30, 31, 31, 30, 31, 30, 31]

/-- The month (from `m` on) and the day of the month of the `d`th day. -/
def monthDay : Nat → List Nat → Nat → Nat × Nat
  | m, [], d => (m, d + 1)
  | m, l :: ls, d => if d < l then (m, d + 1) else monthDay (m + 1) ls (d - l)

theorem monthDay_ge (m : Nat) (ls : List Nat) (d : Nat) : m ≤ (monthDay m ls d).1 := by
  induction ls generalizing m d with
  | nil => exact Nat.le_refl m
  | cons l ls ih =>
    unfold monthDay
    split
    · exact Nat.le_refl m
    · exact Nat.le_of_succ_le (ih (m + 1) (d - l))

/-- A later day of the year is in a later month, or later in the same one. -/
theorem monthDay_lt (m : Nat) (ls : List Nat) {d e : Nat} (h : d < e) :
    (monthDay m ls d).1 < (monthDay m ls e).1 ∨
      ((monthDay m ls d).1 = (monthDay m ls e).1 ∧ (monthDay m ls d).2 < (monthDay m ls e).2) := by
  induction ls generalizing m d e with
  | nil => exact Or.inr ⟨rfl, Nat.succ_lt_succ h⟩
  | cons l ls ih =>
    unfold monthDay
    by_cases he : e < l
    · rw [if_pos (Nat.lt_trans h he), if_pos he]
      exact Or.inr ⟨rfl, Nat.succ_lt_succ h⟩
    · by_cases hd : d < l
      · rw [if_pos hd, if_neg he]
        exact Or.inl (monthDay_ge (m + 1) ls (e - l))
      · rw [if_neg hd, if_neg he]
        exact ih (m + 1) (by omega)

/-- Within the listed months, month and day are bounded. -/
theorem monthDay_bound {b : Nat} (m : Nat) (ls : List Nat) (d : Nat) (hls : ∀ l ∈ ls, l ≤ b)
    (hd : d < ls.sum) :
    (monthDay m ls d).1 < m + ls.length ∧ 1 ≤ (monthDay m ls d).2 ∧ (monthDay m ls d).2 ≤ b := by
  induction ls generalizing m d with
  | nil => exact absurd hd (Nat.not_lt_zero d)
  | cons l ls ih =>
    rw [List.sum_cons] at hd
    have hl := hls l List.mem_cons_self
    unfold monthDay
    split
    · rename_i h
      refine ⟨?_, by omega, by omega⟩
      rw [List.length_cons]
      omega
    · have h := ih (m + 1) (d - l) (fun x hx => hls x (List.mem_cons_of_mem l hx)) (by omega)
      rw [List.length_cons]
      omega

/-- A date: year, month from 1, day from 1. -/
structure Date where
  year : Int
  month : Nat
  day : Nat
  deriving DecidableEq, Repr

/-- The date of day `d`. -/
def civil (d : Int) : Date :=
  let y := yearOf d
  let lengths := monthLengths (daysBeforeYear (y + 1) - daysBeforeYear y)
  let md := monthDay 1 lengths (d - daysBeforeYear y).toNat
  { year := y, month := md.1, day := md.2 }

/-- **Dates are ordered as days are.** -/
theorem civil_lt {d e : Int} (h : d < e) :
    (civil d).year < (civil e).year ∨ ((civil d).year = (civil e).year ∧
      ((civil d).month < (civil e).month ∨
        ((civil d).month = (civil e).month ∧ (civil d).day < (civil e).day))) := by
  rcases Int.lt_or_eq_of_le (yearOf_mono (Int.le_of_lt h)) with hy | hy
  · exact Or.inl hy
  · refine Or.inr ⟨hy, ?_⟩
    have hd := (yearOf_spec d).1
    have hlt : (d - daysBeforeYear (yearOf d)).toNat < (e - daysBeforeYear (yearOf d)).toNat := by
      omega
    simp only [civil, ← hy]
    exact monthDay_lt 1 _ hlt

/-- A year has 365 or 366 days. -/
theorem yearLength (y : Int) :
    daysBeforeYear (y + 1) - daysBeforeYear y = 365 ∨
      daysBeforeYear (y + 1) - daysBeforeYear y = 366 := by
  unfold daysBeforeYear
  omega

/-- Months run from 1 to 12, days from 1 to 31. -/
theorem civil_bound (d : Int) : (civil d).month ≤ 12 ∧ (civil d).day ≤ 31 := by
  have hspec := yearOf_spec d
  have hb : (d - daysBeforeYear (yearOf d)).toNat <
      (monthLengths (daysBeforeYear (yearOf d + 1) - daysBeforeYear (yearOf d))).sum := by
    rcases yearLength (yearOf d) with hl | hl <;> rw [hl]
    · show _ < 365
      omega
    · show _ < 366
      omega
  have h := monthDay_bound (b := 31) 1 _ _ (fun l hl => ?_) hb
  · exact ⟨Nat.le_of_lt_succ h.1, h.2.2⟩
  · rcases yearLength (yearOf d) with hy | hy <;> rw [hy] at hl <;> revert l <;> decide

/-- The day of 1 January 1970. -/
def epochDay : Int := 719528

example : civil epochDay = ⟨1970, 1, 1⟩ := by decide
example : civil (epochDay + 11016) = ⟨2000, 2, 29⟩ := by decide

end Calendar

end Foundation
