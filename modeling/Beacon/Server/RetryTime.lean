/-
  File:      Beacon/Server/RetryTime.lean
  Subject:   `retry_time` over all its arguments (`notification.rs`).

  The delay saturates at the largest `u64` and is cast to an `i64`, so a large one becomes a
  negative number of seconds; `Duration::seconds` and the addition panic where the result has no
  representation. Nothing between the command line and this function bounds the base delay.

  * `retryAfter_of_representable`, `representable_of_retryAfter` -- what the arithmetic gives;
  * `retryTime_safe_iff` -- **where the retry time is what it should be**: no panic, not before
    `now`, not before that of fewer attempts or a smaller delay;
  * `retry_before_now` -- the largest delay is retried a second ago.
-/
import Beacon.Server.Queue

namespace Beacon

open Foundation

/-- The delay before it is cut to a `u64`. -/
def fullDelay (attempts : UInt32) (baseSeconds : UInt64) : Nat :=
  baseSeconds.toNat * 2 ^ min (attempts.toNat - 1) 10

/-- The instant of the next attempt, for the arguments the server has. -/
def retryAfter (now : DateTime) (attempts : UInt32) (baseSeconds : UInt64) : Option DateTime :=
  retryInstant now attempts.toNat baseSeconds.toNat

/-- The retry time is an instant, not before `now`, and not before the one of fewer attempts or a
    smaller delay. -/
structure SafeRetry (now : DateTime) (attempts : UInt32) (baseSeconds : UInt64) : Prop where
  returns : ∃ t, retryAfter now attempts baseSeconds = some t ∧
    retryTime now attempts.toNat baseSeconds.toNat = some t.toRfc3339
  later : ∀ t, retryAfter now attempts baseSeconds = some t → now ≤ t
  monotone : ∀ k b, k ≤ attempts → b ≤ baseSeconds → ∀ t', retryAfter now k b = some t' →
    ∀ t, retryAfter now attempts baseSeconds = some t → t' ≤ t

/-! ## 1. Representable instants -/

/-- The nanoseconds of the years a `DateTime<Utc>` can hold. -/
theorem nanos_of_chronoYears {t : DateTime} (h : chronoYears t = true) :
    -8334601228800000000000 ≤ t.nanos ∧ t.nanos < 8210266876800000000000 := by
  unfold chronoYears at h
  rw [Bool.and_eq_true, decide_eq_true_eq, decide_eq_true_eq] at h
  constructor
  · refine Int.not_lt.mp fun hlt => ?_
    have hle : t ≤ ⟨-8334601228800000000001⟩ := Int.le_sub_one_of_lt hlt
    exact absurd (Int.le_trans h.1 (DateTime.year_mono hle)) (by decide)
  · refine Int.not_le.mp fun hge => ?_
    have hle : (⟨8210266876800000000000⟩ : DateTime) ≤ t := hge
    exact absurd (Int.le_trans (DateTime.year_mono hle) h.2) (by decide)

/-! ## 2. The arithmetic -/

theorem fullDelay_mono {k k' : UInt32} {b b' : UInt64} (hk : k' ≤ k) (hb : b' ≤ b) :
    fullDelay k' b' ≤ fullDelay k b := by
  have hk' : k'.toNat ≤ k.toNat := hk
  have hexp : min (k'.toNat - 1) 10 ≤ min (k.toNat - 1) 10 := by omega
  exact Nat.mul_le_mul hb (Nat.pow_le_pow_right (by decide) hexp)

section Arithmetic

variable {now t : DateTime} {k : UInt32} {b : UInt64}

/-- **A representable sum is what is computed**: a delay that leads to a representable instant is
    far below the bounds of the arithmetic. -/
theorem chronoAddSeconds_of_years {n : Nat} (hnow : chronoYears now = true)
    (h : chronoYears (now.addSeconds n) = true) : n < 16544868105600 ∧
      chronoAddSeconds now (asI64 n) = some (now.addSeconds n) := by
  have hlow := (nanos_of_chronoYears hnow).1
  have hhigh := (nanos_of_chronoYears h).2
  have hsum : now.nanos + (n : Int) * 1000000000 < 8210266876800000000000 := hhigh
  have hlt : n < 16544868105600 := by omega
  have hcast : asI64 n = n := if_pos (by omega)
  rw [hcast]
  exact ⟨hlt, if_pos ⟨by omega, h⟩⟩

theorem retryAfter_of_representable (hnow : chronoYears now = true)
    (h : chronoYears (now.addSeconds (fullDelay k b)) = true) :
    retryAfter now k b = some (now.addSeconds (fullDelay k b)) := by
  obtain ⟨hlt, hsum⟩ := chronoAddSeconds_of_years hnow h
  have hdelay : retryDelay k.toNat b.toNat = fullDelay k b := Nat.min_eq_left (by
    have hsmall : fullDelay k b ≤ 2 ^ 64 - 1 := by omega
    exact hsmall)
  unfold retryAfter retryInstant
  rw [hdelay]
  exact hsum

/-- **What is computed and not before `now` is the sum.** -/
theorem representable_of_retryAfter (h : retryAfter now k b = some t) (hle : now ≤ t) :
    t = now.addSeconds (fullDelay k b) ∧ chronoYears t = true := by
  unfold retryAfter retryInstant chronoAddSeconds at h
  split at h
  · rename_i hbounds
    cases h
    refine ⟨?_, hbounds.2⟩
    have hnonneg := DateTime.le_addSeconds.mp hle
    -- a delay of 2^63 and more is cast to a negative number
    have hsmall : retryDelay k.toNat b.toNat < 2 ^ 63 := by
      refine Nat.not_le.mp fun hge => ?_
      have hcap : retryDelay k.toNat b.toNat ≤ 2 ^ 64 - 1 := Nat.min_le_right _ _
      have hneg : asI64 (retryDelay k.toNat b.toNat) =
          (retryDelay k.toNat b.toNat : Int) - 2 ^ 64 := if_neg (Nat.not_lt.mpr hge)
      omega
    have hcast : asI64 (retryDelay k.toNat b.toNat) = retryDelay k.toNat b.toNat := if_pos hsmall
    have hfull : retryDelay k.toNat b.toNat = fullDelay k b := by
      have hmin : retryDelay k.toNat b.toNat = min (fullDelay k b) (2 ^ 64 - 1) := rfl
      omega
    rw [hcast, hfull]
  · cases h

end Arithmetic

/-! ## 3. Where the retry time is what it should be -/

/-- **The retry time is safe where the sum of `now` and the delay has a representation.** Where it
    has none the function panics, or the cast wraps and it returns an instant before `now`. -/
theorem retryTime_safe_iff (now : DateTime) (hnow : chronoYears now = true) (attempts : UInt32)
    (baseSeconds : UInt64) : SafeRetry now attempts baseSeconds ↔
      chronoYears (now.addSeconds (fullDelay attempts baseSeconds)) = true := by
  constructor
  · intro h
    obtain ⟨t, ht, _⟩ := h.returns
    obtain ⟨rfl, hyears⟩ := representable_of_retryAfter ht (h.later t ht)
    exact hyears
  · intro h
    have hsum := retryAfter_of_representable hnow h
    refine ⟨⟨_, hsum, congrArg (Option.map DateTime.toRfc3339) hsum⟩, ?_, ?_⟩
    · intro t ht
      rw [hsum] at ht
      cases ht
      exact DateTime.le_addSeconds.mpr (Int.natCast_nonneg _)
    · intro k b hk hb t' ht' t ht
      rw [hsum] at ht
      cases ht
      have hmono := fullDelay_mono hk hb
      have hlt := (chronoAddSeconds_of_years hnow h).1
      -- the smaller delay lies between two representable instants
      have hyears : chronoYears (now.addSeconds (fullDelay k b)) = true := by
        unfold chronoYears at hnow h ⊢
        rw [Bool.and_eq_true, decide_eq_true_eq, decide_eq_true_eq] at hnow h ⊢
        constructor
        · exact Int.le_trans hnow.1
            (DateTime.year_mono (DateTime.le_addSeconds.mpr (Int.natCast_nonneg _)))
        · exact Int.le_trans (DateTime.year_mono (DateTime.addSeconds_le.mpr (by omega))) h.2
      rw [retryAfter_of_representable hnow hyears] at ht'
      cases ht'
      exact DateTime.addSeconds_le.mpr (by omega)

/-- The theorem at the default delay. -/
theorem retryTime_safe_iff_default : SafeRetry ⟨1767225600000000000⟩ 1 30 :=
  (retryTime_safe_iff ⟨1767225600000000000⟩ (by decide) 1 30).mpr (by decide)

/-- The largest delay a `u64` holds is a retry one second ago; half of it is a panic. -/
theorem retry_before_now :
    retryAfter ⟨1767225600000000000⟩ 1 18446744073709551615 = some ⟨1767225599000000000⟩ ∧
      retryAfter ⟨1767225600000000000⟩ 1 9223372036854775808 = none ∧
      ¬ SafeRetry ⟨1767225600000000000⟩ 1 18446744073709551615 := by
  have hago : retryAfter ⟨1767225600000000000⟩ 1 18446744073709551615 =
      some ⟨1767225599000000000⟩ := by decide
  exact ⟨hago, by decide, fun h => absurd (h.later _ hago) (by decide)⟩

end Beacon
