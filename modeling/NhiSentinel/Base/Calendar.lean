import NhiSentinel.Base.DateTime

/-!
# The calendar

What a clock in UTC shows, and the instants that date-times are ordered by, agree. The proof
follows the years of an era of 400, which begin in March.
-/

namespace NhiSentinel.Base.DateTime
open Python

private theorem leap_days (year : Nat) (h : 0 < year) :
    (if isLeap year = true then 1 else 0) + year / 100 + (year - 1) / 4 + (year - 1) / 400 =
      year / 4 + year / 400 + (year - 1) / 100 := by
  rw [isLeap]
  by_cases h₄ : year % 4 = 0
  · by_cases h₁ : year % 100 = 0
    · by_cases h₀ : year % 400 = 0
      · simp [h₄, h₁, h₀]
        omega
      · simp [h₄, h₁, h₀]
        omega
    · simp [h₄, h₁]
      omega
  · simp [h₄]
    omega

private theorem daysBefore_eq {mp : Nat} (h : mp < 12) (year : Nat) :
    daysBefore year (if mp < 10 then mp + 3 else mp - 9) =
      if mp < 10 then (153 * mp + 2) / 5 + 59 + (if isLeap year = true then 1 else 0)
      else (153 * mp + 2) / 5 - 306 := by
  have hm : ∀ mp < 12, ∀ leap : Bool,
      ([0, 31, 59, 90, 120, 151, 181, 212, 243, 273, 304, 334].getD
        ((if mp < 10 then mp + 3 else mp - 9) - 1) 0) +
        (if 2 < (if mp < 10 then mp + 3 else mp - 9) ∧ leap = true then 1 else 0) =
      if mp < 10 then (153 * mp + 2) / 5 + 59 + (if leap = true then 1 else 0)
      else (153 * mp + 2) / 5 - 306 := by
    decide
  exact hm mp h (isLeap year)

private theorem ordinal_march (era doy : Nat) {yoe mp : Nat} (hera : 0 < era) (hyoe : yoe < 400)
    (hmp : mp = (5 * doy + 2) / 153) (hdoy : doy ≤ 365) (t : DateTime)
    (hyear : t.year = yoe + era * 400 +
      if (if mp < 10 then mp + 3 else mp - 9) ≤ 2 then 1 else 0)
    (hmonth : t.month = if mp < 10 then mp + 3 else mp - 9)
    (hday : t.day = doy - (153 * mp + 2) / 5 + 1) :
    t.ordinal + 305 = era * 146097 + daysOfEra yoe + doy := by
  have h12 : mp < 12 := by omega
  have hle : (153 * mp + 2) / 5 ≤ doy := by omega
  -- the leap days of whole eras
  have h₄ : (yoe + era * 400) / 4 = yoe / 4 + era * 100 := by omega
  have h₁ : (yoe + era * 400) / 100 = yoe / 100 + era * 4 := by omega
  have h₀ : (yoe + era * 400) / 400 = era := by omega
  have hlt : yoe / 100 ≤ yoe / 4 := Nat.div_le_div_left (by decide) (by decide)
  rw [ordinal, hmonth, hday, daysBefore_eq h12, daysOfEra]
  by_cases h : mp < 10
  · have hy : t.year = yoe + era * 400 := by
      rw [hyear, if_pos h, if_neg (by omega), Nat.add_zero]
    have hl := leap_days t.year (by omega)
    have hlt' : (t.year - 1) / 100 ≤ (t.year - 1) / 4 :=
      Nat.div_le_div_left (by decide) (by decide)
    rw [if_pos h]
    rw [hy, h₄, h₁, h₀] at hl
    rw [hy] at hlt' ⊢
    generalize (yoe + era * 400 - 1) / 4 = a at hl hlt' ⊢
    generalize (yoe + era * 400 - 1) / 100 = b at hl hlt' ⊢
    generalize (yoe + era * 400 - 1) / 400 = c at hl ⊢
    omega
  · have hy : t.year - 1 = yoe + era * 400 := by
      rw [hyear, if_neg h, if_pos (by omega), Nat.add_sub_cancel]
    rw [if_neg h, hy, h₄, h₁, h₀]
    omega

/-- A clock in UTC shows the day that it is. -/
theorem ordinal_utc (n : Nat) : (utc n).ordinal = n / 86400000000 + 719163 := by
  have hdoe : (n / 86400000000 + 719468) % 146097 < 146097 := Nat.mod_lt _ (by decide)
  obtain ⟨hyoe, hlow, hhigh⟩ := day_in_year hdoe
  have h := ordinal_march ((n / 86400000000 + 719468) / 146097)
    ((n / 86400000000 + 719468) % 146097 -
      daysOfEra (yearOfEra ((n / 86400000000 + 719468) % 146097)))
    (by omega) hyoe rfl (by omega) (utc n) rfl rfl rfl
  omega

/-- The instant of what a clock in UTC shows. -/
theorem instant_utc (n : Nat) : (utc n).instant = n + 62135683200000000 := by
  have h := ordinal_utc n
  rw [instant, h]
  show (((((n / 86400000000 + 719163 : Nat) : Int) * 24 + (n / 1000000 % 86400 / 3600 : Nat)) * 60 +
    (n / 1000000 % 86400 / 60 % 60 : Nat)) * 60 + (n / 1000000 % 86400 % 60 : Nat)) * 1000000 +
      (n % 1000000 : Nat) - 0 = _
  omega

/-! ### Before 1970 -/

/-- A point in time in UTC, given in microseconds since 1970 and not before the year 1. The
calendar repeats after 400 years. -/
def atMicros (t : Int) : DateTime :=
  let shown := utc (t + 63113904000000000).toNat
  { shown with year := shown.year - 2000 }

example : atMicros datetimeMin = ⟨1, 1, 1, 0, 0, 0, 0, some 0⟩ := by decide

/-- From the year 2001 on a date can be moved back by 2000 years. -/
theorem ordinal_sub_eras {t : DateTime} (h : 2001 ≤ t.year) :
    ({ t with year := t.year - 2000 } : DateTime).ordinal + 730485 = t.ordinal := by
  have hl : isLeap (t.year - 2000) = isLeap t.year := by
    have h₄ : (t.year - 2000) % 4 = t.year % 4 := by omega
    have h₁ : (t.year - 2000) % 100 = t.year % 100 := by omega
    have h₀ : (t.year - 2000) % 400 = t.year % 400 := by omega
    rw [isLeap, isLeap, h₄, h₁, h₀]
  simp only [ordinal, daysBefore, hl]
  omega

private theorem year_utc {n : Nat} (h : 978307200000000 ≤ n) : 2001 ≤ (utc n).year := by
  have hdoe : (n / 86400000000 + 719468) % 146097 < 146097 := Nat.mod_lt _ (by decide)
  obtain ⟨hyoe, hlow, hhigh⟩ := day_in_year hdoe
  obtain ⟨yoe, hy⟩ : ∃ yoe, yoe = yearOfEra ((n / 86400000000 + 719468) % 146097) := ⟨_, rfl⟩
  have hyear : (utc n).year = yoe + (n / 86400000000 + 719468) / 146097 * 400 +
      if (if (5 * ((n / 86400000000 + 719468) % 146097 - daysOfEra yoe) + 2) / 153 < 10 then
        (5 * ((n / 86400000000 + 719468) % 146097 - daysOfEra yoe) + 2) / 153 + 3
        else (5 * ((n / 86400000000 + 719468) % 146097 - daysOfEra yoe) + 2) / 153 - 9) ≤ 2
      then 1 else 0 := by
    rw [hy]
    rfl
  rw [← hy, daysOfEra] at hlow hhigh
  rw [hyear, daysOfEra]
  split <;> split <;> omega

/-- The instant of a point in time. -/
theorem instant_atMicros {t : Int} (h : datetimeMin ≤ t) :
    (atMicros t).instant = t + 62135683200000000 := by
  have hn : (978307200000000 : Int) ≤ t + 63113904000000000 := by
    rw [datetimeMin] at h
    omega
  have hi := instant_utc (t + 63113904000000000).toNat
  have ho := ordinal_sub_eras (year_utc (n := (t + 63113904000000000).toNat) (by omega))
  rw [instant] at hi
  rw [instant]
  show (((((atMicros t).ordinal * 24 + (utc (t + 63113904000000000).toNat).hour) * 60 +
    (utc (t + 63113904000000000).toNat).minute) * 60 +
      (utc (t + 63113904000000000).toNat).second : Nat) : Int) * 1000000 +
        (utc (t + 63113904000000000).toNat).microsecond -
          (utc (t + 63113904000000000).toNat).utcoffset.getD 0 = _
  have ho' : (atMicros t).ordinal + 730485 = (utc (t + 63113904000000000).toNat).ordinal := ho
  omega

/-- The hour of a point in time. -/
theorem hour_atMicros {t : Int} (h : datetimeMin ≤ t) :
    ((atMicros t).hour : Int) = t % 86400000000 / 3600000000 := by
  rw [datetimeMin] at h
  show (((t + 63113904000000000).toNat / 1000000 % 86400 / 3600 : Nat) : Int) = _
  omega

end NhiSentinel.Base.DateTime
