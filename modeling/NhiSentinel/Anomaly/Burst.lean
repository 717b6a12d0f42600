import NhiSentinel.Anomaly.Service
import NhiSentinel.Base.Rounding
import Mathlib.Data.Rat.Floor
import Mathlib.Tactic.Linarith

/-!
# The severity of a burst

`BurstDetector` of `anomaly/scorer.py` with any parameters: the calls that change its count, and
the score between no burst and a full one. The score is a fraction of the way from the baseline to
the threshold, and there is no such way where the two coincide.
-/

namespace NhiSentinel.Anomaly
open NhiSentinel.Base

private theorem roundFour_eq (x : Rat) : roundFour x = roundEven (x * 10000) / 10000 := by
  have hf : (x * 10000).floor = ⌊x * 10000⌋ := rfl
  rw [roundFour, roundEven]
  simp only [hf]
  split
  · rfl
  · rw [Int.cast_add, Int.cast_one]

private theorem roundFour_mono : Monotone roundFour := by
  intro x y h
  rw [roundFour_eq, roundFour_eq]
  have hr : roundEven (x * 10000) ≤ roundEven (y * 10000) :=
    roundEven_mono (mul_le_mul_of_nonneg_right h (by decide))
  exact div_le_div_of_nonneg_right (Int.cast_le.mpr hr) (by decide)

private theorem roundFour_zero : roundFour 0 = 0 := by decide +kernel

private theorem roundFour_one : roundFour 1 = 1 := by decide +kernel

namespace BurstDetector

/-! ### Calls -/

/-- `record_many`, `scorer.py:151`, of a number that is not negative. -/
def recordMany (burster : BurstDetector) (n : Nat) : BurstDetector :=
  { burster with count := burster.count + n }

end BurstDetector

/-- The calls that change the count of a detector. -/
inductive BurstCall where
  | record
  | recordMany (n : Nat)
  | reset

namespace BurstDetector

/-- A call. -/
def apply (burster : BurstDetector) : BurstCall → BurstDetector
  | .record => burster.record
  | .recordMany n => burster.recordMany n
  | .reset => burster.reset

/-- A detector after calls. -/
def run (burster : BurstDetector) (calls : List BurstCall) : BurstDetector :=
  calls.foldl apply burster

end BurstDetector

/-- What a detector may be constructed with. -/
structure BurstParams where
  baseline : Rat
  threshold : Rat
  baseline_nonneg : 0 ≤ baseline
  one_le_threshold : 1 ≤ threshold

namespace BurstParams
variable (p : BurstParams)

/-- The detector with a count. -/
def detector (count : Nat) : BurstDetector := ⟨p.baseline, p.threshold, count⟩

/-- The count after calls to a new detector. -/
def countAfter (calls : List BurstCall) : Nat := ((p.detector 0).run calls).count

/-! ### The score -/

/-- What the score of a detector is to be. -/
structure Scores (count : Nat) (score : Rat) : Prop where
  value : (p.detector count).burstScore = .ok score
  nonneg : 0 ≤ score
  le_one : score ≤ 1
  calm : count ≤ p.baseline → score = 0
  burst : (p.detector count).isBurst = true → score = 1
  mono : ∀ n ≤ count, ∃ lower, (p.detector n).burstScore = .ok lower ∧ lower ≤ score

variable {p}

/-- The fraction of the way, clamped and rounded. -/
private def severity (p : BurstParams) (count : Nat) : Rat :=
  roundFour (min 1 (max 0 ((count - p.baseline) / (p.baseline * p.threshold - p.baseline))))

private theorem burstScore_detector (count : Nat) : (p.detector count).burstScore =
    if count ≤ p.baseline then .ok 0
    else if p.baseline * p.threshold - p.baseline = 0 then .error "ZeroDivisionError"
    else .ok (p.severity count) := rfl

/-- At or below the baseline the score is zero. -/
theorem burstScore_of_le {count : Nat} (h : count ≤ p.baseline) :
    (p.detector count).burstScore = .ok 0 :=
  if_pos h

/-- Above the baseline, without a way to the threshold, the division fails. -/
theorem burstScore_of_lt {count : Nat} (h : p.baseline < count)
    (hz : ¬ (0 < p.baseline ∧ 1 < p.threshold)) :
    (p.detector count).burstScore = .error "ZeroDivisionError" := by
  have hd : p.baseline * p.threshold - p.baseline = 0 := by
    rcases p.baseline_nonneg.lt_or_eq with hb | hb
    · have ht : p.threshold = 1 :=
        le_antisymm (not_lt.mp fun ht ↦ hz ⟨hb, ht⟩) p.one_le_threshold
      rw [ht, mul_one, sub_self]
    · rw [← hb, zero_mul, sub_self]
  rw [burstScore_detector, if_neg (not_le.mpr h), if_pos hd]

/-- There is no burst at or below the baseline. -/
theorem baseline_lt_of_isBurst {count : Nat} (h : (p.detector count).isBurst = true) :
    p.baseline < count := by
  have hl : p.baseline * 1 ≤ p.baseline * p.threshold :=
    mul_le_mul_of_nonneg_left p.one_le_threshold p.baseline_nonneg
  rw [mul_one] at hl
  exact hl.trans_lt (of_decide_eq_true h)

section
variable (hb : 0 < p.baseline) (ht : 1 < p.threshold)
include hb ht

private theorem way_pos : 0 < p.baseline * p.threshold - p.baseline := by
  have hl : p.baseline * 1 < p.baseline * p.threshold := mul_lt_mul_of_pos_left ht hb
  rw [mul_one] at hl
  exact sub_pos.mpr hl

private theorem severity_mono {m n : Nat} (h : m ≤ n) : p.severity m ≤ p.severity n := by
  apply roundFour_mono
  apply min_le_min_left
  apply max_le_max_left
  apply div_le_div_of_nonneg_right _ (way_pos hb ht).le
  exact sub_le_sub_right (Nat.cast_le.mpr h) _

private theorem severity_of_le {count : Nat} (h : count ≤ p.baseline) : p.severity count = 0 := by
  have hx : (count - p.baseline) / (p.baseline * p.threshold - p.baseline) ≤ 0 :=
    div_nonpos_of_nonpos_of_nonneg (sub_nonpos.mpr h) (way_pos hb ht).le
  rw [severity, max_eq_left hx, min_eq_right zero_le_one, roundFour_zero]

private theorem severity_of_isBurst {count : Nat} (h : (p.detector count).isBurst = true) :
    p.severity count = 1 := by
  have hc : p.baseline * p.threshold < count := of_decide_eq_true h
  have hx : 1 ≤ (count - p.baseline) / (p.baseline * p.threshold - p.baseline) := by
    rw [one_le_div (way_pos hb ht)]
    exact sub_le_sub_right hc.le _
  rw [severity, max_eq_right (zero_le_one.trans hx), min_eq_left hx, roundFour_one]

private theorem burstScore_eq (count : Nat) :
    (p.detector count).burstScore = .ok (p.severity count) := by
  rcases le_or_gt (count : Rat) p.baseline with h | h
  · rw [burstScore_of_le h, severity_of_le hb ht h]
  · rw [burstScore_detector, if_neg (not_le.mpr h), if_neg (way_pos hb ht).ne']

/-- With a way from the baseline to the threshold, every count is scored. -/
theorem scores_of_pos (count : Nat) : ∃ score, p.Scores count score := by
  refine ⟨p.severity count, burstScore_eq hb ht count, ?_, ?_, severity_of_le hb ht,
    severity_of_isBurst hb ht, fun n hn ↦ ⟨_, burstScore_eq hb ht n, severity_mono hb ht hn⟩⟩
  · have hm := roundFour_mono (le_min zero_le_one (le_max_left 0
      ((count - p.baseline) / (p.baseline * p.threshold - p.baseline))))
    rwa [roundFour_zero] at hm
  · have hm := roundFour_mono (min_le_left 1
      (max 0 ((count - p.baseline) / (p.baseline * p.threshold - p.baseline))))
    rwa [roundFour_one] at hm

end

/-- Whatever the parameters are, a count at or below the baseline is scored. -/
theorem scores_of_le {count : Nat} (h : count ≤ p.baseline) : p.Scores count 0 where
  value := burstScore_of_le h
  nonneg := le_refl 0
  le_one := zero_le_one
  calm _ := rfl
  burst hb := absurd (baseline_lt_of_isBurst hb) (not_lt.mpr h)
  mono _ hn := ⟨0, burstScore_of_le ((Nat.cast_le.mpr hn).trans h), le_refl 0⟩

/-- Every score along a run of calls is as it is to be exactly when the baseline is positive and
below the threshold, or the count never passes the baseline. -/
theorem scores_run_iff (calls : List BurstCall) :
    (∀ before, before <+: calls → ∃ score, p.Scores (p.countAfter before) score) ↔
      0 < p.baseline ∧ 1 < p.threshold ∨
        ∀ before, before <+: calls → p.countAfter before ≤ p.baseline := by
  constructor
  · intro h
    by_contra hn
    obtain ⟨hz, hc⟩ := not_or.mp hn
    push Not at hc
    obtain ⟨before, hp, hlt⟩ := hc
    obtain ⟨score, hs⟩ := h before hp
    cases (burstScore_of_lt hlt hz).symm.trans hs.value
  · rintro (⟨hb, ht⟩ | h) before hp
    · exact scores_of_pos hb ht _
    · exact ⟨0, scores_of_le (h before hp)⟩

end BurstParams

/-- A detector that fires above its baseline. -/
def narrow : BurstParams := ⟨2, 1, by decide, by decide⟩

/-- It raises an exception at the first event above its baseline. -/
theorem narrow_fails :
    (narrow.detector (narrow.countAfter [.recordMany 2, .record])).burstScore =
        .error "ZeroDivisionError" ∧
      ¬ ∃ score, narrow.Scores (narrow.countAfter [.recordMany 2, .record]) score := by
  have hn : narrow.countAfter [.recordMany 2, .record] = 3 := rfl
  have hv : (narrow.detector (narrow.countAfter [.recordMany 2, .record])).burstScore =
      .error "ZeroDivisionError" := by
    rw [hn]
    exact BurstParams.burstScore_of_lt (by decide +kernel) (by decide +kernel)
  refine ⟨hv, ?_⟩
  rintro ⟨score, h⟩
  cases hv.symm.trans h.value

end NhiSentinel.Anomaly
