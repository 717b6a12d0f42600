import Mathlib.Algebra.Field.Rat
import Mathlib.Data.List.Infix
import NhiSentinel.Audit.Schema

/-!
# Features of an event

`extract_features` of `anomaly/scorer.py`, with exact fractions for its floating-point numbers.
-/

namespace NhiSentinel.Anomaly
open NhiSentinel.Base NhiSentinel.Audit

/-- `_DESTRUCTIVE_KEYWORDS`, `scorer.py:35`. -/
def destructiveKeywords : List String :=
  ["delete", "terminate", "destroy", "remove", "drop", "purge"]

/-- `_SERVICE_ENCODING`, `scorer.py:38`. -/
def serviceEncoding : List (String × Rat) :=
  [("s3", 0), ("ec2", 1), ("iam", 2), ("guardduty", 3), ("securityhub", 4)]

/-- `_MAX_SERVICE_IDX`, `scorer.py:45`. -/
def maxServiceIdx : Rat := 5

/-- The list that `extract_features` returns. -/
structure Features where
  hour : Rat
  isDeny : Rat
  isDestructive : Rat
  arnLen : Rat
  actionSvc : Rat

section
variable (other : String → String)

/-- The service of an action, `scorer.py:57`; `other` converts texts outside of ASCII to lower
case. -/
def service (action : String) : String :=
  if ':' ∈ action.toList then
    Python.lower other (String.ofList (action.toList.takeWhile (· ≠ ':')))
  else "other"

/-- The index of the service of an action, `scorer.py:58`. -/
def actionService (action : String) : Rat :=
  (serviceEncoding.lookup (service other action)).getD maxServiceIdx / maxServiceIdx

/-- `extract_features`, `scorer.py:48`. -/
def extractFeatures (event : AuditEvent) : Features :=
  let actionLower := Python.lower other event.action
  { hour := event.timestamp.hour / 23
    isDeny := if event.decision = "DENY" then 1 else 0
    isDestructive := if destructiveKeywords.any (·.toList <:+: actionLower.toList) then 1 else 0
    arnLen := min (event.resourceArn.length / 200) 1
    actionSvc := actionService other event.action }

/-- An event counts as denied exactly when its decision is the word for it. -/
theorem isDeny_eq_one_iff (event : AuditEvent) :
    (extractFeatures other event).isDeny = 1 ↔ event.decision = "DENY" := by
  rw [extractFeatures]
  split
  · next h => exact ⟨fun _ ↦ h, fun _ ↦ rfl⟩
  · next h => exact ⟨fun hz ↦ absurd hz Rat.zero_ne_one, fun hd ↦ absurd hd h⟩

/-- The service of an action without a colon is not told apart from unknown ones. -/
theorem actionService_of_not_mem {action : String} (h : ':' ∉ action.toList) :
    actionService other action = 1 := by
  have hl : serviceEncoding.lookup "other" = none := rfl
  rw [actionService, service, if_neg h, hl]
  exact div_self (by decide)

/-- The index of the service of an action of ASCII does not depend on the rest. -/
theorem actionService_congr (other' : String → String) {action : String}
    (h : action.toList.all (·.toNat < 0x80) = true) :
    actionService other action = actionService other' action := by
  have hs : service other action = service other' action := by
    rw [service, service]
    split
    · apply Python.lower_congr
      rw [List.all_eq_true] at h ⊢
      intro c hc
      rw [String.toList_ofList] at hc
      exact h c (List.takeWhile_subset _ hc)
    · rfl
  rw [actionService, actionService, hs]

end

end NhiSentinel.Anomaly
