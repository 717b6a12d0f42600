import NhiSentinel.Audit.Schema
import NhiSentinel.Base.Calendar
import NhiSentinel.Base.Rounding
import Mathlib.Data.Rat.Floor

/-!
# Synthetic baselines

`generate_baseline_events` of `anomaly/baseline.py`. The random draws are parameters, each in its
range, and exact numbers. An offset of days is drawn as a fraction and so moves the time of day
that is drawn beside it.
-/

namespace NhiSentinel.Anomaly.Baseline
open NhiSentinel.Base NhiSentinel.Audit

/-! ### Profiles -/

/-- The profile of a type of agents: it is active from the first of two hours to before the
second. -/
structure Profile where
  actions : List String
  activeHours : Nat × Nat
  decisionDenyRate : Rat
  choices : actions ≠ [] := by decide
  starts : activeHours.1 < min activeHours.2 23 := by decide
  ends : activeHours.2 ≤ 24 := by decide

/-- The profile of `InfraAgent`. -/
def infraAgent : Profile where
  actions := ["ec2:DescribeInstances", "ec2:DescribeSecurityGroups", "s3:ListBuckets",
    "s3:GetObject", "s3:ListObjects"]
  activeHours := (8, 20)
  decisionDenyRate := 5 / 100

/-- `_AGENT_PROFILES`, `baseline.py:49`. -/
def agentProfiles : List (String × Profile) := [
  ("InfraAgent", infraAgent),
  ("DataAgent", {
    actions := ["s3:GetObject", "s3:PutObject", "s3:ListObjects", "s3:CopyObject"]
    activeHours := (6, 22)
    decisionDenyRate := 8 / 100 }),
  ("SecOpsAgent", {
    actions := ["securityhub:GetFindings", "guardduty:ListFindings", "cloudtrail:LookupEvents",
      "config:GetComplianceDetailsByConfigRule"]
    activeHours := (0, 24)
    decisionDenyRate := 3 / 100 }),
  ("ProvisionerAgent", {
    actions := ["iam:CreateRole", "iam:AttachRolePolicy", "iam:GetRole"]
    activeHours := (9, 18)
    decisionDenyRate := 20 / 100 })]

/-- The profile that is used for a type, `baseline.py:94`. -/
def profile (agentType : String) : Profile := (agentProfiles.lookup agentType).getD infraAgent

/-! ### Draws -/

/-- What is drawn for an event. -/
structure Draw where
  dayOffset : Rat
  hour : Rat
  action : String
  denial : Rat
  task : Nat
  bucket : Nat
  eventId : String
  tokenJti : String

/-- Each draw is in its range, `baseline.py:104–118`. -/
structure Draw.InRange (profile : Profile) (daysBack : Int) (draw : Draw) : Prop where
  dayOffset : min 0 (daysBack : Rat) ≤ draw.dayOffset ∧ draw.dayOffset ≤ max 0 (daysBack : Rat)
  hour : (profile.activeHours.1 : Rat) ≤ draw.hour ∧
    draw.hour ≤ ((min profile.activeHours.2 23 : Nat) : Rat)
  action : draw.action ∈ profile.actions
  denial : 0 ≤ draw.denial ∧ draw.denial < 1
  task : 1 ≤ draw.task ∧ draw.task ≤ 20
  bucket : 1 ≤ draw.bucket ∧ draw.bucket ≤ 5

/-- An outcome of the draws for an event. -/
abbrev Outcome (profile : Profile) (daysBack : Int) :=
  { draw : Draw // draw.InRange profile daysBack }

/-! ### Events -/

/-- `timedelta(days=…, hours=…)`, in microseconds. -/
def timedelta (days hours : Rat) : Int := roundEven (days * 86400000000 + hours * 3600000000)

/-- What is taken off the current time, `baseline.py:106`. -/
def Draw.lag (draw : Draw) (now : Nat) : Int :=
  timedelta draw.dayOffset ((DateTime.utc now).hour - draw.hour)

/-- A point in time less a difference, if it is in a year from 1 to 9999. -/
def subtract (now : Nat) (delta : Int) : Except String DateTime :=
  if Python.datetimeMin ≤ now - delta ∧ now - delta ≤ Python.datetimeMax then
    .ok (.atMicros (now - delta))
  else .error "OverflowError"

/-- The event of a draw, `baseline.py:103–124`. -/
def baselineEvent (now : Nat) (agentId agentType : String) (draw : Draw) :
    Except String AuditEvent := do
  let ts ← subtract now (draw.lag now)
  let decision := if draw.denial < (profile agentType).decisionDenyRate then "DENY" else "ALLOW"
  pure {
    eventId := draw.eventId
    timestamp := ts
    agentId := agentId
    agentType := agentType
    taskId := s!"task-baseline-{Python.pad 3 draw.task}"
    action := draw.action
    resourceArn := s!"arn:aws:s3:::data-pipeline-{Python.pad 2 draw.bucket}"
    decision := decision
    decisionReason := if decision = "ALLOW" then none else some "scope_check"
    policyRef := if decision = "DENY" then some "nhi.agent.authorization" else none
    tokenJti := some draw.tokenJti
    sourceIp := some "10.0.1.1"
    environment := some "staging" }

/-- `generate_baseline_events`, `baseline.py:73`, at a time in microseconds since 1970 and for an
outcome of the draws. -/
def generateBaselineEvents (now : Nat) (agentId agentType : String) (n daysBack : Int)
    (draws : Nat → Outcome (profile agentType) daysBack) : Except String (List AuditEvent) := do
  let events ← (List.range n.toNat).mapM fun i ↦ baselineEvent now agentId agentType (draws i)
  pure (events.mergeSort fun a b ↦ a.timestamp.instant ≤ b.timestamp.instant)

/-! ### What is promised -/

/-- The events lie in the past days, in the active hours, and in their order. -/
structure Normal (profile : Profile) (now : Nat) (n daysBack : Int) (events : List AuditEvent) :
    Prop where
  length : events.length = n.toNat
  past : ∀ e ∈ events, (DateTime.utc now).instant - daysBack * 86400000000 ≤ e.timestamp.instant ∧
    e.timestamp.instant ≤ (DateTime.utc now).instant
  active : ∀ e ∈ events,
    profile.activeHours.1 ≤ e.timestamp.hour ∧ e.timestamp.hour < profile.activeHours.2
  sorted : events.Pairwise fun a b ↦ a.timestamp.instant ≤ b.timestamp.instant

/-- The time of day that is drawn, from the start of its day: the hour less the part of a day by
which the offset goes beyond whole days. -/
def Draw.clock (draw : Draw) : Int :=
  -roundEven (Int.fract draw.dayOffset * 86400000000 - draw.hour * 3600000000)

/-- The draw leads to an event in the past days and in the active hours: the time of day that is
drawn, with the minutes past the current hour, is in the active hours, or is so a day later where
it is before the start of the day. -/
structure Draw.Lands (profile : Profile) (now : Nat) (daysBack : Int) (draw : Draw) : Prop where
  past : 0 ≤ draw.lag now ∧ draw.lag now ≤ daysBack * 86400000000
  dated : Python.datetimeMin ≤ now - draw.lag now ∧ now - draw.lag now ≤ Python.datetimeMax
  active : profile.activeHours.1 * 3600000000 ≤ now % 3600000000 + draw.clock ∧
      now % 3600000000 + draw.clock < profile.activeHours.2 * 3600000000 ∨
    now % 3600000000 + draw.clock + 86400000000 < profile.activeHours.2 * 3600000000

section
variable {p : Profile} {now : Nat} {daysBack : Int} {draw : Draw}

private theorem lag_emod (draw : Draw) (now : Nat) :
    ((now : Int) - draw.lag now) % 86400000000 =
      (now % 3600000000 + draw.clock) % 86400000000 := by
  have hh : (DateTime.utc now).hour = now / 1000000 % 86400 / 3600 := rfl
  have hx : draw.dayOffset * 86400000000 + ((DateTime.utc now).hour - draw.hour) * 3600000000 =
      Int.fract draw.dayOffset * 86400000000 - draw.hour * 3600000000 +
        ((2 * (⌊draw.dayOffset⌋ * 43200000000 + (DateTime.utc now).hour * 1800000000) : Int) :
          Rat) := by
    conv_lhs => rw [← Int.floor_add_fract draw.dayOffset]
    push_cast
    ring
  have hl : draw.lag now = -draw.clock +
      2 * (⌊draw.dayOffset⌋ * 43200000000 + (DateTime.utc now).hour * 1800000000) := by
    rw [Draw.lag, timedelta, hx, roundEven_add_two_mul, Draw.clock, neg_neg]
  rw [hl, hh]
  omega

private theorem clock_bounds (h : draw.InRange p daysBack) :
    p.activeHours.1 * 3600000000 - 86400000000 ≤ draw.clock ∧
      draw.clock ≤ 23 * 3600000000 := by
  have hf := Int.fract_nonneg draw.dayOffset
  have hf' := (Int.fract_lt_one draw.dayOffset).le
  constructor
  · have hx : Int.fract draw.dayOffset * 86400000000 - draw.hour * 3600000000 ≤
        ((86400000000 - p.activeHours.1 * 3600000000 : Int) : Rat) := by
      push_cast
      linarith [h.hour.1]
    have hr := roundEven_le hx
    rw [Draw.clock]
    omega
  · have h23 : ((min p.activeHours.2 23 : Nat) : Rat) ≤ 23 := by
      exact_mod_cast Nat.min_le_right p.activeHours.2 23
    have hx : ((-(23 * 3600000000) : Int) : Rat) ≤
        Int.fract draw.dayOffset * 86400000000 - draw.hour * 3600000000 := by
      push_cast
      linarith [h.hour.2]
    have hr := le_roundEven hx
    rw [Draw.clock]
    omega

/-- The hour of an event is an active one exactly when the time of day that is drawn leads there. -/
theorem active_iff (h : draw.InRange p daysBack)
    (hd : Python.datetimeMin ≤ now - draw.lag now) :
    (p.activeHours.1 ≤ (DateTime.atMicros (now - draw.lag now)).hour ∧
        (DateTime.atMicros (now - draw.lag now)).hour < p.activeHours.2) ↔
      (p.activeHours.1 * 3600000000 ≤ now % 3600000000 + draw.clock ∧
          now % 3600000000 + draw.clock < p.activeHours.2 * 3600000000 ∨
        now % 3600000000 + draw.clock + 86400000000 < p.activeHours.2 * 3600000000) := by
  have hh := DateTime.hour_atMicros hd
  rw [lag_emod] at hh
  obtain ⟨hlow, hhigh⟩ := clock_bounds h
  have he := p.ends
  omega

/-- What is promised of one event. -/
def Fits (p : Profile) (now : Nat) (daysBack : Int) (event : AuditEvent) : Prop :=
  ((DateTime.utc now).instant - daysBack * 86400000000 ≤ event.timestamp.instant ∧
    event.timestamp.instant ≤ (DateTime.utc now).instant) ∧
  p.activeHours.1 ≤ event.timestamp.hour ∧ event.timestamp.hour < p.activeHours.2

/-- A draw lands exactly when an event that fits is made of it. -/
theorem lands_iff (agentId : String) {agentType : String}
    (h : draw.InRange (profile agentType) daysBack) :
    draw.Lands (profile agentType) now daysBack ↔
      ∃ event, baselineEvent now agentId agentType draw = .ok event ∧
        Fits (profile agentType) now daysBack event := by
  have hi := DateTime.instant_utc now
  by_cases hd : Python.datetimeMin ≤ now - draw.lag now ∧ now - draw.lag now ≤ Python.datetimeMax
  · have he := DateTime.instant_atMicros hd.1
    have ha := active_iff h hd.1
    rw [baselineEvent, subtract, if_pos hd]
    constructor
    · intro hl
      obtain ⟨hp, -, hact⟩ := hl
      refine ⟨_, rfl, ⟨?_, ?_⟩, ha.mpr hact⟩
      · rw [hi, he]
        omega
      · rw [hi, he]
        omega
    · rintro ⟨_, ⟨⟩, ⟨hlow, hhigh⟩, hact⟩
      rw [hi, he] at hlow hhigh
      exact ⟨⟨by omega, by omega⟩, hd, ha.mp hact⟩
  · rw [baselineEvent, subtract, if_neg hd]
    constructor
    · exact fun hl ↦ absurd hl.dated hd
    · rintro ⟨_, ⟨⟩, -⟩

end

private theorem mapM_ok_iff {α β ε : Type} {f : α → Except ε β} {xs : List α} {ys : List β} :
    xs.mapM f = .ok ys ↔ List.Forall₂ (fun x y ↦ f x = .ok y) xs ys := by
  induction xs generalizing ys with
  | nil =>
    rw [List.mapM_nil, List.forall₂_nil_left_iff]
    constructor
    · rintro ⟨⟩
      rfl
    · rintro rfl
      rfl
  | cons x xs ih =>
    rw [List.mapM_cons, List.forall₂_cons_left_iff]
    constructor
    · intro h
      cases hx : f x with
      | error e =>
        rw [hx] at h
        cases h
      | ok y =>
        cases hxs : xs.mapM f with
        | error e =>
          rw [hx, hxs] at h
          cases h
        | ok zs =>
          rw [hx, hxs] at h
          cases h
          exact ⟨y, zs, rfl, ih.mp hxs, rfl⟩
    · rintro ⟨y, zs, hx, hxs, rfl⟩
      rw [hx, ih.mpr hxs]
      rfl

/-- The events are generated, and are as promised. -/
def GeneratesNormal (now : Nat) (agentId agentType : String) (n daysBack : Int)
    (draws : Nat → Outcome (profile agentType) daysBack) : Prop :=
  ∃ events, generateBaselineEvents now agentId agentType n daysBack draws = .ok events ∧
    Normal (profile agentType) now n daysBack events

private theorem generate_ok_iff {now : Nat} {agentId agentType : String} {n daysBack : Int}
    {draws : Nat → Outcome (profile agentType) daysBack} {events : List AuditEvent} :
    generateBaselineEvents now agentId agentType n daysBack draws = .ok events ↔
      ∃ drawn, List.Forall₂ (fun i event ↦
          baselineEvent now agentId agentType (draws i).1 = .ok event)
        (List.range n.toNat) drawn ∧
        events = drawn.mergeSort fun a b ↦ a.timestamp.instant ≤ b.timestamp.instant := by
  rw [generateBaselineEvents]
  constructor
  · intro h
    cases hm : (List.range n.toNat).mapM fun i ↦
        baselineEvent now agentId agentType (draws i).1 with
    | error e =>
      rw [hm] at h
      cases h
    | ok drawn =>
      rw [hm] at h
      exact ⟨drawn, mapM_ok_iff.mp hm, (Except.ok.inj h).symm⟩
  · rintro ⟨drawn, hm, rfl⟩
    rw [mapM_ok_iff.mpr hm]
    rfl

private theorem exists_forall₂ {α β : Type} {r : α → β → Prop} {p : β → Prop} (xs : List α)
    (h : ∀ x ∈ xs, ∃ y, r x y ∧ p y) : ∃ ys, List.Forall₂ r xs ys ∧ ∀ y ∈ ys, p y := by
  induction xs with
  | nil => exact ⟨[], List.Forall₂.nil, fun y hy ↦ absurd hy List.not_mem_nil⟩
  | cons x xs ih =>
    obtain ⟨y, hr, hp⟩ := h x List.mem_cons_self
    obtain ⟨ys, hrs, hps⟩ := ih fun x hx ↦ h x (List.mem_cons_of_mem _ hx)
    exact ⟨y :: ys, List.Forall₂.cons hr hrs, List.forall_mem_cons.mpr ⟨hp, hps⟩⟩

private theorem pairwise_sorted (events : List AuditEvent) :
    (events.mergeSort fun a b ↦ a.timestamp.instant ≤ b.timestamp.instant).Pairwise
      fun a b ↦ a.timestamp.instant ≤ b.timestamp.instant := by
  have hs : (events.mergeSort fun a b ↦ a.timestamp.instant ≤ b.timestamp.instant).Pairwise
      fun a b ↦ decide (a.timestamp.instant ≤ b.timestamp.instant) = true := by
    apply List.pairwise_mergeSort
    · intro a b c hab hbc
      exact decide_eq_true ((of_decide_eq_true hab).trans (of_decide_eq_true hbc))
    · intro a b
      rw [Bool.or_eq_true, decide_eq_true_eq, decide_eq_true_eq]
      exact Int.le_total ..
  exact hs.imp fun h ↦ of_decide_eq_true h

section
variable {now : Nat} {agentId agentType : String} {n daysBack : Int}
  {draws : Nat → Outcome (profile agentType) daysBack}

/-- Where the events are as promised, every draw lands. -/
theorem lands_of_generatesNormal (h : GeneratesNormal now agentId agentType n daysBack draws)
    {i : Nat} (hi : i < n.toNat) : (draws i).1.Lands (profile agentType) now daysBack := by
  obtain ⟨events, hg, hn⟩ := h
  obtain ⟨drawn, hd, rfl⟩ := generate_ok_iff.mp hg
  rw [lands_iff agentId (draws i).2]
  obtain ⟨hl, hr⟩ := List.forall₂_iff_get.mp hd
  have hi' : i < (List.range n.toNat).length := by rwa [List.length_range]
  have he := hr i hi' (hl ▸ hi')
  rw [List.get_eq_getElem, List.getElem_range] at he
  have hm : drawn.get ⟨i, hl ▸ hi'⟩ ∈
      drawn.mergeSort fun a b ↦ a.timestamp.instant ≤ b.timestamp.instant :=
    List.mem_mergeSort.mpr (List.get_mem drawn ⟨i, hl ▸ hi'⟩)
  exact ⟨_, he, hn.past _ hm, hn.active _ hm⟩

/-- Where every draw lands, the events are as promised. -/
theorem generatesNormal_of_lands
    (h : ∀ i < n.toNat, (draws i).1.Lands (profile agentType) now daysBack) :
    GeneratesNormal now agentId agentType n daysBack draws := by
  obtain ⟨drawn, hd, hf⟩ := exists_forall₂ (List.range n.toNat)
    (r := fun i event ↦ baselineEvent now agentId agentType (draws i).1 = .ok event)
    (p := Fits (profile agentType) now daysBack)
    fun i hi ↦ (lands_iff agentId (draws i).2).mp (h i (List.mem_range.mp hi))
  refine ⟨_, generate_ok_iff.mpr ⟨drawn, hd, rfl⟩, ?_, ?_, ?_, pairwise_sorted drawn⟩
  · rw [List.length_mergeSort, ← hd.length_eq, List.length_range]
  · exact fun e he ↦ (hf e (List.mem_mergeSort.mp he)).1
  · exact fun e he ↦ (hf e (List.mem_mergeSort.mp he)).2

end

/-- The events are as promised exactly when every draw lands. -/
theorem generatesNormal_iff (now : Nat) (agentId agentType : String) (n daysBack : Int)
    (draws : Nat → Outcome (profile agentType) daysBack) :
    GeneratesNormal now agentId agentType n daysBack draws ↔
      ∀ i < n.toNat, (draws i).1.Lands (profile agentType) now daysBack :=
  ⟨fun h _ hi ↦ lands_of_generatesNormal h hi, generatesNormal_of_lands⟩

/-! ### Draws that do not land -/

/-- A draw of a whole number of days and a whole hour. -/
private def wholeDraw (p : Profile) (days : Int) (hour : Nat) : Draw where
  dayOffset := days
  hour := hour
  action := p.actions.head p.choices
  denial := 0
  task := 1
  bucket := 1
  eventId := "00000000-0000-4000-8000-000000000000"
  tokenJti := "00000000-0000-4000-8000-000000000001"

private theorem wholeDraw_inRange {p : Profile} {daysBack days : Int} {hour : Nat}
    (hd : min 0 daysBack ≤ days ∧ days ≤ max 0 daysBack)
    (hh : p.activeHours.1 ≤ hour ∧ hour ≤ min p.activeHours.2 23) :
    (wholeDraw p days hour).InRange p daysBack where
  dayOffset := by
    show min 0 (daysBack : Rat) ≤ (days : Rat) ∧ (days : Rat) ≤ max 0 (daysBack : Rat)
    exact_mod_cast hd
  hour := ⟨Nat.cast_le.mpr hh.1, Nat.cast_le.mpr hh.2⟩
  action := List.head_mem p.choices
  denial := ⟨le_refl 0, zero_lt_one⟩
  task := ⟨Nat.le_refl 1, (by decide : 1 ≤ 20)⟩
  bucket := ⟨Nat.le_refl 1, (by decide : 1 ≤ 5)⟩

private theorem lag_wholeDraw (p : Profile) (days : Int) (hour now : Nat) :
    (wholeDraw p days hour).lag now =
      days * 86400000000 + ((DateTime.utc now).hour - hour) * 3600000000 := by
  have hx : (days : Rat) * 86400000000 + ((DateTime.utc now).hour - hour) * 3600000000 =
      ((days * 86400000000 + ((DateTime.utc now).hour - hour) * 3600000000 : Int) : Rat) := by
    push_cast
    ring
  show roundEven ((days : Rat) * 86400000000 + ((DateTime.utc now).hour - hour) * 3600000000) = _
  rw [hx, roundEven_intCast]

/-- Whatever the arguments are, some outcome of the draws for an event does not land: it is in the
future, or before the past days. -/
theorem exists_not_lands (agentType : String) (now : Nat) (daysBack : Int) :
    ∃ draw : Outcome (profile agentType) daysBack,
      ¬ draw.1.Lands (profile agentType) now daysBack := by
  have hs := (profile agentType).starts
  by_cases hh : (DateTime.utc now).hour < min (profile agentType).activeHours.2 23
  · refine ⟨⟨wholeDraw _ 0 (min (profile agentType).activeHours.2 23),
      wholeDraw_inRange (by omega) ⟨hs.le, Nat.le_refl _⟩⟩, fun hl ↦ ?_⟩
    have hp := hl.past.1
    rw [lag_wholeDraw] at hp
    omega
  · refine ⟨⟨wholeDraw _ daysBack (profile agentType).activeHours.1,
      wholeDraw_inRange (by omega) ⟨Nat.le_refl _, hs.le⟩⟩, fun hl ↦ ?_⟩
    have hp := hl.past.2
    rw [lag_wholeDraw] at hp
    omega

/-- Noon, less half a day. -/
def halfDay : Outcome (profile "InfraAgent") 7 where
  val := {
    dayOffset := 1 / 2
    hour := 12
    action := "s3:ListBuckets"
    denial := 1 / 2
    task := 1
    bucket := 1
    eventId := "00000000-0000-4000-8000-000000000000"
    tokenJti := "00000000-0000-4000-8000-000000000001" }
  property := by
    refine ⟨by decide +kernel, by decide +kernel, by decide +kernel, by decide +kernel, by decide,
      by decide⟩

/-- At noon it makes an event of midnight. -/
theorem halfDay_strays :
    (baselineEvent 1709208000000000 "agent-infra-001" "InfraAgent" halfDay.1).map
        (fun event ↦ event.timestamp.hour) = .ok 0 ∧
      ¬ GeneratesNormal 1709208000000000 "agent-infra-001" "InfraAgent" 1 7
        fun _ ↦ halfDay := by
  refine ⟨by decide +kernel, fun h ↦ ?_⟩
  have hl := (lands_of_generatesNormal h (i := 0) (by decide)).active
  revert hl
  decide +kernel

end NhiSentinel.Anomaly.Baseline
