import Mathlib.Algebra.Order.Field.Rat
import Mathlib.Order.Monotone.Defs
import Mathlib.Tactic.Linarith
import Mathlib.Tactic.NormNum
import NhiSentinel.Anomaly.Scorer
import NhiSentinel.Base.Tally

/-!
# Statistics of a history

`compute_feature_statistics` of `anomaly/baseline.py`. A floating-point number is the fraction
that it stands for; what rounding and `sum` make of exact results is left open, but for the
numbers that they keep.
-/

namespace NhiSentinel.Anomaly
open NhiSentinel.Base NhiSentinel.Audit

/-- Floating-point arithmetic as the statistics use it: what an exact quotient is rounded to, and
what `sum` gives of a column. -/
structure FloatArith where
  round : Rat → Rat
  sum : List Rat → Rat

/-- Rounding keeps the order, zero and one, and a sum of zeros and ones that is a number of the
format counts the ones. -/
structure FloatArith.Lawful (float : FloatArith) : Prop where
  mono : Monotone float.round
  zero : float.round 0 = 0
  one : float.round 1 = 1
  sum_flags : ∀ flags : List Bool, flags.length ≤ 2 ^ 53 →
    float.sum (flags.map fun p ↦ if p then 1 else 0) = flags.countP id

/-- The statistics of one feature. -/
structure ColumnStats where
  mean : Rat
  min : Rat
  max : Rat

/-- What `compute_feature_statistics` returns of a history that is not empty. -/
structure FeatureStatistics where
  eventCount : Nat
  hourNorm : ColumnStats
  isDeny : ColumnStats
  isDestructive : ColumnStats
  arnLenNorm : ColumnStats
  actionSvc : ColumnStats
  topActions : List (String × Nat)

section
variable (float : FloatArith)

/-- `extract_features`, `scorer.py:48`, in floating-point numbers: its quotients are rounded. -/
def extractRounded (other : String → String) (event : AuditEvent) : Features :=
  let exact := extractFeatures other event
  { exact with
    hour := float.round exact.hour
    arnLen := min (float.round (event.resourceArn.length / 200)) 1
    actionSvc := float.round exact.actionSvc }

/-- The statistics of a column, `baseline.py:147`; `min` and `max` of nothing raise. -/
def columnStats (col : List Rat) : Except String ColumnStats :=
  match col.min?, col.max? with
  | some min, some max => .ok { mean := float.round (float.sum col / col.length), min, max }
  | _, _ => .error "ValueError"

/-- `compute_feature_statistics`, `baseline.py:130`. -/
def computeFeatureStatistics (other : String → String) (events : List AuditEvent) :
    Except String (Option FeatureStatistics) :=
  if events = [] then .ok none
  else do
    let features := events.map (extractRounded float other)
    return some {
      eventCount := features.length
      hourNorm := ← columnStats float (features.map Features.hour)
      isDeny := ← columnStats float (features.map Features.isDeny)
      isDestructive := ← columnStats float (features.map Features.isDestructive)
      arnLenNorm := ← columnStats float (features.map Features.arnLen)
      actionSvc := ← columnStats float (features.map Features.actionSvc)
      topActions := (ranking (events.map AuditEvent.action)).take 5 }

end

/-! ### Columns -/

/-- A column of which the statistics give the least and the greatest number. -/
structure Spans (col : List Rat) (stats : ColumnStats) : Prop where
  min : stats.min ∈ col ∧ ∀ x ∈ col, stats.min ≤ x
  max : stats.max ∈ col ∧ ∀ x ∈ col, x ≤ stats.max

/-- Two columns with the same least and the same greatest number. -/
structure SameSpan (stats stats' : ColumnStats) : Prop where
  min : stats.min = stats'.min
  max : stats.max = stats'.max

/-- Columns with the same numbers span the same. -/
theorem Spans.same {col col' : List Rat} {stats stats' : ColumnStats} (h : Spans col stats)
    (h' : Spans col' stats') (hp : col.Perm col') : SameSpan stats stats' where
  min := le_antisymm (h.min.2 _ (hp.mem_iff.mpr h'.min.1)) (h'.min.2 _ (hp.mem_iff.mp h.min.1))
  max := le_antisymm (h'.max.2 _ (hp.mem_iff.mp h.max.1)) (h.max.2 _ (hp.mem_iff.mpr h'.max.1))

/-- A column that is not empty has statistics, whose bounds are those of its values. -/
theorem columnStats_ok (float : FloatArith) {col : List Rat} (h : col ≠ []) :
    ∃ stats, columnStats float col = .ok stats ∧ Spans col stats ∧
      stats.mean = float.round (float.sum col / col.length) := by
  obtain ⟨least, hmin⟩ := Option.ne_none_iff_exists'.mp (mt List.min?_eq_none_iff.mp h)
  obtain ⟨greatest, hmax⟩ := Option.ne_none_iff_exists'.mp (mt List.max?_eq_none_iff.mp h)
  exact ⟨⟨_, least, greatest⟩, by rw [columnStats, hmin, hmax],
    ⟨List.min?_eq_some_iff.mp hmin, List.max?_eq_some_iff.mp hmax⟩, rfl⟩

/-! ### Features -/

/-- A number is normalized. -/
def Normalized (x : Rat) : Prop := 0 ≤ x ∧ x ≤ 1

private theorem normalized_flag (p : Prop) [Decidable p] : Normalized (if p then 1 else 0) := by
  rw [Normalized]
  split <;> norm_num

private theorem normalized_hour {n : Nat} (h : n ≤ 23) : Normalized ((n : Rat) / 23) := by
  have hn : (n : Rat) ≤ 23 := by exact_mod_cast h
  have h0 : (0 : Rat) ≤ n := Nat.cast_nonneg n
  exact ⟨div_nonneg h0 (by norm_num), (div_le_one₀ (by norm_num)).mpr hn⟩

private theorem normalized_actionService (other : String → String) (action : String) :
    Normalized (actionService other action) := by
  have hm : ∀ kv ∈ serviceEncoding, 0 ≤ kv.2 ∧ kv.2 ≤ maxServiceIdx := by decide +kernel
  have hx : 0 ≤ (serviceEncoding.lookup (service other action)).getD maxServiceIdx ∧
      (serviceEncoding.lookup (service other action)).getD maxServiceIdx ≤ maxServiceIdx := by
    cases hl : serviceEncoding.lookup (service other action) with
    | none => exact ⟨by decide +kernel, le_rfl⟩
    | some x =>
      obtain ⟨l₁, l₂, he, -⟩ := List.lookup_eq_some_iff.mp hl
      exact hm (_, x) (he ▸ List.mem_append_right _ List.mem_cons_self)
  have hp : (0 : Rat) < maxServiceIdx := by decide +kernel
  exact ⟨div_nonneg hx.1 hp.le, (div_le_one₀ hp).mpr hx.2⟩

variable {float : FloatArith}

/-- Rounding keeps the unit interval. -/
theorem FloatArith.Lawful.normalized_round (hf : float.Lawful) {x : Rat} (h : Normalized x) :
    Normalized (float.round x) := by
  constructor
  · rw [← hf.zero]
    exact hf.mono h.1
  · rw [← hf.one]
    exact hf.mono h.2

/-- The features of an event with an hour of the day are normalized as they are computed. -/
theorem FloatArith.Lawful.normalized_extractRounded (hf : float.Lawful) (other : String → String)
    {event : AuditEvent} (h : event.timestamp.hour ≤ 23) :
    let features := extractRounded float other event
    Normalized features.hour ∧ Normalized features.isDeny ∧ Normalized features.isDestructive ∧
      Normalized features.arnLen ∧ Normalized features.actionSvc := by
  have hlen : 0 ≤ float.round (event.resourceArn.length / 200) := by
    rw [← hf.zero]
    exact hf.mono (div_nonneg (Nat.cast_nonneg _) (by norm_num))
  exact ⟨hf.normalized_round (normalized_hour h), normalized_flag _, normalized_flag _,
    ⟨le_min hlen zero_le_one, min_le_right _ _⟩,
    hf.normalized_round (normalized_actionService other event.action)⟩

/-- The sum of a column of flags counts the ones. -/
theorem FloatArith.Lawful.sum_ones (hf : float.Lawful) (events : List AuditEvent)
    (hl : events.length ≤ 2 ^ 53) (p : AuditEvent → Bool) :
    float.sum (events.map fun event ↦ if p event then 1 else 0) = events.countP p := by
  have h := hf.sum_flags (events.map p) (by rwa [List.length_map])
  rw [List.map_map, List.countP_map] at h
  exact h

/-! ### The statistics -/

/-- The action of an event is a destructive one. -/
def destructiveAction (other : String → String) (event : AuditEvent) : Bool :=
  destructiveKeywords.any (·.toList <:+: (Python.lower other event.action).toList)

/-- The statistics are those of a history: they count its events, span each feature, whose numbers
are normalized, give the shares of the denied events and of the destructive actions, and lead with
the most frequent actions. -/
structure Describes (float : FloatArith) (other : String → String) (events : List AuditEvent)
    (stats : FeatureStatistics) : Prop where
  eventCount : stats.eventCount = events.length
  hourNorm : Spans (events.map (Features.hour ∘ extractRounded float other)) stats.hourNorm
  isDeny : Spans (events.map (Features.isDeny ∘ extractRounded float other)) stats.isDeny
  isDestructive : Spans (events.map (Features.isDestructive ∘ extractRounded float other))
    stats.isDestructive
  arnLenNorm : Spans (events.map (Features.arnLen ∘ extractRounded float other)) stats.arnLenNorm
  actionSvc : Spans (events.map (Features.actionSvc ∘ extractRounded float other)) stats.actionSvc
  normalized : ∀ c ∈ [stats.hourNorm, stats.isDeny, stats.isDestructive, stats.arnLenNorm,
    stats.actionSvc], Normalized c.min ∧ Normalized c.max
  denied : events.length ≤ 2 ^ 53 → stats.isDeny.mean =
    float.round (events.countP (·.decision = "DENY") / events.length)
  destructive : events.length ≤ 2 ^ 53 → stats.isDestructive.mean =
    float.round (events.countP (destructiveAction other) / events.length)
  topActions : Leads (events.map AuditEvent.action) 5 stats.topActions

/-- What does not depend on the order of a history. -/
structure SameColumns (stats stats' : FeatureStatistics) : Prop where
  eventCount : stats.eventCount = stats'.eventCount
  hourNorm : SameSpan stats.hourNorm stats'.hourNorm
  isDeny : SameSpan stats.isDeny stats'.isDeny
  isDestructive : SameSpan stats.isDestructive stats'.isDestructive
  arnLenNorm : SameSpan stats.arnLenNorm stats'.arnLenNorm
  actionSvc : SameSpan stats.actionSvc stats'.actionSvc

/-- Statistics of the same events, in any order, have the same columns. -/
theorem Describes.same {other : String → String} {events events' : List AuditEvent}
    {stats stats' : FeatureStatistics} (h : Describes float other events stats)
    (h' : Describes float other events' stats') (hp : events.Perm events') :
    SameColumns stats stats' where
  eventCount := by rw [h.eventCount, h'.eventCount, hp.length_eq]
  hourNorm := h.hourNorm.same h'.hourNorm (hp.map _)
  isDeny := h.isDeny.same h'.isDeny (hp.map _)
  isDestructive := h.isDestructive.same h'.isDestructive (hp.map _)
  arnLenNorm := h.arnLenNorm.same h'.arnLenNorm (hp.map _)
  actionSvc := h.actionSvc.same h'.actionSvc (hp.map _)

/-- The statistics of a history that is not empty describe it. -/
theorem computeFeatureStatistics_ok (hf : float.Lawful) (other : String → String)
    {events : List AuditEvent} (hh : ∀ event ∈ events, event.timestamp.hour ≤ 23)
    (hn : events ≠ []) : ∃ stats,
      computeFeatureStatistics float other events = .ok (some stats) ∧
        Describes float other events stats := by
  have hcol (get : Features → Rat) : ∃ stats,
      columnStats float ((events.map (extractRounded float other)).map get) = .ok stats ∧
        Spans (events.map (get ∘ extractRounded float other)) stats ∧
        stats.mean = float.round
          (float.sum (events.map (get ∘ extractRounded float other)) / events.length) := by
    have hne : events.map (get ∘ extractRounded float other) ≠ [] := mt List.map_eq_nil_iff.mp hn
    have h := columnStats_ok float hne
    rw [List.length_map] at h
    rwa [List.map_map]
  obtain ⟨hour, h₁, s₁, -⟩ := hcol Features.hour
  obtain ⟨deny, h₂, s₂, m₂⟩ := hcol Features.isDeny
  obtain ⟨destructive, h₃, s₃, m₃⟩ := hcol Features.isDestructive
  obtain ⟨arn, h₄, s₄, -⟩ := hcol Features.arnLen
  obtain ⟨svc, h₅, s₅, -⟩ := hcol Features.actionSvc
  refine ⟨⟨events.length, hour, deny, destructive, arn, svc,
    (ranking (events.map AuditEvent.action)).take 5⟩, ?_, ?_⟩
  · rw [computeFeatureStatistics, if_neg hn]
    simp only [List.length_map, h₁, h₂, h₃, h₄, h₅]
    rfl
  · refine ⟨rfl, s₁, s₂, s₃, s₄, s₅, ?_, fun hl ↦ ?_, fun hl ↦ ?_, leads_ranking _ 5⟩
    · have hx (get : Features → Rat) {stats : ColumnStats}
          (hs : Spans (events.map (get ∘ extractRounded float other)) stats)
          (hr : ∀ event ∈ events, Normalized (get (extractRounded float other event))) :
          Normalized stats.min ∧ Normalized stats.max := by
        obtain ⟨e, he, hmin⟩ := List.mem_map.mp hs.min.1
        obtain ⟨e', he', hmax⟩ := List.mem_map.mp hs.max.1
        exact ⟨hmin ▸ hr e he, hmax ▸ hr e' he'⟩
      have hfeatures (event : AuditEvent) (hm : event ∈ events) :=
        hf.normalized_extractRounded other (hh event hm)
      simp only [List.forall_mem_cons]
      exact ⟨hx _ s₁ fun e hm ↦ (hfeatures e hm).1, hx _ s₂ fun e hm ↦ (hfeatures e hm).2.1,
        hx _ s₃ fun e hm ↦ (hfeatures e hm).2.2.1, hx _ s₄ fun e hm ↦ (hfeatures e hm).2.2.2.1,
        hx _ s₅ fun e hm ↦ (hfeatures e hm).2.2.2.2, by simp⟩
    · have hflag : Features.isDeny ∘ extractRounded float other =
          fun event ↦ if decide (event.decision = "DENY") then 1 else 0 := by
        funext event
        simp [extractRounded, extractFeatures]
      rw [m₂, hflag, hf.sum_ones events hl]
    · have hflag : Features.isDestructive ∘ extractRounded float other =
          fun event ↦ if destructiveAction other event then 1 else 0 := rfl
      rw [m₃, hflag, hf.sum_ones events hl]

/-- Nothing is returned of an empty history; of any other one statistics that describe it, of
which all but the other means do not depend on the order of the events. -/
theorem computeFeatureStatistics_describes (hf : float.Lawful) (other : String → String)
    {events : List AuditEvent} (hh : ∀ event ∈ events, event.timestamp.hour ≤ 23) :
    (computeFeatureStatistics float other events = .ok none ↔ events = []) ∧
      (events ≠ [] → ∃ stats, computeFeatureStatistics float other events = .ok (some stats) ∧
        Describes float other events stats ∧
        ∀ events', events.Perm events' → ∃ stats',
          computeFeatureStatistics float other events' = .ok (some stats') ∧
            Describes float other events' stats' ∧ SameColumns stats stats') := by
  have hsome := computeFeatureStatistics_ok hf other hh
  constructor
  · refine ⟨fun h ↦ ?_, fun h ↦ if_pos h⟩
    by_contra hn
    obtain ⟨stats, hs, -⟩ := hsome hn
    cases h.symm.trans hs
  · intro hn
    obtain ⟨stats, hs, hd⟩ := hsome hn
    refine ⟨stats, hs, hd, fun events' hp ↦ ?_⟩
    obtain ⟨stats', hs', hd'⟩ := computeFeatureStatistics_ok hf other
      (fun event hm ↦ hh event (hp.mem_iff.mpr hm)) fun he ↦ hn (by rw [he] at hp; exact hp.eq_nil)
    exact ⟨stats', hs', hd', hd.same hd' hp⟩

/-- Arithmetic on fractions that the format has. -/
def exactArith : FloatArith := ⟨id, List.sum⟩

/-- Arithmetic without rounding is lawful. -/
theorem exactArith_lawful : exactArith.Lawful where
  mono := monotone_id
  zero := rfl
  one := rfl
  sum_flags flags hl := by
    clear hl
    show (flags.map _).sum = _
    induction flags with
    | nil => rfl
    | cons p flags ih =>
      rw [List.map_cons, List.sum_cons, ih, List.countP_cons]
      cases p <;> simp [add_comm]

/-- A deletion at midnight, denied or not, of an object whose name has 25 characters. -/
def midnightDeletion (decision : String) : AuditEvent where
  eventId := "00000000-0000-4000-8000-000000000000"
  timestamp := .utc 0
  agentId := "agent-data-001"
  agentType := "DataAgent"
  taskId := "task-001"
  action := "s3:DeleteObject"
  resourceArn := "arn:aws:s3:::bucket/key-1"
  decision := decision

/-- Of two deletions one is denied. -/
theorem computeFeatureStatistics_describes_deletions : ∃ stats,
    computeFeatureStatistics exactArith id
        [midnightDeletion "DENY", midnightDeletion "EXECUTED"] = .ok (some stats) ∧
      stats.isDeny.mean = 1 / 2 ∧ stats.isDeny.min = 0 ∧ stats.isDeny.max = 1 := by
  have hh : ∀ event ∈ [midnightDeletion "DENY", midnightDeletion "EXECUTED"],
      event.timestamp.hour ≤ 23 := by decide
  obtain ⟨stats, hs, hd, -⟩ :=
    (computeFeatureStatistics_describes exactArith_lawful id hh).2 (List.cons_ne_nil _ _)
  have hcol : [midnightDeletion "DENY", midnightDeletion "EXECUTED"].map
      (Features.isDeny ∘ extractRounded exactArith id) = [1, 0] := rfl
  have hspan := hd.isDeny
  rw [hcol] at hspan
  refine ⟨stats, hs, ?_, ?_, ?_⟩
  · rw [hd.denied (by decide)]
    rfl
  · have hmin := hspan.min.2 0 (by simp)
    rcases List.mem_pair.mp hspan.min.1 with h | h
    · rw [h] at hmin
      exact absurd hmin (by decide)
    · exact h
  · have hmax := hspan.max.2 1 (by simp)
    rcases List.mem_pair.mp hspan.max.1 with h | h
    · exact h
    · rw [h] at hmax
      exact absurd hmax (by decide)

end NhiSentinel.Anomaly
