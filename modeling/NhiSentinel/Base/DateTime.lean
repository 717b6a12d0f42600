import NhiSentinel.Base.Python

/-!
# Points in time

`datetime.datetime`: what a clock shows, with the offset from UTC. A naive one has no
offset. The text of `isoformat` determines all of it.
-/

namespace NhiSentinel.Base

/-- `datetime.datetime`, its `utcoffset` in microseconds. -/
@[ext] structure DateTime where
  year : Nat
  month : Nat
  day : Nat
  hour : Nat
  minute : Nat
  second : Nat
  microsecond : Nat
  utcoffset : Option Int
  deriving DecidableEq

namespace DateTime
open Python

/-- A point in time in UTC, given in microseconds since 1970. -/
def utc (now : Nat) : DateTime :=
  let (year, month, day) := civil (now / 86400000000)
  let seconds := now / 1000000 % 86400
  { year := year
    month := month
    day := day
    hour := seconds / 3600
    minute := seconds / 60 % 60
    second := seconds % 60
    microsecond := now % 1000000
    utcoffset := some 0 }

/-- What a clock in UTC shows determines the point in time. -/
theorem utc_injective : Function.Injective utc := by
  intro m n h
  have hd : civil (m / 86400000000) = civil (n / 86400000000) :=
    Prod.ext (congrArg year h) (Prod.ext (congrArg month h) (congrArg day h))
  have hday := civil_injective hd
  have hhour : m / 1000000 % 86400 / 3600 = n / 1000000 % 86400 / 3600 := congrArg hour h
  have hminute : m / 1000000 % 86400 / 60 % 60 = n / 1000000 % 86400 / 60 % 60 :=
    congrArg minute h
  have hsecond : m / 1000000 % 86400 % 60 = n / 1000000 % 86400 % 60 := congrArg second h
  have hmicro : m % 1000000 = n % 1000000 := congrArg microsecond h
  omega

/-! ### Order -/

/-- Whether February has 29 days. -/
def isLeap (year : Nat) : Bool := year % 4 = 0 && (year % 100 ≠ 0 || year % 400 = 0)

/-- The days of a year before a month. -/
def daysBefore (year month : Nat) : Nat :=
  ([0, 31, 59, 90, 120, 151, 181, 212, 243, 273, 304, 334].getD (month - 1) 0) +
    if 2 < month ∧ isLeap year then 1 else 0

/-- `toordinal`: the days since the first of the year 1, which is day 1. -/
def ordinal (t : DateTime) : Nat :=
  let y := t.year - 1
  y * 365 + y / 4 - y / 100 + y / 400 + daysBefore t.year t.month + t.day

/-- The microseconds since the year 1 in UTC, in which points in time are ordered. -/
def instant (t : DateTime) : Int :=
  (((t.ordinal * 24 + t.hour) * 60 + t.minute) * 60 + t.second) * 1000000 + t.microsecond -
    t.utcoffset.getD 0

example : (utc 1709164800000042).instant - (utc 0).instant = 1709164800000042 := by decide

/-- A point in time since 1970 as a clock in UTC shows it. -/
def toUtc (t : DateTime) : DateTime :=
  if t.utcoffset = some 0 then t else utc (t.instant - (utc 0).instant).toNat

example : toUtc ⟨2024, 2, 29, 1, 0, 0, 42, some 3600000000⟩ = utc 1709164800000042 := by decide

/-! ### Text -/

/-- The fraction of a second, unless it is zero. -/
def fraction (micros : Nat) : String := if micros = 0 then "" else "." ++ pad 6 micros

/-- The seconds of an offset, unless they are zero. -/
def offsetSeconds (micros : Nat) : String :=
  if micros = 0 then "" else ":" ++ pad 2 (micros / 1000000) ++ fraction (micros % 1000000)

/-- The offset from UTC, unless there is none. -/
def formatOffset : Option Int → String
  | none => ""
  | some offset =>
    let micros := offset.natAbs
    (if offset < 0 then "-" else "+") ++ pad 2 (micros / 3600000000) ++ ":" ++
      pad 2 (micros / 60000000 % 60) ++ offsetSeconds (micros % 60000000)

/-- `isoformat`. -/
def isoformat (t : DateTime) : String :=
  pad 4 t.year ++ "-" ++ pad 2 t.month ++ "-" ++ pad 2 t.day ++ "T" ++ pad 2 t.hour ++ ":" ++
    pad 2 t.minute ++ ":" ++ pad 2 t.second ++ fraction t.microsecond ++ formatOffset t.utcoffset

private theorem toList_fraction (n : Nat) :
    (fraction n).toList = if n = 0 then [] else '.' :: (pad 6 n).toList := by
  rw [fraction]
  split
  · rfl
  · rw [String.toList_append]
    rfl

private theorem toList_offsetSeconds (n : Nat) :
    (offsetSeconds n).toList = if n = 0 then [] else
      ':' :: ((pad 2 (n / 1000000)).toList ++ (fraction (n % 1000000)).toList) := by
  rw [offsetSeconds]
  split
  · rfl
  · rw [String.toList_append, String.toList_append]
    rfl

private theorem toList_formatOffset (offset : Int) :
    (formatOffset (some offset)).toList = (if offset < 0 then '-' else '+') ::
      ((pad 2 (offset.natAbs / 3600000000)).toList ++ ':' ::
        ((pad 2 (offset.natAbs / 60000000 % 60)).toList ++
          (offsetSeconds (offset.natAbs % 60000000)).toList)) := by
  have hd : "-".toList = ['-'] := rfl
  have hp : "+".toList = ['+'] := rfl
  have hc : ":".toList = [':'] := rfl
  simp only [formatOffset, String.toList_append, List.append_assoc, hc, List.cons_append,
    List.nil_append]
  split
  · rw [hd, List.singleton_append]
  · rw [hp, List.singleton_append]

private theorem toList_isoformat (t : DateTime) :
    t.isoformat.toList = (pad 4 t.year).toList ++ '-' :: ((pad 2 t.month).toList ++ '-' ::
      ((pad 2 t.day).toList ++ 'T' :: ((pad 2 t.hour).toList ++ ':' ::
        ((pad 2 t.minute).toList ++ ':' :: ((pad 2 t.second).toList ++
          ((fraction t.microsecond).toList ++ (formatOffset t.utcoffset).toList)))))) := by
  have hd : "-".toList = ['-'] := rfl
  have ht : "T".toList = ['T'] := rfl
  have hc : ":".toList = [':'] := rfl
  simp only [isoformat, String.toList_append, List.append_assoc, hd, ht, hc, List.cons_append,
    List.nil_append]

private theorem head?_fraction {n : Nat} {x : List Char} {c : Char}
    (hx : ∀ c ∈ x.head?, c.isDigit = false) (h : c ∈ ((fraction n).toList ++ x).head?) :
    c.isDigit = false := by
  rw [toList_fraction] at h
  split at h
  · exact hx c h
  · cases h
    rfl

private theorem head?_offsetSeconds {n : Nat} {c : Char} (h : c ∈ (offsetSeconds n).toList.head?) :
    c.isDigit = false := by
  rw [toList_offsetSeconds] at h
  split at h
  · cases h
  · cases h
    rfl

private theorem head?_formatOffset {offset : Option Int} {c : Char}
    (h : c ∈ (formatOffset offset).toList.head?) : c = '-' ∨ c = '+' := by
  cases offset with
  | none => cases h
  | some offset =>
    rw [toList_formatOffset] at h
    split at h <;> cases h
    · exact .inl rfl
    · exact .inr rfl

private theorem isDigit_head?_formatOffset (offset : Option Int) :
    ∀ c ∈ (formatOffset offset).toList.head?, c.isDigit = false := by
  intro c h
  rcases head?_formatOffset h with rfl | rfl <;> rfl

private theorem fraction_append_inj {m n : Nat} {x y : List Char}
    (hx : ∀ c ∈ x.head?, c.isDigit = false ∧ c ≠ '.')
    (hy : ∀ c ∈ y.head?, c.isDigit = false ∧ c ≠ '.')
    (h : (fraction m).toList ++ x = (fraction n).toList ++ y) : m = n ∧ x = y := by
  rw [toList_fraction, toList_fraction] at h
  by_cases hm : m = 0
  · by_cases hn : n = 0
    · rw [if_pos hm, if_pos hn] at h
      exact ⟨hm.trans hn.symm, h⟩
    · rw [if_pos hm, if_neg hn, List.nil_append] at h
      rw [h] at hx
      exact absurd rfl (hx '.' rfl).2
  · by_cases hn : n = 0
    · rw [if_neg hm, if_pos hn, List.nil_append] at h
      rw [← h] at hy
      exact absurd rfl (hy '.' rfl).2
    · rw [if_neg hm, if_neg hn, List.cons_append, List.cons_append, List.cons.injEq] at h
      exact pad_append_inj (fun c hc ↦ (hx c hc).1) (fun c hc ↦ (hy c hc).1) h.2

private theorem fraction_inj {m n : Nat} (h : (fraction m).toList = (fraction n).toList) :
    m = n := by
  have hn : ∀ c ∈ ([] : List Char).head?, c.isDigit = false ∧ c ≠ '.' := by simp
  refine (fraction_append_inj hn hn ?_).1
  rw [List.append_nil, List.append_nil, h]

private theorem offsetSeconds_inj {m n : Nat}
    (h : (offsetSeconds m).toList = (offsetSeconds n).toList) : m = n := by
  have hf (k : Nat) : ∀ c ∈ (fraction k).toList.head?, c.isDigit = false := by
    intro c hc
    rw [← List.append_nil (fraction k).toList] at hc
    exact head?_fraction (by simp) hc
  rw [toList_offsetSeconds, toList_offsetSeconds] at h
  by_cases hm : m = 0
  · by_cases hn : n = 0
    · rw [hm, hn]
    · rw [if_pos hm, if_neg hn] at h
      cases h
  · by_cases hn : n = 0
    · rw [if_neg hm, if_pos hn] at h
      cases h
    · rw [if_neg hm, if_neg hn, List.cons.injEq] at h
      obtain ⟨hs, hr⟩ := pad_append_inj (hf _) (hf _) h.2
      have hu := fraction_inj hr
      omega

private theorem formatOffset_inj {a b : Option Int}
    (h : (formatOffset a).toList = (formatOffset b).toList) : a = b := by
  cases a with
  | none =>
    cases b with
    | none => rfl
    | some b =>
      rw [toList_formatOffset] at h
      cases h
  | some a =>
    cases b with
    | none =>
      rw [toList_formatOffset] at h
      cases h
    | some b =>
      rw [toList_formatOffset, toList_formatOffset, List.cons.injEq] at h
      obtain ⟨hsign, h⟩ := h
      have hc (x : List Char) : ∀ c ∈ (':' :: x).head?, c.isDigit = false := by
        rintro c ⟨⟩
        rfl
      obtain ⟨hh, h⟩ := pad_append_inj (hc _) (hc _) h
      rw [List.cons.injEq] at h
      obtain ⟨hm, h⟩ := pad_append_inj (fun _ ↦ head?_offsetSeconds) (fun _ ↦ head?_offsetSeconds)
        h.2
      have hs := offsetSeconds_inj h
      have hneg : a < 0 ↔ b < 0 := by
        by_cases ha : a < 0
        · by_cases hb : b < 0
          · exact ⟨fun _ ↦ hb, fun _ ↦ ha⟩
          · rw [if_pos ha, if_neg hb] at hsign
            cases hsign
        · by_cases hb : b < 0
          · rw [if_neg ha, if_pos hb] at hsign
            cases hsign
          · exact ⟨fun h ↦ absurd h ha, fun h ↦ absurd h hb⟩
      refine congrArg some ?_
      omega

/-- The text of a point in time determines it. -/
theorem isoformat_injective : Function.Injective isoformat := by
  intro s t h
  have hl := congrArg String.toList h
  rw [toList_isoformat, toList_isoformat] at hl
  have hc {c : Char} (hd : c.isDigit = false) (x : List Char) :
      ∀ d ∈ (c :: x).head?, d.isDigit = false := by
    rintro d ⟨⟩
    exact hd
  have ho (n : Nat) (offset : Option Int) :
      ∀ c ∈ ((fraction n).toList ++ (formatOffset offset).toList).head?, c.isDigit = false :=
    fun c ↦ head?_fraction (isDigit_head?_formatOffset offset)
  have hp (offset : Option Int) :
      ∀ c ∈ (formatOffset offset).toList.head?, c.isDigit = false ∧ c ≠ '.' := by
    intro c hc
    refine ⟨isDigit_head?_formatOffset offset c hc, ?_⟩
    rcases head?_formatOffset hc with rfl | rfl <;> decide
  obtain ⟨hyear, hl⟩ := pad_append_inj (hc rfl _) (hc rfl _) hl
  obtain ⟨hmonth, hl⟩ := pad_append_inj (hc rfl _) (hc rfl _) (List.cons.inj hl).2
  obtain ⟨hday, hl⟩ := pad_append_inj (hc rfl _) (hc rfl _) (List.cons.inj hl).2
  obtain ⟨hhour, hl⟩ := pad_append_inj (hc rfl _) (hc rfl _) (List.cons.inj hl).2
  obtain ⟨hminute, hl⟩ := pad_append_inj (hc rfl _) (hc rfl _) (List.cons.inj hl).2
  obtain ⟨hsecond, hl⟩ := pad_append_inj (ho _ _) (ho _ _) (List.cons.inj hl).2
  obtain ⟨hmicro, hl⟩ := fraction_append_inj (hp _) (hp _) hl
  have hoffset := formatOffset_inj hl
  exact DateTime.ext hyear hmonth hday hhour hminute hsecond hmicro hoffset

end DateTime
end NhiSentinel.Base
