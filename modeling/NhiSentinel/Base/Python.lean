import NhiSentinel.Base.Value

/-!
# Text that Python writes

The printed form of strings, of dictionaries of strings and of points in time. Which
characters count as printable, and how an object that is not a string is displayed, is
left to the interpreter.
-/

namespace NhiSentinel.Base

/-- What an interpreter brings along: `str.isprintable` of a character beyond ASCII and
`str` of an object that is not a string. -/
structure Runtime where
  printable : Char → Bool
  display : Value → String

namespace Python

/-- A number in hexadecimal with leading zeros. -/
def hex (width n : Nat) : String :=
  String.ofList ((Nat.toDigits 16 n).leftpad width '0')

/-! ### Digits -/

/-- The number that a digit stands for. -/
def digitValue (c : Char) : Nat :=
  if c ≤ '9' then c.toNat - '0'.toNat else c.toNat - 'a'.toNat + 10

/-- The number that a list of digits stands for. -/
def digitsValue (base : Nat) (ds : List Char) : Nat :=
  ds.foldl (fun n d ↦ base * n + digitValue d) 0

private theorem digitValue_digitChar {d : Nat} (h : d < 16) : digitValue d.digitChar = d := by
  have hd : ∀ d < 16, digitValue (Nat.digitChar d) = d := by decide
  exact hd d h

private theorem digitsValue_concat (base : Nat) (ds : List Char) (d : Char) :
    digitsValue base (ds ++ [d]) = base * digitsValue base ds + digitValue d := by
  rw [digitsValue, List.foldl_append]
  rfl

/-- The digits of a number have its value. -/
theorem digitsValue_toDigits {base : Nat} (h : 1 < base) (h' : base ≤ 16) (n : Nat) :
    digitsValue base (Nat.toDigits base n) = n := by
  induction n using Nat.strong_induction_on with
  | _ n ih =>
    rw [Nat.toDigits_eq_if h]
    split
    · next hn =>
      show base * 0 + digitValue _ = n
      rw [digitValue_digitChar (by omega)]
      omega
    · next hn =>
      have hl : n / base < n := Nat.div_lt_self (by omega) h
      have hm : n % base < base := Nat.mod_lt n (by omega)
      rw [digitsValue_concat, ih _ hl, digitValue_digitChar (by omega)]
      exact Nat.div_add_mod n base

/-- Zeros in front do not change the value of digits. -/
theorem digitsValue_leftpad (base width : Nat) (ds : List Char) :
    digitsValue base (ds.leftpad width '0') = digitsValue base ds := by
  have hz : ∀ k, (List.replicate k '0').foldl (fun n d ↦ base * n + digitValue d) 0 = 0 := by
    intro k
    induction k with
    | zero => rfl
    | succ k ih =>
      rw [List.replicate_succ, List.foldl_cons]
      exact ih
  rw [digitsValue, List.leftpad, List.foldl_append, hz]
  rfl

/-- The padded digits of a number determine it. -/
theorem leftpad_toDigits_inj {base width m n : Nat} (h : 1 < base) (h' : base ≤ 16) :
    (Nat.toDigits base m).leftpad width '0' = (Nat.toDigits base n).leftpad width '0' ↔ m = n := by
  constructor
  · intro he
    have hv := congrArg (digitsValue base) he
    rwa [digitsValue_leftpad, digitsValue_leftpad, digitsValue_toDigits h h',
      digitsValue_toDigits h h'] at hv
  · rintro rfl
    rfl

/-- The four digits of a UTF-16 code unit. -/
theorem toList_hex_four {n : Nat} (h : n < 65536) :
    (hex 4 n).toList = [(n / 4096).digitChar, (n / 256 % 16).digitChar, (n / 16 % 16).digitChar,
      (n % 16).digitChar] := by
  have step (m : Nat) (hm : ¬ m < 16) :
      Nat.toDigits 16 m = Nat.toDigits 16 (m / 16) ++ [(m % 16).digitChar] := by
    rw [Nat.toDigits_eq_if (by decide), if_neg hm]
  have h₂ : n / 16 / 16 = n / 256 := Nat.div_div_eq_div_mul n 16 16
  have h₃ : n / 256 / 16 = n / 4096 := Nat.div_div_eq_div_mul n 256 16
  rw [hex, String.toList_ofList]
  by_cases h1 : n < 16
  · rw [Nat.toDigits_of_lt_base h1, show n / 4096 = 0 by omega, show n / 256 = 0 by omega,
      show n / 16 = 0 by omega, Nat.mod_eq_of_lt h1]
    rfl
  rw [step n h1]
  by_cases h2 : n / 16 < 16
  · rw [Nat.toDigits_of_lt_base h2, show n / 4096 = 0 by omega, show n / 256 = 0 by omega,
      Nat.mod_eq_of_lt h2]
    rfl
  rw [step _ h2, h₂]
  by_cases h3 : n / 256 < 16
  · rw [Nat.toDigits_of_lt_base h3, show n / 4096 = 0 by omega, Nat.mod_eq_of_lt h3]
    rfl
  rw [step _ h3, h₃, Nat.toDigits_of_lt_base (by omega)]
  rfl

/-! ### Identifiers -/

/-- The digits of a UUID in five groups. -/
def uuidGroups (digits : List Char) : List Char :=
  digits.take 8 ++ '-' :: ((digits.drop 8).take 4 ++ '-' :: ((digits.drop 12).take 4 ++
    '-' :: ((digits.drop 16).take 4 ++ '-' :: digits.drop 20)))

/-- `str` of a `uuid.UUID`, which is an integer of 128 bits. -/
def uuidStr (id : BitVec 128) : String := String.ofList (uuidGroups (hex 32 id.toNat).toList)

example : uuidStr 0x12345678123456781234567812345678#128 =
    "12345678-1234-5678-1234-567812345678" := by decide

private theorem uuidGroups_inj {ds es : List Char} (hd : 20 ≤ ds.length) (he : 20 ≤ es.length)
    (h : uuidGroups ds = uuidGroups es) : ds = es := by
  have hg (k : Nat) (xs : List Char) : xs.drop k = (xs.drop k).take 4 ++ xs.drop (k + 4) := by
    rw [← List.drop_drop, List.take_append_drop]
  simp only [uuidGroups] at h
  obtain ⟨h₁, h⟩ := List.append_inj h (by simp only [List.length_take]; omega)
  obtain ⟨h₂, h⟩ := List.append_inj (List.cons.inj h).2 (by simp; omega)
  obtain ⟨h₃, h⟩ := List.append_inj (List.cons.inj h).2 (by simp; omega)
  obtain ⟨h₄, h⟩ := List.append_inj (List.cons.inj h).2 (by simp; omega)
  calc ds = ds.take 8 ++ ((ds.drop 8).take 4 ++ ((ds.drop 12).take 4 ++ ((ds.drop 16).take 4 ++
        ds.drop 20))) := by
        rw [← hg 16, ← hg 12, ← hg 8, List.take_append_drop]
    _ = es.take 8 ++ ((es.drop 8).take 4 ++ ((es.drop 12).take 4 ++ ((es.drop 16).take 4 ++
        es.drop 20))) := by
        rw [h₁, h₂, h₃, h₄, (List.cons.inj h).2]
    _ = es := by rw [← hg 16, ← hg 12, ← hg 8, List.take_append_drop]

/-- A UUID is determined by its text. -/
theorem uuidStr_injective : Function.Injective uuidStr := by
  intro m n h
  have hl (id : BitVec 128) : 20 ≤ (hex 32 id.toNat).toList.length := by
    rw [hex, String.toList_ofList, List.length_leftpad]
    omega
  have he := uuidGroups_inj (hl m) (hl n) (String.ofList_inj.mp h)
  rw [hex, hex, String.toList_ofList, String.toList_ofList,
    leftpad_toDigits_inj (by decide) (by decide)] at he
  exact BitVec.eq_of_toNat_eq he

/-! ### Printed strings -/

/-- One character of a string literal between the given quotes. -/
def reprChar (rt : Runtime) (quote c : Char) : String :=
  if c = quote ∨ c = '\\' then String.ofList ['\\', c]
  else if c = '\t' then "\\t"
  else if c = '\n' then "\\n"
  else if c = '\r' then "\\r"
  else if c.toNat < 0x20 ∨ c.toNat = 0x7f then "\\x" ++ hex 2 c.toNat
  else if c.toNat < 0x7f ∨ rt.printable c then c.toString
  else if c.toNat < 0x100 then "\\x" ++ hex 2 c.toNat
  else if c.toNat < 0x10000 then "\\u" ++ hex 4 c.toNat
  else "\\U" ++ hex 8 c.toNat

/-- `repr` of a string: single quotes, unless it has some and no double ones. -/
def reprStr (rt : Runtime) (s : String) : String :=
  let quote := if '\'' ∈ s.toList ∧ '"' ∉ s.toList then '"' else '\''
  quote.toString ++ String.join (s.toList.map (reprChar rt quote)) ++ quote.toString

/-- `str` of a dictionary from strings to strings. -/
def strDict (rt : Runtime) (items : List (String × String)) : String :=
  "\x7b" ++ ", ".intercalate (items.map fun kv ↦ reprStr rt kv.1 ++ ": " ++ reprStr rt kv.2) ++
    "\x7d"

/-- `str` of an object, as a formatted string inserts it. -/
def str (rt : Runtime) : Value → String
  | .str s => s
  | v => rt.display v

/-! ### Letter case -/

/-- A text whose ASCII letters are converted one by one; how a text with other characters is
converted is left to the interpreter. -/
def mapAscii (convert : Char → Char) (other : String → String) (s : String) : String :=
  if s.toList.all (·.toNat < 0x80) then s.map convert else other s

/-- `str.upper`. -/
def upper (other : String → String) : String → String := mapAscii Char.toUpper other

/-- `str.lower`. -/
def lower (other : String → String) : String → String := mapAscii Char.toLower other

/-- The lower case of a text of ASCII does not depend on the rest. -/
theorem lower_congr (other other' : String → String) {s : String}
    (h : s.toList.all (·.toNat < 0x80) = true) : lower other s = lower other' s := by
  rw [lower, lower, mapAscii, mapAscii, if_pos h, if_pos h]

/-- A text in upper case is left as it is. -/
theorem upper_eq_self (other : String → String) {s : String}
    (ha : s.toList.all (·.toNat < 0x80) = true) (hu : s.toList.map Char.toUpper = s.toList) :
    upper other s = s := by
  rw [upper, mapAscii, if_pos ha, ← String.toList_inj, String.toList_map, hu]

/-! ### Time -/

/-- A number in decimal with leading zeros. -/
def pad (width n : Nat) : String := String.ofList ((Nat.toDigits 10 n).leftpad width '0')

private theorem isDigit_of_mem_pad {width n : Nat} {c : Char} (h : c ∈ (pad width n).toList) :
    c.isDigit = true := by
  rw [pad, String.toList_ofList, List.leftpad, List.mem_append] at h
  rcases h with h | h
  · rw [List.eq_of_mem_replicate h]
    rfl
  · exact Nat.isDigit_of_mem_toDigits (by decide) (by decide) h

private theorem takeWhile_append {p : Char → Bool} {a x : List Char} (ha : ∀ c ∈ a, p c = true)
    (hx : ∀ c ∈ x.head?, p c = false) : (a ++ x).takeWhile p = a := by
  rw [List.takeWhile_append_of_pos ha]
  cases x with
  | nil => rw [List.takeWhile_nil, List.append_nil]
  | cons c x => rw [List.takeWhile_cons, hx c rfl, if_neg Bool.false_ne_true, List.append_nil]

/-- A padded number ends where the digits end. -/
theorem pad_append_inj {width m n : Nat} {x y : List Char} (hx : ∀ c ∈ x.head?, c.isDigit = false)
    (hy : ∀ c ∈ y.head?, c.isDigit = false)
    (h : (pad width m).toList ++ x = (pad width n).toList ++ y) : m = n ∧ x = y := by
  have ht := congrArg (List.takeWhile Char.isDigit) h
  rw [takeWhile_append (fun _ ↦ isDigit_of_mem_pad) hx,
    takeWhile_append (fun _ ↦ isDigit_of_mem_pad) hy] at ht
  refine ⟨?_, ?_⟩
  · rw [pad, pad, String.toList_ofList, String.toList_ofList] at ht
    exact (leftpad_toDigits_inj (by decide) (by decide)).mp ht
  · rw [ht] at h
    exact List.append_cancel_left h

/-- Year, month and day of a day counted from 1970-01-01. The count is moved to eras of 400
years that begin in March. -/
def civil (day : Nat) : Nat × Nat × Nat :=
  let z := day + 719468
  let doe := z % 146097
  let yoe := (doe - doe / 1460 + doe / 36524 - doe / 146096) / 365
  let doy := doe - (365 * yoe + yoe / 4 - yoe / 100)
  let mp := (5 * doy + 2) / 153
  let month := if mp < 10 then mp + 3 else mp - 9
  let year := yoe + z / 146097 * 400 + if month ≤ 2 then 1 else 0
  (year, month, doy - (153 * mp + 2) / 5 + 1)

/-- The year of an era of 400 years that a day of it lies in. -/
def yearOfEra (doe : Nat) : Nat := (doe - doe / 1460 + doe / 36524 - doe / 146096) / 365

/-- The days of an era before a year of it. -/
def daysOfEra (yoe : Nat) : Nat := 365 * yoe + yoe / 4 - yoe / 100

/-- A day of an era lies in its year. -/
theorem day_in_year {doe : Nat} (h : doe < 146097) :
    yearOfEra doe < 400 ∧ daysOfEra (yearOfEra doe) ≤ doe ∧
      doe ≤ daysOfEra (yearOfEra doe) + 365 := by
  rcases Nat.lt_or_ge doe 146096 with hd | hd
  · have hf : doe / 146096 = 0 := Nat.div_eq_of_lt hd
    obtain ⟨n, hn⟩ : ∃ n, n = doe - doe / 1460 + doe / 36524 - doe / 146096 := ⟨_, rfl⟩
    obtain ⟨a, ha⟩ : ∃ a, a = n / 365 := ⟨_, rfl⟩
    have hy : yearOfEra doe = a := by rw [ha, hn]; rfl
    rw [hy, daysOfEra]
    have hle : a / 100 ≤ doe / 36524 := by
      by_contra hlt
      have hg : 25 * (doe / 36524 + 1) ≤ doe / 1460 := by omega
      omega
    have hge : doe / 36524 ≤ a / 100 := by omega
    have hk : a / 4 ≤ doe / 1460 := by
      have h₁ : 1460 * (a / 4) ≤ n := by omega
      omega
    have hk' : doe / 1460 ≤ a / 4 + 1 := by
      have h₁ : n ≤ 1460 * (a / 4) + 1459 := by omega
      have h₂ : a / 4 < 100 := by omega
      omega
    refine ⟨by omega, by omega, by omega⟩
  · obtain rfl : doe = 146096 := by omega
    decide

/-- The date of a day determines the day. -/
theorem civil_injective : Function.Injective civil := by
  intro m n h
  have hm : (m + 719468) % 146097 < 146097 := by omega
  have hn : (n + 719468) % 146097 < 146097 := by omega
  obtain ⟨hma, hml, hmu⟩ := day_in_year hm
  obtain ⟨hna, hnl, hnu⟩ := day_in_year hn
  have hc (k : Nat) : civil k =
      let doe := (k + 719468) % 146097
      let doy := doe - daysOfEra (yearOfEra doe)
      let mp := (5 * doy + 2) / 153
      let month := if mp < 10 then mp + 3 else mp - 9
      (yearOfEra doe + (k + 719468) / 146097 * 400 + (if month ≤ 2 then 1 else 0), month,
        doy - (153 * mp + 2) / 5 + 1) := rfl
  rw [hc, hc] at h
  simp only [Prod.mk.injEq] at h
  obtain ⟨hy, hm, hd⟩ := h
  rw [hm] at hy
  have hyear : yearOfEra ((m + 719468) % 146097) = yearOfEra ((n + 719468) % 146097) := by omega
  rw [hyear] at hm hd hml hmu
  -- the month is that of a year that begins in March
  have hmp :
      (5 * ((m + 719468) % 146097 - daysOfEra (yearOfEra ((n + 719468) % 146097))) + 2) / 153 =
        (5 * ((n + 719468) % 146097 - daysOfEra (yearOfEra ((n + 719468) % 146097))) + 2) /
          153 := by
    split at hm <;> split at hm <;> omega
  omega

/-- `datetime.min` in UTC, in microseconds since 1970. -/
def datetimeMin : Int := -62135596800000000

/-- `datetime.max` in UTC, in microseconds since 1970. -/
def datetimeMax : Nat := 253402300799999999

/-- `isoformat` of a point in time in UTC, given in microseconds since 1970. -/
def isoformat (now : Nat) : String :=
  let (year, month, day) := civil (now / 86400000000)
  let seconds := now / 1000000 % 86400
  let micros := now % 1000000
  let fraction := if micros = 0 then "" else "." ++ pad 6 micros
  s!"{pad 4 year}-{pad 2 month}-{pad 2 day}T{pad 2 (seconds / 3600)}:" ++
    s!"{pad 2 (seconds / 60 % 60)}:{pad 2 (seconds % 60)}{fraction}+00:00"

example : isoformat 1709164800000042 = "2024-02-29T00:00:00.000042+00:00" := by decide

end Python
end NhiSentinel.Base
