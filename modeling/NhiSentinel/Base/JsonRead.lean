import NhiSentinel.Base.JsonAscii

/-!
# Reading documents back

The text of a document is read as the document, where no object repeats a key: strings,
numbers, and from them arrays and objects.
-/

namespace NhiSentinel.Base

namespace Value

mutual
/-- Whether no object of the document repeats a key. -/
def distinctKeys : Value → Bool
  | .arr xs => distinctKeysElems xs
  | .obj kvs => decide (kvs.map Prod.fst).Nodup && distinctKeysMembers kvs
  | _ => true
/-- `distinctKeys` of every element. -/
def distinctKeysElems : List Value → Bool
  | [] => true
  | x :: xs => x.distinctKeys && distinctKeysElems xs
/-- `distinctKeys` of every member. -/
def distinctKeysMembers : List (String × Value) → Bool
  | [] => true
  | (_, x) :: kvs => x.distinctKeys && distinctKeysMembers kvs
end

/-- A key that is not there is assigned at the end. -/
theorem setMember_of_not_mem {kvs : List (String × Value)} {key : String}
    (h : key ∉ kvs.map Prod.fst) (v : Value) : setMember kvs key v = kvs ++ [(key, v)] := by
  induction kvs with
  | nil => rfl
  | cons kv rest ih =>
    rw [List.map_cons, List.mem_cons, not_or] at h
    rw [setMember, if_neg (Ne.symm h.1), ih h.2, List.cons_append]

end Value

namespace Json

/-! ### Strings -/

/-- What a character is read as. -/
private def piece (c : Char) : Piece :=
  if c ∈ ['"', '\\', '\n', '\r', '\t', '\x08', '\x0c'] ∨ 0x20 ≤ c.toNat then .char c
  else .unit c.toNat

private theorem readPieces_writeChar (c : Char) (rest : List Char) :
    readPieces (writeChar c ++ rest) = (readPieces rest).map fun p ↦ (piece c :: p.1, p.2) := by
  by_cases hm : c ∈ ['"', '\\', '\n', '\r', '\t', '\x08', '\x0c']
  · have hp : piece c = .char c := if_pos (.inl hm)
    rw [hp]
    simp only [List.mem_cons, List.not_mem_nil, or_false] at hm
    rcases hm with rfl | rfl | rfl | rfl | rfl | rfl | rfl <;>
      exact readPieces_escape (by decide) rfl rest
  have hc : writeChar c = if c.toNat < 0x20 then writeUnit c.toNat else [c] := by
    simp only [List.mem_cons, List.not_mem_nil, or_false, not_or] at hm
    simp only [writeChar, hm, if_false, writeUnit]
  rw [hc, piece]
  simp only [hm, false_or]
  split
  · next h =>
    rw [readPieces_writeUnit (by omega), if_neg (by omega)]
  · next h =>
    simp only [List.mem_cons, not_or] at hm
    rw [List.singleton_append, readPieces_char hm.1 hm.2.1 (by omega), if_pos (by omega)]

private theorem joinPieces_piece (c : Char) (ps : List Piece) :
    joinPieces (piece c :: ps) = (joinPieces ps).map (c :: ·) := by
  rw [piece]
  split
  · rw [joinPieces]
    cases joinPieces ps <;> rfl
  · next h =>
    rw [joinPieces_unit (by omega), Char.ofNat_toNat]

/-- The characters of a written string are read up to its closing quote. -/
theorem readString_write (s : String) (rest : List Char) :
    readString (s.toList.flatMap writeChar ++ '"' :: rest) = some (s, rest) := by
  have hp : ∀ cs : List Char, readPieces (cs.flatMap writeChar ++ '"' :: rest) =
      some (cs.map piece, rest) := by
    intro cs
    induction cs with
    | nil => rfl
    | cons c cs ih =>
      rw [List.flatMap_cons, List.append_assoc, readPieces_writeChar, ih]
      rfl
  have hj : ∀ cs : List Char, joinPieces (cs.map piece) = some cs := by
    intro cs
    induction cs with
    | nil => rfl
    | cons c cs ih =>
      rw [List.map_cons, joinPieces_piece, ih]
      rfl
  simp only [readString, hp, Option.bind_eq_bind, Option.bind_some, hj, Option.pure_def,
    String.ofList_toList]

/-! ### Numbers -/

/-- What may follow a document: nothing, or what closes or separates. -/
def Closes (rest : List Char) : Prop := ∀ c ∈ rest.head?, c = ',' ∨ c = ']' ∨ c = '\x7d'

private theorem Closes.takeWhile {rest : List Char} (h : Closes rest) :
    rest.takeWhile Char.isDigit = [] := by
  cases rest with
  | nil => rfl
  | cons c rest => rcases h c rfl with rfl | rfl | rfl <;> rfl

private theorem Closes.dropWhile {rest : List Char} (h : Closes rest) :
    rest.dropWhile Char.isDigit = rest := by
  cases rest with
  | nil => rfl
  | cons c rest => rcases h c rfl with rfl | rfl | rfl <;> rfl

private theorem Closes.readFraction {rest : List Char} (h : Closes rest) :
    readFraction rest = some ([], rest) := by
  cases rest with
  | nil => rfl
  | cons c rest => rcases h c rfl with rfl | rfl | rfl <;> rfl

private theorem Closes.readExponent {rest : List Char} (h : Closes rest) :
    readExponent rest = some (0, rest) := by
  cases rest with
  | nil => rfl
  | cons c rest => rcases h c rfl with rfl | rfl | rfl <;> rfl

private theorem ofDigits_eq {ds : List Char} (h : ∀ c ∈ ds, c.isDigit = true) :
    ofDigits ds = Python.digitsValue 10 ds := by
  have hf : ∀ n, ds.foldl (fun n d ↦ n * 10 + (d.toNat - '0'.toNat)) n =
      ds.foldl (fun n d ↦ 10 * n + Python.digitValue d) n := by
    induction ds with
    | nil => exact fun _ ↦ rfl
    | cons d ds ih =>
      intro n
      obtain ⟨hd, hs⟩ := List.forall_mem_cons.mp h
      have hn : d ≤ '9' := by
        simp only [Char.isDigit, Bool.and_eq_true, decide_eq_true_eq] at hd
        exact hd.2
      rw [List.foldl_cons, List.foldl_cons, Python.digitValue, if_pos hn, Nat.mul_comm, ih hs]
  exact hf 0

/-- Digits without a leading zero, and after a dot more of them. -/
theorem readNumber_digits (negative : Bool) {whole fraction rest : List Char}
    (hw : ∀ c ∈ whole, c.isDigit = true) (hf : ∀ c ∈ fraction, c.isDigit = true)
    (hn : whole ≠ []) (hz : ¬ (whole.head? = some '0' ∧ 1 < whole.length)) (hr : Closes rest) :
    readNumber ((if negative then ['-'] else []) ++ (whole ++
        ((if fraction = [] then [] else '.' :: fraction) ++ rest))) =
      some (.num (scaled ((if negative then -1 else 1) * ofDigits (whole ++ fraction))
        (0 - fraction.length)), rest) := by
  have htake (x : List Char) : (fraction ++ x).takeWhile Char.isDigit =
      fraction ++ x.takeWhile Char.isDigit := List.takeWhile_append_of_pos hf
  have hdrop (x : List Char) : (fraction ++ x).dropWhile Char.isDigit =
      x.dropWhile Char.isDigit := List.dropWhile_append_of_pos hf
  -- what follows the digits before the dot
  obtain ⟨tail, ht⟩ : ∃ tail, tail = (if fraction = [] then [] else '.' :: fraction) ++ rest :=
    ⟨_, rfl⟩
  have htail : tail.takeWhile Char.isDigit = [] ∧ tail.dropWhile Char.isDigit = tail ∧
      readFraction tail = some (fraction, rest) := by
    rw [ht]
    by_cases he : fraction = []
    · rw [if_pos he, List.nil_append, he]
      exact ⟨hr.takeWhile, hr.dropWhile, hr.readFraction⟩
    · rw [if_neg he, List.cons_append]
      refine ⟨rfl, rfl, ?_⟩
      simp only [readFraction, htake, hdrop, hr.takeWhile, hr.dropWhile, List.append_nil, he,
        if_false]
  have hwhole : (whole ++ tail).takeWhile Char.isDigit = whole ∧
      (whole ++ tail).dropWhile Char.isDigit = tail := by
    rw [List.takeWhile_append_of_pos hw, List.dropWhile_append_of_pos hw, htail.1, htail.2.1]
    exact ⟨List.append_nil whole, rfl⟩
  rw [← ht]
  cases negative with
  | true =>
    simp only [readNumber, if_true, List.singleton_append, hwhole, hn, hz, or_self, if_false,
      htail.2.2, hr.readExponent, Option.bind_eq_bind, Option.bind_some, Option.pure_def]
  | false =>
    obtain ⟨d, ds, rfl⟩ := List.exists_cons_of_ne_nil hn
    have hd : d ≠ '-' := by
      rintro rfl
      exact absurd (hw '-' List.mem_cons_self) (by decide)
    rw [List.cons_append] at hwhole ⊢
    simp only [readNumber, Bool.false_eq_true, if_false, List.nil_append]
    split
    · next hc => exact absurd (List.cons.inj hc).1 hd
    · simp only [hwhole, hn, hz, or_self, if_false, htail.2.2, hr.readExponent,
        Option.bind_eq_bind, Option.bind_some, Option.pure_def]

private theorem head?_toDigits {n : Nat} (h : n ≠ 0) : (Nat.toDigits 10 n).head? ≠ some '0' := by
  induction n using Nat.strong_induction_on with
  | _ n ih =>
    rw [Nat.toDigits_eq_if (by decide)]
    split
    · next hn =>
      have hd : ∀ d < 10, d ≠ 0 → Nat.digitChar d ≠ '0' := by decide
      simpa using hd n hn h
    · next hn =>
      have hi := ih (n / 10) (by omega) (by omega)
      cases hc : Nat.toDigits 10 (n / 10) with
      | nil => exact absurd hc Nat.toDigits_ne_nil
      | cons d ds => rwa [hc] at hi

private theorem isDigit_of_mem_toDigits {n : Nat} : ∀ c ∈ Nat.toDigits 10 n, c.isDigit = true :=
  fun _ hc ↦ Nat.isDigit_of_mem_toDigits (by decide) (by decide) hc

private theorem isDigit_of_mem_leftpad {n width : Nat} :
    ∀ c ∈ (Nat.toDigits 10 n).leftpad width '0', c.isDigit = true := by
  intro c hc
  rw [List.leftpad, List.mem_append, List.mem_replicate] at hc
  rcases hc with ⟨-, rfl⟩ | hc
  · rfl
  · exact isDigit_of_mem_toDigits c hc

private theorem sign_mul_natAbs (m : Int) :
    (if decide (m < 0) = true then -1 else 1) * (m.natAbs : Int) = m := by
  by_cases h : m < 0
  · rw [if_pos (decide_eq_true h)]
    omega
  · rw [if_neg (by simpa using h)]
    omega

private theorem digits_split {n s : Nat} (hn : n ≠ 0) {padded : List Char}
    (hp : padded = (Nat.toDigits 10 n).leftpad (s + 1 + 1) '0') :
    ∃ whole fraction, padded.take (padded.length - (s + 1)) = whole ∧
      padded.drop (padded.length - (s + 1)) = fraction ∧ whole ++ fraction = padded ∧
      whole ≠ [] ∧ fraction.length = s + 1 ∧ ¬ (whole.head? = some '0' ∧ 1 < whole.length) := by
  have hl : padded.length = max (s + 2) (Nat.toDigits 10 n).length := by
    rw [hp, List.length_leftpad]
  have hw : (padded.take (padded.length - (s + 1))).length = padded.length - (s + 1) := by
    rw [List.length_take]
    omega
  refine ⟨_, _, rfl, rfl, List.take_append_drop _ _, ?_, ?_, ?_⟩
  · intro he
    rw [he, List.length_nil] at hw
    omega
  · rw [List.length_drop]
    omega
  · rintro ⟨hh, hlt⟩
    -- more than one digit before the dot: nothing was padded
    have hpad : padded = Nat.toDigits 10 n := by
      rw [hp, List.leftpad, Nat.sub_eq_zero_of_le (by omega)]
      rfl
    rw [List.head?_take, if_neg (by omega), hpad] at hh
    exact head?_toDigits hn hh

/-- A written number is read exactly. -/
theorem readNumber_write (n : Decimal) {rest : List Char} (hr : Closes rest) :
    readNumber (writeNumber n ++ rest) = some (.num n, rest) := by
  have hsign : (if n.mantissa < 0 then ['-'] else []) =
      if decide (n.mantissa < 0) = true then ['-'] else [] := by
    simp only [decide_eq_true_eq]
  simp only [writeNumber, hsign]
  obtain ⟨m, scale, lowest⟩ := n
  cases scale with
  | zero =>
    have hz : ¬ ((Nat.toDigits 10 m.natAbs).head? = some '0' ∧
        1 < (Nat.toDigits 10 m.natAbs).length) := by
      rintro ⟨hh, hl⟩
      by_cases h0 : m.natAbs = 0
      · rw [h0] at hl
        exact absurd hl (by decide)
      · exact head?_toDigits h0 hh
    have h := readNumber_digits (decide (m < 0)) isDigit_of_mem_toDigits
      (fun _ hc ↦ absurd hc List.not_mem_nil) Nat.toDigits_ne_nil hz hr
    rw [List.append_nil, ofDigits_eq isDigit_of_mem_toDigits,
      Python.digitsValue_toDigits (by decide) (by decide), sign_mul_natAbs] at h
    rw [if_pos rfl, List.append_assoc]
    refine h.trans ?_
    simp [scaled, Decimal.ofInt]
  | succ s =>
    have hm : m % 10 ≠ 0 := by
      rcases lowest with h | h <;> omega
    obtain ⟨padded, hp⟩ : ∃ padded, padded = (Nat.toDigits 10 m.natAbs).leftpad (s + 1 + 1) '0' :=
      ⟨_, rfl⟩
    obtain ⟨whole, fraction, hw, hf, hwf, hne, hl, hz⟩ := digits_split (by omega) hp
    have hd : ∀ c ∈ whole ++ fraction, c.isDigit = true := by
      rw [hwf, hp]
      exact isDigit_of_mem_leftpad
    have hfne : fraction ≠ [] := by
      rintro rfl
      cases hl
    have h := readNumber_digits (decide (m < 0)) (fun c hc ↦ hd c (List.mem_append_left _ hc))
      (fun c hc ↦ hd c (List.mem_append_right _ hc)) hne hz hr
    rw [ofDigits_eq hd, hwf, hp, Python.digitsValue_leftpad,
      Python.digitsValue_toDigits (by decide) (by decide), sign_mul_natAbs, if_neg hfne, hl] at h
    rw [if_neg (Nat.succ_ne_zero s), ← hp, hw, hf, List.append_assoc, List.append_assoc]
    refine h.trans ?_
    have hneg : ¬ (0 : Int) ≤ 0 - ((s + 1 : Nat) : Int) := by omega
    have hs : (-(0 - ((s + 1 : Nat) : Int))).toNat = s + 1 := by omega
    rw [scaled, if_neg hneg, hs, Decimal.reduce, dif_neg hm]

/-! ### Documents -/

private theorem head?_writeNumber (n : Decimal) :
    ∃ c cs, writeNumber n = c :: cs ∧ (c = '-' ∨ c.isDigit = true) := by
  have hd {ds : List Char} (hne : ds ≠ []) (hds : ∀ d ∈ ds, d.isDigit = true) (cs : List Char) :
      ∃ c tail, (if n.mantissa < 0 then ['-'] else []) ++ (ds ++ cs) = c :: tail ∧
        (c = '-' ∨ c.isDigit = true) := by
    obtain ⟨d, ds, rfl⟩ := List.exists_cons_of_ne_nil hne
    by_cases hn : n.mantissa < 0
    · exact ⟨'-', d :: ds ++ cs, by rw [if_pos hn]; rfl, .inl rfl⟩
    · exact ⟨d, ds ++ cs, by rw [if_neg hn]; rfl, .inr (hds d List.mem_cons_self)⟩
  simp only [writeNumber]
  split
  · have h := hd (Nat.toDigits_ne_nil (b := 10) (n := n.mantissa.natAbs)) isDigit_of_mem_toDigits []
    rwa [List.append_nil] at h
  · obtain ⟨m, scale, lowest⟩ := n
    cases scale with
    | zero => exact absurd rfl ‹_›
    | succ s =>
      have hm : m.natAbs ≠ 0 := by
        rcases lowest with h | h <;> omega
      obtain ⟨whole, fraction, hw, -, hwf, hne, -, -⟩ := digits_split hm rfl
      have hds : ∀ d ∈ whole ++ fraction, d.isDigit = true := by
        rw [hwf]
        exact isDigit_of_mem_leftpad
      rw [hw, List.append_assoc]
      exact hd hne (fun d hd ↦ hds d (List.mem_append_left _ hd)) _

private theorem head?_write {v : Value} {cs : List Char} (h : write v = some cs) :
    ∃ c ds, cs = c :: ds ∧ isSpace c = false ∧ c ≠ ']' ∧ c ≠ '\x7d' := by
  cases v with
  | null =>
    cases h
    exact ⟨_, _, rfl, by decide⟩
  | bool b =>
    cases h
    cases b <;> exact ⟨_, _, rfl, by decide⟩
  | num n =>
    cases h
    obtain ⟨c, cs, hc, hcd⟩ := head?_writeNumber n
    refine ⟨c, cs, hc, ?_⟩
    rw [← not_or, ← Bool.not_eq_true, ← not_or]
    rintro (hs | rfl | rfl)
    · simp only [isSpace, Bool.or_eq_true, decide_eq_true_eq] at hs
      rcases hs with ((rfl | rfl) | rfl) | rfl <;> exact absurd hcd (by decide)
    all_goals exact absurd hcd (by decide)
  | str s =>
    cases h
    exact ⟨_, _, rfl, by decide⟩
  | arr xs =>
    simp only [write, Option.bind_eq_bind, Option.bind_eq_some_iff, Option.pure_def,
      Option.some.injEq] at h
    obtain ⟨ds, -, rfl⟩ := h
    exact ⟨_, _, rfl, by decide⟩
  | obj kvs =>
    simp only [write, Option.bind_eq_bind, Option.bind_eq_some_iff, Option.pure_def,
      Option.some.injEq] at h
    obtain ⟨ds, -, rfl⟩ := h
    exact ⟨_, _, rfl, by decide⟩
  | other => cases h

private theorem head?_writeElems {xs : List Value} (hn : xs ≠ []) {cs : List Char}
    (h : writeElems xs = some cs) :
    ∃ c ds, cs = c :: ds ∧ isSpace c = false ∧ c ≠ ']' := by
  match xs, hn with
  | [x], _ =>
    obtain ⟨c, ds, rfl, hs, hb, -⟩ := head?_write h
    exact ⟨c, ds, rfl, hs, hb⟩
  | x :: y :: ys, _ =>
    simp only [writeElems, Option.bind_eq_bind, Option.bind_eq_some_iff, Option.pure_def,
      Option.some.injEq] at h
    obtain ⟨xcs, hx, ycs, -, rfl⟩ := h
    obtain ⟨c, ds, rfl, hs, hb, -⟩ := head?_write hx
    exact ⟨c, _, rfl, hs, hb⟩

private theorem head?_writeMembers {kvs : List (String × Value)} (hn : kvs ≠ []) {cs : List Char}
    (h : writeMembers kvs = some cs) : ∃ ds, cs = '"' :: ds := by
  match kvs, hn with
  | [(k, x)], _ =>
    simp only [writeMembers, Option.bind_eq_bind, Option.bind_eq_some_iff, Option.pure_def,
      Option.some.injEq] at h
    obtain ⟨xcs, -, rfl⟩ := h
    exact ⟨_, rfl⟩
  | (k, x) :: kv :: kvs, _ =>
    simp only [writeMembers, Option.bind_eq_bind, Option.bind_eq_some_iff, Option.pure_def,
      Option.some.injEq] at h
    obtain ⟨xcs, -, ycs, -, rfl⟩ := h
    exact ⟨_, rfl⟩

private theorem skip_write {v : Value} {cs : List Char} (h : write v = some cs)
    (rest : List Char) : skip (cs ++ rest) = cs ++ rest := by
  obtain ⟨c, ds, rfl, hs, -⟩ := head?_write h
  exact skip_of_not_space hs _

private theorem closes_of_mem {c : Char} (h : c ∈ [',', ']', '\x7d']) (rest : List Char) :
    Closes (c :: rest) := by
  rintro _ ⟨⟩
  simpa using h

section
variable {fuel : Nat} {before : List (String × Value)} {k : String} {x : Value}
  {xcs rest more : List Char}

-- a member is read, and another one after it
private theorem readMembers_member (hx : write x = some xcs)
    (hr : readValue fuel (xcs ++ rest) = some (x, rest)) (hk : k ∉ before.map Prod.fst)
    (hs : skip rest = ',' :: more) :
    readMembers (fuel + 1) before (writeString k ++ ':' :: (xcs ++ rest)) =
      readMembers fuel (before ++ [(k, x)]) (skip more) := by
  simp only [writeString, List.cons_append, List.append_assoc, List.nil_append, readMembers,
    readString_write, Option.bind_eq_bind, Option.bind_some,
    skip_of_not_space (c := ':') (by decide), skip_write hx, hr, Value.setMember_of_not_mem hk, hs]

-- the last member is read
private theorem readMembers_last (hx : write x = some xcs)
    (hr : readValue fuel (xcs ++ rest) = some (x, rest)) (hk : k ∉ before.map Prod.fst)
    (hs : skip rest = '\x7d' :: more) :
    readMembers (fuel + 1) before (writeString k ++ ':' :: (xcs ++ rest)) =
      some (before ++ [(k, x)], more) := by
  simp only [writeString, List.cons_append, List.append_assoc, List.nil_append, readMembers,
    readString_write, Option.bind_eq_bind, Option.bind_some,
    skip_of_not_space (c := ':') (by decide), skip_write hx, hr, Value.setMember_of_not_mem hk, hs,
    Option.pure_def]

end

mutual
/-- A written document is read back. -/
theorem readValue_write : (v : Value) → {cs rest : List Char} → {fuel : Nat} →
    write v = some cs → v.distinctKeys = true → cs.length ≤ fuel → Closes rest →
      readValue fuel (cs ++ rest) = some (v, rest)
  | .null, cs, rest, fuel, h, _, hf, _ => by
    cases h
    cases fuel with
    | zero => cases hf
    | succ fuel => rfl
  | .bool b, cs, rest, fuel, h, _, hf, _ => by
    cases h
    cases fuel with
    | zero => cases b <;> cases hf
    | succ fuel => cases b <;> rfl
  | .num n, cs, rest, fuel, h, _, hf, hr => by
    cases h
    have hn := readNumber_write n hr
    obtain ⟨c, cs, hc, hcd⟩ := head?_writeNumber n
    rw [hc] at hf hn ⊢
    cases fuel with
    | zero => cases hf
    | succ fuel =>
      rw [List.cons_append] at hn ⊢
      rw [readValue]
      · exact hn
      -- no other kind of document begins like a number
      all_goals
        intro _ hx
        rw [(List.cons.inj hx).1] at hcd
        exact absurd hcd (by decide)
  | .str s, cs, rest, fuel, h, _, hf, _ => by
    cases h
    cases fuel with
    | zero => cases hf
    | succ fuel =>
      simp only [writeString, List.cons_append, List.append_assoc, List.nil_append, readValue,
        readString_write, Option.bind_eq_bind, Option.bind_some, Option.pure_def]
  | .arr xs, cs, rest, fuel, h, hk, hf, _ => by
    simp only [write, Option.bind_eq_bind, Option.bind_eq_some_iff, Option.pure_def,
      Option.some.injEq] at h
    obtain ⟨ds, hd, rfl⟩ := h
    cases fuel with
    | zero => cases hf
    | succ fuel =>
      rw [List.append_assoc, List.cons_append, readValue, List.singleton_append]
      by_cases hx : xs = []
      · subst hx
        cases hd
        rfl
      · have hl : ds.length < fuel := by
          simp at hf
          omega
        have hr : readElems fuel (ds ++ ']' :: rest) = some (xs, rest) :=
          readElems_write xs hx hd hk hl
        obtain ⟨c, ds, rfl, hs, hb⟩ := head?_writeElems hx hd
        rw [List.cons_append] at hr ⊢
        rw [skip_of_not_space hs]
        split
        · next he => exact absurd (List.cons.inj he).1 hb
        · rw [hr]
          rfl
  | .obj kvs, cs, rest, fuel, h, hk, hf, _ => by
    simp only [write, Option.bind_eq_bind, Option.bind_eq_some_iff, Option.pure_def,
      Option.some.injEq] at h
    obtain ⟨ds, hd, rfl⟩ := h
    cases fuel with
    | zero => cases hf
    | succ fuel =>
      rw [Value.distinctKeys, Bool.and_eq_true, decide_eq_true_eq] at hk
      rw [List.append_assoc, List.cons_append, readValue, List.singleton_append]
      by_cases hx : kvs = []
      · subst hx
        cases hd
        rfl
      · have hl : ds.length < fuel := by
          simp at hf
          omega
        have hr : readMembers fuel [] (ds ++ '\x7d' :: rest) = some (kvs, rest) :=
          readMembers_write kvs hx hd hk.2 hk.1 hl
        obtain ⟨ds, rfl⟩ := head?_writeMembers hx hd
        rw [List.cons_append] at hr ⊢
        rw [skip_of_not_space (by decide)]
        split
        · next he => exact absurd (List.cons.inj he).1 (by decide)
        · rw [hr]
          rfl
  | .other _, _, _, _, h, _, _, _ => by cases h
/-- The elements of an array are read up to its bracket. -/
theorem readElems_write : (xs : List Value) → {cs rest : List Char} → {fuel : Nat} →
    xs ≠ [] → writeElems xs = some cs → Value.distinctKeysElems xs = true → cs.length < fuel →
      readElems fuel (cs ++ ']' :: rest) = some (xs, rest)
  | [], _, _, _, hn, _, _, _ => absurd rfl hn
  | [x], cs, rest, fuel, _, h, hk, hf => by
    cases fuel with
    | zero => cases hf
    | succ fuel =>
      rw [Value.distinctKeysElems, Bool.and_eq_true] at hk
      rw [readElems, readValue_write x h hk.1 (by omega) (closes_of_mem (by decide) _)]
      rfl
  | x :: y :: ys, cs, rest, fuel, _, h, hk, hf => by
    cases fuel with
    | zero => cases hf
    | succ fuel =>
      rw [Value.distinctKeysElems, Bool.and_eq_true] at hk
      simp only [writeElems, Option.bind_eq_bind, Option.bind_eq_some_iff, Option.pure_def,
        Option.some.injEq] at h
      obtain ⟨xcs, hx, ycs, hy, rfl⟩ := h
      have hy' : writeElems (y :: ys) = some ycs := hy
      simp only [List.length_append, List.length_cons] at hf
      have hl : ycs.length < fuel := by omega
      have hr : readElems fuel (ycs ++ ']' :: rest) = some (y :: ys, rest) :=
        readElems_write (y :: ys) (List.cons_ne_nil _ _) hy' hk.2 hl
      obtain ⟨c, ds, rfl, hs, -⟩ := head?_writeElems (List.cons_ne_nil _ _) hy'
      rw [List.append_assoc, List.cons_append, readElems,
        readValue_write x hx hk.1 (by omega) (closes_of_mem (by decide) _)]
      simp only [Option.bind_eq_bind, Option.bind_some, skip_of_not_space (c := ',') (by decide),
        List.cons_append, skip_of_not_space hs]
      rw [List.cons_append] at hr
      rw [hr]
      rfl
/-- The members of an object are read up to its brace, after those read before. -/
theorem readMembers_write : (kvs : List (String × Value)) →
    {before : List (String × Value)} → {cs rest : List Char} → {fuel : Nat} → kvs ≠ [] →
    writeMembers kvs = some cs → Value.distinctKeysMembers kvs = true →
    ((before ++ kvs).map Prod.fst).Nodup → cs.length < fuel →
      readMembers fuel before (cs ++ '\x7d' :: rest) = some (before ++ kvs, rest)
  | [], _, _, _, _, hn, _, _, _, _ => absurd rfl hn
  | [(k, x)], before, cs, rest, fuel, _, h, hk, hd, hf => by
    cases fuel with
    | zero => cases hf
    | succ fuel =>
      rw [Value.distinctKeysMembers, Bool.and_eq_true] at hk
      simp only [writeMembers, Option.bind_eq_bind, Option.bind_eq_some_iff, Option.pure_def,
        Option.some.injEq] at h
      obtain ⟨xcs, hx, rfl⟩ := h
      simp only [List.length_append, List.length_cons] at hf
      rw [List.map_append, List.map_cons, List.nodup_middle, List.nodup_cons] at hd
      have hl : xcs.length ≤ fuel := by omega
      have hv := readValue_write x hx hk.1 hl (closes_of_mem (c := '\x7d') (by decide) rest)
      rw [List.append_assoc, List.cons_append,
        readMembers_last hx hv (fun hm ↦ hd.1 (List.mem_append_left _ hm))
          (skip_of_not_space (by decide) rest)]
  | (k, x) :: kv :: kvs, before, cs, rest, fuel, _, h, hk, hd, hf => by
    cases fuel with
    | zero => cases hf
    | succ fuel =>
      rw [Value.distinctKeysMembers, Bool.and_eq_true] at hk
      simp only [writeMembers, Option.bind_eq_bind, Option.bind_eq_some_iff, Option.pure_def,
        Option.some.injEq] at h
      obtain ⟨xcs, hx, ycs, hy, rfl⟩ := h
      have hy' : writeMembers (kv :: kvs) = some ycs := hy
      simp only [List.length_append, List.length_cons] at hf
      have hl : ycs.length < fuel := by omega
      have hd' : ((before ++ [(k, x)] ++ kv :: kvs).map Prod.fst).Nodup := by
        rwa [List.append_assoc]
      have hr : readMembers fuel (before ++ [(k, x)]) (ycs ++ '\x7d' :: rest) =
          some (before ++ [(k, x)] ++ kv :: kvs, rest) :=
        readMembers_write (kv :: kvs) (List.cons_ne_nil _ _) hy' hk.2 hd' hl
      rw [List.map_append, List.map_cons, List.nodup_middle, List.nodup_cons] at hd
      have hx' : xcs.length ≤ fuel := by omega
      have hv := readValue_write x hx hk.1 hx'
        (closes_of_mem (c := ',') (by decide) (ycs ++ '\x7d' :: rest))
      obtain ⟨ds, rfl⟩ := head?_writeMembers (List.cons_ne_nil _ _) hy'
      rw [List.append_assoc, List.cons_append, List.append_assoc, List.cons_append,
        readMembers_member hx hv (fun hm ↦ hd.1 (List.mem_append_left _ hm))
          (skip_of_not_space (by decide) _)]
      rw [List.cons_append, skip_of_not_space (by decide)]
      rw [List.append_assoc] at hr
      exact hr
end

/-- The text of a document without repeated keys is read as the document. -/
theorem parse_write {v : Value} {cs : List Char} (h : write v = some cs)
    (hk : v.distinctKeys = true) : parse (String.ofList cs) = some v := by
  have hc : Closes [] := fun _ hc ↦ by cases hc
  have hr := readValue_write v h hk (Nat.le_succ _) hc
  have hs := skip_write h []
  rw [List.append_nil] at hr hs
  rw [parse, String.toList_ofList, hs, String.length_ofList, hr]
  rfl

mutual
/-- What can be written is what holds no object that JSON cannot write. -/
theorem isSome_write : (v : Value) → (write v).isSome = v.isJson
  | .null | .bool _ | .num _ | .str _ | .other _ => by simp [write, Value.isJson]
  | .arr xs => by
    rw [write, Value.isJson, ← isSome_writeElems xs]
    cases writeElems xs <;> rfl
  | .obj kvs => by
    rw [write, Value.isJson, ← isSome_writeMembers kvs]
    cases writeMembers kvs <;> rfl
private theorem isSome_writeElems : (xs : List Value) →
    (writeElems xs).isSome = Value.isJsonElems xs
  | [] => rfl
  | [x] => by
    rw [writeElems, isSome_write x, Value.isJsonElems, Value.isJsonElems, Bool.and_true]
  | x :: y :: xs => by
    rw [Value.isJsonElems, ← isSome_write x, ← isSome_writeElems (y :: xs), writeElems]
    · cases write x <;> cases writeElems (y :: xs) <;> rfl
    · exact nofun
private theorem isSome_writeMembers : (kvs : List (String × Value)) →
    (writeMembers kvs).isSome = Value.isJsonMembers kvs
  | [] => rfl
  | [(k, x)] => by
    rw [Value.isJsonMembers, Value.isJsonMembers, ← isSome_write x, Bool.and_true, writeMembers]
    cases write x <;> rfl
  | (k, x) :: kv :: kvs => by
    rw [Value.isJsonMembers, ← isSome_write x, ← isSome_writeMembers (kv :: kvs), writeMembers]
    · cases write x <;> cases writeMembers (kv :: kvs) <;> rfl
    · exact nofun
end

end Json

/-! ### Dictionaries -/

/-- Whether the value can be a Python dictionary: an object that repeats no key, or `other` for a
dictionary whose keys are not all texts. -/
def Value.isDict : Value → Bool
  | .obj kvs => (obj kvs).distinctKeys
  | .other _ => true
  | _ => false

/-- A JSON dictionary is an object. -/
theorem Value.exists_obj {v : Value} (hd : v.isDict = true) (hj : v.isJson = true) :
    ∃ kvs, v = .obj kvs ∧ (obj kvs).distinctKeys = true := by
  cases v with
  | obj kvs => exact ⟨kvs, rfl, hd⟩
  | other => cases hj
  | _ => cases hd

/-- How a library writes a dictionary as JSON: the members that are read back, or nothing where it
raises. What JSON has no kind for may be written in another form. -/
abbrev DictForm := Value → Option (List (String × Value))

/-- The documented behaviour: JSON is kept as it is, as are keys that are texts, and what is kept of
anything is JSON. -/
structure DictForm.Lawful (form : DictForm) : Prop where
  self : ∀ kvs, (Value.obj kvs).isDict = true → (Value.obj kvs).isJson = true →
    form (.obj kvs) = some kvs
  keys : ∀ kvs kvs', form (.obj kvs) = some kvs' → kvs'.map Prod.fst = kvs.map Prod.fst
  json : ∀ v kvs, form v = some kvs →
    (Value.obj kvs).isDict = true ∧ (Value.obj kvs).isJson = true

/-- What is kept is kept as it is. -/
theorem DictForm.Lawful.self_of_eq {form : DictForm} (h : form.Lawful) {v : Value}
    {kvs : List (String × Value)} (hv : form v = some kvs) : form (.obj kvs) = some kvs :=
  h.self kvs (h.json v kvs hv).1 (h.json v kvs hv).2

end NhiSentinel.Base
