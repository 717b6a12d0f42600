import Mathlib.Data.List.Sort
import NhiSentinel.Base.Json

/-!
# JSON text in ASCII

What `json.dumps` makes of strings: every character outside of ASCII as the escapes of its
UTF-16 code units. Reading a string back gives it again, so that no content of a string
passes for the end of it.
-/

namespace NhiSentinel.Base.Json

/-- The escape of a UTF-16 code unit. -/
def writeUnit (n : Nat) : List Char := '\\' :: 'u' :: (Python.hex 4 n).toList

/-- One character of a JSON string in ASCII. -/
def writeCharAscii (c : Char) : List Char :=
  if c = '"' then ['\\', '"']
  else if c = '\\' then ['\\', '\\']
  else if c = '\n' then ['\\', 'n']
  else if c = '\r' then ['\\', 'r']
  else if c = '\t' then ['\\', 't']
  else if c = '\x08' then ['\\', 'b']
  else if c = '\x0c' then ['\\', 'f']
  else if 0x20 ≤ c.toNat ∧ c.toNat < 0x7f then [c]
  else if c.toNat < 0x10000 then writeUnit c.toNat
  else
    let n := c.toNat - 0x10000
    writeUnit (0xd800 + n / 0x400) ++ writeUnit (0xdc00 + n % 0x400)

/-- A string in quotes. -/
def writeStringAscii (s : String) : List Char := '"' :: (s.toList.flatMap writeCharAscii ++ ['"'])

example : writeStringAscii "é\"𝄞" = "\"\\u00e9\\\"\\ud834\\udd1e\"".toList := by decide

/-- A member of an object of strings. -/
def writeMemberAscii (kv : String × String) : List Char :=
  writeStringAscii kv.1 ++ ':' :: writeStringAscii kv.2

/-- The members of an object of strings, separated by commas. -/
def writeMembersAscii : List (String × String) → List Char
  | [] => []
  | kv :: kvs => writeMemberAscii kv ++ kvs.flatMap fun kv ↦ ',' :: writeMemberAscii kv

/-- The items of a dictionary in the order of their keys. -/
def sortKeys (kvs : List (String × String)) : List (String × String) :=
  kvs.insertionSort fun a b ↦ a.1 ≤ b.1

/-- `json.dumps(d, sort_keys=True, separators=(",", ":"))` of a dictionary of strings. -/
def dumpsSorted (kvs : List (String × String)) : String :=
  String.ofList ('\x7b' :: (writeMembersAscii (sortKeys kvs) ++ ['\x7d']))

/-! ### Reading back -/

/-- What a character is read as. -/
private def pieces (c : Char) : List Piece :=
  if c ∈ ['"', '\\', '\n', '\r', '\t', '\x08', '\x0c'] ∨ (0x20 ≤ c.toNat ∧ c.toNat < 0x7f) then
    [.char c]
  else if c.toNat < 0x10000 then [.unit c.toNat]
  else [.unit (0xd800 + (c.toNat - 0x10000) / 0x400), .unit (0xdc00 + (c.toNat - 0x10000) % 0x400)]

/-- A hexadecimal digit is read back. -/
theorem hexDigit?_digitChar {d : Nat} (h : d < 16) : hexDigit? d.digitChar = some d := by
  have hd : ∀ d < 16, hexDigit? (Nat.digitChar d) = some d := by decide
  exact hd d h

/-- An escaped unit is read as that unit. -/
theorem readPieces_writeUnit {n : Nat} (h : n < 0x10000) {rest : List Char} :
    readPieces (writeUnit n ++ rest) =
      (readPieces rest).map fun p ↦ (.unit n :: p.1, p.2) := by
  rw [writeUnit, Python.toList_hex_four h]
  simp only [List.cons_append, List.nil_append, readPieces, codeUnit?]
  rw [hexDigit?_digitChar (by omega), hexDigit?_digitChar (by omega),
    hexDigit?_digitChar (by omega), hexDigit?_digitChar (by omega)]
  have hn : (n / 4096 * 16 + n / 256 % 16) * 256 + (n / 16 % 16 * 16 + n % 16) = n := by omega
  simp only [Option.bind_eq_bind, Option.bind_some, Option.pure_def, hn]
  cases readPieces rest <;> rfl

/-- A short escape is read as its character. -/
theorem readPieces_escape {e c : Char} (hu : e ≠ 'u') (he : escape? e = some c)
    (rest : List Char) :
    readPieces ('\\' :: e :: rest) = (readPieces rest).map fun p ↦ (.char c :: p.1, p.2) := by
  rw [readPieces, he]
  · simp only [Option.bind_eq_bind, Option.bind_some, Option.pure_def]
    cases readPieces rest <;> rfl
  · intro _ _ _ _ _ h
    exact absurd h hu

/-- A character that needs no escape is read as it is. -/
theorem readPieces_char {c : Char} (hq : c ≠ '"') (hb : c ≠ '\\') (hc : 0x20 ≤ c.toNat)
    (rest : List Char) :
    readPieces (c :: rest) = (readPieces rest).map fun p ↦ (.char c :: p.1, p.2) := by
  rw [readPieces, if_neg (by omega)]
  · simp only [Option.bind_eq_bind, Option.pure_def]
    cases readPieces rest <;> rfl
  · exact hq
  · intro _ _ _ _ _ h
    exact absurd h hb
  · intro _ _ h
    exact absurd h hb

private theorem toNat_valid (c : Char) :
    c.toNat < 0xd800 ∨ 0xe000 ≤ c.toNat ∧ c.toNat < 0x110000 := by
  have hv : c.toNat < 0xd800 ∨ 0xdfff < c.toNat ∧ c.toNat < 0x110000 := c.valid
  omega

private theorem readPieces_writeCharAscii (c : Char) (rest : List Char) :
    readPieces (writeCharAscii c ++ rest) =
      (readPieces rest).map fun p ↦ (pieces c ++ p.1, p.2) := by
  by_cases hm : c ∈ ['"', '\\', '\n', '\r', '\t', '\x08', '\x0c']
  · have hp : pieces c = [.char c] := if_pos (.inl hm)
    rw [hp]
    simp only [List.mem_cons, List.not_mem_nil, or_false] at hm
    rcases hm with rfl | rfl | rfl | rfl | rfl | rfl | rfl <;>
      exact readPieces_escape (by decide) rfl rest
  have hc : writeCharAscii c =
      if 0x20 ≤ c.toNat ∧ c.toNat < 0x7f then [c]
      else if c.toNat < 0x10000 then writeUnit c.toNat
      else writeUnit (0xd800 + (c.toNat - 0x10000) / 0x400) ++
        writeUnit (0xdc00 + (c.toNat - 0x10000) % 0x400) := by
    simp only [List.mem_cons, List.not_mem_nil, or_false, not_or] at hm
    simp only [writeCharAscii, hm, if_false]
  have hv := toNat_valid c
  rw [hc, pieces]
  simp only [hm, false_or]
  split
  · next h =>
    simp only [List.mem_cons, not_or] at hm
    exact readPieces_char hm.1 hm.2.1 h.1 rest
  · split
    · next h => exact readPieces_writeUnit h
    · next h =>
      rw [List.append_assoc, readPieces_writeUnit (by omega), readPieces_writeUnit (by omega),
        Option.map_map]
      rfl

/-- A unit that is no surrogate is a character. -/
theorem joinPieces_unit {n : Nat} (h : n < 0xd800 ∨ 0xe000 ≤ n) (ps : List Piece) :
    joinPieces (.unit n :: ps) = (joinPieces ps).map (Char.ofNat n :: ·) := by
  rw [joinPieces.eq_def]
  simp only [show ¬(0xd800 ≤ n ∧ n < 0xdc00) by omega, show ¬(0xdc00 ≤ n ∧ n < 0xe000) by omega,
    if_false]
  cases joinPieces ps <;> rfl

private theorem joinPieces_pieces (c : Char) (ps : List Piece) :
    joinPieces (pieces c ++ ps) = (joinPieces ps).map (c :: ·) := by
  have hv := toNat_valid c
  rw [pieces]
  split
  · rw [List.singleton_append, joinPieces]
    cases joinPieces ps <;> rfl
  · split
    · rw [List.singleton_append, joinPieces_unit (by omega), Char.ofNat_toNat]
    · next h =>
      have hn : 0x10000 + (0xd800 + (c.toNat - 0x10000) / 0x400 - 0xd800) * 0x400 +
          (0xdc00 + (c.toNat - 0x10000) % 0x400 - 0xdc00) = c.toNat := by omega
      rw [List.cons_append, List.singleton_append, joinPieces, if_pos (by omega)]
      simp only [hn, Char.ofNat_toNat]
      rw [if_pos (by omega)]
      cases joinPieces ps <;> rfl

/-- What is written of a string is read back, up to its closing quote. -/
theorem readString_writeAscii (s : String) (rest : List Char) :
    readString (s.toList.flatMap writeCharAscii ++ '"' :: rest) = some (s, rest) := by
  have hp : ∀ cs : List Char, readPieces (cs.flatMap writeCharAscii ++ '"' :: rest) =
      some (cs.flatMap pieces, rest) := by
    intro cs
    induction cs with
    | nil => rfl
    | cons c cs ih =>
      rw [List.flatMap_cons, List.append_assoc, readPieces_writeCharAscii, ih]
      rfl
  have hj : ∀ cs : List Char, joinPieces (cs.flatMap pieces) = some cs := by
    intro cs
    induction cs with
    | nil => rfl
    | cons c cs ih =>
      rw [List.flatMap_cons, joinPieces_pieces, ih]
      rfl
  simp only [readString, hp, Option.bind_eq_bind, Option.bind_some, hj, Option.pure_def,
    String.ofList_toList]

/-- A written string ends where its closing quote stands. -/
theorem writeStringAscii_append_inj {s t : String} {x y : List Char}
    (h : writeStringAscii s ++ x = writeStringAscii t ++ y) : s = t ∧ x = y := by
  simp only [writeStringAscii, List.cons_append, List.append_assoc, List.nil_append,
    List.cons.injEq, true_and] at h
  have hr := congrArg readString h
  rw [readString_writeAscii, readString_writeAscii] at hr
  exact Prod.mk.inj (Option.some.inj hr)

private theorem writeMemberAscii_append_inj {kv kv' : String × String} {x y : List Char}
    (h : writeMemberAscii kv ++ x = writeMemberAscii kv' ++ y) : kv = kv' ∧ x = y := by
  rw [writeMemberAscii, writeMemberAscii, List.append_assoc, List.append_assoc] at h
  obtain ⟨hk, h⟩ := writeStringAscii_append_inj h
  obtain ⟨hv, h⟩ := writeStringAscii_append_inj (List.cons.inj h).2
  exact ⟨Prod.ext hk hv, h⟩

private theorem writeTail_injective :
    Function.Injective fun kvs : List (String × String) ↦
      kvs.flatMap fun kv ↦ ',' :: writeMemberAscii kv := by
  intro kvs
  induction kvs with
  | nil =>
    intro kvs' h
    cases kvs' with
    | nil => rfl
    | cons kv' kvs' => cases h
  | cons kv kvs ih =>
    intro kvs' h
    cases kvs' with
    | nil => cases h
    | cons kv' kvs' =>
      simp only [List.flatMap_cons, List.cons_append, List.cons.injEq, true_and] at h
      obtain ⟨rfl, ht⟩ := writeMemberAscii_append_inj h
      rw [ih ht]

/-- The members of an object are determined by their text. -/
theorem writeMembersAscii_injective : Function.Injective writeMembersAscii := by
  intro kvs kvs' h
  cases kvs with
  | nil =>
    cases kvs' with
    | nil => rfl
    | cons kv' kvs' => cases h
  | cons kv kvs =>
    cases kvs' with
    | nil => cases h
    | cons kv' kvs' =>
      obtain ⟨rfl, ht⟩ := writeMemberAscii_append_inj h
      rw [writeTail_injective ht]

/-- A dictionary is determined by its text, up to the order of its items. -/
theorem sortKeys_eq_of_dumpsSorted_eq {kvs kvs' : List (String × String)}
    (h : dumpsSorted kvs = dumpsSorted kvs') : sortKeys kvs = sortKeys kvs' := by
  rw [dumpsSorted, dumpsSorted, String.ofList_inj, List.cons.injEq] at h
  exact writeMembersAscii_injective (List.append_cancel_right h.2)

/-! ### Control characters -/

private theorem nul_not_mem_writeUnit {n : Nat} (h : n < 0x10000) : '\x00' ∉ writeUnit n := by
  have hd (m : Nat) : '\x00' ≠ (m % 16).digitChar :=
    (by decide : ∀ d < 16, '\x00' ≠ d.digitChar) _ (Nat.mod_lt _ (by decide))
  have h₁ : n / 4096 = n / 4096 % 16 := by omega
  rw [writeUnit, Python.toList_hex_four h, h₁]
  simp [hd]

private theorem nul_not_mem_writeCharAscii (c : Char) : '\x00' ∉ writeCharAscii c := by
  unfold writeCharAscii
  split_ifs with _ _ _ _ _ _ _ hp hu
  · decide
  · decide
  · decide
  · decide
  · decide
  · decide
  · decide
  · rw [List.mem_singleton]
    rintro rfl
    exact absurd hp.1 (by decide)
  · exact nul_not_mem_writeUnit hu
  · have hv := toNat_valid c
    rw [List.mem_append, not_or]
    exact ⟨nul_not_mem_writeUnit (by omega), nul_not_mem_writeUnit (by omega)⟩

/-- No NUL is left in what is written. -/
theorem nul_not_mem_dumpsSorted (kvs : List (String × String)) :
    '\x00' ∉ (dumpsSorted kvs).toList := by
  have hs (s : String) : '\x00' ∉ writeStringAscii s := by
    rw [writeStringAscii, List.mem_cons, List.mem_append, List.mem_flatMap]
    rintro (h | ⟨c, -, h⟩ | h)
    · exact absurd h (by decide)
    · exact nul_not_mem_writeCharAscii c h
    · exact absurd h (by decide)
  have hm (kv : String × String) : '\x00' ∉ writeMemberAscii kv := by
    rw [writeMemberAscii, List.mem_append, List.mem_cons]
    rintro (h | h | h)
    · exact hs _ h
    · exact absurd h (by decide)
    · exact hs _ h
  rw [dumpsSorted, String.toList_ofList, List.mem_cons, List.mem_append]
  rintro (h | h | h)
  · exact absurd h (by decide)
  · cases hk : sortKeys kvs with
    | nil =>
      rw [hk] at h
      cases h
    | cons kv rest =>
      rw [hk, writeMembersAscii, List.mem_append, List.mem_flatMap] at h
      rcases h with h | ⟨kv', -, h⟩
      · exact hm kv h
      · rcases List.mem_cons.mp h with h | h
        · exact absurd h (by decide)
        · exact hm kv' h
  · exact absurd h (by decide)

end NhiSentinel.Base.Json
