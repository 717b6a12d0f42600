import NhiSentinel.Base.Python

/-!
# JSON text

Documents written as compact JSON and read back. A repeated key keeps its first place and
its last value; numbers are read exactly.
-/

namespace NhiSentinel.Base.Json

/-! ### Writing -/

/-- One character of a JSON string. -/
def writeChar (c : Char) : List Char :=
  if c = '"' then ['\\', '"']
  else if c = '\\' then ['\\', '\\']
  else if c = '\n' then ['\\', 'n']
  else if c = '\r' then ['\\', 'r']
  else if c = '\t' then ['\\', 't']
  else if c = '\x08' then ['\\', 'b']
  else if c = '\x0c' then ['\\', 'f']
  else if c.toNat < 0x20 then '\\' :: 'u' :: (Python.hex 4 c.toNat).toList
  else [c]

/-- A string in quotes. -/
def writeString (s : String) : List Char := '"' :: (s.toList.flatMap writeChar ++ ['"'])

/-- A number without exponent. -/
def writeNumber (n : Decimal) : List Char :=
  let digits := Nat.toDigits 10 n.mantissa.natAbs
  let sign := if n.mantissa < 0 then ['-'] else []
  if n.scale = 0 then sign ++ digits
  else
    let padded := digits.leftpad (n.scale + 1) '0'
    sign ++ padded.take (padded.length - n.scale) ++ '.' :: padded.drop (padded.length - n.scale)

mutual
/-- A document, unless it holds an object that JSON cannot write. -/
def write : Value → Option (List Char)
  | .null => some "null".toList
  | .bool b => some (if b then "true".toList else "false".toList)
  | .num n => some (writeNumber n)
  | .str s => some (writeString s)
  | .arr xs => do return '[' :: (← writeElems xs) ++ [']']
  | .obj kvs => do return '\x7b' :: (← writeMembers kvs) ++ ['\x7d']
  | .other _ => none
/-- The elements of an array, separated by commas. -/
def writeElems : List Value → Option (List Char)
  | [] => some []
  | [x] => write x
  | x :: xs => do return (← write x) ++ ',' :: (← writeElems xs)
/-- The members of an object, separated by commas. -/
def writeMembers : List (String × Value) → Option (List Char)
  | [] => some []
  | [(k, x)] => do return writeString k ++ ':' :: (← write x)
  | (k, x) :: kvs => do return writeString k ++ ':' :: (← write x) ++ ',' :: (← writeMembers kvs)
end

/-! ### Reading -/

/-- The four whitespace characters. -/
def isSpace (c : Char) : Bool := c = ' ' || c = '\t' || c = '\n' || c = '\r'

/-- The text after leading whitespace. -/
def skip (cs : List Char) : List Char := cs.dropWhile isSpace

/-- The value of a hexadecimal digit. -/
def hexDigit? (c : Char) : Option Nat :=
  if '0' ≤ c ∧ c ≤ '9' then some (c.toNat - '0'.toNat)
  else if 'a' ≤ c ∧ c ≤ 'f' then some (c.toNat - 'a'.toNat + 10)
  else if 'A' ≤ c ∧ c ≤ 'F' then some (c.toNat - 'A'.toNat + 10)
  else none

/-- Four hexadecimal digits as a UTF-16 code unit. -/
def codeUnit? (a b c d : Char) : Option Nat := do
  return ((← hexDigit? a) * 16 + (← hexDigit? b)) * 256 + ((← hexDigit? c) * 16 + (← hexDigit? d))

/-- The character of an escape of one letter. -/
def escape? : Char → Option Char
  | '"' => some '"'
  | '\\' => some '\\'
  | '/' => some '/'
  | 'b' => some '\x08'
  | 'f' => some '\x0c'
  | 'n' => some '\n'
  | 'r' => some '\r'
  | 't' => some '\t'
  | _ => none

/-- What stands in a string: a character, or the code unit of a `\u` escape. -/
inductive Piece where
  | char (c : Char)
  | unit (n : Nat)

/-- The pieces up to the closing quote, and the text after it. -/
def readPieces : List Char → Option (List Piece × List Char)
  | [] => none
  | '"' :: rest => some ([], rest)
  | '\\' :: 'u' :: a :: b :: c :: d :: rest => do
    let unit ← codeUnit? a b c d
    let (ps, rest') ← readPieces rest
    return (.unit unit :: ps, rest')
  | '\\' :: c :: rest => do
    let ch ← escape? c
    let (ps, rest') ← readPieces rest
    return (.char ch :: ps, rest')
  | c :: rest =>
    if c.toNat < 0x20 then none
    else do
      let (ps, rest') ← readPieces rest
      return (.char c :: ps, rest')

/-- The characters of a string: a surrogate pair is one, a lone surrogate is refused. -/
def joinPieces : List Piece → Option (List Char)
  | [] => some []
  | .char c :: rest => do return c :: (← joinPieces rest)
  | .unit n :: rest =>
    if 0xd800 ≤ n ∧ n < 0xdc00 then
      match rest with
      | .unit low :: rest =>
        if 0xdc00 ≤ low ∧ low < 0xe000 then do
          return Char.ofNat (0x10000 + (n - 0xd800) * 0x400 + (low - 0xdc00)) ::
            (← joinPieces rest)
        else none
      | _ => none
    else if 0xdc00 ≤ n ∧ n < 0xe000 then none
    else do return Char.ofNat n :: (← joinPieces rest)

/-- The string up to the closing quote, and the text after it. -/
def readString (cs : List Char) : Option (String × List Char) := do
  let (ps, rest) ← readPieces cs
  return (String.ofList (← joinPieces ps), rest)

/-- The number of a list of decimal digits. -/
def ofDigits (ds : List Char) : Nat := ds.foldl (fun n d ↦ n * 10 + (d.toNat - '0'.toNat)) 0

/-- The optional fraction: its digits. -/
def readFraction : List Char → Option (List Char × List Char)
  | '.' :: rest =>
    let ds := rest.takeWhile Char.isDigit
    if ds = [] then none else some (ds, rest.dropWhile Char.isDigit)
  | rest => some ([], rest)

/-- The optional exponent. -/
def readExponent : List Char → Option (Int × List Char)
  | [] => some (0, [])
  | e :: rest =>
    if e = 'e' ∨ e = 'E' then
      let (sign, rest) := match rest with
        | '-' :: rest => ((-1 : Int), rest)
        | '+' :: rest => (1, rest)
        | rest => (1, rest)
      let ds := rest.takeWhile Char.isDigit
      if ds = [] then none else some (sign * ofDigits ds, rest.dropWhile Char.isDigit)
    else some (0, e :: rest)

/-- The number `m · 10 ^ e`. -/
def scaled (m e : Int) : Decimal :=
  if 0 ≤ e then .ofInt (m * 10 ^ e.toNat) else .reduce m (-e).toNat

/-- A number: no leading zero before another digit. -/
def readNumber (cs : List Char) : Option (Value × List Char) := do
  let (sign, cs) := match cs with
    | '-' :: rest => ((-1 : Int), rest)
    | rest => (1, rest)
  let ds := cs.takeWhile Char.isDigit
  if ds = [] ∨ (ds.head? = some '0' ∧ 1 < ds.length) then none
  else
    let (fraction, rest) ← readFraction (cs.dropWhile Char.isDigit)
    let (e, rest) ← readExponent rest
    return (.num (scaled (sign * ofDigits (ds ++ fraction)) (e - fraction.length)), rest)

mutual
/-- A document and the text after it. -/
def readValue : Nat → List Char → Option (Value × List Char)
  | 0, _ => none
  | fuel + 1, cs =>
    match cs with
    | 'n' :: 'u' :: 'l' :: 'l' :: rest => some (.null, rest)
    | 't' :: 'r' :: 'u' :: 'e' :: rest => some (.bool true, rest)
    | 'f' :: 'a' :: 'l' :: 's' :: 'e' :: rest => some (.bool false, rest)
    | '"' :: rest => do
      let (s, rest) ← readString rest
      return (.str s, rest)
    | '[' :: rest =>
      match skip rest with
      | ']' :: rest => some (.arr [], rest)
      | rest => do
        let (xs, rest) ← readElems fuel rest
        return (.arr xs, rest)
    | '\x7b' :: rest =>
      match skip rest with
      | '\x7d' :: rest => some (.obj [], rest)
      | rest => do
        let (kvs, rest) ← readMembers fuel [] rest
        return (.obj kvs, rest)
    | cs => readNumber cs
/-- The elements up to the closing bracket. -/
def readElems : Nat → List Char → Option (List Value × List Char)
  | 0, _ => none
  | fuel + 1, cs => do
    let (x, rest) ← readValue fuel cs
    match skip rest with
    | ',' :: rest =>
      let (xs, rest) ← readElems fuel (skip rest)
      return (x :: xs, rest)
    | ']' :: rest => return ([x], rest)
    | _ => none
/-- The members up to the closing brace, after those read before. -/
def readMembers : Nat → List (String × Value) → List Char →
    Option (List (String × Value) × List Char)
  | 0, _, _ => none
  | fuel + 1, before, cs =>
    match cs with
    | '"' :: rest => do
      let (key, rest) ← readString rest
      match skip rest with
      | ':' :: rest =>
        let (x, rest) ← readValue fuel (skip rest)
        let kvs := Value.setMember before key x
        match skip rest with
        | ',' :: rest => readMembers fuel kvs (skip rest)
        | '\x7d' :: rest => return (kvs, rest)
        | _ => none
      | _ => none
    | _ => none
end

/-- The document that a text is, with nothing but whitespace around it. -/
def parse (s : String) : Option Value := do
  let (v, rest) ← readValue (s.length + 1) (skip s.toList)
  if skip rest = [] then some v else none

/-- Only spaces are skipped. -/
theorem skip_of_not_space {c : Char} (h : isSpace c = false) (cs : List Char) :
    skip (c :: cs) = c :: cs := by
  rw [skip, List.dropWhile_cons, h]
  rfl

/-- A text that begins like an object but goes on with neither a key nor a closing brace is no
document. -/
theorem parse_brace {c : Char} (hs : isSpace c = false) (hq : c ≠ '"') (hb : c ≠ '\x7d')
    (cs : List Char) : parse (String.ofList ('\x7b' :: c :: cs)) = none := by
  have hm : ∀ fuel, readMembers fuel [] (c :: cs) = none := by
    intro fuel
    cases fuel with
    | zero => rfl
    | succ fuel =>
      rw [readMembers]
      rintro rest hr
      cases hr
      exact absurd rfl hq
  have hv : ∀ fuel, readValue fuel ('\x7b' :: c :: cs) = none := by
    intro fuel
    cases fuel with
    | zero => rfl
    | succ fuel =>
      rw [readValue, skip_of_not_space hs]
      split
      · next hr =>
        cases hr
        exact absurd rfl hb
      · rw [hm]
        rfl
  rw [parse, String.toList_ofList, skip_of_not_space (by decide), hv]
  rfl

example : parse "\x7b\"a\": [1, 2.50, -3e2, \"\\u00e9\"], \"b\": null, \"a\": true\x7d" =
    some (.obj [("a", .bool true), ("b", .null)]) := by decide +kernel

end NhiSentinel.Base.Json
