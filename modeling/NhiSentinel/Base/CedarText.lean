import NhiSentinel.Base.Cedar
import NhiSentinel.Base.Json

/-!
# Entities written as text

An entity is written as the name of its type and its identifier as a string literal. A literal
ends at its first quote that is not escaped, and its escapes are shorter in what they denote, so
a text stands for itself exactly when it holds no character that a literal has to escape.
-/

namespace NhiSentinel.Cedar
open NhiSentinel.Base

/-- What is left to the lexer: the characters that stand for themselves in a literal, and what
may follow a literal unread. -/
structure Lexer where
  plain : Char → Bool
  ignored : List Char → Bool
  plain_quote : plain '"' = false
  plain_backslash : plain '\\' = false
  ignored_nil : ignored [] = true

/-- Every character but quote, backslash and carriage return, with white space after it. -/
def Lexer.standard : Lexer where
  plain c := !(['"', '\\', '\r'].contains c)
  ignored cs := cs.all Char.isWhitespace
  plain_quote := rfl
  plain_backslash := rfl
  ignored_nil := rfl

/-! ### String literals -/

/-- Where the reading of a literal is: outside of an escape, after its backslash, in the digits
of `\x`, before and after the brace of `\u`. -/
inductive Mode where
  | text
  | escaped
  | byte (digits : List Nat)
  | braced
  | code (digits : List Nat)

/-- The number that hexadecimal digits stand for. -/
def ofDigits (digits : List Nat) : Nat := digits.foldl (fun n d ↦ 16 * n + d) 0

/-- The character that is written as a backslash and another. -/
def simpleEscape? (c : Char) : Option Char :=
  [('n', '\n'), ('r', '\r'), ('t', '\t'), ('0', '\x00'), ('\\', '\\'), ('\'', '\''),
    ('"', '"')].lookup c

/-- A character within an escape: it goes on, or ends with the character that it denotes. -/
def Mode.feed? (mode : Mode) (c : Char) : Option (Mode ⊕ Char) :=
  match mode with
  | .text => none
  | .escaped =>
    match simpleEscape? c with
    | some d => some (.inr d)
    | none =>
      if c = 'x' then some (.inl (.byte []))
      else if c = 'u' then some (.inl .braced)
      else none
  | .byte digits => do
    let d ← Json.hexDigit? c
    let n := ofDigits (digits ++ [d])
    if digits = [] then some (.inl (.byte [d]))
    else if n < 128 then some (.inr (Char.ofNat n))
    else none
  | .braced => if c = '{' then some (.inl (.code [])) else none
  | .code digits =>
    if c = '}' then
      if digits ≠ [] ∧ (ofDigits digits).isValidChar then some (.inr (Char.ofNat (ofDigits digits)))
      else none
    else if c = '_' then
      if digits = [] then none else some (.inl (.code digits))
    else do
      let d ← Json.hexDigit? c
      if digits.length < 6 then some (.inl (.code (digits ++ [d]))) else none

/-- A literal after its opening quote: the characters that it denotes, and what follows it. -/
def Lexer.readLiteral (lexer : Lexer) : Mode → List Char → Option (List Char × List Char)
  | _, [] => none
  | .text, c :: cs =>
    if c = '"' then some ([], cs)
    else if c = '\\' then lexer.readLiteral .escaped cs
    else if lexer.plain c then (lexer.readLiteral .text cs).map fun x ↦ (c :: x.1, x.2)
    else none
  | mode, c :: cs =>
    match mode.feed? c with
    | none => none
    | some (.inl mode) => lexer.readLiteral mode cs
    | some (.inr d) => (lexer.readLiteral .text cs).map fun x ↦ (d :: x.1, x.2)

namespace Lexer
variable {lexer : Lexer}

/-- Plain characters are read as they are. -/
theorem readLiteral_of_plain {s : List Char} (h : ∀ c ∈ s, lexer.plain c = true)
    (rest : List Char) : lexer.readLiteral .text (s ++ '"' :: rest) = some (s, rest) := by
  induction s with
  | nil =>
    rw [List.nil_append, readLiteral, if_pos rfl]
  | cons c s ih =>
    have hc := h c List.mem_cons_self
    have hq : c ≠ '"' := fun he ↦ Bool.false_ne_true (lexer.plain_quote.symm.trans (he ▸ hc))
    have hb : c ≠ '\\' := fun he ↦ Bool.false_ne_true (lexer.plain_backslash.symm.trans (he ▸ hc))
    rw [List.cons_append, readLiteral, if_neg hq, if_neg hb, if_pos hc,
      ih fun d hd ↦ h d (List.mem_cons_of_mem c hd)]
    rfl

/-- A literal denotes no more characters than it has, its closing quote not counted. -/
theorem length_readLiteral {mode : Mode} {cs s rest : List Char}
    (h : lexer.readLiteral mode cs = some (s, rest)) : s.length + rest.length < cs.length := by
  fun_induction readLiteral lexer mode cs generalizing s with
  | case1 => cases h
  | case2 cs =>
    cases h
    simp
  | case3 cs hq ih => exact (ih h).trans (Nat.lt_succ_self _)
  | case4 c cs hq hb hp ih =>
    obtain ⟨x, hx, he⟩ := Option.map_eq_some_iff.mp h
    cases he
    have hl := ih hx
    simp only [List.length_cons]
    omega
  | case5 => cases h
  | case6 => cases h
  | case7 mode c cs hm mode' hf ih => exact (ih h).trans (Nat.lt_succ_self _)
  | case8 mode c cs hm d hf ih =>
    obtain ⟨x, hx, he⟩ := Option.map_eq_some_iff.mp h
    cases he
    have hl := ih hx
    simp only [List.length_cons]
    omega

/-- A literal that denotes as many characters has plain ones only. -/
theorem plain_of_length_eq {cs s rest : List Char}
    (h : lexer.readLiteral .text cs = some (s, rest))
    (hl : s.length + rest.length + 1 = cs.length) : ∀ c ∈ s, lexer.plain c = true := by
  induction cs generalizing s with
  | nil => cases h
  | cons c cs ih =>
    rw [readLiteral] at h
    split at h
    · cases h
      exact fun c hc ↦ absurd hc List.not_mem_nil
    · split at h
      · have hlt := length_readLiteral h
        rw [List.length_cons] at hl
        omega
      · split at h
        · next hp =>
          obtain ⟨x, hx, he⟩ := Option.map_eq_some_iff.mp h
          cases he
          simp only [List.length_cons] at hl
          exact List.forall_mem_cons.mpr ⟨hp, ih hx (by omega)⟩
        · cases h

end Lexer

/-! ### Entities -/

/-- Whether identifiers joined by `::` follow, from the start of one or from within. -/
def isPath : Bool → List Char → Bool
  | start, [] => !start
  | start, ':' :: ':' :: cs => !start && isPath true cs
  | start, c :: cs =>
    (c.isAlpha || c = '_' || !start && c.isDigit) && isPath false cs

/-- The name before a literal, without its `::`. -/
def typeName? (cs : List Char) : Option (List Char) :=
  let name := cs.take (cs.length - 2)
  if cs = name ++ [':', ':'] ∧ isPath true name then some name else none

/-- The entity that a text names. -/
def Lexer.entity? (lexer : Lexer) (text : String) : Option EntityUID :=
  match typeName? (text.toList.takeWhile (· ≠ '"')), text.toList.dropWhile (· ≠ '"') with
  | some name, _ :: cs =>
    match lexer.readLiteral .text cs with
    | some (id, rest) =>
      if lexer.ignored rest then some ⟨String.ofList name, String.ofList id⟩ else none
    | none => none
  | _, _ => none

/-- The text of an entity, as it is written without escapes. -/
def entityText (type id : String) : String := type ++ "::\"" ++ id ++ "\""

private theorem quote_not_mem_of_isPath {start : Bool} {cs : List Char}
    (h : isPath start cs = true) : '"' ∉ cs := by
  fun_induction isPath start cs with
  | case1 => exact List.not_mem_nil
  | case2 start cs ih =>
    rw [Bool.and_eq_true] at h
    simpa using ih h.2
  | case3 start c cs hc ih =>
    rw [Bool.and_eq_true] at h
    intro hm
    rcases List.mem_cons.mp hm with rfl | hm
    · revert h
      cases start <;> simp +decide
    · exact ih h.2 hm

private theorem typeName?_append {name : List Char} (h : isPath true name = true) :
    typeName? (name ++ [':', ':']) = some name := by
  have ht : (name ++ [':', ':']).take ((name ++ [':', ':']).length - 2) = name := by
    rw [List.length_append]
    exact List.take_left
  rw [typeName?, ht]
  exact if_pos ⟨rfl, h⟩

namespace Lexer
variable {lexer : Lexer} {type id : String}

/-- What is read of an entity that was written without escapes. -/
theorem entity?_entityText (h : isPath true type.toList = true) :
    lexer.entity? (entityText type id) =
      (lexer.readLiteral .text (id.toList ++ ['"'])).bind fun x ↦
        if lexer.ignored x.2 then some ⟨type, String.ofList x.1⟩ else none := by
  have hl : (entityText type id).toList =
      (type.toList ++ [':', ':']) ++ '"' :: (id.toList ++ ['"']) := by
    rw [entityText, String.toList_append, String.toList_append, String.toList_append]
    show type.toList ++ [':', ':', '"'] ++ id.toList ++ ['"'] = _
    simp
  have hq : ∀ c ∈ type.toList ++ [':', ':'], decide (c ≠ '"') = true := by
    intro c hc
    apply decide_eq_true
    rintro rfl
    rcases List.mem_append.mp hc with hc | hc
    · exact quote_not_mem_of_isPath h hc
    · revert hc
      decide
  have ht : (entityText type id).toList.takeWhile (· ≠ '"') = type.toList ++ [':', ':'] := by
    rw [hl, List.takeWhile_append_of_pos hq]
    exact List.append_nil _
  have hd : (entityText type id).toList.dropWhile (· ≠ '"') = '"' :: (id.toList ++ ['"']) := by
    rw [hl, List.dropWhile_append_of_pos hq]
    rfl
  rw [entity?, ht, hd, typeName?_append h]
  dsimp only
  rw [String.ofList_toList]
  cases lexer.readLiteral .text (id.toList ++ ['"']) <;> rfl

/-- An entity that is written without escapes is read as itself exactly when the characters of its
identifier stand for themselves. -/
theorem entity?_eq_some_iff (h : isPath true type.toList = true) :
    lexer.entity? (entityText type id) = some ⟨type, id⟩ ↔
      ∀ c ∈ id.toList, lexer.plain c = true := by
  rw [entity?_entityText h]
  constructor
  · intro he
    obtain ⟨x, hx, he⟩ := Option.bind_eq_some_iff.mp he
    split at he
    · have hid : x.1 = id.toList := by
        rw [← EntityUID.mk.inj (Option.some.inj he) |>.2, String.toList_ofList]
      have hlt := length_readLiteral hx
      rw [List.length_append, List.length_singleton, ← hid] at hlt
      rw [← hid]
      apply plain_of_length_eq hx
      rw [List.length_append, List.length_singleton, ← hid]
      omega
    · cases he
  · intro hp
    rw [readLiteral_of_plain hp, Option.bind_some, if_pos lexer.ignored_nil, String.ofList_toList]

end Lexer
end NhiSentinel.Cedar
