import Mathlib.Data.List.DropRight
import NhiSentinel.Base.Text

/-!
# Words in texts of unknown case

`str.strip` and `str.lower` on arbitrary texts, and where a word of ASCII letters occurs
in the lowered text: exactly where it occurs in the text in some capitalization.
-/

namespace NhiSentinel.Base.Python

/-! ### Whitespace -/

/-- `str.isspace` of a character. -/
def isSpace (c : Char) : Bool :=
  let n := c.toNat
  (0x9 ≤ n && n ≤ 0xd) || (0x1c ≤ n && n ≤ 0x20) || n == 0x85 || n == 0xa0 || n == 0x1680 ||
    (0x2000 ≤ n && n ≤ 0x200a) || n == 0x2028 || n == 0x2029 || n == 0x202f || n == 0x205f ||
    n == 0x3000

/-- `str.strip()` on characters. -/
def stripChars (s : List Char) : List Char := (s.dropWhile isSpace).rdropWhile isSpace

/-- `str.strip()`. -/
def strip (s : String) : String := String.ofList (stripChars s.toList)

private theorem infix_dropWhile {p : Char → Bool} {w s : List Char} (hw : w ≠ [])
    (hp : ∀ c ∈ w, p c = false) (h : w <:+: s) : w <:+: s.dropWhile p := by
  induction s with
  | nil => exact absurd (List.infix_nil.mp h) hw
  | cons c s ih =>
    rw [List.dropWhile_cons]
    split
    · next hc =>
      rcases List.infix_cons_iff.mp h with hs | hs
      · cases w with
        | nil => exact absurd rfl hw
        | cons d w =>
          have hd := hp d List.mem_cons_self
          rw [(List.cons_prefix_cons.mp hs).1, hc] at hd
          cases hd
      · exact ih hs
    · exact h

/-- Stripping keeps the words without whitespace. -/
theorem infix_stripChars_iff {w : List Char} (hw : w ≠ []) (hp : ∀ c ∈ w, isSpace c = false)
    (s : List Char) : w <:+: stripChars s ↔ w <:+: s := by
  constructor
  · intro h
    exact h.trans
      ((List.rdropWhile_prefix _ _).isInfix.trans (List.dropWhile_suffix _).isInfix)
  · intro h
    have hd := infix_dropWhile hw hp h
    have hr : w.reverse <:+: ((s.dropWhile isSpace).reverse.dropWhile isSpace) := by
      apply infix_dropWhile
      · simpa using hw
      · simpa using hp
      · exact List.reverse_infix.mpr hd
    rw [stripChars, List.rdropWhile, ← List.reverse_infix, List.reverse_reverse]
    exact hr

/-! ### Lower case -/

/-- How characters beyond ASCII are lowered, each in its context: to something, and to no
ASCII letter but the two that occur in such mappings. -/
structure LowerCase where
  other : List Char → Char → List Char → List Char
  ne_nil : ∀ before c after, other before c after ≠ []
  letters : ∀ before c after, 0x80 ≤ c.toNat → ∀ x ∈ other before c after,
    x.isAlpha = true → x = 'i' ∨ x = 'k'

/-- The ASCII letters are ASCII characters. -/
theorem toNat_of_isAlpha {x : Char} (h : x.isAlpha = true) : x.toNat < 0x80 := by
  have ha : (decide ('A'.val ≤ x.val ∧ x.val ≤ 'Z'.val) ||
      (decide ('a'.val ≤ x.val) && decide (x.val ≤ 'z'.val))) = true := h
  rw [Bool.or_eq_true, Bool.and_eq_true, decide_eq_true_eq, decide_eq_true_eq,
    decide_eq_true_eq] at ha
  rcases ha with ⟨-, hz⟩ | ⟨-, hz⟩
  · have hn : x.toNat ≤ 90 := UInt32.le_iff_toNat_le.mp hz
    omega
  · have hn : x.toNat ≤ 122 := UInt32.le_iff_toNat_le.mp hz
    omega

namespace LowerCase

/-- Characters beyond ASCII left as they are. -/
def plain : LowerCase where
  other _ c _ := [c]
  ne_nil _ _ _ := List.cons_ne_nil _ _
  letters _ _ _ h _ hx ha :=
    absurd (toNat_of_isAlpha ha) (Nat.not_lt.mpr (List.mem_singleton.mp hx ▸ h))

variable (lc : LowerCase)

/-- The lowered form of one character. -/
def char (before : List Char) (c : Char) (after : List Char) : List Char :=
  if c.toNat < 0x80 then [c.toLower] else lc.other before c after

/-- `str.lower()` on characters, with those before them. -/
def chars : List Char → List Char → List Char
  | _, [] => []
  | before, c :: after => lc.char before c after ++ chars (c :: before) after

/-- `str.lower()`. -/
def lower (s : String) : String := String.ofList (lc.chars [] s.toList)

end LowerCase

/-- The word occurs in the text in some capitalization. -/
def Mentions (word s : String) : Prop := word.toList <:+: s.toList.map Char.toLower

instance (word s : String) : Decidable (Mentions word s) :=
  inferInstanceAs (Decidable (_ <:+: _))

/-- A letter that lowering yields for its own two capitalizations only. -/
def IsPlain (x : Char) : Prop := x.isLower = true ∧ x ≠ 'i' ∧ x ≠ 'k'

instance (x : Char) : Decidable (IsPlain x) := inferInstanceAs (Decidable (_ ∧ _))

namespace LowerCase

variable (lc : LowerCase)

/-- No plain letter comes from a character beyond ASCII. -/
theorem not_plain_of_mem_other {before after : List Char} {c x : Char} (hc : 0x80 ≤ c.toNat)
    (hx : x ∈ lc.other before c after) : ¬ IsPlain x := by
  rintro ⟨hl, hi, hk⟩
  have ha : x.isAlpha = true := by
    show (x.isUpper || x.isLower) = true
    rw [hl, Bool.or_true]
  rcases lc.letters before c after hc x hx ha with h | h
  · exact hi h
  · exact hk h

/-- No plain letter is the ASCII lower case of a character beyond ASCII. -/
theorem toLower_not_plain {c : Char} (hc : 0x80 ≤ c.toNat) : ¬ IsPlain c.toLower := by
  have hu : ¬ (c.val ≥ 'A'.val ∧ c.val ≤ 'Z'.val) := by
    rintro ⟨-, hz⟩
    have hn : c.toNat ≤ 90 := UInt32.le_iff_toNat_le.mp hz
    omega
  have hl : c.toLower = c := by
    unfold Char.toLower
    rw [dif_neg hu]
  rw [hl]
  rintro ⟨h, -⟩
  have ha : c.isAlpha = true := by
    show (c.isUpper || c.isLower) = true
    rw [h, Bool.or_true]
  exact absurd (toNat_of_isAlpha ha) (Nat.not_lt.mpr hc)

/-- No capitalization of a plain letter is whitespace. -/
theorem not_isSpace_of_plain {c : Char} (h : IsPlain c.toLower) : isSpace c = false := by
  have ha : ∀ n < 0x80, IsPlain (Char.ofNat n).toLower → isSpace (Char.ofNat n) = false := by
    decide
  by_cases hc : c.toNat < 0x80
  · have hs := ha c.toNat hc
    rw [Char.ofNat_toNat] at hs
    exact hs h
  · exact absurd h (toLower_not_plain (Nat.le_of_not_lt hc))

private theorem prefix_chars_iff {w : List Char} (hw : ∀ x ∈ w, IsPlain x)
    (before s : List Char) : w <+: lc.chars before s ↔ w <+: s.map Char.toLower := by
  induction s generalizing w before with
  | nil => rfl
  | cons c s ih =>
    cases w with
    | nil => simp
    | cons x w =>
      have hx := hw x List.mem_cons_self
      have ih := ih (w := w) (fun y hy ↦ hw y (List.mem_cons_of_mem _ hy)) (c :: before)
      rw [chars, List.map_cons, List.cons_prefix_cons, char]
      split
      · rw [List.singleton_append, List.cons_prefix_cons, ih]
      · next hc =>
        have hc : 0x80 ≤ c.toNat := by omega
        constructor
        · intro h
          cases ho : lc.other before c s with
          | nil => exact absurd ho (lc.ne_nil _ _ _)
          | cons y ys =>
            rw [ho, List.cons_append, List.cons_prefix_cons] at h
            exact absurd (h.1 ▸ hx)
              (lc.not_plain_of_mem_other hc (ho ▸ List.mem_cons_self))
        · rintro ⟨rfl, -⟩
          exact absurd hx (toLower_not_plain hc)

private theorem infix_append_of_apart {w out rest : List Char} (hw : w ≠ [])
    (ho : ∀ y ∈ out, y ∉ w) : w <:+: out ++ rest ↔ w <:+: rest := by
  induction out with
  | nil => rfl
  | cons y out ih =>
    rw [List.cons_append, List.infix_cons_iff, ih fun z hz ↦ ho z (List.mem_cons_of_mem _ hz)]
    constructor
    · rintro (h | h)
      · cases w with
        | nil => exact absurd rfl hw
        | cons x w =>
          rw [(List.cons_prefix_cons.mp h).1] at ho
          exact absurd List.mem_cons_self (ho y List.mem_cons_self)
      · exact h
    · exact .inr

/-- A word of plain letters occurs in the lowered text where it occurs in some
capitalization. -/
theorem infix_chars_iff {w : List Char} (hn : w ≠ []) (hw : ∀ x ∈ w, IsPlain x)
    (before s : List Char) : w <:+: lc.chars before s ↔ w <:+: s.map Char.toLower := by
  induction s generalizing before with
  | nil => rfl
  | cons c s ih =>
    have hp := lc.prefix_chars_iff hw before (c :: s)
    rw [List.map_cons, List.infix_cons_iff, ← List.map_cons, ← hp, ← ih (c :: before)]
    by_cases hc : c.toNat < 0x80
    · rw [chars, char, if_pos hc, List.singleton_append, List.infix_cons_iff]
    · have ho : ∀ y ∈ lc.other before c s, y ∉ w := fun y hy hm ↦
        lc.not_plain_of_mem_other (Nat.le_of_not_lt hc) hy (hw y hm)
      rw [chars, char, if_neg hc, infix_append_of_apart hn ho]
      constructor
      · exact .inr
      · rintro (h | h)
        · exact (infix_append_of_apart hn ho).mp h.isInfix
        · exact h

/-- What `word in text.strip().lower()` tests, for a word of plain letters. -/
theorem infix_lower_strip_iff {word : String} (hn : word ≠ "")
    (hw : ∀ x ∈ word.toList, IsPlain x) (s : String) :
    word.toList <:+: (lc.lower (strip s)).toList ↔ Mentions word s := by
  have hn' : word.toList ≠ [] := fun h ↦ hn (String.toList_eq_nil_iff.mp h)
  rw [lower, strip, String.toList_ofList, String.toList_ofList, lc.infix_chars_iff hn' hw, Mentions]
  constructor
  · intro h
    refine h.trans (List.IsInfix.map _ ?_)
    exact (List.rdropWhile_prefix _ _).isInfix.trans (List.dropWhile_suffix _).isInfix
  · intro h
    obtain ⟨u, hu, he⟩ := List.infix_map_iff.mp h
    have hs : ∀ c ∈ u, isSpace c = false := by
      intro c hc
      exact not_isSpace_of_plain (hw _ (he ▸ List.mem_map_of_mem hc))
    have hun : u ≠ [] := by
      rintro rfl
      exact hn' he
    rw [he]
    exact List.IsInfix.map _ ((infix_stripChars_iff hun hs _).mpr hu)

end LowerCase

end NhiSentinel.Base.Python
