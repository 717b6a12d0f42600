import Mathlib.Data.Int.Order.Basic
import Mathlib.Algebra.Order.Ring.Int
import Mathlib.Tactic.Ring

/-!
# Documents

The data that travels between the services: JSON documents as a policy engine or a
Python program holds them. Numbers are exact decimals in lowest terms and object
members are kept in the order they are written, so that equality of records is
equality of documents whose keys are listed in one order without repetition.
-/

namespace NhiSentinel.Base

/-- An exact decimal `mantissa / 10 ^ scale` in lowest terms. -/
structure Decimal where
  mantissa : Int
  scale : Nat
  lowest : scale = 0 ∨ mantissa % 10 ≠ 0
  deriving DecidableEq

namespace Decimal

/-- An integer as a decimal without fraction digits. -/
def ofInt (n : Int) : Decimal := ⟨n, 0, .inl rfl⟩

/-- The decimal `m / 10 ^ e`, brought to lowest terms digit by digit. -/
def reduce (m : Int) : Nat → Decimal
  | 0 => ofInt m
  | e + 1 => if h : m % 10 = 0 then reduce (m / 10) e else ⟨m, e + 1, .inr h⟩

/-- Order of the numbers, by cross multiplication. -/
def cmp (a b : Decimal) : Ordering :=
  compare (a.mantissa * 10 ^ b.scale) (b.mantissa * 10 ^ a.scale)

private theorem mantissa_of_scale_lt (a b : Decimal) (h : a.scale < b.scale) :
    a.mantissa * 10 ^ b.scale ≠ b.mantissa * 10 ^ a.scale := by
  intro he
  obtain ⟨k, hk⟩ := Nat.exists_eq_add_of_lt h
  have hp : (10 : Int) ^ a.scale ≠ 0 := pow_ne_zero _ (by decide)
  have hs : a.mantissa * 10 ^ b.scale = a.mantissa * 10 ^ k * 10 * 10 ^ a.scale := by
    rw [hk]
    ring
  rw [hs] at he
  have hm := Int.eq_of_mul_eq_mul_right hp he
  rcases b.lowest with hz | hz
  · omega
  · exact hz (by rw [← hm]; exact Int.mul_emod_left _ _)

/-- Lowest terms are unique: numbers that compare equal are equal records. -/
theorem cmp_eq_iff (a b : Decimal) : a.cmp b = .eq ↔ a = b := by
  rw [cmp, Int.compare_eq_eq]
  constructor
  · intro h
    rcases Nat.lt_trichotomy a.scale b.scale with hl | he | hg
    · exact absurd h (mantissa_of_scale_lt a b hl)
    · rw [he] at h
      have hm := Int.eq_of_mul_eq_mul_right (pow_ne_zero _ (by decide)) h
      cases a
      cases b
      simp_all
    · exact absurd h.symm (mantissa_of_scale_lt b a hg)
  · rintro rfl
    rfl

/-- Integers compare as integers. -/
@[simp] theorem cmp_ofInt (m n : Int) : (ofInt m).cmp (ofInt n) = compare m n := by
  simp [cmp, ofInt]

end Decimal

/-- A document. `other` is a Python object that no JSON document contains, of which only the truth
value is observed: bytes, a datetime, a set. `json.dumps` raises on these; how a library writes
them that does not is a parameter where it is used. -/
inductive Value where
  | null
  | bool (b : Bool)
  | num (n : Decimal)
  | str (s : String)
  | arr (xs : List Value)
  | obj (kvs : List (String × Value))
  | other (truthy : Bool)
  deriving Inhabited

namespace Value

/-- The integer `n` as a document. -/
def int (n : Int) : Value := .num (.ofInt n)

/-- Member of an object; nothing for a missing key or for what is not an object. -/
def get? (v : Value) (key : String) : Option Value :=
  match v with
  | .obj kvs => kvs.lookup key
  | _ => none

/-- Member reached by following the keys of a path. -/
def path? (v : Value) (path : List String) : Option Value :=
  path.foldlM get? v

/-- The values iterated by `v[_]`: the elements of an array, the members of an object. -/
def elems : Value → List Value
  | .arr xs => xs
  | .obj kvs => kvs.map Prod.snd
  | _ => []

/-- Assignment of a dictionary key: in place if the key is there, at the end if not. -/
def setMember (kvs : List (String × Value)) (key : String) (v : Value) :
    List (String × Value) :=
  match kvs with
  | [] => [(key, v)]
  | kv :: rest =>
    if kv.1 = key then (key, v) :: rest else kv :: setMember rest key v

/-- Truth value of a Python object. -/
def truthy : Value → Bool
  | .null => false
  | .bool b => b
  | .num n => n.mantissa != 0
  | .str s => s != ""
  | .arr xs => !xs.isEmpty
  | .obj kvs => !kvs.isEmpty
  | .other t => t

/-- Position of the kind in the order of all documents. -/
def rank : Value → Nat
  | .null => 0
  | .bool _ => 1
  | .num _ => 2
  | .str _ => 3
  | .arr _ => 4
  | .obj _ => 5
  | .other _ => 6

mutual
/-- A total order of documents: by kind, then by content. -/
def cmp : Value → Value → Ordering
  | .bool a, .bool b => compare a b
  | .num a, .num b => a.cmp b
  | .str a, .str b => compare a b
  | .arr xs, .arr ys => cmpElems xs ys
  | .obj xs, .obj ys => cmpMembers xs ys
  | .other a, .other b => compare a b
  | a, b => compare a.rank b.rank
/-- Element by element, a shorter array before its extensions. -/
def cmpElems : List Value → List Value → Ordering
  | [], [] => .eq
  | [], _ :: _ => .lt
  | _ :: _, [] => .gt
  | x :: xs, y :: ys => (x.cmp y).then (cmpElems xs ys)
/-- Key and value by key and value, fewer members before more. -/
def cmpMembers : List (String × Value) → List (String × Value) → Ordering
  | [], [] => .eq
  | [], _ :: _ => .lt
  | _ :: _, [] => .gt
  | (k, x) :: xs, (l, y) :: ys => ((compare k l).then (x.cmp y)).then (cmpMembers xs ys)
end

mutual
/-- Documents that compare equal are equal. -/
theorem cmp_eq_iff : (a b : Value) → (a.cmp b = .eq ↔ a = b)
  | .arr xs, b => by
    cases b <;> simp [cmp, rank, cmpElems_eq_iff xs]
  | .obj xs, b => by
    cases b <;> simp [cmp, rank, cmpMembers_eq_iff xs]
  | .null, b => by cases b <;> simp [cmp, rank]
  | .bool _, b => by cases b <;> simp [cmp, rank]
  | .num _, b => by cases b <;> simp [cmp, rank, Decimal.cmp_eq_iff]
  | .str _, b => by cases b <;> simp [cmp, rank]
  | .other _, b => by cases b <;> simp [cmp, rank]
private theorem cmpElems_eq_iff : (xs ys : List Value) → (cmpElems xs ys = .eq ↔ xs = ys)
  | [], ys => by cases ys <;> simp [cmpElems]
  | x :: xs, ys => by
    cases ys with
    | nil => simp [cmpElems]
    | cons y ys => simp [cmpElems, Ordering.then_eq_eq, cmp_eq_iff x, cmpElems_eq_iff xs]
private theorem cmpMembers_eq_iff : (xs ys : List (String × Value)) →
    (cmpMembers xs ys = .eq ↔ xs = ys)
  | [], ys => by cases ys <;> simp [cmpMembers]
  | (k, x) :: xs, ys => by
    cases ys with
    | nil => simp [cmpMembers]
    | cons y ys =>
      obtain ⟨l, y⟩ := y
      simp [cmpMembers, Ordering.then_eq_eq, cmp_eq_iff x, cmpMembers_eq_iff xs]
end

instance : DecidableEq Value := fun a b ↦ decidable_of_iff _ (cmp_eq_iff a b)

/-- Integers compare as integers. -/
@[simp] theorem cmp_int (m n : Int) : (int m).cmp (int n) = compare m n := by
  simp [int, cmp]

/-- A member of an object. -/
theorem get?_obj (kvs : List (String × Value)) (key : String) :
    (obj kvs).get? key = kvs.lookup key := rfl

/-- Following a path key by key. -/
theorem path?_cons (v : Value) (key : String) (path : List String) :
    v.path? (key :: path) = (v.get? key).bind (path? · path) := rfl

/-- The empty path stays where it is. -/
@[simp] theorem path?_nil (v : Value) : v.path? [] = some v := rfl

/-- Only an object has members. -/
theorem get?_eq_some {v w : Value} {key : String} (h : v.get? key = some w) :
    ∃ kvs, v = .obj kvs ∧ kvs.lookup key = some w := by
  cases v with
  | obj kvs => exact ⟨kvs, rfl, h⟩
  | _ => simp [get?] at h

/-- An assigned key has the assigned value. -/
@[simp] theorem lookup_setMember_self (kvs : List (String × Value)) (key : String) (v : Value) :
    (setMember kvs key v).lookup key = some v := by
  induction kvs with
  | nil => simp [setMember]
  | cons kv rest ih =>
    rw [setMember]
    split
    · simp
    · next h =>
      obtain ⟨k, w⟩ := kv
      simp only [List.lookup_cons]
      have hk : (key == k) = false := beq_eq_false_iff_ne.mpr (Ne.symm h)
      rw [hk]
      exact ih

/-- Assignment of one key leaves the others as they were. -/
theorem lookup_setMember_ne (kvs : List (String × Value)) {key k' : String} (v : Value)
    (h : k' ≠ key) : (setMember kvs key v).lookup k' = kvs.lookup k' := by
  induction kvs with
  | nil => simp [setMember, List.lookup_cons, beq_eq_false_iff_ne.mpr h]
  | cons kv rest ih =>
    obtain ⟨k, w⟩ := kv
    rw [setMember]
    split
    · next he =>
      change k = key at he
      subst k
      simp [List.lookup_cons, beq_eq_false_iff_ne.mpr h]
    · simp only [List.lookup_cons, ih]

mutual
/-- Whether the document is free of objects that JSON has no kind for. -/
def isJson : Value → Bool
  | .arr xs => isJsonElems xs
  | .obj kvs => isJsonMembers kvs
  | .other _ => false
  | _ => true
/-- `isJson` of every element. -/
def isJsonElems : List Value → Bool
  | [] => true
  | x :: xs => x.isJson && isJsonElems xs
/-- `isJson` of every member. -/
def isJsonMembers : List (String × Value) → Bool
  | [] => true
  | (_, x) :: xs => x.isJson && isJsonMembers xs
end

end Value
end NhiSentinel.Base
