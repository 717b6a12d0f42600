import Mathlib.Data.List.Basic

/-!
# Selections with numbered arguments

A statement `SELECT * FROM … WHERE … ORDER BY … LIMIT … OFFSET …` whose conditions name their
arguments by number, the list of arguments that is sent with it, and the rows that it may
return. Rows that the order does not tell apart come in any order.
-/

namespace NhiSentinel.Base.Sql

variable {Row Test Value : Type}

/-! ### Pages -/

/-- What a selection asks for once its arguments are known. -/
structure Selection (Row : Type) where
  keep : Row → Bool
  limit : Nat
  offset : Nat

/-- The rows that a selection may return from a table, in an order. -/
def Selection.Returns (before : Row → Row → Prop) (selection : Selection Row)
    (table rows : List Row) : Prop :=
  ∃ listing : List Row, listing.Perm (table.filter selection.keep) ∧ listing.Pairwise before ∧
    rows = (listing.drop selection.offset).take selection.limit

/-- Selections that keep the same rows of a table return the same pages. -/
theorem Selection.returns_congr {before : Row → Row → Prop} {a b : Selection Row}
    {table rows : List Row} (hk : ∀ row ∈ table, a.keep row = b.keep row)
    (hl : a.limit = b.limit) (ho : a.offset = b.offset) :
    a.Returns before table rows ↔ b.Returns before table rows := by
  rw [Selection.Returns, Selection.Returns, List.filter_congr hk, hl, ho]

/-- A selection without a row to keep returns the empty page. -/
theorem Selection.returns_nil_iff {before : Row → Row → Prop} {selection : Selection Row}
    {table rows : List Row} (h : ∀ row ∈ table, selection.keep row = false) :
    selection.Returns before table rows ↔ rows = [] := by
  have hf : table.filter selection.keep = [] :=
    List.filter_eq_nil_iff.mpr fun row hr ↦ by rw [h row hr]; exact Bool.false_ne_true
  rw [Selection.Returns, hf]
  constructor
  · rintro ⟨listing, hp, -, rfl⟩
    rw [hp.eq_nil, List.drop_nil, List.take_nil]
  · rintro rfl
    exact ⟨[], List.Perm.nil, List.Pairwise.nil, by rw [List.drop_nil, List.take_nil]⟩

/-- A selection that keeps more rows than it leaves out returns some, where their order does not
matter. -/
theorem Selection.ne_nil_of_returns {before : Row → Row → Prop} {selection : Selection Row}
    {table rows : List Row} (h : selection.Returns before table rows)
    (hk : ∀ row ∈ table, selection.keep row = true) (hl : 0 < selection.limit)
    (ho : selection.offset < table.length) : rows ≠ [] := by
  obtain ⟨listing, hp, -, rfl⟩ := h
  have hn := hp.length_eq
  rw [List.filter_eq_self.mpr hk] at hn
  rw [← List.length_pos_iff, List.length_take, List.length_drop]
  omega

/-! ### Statements -/

/-- A statement: tests with the numbers of their arguments, and the numbers of the arguments of
`LIMIT` and `OFFSET`. -/
structure Statement (Test : Type) where
  conditions : List (Test × Nat)
  limit : Nat
  offset : Nat

/-- The numbers of the arguments that a statement names. -/
def Statement.placeholders (statement : Statement Test) : List Nat :=
  statement.conditions.map Prod.snd ++ [statement.limit, statement.offset]

/-- The statement names as many arguments as are sent, counted from one. -/
def Statement.Expects (statement : Statement Test) (count : Nat) : Prop :=
  (∀ n ∈ statement.placeholders, 0 < n ∧ n ≤ count) ∧
    ∀ n < count, n + 1 ∈ statement.placeholders

instance (statement : Statement Test) (count : Nat) : Decidable (statement.Expects count) :=
  inferInstanceAs (Decidable (_ ∧ _))

/-- How the arguments of a statement are read: the rows that meet a test, where a value is one
for it, and the number of rows that a value is. -/
structure Reading (Row Test Value : Type) where
  meets : Test → Value → Option (Row → Bool)
  count : Value → Option Nat

/-- The selection that tests with their own arguments are. -/
def Reading.selection? (reading : Reading Row Test Value) (supplied : List (Test × Value))
    (limit offset : Value) : Option (Selection Row) := do
  let tests ← supplied.mapM fun x ↦ reading.meets x.1 x.2
  let limit ← reading.count limit
  let offset ← reading.count offset
  some ⟨fun row ↦ tests.all fun test ↦ test row, limit, offset⟩

/-- The selection that a statement with its arguments is, unless they do not fit. -/
def Statement.selection? (reading : Reading Row Test Value) (statement : Statement Test)
    (values : List Value) : Option (Selection Row) :=
  if statement.Expects values.length then do
    let tests ← statement.conditions.mapM fun condition ↦
      values[condition.2 - 1]? >>= reading.meets condition.1
    let limit ← values[statement.limit - 1]? >>= reading.count
    let offset ← values[statement.offset - 1]? >>= reading.count
    some ⟨fun row ↦ tests.all fun test ↦ test row, limit, offset⟩
  else none

/-! ### Building a statement -/

/-- A statement in the making: `idx` is the number of the next argument. -/
structure Builder (Test Value : Type) where
  conditions : List (Test × Nat) := []
  params : List Value := []
  idx : Nat := 1

private theorem mapM_congr {α β : Type} {f g : α → Option β} {xs : List α}
    (h : ∀ x ∈ xs, f x = g x) : xs.mapM f = xs.mapM g := by
  induction xs with
  | nil => rfl
  | cons x xs ih =>
    rw [List.mapM_cons, List.mapM_cons, h x List.mem_cons_self,
      ih fun y hy ↦ h y (List.mem_cons_of_mem _ hy)]

namespace Builder

/-- A condition with its argument is added. -/
def add (builder : Builder Test Value) (test : Test) (value : Value) : Builder Test Value where
  conditions := builder.conditions ++ [(test, builder.idx)]
  params := builder.params ++ [value]
  idx := builder.idx + 1

/-- A condition is added where its argument is given. -/
def addIf (builder : Builder Test Value) (test : Test) : Option Value → Builder Test Value
  | none => builder
  | some value => builder.add test value

/-- The statement and its arguments, with those of `LIMIT` and `OFFSET`. -/
def finish (builder : Builder Test Value) (limit offset : Value) :
    Statement Test × List Value :=
  (⟨builder.conditions, builder.idx, builder.idx + 1⟩, builder.params ++ [limit, offset])

/-- The builder has numbered the given tests with their arguments. -/
structure Numbers (builder : Builder Test Value) (supplied : List (Test × Value)) : Prop where
  conditions : builder.conditions = supplied.zipIdx.map fun x ↦ (x.1.1, x.2 + 1)
  params : builder.params = supplied.map Prod.snd
  idx : builder.idx = supplied.length + 1

/-- A statement without tests has no parameters. -/
theorem numbers_nil : Numbers ({} : Builder Test Value) [] := ⟨rfl, rfl, rfl⟩

variable {builder : Builder Test Value} {supplied : List (Test × Value)}

/-- A test that is added is numbered after the others. -/
theorem Numbers.add (h : builder.Numbers supplied) (test : Test) (value : Value) :
    (builder.add test value).Numbers (supplied ++ [(test, value)]) where
  conditions := by
    rw [Builder.add, h.conditions, h.idx, List.zipIdx_append, List.map_append, Nat.zero_add]
    rfl
  params := by
    rw [Builder.add, h.params, List.map_append]
    rfl
  idx := by
    rw [Builder.add, h.idx, List.length_append]
    rfl

/-- A test is added where its argument is given. -/
theorem Numbers.addIf (h : builder.Numbers supplied) (test : Test) (value : Option Value) :
    (builder.addIf test value).Numbers (supplied ++ value.toList.map (test, ·)) := by
  cases value with
  | none =>
    rw [Option.toList_none, List.map_nil, List.append_nil]
    exact h
  | some value => exact h.add test value

private theorem Numbers.expects (h : builder.Numbers supplied) (limit offset : Value) :
    (builder.finish limit offset).1.Expects (builder.finish limit offset).2.length := by
  have hp : (builder.finish limit offset).1.placeholders =
      List.range' 1 (supplied.length + 2) := by
    rw [finish, Statement.placeholders, h.conditions, h.idx, List.map_map]
    have hz : supplied.zipIdx.map (Prod.snd ∘ fun x : (Test × Value) × Nat ↦ (x.1.1, x.2 + 1)) =
        (List.range' 0 supplied.length).map (1 + ·) := by
      rw [← List.zipIdx_map_snd, List.map_map]
      exact List.map_congr_left fun x _ ↦ Nat.add_comm x.2 1
    show _ ++ [supplied.length + 1, supplied.length + 1 + 1] = _
    rw [hz, List.map_add_range', ← List.range'_append_1, Nat.add_comm 1 supplied.length]
    rfl
  have hl : (builder.finish limit offset).2.length = supplied.length + 2 := by
    rw [finish, h.params, List.length_append, List.length_map]
    rfl
  rw [Statement.Expects, hp, hl]
  constructor
  · intro n hn
    rw [List.mem_range'_1] at hn
    omega
  · intro n hn
    rw [List.mem_range'_1]
    omega

/-- Every test is put to its own argument: the statement that is built selects what the
given tests ask for. -/
theorem Numbers.selection?_finish (h : builder.Numbers supplied)
    (reading : Reading Row Test Value) (limit offset : Value) :
    (builder.finish limit offset).1.selection? reading (builder.finish limit offset).2 =
      reading.selection? supplied limit offset := by
  have hl : (supplied.map Prod.snd).length = supplied.length := List.length_map _
  have hlimit : (supplied.map Prod.snd ++ [limit, offset])[supplied.length]? = some limit := by
    rw [List.getElem?_append_right (by omega), hl, Nat.sub_self]
    rfl
  have hoffset : (supplied.map Prod.snd ++ [limit, offset])[supplied.length + 1]? =
      some offset := by
    rw [List.getElem?_append_right (by omega), hl, Nat.add_sub_cancel_left]
    rfl
  have htests : (supplied.zipIdx.map fun x ↦ (x.1.1, x.2 + 1)).mapM (fun condition ↦
      (supplied.map Prod.snd ++ [limit, offset])[condition.2 - 1]? >>=
        reading.meets condition.1) = supplied.mapM fun x ↦ reading.meets x.1 x.2 := by
    have hz : supplied.mapM (fun x ↦ reading.meets x.1 x.2) =
        supplied.zipIdx.mapM fun x ↦ reading.meets x.1.1 x.1.2 := by
      conv_lhs => rw [← List.zipIdx_map_fst 0 supplied, List.mapM_map]
      rfl
    rw [List.mapM_map, hz]
    apply mapM_congr
    intro x hx
    have hg : (supplied.map Prod.snd ++ [limit, offset])[x.2]? = some x.1.2 := by
      have hi : supplied[x.2]? = some x.1 := List.mem_zipIdx_iff_getElem?.mp hx
      have hlt : x.2 < supplied.length := (List.getElem?_eq_some_iff.mp hi).1
      rw [List.getElem?_append_left (by omega), List.getElem?_map, hi]
      rfl
    show (supplied.map Prod.snd ++ [limit, offset])[x.2]? >>= reading.meets x.1.1 = _
    rw [hg]
    rfl
  rw [Statement.selection?, if_pos (h.expects limit offset)]
  simp only [finish, h.conditions, h.params, h.idx, htests, Nat.add_sub_cancel, hlimit, hoffset]
  rfl

end Builder

end NhiSentinel.Base.Sql
