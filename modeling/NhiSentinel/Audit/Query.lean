import NhiSentinel.Audit.Consumer
import NhiSentinel.Base.Sql

/-!
# The query for events

`list_events` of `audit/api.py`: the statement that it builds from its arguments, and the page of
events that it is to return. Its filter for actions is a pattern of `LIKE`.
-/

namespace NhiSentinel.Audit
open NhiSentinel.Base

/-! ### Patterns -/

/-- The characters that `LIKE` does not take literally. -/
def IsWild (c : Char) : Prop := c = '_' ∨ c = '%' ∨ c = '\\'

instance (c : Char) : Decidable (IsWild c) := inferInstanceAs (Decidable (_ ∨ _))

/-- Some text that matches a pattern. -/
def sample : List Char → List Char
  | [] => []
  | '%' :: pattern => sample pattern
  | '_' :: pattern => 'x' :: sample pattern
  | '\\' :: c :: pattern => c :: sample pattern
  | c :: pattern => c :: sample pattern

private theorem like_percent (pattern cs : List Char) :
    like ('%' :: pattern) cs = cs.tails.any fun rest ↦ like pattern rest := rfl

private theorem like_cons {c : Char} (hc : ¬ IsWild c) (pattern : List Char) (d : Char)
    (cs : List Char) : like (c :: pattern) (d :: cs) = (decide (c = d) && like pattern cs) := by
  rw [like]
  · exact fun h ↦ hc (.inr (.inl h))
  · exact fun h ↦ hc (.inl h)
  · exact fun c pattern h ↦ absurd h fun h ↦ hc (.inr (.inr h))

private theorem like_cons_nil {c : Char} (hc : ¬ IsWild c) (pattern : List Char) :
    like (c :: pattern) [] = false := by
  rw [like]
  · exact fun h ↦ hc (.inr (.inl h))
  · exact fun h ↦ hc (.inl h)
  · exact fun c pattern h ↦ absurd h fun h ↦ hc (.inr (.inr h))

/-- A closing `%` takes every rest. -/
theorem like_percent_nil (cs : List Char) : like ['%'] cs = true := by
  rw [like_percent, List.any_eq_true]
  exact ⟨[], (List.mem_tails ..).mpr List.nil_suffix, rfl⟩

/-- A pattern of literal characters with a closing `%` is a test for a prefix. -/
theorem like_append_percent {s : List Char} (h : ∀ c ∈ s, ¬ IsWild c) (cs : List Char) :
    like (s ++ ['%']) cs = true ↔ s <+: cs := by
  induction s generalizing cs with
  | nil => exact iff_of_true (like_percent_nil cs) (List.nil_prefix)
  | cons c s ih =>
    have hc := h c List.mem_cons_self
    have hs := fun d hd ↦ h d (List.mem_cons_of_mem c hd)
    rw [List.cons_append]
    cases cs with
    | nil =>
      rw [like_cons_nil hc]
      exact iff_of_false Bool.false_ne_true fun hp ↦ List.cons_ne_nil c s (List.prefix_nil.mp hp)
    | cons d cs =>
      rw [like_cons hc, Bool.and_eq_true, decide_eq_true_eq, ih hs, List.cons_prefix_cons]

private theorem sample_cons {c : Char} (hc : ¬ IsWild c) (pattern : List Char) :
    sample (c :: pattern) = c :: sample pattern := by
  rw [sample]
  · exact fun h ↦ hc (.inr (.inl h))
  · exact fun h ↦ hc (.inl h)
  · exact fun c pattern h ↦ absurd h fun h ↦ hc (.inr (.inr h))

/-- The sample of a pattern matches it. -/
theorem like_sample (pattern : List Char) : like pattern (sample pattern) = true := by
  fun_induction sample pattern with
  | case1 => rfl
  | case2 pattern ih =>
    rw [like_percent, List.any_eq_true]
    exact ⟨_, (List.mem_tails ..).mpr (List.suffix_refl _), ih⟩
  | case3 pattern ih => exact ih
  | case4 c pattern ih =>
    rw [like, ih]
    simp
  | case5 c pattern h₁ h₂ h₃ ih =>
    rw [like, ih]
    · simp
    · exact h₁
    · exact h₂
    · exact h₃

private theorem length_sample_le (s : List Char) : (sample (s ++ ['%'])).length ≤ s.length := by
  fun_induction sample s with
  | case1 => exact Nat.zero_le 0
  | case2 s ih => exact ih.trans (Nat.le_succ _)
  | case3 s ih => exact Nat.succ_le_succ ih
  | case4 c s ih => exact (Nat.succ_le_succ ih).trans (Nat.le_succ _)
  | case5 c s h₁ h₂ h₃ ih =>
    by_cases hb : c = '\\'
    · cases s with
      | nil =>
        rw [hb]
        exact Nat.le_refl 1
      | cons d s => exact absurd rfl (h₃ d s hb)
    · rw [List.cons_append, sample_cons (by rintro (h | h | h) <;> contradiction)]
      exact Nat.succ_le_succ ih

private theorem not_prefix_sample {s : List Char} (h : ∃ c ∈ s, IsWild c) :
    ¬ s <+: sample (s ++ ['%']) := by
  induction s with
  | nil =>
    obtain ⟨c, hc, -⟩ := h
    cases hc
  | cons c s ih =>
    by_cases hc : IsWild c
    · intro hp
      rcases hc with rfl | rfl | rfl
      · -- some other character stands for the `_`
        have hx := (List.cons_prefix_cons.mp hp).1
        revert hx
        decide
      · exact absurd (hp.length_le.trans (length_sample_le s)) (Nat.not_succ_le_self _)
      · cases s with
        | nil =>
          revert hp
          decide
        | cons d s =>
          have hl : (d :: sample (s ++ ['%'])).length ≤ s.length + 1 :=
            Nat.succ_le_succ (length_sample_le s)
          exact absurd (hp.length_le.trans hl) (Nat.not_succ_le_self _)
    · obtain ⟨w, hw, hwild⟩ := h
      rcases List.mem_cons.mp hw with rfl | hw
      · exact absurd hwild hc
      · rw [List.cons_append, sample_cons hc, List.cons_prefix_cons]
        exact fun hp ↦ ih ⟨w, hw, hwild⟩ hp.2

/-- Something matches the pattern of a text with a wildcard and does not begin with the text. -/
theorem exists_like_not_prefix {s : List Char} (h : ∃ c ∈ s, IsWild c) :
    ∃ t : String, like (s ++ ['%']) t.toList = true ∧ ¬ s <+: t.toList := by
  refine ⟨String.ofList (sample (s ++ ['%'])), ?_, ?_⟩
  · rw [String.toList_ofList]
    exact like_sample _
  · rw [String.toList_ofList]
    exact not_prefix_sample h

/-! ### The statement -/

/-- The tests that `list_events` puts, each a column with an operator. -/
inductive EventTest where
  | agentId
  | action
  | decision
  | since
  | upTo

/-- An argument that is sent with a statement. -/
inductive SqlValue where
  | text (s : String)
  | time (t : DateTime)
  | number (n : Nat)

/-- The condition that a test with its argument is, where the column has values of its kind. -/
def EventTest.condition? : EventTest → SqlValue → Option Condition
  | agentId, .text s => some (.agentId s)
  | action, .text s => some (.action s)
  | decision, .text s => some (.decision s)
  | since, .time t => some (.since t)
  | upTo, .time t => some (.upTo t)
  | _, _ => none

/-- How the database reads arguments. The driver does not send every value: no text with a NUL
and no number of more than 64 bits. -/
def auditEvents (driver : SqlValue → Bool) : Sql.Reading Row EventTest SqlValue where
  meets test value :=
    if driver value then (test.condition? value).map fun condition row ↦ condition.holds row
    else none
  count
    | .number n => if driver (.number n) then some n else none
    | _ => none

/-- The arguments of `list_events` that are let through, `api.py:58`. -/
structure ListArgs extends EventQuery where
  limit : Nat := 100
  offset : Nat := 0
  limit_pos : 1 ≤ limit := by decide
  limit_le : limit ≤ 1000 := by decide

/-- An argument that is true: an empty text is not. -/
def given (s : Option String) : Option String := s.filter (· ≠ "")

section
variable (other : String → String)

/-- The conditions with their arguments, `api.py:69`. -/
def ListArgs.builder (args : ListArgs) : Sql.Builder EventTest SqlValue :=
  let builder : Sql.Builder EventTest SqlValue := {}
  let builder := builder.addIf .agentId ((given args.agentId).map .text)
  let builder := builder.addIf .action ((given args.action).map fun s ↦ .text (s ++ "%"))
  let builder := builder.addIf .decision
    ((given args.decision).map fun s ↦ .text (Python.upper other s))
  let builder := builder.addIf .since (args.since.map .time)
  builder.addIf .upTo (args.upTo.map .time)

/-- The selection that is sent, `api.py:94`, if the arguments can be sent. -/
def ListArgs.selection? (driver : SqlValue → Bool) (args : ListArgs) :
    Option (Sql.Selection Row) :=
  let sent := (args.builder other).finish (.number args.limit) (.number args.offset)
  sent.1.selection? (auditEvents driver) sent.2

/-- `ORDER BY timestamp DESC`. -/
def NewestFirst (a b : Row) : Prop := b.timestamp.instant ≤ a.timestamp.instant

/-- What `list_events` answers over a table, `api.py:102`. -/
def ListArgs.Answers (driver : SqlValue → Bool) (args : ListArgs) (table : Table)
    (answer : Except HttpException (List Row)) : Prop :=
  match args.selection? other driver with
  | none => answer = .error ⟨503, "Audit store unavailable"⟩
  | some selection => ∃ rows, selection.Returns NewestFirst table rows ∧ answer = .ok rows

/-! ### The events asked for -/

/-- A row is one of those asked for: its action begins with the one given. -/
structure ListArgs.Wants (args : ListArgs) (row : Row) : Prop where
  agentId : ∀ s ∈ given args.agentId, row.agentId = s
  action : ∀ s ∈ given args.action, s.toList <+: row.action.toList
  decision : ∀ s ∈ given args.decision, row.decision = Python.upper other s
  since : ∀ t ∈ args.since, t.instant ≤ row.timestamp.instant
  upTo : ∀ t ∈ args.upTo, row.timestamp.instant ≤ t.instant

variable {other} in
private theorem ListArgs.wants_iff {args : ListArgs} {row : Row} :
    args.Wants other row ↔ (∀ s ∈ given args.agentId, row.agentId = s) ∧
      (∀ s ∈ given args.action, s.toList <+: row.action.toList) ∧
      (∀ s ∈ given args.decision, row.decision = Python.upper other s) ∧
      (∀ t ∈ args.since, t.instant ≤ row.timestamp.instant) ∧
      ∀ t ∈ args.upTo, row.timestamp.instant ≤ t.instant :=
  ⟨fun ⟨h₁, h₂, h₃, h₄, h₅⟩ ↦ ⟨h₁, h₂, h₃, h₄, h₅⟩, fun ⟨h₁, h₂, h₃, h₄, h₅⟩ ↦ ⟨h₁, h₂, h₃, h₄, h₅⟩⟩

instance (args : ListArgs) (row : Row) : Decidable (args.Wants other row) :=
  decidable_of_iff _ ListArgs.wants_iff.symm

/-- The selection of the events asked for. -/
def ListArgs.wanted (args : ListArgs) : Sql.Selection Row where
  keep row := args.Wants other row
  limit := args.limit
  offset := args.offset

/-- Every answer over a table is a page of the events asked for, and each such page is one. -/
def ListArgs.ListsWanted (driver : SqlValue → Bool) (args : ListArgs) (table : Table) : Prop :=
  ∀ answer, args.Answers other driver table answer ↔
    ∃ rows, (args.wanted other).Returns NewestFirst table rows ∧ answer = .ok rows

end

/-! ### What is sent -/

section
variable (other : String → String) (driver : SqlValue → Bool)

/-- The driver sends every argument of the statement. -/
structure ListArgs.Sent (args : ListArgs) : Prop where
  agentId : ∀ s ∈ given args.agentId, driver (.text s) = true
  action : ∀ s ∈ given args.action, driver (.text (s ++ "%")) = true
  decision : ∀ s ∈ given args.decision, driver (.text (Python.upper other s)) = true
  since : ∀ t ∈ args.since, driver (.time t) = true
  upTo : ∀ t ∈ args.upTo, driver (.time t) = true
  limit : driver (.number args.limit) = true
  offset : driver (.number args.offset) = true

/-- The tests that are put, with their arguments. -/
private def ListArgs.supplied (args : ListArgs) : List (EventTest × SqlValue) :=
  [] ++ ((given args.agentId).map SqlValue.text).toList.map (EventTest.agentId, ·) ++
    ((given args.action).map fun s ↦ SqlValue.text (s ++ "%")).toList.map (EventTest.action, ·) ++
    ((given args.decision).map fun s ↦ SqlValue.text (Python.upper other s)).toList.map
      (EventTest.decision, ·) ++
    (args.since.map SqlValue.time).toList.map (EventTest.since, ·) ++
    (args.upTo.map SqlValue.time).toList.map (EventTest.upTo, ·)

private theorem ListArgs.numbers_builder (args : ListArgs) :
    (args.builder other).Numbers (args.supplied other) :=
  ((((Sql.Builder.numbers_nil.addIf _ _).addIf _ _).addIf _ _).addIf _ _).addIf _ _

variable {other driver}

private theorem mapM_condition? {α : Type} {test : EventTest} {v : α → SqlValue}
    {c : α → Condition} (h : ∀ a, test.condition? (v a) = some (c a)) (o : Option α) :
    ((o.map v).toList.map (test, ·)).mapM (fun x ↦ x.1.condition? x.2) =
      some (o.map c).toList := by
  cases o with
  | none => rfl
  | some a =>
    show [(test, v a)].mapM (fun x ↦ x.1.condition? x.2) = some [c a]
    rw [List.mapM_cons, h]
    rfl

private theorem ListArgs.mapM_supplied (args : ListArgs) :
    (args.supplied other).mapM (fun x ↦ x.1.condition? x.2) = some (args.conditions other) := by
  rw [ListArgs.supplied, List.mapM_append, List.mapM_append, List.mapM_append, List.mapM_append,
    List.nil_append, mapM_condition? (c := Condition.agentId) fun _ ↦ rfl,
    mapM_condition? (c := fun s ↦ Condition.action (s ++ "%")) fun _ ↦ rfl,
    mapM_condition? (c := fun s ↦ Condition.decision (Python.upper other s)) fun _ ↦ rfl,
    mapM_condition? (c := Condition.since) fun _ ↦ rfl,
    mapM_condition? (c := Condition.upTo) fun _ ↦ rfl]
  rfl

private theorem mapM_guard {α β : Type} {p : α → Bool} (f : α → Option β) {xs : List α}
    (h : ∀ x ∈ xs, p x = true) :
    xs.mapM (fun x ↦ if p x then f x else none) = xs.mapM f := by
  induction xs with
  | nil => rfl
  | cons x xs ih =>
    rw [List.mapM_cons, List.mapM_cons, if_pos (h x List.mem_cons_self),
      ih fun y hy ↦ h y (List.mem_cons_of_mem x hy)]

private theorem mapM_guard_eq_none {α β : Type} {p : α → Bool} (f : α → Option β) {xs : List α}
    {x : α} (hx : x ∈ xs) (hp : p x = false) :
    xs.mapM (fun x ↦ if p x then f x else none) = none := by
  induction xs with
  | nil => cases hx
  | cons y xs ih =>
    rw [List.mapM_cons]
    rcases List.mem_cons.mp hx with rfl | hx
    · rw [hp]
      rfl
    · rw [ih hx]
      cases (if p y then f y else none) <;> rfl

private theorem mapM_map_right {α β γ : Type} (f : α → Option β) (g : β → γ) (xs : List α) :
    xs.mapM (fun x ↦ (f x).map g) = (xs.mapM f).map (List.map g) := by
  induction xs with
  | nil => rfl
  | cons x xs ih =>
    rw [List.mapM_cons, List.mapM_cons, ih]
    cases f x with
    | none => rfl
    | some y => cases xs.mapM f <;> rfl

private theorem forall_supplied_iff {α : Type} {test : EventTest} {v : α → SqlValue}
    {o : Option α} : (∀ x ∈ (o.map v).toList.map (test, ·), driver x.2 = true) ↔
      ∀ a ∈ o, driver (v a) = true := by
  cases o with
  | none => exact iff_of_true (fun x hx ↦ absurd hx List.not_mem_nil) fun a ha ↦ by cases ha
  | some a =>
    constructor
    · rintro h _ ⟨⟩
      exact h (test, v a) (List.mem_singleton.mpr rfl)
    · exact fun h x hx ↦ List.mem_singleton.mp hx ▸ h a rfl

private theorem ListArgs.sent_iff {args : ListArgs} : args.Sent other driver ↔
    (∀ x ∈ args.supplied other, driver x.2 = true) ∧ driver (.number args.limit) = true ∧
      driver (.number args.offset) = true := by
  rw [ListArgs.supplied, List.forall_mem_append, List.forall_mem_append, List.forall_mem_append,
    List.forall_mem_append, List.nil_append, forall_supplied_iff, forall_supplied_iff,
    forall_supplied_iff, forall_supplied_iff, forall_supplied_iff]
  constructor
  · rintro ⟨h₁, h₂, h₃, h₄, h₅, h₆, h₇⟩
    exact ⟨⟨⟨⟨⟨h₁, h₂⟩, h₃⟩, h₄⟩, h₅⟩, h₆, h₇⟩
  · rintro ⟨⟨⟨⟨⟨h₁, h₂⟩, h₃⟩, h₄⟩, h₅⟩, h₆, h₇⟩
    exact ⟨h₁, h₂, h₃, h₄, h₅, h₆, h₇⟩

private theorem ListArgs.selection?_eq (args : ListArgs) : args.selection? other driver =
    ((args.supplied other).mapM fun x ↦ if driver x.2 then
      (x.1.condition? x.2).map fun condition row ↦ condition.holds row else none).bind fun tests ↦
    (if driver (.number args.limit) then some args.limit else none).bind fun limit ↦
    (if driver (.number args.offset) then some args.offset else none).bind fun offset ↦
      some ⟨fun row ↦ tests.all fun test ↦ test row, limit, offset⟩ := by
  rw [ListArgs.selection?, (args.numbers_builder other).selection?_finish]
  rfl

/-- The arguments that are sent select the events that are found. -/
theorem ListArgs.selection?_of_sent {args : ListArgs} (h : args.Sent other driver) :
    args.selection? other driver = some ⟨args.finds other, args.limit, args.offset⟩ := by
  obtain ⟨hs, hl, ho⟩ := sent_iff.mp h
  rw [args.selection?_eq, mapM_guard (p := fun x : EventTest × SqlValue ↦ driver x.2) _ hs,
    mapM_map_right, args.mapM_supplied, if_pos hl, if_pos ho]
  show some (⟨fun row ↦ ((args.conditions other).map fun condition row ↦ condition.holds row).all
    fun test ↦ test row, args.limit, args.offset⟩ : Sql.Selection Row) = _
  simp only [List.all_map]
  rfl

/-- With an argument that is not sent, there is no selection. -/
theorem ListArgs.selection?_of_not_sent {args : ListArgs} (h : ¬ args.Sent other driver) :
    args.selection? other driver = none := by
  rw [args.selection?_eq]
  by_cases hs : ∀ x ∈ args.supplied other, driver x.2 = true
  · by_cases hl : driver (.number args.limit) = true
    · have ho : ¬ driver (.number args.offset) = true := fun ho ↦ h (sent_iff.mpr ⟨hs, hl, ho⟩)
      rw [if_pos hl, if_neg ho]
      exact Option.bind_eq_none_iff.mpr fun _ _ ↦ rfl
    · rw [if_neg hl]
      exact Option.bind_eq_none_iff.mpr fun _ _ ↦ rfl
  · push Not at hs
    obtain ⟨x, hx, hd⟩ := hs
    rw [mapM_guard_eq_none (p := fun x : EventTest × SqlValue ↦ driver x.2) _ hx
      (Bool.eq_false_iff.mpr hd)]
    rfl

/-! ### The page -/

/-- The action is compared as it is written. -/
def ListArgs.Literal (args : ListArgs) : Prop := ∀ s ∈ args.action, ∀ c ∈ s.toList, ¬ IsWild c

/-- The interval is empty. -/
def ListArgs.Reversed (args : ListArgs) : Prop :=
  ∃ since ∈ args.since, ∃ upTo ∈ args.upTo, upTo.instant < since.instant

/-- What the statement finds, test by test. -/
theorem ListArgs.finds_iff {args : ListArgs} {row : Row} :
    args.finds other row = true ↔ (∀ s ∈ given args.agentId, row.agentId = s) ∧
      (∀ s ∈ given args.action, like (s.toList ++ ['%']) row.action.toList = true) ∧
      (∀ s ∈ given args.decision, row.decision = Python.upper other s) ∧
      (∀ t ∈ args.since, t.instant ≤ row.timestamp.instant) ∧
      ∀ t ∈ args.upTo, row.timestamp.instant ≤ t.instant := by
  have part {α : Type} {c : α → Condition} (o : Option α) :
      (∀ x ∈ (o.map c).toList, x.holds row = true) ↔ ∀ a ∈ o, (c a).holds row = true := by
    cases o with
    | none => exact iff_of_true (fun x hx ↦ absurd hx List.not_mem_nil) fun a ha ↦ by cases ha
    | some a => simp
  rw [EventQuery.finds, List.all_eq_true, EventQuery.conditions, List.forall_mem_append,
    List.forall_mem_append, List.forall_mem_append, List.forall_mem_append, part, part, part, part,
    part]
  simp only [Condition.holds, decide_eq_true_eq, String.toList_append, and_assoc]
  rfl

private theorem mem_of_given {o : Option String} {s : String} (h : s ∈ given o) : s ∈ o :=
  (Option.filter_eq_some_iff.mp h).1

/-- A literal action is found exactly in the events asked for. -/
theorem ListArgs.finds_iff_wants {args : ListArgs} (h : args.Literal) (row : Row) :
    args.finds other row = true ↔ args.Wants other row := by
  have ha : (∀ s ∈ given args.action, like (s.toList ++ ['%']) row.action.toList = true) ↔
      ∀ s ∈ given args.action, s.toList <+: row.action.toList := by
    constructor
    · exact fun hf s hs ↦ (like_append_percent (h s (mem_of_given hs)) _).mp (hf s hs)
    · exact fun hf s hs ↦ (like_append_percent (h s (mem_of_given hs)) _).mpr (hf s hs)
  rw [finds_iff, wants_iff, ha]

/-- An answer to arguments that are sent is a page of what is found. -/
theorem ListArgs.answers_of_sent {args : ListArgs} (h : args.Sent other driver) (table : Table)
    (answer : Except HttpException (List Row)) : args.Answers other driver table answer ↔
      ∃ rows, Sql.Selection.Returns NewestFirst ⟨args.finds other, args.limit, args.offset⟩
        table rows ∧ answer = .ok rows := by
  rw [ListArgs.Answers, selection?_of_sent h]

/-- Where every row of a table is found if and only if it is asked for, the pages are those asked
for. -/
theorem ListArgs.listsWanted_of_forall {args : ListArgs} {table : Table}
    (hs : args.Sent other driver)
    (hf : ∀ row ∈ table, args.finds other row = true ↔ args.Wants other row) :
    args.ListsWanted other driver table := by
  intro answer
  rw [answers_of_sent hs]
  have hk : ∀ row ∈ table, args.finds other row = (args.wanted other).keep row := by
    intro row hr
    rw [Bool.eq_iff_iff, hf row hr]
    exact decide_eq_true_iff.symm
  refine exists_congr fun rows ↦ and_congr_left fun _ ↦ ?_
  exact Sql.Selection.returns_congr hk rfl rfl

/-- Rows of one time that are all found and not asked for appear in a page all the same, unless the
page begins after them. -/
theorem ListArgs.not_listsWanted {args : ListArgs} {table : Table}
    (hs : args.Sent other driver) (hf : ∀ row ∈ table, args.finds other row = true)
    (hw : ∀ row ∈ table, ¬ args.Wants other row) (ht : table.Pairwise NewestFirst)
    (ho : args.offset < table.length) : ¬ args.ListsWanted other driver table := by
  intro h
  have hr : Sql.Selection.Returns NewestFirst ⟨args.finds other, args.limit, args.offset⟩ table
      ((table.drop args.offset).take args.limit) :=
    ⟨table, by rw [List.filter_eq_self.mpr hf], ht, rfl⟩
  have hn := Sql.Selection.ne_nil_of_returns hr hf args.limit_pos ho
  obtain ⟨rows, hw', he⟩ := (h _).mp ((answers_of_sent hs table _).mpr ⟨_, hr, rfl⟩)
  have hk : ∀ row ∈ table, (args.wanted other).keep row = false :=
    fun row hr ↦ decide_eq_false (hw row hr)
  rw [Sql.Selection.returns_nil_iff hk] at hw'
  exact hn ((Except.ok.inj he).trans hw')

/-! ### Every table -/

/-- A row with the texts that are asked for, of an action and a time. -/
private def askedRow (other : String → String) (args : ListArgs) (action : String)
    (time : DateTime) (n : Nat) : Row where
  eventId := "00000000-0000-4000-8000-" ++ Python.pad 12 n
  schemaVersion := "1.0"
  timestamp := time
  agentId := (given args.agentId).getD ""
  agentType := ""
  taskId := ""
  action := action
  resourceArn := ""
  decision := ((given args.decision).map (Python.upper other)).getD ""
  decisionReason := none
  policyRef := none
  policyVersion := none
  tokenJti := none
  sourceIp := none
  environment := none
  executionResult := none
  executionError := none
  anomalyScore := none
  eventHash := ""
  previousEventHash := genesisHash

private theorem askedRow_injective (args : ListArgs) (action : String) (time : DateTime) :
    Function.Injective fun n ↦ (askedRow other args action time n).eventId := by
  intro m n h
  have hl : ("00000000-0000-4000-8000-" ++ Python.pad 12 m).toList =
      ("00000000-0000-4000-8000-" ++ Python.pad 12 n).toList := congrArg String.toList h
  rw [String.toList_append, String.toList_append] at hl
  have hp : (Python.pad 12 m).toList ++ [] = (Python.pad 12 n).toList ++ [] := by
    rw [List.append_nil, List.append_nil]
    exact List.append_cancel_left hl
  exact (Python.pad_append_inj (fun _ hc ↦ by cases hc) (fun _ hc ↦ by cases hc) hp).1

private theorem finds_askedRow {args : ListArgs} {action : String} {time : DateTime}
    (ha : ∀ s ∈ given args.action, like (s.toList ++ ['%']) action.toList = true)
    (hs : ∀ t ∈ args.since, t.instant ≤ time.instant)
    (hu : ∀ t ∈ args.upTo, time.instant ≤ t.instant) (n : Nat) :
    args.finds other (askedRow other args action time n) = true := by
  refine ListArgs.finds_iff.mpr ⟨fun a h ↦ ?_, ha, fun d h ↦ ?_, hs, hu⟩
  · show (given args.agentId).getD "" = a
    rw [h]
    rfl
  · show ((given args.decision).map (Python.upper other)).getD "" = _
    rw [h]
    rfl

private theorem exists_between {args : ListArgs} (h : ¬ args.Reversed) :
    ∃ time : DateTime, (∀ t ∈ args.since, t.instant ≤ time.instant) ∧
      ∀ t ∈ args.upTo, time.instant ≤ t.instant := by
  cases hs : args.since with
  | some since =>
    refine ⟨since, fun t ht ↦ ?_, fun t ht ↦ ?_⟩
    · cases ht
      exact Int.le_refl _
    · exact Int.not_lt.mp fun hlt ↦ h ⟨since, hs, t, ht, hlt⟩
  | none =>
    cases hu : args.upTo with
    | some upTo =>
      refine ⟨upTo, fun t ht ↦ ?_, fun t ht ↦ ?_⟩
      · cases ht
      · cases ht
        exact Int.le_refl _
    | none =>
      refine ⟨DateTime.utc 0, fun t ht ↦ ?_, fun t ht ↦ ?_⟩
      · cases ht
      · cases ht

/-- Over every table, the pages are those of the events asked for exactly when the arguments are
sent, and the action is literal or no time lies between the two given. -/
theorem ListArgs.listsWanted_iff {args : ListArgs} :
    (∀ table : Table, table.Keyed → args.ListsWanted other driver table) ↔
      args.Sent other driver ∧ (args.Literal ∨ args.Reversed) := by
  constructor
  · intro h
    have hs : args.Sent other driver := by
      by_contra hn
      have ha : args.Answers other driver [] (.error ⟨503, "Audit store unavailable"⟩) := by
        rw [ListArgs.Answers, selection?_of_not_sent hn]
      obtain ⟨rows, -, he⟩ := (h [] List.nodup_nil _).mp ha
      cases he
    refine ⟨hs, ?_⟩
    by_contra hn
    obtain ⟨hl, hr⟩ := not_or.mp hn
    obtain ⟨time, hsince, hupTo⟩ := exists_between hr
    simp only [ListArgs.Literal, not_forall, not_not] at hl
    obtain ⟨s, hs', c, hc, hw⟩ := hl
    have hg : s ∈ given args.action := by
      refine Option.filter_eq_some_iff.mpr ⟨hs', ?_⟩
      apply decide_eq_true
      rintro rfl
      cases hc
    obtain ⟨action, hlike, hprefix⟩ := exists_like_not_prefix ⟨c, hc, hw⟩
    have hlike' : ∀ a ∈ given args.action, like (a.toList ++ ['%']) action.toList = true :=
      fun a ha ↦ Option.some.inj (hg.symm.trans ha) ▸ hlike
    -- enough rows for the page to begin among them
    refine not_listsWanted hs ?_ ?_ ?_ ?_
      (h ((List.range (args.offset + 1)).map (askedRow other args action time)) ?_)
    · intro row hrow
      obtain ⟨n, -, rfl⟩ := List.mem_map.mp hrow
      exact finds_askedRow hlike' hsince hupTo n
    · intro row hrow hw'
      obtain ⟨n, -, rfl⟩ := List.mem_map.mp hrow
      exact hprefix (hw'.action s hg)
    · exact List.pairwise_map.mpr (List.pairwise_of_forall fun _ _ ↦ Int.le_refl _)
    · rw [List.length_map, List.length_range]
      exact Nat.lt_succ_self _
    · rw [Table.Keyed, List.map_map]
      exact List.nodup_range.map (askedRow_injective args action time)
  · rintro ⟨hs, hl | ⟨since, hsince, upTo, hupTo, hlt⟩⟩ table -
    · exact listsWanted_of_forall hs fun row _ ↦ finds_iff_wants hl row
    · refine listsWanted_of_forall hs fun row _ ↦ iff_of_false ?_ ?_
      · intro hf
        obtain ⟨-, -, -, h₁, h₂⟩ := finds_iff.mp hf
        exact absurd ((h₁ since hsince).trans (h₂ upTo hupTo)) (Int.not_le.mpr hlt)
      · intro hw
        exact absurd ((hw.since since hsince).trans (hw.upTo upTo hupTo)) (Int.not_le.mpr hlt)

end

/-- A reading that is recorded under its action. -/
private def readingRow : Row :=
  askedRow id { agentId := some "agent-infra-001", decision := some "ALLOW" } "s3:GetObject"
    (DateTime.utc 1709164800000042) 0

/-- A query for the actions that begin with `s3_` finds one that does not. -/
theorem wildcard_listed : Table.Keyed [readingRow] ∧
    ¬ ({ action := some "s3_" } : ListArgs).ListsWanted id (fun _ ↦ true) [readingRow] := by
  have hs : ({ action := some "s3_" } : ListArgs).Sent id fun _ ↦ true :=
    ⟨fun _ _ ↦ rfl, fun _ _ ↦ rfl, fun _ _ ↦ rfl, fun _ _ ↦ rfl, fun _ _ ↦ rfl, rfl, rfl⟩
  have hf : ({ action := some "s3_" } : ListArgs).finds id readingRow = true := by decide +kernel
  have hw : ¬ ({ action := some "s3_" } : ListArgs).Wants id readingRow := by decide +kernel
  refine ⟨List.nodup_singleton _, ListArgs.not_listsWanted hs ?_ ?_ ?_ (by decide)⟩
  · exact fun row hr ↦ List.mem_singleton.mp hr ▸ hf
  · exact fun row hr ↦ List.mem_singleton.mp hr ▸ hw
  · exact List.pairwise_singleton ..

end NhiSentinel.Audit
