import Mathlib.Data.List.Chain
import Mathlib.Data.List.Infix
import Mathlib.Data.List.Nodup

/-!
# Hash chains

Records that store a digest of what they hold and the digest that the record before them
stores. What the digests commit to, and which lists of records of one chain pass its
verification.
-/

namespace NhiSentinel.Base

/-- How the records of a chain are linked: the digest of the record before, the digest that is
stored, and the digest of what the record holds. -/
structure HashChain (E H : Type) where
  prev : E → H
  stored : E → H
  digest : E → H

namespace HashChain

variable {E H : Type} (s : HashChain E H) {root : H} {l m c : List E} {e : E}

/-- Every record stores its digest, and each but the first points to the record before. -/
def Verifies (l : List E) : Prop :=
  (∀ e ∈ l, s.digest e = s.stored e) ∧ l.IsChain fun a b ↦ s.prev b = s.stored a

/-- The digest that the next record of a list points to. -/
def head (root : H) (l : List E) : H := (l.getLast?.map s.stored).getD root

/-- A list that grew from a root record by record. -/
inductive Grown (root : H) : List E → Prop where
  | nil : Grown root []
  | concat {l : List E} {e : E} (h : Grown root l) (hp : s.prev e = s.head root l)
      (hd : s.digest e = s.stored e) : Grown root (l ++ [e])

variable {s}

/-- Without records the chain ends in its root. -/
@[simp] theorem head_nil : s.head root [] = root := rfl

/-- A chain ends in the digest of its last record. -/
@[simp] theorem head_concat : s.head root (l ++ [e]) = s.stored e := by
  simp [head]

/-- Every segment of a chain that verifies does. -/
theorem Verifies.segment (h : s.Verifies l) (hi : m <:+: l) : s.Verifies m :=
  ⟨fun e he ↦ h.1 e (hi.subset he), List.IsChain.infix h.2 hi⟩

/-- A chain verifies with one more record if that record is intact and linked to the last. -/
theorem verifies_concat : s.Verifies (l ++ [e]) ↔
    s.Verifies l ∧ s.digest e = s.stored e ∧ ∀ a ∈ l.getLast?, s.prev e = s.stored a := by
  simp only [Verifies, List.mem_append, List.mem_singleton, or_imp, forall_and, forall_eq,
    List.isChain_append, List.isChain_singleton, List.head?_singleton, Option.mem_some_iff]
  constructor
  · rintro ⟨⟨hl, he⟩, hc, -, hp⟩
    exact ⟨⟨hl, hc⟩, he, fun a ha ↦ hp a ha e rfl⟩
  · rintro ⟨⟨hl, hc⟩, he, hp⟩
    exact ⟨⟨hl, he⟩, hc, trivial, fun a ha b hb ↦ hb ▸ hp a ha⟩

/-- What grew from a root verifies. -/
theorem Grown.verifies (h : s.Grown root l) : s.Verifies l := by
  induction h with
  | nil => exact ⟨nofun, List.isChain_nil⟩
  | @concat l e _ hp hd ih =>
    refine verifies_concat.mpr ⟨ih, hd, fun a ha ↦ ?_⟩
    rw [hp, head, Option.mem_def.mp ha]
    rfl

/-- A chain grows by an intact record that is linked to its end. -/
theorem grown_concat : s.Grown root (l ++ [e]) ↔
    s.Grown root l ∧ s.prev e = s.head root l ∧ s.digest e = s.stored e := by
  constructor
  · intro h
    generalize hm : l ++ [e] = m at h
    cases h with
    | nil => simp at hm
    | concat h hp hd =>
      obtain ⟨rfl, he⟩ := List.append_inj' hm rfl
      cases he
      exact ⟨h, hp, hd⟩
  · rintro ⟨h, hp, hd⟩
    exact h.concat hp hd

/-- A beginning of what grew from a root grew from it. -/
theorem Grown.left (h : s.Grown root (l ++ m)) : s.Grown root l := by
  induction m using List.reverseRecOn with
  | nil => rwa [List.append_nil] at h
  | append_singleton m e ih =>
    rw [← List.append_assoc, grown_concat] at h
    exact ih h.1

/-- The end of a chain, from its first record on. -/
theorem head_cons : s.head root (e :: l) = s.head (s.stored e) l := by
  cases l using List.reverseRecOn with
  | nil => rfl
  | append_singleton l a => rw [← List.cons_append, head_concat, head_concat]

/-- A chain that grew begins at its root and grows on from its first record. -/
theorem grown_cons : s.Grown root (e :: l) ↔
    s.prev e = root ∧ s.digest e = s.stored e ∧ s.Grown (s.stored e) l := by
  induction l using List.reverseRecOn with
  | nil =>
    rw [← List.nil_append [e], grown_concat, head_nil]
    exact ⟨fun h ↦ ⟨h.2.1, h.2.2, .nil⟩, fun h ↦ ⟨.nil, h.1, h.2.1⟩⟩
  | append_singleton l a ih =>
    rw [← List.cons_append, grown_concat, grown_concat, ih, head_cons, and_assoc, and_assoc]

/-- The first record points to the root. -/
theorem Grown.prev_head? (h : s.Grown root l) (he : l.head? = some e) : s.prev e = root := by
  cases l with
  | nil => cases he
  | cons a l =>
    cases he
    exact (grown_cons.mp h).1

/-! ### Records inside of others -/

section
variable {F : Type} (s) (f : F → E) {k : List F}

/-- The chain of the records that are found in others. -/
def comap : HashChain F H where
  prev := s.prev ∘ f
  stored := s.stored ∘ f
  digest := s.digest ∘ f

/-- A chain of what records are made of verifies like the records. -/
theorem verifies_comap : (s.comap f).Verifies k ↔ s.Verifies (k.map f) := by
  rw [Verifies, Verifies, List.forall_mem_map, List.isChain_map]
  rfl

/-- A chain of what records are made of grows like the records. -/
theorem grown_comap : (s.comap f).Grown root k ↔ s.Grown root (k.map f) := by
  induction k generalizing root with
  | nil => exact ⟨fun _ ↦ .nil, fun _ ↦ .nil⟩
  | cons a k ih =>
    rw [List.map_cons, grown_cons, grown_cons, ih]
    rfl

end

/-! ### Binding -/

section
variable (hp : ∀ a b, s.digest a = s.digest b → s.prev a = s.prev b)
include hp

/-- The last digest of a verifying list binds the digests before. -/
theorem Verifies.stored_eq (hl : s.Verifies l) (hm : s.Verifies m)
    (hn : l.length = m.length)
    (hd : l.getLast?.map s.stored = m.getLast?.map s.stored) :
    l.map s.stored = m.map s.stored := by
  induction l using List.reverseRecOn generalizing m with
  | nil => rw [List.length_eq_zero_iff.mp hn.symm]
  | append_singleton l a ih =>
    induction m using List.reverseRecOn with
    | nil => simp at hn
    | append_singleton m b _ =>
      rw [verifies_concat] at hl hm
      have he : s.stored a = s.stored b := by simpa using hd
      have hab : s.prev a = s.prev b := hp a b (by rw [hl.2.1, hm.2.1, he])
      have hlen : l.length = m.length := by simpa using hn
      have hlast : l.getLast?.map s.stored = m.getLast?.map s.stored := by
        cases hx : l.getLast? with
        | none =>
          rw [List.getLast?_eq_none_iff.mp hx] at hlen
          rw [List.length_eq_zero_iff.mp hlen.symm]
          rfl
        | some x =>
          cases hy : m.getLast? with
          | none =>
            rw [List.getLast?_eq_none_iff.mp hy, List.length_nil, List.length_eq_zero_iff] at hlen
            rw [hlen] at hx
            cases hx
          | some y =>
            rw [Option.map_some, Option.map_some, ← hl.2.2 x hx, ← hm.2.2 y hy, hab]
      rw [List.map_append, List.map_append, ih hl.1 hm.1 hlen hlast, List.map_singleton,
        List.map_singleton, he]

/-- A record can be exchanged under its stored digest for one of the same digest only. -/
theorem Verifies.set_iff (h : s.Verifies l) {i : Nat} (hi : i < l.length)
    (he : s.stored e = s.stored l[i]) : s.Verifies (l.set i e) ↔ s.digest e = s.digest l[i] := by
  constructor
  · intro hs
    rw [hs.1 e (List.mem_set hi e), he, h.1 _ (List.getElem_mem hi)]
  · intro hd
    refine ⟨fun a ha ↦ ?_, List.isChain_iff_getElem.mpr fun j hj ↦ ?_⟩
    · rcases List.mem_or_eq_of_mem_set ha with ha | rfl
      · exact h.1 a ha
      · rw [hd, he, h.1 _ (List.getElem_mem hi)]
    · rw [List.length_set] at hj
      have hl := List.isChain_iff_getElem.mp h.2 j hj
      have hpe := hp e l[i] hd
      rw [List.getElem_set, List.getElem_set]
      split
      · next hij =>
        subst hij
        rw [if_neg (by omega), hpe]
        exact hl
      · split
        · next hij =>
          subst hij
          rw [he]
          exact hl
        · exact hl

/-! ### Segments -/

variable (hr : ∀ e, s.digest e ≠ root)
include hr

/-- A digest is stored at one place only: otherwise the records before the two places would
store one digest as well, down to the root. -/
theorem Grown.eq_of_head_eq (hl : s.Grown root l) (hm : s.Grown root m)
    (h : s.head root l = s.head root m) : l.length = m.length := by
  induction hl generalizing m with
  | nil =>
    cases hm with
    | nil => rfl
    | concat hm _ hd =>
      rw [head_nil, head_concat, ← hd] at h
      exact absurd h.symm (hr _)
  | @concat l a _ hpa hda ih =>
    cases hm with
    | nil =>
      rw [head_nil, head_concat, ← hda] at h
      exact absurd h (hr _)
    | @concat m b hm hpb hdb =>
      rw [head_concat, head_concat, ← hda, ← hdb] at h
      have he : s.head root l = s.head root m := by rw [← hpa, ← hpb, hp a b h]
      rw [List.length_append, List.length_append, ih hm he]
      rfl

private theorem Grown.before (hc : s.Grown root c) {x y x' y' : List E} {a b : E}
    (hb : c = x ++ b :: y) (ha : c = x' ++ a :: y') (h : s.prev b = s.stored a) :
    x = x' ++ [a] := by
  have hx : s.Grown root (x ++ [b]) :=
    Grown.left (m := y) (by rwa [List.append_assoc, List.singleton_append, ← hb])
  have hx' : s.Grown root (x' ++ [a]) :=
    Grown.left (m := y') (by rwa [List.append_assoc, List.singleton_append, ← ha])
  have hg := grown_concat.mp hx
  have hn := Grown.eq_of_head_eq hp hr hg.1 hx' (by rw [← hg.2.1, h, head_concat])
  have he : x ++ b :: y = (x' ++ [a]) ++ y' := by
    rw [← hb, ha, List.append_assoc, List.singleton_append]
  exact (List.append_inj he hn).1

/-- The digests of a chain are distinct. -/
theorem Grown.nodup (hc : s.Grown root c) : (c.map s.stored).Nodup := by
  induction hc with
  | nil => exact List.nodup_nil
  | @concat l e hl hpe hd ih =>
    rw [List.map_append, List.map_singleton, ← List.concat_eq_append, List.nodup_concat]
    refine ⟨fun hm ↦ ?_, ih⟩
    obtain ⟨a, ha, he⟩ := List.mem_map.mp hm
    obtain ⟨x, y, rfl⟩ := List.append_of_mem ha
    have hx : s.Grown root (x ++ [a]) :=
      Grown.left (m := y) (by rwa [List.append_assoc, List.singleton_append])
    have hn := Grown.eq_of_head_eq hp hr hx (hl.concat hpe hd)
      (by rw [head_concat, head_concat, he])
    simp at hn

/-- Records of a chain verify in exactly the order and without the gaps of the chain. -/
theorem Grown.verifies_iff_segment (hc : s.Grown root c) (hm : ∀ e ∈ m, e ∈ c) :
    s.Verifies m ↔ m <:+: c := by
  refine ⟨fun h ↦ ?_, hc.verifies.segment⟩
  induction m using List.reverseRecOn with
  | nil => exact List.nil_infix
  | append_singleton m b ih =>
    have hm' : ∀ e ∈ m, e ∈ c := fun e he ↦ hm e (List.mem_append_left _ he)
    rw [verifies_concat] at h
    obtain ⟨x, y, hx⟩ := ih hm' h.1
    obtain ⟨x', y', hb⟩ := List.append_of_mem (hm b (List.mem_append_right _ List.mem_cons_self))
    induction m using List.reverseRecOn with
    | nil => exact ⟨x', y', by rw [hb]; simp⟩
    | append_singleton m a _ =>
      have ha : c = (x ++ m) ++ a :: y := by
        rw [← hx]
        simp
      have hl := h.2.2 a (by simp)
      have hbefore := Grown.before hp hr hc hb ha hl
      rw [hbefore] at hb
      exact ⟨x, y', by rw [hb]; simp⟩

/-- The records of a chain that are kept verify exactly when none is left out between them. -/
theorem Grown.filter_verifies_iff (hc : s.Grown root c) (p : E → Bool) :
    s.Verifies (c.filter p) ↔ ∃ a b d, c = a ++ b ++ d ∧ (∀ e ∈ a ++ d, p e = false) ∧
      ∀ e ∈ b, p e = true := by
  rw [hc.verifies_iff_segment hp hr fun e he ↦ List.mem_of_mem_filter he]
  constructor
  · rintro ⟨a, d, he⟩
    have hn : (a ++ c.filter p ++ d).Nodup := by
      rw [he]
      exact (hc.nodup hp hr).of_map
    refine ⟨a, c.filter p, d, he.symm, fun e hm ↦ ?_, fun e hm ↦ List.of_mem_filter hm⟩
    have hm' : e ∈ c.filter p → False := by
      intro hf
      rw [List.append_assoc, List.nodup_append, List.nodup_append] at hn
      rcases List.mem_append.mp hm with ha | hd
      · exact hn.2.2 e ha e (List.mem_append_left _ hf) rfl
      · exact hn.2.1.2.2 e hf e hd rfl
    rw [← Bool.not_eq_true]
    refine fun hpe ↦ hm' (List.mem_filter.mpr ⟨?_, hpe⟩)
    rw [← he]
    rcases List.mem_append.mp hm with ha | hd
    · exact List.mem_append_left _ (List.mem_append_left _ ha)
    · exact List.mem_append_right _ hd
  · rintro ⟨a, b, d, rfl, hn, hb⟩
    have ha : a.filter p = [] :=
      List.filter_eq_nil_iff.mpr fun e he ↦ by simp [hn e (List.mem_append_left _ he)]
    have hd : d.filter p = [] :=
      List.filter_eq_nil_iff.mpr fun e he ↦ by simp [hn e (List.mem_append_right _ he)]
    rw [List.filter_append, List.filter_append, ha, hd, List.filter_eq_self.mpr hb]
    exact ⟨a, d, by simp⟩

end
end HashChain
end NhiSentinel.Base
