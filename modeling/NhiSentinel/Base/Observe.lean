import NhiSentinel.Base.Redis

/-!
# What is seen of a command

Two stores look alike to a command from some time on when it is answered the same on both.
For each command that writes, when it can be told afterwards that it was carried out.
-/

namespace NhiSentinel.Redis

/-- From a time on, a command is answered on one store as on the other. -/
def AlikeFrom (now : Nat) (c : Command) (st st' : Store) : Prop :=
  ∀ later, now ≤ later → (exec later c st').1 = (exec later c st).1

/-- What a command writes is there already, as seen from `now` on; a command that is refused
writes nothing. A member may also be added to a set that expires until then. -/
def InPlace (st : Store) (now : Nat) : Nat × Command → Prop
  | (n, .sadd key member) => ∀ xs, members st n key = .ok xs →
      member ∈ xs ∨ ∃ x, (st.live n key).bind (·.expires) = some x ∧ x ≤ now
  | (_, .srem key member) => ∀ xs, members st now key = .ok xs → member ∉ xs
  | (_, .set key value) => st key = some ⟨.text value, none⟩
  | (_, .del key) => st.live now key = none
  | _ => True

section
variable {st st' : Store} {now later n : Nat} {key member value : String} {xs : List String}

/-- What a command is answered is a matter of its key. -/
theorem exec_congr {c : Command} (h : st' c.key = st c.key) :
    (exec now c st').1 = (exec now c st).1 := by
  have hl : st'.live now c.key = st.live now c.key := live_congr h
  have hm : members st' now c.key = members st now c.key := by
    rw [members, members, hl]
  cases c with
  | get key => simp_all only [exec, get, Command.key]
  | setex key seconds value =>
    simp only [exec, setex]
    split <;> rfl
  | incr key =>
    simp only [Command.key] at hl
    simp only [exec, incr, hl]
    split <;> try rfl
    split <;> try rfl
    split <;> rfl
  | expire key seconds =>
    simp only [Command.key] at hl
    simp only [exec, expire, hl]
    split <;> try rfl
    split <;> rfl
  | sadd key member =>
    simp only [Command.key] at hm
    simp only [exec, sadd, hm]
    split <;> try rfl
    split <;> rfl
  | srem key member =>
    simp only [Command.key] at hm
    simp only [exec, srem, hm]
    split <;> try rfl
    split <;> rfl
  | sismember key member => simp_all only [exec, Command.key]
  | smembers key => simp_all only [exec, Command.key]
  | set key value => rfl
  | del key => simp_all only [exec, Command.key]

/-- Whether two stores answer a command alike is up to its key. -/
theorem AlikeFrom.congr {c : Command} {st₁ st₁' : Store} (h : st₁ c.key = st c.key)
    (h' : st₁' c.key = st' c.key) : AlikeFrom now c st₁ st₁' ↔ AlikeFrom now c st st' := by
  unfold AlikeFrom
  simp only [exec_congr h, exec_congr h']

/-- Stores that agree on the key of a command answer it alike. -/
theorem AlikeFrom.of_eq {c : Command} (h : st' c.key = st c.key) : AlikeFrom now c st st' :=
  fun _ _ ↦ exec_congr h

/-- Whether a command writes in place is up to its key. -/
theorem InPlace.congr {c : Command} (h : st' c.key = st c.key) :
    InPlace st' now (n, c) ↔ InPlace st now (n, c) := by
  have hl (m : Nat) : st'.live m c.key = st.live m c.key := live_congr h
  have hm (m : Nat) : members st' m c.key = members st m c.key := by
    rw [members, members, hl]
  cases c <;> simp_all only [InPlace, Command.key]

/-- A command that is answered is carried out. -/
theorem Sent.store_of_ok {c : Command} {reply : Except String c.Reply}
    (h : Sent now st c reply st') (hr : ∃ a, reply = .ok a) : st' = (exec now c st).2 := by
  cases h with
  | answered => rfl
  | failed cls executed =>
    obtain ⟨a, ha⟩ := hr
    cases ha

/-! ### What is read of a key -/

/-- A live string is read. -/
theorem get_of_live {expires : Option Nat} (h : st.live later key = some ⟨.text value, expires⟩) :
    (exec later (.get key) st).1 = .ok (some value) := by
  simp only [exec, get, h]

/-- Nothing is read where nothing is live. -/
theorem get_of_absent (h : st.live later key = none) :
    (exec later (.get key) st).1 = .ok none := by
  simp only [exec, get, h]

/-- Membership is a matter of the set that is there. -/
theorem sismember_of_members (h : members st later key = .ok xs) :
    (exec later (.sismember key member) st).1 = .ok (decide (member ∈ xs)) := by
  show (members st later key).map _ = _
  rw [h]
  rfl

/-- The members of a live set. -/
theorem members_of_live {expires : Option Nat} (h : st.live later key = some ⟨.set xs, expires⟩) :
    members st later key = .ok xs := by
  rw [members, h]

/-- A set that is not live has no members. -/
theorem members_of_absent (h : st.live later key = none) : members st later key = .ok [] := by
  rw [members, h]

/-- In time a key stays as it is or expires. -/
theorem live_later (key : String) (hn : n ≤ later) :
    st.live later key = st.live n key ∨ st.live later key = none := by
  by_cases hl : st.live later key = none
  · exact .inr hl
  · left
    have hn' : st.live n key ≠ none := fun h ↦ hl (live_eq_none_mono h hn)
    obtain ⟨e, he⟩ := Option.ne_none_iff_exists'.mp hl
    obtain ⟨e', he'⟩ := Option.ne_none_iff_exists'.mp hn'
    have := (eq_of_live he).symm.trans (eq_of_live he')
    rw [he, he', this]

/-- Over time a set keeps its members or loses them all. -/
theorem members_later (key : String) (hn : n ≤ later) :
    members st later key = members st n key ∨ members st later key = .ok [] := by
  rcases live_later key hn with h | h
  · left
    rw [members, members, h]
  · exact .inr (members_of_absent h)

/-- Whoever is no member of a set does not become one in time. -/
theorem notMem_later (h : ∀ xs, members st n key = .ok xs → member ∉ xs) (hn : n ≤ later)
    (ys : List String) (hy : members st later key = .ok ys) : member ∉ ys := by
  rcases members_later key hn with hl | hl
  · exact h ys (hl.symm.trans hy)
  · rw [hl] at hy
    cases hy
    exact List.not_mem_nil

/-- Time brings no member into a set. -/
theorem sismember_later (hm : members st n key = .ok xs) (hx : member ∉ xs) (hn : n ≤ later) :
    (exec later (.sismember key member) st).1 = .ok false := by
  rcases members_later key hn with h | h
  · rw [sismember_of_members (h.trans hm), decide_eq_false hx]
  · rw [sismember_of_members h, decide_eq_false List.not_mem_nil]

/-- `SADD` is seen unless the member is there, or the set expires. -/
theorem alikeFrom_sadd (hn : n ≤ now) :
    AlikeFrom now (.sismember key member) st (exec n (.sadd key member) st).2 ↔
      InPlace st now (n, .sadd key member) := by
  show AlikeFrom _ _ _ (sadd st n key member).2 ↔ _
  unfold sadd InPlace
  split
  · next r hm =>
    exact ⟨fun _ xs h ↦ (by rw [hm] at h; cases h), fun _ ↦ .of_eq rfl⟩
  · next xs hm =>
    split
    · next hx =>
      exact ⟨fun _ ys h ↦ (by rw [hm] at h; cases h; exact .inl hx), fun _ ↦ .of_eq rfl⟩
    · next hx =>
      have hb (later : Nat) (hl : now ≤ later) := sismember_later hm hx (hn.trans hl)
      constructor
      · intro h ys hy
        right
        have ha := (h now le_rfl).trans (hb now le_rfl)
        by_contra he
        -- the set is there with its new member
        have hl : (st.put key (some ⟨.set (xs ++ [member]),
            (st.live n key).bind (·.expires)⟩)).live now key =
              some ⟨.set (xs ++ [member]), (st.live n key).bind (·.expires)⟩ := by
          apply live_of_expires (Store.put_self ..)
          intro x hx
          by_contra hlt
          exact he ⟨x, hx, Nat.le_of_not_lt hlt⟩
        rw [sismember_of_members (members_of_live hl)] at ha
        simp at ha
      · intro h later hl
        rcases h xs hm with h | ⟨x, he, hle⟩
        · exact absurd h hx
        · have hd : (st.put key (some ⟨.set (xs ++ [member]),
              (st.live n key).bind (·.expires)⟩)).live later key = none :=
            live_eq_none_of_expires (Store.put_self ..) he (hle.trans hl)
          rw [hb later hl, sismember_of_members (members_of_absent hd),
            decide_eq_false List.not_mem_nil]

/-- Whoever is in no set that is stored is no member at any time. -/
theorem sismember_of_stored
    (h : ∀ e, st key = some e → ∃ ys expires, e = ⟨.set ys, expires⟩ ∧ member ∉ ys) :
    (exec later (.sismember key member) st).1 = .ok false := by
  cases hl : st.live later key with
  | none => rw [sismember_of_members (members_of_absent hl), decide_eq_false List.not_mem_nil]
  | some e =>
    obtain ⟨ys, expires, rfl, hy⟩ := h e (eq_of_live hl)
    rw [sismember_of_members (members_of_live hl), decide_eq_false hy]

/-- `SREM` is seen if the member is there. -/
theorem alikeFrom_srem (hn : n ≤ now) :
    AlikeFrom now (.sismember key member) st (exec n (.srem key member) st).2 ↔
      InPlace st now (n, .srem key member) := by
  show AlikeFrom _ _ _ (srem st n key member).2 ↔ _
  unfold srem InPlace
  split
  · next r hm =>
    refine ⟨fun _ ↦ notMem_later (fun xs hx ↦ ?_) hn, fun _ ↦ .of_eq rfl⟩
    rw [hm] at hx
    cases hx
  · next xs hm =>
    split
    · next hx =>
      -- the member is gone for good
      have ha (later : Nat) : (exec later (.sismember key member) (st.put key
          (if xs.filter (· ≠ member) = [] then none
            else some ⟨.set (xs.filter (· ≠ member)), (st.live n key).bind (·.expires)⟩))).1 =
          .ok false := by
        apply sismember_of_stored
        intro e he
        rw [Store.put_self] at he
        split at he
        · cases he
        · cases he
          exact ⟨_, _, rfl, by simp⟩
      constructor
      · intro h ys hy
        have hb := (h now le_rfl).symm.trans (ha now)
        rw [sismember_of_members hy, Except.ok.injEq, decide_eq_false_iff_not] at hb
        exact hb
      · intro h later hl
        rw [ha later]
        symm
        rcases members_later key hn with he | he
        · exact absurd hx (h xs (he.trans hm))
        · exact sismember_later he List.not_mem_nil hl
    · next hx =>
      refine ⟨fun _ ↦ notMem_later (fun ys hy ↦ ?_) hn, fun _ ↦ .of_eq rfl⟩
      rw [hm] at hy
      cases hy
      exact hx

/-- `SET` is seen unless it writes what is there for good. -/
theorem alikeFrom_set :
    AlikeFrom now (.get key) st (exec n (.set key value) st).2 ↔
      InPlace st now (n, .set key value) := by
  have ha (later : Nat) : (exec later (.get key) (exec n (.set key value) st).2).1 =
      .ok (some value) := by
    have hl : (st.put key (some ⟨.text value, none⟩)).live later key = some ⟨.text value, none⟩ :=
      live_of_expires (Store.put_self ..) (by simp)
    exact get_of_live hl
  constructor
  · intro h
    have hb (later : Nat) (hl : now ≤ later) : get st later key = .ok (some value) :=
      (h later hl).symm.trans (ha later)
    obtain ⟨expires, he⟩ := live_of_get (hb now le_rfl)
    cases expires with
    | none => exact eq_of_live he
    | some x =>
      -- it would expire
      have hd : st.live (max now x) key = none :=
        live_eq_none_of_expires (eq_of_live he) rfl (le_max_right ..)
      have hg := hb (max now x) (le_max_left ..)
      rw [get, hd] at hg
      cases hg
  · intro h later _
    rw [ha later]
    exact (get_of_live (live_of_expires h (by simp))).symm

/-- `DEL` is seen if the key is there. -/
theorem alikeFrom_del :
    AlikeFrom now (.get key) st (exec n (.del key) st).2 ↔ InPlace st now (n, .del key) := by
  have ha (later : Nat) : (exec later (.get key) (exec n (.del key) st).2).1 = .ok none := by
    have hl : (st.put key none).live later key = none := by
      rw [Store.live, Store.put_self, Option.filter_none]
    exact get_of_absent hl
  constructor
  · intro h
    have hb : get st now key = .ok none := (h now le_rfl).symm.trans (ha now)
    unfold get at hb
    split at hb
    · next hl => exact hl
    · cases hb
    · cases hb
  · intro h later hl
    rw [ha later, get_of_absent (live_eq_none_mono h hl)]

end

end NhiSentinel.Redis
