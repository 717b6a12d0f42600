import Mathlib.Algebra.Order.Ring.Int
import Mathlib.Logic.Function.Basic
import Std.Data.String.ToInt

/-!
# A key-value store with expiry

Strings and sets under string keys, each with an optional time of expiry, and the
commands on them. A key past its expiry is as good as absent. Time is in microseconds.
-/

namespace NhiSentinel.Redis

/-- What is stored under a key. -/
inductive Data where
  | text (s : String)
  | set (members : List String)
  deriving DecidableEq

/-- A stored key. -/
structure Entry where
  data : Data
  expires : Option Nat
  deriving DecidableEq

/-- The keys of a server. -/
def Store := String → Option Entry

namespace Store

/-- The entry of a key that has not expired. -/
def live (st : Store) (now : Nat) (key : String) : Option Entry :=
  (st key).filter fun e ↦ e.expires.all (now < ·)

/-- The store with one key set or removed. -/
def put (st : Store) (key : String) (e : Option Entry) : Store := Function.update st key e

/-- The entry that is put under a key. -/
@[simp] theorem put_self (st : Store) (key : String) (e : Option Entry) :
    st.put key e key = e := Function.update_self ..

/-- The entries under other keys stay. -/
theorem put_of_ne (st : Store) {key key' : String} (e : Option Entry) (h : key' ≠ key) :
    st.put key e key' = st key' := Function.update_of_ne h ..

end Store

/-- The commands. A time to live is in seconds. -/
inductive Command where
  | get (key : String)
  | setex (key : String) (seconds : Int) (value : String)
  | incr (key : String)
  | expire (key : String) (seconds : Int)
  | sadd (key member : String)
  | srem (key member : String)
  | sismember (key member : String)
  | smembers (key : String)
  | set (key value : String)
  | del (key : String)
  deriving DecidableEq

/-- What a command answers when it succeeds. -/
@[reducible] def Command.Reply : Command → Type
  | get _ => Option String
  | setex .. => Unit
  | incr _ => Int
  | expire .. => Bool
  | sadd .. => Nat
  | srem .. => Nat
  | sismember .. => Bool
  | smembers _ => List String
  | set .. => Unit
  | del _ => Nat

/-- Why a command is refused. -/
inductive Refusal where
  | wrongType
  | notAnInteger
  | overflow
  | invalidExpireTime
  deriving DecidableEq

/-- The integer that a stored string is the decimal form of. -/
def integer? (s : String) : Option Int := s.toInt?.filter fun n ↦ toString n = s

/-- Every integer is read back from its decimal form. -/
@[simp] theorem integer?_toString (n : Int) : integer? (toString n) = some n := by
  show (n.repr.toInt?.filter fun m ↦ toString m = n.repr) = some n
  rw [Int.toInt?_repr, Option.filter_some]
  exact if_pos (decide_eq_true rfl)

/-- The members of a live set; none for an absent key. -/
def members (st : Store) (now : Nat) (key : String) : Except Refusal (List String) :=
  match st.live now key with
  | none => .ok []
  | some ⟨.set xs, _⟩ => .ok xs
  | some ⟨.text _, _⟩ => .error .wrongType

/-- `INCR`: an absent key counts as zero and a present one keeps its expiry. -/
def incr (st : Store) (now : Nat) (key : String) : Except Refusal Int × Store :=
  match st.live now key with
  | none => (.ok 1, st.put key (some ⟨.text "1", none⟩))
  | some ⟨.set _, _⟩ => (.error .wrongType, st)
  | some ⟨.text s, expires⟩ =>
    match integer? s with
    | none => (.error .notAnInteger, st)
    | some n =>
      if n + 1 < 2 ^ 63 then (.ok (n + 1), st.put key (some ⟨.text (toString (n + 1)), expires⟩))
      else (.error .overflow, st)

/-- `EXPIRE`: a time to live that is not positive removes the key. -/
def expire (st : Store) (now : Nat) (key : String) (seconds : Int) :
    Except Refusal Bool × Store :=
  match st.live now key with
  | none => (.ok false, st)
  | some e =>
    if 0 < seconds then (.ok true, st.put key (some { e with
      expires := some (now + seconds.toNat * 1000000) }))
    else (.ok true, st.put key none)

/-- `SADD` keeps the expiry of the set. -/
def sadd (st : Store) (now : Nat) (key member : String) : Except Refusal Nat × Store :=
  match members st now key with
  | .error r => (.error r, st)
  | .ok xs =>
    if member ∈ xs then (.ok 0, st)
    else (.ok 1, st.put key (some ⟨.set (xs ++ [member]), (st.live now key).bind (·.expires)⟩))

/-- `SREM`: an emptied set is removed. -/
def srem (st : Store) (now : Nat) (key member : String) : Except Refusal Nat × Store :=
  match members st now key with
  | .error r => (.error r, st)
  | .ok xs =>
    if member ∈ xs then
      let rest := xs.filter (· ≠ member)
      (.ok 1, st.put key
        (if rest = [] then none else some ⟨.set rest, (st.live now key).bind (·.expires)⟩))
    else (.ok 0, st)

/-- `GET`. -/
def get (st : Store) (now : Nat) (key : String) : Except Refusal (Option String) :=
  match st.live now key with
  | none => .ok none
  | some ⟨.text s, _⟩ => .ok (some s)
  | some ⟨.set _, _⟩ => .error .wrongType

/-- `SETEX`. -/
def setex (st : Store) (now : Nat) (key : String) (seconds : Int) (value : String) :
    Except Refusal Unit × Store :=
  if 0 < seconds then
    (.ok (), st.put key (some ⟨.text value, some (now + seconds.toNat * 1000000)⟩))
  else (.error .invalidExpireTime, st)

/-- One command at a point in time. -/
def exec (now : Nat) : (c : Command) → Store → Except Refusal c.Reply × Store
  | .get key, st => (get st now key, st)
  | .setex key seconds value, st => setex st now key seconds value
  | .incr key, st => incr st now key
  | .expire key seconds, st => expire st now key seconds
  | .sadd key member, st => sadd st now key member
  | .srem key member, st => srem st now key member
  | .sismember key member, st => ((members st now key).map fun xs ↦ decide (member ∈ xs), st)
  | .smembers key, st => (members st now key, st)
  | .set key value, st => (.ok (), st.put key (some ⟨.text value, none⟩))
  | .del key, st => (.ok (if (st.live now key).isSome then 1 else 0), st.put key none)

/-- What can come of a command that is sent: it is executed and answered, or its answer is an
exception of the client, whether it was executed or not. -/
inductive Sent (now : Nat) (st : Store) (c : Command) : Except String c.Reply → Store → Prop where
  | answered : Sent now st c ((exec now c st).1.mapError fun _ ↦ "ResponseError") (exec now c st).2
  | failed (cls : String) (executed : Bool) :
      Sent now st c (.error cls) (if executed then (exec now c st).2 else st)

/-- The key of a command. -/
def Command.key : Command → String
  | get key | setex key .. | incr key | expire key _ | sadd key _ | srem key _ | sismember key _
  | smembers key | set key _ | del key => key

/-- A command that can change a stored string. -/
def Command.rewrites : Command → Bool
  | setex .. | incr _ | expire .. | set .. | del _ => true
  | _ => false

/-! ### What a command leaves alone -/

section
variable {st st' : Store} {now now' : Nat} {key key' : String}

/-- Liveness of a key is a matter of its entry. -/
theorem live_congr (h : st key = st' key) : st.live now key = st'.live now key := by
  rw [Store.live, Store.live, h]

/-- What has expired stays expired. -/
theorem live_eq_none_mono (h : st.live now key = none) (hn : now ≤ now') :
    st.live now' key = none := by
  rw [Store.live, Option.filter_eq_none_iff] at h ⊢
  intro e he hl
  apply h e he
  rw [Option.all_eq_true] at hl ⊢
  intro x hx
  have := hl x hx
  simp only [decide_eq_true_eq] at this ⊢
  omega

/-- An entry that does not expire before a later time is live. -/
theorem live_of_expires {e : Entry} (h : st key = some e)
    (he : ∀ x, e.expires = some x → now < x) : st.live now key = some e := by
  rw [Store.live, h, Option.filter_some, if_pos]
  rw [Option.all_eq_true]
  intro x hx
  exact decide_eq_true (he x hx)

/-- An entry without an expiry stays. -/
theorem live_of_persistent {data : Data} (h : st key = some ⟨data, none⟩) :
    st.live now key = some ⟨data, none⟩ :=
  live_of_expires h nofun

/-- An entry whose time is over is not live. -/
theorem live_eq_none_of_expires {e : Entry} {x : Nat} (h : st key = some e)
    (hx : e.expires = some x) (hn : x ≤ now) : st.live now key = none := by
  rw [Store.live, h, Option.filter_some, if_neg]
  rw [hx, Option.all_some, decide_eq_true_eq]
  exact Nat.not_lt.mpr hn

/-- A live entry is stored. -/
theorem eq_of_live {e : Entry} (h : st.live now key = some e) : st key = some e :=
  (Option.filter_eq_some_iff.mp h).1

/-- What is live at a later time is live before. -/
theorem live_of_later {e : Entry} (h : st.live now' key = some e) (hn : now ≤ now') :
    st.live now key = some e := by
  cases hl : st.live now key with
  | none => cases (live_eq_none_mono hl hn).symm.trans h
  | some e' => rw [← eq_of_live h, eq_of_live hl]

/-- `GET` answers the string of a live key. -/
theorem live_of_get {s : String} (h : get st now key = .ok (some s)) :
    ∃ expires, st.live now key = some ⟨.text s, expires⟩ := by
  unfold get at h
  split at h
  · cases h
  · next expires hl =>
    cases h
    exact ⟨expires, hl⟩
  · cases h

/-- A written string is there until its time to live is over. -/
theorem live_of_setex {seconds : Int} {value : String} (h : 0 < seconds)
    (hn : now' < now + seconds.toNat * 1000000) :
    (setex st now key seconds value).2.live now' key =
      some ⟨.text value, some (now + seconds.toNat * 1000000)⟩ := by
  rw [setex, if_pos h]
  apply live_of_expires (Store.put_self ..)
  intro x hx
  cases hx
  exact hn

/-- `INCR` writes its own key only. -/
theorem incr_of_ne (h : key' ≠ key) : (incr st now key).2 key' = st key' := by
  unfold incr
  split
  · exact Store.put_of_ne st _ h
  · rfl
  · split
    · rfl
    · split
      · exact Store.put_of_ne st _ h
      · rfl

/-- `EXPIRE` writes its own key only. -/
theorem expire_of_ne {seconds : Int} (h : key' ≠ key) :
    (expire st now key seconds).2 key' = st key' := by
  unfold expire
  split
  · rfl
  · split <;> exact Store.put_of_ne st _ h

/-- `SETEX` writes its own key only. -/
theorem setex_of_ne {seconds : Int} {value : String} (h : key' ≠ key) :
    (setex st now key seconds value).2 key' = st key' := by
  unfold setex
  split
  · exact Store.put_of_ne st _ h
  · rfl

/-- `SETEX` replaces what was there. -/
theorem setex_self {seconds : Int} {value : String} (h : 0 < seconds) :
    (setex st now key seconds value).2 key =
      some ⟨.text value, some (now + seconds.toNat * 1000000)⟩ := by
  rw [setex, if_pos h]
  exact Store.put_self ..

/-- `SADD` writes its own key only. -/
theorem sadd_of_ne {member : String} (h : key' ≠ key) :
    (sadd st now key member).2 key' = st key' := by
  unfold sadd
  split
  · rfl
  · split
    · rfl
    · exact Store.put_of_ne st _ h

/-- `SREM` writes its own key only. -/
theorem srem_of_ne {member : String} (h : key' ≠ key) :
    (srem st now key member).2 key' = st key' := by
  unfold srem
  split
  · rfl
  · split
    · exact Store.put_of_ne st _ h
    · rfl

/-- A command leaves the other keys alone. -/
theorem exec_of_ne {c : Command} (h : key' ≠ c.key) : (exec now c st).2 key' = st key' := by
  cases c with
  | setex => exact setex_of_ne h
  | incr => exact incr_of_ne h
  | expire => exact expire_of_ne h
  | sadd => exact sadd_of_ne h
  | srem => exact srem_of_ne h
  | set | del => exact Store.put_of_ne st _ h
  | _ => rfl

/-- A stored string is left alone by all other commands on its key, too. -/
theorem exec_text {s : String} {expires : Option Nat} {c : Command}
    (h : st.live now key = some ⟨.text s, expires⟩) (hc : c.key = key → c.rewrites = false) :
    (exec now c st).2 key = st key := by
  have hm : members st now key = .error .wrongType := by rw [members, h]
  by_cases hk : c.key = key
  · have hn := hc hk
    cases c with
    | setex | incr | expire | set | del => cases hn
    | get | sismember | smembers => rfl
    | sadd key' member =>
      obtain rfl : key' = key := hk
      simp only [exec, sadd, hm]
    | srem key' member =>
      obtain rfl : key' = key := hk
      simp only [exec, srem, hm]
  · exact exec_of_ne (Ne.symm hk)

/-- A command that is sent leaves the other keys alone. -/
theorem Sent.of_ne {c : Command} {reply : Except String c.Reply} (hs : Sent now st c reply st')
    (h : key' ≠ c.key) : st' key' = st key' := by
  cases hs with
  | answered => exact exec_of_ne h
  | failed cls executed =>
    split
    · exact exec_of_ne h
    · rfl

/-! ### Sets that do not expire -/

/-- A key holds a set for good; the empty set is no key. -/
def HoldsSet (st : Store) (key : String) (xs : List String) : Prop :=
  st key = none ∧ xs = [] ∨ st key = some ⟨.set xs, none⟩

section
variable {xs : List String}

/-- A store that agrees on the key holds the same set. -/
theorem HoldsSet.congr (h : HoldsSet st key xs) (hk : st' key = st key) : HoldsSet st' key xs := by
  rw [HoldsSet, hk]
  exact h

/-- What is in the set is the same at all times. -/
theorem HoldsSet.members (h : HoldsSet st key xs) (now : Nat) : members st now key = .ok xs := by
  rcases h with ⟨hk, rfl⟩ | hk
  · have hl : st.live now key = none := by rw [Store.live, hk, Option.filter_none]
    rw [Redis.members, hl]
  · rw [Redis.members, live_of_expires hk nofun]

/-- A set never expires. -/
theorem HoldsSet.expires (h : HoldsSet st key xs) (now : Nat) :
    (st.live now key).bind (·.expires) = none := by
  rcases h with ⟨hk, -⟩ | hk
  · rw [Store.live, hk, Option.filter_none]
    rfl
  · rw [live_of_expires hk nofun]
    rfl

/-- The set after `SADD`. -/
theorem HoldsSet.sadd_if (h : HoldsSet st key xs) (now : Nat) (member : String) :
    HoldsSet (Redis.sadd st now key member).2 key
      (if member ∈ xs then xs else xs ++ [member]) := by
  rw [Redis.sadd, h.members now]
  by_cases hm : member ∈ xs
  · simp only [if_pos hm]
    exact h
  · simp only [if_neg hm]
    exact .inr (by rw [Store.put_self, h.expires now])

/-- The set after `SREM`. -/
theorem HoldsSet.srem_filter (h : HoldsSet st key xs) (now : Nat) (member : String) :
    HoldsSet (Redis.srem st now key member).2 key (xs.filter (· ≠ member)) := by
  rw [Redis.srem, h.members now]
  by_cases hm : member ∈ xs
  · simp only [if_pos hm]
    by_cases he : xs.filter (· ≠ member) = []
    · exact .inl ⟨by rw [Store.put_self, if_pos he], he⟩
    · exact .inr (by rw [Store.put_self, if_neg he, h.expires now])
  · have hf : xs.filter (· ≠ member) = xs := by
      rw [List.filter_eq_self]
      intro x hx
      exact decide_eq_true fun he ↦ hm (he ▸ hx)
    simp only [if_neg hm]
    rwa [hf]

/-- How `SADD` on a set is answered. -/
theorem HoldsSet.exec_sadd (h : HoldsSet st key xs) (now : Nat) (member : String) :
    exec now (.sadd key member) st =
      (.ok (if member ∈ xs then 0 else 1), (Redis.sadd st now key member).2) := by
  rw [exec, Redis.sadd, h.members now]
  by_cases hm : member ∈ xs
  · simp only [if_pos hm]
  · simp only [if_neg hm]

/-- How `SREM` on a set is answered. -/
theorem HoldsSet.exec_srem (h : HoldsSet st key xs) (now : Nat) (member : String) :
    exec now (.srem key member) st =
      (.ok (if member ∈ xs then 1 else 0), (Redis.srem st now key member).2) := by
  rw [exec, Redis.srem, h.members now]
  by_cases hm : member ∈ xs
  · simp only [if_pos hm]
  · simp only [if_neg hm]

/-- `SADD` of a member. -/
theorem HoldsSet.sadd (h : HoldsSet st key xs) (now : Nat) (member : String) :
    ∃ n ys, sadd st now key member = (.ok n, (sadd st now key member).2) ∧
      HoldsSet (sadd st now key member).2 key ys ∧ ∀ x, x ∈ ys ↔ x = member ∨ x ∈ xs := by
  rw [Redis.sadd, h.members now]
  by_cases hm : member ∈ xs
  · simp only [if_pos hm]
    refine ⟨0, xs, rfl, h, fun x ↦ ?_⟩
    constructor
    · exact .inr
    · rintro (rfl | hx)
      · exact hm
      · exact hx
  · simp only [if_neg hm]
    refine ⟨1, xs ++ [member], rfl, .inr ?_, fun x ↦ ?_⟩
    · rw [Store.put_self, h.expires now]
    · rw [List.mem_append, List.mem_singleton, or_comm]

/-- `SREM` of a member. -/
theorem HoldsSet.srem (h : HoldsSet st key xs) (now : Nat) (member : String) :
    ∃ n ys, srem st now key member = (.ok n, (srem st now key member).2) ∧
      HoldsSet (srem st now key member).2 key ys ∧ ∀ x, x ∈ ys ↔ x ≠ member ∧ x ∈ xs := by
  rw [Redis.srem, h.members now]
  have hf (x : String) : x ∈ xs.filter (· ≠ member) ↔ x ≠ member ∧ x ∈ xs := by
    rw [List.mem_filter, decide_eq_true_eq, and_comm]
  by_cases hm : member ∈ xs
  · simp only [if_pos hm]
    refine ⟨1, xs.filter (· ≠ member), rfl, ?_, hf⟩
    by_cases he : xs.filter (· ≠ member) = []
    · exact .inl ⟨by rw [Store.put_self, if_pos he], he⟩
    · exact .inr (by rw [Store.put_self, if_neg he, h.expires now])
  · simp only [if_neg hm]
    refine ⟨0, xs, rfl, h, fun x ↦ ?_⟩
    constructor
    · intro hx
      exact ⟨fun he ↦ hm (he ▸ hx), hx⟩
    · exact And.right

/-- `SADD` that is sent changes nothing but its member, which is there when it is answered. -/
theorem HoldsSet.sent_sadd {member : String} {reply : Except String (Command.sadd key member).Reply}
    (h : HoldsSet st key xs) (hs : Sent now st (.sadd key member) reply st') :
    ∃ ys, HoldsSet st' key ys ∧ (∀ x, x ≠ member → (x ∈ ys ↔ x ∈ xs)) ∧
      ((∃ n, reply = .ok n) → member ∈ ys) := by
  obtain ⟨n, ys, -, hy, hm⟩ := h.sadd now member
  have hx (x : String) (hn : x ≠ member) : x ∈ ys ↔ x ∈ xs := by
    rw [hm, or_iff_right hn]
  cases hs with
  | answered => exact ⟨ys, hy, hx, fun _ ↦ (hm member).mpr (.inl rfl)⟩
  | failed cls executed =>
    cases executed with
    | true => exact ⟨ys, hy, hx, nofun⟩
    | false => exact ⟨xs, h, fun _ _ ↦ Iff.rfl, nofun⟩

/-- `SREM` that is sent changes nothing but its member, which is not there when it is answered. -/
theorem HoldsSet.sent_srem {member : String} {reply : Except String (Command.srem key member).Reply}
    (h : HoldsSet st key xs) (hs : Sent now st (.srem key member) reply st') :
    ∃ ys, HoldsSet st' key ys ∧ (∀ x, x ≠ member → (x ∈ ys ↔ x ∈ xs)) ∧
      ((∃ n, reply = .ok n) → member ∉ ys) := by
  obtain ⟨n, ys, -, hy, hm⟩ := h.srem now member
  have hx (x : String) (hn : x ≠ member) : x ∈ ys ↔ x ∈ xs := by
    rw [hm, and_iff_right hn]
  cases hs with
  | answered => exact ⟨ys, hy, hx, fun _ hi ↦ ((hm member).mp hi).1 rfl⟩
  | failed cls executed =>
    cases executed with
    | true => exact ⟨ys, hy, hx, nofun⟩
    | false => exact ⟨xs, h, fun _ _ ↦ Iff.rfl, nofun⟩

end

/-- `EXPIRE` is never refused. -/
theorem expire_ok (seconds : Int) : ∃ b, (expire st now key seconds).1 = .ok b := by
  unfold expire
  split
  · exact ⟨_, rfl⟩
  · split <;> exact ⟨_, rfl⟩

/-- `INCR` of an absent key. -/
theorem incr_of_absent (h : st.live now key = none) :
    incr st now key = (.ok 1, st.put key (some ⟨.text (toString (1 : Int)), none⟩)) := by
  rw [incr, h]
  rfl

/-- `INCR` of a live counter: the next number with the same expiry, up to the largest. -/
theorem incr_of_counter {n : Int} {expires : Option Nat}
    (h : st.live now key = some ⟨.text (toString n), expires⟩) :
    incr st now key =
      if n + 1 < 2 ^ 63 then
        (.ok (n + 1), st.put key (some ⟨.text (toString (n + 1)), expires⟩))
      else (.error .overflow, st) := by
  rw [incr, h]
  simp only [integer?_toString]

/-- `EXPIRE` of an absent key. -/
theorem expire_of_absent {seconds : Int} (h : st.live now key = none) :
    expire st now key seconds = (.ok false, st) := by
  rw [expire, h]

/-- `EXPIRE` of a live key with a positive time to live. -/
theorem expire_of_live {seconds : Int} {e : Entry} (h : st.live now key = some e)
    (hs : 0 < seconds) :
    expire st now key seconds = (.ok true, st.put key
      (some { e with expires := some (now + seconds.toNat * 1000000) })) := by
  rw [expire, h]
  exact if_pos hs

end

end NhiSentinel.Redis
