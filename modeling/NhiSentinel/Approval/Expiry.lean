import Mathlib.Data.List.Induction
import NhiSentinel.Approval.Race

/-!
# Expiry under concurrent calls

A request expires twice: by the date in the record, computed before the record is written,
and by the time to live that starts with the write. `resolve` looks at neither when it
writes, so both can be ended by then.
-/

namespace NhiSentinel.Approval
open NhiSentinel.Base

/-! ### What is observed -/

/-- A record written: by whom, with what, and on what server. -/
structure Write (ι : Type) where
  client : ι
  key : String
  seconds : Int
  text : String
  on : Server

/-- When the time to live is over. -/
def Write.expires {ι : Type} (x : Write ι) : Nat := x.on.now + x.seconds.toNat * 1000000

/-- The entry that it leaves. -/
def Write.entry {ι : Type} (x : Write ι) : Redis.Entry := ⟨.text x.text, some x.expires⟩

/-- A server, what every client has read of its clock and got as an identifier, and the records
that were written. -/
structure Observed (ι : Type) where
  server : Server
  clock : ι → Option Nat
  uuid : ι → Option String
  writes : List (Write ι)

section
variable {ι : Type}

/-- A call is noted. -/
def Observed.note [DecidableEq ι] (w : Observed ι) (i : ι) : QueueEvent → Observed ι
  | ⟨.clock, now⟩ => { w with clock := Function.update w.clock i (some now) }
  | ⟨.uuid4, id⟩ => { w with uuid := Function.update w.uuid i (some id) }
  | ⟨.redis (.setex key seconds text), .ok _⟩ =>
    { w with writes := w.writes ++ [⟨i, key, seconds, text, w.server⟩] }
  | _ => w

/-- Clients on one server whose calls are noted. -/
def observing (ι : Type) [DecidableEq ι] : World ι QueueCall QueueCall.Reply (Observed ι) where
  answer w i c r w' := ∃ server, w.server.answer c = (r, server) ∧
    w' = { w.note i ⟨c, r⟩ with server := server }
  background w w' := ∃ now, w.server.now ≤ now ∧ now ≤ Python.datetimeMax ∧
    w' = { w with server := { w.server with now := now } }

/-- The last record written under a key. -/
def lastWrite (k : String) (l : List (Write ι)) : Option (Write ι) :=
  (l.filter (·.key = k)).getLast?

private theorem lastWrite_concat_self (l : List (Write ι)) (x : Write ι) :
    lastWrite x.key (l ++ [x]) = some x := by
  rw [lastWrite, List.filter_append, List.filter_singleton, decide_eq_true rfl]
  exact List.getLast?_concat

private theorem lastWrite_concat_of_ne {k : String} (l : List (Write ι)) {x : Write ι}
    (h : k ≠ x.key) :
    lastWrite k (l ++ [x]) = lastWrite k l := by
  rw [lastWrite, List.filter_append, List.filter_singleton, decide_eq_false (Ne.symm h)]
  rw [cond_false, List.append_nil, lastWrite]

private theorem mem_of_lastWrite {k : String} {l : List (Write ι)} {x : Write ι}
    (h : lastWrite k l = some x) : x ∈ l ∧ x.key = k := by
  obtain ⟨hm, hk⟩ := List.mem_filter.mp (List.mem_of_getLast? h)
  exact ⟨hm, of_decide_eq_true hk⟩

/-! ### Keys and writes -/

/-- The keys of requests hold what was last written to them, now and before each write. -/
structure Logged (w : Observed ι) : Prop where
  now : w.server.now ≤ Python.datetimeMax
  store : ∀ id, id ≠ pendingName →
    w.server.store (key id) = (lastWrite (key id) w.writes).map Write.entry
  before : ∀ l₁ x l₂, w.writes = l₁ ++ x :: l₂ →
    x.on.store x.key = (lastWrite x.key l₁).map Write.entry

/-- A call that writes no request. -/
theorem Logged.quiet {w w' : Observed ι} (h : Logged w) (hn : w'.server.now = w.server.now)
    (hs : ∀ id, id ≠ pendingName → w'.server.store (key id) = w.server.store (key id))
    (hw : w'.writes = w.writes) : Logged w' where
  now := hn ▸ h.now
  store id hid := by rw [hs id hid, hw, h.store id hid]
  before := by
    rw [hw]
    exact h.before

/-- A record is written. -/
theorem Logged.write {w : Observed ι} (h : Logged w) (i : ι) {id : String} (hid : id ≠ pendingName)
    {seconds : Int} (hs : 0 < seconds) (text : String) :
    Logged { w with
      server := { w.server with
        store := (Redis.setex w.server.store w.server.now (key id) seconds text).2 }
      writes := w.writes ++ [⟨i, key id, seconds, text, w.server⟩] } where
  now := h.now
  store id' hid' := by
    by_cases he : id' = id
    · subst he
      rw [lastWrite_concat_self _ ⟨i, key id', seconds, text, w.server⟩]
      exact Redis.setex_self hs
    · have hk : key id' ≠ key id := fun hk ↦ he (key_injective hk)
      rw [lastWrite_concat_of_ne _ hk, ← h.store id' hid']
      exact Redis.setex_of_ne hk
  before l₁ x l₂ hl := by
    rcases List.eq_nil_or_concat l₂ with rfl | ⟨l₂, y, rfl⟩
    · obtain ⟨rfl, rfl⟩ := List.append_inj' hl rfl |>.imp_right List.singleton_inj.mp
      exact h.store id hid
    · rw [List.concat_eq_append, ← List.cons_append, ← List.append_assoc] at hl
      exact h.before l₁ x l₂ (List.append_inj' hl rfl).1

end

/-! ### Clients -/

section
variable {α β : Type}

/-- Clients that enqueue and clients that resolve. -/
def clients (codec : Codec) (submission : α → Submission) (resolution : β → ApprovalResolution) :
    Reach.Control (α ⊕ β) QueueCall QueueCall.Reply (Except QueueExn ApprovalRequest × Unit) where
  Point
    | .inl _ => Enqueuing
    | .inr _ => Resolving
  start
    | .inl _ => Enqueuing.start
    | .inr _ => Resolving.start
  program
    | .inl a => Enqueuing.program codec (submission a)
    | .inr b => Resolving.program codec (resolution b)
  Moves
    | .inl a => Enqueuing.Moves codec (submission a)
    | .inr b => Resolving.Moves codec (resolution b)
  step
    | .inl _ => Enqueuing.step
    | .inr _ => Resolving.step

/-- The programs of the clients. -/
def programs (codec : Codec) (submission : α → Submission) (resolution : β → ApprovalResolution) :
    α ⊕ β → QueueProg
  | .inl a => (submission a).enqueue codec ()
  | .inr b => resolve codec (resolution b) ()

/-- What is promised of the time of resolutions: no request is approved after its date, and none
is written back after its record has expired. -/
structure Punctual (codec : Codec) (w : Observed (α ⊕ β)) : Prop where
  approved : ∀ x ∈ w.writes, ∀ b, x.client = .inr b → ∀ r,
    ApprovalRequest.validateJson? codec x.text = some r → r.status = .approved →
      ∀ n, r.resolvedAt = some n → n ≤ r.expiresAt
  live : ∀ x ∈ w.writes, ∀ b, x.client = .inr b → x.on.store.live x.on.now x.key ≠ none

/-- The times of the calls: a resolver that approves has read a clock that is not beyond the
clock that the request was enqueued by and its time to live, and every resolver writes before
the time to live of the last write is over. -/
structure Timely (submission : α → Submission) (resolution : β → ApprovalResolution)
    (w : Observed (α ⊕ β)) : Prop where
  clock : ∀ b, (∃ x ∈ w.writes, x.client = .inr b) → (resolution b).action = "approve" →
    ∀ a, w.uuid (.inl a) = some (resolution b).requestId →
      ∀ m n, w.clock (.inl a) = some m → w.clock (.inr b) = some n →
        n ≤ m + (submission a).ttlSeconds.toNat * 1000000
  write : ∀ l₁ x l₂, w.writes = l₁ ++ x :: l₂ → ∀ b, x.client = .inr b →
    ∃ y, lastWrite x.key l₁ = some y ∧ x.on.now < y.expires

/-! ### What the clients have done -/

/-- The expiry of a request is the clock that it was enqueued by and its time to live. -/
def Dated (submission : α → Submission) (w : Observed (α ⊕ β)) (r : ApprovalRequest) : Prop :=
  ∃ a m, w.uuid (.inl a) = some r.requestId ∧ w.clock (.inl a) = some m ∧
    r.expiresAt = m + (submission a).ttlSeconds.toNat * 1000000

/-- A request with the verdict of a resolver at the time that it has read. -/
structure Decided (resolution : ApprovalResolution) (clock : Option Nat) (r : ApprovalRequest) :
    Prop where
  requestId : r.requestId = resolution.requestId
  approved : r.status = .approved ↔ resolution.action = "approve"
  resolvedAt : r.resolvedAt = clock
  read : clock ≠ none

/-- A record that is written: the JSON form of a request under its key. -/
structure Written (codec : Codec) (submission : α → Submission) (w : Observed (α ⊕ β))
    (x : Write (α ⊕ β)) (r : ApprovalRequest) : Prop where
  wellFormed : r.WellFormed
  text : r.dumpJson codec = some x.text
  key : x.key = key r.requestId
  dated : Dated submission w r

/-- What an enqueuing client has noted where it stands. -/
def EnqueuingAt (codec : Codec) (s : Submission) (clock : Option Nat) (uuid : Option String) :
    Enqueuing → Prop
  | .start => uuid = none
  | .clocked now => clock = some now ∧ uuid = none ∧ now ≤ Python.datetimeMax
  | .writing r json => ∃ m, clock = some m ∧ uuid = some r.requestId ∧
      r = s.request r.requestId m ∧ ∃ r', StoredAs codec r r' json
  | _ => True

/-- What a resolving client has noted where it stands. -/
def ResolvingAt (codec : Codec) (submission : α → Submission) (resolution : ApprovalResolution)
    (w : Observed (α ⊕ β)) (b : β) : Resolving → Prop
  | .start => ∀ x ∈ w.writes, x.client ≠ .inr b
  | .checked r => (∀ x ∈ w.writes, x.client ≠ .inr b) ∧ r.WellFormed ∧
      r.requestId = resolution.requestId ∧ Dated submission w r
  | .writing r json => (∀ x ∈ w.writes, x.client ≠ .inr b) ∧ r.WellFormed ∧
      r.dumpJson codec = some json ∧ Dated submission w r ∧
      Decided resolution (w.clock (.inr b)) r
  | _ => True

variable {codec : Codec} {submission : α → Submission} {resolution : β → ApprovalResolution}

/-- What a client has noted where it stands. -/
def At (codec : Codec) (submission : α → Submission) (resolution : β → ApprovalResolution)
    (w : Observed (α ⊕ β)) : (i : α ⊕ β) → (clients codec submission resolution).Point i → Prop
  | .inl a => EnqueuingAt codec (submission a) (w.clock (.inl a)) (w.uuid (.inl a))
  | .inr b => ResolvingAt codec submission (resolution b) w b

/-- The identifiers of the requests are different, as are the next ones that the server gives
out. -/
structure Identified (w : Observed (α ⊕ β)) (count : Nat) : Prop where
  single : ∀ a a' id, w.uuid (.inl a) = some id → w.uuid (.inl a') = some id → a = a'
  canonical : ∀ n < count, canonicalUuid (w.server.ids n) = true
  distinct : ∀ m < count, ∀ n < count, w.server.ids m = w.server.ids n → m = n
  unused : ∀ n < count, ∀ a, w.uuid (.inl a) ≠ some (w.server.ids n)

/-- A record that is written by a client. -/
def WrittenBy (codec : Codec) (submission : α → Submission) (resolution : β → ApprovalResolution)
    (w : Observed (α ⊕ β)) (x : Write (α ⊕ β)) : Prop :=
  ∃ r, Written codec submission w x r ∧
    ∀ b, x.client = .inr b → Decided (resolution b) (w.clock (.inr b)) r

/-- What holds of the clients and the server in every interleaving. -/
structure Traced (codec : Codec) (submission : α → Submission)
    (resolution : β → ApprovalResolution)
    (φ : ∀ i, (clients codec submission resolution).Point i) (w : Observed (α ⊕ β))
    (count : Nat) : Prop where
  logged : Logged w
  written : ∀ x ∈ w.writes, WrittenBy codec submission resolution w x
  points : ∀ i, At codec submission resolution w i (φ i)
  identified : Identified w count

section
variable {φ : ∀ i, (clients codec submission resolution).Point i} {w w' : Observed (α ⊕ β)}

/-- What one step changes: the readings of one client before it has written, and writes. -/
structure Changes (i : α ⊕ β) (w w' : Observed (α ⊕ β)) : Prop where
  clock : ∀ j, j ≠ i → w'.clock j = w.clock j
  uuid : ∀ j, j ≠ i → w'.uuid j = w.uuid j
  named : ∀ a, i = .inl a → ∀ id, w.uuid i = some id → w'.uuid i = some id ∧ w'.clock i = w.clock i
  own : ∀ b, i = .inr b → ∀ x ∈ w.writes, x.client = i → w'.clock i = w.clock i
  writes : ∀ x ∈ w'.writes, x ∈ w.writes ∨ x.client = i

/-- The expiry of a request does not change. -/
theorem Changes.dated {i : α ⊕ β} (h : Changes i w w') {r : ApprovalRequest}
    (hd : Dated submission w r) : Dated submission w' r := by
  obtain ⟨a, m, hu, hm, hx⟩ := hd
  by_cases ha : .inl a = i
  · obtain ⟨hu', hc'⟩ := h.named a ha.symm r.requestId (ha ▸ hu)
    exact ⟨a, m, ha ▸ hu', (ha ▸ hc').trans hm, hx⟩
  · exact ⟨a, m, (h.uuid _ ha).trans hu, (h.clock _ ha).trans hm, hx⟩

/-- A record that was written is what it was. -/
theorem Changes.writtenBy {i : α ⊕ β} (h : Changes i w w') {x : Write (α ⊕ β)}
    (hm : x ∈ w.writes) (hx : WrittenBy codec submission resolution w x) :
    WrittenBy codec submission resolution w' x := by
  obtain ⟨r, hr, hb⟩ := hx
  refine ⟨r, ⟨hr.wellFormed, hr.text, hr.key, h.dated hr.dated⟩, fun b hxb ↦ ?_⟩
  by_cases hbi : .inr b = i
  · have hc := h.own b hbi.symm x hm (hxb.trans hbi)
    rw [← hbi] at hc
    rw [hc]
    exact hb b hxb
  · rw [h.clock _ hbi]
    exact hb b hxb

/-- The other clients stand where they stood. -/
theorem Changes.point {i j : α ⊕ β} (h : Changes i w w') (hj : j ≠ i)
    {ψ : (clients codec submission resolution).Point j}
    (hψ : At codec submission resolution w j ψ) : At codec submission resolution w' j ψ := by
  cases j with
  | inl a =>
    rw [At, h.clock _ hj, h.uuid _ hj]
    exact hψ
  | inr b =>
    have hnew (hold : ∀ x ∈ w.writes, x.client ≠ .inr b) : ∀ x ∈ w'.writes, x.client ≠ .inr b := by
      intro x hx
      rcases h.writes x hx with hm | hi
      · exact hold x hm
      · exact fun he ↦ hj (he.symm.trans hi)
    revert hψ
    show ResolvingAt _ _ _ _ _ _ → ResolvingAt _ _ _ _ _ _
    cases ψ with
    | start => exact hnew
    | checked r => exact fun ⟨hn, hw, hid, hd⟩ ↦ ⟨hnew hn, hw, hid, h.dated hd⟩
    | writing r json =>
      intro ⟨hn, hw, hj', hd, hv⟩
      refine ⟨hnew hn, hw, hj', h.dated hd, ?_⟩
      rw [h.clock _ hj]
      exact hv
    | _ => exact id

/-- Fewer identifiers are needed. -/
theorem Identified.mono {count count' : Nat} (h : Identified w count) (hn : count' ≤ count) :
    Identified w count' where
  single := h.single
  canonical n hlt := h.canonical n (Nat.lt_of_lt_of_le hlt hn)
  distinct m hm n hlt := h.distinct m (Nat.lt_of_lt_of_le hm hn) n (Nat.lt_of_lt_of_le hlt hn)
  unused n hlt := h.unused n (Nat.lt_of_lt_of_le hlt hn)

/-- What does not concern identifiers. -/
theorem Identified.congr {count : Nat} (h : Identified w count) (hu : w'.uuid = w.uuid)
    (hs : w'.server.ids = w.server.ids) : Identified w' count := by
  obtain ⟨hsingle, hcanonical, hdistinct, hunused⟩ := h
  refine ⟨?_, ?_, ?_, ?_⟩
  · rwa [hu]
  · rwa [hs]
  · rwa [hs]
  · rwa [hu, hs]

/-- A step that changes no reading and writes no request. -/
theorem Changes.quiet (i : α ⊕ β) (hc : w'.clock = w.clock) (hu : w'.uuid = w.uuid)
    (hw : w'.writes = w.writes) : Changes i w w' where
  clock _ _ := congrFun hc _
  uuid _ _ := congrFun hu _
  named _ _ _ h := ⟨(congrFun hu _).trans h, congrFun hc _⟩
  own _ _ _ _ _ := congrFun hc _
  writes _ hx := .inl (hw ▸ hx)

/-- A record is written. -/
theorem Changes.write (x : Write (α ⊕ β)) (server : Server) :
    Changes x.client w { w with server := server, writes := w.writes ++ [x] } where
  clock _ _ := rfl
  uuid _ _ := rfl
  named _ _ _ h := ⟨h, rfl⟩
  own _ _ _ _ _ := rfl
  writes y hy := by
    rcases List.mem_append.mp hy with hm | hm
    · exact .inl hm
    · exact .inr (congrArg Write.client (List.mem_singleton.mp hm))

/-- What is read of a key is a request with its expiry. -/
theorem Traced.exists_request {count : Nat} (hc : codec.Lawful)
    (h : Traced codec submission resolution φ w count) {id text : String} {r : ApprovalRequest}
    (hid : id ≠ pendingName) {expires : Option Nat}
    (hl : w.server.store.live w.server.now (key id) = some ⟨.text text, expires⟩)
    (hv : ApprovalRequest.validateJson? codec text = some r) :
    r.WellFormed ∧ r.requestId = id ∧ Dated submission w r := by
  have hs := Redis.eq_of_live hl
  rw [h.logged.store id hid] at hs
  obtain ⟨x, hx, he⟩ := Option.map_eq_some_iff.mp hs
  obtain ⟨hm, hk⟩ := mem_of_lastWrite hx
  obtain ⟨r', ⟨hw, ht, hkey, hd⟩, -⟩ := h.written x hm
  rw [Write.entry, Redis.Entry.mk.injEq, Redis.Data.text.injEq] at he
  rw [he.1] at ht
  cases hv.symm.trans (ApprovalRequest.validateJson?_dumpJson hc hw ht)
  exact ⟨hw, key_injective (hkey.symm.trans hk), hd⟩

/-- Time passes. -/
theorem Traced.tick {count : Nat} (h : Traced codec submission resolution φ w count) {now : Nat}
    (hd : now ≤ Python.datetimeMax) :
    Traced codec submission resolution φ
      { w with server := { w.server with now := now } } count := by
  obtain ⟨⟨-, hstore, hbefore⟩, hwritten, hpoints, ⟨hsingle, hcanonical, hdistinct, hunused⟩⟩ := h
  refine ⟨⟨hd, hstore, hbefore⟩, fun x hx ↦ ?_, hpoints, ⟨hsingle, hcanonical, hdistinct, hunused⟩⟩
  obtain ⟨r, ⟨hw, ht, hk, hdated⟩, hb⟩ := hwritten x hx
  exact ⟨r, ⟨hw, ht, hk, hdated⟩, hb⟩

variable [DecidableEq α] [DecidableEq β]

/-- The clock is read by a client without an identifier that has written nothing. -/
theorem Changes.read {i : α ⊕ β} (hu : ∀ a, i = .inl a → w.uuid i = none)
    (hw : ∀ b, i = .inr b → ∀ x ∈ w.writes, x.client ≠ .inr b) (now : Nat) :
    Changes i w { w with clock := Function.update w.clock i (some now) } where
  clock _ hj := Function.update_of_ne hj ..
  uuid _ _ := rfl
  named a ha _ h := by cases (hu a ha).symm.trans h
  own b hb x hx hi := absurd (hi.trans hb) (hw b hb x hx)
  writes _ hx := .inl hx

/-- A client gets its identifier. -/
theorem Changes.issue {i : α ⊕ β} (hu : w.uuid i = none) (id : String) (server : Server) :
    Changes i w { w with uuid := Function.update w.uuid i (some id), server := server } where
  clock _ _ := rfl
  uuid _ hj := Function.update_of_ne hj ..
  named _ _ _ h := by cases hu.symm.trans h
  own _ _ _ _ _ := rfl
  writes _ hx := .inl hx

/-- A step of one client. -/
theorem Traced.change {i : α ⊕ β} {count count' : Nat}
    (h : Traced codec submission resolution φ w count)
    (hc : Changes i w w') (hl : Logged w') (hi : Identified w' count')
    (hw : ∀ x ∈ w'.writes, x ∉ w.writes → WrittenBy codec submission resolution w' x)
    {φ' : (clients codec submission resolution).Point i}
    (hp : At codec submission resolution w' i φ') :
    Traced codec submission resolution (Function.update φ i φ') w' count' where
  logged := hl
  written x hx := by
    by_cases hm : x ∈ w.writes
    · exact hc.writtenBy hm (h.written x hm)
    · exact hw x hx hm
  points j := by
    by_cases hj : j = i
    · subst hj
      rw [Function.update_self]
      exact hp
    · rw [Function.update_of_ne hj]
      exact hc.point hj (h.points j)
  identified := hi

/-- An identifier is given out. -/
theorem Identified.issue {count : Nat} (h : Identified w (count + 1)) (i : α ⊕ β) :
    Identified { w with
      uuid := Function.update w.uuid i (some (w.server.ids 0))
      server := w.server.issued } count := by
  have hold (a : α) (id : String)
      (hu : Function.update w.uuid i (some (w.server.ids 0)) (.inl a) = some id) :
      (.inl a = i ∧ id = w.server.ids 0) ∨ (.inl a ≠ i ∧ w.uuid (.inl a) = some id) := by
    by_cases ha : .inl a = i
    · rw [ha, Function.update_self] at hu
      exact .inl ⟨ha, (Option.some.inj hu).symm⟩
    · rw [Function.update_of_ne ha] at hu
      exact .inr ⟨ha, hu⟩
  refine ⟨fun a a' id hu hu' ↦ ?_, fun n hn ↦ h.canonical (n + 1) (Nat.succ_lt_succ hn),
    fun m hm n hn he ↦ ?_, fun n hn a hu ↦ ?_⟩
  · rcases hold a id hu with ⟨ha, hid⟩ | ⟨ha, hu⟩
    · rcases hold a' id hu' with ⟨ha', -⟩ | ⟨-, hu'⟩
      · exact Sum.inl_injective (ha.trans ha'.symm)
      · exact absurd (hid ▸ hu') (h.unused 0 (Nat.succ_pos _) a')
    · rcases hold a' id hu' with ⟨-, hid⟩ | ⟨-, hu'⟩
      · exact absurd (hid ▸ hu) (h.unused 0 (Nat.succ_pos _) a)
      · exact h.single a a' id hu hu'
  · exact Nat.succ_injective (h.distinct _ (Nat.succ_lt_succ hm) _ (Nat.succ_lt_succ hn) he)
  · rcases hold a _ hu with ⟨-, hid⟩ | ⟨-, hu⟩
    · exact absurd (h.distinct _ (Nat.succ_lt_succ hn) 0 (Nat.succ_pos _) hid) (Nat.succ_ne_zero n)
    · exact h.unused (n + 1) (Nat.succ_lt_succ hn) a hu

/-- A command on the pending set or a failed or reading one. -/
theorem Traced.quiet {i : α ⊕ β} {count : Nat}
    (h : Traced codec submission resolution φ w (count + 1)) (server : Server)
    (hn : server.now = w.server.now) (hids : server.ids = w.server.ids)
    (hs : ∀ id, id ≠ pendingName → server.store (key id) = w.server.store (key id))
    (φ' : (clients codec submission resolution).Point i)
    (hp : At codec submission resolution { w with server := server } i φ') :
    Traced codec submission resolution (Function.update φ i φ') { w with server := server }
      count := by
  have hc : Changes i w { w with server := server } := .quiet i rfl rfl rfl
  have hi : Identified { w with server := server } (count + 1) := h.identified.congr rfl hids
  exact h.change hc (h.logged.quiet hn hs rfl) (hi.mono (Nat.le_succ _))
    (fun _ hx hm ↦ absurd hx hm) hp

/-- A record is written. -/
theorem Traced.write {i : α ⊕ β} {count : Nat}
    (h : Traced codec submission resolution φ w (count + 1)) {r : ApprovalRequest} {json : String}
    (hw : r.WellFormed) (hj : r.dumpJson codec = some json) (hd : Dated submission w r)
    (hv : ∀ b, i = .inr b → Decided (resolution b) (w.clock (.inr b)) r) (seconds : Int)
    (hs : 0 < seconds) (φ' : (clients codec submission resolution).Point i)
    (hp : ∀ w', At codec submission resolution w' i φ') :
    Traced codec submission resolution (Function.update φ i φ') { w with
      server := { w.server with
        store := (Redis.setex w.server.store w.server.now (key r.requestId) seconds json).2 }
      writes := w.writes ++ [⟨i, key r.requestId, seconds, json, w.server⟩] } count := by
  have hc := Changes.write (w := w) ⟨i, key r.requestId, seconds, json, w.server⟩
    { w.server with
      store := (Redis.setex w.server.store w.server.now (key r.requestId) seconds json).2 }
  refine h.change hc ?_ ((h.identified.congr ?_ ?_).mono (Nat.le_succ _)) ?_ (hp _)
  · exact h.logged.write i (ne_pendingName hw.requestId) hs json
  · rfl
  · rfl
  · intro x hx hm
    rcases List.mem_append.mp hx with hx | hx
    · exact absurd hx hm
    · cases List.mem_singleton.mp hx
      exact ⟨r, ⟨hw, hj, rfl, hc.dated hd⟩, hv⟩

/-- A step of `enqueue`. -/
theorem Traced.enqueuing (hcodec : codec.Lawful) {a : α} {count : Nat}
    (h : Traced codec submission resolution φ w (count + 1)) {e : QueueEvent} {φ' : Enqueuing}
    (hm : Enqueuing.Moves codec (submission a) (φ (.inl a)) e φ') {server : Server}
    (ha : w.server.answer e.1 = (e.2, server)) :
    Traced codec submission resolution (Function.update φ (.inl a) φ')
      { w.note (.inl a) e with server := server } count := by
  have hp := h.points (.inl a)
  generalize φ (.inl a) = φₐ at hm hp
  cases hm with
  | clock now =>
    cases ha
    have hu : w.uuid (.inl a) = none := hp
    have hc := Changes.read (fun _ _ ↦ hu) (fun _ hb ↦ by cases hb) w.server.now
    refine h.change hc ?_ ((h.identified.congr ?_ ?_).mono (Nat.le_succ _)) ?_ ?_
    · exact h.logged.quiet rfl (fun _ _ ↦ rfl) rfl
    · rfl
    · rfl
    · exact fun _ hx hm ↦ absurd hx hm
    · show _ ∧ _ ∧ _
      exact ⟨Function.update_self .., hu, h.logged.now⟩
  | @uuid m requestId json hx hj =>
    obtain ⟨hm, hu, hmax⟩ : w.clock (.inl a) = some m ∧ w.uuid (.inl a) = none ∧
      m ≤ Python.datetimeMax := hp
    cases ha
    have hc := Changes.issue hu (w.server.ids 0) w.server.issued
    refine h.change hc ?_ (h.identified.issue _) ?_ ?_
    · exact h.logged.quiet rfl (fun _ _ ↦ rfl) rfl
    · exact fun _ hx hm ↦ absurd hx hm
    · show ∃ m, _
      refine ⟨m, hm, Function.update_self .., rfl, ?_⟩
      exact (submission a).exists_storedAs hcodec (h.identified.canonical 0 (Nat.succ_pos _)) hmax
        hx.2 hj
  | @refused m requestId x hx =>
    obtain ⟨-, hu, -⟩ : w.clock (.inl a) = some m ∧ w.uuid (.inl a) = none ∧
      m ≤ Python.datetimeMax := hp
    cases ha
    have hc := Changes.issue hu (w.server.ids 0) w.server.issued
    refine h.change hc ?_ (h.identified.issue _) ?_ trivial
    · exact h.logged.quiet rfl (fun _ _ ↦ rfl) rfl
    · exact fun _ hx hm ↦ absurd hx hm
  | write r json =>
    obtain ⟨m, hm, hu, hr, r', hst⟩ : ∃ m, w.clock (.inl a) = some m ∧
      w.uuid (.inl a) = some r.requestId ∧ r = (submission a).request r.requestId m ∧
        ∃ r', StoredAs codec r r' json := hp
    obtain ⟨hreply, rfl⟩ := Prod.mk.inj ha
    have hs : 0 < (submission a).ttlSeconds := by
      by_contra hs
      rw [Redis.exec, Redis.setex, if_neg hs] at hreply
      cases hreply
    have hx : r'.expiresAt = m + (submission a).ttlSeconds.toNat * 1000000 := by
      rw [hst.expiresAt, hr]
      show ((m : Int) + (submission a).ttlSeconds * 1000000).toNat = _
      omega
    rw [← hst.requestId] at hu ⊢
    exact h.write (i := .inl a) hst.wellFormed hst.text ⟨a, m, hu, hm, hx⟩ (fun _ hb ↦ by cases hb)
      _ hs (.written r) fun _ ↦ trivial
  | writeFailed r json cls x =>
    obtain ⟨hreply, rfl⟩ := Prod.mk.inj ha
    have hs : ¬ 0 < (submission a).ttlSeconds := by
      intro hs
      rw [Redis.exec, Redis.setex, if_pos hs] at hreply
      cases hreply
    have hst : (Redis.setex w.server.store w.server.now (key r.requestId)
        (submission a).ttlSeconds json).2 = w.server.store := by rw [Redis.setex, if_neg hs]
    exact h.quiet (i := .inl a) { w.server with store := (Redis.setex w.server.store w.server.now
      (key r.requestId) (submission a).ttlSeconds json).2 } rfl rfl
      (fun id _ ↦ congrFun hst _) (.ended (.error x)) trivial
  | add r n =>
    obtain ⟨-, rfl⟩ := Prod.mk.inj ha
    exact h.quiet (i := .inl a) { w.server with
      store := (Redis.sadd w.server.store w.server.now pendingSet r.requestId).2 } rfl rfl
      (fun id hid ↦ Redis.sadd_of_ne (key_ne_pendingSet hid)) (.ended (.ok r)) trivial
  | addFailed r cls x =>
    obtain ⟨-, rfl⟩ := Prod.mk.inj ha
    exact h.quiet (i := .inl a) { w.server with
      store := (Redis.sadd w.server.store w.server.now pendingSet r.requestId).2 } rfl rfl
      (fun id hid ↦ Redis.sadd_of_ne (key_ne_pendingSet hid)) (.ended (.error x)) trivial

/-- A step of `resolve`. -/
theorem Traced.resolving {b : β} {count : Nat} (hc : codec.Lawful)
    (hid : (resolution b).requestId ≠ pendingName)
    (h : Traced codec submission resolution φ w (count + 1)) {e : QueueEvent} {φ' : Resolving}
    (hm : Resolving.Moves codec (resolution b) (φ (.inr b)) e φ')
    {server : Server} (ha : w.server.answer e.1 = (e.2, server)) :
    Traced codec submission resolution (Function.update φ (.inr b) φ')
      { w.note (.inr b) e with server := server } count := by
  have hp := h.points (.inr b)
  generalize φ (.inr b) = φᵦ at hm hp
  cases hm with
  | refused x hn =>
    obtain ⟨-, rfl⟩ := Prod.mk.inj ha
    exact h.quiet (i := .inr b) w.server rfl rfl (fun _ _ ↦ rfl) (.ended (.error x)) trivial
  | @read text r hacc =>
    obtain ⟨rfl, expires, hl⟩ := live_of_answer_get ha
    obtain ⟨hw, hrid, hd⟩ := h.exists_request hc hid hl hacc.decoded
    exact h.quiet (i := .inr b) w.server rfl rfl (fun _ _ ↦ rfl) (.checked r) ⟨hp, hw, hrid, hd⟩
  | @clock r now json hj =>
    obtain ⟨hnew, hw, hrid, hd⟩ : (∀ x ∈ w.writes, x.client ≠ .inr b) ∧ r.WellFormed ∧
      r.requestId = (resolution b).requestId ∧ Dated submission w r := hp
    cases ha
    have hch := Changes.read (w := w) (i := .inr b) nofun
      (fun _ hb ↦ Sum.inr_injective hb ▸ hnew) w.server.now
    refine h.change hch ?_ ((h.identified.congr ?_ ?_).mono (Nat.le_succ _)) ?_ ?_
    · exact h.logged.quiet rfl (fun _ _ ↦ rfl) rfl
    · rfl
    · rfl
    · exact fun _ hx hm ↦ absurd hx hm
    · show _ ∧ _ ∧ _ ∧ _ ∧ _
      have hself : Function.update w.clock (.inr b) (some w.server.now) (.inr b) =
        some w.server.now := Function.update_self ..
      refine ⟨hnew, hw.resolved _ h.logged.now, hj, hch.dated hd, hrid, ?_, hself.symm, ?_⟩
      · exact r.approved_resolved_iff _ _
      · show Function.update w.clock (.inr b) (some w.server.now) (.inr b) ≠ none
        rw [hself]
        exact Option.some_ne_none _
  | @unwritable r now x hj =>
    obtain ⟨hnew, -⟩ : (∀ x ∈ w.writes, x.client ≠ .inr b) ∧ r.WellFormed ∧
      r.requestId = (resolution b).requestId ∧ Dated submission w r := hp
    cases ha
    have hch := Changes.read (w := w) (i := .inr b) nofun
      (fun _ hb ↦ Sum.inr_injective hb ▸ hnew) w.server.now
    refine h.change hch ?_ ((h.identified.congr ?_ ?_).mono (Nat.le_succ _)) ?_ trivial
    · exact h.logged.quiet rfl (fun _ _ ↦ rfl) rfl
    · rfl
    · rfl
    · exact fun _ hx hm ↦ absurd hx hm
  | write r json =>
    obtain ⟨-, hw, hj, hd, hv⟩ : (∀ x ∈ w.writes, x.client ≠ .inr b) ∧ r.WellFormed ∧
      r.dumpJson codec = some json ∧ Dated submission w r ∧
      Decided (resolution b) (w.clock (.inr b)) r := hp
    obtain ⟨-, rfl⟩ := Prod.mk.inj ha
    have hwr := h.write (i := .inr b) hw hj hd (fun _ hb ↦ Sum.inr_injective hb ▸ hv) 3600
      (by decide) (.written r) fun _ ↦ trivial
    rw [hv.requestId] at hwr
    exact hwr
  | writeFailed r json cls x =>
    rw [answer_setex (by decide)] at ha
    cases ha
  | remove r n =>
    obtain ⟨-, rfl⟩ := Prod.mk.inj ha
    exact h.quiet (i := .inr b) { w.server with
      store := (Redis.srem w.server.store w.server.now pendingSet _).2 } rfl rfl
      (fun id hid ↦ Redis.srem_of_ne (key_ne_pendingSet hid)) (.ended (.ok r)) trivial
  | removeFailed r cls x =>
    obtain ⟨-, rfl⟩ := Prod.mk.inj ha
    exact h.quiet (i := .inr b) { w.server with
      store := (Redis.srem w.server.store w.server.now pendingSet _).2 } rfl rfl
      (fun id hid ↦ Redis.srem_of_ne (key_ne_pendingSet hid)) (.ended (.error x)) trivial

end

/-- Before the first call. -/
def Observed.start (server : Server) : Observed (α ⊕ β) := ⟨server, fun _ ↦ none, fun _ ↦ none, []⟩

/-! ### Every interleaving -/

section
variable [DecidableEq α] [DecidableEq β] {server : Server} {t : List ((α ⊕ β) × QueueEvent)}
  {p : α ⊕ β → QueueProg} {w : Observed (α ⊕ β)}

/-- The invariant of every interleaving. -/
theorem exists_traced (hc : codec.Lawful) (h₀ : server.Fresh t.length)
    (hid : ∀ b, canonicalUuid (resolution b).requestId = true)
    (h : Reach (observing (α ⊕ β)) (programs codec submission resolution) (.start server) t p w) :
    ∃ φ, Traced codec submission resolution φ w 0 := by
  have hinv := h.controlled (clients codec submission resolution)
    (I := fun φ t w ↦ ∀ count, server.Fresh (count + t.length) →
      Traced codec submission resolution φ w count) ?_ ?_ ?_ ?_
  · obtain ⟨φ, -, hφ⟩ := hinv
    exact ⟨φ, hφ 0 (by rwa [Nat.zero_add])⟩
  · rintro (a | b) <;> rfl
  · intro count hf
    refine ⟨⟨hf.now, fun id _ ↦ hf.store id, fun l₁ x l₂ hl ↦ ?_⟩, nofun, ?_,
      ⟨fun _ _ _ ↦ nofun, hf.canonical, hf.distinct, fun _ _ _ ↦ nofun⟩⟩
    · cases l₁ <;> cases hl
    · rintro (a | b)
      · exact rfl
      · exact nofun
  · rintro φ t w w' i e φ' hφ hm ⟨server', ha, rfl⟩ count hf
    have hφ := hφ (count + 1) (by
      rw [List.length_append, List.length_singleton] at hf
      rwa [Nat.add_right_comm])
    cases i with
    | inl a => exact hφ.enqueuing hc hm ha
    | inr b => exact hφ.resolving hc (ne_pendingName (hid b)) hm ha
  · rintro φ t w w' hφ ⟨now, -, hd, rfl⟩ count hf
    exact (hφ count hf).tick hd

private theorem live_ne_none_iff {ι : Type} {st : Redis.Store} {now : Nat} {k : String}
    {o : Option (Write ι)} (h : st k = o.map Write.entry) :
    st.live now k ≠ none ↔ ∃ y, o = some y ∧ now < y.expires := by
  cases o with
  | none =>
    refine iff_of_false (fun hl ↦ hl ?_) ?_
    · rw [Redis.Store.live, h]
      rfl
    · rintro ⟨y, hy, -⟩
      cases hy
  | some y =>
    constructor
    · intro hl
      by_contra hn
      exact hl (Redis.live_eq_none_of_expires h rfl (Nat.not_lt.mp fun hlt ↦ hn ⟨y, rfl, hlt⟩))
    · rintro ⟨y, ⟨⟩, hlt⟩
      have hlive := Redis.live_of_expires h fun x hx ↦ Option.some.inj hx ▸ hlt
      intro hnone
      cases hlive.symm.trans hnone

/-- In every interleaving of enqueuing and resolving clients no request is approved after its
date or written back after its expiry if and only if the calls are made in time. -/
theorem punctual_iff_timely (hc : codec.Lawful) (h₀ : server.Fresh t.length)
    (hid : ∀ b, canonicalUuid (resolution b).requestId = true)
    (h : Reach (observing (α ⊕ β)) (programs codec submission resolution) (.start server) t p w) :
    Punctual codec w ↔ Timely submission resolution w := by
  obtain ⟨φ, ht⟩ := exists_traced hc h₀ hid h
  constructor
  · intro hp
    refine ⟨fun b ⟨x, hx, hb⟩ ha a hu m n hm hn ↦ ?_, fun l₁ x l₂ hl b hb ↦ ?_⟩
    · obtain ⟨r, hr, hv⟩ := ht.written x hx
      have hv := hv b hb
      have hdec := ApprovalRequest.validateJson?_dumpJson hc hr.wellFormed hr.text
      have hle := hp.approved x hx b hb r hdec (hv.approved.mpr ha) n (hv.resolvedAt.trans hn)
      obtain ⟨a', m', hu', hm', hx'⟩ := hr.dated
      cases ht.identified.single a a' _ hu (hv.requestId ▸ hu')
      cases hm.symm.trans hm'
      rwa [hx'] at hle
    · have hx : x ∈ w.writes := by
        rw [hl]
        exact List.mem_append_right _ List.mem_cons_self
      exact (live_ne_none_iff (ht.logged.before l₁ x l₂ hl)).mp (hp.live x hx b hb)
  · intro hp
    refine ⟨fun x hx b hb r hdec hs n hn ↦ ?_, fun x hx b hb ↦ ?_⟩
    · obtain ⟨r', hr, hv⟩ := ht.written x hx
      have hv := hv b hb
      cases hdec.symm.trans (ApprovalRequest.validateJson?_dumpJson hc hr.wellFormed hr.text)
      obtain ⟨a, m, hu, hm, hx'⟩ := hr.dated
      rw [hx']
      exact hp.clock b ⟨x, hx, hb⟩ (hv.approved.mp hs) a (hv.requestId ▸ hu) m n hm
        (hv.resolvedAt.symm.trans hn)
    · obtain ⟨l₁, l₂, hl⟩ := List.append_of_mem hx
      exact (live_ne_none_iff (ht.logged.before l₁ x l₂ hl)).mpr (hp.write l₁ x l₂ hl b hb)

end
end

/-! ### The first request -/

/-- One client that enqueues the first request and one that approves it: the record is written
at `m₁`, read at `m₂` and written back at `m₃`. -/
theorem exists_approval (m₁ m₂ m₃ : Nat) (h₁ : emptyServer.now ≤ m₁) (h₂ : m₁ ≤ m₂) (h₃ : m₂ ≤ m₃)
    (hd : m₃ ≤ Python.datetimeMax) (hl : m₂ < m₁ + 14400 * 1000000) :
    ∃ t p w, t.length = 6 ∧
      Reach (observing (Unit ⊕ Unit))
        (programs isoCodec (fun _ ↦ submission) fun _ ↦ verdicts true) (.start emptyServer) t p w ∧
      ∃ x ∈ w.writes, x.client = .inr () ∧ x.key = key firstId ∧ x.on.now = m₃ ∧
        ApprovalRequest.validateJson? isoCodec x.text =
          some (firstRequest.resolved (verdicts true) m₂) ∧
        ∃ e, x.on.store (key firstId) = some ⟨e, some (m₁ + 14400 * 1000000)⟩ := by
  have hn : emptyServer.now ≤ Python.datetimeMax := by decide
  have hc := isoCodec_lawful
  obtain ⟨json, hw, hj⟩ := firstRequest_stored
  obtain ⟨json', hj'⟩ := ApprovalRequest.exists_dumpJson_resolved hc hj (verdicts true) m₂
  have hdec := ApprovalRequest.validateJson?_dumpJson hc hw hj
  have hacc : Resolving.Accepts isoCodec (verdicts true) json firstRequest :=
    ⟨ApprovalRequest.ne_empty_of_validateJson? hdec, hdec, rfl, by decide⟩
  -- the request is enqueued
  have r₀ : Reach (observing (Unit ⊕ Unit))
    (programs isoCodec (fun _ ↦ submission) fun _ ↦ verdicts true) (.start emptyServer) [] _
    (.start emptyServer) := .start
  obtain ⟨p₁, r₁, hi₁, ho₁⟩ := r₀.exists_call (i := .inl ())
    ((Enqueuing.Moves.clock _).call nofun) ⟨_, rfl, rfl⟩
  obtain ⟨p₂, r₂, hi₂, ho₂⟩ := r₁.exists_call (i := .inl ())
    (hi₁ ▸ (Enqueuing.Moves.uuid ⟨by decide, by decide⟩ hj).call nofun) ⟨_, rfl, rfl⟩
  have r₂ := r₂.background ⟨m₁, h₁, (h₂.trans h₃).trans hd, rfl⟩
  obtain ⟨p₃, r₃, hi₃, ho₃⟩ := r₂.exists_call (i := .inl ())
    (hi₂ ▸ (Enqueuing.Moves.write _ _).call nofun) ⟨_, answer_setex (by decide), rfl⟩
  have hlive : (Redis.setex emptyServer.store m₁ (key firstId) 14400 json).2 (key firstId) =
    some ⟨.text json, some (m₁ + 14400 * 1000000)⟩ := Redis.setex_self (by decide)
  -- it is read and approved
  have r₃ := r₃.background ⟨m₂, h₂, h₃.trans hd, rfl⟩
  have hi : p₃ (.inr ()) = Resolving.start.program isoCodec (verdicts true) :=
    (ho₃ _ Sum.inr_ne_inl).trans ((ho₂ _ Sum.inr_ne_inl).trans (ho₁ _ Sum.inr_ne_inl))
  have hget : Redis.Store.live _ m₂ (key firstId) = _ :=
    Redis.live_of_expires hlive fun x hx ↦ Option.some.inj hx ▸ hl
  obtain ⟨p₄, r₄, hi₄, -⟩ := r₃.exists_call (i := .inr ())
    (hi ▸ (Resolving.Moves.read hacc).call nofun) ⟨_, answer_get hget, rfl⟩
  obtain ⟨p₅, r₅, hi₅, -⟩ := r₄.exists_call (i := .inr ())
    (hi₄ ▸ (Resolving.Moves.clock m₂ hj').call nofun) ⟨_, rfl, rfl⟩
  have r₅ := r₅.background ⟨m₃, h₃, hd, rfl⟩
  obtain ⟨p₆, r₆, -, -⟩ := r₅.exists_call (i := .inr ())
    (hi₅ ▸ (Resolving.Moves.write _ json').call nofun) ⟨_, answer_setex (by decide), rfl⟩
  refine ⟨_, p₆, _, rfl, r₆, _, List.mem_append_right _ (List.mem_singleton_self _), rfl, rfl, rfl,
    ?_, _, hlive⟩
  exact ApprovalRequest.validateJson?_dumpJson hc (hw.resolved _ (h₃.trans hd)) hj'

/-- A request that is read in time is approved after its date and brought back after its record
has expired. -/
theorem late_approval : ∃ t p w,
    Reach (observing (Unit ⊕ Unit))
      (programs isoCodec (fun _ ↦ submission) fun _ ↦ verdicts true) (.start emptyServer) t p w ∧
      ¬ Punctual isoCodec w ∧
      ∃ x ∈ w.writes, x.client = .inr () ∧ x.on.store.live x.on.now x.key = none := by
  obtain ⟨t, p, w, -, h, x, hx, hb, hk, hn, hdec, e, hs⟩ := exists_approval
    (emptyServer.now + 1000000) (emptyServer.now + 14400500000)
    (emptyServer.now + 14402000000) (by omega) (by omega) (by omega) (by decide) (by omega)
  refine ⟨t, p, w, h, fun hp ↦ ?_, x, hx, hb, ?_⟩
  · have hle : emptyServer.now + 14400500000 ≤ firstRequest.expiresAt :=
      hp.approved x hx () hb _ hdec rfl _ rfl
    exact absurd hle (by decide)
  · rw [hn, hk]
    exact Redis.live_eq_none_of_expires hs rfl (by omega)

/-- An approval without delays is in time. -/
theorem prompt_approval : ∃ t p w,
    Reach (observing (Unit ⊕ Unit))
      (programs isoCodec (fun _ ↦ submission) fun _ ↦ verdicts true) (.start emptyServer) t p w ∧
      (Punctual isoCodec w ↔ Timely (fun _ ↦ submission) (fun _ ↦ verdicts true) w) := by
  obtain ⟨t, p, w, ht, h, -⟩ := exists_approval emptyServer.now emptyServer.now
    emptyServer.now (by omega) (by omega) (by omega) (by decide) (by omega)
  exact ⟨t, p, w, h, punctual_iff_timely isoCodec_lawful (emptyServer_fresh (ht ▸ by decide))
    (fun _ ↦ verdicts_canonical true) h⟩

end NhiSentinel.Approval
