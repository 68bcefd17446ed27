import QuantaSwap.Lib.Keyed
import QuantaSwap.Lib.Permits
import QuantaSwap.Lib.Run

/-!
# The streams of the book

`BoundedSseWriter` of `server/src/stream.ts`, and the counters that `server.ts` keeps of its
clients: `openStream`, `removeStream` and the pushes to every client.
-/

set_option autoImplicit false

namespace QuantaSwap.Serve

open Lib Lib.Permits

def MAX_STREAM_CLIENTS : ℕ := 200

def MAX_STREAM_CLIENTS_PER_IP : ℕ := 4

/-- What the response has for a write: it is `destroyed` or `writableEnded`, or its `write` answers
`true`, `false` or throws. -/
inductive Written where
  | gone
  | accepted
  | full
  | thrown
  deriving DecidableEq, Repr

/-- `timer` is armed or not, and `listening` is the listener of `drain`. -/
structure BoundedSseWriter where
  blocked : Bool := false
  closed : Bool := false
  timer : Bool := false
  listening : Bool := false
  deriving DecidableEq, Repr

/-- A response with its writer. `buffered` counts the chunks that the response was given and has not
drained, from the one it answered `false` to. -/
structure SseStream where
  ip : String
  writer : BoundedSseWriter := {}
  buffered : ℕ := 0
  deriving DecidableEq, Repr

namespace SseStream

variable (c : SseStream)

/-- `finish`. The callback `onClose` is for whoever closes a writer. -/
def finish : SseStream :=
  if c.writer.closed then c
  else { c with writer := { c.writer with closed := true, timer := false, listening := false } }

/-- The write reaches the response. -/
def deliver (answer : Written) : ℕ := if answer = .full ∨ c.buffered ≠ 0 then c.buffered + 1 else 0

def write (answer : Written) : SseStream :=
  if c.writer.closed ∨ answer = .gone then c.finish
  else if c.writer.blocked then c.finish
  else
    let c := { c with buffered := c.deliver answer }
    match answer with
    | .full => { c with writer := { c.writer with blocked := true, timer := true, listening := true } }
    | .thrown => c.finish
    | _ => c

/-- The response has drained. -/
def drain : SseStream :=
  let c := { c with buffered := 0 }
  if c.writer.listening then
    { c with writer := { c.writer with blocked := false, timer := false, listening := false } }
  else c

/-- The deadline of a blocked write. -/
def timeout : SseStream := if c.writer.timer then c.finish else c

/-- One write at most is under way, with a deadline. -/
structure Sound : Prop where
  buffered : c.buffered ≤ 1
  blocked : c.writer.closed = false → c.buffered = c.writer.blocked.toNat
  timer : c.writer.timer = (c.writer.blocked && !c.writer.closed)
  listening : c.writer.listening = (c.writer.blocked && !c.writer.closed)

/-- What a call of the writer does to the stream. -/
structure Behaves (f : SseStream → SseStream) : Prop where
  ip : ∀ c, (f c).ip = c.ip
  closed : ∀ c, c.writer.closed = true → (f c).writer.closed = true
  sound : ∀ c, c.Sound → (f c).Sound

theorem behaves_finish : Behaves finish where
  ip c := by unfold finish; split <;> rfl
  closed c h := by rw [finish, if_pos h]; exact h
  sound c h := by
    unfold finish
    split
    · exact h
    · exact ⟨h.buffered, fun hopen => (by cases hopen), (Bool.and_false _).symm,
        (Bool.and_false _).symm⟩

theorem behaves_timeout : Behaves timeout where
  ip c := by unfold timeout; split; exacts [behaves_finish.ip c, rfl]
  closed c h := by unfold timeout; split; exacts [behaves_finish.closed c h, h]
  sound c h := by unfold timeout; split; exacts [behaves_finish.sound c h, h]

theorem behaves_drain : Behaves drain where
  ip c := by unfold drain; dsimp only; split <;> rfl
  closed c h := by unfold drain; dsimp only; split <;> exact h
  sound c h := by
    unfold drain
    dsimp only
    split
    · exact ⟨Nat.zero_le _, fun _ => rfl, rfl, rfl⟩
    · rename_i hlistening
      have hlistens := h.listening
      rw [Bool.not_eq_true] at hlistening
      rw [hlistening] at hlistens
      refine ⟨Nat.zero_le _, fun hopen => ?_, h.timer, h.listening⟩
      dsimp only at hopen ⊢
      rw [hopen, Bool.not_false, Bool.and_true] at hlistens
      rw [← hlistens]
      rfl

theorem behaves_write (answer : Written) : Behaves (write · answer) where
  ip c := by
    unfold write
    dsimp only
    split
    · exact behaves_finish.ip c
    split
    · exact behaves_finish.ip c
    cases answer with
    | thrown => exact behaves_finish.ip _
    | gone => rfl
    | accepted => rfl
    | full => rfl
  closed c h := by
    unfold write
    dsimp only
    rw [if_pos (.inl h)]
    exact behaves_finish.closed c h
  sound c h := by
    unfold write
    dsimp only
    split
    · exact behaves_finish.sound c h
    rename_i hopen
    split
    · exact behaves_finish.sound c h
    rename_i hfree
    rw [not_or, Bool.not_eq_true] at hopen
    rw [Bool.not_eq_true] at hfree
    -- An open stream that is not blocked has drained everything.
    have hempty : c.buffered = 0 := by rw [h.blocked hopen.1, hfree]; rfl
    have htimer : c.writer.timer = false := by rw [h.timer, hfree]; rfl
    have hlistening : c.writer.listening = false := by rw [h.listening, hfree]; rfl
    cases answer with
    | gone => exact absurd rfl hopen.2
    | accepted =>
      have hzero : c.deliver .accepted = 0 := by simp [deliver, hempty]
      exact ⟨by simp [hzero], fun _ => by simp [hzero, hfree], by simp [htimer, hfree],
        by simp [hlistening, hfree]⟩
    | full =>
      have hone : c.deliver .full = 1 := by simp [deliver, hempty]
      exact ⟨by simp [hone], fun _ => by simp [hone], by simp [hopen.1], by simp [hopen.1]⟩
    | thrown =>
      have hzero : c.deliver .thrown = 0 := by simp [deliver, hempty]
      apply behaves_finish.sound
      exact ⟨by simp [hzero], fun _ => by simp [hzero, hfree], by simp [htimer, hfree],
        by simp [hlistening, hfree]⟩

/-- The place that the stream takes. -/
def permit : Permit String := ⟨c.ip, c.writer.closed⟩

end SseStream

/-- Every stream since the start, and the two maps of `server.ts`. -/
structure Streams where
  opened : List SseStream := []
  streamClients : List ℕ := []
  streamIpCounts : Keyed String ℕ := .empty

namespace Streams

variable (s : Streams)

def ledger : Ledger String := s.opened.map SseStream.permit

def removeStream (k : ℕ) (ip : String) : Streams :=
  if k ∈ s.streamClients then
    let count := (s.streamIpCounts.get ip).getD 1 - 1
    { s with
      streamClients := s.streamClients.erase k
      streamIpCounts :=
        if count = 0 then s.streamIpCounts.erase ip else s.streamIpCounts.set ip count }
  else s

/-- A call of the writer of a stream, with its `onClose`. -/
def act (k : ℕ) (f : SseStream → SseStream) : Streams :=
  match s.opened[k]? with
  | none => s
  | some c =>
    let after := { s with opened := s.opened.set k (f c) }
    if c.writer.closed = false ∧ (f c).writer.closed = true then
      after.removeStream k c.ip else after

/-- `first` is what becomes of the first write, `none` when the book of it throws. -/
def openStream (ip : String) (first : Option Written) : Streams :=
  let perIp := (s.streamIpCounts.get ip).getD 0
  if MAX_STREAM_CLIENTS ≤ s.streamClients.length ∨ MAX_STREAM_CLIENTS_PER_IP ≤ perIp then s
  else
    let k := s.opened.length
    let after : Streams :=
      { opened := s.opened ++ [{ ip }]
        streamClients := s.streamClients ++ [k]
        streamIpCounts := s.streamIpCounts.set ip (perIp + 1) }
    match first with
    | none => after
    | some answer => after.act k (·.write answer)

end Streams

inductive StreamEvent where
  | connect (ip : String) (first : Option Written)
  | push (answers : ℕ → Written)
  | drain (k : ℕ)
  | timeout (k : ℕ)
  | close (k : ℕ)

/-- A push goes to the clients there are when it begins. The end of a request and `end` of a writer
both finish it. -/
def Streams.step (s : Streams) : StreamEvent → Streams
  | .connect ip first => s.openStream ip first
  | .push answers => s.streamClients.foldl (fun s k => s.act k (·.write (answers k))) s
  | .drain k => s.act k SseStream.drain
  | .timeout k => s.act k SseStream.timeout
  | .close k => s.act k SseStream.finish

def everyIp (_ : String) : Bool := true

theorem counts_giveBack {m : Keyed String ℕ} {l : Ledger String} {k : ℕ} {ip : String}
    (hcounts : ∀ a, (m.get a).getD 0 = held (· = a) l) (hout : outstanding l k = some ip)
    (a : String) :
    ((if (m.get ip).getD 1 - 1 =
      0 then m.erase ip else m.set ip ((m.get ip).getD 1 - 1)).get a).getD 0 =
      held (· = a) (giveBack l k) := by
  have hgive : held (· = a) l = held (· = a) (giveBack l k) + if decide (ip = a) then 1 else 0 :=
    held_giveBack hout
  have hcount := hcounts a
  by_cases hsame : a = ip
  · subst hsame
    rw [decide_eq_true rfl, if_pos rfl] at hgive
    -- an address with a place has an entry
    cases hget : m.get a with
    | none =>
      rw [hget, Option.getD_none] at hcount
      omega
    | some count =>
      rw [hget, Option.getD_some] at hcount
      rw [Option.getD_some]
      split
      · rw [Keyed.get_erase, if_pos rfl, Option.getD_none]
        omega
      · rw [Keyed.get_set, if_pos rfl, Option.getD_some]
        omega
  · rw [decide_eq_false (Ne.symm hsame)] at hgive
    simp only [Bool.false_eq_true, if_false, Nat.add_zero] at hgive
    rw [← hgive, ← hcount]
    split
    · rw [Keyed.get_erase, if_neg hsame]
    · rw [Keyed.get_set, if_neg hsame]

section Ledger

variable {opened : List SseStream} {k : ℕ} {c c' : SseStream}

theorem permits_set_same (hc : opened[k]? = some c) (hpermit : c'.permit = c.permit) :
    (opened.set k c').map SseStream.permit = opened.map SseStream.permit := by
  obtain ⟨hk, rfl⟩ := List.getElem?_eq_some_iff.mp hc
  rw [List.map_set, hpermit, ← List.map_set, List.set_getElem_self]

theorem permits_set_closed (hc : opened[k]? = some c) (hip : c'.ip = c.ip)
    (hclosed : c'.writer.closed = true) :
    (opened.set k c').map SseStream.permit = giveBack (opened.map SseStream.permit) k := by
  unfold giveBack
  apply List.ext_getElem?
  intro j
  rw [List.getElem?_map, List.getElem?_modify, List.getElem?_map, List.getElem?_set]
  by_cases hj : k = j
  · subst hj
    rw [if_pos rfl, if_pos (List.getElem?_eq_some_iff.mp hc).1, hc]
    simp [SseStream.permit, hip, hclosed]
  · rw [if_neg hj]
    simp [hj]

end Ledger

/-- The books of the streams. -/
structure Streams.Kept (s : Streams) : Prop where
  clients : ∀ k, k ∈ s.streamClients ↔ ∃ c, s.opened[k]? = some c ∧ c.writer.closed = false
  distinct : s.streamClients.Nodup
  total : s.streamClients.length = held everyIp s.ledger
  room : s.streamClients.length ≤ MAX_STREAM_CLIENTS
  counts : ∀ ip, (s.streamIpCounts.get ip).getD 0 = held (· = ip) s.ledger
  perIp : ∀ ip, held (· = ip) s.ledger ≤ MAX_STREAM_CLIENTS_PER_IP
  sound : ∀ c ∈ s.opened, c.Sound

namespace Streams.Kept

variable {s : Streams}

theorem quiet (h : s.Kept) {k : ℕ} {c c' : SseStream} (hc : s.opened[k]? = some c)
    (hsound : c'.Sound)
    (hpermit : c'.permit = c.permit) : Streams.Kept { s with opened := s.opened.set k c' } := by
  have hledger : Streams.ledger { s with opened := s.opened.set k c' } = s.ledger :=
    permits_set_same hc hpermit
  have hclosed : c'.writer.closed = c.writer.closed := congrArg Permit.released hpermit
  refine ⟨fun j => ?_, h.distinct, ?_, h.room, fun ip => ?_, fun ip => ?_, fun d hd => ?_⟩
  · dsimp only
    rw [h.clients j, List.getElem?_set]
    by_cases hj : k = j
    · subst hj
      rw [if_pos rfl, if_pos (List.getElem?_eq_some_iff.mp hc).1, hc]
      simp [hclosed]
    · rw [if_neg hj]
  · rw [hledger]
    exact h.total
  · rw [hledger]
    exact h.counts ip
  · rw [hledger]
    exact h.perIp ip
  · rcases List.mem_or_eq_of_mem_set hd with hmem | rfl
    · exact h.sound d hmem
    · exact hsound

theorem closes (h : s.Kept) {k : ℕ} {c c' : SseStream} (hc : s.opened[k]? = some c)
    (hsound : c'.Sound)
    (hip : c'.ip = c.ip) (hopen : c.writer.closed = false) (hclosed : c'.writer.closed = true) :
    Streams.Kept (Streams.removeStream { s with opened := s.opened.set k c' } k c.ip) := by
  have hmem : k ∈ s.streamClients := (h.clients k).mpr ⟨c, hc, hopen⟩
  have hout : outstanding s.ledger k = some c.ip := by
    unfold outstanding Streams.ledger
    rw [List.getElem?_map, hc]
    simp [SseStream.permit, hopen]
  -- In the ledger of permits a closed stream has given its own back.
  have hledger : (s.opened.set k c').map SseStream.permit = giveBack s.ledger k :=
    permits_set_closed hc hip hclosed
  have hone : held everyIp s.ledger = held everyIp (giveBack s.ledger k) + 1 := held_giveBack hout
  have htotal := h.total
  have hlength := List.length_erase_of_mem hmem
  unfold Streams.removeStream
  dsimp only
  rw [if_pos hmem]
  refine ⟨fun j => ?_, h.distinct.erase k, ?_, ?_, fun ip => ?_, fun ip => ?_, fun d hd => ?_⟩
  · dsimp only
    rw [h.distinct.mem_erase_iff, h.clients j, List.getElem?_set]
    by_cases hj : k = j
    · subst hj
      rw [if_pos rfl, if_pos (List.getElem?_eq_some_iff.mp hc).1]
      simp [hclosed]
    · rw [if_neg hj]
      simp [Ne.symm hj]
  · unfold Streams.ledger
    dsimp only
    rw [hledger, hlength]
    omega
  · exact Nat.le_trans List.length_erase_le h.room
  · unfold Streams.ledger
    dsimp only
    rw [hledger]
    exact counts_giveBack h.counts hout ip
  · unfold Streams.ledger
    dsimp only
    rw [hledger]
    exact Nat.le_trans (held_giveBack_le hout) (h.perIp ip)
  · rcases List.mem_or_eq_of_mem_set hd with hmem | rfl
    · exact h.sound d hmem
    · exact hsound

theorem act (h : s.Kept) (k : ℕ) {f : SseStream → SseStream} (hf : SseStream.Behaves f) :
    (s.act k f).Kept := by
  unfold Streams.act
  cases hc : s.opened[k]? with
  | none => exact h
  | some c =>
    have hsound := hf.sound c (h.sound c (List.mem_of_getElem? hc))
    dsimp only
    split
    · rename_i hcloses
      exact h.closes hc hsound (hf.ip c) hcloses.1 hcloses.2
    · rename_i hstays
      refine h.quiet hc hsound ?_
      unfold SseStream.permit
      rw [hf.ip]
      congr 1
      cases hclosed : c.writer.closed with
      | true => exact hf.closed c hclosed
      | false =>
        rw [hclosed, not_and, Bool.not_eq_true] at hstays
        exact hstays rfl

theorem openStream (h : s.Kept) (ip : String) (first : Option Written) :
    (s.openStream ip first).Kept := by
  unfold Streams.openStream
  dsimp only
  split
  · exact h
  rename_i hroom
  rw [not_or, Nat.not_le, Nat.not_le] at hroom
  have hadded : Streams.Kept
      { opened := s.opened ++ [{ ip }]
        streamClients := s.streamClients ++ [s.opened.length]
        streamIpCounts := s.streamIpCounts.set ip ((s.streamIpCounts.get ip).getD 0 + 1) } := by
    have hnew : s.opened.length ∉ s.streamClients := by
      intro hmem
      obtain ⟨c, hc, -⟩ := (h.clients _).mp hmem
      simp at hc
    have hledger :
      (s.opened ++ [({ ip } : SseStream)]).map SseStream.permit = issue s.ledger ip := by
      rw [List.map_append]
      rfl
    refine ⟨fun j => ?_, ?_, ?_, ?_, fun other => ?_, fun other => ?_, fun d hd => ?_⟩
    · dsimp only
      rw [List.mem_append, List.mem_singleton, h.clients j]
      rcases Nat.lt_trichotomy j s.opened.length with hlt | rfl | hgt
      · rw [List.getElem?_append_left hlt]
        simp [Nat.ne_of_lt hlt]
      · simp
      · have hpast : (s.opened ++ [({ ip } : SseStream)])[j]? = none := by
          rw [List.getElem?_eq_none_iff, List.length_append]
          exact hgt
        rw [hpast, List.getElem?_eq_none (Nat.le_of_lt hgt)]
        simp [Nat.ne_of_gt hgt]
    · exact List.nodup_append.mpr ⟨h.distinct, List.nodup_singleton _, by
        intro a ha b hb
        rw [List.mem_singleton] at hb
        subst hb
        exact fun heq => hnew (heq ▸ ha)⟩
    · unfold Streams.ledger
      dsimp only
      rw [hledger, held_issue, List.length_append, h.total]
      rfl
    · dsimp only
      rw [List.length_append]
      exact hroom.1
    · unfold Streams.ledger
      dsimp only
      rw [hledger, held_issue, Keyed.get_set]
      by_cases hother : other = ip
      · subst hother
        simp [h.counts]
      · rw [if_neg hother, h.counts, decide_eq_false (Ne.symm hother)]
        rfl
    · unfold Streams.ledger
      dsimp only
      rw [hledger, held_issue]
      have hbound := h.perIp other
      split
      · rename_i heq
        obtain rfl := of_decide_eq_true heq
        have := h.counts ip
        omega
      · exact hbound
    · rcases List.mem_append.mp hd with hmem | hmem
      · exact h.sound d hmem
      · rw [List.mem_singleton] at hmem
        subst hmem
        exact ⟨Nat.zero_le _, fun _ => rfl, rfl, rfl⟩
  cases first with
  | none => exact hadded
  | some answer => exact hadded.act _ (SseStream.behaves_write answer)

theorem push (h : s.Kept) (answers : ℕ → Written) (ks : List ℕ) :
    (ks.foldl (fun s k => s.act k (·.write (answers k))) s).Kept := by
  induction ks generalizing s with
  | nil => exact h
  | cons k ks ih => exact ih (h.act k (SseStream.behaves_write (answers k)))

theorem step (h : s.Kept) (event : StreamEvent) : (s.step event).Kept := by
  cases event with
  | connect ip first => exact h.openStream ip first
  | push answers => exact h.push answers s.streamClients
  | drain k => exact h.act k SseStream.behaves_drain
  | timeout k => exact h.act k SseStream.behaves_timeout
  | close k => exact h.act k SseStream.behaves_finish

theorem start : Streams.Kept {} :=
  ⟨fun k => by simp, List.nodup_nil, rfl, Nat.zero_le _, fun _ => rfl, fun _ => Nat.zero_le _,
    fun _ hc => by cases hc⟩

end Streams.Kept

/-- Whatever clients and sockets do: the counters are those of the open streams and within their
limits, and no stream has more than one write under way, which has a deadline. -/
theorem run_streams (events : List StreamEvent) : (Lib.Run.run Streams.step {} events).Kept :=
  Lib.Run.invariant (fun _ event h => h.step event) Streams.Kept.start events

end QuantaSwap.Serve
