import QuantaSwap.Maker.Writes
import QuantaSwap.Taker.Load

/-!
# The taker's state file

`TakerStateFile` of `marketmaker/src/taker-state.ts`: the open takes in the order of their arrival
and the settled ones, oldest first. Every operation puts back what it changed when it fails.
-/

set_option autoImplicit false

namespace QuantaSwap.Taker

open Lib Lib.Checks Lib.Replace Lib.Run

namespace Persisted

variable {D B : Type} [DecidableEq B] [Zero B]

/-! ## The operations -/

inductive TakerCall (D B : Type)
  | all
  | history
  | get (orderId : String)
  | settle (orderId : String) (entry : TakerHistoryEntry B) (keepRecord : Bool)
  | upsert (record : TakerSwapRecord D B)
  | delete (orderId : String)

inductive TakerAnswer (D B : Type)
  | done
  | records (records : List (TakerSwapRecord D B))
  | entries (entries : List (TakerHistoryEntry B))
  | record (record : Option (TakerSwapRecord D B))

variable (o : TakerFileOptions D B)

def TakerCall.act (f : TakerStateFile D B) :
    TakerCall D B → Call (TakerStateEnvelope D B) (TakerStateFile D B) (TakerAnswer D B)
  | all => .skip (.records (f.swaps.entries.map Prod.snd))
  | history => .skip (.entries f.settled)
  | get orderId => .skip (.record (f.swaps.get orderId))
  | settle orderId entry keepRecord =>
    let next : TakerStateFile D B :=
      ⟨if keepRecord then f.swaps else f.swaps.erase orderId,
        TakerStateFile.recent (f.settled ++ [entry])⟩
    .write next next.envelope f .done
  | upsert record =>
    if !o.sameDeployment record.deployment o.deployment then .refuse
    else if record.intents.length > MAX_RETAINED_INTENTS then .refuse
    else if !o.assertIdentity record then .refuse
    else
      let next := { f with swaps := f.swaps.set record.orderId record }
      let undone := { f with
        swaps := match f.swaps.get record.orderId with
          | none => next.swaps.erase record.orderId
          | some previous => next.swaps.set record.orderId previous }
      .write next next.envelope undone (.record (some record))
  | delete orderId =>
    match f.swaps.get orderId with
    | none => .skip .done
    | some previous =>
      let next := { f with swaps := f.swaps.erase orderId }
      .write next next.envelope { f with swaps := next.swaps.set orderId previous } .done

/-- The call has something to write. -/
def TakerCall.writes (f : TakerStateFile D B) : TakerCall D B → Bool
  | settle .. => true
  | upsert record =>
    o.sameDeployment record.deployment o.deployment &&
      decide (record.intents.length ≤ MAX_RETAINED_INTENTS) && o.assertIdentity record
  | delete orderId => (f.swaps.get orderId).isSome
  | _ => false

/-- The same takes and the same history. -/
def TakerStateFile.Same (c f : TakerStateFile D B) : Prop :=
  (∀ orderId, c.swaps.get orderId = f.swaps.get orderId) ∧ c.settled = f.settled

/-- A restart reads the rows of the file; no file is a first boot. -/
def takerFormat : Format (TakerStateEnvelope D B) (TakerStateFile D B) :=
  ⟨fun rows => (rows.parse o).toOption, .fresh⟩

structure TakerInput (D B : Type) where
  call : TakerCall D B
  fault : Fault

abbrev TakerFile (D B : Type) := Store (TakerStateEnvelope D B) (TakerStateFile D B)

namespace TakerFile

variable (s : TakerFile D B) (i : TakerInput D B)

def call (f : TakerStateFile D B) :
    Call (TakerStateEnvelope D B) (TakerStateFile D B) (TakerAnswer D B) :=
  i.call.act o f

def step : TakerFile D B := (Store.perform s (call o i) i.fault).store

def AtomicAt : Prop :=
  Store.Atomic TakerStateFile.Same (takerFormat o) s (call o i) i.fault

/-- The call comes to the rename of its file. -/
def renames : Bool := !s.poisoned && !i.fault.early && i.call.writes o s.memory

end TakerFile

/-- A process that starts on a file or on none; what it cannot read it does not start on. -/
def startTaker (file : Option (TakerStateEnvelope D B)) : Except String (TakerFile D B) :=
  match file with
  | none => .ok ⟨.fresh, ⟨none, none, []⟩, false⟩
  | some rows => do
    let f ← rows.parse o
    return ⟨f, ⟨some ⟨.whole rows, true⟩, none, []⟩, false⟩

/-- The constructor reads what the call writes: the record of a take, and a history entry, which it
drops when it cannot read it. -/
def TakerCall.Readable (f : TakerStateFile D B) (fault : Fault) : TakerCall D B → Prop
  | upsert record => SwapRead o record
  | settle orderId entry keepRecord =>
    parseHistoryEntry entry = true ∨
      (fault.fails .syncDirectory = true ∧ f.settled.length < MAX_HISTORY_ENTRIES ∧
        (keepRecord = true ∨ f.swaps.get orderId = none))
  | _ => True

/-- The condition on a call and the state before it. -/
def TakerFile.Meets (s : TakerFile D B) (i : TakerInput D B) : Prop :=
  s.renames o i = true → i.call.Readable o s.memory i.fault

variable {o}

/-! ## Memory beside the file -/

namespace TakerStateFile

variable {f g : TakerStateFile D B}

/-- Everything in memory would be read from a file. -/
structure Sound (o : TakerFileOptions D B) (f : TakerStateFile D B) : Prop where
  swaps : ∀ orderId record, f.swaps.get orderId = some record →
    record.orderId = orderId ∧ SwapRead o record
  settled : ∀ entry ∈ f.settled, parseHistoryEntry entry = true
  recent : f.settled.length ≤ MAX_HISTORY_ENTRIES

theorem fresh_sound : (fresh : TakerStateFile D B).Sound o :=
  ⟨fun _ _ h => (by cases h), fun _ h => absurd h List.not_mem_nil, Nat.zero_le _⟩

omit [DecidableEq B] [Zero B] in
theorem Same.trans {c : TakerStateFile D B} (h : c.Same f) (h' : f.Same g) : c.Same g :=
  ⟨fun orderId => (h.1 orderId).trans (h'.1 orderId), h.2.trans h'.2⟩

theorem Sound.congr (h : f.Sound o) (hsame : f.Same g) : g.Sound o := by
  refine ⟨?_, hsame.2 ▸ h.settled, hsame.2 ▸ h.recent⟩
  intro orderId record hget
  exact h.swaps orderId record ((hsame.1 orderId).trans hget)

omit [DecidableEq B] [Zero B] in
theorem recent_of_le {E : Type} {entries : List E} (h : entries.length ≤ MAX_HISTORY_ENTRIES) :
    TakerStateFile.recent entries = entries := by
  unfold TakerStateFile.recent
  rw [Nat.sub_eq_zero_of_le h, List.drop_zero]

omit [DecidableEq B] [Zero B] in
theorem length_recent {E : Type} (entries : List E) :
    (TakerStateFile.recent entries).length ≤ MAX_HISTORY_ENTRIES := by
  unfold TakerStateFile.recent
  rw [List.length_drop]
  omega

omit [DecidableEq B] [Zero B] in
theorem mem_recent {E : Type} {entries : List E} {entry : E}
    (h : entry ∈ TakerStateFile.recent entries) : entry ∈ entries :=
  List.mem_of_mem_drop h

omit [Zero B] [DecidableEq B] in
theorem recent_append (entries : List (TakerHistoryEntry B)) (entry : TakerHistoryEntry B) :
    TakerStateFile.recent (entries ++ [entry]) =
      entries.drop (entries.length + 1 - MAX_HISTORY_ENTRIES) ++ [entry] := by
  unfold TakerStateFile.recent
  rw [List.length_append, List.length_singleton, List.drop_append_of_le_length]
  unfold MAX_HISTORY_ENTRIES
  omega

theorem parse_envelope_swaps {rows : TakerStateEnvelope D B}
    (h : ∀ record ∈ rows.swaps, SwapRead o record) :
    rows.parse o =
      .ok ⟨rows.swaps.foldl (fun swaps record => swaps.set record.orderId record) .empty,
      TakerStateFile.recent (rows.history.filter parseHistoryEntry)⟩ := by
  unfold TakerStateEnvelope.parse
  simp only [bind_eq_ok, forM_eq_ok]
  refine ⟨⟨⟩, ?_, rfl⟩
  rintro ⟨record, index⟩ hmem
  exact (parseSwap_index index).mpr (h record (List.fst_mem_of_mem_zipIdx hmem))

theorem swapRead_of_parse {rows : TakerStateEnvelope D B} {c : TakerStateFile D B}
    (h : rows.parse o = .ok c) : ∀ record ∈ rows.swaps, SwapRead o record := by
  unfold TakerStateEnvelope.parse at h
  simp only [bind_eq_ok, forM_eq_ok] at h
  obtain ⟨_, hread, -⟩ := h
  intro record hmem
  obtain ⟨index, hindex, hget⟩ := List.mem_iff_getElem.mp hmem
  have hpair : (record, index) ∈ rows.swaps.zipIdx := by
    rw [List.mk_mem_zipIdx_iff_getElem?, ← hget]
    exact List.getElem?_eq_getElem hindex
  exact (parseSwap_index index).mp (hread _ hpair)

theorem parse_envelope (h : ∀ orderId record, f.swaps.get orderId = some record →
    record.orderId = orderId ∧ SwapRead o record) : f.envelope.parse o =
      .ok ⟨f.swaps, TakerStateFile.recent (f.settled.filter parseHistoryEntry)⟩ := by
  have hrows : ∀ record ∈ f.envelope.swaps, SwapRead o record := by
    intro record hmem
    obtain ⟨⟨orderId, _⟩, he, rfl⟩ := List.mem_map.mp hmem
    exact (h orderId _ (Keyed.mem_entries.mp he)).2
  have hkeys : ∀ e ∈ f.swaps.entries, e.2.orderId = e.1 := by
    rintro ⟨orderId, record⟩ he
    exact (h orderId record (Keyed.mem_entries.mp he)).1
  rw [parse_envelope_swaps hrows]
  unfold envelope
  dsimp only
  rw [Keyed.foldl_set_values hkeys]

theorem Sound.parse (h : f.Sound o) : f.envelope.parse o = .ok f := by
  rw [parse_envelope h.swaps, List.filter_eq_self.mpr h.settled, recent_of_le h.recent]

theorem sound_of_parse {rows : TakerStateEnvelope D B} (h : rows.parse o = .ok f) : f.Sound o := by
  have hread := swapRead_of_parse h
  rw [parse_envelope_swaps hread] at h
  cases h
  refine ⟨?_, ?_, length_recent _⟩
  · -- the rows are set one after the other
    suffices hsuffices :
      ∀ (rows : List (TakerSwapRecord D B)) (m : Keyed String (TakerSwapRecord D B)),
        (∀ record ∈ rows, SwapRead o record) →
        (∀ orderId record, m.get orderId = some record → record.orderId = orderId ∧
          SwapRead o record) →
        ∀ orderId record, (rows.foldl (fun m record => m.set record.orderId record) m).get orderId =
          some record → record.orderId = orderId ∧ SwapRead o record by
      exact hsuffices rows.swaps .empty hread (fun _ _ h => (by cases h))
    intro rows
    induction rows with
    | nil => exact fun _ _ hm => hm
    | cons row rows ih =>
      intro m hrows hm
      refine ih _ (fun record hmem => hrows record (List.mem_cons_of_mem _ hmem)) ?_
      intro orderId record hget
      rw [Keyed.get_set] at hget
      split at hget
      · rename_i heq
        cases hget
        exact ⟨heq.symm, hrows _ List.mem_cons_self⟩
      · exact hm orderId record hget
  · intro entry hmem
    exact (List.mem_filter.mp (mem_recent hmem)).2

end TakerStateFile

/-! ## What an operation does -/

namespace TakerCall

variable {f next undone : TakerStateFile D B} {saved : TakerStateEnvelope D B}
  {call : TakerCall D B}
  {answer : TakerAnswer D B} {fault : Fault}

omit [DecidableEq B] [Zero B] in
theorem writes_act : (call.act o f).writes = call.writes o f := by
  cases call with
  | upsert record =>
    simp only [act, writes]
    cases o.sameDeployment record.deployment o.deployment with
    | false => rfl
    | true =>
      simp only [Bool.not_true, Bool.false_eq_true, if_false]
      by_cases hintents : record.intents.length ≤ MAX_RETAINED_INTENTS
      · rw [if_neg (Nat.not_lt.mpr hintents), decide_eq_true hintents]
        cases o.assertIdentity record <;> rfl
      · rw [if_pos (Nat.not_le.mp hintents), decide_eq_false hintents]
        rfl
  | delete orderId =>
    simp only [act, writes]
    cases f.swaps.get orderId <;> rfl
  | _ => rfl

omit [DecidableEq B] [Zero B] in
theorem act_saved (h : call.act o f = .write next saved undone answer) : saved = next.envelope := by
  cases call with
  | all => cases h
  | history => cases h
  | get orderId => cases h
  | settle orderId entry keepRecord =>
    cases h
    rfl
  | upsert record =>
    simp only [act] at h
    split at h
    · cases h
    · split at h
      · cases h
      · split at h <;> cases h
        rfl
  | delete orderId =>
    simp only [act] at h
    split at h <;> cases h
    rfl

omit [DecidableEq B] [Zero B] in
theorem act_undone (h : call.act o f = .write next saved undone answer) :
    f.Same undone ∧ ∀ answer, call.act o undone ≠ .skip answer := by
  cases call with
  | all => cases h
  | history => cases h
  | get orderId => cases h
  | settle orderId entry keepRecord =>
    cases h
    exact ⟨⟨fun _ => rfl, rfl⟩, fun _ h => by cases h⟩
  | upsert record =>
    simp only [act] at h
    split at h
    · cases h
    · rename_i hdeployment
      split at h
      · cases h
      · rename_i hintents
        split at h
        · cases h
        · rename_i hidentity
          cases h
          refine ⟨⟨?_, rfl⟩, ?_⟩
          · intro orderId
            cases hprevious : f.swaps.get record.orderId with
            | none =>
              -- What was put is taken out again.
              rw [Keyed.get_erase, Keyed.get_set]
              split
              · rename_i heq
                rw [heq, hprevious]
              · rfl
            | some previous =>
              rw [Keyed.get_set, Keyed.get_set]
              split
              · rename_i heq
                rw [heq, hprevious]
              · rfl
          · intro answer
            simp only [act]
            rw [if_neg hdeployment, if_neg hintents, if_neg hidentity]
            intro h
            cases h
  | delete orderId =>
    simp only [act] at h
    split at h
    · cases h
    · rename_i previous hprevious
      cases h
      refine ⟨⟨?_, rfl⟩, ?_⟩
      · intro orderId'
        dsimp only
        -- What was taken out is put back.
        rw [Keyed.get_set, Keyed.get_erase]
        split
        · rename_i heq
          rw [heq, hprevious]
        · rfl
      · intro answer
        simp only [act, Keyed.get_set, if_true]
        intro h
        cases h

theorem act_sound (h : call.act o f = .write next saved undone answer) (hs : f.Sound o)
    (hr : call.Readable o f fault) : next.Sound o ∨ ∃ orderId entry keepRecord,
      call = .settle orderId entry keepRecord ∧ parseHistoryEntry entry = false ∧
        fault.fails .syncDirectory = true ∧ f.settled.length < MAX_HISTORY_ENTRIES ∧
          (keepRecord = true ∨ f.swaps.get orderId = none) := by
  have herase : ∀ orderId orderId' record, (f.swaps.erase orderId).get orderId' = some record →
      record.orderId = orderId' ∧ SwapRead o record := by
    intro orderId orderId' record hget
    rw [Keyed.get_erase] at hget
    split at hget
    · cases hget
    · exact hs.swaps orderId' record hget
  cases call with
  | all => cases h
  | history => cases h
  | get orderId => cases h
  | settle orderId entry keepRecord =>
    cases h
    cases hentry : parseHistoryEntry entry with
    | true =>
      refine Or.inl ⟨?_, ?_, TakerStateFile.length_recent _⟩
      · intro orderId' record hget
        dsimp only at hget
        split at hget
        · exact hs.swaps orderId' record hget
        · exact herase orderId orderId' record hget
      · intro entry' hmem
        rcases List.mem_append.mp (TakerStateFile.mem_recent hmem) with hmem | hmem
        · exact hs.settled entry' hmem
        · rw [List.mem_singleton.mp hmem]
          exact hentry
    | false =>
      -- A malformed entry is only written where the directory sync fails behind it.
      obtain ⟨hsync, hlength, hkept⟩ := hr.resolve_left fun h => by rw [hentry] at h; cases h
      exact Or.inr ⟨orderId, entry, keepRecord, rfl, hentry, hsync, hlength, hkept⟩
  | upsert record =>
    simp only [act] at h
    split at h
    · cases h
    · split at h
      · cases h
      · split at h <;> cases h
        refine Or.inl ⟨?_, hs.settled, hs.recent⟩
        intro orderId record' hget
        dsimp only at hget
        rw [Keyed.get_set] at hget
        split at hget
        · rename_i heq
          cases hget
          exact ⟨heq.symm, hr⟩
        · exact hs.swaps orderId record' hget
  | delete orderId =>
    simp only [act] at h
    split at h <;> cases h
    exact Or.inl ⟨herase orderId, hs.settled, hs.recent⟩

theorem act_readsBack {s : TakerFile D B} {i : TakerInput D B}
    (h : i.call.act o s.memory = .write next saved undone answer) (hs : s.memory.Sound o)
    (hr : i.call.Readable o s.memory i.fault) :
    Store.ReadsBack TakerStateFile.Same (takerFormat o) s i.fault next saved := by
  rw [act_saved h]
  rcases act_sound h hs hr with hsound | ⟨orderId, entry, keepRecord, hcall, hentry, hsync,
    hlength, hkept⟩
  · refine ⟨next, ?_, Or.inl ⟨fun _ => rfl, rfl⟩⟩
    show (next.envelope.parse o).toOption = some next
    rw [hsound.parse]
    rfl
  · -- the entry is dropped, and nothing else was changed
    rw [hcall] at h
    cases h
    have hswaps : ∀ orderId', (if keepRecord = true then s.memory.swaps else
        s.memory.swaps.erase orderId).get orderId' = s.memory.swaps.get orderId' := by
      intro orderId'
      split
      · rfl
      · rename_i hkeep
        rw [Keyed.get_erase]
        split
        · rename_i heq
          rw [heq, hkept.resolve_left hkeep]
        · rfl
    have hsettled :
      TakerStateFile.recent (s.memory.settled ++ [entry]) = s.memory.settled ++ [entry] :=
      TakerStateFile.recent_of_le (by rw [List.length_append]; exact hlength)
    have hdropped : TakerStateFile.recent ((s.memory.settled ++ [entry]).filter parseHistoryEntry) =
        s.memory.settled := by
      rw [List.filter_append, List.filter_cons_of_neg (by rw [hentry]; exact Bool.false_ne_true),
        List.filter_nil, List.append_nil, List.filter_eq_self.mpr hs.settled,
        TakerStateFile.recent_of_le hs.recent]
    refine ⟨⟨if keepRecord = true then s.memory.swaps else s.memory.swaps.erase orderId,
      s.memory.settled⟩, ?_, Or.inr ⟨hsync, hswaps, rfl⟩⟩
    show ((TakerStateFile.envelope _).parse o).toOption = _
    rw [TakerStateFile.parse_envelope, hsettled, hdropped]
    · rfl
    · intro orderId' record hget
      exact hs.swaps orderId' record ((hswaps orderId').symm.trans hget)

omit [DecidableEq B] [Zero B] in
/-- A full history loses an entry to the new one, and a restart does not have it back. -/
theorem settled_short {settled : List (TakerHistoryEntry B)} {entry : TakerHistoryEntry B}
    (hentry : parseHistoryEntry entry = false)
    (h : TakerStateFile.recent
      ((TakerStateFile.recent (settled ++ [entry])).filter parseHistoryEntry) = settled) :
    settled.length < MAX_HISTORY_ENTRIES := by
  rw [TakerStateFile.recent_append, List.filter_append,
    List.filter_cons_of_neg (by rw [hentry]; exact Bool.false_ne_true), List.filter_nil,
    List.append_nil] at h
  have hlength := congrArg List.length h
  unfold TakerStateFile.recent at hlength
  rw [List.length_drop] at hlength
  have hfilter := List.length_filter_le parseHistoryEntry
    (settled.drop (settled.length + 1 - MAX_HISTORY_ENTRIES))
  rw [List.length_drop] at hfilter
  have hfull : 0 < MAX_HISTORY_ENTRIES := by decide
  omega

theorem readable_settle {f c : TakerStateFile D B} {orderId : String} {entry : TakerHistoryEntry B}
    {keepRecord : Bool} (hs : f.Sound o)
    (hparse : (TakerStateFile.envelope
      ⟨if keepRecord = true then f.swaps else f.swaps.erase orderId,
        TakerStateFile.recent (f.settled ++ [entry])⟩).parse o = .ok c)
    (hlike : c.Same ⟨if keepRecord = true then f.swaps else f.swaps.erase orderId,
        TakerStateFile.recent (f.settled ++ [entry])⟩ ∨
      (fault.fails .syncDirectory = true ∧ c.Same f)) :
    (TakerCall.settle orderId entry keepRecord : TakerCall D B).Readable o f fault := by
  cases hentry : parseHistoryEntry entry with
  | true => exact Or.inl hentry
  | false =>
    have hsound := TakerStateFile.sound_of_parse hparse
    rcases hlike with hlike | ⟨hsync, hlike⟩
    · have hmem : entry ∈ c.settled := by
        rw [hlike.2, TakerStateFile.recent_append]
        exact List.mem_append_right _ (List.mem_singleton.mpr rfl)
      rw [hsound.settled entry hmem] at hentry
      cases hentry
    · -- a restart finds the entry gone, so nothing else may be
      have hnext : ∀ orderId' record, (if keepRecord = true then f.swaps else
          f.swaps.erase orderId).get orderId' = some record →
            record.orderId = orderId' ∧ SwapRead o record := by
        intro orderId' record hget
        refine ⟨?_, TakerStateFile.swapRead_of_parse hparse record ?_⟩
        · split at hget
          · exact (hs.swaps orderId' record hget).1
          · rw [Keyed.get_erase] at hget
            split at hget
            · cases hget
            · exact (hs.swaps orderId' record hget).1
        · exact List.mem_map.mpr ⟨(orderId', record), Keyed.mem_entries.mpr hget, rfl⟩
      rw [TakerStateFile.parse_envelope hnext] at hparse
      cases hparse
      obtain ⟨hswaps, hsettled⟩ := hlike
      refine Or.inr ⟨hsync, settled_short hentry hsettled, ?_⟩
      cases keepRecord with
      | true => exact Or.inl rfl
      | false =>
        right
        have hgone := hswaps orderId
        dsimp only at hgone
        rw [if_neg Bool.false_ne_true, Keyed.get_erase, if_pos rfl] at hgone
        exact hgone.symm

theorem readable_of_readsBack {s : TakerFile D B} {i : TakerInput D B}
    (h : i.call.act o s.memory = .write next saved undone answer) (hs : s.memory.Sound o)
    (hback : Store.ReadsBack TakerStateFile.Same (takerFormat o) s i.fault next saved) :
    i.call.Readable o s.memory i.fault := by
  rw [act_saved h] at hback
  obtain ⟨c, hread, hlike⟩ := hback
  have hparse : next.envelope.parse o = .ok c := by
    change (next.envelope.parse o).toOption = some c at hread
    cases hparse : next.envelope.parse o with
    | error e =>
      rw [hparse] at hread
      cases hread
    | ok c' =>
      rw [hparse] at hread
      cases hread
      rfl
  cases hcall : i.call with
  | all => trivial
  | history => trivial
  | get orderId => trivial
  | delete orderId => trivial
  | upsert record =>
    rw [hcall] at h
    simp only [act] at h
    split at h
    · cases h
    · split at h
      · cases h
      · split at h <;> cases h
        refine TakerStateFile.swapRead_of_parse hparse record ?_
        refine List.mem_map.mpr ⟨(record.orderId, record), Keyed.mem_entries.mpr ?_, rfl⟩
        rw [Keyed.get_set, if_pos rfl]
  | settle orderId entry keepRecord =>
    rw [hcall] at h
    cases h
    exact readable_settle hs hparse hlike

end TakerCall

/-! ## Runs -/

namespace TakerFile

variable {s : TakerFile D B} {i : TakerInput D B}

/-- A restart reads what is in memory. -/
structure Kept (o : TakerFileOptions D B) (s : TakerFile D B) : Prop where
  reads : Store.Reads (takerFormat o) s
  sound : s.poisoned = false → s.memory.Sound o
  backed : s.poisoned = false → Store.Backed TakerStateFile.Same (takerFormat o) s

omit [DecidableEq B] [Zero B] in
theorem renames_of_write {next undone : TakerStateFile D B} {saved : TakerStateEnvelope D B}
    {answer : TakerAnswer D B} (hp : s.poisoned = false) (hearly : i.fault.early = false)
    (h : i.call.act o s.memory = .write next saved undone answer) : s.renames o i = true := by
  have hwrites : i.call.writes o s.memory = true := by
    rw [← TakerCall.writes_act, h]
    rfl
  simp [renames, hp, hearly, hwrites]

theorem atomicAt_iff_meets (h : s.Kept o) : s.AtomicAt o i ↔ s.Meets o i := by
  constructor
  · intro hi hrenames
    simp only [renames, Bool.and_eq_true, Bool.not_eq_true'] at hrenames
    obtain ⟨⟨hp, hearly⟩, hwrites⟩ := hrenames
    rw [← TakerCall.writes_act] at hwrites
    obtain ⟨next, saved, undone, answer, hcall⟩ := Call.writes_iff.mp hwrites
    exact TakerCall.readable_of_readsBack hcall (h.sound hp)
      (Store.Atomic.readsBack hi hp hcall (h.backed hp) hearly)
  · intro hi
    refine Store.atomic_perform h.reads (fun hthrows => h.backed hthrows.1) ?_ ?_
    · intro hp hearly next saved undone answer hcall
      exact TakerCall.act_readsBack hcall (h.sound hp) (hi (renames_of_write hp hearly hcall))
    · intro _ _ next saved undone answer hcall
      obtain ⟨hsame, hnot⟩ := TakerCall.act_undone hcall
      exact ⟨fun c hc => hc.trans hsame, hnot⟩

theorem step_kept (h : s.Kept o) (hi : s.Meets o i) : (s.step o i).Kept o := by
  have hidle : ∀ {answer : Option (TakerAnswer D B)},
      Store.perform s (call o i) i.fault = ⟨s, answer, [s.volume]⟩ → (s.step o i).Kept o := by
    intro answer hperform
    unfold step
    rw [hperform]
    exact h
  by_cases hp : s.poisoned = false
  swap
  · exact hidle (Store.perform_refuse (Or.inl ((Bool.not_eq_false _).mp hp)))
  cases hcall : call o i s.memory with
  | refuse => exact hidle (Store.perform_refuse (Or.inr hcall))
  | skip answer => exact hidle (Store.perform_skip hp hcall)
  | write next saved undone answer =>
    have hwritten := @Store.perform_write _ _ _ s (call o i) i.fault _ _ _ _ hp hcall
    have hreads := @Store.Reads.write _ _ _ _ _ _ _ _ _ _ h.reads _ hwritten
    have hback := fun hearly => @TakerCall.act_readsBack _ _ _ _ o _ _ _ _ _ _ hcall (h.sound hp)
      (hi (renames_of_write hp hearly hcall))
    unfold step
    generalize Store.perform s (call o i) i.fault = r at hwritten hreads
    cases hwritten with
    | kept hearly hleft hpoints =>
      obtain ⟨hsame, -⟩ := TakerCall.act_undone hcall
      refine ⟨hreads fun hlate => ?_, fun _ => (h.sound hp).congr hsame, fun _ => ?_⟩
      · rw [hearly] at hlate
        cases hlate
      · exact (h.backed hp).same hleft fun c hc => hc.trans hsame
    | unsynced hearly _ _ _ _ =>
      obtain ⟨c, hc, -⟩ := hback hearly
      exact ⟨hreads fun _ => by rw [hc]; rfl, nofun, nofun⟩
    | done hearly hsync hfile hbehind _ _ =>
      have hbacked := (hback hearly).backed hsync hfile hbehind
      obtain ⟨c, hc, -⟩ := hback hearly
      refine ⟨hreads fun _ => by rw [hc]; rfl, fun _ => ?_, fun _ => hbacked⟩
      rcases TakerCall.act_sound hcall (h.sound hp) (hi (renames_of_write hp hearly hcall)) with
        hsound | ⟨_, _, _, _, _, hfails, _⟩
      · exact hsound
      · rw [hsync] at hfails
        cases hfails

theorem startTaker_kept {file : Option (TakerStateEnvelope D B)} (h : startTaker o file = .ok s) :
    s.Kept o := by
  cases file with
  | none =>
    cases h
    refine ⟨?_, fun _ => TakerStateFile.fresh_sound, fun _ => ⟨.fresh, rfl, fun _ => rfl, rfl⟩⟩
    intro x hx
    rw [List.mem_singleton.mp hx]
    rfl
  | some rows =>
    unfold startTaker at h
    simp only [bind_eq_ok, pure_eq_ok] at h
    obtain ⟨f, hparse, rfl⟩ := h
    have hfinds : (⟨some ⟨.whole rows, true⟩, none, []⟩ : Volume (TakerStateEnvelope D B)).finds
        (takerFormat o) = [some f] := by
      show [(rows.parse o).toOption] = _
      rw [hparse]
      rfl
    refine ⟨?_, fun _ => TakerStateFile.sound_of_parse hparse,
      fun _ => ⟨f, hfinds, fun _ => rfl, rfl⟩⟩
    intro x hx
    change x ∈ Volume.finds _ _ at hx
    rw [hfinds] at hx
    rw [List.mem_singleton.mp hx]
    rfl

end TakerFile

end Persisted

/-! ## Both files -/

section

open Lib.Text Persisted Maker.Daemon

variable {A B D : Type} [DecidableEq A] [DecidableEq B] [Zero B]

/-- In the runs of either file, every call is atomic exactly when every call meets the condition on
what fails and what is written. -/
theorem state_files_atomic (codec : FileCodec A B) {file : Option (StateFile A B)} {t : Reading}
    {p : FileProcess A B} (hstart : startFile codec file t = .ok p) (calls : List (FileInput A B))
    (o : TakerFileOptions D B) {takes : Option (TakerStateEnvelope D B)} {s : TakerFile D B}
    (htaker : startTaker o takes = .ok s) (inputs : List (TakerInput D B)) :
    (Along (FileProcess.step codec) (FileProcess.AtomicAt codec) p calls ↔
        Along (FileProcess.step codec) (FileProcess.Meets codec) p calls) ∧
      (Along (TakerFile.step o) (TakerFile.AtomicAt o) s inputs ↔
        Along (TakerFile.step o) (TakerFile.Meets o) s inputs) := by
  constructor
  · refine along_iff (I := FileProcess.Kept codec) ?_ ?_ (startFile_kept hstart) calls
    · intro p i h
      exact ⟨FileProcess.meets_of_atomicAt h, FileProcess.atomicAt_of_meets h⟩
    · intro p i h hi
      exact FileProcess.step_kept h hi
  · refine along_iff (I := TakerFile.Kept o) ?_ ?_ (TakerFile.startTaker_kept htaker) inputs
    · intro s i h
      exact TakerFile.atomicAt_iff_meets h
    · intro s i h hi
      exact TakerFile.step_kept h hi

/-! A maker with one listing and a parked credit, and a taker with one proposal. -/

def sampleDigits (lead : List Char) (n : Nat) : String :=
  String.ofList (lead ++ List.replicate n '0')

theorem fixed_sampleDigits (lead : List Char) (n : Nat) :
    fixed lead n isLowerHex (sampleDigits lead n) = true := by
  refine fixed_iff.mpr ⟨List.replicate n '0', String.toList_ofList, List.length_replicate, ?_⟩
  intro c hc
  rw [List.eq_of_mem_replicate hc]
  rfl

def sampleId : String := sampleDigits [] 64

def sampleCodec (A : Type) : Codec A Nat where
  deriveOrderV1Id := fun _ _ => sampleId
  capabilityCommitment := fun _ => 1
  computeOrderDigest := fun _ _ => 2
  computeFillIntentDigest := fun _ _ => 3
  computeFillDigest := fun _ _ _ => 4
  computeCancelDigest := fun _ _ _ => 5
  verifyOrder := fun _ _ auth => auth.signature = "0xab"
  verifyIntent := fun _ auth => auth.signature = "0xab"
  verifyFill := fun _ _ _ auth => auth.signature = "0xab"
  verifyCancel := fun _ _ _ auth => auth.signature = "0xab"

def sampleFileCodec : FileCodec Nat Nat where
  toCodec := sampleCodec Nat
  sha256 := id
  sameDeployment := fun _ => true
  deriveOrderV1Id_hex := fun _ _ => fixed_sampleDigits [] 64
  sameDeployment_hydrated := fun _ => rfl

def sampleAuth (issuedAt expiresAt : Int) : ProtocolAuthV1 Nat :=
  ⟨SCHEME, issuedAt, expiresAt, 6, "0xab", "0xcd", OFFICIAL_DESCRIPTOR⟩

def sampleOrderAuth : MakerOrderAuthV1 Nat := ⟨sampleAuth 1000000 1003600, 1, 0⟩

def sampleBody {A : Type} (eth qrl : A) : CanonicalOrderV1Body A Nat :=
  ⟨.ethToQrl, .ETH, 100, 300, eth, qrl, .pub, none, none, none⟩

def sampleManaged : ManagedOrder Nat Nat :=
  ⟨sampleId, some sampleId,
    some ⟨2, sampleBody 1 2, sampleOrderAuth, false, false, none, none, none⟩, .ethToQrl, .ETH, 0,
    none, 100, 300, none, none, none, none, none, none, none, none, none, none, none, none,
      none, none,
    none, none, none, 1000000⟩

def sampleCredit : StrandedCredit Nat Nat := ⟨"a", .eth, 0, 1, none, 5, 7, true⟩

theorem sampleReading_le : (1000000 : Int) ≤ MAX_DATE_S := by decide

def sampleReading : Reading := ⟨1000000, sampleReading_le⟩

def sampleCall (call : FileCall Nat Nat) (fails : Step → Bool) : FileInput Nat Nat :=
  ⟨call, sampleReading, sampleReading, ⟨fails, false⟩⟩

def firstProcess : FileProcess Nat Nat := ⟨⟨.fresh, ⟨none, none, []⟩, false⟩, 1000000, []⟩

/-- The listing is not stored and then is, a credit is parked, and a sync of the directory fails. -/
def sampleCalls : List (FileInput Nat Nat) :=
  [sampleCall (.upsert sampleManaged) (· == .sync),
    sampleCall (.upsert sampleManaged) fun _ => false,
    sampleCall (.recordStrandedCredit sampleCredit) fun _ => false,
    sampleCall (.delete sampleId) (· == .syncDirectory)]

def sampleTakerOptions : TakerFileOptions Unit Nat :=
  ⟨⟨sampleCodec String, fun _ _ secret => secret + 1⟩, (), fun _ _ => true, none⟩

def sampleEth : String := sampleDigits ['0', 'x'] 40

def sampleQrl : String := sampleDigits ['Q'] 128

def sampleIntent : TakerIntentRecord Nat :=
  ⟨3, ⟨2, sampleEth, sampleQrl, 10⟩, sampleAuth 1000000 1000120, 9, some 1000001, none⟩

def sampleTake : TakerSwapRecord Unit Nat :=
  ⟨sampleId, (), 2, sampleBody sampleEth sampleQrl, sampleOrderAuth, .ETH, .ethToQrl, sampleEth,
    sampleQrl, [sampleIntent], none, none, none, false, false, none, none, none, none, none,
      none, none,
    none, none, none, 1000000, 1000001⟩

def sampleEntry : TakerHistoryEntry Nat :=
  ⟨sampleId, .ethToQrl, .ETH, 300, 100, .aborted, none, none, none, none, 1000000, 1000200⟩

def firstTaker : TakerFile Unit Nat := ⟨.fresh, ⟨none, none, []⟩, false⟩

def sampleTakes : List (TakerInput Unit Nat) :=
  [⟨.upsert sampleTake, ⟨fun _ => false, false⟩⟩, ⟨.settle sampleId sampleEntry false,
    ⟨(· == .rename), false⟩⟩, ⟨.settle sampleId sampleEntry false, ⟨fun _ => false, false⟩⟩]

theorem sampleManaged_read : OrderRead sampleFileCodec sampleManaged := by
  have h : parseOrder sampleFileCodec sampleManaged = .ok sampleManaged.hydrated := by rfl
  exact (parseOrder_eq_ok.mp h).1

theorem parseAccounts_sample (ethField qrlField : String) :
    parseAccounts sampleEth sampleQrl ethField qrlField = .ok () := by
  unfold parseAccounts ETH_ADDRESS_RE QRL_ADDRESS_RE sampleEth sampleQrl
  rw [fixed_sampleDigits, fixed_sampleDigits]
  rfl

theorem sampleTake_read : SwapRead sampleTakerOptions sampleTake := by
  have hid : ORDER_ID_RE sampleTake.orderId = true := fixed_sampleDigits [] 64
  have haccounts : ∀ ethField qrlField, parseAccounts sampleTake.takerEthAccount
      sampleTake.takerQrlAccount ethField qrlField = .ok () := parseAccounts_sample
  have horder : ∀ field, Persisted.parseCanonicalOrder sampleTake.order field = .ok () := by
    intro field
    simp only [Persisted.parseCanonicalOrder, sampleTake, sampleBody, parseAccounts_sample]
    rfl
  have hintents :
    ∀ field, parseIntents sampleTakerOptions.toTakerCodec sampleTake field = .ok () := by
    intro field
    refine forM_eq_ok.mpr fun entry hmem => ?_
    rw [List.mem_singleton.mp hmem]
    simp only [parseIntentRecord, parseFillIntentBody, sampleIntent, parseAccounts_sample]
    rfl
  have h : (parseSwap sampleTake sampleTakerOptions 0).isOk = true := by
    simp only [parseSwap, parseTakerSwapRecord, hid, haccounts, horder, hintents]
    decide +kernel
  exact (eq_ok_of_isOk h).elim fun _ h => h

theorem sampleCalls_meet : Along (FileProcess.step sampleFileCodec)
    (FileProcess.Meets sampleFileCodec) firstProcess sampleCalls := by
  have hretained : ∀ until', orderRetentionUntil sampleManaged 1000000 = some until' →
      until' ≤ MAX_SAFE_INTEGER := by
    intro until' h
    cases h
    decide
  have hstep : ∀ (p : FileProcess Nat Nat) i, p.ahead = [] →
    (p.step sampleFileCodec i).ahead = [] := by
    intro p i hahead
    unfold FileProcess.step
    rw [hahead]
    exact ite_self _
  have hcaught : ∀ (p : FileProcess Nat Nat) i, p.ahead = [] → p.CaughtUp sampleFileCodec i := by
    intro p i hahead _ _ until' hmem
    rw [hahead] at hmem
    cases hmem
  refine ⟨⟨?_, ?_, ?_⟩, ⟨?_, ?_, ?_⟩, ⟨?_, ?_, ?_⟩, ⟨?_, ?_, ?_⟩, trivial⟩
  · exact fun _ h => (by cases h)
  · exact hcaught _ _ rfl
  · intro h
    exact absurd h (by decide +kernel)
  · exact fun _ h => (by cases h)
  · exact hcaught _ _ (hstep _ _ rfl)
  · refine fun _ => ⟨by decide +kernel, by decide +kernel, ?_, fun _ h => (by cases h)⟩
    intro order h
    cases h
    exact ⟨sampleManaged_read, hretained⟩
  · exact fun _ _ => rfl
  · exact hcaught _ _ (hstep _ _ (hstep _ _ rfl))
  · refine fun _ => ⟨by decide +kernel, by decide +kernel, fun _ h => (by cases h), ?_⟩
    intro entry h _
    cases h
    rfl
  · exact fun _ h => (by cases h)
  · exact hcaught _ _ (hstep _ _ (hstep _ _ (hstep _ _ rfl)))
  · exact fun _ => ⟨by decide +kernel, by decide +kernel, fun _ h => (by cases h),
      fun _ h => (by cases h)⟩

theorem sampleTakes_meet : Along (TakerFile.step sampleTakerOptions)
    (TakerFile.Meets sampleTakerOptions) firstTaker sampleTakes := by
  have hentry : parseHistoryEntry sampleEntry = true := by decide +kernel
  exact ⟨fun _ => sampleTake_read, fun _ => Or.inl hentry, fun _ => Or.inl hentry, trivial⟩

theorem state_files_atomic_sample :
    Along (FileProcess.step sampleFileCodec) (FileProcess.AtomicAt sampleFileCodec) firstProcess
        sampleCalls ∧
      Along (TakerFile.step sampleTakerOptions) (TakerFile.AtomicAt sampleTakerOptions) firstTaker
        sampleTakes := by
  have hmaker : startFile sampleFileCodec none sampleReading = .ok firstProcess := rfl
  have htaker : startTaker sampleTakerOptions none = .ok firstTaker := rfl
  have h := state_files_atomic sampleFileCodec hmaker sampleCalls sampleTakerOptions htaker
    sampleTakes
  exact ⟨h.1.mpr sampleCalls_meet, h.2.mpr sampleTakes_meet⟩

/-- The temporary file of a parked credit cannot be opened: the call throws, nothing is on disk, and
the credit stays in memory, so that the same call returns without a write. -/
theorem parked_credit_unwritten :
    let park := sampleCall (.recordStrandedCredit sampleCredit)
    let q := firstProcess.step sampleFileCodec (park (· == .create))
    (firstProcess.performed sampleFileCodec (park (· == .create))).answer.isNone = true ∧
      q.store.poisoned = false ∧ q.store.volume.file = none ∧
      (q.store.memory.credit sampleCredit.key).isSome = true ∧
      (q.performed sampleFileCodec (park fun _ => false)).answer.isSome = true ∧
      (q.step sampleFileCodec (park fun _ => false)).store.volume.file = none ∧
      ¬ Along (FileProcess.step sampleFileCodec) (FileProcess.AtomicAt sampleFileCodec) firstProcess
        [park (· == .create)] := by
  refine ⟨rfl, rfl, rfl, rfl, rfl, rfl, ?_⟩
  rintro ⟨h, -⟩
  have hearly := FileProcess.unspoiled_of_atomic h rfl rfl
  cases hearly

end

end QuantaSwap.Taker
