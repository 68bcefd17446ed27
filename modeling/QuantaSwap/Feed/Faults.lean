import QuantaSwap.Feed.Runs

/-!
# Appends whose steps throw

`appendLines` and `compact`, step by step: a write can stop anywhere, its rollback can
fail, and a compaction can stop behind its rename. An append is all or nothing unless one
of the last two happens.
-/

set_option autoImplicit false

namespace QuantaSwap.Feed

open Lib.Js Lib.Text Lib.Utf8 Lib.Run QuantaSwap.Book

/-- Where a compaction stops. -/
inductive CompactStop where
  /-- `assertOwned` threw. -/
  | refused
  /-- A step up to the rename threw. -/
  | staged
  /-- The sync of the directory threw. -/
  | renamed
  deriving DecidableEq

/-- A write that threw, or whose sync did. -/
structure WriteStop where
  written : Nat
  /-- `ftruncateSync` and the sync behind it returned. -/
  truncated : Bool

/-- The steps of an operation that throw. -/
structure Faults where
  owned : Bool := true
  write : Option WriteStop := none
  compaction : Option CompactStop := none

/-- What the steps come to, when they leave no trace that the undo misses. -/
def Faults.io (faults : Faults) : Io where
  write := if faults.owned = false then .refused else if faults.write.isSome then .failed else .done
  compaction :=
    match faults.compaction with
    | none => .done
    | some .refused => .refused
    | some _ => .failed

/-- No rollback fails, and no compaction stops behind its rename. -/
structure Faults.Undone (faults : Faults) : Prop where
  write : ∀ stop ∈ faults.write, (stop : WriteStop).truncated = true
  compaction : faults.compaction ≠ some .renamed

namespace LoggedFeed

/-- The log that a compaction writes. -/
def compacted (s : LoggedFeed) : Bytes :=
  logBytes s.feed.feedId s.feed.nextSeq s.feed.snapshotDigest (s.feed.events.map .event)

/-- `compact`, and whether it returned. -/
def compactSteps (stop : Option CompactStop) (s : LoggedFeed) : LoggedFeed × Bool :=
  match stop with
  | some .refused => (s, false)
  | some .staged => ({ s with feed := { s.feed with logLines := none } }, false)
  | some .renamed => ({ feed := { s.feed with logLines := none }, file := some s.compacted }, false)
  | none =>
    ({ feed := { s.feed with logLines := some s.feed.events.length, logIdentity := true }, file := some s.compacted },
      true)

/-- `appendLines`, and whether it returned. -/
def appendLinesSteps (maxEvents : Nat) (faults : Faults) (lines : List Line) (s : LoggedFeed) :
    LoggedFeed × Bool :=
  if lines.isEmpty then (s, true)
  else if faults.owned = false then (s, false)
  else match s.logFileStatus, s.feed.logLines with
    | .missing, _ | _, none => s.compactSteps faults.compaction
    | _, some linesBefore =>
      let buffer := lineBytes lines
      match faults.write with
      | some stop =>
        -- The bytes that got out stay when the file is not cut back.
        let file := if stop.truncated then s.file else
          some (s.file.getD [] ++ buffer.take stop.written)
        ({ feed := { s.feed with logLines := none }, file }, false)
      | none =>
        let written : LoggedFeed :=
          { feed := { s.feed with logLines := some (linesBefore + lines.length) }
            file := some (s.file.getD [] ++ buffer) }
        if maxEvents + (maxEvents + 3) / 4 < linesBefore + lines.length then
          ((written.compactSteps faults.compaction).1, true)
        else (written, true)

section Operations

variable (E : Crypto) (maxEvents : Nat)

/-- `append`, with what it returned. -/
def appendSteps (raw : FederationEvent) (receivedAt : Lib.Js.Num)
    (snapshot : Option (List FederationEvent))
    (faults : Faults) (s : LoggedFeed) : LoggedFeed × Option FederationRecord :=
  match s.feed.stageAppend E maxEvents raw receivedAt snapshot with
  | none => (s, none)
  | some (feed, staged) =>
    if staged.lines.isEmpty then ({ s with feed }, some staged.record)
    else match appendLinesSteps maxEvents faults staged.lines { s with feed } with
      | (s, true) => (s, some staged.record)
      | (s, false) => ({ s with feed := FederationFeed.rollback staged s.feed }, none)

/-- `appendBatch`, with what it returned. -/
def appendBatchSteps (raws : List FederationEvent) (receivedAt : Lib.Js.Num) (faults : Faults)
    (s : LoggedFeed) :
    LoggedFeed × Option (List FederationRecord) :=
  match FederationFeed.stageAll E maxEvents receivedAt raws s.feed with
  | (feed, staged, false) => ({ s with feed := FederationFeed.rollbackAll staged feed }, none)
  | (feed, staged, true) =>
    match appendLinesSteps maxEvents faults (batchLines staged) { s with feed } with
    | (s, true) => (s, some (staged.map (·.record)))
    | (s, false) => ({ s with feed := FederationFeed.rollbackAll staged s.feed }, none)

end Operations

section Undone

variable {E : Crypto} {maxEvents : Nat} {faults : Faults} {lines : List Line} {s : LoggedFeed}

theorem compactSteps_eq (h : faults.compaction ≠ some .renamed) :
    s.compactSteps faults.compaction = s.compact faults.io.compaction := by
  unfold Faults.io
  dsimp only
  cases hstop : faults.compaction with
  | none => rfl
  | some stop =>
    cases stop with
    | refused => rfl
    | staged => rfl
    | renamed => exact absurd hstop h

theorem appendLinesSteps_eq (h : faults.Undone) :
    appendLinesSteps maxEvents faults lines s = appendLines maxEvents faults.io lines s := by
  have hwrite : faults.io.write = if faults.owned = false then .refused
      else if faults.write.isSome then .failed else .done := rfl
  have hcompact := compactSteps_eq (s := s) h.compaction
  unfold appendLinesSteps appendLines
  split
  · rfl
  · rw [hwrite]
    split
    · rfl
    · have howned : ¬(if faults.write.isSome then WriteResult.failed else .done) = .refused := by
        split <;> nofun
      rw [if_neg howned]
      cases hlines : s.feed.logLines with
      | none => cases s.logFileStatus <;> exact hcompact
      | some linesBefore =>
        cases hstop : faults.write with
        | some stop =>
          have htruncated := h.write stop hstop
          cases s.logFileStatus with
          | missing => exact hcompact
          | unwritten => simp [htruncated]
          | owned => simp [htruncated]
        | none =>
          cases s.logFileStatus with
          | missing => exact hcompact
          | unwritten => simp [compactSteps_eq h.compaction]
          | owned => simp [compactSteps_eq h.compaction]

theorem appendSteps_eq (h : faults.Undone) (raw : FederationEvent) (receivedAt : Lib.Js.Num)
    (snapshot : Option (List FederationEvent)) :
    s.appendSteps E maxEvents raw receivedAt snapshot faults =
      s.append E maxEvents raw receivedAt snapshot faults.io := by
  unfold appendSteps
  simp only [appendLinesSteps_eq h]
  rfl

theorem appendBatchSteps_eq (h : faults.Undone) (raws : List FederationEvent)
    (receivedAt : Lib.Js.Num) :
    s.appendBatchSteps E maxEvents raws receivedAt faults =
      s.appendBatch E maxEvents raws receivedAt faults.io := by
  unfold appendBatchSteps
  simp only [appendLinesSteps_eq h]
  rfl

end Undone

end LoggedFeed

/-! ## What a batch adds -/

/-- The records that a batch adds to a ring, and the ring with them. -/
structure Adds (E : Crypto) (maxEvents : Nat) (i : Image) (raws : List FederationEvent)
    (added : List PersistedFederationRecord) (i' : Image) : Prop where
  feedId : i'.feedId = i.feedId
  /-- Consecutive sequences, from the next one of the ring. -/
  seqs : added.map (·.seq) = List.range' i.nextSeq added.length
  nextSeq : i'.nextSeq = i.nextSeq + added.length
  events : i'.events = newest maxEvents (i.events ++ added)
  /-- Every record is of an event of the batch that the ring did not have at its turn. -/
  asked : ∀ r ∈ added, r.event ∈ raws ∧ federationEventId E r.event = some r.eventId
  fresh : ∀ before r after, added = before ++ r :: after →
    r.eventId ∉ (newest maxEvents (i.events ++ before)).map (·.eventId)
  few : added.length ≤ raws.length
  /-- Every event of the batch has a record, old or added. -/
  complete : ∀ raw ∈ raws, ∃ r ∈ i.events ++ added, federationEventId E raw = some r.eventId

section Adds

variable {E : Crypto} {maxEvents : Nat} {i i' i'' : Image} {raws raws' : List FederationEvent}
  {added added' : List PersistedFederationRecord}

theorem newest_newest_append {α : Type} (n : Nat) (l m : List α) :
    newest n (newest n l ++ m) = newest n (l ++ m) := by
  have hsurplus : l.length - n ≤ l.length := Nat.sub_le _ _
  have hsplit : newest n l ++ m = (l ++ m).drop (l.length - n) :=
    (List.drop_append_of_le_length hsurplus).symm
  rw [newest, hsplit, newest, List.drop_drop, List.length_drop, List.length_append]
  congr 1
  omega

theorem adds_nothing (h : i.events.length ≤ maxEvents) : Adds E maxEvents i [] [] i where
  feedId := rfl
  seqs := rfl
  nextSeq := rfl
  events := by rw [List.append_nil, newest_of_le h]
  asked := fun r hr => absurd hr List.not_mem_nil
  fresh := by
    intro before r after h
    cases before <;> cases h
  few := le_refl _
  complete := fun raw hraw => absurd hraw List.not_mem_nil

theorem Adds.trans (h : Adds E maxEvents i raws added i')
    (h' : Adds E maxEvents i' raws' added' i'') :
    Adds E maxEvents i (raws ++ raws') (added ++ added') i'' where
  feedId := h'.feedId.trans h.feedId
  seqs := by
    rw [List.map_append, h.seqs, h'.seqs, h.nextSeq, List.length_append, List.range'_append_1]
  nextSeq := by
    rw [h'.nextSeq, h.nextSeq, List.length_append, Nat.add_assoc]
  events := by
    rw [h'.events, h.events, newest_newest_append, List.append_assoc]
  asked := by
    intro r hr
    rw [List.mem_append] at hr ⊢
    rcases hr with hr | hr
    · exact ⟨.inl (h.asked r hr).1, (h.asked r hr).2⟩
    · exact ⟨.inr (h'.asked r hr).1, (h'.asked r hr).2⟩
  fresh := by
    intro before r after heq
    rcases List.append_eq_append_iff.mp heq with ⟨rest, rfl, hrest⟩ | ⟨rest, hadded, hafter⟩
    · -- The record is of the second part.
      have hfresh := h'.fresh rest r after hrest
      rw [h.events, newest_newest_append, List.append_assoc] at hfresh
      exact hfresh
    -- The record is of the first part, or the split falls between the two.
    · cases rest with
      | nil =>
        rw [List.append_nil] at hadded
        have hfresh := h'.fresh [] r after hafter.symm
        rw [h.events, newest_newest_append, List.append_nil, hadded] at hfresh
        exact hfresh
      | cons x rest =>
        rw [List.cons_append, List.cons.injEq] at hafter
        obtain ⟨rfl, -⟩ := hafter
        exact h.fresh before r rest hadded
  few := by
    rw [List.length_append, List.length_append]
    exact Nat.add_le_add h.few h'.few
  complete := by
    intro raw hraw
    rcases List.mem_append.mp hraw with hraw | hraw
    · obtain ⟨r, hr, hid⟩ := h.complete raw hraw
      refine ⟨r, ?_, hid⟩
      rw [← List.append_assoc]
      exact List.mem_append_left _ hr
    · obtain ⟨r, hr, hid⟩ := h'.complete raw hraw
      refine ⟨r, ?_, hid⟩
      rw [← List.append_assoc, List.mem_append]
      rcases List.mem_append.mp hr with hr | hr
      · rw [h.events] at hr
        exact .inl ((newest_sublist _).subset hr)
      · exact .inr hr

end Adds

namespace FederationFeed

variable {E : Crypto} {maxEvents : Nat} {f f' : FederationFeed} {raw : FederationEvent}
  {receivedAt : Lib.Js.Num}
  {snapshot : Option (List FederationEvent)} {staged : StagedAppend}

theorem StageEffect.adds (h : StageEffect E maxEvents raw f f' staged)
    (hbound : f.events.length ≤ maxEvents) :
    ∃ added, Adds E maxEvents f.image [raw] added f'.image := by
  have hknown : ∀ entry ∈ f.events, federationEventId E raw = some entry.eventId →
      ∀ raw' ∈ [raw], ∃ r ∈ f.events ++ [], federationEventId E raw' = some r.eventId := by
    intro entry hentry hid raw' hraw'
    obtain rfl := List.mem_singleton.mp hraw'
    exact ⟨entry, List.mem_append_left _ hentry, hid⟩
  have hnothing := adds_nothing (E := E) (i := f.image) hbound
  cases h with
  | known entry hentry hid hlines hundo himage hids hcache =>
    rw [himage]
    exact ⟨[], { hnothing with
      asked := fun r hr => absurd hr List.not_mem_nil
      few := Nat.zero_le _
      complete := hknown entry hentry hid }⟩
  | replayed entry record hentry hid d hd hlines hundo himage hids hcache =>
    rw [himage]
    exact ⟨[], { hnothing with
      asked := fun r hr => absurd hr List.not_mem_nil
      few := Nat.zero_le _
      complete := hknown entry hentry hid }⟩
  | pushed record hevent hchecked hid hseq hnew d hlines hundo himage hids hcache =>
    rw [himage]
    refine ⟨[record], ⟨rfl, ?_, ?_, rfl, ?_, ?_, le_refl _, ?_⟩⟩
    · rw [List.map_singleton, hseq]
      rfl
    · show max f.nextSeq (record.seq + 1) = f.nextSeq + 1
      rw [hseq]
      omega
    · intro r hr
      obtain rfl := List.mem_singleton.mp hr
      exact ⟨hevent ▸ List.mem_singleton_self _, hevent ▸ hid⟩
    · intro before r after heq
      cases before with
      | nil =>
        rw [List.nil_append, List.cons.injEq] at heq
        obtain ⟨rfl, -⟩ := heq
        rw [List.append_nil, newest_of_le (show f.image.events.length ≤ maxEvents from hbound)]
        exact hnew
      | cons x before =>
        rw [List.cons_append, List.cons.injEq] at heq
        exact absurd heq.2.symm (List.append_ne_nil_of_right_ne_nil _ (List.cons_ne_nil _ _))
    · intro raw' hraw'
      obtain rfl := List.mem_singleton.mp hraw'
      exact ⟨record, List.mem_append_right _ (List.mem_singleton_self _), hid⟩

theorem stageAll_adds {raws : List FederationEvent}
    (hraws : ∀ raw ∈ raws, Distinct (.obj raw.payload))
    (hf : Good E maxEvents f) {f' : FederationFeed} {staged : List StagedAppend}
    (h : stageAll E maxEvents receivedAt raws f = (f', staged, true)) :
    ∃ added, Adds E maxEvents f.image raws added f'.image := by
  induction raws generalizing f f' staged with
  | nil =>
    cases h
    exact ⟨[], adds_nothing hf.ring.bounded⟩
  | cons raw raws ih =>
    rw [stageAll] at h
    cases hstage : f.stageAppend E maxEvents raw receivedAt none with
    | none =>
      rw [hstage] at h
      cases h
    | some r =>
      obtain ⟨f₁, first⟩ := r
      rw [hstage] at h
      dsimp only at h
      have hgood := good_stageAppend hf (hraws raw List.mem_cons_self) hstage
      obtain ⟨added, hadded⟩ := (stageAppend_cases hf.ring.bounded hstage).1.adds hf.ring.bounded
      rcases hrest : stageAll E maxEvents receivedAt raws f₁ with ⟨f₂, rest, ok⟩
      rw [hrest] at h
      cases h
      obtain ⟨added', hadded'⟩ := ih (fun x hx => hraws x (List.mem_cons_of_mem _ hx)) hgood hrest
      exact ⟨added ++ added', hadded.trans hadded'⟩

theorem StageEffect.cache (h : StageEffect E maxEvents raw f f' staged) :
    f'.cachedResetPage = f.cachedResetPage ∨ f'.cachedResetPage = none := by
  cases h with
  | known entry hentry hid hlines hundo himage hids hcache => exact hcache
  | replayed entry record hentry hid d hd hlines hundo himage hids hcache => exact .inr hcache
  | pushed record hevent hchecked hid hseq hnew d hlines hundo himage hids hcache =>
    exact hcache.symm

theorem stageAll_cache {raws : List FederationEvent}
    (hraws : ∀ raw ∈ raws, Distinct (.obj raw.payload))
    (hf : Good E maxEvents f) :
    (stageAll E maxEvents receivedAt raws f).1.cachedResetPage = f.cachedResetPage ∨
      (stageAll E maxEvents receivedAt raws f).1.cachedResetPage = none := by
  induction raws generalizing f with
  | nil => exact .inl rfl
  | cons raw raws ih =>
    rw [stageAll]
    cases hstage : f.stageAppend E maxEvents raw receivedAt none with
    | none => exact .inl rfl
    | some r =>
      obtain ⟨f₁, first⟩ := r
      have hgood := good_stageAppend hf (hraws raw List.mem_cons_self) hstage
      have hcache := (stageAppend_cases hf.ring.bounded hstage).1.cache
      rcases ih (fun x hx => hraws x (List.mem_cons_of_mem _ hx)) hgood with h | h
      · rcases hcache with hc | hc
        · exact .inl (h.trans hc)
        · exact .inr (h.trans hc)
      · exact .inr h

end FederationFeed

/-! ## What the steps leave -/

section Left

variable {E : Crypto} {maxEvents : Nat} {faults : Faults} {lines : List Line} {s s' : LoggedFeed}

namespace LoggedFeed

theorem compactSteps_memory (stop : Option CompactStop) (s : LoggedFeed) :
    (s.compactSteps stop).1.feed.image = s.feed.image ∧
    (s.compactSteps stop).1.feed.eventIds = s.feed.eventIds ∧
      (s.compactSteps stop).1.feed.cachedResetPage = s.feed.cachedResetPage := by
  cases stop with
  | none => exact ⟨rfl, rfl, rfl⟩
  | some stop => cases stop <;> exact ⟨rfl, rfl, rfl⟩

theorem appendLinesSteps_memory (maxEvents : Nat) (faults : Faults) (lines : List Line)
    (s : LoggedFeed) :
    (appendLinesSteps maxEvents faults lines s).1.feed.image = s.feed.image ∧
      (appendLinesSteps maxEvents faults lines s).1.feed.eventIds = s.feed.eventIds ∧
      (appendLinesSteps maxEvents faults lines s).1.feed.cachedResetPage =
        s.feed.cachedResetPage := by
  unfold appendLinesSteps
  split
  · exact ⟨rfl, rfl, rfl⟩
  · split
    · exact ⟨rfl, rfl, rfl⟩
    · split
      · exact compactSteps_memory _ _
      · exact compactSteps_memory _ _
      · dsimp only
        split
        · exact ⟨rfl, rfl, rfl⟩
        · split
          · exact compactSteps_memory _ _
          · exact ⟨rfl, rfl, rfl⟩

/-- What a failed write leaves of the log: it is as it was, or it ends in bytes of the new lines. -/
structure Stopped (faults : Faults) (lines : List Line) (s s' : LoggedFeed) : Prop where
  identity : s'.feed.logIdentity = s.feed.logIdentity
  logLines : s'.feed.logLines = s.feed.logLines ∨ s'.feed.logLines = none
  file : faults.compaction ≠ some .renamed →
    s'.file = s.file ∨ ∃ cut, cut <+: lineBytes lines ∧ s'.file = some (s.file.getD [] ++ cut)
  undone : faults.Undone → s'.file = s.file

theorem stopped_compactSteps (lines : List Line)
    (h : (s.compactSteps faults.compaction).2 = false) :
    Stopped faults lines s (s.compactSteps faults.compaction).1 := by
  unfold compactSteps at h ⊢
  split at h
  · exact ⟨rfl, .inl rfl, fun _ => .inl rfl, fun _ => rfl⟩
  · exact ⟨rfl, .inr rfl, fun _ => .inl rfl, fun _ => rfl⟩
  · rename_i hstop
    exact ⟨rfl, .inr rfl, fun h => absurd hstop h, fun hundone => absurd hstop hundone.compaction⟩
  · cases h

theorem stopped_appendLinesSteps (h : (appendLinesSteps maxEvents faults lines s).2 = false) :
    Stopped faults lines s (appendLinesSteps maxEvents faults lines s).1 := by
  unfold appendLinesSteps at h ⊢
  split
  · rename_i hempty
    rw [if_pos hempty] at h
    cases h
  · rename_i hne
    rw [if_neg hne] at h
    split
    · exact ⟨rfl, .inl rfl, fun _ => .inl rfl, fun _ => rfl⟩
    · rename_i howned
      rw [if_neg howned] at h
      split at h
      · exact stopped_compactSteps lines h
      · exact stopped_compactSteps lines h
      · dsimp only at h ⊢
        split at h
        · rename_i stop hstop
          refine ⟨rfl, .inr rfl, fun _ => ?_, fun hundone => ?_⟩
          · split
            · exact .inl rfl
            · exact .inr ⟨_, List.take_prefix _ _, rfl⟩
          · rw [if_pos (hundone.write stop hstop)]
        · split at h <;> cases h

theorem compactSteps_done {stop : Option CompactStop} (h : (s.compactSteps stop).2 = true) :
    stop = none := by
  unfold compactSteps at h
  split at h
  · cases h
  · cases h
  · cases h
  · rfl

theorem appendLines_rewrite (hne : ¬lines.isEmpty = true) (h : s.logFileStatus = .missing ∨
    s.feed.logLines = none)
    (compaction : WriteResult) :
    appendLines maxEvents { compaction } lines s = s.compact compaction := by
  have hwrite : ({ compaction } : Io).write ≠ .refused := WriteResult.noConfusion
  unfold appendLines
  rw [if_neg hne, if_neg hwrite]
  rcases h with h | h
  · rw [h]
  · rw [h]
    cases s.logFileStatus <;> rfl

theorem appendLinesSteps_rewrite (hne : ¬lines.isEmpty = true) (howned : ¬faults.owned = false)
    (h : s.logFileStatus = .missing ∨ s.feed.logLines = none) :
    appendLinesSteps maxEvents faults lines s = s.compactSteps faults.compaction := by
  unfold appendLinesSteps
  rw [if_neg hne, if_neg howned]
  rcases h with h | h
  · rw [h]
  · rw [h]
    cases s.logFileStatus <;> rfl

/-- The feed and the file after lines were written at the end of a log of `n`. -/
def written (lines : List Line) (n : Nat) (s : LoggedFeed) : LoggedFeed :=
  { feed := { s.feed with logLines := some (n + lines.length) }, file := some (s.file.getD [] ++ lineBytes lines) }

theorem appendLines_known {n : Nat} (hne : ¬lines.isEmpty = true)
    (hstatus : s.logFileStatus ≠ .missing)
    (hlines : s.feed.logLines = some n) (compaction : WriteResult) :
    appendLines maxEvents { compaction } lines s =
      (if maxEvents + (maxEvents + 3) / 4 <
        n + lines.length then (compact compaction (s.written lines n)).1
        else s.written lines n, true) := by
  have hwrite : ({ compaction } : Io).write ≠ .refused := WriteResult.noConfusion
  unfold appendLines
  rw [if_neg hne, if_neg hwrite, hlines]
  cases hs : s.logFileStatus with
  | missing => exact absurd hs hstatus
  | unwritten => exact (apply_ite (·, true) _ _ _).symm
  | owned => exact (apply_ite (·, true) _ _ _).symm

theorem appendLinesSteps_known {n : Nat} (hne : ¬lines.isEmpty = true)
    (howned : ¬faults.owned = false)
    (hwrite : faults.write = none) (hstatus : s.logFileStatus ≠ .missing)
    (hlines : s.feed.logLines = some n) :
    appendLinesSteps maxEvents faults lines s =
      (if maxEvents + (maxEvents + 3) / 4 <
        n + lines.length then (compactSteps faults.compaction (s.written lines n)).1
        else s.written lines n, true) := by
  unfold appendLinesSteps
  rw [if_neg hne, if_neg howned, hlines, hwrite]
  cases hs : s.logFileStatus with
  | missing => exact absurd hs hstatus
  | unwritten => exact (apply_ite (·, true) _ _ _).symm
  | owned => exact (apply_ite (·, true) _ _ _).symm

/-- A write that returned is one whose steps returned, but for a compaction behind it that stopped
behind its rename: the file is the compacted one. -/
theorem appendLinesSteps_done (h : (appendLinesSteps maxEvents faults lines s).2 = true) :
    ∃ io, (appendLines maxEvents io lines s).2 = true ∧
      ((appendLinesSteps maxEvents faults lines s).1 = (appendLines maxEvents io lines s).1 ∨
        (appendLinesSteps maxEvents faults lines s).1 =
          { feed := { (appendLines maxEvents io lines s).1.feed with logLines := none }
            file := some (appendLines maxEvents io lines s).1.compacted }) := by
  by_cases hempty : lines.isEmpty = true
  · refine ⟨{}, ?_, .inl ?_⟩
    · rw [appendLines, if_pos hempty]
    · rw [appendLines, appendLinesSteps, if_pos hempty, if_pos hempty]
  · have howned : ¬faults.owned = false := by
      intro howned
      rw [appendLinesSteps, if_neg hempty, if_pos howned] at h
      cases h
    by_cases hrewrite : s.logFileStatus = .missing ∨ s.feed.logLines = none
    · rw [appendLinesSteps_rewrite hempty howned hrewrite] at h ⊢
      rw [compactSteps_done h]
      refine ⟨{}, ?_, .inl ?_⟩
      · rw [appendLines_rewrite hempty hrewrite]
        rfl
      · rw [appendLines_rewrite hempty hrewrite]
        rfl
    · obtain ⟨hstatus, hcount⟩ := not_or.mp hrewrite
      obtain ⟨n, hn⟩ := Option.ne_none_iff_exists'.mp hcount
      have hwrite : faults.write = none := by
        cases hwrite : faults.write with
        | none => rfl
        | some stop =>
          unfold appendLinesSteps at h
          rw [if_neg hempty, if_neg howned, hn, hwrite] at h
          cases hs : s.logFileStatus with
          | missing => exact absurd hs hstatus
          | unwritten => rw [hs] at h; cases h
          | owned => rw [hs] at h; cases h
      rw [appendLinesSteps_known hempty howned hwrite hstatus hn]
      by_cases hstop : faults.compaction = some .renamed
      · refine ⟨{ compaction := .refused }, ?_, ?_⟩
        · rw [appendLines_known hempty hstatus hn]
        · rw [appendLines_known hempty hstatus hn, hstop]
          split
          · exact .inr rfl
          · exact .inl rfl
      · refine ⟨{ compaction := faults.io.compaction }, ?_, .inl ?_⟩
        · rw [appendLines_known hempty hstatus hn]
        · rw [appendLines_known hempty hstatus hn, compactSteps_eq hstop]

end LoggedFeed

open LoggedFeed

/-- What a refused append leaves: the ring, its index and the next sequence as they were. -/
structure Kept (faults : Faults) (lines : List Line) (s s' : LoggedFeed) :
    Prop extends Stopped faults lines s s' where
  image : s'.feed.image = s.feed.image
  eventIds : ∀ id, id ∈ s'.feed.eventIds ↔ id ∈ s.feed.eventIds
  cache : s'.feed.cachedResetPage = s.feed.cachedResetPage ∨ s'.feed.cachedResetPage = none

/-- Every start of the process on the file at the path has the feed again. -/
def Loads (E : Crypto) (maxEvents : Nat) (s : LoggedFeed) : Prop :=
  SafeSeq s → ∀ bytes ∈ s.file, ∀ other io,
    ∃ g, load E maxEvents other io (some bytes) = some { feed := g, file := some bytes } ∧
      Rebuilds s.feed.image g

/-- What an append that returned leaves. -/
structure Appended (E : Crypto) (maxEvents : Nat) (raws : List FederationEvent)
    (s s' : LoggedFeed) : Prop where
  adds : ∃ added, Adds E maxEvents s.feed.image raws added s'.feed.image
  once : (s'.feed.events.map (·.eventId)).Nodup
  indexed : ∀ id, id ∈ s'.feed.eventIds ↔ id ∈ s'.feed.events.map (·.eventId)
  /-- A batch that the ring can hold is in it, but for what the ring had before. -/
  present : raws.length ≤ maxEvents → ∀ raw ∈ raws, ∀ id, federationEventId E raw = some id →
    id ∉ s.feed.eventIds →
    id ∈ s'.feed.events.map (·.eventId)
  loads : Loads E maxEvents s'

theorem Logged.loads (hmax : 1 ≤ maxEvents) (hs : Logged E maxEvents s) : Loads E maxEvents s := by
  intro hsafe bytes hbytes other io
  obtain ⟨g, hload, hloaded, -, -⟩ := (hs.file bytes hbytes).load hmax hsafe other io
  exact ⟨g, hload, rebuilds_of_loaded hloaded⟩

theorem Loads.kept (h : Loads E maxEvents s) (hkept : Kept faults lines s s')
    (hundone : faults.Undone) :
    Loads E maxEvents s' := by
  intro hsafe bytes hbytes
  rw [hkept.image]
  refine h ?_ bytes (hkept.undone hundone ▸ hbytes)
  show s.feed.image.nextSeq ≤ maxSafeInteger
  rw [← hkept.image]
  exact hsafe

theorem Adds.present {i i' : Image} {raws : List FederationEvent}
    {added : List PersistedFederationRecord}
    (h : Adds E maxEvents i raws added i') (hlen : raws.length ≤ maxEvents) {raw : FederationEvent}
    (hraw : raw ∈ raws)
    {id : EventId} (hid : federationEventId E raw = some id)
    (hnew : id ∉ i.events.map (·.eventId)) :
    id ∈ i'.events.map (·.eventId) := by
  obtain ⟨r, hr, hr_id⟩ := h.complete raw hraw
  obtain rfl : id = r.eventId := Option.some.inj (hid.symm.trans hr_id)
  apply List.mem_map_of_mem
  rw [h.events, newest]
  rcases List.mem_append.mp hr with hr | hr
  · exact absurd (List.mem_map_of_mem hr) hnew
  · have hfew := h.few
    have hdrop : (i.events ++ added).length - maxEvents ≤ i.events.length := by
      rw [List.length_append]
      omega
    rw [List.drop_append_of_le_length hdrop]
    exact List.mem_append_right _ hr

section Staged

variable {feed : FederationFeed} (faults : Faults) (lines : List Line) (hs : Logged E maxEvents s)
  (hgood : Good E maxEvents feed)
  (hlog : SameLog s.feed feed)
include hs hgood hlog

theorem appended_appendLinesSteps (hmax : 1 ≤ maxEvents)
    (hfits : Along (Image.apply maxEvents) (Fits E) s.feed.image lines)
    (hrun : run (Image.apply maxEvents) s.feed.image lines = feed.image)
    {raws : List FederationEvent}
    (hadds : ∃ added, Adds E maxEvents s.feed.image raws added feed.image)
    (h : (appendLinesSteps maxEvents faults lines { s with feed }).2 = true) :
    Appended E maxEvents raws s (appendLinesSteps maxEvents faults lines { s with feed }).1 := by
  have himage := (appendLinesSteps_memory maxEvents faults lines { s with feed }).1
  obtain ⟨io, hdone, hsteps⟩ := appendLinesSteps_done h
  have hwritten := logged_appendLines io hs hgood hlog hfits hrun hdone
  have hlogged :
    Logged E maxEvents (appendLinesSteps maxEvents faults lines { s with feed }).1 := by
    rcases hsteps with hsteps | hsteps
    · rw [hsteps]
      exact hwritten
    · rw [hsteps]
      refine ⟨⟨hwritten.good.ring, hwritten.good.indexed⟩, ?_, fun _ => rfl⟩
      rintro bytes ⟨⟩
      exact (describes_compact hwritten.good.ring).forget
  generalize (appendLinesSteps maxEvents faults lines { s with feed }).1 = s' at himage hlogged
  rw [← himage] at hadds
  refine ⟨hadds, hlogged.good.ring.distinct, hlogged.good.indexed, ?_, hlogged.loads hmax⟩
  intro hlen raw hraw id hid hnew
  obtain ⟨added, hadded⟩ := hadds
  exact hadded.present hlen hraw hid fun hmem => hnew ((hs.good.indexed id).mpr hmem)

theorem kept_appendLinesSteps {undo : FederationFeed → FederationFeed}
    (hundo : ∀ g : FederationFeed, g.image = feed.image → Indexed g →
      FederationFeed.RolledBack s.feed g (undo g))
    (hcache : feed.cachedResetPage = s.feed.cachedResetPage ∨ feed.cachedResetPage = none)
    (h : (appendLinesSteps maxEvents faults lines { s with feed }).2 = false) :
    Kept faults lines s { (appendLinesSteps maxEvents faults lines { s with feed }).1 with
      feed := undo (appendLinesSteps maxEvents faults lines { s with feed }).1.feed } := by
  obtain ⟨himage, hids, hpage⟩ := appendLinesSteps_memory maxEvents faults lines { s with feed }
  have hstopped := stopped_appendLinesSteps h
  generalize (appendLinesSteps maxEvents faults lines { s with feed }).1 =
    s' at himage hids hpage hstopped
  have hindexed : Indexed s'.feed := by
    intro id
    rw [hids, show s'.feed.events = feed.events from congrArg Image.events himage]
    exact hgood.indexed id
  have hback := hundo s'.feed himage hindexed
  refine ⟨⟨?_, ?_, hstopped.file, hstopped.undone⟩, hback.image, fun id => ?_, ?_⟩
  · exact hback.log.logIdentity.trans (hstopped.identity.trans hlog.logIdentity)
  · rcases hstopped.logLines with hlines | hlines
    · exact .inl (hback.log.logLines.trans (hlines.trans hlog.logLines))
    · exact .inr (hback.log.logLines.trans hlines)
  · rw [hback.indexed id, hs.good.indexed id]
    show id ∈ (undo s'.feed).image.events.map _ ↔ _
    rw [hback.image]
    rfl
  · rcases hback.cache with hc | hc
    · rw [hpage] at hc
      rcases hcache with hc' | hc'
      · exact .inl (hc.trans hc')
      · exact .inr (hc.trans hc')
    · exact .inr hc

end Staged

/-- A call that threw leaves the feed as it was, and its log too when the steps are undone. A call
that returned has appended its events. -/
def AllOrNothing {α : Type} (E : Crypto) (maxEvents : Nat) (faults : Faults)
    (raws : List FederationEvent)
    (lines : List Line) (s : LoggedFeed) : LoggedFeed × Option α → Prop
  | (s', none) => Kept faults lines s s' ∧ (faults.Undone → Loads E maxEvents s')
  | (s', some _) => Appended E maxEvents raws s s'

theorem allOrNothing_append (hmax : 1 ≤ maxEvents) (hs : Logged E maxEvents s) (faults : Faults)
    (raw : JsEvent)
    (receivedAt : Lib.Js.Num) (snapshot : Option (List FederationEvent)) :
    AllOrNothing E maxEvents faults [raw.val]
    ((Op.append raw receivedAt snapshot {}).lines E maxEvents s) s
      (s.appendSteps E maxEvents raw.val receivedAt snapshot faults) := by
  rw [Op.lines]
  unfold appendSteps
  cases hstage : s.feed.stageAppend E maxEvents raw.val receivedAt snapshot with
  | none =>
    have hself : Stopped faults [] s s := ⟨rfl, .inl rfl, fun _ => .inl rfl, fun _ => rfl⟩
    exact ⟨⟨hself, rfl, fun _ => Iff.rfl, .inl rfl⟩, fun _ => hs.loads hmax⟩
  | some r =>
    obtain ⟨feed, staged⟩ := r
    have hgood := FederationFeed.good_stageAppend hs.good raw.property hstage
    obtain ⟨heffect, hlog⟩ := FederationFeed.stageAppend_cases hs.good.ring.bounded hstage
    have happended := appended_appendLinesSteps faults _ hs hgood hlog hmax
      (FederationFeed.along_stageAppend hs.good raw.property hstage)
        (FederationFeed.run_stageAppend hs.good hstage)
      (heffect.adds hs.good.ring.bounded)
    have hkept := kept_appendLinesSteps faults staged.lines hs hgood hlog
      (fun g himage hg => FederationFeed.rollback_stageAppend hmax hs.good hstage himage hg)
        heffect.cache
    dsimp only
    split
    · rename_i hempty
      rw [appendLinesSteps, if_pos hempty] at happended
      exact happended rfl
    · rcases hsteps :
        appendLinesSteps maxEvents faults staged.lines { s with feed } with ⟨s', returned⟩
      rw [hsteps] at happended hkept
      cases returned with
      | true => exact happended rfl
      | false =>
        rw [Option.map_some, Option.getD_some]
        exact ⟨hkept rfl, (hs.loads hmax).kept (hkept rfl)⟩

theorem allOrNothing_appendBatch (hmax : 1 ≤ maxEvents) (hs : Logged E maxEvents s)
    (faults : Faults)
    (raws : List JsEvent) (receivedAt : Lib.Js.Num) :
    AllOrNothing E maxEvents faults (raws.map (·.val))
    ((Op.appendBatch raws receivedAt {}).lines E maxEvents s) s
      (s.appendBatchSteps E maxEvents (raws.map (·.val)) receivedAt faults) := by
  have hraws : ∀ raw ∈ raws.map (·.val), Distinct (.obj raw.payload) := by
    intro raw hraw
    obtain ⟨r, -, rfl⟩ := List.mem_map.mp hraw
    exact r.property
  have heffect := @FederationFeed.stageAll_effect E maxEvents s.feed receivedAt hmax _ hraws hs.good
  have hcache := @FederationFeed.stageAll_cache E maxEvents s.feed receivedAt _ hraws hs.good
  rw [Op.lines]
  unfold appendBatchSteps
  rcases hstage : FederationFeed.stageAll E maxEvents receivedAt (raws.map (·.val)) s.feed with
    ⟨feed, staged, ok⟩
  rw [hstage] at heffect hcache ⊢
  cases ok with
  | false =>
    -- Nothing was written: the staged events are rolled back one by one.
    have hback := heffect.undone feed rfl heffect.good.indexed
    have hkept : Kept faults [] s { s with feed := FederationFeed.rollbackAll staged feed } := by
      refine ⟨⟨?_, .inl ?_, fun _ => .inl rfl, fun _ => rfl⟩, hback.image, fun id => ?_, ?_⟩
      · exact hback.log.logIdentity.trans heffect.log.logIdentity
      · exact hback.log.logLines.trans heffect.log.logLines
      · rw [hback.indexed id, hs.good.indexed id]
        show id ∈ (FederationFeed.rollbackAll staged feed).image.events.map _ ↔ _
        rw [hback.image]
        rfl
      · rcases hback.cache with hc | hc
        · rcases hcache with hc' | hc'
          · exact .inl (hc.trans hc')
          · exact .inr (hc.trans hc')
        · exact .inr hc
    exact ⟨hkept, (hs.loads hmax).kept hkept⟩
  | true =>
    have happended :=
      appended_appendLinesSteps faults _ hs heffect.good heffect.log hmax heffect.fits
      heffect.lines (FederationFeed.stageAll_adds hraws hs.good hstage)
    have hkept := kept_appendLinesSteps faults (batchLines staged) hs
      heffect.good heffect.log heffect.undone hcache
    rcases hsteps :
      appendLinesSteps maxEvents faults (batchLines staged) { s with feed } with ⟨s', returned⟩
    rw [show staged.flatMap (·.lines) = batchLines staged from rfl, hsteps] at happended
    rw [hsteps] at hkept
    dsimp only
    rw [hsteps]
    cases returned with
    | true => exact happended rfl
    | false => exact ⟨hkept rfl, (hs.loads hmax).kept (hkept rfl)⟩

theorem compacted_of_renamed {feed : FederationFeed} (hne : ¬lines.isEmpty = true)
    (howned : ¬faults.owned = false)
    (hrewrite : ({ s with feed } : LoggedFeed).logFileStatus = .missing ∨ feed.logLines = none)
    (hstop : faults.compaction = some .renamed) :
    (appendLinesSteps maxEvents faults lines { s with feed }).2 = false ∧
      (appendLinesSteps maxEvents faults lines { s with feed }).1.file =
        some (logBytes feed.feedId feed.nextSeq feed.snapshotDigest (feed.events.map .event)) := by
  rw [appendLinesSteps_rewrite hne howned hrewrite, hstop]
  exact ⟨rfl, rfl⟩

end Left

/-- A batch that the ring cannot hold is not in it, though the call returns. -/
theorem batch_outgrows_ring :
    ¬∀ (E : Crypto) (maxEvents : Nat) (fresh : FeedId) (raws : List JsEvent)
    (receivedAt : Lib.Js.Num) (faults : Faults),
      1 ≤ maxEvents →
      ∀ records, (((LoggedFeed.start fresh).appendBatchSteps E maxEvents
        (raws.map (·.val)) receivedAt faults).2 = some records →
        ∀ raw ∈ raws, ∀ id, federationEventId E raw.val = some id →
          id ∈ ((LoggedFeed.start fresh).appendBatchSteps E maxEvents
            (raws.map (·.val)) receivedAt faults).1.feed.events.map
            (·.eventId)) := by
  intro h
  have hreturned : ((LoggedFeed.start someFeedId).appendBatchSteps twoDigests 1
      ([emptyCancel, emptyFill].map (·.val)) (.int 0) {}).2.isSome = true := by
    decide +kernel
  have hring : ((LoggedFeed.start someFeedId).appendBatchSteps twoDigests 1
      ([emptyCancel, emptyFill].map (·.val)) (.int 0) {}).1.feed.events.map (·.eventId) =
        [emptyFillId] := by
    decide +kernel
  obtain ⟨records, hrecords⟩ := Option.isSome_iff_exists.mp hreturned
  have hid : federationEventId twoDigests emptyCancel.val = some emptyCancelId :=
    (identify_eq_some identify_emptyCancel).2.2
  have hmem := h twoDigests 1 someFeedId [emptyCancel, emptyFill] (.int 0) {}
    (le_refl 1) records hrecords emptyCancel
    List.mem_cons_self emptyCancelId hid
  rw [hring, List.mem_singleton] at hmem
  exact absurd hmem (by decide +kernel)

/-- A feed as its operations leave it: an append or a batch that throws changes nothing of it,
and one that returns has added the events that the ring lacked, in order and at consecutive
sequences. -/
theorem append_atomic {E : Crypto} {maxEvents : Nat} (hmax : 1 ≤ maxEvents) (fresh : FeedId)
    {ops : List Op}
    (hsafe : Along (step E maxEvents) (fun s _ => SafeSeq s) (.start fresh) ops)
    (receivedAt : Lib.Js.Num)
    (faults : Faults) :
    let s := run (step E maxEvents) (.start fresh) ops
    (∀ (raw : JsEvent) (snapshot : Option (List FederationEvent)),
      AllOrNothing E maxEvents faults [raw.val]
      ((Op.append raw receivedAt snapshot {}).lines E maxEvents s) s
        (s.appendSteps E maxEvents raw.val receivedAt snapshot faults)) ∧
    ∀ raws : List JsEvent,
      AllOrNothing E maxEvents faults (raws.map (·.val))
      ((Op.appendBatch raws receivedAt {}).lines E maxEvents s) s
        (s.appendBatchSteps E maxEvents (raws.map (·.val)) receivedAt faults) := by
  intro s
  have hs : Logged E maxEvents s := logged_run hmax fresh hsafe
  constructor
  · intro raw snapshot
    exact allOrNothing_append hmax hs faults raw receivedAt snapshot
  · intro raws
    exact allOrNothing_appendBatch hmax hs faults raws receivedAt

theorem append_atomic_failed_write :
    ∃ s', (run (step twoDigests 4) (.start someFeedId) (turns 1)).appendBatchSteps twoDigests 4
      [emptyFill.val] (.int 0)
        { write := some ⟨5, true⟩ } = (s', none) ∧
      (run (step twoDigests 4) (.start someFeedId) (turns 1)).feed.image = s'.feed.image ∧
      Loads twoDigests 4 s' := by
  have hsafe : Along (step twoDigests 4) (fun s _ => SafeSeq s) (.start someFeedId) (turns 1) :=
    ⟨by unfold SafeSeq; decide, trivial⟩
  have hrefused :
    ((run (step twoDigests 4) (.start someFeedId) (turns 1)).appendBatchSteps twoDigests 4
      [emptyFill.val]
      (.int 0) { write := some ⟨5, true⟩ }).2.isNone = true := by
    decide +kernel
  have hatomic :=
    (append_atomic (by decide) someFeedId hsafe (.int 0) { write := some ⟨5, true⟩ }).2 [emptyFill]
  rw [List.map_singleton] at hatomic
  rcases hsteps :
    (run (step twoDigests 4) (.start someFeedId) (turns 1)).appendBatchSteps twoDigests 4
      [emptyFill.val]
    (.int 0) { write := some ⟨5, true⟩ } with ⟨s', answer⟩
  rw [hsteps] at hrefused hatomic
  cases answer with
  | some records => cases hrefused
  | none =>
    obtain ⟨hkept, hloads⟩ := hatomic
    have hundone : ({ write := some ⟨5, true⟩ } : Faults).Undone :=
      ⟨by rintro stop ⟨⟩; rfl, nofun⟩
    exact ⟨s', rfl, hkept.image.symm, hloads hundone⟩

end QuantaSwap.Feed
