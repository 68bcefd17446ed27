import QuantaSwap.Feed.Served

/-!
# One sync pass of a peer

`peer-sync.ts`: the checks a page has to pass, and the paging loop. Every page a feed
makes passes them, and a pass goes through consecutive records.
-/

set_option autoImplicit false

namespace QuantaSwap.Feed.PeerSync

open Lib.Js Lib.Text QuantaSwap.Book

def maxPagesPerSync : Nat := 16
def maxSnapshotEvents : Nat := 6144

/-! ## What a peer sends -/

/-- `parseCursor` -/
def parseCursor (cursor : String) : Option (FeedId × Nat) :=
  (Feed.parseCursor cursor).filter fun parsed => decide (parsed.2 ≤ maxSafeInteger)

def asBoolean : Option Json → Option Bool
  | some (.bool b) => some b
  | _ => none

section Parse

variable (E : Crypto)

/-- `parseRecord`, `none` when it throws. -/
def parseRecord (eventIds : List EventId) (minimumSequence : Nat) (raw : Json) :
    Option FederationRecord :=
  match raw with
  | .obj row =>
    if hasExactKeys row ["seq", "eventId", "event"] then do
      let seq ← asSafe (Record.get row "seq")
      if seq.val < minimumSequence then none
      else
        let eventId ← (asString (Record.get row "eventId")).bind (matching tokenHashRe)
        if eventId ∈ eventIds then none
        else
          let parsed ← (Record.get row "event").bind parseFederationEvent
          let actual ← federationEventId E parsed
          if actual ≠ eventId then none else some { seq := seq.val, eventId, event := parsed }
    else none
  | _ => none

/-- The records of one collection, under the ids seen in it. -/
def parseRecords (minimumSequence : Nat) : List EventId → List Json → Option (List FederationRecord)
  | _, [] => some []
  | eventIds, entry :: entries => do
    let record ← parseRecord E eventIds minimumSequence entry
    let records ← parseRecords minimumSequence
      (FederationFeed.addId eventIds record.eventId) entries
    return record :: records

def contiguous : List FederationRecord → Bool
  | a :: b :: records => decide (b.seq = a.seq + 1) && contiguous (b :: records)
  | _ => true

/-- `row["snapshot"]`, which only a reset has. -/
def parseSnapshot : Option Json → Option (Option (List FederationRecord))
  | none => some none
  | some raw => do
    let entries ← asArray raw
    if maxSnapshotEvents < entries.length then none
    else (parseRecords E 0 [] entries).map some

/-- The sequences of a page agree with its cursor. -/
def inStep (sequence : Nat) (p : FederationPage) : Bool :=
  if p.reset then !(p.snapshot.any fun records => records.any fun entry => entry.seq ≠ sequence)
  else contiguous p.events && !(p.events.getLast?.any fun last => sequence ≠ last.seq)

def pageKeys (reset : Bool) : List String :=
  if reset then ["reset", "cursor", "hasMore", "events", "snapshot"] else
    ["reset", "cursor", "hasMore", "events"]

/-- `parseFederationPage`, `none` when it throws. -/
def parseFederationPage (raw : Json) : Option FederationPage :=
  match raw with
  | .obj row => do
    let reset ← asBoolean (Record.get row "reset")
    if reset ≠ (Record.get row "snapshot").isSome then none
    else if !hasExactKeys row (pageKeys reset) then none
    else
      let cursor ← asString (Record.get row "cursor")
      let parsed ← parseCursor cursor
      let hasMore ← asBoolean (Record.get row "hasMore")
      let entries ← (Record.get row "events").bind asArray
      if 256 < entries.length then none
      else if reset ∧ hasMore then none
      else if reset ∧ entries.length > 0 then none
      else if !reset ∧ hasMore ∧ entries.length = 0 then none
      else
        let events ← parseRecords E 1 [] entries
        let snapshot ← parseSnapshot E (Record.get row "snapshot")
        let page : FederationPage := { reset, cursor, hasMore, events, snapshot }
        if inStep parsed.2 page then some page else none
  | _ => none

end Parse

/-- `validateFederationPageProgress`, `false` when it throws. -/
def validateFederationPageProgress (requestedCursor : Option String) (p : FederationPage) : Bool :=
  p.reset ||
    match requestedCursor.bind parseCursor, parseCursor p.cursor with
    | some (requested, n), some (returned, m) =>
      decide (requested = returned) &&
        match p.events.head? with
        | none => decide (m = n) && !p.hasMore
        | some first => decide (n ≠ maxSafeInteger) && decide (first.seq = n + 1) && decide (n < m)
    | _, _ => false

/-! ## The paging loop -/

/-- What comes of a page's records: `applyRecord` takes them all, asks for a reset of this peer,
or throws, as the deadline and the quota of rejected events do. -/
inductive Application where
  | applied
  | forcedReset
  | thrown

/-- What one turn of the loop meets: the JSON of the response, if there is one, and its records'
fate. -/
structure Turn where
  body : Option Json
  application : Application

inductive Outcome where
  | complete
  | forcedReset
  | thrown
deriving DecidableEq

/-- `syncPeer` between two turns. -/
structure Pass where
  /-- The cursor that is kept for the peer. -/
  cursor : Option String
  seenEventIds : List EventId := []
  /-- The pages whose records were applied so far. -/
  applied : List FederationPage := []

def pageRecords (p : FederationPage) : List FederationRecord :=
  if p.reset then p.snapshot.getD [] else p.events

def pageIds (p : FederationPage) : List EventId := (pageRecords p).map (·.eventId)

/-- An id repeats, in a page or across pages. -/
def repeats : List EventId → List EventId → Bool
  | _, [] => false
  | seen, id :: ids => decide (id ∈ seen) || repeats (FederationFeed.addId seen id) ids

section Sync

variable (E : Crypto)

/-- One turn of the loop. It returns when the pass is over. -/
def syncPage (pageNumber : Nat) (turn : Turn) (pass : Pass) : Pass × Option Outcome :=
  match turn.body.bind (parseFederationPage E) with
  | none => (pass, some .thrown)
  | some page =>
    if !validateFederationPageProgress pass.cursor page then (pass, some .thrown)
    else if page.reset ∧ pageNumber > 0 then (pass, some .thrown)
    else if repeats pass.seenEventIds (pageIds page) then (pass, some .thrown)
    else match turn.application with
      | .thrown => (pass, some .thrown)
      | .forcedReset => ({ pass with cursor := none }, some .forcedReset)
      | .applied =>
        ({ cursor := some page.cursor
           seenEventIds := (pageIds page).foldl FederationFeed.addId pass.seenEventIds
           applied := pass.applied ++ [page] },
          if page.hasMore then none else some .complete)

/-- The rest of the loop, from `pageNumber` on. -/
def syncPages (peer : Pass → Turn) (pageNumber : Nat) : Nat → Pass → Pass × Outcome
  | 0, pass => (pass, .thrown)
  | left + 1, pass =>
    match syncPage E pageNumber (peer pass) pass with
    | (pass, some outcome) => (pass, outcome)
    | (pass, none) => syncPages peer (pageNumber + 1) left pass

/-- `syncPeer`, from the cursor kept for the peer. What the peer answers may depend on the pass. -/
def syncPeer (peer : Pass → Turn) (cursor : Option String) : Pass × Outcome :=
  syncPages E peer 0 maxPagesPerSync { cursor }

end Sync

/-! ## What the checks let through -/

section Accepted

variable {E : Crypto} {raw : Json} {p : FederationPage} {k : Nat} {seen : List EventId}

theorem parseCursor_eq_some {cursor : String} {id : FeedId} {n : Nat}
    (h : parseCursor cursor = some (id, n)) :
    cursor = cursorOf id n ∧ n ≤ maxSafeInteger := by
  obtain ⟨hparse, hsafe⟩ := Option.filter_eq_some_iff.mp h
  exact ⟨Feed.parseCursor_eq_some hparse, of_decide_eq_true hsafe⟩

theorem mem_addId {ids : List EventId} {id x : EventId} :
    x ∈ FederationFeed.addId ids id ↔ x ∈ ids ∨ x = id := by
  unfold FederationFeed.addId
  split
  · constructor
    · exact Or.inl
    · rintro (h | rfl)
      · exact h
      · assumption
  · rw [List.mem_append, List.mem_singleton]

theorem mem_foldl_addId {ids seen : List EventId} {x : EventId} :
    x ∈ ids.foldl FederationFeed.addId seen ↔ x ∈ seen ∨ x ∈ ids := by
  induction ids generalizing seen with
  | nil => simp
  | cons id ids ih => rw [List.foldl_cons, ih, mem_addId, List.mem_cons, or_assoc]

theorem parseRecord_eq_some {r : FederationRecord} (h : parseRecord E seen k raw = some r) :
    r.eventId ∉ seen ∧ k ≤ r.seq ∧ federationEventId E r.event = some r.eventId := by
  unfold parseRecord at h
  split at h
  · split at h
    · obtain ⟨seq, -, h⟩ := Option.bind_eq_some_iff.mp h
      split at h
      · cases h
      · rename_i hseq
        obtain ⟨eventId, -, h⟩ := Option.bind_eq_some_iff.mp h
        split at h
        · cases h
        · rename_i hnew
          obtain ⟨parsed, -, h⟩ := Option.bind_eq_some_iff.mp h
          obtain ⟨actual, hactual, h⟩ := Option.bind_eq_some_iff.mp h
          split at h
          · cases h
          · rename_i hsame
            rw [Option.some.injEq] at h
            subst h
            exact ⟨hnew, Nat.not_lt.mp hseq, by rw [hactual, not_not.mp hsame]⟩
    · cases h
  · cases h

theorem parseRecords_eq_some {entries : List Json} {records : List FederationRecord}
    (h : parseRecords E k seen entries = some records) :
    records.length = entries.length ∧ (records.map (·.eventId)).Nodup ∧
    ∀ r ∈ records, r.eventId ∉ seen := by
  induction entries generalizing seen records with
  | nil =>
    rw [parseRecords, Option.some.injEq] at h
    subst h
    exact ⟨rfl, List.nodup_nil, nofun⟩
  | cons entry entries ih =>
    rw [parseRecords] at h
    obtain ⟨r, hr, h⟩ := Option.bind_eq_some_iff.mp h
    obtain ⟨rs, hrs, h⟩ := Option.bind_eq_some_iff.mp h
    rw [Option.pure_def, Option.some.injEq] at h
    subst h
    obtain ⟨hlength, hnodup, hnew⟩ := ih hrs
    refine ⟨congrArg Nat.succ hlength, List.nodup_cons.mpr ⟨fun hmem => ?_, hnodup⟩, fun x hx => ?_⟩
    · obtain ⟨x, hx, heq⟩ := List.mem_map.mp hmem
      exact hnew x hx (mem_addId.mpr (Or.inr heq))
    · rcases List.mem_cons.mp hx with rfl | hx
      · exact (parseRecord_eq_some hr).1
      · exact fun hseen => hnew x hx (mem_addId.mpr (Or.inl hseen))

theorem seqs_of_contiguous {r : FederationRecord} {records : List FederationRecord}
    (h : contiguous (r :: records) = true) :
    (r :: records).map (·.seq) = List.range' r.seq (records.length + 1) := by
  induction records generalizing r with
  | nil => rfl
  | cons x records ih =>
    rw [contiguous, Bool.and_eq_true, decide_eq_true_eq] at h
    rw [List.map_cons, ih h.2, h.1, List.length_cons, ← List.range'_succ]

theorem parseSnapshot_eq_some {found : Option Json} {snapshot : Option (List FederationRecord)}
    (h : parseSnapshot E found = some snapshot) : ((snapshot.getD []).map (·.eventId)).Nodup := by
  unfold parseSnapshot at h
  split at h
  · rw [Option.some.injEq] at h
    subst h
    exact List.nodup_nil
  · obtain ⟨entries, -, h⟩ := Option.bind_eq_some_iff.mp h
    split at h
    · cases h
    · obtain ⟨records, hrecords, rfl⟩ := Option.map_eq_some_iff.mp h
      exact (parseRecords_eq_some hrecords).2.1

/-- A page as `parseFederationPage` returns it. -/
structure Parsed (p : FederationPage) : Prop where
  cursor : ∃ parsed, parseCursor p.cursor = some parsed ∧ inStep parsed.2 p = true
  alone : p.reset = true → p.hasMore = false ∧ p.events = []
  more : p.reset = false → p.hasMore = true → p.events ≠ []
  once : (pageIds p).Nodup

theorem parseFederationPage_eq_some (h : parseFederationPage E raw = some p) : Parsed p := by
  unfold parseFederationPage at h
  split at h
  · obtain ⟨reset, -, h⟩ := Option.bind_eq_some_iff.mp h
    split at h
    · cases h
    · split at h
      · cases h
      · obtain ⟨cursor, -, h⟩ := Option.bind_eq_some_iff.mp h
        obtain ⟨parsed, hparsed, h⟩ := Option.bind_eq_some_iff.mp h
        obtain ⟨hasMore, -, h⟩ := Option.bind_eq_some_iff.mp h
        obtain ⟨entries, -, h⟩ := Option.bind_eq_some_iff.mp h
        split at h
        · cases h
        · split at h
          · cases h
          · split at h
            · cases h
            · split at h
              · cases h
              · rename_i hsingle hbare hempty
                obtain ⟨events, hevents, h⟩ := Option.bind_eq_some_iff.mp h
                obtain ⟨snapshot, hsnapshot, h⟩ := Option.bind_eq_some_iff.mp h
                obtain ⟨hlength, honce, -⟩ := parseRecords_eq_some hevents
                dsimp only at h
                split at h
                · rename_i hstep
                  rw [Option.some.injEq] at h
                  subst h
                  refine ⟨⟨parsed, hparsed, hstep⟩, fun hreset => ⟨?_, ?_⟩,
                    fun hreset hmore hnil => ?_, ?_⟩
                  · exact Bool.eq_false_iff.mpr fun hmore => hsingle ⟨hreset, hmore⟩
                  · refine List.eq_nil_of_length_eq_zero (hlength.trans ?_)
                    exact Nat.eq_zero_of_not_pos fun hpos => hbare ⟨hreset, hpos⟩
                  · refine hempty ⟨by rw [show reset = false from hreset]; rfl, hmore, ?_⟩
                    rw [← hlength, show events = [] from hnil, List.length_nil]
                  · unfold pageIds pageRecords
                    split
                    · exact parseSnapshot_eq_some hsnapshot
                    · exact honce
                · cases h
  · cases h

/-- A page that goes on behind the record `n` of the feed `id`, up to `m`. -/
structure Follows (id : FeedId) (n : Nat) (p : FederationPage) (m : Nat) : Prop where
  cursor : p.cursor = cursorOf id m
  le : n ≤ m
  seqs : p.events.map (·.seq) = List.range' (n + 1) (m - n)
  more : p.hasMore = true → n < m

theorem Follows.advances {id : FeedId} {n m : Nat} (h : Follows id n p m) (hne : p.events ≠ []) :
    n < m := by
  have hlength := congrArg List.length h.seqs
  rw [List.length_map, List.length_range'] at hlength
  have := List.length_pos_iff.mpr hne
  omega

theorem follows_of_accepted {requestedCursor : Option String} (hp : Parsed p)
    (hprogress : validateFederationPageProgress requestedCursor p = true)
    (hreset : p.reset = false) :
    ∃ id n m, requestedCursor = some (cursorOf id n) ∧ Follows id n p m := by
  obtain ⟨⟨id, m⟩, hcursor, hstep⟩ := hp.cursor
  obtain ⟨htext, -⟩ := parseCursor_eq_some hcursor
  rw [inStep, hreset, if_neg Bool.false_ne_true, Bool.and_eq_true] at hstep
  obtain ⟨hcontiguous, hlast⟩ := hstep
  rw [validateFederationPageProgress, hreset, Bool.false_or] at hprogress
  split at hprogress
  · rename_i requested n returned m' hrequested hreturned
    rw [hcursor, Option.some.injEq, Prod.mk.injEq] at hreturned
    obtain ⟨rfl, rfl⟩ := hreturned
    rw [Bool.and_eq_true, decide_eq_true_eq] at hprogress
    obtain ⟨rfl, hprogress⟩ := hprogress
    obtain ⟨text, rfl, hparse⟩ := Option.bind_eq_some_iff.mp hrequested
    refine ⟨requested, n, m, by rw [(parseCursor_eq_some hparse).1], ?_⟩
    cases hevents : p.events with
    | nil =>
      rw [hevents, List.head?_nil] at hprogress
      dsimp only at hprogress
      rw [Bool.and_eq_true, decide_eq_true_eq] at hprogress
      obtain ⟨rfl, hmore⟩ := hprogress
      refine ⟨htext, le_refl _, by rw [hevents, Nat.sub_self]; rfl, fun h => ?_⟩
      rw [h] at hmore
      cases hmore
    | cons r records =>
      rw [hevents, List.head?_cons] at hprogress
      dsimp only at hprogress
      simp only [Bool.and_eq_true, decide_eq_true_eq] at hprogress
      obtain ⟨⟨-, hfirst⟩, hlt⟩ := hprogress
      have hseqs := seqs_of_contiguous (hevents ▸ hcontiguous)
      have hend : m = n + 1 + records.length := by
        have hlast' : (p.events.map (·.seq)).getLast? = some (n + 1 + records.length) := by
          rw [hevents, hseqs, hfirst, List.getLast?_range', if_neg (by omega)]
          rfl
        rw [List.getLast?_map, Option.map_eq_some_iff] at hlast'
        obtain ⟨x, hx, hseq⟩ := hlast'
        rw [hx] at hlast
        simpa [hseq] using hlast
      refine ⟨htext, by omega, ?_, fun _ => hlt⟩
      rw [hevents, hseqs, hfirst, show records.length + 1 = m - n by omega]
  · cases hprogress

/-- Pages that both functions accept, each against the cursor of the one before. -/
inductive Accepted (E : Crypto) (cursor : Option String) :
    List FederationPage → Option String → Prop
  | start : Accepted E cursor [] cursor
  | page {pages : List FederationPage} {requested : Option String}
    (h : Accepted E cursor pages requested)
      (raw : Json) (p : FederationPage) (hparse : parseFederationPage E raw = some p)
      (hprogress : validateFederationPageProgress requested p = true) :
        Accepted E cursor (pages ++ [p]) (some p.cursor)

/-- Pages without a reset have the records behind the cursor that they start from, in order. -/
theorem Accepted.follows {id : FeedId} {n : Nat} {pages : List FederationPage}
    {last : Option String}
    (h : Accepted E (some (cursorOf id n)) pages last) (hreset : ∀ p ∈ pages, p.reset = false) :
    ∃ m, n ≤ m ∧ last = some (cursorOf id m) ∧
      (pages.flatMap (·.events)).map (·.seq) = List.range' (n + 1) (m - n) := by
  induction h with
  | start => exact ⟨n, le_refl n, rfl, by rw [Nat.sub_self]; rfl⟩
  | page h raw p hparse hprogress ih =>
    obtain ⟨m, hle, rfl, hseqs⟩ := ih fun q hq => hreset q (List.mem_append_left _ hq)
    obtain ⟨id', m', k, heq, hfollows⟩ :=
      follows_of_accepted (parseFederationPage_eq_some hparse) hprogress
      (hreset p (List.mem_append_right _ List.mem_cons_self))
    obtain ⟨rfl, rfl⟩ := cursorOf_injective (Option.some.inj heq)
    refine ⟨k, hle.trans hfollows.le, by rw [hfollows.cursor], ?_⟩
    have hmk := hfollows.le
    rw [List.flatMap_append, List.flatMap_singleton, List.map_append, hseqs, hfollows.seqs,
      show m + 1 = n + 1 + (m - n) by omega, List.range'_append_1, show m - n + (k - m) = k - n by
        omega]

end Accepted

/-! ## One pass -/

section Sync

variable {E : Crypto} {cursor : Option String} {pageNumber : Nat} {turn : Turn} {pass pass' : Pass}
  {outcome : Option Outcome}

theorem repeats_eq_false {seen ids : List EventId} (h : repeats seen ids = false) :
    ids.Nodup ∧ ∀ id ∈ ids, id ∉ seen := by
  induction ids generalizing seen with
  | nil => exact ⟨List.nodup_nil, nofun⟩
  | cons id ids ih =>
    rw [repeats, Bool.or_eq_false_iff, decide_eq_false_iff_not] at h
    obtain ⟨hid, hrest⟩ := h
    obtain ⟨hnodup, hnew⟩ := ih hrest
    refine ⟨List.nodup_cons.mpr ⟨fun hmem => hnew id hmem (mem_addId.mpr (Or.inr rfl)), hnodup⟩,
      fun x hx => ?_⟩
    rcases List.mem_cons.mp hx with rfl | hx
    · exact hid
    · exact fun hseen => hnew x hx (mem_addId.mpr (Or.inl hseen))

/-- The pass after a page whose records were applied. -/
def Pass.took (pass : Pass) (page : FederationPage) : Pass where
  cursor := some page.cursor
  seenEventIds := (pageIds page).foldl FederationFeed.addId pass.seenEventIds
  applied := pass.applied ++ [page]

/-- What a turn can do. -/
inductive Turned (E : Crypto) (pageNumber : Nat) (pass : Pass) : Pass → Option Outcome → Prop
  | thrown : Turned E pageNumber pass pass (some .thrown)
  | forcedReset : Turned E pageNumber pass { pass with cursor := none } (some .forcedReset)
  | took (raw : Json) (page : FederationPage) (hparse : parseFederationPage E raw = some page)
      (hprogress : validateFederationPageProgress pass.cursor page = true)
      (hreset : 0 < pageNumber → page.reset = false)
        (hnew : repeats pass.seenEventIds (pageIds page) = false) :
      Turned E pageNumber pass (pass.took page) (if page.hasMore then none else some .complete)

theorem turned (h : syncPage E pageNumber turn pass = (pass', outcome)) :
    Turned E pageNumber pass pass' outcome := by
  unfold syncPage at h
  split at h
  · cases h
    exact .thrown
  · rename_i page hpage
    obtain ⟨raw, -, hparse⟩ := Option.bind_eq_some_iff.mp hpage
    split at h
    · cases h
      exact .thrown
    · rename_i hprogress
      split at h
      · cases h
        exact .thrown
      · rename_i hreset
        split at h
        · cases h
          exact .thrown
        · rename_i hnew
          split at h
          · cases h
            exact .thrown
          · cases h
            exact .forcedReset
          · cases h
            refine .took raw page hparse (by simpa using hprogress) (fun hpos => ?_)
              (Bool.eq_false_iff.mpr hnew)
            exact Bool.eq_false_iff.mpr fun h => hreset ⟨h, hpos⟩

/-- The pages a pass has applied. -/
structure Paging (E : Crypto) (cursor : Option String) (pass : Pass) : Prop where
  accepted : ∃ last, Accepted E cursor pass.applied last ∧ (pass.cursor = last ∨ pass.cursor = none)
  incremental : ∀ p ∈ pass.applied.tail, p.reset = false
  more : ∀ p ∈ pass.applied.dropLast, p.hasMore = true
  seen : ∀ id, id ∈ pass.seenEventIds ↔ id ∈ pass.applied.flatMap pageIds
  once : (pass.applied.flatMap pageIds).Nodup

/-- A pass that goes on: every page so far announced more. -/
structure Going (E : Crypto) (cursor : Option String) (pageNumber : Nat) (pass : Pass) : Prop
    extends Paging E cursor pass where
  kept : Accepted E cursor pass.applied pass.cursor
  count : pass.applied.length = pageNumber
  unfinished : ∀ p ∈ pass.applied, p.hasMore = true

theorem Going.turned (h : Going E cursor pageNumber pass)
    (hturned : Turned E pageNumber pass pass' outcome) :
    Paging E cursor pass' ∧ pass'.applied.length ≤ pageNumber + 1 ∧
      (outcome = some .complete → ∃ p, pass'.applied.getLast? = some p ∧ p.hasMore = false) ∧
      (outcome = none → Going E cursor (pageNumber + 1) pass') := by
  cases hturned with
  | thrown => exact ⟨h.toPaging, by rw [h.count]; omega, nofun, nofun⟩
  | forcedReset =>
    refine ⟨⟨⟨_, h.kept, Or.inr rfl⟩, h.incremental, h.more, h.seen, h.once⟩, ?_, nofun, nofun⟩
    show pass.applied.length ≤ _
    rw [h.count]
    omega
  | took raw page hparse hprogress hreset hnew =>
    have hkept : Accepted E cursor (pass.took page).applied (pass.took page).cursor :=
      h.kept.page raw page hparse hprogress
    obtain ⟨hnodup, hfresh⟩ := repeats_eq_false hnew
    have hids : (pass.took page).applied.flatMap pageIds =
      pass.applied.flatMap pageIds ++ pageIds page := by
      rw [Pass.took, List.flatMap_append, List.flatMap_singleton]
    have hlength : (pass.took page).applied.length = pageNumber + 1 := by
      rw [Pass.took, List.length_append, List.length_singleton, h.count]
    have hpaging : Paging E cursor (pass.took page) := by
      refine ⟨⟨_, hkept, Or.inl rfl⟩, fun p hp => ?_, fun p hp => ?_, fun id => ?_, ?_⟩
      · have hcount := h.count
        rw [Pass.took] at hp
        -- Only the first page of a pass may be a reset.
        cases happlied : pass.applied with
        | nil =>
          rw [happlied] at hp
          cases hp
        | cons q qs =>
          rw [happlied, List.cons_append, List.tail_cons, List.mem_append, List.mem_singleton] at hp
          rw [happlied, List.length_cons] at hcount
          rcases hp with hp | rfl
          · refine h.incremental p ?_
            rw [happlied]
            exact hp
          · exact hreset (by omega)
      · rw [Pass.took, List.dropLast_concat] at hp
        exact h.unfinished p hp
      · rw [hids, List.mem_append, Pass.took, mem_foldl_addId, h.seen]
      · rw [hids, List.nodup_append']
        exact ⟨h.once, hnodup, fun id hid hpage => hfresh id hpage ((h.seen id).mpr hid)⟩
    refine ⟨hpaging, le_of_eq hlength, fun hcomplete => ⟨page, List.getLast?_concat, ?_⟩,
      fun hnone =>
      ⟨hpaging, hkept, hlength, fun p hp => ?_⟩⟩
    · cases hmore : page.hasMore with
      | false => rfl
      | true =>
        rw [hmore] at hcomplete
        cases hcomplete
    · rw [Pass.took, List.mem_append, List.mem_singleton] at hp
      rcases hp with hp | rfl
      · exact h.unfinished p hp
      · cases hmore : p.hasMore with
        | true => rfl
        | false =>
          rw [hmore] at hnone
          cases hnone

theorem paging_syncPages (peer : Pass → Turn) (left : Nat) (h : Going E cursor pageNumber pass)
    {end_ : Outcome}
    (hrun : syncPages E peer pageNumber left pass = (pass', end_)) :
    Paging E cursor pass' ∧ pass'.applied.length ≤ pageNumber + left ∧
      (end_ = .complete → ∃ p, pass'.applied.getLast? = some p ∧ p.hasMore = false) := by
  induction left generalizing pageNumber pass with
  | zero =>
    cases hrun
    exact ⟨h.toPaging, le_of_eq h.count, nofun⟩
  | succ left ih =>
    rw [syncPages] at hrun
    rcases hpage : syncPage E pageNumber (peer pass) pass with ⟨next, outcome⟩
    obtain ⟨hpaging, hlength, hcomplete, hgoing⟩ := h.turned (turned hpage)
    rw [hpage] at hrun
    cases outcome with
    | some outcome =>
      cases hrun
      exact ⟨hpaging, by omega, fun heq => hcomplete (congrArg some heq)⟩
    | none =>
      obtain ⟨hp, hl, hc⟩ := ih (hgoing rfl) hrun
      exact ⟨hp, by omega, hc⟩

end Sync

end QuantaSwap.Feed.PeerSync
