import QuantaSwap.Feed.Responses

/-!
# What the pages of a ring hold

A feed numbers its records from `lo` on, and the ring is the end of that history.
An incremental page is a stretch of the history behind its cursor.
-/

set_option autoImplicit false

namespace QuantaSwap.Feed

open Lib.Js QuantaSwap.Book

/-- The history with a published record. A sequence that it has belongs to a replay. -/
def note (history : List FederationRecord) (r : FederationRecord) : List FederationRecord :=
  if r.seq ∈ history.map (·.seq) then history else history ++ [r]

/-- The records of a feed: those its ring started with, and those published since. -/
def historyOf (base published : List FederationRecord) : List FederationRecord :=
  published.foldl note base

/-- The records behind the sequence `n`, up to `m`. -/
def stretch (lo : Nat) (history : List FederationRecord) (n m : Nat) : List FederationRecord :=
  (history.drop (n + 1 - lo)).take (m - n)

/-- The records of a ring, as a page shows them. -/
def FederationFeed.records (f : FederationFeed) : List FederationRecord :=
  f.events.map (·.toFederationRecord)

/-- A ring is the end of a history that is numbered from `lo` on. -/
structure Window (lo : Nat) (history : List FederationRecord) (f : FederationFeed) : Prop where
  positive : 1 ≤ lo
  nextSeq : f.nextSeq = lo + history.length
  numbered : history.map (·.seq) = List.range' lo history.length
  ring : f.records <:+ history
  /-- A ring that is empty was never appended to. -/
  started : f.events = [] → history = []

section History

variable {lo : Nat} {history base published : List FederationRecord} {r : FederationRecord}

theorem mem_historyOf {x : FederationRecord} (h : x ∈ historyOf base published) :
    x ∈ base ++ published := by
  unfold historyOf at h
  induction published generalizing base with
  | nil => simpa using h
  | cons p published ih =>
    rw [List.foldl_cons] at h
    have := ih h
    rw [List.mem_append] at this
    rcases this with hx | hx
    · unfold note at hx
      split at hx
      · exact List.mem_append_left _ hx
      · rw [List.mem_append, List.mem_singleton] at hx
        rcases hx with hx | rfl
        · exact List.mem_append_left _ hx
        · exact List.mem_append_right _ List.mem_cons_self
    · exact List.mem_append_right _ (List.mem_cons_of_mem _ hx)

theorem historyOf_append (more : List FederationRecord) :
    historyOf base (published ++ more) = more.foldl note (historyOf base published) :=
      List.foldl_append

end History

/-! ## Stretches -/

section Stretch

variable {lo n m k : Nat} {history : List FederationRecord}

theorem filter_seq {α : Type} (seq : α → Nat) {a : Nat} {l : List α}
    (h : l.map seq = List.range' a l.length) (n : Nat) :
    l.filter (fun x => n < seq x) = l.drop (n + 1 - a) := by
  induction l generalizing a with
  | nil => simp
  | cons x l ih =>
    rw [List.map_cons, List.length_cons, List.range'_succ, List.cons.injEq] at h
    have hrest := ih h.2
    rw [List.filter_cons]
    split
    · rename_i hx
      rw [decide_eq_true_eq, h.1] at hx
      rw [hrest, show n + 1 - (a + 1) = 0 by omega, show n + 1 - a = 0 by omega]
      rfl
    · rename_i hx
      rw [decide_eq_true_eq, h.1] at hx
      rw [hrest, show n + 1 - a = n + 1 - (a + 1) + 1 by omega, List.drop_succ_cons]

theorem seq_stretch (h : history.map (·.seq) = List.range' lo history.length) (hlo : lo ≤ n + 1)
    (hnm : n ≤ m)
    (hm : m < lo + history.length) :
    (stretch lo history n m).map (·.seq) = List.range' (n + 1) (m - n) := by
  rw [stretch, List.map_take, List.map_drop, h, List.drop_range',
    List.take_range'_of_length_ge (by omega)]
  congr 1
  omega

theorem length_stretch (hlo : lo ≤ n + 1) (hm : m < lo + history.length) :
    (stretch lo history n m).length = m - n := by
  rw [stretch, List.length_take, List.length_drop]
  omega

theorem stretch_append (hlo : lo ≤ n + 1) (hnm : n ≤ m) (hmk : m ≤ k) :
    stretch lo history n m ++ stretch lo history m k = stretch lo history n k := by
  rw [stretch, stretch, stretch, show k - n = (m - n) + (k - m) by omega, List.take_add,
    List.drop_drop,
    show n + 1 - lo + (m - n) = m + 1 - lo by omega]

theorem stretch_of_prefix {history' : List FederationRecord} (h : history <+: history')
    (hlo : lo ≤ n + 1)
    (hm : m < lo + history.length) : stretch lo history' n m = stretch lo history n m := by
  obtain ⟨more, rfl⟩ := h
  rw [stretch, stretch, List.drop_append, List.take_append_of_le_length]
  rw [List.length_drop]
  omega

theorem seq_getElem? (h : history.map (·.seq) = List.range' lo history.length) {i : Nat}
    {r : FederationRecord}
    (hi : history[i]? = some r) : r.seq = lo + i := by
  have hlt := (List.getElem?_eq_some_iff.mp hi).1
  have hi' : (history.map (·.seq))[i]? = some r.seq := by rw [List.getElem?_map, hi]; rfl
  rw [h, List.getElem?_range' hlt, Option.some.injEq] at hi'
  omega

theorem mem_stretch (h : history.map (·.seq) = List.range' lo history.length) (hlo : lo ≤ n + 1)
    (r : FederationRecord) : r ∈ stretch lo history n m ↔ r ∈ history ∧ n < r.seq ∧ r.seq ≤ m := by
  constructor
  · intro hr
    have hmem := List.mem_of_mem_drop (List.mem_of_mem_take hr)
    obtain ⟨i, hi⟩ := List.mem_iff_getElem?.mp hr
    have hlt := (List.getElem?_eq_some_iff.mp hi).1
    rw [stretch, List.length_take] at hlt
    rw [stretch, List.getElem?_take_of_lt (by omega), List.getElem?_drop] at hi
    have hseq := seq_getElem? h hi
    exact ⟨hmem, by omega, by omega⟩
  · rintro ⟨hr, hn, hm⟩
    obtain ⟨i, hi⟩ := List.mem_iff_getElem?.mp hr
    have hseq := seq_getElem? h hi
    refine List.mem_iff_getElem?.mpr ⟨i - (n + 1 - lo), ?_⟩
    rw [stretch, List.getElem?_take_of_lt (by omega), List.getElem?_drop,
      show n + 1 - lo + (i - (n + 1 - lo)) = i by omega]
    exact hi

end Stretch

/-! ## Incremental pages -/

/-- A page that goes on from the sequence `n` of the feed `id` to `m`. It says that there is no more
only when it goes to `latest`. -/
structure Continuation (lo : Nat) (history : List FederationRecord) (id : FeedId) (n latest : Nat)
    (p : FederationPage)
    (m : Nat) : Prop where
  start : lo ≤ n + 1
  le : n ≤ m
  known : m < lo + history.length
  reset : p.reset = false
  cursor : p.cursor = cursorOf id m
  events : p.events = stretch lo history n m
  complete : p.hasMore = false → latest ≤ m
  advances : p.hasMore = true → n < m

namespace Continuation

variable {lo : Nat} {history history' : List FederationRecord} {id : FeedId} {n latest m : Nat}
  {p : FederationPage}

theorem mono (h : Continuation lo history id n latest p m) (hpre : history <+: history') :
    Continuation lo history' id n latest p m where
  start := h.start
  le := h.le
  known := Nat.lt_of_lt_of_le h.known (Nat.add_le_add_left hpre.length_le lo)
  reset := h.reset
  cursor := h.cursor
  events := by rw [h.events, stretch_of_prefix hpre h.start h.known]
  complete := h.complete
  advances := h.advances

theorem weaken {latest' : Nat} (h : Continuation lo history id n latest p m)
    (hle : latest' ≤ latest) :
    Continuation lo history id n latest' p m :=
  { h with complete := fun hmore => hle.trans (h.complete hmore) }

theorem head?_seq (h : Continuation lo history id n latest p m)
    (hseqs : history.map (·.seq) = List.range' lo history.length) {r : FederationRecord}
    (hr : p.events.head? = some r) :
    r.seq = n + 1 := by
  have hmap := seq_stretch hseqs h.start h.le h.known
  rw [← h.events] at hmap
  cases hevents : p.events with
  | nil =>
    rw [hevents] at hr
    cases hr
  | cons e es =>
    rw [hevents, List.head?_cons, Option.some.injEq] at hr
    subst hr
    obtain ⟨k, hk⟩ : ∃ k, m - n = k + 1 := by
      refine ⟨m - n - 1, ?_⟩
      have := congrArg List.length hmap
      rw [hevents, List.length_map, List.length_cons, List.length_range'] at this
      omega
    rw [hevents, hk, List.map_cons, List.range'_succ, List.cons.injEq] at hmap
    exact hmap.1

end Continuation

namespace FederationFeed

theorem select_eq_take (limit bytes : Nat) (first : Bool)
    (available : List PersistedFederationRecord) :
    ∃ k, k ≤ available.length ∧ select limit bytes first available = available.take k ∧
      (first = true → 1 ≤ limit → available ≠ [] → 1 ≤ k) := by
  induction available generalizing limit bytes first with
  | nil => exact ⟨0, le_refl 0, rfl, fun _ _ hne => absurd rfl hne⟩
  | cons entry available ih =>
    rw [select]
    split
    · rename_i hzero
      exact ⟨0, Nat.zero_le _, rfl, fun _ hone => by omega⟩
    · split
      · rename_i hlarge
        refine ⟨0, Nat.zero_le _, rfl, fun hfirst => ?_⟩
        rw [hfirst] at hlarge
        cases hlarge
      · obtain ⟨k, hk, heq, -⟩ := ih (limit - 1)
          (bytes + (Lib.Utf8.byteLength (stringify (recordJson entry.toFederationRecord)) + 1))
            false
        refine ⟨k + 1, Nat.succ_le_succ hk, ?_, fun _ _ _ => Nat.succ_pos k⟩
        rw [heq, List.take_succ_cons]

theorem getLast?_stretch {lo n m : Nat} {history : List FederationRecord}
    (h : history.map (·.seq) = List.range' lo history.length) (hlo : lo ≤ n + 1) (hnm : n ≤ m)
    (hm : m < lo + history.length) :
    (((stretch lo history n m).getLast?).map (·.seq)).getD n = m := by
  rw [← List.getLast?_map, seq_stretch h hlo hnm hm, List.getLast?_range']
  split <;> simp <;> omega

end FederationFeed

namespace Window

open FederationFeed

variable {lo : Nat} {history : List FederationRecord} {f : FederationFeed}

theorem split (h : Window lo history f) : ∃ older, history = older ++ f.records ∧
    (f.events.head?.map (·.seq)).getD f.nextSeq = lo + older.length ∧
    f.records.map (·.seq) = List.range' (lo + older.length) f.records.length := by
  obtain ⟨older, holder⟩ := h.ring
  have hseqs : f.records.map (·.seq) = List.range' (lo + older.length) f.records.length := by
    have := congrArg (List.drop older.length) h.numbered
    rw [← holder, List.map_append, List.length_append, List.drop_range', Nat.mul_one,
      Nat.add_sub_cancel_left] at this
    rw [← this, List.drop_left' (List.length_map _)]
  refine ⟨older, holder.symm, ?_, hseqs⟩
  rw [h.nextSeq, ← holder, List.length_append]
  unfold records at hseqs ⊢
  cases hevents : f.events with
  | nil => simp
  | cons e es =>
    rw [hevents, List.map_cons, List.map_cons, List.length_cons, List.range'_succ,
      List.cons.injEq] at hseqs
    simpa using hseqs.1

theorem available (h : Window lo history f) {after : Nat}
    (hafter : (f.events.head?.map (·.seq)).getD f.nextSeq - 1 ≤ after) :
    lo ≤ after + 1 ∧ (f.events.filter fun entry => after < entry.seq).map (·.toFederationRecord) =
      history.drop (after + 1 - lo) := by
  obtain ⟨older, hsplit, holdest, hseqs⟩ := h.split
  rw [holdest] at hafter
  refine ⟨by omega, ?_⟩
  have hevents : f.events.map (·.seq) = List.range' (lo + older.length) f.events.length := by
    rw [records, List.map_map, List.length_map] at hseqs
    exact hseqs
  rw [filter_seq (fun r : PersistedFederationRecord => r.seq) hevents, List.map_drop, hsplit,
    List.drop_append,
    List.drop_eq_nil_of_le (show older.length ≤ after + 1 - lo by omega), List.nil_append,
    show after + 1 - lo - older.length = after + 1 - (lo + older.length) by omega]
  rfl

theorem latest (h : Window lo history f) (hne : history ≠ []) :
    (f.events.getLast?.map (·.seq)).getD 0 = f.nextSeq - 1 := by
  obtain ⟨older, hsplit, -, hseqs⟩ := h.split
  have hevents : f.events ≠ [] := fun hnil => hne (h.started hnil)
  have hlast : f.events.getLast?.map (·.seq) = (f.records.map (·.seq)).getLast? := by
    rw [records, List.map_map, List.getLast?_map]
    rfl
  have hlen : f.records.length = f.events.length := List.length_map _
  have hpos := List.length_pos_iff.mpr hevents
  rw [hlast, hseqs, List.getLast?_range', if_neg (by omega), Option.getD_some, h.nextSeq, hsplit,
    List.length_append]
  omega

theorem latest_le (h : Window lo history f) :
    (f.events.getLast?.map (·.seq)).getD 0 ≤ f.nextSeq - 1 := by
  by_cases hne : history = []
  · have hrecords : f.records = [] := List.suffix_nil.mp (hne ▸ h.ring)
    have hevents : f.events = [] := List.map_eq_nil_iff.mp hrecords
    rw [hevents]
    exact Nat.zero_le _
  · exact le_of_eq (h.latest hne)

theorem seq_mem (h : Window lo history f) {r : FederationRecord} (hr : r ∈ history) :
    lo ≤ r.seq ∧ r.seq < f.nextSeq := by
  have hmem : r.seq ∈ history.map (·.seq) := List.mem_map_of_mem hr
  rw [h.numbered, List.mem_range'_1] at hmem
  rw [h.nextSeq]
  exact hmem

/-- What the page of a cursor holds that the ring continues. -/
theorem incrementalPage (h : Window lo history f) {cursor : Option String} {after limit : Nat}
    (hlimit : 1 ≤ limit)
    (hcursor : f.continues cursor = some after) :
    ∃ m, Continuation lo history f.feedId after (f.nextSeq - 1)
    (f.incrementalPage after limit) m := by
  obtain ⟨-, holdest, hhigh⟩ := continues_eq_some hcursor
  obtain ⟨hlo, havailable⟩ := h.available holdest
  obtain ⟨k, hk, hselect, hpos⟩ :=
    select_eq_take limit 256 true (f.events.filter fun entry => after < entry.seq)
  have hlength : (f.events.filter fun entry => after < entry.seq).length =
    history.length - (after + 1 - lo) := by
    rw [← List.length_drop, ← havailable, List.length_map]
  have hnext := h.nextSeq
  have hpositive := h.positive
  have hknown : after + k < lo + history.length := by omega
  have hevents : (f.incrementalPage after limit).events = stretch lo history after (after + k) := by
    show (select limit 256 true _).map _ = _
    rw [hselect, List.map_take, havailable, stretch, Nat.add_sub_cancel_left]
  have hlast := getLast?_stretch h.numbered hlo (Nat.le_add_right after k) hknown
  refine ⟨after + k, hlo, Nat.le_add_right _ _, hknown, rfl, ?_, hevents, fun hmore => ?_,
    fun hmore => ?_⟩
  · rw [← hevents] at hlast
    rw [← hlast]
    show cursorOf f.feedId (((select limit 256 true _).getLast?.map (·.seq)).getD after) =
      cursorOf f.feedId
        ((((select limit 256 true _).map (·.toFederationRecord)).getLast?.map (·.seq)).getD after)
    rw [List.getLast?_map, Option.map_map]
    rfl
  · have hall : ¬(select limit 256 true (f.events.filter fun entry => after < entry.seq)).length <
        (f.events.filter fun entry => after < entry.seq).length := of_decide_eq_false hmore
    rw [hselect, List.length_take] at hall
    omega
  · have hrest : (select limit 256 true (f.events.filter fun entry => after < entry.seq)).length <
        (f.events.filter fun entry => after < entry.seq).length := of_decide_eq_true hmore
    have hne : (f.events.filter fun entry => after < entry.seq) ≠ [] := by
      intro hnil
      rw [hnil] at hrest
      exact absurd hrest (Nat.not_lt_zero _)
    have := hpos rfl hlimit hne
    omega

end Window

end QuantaSwap.Feed
