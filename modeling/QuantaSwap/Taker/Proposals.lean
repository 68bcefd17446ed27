import Mathlib.Data.List.Dedup
import Mathlib.Data.List.Perm.Subperm
import QuantaSwap.Lib.Run
import QuantaSwap.Taker.State

/-!
# The proposals a take retains

`propose` of `marketmaker/src/taker.ts` with what comes before and after it: a fill that selects a
proposal, and a release. The digest of a proposal is its name.
-/

set_option autoImplicit false

namespace QuantaSwap.Taker

open Lib.Run

def MAX_FILL_INTENT_LIFETIME_S : Nat := 120

def MAX_FILL_RESPONSE_S : Nat := 900

/-- `P` is the rest of the signed proposal. -/
structure TakerIntentRecord (D P : Type) where
  intentDigest : D
  issuedAt : Nat
  expiresAt : Nat
  signed : P
  releaseSecret : D
  submittedAt : Option Nat
  releasedAt : Option Nat
  deriving DecidableEq

/-- What `propose` reads and writes of a take record. -/
structure TakeRecord (D P : Type) where
  orderDigest : D
  orderIssuedAt : Nat
  orderExpiresAt : Nat
  intents : List (TakerIntentRecord D P)
  selectedIntentDigest : Option D

variable {D P : Type} [DecidableEq D]

/-- The newest proposal, whether or not a maker selected it. -/
def latestIntent (record : TakeRecord D P) : Option (TakerIntentRecord D P) :=
  record.intents.getLast?

def selectedIntent (record : TakeRecord D P) : Option (TakerIntentRecord D P) :=
  match record.selectedIntentDigest with
  | none => none
  | some digest => record.intents.find? fun intent => intent.intentDigest = digest

/-- Not released, and not expired. -/
def isPending (now : Nat) (intent : TakerIntentRecord D P) : Bool :=
  intent.releasedAt.isNone && decide (now < intent.expiresAt)

/-! ## One proposal -/

/-- What the pass finds: the digest that the row's order verifies to, whether the row is open,
whether the taker only looks, and what the signer brings. -/
structure ProposeInput (D P : Type) where
  row : Option (Option D × Bool)
  dryRun : Bool
  intentDigest : D
  signed : P
  releaseSecret : D

/-- The expiry that `signFillIntentV1` gives, inside the window of the order. -/
def signFillIntentV1 (record : TakeRecord D P) (now : Nat) : Option Nat :=
  let expiresAt := min (now + MAX_FILL_INTENT_LIFETIME_S) record.orderExpiresAt
  if now < record.orderIssuedAt ∨ expiresAt ≤ now then none else some expiresAt

/-- The proposal that is signed on this pass, if one is. -/
def signedProposal (record : TakeRecord D P) (now : Nat) (p : ProposeInput D P) :
    Option (TakerIntentRecord D P) :=
  match p.row with
  | some (some orderDigest, true) =>
    if orderDigest ≠ record.orderDigest ∨ p.dryRun = true then none
    else
      (signFillIntentV1 record now).map fun expiresAt =>
        ⟨p.intentDigest, now, expiresAt, p.signed, p.releaseSecret, some now, none⟩
  | _ => none

def mustKeep (record : TakeRecord D P) (now : Nat) (intentDigest : D)
    (intent : TakerIntentRecord D P) : Bool :=
  decide (intent.intentDigest = intentDigest) ||
    decide (some intent.intentDigest = record.selectedIntentDigest) || isPending now intent

/-- `others.slice(-room)`, or nothing where there is no room. -/
def lastOf {α : Type} (room : Nat) (others : List α) : List α := others.drop (others.length - room)

/-- The proposals that the record keeps: what must be kept, and the last of the others before it. -/
def trimmed (record : TakeRecord D P) (now : Nat) (proposal : TakerIntentRecord D P) :
    List (TakerIntentRecord D P) :=
  let retained :=
    (record.intents.filter fun intent => intent.intentDigest ≠ proposal.intentDigest) ++ [proposal]
  let keep := mustKeep record now proposal.intentDigest
  let kept := ((retained.filter keep).map TakerIntentRecord.intentDigest).dedup
  let room := MAX_RETAINED_INTENTS - kept.length
  let others := retained.filter fun intent => !keep intent
  lastOf room others ++ retained.filter keep

inductive Proposed (D P : Type)
  | unsigned
  | refused (proposal : TakerIntentRecord D P)
  | sent (proposal : TakerIntentRecord D P) (intents : List (TakerIntentRecord D P))

/-- The proposal is signed, then stored, then sent; `upsert` refuses a record that retains too
much. -/
def propose (record : TakeRecord D P) (now : Nat) (p : ProposeInput D P) : Proposed D P :=
  match signedProposal record now p with
  | none => .unsigned
  | some proposal =>
    let intents := trimmed record now proposal
    if intents.length > MAX_RETAINED_INTENTS then .refused proposal else .sent proposal intents

/-! ## Runs -/

/-- The take, the last second its clock showed, and every proposal that was signed for it. -/
structure TakeWorld (D P : Type) where
  record : TakeRecord D P
  clock : Nat
  made : List (TakerIntentRecord D P)

inductive TakeInput (D P : Type)
  | propose (now : Nat) (p : ProposeInput D P)
  | select (intentDigest : D)
  | release (now : Nat)

def TakeRecord.markReleased (record : TakeRecord D P) (now : Nat) (intentDigest : D) :
    TakeRecord D P :=
  { record with
    intents := record.intents.map fun intent =>
      if intent.intentDigest = intentDigest then
        { intent with releasedAt := some now } else intent }

namespace TakeWorld

/-- A take starts without proposals. -/
def start (orderDigest : D) (orderIssuedAt orderExpiresAt : Nat) : TakeWorld D P :=
  ⟨⟨orderDigest, orderIssuedAt, orderExpiresAt, [], none⟩, 0, []⟩

/-- The clock does not run back. -/
def time (w : TakeWorld D P) (now : Nat) : Nat := max w.clock now

/-- The previous proposal is pending, so the taker waits. -/
def waits (w : TakeWorld D P) (now : Nat) : Bool := (latestIntent w.record).any (isPending now)

def remember (w : TakeWorld D P) (proposal : TakerIntentRecord D P) :
    List (TakerIntentRecord D P) :=
  (w.made.filter fun intent => intent.intentDigest ≠ proposal.intentDigest) ++ [proposal]

def step (w : TakeWorld D P) : TakeInput D P → TakeWorld D P
  | .propose t p =>
    let now := w.time t
    if w.waits now then { w with clock := now }
    else
      match propose w.record now p with
      | .unsigned => { w with clock := now }
      | .refused proposal => { w with clock := now, made := w.remember proposal }
      | .sent proposal intents =>
        ⟨{ w.record with intents }, now, w.remember proposal⟩
  | .select intentDigest =>
    if w.record.selectedIntentDigest.isNone ∧
      intentDigest ∈ w.record.intents.map TakerIntentRecord.intentDigest then
      { w with record := { w.record with selectedIntentDigest := some intentDigest } }
    else w
  | .release t =>
    let now := w.time t
    match (selectedIntent w.record).or (latestIntent w.record) with
    | none => { w with clock := now }
    | some intent =>
      { w with record := w.record.markReleased now intent.intentDigest, clock := now }

end TakeWorld

/-! ## What must not be forgotten -/

/-- Some fill issued within the lifetime of the proposal still can be responded to. -/
def CanBind (now : Nat) (intent : TakerIntentRecord D P) : Prop :=
  ∃ issuedAt respondBy, intent.issuedAt ≤ issuedAt ∧ issuedAt < intent.expiresAt ∧
    respondBy ≤ issuedAt + MAX_FILL_RESPONSE_S ∧ now < respondBy

/-- The record has the proposal of this digest. -/
def TakeRecord.Has (record : TakeRecord D P) (intentDigest : D) : Prop :=
  intentDigest ∈ record.intents.map TakerIntentRecord.intentDigest

/-- A proposal that is signed leaves a record of at most eight that has it, the selected one and
every proposal that can still bind. -/
def Remembers (w : TakeWorld D P) : TakeInput D P → Prop
  | .propose t p =>
    let now := w.time t
    w.waits now = false →
      match propose w.record now p with
      | .unsigned => True
      | .refused _ => False
      | .sent proposal intents =>
        let stored : TakeRecord D P := { w.record with intents }
        intents.length ≤ MAX_RETAINED_INTENTS ∧ stored.Has proposal.intentDigest ∧
          (∀ digest, w.record.selectedIntentDigest = some digest → stored.Has digest) ∧
          ∀ intent ∈ w.remember proposal, CanBind now intent → stored.Has intent.intentDigest
  | _ => True

instance (now : Nat) (intent : TakerIntentRecord D P) : Decidable (CanBind now intent) :=
  decidable_of_iff (intent.issuedAt < intent.expiresAt ∧
    now + 1 < intent.expiresAt + MAX_FILL_RESPONSE_S) (by
    unfold CanBind
    constructor
    · rintro ⟨hlive, hnow⟩
      exact ⟨intent.expiresAt - 1, intent.expiresAt - 1 + MAX_FILL_RESPONSE_S, by omega, by omega,
        le_refl _, by omega⟩
    · rintro ⟨issuedAt, respondBy, hfrom, hto, hrespond, hnow⟩
      omega)

/-- The earlier proposals that can still bind, beside the selected one. -/
def stillBinding (w : TakeWorld D P) (now : Nat) (intentDigest : D) :
    List (TakerIntentRecord D P) :=
  w.made.filter fun intent =>
    decide (intent.intentDigest ≠ intentDigest) && decide (some intent.intentDigest ≠
      w.record.selectedIntentDigest) &&
      decide (CanBind now intent)

/-- Beside the new proposal and a selected one. -/
def roomFor (record : TakeRecord D P) (intentDigest : D) : Nat :=
  if record.selectedIntentDigest = none ∨ record.selectedIntentDigest = some intentDigest then
    MAX_RETAINED_INTENTS - 1
  else MAX_RETAINED_INTENTS - 2

/-- When a proposal is signed, there is room for those that can still bind. -/
def HasRoom (w : TakeWorld D P) : TakeInput D P → Prop
  | .propose t p =>
    let now := w.time t
    w.waits now = false → ∀ proposal, signedProposal w.record now p = some proposal →
      (stillBinding w now proposal.intentDigest).length ≤ roomFor w.record proposal.intentDigest
  | _ => True

/-! ## The last entries of a list -/

section LastOf

variable {α : Type} {room : Nat} {l : List α}

theorem lastOf_sublist : (lastOf room l).Sublist l := List.drop_sublist _ _

theorem length_lastOf_le : (lastOf room l).length ≤ room := by
  unfold lastOf
  rw [List.length_drop]
  omega

theorem mem_lastOf {p : α → Bool} (hlater : l.Pairwise fun a b => p a = true → p b = true)
    (hfew : (l.filter p).length ≤ room) {a : α} (ha : a ∈ l) (hp : p a = true) :
    a ∈ lastOf room l := by
  unfold lastOf
  rw [← List.take_append_drop (l.length - room) l, List.mem_append] at ha
  rcases ha with ha | ha
  · -- what is dropped and of the kind is followed by `room` more of it
    have hsplit := List.take_append_drop (l.length - room) l
    rw [← hsplit, List.pairwise_append] at hlater
    have hall : ∀ b ∈ l.drop (l.length - room), p b = true := fun b hb => hlater.2.2 a ha b hb hp
    have hfilter :
      l.filter p = (l.take (l.length - room)).filter p ++ l.drop (l.length - room) := by
      conv_lhs => rw [← hsplit]
      rw [List.filter_append, List.filter_eq_self.mpr hall]
    have hpos : 0 < ((l.take (l.length - room)).filter p).length :=
      List.length_pos_of_mem (List.mem_filter.mpr ⟨ha, hp⟩)
    have hmore : 0 < (l.take (l.length - room)).length := List.length_pos_of_mem ha
    rw [hfilter, List.length_append, List.length_drop] at hfew
    rw [List.length_take] at hmore
    omega
  · exact ha

end LastOf

/-! ## What a record retains -/

/-- What holds of a take in every run. -/
structure Kept (w : TakeWorld D P) : Prop where
  made : (w.made.map TakerIntentRecord.intentDigest).Nodup
  lives : ∀ intent ∈ w.made, intent.issuedAt < intent.expiresAt ∧
    intent.expiresAt ≤ min (w.clock + MAX_FILL_INTENT_LIFETIME_S) w.record.orderExpiresAt
  known : ∀ intent ∈ w.record.intents, ∃ proposal ∈ w.made,
    proposal.intentDigest = intent.intentDigest ∧ proposal.expiresAt = intent.expiresAt
  nodup : (w.record.intents.map TakerIntentRecord.intentDigest).Nodup
  sorted : (w.record.intents.filter fun intent =>
    decide (some intent.intentDigest ≠ w.record.selectedIntentDigest)).Pairwise fun a b =>
      a.expiresAt ≤ b.expiresAt
  selected : ∀ digest, w.record.selectedIntentDigest = some digest → w.record.Has digest
  pending : ∀ intent ∈ w.record.intents, isPending w.clock intent = true →
    latestIntent w.record = some intent

/-- The proposals that a new one may push out. -/
def others (record : TakeRecord D P) (intentDigest : D) : List (TakerIntentRecord D P) :=
  record.intents.filter fun intent =>
    decide (intent.intentDigest ≠ intentDigest) && decide (some intent.intentDigest ≠
      record.selectedIntentDigest)

/-- The selected proposal, unless the new one takes its place. -/
def chosen (record : TakeRecord D P) (intentDigest : D) : List (TakerIntentRecord D P) :=
  record.intents.filter fun intent =>
    decide (intent.intentDigest ≠ intentDigest) && decide (some intent.intentDigest =
      record.selectedIntentDigest)

section Trimmed

variable {record : TakeRecord D P} {now : Nat} {proposal : TakerIntentRecord D P}

theorem length_filter_digest {l : List (TakerIntentRecord D P)}
    (hnodup : (l.map TakerIntentRecord.intentDigest).Nodup)
    {digest : D} (hmem : digest ∈ l.map TakerIntentRecord.intentDigest) :
    (l.filter fun intent => decide (intent.intentDigest = digest)).length = 1 := by
  have hcount := List.count_eq_one_of_mem hnodup hmem
  rw [List.count_eq_countP, List.countP_map, List.countP_eq_length_filter] at hcount
  rw [← hcount]
  congr 1

theorem chosen_length (hnodup : (record.intents.map TakerIntentRecord.intentDigest).Nodup)
    (hselected : ∀ digest, record.selectedIntentDigest = some digest → record.Has digest)
    (intentDigest : D) :
    MAX_RETAINED_INTENTS - ((chosen record intentDigest).length + 1) =
      roomFor record intentDigest := by
  unfold chosen roomFor
  cases hsel : record.selectedIntentDigest with
  | none => simp
  | some digest =>
    by_cases hsame : digest = intentDigest
    · subst hsame
      have hnone : (record.intents.filter fun intent =>
          decide (intent.intentDigest ≠ digest) && decide (some intent.intentDigest =
            some digest)) = [] := by
        rw [List.filter_eq_nil_iff]
        intro intent _
        simp
      rw [hnone, if_pos (Or.inr rfl)]
      rfl
    · have hone : (record.intents.filter fun intent =>
          decide (intent.intentDigest ≠ intentDigest) && decide (some intent.intentDigest =
            some digest)).length = 1 := by
        rw [← length_filter_digest hnodup (hselected digest hsel)]
        congr 1
        refine List.filter_congr ?_
        intro intent _
        by_cases heq : intent.intentDigest = digest
        · rw [heq]
          simp [hsame]
        · simp [heq]
      rw [hone, if_neg (by simp [hsame])]

theorem trimmed_eq (hnodup : (record.intents.map TakerIntentRecord.intentDigest).Nodup)
    (hselected : ∀ digest, record.selectedIntentDigest = some digest → record.Has digest)
    (hidle : ∀ intent ∈ record.intents, isPending now intent = false) :
    trimmed record now proposal = lastOf (roomFor record proposal.intentDigest)
    (others record proposal.intentDigest) ++
      (chosen record proposal.intentDigest ++ [proposal]) := by
  have hkeep : ∀ intent ∈ record.intents, mustKeep record now proposal.intentDigest intent =
      (decide (intent.intentDigest = proposal.intentDigest) ||
        decide (some intent.intentDigest = record.selectedIntentDigest)) := by
    intro intent hintent
    unfold mustKeep
    rw [hidle intent hintent, Bool.or_false]
  have hnew : mustKeep record now proposal.intentDigest proposal = true := by
    unfold mustKeep
    simp
  have hchosen :
    ((record.intents.filter fun intent => intent.intentDigest ≠ proposal.intentDigest) ++
      [proposal]).filter (mustKeep record now proposal.intentDigest) =
        chosen record proposal.intentDigest ++ [proposal] := by
    rw [List.filter_append, List.filter_cons_of_pos hnew, List.filter_nil, List.filter_filter]
    congr 1
    refine List.filter_congr ?_
    intro intent hintent
    rw [hkeep intent hintent]
    by_cases heq : intent.intentDigest = proposal.intentDigest <;> simp [heq]
  have hothers :
    ((record.intents.filter fun intent => intent.intentDigest ≠ proposal.intentDigest) ++
      [proposal]).filter (fun intent => !mustKeep record now proposal.intentDigest intent) =
        others record proposal.intentDigest := by
    rw [List.filter_append, List.filter_cons_of_neg (by simp [hnew]), List.filter_nil,
      List.append_nil,
      List.filter_filter]
    refine List.filter_congr ?_
    intro intent hintent
    rw [hkeep intent hintent]
    by_cases heq : intent.intentDigest = proposal.intentDigest <;> simp [heq]
  have hkept : ((chosen record proposal.intentDigest ++
    [proposal]).map TakerIntentRecord.intentDigest).Nodup := by
    rw [List.map_append, List.nodup_append]
    refine ⟨(List.filter_sublist.map _).nodup hnodup, List.nodup_singleton _, ?_⟩
    intro a ha b hb heq
    obtain ⟨intent, hintent, rfl⟩ := List.mem_map.mp ha
    rw [List.map_singleton, List.mem_singleton] at hb
    have hne := (List.mem_filter.mp hintent).2
    simp [heq, hb] at hne
  unfold trimmed
  dsimp only
  rw [hchosen, hothers, hkept.dedup, List.length_map, List.length_append, List.length_singleton,
    chosen_length hnodup hselected]

end Trimmed

/-! ## Every step -/

section Steps

variable {w : TakeWorld D P} {now : Nat} {p : ProposeInput D P} {proposal : TakerIntentRecord D P}

theorem signedProposal_eq_some (h : signedProposal w.record now p = some proposal) :
    proposal.issuedAt = now ∧ now < proposal.expiresAt ∧
      proposal.expiresAt = min (now + MAX_FILL_INTENT_LIFETIME_S) w.record.orderExpiresAt := by
  unfold signedProposal at h
  split at h
  · split at h
    · cases h
    · rw [Option.map_eq_some_iff] at h
      obtain ⟨expiresAt, hexpires, rfl⟩ := h
      unfold signFillIntentV1 at hexpires
      dsimp only at hexpires
      split at hexpires
      · cases hexpires
      · rename_i hlive
        rw [not_or, not_le] at hlive
        cases hexpires
        exact ⟨rfl, hlive.2, rfl⟩
  · cases h

theorem Kept.idle (h : Kept w) (hnow : w.clock ≤ now) (hwaits : w.waits now = false) :
    ∀ intent ∈ w.record.intents, isPending now intent = false := by
  intro intent hintent
  rw [← Bool.not_eq_true]
  intro hpending
  have hearlier : isPending w.clock intent = true := by
    unfold isPending at hpending ⊢
    rw [Bool.and_eq_true, decide_eq_true_iff] at hpending ⊢
    exact ⟨hpending.1, by omega⟩
  unfold TakeWorld.waits at hwaits
  rw [h.pending intent hintent hearlier, Option.any_some, hpending] at hwaits
  cases hwaits

theorem Kept.later (h : Kept w) (hnow : w.clock ≤ now) : Kept { w with clock := now } where
  made := h.made
  lives := by
    intro intent hintent
    obtain ⟨hlive, hle⟩ := h.lives intent hintent
    refine ⟨hlive, ?_⟩
    dsimp only
    omega
  known := h.known
  nodup := h.nodup
  sorted := h.sorted
  selected := h.selected
  pending := by
    intro intent hintent hpending
    refine h.pending intent hintent ?_
    unfold isPending at hpending ⊢
    rw [Bool.and_eq_true, decide_eq_true_iff] at hpending ⊢
    exact ⟨hpending.1, by dsimp only at hpending; omega⟩

theorem roomFor_pos (record : TakeRecord D P) (intentDigest : D) :
    0 < roomFor record intentDigest := by
  unfold roomFor
  split <;> decide

theorem length_trimmed (h : Kept w)
    (hidle : ∀ intent ∈ w.record.intents, isPending now intent = false) :
    (trimmed w.record now proposal).length ≤ MAX_RETAINED_INTENTS := by
  have hroom := chosen_length h.nodup h.selected proposal.intentDigest
  have hlast := @length_lastOf_le _ (roomFor w.record proposal.intentDigest)
    (others w.record proposal.intentDigest)
  have hpos := roomFor_pos w.record proposal.intentDigest
  rw [trimmed_eq h.nodup h.selected hidle, List.length_append, List.length_append,
    List.length_singleton]
  omega

theorem propose_eq (h : Kept w) (hnow : w.clock ≤ now) (hwaits : w.waits now = false) :
    propose w.record now p = match signedProposal w.record now p with
      | none => .unsigned
      | some proposal => .sent proposal (trimmed w.record now proposal) := by
  unfold propose
  cases signedProposal w.record now p with
  | none => rfl
  | some proposal =>
    dsimp only
    rw [if_neg (not_lt.mpr (length_trimmed h (h.idle hnow hwaits)))]

theorem mem_others {intentDigest : D} {intent : TakerIntentRecord D P} :
    intent ∈ others w.record intentDigest ↔ intent ∈ w.record.intents ∧
    intent.intentDigest ≠ intentDigest ∧
      some intent.intentDigest ≠ w.record.selectedIntentDigest := by
  unfold others
  simp

theorem mem_chosen {intentDigest : D} {intent : TakerIntentRecord D P} :
    intent ∈ chosen w.record intentDigest ↔ intent ∈ w.record.intents ∧
    intent.intentDigest ≠ intentDigest ∧
      some intent.intentDigest = w.record.selectedIntentDigest := by
  unfold chosen
  simp

theorem mem_trimmed (h : Kept w) (hidle : ∀ intent ∈ w.record.intents, isPending now intent = false)
    {intent : TakerIntentRecord D P} (hmem : intent ∈ trimmed w.record now proposal) :
    intent = proposal ∨
    (intent ∈ w.record.intents ∧ intent.intentDigest ≠ proposal.intentDigest) := by
  rw [trimmed_eq h.nodup h.selected hidle, List.mem_append, List.mem_append,
    List.mem_singleton] at hmem
  rcases hmem with hother | hchosen | hnew
  · have hold := mem_others.mp (lastOf_sublist.subset hother)
    exact Or.inr ⟨hold.1, hold.2.1⟩
  · have hold := mem_chosen.mp hchosen
    exact Or.inr ⟨hold.1, hold.2.1⟩
  · exact Or.inl hnew

theorem trimmed_nodup (h : Kept w)
    (hidle : ∀ intent ∈ w.record.intents, isPending now intent = false) :
    ((trimmed w.record now proposal).map TakerIntentRecord.intentDigest).Nodup := by
  rw [trimmed_eq h.nodup h.selected hidle, ← List.append_assoc, List.map_append, List.nodup_append,
    List.map_append,
    List.nodup_append]
  refine ⟨⟨?_, ?_, ?_⟩, List.nodup_singleton _, ?_⟩
  · exact ((lastOf_sublist.trans List.filter_sublist).map _).nodup h.nodup
  · exact (List.filter_sublist.map _).nodup h.nodup
  · intro a ha b hb heq
    obtain ⟨other, hother, rfl⟩ := List.mem_map.mp ha
    obtain ⟨selected, hselected, rfl⟩ := List.mem_map.mp hb
    have hne := (mem_others.mp (lastOf_sublist.subset hother)).2.2
    rw [heq] at hne
    exact hne (mem_chosen.mp hselected).2.2
  · intro a ha b hb heq
    rw [List.map_singleton, List.mem_singleton] at hb
    rw [hb] at heq
    rcases List.mem_append.mp ha with ha | ha
    · obtain ⟨other, hother, rfl⟩ := List.mem_map.mp ha
      exact (mem_others.mp (lastOf_sublist.subset hother)).2.1 heq
    · obtain ⟨selected, hselected, rfl⟩ := List.mem_map.mp ha
      exact (mem_chosen.mp hselected).2.1 heq

theorem trimmed_sorted (h : Kept w)
    (hidle : ∀ intent ∈ w.record.intents, isPending now intent = false)
    (hlast : ∀ intent ∈ w.record.intents, intent.expiresAt ≤ proposal.expiresAt) :
    ((trimmed w.record now proposal).filter fun intent =>
      decide (some intent.intentDigest ≠ w.record.selectedIntentDigest)).Pairwise
        fun a b => a.expiresAt ≤ b.expiresAt := by
  have hchosen : (chosen w.record proposal.intentDigest).filter (fun intent =>
      decide (some intent.intentDigest ≠ w.record.selectedIntentDigest)) = [] := by
    rw [List.filter_eq_nil_iff]
    intro intent hintent
    rw [decide_eq_true_iff, not_not]
    exact (mem_chosen.mp hintent).2.2
  have hothers :
    (others w.record proposal.intentDigest).Pairwise fun a b => a.expiresAt ≤ b.expiresAt := by
    unfold others
    rw [← List.filter_filter]
    exact h.sorted.sublist List.filter_sublist
  rw [trimmed_eq h.nodup h.selected hidle, List.filter_append, List.filter_append, hchosen,
    List.nil_append,
    List.pairwise_append]
  refine ⟨hothers.sublist (List.filter_sublist.trans lastOf_sublist), ?_, ?_⟩
  · exact (List.pairwise_singleton _ _).sublist List.filter_sublist
  · intro a ha b hb
    have hother := mem_others.mp (lastOf_sublist.subset (List.mem_of_mem_filter ha))
    rw [List.mem_singleton.mp (List.mem_of_mem_filter hb)]
    exact hlast a hother.1

theorem remember_nodup (h : Kept w) :
    ((w.remember proposal).map TakerIntentRecord.intentDigest).Nodup := by
  unfold TakeWorld.remember
  rw [List.map_append, List.nodup_append]
  refine ⟨(List.filter_sublist.map _).nodup h.made, List.nodup_singleton _, ?_⟩
  intro a ha b hb heq
  obtain ⟨intent, hintent, rfl⟩ := List.mem_map.mp ha
  rw [List.map_singleton, List.mem_singleton] at hb
  have hne := (List.mem_filter.mp hintent).2
  simp [heq, hb] at hne

theorem mem_remember {intent : TakerIntentRecord D P} : intent ∈ w.remember proposal ↔
    (intent ∈ w.made ∧ intent.intentDigest ≠ proposal.intentDigest) ∨ intent = proposal := by
  unfold TakeWorld.remember
  simp

theorem new_mem_trimmed (h : Kept w)
    (hidle : ∀ intent ∈ w.record.intents, isPending now intent = false) :
    proposal ∈ trimmed w.record now proposal := by
  rw [trimmed_eq h.nodup h.selected hidle]
  exact List.mem_append_right _ (List.mem_append_right _ (List.mem_singleton_self _))

theorem latest_trimmed (h : Kept w)
    (hidle : ∀ intent ∈ w.record.intents, isPending now intent = false) :
    (trimmed w.record now proposal).getLast? = some proposal := by
  rw [trimmed_eq h.nodup h.selected hidle, ← List.append_assoc, List.getLast?_concat]

theorem selected_trimmed (h : Kept w)
    (hidle : ∀ intent ∈ w.record.intents, isPending now intent = false) {digest : D}
    (hdigest : w.record.selectedIntentDigest = some digest) :
    digest ∈ (trimmed w.record now proposal).map TakerIntentRecord.intentDigest := by
  by_cases hsame : digest = proposal.intentDigest
  · rw [hsame]
    exact List.mem_map_of_mem (new_mem_trimmed h hidle)
  · obtain ⟨intent, hintent, rfl⟩ := List.mem_map.mp (h.selected digest hdigest)
    refine List.mem_map_of_mem ?_
    rw [trimmed_eq h.nodup h.selected hidle]
    exact List.mem_append_right _
      (List.mem_append_left _ (mem_chosen.mpr ⟨hintent, hsame, hdigest.symm⟩))

theorem known_trimmed (h : Kept w)
    (hidle : ∀ intent ∈ w.record.intents, isPending now intent = false)
    {intent : TakerIntentRecord D P} (hintent : intent ∈ trimmed w.record now proposal) :
    ∃ earlier ∈ w.remember proposal,
      earlier.intentDigest = intent.intentDigest ∧ earlier.expiresAt = intent.expiresAt := by
  rcases mem_trimmed h hidle hintent with rfl | ⟨hold, hne⟩
  · exact ⟨intent, mem_remember.mpr (Or.inr rfl), rfl, rfl⟩
  · obtain ⟨earlier, hearlier, hdigest, hexpiry⟩ := h.known intent hold
    exact ⟨earlier, mem_remember.mpr (Or.inl ⟨hearlier, by rw [hdigest]; exact hne⟩),
      hdigest, hexpiry⟩

theorem expires_le (h : Kept w) (hnow : w.clock ≤ now)
    (hsigned : signedProposal w.record now p = some proposal)
    {intent : TakerIntentRecord D P} (hintent : intent ∈ w.made) :
    intent.expiresAt ≤ proposal.expiresAt := by
  obtain ⟨-, -, hexpires⟩ := signedProposal_eq_some hsigned
  have hle := (h.lives intent hintent).2
  omega

theorem kept_sent (h : Kept w) (hnow : w.clock ≤ now) (hwaits : w.waits now = false)
    (hsigned : signedProposal w.record now p = some proposal) :
    Kept ⟨{ w.record with intents := trimmed w.record now proposal }, now,
      w.remember proposal⟩ where
  made := remember_nodup h
  lives := by
    intro intent hintent
    obtain ⟨hissued, hlive, hexpires⟩ := signedProposal_eq_some hsigned
    show intent.issuedAt < intent.expiresAt ∧
      intent.expiresAt ≤ min (now + MAX_FILL_INTENT_LIFETIME_S) w.record.orderExpiresAt
    rw [← hexpires]
    rcases mem_remember.mp hintent with ⟨hold, -⟩ | rfl
    · exact ⟨(h.lives intent hold).1, expires_le h hnow hsigned hold⟩
    · exact ⟨by omega, Nat.le_refl _⟩
  known := fun intent hintent => known_trimmed h (h.idle hnow hwaits) hintent
  nodup := trimmed_nodup h (h.idle hnow hwaits)
  sorted := by
    have hlast : ∀ intent ∈ w.record.intents, intent.expiresAt ≤ proposal.expiresAt := by
      intro intent hintent
      obtain ⟨earlier, hearlier, -, hexpiry⟩ := h.known intent hintent
      rw [← hexpiry]
      exact expires_le h hnow hsigned hearlier
    have hsorted := trimmed_sorted h (h.idle hnow hwaits) hlast
    exact hsorted
  selected := fun digest hdigest => selected_trimmed h (h.idle hnow hwaits) hdigest
  pending := by
    intro intent hintent hpending
    rcases mem_trimmed h (h.idle hnow hwaits) hintent with rfl | ⟨hold, -⟩
    · exact latest_trimmed h (h.idle hnow hwaits)
    · have hnever := h.idle hnow hwaits intent hold
      rw [show isPending now intent = true from hpending] at hnever
      cases hnever

theorem kept_select (h : Kept w) (hunselected : w.record.selectedIntentDigest = none)
    {intentDigest : D}
    (hhas : w.record.Has intentDigest) :
    Kept { w with record := { w.record with selectedIntentDigest := some intentDigest } } where
  made := h.made
  lives := h.lives
  known := h.known
  nodup := h.nodup
  sorted := by
    have hall : (w.record.intents.filter fun intent =>
        decide (some intent.intentDigest ≠ w.record.selectedIntentDigest)) = w.record.intents := by
      rw [List.filter_eq_self, hunselected]
      intro intent _
      rfl
    have hsorted := h.sorted
    rw [hall] at hsorted
    exact hsorted.sublist List.filter_sublist
  selected := by
    rintro digest ⟨⟩
    exact hhas
  pending := h.pending

theorem markReleased_digests (record : TakeRecord D P) (intentDigest : D) :
    (record.markReleased now intentDigest).intents.map TakerIntentRecord.intentDigest =
      record.intents.map TakerIntentRecord.intentDigest := by
  unfold TakeRecord.markReleased
  rw [List.map_map]
  refine List.map_congr_left ?_
  intro intent _
  dsimp only [Function.comp_apply]
  split <;> rfl

theorem mem_markReleased {record : TakeRecord D P} {intentDigest : D}
    {intent : TakerIntentRecord D P}
    (h : intent ∈ (record.markReleased now intentDigest).intents) : ∃ earlier ∈ record.intents,
      earlier.intentDigest = intent.intentDigest ∧ earlier.expiresAt = intent.expiresAt ∧
        (isPending now intent = true → intent = earlier ∧ earlier.intentDigest ≠ intentDigest) := by
  obtain ⟨earlier, hearlier, rfl⟩ := List.mem_map.mp h
  refine ⟨earlier, hearlier, ?_⟩
  split
  · refine ⟨rfl, rfl, ?_⟩
    intro hpending
    cases hpending
  · rename_i hne
    exact ⟨rfl, rfl, fun _ => ⟨rfl, hne⟩⟩

theorem kept_release (h : Kept w) (intentDigest : D) :
    Kept { w with record := w.record.markReleased w.clock intentDigest } where
  made := h.made
  lives := h.lives
  known := by
    intro intent hintent
    obtain ⟨earlier, hearlier, hdigest, hexpiry, -⟩ := mem_markReleased hintent
    obtain ⟨proposal, hproposal, hsame, hsame'⟩ := h.known earlier hearlier
    exact ⟨proposal, hproposal, hsame.trans hdigest, hsame'.trans hexpiry⟩
  nodup := by
    show ((w.record.markReleased w.clock intentDigest).intents.map
      TakerIntentRecord.intentDigest).Nodup
    rw [markReleased_digests]
    exact h.nodup
  sorted := by
    show ((w.record.markReleased w.clock intentDigest).intents.filter _).Pairwise _
    unfold TakeRecord.markReleased
    dsimp only
    rw [List.filter_map, List.pairwise_map]
    have hsame : w.record.intents.filter ((fun intent : TakerIntentRecord D P =>
        decide (some intent.intentDigest ≠ w.record.selectedIntentDigest)) ∘ fun intent =>
          if intent.intentDigest = intentDigest then
            { intent with releasedAt := some w.clock } else intent) =
        w.record.intents.filter fun intent =>
          decide (some intent.intentDigest ≠ w.record.selectedIntentDigest) := by
      refine List.filter_congr ?_
      intro intent _
      dsimp only [Function.comp_apply]
      split <;> rfl
    rw [hsame]
    refine h.sorted.imp ?_
    intro a b hle
    split <;> split <;> exact hle
  selected := by
    intro digest hdigest
    show digest ∈
      (w.record.markReleased w.clock intentDigest).intents.map TakerIntentRecord.intentDigest
    rw [markReleased_digests]
    exact h.selected digest hdigest
  pending := by
    intro intent hintent hpending
    obtain ⟨earlier, hearlier, -, -, hsame⟩ := mem_markReleased hintent
    obtain ⟨rfl, hne⟩ := hsame hpending
    have hlatest := h.pending intent hearlier hpending
    unfold latestIntent TakeRecord.markReleased at *
    rw [List.getLast?_map, hlatest, Option.map_some, if_neg hne]

theorem step_kept_take (h : Kept w) (i : TakeInput D P) : Kept (w.step i) := by
  cases i with
  | propose t p =>
    have hnow : w.clock ≤ w.time t := le_max_left _ _
    unfold TakeWorld.step
    dsimp only
    split
    · exact h.later hnow
    · rename_i hwaits
      rw [Bool.not_eq_true] at hwaits
      rw [propose_eq h hnow hwaits]
      cases hsigned : signedProposal w.record (w.time t) p with
      | none => exact h.later hnow
      | some proposal => exact kept_sent h hnow hwaits hsigned
  | select intentDigest =>
    unfold TakeWorld.step
    dsimp only
    split
    · rename_i hguard
      exact kept_select h (Option.isNone_iff_eq_none.mp hguard.1) hguard.2
    · exact h
  | release t =>
    have hlater := h.later (le_max_left w.clock t)
    unfold TakeWorld.step
    dsimp only
    split
    · exact hlater
    · exact kept_release hlater _

/-! ## What can still bind -/

omit [DecidableEq D] in
theorem canBind_iff {intent : TakerIntentRecord D P} : CanBind now intent ↔
    intent.issuedAt < intent.expiresAt ∧ now + 1 < intent.expiresAt + MAX_FILL_RESPONSE_S := by
  unfold CanBind
  constructor
  · rintro ⟨issuedAt, respondBy, hfrom, hto, hrespond, hnow⟩
    exact ⟨by omega, by omega⟩
  · rintro ⟨hlive, hnow⟩
    exact ⟨intent.expiresAt - 1, intent.expiresAt - 1 + MAX_FILL_RESPONSE_S, by omega, by omega,
      le_refl _, by omega⟩

omit [DecidableEq D] in
theorem CanBind.earlier {intent : TakerIntentRecord D P} {earlier : Nat} (h : CanBind now intent)
    (hle : earlier ≤ now) : CanBind earlier intent := by
  obtain ⟨issuedAt, respondBy, hfrom, hto, hrespond, hnow⟩ := h
  exact ⟨issuedAt, respondBy, hfrom, hto, hrespond, by omega⟩

/-- The record has every proposal that can still bind. -/
def Bound (w : TakeWorld D P) : Prop :=
  ∀ intent ∈ w.made, CanBind w.clock intent → w.record.Has intent.intentDigest

theorem mem_stillBinding {intentDigest : D} {intent : TakerIntentRecord D P} :
    intent ∈ stillBinding w now intentDigest ↔ intent ∈ w.made ∧
    intent.intentDigest ≠ intentDigest ∧
      some intent.intentDigest ≠ w.record.selectedIntentDigest ∧ CanBind now intent := by
  unfold stillBinding
  simp [and_assoc]

theorem expiresAt_known (h : Kept w) {intent proposal : TakerIntentRecord D P}
    (hintent : intent ∈ w.record.intents)
    (hproposal : proposal ∈ w.made) (hdigest : intent.intentDigest = proposal.intentDigest) :
    intent.expiresAt = proposal.expiresAt := by
  obtain ⟨earlier, hearlier, hsame, hexpiry⟩ := h.known intent hintent
  rw [← hexpiry, List.inj_on_of_nodup_map h.made hearlier hproposal (hsame.trans hdigest)]

theorem mem_last_of_few (h : Kept w) {intentDigest : D}
    (hfew : (stillBinding w now intentDigest).length ≤ roomFor w.record intentDigest)
    {intent : TakerIntentRecord D P} (hintent : intent ∈ others w.record intentDigest)
    (hbinds : now + 1 < intent.expiresAt + MAX_FILL_RESPONSE_S) :
    intent ∈ lastOf (roomFor w.record intentDigest) (others w.record intentDigest) := by
  let binds (i : TakerIntentRecord D P) : Bool :=
    decide (now + 1 < i.expiresAt + MAX_FILL_RESPONSE_S)
  have hsorted : (others w.record intentDigest).Pairwise fun a b => binds a = true →
    binds b = true := by
    have hothers :
      (others w.record intentDigest).Pairwise fun a b => a.expiresAt ≤ b.expiresAt := by
      unfold others
      rw [← List.filter_filter]
      exact h.sorted.sublist List.filter_sublist
    refine hothers.imp ?_
    intro a b hle ha
    have ha' : now + 1 < a.expiresAt + MAX_FILL_RESPONSE_S := of_decide_eq_true ha
    exact decide_eq_true (by omega)
  have hcount : ((others w.record intentDigest).filter binds).length ≤
    (stillBinding w now intentDigest).length := by
    rw [← List.length_map TakerIntentRecord.intentDigest,
      ← List.length_map TakerIntentRecord.intentDigest]
    refine List.Subperm.length_le (List.Nodup.subperm ?_ ?_)
    · exact ((List.filter_sublist.trans List.filter_sublist).map _).nodup h.nodup
    · intro digest hdigest
      obtain ⟨other, hother, rfl⟩ := List.mem_map.mp hdigest
      rw [List.mem_filter] at hother
      obtain ⟨hmem, hne, hunselected⟩ := mem_others.mp hother.1
      obtain ⟨proposal, hproposal, hsame, hexpiry⟩ := h.known other hmem
      have hlater : now + 1 < other.expiresAt + MAX_FILL_RESPONSE_S := of_decide_eq_true hother.2
      refine List.mem_map.mpr ⟨proposal, mem_stillBinding.mpr ⟨hproposal, ?_, ?_, ?_⟩, hsame⟩
      · rw [hsame]
        exact hne
      · rw [hsame]
        exact hunselected
      · exact canBind_iff.mpr ⟨(h.lives proposal hproposal).1, by omega⟩
  exact mem_lastOf hsorted (hcount.trans hfew) hintent (decide_eq_true hbinds)

/-- The trimmed record has every proposal that binds exactly when there is room for them. -/
theorem trimmed_binding_iff (h : Kept w) (hbound : Bound w) (hnow : w.clock ≤ now)
    (hwaits : w.waits now = false) :
    (∀ intent ∈ w.remember proposal, CanBind now intent →
      intent.intentDigest ∈ (trimmed w.record now proposal).map TakerIntentRecord.intentDigest) ↔
      (stillBinding w now proposal.intentDigest).length ≤
        roomFor w.record proposal.intentDigest := by
  have hidle := h.idle hnow hwaits
  constructor
  -- Those that still bind are distinct, and all of them stand among the last ones kept.
  · intro hhas
    refine le_trans ?_ (length_lastOf_le (l := others w.record proposal.intentDigest))
    rw [← List.length_map TakerIntentRecord.intentDigest,
      ← List.length_map TakerIntentRecord.intentDigest]
    refine List.Subperm.length_le (List.Nodup.subperm ?_ ?_)
    · exact (List.filter_sublist.map _).nodup h.made
    · intro digest hdigest
      obtain ⟨intent, hintent, rfl⟩ := List.mem_map.mp hdigest
      obtain ⟨hmade, hne, hunselected, hbinds⟩ := mem_stillBinding.mp hintent
      have hkept := hhas intent (mem_remember.mpr (Or.inl ⟨hmade, hne⟩)) hbinds
      obtain ⟨entry, hentry, hsame⟩ := List.mem_map.mp hkept
      rw [trimmed_eq h.nodup h.selected hidle, List.mem_append, List.mem_append,
        List.mem_singleton] at hentry
      rcases hentry with hother | hchosen | rfl
      · exact List.mem_map.mpr ⟨entry, hother, hsame⟩
      · have hselected := (mem_chosen.mp hchosen).2.2
        rw [hsame] at hselected
        exact absurd hselected hunselected
      · exact absurd hsame.symm hne
  · intro hfew intent hintent hbinds
    rcases mem_remember.mp hintent with ⟨hmade, hne⟩ | rfl
    · by_cases hselected : some intent.intentDigest = w.record.selectedIntentDigest
      · exact selected_trimmed h hidle hselected.symm
      · obtain ⟨entry, hentry, hsame⟩ := List.mem_map.mp (hbound intent hmade (hbinds.earlier hnow))
        have hexpiry := expiresAt_known h hentry hmade hsame
        have hother : entry ∈ others w.record proposal.intentDigest :=
          mem_others.mpr ⟨hentry, by rw [hsame]; exact hne, by rw [hsame]; exact hselected⟩
        refine List.mem_map.mpr ⟨entry, ?_, hsame⟩
        rw [trimmed_eq h.nodup h.selected hidle]
        refine List.mem_append_left _ (mem_last_of_few h hfew hother ?_)
        rw [hexpiry]
        exact (canBind_iff.mp hbinds).2
    · exact List.mem_map_of_mem (new_mem_trimmed h hidle)

theorem remembers_iff (h : Kept w) (hbound : Bound w) (i : TakeInput D P) :
    Remembers w i ↔ HasRoom w i := by
  cases i with
  | propose t p =>
    have hnow : w.clock ≤ w.time t := le_max_left _ _
    refine imp_congr_right fun hwaits => ?_
    rw [propose_eq h hnow hwaits]
    cases hsigned : signedProposal w.record (w.time t) p with
    | none => exact ⟨fun _ => nofun, fun _ => trivial⟩
    | some proposal =>
      have hidle := h.idle hnow hwaits
      dsimp only
      rw [show (∀ q, some proposal = some q → (stillBinding w (w.time t) q.intentDigest).length ≤
          roomFor w.record q.intentDigest) ↔
            (stillBinding w (w.time t) proposal.intentDigest).length ≤
            roomFor w.record proposal.intentDigest from by simp]
      rw [← trimmed_binding_iff h hbound hnow hwaits]
      constructor
      · rintro ⟨-, -, -, hbinding⟩
        exact hbinding
      · intro hbinding
        exact ⟨length_trimmed h hidle, List.mem_map_of_mem (new_mem_trimmed h hidle),
          fun digest hdigest => selected_trimmed h hidle hdigest, hbinding⟩
  | select intentDigest => exact Iff.rfl
  | release t => exact Iff.rfl

theorem bound_step (h : Kept w) (hbound : Bound w) {i : TakeInput D P} (hroom : HasRoom w i) :
    Bound (w.step i) := by
  have hlater : ∀ {now : Nat}, w.clock ≤ now → Bound { w with clock := now } :=
    fun hnow intent hintent hbinds => hbound intent hintent (hbinds.earlier hnow)
  cases i with
  | propose t p =>
    have hnow : w.clock ≤ w.time t := le_max_left _ _
    unfold TakeWorld.step
    dsimp only
    split
    · exact hlater hnow
    · rename_i hwaits
      rw [Bool.not_eq_true] at hwaits
      rw [propose_eq h hnow hwaits]
      cases hsigned : signedProposal w.record (w.time t) p with
      | none => exact hlater hnow
      | some proposal =>
        exact (trimmed_binding_iff h hbound hnow hwaits).mpr (hroom hwaits proposal hsigned)
  | select intentDigest =>
    unfold TakeWorld.step
    dsimp only
    split
    · exact hbound
    · exact hbound
  | release t =>
    unfold TakeWorld.step
    dsimp only
    split
    · exact hlater (le_max_left _ _)
    · intro intent hintent hbinds
      show intent.intentDigest ∈
        (w.record.markReleased _ _).intents.map TakerIntentRecord.intentDigest
      rw [markReleased_digests]
      exact hlater (le_max_left _ _) intent hintent hbinds

end Steps

theorem kept_start (orderDigest : D) (orderIssuedAt orderExpiresAt : Nat) :
    Kept (TakeWorld.start orderDigest orderIssuedAt orderExpiresAt : TakeWorld D P) := by
  refine ⟨List.nodup_nil, nofun, nofun, List.nodup_nil, List.Pairwise.nil, nofun, nofun⟩

/-- A take never forgets a proposal that can still bind exactly when, each time it signs one, there
is room in the record for those that can. -/
theorem proposals_remembered_iff (orderDigest : D) (orderIssuedAt orderExpiresAt : Nat)
    (is : List (TakeInput D P)) :
    Along TakeWorld.step Remembers (TakeWorld.start orderDigest orderIssuedAt orderExpiresAt) is ↔
      Along TakeWorld.step HasRoom
        (TakeWorld.start orderDigest orderIssuedAt orderExpiresAt) is := by
  refine along_iff (I := fun w => Kept w ∧ Bound w) ?_ ?_ ⟨kept_start _ _ _, nofun⟩ is
  · rintro w i ⟨h, hbound⟩
    exact remembers_iff h hbound i
  · rintro w i ⟨h, hbound⟩ hroom
    exact ⟨step_kept_take h i, bound_step h hbound hroom⟩

theorem bound_of_remembers {orderDigest : D} {orderIssuedAt orderExpiresAt : Nat}
    {is : List (TakeInput D P)}
    (h : Along TakeWorld.step Remembers
      (TakeWorld.start orderDigest orderIssuedAt orderExpiresAt) is) :
    Bound (run TakeWorld.step (TakeWorld.start orderDigest orderIssuedAt orderExpiresAt) is) := by
  refine (invariant_of_along (I := fun w => Kept w ∧ Bound w) ?_ h ⟨kept_start _ _ _, nofun⟩).2
  rintro w i ⟨hkept, hbound⟩ hremembers
  exact ⟨step_kept_take hkept i,
    bound_step hkept hbound ((remembers_iff hkept hbound i).mp hremembers)⟩

/-! ## Nine proposals in a row -/

/-- A pass at `t` that signs the proposal `k` for the open order of digest 0. -/
def pass (t k : Nat) : TakeInput Nat Unit := .propose t ⟨some (some 0, true), false, k, (), 0⟩

/-- A proposal every two minutes, each when the last has expired. -/
def ninePasses : List (TakeInput Nat Unit) :=
  (List.range 9).map fun k => pass (1000 + 120 * k) (k + 1)

/-- The ninth proposal pushes out the first, which a fill of its last second binds for another
minute. -/
theorem ninePasses_forget :
    let w : TakeWorld Nat Unit := run TakeWorld.step (TakeWorld.start 0 1000 10000) ninePasses
    (∃ intent ∈ w.made, intent.intentDigest = 1 ∧ CanBind w.clock intent) ∧ ¬ w.record.Has 1 ∧
      ¬ Along TakeWorld.step Remembers (TakeWorld.start 0 1000 10000) ninePasses := by
  intro w
  have hmade : w.made.any (fun intent => decide (intent.intentDigest = 1) &&
    decide (CanBind w.clock intent)) = true := by
    decide +kernel
  have hforgot : ¬ w.record.Has 1 := by
    unfold TakeRecord.Has
    decide +kernel
  obtain ⟨intent, hintent, hboth⟩ := List.any_eq_true.mp hmade
  rw [Bool.and_eq_true, decide_eq_true_iff, decide_eq_true_iff] at hboth
  refine ⟨⟨intent, hintent, hboth⟩, hforgot, ?_⟩
  intro hremembers
  refine hforgot ?_
  rw [← hboth.1]
  exact bound_of_remembers hremembers intent hintent hboth.2

end QuantaSwap.Taker
