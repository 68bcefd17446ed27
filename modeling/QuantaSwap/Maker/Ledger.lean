import QuantaSwap.Maker.Sound

/-!
# What holds in every state of the daemon

`Sound` puts the records on disk, the two copies of the state file and the history together. Every
allowed request keeps it, and so do the moves of the chains and a crash.
-/

set_option autoImplicit false
set_option linter.unusedSectionVars false

open Lib Lib.Evm Lib.Program QuantaSwap.Htlc QuantaSwap.Htlc.V3

namespace QuantaSwap.Maker.Daemon

section

variable {A B : Type} [DecidableEq A] [DecidableEq B] [Zero A] [Zero B] (cfg : Config A B)

/-! ## The history and the chains -/

structure Ledger (w : World A B) : Prop where
  reach : Legs.Reachable cfg.toTwoChains w.legs
  distinct : ∀ id p id' p', (id, p) ∈ w.secrets → (id', p') ∈ w.secrets →
    cfg.sha256 p = cfg.sha256 p' → id = id' ∧ p = p'
  hidden : ∀ id p, (id, p) ∈ w.secrets → cfg.sha256 p ∉ w.disclosed →
    ∀ l, (w.swap l (cfg.sha256 p)).status = .None
  published : ∀ p ∈ w.published, cfg.sha256 p ∈ w.disclosed
  placed : ∀ id p, (id, p) ∈ w.secrets → p ∈ w.published →
    ∀ l, (w.swap l (cfg.sha256 p)).status ≠ .None
  unclaimed : ∀ id p, (id, p) ∈ w.secrets → p ∉ w.published →
    ∀ l, (w.swap l (cfg.sha256 p)).status ≠ .Claimed
  own : ∀ id p l, (id, p) ∈ w.secrets → (w.swap l (cfg.sha256 p)).status ≠ .None →
    (w.swap l (cfg.sha256 p)).initiator = cfg.myAddress l →
      ∃ id' call value args, (id', l, Tx.htlc call, value) ∈ w.sent ∧
        lockArgs value call = some args ∧ args.1 = cfg.sha256 p
  locks : ∀ id l call value args, (id, l, Tx.htlc call, value) ∈ w.sent →
    lockArgs value call = some args → ∃ p, (id, p) ∈ w.secrets ∧ cfg.sha256 p = args.1
  issued : ∀ id p, (id, p) ∈ w.secrets → id ∈ w.issued
  postedIssued : ∀ id st, (id, st) ∈ w.posted → id ∈ w.issued
  single : ∀ id st st', (id, st) ∈ w.posted → (id, st') ∈ w.posted → st = st'

/-- The two copies of the state file. -/
structure Files (w : World A B) : Prop where
  memory : (w.memory.orders.map (·.id)).Nodup
  disk : (w.disk.orders.map (·.id)).Nodup
  agree : w.poisoned = false → ∀ id, w.memory.get id = w.disk.get id
  stranded : ∀ key ∈ w.disk.stranded.map StrandedCredit.key,
    key ∈ w.memory.stranded.map StrandedCredit.key ∨ key ∈ w.emptied

structure Sound (w : World A B) : Prop where
  ledger : Ledger cfg w
  files : Files w
  entry : ∀ id m, w.disk.get id = some m → id ∈ w.issued ∧ Entry cfg w id m

variable {cfg} {w w' : World A B}

/-! ## Requests that change no history -/

/-- The history and the chains are as they were. -/
structure SameHistory (w w' : World A B) : Prop where
  legs : w'.legs = w.legs
  issued : w'.issued = w.issued
  secrets : w'.secrets = w.secrets
  disclosed : w'.disclosed = w.disclosed
  published : w'.published = w.published
  posted : w'.posted = w.posted
  sent : w'.sent = w.sent
  shown : w'.shown = w.shown
  clock : w'.clock = w.clock
  heard : w'.heard = w.heard

theorem SameHistory.ticks (h : SameHistory w w') :
    Relation.ReflTransGen cfg.ticks w.clock w'.clock :=
  h.clock ▸ .refl

theorem Ledger.same (h : Ledger cfg w) (hlegs : w'.legs = w.legs) (hissued : w'.issued = w.issued)
    (hsecrets : w'.secrets = w.secrets) (hdisclosed : w'.disclosed = w.disclosed)
    (hpublished : w'.published = w.published) (hposted : w'.posted = w.posted)
    (hsent : w'.sent = w.sent) : Ledger cfg w' := by
  have hswap : ∀ l k, w'.swap l k = w.swap l k := by
    intro l k
    unfold World.swap World.leg
    rw [hlegs]
  refine ⟨?_, ?_, ?_, ?_, ?_, ?_, ?_, ?_, ?_, ?_, ?_⟩ <;>
    simp only [hlegs, hissued, hsecrets, hdisclosed, hpublished, hposted, hsent, hswap]
  exacts [h.reach, h.distinct, h.hidden, h.published, h.placed, h.unclaimed, h.own,
    h.locks, h.issued,
    h.postedIssued, h.single]

theorem Entry.same {id : String} {m : ManagedOrder A B} (h : Entry cfg w id m)
    (hsecrets : w'.secrets = w.secrets) (hdisclosed : w'.disclosed = w.disclosed)
    (hposted : w'.posted = w.posted) (hsent : w'.sent = w.sent)
    (hclock : Relation.ReflTransGen cfg.ticks w.clock w'.clock) : Entry cfg w' id m := by
  refine ⟨h.fill, h.acknowledged, ?_, h.locked, ?_, ?_, ?_,
    fun a ha => (h.listed a ha).trans hclock,
    fun s hs => ?_⟩
  · rw [hsecrets]
    exact h.secret
  · rw [hposted]
    exact h.posted
  · rw [hsecrets, hdisclosed]
    exact h.known
  · rw [hsent]
    exact h.sent
  · obtain ⟨t, ht, hle⟩ := h.selected s hs
    exact ⟨t, ht.trans hclock, hle⟩

/-! ## Writes -/

/-- What a write can leave: `d` are the records that it was to leave on disk. -/
structure Wrote (w : World A B) (f : StateFile A B) (d : String → Option (ManagedOrder A B))
    (r : Except Err Unit) (w' : World A B) : Prop where
  history : SameHistory w w'
  files : Files w'
  disk : ∀ id, w'.disk.get id = w.disk.get id ∨ w'.disk.get id = d id
  ok : r = .ok () → (∀ id, w'.disk.get id = d id) ∧ w'.tried = w.tried ∧
    ∀ s ∈ f.stranded, w'.OnRecord s.key
  error : ∀ e, r = .error e → (e = .poisoned ∨ e.ofWrite) ∧ w'.tried = w.interrupted.tried
  onRecord : ∀ key, w.OnRecord key → w'.OnRecord key

theorem Write.wrote {f undone : StateFile A B} {d : String → Option (ManagedOrder A B)}
    {r : Except Err Unit} (h : Write w f undone r w') (hw : Files w)
    (hf : (f.orders.map (·.id)).Nodup) (hu : (undone.orders.map (·.id)).Nodup)
    (hget : ∀ id, undone.get id = w.memory.get id)
    (hd : w.poisoned = false → ∀ id, f.get id = d id)
    (hstranded : ∀ key ∈ w.memory.stranded.map StrandedCredit.key,
      (key ∈ f.stranded.map StrandedCredit.key ∧ key ∈ undone.stranded.map StrandedCredit.key) ∨
      key ∈ w.emptied) :
    Wrote w f d r w' := by
  have hkept : ∀ key ∈ w.disk.stranded.map StrandedCredit.key,
      (key ∈ f.stranded.map StrandedCredit.key ∧ key ∈ undone.stranded.map StrandedCredit.key) ∨
        key ∈ w.emptied :=
    fun key hkey => (hw.stranded key hkey).elim (hstranded key) Or.inr
  have hrecord : ∀ key, w.OnRecord key → key ∈ f.stranded.map StrandedCredit.key ∨
    key ∈ w.emptied :=
    fun key hkey => hkey.elim (fun h => (hkept key h).imp_left And.left) Or.inr
  cases h with
  | refused hp =>
    refine ⟨⟨rfl, rfl, rfl, rfl, rfl, rfl, rfl, rfl, rfl, rfl⟩,
      ⟨hw.memory, hw.disk, hw.agree, hw.stranded⟩, fun _ => .inl rfl, (fun h => by cases h), ?_,
        fun _ h => h⟩
    intro e he
    cases he
    exact ⟨.inl rfl, rfl⟩
  | persisted hp h =>
    have hdisk := hd hp
    cases h with
    | written =>
      exact ⟨⟨rfl, rfl, rfl, rfl, rfl, rfl, rfl, rfl, rfl, rfl⟩,
        ⟨hf, hf, fun _ _ => rfl, fun _ h => .inl h⟩, fun id => .inr (hdisk id),
        fun _ => ⟨hdisk, rfl, fun _ hs => .inl (List.mem_map_of_mem hs)⟩,
          (fun _ h => by cases h), hrecord⟩
    | failed he =>
      refine ⟨⟨rfl, rfl, rfl, rfl, rfl, rfl, rfl, rfl, rfl, rfl⟩, ⟨hu, hw.disk, ?_, ?_⟩,
        fun _ => .inl rfl,
        (fun h => by cases h), ?_, fun _ h => h⟩
      · exact fun hp id => (hget id).trans (hw.agree hp id)
      · exact fun key hkey => (hkept key hkey).imp_left And.right
      · intro e heq
        cases heq
        exact ⟨.inr he, rfl⟩
    | unsynced =>
      refine ⟨⟨rfl, rfl, rfl, rfl, rfl, rfl, rfl, rfl, rfl, rfl⟩,
        ⟨hf, hw.disk, (fun h => by cases h), ?_⟩, fun _ => .inl rfl, (fun h => by cases h), ?_,
          fun _ h => h⟩
      · exact fun key hkey => (hkept key hkey).imp_left And.left
      · intro e he
        cases he
        exact ⟨.inl rfl, rfl⟩
    | landed =>
      refine ⟨⟨rfl, rfl, rfl, rfl, rfl, rfl, rfl, rfl, rfl, rfl⟩,
        ⟨hf, hf, (fun h => by cases h), fun _ h => .inl h⟩, fun id => .inr (hdisk id),
          (fun h => by cases h), ?_,
        hrecord⟩
      intro e he
      cases he
      exact ⟨.inl rfl, rfl⟩

theorem upsert_wrote {m : ManagedOrder A B} {r : Except Err Unit} (hw : Files w)
    (h : operate cfg w (.upsert m) r w') :
    Wrote w (w.memory.upsert m w.clock) (fun id => if m.id = id then some m else w.disk.get id) r
      w' := by
  refine Write.wrote h hw ?_ ?_ (fun id => by simp) (fun hp id => ?_) fun key hkey => .inl ⟨?_, ?_⟩
  · unfold StateFile.upsert
    rw [StateFile.rememberAdmission_orders]
    exact StateFile.ids_setOrder hw.memory m
  · unfold StateFile.upsertFailed
    rw [StateFile.restoreAdmission_orders, StateFile.rememberAdmission_orders]
    exact hw.memory
  · rw [StateFile.get_upsert, hw.agree hp]
  · unfold StateFile.upsert
    rw [StateFile.rememberAdmission_stranded]
    exact hkey
  · unfold StateFile.upsertFailed
    rw [StateFile.restoreAdmission_stranded, StateFile.rememberAdmission_stranded]
    exact hkey

theorem delete_wrote {id : String} {why : Retire} {r : Except Err Unit} (hw : Files w)
    (h : operate cfg w (.delete id why) r w') :
    Wrote w (w.memory.delete id) (fun id' => if id = id' then none else w.disk.get id') r w' := by
  refine Write.wrote h hw (StateFile.ids_deleteOrder hw.memory id)
    (StateFile.ids_deleteFailed hw.memory id)
    (fun id' => by simp) (fun hp id' => ?_) fun key hkey => .inl ⟨hkey, ?_⟩
  · rw [StateFile.get_delete, hw.agree hp]
  · unfold StateFile.deleteFailed
    split
    · exact hkey
    · exact hkey

theorem stranded_wrote {f : StateFile A B} {r : Except Err Unit} (hw : Files w)
    (hf : f.orders = w.memory.orders)
    (hstranded : ∀ key ∈ w.memory.stranded.map StrandedCredit.key,
      key ∈ f.stranded.map StrandedCredit.key ∨ key ∈ w.emptied)
    (h : Write w f f r w') : Wrote w f w.disk.get r w' := by
  have hget : ∀ id, f.get id = w.memory.get id := by
    intro id
    unfold StateFile.get
    rw [hf]
  refine Write.wrote h hw (hf ▸ hw.memory) (hf ▸ hw.memory) hget (fun hp id => ?_)
    fun key hkey => (hstranded key hkey).imp_left fun h => ⟨h, h⟩
  rw [hget, hw.agree hp]

theorem clear_wrote {key : LegKey × A × A} {r : Except Err Unit} (hw : Files w)
    (hempty : key ∈ w.emptied)
    (h : Write w (w.memory.clearStrandedCredit key) (w.memory.clearStrandedCredit key) r w') :
    Wrote w (w.memory.clearStrandedCredit key) w.disk.get r w' := by
  refine stranded_wrote hw rfl (fun key' hkey => ?_) h
  by_cases heq : key' = key
  · exact .inr (heq ▸ hempty)
  · obtain ⟨s, hs, rfl⟩ := List.mem_map.mp hkey
    exact .inl (List.mem_map_of_mem (List.mem_filter.mpr ⟨hs, decide_eq_true heq⟩))

theorem recordStrandedCredit_orders (f : StateFile A B) (e : StrandedCredit A B) :
    (f.recordStrandedCredit e).orders = f.orders := by
  unfold StateFile.recordStrandedCredit
  split <;> rfl

/-! ## A credit that is put on record -/

theorem emptied_noted {key' : LegKey × A × A} (key : LegKey × A × A) (h : key' ∈ w.emptied) :
    key' ∈ (w.noted key).emptied ∨ key' = key := by
  by_cases heq : key' = key
  · exact .inr heq
  · exact .inl (List.mem_filter.mpr ⟨h, decide_eq_true heq⟩)

theorem World.OnRecord.noted {key key' : LegKey × A × A} (h : w.OnRecord key')
    (hdisk : key ∈ w.disk.stranded.map StrandedCredit.key) : (w.noted key).OnRecord key' := by
  rcases h with hkey | hempty
  · exact .inl hkey
  · rcases emptied_noted key hempty with hempty' | rfl
    · exact .inr hempty'
    · exact .inl hdisk

theorem Files.noted (h : Files w) {key : LegKey × A × A}
    (hmem : key ∈ w.memory.stranded.map StrandedCredit.key) :
    Files (w.noted key) := by
  refine ⟨h.memory, h.disk, h.agree, fun key' hkey => ?_⟩
  rcases h.stranded key' hkey with hmem' | hempty
  · exact .inl hmem'
  · rcases emptied_noted key hempty with hempty' | rfl
    · exact .inr hempty'
    · exact .inl hmem

/-- What `recordStrandedCredit` leaves: nothing for an entry that is there, or a write. -/
theorem record_cases {e : StrandedCredit A B} {r : Except Err Unit} (hw : Files w)
    (h : operate cfg w (.recordStrandedCredit e) r w') :
    (w' = w.interrupted ∧ ReadMemory w () r) ∨
      (Files w' ∧ w' = w.noted e.key ∧ (∀ key, w.OnRecord key → w'.OnRecord key) ∧
        w'.OnRecord e.key ∧ r = .ok ()) ∨
      Wrote w (w.memory.recordStrandedCredit e) w.disk.get r w' ∧
      (r = .ok () → w'.OnRecord e.key) := by
  change ite _ _ _ at h
  split at h
  -- A credit that is on record is not written again.
  · rename_i hany
    obtain ⟨hread, rfl⟩ := h
    split
    · rename_i hdisk
      obtain ⟨hp, hkey⟩ := hdisk
      have hmem : e.key ∈ w.memory.stranded.map StrandedCredit.key := by
        obtain ⟨s, hs, heq⟩ := List.any_eq_true.mp hany
        exact List.mem_map.mpr ⟨s, hs, of_decide_eq_true heq⟩
      refine .inr (.inl ⟨hw.noted hmem, rfl, fun key h => h.noted hkey, .inl hkey, ?_⟩)
      cases hread with
      | refused hrefused => simp [hp] at hrefused
      | read => rfl
    · exact .inl ⟨rfl, hread⟩
  · rename_i hany
    obtain ⟨v, hv, rfl⟩ := h
    have hstranded : (w.memory.recordStrandedCredit e).stranded = w.memory.stranded ++ [e] := by
      unfold StateFile.recordStrandedCredit
      rw [if_neg hany]
    have hwrote := stranded_wrote hw (recordStrandedCredit_orders _ _) (fun key hkey => by
      rw [hstranded, List.map_append]
      exact .inl (List.mem_append_left _ hkey)) hv
    refine .inr (.inr ?_)
    cases r with
    | error err => exact ⟨hwrote, fun h => by cases h⟩
    | ok _ =>
      obtain ⟨hdisk, htried, -⟩ := hwrote.ok rfl
      have hkey : e.key ∈ v.disk.stranded.map StrandedCredit.key ∧
        e.key ∈ v.memory.stranded.map StrandedCredit.key := by
        have hlast : e ∈ (w.memory.recordStrandedCredit e).stranded := by
          rw [hstranded]
          exact List.mem_append_right _ (List.mem_singleton_self e)
        cases hv with
        | persisted _ hp =>
          cases hp
          exact ⟨List.mem_map_of_mem hlast, List.mem_map_of_mem hlast⟩
      obtain ⟨hlegs, hissued, hsecrets, hdisclosed, hpublished, hposted, hsent, hshown, hclock,
        hheard⟩ := hwrote.history
      refine ⟨⟨⟨hlegs, hissued, hsecrets, hdisclosed, hpublished, hposted, hsent, hshown,
        hclock, hheard⟩,
        hwrote.files.noted hkey.2, hwrote.disk, fun _ => ⟨hdisk, htried, fun s hs => ?_⟩,
          (fun _ h => by cases h),
        fun key h => (hwrote.onRecord key h).noted hkey.1⟩, fun _ => .inl hkey.1⟩
      exact ((hwrote.ok rfl).2.2 s hs).noted hkey.1

theorem balanceRead_same (w : World A B) (key : LegKey × A × A) (balance : Option Nat) :
    SameHistory w (w.balanceRead key balance) ∧ (w.balanceRead key balance).memory = w.memory ∧
      (w.balanceRead key balance).disk = w.disk ∧
      (w.balanceRead key balance).poisoned = w.poisoned ∧
      (w.balanceRead key balance).tried = w.tried ∧
      w.emptied ⊆ (w.balanceRead key balance).emptied := by
  unfold World.balanceRead
  split
  · exact ⟨⟨rfl, rfl, rfl, rfl, rfl, rfl, rfl, rfl, rfl, rfl⟩, rfl, rfl, rfl, rfl,
      List.subset_cons_self _ _⟩
  · exact ⟨⟨rfl, rfl, rfl, rfl, rfl, rfl, rfl, rfl, rfl, rfl⟩, rfl, rfl, rfl, rfl,
      List.Subset.refl _⟩

/-! ## The invariant under each request -/

theorem Sound.same (h : Sound cfg w) (hh : SameHistory w w') (hf : Files w')
    (hd : ∀ id, w'.disk.get id = w.disk.get id) : Sound cfg w' := by
  refine ⟨h.ledger.same hh.legs hh.issued hh.secrets hh.disclosed hh.published hh.posted hh.sent,
    hf,
    fun id m hm => ?_⟩
  rw [hd] at hm
  obtain ⟨hi, he⟩ := h.entry id m hm
  exact ⟨hh.issued ▸ hi, he.same hh.secrets hh.disclosed hh.posted hh.sent hh.ticks⟩

theorem Sound.upsert {m : ManagedOrder A B} {r : Except Err Unit} (h : Sound cfg w)
    (hg : Guard cfg w (.upsert m)) (ho : operate cfg w (.upsert m) r w') : Sound cfg w' := by
  have hw := upsert_wrote h.files ho
  have hh := hw.history
  refine ⟨h.ledger.same hh.legs hh.issued hh.secrets hh.disclosed hh.published hh.posted hh.sent,
    hw.files, fun id n hn => ?_⟩
  have hnew : m.id ∈ w.issued ∧ Entry cfg w m.id m := by
    obtain hg | ⟨m₀, hm₀, hc⟩ := hg
    · exact ⟨hg.issued,
        hg.entry fun l call value args hs ha => h.ledger.locks _ l call value args hs ha⟩
    · obtain ⟨hi, he⟩ := h.entry _ m₀ hm₀
      have hid := StateFile.get_id hm₀
      rw [← hid] at he hi ⊢
      exact ⟨hi, he.change hc⟩
  suffices id ∈ w.issued ∧ Entry cfg w id n from
    ⟨hh.issued ▸ this.1, this.2.same hh.secrets hh.disclosed hh.posted hh.sent hh.ticks⟩
  obtain heq | heq := hw.disk id
  · exact h.entry id n (heq ▸ hn)
  · rw [heq] at hn
    split at hn
    · rename_i hid
      cases hn
      exact hid ▸ hnew
    · exact h.entry id n hn

theorem Sound.delete {id : String} {why : Retire} {r : Except Err Unit} (h : Sound cfg w)
    (ho : operate cfg w (.delete id why) r w') : Sound cfg w' := by
  have hw := delete_wrote h.files ho
  have hh := hw.history
  refine ⟨h.ledger.same hh.legs hh.issued hh.secrets hh.disclosed hh.published hh.posted hh.sent,
    hw.files, fun id' n hn => ?_⟩
  suffices w.disk.get id' = some n by
    obtain ⟨hi, he⟩ := h.entry id' n this
    exact ⟨hh.issued ▸ hi, he.same hh.secrets hh.disclosed hh.posted hh.sent hh.ticks⟩
  obtain heq | heq := hw.disk id'
  · exact heq ▸ hn
  · rw [heq] at hn
    split at hn
    · cases hn
    · exact hn

theorem Sound.newSecret {id : String} {p : B} (h : Sound cfg w) (hg : id ∈ w.issued)
    (ho : operate cfg w (.newSecret id) p w') : Sound cfg w' := by
  obtain ⟨hfresh, hdisclosed, hnone, rfl⟩ := ho
  -- The secret is fresh: nobody knows its digest, and neither chain has a swap under it.
  refine ⟨⟨h.ledger.reach, ?_, ?_, h.ledger.published, ?_, ?_, ?_, ?_, ?_, h.ledger.postedIssued,
    h.ledger.single⟩, ⟨h.files.memory, h.files.disk, h.files.agree, h.files.stranded⟩,
      fun id' m hm => ?_⟩
  · intro id₁ p₁ id₂ p₂ h₁ h₂ heq
    rcases List.mem_cons.mp h₁ with h₁ | h₁ <;> rcases List.mem_cons.mp h₂ with h₂ | h₂
    · cases h₁
      cases h₂
      exact ⟨rfl, rfl⟩
    · cases h₁
      exact absurd heq.symm (hfresh _ _ h₂)
    · cases h₂
      exact absurd heq (hfresh _ _ h₁)
    · exact h.ledger.distinct _ _ _ _ h₁ h₂ heq
  · intro id₁ p₁ h₁ hd l
    rcases List.mem_cons.mp h₁ with h₁ | h₁
    · cases h₁
      exact hnone l
    · exact h.ledger.hidden _ _ h₁ hd l
  · intro id₁ p₁ h₁ hp l
    rcases List.mem_cons.mp h₁ with h₁ | h₁
    · cases h₁
      exact absurd (h.ledger.published _ hp) hdisclosed
    · exact h.ledger.placed _ _ h₁ hp l
  · intro id₁ p₁ h₁ hp l
    rcases List.mem_cons.mp h₁ with h₁ | h₁
    · cases h₁
      have := hnone l
      change (w.swap l (cfg.sha256 p)).status ≠ .Claimed
      simp [this]
    · exact h.ledger.unclaimed _ _ h₁ hp l
  · intro id₁ p₁ l h₁ hs hi
    rcases List.mem_cons.mp h₁ with h₁ | h₁
    · cases h₁
      exact absurd (hnone l) hs
    · exact h.ledger.own _ _ l h₁ hs hi
  · intro id₁ l call value args hs ha
    obtain ⟨p₁, h₁, hp₁⟩ := h.ledger.locks _ l call value args hs ha
    exact ⟨p₁, List.mem_cons_of_mem _ h₁, hp₁⟩
  · intro id₁ p₁ h₁
    rcases List.mem_cons.mp h₁ with h₁ | h₁
    · cases h₁
      exact hg
    · exact h.ledger.issued _ _ h₁
  · obtain ⟨hi, he⟩ := h.entry id' m hm
    refine ⟨hi, he.fill, he.acknowledged, ?_, he.locked, he.posted, ?_, he.sent, he.listed,
      he.selected⟩
    · intro k hk
      obtain ⟨p₁, hp₁, h₁, hs⟩ := he.secret k hk
      exact ⟨p₁, hp₁, List.mem_cons_of_mem _ h₁, hs⟩
    · intro p₁ h₁ hd
      rcases List.mem_cons.mp h₁ with h₁ | h₁
      · cases h₁
        exact absurd hd hdisclosed
      · exact he.known p₁ h₁ hd

theorem Sound.disclose {id : String} {m : ManagedOrder A B} {k : B} (h : Sound cfg w)
    (hm : w.disk.get id = some m) (hk : m.hashlock = some k)
    (hf : m.protocol.isSome = true → m.fillProof.isSome = true) {id' : String}
    {m' : ManagedOrder A B}
    (hm' : w.disk.get id' = some m') {p : B} (hp : (id', p) ∈ w.secrets) (hpk : cfg.sha256 p = k) :
    m'.hashlock = some (cfg.sha256 p) ∧
    (m'.protocol.isSome = true → m'.fillProof.isSome = true) := by
  obtain ⟨p₀, -, hp₀, hs⟩ := (h.entry id m hm).2.secret k hk
  obtain ⟨rfl, rfl⟩ := h.ledger.distinct _ _ _ _ hp hp₀ (hpk.trans hs.symm)
  rw [hm] at hm'
  cases hm'
  exact ⟨hpk ▸ hk, hf⟩

theorem Holds.unique {m : ManagedOrder A B} {st st' : Statement A B} (he : ∀ proof,
    m.fillProof = some proof → m.cancelProof = none) (h : m.Holds cfg st) (h' : m.Holds cfg st') :
    st = st' := by
  cases st with
  | fill proof intent auth =>
    obtain ⟨hf, ⟨s, hs, rfl, rfl, -⟩, -⟩ := h
    cases st' with
    | fill proof' intent' auth' =>
      obtain ⟨hf', ⟨s', hs', rfl, rfl, -⟩, -⟩ := h'
      rw [hf] at hf'
      rw [hs] at hs'
      cases hf'
      cases hs'
      rfl
    | cancel proof' => exact absurd ((he proof hf).symm.trans h') (by simp)
  | cancel proof =>
    cases st' with
    | fill proof' intent' auth' => exact absurd ((he proof' h'.1).symm.trans h) (by simp)
    | cancel proof' => rw [Option.some.inj (h.symm.trans h')]

theorem Holds.hashlock {id : String} {m : ManagedOrder A B} {st : Statement A B} {k : B}
    (he : Entry cfg w id m) (h : m.Holds cfg st) (hk : st.hashlock = some k) :
    m.hashlock = some k ∧ m.fillProof.isSome = true := by
  cases st with
  | cancel proof => cases hk
  | fill proof intent auth =>
    cases hk
    exact ⟨(he.fill proof h.1).2.2, by simp [h.1]⟩

theorem Sound.post {id : String} {st : Statement A B} {r : Except Err (OrderView A B)}
    (h : Sound cfg w) (hg : Guard cfg w (.post id st)) (ho : operate cfg w (.post id st) r w') :
    Sound cfg w' := by
  obtain ⟨m, hm, hprot, hholds⟩ := hg
  obtain ⟨-, rfl⟩ := ho
  obtain ⟨hissued, hentry⟩ := h.entry id m hm
  have hsub : ∀ k ∈ w.disclosed, k ∈ st.hashlock.toList ++ w.disclosed :=
    fun _ hk => List.mem_append_right _ hk
  refine ⟨⟨h.ledger.reach, h.ledger.distinct, ?_, ?_, h.ledger.placed, h.ledger.unclaimed,
    h.ledger.own, h.ledger.locks, h.ledger.issued, ?_, ?_⟩,
    ⟨h.files.memory, h.files.disk, h.files.agree, h.files.stranded⟩, fun id' m' hm' => ?_⟩
  · exact fun id₁ p₁ h₁ hd => h.ledger.hidden id₁ p₁ h₁ fun hmem => hd (hsub _ hmem)
  · exact fun p hp => hsub _ (h.ledger.published p hp)
  · intro id₁ st₁ h₁
    rcases List.mem_cons.mp h₁ with h₁ | h₁
    · cases h₁
      exact hissued
    · exact h.ledger.postedIssued _ _ h₁
  · intro id₁ st₁ st₂ h₁ h₂
    have hother : ∀ st', (id, st') ∈ w.posted → st = st' := fun st' hmem =>
      Holds.unique (fun proof hp => (hentry.fill proof hp).1) hholds (hentry.posted st' hmem).2
    rcases List.mem_cons.mp h₁ with h₁ | h₁ <;> rcases List.mem_cons.mp h₂ with h₂ | h₂
    · cases h₁
      cases h₂
      rfl
    · cases h₁
      exact hother _ h₂
    · cases h₂
      exact (hother _ h₁).symm
    · exact h.ledger.single _ _ _ h₁ h₂
  · obtain ⟨hi, he⟩ := h.entry id' m' hm'
    refine ⟨hi, he.fill, he.acknowledged, he.secret, he.locked, ?_, ?_, he.sent, he.listed,
      he.selected⟩
    · intro st₁ h₁
      rcases List.mem_cons.mp h₁ with h₁ | h₁
      · cases h₁
        change w.disk.get id = some m' at hm'
        rw [hm] at hm'
        cases hm'
        exact ⟨hprot, hholds⟩
      · exact he.posted _ h₁
    · intro p hp hd
      rcases List.mem_append.mp hd with hd | hd
      · obtain ⟨hk, hf⟩ := Holds.hashlock hentry hholds (Option.mem_toList.mp hd)
        exact h.disclose hm hk (fun _ => hf) hm' hp rfl
      · exact he.known p hp hd

theorem Sound.announce {id token : String} {k : B} {t1 t2 : Int} {r : Except Err (OrderView A B)}
    (h : Sound cfg w) (hg : Guard cfg w (.announceHashlock id token k t1 t2))
    (ho : operate cfg w (.announceHashlock id token k t1 t2) r w') : Sound cfg w' := by
  obtain ⟨m, hm, hprot, hk⟩ := hg
  obtain ⟨-, rfl⟩ := ho
  have hsub : ∀ k' ∈ w.disclosed, k' ∈ k :: w.disclosed := fun _ hk => List.mem_cons_of_mem _ hk
  refine ⟨⟨h.ledger.reach, h.ledger.distinct, ?_, ?_, h.ledger.placed, h.ledger.unclaimed,
    h.ledger.own, h.ledger.locks, h.ledger.issued, h.ledger.postedIssued, h.ledger.single⟩,
    ⟨h.files.memory, h.files.disk, h.files.agree, h.files.stranded⟩, fun id' m' hm' => ?_⟩
  · exact fun id₁ p₁ h₁ hd => h.ledger.hidden id₁ p₁ h₁ fun hmem => hd (hsub _ hmem)
  · exact fun p hp => hsub _ (h.ledger.published p hp)
  · obtain ⟨hi, he⟩ := h.entry id' m' hm'
    refine ⟨hi, he.fill, he.acknowledged, he.secret, he.locked, he.posted, ?_, he.sent, he.listed,
      he.selected⟩
    intro p hp hd
    rcases List.mem_cons.mp hd with hd | hd
    · exact h.disclose hm hk (by simp [hprot]) hm' hp hd
    · exact he.known p hp hd

theorem Sound.send {id : String} {l : LegKey} {tx : Tx A B} {value : Nat}
    {r : Except SendError Unit} (h : Sound cfg w) (hg : Guard cfg w (.send id l tx value))
    (ho : operate cfg w (.send id l tx value) r w') : Sound cfg w' := by
  obtain ⟨m, hm, hmay⟩ := hg
  obtain rfl : w' = _ := ho
  obtain ⟨hissued, hentry⟩ := h.entry id m hm
  have hsub : ∀ k ∈ w.disclosed, k ∈ tx.hashlock.toList ++ w.disclosed :=
    fun _ hk => List.mem_append_right _ hk
  -- A claim publishes a secret whose swap stands on both chains.
  have hnew : ∀ p ∈ tx.preimage.toList, tx.hashlock = some (cfg.sha256 p) ∧
      ∀ l', (w.swap l' (cfg.sha256 p)).status ≠ .None := by
    intro p hp
    have hp := Option.mem_toList.mp hp
    obtain ⟨hpre, hplaced⟩ := hmay.preimage p hp
    obtain ⟨k, hk⟩ : ∃ k, tx.hashlock = some k := by
      cases tx with
      | approve => cases hp
      | htlc call =>
        cases call with
        | claim k p' => exact ⟨k, rfl⟩
        | _ => cases hp
    obtain ⟨p', hp', -, hsha⟩ := hentry.secret k (hmay.hashlock k hk).1
    rw [hpre] at hp'
    cases hp'
    rw [hsha]
    exact ⟨hk, fun l' => hplaced k l' hk⟩
  refine ⟨⟨h.ledger.reach, h.ledger.distinct, ?_, ?_, ?_, ?_, ?_, ?_, h.ledger.issued,
    h.ledger.postedIssued, h.ledger.single⟩,
      ⟨h.files.memory, h.files.disk, h.files.agree, h.files.stranded⟩,
    fun id' m' hm' => ?_⟩
  · exact fun id₁ p₁ h₁ hd => h.ledger.hidden id₁ p₁ h₁ fun hmem => hd (hsub _ hmem)
  · intro p hp
    rcases List.mem_append.mp hp with hp | hp
    · exact List.mem_append_left _ (Option.mem_toList.mpr (hnew p hp).1)
    · exact hsub _ (h.ledger.published p hp)
  · intro id₁ p h₁ hp l'
    rcases List.mem_append.mp hp with hp | hp
    · exact (hnew p hp).2 l'
    · exact h.ledger.placed _ _ h₁ hp l'
  · exact fun id₁ p h₁ hp => h.ledger.unclaimed _ _ h₁ fun hmem => hp (List.mem_append_right _ hmem)
  · intro id₁ p l' h₁ hs hi
    obtain ⟨id', call, value', args, hmem, hargs⟩ := h.ledger.own _ _ l' h₁ hs hi
    exact ⟨id', call, value', args, List.mem_cons_of_mem _ hmem, hargs⟩
  · intro id₁ l' call value' args hmem hargs
    rcases List.mem_cons.mp hmem with hmem | hmem
    · cases hmem
      obtain ⟨p, -, hp, hsha⟩ := hentry.secret _ (hmay.lock call args rfl hargs).2.2
      exact ⟨p, hp, hsha⟩
    · exact h.ledger.locks _ l' call value' args hmem hargs
  · obtain ⟨hi, he⟩ := h.entry id' m' hm'
    refine ⟨hi, he.fill, he.acknowledged, he.secret, he.locked, he.posted, ?_, ?_, he.listed,
      he.selected⟩
    · intro p hp hd
      rcases List.mem_append.mp hd with hd | hd
      · obtain ⟨hk, hf⟩ := hmay.hashlock _ (Option.mem_toList.mp hd)
        exact h.disclose hm hk hf hm' hp rfl
      · exact he.known p hp hd
    · intro l' call value' args hmem hargs
      rcases List.mem_cons.mp hmem with hmem | hmem
      · cases hmem
        change w.disk.get id = some m' at hm'
        rw [hm] at hm'
        cases hm'
        exact hmay.lock call args rfl hargs
      · exact he.sent l' call value' args hmem hargs

/-! ## The surroundings and a crash -/

theorem Sound.env (h : Sound cfg w) (hm : Env cfg w w') : Sound cfg w' := by
  have hreach : Legs.Reachable cfg.toTwoChains w'.legs := by
    obtain ⟨i, -, rfl⟩ := hm
    exact h.ledger.reach.run [i]
  have hkept : ∃ legs, w' = { w with legs := legs } := by
    obtain ⟨i, -, rfl⟩ := hm
    exact ⟨_, rfl⟩
  have hextends := fun l k => hm.extends l k
  have hhidden := fun id p hs hd l =>
    hm.hidden (l := l) (p := p) hs hd (h.ledger.hidden id p hs hd l)
  have hunclaimed := fun id p hs hp l =>
    hm.unclaimed (l := l) (p := p) hs hp (h.ledger.unclaimed id p hs hp l)
  have hown := fun id p l hs =>
    hm.own (l := l) (k := cfg.sha256 p) (h.ledger.own id p l hs)
  obtain ⟨legs, rfl⟩ := hkept
  refine ⟨⟨hreach, h.ledger.distinct, hhidden, h.ledger.published, ?_, hunclaimed, hown,
    h.ledger.locks, h.ledger.issued, h.ledger.postedIssued, h.ledger.single⟩,
    ⟨h.files.memory, h.files.disk, h.files.agree, h.files.stranded⟩, fun id m hm => ?_⟩
  · exact fun id p hs hp l => (hextends l _).not_none (h.ledger.placed id p hs hp l)
  · obtain ⟨hi, he⟩ := h.entry id m hm
    exact ⟨hi, he.same rfl rfl rfl rfl .refl⟩

theorem Sound.envs (h : Sound cfg w) (hm : Relation.ReflTransGen (Env cfg) w w') :
    Sound cfg w' := by
  induction hm with
  | refl => exact h
  | tail _ hstep ih => exact ih.env hstep

theorem Sound.quiet (h : Sound cfg w) {clock : Int} (shown : String → Nat × Nat)
    (tried : String → Option Withdrawal) (hclock : Relation.ReflTransGen cfg.ticks w.clock clock) :
    Sound cfg { w with clock := clock, shown := shown, tried := tried } :=
  ⟨h.ledger.same rfl rfl rfl rfl rfl rfl rfl,
    ⟨h.files.memory, h.files.disk, h.files.agree, h.files.stranded⟩,
    fun id m hm => ⟨(h.entry id m hm).1, (h.entry id m hm).2.same rfl rfl rfl rfl hclock⟩⟩

theorem Sound.hear (h : Sound cfg w) (heard : List (Heard A B)) : Sound cfg (w.hear heard) :=
  ⟨h.ledger.same rfl rfl rfl rfl rfl rfl rfl,
    ⟨h.files.memory, h.files.disk, h.files.agree, h.files.stranded⟩,
    fun id m hm => ⟨(h.entry id m hm).1, (h.entry id m hm).2.same rfl rfl rfl rfl .refl⟩⟩

theorem Sound.crash (h : Sound cfg w) (hc : Crash cfg w w') : Sound cfg w' := by
  obtain ⟨t, hticks, rfl⟩ := hc
  refine ⟨h.ledger.same rfl rfl rfl rfl rfl rfl rfl,
    ⟨?_, h.files.disk, fun _ id => ?_, fun key hkey => ?_⟩,
    fun id m hm => ⟨(h.entry id m hm).1, (h.entry id m hm).2.same rfl rfl rfl rfl (.single hticks)⟩⟩
  · change ((w.disk.hydrate t).orders.map (·.id)).Nodup
    rw [StateFile.hydrate_orders]
    exact h.files.disk
  · exact StateFile.get_hydrate t id
  · exact (StateFile.hydrate_stranded (f := w.disk) t).symm ▸ .inl hkey

theorem Sound.balanceRead (h : Sound cfg w) (key : LegKey × A × A) (balance : Option Nat) :
    Sound cfg (w.balanceRead key balance) := by
  obtain ⟨hhistory, hmemory, hdisk, hpoisoned, -, hemptied⟩ := balanceRead_same w key balance
  refine h.same hhistory ⟨?_, ?_, ?_, ?_⟩ fun id => by rw [hdisk]
  · rw [hmemory]
    exact h.files.memory
  · rw [hdisk]
    exact h.files.disk
  · rw [hmemory, hdisk, hpoisoned]
    exact h.files.agree
  · rw [hmemory, hdisk]
    exact fun key hkey => (h.files.stranded key hkey).imp_right fun h => hemptied h

theorem Sound.operate {β : Type} {r : Req A B β} {b : β} (h : Sound cfg w) (hg : Guard cfg w r)
    (ho : operate cfg w r b w') : Sound cfg w' := by
  cases r with
  | now =>
    obtain ⟨hticks, rfl⟩ := ho
    exact h.quiet w.shown w.tried (.single hticks)
  | newSecret id => exact h.newSecret hg ho
  | signOrder order makerToken issuedAt expiresAt =>
    obtain ⟨-, rfl⟩ := ho
    have hsub : ∀ id ∈ w.issued, ∀ ids : List String, id ∈ ids ++ w.issued :=
      fun _ h _ => List.mem_append_right _ h
    refine ⟨⟨h.ledger.reach, h.ledger.distinct, h.ledger.hidden, h.ledger.published,
      h.ledger.placed,
      h.ledger.unclaimed, h.ledger.own, h.ledger.locks, ?_, ?_, h.ledger.single⟩,
      ⟨h.files.memory, h.files.disk, h.files.agree, h.files.stranded⟩, fun id m hm => ?_⟩
    · exact fun id p hp => hsub _ (h.ledger.issued id p hp) _
    · exact fun id st hs => hsub _ (h.ledger.postedIssued id st hs) _
    · obtain ⟨hi, he⟩ := h.entry id m hm
      exact ⟨hsub _ hi _, he.same rfl rfl rfl rfl .refl⟩
  | all =>
    obtain ⟨-, rfl⟩ := ho
    exact h.quiet w.shown _ .refl
  | get id =>
    obtain ⟨-, rfl⟩ := ho
    exact h.quiet w.shown _ .refl
  | upsert m => exact h.upsert hg ho
  | delete id why => exact h.delete ho
  | recordStrandedCredit e =>
    obtain ⟨rfl, -⟩ | ⟨hfiles, rfl, -⟩ | ⟨hw, -⟩ := record_cases h.files ho
    · exact h.quiet w.shown _ .refl
    · exact h.same ⟨rfl, rfl, rfl, rfl, rfl, rfl, rfl, rfl, rfl, rfl⟩ hfiles fun _ => rfl
    · exact h.same hw.history hw.files fun id => (hw.disk id).elim (fun h => h) (fun h => h)
  | clearStrandedCredit key =>
    change ite _ _ _ at ho
    split at ho
    · have hw := clear_wrote h.files hg ho
      exact h.same hw.history hw.files fun id => (hw.disk id).elim (fun h => h) (fun h => h)
    · obtain ⟨-, rfl⟩ := ho
      exact h
  | post id st => exact h.post hg ho
  | announceHashlock id token k t1 t2 => exact h.announce hg ho
  | send id l tx value => exact h.send hg ho
  | observe id q =>
    obtain ⟨v, shown, henv, -, rfl⟩ := ho
    exact (h.envs henv).quiet _ v.tried .refl
  | mid | canAttempt | heartbeat =>
    obtain rfl : w' = w := ho
    exact h
  | quote =>
    obtain rfl : w' = _ := ho
    exact h.hear _
  | signCancel | intents =>
    obtain ⟨-, rfl⟩ := ho
    exact h.hear _
  | signFill | strandedCredits | retainedAdmissionCount | createSigned | cancel | allowance
  | preflight =>
    obtain ⟨-, rfl⟩ := ho
    exact h
  | creditOf =>
    obtain ⟨-, rfl⟩ := ho
    exact h.balanceRead _ _

end

end QuantaSwap.Maker.Daemon
