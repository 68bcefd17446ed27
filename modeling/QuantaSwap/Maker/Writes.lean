import QuantaSwap.Lib.Replace
import QuantaSwap.Lib.Run
import QuantaSwap.Maker.Load

/-!
# Writes of the maker's state file

Every operation of `StateFile` in `marketmaker/src/state.ts`, with the steps of its `persist` and
what it leaves in memory when one of them fails. A restart reads the file with the constructor.
-/

set_option autoImplicit false

namespace QuantaSwap.Maker.Daemon

open Lib Lib.Checks Lib.Replace

/-- The last second that a `Date` shows. -/
def MAX_DATE_S : Int := 8640000000000

/-- What `Math.floor(Date.now() / 1000)` answers. -/
abbrev Reading := { t : Int // t ≤ MAX_DATE_S }

variable {A B : Type} [DecidableEq A] [DecidableEq B] [Zero B]

/-! ## The operations -/

inductive FileCall (A B : Type)
  | all
  | retainedAdmissionCount
  | strandedCredits
  | recordStrandedCredit (entry : StrandedCredit A B)
  | dismissCounterpartyCredit (key : LegKey × A × A)
  | clearStrandedCredit (key : LegKey × A × A)
  | upsert (order : ManagedOrder A B)
  | delete (id : String)

inductive FileAnswer (A B : Type)
  | done
  | orders (orders : List (ManagedOrder A B))
  | count (n : Nat)
  | credits (credits : List (StrandedCredit A B))
  | dismissed (entry : Option (StrandedCredit A B))
  | cleared (found : Bool)

variable (codec : FileCodec A B)

/-- An operation on the maps. `now` is the clock as the operation reads it, `stamp` as the write
does. Only `upsert` and `delete` put back what they changed. -/
def FileCall.act (now stamp : Int) (f : StateFile A B) :
    FileCall A B → Call (StateFile A B) (StateFile A B) (FileAnswer A B)
  | all => .skip (.orders f.orders)
  | retainedAdmissionCount => .skip (.count (f.retainedAdmissionCount now))
  | strandedCredits => .skip (.credits f.stranded)
  | recordStrandedCredit entry =>
    if (f.credit entry.key).isSome then .skip .done
    else
      let next := f.recordStrandedCredit entry
      .write next (next.envelope stamp) next .done
  | dismissCounterpartyCredit key =>
    match f.credit key with
    | none => .skip (.dismissed none)
    | some entry =>
      if entry.own then .skip (.dismissed none)
      else
        let next := f.clearStrandedCredit key
        .write next (next.envelope stamp) next (.dismissed (some entry))
  | clearStrandedCredit key =>
    if (f.credit key).isNone then .skip (.cleared false)
    else
      let next := f.clearStrandedCredit key
      .write next (next.envelope stamp) next (.cleared true)
  | upsert order =>
    if codec.sameDeployment order then
      let next := f.upsert order now
      .write next (next.envelope stamp) (f.upsertFailed order now) .done
    else .refuse
  | delete id =>
    let next := f.delete id
    .write next (next.envelope stamp) (f.deleteFailed id) .done

/-- The call changes the parked credits. -/
def FileCall.parks (f : StateFile A B) : FileCall A B → Bool
  | recordStrandedCredit entry => (f.credit entry.key).isNone
  | dismissCounterpartyCredit key => (f.credit key).any fun entry => !entry.own
  | clearStrandedCredit key => (f.credit key).isSome
  | _ => false

/-- The call has something to write. -/
def FileCall.writes (f : StateFile A B) : FileCall A B → Bool
  | upsert order => codec.sameDeployment order
  | delete _ => true
  | call => call.parks f

/-- The call is of a record of another deployment. -/
def FileCall.foreign : FileCall A B → Bool
  | upsert order => !codec.sameDeployment order
  | _ => false

/-! ## A process with its file -/

/-- A restart reads the rows of the file; no file is a first boot. -/
def stateFormat : Format (StateFile A B) (StateFile A B) :=
  ⟨fun rows => (rows.parse codec).toOption, .fresh⟩

structure FileProcess (A B : Type) where
  store : Store (StateFile A B) (StateFile A B)
  /-- The latest reading of the clock so far. -/
  latest : Int
  /-- The times to which the start extended admissions that the file does not hold for so long. -/
  ahead : List Int

structure FileInput (A B : Type) where
  call : FileCall A B
  now : Reading
  stamp : Reading
  fault : Fault

namespace FileProcess

variable (p : FileProcess A B) (i : FileInput A B)

def latestWith : Int := max p.latest (max i.now.val i.stamp.val)

def call (f : StateFile A B) : Call (StateFile A B) (StateFile A B) (FileAnswer A B) :=
  i.call.act codec i.now.val i.stamp.val f

def performed : Performed (StateFile A B) (StateFile A B) (FileAnswer A B) :=
  p.store.perform (call codec i) i.fault

/-- The call comes to the rename of its file. -/
def renames : Bool :=
  !p.store.poisoned && !i.fault.early && i.call.writes codec p.store.memory

def step : FileProcess A B :=
  ⟨(p.performed codec i).store, p.latestWith i, if p.renames codec i then [] else p.ahead⟩

end FileProcess

namespace StateFile

/-- The admissions that a start at `t` extends beyond what the rows hold, by their new times. -/
def ahead (rows : StateFile A B) (t : Int) : List Int :=
  rows.orders.filterMap fun m =>
    (orderRetentionUntil m t).filter fun until' =>
      !(rows.admission m.id).any fun u => decide (until' ≤ u)

/-- The unexpired admissions once the order is stored: those of others, and its own. -/
def admitted (f : StateFile A B) (m : ManagedOrder A B) (now stamp : Int) : Nat :=
  let others :=
    f.admissions.filter fun e => e.1 ≠ m.id && decide (now < e.2) && decide (stamp < e.2)
  let own := (f.unexpired now m.id).toList ++ (orderRetentionUntil m now).toList
  others.length + if own.any fun u => decide (stamp < u) then 1 else 0

end StateFile

/-- A process that starts at `t` on a file or on none; what it cannot load it does not start on. -/
def startFile (file : Option (StateFile A B)) (t : Reading) : Except String (FileProcess A B) :=
  match file with
  | none => .ok ⟨⟨.fresh, ⟨none, none, []⟩, false⟩, t, []⟩
  | some rows => do
    let f ← rows.load codec t
    return ⟨⟨f, ⟨some ⟨.whole rows, true⟩, none, []⟩, false⟩, t, rows.ahead t⟩

/-- Memory `g` holds the orders, the parked credits and, of the admissions, those that have not
run out at `t` of what the file is read as. -/
structure SameAt (t : Int) (c g : StateFile A B) : Prop where
  orders : ∀ id, c.get id = (g.get id).map ManagedOrder.hydrated
  credits : ∀ key, c.credit key = g.credit key
  admissions : ∀ id, c.unexpired t id = g.unexpired t id

/-! ## When a call is atomic -/

namespace FileProcess

variable (p : FileProcess A B) (i : FileInput A B)

/-- The call leaves memory or the file half done in no way that a later call or a restart sees. -/
def AtomicAt : Prop :=
  Store.Atomic (SameAt (p.latestWith i)) (stateFormat codec) p.store (call codec i) i.fault

/-- No change to the parked credits fails before the end of its rename. -/
def Unspoiled : Prop :=
  p.store.poisoned = false → i.call.parks p.store.memory = true → i.fault.early = false

/-- A record of another deployment, or a write that fails at or before its rename, finds no
admission in memory that the start extended and that still counts. -/
def CaughtUp : Prop :=
  p.store.poisoned = false →
    (i.call.foreign codec = true ∨
      (i.fault.early = true ∧ i.call.writes codec p.store.memory = true)) →
      ∀ until' ∈ p.ahead, until' ≤ p.latestWith i

end FileProcess

namespace FileCall

/-- The unexpired admissions that the call writes. -/
def admitted (f : StateFile A B) (now stamp : Int) : FileCall A B → Nat
  | upsert order => f.admitted order now stamp
  | _ => f.retainedAdmissionCount stamp

/-- The constructor reads what the call writes: admissions that are safe integers, at most 256 of
them, the record of an order, and a parked credit. -/
structure Readable (f : StateFile A B) (now stamp : Int) (fault : Fault) (call : FileCall A B) :
    Prop where
  safe : ∀ e ∈ f.admissions, e.2 ≤ MAX_SAFE_INTEGER
  room : call.admitted f now stamp ≤ MAX_ADMISSION_RECORDS
  order : ∀ order, call = .upsert order → OrderRead codec order ∧
    ∀ until', orderRetentionUntil order now = some until' → until' ≤ MAX_SAFE_INTEGER
  credit : ∀ entry, call = .recordStrandedCredit entry → fault.fails .syncDirectory = false →
    entry.wellFormed = true

end FileCall

/-- The condition on a call and the state before it. -/
structure FileProcess.Meets (p : FileProcess A B) (i : FileInput A B) : Prop where
  unspoiled : p.Unspoiled i
  caughtUp : p.CaughtUp codec i
  readable : p.renames codec i = true →
    i.call.Readable codec p.store.memory i.now i.stamp i.fault

/-! ## Memory beside the file -/

variable {codec}

namespace StateFile

variable {f : StateFile A B} {e : StrandedCredit A B} {key : LegKey × A × A}

omit [DecidableEq B] [Zero B] in
theorem any_of_credit : (f.stranded.any fun s => s.key = key) = (f.credit key).isSome := by
  rw [Bool.eq_iff_iff, credit, List.find?_isSome, List.any_eq_true]

omit [DecidableEq B] [Zero B] in
theorem recordStrandedCredit_eq (h : f.credit e.key = none) :
    f.recordStrandedCredit e = { f with stranded := f.stranded ++ [e] } := by
  unfold recordStrandedCredit
  rw [any_of_credit, h, Option.isSome_none, if_neg Bool.false_ne_true]

omit [DecidableEq B] [Zero B] in
theorem credit_recordStrandedCredit (h : f.credit e.key = none) :
    (f.recordStrandedCredit e).credit e.key = some e := by
  unfold credit at h ⊢
  rw [recordStrandedCredit_eq h]
  dsimp only
  rw [List.find?_append, h, Option.none_or, List.find?_cons, decide_eq_true rfl]

omit [DecidableEq B] [Zero B] in
theorem credit_clearStrandedCredit : (f.clearStrandedCredit key).credit key = none := by
  unfold credit clearStrandedCredit
  rw [List.find?_filter, List.find?_eq_none]
  intro s _
  simp

omit [DecidableEq A] [DecidableEq B] [Zero B] in
theorem mem_setOrder {orders : List (ManagedOrder A B)} {m x : ManagedOrder A B}
    (h : x ∈ setOrder orders m) : x = m ∨ x ∈ orders := by
  unfold setOrder at h
  split at h
  · obtain ⟨n, hn, rfl⟩ := List.mem_map.mp h
    split
    · exact Or.inl rfl
    · exact Or.inr hn
  · exact (List.mem_append.mp h).symm.imp_left List.mem_singleton.mp

omit [DecidableEq B] [Zero B] in
theorem mem_foldl_setCredit {es l : List (StrandedCredit A B)} {x : StrandedCredit A B}
    (h : x ∈ es.foldl setCredit l) : x ∈ l ∨ x ∈ es := by
  induction es generalizing l with
  | nil => exact Or.inl h
  | cons e es ih =>
    rcases ih h with hl | hes
    · unfold setCredit at hl
      split at hl
      · obtain ⟨s, hs, rfl⟩ := List.mem_map.mp hl
        split
        · exact Or.inr List.mem_cons_self
        · exact Or.inl hs
      · rcases List.mem_append.mp hl with hl | hl
        · exact Or.inl hl
        · exact Or.inr (List.mem_singleton.mp hl ▸ List.mem_cons_self)
    · exact Or.inr (List.mem_cons_of_mem _ hes)

omit [DecidableEq B] [Zero B] in
theorem wellFormed_of_mem_parse {raw : List (StrandedCredit A B)} {x : StrandedCredit A B}
    (h : x ∈ parseStrandedCredits raw) : x.wellFormed = true := by
  rcases mem_foldl_setCredit h with h | h
  · cases h
  · exact (List.mem_filter.mp h).2

omit [DecidableEq A] [DecidableEq B] [Zero B] in
theorem mem_rememberAdmission {m : ManagedOrder A B} {now : Int} (h : f.Once) {x : String × Int}
    (hx : x ∈ (f.rememberAdmission m now).admissions) :
    x ∈ f.admissions ∨ ∃ retain, orderRetentionUntil m now = some retain ∧
      x = (m.id, max (((f.unexpired now m.id)).getD 0) retain) := by
  have hlive := once_filter h fun e => now < e.2
  unfold rememberAdmission at hx
  dsimp only at hx
  split at hx
  · exact Or.inl (List.mem_filter.mp hx).1
  · rename_i retain hretain
    dsimp only at hx
    rw [setAdmission_eq_put hlive, lookup_filter h] at hx
    rcases Keyed.mem_put hx with rfl | hx
    · exact Or.inr ⟨retain, hretain, rfl⟩
    · exact Or.inl (List.mem_filter.mp hx).1

omit [DecidableEq A] [DecidableEq B] [Zero B] in
theorem upsertFailed_admissions (h : f.Once) {m : ManagedOrder A B} {now : Int} {x : String × Int}
    (hx : x ∈ (f.upsertFailed m now).admissions) : x ∈ f.admissions := by
  have honce := once_rememberAdmission h m now
  have hother : ∀ {y : String × Int}, y ∈ (f.rememberAdmission m now).admissions → y.1 ≠ m.id →
      y ∈ f.admissions := by
    intro y hy hne
    rcases mem_rememberAdmission h hy with hy | ⟨retain, -, rfl⟩
    · exact hy
    · exact absurd rfl hne
  unfold upsertFailed restoreAdmission at hx
  cases hprevious : f.admission m.id with
  | none =>
    rw [hprevious] at hx
    obtain ⟨hx, hne⟩ := List.mem_filter.mp hx
    exact hother hx (of_decide_eq_true hne)
  | some until' =>
    rw [hprevious] at hx
    have hmem : (m.id, until') ∈ f.admissions :=
      (Keyed.mem_entries (m := ⟨f.admissions, h⟩)).mpr hprevious
    dsimp only at hx
    unfold setAdmission at hx
    split at hx
    · obtain ⟨y, hy, rfl⟩ := List.mem_map.mp hx
      split
      · exact hmem
      · rename_i hne
        exact hother hy hne
    · rename_i hany
      rcases List.mem_append.mp hx with hx | hx
      · refine hother hx fun he => hany ?_
        exact List.any_eq_true.mpr ⟨x, hx, decide_eq_true he⟩
      · rw [List.mem_singleton.mp hx]
        exact hmem

/-! ## Sound memory -/

namespace Sound

variable {m : ManagedOrder A B} {now : Int}

theorem upsert (hs : f.Sound codec) (hm : OrderRead codec m) : (f.upsert m now).Sound codec := by
  refine ⟨?_, ?_, ?_, once_upsert hs.once m now, ?_, ?_⟩
  · intro n hn
    unfold StateFile.upsert at hn
    rw [rememberAdmission_orders] at hn
    rcases mem_setOrder hn with rfl | hn
    · exact hm
    · exact hs.orders n hn
  · unfold StateFile.upsert
    rw [rememberAdmission_orders]
    exact ids_setOrder hs.ids m
  · intro e he
    rcases mem_rememberAdmission (f := { f with orders := setOrder f.orders m }) hs.once he with
      he |
      ⟨retain, hretain, rfl⟩
    · exact hs.admissions e he
    · obtain ⟨hid, hpos⟩ := hm.retained hretain
      exact ⟨hid, lt_max_of_lt_right hpos⟩
  · unfold StateFile.upsert
    rw [rememberAdmission_stranded]
    exact hs.credits
  · unfold StateFile.upsert
    rw [rememberAdmission_stranded]
    exact hs.keys

theorem upsertFailed (hs : f.Sound codec) (m : ManagedOrder A B) (now : Int) :
    (f.upsertFailed m now).Sound codec := by
  have horders : (f.upsertFailed m now).orders = f.orders := by
    unfold StateFile.upsertFailed
    rw [restoreAdmission_orders, rememberAdmission_orders]
  have hstranded : (f.upsertFailed m now).stranded = f.stranded := by
    unfold StateFile.upsertFailed
    rw [restoreAdmission_stranded, rememberAdmission_stranded]
  refine ⟨?_, ?_, ?_, once_upsertFailed hs.once m now, ?_, ?_⟩
  · rw [horders]
    exact hs.orders
  · rw [horders]
    exact hs.ids
  · exact fun e he => hs.admissions e (upsertFailed_admissions hs.once he)
  · rw [hstranded]
    exact hs.credits
  · rw [hstranded]
    exact hs.keys

theorem delete (hs : f.Sound codec) (id : String) : (f.delete id).Sound codec :=
  ⟨fun m hm => hs.orders m (List.mem_filter.mp hm).1, ids_deleteOrder hs.ids id, hs.admissions,
    hs.once, hs.credits, hs.keys⟩

theorem deleteFailed (hs : f.Sound codec) (id : String) : (f.deleteFailed id).Sound codec := by
  have hids := ids_deleteFailed hs.ids id
  unfold StateFile.deleteFailed at hids ⊢
  cases hget : f.get id with
  | none => exact hs
  | some m =>
    rw [hget] at hids
    refine ⟨?_, hids, hs.admissions, hs.once, hs.credits, hs.keys⟩
    intro n hn
    rcases List.mem_append.mp hn with hn | hn
    · exact hs.orders n (List.mem_filter.mp hn).1
    · rw [List.mem_singleton.mp hn]
      exact hs.orders m (get_mem hget)

theorem recordStrandedCredit (hs : f.Sound codec) (hnone : f.credit e.key = none)
    (he : e.wellFormed = true) : (f.recordStrandedCredit e).Sound codec := by
  rw [recordStrandedCredit_eq hnone]
  refine ⟨hs.orders, hs.ids, hs.admissions, hs.once, ?_, ?_⟩
  · intro x hx
    rcases List.mem_append.mp hx with hx | hx
    · exact hs.credits x hx
    · rw [List.mem_singleton.mp hx]
      exact he
  · rw [List.map_append, List.nodup_append]
    refine ⟨hs.keys, List.nodup_singleton _, ?_⟩
    intro a ha b hb hab
    obtain ⟨x, hx, hkey⟩ := List.mem_map.mp ha
    have hb : b = e.key := List.mem_singleton.mp hb
    have hnot := List.find?_eq_none.mp hnone x hx
    exact hnot (decide_eq_true (hkey.trans (hab.trans hb)))

theorem clearStrandedCredit (hs : f.Sound codec) (key : LegKey × A × A) :
    (f.clearStrandedCredit key).Sound codec :=
  ⟨hs.orders, hs.ids, hs.admissions, hs.once, fun e he => hs.credits e (List.mem_filter.mp he).1,
    hs.keys.sublist (List.filter_sublist.map _)⟩

end Sound

/-! ## The admissions that are written -/

section

variable {m : ManagedOrder A B} {now stamp : Int} {id : String} {u : Int}

omit [DecidableEq A] [DecidableEq B] [Zero B] in
theorem mem_admissions (h : f.Once) : (id, u) ∈ f.admissions ↔ f.admission id = some u :=
  Keyed.mem_entries (m := ⟨f.admissions, h⟩)

omit [DecidableEq A] [DecidableEq B] [Zero B] in
theorem unexpired_of_admission {t : Int} (hu : f.admission id = some u) (ht : t < u) :
    f.unexpired t id = some u := by
  unfold unexpired
  rw [hu]
  exact Option.filter_some_pos (decide_eq_true ht)

omit [DecidableEq A] [DecidableEq B] [Zero B] in
theorem admission_upsert_le (h : f.Once) (hu : f.admission id = some u) (hnow : now < u) :
    ∃ v, (f.upsert m now).admission id = some v ∧ u ≤ v := by
  have hlive : (f.admission id).filter (fun u => decide (now < u)) = some u :=
    unexpired_of_admission hu hnow
  rw [admission_upsert h]
  split
  · exact ⟨u, hlive, le_refl u⟩
  · split
    · refine ⟨_, rfl, ?_⟩
      rw [hlive]
      exact le_max_left _ _
    · exact ⟨u, hlive, le_refl u⟩

omit [DecidableEq A] [DecidableEq B] [Zero B] in
theorem admission_upsert_self (h : f.Once) (hu : orderRetentionUntil m now = some u) :
    ∃ v, (f.upsert m now).admission m.id = some v ∧ u ≤ v := by
  rw [admission_upsert h, hu]
  exact ⟨_, if_pos rfl, le_max_right _ _⟩

omit [DecidableEq A] [DecidableEq B] [Zero B] in
theorem length_envelope_upsert (h : f.Once)
    (hpos : ∀ retain, orderRetentionUntil m now = some retain → 0 < retain) :
    ((f.upsert m now).envelope stamp).admissions.length = f.admitted m now stamp := by
  have honce := once_upsert h m now
  have hlive := once_filter h fun e => now < e.2
  show ((f.upsert m now).admissions.filter fun e => stamp < e.2).length = _
  rw [Keyed.length_filter honce m.id]
  unfold admitted
  have hothers : ((f.upsert m now).admissions.filter fun e =>
      decide (e.1 ≠ m.id) && decide (stamp < e.2)) =
        f.admissions.filter fun e => e.1 ≠ m.id && decide (now < e.2) && decide (stamp < e.2) := by
    unfold StateFile.upsert rememberAdmission
    dsimp only
    split
    · rw [List.filter_filter]
      refine List.filter_congr fun e _ => ?_
      rw [Bool.and_assoc, Bool.and_comm (decide (stamp < e.2)), Bool.and_assoc]
    · dsimp only
      rw [setAdmission_eq_put hlive, Keyed.filter_put, List.filter_filter]
      · refine List.filter_congr fun e _ => ?_
        rw [Bool.and_assoc, Bool.and_comm (decide (stamp < e.2)), Bool.and_assoc]
      · intro w
        simp
  have hown : ((f.upsert m now).admissions.lookup m.id).any (fun v => decide (stamp < v)) =
      ((f.unexpired now m.id).toList ++ (orderRetentionUntil m now).toList).any
        fun u => decide (stamp < u) := by
    have hlookup := admission_upsert h m now m.id
    unfold admission at hlookup
    rw [hlookup]
    cases hretain : orderRetentionUntil m now with
    | none =>
      change ((f.unexpired now m.id).any _) = _
      cases f.unexpired now m.id <;> simp
    | some retain =>
      have hpos := hpos retain hretain
      dsimp only
      rw [if_pos rfl]
      change decide (stamp < max ((f.unexpired now m.id).getD 0) retain) = _
      cases f.unexpired now m.id with
      | none => simp [max_eq_right hpos.le]
      | some v => simp [Bool.decide_or]
  rw [hothers, hown]

omit [DecidableEq A] [DecidableEq B] [Zero B] in
theorem safe_upsert (h : f.Once) (hsafe : ∀ e ∈ f.admissions, e.2 ≤ MAX_SAFE_INTEGER)
    (hretained : ∀ until', orderRetentionUntil m now = some until' → until' ≤ MAX_SAFE_INTEGER) :
    ∀ e ∈ (f.upsert m now).admissions, e.2 ≤ MAX_SAFE_INTEGER := by
  intro e he
  rcases mem_rememberAdmission (f := { f with orders := setOrder f.orders m }) h he with he |
    ⟨retain, hretain, rfl⟩
  · exact hsafe e he
  · refine max_le ?_ (hretained retain hretain)
    cases hprevious : f.unexpired now m.id with
    | none =>
      change (f.unexpired now m.id).getD 0 ≤ _
      rw [hprevious]
      decide
    | some u =>
      change (f.unexpired now m.id).getD 0 ≤ _
      rw [hprevious]
      have hu : f.admission m.id = some u := (Option.filter_eq_some_iff.mp hprevious).1
      exact hsafe (m.id, u) ((mem_admissions h).mpr hu)

end

end StateFile

namespace SameAt

variable {t : Int} {c f g : StateFile A B}

omit [DecidableEq B] [Zero B] in
theorem mono {t' : Int} (h : SameAt t c g) (ht : t ≤ t') : SameAt t' c g := by
  refine ⟨h.orders, h.credits, ?_⟩
  intro id
  have hid := congrArg (fun o => o.filter fun u => decide (t' < u)) (h.admissions id)
  unfold StateFile.unexpired at hid ⊢
  rwa [StateFile.filter_filter ht, StateFile.filter_filter ht] at hid

omit [DecidableEq B] [Zero B] in
theorem congr (horders : ∀ id, g.get id = f.get id) (hcredits : g.stranded = f.stranded)
    (hadmissions : ∀ id, g.unexpired t id = f.unexpired t id) : SameAt t c g ↔ SameAt t c f := by
  constructor
  · intro h
    refine ⟨fun id => ?_, fun key => ?_, fun id => ?_⟩
    · rw [h.orders, horders]
    · rw [h.credits, StateFile.credit, StateFile.credit, hcredits]
    · rw [h.admissions, hadmissions]
  · intro h
    refine ⟨fun id => ?_, fun key => ?_, fun id => ?_⟩
    · rw [h.orders, horders]
    · rw [h.credits, StateFile.credit, StateFile.credit, hcredits]
    · rw [h.admissions, hadmissions]

omit [DecidableEq B] [Zero B] in
theorem upsertFailed (h : f.Once) (m : ManagedOrder A B) {now : Int} (ht : now ≤ t) :
    SameAt t c (f.upsertFailed m now) ↔ SameAt t c f := by
  refine congr (fun id => StateFile.get_upsertFailed m now id) ?_
    (fun id => StateFile.unexpired_upsertFailed h m ht id)
  unfold StateFile.upsertFailed
  rw [StateFile.restoreAdmission_stranded, StateFile.rememberAdmission_stranded]

omit [DecidableEq B] [Zero B] in
theorem deleteFailed (id : String) : SameAt t c (f.deleteFailed id) ↔ SameAt t c f := by
  refine congr (fun id' => StateFile.get_deleteFailed id id') ?_ ?_
  · unfold StateFile.deleteFailed
    split <;> rfl
  · intro id'
    unfold StateFile.deleteFailed
    split <;> rfl

theorem of_envelope (hs : f.Sound codec) {stamp : Int} (ht : stamp ≤ t)
    (hsafe : ∀ e ∈ f.admissions, e.2 ≤ MAX_SAFE_INTEGER)
    (hroom : (f.envelope stamp).admissions.length ≤ MAX_ADMISSION_RECORDS) :
    ∃ c, (stateFormat codec).read (f.envelope stamp) = some c ∧ SameAt t c f := by
  have hparse := (hs.envelope stamp).parse (fun e he => hsafe e (List.mem_filter.mp he).1) hroom
  have hread : (stateFormat codec).read (f.envelope stamp) = some (f.envelope stamp).reread := by
    show ((f.envelope stamp).parse codec).toOption = _
    rw [hparse]
    rfl
  refine ⟨_, hread, ?_, fun _ => rfl, ?_⟩
  · intro id
    show (f.orders.map ManagedOrder.hydrated).find? _ = (f.orders.find? _).map _
    rw [List.find?_map]
    rfl
  · intro id
    exact StateFile.unexpired_envelope hs.once ht id

end SameAt

/-! ## What an operation does -/

namespace FileCall

variable {f next saved undone : StateFile A B} {call : FileCall A B} {answer : FileAnswer A B}
variable {now stamp : Int} {fault : Fault}

omit [DecidableEq B] [Zero B] in
theorem writes_act : (call.act codec now stamp f).writes = call.writes codec f := by
  cases call with
  | recordStrandedCredit entry =>
    simp only [act, writes, parks]
    cases f.credit entry.key <;> rfl
  | dismissCounterpartyCredit key =>
    simp only [act, writes, parks]
    cases hentry : f.credit key with
    | none => rfl
    | some entry => cases hown : entry.own <;> simp [hown, Call.writes]
  | clearStrandedCredit key =>
    simp only [act, writes, parks]
    cases f.credit key <;> rfl
  | upsert order =>
    simp only [act, writes]
    cases codec.sameDeployment order <;> rfl
  | _ => rfl

omit [DecidableEq B] [Zero B] in
theorem act_refuse : call.act codec now stamp f = .refuse ↔ call.foreign codec = true := by
  cases call with
  | recordStrandedCredit entry =>
    simp only [act, foreign]
    split <;> simp
  | dismissCounterpartyCredit key =>
    simp only [act, foreign]
    split
    · simp
    · split <;> simp
  | clearStrandedCredit key =>
    simp only [act, foreign]
    split <;> simp
  | upsert order =>
    simp only [act, foreign]
    cases codec.sameDeployment order <;> simp
  | _ => simp [act, foreign]

omit [DecidableEq B] [Zero B] in
theorem act_saved (h : call.act codec now stamp f = .write next saved undone answer) :
    saved = next.envelope stamp := by
  cases call with
  | all => cases h
  | retainedAdmissionCount => cases h
  | strandedCredits => cases h
  | recordStrandedCredit entry =>
    simp only [act] at h
    split at h <;> cases h
    rfl
  | dismissCounterpartyCredit key =>
    simp only [act] at h
    split at h
    · cases h
    · split at h <;> cases h
      rfl
  | clearStrandedCredit key =>
    simp only [act] at h
    split at h <;> cases h
    rfl
  | upsert order =>
    simp only [act] at h
    split at h <;> cases h
    rfl
  | delete id =>
    cases h
    rfl

theorem act_undone (h : call.act codec now stamp f = .write next saved undone answer)
    (hs : f.Sound codec) (hparks : call.parks f = false) :
    undone.Sound codec ∧ (∀ t c, now ≤ t → (SameAt t c undone ↔ SameAt t c f)) ∧
      ∀ answer, call.act codec now stamp undone ≠ .skip answer := by
  cases call with
  | all => cases h
  | retainedAdmissionCount => cases h
  | strandedCredits => cases h
  | recordStrandedCredit entry =>
    simp only [act] at h
    split at h
    · cases h
    · rename_i hnone
      simp [parks, Option.not_isSome_iff_eq_none.mp hnone] at hparks
  | dismissCounterpartyCredit key =>
    simp only [act] at h
    split at h
    · cases h
    · rename_i entry hentry
      split at h
      · cases h
      · rename_i hown
        simp [parks, hentry, hown] at hparks
  | clearStrandedCredit key =>
    simp only [act] at h
    split at h
    · cases h
    · rename_i hsome
      simp_all [parks]
  | upsert order =>
    simp only [act] at h
    split at h
    · rename_i hsame
      cases h
      refine ⟨hs.upsertFailed order now, fun t c ht => SameAt.upsertFailed hs.once order ht, ?_⟩
      intro answer
      rw [act, if_pos hsame]
      nofun
    · cases h
  | delete id =>
    cases h
    refine ⟨hs.deleteFailed id, fun t c _ => SameAt.deleteFailed id, ?_⟩
    intro answer
    nofun

omit [DecidableEq B] [Zero B] in
theorem act_parks (h : call.parks f = true) :
    ∃ next saved answer, call.act codec now stamp f = .write next saved next answer ∧
      ∃ answer, call.act codec now stamp next = .skip answer := by
  cases call with
  | recordStrandedCredit entry =>
    have hnone : f.credit entry.key = none := Option.isNone_iff_eq_none.mp h
    refine ⟨f.recordStrandedCredit entry, (f.recordStrandedCredit entry).envelope stamp, .done, ?_,
      .done, ?_⟩
    · rw [act, hnone]
      rfl
    · rw [act, StateFile.credit_recordStrandedCredit hnone]
      rfl
  | dismissCounterpartyCredit key =>
    rw [parks] at h
    cases hentry : f.credit key with
    | none =>
      rw [hentry] at h
      cases h
    | some entry =>
      rw [hentry] at h
      have hown : entry.own = false := by simpa using h
      refine ⟨f.clearStrandedCredit key, (f.clearStrandedCredit key).envelope stamp,
        .dismissed (some entry), ?_, .dismissed none, ?_⟩
      · simp only [act, hentry, hown, Bool.false_eq_true, if_false]
      · simp only [act, StateFile.credit_clearStrandedCredit]
  | clearStrandedCredit key =>
    rw [parks] at h
    refine ⟨f.clearStrandedCredit key, (f.clearStrandedCredit key).envelope stamp,
      .cleared true, ?_,
      .cleared false, ?_⟩
    · rw [act, if_neg (by rw [Option.isNone_iff_eq_none]; intro hnone; rw [hnone] at h; cases h)]
    · rw [act, StateFile.credit_clearStrandedCredit]
      rfl
  | _ => cases h

/-- The maps that a write leaves fit the file. -/
structure Fits (codec : FileCodec A B) (stamp : Int) (next : StateFile A B) : Prop where
  sound : next.Sound codec
  safe : ∀ e ∈ next.admissions, e.2 ≤ MAX_SAFE_INTEGER
  room : (next.envelope stamp).admissions.length ≤ MAX_ADMISSION_RECORDS

/-- A write that is readable leaves maps that fit, but for a parked credit that a restart drops. -/
theorem act_fits (h : call.act codec now stamp f = .write next saved undone answer)
    (hs : f.Sound codec) (hr : call.Readable codec f now stamp fault) :
    Fits codec stamp next ∨ ∃ entry, next = { f with stranded := f.stranded ++ [entry] } ∧
      entry.wellFormed = false ∧ fault.fails .syncDirectory = true ∧
        f.retainedAdmissionCount stamp ≤ MAX_ADMISSION_RECORDS := by
  have hroom := hr.room
  cases call with
  | all => cases h
  | retainedAdmissionCount => cases h
  | strandedCredits => cases h
  | recordStrandedCredit entry =>
    simp only [act] at h
    split at h
    · cases h
    · rename_i hsome
      have hnone := Option.not_isSome_iff_eq_none.mp hsome
      cases h
      cases hentry : entry.wellFormed with
      | true =>
        have hsound := hs.recordStrandedCredit hnone hentry
        rw [StateFile.recordStrandedCredit_eq hnone] at hsound ⊢
        exact Or.inl ⟨hsound, hr.safe, hroom⟩
      -- The one malformed value that is written: a credit whose rename cannot be synced.
      | false =>
        refine Or.inr ⟨entry, StateFile.recordStrandedCredit_eq hnone, hentry, ?_, hroom⟩
        by_contra hsync
        rw [hr.credit entry rfl ((Bool.not_eq_true _).mp hsync)] at hentry
        cases hentry
  | dismissCounterpartyCredit key =>
    simp only [act] at h
    split at h
    · cases h
    · split at h <;> cases h
      exact Or.inl ⟨hs.clearStrandedCredit key, hr.safe, hroom⟩
  | clearStrandedCredit key =>
    simp only [act] at h
    split at h <;> cases h
    exact Or.inl ⟨hs.clearStrandedCredit key, hr.safe, hroom⟩
  | upsert order =>
    simp only [act] at h
    split at h <;> cases h
    obtain ⟨hread, hretained⟩ := hr.order order rfl
    refine Or.inl ⟨hs.upsert hread, StateFile.safe_upsert hs.once hr.safe hretained, ?_⟩
    rw [StateFile.length_envelope_upsert hs.once fun retain hretain => (hread.retained hretain).2]
    exact hroom
  | delete id =>
    cases h
    exact Or.inl ⟨hs.delete id, hr.safe, hroom⟩

theorem act_readsBack (h : call.act codec now stamp f = .write next saved undone answer)
    (hs : f.Sound codec) (hr : call.Readable codec f now stamp fault) {t : Int} (ht : stamp ≤ t) :
    ∃ c, (stateFormat codec).read saved = some c ∧
      (SameAt t c next ∨ (fault.fails .syncDirectory = true ∧ SameAt t c f)) := by
  rw [act_saved h]
  rcases act_fits h hs hr with hfits | ⟨entry, rfl, hentry, hsync, hroom⟩
  · obtain ⟨c, hc, hsame⟩ := SameAt.of_envelope hfits.sound ht hfits.safe hfits.room
    exact ⟨c, hc, Or.inl hsame⟩
  · obtain ⟨c, hc, hsame⟩ := SameAt.of_envelope hs ht hr.safe hroom
    refine ⟨c, ?_, Or.inr ⟨hsync, hsame⟩⟩
    rw [← hc]
    -- the malformed row is dropped before the credits are set
    have hdrop : StateFile.parseStrandedCredits (f.stranded ++ [entry]) =
        StateFile.parseStrandedCredits f.stranded := by
      unfold StateFile.parseStrandedCredits
      rw [List.filter_append, List.filter_cons_of_neg (by rw [hentry]; exact Bool.false_ne_true),
        List.filter_nil, List.append_nil]
    show (StateFile.parse codec _).toOption = (StateFile.parse codec _).toOption
    unfold StateFile.parse StateFile.envelope
    dsimp only
    rw [hdrop]
    rfl

omit [DecidableEq A] [DecidableEq B] [Zero B] in
theorem mem_setOrder_self (orders : List (ManagedOrder A B)) (m : ManagedOrder A B) :
    m ∈ StateFile.setOrder orders m := by
  unfold StateFile.setOrder
  split
  · rename_i hany
    obtain ⟨n, hn, hid⟩ := List.any_eq_true.mp hany
    exact List.mem_map.mpr ⟨n, hn, if_pos (of_decide_eq_true hid)⟩
  · exact List.mem_append_right _ List.mem_cons_self

omit [DecidableEq A] [DecidableEq B] [Zero B] in
/-- An admission beyond the safe integers is never pruned, so a reader meets it. -/
theorem admissions_safe (hstamp : stamp ≤ MAX_DATE_S)
    (hentries : ∀ e ∈ (next.envelope stamp).admissions, isAdmissionRecord e = true) :
    ∀ e ∈ next.admissions, e.2 ≤ MAX_SAFE_INTEGER := by
  intro e he
  by_contra hlarge
  have hlater : stamp < e.2 := by
    unfold MAX_DATE_S at hstamp
    unfold MAX_SAFE_INTEGER at hlarge
    omega
  have hmem : e ∈ (next.envelope stamp).admissions :=
    List.mem_filter.mpr ⟨he, decide_eq_true hlater⟩
  have hrecord := hentries e hmem
  simp only [isAdmissionRecord, Bool.and_eq_true, decide_eq_true_eq] at hrecord
  exact hlarge hrecord.2

/-- The order stands in the file that is written, so a reader of the file checks it. -/
theorem readable_upsert {order : ManagedOrder A B} (hs : f.Sound codec) (hnow : now ≤ MAX_DATE_S)
    (hwritten : ∀ e ∈ (f.upsert order now).admissions, e.2 ≤ MAX_SAFE_INTEGER)
    (hlength : ((f.upsert order now).envelope stamp).admissions.length ≤ MAX_ADMISSION_RECORDS)
    (horders : ∀ m ∈ ((f.upsert order now).envelope stamp).orders, OrderRead codec m) :
    (FileCall.upsert order : FileCall A B).Readable codec f now stamp fault := by
  have hmem : order ∈ (f.upsert order now).orders := by
    unfold StateFile.upsert
    rw [StateFile.rememberAdmission_orders]
    exact mem_setOrder_self _ _
  have horder : OrderRead codec order := horders order hmem
  have hadmitted : ∀ {id : String} {u v : Int}, (f.upsert order now).admission id = some v →
      u ≤ v → u ≤ MAX_SAFE_INTEGER := by
    intro id u v hv hle
    have hmem := (StateFile.mem_admissions (StateFile.once_upsert hs.once order now)).mpr hv
    exact hle.trans (hwritten _ hmem)
  refine ⟨?_, ?_, ?_, fun _ h => (by cases h)⟩
  · intro e he
    by_contra hlarge
    have hlater : now < e.2 := by
      unfold MAX_DATE_S at hnow
      unfold MAX_SAFE_INTEGER at hlarge
      omega
    obtain ⟨v, hv, hle⟩ := StateFile.admission_upsert_le (m := order) hs.once
      ((StateFile.mem_admissions hs.once).mp he) hlater
    exact hlarge (hadmitted hv hle)
  · rw [admitted, ← StateFile.length_envelope_upsert hs.once fun retain hretain =>
      (horder.retained hretain).2]
    exact hlength
  · intro order' horder'
    cases horder'
    refine ⟨horder, ?_⟩
    intro retain hretain
    obtain ⟨v, hv, hle⟩ := StateFile.admission_upsert_self (m := order) hs.once hretain
    exact hadmitted hv hle

theorem readable_of_read (h : call.act codec now stamp f = .write next saved undone answer)
    (hs : f.Sound codec) (hnow : now ≤ MAX_DATE_S) (hstamp : stamp ≤ MAX_DATE_S) {c : StateFile A B}
    {t : Int} (hread : (stateFormat codec).read saved = some c)
    (hlike : fault.fails .syncDirectory = false → SameAt t c next) :
    call.Readable codec f now stamp fault := by
  rw [act_saved h] at hread
  obtain ⟨rows, hrows, hc⟩ : ∃ rows, (next.envelope stamp).parseRows codec = .ok rows ∧
      c.stranded = StateFile.parseStrandedCredits next.stranded := by
    change ((next.envelope stamp).parse codec).toOption = some c at hread
    unfold StateFile.parse at hread
    cases hrows : (next.envelope stamp).parseRows codec with
    | error e =>
      rw [hrows] at hread
      cases hread
    | ok rows =>
      rw [hrows] at hread
      cases hread
      exact ⟨rows, rfl, rfl⟩
  obtain ⟨hlength, hentries, honce, horders, -⟩ := StateFile.parseRows_eq_ok.mp hrows
  have hwritten := admissions_safe hstamp hentries
  cases call with
  | all => cases h
  | retainedAdmissionCount => cases h
  | strandedCredits => cases h
  | recordStrandedCredit entry =>
    simp only [act] at h
    split at h
    · cases h
    · rename_i hsome
      have hnone := Option.not_isSome_iff_eq_none.mp hsome
      cases h
      have hadmissions : (f.recordStrandedCredit entry).admissions = f.admissions := by
        rw [StateFile.recordStrandedCredit_eq hnone]
      refine ⟨fun e he => hwritten e (hadmissions ▸ he), ?_, fun _ h => (by cases h), ?_⟩
      · change ((f.recordStrandedCredit entry).admissions.filter _).length ≤ _ at hlength
        rwa [hadmissions] at hlength
      · intro entry' hentry hsync
        cases hentry
        have hcredit := (hlike hsync).credits entry.key
        rw [StateFile.credit_recordStrandedCredit hnone] at hcredit
        exact StateFile.wellFormed_of_mem_parse (hc ▸ List.mem_of_find?_eq_some hcredit)
  | dismissCounterpartyCredit key =>
    simp only [act] at h
    split at h
    · cases h
    · split at h <;> cases h
      exact ⟨hwritten, hlength, fun _ h => (by cases h), fun _ h => (by cases h)⟩
  | clearStrandedCredit key =>
    simp only [act] at h
    split at h <;> cases h
    exact ⟨hwritten, hlength, fun _ h => (by cases h), fun _ h => (by cases h)⟩
  | upsert order =>
    simp only [act] at h
    split at h <;> cases h
    exact readable_upsert hs hnow hwritten hlength horders
  | delete id =>
    cases h
    exact ⟨hwritten, hlength, fun _ h => (by cases h), fun _ h => (by cases h)⟩

end FileCall

/-! ## Runs -/

section

variable {p : FileProcess A B} {i : FileInput A B}

/-- The file is read as what is in memory, for all but the admissions that the start extended and
that still count. -/
structure FileProcess.Kept (codec : FileCodec A B) (p : FileProcess A B) : Prop where
  reads : p.store.Reads (stateFormat codec)
  sound : p.store.poisoned = false → p.store.memory.Sound codec
  backed : p.store.poisoned = false → ∀ t, p.latest ≤ t →
    (p.store.Backed (SameAt t) (stateFormat codec) ↔ ∀ until' ∈ p.ahead, until' ≤ t)

namespace FileProcess

variable (p i) in
omit [DecidableEq A] [DecidableEq B] [Zero B] in
theorem latest_le : p.latest ≤ p.latestWith i := le_max_left _ _

variable (p i) in
omit [DecidableEq A] [DecidableEq B] [Zero B] in
theorem now_le : i.now.val ≤ p.latestWith i := (le_max_left _ _).trans (le_max_right _ _)

variable (p i) in
omit [DecidableEq A] [DecidableEq B] [Zero B] in
theorem stamp_le : i.stamp.val ≤ p.latestWith i := (le_max_right _ _).trans (le_max_right _ _)

omit [DecidableEq B] [Zero B] in
theorem call_writes {f : StateFile A B} : (call codec i f).writes = i.call.writes codec f :=
  FileCall.writes_act

omit [DecidableEq B] [Zero B] in
theorem renames_of_write {next saved undone : StateFile A B} {answer : FileAnswer A B}
    (hp : p.store.poisoned = false) (hearly : i.fault.early = false)
    (h : i.call.act codec i.now.val i.stamp.val p.store.memory = .write next saved undone answer) :
    p.renames codec i = true := by
  have hwrites : i.call.writes codec p.store.memory = true := by
    rw [← call_writes]
    unfold call
    rw [h]
    rfl
  simp [renames, hp, hearly, hwrites]

omit [DecidableEq B] [Zero B] in
theorem not_renames (h : (call codec i p.store.memory).writes = false) :
    p.renames codec i = false := by
  have hwrites : i.call.writes codec p.store.memory = false := by
    rw [← call_writes]
    exact h
  simp [renames, hwrites]

theorem atomicAt_of_meets (h : p.Kept codec) (hi : p.Meets codec i) : p.AtomicAt codec i := by
  refine Store.atomic_perform h.reads ?_ ?_ ?_
  · rintro ⟨hp, hthrows⟩
    refine (h.backed hp _ (p.latest_le i)).mpr (hi.caughtUp hp ?_)
    refine hthrows.imp FileCall.act_refuse.mp (And.imp_right fun hwrite => ?_)
    rw [← call_writes]
    exact Call.writes_iff.mpr hwrite
  · intro hp hearly next saved undone answer hcall
    exact FileCall.act_readsBack hcall (h.sound hp) (hi.readable (renames_of_write hp hearly hcall))
      (p.stamp_le i)
  · intro hp hearly next saved undone answer hcall
    have hparks : i.call.parks p.store.memory = false := by
      refine (Bool.not_eq_true _).mp fun hparks => ?_
      rw [hi.unspoiled hp hparks] at hearly
      cases hearly
    obtain ⟨-, hsame, hnot⟩ := FileCall.act_undone hcall (h.sound hp) hparks
    exact ⟨fun c => (hsame _ c (p.now_le i)).mpr, hnot⟩

theorem unspoiled_of_atomic (h : p.AtomicAt codec i) : p.Unspoiled i := by
  intro hp hparks
  by_contra hearly
  obtain ⟨next, saved, answer, hcall, answer', hskip⟩ := FileCall.act_parks hparks
  exact (Store.Atomic.put_back h hp hcall ((Bool.not_eq_false _).mp hearly)).2 answer' hskip

theorem meets_of_atomicAt (h : p.Kept codec) (hi : p.AtomicAt codec i) : p.Meets codec i := by
  have hunspoiled := unspoiled_of_atomic hi
  refine ⟨hunspoiled, ?_, ?_⟩
  · intro hp hthrows
    refine (h.backed hp _ (p.latest_le i)).mp ?_
    rcases hthrows with hforeign | ⟨hearly, hwrites⟩
    · exact Store.Atomic.backed_of_refuse hi hp (FileCall.act_refuse.mpr hforeign)
    · have hparks : i.call.parks p.store.memory = false := by
        refine (Bool.not_eq_true _).mp fun hparks => ?_
        rw [hunspoiled hp hparks] at hearly
        cases hearly
      rw [← call_writes] at hwrites
      obtain ⟨next, saved, undone, answer, hcall⟩ := Call.writes_iff.mp hwrites
      obtain ⟨-, hsame, -⟩ := FileCall.act_undone hcall (h.sound hp) hparks
      obtain ⟨⟨c, hfinds, hlike⟩, -⟩ := Store.Atomic.put_back hi hp hcall hearly
      exact ⟨c, hfinds, (hsame _ c (p.now_le i)).mp hlike⟩
  · intro hrenames
    simp only [renames, Bool.and_eq_true, Bool.not_eq_true'] at hrenames
    obtain ⟨⟨hp, hearly⟩, hwrites⟩ := hrenames
    rw [← call_writes] at hwrites
    obtain ⟨next, saved, undone, answer, hcall⟩ := Call.writes_iff.mp hwrites
    obtain ⟨c, hread, -⟩ := Store.Atomic.read hi hp hcall hearly
    exact FileCall.readable_of_read hcall (h.sound hp) i.now.2 i.stamp.2 hread
      fun hsync => Store.Atomic.written hi hp hcall hearly hsync hread

/-- A listing whose intent is selected and that is then cancelled, as near its expiry, is written
beside its cancel; what no step of the file failed for, no restart reads. -/
theorem cancelled_selection_unread {m : ManagedOrder A B} {c : SignedCancelV1 B}
    (hselected : m.selectedIntent.isSome = true) (hp : p.store.poisoned = false)
    (hcall : i.call = .upsert (m.withCancel c))
    (hsame : codec.sameDeployment (m.withCancel c) = true)
    (hearly : i.fault.early = false) (hsync : i.fault.fails .syncDirectory = false) :
    (p.step codec i).store.volume.finds (stateFormat codec) = [none] := by
  let next := p.store.memory.upsert (m.withCancel c) i.now.val
  have hwrite : call codec i p.store.memory = .write next (next.envelope i.stamp.val)
      (p.store.memory.upsertFailed (m.withCancel c) i.now.val) .done := by
    unfold call FileCall.act
    rw [hcall]
    exact if_pos hsame
  have hmem : m.withCancel c ∈ (next.envelope i.stamp.val).orders := by
    show m.withCancel c ∈ (StateFile.rememberAdmission _ _ _).orders
    rw [StateFile.rememberAdmission_orders]
    exact FileCall.mem_setOrder_self _ _
  have hread : (stateFormat codec).read (next.envelope i.stamp.val) = none := by
    show ((next.envelope i.stamp.val).parse codec).toOption = none
    unfold StateFile.parse
    cases hrows : (next.envelope i.stamp.val).parseRows codec with
    | error e => rfl
    | ok rows =>
      obtain ⟨-, -, -, horders, -⟩ := StateFile.parseRows_eq_ok.mp hrows
      exact absurd (horders _ hmem) (parseOrder_withCancel c hselected)
  have hwritten := @Store.perform_write _ _ _ p.store (call codec i) i.fault _ _ _ _ hp hwrite
  unfold step performed
  generalize Store.perform p.store (call codec i) i.fault = r at hwritten
  cases hwritten with
  | kept hlate _ _ =>
    rw [hearly] at hlate
    cases hlate
  | unsynced _ hfails _ _ _ =>
    rw [hsync] at hfails
    cases hfails
  | done _ _ hfile hbehind _ _ =>
    rw [← hread]
    exact Store.finds_done hfile hbehind

theorem step_kept (h : p.Kept codec) (hi : p.Meets codec i) : (p.step codec i).Kept codec := by
  by_cases hp : p.store.poisoned = false
  swap
  · -- a poisoned process answers nothing and stays as it is
    have hpoison : p.store.poisoned = true := (Bool.not_eq_false _).mp hp
    have hstore : (p.step codec i).store = p.store := by
      unfold step performed
      rw [Store.perform_refuse (Or.inl hpoison)]
    refine ⟨?_, ?_, ?_⟩ <;> rw [hstore]
    · exact h.reads
    · exact fun hp' => absurd hp' hp
    · exact fun hp' => absurd hp' hp
  have hidle : ∀ {answer : Option (FileAnswer A B)},
      p.performed codec i = ⟨p.store, answer, [p.store.volume]⟩ → p.renames codec i = false →
        (p.step codec i).Kept codec := by
    intro answer hperform hrenames
    unfold step
    rw [hperform, hrenames]
    exact ⟨h.reads, h.sound, fun hp t ht => h.backed hp t ((p.latest_le i).trans ht)⟩
  cases hcall : call codec i p.store.memory with
  | refuse =>
    refine hidle (Store.perform_refuse (Or.inr hcall)) ?_
    exact not_renames (by rw [hcall]; rfl)
  | skip answer =>
    refine hidle (Store.perform_skip hp hcall) ?_
    exact not_renames (by rw [hcall]; rfl)
  | write next saved undone answer =>
    have hwritten := @Store.perform_write _ _ _ p.store (call codec i) i.fault _ _ _ _ hp hcall
    have hreads := @Store.Reads.write _ _ _ _ _ _ _ _ _ _ h.reads _ hwritten
    unfold step performed
    generalize Store.perform p.store (call codec i) i.fault = r at hwritten hreads
    cases hwritten with
    -- The call fails before its rename: the file stays, and memory is rolled back.
    | kept hearly hleft hpoints =>
      have hrenames : p.renames codec i = false := by simp [renames, hearly]
      have hparks : i.call.parks p.store.memory = false := by
        refine (Bool.not_eq_true _).mp fun hparks => ?_
        rw [hi.unspoiled hp hparks] at hearly
        cases hearly
      obtain ⟨hsound, hsame, -⟩ := FileCall.act_undone hcall (h.sound hp) hparks
      rw [hrenames]
      refine ⟨hreads fun hlate => ?_, fun _ => hsound, fun _ t ht => ?_⟩
      · rw [hearly] at hlate
        cases hlate
      · rw [if_neg Bool.false_ne_true, ← h.backed hp t ((p.latest_le i).trans ht)]
        refine exists_congr fun c => and_congr ?_ (hsame t c ((p.now_le i).trans ht))
        rw [hleft.finds]
    -- A failed directory sync behind the rename poisons the process.
    | unsynced hearly _ _ _ _ =>
      have hreadable := hi.readable (renames_of_write hp hearly hcall)
      obtain ⟨c, hc, -⟩ := FileCall.act_readsBack hcall (h.sound hp) hreadable (p.stamp_le i)
      exact ⟨hreads fun _ => by rw [hc]; rfl, nofun, nofun⟩
    | done hearly hsync hfile hbehind _ _ =>
      have hrenames := renames_of_write hp hearly hcall
      have hreadable := hi.readable hrenames
      have hback := fun t ht => @FileCall.act_readsBack _ _ _ _ _ codec _ _ _ _ _ _ _ _ _ hcall
        (h.sound hp) hreadable t ht
      obtain ⟨c, hc, -⟩ := hback _ (p.stamp_le i)
      rw [hrenames]
      refine ⟨hreads fun _ => by rw [hc]; rfl, fun _ => ?_, fun _ t ht => ?_⟩
      · rcases FileCall.act_fits hcall (h.sound hp) hreadable with hfits | ⟨_, _, _, hfails, _⟩
        · exact hfits.sound
        · rw [hsync] at hfails
          cases hfails
      · refine ⟨fun _ => by simp, fun _ => ?_⟩
        exact Store.ReadsBack.backed (hback t ((p.stamp_le i).trans ht)) hsync hfile hbehind

end FileProcess

end

/-! ## The start -/

namespace StateFile

variable {f g : StateFile A B} {ms : List (ManagedOrder A B)} {t t' : Int}

omit [DecidableEq A] [DecidableEq B] [Zero B] in
theorem orders_foldl_upsert :
    (ms.foldl (fun g m => g.upsert m t) g).orders = ms.foldl setOrder g.orders := by
  induction ms generalizing g with
  | nil => rfl
  | cons m ms ih =>
    rw [List.foldl_cons, List.foldl_cons, ih]
    unfold StateFile.upsert
    rw [rememberAdmission_orders]

omit [DecidableEq A] [DecidableEq B] [Zero B] in
theorem stranded_foldl_upsert : (ms.foldl (fun g m => g.upsert m t) g).stranded = g.stranded := by
  induction ms generalizing g with
  | nil => rfl
  | cons m ms ih =>
    rw [List.foldl_cons, ih]
    unfold StateFile.upsert
    rw [rememberAdmission_stranded]

omit [DecidableEq A] [DecidableEq B] [Zero B] in
theorem mem_foldl_setOrder {orders : List (ManagedOrder A B)} {x : ManagedOrder A B}
    (h : x ∈ ms.foldl setOrder orders) : x ∈ orders ∨ x ∈ ms := by
  induction ms generalizing orders with
  | nil => exact Or.inl h
  | cons m ms ih =>
    rcases ih h with horders | hms
    · rcases mem_setOrder horders with rfl | horders
      · exact Or.inr List.mem_cons_self
      · exact Or.inl horders
    · exact Or.inr (List.mem_cons_of_mem _ hms)

theorem Sound.foldl_upsert (hs : g.Sound codec) (hms : ∀ m ∈ ms, OrderRead codec m) :
    (ms.foldl (fun g m => g.upsert m t) g).Sound codec := by
  induction ms generalizing g with
  | nil => exact hs
  | cons m ms ih =>
    exact ih (hs.upsert (hms m List.mem_cons_self)) fun n hn => hms n (List.mem_cons_of_mem _ hn)

omit [DecidableEq B] [Zero B] in
theorem keys_setCredit {l : List (StrandedCredit A B)} (h : (l.map StrandedCredit.key).Nodup)
    (e : StrandedCredit A B) : ((setCredit l e).map StrandedCredit.key).Nodup := by
  unfold setCredit
  split
  · have hkeys : (l.map fun s => if s.key = e.key then e else s).map StrandedCredit.key =
        l.map StrandedCredit.key := by
      rw [List.map_map]
      refine List.map_congr_left fun s _ => ?_
      by_cases hs : s.key = e.key <;> simp [hs]
    rw [hkeys]
    exact h
  · rename_i hany
    rw [List.map_append, List.nodup_append]
    refine ⟨h, List.nodup_singleton _, ?_⟩
    intro a ha b hb hab
    obtain ⟨s, hs, rfl⟩ := List.mem_map.mp ha
    have hb : b = e.key := List.mem_singleton.mp hb
    exact hany (List.any_eq_true.mpr ⟨s, hs, decide_eq_true (hab.trans hb)⟩)

omit [DecidableEq B] [Zero B] in
theorem keys_foldl_setCredit {es l : List (StrandedCredit A B)}
    (h : (l.map StrandedCredit.key).Nodup) :
    ((es.foldl setCredit l).map StrandedCredit.key).Nodup := by
  induction es generalizing l with
  | nil => exact h
  | cons e es ih => exact ih (keys_setCredit h e)

omit [DecidableEq A] [DecidableEq B] [Zero B] in
theorem admission_foldl_le (h : g.Once) {id : String} {u : Int} (hu : g.admission id = some u)
    (ht : t < u) :
    ∃ v, (ms.foldl (fun g m => g.upsert m t) g).admission id = some v ∧ u ≤ v := by
  induction ms generalizing g u with
  | nil => exact ⟨u, hu, le_refl u⟩
  | cons m ms ih =>
    obtain ⟨v, hv, hle⟩ := admission_upsert_le (m := m) h hu ht
    obtain ⟨w, hw, hle'⟩ := ih (once_upsert h m t) hv (by omega)
    exact ⟨w, hw, hle.trans hle'⟩

omit [DecidableEq A] [DecidableEq B] [Zero B] in
theorem admission_foldl_self (h : g.Once) {m : ManagedOrder A B} (hm : m ∈ ms) {u : Int}
    (hu : orderRetentionUntil m t = some u) (ht : t < u) :
    ∃ v, (ms.foldl (fun g m => g.upsert m t) g).admission m.id = some v ∧ u ≤ v := by
  induction ms generalizing g with
  | nil => cases hm
  | cons n ms ih =>
    rcases List.mem_cons.mp hm with rfl | hm
    · obtain ⟨v, hv, hle⟩ := admission_upsert_self h hu
      have hlater : t < v := by omega
      obtain ⟨w, hw, hle'⟩ := admission_foldl_le (once_upsert h m t) hv hlater
      exact ⟨w, hw, hle.trans hle'⟩
    · exact ih (once_upsert h n t) hm

omit [DecidableEq A] [DecidableEq B] [Zero B] in
theorem unexpired_upsert (h : g.Once) {m : ManagedOrder A B} (ht : t ≤ t')
    (hm : ∀ u, orderRetentionUntil m t = some u → 0 < u ∧
      (u ≤ t' ∨ ∃ v, g.unexpired t' m.id = some v ∧ u ≤ v)) (id : String) :
    (g.upsert m t).unexpired t' id = g.unexpired t' id := by
  have hfilter := filter_filter (o := g.admission id) ht
  have hupsert := admission_upsert h m t id
  cases hretain : orderRetentionUntil m t with
  | none =>
    rw [hretain] at hupsert
    unfold unexpired
    rw [hupsert]
    exact hfilter
  | some u =>
    rw [hretain] at hupsert
    dsimp only at hupsert
    obtain ⟨hpos, hcovered⟩ := hm u hretain
    by_cases hid : id = m.id
    · rw [if_pos hid] at hupsert
      unfold unexpired at hcovered ⊢
      rw [hupsert, ← hfilter, Option.filter_some]
      rw [← hid, ← hfilter] at hcovered
      -- `v` is what still counts at `t` of the admission from before
      cases hlive : (g.admission id).filter fun u => decide (t < u) with
      | none =>
        rw [hlive] at hcovered
        have hu : u ≤ t' := by
          rcases hcovered with hu | ⟨v, hv, -⟩
          · exact hu
          · cases hv
        have hnot : ¬ t' < max 0 u := by rw [max_eq_right hpos.le]; omega
        simp [hnot]
      | some v =>
        rw [hlive] at hcovered
        simp only [Option.getD_some, Option.filter_some, decide_eq_true_eq]
        by_cases hv : t' < v
        · have hle : u ≤ v := by
            rcases hcovered with hu | ⟨w, hw, hle⟩
            · omega
            · rw [Option.filter_some, if_pos (decide_eq_true hv)] at hw
              cases hw
              exact hle
          rw [max_eq_left hle]
        · have hu : u ≤ t' := by
            rcases hcovered with hu | ⟨w, hw, -⟩
            · exact hu
            · rw [Option.filter_some, if_neg (by simpa using hv)] at hw
              cases hw
          have hnot : ¬ t' < max v u := by
            rw [lt_max_iff]
            omega
          rw [if_neg hnot, if_neg hv]
    · rw [if_neg hid] at hupsert
      unfold unexpired
      rw [hupsert]
      exact hfilter

omit [DecidableEq A] [DecidableEq B] [Zero B] in
theorem unexpired_foldl_upsert (h : g.Once) (ht : t ≤ t')
    (hms : ∀ m ∈ ms, ∀ u, orderRetentionUntil m t = some u → 0 < u ∧
      (u ≤ t' ∨ ∃ v, g.unexpired t' m.id = some v ∧ u ≤ v)) (id : String) :
    (ms.foldl (fun g m => g.upsert m t) g).unexpired t' id = g.unexpired t' id := by
  induction ms generalizing g with
  | nil => rfl
  | cons m ms ih =>
    have hstep := unexpired_upsert h ht (hms m List.mem_cons_self)
    rw [List.foldl_cons, ih (once_upsert h m t) ?_, hstep]
    intro n hn u hu
    rw [hstep]
    exact hms n (List.mem_cons_of_mem _ hn) u hu

end StateFile

section

variable {p : FileProcess A B} {t : Reading}

theorem fresh_kept : FileProcess.Kept codec
    (⟨⟨.fresh, ⟨none, none, []⟩, false⟩, t, []⟩ : FileProcess A B) := by
  refine ⟨?_, fun _ => ?_, fun _ t' _ => ⟨fun _ => by simp, fun _ => ?_⟩⟩
  · intro x hx
    rw [List.mem_singleton.mp hx]
    rfl
  · exact ⟨fun _ h => absurd h List.not_mem_nil, List.nodup_nil,
      fun _ h => absurd h List.not_mem_nil,
      List.nodup_nil, fun _ h => absurd h List.not_mem_nil, List.nodup_nil⟩
  · exact ⟨.fresh, rfl, fun _ => rfl, fun _ => rfl, fun _ => rfl⟩

namespace StateFile

variable {rows : StateFile A B} {t' : Int}

/-- The maps that a start reads, before an order counts again. -/
def unread (rows : StateFile A B) : StateFile A B :=
  ⟨[], parseStrandedCredits rows.stranded, rows.admissions⟩

/-- What the rows of a file are read as. -/
def found (rows : StateFile A B) : StateFile A B :=
  ⟨(rows.orders.map ManagedOrder.hydrated).foldl setOrder [], rows.unread.stranded,
    rows.admissions⟩

/-- The memory of a process that starts on the rows. -/
def started (rows : StateFile A B) (t : Int) : StateFile A B :=
  (rows.orders.map ManagedOrder.hydrated).foldl (fun g m => g.upsert m t) rows.unread

theorem unread_sound (hentries : ∀ e ∈ rows.admissions, isAdmissionRecord e = true)
    (honce : rows.Once) : rows.unread.Sound codec := by
  refine ⟨fun _ h => absurd h List.not_mem_nil, List.nodup_nil, fun e he => ?_, honce,
    fun e he => wellFormed_of_mem_parse he, keys_foldl_setCredit List.nodup_nil⟩
  have hrecord := hentries e he
  simp only [isAdmissionRecord, Bool.and_eq_true, decide_eq_true_eq] at hrecord
  exact hrecord.1

theorem orderRead_started (horders : ∀ m ∈ rows.orders, OrderRead codec m) :
    ∀ m ∈ rows.orders.map ManagedOrder.hydrated, OrderRead codec m := by
  intro m hm
  obtain ⟨n, hn, rfl⟩ := List.mem_map.mp hm
  exact orderRead_hydrated.mpr (horders n hn)

theorem finds_found
    (hrows : rows.parseRows codec = .ok (rows.orders.map ManagedOrder.hydrated)) :
    (⟨some ⟨.whole rows, true⟩, none, []⟩ : Volume (StateFile A B)).finds (stateFormat codec) =
      [some rows.found] := by
  have hparse : rows.parse codec = .ok rows.found := by
    unfold StateFile.parse
    rw [hrows]
    rfl
  show [(rows.parse codec).toOption] = _
  rw [hparse]
  rfl

omit [DecidableEq B] [Zero B] in
theorem hydrated_of_found : ∀ m ∈ rows.found.orders, m.hydrated = m := by
  intro m hm
  rcases mem_foldl_setOrder hm with hm | hm
  · cases hm
  · obtain ⟨n, -, rfl⟩ := List.mem_map.mp hm
    rfl

omit [DecidableEq B] [Zero B] in
/-- Where the file is as good as memory, every admission that the start extended has run out. -/
theorem ahead_le_of_found (honce : rows.Once) (ht : t.val ≤ t')
    (hlike : SameAt t' rows.found (rows.started t)) : ∀ u ∈ rows.ahead t, u ≤ t' := by
  intro u hu
  obtain ⟨m, hm, hfilter⟩ := List.mem_filterMap.mp hu
  obtain ⟨hretain, hahead⟩ := Option.filter_eq_some_iff.mp hfilter
  by_contra hlate
  have hmem : m.hydrated ∈ rows.orders.map ManagedOrder.hydrated := List.mem_map_of_mem hm
  have hut : t.val < u := by omega
  obtain ⟨v, hv, hle⟩ := admission_foldl_self (g := rows.unread) honce hmem hretain hut
  have hvt : t' < v := by omega
  have hunexpired := hlike.admissions m.hydrated.id
  unfold started at hunexpired
  rw [unexpired_of_admission hv hvt] at hunexpired
  have hrow : rows.admission m.id = some v := (Option.filter_eq_some_iff.mp hunexpired).1
  rw [hrow] at hahead
  simp [hle] at hahead

theorem found_of_ahead_le (honce : rows.Once) (horders : ∀ m ∈ rows.orders, OrderRead codec m)
    (ht : t.val ≤ t') (hahead : ∀ u ∈ rows.ahead t, u ≤ t') :
    SameAt t' rows.found (rows.started t) := by
  refine ⟨fun id => ?_, fun key => ?_, fun id => ?_⟩
  · have hset : (rows.started t).orders = rows.found.orders := orders_foldl_upsert
    show rows.found.orders.find? _ = Option.map _ ((rows.started t).orders.find? _)
    rw [hset]
    cases hget : rows.found.orders.find? fun m => decide (m.id = id) with
    | none => rfl
    | some m => exact congrArg some (hydrated_of_found m (List.mem_of_find?_eq_some hget)).symm
  · have hstranded : (rows.started t).stranded = rows.unread.stranded := stranded_foldl_upsert
    unfold credit
    rw [hstranded]
    rfl
  · refine (unexpired_foldl_upsert (g := rows.unread) honce ht ?_ id).symm
    intro m hm u hu
    refine ⟨((orderRead_started horders m hm).retained hu).2, ?_⟩
    obtain ⟨n, hn, rfl⟩ := List.mem_map.mp hm
    by_cases hcovered : (rows.admission n.id).any fun v => decide (u ≤ v)
    · obtain ⟨v, hv, hle⟩ := (Option.any_eq_true _ _).mp hcovered
      have hle := of_decide_eq_true hle
      by_cases hvt : t' < v
      · exact Or.inr ⟨v, unexpired_of_admission (f := rows.unread) hv hvt, hle⟩
      · exact Or.inl (by omega)
    · refine Or.inl (hahead u ?_)
      refine List.mem_filterMap.mpr ⟨n, hn, Option.filter_eq_some_iff.mpr ⟨hu, ?_⟩⟩
      simpa using hcovered

end StateFile

theorem startFile_kept {file : Option (StateFile A B)} (h : startFile codec file t = .ok p) :
    p.Kept codec := by
  cases file with
  | none =>
    cases h
    exact fresh_kept
  | some rows =>
    unfold startFile at h
    simp only [bind_eq_ok, pure_eq_ok] at h
    obtain ⟨f, hload, rfl⟩ := h
    unfold StateFile.load at hload
    simp only [bind_eq_ok, pure_eq_ok] at hload
    obtain ⟨ms, hrows, rfl⟩ := hload
    obtain ⟨-, hentries, honce, horders, rfl⟩ := StateFile.parseRows_eq_ok.mp hrows
    have hfinds := StateFile.finds_found hrows
    change FileProcess.Kept codec
      ⟨⟨rows.started t, ⟨some ⟨.whole rows, true⟩, none, []⟩, false⟩, t, rows.ahead t⟩
    refine ⟨?_, fun _ => ?_, fun _ t' ht' => ⟨?_, fun hahead => ?_⟩⟩
    · intro x hx
      change x ∈ Volume.finds _ _ at hx
      rw [hfinds] at hx
      rw [List.mem_singleton.mp hx]
      rfl
    · exact (StateFile.unread_sound hentries honce).foldl_upsert
        (StateFile.orderRead_started horders)
    · rintro ⟨c, hc, hlike⟩
      change Volume.finds _ _ = _ at hc
      rw [hfinds] at hc
      cases Option.some.inj (List.cons.inj hc).1
      exact StateFile.ahead_le_of_found honce ht' hlike
    · exact ⟨_, hfinds, StateFile.found_of_ahead_le honce horders ht' hahead⟩

end

end QuantaSwap.Maker.Daemon
