import QuantaSwap.Book.Evolve
import QuantaSwap.Maker.Admissions
import QuantaSwap.Maker.Tick

/-!
# The maker's admissions beside a book

The maker counts the orders that a book retains by a rule of its own, `orderRetentionUntil`: it
never asks. The book keeps a cancelled row for five minutes from the second in which it wrote that
row last, a sweep that came late for one.
-/

set_option autoImplicit false

namespace QuantaSwap.Maker.Daemon

open Lib Lib.Js Lib.Run

namespace StateFile

variable {A B : Type} {f g : StateFile A B} {t t' now : Int} {id : String} {until' : Int}

/-! ## What a file admits -/

/-- The id is admitted until `until'` or longer. -/
def Admits (f : StateFile A B) (id : String) (until' : Int) : Prop :=
  ∃ u, f.admission id = some u ∧ until' ≤ u

/-- The id is admitted until `until'` or longer, as long as `t` is before that. -/
def Covers (f : StateFile A B) (t : Int) (id : String) (until' : Int) : Prop :=
  t < until' → f.Admits id until'

/-- What `f` admits past `t`, `g` admits as long or longer. -/
def Below (t : Int) (f g : StateFile A B) : Prop :=
  ∀ id u, f.admission id = some u → t < u → g.Admits id u

theorem Below.refl (t : Int) (f : StateFile A B) : Below t f f := fun _ u hu _ => ⟨u, hu, le_refl _⟩

theorem Below.trans {k : StateFile A B} (h : Below t f g) (h' : Below t g k) : Below t f k := by
  intro id u hu ht
  obtain ⟨v, hv, hle⟩ := h id u hu ht
  obtain ⟨w, hw, hle'⟩ := h' id v hv (by omega)
  exact ⟨w, hw, by omega⟩

theorem Below.later (h : Below t f g) (ht : t ≤ t') : Below t' f g :=
  fun id u hu hlt => h id u hu (by omega)

theorem Admits.covers (h : f.Admits id until') : f.Covers t id until' := fun _ => h

theorem Covers.later (h : f.Covers t id until') (ht : t ≤ t') : f.Covers t' id until' :=
  fun hlt => h (by omega)

theorem Covers.below (h : f.Covers t id until') (hbelow : Below t f g) : g.Covers t id until' := by
  intro hlt
  obtain ⟨u, hu, hle⟩ := h hlt
  obtain ⟨v, hv, hle'⟩ := hbelow id u hu (by omega)
  exact ⟨v, hv, by omega⟩

theorem below_of_unexpired (h : ∀ id, f.unexpired t id = g.unexpired t id) : Below t f g := by
  intro id u hu ht
  have hsame := h id
  unfold unexpired at hsame
  rw [hu, Option.filter_some_pos (by simpa using ht)] at hsame
  exact ⟨u, (Option.filter_eq_some_iff.mp hsame.symm).1, le_refl _⟩

theorem below_rememberAdmission (h : f.Once) (m : ManagedOrder A B) (now : Int) :
    Below now f (f.rememberAdmission m now) := by
  intro id u hu hlt
  unfold Admits
  rw [admission_rememberAdmission h, hu, Option.filter_some_pos (by simpa using hlt)]
  split
  · exact ⟨u, rfl, le_refl _⟩
  · split
    · exact ⟨_, rfl, le_max_left _ _⟩
    · exact ⟨u, rfl, le_refl _⟩

theorem below_upsert (h : f.Once) (m : ManagedOrder A B) (now : Int) :
    Below now f (f.upsert m now) :=
  below_rememberAdmission (f := { f with orders := setOrder f.orders m }) h m now

theorem below_upsertFailed (h : f.Once) (m : ManagedOrder A B) (now : Int) :
    Below now f (f.upsertFailed m now) ∧ Below now (f.upsertFailed m now) f :=
  ⟨below_of_unexpired fun id => (unexpired_upsertFailed h m (le_refl now) id).symm,
    below_of_unexpired fun id => unexpired_upsertFailed h m (le_refl now) id⟩

theorem admission_deleteFailed (id id' : String) :
    (f.deleteFailed id).admission id' = f.admission id' := by
  unfold deleteFailed admission
  split <;> rfl

theorem below_deleteFailed (id : String) :
    Below now f (f.deleteFailed id) ∧ Below now (f.deleteFailed id) f := by
  constructor
  · exact fun id' u hu _ => ⟨u, (admission_deleteFailed id id').trans hu, le_refl _⟩
  · exact fun id' u hu _ => ⟨u, (admission_deleteFailed id id').symm.trans hu, le_refl _⟩

theorem below_envelope (h : f.Once) (now : Int) : Below now f (f.envelope now) :=
  below_of_unexpired fun id => (unexpired_envelope h (le_refl now) id).symm

theorem hydrate_spec (h : f.Once) (now : Int) :
    (f.hydrate now).Once ∧ Below now f (f.hydrate now) := by
  unfold hydrate
  generalize f.orders = orders
  induction orders generalizing f with
  | nil => exact ⟨h, Below.refl now f⟩
  | cons m orders ih =>
    obtain ⟨honce, hbelow⟩ := ih (once_rememberAdmission h m now)
    exact ⟨honce, (below_rememberAdmission h m now).trans hbelow⟩

theorem orders_upsertFailed (f : StateFile A B) (m : ManagedOrder A B) (now : Int) :
    (f.upsertFailed m now).orders = f.orders := by
  unfold upsertFailed
  rw [restoreAdmission_orders, rememberAdmission_orders]

theorem mem_of_upsert {m n : ManagedOrder A B} (h : n ∈ (f.upsert m now).orders) :
    n = m ∨ n ∈ f.orders := by
  unfold upsert at h
  rw [rememberAdmission_orders] at h
  change n ∈ setOrder f.orders m at h
  unfold setOrder at h
  split at h
  · obtain ⟨n', hn', heq⟩ := List.mem_map.mp h
    split at heq
    · exact Or.inl heq.symm
    · exact Or.inr (heq ▸ hn')
  · rcases List.mem_append.mp h with hold | hnew
    · exact Or.inr hold
    · exact Or.inl (List.mem_singleton.mp hnew)

theorem mem_of_deleteFailed {m : ManagedOrder A B} (h : m ∈ (f.deleteFailed id).orders) :
    m ∈ f.orders := by
  unfold deleteFailed at h
  split at h
  · exact h
  · rename_i n hget
    rcases List.mem_append.mp h with hold | hput
    · exact List.mem_of_mem_filter hold
    · rw [List.mem_singleton.mp hput]
      exact get_mem hget

theorem orderRetentionUntil_mono {m : ManagedOrder A B} (ht : now ≤ t) {until' : Int}
    (h : orderRetentionUntil m now = some until') :
    ∃ u, orderRetentionUntil m t = some u ∧ until' ≤ u := by
  unfold orderRetentionUntil at h ⊢
  obtain ⟨p, hp, hretain⟩ := Option.map_eq_some_iff.mp h
  refine ⟨_, by rw [hp, Option.map_some], ?_⟩
  subst hretain
  dsimp only
  have hcancelled : ∀ a b b' : Int, b ≤ b' →
      (if p.cancelProof.isSome = true then max a b else a) ≤ if p.cancelProof.isSome = true then
        max a b' else a := by
    intro a b b' hle
    split
    · exact max_le_max_left a hle
    · exact le_refl a
  split
  · exact hcancelled _ _ _ (by omega)
  · exact max_le_max_right _ (hcancelled _ _ _ (by omega))

theorem of_rememberAdmission (h : f.Once) {m : ManagedOrder A B} {u : Int}
    (hu : (f.rememberAdmission m now).admission id = some u) (hpos : 0 < u) :
    f.admission id = some u ∨ (id = m.id ∧ orderRetentionUntil m now = some u) := by
  have hfiltered : ∀ v, (f.admission id).filter (fun u => decide (now < u)) = some v →
    f.admission id = some v :=
    fun v hv => (Option.filter_eq_some_iff.mp hv).1
  rw [admission_rememberAdmission h] at hu
  cases hretain : orderRetentionUntil m now with
  | none =>
    rw [hretain] at hu
    exact Or.inl (hfiltered u hu)
  | some retain =>
    rw [hretain] at hu
    dsimp only at hu
    by_cases hid : id = m.id
    · rw [if_pos hid, Option.some.injEq] at hu
      cases hlive : (f.admission id).filter fun u => decide (now < u) with
      | none =>
        rw [hlive, Option.getD_none] at hu
        exact Or.inr ⟨hid, congrArg some (by omega)⟩
      | some v =>
        rw [hlive, Option.getD_some] at hu
        rcases max_choice v retain with hold | hnew
        · rw [hold] at hu
          rw [← hu]
          exact Or.inl (hfiltered v hlive)
        · rw [hnew] at hu
          exact Or.inr ⟨hid, congrArg some hu⟩
    · rw [if_neg hid] at hu
      exact Or.inl (hfiltered u hu)

theorem admits_rememberAdmission (h : f.Once) {m : ManagedOrder A B}
    (hretain : orderRetentionUntil m now = some until') :
    (f.rememberAdmission m now).Admits m.id until' := by
  unfold Admits
  rw [admission_rememberAdmission h, hretain]
  dsimp only
  rw [if_pos rfl]
  exact ⟨_, rfl, le_max_right _ _⟩

theorem admits_upsert (h : f.Once) {m : ManagedOrder A B}
    (hretain : orderRetentionUntil m now = some until') :
    (f.upsert m now).Admits m.id until' :=
  admits_rememberAdmission (f := { f with orders := setOrder f.orders m }) h hretain

theorem admits_hydrate (h : f.Once) {m : ManagedOrder A B} (hm : m ∈ f.orders)
    (hretain : orderRetentionUntil m now = some until') (hlive : now < until') :
    (f.hydrate now).Admits m.id until' := by
  have hfold : ∀ (orders : List (ManagedOrder A B)) (f : StateFile A B), f.Once →
      (m ∈ orders ∨ f.Admits m.id until') →
      (orders.foldl (fun k m => k.rememberAdmission m now) f).Admits m.id until' := by
    intro orders
    induction orders with
    | nil => exact fun f _ hadmits => hadmits.resolve_left List.not_mem_nil
    | cons n orders ih =>
      intro f hf hadmits
      refine ih _ (once_rememberAdmission hf n now) ?_
      rw [List.mem_cons, or_assoc] at hadmits
      rcases hadmits with rfl | hrest | ⟨u, hu, hle⟩
      · exact Or.inr (admits_rememberAdmission hf hretain)
      · exact Or.inl hrest
      · obtain ⟨v, hv, hle'⟩ := below_rememberAdmission hf n now m.id u hu (by omega)
        exact Or.inr ⟨v, hv, by omega⟩
  exact hfold f.orders f h (Or.inl hm)

theorem below_hydrate_later (h : f.Once) (ht : now ≤ t) (hpos : 0 ≤ t) :
    Below t (f.hydrate now) (f.hydrate t) := by
  have hfold : ∀ (orders : List (ManagedOrder A B)) (f g : StateFile A B), f.Once → g.Once →
    Below t f g →
      Below t (orders.foldl (fun k m => k.rememberAdmission m now) f)
        (orders.foldl (fun k m => k.rememberAdmission m t) g) := by
    intro orders
    induction orders with
    | nil => exact fun _ _ _ _ hbelow => hbelow
    | cons m orders ih =>
      intro f g hf hg hbelow
      refine ih _ _ (once_rememberAdmission hf m now) (once_rememberAdmission hg m t) ?_
      intro id u hu hlt
      rcases of_rememberAdmission hf hu (by omega) with hold | ⟨rfl, hretain⟩
      · exact (hbelow.trans (below_rememberAdmission hg m t)) id u hold hlt
      · obtain ⟨retain, hretain', hle⟩ := orderRetentionUntil_mono ht hretain
        obtain ⟨v, hv, hle'⟩ := admits_rememberAdmission hg hretain'
        exact ⟨v, hv, by omega⟩
  exact hfold f.orders f f h h (Below.refl t f)

theorem once_deleteFailed (h : f.Once) (id : String) : (f.deleteFailed id).Once := by
  unfold deleteFailed
  split
  · exact h
  · exact h

end StateFile

/-! ## The maker and a book -/

/-- A record that the file took or was loaded with, and the second of it. -/
structure Written (A : Type) where
  second : Int
  order : ManagedOrder A Book.Bytes32

/-- The state file in memory and on disk, a book, and what the file took and was loaded with. The
clock is the book's. -/
structure Coverage (A : Type) where
  memory : StateFile A Book.Bytes32
  disk : StateFile A Book.Bytes32
  book : Book.World
  recorded : List (Written A)

/-- What the maker does to its file, what reaches the book, or time that passes. A write that fails
does so before anything is renamed. -/
inductive CoverageInput (A : Type)
  | upsert (now : SafeInt) (order : ManagedOrder A Book.Bytes32) (fails : Bool)
  | delete (now : SafeInt) (id : String) (fails : Bool)
  | restart (now : SafeInt)
  | wait (now : SafeInt)
  | call (i : Book.Step)

def CoverageInput.now {A : Type} : CoverageInput A → SafeInt
  | .upsert now _ _ | .delete now _ _ | .restart now | .wait now => now
  | .call i => i.now

namespace Coverage

variable {A : Type}

def start : Coverage A := ⟨⟨[], [], []⟩, ⟨[], [], []⟩, .start, []⟩

variable (w : Coverage A)

def clock : Int := w.book.clock.val

def timed (now : SafeInt) : Coverage A :=
  { w with book := { w.book with clock := max w.book.clock now } }

/-- `persist` -/
def saved (memory : StateFile A Book.Bytes32) : Coverage A :=
  { w with memory, disk := memory.envelope w.clock }

def step (E : Book.Crypto) (w : Coverage A) : CoverageInput A → Coverage A
  | .upsert now order fails =>
    let w := w.timed now
    if fails then { w with memory := w.memory.upsertFailed order w.clock }
    else { w.saved (w.memory.upsert order w.clock) with recorded := ⟨w.clock, order⟩ :: w.recorded }
  | .delete now id fails =>
    let w := w.timed now
    if fails then { w with memory := w.memory.deleteFailed id } else w.saved (w.memory.delete id)
  | .restart now =>
    let w := w.timed now
    { w with memory := w.disk.hydrate w.clock
             recorded := w.disk.orders.map (⟨w.clock, ·⟩) ++ w.recorded }
  | .wait now => w.timed now
  | .call i => { w with book := w.book.step E i }

end Coverage

/-- The row holds the order that was signed for the record. -/
structure RowOf {A : Type} (m : ManagedOrder A Book.Bytes32) (o : Book.Order) : Prop where
  portable : Book.usesPortableTerminalProtocol o = true
  id : o.id.val = m.id
  order : ∃ p ∈ m.protocol, o.orderDigest = some p.orderDigest ∧
    ∃ a ∈ o.makerAuth, (a.expiresAt.val : Int) = p.orderAuth.expiresAt

namespace Coverage

variable {A : Type} (E : Book.Crypto) (w : Coverage A)

/-- The row holds an order of the maker's. -/
def Own (o : Book.Order) : Prop := ∃ r ∈ w.recorded, RowOf r.order o

/-- The maker records an order before it sends it, and the book receives no fill of it but the
maker's. -/
def Honest (w : Coverage A) : CoverageInput A → Prop
  | .upsert _ order _ => ∀ o ∈ w.book.store.orders, RowOf order o → w.Own o
  | .call i => ∀ o ∈ w.book.store.orders, w.Own o → ∀ fill, i.call.fill? = some (o.id.val, fill) →
      ∃ r ∈ w.recorded, RowOf r.order o ∧
        ∃ f ∈ r.order.fillProof, f.fill.initiatorTimeout = fill.initiatorTimeout.val
  | _ => True

/-! ## What the accounting is for, and when it holds -/

/-- Each row of the maker's that a sweep keeps is admitted, so that within its budget the maker
meets the limit of the book only where others list under its accounts. -/
structure Accounts (w : Coverage A) : Prop where
  admitted : ∀ o ∈ w.book.store.orders, w.Own o → (Book.sweepOrder w.book.clock o).isSome = true →
    ∃ u, w.memory.admission o.id.val = some u ∧ w.clock < u
  capacity : w.memory.retainedAdmissionCount w.clock ≤ LOCAL_RETAINED_ORDER_BUDGET → ∀ eth qrl,
    Book.assertMakerCapacity (Book.sweepAll w.book.clock w.book.store.orders) eth qrl =
        .error (Book.transient 429 "maker already has too many retained order artifacts") →
      ∃ o ∈ Book.sweepAll w.book.clock w.book.store.orders, Book.sameMaker eth qrl o =
        true ∧ ¬ w.Own o

/-- The call writes to the row and leaves it cancelled. -/
def Rewrites (w : Book.World) (i : Book.Step) (o : Book.Order) : Prop :=
  ∃ o' ∈ (w.step E i).store.orders, o'.id = o.id ∧ o'.status = .cancelled ∧
    o'.updatedAt ≠ o.updatedAt

/-- `t` is no later than the signed expiry of the row's order, than a second in which the file took
or was loaded with a cancel of it, or than a day past the T1 of a recorded fill less the grace. -/
def Stands (w : Coverage A) (o : Book.Order) (t : Int) : Prop :=
  ∃ r ∈ w.recorded, RowOf r.order o ∧ ∃ p ∈ r.order.protocol,
    t ≤ p.orderAuth.expiresAt ∨ (p.cancelProof.isSome = true ∧ t ≤ r.second) ∨
      ∃ s ∈ p.fillProof, t + SIGNED_ORDER_RETENTION_GRACE_S ≤
        s.fill.initiatorTimeout + FILLED_ORDER_LINGER_S

/-- A call that finds a row of the maker's open, or writes to a cancelled one, comes while it
stands, and none brings an order past its grace. Nothing else comes later than the grace of an open
row. -/
def InTime (w : Coverage A) : CoverageInput A → Prop
  | .call i =>
    let now := (w.book.timed i).now
    (∀ o ∈ w.book.store.orders, w.Own o →
      o.status = .open ∨ (o.status = .cancelled ∧ Rewrites E w.book i o) → w.Stands o now.val) ∧
    ∀ body makerIp origin v, Book.Asked E (w.book.timed i) body makerIp origin →
      origin.verified = some v →
      ∀ r ∈ w.recorded, ∀ p ∈ r.order.protocol, p.orderDigest = v.orderDigest →
        (now.val : Int) ≤ p.orderAuth.expiresAt + SIGNED_ORDER_RETENTION_GRACE_S
  | i => ∀ o ∈ w.book.store.orders, w.Own o → o.status = .open →
      w.Stands o ((w.timed i.now).clock - SIGNED_ORDER_RETENTION_GRACE_S)

/-! ## What the file covers -/

/-- The file covers what was signed for the record. -/
structure Recorded (f : StateFile A Book.Bytes32) (t : Int) (r : Written A) : Prop where
  expiry : ∀ p ∈ r.order.protocol,
    f.Covers t r.order.id (p.orderAuth.expiresAt + SIGNED_ORDER_RETENTION_GRACE_S + 1)
  cancel : ∀ p ∈ r.order.protocol, p.cancelProof.isSome = true →
    f.Covers t r.order.id (r.second + SIGNED_ORDER_RETENTION_GRACE_S + 1)
  fill : ∀ p ∈ r.order.protocol, ∀ s ∈ p.fillProof,
    f.Covers t r.order.id (s.fill.initiatorTimeout + FILLED_ORDER_LINGER_S + 1)

/-- The file covers the row as long as the book keeps it. -/
structure RowCovered (f : StateFile A Book.Bytes32) (t : Int) (o : Book.Order) : Prop where
  opened : o.status = .open → f.Admits o.id.val (t + 1)
  cancelled : o.status = .cancelled →
    f.Covers t o.id.val (o.updatedAt.val + SIGNED_ORDER_RETENTION_GRACE_S + 1)
  locking : o.status = .locking →
    ∃ t1, o.initiatorTimeout = some t1 ∧ f.Covers t o.id.val (t1 + FILLED_ORDER_LINGER_S + 1)

/-- What the memory covers, and that a restart brings back from the disk. -/
structure Tracked (w : Coverage A) : Prop where
  once : w.memory.Once
  onceDisk : w.disk.Once
  recovers : ∀ t, w.clock ≤ t → StateFile.Below t w.memory (w.disk.hydrate t)
  held : ∀ m, m ∈ w.memory.orders ∨ m ∈ w.disk.orders → ∃ r ∈ w.recorded, r.order = m
  ids : (w.book.store.orders.map Book.Order.id).Nodup
  rows : ∀ o ∈ w.book.store.orders, Book.Row E w.book.clock o
  recorded : ∀ r ∈ w.recorded, Recorded w.memory w.clock r
  covered : ∀ o ∈ w.book.store.orders, w.Own o → RowCovered w.memory w.clock o

section Steps

variable {E : Book.Crypto} {w w' : Coverage A} {f g : StateFile A Book.Bytes32} {t t' : Int}
  {m : ManagedOrder A Book.Bytes32} {r : Written A} {o : Book.Order}

theorem Recorded.move (h : Recorded f t r) (ht : t ≤ t') (hbelow : StateFile.Below t' f g) :
    Recorded g t' r where
  expiry := fun p hp => ((h.expiry p hp).later ht).below hbelow
  cancel := fun p hp hcancel => ((h.cancel p hp hcancel).later ht).below hbelow
  fill := fun p hp s hs => ((h.fill p hp s hs).later ht).below hbelow

theorem RowCovered.move (h : RowCovered f t o) (ht : t ≤ t') (hbelow : StateFile.Below t' f g)
    (hopen : o.status = .open → f.Admits o.id.val (t' + 1)) : RowCovered g t' o where
  opened := by
    intro hstatus
    exact ((hopen hstatus).covers (t := t')).below hbelow (by omega)
  cancelled := fun hstatus => ((h.cancelled hstatus).later ht).below hbelow
  locking := by
    intro hstatus
    obtain ⟨t1, ht1, hcovers⟩ := h.locking hstatus
    exact ⟨t1, ht1, (hcovers.later ht).below hbelow⟩

theorem Tracked.stands (h : Tracked E w) (hstands : w.Stands o t)
    (ht : w.clock ≤ t + SIGNED_ORDER_RETENTION_GRACE_S) :
    w.memory.Admits o.id.val (t + SIGNED_ORDER_RETENTION_GRACE_S + 1) := by
  have hadmits : ∀ id until', w.memory.Covers w.clock id until' →
    t + SIGNED_ORDER_RETENTION_GRACE_S + 1 ≤ until' →
      w.memory.Admits id (t + SIGNED_ORDER_RETENTION_GRACE_S + 1) := by
    intro id until' hcovers hle
    obtain ⟨u, hu, hle'⟩ := hcovers (by omega)
    exact ⟨u, hu, by omega⟩
  obtain ⟨r, hr, hrow, p, hp, hend⟩ := hstands
  have hrecorded := h.recorded r hr
  rw [hrow.id]
  rcases hend with hexpiry | ⟨hcancel, hsecond⟩ | ⟨s, hs, htimeout⟩
  · exact hadmits _ _ (hrecorded.expiry p hp) (by omega)
  · exact hadmits _ _ (hrecorded.cancel p hp hcancel) (by omega)
  · exact hadmits _ _ (hrecorded.fill p hp s hs) (by omega)

theorem orderRetentionUntil_bounds {p : ManagedProtocolV1 A Book.Bytes32} (hp : p ∈ m.protocol)
    (now : Int) :
    ∃ until', orderRetentionUntil m now = some until' ∧
      p.orderAuth.expiresAt + SIGNED_ORDER_RETENTION_GRACE_S + 1 ≤ until' ∧
      (p.cancelProof.isSome = true → now + SIGNED_ORDER_RETENTION_GRACE_S + 1 ≤ until') ∧
      ∀ s ∈ p.fillProof, s.fill.initiatorTimeout + FILLED_ORDER_LINGER_S + 1 ≤ until' := by
  unfold orderRetentionUntil
  rw [Option.mem_def.mp hp, Option.map_some]
  have hsigned : ∀ a b : Int, a ≤ if p.cancelProof.isSome = true then max a b else a := by
    intro a b
    split
    · exact le_max_left a b
    · exact le_refl a
  refine ⟨_, rfl, ?_, ?_, ?_⟩
  · dsimp only
    split
    · exact hsigned _ _
    · exact (hsigned _ _).trans (le_max_left _ _)
  · intro hcancel
    dsimp only
    rw [if_pos hcancel]
    split
    · exact le_max_right _ _
    · exact (le_max_right _ _).trans (le_max_left _ _)
  · intro s hs
    rw [Option.mem_def.mp hs]
    exact le_max_right _ _

theorem recorded_of_retained {f : StateFile A Book.Bytes32} {m : ManagedOrder A Book.Bytes32}
    {now : Int}
    (h : ∀ until', orderRetentionUntil m now = some until' → f.Covers now m.id until') :
    Recorded f now ⟨now, m⟩ := by
  have hcovers : ∀ p ∈ m.protocol, ∃ until', f.Covers now m.id until' ∧
      p.orderAuth.expiresAt + SIGNED_ORDER_RETENTION_GRACE_S + 1 ≤ until' ∧
      (p.cancelProof.isSome = true → now + SIGNED_ORDER_RETENTION_GRACE_S + 1 ≤ until') ∧
      ∀ s ∈ p.fillProof, s.fill.initiatorTimeout + FILLED_ORDER_LINGER_S + 1 ≤ until' := by
    intro p hp
    obtain ⟨until', hretain, hbounds⟩ := orderRetentionUntil_bounds hp now
    exact ⟨until', h until' hretain, hbounds⟩
  refine ⟨?_, ?_, ?_⟩
  · intro p hp hlive
    obtain ⟨until', hcovers', hexpiry, -, -⟩ := hcovers p hp
    obtain ⟨u, hu, hle⟩ := hcovers' (by omega)
    exact ⟨u, hu, by omega⟩
  · intro p hp hcancel hlive
    obtain ⟨until', hcovers', -, hsecond, -⟩ := hcovers p hp
    have hle' := hsecond hcancel
    dsimp only at hlive ⊢
    obtain ⟨u, hu, hle⟩ := hcovers' (by omega)
    exact ⟨u, hu, by omega⟩
  · intro p hp s hs hlive
    obtain ⟨until', hcovers', -, -, hfill⟩ := hcovers p hp
    have hle' := hfill s hs
    obtain ⟨u, hu, hle⟩ := hcovers' (by omega)
    exact ⟨u, hu, by omega⟩

theorem own_of_held {o : Book.Order} {news : List (ManagedOrder A Book.Bytes32)} {now : Int}
    (h : ∀ m ∈ news, RowOf m o → w.Own o)
    (hown : ∃ r ∈ news.map (⟨now, ·⟩) ++ w.recorded, RowOf r.order o) :
    w.Own o := by
  obtain ⟨r, hr, hrow⟩ := hown
  rcases List.mem_append.mp hr with hnew | hold
  · obtain ⟨m, hm, rfl⟩ := List.mem_map.mp hnew
    exact h m hm hrow
  · exact ⟨r, hold, hrow⟩

theorem Tracked.move (h : Tracked E w) (hstore : w'.book.store = w.book.store)
    (hclock : w.clock ≤ w'.clock)
    (honce : w'.memory.Once) (honceDisk : w'.disk.Once)
    (hmemory : StateFile.Below w'.clock w.memory w'.memory)
    (hrecovers : ∀ t, w'.clock ≤ t → StateFile.Below t w'.memory (w'.disk.hydrate t))
    (hheld : ∀ m, m ∈ w'.memory.orders ∨ m ∈ w'.disk.orders → ∃ r ∈ w'.recorded, r.order = m)
    (hrecorded : ∀ r ∈ w'.recorded, r ∈ w.recorded ∨ Recorded w'.memory w'.clock r)
    (hown : ∀ o ∈ w.book.store.orders, w'.Own o → w.Own o)
    (hopen : ∀ o ∈ w.book.store.orders, w.Own o → o.status = .open →
      w.memory.Admits o.id.val (w'.clock + 1)) :
    Tracked E w' where
  once := honce
  onceDisk := honceDisk
  recovers := hrecovers
  held := hheld
  ids := by
    rw [hstore]
    exact h.ids
  rows := by
    intro o ho
    rw [hstore] at ho
    refine (h.rows o ho).later ?_
    unfold clock at hclock
    omega
  recorded := by
    intro r hr
    rcases hrecorded r hr with hold | hnew
    · exact (h.recorded r hold).move hclock hmemory
    · exact hnew
  covered := by
    intro o ho howned
    rw [hstore] at ho
    have hold := hown o ho howned
    exact (h.covered o ho hold).move hclock hmemory (hopen o ho hold)

/-- A step of the maker's file, or time, keeps what is covered. -/
theorem Tracked.file (h : Tracked E w) {i : CoverageInput A} (hcall : ∀ j, i ≠ .call j)
    (hhonest : w.Honest i)
    (htime : w.InTime E i) : Tracked E (w.step E i) := by
  have hclock : w.clock ≤ (w.timed i.now).clock := Int.ofNat_le.mpr (le_max_left w.book.clock i.now)
  have hopen : ∀ o ∈ w.book.store.orders, w.Own o → o.status = .open →
      w.memory.Admits o.id.val ((w.timed i.now).clock + 1) := by
    intro o ho hown hstatus
    have hstands : w.Stands o ((w.timed i.now).clock - SIGNED_ORDER_RETENTION_GRACE_S) := by
      cases i with
      | call j => exact absurd rfl (hcall j)
      | _ => exact htime o ho hown hstatus
    have hadmits := h.stands hstands (by omega)
    rwa [Int.sub_add_cancel] at hadmits
  have hpos : ∀ t, (w.timed i.now).clock ≤ t → 0 ≤ t := fun t ht => (Int.natCast_nonneg _).trans ht
  have hrecovers : ∀ t, (w.timed i.now).clock ≤ t → StateFile.Below t w.memory (w.disk.hydrate t) :=
    fun t ht => h.recovers t (hclock.trans ht)
  -- a write brings all that the memory admits to the disk
  have hsaved : ∀ memory : StateFile A Book.Bytes32, memory.Once → ∀ t, (w.timed i.now).clock ≤ t →
      StateFile.Below t memory ((memory.envelope (w.timed i.now).clock).hydrate t) := by
    intro memory honce t ht
    have henvelope := (StateFile.below_envelope honce (w.timed i.now).clock).later ht
    exact henvelope.trans (StateFile.hydrate_spec (StateFile.once_envelope honce _) t).2
  cases i with
  | call j => exact absurd rfl (hcall j)
  | wait now =>
    exact h.move rfl hclock h.once h.onceDisk (.refl _ _) hrecovers h.held (fun r hr => Or.inl hr)
      (fun o _ ho => ho) hopen
  | restart now =>
    have honce := (StateFile.hydrate_spec h.onceDisk (w.timed now).clock).1
    refine h.move rfl hclock honce h.onceDisk (hrecovers _ (le_refl _)) ?_ ?_ ?_ ?_ hopen
    · exact fun t ht => StateFile.below_hydrate_later h.onceDisk ht (hpos t ht)
    · intro m hm
      have hdisk : m ∈ w.disk.orders :=
        hm.elim (fun hm => StateFile.hydrate_orders (f := w.disk) _ ▸ hm) id
      exact ⟨⟨_, m⟩, List.mem_append_left _ (List.mem_map_of_mem hdisk), rfl⟩
    · intro r hr
      rcases List.mem_append.mp hr with hnew | hold
      · obtain ⟨m, hm, rfl⟩ := List.mem_map.mp hnew
        exact Or.inr (recorded_of_retained fun until' hretain hlive =>
          StateFile.admits_hydrate h.onceDisk hm hretain hlive)
      · exact Or.inl hold
    · intro o _ hown
      refine own_of_held (fun m hm hrow => ?_) hown
      obtain ⟨r, hr, rfl⟩ := h.held m (Or.inr hm)
      exact ⟨r, hr, hrow⟩
  | delete now id fails =>
    unfold step
    dsimp only
    split
    · have hbelow : StateFile.Below (w.timed now).clock w.memory (w.memory.deleteFailed id) ∧
          StateFile.Below (w.timed now).clock (w.memory.deleteFailed id) w.memory :=
        StateFile.below_deleteFailed id
      refine h.move rfl hclock (StateFile.once_deleteFailed h.once id) h.onceDisk hbelow.1 ?_ ?_
        (fun r hr => Or.inl hr) (fun o _ ho => ho) hopen
      · exact fun t ht => (StateFile.below_deleteFailed id).2.trans (hrecovers t ht)
      · exact fun m hm => h.held m (hm.imp_left StateFile.mem_of_deleteFailed)
    · have honce : (w.memory.delete id).Once := h.once
      refine h.move rfl hclock honce (StateFile.once_envelope honce _)
        (StateFile.Below.refl _ w.memory)
        (hsaved _ honce) ?_ (fun r hr => Or.inl hr) (fun o _ ho => ho) hopen
      exact fun m hm =>
        h.held m (Or.inl (List.mem_of_mem_filter (hm.elim (fun hm => hm) fun hm => hm)))
  | upsert now order fails =>
    unfold step
    dsimp only
    split
    · have hbelow := StateFile.below_upsertFailed h.once order (w.timed now).clock
      refine h.move rfl hclock (StateFile.once_upsertFailed h.once _ _) h.onceDisk hbelow.1 ?_ ?_
        (fun r hr => Or.inl hr) (fun o _ ho => ho) hopen
      · exact fun t ht => (hbelow.2.later ht).trans (hrecovers t ht)
      · exact fun m hm =>
          h.held m (hm.imp_left fun hm => StateFile.orders_upsertFailed w.memory order _ ▸ hm)
    · have honce := StateFile.once_upsert h.once order (w.timed now).clock
      refine h.move rfl hclock honce (StateFile.once_envelope honce _)
        (StateFile.below_upsert h.once order _)
        (hsaved _ honce) ?_ ?_ ?_ hopen
      · intro m hm
        rcases StateFile.mem_of_upsert (hm.elim (fun hm => hm) fun hm => hm) with rfl | hold
        · exact ⟨⟨_, m⟩, List.mem_cons_self, rfl⟩
        · obtain ⟨r, hr, horder⟩ := h.held m (Or.inl hold)
          exact ⟨r, List.mem_cons_of_mem _ hr, horder⟩
      · intro r hr
        rcases List.mem_cons.mp hr with rfl | hold
        · exact Or.inr (recorded_of_retained fun until' hretain _ =>
            StateFile.admits_upsert h.once hretain)
        · exact Or.inl hold
      · intro o ho hown
        have hnew : ∀ m ∈ [order], RowOf m o → w.Own o :=
          fun m hm hrow => hhonest o ho (List.mem_singleton.mp hm ▸ hrow)
        exact own_of_held hnew hown

theorem rowOf_of_evolved {i : Book.Step} {o o' : Book.Order} (h : RowOf m o')
    (hevolved : Book.Evolved i o o') :
    RowOf m o := by
  obtain ⟨hportable, hid, p, hp, hdigest, hauth⟩ := h
  rw [hevolved.portable] at hportable
  rw [hevolved.id] at hid
  rw [hevolved.digest] at hdigest
  rw [hevolved.auth] at hauth
  exact ⟨hportable, hid, p, hp, hdigest, hauth⟩

theorem rowOf_of_swept {now : SafeInt} {o o' : Book.Order} (h : RowOf m o')
    (hswept : Book.sweepOrder now o = some o') :
    RowOf m o := by
  have huses := Book.sweepOrder_uses hswept
  obtain ⟨hportable, hid, horder⟩ := h
  rcases Book.sweepOrder_cases hswept with ⟨rfl, -⟩ | rfl
  · exact ⟨huses.symm.trans hportable, hid, horder⟩
  · exact ⟨huses.symm.trans hportable, hid, horder⟩

theorem grace_nonneg : (0 : Int) ≤ SIGNED_ORDER_RETENTION_GRACE_S := by decide

/-- A call keeps the rows of the maker's covered. -/
theorem Tracked.call (h : Tracked E w) {i : Book.Step} (hhonest : w.Honest (.call i))
    (htime : w.InTime E (.call i)) :
    Tracked E (w.step E (.call i)) := by
  have hclock : w.clock ≤ (w.step E (.call i)).clock := Int.ofNat_le.mpr (w.book.clock_le_timed i)
  have hnow : (w.step E (.call i)).clock = ((w.book.timed i).now.val : Int) := rfl
  obtain ⟨hstands, harrives⟩ := htime
  have hfound : ∀ o ∈ w.book.store.orders, w.Own o →
      o.status = .open ∨ (o.status = .cancelled ∧ Rewrites E w.book i o) →
      w.memory.Admits o.id.val ((w.book.timed i).now.val + SIGNED_ORDER_RETENTION_GRACE_S + 1) := by
    intro o ho hown hwritten
    have hgrace := grace_nonneg
    exact h.stands (hstands o ho hown hwritten) (by omega)
  have heffects := w.book.step_effects E i
  refine ⟨h.once, h.onceDisk, fun t ht => h.recovers t (hclock.trans ht), h.held,
    heffects.ids h.ids, ?_, ?_, ?_⟩
  · refine heffects.forall_mem (P := Book.Row E (w.book.timed i).now) h.ids ?_ ?_ ?_ ?_ ?_
    · exact fun _ _ hrow hsweep => hrow.sweep hsweep
    · exact fun _ hrow => hrow
    · exact fun _ _ _ _ _ hasked hdraft => Book.row_of_draft hasked hdraft
    · exact fun _ _ hrow hchange => hrow.change hchange
    · exact fun o ho => (h.rows o ho).later (w.book.clock_le_timed i)
  · exact fun r hr => (h.recorded r hr).move hclock (.refl _ _)
  · rintro o' ho' ⟨r, hr, hrow⟩
    have hgrace := grace_nonneg
    rcases Book.step_evolves h.ids h.rows o' ho' hrow.portable with hborn | ⟨o, ho, hevolved⟩
    · obtain ⟨body, makerIp, origin, v, hasked, hverified, hopen, hdigest, hauth⟩ := hborn
      obtain ⟨p, hp, hdigest', a, ha, hexpiry⟩ := hrow.order
      rw [hdigest, Option.some.injEq] at hdigest'
      have hgrace' := harrives body makerIp origin v hasked hverified r hr p hp hdigest'.symm
      obtain ⟨u, hu, hle⟩ := ((h.recorded r hr).expiry p hp).later hclock (by rw [hnow]; omega)
      refine ⟨fun _ => ⟨u, ?_, by rw [hnow]; omega⟩, ?_, ?_⟩
      · rw [hrow.id]
        exact hu
      · intro hcancelled
        exact absurd (hopen.symm.trans hcancelled) (by decide)
      · intro hlocking
        exact absurd (hopen.symm.trans hlocking) (by decide)
    · have hown : w.Own o := ⟨r, hr, rowOf_of_evolved hrow hevolved⟩
      have hcovered := h.covered o ho hown
      refine ⟨?_, ?_, ?_⟩
      · intro hopen
        obtain ⟨u, hu, hle⟩ := hfound o ho hown (Or.inl (hevolved.opened hopen))
        rw [hevolved.id]
        exact ⟨u, hu, by rw [hnow]; omega⟩
      · intro hcancelled
        rw [hevolved.id]
        -- the sweep found it open, or it was cancelled before
        rcases hevolved.cancelled hcancelled with hopen | hbefore
        · rw [hevolved.fresh hcancelled hopen]
          exact (hfound o ho hown (Or.inl hopen)).covers
        · by_cases hsame : o'.updatedAt = o.updatedAt
          · rw [hsame]
            exact (hcovered.cancelled hbefore).later hclock
          · rw [hevolved.stamp.resolve_left hsame]
            exact (hfound o ho hown (Or.inr ⟨hbefore, o', ho', hevolved.id, hcancelled,
              hsame⟩)).covers
      · intro hlocking
        rw [hevolved.id]
        rcases hevolved.locking hlocking with ⟨hbefore, hsame⟩ | ⟨fill, hcall, htimeout⟩
        · rw [hsame]
          obtain ⟨t1, ht1, hcovers⟩ := hcovered.locking hbefore
          exact ⟨t1, ht1, hcovers.later hclock⟩
        · obtain ⟨r', hr', hrow', s, hs, hsigned⟩ := hhonest o ho hown fill hcall
          obtain ⟨p, hp, hproof⟩ := Option.bind_eq_some_iff.mp hs
          refine ⟨fill.initiatorTimeout.val, htimeout, ?_⟩
          rw [hrow'.id, ← hsigned]
          exact ((h.recorded r' hr').fill p hp s hproof).later hclock

theorem tracked_step (h : Tracked E w) {i : CoverageInput A} (hhonest : w.Honest i)
    (htime : w.InTime E i) :
    Tracked E (w.step E i) := by
  cases i with
  | call j => exact h.call hhonest htime
  | _ => exact h.file (fun j hj => by cases hj) hhonest htime

theorem tracked_start (E : Book.Crypto) : Tracked E (start : Coverage A) where
  once := List.nodup_nil
  onceDisk := List.nodup_nil
  recovers := fun t _ => StateFile.Below.refl t _
  held := fun _ hm => absurd (hm.elim id id) List.not_mem_nil
  ids := List.nodup_nil
  rows := fun _ ho => absurd ho List.not_mem_nil
  recorded := fun _ hr => absurd hr List.not_mem_nil
  covered := fun _ ho => absurd ho List.not_mem_nil

/-! ## What the book keeps is admitted -/

theorem lingers_eq : (Book.signedTerminalGraceS : Int) = SIGNED_ORDER_RETENTION_GRACE_S ∧
    (Book.lockingLingerS : Int) = FILLED_ORDER_LINGER_S := by decide

theorem Tracked.admitted (h : Tracked E w) (ho : o ∈ w.book.store.orders) (hown : w.Own o)
    (hkept : (Book.sweepOrder w.book.clock o).isSome = true) :
    ∃ u, w.memory.admission o.id.val = some u ∧ w.clock < u := by
  have hpast : ∀ until', w.memory.Covers w.clock o.id.val until' → w.clock < until' →
      ∃ u, w.memory.admission o.id.val = some u ∧ w.clock < u := by
    intro until' hcovers hlt
    obtain ⟨u, hu, hle⟩ := hcovers hlt
    exact ⟨u, hu, by omega⟩
  have hcovered := h.covered o ho hown
  obtain ⟨r, hr, hrow⟩ := hown
  obtain ⟨v, hsigned⟩ := (h.rows o ho).signedRow hrow.portable
  obtain ⟨p, hp, -, a, ha, hexpiry⟩ := hrow.order
  obtain ⟨hgrace, hlinger⟩ := lingers_eq
  have hclock : w.clock = w.book.clock.val := rfl
  cases hstatus : o.status with
  | «open» => exact hpast _ (hcovered.opened hstatus).covers (by omega)
  | accepted => exact absurd hstatus hsigned.outcome.accepted
  | cancelled =>
    have hstays := Book.removable_of_kept (Or.inl hstatus) hkept
    unfold Book.removable at hstays
    rw [hstatus, Option.mem_def.mp ha] at hstays
    have hkeeps := of_decide_eq_false hstays
    rw [not_and_or] at hkeeps
    rcases hkeeps with hgraced | hyoung
    · have hcovers := (h.recorded r hr).expiry p hp
      rw [← hrow.id] at hcovers
      exact hpast _ hcovers (by omega)
    · exact hpast _ (hcovered.cancelled hstatus) (by omega)
  | locking =>
    obtain ⟨t1, ht1, hcovers⟩ := hcovered.locking hstatus
    have hstays := Book.removable_of_kept (Or.inr hstatus) hkept
    unfold Book.removable at hstays
    rw [hstatus, ht1] at hstays
    have hkeeps := of_decide_eq_false hstays
    exact hpast _ hcovers (by omega)

theorem retained_of_refused {l : List Book.Order} {eth : Book.EthAddress} {qrl : Book.QrlAddress}
    (h : Book.assertMakerCapacity l eth qrl =
      .error (Book.transient 429 "maker already has too many retained order artifacts")) :
    Book.maxRetainedOrdersPerMaker ≤ (l.filter (Book.sameMaker eth qrl)).length := by
  unfold Book.assertMakerCapacity Lib.Checks.refuse at h
  by_contra hfew
  rw [if_neg hfew] at h
  split at h
  · exact absurd (Except.error.inj h) (by decide)
  · cases h

theorem Tracked.counted (h : Tracked E w) {l : List Book.Order}
    (hsub : l.Sublist (Book.sweepAll w.book.clock w.book.store.orders))
    (hown : ∀ o ∈ l, w.Own o) : l.length ≤ w.memory.retainedAdmissionCount w.clock := by
  have hids : (l.map fun o => o.id.val).Nodup := by
    have hnodup := (hsub.map Book.Order.id).nodup ((Book.sweepAll_ids w.book.clock _).nodup h.ids)
    have hval := hnodup.map Subtype.val_injective
    rwa [List.map_map] at hval
  unfold StateFile.retainedAdmissionCount
  rw [← List.length_map (fun o : Book.Order => o.id.val),
    ← List.length_map (Prod.fst : String × Int → String)]
  refine List.Subperm.length_le (hids.subperm ?_)
  intro id hid
  obtain ⟨o', ho', rfl⟩ := List.mem_map.mp hid
  obtain ⟨o, ho, hswept⟩ := Book.mem_sweepAll.mp (hsub.subset ho')
  obtain ⟨r, hr, hrow⟩ := hown o' ho'
  obtain ⟨u, hu, hlt⟩ := h.admitted ho ⟨r, hr, rowOf_of_swept hrow hswept⟩ (by rw [hswept]; rfl)
  rw [Book.sweepOrder_id hswept]
  obtain ⟨before, after, hentries, -⟩ := List.lookup_eq_some_iff.mp hu
  refine List.mem_map.mpr ⟨(o.id.val, u), List.mem_filter.mpr ⟨?_, decide_eq_true hlt⟩, rfl⟩
  rw [hentries]
  exact List.mem_append_right _ List.mem_cons_self

theorem Tracked.accounts (h : Tracked E w) : w.Accounts := by
  refine ⟨fun o ho hown hkept => h.admitted ho hown hkept, ?_⟩
  intro hbudget eth qrl hrefused
  by_contra hnone
  have hown : ∀ o ∈
    (Book.sweepAll w.book.clock w.book.store.orders).filter (Book.sameMaker eth qrl), w.Own o := by
    intro o ho
    rw [List.mem_filter] at ho
    by_contra hforeign
    exact hnone ⟨o, ho.1, ho.2, hforeign⟩
  have hfull := retained_of_refused hrefused
  have hfew := h.counted List.filter_sublist hown
  have hheadroom : LOCAL_RETAINED_ORDER_BUDGET < Book.maxRetainedOrdersPerMaker := by decide
  omega

end Steps

/-- In a run in which the book receives only the maker's own order and fill of each of its rows,
every row that the book keeps is admitted in the state file, as long as every call finds the rows in
time. -/
theorem book_rows_admitted (E : Book.Crypto) (is : List (CoverageInput A))
    (hhonest : Along (Coverage.step E) Honest start is)
    (htime : Along (Coverage.step E) (InTime E) start is) :
    (run (Coverage.step E) (start : Coverage A) is).Accounts := by
  refine Tracked.accounts
    (invariant_of_along (I := Tracked E) ?_ (along_and hhonest htime) (tracked_start E))
  rintro w i htracked ⟨hhonest, htime⟩
  exact tracked_step htracked hhonest htime

/-! ## A quote that expires -/

section Sample

open Book (roomCrypto roomClock roomSigned)

/-- The maker's record of the sample order, which is signed until 1172800. -/
def roomRecord : ManagedOrder Unit Book.Bytes32 where
  id := (Book.signedOrderId roomSigned.orderId).val
  token := none
  protocol := some {
    orderDigest := Book.digitNonce 15
    order := ⟨.ethToQrl, .ETH, 10 ^ 18, 10 ^ 18, (), (), .pub, none, none, none⟩
    orderAuth := {
      scheme := "ml-dsa-87"
      issuedAt := 1000000
      expiresAt := 1172800
      nonce := Book.plainAuth.nonce
      signature := Book.plainAuth.signature.val
      publicKey := Book.plainAuth.publicKey.val
      descriptor := Book.plainAuth.descriptor.val
      makerTokenCommitment := Book.plainAuth.makerTokenCommitment
      shareTokenCommitment := Book.plainAuth.shareTokenCommitment }
    fillAcknowledged := false
    releaseObserved := false
    selectedIntent := none
    fillProof := none
    cancelProof := none }
  direction := .ethToQrl
  asset := .ETH
  level := 0
  quotedMidMilli := none
  fromAmount := 10 ^ 18
  toAmount := 10 ^ 18
  preimage := none
  hashlock := none
  initiatorTimeout := none
  responderTimeout := none
  announcedAt := none
  takerEthAccount := none
  takerQrlAccount := none
  lockSentAt := none
  claimSentAt := none
  sponsorSentAt := none
  refundSentAt := none
  withdrawSentAt := none
  pushSentAt := none
  withdrawAttempts := none
  pushAttempts := none
  withdrawFirstRejectedAt := none
  pushFirstRejectedAt := none
  createdAt := 1000000

/-- The maker records its order and sends it, and somebody reads the book at `t`. -/
def quoteUntil (t : SafeInt) : List (CoverageInput Unit) :=
  [.upsert roomClock roomRecord false,
    .call (Book.arrival roomClock (Book.orderEvent roomSigned.order.record roomSigned.auth)),
      .call (Book.readAt t)]

theorem step_call (E : Book.Crypto) (w : Coverage Unit) (i : Book.Step) :
    (w.step E (.call i)).book = w.book.step E i := rfl

theorem room_row : ∃ o s, (Coverage.step roomCrypto
      (Coverage.step roomCrypto start (.upsert roomClock roomRecord false))
      (.call (Book.arrival roomClock
        (Book.orderEvent roomSigned.order.record roomSigned.auth)))).book = ⟨s, roomClock⟩ ∧
    s.orders = [o] ∧ o.status = .open ∧ o.makerAuth = some Book.plainAuth ∧ RowOf roomRecord o := by
  obtain ⟨o, hdraft⟩ := Book.room_draft
  have hopen : Book.plainOrder.Unrestricted := fun _ => ⟨rfl, rfl⟩
  have hrow := Book.draftOrder_signed (v := roomSigned) rfl Book.room_orderProof hopen hdraft
  have himport := Book.import_new (s := Book.World.start.store) Book.room_orderProof hopen rfl
    (by decide : Book.federationSourceRe "peer" = true) (fun _ h => by cases h) hdraft
  obtain ⟨hstatus, -, -, -⟩ := Book.draftOrder_prelock hdraft
  have hbook : (Coverage.step roomCrypto (start : Coverage Unit)
    (.upsert roomClock roomRecord false)).book =
      ⟨Book.World.start.store, roomClock⟩ := rfl
  refine ⟨o, _, ?_, himport, hstatus, hrow.portable.auth, hrow.portable.uses, ?_, ?_⟩
  · rw [step_call, hbook]
    exact Book.step_arrival (Nat.le_refl _) _
  · rw [hrow.portable.id]
    rfl
  · refine ⟨_, rfl, ?_, Book.plainAuth, ?_, rfl⟩
    · rw [hrow.portable.digest, Book.digest_roomSigned]
    · rw [hrow.portable.auth]
      exact Option.mem_some_self _

theorem honest_quoteUntil (t : SafeInt) :
    Along (Coverage.step roomCrypto) Honest start (quoteUntil t) := by
  refine ⟨?_, ?_, ?_, trivial⟩
  · exact fun o ho => absurd ho List.not_mem_nil
  · exact fun o ho => absurd ho List.not_mem_nil
  · intro o ho hown fill hcall
    cases hcall

theorem room_admission :
    ((start : Coverage Unit).memory.upsert roomRecord roomClock.val).admission roomRecord.id =
      some 1173101 := by
  have hadmission :=
    StateFile.admission_rememberAdmission (f := ⟨StateFile.setOrder [] roomRecord, [], []⟩)
    List.nodup_nil roomRecord roomClock.val roomRecord.id
  rw [show orderRetentionUntil roomRecord roomClock.val = some 1173101 from rfl] at hadmission
  dsimp only at hadmission
  rw [if_pos rfl] at hadmission
  exact hadmission

theorem seconds_safe : 1172800 ≤ maxSafeInteger ∧ 1172801 ≤ maxSafeInteger ∧
    1173101 ≤ maxSafeInteger := by decide

theorem swept_room {o : Book.Order} (hopen : o.status = .open)
    (hauth : o.makerAuth = some Book.plainAuth) {t : SafeInt}
    (ht : 1172800 ≤ t.val) : Book.sweepOrder t o =
      some { Book.dropStaleIntents t o with status := .cancelled, updatedAt := t } := by
  rw [Book.sweepOrder_eq, if_pos]
  unfold Book.expires
  rw [hopen, hauth]
  exact decide_eq_true (Or.inl ⟨rfl, Or.inr ⟨Book.plainAuth, rfl, ht⟩⟩)

theorem kept_room {o : Book.Order} (hauth : o.makerAuth = some Book.plainAuth) {u t : SafeInt}
    (ht : t.val - u.val ≤ Book.signedTerminalGraceS) : (Book.sweepOrder t
      { Book.dropStaleIntents u o with status := .cancelled, updatedAt := u }).isSome = true := by
  have hexpires :
    Book.expires t { Book.dropStaleIntents u o with status := .cancelled, updatedAt := u } =
      false := by
    unfold Book.expires
    simp
  have hremovable :
    Book.removable t { Book.dropStaleIntents u o with status := .cancelled, updatedAt := u } =
      false := by
    unfold Book.removable Book.dropStaleIntents
    dsimp only
    rw [hauth]
    exact decide_eq_false fun h => absurd h.2 (Nat.not_lt.mpr ht)
  rw [Book.sweepOrder_eq, hexpires, hremovable]
  rfl

/-- A book that is read a second after the quote expired keeps the row five minutes from there, past
the end of what the maker's file admits. -/
theorem quoteUntil_late :
    let is := quoteUntil ⟨1172801, seconds_safe.2.1⟩ ++ [.wait ⟨1173101, seconds_safe.2.2⟩]
    Along (Coverage.step roomCrypto) Honest start is ∧
    ¬ (run (Coverage.step roomCrypto) start is).Accounts := by
  intro is
  refine ⟨(along_append _ _ _ _).mpr ⟨honest_quoteUntil _, trivial, trivial⟩, ?_⟩
  intro haccounts
  obtain ⟨o, s, hbook, hs, hopen, hauth, hrow⟩ := room_row
  set w := Coverage.step roomCrypto
    (Coverage.step roomCrypto start (.upsert roomClock roomRecord false))
    (.call (Book.arrival roomClock (Book.orderEvent roomSigned.order.record roomSigned.auth))) with
      hw
  set late : SafeInt := ⟨1172801, seconds_safe.2.1⟩
  have hlate : (w.book.timed (Book.readAt late)).now = late := by
    rw [hbook]
    rfl
  -- The book first sweeps the row a second behind its expiry, and keeps it from then on.
  have hswept := swept_room hopen hauth (by decide : 1172800 ≤ late.val)
  have hrows : (run (Coverage.step roomCrypto) start is).book.store.orders =
      [{ Book.dropStaleIntents late o with status := .cancelled, updatedAt := late }] := by
    show (w.book.step roomCrypto (Book.readAt late)).store.orders = _
    rw [Book.step_listOpen rfl, hlate, hbook, hs]
    unfold Book.sweepAll
    rw [List.filterMap_cons, hswept]
    rfl
  have hclock :
    (run (Coverage.step roomCrypto) start is).book.clock = ⟨1173101, seconds_safe.2.2⟩ := by
    show max (w.book.timed (Book.readAt late)).now _ = _
    rw [hlate]
    rfl
  have hown : (run (Coverage.step roomCrypto) start is).Own
      { Book.dropStaleIntents late o with status := .cancelled, updatedAt := late } :=
    ⟨⟨roomClock.val, roomRecord⟩, List.mem_singleton_self _,
      (Book.sweepOrder_uses hswept).trans hrow.portable,
      hrow.id, hrow.order⟩
  have hkept : (Book.sweepOrder (run (Coverage.step roomCrypto) start is).book.clock
      { Book.dropStaleIntents late o with status := .cancelled, updatedAt := late }).isSome =
        true := by
    rw [hclock]
    exact kept_room hauth (by decide)
  obtain ⟨u, hu, hlt⟩ :=
    haccounts.admitted _ (by rw [hrows]; exact List.mem_singleton_self _) hown hkept
  have hadmitted :
    (run (Coverage.step roomCrypto) start is).memory.admission o.id.val = some 1173101 := by
    rw [hrow.id]
    exact room_admission
  rw [show (run (Coverage.step roomCrypto) start is).clock =
    1173101 from congrArg (fun c : SafeInt => (c.val : Int)) hclock]
    at hlt
  have hsame := hadmitted.symm.trans hu
  cases hsame
  exact absurd hlt (by decide)

/-- The record once the maker has signed its cancel. -/
def cancelRecord : ManagedOrder Unit Book.Bytes32 := roomRecord.withCancel {
  cancel := ⟨Book.digitNonce 15, 1⟩
  auth := {
    scheme := "ml-dsa-87"
    issuedAt := 1172000
    expiresAt := 1172800
    nonce := Book.plainAuth.nonce
    signature := Book.plainAuth.signature.val
    publicKey := Book.plainAuth.publicKey.val
    descriptor := Book.plainAuth.descriptor.val } }

theorem restart_safe : 1172000 ≤ maxSafeInteger ∧ 1172850 ≤ maxSafeInteger ∧
    1173150 ≤ maxSafeInteger := by decide

def cancelledAt : SafeInt := ⟨1172000, restart_safe.1⟩

def restartedAt : SafeInt := ⟨1172850, restart_safe.2.1⟩

theorem clocks :
    max roomClock cancelledAt = cancelledAt ∧ max cancelledAt restartedAt = restartedAt ∧
    max restartedAt ⟨1173150, restart_safe.2.2⟩ = ⟨1173150, restart_safe.2.2⟩ := by decide

/-- The maker cancels its quote and stops before the book hears of it. It is back fifty seconds
after the expiry, the book is read in the same second, and five minutes go by. -/
def quoteCancelled : List (CoverageInput Unit) :=
  [.upsert roomClock roomRecord false,
    .call (Book.arrival roomClock (Book.orderEvent roomSigned.order.record roomSigned.auth)),
    .upsert cancelledAt cancelRecord false, .restart restartedAt, .call (Book.readAt restartedAt),
    .wait ⟨1173150, restart_safe.2.2⟩]

theorem rowOf_cancelRecord {o : Book.Order} (h : RowOf roomRecord o) : RowOf cancelRecord o :=
  ⟨h.portable, h.id, by
    obtain ⟨p, hp, hdigest, a, ha, hexpiry⟩ := h.order
    cases hp
    exact ⟨_, rfl, hdigest, a, ha, hexpiry⟩⟩

theorem recorded_restart (w : Coverage Unit) (h : ⟨roomClock.val, roomRecord⟩ ∈ w.recorded) :
    let cancelled := w.step roomCrypto (.upsert cancelledAt cancelRecord false)
    let restarted := cancelled.step roomCrypto (.restart restartedAt)
    ⟨roomClock.val, roomRecord⟩ ∈ cancelled.recorded ∧
    ⟨roomClock.val, roomRecord⟩ ∈ restarted.recorded ∧
      ⟨restarted.clock, cancelRecord⟩ ∈ restarted.recorded := by
  intro cancelled restarted
  have hdisk : cancelRecord ∈ cancelled.disk.orders := by
    have hget : cancelled.disk.get cancelRecord.id = some cancelRecord := by
      show ((w.memory.upsert cancelRecord _).envelope _).get _ = _
      rw [StateFile.get_envelope, StateFile.get_upsert, if_pos rfl]
    exact StateFile.get_mem hget
  have hcancelled : ⟨roomClock.val, roomRecord⟩ ∈ cancelled.recorded := List.mem_cons_of_mem _ h
  exact ⟨hcancelled, List.mem_append_right _ hcancelled,
    List.mem_append_left _ (List.mem_map_of_mem hdisk)⟩

theorem own_of_recorded (E : Book.Crypto) {w : Coverage A} {r : Written A} {o : Book.Order}
    (hr : r ∈ w.recorded)
    (hrow : RowOf r.order o) (i : Book.Step) (now : SafeInt) :
    ((w.step E (.call i)).step E (.wait now)).Own o :=
  ⟨r, hr, hrow⟩

theorem not_asked_readAt {E : Book.Crypto} {w : Book.World} {t : SafeInt} {body : Record}
    {makerIp : String}
    {origin : Book.Origin} : ¬ Book.Asked E (w.timed (Book.readAt t)) body makerIp origin := by
  intro hasked
  cases hasked with
  | legacy _ _ h => cases h
  | signed _ _ _ _ h => cases h
  | federated _ _ _ h => cases h

theorem step_file_orders (E : Book.Crypto) (w : Coverage A) {i : CoverageInput A}
    (h : ∀ j, i ≠ .call j) :
    (w.step E i).book.store = w.book.store := by
  cases i with
  | call j => exact absurd rfl (h j)
  | upsert now order fails => cases fails <;> rfl
  | delete now id fails => cases fails <;> rfl
  | _ => rfl

/-- A quote whose cancel the maker was loaded with in the second in which the book is read is
admitted for as long as the book keeps it, past the five minutes that follow its signed expiry. -/
theorem book_rows_admitted_quote :
    let w := run (Coverage.step roomCrypto) start quoteCancelled
    (∃ o ∈ w.book.store.orders, w.Own o ∧ (Book.sweepOrder w.book.clock o).isSome = true) ∧
    w.Accounts := by
  obtain ⟨o, s, hbook, hs, hopen, hauth, hrow⟩ := room_row
  set sent := Coverage.step roomCrypto
    (Coverage.step roomCrypto start (.upsert roomClock roomRecord false))
    (.call (Book.arrival roomClock (Book.orderEvent roomSigned.order.record roomSigned.auth)))
  have hsent : ⟨roomClock.val, roomRecord⟩ ∈ sent.recorded := List.mem_singleton_self _
  obtain ⟨hcancelled, hrestarted, hloaded⟩ := recorded_restart sent hsent
  set cancelled := sent.step roomCrypto (.upsert cancelledAt cancelRecord false) with hcancelled'
  set restarted := cancelled.step roomCrypto (.restart restartedAt) with hrestarted'
  have hsentRows : sent.book.store.orders = [o] := by
    rw [hbook, hs]
  have hcancelledRows : cancelled.book.store.orders = [o] := by
    rw [hcancelled', step_file_orders roomCrypto sent (fun j hj => by cases hj), hsentRows]
  have hrows : restarted.book.store.orders = [o] := by
    rw [hrestarted', step_file_orders roomCrypto cancelled (fun j hj => by cases hj),
      hcancelledRows]
  have hcancelledClock : cancelled.book.clock = cancelledAt := by
    show max sent.book.clock cancelledAt = cancelledAt
    rw [hbook, clocks.1]
  have hclock : restarted.book.clock = restartedAt := by
    show max cancelled.book.clock restartedAt = restartedAt
    rw [hcancelledClock, clocks.2.1]
  have hnow : (restarted.book.timed (Book.readAt restartedAt)).now = restartedAt := by
    show max restarted.book.clock restartedAt = restartedAt
    rw [hclock, max_self]
  have hswept := swept_room (t := restartedAt) hopen hauth (by decide)
  set kept : Book.Order :=
    { Book.dropStaleIntents restartedAt o with status := .cancelled, updatedAt := restartedAt }
      with hkept
  have hread : (restarted.step roomCrypto (.call (Book.readAt restartedAt))).book.store.orders =
    [kept] := by
    show (restarted.book.step roomCrypto (Book.readAt restartedAt)).store.orders = _
    rw [Book.step_listOpen rfl, hnow, hrows]
    unfold Book.sweepAll
    rw [List.filterMap_cons, hswept]
    rfl
  have hwait : (max (restarted.book.timed (Book.readAt restartedAt)).now
      ⟨1173150, restart_safe.2.2⟩ : SafeInt) = ⟨1173150, restart_safe.2.2⟩ := by
    rw [hnow, clocks.2.2]
  have hown : RowOf roomRecord kept :=
    ⟨(Book.sweepOrder_uses hswept).trans hrow.portable, hrow.id, hrow.order⟩
  -- up to the signed expiry a row of the quote stands by its first record
  have hstands : ∀ (w : Coverage Unit), ⟨roomClock.val, roomRecord⟩ ∈ w.recorded → ∀ t :
    Int, t ≤ 1172800 →
      w.Stands o t := fun w hw t ht => ⟨_, hw, hrow, _, rfl, Or.inl ht⟩
  refine ⟨⟨kept, ?_, own_of_recorded roomCrypto hrestarted hown _ _, ?_⟩, ?_⟩
  · show kept ∈ (restarted.step roomCrypto (.call (Book.readAt restartedAt))).book.store.orders
    rw [hread]
    exact List.mem_singleton_self kept
  · show (Book.sweepOrder
      (max (restarted.book.timed (Book.readAt restartedAt)).now _) kept).isSome = true
    rw [hwait]
    exact kept_room hauth (by decide)
  · refine book_rows_admitted roomCrypto _ ⟨?_, ?_, ?_, trivial, ?_, trivial, trivial⟩
      ⟨?_, ⟨?_, ?_⟩, ?_, ?_, ⟨?_, ?_⟩, ?_, trivial⟩
    · exact fun o ho => absurd ho List.not_mem_nil
    · exact fun o ho => absurd ho List.not_mem_nil
    · intro o' ho' _
      have hsame : o' = o := List.mem_singleton.mp (hsentRows ▸ ho')
      exact ⟨_, hsent, hsame ▸ hrow⟩
    · intro o' _ _ fill hcall
      cases hcall
    · exact fun o ho => absurd ho List.not_mem_nil
    · exact fun o ho => absurd ho List.not_mem_nil
    · intro body makerIp origin v hasked hverified r hr p hp hdigest
      obtain rfl := List.mem_singleton.mp hr
      cases hp
      decide
    · intro o' ho' _ _
      have hsame : o' = o := List.mem_singleton.mp (hsentRows ▸ ho')
      rw [hsame]
      refine hstands sent hsent _ ?_
      show (cancelled.book.clock.val : Int) - SIGNED_ORDER_RETENTION_GRACE_S ≤ 1172800
      rw [hcancelledClock]
      decide
    · intro o' ho' _ _
      have hsame : o' = o := List.mem_singleton.mp (hcancelledRows ▸ ho')
      rw [hsame]
      refine hstands cancelled hcancelled _ ?_
      show (restarted.book.clock.val : Int) - SIGNED_ORDER_RETENTION_GRACE_S ≤ 1172800
      rw [hclock]
      decide
    · intro o' ho' _ _
      have hsame : o' = o := List.mem_singleton.mp (hrows ▸ ho')
      rw [hsame]
      -- the record that the maker was loaded with carries the cancel
      refine ⟨_, hloaded, rowOf_cancelRecord hrow, _, rfl, Or.inr (Or.inl ⟨rfl, ?_⟩)⟩
      show ((restarted.book.timed (Book.readAt restartedAt)).now.val : Int) ≤
        (restarted.book.clock.val : Int)
      rw [hnow, hclock]
    · intro body makerIp origin v hasked
      exact absurd hasked not_asked_readAt
    · intro o' ho' _ hstatus
      have hsame : o' = kept := List.mem_singleton.mp (hread ▸ ho')
      rw [hsame] at hstatus
      cases hstatus

end Sample

end Coverage

end QuantaSwap.Maker.Daemon
