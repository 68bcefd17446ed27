import QuantaSwap.Maker.Record

/-!
# The maker's state file

`StateFile` of `marketmaker/src/state.ts`: three maps in the order their keys were first set, of
which every write stores the whole. What a failed write leaves in memory is written out too.
-/

set_option autoImplicit false

namespace QuantaSwap.Maker.Daemon

def SIGNED_ORDER_RETENTION_GRACE_S : Int := 5 * 60

def FILLED_ORDER_LINGER_S : Int := 24 * 3600

variable {A B : Type}

/-- How long an order counts against the bounds of the book. -/
def orderRetentionUntil (m : ManagedOrder A B) (now : Int) : Option Int :=
  m.protocol.map fun p =>
    let signed := p.orderAuth.expiresAt + SIGNED_ORDER_RETENTION_GRACE_S + 1
    let cancelled :=
      if p.cancelProof.isSome then max signed (now + SIGNED_ORDER_RETENTION_GRACE_S + 1) else signed
    match p.fillProof with
    | none => cancelled
    | some fill => max cancelled (fill.fill.initiatorTimeout + FILLED_ORDER_LINGER_S + 1)

structure StateFile (A B : Type) where
  orders : List (ManagedOrder A B)
  stranded : List (StrandedCredit A B)
  admissions : List (String × Int)
  deriving DecidableEq

namespace StateFile

variable (f : StateFile A B)

def get (id : String) : Option (ManagedOrder A B) := f.orders.find? fun m => m.id = id

/-- `Map.set`: a key that is there keeps its place. -/
def setOrder (orders : List (ManagedOrder A B)) (m : ManagedOrder A B) : List (ManagedOrder A B) :=
  if orders.any fun n => n.id = m.id then orders.map fun n => if n.id = m.id then m else n
  else orders ++ [m]

def deleteOrder (orders : List (ManagedOrder A B)) (id : String) : List (ManagedOrder A B) :=
  orders.filter fun n => n.id ≠ id

def admission (id : String) : Option Int := f.admissions.lookup id

def setAdmission (admissions : List (String × Int)) (id : String) (until' : Int) :
    List (String × Int) :=
  if admissions.any fun e => e.1 = id then
    admissions.map fun e => if e.1 = id then (id, until') else e
  else admissions ++ [(id, until')]

def rememberAdmission (m : ManagedOrder A B) (now : Int) : StateFile A B :=
  let live := f.admissions.filter fun e => now < e.2
  match orderRetentionUntil m now with
  | none => { f with admissions := live }
  | some retain =>
    { f with admissions := setAdmission live m.id (max ((live.lookup m.id).getD 0) retain) }

/-- What the failed write of `upsert` leaves in memory. -/
def restoreAdmission (id : String) (previous : Option Int) : StateFile A B :=
  match previous with
  | none => { f with admissions := f.admissions.filter fun e => e.1 ≠ id }
  | some until' => { f with admissions := setAdmission f.admissions id until' }

def upsert (m : ManagedOrder A B) (now : Int) : StateFile A B :=
  { f with orders := setOrder f.orders m }.rememberAdmission m now

/-- After a failed `upsert`: the order and its admission are put back. -/
def upsertFailed (m : ManagedOrder A B) (now : Int) : StateFile A B :=
  (f.rememberAdmission m now).restoreAdmission m.id (f.admission m.id)

def delete (id : String) : StateFile A B := { f with orders := deleteOrder f.orders id }

/-- After a failed `delete`: the order is put back, behind the others. -/
def deleteFailed (id : String) : StateFile A B :=
  match f.get id with
  | none => f
  | some m => { f with orders := deleteOrder f.orders id ++ [m] }

section

variable [DecidableEq A]

def recordStrandedCredit (e : StrandedCredit A B) : StateFile A B :=
  if f.stranded.any fun s => s.key = e.key then f else { f with stranded := f.stranded ++ [e] }

def clearStrandedCredit (key : LegKey × A × A) : StateFile A B :=
  { f with stranded := f.stranded.filter fun s => s.key ≠ key }

end

def retainedAdmissionCount (now : Int) : Nat := (f.admissions.filter fun e => now < e.2).length

/-- What `persist` writes. -/
def envelope (now : Int) : StateFile A B :=
  { f with admissions := f.admissions.filter fun e => now < e.2 }

/-- The maps as they are read back from a file. -/
def hydrate (now : Int) : StateFile A B :=
  f.orders.foldl (fun g m => g.rememberAdmission m now) f

/-! ## One order -/

variable {f}

theorem get_id {id : String} {m : ManagedOrder A B} (h : f.get id = some m) : m.id = id := by
  simpa using List.find?_some h

theorem get_mem {id : String} {m : ManagedOrder A B} (h : f.get id = some m) : m ∈ f.orders :=
  List.mem_of_find?_eq_some h

theorem find_setOrder (orders : List (ManagedOrder A B)) (m : ManagedOrder A B) (id : String) :
    (setOrder orders m).find? (fun n => n.id = id) =
      if m.id = id then some m else orders.find? fun n => n.id = id := by
  unfold setOrder
  split
  · rename_i hany
    induction orders with
    | nil => simp at hany
    | cons n orders ih =>
      simp only [List.map_cons, List.find?_cons]
      by_cases hn : n.id = m.id
      · by_cases hm : m.id = id
        · simp [hn, hm]
        · simp only [hn, if_true, hm, decide_false, if_false]
          by_cases hrest : orders.any fun n => n.id = m.id
          · simpa [hm] using ih hrest
          · have : orders.map (fun n => if n.id = m.id then m else n) = orders := by
              conv_rhs => rw [← List.map_id orders]
              refine List.map_congr_left fun x hx => ?_
              have : x.id ≠ m.id := fun h => hrest (by simpa using ⟨x, hx, h⟩)
              simp [this]
            rw [this]
      · have hrest : (orders.any fun n => n.id = m.id) = true := by
          simpa [hn] using hany
        simp only [hn, if_false]
        by_cases hm : m.id = id
        · have : ¬ n.id = id := fun h => hn (h.trans hm.symm)
          simpa [this, hm] using ih hrest
        · split
          · simp_all
          · simpa [hm] using ih hrest
  · rename_i hany
    by_cases hm : m.id = id
    · have : orders.find? (fun n => decide (n.id = id)) = none := by
        rw [List.find?_eq_none]
        intro x hx h
        exact hany (by simpa using ⟨x, hx, (by simpa using h : x.id = id).trans hm.symm⟩)
      simp [List.find?_append, this, hm]
    · simp [List.find?_append, hm]

theorem find_deleteOrder (orders : List (ManagedOrder A B)) (id id' : String) :
    (deleteOrder orders id).find? (fun n => n.id = id') =
      if id = id' then none else orders.find? fun n => n.id = id' := by
  unfold deleteOrder
  rw [List.find?_filter]
  split
  · rename_i h
    rw [List.find?_eq_none]
    intro x _
    simp [h]
  · rename_i h
    congr 1
    funext x
    by_cases hx : x.id = id'
    · simp [hx, Ne.symm h]
    · simp [hx]

@[simp] theorem rememberAdmission_orders (m : ManagedOrder A B) (now : Int) :
    (f.rememberAdmission m now).orders = f.orders := by
  unfold rememberAdmission
  dsimp only
  split <;> rfl

@[simp] theorem restoreAdmission_orders (id : String) (previous : Option Int) :
    (f.restoreAdmission id previous).orders = f.orders := by
  cases previous <;> rfl

@[simp] theorem rememberAdmission_stranded (m : ManagedOrder A B) (now : Int) :
    (f.rememberAdmission m now).stranded = f.stranded := by
  unfold rememberAdmission
  dsimp only
  split <;> rfl

@[simp] theorem restoreAdmission_stranded (id : String) (previous : Option Int) :
    (f.restoreAdmission id previous).stranded = f.stranded := by
  cases previous <;> rfl

@[simp] theorem get_upsert (m : ManagedOrder A B) (now : Int) (id : String) :
    (f.upsert m now).get id = if m.id = id then some m else f.get id := by
  unfold get upsert
  rw [rememberAdmission_orders]
  exact find_setOrder _ _ _

@[simp] theorem get_upsertFailed (m : ManagedOrder A B) (now : Int) (id : String) :
    (f.upsertFailed m now).get id = f.get id := by
  unfold get upsertFailed
  rw [restoreAdmission_orders, rememberAdmission_orders]

@[simp] theorem get_delete (id id' : String) :
    (f.delete id).get id' = if id = id' then none else f.get id' :=
  find_deleteOrder _ _ _

@[simp] theorem get_deleteFailed (id id' : String) :
    (f.deleteFailed id).get id' = f.get id' := by
  unfold deleteFailed
  split
  · rfl
  · rename_i m hm
    unfold get
    dsimp only
    rw [List.find?_append, find_deleteOrder]
    split
    · rename_i h
      subst h
      rw [Option.none_or, List.find?_cons, get_id hm]
      simp only [decide_true]
      exact hm.symm
    · rename_i h
      have : m.id ≠ id' := fun he => h ((get_id hm).symm.trans he)
      simp [this]

/-! ## All orders -/

theorem ids_setOrder {orders : List (ManagedOrder A B)} (h : (orders.map (·.id)).Nodup)
    (m : ManagedOrder A B) : ((setOrder orders m).map (·.id)).Nodup := by
  unfold setOrder
  split
  · have : (orders.map fun n => if n.id = m.id then m else n).map (·.id) = orders.map (·.id) := by
      rw [List.map_map]
      refine List.map_congr_left fun n _ => ?_
      by_cases hn : n.id = m.id <;> simp [hn]
    rw [this]
    exact h
  · rename_i hany
    rw [List.map_append, List.nodup_append]
    refine ⟨h, by simp, ?_⟩
    intro a ha b hb hab
    obtain ⟨n, hn, rfl⟩ := List.mem_map.mp ha
    simp only [List.map_cons, List.map_nil, List.mem_singleton] at hb
    exact hany (by simpa using ⟨n, hn, hab.trans hb⟩)

theorem ids_deleteOrder {orders : List (ManagedOrder A B)} (h : (orders.map (·.id)).Nodup)
    (id : String) : ((deleteOrder orders id).map (·.id)).Nodup :=
  h.sublist (List.filter_sublist.map _)

theorem ids_deleteFailed (h : (f.orders.map (·.id)).Nodup) (id : String) :
    ((f.deleteFailed id).orders.map (·.id)).Nodup := by
  unfold deleteFailed
  split
  · exact h
  · rename_i m hm
    rw [List.map_append, List.nodup_append]
    refine ⟨ids_deleteOrder h id, by simp, ?_⟩
    intro a ha b hb hab
    obtain ⟨n, hn, rfl⟩ := List.mem_map.mp ha
    simp only [List.map_cons, List.map_nil, List.mem_singleton] at hb
    unfold deleteOrder at hn
    simp only [List.mem_filter, decide_eq_true_eq] at hn
    exact hn.2 (hab.trans (hb.trans (get_id hm)))

theorem get_of_mem (h : (f.orders.map (·.id)).Nodup) {m : ManagedOrder A B} (hm : m ∈ f.orders) :
    f.get m.id = some m := by
  unfold get
  generalize f.orders = orders at h hm
  induction orders with
  | nil => cases hm
  | cons n orders ih =>
    rw [List.map_cons, List.nodup_cons] at h
    rw [List.find?_cons]
    rcases List.mem_cons.mp hm with rfl | hm
    · simp
    · have hne : n.id ≠ m.id := fun he => h.1 (List.mem_map.mpr ⟨m, hm, he.symm⟩)
      simp only [hne, decide_false]
      exact ih h.2 hm

@[simp] theorem get_envelope (now : Int) (id : String) : (f.envelope now).get id = f.get id := rfl

@[simp] theorem hydrate_orders (now : Int) : (f.hydrate now).orders = f.orders := by
  unfold hydrate
  suffices ∀ (ms : List (ManagedOrder A B)) (g : StateFile A B),
      (ms.foldl (fun g m => g.rememberAdmission m now) g).orders = g.orders from this _ _
  intro ms
  induction ms with
  | nil => exact fun _ => rfl
  | cons m ms ih => exact fun g => (ih _).trans (rememberAdmission_orders _ _)

theorem hydrate_stranded (now : Int) : (f.hydrate now).stranded = f.stranded := by
  unfold hydrate
  suffices ∀ (ms : List (ManagedOrder A B)) (g : StateFile A B),
      (ms.foldl (fun g m => g.rememberAdmission m now) g).stranded = g.stranded from this _ _
  intro ms
  induction ms with
  | nil => exact fun _ => rfl
  | cons m ms ih => exact fun g => (ih _).trans (rememberAdmission_stranded _ _)

@[simp] theorem get_hydrate (now : Int) (id : String) : (f.hydrate now).get id = f.get id := by
  unfold get
  rw [hydrate_orders]

@[simp] theorem get_recordStrandedCredit [DecidableEq A] (e : StrandedCredit A B) (id : String) :
    (f.recordStrandedCredit e).get id = f.get id := by
  unfold recordStrandedCredit
  split <;> rfl

@[simp] theorem get_clearStrandedCredit [DecidableEq A] (key : LegKey × A × A) (id : String) :
    (f.clearStrandedCredit key).get id = f.get id := rfl

end StateFile

end QuantaSwap.Maker.Daemon
