import QuantaSwap.Lib.Keyed
import QuantaSwap.Maker.State

/-!
# The admissions of the state file

What the map of admissions says of one order after the operations that touch it. An id stands in
the map once.
-/

set_option autoImplicit false

namespace QuantaSwap.Maker.Daemon.StateFile

open Lib

/-! ## Entries by their id -/

theorem setAdmission_eq_put {admissions : List (String × Int)}
    (h : (admissions.map Prod.fst).Nodup) (id : String) (until' : Int) :
    setAdmission admissions id until' = Keyed.put id until' admissions := by
  induction admissions with
  | nil => rfl
  | cons e admissions ih =>
    rw [List.map_cons, List.nodup_cons] at h
    have ih := ih h.2
    unfold setAdmission at ih ⊢
    unfold Keyed.put
    by_cases he : e.1 = id
    · have hrest : (admissions.map fun e => if e.1 = id then (id, until') else e) = admissions := by
        refine (List.map_congr_left fun e' he' => ?_).trans (List.map_id _)
        have hne : e'.1 ≠ id := fun h' => h.1 (List.mem_map.mpr ⟨e', he', h'.trans he.symm⟩)
        rw [if_neg hne, id_eq]
      simp [he, hrest]
    · rw [if_neg he, ← ih]
      by_cases hany : admissions.any fun e => e.1 = id
      · simp [he, hany]
      · simp [he, hany]

theorem lookup_filter {κ α : Type*} [DecidableEq κ] {entries : List (κ × α)}
    (h : (entries.map Prod.fst).Nodup) (p : κ × α → Bool) (k : κ) :
    (entries.filter p).lookup k = (entries.lookup k).filter fun v => p (k, v) := by
  induction entries with
  | nil => rfl
  | cons e entries ih =>
    rw [List.map_cons, List.nodup_cons] at h
    obtain ⟨j, v⟩ := e
    rw [List.filter_cons, Keyed.lookup_cons_if]
    by_cases hj : k = j
    · subst hj
      have hnone : entries.lookup k = none := by
        rw [List.lookup_eq_none_iff]
        intro e' he'
        rw [bne_iff_ne]
        rintro rfl
        exact h.1 (List.mem_map.mpr ⟨e', he', rfl⟩)
      rw [if_pos rfl]
      by_cases hp : p (k, v) = true
      · rw [if_pos hp, Keyed.lookup_cons_if, if_pos rfl]
        exact (Option.filter_some_pos (p := fun v => p (k, v)) hp).symm
      · rw [if_neg hp, ih h.2, hnone]
        have hfalse : p (k, v) = false := Bool.eq_false_iff.mpr hp
        exact (Option.filter_some_neg (p := fun v => p (k, v)) hfalse).symm
    · rw [if_neg hj]
      split
      · rw [Keyed.lookup_cons_if, if_neg hj]
        exact ih h.2
      · exact ih h.2

variable {A B : Type} {f : StateFile A B}

/-- No id is admitted twice. -/
def Once (f : StateFile A B) : Prop := (f.admissions.map Prod.fst).Nodup

theorem once_filter {admissions : List (String × Int)} (h : (admissions.map Prod.fst).Nodup)
    (p : String × Int → Bool) : ((admissions.filter p).map Prod.fst).Nodup :=
  h.sublist (List.filter_sublist.map Prod.fst)

theorem once_rememberAdmission (h : f.Once) (m : ManagedOrder A B) (now : Int) :
    (f.rememberAdmission m now).Once := by
  unfold rememberAdmission Once
  dsimp only
  have hlive := once_filter h fun e => now < e.2
  split
  · exact hlive
  · rw [setAdmission_eq_put hlive]
    exact Keyed.nodup_put hlive

theorem once_restoreAdmission (h : f.Once) (id : String) (previous : Option Int) :
    (f.restoreAdmission id previous).Once := by
  cases previous with
  | none => exact once_filter h _
  | some until' =>
    show ((setAdmission f.admissions id until').map Prod.fst).Nodup
    rw [setAdmission_eq_put h]
    exact Keyed.nodup_put h

theorem admission_rememberAdmission (h : f.Once) (m : ManagedOrder A B) (now : Int) (id : String) :
    (f.rememberAdmission m now).admission id =
      match orderRetentionUntil m now with
      | none => (f.admission id).filter fun u => now < u
      | some retain =>
        if id = m.id then some (max (((f.admission id).filter fun u => now < u).getD 0) retain)
        else (f.admission id).filter fun u => now < u := by
  have hlive := once_filter h fun e => now < e.2
  have hlookup : ∀ k, (f.admissions.filter fun e => now < e.2).lookup k =
      (f.admission k).filter fun u => now < u := lookup_filter h _
  unfold rememberAdmission
  dsimp only
  cases orderRetentionUntil m now with
  | none => exact hlookup id
  | some retain =>
    show (setAdmission _ _ _).lookup id = _
    dsimp only
    rw [setAdmission_eq_put hlive, Keyed.lookup_put, hlookup, hlookup]
    by_cases hid : id = m.id
    · rw [if_pos hid, if_pos hid, hid]
    · rw [if_neg hid, if_neg hid]

theorem admission_upsert (h : f.Once) (m : ManagedOrder A B) (now : Int) (id : String) :
    (f.upsert m now).admission id =
      match orderRetentionUntil m now with
      | none => (f.admission id).filter fun u => now < u
      | some retain =>
        if id = m.id then some (max (((f.admission id).filter fun u => now < u).getD 0) retain)
        else (f.admission id).filter fun u => now < u :=
  admission_rememberAdmission (f := { f with orders := setOrder f.orders m }) h m now id

theorem admission_restoreAdmission (h : f.Once) (id : String) (previous : Option Int) (k : String) :
    (f.restoreAdmission id previous).admission k =
      if k = id then previous else f.admission k := by
  cases previous with
  | none =>
    show (f.admissions.filter fun e => e.1 ≠ id).lookup k = _
    rw [lookup_filter h]
    by_cases hk : k = id
    · rw [if_pos hk]
      cases f.admissions.lookup k <;> simp [Option.filter_some, hk]
    · rw [if_neg hk]
      show _ = f.admissions.lookup k
      cases f.admissions.lookup k <;> simp [Option.filter_some, hk]
  | some until' =>
    show (setAdmission f.admissions id until').lookup k = _
    rw [setAdmission_eq_put h, Keyed.lookup_put]
    rfl

theorem admission_envelope (h : f.Once) (now : Int) (id : String) :
    (f.envelope now).admission id = (f.admission id).filter fun u => now < u :=
  lookup_filter h _ id

/-! ## Admissions that have not run out -/

/-- The time until which an id is admitted, as long as it lies after `t`. -/
def unexpired (f : StateFile A B) (t : Int) (id : String) : Option Int :=
  (f.admission id).filter fun u => t < u

theorem filter_filter {o : Option Int} {t now : Int} (h : now ≤ t) :
    (o.filter fun u => decide (now < u)).filter (fun u => decide (t < u)) =
      o.filter fun u => decide (t < u) := by
  cases o with
  | none => rfl
  | some u =>
    rw [Option.filter_some, Option.filter_some]
    by_cases hn : now < u
    · rw [if_pos (decide_eq_true hn), Option.filter_some]
    · have hu : ¬ t < u := by omega
      rw [if_neg (by simpa using hn), if_neg (by simpa using hu)]
      rfl

theorem unexpired_envelope (h : f.Once) {t now : Int} (hnow : now ≤ t) (id : String) :
    (f.envelope now).unexpired t id = f.unexpired t id := by
  unfold unexpired
  rw [admission_envelope h, filter_filter hnow]

theorem unexpired_upsertFailed (h : f.Once) (m : ManagedOrder A B) {t now : Int} (hnow : now ≤ t)
    (id : String) : (f.upsertFailed m now).unexpired t id = f.unexpired t id := by
  unfold unexpired upsertFailed
  rw [admission_restoreAdmission (once_rememberAdmission h m now)]
  by_cases hid : id = m.id
  · rw [if_pos hid, hid]
  · rw [if_neg hid, admission_rememberAdmission h]
    split
    · exact filter_filter hnow
    · rw [if_neg hid]
      exact filter_filter hnow

theorem once_upsert (h : f.Once) (m : ManagedOrder A B) (now : Int) : (f.upsert m now).Once :=
  once_rememberAdmission (f := { f with orders := setOrder f.orders m }) h m now

theorem once_upsertFailed (h : f.Once) (m : ManagedOrder A B) (now : Int) :
    (f.upsertFailed m now).Once :=
  once_restoreAdmission (once_rememberAdmission h m now) _ _

theorem once_envelope (h : f.Once) (now : Int) : (f.envelope now).Once := once_filter h _

end QuantaSwap.Maker.Daemon.StateFile
