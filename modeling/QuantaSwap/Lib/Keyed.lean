import Mathlib.Algebra.GroupWithZero.Nat
import Mathlib.Data.List.Nodup
import Mathlib.Data.List.Perm.Basic

/-!
# Maps in the order of their keys' arrival

The `Map` of JavaScript: a key that is set again keeps its place, a new one goes to the end. What a
loop gathers under a key is what it makes of the items of that key, in their order.
-/

set_option autoImplicit false

namespace Lib

structure Keyed (κ α : Type*) where
  entries : List (κ × α)
  nodup : (entries.map Prod.fst).Nodup
  deriving DecidableEq

namespace Keyed

section

variable {κ α β : Type*} [DecidableEq κ]

def empty : Keyed κ α := ⟨[], List.nodup_nil⟩

def keys (m : Keyed κ α) : List κ := m.entries.map Prod.fst

def get (m : Keyed κ α) (k : κ) : Option α := m.entries.lookup k

def has (m : Keyed κ α) (k : κ) : Bool := (m.get k).isSome

def put (k : κ) (v : α) : List (κ × α) → List (κ × α)
  | [] => [(k, v)]
  | e :: entries => if e.1 = k then (k, v) :: entries else e :: put k v entries

theorem mem_keys_put {k j : κ} {v : α} {entries : List (κ × α)} :
    j ∈ (put k v entries).map Prod.fst ↔ j = k ∨ j ∈ entries.map Prod.fst := by
  induction entries with
  | nil => simp [put]
  | cons e entries ih =>
    unfold put
    split
    · rename_i heq
      subst heq
      simp
    · rw [List.map_cons, List.mem_cons, ih, List.map_cons, List.mem_cons]
      tauto

theorem mem_put {k : κ} {v : α} {entries : List (κ × α)} {e : κ × α} (h : e ∈ put k v entries) :
    e = (k, v) ∨ e ∈ entries := by
  induction entries with
  | nil => exact Or.inl (List.mem_singleton.mp h)
  | cons e' entries ih =>
    unfold put at h
    split at h
    · exact (List.mem_cons.mp h).imp_right (List.mem_cons_of_mem _)
    · rcases List.mem_cons.mp h with rfl | h
      · exact Or.inr List.mem_cons_self
      · exact (ih h).imp_right (List.mem_cons_of_mem _)

theorem filter_put {k : κ} {v : α} {entries : List (κ × α)} {p : κ × α → Bool}
    (h : ∀ w, p (k, w) = false) : (put k v entries).filter p = entries.filter p := by
  induction entries with
  | nil => simp [put, h]
  | cons e entries ih =>
    unfold put
    split
    · rename_i heq
      have he : p e = false := by
        rw [← h e.2, ← heq]
      rw [List.filter_cons, List.filter_cons, h, he]
      rfl
    · rw [List.filter_cons, List.filter_cons, ih]

theorem nodup_put {k : κ} {v : α} {entries : List (κ × α)} (h : (entries.map Prod.fst).Nodup) :
    ((put k v entries).map Prod.fst).Nodup := by
  induction entries with
  | nil => simp [put]
  | cons e entries ih =>
    rw [List.map_cons, List.nodup_cons] at h
    unfold put
    split
    · rename_i heq
      subst heq
      exact List.nodup_cons.mpr h
    · rename_i hne
      rw [List.map_cons, List.nodup_cons, mem_keys_put]
      exact ⟨fun hmem => hmem.elim hne h.1, ih h.2⟩

def set (m : Keyed κ α) (k : κ) (v : α) : Keyed κ α := ⟨put k v m.entries, nodup_put m.nodup⟩

omit [DecidableEq κ] in
theorem nodup_of_subperm {l entries : List (κ × α)} (h : l.Subperm entries)
    (hn : (entries.map Prod.fst).Nodup) : (l.map Prod.fst).Nodup := by
  obtain ⟨l', hperm, hsub⟩ := h
  exact (hperm.map Prod.fst).nodup_iff.mp ((hsub.map Prod.fst).nodup hn)

/-- The entries, as many of them and in the order as they are left. -/
def rearrange (m : Keyed κ α) (l : List (κ × α)) (h : l.Subperm m.entries) : Keyed κ α :=
  ⟨l, nodup_of_subperm h m.nodup⟩

variable {m : Keyed κ α} {k j : κ} {v : α}

@[simp] theorem get_empty : (empty : Keyed κ α).get k = none := rfl

theorem lookup_cons_if {e : κ × α} {entries : List (κ × α)} :
    (e :: entries).lookup j = if j = e.1 then some e.2 else entries.lookup j := by
  rw [List.lookup_cons]
  by_cases hj : j = e.1
  · rw [beq_iff_eq.mpr hj, if_pos hj]
  · rw [beq_false_of_ne hj, if_neg hj]

theorem lookup_put {entries : List (κ × α)} :
    (put k v entries).lookup j = if j = k then some v else entries.lookup j := by
  induction entries with
  | nil => exact lookup_cons_if
  | cons e entries ih =>
    unfold put
    split
    · rename_i hek
      subst hek
      rw [lookup_cons_if, lookup_cons_if]
      split
      · rfl
      · rfl
    · rename_i hek
      rw [lookup_cons_if, lookup_cons_if, ih]
      by_cases hje : j = e.1
      · rw [if_pos hje, if_neg (fun h => hek (hje.symm.trans h)), if_pos hje]
      · rw [if_neg hje, if_neg hje]

theorem length_filter {entries : List (κ × α)} (h : (entries.map Prod.fst).Nodup) (k : κ)
    (p : κ × α → Bool) :
    (entries.filter p).length = (entries.filter fun e => decide (e.1 ≠ k) && p e).length +
      if (entries.lookup k).any fun v => p (k, v) then 1 else 0 := by
  induction entries with
  | nil => rfl
  | cons e entries ih =>
    rw [List.map_cons, List.nodup_cons] at h
    have ih := ih h.2
    rw [lookup_cons_if, List.filter_cons, List.filter_cons]
    by_cases he : k = e.1
    · subst he
      have hnone : entries.lookup e.1 = none := by
        rw [List.lookup_eq_none_iff]
        intro e' he'
        rw [bne_iff_ne]
        intro hkey
        exact h.1 (List.mem_map.mpr ⟨e', he', hkey.symm⟩)
      rw [hnone] at ih
      by_cases hp : p e = true
      · simp [hp, ih]
      · simp [hp, ih]
    · rw [if_neg he]
      by_cases hp : p e = true
      · simp only [hp, if_true, Ne.symm he, ne_eq, not_false_eq_true, decide_true, Bool.and_self,
          List.length_cons, ih]
        omega
      · simp only [hp, Bool.false_eq_true, if_false, Bool.and_false, ih]

@[simp] theorem get_set : (m.set k v).get j = if j = k then some v else m.get j := lookup_put

theorem mem_entries : (k, v) ∈ m.entries ↔ m.get k = some v := by
  obtain ⟨entries, hnodup⟩ := m
  unfold get
  dsimp only
  induction entries with
  | nil => simp
  | cons e entries ih =>
    rw [List.map_cons, List.nodup_cons] at hnodup
    obtain ⟨j, u⟩ := e
    rw [List.mem_cons, lookup_cons_if, ih hnodup.2]
    by_cases hkj : k = j
    · subst hkj
      have hnone : entries.lookup k ≠ some v := by
        rw [Ne, ← ih hnodup.2]
        intro hmem
        exact hnodup.1 (List.mem_map.mpr ⟨(k, v), hmem, rfl⟩)
      simp [hnone, eq_comm]
    · simp [hkj]

theorem mem_keys : k ∈ m.keys ↔ ∃ v, m.get k = some v := by
  unfold keys
  rw [List.mem_map]
  constructor
  · rintro ⟨⟨j, v⟩, hmem, rfl⟩
    exact ⟨v, mem_entries.mp hmem⟩
  · rintro ⟨v, hget⟩
    exact ⟨(k, v), mem_entries.mpr hget, rfl⟩

theorem get_rearrange {l : List (κ × α)} (h : l.Subperm m.entries) :
    (m.rearrange l h).get k = some v ↔ (k, v) ∈ l := (mem_entries (m := m.rearrange l h)).symm

def erase (m : Keyed κ α) (k : κ) : Keyed κ α :=
  m.rearrange (m.entries.filter fun e => e.1 ≠ k) List.filter_sublist.subperm

@[simp] theorem get_erase : (m.erase k).get j = if j = k then none else m.get j := by
  have hmem : ∀ v, (m.erase k).get j = some v ↔ m.get j = some v ∧ j ≠ k := by
    intro v
    unfold erase
    rw [get_rearrange, List.mem_filter, mem_entries]
    simp
  apply Option.ext
  intro v
  rw [hmem v]
  by_cases hjk : j = k
  · simp [hjk]
  · simp [hjk]

/-! ## The size of a map -/

def total (size : α → ℕ) (m : Keyed κ α) : ℕ := (m.entries.map fun e => size e.2).sum

theorem put_of_notMem {entries : List (κ × α)} (h : k ∉ entries.map Prod.fst) :
    put k v entries = entries ++ [(k, v)] := by
  induction entries with
  | nil => rfl
  | cons e entries ih =>
    rw [List.map_cons, List.mem_cons, not_or] at h
    rw [put, if_neg (Ne.symm h.1), ih h.2, List.cons_append]

theorem entries_set_of_get_eq_none (h : m.get k = none) :
    (m.set k v).entries = m.entries ++ [(k, v)] := by
  apply put_of_notMem
  intro hmem
  obtain ⟨u, hu⟩ := mem_keys.mp hmem
  rw [h] at hu
  cases hu

theorem entries_foldl_set {key : α → κ} {l : List α} (h : (m.keys ++ l.map key).Nodup) :
    (l.foldl (fun m v => m.set (key v) v) m).entries = m.entries ++ l.map fun v => (key v, v) := by
  induction l generalizing m with
  | nil => exact (List.append_nil _).symm
  | cons v l ih =>
    have hfresh : m.get (key v) = none := by
      rw [List.nodup_append] at h
      cases hget : m.get (key v) with
      | none => rfl
      | some u =>
        exact absurd rfl
          (h.2.2 _ (mem_keys.mpr ⟨u, hget⟩) _ (List.mem_map_of_mem List.mem_cons_self))
    have hkeys : (m.set (key v) v).keys = m.keys ++ [key v] := by
      unfold keys
      rw [entries_set_of_get_eq_none hfresh, List.map_append]
      rfl
    rw [List.foldl_cons, ih (by rw [hkeys, List.append_assoc]; exact h),
      entries_set_of_get_eq_none hfresh, List.append_assoc]
    rfl

theorem foldl_set_values {key : α → κ} (h : ∀ e ∈ m.entries, key e.2 = e.1) :
    (m.entries.map Prod.snd).foldl (fun m v => m.set (key v) v) empty = m := by
  have hkeys : (m.entries.map Prod.snd).map key = m.keys := by
    unfold keys
    rw [List.map_map]
    exact List.map_congr_left h
  have hentries := @entries_foldl_set _ _ _ empty key (m.entries.map Prod.snd)
    (by rw [hkeys]; exact m.nodup)
  have hself : (m.entries.map Prod.snd).map (fun v => (key v, v)) = m.entries := by
    rw [List.map_map]
    refine (List.map_congr_left fun e he => ?_).trans (List.map_id m.entries)
    exact Prod.ext (h e he) rfl
  rw [hself] at hentries
  obtain ⟨entries, hnodup⟩ := m
  generalize hm : List.foldl _ _ _ = m' at hentries ⊢
  obtain ⟨entries', hnodup'⟩ := m'
  cases hentries
  rfl

theorem total_set_of_get_eq_none {size : α → ℕ} (h : m.get k = none) :
    (m.set k v).total size = m.total size + size v := by
  unfold total
  rw [entries_set_of_get_eq_none h, List.map_append, List.sum_append]
  rfl

theorem sum_filter_ne {size : α → ℕ} {entries : List (κ × α)}
    (hnodup : (entries.map Prod.fst).Nodup)
    (hmem : (k, v) ∈ entries) :
    (entries.map fun e => size e.2).sum =
      ((entries.filter fun e => e.1 ≠ k).map fun e => size e.2).sum + size v := by
  induction entries with
  | nil => cases hmem
  | cons e entries ih =>
    rw [List.map_cons, List.nodup_cons] at hnodup
    by_cases he : e.1 = k
    · subst he
      have hall : entries.filter (fun e' => e'.1 ≠ e.1) = entries := by
        rw [List.filter_eq_self]
        intro e' he'
        apply decide_eq_true
        intro heq
        exact hnodup.1 (List.mem_map.mpr ⟨e', he', heq⟩)
      have hv : e.2 = v := by
        rcases List.mem_cons.mp hmem with heq | hmem
        · rw [← heq]
        · exact absurd (List.mem_map.mpr ⟨_, hmem, rfl⟩) hnodup.1
      rw [List.filter_cons_of_neg (by simp), hall, List.map_cons, List.sum_cons, hv, Nat.add_comm]
    · have hmem : (k, v) ∈ entries := by
        rcases List.mem_cons.mp hmem with heq | hmem
        · exact absurd (heq ▸ rfl) he
        · exact hmem
      rw [List.filter_cons_of_pos (by simpa using he), List.map_cons, List.sum_cons, List.map_cons,
        List.sum_cons, ih hnodup.2 hmem, Nat.add_assoc]

theorem total_erase {size : α → ℕ} (h : m.get k = some v) :
    m.total size = (m.erase k).total size + size v :=
  sum_filter_ne m.nodup (mem_entries.mpr h)

/-! ## Entries changed or dropped in place -/

omit [DecidableEq κ] in
theorem keys_filterMap_sublist (f : α → Option β) (entries : List (κ × α)) :
    ((entries.filterMap fun e => (f e.2).map (e.1, ·)).map Prod.fst).Sublist
      (entries.map Prod.fst) := by
  induction entries with
  | nil => exact List.Sublist.slnil
  | cons e entries ih =>
    rw [List.filterMap_cons, List.map_cons]
    cases f e.2 with
    | none => exact ih.cons _
    | some v => exact ih.cons_cons _

/-- Each entry as `f` leaves it, in its place. -/
def filterMap (f : α → Option β) (m : Keyed κ α) : Keyed κ β :=
  ⟨m.entries.filterMap fun e => (f e.2).map (e.1, ·),
    (keys_filterMap_sublist f m.entries).nodup m.nodup⟩

@[simp] theorem get_filterMap {f : α → Option β} : (m.filterMap f).get k = (m.get k).bind f := by
  apply Option.ext
  intro w
  rw [← mem_entries, filterMap, List.mem_filterMap, Option.bind_eq_some_iff]
  constructor
  · rintro ⟨⟨j, v⟩, hmem, heq⟩
    obtain ⟨w', hw', heq⟩ := Option.map_eq_some_iff.mp heq
    cases heq
    exact ⟨v, mem_entries.mp hmem, hw'⟩
  · rintro ⟨v, hget, hf⟩
    exact ⟨(k, v), mem_entries.mpr hget, by rw [hf]; rfl⟩

omit [DecidableEq κ] in
theorem total_filterMap_le {f : α → Option α} {size : α → ℕ} (hle : ∀ v w, f v = some w →
    size w ≤ size v) :
    (m.filterMap f).total size ≤ m.total size := by
  unfold total filterMap
  dsimp only
  induction m.entries with
  | nil => exact Nat.le_refl 0
  | cons e entries ih =>
    rw [List.filterMap_cons, List.map_cons, List.sum_cons]
    cases hf : f e.2 with
    | none => exact Nat.le_trans ih (Nat.le_add_left _ _)
    | some w => exact Nat.add_le_add (hle _ _ hf) ih

theorem sum_put {size : α → ℕ} {entries : List (κ × α)} (hget : entries.lookup k = some v) (w : α) :
    ((put k w entries).map fun e => size e.2).sum + size v =
      (entries.map fun e => size e.2).sum + size w := by
  induction entries with
  | nil => cases hget
  | cons e entries ih =>
    rw [lookup_cons_if] at hget
    rw [put, List.map_cons, List.sum_cons]
    by_cases hk : k = e.1
    · rw [if_pos hk, Option.some.injEq] at hget
      rw [if_pos hk.symm, List.map_cons, List.sum_cons, hget]
      dsimp only
      omega
    · rw [if_neg hk] at hget
      rw [if_neg (Ne.symm hk), List.map_cons, List.sum_cons]
      have := ih hget
      omega

theorem total_set_of_get_eq_some (size : α → ℕ) (h : m.get k = some v) (w : α) :
    (m.set k w).total size + size v = m.total size + size w := sum_put h w

theorem total_erase_le {size : α → ℕ} : (m.erase k).total size ≤ m.total size := by
  cases hget : m.get k with
  | none =>
    apply Nat.le_of_eq
    unfold total erase rearrange
    dsimp only
    rw [List.filter_eq_self.mpr]
    intro e he
    apply decide_eq_true
    intro heq
    obtain ⟨j, u⟩ := e
    cases (show j = k from heq)
    rw [mem_entries.mp he] at hget
    cases hget
  | some v =>
    rw [total_erase hget]
    exact Nat.le_add_right _ _

/-! ## What a loop gathers -/

/-- One entry a key; `step` is given what the key has so far. -/
def gatherFrom (key : β → κ) (step : Option α → β → α) (m : Keyed κ α) (items : List β) :
    Keyed κ α :=
  items.foldl (fun m x => m.set (key x) (step (m.get (key x)) x)) m

def gather (key : β → κ) (step : Option α → β → α) (items : List β) : Keyed κ α :=
  gatherFrom key step empty items

variable {key : β → κ} {step : Option α → β → α} {items : List β}

theorem get_gatherFrom :
    (gatherFrom key step m items).get k =
      (items.filter fun x => key x = k).foldl (fun o x => some (step o x)) (m.get k) := by
  induction items generalizing m with
  | nil => rfl
  | cons x items ih =>
    unfold gatherFrom at ih ⊢
    rw [List.foldl_cons, ih, get_set]
    by_cases hx : key x = k
    · subst hx
      simp
    · rw [if_neg (Ne.symm hx), List.filter_cons_of_neg (by simpa using hx)]

theorem get_gather :
    (gather key step items).get k =
      (items.filter fun x => key x = k).foldl (fun o x => some (step o x)) none := get_gatherFrom

theorem foldl_some_getD {f : α → β → α} {d : α} {o : Option α} :
    items.foldl (fun o x => some (f (o.getD d) x)) o =
      if items = [] then o else some (items.foldl f (o.getD d)) := by
  induction items generalizing o with
  | nil => rfl
  | cons x items ih =>
    rw [List.foldl_cons, ih, if_neg (List.cons_ne_nil x items), List.foldl_cons, Option.getD_some]
    split
    · rename_i hnil
      rw [hnil, List.foldl_nil]
    · rfl

/-- Under a key is what the items of that key make of the default. -/
theorem get_gather_getD {f : α → β → α} {d : α} :
    (gather key (fun o x => f (o.getD d) x) items).get k = some v ↔
      (∃ x ∈ items, key x = k) ∧ v = (items.filter fun x => key x = k).foldl f d := by
  rw [get_gather, foldl_some_getD]
  have hnil : (items.filter fun x => key x = k) = [] ↔ ¬∃ x ∈ items, key x = k := by
    simp [List.filter_eq_nil_iff]
  by_cases hex : ∃ x ∈ items, key x = k
  · rw [if_neg (fun h => hnil.mp h hex)]
    rw [Option.some_inj]
    exact ⟨fun h => ⟨hex, h.symm⟩, fun h => h.2.symm⟩
  · rw [if_pos (hnil.mpr hex)]
    simp [hex]

theorem mem_keys_gather_getD {f : α → β → α} {d : α} :
    k ∈ (gather key (fun o x => f (o.getD d) x) items).keys ↔ ∃ x ∈ items, key x = k := by
  rw [mem_keys]
  constructor
  · rintro ⟨v, hv⟩
    exact (get_gather_getD.mp hv).1
  · intro hex
    exact ⟨_, get_gather_getD.mpr ⟨hex, rfl⟩⟩

omit [DecidableEq κ] in
theorem exists_entries_eq_singleton : (∃ v, m.entries = [(k, v)]) ↔ ∀ j, j ∈ m.keys ↔ j = k := by
  constructor
  · rintro ⟨v, hentries⟩ j
    unfold keys
    rw [hentries]
    exact List.mem_singleton
  · intro hkeys
    have hperm : m.keys.Perm [k] :=
      (List.perm_ext_iff_of_nodup m.nodup (List.nodup_singleton k)).mpr fun j =>
        (hkeys j).trans List.mem_singleton.symm
    have hmap : m.entries.map Prod.fst = [k] := List.perm_singleton.mp hperm
    obtain ⟨⟨j, v⟩, hentries, rfl⟩ := List.map_eq_singleton_iff.mp hmap
    exact ⟨v, hentries⟩

end

end Keyed

end Lib
