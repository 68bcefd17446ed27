import Mathlib.Data.List.Nodup
import QuantaSwap.Lib.Run
import QuantaSwap.Book.Effect

/-!
# The running book

The store with its clock, as a system that takes calls, and the induction over
the effects of a call that every invariant of the book goes through.
-/

set_option autoImplicit false

namespace QuantaSwap.Book

open Lib.Js Lib.Text Lib.Checks Lib.Run

/-- The store, and the last second its clock showed. -/
structure World where
  store : Store := {}
  clock : SafeInt := ⟨0, Nat.zero_le _⟩

/-- A server without an orders file. -/
def World.start : World := {}

/-- The call as the server takes it: its clock does not run back. -/
def World.timed (w : World) (i : Step) : Step := { i with now := max w.clock i.now }

def World.step (E : Crypto) (w : World) (i : Step) : World :=
  ⟨Book.step E w.store (w.timed i), (w.timed i).now⟩

theorem World.clock_le_timed (w : World) (i : Step) : w.clock.val ≤ (w.timed i).now.val :=
  le_max_left w.clock i.now

@[simp] theorem World.step_clock (E : Crypto) (w : World) (i : Step) :
    (w.step E i).clock = (w.timed i).now := rfl

theorem World.step_effects (E : Crypto) (w : World) (i : Step) :
    Effects E (w.timed i) w.store.orders (w.step E i).store.orders :=
  Book.step_effects E w.store (w.timed i)

/-- The call leaves other rows than those of before and than the sweep makes of them. -/
def World.Writes (E : Crypto) (w : World) (i : Step) : Prop :=
  (w.step E i).store.orders ≠ w.store.orders ∧
    (w.step E i).store.orders ≠ sweepAll (w.timed i).now w.store.orders

theorem World.orders_of_not_writes {E : Crypto} {w : World} {i : Step} (h : ¬w.Writes E i) :
    (w.step E i).store.orders = w.store.orders ∨
      (w.step E i).store.orders = sweepAll (w.timed i).now w.store.orders := by
  unfold World.Writes at h
  rwa [not_and_or, not_not, not_not] at h

/-! ## Induction over the effects of one call -/

section Induction

variable {E : Crypto} {i : Step} {l l' : List Order}

/-- What the sweep keeps holds when the call writes. -/
theorem Effects.ends {P Q : List Order → Prop} (h : Effects E i l l')
    (hsweep : ∀ l, P l → P (sweepAll i.now l)) (hwrote : ∀ l l', P l → Wrote E i l l' → Q l')
    (hl : P l) :
    Q l' := by
  induction h with
  | kept => exact hwrote _ _ hl (.inl rfl)
  | wrote h => exact hwrote _ _ (hsweep _ hl) h
  | sweep _ ih => exact ih (hsweep _ hl)

theorem sweepOrder_id {now : SafeInt} {o o' : Order} (h : sweepOrder now o = some o') :
    o'.id = o.id := by
  simp only [sweepOrder] at h
  split at h
  · cases h
    rfl
  · split at h
    · cases h
    · cases h
      rfl

theorem mem_sweepAll {now : SafeInt} {o' : Order} :
    o' ∈ sweepAll now l ↔ ∃ o ∈ l, sweepOrder now o = some o' := List.mem_filterMap

theorem sweepAll_ids (now : SafeInt) (l : List Order) :
    ((sweepAll now l).map Order.id).Sublist (l.map Order.id) := by
  induction l with
  | nil => exact List.Sublist.slnil
  | cons o l ih =>
    unfold sweepAll at ih ⊢
    rw [List.filterMap_cons]
    cases h : sweepOrder now o with
    | none => exact ih.cons _
    | some o' =>
      rw [List.map_cons, List.map_cons, sweepOrder_id h]
      exact ih.cons_cons _

theorem Change.id_eq {o o' : Order} (h : Change E i o o') : o'.id = o.id := by
  cases h with
  | orderConflict => rfl
  | portable _ h => cases h <;> rfl
  | legacy _ h => cases h <;> rfl

theorem mem_changed {o o' : Order} {f : Order → Order} (hids : (l.map Order.id).Nodup)
    (hmem : o ∈ l)
    (h : o' ∈ l.map fun x => if x.id = o.id then f x else x) :
    o' = f o ∨ (o' ∈ l ∧ o'.id ≠ o.id) := by
  obtain ⟨x, hx, rfl⟩ := List.mem_map.mp h
  split
  · rename_i hid
    left
    rw [List.inj_on_of_nodup_map hids hx hmem hid]
  · rename_i hid
    exact .inr ⟨hx, hid⟩

theorem draftOrder_fresh {now : SafeInt} {body : Record} {makerIp : String} {origin : Origin}
    {random : Random}
    {o : Order} (h : draftOrder E l now body makerIp origin random = .ok o) :
    ∀ x ∈ l, x.id ≠ o.id := by
  simp only [draftOrder, bind_eq_ok, refuse_eq_ok, pure_eq_ok, exists_const] at h
  obtain ⟨_, -, terms, -, _, -, _, -, v, -, _, -, listing, -, prelock, -, hid, _, -, rfl⟩ := h
  exact fun x hx he => hid ⟨x, hx, he⟩

theorem write_ids (hids : (l.map Order.id).Nodup) (h : Write E i l l') :
    (l'.map Order.id).Nodup := by
  cases h with
  | create body makerIp origin o hasked hdraft =>
    rw [List.map_append, List.nodup_append]
    refine ⟨hids, List.nodup_singleton _, ?_⟩
    intro a ha b hb
    obtain ⟨x, hx, rfl⟩ := List.mem_map.mp ha
    obtain rfl := List.mem_singleton.mp hb
    exact draftOrder_fresh hdraft x hx
  | change o f hmem hchange =>
    have hsame : (l.map fun x => if x.id = o.id then f x else x).map Order.id = l.map Order.id := by
      rw [List.map_map]
      apply List.map_congr_left
      intro x hx
      simp only [Function.comp_apply]
      split
      · rename_i hid
        rw [List.inj_on_of_nodup_map hids hx hmem hid]
        exact hchange.id_eq
      · rfl
    rw [hsame]
    exact hids

theorem Effects.ids (h : Effects E i l l') (hids : (l.map Order.id).Nodup) :
    (l'.map Order.id).Nodup := by
  refine h.ends (P := fun l => (l.map Order.id).Nodup) (Q := fun l => (l.map Order.id).Nodup)
    (fun l hl => (sweepAll_ids i.now l).nodup hl) ?_ hids
  rintro l l' hl (rfl | hwrite)
  · exact hl
  · exact write_ids hl hwrite

/-- A property of single orders: `P` before the call, kept by the sweep, and `Q` after it. -/
theorem Effects.forall_mem {P Q : Order → Prop} (h : Effects E i l l')
    (hids : (l.map Order.id).Nodup)
    (hsweep : ∀ o o', P o → sweepOrder i.now o = some o' → P o') (hkeep : ∀ o, P o → Q o)
    (hcreate : ∀ l body makerIp origin o, Asked E i body makerIp origin →
      draftOrder E l i.now body makerIp origin i.random = .ok o → Q o)
    (hchange : ∀ o o', P o → Change E i o o' → Q o') (hl : ∀ o ∈ l, P o) : ∀ o ∈ l', Q o := by
  refine h.ends (P := fun l => (l.map Order.id).Nodup ∧ ∀ o ∈ l, P o)
    (Q := fun l => ∀ o ∈ l, Q o) ?_ ?_
    ⟨hids, hl⟩
  · rintro l ⟨hids, hl⟩
    refine ⟨(sweepAll_ids i.now l).nodup hids, ?_⟩
    intro o' ho'
    obtain ⟨o, ho, hsome⟩ := mem_sweepAll.mp ho'
    exact hsweep o o' (hl o ho) hsome
  · rintro l l' ⟨hids, hl⟩ (rfl | hwrite) o' ho'
    · exact hkeep o' (hl o' ho')
    · cases hwrite with
      | create body makerIp origin o hasked hdraft =>
        rcases List.mem_append.mp ho' with ho' | ho'
        · exact hkeep o' (hl o' ho')
        · obtain rfl := List.mem_singleton.mp ho'
          exact hcreate l body makerIp origin o' hasked hdraft
      | change o f hmem hchanged =>
        rcases mem_changed hids hmem ho' with rfl | ⟨ho', -⟩
        · exact hchange o (f o) (hl o hmem) hchanged
        · exact hkeep o' (hl o' ho')

end Induction

theorem run_clock_le (E : Crypto) (w : World) (is : List Step) :
    w.clock.val ≤ (run (World.step E) w is).clock.val :=
  related (R := fun w w' : World => w.clock.val ≤ w'.clock.val) (I := fun _ => True)
    (fun _ => Nat.le_refl _)
    (fun _ _ _ => Nat.le_trans) (fun _ _ _ => trivial) (fun w i _ => w.clock_le_timed i) trivial is

theorem run_ids (E : Crypto) (is : List Step) :
    ((run (World.step E) World.start is).store.orders.map Order.id).Nodup :=
  invariant (I := fun w : World => (w.store.orders.map Order.id).Nodup)
    (fun w i hw => (w.step_effects E i).ids hw) (s := World.start) List.nodup_nil is

end QuantaSwap.Book
