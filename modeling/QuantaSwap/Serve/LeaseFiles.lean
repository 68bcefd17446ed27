import QuantaSwap.Serve.Lease

/-!
# The files of the lease

Where a process stands, what its next operation does to the directory, and what holds of the ids and
the files in every run.
-/

set_option autoImplicit false

namespace QuantaSwap.Serve.Lease

open Lib.Files

variable {Id ι : Type}

/-! ## Where a process stands -/

def Outcome.lease : Outcome Id → Option Id
  | .held id => some id
  | .retry | .thrown => none

namespace Pc

/-- The ids that a process has drawn and may still use. -/
def ids : Pc Id → List Id
  | .attempt | .observe _ | .refused | .closed => []
  | .createGuard gid | .writeGuard gid _ | .openGuard gid | .judgeGuard gid _ | .takeGuard gid _ |
    .check gid |
    .judge gid _ => [gid]
  | .createLease gid id | .writeLease gid id _ | .takeLease gid id _ | .confirm gid id |
    .confirmRead gid id _ =>
    [gid, id]
  | .unguard gid outcome | .unguardRead gid outcome _ | .unlinkGuard gid outcome =>
    gid :: outcome.lease.toList
  | .held id | .assertRead id _ | .beatRead id _ | .beatStamp id | .closeRead id _ |
    .closeUnlink id => [id]

/-- Those of them that it may still bring to a name. -/
def pending : Pc Id → List Id
  | .createGuard gid | .writeGuard gid _ | .openGuard gid | .judgeGuard gid _ | .takeGuard gid _ |
    .check gid |
    .judge gid _ => [gid]
  | .createLease gid id | .writeLease gid id _ | .takeLease gid id _ => [gid, id]
  | _ => []

/-- A file that was made and is not written yet. -/
def blank : Pc Id → Option ℕ
  | .writeGuard _ fd | .writeLease _ _ fd => some fd
  | _ => none

/-- A written file that waits for its name. -/
def staged : Pc Id → Option (ℕ × Id)
  | .takeGuard gid fd => some (fd, gid)
  | .takeLease _ id fd => some (fd, id)
  | _ => none

/-- Between the creation of the recovery guard and its removal. -/
def guarded : Pc Id → Bool
  | .writeGuard .. | .check _ | .judge .. | .createLease .. | .writeLease .. | .takeLease .. |
    .confirm .. |
    .confirmRead .. | .unguard .. | .unguardRead .. | .unlinkGuard .. => true
  | _ => false

/-- The lease was seen to be stale, under the guard. -/
def cleared : Pc Id → Bool
  | .createLease .. | .writeLease .. | .takeLease .. => true
  | _ => false

def takesGuard : Pc Id → Bool
  | .takeGuard .. => true
  | _ => false

/-- The lease that a process has brought to the path. -/
def claims : Pc Id → Option Id
  | .confirm _ id | .confirmRead _ id _ => some id
  | .unguard _ outcome | .unguardRead _ outcome _ | .unlinkGuard _ outcome => outcome.lease
  | .held id | .assertRead id _ | .beatRead id _ | .beatStamp id | .closeRead id _ |
    .closeUnlink id => some id
  | _ => none

/-- The lease of a process whose `acquire` returned and that has not closed it. -/
def holds : Pc Id → Option Id
  | .held id | .assertRead id _ | .beatRead id _ | .beatStamp id => some id
  | _ => none

end Pc

/-- What a process that stands at `pc` may do to the directory. -/
def Pc.Does (io : Io Id) (d : Directory Id) (pc : Pc Id) : FileOp Id → Prop
  | .nothing | .unlink _ => True
  | .create n => d.named n = none
  | .write fd id => pc.blank = some fd ∧ id ∈ pc.pending
  | .stage id => id = io.fresh ∨ id ∈ pc.pending
  | .rename fd _ => ∃ id ∈ pc.pending, pc.staged = some (fd, id)
  | .stamp fd => d.named .lease = some fd

/-- What one operation can do, to the process and to the directory. -/
structure Operated (io : Io Id) (d : Directory Id) (p : Process Id) (op : FileOp Id)
    (p' : Process Id) : Prop where
  alive : p'.alive = p.alive
  ids : ∀ id ∈ p'.pc.ids, id = io.fresh ∨ id ∈ p.pc.ids
  pending : ∀ id ∈ p'.pc.pending, id = io.fresh ∨ id ∈ p.pc.pending
  blank : ∀ fd, p'.pc.blank = some fd → fd = d.next ∧ ∃ n, op = .create n
  staged : ∀ fd id, p'.pc.staged = some (fd, id) → fd = d.next ∧ op = .stage id
  does : p.pc.Does io d op

theorem Pc.ids_of_pending {pc : Pc Id} {id : Id} (h : id ∈ pc.pending) : id ∈ pc.ids := by
  cases pc
  case createGuard | writeGuard | openGuard | judgeGuard | takeGuard | check | judge | createLease |
    writeLease |
    takeLease => exact h
  all_goals cases h

theorem begin_pc (me : Identity) (io : Io Id) (d : Directory Id) (p : Process Id) (m : Method) :
    (begin me io d p m).alive = p.alive ∧ (begin me io d p m).pc.ids ⊆ p.pc.ids ∧
      (begin me io d p m).pc.pending = p.pc.pending ∧ (begin me io d p m).pc.blank = p.pc.blank ∧
      (begin me io d p m).pc.staged = p.pc.staged ∧ (begin me io d p m).passed = p.passed := by
  obtain ⟨pc, attempt, lost, failedBeats, alive, passed⟩ := p
  unfold begin
  cases pc
  case held id =>
    cases m <;> dsimp only [Process.goto, Process.countFailedBeat] <;> split_ifs <;>
      first
        | exact ⟨rfl, fun _ h => h, rfl, rfl, rfl, rfl⟩
        | exact ⟨rfl, List.nil_subset _, rfl, rfl, rfl, rfl⟩
  all_goals exact ⟨rfl, fun _ h => h, rfl, rfl, rfl, rfl⟩

/-! ## What the directory holds -/

section Perform

variable {me : Identity} {io : Io Id} {d : Directory Id} {op : FileOp Id} {fd : ℕ}

theorem perform_next (me : Identity) (io : Io Id) (d : Directory Id) (op : FileOp Id) :
    d.next ≤ (op.perform me io d).next := by
  cases op <;> simp [FileOp.perform]

theorem perform_record (me : Identity) (io : Io Id) (d : Directory Id) (op : FileOp Id) (fd : ℕ) :
    ((op.perform me io d).content fd).record = (d.content fd).record ∨
      (fd = d.next ∧ ((op.perform me io d).content fd).record = none) ∨
      ∃ id, (op = .write fd id ∨ op = .stage id ∧ fd = d.next) ∧
        ((op.perform me io d).content fd).record = some (me.makeRecord id) := by
  cases op with
  | nothing | rename | unlink => exact .inl rfl
  | create n =>
    by_cases h : fd = d.next
    · subst h
      exact .inr (.inl ⟨rfl, by simp [FileOp.perform]⟩)
    · exact .inl (by simp [FileOp.perform, Disk.stage_content h])
  | write fd' id =>
    by_cases h : fd = fd'
    · subst h
      exact .inr (.inr ⟨id, .inl rfl, by simp [FileOp.perform]⟩)
    · exact .inl (by simp [FileOp.perform, Disk.write_content h])
  | stage id =>
    by_cases h : fd = d.next
    · subst h
      exact .inr (.inr ⟨id, .inr ⟨rfl, rfl⟩, by simp [FileOp.perform]⟩)
    · exact .inl (by simp [FileOp.perform, Disk.stage_content h])
  | stamp fd' =>
    by_cases h : fd = fd'
    · subst h
      exact .inl (by simp [FileOp.perform])
    · exact .inl (by simp [FileOp.perform, Disk.write_content h])

theorem perform_named (me : Identity) (io : Io Id) (d : Directory Id) (op : FileOp Id) (n : Name) :
    (op.perform me io d).named n = d.named n ∨
    (op = .unlink n ∧ (op.perform me io d).named n = none) ∨
      (op = .create n ∧ (op.perform me io d).named n = some d.next) ∨
      ∃ fd, op = .rename fd n ∧ (op.perform me io d).named n = some fd := by
  cases op with
  | nothing | write | stage | stamp => exact .inl rfl
  | create n' =>
    by_cases h : n = n'
    · subst h
      exact .inr (.inr (.inl ⟨rfl, by simp [FileOp.perform]⟩))
    · exact .inl (by simp [FileOp.perform, Disk.create_named h])
  | rename fd n' =>
    by_cases h : n = n'
    · subst h
      exact .inr (.inr (.inr ⟨fd, rfl, by simp [FileOp.perform]⟩))
    · exact .inl (by simp [FileOp.perform, Disk.rename_named h])
  | unlink n' =>
    by_cases h : n = n'
    · subst h
      exact .inr (.inl ⟨rfl, by simp [FileOp.perform]⟩)
    · exact .inl (by simp [FileOp.perform, Disk.unlink_named h])

end Perform

/-! ## One operation -/

section Operate

variable [DecidableEq Id]

theorem operate_operated (me : Identity) (io : Io Id) (d : Directory Id) (p : Process Id) :
    Operated io d p (operate me io d p).1 (operate me io d p).2 := by
  obtain ⟨pc, attempt, lost, failedBeats, alive, passed⟩ := p
  -- No new id, no new file.
  have hplain : ∀ (op : FileOp Id) (pc' : Pc Id) (attempt' failedBeats' passed' : Nat)
    (lost' : Bool), pc'.ids ⊆ pc.ids →
      pc'.pending ⊆ pc.pending → pc'.blank = none → pc'.staged = none → pc.Does io d op →
      Operated io d ⟨pc, attempt, lost, failedBeats, alive, passed⟩ op
        ⟨pc', attempt', lost', failedBeats', alive, passed'⟩ := by
    intro op pc' attempt' failedBeats' passed' lost' hids hpending hblank hstaged hdoes
    refine ⟨rfl, fun _ h => .inr (hids h), fun _ h => .inr (hpending h), fun _ h => ?_,
      fun _ _ h => ?_, hdoes⟩
    · rw [hblank] at h
      cases h
    · rw [hstaged] at h
      cases h
  have hdrawn : ∀ id ∈ [io.fresh], id = io.fresh ∨ id ∈ pc.ids :=
    fun _ h => .inl (List.mem_singleton.mp h)
  have hlast : ∀ g l : Id, l ∈ [g, l] :=
    fun g l => List.mem_cons_of_mem g (List.mem_singleton_self l)
  have hone : ∀ g l : Id, [g] ⊆ [g, l] := fun g l => List.cons_subset_cons g (List.nil_subset _)
  unfold operate
  cases pc
  case observe fd =>
    dsimp only [Process.goto]
    split_ifs
    · exact hplain _ _ _ _ _ _ (List.nil_subset _) (List.nil_subset _) rfl rfl trivial
    · exact ⟨rfl, hdrawn, hdrawn, fun _ h => (by cases h), fun _ _ h => (by cases h), trivial⟩
  case createGuard gid =>
    dsimp only [Process.goto]
    split_ifs with hbefore hguard
    · exact hplain _ _ _ _ _ _ (List.nil_subset _) (List.nil_subset _) rfl rfl trivial
    · exact hplain _ _ _ _ _ _ (fun _ h => h) (fun _ h => h) rfl rfl trivial
    · exact hplain _ _ _ _ _ _ (List.nil_subset _)
        (List.nil_subset _) rfl rfl (Option.not_isSome_iff_eq_none.mp hguard)
    · refine ⟨rfl, fun _ => .inr, fun _ => .inr, fun fd h => ?_, fun _ _ h => (by cases h),
        Option.not_isSome_iff_eq_none.mp hguard⟩
      exact ⟨(Option.some.inj h).symm, _, rfl⟩
  case writeGuard gid fd =>
    dsimp only [Process.goto]
    split_ifs
    · exact hplain _ _ _ _ _ _ (List.nil_subset _) (List.nil_subset _) rfl rfl trivial
    · exact hplain _ _ _ _ _ _ (List.nil_subset _)
        (List.nil_subset _) rfl rfl ⟨rfl, List.mem_singleton_self _⟩
    · exact hplain _ _ _ _ _ _ (fun _ h => h)
        (fun _ h => h) rfl rfl ⟨rfl, List.mem_singleton_self _⟩
  case judgeGuard gid fd =>
    dsimp only [Process.goto, Process.leave]
    split_ifs
    · exact hplain _ _ _ _ _ _ (List.nil_subset _) (List.nil_subset _) rfl rfl trivial
    · exact hplain _ _ _ _ _ _ (List.nil_subset _) (List.nil_subset _) rfl rfl trivial
    · refine ⟨rfl, fun _ => .inr, fun _ => .inr, fun _ h => (by cases h), fun fd' id h => ?_,
        .inr (List.mem_singleton_self _)⟩
      obtain ⟨rfl, rfl⟩ := Prod.mk.inj (Option.some.inj h)
      exact ⟨rfl, rfl⟩
  case takeGuard gid fd =>
    dsimp only [Process.goto]
    split_ifs
    · exact hplain _ _ _ _ _ _ (List.nil_subset _) (List.nil_subset _) rfl rfl trivial
    · exact hplain _ _ _ _ _ _ (List.nil_subset _)
        (List.nil_subset _) rfl rfl ⟨_, List.mem_singleton_self _, rfl⟩
    · exact hplain _ _ _ _ _ _ (fun _ h => h)
        (fun _ h => h) rfl rfl ⟨_, List.mem_singleton_self _, rfl⟩
  case judge gid fd =>
    have hboth : ∀ id ∈ [gid, io.fresh], id = io.fresh ∨ id ∈ [gid] := by
      intro id h
      rcases List.mem_cons.mp h with h | h
      · exact .inr (List.mem_singleton.mpr h)
      · exact .inl (List.mem_singleton.mp h)
    dsimp only [Process.goto]
    split_ifs
    · exact hplain _ _ _ _ _ _ (fun _ h => h) (List.nil_subset _) rfl rfl trivial
    · exact ⟨rfl, hboth, hboth, fun _ h => (by cases h), fun _ _ h => (by cases h), trivial⟩
    · refine ⟨rfl, hboth, hboth, fun _ h => (by cases h), fun fd' id h => ?_, .inl rfl⟩
      obtain ⟨rfl, rfl⟩ := Prod.mk.inj (Option.some.inj h)
      exact ⟨rfl, rfl⟩
  case createLease gid id =>
    dsimp only [Process.goto]
    split_ifs with hbefore hlease
    · exact hplain _ _ _ _ _ _ (hone _ _) (List.nil_subset _) rfl rfl trivial
    · exact hplain _ _ _ _ _ _ (hone _ _) (List.nil_subset _) rfl rfl trivial
    · exact hplain _ _ _ _ _ _ (hone _ _)
        (List.nil_subset _) rfl rfl (Option.not_isSome_iff_eq_none.mp hlease)
    · refine ⟨rfl, fun _ => .inr, fun _ => .inr, fun fd h => ?_, fun _ _ h => (by cases h),
        Option.not_isSome_iff_eq_none.mp hlease⟩
      exact ⟨(Option.some.inj h).symm, _, rfl⟩
  case writeLease gid id fd =>
    dsimp only [Process.goto]
    split_ifs
    · exact hplain _ _ _ _ _ _ (hone _ _) (List.nil_subset _) rfl rfl trivial
    · exact hplain _ _ _ _ _ _ (hone _ _) (List.nil_subset _) rfl rfl ⟨rfl, hlast _ _⟩
    · exact hplain _ _ _ _ _ _ (fun _ h => h) (List.nil_subset _) rfl rfl ⟨rfl, hlast _ _⟩
  case takeLease gid id fd =>
    dsimp only [Process.goto]
    split_ifs
    · exact hplain _ _ _ _ _ _ (hone _ _) (List.nil_subset _) rfl rfl trivial
    · exact hplain _ _ _ _ _ _ (hone _ _) (List.nil_subset _) rfl rfl ⟨_, hlast _ _, rfl⟩
    · exact hplain _ _ _ _ _ _ (fun _ h => h) (List.nil_subset _) rfl rfl ⟨_, hlast _ _, rfl⟩
  case unguardRead gid outcome fd =>
    dsimp only [Process.goto]
    split_ifs
    · exact hplain _ _ _ _ _ _ (List.nil_subset _) (fun _ h => h) rfl rfl trivial
    · exact hplain _ _ _ _ _ _ (fun _ h => h) (fun _ h => h) rfl rfl trivial
    · cases outcome with
      | held id =>
        exact hplain _ _ _ _ _ _ (List.subset_cons_self _ _) (fun _ h => h) rfl rfl trivial
      | retry | thrown =>
        exact hplain _ _ _ _ _ _ (List.nil_subset _) (fun _ h => h) rfl rfl trivial
  case unlinkGuard gid outcome =>
    dsimp only [Process.goto]
    split_ifs
    · exact hplain _ _ _ _ _ _ (List.nil_subset _) (fun _ h => h) rfl rfl trivial
    · exact hplain _ _ _ _ _ _ (List.nil_subset _) (fun _ h => h) rfl rfl trivial
    · cases outcome with
      | held id =>
        exact hplain _ _ _ _ _ _ (List.subset_cons_self _ _) (fun _ h => h) rfl rfl trivial
      | retry | thrown =>
        exact hplain _ _ _ _ _ _ (List.nil_subset _) (fun _ h => h) rfl rfl trivial
  case beatStamp id =>
    dsimp only [Process.goto, Process.countFailedBeat]
    cases hlease : d.named .lease with
    | none => exact hplain _ _ _ _ _ _ (fun _ h => h) (fun _ h => h) rfl rfl trivial
    | some fd =>
      dsimp only
      split_ifs
      · exact hplain _ _ _ _ _ _ (fun _ h => h) (fun _ h => h) rfl rfl trivial
      · exact hplain _ _ _ _ _ _ (fun _ h => h) (fun _ h => h) rfl rfl hlease
      · exact hplain _ _ _ _ _ _ (fun _ h => h) (fun _ h => h) rfl rfl hlease
  case refused | held | closed =>
    exact hplain _ _ _ _ _ _ (fun _ h => h) (fun _ h => h) rfl rfl trivial
  -- The others open or read a file, or drop what they had.
  all_goals
    dsimp only [Process.goto, Process.countFailedBeat]
    split_ifs <;>
      first
        | exact hplain _ _ _ _ _ _ (List.nil_subset _) (List.nil_subset _) rfl rfl trivial
        | exact hplain _ _ _ _ _ _ (fun _ h => h) (List.nil_subset _) rfl rfl trivial
        | exact hplain _ _ _ _ _ _ (fun _ h => h) (fun _ h => h) rfl rfl trivial
        | exact hplain _ _ _ _ _ _ (hone _ _) (List.nil_subset _) rfl rfl trivial

end Operate

/-! ## Ids and files -/

/-- Every step draws an id that nobody has seen. -/
def Fresh (w : World Id ι) : Input Id ι → Prop
  | .operate _ io => io.fresh ∉ w.drawn
  | .call .. | .crash _ => True

/-- Ids are known and belong to one process each, and so do the files that have no name yet. -/
structure Sound (who : ι → Identity) (w : World Id ι) : Prop where
  files : ∀ fd r, (w.disk.content fd).record = some r → r.leaseId ∈ w.drawn
  ids : ∀ i, ∀ id ∈ (w.processes i).pc.ids, id ∈ w.drawn
  apart : ∀ i j, ∀ id ∈ (w.processes i).pc.ids, id ∈ (w.processes j).pc.ids → i = j
  blank : ∀ i fd, (w.processes i).pc.blank = some fd → fd < w.disk.next ∧
    (w.disk.content fd).record = none
  staged : ∀ i fd id, (w.processes i).pc.staged = some (fd, id) →
    fd < w.disk.next ∧ (w.disk.content fd).record = some ((who i).makeRecord id)
  blanks : ∀ i j fd, (w.processes i).pc.blank = some fd → (w.processes j).pc.blank = some fd → i = j
  named : ∀ n fd, w.disk.named n = some fd → fd < w.disk.next

section Sound

variable {who : ι → Identity} {w : World Id ι}

theorem sound_start {d : Directory Id} {drawn : List Id} (hnamed : ∀ n fd, d.named n = some fd →
    fd < d.next)
    (hdrawn : ∀ fd r, (d.content fd).record = some r → r.leaseId ∈ drawn) :
    Sound who (World.start d drawn : World Id ι) where
  files := hdrawn
  ids _ _ h := by cases h
  apart _ _ _ h := by cases h
  blank _ _ h := by cases h
  staged _ _ _ h := by cases h
  blanks _ _ _ h := by cases h
  named := hnamed

variable [DecidableEq ι]

theorem Sound.set (hw : Sound who w) (i : ι) {p : Process Id}
    (hids : p.pc.ids ⊆ (w.processes i).pc.ids)
    (hblank : p.pc.blank = (w.processes i).pc.blank)
    (hstaged : p.pc.staged = (w.processes i).pc.staged) :
    Sound who (w.set i w.disk p) := by
  have hsub : ∀ j, ((w.set i w.disk p).processes j).pc.ids ⊆ (w.processes j).pc.ids := by
    intro j
    by_cases hj : j = i
    · subst hj
      simpa [World.set] using hids
    · simp [World.set, hj]
  have hfile : ∀ j, ((w.set i w.disk p).processes j).pc.blank = (w.processes j).pc.blank ∧
      ((w.set i w.disk p).processes j).pc.staged = (w.processes j).pc.staged := by
    intro j
    by_cases hj : j = i
    · subst hj
      simp [World.set, hblank, hstaged]
    · simp [World.set, hj]
  exact {
    files := hw.files
    ids := fun j id h => hw.ids j id (hsub j h)
    apart := fun j k id hj hk => hw.apart j k id (hsub j hj) (hsub k hk)
    blank := fun j fd h => hw.blank j fd ((hfile j).1 ▸ h)
    staged := fun j fd id h => hw.staged j fd id ((hfile j).2 ▸ h)
    blanks := fun j k fd hj hk => hw.blanks j k fd ((hfile j).1 ▸ hj) ((hfile k).1 ▸ hk)
    named := hw.named }

theorem Sound.operate (hw : Sound who w) (i : ι) {io : Io Id} (hfresh : io.fresh ∉ w.drawn)
    {op : FileOp Id}
    {p : Process Id} (hop : Operated io w.disk (w.processes i) op p) :
    Sound who { w.set i (op.perform (who i) io w.disk) p with drawn := io.fresh :: w.drawn } := by
  have hother :
    ∀ j, j ≠ i → (w.set i (op.perform (who i) io w.disk) p).processes j = w.processes j := by
    intro j hj
    simp [World.set, hj]
  have hself : (w.set i (op.perform (who i) io w.disk) p).processes i = p := by simp [World.set]
  -- An id of the process itself is new, or it had it before.
  have hmine : ∀ j, ∀ id ∈ ((w.set i (op.perform (who i) io w.disk) p).processes j).pc.ids,
      (j = i ∧ id = io.fresh) ∨ id ∈ (w.processes j).pc.ids := by
    intro j id h
    by_cases hj : j = i
    · subst hj
      rw [hself] at h
      exact (hop.ids id h).imp_left fun h => ⟨rfl, h⟩
    · rw [hother j hj] at h
      exact .inr h
  have hrecord : ∀ fd id, (op = .write fd id ∨ op = .stage id ∧ fd = w.disk.next) →
      id = io.fresh ∨ id ∈ (w.processes i).pc.ids := by
    intro fd id h
    have hdoes := hop.does
    rcases h with rfl | ⟨rfl, -⟩
    · exact .inr (Pc.ids_of_pending hdoes.2)
    · exact hdoes.imp_right Pc.ids_of_pending
  have hnext := perform_next (who i) io w.disk op
  have hblankFile : ∀ j fd, j ≠ i → (w.processes j).pc.blank = some fd →
      ((op.perform (who i) io w.disk).content fd).record = none := by
    intro j fd hj h
    obtain ⟨hlt, hnone⟩ := hw.blank j fd h
    rcases perform_record (who i) io w.disk op fd with heq | ⟨-, heq⟩ | ⟨id, hid, -⟩
    · rw [heq, hnone]
    · exact heq
    · rcases hid with rfl | ⟨-, rfl⟩
      · exact absurd (hw.blanks j i fd h hop.does.1) hj
      · exact absurd hlt (Nat.lt_irrefl _)
  constructor
  · intro fd r h
    rcases perform_record (who i) io w.disk op fd with heq | ⟨-, heq⟩ | ⟨id, hid, heq⟩
    · exact List.mem_cons_of_mem _ (hw.files fd r (heq ▸ h))
    · rw [show ((w.set i (op.perform (who i) io w.disk) p).disk.content fd).record =
        none from heq] at h
      cases h
    · have hr : (who i).makeRecord id = r := Option.some.inj (heq.symm.trans h)
      subst hr
      rcases hrecord fd id hid with rfl | hold
      · exact List.mem_cons_self
      · exact List.mem_cons_of_mem _ (hw.ids i id hold)
  · intro j id h
    rcases hmine j id h with ⟨-, rfl⟩ | hold
    · exact List.mem_cons_self
    · exact List.mem_cons_of_mem _ (hw.ids j id hold)
  · intro j k id hj hk
    rcases hmine j id hj with ⟨rfl, rfl⟩ | hoj
    · rcases hmine k _ hk with ⟨rfl, -⟩ | hok
      · rfl
      · exact absurd (hw.ids k _ hok) hfresh
    · rcases hmine k id hk with ⟨rfl, rfl⟩ | hok
      · exact absurd (hw.ids j _ hoj) hfresh
      · exact hw.apart j k id hoj hok
  · intro j fd h
    by_cases hj : j = i
    · subst hj
      rw [show _ = _ from congrArg (fun q : Process Id => q.pc.blank) hself] at h
      obtain ⟨rfl, n, rfl⟩ := hop.blank fd h
      exact ⟨Nat.lt_succ_self _, by simp [World.set, FileOp.perform]⟩
    · rw [show _ = _ from congrArg (fun q : Process Id => q.pc.blank) (hother j hj)] at h
      exact ⟨(hw.blank j fd h).1.trans_le hnext, hblankFile j fd hj h⟩
  · intro j fd id h
    by_cases hj : j = i
    · subst hj
      rw [show _ = _ from congrArg (fun q : Process Id => q.pc.staged) hself] at h
      obtain ⟨rfl, rfl⟩ := hop.staged fd id h
      exact ⟨Nat.lt_succ_self _, by simp [World.set, FileOp.perform]⟩
    · rw [show _ = _ from congrArg (fun q : Process Id => q.pc.staged) (hother j hj)] at h
      obtain ⟨hlt, hstaged⟩ := hw.staged j fd id h
      refine ⟨hlt.trans_le hnext, ?_⟩
      rcases perform_record (who i) io w.disk op fd with heq | ⟨rfl, -⟩ | ⟨id', hid, -⟩
      · exact heq.trans hstaged
      · exact absurd hlt (Nat.lt_irrefl _)
      · rcases hid with rfl | ⟨-, rfl⟩
        · rw [(hw.blank i fd hop.does.1).2] at hstaged
          cases hstaged
        · exact absurd hlt (Nat.lt_irrefl _)
  · intro j k fd hj hk
    have hold : ∀ l, l ≠ i →
      ((w.set i (op.perform (who i) io w.disk) p).processes l).pc.blank = some fd →
        fd < w.disk.next := by
      intro l hl h
      rw [hother l hl] at h
      exact (hw.blank l fd h).1
    have hnew : ((w.set i (op.perform (who i) io w.disk) p).processes i).pc.blank = some fd →
      fd = w.disk.next := by
      intro h
      rw [hself] at h
      exact (hop.blank fd h).1
    by_cases hji : j = i <;> by_cases hki : k = i
    · rw [hji, hki]
    · subst hji
      exact absurd (hnew hj) (Nat.ne_of_lt (hold k hki hk))
    · subst hki
      exact absurd (hnew hk) (Nat.ne_of_lt (hold j hji hj))
    · refine hw.blanks j k fd ?_ ?_
      · rw [← hother j hji]
        exact hj
      · rw [← hother k hki]
        exact hk
  · intro n fd h
    rcases perform_named (who i) io w.disk op n with heq | ⟨-, heq⟩ | ⟨rfl, heq⟩ | ⟨fd', rfl, heq⟩
    · exact (hw.named n fd (heq ▸ h)).trans_le hnext
    · rw [show (w.set i (op.perform (who i) io w.disk) p).disk.named n = none from heq] at h
      cases h
    · have hfd : w.disk.next = fd := Option.some.inj (heq.symm.trans h)
      subst hfd
      exact Nat.lt_succ_self _
    · have hfd : fd' = fd := Option.some.inj (heq.symm.trans h)
      subst hfd
      obtain ⟨id, -, hstaged⟩ := hop.does
      exact (hw.staged i fd' id hstaged).1

variable [DecidableEq Id]

theorem sound_step (hw : Sound who w) (input : Input Id ι) (hfresh : Fresh w input) :
    Sound who (w.step who input) := by
  cases input with
  | operate i io =>
    unfold World.step
    dsimp only
    split
    · exact hw.operate i hfresh (operate_operated (who i) io w.disk (w.processes i))
    · exact hw
  | call i m io =>
    unfold World.step
    dsimp only
    split
    · obtain ⟨-, hids, -, hblank, hstaged, -⟩ := begin_pc (who i) io w.disk (w.processes i) m
      exact hw.set i hids hblank hstaged
    · exact hw
  | crash i => exact hw.set i (fun _ h => h) rfl rfl

end Sound

end QuantaSwap.Serve.Lease
