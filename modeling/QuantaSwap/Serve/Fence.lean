import Mathlib.Tactic.IntervalCases
import QuantaSwap.Serve.LeaseFiles

/-!
# The write fence

`assertOwned` in every run: any PID namespaces, clocks and failures, processes that die anywhere,
and recovery guards that several starters take over at once.
-/

set_option autoImplicit false

namespace QuantaSwap.Serve.Lease

open Lib.Files Lib.Run

variable {Id ι : Type}

/-! ## The fence -/

section Fence

variable [DecidableEq Id]

/-- `acquire` returned some time ago. -/
def Pc.after : Pc Id → Bool
  | .held _ | .assertRead .. | .beatRead .. | .beatStamp _ | .closeRead .. | .closeUnlink _ |
    .closed => true
  | _ => false

omit [DecidableEq Id] in
theorem perform_idOf {io : Io Id} {d : Directory Id} {p p' : Process Id} {op : FileOp Id} {a : Id}
    (me : Identity)
    (hop : Operated io d p op p') (hfresh : a ≠ io.fresh) (hpending : a ∉ p.pc.pending)
    {fd : Option ℕ}
    (h : idOf d fd ≠ some a) : idOf (op.perform me io d) fd ≠ some a := by
  cases fd with
  | none => exact h
  | some fd =>
    unfold idOf recordOf at h ⊢
    dsimp only [Option.bind_some] at h ⊢
    rcases perform_record me io d op fd with heq | ⟨-, heq⟩ | ⟨id, hid, heq⟩
    · rw [heq]
      exact h
    · simp [heq]
    · have hne : id ≠ a := by
        have hdoes := hop.does
        rintro rfl
        rcases hid with rfl | ⟨rfl, -⟩
        · exact hpending hdoes.2
        · exact hdoes.elim hfresh hpending
      simpa [heq, Identity.makeRecord] using hne

theorem operate_after (me : Identity) (io : Io Id) (d : Directory Id) {p : Process Id}
    (h : p.pc.after = true) :
    (operate me io d p).2.pc.after = true ∧ (operate me io d p).2.pc.ids ⊆ p.pc.ids ∧
      (∀ id fd, (operate me io d p).2.pc ≠ .assertRead id fd) ∧
      ((operate me io d p).2.passed = p.passed ∨ ∃ id fd, p.pc = .assertRead id fd ∧
        idOf d fd = some id) := by
  obtain ⟨pc, attempt, lost, failedBeats, alive, passed⟩ := p
  unfold operate
  cases pc
  case beatStamp id =>
    dsimp only [Process.goto, Process.countFailedBeat]
    cases d.named .lease with
    | none => exact ⟨rfl, fun _ h => h, fun _ _ h => (by cases h), .inl rfl⟩
    | some fd =>
      dsimp only
      split_ifs <;> exact ⟨rfl, fun _ h => h, fun _ _ h => (by cases h), .inl rfl⟩
  case assertRead id fd =>
    dsimp only [Process.goto]
    split_ifs with hfails hown
    · exact ⟨rfl, fun _ h => h, fun _ _ h => (by cases h), .inl rfl⟩
    · exact ⟨rfl, fun _ h => h, fun _ _ h => (by cases h), .inr ⟨id, fd, rfl, hown⟩⟩
    · exact ⟨rfl, fun _ h => h, fun _ _ h => (by cases h), .inl rfl⟩
  case beatRead =>
    dsimp only [Process.goto, Process.countFailedBeat]
    split_ifs <;> exact ⟨rfl, fun _ h => h, fun _ _ h => (by cases h), .inl rfl⟩
  case closeRead =>
    dsimp only [Process.goto]
    split_ifs
    · exact ⟨rfl, fun _ h => h, fun _ _ h => (by cases h), .inl rfl⟩
    · exact ⟨rfl, List.nil_subset _, fun _ _ h => (by cases h), .inl rfl⟩
  case closeUnlink => exact ⟨rfl, List.nil_subset _, fun _ _ h => (by cases h), .inl rfl⟩
  case held | closed => exact ⟨rfl, fun _ h => h, fun _ _ h => (by cases h), .inl rfl⟩
  all_goals cases h

omit [DecidableEq Id] in
theorem begin_after (me : Identity) (io : Io Id) (d : Directory Id) (m : Method) {p : Process Id}
    (h : p.pc.after = true) :
    (begin me io d p m).pc.after = true ∧ ∀ id fd, (begin me io d p m).pc = .assertRead id fd →
      fd = d.named .lease ∧ id ∈ p.pc.ids ∨ p.pc = .assertRead id fd := by
  obtain ⟨pc, attempt, lost, failedBeats, alive, passed⟩ := p
  unfold begin
  cases pc
  case held id =>
    cases m
    case assertOwned =>
      dsimp only [Process.goto]
      split_ifs
      · exact ⟨rfl, fun _ _ h => by cases h⟩
      · refine ⟨rfl, fun id' fd h => ?_⟩
        cases h
        exact .inl ⟨rfl, List.mem_singleton_self _⟩
    case beat | close =>
      dsimp only [Process.goto, Process.countFailedBeat]
      split_ifs <;> exact ⟨rfl, fun _ _ h => by cases h⟩
  case assertRead | beatRead | beatStamp | closeRead | closeUnlink | closed =>
    exact ⟨rfl, fun _ _ h => .inr h⟩
  all_goals cases h

/-- A process that lost the lease `a`: no check it has begun can pass. -/
structure Process.Ended (a : Id) (n : Nat) (d : Directory Id) (p : Process Id) : Prop where
  after : p.pc.after = true
  mine : ∀ id ∈ p.pc.ids, id = a
  opened : ∀ id fd, p.pc = .assertRead id fd → idOf d fd ≠ some a
  passed : p.passed = n

theorem Process.Ended.operate {a : Id} {n : Nat} {d d' : Directory Id} {p : Process Id}
    (hp : p.Ended a n d)
    (me : Identity) (io : Io Id) : (operate me io d p).2.Ended a n d' := by
  obtain ⟨hafter, hids, hread, hpassed⟩ := operate_after me io d hp.after
  refine ⟨hafter, fun id h => hp.mine id (hids h), fun id fd h => absurd h (hread id fd), ?_⟩
  rcases hpassed with heq | ⟨id, fd, hpc, hown⟩
  · exact heq.trans hp.passed
  · have hmem : id ∈ p.pc.ids := by
      rw [hpc]
      exact List.mem_singleton_self id
    obtain rfl := hp.mine id hmem
    exact absurd hown (hp.opened id fd hpc)

omit [DecidableEq Id] in
theorem Process.Ended.begin {a : Id} {n : Nat} {d : Directory Id} {p : Process Id}
    (hp : p.Ended a n d)
    (hgone : idOf d (d.named .lease) ≠ some a) (me : Identity) (io : Io Id) (m : Method) :
    (Lease.begin me io d p m).Ended a n d := by
  obtain ⟨hafter, hread⟩ := begin_after me io d m hp.after
  obtain ⟨-, hids, -, -, -, hpassed⟩ := begin_pc me io d p m
  refine ⟨hafter, fun id h => hp.mine id (hids h), fun id fd h => ?_, hpassed.trans hp.passed⟩
  rcases hread id fd h with ⟨rfl, -⟩ | hold
  · exact hgone
  · exact hp.opened id fd hold

variable {who : ι → Identity} {w : World Id ι} {i : ι} {a : Id} {n : Nat}

/-- The lease `a` of the process `i` is gone from the path, for good. -/
structure Displaced (i : ι) (a : Id) (n : Nat) (w : World Id ι) : Prop where
  drawn : a ∈ w.drawn
  gone : idOf w.disk (w.disk.named .lease) ≠ some a
  pending : ∀ j, a ∉ (w.processes j).pc.pending
  ended : (w.processes i).Ended a n w.disk

omit [DecidableEq Id] in
theorem displaced_of_held (hw : Sound who w) (hheld : (w.processes i).pc = .held a)
    (hgone : idOf w.disk (w.disk.named .lease) ≠ some a) :
    Displaced i a (w.processes i).passed w := by
  have hmem : a ∈ (w.processes i).pc.ids := by
    rw [hheld]
    exact List.mem_singleton_self a
  refine ⟨hw.ids i a hmem, hgone, fun j hj => ?_, by rw [hheld]; rfl, fun id hid => ?_,
    fun id fd h => ?_, rfl⟩
  · obtain rfl := hw.apart i j a hmem (Pc.ids_of_pending hj)
    rw [hheld] at hj
    cases hj
  · rw [hheld] at hid
    exact List.mem_singleton.mp hid
  · rw [hheld] at h
    cases h

variable [DecidableEq ι]

theorem Displaced.operate (hw : Sound who w) (hd : Displaced i a n w) (k : ι) {io : Io Id}
    (hfresh : io.fresh ∉ w.drawn) :
    Displaced i a n (w.step who (.operate k io)) := by
  unfold World.step
  dsimp only
  split
  swap
  · exact hd
  have hop := operate_operated (who k) io w.disk (w.processes k)
  have hended := fun hp d' => @Process.Ended.operate _ _ a n w.disk d' (w.processes k) hp (who k) io
  generalize Lease.operate (who k) io w.disk (w.processes k) = r at hop hended
  obtain ⟨op, p⟩ := r
  dsimp only at hop hended ⊢
  -- A fresh identity is never the displaced one.
  have hne : a ≠ io.fresh := fun h => hfresh (h ▸ hd.drawn)
  have hkeeps := fun fd => @perform_idOf _ _ _ _ _ _ _ (who k) hop hne (hd.pending k) fd
  refine ⟨List.mem_cons_of_mem _ hd.drawn, ?_, fun j hj => ?_, ?_⟩
  · show idOf (op.perform (who k) io w.disk) ((op.perform (who k) io w.disk).named .lease) ≠ some a
    rcases perform_named (who k) io w.disk op .lease with heq | ⟨-, heq⟩ | ⟨rfl,
      heq⟩ | ⟨fd, rfl, heq⟩
    · rw [heq]
      exact hkeeps _ hd.gone
    · rw [heq]
      simp [idOf, recordOf]
    · rw [heq]
      simp [idOf, recordOf, FileOp.perform]
    · rw [heq]
      obtain ⟨id, hid, hstaged⟩ := hop.does
      have hrecord := (hw.staged k fd id hstaged).2
      have hida : id ≠ a := fun h => hd.pending k (h ▸ hid)
      simp [idOf, recordOf, FileOp.perform, hrecord, Identity.makeRecord, hida]
  · by_cases hjk : j = k
    · subst hjk
      simp only [World.set, Function.update_self] at hj
      exact (hop.pending a hj).elim hne (hd.pending j)
    · simp only [World.set, Function.update_of_ne hjk] at hj
      exact hd.pending j hj
  · by_cases hik : i = k
    · subst hik
      simp only [World.set, Function.update_self]
      exact hended hd.ended _
    · simp only [World.set, Function.update_of_ne hik]
      exact ⟨hd.ended.after, hd.ended.mine, fun id fd h => hkeeps fd (hd.ended.opened id fd h),
        hd.ended.passed⟩

theorem displaced_step (hw : Sound who w) (hd : Displaced i a n w) (input : Input Id ι)
    (hfresh : Fresh w input) :
    Displaced i a n (w.step who input) := by
  -- A process that takes no operation brings nothing to the directory.
  have hset : ∀ k (p : Process Id), p.pc.pending = (w.processes k).pc.pending →
    (i = k → p.Ended a n w.disk) →
      Displaced i a n (w.set k w.disk p) := by
    intro k p hpending hended
    refine ⟨hd.drawn, hd.gone, fun j hj => ?_, ?_⟩
    · by_cases hjk : j = k
      · subst hjk
        simp only [World.set, Function.update_self] at hj
        exact hd.pending j (hpending ▸ hj)
      · simp only [World.set, Function.update_of_ne hjk] at hj
        exact hd.pending j hj
    · by_cases hik : i = k
      · subst hik
        simp only [World.set, Function.update_self]
        exact hended rfl
      · simp only [World.set, Function.update_of_ne hik]
        exact hd.ended
  cases input with
  | operate k io => exact hd.operate hw k hfresh
  | call k m io =>
    unfold World.step
    dsimp only
    split
    · refine hset k _ (begin_pc (who k) io w.disk (w.processes k) m).2.2.1 ?_
      rintro rfl
      exact hd.ended.begin hd.gone (who i) io m
    · exact hd
  | crash k =>
    refine hset k _ rfl ?_
    rintro rfl
    exact ⟨hd.ended.after, hd.ended.mine, hd.ended.opened, hd.ended.passed⟩

theorem displaced_run (hw : Sound who w) (hheld : (w.processes i).pc = .held a)
    (hgone : idOf w.disk (w.disk.named .lease) ≠ some a) {is : List (Input Id ι)}
    (hfresh : Along (World.step who) Fresh w is) :
    ((run (World.step who) w is).processes i).passed = (w.processes i).passed := by
  have hinv := invariant_of_along (I := fun w' => Sound who w' ∧
    Displaced i a (w.processes i).passed w')
    (fun w' input h hin => ⟨sound_step h.1 input hin, displaced_step h.1 h.2 input hin⟩) hfresh
    ⟨hw, displaced_of_held hw hheld hgone⟩
  exact hinv.2.ended.passed

end Fence

section Runs

variable [DecidableEq Id] [DecidableEq ι] {who : ι → Identity}

/-- What dead processes may have left: names that lead somewhere, and ids that are known. -/
structure Leftover (d : Directory Id) (drawn : List Id) : Prop where
  named : ∀ n fd, d.named n = some fd → fd < d.next
  drawn : ∀ fd r, (d.content fd).record = some r → r.leaseId ∈ drawn

theorem sound_run {d : Directory Id} {drawn : List Id} (hstart : Leftover d drawn)
    {is : List (Input Id ι)}
    (hfresh : Along (World.step who) Fresh (World.start d drawn) is) :
    Sound who (run (World.step who) (World.start d drawn) is) :=
  invariant_of_along (I := Sound who) (fun _ input hw hin => sound_step hw input hin) hfresh
    (sound_start hstart.named hstart.drawn)

/-- Of two processes that both believe to hold the lease, one never passes a check again. -/
theorem run_fenced {d : Directory Id} {drawn : List Id} (hstart : Leftover d drawn)
    (is : List (Input Id ι))
    (hfresh : Along (World.step who) Fresh (World.start d drawn) is) (i j : ι) (hij : i ≠ j)
    (a b : Id)
    (hi : ((run (World.step who) (World.start d drawn) is).processes i).pc = .held a)
    (hj : ((run (World.step who) (World.start d drawn) is).processes j).pc = .held b) :
    (∀ js, Along (World.step who) Fresh (run (World.step who) (World.start d drawn) is) js →
      ((run (World.step who) (World.start d drawn) (is ++ js)).processes i).passed =
        ((run (World.step who) (World.start d drawn) is).processes i).passed) ∨
    ∀ js, Along (World.step who) Fresh (run (World.step who) (World.start d drawn) is) js →
      ((run (World.step who) (World.start d drawn) (is ++ js)).processes j).passed =
        ((run (World.step who) (World.start d drawn) is).processes j).passed := by
  have hw := sound_run hstart hfresh
  have hab : a ≠ b := by
    rintro rfl
    refine hij (hw.apart i j a ?_ ?_)
    · rw [hi]
      exact List.mem_singleton_self a
    · rw [hj]
      exact List.mem_singleton_self a
  by_cases hgone : idOf (run (World.step who) (World.start d drawn) is).disk
      ((run (World.step who) (World.start d drawn) is).disk.named .lease) = some a
  · right
    intro js hjs
    rw [run_append]
    refine displaced_run hw hj ?_ hjs
    rw [hgone]
    exact fun h => hab (Option.some.inj h)
  · left
    intro js hjs
    rw [run_append]
    exact displaced_run hw hi hgone hjs

/-! Two starters take a dead guard over at the same time. -/

def starter (pid : Nat) (processStart : String) : Identity where
  pid := pid
  processStart := processStart
  bootId := "boot"
  pidNamespace := "pid:[4026531836]"
  identityDigest := "files"

def starters : Bool → Identity
  | false => starter 11 "100"
  | true => starter 12 "200"

def showStarters (pid : Nat) : Option String :=
  if pid = 11 then some "100" else if pid = 12 then some "200" else none

/-- A dead process left its lease, and maybe a recovery guard. -/
def deadFiles (guard : Option ℕ) : Directory Nat where
  content fd := ⟨if fd < 2 then some ((starter 7 "50").makeRecord fd) else none, 0⟩
  next := 2
  named
    | .lease => some 0
    | .guard => guard

theorem deadFiles_leftover (guard : Option ℕ) (h : ∀ fd, guard = some fd → fd = 1) :
    Leftover (deadFiles guard) [0, 1] where
  named n fd hn := by
    cases n with
    | lease =>
      cases hn
      exact Nat.zero_lt_two
    | guard =>
      obtain rfl := h fd hn
      exact Nat.one_lt_two
  drawn fd r hr := by
    unfold deadFiles at hr
    dsimp only at hr
    split at hr
    · rename_i hlt
      cases hr
      simp only [Identity.makeRecord]
      interval_cases fd <;> simp
    · cases hr

/-- The processes operate in the order of `turns`. -/
def taking (turns : List Bool) : List (Input Nat Bool) :=
  turns.zipIdx.map fun turn =>
    .operate turn.1 { fresh := 10 + turn.2, now := 0, processStart := showStarters }

instance decidableFresh (w : World Nat Bool) : DecidablePred (Fresh w)
  | .operate _ io => inferInstanceAs (Decidable (io.fresh ∉ w.drawn))
  | .call .. | .crash _ => isTrue trivial

def takeovers : List (Input Nat Bool) :=
  taking (List.replicate 5 false ++ List.replicate 5 true ++ List.replicate 3 false ++
    List.replicate 3 true ++
    List.replicate 5 false ++ List.replicate 6 true)

/-- Both believe to hold the lease; the first one's checks fail from now on. -/
theorem run_fenced_takeovers :
    (∀ js, Along (World.step starters) Fresh
      (run (World.step starters) (World.start (deadFiles (some 1)) [0, 1]) takeovers) js →
      ((run (World.step starters) (World.start (deadFiles (some 1)) [0, 1]) (takeovers ++
        js)).processes false).passed =
        ((run (World.step starters) (World.start (deadFiles (some 1)) [0, 1]) takeovers).processes
          false).passed) ∨
    ∀ js, Along (World.step starters) Fresh
      (run (World.step starters) (World.start (deadFiles (some 1)) [0, 1]) takeovers) js →
      ((run (World.step starters) (World.start (deadFiles (some 1)) [0, 1]) (takeovers ++
        js)).processes true).passed =
        ((run (World.step starters) (World.start (deadFiles (some 1)) [0, 1]) takeovers).processes
          true).passed :=
  run_fenced (deadFiles_leftover (some 1) fun _ h => (Option.some.inj h).symm) takeovers
    (by decide +kernel) false true
    (by decide) 22 25 (by rfl) (by rfl)

end Runs

end QuantaSwap.Serve.Lease
