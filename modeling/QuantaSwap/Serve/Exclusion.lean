import QuantaSwap.Serve.Fence

/-!
# One writer

The processes of one PID namespace, as long as none of them takes a recovery guard over: at most one
of them holds the lease.
-/

set_option autoImplicit false

namespace QuantaSwap.Serve.Lease

open Lib.Files Lib.Run

variable {Id ι : Type}

/-! ## One PID namespace -/

section Namespace

variable [DecidableEq Id]

/-- What an operation does to the two names, by where the process stands. -/
def Pc.Names (pc pc' : Pc Id) : FileOp Id → Prop
  | .unlink .guard => pc.guarded = true ∧ pc'.guarded = false
  | .rename _ .guard => ∃ gid fd, pc = .takeGuard gid fd
  | .unlink .lease => ∃ id, pc.claims = some id
  | .rename fd .lease => ∃ gid id, pc = .takeLease gid id fd
  | _ => True

/-- How a process comes to hold the guard, to judge the lease and to claim it. -/
structure Guards (me : Identity) (io : Io Id) (d : Directory Id) (p : Process Id) (op : FileOp Id)
    (p' : Process Id) :
    Prop where
  window : p'.pc.guarded = true → p.pc.guarded = true ∨ op = .create .guard ∨
    ∃ gid fd, p.pc = .takeGuard gid fd
  names : p.pc.Names p'.pc op
  judges : ∀ gid fd, p'.pc = .judge gid fd → op = .nothing ∧ fd = d.named .lease
  cleared : p'.pc.cleared = true → p.pc.cleared = true ∨
    ∃ gid fd, p.pc = .judge gid fd ∧ isLiveLease (fd.map d.content) (me.liveness io) = false
  creates : ∀ gid id fd, p'.pc = .writeLease gid id fd → op = .create .lease ∧ fd = d.next
  claims : ∀ id, p'.pc.claims = some id →
    (p.pc.claims = some id ∧ (op = .nothing ∨ op = .unlink .guard ∨ ∃ fd, op = .stamp fd)) ∨
      ∃ gid fd, p.pc = .writeLease gid id fd ∧ op = .write fd id ∨ p.pc = .takeLease gid id fd ∧
        op = .rename fd .lease

theorem operate_guards (me : Identity) (io : Io Id) (d : Directory Id) (p : Process Id) :
    Guards me io d p (operate me io d p).1 (operate me io d p).2 := by
  obtain ⟨pc, attempt, lost, failedBeats, alive, passed⟩ := p
  -- Nothing but the position changes, and the position says nothing about the guard or the lease.
  have hplain :
    ∀ (op : FileOp Id) (pc' : Pc Id) (attempt' failedBeats' passed' : Nat) (lost' : Bool),
      (pc'.guarded = true → pc.guarded = true) → pc.Names pc' op → (∀ gid fd, pc' ≠ .judge gid fd) →
      pc'.cleared = false → (∀ id, pc'.claims = some id → pc.claims = some id ∧ op = .nothing) →
      Guards me io d ⟨pc, attempt, lost, failedBeats, alive, passed⟩ op
        ⟨pc', attempt', lost', failedBeats', alive, passed'⟩ := by
    intro op pc' attempt' failedBeats' passed' lost' hguarded hnames hjudge hcleared hclaims
    refine ⟨fun h => .inl (hguarded h), hnames, fun gid fd h => absurd h (hjudge gid fd),
      fun h => ?_,
      fun gid id fd h => ?_, fun id h => .inl ⟨(hclaims id h).1, .inl (hclaims id h).2⟩⟩
    · rw [hcleared] at h
      cases h
    · rw [show pc' = _ from h] at hcleared
      cases hcleared
  unfold operate
  cases pc
  case createGuard gid =>
    dsimp only [Process.goto]
    split_ifs
    · exact hplain _ _ _ _ _ _ (fun h => by cases h) trivial (fun _ _ h => by cases h) rfl
        (fun _ h => by cases h)
    · exact hplain _ _ _ _ _ _ (fun h => by cases h) trivial (fun _ _ h => by cases h) rfl
        (fun _ h => by cases h)
    · exact hplain _ _ _ _ _ _ (fun h => by cases h) trivial (fun _ _ h => by cases h) rfl
        (fun _ h => by cases h)
    · exact ⟨fun _ => .inr (.inl rfl), trivial, fun _ _ h => (by cases h), fun h => (by cases h),
        fun _ _ _ h => (by cases h), fun _ h => (by cases h)⟩
  case takeGuard gid fd =>
    dsimp only [Process.goto]
    split_ifs
    · exact hplain _ _ _ _ _ _ (fun h => by cases h) trivial (fun _ _ h => by cases h) rfl
        (fun _ h => by cases h)
    · exact hplain _ _ _ _ _ _ (fun h => by cases h) ⟨gid, fd,
        rfl⟩ (fun _ _ h => by cases h) rfl (fun _ h => by cases h)
    · exact ⟨fun _ => .inr (.inr ⟨gid, fd, rfl⟩), ⟨gid, fd, rfl⟩, fun _ _ h => (by cases h),
        fun h => (by cases h),
        fun _ _ _ h => (by cases h), fun _ h => (by cases h)⟩
  case check gid =>
    dsimp only [Process.goto]
    split_ifs
    · exact hplain _ _ _ _ _ _ (fun _ => rfl) trivial (fun _ _ h => by cases h) rfl
        (fun _ h => by cases h)
    · refine ⟨fun _ => .inl rfl, trivial, fun gid' fd h => ?_, fun h => (by cases h),
        fun _ _ _ h => (by cases h),
        fun _ h => (by cases h)⟩
      cases h
      exact ⟨rfl, rfl⟩
  case judge gid fd =>
    dsimp only [Process.goto]
    split_ifs with hlive hnone
    · exact hplain _ _ _ _ _ _ (fun _ => rfl) trivial (fun _ _ h => by cases h) rfl
        (fun _ h => by cases h)
    all_goals
      have hdead := Bool.eq_false_iff.mpr (not_or.mp hlive).2
      exact ⟨fun _ => .inl rfl, trivial, fun _ _ h => (by cases h),
        fun _ => .inr ⟨gid, fd, rfl, hdead⟩,
        fun _ _ _ h => (by cases h), fun _ h => (by cases h)⟩
  case createLease gid id =>
    dsimp only [Process.goto]
    split_ifs
    · exact hplain _ _ _ _ _ _ (fun _ => rfl) trivial (fun _ _ h => by cases h) rfl
        (fun _ h => by cases h)
    · exact hplain _ _ _ _ _ _ (fun _ => rfl) trivial (fun _ _ h => by cases h) rfl
        (fun _ h => by cases h)
    · exact hplain _ _ _ _ _ _ (fun _ => rfl) trivial (fun _ _ h => by cases h) rfl
        (fun _ h => by cases h)
    · refine ⟨fun _ => .inl rfl, trivial, fun _ _ h => (by cases h), fun _ => .inl rfl,
        fun gid' id' fd h => ?_,
        fun _ h => (by cases h)⟩
      cases h
      exact ⟨rfl, rfl⟩
  case writeLease gid id fd =>
    dsimp only [Process.goto]
    split_ifs
    · exact hplain _ _ _ _ _ _ (fun _ => rfl) trivial (fun _ _ h => by cases h) rfl
        (fun _ h => by cases h)
    · exact hplain _ _ _ _ _ _ (fun _ => rfl) trivial (fun _ _ h => by cases h) rfl
        (fun _ h => by cases h)
    · refine ⟨fun _ => .inl rfl, trivial, fun _ _ h => (by cases h), fun h => (by cases h),
        fun _ _ _ h => (by cases h),
        fun id' h => .inr ⟨gid, fd, .inl ?_⟩⟩
      cases h
      exact ⟨rfl, rfl⟩
  case takeLease gid id fd =>
    dsimp only [Process.goto]
    split_ifs
    · exact hplain _ _ _ _ _ _ (fun _ => rfl) trivial (fun _ _ h => by cases h) rfl
        (fun _ h => by cases h)
    · exact hplain _ _ _ _ _ _ (fun _ => rfl) ⟨gid, id,
        rfl⟩ (fun _ _ h => by cases h) rfl (fun _ h => by cases h)
    · refine ⟨fun _ => .inl rfl, ⟨gid, id, rfl⟩, fun _ _ h => (by cases h), fun h => (by cases h),
        fun _ _ _ h => (by cases h), fun id' h => .inr ⟨gid, fd, .inr ?_⟩⟩
      cases h
      exact ⟨rfl, rfl⟩
  case confirmRead gid id fd =>
    dsimp only [Process.goto]
    split_ifs
    · exact hplain _ _ _ _ _ _ (fun _ => rfl) trivial (fun _ _ h => by cases h) rfl
        (fun _ h => by cases h)
    · exact hplain _ _ _ _ _ _ (fun _ => rfl) trivial (fun _ _ h => by cases h) rfl
        (fun _ h => ⟨h, rfl⟩)
    · exact hplain _ _ _ _ _ _ (fun _ => rfl) trivial (fun _ _ h => by cases h) rfl
        (fun _ h => by cases h)
  case unguardRead gid outcome fd =>
    dsimp only [Process.goto]
    split_ifs
    · exact hplain _ _ _ _ _ _ (fun h => by cases h) trivial (fun _ _ h => by cases h) rfl
        (fun _ h => by cases h)
    · exact hplain _ _ _ _ _ _ (fun _ => rfl) trivial (fun _ _ h => by cases h) rfl
        (fun _ h => ⟨h, rfl⟩)
    · cases outcome with
      | held id =>
        exact hplain _ _ _ _ _ _ (fun h => by cases h) trivial (fun _ _ h => by cases h) rfl
          (fun _ h => ⟨h, rfl⟩)
      | retry | thrown =>
        exact hplain _ _ _ _ _ _ (fun h => by cases h) trivial (fun _ _ h => by cases h) rfl
          (fun _ h => by cases h)
  case unlinkGuard gid outcome =>
    dsimp only [Process.goto]
    split_ifs
    · exact hplain _ _ _ _ _ _ (fun h => by cases h) trivial (fun _ _ h => by cases h) rfl
        (fun _ h => by cases h)
    · exact hplain _ _ _ _ _ _ (fun h => by cases h) ⟨rfl,
        rfl⟩ (fun _ _ h => by cases h) rfl (fun _ h => by cases h)
    · cases outcome with
      | held id =>
        exact ⟨fun h => (by cases h), ⟨rfl, rfl⟩, fun _ _ h => (by cases h), fun h => (by cases h),
          fun _ _ _ h => (by cases h), fun _ h => .inl ⟨h, .inr (.inl rfl)⟩⟩
      | retry | thrown =>
        exact hplain _ _ _ _ _ _ (fun h => by cases h) ⟨rfl,
          rfl⟩ (fun _ _ h => by cases h) rfl (fun _ h => by cases h)
  case beatStamp id =>
    dsimp only [Process.goto, Process.countFailedBeat]
    cases d.named .lease with
    | none =>
      exact hplain _ _ _ _ _ _ (fun h => h) trivial (fun _ _ h => by cases h) rfl
        (fun _ h => ⟨h, rfl⟩)
    | some fd =>
      dsimp only
      split_ifs
      · exact hplain _ _ _ _ _ _ (fun h => h) trivial (fun _ _ h => by cases h) rfl
          (fun _ h => ⟨h, rfl⟩)
      all_goals
        exact ⟨fun h => (by cases h), trivial, fun _ _ h => (by cases h), fun h => (by cases h),
          fun _ _ _ h => (by cases h), fun _ h => .inl ⟨h, .inr (.inr ⟨fd, rfl⟩)⟩⟩
  case closeUnlink id =>
    dsimp only [Process.goto]
    split_ifs
    · exact hplain _ _ _ _ _ _ (fun h => by cases h) trivial (fun _ _ h => by cases h) rfl
        (fun _ h => by cases h)
    · exact hplain _ _ _ _ _ _ (fun h => by cases h) ⟨id, rfl⟩ (fun _ _ h => by cases h) rfl
        (fun _ h => by cases h)
  case refused | closed =>
    exact hplain _ _ _ _ _ _ (fun h => h) trivial (fun _ _ h => by cases h) rfl
      (fun _ h => by cases h)
  case held =>
    exact hplain _ _ _ _ _ _ (fun h => h) trivial (fun _ _ h => by cases h) rfl
      (fun _ h => ⟨h, rfl⟩)
  case attempt | observe | openGuard | judgeGuard =>
    dsimp only [Process.goto, Process.leave]
    split_ifs <;>
      exact hplain _ _ _ _ _ _ (fun h => by cases h) trivial (fun _ _ h => by cases h) rfl
        (fun _ h => by cases h)
  case writeGuard gid fd =>
    dsimp only [Process.goto]
    split_ifs
    · exact hplain _ _ _ _ _ _ (fun h => by cases h) trivial (fun _ _ h => by cases h) rfl
        (fun _ h => by cases h)
    · exact hplain _ _ _ _ _ _ (fun h => by cases h) trivial (fun _ _ h => by cases h) rfl
        (fun _ h => by cases h)
    · exact hplain _ _ _ _ _ _ (fun _ => rfl) trivial (fun _ _ h => by cases h) rfl
        (fun _ h => by cases h)
  case confirm gid id =>
    dsimp only [Process.goto]
    split_ifs
    · exact hplain _ _ _ _ _ _ (fun _ => rfl) trivial (fun _ _ h => by cases h) rfl
        (fun _ h => by cases h)
    · exact hplain _ _ _ _ _ _ (fun _ => rfl) trivial (fun _ _ h => by cases h) rfl
        (fun _ h => ⟨h, rfl⟩)
  case unguard gid outcome =>
    dsimp only [Process.goto]
    split_ifs
    · exact hplain _ _ _ _ _ _ (fun h => by cases h) trivial (fun _ _ h => by cases h) rfl
        (fun _ h => by cases h)
    · exact hplain _ _ _ _ _ _ (fun _ => rfl) trivial (fun _ _ h => by cases h) rfl
        (fun _ h => ⟨h, rfl⟩)
  case assertRead | beatRead =>
    dsimp only [Process.goto, Process.countFailedBeat]
    split_ifs <;> exact hplain _ _ _ _ _ _ (fun h => h) trivial (fun _ _ h => by cases h) rfl
      (fun _ h => ⟨h, rfl⟩)
  case closeRead id fd =>
    dsimp only [Process.goto]
    split_ifs
    · exact hplain _ _ _ _ _ _ (fun h => h) trivial (fun _ _ h => by cases h) rfl
        (fun _ h => ⟨h, rfl⟩)
    · exact hplain _ _ _ _ _ _ (fun h => h) trivial (fun _ _ h => by cases h) rfl
        (fun _ h => by cases h)

omit [DecidableEq Id] in
theorem Pc.claims_of_cleared {pc : Pc Id} (h : pc.cleared = true) :
    pc.claims = none ∧ pc.guarded = true := by
  cases pc
  case createLease | writeLease | takeLease => exact ⟨rfl, rfl⟩
  all_goals cases h

omit [DecidableEq Id] in
theorem Pc.claims_ids {pc : Pc Id} {id : Id} (h : pc.claims = some id) : id ∈ pc.ids := by
  cases pc
  case unguard gid outcome | unguardRead gid outcome fd | unlinkGuard gid outcome =>
    cases outcome
    · cases h
    · cases h
    · cases h
      simp [Pc.ids, Outcome.lease]
  case confirm | confirmRead =>
    cases h
    simp [Pc.ids]
  case held | assertRead | beatRead | beatStamp | closeRead | closeUnlink =>
    cases h
    exact List.mem_singleton_self _
  all_goals cases h

omit [DecidableEq Id] in
theorem isLiveLease_peer {me : Identity} {io : Io Id} {r : LeaseRecord Id} {d : Directory Id}
    {fd : Option ℕ}
    (hr : recordOf d fd = some r) (hknown : me.pidNamespace ≠ UNKNOWN_PID_NAMESPACE)
    (hns : r.pidNamespace = me.pidNamespace) (hboot : r.bootId = me.bootId)
    (hproc : io.processStart r.pid = some r.processStart) :
    isLiveLease (fd.map d.content) (me.liveness io) = true := by
  cases fd with
  | none => cases hr
  | some fd =>
    have hrecord : (d.content fd).record = some r := hr
    simp [isLiveLease, isLive, usesPidSemantics, Identity.liveness, hrecord, hns, hboot,
      hknown, hproc]

variable {who : ι → Identity} {w : World Id ι}

/-- The processes see each other's process numbers. -/
structure Peers (who : ι → Identity) (pidNamespace bootId : String) : Prop where
  known : pidNamespace ≠ UNKNOWN_PID_NAMESPACE
  pidNamespace : ∀ i, (who i).pidNamespace = pidNamespace
  bootId : ∀ i, (who i).bootId = bootId

/-- Ids are fresh, `/proc` shows the processes that run, and no process takes a recovery guard
over. -/
def Orderly (who : ι → Identity) (w : World Id ι) : Input Id ι → Prop
  | .operate i io =>
    io.fresh ∉ w.drawn ∧
      (∀ j, (w.processes j).alive = true →
        io.processStart (who j).pid = some (who j).processStart) ∧
      (w.processes i).pc.takesGuard = false
  | .call .. | .crash _ => True

omit [DecidableEq Id] in
theorem fresh_of_orderly (input : Input Id ι) (h : Orderly who w input) : Fresh w input := by
  cases input with
  | operate i io => exact h.1
  | call | crash => trivial

/-- One process at a time is behind the recovery guard, and the lease on the path is that of the
living process that claims one. -/
structure Exclusive (who : ι → Identity) (w : World Id ι) : Prop where
  guarded : ∀ i j, (w.processes i).pc.guarded = true → (w.processes j).pc.guarded = true → i = j
  guard : ∀ i, (w.processes i).pc.guarded = true → w.disk.named .guard ≠ none
  judged : ∀ i gid fd, (w.processes i).pc = .judge gid fd → ∀ j id, (w.processes j).alive = true →
    (w.processes j).pc.claims = some id → recordOf w.disk fd = some ((who j).makeRecord id)
  judges : ∀ i gid fd, (w.processes i).pc = .judge gid (some fd) → fd < w.disk.next
  cleared : ∀ i, (w.processes i).pc.cleared = true → ∀ j, (w.processes j).alive = true →
    (w.processes j).pc.claims = none
  created : ∀ i gid id fd, (w.processes i).pc = .writeLease gid id fd →
    w.disk.named .lease = some fd
  claimed : ∀ i id, (w.processes i).alive = true → (w.processes i).pc.claims = some id →
    recordOf w.disk (w.disk.named .lease) = some ((who i).makeRecord id)

omit [DecidableEq Id] in
theorem exclusive_start {d : Directory Id} {drawn : List Id} :
    Exclusive who (World.start d drawn : World Id ι) where
  guarded _ _ h := by cases h
  guard _ h := by cases h
  judged _ _ _ h := by cases h
  judges _ _ _ h := by cases h
  cleared _ h := by cases h
  created _ _ _ _ h := by cases h
  claimed _ _ _ h := by cases h

omit [DecidableEq Id] in
theorem recordOf_perform (hw : Sound who w) {i : ι} {io : Io Id} {op : FileOp Id} {p : Process Id}
    (hop : Operated io w.disk (w.processes i) op p) {fd : Option ℕ} {r : LeaseRecord Id}
    (hnext : ∀ f, fd = some f → f < w.disk.next) (hr : recordOf w.disk fd = some r) :
    recordOf (op.perform (who i) io w.disk) fd = some r := by
  cases fd with
  | none => cases hr
  | some fd =>
    have hlt := hnext fd rfl
    have hrecord : (w.disk.content fd).record = some r := hr
    rcases perform_record (who i) io w.disk op fd with heq | ⟨rfl, -⟩ | ⟨id, hid, -⟩
    · exact heq.trans hrecord
    · exact absurd hlt (Nat.lt_irrefl _)
    · rcases hid with rfl | ⟨-, rfl⟩
      · rw [(hw.blank i fd hop.does.1).2] at hrecord
        cases hrecord
      · exact absurd hlt (Nat.lt_irrefl _)

omit [DecidableEq Id] in
theorem named_perform (hw : Sound who w) (he : Exclusive who w) {i k : ι} (hik : i ≠ k) {io : Io Id}
    {op : FileOp Id}
    {p : Process Id} (hop : Operated io w.disk (w.processes k) op p)
    (hnames : (w.processes k).pc.Names p.pc op) {id : Id} (halive : (w.processes i).alive = true)
    (hk : (w.processes k).alive = true) (hclaims : (w.processes i).pc.claims = some id) :
    (op.perform (who k) io w.disk).named .lease = w.disk.named .lease := by
  have hclaimed := he.claimed i id halive hclaims
  rcases perform_named (who k) io w.disk op .lease with heq | ⟨rfl, -⟩ | ⟨rfl, -⟩ | ⟨fd, rfl, -⟩
  · exact heq
  · obtain ⟨id', hid'⟩ := hnames
    have hsame := Option.some.inj (hclaimed.symm.trans (he.claimed k id' hk hid'))
    have hids : id = id' := congrArg LeaseRecord.leaseId hsame
    subst hids
    exact absurd (hw.apart i k id (Pc.claims_ids hclaims) (Pc.claims_ids hid')) hik
  · rw [show w.disk.named .lease = none from hop.does] at hclaimed
    cases hclaimed
  · obtain ⟨gid, id', hpc⟩ := hnames
    rw [he.cleared k (by rw [hpc]; rfl) i halive] at hclaims
    cases hclaims

variable [DecidableEq ι]

omit [DecidableEq Id] in
theorem Exclusive.operate {ns boot : String} (hpeers : Peers who ns boot) (hw : Sound who w)
    (he : Exclusive who w)
    {k : ι} {io : Io Id} (hk : (w.processes k).alive = true) (hin : Orderly who w (.operate k io))
    {op : FileOp Id}
    {p : Process Id} (hop : Operated io w.disk (w.processes k) op p)
    (hg : Guards (who k) io w.disk (w.processes k) op p) :
    Exclusive who
      { w.set k (op.perform (who k) io w.disk) p with drawn := io.fresh :: w.drawn } := by
  obtain ⟨-, hproc, htakes⟩ := hin
  have hcases : ∀ j, j = k ∧ (w.set k (op.perform (who k) io w.disk) p).processes j = p ∨
      j ≠ k ∧ (w.set k (op.perform (who k) io w.disk) p).processes j = w.processes j := by
    intro j
    by_cases hj : j = k
    · exact .inl ⟨hj, by simp [World.set, hj]⟩
    · exact .inr ⟨hj, by simp [World.set, hj]⟩
  have hwindow : p.pc.guarded = true → (w.processes k).pc.guarded = true ∨ op = .create .guard := by
    intro h
    rcases hg.window h with h | h | ⟨gid, fd, h⟩
    · exact .inl h
    · exact .inr h
    · rw [h] at htakes
      cases htakes
  -- A process that installs its lease does so behind the guard.
  have hinstalls : ∀ id, p.pc.claims = some id → (w.processes k).pc.claims = some id ∨
    (w.processes k).pc.guarded = true := by
    intro id h
    rcases hg.claims id h with ⟨h, -⟩ | ⟨gid, fd, ⟨h, -⟩ | ⟨h, -⟩⟩
    · exact .inl h
    · right
      rw [h]
      rfl
    · right
      rw [h]
      rfl
  have hnames := hg.names
  have halone : p.pc.guarded = true → ∀ j, j ≠ k → (w.processes j).pc.guarded ≠ true := by
    intro h j hj hguarded
    rcases hwindow h with hold | rfl
    · exact hj (he.guarded j k hguarded hold)
    · exact he.guard j hguarded hop.does
  set w' := w.set k (op.perform (who k) io w.disk) p with hw'
  have hdisk : w'.disk = op.perform (who k) io w.disk := rfl
  refine ⟨fun i j hi hj => ?_, fun i hi => ?_, fun i gid fd hi j id halive hclaims => ?_,
    fun i gid fd hi => ?_,
    fun i hi j halive => ?_, fun i gid id fd hi => ?_, fun i id halive hclaims => ?_⟩
  · change (w'.processes i).pc.guarded = true at hi
    change (w'.processes j).pc.guarded = true at hj
    rcases hcases i with ⟨rfl, hpi⟩ | ⟨hik, hpi⟩ <;> rcases hcases j with ⟨rfl, hpj⟩ | ⟨hjk, hpj⟩
    · rfl
    · rw [hpi] at hi
      rw [hpj] at hj
      exact absurd hj (halone hi j hjk)
    · rw [hpi] at hi
      rw [hpj] at hj
      exact absurd hi (halone hj i hik)
    · rw [hpi] at hi
      rw [hpj] at hj
      exact he.guarded i j hi hj
  · change (w'.processes i).pc.guarded = true at hi
    show (op.perform (who k) io w.disk).named .guard ≠ none
    rcases perform_named (who k) io w.disk op .guard with heq | ⟨rfl, -⟩ | ⟨-, heq⟩ | ⟨fd, -, heq⟩
    · rcases hcases i with ⟨rfl, hpi⟩ | ⟨hik, hpi⟩
      · rw [hpi] at hi
        rcases hwindow hi with hold | rfl
        · rw [heq]
          exact he.guard i hold
        · simp [FileOp.perform]
      · rw [hpi] at hi
        rw [heq]
        exact he.guard i hi
    · rcases hcases i with ⟨rfl, hpi⟩ | ⟨hik, hpi⟩
      · rw [hpi, hnames.2] at hi
        cases hi
      · rw [hpi] at hi
        exact absurd (he.guarded i k hi hnames.1) hik
    · rw [heq]
      exact Option.some_ne_none _
    · rw [heq]
      exact Option.some_ne_none _
  · change (w'.processes i).pc = _ at hi
    change (w'.processes j).alive = true at halive
    change (w'.processes j).pc.claims = some id at hclaims
    show recordOf (op.perform (who k) io w.disk) fd = _
    rcases hcases i with ⟨rfl, hpi⟩ | ⟨hik, hpi⟩
    · rw [hpi] at hi
      obtain ⟨rfl, rfl⟩ := hg.judges gid fd hi
      rcases hcases j with ⟨rfl, hpj⟩ | ⟨hjk, hpj⟩
      · rw [hpj, hi] at hclaims
        cases hclaims
      · rw [hpj] at halive hclaims
        exact he.claimed j id halive hclaims
    · rw [hpi] at hi
      have hopened : ∀ f, fd = some f → f < w.disk.next := by
        rintro f rfl
        exact he.judges i gid f hi
      refine recordOf_perform hw hop hopened ?_
      rcases hcases j with ⟨rfl, hpj⟩ | ⟨hjk, hpj⟩
      · rw [hpj] at hclaims
        rcases hinstalls id hclaims with hold | hguarded
        · exact he.judged i gid fd hi j id hk hold
        · exact absurd (he.guarded i j (by rw [hi]; rfl) hguarded) hik
      · rw [hpj] at halive hclaims
        exact he.judged i gid fd hi j id halive hclaims
  · change (w'.processes i).pc = _ at hi
    show fd < (op.perform (who k) io w.disk).next
    refine lt_of_lt_of_le ?_ (perform_next (who k) io w.disk op)
    rcases hcases i with ⟨rfl, hpi⟩ | ⟨hik, hpi⟩
    · rw [hpi] at hi
      exact hw.named .lease fd (hg.judges gid _ hi).2.symm
    · rw [hpi] at hi
      exact he.judges i gid fd hi
  · change (w'.processes i).pc.cleared = true at hi
    change (w'.processes j).alive = true at halive
    show (w'.processes j).pc.claims = none
    rcases hcases i with ⟨rfl, hpi⟩ | ⟨hik, hpi⟩
    · rw [hpi] at hi
      rcases hcases j with ⟨rfl, hpj⟩ | ⟨hjk, hpj⟩
      · rw [hpj]
        exact (Pc.claims_of_cleared hi).1
      · rw [hpj] at halive ⊢
        rcases hg.cleared hi with hold | ⟨gid, fd, hjudge, hdead⟩
        · exact he.cleared i hold j halive
        · cases hclaims : (w.processes j).pc.claims with
          | none => rfl
          | some id =>
            have hrecord := he.judged i gid fd hjudge j id halive hclaims
            have hlive :=
              @isLiveLease_peer _ (who i) _ _ _ _ hrecord (hpeers.pidNamespace i ▸ hpeers.known)
              ((hpeers.pidNamespace j).trans (hpeers.pidNamespace i).symm)
              ((hpeers.bootId j).trans (hpeers.bootId i).symm) (hproc j halive)
            rw [hdead] at hlive
            cases hlive
    · rw [hpi] at hi
      rcases hcases j with ⟨rfl, hpj⟩ | ⟨hjk, hpj⟩
      · rw [hpj]
        cases hclaims : p.pc.claims with
        | none => rfl
        | some id =>
          rcases hinstalls id hclaims with hold | hguarded
          · rw [he.cleared i hi j hk] at hold
            cases hold
          · exact absurd (he.guarded i j (Pc.claims_of_cleared hi).2 hguarded) hik
      · rw [hpj] at halive ⊢
        exact he.cleared i hi j halive
  · change (w'.processes i).pc = _ at hi
    show (op.perform (who k) io w.disk).named .lease = some fd
    rcases hcases i with ⟨rfl, hpi⟩ | ⟨hik, hpi⟩
    · rw [hpi] at hi
      obtain ⟨rfl, rfl⟩ := hg.creates gid id fd hi
      simp [FileOp.perform]
    · rw [hpi] at hi
      have hcreated := he.created i gid id fd hi
      have hclear : (w.processes i).pc.cleared = true := by rw [hi]; rfl
      rcases perform_named (who k) io w.disk op .lease with heq | ⟨rfl, -⟩ | ⟨rfl,
        -⟩ | ⟨fd', rfl, -⟩
      · rw [heq]
        exact hcreated
      · obtain ⟨id', hid'⟩ := hnames
        rw [he.cleared i hclear k hk] at hid'
        cases hid'
      · rw [show w.disk.named .lease = none from hop.does] at hcreated
        cases hcreated
      · obtain ⟨gid', id', hpc⟩ := hnames
        exact absurd (he.guarded i k (Pc.claims_of_cleared hclear).2 (by rw [hpc]; rfl)) hik
  · change (w'.processes i).alive = true at halive
    change (w'.processes i).pc.claims = some id at hclaims
    show recordOf (op.perform (who k) io w.disk) ((op.perform (who k) io w.disk).named .lease) = _
    rcases hcases i with ⟨rfl, hpi⟩ | ⟨hik, hpi⟩
    · rw [hpi] at hclaims
      rcases hg.claims id hclaims with ⟨hold, hquiet⟩ | ⟨gid, fd, ⟨hpc, rfl⟩ | ⟨hpc, rfl⟩⟩
      · have hclaimed := recordOf_perform hw hop (hw.named .lease) (he.claimed i id hk hold)
        have hsame : (op.perform (who i) io w.disk).named .lease = w.disk.named .lease := by
          rcases hquiet with rfl | rfl | ⟨fd, rfl⟩
          · rfl
          · exact Disk.unlink_named (by decide)
          · rfl
        rw [hsame]
        exact hclaimed
      · have hcreated := he.created i gid id fd hpc
        simp [FileOp.perform, hcreated, recordOf]
      · have hstaged := (hw.staged i fd id (by rw [hpc]; rfl)).2
        simpa [FileOp.perform, recordOf] using hstaged
    · rw [hpi] at halive hclaims
      rw [named_perform hw he hik hop hnames halive hk hclaims]
      exact recordOf_perform hw hop (hw.named .lease) (he.claimed i id halive hclaims)

omit [DecidableEq Id] [DecidableEq ι] in
theorem begin_claims (me : Identity) (io : Io Id) (d : Directory Id) (p : Process Id) (m : Method) :
    (∀ id, (begin me io d p m).pc.claims = some id → p.pc.claims = some id) ∧
      (begin me io d p m).pc.guarded = p.pc.guarded ∧
      (begin me io d p m).pc.cleared = p.pc.cleared ∧
      ((begin me io d p m).pc = p.pc ∨ (begin me io d p m).pc.guarded = false) := by
  obtain ⟨pc, attempt, lost, failedBeats, alive, passed⟩ := p
  unfold begin
  cases pc
  case held id =>
    cases m <;> dsimp only [Process.goto, Process.countFailedBeat] <;> split_ifs <;>
      first
        | exact ⟨fun _ h => h, rfl, rfl, .inr rfl⟩
        | exact ⟨fun _ h => (by cases h), rfl, rfl, .inr rfl⟩
  all_goals exact ⟨fun _ h => h, rfl, rfl, .inl rfl⟩

omit [DecidableEq Id] in
theorem Exclusive.set (he : Exclusive who w) (k : ι) {p : Process Id}
    (halive : p.alive = true → (w.processes k).alive = true)
    (hclaims : ∀ id, p.pc.claims = some id → (w.processes k).pc.claims = some id)
    (hguarded : p.pc.guarded = (w.processes k).pc.guarded)
    (hcleared : p.pc.cleared = (w.processes k).pc.cleared)
    (hpc : p.pc = (w.processes k).pc ∨ p.pc.guarded = false) :
    Exclusive who (w.set k w.disk p) := by
  -- The step moved process `k` alone, and out of no guarded place into one.
  have hpos : ∀ i, ((w.set k w.disk p).processes i).pc = (w.processes i).pc ∨
      ((w.set k w.disk p).processes i).pc.guarded = false := by
    intro i
    by_cases hi : i = k
    · subst hi
      simpa [World.set] using hpc
    · simp [World.set, hi]
  have hlives : ∀ i, ((w.set k w.disk p).processes i).alive = true →
    (w.processes i).alive = true := by
    intro i h
    by_cases hi : i = k
    · subst hi
      exact halive (by simpa [World.set] using h)
    · simpa [World.set, hi] using h
  have hheld : ∀ i id, ((w.set k w.disk p).processes i).pc.claims = some id →
    (w.processes i).pc.claims = some id := by
    intro i id h
    by_cases hi : i = k
    · subst hi
      exact hclaims id (by simpa [World.set] using h)
    · simpa [World.set, hi] using h
  have hwindow : ∀ i, ((w.set k w.disk p).processes i).pc.guarded = (w.processes i).pc.guarded := by
    intro i
    by_cases hi : i = k
    · subst hi
      simp [World.set, hguarded]
    · simp [World.set, hi]
  have hclear : ∀ i, ((w.set k w.disk p).processes i).pc.cleared = (w.processes i).pc.cleared := by
    intro i
    by_cases hi : i = k
    · subst hi
      simp [World.set, hcleared]
    · simp [World.set, hi]
  have hat : ∀ i (pc : Pc Id), pc.guarded = true → ((w.set k w.disk p).processes i).pc = pc →
    (w.processes i).pc = pc := by
    intro i pc hg h
    rcases hpos i with heq | hout
    · exact heq.symm.trans h
    · rw [h, hg] at hout
      cases hout
  exact {
    guarded := fun i j hi hj => he.guarded i j (hwindow i ▸ hi) (hwindow j ▸ hj)
    guard := fun i hi => he.guard i (hwindow i ▸ hi)
    judged := fun i gid fd hi j id hj hc => he.judged i gid fd (hat i _ rfl hi) j id (hlives j hj)
      (hheld j id hc)
    judges := fun i gid fd hi => he.judges i gid fd (hat i _ rfl hi)
    cleared := fun i hi j hj => by
      cases hc : ((w.set k w.disk p).processes j).pc.claims with
      | none => rfl
      | some id =>
        have hnone := he.cleared i (hclear i ▸ hi) j (hlives j hj)
        rw [hheld j id hc] at hnone
        cases hnone
    created := fun i gid id fd hi => he.created i gid id fd (hat i _ rfl hi)
    claimed := fun i id hi hc => he.claimed i id (hlives i hi) (hheld i id hc) }

theorem exclusive_step {ns boot : String} (hpeers : Peers who ns boot) (hw : Sound who w)
    (he : Exclusive who w)
    (input : Input Id ι) (hin : Orderly who w input) : Exclusive who (w.step who input) := by
  cases input with
  | operate k io =>
    unfold World.step
    dsimp only
    split
    · rename_i halive
      exact he.operate hpeers hw halive hin (operate_operated (who k) io w.disk (w.processes k))
        (operate_guards (who k) io w.disk (w.processes k))
    · exact he
  | call k m io =>
    unfold World.step
    dsimp only
    split
    · obtain ⟨hclaims, hguarded, hcleared, hpc⟩ := begin_claims (who k) io w.disk (w.processes k) m
      exact he.set k (fun h => (begin_pc (who k) io w.disk (w.processes k) m).1 ▸ h) hclaims
        hguarded hcleared hpc
    · exact he
  | crash k => exact he.set k (fun h => by cases h) (fun _ h => h) rfl rfl (.inl rfl)

/-- Whatever dead processes left, no two living processes of one PID namespace hold the lease, and
the path carries the one that is held. -/
theorem run_excludes {ns boot : String} (hpeers : Peers who ns boot) {d : Directory Id}
    {drawn : List Id}
    (hstart : Leftover d drawn) (is : List (Input Id ι))
    (horderly : Along (World.step who) (Orderly who) (World.start d drawn) is) (i j : ι) (a b : Id)
    (hi : ((run (World.step who) (World.start d drawn) is).processes i).pc.holds = some a)
    (hj : ((run (World.step who) (World.start d drawn) is).processes j).pc.holds = some b)
    (hai : ((run (World.step who) (World.start d drawn) is).processes i).alive = true)
    (haj : ((run (World.step who) (World.start d drawn) is).processes j).alive = true) :
    i = j ∧ idOf (run (World.step who) (World.start d drawn) is).disk
      ((run (World.step who) (World.start d drawn) is).disk.named .lease) = some a := by
  have hinv := invariant_of_along (I := fun w => Sound who w ∧ Exclusive who w)
    (fun w input h hin =>
      ⟨sound_step h.1 input (fresh_of_orderly input hin),
        exclusive_step hpeers h.1 h.2 input hin⟩) horderly
    ⟨sound_start hstart.named hstart.drawn, exclusive_start⟩
  generalize run (World.step who) (World.start d drawn) is = w at hi hj hai haj hinv
  obtain ⟨hw, he⟩ := hinv
  have hclaims : ∀ {pc : Pc Id} {id : Id}, pc.holds = some id → pc.claims = some id := by
    intro pc id h
    cases pc
    case held | assertRead | beatRead | beatStamp => exact h
    all_goals cases h
  have hri := he.claimed i a hai (hclaims hi)
  have hrj := he.claimed j b haj (hclaims hj)
  have hab : a = b := congrArg LeaseRecord.leaseId (Option.some.inj (hri.symm.trans hrj))
  subst hab
  refine ⟨hw.apart i j a (Pc.claims_ids (hclaims hi)) (Pc.claims_ids (hclaims hj)), ?_⟩
  unfold idOf
  rw [hri]
  rfl

/-! One of two starters replaces the lease of a dead process, the other is refused. -/

theorem starters_peers : Peers starters "pid:[4026531836]" "boot" where
  known := by decide
  pidNamespace i := by cases i <;> rfl
  bootId i := by cases i <;> rfl

instance decidableOrderly (w : World Nat Bool) : DecidablePred (Orderly starters w)
  | .operate .. => inferInstanceAs (Decidable (_ ∧ (∀ _ : Bool, _) ∧ _))
  | .call .. | .crash _ => isTrue trivial

def replacing : List (Input Nat Bool) :=
  taking ([false, false, true, true, false, true, false, true, true] ++ List.replicate 8 false ++
    [true, true])

theorem run_excludes_replacing :
    false = false ∧
    idOf (run (World.step starters) (World.start (deadFiles none) [0, 1]) replacing).disk
      ((run (World.step starters) (World.start (deadFiles none) [0, 1]) replacing).disk.named
        .lease) = some 20 :=
  run_excludes starters_peers (deadFiles_leftover none fun _ h => (by cases h)) replacing
    (by decide +kernel) false false
    20 20 (by rfl) (by rfl) (by rfl) (by rfl)

end Namespace

end QuantaSwap.Serve.Lease
