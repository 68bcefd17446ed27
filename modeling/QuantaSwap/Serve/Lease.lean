import Mathlib.Algebra.Order.Ring.Rat
import QuantaSwap.Lib.Files
import QuantaSwap.Lib.Run

/-!
# The process lease

`ProcessLease` of `server/src/process-lease.ts`: one process at a time holds the data files. A
process takes one file operation at a time, and operations of other processes come in between.
A lease id stands for the 32 random bytes that it is made of.
-/

set_option autoImplicit false

namespace QuantaSwap.Serve.Lease

open Lib.Files

variable {Id ι : Type} [DecidableEq Id] [DecidableEq ι]

/-- `LeaseRecord` of version 1 -/
structure LeaseRecord (Id : Type) where
  pid : Nat
  processStart : String
  bootId : String
  pidNamespace : String
  identityDigest : String
  leaseId : Id

def LEASE_TTL_MS : ℚ := 90000

def LEASE_CLOCK_SKEW_MS : ℚ := 30000

def GUARD_STALE_MS : ℚ := 600000

def UNKNOWN_PID_NAMESPACE : String := "unknown"

/-- A file as `readLease` sees it: no record when its text is not a usable one. -/
structure ObservedLease (Id : Type) where
  record : Option (LeaseRecord Id)
  mtimeMs : ℚ

/-- What a process knows of itself, and what it reads of others: the clock, and the start time that
`/proc` shows for a process number. -/
structure LeaseLiveness where
  bootId : String
  pidNamespace : String
  now : ℚ
  ttlMs : ℚ
  processStart : Nat → Option String

def usesPidSemantics (record : LeaseRecord Id) (liveness : LeaseLiveness) : Bool :=
  if liveness.pidNamespace = UNKNOWN_PID_NAMESPACE then false
  else if record.pidNamespace = UNKNOWN_PID_NAMESPACE then false
  else record.pidNamespace = liveness.pidNamespace && record.bootId = liveness.bootId

def heartbeatAgeMs (observed : ObservedLease Id) (liveness : LeaseLiveness) : ℚ :=
  liveness.now - observed.mtimeMs

/-- `isLiveLease` and `isLiveGuard` differ in the age that a heartbeat may have. -/
def isLive (maxAgeMs : ℚ) (observed : Option (ObservedLease Id)) (liveness : LeaseLiveness) :
    Bool :=
  match observed with
  | none => false
  | some observed =>
    match observed.record with
    | none => false
    | some record =>
      if usesPidSemantics record liveness then
        record.bootId = liveness.bootId && liveness.processStart record.pid =
          some record.processStart
      else if heartbeatAgeMs observed liveness < -LEASE_CLOCK_SKEW_MS then false
      else heartbeatAgeMs observed liveness < maxAgeMs

def isLiveLease (observed : Option (ObservedLease Id)) (liveness : LeaseLiveness) : Bool :=
  isLive liveness.ttlMs observed liveness

def isLiveGuard (observed : Option (ObservedLease Id)) (liveness : LeaseLiveness) : Bool :=
  isLive GUARD_STALE_MS observed liveness

/-! ## Processes -/

/-- The lease file and the recovery guard beside it. -/
inductive Name where
  | lease
  | guard
  deriving DecidableEq, Repr

abbrev Directory (Id : Type) := Disk Name (ObservedLease Id)

/-- A process, as it sees itself, and the limits it was started with. -/
structure Identity where
  pid : Nat
  processStart : String
  bootId : String
  pidNamespace : String
  identityDigest : String
  ttlMs : ℚ := LEASE_TTL_MS
  failureBudget : Nat := 1

/-- How many beats may fail in a row, `none` when `startHeartbeat` throws. -/
def failureBudget (ttlMs intervalMs : Nat) : Option Nat :=
  if ttlMs < intervalMs * 3 then none else some (max 1 ((ttlMs - 2 * intervalMs) / intervalMs))

def Identity.makeRecord (me : Identity) (leaseId : Id) : LeaseRecord Id where
  pid := me.pid
  processStart := me.processStart
  bootId := me.bootId
  pidNamespace := me.pidNamespace
  identityDigest := me.identityDigest
  leaseId := leaseId

/-- A file operation throws before or after its effect. -/
inductive Fault where
  | none
  | before
  | after
  deriving DecidableEq

/-- What a step takes from outside. -/
structure Io (Id : Type) where
  fault : Fault := .none
  fresh : Id
  now : ℚ
  processStart : Nat → Option String

def Identity.liveness (me : Identity) (io : Io Id) : LeaseLiveness where
  bootId := me.bootId
  pidNamespace := me.pidNamespace
  now := io.now
  ttlMs := me.ttlMs
  processStart := io.processStart

/-- How the `try` of an attempt ends. -/
inductive Outcome (Id : Type) where
  | retry
  | thrown
  | held (leaseId : Id)

/-- The next file operation of a process. A `readLease` is an open and a read. -/
inductive Pc (Id : Type) where
  | attempt
  | observe (fd : Option ℕ)
  | createGuard (recoveryLeaseId : Id)
  | writeGuard (recoveryLeaseId : Id) (fd : ℕ)
  | openGuard (recoveryLeaseId : Id)
  | judgeGuard (recoveryLeaseId : Id) (fd : Option ℕ)
  | takeGuard (recoveryLeaseId : Id) (fd : ℕ)
  | check (recoveryLeaseId : Id)
  | judge (recoveryLeaseId : Id) (fd : Option ℕ)
  | createLease (recoveryLeaseId leaseId : Id)
  | writeLease (recoveryLeaseId leaseId : Id) (fd : ℕ)
  | takeLease (recoveryLeaseId leaseId : Id) (fd : ℕ)
  | confirm (recoveryLeaseId leaseId : Id)
  | confirmRead (recoveryLeaseId leaseId : Id) (fd : Option ℕ)
  | unguard (recoveryLeaseId : Id) (outcome : Outcome Id)
  | unguardRead (recoveryLeaseId : Id) (outcome : Outcome Id) (fd : Option ℕ)
  | unlinkGuard (recoveryLeaseId : Id) (outcome : Outcome Id)
  -- `acquire` threw.
  | refused
  -- `acquire` returned: the calls of the lease's own methods.
  | held (leaseId : Id)
  | assertRead (leaseId : Id) (fd : Option ℕ)
  | beatRead (leaseId : Id) (fd : Option ℕ)
  | beatStamp (leaseId : Id)
  | closeRead (leaseId : Id) (fd : Option ℕ)
  | closeUnlink (leaseId : Id)
  | closed

structure Process (Id : Type) where
  pc : Pc Id := .attempt
  attempt : Nat := 0
  lost : Bool := false
  failedBeats : Nat := 0
  alive : Bool := true
  /-- How often `assertOwned` let a write through. -/
  passed : Nat := 0

def Process.goto (p : Process Id) (pc : Pc Id) : Process Id := { p with pc }

def Process.leave (p : Process Id) : Outcome Id → Process Id
  | .retry => { p with pc := .attempt, attempt := p.attempt + 1 }
  | .thrown => p.goto .refused
  | .held leaseId => p.goto (.held leaseId)

def Process.countFailedBeat (p : Process Id) (me : Identity) : Process Id :=
  { p with failedBeats := p.failedBeats + 1, lost := p.lost || me.failureBudget ≤ p.failedBeats + 1 }

/-- The record that a read of an opened file gives. -/
def recordOf (d : Directory Id) (fd : Option ℕ) : Option (LeaseRecord Id) :=
  fd.bind fun fd => (d.content fd).record

def idOf (d : Directory Id) (fd : Option ℕ) : Option Id := (recordOf d fd).map (·.leaseId)

/-- What an operation does to the directory. A record is written with the id that it carries. -/
inductive FileOp (Id : Type) where
  | nothing
  | create (n : Name)
  | write (fd : ℕ) (id : Id)
  | stage (id : Id)
  | rename (fd : ℕ) (n : Name)
  | unlink (n : Name)
  | stamp (fd : ℕ)

def FileOp.perform (me : Identity) (io : Io Id) (d : Directory Id) : FileOp Id → Directory Id
  | .nothing => d
  | .create n => d.create n ⟨none, io.now⟩
  | .write fd id => d.write fd ⟨some (me.makeRecord id), io.now⟩
  | .stage id => d.stage ⟨some (me.makeRecord id), io.now⟩
  | .rename fd n => d.rename fd n
  | .unlink n => d.unlink n
  | .stamp fd => d.write fd { d.content fd with mtimeMs := io.now }

/-- The next operation of `acquire`, or of a method call that has begun. -/
def operate (me : Identity) (io : Io Id) (d : Directory Id) (p : Process Id) :
    FileOp Id × Process Id :=
  let fails := io.fault ≠ .none
  match p.pc with
  | .attempt =>
    if 500 ≤ p.attempt ∨ fails then (.nothing, p.goto .refused)
    else (.nothing, p.goto (.observe (d.named .lease)))
  | .observe fd =>
    if fails ∨ isLiveLease (fd.map d.content) (me.liveness io) then (.nothing, p.goto .refused)
    else (.nothing, p.goto (.createGuard io.fresh))
  | .createGuard gid =>
    if io.fault = .before then (.nothing, p.goto .refused)
    else if (d.named .guard).isSome then (.nothing, p.goto (.openGuard gid))
    else (.create .guard, p.goto (if fails then .refused else .writeGuard gid d.next))
  | .writeGuard gid fd =>
    if io.fault = .before then (.nothing, p.goto .refused)
    else (.write fd gid, p.goto (if fails then .refused else .check gid))
  | .openGuard gid =>
    if fails then (.nothing, p.goto .refused) else
      (.nothing, p.goto (.judgeGuard gid (d.named .guard)))
  | .judgeGuard gid fd =>
    if fails then (.nothing, p.goto .refused)
    -- The guard is live, is gone by now, or its owner has not written it yet.
    else if (recordOf d fd).isNone ∨ isLiveGuard (fd.map d.content) (me.liveness io) then
      (.nothing, p.leave .retry)
    else (.stage gid, p.goto (.takeGuard gid d.next))
  | .takeGuard gid fd =>
    if io.fault = .before then (.nothing, p.goto .refused)
    else (.rename fd .guard, p.goto (if fails then .refused else .check gid))
  | .check gid =>
    (.nothing, p.goto (if fails then .unguard gid .thrown else .judge gid (d.named .lease)))
  | .judge gid fd =>
    if fails ∨ isLiveLease (fd.map d.content) (me.liveness io) then
      (.nothing, p.goto (.unguard gid .thrown))
    else if fd = none then (.nothing, p.goto (.createLease gid io.fresh))
    else (.stage io.fresh, p.goto (.takeLease gid io.fresh d.next))
  | .createLease gid leaseId =>
    if io.fault = .before then (.nothing, p.goto (.unguard gid .thrown))
    else if (d.named .lease).isSome then (.nothing, p.goto (.unguard gid .retry))
    else (.create .lease,
      p.goto (if fails then .unguard gid .thrown else .writeLease gid leaseId d.next))
  | .writeLease gid leaseId fd =>
    if io.fault = .before then (.nothing, p.goto (.unguard gid .thrown))
    else (.write fd leaseId, p.goto (if fails then .unguard gid .thrown else .confirm gid leaseId))
  | .takeLease gid leaseId fd =>
    if io.fault = .before then (.nothing, p.goto (.unguard gid .thrown))
    else (.rename fd .lease, p.goto (if fails then .unguard gid .thrown else .confirm gid leaseId))
  | .confirm gid leaseId =>
    (.nothing, p.goto (if fails then .unguard gid .thrown else
      .confirmRead gid leaseId (d.named .lease)))
  | .confirmRead gid leaseId fd =>
    if fails then (.nothing, p.goto (.unguard gid .thrown))
    else (.nothing,
      p.goto (.unguard gid (if idOf d fd = some leaseId then .held leaseId else .retry)))
  -- What the `finally` throws takes the place of the outcome.
  | .unguard gid outcome =>
    (.nothing, p.goto (if fails then .refused else .unguardRead gid outcome (d.named .guard)))
  | .unguardRead gid outcome fd =>
    if fails then (.nothing, p.goto .refused)
    else if idOf d fd = some gid then (.nothing, p.goto (.unlinkGuard gid outcome))
    else (.nothing, p.leave outcome)
  | .unlinkGuard _ outcome =>
    if io.fault = .before ∨ d.named .guard = none then (.nothing, p.goto .refused)
    else (.unlink .guard, if fails then p.goto .refused else p.leave outcome)
  | .assertRead leaseId fd =>
    if fails ∨ fd ≠ none ∧ recordOf d fd = none then (.nothing, p.goto (.held leaseId))
    else if idOf d fd = some leaseId then
      (.nothing, { p.goto (.held leaseId) with passed := p.passed + 1 })
    else (.nothing, { p.goto (.held leaseId) with lost := true })
  | .beatRead leaseId fd =>
    if fails ∨ fd ≠ none ∧ recordOf d fd = none then
      (.nothing, (p.goto (.held leaseId)).countFailedBeat me)
    else if idOf d fd = some leaseId then (.nothing, p.goto (.beatStamp leaseId))
    else (.nothing, { p.goto (.held leaseId) with lost := true })
  -- The stamp goes to whatever file the name leads to.
  | .beatStamp leaseId =>
    match d.named .lease with
    | none => (.nothing, (p.goto (.held leaseId)).countFailedBeat me)
    | some fd =>
      if io.fault = .before then (.nothing, (p.goto (.held leaseId)).countFailedBeat me)
      else
        (.stamp fd, if fails then (p.goto (.held leaseId)).countFailedBeat me
          else { p.goto (.held leaseId) with failedBeats := 0 })
  | .closeRead leaseId fd =>
    if ¬fails ∧ idOf d fd = some leaseId then (.nothing, p.goto (.closeUnlink leaseId))
    else (.nothing, p.goto .closed)
  | .closeUnlink _ => (if io.fault = .before then .nothing else .unlink .lease, p.goto .closed)
  | .refused | .held _ | .closed => (.nothing, p)

/-- The methods of a lease that its process may call. -/
inductive Method where
  | assertOwned
  | beat
  | close
  deriving DecidableEq

/-- The start of a method call, up to the open of the lease file. -/
def begin (me : Identity) (io : Io Id) (d : Directory Id) (p : Process Id) (m : Method) :
    Process Id :=
  match p.pc with
  | .held leaseId =>
    match m with
    | .assertOwned =>
      if p.lost ∨ io.fault ≠ .none then p else p.goto (.assertRead leaseId (d.named .lease))
    | .beat =>
      if p.lost then p
      else if io.fault ≠ .none then p.countFailedBeat me
      else p.goto (.beatRead leaseId (d.named .lease))
    | .close =>
      if p.lost ∨ io.fault ≠ .none then p.goto .closed else
        p.goto (.closeRead leaseId (d.named .lease))
  | _ => p

/-! ## The system -/

structure World (Id ι : Type) where
  disk : Directory Id
  processes : ι → Process Id
  /-- The ids that were drawn, or that the files held at the start. -/
  drawn : List Id

inductive Input (Id ι : Type) where
  | operate (i : ι) (io : Io Id)
  | call (i : ι) (m : Method) (io : Io Id)
  | crash (i : ι)

namespace World

variable (who : ι → Identity) (w : World Id ι)

def set (i : ι) (d : Directory Id) (p : Process Id) : World Id ι :=
  { w with disk := d, processes := Function.update w.processes i p }

def step : Input Id ι → World Id ι
  | .operate i io =>
    if (w.processes i).alive then
      let (op, p) := Lease.operate (who i) io w.disk (w.processes i)
      { w.set i (op.perform (who i) io w.disk) p with drawn := io.fresh :: w.drawn }
    else w
  | .call i m io =>
    if (w.processes i).alive then w.set i w.disk (begin (who i) io w.disk (w.processes i) m) else w
  | .crash i => w.set i w.disk { w.processes i with alive := false }

/-- The directory that dead processes left, and starters that have done nothing yet. -/
def start (d : Directory Id) (drawn : List Id) : World Id ι := ⟨d, fun _ => {}, drawn⟩

end World

end QuantaSwap.Serve.Lease
