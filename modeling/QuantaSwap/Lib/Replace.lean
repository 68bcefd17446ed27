import Mathlib.Data.List.Basic

/-!
# Replacing a file in one step

What is written goes to a temporary file, which is synced and then renamed over the old one. A
reader makes a value of what is written, or refuses it. A rename is certain only when its directory
is synced: until then the machine may stop and come back with the file from before it.
-/

set_option autoImplicit false

namespace Lib.Replace

variable {γ μ : Type*}

/-- What a file holds. A write that was cut short leaves nothing that reads as a value. -/
inductive Contents (γ : Type*)
  | torn
  | whole (c : γ)
  deriving DecidableEq

structure File (γ : Type*) where
  contents : Contents γ
  synced : Bool
  deriving DecidableEq

structure Volume (γ : Type*) where
  file : Option (File γ)
  tmp : Option (File γ)
  /-- The files that the name may fall back to. -/
  behind : List (Option (File γ))
  deriving DecidableEq

inductive Step
  | check
  | directory
  | create
  | mode
  | write
  | sync
  | close
  | rename
  | syncDirectory
  deriving DecidableEq, Repr

def steps : List Step :=
  [.check, .directory, .create, .mode, .write, .sync, .close, .rename, .syncDirectory]

/-! ## What a restart finds -/

/-- How a file is read, and the value that stands for no file. -/
structure Format (γ μ : Type*) where
  read : γ → Option μ
  empty : μ

section

variable (fmt : Format γ μ)

/-- What a restart reads of a file; a file that is not there reads as the empty value. -/
def File.finds : Option (File γ) → List (Option μ)
  | none => [some fmt.empty]
  | some ⟨.torn, _⟩ => [none]
  | some ⟨.whole c, true⟩ => [fmt.read c]
  | some ⟨.whole c, false⟩ => [fmt.read c, none]

def Volume.finds (v : Volume γ) : List (Option μ) :=
  (v.file :: v.behind).flatMap (File.finds fmt)

end

/-! ## The steps -/

namespace Step

variable (c : γ)

def apply : Step → Volume γ → Volume γ
  | create, v => { v with tmp := some ⟨.torn, false⟩ }
  | write, v => { v with tmp := some ⟨.whole c, false⟩ }
  | sync, v => { v with tmp := v.tmp.map fun f => { f with synced := true } }
  | rename, v =>
    match v.tmp with
    | none => v
    | some f => ⟨some f, none, v.file :: v.behind⟩
  | syncDirectory, v => { v with behind := [] }
  | _, v => v

/-- What a step leaves that did not come to its end. -/
def halfway : Step → Volume γ → Volume γ
  | write, v => { v with tmp := some ⟨.torn, false⟩ }
  | _, v => v

/-- The step leaves the name alone. -/
def quiet (s : Step) : Bool := s ≠ rename && s ≠ syncDirectory

theorem apply_quiet {s : Step} (h : s.quiet = true) (v : Volume γ) :
    (s.apply c v).file = v.file ∧ (s.apply c v).behind = v.behind := by
  cases s <;> first | exact ⟨rfl, rfl⟩ | exact absurd h (by decide)

theorem halfway_same (s : Step) (v : Volume γ) :
    (s.halfway v).file = v.file ∧ (s.halfway v).behind = v.behind := by
  cases s <;> exact ⟨rfl, rfl⟩

end Step

namespace Volume

def Same (v p : Volume γ) : Prop := p.file = v.file ∧ p.behind = v.behind

/-- The new file is in place, perhaps with the old ones behind it. -/
def Renamed (c : γ) (v p : Volume γ) : Prop :=
  p.file = some ⟨.whole c, true⟩ ∧ (p.behind = v.file :: v.behind ∨ p.behind = [])

variable {c : γ} {v p : Volume γ}

theorem Same.finds (h : Same v p) (fmt : Format γ μ) : p.finds fmt = v.finds fmt := by
  unfold Volume.finds
  rw [h.1, h.2]

theorem Renamed.finds (h : Renamed c v p) {fmt : Format γ μ} {x : Option μ} (hx : x ∈ p.finds fmt) :
    x = fmt.read c ∨ x ∈ v.finds fmt := by
  unfold Volume.finds at hx ⊢
  rw [h.1, List.flatMap_cons, List.mem_append] at hx
  rcases hx with hx | hx
  · left
    simpa [File.finds] using hx
  · rcases h.2 with hbehind | hbehind
    · right
      rwa [hbehind] at hx
    · rw [hbehind] at hx
      cases hx

end Volume

/-- The volume at each point where the machine may stop, what is left, and the step that failed. -/
structure Taken (γ : Type*) where
  points : List (Volume γ)
  left : Volume γ
  failed : Option Step

def take (c : γ) (fails : Step → Bool) : List Step → Volume γ → Taken γ
  | [], v => ⟨[], v, none⟩
  | s :: ss, v =>
    if fails s then ⟨[v, s.halfway v], s.halfway v, some s⟩
    else
      let rest := take c fails ss (s.apply c v)
      ⟨v :: s.halfway v :: rest.points, rest.left, rest.failed⟩

structure Fault where
  fails : Step → Bool
  unlink : Bool

/-- The temporary file has a name of its own, and goes when a step failed. -/
def replace (c : γ) (fault : Fault) (v : Volume γ) : Taken γ :=
  let t := take c fault.fails steps { v with tmp := none }
  match t.failed with
  | none => ⟨t.points ++ [t.left], t.left, none⟩
  | some s =>
    let unlinked := if fault.unlink then t.left else { t.left with tmp := none }
    ⟨t.points ++ [unlinked], unlinked, some s⟩

/-- A step before the rename, or the rename itself, fails. -/
def Fault.early (fault : Fault) : Bool := steps.any fun s => s ≠ .syncDirectory && fault.fails s

/-! ## One replacement -/

section

variable (c : γ) (fails : Step → Bool)

theorem take_failed (ss : List Step) (v : Volume γ) :
    (take c fails ss v).failed = ss.find? fails := by
  induction ss generalizing v with
  | nil => rfl
  | cons s ss ih =>
    rw [take, List.find?_cons]
    by_cases h : fails s
    · simp [h]
    · simp only [h, Bool.false_eq_true, if_false]
      exact ih _

theorem take_quiet {ss : List Step} (h : ∀ s ∈ ss, s.quiet = true) (v : Volume γ) :
    ((take c fails ss v).left.file = v.file ∧ (take c fails ss v).left.behind = v.behind) ∧
      ∀ p ∈ (take c fails ss v).points, p.file = v.file ∧ p.behind = v.behind := by
  induction ss generalizing v with
  | nil => exact ⟨⟨rfl, rfl⟩, fun p hp => absurd hp List.not_mem_nil⟩
  | cons s ss ih =>
    have hs : s.quiet = true := h s List.mem_cons_self
    have hhalf := s.halfway_same v
    rw [take]
    split
    · refine ⟨hhalf, ?_⟩
      intro p hp
      simp only [List.mem_cons, List.not_mem_nil, or_false] at hp
      rcases hp with rfl | rfl
      · exact ⟨rfl, rfl⟩
      · exact hhalf
    · obtain ⟨hfile, hbehind⟩ := Step.apply_quiet c hs v
      obtain ⟨hleft, hpoints⟩ := ih (fun s hs => h s (List.mem_cons_of_mem _ hs)) (s.apply c v)
      rw [hfile, hbehind] at hleft hpoints
      refine ⟨hleft, ?_⟩
      intro p hp
      simp only [List.mem_cons] at hp
      rcases hp with rfl | rfl | hp
      · exact ⟨rfl, rfl⟩
      · exact hhalf
      · exact hpoints p hp

theorem take_done {ss : List Step} {v : Volume γ} (h : (take c fails ss v).failed = none) :
    (take c fails ss v).left = ss.foldl (fun v s => s.apply c v) v := by
  induction ss generalizing v with
  | nil => rfl
  | cons s ss ih =>
    rw [take] at h ⊢
    split
    · rename_i hs
      rw [if_pos hs] at h
      cases h
    · rename_i hs
      rw [if_neg hs] at h
      exact ih h

theorem take_append (ss tt : List Step) (v : Volume γ) :
    take c fails (ss ++ tt) v =
      match (take c fails ss v).failed with
      | some _ => take c fails ss v
      | none =>
        let rest := take c fails tt (take c fails ss v).left
        ⟨(take c fails ss v).points ++ rest.points, rest.left, rest.failed⟩ := by
  induction ss generalizing v with
  | nil => rfl
  | cons s ss ih =>
    rw [List.cons_append, take, take]
    by_cases hs : fails s
    · simp only [hs, if_true]
    · simp only [hs, Bool.false_eq_true, if_false]
      rw [ih (s.apply c v)]
      cases hfailed : (take c fails ss (s.apply c v)).failed <;> simp [hfailed]

/-- The steps up to the rename. -/
def before : List Step := [.check, .directory, .create, .mode, .write, .sync, .close]

theorem steps_eq : steps = before ++ [.rename, .syncDirectory] := rfl

theorem before_done (v : Volume γ) :
    before.foldl (fun v s => s.apply c v) { v with tmp := none } =
      { v with tmp := some ⟨.whole c, true⟩ } := rfl

end

section

variable (c : γ) (fault : Fault) (v : Volume γ)

theorem failed_replace : (replace c fault v).failed = steps.find? fault.fails := by
  rw [← take_failed c fault.fails steps { v with tmp := none }]
  unfold replace
  dsimp only
  split
  · rename_i h
    exact h.symm
  · rename_i h
    exact h.symm

theorem mem_replace {p : Volume γ} (hp : p ∈ (replace c fault v).points) :
    p ∈ (take c fault.fails steps { v with tmp := none }).points ∨
      p = (replace c fault v).left := by
  unfold replace at hp ⊢
  dsimp only at hp ⊢
  split at hp
  · simpa using hp
  · simpa using hp

theorem left_same :
    ((replace c fault v).left.file = (take c fault.fails steps { v with tmp := none }).left.file) ∧
      (replace c fault v).left.behind =
        (take c fault.fails steps { v with tmp := none }).left.behind := by
  unfold replace
  dsimp only
  split
  · exact ⟨rfl, rfl⟩
  · dsimp only
    split <;> exact ⟨rfl, rfl⟩

/-- How the steps end: the name is as it was, shows both files, or has the new one for certain. -/
inductive Ends (c : γ) (v : Volume γ) : Option Step → Volume γ → Prop
  | kept {s : Step} {left : Volume γ} (hs : s ≠ .syncDirectory) (h : v.Same left) :
      Ends c v (some s) left
  | unsynced {left : Volume γ} (hfile : left.file = some ⟨.whole c, true⟩)
      (hbehind : left.behind = v.file :: v.behind) : Ends c v (some .syncDirectory) left
  | done {left : Volume γ} (hfile : left.file = some ⟨.whole c, true⟩)
    (hbehind : left.behind = []) :
      Ends c v none left

theorem Ends.congr {c : γ} {v left left' : Volume γ} {failed : Option Step}
    (h : Ends c v failed left) (hsame : left.Same left') : Ends c v failed left' := by
  obtain ⟨hfile', hbehind'⟩ := hsame
  cases h with
  | kept hs h => exact .kept hs ⟨hfile'.trans h.1, hbehind'.trans h.2⟩
  | unsynced hfile hbehind => exact .unsynced (hfile'.trans hfile) (hbehind'.trans hbehind)
  | done hfile hbehind => exact .done (hfile'.trans hfile) (hbehind'.trans hbehind)

/-- Where a replacement may stop: the name is as it was, or the rename has come to its end. -/
def Stops (c : γ) (v : Volume γ) (failed : Option Step) (p : Volume γ) : Prop :=
  v.Same p ∨ (v.Renamed c p ∧ ∀ s, failed = some s → s = .syncDirectory)

theorem Ends.stops {c : γ} {v left : Volume γ} {failed : Option Step} (h : Ends c v failed left) :
    Stops c v failed left := by
  cases h with
  | kept _ h => exact Or.inl h
  | unsynced hfile hbehind =>
    exact Or.inr ⟨⟨hfile, Or.inl hbehind⟩, fun s hs => (Option.some.inj hs).symm⟩
  | done hfile hbehind => exact Or.inr ⟨⟨hfile, Or.inr hbehind⟩, fun s hs => by cases hs⟩

theorem last_steps (fails : Step → Bool) :
    let t := take c fails [.rename, .syncDirectory] { v with tmp := some ⟨.whole c, true⟩ }
    Ends c v t.failed t.left ∧ ∀ p ∈ t.points, Stops c v t.failed p := by
  by_cases hrename : fails .rename
  · simp only [take, hrename, if_true]
    refine ⟨.kept nofun ⟨rfl, rfl⟩, ?_⟩
    intro p hp
    left
    simp only [List.mem_cons, List.not_mem_nil, or_false] at hp
    rcases hp with rfl | rfl <;> exact ⟨rfl, rfl⟩
  · by_cases hsync : fails .syncDirectory
    all_goals
      simp only [take, hrename, hsync, Bool.false_eq_true, if_false, if_true]
      refine ⟨by first | exact .unsynced rfl rfl | exact .done rfl rfl, ?_⟩
      intro p hp
      simp only [List.mem_cons, List.not_mem_nil, or_false] at hp
      rcases hp with rfl | rfl | rfl | rfl
    all_goals first
      | exact Or.inl ⟨rfl, rfl⟩
      | exact Or.inr ⟨⟨rfl, Or.inl rfl⟩, fun s hs => by cases hs; rfl⟩
      | exact Or.inr ⟨⟨rfl, Or.inl rfl⟩, fun s hs => by cases hs⟩

theorem early_iff :
    fault.early = true ↔
      ∃ s, (replace c fault v).failed = some s ∧ s ≠ .syncDirectory := by
  have hne : ∀ s ∈ before ++ [.rename], s ≠ Step.syncDirectory := by decide
  have hsteps : steps = (before ++ [.rename]) ++ [.syncDirectory] := rfl
  rw [failed_replace, Fault.early, hsteps, List.find?_append]
  constructor
  · intro h
    obtain ⟨s, hs, hcond⟩ := List.any_eq_true.mp h
    simp only [Bool.and_eq_true, decide_eq_true_eq] at hcond
    have hmem : s ∈ before ++ [.rename] := by
      rcases List.mem_append.mp hs with hs | hs
      · exact hs
      · exact absurd (List.mem_singleton.mp hs) hcond.1
    have hsome : ((before ++ [Step.rename]).find? fault.fails).isSome = true :=
      List.find?_isSome.mpr ⟨s, hmem, hcond.2⟩
    obtain ⟨t, ht⟩ := Option.isSome_iff_exists.mp hsome
    exact ⟨t, by rw [ht]; rfl, hne t (List.mem_of_find?_eq_some ht)⟩
  · rintro ⟨s, hs, hlate⟩
    cases hfirst : (before ++ [Step.rename]).find? fault.fails with
    | none =>
      rw [hfirst, Option.none_or] at hs
      exact absurd (List.mem_singleton.mp (List.mem_of_find?_eq_some hs)) hlate
    | some t =>
      rw [List.any_eq_true]
      have hmem := List.mem_of_find?_eq_some hfirst
      refine ⟨t, List.mem_append_left _ hmem, ?_⟩
      exact Bool.and_eq_true_iff.mpr ⟨decide_eq_true (hne t hmem), List.find?_some hfirst⟩

theorem left_mem_points : (replace c fault v).left ∈ (replace c fault v).points := by
  unfold replace
  dsimp only
  split
  · exact List.mem_append_right _ (List.mem_singleton.mpr rfl)
  · exact List.mem_append_right _ (List.mem_singleton.mpr rfl)

/-- How a replacement ends, and where it may stop. -/
theorem replace_cases :
    Ends c v (replace c fault v).failed (replace c fault v).left ∧
      ∀ p ∈ (replace c fault v).points, Stops c v (replace c fault v).failed p := by
  have hfailed : (replace c fault v).failed =
      (take c fault.fails steps { v with tmp := none }).failed := by
    rw [failed_replace, take_failed]
  obtain ⟨hleft, hpoints⟩ := @take_quiet _ c fault.fails before (by decide) { v with tmp := none }
  have happend := take_append c fault.fails before [.rename, .syncDirectory] { v with tmp := none }
  rw [← steps_eq] at happend
  suffices h : Ends c v (take c fault.fails steps { v with tmp := none }).failed
        (take c fault.fails steps { v with tmp := none }).left ∧
      ∀ p ∈ (take c fault.fails steps { v with tmp := none }).points,
        Stops c v (take c fault.fails steps { v with tmp := none }).failed p by
    have hends := h.1.congr (left_same c fault v)
    rw [hfailed]
    refine ⟨hends, ?_⟩
    intro p hp
    rcases mem_replace c fault v hp with hp | rfl
    · exact h.2 p hp
    · exact hends.stops
  rw [happend]
  -- A step that fails before the rename leaves the file alone.
  cases hbefore : (take c fault.fails before { v with tmp := none }).failed with
  | some s =>
    refine ⟨?_, fun p hp => Or.inl (hpoints p hp)⟩
    rw [hbefore]
    refine .kept ?_ hleft
    rintro rfl
    rw [take_failed] at hbefore
    exact absurd (List.mem_of_find?_eq_some hbefore) (by decide)
  | none =>
    dsimp only
    rw [take_done c fault.fails hbefore, before_done c v]
    obtain ⟨hends, hlast⟩ := last_steps c v fault.fails
    refine ⟨hends, ?_⟩
    intro p hp
    rcases List.mem_append.mp hp with hp | hp
    · exact Or.inl (hpoints p hp)
    · exact hlast p hp

end

/-! ## A value kept in a file -/

/-- What a call does with the value in memory: it refuses, it has nothing to write, or it writes
`saved` with `next` in memory, and keeps `undone` where that fails before the rename. -/
inductive Call (γ μ ρ : Type*)
  | refuse
  | skip (answer : ρ)
  | write (next : μ) (saved : γ) (undone : μ) (answer : ρ)

def Call.writes {ρ : Type*} : Call γ μ ρ → Bool
  | .write .. => true
  | _ => false

theorem Call.writes_iff {ρ : Type*} {call : Call γ μ ρ} :
    call.writes = true ↔ ∃ next saved undone answer, call = .write next saved undone answer := by
  cases call <;> simp [Call.writes]

/-- A store is poisoned when it can no longer tell which file the name shows. -/
structure Store (γ μ : Type*) where
  memory : μ
  volume : Volume γ
  poisoned : Bool

/-- `none` is an answer that throws. -/
structure Performed (γ μ ρ : Type*) where
  store : Store γ μ
  answer : Option ρ
  points : List (Volume γ)

namespace Store

variable {ρ : Type*}

def perform (s : Store γ μ) (call : μ → Call γ μ ρ) (fault : Fault) : Performed γ μ ρ :=
  if s.poisoned then ⟨s, none, [s.volume]⟩
  else
    match call s.memory with
    | .refuse => ⟨s, none, [s.volume]⟩
    | .skip answer => ⟨s, some answer, [s.volume]⟩
    | .write next saved undone answer =>
      let r := replace saved fault s.volume
      match r.failed with
      | none => ⟨⟨next, r.left, false⟩, some answer, r.points⟩
      | some .syncDirectory => ⟨⟨next, r.left, true⟩, none, r.points⟩
      | some _ => ⟨⟨undone, r.left, false⟩, none, r.points⟩

variable {s : Store γ μ} {call : μ → Call γ μ ρ} {fault : Fault}

theorem perform_refuse (h : s.poisoned = true ∨ call s.memory = .refuse) :
    s.perform call fault = ⟨s, none, [s.volume]⟩ := by
  unfold perform
  rcases h with h | h
  · rw [if_pos h]
  · rw [h]
    split <;> rfl

theorem perform_skip {answer : ρ} (hp : s.poisoned = false) (h : call s.memory = .skip answer) :
    s.perform call fault = ⟨s, some answer, [s.volume]⟩ := by
  rw [perform, if_neg (by rw [hp]; exact Bool.false_ne_true), h]

/-- How a write ends: it fails before the rename is done, or behind it, or it does not fail. -/
inductive Written (v : Volume γ) (next : μ) (saved : γ) (undone : μ) (answer : ρ) (fault : Fault) :
    Performed γ μ ρ → Prop
  | kept {left : Volume γ} {points : List (Volume γ)} (hearly : fault.early = true)
      (hleft : v.Same left) (hpoints : ∀ p ∈ points, v.Same p) :
      Written v next saved undone answer fault ⟨⟨undone, left, false⟩, none, points⟩
  | unsynced {left : Volume γ} {points : List (Volume γ)} (hearly : fault.early = false)
      (hsync : fault.fails .syncDirectory = true) (hleft : v.Renamed saved left)
      (hmem : left ∈ points) (hpoints : ∀ p ∈ points, v.Same p ∨ v.Renamed saved p) :
      Written v next saved undone answer fault ⟨⟨next, left, true⟩, none, points⟩
  | done {left : Volume γ} {points : List (Volume γ)} (hearly : fault.early = false)
      (hsync : fault.fails .syncDirectory = false)
      (hfile : left.file = some ⟨.whole saved, true⟩) (hbehind : left.behind = [])
      (hmem : left ∈ points) (hpoints : ∀ p ∈ points, v.Same p ∨ v.Renamed saved p) :
      Written v next saved undone answer fault ⟨⟨next, left, false⟩, some answer, points⟩

theorem perform_write {next undone : μ} {saved : γ} {answer : ρ} (hp : s.poisoned = false)
    (hcall : call s.memory = .write next saved undone answer) :
    Written s.volume next saved undone answer fault (s.perform call fault) := by
  rw [perform, if_neg (by rw [hp]; exact Bool.false_ne_true), hcall]
  obtain ⟨hends, hpoints⟩ := replace_cases saved fault s.volume
  have hearly := early_iff saved fault s.volume
  have hmem := left_mem_points saved fault s.volume
  have hfind := failed_replace saved fault s.volume
  dsimp only
  generalize replace saved fault s.volume = r at hends hpoints hearly hmem hfind
  obtain ⟨points, left, failed⟩ := r
  cases hends with
  | @kept t _ hs hsame =>
    have hkept : ∀ p ∈ points, s.volume.Same p := by
      intro p hp
      exact (hpoints p hp).resolve_right fun h => hs (h.2 t rfl)
    cases t with
    | syncDirectory => exact absurd rfl hs
    | _ => exact .kept (hearly.mpr ⟨_, rfl, hs⟩) hsame hkept
  | unsynced hfile hbehind =>
    refine .unsynced ?_ (List.find?_some hfind.symm) ⟨hfile, Or.inl hbehind⟩ hmem
      fun p hp => (hpoints p hp).imp_right And.left
    refine (Bool.not_eq_true _).mp fun h => ?_
    obtain ⟨t, ht, hne⟩ := hearly.mp h
    exact hne (Option.some.inj ht).symm
  | done hfile hbehind =>
    have hworks : ∀ t ∈ steps, fault.fails t = false := by
      intro t ht
      exact (Bool.not_eq_true _).mp (List.find?_eq_none.mp hfind.symm t ht)
    refine .done ?_ (hworks _ (by decide)) hfile hbehind hmem
      fun p hp => (hpoints p hp).imp_right And.left
    refine (Bool.not_eq_true _).mp fun h => ?_
    obtain ⟨t, ht, -⟩ := hearly.mp h
    cases ht

/-- A poisoned store answers no call, and no call touches it or its volume. -/
def Refuses (s : Store γ μ) : Prop :=
  ∀ (call : μ → Call γ μ ρ) (fault : Fault), s.perform call fault = ⟨s, none, [s.volume]⟩

theorem refuses (h : s.poisoned = true) : @Refuses γ μ ρ s := by
  intro call fault
  rw [perform, if_pos h]

/-- A restart can read whatever it finds. -/
def Reads (fmt : Format γ μ) (s : Store γ μ) : Prop := ∀ x ∈ s.volume.finds fmt, x.isSome = true

/-- A restart reads one value, and it is like the one in memory. -/
def Backed (like : μ → μ → Prop) (fmt : Format γ μ) (s : Store γ μ) : Prop :=
  ∃ c, s.volume.finds fmt = [some c] ∧ like c s.memory

/-- The call ends without an answer and leaves the store to be called again. -/
def Throws (s : Store γ μ) (call : μ → Call γ μ ρ) (fault : Fault) : Prop :=
  s.poisoned = false ∧
    (call s.memory = .refuse ∨
      (fault.early = true ∧ ∃ next saved undone answer,
        call s.memory = .write next saved undone answer))

/-- At this point of a call a restart reads what it would have read before, or a value like the one
in memory before the call or behind it. -/
def Lands (like : μ → μ → Prop) (fmt : Format γ μ) (s : Store γ μ) (call : μ → Call γ μ ρ)
    (p : Volume γ) : Prop :=
  ∀ x ∈ p.finds fmt, ∃ c, x = some c ∧
    (x ∈ s.volume.finds fmt ∨ like c s.memory ∨
      ∃ next saved undone answer, s.poisoned = false ∧
        call s.memory = .write next saved undone answer ∧ like c next)

/-- One call is atomic: a restart reads the value from before it or the one behind it wherever the
machine stops; a write that is answered is what a restart reads; and where the call throws the store
refuses every call, or its memory is like the file and the same call is not passed over. -/
structure Atomic (like : μ → μ → Prop) (fmt : Format γ μ) (s : Store γ μ) (call : μ → Call γ μ ρ)
    (fault : Fault) : Prop where
  stops : ∀ p ∈ (s.perform call fault).points, s.Lands like fmt call p
  answered : ∀ next saved undone answer, s.poisoned = false →
    call s.memory = .write next saved undone answer → (s.perform call fault).answer ≠ none →
      (s.perform call fault).store.Backed like fmt
  threw : (s.perform call fault).answer = none →
    ((s.perform call fault).store.poisoned = true ∧
        @Refuses γ μ ρ (s.perform call fault).store) ∨
      ((s.perform call fault).store.Backed like fmt ∧
        ∀ answer, call (s.perform call fault).store.memory ≠ .skip answer)

/-- What is written is read back, as a value like the one that it leaves in memory; or like the one
from before where the directory could not be synced. -/
def ReadsBack (like : μ → μ → Prop) (fmt : Format γ μ) (s : Store γ μ) (fault : Fault) (next : μ)
    (saved : γ) : Prop :=
  ∃ c, fmt.read saved = some c ∧
    (like c next ∨ (fault.fails .syncDirectory = true ∧ like c s.memory))

section

variable {like : μ → μ → Prop} {fmt : Format γ μ} {next undone : μ} {saved : γ} {answer : ρ}
  {left : Volume γ}

theorem Backed.same (hb : s.Backed like fmt) (h : s.volume.Same left)
    (hundone : ∀ c, like c s.memory → like c undone) : Backed like fmt ⟨undone, left, false⟩ := by
  obtain ⟨c, hc, hlike⟩ := hb
  exact ⟨c, (h.finds fmt).trans hc, hundone c hlike⟩

theorem finds_renamed (hfile : left.file = some ⟨.whole saved, true⟩) :
    fmt.read saved ∈ left.finds fmt := by
  unfold Volume.finds
  rw [hfile, List.flatMap_cons]
  exact List.mem_append_left _ (List.mem_singleton.mpr rfl)

theorem finds_done (hfile : left.file = some ⟨.whole saved, true⟩) (hbehind : left.behind = []) :
    left.finds fmt = [fmt.read saved] := by
  unfold Volume.finds
  rw [hfile, hbehind]
  rfl

theorem Reads.lands (h : s.Reads fmt) {p : Volume γ} (hp : s.volume.Same p) :
    s.Lands like fmt call p := by
  intro x hx
  rw [hp.finds fmt] at hx
  obtain ⟨c, rfl⟩ := Option.isSome_iff_exists.mp (h x hx)
  exact ⟨c, rfl, Or.inl hx⟩

theorem ReadsBack.lands (h : ReadsBack like fmt s fault next saved) (hreads : s.Reads fmt)
    (hp : s.poisoned = false) (hcall : call s.memory = .write next saved undone answer)
    {p : Volume γ} (hpoint : s.volume.Same p ∨ s.volume.Renamed saved p) :
    s.Lands like fmt call p := by
  rcases hpoint with hsame | hrenamed
  · exact hreads.lands hsame
  · intro x hx
    rcases hrenamed.finds hx with rfl | hx
    · obtain ⟨c, hc, hlike | ⟨-, hbefore⟩⟩ := h
      · exact ⟨c, hc, Or.inr (Or.inr ⟨next, saved, undone, answer, hp, hcall, hlike⟩)⟩
      · exact ⟨c, hc, Or.inr (Or.inl hbefore)⟩
    · obtain ⟨c, rfl⟩ := Option.isSome_iff_exists.mp (hreads x hx)
      exact ⟨c, rfl, Or.inl hx⟩

theorem ReadsBack.backed (h : ReadsBack like fmt s fault next saved)
    (hsync : fault.fails .syncDirectory = false)
    (hfile : left.file = some ⟨.whole saved, true⟩) (hbehind : left.behind = []) :
    Backed like fmt ⟨next, left, false⟩ := by
  obtain ⟨c, hc, hlike⟩ := h
  refine ⟨c, (finds_done hfile hbehind).trans (by rw [hc]), hlike.resolve_right fun h => ?_⟩
  rw [hsync] at h
  cases h.1

/-- A call is atomic where what it writes is read back, provided a store that is called again is
like its file, and a write that fails before its rename puts the value back. -/
theorem atomic_perform (hreads : s.Reads fmt) (hthrows : s.Throws call fault → s.Backed like fmt)
    (hsaved : s.poisoned = false → fault.early = false → ∀ next saved undone answer,
      call s.memory = .write next saved undone answer → ReadsBack like fmt s fault next saved)
    (hundone : s.poisoned = false → fault.early = true → ∀ next saved undone answer,
      call s.memory = .write next saved undone answer →
        (∀ c, like c s.memory → like c undone) ∧ ∀ answer, call undone ≠ .skip answer) :
    Atomic like fmt s call fault := by
  have hidle : ∀ p ∈ [s.volume], s.Lands like fmt call p := by
    intro p hp
    rw [List.mem_singleton.mp hp]
    exact hreads.lands ⟨rfl, rfl⟩
  by_cases hrefused : s.poisoned = true ∨ call s.memory = .refuse
  · refine ⟨?_, ?_, ?_⟩ <;> rw [perform_refuse hrefused]
    · exact hidle
    · intro _ _ _ _ _ _ h
      exact absurd rfl h
    · intro _
      by_cases hpoison : s.poisoned = true
      · exact Or.inl ⟨hpoison, refuses hpoison⟩
      · have hcall := hrefused.resolve_left hpoison
        refine Or.inr ⟨hthrows ⟨(Bool.not_eq_true _).mp hpoison, Or.inl hcall⟩, ?_⟩
        rw [hcall]
        intro answer
        nofun
  · have hp : s.poisoned = false := (Bool.not_eq_true _).mp fun h => hrefused (Or.inl h)
    cases hcall : call s.memory with
    | refuse => exact absurd (Or.inr hcall) hrefused
    | skip answer =>
      refine ⟨?_, ?_, ?_⟩ <;> rw [perform_skip hp hcall]
      · exact hidle
      · intro _ _ _ _ _ hwrite
        rw [hcall] at hwrite
        cases hwrite
      · nofun
    | write next saved undone answer =>
      have hwritten := @perform_write γ μ ρ s call fault _ _ _ _ hp hcall
      generalize hperform : s.perform call fault = r at hwritten
      cases hwritten with
      | kept hearly hleft hpoints =>
        obtain ⟨hput, hnotskip⟩ := hundone hp hearly _ _ _ _ hcall
        have hbacked := hthrows ⟨hp, Or.inr ⟨hearly, _, _, _, _, hcall⟩⟩
        refine ⟨?_, ?_, ?_⟩ <;> rw [hperform]
        · exact fun p hp => hreads.lands (hpoints p hp)
        · intro _ _ _ _ _ _ h
          exact absurd rfl h
        · exact fun _ => Or.inr ⟨hbacked.same hleft hput, hnotskip⟩
      | unsynced hearly hsync hleft hmem hpoints =>
        have hback := hsaved hp hearly _ _ _ _ hcall
        refine ⟨?_, ?_, ?_⟩ <;> rw [hperform]
        · exact fun p hpoint => hback.lands hreads hp hcall (hpoints p hpoint)
        · intro _ _ _ _ _ _ h
          exact absurd rfl h
        · exact fun _ => Or.inl ⟨rfl, refuses rfl⟩
      | done hearly hsync hfile hbehind hmem hpoints =>
        have hback := hsaved hp hearly _ _ _ _ hcall
        refine ⟨?_, ?_, ?_⟩ <;> rw [hperform]
        · exact fun p hpoint => hback.lands hreads hp hcall (hpoints p hpoint)
        · intro _ _ _ _ _ _ _
          exact hback.backed hsync hfile hbehind
        · nofun

theorem Reads.write (hreads : s.Reads fmt) {r : Performed γ μ ρ}
    (h : Written s.volume next saved undone answer fault r)
    (hsaved : fault.early = false → (fmt.read saved).isSome = true) : r.store.Reads fmt := by
  cases h with
  | kept _ hleft _ =>
    intro x hx
    exact hreads x (hleft.finds fmt ▸ hx)
  | unsynced hearly _ hleft _ _ =>
    intro x hx
    rcases hleft.finds hx with rfl | hx
    · exact hsaved hearly
    · exact hreads x hx
  | done hearly _ hfile hbehind _ _ =>
    intro x hx
    have hfinds : x ∈ [fmt.read saved] := finds_done hfile hbehind ▸ hx
    rw [List.mem_singleton.mp hfinds]
    exact hsaved hearly

/-! ## What an atomic call must meet -/

namespace Atomic

variable (h : Atomic like fmt s call fault) (hp : s.poisoned = false)
  (hcall : call s.memory = .write next saved undone answer)

include h hp in
theorem backed_of_refuse (hrefuse : call s.memory = .refuse) : s.Backed like fmt := by
  have hthrew := h.threw
  rw [perform_refuse (Or.inr hrefuse)] at hthrew
  rcases hthrew rfl with ⟨hpoisoned, -⟩ | ⟨hbacked, -⟩
  · rw [hp] at hpoisoned
    cases hpoisoned
  · exact hbacked

include h hp hcall

theorem put_back (hearly : fault.early = true) :
    (∃ c, s.volume.finds fmt = [some c] ∧ like c undone) ∧
    ∀ answer, call undone ≠ .skip answer := by
  have hthrew := h.threw
  have hwritten := @perform_write γ μ ρ s call fault _ _ _ _ hp hcall
  generalize s.perform call fault = r at hthrew hwritten
  cases hwritten with
  | kept _ hleft _ =>
    rcases hthrew rfl with ⟨hpoisoned, -⟩ | ⟨⟨c, hfinds, hlike⟩, hnotskip⟩
    · cases hpoisoned
    · exact ⟨⟨c, (hleft.finds fmt).symm.trans hfinds, hlike⟩, hnotskip⟩
  | unsynced hlate _ _ _ _ =>
    rw [hearly] at hlate
    cases hlate
  | done hlate _ _ _ _ _ =>
    rw [hearly] at hlate
    cases hlate

theorem read (hearly : fault.early = false) : ∃ c, fmt.read saved = some c ∧
    (some c ∈ s.volume.finds fmt ∨ like c s.memory ∨ like c next) := by
  have hstops := h.stops
  have hlands : ∀ {left : Volume γ}, s.Lands like fmt call left →
      left.file = some ⟨.whole saved, true⟩ → ∃ c, fmt.read saved = some c ∧
        (some c ∈ s.volume.finds fmt ∨ like c s.memory ∨ like c next) := by
    intro left hleft hfile
    obtain ⟨c, hc, hbefore | hbefore | ⟨next', saved', undone', answer', -, hcall', hlike⟩⟩ :=
      hleft _ (finds_renamed hfile)
    · exact ⟨c, hc, Or.inl (hc ▸ hbefore)⟩
    · exact ⟨c, hc, Or.inr (Or.inl hbefore)⟩
    · rw [hcall] at hcall'
      cases hcall'
      exact ⟨c, hc, Or.inr (Or.inr hlike)⟩
  have hwritten := @perform_write γ μ ρ s call fault _ _ _ _ hp hcall
  generalize s.perform call fault = r at hstops hwritten
  cases hwritten with
  | kept hlate _ _ =>
    rw [hearly] at hlate
    cases hlate
  | unsynced _ _ hleft hmem _ => exact hlands (hstops _ hmem) hleft.1
  | done _ _ hfile _ hmem _ => exact hlands (hstops _ hmem) hfile

theorem written {c : μ} (hearly : fault.early = false) (hsync : fault.fails .syncDirectory = false)
    (hread : fmt.read saved = some c) : like c next := by
  have hanswered := h.answered _ _ _ _ hp hcall
  have hwritten := @perform_write γ μ ρ s call fault _ _ _ _ hp hcall
  generalize s.perform call fault = r at hanswered hwritten
  cases hwritten with
  | kept hlate _ _ =>
    rw [hearly] at hlate
    cases hlate
  | unsynced _ hfails _ _ _ =>
    rw [hsync] at hfails
    cases hfails
  | done _ _ hfile hbehind _ _ =>
    obtain ⟨c', hfinds, hlike⟩ := hanswered nofun
    rw [finds_done hfile hbehind, hread] at hfinds
    rwa [Option.some.inj (List.cons.inj hfinds).1]

theorem readsBack (hb : s.Backed like fmt) (hearly : fault.early = false) :
    ReadsBack like fmt s fault next saved := by
  obtain ⟨c, hread, hlands⟩ := read h hp hcall hearly
  refine ⟨c, hread, ?_⟩
  cases hsync : fault.fails .syncDirectory with
  | false => exact Or.inl (written h hp hcall hearly hsync hread)
  | true =>
    obtain ⟨c', hfinds, hlike⟩ := hb
    rcases hlands with hbefore | hbefore | hbehind
    · rw [hfinds, List.mem_singleton, Option.some.injEq] at hbefore
      exact Or.inr ⟨rfl, hbefore ▸ hlike⟩
    · exact Or.inr ⟨rfl, hbefore⟩
    · exact Or.inl hbehind

end Atomic

end

end Store

end Lib.Replace
