import Mathlib.Data.Nat.Notation
import Mathlib.Logic.Function.Basic

/-!
# Names and files

A directory gives names to files. A file keeps its content when its name goes to another file or is
removed, so whoever opened it still reads it.
-/

set_option autoImplicit false

namespace Lib.Files

/-- The files are numbered in the order in which they were made. -/
structure Disk (Name Content : Type*) where
  content : ℕ → Content
  next : ℕ
  named : Name → Option ℕ

namespace Disk

variable {Name Content : Type*} {d : Disk Name Content} {n m : Name} {c : Content} {fd fd' : ℕ}

/-! ## Files -/

/-- A new file that has no name yet. -/
def stage (d : Disk Name Content) (c : Content) : Disk Name Content :=
  { d with content := Function.update d.content d.next c, next := d.next + 1 }

def write (d : Disk Name Content) (fd : ℕ) (c : Content) : Disk Name Content :=
  { d with content := Function.update d.content fd c }

@[simp] theorem stage_named : (d.stage c).named = d.named := rfl
@[simp] theorem stage_next : (d.stage c).next = d.next + 1 := rfl
@[simp] theorem stage_content_next : (d.stage c).content d.next = c := Function.update_self ..
@[simp] theorem write_named : (d.write fd c).named = d.named := rfl
@[simp] theorem write_next : (d.write fd c).next = d.next := rfl
@[simp] theorem write_content_self : (d.write fd c).content fd = c := Function.update_self ..

theorem stage_content (h : fd ≠ d.next) : (d.stage c).content fd = d.content fd :=
  Function.update_of_ne h ..

theorem write_content (h : fd' ≠ fd) : (d.write fd c).content fd' = d.content fd' :=
  Function.update_of_ne h ..

/-! ## Names -/

variable [DecidableEq Name]

/-- `open(n, "wx")` of a name that is free. -/
def create (d : Disk Name Content) (n : Name) (c : Content) : Disk Name Content :=
  { d.stage c with named := Function.update d.named n (some d.next) }

def rename (d : Disk Name Content) (fd : ℕ) (n : Name) : Disk Name Content :=
  { d with named := Function.update d.named n (some fd) }

def unlink (d : Disk Name Content) (n : Name) : Disk Name Content :=
  { d with named := Function.update d.named n none }

@[simp] theorem create_next : (d.create n c).next = d.next + 1 := rfl
@[simp] theorem create_content : (d.create n c).content = (d.stage c).content := rfl
@[simp] theorem create_named_self : (d.create n c).named n = some d.next := Function.update_self ..
@[simp] theorem rename_next : (d.rename fd n).next = d.next := rfl
@[simp] theorem rename_content : (d.rename fd n).content = d.content := rfl
@[simp] theorem rename_named_self : (d.rename fd n).named n = some fd := Function.update_self ..
@[simp] theorem unlink_next : (d.unlink n).next = d.next := rfl
@[simp] theorem unlink_content : (d.unlink n).content = d.content := rfl
@[simp] theorem unlink_named_self : (d.unlink n).named n = none := Function.update_self ..

theorem create_named (h : m ≠ n) : (d.create n c).named m = d.named m := Function.update_of_ne h ..

theorem rename_named (h : m ≠ n) : (d.rename fd n).named m = d.named m := Function.update_of_ne h ..

theorem unlink_named (h : m ≠ n) : (d.unlink n).named m = d.named m := Function.update_of_ne h ..

end Disk

end Lib.Files
