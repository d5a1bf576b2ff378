import Mathlib.Data.Option.Basic
import Mathlib.Tactic.SplitIfs

namespace GpuSharing

/-- One object of a store whose writes are compare-and-set on a version; `current` is the value with
its version, `none` before the object is created. The store never gives a version out twice. -/
structure VersionedObject (α : Type) where
  current : Option (α × Nat)
  next : Nat
  fresh : ∀ x ∈ current, x.2 < next

namespace VersionedObject

variable {α : Type} {s t : VersionedObject α} {x y : α × Nat} {a : α}

def write (s : VersionedObject α) (a : α) : VersionedObject α where
  current := some (a, s.next)
  next := s.next + 1
  fresh x h := by
    cases h
    exact Nat.lt_succ_self s.next

/-- Create the object, unless it is there. -/
def create (s : VersionedObject α) (a : α) : Option (VersionedObject α) :=
  match s.current with
  | none => some (s.write a)
  | some _ => none

/-- Replace the value read with version `v`, unless it has been replaced since. -/
def replace (s : VersionedObject α) (v : Nat) (a : α) : Option (VersionedObject α) :=
  match s.current with
  | none => none
  | some x => if x.2 = v then some (s.write a) else none

/-- `x` was read from the object: while its version is the current one the value is, too. -/
def Read (s : VersionedObject α) (x : α × Nat) : Prop :=
  x.2 < s.next ∧ ∀ y ∈ s.current, x.2 = y.2 → x = y

theorem read_current (h : s.current = some x) : s.Read x :=
  ⟨s.fresh x h, fun y hy _ => by
    rw [h] at hy
    exact Option.some.inj hy⟩

theorem Read.write (h : s.Read x) (a : α) : (s.write a).Read x :=
  ⟨Nat.lt_succ_of_lt h.1, fun y hy heq => by
    cases hy
    exact absurd (heq ▸ h.1) (Nat.lt_irrefl _)⟩

theorem create_eq_some (h : s.create a = some t) : s.current = none ∧ t = s.write a := by
  unfold create at h
  split at h
  · rename_i hnone
    exact ⟨hnone, (Option.some.inj h).symm⟩
  · cases h

/-- A replace that succeeds replaces the value that was read. -/
theorem replace_eq_some (hx : s.Read x) (h : s.replace x.2 a = some t) :
    s.current = some x ∧ t = s.write a := by
  unfold replace at h
  split at h
  · cases h
  · rename_i y hy
    split_ifs at h with heq
    rw [hy, hx.2 y hy heq.symm]
    exact ⟨rfl, (Option.some.inj h).symm⟩

end VersionedObject

end GpuSharing
