import Mathlib.Logic.Function.Basic

namespace GpuSharing.FileLock

variable {α : Type}

/-- A path whose file processes lock with `flock`: the inode that the path names, the first inode
that was never used, and who holds the exclusive lock of each inode. -/
structure LockFile (α : Type) where
  inode : Option Nat
  next : Nat
  holder : Nat → Option α

namespace LockFile

def absent : LockFile α := ⟨none, 0, fun _ => none⟩

/-- The inode that an `open` for writing yields; it creates the file if the path is free. -/
def opened (f : LockFile α) : Nat := f.inode.getD f.next

def openCreate (f : LockFile α) : LockFile α :=
  { f with inode := some f.opened, next := if f.inode.isNone then f.next + 1 else f.next }

/-- `flock` with `LOCK_EX | LOCK_NB`; `none` when it would block. -/
def tryLock (f : LockFile α) (a : α) (x : Nat) : Option (LockFile α) :=
  if (f.holder x).isNone then some { f with holder := Function.update f.holder x (some a) }
  else none

/-- `LOCK_UN`, or the end of the process. -/
def release (f : LockFile α) (x : Nat) : LockFile α :=
  { f with holder := Function.update f.holder x none }

/-- The path goes; the inode and its lock stay. -/
def unlink (f : LockFile α) : LockFile α := { f with inode := none }

/-- The lock table says what the processes hold: `locked a` is the inode whose lock `a` has. -/
def Tracks (f : LockFile α) (locked : α → Option Nat) : Prop :=
  ∀ a x, f.holder x = some a ↔ locked a = some x

variable {f g : LockFile α} {locked : α → Option Nat} {a b : α} {x : Nat}

theorem opened_of_some (h : f.inode = some x) : f.opened = x := by simp [opened, h]

theorem tryLock_some (h : f.tryLock a x = some g) :
    f.holder x = none ∧ g = { f with holder := Function.update f.holder x (some a) } := by
  unfold tryLock at h
  split at h
  case isTrue hx =>
    cases h
    exact ⟨Option.isNone_iff_eq_none.mp hx, rfl⟩
  case isFalse => cases h

theorem tryLock_inode (h : f.tryLock a x = some g) : g.inode = f.inode := by
  obtain ⟨_, rfl⟩ := tryLock_some h
  rfl

theorem tryLock_next (h : f.tryLock a x = some g) : g.next = f.next := by
  obtain ⟨_, rfl⟩ := tryLock_some h
  rfl

@[simp] theorem tryLock_eq_none : f.tryLock a x = none ↔ ∃ b, f.holder x = some b := by
  unfold tryLock
  cases f.holder x <;> simp

theorem tracks_absent : (absent : LockFile α).Tracks fun _ => none := by
  intro a x
  simp [absent]

theorem Tracks.unique (h : f.Tracks locked) (ha : locked a = some x) (hb : locked b = some x) :
    a = b := by
  have hab := ((h a x).mpr ha).symm.trans ((h b x).mpr hb)
  exact Option.some.inj hab

theorem Tracks.congr (h : f.Tracks locked) (hg : g.holder = f.holder) : g.Tracks locked := by
  intro a x
  rw [hg]
  exact h a x

section

variable [DecidableEq α]

theorem Tracks.tryLock (h : f.Tracks locked) (ha : locked a = none)
    (hg : f.tryLock a x = some g) : g.Tracks (Function.update locked a (some x)) := by
  obtain ⟨hx, rfl⟩ := tryLock_some hg
  intro b y
  by_cases hy : y = x
  · subst hy
    by_cases hb : b = a
    · subst hb
      simp
    · have hby : locked b ≠ some y := fun hb => by simp [(h b y).mpr hb] at hx
      simp [hb, hby, Ne.symm hb]
  · by_cases hb : b = a
    · subst hb
      have hby : f.holder y ≠ some b := fun hb => by simp [(h b y).mp hb] at ha
      simp [hy, hby, Ne.symm hy]
    · simp [hy, hb, h b y]

theorem Tracks.release (h : f.Tracks locked) (ha : locked a = some x) :
    (f.release x).Tracks (Function.update locked a none) := by
  intro b y
  by_cases hy : y = x
  · subst hy
    by_cases hb : b = a
    · subst hb
      simp [LockFile.release]
    · have hby : locked b ≠ some y := fun hby => hb (h.unique hby ha)
      simp [LockFile.release, hb, hby]
  · by_cases hb : b = a
    · subst hb
      have hby : f.holder y ≠ some b := fun hby => by
        rw [(h b y).mp hby] at ha
        exact hy (Option.some.inj ha)
      simp [LockFile.release, hy, hby]
    · simp [LockFile.release, hy, hb, h b y]

end

end LockFile

end GpuSharing.FileLock
