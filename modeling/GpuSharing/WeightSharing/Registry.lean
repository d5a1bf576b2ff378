import Mathlib.Data.Fintype.Basic
import Mathlib.Data.List.FinRange
import GpuSharing.Lib.FileLock
import GpuSharing.Lib.Transition

namespace GpuSharing.WeightSharing

open FileLock

/-- The steps of an exporter that has the flock: the end of `acquire_primary_lock`, then
`write_registry` (the temporary file, the rename), `signal_ready` (unlink, touch), and
`serving` until the shutdown, which begins with the release. -/
inductive ExportStage
  | writesPid
  | exports
  | renames
  | unlinksSignal
  | touchesSignal
  | serving
  | releases
  deriving DecidableEq, Repr

/-- The files that `cleanup` removes, in its order. -/
inductive RegistryFile
  | ready
  | registry
  | lock
  deriving DecidableEq, Repr

/-- Where an exporter process stands. `opened` and `owner` carry the inode of its lock file;
`refused` has raised in `acquire_primary_lock`. -/
inductive ExporterPc
  | starts
  | opened (inode : Nat)
  | owner (inode : Nat) (stage : ExportStage)
  | refused
  | removes (file : RegistryFile)
  | ended
  deriving DecidableEq, Repr

namespace ExporterPc

/-- The inode whose flock the exporter has. -/
def locked : ExporterPc → Option Nat
  | .owner x _ => some x
  | _ => none

/-- The inode of the lock file that the exporter has open. -/
def lockFd : ExporterPc → Option Nat
  | .opened x | .owner x _ => some x
  | _ => none

/-- `acquire_primary_lock` has returned and `cleanup` has not begun. -/
def believes : ExporterPc → Bool
  | .owner _ .writesPid | .owner _ .releases => false
  | .owner _ _ => true
  | _ => false

end ExporterPc

/-- Who calls `is_primary_alive`: the loop of `wait_for_primary`, its last check, the watchdog. -/
inductive ProbeSite
  | waiting
  | confirming
  | watching
  deriving DecidableEq, Repr

inductive ProbePc
  | checksLock
  | opens
  | attempts (inode : Nat)
  | unlocks (inode : Nat)
  deriving DecidableEq, Repr

/-- Where a secondary stands. `trusts` has `True` from `wait_for_primary` and is going to read the
registry; it carries the exporters that had a flock at that moment. -/
inductive SecondaryPc (n : Nat)
  | idle
  | polls
  | checksLock
  | probes (site : ProbeSite) (pc : ProbePc)
  | trusts (owners : List (Fin n))
  | hasRead (owners : List (Fin n)) (writer : Option (Fin n))
  | sleeps
  | gone
  deriving DecidableEq, Repr

/-- The inode whose flock the probe has. -/
def SecondaryPc.locked {n : Nat} : SecondaryPc n → Option Nat
  | .probes _ (.unlocks x) => some x
  | _ => none

inductive LockOwner (n m : Nat)
  | primary (i : Fin n)
  | secondary (j : Fin m)
  deriving DecidableEq, Repr

/-- One registry directory with its exporter and secondary processes. `pid` is the text in the lock
file of each inode, `registry` and `tmp` name the exporter that wrote the file. -/
structure RegistrySystem (n m : Nat) where
  lock : LockFile (LockOwner n m)
  pid : Nat → Option (Fin n)
  registry : Option (Fin n)
  tmp : Option (Fin n)
  ready : Bool
  exporters : Fin n → ExporterPc
  secondaries : Fin m → SecondaryPc n

/-- `shutdown` is an exception in `export_weights` or the end of `wait_forever`, `timeout` the end
of a waiter's deadline; `killExporter` and `exit` end a process at any point. -/
inductive RegistryAct (n m : Nat)
  | exporter (i : Fin n)
  | shutdown (i : Fin n)
  | killExporter (i : Fin n)
  | waitForPrimary (j : Fin m)
  | startWatchdog (j : Fin m)
  | secondary (j : Fin m)
  | timeout (j : Fin m)
  | exit (j : Fin m)
  deriving DecidableEq, Repr

/-- The exporter that the step is one of. -/
def RegistryAct.exporterOf {n m : Nat} : RegistryAct n m → Option (Fin n)
  | .exporter i | .shutdown i | .killExporter i => some i
  | _ => none

namespace RegistrySystem

variable {n m : Nat}

def init : RegistrySystem n m where
  lock := .absent
  pid _ := none
  registry := none
  tmp := none
  ready := false
  exporters _ := .starts
  secondaries _ := .idle

def setExporter (s : RegistrySystem n m) (i : Fin n) (pc : ExporterPc) : RegistrySystem n m :=
  { s with exporters := Function.update s.exporters i pc }

def setSecondary (s : RegistrySystem n m) (j : Fin m) (pc : SecondaryPc n) :
    RegistrySystem n m :=
  { s with secondaries := Function.update s.secondaries j pc }

/-- The exporters that have a flock on some inode of the lock file. -/
def lockOwners (s : RegistrySystem n m) : List (Fin n) :=
  (List.finRange n).filter fun i => (s.exporters i).locked.isSome

/-- A step of the exporter's code. Opening the lock file for writing empties it. -/
def exporterStep (s : RegistrySystem n m) (i : Fin n) : Option (RegistrySystem n m) :=
  match s.exporters i with
  | .starts => some { s.setExporter i (.opened s.lock.opened) with
      lock := s.lock.openCreate
      pid := Function.update s.pid s.lock.opened none }
  | .opened x => match s.lock.tryLock (.primary i) x with
    | some lock => some { s.setExporter i (.owner x .writesPid) with lock := lock }
    | none => some (s.setExporter i .refused)
  | .owner x .writesPid => some { s.setExporter i (.owner x .exports) with
      pid := Function.update s.pid x (some i) }
  | .owner x .exports => some { s.setExporter i (.owner x .renames) with tmp := some i }
  | .owner x .renames => match s.tmp with
    | some w => some { s.setExporter i (.owner x .unlinksSignal) with
        registry := some w
        tmp := none }
    | none => some (s.setExporter i (.owner x .releases))
  | .owner x .unlinksSignal =>
    some { s.setExporter i (.owner x .touchesSignal) with ready := false }
  | .owner x .touchesSignal => some { s.setExporter i (.owner x .serving) with ready := true }
  | .owner _ .serving => none
  | .owner x .releases =>
    some { s.setExporter i (.removes .ready) with lock := s.lock.release x }
  | .refused => none
  | .removes .ready => some { s.setExporter i (.removes .registry) with ready := false }
  | .removes .registry => some { s.setExporter i (.removes .lock) with registry := none }
  | .removes .lock => some { s.setExporter i .ended with lock := s.lock.unlink }
  | .ended => none

/-- `cleanup` of the exporter's manager, which exists from before `acquire_primary_lock` on; without
`_lock_fd` it goes on to the files at once. -/
def shutdownStep (s : RegistrySystem n m) (i : Fin n) : Option (RegistrySystem n m) :=
  match s.exporters i with
  | .starts | .refused => some (s.setExporter i (.removes .ready))
  | .owner _ .writesPid | .owner _ .releases => none
  | .owner x _ => some (s.setExporter i (.owner x .releases))
  | _ => none

/-- The kernel releases the flock of a process that ends. -/
def killStep (s : RegistrySystem n m) (i : Fin n) : Option (RegistrySystem n m) :=
  match s.exporters i with
  | .ended => none
  | .owner x _ => some { s.setExporter i .ended with lock := s.lock.release x }
  | _ => some (s.setExporter i .ended)

/-- What follows the return of `is_primary_alive`. -/
def answered (s : RegistrySystem n m) (site : ProbeSite) (alive : Bool) : SecondaryPc n :=
  match alive, site with
  | false, _ => .gone
  | true, .waiting => .polls
  | true, .confirming => .trusts s.lockOwners
  | true, .watching => .sleeps

/-- A step of `is_primary_alive`, whose lock attempt is exclusive like a primary's. -/
def probeStep (s : RegistrySystem n m) (j : Fin m) (site : ProbeSite) :
    ProbePc → RegistrySystem n m
  | .checksLock => match s.lock.inode with
    | none => s.setSecondary j (s.answered site false)
    | some _ => s.setSecondary j (.probes site .opens)
  | .opens => match s.lock.inode with
    | none => s.setSecondary j (s.answered site false)
    | some x => s.setSecondary j (.probes site (.attempts x))
  | .attempts x => match s.lock.tryLock (.secondary j) x with
    | some lock => { s.setSecondary j (.probes site (.unlocks x)) with lock := lock }
    | none => s.setSecondary j (s.answered site true)
  | .unlocks x => { s.setSecondary j (s.answered site false) with lock := s.lock.release x }

def secondaryStep (s : RegistrySystem n m) (j : Fin m) : Option (RegistrySystem n m) :=
  match s.secondaries j with
  | .polls => some (s.setSecondary j (if s.ready then .probes .confirming .checksLock
      else .checksLock))
  | .checksLock => some (s.setSecondary j (if s.lock.inode.isSome then .probes .waiting .checksLock
      else .polls))
  | .probes site pc => some (s.probeStep j site pc)
  | .trusts owners => some (s.setSecondary j (.hasRead owners s.registry))
  | .sleeps => some (s.setSecondary j (.probes .watching .checksLock))
  | .idle | .hasRead _ _ | .gone => none

/-- A call of `wait_for_primary`, the first one or a later one. -/
def waitStep (s : RegistrySystem n m) (j : Fin m) : Option (RegistrySystem n m) :=
  match s.secondaries j with
  | .idle | .hasRead _ _ => some (s.setSecondary j .polls)
  | _ => none

def watchStep (s : RegistrySystem n m) (j : Fin m) : Option (RegistrySystem n m) :=
  match s.secondaries j with
  | .hasRead _ _ => some (s.setSecondary j .sleeps)
  | _ => none

/-- The deadline is looked at only where the ready file is missing. -/
def timeoutStep (s : RegistrySystem n m) (j : Fin m) : Option (RegistrySystem n m) :=
  match s.secondaries j, s.ready with
  | .polls, false => some (s.setSecondary j .gone)
  | _, _ => none

def exitStep (s : RegistrySystem n m) (j : Fin m) : Option (RegistrySystem n m) :=
  match s.secondaries j with
  | .gone => none
  | .probes _ (.unlocks x) => some { s.setSecondary j .gone with lock := s.lock.release x }
  | _ => some (s.setSecondary j .gone)

def step (s : RegistrySystem n m) : RegistryAct n m → Option (RegistrySystem n m)
  | .exporter i => s.exporterStep i
  | .shutdown i => s.shutdownStep i
  | .killExporter i => s.killStep i
  | .waitForPrimary j => s.waitStep j
  | .startWatchdog j => s.watchStep j
  | .secondary j => s.secondaryStep j
  | .timeout j => s.timeoutStep j
  | .exit j => s.exitStep j

/-- Everything that an exporter's step, shutdown or end can do. -/
inductive ExporterStep (s : RegistrySystem n m) (i : Fin n) :
    RegistryAct n m → RegistrySystem n m → Prop
  | opens (he : s.exporters i = .starts) :
    ExporterStep s i (.exporter i) { s.setExporter i (.opened s.lock.opened) with
      lock := s.lock.openCreate
      pid := Function.update s.pid s.lock.opened none }
  | acquires {x : Nat} {lock : LockFile (LockOwner n m)} (he : s.exporters i = .opened x)
    (hl : s.lock.tryLock (.primary i) x = some lock) :
    ExporterStep s i (.exporter i) { s.setExporter i (.owner x .writesPid) with lock := lock }
  | refused {x : Nat} (he : s.exporters i = .opened x)
    (hl : s.lock.tryLock (.primary i) x = none) : ExporterStep s i (.exporter i) (s.setExporter i .refused)
  | writesPid {x : Nat} (he : s.exporters i = .owner x .writesPid) :
    ExporterStep s i (.exporter i) { s.setExporter i (.owner x .exports) with
      pid := Function.update s.pid x (some i) }
  | exports {x : Nat} (he : s.exporters i = .owner x .exports) :
    ExporterStep s i (.exporter i) { s.setExporter i (.owner x .renames) with tmp := some i }
  | renames {x : Nat} {w : Fin n} (he : s.exporters i = .owner x .renames)
    (hw : s.tmp = some w) :
    ExporterStep s i (.exporter i) { s.setExporter i (.owner x .unlinksSignal) with
      registry := some w
      tmp := none }
  | unlinksSignal {x : Nat} (he : s.exporters i = .owner x .unlinksSignal) :
    ExporterStep s i (.exporter i) { s.setExporter i (.owner x .touchesSignal) with ready := false }
  | touchesSignal {x : Nat} (he : s.exporters i = .owner x .touchesSignal) :
    ExporterStep s i (.exporter i) { s.setExporter i (.owner x .serving) with ready := true }
  | renameFails {x : Nat} (he : s.exporters i = .owner x .renames) (hw : s.tmp = none) :
    ExporterStep s i (.exporter i) (s.setExporter i (.owner x .releases))
  | cleansUp {x : Nat} {stage : ExportStage} (he : s.exporters i = .owner x stage) :
    ExporterStep s i (.shutdown i) (s.setExporter i (.owner x .releases))
  | releases {x : Nat} (he : s.exporters i = .owner x .releases) :
    ExporterStep s i (.exporter i) { s.setExporter i (.removes .ready) with lock := s.lock.release x }
  | cleansUpUnlocked (he : s.exporters i = .starts ∨ s.exporters i = .refused) :
    ExporterStep s i (.shutdown i) (s.setExporter i (.removes .ready))
  | removesReady (he : s.exporters i = .removes .ready) :
    ExporterStep s i (.exporter i) { s.setExporter i (.removes .registry) with ready := false }
  | removesRegistry (he : s.exporters i = .removes .registry) :
    ExporterStep s i (.exporter i) { s.setExporter i (.removes .lock) with registry := none }
  | removesLock (he : s.exporters i = .removes .lock) :
    ExporterStep s i (.exporter i) { s.setExporter i .ended with lock := s.lock.unlink }
  | ownerEnds {x : Nat} {stage : ExportStage} (he : s.exporters i = .owner x stage) :
    ExporterStep s i (.killExporter i) { s.setExporter i .ended with lock := s.lock.release x }
  | ends (he : (s.exporters i).locked = none) :
    ExporterStep s i (.killExporter i) (s.setExporter i .ended)

/-- Everything that a secondary's step can do; `pc` is where it stands afterwards. -/
inductive SecondaryStep (s : RegistrySystem n m) (j : Fin m) :
    RegistryAct n m → SecondaryPc n → Prop
  | waits : SecondaryStep s j (.waitForPrimary j) .polls
  | watches : SecondaryStep s j (.startWatchdog j) .sleeps
  | timesOut : SecondaryStep s j (.timeout j) .gone
  | exits : SecondaryStep s j (.exit j) .gone
  | seesSignal (he : s.secondaries j = .polls) (hready : s.ready = true) :
    SecondaryStep s j (.secondary j) (.probes .confirming .checksLock)
  | missesSignal (he : s.secondaries j = .polls) : SecondaryStep s j (.secondary j) .checksLock
  | seesLock (he : s.secondaries j = .checksLock) :
    SecondaryStep s j (.secondary j) (.probes .waiting .checksLock)
  | missesLock (he : s.secondaries j = .checksLock) : SecondaryStep s j (.secondary j) .polls
  | finds {site : ProbeSite} (he : s.secondaries j = .probes site .checksLock) :
    SecondaryStep s j (.secondary j) (.probes site .opens)
  | opens {site : ProbeSite} {x : Nat} (he : s.secondaries j = .probes site .opens)
    (hx : s.lock.inode = some x) :
    SecondaryStep s j (.secondary j) (.probes site (.attempts x))
  | locks {site : ProbeSite} {x : Nat} {lock : LockFile (LockOwner n m)}
    (he : s.secondaries j = .probes site (.attempts x))
    (hl : s.lock.tryLock (.secondary j) x = some lock) :
    SecondaryStep s j (.secondary j) (.probes site (.unlocks x))
  | blocked {site : ProbeSite} {x : Nat} (he : s.secondaries j = .probes site (.attempts x))
    (hl : s.lock.tryLock (.secondary j) x = none) :
    SecondaryStep s j (.secondary j) (s.answered site true)
  | missing {site : ProbeSite} {pc : ProbePc} (he : s.secondaries j = .probes site pc)
    (hpc : pc = .checksLock ∨ pc = .opens) (hx : s.lock.inode = none) :
    SecondaryStep s j (.secondary j) .gone
  | unlocks {site : ProbeSite} {x : Nat} (he : s.secondaries j = .probes site (.unlocks x)) :
    SecondaryStep s j (.secondary j) .gone
  | reads {owners : List (Fin n)} (he : s.secondaries j = .trusts owners) :
    SecondaryStep s j (.secondary j) (.hasRead owners s.registry)
  | wakes (he : s.secondaries j = .sleeps) :
    SecondaryStep s j (.secondary j) (.probes .watching .checksLock)

/-- The files and the exporters are the same and one secondary has moved to `pc`; the lock table may
differ. -/
structure SecondaryMoved (s t : RegistrySystem n m) (j : Fin m) (pc : SecondaryPc n) : Prop where
  inode : t.lock.inode = s.lock.inode
  next : t.lock.next = s.lock.next
  pid : t.pid = s.pid
  registry : t.registry = s.registry
  tmp : t.tmp = s.tmp
  ready : t.ready = s.ready
  exporters : t.exporters = s.exporters
  secondaries : t.secondaries = Function.update s.secondaries j pc

/-- The inode whose flock a process has, by where the process stands. -/
def lockedBy (s : RegistrySystem n m) : LockOwner n m → Option Nat
  | .primary i => (s.exporters i).locked
  | .secondary j => (s.secondaries j).locked

/-- The kernel's lock table agrees with where the processes stand. -/
def Consistent (s : RegistrySystem n m) : Prop := s.lock.Tracks s.lockedBy

variable {s t : RegistrySystem n m} {i k : Fin n} {j : Fin m} {pc : ExporterPc}
  {act : RegistryAct n m}

@[simp] theorem setExporter_exporters : (s.setExporter i pc).exporters k =
    if k = i then pc else s.exporters k := by
  simp [setExporter, Function.update_apply]

theorem lockedBy_setExporter :
    (s.setExporter i pc).lockedBy = Function.update s.lockedBy (.primary i) pc.locked := by
  funext a
  cases a with
  | primary k =>
    by_cases hk : k = i
    · subst hk
      simp [lockedBy]
    · simp [lockedBy, hk]
  | secondary j => simp [lockedBy, setExporter]

theorem lockedBy_setSecondary {pc : SecondaryPc n} :
    (s.setSecondary j pc).lockedBy = Function.update s.lockedBy (.secondary j) pc.locked := by
  funext a
  cases a with
  | primary i => simp [lockedBy, setSecondary]
  | secondary k =>
    by_cases hk : k = j
    · subst hk
      simp [lockedBy, setSecondary]
    · simp [lockedBy, setSecondary, hk]

theorem lockedBy_congr {u : RegistrySystem n m} (he : t.exporters = u.exporters)
    (hs : t.secondaries = u.secondaries) : t.lockedBy = u.lockedBy := by
  funext a
  cases a with
  | primary k => simp only [lockedBy, he]
  | secondary j => simp only [lockedBy, hs]

/-- An exporter that moves on without taking or giving up a flock. -/
theorem Consistent.moveExporter (h : s.Consistent) (hpc : pc.locked = (s.exporters i).locked)
    (hlock : t.lock.holder = s.lock.holder) (ht : t.exporters = (s.setExporter i pc).exporters)
    (hs : t.secondaries = s.secondaries) : t.Consistent := by
  have hby : t.lockedBy = s.lockedBy := by
    rw [lockedBy_congr (u := s.setExporter i pc) ht hs, lockedBy_setExporter, hpc]
    exact Function.update_eq_self _ _
  unfold Consistent
  rw [hby]
  exact LockFile.Tracks.congr h hlock

theorem Consistent.moveSecondary (h : s.Consistent) {pc : SecondaryPc n}
    (hpc : pc.locked = (s.secondaries j).locked) : (s.setSecondary j pc).Consistent := by
  have hby : (s.setSecondary j pc).lockedBy = s.lockedBy := by
    rw [lockedBy_setSecondary, hpc]
    exact Function.update_eq_self _ _
  unfold Consistent
  rw [hby]
  exact LockFile.Tracks.congr h rfl

theorem Consistent.acquire (h : s.Consistent) {x : Nat} {lock : LockFile (LockOwner n m)}
    (hi : (s.exporters i).locked = none) (hl : s.lock.tryLock (.primary i) x = some lock)
    (hpc : pc.locked = some x) : Consistent { s.setExporter i pc with lock := lock } := by
  change lock.Tracks (s.setExporter i pc).lockedBy
  rw [lockedBy_setExporter, hpc]
  exact LockFile.Tracks.tryLock h hi hl

theorem Consistent.release (h : s.Consistent) {x : Nat} (hi : (s.exporters i).locked = some x)
    (hpc : pc.locked = none) :
    Consistent { s.setExporter i pc with lock := s.lock.release x } := by
  change (s.lock.release x).Tracks (s.setExporter i pc).lockedBy
  rw [lockedBy_setExporter, hpc]
  exact LockFile.Tracks.release h hi

theorem Consistent.unlockProbe (h : s.Consistent) {x : Nat} {pc : SecondaryPc n}
    (hj : (s.secondaries j).locked = some x) (hpc : pc.locked = none) :
    Consistent { s.setSecondary j pc with lock := s.lock.release x } := by
  change (s.lock.release x).Tracks (s.setSecondary j pc).lockedBy
  rw [lockedBy_setSecondary, hpc]
  exact LockFile.Tracks.release h hj

theorem answered_locked {site : ProbeSite} {alive : Bool} :
    (s.answered site alive).locked = none := by
  cases alive <;> cases site <;> rfl

theorem exporterStep_cases (ht : s.exporterStep i = some t) : ExporterStep s i (.exporter i) t := by
  unfold exporterStep at ht
  cases he : s.exporters i with
  | starts =>
    simp only [he] at ht
    cases ht
    exact .opens he
  | opened x =>
    simp only [he] at ht
    split at ht
    case h_1 lock hl =>
      cases ht
      exact .acquires he hl
    case h_2 hl =>
      cases ht
      exact .refused he hl
  | owner x stage =>
    simp only [he] at ht
    cases stage with
    | writesPid =>
      cases ht
      exact .writesPid he
    | exports =>
      cases ht
      exact .exports he
    | renames =>
      dsimp only at ht
      split at ht
      case h_1 w hw =>
        cases ht
        exact .renames he hw
      case h_2 hw =>
        cases ht
        exact .renameFails he hw
    | unlinksSignal =>
      cases ht
      exact .unlinksSignal he
    | touchesSignal =>
      cases ht
      exact .touchesSignal he
    | serving => cases ht
    | releases =>
      cases ht
      exact .releases he
  | refused => simp [he] at ht
  | removes file =>
    simp only [he] at ht
    cases file with
    | ready =>
      cases ht
      exact .removesReady he
    | registry =>
      cases ht
      exact .removesRegistry he
    | lock =>
      cases ht
      exact .removesLock he
  | ended => simp [he] at ht

theorem shutdownStep_cases (ht : s.shutdownStep i = some t) : ExporterStep s i (.shutdown i) t := by
  unfold shutdownStep at ht
  split at ht
  case h_1 he =>
    cases ht
    exact .cleansUpUnlocked (.inl he)
  case h_2 he =>
    cases ht
    exact .cleansUpUnlocked (.inr he)
  case h_5 x stage _ _ he =>
    cases ht
    exact .cleansUp he
  all_goals cases ht

theorem killStep_cases (ht : s.killStep i = some t) : ExporterStep s i (.killExporter i) t := by
  unfold killStep at ht
  cases he : s.exporters i with
  | owner x stage =>
    simp only [he] at ht
    cases ht
    exact .ownerEnds he
  | ended => simp [he] at ht
  | starts | opened _ | refused | removes _ =>
    simp only [he] at ht
    cases ht
    exact .ends (by rw [he]; rfl)

theorem Consistent.exporterStep (h : s.Consistent)
    (ht : ExporterStep s i act t) : t.Consistent := by
  cases ht with
  | opens he | refused he | writesPid he | exports he | renames he | unlinksSignal he
    | touchesSignal he | renameFails he | cleansUp he | removesReady he | removesRegistry he | removesLock he =>
    exact h.moveExporter (by rw [he]; rfl) rfl rfl rfl
  | cleansUpUnlocked he =>
    exact h.moveExporter (by rcases he with he | he <;> rw [he] <;> rfl) rfl rfl rfl
  | ends he => exact h.moveExporter (by rw [he]; rfl) rfl rfl rfl
  | acquires he hl => exact h.acquire (by rw [he]; rfl) hl rfl
  | releases he => exact h.release (by rw [he]; rfl) rfl
  | ownerEnds he => exact h.release (by rw [he]; rfl) rfl

theorem Consistent.probeStep (h : s.Consistent) {site : ProbeSite} {pc : ProbePc}
    (he : s.secondaries j = .probes site pc) : (s.probeStep j site pc).Consistent := by
  cases pc with
  | checksLock =>
    unfold RegistrySystem.probeStep
    cases s.lock.inode with
    | none => exact h.moveSecondary (by rw [he, answered_locked]; rfl)
    | some x => exact h.moveSecondary (by rw [he]; rfl)
  | opens =>
    unfold RegistrySystem.probeStep
    cases s.lock.inode with
    | none => exact h.moveSecondary (by rw [he, answered_locked]; rfl)
    | some x => exact h.moveSecondary (by rw [he]; rfl)
  | attempts x =>
    unfold RegistrySystem.probeStep
    dsimp only
    split
    case h_1 lock hl =>
      change lock.Tracks (s.setSecondary j _).lockedBy
      rw [lockedBy_setSecondary]
      exact LockFile.Tracks.tryLock h (by simp [lockedBy, he, SecondaryPc.locked]) hl
    case h_2 => exact h.moveSecondary (by rw [he, answered_locked]; rfl)
  | unlocks x => exact h.unlockProbe (by rw [he]; rfl) answered_locked

theorem Consistent.secondaryStep (h : s.Consistent) (ht : s.secondaryStep j = some t) :
    t.Consistent := by
  unfold RegistrySystem.secondaryStep at ht
  cases he : s.secondaries j with
  | polls =>
    simp only [he] at ht
    cases ht
    exact h.moveSecondary (by rw [he]; split <;> rfl)
  | checksLock =>
    simp only [he] at ht
    cases ht
    exact h.moveSecondary (by rw [he]; split <;> rfl)
  | probes site pc =>
    simp only [he] at ht
    cases ht
    exact h.probeStep he
  | trusts owners =>
    simp only [he] at ht
    cases ht
    exact h.moveSecondary (by rw [he]; rfl)
  | sleeps =>
    simp only [he] at ht
    cases ht
    exact h.moveSecondary (by rw [he]; rfl)
  | idle | hasRead _ _ | gone => simp [he] at ht

theorem Consistent.exitStep (h : s.Consistent) (ht : s.exitStep j = some t) : t.Consistent := by
  unfold RegistrySystem.exitStep at ht
  split at ht
  case h_1 => cases ht
  case h_2 site x he =>
    cases ht
    exact h.unlockProbe (by rw [he]; rfl) rfl
  case h_3 hgone hprobe =>
    cases ht
    have hnone : (s.secondaries j).locked = none := by
      unfold SecondaryPc.locked
      split
      case h_1 site x he => exact absurd he (hprobe site x)
      case h_2 => rfl
    exact h.moveSecondary (by rw [hnone]; rfl)

theorem init_consistent : (init : RegistrySystem n m).Consistent := by
  have hby : (init : RegistrySystem n m).lockedBy = fun _ => none := by
    funext a
    cases a <;> rfl
  unfold Consistent
  rw [hby]
  exact LockFile.tracks_absent

theorem step_consistent (h : s.Consistent) (ht : s.step act = some t) :
    t.Consistent := by
  cases act with
  | exporter i => exact h.exporterStep (exporterStep_cases ht)
  | shutdown i => exact h.exporterStep (shutdownStep_cases ht)
  | killExporter i => exact h.exporterStep (killStep_cases ht)
  | waitForPrimary j =>
    simp only [step, waitStep] at ht
    split at ht
    case h_1 he | h_2 he =>
      cases ht
      exact h.moveSecondary (by rw [he]; rfl)
    case h_3 => cases ht
  | startWatchdog j =>
    simp only [step, watchStep] at ht
    split at ht
    case h_1 he =>
      cases ht
      exact h.moveSecondary (by rw [he]; rfl)
    case h_2 => cases ht
  | secondary j => exact h.secondaryStep ht
  | timeout j =>
    simp only [step, timeoutStep] at ht
    split at ht
    case h_1 he _ =>
      cases ht
      exact h.moveSecondary (by rw [he]; rfl)
    case h_2 => cases ht
  | exit j => exact h.exitStep ht

theorem setSecondary_moved {pc : SecondaryPc n} : s.SecondaryMoved (s.setSecondary j pc) j pc :=
  ⟨rfl, rfl, rfl, rfl, rfl, rfl, rfl, rfl⟩

theorem unlockProbe_moved {pc : SecondaryPc n} {x : Nat} :
    s.SecondaryMoved { s.setSecondary j pc with lock := s.lock.release x } j pc :=
  ⟨rfl, rfl, rfl, rfl, rfl, rfl, rfl, rfl⟩

theorem probeStep_cases {site : ProbeSite} {pc : ProbePc}
    (he : s.secondaries j = .probes site pc) :
    ∃ pc', SecondaryStep s j (.secondary j) pc' ∧
      s.SecondaryMoved (s.probeStep j site pc) j pc' := by
  cases pc with
  | checksLock =>
    unfold probeStep
    cases hx : s.lock.inode with
    | none => exact ⟨_, .missing he (.inl rfl) hx, setSecondary_moved⟩
    | some x => exact ⟨_, .finds he, setSecondary_moved⟩
  | opens =>
    unfold probeStep
    cases hx : s.lock.inode with
    | none => exact ⟨_, .missing he (.inr rfl) hx, setSecondary_moved⟩
    | some x => exact ⟨_, .opens he hx, setSecondary_moved⟩
  | attempts x =>
    unfold probeStep
    dsimp only
    split
    case h_1 lock hl => exact ⟨_, .locks he hl, LockFile.tryLock_inode hl,
      LockFile.tryLock_next hl, rfl, rfl, rfl, rfl, rfl, rfl⟩
    case h_2 hl => exact ⟨_, .blocked he hl, setSecondary_moved⟩
  | unlocks x => exact ⟨_, .unlocks he, unlockProbe_moved⟩

theorem secondaryStep_cases (ht : s.secondaryStep j = some t) :
    ∃ pc, SecondaryStep s j (.secondary j) pc ∧ s.SecondaryMoved t j pc := by
  unfold secondaryStep at ht
  split at ht
  case h_1 he =>
    cases ht
    cases hr : s.ready with
    | true => exact ⟨_, .seesSignal he hr, setSecondary_moved⟩
    | false => exact ⟨_, .missesSignal he, setSecondary_moved⟩
  case h_2 he =>
    cases ht
    cases s.lock.inode.isSome with
    | true => exact ⟨_, .seesLock he, setSecondary_moved⟩
    | false => exact ⟨_, .missesLock he, setSecondary_moved⟩
  case h_3 site pc he =>
    cases ht
    exact probeStep_cases he
  case h_4 owners he =>
    cases ht
    exact ⟨_, .reads he, setSecondary_moved⟩
  case h_5 he =>
    cases ht
    exact ⟨_, .wakes he, setSecondary_moved⟩
  all_goals cases ht

/-- A step is one of an exporter, or a secondary's and leaves the files alone. -/
theorem step_cases (ht : s.step act = some t) : (∃ i, ExporterStep s i act t) ∨
    ∃ j pc, SecondaryStep s j act pc ∧ s.SecondaryMoved t j pc := by
  cases act with
  | exporter i => exact .inl ⟨i, exporterStep_cases ht⟩
  | shutdown i => exact .inl ⟨i, shutdownStep_cases ht⟩
  | killExporter i => exact .inl ⟨i, killStep_cases ht⟩
  | secondary j => exact .inr ⟨j, secondaryStep_cases ht⟩
  | waitForPrimary j =>
    simp only [step, waitStep] at ht
    split at ht <;> cases ht <;> exact .inr ⟨j, _, .waits, setSecondary_moved⟩
  | startWatchdog j =>
    simp only [step, watchStep] at ht
    split at ht <;> cases ht
    exact .inr ⟨j, _, .watches, setSecondary_moved⟩
  | timeout j =>
    simp only [step, timeoutStep] at ht
    split at ht <;> cases ht
    exact .inr ⟨j, _, .timesOut, setSecondary_moved⟩
  | exit j =>
    simp only [step, exitStep] at ht
    split at ht <;> cases ht
    · exact .inr ⟨j, _, .exits, unlockProbe_moved⟩
    · exact .inr ⟨j, _, .exits, setSecondary_moved⟩

theorem ExporterStep.exporterOf (ht : ExporterStep s i act t) : act.exporterOf = some i := by
  cases ht <;> rfl

theorem ExporterStep.secondaries (ht : ExporterStep s i act t) :
    t.secondaries = s.secondaries := by
  cases ht <;> rfl

end RegistrySystem

end GpuSharing.WeightSharing
