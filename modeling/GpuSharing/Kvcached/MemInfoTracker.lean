import Mathlib.Logic.Function.Basic

namespace GpuSharing.Kvcached

/-- The struct in a shared memory segment, all fields in bytes. -/
structure MemInfoStruct where
  totalSize : Int := 0
  usedSize : Int := 0
  preallocSize : Int := 0
  deriving DecidableEq, Repr

/-- The shared memory segments, by the path of their file. -/
abbrev Shm := String → Option MemInfoStruct

def shmDir : String := "/dev/shm"

def getIpcPath (name : String) : String :=
  if name = "" then "" else if name.front = '/' then name else s!"{shmDir}/{name}"

namespace Shm

/-- What a write-locked open finds: a missing file is created and holds zeros. -/
def openWrite (shm : Shm) (path : String) : MemInfoStruct := (shm path).getD {}

/-- `update_kv_cache_limit`, by which another process writes a limit. -/
def updateKvCacheLimit (ipcName : String) (kvCacheLimit : Int) (shm : Shm) : Shm :=
  Function.update shm (getIpcPath ipcName)
    (some { shm.openWrite (getIpcPath ipcName) with totalSize := kvCacheLimit })

end Shm

structure MemInfoTracker where
  ipcName : String
  totalMemSize : Int
  deriving DecidableEq, Repr

namespace MemInfoTracker

def path (t : MemInfoTracker) : String := getIpcPath t.ipcName

def initKvCacheLimit (t : MemInfoTracker) (kvCacheLimit : Int) (shm : Shm) : Shm :=
  Function.update shm t.path (some ⟨kvCacheLimit, 0, 0⟩)

/-- The constructor; `defaultName` is what `obtain_default_ipc_name` returns. -/
def create (defaultName : String) (totalMemSize : Int) (groupId : Int) (ipcName : String)
    (shm : Shm) : MemInfoTracker × Shm :=
  let name :=
    if ipcName = "" then
      if groupId ≠ 0 then s!"{defaultName}_g{groupId}" else defaultName
    else ipcName
  let t : MemInfoTracker := ⟨name, totalMemSize⟩
  (t, t.initKvCacheLimit totalMemSize shm)

def updateMemoryUsage (t : MemInfoTracker) (usedSize preallocSize : Int) (shm : Shm) : Shm :=
  Function.update shm t.path (some { shm.openWrite t.path with usedSize, preallocSize })

/-- The new size of a layer's buffer, or -1 when it is the current one. -/
def checkAndGetResizeTarget (t : MemInfoTracker) (currentMemSize numLayers numKvBuffers : Int)
    (shm : Shm) : Int :=
  match shm t.path with
  | none => -1
  | some info =>
    let newMemSize := (info.totalSize.tdiv numLayers).tdiv numKvBuffers
    if newMemSize ≠ currentMemSize then newMemSize else -1

/-- The destructor unlinks the segment. -/
def cleanup (t : MemInfoTracker) (shm : Shm) : Shm :=
  Function.update shm s!"{shmDir}/{t.ipcName}" none

/-- The limit in the tracker's segment. -/
def limit (t : MemInfoTracker) (shm : Shm) : Option Int := (shm t.path).map (·.totalSize)

variable {t : MemInfoTracker} {shm : Shm}

@[simp] theorem create_ipcName (defaultName ipcName : String) (totalMemSize groupId : Int)
    (h : ipcName ≠ "") (shm : Shm) :
    (create defaultName totalMemSize groupId ipcName shm).1.ipcName = ipcName := by
  simp [create, h]

theorem limit_create (defaultName ipcName : String) (totalMemSize groupId : Int) (shm : Shm) :
    (create defaultName totalMemSize groupId ipcName shm).1.limit
      (create defaultName totalMemSize groupId ipcName shm).2 = some totalMemSize := by
  simp [create, limit, initKvCacheLimit]

/-- Publishing the usage leaves the limit alone. -/
theorem limit_updateMemoryUsage {l usedSize preallocSize : Int} (h : t.limit shm = some l) :
    t.limit (t.updateMemoryUsage usedSize preallocSize shm) = some l := by
  obtain ⟨info, hinfo, rfl⟩ := Option.map_eq_some_iff.mp h
  simp [limit, updateMemoryUsage, Shm.openWrite, hinfo]

theorem limit_updateKvCacheLimit (t : MemInfoTracker) (l : Int) (shm : Shm) :
    t.limit (shm.updateKvCacheLimit t.ipcName l) = some l := by
  simp [limit, Shm.updateKvCacheLimit, path]

theorem limit_updateKvCacheLimit_of_ne {name : String} (h : t.path ≠ getIpcPath name) (l : Int)
    (shm : Shm) : t.limit (shm.updateKvCacheLimit name l) = t.limit shm := by
  simp [limit, Shm.updateKvCacheLimit, Function.update_of_ne h]

theorem checkAndGetResizeTarget_of_limit {currentMemSize numLayers numKvBuffers l : Int}
    (h : t.limit shm = some l) :
    t.checkAndGetResizeTarget currentMemSize numLayers numKvBuffers shm =
      if (l.tdiv numLayers).tdiv numKvBuffers ≠ currentMemSize then
        (l.tdiv numLayers).tdiv numKvBuffers
      else -1 := by
  obtain ⟨info, hinfo, rfl⟩ := Option.map_eq_some_iff.mp h
  simp [checkAndGetResizeTarget, hinfo]

end MemInfoTracker

end GpuSharing.Kvcached
