import GpuSharing.Kvcached.PageMapping
import GpuSharing.Kvcached.TpIpc

namespace GpuSharing.Kvcached

open Transition

/-- The page allocator of a manager whose map and unmap calls go to worker processes. -/
structure TpConfig extends PageAllocatorConfig where
  useWorkerIpc : Bool := false
  socketDir : String
  tensorParallel : 1 < worldSize ∨ useWorkerIpc = true

/-- A call of a broadcast function. -/
structure Broadcast where
  message : Message
  tpSize : Int
  ppRank : Int
  deriving DecidableEq, Repr

def broadcastMapToKvTensors (tpSize : Int) (offsets : List Int) (ppRank : Int := 0)
    (groupId : Int := 0) : Broadcast :=
  ⟨⟨.mapToKvTensors, offsets, groupId⟩, tpSize, ppRank⟩

def broadcastUnmapFromKvTensors (tpSize : Int) (offsets : List Int) (ppRank : Int := 0)
    (groupId : Int := 0) : Broadcast :=
  ⟨⟨.unmapFromKvTensors, offsets, groupId⟩, tpSize, ppRank⟩

namespace Broadcast

def ranks (b : Broadcast) : List Nat := List.range b.tpSize.toNat

def recipients (dir : String) (b : Broadcast) : List (Except String String) :=
  b.ranks.map fun rank => getWorkerSocketPath dir rank b.ppRank

def target (b : Broadcast) : Int × Int := (b.ppRank, b.message.groupId)

def run (dir : String) (b : Broadcast) (answers : Nat → Answer) (ws : Workers) :
    Except String Unit × Workers :=
  gather dir b.message b.ppRank answers b.ranks ws

/-- The worker of the rank can be reached. -/
def reaches (dir : String) (b : Broadcast) (ws : Workers) (rank : Nat) : Bool :=
  match getWorkerSocketPath dir rank b.ppRank with
  | .ok path => (ws path).isSome
  | .error _ => false

/-- Every worker is reached and answers success. -/
def Delivered (dir : String) (b : Broadcast) (answers : Nat → Answer) (ws : Workers) : Prop :=
  ∀ rank ∈ b.ranks, answers rank = .success ∧ b.reaches dir ws rank = true

/-- The workers that are reached do as the allocator will believe: all of them map when everyone
answers success and none otherwise, and all of them unmap whatever they answer. -/
def Uniform (dir : String) (b : Broadcast) (answers : Nat → Answer) (ws : Workers) : Prop :=
  match b.message.cmd with
  | .mapToKvTensors => b.Delivered dir answers ws ∨ ∀ rank ∈ b.ranks,
      b.reaches dir ws rank = true → (answers rank).acted b.message.offsets = []
  | .unmapFromKvTensors => ∀ rank ∈ b.ranks, b.reaches dir ws rank = true →
      ∀ o ∈ b.message.offsets, o ∈ (answers rank).acted b.message.offsets

instance (dir : String) (b : Broadcast) (answers : Nat → Answer) (ws : Workers) :
    Decidable (b.Delivered dir answers ws) := by
  unfold Delivered
  infer_instance

instance (dir : String) (b : Broadcast) (answers : Nat → Answer) (ws : Workers) :
    Decidable (b.Uniform dir answers ws) := by
  unfold Uniform
  split <;> infer_instance

variable {dir : String} {b : Broadcast} {answers : Nat → Answer} {ws : Workers}

theorem reaches_iff {rank : Nat} : b.reaches dir ws rank = true ↔
    ∃ path, getWorkerSocketPath dir rank b.ppRank = .ok path ∧ ws path ≠ none := by
  unfold reaches
  cases getWorkerSocketPath dir rank b.ppRank <;> simp [Option.isSome_iff_ne_none]

theorem run_isOk_iff : (b.run dir answers ws).1.isOk = true ↔ b.Delivered dir answers ws := by
  rw [run, gather_isOk_iff]
  exact forall₂_congr fun rank hrank => and_congr_right fun _ => reaches_iff.symm

/-- Every worker of the broadcast acts once, as its answer says. -/
theorem run_at {rank : Nat} {path : String} (hrank : rank ∈ b.ranks)
    (hpath : getWorkerSocketPath dir rank b.ppRank = .ok path) :
    (b.run dir answers ws).2 path = (ws path).map fun w =>
      w.act b.message ((answers rank).acted b.message.offsets) :=
  gather_at List.nodup_range hrank hpath

theorem Delivered.uniform (h : b.Delivered dir answers ws) : b.Uniform dir answers ws := by
  unfold Uniform
  split
  · exact .inl h
  · intro rank hr _ o ho
    rw [(h rank hr).1]
    exact ho

end Broadcast

namespace TpConfig

/-- The defaults stand: the allocator passes the first two arguments only. -/
def mapCallback (worldSize : Int) (offsets : List Int) (ppRank : Int := 0) (groupId : Int := 0) :
    Broadcast :=
  broadcastMapToKvTensors worldSize offsets ppRank groupId

def unmapCallback (c : TpConfig) (worldSize : Int) (offsets : List Int) : Broadcast :=
  broadcastUnmapFromKvTensors worldSize offsets c.ppRank c.groupId

def pageOffset (c : TpConfig) (p : PageId) : Int :=
  PageAllocator.pageOffset c.toPageAllocatorConfig p

def mapPages (c : TpConfig) (ps : List PageId) : Broadcast :=
  mapCallback c.worldSize (ps.map c.pageOffset)

def unmapPages (c : TpConfig) (ps : List PageId) : Broadcast :=
  c.unmapCallback c.worldSize (ps.map c.pageOffset)

/-- The broadcast whose return the act is. -/
def broadcast (c : TpConfig) (s : System) : Act → Option Broadcast
  | .mapReturns _ => some (c.mapPages s.engine.passedToMap)
  | .unmapReturns _ => some (c.unmapPages s.engine.unmapInFlight)
  | .workerMapReturns _ => some (c.mapPages s.worker.passedToMap)
  | _ => none

theorem pageOffset_inj (c : TpConfig) {p q : Int} (h : c.pageOffset p = c.pageOffset q) :
    p = q := by
  have hp := c.pageSize_pos
  have hl := c.numLayers_pos
  have hb := c.numKvBuffers_pos
  unfold pageOffset PageAllocator.pageOffset at h
  split_ifs at h
  · have hlayers := Int.eq_of_mul_eq_mul_right hb.ne' h
    exact Int.eq_of_mul_eq_mul_right hp.ne' (Int.eq_of_mul_eq_mul_right hl.ne' hlayers)
  · exact Int.eq_of_mul_eq_mul_right hp.ne' h

end TpConfig

def Act.returnsOk : Act → Bool
  | .mapReturns ok | .unmapReturns ok | .workerMapReturns ok => ok
  | _ => true

/-- The allocator and the workers. -/
structure TpSystem where
  system : System
  workers : Workers

/-- A step of the allocator with the answers to the broadcast it makes, or the loss of the worker
at a path. -/
inductive TpAct
  | allocator (act : Act) (answers : Nat → Answer)
  | lose (path : String)

namespace TpSystem

def start (c : TpConfig) (ws : Workers) : TpSystem := ⟨System.init c.toPageAllocatorConfig, ws⟩

/-- A map or unmap call throws when its broadcast raises. -/
def step (c : TpConfig) (s : TpSystem) : TpAct → Option TpSystem
  | .allocator act answers => match System.step c.toPageAllocatorConfig s.system act with
    | none => none
    | some t => match c.broadcast s.system act with
      | none => some ⟨t, s.workers⟩
      | some b =>
        let sent := b.run c.socketDir answers s.workers
        if sent.1.isOk = act.returnsOk then some ⟨t, sent.2⟩ else none
  | .lose path => some { s with workers := Function.update s.workers path none }

/-- Every worker of the manager's stage that can be reached has mapped, for the manager's group,
what the lists of the allocator imply. -/
def Agrees (c : TpConfig) (s : TpSystem) : Prop :=
  ∀ rank < c.worldSize.toNat, ∀ path w, getWorkerSocketPath c.socketDir rank c.ppRank = .ok path →
    s.workers path = some w →
    ∀ o, o ∈ w c.groupId ↔ ∃ p ∈ s.system.mappedPlaces, c.pageOffset p = o

/-- The broadcast of the step, if it makes one, is uniform. -/
def Uniform (c : TpConfig) (s : TpSystem) : TpAct → Prop
  | .allocator act answers => ∀ b ∈ c.broadcast s.system act,
      b.Uniform c.socketDir answers s.workers
  | .lose _ => True

instance (c : TpConfig) : ∀ s a, Decidable (Uniform c s a) := fun _ a => by
  cases a <;> unfold Uniform <;> infer_instance

variable {c : TpConfig} {s t : TpSystem} {act : Act} {answers : Nat → Answer}

theorem step_allocator (h : step c s (.allocator act answers) = some t) :
    System.step c.toPageAllocatorConfig s.system act = some t.system ∧
      (c.broadcast s.system act = none ∧ t.workers = s.workers ∨
        ∃ b, c.broadcast s.system act = some b ∧
          (b.run c.socketDir answers s.workers).1.isOk = act.returnsOk ∧
          t.workers = (b.run c.socketDir answers s.workers).2) := by
  simp only [step] at h
  split at h
  case h_1 => cases h
  case h_2 u hu =>
    split at h
    case h_1 hb =>
      cases h
      exact ⟨hu, .inl ⟨hb, rfl⟩⟩
    case h_2 b hb =>
      split_ifs at h with hok
      cases h
      exact ⟨hu, .inr ⟨b, hb, hok, rfl⟩⟩

theorem acted_subset {offsets : List Int} {a : Answer} {o : Int} (h : o ∈ a.acted offsets) :
    o ∈ offsets := by
  cases a with
  | success => exact h
  | failure response done => exact List.mem_of_mem_filter h

/-- Agreement after a broadcast to the manager's stage, worker by worker. -/
theorem agrees_run_iff {b : Broadcast} (hsize : b.tpSize = c.worldSize)
    (hstage : b.ppRank = c.ppRank) (ht : t.workers = (b.run c.socketDir answers s.workers).2) :
    t.Agrees c ↔ ∀ rank ∈ b.ranks, ∀ path w,
      getWorkerSocketPath c.socketDir rank b.ppRank = .ok path → s.workers path = some w →
      ∀ o, o ∈ w.act b.message ((answers rank).acted b.message.offsets) c.groupId ↔
        ∃ p ∈ t.system.mappedPlaces, c.pageOffset p = o := by
  have hrank : ∀ rank, rank ∈ b.ranks ↔ rank < c.worldSize.toNat := by
    intro rank
    rw [Broadcast.ranks, hsize, List.mem_range]
  constructor
  · intro h rank hr path w hpath hw
    refine h rank ((hrank rank).mp hr) path _ (hstage ▸ hpath) ?_
    rw [ht, Broadcast.run_at hr hpath, hw, Option.map_some]
  · intro h rank hr path w' hpath hw'
    rw [← hstage] at hpath
    rw [ht, Broadcast.run_at ((hrank rank).mpr hr) hpath] at hw'
    obtain ⟨w, hw, rfl⟩ := Option.map_eq_some_iff.mp hw'
    exact h rank ((hrank rank).mpr hr) path w hpath hw

/-- A failed map broadcast of pages that were not mapped leaves a worker right when it has mapped
none of them. -/
theorem map_failed_iff {ps M : List PageId} {W : Finset Int} {A : List Int}
    (hW : ∀ o, o ∈ W ↔ ∃ p ∈ M, c.pageOffset p = o) (hnew : ∀ p ∈ ps, p ∉ M)
    (hA : ∀ o ∈ A, o ∈ ps.map c.pageOffset) :
    (∀ o, o ∈ W ∨ o ∈ A ↔ ∃ p ∈ M, c.pageOffset p = o) ↔ A = [] := by
  constructor
  · intro h
    refine List.eq_nil_iff_forall_not_mem.mpr fun o ho => ?_
    obtain ⟨p, hp, rfl⟩ := List.mem_map.mp (hA o ho)
    obtain ⟨q, hq, heq⟩ := (h _).mp (.inr ho)
    rw [c.pageOffset_inj heq] at hq
    exact hnew p hp hq
  · rintro rfl o
    rw [hW o]
    simp

/-- An unmap broadcast of mapped pages leaves a worker right when it has unmapped all of them. -/
theorem unmap_iff {ps M : List PageId} {W : Finset Int} {A : List Int}
    (hW : ∀ o, o ∈ W ↔ ∃ p ∈ M, c.pageOffset p = o) (hmapped : ∀ p ∈ ps, p ∈ M)
    (hA : ∀ o ∈ A, o ∈ ps.map c.pageOffset) :
    (∀ o, o ∈ W ∧ o ∉ A ↔ ∃ p, (p ∈ M ∧ p ∉ ps) ∧ c.pageOffset p = o) ↔
      ∀ o ∈ ps.map c.pageOffset, o ∈ A := by
  constructor
  · intro h o ho
    by_contra hnot
    obtain ⟨p, hp, rfl⟩ := List.mem_map.mp ho
    obtain ⟨q, hq, heq⟩ := (h _).mp ⟨(hW _).mpr ⟨p, hmapped p hp, rfl⟩, hnot⟩
    rw [c.pageOffset_inj heq] at hq
    exact hq.2 hp
  · intro h o
    rw [hW o]
    constructor
    · rintro ⟨⟨p, hp, rfl⟩, hnot⟩
      refine ⟨p, ⟨hp, fun hps => ?_⟩, rfl⟩
      exact hnot (h _ (List.mem_map_of_mem hps))
    · rintro ⟨p, ⟨hp, hps⟩, rfl⟩
      refine ⟨⟨p, hp, rfl⟩, fun hacted => ?_⟩
      obtain ⟨q, hq, heq⟩ := List.mem_map.mp (hA _ hacted)
      exact hps (c.pageOffset_inj heq ▸ hq)

theorem Agrees.worker {b : Broadcast} (hs : s.Agrees c) (hsize : b.tpSize = c.worldSize)
    (hstage : b.ppRank = c.ppRank) {rank : Nat} {path : String} {w : Worker} (hr : rank ∈ b.ranks)
    (hpath : getWorkerSocketPath c.socketDir rank b.ppRank = .ok path)
    (hw : s.workers path = some w) (o : Int) :
    o ∈ w c.groupId ↔ ∃ p ∈ s.system.mappedPlaces, c.pageOffset p = o := by
  rw [Broadcast.ranks, hsize, List.mem_range] at hr
  exact hs rank hr path w (hstage ▸ hpath) hw o

/-- A map broadcast of pages that are not mapped, to the manager's stage and group. -/
theorem map_agrees_iff {ps : List PageId} {ok : Bool} (hpp : c.ppRank = 0) (hgroup : c.groupId = 0)
    (hs : s.Agrees c) (hnew : ∀ p ∈ ps, p ∉ s.system.mappedPlaces)
    (hplaces : ∀ q, q ∈ t.system.mappedPlaces ↔
      ok = true ∧ q ∈ ps ∨ q ∈ s.system.mappedPlaces)
    (hok : ((c.mapPages ps).run c.socketDir answers s.workers).1.isOk = ok)
    (ht : t.workers = ((c.mapPages ps).run c.socketDir answers s.workers).2) :
    t.Agrees c ↔ (c.mapPages ps).Uniform c.socketDir answers s.workers := by
  have hmessage : (c.mapPages ps).message = ⟨.mapToKvTensors, ps.map c.pageOffset, c.groupId⟩ := by
    rw [hgroup]
    rfl
  rw [agrees_run_iff rfl hpp.symm ht]
  simp only [hmessage, Worker.act_map, Finset.mem_union, List.mem_toFinset, hplaces]
  cases ok with
  | true =>
    have hdelivered := Broadcast.run_isOk_iff.mp hok
    refine iff_of_true ?_ hdelivered.uniform
    intro rank hr path w hpath hw o
    rw [(hdelivered rank hr).1, hs.worker rfl hpp.symm hr hpath hw]
    simp only [Answer.acted, List.mem_map]
    grind
  | false =>
    have hnot : ¬(c.mapPages ps).Delivered c.socketDir answers s.workers := by
      rw [← Broadcast.run_isOk_iff, hok]
      simp
    rw [Broadcast.Uniform, hmessage]
    simp only [Bool.false_eq_true, false_and, false_or, hnot]
    constructor
    · intro h rank hr hreach
      obtain ⟨path, hpath, hne⟩ := Broadcast.reaches_iff.mp hreach
      obtain ⟨w, hw⟩ := Option.ne_none_iff_exists'.mp hne
      exact (map_failed_iff (hs.worker rfl hpp.symm hr hpath hw) hnew fun o => acted_subset).mp
        (h rank hr path w hpath hw)
    · intro h rank hr path w hpath hw
      refine (map_failed_iff (hs.worker rfl hpp.symm hr hpath hw) hnew fun o => acted_subset).mpr ?_
      exact h rank hr (Broadcast.reaches_iff.mpr ⟨path, hpath, by simp [hw]⟩)

/-- An unmap broadcast of mapped pages. -/
theorem unmap_agrees_iff {ps : List PageId} (hs : s.Agrees c)
    (hmapped : ∀ p ∈ ps, p ∈ s.system.mappedPlaces)
    (hplaces : ∀ q, q ∈ t.system.mappedPlaces ↔ q ∈ s.system.mappedPlaces ∧ q ∉ ps)
    (ht : t.workers = ((c.unmapPages ps).run c.socketDir answers s.workers).2) :
    t.Agrees c ↔ (c.unmapPages ps).Uniform c.socketDir answers s.workers := by
  have hmessage : (c.unmapPages ps).message =
      ⟨.unmapFromKvTensors, ps.map c.pageOffset, c.groupId⟩ := rfl
  rw [agrees_run_iff rfl rfl ht, Broadcast.Uniform]
  simp only [hmessage, Worker.act_unmap, Finset.mem_sdiff, List.mem_toFinset, hplaces]
  constructor
  · intro h rank hr hreach
    obtain ⟨path, hpath, hne⟩ := Broadcast.reaches_iff.mp hreach
    obtain ⟨w, hw⟩ := Option.ne_none_iff_exists'.mp hne
    exact (unmap_iff (hs.worker rfl rfl hr hpath hw) hmapped fun o => acted_subset).mp
      (h rank hr path w hpath hw)
  · intro h rank hr path w hpath hw
    refine (unmap_iff (hs.worker rfl rfl hr hpath hw) hmapped fun o => acted_subset).mpr ?_
    exact h rank hr (Broadcast.reaches_iff.mpr ⟨path, hpath, by simp [hw]⟩)

theorem lockSection_of_no_broadcast (h : c.broadcast s.system act = none) :
    System.LockSection act := by
  cases act <;> first | exact trivial | cases h

theorem step_agrees_iff {a : TpAct} (hpp : c.ppRank = 0) (hgroup : c.groupId = 0)
    (hs : s.Agrees c) (hn : s.system.places.Nodup) (h : step c s a = some t) :
    t.Agrees c ↔ s.Uniform c a := by
  cases a with
  | lose path =>
    cases h
    refine iff_of_true ?_ trivial
    intro rank hr q w hq hw
    dsimp only at hw ⊢
    by_cases heq : q = path
    · rw [heq, Function.update_self] at hw
      cases hw
    · rw [Function.update_of_ne heq] at hw
      exact hs rank hr q w hq hw
  | allocator act answers =>
    obtain ⟨hstep, ⟨hb, hw⟩ | ⟨b, hb, hok, hw⟩⟩ := step_allocator h
    · refine iff_of_true ?_ fun b hsome => by rw [hb] at hsome; cases hsome
      intro rank hr path w hpath hworker o
      rw [hw] at hworker
      simp only [(System.lockSection_keeps (lockSection_of_no_broadcast hb) hstep).2]
      exact hs rank hr path w hpath hworker o
    · have huniform : s.Uniform c (.allocator act answers) ↔
          b.Uniform c.socketDir answers s.workers := by
        simp [Uniform, hb]
      have hplaces := System.step_mappedPlaces hn hstep
      rw [huniform]
      cases act
      case mapReturns ok =>
        obtain rfl := Option.some.inj hb
        refine map_agrees_iff hpp hgroup hs ?_ ?_ hok hw
        · intro p hp
          exact System.beingMapped_apart hn (List.mem_append_left _ hp)
        · intro q
          rw [hplaces q]
          cases ok <;> simp [System.newlyMapped, System.newlyUnmapped, Act.returnsOk]
      case unmapReturns ok =>
        obtain rfl := Option.some.inj hb
        have hengine : ∃ k ps, s.system.engine = .unmapping k ps := by
          simp only [System.step] at hstep
          split at hstep
          case h_1 k ps hi => exact ⟨k, ps, hi⟩
          case h_2 k ps hi => exact ⟨k, ps, hi⟩
          case h_3 => cases hstep
        obtain ⟨k, ps, hi⟩ := hengine
        refine unmap_agrees_iff hs ?_ ?_ hw
        · intro p hp
          rw [hi] at hp
          rw [System.mem_mappedPlaces, hi]
          exact .inr (.inr (.inl hp))
        · intro q
          rw [hplaces q]
          simp [System.newlyMapped, System.newlyUnmapped]
      case workerMapReturns ok =>
        obtain rfl := Option.some.inj hb
        refine map_agrees_iff hpp hgroup hs ?_ ?_ hok hw
        · intro p hp
          exact System.beingMapped_apart hn (List.mem_append_right _ hp)
        · intro q
          rw [hplaces q]
          cases ok <;> simp [System.newlyMapped, System.newlyUnmapped, Act.returnsOk]
      all_goals cases hb

/-- The growths of the run are clean. -/
def GrowsCleanly (c : TpConfig) (s : TpSystem) : TpAct → Prop
  | .allocator act _ => System.GrowsCleanly c.toPageAllocatorConfig s.system act
  | .lose _ => True

instance (c : TpConfig) : ∀ s a, Decidable (GrowsCleanly c s a) := fun _ a => by
  cases a <;> unfold GrowsCleanly <;> infer_instance

theorem step_owned {a : TpAct} (hs : s.system.Owned) (hg : s.GrowsCleanly c a)
    (h : step c s a = some t) : t.system.Owned := by
  cases a with
  | lose path =>
    cases h
    exact hs
  | allocator act answers => exact System.step_owned hs hg (step_allocator h).1

/-- The workers have nothing mapped for the manager's group. -/
def Unmapped (c : TpConfig) (ws : Workers) : Prop :=
  ∀ rank < c.worldSize.toNat, ∀ path w, getWorkerSocketPath c.socketDir rank c.ppRank = .ok path →
    ws path = some w → w c.groupId = ∅

theorem start_agrees {ws : Workers} (hws : Unmapped c ws) : (start c ws).Agrees c := by
  intro rank hr path w hpath hw o
  rw [hws rank hr path w hpath hw]
  simp [start, System.mappedPlaces, System.init, PageAllocator.init, EnginePc.mappedInFlight,
    WorkerPc.mappedInFlight]

theorem start_owned (ws : Workers) : (start c ws).system.Owned := System.init_owned _

theorem along_agrees_iff {acts : List TpAct} (hpp : c.ppRank = 0) (hgroup : c.groupId = 0)
    (hs : s.Agrees c) (ho : s.system.Owned) (hg : Along (step c) (GrowsCleanly c) s acts)
    (hrun : run (step c) s acts = some t) :
    Along (step c) (fun s a => ∀ u, step c s a = some u → u.Agrees c) s acts ↔
      Along (step c) (Uniform c) s acts := by
  refine along_next_iff (I := fun s => s.system.Owned) ?_ ?_ ho hs hg hrun
  · intro s a u ho hs _ hu
    exact step_agrees_iff hpp hgroup hs (List.nodup_iff_count_le_one.mpr ho.once) hu
  · intro s a u ho hga hu
    exact step_owned ho hga hu

/-- In every run, failed broadcasts included, the workers of the first stage and of group 0 agree
with the lists of their allocator in every state exactly when each broadcast is uniform. -/
theorem agrees_iff_uniform (c : TpConfig) (hpp : c.ppRank = 0) (hgroup : c.groupId = 0)
    {ws : Workers} (hws : Unmapped c ws) {acts : List TpAct}
    (hrun : run (step c) (start c ws) acts = some t)
    (hg : Along (step c) (GrowsCleanly c) (start c ws) acts) :
    Along (step c) (fun s a => ∀ u, step c s a = some u → u.Agrees c) (start c ws) acts ↔
      Along (step c) (Uniform c) (start c ws) acts :=
  along_agrees_iff hpp hgroup (start_agrees hws) (start_owned ws) hg hrun

/-- Two workers a stage and three pages. -/
def twoWorkers (groupId : Int) : TpConfig where
  numLayers := 1
  memSizePerLayer := 3
  pageSize := 1
  worldSize := 2
  groupId := groupId
  maxReservedPagesEnv := 0
  socketDir := "/tmp/kvcached-tp"
  memSizePerLayer_nonneg := Numerals.nonneg_three
  tensorParallel := .inl (by decide)

/-- Every worker runs and has nothing mapped. -/
def idleWorkers : Workers := fun _ => some fun _ => ∅

theorem unmapped_idle (c : TpConfig) : Unmapped c idleWorkers := by
  intro rank hr path w hpath hw
  cases hw
  rfl

/-- Rank 0 answers success; rank 1 fails, before or after it acts. -/
def secondFails (done : List Int) : Nat → Answer
  | 0 => .success
  | _ => .failure "[Errno 104] Connection reset by peer" done

/-- An `alloc_page` that maps page 0 in all workers. -/
def allocFirst : List TpAct := [.allocator .allocPage fun _ => .success,
  .allocator (.mapReturns true) fun _ => .success, .allocator .relock fun _ => .success]

/-- The page is freed, and rank 1 unmaps it but its reply is lost. -/
def freeReplyLost : List TpAct := allocFirst ++ [.allocator (.freePage 0) fun _ => .success,
  .allocator (.unmapReturns false) (secondFails [0])]

theorem agrees_iff_uniform_freeReplyLost :
    ∃ t, run (step (twoWorkers 0)) (start (twoWorkers 0) idleWorkers) freeReplyLost = some t ∧
      t.system.mappedPlaces = [] ∧
      Along (step (twoWorkers 0)) (fun s a => ∀ u, step (twoWorkers 0) s a = some u →
        u.Agrees (twoWorkers 0)) (start (twoWorkers 0) idleWorkers) freeReplyLost := by
  have hrun : run (step (twoWorkers 0)) (start (twoWorkers 0) idleWorkers) freeReplyLost = some _ :=
    (Option.some_get (by decide +kernel)).symm
  have hiff := agrees_iff_uniform (twoWorkers 0) rfl rfl (unmapped_idle _) hrun (by decide +kernel)
  exact ⟨_, hrun, by decide +kernel, hiff.mpr (by decide +kernel)⟩

/-- Rank 0 maps page 0 and rank 1 fails before it does: the page is free again and the workers
differ. -/
theorem failed_map_diverges :
    ∃ t, run (step (twoWorkers 0)) (start (twoWorkers 0) idleWorkers)
        [.allocator .allocPage fun _ => .success,
          .allocator (.mapReturns false) (secondFails [])] = some t ∧
      t.system.engine = .idle ∧ t.system.pa.freePageList = [0, 1, 2] ∧
      t.system.mappedPlaces = [] ∧
      (t.workers "/tmp/kvcached-tp/w0.sock").map (· 0) = some {0} ∧
      (t.workers "/tmp/kvcached-tp/w1.sock").map (· 0) = some ∅ := by
  refine ⟨_, (Option.some_get (by decide +kernel)).symm, ?_⟩
  decide +kernel

/-- The broadcast of the step, if it makes one, reaches every worker and succeeds. -/
def Succeeds (c : TpConfig) (s : TpSystem) : TpAct → Prop
  | .allocator act answers => ∀ b ∈ c.broadcast s.system act,
      b.Delivered c.socketDir answers s.workers
  | .lose _ => False

instance (c : TpConfig) : ∀ s a, Decidable (Succeeds c s a) := fun _ a => by
  cases a <;> unfold Succeeds <;> infer_instance

/-- The workers of other stages, and what these have mapped for other groups, are as in `ws`. -/
def LeavesOthers (c : TpConfig) (ws : Workers) (s : TpSystem) : Prop :=
  ∀ (ppRank groupId : Int) rank path, 0 ≤ ppRank →
    getWorkerSocketPath c.socketDir rank ppRank = .ok path →
    (ppRank, groupId) ≠ (c.ppRank, c.groupId) →
    (s.workers path).map (· groupId) = (ws path).map (· groupId)

theorem run_leavesOthers {b : Broadcast} {dir : String} {ws : Workers} {ppRank groupId : Int}
    {rank : Nat} {path : String} (hpp : b.ppRank = 0) (hgroup : b.message.groupId = 0)
    (hstage : 0 ≤ ppRank) (hpath : getWorkerSocketPath dir rank ppRank = .ok path)
    (hother : (ppRank, groupId) ≠ (0, 0)) :
    ((b.run dir answers ws).2 path).map (· groupId) = (ws path).map (· groupId) := by
  by_cases hrank : ∃ q ∈ b.ranks, getWorkerSocketPath dir q b.ppRank = .ok path
  · obtain ⟨q, hq, hqpath⟩ := hrank
    have hgroup' : groupId ≠ b.message.groupId := by
      intro heq
      rw [hgroup] at heq
      rw [heq] at hother
      have hpos : 0 < ppRank := by
        have : ppRank ≠ 0 := fun h => hother (by rw [h])
        omega
      rw [hpp] at hqpath
      apply workerSocketPath_stage_ne hpos
      exact (getWorkerSocketPath_ok hpath).symm.trans (getWorkerSocketPath_ok hqpath)
    rw [Broadcast.run_at hq hqpath, Option.map_map]
    refine congrArg (fun f => Option.map f (ws path)) (funext fun w => ?_)
    exact Worker.act_other w _ _ hgroup'
  · have hnone : ∀ q ∈ b.ranks, getWorkerSocketPath dir q b.ppRank ≠ .ok path :=
      fun q hq hqpath => hrank ⟨q, hq, hqpath⟩
    exact congrArg _ (gather_other hnone)

theorem broadcast_first {s : System} {b : Broadcast} (hpp : c.ppRank = 0) (hgroup : c.groupId = 0)
    (h : c.broadcast s act = some b) : b.ppRank = 0 ∧ b.message.groupId = 0 := by
  cases act <;> cases h
  all_goals first | exact ⟨rfl, rfl⟩ | exact ⟨hpp, hgroup⟩

theorem step_leavesOthers {ws : Workers} {a : TpAct} (hpp : c.ppRank = 0) (hgroup : c.groupId = 0)
    (hs : s.LeavesOthers c ws) (ha : s.Succeeds c a) (h : step c s a = some t) :
    t.LeavesOthers c ws := by
  cases a with
  | lose path => exact absurd ha id
  | allocator act answers =>
    intro ppRank groupId rank path hstage hpath hother
    have hold := hs ppRank groupId rank path hstage hpath hother
    obtain ⟨-, ⟨-, hw⟩ | ⟨b, hb, -, hw⟩⟩ := step_allocator h
    · rw [hw]
      exact hold
    · obtain ⟨hbpp, hbgroup⟩ := broadcast_first hpp hgroup hb
      rw [hpp, hgroup] at hother
      rw [hw, run_leavesOthers hbpp hbgroup hstage hpath hother]
      exact hold

/-- The map and unmap broadcasts of a page go to the same workers, for the manager's stage and
group, with the same offsets, and after every history these workers have mapped what the allocator
believes and no others have been touched, exactly for the first stage and group 0. -/
theorem broadcasts_agree_iff (c : TpConfig) :
    ((∀ ps, (c.mapPages ps).target = (c.ppRank, c.groupId) ∧
        (c.unmapPages ps).target = (c.ppRank, c.groupId) ∧
        (c.mapPages ps).recipients c.socketDir = (c.unmapPages ps).recipients c.socketDir ∧
        (c.mapPages ps).message.offsets = (c.unmapPages ps).message.offsets) ∧
      ∀ ws acts t, Unmapped c ws → run (step c) (start c ws) acts = some t →
        Along (step c) (GrowsCleanly c) (start c ws) acts →
        Along (step c) (Succeeds c) (start c ws) acts →
        t.Agrees c ∧ t.LeavesOthers c ws) ↔
      c.ppRank = 0 ∧ c.groupId = 0 := by
  constructor
  · intro h
    have htarget := (h.1 []).1
    exact ⟨(congrArg Prod.fst htarget).symm, (congrArg Prod.snd htarget).symm⟩
  · intro ⟨hpp, hgroup⟩
    constructor
    · intro ps
      refine ⟨by rw [hpp, hgroup]; rfl, rfl, ?_, rfl⟩
      change _ = (c.unmapPages ps).ranks.map fun rank => getWorkerSocketPath c.socketDir rank c.ppRank
      rw [hpp]
      rfl
    · intro ws acts t hws hrun hg hok
      have hinv : t.Agrees c ∧ t.system.Owned ∧ t.LeavesOthers c ws := by
        refine run_invariant_along
          (I := fun s => s.Agrees c ∧ s.system.Owned ∧ s.LeavesOthers c ws) ?_
          ⟨start_agrees hws, start_owned ws, fun _ _ _ _ _ _ _ => rfl⟩
          (along_and.mpr ⟨hg, hok⟩) hrun
        intro s a u ⟨hs, ho, hl⟩ ⟨hga, hoka⟩ hu
        have huniform : s.Uniform c a := by
          cases a with
          | lose path => exact trivial
          | allocator act answers => exact fun b hb => (hoka b hb).uniform
        have hn := List.nodup_iff_count_le_one.mpr ho.once
        exact ⟨(step_agrees_iff hpp hgroup hs hn hu).mpr huniform, step_owned ho hga hu,
          step_leavesOthers hpp hgroup hl hoka hu⟩
      exact ⟨hinv.1, hinv.2.2⟩

/-- For group 1 the map broadcast goes to group 0: page 0 is handed out, and the workers have mapped
it for the other group. -/
theorem map_goes_to_group_zero :
    ((twoWorkers 1).mapPages [0]).target = (0, 0) ∧
    ((twoWorkers 1).unmapPages [0]).target = (0, 1) ∧
    ∃ t, run (step (twoWorkers 1)) (start (twoWorkers 1) idleWorkers) allocFirst = some t ∧
      Along (step (twoWorkers 1)) (Succeeds (twoWorkers 1)) (start (twoWorkers 1) idleWorkers)
        allocFirst ∧
      t.system.handedOut = [0] ∧
      (t.workers "/tmp/kvcached-tp/w0.sock").map (· 1) = some ∅ ∧
      (t.workers "/tmp/kvcached-tp/w0.sock").map (· 0) = some {0} := by
  refine ⟨rfl, rfl, _, (Option.some_get (by decide +kernel)).symm, ?_⟩
  decide +kernel

end TpSystem

end GpuSharing.Kvcached
