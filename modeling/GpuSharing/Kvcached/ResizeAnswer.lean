import GpuSharing.Kvcached.AllocatorResize

namespace GpuSharing.Kvcached

namespace PageAllocator

/-- The three ways the first lock section of a resize ends. -/
theorem resizeLocked_cases (n : Int) (a : PageAllocator) :
    (∃ b, a.resizeLocked n = (.returns true, b) ∧ b.numTotalPages = n ∧
      a.getNumInusePages ≤ n ∧ a.numTotalPages - n ≤ a.freePageList.length) ∨
    (a.resizeLocked n = (.returns false, a) ∧
      (n < a.getNumInusePages ∨
        a.freePageList.length < a.numTotalPages - n ∧ a.reservedPageList = [])) ∨
    (a.resizeLocked n = (.unmaps a.reservedPageList, { a with reservedPageList := [] }) ∧
      a.getNumInusePages ≤ n ∧ a.freePageList.length < a.numTotalPages - n ∧
      a.reservedPageList ≠ []) := by
  unfold resizeLocked
  split_ifs with hinuse heq hgrow hfree hnil
  · exact .inr (.inl ⟨rfl, .inl hinuse⟩)
  · exact .inl ⟨a, rfl, heq.symm, not_lt.mp hinuse, by omega⟩
  · exact .inl ⟨_, rfl, rfl, not_lt.mp hinuse, by omega⟩
  · exact .inr (.inl ⟨rfl, .inr ⟨hfree, List.isEmpty_iff.mp hnil⟩⟩)
  · refine .inr (.inr ⟨rfl, not_lt.mp hinuse, hfree, ?_⟩)
    rintro hempty
    exact hnil (List.isEmpty_iff.mpr hempty)
  · exact .inl ⟨_, rfl, rfl, not_lt.mp hinuse, not_lt.mp hfree⟩

theorem resizeRelocked_total (n : Int) (ps : List PageId) (a : PageAllocator) :
    (a.resizeRelocked n ps).2.numTotalPages =
      if (a.resizeRelocked n ps).1 then n else a.numTotalPages := by
  unfold resizeRelocked
  dsimp only
  split_ifs <;> first | rfl | contradiction

theorem resizeRelocked_iff (n : Int) (ps : List PageId) (a : PageAllocator) :
    (a.resizeRelocked n ps).1 = true ↔
      a.numTotalPages - n ≤ a.freePageList.length + ps.length := by
  unfold resizeRelocked
  dsimp only [pushFree]
  rw [List.length_append]
  split_ifs with hfree
  · exact iff_of_false (by simp) (by omega)
  · exact iff_of_true rfl (by omega)

end PageAllocator

namespace System

variable {c : PageAllocatorConfig} {s t : System}

/-- A move of the worker depends on the lists and on the worker only, and leaves the page count
alone. -/
theorem move_congr (w : WorkerMove) (hpa : s.pa = t.pa) (hworker : s.worker = t.worker) :
    ((step c s w.act).getD s).pa = ((step c t w.act).getD t).pa ∧
      ((step c s w.act).getD s).worker = ((step c t w.act).getD t).worker ∧
      ((step c s w.act).getD s).pa.numTotalPages = s.pa.numTotalPages := by
  cases w with
  | grab n =>
    simp only [WorkerMove.act, step, hpa, hworker]
    split_ifs
    · split
      case h_1 a hgrab =>
        cases (Prod.mk.inj hgrab).2
        exact ⟨rfl, rfl, rfl⟩
      case h_2 p ps a hgrab =>
        cases (Prod.mk.inj hgrab).2
        exact ⟨rfl, rfl, rfl⟩
    · exact ⟨hpa, hworker, congrArg _ hpa⟩
  | mapReturns =>
    simp only [WorkerMove.act, step, hworker]
    split
    case h_1 => exact ⟨hpa, rfl, rfl⟩
    case h_2 h => cases h
    case h_3 => exact ⟨hpa, hworker, rfl⟩
  | relock =>
    simp only [WorkerMove.act, step, hworker]
    split
    case h_1 =>
      rw [hpa]
      exact ⟨rfl, rfl, rfl⟩
    case h_2 => exact ⟨hpa, hworker, rfl⟩

theorem drive_congr (moves : List WorkerMove) (hpa : s.pa = t.pa) (hworker : s.worker = t.worker) :
    (s.drive c moves).pa = (t.drive c moves).pa ∧
      (s.drive c moves).worker = (t.drive c moves).worker := by
  induction moves generalizing s t with
  | nil => exact ⟨hpa, hworker⟩
  | cons w moves ih =>
    obtain ⟨hpa', hworker', -⟩ := move_congr (c := c) w hpa hworker
    exact ih hpa' hworker'

theorem drive_total (c : PageAllocatorConfig) (s : System) (moves : List WorkerMove) :
    (s.drive c moves).pa.numTotalPages = s.pa.numTotalPages := by
  induction moves generalizing s with
  | nil => rfl
  | cons w moves ih =>
    obtain ⟨-, -, htotal⟩ := move_congr (c := c) w (rfl : s.pa = s.pa) rfl
    exact (ih _).trans htotal

end System

namespace AllocatorProcess

open GpuSharing.Kvcached.System

variable {c : PageAllocatorConfig} {a : AllocatorProcess}

/-- The allocator when `resize` takes the lock. -/
def locked (c : PageAllocatorConfig) (a : AllocatorProcess) : System :=
  a.system.drive c (a.schedule.headD [])

/-- The allocator when a `resize` that unmaps the reserved pages takes the lock again. -/
def relocked (c : PageAllocatorConfig) (a : AllocatorProcess) : System :=
  let s := a.locked c
  let s := { s with pa := { s.pa with reservedPageList := [] } }
  (s.drive c (a.schedule.tail.headD [])).drive c (a.schedule.tail.tail.headD [])

/-- Few enough pages are in use to bring the page count to `n`, and the free list covers the rest,
with the reserved pages if need be. -/
def Fits (c : PageAllocatorConfig) (n : Int) (a : AllocatorProcess) : Prop :=
  let s := (a.locked c).pa
  s.getNumInusePages ≤ n ∧
    (s.numTotalPages - n ≤ s.freePageList.length ∨
      s.reservedPageList ≠ [] ∧
        s.numTotalPages - n ≤ (a.relocked c).pa.freePageList.length + s.reservedPageList.length)

instance (c : PageAllocatorConfig) (n : Int) (a : AllocatorProcess) : Decidable (a.Fits c n) :=
  inferInstanceAs (Decidable (_ ∧ (_ ∨ _ ∧ _)))

/-- The lists a resize that unmaps finds when it takes the lock again. -/
theorem engine_relocked {m : Int} {k : AfterUnmap} {ps : List PageId}
    (hpa : (engine c (.resize m) a).system.pa =
      { (a.locked c).pa with reservedPageList := [] })
    (hworker : (engine c (.resize m) a).system.worker = (a.locked c).worker)
    (hpc : (engine c (.resize m) a).system.engine = .unmapping k ps) :
    ((engine c (.unmapReturns true) (engine c (.resize m) a)).locked c).pa =
      (a.relocked c).pa := by
  obtain ⟨hpc', -⟩ := drive_frame c (engine c (.resize m) a).system (a.schedule.tail.headD [])
  obtain ⟨hpa', hworker'⟩ := drive_congr (c := c) (s := (engine c (.resize m) a).system)
    (t := { a.locked c with pa := { (a.locked c).pa with reservedPageList := [] } })
    (a.schedule.tail.headD []) hpa hworker
  have hstep : (engine c (.unmapReturns true) (engine c (.resize m) a)).system =
      (System.step c ((engine c (.resize m) a).system.drive c (a.schedule.tail.headD []))
        (.unmapReturns true)).getD
        ((engine c (.resize m) a).system.drive c (a.schedule.tail.headD [])) := rfl
  simp only [System.step, hpc', hpc, Option.getD_some] at hstep
  refine (drive_congr (a.schedule.tail.tail.headD []) ?_ ?_).1
  · rw [hstep]
    exact hpa'
  · rw [hstep]
    exact hworker'

theorem resize_returns {m : Int} {ok : Bool} {b : PageAllocator} (h : a.Idle c true)
    (hout : (a.locked c).pa.resizeLocked (m.tdiv c.pageSize) = (.returns ok, b)) :
    (resize c m a).1 = ok ∧ (resize c m a).2.system.pa = b := by
  have hengine : (engine c (.resize m) a).system = (a.locked c).resizeStep c m := engine_resize h
  unfold System.resizeStep at hengine
  unfold locked at hengine hout
  unfold resize
  dsimp only at hengine ⊢
  rw [hout] at hengine ⊢
  exact ⟨rfl, by rw [hengine]⟩

theorem resize_unmaps {m : Int} (h : a.Idle c true)
    (hout : (a.locked c).pa.resizeLocked (m.tdiv c.pageSize) =
      (.unmaps (a.locked c).pa.reservedPageList,
        { (a.locked c).pa with reservedPageList := [] })) :
    (resize c m a).1 = ((a.relocked c).pa.resizeRelocked (m.tdiv c.pageSize)
        (a.locked c).pa.reservedPageList).1 ∧
      (resize c m a).2.system.pa = ((a.relocked c).pa.resizeRelocked (m.tdiv c.pageSize)
        (a.locked c).pa.reservedPageList).2 := by
  have hengine : (engine c (.resize m) a).system = (a.locked c).resizeStep c m := engine_resize h
  unfold System.resizeStep at hengine
  dsimp only at hengine
  rw [hout] at hengine
  have hpc : (engine c (.resize m) a).system.engine =
      .unmapping (.resize (m.tdiv c.pageSize)) (a.locked c).pa.reservedPageList := by rw [hengine]
  have hrelocked := engine_relocked (by rw [hengine]) (by rw [hengine]) hpc
  obtain ⟨-, -, hpa⟩ := engine_relock_resize (c := c) (engine_unmapReturns (c := c) hpc).1
  unfold locked at hrelocked
  rw [hrelocked] at hpa
  unfold locked at hout
  unfold resize
  dsimp only
  rw [hout]
  dsimp only
  rw [hrelocked]
  exact ⟨rfl, hpa⟩

theorem relocked_total : (a.relocked c).pa.numTotalPages = a.system.pa.numTotalPages := by
  unfold relocked
  dsimp only
  rw [drive_total, drive_total]
  exact drive_total c _ _

/-- A resize answers whether the pages fit, and it reaches its target exactly then; else it leaves the
page count, which is larger. -/
theorem resize_fits (h : a.Idle c true) (m : Int) :
    a.Fits c (m.tdiv c.pageSize) ∧ (resize c m a).1 = true ∧
        (resize c m a).2.system.pa.numTotalPages = m.tdiv c.pageSize ∨
      ¬a.Fits c (m.tdiv c.pageSize) ∧ (resize c m a).1 = false ∧
        (resize c m a).2.system.pa.numTotalPages = a.system.pa.numTotalPages ∧
        m.tdiv c.pageSize < a.system.pa.numTotalPages := by
  have htotal : (a.locked c).pa.numTotalPages = a.system.pa.numTotalPages := drive_total c _ _
  have hfree : 0 ≤ (a.locked c).pa.numFreePages :=
    System.numFreePages_nonneg (h.ran.drive (a.schedule.headD [])).counted
  have hinuse : (a.locked c).pa.getNumInusePages ≤ (a.locked c).pa.numTotalPages := by
    unfold PageAllocator.getNumInusePages
    omega
  rcases PageAllocator.resizeLocked_cases (m.tdiv c.pageSize) (a.locked c).pa with
    ⟨b, hout, hb, hle, hcover⟩ | ⟨hout, hshort⟩ | ⟨hout, hle, hshort, hne⟩
  · obtain ⟨hok, hpa⟩ := resize_returns h hout
    exact .inl ⟨⟨hle, .inl hcover⟩, hok, by rw [hpa, hb]⟩
  · obtain ⟨hok, hpa⟩ := resize_returns h hout
    refine .inr ⟨?_, hok, by rw [hpa, htotal], by omega⟩
    rintro ⟨hle, hcover | ⟨hne, -⟩⟩
    · rcases hshort with hlt | ⟨hlt, -⟩
      · exact absurd hle (not_le.mpr hlt)
      · exact absurd hcover (not_le.mpr hlt)
    · rcases hshort with hlt | ⟨-, hnil⟩
      · exact absurd hle (not_le.mpr hlt)
      · exact hne hnil
  · obtain ⟨hok, hpa⟩ := resize_unmaps h hout
    have hrelock := PageAllocator.resizeRelocked_iff (m.tdiv c.pageSize)
      (a.locked c).pa.reservedPageList (a.relocked c).pa
    have hafter := PageAllocator.resizeRelocked_total (m.tdiv c.pageSize)
      (a.locked c).pa.reservedPageList (a.relocked c).pa
    rw [relocked_total, ← htotal] at hrelock
    rw [← hok] at hrelock hafter
    rw [← hpa] at hafter
    cases hr : (resize c m a).1 with
    | true =>
      rw [hr] at hrelock hafter
      exact .inl ⟨⟨hle, .inr ⟨hne, hrelock.mp rfl⟩⟩, rfl, hafter⟩
    | false =>
      rw [hr] at hrelock hafter
      refine .inr ⟨?_, rfl, hafter.trans relocked_total, by omega⟩
      rintro ⟨-, hcover | ⟨-, hcover⟩⟩
      · exact absurd hcover (not_le.mpr hshort)
      · exact Bool.false_ne_true (hrelock.mpr hcover)

/-- The page count outlives every call but a resize. -/
theorem freePages_total (h : a.Idle c true) (ps : List PageId) :
    (freePages c ps a).system.pa.numTotalPages = a.system.pa.numTotalPages := by
  have hlock : Total a.system.pa.numTotalPages (engine c (.freePages ps) a).system :=
    engine_keeps (step_keeps_total (c := c)) h.total trivial
  exact (finish_keeps (step_keeps_total (c := c)) hlock).1

theorem trim_total (h : a.Idle c true) :
    (trim c a).system.pa.numTotalPages = a.system.pa.numTotalPages := by
  have hlock : Total a.system.pa.numTotalPages (engine c .trim a).system :=
    engine_keeps (step_keeps_total (c := c)) h.total trivial
  exact (finish_keeps (step_keeps_total (c := c)) hlock).1

theorem startPreallocThread_total (h : a.Idle c true) :
    (startPreallocThread c a).system.pa.numTotalPages = a.system.pa.numTotalPages :=
  (startPreallocThread_keeps (step_keeps_total (c := c)) h.total).1

end AllocatorProcess

end GpuSharing.Kvcached
