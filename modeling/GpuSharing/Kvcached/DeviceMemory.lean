import Mathlib.Data.Finset.Card
import GpuSharing.Kvcached.AllocatorRuns
import GpuSharing.Kvcached.PageMapping

namespace GpuSharing.Kvcached

open Transition

namespace PageAllocatorConfig

/-- The bytes a page takes on the device over all layers and buffers. -/
def pageBytes (c : PageAllocatorConfig) : Int := c.pageSize * c.numLayers * c.numKvBuffers

/-- What `cudaMemGetInfo` reports when this allocator alone maps and unmaps device memory, of which
`free` bytes were free with nothing mapped. -/
def soleDevice (c : PageAllocatorConfig) (free headroom : Nat) (s : System) : Nat × Nat :=
  ((free - s.physical.card * c.pageBytes).toNat, headroom)

/-- The pages that fit into the free memory less the headroom. -/
def pagesThatFit (c : PageAllocatorConfig) (free headroom : Nat) : Int :=
  max 0 ((free : Int) - headroom) / c.pageBytes

theorem pageBytes_pos (c : PageAllocatorConfig) : 0 < c.pageBytes :=
  Int.mul_pos (Int.mul_pos c.pageSize_pos c.numLayers_pos) c.numKvBuffers_pos

end PageAllocatorConfig

namespace PageAllocator

theorem sub_mul_ediv {x y z : Int} (hz : z ≠ 0) : (x - y * z) / z = x / z - y := by
  rw [sub_eq_add_neg, ← neg_mul, Int.add_mul_ediv_right _ _ hz, ← sub_eq_add_neg]

/-- While the mapped pages leave the headroom alone, each of them takes one available page. -/
theorem getAvailPhysicalPages_sole (c : PageAllocatorConfig) {free headroom mapped : Nat}
    (hfree : free < 2^63) (hfit : headroom + mapped * c.pageBytes ≤ free) :
    getAvailPhysicalPages c (free - mapped * c.pageBytes).toNat headroom =
      ((free : Int) - headroom) / c.pageSize / c.numLayers / c.numKvBuffers - mapped := by
  have hps := c.pageSize_pos
  have hnl := c.numLayers_pos
  have hnb := c.numKvBuffers_pos
  have hbytes : 0 ≤ mapped * c.pageBytes := by
    unfold PageAllocatorConfig.pageBytes
    positivity
  have hsize : ((sizeT ((free - mapped * c.pageBytes).toNat - headroom) : Nat) : Int) =
      free - headroom - mapped * c.numLayers * c.numKvBuffers * c.pageSize := by
    rw [sizeT, Int.emod_eq_of_lt (by omega) (by omega), Int.toNat_of_nonneg (by omega),
      Int.toNat_of_nonneg (by omega), PageAllocatorConfig.pageBytes]
    ring
  have hx : 0 ≤ (free : Int) - headroom - mapped * c.numLayers * c.numKvBuffers * c.pageSize := by
    have : (mapped : Int) * c.pageBytes = mapped * c.numLayers * c.numKvBuffers * c.pageSize := by
      rw [PageAllocatorConfig.pageBytes]
      ring
    omega
  have hpages : 0 ≤ (free - headroom : Int) / c.pageSize - mapped * c.numLayers * c.numKvBuffers := by
    rw [← sub_mul_ediv hps.ne']
    exact Int.ediv_nonneg hx hps.le
  have hlayers : 0 ≤ (free - headroom : Int) / c.pageSize / c.numLayers -
      mapped * c.numKvBuffers := by
    rw [← sub_mul_ediv hnl.ne']
    apply Int.ediv_nonneg _ hnl.le
    rwa [mul_right_comm]
  have hlt : (free - headroom : Int) / c.pageSize ≤ free - headroom :=
    Int.ediv_le_self _ (by omega)
  have hmul : 0 ≤ (mapped : Int) * c.numLayers * c.numKvBuffers := by positivity
  unfold getAvailPhysicalPages
  dsimp only
  rw [hsize, sub_mul_ediv hps.ne', Int.bmod_eq_of_le_mul_two (by omega) (by omega),
    Int.tdiv_eq_ediv_of_nonneg hpages, mul_right_comm, sub_mul_ediv hnl.ne',
    Int.tdiv_eq_ediv_of_nonneg hlayers, sub_mul_ediv hnb.ne']

/-- Pages of at least two bytes are few enough to be counted by an `int64_t`. -/
theorem getAvailPhysicalPages_eq (c : PageAllocatorConfig) (hpage : 2 ≤ c.pageSize)
    (free headroom : Nat) :
    getAvailPhysicalPages c free headroom = sizeT (free - headroom) / c.pageBytes := by
  have hlt : (sizeT (free - headroom) : Int) < 2^64 := by
    rw [sizeT]
    omega
  have hpages : 0 ≤ (sizeT (free - headroom) : Int) / c.pageSize :=
    Int.ediv_nonneg (Int.natCast_nonneg _) c.pageSize_pos.le
  have hhalf : (sizeT (free - headroom) : Int) / c.pageSize < 2^63 := by
    apply Int.ediv_lt_of_lt_mul c.pageSize_pos
    omega
  unfold getAvailPhysicalPages
  dsimp only
  rw [Int.bmod_eq_of_le_mul_two (by omega) (by omega), Int.tdiv_eq_ediv_of_nonneg hpages,
    Int.tdiv_eq_ediv_of_nonneg (Int.ediv_nonneg hpages c.numLayers_pos.le),
    Int.ediv_ediv_of_nonneg c.pageSize_pos.le,
    Int.ediv_ediv_of_nonneg (Int.mul_pos c.pageSize_pos c.numLayers_pos).le]
  rfl

/-- Below the headroom the difference wraps, and what it wraps to is at least a page unless a page
of all layers and buffers is as large. -/
theorem available_pages_iff (c : PageAllocatorConfig) (hpage : 2^21 ∣ c.pageSize)
    {free headroom : Nat} (hfree : free < 2^64) (hheadroom : headroom < 2^64) :
    (getAvailPhysicalPages c free headroom = c.pagesThatFit free headroom ↔
      headroom ≤ free ∨ 2^64 - ((headroom : Int) - free) < c.pageBytes) ∧
    (getAvailPhysicalPages c free headroom ≤ c.pagesThatFit free headroom ↔
      headroom ≤ free ∨ 2^64 - ((headroom : Int) - free) < c.pageBytes) := by
  have hsize : 2 ≤ c.pageSize := by
    have hle := Int.le_of_dvd c.pageSize_pos hpage
    omega
  rw [getAvailPhysicalPages_eq c hsize, PageAllocatorConfig.pagesThatFit]
  by_cases hroom : headroom ≤ free
  · have hexact : (sizeT (free - headroom) : Int) = max 0 ((free : Int) - headroom) := by
      rw [sizeT, Int.emod_eq_of_lt (by omega) (by omega)]
      omega
    rw [hexact]
    exact ⟨iff_of_true rfl (.inl hroom), iff_of_true le_rfl (.inl hroom)⟩
  · have hwrap : (sizeT (free - headroom) : Int) = 2^64 - ((headroom : Int) - free) := by
      rw [sizeT]
      omega
    have hnone : max 0 ((free : Int) - headroom) = 0 := by omega
    rw [hwrap, hnone, Int.zero_ediv, or_iff_right hroom]
    have hzero := InternalPage.ediv_eq_zero_iff
      (x := 2^64 - ((headroom : Int) - free)) (by omega) c.pageBytes_pos
    have hpos : 0 ≤ (2^64 - ((headroom : Int) - free)) / c.pageBytes :=
      Int.ediv_nonneg (by omega) c.pageBytes_pos.le
    exact ⟨hzero, by rw [← hzero]; omega⟩

/-- 32 layers in pages of 2 MiB, with the keys and values apart. -/
def fullDevice : PageAllocatorConfig where
  numLayers := 32
  memSizePerLayer := 2^30
  pageSize := 2^21
  pageSize_pos := Numerals.pos_page

/-- 1 GiB is free on a device of 80 GiB, whose headroom is 4 GiB. -/
theorem below_headroom_wraps : getAvailPhysicalPages fullDevice (2^30) (2^32) = 137438953448 ∧
    fullDevice.pagesThatFit (2^30) (2^32) = 0 := by decide +kernel

theorem available_pages_iff_below : getAvailPhysicalPages fullDevice (2^30) (2^32) ≤
    fullDevice.pagesThatFit (2^30) (2^32) ↔
      2^32 ≤ 2^30 ∨ 2^64 - (((2^32 : Nat) : Int) - (2^30 : Nat)) < fullDevice.pageBytes :=
  (available_pages_iff fullDevice (by decide) (by decide) (by decide)).2

end PageAllocator

namespace System

theorem Ran.mapsExactly {c : PageAllocatorConfig} {s : System} (h : Ran c false s) :
    s.MapsExactly := by
  obtain ⟨acts, hrun, hacts⟩ := h
  apply run_maps_exactly hrun
  · exact along_of_mem (fun act hact _ => succeeds_of_plain (hacts act hact)) _
  · exact along_of_mem (fun act hact _ => growsCleanly_of_plain (hacts act hact)) _

end System

namespace AllocatorProcess

variable {c : PageAllocatorConfig} {a : AllocatorProcess}

/-- While neither thread has pages in flight, the pages mapped are the reserved ones and those
handed out. -/
theorem Idle.card_physical (h : a.Idle c false) (hw : a.system.worker = .idle) :
    a.system.physical.card = a.system.pa.reservedPageList.length + a.system.handedOut.length := by
  have hplaces : a.system.mappedPlaces = a.system.pa.reservedPageList ++ a.system.handedOut := by
    simp [System.mappedPlaces, h.engine, hw, EnginePc.mappedInFlight, WorkerPc.mappedInFlight]
  have hn : (a.system.pa.reservedPageList ++ a.system.handedOut).Nodup := by
    rw [List.nodup_iff_count_le_one]
    intro q
    have hcount := h.ran.owned.once q
    rw [System.count_places, PageAllocator.count_lists] at hcount
    rw [List.count_append]
    omega
  have hset : a.system.physical =
      (a.system.pa.reservedPageList ++ a.system.handedOut).toFinset := by
    ext p
    rw [h.ran.mapsExactly p, hplaces, List.mem_toFinset]
  rw [hset, List.toFinset_card_of_nodup hn, List.length_append]

end AllocatorProcess

end GpuSharing.Kvcached
