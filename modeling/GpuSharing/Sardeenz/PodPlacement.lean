import Mathlib.Data.List.Nodup
import Mathlib.Tactic.Linarith
import Mathlib.Tactic.FieldSimp
import GpuSharing.Sardeenz.PodScheduler

namespace GpuSharing.Sardeenz.PodScheduler

variable {peers : List PeerInfo} {profiles : Profiles} {entry : ModelConfigurationEntry}
  {answers : List MemoryProfile} {slots slots' initial chosen candidates : List GpuSlot}
  {strategy : PlacementStrategy} {minKvCacheMb : Option ℚ} {requiredVramMB : ℚ}
  {decision : PlacementDecision} {decisions : List PlacementDecision}

def PlacementDecision.uses (d : PlacementDecision) (podId : String) (gpuId : Nat) : Prop :=
  d.targetPodId = podId ∧ gpuId ∈ d.targetGpuIds

instance (d : PlacementDecision) (podId : String) (gpuId : Nat) :
    Decidable (d.uses podId gpuId) :=
  inferInstanceAs (Decidable (_ ∧ _))

/-- What a decision takes from one GPU: its part of the model's VRAM. -/
def PlacementDecision.share (d : PlacementDecision) (podId : String) (gpuId : Nat) : ℚ :=
  if d.uses podId gpuId then d.estimatedVramMB / d.targetGpuIds.length else 0

/-- What the decisions take from one GPU together. -/
def gpuLoad (decisions : List PlacementDecision) (podId : String) (gpuId : Nat) : ℚ :=
  (decisions.map (·.share podId gpuId)).sum

/-- The decision puts the entry on a healthy pod and on as many of its GPUs as the entry needs. -/
structure Assigned (peers : List PeerInfo) (profiles : Profiles) (e : ModelConfigurationEntry)
    (d : PlacementDecision) : Prop where
  modelPath : d.modelPath = e.modelPath
  vram : ∃ call, d.estimatedVramMB = e.requiredVramMB (profiles call e.modelPath)
  gpuCount : d.targetGpuIds.length = e.tpSize
  gpuIds_nodup : d.targetGpuIds.Nodup
  onPod : ∃ p ∈ getHealthyPeers peers, p.podId = d.targetPodId ∧
    ∀ g ∈ d.targetGpuIds, ∃ gpu ∈ p.gpus, gpu.gpuId = g ∧ e.acceptsGpu gpu.name

theorem ModelConfigurationEntry.tpSize_pos (e : ModelConfigurationEntry) : 0 < e.tpSize :=
  PNat.pos _

@[simp] theorem gpuLoad_nil (podId : String) (gpuId : Nat) : gpuLoad [] podId gpuId = 0 := rfl

theorem gpuLoad_append (decisions : List PlacementDecision) (d : PlacementDecision)
    (podId : String) (gpuId : Nat) :
    gpuLoad (decisions ++ [d]) podId gpuId = gpuLoad decisions podId gpuId + d.share podId gpuId := by
  simp [gpuLoad]

theorem share_of_not_uses {podId : String} {gpuId : Nat} (h : ¬decision.uses podId gpuId) :
    decision.share podId gpuId = 0 := if_neg h

theorem gpuLoad_eq_zero {podId : String} {gpuId : Nat}
    (h : ∀ d ∈ decisions, ¬d.uses podId gpuId) : gpuLoad decisions podId gpuId = 0 := by
  have hzero : ∀ x ∈ decisions.map (·.share podId gpuId), x = 0 := by
    intro x hx
    obtain ⟨d, hd, rfl⟩ := List.mem_map.mp hx
    exact share_of_not_uses (h d hd)
  exact List.sum_eq_zero hzero

theorem isCandidate_iff {slot : GpuSlot} :
    isCandidate entry requiredVramMB minKvCacheMb slot ↔
      entry.acceptsGpu slot.gpuName ∧
      (0 < requiredVramMB → requiredVramMB / entry.tpSize ≤ slot.availableVramMB) ∧
      ∀ kv ∈ minKvCacheMb, kv ≤ slot.availableVramMB - requiredVramMB / entry.tpSize := by
  have hvram : (requiredVramMB ≤ 0 ∨ requiredVramMB / entry.tpSize ≤ slot.availableVramMB) ↔
      (0 < requiredVramMB → requiredVramMB / entry.tpSize ≤ slot.availableVramMB) := by
    rw [← not_lt, ← imp_iff_not_or]
  cases minKvCacheMb <;> simp [isCandidate, and_assoc, hvram]

/-- What `placeEntry` does when it places the entry: it takes some candidates, all of one pod. -/
structure Places (entry : ModelConfigurationEntry) (requiredVramMB : ℚ) (minKvCacheMb : Option ℚ)
    (slots chosen : List GpuSlot) (decision : PlacementDecision) (slots' : List GpuSlot) : Prop where
  subperm : chosen.Subperm (slots.filter (isCandidate entry requiredVramMB minKvCacheMb))
  count : chosen.length = entry.tpSize
  onePod : ∀ s ∈ chosen, s.podId = decision.targetPodId
  modelPath : decision.modelPath = entry.modelPath
  gpuIds : decision.targetGpuIds = chosen.map (·.gpuId)
  vram : decision.estimatedVramMB = requiredVramMB
  deducted : slots' =
    deduct slots chosen (if 0 < requiredVramMB then requiredVramMB / entry.tpSize else 0)

theorem mem_of_head?_insertionSort {α : Type} {r : α → α → Prop} [DecidableRel r] {l : List α}
    {a : α} (h : (l.insertionSort r).head? = some a) : a ∈ l :=
  (List.mem_insertionSort r).mp (List.mem_of_mem_head? h)

theorem selectByStrategy_mem {slot : GpuSlot} (h : selectByStrategy candidates strategy = some slot) :
    slot ∈ candidates := by
  cases strategy with
  | maximizeModels => exact mem_of_head?_insertionSort h
  | balanced => exact mem_of_head?_insertionSort h

theorem choosePod_mem {viablePods : List (String × List GpuSlot)} {pod : String × List GpuSlot}
    (h : choosePod viablePods strategy = some pod) : pod ∈ viablePods := by
  cases strategy with
  | maximizeModels => exact mem_of_head?_insertionSort h
  | balanced => exact mem_of_head?_insertionSort h

theorem mem_podGroups {pod : String × List GpuSlot} (h : pod ∈ podGroups candidates) :
    pod.2 = candidates.filter (·.podId = pod.1) := by
  obtain ⟨podId, -, rfl⟩ := List.mem_map.mp h
  rfl

theorem placeTensorParallel_ok
    (h : placeTensorParallel entry (slots.filter (isCandidate entry requiredVramMB minKvCacheMb))
      slots strategy requiredVramMB = .ok (decision, slots')) :
    ∃ chosen, Places entry requiredVramMB minKvCacheMb slots chosen decision slots' := by
  cases hpod : choosePod
      ((podGroups (slots.filter (isCandidate entry requiredVramMB minKvCacheMb))).filter fun pod =>
        entry.tpSize ≤ pod.2.length) strategy with
  | none =>
    simp only [placeTensorParallel, hpod] at h
    cases h
  | some pod =>
    simp only [placeTensorParallel, hpod] at h
    obtain ⟨hgroup, hviable⟩ := List.mem_filter.mp (choosePod_mem hpod)
    have hgpus := mem_podGroups hgroup
    cases h
    have hperm := List.perm_insertionSort
      (fun a b : GpuSlot => b.availableVramMB ≤ a.availableVramMB) pod.2
    refine ⟨_, ?_, ?_, ?_, rfl, rfl, rfl, rfl⟩
    · have htake := (List.take_sublist entry.tpSize
        (pod.2.insertionSort fun a b => b.availableVramMB ≤ a.availableVramMB)).subperm
      have hfilter : pod.2.Sublist
          (slots.filter (isCandidate entry requiredVramMB minKvCacheMb)) := by
        rw [hgpus]
        exact List.filter_sublist
      exact (htake.trans hperm.subperm).trans hfilter.subperm
    · have hle : entry.tpSize ≤ pod.2.length := by simpa using hviable
      simp only [List.length_take, List.length_insertionSort]
      omega
    · intro s hs
      have hmem : s ∈ pod.2 := hperm.mem_iff.mp (List.mem_of_mem_take hs)
      rw [hgpus] at hmem
      simpa using (List.mem_filter.mp hmem).2

theorem placeEntry_ok
    (h : placeEntry entry answers slots strategy minKvCacheMb = .ok (decision, slots')) :
    ∃ chosen, Places entry (entry.requiredVramMB answers) minKvCacheMb slots chosen decision
      slots' := by
  unfold placeEntry at h
  split_ifs at h with htp
  · exact placeTensorParallel_ok h
  · have htp : entry.tpSize = 1 := by
      have := entry.tpSize_pos
      omega
    dsimp only at h
    split at h
    · cases h
    · rename_i slot hslot
      cases h
      refine ⟨[slot], ?_, htp.symm, ?_, rfl, rfl, rfl, ?_⟩
      · exact List.singleton_subperm_iff.mpr (selectByStrategy_mem hslot)
      · intro s hs
        rw [List.mem_singleton.mp hs]
      · simp [htp]

theorem placeEntry_error {failure : PlacementFailure}
    (h : placeEntry entry answers slots strategy minKvCacheMb = .error failure) :
    failure.modelPath = entry.modelPath := by
  unfold placeEntry at h
  split_ifs at h
  · unfold placeTensorParallel at h
    dsimp only at h
    split at h
    · cases h
      rfl
    · cases h
  · dsimp only at h
    split at h
    · cases h
      rfl
    · cases h

section Deduct

theorem keys_deduct (slots chosen : List GpuSlot) (perGpuVram : ℚ) :
    (deduct slots chosen perGpuVram).map (·.key) = slots.map (·.key) := by
  simp only [deduct, List.map_map]
  refine List.map_congr_left fun s _ => ?_
  simp only [Function.comp_apply]
  split_ifs <;> rfl

/-- A slot of the simulation beside the slot that it was built as: how far the decisions so far have
used it up. -/
structure Tracked (minKvCacheMb : Option ℚ) (decisions : List PlacementDecision)
    (s₀ s : GpuSlot) : Prop where
  key : s.key = s₀.key
  gpuName : s.gpuName = s₀.gpuName
  available : s.availableVramMB ≤ s₀.availableVramMB - gpuLoad decisions s₀.podId s₀.gpuId
  withinFree : gpuLoad decisions s₀.podId s₀.gpuId ≤ max 0 s₀.availableVramMB
  headroom : ∀ kv ∈ minKvCacheMb, (∃ d ∈ decisions, d.uses s₀.podId s₀.gpuId) →
    kv ≤ s₀.availableVramMB - gpuLoad decisions s₀.podId s₀.gpuId

variable {s₀ s : GpuSlot}

theorem Tracked.unused (h : Tracked minKvCacheMb decisions s₀ s)
    (hd : ¬decision.uses s₀.podId s₀.gpuId) :
    Tracked minKvCacheMb (decisions ++ [decision]) s₀ s := by
  have hload : gpuLoad (decisions ++ [decision]) s₀.podId s₀.gpuId
      = gpuLoad decisions s₀.podId s₀.gpuId := by
    rw [gpuLoad_append, share_of_not_uses hd, add_zero]
  refine ⟨h.key, h.gpuName, ?_, ?_, ?_⟩
  · rw [hload]
    exact h.available
  · rw [hload]
    exact h.withinFree
  · intro kv hkv hused
    rw [hload]
    apply h.headroom kv hkv
    obtain ⟨d, hmem, huse⟩ := hused
    rcases List.mem_append.mp hmem with hmem | hmem
    · exact ⟨d, hmem, huse⟩
    · rw [List.mem_singleton.mp hmem] at huse
      exact absurd huse hd

/-- A candidate that receives a share stays within its VRAM and above the headroom. -/
theorem Tracked.used (h : Tracked minKvCacheMb decisions s₀ s) {share : ℚ}
    (hshare : decision.share s₀.podId s₀.gpuId = share)
    (hfit : 0 < share → share ≤ s.availableVramMB)
    (hroom : ∀ kv ∈ minKvCacheMb, kv ≤ s.availableVramMB - share) :
    Tracked minKvCacheMb (decisions ++ [decision]) s₀
      { s with
        availableVramMB := s.availableVramMB - (if 0 < share then share else 0)
        modelCount := s.modelCount + 1 } := by
  have havailable := h.available
  have hload := gpuLoad_append decisions decision s₀.podId s₀.gpuId
  rw [hshare] at hload
  refine ⟨h.key, h.gpuName, ?_, ?_, ?_⟩
  · rw [hload]
    dsimp only
    split_ifs <;> linarith
  · rw [hload]
    by_cases hpos : 0 < share
    · have := hfit hpos
      apply le_max_of_le_right
      linarith
    · -- a share of nothing takes nothing from a GPU that is overcommitted already
      have := h.withinFree
      linarith
  · intro kv hkv _
    have := hroom kv hkv
    rw [hload]
    linarith

end Deduct

/-- The invariant of the loop over the entries. -/
structure PlacementInv (initial slots : List GpuSlot) (minKvCacheMb : Option ℚ)
    (decisions : List PlacementDecision) : Prop where
  keys : slots.map (·.key) = initial.map (·.key)
  tracked : ∀ s ∈ slots, ∃ s₀ ∈ initial, Tracked minKvCacheMb decisions s₀ s

theorem Places.mem (h : Places entry requiredVramMB minKvCacheMb slots chosen decision slots')
    {s : GpuSlot} (hs : s ∈ chosen) :
    s ∈ slots ∧ isCandidate entry requiredVramMB minKvCacheMb s :=
  List.mem_filter.mp (h.subperm.subset hs)

theorem Places.keys_nodup
    (h : Places entry requiredVramMB minKvCacheMb slots chosen decision slots')
    (hn : (slots.map (·.key)).Nodup) : (chosen.map (·.key)).Nodup := by
  obtain ⟨some, hperm, hsub⟩ := h.subperm
  have hsome : (some.map (·.key)).Sublist (slots.map (·.key)) :=
    (hsub.trans List.filter_sublist).map _
  exact (hperm.map _).nodup_iff.mp (hn.sublist hsome)

theorem Places.uses_iff
    (h : Places entry requiredVramMB minKvCacheMb slots chosen decision slots') (s : GpuSlot) :
    decision.uses s.podId s.gpuId ↔ s.key ∈ chosen.map (·.key) := by
  simp only [PlacementDecision.uses, h.gpuIds, List.mem_map]
  constructor
  · rintro ⟨hpod, c, hc, hgpu⟩
    exact ⟨c, hc, Prod.ext ((h.onePod c hc).trans hpod) hgpu⟩
  · rintro ⟨c, hc, hkey⟩
    have hpod : c.podId = s.podId := congrArg Prod.fst hkey
    exact ⟨(h.onePod c hc).symm.trans hpod, c, hc, congrArg Prod.snd hkey⟩

theorem PlacementInv.place (hinv : PlacementInv initial slots minKvCacheMb decisions)
    (hn : (initial.map (·.key)).Nodup)
    (h : Places entry requiredVramMB minKvCacheMb slots chosen decision slots') :
    PlacementInv initial slots' minKvCacheMb (decisions ++ [decision]) := by
  have hslots : (slots.map (·.key)).Nodup := hinv.keys ▸ hn
  have hshare : (if 0 < requiredVramMB then requiredVramMB / entry.tpSize else 0 : ℚ)
      = if 0 < requiredVramMB / entry.tpSize then requiredVramMB / entry.tpSize else 0 := by
    have htp : (0 : ℚ) < entry.tpSize := Nat.cast_pos.mpr entry.tpSize_pos
    simp only [div_pos_iff_of_pos_right htp]
  refine ⟨?_, ?_⟩
  · rw [h.deducted, keys_deduct, hinv.keys]
  · intro s' hs'
    rw [h.deducted, hshare] at hs'
    obtain ⟨s, hs, rfl⟩ := List.mem_map.mp hs'
    obtain ⟨s₀, hs₀, htracked⟩ := hinv.tracked s hs
    have hpod : s.podId = s₀.podId := congrArg Prod.fst htracked.key
    have hgpu : s.gpuId = s₀.gpuId := congrArg Prod.snd htracked.key
    have huses := h.uses_iff s
    rw [hpod, hgpu] at huses
    refine ⟨s₀, hs₀, ?_⟩
    by_cases hkey : s.key ∈ chosen.map (·.key)
    · obtain ⟨c, hc, hck⟩ := List.mem_map.mp hkey
      obtain ⟨hcs, hcandidate⟩ := h.mem hc
      -- the chosen slot of that key is this one
      have hsame : c = s := List.inj_on_of_nodup_map hslots hcs hs hck
      rw [hsame, isCandidate_iff] at hcandidate
      have htake : decision.share s₀.podId s₀.gpuId = requiredVramMB / entry.tpSize := by
        have hlen : decision.targetGpuIds.length = entry.tpSize := by
          rw [h.gpuIds, List.length_map, h.count]
        rw [PlacementDecision.share, if_pos (huses.mpr hkey), h.vram, hlen]
      rw [if_pos hkey]
      apply htracked.used htake
      · intro hpos
        apply hcandidate.2.1
        exact (div_pos_iff_of_pos_right (Nat.cast_pos.mpr entry.tpSize_pos)).mp hpos
      · exact hcandidate.2.2
    · rw [if_neg hkey]
      exact htracked.unused fun hu => hkey (huses.mp hu)

theorem mem_buildGpuSlots {s : GpuSlot} :
    s ∈ buildGpuSlots peers ↔ ∃ p ∈ getHealthyPeers peers, ∃ g ∈ p.gpus, p.slot g = s := by
  simp [buildGpuSlots]

theorem placementInv_init (peers : List PeerInfo) (minKvCacheMb : Option ℚ) :
    PlacementInv (buildGpuSlots peers) (buildGpuSlots peers) minKvCacheMb [] := by
  refine ⟨rfl, fun s hs => ⟨s, hs, rfl, rfl, ?_, ?_, ?_⟩⟩
  · simp
  · simp
  · intro kv _ hused
    simp at hused

theorem Cluster.healthy_injective (cluster : Cluster) {p q : PeerInfo}
    (hp : p ∈ cluster.peers) (hq : q ∈ cluster.peers) (h : p.podId = q.podId) : p = q :=
  List.inj_on_of_nodup_map cluster.podIds_nodup hp hq h

theorem Cluster.slots_nodup (cluster : Cluster) :
    ((buildGpuSlots cluster.peers).map (·.key)).Nodup := by
  have hkeys : (buildGpuSlots cluster.peers).map (·.key)
      = (getHealthyPeers cluster.peers).flatMap fun p => p.gpus.map fun g => (p.podId, g.gpuId) := by
    simp only [buildGpuSlots, List.map_flatMap, List.map_map]
    rfl
  rw [hkeys, List.nodup_flatMap]
  constructor
  · intro p hp
    have hgpus := cluster.gpuIds_nodup p (List.mem_of_mem_filter hp)
    have hpair : p.gpus.map (fun g => (p.podId, g.gpuId))
        = (p.gpus.map (·.gpuId)).map (Prod.mk p.podId) := by
      simp
    rw [hpair]
    exact hgpus.map (Prod.mk_right_injective _)
  · have hpods : (getHealthyPeers cluster.peers).Pairwise fun p q => p.podId ≠ q.podId :=
      List.pairwise_map.mp (cluster.podIds_nodup.sublist (List.filter_sublist.map _))
    refine hpods.imp fun hne => ?_
    simp only [Function.onFun, List.disjoint_left, List.mem_map, not_exists]
    rintro _ ⟨g, -, rfl⟩ g' ⟨-, heq⟩
    exact hne (congrArg Prod.fst heq).symm

theorem Places.gpuIds_nodup
    (h : Places entry requiredVramMB minKvCacheMb slots chosen decision slots')
    (hn : (slots.map (·.key)).Nodup) : decision.targetGpuIds.Nodup := by
  have hkeys : chosen.map (·.key) = decision.targetGpuIds.map (Prod.mk decision.targetPodId) := by
    rw [h.gpuIds, List.map_map]
    refine List.map_congr_left fun s hs => ?_
    exact Prod.ext (h.onePod s hs) rfl
  have := h.keys_nodup hn
  rw [hkeys] at this
  exact this.of_map

theorem Places.assigned (cluster : Cluster) {call : Nat}
    (hinv : PlacementInv (buildGpuSlots cluster.peers) slots minKvCacheMb decisions)
    (h : Places entry (entry.requiredVramMB (profiles call entry.modelPath)) minKvCacheMb slots
      chosen decision slots') : Assigned cluster.peers profiles entry decision := by
  have hn : (slots.map (·.key)).Nodup := hinv.keys ▸ cluster.slots_nodup
  -- every chosen slot is a GPU of a healthy pod of that id
  have hfound : ∀ s ∈ chosen, ∃ p ∈ getHealthyPeers cluster.peers, p.podId = decision.targetPodId ∧
      ∃ gpu ∈ p.gpus, gpu.gpuId = s.gpuId ∧ entry.acceptsGpu gpu.name := by
    intro s hs
    obtain ⟨hmem, hcandidate⟩ := h.mem hs
    obtain ⟨s₀, hs₀, htracked⟩ := hinv.tracked s hmem
    obtain ⟨p, hp, g, hg, rfl⟩ := mem_buildGpuSlots.mp hs₀
    have hpod : s.podId = p.podId := congrArg Prod.fst htracked.key
    have hgpu : s.gpuId = g.gpuId := congrArg Prod.snd htracked.key
    have hname : s.gpuName = g.name := htracked.gpuName
    refine ⟨p, hp, hpod.symm.trans (h.onePod s hs), g, hg, hgpu.symm, ?_⟩
    rw [← hname]
    exact (isCandidate_iff.mp hcandidate).1
  refine ⟨h.modelPath, ⟨call, h.vram⟩, ?_, h.gpuIds_nodup hn, ?_⟩
  · rw [h.gpuIds, List.length_map, h.count]
  · have hne : chosen ≠ [] := by
      intro hnil
      have := h.count
      have := entry.tpSize_pos
      simp_all
    obtain ⟨c, hc⟩ := List.exists_mem_of_ne_nil chosen hne
    obtain ⟨p, hp, hpod, -⟩ := hfound c hc
    refine ⟨p, hp, hpod, fun g hg => ?_⟩
    rw [h.gpuIds] at hg
    obtain ⟨s, hs, rfl⟩ := List.mem_map.mp hg
    obtain ⟨q, hq, hqpod, found⟩ := hfound s hs
    have hsame : q = p := cluster.healthy_injective (List.mem_of_mem_filter hq)
      (List.mem_of_mem_filter hp) (hqpod.trans hpod.symm)
    exact hsame ▸ found

/-- What the loop over the entries has done so far: it has placed some, and failed on others. -/
structure Placing (cluster : Cluster) (profiles : Profiles) (minKvCacheMb : Option ℚ)
    (slots : List GpuSlot) (result : PlacementResult)
    (placed unplaced : List ModelConfigurationEntry) : Prop where
  inv : PlacementInv (buildGpuSlots cluster.peers) slots minKvCacheMb result.decisions
  assigned : List.Forall₂ (Assigned cluster.peers profiles) placed result.decisions
  failed : List.Forall₂ (fun e f => f.modelPath = e.modelPath) unplaced result.failures

theorem forall₂_append_singleton {α β : Type} {R : α → β → Prop} {l : List α} {m : List β} {a : α}
    {b : β} (h : List.Forall₂ R l m) (hab : R a b) : List.Forall₂ R (l ++ [a]) (m ++ [b]) :=
  List.rel_append h (.cons hab .nil)

/-- The loop puts every entry on exactly one side and keeps the invariant. -/
theorem placeAll_placing (cluster : Cluster) (strategy : PlacementStrategy) (call : Nat)
    (entries : List ModelConfigurationEntry) {result : PlacementResult}
    {placed unplaced : List ModelConfigurationEntry}
    (h : Placing cluster profiles minKvCacheMb slots result placed unplaced) :
    ∃ slots' placed' unplaced',
      Placing cluster profiles minKvCacheMb slots'
        (placeAll profiles strategy minKvCacheMb call slots result entries)
        (placed ++ placed') (unplaced ++ unplaced') ∧
      (placed' ++ unplaced').Perm entries := by
  induction entries generalizing call slots result placed unplaced with
  | nil => exact ⟨slots, [], [], by simpa [placeAll] using h, .refl _⟩
  | cons e entries ih =>
    cases hplace : placeEntry e (profiles call e.modelPath) slots strategy minKvCacheMb with
    | ok x =>
      obtain ⟨decision, slots₁⟩ := x
      obtain ⟨chosen, hplaces⟩ := placeEntry_ok hplace
      have hnext : Placing cluster profiles minKvCacheMb slots₁
          { result with decisions := result.decisions ++ [decision] } (placed ++ [e]) unplaced :=
        ⟨h.inv.place cluster.slots_nodup hplaces,
          forall₂_append_singleton h.assigned (hplaces.assigned cluster h.inv), h.failed⟩
      obtain ⟨slots', placed', unplaced', hdone, hperm⟩ := ih (call + 1) hnext
      refine ⟨slots', e :: placed', unplaced', ?_, ?_⟩
      · rw [placeAll, hplace]
        simpa using hdone
      · exact hperm.cons e
    | error failure =>
      have hnext : Placing cluster profiles minKvCacheMb slots
          { result with failures := result.failures ++ [failure] } placed (unplaced ++ [e]) :=
        ⟨h.inv, h.assigned, forall₂_append_singleton h.failed (placeEntry_error hplace)⟩
      obtain ⟨slots', placed', unplaced', hdone, hperm⟩ := ih (call + 1) hnext
      refine ⟨slots', placed', e :: unplaced', ?_, ?_⟩
      · rw [placeAll, hplace]
        simpa using hdone
      · exact List.perm_middle.trans (hperm.cons e)

/-- What a placement of the entries on the cluster has to be. `limit` bounds what may be taken from
a GPU of which so much is free. -/
structure PlacementSound (cluster : Cluster) (profiles : Profiles) (request : PlacementRequest)
    (limit : ℚ → ℚ) (result : PlacementResult) : Prop where
  partition : ∃ placed unplaced, (placed ++ unplaced).Perm request.entries ∧
    List.Forall₂ (Assigned cluster.peers profiles) placed result.decisions ∧
    List.Forall₂ (fun e f => f.modelPath = e.modelPath) unplaced result.failures
  withinFree : ∀ p ∈ cluster.peers, ∀ g ∈ p.gpus,
    gpuLoad result.decisions p.podId g.gpuId ≤ limit g.freeVramMB
  headroom : ∀ kv ∈ request.minKvCacheMb, ∀ p ∈ cluster.peers, ∀ g ∈ p.gpus,
    (∃ d ∈ result.decisions, d.uses p.podId g.gpuId) →
      kv ≤ g.freeVramMB - gpuLoad result.decisions p.podId g.gpuId

theorem PlacementInv.gpu (hinv : PlacementInv initial slots minKvCacheMb decisions)
    (hn : (initial.map (·.key)).Nodup) {s₀ : GpuSlot} (hs₀ : s₀ ∈ initial) :
    ∃ s, Tracked minKvCacheMb decisions s₀ s := by
  have hkey : s₀.key ∈ slots.map (·.key) := by
    rw [hinv.keys]
    exact List.mem_map_of_mem hs₀
  obtain ⟨s, hs, hsk⟩ := List.mem_map.mp hkey
  obtain ⟨s₁, hs₁, htracked⟩ := hinv.tracked s hs
  have hsame : s₁ = s₀ :=
    List.inj_on_of_nodup_map hn hs₁ hs₀ (htracked.key.symm.trans hsk)
  exact ⟨s, hsame ▸ htracked⟩

theorem assigned_healthy {cluster : Cluster} {placed : List ModelConfigurationEntry}
    (h : List.Forall₂ (Assigned cluster.peers profiles) placed decisions)
    (hd : decision ∈ decisions) :
    ∃ p ∈ getHealthyPeers cluster.peers, p.podId = decision.targetPodId := by
  induction h with
  | nil => cases hd
  | cons hassigned _ ih =>
    rcases List.mem_cons.mp hd with rfl | hd
    · obtain ⟨p, hp, hpod, -⟩ := hassigned.onPod
      exact ⟨p, hp, hpod⟩
    · exact ih hd

theorem Placing.sound {cluster : Cluster} {request : PlacementRequest} {result : PlacementResult}
    {placed unplaced : List ModelConfigurationEntry}
    (h : Placing cluster profiles request.minKvCacheMb slots result placed unplaced)
    (hperm : (placed ++ unplaced).Perm request.entries) :
    PlacementSound cluster profiles request (max 0) result := by
  have hgpu : ∀ p ∈ cluster.peers, ∀ g ∈ p.gpus,
      (∃ s, Tracked request.minKvCacheMb result.decisions (p.slot g) s) ∨
        ∀ d ∈ result.decisions, ¬d.uses p.podId g.gpuId := by
    intro p hp g hg
    by_cases hhealthy : p ∈ getHealthyPeers cluster.peers
    · exact .inl (h.inv.gpu cluster.slots_nodup (mem_buildGpuSlots.mpr ⟨p, hhealthy, g, hg, rfl⟩))
    · -- no decision is for a pod that is not healthy
      refine .inr fun d hd huse => hhealthy ?_
      obtain ⟨q, hq, hpod⟩ := assigned_healthy h.assigned hd
      have hsame := cluster.healthy_injective (List.mem_of_mem_filter hq) hp (hpod.trans huse.1)
      exact hsame ▸ hq
  refine ⟨⟨placed, unplaced, hperm, h.assigned, h.failed⟩, ?_, ?_⟩
  · intro p hp g hg
    rcases hgpu p hp g hg with ⟨s, htracked⟩ | hunused
    · exact htracked.withinFree
    · rw [gpuLoad_eq_zero hunused]
      exact le_max_left _ _
  · intro kv hkv p hp g hg hused
    rcases hgpu p hp g hg with ⟨s, htracked⟩ | hunused
    · exact htracked.headroom kv hkv hused
    · obtain ⟨d, hd, huse⟩ := hused
      exact absurd huse (hunused d hd)

theorem placeModels_sound (cluster : Cluster) (profiles : Profiles) (request : PlacementRequest) :
    PlacementSound cluster profiles request (max 0)
      (placeModels cluster.peers profiles request) := by
  have hinit := placementInv_init cluster.peers request.minKvCacheMb
  unfold placeModels
  dsimp only
  split_ifs with hempty
  · have hnone : Placing cluster profiles request.minKvCacheMb (buildGpuSlots cluster.peers)
        ⟨[], request.entries.map fun e => ⟨e.modelPath, .noHealthyPeers, []⟩⟩ []
        request.entries := by
      refine ⟨hinit, .nil, ?_⟩
      rw [List.forall₂_map_right_iff]
      exact List.forall₂_same.mpr fun e _ => rfl
    exact hnone.sound (.refl _)
  · have hstart : Placing cluster profiles request.minKvCacheMb (buildGpuSlots cluster.peers)
        ⟨[], []⟩ [] [] := ⟨hinit, .nil, .nil⟩
    obtain ⟨slots', placed, unplaced, hdone, hperm⟩ :=
      placeAll_placing cluster request.strategy 0
        (request.entries.insertionSort fun a b => a.loadOrder ≤ b.loadOrder) hstart
    exact hdone.sound (hperm.trans (List.perm_insertionSort _ _))

/-- A pod whose only GPU reports more memory in use than it has. -/
def overcommittedCluster : Cluster where
  peers := [⟨"pod-a", .healthy, [], [⟨0, "A100", 10, 12⟩]⟩]
  podIds_nodup := by decide
  gpuIds_nodup := by decide
  instanceIds_nodup := by decide

/-- An entry for which neither the preset nor a memory profile names its VRAM. -/
def unprofiledRequest : PlacementRequest where
  entries := [⟨"llama", 4096, none, 0, none, none⟩]
  strategy := .balanced
  minKvCacheMb := none

theorem overcommitted_not_sound :
    ¬PlacementSound overcommittedCluster (fun _ _ => []) unprofiledRequest id
      (placeModels overcommittedCluster.peers (fun _ _ => []) unprofiledRequest) := by
  intro h
  have hload := h.withinFree _ List.mem_cons_self ⟨0, "A100", 10, 12⟩ List.mem_cons_self
  exact absurd hload (by decide +kernel)

end GpuSharing.Sardeenz.PodScheduler
