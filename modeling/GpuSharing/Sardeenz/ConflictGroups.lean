import Mathlib.Combinatorics.SimpleGraph.Connectivity.Connected
import Mathlib.Data.List.Sort
import GpuSharing.Lib.Transition
import GpuSharing.Lib.UnionFind
import GpuSharing.Sardeenz.SavedLaunches

namespace GpuSharing.Sardeenz.ConflictGroups

open PresetStore (ModelConfigurationEntry)
open SavedLaunches (getGpuSet localOptions)
open UnionFind (Partitions RootOf Joined)

/-- An entry with its place in the list. -/
abbrev EntryWithIndex := ModelConfigurationEntry × Nat

section LoadEntries

def sharesGpu (a b : ModelConfigurationEntry) : Bool := (getGpuSet a).any (· ∈ getGpuSet b)

/-- The parents after all pairs of entries were looked at. -/
def conflictParents (entries : List ModelConfigurationEntry) : Option (Nat → Nat) :=
  entries.zipIdx.foldlM (fun parent x =>
    (entries.zipIdx.filter (x.2 < ·.2)).foldlM (fun parent y =>
      if sharesGpu x.1 y.1 then UnionFind.union (entries.length + 1) parent x.2 y.2
      else some parent) parent) id

/-- The entries by their roots; every `find` compresses its path. -/
def groupByRoot (size : Nat) : (Nat → Nat) → List (Nat × List EntryWithIndex) →
    List EntryWithIndex → Option (List (Nat × List EntryWithIndex))
  | _, groups, [] => some groups
  | parent, groups, x :: xs => do
    let (root, parent) ← UnionFind.find (size + 1) parent x.2
    groupByRoot size parent (Grouping.add (fun _ => root) x groups) xs

def conflictGroups (entries : List ModelConfigurationEntry) : Option (List (List EntryWithIndex)) := do
  let parent ← conflictParents entries
  let groups ← groupByRoot entries.length parent [] entries.zipIdx
  some (groups.map (·.2))

def byLoadOrder (group : List EntryWithIndex) : List EntryWithIndex :=
  group.insertionSort fun a b => a.1.loadOrder ≤ b.1.loadOrder

/-- The groups in the order in which each loads its entries. -/
def loadGroups (entries : List ModelConfigurationEntry) : Option (List (List EntryWithIndex)) :=
  (conflictGroups entries).map (·.map byLoadOrder)

/-- One of the concurrent loops: the entry whose `launchModelAndWait` it awaits, and those to come. -/
structure GroupLoad where
  loading : Option EntryWithIndex
  waiting : List EntryWithIndex

/-- A loop goes on to its next entry, or the launch that it awaits is settled, in whichever way. -/
inductive LoadAct
  | launch (k : Nat)
  | settle (k : Nat)

def loadStep (loads : List GroupLoad) : LoadAct → Option (List GroupLoad)
  | .launch k => match loads[k]? with
    | some ⟨none, x :: xs⟩ => some (loads.set k ⟨some x, xs⟩)
    | _ => none
  | .settle k => match loads[k]? with
    | some ⟨some _, xs⟩ => some (loads.set k ⟨none, xs⟩)
    | _ => none

def startLoads (groups : List (List EntryWithIndex)) : List GroupLoad :=
  groups.map fun group => ⟨none, group⟩

end LoadEntries

/-- The GPUs that an entry names. -/
def explicitGpus (entry : ModelConfigurationEntry) : List Nat := entry.gpuIds.getD []

/-- The entries name a common GPU, or neither names any. -/
def Conflict (a b : ModelConfigurationEntry) : Prop :=
  (∃ gpu ∈ explicitGpus a, gpu ∈ explicitGpus b) ∨ explicitGpus a = [] ∧ explicitGpus b = []

def conflictGraph (entries : List ModelConfigurationEntry) : SimpleGraph (Fin entries.length) :=
  SimpleGraph.fromRel fun i j => Conflict (entries.get i) (entries.get j)

variable {entries : List ModelConfigurationEntry} {a b : ModelConfigurationEntry}
  {parent : Nat → Nat} {groups : List (List EntryWithIndex)} {loads : List GroupLoad}

theorem getGpuSet_eq (entry : ModelConfigurationEntry) :
    getGpuSet entry = if explicitGpus entry = [] then [-1] else (explicitGpus entry).map Int.ofNat := by
  rw [getGpuSet, explicitGpus]
  rcases entry.gpuIds with _ | _ | ⟨gpu, gpus⟩ <;> rfl

theorem sharesGpu_iff : sharesGpu a b = true ↔ Conflict a b := by
  rw [sharesGpu, List.any_eq_true, Conflict, getGpuSet_eq, getGpuSet_eq]
  by_cases ha : explicitGpus a = [] <;> by_cases hb : explicitGpus b = [] <;> simp [ha, hb]

theorem Conflict.symm (h : Conflict a b) : Conflict b a := by
  rcases h with ⟨gpu, ha, hb⟩ | ⟨ha, hb⟩
  · exact .inl ⟨gpu, hb, ha⟩
  · exact .inr ⟨hb, ha⟩

section Components

/-- The pairs that the nested loops join. -/
def Paired (entries : List ModelConfigurationEntry) (i j : Nat) : Prop :=
  ∃ a b, entries[i]? = some a ∧ entries[j]? = some b ∧ i < j ∧ Conflict a b

theorem Paired.lt {i j : Nat} (h : Paired entries i j) :
    i < entries.length ∧ j < entries.length := by
  obtain ⟨a, b, ha, hb, -, -⟩ := h
  exact ⟨(List.getElem?_eq_some_iff.mp ha).1, (List.getElem?_eq_some_iff.mp hb).1⟩

theorem adj_iff_paired {i j : Fin entries.length} :
    (conflictGraph entries).Adj i j ↔ Paired entries i j ∨ Paired entries j i := by
  have hpaired : ∀ i j : Fin entries.length, Paired entries i j ↔
      i < j ∧ Conflict (entries.get i) (entries.get j) := by
    intro i j
    simp [Paired]
  rw [conflictGraph, SimpleGraph.fromRel_adj, hpaired, hpaired]
  constructor
  · rintro ⟨hne, hconflict⟩
    have hconflict : Conflict (entries.get i) (entries.get j) := hconflict.elim id Conflict.symm
    rcases lt_or_gt_of_ne hne with hlt | hgt
    · exact .inl ⟨hlt, hconflict⟩
    · exact .inr ⟨hgt, hconflict.symm⟩
  · rintro (⟨hlt, hconflict⟩ | ⟨hgt, hconflict⟩)
    · exact ⟨hlt.ne, .inl hconflict⟩
    · exact ⟨hgt.ne', .inr hconflict⟩

/-- The connected components of the graph are the classes of the pairs. -/
theorem reachable_iff {i j : Fin entries.length} :
    (conflictGraph entries).Reachable i j ↔ Relation.EqvGen (Paired entries) i j := by
  constructor
  · intro h
    rw [SimpleGraph.reachable_iff_reflTransGen] at h
    induction h with
    | refl => exact .refl _
    | @tail j k _ hadj ih =>
      rcases adj_iff_paired.mp hadj with hpair | hpair
      · exact ih.trans _ _ _ (.rel _ _ hpair)
      · exact ih.trans _ _ _ (.symm _ _ (.rel _ _ hpair))
  · intro h
    have hgen : ∀ x y, Relation.EqvGen (Paired entries) x y → x = y ∨
        ∃ (hx : x < entries.length) (hy : y < entries.length),
          (conflictGraph entries).Reachable ⟨x, hx⟩ ⟨y, hy⟩ := by
      intro x y h
      induction h with
      | rel x y h =>
        have hadj : (conflictGraph entries).Adj ⟨x, h.lt.1⟩ ⟨y, h.lt.2⟩ :=
          adj_iff_paired.mpr (.inl h)
        exact .inr ⟨h.lt.1, h.lt.2, hadj.reachable⟩
      | refl => exact .inl rfl
      | symm x y _ ih =>
        rcases ih with rfl | ⟨hx, hy, hr⟩
        · exact .inl rfl
        · exact .inr ⟨hy, hx, hr.symm⟩
      | trans x y z _ _ ih ih' =>
        rcases ih with rfl | ⟨hx, hy, hr⟩
        · exact ih'
        · rcases ih' with rfl | ⟨hy', hz, hr'⟩
          · exact .inr ⟨hx, hy, hr⟩
          · exact .inr ⟨hx, hz, hr.trans hr'⟩
    rcases hgen i j h with heq | ⟨_, _, hr⟩
    · rw [Fin.ext heq]
    · exact hr

theorem mem_range_of_mem_zipIdx {x : EntryWithIndex} (hx : x ∈ entries.zipIdx) :
    x.2 ∈ Finset.range entries.length := by
  rw [List.mem_zipIdx_iff_getElem?] at hx
  exact Finset.mem_range.mpr (List.getElem?_eq_some_iff.mp hx).1

theorem conflictParents_partitions (entries : List ModelConfigurationEntry) :
    ∃ parent, conflictParents entries = some parent ∧
      Partitions (Finset.range entries.length) (Paired entries) parent := by
  have hcard : (Finset.range entries.length).card < entries.length + 1 := by
    rw [Finset.card_range]
    omega
  have hinner : ∀ x ∈ entries.zipIdx, ∀ R parent,
      Partitions (Finset.range entries.length) R parent →
      ∃ parent', ((entries.zipIdx.filter (x.2 < ·.2)).foldlM (fun parent y =>
          if sharesGpu x.1 y.1 then UnionFind.union (entries.length + 1) parent x.2 y.2
          else some parent) parent) = some parent' ∧
        Partitions (Finset.range entries.length) (fun i j => R i j ∨
          ∃ y ∈ entries.zipIdx.filter (x.2 < ·.2),
            sharesGpu x.1 y.1 = true ∧ i = x.2 ∧ j = y.2) parent' := by
    intro x hx R parent h
    refine h.foldlM fun y hy R parent h => ?_
    split_ifs with hshares
    · obtain ⟨parent', heq, h'⟩ := h.union (mem_range_of_mem_zipIdx hx)
        (mem_range_of_mem_zipIdx (List.mem_filter.mp hy).1) hcard
      exact ⟨parent', heq, by simpa [hshares] using h'⟩
    · exact ⟨parent, rfl, by simpa [hshares] using h⟩
  obtain ⟨parent, heq, hparent⟩ := UnionFind.partitions_id.foldlM hinner
  refine ⟨parent, heq, ?_⟩
  convert hparent using 3 with i j
  simp only [false_or, Prod.exists, List.mem_filter, List.mem_zipIdx_iff_getElem?, decide_eq_true_eq,
    sharesGpu_iff, Paired]
  constructor
  · rintro ⟨a, b, ha, hb, hlt, hab⟩
    exact ⟨a, i, ha, b, j, ⟨hb, hlt⟩, hab, rfl, rfl⟩
  · rintro ⟨a, _, ha, b, _, ⟨hb, hlt⟩, hab, rfl, rfl⟩
    exact ⟨a, b, ha, hb, hlt, hab⟩

theorem groupByRoot_eq {key : Nat → Nat} {groups : List (Nat × List EntryWithIndex)}
    (hf : UnionFind.Forest (Finset.range entries.length) parent)
    (hkey : ∀ i, RootOf parent i (key i)) (xs : List EntryWithIndex) :
    groupByRoot entries.length parent groups xs =
      some (xs.foldl (fun groups x => Grouping.add (fun x => key x.2) x groups) groups) := by
  induction xs generalizing parent groups with
  | nil => rfl
  | cons x xs ih =>
    have hcard : (Finset.range entries.length).card < entries.length + 1 := by
      rw [Finset.card_range]
      omega
    obtain ⟨parent', heq, hf', hsame⟩ := UnionFind.find_eq hf (hkey x.2) hcard
    have hadd : Grouping.add (fun _ => key x.2) x groups =
        Grouping.add (fun x : EntryWithIndex => key x.2) x groups := by
      refine Grouping.add_congr ?_ groups
      rfl
    simp only [groupByRoot, heq, Option.bind_eq_bind, Option.bind_some, List.foldl_cons]
    rw [hadd]
    exact ih hf' fun i => (hsame i (key i)).mp (hkey i)

/-- The groups are those of the entries with one root. -/
theorem conflictGroups_eq {key : Nat → Nat}
    (hparents : conflictParents entries = some parent)
    (hforest : UnionFind.Forest (Finset.range entries.length) parent)
    (hkey : ∀ i, RootOf parent i (key i)) :
    conflictGroups entries =
      some ((Grouping.grouped (fun x : EntryWithIndex => key x.2) entries.zipIdx).map (·.2)) := by
  simp only [conflictGroups, hparents, Option.bind_eq_bind, Option.bind_some,
    groupByRoot_eq hforest hkey]
  rfl

/-- The groups lose no entry and duplicate none, none is empty, and two entries are in one group when
they are in one component. -/
structure Components (entries : List ModelConfigurationEntry) (groups : List (List EntryWithIndex)) :
    Prop where
  perm : groups.flatten.Perm entries.zipIdx
  ne_nil : [] ∉ groups
  together : ∀ i j : Fin entries.length,
    (∃ group ∈ groups, (entries.get i, i.val) ∈ group ∧ (entries.get j, j.val) ∈ group) ↔
      (conflictGraph entries).Reachable i j

theorem conflictGroups_components (entries : List ModelConfigurationEntry) :
    ∃ groups, conflictGroups entries = some groups ∧ Components entries groups := by
  obtain ⟨parent, hparents, hparent⟩ := conflictParents_partitions entries
  choose key hkey using hparent.forest.rooted
  refine ⟨_, conflictGroups_eq hparents hparent.forest hkey, ?_, fun hnil => ?_, fun i j => ?_⟩
  · rw [← List.flatMap_def]
    exact Grouping.grouped_perm _ _
  · obtain ⟨g, hg, hnil⟩ := List.mem_map.mp hnil
    exact Grouping.ne_nil_of_mem_grouped hg hnil
  · have hmem : ∀ i : Fin entries.length, (entries.get i, i.val) ∈ entries.zipIdx := by
      intro i
      rw [List.mem_zipIdx_iff_getElem?]
      simp
    rw [reachable_iff, ← hparent.joined, UnionFind.joined_iff (hkey i) (hkey j)]
    have hsame : (∃ g ∈ Grouping.grouped (fun x : EntryWithIndex => key x.2) entries.zipIdx,
        (entries.get i, i.val) ∈ g.2 ∧ (entries.get j, j.val) ∈ g.2) ↔ key i = key j :=
      Grouping.same_group_iff (hmem i) (hmem j)
    rw [← hsame]
    simp only [List.mem_map, exists_exists_and_eq_and]

end Components

section Launches

/-- A loop that may fail follows one that does not. -/
theorem foldlM_follows {β σ τ : Type} {f : σ → β → Option σ} {g : τ → β → τ} {M : σ → τ → Prop}
    {l : List β} (hstep : ∀ b ∈ l, ∀ p q, M p q → ∃ p', f p b = some p' ∧ M p' (g q b)) {p : σ}
    {q : τ} (h : M p q) : ∃ p', l.foldlM f p = some p' ∧ M p' (l.foldl g q) := by
  induction l generalizing p q with
  | nil => exact ⟨p, rfl, h⟩
  | cons b l ih =>
    obtain ⟨p₁, heq₁, h₁⟩ := hstep b List.mem_cons_self p q h
    obtain ⟨p₂, heq₂, h₂⟩ := ih (fun c hc => hstep c (List.mem_cons_of_mem b hc)) h₁
    exact ⟨p₂, by simp [List.foldlM_cons, heq₁, heq₂], h₂⟩

/-- Compressing the paths changes none of the roots. -/
theorem conflictParents_matching (entries : List ModelConfigurationEntry) :
    ∃ parent, conflictParents entries = some parent ∧ UnionFind.Matching
      (Finset.range entries.length) parent (SavedLaunches.conflictParents entries) := by
  have hcard : (Finset.range entries.length).card ≤ entries.length := (Finset.card_range _).le
  have hid := (UnionFind.partitions_id (s := Finset.range entries.length)).forest
  have hsame : UnionFind.Matching (Finset.range entries.length) (id : Nat → Nat) id :=
    ⟨hid, hid, fun _ _ => Iff.rfl⟩
  unfold conflictParents SavedLaunches.conflictParents
  apply foldlM_follows _ hsame
  intro x hx p q h
  apply foldlM_follows _ h
  intro y hy p q h
  rw [sharesGpu]
  split_ifs
  · exact h.union (mem_range_of_mem_zipIdx hx)
      (mem_range_of_mem_zipIdx (List.mem_filter.mp hy).1) hcard
  · exact ⟨p, rfl, h⟩

/-- The launches of the groups, one after the other, are those that are issued for the entries. -/
theorem loadGroups_launches (entries : List ModelConfigurationEntry) :
    ∃ groups, loadGroups entries = some groups ∧
      groups.map (·.map fun x => localOptions x.1) = SavedLaunches.loadEntriesLocally entries := by
  obtain ⟨parent, hparents, h⟩ := conflictParents_matching entries
  have hkey : ∀ i, RootOf parent i
      (SavedLaunches.find entries.length (SavedLaunches.conflictParents entries) i) := by
    intro i
    obtain ⟨r, k, hr⟩ := h.right.rooted i
    have hk := h.right.le_card hr
    rw [Finset.card_range] at hk
    rw [SavedLaunches.find, hr.iterate_of_le hk]
    exact (h.roots i r).mpr ⟨k, hr⟩
  have hsort : ∀ group : List EntryWithIndex,
      (byLoadOrder group).map (·.1) = SavedLaunches.byLoadOrder (group.map (·.1)) :=
    fun group => List.map_insertionSort _ _ _ _ fun _ _ _ _ => Iff.rfl
  refine ⟨_, by rw [loadGroups, conflictGroups_eq hparents h.left hkey]; rfl, ?_⟩
  rw [SavedLaunches.loadEntriesLocally, SavedLaunches.conflictGroups]
  simp only [List.map_map]
  refine List.map_congr_left fun group _ => ?_
  simp only [Function.comp_apply, ← hsort, List.map_map]
  rfl

end Launches

theorem byLoadOrder_perm (group : List EntryWithIndex) : (byLoadOrder group).Perm group :=
  List.perm_insertionSort _ group

theorem byLoadOrder_sorted (group : List EntryWithIndex) :
    (byLoadOrder group).Pairwise fun a b => a.1.loadOrder ≤ b.1.loadOrder := by
  have htotal : Std.Total fun a b : EntryWithIndex => a.1.loadOrder ≤ b.1.loadOrder :=
    ⟨fun a b => le_total _ _⟩
  have htrans : IsTrans EntryWithIndex fun a b => a.1.loadOrder ≤ b.1.loadOrder :=
    ⟨fun _ _ _ => le_trans⟩
  exact List.pairwise_insertionSort _ group

/-- Sorting the groups keeps what is in them. -/
theorem Components.sorted (h : Components entries groups) :
    Components entries (groups.map byLoadOrder) where
  perm := by
    refine List.Perm.trans ?_ h.perm
    rw [← List.flatMap_def, ← List.flatMap_id']
    exact List.Perm.flatMap_left _ fun group _ => byLoadOrder_perm group
  ne_nil hnil := by
    obtain ⟨group, hgroup, hnil⟩ := List.mem_map.mp hnil
    have hgroup' := (byLoadOrder_perm group).symm
    rw [hnil, List.perm_nil] at hgroup'
    exact h.ne_nil (hgroup' ▸ hgroup)
  together i j := by
    rw [← h.together]
    simp only [List.mem_map, exists_exists_and_eq_and, (byLoadOrder_perm _).mem_iff]

section Loading

/-- Every loop has only entries of its own group. -/
def Loads (groups : List (List EntryWithIndex)) (loads : List GroupLoad) : Prop :=
  ∀ (k : Nat) (load : GroupLoad), loads[k]? = some load → ∃ group, groups[k]? = some group ∧
    ∀ x, x ∈ load.loading ∨ x ∈ load.waiting → x ∈ group

theorem loads_startLoads (groups : List (List EntryWithIndex)) :
    Loads groups (startLoads groups) := by
  intro k load hload
  rw [startLoads, List.getElem?_map, Option.map_eq_some_iff] at hload
  obtain ⟨group, hgroup, rfl⟩ := hload
  exact ⟨group, hgroup, fun x hx => hx.elim nofun id⟩

theorem Loads.set {load load' : GroupLoad} {k : Nat} (h : Loads groups loads)
    (hk : loads[k]? = some load)
    (hsub : ∀ x, x ∈ load'.loading ∨ x ∈ load'.waiting → x ∈ load.loading ∨ x ∈ load.waiting) :
    Loads groups (loads.set k load') := by
  intro l other hl
  rw [List.getElem?_set] at hl
  split_ifs at hl with hkl hlt
  · subst hkl
    cases hl
    obtain ⟨group, hgroup, hin⟩ := h k load hk
    exact ⟨group, hgroup, fun x hx => hin x (hsub x hx)⟩
  · exact h l other hl

theorem Loads.step {loads' : List GroupLoad} {act : LoadAct} (h : Loads groups loads)
    (hstep : loadStep loads act = some loads') : Loads groups loads' := by
  cases act with
  | launch k =>
    rw [loadStep] at hstep
    split at hstep
    · rename_i x xs hk
      cases hstep
      refine h.set hk fun y hy => .inr ?_
      rcases hy with hy | hy
      · cases hy
        exact List.mem_cons_self
      · exact List.mem_cons_of_mem x hy
    · cases hstep
  | settle k =>
    rw [loadStep] at hstep
    split at hstep
    · rename_i x xs hk
      cases hstep
      exact h.set hk fun y hy => hy.elim nofun .inr
    · cases hstep

/-- An entry is in one group only. -/
theorem Components.group_unique (h : Components entries groups) {k l : Nat}
    {g g' : List EntryWithIndex} {x : EntryWithIndex} (hk : groups[k]? = some g)
    (hl : groups[l]? = some g') (hx : x ∈ g) (hx' : x ∈ g') : k = l := by
  have hnodup : groups.flatten.Nodup := by
    refine h.perm.nodup_iff.mpr (List.Nodup.of_map (·.2) ?_)
    rw [List.zipIdx_map_snd]
    exact List.nodup_range'
  have hdisjoint := List.pairwise_iff_getElem.mp (List.nodup_flatten.mp hnodup).2
  obtain ⟨hklt, rfl⟩ := List.getElem?_eq_some_iff.mp hk
  obtain ⟨hllt, rfl⟩ := List.getElem?_eq_some_iff.mp hl
  rcases lt_trichotomy k l with hlt | heq | hgt
  · exact (hdisjoint k l hklt hllt hlt hx hx').elim
  · exact heq
  · exact (hdisjoint l k hllt hklt hgt hx' hx).elim

/-- Entries that are being loaded at once have no GPU in common. -/
theorem Components.loading_disjoint (h : Components entries groups) {acts : List LoadAct}
    (hrun : Transition.run loadStep (startLoads groups) acts = some loads) {k l : Nat}
    {a b : GroupLoad} {x y : EntryWithIndex} (hk : loads[k]? = some a) (hl : loads[l]? = some b)
    (hx : x ∈ a.loading) (hy : y ∈ b.loading) (hconflict : Conflict x.1 y.1) : k = l ∧ x = y := by
  have hloads : Loads groups loads :=
    Transition.run_invariant (fun _ _ _ h hstep => h.step hstep) (loads_startLoads groups) hrun
  obtain ⟨g, hg, hing⟩ := hloads k a hk
  obtain ⟨g', hg', hing'⟩ := hloads l b hl
  have hxg := hing x (.inl hx)
  have hyg := hing' y (.inl hy)
  have hindex : ∀ {z g}, g ∈ groups → z ∈ g → entries[z.2]? = some z.1 := by
    intro z g hg hz
    have hmem := h.perm.mem_iff.mp (List.mem_flatten.mpr ⟨g, hg, hz⟩)
    exact List.mem_zipIdx_iff_getElem?.mp hmem
  obtain ⟨hi, hxi⟩ := List.getElem?_eq_some_iff.mp (hindex (List.mem_of_getElem? hg) hxg)
  obtain ⟨hj, hyj⟩ := List.getElem?_eq_some_iff.mp (hindex (List.mem_of_getElem? hg') hyg)
  have hreach : (conflictGraph entries).Reachable ⟨x.2, hi⟩ ⟨y.2, hj⟩ := by
    by_cases hne : x.2 = y.2
    · exact (Fin.ext hne : (⟨x.2, hi⟩ : Fin entries.length) = ⟨y.2, hj⟩) ▸ .refl _
    · refine SimpleGraph.Adj.reachable ?_
      rw [conflictGraph, SimpleGraph.fromRel_adj]
      refine ⟨fun heq => hne (congrArg Fin.val heq), .inl ?_⟩
      rwa [List.get_eq_getElem, List.get_eq_getElem, hxi, hyj]
  obtain ⟨g₀, hg₀, hx₀, hy₀⟩ := (h.together ⟨x.2, hi⟩ ⟨y.2, hj⟩).mpr hreach
  obtain ⟨m, hm⟩ := List.mem_iff_getElem?.mp hg₀
  simp only [List.get_eq_getElem, hxi, hyj] at hx₀ hy₀
  have hkl : k = l := (h.group_unique hg hm hxg hx₀).trans (h.group_unique hm hg' hy₀ hyg)
  subst hkl
  rw [hk] at hl
  cases hl
  exact ⟨rfl, Option.mem_unique hx hy⟩

/-- Every entry is in one group, the groups are the connected components of the entries that share
GPUs, each in load order, and no two entries that name a common GPU are loaded at once. -/
theorem loadGroups_components (entries : List ModelConfigurationEntry) :
    ∃ groups, loadGroups entries = some groups ∧ Components entries groups ∧
      (∀ group ∈ groups, group.Pairwise fun a b => a.1.loadOrder ≤ b.1.loadOrder) ∧
      ∀ acts loads, Transition.run loadStep (startLoads groups) acts = some loads →
        ∀ (k l : Nat) (a b : GroupLoad), loads[k]? = some a → loads[l]? = some b →
          ∀ x ∈ a.loading, ∀ y ∈ b.loading,
            (∃ gpu ∈ explicitGpus x.1, gpu ∈ explicitGpus y.1) → k = l ∧ x = y := by
  obtain ⟨groups, heq, hgroups⟩ := conflictGroups_components entries
  refine ⟨groups.map byLoadOrder, by rw [loadGroups, heq]; rfl, hgroups.sorted, fun group hgroup => ?_,
    fun acts loads hrun k l a b hk hl x hx y hy hgpu =>
      hgroups.sorted.loading_disjoint hrun hk hl hx hy (.inl hgpu)⟩
  obtain ⟨group, -, rfl⟩ := List.mem_map.mp hgroup
  exact byLoadOrder_sorted group

end Loading

def entryOn (gpuIds : Option (List Nat)) (loadOrder : Int) : ModelConfigurationEntry where
  id := ""
  configId := ""
  modelPath := "org/model"
  servedModelName := none
  maxTokens := 4096
  sourceType := .huggingface
  extraArgs := none
  gpuIds := gpuIds
  tensorParallelSize := 1
  loadOrder := loadOrder
  sleepModeEnabled := none
  gpuTypeConstraint := none
  minVramMb := none
  podId := none

/-- The second entry joins the first with the last. -/
example : (loadGroups [entryOn (some [2]) 4, entryOn (some [0, 1]) 3, entryOn none 0,
    entryOn (some []) 1, entryOn (some [1, 2]) 2]).map (·.map (·.map (·.2))) =
      some [[4, 1, 0], [2, 3]] := by decide +kernel

end GpuSharing.Sardeenz.ConflictGroups
