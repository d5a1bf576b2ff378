import GpuSharing.Lib.Transition
import GpuSharing.Kvcached.KvPool

namespace GpuSharing.Kvcached

open Transition

/-- The pages the allocator has mapped and not unmapped, and the slots the tensors hold. -/
structure PoolState where
  mapped : Finset PageId
  slots : Finset (Nat × Int)
  deriving DecidableEq

inductive PoolAct
  | map (ps : List PageId)
  | unmap (ps : List PageId)
  deriving DecidableEq, Repr

namespace KvPool

/-- `map_pages` of pages that are not mapped, `unmap_pages` of pages that are. A failed assertion
ends the run; a call that reports failure leaves the allocator's view of the pages as it was. -/
def step (P : KvPool) (s : PoolState) : PoolAct → Option PoolState
  | .map ps =>
    if ps.Nodup ∧ ∀ p ∈ ps, (0 : Int) ≤ p ∧ p ∉ s.mapped then
      match P.mapPages (P.withMapping s.slots) ps with
      | some (true, k) => some ⟨s.mapped ∪ ps.toFinset, k.mapping⟩
      | some (false, k) => some { s with slots := k.mapping }
      | none => none
    else none
  | .unmap ps =>
    if ps.Nodup ∧ ∀ p ∈ ps, p ∈ s.mapped then
      match P.unmapPages (P.withMapping s.slots) ps with
      | some (true, k) => some ⟨s.mapped \ ps.toFinset, k.mapping⟩
      | some (false, k) => some { s with slots := k.mapping }
      | none => none
    else none

def emptyState : PoolState := ⟨∅, ∅⟩

/-- Pages mapped into a tensor with a V half start in its first half. -/
def BelowHalf (P : KvPool) (_ : PoolState) : PoolAct → Prop
  | .map ps => P.contiguousLayout = true ∨ P.unifiedPool = true ∨
      ∀ p ∈ ps, (p : Int) < P.halfPages
  | .unmap _ => True

instance (P : KvPool) : ∀ s act, Decidable (P.BelowHalf s act) := fun _ act => by
  cases act <;> unfold BelowHalf <;> infer_instance

/-- The tensors hold exactly the slots of the mapped pages, and these do not share slots. -/
structure Faithful (P : KvPool) (s : PoolState) : Prop where
  slots : ∀ x, x ∈ s.slots ↔ ∃ p ∈ s.mapped, x ∈ P.keys [p]
  nonneg : ∀ p : Int, p ∈ s.mapped → 0 ≤ p
  below : P.contiguousLayout = true ∨ P.unifiedPool = true ∨
    ∀ p : Int, p ∈ s.mapped → p < P.halfPages

variable {P : KvPool} {s t : PoolState}

theorem mem_keys_singleton (ps : List Int) {x : Nat × Int} :
    x ∈ P.keys ps ↔ ∃ p ∈ ps, x ∈ P.keys [p] := by
  simp only [mem_keys, List.mem_singleton, exists_eq_left]
  constructor
  · rintro ⟨hx, p, hp, h⟩
    exact ⟨p, hp, hx, h⟩
  · rintro ⟨p, hp, hx, h⟩
    exact ⟨hx, p, hp, h⟩

/-- In a faithful state two mapped pages share no slot. -/
theorem Faithful.eq_of_mem_keys (hs : P.Faithful s) {p q : Int} (hp : p ∈ s.mapped)
    (hq : q ∈ s.mapped) {x : Nat × Int} (hxp : x ∈ P.keys [p]) (hxq : x ∈ P.keys [q]) :
    p = q := by
  have hp0 := hs.nonneg p hp
  have hq0 := hs.nonneg q hq
  obtain ⟨-, _, hp', hxp⟩ := mem_keys P |>.mp hxp
  obtain ⟨-, _, hq', hxq⟩ := mem_keys P |>.mp hxq
  rw [List.mem_singleton] at hp' hq'
  rw [hp'] at hxp
  rw [hq'] at hxq
  rcases hxp with hxp | ⟨hc, hu, hxp⟩ <;> rcases hxq with hxq | ⟨hc', hu', hxq⟩
  · omega
  · have hlt := hs.below.resolve_left (by simp [hc']) |>.resolve_left (by simp [hu']) p hp
    omega
  · have hlt := hs.below.resolve_left (by simp [hc]) |>.resolve_left (by simp [hu]) q hq
    omega
  · omega

theorem step_faithful {act : PoolAct} (hs : P.Faithful s) (hb : P.BelowHalf s act)
    (h : P.step s act = some t) : P.Faithful t := by
  cases act with
  | map ps =>
    simp only [step] at h
    split_ifs at h with hg
    by_cases hH : P.Halves
    · rw [P.mapPages_eq hH ps s.slots] at h
      cases h
      refine ⟨fun x => ?_, fun p hp => ?_, ?_⟩
      · simp only [withMapping, Finset.mem_union, List.mem_toFinset, hs.slots x,
          mem_keys_singleton ps]
        constructor
        · rintro (⟨p, hp, hx⟩ | ⟨p, hp, hx⟩)
          · exact ⟨p, .inl hp, hx⟩
          · exact ⟨p, .inr hp, hx⟩
        · rintro ⟨p, hp | hp, hx⟩
          · exact .inl ⟨p, hp, hx⟩
          · exact .inr ⟨p, hp, hx⟩
      · rcases Finset.mem_union.mp hp with hp | hp
        · exact hs.nonneg p hp
        · exact (hg.2 p (List.mem_toFinset.mp hp)).1
      · rcases hs.below with hc | hu | hlt
        · exact .inl hc
        · exact .inr (.inl hu)
        · rcases hb with hc | hu | hlt'
          · exact .inl hc
          · exact .inr (.inl hu)
          · refine .inr (.inr fun p hp => ?_)
            rcases Finset.mem_union.mp hp with hp | hp
            · exact hlt p hp
            · exact hlt' p (List.mem_toFinset.mp hp)
    · rw [P.mapPages_none hH] at h
      cases h
  | unmap ps =>
    simp only [step] at h
    split_ifs at h with hg
    by_cases hH : P.Halves
    · have hsub : (P.keys ps).toFinset ⊆ s.slots := by
        intro x hx
        obtain ⟨p, hp, hx⟩ := (mem_keys_singleton ps).mp (List.mem_toFinset.mp hx)
        exact (hs.slots x).mpr ⟨p, hg.2 p hp, hx⟩
      have hnd : (P.keys ps).Nodup := by
        refine P.keys_nodup hg.1 (hs.below.imp_right (Or.imp_right fun hlt p hp q hq => ?_))
        have h1 := hlt p (hg.2 p hp)
        have h2 := hs.nonneg q (hg.2 q hq)
        omega
      rw [P.unmapPages_eq hH ps s.slots hnd hsub] at h
      cases h
      refine ⟨fun x => ?_, fun p hp => ?_, ?_⟩
      · simp only [withMapping, Finset.mem_sdiff, List.mem_toFinset, hs.slots x,
          mem_keys_singleton ps]
        constructor
        · rintro ⟨⟨p, hp, hx⟩, hno⟩
          exact ⟨p, ⟨hp, fun hin => hno ⟨p, hin, hx⟩⟩, hx⟩
        · rintro ⟨p, ⟨hp, hno⟩, hx⟩
          refine ⟨⟨p, hp, hx⟩, ?_⟩
          rintro ⟨q, hq, hxq⟩
          rw [hs.eq_of_mem_keys hp (hg.2 q hq) hx hxq] at hno
          exact hno hq
      · exact hs.nonneg p (Finset.mem_sdiff.mp hp).1
      · exact hs.below.imp_right (Or.imp_right fun hlt p hp => hlt p (Finset.mem_sdiff.mp hp).1)
    · rw [P.unmapPages_none hH] at h
      cases h

theorem emptyState_faithful (P : KvPool) : P.Faithful emptyState :=
  ⟨by simp [emptyState], by simp [emptyState], .inr (.inr (by simp [emptyState]))⟩

theorem run_faithful {acts : List PoolAct} (hrun : run P.step emptyState acts = some s)
    (hb : Along P.step P.BelowHalf emptyState acts) : P.Faithful s :=
  run_invariant_along (fun _ _ _ => step_faithful) (emptyState_faithful P) hb hrun

end KvPool

end GpuSharing.Kvcached
