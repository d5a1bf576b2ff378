import Mathlib.Data.Finset.Card
import Mathlib.Data.Finset.Range
import Mathlib.Logic.Function.Basic
import Mathlib.Logic.Relation

namespace GpuSharing.UnionFind

variable {α : Type}

section Algorithm

variable [DecidableEq α]

/-- Follow the parents to the root and make it the parent of all on the way; `none` when the root is
not reached. -/
def find : Nat → (α → α) → α → Option (α × (α → α))
  | 0, _, _ => none
  | fuel + 1, parent, i =>
    if parent i ≠ i then do
      let (root, parent) ← find fuel parent (parent i)
      some (root, Function.update parent i root)
    else some (i, parent)

/-- Hang the root of `i` below that of `j`. -/
def union (fuel : Nat) (parent : α → α) (i j : α) : Option (α → α) := do
  let (pi, parent) ← find fuel parent i
  let (pj, parent) ← find fuel parent j
  if pi ≠ pj then some (Function.update parent pi pj) else some parent

end Algorithm

/-- `k` steps lead from `i` to the root `r`. -/
inductive RootIn (parent : α → α) : α → α → Nat → Prop
  | root {i : α} (h : parent i = i) : RootIn parent i i 0
  | step {i r : α} {k : Nat} (h : parent i ≠ i) (hr : RootIn parent (parent i) r k) :
    RootIn parent i r (k + 1)

def RootOf (parent : α → α) (i r : α) : Prop := ∃ k, RootIn parent i r k

/-- Everything has a root; no tree leaves `s`, and what is outside is its own root. -/
structure Forest (s : Finset α) (parent : α → α) : Prop where
  rooted : ∀ i, ∃ r, RootOf parent i r
  inside : ∀ i ∈ s, parent i ∈ s
  outside : ∀ i, i ∉ s → parent i = i

/-- Both have the same roots. -/
def SameRoots (p q : α → α) : Prop := ∀ i r, RootOf p i r ↔ RootOf q i r

/-- The two are in one tree. -/
def Joined (parent : α → α) (i j : α) : Prop := ∃ r, RootOf parent i r ∧ RootOf parent j r

/-- The trees of `parent` are the classes of the least equivalence that contains `R`. -/
structure Partitions (s : Finset α) (R : α → α → Prop) (parent : α → α) : Prop where
  forest : Forest s parent
  joined : ∀ i j, Joined parent i j ↔ Relation.EqvGen R i j

variable {parent p q : α → α} {i j r r' p' q' x y z : α} {k l fuel : Nat} {s : Finset α}
  {R S : α → α → Prop}

theorem RootIn.isRoot (h : RootIn parent i r k) : parent r = r := by
  induction h with
  | root h => exact h
  | step _ _ ih => exact ih

theorem RootIn.unique (h : RootIn parent i r k) (h' : RootIn parent i r' l) : r = r' ∧ k = l := by
  induction h generalizing l with
  | root h =>
    cases h' with
    | root => exact ⟨rfl, rfl⟩
    | step hne => exact absurd h hne
  | step hne _ ih =>
    cases h' with
    | root h => exact absurd h hne
    | step _ h' =>
      obtain ⟨rfl, rfl⟩ := ih h'
      exact ⟨rfl, rfl⟩

theorem RootIn.iterate_eq (h : RootIn parent i r k) : parent^[k] i = r := by
  induction h with
  | root => rfl
  | step _ _ ih => exact ih

theorem RootOf.isRoot (h : RootOf parent i r) : parent r = r := by
  obtain ⟨k, h⟩ := h
  exact h.isRoot

theorem RootOf.unique (h : RootOf parent i r) (h' : RootOf parent i r') : r = r' := by
  obtain ⟨k, h⟩ := h
  obtain ⟨l, h'⟩ := h'
  exact (h.unique h').1

theorem rootOf_self (h : parent i = i) : RootOf parent i i := ⟨0, .root h⟩

theorem RootOf.step (h : RootOf parent (parent i) r) : RootOf parent i r := by
  by_cases hi : parent i = i
  · rwa [hi] at h
  · obtain ⟨k, h⟩ := h
    exact ⟨k + 1, .step hi h⟩

/-- Following the parents longer does not leave the root. -/
theorem RootIn.iterate_of_le (h : RootIn parent i r k) (hle : k ≤ l) : parent^[l] i = r := by
  obtain ⟨m, rfl⟩ := Nat.exists_eq_add_of_le' hle
  rw [Function.iterate_add_apply, h.iterate_eq]
  exact Function.iterate_fixed h.isRoot m

theorem RootIn.of_iterate (h : RootIn parent i r k) (hl : l ≤ k) :
    RootIn parent (parent^[l] i) r (k - l) := by
  induction l generalizing i k with
  | zero => exact h
  | succ l ih =>
    cases h with
    | root => omega
    | @step _ _ k hne h =>
      rw [Nat.add_sub_add_right]
      exact ih h (by omega)

/-- The way to a root passes no element twice, and none outside of the forest. -/
theorem Forest.le_card (hf : Forest s parent) (h : RootIn parent i r k) : k ≤ s.card := by
  have hmaps : ∀ l ∈ Finset.range k, parent^[l] i ∈ s := by
    intro l hl
    have hl := Finset.mem_range.mp hl
    by_contra hout
    have hroot := h.of_iterate hl.le
    have hzero := (hroot.unique (RootIn.root (hf.outside _ hout))).2
    omega
  have hinj : Set.InjOn (fun l => parent^[l] i) (Finset.range k) := by
    intro a ha b hb hab
    have ha := Finset.mem_range.mp ha
    have hb := Finset.mem_range.mp hb
    have hra := h.of_iterate ha.le
    have hrb := h.of_iterate hb.le
    rw [show parent^[a] i = parent^[b] i from hab] at hra
    have hlen := (hra.unique hrb).2
    omega
  have hcard := Finset.card_le_card_of_injOn _ hmaps hinj
  rwa [Finset.card_range] at hcard

theorem SameRoots.trans {p q q' : α → α} (h : SameRoots p q) (h' : SameRoots q q') :
    SameRoots p q' :=
  fun i r => (h i r).trans (h' i r)

theorem SameRoots.of_imp (hp : ∀ i, ∃ r, RootOf p i r)
    (h : ∀ i r, RootOf p i r → RootOf q i r) : SameRoots p q := by
  intro i r
  refine ⟨h i r, fun hq => ?_⟩
  obtain ⟨r', hr'⟩ := hp i
  rwa [← (h i r' hr').unique hq]

theorem Forest.root_mem (hf : Forest s parent) (h : RootOf parent i r) (hi : i ∈ s) : r ∈ s := by
  obtain ⟨k, h⟩ := h
  induction h with
  | root => exact hi
  | step _ _ ih => exact ih (hf.inside _ hi)

theorem Joined.symm (h : Joined parent x y) : Joined parent y x := by
  obtain ⟨r, hx, hy⟩ := h
  exact ⟨r, hy, hx⟩

theorem Joined.trans (h : Joined parent x y) (h' : Joined parent y z) : Joined parent x z := by
  obtain ⟨r, hx, hy⟩ := h
  obtain ⟨r', hy', hz⟩ := h'
  rw [hy.unique hy'] at hx
  exact ⟨r', hx, hz⟩

theorem joined_iff (hx : RootOf parent x r) (hy : RootOf parent y r') :
    Joined parent x y ↔ r = r' := by
  constructor
  · rintro ⟨z, hxz, hyz⟩
    exact (hx.unique hxz).trans (hyz.unique hy)
  · rintro rfl
    exact ⟨r, hx, hy⟩

theorem partitions_id : Partitions s (fun _ _ => False) (id : α → α) where
  forest := ⟨fun i => ⟨i, rootOf_self rfl⟩, fun _ h => h, fun _ _ => rfl⟩
  joined i j := by
    rw [joined_iff (rootOf_self rfl) (rootOf_self rfl)]
    constructor
    · rintro rfl
      exact .refl i
    · intro h
      induction h with
      | rel _ _ h => exact h.elim
      | refl => rfl
      | symm _ _ _ ih => exact ih.symm
      | trans _ _ _ _ _ ih ih' => exact ih.trans ih'

section Algorithm

variable [DecidableEq α]

/-- Compressing a path changes no root. -/
theorem rootOf_compress (hi : RootOf parent i r) (hx : RootOf parent x y) :
    RootOf (Function.update parent i r) x y := by
  obtain ⟨k, hx⟩ := hx
  induction hx with
  | @root x h =>
    apply rootOf_self
    by_cases hxi : x = i
    · subst hxi
      rw [Function.update_self]
      exact hi.unique (rootOf_self h)
    · rwa [Function.update_of_ne hxi]
  | @step x y k hne hy ih =>
    by_cases hxi : x = i
    · subst hxi
      have hr : r = y := hi.unique ⟨k + 1, .step hne hy⟩
      subst hr
      apply RootOf.step
      rw [Function.update_self]
      apply rootOf_self
      have hrx : r ≠ x := fun heq => hne (heq ▸ hi.isRoot)
      rw [Function.update_of_ne hrx, hi.isRoot]
    · apply RootOf.step
      rwa [Function.update_of_ne hxi]

/-- Hanging a root below another one moves its tree there. -/
theorem rootOf_link (hp : parent p' = p') (hq : parent q' = q') (hne : p' ≠ q')
    (hx : RootOf parent x y) :
    RootOf (Function.update parent p' q') x (if y = p' then q' else y) := by
  obtain ⟨k, hx⟩ := hx
  induction hx with
  | @root x h =>
    split_ifs with hxp
    · apply RootOf.step
      rw [hxp, Function.update_self]
      apply rootOf_self
      rwa [Function.update_of_ne hne.symm]
    · apply rootOf_self
      rwa [Function.update_of_ne hxp]
  | @step x y k hx _ ih =>
    apply RootOf.step
    rwa [Function.update_of_ne fun heq => hx (by rw [heq, hp])]

theorem Forest.update (hf : Forest s parent) (hi : i ∈ s) (hr : r ∈ s)
    (hroots : ∀ x, ∃ y, RootOf (Function.update parent i r) x y) :
    Forest s (Function.update parent i r) where
  rooted := hroots
  inside x hx := by
    by_cases hxi : x = i
    · rwa [hxi, Function.update_self]
    · rw [Function.update_of_ne hxi]
      exact hf.inside x hx
  outside x hx := by
    have hxi : x ≠ i := fun heq => hx (heq ▸ hi)
    rw [Function.update_of_ne hxi]
    exact hf.outside x hx

theorem find_of_rootIn (hf : Forest s parent) (h : RootIn parent i r k) (hk : k < fuel) :
    ∃ parent', find fuel parent i = some (r, parent') ∧ Forest s parent' ∧
      SameRoots parent parent' := by
  induction fuel generalizing i k with
  | zero => omega
  | succ fuel ih =>
    cases h with
    | root h =>
      refine ⟨parent, ?_, hf, fun _ _ => Iff.rfl⟩
      simp [find, h]
    | @step _ _ k hne h =>
      obtain ⟨parent', heq, hf', hsame⟩ := ih h (by omega)
      have hi : RootOf parent' i r := (hsame i r).mp ⟨k + 1, .step hne h⟩
      have hsame' : SameRoots parent' (Function.update parent' i r) :=
        .of_imp hf'.rooted fun _ _ hx => rootOf_compress hi hx
      have hmem : i ∈ s := by
        by_contra hout
        exact hne (hf.outside i hout)
      refine ⟨Function.update parent' i r, ?_,
        hf'.update hmem (hf'.root_mem hi hmem) fun x => ?_, hsame.trans hsame'⟩
      · simp [find, hne, heq]
      · obtain ⟨y, hy⟩ := hf'.rooted x
        exact ⟨y, (hsame' x y).mp hy⟩

/-- `find` returns the root and changes none. -/
theorem find_eq (hf : Forest s parent) (h : RootOf parent i r) (hfuel : s.card < fuel) :
    ∃ parent', find fuel parent i = some (r, parent') ∧ Forest s parent' ∧
      SameRoots parent parent' := by
  obtain ⟨k, h⟩ := h
  exact find_of_rootIn hf h ((hf.le_card h).trans_lt hfuel)

/-- `union` moves the tree of `i` to the root of `j` and leaves the others. -/
theorem union_eq (hf : Forest s parent) (hi : i ∈ s) (hj : j ∈ s) (hri : RootOf parent i r)
    (hrj : RootOf parent j r') (hfuel : s.card < fuel) :
    ∃ parent', union fuel parent i j = some parent' ∧ Forest s parent' ∧
      ∀ x y, RootOf parent x y → RootOf parent' x (if y = r then r' else y) := by
  obtain ⟨parent₁, heq₁, hf₁, hsame₁⟩ := find_eq hf hri hfuel
  obtain ⟨parent₂, heq₂, hf₂, hsame₂⟩ := find_eq hf₁ ((hsame₁ j r').mp hrj) hfuel
  have hsame := hsame₁.trans hsame₂
  by_cases hne : r = r'
  · refine ⟨parent₂, by simp [union, heq₁, heq₂, hne], hf₂, fun x y hxy => ?_⟩
    have hy : (if y = r then r' else y) = y := by
      split_ifs with h
      · rw [h, hne]
      · rfl
    rw [hy]
    exact (hsame x y).mp hxy
  · have hr := ((hsame i r).mp hri).isRoot
    have hr' := ((hsame j r').mp hrj).isRoot
    have hlink : ∀ x y, RootOf parent x y →
        RootOf (Function.update parent₂ r r') x (if y = r then r' else y) :=
      fun x y hxy => rootOf_link hr hr' hne ((hsame x y).mp hxy)
    refine ⟨Function.update parent₂ r r', by simp [union, heq₁, heq₂, hne],
      hf₂.update (hf.root_mem hri hi) (hf.root_mem hrj hj) fun x => ?_, hlink⟩
    obtain ⟨y, hy⟩ := hf.rooted x
    exact ⟨_, hlink x y hy⟩

/-- Two forests with the same roots. -/
structure Matching (s : Finset α) (p q : α → α) : Prop where
  left : Forest s p
  right : Forest s q
  roots : SameRoots p q

/-- A union that finds its roots by following the parents `fuel` times has the same trees. -/
theorem Matching.union (h : Matching s p q) (hi : i ∈ s) (hj : j ∈ s) (hfuel : s.card ≤ fuel) :
    ∃ p', UnionFind.union (fuel + 1) p i j = some p' ∧ Matching s p'
      (if q^[fuel] i ≠ q^[fuel] j then Function.update q (q^[fuel] i) (q^[fuel] j) else q) := by
  obtain ⟨ri, k, hri⟩ := h.right.rooted i
  obtain ⟨rj, l, hrj⟩ := h.right.rooted j
  rw [hri.iterate_of_le ((h.right.le_card hri).trans hfuel),
    hrj.iterate_of_le ((h.right.le_card hrj).trans hfuel)]
  have hi' : RootOf q i ri := ⟨k, hri⟩
  have hj' : RootOf q j rj := ⟨l, hrj⟩
  obtain ⟨p', heq, hf', hroots⟩ := union_eq h.left hi hj ((h.roots i ri).mpr hi')
    ((h.roots j rj).mpr hj') (Nat.lt_succ_of_le hfuel)
  have hright : ∀ x y, RootOf q x y → RootOf (if ri ≠ rj then Function.update q ri rj else q) x
      (if y = ri then rj else y) := by
    intro x y hxy
    by_cases hne : ri = rj
    · rw [if_neg (not_not.mpr hne)]
      split_ifs with hy
      · rwa [← hne, ← hy]
      · exact hxy
    · rw [if_pos hne]
      exact rootOf_link hi'.isRoot hj'.isRoot hne hxy
  refine ⟨p', heq, hf', ?_, .of_imp hf'.rooted fun x y hxy => ?_⟩
  · split_ifs with hne
    · refine h.right.update (h.right.root_mem hi' hi) (h.right.root_mem hj' hj) fun x => ?_
      obtain ⟨y, hy⟩ := h.right.rooted x
      exact ⟨_, rootOf_link hi'.isRoot hj'.isRoot hne hy⟩
    · exact h.right
  · obtain ⟨z, hz⟩ := h.left.rooted x
    rw [hxy.unique (hroots x z hz)]
    exact hright x z ((h.roots x z).mp hz)

/-- `union` joins the classes of the two. -/
theorem Partitions.union (h : Partitions s R parent) (hi : i ∈ s) (hj : j ∈ s)
    (hfuel : s.card < fuel) :
    ∃ parent', UnionFind.union fuel parent i j = some parent' ∧
      Partitions s (fun x y => R x y ∨ x = i ∧ y = j) parent' := by
  obtain ⟨ri, hri⟩ := h.forest.rooted i
  obtain ⟨rj, hrj⟩ := h.forest.rooted j
  obtain ⟨parent', heq, hf', hroots⟩ := union_eq h.forest hi hj hri hrj hfuel
  have hkeep : ∀ x y, Joined parent x y → Joined parent' x y := by
    rintro x y ⟨r, hx, hy⟩
    exact ⟨_, hroots x r hx, hroots y r hy⟩
  have hij : Joined parent' i j := by
    refine (joined_iff (hroots i ri hri) (hroots j rj hrj)).mpr ?_
    rw [if_pos rfl]
    split_ifs <;> rfl
  have hle : R ≤ fun x y => R x y ∨ x = i ∧ y = j := fun _ _ => Or.inl
  refine ⟨parent', heq, hf', fun x y => ⟨fun hxy => ?_, fun hxy => ?_⟩⟩
  · -- a root that has moved is that of `i`, and it has moved to that of `j`
    have hclass : ∀ x rx, RootOf parent x rx → Relation.EqvGen (fun x y => R x y ∨ x = i ∧ y = j)
        x (if rx = ri then j else x) := by
      intro x rx hx
      split_ifs with hrx
      · have hxi : Relation.EqvGen R x i := (h.joined x i).mp ⟨rx, hx, hrx ▸ hri⟩
        exact (Relation.EqvGen.mono hle _ _ hxi).trans _ _ _ (.rel _ _ (.inr ⟨rfl, rfl⟩))
      · exact .refl x
    obtain ⟨rx, hx⟩ := h.forest.rooted x
    obtain ⟨ry, hy⟩ := h.forest.rooted y
    have hrxy := (joined_iff (hroots x rx hx) (hroots y ry hy)).mp hxy
    have hmid : Relation.EqvGen (fun x y => R x y ∨ x = i ∧ y = j) (if rx = ri then j else x)
        (if ry = ri then j else y) := by
      refine Relation.EqvGen.mono hle _ _ ((h.joined _ _).mp ?_)
      split_ifs at hrxy ⊢
      · exact ⟨rj, hrj, hrj⟩
      · exact ⟨rj, hrj, hrxy ▸ hy⟩
      · exact ⟨rj, hrxy ▸ hx, hrj⟩
      · exact ⟨rx, hx, hrxy ▸ hy⟩
    exact ((hclass x rx hx).trans _ _ _ hmid).trans _ _ _ (hclass y ry hy).symm
  · induction hxy with
    | rel x y hxy =>
      rcases hxy with hxy | ⟨rfl, rfl⟩
      · exact hkeep x y ((h.joined x y).mpr (.rel x y hxy))
      · exact hij
    | refl x => exact hkeep x x ((h.joined x x).mpr (.refl x))
    | symm _ _ _ ih => exact ih.symm
    | trans _ _ _ _ _ ih ih' => exact ih.trans ih'

end Algorithm

/-- A loop whose rounds each join some more. -/
theorem Partitions.foldlM {β : Type} {f : (α → α) → β → Option (α → α)} {S : β → α → α → Prop}
    {l : List β}
    (hstep : ∀ b ∈ l, ∀ R parent, Partitions s R parent →
      ∃ parent', f parent b = some parent' ∧ Partitions s (fun x y => R x y ∨ S b x y) parent')
    (h : Partitions s R parent) :
    ∃ parent', l.foldlM f parent = some parent' ∧
      Partitions s (fun x y => R x y ∨ ∃ b ∈ l, S b x y) parent' := by
  induction l generalizing R parent with
  | nil => exact ⟨parent, rfl, by simpa using h⟩
  | cons b l ih =>
    obtain ⟨parent₁, heq₁, h₁⟩ := hstep b List.mem_cons_self R parent h
    obtain ⟨parent₂, heq₂, h₂⟩ := ih (fun c hc => hstep c (List.mem_cons_of_mem b hc)) h₁
    refine ⟨parent₂, by simp [List.foldlM_cons, heq₁, heq₂], ?_⟩
    simpa [or_assoc] using h₂

end GpuSharing.UnionFind
