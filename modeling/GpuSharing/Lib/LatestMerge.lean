import Mathlib.Data.List.Induction
import Mathlib.Data.List.Nodup
import Mathlib.Order.Lattice

namespace GpuSharing.LatestMerge

variable {ε κ τ β : Type} [LinearOrder τ] (key : ε → κ) (stamp : ε → τ)

/-- The first of the entries of its key that no other one is later than. -/
def FirstLatest (entries : List ε) (e : ε) : Prop :=
  ∃ before after, entries = before ++ e :: after ∧
    (∀ x ∈ before, key x = key e → stamp x < stamp e) ∧
    ∀ x ∈ after, key x = key e → stamp x ≤ stamp e

/-- No entry of its key is later. -/
def Greatest (entries : List ε) (e : ε) : Prop :=
  e ∈ entries ∧ ∀ x ∈ entries, key x = key e → stamp x ≤ stamp e

variable {key stamp} {entries kept : List ε} {e x : ε}

theorem firstLatest_append_singleton :
    FirstLatest key stamp (entries ++ [e]) x ↔
      (x = e ∧ ∀ y ∈ entries, key y = key e → stamp y < stamp e) ∨
        (FirstLatest key stamp entries x ∧ (key x = key e → stamp e ≤ stamp x)) := by
  constructor
  · rintro ⟨before, after, heq, hbefore, hafter⟩
    induction after using List.reverseRecOn with
    | nil =>
      obtain ⟨rfl, hlast⟩ := List.append_inj' heq rfl
      cases hlast
      exact .inl ⟨rfl, hbefore⟩
    | append_singleton after z _ =>
      rw [← List.cons_append, ← List.append_assoc] at heq
      obtain ⟨rfl, hlast⟩ := List.append_inj' heq rfl
      cases hlast
      refine .inr ⟨⟨before, after, rfl, hbefore, fun y hy => ?_⟩, fun hkey => ?_⟩
      · exact hafter y (List.mem_append_left _ hy)
      · exact hafter e (List.mem_append_right _ (List.mem_singleton_self _)) hkey.symm
  · rintro (⟨rfl, hall⟩ | ⟨⟨before, after, rfl, hbefore, hafter⟩, hle⟩)
    · exact ⟨entries, [], rfl, hall, fun y hy => absurd hy List.not_mem_nil⟩
    · refine ⟨before, after ++ [e], by simp, hbefore, fun y hy hkey => ?_⟩
      rcases List.mem_append.mp hy with hy | hy
      · exact hafter y hy hkey
      · cases List.mem_singleton.mp hy
        exact hle hkey.symm

theorem FirstLatest.mem (h : FirstLatest key stamp entries e) : e ∈ entries := by
  obtain ⟨before, after, rfl, -⟩ := h
  exact List.mem_append_right _ List.mem_cons_self

theorem FirstLatest.le (h : FirstLatest key stamp entries e) (hx : x ∈ entries)
    (hkey : key x = key e) : stamp x ≤ stamp e := by
  obtain ⟨before, after, rfl, hbefore, hafter⟩ := h
  rcases List.mem_append.mp hx with hx | hx
  · exact (hbefore x hx hkey).le
  · rcases List.mem_cons.mp hx with rfl | hx
    · exact le_rfl
    · exact hafter x hx hkey

theorem FirstLatest.greatest (h : FirstLatest key stamp entries e) :
    Greatest key stamp entries e :=
  ⟨h.mem, fun _ hx hkey => h.le hx hkey⟩

variable [DecidableEq κ]

/-- Keep one entry of each key: a later one takes the place of an earlier one. -/
def put (key : ε → κ) (stamp : ε → τ) (e : ε) : List ε → List ε
  | [] => [e]
  | x :: xs =>
    if key x = key e then (if stamp x < stamp e then e else x) :: xs else x :: put key stamp e xs

def merge (key : ε → κ) (stamp : ε → τ) (entries : List ε) : List ε :=
  entries.foldl (fun kept e => put key stamp e kept) []

theorem keys_put (e : ε) (kept : List ε) :
    (put key stamp e kept).map key =
      if key e ∈ kept.map key then kept.map key else kept.map key ++ [key e] := by
  induction kept with
  | nil => rfl
  | cons x xs ih =>
    by_cases hkey : key x = key e
    · have hhead : key (if stamp x < stamp e then e else x) = key x := by
        split_ifs
        · exact hkey.symm
        · rfl
      simp [put, hkey]
      rw [hhead, hkey]
    · have hne : key e ≠ key x := Ne.symm hkey
      simp only [put, if_neg hkey, List.map_cons, ih, List.mem_cons, hne, false_or]
      split_ifs <;> rfl

theorem nodup_put (h : (kept.map key).Nodup) : ((put key stamp e kept).map key).Nodup := by
  rw [keys_put]
  split_ifs with hmem
  · exact h
  · exact List.nodup_append.mpr ⟨h, List.nodup_singleton _, by
      rintro a ha b hb rfl
      exact hmem (List.mem_singleton.mp hb ▸ ha)⟩

theorem merge_append_singleton (entries : List ε) (e : ε) :
    merge key stamp (entries ++ [e]) = put key stamp e (merge key stamp entries) := by
  rw [merge, List.foldl_append]
  rfl

theorem nodup_merge (entries : List ε) : ((merge key stamp entries).map key).Nodup := by
  induction entries using List.reverseRecOn with
  | nil => exact List.nodup_nil
  | append_singleton entries e ih =>
    rw [merge_append_singleton]
    exact nodup_put ih

/-- Putting an entry of a new key adds it at the end. -/
theorem put_of_notMem (h : key e ∉ kept.map key) : put key stamp e kept = kept ++ [e] := by
  induction kept with
  | nil => rfl
  | cons x xs ih =>
    simp only [List.map_cons, List.mem_cons, not_or] at h
    rw [put, if_neg (Ne.symm h.1), ih h.2]
    rfl

theorem merge_of_nodup (h : (entries.map key).Nodup) : merge key stamp entries = entries := by
  induction entries using List.reverseRecOn with
  | nil => rfl
  | append_singleton entries e ih =>
    rw [List.map_append, List.map_singleton] at h
    have hnew : key e ∉ entries.map key := fun hmem =>
      (List.nodup_append.mp h).2.2 _ hmem _ (List.mem_singleton_self _) rfl
    rw [merge_append_singleton, ih (List.nodup_append.mp h).1, put_of_notMem hnew]

theorem merge_idem (entries : List ε) :
    merge key stamp (merge key stamp entries) = merge key stamp entries :=
  merge_of_nodup (nodup_merge entries)

/-- What a put leaves: the new entry if it is later than what was kept of its key. -/
theorem mem_put_iff (h : (kept.map key).Nodup) :
    x ∈ put key stamp e kept ↔
      (x = e ∧ ∀ y ∈ kept, key y = key e → stamp y < stamp e) ∨
        (x ∈ kept ∧ (key x = key e → stamp e ≤ stamp x)) := by
  induction kept with
  | nil => simp [put]
  | cons y ys ih =>
    obtain ⟨hy, hys⟩ := List.nodup_cons.mp h
    by_cases hkey : key y = key e
    · have hother : ∀ z ∈ ys, key z ≠ key e := fun z hz heq =>
        hy (hkey ▸ heq ▸ List.mem_map_of_mem hz)
      rw [put, if_pos hkey]
      split_ifs with hlt
      · constructor
        · intro hx
          rcases List.mem_cons.mp hx with rfl | hx
          · refine .inl ⟨rfl, fun z hz heq => ?_⟩
            rcases List.mem_cons.mp hz with rfl | hz
            · exact hlt
            · exact absurd heq (hother z hz)
          · exact .inr ⟨List.mem_cons_of_mem _ hx, fun heq => absurd heq (hother x hx)⟩
        · rintro (⟨rfl, -⟩ | ⟨hx, hle⟩)
          · exact List.mem_cons_self
          · rcases List.mem_cons.mp hx with rfl | hx
            · exact absurd (hle hkey) (not_le.mpr hlt)
            · exact List.mem_cons_of_mem _ hx
      · constructor
        · intro hx
          refine .inr ⟨hx, fun heq => ?_⟩
          rcases List.mem_cons.mp hx with rfl | hx
          · exact not_lt.mp hlt
          · exact absurd heq (hother x hx)
        · rintro (⟨-, hall⟩ | ⟨hx, -⟩)
          · exact absurd (hall y List.mem_cons_self hkey) hlt
          · exact hx
    · rw [put, if_neg hkey, List.mem_cons, ih hys]
      constructor
      · rintro (rfl | ⟨rfl, hall⟩ | ⟨hx, hle⟩)
        · exact .inr ⟨List.mem_cons_self, fun heq => absurd heq hkey⟩
        · refine .inl ⟨rfl, fun z hz heq => ?_⟩
          rcases List.mem_cons.mp hz with rfl | hz
          · exact absurd heq hkey
          · exact hall z hz heq
        · exact .inr ⟨List.mem_cons_of_mem _ hx, hle⟩
      · rintro (⟨rfl, hall⟩ | ⟨hx, hle⟩)
        · exact .inr (.inl ⟨rfl, fun z hz => hall z (List.mem_cons_of_mem _ hz)⟩)
        · rcases List.mem_cons.mp hx with rfl | hx
          · exact .inl rfl
          · exact .inr (.inr ⟨hx, hle⟩)

theorem mem_keys_merge (key : ε → κ) (stamp : ε → τ) (hx : x ∈ entries) :
    key x ∈ (merge key stamp entries).map key := by
  induction entries using List.reverseRecOn with
  | nil => cases hx
  | append_singleton entries e ih =>
    rw [merge_append_singleton, keys_put]
    rcases List.mem_append.mp hx with hx | hx
    · split_ifs
      · exact ih hx
      · exact List.mem_append_left _ (ih hx)
    · cases List.mem_singleton.mp hx
      split_ifs with hmem
      · exact hmem
      · exact List.mem_append_right _ (List.mem_singleton_self _)

/-- The merge keeps of each key the first of its latest entries. -/
theorem mem_merge_iff : e ∈ merge key stamp entries ↔ FirstLatest key stamp entries e := by
  induction entries using List.reverseRecOn generalizing e with
  | nil =>
    refine iff_of_false List.not_mem_nil ?_
    intro h
    cases h.mem
  | append_singleton entries x ih =>
    rw [merge_append_singleton, mem_put_iff (nodup_merge entries), firstLatest_append_singleton, ih]
    refine or_congr (and_congr_right fun _ => ?_) Iff.rfl
    constructor
    · intro hkept y hy hkey
      obtain ⟨z, hz, hzy⟩ := List.mem_map.mp (mem_keys_merge key stamp hy)
      exact ((ih.mp hz).le hy hzy.symm).trans_lt (hkept z hz (hzy.trans hkey))
    · intro hall y hy
      exact hall y (ih.mp hy).mem

/-- The entry that the merge keeps of a key. -/
def latest (key : ε → κ) (stamp : ε → τ) (entries : List ε) (k : κ) : Option ε :=
  (merge key stamp entries).find? (key · = k)

theorem latest_eq_some {k : κ} :
    latest key stamp entries k = some e ↔ FirstLatest key stamp entries e ∧ key e = k := by
  rw [← mem_merge_iff, latest]
  constructor
  · intro h
    exact ⟨List.mem_of_find?_eq_some h, by simpa using List.find?_some h⟩
  · rintro ⟨he, rfl⟩
    have hfound : ((merge key stamp entries).find? (key · = key e)).isSome := by
      rw [List.find?_isSome]
      exact ⟨e, he, decide_eq_true rfl⟩
    obtain ⟨x, hx⟩ := Option.isSome_iff_exists.mp hfound
    have hkey : key x = key e := by simpa using List.find?_some hx
    rw [hx, List.inj_on_of_nodup_map (nodup_merge entries) (List.mem_of_find?_eq_some hx) he hkey]

theorem latest_eq_none {k : κ} :
    latest key stamp entries k = none ↔ ∀ x ∈ entries, key x ≠ k := by
  rw [latest, List.find?_eq_none]
  constructor
  · rintro h x hx rfl
    obtain ⟨z, hz, hzx⟩ := List.mem_map.mp (mem_keys_merge key stamp hx)
    exact h z hz (decide_eq_true hzx)
  · intro h x hx
    simpa using h x (mem_merge_iff.mp hx).mem

/-- A latest entry is what the merge keeps if it comes first. -/
theorem exists_perm_latest (h : Greatest key stamp entries e) :
    ∃ entries', entries'.Perm entries ∧ latest key stamp entries' (key e) = some e := by
  obtain ⟨before, after, rfl⟩ := List.append_of_mem h.1
  refine ⟨e :: (before ++ after), List.perm_middle.symm, latest_eq_some.mpr
    ⟨⟨[], before ++ after, rfl, fun x hx => absurd hx List.not_mem_nil, fun x hx => ?_⟩, rfl⟩⟩
  refine h.2 x ?_
  rcases List.mem_append.mp hx with hx | hx
  · exact List.mem_append_left _ hx
  · exact List.mem_append_right _ (List.mem_cons_of_mem _ hx)

/-- What is seen of the merge depends on the order exactly when latest entries of one key differ in
it. -/
theorem latest_perm_iff (view : ε → β) :
    (∀ entries', entries'.Perm entries → ∀ k,
      (latest key stamp entries' k).map view = (latest key stamp entries k).map view) ↔
      ∀ x y, Greatest key stamp entries x → Greatest key stamp entries y → key x = key y →
        view x = view y := by
  constructor
  · intro h x y hx hy hkey
    obtain ⟨entries₁, hperm₁, hlatest₁⟩ := exists_perm_latest hx
    obtain ⟨entries₂, hperm₂, hlatest₂⟩ := exists_perm_latest hy
    have h₁ := h entries₁ hperm₁ (key x)
    have h₂ := h entries₂ hperm₂ (key y)
    rw [hlatest₁] at h₁
    rw [hlatest₂, ← hkey, ← h₁] at h₂
    exact (Option.some.inj h₂).symm
  · intro h entries' hperm k
    cases hlatest : latest key stamp entries k with
    | none =>
      rw [latest_eq_none.mpr fun x hx => latest_eq_none.mp hlatest x (hperm.mem_iff.mp hx)]
    | some e =>
      obtain ⟨he, rfl⟩ := latest_eq_some.mp hlatest
      cases hlatest' : latest key stamp entries' (key e) with
      | none => exact absurd rfl (latest_eq_none.mp hlatest' e (hperm.mem_iff.mpr he.mem))
      | some x =>
        obtain ⟨hx, hkey⟩ := latest_eq_some.mp hlatest'
        have hxg : Greatest key stamp entries x :=
          ⟨hperm.mem_iff.mp hx.mem, fun y hy => hx.le (hperm.mem_iff.mpr hy)⟩
        exact congrArg some (h x e hxg he.greatest hkey)

end GpuSharing.LatestMerge
