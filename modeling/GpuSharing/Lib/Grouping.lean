import Mathlib.Data.List.Induction
import GpuSharing.Lib.Dict

namespace GpuSharing.Grouping

variable {α κ : Type} [DecidableEq κ] {key : α → κ} {x : α} {groups : List (κ × List α)} {k : κ}
  {xs : List α}

/-- Add an element to the group of its key, after those that are in it already. -/
def add (key : α → κ) (x : α) : List (κ × List α) → List (κ × List α)
  | [] => [(key x, [x])]
  | (k, xs) :: groups =>
    if k = key x then (k, xs ++ [x]) :: groups else (k, xs) :: add key x groups

/-- The elements by their keys, the keys in the order in which they come first. -/
def grouped (key : α → κ) (l : List α) : List (κ × List α) :=
  l.foldl (fun groups x => add key x groups) []

theorem grouped_append_singleton (l : List α) (x : α) :
    grouped key (l ++ [x]) = add key x (grouped key l) := by
  rw [grouped, List.foldl_append]
  rfl

theorem add_perm (x : α) (groups : List (κ × List α)) :
    ((add key x groups).flatMap (·.2)).Perm (x :: groups.flatMap (·.2)) := by
  induction groups with
  | nil => exact List.Perm.refl _
  | cons g groups ih =>
    obtain ⟨k, xs⟩ := g
    rw [add]
    split_ifs
    · simp only [List.flatMap_cons, List.append_assoc, List.singleton_append]
      exact List.perm_middle
    · simp only [List.flatMap_cons]
      exact (ih.append_left xs).trans List.perm_middle

/-- Every element is in one group. -/
theorem grouped_perm (key : α → κ) (l : List α) : ((grouped key l).flatMap (·.2)).Perm l := by
  induction l using List.reverseRecOn with
  | nil => exact List.Perm.refl _
  | append_singleton l x ih =>
    rw [grouped_append_singleton]
    exact (add_perm x _).trans ((ih.cons x).trans (List.perm_append_singleton x l).symm)

theorem mem_keys_add (h : (k, xs) ∈ add key x groups) :
    k = key x ∨ ∃ ys, (k, ys) ∈ groups := by
  induction groups with
  | nil =>
    cases List.mem_singleton.mp h
    exact .inl rfl
  | cons g groups ih =>
    obtain ⟨k', zs⟩ := g
    rw [add] at h
    split_ifs at h with hk
    · rcases List.mem_cons.mp h with heq | h
      · cases heq
        exact .inl hk
      · exact .inr ⟨xs, List.mem_cons_of_mem _ h⟩
    · rcases List.mem_cons.mp h with heq | h
      · cases heq
        exact .inr ⟨xs, List.mem_cons_self⟩
      · obtain hk | ⟨ys, hys⟩ := ih h
        · exact .inl hk
        · exact .inr ⟨ys, List.mem_cons_of_mem _ hys⟩

/-- Every group is that of an element's key. -/
theorem exists_of_mem_grouped {l : List α} (h : (k, xs) ∈ grouped key l) : ∃ x ∈ l, key x = k := by
  induction l using List.reverseRecOn generalizing xs with
  | nil => cases h
  | append_singleton l x ih =>
    rw [grouped_append_singleton] at h
    obtain rfl | ⟨ys, hys⟩ := mem_keys_add h
    · exact ⟨x, List.mem_append_right _ (List.mem_singleton_self x), rfl⟩
    · obtain ⟨y, hy, hyk⟩ := ih hys
      exact ⟨y, List.mem_append_left _ hy, hyk⟩

theorem key_of_mem_add {y : α} (hgroups : ∀ ys, (k, ys) ∈ groups → ∀ x ∈ ys, key x = k)
    (h : (k, xs) ∈ add key y groups) (hx : x ∈ xs) : key x = k := by
  induction groups with
  | nil =>
    cases List.mem_singleton.mp h
    cases List.mem_singleton.mp hx
    rfl
  | cons g groups ih =>
    obtain ⟨k', zs⟩ := g
    rw [add] at h
    split_ifs at h with hk
    · rcases List.mem_cons.mp h with heq | h
      · cases heq
        rcases List.mem_append.mp hx with hx | hx
        · exact hgroups zs List.mem_cons_self x hx
        · cases List.mem_singleton.mp hx
          exact hk.symm
      · exact hgroups xs (List.mem_cons_of_mem _ h) x hx
    · rcases List.mem_cons.mp h with heq | h
      · cases heq
        exact hgroups xs List.mem_cons_self x hx
      · exact ih (fun ys hys => hgroups ys (List.mem_cons_of_mem _ hys)) h

/-- The members of a group have its key. -/
theorem key_of_mem_grouped {l : List α} (h : (k, xs) ∈ grouped key l) (hx : x ∈ xs) :
    key x = k := by
  induction l using List.reverseRecOn generalizing xs x with
  | nil => cases h
  | append_singleton l y ih =>
    rw [grouped_append_singleton] at h
    exact key_of_mem_add (fun ys hys x hx => ih hys hx) h hx

theorem keys_add_nodup (h : (groups.map (·.1)).Nodup) : ((add key x groups).map (·.1)).Nodup := by
  induction groups with
  | nil => exact List.nodup_singleton _
  | cons g groups ih =>
    obtain ⟨k, xs⟩ := g
    obtain ⟨hnew, h⟩ := List.nodup_cons.mp h
    rw [add]
    split_ifs with hk
    · exact List.nodup_cons.mpr ⟨hnew, h⟩
    · refine List.nodup_cons.mpr ⟨fun hmem => ?_, ih h⟩
      obtain ⟨⟨k', ys⟩, hg, rfl⟩ := List.mem_map.mp hmem
      rcases mem_keys_add hg with hkey | ⟨zs, hzs⟩
      · exact hk hkey
      · exact hnew (List.mem_map.mpr ⟨_, hzs, rfl⟩)

theorem grouped_keys_nodup (l : List α) : ((grouped key l).map (·.1)).Nodup := by
  induction l using List.reverseRecOn with
  | nil => exact List.nodup_nil
  | append_singleton l x ih =>
    rw [grouped_append_singleton]
    exact keys_add_nodup ih

/-- Two elements are in one group when they have the same key. -/
theorem same_group_iff {l : List α} {y : α} (hx : x ∈ l) (hy : y ∈ l) :
    (∃ g ∈ grouped key l, x ∈ g.2 ∧ y ∈ g.2) ↔ key x = key y := by
  constructor
  · rintro ⟨⟨k, xs⟩, hg, hxs, hys⟩
    exact (key_of_mem_grouped hg hxs).trans (key_of_mem_grouped hg hys).symm
  · intro hkey
    obtain ⟨⟨k, xs⟩, hg, hxs⟩ := List.mem_flatMap.mp ((grouped_perm key l).mem_iff.mpr hx)
    obtain ⟨⟨k', ys⟩, hg', hys⟩ := List.mem_flatMap.mp ((grouped_perm key l).mem_iff.mpr hy)
    have hk : k = k' := by
      rw [← key_of_mem_grouped hg hxs, ← key_of_mem_grouped hg' hys, hkey]
    have hsame := List.inj_on_of_nodup_map (grouped_keys_nodup l) hg hg' hk
    cases hsame
    exact ⟨_, hg, hxs, hys⟩

theorem add_congr {key' : α → κ} (h : key x = key' x) (groups : List (κ × List α)) :
    add key x groups = add key' x groups := by
  induction groups with
  | nil => rw [add, add, h]
  | cons g groups ih => rw [add, add, ih, h]

/-- No group is empty. -/
theorem ne_nil_of_mem_grouped {l : List α} (h : (k, xs) ∈ grouped key l) : xs ≠ [] := by
  obtain ⟨x, hx, rfl⟩ := exists_of_mem_grouped h
  have hself : ∃ g ∈ grouped key l, x ∈ g.2 ∧ x ∈ g.2 := (same_group_iff hx hx).mpr rfl
  obtain ⟨⟨k', ys⟩, hg, hxs, -⟩ := hself
  have hk : k' = key x := (key_of_mem_grouped hg hxs).symm
  have hsame := List.inj_on_of_nodup_map (grouped_keys_nodup l) hg h hk
  cases hsame
  exact List.ne_nil_of_mem hxs

section Dictionary

variable {d : Dict κ (List α)}

/-- `d[key(x)].append(x)`, where a missing group is empty. -/
def insertInto (key : α → κ) (d : Dict κ (List α)) (x : α) : Dict κ (List α) :=
  d.setItem (key x) ((d.lookup (key x)).getD [] ++ [x])

/-- The elements by their keys, in a dictionary. -/
def dictGrouped (key : α → κ) (l : List α) : Dict κ (List α) := l.foldl (insertInto key) ∅

theorem dictGrouped_append_singleton (l : List α) (x : α) :
    dictGrouped key (l ++ [x]) = insertInto key (dictGrouped key l) x := by
  rw [dictGrouped, List.foldl_append]
  rfl

/-- The group of a key are the elements that have it, in their order. -/
theorem lookup_dictGrouped (l : List α) (k : κ) :
    ((dictGrouped key l).lookup k).getD [] = l.filter (key · = k) := by
  induction l using List.reverseRecOn with
  | nil => rfl
  | append_singleton l x ih =>
    rw [dictGrouped_append_singleton, insertInto, Dict.lookup_setItem, List.filter_append]
    split_ifs with hk
    · subst hk
      simp [ih]
    · simp [ih, Ne.symm hk]

/-- No group is empty. -/
theorem ne_nil_of_lookup_dictGrouped {l : List α} (h : (dictGrouped key l).lookup k = some xs) :
    xs ≠ [] := by
  induction l using List.reverseRecOn with
  | nil => cases h
  | append_singleton l x ih =>
    rw [dictGrouped_append_singleton, insertInto, Dict.lookup_setItem] at h
    split_ifs at h with hk
    · cases h
      exact List.append_ne_nil_of_right_ne_nil _ (List.cons_ne_nil _ _)
    · exact ih h

theorem insertInto_perm (d : Dict κ (List α)) (x : α) :
    ((insertInto key d x).entries.flatMap (·.2)).Perm (x :: d.entries.flatMap (·.2)) := by
  unfold insertInto
  cases hk : d.lookup (key x) with
  | none =>
    have hnew : key x ∉ d.keys := AList.lookup_eq_none.mp hk
    rw [Dict.entries_setItem hnew]
    exact List.Perm.refl _
  | some xs =>
    have hold := (Dict.pop_some (Dict.pop_eq_some.mpr ⟨hk, rfl⟩)).flatMap_right (·.2)
    have hset := (Dict.entries_setItem_perm hk (xs ++ [x])).flatMap_right (·.2)
    rw [List.flatMap_cons] at hold hset
    refine hset.trans (List.Perm.trans ?_ (hold.cons x).symm)
    rw [List.append_assoc, List.singleton_append]
    exact List.perm_middle

/-- Every element is in one group. -/
theorem dictGrouped_perm (key : α → κ) (l : List α) :
    ((dictGrouped key l).entries.flatMap (·.2)).Perm l := by
  induction l using List.reverseRecOn with
  | nil => exact List.Perm.refl _
  | append_singleton l x ih =>
    rw [dictGrouped_append_singleton]
    exact (insertInto_perm _ x).trans ((ih.cons x).trans (List.perm_append_singleton x l).symm)

end Dictionary

end GpuSharing.Grouping
