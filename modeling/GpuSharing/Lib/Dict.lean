import Mathlib.Data.List.AList

namespace GpuSharing

/-- A dictionary that remembers the order of insertion, the newest entry first. -/
abbrev Dict (κ α : Type) := AList fun _ : κ => α

namespace Dict

variable {κ α : Type} {d e : Dict κ α} {k : κ} {v : α}

/-- `d.popitem()` takes the newest entry out. -/
def popitem (d : Dict κ α) : Option (κ × α × Dict κ α) :=
  match d with
  | ⟨[], _⟩ => none
  | ⟨⟨k, v⟩ :: rest, h⟩ => some (k, v, ⟨rest, (List.nodup_cons.mp h).2⟩)

theorem popitem_some (h : popitem d = some (k, v, e)) : d.entries = ⟨k, v⟩ :: e.entries := by
  obtain ⟨entries, hn⟩ := d
  cases entries with
  | nil => cases h
  | cons e rest =>
    cases h
    rfl

theorem popitem_none (h : popitem d = none) : d = ∅ := by
  obtain ⟨entries, hn⟩ := d
  cases entries with
  | nil => rfl
  | cons e rest => cases h

variable [DecidableEq κ]

/-- `d[k] = v`: a new key becomes the newest entry, an old one keeps its place. -/
def setItem (d : Dict κ α) (k : κ) (v : α) : Dict κ α :=
  if k ∈ d then AList.replace k v d else AList.insert k v d

/-- `d.pop(k)`, when `k` is a key. -/
def pop (d : Dict κ α) (k : κ) : Option (α × Dict κ α) :=
  match AList.lookup k d with
  | some v => some (v, AList.erase k d)
  | none => none

theorem entries_setItem (h : k ∉ d.keys) (v : α) : (setItem d k v).entries = ⟨k, v⟩ :: d.entries := by
  rw [setItem, if_neg (show k ∉ d from h)]
  exact AList.entries_insert_of_notMem h

theorem mem_kreplace {entries : List (Sigma fun _ : κ => α)} {x : Sigma fun _ : κ => α}
    (h : x ∈ List.kreplace k v entries) : x = ⟨k, v⟩ ∨ x ∈ entries := by
  induction entries with
  | nil => cases h
  | cons e entries ih =>
    rw [List.kreplace, List.lookmap_cons] at h
    split at h
    case h_1 =>
      rcases List.mem_cons.mp h with rfl | h
      · exact .inr List.mem_cons_self
      · exact (ih h).imp_right (List.mem_cons_of_mem _)
    case h_2 b hb =>
      split_ifs at hb
      cases hb
      exact (List.mem_cons.mp h).imp_right (List.mem_cons_of_mem _)

/-- An entry of the dictionary after the assignment is the new one or an old one. -/
theorem mem_entries_setItem {x : Sigma fun _ : κ => α} (h : x ∈ (setItem d k v).entries) :
    x = ⟨k, v⟩ ∨ x ∈ d.entries := by
  unfold setItem at h
  split_ifs at h with hk
  · exact mem_kreplace h
  · rw [AList.entries_insert_of_notMem hk] at h
    exact List.mem_cons.mp h

theorem lookup_setItem_some {j : κ} {w : α} (h : (setItem d k v).lookup j = some w) :
    j = k ∧ w = v ∨ d.lookup j = some w := by
  rcases mem_entries_setItem (AList.mem_lookup_iff.mp h) with heq | hmem
  · cases heq
    exact .inl ⟨rfl, rfl⟩
  · exact .inr (AList.mem_lookup_iff.mpr hmem)

theorem dlookup_kreplace (entries : List (Sigma fun _ : κ => α)) (k j : κ) (v : α) :
    List.dlookup j (List.kreplace k v entries) =
      if j = k then (List.dlookup j entries).map fun _ => v else List.dlookup j entries := by
  induction entries with
  | nil => simp [List.kreplace]
  | cons e entries ih =>
    obtain ⟨i, w⟩ := e
    rw [List.kreplace, List.lookmap_cons]
    by_cases hi : k = i
    · subst hi
      by_cases hj : j = k
      · subst hj
        simp
      · have hne : j ≠ (⟨k, w⟩ : Sigma fun _ : κ => α).1 := hj
        have hne' : j ≠ (⟨k, v⟩ : Sigma fun _ : κ => α).1 := hj
        simp [hj, List.dlookup_cons_ne _ _ hne, List.dlookup_cons_ne _ _ hne']
    · have htail : List.lookmap (fun s => if k = s.1 then some (⟨k, v⟩ : Sigma fun _ : κ => α)
          else none) entries = List.kreplace k v entries := rfl
      by_cases hj : j = i
      · subst hj
        simp [hi, Ne.symm hi]
      · have hne : j ≠ (⟨i, w⟩ : Sigma fun _ : κ => α).1 := hj
        simp only [hi, if_false, htail, List.dlookup_cons_ne _ _ hne]
        exact ih

theorem lookup_replace (d : Dict κ α) (k j : κ) (v : α) :
    (AList.replace k v d).lookup j = if j = k then (d.lookup j).map fun _ => v else d.lookup j :=
  dlookup_kreplace d.entries k j v

@[simp] theorem lookup_setItem (d : Dict κ α) (k j : κ) (v : α) :
    (setItem d k v).lookup j = if j = k then some v else d.lookup j := by
  unfold setItem
  by_cases hj : j = k
  · subst hj
    rw [if_pos rfl]
    split_ifs with hk
    · obtain ⟨w, hw⟩ := Option.isSome_iff_exists.mp (AList.lookup_isSome.mpr hk)
      rw [lookup_replace, if_pos rfl, hw]
      rfl
    · exact AList.lookup_insert d
  · rw [if_neg hj]
    split_ifs with hk
    · rw [lookup_replace, if_neg hj]
    · exact AList.lookup_insert_ne hj

@[simp] theorem lookup_singleton (k : κ) (v : α) :
    (AList.singleton k v : Dict κ α).lookup k = some v := by
  apply AList.mem_lookup_iff.mpr
  exact List.mem_singleton_self _

theorem keys_setItem_subperm (d : Dict κ α) (k : κ) (v : α) :
    (setItem d k v).keys.Subperm (k :: d.keys) := by
  unfold setItem
  split_ifs with hk
  · rw [AList.keys_replace]
    exact (List.sublist_cons_self _ _).subperm
  · rw [AList.keys, AList.entries_insert_of_notMem hk]
    exact List.Subperm.refl _

/-- What a key looked up after an insertion was before it. -/
theorem lookup_insert_some {j : κ} {w : α} (h : (AList.insert k v d).lookup j = some w) :
    j = k ∧ w = v ∨ j ≠ k ∧ d.lookup j = some w := by
  by_cases hjk : j = k
  · subst hjk
    rw [AList.lookup_insert] at h
    cases h
    exact .inl ⟨rfl, rfl⟩
  · rw [AList.lookup_insert_ne hjk] at h
    exact .inr ⟨hjk, h⟩

theorem lookup_erase_some {j : κ} {w : α} (h : (AList.erase k d).lookup j = some w) :
    j ≠ k ∧ d.lookup j = some w := by
  by_cases hjk : j = k
  · subst hjk
    rw [AList.lookup_erase] at h
    cases h
  · rw [AList.lookup_erase_ne hjk] at h
    exact ⟨hjk, h⟩

theorem mem_iff_lookup : k ∈ d ↔ ∃ w, d.lookup k = some w := by
  rw [← AList.lookup_isSome, Option.isSome_iff_exists]

theorem pop_eq_some : pop d k = some (v, e) ↔ d.lookup k = some v ∧ AList.erase k d = e := by
  unfold pop
  cases d.lookup k <;> simp

theorem pop_eq_none : pop d k = none ↔ d.lookup k = none := by
  unfold pop
  cases d.lookup k <;> simp

theorem pop_some (h : pop d k = some (v, e)) : d.entries.Perm (⟨k, v⟩ :: e.entries) := by
  unfold pop at h
  split at h
  case h_2 => cases h
  case h_1 w hw =>
    cases h
    have hk : k ∈ d.keys := AList.lookup_isSome.mp (by rw [hw]; rfl)
    obtain ⟨u, before, after, hbefore, hsplit, hrest⟩ := List.exists_of_kerase hk
    have hmem : (⟨k, u⟩ : Sigma fun _ : κ => α) ∈ d.entries := by
      rw [hsplit]
      simp
    have hu : u = v := by
      have := (List.mem_dlookup_iff d.nodupKeys).mpr hmem
      rw [show List.dlookup k d.entries = some v from hw] at this
      exact (Option.mem_some_iff.mp this).symm
    change d.entries.Perm (⟨k, v⟩ :: List.kerase k d.entries)
    rw [hrest, hsplit, hu]
    exact List.perm_middle

/-- An assignment to a key that is there changes its entry only. -/
theorem entries_setItem_perm {w : α} (h : d.lookup k = some w) (v : α) :
    (setItem d k v).entries.Perm (⟨k, v⟩ :: (AList.erase k d).entries) := by
  have hk : k ∈ d := mem_iff_lookup.mpr ⟨w, h⟩
  have hperm : d.entries.Perm (⟨k, w⟩ :: (AList.erase k d).entries) :=
    pop_some (pop_eq_some.mpr ⟨h, rfl⟩)
  rw [setItem, if_pos hk]
  refine (List.Perm.kreplace d.nodupKeys hperm).trans (List.Perm.of_eq ?_)
  rw [List.kreplace, List.lookmap_cons]
  simp

theorem pop_none (h : pop d k = none) : k ∉ d.keys := by
  unfold pop at h
  split at h
  case h_1 => cases h
  case h_2 hw => exact AList.lookup_eq_none.mp hw

end Dict

end GpuSharing
