import GpuSharing.Lib.Dict

namespace GpuSharing.InvertedIndex

variable {κ ι : Type} [DecidableEq κ] {index : Dict κ (List ι)} {has has' : κ → ι → Prop} {k l : κ}
  {i j : ι}

/-- The ids under a key. -/
def ids (index : Dict κ (List ι)) (k : κ) : List ι := (index.lookup k).getD []

/-- The index holds the ids that have each key, once each and in sets that are not empty. -/
structure Indexes (index : Dict κ (List ι)) (has : κ → ι → Prop) : Prop where
  mem : ∀ k i, i ∈ ids index k ↔ has k i
  nonempty : ∀ k found, index.lookup k = some found → found ≠ []
  nodup : ∀ k found, index.lookup k = some found → found.Nodup

theorem ids_of_lookup {found : List ι} (h : index.lookup k = some found) : ids index k = found := by
  rw [ids, h, Option.getD_some]

theorem Indexes.nodup_ids (h : Indexes index has) (k : κ) : (ids index k).Nodup := by
  unfold ids
  cases hfound : index.lookup k with
  | none => exact List.nodup_nil
  | some found => exact h.nodup k found hfound

theorem Indexes.congr (h : Indexes index has) (hiff : ∀ k i, has k i ↔ has' k i) :
    Indexes index has' :=
  ⟨fun k i => (h.mem k i).trans (hiff k i), h.nonempty, h.nodup⟩

theorem Indexes.ids_ne_nil (h : Indexes index has) : ids index k ≠ [] ↔ ∃ i, has k i := by
  constructor
  · intro hne
    obtain ⟨i, hi⟩ := List.exists_mem_of_ne_nil _ hne
    exact ⟨i, (h.mem k i).mp hi⟩
  · rintro ⟨i, hi⟩
    exact List.ne_nil_of_mem ((h.mem k i).mpr hi)

/-- The listed keys are the ones that something has. -/
theorem Indexes.mem_keys (h : Indexes index has) : k ∈ index.keys ↔ ∃ i, has k i := by
  rw [← h.ids_ne_nil, ← AList.mem_keys, ← AList.lookup_isSome, ids]
  cases hfound : index.lookup k with
  | none => simp
  | some found => simpa using h.nonempty k found hfound

theorem indexes_empty (hnone : ∀ k i, ¬ has k i) : Indexes (∅ : Dict κ (List ι)) has :=
  ⟨fun k i => ⟨fun h => (nomatch h), fun h => absurd h (hnone k i)⟩, fun _ _ h => (nomatch h),
    fun _ _ h => (nomatch h)⟩

variable [DecidableEq ι]

/-- Put an id under a key, with a new set when there is none. -/
def add (index : Dict κ (List ι)) (k : κ) (i : ι) : Dict κ (List ι) :=
  Dict.setItem index k (if i ∈ ids index k then ids index k else ids index k ++ [i])

/-- Take an id from under a key, with its set when that has become empty. -/
def remove (index : Dict κ (List ι)) (k : κ) (i : ι) : Dict κ (List ι) :=
  match index.lookup k with
  | none => index
  | some found =>
    if found.erase i = [] then AList.erase k index else Dict.setItem index k (found.erase i)

theorem mem_ids_add : j ∈ ids (add index k i) l ↔ j ∈ ids index l ∨ l = k ∧ j = i := by
  rw [add, ids, Dict.lookup_setItem]
  by_cases hl : l = k
  · subst hl
    rw [if_pos rfl, Option.getD_some]
    split_ifs with hi
    · constructor
      · exact .inl
      · rintro (hj | ⟨-, rfl⟩)
        · exact hj
        · exact hi
    · simp
  · rw [if_neg hl]
    exact (or_iff_left fun h => hl h.1).symm

/-- Putting an id under a key adds just that. -/
theorem Indexes.add (h : Indexes index has) (k : κ) (i : ι) :
    Indexes (add index k i) fun l j => has l j ∨ l = k ∧ j = i := by
  refine ⟨fun l j => ?_, fun l found hl => ?_, fun l found hl => ?_⟩
  · rw [mem_ids_add, h.mem]
  · have hmem : i ∈ ids (InvertedIndex.add index k i) k := mem_ids_add.mpr (.inr ⟨rfl, rfl⟩)
    by_cases hlk : l = k
    · subst hlk
      rw [ids_of_lookup hl] at hmem
      exact List.ne_nil_of_mem hmem
    · rw [InvertedIndex.add, Dict.lookup_setItem, if_neg hlk] at hl
      exact h.nonempty l found hl
  · rw [InvertedIndex.add, Dict.lookup_setItem] at hl
    split_ifs at hl with hlk hi
    · cases hl
      exact h.nodup_ids k
    · cases hl
      rw [← List.concat_eq_append]
      exact (h.nodup_ids k).concat hi
    · exact h.nodup l found hl

theorem lookup_remove_of_ne (h : l ≠ k) : (remove index k i).lookup l = index.lookup l := by
  unfold remove
  split
  · rfl
  · split_ifs
    · exact AList.lookup_erase_ne h
    · rw [Dict.lookup_setItem, if_neg h]

theorem ids_remove_self : ids (remove index k i) k = (ids index k).erase i := by
  unfold remove
  split
  case h_1 hnone => simp [ids, hnone]
  case h_2 found hfound =>
    rw [ids_of_lookup hfound]
    split_ifs with hempty
    · rw [ids, AList.lookup_erase, Option.getD_none, hempty]
    · rw [ids, Dict.lookup_setItem, if_pos rfl, Option.getD_some]

/-- Taking an id from under a key takes just that. -/
theorem Indexes.remove (h : Indexes index has) (k : κ) (i : ι) :
    Indexes (remove index k i) fun l j => has l j ∧ ¬(l = k ∧ j = i) := by
  refine ⟨fun l j => ?_, fun l found hl => ?_, fun l found hl => ?_⟩
  · rw [← h.mem]
    by_cases hlk : l = k
    · subst hlk
      rw [ids_remove_self, (h.nodup_ids l).mem_erase_iff]
      tauto
    · rw [ids, lookup_remove_of_ne hlk, ← ids]
      tauto
  · by_cases hlk : l = k
    · subst hlk
      unfold InvertedIndex.remove at hl
      split at hl
      case h_1 hnone =>
        rw [hnone] at hl
        cases hl
      case h_2 =>
        split_ifs at hl with hempty
        · rw [AList.lookup_erase] at hl
          cases hl
        · rw [Dict.lookup_setItem, if_pos rfl] at hl
          cases hl
          exact hempty
    · rw [lookup_remove_of_ne hlk] at hl
      exact h.nonempty l found hl
  · by_cases hlk : l = k
    · subst hlk
      rw [← ids_of_lookup hl, ids_remove_self]
      exact (h.nodup_ids l).erase i
    · rw [lookup_remove_of_ne hlk] at hl
      exact h.nodup l found hl

end GpuSharing.InvertedIndex
