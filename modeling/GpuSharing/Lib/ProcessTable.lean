import Mathlib.Data.List.Nodup

namespace GpuSharing.ProcessTable

/-- A process: whose it is passes on to what it starts, and `data` is what else there is of it. -/
structure Process (ι δ : Type) where
  pid : Nat
  parent : Nat
  owner : Option ι
  data : δ
  deriving DecidableEq, Repr

/-- The processes that run. Parents run, and `init` belongs to nobody. -/
structure Table (ι δ : Type) (init : Nat) where
  processes : List (Process ι δ)
  nodup : (processes.map (·.pid)).Nodup
  parented : ∀ c ∈ processes, ∃ p ∈ processes, p.pid = c.parent
  inherits : ∀ p ∈ processes, ∀ c ∈ processes, c.parent = p.pid → p.owner ≠ none → c.owner = p.owner
  initRuns : ∃ p ∈ processes, p.pid = init ∧ p.owner = none

variable {ι δ : Type} {init : Nat}

namespace Table

def pids (t : Table ι δ init) : List Nat := t.processes.map (·.pid)

def children (t : Table ι δ init) (pid : Nat) : List Nat :=
  (t.processes.filter (·.parent = pid)).map (·.pid)

/-- Every process with the pid, of which there is one at most, belongs to the owner. -/
def Own (t : Table ι δ init) (owner : ι) (pid : Nat) : Prop :=
  ∀ p ∈ t.processes, p.pid = pid → p.owner = some owner

instance decidableOwn [DecidableEq ι] (t : Table ι δ init) (owner : ι) (pid : Nat) :
    Decidable (t.Own owner pid) :=
  inferInstanceAs (Decidable (∀ p ∈ t.processes, p.pid = pid → p.owner = some owner))

theorem eq_of_pid (t : Table ι δ init) {p q : Process ι δ} (hp : p ∈ t.processes)
    (hq : q ∈ t.processes) (h : p.pid = q.pid) : p = q :=
  List.inj_on_of_nodup_map t.nodup hp hq h

/-- A process that is started by one that runs. -/
def create (t : Table ι δ init) (c : Process ι δ) (hfresh : c.pid ∉ t.pids)
    (hparent : ∃ p ∈ t.processes, p.pid = c.parent ∧ (p.owner ≠ none → c.owner = p.owner)) :
    Table ι δ init where
  processes := t.processes ++ [c]
  nodup := by
    rw [List.map_append, List.map_singleton]
    exact List.nodup_append_comm.mp (List.nodup_cons.mpr ⟨hfresh, t.nodup⟩)
  parented := by
    intro c' hc'
    rcases List.mem_append.mp hc' with hc' | hc'
    · obtain ⟨p, hp, hpid⟩ := t.parented c' hc'
      exact ⟨p, List.mem_append_left _ hp, hpid⟩
    · obtain ⟨p, hp, hpid, -⟩ := hparent
      rw [List.mem_singleton.mp hc']
      exact ⟨p, List.mem_append_left _ hp, hpid⟩
  inherits := by
    intro p hp c' hc' hpid howner
    obtain ⟨q, hq, hqpid, hqowner⟩ := hparent
    have hnew : ∀ c' ∈ t.processes ++ [c], c'.parent ≠ c.pid := by
      intro c' hc' heq
      rcases List.mem_append.mp hc' with hc' | hc'
      · obtain ⟨p', hp', hpid'⟩ := t.parented c' hc'
        exact hfresh (List.mem_map.mpr ⟨p', hp', hpid'.trans heq⟩)
      · rw [List.mem_singleton.mp hc'] at heq
        exact hfresh (List.mem_map.mpr ⟨q, hq, hqpid.trans heq⟩)
    rcases List.mem_append.mp hp with hp | hp
    · rcases List.mem_append.mp hc' with hc' | hc'
      · exact t.inherits p hp c' hc' hpid howner
      · rw [List.mem_singleton.mp hc'] at hpid ⊢
        rw [t.eq_of_pid hp hq (hpid.symm.trans hqpid.symm)] at howner ⊢
        exact hqowner howner
    · rw [List.mem_singleton.mp hp] at hpid
      exact absurd hpid (hnew c' hc')
  initRuns := by
    obtain ⟨p, hp, hinit⟩ := t.initRuns
    exact ⟨p, List.mem_append_left _ hp, hinit⟩

/-- What becomes of a process when another one ends. -/
def orphan (init pid : Nat) (p : Process ι δ) : Process ι δ :=
  if p.parent = pid then { p with parent := init } else p

@[simp] theorem orphan_pid (pid : Nat) (p : Process ι δ) : (orphan init pid p).pid = p.pid := by
  unfold orphan
  split <;> rfl

@[simp] theorem orphan_owner (pid : Nat) (p : Process ι δ) :
    (orphan init pid p).owner = p.owner := by
  unfold orphan
  split <;> rfl

@[simp] theorem orphan_data (pid : Nat) (p : Process ι δ) : (orphan init pid p).data = p.data := by
  unfold orphan
  split <;> rfl

/-- A process ends, and `init` becomes the parent of its children. -/
def remove (t : Table ι δ init) (pid : Nat) (hpid : pid ≠ init) : Table ι δ init where
  processes := (t.processes.filter (·.pid ≠ pid)).map (orphan init pid)
  nodup := by
    rw [List.map_map]
    have hsame : (·.pid) ∘ orphan init pid = (fun p : Process ι δ => p.pid) := by
      funext p
      exact orphan_pid pid p
    rw [hsame]
    exact (List.filter_sublist.map _).nodup t.nodup
  parented := by
    intro c' hc'
    obtain ⟨c, hc, rfl⟩ := List.mem_map.mp hc'
    obtain ⟨q, hq, hqinit, -⟩ := t.initRuns
    have hkeep : ∀ p ∈ t.processes, p.pid ≠ pid →
        orphan init pid p ∈ (t.processes.filter (·.pid ≠ pid)).map (orphan init pid) :=
      fun p hp hne => List.mem_map_of_mem (List.mem_filter.mpr ⟨hp, by simpa using hne⟩)
    by_cases hparent : c.parent = pid
    · refine ⟨orphan init pid q, hkeep q hq (fun heq => hpid (heq ▸ hqinit)), ?_⟩
      rw [orphan_pid, hqinit, orphan, if_pos hparent]
    · obtain ⟨p, hp, hppid⟩ := t.parented c (List.mem_of_mem_filter hc)
      refine ⟨orphan init pid p, hkeep p hp (fun heq => hparent (hppid.symm.trans heq)), ?_⟩
      rw [orphan_pid, hppid, orphan, if_neg hparent]
  inherits := by
    intro p' hp' c' hc' hparent howner
    obtain ⟨p, hp, rfl⟩ := List.mem_map.mp hp'
    obtain ⟨c, hc, rfl⟩ := List.mem_map.mp hc'
    rw [orphan_owner] at howner ⊢
    rw [orphan_owner]
    rw [orphan_pid] at hparent
    obtain ⟨q, hq, hqinit, hqowner⟩ := t.initRuns
    rw [orphan] at hparent
    split_ifs at hparent with hpar
    · have heq := t.eq_of_pid (List.mem_of_mem_filter hp) hq (hparent.symm.trans hqinit.symm)
      rw [heq, hqowner] at howner
      exact absurd rfl howner
    · exact t.inherits p (List.mem_of_mem_filter hp) c (List.mem_of_mem_filter hc) hparent howner
  initRuns := by
    obtain ⟨q, hq, hqinit, hqowner⟩ := t.initRuns
    refine ⟨orphan init pid q, List.mem_map_of_mem (List.mem_filter.mpr ⟨hq, ?_⟩), ?_, ?_⟩
    · rw [hqinit]
      simpa using hpid.symm
    · rw [orphan_pid, hqinit]
    · rw [orphan_owner, hqowner]

/-- What there is of a process changes. -/
def setData (t : Table ι δ init) (f : Process ι δ → δ) : Table ι δ init where
  processes := t.processes.map fun p => { p with data := f p }
  nodup := by
    rw [List.map_map]
    exact t.nodup
  parented := by
    intro c' hc'
    obtain ⟨c, hc, rfl⟩ := List.mem_map.mp hc'
    obtain ⟨p, hp, hpid⟩ := t.parented c hc
    exact ⟨_, List.mem_map_of_mem hp, hpid⟩
  inherits := by
    intro p' hp' c' hc' hparent howner
    obtain ⟨p, hp, rfl⟩ := List.mem_map.mp hp'
    obtain ⟨c, hc, rfl⟩ := List.mem_map.mp hc'
    exact t.inherits p hp c hc hparent howner
  initRuns := by
    obtain ⟨p, hp, hinit⟩ := t.initRuns
    exact ⟨_, List.mem_map_of_mem hp, hinit⟩

variable {t : Table ι δ init} {owner : ι} {pid : Nat}

/-- What a process has started belongs to its owner. -/
theorem Own.children (h : t.Own owner pid) {child : Nat} (hchild : child ∈ t.children pid) :
    t.Own owner child := by
  intro c hc hpid
  obtain ⟨c', hc', rfl⟩ := List.mem_map.mp hchild
  obtain ⟨hmem, hparent⟩ := List.mem_filter.mp hc'
  obtain rfl := t.eq_of_pid hc hmem hpid
  obtain ⟨p, hp, hppid⟩ := t.parented c hc
  have howner := h p hp (hppid.trans (of_decide_eq_true hparent))
  rw [t.inherits p hp c hc hppid.symm (by simp [howner]), howner]

theorem own_create_iff {c : Process ι δ} (hfresh : c.pid ∉ t.pids)
    (hparent : ∃ p ∈ t.processes, p.pid = c.parent ∧ (p.owner ≠ none → c.owner = p.owner)) :
    (t.create c hfresh hparent).Own owner pid ↔
      t.Own owner pid ∧ (c.pid = pid → c.owner = some owner) := by
  simp only [Own, create, List.mem_append, List.mem_singleton, or_imp, forall_and, forall_eq]

theorem Own.remove (h : t.Own owner pid) {ended : Nat} (hended : ended ≠ init) :
    (t.remove ended hended).Own owner pid := by
  simp only [Own]
  intro p' hp' hpid
  obtain ⟨p, hp, rfl⟩ := List.mem_map.mp hp'
  rw [orphan_pid] at hpid
  rw [orphan_owner]
  exact h p (List.mem_of_mem_filter hp) hpid

theorem own_setData_iff {f : Process ι δ → δ} : (t.setData f).Own owner pid ↔ t.Own owner pid := by
  simp [Own, setData]

end Table

end GpuSharing.ProcessTable
