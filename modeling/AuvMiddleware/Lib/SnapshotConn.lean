import Mathlib.Data.Finset.Basic

/-!
# Read snapshots of a connection

A database connection with several prepared statements, on a store that lets readers go on
while a writer commits. The first statement to become active fixes the snapshot; all
statements of the connection read it; it is dropped when no statement is active any more.
A statement that has returned a row stays active until it is reset, runs to its end or fails.
-/

namespace AuvMiddleware

structure SnapshotConn (δ ι : Type) where
  active : Finset ι
  snapshot : Option δ
  held : snapshot.isSome = true ↔ active.Nonempty

namespace SnapshotConn

variable {δ ι : Type}

def idle : SnapshotConn δ ι := ⟨∅, none, by simp⟩

def view (c : SnapshotConn δ ι) (db : δ) : δ := c.snapshot.getD db

theorem snapshot_eq_none_of_active_empty {c : SnapshotConn δ ι} (h : c.active = ∅) :
    c.snapshot = none := by
  have hn : ¬ c.snapshot.isSome = true := by
    rw [c.held, h]
    simp
  simpa using hn

theorem eq_of_active_snapshot {c d : SnapshotConn δ ι} (ha : c.active = d.active)
    (hs : c.snapshot = d.snapshot) : c = d := by
  cases c
  cases d
  cases ha
  cases hs
  rfl

variable [DecidableEq ι]

/-- Statement `i` is no longer on a row: it was reset, ran to its end, or failed. -/
def halt (c : SnapshotConn δ ι) (i : ι) : SnapshotConn δ ι where
  active := c.active.erase i
  snapshot := if (c.active.erase i).Nonempty then c.snapshot else none
  held := by
    have hsub : (c.active.erase i).Nonempty → c.active.Nonempty :=
      fun ⟨j, hj⟩ => ⟨j, Finset.mem_of_mem_erase hj⟩
    by_cases hn : (c.active.erase i).Nonempty
    · simpa only [hn, if_true, iff_true] using c.held.mpr (hsub hn)
    · simp [hn]

def onRow (c : SnapshotConn δ ι) (i : ι) (db : δ) : SnapshotConn δ ι where
  active := insert i c.active
  snapshot := some (c.view db)
  held := by simp

@[simp] theorem view_onRow (c : SnapshotConn δ ι) (i : ι) (db db' : δ) :
    (c.onRow i db).view db' = c.view db := rfl

@[simp] theorem onRow_active (c : SnapshotConn δ ι) (i : ι) (db : δ) :
    (c.onRow i db).active = insert i c.active := rfl

@[simp] theorem halt_active (c : SnapshotConn δ ι) (i : ι) :
    (c.halt i).active = c.active.erase i := rfl

theorem view_halt_of_alone {c : SnapshotConn δ ι} {i : ι} (h : c.active ⊆ {i}) (db : δ) :
    (c.halt i).view db = db := by
  have he : (c.halt i).active = ∅ := by
    rw [halt_active, Finset.erase_eq_empty_iff, ← Finset.subset_singleton_iff]
    exact h
  rw [view, snapshot_eq_none_of_active_empty he]
  rfl

theorem view_halt_of_other {c : SnapshotConn δ ι} {i j : ι} (hj : j ∈ c.active) (hij : j ≠ i)
    (db : δ) : (c.halt i).view db = c.view db := by
  have hn : (c.active.erase i).Nonempty := ⟨j, Finset.mem_erase.mpr ⟨hij, hj⟩⟩
  simp only [view, halt, hn, if_true]

theorem alone_or_other (c : SnapshotConn δ ι) (i : ι) :
    c.active ⊆ {i} ∨ ∃ j ∈ c.active, j ≠ i := by
  by_cases h : ∃ j ∈ c.active, j ≠ i
  · exact Or.inr h
  · push Not at h
    exact Or.inl fun j hj => Finset.mem_singleton.mpr (h j hj)

/-- A statement restarted now reads the committed state exactly when no other statement is
active, or when the snapshot the others hold is that state. -/
theorem view_halt_eq_iff (c : SnapshotConn δ ι) (i : ι) (db : δ) :
    (c.halt i).view db = db ↔ c.active ⊆ {i} ∨ c.view db = db := by
  rcases alone_or_other c i with h | ⟨j, hj, hij⟩
  · simp only [view_halt_of_alone h, h, true_or]
  · have hn : ¬ c.active ⊆ {i} := fun hs => hij (Finset.mem_singleton.mp (hs hj))
    simp only [view_halt_of_other hj hij, hn, false_or]

theorem view_restart (c : SnapshotConn δ ι) (i : ι) (db : δ) :
    (((c.halt i).onRow i db).halt i).view db = (c.halt i).view db := by
  rcases alone_or_other c i with h | ⟨j, hj, hij⟩
  · have hrow : ((c.halt i).onRow i db).active ⊆ {i} := by
      rw [onRow_active, halt_active]
      exact Finset.insert_subset (Finset.mem_singleton_self i) ((Finset.erase_subset _ _).trans h)
    rw [view_halt_of_alone hrow, view_halt_of_alone h]
  · have hrow : j ∈ ((c.halt i).onRow i db).active := by
      rw [onRow_active, halt_active]
      exact Finset.mem_insert_of_mem (Finset.mem_erase.mpr ⟨hij, hj⟩)
    rw [view_halt_of_other hrow hij, view_onRow]

theorem view_halt_onRow {i j : ι} (c : SnapshotConn δ ι) (hij : i ≠ j) (db : δ) :
    ((c.onRow i db).halt j).view db = c.view db := by
  have hi : i ∈ (c.onRow i db).active := Finset.mem_insert_self i _
  rw [view_halt_of_other hi hij, view_onRow]

theorem halt_onRow_self (c : SnapshotConn δ ι) (i : ι) (db : δ) :
    (c.onRow i db).halt i = c.halt i := by
  have ha : (insert i c.active).erase i = c.active.erase i := by
    ext j
    simp only [Finset.mem_erase, Finset.mem_insert]
    constructor
    · rintro ⟨hne, hj⟩
      exact ⟨hne, hj.resolve_left hne⟩
    · rintro ⟨hne, hj⟩
      exact ⟨hne, .inr hj⟩
  refine eq_of_active_snapshot ha ?_
  show (if ((insert i c.active).erase i).Nonempty then some (c.view db) else none) =
    if (c.active.erase i).Nonempty then c.snapshot else none
  rw [ha]
  split
  · case isTrue hn =>
      obtain ⟨j, hj⟩ := hn
      have hsome := c.held.mpr ⟨j, Finset.mem_of_mem_erase hj⟩
      obtain ⟨d, hd⟩ := Option.isSome_iff_exists.mp hsome
      rw [view, hd]
      rfl
  · rfl

theorem halt_halt (c : SnapshotConn δ ι) (i : ι) : (c.halt i).halt i = c.halt i := by
  have ha : (c.active.erase i).erase i = c.active.erase i :=
    Finset.erase_eq_of_notMem (Finset.notMem_erase i _)
  refine eq_of_active_snapshot ha ?_
  show (if ((c.active.erase i).erase i).Nonempty then
    (if (c.active.erase i).Nonempty then c.snapshot else none) else none) = _
  rw [ha]
  show _ = if (c.active.erase i).Nonempty then c.snapshot else none
  split <;> rfl

/-- As long as another statement stays on a row, the snapshot stays. -/
theorem snapshot_halt_of_other {c : SnapshotConn δ ι} {i j : ι} (hj : j ∈ c.active) (hij : j ≠ i) :
    (c.halt i).snapshot = c.snapshot := by
  have hn : (c.active.erase i).Nonempty := ⟨j, Finset.mem_erase.mpr ⟨hij, hj⟩⟩
  simp only [halt, hn, if_true]

end SnapshotConn
end AuvMiddleware
