import PsMsgr.Still.Turns

namespace PsMsgr

open Effect

/-- At most one process is in its critical section, the lock path then names the inode
which it has locked, and whoever has the channel open for writing is in its critical
section. -/
theorem mutual_exclusion (execution : Execution) (index : Nat) :
    (∀ {thread other}, (execution.world index).crit thread ≠ none →
      (execution.world index).crit other ≠ none → thread = other) ∧
    (∀ {thread fd}, (execution.world index).crit thread = some fd →
      ∃ ino, (execution.world index).fds fd = some ⟨thread, ino, true⟩ ∧
        (execution.world index).lock = some ino) ∧
    (∀ {thread w}, (execution.systems index).threads thread = .idle (Handle.writer w) →
      (execution.world index).crit thread = some w.lockFd) := by
  have inv := execution.inv index
  exact ⟨inv.exclusive, inv.held, fun idle => Inside.crit (execution.owns idle)⟩

/-- The data path names nothing, or a complete file that readers and writers accept and
that is not retired. -/
theorem data_path_valid (execution : Execution) (index : Nat) (file : FileId)
    (named : (execution.world index).disk.data = some file) :
    ((execution.world index).disk.files file).regular = true ∧
    headerValid (Header.ofMemory ((execution.world index).disk.memory file))
      ((execution.world index).disk.files file).size = true ∧
    psmiLatestValid (((execution.world index).disk.memory file).word32 Offset.latest)
      (Header.ofMemory ((execution.world index).disk.memory file)).slotCount = true ∧
    ¬ (execution.world index).disk.Retired file := by
  have inv := (execution.inv index).disk
  obtain ⟨here, active, -⟩ := inv.data named
  obtain ⟨g, valid⟩ := inv.valid here
  refine ⟨valid.regular, valid.header, ?_, active⟩
  have shape : (Header.ofMemory ((execution.world index).disk.memory file)).slotCount =
      g.slotCount := valid.shape.slotCount
  rw [shape]
  exact valid.latest.1

/-- It does name one once a process has opened the channel for writing. -/
theorem data_path_valid_opened : ∃ (execution : Execution) (index : Nat) (file : FileId),
    (execution.world index).disk.data = some file ∧
    ¬ (execution.world index).disk.Retired file := by
  obtain ⟨w, after, opens, fitted, -⟩ := steps_opened
  obtain ⟨execution, index, reached⟩ := Execution.reaching opens
  have named : (execution.world index).disk.data = some w.file := by
    rw [Execution.world, reached]
    exact fitted.data
  exact ⟨execution, index, w.file, named, (data_path_valid execution index w.file named).2.2.2⟩

end PsMsgr
