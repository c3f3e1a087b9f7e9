import PsMsgr.Channel.Tracing
import PsMsgr.State.Managing

namespace PsMsgr

open Effect

namespace Execution

variable {execution : Execution} {thread : Tid} {first last : Nat} {turns : Nat}
  {environment name dir : Option (List Char)}

/-- The lock was asked for, and this is what came of it. -/
structure Locks (execution : Execution) (thread : Tid) (mode : UInt32) (turns first last : Nat)
    (locked : Except Code Fd) (start held : Nat) : Prop where
  lower : first ≤ start
  upper : held ≤ last
  outside : Outside thread (execution.world start)
  executes : execution.Executes thread (lockChannel mode turns) start locked held

/-- The data file was opened for a writer under the lock. -/
structure OpensData (execution : Execution) (thread : Tid) (build : Build) (o : Options)
    (lockFd : Fd) (held last : Nat) (result : Except Code Writer) (index : Nat) : Prop where
  lower : held ≤ index
  upper : index ≤ last
  opening : Opening result
  opened : OpenResult thread build o lockFd result (execution.world index)

/-- The data file was removed under the lock. -/
structure RemovesData (execution : Execution) (thread : Tid) (lockFd : Fd) (held last : Nat)
    (code : Code) (index : Nat) : Prop where
  lower : held ≤ index
  upper : index ≤ last
  unlinks : code.Unlinks
  removed : Inside thread lockFd (Cleared thread code) (execution.world index)

theorem stable_idle : channel.Stable thread
    (fun world => Outside thread world ∧ Unpublished thread world) :=
  stable_and Outside.stable Unpublished.stable

theorem starting_of_locked {locked cleaned : Nat} {p : Paths} {lockFd : Fd}
    (entered : LockResult thread (Unpublished thread) (.ok lockFd) (execution.world locked))
    (cleans : execution.Executes thread (removeStaleTmp p) locked () cleaned) :
    Inside thread lockFd (Starting thread) (execution.world cleaned) := by
  obtain ⟨entered, unpublished⟩ := entered
  have starting : Inside thread lockFd (Starting thread) (execution.world locked) :=
    ⟨entered.crit, entered.asleep, entered.fds, entered.holds, unpublished⟩
  have after := ends cleans (triple_removeStaleTmp p
    fun starting => ⟨starting.idle, starting.unpublished⟩) starting
  exact after

theorem of_writerOpen {build : Build} {opt : Option Options} {result : Except Code Writer}
    (executes : execution.Executes thread (psmsgrStateWriterOpen build environment turns name opt)
      first result last)
    (idle : Outside thread (execution.world first) ∧ Unpublished thread (execution.world first)) :
    (∃ code, result = .error code ∧ (code = .inval ∨ code = .sys)) ∨
      ∃ o locked start held, loadOptions build.abi opt = .ok o ∧
        Locks execution thread o.mode turns first last locked start held ∧
        ((∃ code, locked = .error code ∧ result = .error code) ∨
          ∃ lockFd index, locked = .ok lockFd ∧
            OpensData execution thread build o lockFd held last result index) := by
  unfold psmsgrStateWriterOpen at executes
  split at executes
  · next code failed =>
      cases executes.of_done.1
      exact .inl ⟨_, rfl, .inl (loadOptions_inval failed)⟩
  next o loaded =>
  split at executes
  · cases executes.of_done.1
    exact .inl ⟨_, rfl, .inl rfl⟩
  obtain ⟨paths, index, names, executes⟩ := executes.of_bind
  have failing := names.always (pathsInit_always _ _ _)
  replace idle := ends names (triple_pathsInit stable_idle) idle
  have before := names.ordered
  cases paths with
  | error code =>
      cases executes.of_done.1
      exact .inl ⟨_, rfl, .inr (failing _ rfl)⟩
  | ok p =>
      obtain ⟨enough, start, allocates, executes⟩ := executes.of_bind
      replace idle := ends allocates (triple_skip .malloc trivial stable_idle) idle
      have between := allocates.ordered
      split at executes
      · cases executes.of_done.1
        exact .inl ⟨_, rfl, .inr rfl⟩
      obtain ⟨locked, held, locks, executes⟩ := executes.of_bind
      have entered := ends locks (triple_lockChannel Unpublished.frame o.mode turns) idle
      have upper := executes.ordered
      refine .inr ⟨o, locked, start, held, loaded, ⟨by omega, upper, idle.1, locks⟩, ?_⟩
      cases locked with
      | error code =>
          cases executes.of_done.1
          exact .inl ⟨code, rfl, rfl⟩
      | ok lockFd =>
          obtain ⟨_, cleaned, cleans, executes⟩ := executes.of_bind
          have starting := starting_of_locked entered cleans
          obtain ⟨opened, finish, opens, executes⟩ := executes.of_bind
          have known := ends opens (triple_openData (loadOptions_valid loaded)) starting
          have opening := opens.always (openData_manages _ _ _)
          have cleaning := cleans.ordered
          have later := opens.ordered
          have upper := executes.ordered
          have lower : held ≤ finish := by omega
          refine .inr ⟨lockFd, finish, rfl, ?_⟩
          cases opened with
          | error code =>
              obtain ⟨_, _, -, executes⟩ := executes.of_bind
              cases executes.of_done.1
              exact ⟨lower, upper, opening, known⟩
          | ok w =>
              obtain ⟨_, _, -, executes⟩ := executes.of_bind
              obtain ⟨_, _, -, executes⟩ := executes.of_bind
              cases executes.of_done.1
              exact ⟨lower, upper, opening, known⟩

theorem of_unlink {code : Code}
    (executes : execution.Executes thread (psmsgrStateUnlink environment turns name dir) first
      code last)
    (idle : Outside thread (execution.world first) ∧ Unpublished thread (execution.world first)) :
    (code = .inval ∨ code = .sys) ∨
      ∃ locked start held, Locks execution thread 0o600 turns first last locked start held ∧
        (locked = .error code ∨ ∃ lockFd rc index, locked = .ok lockFd ∧
          RemovesData execution thread lockFd held last rc index ∧ (code = rc ∨ code = .sys)) := by
  unfold psmsgrStateUnlink at executes
  split at executes
  · cases executes.of_done.1
    exact .inl (.inl rfl)
  obtain ⟨paths, start, names, executes⟩ := executes.of_bind
  have failing := names.always (pathsInit_always _ _ _)
  replace idle := ends names (triple_pathsInit stable_idle) idle
  have lower := names.ordered
  cases paths with
  | error code =>
      cases executes.of_done.1
      exact .inl (.inr (failing _ rfl))
  | ok p =>
      obtain ⟨locked, held, locks, executes⟩ := executes.of_bind
      have entered := ends locks (triple_lockChannel Unpublished.frame 0o600 turns) idle
      have upper := executes.ordered
      refine .inr ⟨locked, start, held, ⟨lower, upper, idle.1, locks⟩, ?_⟩
      cases locked with
      | error code =>
          cases executes.of_done.1
          exact .inl rfl
      | ok lockFd =>
          obtain ⟨_, cleaned, cleans, executes⟩ := executes.of_bind
          have starting := starting_of_locked entered cleans
          obtain ⟨rc, finish, removes, executes⟩ := executes.of_bind
          have known := ends removes triple_unlinkDataFile starting
          have unlinks := removes.always unlinkDataFile_manages
          have cleaning := cleans.ordered
          have later := removes.ordered
          have upper := executes.ordered
          refine .inr ⟨lockFd, rc, finish, rfl, ⟨by omega, upper, unlinks, known⟩, ?_⟩
          have closed {rc : Code} {start : Nat}
              (executes : execution.Executes thread (do
                call (.closeLock lockFd)
                return rc) start code last) : code = rc := by
            obtain ⟨_, _, -, executes⟩ := executes.of_bind
            exact executes.of_done.1
          split at executes
          · obtain ⟨reply, _, -, executes⟩ := executes.of_bind
            split at executes
            · exact .inl (closed executes)
            · exact .inl (closed executes)
            · exact .inr (closed executes)
          · exact .inl (closed executes)

end Execution

end PsMsgr
