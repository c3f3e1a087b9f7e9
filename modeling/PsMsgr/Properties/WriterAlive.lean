import PsMsgr.Effect.Tracing
import PsMsgr.Channel.Requests

namespace PsMsgr

open Effect

/-- The call has nothing to do with the lock file. -/
def Sys.Lockless : Sys → Prop
  | .openLockNew | .openLock | .setLock _ | .lstatLock | .unlinkLock | .closeLock _ => False
  | _ => True

/-- The call locks nothing; it may open the lock file and close it. -/
def Sys.Tame : Sys → Prop
  | .openLock | .closeLock _ => True
  | request => request.Lockless

section Calls

variable {thread : Tid} {request : Sys} {reply : request.Reply} {before after : World}

theorem exec_lockless (executed : exec thread request before reply after)
    (lockless : request.Lockless) :
    after.lock = before.lock ∧ after.fds = before.fds ∧ after.crit = before.crit := by
  cases request
  case clock which => cases which <;> grind [exec]
  all_goals first
    | exact lockless.elim
    | grind [exec, Failed, World.own, World.setLog, World.setAsleep]

theorem exec_lock (executed : exec thread request before reply after) :
    after.lock = before.lock ∨ after.lock = none ∨ before.lock = none := by
  cases request with
  | openLockNew =>
      rcases executed with ⟨-, -, rfl⟩ | ⟨absent, -⟩ | ⟨-, rfl⟩
      · exact .inl rfl
      · exact .inr (.inr absent)
      · exact .inl rfl
  | unlinkLock =>
      rcases executed with ⟨-, -, rfl⟩ | ⟨-, -, rfl⟩ | ⟨-, rfl⟩
      · exact .inr (.inl rfl)
      · exact .inl rfl
      · exact .inl rfl
  | openLock =>
      rcases executed with ⟨-, -, rfl⟩ | ⟨_, _, -, -, -, rfl⟩ | ⟨-, rfl⟩ <;> exact .inl rfl
  | setLock fd =>
      rcases executed with ⟨_, -, -, -, rfl⟩ | ⟨_, _, _, -, -, -, -, -, -, rfl⟩ | ⟨-, rfl⟩ <;>
        exact .inl rfl
  | lstatLock =>
      rcases executed with ⟨-, -, rfl⟩ | ⟨_, -, -, ⟨_, -, rfl⟩ | ⟨-, rfl⟩⟩ | ⟨-, rfl⟩ <;>
        exact .inl rfl
  | closeLock fd =>
      obtain rfl : after = _ := executed
      split <;> exact .inl rfl
  | _ => exact .inl (exec_lockless executed trivial).1

/-- Whatever the thread has locked belongs to its critical section. -/
def Bound (thread : Tid) (world : World) : Prop :=
  ∀ fd ino, world.fds fd = some ⟨thread, ino, true⟩ → world.crit thread = some fd

theorem World.fds_setFd {world : World} {fd other : Fd} {descriptor : Option Descriptor}
    {found : Descriptor} (here : (world.setFd fd descriptor).fds other = some found) :
    (other = fd ∧ descriptor = some found) ∨ (other ≠ fd ∧ world.fds other = some found) := by
  change Function.update world.fds fd descriptor other = _ at here
  by_cases same : other = fd
  · rw [same, Function.update_self] at here
    exact .inl ⟨same, here⟩
  · rw [Function.update_of_ne same] at here
    exact .inr ⟨same, here⟩

theorem exec_tame (executed : exec thread request before reply after) (tame : request.Tame) :
    (Bound thread before → Bound thread after) ∧
      (before.crit thread = none → after.crit thread = none) := by
  cases request with
  | openLock =>
      rcases executed with ⟨-, -, rfl⟩ | ⟨ino, fd, -, -, -, rfl⟩ | ⟨-, rfl⟩
      · exact ⟨id, id⟩
      · refine ⟨fun bound other named locked => ?_, id⟩
        rcases World.fds_setFd locked with ⟨-, unlocked⟩ | ⟨-, locked⟩
        · exact nomatch unlocked
        · exact bound other named locked
      · exact ⟨id, id⟩
  | closeLock fd =>
      obtain rfl : after = _ := executed
      by_cases holds : before.crit thread = some fd
      · rw [if_pos holds]
        refine ⟨fun bound other ino locked => ?_, fun outside => nomatch holds.symm.trans outside⟩
        rcases World.fds_setFd locked with ⟨-, closed⟩ | ⟨distinct, locked⟩
        · exact nomatch closed
        · exact absurd (Option.some.inj ((bound other ino locked).symm.trans holds)) distinct
      · rw [if_neg holds]
        refine ⟨fun bound other ino locked => ?_, id⟩
        rcases World.fds_setFd locked with ⟨-, closed⟩ | ⟨-, locked⟩
        · exact nomatch closed
        · exact bound other ino locked
  | openLockNew | setLock _ | lstatLock | unlinkLock => exact tame.elim
  | _ =>
      obtain ⟨-, fds, crit⟩ := exec_lockless executed trivial
      unfold Bound
      rw [fds, crit]
      exact ⟨id, id⟩

end Calls

theorem waits_tame : Waits Sys.Tame :=
  ⟨⟨trivial, trivial, fun _ _ => trivial, fun _ => trivial, fun _ => trivial,
    fun _ => ⟨trivial, fun _ _ => trivial, fun _ => trivial, fun _ => trivial, trivial⟩⟩,
    trivial, fun _ _ _ => trivial, trivial, fun _ => trivial, trivial⟩

theorem reader_tame {r : Reader} (request : Request) :
    ((Handle.reader r).program request).Always Sys.Tame (fun _ => True) :=
  reader_always waits_tame ⟨waits_tame.toSyncs, trivial, fun _ => trivial, fun _ => trivial⟩

theorem stores_lockless (file : FileId) : Stores Sys.Lockless file :=
  ⟨fun _ => trivial, fun _ _ => trivial, fun _ _ => trivial, trivial, fun _ _ => trivial, trivial⟩

theorem writer_lockless {w : Writer} (request : Request) (other : request ≠ .writerClose) :
    ((Handle.writer w).program request).Always Sys.Lockless (fun _ => True) :=
  writer_always (stores_lockless w.file) fun closes => absurd closes other

theorem writer_tame {w : Writer} (request : Request) :
    ((Handle.writer w).program request).Always Sys.Tame (fun _ => True) :=
  writer_always ⟨fun _ => trivial, fun _ _ => trivial, fun _ _ => trivial, trivial,
    fun _ _ => trivial, trivial⟩ fun _ => ⟨trivial, trivial⟩

theorem psmsgrStateReaderOpen_tame (environment name dir : Option (List Char)) :
    (psmsgrStateReaderOpen environment name dir).Always Sys.Tame (fun _ => True) := by
  unfold psmsgrStateReaderOpen
  split
  · trivial
  refine Program.Always.bind (Program.Always.perform trivial) fun _ _ => ?_
  split
  · trivial
  have paths : (pathsInit environment dir (name.getD [])).Always Sys.Tame (fun _ => True) := by
    refine Program.Always.bind (Program.Always.perform trivial) fun _ _ => ?_
    split <;> trivial
  refine paths.bind fun _ _ => ?_
  split <;> trivial

def Handle.Writes : Handle → Prop
  | .writer _ => True
  | _ => False

/-- The request locks the channel itself: it opens it for writing, or unlinks it. -/
def Request.Acquires : Request → Prop
  | .writerOpen _ _ _ _ _ | .unlink _ _ _ _ => True
  | _ => False

namespace Effect.Thread

def Writes : Thread processes → Prop
  | .idle handle | .busy handle _ _ _ => Handle.Writes handle
  | .dead => False

def Acquires : Thread processes → Prop
  | .busy _ request _ _ => Request.Acquires request
  | _ => False

def Closes : Thread processes → Prop
  | .busy _ request _ _ => request = Request.writerClose
  | _ => False

def Always (permitted : Sys → Prop) : Thread processes → Prop
  | .busy _ _ _ program => program.Always permitted (fun _ => True)
  | _ => True

end Effect.Thread

/-- The thread has a writer handle open; one that is being closed is so until its lock is
released. -/
def WriterOpen (system : System processes) (thread : Tid) : Prop :=
  (system.threads thread).Writes ∧
    ((system.threads thread).Closes → system.state.crit thread ≠ none)

/-- The thread is opening the channel for writing or unlinking it, and holds a lock of an inode
that is or was the channel's lock file. -/
def LockHeld (system : System processes) (thread : Tid) : Prop :=
  (system.threads thread).Acquires ∧
    ∃ fd ino, system.state.fds fd = some ⟨thread, ino, true⟩

/-- Except while it opens or unlinks the channel, a thread is in its critical section if and
only if it has an open writer handle, and has locked nothing else. -/
structure Guarded (thread : Tid) (status : Thread processes) (world : World) : Prop where
  bound : ¬status.Acquires → Bound thread world ∧ status.Always Sys.Tame
  inside : status.Writes → ¬status.Closes →
    world.crit thread ≠ none ∧ status.Always Sys.Lockless
  outside : ¬status.Acquires → ¬status.Writes → world.crit thread = none

theorem Handle.Owns.guarded {thread : Tid} {handle : Handle} {world : World}
    (owns : handle.Owns thread world) :
    Bound thread world ∧ (handle.Writes → world.crit thread ≠ none) ∧
      (¬handle.Writes → world.crit thread = none) := by
  have idle (outside : Outside thread world) : Bound thread world :=
    fun fd ino locked => absurd rfl (outside.fds locked)
  cases handle with
  | fresh => exact ⟨idle owns.1, False.elim, fun _ => owns.1.crit⟩
  | reader r => exact ⟨idle owns.outside, False.elim, fun _ => owns.outside.crit⟩
  | closed => exact ⟨idle owns, False.elim, fun _ => owns.crit⟩
  | writer w =>
      refine ⟨fun fd ino locked => ?_, fun _ => ?_, fun reads => absurd trivial reads⟩
      · rw [owns.fds locked rfl]
        exact owns.crit
      · rw [owns.crit]
        nofun

theorem takeUp_locks (thread : Tid) (request : Request) (world : World) :
    (takeUp thread request world).fds = world.fds ∧
      (takeUp thread request world).crit = world.crit := by
  cases request <;> exact ⟨rfl, rfl⟩

theorem program_tame {handle : Handle} {request : Request} (accepted : handle.accepts request)
    (acquires : ¬request.Acquires) :
    (handle.program request).Always Sys.Tame (fun _ => True) := by
  cases handle with
  | reader r => exact reader_tame request
  | writer w => exact writer_tame request
  | closed => cases request <;> exact accepted.elim
  | fresh =>
      cases request with
      | readerOpen environment name dir =>
          refine (psmsgrStateReaderOpen_tame environment name dir).bind fun result _ => ?_
          split <;> trivial
      | writerOpen | unlink => exact absurd trivial acquires
      | _ => exact accepted.elim

theorem guarded_keeps : outline.Keeps Guarded where
  rely := by
    intro thread status before after guarded rely
    have crit := Rely.crit rely
    refine ⟨fun acquires => ?_, fun writes closes => ?_, fun acquires reads => ?_⟩
    · obtain ⟨bound, tame⟩ := guarded.bound acquires
      refine ⟨fun fd ino locked => ?_, tame⟩
      rw [crit]
      exact bound fd ino ((Rely.fds rely fd _ rfl).mp locked)
    · rw [crit]
      exact guarded.inside writes closes
    · rw [crit]
      exact guarded.outside acquires reads
  idle := by
    intro thread handle state owns
    obtain ⟨bound, inside, outside⟩ := Handle.Owns.guarded owns
    exact ⟨fun _ => ⟨bound, trivial⟩, fun writes _ => ⟨inside writes, trivial⟩, fun _ => outside⟩
  start := by
    intro thread handle request state owns accepted
    obtain ⟨bound, inside, outside⟩ := Handle.Owns.guarded owns
    obtain ⟨fds, crit⟩ := takeUp_locks thread request state
    change Guarded thread _ (takeUp thread request state)
    refine ⟨fun acquires => ⟨?_, program_tame accepted acquires⟩, fun writes closes => ?_,
      fun _ reads => ?_⟩
    · unfold Bound
      rw [fds, crit]
      exact bound
    · rw [crit]
      refine ⟨inside writes, ?_⟩
      change Handle at handle
      cases handle with
      | writer w => exact writer_lockless request closes
      | _ => exact writes.elim
    · rw [crit]
      exact outside reads
  call := by
    intro thread handle request since made next reply before after guarded executed
    refine ⟨fun acquires => ?_, fun writes closes => ?_, fun acquires reads => ?_⟩
    · obtain ⟨bound, tame⟩ := guarded.bound acquires
      exact ⟨(exec_tame executed tame.1).1 bound, tame.2 reply⟩
    · obtain ⟨inside, lockless⟩ := guarded.inside writes closes
      refine ⟨?_, lockless.2 reply⟩
      rw [(exec_lockless executed lockless.1).2.2]
      exact inside
    · obtain ⟨-, tame⟩ := guarded.bound acquires
      exact (exec_tame executed tame.1).2 (guarded.outside acquires reads)
  dead := by
    intro thread state
    refine ⟨fun _ => ⟨fun fd ino locked => ?_, trivial⟩, False.elim,
      fun _ _ => Function.update_self _ _ _⟩
    obtain ⟨-, other⟩ := Option.filter_eq_some_iff.mp locked
    simp at other

namespace Execution

variable {execution : Execution} {thread : Tid} {index first last : Nat}

theorem guarded (execution : Execution) (index : Nat) (thread : Tid) :
    Guarded thread ((execution.systems index).threads thread) (execution.world index) :=
  sound_start.keeps guarded_keeps (fun thread => guarded_keeps.idle (sound_start.threads thread))
    execution index thread

theorem inside_of_open (opened : WriterOpen (execution.systems index) thread) :
    (execution.world index).crit thread ≠ none := by
  obtain ⟨writes, closing⟩ := opened
  by_cases closes : ((execution.systems index).threads thread).Closes
  · exact closing closes
  · exact ((execution.guarded index thread).inside writes closes).1

/-- Whoever holds a lock has a writer handle open, or is opening or unlinking the channel. -/
theorem holder_of_locked {fd : Fd} {ino : Ino}
    (locked : (execution.world index).fds fd = some ⟨thread, ino, true⟩) :
    WriterOpen (execution.systems index) thread ∨ LockHeld (execution.systems index) thread := by
  have guarded := execution.guarded index thread
  by_cases acquires : ((execution.systems index).threads thread).Acquires
  · exact .inr ⟨acquires, fd, ino, locked⟩
  · have inside := (guarded.bound acquires).1 fd ino locked
    refine .inl ⟨?_, fun _ => ?_⟩
    · by_contra reads
      exact nomatch inside.symm.trans (guarded.outside acquires reads)
    · change (execution.world index).crit thread ≠ none
      rw [inside]
      nofun

theorem not_open_of_absent (absent : (execution.world index).lock = none) :
    ¬WriterOpen (execution.systems index) thread := by
  intro opened
  obtain ⟨fd, inside⟩ := Option.ne_none_iff_exists'.mp (inside_of_open opened)
  obtain ⟨ino, -, named⟩ := (execution.inv index).held inside
  exact nomatch absent.symm.trans named

theorem lock_next (execution : Execution) (index : Nat) :
    (execution.world (index + 1)).lock = (execution.world index).lock ∨
      (execution.world (index + 1)).lock = none ∨ (execution.world index).lock = none := by
  unfold world
  rcases execution.next index with same | step
  · rw [same]
    exact .inl rfl
  generalize execution.systems index = before, execution.systems (index + 1) = after at step ⊢
  cases step with
  | start thread request idle accepted => cases request <;> exact .inl rfl
  | call thread busy executed => exact exec_lock executed
  | finish thread busy => exact .inl rfl
  | kill thread alive => exact .inl rfl

/-- If the lock path names another inode than before, there was none in between. -/
theorem absent_between {ino : Ino} (ordered : first ≤ last)
    (before : (execution.world first).lock = some ino)
    (changed : (execution.world last).lock ≠ some ino) :
    ∃ instant, first ≤ instant ∧ instant ≤ last ∧ (execution.world instant).lock = none := by
  induction ordered with
  | refl => exact absurd before changed
  | @step last ordered ih =>
      by_cases same : (execution.world last).lock = some ino
      · refine ⟨last + 1, Nat.le_succ_of_le ordered, Nat.le_refl _, ?_⟩
        rcases execution.lock_next last with kept | absent | absent
        · exact absurd (kept.trans same) changed
        · exact absent
        · exact nomatch same.symm.trans absent
      · obtain ⟨instant, lower, upper, absent⟩ := ih same
        exact ⟨instant, lower, Nat.le_succ_of_le upper, absent⟩

/-- What `writer_alive` sees: the lock path names nothing at an instant of the call; or it
names the inode `ino` at one and some other descriptor of `ino` is locked at a later one, or
none is. -/
theorem of_writerAlive {r r' : Reader} {held : Bool}
    (executes : execution.Executes thread (psmsgrStateWriterAlive r) first (.ok held, r') last) :
    (held = false ∧ ∃ instant, first ≤ instant ∧ instant ≤ last ∧
      (execution.world instant).lock = none) ∨
    ∃ opened probed fd ino, first ≤ opened ∧ opened ≤ probed ∧ probed ≤ last ∧
      (execution.world opened).lock = some ino ∧
      (execution.world probed).fds fd = some ⟨thread, ino, false⟩ ∧
      (held = true ↔ ∃ other holder, other ≠ fd ∧
        (execution.world probed).fds other = some holder ∧ holder.ino = ino ∧
        holder.locked = true) := by
  obtain ⟨⟨rc, checked⟩, start, check, executes⟩ := executes.of_bind
  have lower := check.ordered
  dsimp only at executes
  split at executes
  · exact nomatch executes.of_done.1
  obtain ⟨⟨code, synced⟩, opened, sync, executes⟩ := executes.of_bind
  have later := sync.ordered
  obtain ⟨reply, probed, opens, executes⟩ := executes.of_bind
  have passed := opens.ordered
  obtain ⟨executed, rests⟩ := opens.of_perform
  have upper := executes.ordered
  dsimp only at executes
  split at executes
  · obtain ⟨same, rfl⟩ := executes.of_done
    cases same
    rcases executed with ⟨absent, -⟩ | ⟨_, _, -, -, failed, -⟩ | ⟨failed, -⟩
    · exact .inl ⟨rfl, opened, by omega, passed, absent⟩
    · exact nomatch failed
    · exact nomatch failed
  · exact nomatch executes.of_done.1
  next fd =>
  obtain ⟨conflict, closing, probes, executes⟩ := executes.of_bind
  obtain ⟨_, closed, _, executes⟩ := executes.of_bind
  rcases executed with ⟨-, failed, -⟩ | ⟨ino, _, named, -, same, now⟩ | ⟨failed, -⟩
  · exact nomatch failed
  · cases same
    have mine : (execution.world (opened + 1)).fds fd = some ⟨thread, ino, false⟩ := by
      rw [world, now]
      exact Function.update_self _ _ _
    have still : (execution.world probed).fds fd = some ⟨thread, ino, false⟩ :=
      (Rely.fds (sound_start.rests execution rests) fd _ rfl).mpr mine
    refine .inr ⟨opened, probed, fd, ino, by omega, passed, upper, named, still, ?_⟩
    split at executes
    · exact nomatch executes.of_done.1
    cases executes.of_done.1
    rcases probes.of_perform.1 with ⟨descriptor, answer, here, same, found, -⟩ | ⟨failed, -⟩
    · cases same
      cases here.symm.trans still
      exact found
    · exact nomatch failed
  · exact nomatch failed

end Execution

/-- An answer of `psmsgr_state_writer_alive` is right at an instant of the call: if it is no,
nobody had a writer handle open then; if it is yes, somebody had, or held a lock of the channel
while opening it for writing or unlinking it. -/
theorem writer_alive_at_instant (execution : Execution) :
    (∀ {thread r r' first last},
      execution.Called thread (.reader r) .writerAlive (.reader r', .alive (.ok false)) first last →
      ∃ instant, first ≤ instant ∧ instant ≤ last ∧
        ∀ other, ¬WriterOpen (execution.systems instant) other) ∧
    ∀ {thread r r' first last},
      execution.Called thread (.reader r) .writerAlive (.reader r', .alive (.ok true)) first last →
      ∃ instant other, first ≤ instant ∧ instant ≤ last ∧
        (WriterOpen (execution.systems instant) other ∨
          LockHeld (execution.systems instant) other) := by
  have answered {thread r r' held first last} (call : execution.Called thread (.reader r)
      .writerAlive (.reader r', .alive (.ok held)) first last) :
      ∃ start finish, first ≤ start ∧ finish ≤ last ∧
        execution.Executes thread (psmsgrStateWriterAlive r) start (.ok held, r') finish := by
    obtain ⟨start, finish, rests, upper, executes⟩ := call.executes
    obtain ⟨⟨answer, later⟩, index, asked, returned⟩ := executes.of_bind
    obtain ⟨same, rfl⟩ := returned.of_done
    cases same
    exact ⟨start, finish, rests.1, upper, asked⟩
  refine ⟨fun {thread r r' first last} call => ?_, fun {thread r r' first last} call => ?_⟩
  · obtain ⟨start, finish, lower, upper, executes⟩ := answered call
    rcases Execution.of_writerAlive executes with ⟨-, instant, after, before, absent⟩ |
      ⟨opened, probed, fd, ino, after, between, before, named, mine, held⟩
    · exact ⟨instant, by omega, by omega, fun _ => Execution.not_open_of_absent absent⟩
    by_cases same : (execution.world probed).lock = some ino
    · -- whoever is in its critical section holds the lock of this inode
      refine ⟨probed, by omega, by omega, fun other writes => ?_⟩
      obtain ⟨holder, inside⟩ := Option.ne_none_iff_exists'.mp (Execution.inside_of_open writes)
      obtain ⟨_, locked, current⟩ := (execution.inv probed).held inside
      obtain rfl := Option.some.inj (current.symm.trans same)
      refine absurd (held.mpr ⟨holder, _, ?_, locked, rfl, rfl⟩) nofun
      rintro rfl
      exact nomatch mine.symm.trans locked
    · obtain ⟨instant, later, earlier, absent⟩ := Execution.absent_between between named same
      exact ⟨instant, by omega, by omega, fun _ => Execution.not_open_of_absent absent⟩
  · obtain ⟨start, finish, lower, upper, executes⟩ := answered call
    rcases Execution.of_writerAlive executes with ⟨denied, -⟩ |
      ⟨opened, probed, fd, ino, after, between, before, named, mine, held⟩
    · exact nomatch denied
    obtain ⟨other, ⟨owner, _, _⟩, -, here, rfl, rfl⟩ := held.mp rfl
    exact ⟨probed, owner, by omega, by omega, Execution.holder_of_locked here⟩

end PsMsgr
