import PsMsgr.Host.Call

namespace PsMsgr

open Effect Data

/-! # The world processes share

Lock files and data files, with the history the properties speak about: which
values were published, how often each slot was committed, which thread is in its
critical section.  History is only ever added to; no reply depends on it.
-/

abbrev Tid := Nat

/-- An open description of a lock file. -/
structure Descriptor where
  owner : Tid
  ino : Ino
  locked : Bool
deriving DecidableEq

structure File where
  regular : Bool
  size : Nat
  bytes : Memory

/-- One store of `header.latest`: the slot it named, as that slot was at that instant.
`basis` is the index of the last publish in the file the writer had found when it
opened the channel. -/
structure Publish where
  file : FileId
  writer : Tid
  basis : Option Nat
  generation : UInt32
  length : UInt32
  timestampNs : UInt64
  payload : List UInt8
deriving DecidableEq

structure Disk where
  /-- The file the data path names. -/
  data : Option FileId
  tmp : Suffix → Option FileId
  files : FileId → File
  /-- The next file to be created. -/
  fresh : FileId
  /-- The file has been renamed to the data path. -/
  installed : FileId → Bool
  publishes : List Publish
  /-- Even values stored atomically at an offset: the commits of the slot there. -/
  commits : FileId → Nat → Nat
  /-- Stores of `latest` or of `RETIRED`. -/
  stores : FileId → Nat
  notifies : FileId → Nat
  /-- A process died between its store of `latest` or `RETIRED` and its wake. -/
  orphaned : FileId → Bool
  /-- A process left its critical section without retiring the file it had displaced. -/
  abandoned : FileId → Bool

/-- What a thread in its critical section still has to do. -/
structure Marks where
  /-- It stored `latest` or `RETIRED` and has not woken the waiters yet; the flag says
  whether it has incremented `notify`. -/
  unwoken : Option (FileId × Bool)
  /-- It took this file from the data path and has not retired it yet. -/
  displacing : Option FileId
deriving DecidableEq

def Marks.none : Marks := ⟨.none, .none⟩

/-- What a thread has seen. -/
structure Log where
  /-- The publish its last load of `latest` named. -/
  sampled : Option Nat
  /-- The commit counts at that load. -/
  base : FileId → Nat → Nat
  /-- A slot was committed 2^27 times or more between a load of `latest` and a later
  load of the slot's counter. -/
  wrapped : Bool
  /-- The notify counts at its last load of `notify`. -/
  notifyBase : FileId → Nat
  /-- `notify` was incremented 2^32 times or more before the following futex wait. -/
  notifyWrapped : Bool
  /-- The last publish in the file its last open of the data path found. -/
  found : Option Nat

structure World where
  /-- The inode the lock path names. -/
  lock : Option Ino
  fds : Fd → Option Descriptor
  disk : Disk
  /-- The futex queue of each file's `notify` word. -/
  asleep : Tid → Option FileId
  now : UInt64
  /-- The descriptor a thread holds in its critical section. -/
  crit : Tid → Option Fd
  marks : Tid → Marks
  log : Tid → Log
  /-- The generation a thread in `psmsgr_state_wait` was called with. -/
  asking : Tid → UInt32

/-- The index of the last publish in a file. -/
def lastIndex (file : FileId) : List Publish → Option Nat
  | [] => none
  | publish :: publishes =>
      match lastIndex file publishes with
      | some index => some (index + 1)
      | none => if publish.file = file then some 0 else none

/-- The slot a value of `latest` names, as a publish. -/
def Publish.snapshot (file : FileId) (writer : Tid) (basis : Option Nat) (memory : Memory)
    (latest : UInt32) : Publish :=
  let slot := slotOffset (memory.word32 Offset.slotStride) (psmiLatestSlot latest)
  let length := memory.word32 (slot + Offset.length)
  { file, writer, basis, length
    generation := memory.word32 (slot + Offset.generation)
    timestampNs := memory.word64 (slot + Offset.timestampNs)
    payload := memory.read (slot + Offset.payload) length.toNat }

namespace Disk

def memory (disk : Disk) (file : FileId) : Memory := (disk.files file).bytes

def setMemory (disk : Disk) (file : FileId) (memory : Memory) : Disk :=
  { disk with
    files := Function.update disk.files file { disk.files file with bytes := memory } }

def NoNotify (disk : Disk) (file : FileId) : Prop :=
  (disk.memory file).word32 Offset.configFlags &&& psmiConfigNoNotify ≠ 0

instance (disk : Disk) (file : FileId) : Decidable (disk.NoNotify file) :=
  inferInstanceAs (Decidable (_ ≠ _))

def Retired (disk : Disk) (file : FileId) : Prop :=
  (disk.memory file).word32 Offset.state &&& psmiStateRetired ≠ 0

instance (disk : Disk) (file : FileId) : Decidable (disk.Retired file) :=
  inferInstanceAs (Decidable (_ ≠ _))

def storeByte (disk : Disk) (file : FileId) (offset : Nat) (value : UInt8) : Disk :=
  disk.setMemory file (Function.update (disk.memory file) offset value)

/-- An atomic store: of `latest` it is a publish, of an even value it is a commit. -/
def store (disk : Disk) (writer : Tid) (basis : Option Nat) (file : FileId) (offset : Nat)
    (value : UInt32) : Disk :=
  let memory := (disk.memory file).write offset (Memory.bytes32 value)
  let stored := disk.setMemory file memory
  if offset = Offset.latest then
    { stored with
      publishes := disk.publishes ++ [Publish.snapshot file writer basis memory value]
      stores := Function.update disk.stores file (disk.stores file + 1) }
  else if value &&& 1 = 0 then
    { stored with
      commits := Function.update disk.commits file
        (Function.update (disk.commits file) offset (disk.commits file offset + 1)) }
  else stored

def fetchOr (disk : Disk) (file : FileId) (offset : Nat) (value : UInt32) : Disk :=
  { disk.setMemory file ((disk.memory file).write offset
      (Memory.bytes32 ((disk.memory file).word32 offset ||| value))) with
    stores := Function.update disk.stores file (disk.stores file + 1) }

def fetchAdd (disk : Disk) (file : FileId) (offset : Nat) (value : UInt32) : Disk :=
  { disk.setMemory file ((disk.memory file).write offset
      (Memory.bytes32 ((disk.memory file).word32 offset + value))) with
    notifies := Function.update disk.notifies file (disk.notifies file + 1) }

/-- An empty regular file under a new temporary name. -/
def create (disk : Disk) (suffix : Suffix) : Disk :=
  { disk with
    tmp := Function.update disk.tmp suffix (some disk.fresh)
    files := Function.update disk.files disk.fresh ⟨true, 0, fun _ => 0⟩
    fresh := disk.fresh + 1 }

def allocate (disk : Disk) (file : FileId) (size : Nat) : Disk :=
  { disk with
    files := Function.update disk.files file
      { disk.files file with size := max (disk.files file).size size } }

def install (disk : Disk) (suffix : Suffix) (file : FileId) : Disk :=
  { disk with
    data := some file
    tmp := Function.update disk.tmp suffix none
    installed := Function.update disk.installed file true }

/-- What the thread in the critical section leaves undone when it goes. -/
def leave (disk : Disk) (marks : Marks) : Disk :=
  { disk with
    orphaned := match marks.unwoken with
      | some (file, _) => Function.update disk.orphaned file true
      | none => disk.orphaned
    abandoned := match marks.displacing with
      | some file => Function.update disk.abandoned file true
      | none => disk.abandoned }

end Disk

namespace Log

def load (log : Log) (disk : Disk) (file : FileId) (offset : Nat) : Log :=
  if offset = Offset.latest then
    { log with
      sampled := match lastIndex file disk.publishes with
        | some index => some index
        | none => log.sampled
      base := disk.commits }
  else if offset = Offset.notify then
    { log with notifyBase := disk.notifies }
  else
    { log with
      wrapped := log.wrapped || decide (log.base file offset + 2 ^ 27 ≤ disk.commits file offset) }

def futexWait (log : Log) (disk : Disk) (file : FileId) : Log :=
  { log with
    notifyWrapped := log.notifyWrapped ||
      decide (log.notifyBase file + 2 ^ 32 ≤ disk.notifies file) }

end Log

namespace World

/-- Replace what the thread in the critical section works on. -/
def own (world : World) (thread : Tid) (disk : Disk) (marks : Marks) : World :=
  { world with disk, marks := Function.update world.marks thread marks }

def setLog (world : World) (thread : Tid) (log : Log) : World :=
  { world with log := Function.update world.log thread log }

def setAsleep (world : World) (thread : Tid) (file : Option FileId) : World :=
  { world with asleep := Function.update world.asleep thread file }

def setFd (world : World) (fd : Fd) (descriptor : Option Descriptor) : World :=
  { world with fds := Function.update world.fds fd descriptor }

/-- The thread's critical section ends. -/
def leave (world : World) (thread : Tid) : World :=
  { world with
    crit := Function.update world.crit thread none
    marks := Function.update world.marks thread Marks.none
    disk := world.disk.leave (world.marks thread) }

end World

/-- A call failed for a reason of its own and changed nothing. -/
def Failed {α : Type} (reply : Except Errno α) (before after : World) : Prop :=
  reply = .error .other ∧ after = before

/-- What one call of a thread replies and does.  Any system call may also fail. -/
def exec (thread : Tid) : (request : Sys) → World → request.Reply → World → Prop
  | .openLockNew, s, reply, s' =>
      (s.lock ≠ none ∧ reply = .error .eexist ∧ s' = s) ∨
      (s.lock = none ∧ ∃ fd ino, s.fds fd = none ∧
        -- an inode with an open descriptor is not recycled
        (∀ other descriptor, s.fds other = some descriptor → descriptor.ino ≠ ino) ∧
        reply = .ok fd ∧
        s' = { s.setFd fd (some ⟨thread, ino, false⟩) with lock := some ino }) ∨
      Failed reply s s'
  | .openLock, s, reply, s' =>
      (s.lock = none ∧ reply = .error .enoent ∧ s' = s) ∨
      (∃ ino fd, s.lock = some ino ∧ s.fds fd = none ∧ reply = .ok fd ∧
        s' = s.setFd fd (some ⟨thread, ino, false⟩)) ∨
      Failed reply s s'
  | .fchmodLock _ _, s, reply, s' => (reply = .ok () ∧ s' = s) ∨ Failed reply s s'
  | .setLock fd, s, reply, s' =>
      (∃ descriptor, s.fds fd = some descriptor ∧
        (∀ other held, other ≠ fd → s.fds other = some held → held.ino = descriptor.ino →
          held.locked = false) ∧
        reply = .ok () ∧ s' = s.setFd fd (some { descriptor with locked := true })) ∨
      (∃ descriptor other held, s.fds fd = some descriptor ∧ other ≠ fd ∧
        s.fds other = some held ∧ held.ino = descriptor.ino ∧ held.locked = true ∧
        (reply = .error .eagain ∨ reply = .error .eacces) ∧ s' = s) ∨
      Failed reply s s'
  | .getLock fd, s, reply, s' =>
      (∃ descriptor held, s.fds fd = some descriptor ∧ reply = .ok held ∧
        (held = true ↔ ∃ other holder, other ≠ fd ∧ s.fds other = some holder ∧
          holder.ino = descriptor.ino ∧ holder.locked = true) ∧ s' = s) ∨
      Failed reply s s'
  | .fstatLock fd, s, reply, s' =>
      (∃ descriptor, s.fds fd = some descriptor ∧ reply = .ok descriptor.ino ∧ s' = s) ∨
      Failed reply s s'
  | .lstatLock, s, reply, s' =>
      (s.lock = none ∧ reply = .error .enoent ∧ s' = s) ∨
      (∃ ino, s.lock = some ino ∧ reply = .ok ino ∧
        -- The identity check succeeds: the thread holds the lock of the inode just named.
        ((∃ fd, s.fds fd = some ⟨thread, ino, true⟩ ∧
            s' = { s with crit := Function.update s.crit thread (some fd) }) ∨
          ((∀ fd, s.fds fd ≠ some ⟨thread, ino, true⟩) ∧ s' = s))) ∨
      Failed reply s s'
  | .unlinkLock, s, reply, s' =>
      (s.lock ≠ none ∧ reply = .ok () ∧ s' = { s.leave thread with lock := none }) ∨
      (s.lock = none ∧ reply = .error .enoent ∧ s' = s) ∨
      Failed reply s s'
  | .closeLock fd, s, _, s' =>
      s' = (if s.crit thread = some fd then s.leave thread else s).setFd fd none
  | .readdir, s, _, s' => s' = s
  | .mkostemp, s, reply, s' =>
      (∃ suffix, s.disk.tmp suffix = none ∧ reply = .ok (suffix, s.disk.fresh) ∧
        s' = s.own thread (s.disk.create suffix) (s.marks thread)) ∨
      Failed reply s s'
  | .unlinkTmp suffix, s, reply, s' =>
      (s.disk.tmp suffix ≠ none ∧ reply = .ok () ∧
        s' = s.own thread { s.disk with tmp := Function.update s.disk.tmp suffix none }
          (s.marks thread)) ∨
      (s.disk.tmp suffix = none ∧ reply = .error .enoent ∧ s' = s) ∨
      Failed reply s s'
  | .renameTmp suffix, s, reply, s' =>
      (∃ file, s.disk.tmp suffix = some file ∧ reply = .ok () ∧
        s' = s.own thread (s.disk.install suffix file)
          { s.marks thread with displacing := s.disk.data }) ∨
      (s.disk.tmp suffix = none ∧ reply = .error .enoent ∧ s' = s) ∨
      Failed reply s s'
  | .openData, s, reply, s' =>
      (∃ file, s.disk.data = some file ∧ reply = .ok file ∧
        s' = s.setLog thread
          { s.log thread with found := lastIndex file s.disk.publishes }) ∨
      (s.disk.data = none ∧ reply = .error .enoent ∧
        s' = s.setLog thread { s.log thread with found := none }) ∨
      Failed reply s s'
  | .lstatData, s, reply, s' =>
      (∃ file, s.disk.data = some file ∧ reply = .ok file ∧ s' = s) ∨
      (s.disk.data = none ∧ reply = .error .enoent ∧ s' = s) ∨
      Failed reply s s'
  | .unlinkData, s, reply, s' =>
      (s.disk.data ≠ none ∧ reply = .ok () ∧
        s' = s.own thread { s.disk with data := none }
          { s.marks thread with displacing := s.disk.data }) ∨
      (s.disk.data = none ∧ reply = .error .enoent ∧ s' = s) ∨
      Failed reply s s'
  | .fstat file, s, reply, s' =>
      (reply = .ok ⟨(s.disk.files file).regular, (s.disk.files file).size⟩ ∧ s' = s) ∨
      Failed reply s s'
  | .fchmod _ _, s, reply, s' => (reply = .ok () ∧ s' = s) ∨ Failed reply s s'
  | .pread file offset count, s, reply, s' =>
      (reply = .ok ((s.disk.memory file).read offset
          (min count ((s.disk.files file).size - offset))) ∧ s' = s) ∨
      Failed reply s s'
  | .fallocate file size, s, reply, s' =>
      (reply = .ok () ∧ s' = s.own thread (s.disk.allocate file size) (s.marks thread)) ∨
      Failed reply s s'
  | .mmap _ _, s, reply, s' => (reply = .ok () ∧ s' = s) ∨ Failed reply s s'
  | .munmap _, s, _, s' => s' = s
  | .close _, s, _, s' => s' = s
  | .load file offset, s, reply, s' =>
      reply = (s.disk.memory file).word32 offset ∧
        s' = s.setLog thread ((s.log thread).load s.disk file offset)
  | .store file offset value, s, _, s' =>
      s' = s.own thread (s.disk.store thread (s.log thread).found file offset value)
        (if offset = Offset.latest ∧ ¬ s.disk.NoNotify file then
          { s.marks thread with unwoken := some (file, false) }
        else s.marks thread)
  | .fetchOr file offset value, s, reply, s' =>
      reply = (s.disk.memory file).word32 offset ∧
        s' = s.own thread (s.disk.fetchOr file offset value)
          { unwoken := some (file, false)
            displacing := if (s.marks thread).displacing = some file then none
              else (s.marks thread).displacing }
  | .fetchAdd file offset value, s, reply, s' =>
      reply = (s.disk.memory file).word32 offset ∧
        s' = s.own thread (s.disk.fetchAdd file offset value)
          { s.marks thread with
            unwoken := (s.marks thread).unwoken.map (fun mark => (mark.1, true)) }
  | .loadByte file offset, s, reply, s' => reply = s.disk.memory file offset ∧ s' = s
  | .storeByte file offset value, s, _, s' =>
      s' = s.own thread (s.disk.storeByte file offset value) (s.marks thread)
  | .futexWake file, s, _, s' =>
      s' = { s.own thread s.disk { s.marks thread with unwoken := none } with
        asleep := fun other => if s.asleep other = some file then none else s.asleep other }
  | .futexWait file expected _, s, reply, s' =>
      ((s.disk.memory file).word32 Offset.notify = expected ∧ reply = .ok () ∧
        s' = (s.setLog thread ((s.log thread).futexWait s.disk file)).setAsleep thread
          (some file)) ∨
      ((s.disk.memory file).word32 Offset.notify ≠ expected ∧ reply = .error .eagain ∧
        s' = s) ∨
      Failed reply s s'
  | .futexSleep, s, reply, s' =>
      (s.asleep thread = none ∧ reply = .ok () ∧ s' = s) ∨
      ((reply = .error .etimedout ∨ reply = .error .eintr) ∧ s' = s.setAsleep thread none)
  | .malloc, s, _, s' => s' = s
  | .clock .monotonic, s, reply, s' => s.now ≤ reply ∧ s' = { s with now := reply }
  | .clock .realtime, s, _, s' => s' = s
  | .getrandom, s, _, s' => s' = s
  | .getpid, s, _, s' => s' = s
  | .nanosleep _, s, _, s' => s' = s
  | .schedYield, s, _, s' => s' = s
  | .spin, _, _, _ => False

/-- Calls that leave the world as it is, whatever they reply. -/
def Sys.Passive : Sys → Prop
  | .fchmodLock _ _ | .getLock _ | .fstatLock _ | .readdir | .lstatData | .fstat _ | .fchmod _ _
  | .pread _ _ _ | .mmap _ _ | .munmap _ | .close _ | .loadByte _ _ | .malloc | .clock .realtime
  | .getrandom | .getpid | .nanosleep _ | .schedYield => True
  | _ => False

theorem exec_passive {thread : Tid} {before after : World} {request : Sys}
    {reply : request.Reply} (passive : request.Passive)
    (executed : exec thread request before reply after) : after = before := by
  cases request with
  | clock which =>
      cases which with
      | monotonic => exact passive.elim
      | realtime => exact executed
  | fchmodLock _ _ | fchmod _ _ | mmap _ _ | fstat _ | pread _ _ _ =>
      rcases executed with ⟨_, same⟩ | failed
      · exact same
      · exact failed.2
  | getLock _ =>
      rcases executed with ⟨_, _, _, _, _, same⟩ | failed
      · exact same
      · exact failed.2
  | fstatLock _ =>
      rcases executed with ⟨_, _, _, same⟩ | failed
      · exact same
      · exact failed.2
  | lstatData =>
      rcases executed with ⟨_, _, _, same⟩ | ⟨_, _, same⟩ | failed
      · exact same
      · exact same
      · exact failed.2
  | loadByte _ _ => exact executed.2
  | readdir | munmap _ | close _ | malloc | getrandom | getpid | nanosleep _ | schedYield =>
      exact executed
  | _ => exact passive.elim

/-- A killed process loses its descriptors, and with them its locks. -/
def crash (thread : Tid) (world : World) : World :=
  { world.leave thread with
    fds := fun fd => (world.fds fd).filter (fun descriptor => descriptor.owner ≠ thread)
    asleep := Function.update world.asleep thread none }

/-- An empty directory, and no process has done anything. -/
def World.empty : World where
  lock := none
  fds := fun _ => none
  disk :=
    { data := none
      tmp := fun _ => none
      files := fun _ => ⟨true, 0, fun _ => 0⟩
      fresh := 0
      installed := fun _ => false
      publishes := []
      commits := fun _ _ => 0
      stores := fun _ => 0
      notifies := fun _ => 0
      orphaned := fun _ => false
      abandoned := fun _ => false }
  asleep := fun _ => none
  now := 0
  crit := fun _ => none
  marks := fun _ => Marks.none
  log := fun _ => ⟨none, fun _ _ => 0, false, fun _ => 0, false, none⟩
  asking := fun _ => 0

end PsMsgr
