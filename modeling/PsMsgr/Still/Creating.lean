import PsMsgr.State.Looking
import PsMsgr.Still.Opening

namespace PsMsgr

open Effect Data

/-- The calls of readers, and those with which a header is filled in. -/
def Sys.Modest : Sys → Prop
  | .openData | .load _ _ | .storeByte _ _ _ => True
  | request => request.Passive

/-- What such calls leave alone. -/
structure World.Kept (before after : World) : Prop where
  fds : after.fds = before.fds
  marks : after.marks = before.marks
  publishes : after.disk.publishes = before.disk.publishes
  commits : after.disk.commits = before.disk.commits
  orphaned : after.disk.orphaned = before.disk.orphaned
  now : after.now = before.now
  notifyWrapped : ∀ thread, (after.log thread).notifyWrapped = (before.log thread).notifyWrapped

theorem World.Kept.refl (world : World) : world.Kept world :=
  ⟨rfl, rfl, rfl, rfl, rfl, rfl, fun _ => rfl⟩

theorem World.Kept.trans {first second third : World} (left : first.Kept second)
    (right : second.Kept third) : first.Kept third :=
  ⟨right.fds.trans left.fds, right.marks.trans left.marks, right.publishes.trans left.publishes,
    right.commits.trans left.commits, right.orphaned.trans left.orphaned, right.now.trans left.now,
    fun thread => (right.notifyWrapped thread).trans (left.notifyWrapped thread)⟩

theorem Log.load_notifyWrapped (log : Log) (disk : Disk) (file : FileId) (offset : Nat) :
    (log.load disk file offset).notifyWrapped = log.notifyWrapped := by
  unfold Log.load
  split
  · rfl
  split <;> rfl

theorem World.kept_setLog {world : World} {thread : Tid} {log : Log}
    (same : log.notifyWrapped = (world.log thread).notifyWrapped) :
    world.Kept (world.setLog thread log) := by
  refine ⟨rfl, rfl, rfl, rfl, rfl, rfl, fun other => ?_⟩
  by_cases own : other = thread
  · subst own
    exact (congrArg Log.notifyWrapped (Function.update_self _ _ _)).trans same
  · exact congrArg Log.notifyWrapped (Function.update_of_ne own _ _)

theorem exec_modest {thread : Tid} {request : Sys} {before after : World} {reply : request.Reply}
    (modest : request.Modest) (executed : exec thread request before reply after) :
    before.Kept after := by
  have passive (here : request.Passive) : before.Kept after := by
    rw [exec_passive here executed]
    exact .refl before
  cases request with
  | openData =>
      rcases executed with ⟨file, -, -, rfl⟩ | ⟨-, -, rfl⟩ | ⟨-, rfl⟩
      · exact World.kept_setLog rfl
      · exact World.kept_setLog rfl
      · exact .refl _
  | load file offset =>
      obtain ⟨-, rfl⟩ := executed
      exact World.kept_setLog (Log.load_notifyWrapped _ _ _ _)
  | storeByte file offset value =>
      obtain rfl : after = _ := executed
      exact ⟨rfl, Function.update_eq_self _ _, rfl, rfl, rfl, rfl, fun _ => rfl⟩
  | _ => exact passive modest

theorem modest_of_answer {disk : Disk} {request : Sys} {reply : request.Reply}
    (answered : disk.answer request = some reply) : request.Modest := by
  cases request with
  | openData | load _ _ => trivial
  | lstatData | fstat _ | pread _ _ _ | mmap _ _ | munmap _ | close _ | schedYield | loadByte _ _ =>
      exact trivial
  | _ => cases answered

theorem kept_of_modest {α : Type} {thread : Tid} {program : Prog α} {result : α → Prop}
    {before after : World} {value : α} (modest : program.Always Sys.Modest result)
    (runs : program.Runs (exec thread) before value after) : before.Kept after :=
  modest.preserves (fun allowed executed kept => kept.trans (exec_modest allowed executed)) runs
    (.refl before)

/-- The place of the last publish in the file at the data path. -/
def Disk.found (disk : Disk) : Option Nat :=
  disk.data.bind fun file => lastIndex file disk.publishes

theorem exec_answered {thread : Tid} {world after : World} {request : Sys}
    {answer reply : request.Reply} {seen : Log → Prop}
    (loads : ∀ {log} file offset, seen log → seen (log.load world.disk file offset))
    (opens : ∀ {log}, seen log → seen { log with found := world.disk.found })
    (answered : world.disk.answer request = some answer)
    (executed : exec thread request world reply after) (held : seen (world.log thread)) :
    seen (after.log thread) := by
  have passive (here : request.Passive) : seen (after.log thread) := by
    rw [exec_passive here executed]
    exact held
  cases request with
  | openData =>
      have found := opens held
      rcases executed with ⟨file, named, -, rfl⟩ | ⟨absent, -, rfl⟩ | ⟨-, rfl⟩
      · rw [Disk.found, named, Option.bind_some] at found
        simpa only [World.setLog, Function.update_self] using found
      · rw [Disk.found, absent, Option.bind_none] at found
        simpa only [World.setLog, Function.update_self] using found
      · exact held
  | load file offset =>
      obtain ⟨-, rfl⟩ := executed
      simpa only [World.setLog, Function.update_self] using loads file offset held
  | lstatData | fstat | pread | mmap | munmap | close | schedYield | loadByte => exact passive trivial
  | _ => cases answered

/-- What only looks at the files runs to its end, and of what the thread has seen, everything holds
on that loads and opens of the data path preserve. -/
theorem runs_answered {α : Type} {thread : Tid} {world : World} {program : Prog α} {value : α}
    {seen : Log → Prop}
    (loads : ∀ {log} file offset, seen log → seen (log.load world.disk file offset))
    (opens : ∀ {log}, seen log → seen { log with found := world.disk.found })
    (evaluates : program.eval world.disk.answer = some value) (held : seen (world.log thread)) :
    ∃ after, program.Runs (execGranted thread) world value after ∧ after.disk = world.disk ∧
      world.Kept after ∧ seen (after.log thread) := by
  have ends : program.Must (execGranted thread) (fun result after => result = value ∧
      after.disk = world.disk ∧ world.Kept after ∧ seen (after.log thread)) world := by
    refine Program.ends_of_eval ?_ evaluates ⟨rfl, .refl world, held⟩
    rintro request reply state answered ⟨same, kept, held⟩
    obtain ⟨occurs, determined⟩ := @execGranted_answer thread _ state.now _ _ state answered ⟨same, rfl⟩
    refine ⟨occurs, fun other after happened => ?_⟩
    obtain ⟨replied, disk, -⟩ := determined other after happened
    rw [← same] at loads opens answered
    exact ⟨replied, disk, kept.trans (exec_modest (modest_of_answer answered) happened.1),
      exec_answered loads opens answered happened.1 held⟩
  obtain ⟨_, after, runs, rfl, kept⟩ := ends.occurs
  exact ⟨after, runs, kept⟩

theorem syncs_modest : Syncs Sys.Modest :=
  ⟨trivial, trivial, fun _ _ => trivial, fun _ => trivial, fun _ => trivial,
    fun _ => ⟨trivial, fun _ _ => trivial, fun _ => trivial, fun _ => trivial, trivial⟩⟩

theorem loadWord_modest (file : FileId) (offset : Nat) :
    (loadWord file offset).Always Sys.Modest (fun _ => True) :=
  ((syncs_modest.looks file).loadBytes offset 4).bind fun _ _ => trivial

theorem storeBytes_modest (file : FileId) (offset : Nat) (bytes : List UInt8) :
    (storeBytes file offset bytes).Always Sys.Modest (fun _ => True) :=
  storeBytes_always fun _ _ _ _ => trivial

theorem storeHeader_modest (build : Build) (o : Options) (stride : UInt32) (file : FileId) :
    (storeHeader build o stride file).Always Sys.Modest (fun _ => True) := by
  unfold storeHeader
  iterate 11 refine (storeBytes_modest _ _ _).bind fun _ _ => ?_
  exact Program.Always.bind (Program.Always.perform trivial) fun _ _ => storeBytes_modest _ _ _

theorem World.setLog_log_other {thread other : Tid} (world : World) (log : Log)
    (distinct : other ≠ thread) : (world.setLog thread log).log other = world.log other :=
  Function.update_of_ne distinct _ _

theorem exec_log_other {thread other : Tid} {request : Sys} {before after : World}
    {reply : request.Reply} (distinct : other ≠ thread)
    (executed : exec thread request before reply after) : after.log other = before.log other := by
  cases request
  case clock which => cases which <;> grind [exec]
  case futexWait =>
    obtain ⟨_, _, rfl⟩ | ⟨_, _, rfl⟩ | ⟨_, rfl⟩ := executed
    · exact World.setLog_log_other _ _ distinct
    · rfl
    · rfl
  all_goals
    grind [exec, Failed, World.own, World.setLog_log_other, World.setAsleep, World.setFd, World.leave]

theorem log_other_of_runs {α : Type} {thread other : Tid} {program : Prog α} {before after : World}
    {value : α} (distinct : other ≠ thread)
    (runs : program.Runs (execGranted thread) before value after) :
    after.log other = before.log other :=
  @Program.Always.preserves _ _ _ _ (execGranted thread) _ _
    (fun later => later.log other = before.log other) _ _ _ _ (Program.Always.intro program)
    (fun _ executed same => (exec_log_other distinct executed.1).trans same) runs rfl

/-- The world once `thread` holds the lock of the inode the lock path names. -/
def World.locked (world : World) (thread : Tid) (fd : Fd) (ino : Ino) : World :=
  { world with
    lock := some ino
    fds := Function.update world.fds fd (some ⟨thread, ino, true⟩)
    crit := Function.update world.crit thread (some fd) }

section

variable {thread : Tid} {world : World}

theorem runs_call {request : Sys} {reply : request.Reply} {after : World}
    (executed : execGranted thread request world reply after) :
    (call request).Runs (execGranted thread) world reply after :=
  ⟨reply, after, executed, rfl, rfl⟩

theorem runs_lockOpened {fd : Fd} {ino : Ino} {again : Prog (Except Code Fd)}
    (named : world.lock = some ino) (mine : world.fds fd = some ⟨thread, ino, false⟩)
    (alone : ∀ other, other ≠ fd → world.fds other = none) :
    (lockOpened again fd).Runs (execGranted thread) world (.ok fd) (world.locked thread fd ino) := by
  let after := world.setFd fd (some ⟨thread, ino, true⟩)
  have locked : after.fds fd = some ⟨thread, ino, true⟩ := Function.update_self _ _ _
  have sets : execGranted thread (.setLock fd) world (.ok ()) after := by
    refine ⟨.inl ⟨_, mine, ?_, rfl, rfl⟩, ok_ne_other _⟩
    intro other held distinct here
    rw [alone other distinct] at here
    cases here
  have opened : execGranted thread (.fstatLock fd) after (.ok ino) after :=
    ⟨.inl ⟨_, locked, rfl, rfl⟩, ok_ne_other _⟩
  have names : execGranted thread .lstatLock after (.ok ino) (world.locked thread fd ino) := by
    refine ⟨.inr (.inl ⟨ino, named, rfl, .inl ⟨fd, locked, ?_⟩⟩), ok_ne_other _⟩
    unfold World.locked
    rw [← named]
    rfl
  have current : (namesInode fd).Runs (execGranted thread) after (.ok true)
      (world.locked thread fd ino) := by
    refine (runs_call opened).bind ((runs_call names).bind ⟨?_, rfl⟩)
    rw [beq_self_eq_true]
  exact (runs_call sets).bind (current.bind ⟨rfl, rfl⟩)

theorem runs_lockChannel (mode : UInt32) (turns : Nat) (unused : ∀ fd, world.fds fd = none) :
    ∃ fd ino, (lockChannel mode (turns + 1)).Runs (execGranted thread) world (.ok fd)
      (world.locked thread fd ino) := by
  rw [lockChannel]
  cases named : world.lock with
  | none =>
      let made : World := { world.setFd 0 (some ⟨thread, 0, false⟩) with lock := some 0 }
      have opens : execGranted thread .openLockNew world (.ok 0) made := by
        refine ⟨.inr (.inl ⟨named, 0, 0, unused 0, ?_, rfl, rfl⟩), ok_ne_other _⟩
        intro other descriptor here
        rw [unused other] at here
        cases here
      have modes : execGranted thread (.fchmodLock 0 mode) made (.ok ()) made :=
        ⟨.inl ⟨rfl, rfl⟩, ok_ne_other _⟩
      have alone : ∀ other, other ≠ 0 → made.fds other = none :=
        fun other distinct => (Function.update_of_ne distinct _ _).trans (unused other)
      have same : made.locked thread 0 0 = world.locked thread 0 0 := by
        simp only [made, World.locked, World.setFd, Function.update_idem]
      have mine : made.fds 0 = some ⟨thread, 0, false⟩ := Function.update_self 0 _ world.fds
      refine ⟨0, 0, (runs_call opens).bind ((runs_call modes).bind ?_)⟩
      rw [← same]
      exact runs_lockOpened rfl mine alone
  | some ino =>
      let held : World := world.setFd 0 (some ⟨thread, ino, false⟩)
      have taken : execGranted thread .openLockNew world (.error .eexist) world :=
        ⟨.inl ⟨by rw [named]; exact Option.some_ne_none ino, rfl, rfl⟩, fun same => by cases same⟩
      have opens : execGranted thread .openLock world (.ok 0) held :=
        ⟨.inr (.inl ⟨ino, 0, named, unused 0, rfl, rfl⟩), ok_ne_other _⟩
      have alone : ∀ other, other ≠ 0 → held.fds other = none :=
        fun other distinct => (Function.update_of_ne distinct _ _).trans (unused other)
      have same : held.locked thread 0 ino = world.locked thread 0 ino := by
        simp only [held, World.locked, World.setFd, Function.update_idem]
      have mine : held.fds 0 = some ⟨thread, ino, false⟩ := Function.update_self 0 _ world.fds
      refine ⟨0, ino, (runs_call taken).bind ((runs_call opens).bind ?_)⟩
      rw [← same]
      exact runs_lockOpened named mine alone

/-- Of what a writer that has created its file leaves behind. -/
structure World.Creates (thread : Tid) (before : World) (build : Build) (o : Options) (w : Writer)
    (after : World) : Prop where
  file : w.file = before.disk.fresh
  slotCount : w.slotCount = o.slotCount
  capacity : w.capacity = o.capacity
  notify : w.notify = (configFlagsOf o &&& psmiConfigNoNotify == 0)
  latest : w.latest = psmiLatestNone
  agrees : Header.Agrees build o (Header.ofMemory (after.disk.memory w.file))
  unpublished : (after.disk.memory w.file).word32 Offset.latest = psmiLatestNone
  files : ∀ file, file ≠ w.file → after.disk.files file = before.disk.files file
  tmp : after.disk.tmp = before.disk.tmp
  asleep : ∀ other, before.asleep other = none → after.asleep other = none
  fds : ∀ fd, fd ≠ w.lockFd → after.fds fd = before.fds fd
  publishes : after.disk.publishes = before.disk.publishes
  commits : after.disk.commits = before.disk.commits
  orphaned : after.disk.orphaned = before.disk.orphaned
  now : after.now = before.now
  log : ∀ other, other ≠ thread → after.log other = before.log other

theorem runs_createFile {suffix : Suffix} (build : Build) (o : Options) (lockFd : Fd) (gen : UInt32)
    (free : world.disk.tmp suffix = none) :
    ∃ w after, (createFile build o lockFd none gen).Runs (execGranted thread) world (.ok w) after ∧
      w.lockFd = lockFd ∧ world.Creates thread build o w after := by
  let file := world.disk.fresh
  let size := toSize (psmiFileSize o.slotCount (psmiSlotStride o.capacity)).toNat
  let drafted := world.own thread (world.disk.create suffix) (world.marks thread)
  let sized := drafted.own thread (drafted.disk.allocate file size) (drafted.marks thread)
  have enough : execGranted thread .malloc world true world := ⟨rfl, rfl⟩
  have makes : execGranted thread .mkostemp world (.ok (suffix, file)) drafted :=
    ⟨.inl ⟨suffix, free, rfl, rfl⟩, nofun⟩
  have modes : execGranted thread (.fchmod file o.mode) drafted (.ok ()) drafted :=
    ⟨.inl ⟨rfl, rfl⟩, nofun⟩
  have allocates : execGranted thread (.fallocate file size) drafted (.ok ()) sized :=
    ⟨.inl ⟨rfl, rfl⟩, nofun⟩
  have maps : execGranted thread (.mmap file size) sized (.ok ()) sized :=
    ⟨.inl ⟨rfl, rfl⟩, nofun⟩
  have fills := @ends_storeHeader thread sized sized _ (expects_granted thread) file
    (sized.disk.memory file) True build o (.refl sized file)
  obtain ⟨_, filled, stores, created, wrote⟩ := fills.occurs
  let installed := filled.own thread (filled.disk.install suffix file)
    { filled.marks thread with displacing := filled.disk.data }
  have here : filled.disk.tmp suffix = some file := by
    rw [wrote.tmp]
    exact Function.update_self _ _ _
  have renames : execGranted thread (.renameTmp suffix) filled (.ok ()) installed :=
    ⟨.inl ⟨file, here, rfl, rfl⟩, nofun⟩
  have closes : execGranted thread (.close file) installed () installed := ⟨rfl, trivial⟩
  have loads {now : World} {memory : Memory} (same : installed.Wrote file memory now)
      (offset : Nat) : ∃ after, (loadWord file offset).Runs (execGranted thread) now
        (memory.word32 offset) after ∧ installed.Wrote file memory after ∧ now.Kept after := by
    have ends := @ends_loadWord True thread installed now file memory _ (expects_granted thread)
      same offset
    obtain ⟨_, after, runs, rfl, wrote⟩ := ends.occurs
    exact ⟨after, runs, wrote, kept_of_modest (loadWord_modest file offset) (runs.mono And.left)⟩
  obtain ⟨first, count, wrote₁, kept₁⟩ := loads (.refl installed file) Offset.slotCount
  obtain ⟨second, stride, wrote₂, kept₂⟩ := loads wrote₁ Offset.slotStride
  obtain ⟨third, capacity, wrote₃, kept₃⟩ := loads wrote₂ Offset.capacity
  obtain ⟨after, flags, wrote₄, kept₄⟩ := loads wrote₃ Offset.configFlags
  have filling : sized.Kept filled :=
    kept_of_modest (storeHeader_modest build o _ file) (stores.mono And.left)
  have reading : installed.Kept after := ((kept₁.trans kept₂).trans kept₃).trans kept₄
  have runs : (createFile build o lockFd none gen).Runs (execGranted thread) world _ after :=
    (runs_call enough).bind ((runs_call makes).bind ((runs_call modes).bind
      ((runs_call allocates).bind ((runs_call maps).bind (stores.bind ((runs_call renames).bind
        ((runs_call closes).bind (count.bind (stride.bind (capacity.bind (flags.bind
          ⟨rfl, rfl⟩)))))))))))
  have memory : installed.disk.memory file =
      headerMemory build o created (sized.disk.memory file) := wrote.memory_eq
  have header : Header.ofMemory (installed.disk.memory file) = _ :=
    (congrArg Header.ofMemory memory).trans headerMemory_header
  refine ⟨_, after, runs, rfl, rfl, congrArg Header.slotCount header,
    congrArg Header.capacity header, ?_, rfl, ?_, ?_, fun other distinct => ?_, ?_,
    fun other awake => ?_, fun fd _ => ?_, reading.publishes.trans filling.publishes,
    reading.commits.trans filling.commits, reading.orphaned.trans filling.orphaned,
    reading.now.trans filling.now, fun _ distinct => log_other_of_runs distinct runs⟩
  · change ((installed.disk.memory file).word32 Offset.configFlags &&& psmiConfigNoNotify == 0) = _
    rw [show (installed.disk.memory file).word32 Offset.configFlags = configFlagsOf o from
      congrArg Header.configFlags header]
  · change Header.Agrees build o (Header.ofMemory (after.disk.memory file))
    rw [wrote₄.memory_eq, memory]
    exact headerMemory_agrees
  · change (after.disk.memory file).word32 Offset.latest = psmiLatestNone
    rw [wrote₄.memory_eq, memory, headerMemory_latest]
  · change other ≠ file at distinct
    have old : filled.disk.files other = world.disk.files other := by
      rw [wrote.files, Function.update_of_ne distinct]
      exact (Function.update_of_ne distinct _ _).trans (Function.update_of_ne distinct _ _)
    rw [wrote₄.files, Function.update_of_ne distinct]
    exact old
  · rw [wrote₄.tmp]
    change Function.update filled.disk.tmp suffix none = world.disk.tmp
    rw [wrote.tmp]
    change Function.update (Function.update world.disk.tmp suffix _) suffix none = world.disk.tmp
    rw [Function.update_idem, ← free, Function.update_eq_self]
  · exact wrote₄.asleep other (wrote.asleep other awake)
  · rw [wrote₄.fds]
    exact congrFun wrote.fds fd

/-- The end of `psmsgr_state_writer_open`, once the data file is open or not. -/
def writerOpened (lockFd : Fd) : Except Code Writer → Prog (Except Code Writer)
  | .error code => do
      call (.closeLock lockFd)
      return .error code
  | .ok w => do
      let pid ← call .getpid
      storeBytes w.file Offset.writerPid (Memory.bytes32 pid)
      return .ok w

theorem leads_psmsgrStateWriterOpen {build : Build} {environment : Option (List Char)}
    {name : Option (List Char)} {opt : Option Options} {o : Options} (turns : Nat)
    (loaded : loadOptions build.abi opt = .ok o) (named : nameValid name = true)
    (unused : ∀ fd, world.fds fd = none) :
    ∃ lockFd ino, (psmsgrStateWriterOpen build environment (turns + 1) name opt).Leads
      (execGranted thread) world (openData build o lockFd >>= writerOpened lockFd)
      (world.locked thread lockFd ino) := by
  obtain ⟨lockFd, ino, locks⟩ := @runs_lockChannel thread world o.mode turns unused
  let locked := world.locked thread lockFd ino
  have enough : execGranted thread .malloc world true world := ⟨rfl, rfl⟩
  have paths : (pathsInit environment o.dir (name.getD [])).Runs (execGranted thread) world
      (.ok (pathsOf environment o.dir (name.getD []))) world :=
    (runs_call enough).bind ⟨rfl, rfl⟩
  have lists : execGranted thread .readdir locked none locked := ⟨rfl, trivial⟩
  have tidied : (removeStaleTmp (pathsOf environment o.dir (name.getD []))).Runs
      (execGranted thread) locked () locked := (runs_call lists).bind ⟨rfl, rfl⟩
  refine ⟨lockFd, ino, ?_⟩
  unfold psmsgrStateWriterOpen
  rw [loaded]
  dsimp only
  rw [named]
  refine (paths.leads _).trans (((runs_call enough).leads _).trans ((locks.leads _).trans
    ((tidied.leads _).trans ?_)))
  exact .refl _ _

theorem runs_psmsgrStateWriterOpen {build : Build} {environment : Option (List Char)}
    {name : Option (List Char)} {opt : Option Options} {o : Options} {suffix : Suffix}
    (turns : Nat) (loaded : loadOptions build.abi opt = .ok o) (named : nameValid name = true)
    (unused : ∀ fd, world.fds fd = none) (absent : world.disk.data = none)
    (free : world.disk.tmp suffix = none) :
    ∃ w after, (psmsgrStateWriterOpen build environment (turns + 1) name opt).Runs
        (execGranted thread) world (.ok w) after ∧
      Fitted w after ∧ world.Creates thread build o w after := by
  obtain ⟨lockFd, ino, locks⟩ := @leads_psmsgrStateWriterOpen thread world build environment name
    opt o turns loaded named unused
  let locked := world.locked thread lockFd ino
  let missed := locked.setLog thread { locked.log thread with found := none }
  have misses : execGranted thread .openData locked (.error .enoent) missed :=
    ⟨.inr (.inl ⟨absent, rfl, rfl⟩), nofun⟩
  have draws : execGranted thread .getrandom missed (some 1) missed := ⟨rfl, trivial⟩
  obtain ⟨w, made, creates, same, created⟩ :=
    @runs_createFile thread missed suffix build o lockFd 1 free
  have identifies : execGranted thread .getpid made 0 made := ⟨rfl, trivial⟩
  have marks := @ends_storeBytes True thread made made w.file _ _ (expects_granted thread)
    (.refl made w.file) Offset.writerPid (Memory.bytes32 0)
  obtain ⟨_, after, stores, wrote⟩ := marks.occurs
  have kept : made.Kept after := kept_of_modest (storeBytes_modest _ _ _) (stores.mono And.left)
  have generation : randomGeneration.Runs (execGranted thread) missed 1 missed :=
    (runs_call draws).bind ⟨rfl, rfl⟩
  have opened : (openData build o lockFd).Runs (execGranted thread) locked (.ok w) made :=
    (runs_call misses).bind (generation.bind creates)
  have runs := locks.runs (opened.bind ((runs_call identifies).bind (stores.bind ⟨rfl, rfl⟩)))
  have fitted : Fitted w after := (ends_psmsgrStateWriterOpen (expects_granted thread) environment
    (turns + 1) name opt ⟨fun happened _ _ => happened.2⟩
    (fun _ here => nomatch absent.symm.trans here)).runs runs
  have low : ∀ address, address < Offset.writerPid →
      (made.disk.memory w.file).write Offset.writerPid (Memory.bytes32 0) address =
        made.disk.memory w.file address :=
    fun address below => Memory.write_apply_outside (.inl below)
  refine ⟨w, after, runs, fitted, created.file, created.slotCount, created.capacity,
    created.notify, created.latest, ?_, ?_, fun file distinct => ?_, ?_, fun other awake => ?_,
    fun fd distinct => ?_, kept.publishes.trans created.publishes,
    kept.commits.trans created.commits, kept.orphaned.trans created.orphaned,
    kept.now.trans created.now, fun _ distinct => log_other_of_runs distinct runs⟩
  · rw [wrote.memory_eq, Header.ofMemory_congr fun address below =>
      low address (Nat.lt_trans below (by decide))]
    exact created.agrees
  · rw [wrote.memory_eq, Memory.word32_congr (Memory.read_congr fun address _ below =>
      low address (Nat.lt_trans below (by decide)))]
    exact created.unpublished
  · rw [wrote.files, Function.update_of_ne distinct]
    exact created.files file distinct
  · exact wrote.tmp.trans created.tmp
  · exact wrote.asleep other (created.asleep other awake)
  · rw [wrote.fds, created.fds fd distinct]
    rw [same] at distinct
    exact Function.update_of_ne distinct _ _

end

/-- Options for a channel of two slots. -/
def twoSlots (capacity : UInt32) : Options where
  structSize := 32
  capacity := capacity
  slotCount := 2
  payloadType := 0
  mode := 0o644
  flags := 0
  dir := none

theorem loadOptions_twoSlots : loadOptions .lp64 (some (twoSlots 2)) = .ok (twoSlots 2) := rfl

end PsMsgr
