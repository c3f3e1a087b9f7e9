import PsMsgr.Channel.Critical
import PsMsgr.Still.Publishing

namespace PsMsgr

open Effect Data

/-- What accesses to mapped files do to the history: what they publish is based on what the thread
found when it opened the data path. -/
structure World.Accessed (thread : Tid) (before after : World) : Prop where
  found : (after.log thread).found = (before.log thread).found
  log : ∀ other, other ≠ thread → after.log other = before.log other
  orphaned : after.disk.orphaned = before.disk.orphaned
  publishes : ∃ added, after.disk.publishes = before.disk.publishes ++ added ∧
    ∀ publish ∈ added, publish.basis = (before.log thread).found

section

variable {thread : Tid} {world : World}

theorem World.Accessed.refl (world : World) : world.Accessed thread world :=
  ⟨rfl, fun _ _ => rfl, rfl, [], (List.append_nil _).symm, fun _ member => absurd member List.not_mem_nil⟩

theorem World.Accessed.trans {first second third : World} (left : first.Accessed thread second)
    (right : second.Accessed thread third) : first.Accessed thread third := by
  obtain ⟨added, grown, based⟩ := left.publishes
  obtain ⟨more, further, basedFurther⟩ := right.publishes
  refine ⟨right.found.trans left.found,
    fun other distinct => (right.log other distinct).trans (left.log other distinct),
    right.orphaned.trans left.orphaned, added ++ more, ?_, fun publish member => ?_⟩
  · rw [further, grown, List.append_assoc]
  · rcases List.mem_append.mp member with early | late
    · exact based publish early
    · exact (basedFurther publish late).trans left.found

theorem exec_access {request : Sys} {before after : World} {reply : request.Reply}
    (access : request.Access) (executed : exec thread request before reply after) :
    before.Accessed thread after := by
  have silent (found : (after.log thread).found = (before.log thread).found)
      (orphaned : after.disk.orphaned = before.disk.orphaned)
      (publishes : after.disk.publishes = before.disk.publishes) : before.Accessed thread after :=
    ⟨found, fun _ distinct => exec_log_other distinct executed, orphaned, [],
      publishes.trans (List.append_nil _).symm, fun _ member => absurd member List.not_mem_nil⟩
  cases request with
  | load file offset =>
      obtain ⟨-, rfl⟩ := executed
      exact silent (by simp only [World.setLog, Function.update_self, Log.load_found]) rfl rfl
  | store file offset value =>
      have log := fun other distinct => @exec_log_other thread other _ _ _ _ distinct executed
      obtain rfl : after = _ := executed
      let memory := (before.disk.memory file).write offset (Memory.bytes32 value)
      have orphaned : (before.disk.store thread (before.log thread).found file offset value).orphaned =
          before.disk.orphaned := by
        unfold Disk.store
        dsimp only
        split
        · rfl
        split <;> rfl
      by_cases latest : offset = Offset.latest
      · refine ⟨rfl, log, orphaned,
          [Publish.snapshot file thread (before.log thread).found memory value], ?_,
          fun publish member => ?_⟩
        · simp only [World.own, Disk.store, if_pos latest, memory]
        · rw [List.mem_singleton.mp member]
          rfl
      · refine silent rfl orphaned ?_
        simp only [World.own, Disk.store, if_neg latest]
        split <;> rfl
  | fetchOr file offset value | fetchAdd file offset value =>
      obtain ⟨-, rfl⟩ := executed
      exact silent rfl rfl rfl
  | loadByte file offset =>
      obtain ⟨-, rfl⟩ := executed
      exact .refl _
  | storeByte file offset value | futexWake file =>
      obtain rfl : after = _ := executed
      exact silent rfl rfl rfl
  | clock which =>
      cases which with
      | monotonic =>
          obtain ⟨-, rfl⟩ := executed
          exact silent rfl rfl rfl
      | realtime =>
          obtain rfl : after = _ := executed
          exact .refl _
  | _ => exact access.elim

theorem accessed_of_always {α : Type} {program : Prog α} {result : α → Prop} {before after : World}
    {value : α} (accesses : program.Always Sys.Access result)
    (runs : program.Runs (exec thread) before value after) : before.Accessed thread after :=
  accesses.preserves (fun access executed based => based.trans (exec_access access executed)) runs
    (.refl before)

theorem stores_access (file : FileId) : Stores Sys.Access file :=
  ⟨fun _ => trivial, fun _ _ => trivial, fun _ _ => trivial, trivial, fun _ _ => trivial, trivial⟩

/-- An access has a reply at once, if the clock stands still. -/
theorem access_occurs {request : Sys} (access : request.Access) (world : World) :
    ∃ reply after, execGranted thread request world reply after ∧ after.now = world.now := by
  have done {reply : request.Reply} {after : World} (executed : exec thread request world reply after)
      (now : after.now = world.now) :
      ∃ reply after, execGranted thread request world reply after ∧ after.now = world.now :=
    ⟨reply, after, (expects_granted thread).access access executed, now⟩
  cases request with
  | load file offset | fetchOr file offset value | fetchAdd file offset value
  | loadByte file offset => exact done ⟨rfl, rfl⟩ rfl
  | store file offset value | storeByte file offset value | futexWake file =>
      exact @done () _ rfl rfl
  | clock which =>
      cases which with
      | monotonic => exact @done world.now _ ⟨UInt64.le_refl _, rfl⟩ rfl
      | realtime => exact @done (0 : UInt64) world rfl rfl
  | _ => exact access.elim

/-- As long as only the files are looked at, the thread remembers what it found there. -/
theorem runs_looking {α : Type} {program : Prog α} {value : α}
    (evaluates : program.eval world.disk.answer = some value)
    (found : (world.log thread).found = world.disk.found) :
    ∃ after, program.Runs (execGranted thread) world value after ∧ after.disk = world.disk ∧
      (after.log thread).found = world.disk.found := by
  have loads : ∀ {log : Log} file offset, log.found = world.disk.found →
      (log.load world.disk file offset).found = world.disk.found :=
    fun file offset found => (Log.load_found _ _ _).trans found
  obtain ⟨after, runs, disk, -, found⟩ := @runs_answered _ thread world program value
    (fun log => log.found = world.disk.found) loads (fun _ => rfl) evaluates found
  exact ⟨after, runs, disk, found⟩

/-- The file at the data path is complete, and `latest` names one of its slots. -/
structure Disk.Valued (disk : Disk) (file : FileId) : Prop where
  named : disk.data = some file
  accepted : disk.Accepted file
  published : (disk.memory file).word32 Offset.latest ≠ psmiLatestNone
  valid : psmiLatestValid ((disk.memory file).word32 Offset.latest)
    (Header.ofMemory (disk.memory file)).slotCount = true

/-- The generation in the slot `latest` names. -/
def latestGeneration (memory : Memory) : UInt32 :=
  memory.word32 (slotOffset (memory.word32 Offset.slotStride)
    (psmiLatestSlot (memory.word32 Offset.latest)) + Offset.generation)

/-- What `open_data` makes of such a file once it has looked at it. -/
def openValued (build : Build) (o : Options) (lockFd : Fd) (file : FileId) (memory : Memory) :
    Prog (Except Code Writer) :=
  let h := Header.ofMemory memory
  openChecked build o lockFd file h true (toSize (psmiFileSize h.slotCount h.slotStride).toNat)
    (psmiLatestSlot (memory.word32 Offset.latest)) (nextGeneration (latestGeneration memory))

theorem Disk.Valued.slot_ne_none {disk : Disk} {file : FileId} (valued : disk.Valued file) :
    psmiLatestSlot ((disk.memory file).word32 Offset.latest) ≠ psmiLatestNone := by
  obtain ⟨g, count, -, -, -⟩ := Geometry.of_headerValid valued.accepted.2
  have few := g.le_sixteen
  intro none
  rcases psmiLatestValid_iff.mp valued.valid with absent | ⟨-, below⟩
  · exact valued.published absent
  · rw [none, count] at below
    exact absurd (Nat.lt_of_lt_of_le below few) (by decide)

theorem eval_carriedGeneration {disk : Disk} {file : FileId} {stride latest : UInt32}
    (published : latest ≠ psmiLatestNone) :
    (carriedGeneration file stride latest).eval disk.answer = some (nextGeneration
      ((disk.memory file).word32 (slotOffset stride latest + Offset.generation))) := by
  rw [carriedGeneration, if_neg published, Program.eval_bind, loadWord, Program.eval_bind,
    eval_loadBytes]
  rfl

theorem leads_openData {build : Build} {o : Options} {lockFd : Fd} {file : FileId}
    (valued : world.disk.Valued file) :
    ∃ after, (openData build o lockFd).Leads (execGranted thread) world
        (openValued build o lockFd file (world.disk.memory file)) after ∧
      after.disk = world.disk ∧ (after.log thread).found = world.disk.found := by
  let memory := world.disk.memory file
  let h := Header.ofMemory memory
  let opened := world.setLog thread
    { world.log thread with found := lastIndex file world.disk.publishes }
  obtain ⟨regular, valid⟩ := valued.accepted
  obtain ⟨g, count, stride, -, -⟩ := Geometry.of_headerValid valid
  have opens : execGranted thread .openData world (.ok file) opened :=
    ⟨.inl ⟨file, valued.named, rfl, rfl⟩, ok_ne_other _⟩
  have found : (opened.log thread).found = opened.disk.found := by
    simp only [opened, World.setLog, Function.update_self, Disk.found, valued.named,
      Option.bind_some]
  have header : (readHeader file).eval opened.disk.answer =
      some (.ok, (world.disk.files file).size, h) := by
    rw [eval_readHeader, if_pos ⟨regular, headerValid_size valid⟩]
    rfl
  obtain ⟨read, reads, disk₁, found₁⟩ := runs_looking header found
  let size := toSize (psmiFileSize h.slotCount h.slotStride).toNat
  have nonzero : size ≠ 0 := by
    have above := g.slot_ge g.count
    change toSize (psmiFileSize (Header.ofMemory (world.disk.memory file)).slotCount
      (Header.ofMemory (world.disk.memory file)).slotStride).toNat ≠ 0
    rw [count, stride, g.toSize_fileSize]
    omega
  have maps : execGranted thread (.mmap file size) read (.ok ()) read := ⟨.inl ⟨rfl, rfl⟩, ok_ne_other _⟩
  have closes : execGranted thread (.close file) read () read := ⟨rfl, trivial⟩
  let i := psmiLatestSlot (memory.word32 Offset.latest)
  obtain ⟨loaded, loads, disk₂, found₂⟩ := @runs_looking thread read _ (call (.load file Offset.latest))
    (memory.word32 Offset.latest) (by rw [disk₁]; rfl) (found₁.trans (by rw [disk₁]))
  obtain ⟨after, carries, disk₃, found₃⟩ := @runs_looking thread loaded _
    (carriedGeneration file h.slotStride i)
    (nextGeneration (memory.word32 (slotOffset h.slotStride i + Offset.generation))) (by
      rw [disk₂, disk₁]
      exact eval_carriedGeneration valued.slot_ne_none) (found₂.trans (by rw [disk₂]))
  refine ⟨after, ?_, ?_, ?_⟩
  · refine ((runs_call opens).leads _).trans ((reads.leads _).trans ?_)
    dsimp only
    rw [if_neg (by decide)]
    have checked : (Code.ok == Code.ok && headerValid h (world.disk.files file).size) = true := valid
    rw [checked, if_pos rfl, mapData, if_pos nonzero]
    refine ((runs_call maps).leads _).trans (((runs_call closes).leads _).trans ?_)
    rw [openMapped, if_pos rfl]
    refine (loads.leads _).trans ?_
    have named : (true && psmiLatestValid (memory.word32 Offset.latest) h.slotCount) = true :=
      valued.valid
    dsimp only
    rw [named, if_pos valued.published, if_pos rfl]
    exact carries.leads _
  · rw [disk₃, disk₂, disk₁]
    rfl
  · rw [found₃, disk₂, disk₁]
    rfl

theorem eval_openValued {disk : Disk} {build : Build} {o : Options} {lockFd : Fd} {file : FileId}
    (active : ¬ disk.Retired file)
    (agrees : Header.Agrees build o (Header.ofMemory (disk.memory file))) :
    let h := Header.ofMemory (disk.memory file)
    (openValued build o lockFd file (disk.memory file)).eval disk.answer =
      some (.ok (writerAttach lockFd file (toSize (psmiFileSize h.slotCount h.slotStride).toNat)
        h.slotCount h.slotStride h.capacity h.configFlags
        (psmiLatestSlot ((disk.memory file).word32 Offset.latest))
        (nextGeneration (latestGeneration (disk.memory file))))) := by
  intro h
  have unretired : ¬ ((disk.memory file).word32 Offset.state &&& psmiStateRetired != 0) = true := by
    simpa only [Disk.Retired, bne_iff_ne] using active
  have same : ¬ (decide (h.capacity ≠ o.capacity) || decide (h.slotCount ≠ o.slotCount) ||
      decide (h.payloadType ≠ o.payloadType) || decide (h.configFlags ≠ configFlagsOf o)) = true := by
    simp [h, agrees.capacity, agrees.slotCount, agrees.payloadType, agrees.configFlags]
  rw [openValued, openChecked]
  dsimp only
  rw [if_neg (by decide), eval_call_bind _ rfl, if_neg unretired, if_neg same,
    if_neg (not_not.mpr agrees.minor)]
  rfl

/-- A writer that opens a channel with a value of its options takes up the file, and goes on from
the generation of the slot `latest` names, whatever the slots hold. -/
theorem runs_psmsgrStateWriterOpen_valued {build : Build} {environment : Option (List Char)}
    {name : Option (List Char)} {opt : Option Options} {o : Options} {file : FileId} (turns : Nat)
    (loaded : loadOptions build.abi opt = .ok o) (named : nameValid name = true)
    (unused : ∀ fd, world.fds fd = none) (valued : world.disk.Valued file)
    (old : file < world.disk.fresh) (active : ¬ world.disk.Retired file)
    (agrees : Header.Agrees build o (Header.ofMemory (world.disk.memory file))) :
    ∃ w after, (psmsgrStateWriterOpen build environment (turns + 1) name opt).Runs
        (execGranted thread) world (.ok w) after ∧
      Fitted w after ∧ w.file = file ∧
      (Reader.attachedTo file (Header.ofMemory (world.disk.memory file))).Matches w ∧
      w.gen = nextGeneration (latestGeneration (world.disk.memory file)) ∧
      after.disk.publishes = world.disk.publishes ∧
      (after.log thread).found = world.disk.found := by
  obtain ⟨lockFd, ino, locks⟩ := @leads_psmsgrStateWriterOpen thread world build environment name
    opt o turns loaded named unused
  let locked := world.locked thread lockFd ino
  obtain ⟨looked, looks, disk, found⟩ := @leads_openData thread locked build o lockFd file valued
  obtain ⟨opened, accepts, disk', found'⟩ := @runs_looking thread looked _
    (openValued build o lockFd file (world.disk.memory file)) _
    (by rw [disk]; exact eval_openValued active agrees) (found.trans (by rw [disk]))
  rw [disk] at disk' found'
  have identifies : execGranted thread .getpid opened 0 opened := ⟨rfl, trivial⟩
  have marks := @ends_storeBytes True thread opened opened file _ _ (expects_granted thread)
    (.refl opened file) Offset.writerPid (Memory.bytes32 0)
  obtain ⟨_, after, stores, wrote⟩ := marks.occurs
  have accessed : opened.Accessed thread after :=
    accessed_of_always ((stores_access file).storeBytes _ _) (stores.mono And.left)
  have kept : opened.Kept after := kept_of_modest (storeBytes_modest _ _ _) (stores.mono And.left)
  have runs := locks.runs ((looks.runs accepts).bind
    ((runs_call identifies).bind (stores.bind ⟨rfl, rfl⟩)))
  have fitted := (ends_psmsgrStateWriterOpen (expects_granted thread) environment (turns + 1) name
    opt ⟨fun happened _ _ => happened.2⟩ fun other here => by
      obtain rfl := Option.some.inj (valued.named.symm.trans here)
      exact old).runs runs
  refine ⟨_, after, runs, fitted, rfl, ⟨rfl, rfl, rfl⟩, rfl, kept.publishes.trans ?_,
    accessed.found.trans found'⟩
  rw [disk']
  rfl

theorem Fitted.valued {w : Writer} {gen len : UInt32} {bytes : List UInt8} (fitted : Fitted w world)
    (offers : world.disk.Offers w.file gen len bytes) :
    world.disk.Valued w.file ∧ latestGeneration (world.disk.memory w.file) = gen := by
  obtain ⟨i, publish, current, bound, inside, -, rfl, -, -⟩ :=
    fitted.current offers fitted.attached
  refine ⟨⟨fitted.data, fitted.accepted, ?_, ?_⟩, ?_⟩
  · rw [current.named]
    exact psmiLatest_ne_none _ bound
  · rw [current.named]
    exact psmiLatestValid_psmiLatest _ bound (UInt32.lt_iff_toNat_lt.mp inside)
  · rw [latestGeneration, current.named, psmiLatestSlot_psmiLatest _ bound]
    exact current.holds.generation

end

/-- A file of two slots of one counter, of which `latest` names the first one, with a 7 in it. -/
def sampleMemory (latest seq : UInt32) : Memory :=
  (((((headerMemory ⟨.lp64, 0⟩ (twoSlots 2) 0 (fun _ => 0)).write
    Offset.latest (Memory.bytes32 latest)).write
    128 (Memory.bytes32 seq)).write
    192 (Memory.bytes32 seq)).write
    (128 + Offset.generation) (Memory.bytes32 1)).write
    (128 + Offset.length) (Memory.bytes32 1) |>.write
    (128 + Offset.payload) [7]

/-- A directory with one file, and no process has done anything. -/
def World.holding (memory : Memory) : World :=
  { World.empty with
    disk :=
      { World.empty.disk with
        data := some 0
        files := Function.update World.empty.disk.files 0 ⟨true, 256, memory⟩
        fresh := 1 } }

end PsMsgr
