import PsMsgr.Channel.Creation
import PsMsgr.Channel.Publishing

namespace PsMsgr

open Effect Discipline Data

variable {thread : Tid} {fd : Fd} {file : FileId} {P : Assertion}

/-- In the critical section, before the session's first publish. -/
structure Starting (thread : Tid) (disk : Disk) (marks : Marks) (found : Option Nat) : Prop where
  idle : marks = Marks.none
  unpublished : ∀ publish ∈ disk.publishes, publish.writer ≠ thread

theorem triple_unlinkTmp (suffix : Suffix)
    (ignores : ∀ {disk marks found tmp}, P disk marks found → P { disk with tmp } marks found) :
    channel.Triple thread (Inside thread fd P) (call (.unlinkTmp suffix))
      (fun _ => Inside thread fd P) := by
  refine Triple.call (fun _ => Inside.stable) ?_
  intro state reply later inv inside executed
  rcases executed with ⟨-, -, rfl⟩ | ⟨-, -, rfl⟩ | ⟨-, rfl⟩
  · obtain ⟨valid, evolves, silent⟩ := (Disk.private_tmp
      (Function.update state.disk.tmp suffix none)).quiet inv.disk
    exact ⟨guarantee_silent inv inside.ne_none valid evolves silent,
      inside.own (ignores inside.holds)⟩
  · exact ⟨guarantee_same inv, inside⟩
  · exact ⟨guarantee_same inv, inside⟩

theorem triple_removeStaleTmp (p : Paths)
    (ignores : ∀ {disk marks found tmp}, P disk marks found → P { disk with tmp } marks found) :
    channel.Triple thread (Inside thread fd P) (removeStaleTmp p)
      (fun _ => Inside thread fd P) := by
  have each : ∀ entries, channel.Triple thread (Inside thread fd P)
      (unlinkStale p.dataBase entries) (fun _ => Inside thread fd P) := by
    intro entries
    induction entries with
    | nil => exact Triple.done (fun _ inside => inside)
    | cons entry entries ih =>
        unfold unlinkStale
        split
        · exact ih
        · exact (triple_unlinkTmp _ ignores).bind fun _ => ih
  refine (triple_skip .readdir trivial Inside.stable).bind fun entries => ?_
  cases entries with
  | none => exact Triple.done (fun _ inside => inside)
  | some entries => exact each entries

theorem triple_randomGeneration :
    channel.Triple thread (Inside thread fd P) randomGeneration
      (fun gen => Inside thread fd (fun disk marks found => gen ≠ 0 ∧ P disk marks found)) := by
  have nonzero : ∀ g : UInt32, (if (g != 0) = true then g else 1) ≠ 0 := by
    intro g
    split
    · next different => exact bne_iff_ne.mp different
    · decide
  have returned : ∀ g : UInt32, channel.Triple thread (Inside thread fd P)
      (.done (if (g != 0) = true then g else 1))
      (fun gen => Inside thread fd (fun disk marks found => gen ≠ 0 ∧ P disk marks found)) :=
    fun g => Triple.done (fun inv inside => inside.imp (fun _ holds => ⟨nonzero g, holds⟩) inv)
  unfold randomGeneration
  refine (triple_skip .getrandom trivial Inside.stable).bind fun random => ?_
  cases random with
  | some g => exact returned g
  | none =>
      refine triple_clock.bind fun _ => ?_
      refine (triple_skip (.clock .realtime) trivial Inside.stable).bind fun _ => ?_
      exact (triple_skip .getpid trivial Inside.stable).bind fun _ => returned _

/-- The first generation of a session: any but 0, or the one after the value it found. -/
theorem Session.start {publishes : List Publish} {found : Option Nat} {gen : UInt32}
    (unpublished : ∀ publish ∈ publishes, publish.writer ≠ thread) (nonzero : gen ≠ 0)
    (follows : ∀ {index}, found = some index → index + 1 = publishes.length ∧
      ∀ {last}, publishes[index]? = some last → gen = nextGeneration last.generation) :
    Session thread found gen publishes where
  nonzero := nonzero
  follows := by
    intro last final related
    rcases related with own | here
    · exact absurd own (unpublished last (List.mem_of_getLast? final))
    · refine (follows here).2 ?_
      rw [← List.getLast?_eq_getElem?]
      exact final
  last := fun here own => absurd own (unpublished _ (List.mem_of_getElem? here))
  basis := fun _ _ here => (follows here).1

/-- In `create_file`, before the rename. -/
structure Creating (thread : Tid) (old : Option FileId) (gen : UInt32) (disk : Disk)
    (marks : Marks) (found : Option Nat) : Prop where
  idle : marks = Marks.none
  unpublished : ∀ publish ∈ disk.publishes, publish.writer ≠ thread
  session : Session thread found gen disk.publishes
  data : disk.data = old

/-- The new file under its temporary name. -/
structure Draft (suffix : Suffix) (file : FileId) (size : Nat) (memory : Memory) (disk : Disk) :
    Prop where
  tmp : disk.tmp suffix = some file
  absent : disk.installed file = false
  known : file < disk.fresh
  newest : ∀ other, disk.installed other = true → other < file
  file : disk.files file = ⟨true, size, memory⟩

section

variable {old : Option FileId} {gen : UInt32} {suffix : Suffix} {size : Nat} {memory : Memory}
  {disk after : Disk} {marks : Marks} {found : Option Nat}

theorem Creating.hidden (creating : Creating thread old gen disk marks found)
    (hidden : disk.Private after) : Creating thread old gen after marks found := by
  refine ⟨creating.idle, ?_, ?_, hidden.data.trans creating.data⟩
  · rw [hidden.publishes]
    exact creating.unpublished
  · rw [hidden.publishes]
    exact creating.session

theorem Creating.starting (creating : Creating thread old gen disk marks found) :
    Starting thread disk marks found :=
  ⟨creating.idle, creating.unpublished⟩

/-- Drafting: the memory of the new file is as given. -/
def Drafting (thread : Tid) (old : Option FileId) (gen : UInt32) (suffix : Suffix) (file : FileId)
    (size : Nat) (memory : Memory) : Assertion :=
  fun disk marks found => Creating thread old gen disk marks found ∧
    Draft suffix file size memory disk

theorem Drafting.storeByte {address : Nat} (byte : UInt8) (inv : DiskInv disk)
    (drafting : Drafting thread old gen suffix file size memory disk marks found) :
    (DiskInv (disk.storeByte file address byte) ∧ disk.Evolves (disk.storeByte file address byte) ∧
      disk.Silent (disk.storeByte file address byte)) ∧
    Drafting thread old gen suffix file size (Function.update memory address byte)
      (disk.storeByte file address byte) marks found := by
  obtain ⟨creating, draft⟩ := drafting
  have hidden := Disk.private_storeByte address byte draft.absent
  refine ⟨hidden.quiet inv, creating.hidden hidden, draft.tmp, draft.absent, draft.known,
    draft.newest, ?_⟩
  simp only [Disk.storeByte, Disk.setMemory, Function.update_self, Disk.memory, draft.file]

theorem triple_draft {offset : Nat} {bytes : List UInt8} :
    channel.Triple thread (Inside thread fd (Drafting thread old gen suffix file size memory))
      (storeBytes file offset bytes)
      (fun _ => Inside thread fd
        (Drafting thread old gen suffix file size (memory.write offset bytes))) :=
  triple_storeBytes (fun _ => True)
    (fun byte _ inv drafting => drafting.storeByte byte inv) (fun _ _ _ => trivial)

theorem triple_mkostemp :
    channel.Triple thread (Inside thread fd (Creating thread old gen)) (call .mkostemp)
      (fun reply => match reply with
        | .ok (suffix, file) => Inside thread fd
            (Drafting thread old gen suffix file 0 (fun _ => 0))
        | .error _ => Inside thread fd (Creating thread old gen)) := by
  refine Triple.call ?_ ?_
  · intro reply
    cases reply with
    | ok pair => exact Inside.stable
    | error err => exact Inside.stable
  · intro state reply later inv inside executed
    rcases executed with ⟨suffix, -, rfl, rfl⟩ | ⟨rfl, rfl⟩
    · have hidden := Disk.private_create inv.disk suffix
      obtain ⟨valid, evolves, silent⟩ := hidden.quiet inv.disk
      refine ⟨guarantee_silent inv inside.ne_none valid evolves silent,
        inside.own ⟨inside.holds.hidden hidden, ?_, ?_, Nat.lt_succ_self _, ?_, ?_⟩⟩
      · exact Function.update_self _ _ _
      · cases present : state.disk.installed state.disk.fresh with
        | false => exact present
        | true => exact absurd (inv.disk.fresh present) (Nat.lt_irrefl _)
      · exact fun other here => inv.disk.fresh here
      · exact Function.update_self _ _ _
    · exact ⟨guarantee_same inv, inside⟩

theorem triple_fallocate :
    channel.Triple thread (Inside thread fd (Drafting thread old gen suffix file 0 memory))
      (call (.fallocate file size))
      (fun reply => match reply with
        | .ok _ => Inside thread fd (Drafting thread old gen suffix file size memory)
        | .error _ => Inside thread fd (Drafting thread old gen suffix file 0 memory)) := by
  refine Triple.call ?_ ?_
  · intro reply
    cases reply with
    | ok _ => exact Inside.stable
    | error err => exact Inside.stable
  · intro state reply later inv inside executed
    obtain ⟨creating, draft⟩ := inside.holds
    rcases executed with ⟨rfl, rfl⟩ | ⟨rfl, rfl⟩
    · have hidden := Disk.private_allocate size draft.absent
      obtain ⟨valid, evolves, silent⟩ := hidden.quiet inv.disk
      refine ⟨guarantee_silent inv inside.ne_none valid evolves silent,
        inside.own ⟨creating.hidden hidden, draft.tmp, draft.absent, draft.known, draft.newest, ?_⟩⟩
      simp only [Disk.allocate, Function.update_self, draft.file, Nat.zero_max]
    · exact ⟨guarantee_same inv, inside⟩

theorem triple_storeHeader (build : Build) (o : Options) :
    channel.Triple thread (Inside thread fd (Drafting thread old gen suffix file size memory))
      (storeHeader build o (psmiSlotStride o.capacity) file)
      (fun _ => Inside thread fd (fun disk marks found => ∃ created,
        Drafting thread old gen suffix file size (headerMemory build o created memory)
          disk marks found)) := by
  unfold storeHeader
  refine triple_draft.bind fun _ => triple_draft.bind fun _ => triple_draft.bind fun _ => ?_
  refine triple_draft.bind fun _ => triple_draft.bind fun _ => triple_draft.bind fun _ => ?_
  refine triple_draft.bind fun _ => triple_draft.bind fun _ => triple_draft.bind fun _ => ?_
  refine triple_draft.bind fun _ => triple_draft.bind fun _ => ?_
  refine (triple_skip (.clock .realtime) trivial Inside.stable).bind fun created => ?_
  exact triple_draft.weaken (fun inv inside => inside.imp (fun _ drafting => ⟨created, drafting⟩) inv)

/-- Whatever failed, the temporary file is removed and nothing else has changed. -/
theorem triple_createFail (mapped : Bool) :
    channel.Triple thread (Inside thread fd (Drafting thread old gen suffix file size memory))
      (createFail suffix file mapped)
      (fun result => Inside thread fd (fun disk marks found =>
        result = .error .sys ∧ Starting thread disk marks found)) := by
  have removed : channel.Triple thread
      (Inside thread fd (Drafting thread old gen suffix file size memory))
      (do
        call (.close file)
        let _ ← call (.unlinkTmp suffix)
        return .error .sys)
      (fun (result : Except Code Writer) => Inside thread fd (fun disk marks found =>
        result = .error .sys ∧ Starting thread disk marks found)) := by
    refine (triple_skip (.close file) trivial Inside.stable).bind fun _ => ?_
    refine triple_imp ?_ (fun _ drafting => drafting.1.starting)
    refine (triple_unlinkTmp suffix ?_).bind fun _ => ?_
    · exact fun starting => ⟨starting.idle, starting.unpublished⟩
    · exact Triple.done (fun inv inside =>
        inside.imp (fun _ starting => ⟨rfl, starting⟩) inv)
  unfold createFail
  split
  · exact (triple_skip (.munmap file) trivial Inside.stable).bind fun _ => removed
  · exact removed

/-- The new file is at the data path. -/
structure Installed (thread : Tid) (build : Build) (o : Options) (g : Geometry) (gen : UInt32)
    (file : FileId) (disk : Disk) (found : Option Nat) : Prop where
  data : disk.data = some file
  valid : (disk.image file).Valid g
  empty : (disk.image file).history = []
  agrees : Header.Agrees build o (Header.ofMemory (disk.memory file))
  session : Session thread found gen disk.publishes

theorem Installed.closed {build : Build} {o : Options} {g : Geometry} :
    Closed (Installed thread build o g gen file) := by
  intro disk after found inv kept installed
  have here := (inv.data installed.data).1
  have header := Header.ofMemory_congr (kept.evolves.image here).header
  refine ⟨kept.data.trans installed.data, kept.valid installed.valid, ?_, ?_, ?_⟩
  · simp only [Disk.image, kept.publishes]
    exact installed.empty
  · rw [show Header.ofMemory (after.memory file) = _ from header]
    exact installed.agrees
  · rw [kept.publishes]
    exact installed.session

/-- The rename: from here on the old file is displaced. -/
theorem guarantee_install {before : World} {g : Geometry} (suffix : Suffix) (inv : Inv before)
    (inside : before.crit thread ≠ none) (owed : before.marks thread = Marks.none)
    (absent : before.disk.installed file = false) (known : file < before.disk.fresh)
    (newest : ∀ other, before.disk.installed other = true → other < file)
    (valid : (before.disk.image file).Valid g) (active : ¬ before.disk.Retired file) :
    channel.Guarantee thread before
      (before.own thread (before.disk.install suffix file) ⟨none, before.disk.data⟩) := by
  obtain ⟨inv', evolves⟩ := Disk.install_step suffix inv.disk absent known newest
    valid active
  have cases : ∀ {other}, (before.disk.install suffix file).installed other = true →
      other = file ∨ (other ≠ file ∧ before.disk.installed other = true) := by
    intro other present
    by_cases same : other = file
    · exact .inl same
    · refine .inr ⟨same, ?_⟩
      change Function.update before.disk.installed file true other = true at present
      rw [Function.update_of_ne same] at present
      exact present
  refine guarantee_own inv inside inv' evolves (.inl rfl) ?_ ?_
  · rw [owed]
    intro settled
    constructor
    · intro other present notifying
      rcases cases present with rfl | ⟨-, older⟩
      · obtain ⟨-, stores, notifies⟩ := inv.disk.unused absent
        exact .inr (.inl ⟨nofun, stores.trans notifies.symm⟩)
      · exact settled.counted older notifying
    · intro other present gone
      rcases cases present with rfl | ⟨-, older⟩
      · exact absurd rfl gone
      · by_cases current : before.disk.data = some other
        · exact .inr (.inr current)
        · rcases settled.displaced older current with retired | abandoned | displacing
          · exact .inl retired
          · exact .inr (.inl abandoned)
          · exact nomatch displacing
  · rw [owed]
    exact fun _ _ calm => calm

/-- After the rename, with the old file still to be retired. -/
def Displacing (thread : Tid) (build : Build) (o : Options) (g : Geometry) (gen : UInt32)
    (file : FileId) (old : Option FileId) : Assertion :=
  fun disk marks found => marks = ⟨none, old⟩ ∧
    (∀ {other}, old = some other → disk.installed other = true ∧ disk.data ≠ some other) ∧
    Installed thread build o g gen file disk found

theorem triple_renameTmp {build : Build} {o : Options} {created : UInt64} (valid : o.Valid)
    (whole : size = toSize (psmiFileSize o.slotCount (psmiSlotStride o.capacity)).toNat) :
    channel.Triple thread
      (Inside thread fd (Drafting thread old gen suffix file size
        (headerMemory build o created (fun _ => 0))))
      (call (.renameTmp suffix))
      (fun reply => match reply with
        | .ok _ => Inside thread fd (Displacing thread build o (o.geometry valid) gen file old)
        | .error _ => Inside thread fd (Drafting thread old gen suffix file size
            (headerMemory build o created (fun _ => 0)))) := by
  refine Triple.call ?_ ?_
  · intro reply
    cases reply with
    | ok _ => exact Inside.stable
    | error err => exact Inside.stable
  · intro state reply later inv inside executed
    obtain ⟨creating, draft⟩ := inside.holds
    rcases executed with ⟨other, here, rfl, rfl⟩ | ⟨missing, rfl, rfl⟩ | ⟨rfl, rfl⟩
    · obtain rfl : file = other := Option.some.inj (draft.tmp.symm.trans here)
      obtain ⟨commits, -, notifies⟩ := inv.disk.unused draft.absent
      have history : (state.disk.image file).history = [] := by
        refine List.filter_eq_nil_iff.mpr (fun publish member => ?_)
        have present := inv.disk.published publish member
        simp only [decide_eq_true_eq]
        rintro rfl
        exact nomatch present.symm.trans draft.absent
      have memory : (state.disk.image file).memory = headerMemory build o created (fun _ => 0) :=
        congrArg File.bytes draft.file
      obtain ⟨complete, active⟩ := created_valid valid memory (congrArg File.regular draft.file)
        ((congrArg File.size draft.file).trans whole) commits notifies history
      have guarantee := guarantee_install suffix inv inside.ne_none creating.idle
        draft.absent draft.known draft.newest complete active
      rw [creating.idle]
      refine ⟨guarantee, inside.own ⟨?_, ?_, rfl, complete, history, ?_, creating.session⟩⟩
      · rw [creating.data]
        rfl
      · intro displaced named
        have present := (inv.disk.data (creating.data.trans named)).1
        have evolves := (Disk.install_step suffix inv.disk draft.absent draft.known draft.newest
          complete active).2
        refine ⟨evolves.installed present, fun current => ?_⟩
        obtain rfl : file = displaced := Option.some.inj current
        exact nomatch present.symm.trans draft.absent
      · change Header.Agrees build o (Header.ofMemory (state.disk.image file).memory)
        rw [memory]
        exact headerMemory_agrees
    · exact nomatch missing.symm.trans draft.tmp
    · exact ⟨guarantee_same inv, inside⟩

theorem triple_retireOld {build : Build} {o : Options} {g : Geometry} :
    channel.Triple thread (Inside thread fd (Displacing thread build o g gen file old))
      (retireOld old)
      (fun _ => Inside thread fd (fun disk marks found =>
        marks = Marks.none ∧ Installed thread build o g gen file disk found)) := by
  cases old with
  | none =>
      exact Triple.done (fun inv inside =>
        inside.imp (fun _ displacing => ⟨displacing.1, displacing.2.2⟩) inv)
  | some old =>
      refine triple_imp (triple_retire Installed.closed) (fun _ displacing => ?_)
      obtain ⟨here, gone⟩ := displacing.2.1 rfl
      exact ⟨displacing.1, here, gone, displacing.2.2⟩

theorem Installed.owned {build : Build} {o : Options} {g : Geometry} {disk : Disk}
    {found : Option Nat} {mapSize : Nat}
    (installed : Installed thread build o g gen file disk found) :
    Owned thread (writerAttach fd file mapSize g.slotCount g.slotStride g.capacity
      (configFlagsOf o) psmiLatestNone gen) disk.publishes disk Marks.none found := by
  refine ⟨g, ⟨rfl, ⟨installed.data, installed.valid, rfl, rfl, rfl, ?_, ?_⟩, installed.session,
    rfl⟩, .inl rfl⟩
  · unfold Disk.NoNotify
    change (configFlagsOf o &&& psmiConfigNoNotify == 0) = true ↔ _
    change _ ↔ ¬ (disk.memory file).word32 Offset.configFlags &&& psmiConfigNoNotify ≠ 0
    rw [show (disk.memory file).word32 Offset.configFlags = _ from installed.agrees.configFlags,
      beq_iff_eq, not_not]
  · change psmiLatestNone = if (disk.image file).history = [] then _ else _
    rw [if_pos installed.empty]

/-- The writer owns a file that agrees with the options. -/
def Agreed (thread : Tid) (build : Build) (o : Options) (w : Writer) : Assertion :=
  fun disk marks found => Owned thread w disk.publishes disk marks found ∧
    Header.Agrees build o (Header.ofMemory (disk.memory w.file))

/-- Why there is no writer: a mismatch is one, and no file is corrupt. -/
structure Refused (o : Options) (code : Code) (disk : Disk) : Prop where
  mismatch : code = .mismatch → o.flags &&& psmsgrStateRecreate = 0 ∧ ∃ file,
    disk.data = some file ∧ Header.Differs o (Header.ofMemory (disk.memory file))
  intact : code ≠ .format

theorem Refused.sys {o : Options} {disk : Disk} : Refused o .sys disk := ⟨nofun, nofun⟩

/-- What opening the data file comes to. -/
def OpenResult (thread : Tid) (build : Build) (o : Options) (lockFd : Fd)
    (result : Except Code Writer) : World → Prop :=
  match result with
  | .ok w => fun world => (w.lockFd = lockFd ∧ w.openSlot = psmiLatestNone) ∧
      Inside thread lockFd (Agreed thread build o w) world
  | .error code => Inside thread lockFd (fun disk marks found =>
      Starting thread disk marks found ∧ Refused o code disk)

theorem triple_createFile {build : Build} {o : Options} (valid : o.Valid) :
    channel.Triple thread (Inside thread fd (Creating thread old gen))
      (createFile build o fd old gen) (OpenResult thread build o fd) := by
  have failed : channel.Triple thread (Inside thread fd (Creating thread old gen))
      (.done (.error .sys)) (OpenResult thread build o fd) :=
    Triple.done (fun inv inside => inside.imp (fun _ creating => ⟨creating.starting, .sys⟩) inv)
  have undone : ∀ {suffix file size memory} (mapped : Bool), channel.Triple thread
      (Inside thread fd (Drafting thread old gen suffix file size memory))
      (createFail suffix file mapped) (OpenResult thread build o fd) := by
    intro suffix file size memory mapped
    refine (triple_createFail mapped).weaken (fun {result _} inv inside => ?_)
    obtain ⟨rfl, starting⟩ := inside.holds
    exact ⟨inside.crit, inside.asleep, inside.fds, starting, .sys⟩
  unfold createFile
  refine (triple_skip .malloc trivial Inside.stable).bind fun enough => ?_
  split
  · exact failed
  refine triple_mkostemp.bind fun reply => ?_
  cases reply with
  | error err => exact failed
  | ok pair =>
      obtain ⟨suffix, file⟩ := pair
      refine (triple_skip (.fchmod file o.mode) trivial Inside.stable).bind fun changed => ?_
      cases changed with
      | error err => exact undone false
      | ok _ =>
          refine triple_fallocate.bind fun allocated => ?_
          cases allocated with
          | error err => exact undone false
          | ok _ =>
              refine (triple_skip (.mmap file _) trivial Inside.stable).bind fun mapped => ?_
              cases mapped with
              | error err => exact undone false
              | ok _ =>
                  refine (triple_storeHeader build o).bind fun _ => triple_of_exists fun created => ?_
                  refine (triple_renameTmp valid rfl).bind fun renamed => ?_
                  cases renamed with
                  | error err => exact undone true
                  | ok _ =>
                      refine (triple_skip (.close file) trivial Inside.stable).bind fun _ => ?_
                      refine triple_retireOld.bind fun _ => ?_
                      refine (triple_loadWord _).bind fun slotCount => ?_
                      refine (triple_loadWord _).bind fun slotStride => ?_
                      refine (triple_loadWord _).bind fun capacity => ?_
                      refine (triple_loadWord _).bind fun configFlags => ?_
                      refine Triple.done (fun inv inside => ⟨⟨rfl, rfl⟩, inside.imp ?_ inv⟩)
                      rintro disk marks found - ⟨⟨⟨⟨⟨rfl, installed⟩, rfl⟩, rfl⟩, rfl⟩, rfl⟩
                      have shape := installed.valid.shape
                      have flags : (disk.memory file).word32 Offset.configFlags = _ :=
                        installed.agrees.configFlags
                      change Shape (disk.memory file) _ at shape
                      rw [shape.slotCount, shape.slotStride, shape.capacity, flags]
                      exact ⟨installed.owned, installed.agrees⟩

end

theorem OpenResult.stable {build : Build} {o : Options} (result : Except Code Writer) :
    channel.Stable thread (OpenResult thread build o fd result) := by
  cases result with
  | ok w => exact stable_and stable_pure Inside.stable
  | error code => exact Inside.stable

/-- The data path names this file, whose last value is the one found. -/
structure Found (thread : Tid) (file : FileId) (disk : Disk) (marks : Marks)
    (found : Option Nat) : Prop where
  starting : Starting thread disk marks found
  data : disk.data = some file
  last : found = lastIndex file disk.publishes

theorem triple_openDataCall :
    channel.Triple thread (Inside thread fd (Starting thread)) (call .openData)
      (fun reply => match reply with
        | .ok file => Inside thread fd (Found thread file)
        | .error err => Inside thread fd (fun disk marks found =>
            Starting thread disk marks found ∧
            (err = .enoent → disk.data = none ∧ found = none))) := by
  refine Triple.call ?_ ?_
  · intro reply
    cases reply with
    | ok file => exact Inside.stable
    | error err => exact Inside.stable
  · intro state reply later inv inside executed
    have quiet := (quiet_openData executed).1
    have awake : later.asleep thread = none := by
      rw [(quiet_openData executed).2.1]
      exact inside.asleep
    have seen : ∀ found, ((state.setLog thread { state.log thread with found := found }).log
        thread).found = found := by
      intro found
      change (Function.update state.log thread _ thread).found = found
      rw [Function.update_self]
    have starting := inside.holds
    have guarantee := quiet.guarantee_awake inv awake
    rcases executed with ⟨file, named, rfl, rfl⟩ | ⟨absent, rfl, rfl⟩ | ⟨rfl, rfl⟩
    · refine ⟨guarantee, inside.quiet quiet awake ?_⟩
      rw [seen]
      exact ⟨⟨starting.idle, starting.unpublished⟩, named, rfl⟩
    · refine ⟨guarantee, inside.quiet quiet awake ?_⟩
      rw [seen]
      exact ⟨⟨starting.idle, starting.unpublished⟩, fun _ => ⟨absent, rfl⟩⟩
    · exact ⟨guarantee, inside.imp (fun _ starting => ⟨starting, nofun⟩) inv⟩

/-- The word `latest` of a complete file passes its check, and names the slot of the last
publish. -/
theorem Image.Valid.latest {x : Image} {g : Geometry} (valid : x.Valid g) :
    psmiLatestValid (x.memory.word32 Offset.latest) g.slotCount = true ∧
      (if x.memory.word32 Offset.latest ≠ psmiLatestNone then
          psmiLatestSlot (x.memory.word32 Offset.latest)
        else x.memory.word32 Offset.latest) =
        if x.history = [] then psmiLatestNone else UInt32.ofNat (x.current g) := by
  have published := valid.published
  unfold Image.Published at published
  cases last : x.history.getLast? with
  | none =>
      rw [last] at published
      have empty : x.history = [] := List.getLast?_eq_none_iff.mp last
      dsimp only at published
      rw [published, if_pos empty]
      exact ⟨psmiLatestValid_iff.mpr (.inl rfl), if_neg (not_not.mpr rfl)⟩
  | some publish =>
      rw [last] at published
      have nonempty : x.history ≠ [] := by
        intro empty
        rw [empty] at last
        exact nomatch last
      have below := Image.current_lt (x := x) (g := g)
      have small := slotIndex_toNat below
      have most := g.le_sixteen
      have bound : (UInt32.ofNat (x.current g)).toNat < 16 := by
        rw [small]
        exact Nat.lt_of_lt_of_le below most
      dsimp only at published
      rw [published.1, if_neg nonempty, if_pos (psmiLatest_ne_none _ bound),
        psmiLatestSlot_psmiLatest _ bound]
      exact ⟨psmiLatestValid_psmiLatest _ bound (by rw [small]; exact below), rfl⟩

/-- The file found at the data path, with its header. -/
structure Examined (thread : Tid) (file : FileId) (h : Header) (g : Geometry) (disk : Disk)
    (marks : Marks) (found : Option Nat) : Prop where
  found : Found thread file disk marks found
  valid : (disk.image file).Valid g
  header : Header.ofMemory (disk.memory file) = h

/-- A session that finds a value continues with the next generation. -/
theorem Examined.session {h : Header} {g : Geometry} {disk : Disk} {marks : Marks}
    {found : Option Nat} {gen : UInt32} (inv : DiskInv disk)
    (examined : Examined thread file h g disk marks found) (nonzero : gen ≠ 0)
    (follows : ∀ {last}, (disk.image file).history.getLast? = some last →
      gen = nextGeneration last.generation) :
    Session thread found gen disk.publishes := by
  refine Session.start examined.found.starting.unpublished nonzero (fun {index} here => ?_)
  rw [examined.found.last] at here
  have newest := (inv.data examined.found.data).2.2
  refine ⟨lastIndex_newest inv.ordered
    (fun publish member => newest _ (inv.published publish member)) here, fun {last} named => ?_⟩
  refine follows ?_
  change (disk.publishes.filter _).getLast? = some last
  rw [getLast?_history, here]
  exact named

theorem triple_carriedGeneration {h : Header} {g : Geometry} {latest : UInt32} :
    channel.Triple thread
      (Inside thread fd (fun disk marks found => Examined thread file h g disk marks found ∧
        latest = if (disk.image file).history = [] then psmiLatestNone
          else UInt32.ofNat ((disk.image file).current g)))
      (carriedGeneration file h.slotStride latest)
      (fun gen => Inside thread fd (fun disk marks found =>
        (Examined thread file h g disk marks found ∧
          latest = if (disk.image file).history = [] then psmiLatestNone
            else UInt32.ofNat ((disk.image file).current g)) ∧
        Session thread found gen disk.publishes)) := by
  unfold carriedGeneration
  split
  · next none =>
      refine triple_randomGeneration.weaken (fun inv inside => inside.imp ?_ inv)
      rintro disk marks found inv ⟨nonzero, examined, same⟩
      refine ⟨⟨examined, same⟩, examined.session inv nonzero (fun {last} final => ?_)⟩
      by_cases empty : (disk.image file).history = []
      · rw [empty] at final
        exact nomatch final
      · rw [if_neg empty, none] at same
        have small := slotIndex_toNat (Image.current_lt (x := disk.image file) (g := g))
        have most := g.le_sixteen
        have below := Image.current_lt (x := disk.image file) (g := g)
        rw [← same] at small
        change 4294967295 = _ at small
        unfold Geometry.count at below
        omega
  · next some =>
      refine (triple_loadWord _).bind fun generation => Triple.done (fun inv inside =>
        inside.imp ?_ inv)
      rintro disk marks found inv ⟨⟨examined, same⟩, loaded⟩
      refine ⟨⟨examined, same⟩, examined.session inv (nextGeneration_ne_zero _) (fun {last} final => ?_)⟩
      have nonempty : (disk.image file).history ≠ [] := by
        intro empty
        rw [empty] at final
        exact nomatch final
      rw [if_neg nonempty] at same
      have below := Image.current_lt (x := disk.image file) (g := g)
      have small := slotIndex_toNat below
      have published := examined.valid.published
      unfold Image.Published at published
      rw [final] at published
      have stride : h.slotStride = g.slotStride := by
        rw [← examined.header]
        exact examined.valid.shape.slotStride
      have address : slotOffset h.slotStride latest = g.slot ((disk.image file).current g) := by
        rw [stride, same, g.slotOffset_eq_slot, small]
        rw [small]
        exact Nat.le_of_lt (Nat.lt_of_lt_of_le below g.le_sixteen)
      rw [loaded, address]
      exact congrArg nextGeneration published.2.generation

/-- The file can be reused: it is complete, and the writer knows where it stands in it. -/
structure Reusable (thread : Tid) (file : FileId) (h : Header) (g : Geometry)
    (latest gen : UInt32) (disk : Disk) (marks : Marks) (found : Option Nat) : Prop where
  examined : Examined thread file h g disk marks found
  latest : latest = if (disk.image file).history = [] then psmiLatestNone
    else UInt32.ofNat ((disk.image file).current g)
  session : Session thread found gen disk.publishes

section

variable {h : Header} {g : Geometry} {latest gen : UInt32} {disk : Disk} {marks : Marks}
  {found : Option Nat} {build : Build} {o : Options} {mapSize : Nat}

theorem Reusable.creating (reusable : Reusable thread file h g latest gen disk marks found) :
    Creating thread (some file) gen disk marks found :=
  ⟨reusable.examined.found.starting.idle, reusable.examined.found.starting.unpublished,
    reusable.session, reusable.examined.found.data⟩

theorem Reusable.owned (reusable : Reusable thread file h g latest gen disk marks found) :
    Owned thread (writerAttach fd file mapSize h.slotCount h.slotStride h.capacity h.configFlags
      latest gen) disk.publishes disk marks found := by
  obtain ⟨examined, latest, session⟩ := reusable
  obtain rfl := examined.header
  have shape := examined.valid.shape
  refine ⟨g, ⟨examined.found.starting.idle, ⟨examined.found.data, examined.valid, shape.slotCount,
    shape.slotStride, shape.capacity, ?_, latest⟩, session, rfl⟩, .inl rfl⟩
  change ((disk.memory file).word32 Offset.configFlags &&& psmiConfigNoNotify == 0) = true ↔ _
  change _ ↔ ¬ (disk.memory file).word32 Offset.configFlags &&& psmiConfigNoNotify ≠ 0
  rw [beq_iff_eq, not_not]

theorem triple_openChecked (valid : o.Valid) (mapped : mapSize ≠ 0) :
    channel.Triple thread (Inside thread fd (Reusable thread file h g latest gen))
      (openChecked build o fd file h true mapSize latest gen) (OpenResult thread build o fd) := by
  have created : channel.Triple thread (Inside thread fd (Reusable thread file h g latest gen))
      (do
        let result ← createFile build o fd (some file) gen
        call (.munmap file)
        return result)
      (OpenResult thread build o fd) := by
    refine triple_imp ?_ (fun _ reusable => reusable.creating)
    refine (triple_createFile valid).bind fun result => ?_
    exact (triple_skip (.munmap file) trivial (OpenResult.stable result)).bind fun _ =>
      Triple.done (fun _ opened => opened)
  have refused (kept : ¬ (o.flags &&& psmsgrStateRecreate != 0) = true) (differs : h.Differs o) :
      channel.Triple thread (Inside thread fd (Reusable thread file h g latest gen))
      (do
        call (.munmap file)
        return .error .mismatch)
      (OpenResult thread build o fd) := by
    refine (triple_skip (.munmap file) trivial Inside.stable).bind fun _ =>
      Triple.done (fun inv inside => inside.imp (fun _ reusable => ?_) inv)
    refine ⟨reusable.creating.starting, fun _ => ⟨?_, file, reusable.examined.found.data, ?_⟩, nofun⟩
    · simpa using kept
    · rw [reusable.examined.header]
      exact differs
  unfold openChecked
  simp only [Bool.not_true, Bool.false_eq_true, if_false, if_pos mapped, Option.isSome_some, if_true]
  have loaded : channel.Triple thread (Inside thread fd (Reusable thread file h g latest gen))
      (call (.load file Offset.state))
      (fun _ => Inside thread fd (Reusable thread file h g latest gen)) :=
    (triple_load Offset.state (fun reusable => reusable.examined.found.data)).weaken
      (fun inv inside => inside.imp (fun _ holds => holds.1) inv)
  refine loaded.bind fun state => ?_
  split
  · exact created
  split
  · next differs =>
      split
      · exact created
      · next kept =>
          simp only [Bool.or_eq_true, decide_eq_true_eq, or_assoc] at differs
          exact refused kept differs
  next same =>
  split
  · exact created
  · next minor =>
      simp only [Bool.or_eq_true, decide_eq_true_eq, not_or, not_not] at same minor
      obtain ⟨⟨⟨capacity, slotCount⟩, payloadType⟩, configFlags⟩ := same
      refine Triple.done (fun inv inside => ⟨⟨rfl, rfl⟩, inside.imp (fun _ reusable => ?_) inv⟩)
      refine ⟨reusable.owned, ?_⟩
      rw [show (writerAttach _ file _ _ _ _ _ _ _).file = file from rfl]
      rw [reusable.examined.header]
      exact ⟨capacity, slotCount, payloadType, configFlags, minor⟩

theorem triple_openMapped (valid : o.Valid) (mapped : mapSize ≠ 0) :
    channel.Triple thread (Inside thread fd (Examined thread file h g))
      (openMapped build o fd file h true mapSize) (OpenResult thread build o fd) := by
  unfold openMapped
  refine (triple_load Offset.latest (fun examined => examined.found.data)).bind fun latest => ?_
  dsimp only
  have checked : ∀ {disk marks found}, Examined thread file h g disk marks found ∧
      latest = (disk.memory file).word32 Offset.latest →
      psmiLatestValid latest h.slotCount = true ∧
      (Examined thread file h g disk marks found ∧
        (if latest ≠ psmiLatestNone then psmiLatestSlot latest else latest) =
          if (disk.image file).history = [] then psmiLatestNone
          else UInt32.ofNat ((disk.image file).current g)) := by
    rintro disk marks found ⟨examined, rfl⟩
    obtain ⟨passes, slot⟩ := examined.valid.latest
    have count : h.slotCount = g.slotCount := by
      rw [← examined.header]
      exact examined.valid.shape.slotCount
    rw [count]
    exact ⟨passes, examined, slot⟩
  refine triple_imp (triple_of_fact fun passes => ?_) (fun _ holds => checked holds)
  simp only [passes, Bool.and_true, if_true]
  refine triple_carriedGeneration.bind fun gen => ?_
  exact triple_imp (triple_openChecked valid mapped)
    (fun _ holds => ⟨holds.1.1, holds.1.2, holds.2⟩)

theorem triple_of_found {α : Type} {program : Prog α} {post : α → World → Prop}
    (each : ∀ {h g size}, channel.Triple thread
      (fun world => Inside thread fd (Examined thread file h g) world ∧ Known file h size world)
      program post) :
    channel.Triple thread (Inside thread fd (Found thread file)) program post := by
  intro state inv inside
  have present := (inv.disk.data inside.holds.data).1
  obtain ⟨g, valid⟩ := inv.disk.valid present
  exact each state inv
    ⟨⟨inside.crit, inside.asleep, inside.fds, inside.holds, valid, rfl⟩, present, rfl, rfl⟩

theorem triple_openData (valid : o.Valid) :
    channel.Triple thread (Inside thread fd (Starting thread)) (openData build o fd)
      (OpenResult thread build o fd) := by
  have failed : ∀ {file h g}, channel.Triple thread (Inside thread fd (Examined thread file h g))
      (do
        call (.close file)
        return .error .sys) (OpenResult thread build o fd) :=
    (triple_skip (.close _) trivial Inside.stable).bind fun _ => Triple.done
      (fun inv inside => inside.imp (fun _ examined => ⟨examined.found.starting, .sys⟩) inv)
  unfold openData
  refine triple_openDataCall.bind fun reply => ?_
  cases reply with
  | error err =>
      cases err
      case enoent =>
        refine triple_randomGeneration.bind fun gen => ?_
        refine triple_imp (triple_createFile valid) ?_
        rintro disk marks found - ⟨nonzero, starting, absent⟩
        obtain ⟨nowhere, none⟩ := absent rfl
        refine ⟨starting.idle, starting.unpublished, ?_, nowhere⟩
        rw [none]
        exact Session.start starting.unpublished nonzero nofun
      all_goals exact Triple.done (fun inv inside =>
        inside.imp (fun _ holds => ⟨holds.1, .sys⟩) inv)
  | ok file =>
      refine triple_of_found fun {h g size} => ?_
      refine (triple_readHeader Inside.stable).bind fun result => ?_
      intro state inv holds
      obtain ⟨⟨inside, known⟩, sys | rfl⟩ := holds
      · simp only [if_pos sys]
        exact failed state inv inside
      · have complete := (known.valid inv).1
        have mapped : toSize (psmiFileSize h.slotCount h.slotStride).toNat ≠ 0 := by
          obtain ⟨g, count, stride, -, -⟩ := Geometry.of_headerValid complete
          have large := g.slot_ge g.count
          rw [count, stride, g.toSize_fileSize]
          omega
        have read : ¬ Code.ok = Code.sys := nofun
        simp only [if_neg read, complete, beq_self_eq_true, Bool.and_true, if_true]
        unfold mapData
        rw [if_pos mapped]
        refine ((triple_skip (.mmap file _) trivial Inside.stable).bind fun reply => ?_)
          state inv inside
        cases reply with
        | error err => exact failed
        | ok _ =>
            exact (triple_skip (.close file) trivial Inside.stable).bind fun _ =>
              triple_openMapped valid mapped

/-- What opening comes to: a writer in its critical section, or nothing. -/
def WriterOpened (thread : Tid) (result : Except Code Writer) : World → Prop :=
  match result with
  | .ok w => Inside thread w.lockFd (fun disk marks found =>
      Owned thread w disk.publishes disk marks found)
  | .error _ => fun world => Outside thread world ∧ Unpublished thread world

/-- The pid is for other programs to read: storing it changes nothing the writer knows. -/
theorem triple_storePid {w : Writer} (closed : w.openSlot = psmiLatestNone) (pid : UInt32) :
    channel.Triple thread
      (Inside thread fd (fun disk marks found => Owned thread w disk.publishes disk marks found))
      (storeBytes w.file Offset.writerPid (Memory.bytes32 pid))
      (fun _ => Inside thread fd (fun disk marks found =>
        Owned thread w disk.publishes disk marks found)) := by
  have stored : ∀ {address disk marks found} (byte : UInt8),
      Offset.writerPid ≤ address ∧ address < 128 → DiskInv disk →
      Owned thread w disk.publishes disk marks found →
      (DiskInv (disk.storeByte w.file address byte) ∧
        disk.Evolves (disk.storeByte w.file address byte) ∧
        disk.Silent (disk.storeByte w.file address byte)) ∧
      Owned thread w (disk.storeByte w.file address byte).publishes
        (disk.storeByte w.file address byte) marks found := by
    rintro address disk marks found byte ⟨lower, upper⟩ inv ⟨g, ready, -⟩
    have attached := ready.attached
    have effect := Disk.storeByte_pid byte inv (attached.here inv) attached.valid lower upper
    have valid : ((disk.storeByte w.file address byte).image w.file).Valid g := by
      rw [Disk.storeByte_image]
      exact (attached.valid.storePid lower upper).1
    exact ⟨effect, g, ⟨ready.idle, attached.silent inv effect.2.1 effect.2.2 valid,
      ready.session, rfl⟩, .inl closed⟩
  refine @triple_storeBytes thread fd w.file
    (fun _ disk marks found => Owned thread w disk.publishes disk marks found)
    (fun address => Offset.writerPid ≤ address ∧ address < 128) (fun {_ _ _ _ _} => stored)
    (fun _ => 0) _ _ ?_
  intro address lower upper
  simp only [Memory.bytes32_length, Offset.writerPid] at *
  omega

theorem triple_psmsgrStateWriterOpen {environment : Option (List Char)} {turns : Nat}
    {name : Option (List Char)} {opt : Option Options} :
    channel.Triple thread (fun world => Outside thread world ∧ Unpublished thread world)
      (psmsgrStateWriterOpen build environment turns name opt) (WriterOpened thread) := by
  have idle : channel.Stable thread (fun world => Outside thread world ∧ Unpublished thread world) :=
    stable_and Outside.stable Unpublished.stable
  have failed : ∀ {code : Code}, channel.Triple thread
      (fun world => Outside thread world ∧ Unpublished thread world)
      (.done (.error code)) (WriterOpened thread) :=
    Triple.done (fun _ holds => holds)
  unfold psmsgrStateWriterOpen
  split
  · exact failed
  next o loaded =>
    have valid := loadOptions_valid loaded
    split
    · exact failed
    refine (triple_pathsInit idle).bind fun paths => ?_
    cases paths with
    | error code => exact failed
    | ok p =>
        refine (triple_skip .malloc trivial idle).bind fun enough => ?_
        split
        · exact failed
        refine (triple_lockChannel Unpublished.frame o.mode turns).bind fun locked => ?_
        cases locked with
        | error code => exact failed
        | ok lockFd =>
            have starting : ∀ {world}, Inv world → LockResult thread (Unpublished thread)
                (.ok lockFd) world → Inside thread lockFd (Starting thread) world := by
              intro world _ locked
              obtain ⟨entered, unpublished⟩ := locked
              exact ⟨entered.crit, entered.asleep, entered.fds, entered.holds, unpublished⟩
            refine Triple.strengthen ?_ starting
            refine (triple_removeStaleTmp p ?_).bind fun _ => ?_
            · exact fun starting => ⟨starting.idle, starting.unpublished⟩
            refine (triple_openData valid).bind fun result => ?_
            cases result with
            | error code =>
                exact (triple_exitUnpublished (fun starting => starting.1.unpublished)).bind
                  fun _ => failed
            | ok w =>
                intro state inv opened
                obtain ⟨⟨rfl, closed⟩, inside⟩ := opened
                refine ((triple_skip .getpid trivial Inside.stable).bind fun pid => ?_)
                  state inv (inside.imp (fun _ agreed => agreed.1) inv)
                exact (triple_storePid closed pid).bind fun _ =>
                  Triple.done (fun _ inside => inside)

end

end PsMsgr
