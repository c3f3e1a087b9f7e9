import PsMsgr.Still.Reading
import PsMsgr.Still.Writing

namespace PsMsgr

open Effect Data

/-! # Opening a channel while nobody disturbs

Whatever the directory holds and whichever calls fail: a writer open that fails leaves
everything readers can see as it was, and one that succeeds leaves its caller with a handle
that fits the file at the data path.
-/

/-- Readers cannot tell `world` from `base`; `fds` are the open descriptors of lock files. -/
structure Untouched (base : World) (fds : Fd → Option Descriptor) (world : World) : Prop where
  data : world.disk.data = base.disk.data
  files : ∀ file < base.disk.fresh, world.disk.files file = base.disk.files file
  fresh : base.disk.fresh ≤ world.disk.fresh
  tmp : ∀ suffix, world.disk.tmp suffix = none ∨
    world.disk.tmp suffix = base.disk.tmp suffix
  asleep : ∀ thread, base.asleep thread = none → world.asleep thread = none
  fds : world.fds = fds

/-- The handle fits the file at the data path, which is complete and not retired. -/
structure Fitted (w : Writer) (world : World) : Prop where
  data : world.disk.data = some w.file
  accepted : world.disk.Accepted w.file
  active : ¬ world.disk.Retired w.file
  shape : ∃ g, Shape (world.disk.memory w.file) g ∧ Seated w g
  closed : w.openSlot = psmiLatestNone
  gen : w.gen ≠ 0

theorem Fitted.congr {w : Writer} {world other : World} (fitted : Fitted w world)
    (data : other.disk.data = world.disk.data) (files : other.disk.files = world.disk.files) :
    Fitted w other := by
  have memory : other.disk.memory w.file = world.disk.memory w.file := by
    rw [Disk.memory, files]
    rfl
  refine ⟨data.trans fitted.data, ?_, ?_, ?_, fitted.closed, fitted.gen⟩
  · rw [Disk.Accepted, memory, files]
    exact fitted.accepted
  · rw [Disk.Retired, memory]
    exact fitted.active
  · rw [memory]
    exact fitted.shape

/-- The temporary names the call created, from file `since` on, are removed when it tries. -/
structure Tidies (since : FileId)
    (expected : (request : Sys) → World → request.Reply → World → Prop) : Prop where
  removes : ∀ {suffix file before reply after}, expected (.unlinkTmp suffix) before reply after →
    before.disk.tmp suffix = some file → since ≤ file → reply ≠ .error .other

section

variable {thread : Tid} {base world : World} {fds : Fd → Option Descriptor}
  {expected : (request : Sys) → World → request.Reply → World → Prop}

theorem Untouched.refl (world : World) : Untouched world world.fds world :=
  ⟨rfl, fun _ _ => rfl, Nat.le_refl _, fun _ => .inr rfl, fun _ => id, rfl⟩

theorem Untouched.same {after : World} (untouched : Untouched base fds world)
    (disk : after.disk = world.disk) (asleep : after.asleep = world.asleep)
    (same : after.fds = world.fds) : Untouched base fds after := by
  refine ⟨?_, ?_, ?_, ?_, asleep ▸ untouched.asleep, same.trans untouched.fds⟩
  all_goals rw [disk]
  · exact untouched.data
  · exact untouched.files
  · exact untouched.fresh
  · exact untouched.tmp

variable (expects : Expects thread expected)

include expects

theorem ends_passive (request : Sys) (passive : request.Passive) (world : World) :
    (call request).Ends False expected (fun _ after => after = world) world :=
  ⟨False.elim, fun _ _ happened => exec_passive passive (expects.real happened)⟩

theorem ends_pathsInit (environment dir : Option (List Char)) (name : List Char) (world : World) :
    (pathsInit environment dir name).Ends False expected (fun _ after => after = world) world := by
  refine (ends_passive expects .malloc trivial world).bind ?_
  rintro enough after rfl
  split
  · rfl
  · rfl

theorem ends_closeLock {fd : Fd} (untouched : Untouched base fds world) :
    (call (.closeLock fd)).Ends False expected
      (fun _ after => Untouched base (Function.update fds fd none) after) world := by
  refine ⟨False.elim, fun _ after happened => ?_⟩
  obtain rfl := expects.real happened
  rw [← untouched.fds]
  split
  · exact ⟨untouched.data, untouched.files, untouched.fresh, untouched.tmp, untouched.asleep, rfl⟩
  · exact ⟨untouched.data, untouched.files, untouched.fresh, untouched.tmp, untouched.asleep, rfl⟩

/-- The descriptors with one more, of a lock file. -/
def Opens (base : World) (thread : Tid) (fd : Fd) (locked : Bool) (world : World) : Prop :=
  base.fds fd = none ∧
    ∃ ino, Untouched base (Function.update base.fds fd (some ⟨thread, ino, locked⟩)) world

omit expects in
theorem Untouched.opens {fd : Fd} {ino : Ino} {after : World}
    (untouched : Untouched base base.fds world) (free : world.fds fd = none)
    (disk : after.disk = world.disk) (asleep : after.asleep = world.asleep)
    (opened : after.fds = Function.update world.fds fd (some ⟨thread, ino, false⟩)) :
    Opens base thread fd false after := by
  rw [untouched.fds] at free opened
  refine ⟨free, ino, ?_, ?_, ?_, ?_, asleep ▸ untouched.asleep, opened⟩
  all_goals rw [disk]
  · exact untouched.data
  · exact untouched.files
  · exact untouched.fresh
  · exact untouched.tmp

theorem Opens.close {fd : Fd} {locked : Bool} (opens : Opens base thread fd locked world) :
    (call (.closeLock fd)).Ends False expected
      (fun _ after => Untouched base base.fds after) world := by
  obtain ⟨free, ino, untouched⟩ := opens
  refine (ends_closeLock expects untouched).mono (fun _ after closed => ?_)
  rw [Function.update_idem, ← free, Function.update_eq_self] at closed
  exact closed

theorem ends_namesInode {fd : Fd} (untouched : Untouched base fds world) :
    (namesInode fd).Ends False expected (fun _ after => Untouched base fds after) world := by
  refine (ends_passive expects (.fstatLock fd) trivial world).bind ?_
  rintro (opened | opened) after rfl
  · exact untouched
  have looked : (call .lstatLock).Ends False expected
      (fun _ later => Untouched base fds later) after := by
    refine ⟨False.elim, fun reply later happened => ?_⟩
    rcases expects.real happened with ⟨-, -, rfl⟩ | ⟨ino, -, -, ⟨fd, -, rfl⟩ | ⟨-, rfl⟩⟩ | ⟨-, rfl⟩
    · exact untouched
    · exact untouched.same rfl rfl rfl
    · exact untouched
    · exact untouched
  refine looked.bind fun named later untouched => ?_
  split
  · exact untouched
  · exact untouched
  · exact untouched

theorem Opens.namesInode {fd : Fd} {locked : Bool} (opens : Opens base thread fd locked world) :
    (namesInode fd).Ends False expected (fun _ after => Opens base thread fd locked after) world := by
  obtain ⟨free, ino, untouched⟩ := opens
  exact (ends_namesInode expects untouched).mono (fun _ _ untouched => ⟨free, ino, untouched⟩)

/-- What locking the channel comes to. -/
def LockEnd (base : World) (thread : Tid) (result : Except Code Fd) (world : World) : Prop :=
  match result with
  | .ok fd => Opens base thread fd true world
  | .error _ => Untouched base base.fds world

/-- What opening the lock file comes to. -/
def LockFileEnd (base : World) (thread : Tid) (reply : Except Errno Fd) (world : World) : Prop :=
  match reply with
  | .ok fd => Opens base thread fd false world
  | .error _ => Untouched base base.fds world

theorem ends_lockOpened {again : Prog (Except Code Fd)} {fd : Fd}
    (restarts : ∀ world, Untouched base base.fds world →
      again.Ends False expected (LockEnd base thread) world)
    (opens : Opens base thread fd false world) :
    (lockOpened again fd).Ends False expected (LockEnd base thread) world := by
  obtain ⟨free, ino, untouched⟩ := opens
  have tried : (call (.setLock fd)).Ends False expected
      (fun reply after => Opens base thread fd (Except.isOk reply) after) world := by
    refine ⟨False.elim, fun reply after happened => ?_⟩
    rcases expects.real happened with
      ⟨descriptor, opened, -, rfl, rfl⟩ | ⟨_, _, _, -, -, -, -, -, rfl | rfl, rfl⟩ | ⟨rfl, rfl⟩
    · have same := congrFun untouched.fds fd
      rw [opened, Function.update_self, Option.some.injEq] at same
      subst same
      refine ⟨free, ino, untouched.data, untouched.files, untouched.fresh, untouched.tmp,
        untouched.asleep, ?_⟩
      change Function.update world.fds fd _ = _
      rw [untouched.fds, Function.update_idem]
      rfl
    · exact ⟨free, ino, untouched⟩
    · exact ⟨free, ino, untouched⟩
    · exact ⟨free, ino, untouched⟩
  unfold lockOpened
  refine tried.bind fun reply after opens => ?_
  split
  -- two ways to say that the lock is held by someone
  iterate 2
    · refine (Opens.namesInode expects opens).bind fun current later opens => ?_
      refine (Opens.close expects opens).bind fun _ closed untouched => ?_
      split
      · exact untouched
      · exact untouched
      · exact restarts closed untouched
  · next failed => exact (Opens.close expects opens).bind fun _ _ untouched => untouched
  · refine (Opens.namesInode expects opens).bind fun current later opens => ?_
    split
    · exact opens
    · exact (Opens.close expects opens).bind fun _ _ untouched => untouched
    · exact (Opens.close expects opens).bind fun _ closed untouched => restarts closed untouched

theorem ends_lockChannel (mode : UInt32) (turns : Nat) (untouched : Untouched base base.fds world) :
    (lockChannel mode turns).Ends False expected (LockEnd base thread) world := by
  induction turns generalizing world with
  | zero => exact ⟨False.elim, fun reply => Empty.elim reply⟩
  | succ turns ih =>
      have created : (call .openLockNew).Ends False expected (LockFileEnd base thread) world := by
        refine ⟨False.elim, fun reply after happened => ?_⟩
        rcases expects.real happened with
          ⟨-, rfl, rfl⟩ | ⟨-, fd, ino, free, -, rfl, rfl⟩ | ⟨rfl, rfl⟩
        · exact untouched
        · exact untouched.opens free rfl rfl rfl
        · exact untouched
      have opened : ∀ {world}, Untouched base base.fds world →
          (call .openLock).Ends False expected (LockFileEnd base thread) world := by
        intro world untouched
        refine ⟨False.elim, fun reply after happened => ?_⟩
        rcases expects.real happened with
          ⟨-, rfl, rfl⟩ | ⟨ino, fd, -, free, rfl, rfl⟩ | ⟨rfl, rfl⟩
        · exact untouched
        · exact untouched.opens free rfl rfl rfl
        · exact untouched
      rw [lockChannel]
      refine created.bind fun reply after held => ?_
      split
      · next fd =>
          refine (ends_passive expects (.fchmodLock fd mode) trivial after).bind ?_
          rintro moded later rfl
          split
          · exact (Opens.close expects held).bind fun _ _ untouched => untouched
          · exact ends_lockOpened expects (fun _ untouched => ih untouched) held
      · refine (opened held).bind fun reply later held => ?_
        split
        · exact ih held
        · exact held
        · exact ends_lockOpened expects (fun _ untouched => ih untouched) held
      · exact held

theorem ends_unlinkTmp (suffix : Suffix) (untouched : Untouched base fds world) :
    (call (.unlinkTmp suffix)).Ends False expected
      (fun _ after => Untouched base fds after) world := by
  refine ⟨False.elim, fun reply after happened => ?_⟩
  rcases expects.real happened with ⟨-, rfl, rfl⟩ | ⟨-, rfl, rfl⟩ | ⟨rfl, rfl⟩
  · refine ⟨untouched.data, untouched.files, untouched.fresh, fun other => ?_,
      untouched.asleep, untouched.fds⟩
    by_cases same : other = suffix
    · rw [same]
      exact .inl (Function.update_self _ _ _)
    · have kept : Function.update world.disk.tmp suffix none other = world.disk.tmp other :=
        Function.update_of_ne same _ _
      exact (untouched.tmp other).imp kept.trans kept.trans
  · exact untouched
  · exact untouched

theorem ends_removeStaleTmp (p : Paths) (untouched : Untouched base fds world) :
    (removeStaleTmp p).Ends False expected (fun _ after => Untouched base fds after) world := by
  have stale : ∀ entries {world}, Untouched base fds world →
      (unlinkStale p.dataBase entries).Ends False expected
        (fun _ after => Untouched base fds after) world := by
    intro entries
    induction entries with
    | nil => exact fun untouched => untouched
    | cons entry entries ih =>
        intro world untouched
        rw [unlinkStale]
        split
        · exact ih untouched
        · exact (ends_unlinkTmp expects _ untouched).bind fun _ _ untouched => ih untouched
  unfold removeStaleTmp
  refine (ends_passive expects .readdir trivial world).bind ?_
  rintro listed after rfl
  split
  · exact untouched
  · exact stale _ untouched

theorem ends_randomGeneration (untouched : Untouched base fds world) :
    randomGeneration.Ends False expected
      (fun gen after => gen ≠ 0 ∧ Untouched base fds after) world := by
  have nonzero : ∀ g : UInt32, (if g != 0 then g else 1) ≠ 0 := by
    intro g
    split
    · next set => exact bne_iff_ne.mp set
    · decide
  unfold randomGeneration
  refine (ends_passive expects .getrandom trivial world).bind ?_
  rintro drawn after rfl
  split
  · exact ⟨nonzero _, untouched⟩
  have ticked : (call (.clock .monotonic)).Ends False expected
      (fun _ later => Untouched base fds later) after := by
    refine ⟨False.elim, fun now later happened => ?_⟩
    obtain ⟨-, rfl⟩ := expects.real happened
    exact untouched.same rfl rfl rfl
  refine ticked.bind fun monotonic later untouched => ?_
  refine (ends_passive expects (.clock .realtime) trivial later).bind ?_
  rintro realtime later rfl
  refine (ends_passive expects .getpid trivial later).bind ?_
  rintro pid later rfl
  exact ⟨nonzero _, untouched⟩

/-- A file of the call's own is under construction. -/
structure Drafted (base : World) (fds : Fd → Option Descriptor) (suffix : Suffix) (file : FileId)
    (size : Nat) (memory : Memory) (world : World) : Prop where
  data : world.disk.data = base.disk.data
  files : ∀ file < base.disk.fresh, world.disk.files file = base.disk.files file
  own : base.disk.fresh ≤ file ∧ file < world.disk.fresh
  others : ∀ other, other ≠ suffix → world.disk.tmp other = none ∨
    world.disk.tmp other = base.disk.tmp other
  tmp : world.disk.tmp suffix = some file
  file : world.disk.files file = ⟨true, size, memory⟩
  asleep : ∀ thread, base.asleep thread = none → world.asleep thread = none
  fds : world.fds = fds

omit expects in
theorem Drafted.wrote {suffix : Suffix} {file : FileId} {size : Nat} {memory other : Memory}
    {after : World} (drafted : Drafted base fds suffix file size memory world)
    (wrote : world.Wrote file other after) : Drafted base fds suffix file size other after where
  data := wrote.data.trans drafted.data
  files := by
    intro old before
    have distinct : old ≠ file := Nat.ne_of_lt (Nat.lt_of_lt_of_le before drafted.own.1)
    rw [wrote.files, Function.update_of_ne distinct]
    exact drafted.files old before
  own := ⟨drafted.own.1, by rw [wrote.fresh]; exact drafted.own.2⟩
  others := by
    rw [wrote.tmp]
    exact drafted.others
  tmp := by
    rw [wrote.tmp]
    exact drafted.tmp
  file := by rw [wrote.file_eq, drafted.file]
  asleep := fun thread awake => wrote.asleep thread (drafted.asleep thread awake)
  fds := wrote.fds.trans drafted.fds

theorem ends_mkostemp (untouched : Untouched base fds world) :
    (call .mkostemp).Ends False expected (fun reply after =>
      match reply with
      | .ok (suffix, file) => Drafted base fds suffix file 0 (fun _ => 0) after
      | .error _ => Untouched base fds after) world := by
  refine ⟨False.elim, fun reply after happened => ?_⟩
  rcases expects.real happened with ⟨suffix, unused, rfl, rfl⟩ | ⟨rfl, rfl⟩
  · refine ⟨untouched.data, fun old before => ?_, ⟨untouched.fresh, Nat.lt_succ_self _⟩,
      fun other distinct => ?_, Function.update_self _ _ _, Function.update_self _ _ _,
      untouched.asleep, untouched.fds⟩
    · have distinct : old ≠ world.disk.fresh :=
        Nat.ne_of_lt (Nat.lt_of_lt_of_le before untouched.fresh)
      exact (Function.update_of_ne distinct _ _).trans (untouched.files old before)
    · have kept : (world.disk.create suffix).tmp other = world.disk.tmp other :=
        Function.update_of_ne distinct _ _
      exact (untouched.tmp other).imp kept.trans kept.trans
  · exact untouched

section Create

variable {suffix : Suffix} {file : FileId} {size : Nat} {memory : Memory}

theorem ends_createFail (tidies : Tidies base.disk.fresh expected) (mapped : Bool)
    (drafted : Drafted base fds suffix file size memory world) :
    (createFail suffix file mapped).Ends False expected
      (fun result after => result = .error .sys ∧ Untouched base fds after) world := by
  have removed : (call (.unlinkTmp suffix)).Ends False expected
      (fun _ after => Untouched base fds after) world := by
    refine ⟨False.elim, fun reply after happened => ?_⟩
    have honest := tidies.removes happened drafted.tmp drafted.own.1
    rcases expects.real happened with ⟨-, rfl, rfl⟩ | ⟨gone, -, -⟩ | ⟨rfl, -⟩
    · refine ⟨drafted.data, drafted.files,
        Nat.le_of_lt (Nat.lt_of_le_of_lt drafted.own.1 drafted.own.2), fun other => ?_,
        drafted.asleep, drafted.fds⟩
      by_cases same : other = suffix
      · rw [same]
        exact .inl (Function.update_self _ _ _)
      · have kept : Function.update world.disk.tmp suffix none other = world.disk.tmp other :=
          Function.update_of_ne same _ _
        exact (drafted.others other same).imp kept.trans kept.trans
    · exact nomatch drafted.tmp.symm.trans gone
    · exact absurd rfl honest
  have closes : (do
      call (.close file)
      let _ ← call (.unlinkTmp suffix)
      return .error .sys : Prog (Except Code Writer)).Ends False expected
      (fun result after => result = .error .sys ∧ Untouched base fds after) world := by
    refine (ends_passive expects (.close file) trivial world).bind ?_
    rintro _ after rfl
    exact removed.bind fun _ _ untouched => ⟨rfl, untouched⟩
  unfold createFail
  split
  · refine (ends_passive expects (.munmap file) trivial world).bind ?_
    rintro _ after rfl
    exact closes
  · exact closes

theorem ends_storeHeader {total : Prop} (build : Build) (o : Options)
    (wrote : base.Wrote file memory world) :
    (storeHeader build o (psmiSlotStride o.capacity) file).Ends total expected
      (fun _ after => ∃ created, base.Wrote file (headerMemory build o created memory) after) world := by
  unfold storeHeader
  iterate 11 refine (ends_storeBytes expects (by assumption) _ _).bind fun _ after wrote => ?_
  refine (ends_clock expects wrote _).bind fun created after wrote => ?_
  exact (ends_storeBytes expects wrote _ _).mono (fun _ _ wrote => ⟨created, wrote⟩)

/-- The new file is at the data path. -/
structure Made (fds : Fd → Option Descriptor) (file : FileId) (size : Nat) (memory : Memory)
    (world : World) : Prop where
  data : world.disk.data = some file
  file : world.disk.files file = ⟨true, size, memory⟩
  fds : world.fds = fds

omit expects in
theorem Made.wrote {other : FileId} {contents : Memory} {after : World}
    (made : Made fds file size memory world) (wrote : world.Wrote other contents after)
    (distinct : file ≠ other) : Made fds file size memory after where
  data := wrote.data.trans made.data
  file := by
    rw [wrote.files, Function.update_of_ne distinct]
    exact made.file
  fds := wrote.fds.trans made.fds

theorem ends_retireOld {old : Option FileId} (made : Made fds file size memory world)
    (older : ∀ other, old = some other → file ≠ other) :
    (retireOld old).Ends False expected
      (fun _ after => Made fds file size memory after) world := by
  cases old with
  | none => exact made
  | some other =>
      unfold retireOld retire
      refine (ends_fetchOr expects (.refl world other) _ _).bind fun _ after wrote => ?_
      refine (ends_fetchAdd expects wrote _ _).bind fun _ after wrote => ?_
      exact (ends_futexWake expects wrote _).mono
        (fun _ _ wrote => made.wrote wrote (older other rfl))

theorem Made.loadWord (made : Made fds file size memory world) (offset : Nat) :
    (loadWord file offset).Ends False expected
      (fun value after => value = memory.word32 offset ∧ Made fds file size memory after) world := by
  have here : world.disk.memory file = memory := by rw [Disk.memory, made.file]
  refine (ends_loadWord expects (.refl world file) offset).mono ?_
  rintro value after ⟨rfl, wrote⟩
  rw [here] at wrote ⊢
  refine ⟨rfl, wrote.data.trans made.data, ?_, wrote.fds.trans made.fds⟩
  rw [wrote.file_eq, made.file]

/-- What creating or opening the data file comes to. -/
def OpenEnd (base : World) (fds : Fd → Option Descriptor) (result : Except Code Writer)
    (world : World) : Prop :=
  match result with
  | .ok w => Fitted w world ∧ world.fds = fds
  | .error _ => Untouched base fds world

omit expects in
theorem Made.fitted {build : Build} {o : Options} {created : UInt64} {lockFd : Fd} {gen : UInt32}
    (valid : o.Valid)
    (made : Made fds file (toSize (psmiFileSize o.slotCount (psmiSlotStride o.capacity)).toNat)
      (headerMemory build o created (fun _ => 0)) world) (nonzero : gen ≠ 0) :
    Fitted (writerAttach lockFd file size o.slotCount (psmiSlotStride o.capacity) o.capacity
      (configFlagsOf o) psmiLatestNone gen) world := by
  let x : Image := ⟨true, toSize (psmiFileSize o.slotCount (psmiSlotStride o.capacity)).toNat,
    headerMemory build o created (fun _ => 0), fun _ => 0, 0, 0, []⟩
  have complete : x.Valid (o.geometry valid) ∧ ¬ x.Retired :=
    created_valid valid rfl rfl rfl rfl rfl rfl
  have memory : world.disk.memory file = x.memory := by rw [Disk.memory, made.file]
  refine ⟨made.data, ?_, ?_, ⟨o.geometry valid, ?_, rfl, rfl, rfl, .inl rfl⟩, rfl, nonzero⟩
  · have accepted := complete.1.header
    unfold Disk.Accepted
    change (world.disk.files file).regular = true ∧
      headerValid (Header.ofMemory (world.disk.memory file)) (world.disk.files file).size = true
    rw [memory, made.file]
    exact ⟨rfl, accepted⟩
  · unfold Disk.Retired
    change ¬ (world.disk.memory file).word32 Offset.state &&& psmiStateRetired ≠ 0
    rw [memory]
    exact complete.2
  · change Shape (world.disk.memory file) (o.geometry valid)
    rw [memory]
    exact complete.1.shape

theorem ends_fallocate (size : Nat) (drafted : Drafted base fds suffix file 0 memory world) :
    (call (.fallocate file size)).Ends False expected (fun reply after =>
      match reply with
      | .ok _ => Drafted base fds suffix file size memory after
      | .error _ => Drafted base fds suffix file 0 memory after) world := by
  refine ⟨False.elim, fun reply after happened => ?_⟩
  rcases expects.real happened with ⟨rfl, rfl⟩ | ⟨rfl, rfl⟩
  · refine ⟨drafted.data, fun old before => ?_, drafted.own, drafted.others, drafted.tmp, ?_,
      drafted.asleep, drafted.fds⟩
    · have distinct : old ≠ file := Nat.ne_of_lt (Nat.lt_of_lt_of_le before drafted.own.1)
      exact (Function.update_of_ne distinct _ _).trans (drafted.files old before)
    · refine (Function.update_self _ _ _).trans ?_
      rw [drafted.file, Nat.zero_max]
  · exact drafted

theorem ends_renameTmp (drafted : Drafted base fds suffix file size memory world) :
    (call (.renameTmp suffix)).Ends False expected (fun reply after =>
      match reply with
      | .ok _ => Made fds file size memory after
      | .error _ => Drafted base fds suffix file size memory after) world := by
  refine ⟨False.elim, fun reply after happened => ?_⟩
  rcases expects.real happened with ⟨named, here, rfl, rfl⟩ | ⟨-, rfl, rfl⟩ | ⟨rfl, rfl⟩
  · obtain rfl := Option.some.inj (drafted.tmp.symm.trans here)
    exact ⟨rfl, drafted.file, drafted.fds⟩
  · exact drafted
  · exact drafted

theorem ends_createFile {build : Build} {o : Options} {lockFd : Fd} {old : Option FileId}
    {gen : UInt32} (tidies : Tidies base.disk.fresh expected) (valid : o.Valid)
    (nonzero : gen ≠ 0) (older : ∀ other, old = some other → other < base.disk.fresh)
    (untouched : Untouched base fds world) :
    (createFile build o lockFd old gen).Ends False expected (OpenEnd base fds) world := by
  unfold createFile
  refine (ends_passive expects .malloc trivial world).bind ?_
  rintro enough world rfl
  split
  · exact untouched
  refine (ends_mkostemp expects untouched).bind fun reply world held => ?_
  split
  · exact held
  next suffix file =>
  have drafted : Drafted base fds suffix file 0 (fun _ => 0) world := held
  dsimp only
  have failed : ∀ {size memory mapped world}, Drafted base fds suffix file size memory world →
      (createFail suffix file mapped).Ends False expected (OpenEnd base fds) world := by
    intro size memory mapped world drafted
    refine (ends_createFail expects tidies mapped drafted).mono ?_
    rintro result after ⟨rfl, untouched⟩
    exact untouched
  refine (ends_passive expects (.fchmod file o.mode) trivial world).bind ?_
  rintro moded world rfl
  split
  · exact failed drafted
  refine (ends_fallocate expects _ drafted).bind fun reply world held => ?_
  split
  · exact failed held
  refine (ends_passive expects (.mmap file _) trivial world).bind ?_
  rintro mapped world rfl
  split
  · exact failed held
  refine (ends_storeHeader expects build o (.refl world file)).bind ?_
  rintro _ world ⟨created, wrote⟩
  rw [Disk.memory, held.file] at wrote
  refine (ends_renameTmp expects (Drafted.wrote held wrote)).bind fun reply world held => ?_
  split
  · exact failed held
  refine (ends_passive expects (.close file) trivial world).bind ?_
  rintro _ world rfl
  have newer : ∀ other, old = some other → file ≠ other := by
    intro other replaced
    exact Nat.ne_of_gt (Nat.lt_of_lt_of_le (older other replaced) drafted.own.1)
  refine (ends_retireOld expects held newer).bind fun _ world made => ?_
  refine (Made.loadWord expects made _).bind ?_
  rintro slotCount world ⟨rfl, made⟩
  refine (Made.loadWord expects made _).bind ?_
  rintro slotStride world ⟨rfl, made⟩
  refine (Made.loadWord expects made _).bind ?_
  rintro capacity world ⟨rfl, made⟩
  refine (Made.loadWord expects made _).bind ?_
  rintro configFlags world ⟨rfl, made⟩
  have header : Header.ofMemory (headerMemory build o created (fun _ => 0)) = _ :=
    headerMemory_header
  have count := congrArg Header.slotCount header
  have stride := congrArg Header.slotStride header
  have capacity := congrArg Header.capacity header
  have flags := congrArg Header.configFlags header
  simp only [Header.ofMemory] at count stride capacity flags
  rw [count, stride, capacity, flags]
  exact ⟨made.fitted valid nonzero, made.fds⟩

end Create

omit expects in
theorem Untouched.memory {file : FileId} (untouched : Untouched base fds world)
    (old : file < base.disk.fresh) : world.disk.memory file = base.disk.memory file := by
  rw [Disk.memory, Disk.memory, untouched.files file old]

theorem Untouched.load {file : FileId} (untouched : Untouched base fds world)
    (old : file < base.disk.fresh) (offset : Nat) :
    (call (.load file offset)).Ends False expected
      (fun value after => value = (base.disk.memory file).word32 offset ∧
        Untouched base fds after) world := by
  refine ⟨False.elim, fun value after happened => ?_⟩
  obtain ⟨rfl, rfl⟩ := expects.real happened
  rw [← untouched.memory old]
  exact ⟨rfl, untouched.same rfl rfl rfl⟩

theorem Untouched.loadWord {file : FileId} (untouched : Untouched base fds world)
    (offset : Nat) :
    (loadWord file offset).Ends False expected (fun _ after => Untouched base fds after) world := by
  refine (ends_loadWord expects (.refl world file) offset).mono ?_
  rintro value after ⟨-, wrote⟩
  have files : after.disk.files = world.disk.files :=
    wrote.files.trans (Function.update_eq_self file world.disk.files)
  refine ⟨wrote.data.trans untouched.data, ?_, ?_, ?_,
    fun thread awake => wrote.asleep thread (untouched.asleep thread awake),
    wrote.fds.trans untouched.fds⟩
  · rw [files]
    exact untouched.files
  · rw [wrote.fresh]
    exact untouched.fresh
  · rw [wrote.tmp]
    exact untouched.tmp

/-- The file at the data path, with the verdict on its header. -/
structure Existing (base : World) (file : FileId) (h : Header) (valid : Bool) : Prop where
  data : base.disk.data = some file
  old : file < base.disk.fresh
  header : valid = true → base.disk.Accepted file ∧ h = Header.ofMemory (base.disk.memory file)

section Reuse

variable {build : Build} {o : Options} {lockFd : Fd} {file : FileId} {h : Header} {valid : Bool}

theorem ends_readHeader (untouched : Untouched base fds world) (data : base.disk.data = some file)
    (old : file < base.disk.fresh) :
    (readHeader file).Ends False expected (fun found after =>
      Untouched base fds after ∧
        Existing base file found.2.2 (found.1 == .ok && headerValid found.2.2 found.2.1)) world := by
  unfold readHeader
  have stat : (call (.fstat file)).Ends False expected (fun reply after => after = world ∧
      ∀ st, reply = .ok st →
        st = ⟨(base.disk.files file).regular, (base.disk.files file).size⟩) world := by
    refine ⟨False.elim, fun reply after happened => ?_⟩
    rcases expects.real happened with ⟨rfl, rfl⟩ | ⟨rfl, rfl⟩
    · rw [← untouched.files file old]
      exact ⟨rfl, fun st same => (Except.ok.inj same).symm⟩
    · exact ⟨rfl, nofun⟩
  refine stat.bind ?_
  rintro reply after ⟨rfl, status⟩
  split
  · exact ⟨untouched, data, old, nofun⟩
  next st =>
  obtain rfl := status st rfl
  split
  · exact ⟨untouched, data, old, nofun⟩
  next complete =>
  have pread : (call (.pread file 0 psmiHeaderSize.toNat)).Ends False expected
      (fun reply later => later = after ∧ ∀ bytes, reply = .ok bytes →
        bytes = (base.disk.memory file).read 0
          (min psmiHeaderSize.toNat ((base.disk.files file).size - 0))) after := by
    refine ⟨False.elim, fun reply later happened => ?_⟩
    rcases expects.real happened with ⟨rfl, rfl⟩ | ⟨rfl, rfl⟩
    · rw [← untouched.files file old, ← untouched.memory old]
      exact ⟨rfl, fun bytes same => (Except.ok.inj same).symm⟩
    · exact ⟨rfl, nofun⟩
  refine pread.bind ?_
  rintro reply later ⟨rfl, contents⟩
  split
  · exact ⟨untouched, data, old, nofun⟩
  next bytes =>
  obtain rfl := contents bytes rfl
  split
  · next whole =>
      refine ⟨untouched, data, old, fun accepted => ?_⟩
      rw [Memory.read_length] at whole
      simp only [whole] at accepted ⊢
      have header : Header.ofBytes ((base.disk.memory file).read 0 psmiHeaderSize.toNat) =
        Header.ofMemory (base.disk.memory file) := Header.ofBytes_read _
      rw [header, beq_self_eq_true, Bool.true_and] at accepted
      simp only [Bool.or_eq_true, Bool.not_eq_true', not_or, Bool.not_eq_false] at complete
      exact ⟨⟨complete.1, accepted⟩, header⟩
  · exact ⟨untouched, data, old, nofun⟩

omit expects in
theorem Existing.fitted {latest gen : UInt32} {mapSize : Nat} (found : Existing base file h true)
    (untouched : Untouched base fds world) (active : ¬ base.disk.Retired file)
    (index : latest = psmiLatestNone ∨ latest.toNat < h.slotCount.toNat) (nonzero : gen ≠ 0) :
    Fitted (writerAttach lockFd file mapSize h.slotCount h.slotStride h.capacity h.configFlags
      latest gen) world := by
  obtain ⟨accepted, rfl⟩ := found.header rfl
  obtain ⟨g, count, stride, capacity, -⟩ := Geometry.of_headerValid accepted.2
  have same := untouched.files file found.old
  refine ⟨untouched.data.trans found.data, ?_, ?_, ⟨g, ?_, count, stride, capacity, ?_⟩, rfl, nonzero⟩
  · unfold Disk.Accepted Disk.memory at *
    change (world.disk.files file).regular = true ∧
      headerValid (Header.ofMemory (world.disk.files file).bytes) (world.disk.files file).size = true
    rw [same]
    exact accepted
  · unfold Disk.Retired at *
    change ¬ (world.disk.memory file).word32 Offset.state &&& psmiStateRetired ≠ 0
    rw [untouched.memory found.old]
    exact active
  · change Shape (world.disk.memory file) g
    rw [untouched.memory found.old]
    exact ⟨count, stride, capacity⟩
  · rw [Geometry.count, ← count]
    exact index

theorem ends_openChecked {latest gen : UInt32} {mapSize : Nat}
    (tidies : Tidies base.disk.fresh expected) (allowed : o.Valid)
    (found : Existing base file h valid)
    (index : valid = true → latest = psmiLatestNone ∨ latest.toNat < h.slotCount.toNat)
    (nonzero : gen ≠ 0) (untouched : Untouched base fds world) :
    (openChecked build o lockFd file h valid mapSize latest gen).Ends False expected
      (OpenEnd base fds) world := by
  have unmap : ∀ {result world}, OpenEnd base fds result world →
      (do
        if (if mapSize ≠ 0 then some file else none).isSome then
          call (.munmap file)
        return result : Prog (Except Code Writer)).Ends False expected (OpenEnd base fds) world := by
    intro result world ends
    split
    · refine (ends_passive expects (.munmap file) trivial world).bind ?_
      rintro _ after rfl
      exact ends
    · exact ends
  have create : ∀ {world}, Untouched base fds world →
      (do
        let result ← createFile build o lockFd (if mapSize ≠ 0 then some file else none) gen
        if (if mapSize ≠ 0 then some file else none).isSome then
          call (.munmap file)
        return result : Prog (Except Code Writer)).Ends False expected (OpenEnd base fds) world := by
    intro world untouched
    have older : ∀ other, (if mapSize ≠ 0 then some file else none) = some other →
        other < base.disk.fresh := by
      intro other replaced
      split at replaced
      · obtain rfl := Option.some.inj replaced
        exact found.old
      · exact nomatch replaced
    exact (ends_createFile expects tidies allowed nonzero older untouched).bind
      fun result after ends => unmap ends
  unfold openChecked
  dsimp only
  split
  · split
    · exact create untouched
    · exact unmap untouched
  next checked =>
  obtain rfl : valid = true := by simpa using checked
  refine (untouched.load expects found.old _).bind ?_
  rintro state world ⟨rfl, untouched⟩
  split
  · exact create untouched
  next active =>
  split
  · split
    · exact create untouched
    · exact unmap untouched
  split
  · exact create untouched
  · exact ⟨found.fitted untouched (by simpa [Disk.Retired] using active) (index rfl) nonzero,
      untouched.fds⟩

theorem ends_carriedGeneration {stride latest : UInt32} (untouched : Untouched base fds world) :
    (carriedGeneration file stride latest).Ends False expected
      (fun gen after => gen ≠ 0 ∧ Untouched base fds after) world := by
  unfold carriedGeneration
  split
  · exact ends_randomGeneration expects untouched
  · exact (untouched.loadWord expects _).bind
      fun _ _ untouched => ⟨nextGeneration_ne_zero _, untouched⟩

theorem ends_openMapped {mapSize : Nat} (tidies : Tidies base.disk.fresh expected)
    (allowed : o.Valid) (found : Existing base file h valid) (untouched : Untouched base fds world) :
    (openMapped build o lockFd file h valid mapSize).Ends False expected
      (OpenEnd base fds) world := by
  have refused : ∀ {index world}, Untouched base fds world → (do
      let gen ← randomGeneration
      openChecked build o lockFd file h false mapSize index gen :
        Prog (Except Code Writer)).Ends False expected (OpenEnd base fds) world := by
    intro index world untouched
    refine (ends_randomGeneration expects untouched).bind ?_
    rintro gen world ⟨nonzero, untouched⟩
    have checked : Existing base file h false := ⟨found.data, found.old, nofun⟩
    exact ends_openChecked expects tidies allowed checked nofun nonzero untouched
  unfold openMapped
  cases valid with
  | false => exact refused untouched
  | true =>
      refine (untouched.load expects found.old _).bind ?_
      rintro latest world ⟨-, untouched⟩
      dsimp only
      rw [Bool.true_and]
      split
      · next named =>
          obtain ⟨accepted, rfl⟩ := found.header rfl
          obtain ⟨g, count, -, -, -⟩ := Geometry.of_headerValid accepted.2
          have index := openedIndex_lt (count ▸ named)
          refine (ends_carriedGeneration expects untouched).bind ?_
          rintro gen world ⟨nonzero, untouched⟩
          rw [named]
          refine ends_openChecked expects tidies allowed found (fun _ => ?_) nonzero untouched
          rw [count]
          exact index
      · next unnamed =>
          rw [Bool.not_eq_true] at unnamed
          rw [unnamed]
          exact refused untouched

theorem ends_openData (tidies : Tidies base.disk.fresh expected) (allowed : o.Valid)
    (bounded : ∀ file, base.disk.data = some file → file < base.disk.fresh)
    (untouched : Untouched base fds world) :
    (openData build o lockFd).Ends False expected (OpenEnd base fds) world := by
  have looked : (call .openData).Ends False expected (fun reply after =>
      Untouched base fds after ∧ ∀ file, reply = .ok file → base.disk.data = some file) world := by
    refine ⟨False.elim, fun reply after happened => ?_⟩
    rcases expects.real happened with ⟨file, named, rfl, rfl⟩ | ⟨-, rfl, rfl⟩ | ⟨rfl, rfl⟩
    · refine ⟨untouched.same rfl rfl rfl, fun other same => ?_⟩
      obtain rfl := Except.ok.inj same
      exact untouched.data.symm.trans named
    · exact ⟨untouched.same rfl rfl rfl, nofun⟩
    · exact ⟨untouched, nofun⟩
  unfold openData
  refine looked.bind ?_
  rintro reply world ⟨untouched, named⟩
  split
  · refine (ends_randomGeneration expects untouched).bind ?_
    rintro gen world ⟨nonzero, untouched⟩
    exact ends_createFile expects tidies allowed nonzero nofun untouched
  · exact untouched
  next file =>
  refine (ends_readHeader expects untouched (named file rfl) (bounded file (named file rfl))).bind ?_
  rintro ⟨rc, bytes, h⟩ world ⟨untouched, found⟩
  dsimp only at found ⊢
  split
  · refine (ends_passive expects (.close file) trivial world).bind ?_
    rintro _ world rfl
    exact untouched
  have closed : ∀ {mapSize world}, Untouched base fds world → (do
      call (.close file)
      openMapped build o lockFd file h (rc == .ok && headerValid h bytes) mapSize :
        Prog (Except Code Writer)).Ends False expected (OpenEnd base fds) world := by
    intro mapSize world untouched
    refine (ends_passive expects (.close file) trivial world).bind ?_
    rintro _ world rfl
    exact ends_openMapped expects tidies allowed found untouched
  unfold mapData
  generalize (if (rc == .ok && headerValid h bytes) = true then _ else _ : Nat) = mapSize
  split
  · refine (ends_passive expects (.mmap file _) trivial world).bind ?_
    rintro mapped world rfl
    split
    · refine (ends_passive expects (.close file) trivial world).bind ?_
      rintro _ world rfl
      exact untouched
    · exact closed untouched
  · exact closed untouched

/-- What opening the channel comes to. -/
def WriterEnd (base : World) (result : Except Code Writer) (world : World) : Prop :=
  match result with
  | .ok w => Fitted w world
  | .error _ => Untouched base base.fds world

omit expects in
/-- Behind the state word the contents may change. -/
theorem Fitted.wrote {w next : Writer} {memory : Memory} {after : World} (fitted : Fitted w world)
    (wrote : world.Wrote w.file memory after)
    (same : ∀ address < Offset.latest, memory address = world.disk.memory w.file address)
    (file : next.file = w.file) (seated : ∀ {g}, Seated w g → Seated next g)
    (closed : next.openSlot = psmiLatestNone) (gen : next.gen ≠ 0) : Fitted next after := by
  obtain ⟨g, shape, fits⟩ := fitted.shape
  have header : ∀ address < Offset.state, memory address = world.disk.memory w.file address :=
    fun address below => same address (Nat.lt_trans below (by decide))
  have state : memory.word32 Offset.state = (world.disk.memory w.file).word32 Offset.state :=
    Memory.word32_congr (Memory.read_congr (fun address _ below => same address below))
  refine ⟨?_, ?_, ?_, ⟨g, ?_, seated fits⟩, closed, gen⟩
  · rw [wrote.data, file]
    exact fitted.data
  · unfold Disk.Accepted
    rw [file, wrote.memory_eq, wrote.file_eq, Header.ofMemory_congr header]
    exact fitted.accepted
  · unfold Disk.Retired
    rw [file, wrote.memory_eq, state]
    exact fitted.active
  · rw [file, wrote.memory_eq]
    exact shape.congr header

/-- Run by a thread nobody disturbs, opening the channel fails and leaves everything readers can
see as it was, or succeeds with a handle that fits. -/
theorem ends_psmsgrStateWriterOpen (environment : Option (List Char)) (turns : Nat)
    (name : Option (List Char)) (opt : Option Options) (tidies : Tidies world.disk.fresh expected)
    (bounded : ∀ file, world.disk.data = some file → file < world.disk.fresh) :
    (psmsgrStateWriterOpen build environment turns name opt).Ends False expected
      (WriterEnd world) world := by
  have untouched := Untouched.refl world
  unfold psmsgrStateWriterOpen
  split
  · exact untouched
  next o loaded =>
  have allowed := loadOptions_valid loaded
  split
  · exact untouched
  refine (ends_pathsInit expects _ _ _ world).bind ?_
  rintro reply after rfl
  split
  · exact untouched
  refine (ends_passive expects .malloc trivial after).bind ?_
  rintro enough later rfl
  split
  · exact untouched
  refine (ends_lockChannel expects o.mode turns untouched).bind fun locked after ends => ?_
  split
  · exact ends
  next lockFd =>
  obtain ⟨free, ino, untouched⟩ := ends
  refine (ends_removeStaleTmp expects _ untouched).bind fun _ after untouched => ?_
  refine (ends_openData expects tidies allowed bounded untouched).bind fun opened after ends => ?_
  split
  · exact (Opens.close expects ⟨free, ino, ends⟩).bind fun _ _ untouched => untouched
  next w =>
  obtain ⟨fitted, -⟩ := ends
  refine (ends_passive expects .getpid trivial after).bind ?_
  rintro pid after rfl
  refine (ends_storeBytes expects (.refl after w.file) _ _).bind fun _ final wrote => ?_
  refine fitted.wrote wrote (fun address below => ?_) rfl id fitted.closed fitted.gen
  refine Memory.write_apply_outside (.inl (Nat.lt_trans below (by decide)))

end Reuse

end

end PsMsgr
