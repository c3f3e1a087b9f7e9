import PsMsgr.Channel.Creation
import PsMsgr.Host.Alone

namespace PsMsgr

open Effect Data

/-- `after` is `before` with other contents of one file, as far as calls can tell. -/
structure World.Wrote (before : World) (file : FileId) (memory : Memory) (after : World) : Prop where
  lock : after.lock = before.lock
  fds : after.fds = before.fds
  data : after.disk.data = before.disk.data
  tmp : after.disk.tmp = before.disk.tmp
  fresh : after.disk.fresh = before.disk.fresh
  files : after.disk.files =
    Function.update before.disk.files file { before.disk.files file with bytes := memory }
  asleep : ∀ thread, before.asleep thread = none → after.asleep thread = none

/-- Accesses to a mapped file and the clock never fail. -/
def Sys.Access : Sys → Prop
  | .load _ _ | .store _ _ _ | .fetchOr _ _ _ | .fetchAdd _ _ _ | .loadByte _ _
  | .storeByte _ _ _ | .futexWake _ | .clock _ => True
  | _ => False

/-- The replies to be expected: some of those there are, and all there are to an access. -/
structure Expects (thread : Tid)
    (expected : (request : Sys) → World → request.Reply → World → Prop) : Prop where
  real : ∀ {request before reply after}, expected request before reply after →
    exec thread request before reply after
  access : ∀ {request before reply after}, request.Access →
    exec thread request before reply after → expected request before reply after

theorem expects_granted (thread : Tid) : Expects thread (execGranted thread) where
  real := And.left
  access := by
    intro request before reply after access executed
    refine ⟨executed, ?_⟩
    cases request with
    | load _ _ | store _ _ _ | fetchOr _ _ _ | fetchAdd _ _ _ | loadByte _ _ | storeByte _ _ _
    | futexWake _ | clock _ => trivial
    | _ => exact access.elim

section

variable {total : Prop} {thread : Tid} {base world : World} {file : FileId} {memory : Memory}
  {expected : (request : Sys) → World → request.Reply → World → Prop}

theorem World.Wrote.refl (world : World) (file : FileId) :
    world.Wrote file (world.disk.memory file) world := by
  refine ⟨rfl, rfl, rfl, rfl, rfl, ?_, fun _ => id⟩
  exact (Function.update_eq_self file world.disk.files).symm

theorem World.Wrote.memory_eq (wrote : base.Wrote file memory world) :
    world.disk.memory file = memory := by
  rw [Disk.memory, wrote.files, Function.update_self]

theorem World.Wrote.file_eq (wrote : base.Wrote file memory world) :
    world.disk.files file = { base.disk.files file with bytes := memory } := by
  rw [wrote.files, Function.update_self]

theorem World.Wrote.store {after : World} {other : Memory} (wrote : base.Wrote file memory world)
    (lock : after.lock = world.lock) (fds : after.fds = world.fds)
    (data : after.disk.data = world.disk.data) (tmp : after.disk.tmp = world.disk.tmp)
    (fresh : after.disk.fresh = world.disk.fresh)
    (files : after.disk.files = (world.disk.setMemory file other).files)
    (asleep : after.asleep = world.asleep) : base.Wrote file other after where
  lock := lock.trans wrote.lock
  fds := fds.trans wrote.fds
  data := data.trans wrote.data
  tmp := tmp.trans wrote.tmp
  fresh := fresh.trans wrote.fresh
  files := by
    rw [files, Disk.setMemory, wrote.file_eq, wrote.files, Function.update_idem]
  asleep := asleep ▸ wrote.asleep

section

variable (expects : Expects thread expected)

include expects

theorem ends_load (wrote : base.Wrote file memory world) (offset : Nat) :
    (call (.load file offset)).Ends total expected
      (fun value after => value = memory.word32 offset ∧ base.Wrote file memory after) world := by
  refine ⟨fun _ => ⟨_, _, expects.access trivial ⟨rfl, rfl⟩⟩, fun value after happened => ?_⟩
  obtain ⟨rfl, rfl⟩ := expects.real happened
  rw [wrote.memory_eq]
  exact ⟨rfl, wrote.lock, wrote.fds, wrote.data, wrote.tmp, wrote.fresh, wrote.files,
    wrote.asleep⟩

theorem ends_loadBytes (wrote : base.Wrote file memory world) (offset count : Nat) :
    (loadBytes file offset count).Ends total expected
      (fun bytes after => bytes = memory.read offset count ∧ base.Wrote file memory after) world := by
  induction count generalizing offset world with
  | zero => exact ⟨rfl, wrote⟩
  | succ count ih =>
      refine ⟨fun _ => ⟨_, _, expects.access trivial ⟨rfl, rfl⟩⟩, fun byte after happened => ?_⟩
      obtain ⟨rfl, rfl⟩ := expects.real happened
      refine (ih wrote (offset + 1)).bind ?_
      rintro bytes later ⟨rfl, wrote'⟩
      rw [wrote.memory_eq]
      exact ⟨rfl, wrote'⟩

theorem ends_loadWord (wrote : base.Wrote file memory world) (offset : Nat) :
    (loadWord file offset).Ends total expected
      (fun value after => value = memory.word32 offset ∧ base.Wrote file memory after) world := by
  refine (ends_loadBytes expects wrote offset 4).bind ?_
  rintro bytes after ⟨rfl, wrote⟩
  exact ⟨rfl, wrote⟩

theorem ends_storeBytes (wrote : base.Wrote file memory world) (offset : Nat) (bytes : List UInt8) :
    (storeBytes file offset bytes).Ends total expected
      (fun _ after => base.Wrote file (memory.write offset bytes) after) world := by
  induction bytes generalizing offset memory world with
  | nil => exact wrote
  | cons byte bytes ih =>
      refine ⟨fun _ => ⟨(), _, expects.access trivial rfl⟩, fun _ after happened => ?_⟩
      obtain rfl := expects.real happened
      have stored : base.Wrote file (Function.update memory offset byte)
          (world.own thread (world.disk.storeByte file offset byte) (world.marks thread)) := by
        refine wrote.store rfl rfl rfl rfl rfl ?_ rfl
        rw [← wrote.memory_eq]
        rfl
      exact ih stored (offset + 1)

omit expects in
theorem Disk.store_files (disk : Disk) (writer : Tid) (basis : Option Nat) (file : FileId)
    (offset : Nat) (value : UInt32) :
    let after := disk.store writer basis file offset value
    after.data = disk.data ∧ after.tmp = disk.tmp ∧ after.fresh = disk.fresh ∧
      after.files = (disk.setMemory file
        ((disk.memory file).write offset (Memory.bytes32 value))).files := by
  dsimp only [Disk.store]
  split
  · exact ⟨rfl, rfl, rfl, rfl⟩
  · split
    · exact ⟨rfl, rfl, rfl, rfl⟩
    · exact ⟨rfl, rfl, rfl, rfl⟩

theorem ends_store (wrote : base.Wrote file memory world) (offset : Nat) (value : UInt32) :
    (call (.store file offset value)).Ends total expected
      (fun _ after => base.Wrote file (memory.write offset (Memory.bytes32 value)) after) world := by
  refine ⟨fun _ => ⟨(), _, expects.access trivial rfl⟩, fun _ after happened => ?_⟩
  obtain rfl := expects.real happened
  rw [← wrote.memory_eq]
  obtain ⟨data, tmp, fresh, files⟩ := Disk.store_files world.disk thread
    (world.log thread).found file offset value
  exact wrote.store rfl rfl data tmp fresh files rfl

theorem ends_fetchOr (wrote : base.Wrote file memory world) (offset : Nat) (value : UInt32) :
    (call (.fetchOr file offset value)).Ends total expected
      (fun _ after => base.Wrote file
        (memory.write offset (Memory.bytes32 (memory.word32 offset ||| value))) after) world := by
  refine ⟨fun _ => ⟨_, _, expects.access trivial ⟨rfl, rfl⟩⟩, fun _ after happened => ?_⟩
  obtain ⟨-, rfl⟩ := expects.real happened
  rw [← wrote.memory_eq]
  exact wrote.store rfl rfl rfl rfl rfl rfl rfl

theorem ends_fetchAdd (wrote : base.Wrote file memory world) (offset : Nat) (value : UInt32) :
    (call (.fetchAdd file offset value)).Ends total expected
      (fun _ after => base.Wrote file
        (memory.write offset (Memory.bytes32 (memory.word32 offset + value))) after) world := by
  refine ⟨fun _ => ⟨_, _, expects.access trivial ⟨rfl, rfl⟩⟩, fun _ after happened => ?_⟩
  obtain ⟨-, rfl⟩ := expects.real happened
  rw [← wrote.memory_eq]
  exact wrote.store rfl rfl rfl rfl rfl rfl rfl

theorem ends_futexWake (wrote : base.Wrote file memory world) (other : FileId) :
    (call (.futexWake other)).Ends total expected
      (fun _ after => base.Wrote file memory after) world := by
  refine ⟨fun _ => ⟨(), _, expects.access trivial rfl⟩, fun _ after happened => ?_⟩
  obtain rfl := expects.real happened
  refine ⟨wrote.lock, wrote.fds, wrote.data, wrote.tmp, wrote.fresh, wrote.files,
    fun sleeper awake => ?_⟩
  have still := wrote.asleep sleeper awake
  dsimp only
  split
  · rfl
  · exact still

theorem ends_clock (wrote : base.Wrote file memory world) (clock : Clock) :
    (call (.clock clock)).Ends total expected (fun _ after => base.Wrote file memory after) world := by
  cases clock with
  | monotonic =>
      refine ⟨fun _ => ⟨world.now, _, expects.access trivial ⟨UInt64.le_refl _, rfl⟩⟩,
        fun now after happened => ?_⟩
      obtain ⟨-, rfl⟩ := expects.real happened
      exact ⟨wrote.lock, wrote.fds, wrote.data, wrote.tmp, wrote.fresh, wrote.files,
    wrote.asleep⟩
  | realtime =>
      refine ⟨fun _ => ⟨0, _, expects.access trivial rfl⟩, fun now after happened => ?_⟩
      obtain rfl := expects.real happened
      exact wrote

end

/-- The contents of the file after `beginSlot`. -/
def begunMemory (w : Writer) (memory : Memory) : Memory :=
  let s := writerSlot w (slotAfter w.latest w.slotCount)
  memory.write s (Memory.bytes32 ((memory.word32 s &&& ~~~1) + 1))

/-- The handle after `beginSlot`. -/
def Writer.begun (w : Writer) (memory : Memory) : Writer :=
  { w with
    openSlot := slotAfter w.latest w.slotCount
    openSeq := memory.word32 (writerSlot w (slotAfter w.latest w.slotCount)) &&& ~~~1 }

theorem ends_beginSlot {w : Writer} (expects : Expects thread expected)
    (wrote : base.Wrote w.file memory world) :
    (beginSlot w).Ends total expected
      (fun begun after => begun = w.begun memory ∧
        base.Wrote w.file (begunMemory w memory) after) world := by
  unfold beginSlot
  refine (ends_load expects wrote _).bind ?_
  rintro value after ⟨rfl, wrote⟩
  refine (ends_store expects wrote _ _).bind ?_
  intro _ after wrote
  exact ⟨rfl, wrote⟩

/-- The contents of the file when the fields of the open slot are in place. -/
def filledMemory (w : Writer) (len : UInt32) (timestamp : UInt64) (memory : Memory) : Memory :=
  let s := writerSlot w w.openSlot
  ((memory.write (s + Offset.generation) (Memory.bytes32 w.gen)).write
    (s + Offset.length) (Memory.bytes32 len)).write
    (s + Offset.timestampNs) (Memory.bytes64 timestamp)

/-- The contents of the file after the waiters have been told, if any are to be. -/
def toldMemory (notify : Bool) (memory : Memory) : Memory :=
  if notify then
    memory.write Offset.notify (Memory.bytes32 (memory.word32 Offset.notify + 1))
  else memory

/-- The contents of the file after `commitSlot`. -/
def committedMemory (w : Writer) (len : UInt32) (timestamp : UInt64) (memory : Memory) : Memory :=
  toldMemory w.notify
    (((filledMemory w len timestamp memory).write (writerSlot w w.openSlot)
      (Memory.bytes32 (w.openSeq + 2))).write
      Offset.latest (Memory.bytes32 (psmiLatest w.openSlot (w.openSeq + 2))))

/-- `commitSlot` up to the store that makes the counter of the slot even. -/
def sealSlot (w : Writer) (len : UInt32) : Prog Unit := do
  let s := writerSlot w w.openSlot
  storeBytes w.file (s + Offset.generation) (Memory.bytes32 w.gen)
  storeBytes w.file (s + Offset.length) (Memory.bytes32 len)
  let timestamp ← call (.clock .monotonic)
  storeBytes w.file (s + Offset.timestampNs) (Memory.bytes64 timestamp)
  call (.store w.file s (w.openSeq + 2))

/-- `commitSlot` from the store of `latest` on. -/
def publishSlot (w : Writer) : Prog (UInt32 × Writer) := do
  call (.store w.file Offset.latest (psmiLatest w.openSlot (w.openSeq + 2)))
  if w.notify then
    let _ ← call (.fetchAdd w.file Offset.notify 1)
    call (.futexWake w.file)
  return (w.gen, { w with
    latest := w.openSlot, openSlot := psmiLatestNone, gen := nextGeneration w.gen })

theorem commitSlot_eq (w : Writer) (len : UInt32) :
    commitSlot w len = sealSlot w len >>= fun _ => publishSlot w := by
  unfold commitSlot sealSlot
  simp only [Program.bind_assoc]
  rfl

/-- The contents of the file after `sealSlot`. -/
def sealedMemory (w : Writer) (len : UInt32) (timestamp : UInt64) (memory : Memory) : Memory :=
  (filledMemory w len timestamp memory).write (writerSlot w w.openSlot)
    (Memory.bytes32 (w.openSeq + 2))

theorem ends_sealSlot {w : Writer} (expects : Expects thread expected)
    (wrote : base.Wrote w.file memory world) (len : UInt32) :
    (sealSlot w len).Ends total expected
      (fun _ after => ∃ timestamp,
        base.Wrote w.file (sealedMemory w len timestamp memory) after) world := by
  unfold sealSlot
  refine (ends_storeBytes expects wrote _ _).bind fun _ after wrote => ?_
  refine (ends_storeBytes expects wrote _ _).bind fun _ after wrote => ?_
  refine (ends_clock expects wrote _).bind fun timestamp after wrote => ?_
  refine (ends_storeBytes expects wrote _ _).bind fun _ after wrote => ?_
  exact (ends_store expects wrote _ _).mono fun _ after wrote => ⟨timestamp, wrote⟩

theorem ends_publishSlot {w : Writer} (expects : Expects thread expected)
    (wrote : base.Wrote w.file memory world) :
    (publishSlot w).Ends total expected
      (fun returned after => returned = (w.gen, { w with
          latest := w.openSlot, openSlot := psmiLatestNone, gen := nextGeneration w.gen }) ∧
        base.Wrote w.file (toldMemory w.notify (memory.write Offset.latest
          (Memory.bytes32 (psmiLatest w.openSlot (w.openSeq + 2))))) after) world := by
  unfold publishSlot toldMemory
  refine (ends_store expects wrote _ _).bind fun _ after wrote => ?_
  by_cases notify : w.notify = true
  · rw [if_pos notify, if_pos notify]
    refine (ends_fetchAdd expects wrote _ _).bind fun _ after wrote => ?_
    refine (ends_futexWake expects wrote _).bind fun _ after wrote => ?_
    exact ⟨rfl, wrote⟩
  · rw [if_neg notify, if_neg notify]
    exact ⟨rfl, wrote⟩

theorem ends_commitSlot {w : Writer} (expects : Expects thread expected)
    (wrote : base.Wrote w.file memory world) (len : UInt32) :
    (commitSlot w len).Ends total expected
      (fun returned after => ∃ timestamp,
        returned = (w.gen, { w with
          latest := w.openSlot, openSlot := psmiLatestNone, gen := nextGeneration w.gen }) ∧
        base.Wrote w.file (committedMemory w len timestamp memory) after) world := by
  rw [commitSlot_eq]
  refine (ends_sealSlot expects wrote len).bind ?_
  rintro _ after ⟨timestamp, wrote⟩
  refine (ends_publishSlot expects wrote).mono ?_
  rintro returned after ⟨rfl, wrote⟩
  exact ⟨timestamp, rfl, wrote⟩

/-- The contents of the file after a publish. -/
def publishedMemory (w : Writer) (data : List UInt8) (len : UInt32) (timestamp : UInt64)
    (memory : Memory) : Memory :=
  committedMemory (w.begun memory) len timestamp
    ((begunMemory w memory).write
      (writerSlot w (slotAfter w.latest w.slotCount) + Offset.payload) data)

/-- The contents of the file when a publish is about to store `latest`. -/
def pendingMemory (w : Writer) (data : List UInt8) (len : UInt32) (timestamp : UInt64)
    (memory : Memory) : Memory :=
  sealedMemory (w.begun memory) len timestamp
    ((begunMemory w memory).write
      (writerSlot w (slotAfter w.latest w.slotCount) + Offset.payload) data)

/-- The handle after a publish. -/
def Writer.published (w : Writer) (memory : Memory) : Writer :=
  { w.begun memory with
    latest := slotAfter w.latest w.slotCount
    openSlot := psmiLatestNone
    gen := nextGeneration w.gen }

theorem Writer.published_file (w : Writer) (memory : Memory) :
    (w.published memory).file = w.file := rfl

theorem Writer.published_capacity (w : Writer) (memory : Memory) :
    (w.published memory).capacity = w.capacity := rfl

theorem ends_psmsgrStatePublish {w : Writer} {data : Option (List UInt8)} {len : UInt32}
    (expects : Expects thread expected) (wrote : base.Wrote w.file memory world)
    (given : data = none → len = 0) (closed : w.openSlot = psmiLatestNone) (fits : len ≤ w.capacity) :
    (psmsgrStatePublish w data len).Ends total expected
      (fun returned after => ∃ timestamp,
        returned = (.ok, some w.gen, w.published memory) ∧
        base.Wrote w.file
          (publishedMemory w ((data.getD []).take len.toNat) len timestamp memory) after) world := by
  unfold psmsgrStatePublish
  rw [if_neg (not_refused given), if_neg (not_not.mpr closed), if_neg (UInt32.not_lt.mpr fits)]
  refine (ends_beginSlot expects wrote).bind ?_
  rintro begun after ⟨rfl, wrote⟩
  refine (ends_storeBytes expects wrote _ _).bind fun _ after wrote => ?_
  refine (ends_commitSlot (w := w.begun memory) expects wrote len).bind ?_
  rintro returned after ⟨timestamp, rfl, wrote⟩
  exact ⟨timestamp, rfl, wrote⟩

end

section

variable {w : Writer} {g : Geometry} {memory : Memory} {data : List UInt8} {len : UInt32}
  {timestamp : UInt64}

/-- The handle carries the geometry of its file. -/
structure Seated (w : Writer) (g : Geometry) : Prop where
  slotCount : w.slotCount = g.slotCount
  slotStride : w.slotStride = g.slotStride
  capacity : w.capacity = g.capacity
  latest : w.latest = psmiLatestNone ∨ w.latest.toNat < g.count

/-- The slot a writer begins on. -/
def Writer.target (w : Writer) : Nat := (slotAfter w.latest w.slotCount).toNat

theorem Seated.target_lt (seated : Seated w g) : w.target < g.count := by
  have least := g.two_le
  unfold Writer.target slotAfter
  rw [seated.slotCount]
  split
  · exact g.count_pos
  · rw [UInt32.toNat_mod]
    exact Nat.mod_lt _ g.count_pos

theorem Seated.writerSlot_eq (seated : Seated w g) :
    writerSlot w (slotAfter w.latest w.slotCount) = g.slot w.target := by
  have most := g.le_sixteen
  have inside := seated.target_lt
  rw [writerSlot, seated.slotStride]
  exact g.slotOffset_eq_slot (by unfold Geometry.count Writer.target at *; omega)

theorem Seated.published {w : Writer} {g : Geometry} (seated : Seated w g) (memory : Memory) :
    Seated (w.published memory) g ∧ (w.published memory).target = (w.target + 1) % g.count := by
  have inside := seated.target_lt
  have most : g.count ≤ 16 := g.le_sixteen
  refine ⟨⟨seated.slotCount, seated.slotStride, seated.capacity, .inr inside⟩, ?_⟩
  have named : slotAfter w.latest w.slotCount ≠ psmiLatestNone := by
    intro none
    have large : w.target = psmiLatestNone.toNat := congrArg UInt32.toNat none
    rw [large] at inside
    exact absurd (Nat.lt_of_lt_of_le inside most) (by decide)
  change (slotAfter (slotAfter w.latest w.slotCount) w.slotCount).toNat = _
  have small : (w.target + 1) % 2 ^ 32 = w.target + 1 := Nat.mod_eq_of_lt (by omega)
  rw [slotAfter, if_neg named, UInt32.toNat_mod, UInt32.toNat_add]
  change (w.target + 1) % 2 ^ 32 % w.slotCount.toNat = (w.target + 1) % g.count
  rw [small, seated.slotCount]
  rfl

theorem toldMemory_apply {notify : Bool} {address : Nat}
    (outside : address < Offset.notify ∨ Offset.notify + 4 ≤ address) :
    toldMemory notify memory address = memory address := by
  unfold toldMemory
  split
  · exact Memory.write_apply_outside (by rw [Memory.bytes32_length]; exact outside)
  · rfl

theorem toldMemory_read {notify : Bool} {start count : Nat}
    (outside : start + count ≤ Offset.notify ∨ Offset.notify + 4 ≤ start) :
    (toldMemory notify memory).read start count = memory.read start count :=
  Memory.read_congr (fun _ _ _ => toldMemory_apply (by omega))

theorem pendingMemory_apply (seated : Seated w g) {address : Nat}
    (slot : address < g.slot w.target ∨ g.slot w.target + Offset.payload + data.length ≤ address) :
    pendingMemory w data len timestamp memory address = memory address := by
  have place : writerSlot (w.begun memory) (w.begun memory).openSlot = _ := seated.writerSlot_eq
  have far : ∀ {memory : Memory} {offset : Nat} {bytes : List UInt8},
      address < offset ∨ offset + bytes.length ≤ address →
      memory.write offset bytes address = memory address := Memory.write_apply_outside
  rw [pendingMemory, sealedMemory, filledMemory, begunMemory, place, seated.writerSlot_eq]
  simp only [Offset.payload] at slot
  simp (disch := simp only [Memory.bytes32_length, Memory.bytes64_length, Offset.generation,
    Offset.length, Offset.timestampNs, Offset.payload]; omega) only [far]

theorem publishedMemory_pending {address : Nat}
    (header : address < Offset.latest ∨ Offset.notify + 4 ≤ address) :
    publishedMemory w data len timestamp memory address =
      pendingMemory w data len timestamp memory address := by
  simp only [Offset.latest, Offset.notify] at header
  have calm : address < Offset.notify ∨ Offset.notify + 4 ≤ address := by
    simp only [Offset.notify]
    omega
  rw [publishedMemory, committedMemory, toldMemory_apply calm]
  refine Memory.write_apply_outside ?_
  rw [Memory.bytes32_length]
  simp only [Offset.latest]
  omega

theorem publishedMemory_apply (seated : Seated w g) {address : Nat}
    (slot : address < g.slot w.target ∨ g.slot w.target + Offset.payload + data.length ≤ address)
    (header : address < Offset.latest ∨ Offset.notify + 4 ≤ address) :
    publishedMemory w data len timestamp memory address = memory address :=
  (publishedMemory_pending header).trans (pendingMemory_apply seated slot)

theorem pendingMemory_other (seated : Seated w g) {i address : Nat} (other : i ≠ w.target)
    (small : data.length ≤ g.capacity.toNat) (lower : g.slot i ≤ address)
    (upper : address < g.slot i + g.stride) :
    pendingMemory w data len timestamp memory address = memory address := by
  have apart := g.slot_disjoint other
  have wide := g.stride_bounds.1
  refine pendingMemory_apply seated ?_
  simp only [Offset.payload]
  omega

theorem publishedMemory_other (seated : Seated w g) {i : Nat} (other : i ≠ w.target)
    (small : data.length ≤ g.capacity.toNat) :
    (publishedMemory w data len timestamp memory).word32 (g.slot i) =
      memory.word32 (g.slot i) := by
  have above := g.slot_ge i
  have wide := g.stride_bounds.1
  refine Memory.word32_congr (Memory.read_congr fun address lower upper => ?_)
  have behind : Offset.notify + 4 ≤ address := by
    simp only [Offset.notify]
    omega
  rw [publishedMemory_pending (.inr behind)]
  exact pendingMemory_other seated other small lower (by omega)

/-- The slot that was begun on is the published one, and holds what was published. -/
theorem publishedMemory_slot (seated : Seated w g) (fits : data.length = len.toNat) :
    let after := publishedMemory w data len timestamp memory
    let s := g.slot w.target
    let seq := (memory.word32 s &&& ~~~1) + 2
    after.word32 Offset.latest = psmiLatest (slotAfter w.latest w.slotCount) seq ∧
    after.word32 s = seq ∧ after.word32 (s + Offset.generation) = w.gen ∧
    after.word32 (s + Offset.length) = len ∧ after.word64 (s + Offset.timestampNs) = timestamp ∧
    after.read (s + Offset.payload) len.toNat = data := by
  intro after s seq
  have above : 128 ≤ s := g.slot_ge w.target
  have place : writerSlot (w.begun memory) (w.begun memory).openSlot = s := seated.writerSlot_eq
  have begins : writerSlot w (slotAfter w.latest w.slotCount) = s := seated.writerSlot_eq
  have counter : (w.begun memory).openSeq + 2 = seq := by
    rw [Writer.begun, begins]
  dsimp only [after]
  rw [publishedMemory, committedMemory, filledMemory, begunMemory, place, begins, counter, ← fits]
  -- every field is found behind the stores made after its own
  have behind : ∀ {notify : Bool} {memory : Memory} {start count : Nat}, 128 ≤ start →
      (toldMemory notify memory).read start count = memory.read start count :=
    fun far => toldMemory_read (.inr (Nat.le_trans (by decide) far))
  have word : ∀ {memory : Memory} {offset start count : Nat} {value : UInt32},
      start + count ≤ offset ∨ offset + 4 ≤ start →
      (memory.write offset (Memory.bytes32 value)).read start count = memory.read start count :=
    fun apart => Memory.read_write_outside (by rw [Memory.bytes32_length]; exact apart)
  have long : ∀ {memory : Memory} {offset start count : Nat} {value : UInt64},
      start + count ≤ offset ∨ offset + 8 ≤ start →
      (memory.write offset (Memory.bytes64 value)).read start count = memory.read start count :=
    fun apart => Memory.read_write_outside (by rw [Memory.bytes64_length]; exact apart)
  have own : ∀ {memory : Memory} {offset : Nat} {value : UInt32},
      (memory.write offset (Memory.bytes32 value)).read offset 4 = Memory.bytes32 value :=
    Memory.read_write
  have ownLong : ∀ {memory : Memory} {offset : Nat} {value : UInt64},
      (memory.write offset (Memory.bytes64 value)).read offset 8 = Memory.bytes64 value :=
    Memory.read_write
  refine ⟨Memory.word32_of_read ?_, Memory.word32_of_read ?_, Memory.word32_of_read ?_,
    Memory.word32_of_read ?_, Memory.word64_of_read ?_, ?_⟩
  · exact (toldMemory_read (.inl (by decide))).trans own
  all_goals
    simp only [Offset.generation, Offset.length, Offset.timestampNs, Offset.payload, Offset.latest]
    simp (disch := omega) only [behind, word, long, own, ownLong, Memory.read_write]
  · rfl

end

end PsMsgr
