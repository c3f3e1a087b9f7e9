import PsMsgr.Channel.Image
import PsMsgr.State.Writer

namespace PsMsgr

open Data

/-- The options `loadOptions` accepts. -/
structure Options.Valid (o : Options) : Prop where
  capacity : o.capacity ≤ psmsgrStateMaxCapacity
  least : psmiMinSlots ≤ o.slotCount
  most : o.slotCount ≤ psmiMaxSlots

theorem loadOptions_valid {abi : Abi} {opt : Option Options} {o : Options}
    (loaded : loadOptions abi opt = .ok o) : o.Valid := by
  unfold loadOptions at loaded
  dsimp only at loaded
  split at loaded
  · exact nomatch loaded
  · split at loaded
    · exact nomatch loaded
    next accepted =>
      obtain rfl := Except.ok.inj loaded
      simp only [Bool.or_eq_true, decide_eq_true_eq, not_or, UInt32.not_lt] at accepted
      obtain ⟨⟨⟨⟨⟨capacity, least⟩, most⟩, -⟩, -⟩, -⟩ := accepted
      exact ⟨capacity, least, most⟩

/-- The geometry a file gets from its options. -/
def Options.geometry (o : Options) (valid : o.Valid) : Geometry where
  slotCount := o.slotCount
  slotStride := psmiSlotStride o.capacity
  capacity := o.capacity
  two_le := UInt32.le_iff_toNat_le.mp valid.least
  le_sixteen := UInt32.le_iff_toNat_le.mp valid.most
  bounded := valid.capacity
  aligned := rfl

/-- The header of a file that was asked for with these options. -/
structure Header.Agrees (build : Build) (o : Options) (h : Header) : Prop where
  capacity : h.capacity = o.capacity
  slotCount : h.slotCount = o.slotCount
  payloadType : h.payloadType = o.payloadType
  configFlags : h.configFlags = configFlagsOf o
  minor : h.versionMinor = build.minor

/-- The header of a file that `open_data` does not take for these options. -/
def Header.Differs (o : Options) (h : Header) : Prop :=
  h.capacity ≠ o.capacity ∨ h.slotCount ≠ o.slotCount ∨ h.payloadType ≠ o.payloadType ∨
    h.configFlags ≠ configFlagsOf o

/-- The memory of a zeroed file after the stores of `storeHeader`. -/
def headerMemory (build : Build) (o : Options) (created : UInt64) (memory : Memory) : Memory :=
  (((((((((((memory.write Offset.magic (Memory.bytes32 psmiMagic)).write
    Offset.versionMajor (Memory.bytes16 psmiVersionMajor)).write
    Offset.versionMinor (Memory.bytes16 build.minor)).write
    Offset.headerSize (Memory.bytes32 psmiHeaderSize)).write
    Offset.slotHeaderSize (Memory.bytes32 psmiSlotHeaderSize)).write
    Offset.slotCount (Memory.bytes32 o.slotCount)).write
    Offset.slotStride (Memory.bytes32 (psmiSlotStride o.capacity))).write
    Offset.capacity (Memory.bytes32 o.capacity)).write
    Offset.payloadType (Memory.bytes32 o.payloadType)).write
    Offset.configFlags (Memory.bytes32 (configFlagsOf o))).write
    Offset.latest (Memory.bytes32 psmiLatestNone)).write
    Offset.createdRealtimeNs (Memory.bytes64 created)

section

variable {build : Build} {o : Options} {created : UInt64} {memory : Memory}

theorem headerMemory_header :
    Header.ofMemory (headerMemory build o created memory) =
      { magic := psmiMagic
        versionMajor := psmiVersionMajor
        versionMinor := build.minor
        headerSize := psmiHeaderSize
        slotHeaderSize := psmiSlotHeaderSize
        slotCount := o.slotCount
        slotStride := psmiSlotStride o.capacity
        capacity := o.capacity
        payloadType := o.payloadType
        configFlags := configFlagsOf o } := by
  simp (disch := simp +decide) only [Header.ofMemory, headerMemory, Memory.word32_write_outside,
    Memory.word32_write, Memory.word16_write_outside, Memory.word16_write]

theorem headerMemory_agrees :
    Header.Agrees build o (Header.ofMemory (headerMemory build o created memory)) := by
  rw [headerMemory_header]
  exact ⟨rfl, rfl, rfl, rfl, rfl⟩

theorem headerMemory_latest :
    (headerMemory build o created memory).word32 Offset.latest = psmiLatestNone := by
  simp (disch := simp +decide) only [headerMemory, Memory.word32_write_outside, Memory.word32_write]

theorem headerMemory_state :
    (headerMemory build o created memory).word32 Offset.state = memory.word32 Offset.state := by
  simp (disch := simp +decide) only [headerMemory, Memory.word32_write_outside]

theorem headerMemory_notify :
    (headerMemory build o created memory).word32 Offset.notify = memory.word32 Offset.notify := by
  simp (disch := simp +decide) only [headerMemory, Memory.word32_write_outside]

theorem headerMemory_slots {address : Nat} (behind : 128 ≤ address) :
    headerMemory build o created memory address = memory address := by
  have far : ∀ {memory : Memory} {offset : Nat} {bytes : List UInt8}, offset + bytes.length ≤ 128 →
      memory.write offset bytes address = memory address :=
    fun room => Memory.write_apply_outside (.inr (Nat.le_trans room behind))
  simp (disch := simp +decide) only [headerMemory, far]

end

theorem word32_zero (offset : Nat) : Memory.word32 (fun _ => 0) offset = 0 := rfl

/-- The new file is complete before anybody else sees it. -/
theorem created_valid {build : Build} {o : Options} {created : UInt64} {x : Image}
    (valid : o.Valid) (memory : x.memory = headerMemory build o created (fun _ => 0))
    (regular : x.regular = true)
    (size : x.size = toSize (psmiFileSize o.slotCount (psmiSlotStride o.capacity)).toNat)
    (commits : x.commits = fun _ => 0) (notifies : x.notifies = 0) (history : x.history = []) :
    x.Valid (o.geometry valid) ∧ ¬ x.Retired := by
  have header := (congrArg Header.ofMemory memory).trans headerMemory_header
  have seq : ∀ i, x.seq (o.geometry valid) i = 0 := by
    intro i
    have above := (o.geometry valid).slot_ge i
    have same : x.memory.read ((o.geometry valid).slot i) 4 =
        Memory.read (fun _ => 0) ((o.geometry valid).slot i) 4 := by
      refine Memory.read_congr (fun address lower _ => ?_)
      rw [memory]
      exact headerMemory_slots (Nat.le_trans above lower)
    exact (Memory.word32_congr same).trans (word32_zero _)
  have exact := (o.geometry valid).toSize_fileSize
  refine ⟨⟨⟨?_, ?_, ?_⟩, ?_, regular, ?_, ?_, ?_, ?_, ?_⟩, ?_⟩
  · exact congrArg Header.slotCount header
  · exact congrArg Header.slotStride header
  · exact congrArg Header.capacity header
  · rw [header, headerValid_iff]
    refine ⟨rfl, rfl, rfl, rfl, valid.least, valid.most, valid.capacity, rfl, ?_⟩
    change _ = (o.geometry valid).slot (o.geometry valid).count at exact
    rw [size]
    change _ ≤ toSize (psmiFileSize (o.geometry valid).slotCount (o.geometry valid).slotStride).toNat
    rw [exact, psmiFileSize_toNat]
    exact Nat.le_refl _
  · intro i _
    rw [seq, commits]
    rfl
  · intro i _ _
    rw [seq]
    rfl
  · unfold Image.Published
    rw [history]
    change x.memory.word32 Offset.latest = psmiLatestNone
    rw [memory]
    exact headerMemory_latest
  · rw [history]
    exact fun _ member => nomatch member
  · rw [memory, headerMemory_notify, word32_zero, notifies]
    rfl
  · unfold Image.Retired
    rw [memory, headerMemory_state, word32_zero]
    decide

end PsMsgr
