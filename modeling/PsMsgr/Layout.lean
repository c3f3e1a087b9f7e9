import PsMsgr.Data.Memory

namespace PsMsgr

open Data

def psmiMagic : UInt32 := 0x534D5350
def psmiVersionMajor : UInt16 := 1
def psmiHeaderSize : UInt32 := 128
def psmiSlotHeaderSize : UInt32 := 32
def psmiSlotAlign : UInt32 := 64
def psmiMinSlots : UInt32 := 2
def psmiMaxSlots : UInt32 := 16
def psmiLatestNone : UInt32 := 0xFFFFFFFF
def psmiLatestSlotMask : UInt32 := 0xF
def psmiLatestTagMask : UInt32 := 0x07FFFFFF
def psmiConfigNoNotify : UInt32 := 1
def psmiStateRetired : UInt32 := 1
def psmsgrStateMaxCapacity : UInt32 := (16 : UInt32) <<< 20

/-! Offsets of the header and slot fields, pinned by the source's static assertions. -/

namespace Offset

def magic : Nat := 0
def versionMajor : Nat := 4
def versionMinor : Nat := 6
def headerSize : Nat := 8
def slotHeaderSize : Nat := 12
def slotCount : Nat := 16
def slotStride : Nat := 20
def capacity : Nat := 24
def payloadType : Nat := 28
def configFlags : Nat := 32
def state : Nat := 36
def latest : Nat := 40
def notify : Nat := 44
def writerPid : Nat := 48
def createdRealtimeNs : Nat := 56

-- Within a slot, counted from the slot's first byte (which is `seq`).
def generation : Nat := 4
def timestampNs : Nat := 8
def length : Nat := 16
def reserved : Nat := 20
def payload : Nat := 32

end Offset

/-- `header.latest` for slot `i` committed with the even counter `seq`. -/
def psmiLatest (i seq : UInt32) : UInt32 :=
  ((seq >>> 1) &&& psmiLatestTagMask) <<< 4 ||| i

def psmiLatestSlot (latest : UInt32) : UInt32 := latest &&& psmiLatestSlotMask

def psmiLatestValid (latest slotCount : UInt32) : Bool :=
  latest == psmiLatestNone || (latest >>> 31 == 0 && psmiLatestSlot latest < slotCount)

def psmiSlotStride (capacity : UInt32) : UInt32 :=
  (psmiSlotHeaderSize + capacity + psmiSlotAlign - 1) &&& ~~~(psmiSlotAlign - 1)

def psmiFileSize (slotCount slotStride : UInt32) : UInt64 :=
  psmiHeaderSize.toUInt64 + slotCount.toUInt64 * slotStride.toUInt64

/-- The conversion to `size_t` on a 32-bit target. -/
def toSize (value : Nat) : Nat := value % 2 ^ 32

/-- Where slot `i` starts, from the start of the mapping; the product is computed
in `size_t`. -/
def slotOffset (slotStride i : UInt32) : Nat :=
  psmiHeaderSize.toNat + toSize (i.toNat * slotStride.toNat)

/-- The header fields a private copy is checked and used for. -/
structure Header where
  magic : UInt32
  versionMajor : UInt16
  versionMinor : UInt16
  headerSize : UInt32
  slotHeaderSize : UInt32
  slotCount : UInt32
  slotStride : UInt32
  capacity : UInt32
  payloadType : UInt32
  configFlags : UInt32
deriving DecidableEq, Repr

/-- The header found at the start of a memory. -/
def Header.ofMemory (memory : Memory) : Header where
  magic := memory.word32 Offset.magic
  versionMajor := memory.word16 Offset.versionMajor
  versionMinor := memory.word16 Offset.versionMinor
  headerSize := memory.word32 Offset.headerSize
  slotHeaderSize := memory.word32 Offset.slotHeaderSize
  slotCount := memory.word32 Offset.slotCount
  slotStride := memory.word32 Offset.slotStride
  capacity := memory.word32 Offset.capacity
  payloadType := memory.word32 Offset.payloadType
  configFlags := memory.word32 Offset.configFlags

theorem psmiLatest_toNat {i : UInt32} (seq : UInt32) (bound : i.toNat < 16) :
    (psmiLatest i seq).toNat = seq.toNat / 2 % 2 ^ 27 * 16 + i.toNat := by
  have half : (seq >>> 1).toNat = seq.toNat / 2 := by
    rw [UInt32.toNat_shiftRight]
    exact Nat.shiftRight_eq_div_pow _ 1
  have tag : ((seq >>> 1) &&& psmiLatestTagMask).toNat = seq.toNat / 2 % 2 ^ 27 := by
    rw [UInt32.toNat_and, half]
    exact Nat.and_two_pow_sub_one_eq_mod _ 27
  have shifted : (((seq >>> 1) &&& psmiLatestTagMask) <<< 4).toNat =
      seq.toNat / 2 % 2 ^ 27 * 2 ^ 4 := by
    rw [UInt32.toNat_shiftLeft, tag]
    change (seq.toNat / 2 % 2 ^ 27) <<< 4 % 2 ^ 32 = _
    rw [Nat.shiftLeft_eq]
    exact Nat.mod_eq_of_lt (by omega)
  calc (psmiLatest i seq).toNat = 2 ^ 4 * (seq.toNat / 2 % 2 ^ 27) ||| i.toNat := by
        rw [psmiLatest, UInt32.toNat_or, shifted, Nat.mul_comm]
    _ = 2 ^ 4 * (seq.toNat / 2 % 2 ^ 27) + i.toNat := (Nat.two_pow_add_eq_or_of_lt bound _).symm
    _ = seq.toNat / 2 % 2 ^ 27 * 16 + i.toNat := by omega

theorem psmiLatestSlot_toNat (latest : UInt32) :
    (psmiLatestSlot latest).toNat = latest.toNat % 16 := by
  rw [psmiLatestSlot, UInt32.toNat_and]
  exact Nat.and_two_pow_sub_one_eq_mod _ 4

theorem psmiLatestSlot_lt (latest : UInt32) : (psmiLatestSlot latest).toNat < 16 := by
  rw [psmiLatestSlot_toNat]
  exact Nat.mod_lt _ (by decide)

theorem psmiLatestSlot_psmiLatest {i : UInt32} (seq : UInt32) (bound : i.toNat < 16) :
    psmiLatestSlot (psmiLatest i seq) = i := by
  apply UInt32.toNat_inj.mp
  rw [psmiLatestSlot_toNat, psmiLatest_toNat seq bound]
  omega

theorem psmiLatest_ne_none {i : UInt32} (seq : UInt32) (bound : i.toNat < 16) :
    psmiLatest i seq ≠ psmiLatestNone := by
  intro same
  have value := congrArg UInt32.toNat same
  rw [psmiLatest_toNat seq bound] at value
  have none : psmiLatestNone.toNat = 4294967295 := rfl
  omega

/-- Two published words of one slot are equal exactly when the commit counts
agree modulo 2^27. -/
theorem psmiLatest_eq_iff {i : UInt32} {left right : UInt32} (bound : i.toNat < 16) :
    psmiLatest i left = psmiLatest i right ↔
      left.toNat / 2 % 2 ^ 27 = right.toNat / 2 % 2 ^ 27 := by
  rw [← UInt32.toNat_inj, psmiLatest_toNat left bound, psmiLatest_toNat right bound]
  omega

theorem shiftRight31_eq_zero_iff (value : UInt32) : value >>> 31 = 0 ↔ value.toNat < 2 ^ 31 := by
  rw [← UInt32.toNat_inj, UInt32.toNat_shiftRight]
  change value.toNat >>> 31 = 0 ↔ _
  rw [Nat.shiftRight_eq_div_pow]
  omega

theorem psmiLatestValid_iff {latest slotCount : UInt32} :
    psmiLatestValid latest slotCount = true ↔ latest = psmiLatestNone ∨
      (latest.toNat < 2 ^ 31 ∧ (psmiLatestSlot latest).toNat < slotCount.toNat) := by
  simp only [psmiLatestValid, Bool.or_eq_true, beq_iff_eq, Bool.and_eq_true, decide_eq_true_eq,
    shiftRight31_eq_zero_iff, UInt32.lt_iff_toNat_lt]

theorem psmiLatestValid_psmiLatest {i slotCount : UInt32} (seq : UInt32)
    (bound : i.toNat < 16) (inside : i.toNat < slotCount.toNat) :
    psmiLatestValid (psmiLatest i seq) slotCount = true := by
  refine psmiLatestValid_iff.mpr (.inr ⟨?_, ?_⟩)
  · rw [psmiLatest_toNat seq bound]
    omega
  · rwa [psmiLatestSlot_psmiLatest seq bound]

theorem and_not_low {value : Nat} (low : Nat) (small : low ≤ 32) (bound : value < 2 ^ 32) :
    value &&& (2 ^ 32 - (2 ^ low - 1 + 1)) = value / 2 ^ low * 2 ^ low := by
  apply Nat.eq_of_testBit_eq
  intro bit
  have positive : 0 < 2 ^ low := Nat.two_pow_pos low
  have within : 2 ^ low ≤ 2 ^ 32 := Nat.pow_le_pow_right (by decide) small
  rw [Nat.testBit_and, Nat.testBit_two_pow_sub_succ (by omega), Nat.testBit_two_pow_sub_one,
    Nat.testBit_mul_two_pow, Nat.testBit_div_two_pow]
  by_cases high : bit < 32
  · by_cases below : bit < low
    · have under : ¬ low ≤ bit := by omega
      simp [below, under]
    · have above : low ≤ bit := by omega
      simp [high, below, above]
  · have beyond : value.testBit bit = false :=
      Nat.testBit_lt_two_pow (Nat.lt_of_lt_of_le bound (Nat.pow_le_pow_right (by decide) (by omega)))
    have above : low ≤ bit := by omega
    simp [beyond, above]

theorem clearLowBit_toNat (value : UInt32) : (value &&& ~~~1).toNat = value.toNat / 2 * 2 := by
  rw [UInt32.toNat_and]
  exact and_not_low 1 (by decide) value.toNat_lt

theorem oddSeq_toNat (seq : UInt32) : ((seq &&& ~~~1) + 1).toNat = seq.toNat / 2 * 2 + 1 := by
  have bound := seq.toNat_lt
  rw [UInt32.toNat_add, clearLowBit_toNat]
  exact Nat.mod_eq_of_lt (by change _ + 1 < 2 ^ 32; omega)

theorem lowBit_eq_zero_iff (value : UInt32) : value &&& 1 = 0 ↔ value.toNat % 2 = 0 := by
  rw [← UInt32.toNat_inj, UInt32.toNat_and]
  change value.toNat &&& 2 ^ 1 - 1 = 0 ↔ _
  rw [Nat.and_two_pow_sub_one_eq_mod]

theorem lowBit_or_ne_zero (value : UInt32) : (value ||| 1) &&& 1 ≠ 0 := by
  rw [Ne, lowBit_eq_zero_iff, UInt32.toNat_or]
  change ¬ (value.toNat ||| 1) % 2 ^ 1 = 0
  rw [Nat.or_mod_two_pow]
  rcases Nat.mod_two_eq_zero_or_one value.toNat with even | odd
  · simp [even]
  · simp [odd]

theorem psmiSlotStride_toNat {capacity : UInt32} (bound : capacity ≤ psmsgrStateMaxCapacity) :
    (psmiSlotStride capacity).toNat = (capacity.toNat + 95) / 64 * 64 := by
  have small : capacity.toNat ≤ 16777216 := UInt32.le_iff_toNat_le.mp bound
  have sum : (psmiSlotHeaderSize + capacity + psmiSlotAlign - 1).toNat = capacity.toNat + 95 := by
    have reorder : psmiSlotHeaderSize + capacity + psmiSlotAlign - 1 = capacity + 95 := by
      change 32 + capacity + 64 - 1 = capacity + 95
      rw [UInt32.add_comm 32 capacity, UInt32.add_assoc]
      change capacity + 96 - 1 = capacity + 95
      rw [UInt32.sub_eq_add_neg, UInt32.add_assoc]
      rfl
    rw [reorder, UInt32.toNat_add]
    exact Nat.mod_eq_of_lt (by change capacity.toNat + 95 < 2 ^ 32; omega)
  rw [psmiSlotStride, UInt32.toNat_and, sum]
  exact and_not_low 6 (by decide) (by omega)

theorem psmiSlotStride_bounds {capacity : UInt32} (bound : capacity ≤ psmsgrStateMaxCapacity) :
    32 + capacity.toNat ≤ (psmiSlotStride capacity).toNat ∧
      (psmiSlotStride capacity).toNat ≤ 16777280 := by
  have small : capacity.toNat ≤ 16777216 := UInt32.le_iff_toNat_le.mp bound
  rw [psmiSlotStride_toNat bound]
  omega

/-- `header_size + slot_count * slot_stride` in 64 bits: any two 32-bit factors fit. -/
theorem psmiFileSize_toNat (slotCount slotStride : UInt32) :
    (psmiFileSize slotCount slotStride).toNat = 128 + slotCount.toNat * slotStride.toNat := by
  have left := slotCount.toNat_lt
  have right := slotStride.toNat_lt
  have product : slotCount.toNat * slotStride.toNat ≤ (2 ^ 32 - 1) * (2 ^ 32 - 1) :=
    Nat.mul_le_mul (by omega) (by omega)
  rw [psmiFileSize, UInt64.toNat_add, UInt64.toNat_mul, UInt32.toNat_toUInt64,
    UInt32.toNat_toUInt64, UInt32.toNat_toUInt64]
  change (128 + slotCount.toNat * slotStride.toNat % 2 ^ 64) % 2 ^ 64 = _
  omega

theorem slotOffset_eq {slotStride i : UInt32} (stride : slotStride.toNat ≤ 16777280)
    (bound : i.toNat ≤ 16) : slotOffset slotStride i = 128 + i.toNat * slotStride.toNat := by
  have product : i.toNat * slotStride.toNat ≤ 16 * 16777280 := Nat.mul_le_mul bound stride
  rw [slotOffset, toSize, Nat.mod_eq_of_lt (by omega)]
  rfl

end PsMsgr
