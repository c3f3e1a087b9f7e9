import PsMsgr.State.Common

namespace PsMsgr

open Data

structure Geometry where
  slotCount : UInt32
  slotStride : UInt32
  capacity : UInt32
  two_le : 2 ≤ slotCount.toNat
  le_sixteen : slotCount.toNat ≤ 16
  bounded : capacity ≤ psmsgrStateMaxCapacity
  aligned : slotStride = psmiSlotStride capacity

namespace Geometry

variable (g : Geometry)

def count : Nat := g.slotCount.toNat

def stride : Nat := g.slotStride.toNat

/-- Where slot `i` starts. -/
def slot (i : Nat) : Nat := 128 + i * g.stride

theorem count_pos : 0 < g.count := by
  have lower := g.two_le
  unfold count
  omega

theorem stride_bounds : 32 + g.capacity.toNat ≤ g.stride ∧ g.stride ≤ 16777280 := by
  rw [stride, g.aligned]
  exact psmiSlotStride_bounds g.bounded

theorem stride_mod : g.stride % 64 = 0 := by
  rw [stride, g.aligned, psmiSlotStride_toNat g.bounded]
  omega

theorem stride_ge : 64 ≤ g.stride := by
  have lower := g.stride_bounds.1
  have multiple := g.stride_mod
  omega

theorem slot_ge (i : Nat) : 128 ≤ g.slot i := Nat.le_add_right _ _

theorem slot_disjoint {i j : Nat} (distinct : i ≠ j) :
    g.slot i + g.stride ≤ g.slot j ∨ g.slot j + g.stride ≤ g.slot i := by
  unfold slot
  rcases Nat.lt_or_gt_of_ne distinct with less | greater
  · have product := Nat.mul_le_mul_right g.stride (Nat.succ_le_of_lt less)
    rw [Nat.succ_mul] at product
    omega
  · have product := Nat.mul_le_mul_right g.stride (Nat.succ_le_of_lt greater)
    rw [Nat.succ_mul] at product
    omega

theorem slot_injective {i j : Nat} (same : g.slot i = g.slot j) : i = j := by
  by_cases equal : i = j
  · exact equal
  · have apart := g.slot_disjoint equal
    have positive := g.stride_ge
    omega

theorem slotOffset_eq_slot {i : UInt32} (inside : i.toNat ≤ 16) :
    slotOffset g.slotStride i = g.slot i.toNat :=
  slotOffset_eq g.stride_bounds.2 inside

end Geometry

theorem slotIndex_toNat {g : Geometry} {i : Nat} (inside : i < g.count) :
    (UInt32.ofNat i).toNat = i := by
  have most := g.le_sixteen
  rw [UInt32.toNat_ofNat']
  exact Nat.mod_eq_of_lt (by unfold Geometry.count at inside; omega)

/-- The memory's header carries the geometry. -/
structure Shape (memory : Memory) (g : Geometry) : Prop where
  slotCount : memory.word32 Offset.slotCount = g.slotCount
  slotStride : memory.word32 Offset.slotStride = g.slotStride
  capacity : memory.word32 Offset.capacity = g.capacity

theorem Shape.unique {memory : Memory} {g g' : Geometry} (left : Shape memory g)
    (right : Shape memory g') : g = g' := by
  have count := left.slotCount.symm.trans right.slotCount
  have stride := left.slotStride.symm.trans right.slotStride
  have capacity := left.capacity.symm.trans right.capacity
  cases g
  cases g'
  simp only [Geometry.mk.injEq]
  exact ⟨count, stride, capacity⟩

theorem Header.ofMemory_congr {memory other : Memory}
    (same : ∀ address, address < Offset.state → memory address = other address) :
    Header.ofMemory memory = Header.ofMemory other := by
  have window : ∀ offset count, offset + count ≤ 36 →
      memory.read offset count = other.read offset count :=
    fun offset count room => Memory.read_congr
      (fun address _ upper => same address (by change address < 36; omega))
  unfold Header.ofMemory
  simp only [Header.mk.injEq]
  refine ⟨?_, ?_, ?_, ?_, ?_, ?_, ?_, ?_, ?_, ?_⟩
  case refine_2 => exact Memory.word16_congr (window _ _ (by decide))
  case refine_3 => exact Memory.word16_congr (window _ _ (by decide))
  all_goals exact Memory.word32_congr (window _ _ (by decide))

theorem Shape.congr {memory other : Memory} {g : Geometry} (shape : Shape memory g)
    (same : ∀ address, address < Offset.state → other address = memory address) :
    Shape other g := by
  have header := Header.ofMemory_congr same
  exact
    { slotCount := (congrArg Header.slotCount header).trans shape.slotCount
      slotStride := (congrArg Header.slotStride header).trans shape.slotStride
      capacity := (congrArg Header.capacity header).trans shape.capacity }

theorem headerValid_iff {h : Header} {size : Nat} :
    headerValid h size = true ↔
      h.magic = psmiMagic ∧ h.versionMajor = psmiVersionMajor ∧
      h.headerSize = psmiHeaderSize ∧ h.slotHeaderSize = psmiSlotHeaderSize ∧
      psmiMinSlots ≤ h.slotCount ∧ h.slotCount ≤ psmiMaxSlots ∧
      h.capacity ≤ psmsgrStateMaxCapacity ∧ h.slotStride = psmiSlotStride h.capacity ∧
      (psmiFileSize h.slotCount h.slotStride).toNat ≤ size := by
  simp only [headerValid, Bool.and_eq_true, beq_iff_eq, decide_eq_true_eq, ge_iff_le, and_assoc]

theorem headerValid_size {h : Header} {size : Nat} (valid : headerValid h size = true) : 128 ≤ size := by
  have room := (headerValid_iff.mp valid).2.2.2.2.2.2.2.2
  rw [psmiFileSize_toNat] at room
  omega

theorem Header.ofBytes_read (memory : Memory) :
    Header.ofBytes (memory.read 0 128) = Header.ofMemory memory := by
  refine Header.ofMemory_congr (fun address below => ?_)
  have inside : address < 128 := Nat.lt_trans below (by decide)
  rw [Memory.getD_read inside, Nat.zero_add]

theorem Geometry.of_headerValid {h : Header} {size : Nat} (valid : headerValid h size = true) :
    ∃ g : Geometry, h.slotCount = g.slotCount ∧ h.slotStride = g.slotStride ∧
      h.capacity = g.capacity ∧ g.slot g.count ≤ size := by
  obtain ⟨-, -, -, -, least, most, bounded, aligned, room⟩ := headerValid_iff.mp valid
  let g : Geometry :=
    { slotCount := h.slotCount
      slotStride := h.slotStride
      capacity := h.capacity
      two_le := UInt32.le_iff_toNat_le.mp least
      le_sixteen := UInt32.le_iff_toNat_le.mp most
      bounded := bounded
      aligned := aligned }
  rw [psmiFileSize_toNat] at room
  exact ⟨g, rfl, rfl, rfl, room⟩

theorem openedIndex_lt {g : Geometry} {latest : UInt32}
    (valid : psmiLatestValid latest g.slotCount = true) :
    (if latest ≠ psmiLatestNone then psmiLatestSlot latest else latest) = psmiLatestNone ∨
      (if latest ≠ psmiLatestNone then psmiLatestSlot latest else latest).toNat < g.count := by
  rcases psmiLatestValid_iff.mp valid with rfl | ⟨small, below⟩
  · exact .inl (if_neg (not_not.mpr rfl))
  · have published : latest ≠ psmiLatestNone := by
      rintro rfl
      exact absurd small (by decide)
    rw [if_pos published]
    exact .inr below

theorem Geometry.toSize_fileSize (g : Geometry) :
    toSize (psmiFileSize g.slotCount g.slotStride).toNat = g.slot g.count := by
  have product : g.count * g.stride ≤ 16 * 16777280 :=
    Nat.mul_le_mul g.le_sixteen g.stride_bounds.2
  rw [psmiFileSize_toNat, toSize]
  exact Nat.mod_eq_of_lt (by unfold count stride at product; omega)

end PsMsgr
