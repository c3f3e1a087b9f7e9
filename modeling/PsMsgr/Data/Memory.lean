import Mathlib

namespace PsMsgr.Data

/-- The little-endian bytes of a number, `count` of them. -/
def encode : Nat → Nat → List UInt8
  | 0, _ => []
  | count + 1, value => UInt8.ofNat value :: encode count (value / 256)

def decode : List UInt8 → Nat
  | [] => 0
  | byte :: bytes => byte.toNat + 256 * decode bytes

@[simp] theorem encode_length (count value : Nat) : (encode count value).length = count := by
  induction count generalizing value with
  | zero => rfl
  | succ count ih => simp only [encode, List.length_cons, ih]

theorem decode_encode (count value : Nat) : decode (encode count value) = value % 256 ^ count := by
  induction count generalizing value with
  | zero => simp [encode, decode, Nat.mod_one]
  | succ count ih =>
      have low : (UInt8.ofNat value).toNat = value % 256 := by simp
      rw [encode, decode, ih, low, Nat.pow_succ, Nat.mul_comm (256 ^ count), Nat.mod_mul]

abbrev Memory := Nat → UInt8

namespace Memory

variable {memory other : Memory} {offset start count : Nat} {bytes : List UInt8}

def read (memory : Memory) : Nat → Nat → List UInt8
  | _, 0 => []
  | offset, count + 1 => memory offset :: memory.read (offset + 1) count

/-- Store the bytes one after the other, the first at `offset`. -/
def write (memory : Memory) : Nat → List UInt8 → Memory
  | _, [] => memory
  | offset, byte :: bytes => write (Function.update memory offset byte) (offset + 1) bytes

@[simp] theorem read_length : (memory.read offset count).length = count := by
  induction count generalizing offset with
  | zero => rfl
  | succ count ih => simp only [read, List.length_cons, ih]

theorem read_congr (same : ∀ address, offset ≤ address → address < offset + count →
    memory address = other address) : memory.read offset count = other.read offset count := by
  induction count generalizing offset with
  | zero => rfl
  | succ count ih =>
      have first := same offset (Nat.le_refl _) (by omega)
      have rest : memory.read (offset + 1) count = other.read (offset + 1) count :=
        ih (fun address lower upper => same address (by omega) (by omega))
      simp only [read, first, rest]

theorem getD_read {address : Nat} (inside : address < count) :
    (memory.read offset count).getD address 0 = memory (offset + address) := by
  induction count generalizing offset address with
  | zero => omega
  | succ count ih =>
      cases address with
      | zero => rfl
      | succ address =>
          have shifted : offset + 1 + address = offset + (address + 1) := by omega
          rw [read, List.getD_cons_succ, ih (by omega), shifted]

theorem read_eq (length : bytes.length = count)
    (each : ∀ index < count, memory (offset + index) = bytes.getD index 0) :
    memory.read offset count = bytes := by
  induction bytes generalizing offset count with
  | nil =>
      subst length
      rfl
  | cons byte bytes ih =>
      subst length
      have rest : memory.read (offset + 1) bytes.length = bytes := by
        refine ih rfl (fun index inside => ?_)
        have shifted : offset + 1 + index = offset + (index + 1) := by omega
        rw [shifted, each (index + 1) (Nat.succ_lt_succ inside), List.getD_cons_succ]
      have first : memory offset = byte := each 0 (Nat.succ_pos _)
      rw [List.length_cons, read, rest, first]

theorem read_eq_read {position : Nat}
    (each : ∀ index < count, memory (offset + index) = other (position + index)) :
    memory.read offset count = other.read position count :=
  read_eq read_length (fun index inside => (each index inside).trans (getD_read inside).symm)

theorem read_copy {skip length : Nat} (inside : skip + length ≤ count) :
    Memory.read (fun address => (memory.read offset count).getD address 0) skip length =
      memory.read (offset + skip) length := by
  induction length generalizing skip with
  | zero => rfl
  | succ length ih =>
      rw [read, read, getD_read (by omega), ih (by omega)]
      rfl

theorem write_apply_outside {address : Nat}
    (outside : address < offset ∨ offset + bytes.length ≤ address) :
    memory.write offset bytes address = memory address := by
  induction bytes generalizing memory offset with
  | nil => rfl
  | cons byte bytes ih =>
      simp only [List.length_cons] at outside
      rw [write, ih (by omega), Function.update_of_ne (by omega)]

theorem write_apply_inside {address : Nat} (lower : offset ≤ address)
    (upper : address < offset + bytes.length) :
    memory.write offset bytes address = bytes.getD (address - offset) 0 := by
  induction bytes generalizing memory offset with
  | nil => exact absurd upper (Nat.not_lt.mpr lower)
  | cons byte bytes ih =>
      rw [List.length_cons] at upper
      rw [write]
      by_cases first : address = offset
      · rw [write_apply_outside (by omega), first, Function.update_self, Nat.sub_self]
        rfl
      · have shifted : address - offset = address - (offset + 1) + 1 := by omega
        rw [ih (by omega) (by omega), shifted, List.getD_cons_succ]

theorem read_write_outside
    (outside : start + count ≤ offset ∨ offset + bytes.length ≤ start) :
    (memory.write offset bytes).read start count = memory.read start count :=
  read_congr (fun _ _ _ => write_apply_outside (by omega))

@[simp] theorem read_write : (memory.write offset bytes).read offset bytes.length = bytes := by
  induction bytes generalizing memory offset with
  | nil => rfl
  | cons byte bytes ih =>
      rw [write, List.length_cons, read, ih, write_apply_outside (by omega), Function.update_self]

def word16 (memory : Memory) (offset : Nat) : UInt16 :=
  UInt16.ofNat (decode (memory.read offset 2))

def word32 (memory : Memory) (offset : Nat) : UInt32 :=
  UInt32.ofNat (decode (memory.read offset 4))

def word64 (memory : Memory) (offset : Nat) : UInt64 :=
  UInt64.ofNat (decode (memory.read offset 8))

def bytes16 (value : UInt16) : List UInt8 := encode 2 value.toNat
def bytes32 (value : UInt32) : List UInt8 := encode 4 value.toNat
def bytes64 (value : UInt64) : List UInt8 := encode 8 value.toNat

@[simp] theorem bytes16_length (value : UInt16) : (bytes16 value).length = 2 := encode_length _ _
@[simp] theorem bytes32_length (value : UInt32) : (bytes32 value).length = 4 := encode_length _ _
@[simp] theorem bytes64_length (value : UInt64) : (bytes64 value).length = 8 := encode_length _ _

theorem word16_congr (same : memory.read offset 2 = other.read offset 2) :
    memory.word16 offset = other.word16 offset := by rw [word16, same, word16]

theorem word32_congr (same : memory.read offset 4 = other.read offset 4) :
    memory.word32 offset = other.word32 offset := by rw [word32, same, word32]

theorem word64_congr (same : memory.read offset 8 = other.read offset 8) :
    memory.word64 offset = other.word64 offset := by rw [word64, same, word64]

theorem decode_bytes32 (value : UInt32) : UInt32.ofNat (decode (bytes32 value)) = value := by
  have bounded := value.toNat_lt
  rw [bytes32, decode_encode, Nat.mod_eq_of_lt (by simpa using bounded)]
  simp

theorem decode_bytes64 (value : UInt64) : UInt64.ofNat (decode (bytes64 value)) = value := by
  have bounded := value.toNat_lt
  rw [bytes64, decode_encode, Nat.mod_eq_of_lt (by simpa using bounded)]
  simp

theorem decode_bytes16 (value : UInt16) : UInt16.ofNat (decode (bytes16 value)) = value := by
  have bounded := value.toNat_lt
  rw [bytes16, decode_encode, Nat.mod_eq_of_lt (by simpa using bounded)]
  simp

theorem word16_of_read {value : UInt16} (stored : memory.read offset 2 = bytes16 value) :
    memory.word16 offset = value := by rw [word16, stored, decode_bytes16]

theorem word32_of_read {value : UInt32} (stored : memory.read offset 4 = bytes32 value) :
    memory.word32 offset = value := by rw [word32, stored, decode_bytes32]

theorem word64_of_read {value : UInt64} (stored : memory.read offset 8 = bytes64 value) :
    memory.word64 offset = value := by rw [word64, stored, decode_bytes64]

@[simp] theorem word32_write (value : UInt32) :
    (memory.write offset (bytes32 value)).word32 offset = value :=
  word32_of_read (by rw [← bytes32_length value, read_write])

@[simp] theorem word16_write (value : UInt16) :
    (memory.write offset (bytes16 value)).word16 offset = value :=
  word16_of_read (by rw [← bytes16_length value, read_write])

theorem word16_write_outside
    (outside : start + 2 ≤ offset ∨ offset + bytes.length ≤ start) :
    (memory.write offset bytes).word16 start = memory.word16 start :=
  word16_congr (read_write_outside outside)

theorem word32_write_outside
    (outside : start + 4 ≤ offset ∨ offset + bytes.length ≤ start) :
    (memory.write offset bytes).word32 start = memory.word32 start :=
  word32_congr (read_write_outside outside)

end Memory

end PsMsgr.Data
