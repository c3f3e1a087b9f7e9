import PsMsgr.State.Sized
import PsMsgr.Still.Reading

namespace PsMsgr

open Effect Data

section

variable {memory : Memory} {address : Nat} {struct : List UInt8} {size : UInt32}

theorem writeSized_apply (byte : Nat) :
    writeSized memory address struct size byte =
      if address ≤ byte ∧ byte < address + size.toNat then struct.getD (byte - address) 0
      else memory byte := by
  unfold writeSized
  split
  · next short =>
      have length : (struct.take size.toNat).length = size.toNat := by
        rw [List.length_take]
        exact Nat.min_eq_left short
      split
      · next inside =>
          rw [Memory.write_apply_inside inside.1 (by rw [length]; exact inside.2)]
          simp only [List.getD_eq_getElem?_getD]
          rw [List.getElem?_take_of_lt (by omega)]
      · next outside => exact Memory.write_apply_outside (by rw [length]; omega)
  · next long =>
      have zeros : (List.replicate (size.toNat - struct.length) (0 : UInt8)).length =
        size.toNat - struct.length := List.length_replicate
      split
      · next inside =>
          by_cases own : byte < address + struct.length
          · rw [Memory.write_apply_outside (.inl own), Memory.write_apply_inside inside.1 own]
          · have behind : struct.length ≤ byte - address := by omega
            rw [Memory.write_apply_inside (by omega) (by rw [zeros]; omega)]
            simp only [List.getD_eq_getElem?_getD, List.getElem?_eq_none behind]
            rw [List.getElem?_replicate_of_lt (by omega)]
            rfl
      · next outside =>
          rw [Memory.write_apply_outside (by rw [zeros]; omega),
            Memory.write_apply_outside (by omega)]

theorem writeSized_read {skip count : Nat} (covered : skip + count ≤ size.toNat)
    (inside : skip + count ≤ struct.length) :
    (writeSized memory address struct size).read (address + skip) count =
      (struct.drop skip).take count := by
  refine Memory.read_eq ?_ (fun index below => ?_)
  · rw [List.length_take, List.length_drop]
    omega
  · rw [writeSized_apply, if_pos (by omega)]
    simp only [List.getD_eq_getElem?_getD]
    rw [List.getElem?_take_of_lt below, List.getElem?_drop]
    congr 2
    omega

end

/-- The fields of the struct behind `struct_size`. -/
inductive OptionField where
  | capacity | slotCount | payloadType | mode | flags | dir

namespace OptionField

def offset : OptionField → Nat
  | capacity => 4
  | slotCount => 8
  | payloadType => 12
  | mode => 16
  | flags => 20
  | dir => 24

def width (abi : Abi) : OptionField → Nat
  | dir => abi.pointerSize
  | _ => 4

/-- The field has the same value in both. -/
def Same (left right : Options) : OptionField → Prop
  | capacity => left.capacity = right.capacity
  | slotCount => left.slotCount = right.slotCount
  | payloadType => left.payloadType = right.payloadType
  | mode => left.mode = right.mode
  | flags => left.flags = right.flags
  | dir => left.dir = right.dir

theorem eq_of_same {left right : Options} (sized : left.structSize = right.structSize)
    (each : ∀ field : OptionField, field.Same left right) : left = right := by
  obtain ⟨leftSize, leftCapacity, leftSlots, leftType, leftMode, leftFlags, leftDir⟩ := left
  obtain ⟨size, capacity, slots, type, mode, flags, dir⟩ := right
  rw [Options.mk.injEq]
  exact ⟨sized, each .capacity, each .slotCount, each .payloadType, each .mode, each .flags,
    each .dir⟩

/-- The caller's struct has all of the field. -/
def Covered (abi : Abi) (size : UInt32) (field : OptionField) : Prop :=
  field.offset + field.width abi ≤ size.toNat

theorem covered_size (abi : Abi) (field : OptionField) :
    field.Covered abi (UInt32.ofNat (Options.size abi)) := by
  unfold Covered
  cases abi
  all_goals cases field
  all_goals decide

end OptionField

section

variable {abi : Abi} {opt other : Options}

/-- The loaded options alone decide. -/
theorem loadOptions_congr (initialized : opt.structSize = 0 ↔ other.structSize = 0)
    (same : loadedOptions abi opt = loadedOptions abi other) :
    loadOptions abi (some opt) = loadOptions abi (some other) := by
  unfold loadOptions
  dsimp only
  by_cases zero : opt.structSize = 0
  · rw [if_pos zero, if_pos (initialized.mp zero)]
  · rw [if_neg zero, if_neg (mt initialized.mpr zero), same]

theorem has_iff {field : OptionField} :
    opt.has field.offset (field.width abi) = true ↔ field.Covered abi opt.structSize :=
  decide_eq_true_iff

theorem loadedOptions_covered (field : OptionField) (covered : field.Covered abi opt.structSize) :
    field.Same (loadedOptions abi opt) opt := by
  cases field
  all_goals exact if_pos (has_iff.mpr covered)

/-- A field that is not there, or cut, has its default. -/
theorem loadedOptions_default (field : OptionField) (cut : ¬ field.Covered abi opt.structSize) :
    field.Same (loadedOptions abi opt) (psmsgrStateOptionsInit abi) := by
  cases field
  all_goals exact if_neg (mt has_iff.mp cut)

theorem loadOptions_ok {o : Options} (loaded : loadOptions abi (some opt) = .ok o) :
    o = loadedOptions abi opt := by
  unfold loadOptions at loaded
  dsimp only at loaded
  split at loaded
  · exact nomatch loaded
  · next o sized =>
      split at sized
      · exact nomatch sized
      · split at loaded
        · exact nomatch loaded
        · obtain rfl := Except.ok.inj loaded
          exact (Except.ok.inj sized).symm

theorem loadedOptions_congr (sized : opt.structSize = other.structSize)
    (same : ∀ field : OptionField, field.Covered abi opt.structSize → field.Same opt other) :
    loadedOptions abi opt = loadedOptions abi other := by
  refine OptionField.eq_of_same rfl (fun field => ?_)
  by_cases covered : field.Covered abi opt.structSize
  · have left := loadedOptions_covered field covered
    have right := @loadedOptions_covered abi other field (sized ▸ covered)
    have middle := same field covered
    cases field
    all_goals exact (left.trans middle).trans right.symm
  · have left := loadedOptions_default field covered
    have right := @loadedOptions_default abi other field (sized ▸ covered)
    cases field
    all_goals exact left.trans right.symm

theorem loadOptions_loaded (initialized : opt.structSize ≠ 0) :
    loadOptions abi (some opt) = loadOptions abi (some (loadedOptions abi opt)) := by
  have size : (loadedOptions abi opt).structSize = UInt32.ofNat (Options.size abi) := rfl
  refine loadOptions_congr ⟨fun zero => absurd zero initialized, fun zero => ?_⟩ ?_
  · rw [size] at zero
    cases abi
    all_goals exact absurd zero (by decide)
  · refine OptionField.eq_of_same rfl (fun field => ?_)
    have covered : field.Covered abi (loadedOptions abi opt).structSize := by
      rw [size]
      exact field.covered_size abi
    have loaded := loadedOptions_covered field covered
    cases field
    all_goals exact loaded.symm

end

section

variable {abi : Abi} {texts : Nat → List Char} {memory other : Memory} {opt position : Nat}
  {size : UInt32}

theorem ofMemory_same {field : OptionField}
    (window : memory.read (opt + field.offset) (field.width abi) =
      other.read (position + field.offset) (field.width abi)) :
    field.Same (Options.ofMemory abi texts memory opt)
      (Options.ofMemory abi texts other position) := by
  cases field with
  | dir =>
      change _ = _
      simp only [Options.ofMemory]
      rw [show memory.read (opt + 24) abi.pointerSize = _ from window]
      rfl
  | _ =>
      change UInt32.ofNat (decode (memory.read _ 4)) = UInt32.ofNat (decode (other.read _ 4))
      exact congrArg (fun bytes => UInt32.ofNat (decode bytes)) window

theorem loadOptions_ofMemory_congr
    (sized : memory.word32 opt = other.word32 position)
    (agree : ∀ index < min (memory.word32 opt).toNat (Options.size abi),
      memory (opt + index) = other (position + index)) :
    loadOptions abi (some (Options.ofMemory abi texts memory opt)) =
      loadOptions abi (some (Options.ofMemory abi texts other position)) := by
  refine loadOptions_congr (Eq.congr_left sized) (loadedOptions_congr sized fun field covered => ?_)
  refine ofMemory_same (Memory.read_eq_read fun index below => ?_)
  have inside : field.offset + field.width abi ≤ Options.size abi := by
    have own := field.covered_size abi
    cases abi
    all_goals exact own
  have whole : field.offset + field.width abi ≤ (memory.word32 opt).toNat := covered
  rw [Nat.add_assoc, Nat.add_assoc]
  exact agree _ (by omega)

/-- The library's struct with the defaults, as `init_sized` copies it. -/
def initBytes (abi : Abi) (size : UInt32) : List UInt8 :=
  Options.bytes abi { psmsgrStateOptionsInit abi with structSize := size } 0

theorem initBytes_length : (initBytes abi size).length = Options.size abi := by
  simp only [initBytes, Options.bytes, List.length_append, Memory.bytes32_length, encode_length,
    Options.size]

theorem initSized_eq (enough : 4 ≤ size) :
    psmsgrStateOptionsInitSized abi memory opt size =
      writeSized memory opt (initBytes abi size) size :=
  if_neg (UInt32.not_lt.mpr enough)

theorem initSized_structSize (enough : 4 ≤ size) :
    (psmsgrStateOptionsInitSized abi memory opt size).word32 opt = size := by
  have least : 4 ≤ size.toNat := UInt32.le_iff_toNat_le.mp enough
  rw [initSized_eq enough]
  refine Memory.word32_of_read ?_
  have room : 0 + 4 ≤ (initBytes abi size).length := by
    rw [initBytes_length, Options.size]
    omega
  have window : (writeSized memory opt (initBytes abi size) size).read (opt + 0) 4 =
      ((initBytes abi size).drop 0).take 4 := writeSized_read (by omega) room
  exact window

theorem initSized_same (enough : 4 ≤ size) {field : OptionField} (covered : field.Covered abi size) :
    field.Same (Options.ofMemory abi texts (psmsgrStateOptionsInitSized abi memory opt size) opt)
      (psmsgrStateOptionsInit abi) := by
  have room : field.offset + field.width abi ≤ (initBytes abi size).length := by
    rw [initBytes_length]
    have own := field.covered_size abi
    cases abi
    all_goals exact own
  have window : (psmsgrStateOptionsInitSized abi memory opt size).read (opt + field.offset)
      (field.width abi) = ((initBytes abi size).drop field.offset).take (field.width abi) := by
    rw [initSized_eq enough]
    exact writeSized_read covered room
  cases field with
  | dir =>
      have pointer : ((initBytes abi size).drop 24).take abi.pointerSize =
          encode abi.pointerSize 0 := by
        cases abi
        all_goals rfl
      have null : decode ((psmsgrStateOptionsInitSized abi memory opt size).read (opt + 24)
          abi.pointerSize) = 0 := by
        refine (congrArg decode (window.trans pointer)).trans ?_
        rw [decode_encode, Nat.zero_mod]
      change (Options.ofMemory abi texts _ opt).dir = none
      unfold Options.ofMemory
      rw [null]
  | _ => exact Memory.word32_of_read window

theorem loadOptions_initSized (enough : 4 ≤ size) :
    loadOptions abi (some (Options.ofMemory abi texts
      (psmsgrStateOptionsInitSized abi memory opt size) opt)) =
      .ok (psmsgrStateOptionsInit abi) := by
  have least : 4 ≤ size.toNat := UInt32.le_iff_toNat_le.mp enough
  generalize caller : Options.ofMemory abi texts
    (psmsgrStateOptionsInitSized abi memory opt size) opt = o
  have sized : o.structSize = size := by
    rw [← caller]
    exact initSized_structSize enough
  have initialized : o.structSize ≠ 0 := by
    intro zero
    rw [sized] at zero
    rw [zero] at least
    exact absurd least (by decide)
  have defaults : loadedOptions abi o = psmsgrStateOptionsInit abi := by
    refine OptionField.eq_of_same rfl (fun field => ?_)
    by_cases covered : field.Covered abi o.structSize
    · have loaded := loadedOptions_covered field covered
      have same := @initSized_same abi texts memory opt size enough field (sized ▸ covered)
      rw [caller] at same
      cases field
      all_goals exact loaded.trans same
    · exact loadedOptions_default field covered
  rw [loadOptions_loaded initialized, defaults]
  cases abi
  all_goals rfl

end

/-- The library's description of the file a reader is attached to. -/
def Reader.desc (r : Reader) : Desc where
  capacity := r.capacity
  slotCount := r.slotCount
  payloadType := r.payloadType
  flags := if (r.configFlags &&& psmiConfigNoNotify) != 0 then psmsgrStateNoNotify else 0

/-- The first `size` bytes at `address` are those of `struct`, then 0; the others are as they
were. -/
def WrittenSized (memory : Memory) (address : Nat) (struct : List UInt8) (size : UInt32)
    (after : Memory) : Prop :=
  ∀ byte, after byte =
    if address ≤ byte ∧ byte < address + size.toNat then struct.getD (byte - address) 0
    else memory byte

section

variable {r : Reader} {memory : Memory} {desc : Nat} {size : UInt32}

/-- Whatever the calls reply: a description is that of the reader as it is afterwards. -/
theorem describeSized_written (positive : size ≠ 0) :
    (psmsgrStateDescribeSized r memory desc size).Always (fun _ => True)
      (fun returned => (returned.1 = .ok →
          WrittenSized memory desc returned.2.2.desc.bytes size returned.2.1) ∧
        (returned.1 ≠ .ok → returned.2.1 = memory)) := by
  unfold psmsgrStateDescribeSized
  rw [if_neg positive]
  have described : (psmsgrStateDescribe r).Always (fun _ => True) (fun described =>
      (described.1 = .ok ∧ described.2.1 = some described.2.2.desc) ∨
        (described.1 ≠ .ok ∧ described.2.1 = none)) := by
    refine (Program.Always.intro (readerSync r)).bind fun synced _ => ?_
    obtain ⟨code, synced⟩ := synced
    dsimp only
    split
    · next failed => exact .inr ⟨failed, rfl⟩
    · exact .inl ⟨rfl, rfl⟩
  refine described.bind ?_
  rintro ⟨code, d, synced⟩ found
  dsimp only at found
  rcases found with ⟨rfl, rfl⟩ | ⟨failed, rfl⟩
  · exact ⟨fun _ byte => writeSized_apply byte, fun failed => absurd rfl failed⟩
  · exact ⟨fun ok => absurd ok failed, fun _ => rfl⟩

theorem describeSized_attached {thread : Tid} {world : World} {file : FileId} (positive : size ≠ 0)
    (attached : r.file = some file) (active : ¬ world.disk.Retired file) :
    (psmsgrStateDescribeSized r memory desc size).Must (execGranted thread)
      (fun returned _ => returned.1 = .ok ∧ returned.2.2 = r) world := by
  have evaluates : (psmsgrStateDescribeSized r memory desc size).eval world.disk.answer =
      some (.ok, writeSized memory desc r.desc.bytes size, r) := by
    rw [psmsgrStateDescribeSized, if_neg positive, Program.eval_bind, psmsgrStateDescribe,
      Program.eval_bind, eval_readerSync_attached attached active, Option.bind_some]
    rfl
  refine (ends_of_answer evaluates ⟨rfl, rfl⟩).mono ?_
  rintro returned after ⟨rfl, -⟩
  exact ⟨rfl, rfl⟩

end

/-- Structs of any size: initializing writes the caller's bytes and no others and zeroes those the
library does not know, loading takes the fields the size covers and the defaults for the others and
looks at nothing else, so that it takes an initialized struct for the defaults; and a description
is written in the same way. -/
theorem sized_structs_compatible (abi : Abi) :
    (∀ {memory opt size}, 4 ≤ size →
      (∀ byte, byte < opt ∨ opt + size.toNat ≤ byte →
        psmsgrStateOptionsInitSized abi memory opt size byte = memory byte) ∧
      (psmsgrStateOptionsInitSized abi memory opt size).word32 opt = size ∧
      ∀ byte, opt + Options.size abi ≤ byte → byte < opt + size.toNat →
        psmsgrStateOptionsInitSized abi memory opt size byte = 0) ∧
    (∀ {texts memory other opt position}, Memory.word32 memory opt ≠ 0 →
      Memory.word32 memory opt = Memory.word32 other position →
      (∀ index < min (Memory.word32 memory opt).toNat (Options.size abi),
        memory (opt + index) = other (position + index)) →
      loadOptions abi (some (Options.ofMemory abi texts memory opt)) =
        loadOptions abi (some (Options.ofMemory abi texts other position))) ∧
    (∀ {opt : Options}, opt.structSize ≠ 0 →
      loadOptions abi (some opt) = loadOptions abi (some (loadedOptions abi opt)) ∧
      (∀ {o}, loadOptions abi (some opt) = .ok o → o = loadedOptions abi opt) ∧
      ∀ field : OptionField,
        (field.Covered abi opt.structSize → field.Same (loadedOptions abi opt) opt) ∧
        (¬ field.Covered abi opt.structSize →
          field.Same (loadedOptions abi opt) (psmsgrStateOptionsInit abi))) ∧
    (∀ {texts memory opt size}, 4 ≤ size →
      loadOptions abi (some (Options.ofMemory abi texts
        (psmsgrStateOptionsInitSized abi memory opt size) opt)) =
        .ok (psmsgrStateOptionsInit abi)) ∧
    ∀ {r : Reader} {memory desc size}, size ≠ 0 →
      (psmsgrStateDescribeSized r memory desc size).Always (fun _ => True)
        (fun returned => (returned.1 = .ok →
            WrittenSized memory desc returned.2.2.desc.bytes size returned.2.1) ∧
          (returned.1 ≠ .ok → returned.2.1 = memory)) ∧
      ∀ {thread world file}, r.file = some file → ¬ world.disk.Retired file →
        (psmsgrStateDescribeSized r memory desc size).Must (execGranted thread)
          (fun returned _ => returned.1 = .ok ∧ returned.2.2 = r) world := by
  refine ⟨?_, ?_, ?_, fun enough => loadOptions_initSized enough, ?_⟩
  · intro memory opt size enough
    rw [initSized_eq enough]
    refine ⟨fun byte outside => ?_, ?_, fun byte lower upper => ?_⟩
    · rw [writeSized_apply, if_neg (by omega)]
    · rw [← initSized_eq enough]
      exact initSized_structSize enough
    · rw [writeSized_apply, if_pos (by omega), List.getD_eq_getElem?_getD,
        List.getElem?_eq_none (by rw [initBytes_length]; omega)]
      rfl
  · intro texts memory other opt position _ sized agree
    exact loadOptions_ofMemory_congr sized agree
  · intro opt initialized
    exact ⟨loadOptions_loaded initialized, loadOptions_ok,
      fun field => ⟨loadedOptions_covered field, loadedOptions_default field⟩⟩
  · intro r memory desc size positive
    exact ⟨describeSized_written positive, describeSized_attached positive⟩

end PsMsgr
