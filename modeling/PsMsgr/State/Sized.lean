import PsMsgr.State.Reader
import PsMsgr.State.Writer

namespace PsMsgr

open Effect Data

/-! # Structs whose size the caller gives

The caller's struct is that of the header it was compiled with, which need not be the
library's own.  Here the structs are bytes of the caller's memory.
-/

/-- The first `size` bytes at `address` become those of the library's struct, and 0 behind
its end. -/
def writeSized (memory : Memory) (address : Nat) (struct : List UInt8) (size : UInt32) : Memory :=
  if size.toNat ≤ struct.length then
    memory.write address (struct.take size.toNat)
  else -- a newer caller: fields this library doesn't know read as 0
    (memory.write address struct).write (address + struct.length)
      (List.replicate (size.toNat - struct.length) 0)

/-- The struct with its pointer `dir`. -/
def Options.bytes (abi : Abi) (o : Options) (dir : Nat) : List UInt8 :=
  Memory.bytes32 o.structSize ++ Memory.bytes32 o.capacity ++ Memory.bytes32 o.slotCount ++
    Memory.bytes32 o.payloadType ++ Memory.bytes32 o.mode ++ Memory.bytes32 o.flags ++
    encode abi.pointerSize dir

/-- The struct at an address; `texts` are the strings pointers lead to. -/
def Options.ofMemory (abi : Abi) (texts : Nat → List Char) (memory : Memory) (opt : Nat) :
    Options where
  structSize := memory.word32 opt
  capacity := memory.word32 (opt + 4)
  slotCount := memory.word32 (opt + 8)
  payloadType := memory.word32 (opt + 12)
  mode := memory.word32 (opt + 16)
  flags := memory.word32 (opt + 20)
  dir := match decode (memory.read (opt + 24) abi.pointerSize) with
    | 0 => none
    | pointer + 1 => some (texts (pointer + 1))

def psmsgrStateOptionsInitSized (abi : Abi) (memory : Memory) (opt : Nat) (size : UInt32) :
    Memory :=
  if size < 4 then memory
  else writeSized memory opt
    (Options.bytes abi { psmsgrStateOptionsInit abi with structSize := size } 0) size

def Desc.bytes (d : Desc) : List UInt8 :=
  Memory.bytes32 d.capacity ++ Memory.bytes32 d.slotCount ++ Memory.bytes32 d.payloadType ++
    Memory.bytes32 d.flags

/-- `memory` is the caller's. -/
def psmsgrStateDescribeSized (r : Reader) (memory : Memory) (desc : Nat) (size : UInt32) :
    Prog (Code × Memory × Reader) := do
  if size = 0 then
    return (.inval, memory, r)
  let (rc, d, r) ← psmsgrStateDescribe r
  match d with
  | none => return (rc, memory, r)
  | some d => return (rc, writeSized memory desc d.bytes size, r)

end PsMsgr
