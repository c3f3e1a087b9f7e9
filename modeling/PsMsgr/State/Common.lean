import PsMsgr.Host.Call

namespace PsMsgr

open Effect Data

/-- The return codes of the interface. -/
inductive Code where
  | ok | inval | sys | nodata | toosmall | toobig | busy | timeout | intr
  | writerExists | mismatch | format | notsup | state
deriving DecidableEq, Repr, Inhabited

def readRetries : Nat := 64
def attachRetries : Nat := 2
def waitSliceNs : UInt64 := 1000000000
def unattachedPollNs : UInt64 := 10000000
def nsPerMs : UInt64 := 1000000

def psmsgrNameMax : Nat := 64
def psmsgrStateDefaultSlots : UInt32 := 3
def psmsgrStateRecreate : UInt32 := 1
def psmsgrStateNoNotify : UInt32 := 2

/-- 0 is never a valid generation. -/
def nextGeneration (gen : UInt32) : UInt32 :=
  if gen = 0xFFFFFFFF then 1 else gen + 1

theorem nextGeneration_ne_zero (gen : UInt32) : nextGeneration gen ≠ 0 := by
  unfold nextGeneration
  split
  · decide
  · next below =>
      intro wrapped
      have value := congrArg UInt32.toNat wrapped
      have bound := gen.toNat_lt
      rw [UInt32.toNat_add] at value
      change (gen.toNat + 1) % 2 ^ 32 = 0 at value
      exact below (UInt32.toNat_inj.mp (by change gen.toNat = 4294967295; omega))

def nameChar (c : Char) : Bool :=
  (c ≥ 'A' && c ≤ 'Z') || (c ≥ 'a' && c ≤ 'z') || (c ≥ '0' && c ≤ '9') ||
    c == '_' || c == '-' || c == '.'

/-- `[A-Za-z0-9_-][A-Za-z0-9_.-]{0,63}`; `none` is a null pointer. -/
def nameValid : Option (List Char) → Bool
  | none => false
  | some [] => false
  | some (first :: rest) =>
      first != '.' && (first :: rest).length ≤ psmsgrNameMax && (first :: rest).all nameChar

structure Paths where
  dir : List Char
  data : List Char
  lock : List Char
  dataBase : List Char
deriving DecidableEq, Repr

/-- `environment` is `PSMSGR_DIR`; an empty value counts as unset. -/
def pathsOf (environment dir : Option (List Char)) (name : List Char) : Paths :=
  let dir := match dir with
    | some dir => dir
    | none => match environment with
      | some (first :: rest) => first :: rest
      | _ => "/dev/shm".toList
  { dir
    data := dir ++ "/psmsgr.".toList ++ name ++ ".state".toList
    lock := dir ++ "/psmsgr.".toList ++ name ++ ".lock".toList
    dataBase := "psmsgr.".toList ++ name ++ ".state".toList }

def pathsInit (environment dir : Option (List Char)) (name : List Char) :
    Prog (Except Code Paths) := do
  if ← call .malloc then
    return .ok (pathsOf environment dir name)
  else
    return .error .sys

instance : Inhabited Header :=
  ⟨⟨0, 0, 0, 0, 0, 0, 0, 0, 0, 0⟩⟩

/-- The checks every header copy passes before any of its fields is used. -/
def headerValid (h : Header) (fileBytes : Nat) : Bool :=
  h.magic == psmiMagic && h.versionMajor == psmiVersionMajor &&
    h.headerSize == psmiHeaderSize && h.slotHeaderSize == psmiSlotHeaderSize &&
    h.slotCount ≥ psmiMinSlots && h.slotCount ≤ psmiMaxSlots &&
    h.capacity ≤ psmsgrStateMaxCapacity &&
    h.slotStride == psmiSlotStride h.capacity &&
    (psmiFileSize h.slotCount h.slotStride).toNat ≤ fileBytes

/-- A header from the bytes `pread` returned. -/
def Header.ofBytes (bytes : List UInt8) : Header :=
  Header.ofMemory (fun address => bytes.getD address 0)

/-- `OK` with the file's size and a header copy, `FORMAT` or `SYS`. -/
def readHeader (fd : FileId) : Prog (Code × Nat × Header) := do
  match ← call (.fstat fd) with
  | .error _ => return (.sys, 0, default)
  | .ok st =>
      if !st.regular || st.size < psmiHeaderSize.toNat then
        return (.format, 0, default)
      match ← call (.pread fd 0 psmiHeaderSize.toNat) with
      | .error _ => return (.sys, 0, default)
      | .ok bytes =>
          if bytes.length = psmiHeaderSize.toNat then
            return (.ok, st.size, Header.ofBytes bytes)
          else
            return (.format, 0, default)

/-- Tells attached readers and waiters to reattach. -/
def retire (h : FileId) : Prog Unit := do
  let _ ← call (.fetchOr h Offset.state psmiStateRetired)
  let _ ← call (.fetchAdd h Offset.notify 1)
  call (.futexWake h)

end PsMsgr
