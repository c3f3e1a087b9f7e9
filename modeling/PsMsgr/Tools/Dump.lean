import PsMsgr.State.Common

namespace PsMsgr

open Effect Data

/-! # The raw view of `psmsgr-dump`

What the tool finds out about a data file; the tables it prints are left out.
-/

namespace Dump

def exitInvalid : Nat := 1

/-- The fields of a slot header the view is made from. -/
structure SlotHeader where
  seq : UInt32
  generation : UInt32
  timestampNs : UInt64
  length : UInt32
deriving DecidableEq, Repr, Inhabited

def SlotHeader.ofBytes (bytes : List UInt8) : SlotHeader :=
  let memory : Memory := fun address => bytes.getD address 0
  { seq := memory.word32 0
    generation := memory.word32 Offset.generation
    timestampNs := memory.word64 Offset.timestampNs
    length := memory.word32 Offset.length }

/-- The checks of a reader's attach; `none` if the header is valid. -/
def headerProblem (h : Header) (fileBytes : Nat) : Option String :=
  if h.magic ≠ psmiMagic then some "bad magic"
  else if h.versionMajor ≠ psmiVersionMajor then some "unsupported major version"
  else if h.headerSize ≠ psmiHeaderSize then some "bad header_size"
  else if h.slotHeaderSize ≠ psmiSlotHeaderSize then some "bad slot_header_size"
  else if h.slotCount < psmiMinSlots || h.slotCount > psmiMaxSlots then
    some "slot_count out of range"
  else if h.capacity > psmsgrStateMaxCapacity then some "capacity out of range"
  else if h.slotStride ≠ psmiSlotStride h.capacity then
    some "slot_stride does not match capacity"
  else if (psmiFileSize h.slotCount h.slotStride).toNat > fileBytes then
    some "file shorter than its slots"
  else none

/-- What the line about `latest` says about it. -/
inductive LatestNote where
  /-- Nothing is published. -/
  | none
  /-- Readers get FORMAT. -/
  | invalid
  /-- Readers get BUSY. -/
  | stale (seq tag : UInt32)
  /-- The length is above the capacity: readers get FORMAT. -/
  | tooLong
  | current
deriving DecidableEq, Repr

/-- Returns false if readers get FORMAT from this `latest`. -/
def printLatest (latest : UInt32) (slots : List SlotHeader) (h : Header) : LatestNote × Bool :=
  if latest = psmiLatestNone then (.none, true)
  else
    let i := psmiLatestSlot latest
    if !psmiLatestValid latest h.slotCount then (.invalid, false)
    else
      let seq := (slots.getD i.toNat default).seq
      if (seq &&& 1) ≠ 0 ∨ psmiLatest i seq ≠ latest then
        (.stale seq ((seq >>> 1) &&& psmiLatestTagMask), true)
      else if (slots.getD i.toNat default).length > h.capacity then (.tooLong, false)
      else (.current, true)

/-- The exit status, whether the whole view was read, the note on `latest` and the error. -/
structure RawView where
  exit : Nat
  readOk : Bool
  note : Option LatestNote
  error : Option String
deriving DecidableEq, Repr

def RawView.failed (message : String) : RawView :=
  ⟨exitInvalid, false, none, some message⟩

/-- The slot headers from slot `i` on, or `none` on a short read. -/
def readSlots (fd : FileId) (h : Header) : Nat → Nat → Prog (Option (List SlotHeader))
  | _, 0 => return some []
  | i, count + 1 => do
      let off := psmiHeaderSize.toNat + i * h.slotStride.toNat
      match ← call (.pread fd off psmiSlotHeaderSize.toNat) with
      | .error _ => return none
      | .ok bytes =>
          if bytes.length ≠ psmiSlotHeaderSize.toNat then
            return none
          match ← readSlots fd h (i + 1) count with
          | none => return none
          | some slots => return some (SlotHeader.ofBytes bytes :: slots)

/-- The view of a file that is open and has a valid header. -/
def viewSlots (fd : FileId) (h : Header) : Prog RawView := do
  -- The header copy is older than the slots: reread `latest` just before them.
  match ← call (.pread fd Offset.latest 4) with
  | .error _ => return RawView.failed "changed size while being read"
  | .ok bytes =>
      if bytes.length ≠ 4 then
        return RawView.failed "changed size while being read"
      let latest := UInt32.ofNat (decode bytes)
      match ← readSlots fd h 0 h.slotCount.toNat with
      | none => return RawView.failed "changed size while being read"
      | some slots =>
          let (note, ok) := printLatest latest slots h
          return ⟨if ok then 0 else exitInvalid, true, some note, none⟩

def viewFile (fd : FileId) : Prog RawView := do
  match ← call (.fstat fd) with
  | .error _ => return RawView.failed "cannot stat"
  | .ok st =>
      if !st.regular then
        return RawView.failed "not a regular file"
      if st.size < psmiHeaderSize.toNat then
        return RawView.failed "shorter than a header"
      match ← call (.pread fd 0 psmiHeaderSize.toNat) with
      | .error _ => return RawView.failed "shorter than a header"
      | .ok bytes =>
          if bytes.length ≠ psmiHeaderSize.toNat then
            return RawView.failed "shorter than a header"
          let h := Header.ofBytes bytes
          match headerProblem h st.size with
          | some problem => return RawView.failed problem
          | none => viewSlots fd h

def dumpRaw : Prog RawView := do
  match ← call .openData with
  | .error .enoent => return RawView.failed "channel not found"
  | .error _ => return RawView.failed "cannot open"
  | .ok fd =>
      let view ← viewFile fd
      call (.close fd)
      return view

end Dump

end PsMsgr
