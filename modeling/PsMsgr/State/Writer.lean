import PsMsgr.State.Lock

namespace PsMsgr

open Effect Data

inductive Abi where
  | ilp32 | lp64
deriving DecidableEq, Repr

def Abi.pointerSize : Abi → Nat
  | .ilp32 => 4
  | .lp64 => 8

/-- The library a process is linked with.  Format versions of one major differ in
`minor`, which is 0 in this source. -/
structure Build where
  abi : Abi
  minor : UInt16
deriving DecidableEq, Repr

structure Options where
  structSize : UInt32
  capacity : UInt32
  slotCount : UInt32
  payloadType : UInt32
  mode : UInt32
  flags : UInt32
  dir : Option (List Char)
deriving DecidableEq, Repr

def Options.size (abi : Abi) : Nat := 24 + abi.pointerSize

def psmsgrStateOptionsInit (abi : Abi) : Options where
  structSize := UInt32.ofNat (Options.size abi)
  capacity := 0
  slotCount := psmsgrStateDefaultSlots
  payloadType := 0
  mode := 0o644
  flags := 0
  dir := none

/-- `OPT_HAS`: the caller's struct covers the field at `offset`, `width` bytes wide. -/
def Options.has (opt : Options) (offset width : Nat) : Bool :=
  offset + width ≤ opt.structSize.toNat

/-- The fields the caller's `struct_size` covers, and the defaults of the others. -/
def loadedOptions (abi : Abi) (opt : Options) : Options :=
  let o := psmsgrStateOptionsInit abi
  { o with
    capacity := if opt.has 4 4 then opt.capacity else o.capacity
    slotCount := if opt.has 8 4 then opt.slotCount else o.slotCount
    payloadType := if opt.has 12 4 then opt.payloadType else o.payloadType
    mode := if opt.has 16 4 then opt.mode else o.mode
    flags := if opt.has 20 4 then opt.flags else o.flags
    dir := if opt.has 24 abi.pointerSize then opt.dir else o.dir }

/-- Loads the caller's options and checks them; `none` means defaults. -/
def loadOptions (abi : Abi) (opt : Option Options) : Except Code Options :=
  let loaded : Except Code Options := match opt with
    | none => .ok (psmsgrStateOptionsInit abi)
    | some opt =>
        if opt.structSize = 0 then .error .inval -- not initialized
        else .ok (loadedOptions abi opt)
  match loaded with
  | .error code => .error code
  | .ok o =>
      if o.capacity > psmsgrStateMaxCapacity || o.slotCount < psmiMinSlots ||
          o.slotCount > psmiMaxSlots || (o.mode &&& ~~~0o7777) != 0 ||
          (o.flags &&& ~~~(psmsgrStateRecreate ||| psmsgrStateNoNotify)) != 0 ||
          o.dir == some [] then
        .error .inval
      else .ok o

/-- `psmsgr_state_writer`; `file` is the mapping `hdr`. -/
structure Writer where
  file : FileId
  mapSize : Nat
  slotCount : UInt32
  slotStride : UInt32
  capacity : UInt32
  notify : Bool
  /-- Last committed slot, or none. -/
  latest : UInt32
  /-- Generation of the next publish. -/
  gen : UInt32
  /-- Slot of an open begin, or none. -/
  openSlot : UInt32
  /-- Its even `seq` before the begin. -/
  openSeq : UInt32
  lockFd : Fd
deriving DecidableEq, Repr

def writerSlot (w : Writer) (i : UInt32) : Nat := slotOffset w.slotStride i

def configFlagsOf (o : Options) : UInt32 :=
  if (o.flags &&& psmsgrStateNoNotify) != 0 then psmiConfigNoNotify else 0

/-- First generation of a file with no value yet. -/
def randomGeneration : Prog UInt32 := do
  match ← call .getrandom with
  | some g => return if g != 0 then g else 1
  | none =>
      -- No `GRND_INSECURE`: mix the clocks and the pid.
      let monotonic ← call (.clock .monotonic)
      let realtime ← call (.clock .realtime)
      let pid ← call .getpid
      let x := monotonic ^^^ (realtime <<< 17) ^^^ pid.toUInt64
      let x := x ^^^ (x >>> 33)
      let x := x * 0xff51afd7ed558ccd
      let x := x ^^^ (x >>> 33)
      let g := x.toUInt32
      return if g != 0 then g else 1

/-- Generation following the latest value of a mapped file; `stride` and `latest`
have been validated. -/
def carriedGeneration (map : FileId) (stride latest : UInt32) : Prog UInt32 := do
  if latest = psmiLatestNone then
    randomGeneration
  else
    let generation ← loadWord map (slotOffset stride latest + Offset.generation)
    return nextGeneration generation

/-- `geom` is the validated (or just written) header. -/
def writerAttach (lockFd : Fd) (map : FileId) (mapSize : Nat)
    (slotCount slotStride capacity configFlags latest gen : UInt32) : Writer where
  file := map
  mapSize := mapSize
  slotCount := slotCount
  slotStride := slotStride
  capacity := capacity
  notify := (configFlags &&& psmiConfigNoNotify) == 0
  latest := latest
  gen := gen
  openSlot := psmiLatestNone
  openSeq := 0
  lockFd := lockFd

/-- The header stores of a fresh, zeroed file. -/
def storeHeader (build : Build) (o : Options) (stride : UInt32) (map : FileId) : Prog Unit := do
  storeBytes map Offset.magic (Memory.bytes32 psmiMagic)
  storeBytes map Offset.versionMajor (Memory.bytes16 psmiVersionMajor)
  storeBytes map Offset.versionMinor (Memory.bytes16 build.minor)
  storeBytes map Offset.headerSize (Memory.bytes32 psmiHeaderSize)
  storeBytes map Offset.slotHeaderSize (Memory.bytes32 psmiSlotHeaderSize)
  storeBytes map Offset.slotCount (Memory.bytes32 o.slotCount)
  storeBytes map Offset.slotStride (Memory.bytes32 stride)
  storeBytes map Offset.capacity (Memory.bytes32 o.capacity)
  storeBytes map Offset.payloadType (Memory.bytes32 o.payloadType)
  storeBytes map Offset.configFlags (Memory.bytes32 (configFlagsOf o))
  storeBytes map Offset.latest (Memory.bytes32 psmiLatestNone)
  let created ← call (.clock .realtime)
  storeBytes map Offset.createdRealtimeNs (Memory.bytes64 created)

/-- The `fail` label of `create_file`. -/
def createFail (suffix : Suffix) (fd : FileId) (mapped : Bool) : Prog (Except Code Writer) := do
  if mapped then
    call (.munmap fd)
  call (.close fd)
  let _ ← call (.unlinkTmp suffix)
  return .error .sys

def retireOld : Option FileId → Prog Unit
  | none => return ()
  | some old => retire old

/-- Builds a complete file under a temporary name and renames it into place, then
retires `old`. -/
def createFile (build : Build) (o : Options) (lockFd : Fd) (old : Option FileId) (gen : UInt32) :
    Prog (Except Code Writer) := do
  if !(← call .malloc) then
    return .error .sys
  match ← call .mkostemp with
  | .error _ => return .error .sys
  | .ok (suffix, fd) =>
      let stride := psmiSlotStride o.capacity
      let size := toSize (psmiFileSize o.slotCount stride).toNat
      match ← call (.fchmod fd o.mode) with
      | .error _ => createFail suffix fd false
      | .ok _ =>
          match ← call (.fallocate fd size) with
          | .error _ => createFail suffix fd false
          | .ok _ =>
              match ← call (.mmap fd size) with
              | .error _ => createFail suffix fd false
              | .ok _ =>
                  storeHeader build o stride fd
                  match ← call (.renameTmp suffix) with
                  | .error _ => createFail suffix fd true
                  | .ok _ =>
                      call (.close fd)
                      retireOld old
                      let slotCount ← loadWord fd Offset.slotCount
                      let slotStride ← loadWord fd Offset.slotStride
                      let capacity ← loadWord fd Offset.capacity
                      let configFlags ← loadWord fd Offset.configFlags
                      return .ok (writerAttach lockFd fd size slotCount slotStride capacity
                        configFlags psmiLatestNone gen)

/-- The end of `open_data`: create, reuse, recreate or refuse.  `valid` is the verdict on
the header copy `h` and on `latest`, now a slot index. -/
def openChecked (build : Build) (o : Options) (lockFd : Fd) (fd : FileId) (h : Header)
    (valid : Bool) (mapSize : Nat) (latest gen : UInt32) : Prog (Except Code Writer) := do
  let old := if mapSize ≠ 0 then some fd else none
  let recreate := (o.flags &&& psmsgrStateRecreate) != 0
  let unmap (result : Except Code Writer) : Prog (Except Code Writer) := do
    if old.isSome then
      call (.munmap fd)
    return result
  if !valid then
    if recreate then
      unmap (← createFile build o lockFd old gen)
    else
      unmap (.error .format)
  else
    let state ← call (.load fd Offset.state)
    if (state &&& psmiStateRetired) != 0 then
      -- Left retired by an interrupted unlink: as good as absent.
      unmap (← createFile build o lockFd old gen)
    else if h.capacity ≠ o.capacity || h.slotCount ≠ o.slotCount ||
        h.payloadType ≠ o.payloadType || h.configFlags ≠ configFlagsOf o then
      if recreate then
        unmap (← createFile build o lockFd old gen)
      else
        unmap (.error .mismatch)
    else if h.versionMinor ≠ build.minor then
      unmap (← createFile build o lockFd old gen)
    else
      -- Reuse.  A slot left odd by a crashed publish stays odd.
      return .ok (writerAttach lockFd fd mapSize h.slotCount h.slotStride h.capacity
        h.configFlags latest gen)

/-- `open_data` once the file is mapped (or known not to be mappable).  `valid` is the
verdict on the header copy `h`. -/
def openMapped (build : Build) (o : Options) (lockFd : Fd) (fd : FileId) (h : Header)
    (valid : Bool) (mapSize : Nat) : Prog (Except Code Writer) := do
  let latest ← if valid then call (.load fd Offset.latest) else pure psmiLatestNone
  let valid := valid && psmiLatestValid latest h.slotCount -- else corrupt dynamic state
  let latest := if latest ≠ psmiLatestNone then psmiLatestSlot latest else latest
  let gen ← if valid then carriedGeneration fd h.slotStride latest else randomGeneration
  openChecked build o lockFd fd h valid mapSize latest gen

/-- Maps `mapSize` bytes of the file, or nothing. -/
def mapData (build : Build) (o : Options) (lockFd : Fd) (fd : FileId) (h : Header)
    (valid : Bool) (mapSize : Nat) : Prog (Except Code Writer) := do
  if mapSize ≠ 0 then
    match ← call (.mmap fd mapSize) with
    | .error _ =>
        call (.close fd)
        return .error .sys
    | .ok _ =>
        call (.close fd)
        openMapped build o lockFd fd h valid mapSize
  else
    call (.close fd)
    openMapped build o lockFd fd h valid mapSize

def openData (build : Build) (o : Options) (lockFd : Fd) : Prog (Except Code Writer) := do
  match ← call .openData with
  | .error .enoent => createFile build o lockFd none (← randomGeneration)
  | .error _ => return .error .sys
  | .ok fd =>
      let (rc, bytes, h) ← readHeader fd
      if rc = .sys then
        call (.close fd)
        return .error .sys
      let valid := rc == .ok && headerValid h bytes
      -- The whole file if it is valid, just the header if it has our magic, else nothing.
      let mapSize :=
        if valid then toSize (psmiFileSize h.slotCount h.slotStride).toNat
        else if rc = .ok && h.magic = psmiMagic then psmiHeaderSize.toNat
        else 0
      mapData build o lockFd fd h valid mapSize

def psmsgrStateWriterOpen (build : Build) (environment : Option (List Char)) (turns : Nat)
    (name : Option (List Char)) (opt : Option Options) : Prog (Except Code Writer) := do
  match loadOptions build.abi opt with
  | .error code => return .error code
  | .ok o =>
      if !nameValid name then
        return .error .inval
      match ← pathsInit environment o.dir (name.getD []) with
      | .error code => return .error code
      | .ok p =>
          if !(← call .malloc) then
            return .error .sys
          match ← lockChannel o.mode turns with
          | .error code => return .error code
          | .ok lockFd =>
              removeStaleTmp p
              match ← openData build o lockFd with
              | .error code =>
                  call (.closeLock lockFd)
                  return .error code
              | .ok w =>
                  let pid ← call .getpid
                  storeBytes w.file Offset.writerPid (Memory.bytes32 pid)
                  return .ok w

/-- An open begin is aborted implicitly: its slot stays odd. -/
def psmsgrStateWriterClose (w : Writer) : Prog Unit := do
  call (.munmap w.file)
  call (.closeLock w.lockFd)

/-- The slot after the one at index `latest`, or the first one. -/
def slotAfter (latest slotCount : UInt32) : UInt32 :=
  if latest = psmiLatestNone then 0 else (latest + 1) % slotCount

/-- The target is never `latest`.  A slot that is already odd stays odd. -/
def beginSlot (w : Writer) : Prog Writer := do
  let i := slotAfter w.latest w.slotCount
  let s := writerSlot w i
  let q := (← call (.load w.file s)) &&& ~~~1
  call (.store w.file s (q + 1))
  return { w with openSlot := i, openSeq := q }

def commitSlot (w : Writer) (len : UInt32) : Prog (UInt32 × Writer) := do
  let i := w.openSlot
  let s := writerSlot w i
  let gen := w.gen
  storeBytes w.file (s + Offset.generation) (Memory.bytes32 gen)
  storeBytes w.file (s + Offset.length) (Memory.bytes32 len)
  let timestamp ← call (.clock .monotonic)
  storeBytes w.file (s + Offset.timestampNs) (Memory.bytes64 timestamp)
  call (.store w.file s (w.openSeq + 2))
  call (.store w.file Offset.latest (psmiLatest i (w.openSeq + 2)))
  let w := { w with latest := i, openSlot := psmiLatestNone }
  if w.notify then
    let _ ← call (.fetchAdd w.file Offset.notify 1)
    call (.futexWake w.file)
  return (gen, { w with gen := nextGeneration gen })

/-- `data` is a null pointer or at least `len` readable bytes.  On success the
generation is returned as well. -/
def psmsgrStatePublish (w : Writer) (data : Option (List UInt8)) (len : UInt32) :
    Prog (Code × Option UInt32 × Writer) := do
  if data.isNone && len ≠ 0 then
    return (.inval, none, w)
  if w.openSlot ≠ psmiLatestNone then
    return (.state, none, w)
  if len > w.capacity then
    return (.toobig, none, w)
  let w ← beginSlot w
  storeBytes w.file (writerSlot w w.openSlot + Offset.payload) ((data.getD []).take len.toNat)
  let (gen, w) ← commitSlot w len
  return (.ok, some gen, w)

def psmsgrStateBegin (w : Writer) : Prog (Code × Writer) := do
  if w.openSlot ≠ psmiLatestNone then
    return (.state, w)
  let w ← beginSlot w
  return (.ok, w)

/-- The caller's store of one byte into the buffer `begin` returned. -/
def storeBuffer (w : Writer) (index : Nat) (byte : UInt8) : Prog Unit :=
  call (.storeByte w.file (writerSlot w w.openSlot + Offset.payload + index) byte)

def psmsgrStateCommit (w : Writer) (len : UInt32) : Prog (Code × Option UInt32 × Writer) := do
  if w.openSlot = psmiLatestNone then
    return (.state, none, w)
  if len > w.capacity then
    return (.toobig, none, w) -- the begin stays open
  let (gen, w) ← commitSlot w len
  return (.ok, some gen, w)

/-- The slot stays odd; the next begin picks the same slot. -/
def psmsgrStateAbort (w : Writer) : Prog (Code × Writer) := do
  if w.openSlot = psmiLatestNone then
    return (.state, w)
  return (.ok, { w with openSlot := psmiLatestNone })

end PsMsgr
