import PsMsgr.State.Lock

namespace PsMsgr

open Effect Data

def psmsgrInfoAttached : UInt32 := 1

/-- `psmsgr_state_reader`; `file` is the mapping `hdr`, `none` while unattached. -/
structure Reader where
  file : Option FileId
  mapSize : Nat
  slotCount : UInt32
  slotStride : UInt32
  capacity : UInt32
  payloadType : UInt32
  configFlags : UInt32
  /-- The next info carries `PSMSGR_INFO_ATTACHED`. -/
  announce : Bool
  /-- Device and inode of the file attached last. -/
  ino : FileId
deriving DecidableEq, Repr

structure Info where
  generation : UInt32
  length : UInt32
  timestampNs : UInt64
  flags : UInt32
deriving DecidableEq, Repr

structure Desc where
  capacity : UInt32
  slotCount : UInt32
  payloadType : UInt32
  flags : UInt32
deriving DecidableEq, Repr

/-- `calloc`ed. -/
def Reader.unattached : Reader :=
  ⟨none, 0, 0, 0, 0, 0, 0, false, 0⟩

def psmsgrStateReaderOpen (environment : Option (List Char)) (name dir : Option (List Char)) :
    Prog (Except Code Reader) := do
  if !nameValid name || dir == some [] then
    return .error .inval
  if !(← call .malloc) then
    return .error .sys
  match ← pathsInit environment dir (name.getD []) with
  | .error _ => return .error .sys
  | .ok _ => return .ok Reader.unattached

def detach (r : Reader) (map : FileId) : Prog Reader := do
  call (.munmap map)
  return { r with file := none }

def psmsgrStateReaderClose (r : Reader) : Prog Unit := do
  match r.file with
  | some map =>
      let _ ← detach r map
      return ()
  | none => return ()

/-- An attached reader holds no file descriptor. -/
def attach (r : Reader) : Prog (Code × Reader) := do
  match ← call .openData with
  | .error .enoent => return (.nodata, r)
  | .error _ => return (.sys, r)
  | .ok fd =>
      let (rc, bytes, h) ← readHeader fd
      if rc ≠ .ok then
        call (.close fd)
        return (rc, r)
      if !headerValid h bytes then
        call (.close fd)
        return (.format, r)
      let size := toSize (psmiFileSize h.slotCount h.slotStride).toNat
      match ← call (.mmap fd size) with
      | .error _ =>
          call (.close fd)
          return (.sys, r)
      | .ok _ =>
          call (.close fd)
          return (.ok,
            { file := some fd
              mapSize := size
              slotCount := h.slotCount
              slotStride := h.slotStride
              capacity := h.capacity
              payloadType := h.payloadType
              configFlags := h.configFlags
              announce := true
              ino := fd })

def retired (map : FileId) : Prog Bool := do
  let state ← call (.load map Offset.state)
  return (state &&& psmiStateRetired) != 0

/-- The attach loop of `reader_sync`, with `tries` turns left. -/
def attachLoop (r : Reader) : Nat → Prog (Code × Reader)
  | 0 => return (.nodata, r)
  | tries + 1 => do
      let (rc, r) ← attach r
      match rc, r.file with
      | .ok, some map =>
          if !(← retired map) then
            return (.ok, r)
          let r ← detach r map
          attachLoop r tries
      | rc, _ => return (rc, r)

/-- The retire check, plus a lazy attach while unattached.  A retired file still found
at the path counts as absent. -/
def readerSync (r : Reader) : Prog (Code × Reader) := do
  match r.file with
  | some map =>
      if !(← retired map) then
        return (.ok, r)
      let r ← detach r map
      attachLoop r attachRetries
  | none => attachLoop r attachRetries

/-- The orphan check: detaches if the path no longer names the mapped file. -/
def identityCheck (r : Reader) : Prog (Code × Reader) := do
  match r.file with
  | none => return (.ok, r)
  | some map =>
      match ← call .lstatData with
      | .ok named =>
          if named = r.ino then
            return (.ok, r)
          let r ← detach r map
          return (.ok, r)
      | .error .enoent =>
          let r ← detach r map
          return (.ok, r)
      | .error _ => return (.sys, r)

/-- A copy of the slot header, up to its reserved bytes. -/
structure SlotCopy where
  generation : UInt32
  timestampNs : UInt64
  length : UInt32
deriving DecidableEq, Repr

def SlotCopy.ofBytes (bytes : List UInt8) : SlotCopy :=
  let memory : Memory := fun address => bytes.getD address 0
  { generation := memory.word32 Offset.generation
    timestampNs := memory.word64 Offset.timestampNs
    length := memory.word32 Offset.length }

/-- What a turn of the loop in `read_latest` comes to: a result, or another turn.
The caller's buffer is returned as the turn left it. -/
inductive Attempt where
  | result (code : Code) (info : Option Info) (buffer : List UInt8)
  | again (buffer : List UInt8)
deriving DecidableEq, Repr

/-- The end of a turn: the copy `m` counts only if the counter is still `q1`. -/
def recheck (r : Reader) (map : FileId) (s : Nat) (q1 : UInt32) (m : SlotCopy)
    (buffer : List UInt8) (size : UInt32) (copy : Bool) : Prog Attempt := do
  let q2 ← call (.load map s)
  if q2 = q1 then
    if m.length > r.capacity then
      return .result .format none buffer
    let info : Info := ⟨m.generation, m.length, m.timestampNs, 0⟩
    return .result (if !copy || m.length ≤ size then .ok else .toosmall) (some info) buffer
  else
    return .again buffer

/-- One turn of the loop in `read_latest`. -/
def readAttempt (r : Reader) (map : FileId) (buffer : List UInt8) (size : UInt32) (copy : Bool) :
    Prog Attempt := do
  let latest ← call (.load map Offset.latest)
  if latest = psmiLatestNone then
    return .result .nodata none buffer
  if !psmiLatestValid latest r.slotCount then
    return .result .format none buffer
  let i := psmiLatestSlot latest
  let s := slotOffset r.slotStride i
  -- Only the version `latest` published: a stale `latest` may name a slot that has
  -- since been committed again but not yet published.
  let q1 ← call (.load map s)
  if (q1 &&& 1) = 0 ∧ psmiLatest i q1 = latest then
    let m := SlotCopy.ofBytes (← loadBytes map s Offset.reserved)
    if copy && m.length ≤ size && m.length ≤ r.capacity then
      let payload ← loadBytes map (s + Offset.payload) m.length.toNat
      recheck r map s q1 m (payload ++ buffer.drop payload.length) size copy
    else
      recheck r map s q1 m buffer size copy
  else
    return .again buffer

/-- The loop of `read_latest` with `tries` turns left. -/
def readLoop (r : Reader) (map : FileId) (size : UInt32) (copy : Bool) :
    Nat → List UInt8 → Prog (Code × Option Info × List UInt8)
  | 0, buffer => return (.busy, none, buffer)
  | tries + 1, buffer => do
      match ← readAttempt r map buffer size copy with
      | .result code info buffer => return (code, info, buffer)
      | .again buffer =>
          if readRetries - (tries + 1) ≥ 3 then
            call .schedYield -- single core: let a preempted writer finish
          readLoop r map size copy tries buffer

/-- On an attached reader.  With `copy = false` this is peek. -/
def readLatest (r : Reader) (map : FileId) (buffer : List UInt8) (size : UInt32) (copy : Bool) :
    Prog (Code × Option Info × List UInt8) :=
  readLoop r map size copy readRetries buffer

/-- `PSMSGR_INFO_ATTACHED`: once per attach, on the first result handed out. -/
def announce (r : Reader) (info : Option Info) : Option Info × Reader :=
  if r.announce then
    (info.map (fun info => { info with flags := info.flags ||| psmsgrInfoAttached }),
      { r with announce := false })
  else (info, r)

structure ReadReply where
  code : Code
  info : Option Info
  buffer : List UInt8
deriving DecidableEq, Repr

/-- `buffer` is a null pointer or the caller's `size` bytes. -/
def psmsgrStateRead (r : Reader) (buffer : Option (List UInt8)) (size : UInt32) :
    Prog (ReadReply × Reader) := do
  if buffer.isNone && size ≠ 0 then
    return (⟨.inval, none, []⟩, r)
  let (rc, r) ← readerSync r
  match rc, r.file with
  | .ok, some map =>
      let (rc, info, bytes) ← readLatest r map (buffer.getD []) size true
      if rc = .ok || rc = .toosmall then
        let (info, r) := announce r info
        return (⟨rc, info, bytes⟩, r)
      return (⟨rc, info, bytes⟩, r)
  | rc, _ => return (⟨rc, none, buffer.getD []⟩, r)

def psmsgrStatePeek (r : Reader) : Prog (ReadReply × Reader) := do
  let (rc, r) ← readerSync r
  match rc, r.file with
  | .ok, some map =>
      let (rc, info, bytes) ← readLatest r map [] 0 false
      if rc = .ok then
        let (info, r) := announce r info
        return (⟨rc, info, bytes⟩, r)
      return (⟨rc, info, bytes⟩, r)
  | rc, _ => return (⟨rc, none, []⟩, r)

/-- The description before it is cut or padded to the caller's size. -/
def psmsgrStateDescribe (r : Reader) : Prog (Code × Option Desc × Reader) := do
  let (rc, r) ← readerSync r
  if rc ≠ .ok then
    return (rc, none, r)
  return (.ok, some
    { capacity := r.capacity
      slotCount := r.slotCount
      payloadType := r.payloadType
      flags := if (r.configFlags &&& psmiConfigNoNotify) != 0 then psmsgrStateNoNotify else 0 }, r)

def futexWait (map : FileId) (expected : UInt32) (timeoutNs : UInt64) :
    Prog (Except Errno Unit) := do
  match ← call (.futexWait map expected timeoutNs) with
  | .error err => return .error err
  | .ok _ => call .futexSleep

/-- The loop of `psmsgr_state_wait`; `turns` bounds its turns in one run. -/
def waitLoop (lastGeneration : UInt32) (deadline : UInt64) :
    Nat → Reader → Prog (Code × Reader)
  | 0, _ => do nomatch ← call .spin
  | turns + 1, r => do
      let (rc, r) ← readerSync r
      match rc, r.file with
      | .ok, some map =>
          if (r.configFlags &&& psmiConfigNoNotify) != 0 then
            return (.notsup, r)
          -- Load notify BEFORE the check: a publish in between changes it.
          let n ← call (.load map Offset.notify)
          if ← retired map then
            waitLoop lastGeneration deadline turns r
          else
            let (rc, info, _) ← readLatest r map [] 0 false
            if rc = .ok ∧ info.map (·.generation) ≠ some lastGeneration then
              return (.ok, r)
            if rc = .format then
              return (.format, r)
            -- NODATA and BUSY count as unchanged.
            let now ← call (.clock .monotonic)
            if now ≥ deadline then
              return (.timeout, r)
            let slice := if deadline - now < waitSliceNs then deadline - now else waitSliceNs
            match ← futexWait map n slice with
            | .ok _ => waitLoop lastGeneration deadline turns r
            | .error .eintr => return (.intr, r)
            | .error .etimedout =>
                let (rc, r) ← identityCheck r
                if rc ≠ .ok then
                  return (rc, r)
                waitLoop lastGeneration deadline turns r
            | .error .eagain => waitLoop lastGeneration deadline turns r
            | .error _ => return (.sys, r)
      | .nodata, _ =>
          let now ← call (.clock .monotonic)
          if now ≥ deadline then
            return (.timeout, r)
          let ns := if deadline - now < unattachedPollNs then deadline - now else unattachedPollNs
          if ← call (.nanosleep ns) then
            return (.intr, r)
          waitLoop lastGeneration deadline turns r
      | rc, _ => return (rc, r)

/-- `timeoutMs` is negative for an infinite wait. -/
def psmsgrStateWait (turns : Nat) (r : Reader) (lastGeneration : UInt32) (timeoutMs : Int) :
    Prog (Code × Reader) := do
  if timeoutMs < 0 then
    waitLoop lastGeneration 0xFFFFFFFFFFFFFFFF turns r
  else
    let now ← call (.clock .monotonic)
    waitLoop lastGeneration (now + UInt64.ofNat timeoutMs.toNat * nsPerMs) turns r

/-- 1 if a writer holds the channel, 0 if not, an error otherwise. -/
def psmsgrStateWriterAlive (r : Reader) : Prog (Except Code Bool × Reader) := do
  let (rc, r) ← identityCheck r
  if rc ≠ .ok then
    return (.error rc, r)
  let (_, r) ← readerSync r -- reattach if possible; liveness does not depend on it
  match ← call .openLock with
  | .error .enoent => return (.ok false, r)
  | .error _ => return (.error .sys, r)
  | .ok fd =>
      let conflict ← call (.getLock fd)
      call (.closeLock fd)
      match conflict with
      | .error _ => return (.error .sys, r)
      | .ok held => return (.ok held, r)

end PsMsgr
