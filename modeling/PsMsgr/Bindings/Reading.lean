import PsMsgr.State.Reader

namespace PsMsgr

open Effect

/-! # The reading calls of the bindings

The Go, Python and C# readers hand out infos of their own.  An attach that the native reader
has reported with a result the caller never got is kept in `pending` and reported with the
next result.
-/

/-- The native calls the readers of the bindings are made of. -/
inductive NativeCall where
  | read (buffer : Option (List UInt8)) (size : UInt32)
  | peek
  | describe
  | wait (turns : Nat) (lastGeneration : UInt32) (timeoutMs : Int)
  | writerAlive

abbrev NativeCall.Reply : NativeCall → Type
  | .read _ _ | .peek => ReadReply
  | .describe => Code × Option Desc
  | .wait _ _ _ => Code
  | .writerAlive => Except Code Bool

/-- What a native call does with the native reader. -/
def NativeCall.program (r : Reader) : (request : NativeCall) → Prog (request.Reply × Reader)
  | .read buffer size => psmsgrStateRead r buffer size
  | .peek => psmsgrStatePeek r
  | .describe => do
      let (code, desc, r) ← psmsgrStateDescribe r
      return ((code, desc), r)
  | .wait turns lastGeneration timeoutMs => psmsgrStateWait turns r lastGeneration timeoutMs
  | .writerAlive => psmsgrStateWriterAlive r

abbrev NativeProg := Program NativeCall NativeCall.Reply

abbrev native (request : NativeCall) : NativeProg request.Reply := Program.perform request

/-- The struct a binding passes for the native info. -/
def ReadReply.ni (reply : ReadReply) : Info := reply.info.getD ⟨0, 0, 0, 0⟩

def Info.attached (ni : Info) : Bool := (ni.flags &&& psmsgrInfoAttached) != 0

/-- The info of the bindings. -/
structure StateInfo where
  generation : UInt32
  length : UInt32
  timestampNs : UInt64
  attached : Bool
deriving DecidableEq, Repr

def Info.stateInfo (ni : Info) (attached : Bool) : StateInfo :=
  ⟨ni.generation, ni.length, ni.timestampNs, attached⟩

inductive ReadResult where
  | value (data : List UInt8) (info : StateInfo)
  /-- There is no value. -/
  | absent
  | failed (code : Code)
deriving DecidableEq, Repr

/-- The attached flag of a result, if the caller got one. -/
def ReadResult.attached? : ReadResult → Option Bool
  | .value _ info => some info.attached
  | .absent | .failed _ => none

namespace C

/-- A result that comes with an info, which is so for `OK` and `TOOSMALL`. -/
def result (reply : ReadReply) : ReadResult :=
  match reply.code with
  | .ok | .toosmall => .value reply.buffer (reply.ni.stateInfo reply.ni.attached)
  | .nodata => .absent
  | code => .failed code

def read (buffer : Option (List UInt8)) (size : UInt32) : NativeProg ReadResult := do
  return result (← native (.read buffer size))

def peek : NativeProg ReadResult := do
  return result (← native .peek)

end C

namespace Go

/-- The part of `Reader` the reading calls use, beside the handle. -/
structure ReaderState where
  pending : Bool
deriving DecidableEq, Repr

def ReaderState.takeAttached (r : ReaderState) (ni : Info) : Bool × ReaderState :=
  (r.pending || ni.attached, { r with pending := false })

def ReaderState.owe (r : ReaderState) (attached : Bool) : ReaderState :=
  { r with pending := r.pending || attached }

def readAttempts : Nat := 4

/-- Saturates. -/
def cLen (length : Nat) : UInt32 :=
  if length > 0xFFFFFFFF then 0xFFFFFFFF else UInt32.ofNat length

/-- The loop of `Read`.  `spare` is the room behind `dst`, and `rounding` how much more
`slices.Grow` allocates than it was asked for. -/
def readLoop (dst : List UInt8) (rounding : Nat → Nat) :
    Nat → List UInt8 → Bool → ReaderState → NativeProg (ReadResult × ReaderState)
  | 0, _, attached, r => return (.failed .busy, r.owe attached)
  | attempts + 1, spare, attached, r => do
      let reply ← native (.read (some spare) (cLen spare.length))
      match reply.code with
      | .ok =>
          let (taken, r) := r.takeAttached reply.ni
          return (.value (dst ++ reply.buffer.take reply.ni.length.toNat)
            (reply.ni.stateInfo (taken || attached)), r)
      | .toosmall =>
          let (taken, r) := r.takeAttached reply.ni
          let missing := reply.ni.length.toNat - spare.length
          readLoop dst rounding attempts
            (reply.buffer ++ List.replicate (missing + rounding missing) 0) (taken || attached) r
      | .nodata => return (.absent, r.owe attached)
      | code => return (.failed code, r.owe attached)

def read (dst spare : List UInt8) (rounding : Nat → Nat) (r : ReaderState) :
    NativeProg (ReadResult × ReaderState) :=
  readLoop dst rounding readAttempts spare false r

/-- `value` are the bytes of `*v`. -/
def readValue (value : List UInt8) (r : ReaderState) : NativeProg (ReadResult × ReaderState) := do
  let reply ← native (.read (some value) (cLen value.length))
  if reply.code = .ok ∧ reply.ni.length.toNat = value.length then
    let (taken, r) := r.takeAttached reply.ni
    return (.value reply.buffer (reply.ni.stateInfo taken), r)
  else if reply.code = .nodata then
    return (.absent, r)
  else if reply.code = .ok ∨ reply.code = .toosmall then
    return (.failed .mismatch, r.owe reply.ni.attached)
  else
    return (.failed reply.code, r)

def peek (r : ReaderState) : NativeProg (ReadResult × ReaderState) := do
  let reply ← native .peek
  match reply.code with
  | .ok =>
      let (taken, r) := r.takeAttached reply.ni
      return (.value [] (reply.ni.stateInfo taken), r)
  | .nodata => return (.absent, r)
  | code => return (.failed code, r)

end Go

/-- `buf` is empty for `None` and `null`. -/
structure BufferedReader where
  buf : List UInt8
  /-- An attach that another call reported: `read` checks the capacity again. -/
  recheck : Bool
  /-- An attach consumed by a result that raised. -/
  pending : Bool
deriving DecidableEq, Repr

namespace BufferedReader

def opened : BufferedReader := ⟨[], false, false⟩

def takeAttached (r : BufferedReader) (ni : Info) : Bool × BufferedReader :=
  (r.pending || ni.attached, { r with pending := false })

def owe (r : BufferedReader) (attached : Bool) : BufferedReader :=
  { r with pending := r.pending || attached }

def resize (r : BufferedReader) (size : Nat) : BufferedReader :=
  if size ≠ r.buf.length then { r with buf := List.replicate size 0 } else r

/-- A buffer as it is passed on: a null pointer if it is empty. -/
def pointer (buffer : List UInt8) : Option (List UInt8) :=
  if buffer = [] then none else some buffer

/-- `_fit`, `Fit`: with a code it raises. -/
def fit (need : Nat) (r : BufferedReader) : NativeProg (Option Code × BufferedReader) := do
  let r := { r with recheck := false }
  let (rc, desc) ← native .describe
  match rc with
  | .ok => return (none, r.resize (max ((desc.map (·.capacity.toNat)).getD 0) need))
  | .nodata => return (none, r.resize need)
  | code => return (some code, r)

/-- The end of a read: a capacity that may have changed is asked for before the value is
handed out. -/
def handOut (due : Bool) (data : List UInt8) (info : StateInfo) (r : BufferedReader) :
    NativeProg (ReadResult × BufferedReader) := do
  if due then
    match ← fit 0 r with
    | (some code, r) => return (.failed code, r)
    | (none, r) => return (.value data info, r)
  else
    return (.value data info, r)

/-- The loop of `read`, `Read`. -/
def readLoop : Nat → Bool → Bool → BufferedReader → NativeProg (ReadResult × BufferedReader)
  | 0, attached, _, r => return (.failed .busy, r.owe attached)
  | attempts + 1, attached, resized, r => do
      let reply ← native (.read (pointer r.buf) (UInt32.ofNat r.buf.length))
      let r := { r with buf := reply.buffer }
      match reply.code with
      | .ok =>
          let (taken, r) := r.takeAttached reply.ni
          let attached := attached || taken
          handOut ((attached && !resized) || r.recheck) (r.buf.take reply.ni.length.toNat)
            (reply.ni.stateInfo attached) r
      | .nodata => return (.absent, r.owe attached)
      | .toosmall =>
          let (taken, r) := r.takeAttached reply.ni
          match ← fit reply.ni.length.toNat r with
          | (some code, r) => return (.failed code, r)
          | (none, r) => readLoop attempts (attached || taken) true r
      | code => return (.failed code, r.owe attached)

/-- A result handed out by another call than `read`. -/
def reported (r : BufferedReader) (data : List UInt8) (ni : Info) : ReadResult × BufferedReader :=
  let (attached, r) := r.takeAttached ni
  (.value data (ni.stateInfo attached), { r with recheck := r.recheck || attached })

/-- An attach that such a call has to keep for the next result. -/
def kept (r : BufferedReader) (ni : Info) : BufferedReader :=
  let r := r.owe ni.attached
  { r with recheck := r.recheck || r.pending }

/-- `read_into`, `TryRead`, with the length of the buffer as it is passed on. -/
def readInto (buffer : List UInt8) (size : UInt32) (r : BufferedReader) :
    NativeProg (ReadResult × BufferedReader) := do
  let reply ← native (.read (pointer buffer) size)
  match reply.code with
  | .ok => return r.reported (reply.buffer.take reply.ni.length.toNat) reply.ni
  | .nodata => return (.absent, r)
  | .toosmall => return (.failed .toosmall, r.kept reply.ni)
  | code => return (.failed code, r)

def peek (r : BufferedReader) : NativeProg (ReadResult × BufferedReader) := do
  let reply ← native .peek
  match reply.code with
  | .ok => return r.reported [] reply.ni
  | .nodata => return (.absent, r)
  | code => return (.failed code, r)

end BufferedReader

namespace Python

def readAttempts : Nat := 4

def read (r : BufferedReader) : NativeProg (ReadResult × BufferedReader) :=
  BufferedReader.readLoop readAttempts false false r

def readInto (buffer : List UInt8) (r : BufferedReader) :
    NativeProg (ReadResult × BufferedReader) :=
  r.readInto buffer (UInt32.ofNat (min buffer.length 0xFFFFFFFF))

def peek (r : BufferedReader) : NativeProg (ReadResult × BufferedReader) := r.peek

end Python

namespace CSharp

def readAttempts : Nat := 4

def read (r : BufferedReader) : NativeProg (ReadResult × BufferedReader) :=
  BufferedReader.readLoop readAttempts false false r

def tryRead (destination : List UInt8) (r : BufferedReader) :
    NativeProg (ReadResult × BufferedReader) :=
  r.readInto destination (UInt32.ofNat destination.length)

/-- `TryRead<T>`; `value` are the bytes of the result. -/
def tryReadValue (value : List UInt8) (r : BufferedReader) :
    NativeProg (ReadResult × BufferedReader) := do
  let reply ← native (.read (some value) (UInt32.ofNat value.length))
  if reply.code = .ok ∧ reply.ni.length.toNat = value.length then
    return r.reported reply.buffer reply.ni
  else if reply.code = .nodata then
    return (.absent, r)
  else if reply.code = .ok ∨ reply.code = .toosmall then
    return (.failed .mismatch, r.kept reply.ni)
  else
    return (.failed reply.code, r)

def tryPeek (r : BufferedReader) : NativeProg (ReadResult × BufferedReader) := r.peek

end CSharp

/-- A reader of a binding: what it keeps beside the native handle, and its reading calls. -/
structure Binding where
  State : Type
  Request : Type
  opened : State
  program : Request → State → NativeProg (ReadResult × State)

inductive C.Request where
  | read (buffer : Option (List UInt8)) (size : UInt32)
  | peek

def C.binding : Binding where
  State := Unit
  Request := C.Request
  opened := ()
  program := fun request _ => do
    match request with
    | .read buffer size => return (← C.read buffer size, ())
    | .peek => return (← C.peek, ())

inductive Go.Request where
  | read (dst spare : List UInt8) (rounding : Nat → Nat)
  | readValue (value : List UInt8)
  | peek

def Go.binding : Binding where
  State := Go.ReaderState
  Request := Go.Request
  opened := ⟨false⟩
  program := fun request => match request with
    | .read dst spare rounding => Go.read dst spare rounding
    | .readValue value => Go.readValue value
    | .peek => Go.peek

inductive Python.Request where
  | read
  | readInto (buffer : List UInt8)
  | peek

def Python.binding : Binding where
  State := BufferedReader
  Request := Python.Request
  opened := .opened
  program := fun request => match request with
    | .read => Python.read
    | .readInto buffer => Python.readInto buffer
    | .peek => Python.peek

inductive CSharp.Request where
  | read
  | tryRead (destination : List UInt8)
  | tryReadValue (value : List UInt8)
  | tryPeek

def CSharp.binding : Binding where
  State := BufferedReader
  Request := CSharp.Request
  opened := .opened
  program := fun request => match request with
    | .read => CSharp.read
    | .tryRead destination => CSharp.tryRead destination
    | .tryReadValue value => CSharp.tryReadValue value
    | .tryPeek => CSharp.tryPeek

/-- The calls on a reader.  A wait is any number of native waits, one after the other. -/
inductive Binding.Call (binding : Binding) where
  | reads (request : binding.Request)
  | describe
  | wait (slices : List (Nat × UInt32 × Int))
  | writerAlive

inductive Binding.Result where
  | read (result : ReadResult)
  | described (result : Code × Option Desc)
  | waited (codes : List Code)
  | alive (result : Except Code Bool)

def nativeWaits : List (Nat × UInt32 × Int) → NativeProg (List Code)
  | [] => return []
  | (turns, lastGeneration, timeoutMs) :: slices => do
      let code ← native (.wait turns lastGeneration timeoutMs)
      return code :: (← nativeWaits slices)

def Binding.Call.program {binding : Binding} (state : binding.State) :
    binding.Call → NativeProg (Binding.Result × binding.State)
  | .reads request => do
      let (result, state) ← binding.program request state
      return (.read result, state)
  | .describe => do return (.described (← native .describe), state)
  | .wait slices => do return (.waited (← nativeWaits slices), state)
  | .writerAlive => do return (.alive (← native .writerAlive), state)

/-- The flag of a result that was handed out. -/
def Binding.Result.attached? : Binding.Result → Option Bool
  | .read result => result.attached?
  | .described _ | .waited _ | .alive _ => none

end PsMsgr
