import PsMsgr.State.Writer

namespace PsMsgr

open Effect

/-! # Write scopes

The C# writer hands out a scope for every begin: a value that can be copied and outlives the
begin.  It holds the id of the begin; which id is open is kept in the writer.
-/

/-- The native calls a `StateWriter` is made of. -/
inductive WriterCall where
  | publish (data : Option (List UInt8)) (len : UInt32)
  | begin
  | commit (len : UInt32)
  | abort
  | close
deriving DecidableEq, Repr

/-- A begin also replies where its buffer starts. -/
abbrev WriterCall.Reply : WriterCall → Type
  | .publish _ _ | .commit _ => Code × Option UInt32
  | .begin => Code × Option Nat
  | .abort => Code
  | .close => Unit

/-- What a native call does with the native writer; afterwards there is none if it was closed. -/
def WriterCall.program (w : Writer) :
    (request : WriterCall) → Prog (request.Reply × Option Writer)
  | .publish data len => do
      let (rc, gen, w) ← psmsgrStatePublish w data len
      return ((rc, gen), some w)
  | .begin => do
      let (rc, w) ← psmsgrStateBegin w
      return ((rc, if rc = .ok then some (writerSlot w w.openSlot + Offset.payload) else none), some w)
  | .commit len => do
      let (rc, gen, w) ← psmsgrStateCommit w len
      return ((rc, gen), some w)
  | .abort => do
      let (rc, w) ← psmsgrStateAbort w
      return (rc, some w)
  | .close => do
      psmsgrStateWriterClose w
      return ((), none)

/-- The native writer, and the calls made on it. -/
structure NativeWriter where
  handle : Option Writer
  calls : List WriterCall

/-- A native call, whatever the other processes do meanwhile.  There are none on a handle that
is closed. -/
def execWriter (request : WriterCall) (before : NativeWriter) (reply : request.Reply)
    (after : NativeWriter) : Prop :=
  ∃ w handle, before.handle = some w ∧
    (request.program w).Runs (fun _ _ _ _ => True) () (reply, handle) () ∧
    after = ⟨handle, before.calls ++ [request]⟩

abbrev WriterProg := Program WriterCall WriterCall.Reply

abbrev askWriter (request : WriterCall) : WriterProg request.Reply := Program.perform request

inductive Thrown where
  | objectDisposed (name : String)
  | invalidOperation (message : String)
  | argumentOutOfRange (parameter : Option String) (message : String)
  /-- `PsMsgrException.FromResult` -/
  | psMsgr (rc : Code) (name : String)
deriving DecidableEq, Repr

structure StateWriter where
  /-- `_handle.IsClosed` -/
  isClosed : Bool
  name : String
  capacity : UInt32
  /-- The open scope, 0 if none. -/
  scope : UInt64
  lastScope : UInt64
deriving DecidableEq, Repr

structure Span where
  start : Nat
  length : UInt32
deriving DecidableEq, Repr

structure WriteScope where
  /-- `_writer` is not null. -/
  writer : Bool
  id : UInt64
  span : Span
deriving DecidableEq, Repr

/-- `default(WriteScope)` -/
def WriteScope.default : WriteScope := ⟨false, 0, ⟨0, 0⟩⟩

namespace StateWriter

/-- The exception of `Handle()`. -/
def disposed : Thrown := .objectDisposed "StateWriter"

/-- Both overloads: `data` are the bytes of the span or of the value. -/
def publish (s : StateWriter) (data : List UInt8) :
    WriterProg (Except Thrown UInt32 × StateWriter) := do
  if s.isClosed then
    return (.error disposed, s)
  -- `fixed` makes an empty span a null pointer
  let (rc, gen) ← askWriter (.publish (if data = [] then none else some data)
    (UInt32.ofNat data.length))
  if rc ≠ .ok then
    return (.error (.psMsgr rc s.name), s)
  return (.ok (gen.getD 0), s)

def begin (s : StateWriter) : WriterProg (Except Thrown WriteScope × StateWriter) := do
  if s.isClosed then
    return (.error disposed, s)
  let (rc, buf) ← askWriter .begin
  if rc ≠ .ok then
    return (.error (.psMsgr rc s.name), s)
  let s := { s with scope := s.lastScope + 1, lastScope := s.lastScope + 1 }
  -- `new Span` refuses a length that is negative as an `int`
  if s.capacity ≥ 0x80000000 then
    return (.error (.argumentOutOfRange none ""), s)
  return (.ok ⟨true, s.scope, ⟨buf.getD 0, s.capacity⟩⟩, s)

def checkScope (s : StateWriter) (scope : UInt64) : Except Thrown Unit :=
  if s.isClosed then .error disposed
  else if scope = 0 || scope ≠ s.scope then .error (.invalidOperation "the write scope has ended")
  else .ok ()

def commit (s : StateWriter) (scope : UInt64) (length : Int32) :
    WriterProg (Except Thrown UInt32 × StateWriter) := do
  match s.checkScope scope with
  | .error thrown => return (.error thrown, s)
  | .ok _ =>
      if length < 0 then
        return (.error (.argumentOutOfRange (some "length") "must not be negative"), s)
      let (rc, gen) ← askWriter (.commit length.toUInt32)
      if rc ≠ .ok then
        return (.error (.psMsgr rc s.name), s)
      return (.ok (gen.getD 0), { s with scope := 0 })

/-- Closing the writer has aborted the begin already. -/
def abort (s : StateWriter) (scope : UInt64) : WriterProg (Except Thrown Unit × StateWriter) := do
  if s.isClosed || scope = 0 || scope ≠ s.scope then
    return (.ok (), s)
  let s := { s with scope := 0 }
  let rc ← askWriter .abort
  if rc ≠ .ok then
    return (.error (.psMsgr rc s.name), s)
  return (.ok (), s)

/-- `SafeHandle.Dispose` closes the handle the first time. -/
def dispose (s : StateWriter) : WriterProg StateWriter := do
  if s.isClosed then
    return s
  askWriter .close
  return { s with isClosed := true }

end StateWriter

namespace WriteScope

/-- The exception of `Writer()` for `default(WriteScope)`. -/
def ended : Thrown := .invalidOperation "the write scope has ended"

def buffer (scope : WriteScope) (s : StateWriter) : Except Thrown Span := do
  if !scope.writer then
    throw ended
  s.checkScope scope.id
  return scope.span

def commit (scope : WriteScope) (s : StateWriter) (length : Int32) :
    WriterProg (Except Thrown UInt32 × StateWriter) := do
  if !scope.writer then
    return (.error ended, s)
  s.commit scope.id length

def dispose (scope : WriteScope) (s : StateWriter) :
    WriterProg (Except Thrown Unit × StateWriter) := do
  if !scope.writer then
    return (.ok (), s)
  s.abort scope.id

end WriteScope

/-- The calls of a program that uses one writer. -/
inductive ScopeOp where
  | publish (data : List UInt8)
  | begin
  | dispose
  | buffer (scope : WriteScope)
  | commit (scope : WriteScope) (length : Int32)
  | disposeScope (scope : WriteScope)
deriving DecidableEq

inductive ScopeResult where
  | generation (value : UInt32)
  | scope (value : WriteScope)
  | span (value : Span)
  | done
  | threw (thrown : Thrown)
deriving DecidableEq, Repr

/-- What a call that returned or threw comes to. -/
def ScopeResult.of {α : Type} (returned : α → ScopeResult) : Except Thrown α → ScopeResult
  | .ok value => returned value
  | .error thrown => .threw thrown

def ScopeOp.program (s : StateWriter) : ScopeOp → WriterProg (ScopeResult × StateWriter)
  | .publish data => do
      let (outcome, s) ← s.publish data
      return (.of .generation outcome, s)
  | .begin => do
      let (outcome, s) ← s.begin
      return (.of .scope outcome, s)
  | .dispose => do
      let s ← s.dispose
      return (.done, s)
  | .buffer scope => return (.of .span (scope.buffer s), s)
  | .commit scope length => do
      let (outcome, s) ← scope.commit s length
      return (.of .generation outcome, s)
  | .disposeScope scope => do
      let (outcome, s) ← scope.dispose s
      return (.of (fun _ => .done) outcome, s)

end PsMsgr
