import PsMsgr.Effect.Threads

namespace PsMsgr

open Effect

/-! # Closing a reader while it is in use

In Go and in Python a reader may be closed by one thread while others are in `Wait` or
`WriterAlive`.  The native handle is then closed by the last of them.  Go closes it while it
holds the mutex, Python after it has released it.
-/

/-- What the mutex protects: `closed` and `active` in Go, `_h is None` and `_users` in Python. -/
structure Guard where
  closed : Bool
  users : Nat
deriving DecidableEq

namespace Guard

/-- `acquire`, `_enter`: `none` is the error that the reader is closed. -/
def enter (guard : Guard) : Option Guard :=
  if guard.closed then none else some { guard with users := guard.users + 1 }

/-- `release`, `_leave`: the flag says whether the handle is to be closed now. -/
def leave (guard : Guard) : Guard × Bool :=
  let users := guard.users - 1
  ({ guard with users }, guard.closed && users == 0)

/-- `Close`, `close` -/
def close (guard : Guard) : Guard × Bool :=
  if guard.closed then (guard, false)
  else ({ guard with closed := true }, guard.users == 0)

end Guard

/-- The steps of the calls: the sections under the mutex and the native calls. -/
inductive CloseCall where
  | enter
  | leave
  | close
  /-- `isClosed`; in Python a look at `_h`. -/
  | isClosed
  /-- `psmsgr_state_wait` or `psmsgr_state_writer_alive` starts. -/
  | begin
  /-- It returns. -/
  | finish
  /-- `psmsgr_state_reader_close`, outside the mutex. -/
  | closeNative

/-- `enter` replies whether the handle was got, `leave` and `close` whether it is left to the
caller to close it. -/
abbrev CloseCall.Reply : CloseCall → Type
  | .enter | .leave | .close | .isClosed => Bool
  | .begin | .finish | .closeNative => Unit

/-- A reader, with what its threads are doing. -/
structure SharedReader where
  guard : Guard
  /-- The threads that have entered and not left. -/
  inside : Finset Nat
  /-- Those whose native call is in progress. -/
  calling : Finset Nat
  /-- A thread that has decided to close the native handle and has not done so. -/
  deciding : Option Nat
  /-- How often the native handle was closed. -/
  closes : Nat
  /-- How many native calls a thread has started. -/
  touches : Nat → Nat

def SharedReader.opened : SharedReader where
  guard := ⟨false, 0⟩
  inside := ∅
  calling := ∅
  deciding := none
  closes := 0
  touches := fun _ => 0

/-- The end of a section that decides whether the handle is to be closed. -/
def SharedReader.settle (reader : SharedReader) (underLock : Bool) (thread : Nat) (last : Bool) :
    SharedReader :=
  if last then
    if underLock then { reader with closes := reader.closes + 1 }
    else { reader with deciding := some thread }
  else reader

/-- With `underLock` the handle is closed before the mutex is released. -/
def execClose (underLock : Bool) (thread : Nat) :
    (request : CloseCall) → SharedReader → request.Reply → SharedReader → Prop
  | .enter, reader, reply, after =>
      (reader.guard.enter = none ∧ reply = false ∧ after = reader) ∨
      ∃ guard, reader.guard.enter = some guard ∧ reply = true ∧
        after = { reader with guard, inside := insert thread reader.inside }
  | .leave, reader, reply, after =>
      reply = (reader.guard.leave.2 && !underLock) ∧
        after = SharedReader.settle { reader with
          guard := reader.guard.leave.1
          inside := reader.inside.erase thread } underLock thread reader.guard.leave.2
  | .close, reader, reply, after =>
      reply = (reader.guard.close.2 && !underLock) ∧
        after = SharedReader.settle { reader with guard := reader.guard.close.1 } underLock thread
          reader.guard.close.2
  | .isClosed, reader, reply, after => reply = reader.guard.closed ∧ after = reader
  | .begin, reader, _, after =>
      after = { reader with
        calling := insert thread reader.calling
        touches := Function.update reader.touches thread (reader.touches thread + 1) }
  | .finish, reader, _, after =>
      after = { reader with calling := reader.calling.erase thread }
  | .closeNative, reader, _, after =>
      after = { reader with closes := reader.closes + 1, deciding := none }

abbrev CloseProg := Program CloseCall CloseCall.Reply

abbrev askClose (request : CloseCall) : CloseProg request.Reply := Program.perform request

inductive CloseResult where
  | done
  /-- `ErrClosed`; in Python a `ValueError`. -/
  | closedError
deriving DecidableEq

/-- The loop of `Wait`, which ends after `slices` native calls unless the reader is closed. -/
def waitWhileOpen : Nat → CloseProg CloseResult
  | 0 => return .done
  | slices + 1 => do
      if ← askClose .isClosed then
        return .closedError
      askClose .begin
      askClose .finish
      waitWhileOpen slices

/-- A call that may run concurrently with a close. -/
def useReader (body : CloseProg CloseResult) : CloseProg CloseResult := do
  if ← askClose .enter then
    let result ← body
    if ← askClose .leave then
      askClose .closeNative
    return result
  else
    return .closedError

def waitReader (slices : Nat) : CloseProg CloseResult := useReader (waitWhileOpen slices)

def writerAliveReader : CloseProg CloseResult := useReader do
  askClose .begin
  askClose .finish
  return .done

def closeReader : CloseProg CloseResult := do
  if ← askClose .close then
    askClose .closeNative
  return .done

inductive ReaderRequest where
  | wait (slices : Nat)
  | writerAlive
  | close
deriving DecidableEq

def ReaderRequest.program : ReaderRequest → CloseProg CloseResult
  | .wait slices => waitReader slices
  | .writerAlive => writerAliveReader
  | .close => closeReader

/-- Any number of threads that use the reader and close it. -/
def readerUsers : Client CloseCall CloseCall.Reply SharedReader Nat where
  Handle := Unit
  Request := ReaderRequest
  Result := CloseResult
  accepts := fun _ _ => True
  program := fun _ request => do return ((), ← request.program)
  begin := fun _ _ reader => reader
  crash := fun _ reader => reader

/-- The reader was opened and nobody uses it yet. -/
def readerOpened : System readerUsers where
  state := SharedReader.opened
  threads := fun _ => .idle ()

end PsMsgr
