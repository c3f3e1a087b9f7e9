import PsMsgr.Effect.Program
import PsMsgr.Layout

namespace PsMsgr

open Effect Data

/-! # System calls and shared-memory accesses

Everything the library asks of its environment, at the granularity at which
processes interleave: one system call, one atomic access, or one byte of a plain
access.  Paths are those of one channel: its lock file, its data file and the
temporary names of its data file, which differ only in their suffix.
-/

/-- An open file description of a lock file, which is what an OFD lock belongs to. -/
abbrev Fd := Nat
/-- The inode number of a lock file. -/
abbrev Ino := Nat
/-- A data file.  It is named by descriptors, by mappings and by directory entries. -/
abbrev FileId := Nat
/-- The characters `mkostemp` put in place of `XXXXXX`. -/
abbrev Suffix := List Char

inductive Errno where
  | eexist | enoent | eagain | eacces | eintr | etimedout | other
deriving DecidableEq, Repr

inductive Clock where
  | monotonic | realtime
deriving DecidableEq, Repr

structure Stat where
  regular : Bool
  size : Nat
deriving DecidableEq, Repr

inductive Sys where
  -- the lock file
  | openLockNew
  | openLock
  | fchmodLock (fd : Fd) (mode : UInt32)
  | setLock (fd : Fd)
  | getLock (fd : Fd)
  | fstatLock (fd : Fd)
  | lstatLock
  | unlinkLock
  | closeLock (fd : Fd)
  -- the directory entries of the data file
  | readdir
  | mkostemp
  | unlinkTmp (suffix : Suffix)
  | renameTmp (suffix : Suffix)
  | openData
  | lstatData
  | unlinkData
  -- an open data file
  | fstat (file : FileId)
  | fchmod (file : FileId) (mode : UInt32)
  | pread (file : FileId) (offset count : Nat)
  | fallocate (file : FileId) (size : Nat)
  | mmap (file : FileId) (size : Nat)
  | munmap (file : FileId)
  | close (file : FileId)
  -- a mapped data file
  | load (file : FileId) (offset : Nat)
  | store (file : FileId) (offset : Nat) (value : UInt32)
  | fetchOr (file : FileId) (offset : Nat) (value : UInt32)
  | fetchAdd (file : FileId) (offset : Nat) (value : UInt32)
  | loadByte (file : FileId) (offset : Nat)
  | storeByte (file : FileId) (offset : Nat) (value : UInt8)
  | futexWake (file : FileId)
  | futexWait (file : FileId) (expected : UInt32) (timeoutNs : UInt64)
  | futexSleep
  -- the process itself
  | malloc
  | clock (clock : Clock)
  | getrandom
  | getpid
  | nanosleep (ns : UInt64)
  | schedYield
  | spin
deriving DecidableEq

/-- The reply to each call.  `futexWait` is the atomic compare-and-enqueue;
`futexSleep` then ends when the thread was dequeued, timed out or was interrupted.
`spin` has no reply: a thread whose loop budget is used up stays where it is. -/
abbrev Sys.Reply : Sys → Type
  | .openLockNew | .openLock => Except Errno Fd
  | .fchmodLock _ _ | .setLock _ | .unlinkLock => Except Errno Unit
  | .getLock _ => Except Errno Bool
  | .fstatLock _ | .lstatLock => Except Errno Ino
  | .closeLock _ => Unit
  | .readdir => Option (List (List Char))
  | .mkostemp => Except Errno (Suffix × FileId)
  | .unlinkTmp _ | .renameTmp _ | .unlinkData => Except Errno Unit
  | .openData | .lstatData => Except Errno FileId
  | .fstat _ => Except Errno Stat
  | .fchmod _ _ | .fallocate _ _ | .mmap _ _ => Except Errno Unit
  | .pread _ _ _ => Except Errno (List UInt8)
  | .munmap _ | .close _ => Unit
  | .load _ _ | .fetchOr _ _ _ | .fetchAdd _ _ _ => UInt32
  | .store _ _ _ | .storeByte _ _ _ => Unit
  | .loadByte _ _ => UInt8
  | .futexWake _ => Unit
  | .futexWait _ _ _ | .futexSleep => Except Errno Unit
  | .malloc => Bool
  | .clock _ => UInt64
  | .getrandom => Option UInt32
  | .getpid => UInt32
  | .nanosleep _ => Bool
  | .schedYield => Unit
  | .spin => Empty

abbrev Prog := Program Sys Sys.Reply

def call (request : Sys) : Prog request.Reply := Program.perform request

/-- A plain copy out of a mapping, byte by byte. -/
def loadBytes (file : FileId) : Nat → Nat → Prog (List UInt8)
  | _, 0 => return []
  | offset, count + 1 => do
      let byte ← call (.loadByte file offset)
      let bytes ← loadBytes file (offset + 1) count
      return byte :: bytes

/-- A plain copy or field store into a mapping, byte by byte. -/
def storeBytes (file : FileId) : Nat → List UInt8 → Prog Unit
  | _, [] => return ()
  | offset, byte :: bytes => do
      call (.storeByte file offset byte)
      storeBytes file (offset + 1) bytes

def loadWord (file : FileId) (offset : Nat) : Prog UInt32 := do
  let bytes ← loadBytes file offset 4
  return UInt32.ofNat (decode bytes)

end PsMsgr
