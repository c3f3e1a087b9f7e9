import PsMsgr.State.Common

namespace PsMsgr

open Effect

/-- Whether the lock path still names the inode open as `fd`; a missing path is
not an error. -/
def namesInode (fd : Fd) : Prog (Except Code Bool) := do
  match ← call (.fstatLock fd) with
  | .error _ => return .error .sys
  | .ok opened =>
      match ← call .lstatLock with
      | .error .enoent => return .ok false
      | .error _ => return .error .sys
      | .ok named => return .ok (opened == named)

/-- The part of `lock_channel`'s loop body after the lock file has been opened;
`again` is the next turn of the loop. -/
def lockOpened (again : Prog (Except Code Fd)) (fd : Fd) : Prog (Except Code Fd) := do
  match ← call (.setLock fd) with
  | .error .eagain | .error .eacces =>
      -- Held by someone.  If the path moved on, the holder is no writer of this channel.
      let current ← namesInode fd
      call (.closeLock fd)
      match current with
      | .error err => return .error err
      | .ok true => return .error .writerExists
      | .ok false => again
  | .error _ =>
      call (.closeLock fd)
      return .error .sys
  | .ok _ =>
      match ← namesInode fd with
      | .ok true => return .ok fd
      | .error err =>
          call (.closeLock fd)
          return .error err
      | .ok false =>
          call (.closeLock fd)
          again

/-- Opens or creates the lock file, locks it and verifies that the path still names
the locked inode, starting over if it does not.  `turns` bounds the turns of the
loop in one run. -/
def lockChannel (mode : UInt32) : Nat → Prog (Except Code Fd)
  | 0 => do nomatch ← call .spin
  | turns + 1 => do
      match ← call .openLockNew with
      | .ok fd =>
          match ← call (.fchmodLock fd mode) with
          | .error _ =>
              call (.closeLock fd)
              return .error .sys
          | .ok _ => lockOpened (lockChannel mode turns) fd
      | .error .eexist =>
          match ← call .openLock with
          | .error .enoent => lockChannel mode turns -- unlinked in between
          | .error _ => return .error .sys
          | .ok fd => lockOpened (lockChannel mode turns) fd
      | .error _ => return .error .sys

/-- The suffix of a directory entry that is exactly `<data_base>.tmp.XXXXXX`. -/
def staleSuffix (dataBase entry : List Char) : Option Suffix :=
  if dataBase.isPrefixOf entry then
    let rest := entry.drop dataBase.length
    if ".tmp.".toList.isPrefixOf rest then
      let suffix := rest.drop 5
      if suffix.length = 6 && !suffix.contains '.' then some suffix else none
    else none
  else none

def unlinkStale (dataBase : List Char) : List (List Char) → Prog Unit
  | [] => return ()
  | entry :: entries =>
      match staleSuffix dataBase entry with
      | none => unlinkStale dataBase entries
      | some suffix => do
          let _ ← call (.unlinkTmp suffix)
          unlinkStale dataBase entries

def removeStaleTmp (p : Paths) : Prog Unit := do
  match ← call .readdir with
  | none => return () -- best effort
  | some entries => unlinkStale p.dataBase entries

end PsMsgr
