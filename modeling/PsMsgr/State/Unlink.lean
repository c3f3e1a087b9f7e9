import PsMsgr.State.Writer
import PsMsgr.State.Reader

namespace PsMsgr

open Effect

def unlinkCode : Except Errno Unit → Code
  | .ok _ => .ok
  | .error .enoent => .nodata
  | .error _ => .sys

/-- Unlinks the data path, then retires its file if its header could be mapped: readers
that wake up find the path already gone. -/
def unlinkMapped (fd : FileId) (mapped : Except Errno Unit) : Prog Code := do
  call (.close fd)
  let rc := unlinkCode (← call .unlinkData)
  match mapped with
  | .ok _ =>
      if rc = .ok then
        retire fd
      call (.munmap fd)
      return rc
  | .error _ => return rc

/-- The data file's part of `psmsgr_state_unlink`. -/
def unlinkDataFile : Prog Code := do
  match ← call .openData with
  | .ok fd =>
      let (rc, _, h) ← readHeader fd
      if rc = .ok ∧ h.magic = psmiMagic then
        unlinkMapped fd (← call (.mmap fd psmiHeaderSize.toNat))
      else
        unlinkMapped fd (.error .other)
  | .error .enoent => return .nodata
  | .error _ => return .sys

/-- Retires and deletes the channel. -/
def psmsgrStateUnlink (environment : Option (List Char)) (turns : Nat)
    (name dir : Option (List Char)) : Prog Code := do
  if !nameValid name || dir == some [] then
    return .inval
  match ← pathsInit environment dir (name.getD []) with
  | .error code => return code
  | .ok p =>
      match ← lockChannel 0o600 turns with
      | .error code => return code
      | .ok lockFd =>
          removeStaleTmp p
          let rc ← unlinkDataFile
          -- Remove the lock file while still holding it.
          let rc ← if rc ≠ .sys then
              match ← call .unlinkLock with
              | .ok _ => pure rc
              | .error .enoent => pure rc
              | .error _ => pure Code.sys
            else pure rc
          call (.closeLock lockFd)
          return rc

end PsMsgr
