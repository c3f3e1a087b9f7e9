import PsMsgr.State.Looking
import PsMsgr.State.Unlink

namespace PsMsgr

open Effect

/-- The calls made under the lock by an open or an unlink. -/
def Sys.Manages : Sys → Prop
  | .readdir | .mkostemp | .unlinkTmp _ | .renameTmp _ | .openData | .unlinkData | .unlinkLock
  | .closeLock _ | .fstat _ | .fchmod _ _ | .pread _ _ _ | .fallocate _ _ | .mmap _ _ | .munmap _
  | .close _ | .load _ _ | .loadByte _ _ | .storeByte _ _ _ | .fetchOr _ _ _ | .fetchAdd _ _ _
  | .futexWake _ | .malloc | .clock _ | .getrandom | .getpid => True
  | _ => False

/-- The calls that acquire the lock. -/
def Sys.Locks : Sys → Prop
  | .openLockNew | .openLock | .fchmodLock _ _ | .setLock _ | .fstatLock _ | .lstatLock
  | .closeLock _ | .spin => True
  | _ => False

/-- What a thread without a handle asks for. -/
def Sys.Prepares (request : Sys) : Prop := request.Manages ∨ request.Locks

/-- An open that fails under the lock reports one of these. -/
def Code.Refuses (code : Code) : Prop := code = .sys ∨ code = .format ∨ code = .mismatch

/-- The open succeeds, or refuses. -/
def Opening (result : Except Code Writer) : Prop := ∀ code, result = .error code → code.Refuses

section

variable {α : Type}

theorem manages_bind {request : Sys} {rest : request.Reply → Prog α} {result : α → Prop}
    (manages : request.Manages) (remaining : ∀ reply, (rest reply).Always Sys.Manages result) :
    (call request >>= rest).Always Sys.Manages result :=
  (Program.Always.perform manages).bind fun reply _ => remaining reply

theorem opening_sys : Opening (.error .sys) := by
  rintro code ⟨⟩
  exact .inl rfl

theorem opening_ok (w : Writer) : Opening (.ok w) := nofun

theorem loadWord_manages (file : FileId) (offset : Nat) :
    (loadWord file offset).Always Sys.Manages (fun _ => True) :=
  (loadBytes_always fun _ _ _ => trivial).bind fun _ _ => trivial

theorem storeBytes_manages (file : FileId) (offset : Nat) (bytes : List UInt8) :
    (storeBytes file offset bytes).Always Sys.Manages (fun _ => True) :=
  storeBytes_always fun _ _ _ _ => trivial

theorem readHeader_manages (file : FileId) : (readHeader file).Always Sys.Manages (fun _ => True) := by
  unfold readHeader
  refine manages_bind trivial fun reply => ?_
  split
  · trivial
  split
  · trivial
  refine manages_bind trivial fun reply => ?_
  split
  · trivial
  split <;> trivial

theorem retire_manages (file : FileId) : (retire file).Always Sys.Manages (fun _ => True) := by
  refine manages_bind trivial fun _ => ?_
  refine manages_bind trivial fun _ => ?_
  exact Program.Always.perform trivial

theorem unlinkStale_manages (dataBase : List Char) (entries : List (List Char)) :
    (unlinkStale dataBase entries).Always Sys.Manages (fun _ => True) := by
  induction entries with
  | nil => trivial
  | cons entry entries ih =>
      rw [unlinkStale]
      split
      · exact ih
      · exact manages_bind trivial fun _ => ih

theorem removeStaleTmp_manages (p : Paths) :
    (removeStaleTmp p).Always Sys.Manages (fun _ => True) := by
  refine manages_bind trivial fun entries => ?_
  split
  · trivial
  · exact unlinkStale_manages _ _

theorem namesInode_always {permitted : Sys → Prop} {fd : Fd} (opened : permitted (.fstatLock fd))
    (named : permitted .lstatLock) : (namesInode fd).Always permitted
    (fun result => ∀ code, result = .error code → code = .sys) := by
  refine (Program.Always.perform opened).bind fun opened _ => ?_
  split
  · rintro code ⟨⟩
    rfl
  refine (Program.Always.perform named).bind fun named _ => ?_
  split
  · exact nofun
  · rintro code ⟨⟩
    rfl
  · exact nofun

theorem pathsInit_always (environment dir : Option (List Char)) (name : List Char) :
    (pathsInit environment dir name).Always (· ≠ .spin)
      (fun result => ∀ code, result = .error code → code = .sys) := by
  refine (Program.Always.perform nofun).bind fun enough _ => ?_
  split
  · exact nofun
  · rintro code ⟨⟩
    rfl

theorem pathsInit_prepares (environment dir : Option (List Char)) (name : List Char) :
    (pathsInit environment dir name).Always Sys.Prepares (fun _ => True) := by
  refine Program.Always.bind (Program.Always.perform (.inl trivial)) fun enough _ => ?_
  split <;> trivial

theorem loadOptions_inval {abi : Abi} {opt : Option Options} {code : Code}
    (failed : loadOptions abi opt = .error code) : code = .inval := by
  unfold loadOptions at failed
  dsimp only at failed
  split at failed
  · next other unset =>
      cases failed
      split at unset
      · exact nomatch unset
      · split at unset
        · exact (Except.error.inj unset).symm
        · exact nomatch unset
  · split at failed
    · exact (Except.error.inj failed).symm
    · exact nomatch failed

theorem randomGeneration_manages : randomGeneration.Always Sys.Manages (fun _ => True) := by
  refine manages_bind trivial fun random => ?_
  split
  · trivial
  refine manages_bind trivial fun _ => ?_
  refine manages_bind trivial fun _ => ?_
  exact manages_bind trivial fun _ => trivial

theorem carriedGeneration_manages (map : FileId) (stride latest : UInt32) :
    (carriedGeneration map stride latest).Always Sys.Manages (fun _ => True) := by
  unfold carriedGeneration
  split
  · exact randomGeneration_manages
  · exact (loadWord_manages _ _).bind fun _ _ => trivial

theorem storeHeader_manages (build : Build) (o : Options) (stride : UInt32) (map : FileId) :
    (storeHeader build o stride map).Always Sys.Manages (fun _ => True) := by
  unfold storeHeader
  iterate 11 refine (storeBytes_manages _ _ _).bind fun _ _ => ?_
  exact manages_bind trivial fun _ => storeBytes_manages _ _ _

theorem createFail_manages (suffix : Suffix) (fd : FileId) (mapped : Bool) :
    (createFail suffix fd mapped).Always Sys.Manages Opening := by
  have cleans : (do
      call (.close fd)
      let _ ← call (.unlinkTmp suffix)
      return (.error .sys : Except Code Writer)).Always Sys.Manages Opening := by
    refine manages_bind trivial fun _ => ?_
    exact manages_bind trivial fun _ => opening_sys
  unfold createFail
  split
  · exact manages_bind trivial fun _ => cleans
  · exact cleans

theorem createFile_manages (build : Build) (o : Options) (lockFd : Fd) (old : Option FileId)
    (gen : UInt32) : (createFile build o lockFd old gen).Always Sys.Manages Opening := by
  unfold createFile
  refine manages_bind trivial fun enough => ?_
  split
  · exact opening_sys
  refine manages_bind trivial fun reply => ?_
  split
  · exact opening_sys
  refine manages_bind trivial fun reply => ?_
  split
  · exact createFail_manages _ _ _
  refine manages_bind trivial fun reply => ?_
  split
  · exact createFail_manages _ _ _
  refine manages_bind trivial fun reply => ?_
  split
  · exact createFail_manages _ _ _
  refine (storeHeader_manages _ _ _ _).bind fun _ _ => ?_
  refine manages_bind trivial fun reply => ?_
  split
  · exact createFail_manages _ _ _
  refine manages_bind trivial fun _ => ?_
  have retires : (retireOld old).Always Sys.Manages (fun _ => True) := by
    cases old with
    | none => trivial
    | some file => exact retire_manages file
  refine retires.bind fun _ _ => ?_
  iterate 4 refine (loadWord_manages _ _).bind fun _ _ => ?_
  exact opening_ok _

theorem openChecked_manages (build : Build) (o : Options) (lockFd : Fd) (fd : FileId) (h : Header)
    (valid : Bool) (mapSize : Nat) (latest gen : UInt32) :
    (openChecked build o lockFd fd h valid mapSize latest gen).Always Sys.Manages Opening := by
  have unmaps (old : Option FileId) (result : Except Code Writer) (opening : Opening result) :
      (do
        if old.isSome then
          call (.munmap fd)
        return result : Prog (Except Code Writer)).Always Sys.Manages Opening := by
    split
    · exact manages_bind trivial fun _ => opening
    · exact opening
  have creates (old : Option FileId) : (do
      let result ← createFile build o lockFd old gen
      if old.isSome then
        call (.munmap fd)
      return result : Prog (Except Code Writer)).Always Sys.Manages Opening :=
    (createFile_manages _ _ _ _ _).bind fun result opening => unmaps old result opening
  have refuses {code : Code} (refuses : code.Refuses) : Opening (.error code) := by
    rintro other ⟨⟩
    exact refuses
  unfold openChecked
  dsimp only
  split
  · split
    · exact creates _
    · exact unmaps _ _ (refuses (.inr (.inl rfl)))
  refine manages_bind trivial fun state => ?_
  split
  · exact creates _
  split
  · split
    · exact creates _
    · exact unmaps _ _ (refuses (.inr (.inr rfl)))
  split
  · exact creates _
  · exact opening_ok _

theorem mapData_manages (build : Build) (o : Options) (lockFd : Fd) (fd : FileId) (h : Header)
    (valid : Bool) (mapSize : Nat) :
    (mapData build o lockFd fd h valid mapSize).Always Sys.Manages Opening := by
  have opens : (openMapped build o lockFd fd h valid mapSize).Always Sys.Manages Opening := by
    have checks (latest : UInt32) (valid : Bool) : (if valid then do
          let gen ← carriedGeneration fd h.slotStride latest
          openChecked build o lockFd fd h valid mapSize latest gen
        else do
          let gen ← randomGeneration
          openChecked build o lockFd fd h valid mapSize latest gen).Always Sys.Manages Opening := by
      split
      · exact (carriedGeneration_manages _ _ _).bind fun _ _ => openChecked_manages _ _ _ _ _ _ _ _ _
      · exact randomGeneration_manages.bind fun _ _ => openChecked_manages _ _ _ _ _ _ _ _ _
    unfold openMapped
    dsimp only
    split
    · exact manages_bind trivial fun latest => checks _ _
    · exact checks _ _
  unfold mapData
  split
  · refine manages_bind trivial fun mapped => ?_
    split
    · exact manages_bind trivial fun _ => opening_sys
    · exact manages_bind trivial fun _ => opens
  · exact manages_bind trivial fun _ => opens

theorem openData_manages (build : Build) (o : Options) (lockFd : Fd) :
    (openData build o lockFd).Always Sys.Manages Opening := by
  unfold openData
  refine manages_bind trivial fun reply => ?_
  split
  · exact randomGeneration_manages.bind fun gen _ => createFile_manages _ _ _ _ _
  · exact opening_sys
  refine (readHeader_manages _).bind fun header _ => ?_
  dsimp only
  split
  · exact manages_bind trivial fun _ => opening_sys
  · exact mapData_manages _ _ _ _ _ _ _

/-- What unlinking the data file reports. -/
def Code.Unlinks (code : Code) : Prop := code = .ok ∨ code = .nodata ∨ code = .sys

theorem unlinkCode_unlinks (reply : Except Errno Unit) : (unlinkCode reply).Unlinks := by
  unfold unlinkCode
  split
  · exact .inl rfl
  · exact .inr (.inl rfl)
  · exact .inr (.inr rfl)

theorem unlinkMapped_manages (fd : FileId) (mapped : Except Errno Unit) :
    (unlinkMapped fd mapped).Always Sys.Manages Code.Unlinks := by
  unfold unlinkMapped
  refine manages_bind trivial fun _ => ?_
  refine manages_bind trivial fun reply => ?_
  dsimp only
  split
  · split
    · refine (retire_manages fd).bind fun _ _ => ?_
      exact manages_bind trivial fun _ => unlinkCode_unlinks reply
    · exact manages_bind trivial fun _ => unlinkCode_unlinks reply
  · exact unlinkCode_unlinks reply

theorem unlinkDataFile_manages : unlinkDataFile.Always Sys.Manages Code.Unlinks := by
  unfold unlinkDataFile
  refine manages_bind trivial fun reply => ?_
  split
  · refine (readHeader_manages _).bind fun header _ => ?_
    dsimp only
    split
    · exact manages_bind trivial fun mapped => unlinkMapped_manages _ _
    · exact unlinkMapped_manages _ _
  · exact .inr (.inl rfl)
  · exact .inr (.inr rfl)

theorem unlinked_always (fd : Fd) {code : Code} (unlinks : code.Unlinks) :
    (do
      let rc ← if code ≠ Code.sys then
          match ← call .unlinkLock with
          | .ok _ => pure code
          | .error .enoent => pure code
          | .error _ => pure Code.sys
        else pure code
      call (.closeLock fd)
      return rc : Prog Code).Always Sys.Manages Code.Unlinks := by
  have closes {result : Code} (unlinks : result.Unlinks) :
      (do call (.closeLock fd); return result).Always Sys.Manages Code.Unlinks :=
    manages_bind trivial fun _ => unlinks
  dsimp only
  split
  · refine manages_bind trivial fun reply => ?_
    split
    · exact closes unlinks
    · exact closes unlinks
    · exact closes (.inr (.inr rfl))
  · exact closes unlinks

/-- All `lock_channel` fails for is a call that failed, or a writer. -/
def Locking (result : Except Code Fd) : Prop :=
  ∀ code, result = .error code → code = .sys ∨ code = .writerExists

theorem locking_sys : Locking (.error .sys) := by
  rintro code ⟨⟩
  exact .inl rfl

/-- What `lock_channel` does when the lock is held by someone. -/
def lockRefused (again : Prog (Except Code Fd)) (fd : Fd) : Prog (Except Code Fd) := do
  let current ← namesInode fd
  call (.closeLock fd)
  match current with
  | .error err => return .error err
  | .ok true => return .error .writerExists
  | .ok false => again

theorem lockRefused_locks {again : Prog (Except Code Fd)}
    (retried : again.Always Sys.Locks Locking) (fd : Fd) :
    (lockRefused again fd).Always Sys.Locks Locking := by
  have names : (namesInode fd).Always Sys.Locks
      (fun result => ∀ code, result = .error code → code = .sys) :=
    namesInode_always trivial trivial
  refine names.bind fun current failing => ?_
  refine Program.Always.bind (Program.Always.perform trivial) fun _ _ => ?_
  split
  · rintro code ⟨⟩
    exact .inl (failing _ rfl)
  · rintro code ⟨⟩
    exact .inr rfl
  · exact retried

theorem lockOpened_locks {again : Prog (Except Code Fd)}
    (retried : again.Always Sys.Locks Locking) (fd : Fd) :
    (lockOpened again fd).Always Sys.Locks Locking := by
  have closes {rest : Prog (Except Code Fd)} (remaining : rest.Always Sys.Locks Locking) :
      (do call (.closeLock fd); rest).Always Sys.Locks Locking :=
    Program.Always.bind (Program.Always.perform trivial) fun _ _ => remaining
  have names : (namesInode fd).Always Sys.Locks
      (fun result => ∀ code, result = .error code → code = .sys) :=
    namesInode_always trivial trivial
  unfold lockOpened
  refine Program.Always.bind (Program.Always.perform trivial) fun reply _ => ?_
  split
  · exact lockRefused_locks retried fd
  · exact lockRefused_locks retried fd
  · exact closes locking_sys
  · refine names.bind fun current failing => ?_
    split
    · rintro code ⟨⟩
    · refine closes ?_
      rintro code ⟨⟩
      exact .inl (failing _ rfl)
    · exact closes retried

theorem lockChannel_locks (mode : UInt32) (turns : Nat) :
    (lockChannel mode turns).Always Sys.Locks Locking := by
  induction turns with
  | zero => exact Program.Always.bind (Program.Always.perform trivial) fun reply _ => nomatch reply
  | succ turns ih =>
      rw [lockChannel]
      refine Program.Always.bind (Program.Always.perform trivial) fun created _ => ?_
      split
      · refine Program.Always.bind (Program.Always.perform trivial) fun changed _ => ?_
        split
        · exact Program.Always.bind (Program.Always.perform trivial) fun _ _ => locking_sys
        · exact lockOpened_locks ih _
      · refine Program.Always.bind (Program.Always.perform trivial) fun opened _ => ?_
        split
        · exact ih
        · exact locking_sys
        · exact lockOpened_locks ih _
      · exact locking_sys

theorem Prog.prepares {result : α → Prop} {program : Prog α}
    (manages : program.Always Sys.Manages result) : program.Always Sys.Prepares (fun _ => True) :=
  (manages.permit .inl).mono fun _ _ => trivial

theorem psmsgrStateWriterOpen_prepares (build : Build) (environment : Option (List Char))
    (turns : Nat) (name : Option (List Char)) (opt : Option Options) :
    (psmsgrStateWriterOpen build environment turns name opt).Always Sys.Prepares
      (fun _ => True) := by
  unfold psmsgrStateWriterOpen
  split
  · trivial
  split
  · trivial
  refine Program.Always.bind (pathsInit_prepares _ _ _) fun paths _ => ?_
  split
  · trivial
  refine Program.Always.bind (Program.Always.perform (.inl trivial)) fun enough _ => ?_
  split
  · trivial
  refine ((lockChannel_locks _ _).permit .inr).bind fun locked _ => ?_
  split
  · trivial
  refine (Prog.prepares (removeStaleTmp_manages _)).bind fun _ _ => ?_
  refine (Prog.prepares (openData_manages _ _ _)).bind fun opened _ => ?_
  split
  · exact Program.Always.bind (Program.Always.perform (.inl trivial)) fun _ _ => trivial
  refine Program.Always.bind (Program.Always.perform (.inl trivial)) fun pid _ => ?_
  exact (Prog.prepares (storeBytes_manages _ _ _)).bind fun _ _ => trivial

theorem psmsgrStateUnlink_prepares (environment : Option (List Char)) (turns : Nat)
    (name dir : Option (List Char)) :
    (psmsgrStateUnlink environment turns name dir).Always Sys.Prepares (fun _ => True) := by
  unfold psmsgrStateUnlink
  split
  · trivial
  refine (pathsInit_prepares _ _ _).bind fun paths _ => ?_
  split
  · trivial
  refine ((lockChannel_locks _ _).permit .inr).bind fun locked _ => ?_
  split
  · trivial
  refine (Prog.prepares (removeStaleTmp_manages _)).bind fun _ _ => ?_
  refine (unlinkDataFile_manages.permit .inl).bind fun code unlinks => ?_
  exact Prog.prepares (unlinked_always _ unlinks)

theorem psmsgrStateReaderOpen_prepares (environment name dir : Option (List Char)) :
    (psmsgrStateReaderOpen environment name dir).Always Sys.Prepares
      (fun result => ∀ r, result = .ok r → r = Reader.unattached) := by
  unfold psmsgrStateReaderOpen
  split
  · exact nofun
  refine Program.Always.bind (Program.Always.perform (.inl trivial)) fun enough _ => ?_
  split
  · exact nofun
  refine (pathsInit_prepares _ _ _).bind fun _ _ => ?_
  split
  · exact nofun
  · exact fun _ same => (Except.ok.inj same).symm

end

end PsMsgr
