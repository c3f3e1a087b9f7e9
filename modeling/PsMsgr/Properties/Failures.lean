import PsMsgr.Effect.Replies
import PsMsgr.State.Managing
import PsMsgr.Channel.System

namespace PsMsgr

open Effect

/-- An error other than those that are answers. -/
def Unanswered {α : Type} (answers : List Errno) (reply : Except Errno α) : Prop :=
  ∃ err, reply = .error err ∧ err ∉ answers

/-- The call failed: it did not do what it was asked for and did not answer a question either.
What removing a temporary file replies is never looked at. -/
def Sys.Failure : (request : Sys) → request.Reply → Prop
  | .openLockNew, reply => Unanswered [.eexist] reply
  | .openLock, reply | .openData, reply | .lstatData, reply => Unanswered [.enoent] reply
  | .lstatLock, reply => Unanswered [.enoent] reply
  | .unlinkLock, reply | .unlinkData, reply => Unanswered [.enoent] reply
  | .setLock _, reply => Unanswered [.eagain, .eacces] reply
  | .futexWait _ _ _, reply | .futexSleep, reply => Unanswered [.eagain, .etimedout, .eintr] reply
  | .getLock _, reply => Unanswered [] reply
  | .fstatLock _, reply => Unanswered [] reply
  | .mkostemp, reply => Unanswered [] reply
  | .fstat _, reply => Unanswered [] reply
  | .pread _ _ _, reply => Unanswered [] reply
  | .fchmodLock _ _, reply | .renameTmp _, reply => Unanswered [] reply
  | .fchmod _ _, reply | .fallocate _ _, reply | .mmap _ _, reply => Unanswered [] reply
  | .malloc, reply => reply = false
  | _, _ => False

/-- The reply is not a failure. -/
abbrev Sys.Success (request : Sys) (reply : request.Reply) : Prop := ¬request.Failure reply

/-- As long as no call fails, the program's result is as described. -/
abbrev Succeeds {α : Type} (program : Prog α) (result : α → Prop) : Prop :=
  program.Confined (fun _ => True) Sys.Success result

section

variable {α β : Type}

theorem Succeeds.call {request : Sys} {rest : request.Reply → Prog β} {result : β → Prop}
    (remaining : ∀ reply, request.Success reply → Succeeds (rest reply) result) :
    Succeeds (PsMsgr.call request >>= rest) result :=
  Program.Confined.bind (Program.Confined.perform trivial) remaining

theorem Succeeds.done {value : α} {result : α → Prop} (holds : result value) :
    Succeeds (pure value) result := holds

theorem Succeeds.any (program : Prog α) : Succeeds program (fun _ => True) :=
  (Program.Always.intro program).confined

theorem not_failed {err : Errno} (success : ¬Unanswered [] (.error err : Except Errno α)) : False :=
  success ⟨err, rfl, List.not_mem_nil⟩

theorem answer_of_error {answers : List Errno} {err : Errno}
    (success : ¬Unanswered answers (.error err : Except Errno α)) : err ∈ answers := by
  by_contra other
  exact success ⟨err, rfl, other⟩

theorem memory_suffices {enough : Bool} (success : Sys.malloc.Success enough) :
    ¬(!enough) = true := by
  intro failed
  have empty : enough = false := by simpa using failed
  exact success empty

theorem only_answer {answer err : Errno}
    (success : ¬Unanswered [answer] (.error err : Except Errno α)) : err = answer :=
  List.mem_singleton.mp (answer_of_error success)

end

theorem pathsInit_succeeds (environment dir : Option (List Char)) (name : List Char) :
    Succeeds (pathsInit environment dir name) (fun result => ∃ paths, result = .ok paths) := by
  refine Succeeds.call fun enough success => ?_
  split
  · exact ⟨_, rfl⟩
  · next failed => exact (memory_suffices success (by simpa using failed)).elim

theorem readHeader_succeeds (fd : FileId) :
    Succeeds (readHeader fd) (fun result => result.1 ≠ .sys) := by
  refine Succeeds.call fun reply success => ?_
  split
  · exact (not_failed success).elim
  split
  · exact Succeeds.done (by simp)
  refine Succeeds.call fun reply success => ?_
  split
  · exact (not_failed success).elim
  split
  · exact Succeeds.done (by simp)
  · exact Succeeds.done (by simp)

theorem attach_succeeds (r : Reader) : Succeeds (attach r) (fun result => result.1 ≠ .sys) := by
  refine Succeeds.call fun reply success => ?_
  split
  · exact Succeeds.done (by simp)
  · next missing => exact (missing (only_answer success)).elim
  refine (readHeader_succeeds _).bind fun found fine => ?_
  dsimp only
  split
  · exact Succeeds.call fun _ _ => fine
  split
  · exact Succeeds.call fun _ _ => Succeeds.done (by simp)
  refine Succeeds.call fun reply success => ?_
  split
  · exact (not_failed success).elim
  · exact Succeeds.call fun _ _ => Succeeds.done (by simp)

theorem attachLoop_succeeds (r : Reader) (tries : Nat) :
    Succeeds (attachLoop r tries) (fun result => result.1 ≠ .sys) := by
  induction tries generalizing r with
  | zero => exact Succeeds.done (by simp)
  | succ tries ih =>
      refine (attach_succeeds r).bind fun found fine => ?_
      dsimp only
      split
      · refine Succeeds.call fun state _ => ?_
        dsimp only
        split
        · exact Succeeds.done (by simp)
        · exact Succeeds.call fun _ _ => ih _
      · exact fine

theorem readerSync_succeeds (r : Reader) :
    Succeeds (readerSync r) (fun result => result.1 ≠ .sys) := by
  unfold readerSync
  split
  · refine Succeeds.call fun state _ => ?_
    dsimp only
    split
    · exact Succeeds.done (by simp)
    · exact Succeeds.call fun _ _ => attachLoop_succeeds _ _
  · exact attachLoop_succeeds r attachRetries

theorem identityCheck_succeeds (r : Reader) :
    Succeeds (identityCheck r) (fun result => result.1 ≠ .sys) := by
  unfold identityCheck
  split
  · exact Succeeds.done (by simp)
  refine Succeeds.call fun reply success => ?_
  split
  · split
    · exact Succeeds.done (by simp)
    · exact Succeeds.call fun _ _ => Succeeds.done (by simp)
  · exact Succeeds.call fun _ _ => Succeeds.done (by simp)
  · next missing => exact (missing (only_answer success)).elim

theorem readAttempt_succeeds (r : Reader) (map : FileId) (buffer : List UInt8) (size : UInt32)
    (copy : Bool) : Succeeds (readAttempt r map buffer size copy)
      (fun turn => ∀ info bytes, turn ≠ .result .sys info bytes) := by
  have rechecked {s : Nat} {q1 : UInt32} {m : SlotCopy} {buffer : List UInt8} :
      Succeeds (recheck r map s q1 m buffer size copy)
        (fun turn => ∀ info bytes, turn ≠ .result .sys info bytes) := by
    refine Succeeds.call fun q2 _ => ?_
    split
    · split
      · exact Succeeds.done (by simp)
      · exact Succeeds.done (by split <;> simp)
    · exact Succeeds.done (by simp)
  refine Succeeds.call fun latest _ => ?_
  split
  · exact Succeeds.done (by simp)
  split
  · exact Succeeds.done (by simp)
  refine Succeeds.call fun q1 _ => ?_
  split
  · refine (Succeeds.any _).bind fun bytes _ => ?_
    dsimp only
    split
    · exact (Succeeds.any _).bind fun payload _ => rechecked
    · exact rechecked
  · exact Succeeds.done (by simp)

theorem readLoop_succeeds (r : Reader) (map : FileId) (size : UInt32) (copy : Bool) (tries : Nat)
    (buffer : List UInt8) :
    Succeeds (readLoop r map size copy tries buffer) (fun result => result.1 ≠ .sys) := by
  induction tries generalizing buffer with
  | zero => exact Succeeds.done (by simp)
  | succ tries ih =>
      refine (readAttempt_succeeds r map buffer size copy).bind fun turn fine => ?_
      split
      · next code info bytes =>
          have differs : code ≠ .sys := by
            rintro rfl
            exact fine _ _ rfl
          exact differs
      · dsimp only
        split
        · exact Succeeds.call fun _ _ => ih _
        · exact ih _

theorem psmsgrStateRead_succeeds (r : Reader) (buffer : Option (List UInt8)) (size : UInt32) :
    Succeeds (psmsgrStateRead r buffer size) (fun result => result.1.code ≠ .sys) := by
  unfold psmsgrStateRead
  split
  · exact Succeeds.done (by simp)
  refine (readerSync_succeeds r).bind fun synced fine => ?_
  dsimp only
  split
  · refine (readLoop_succeeds _ _ _ _ _ _).bind fun found fine => ?_
    split
    · exact fine
    · exact fine
  · exact fine

theorem psmsgrStatePeek_succeeds (r : Reader) :
    Succeeds (psmsgrStatePeek r) (fun result => result.1.code ≠ .sys) := by
  refine (readerSync_succeeds r).bind fun synced fine => ?_
  dsimp only
  split
  · refine (readLoop_succeeds _ _ _ _ _ _).bind fun found fine => ?_
    split
    · exact fine
    · exact fine
  · exact fine

theorem psmsgrStateDescribe_succeeds (r : Reader) :
    Succeeds (psmsgrStateDescribe r) (fun result => result.1 ≠ .sys) := by
  refine (readerSync_succeeds r).bind fun synced fine => ?_
  dsimp only
  split
  · exact fine
  · exact Succeeds.done (by simp)

theorem futexWait_succeeds (map : FileId) (expected : UInt32) (timeoutNs : UInt64) :
    Succeeds (futexWait map expected timeoutNs) (fun result =>
      ∀ err, result = .error err → err ∈ [.eagain, .etimedout, .eintr]) := by
  refine Succeeds.call fun reply success => ?_
  split
  · refine Succeeds.done fun err same => ?_
    cases same
    exact answer_of_error success
  · have slept : Succeeds (call .futexSleep) Sys.futexSleep.Success :=
      Program.Confined.perform trivial
    refine slept.mono fun reply success err same => ?_
    subst same
    exact answer_of_error success

theorem waitLoop_succeeds (lastGeneration : UInt32) (deadline : UInt64) (turns : Nat) (r : Reader) :
    Succeeds (waitLoop lastGeneration deadline turns r) (fun result => result.1 ≠ .sys) := by
  induction turns generalizing r with
  | zero => exact Succeeds.call fun never _ => never.elim
  | succ turns ih =>
      rw [waitLoop]
      refine (readerSync_succeeds r).bind fun synced fine => ?_
      dsimp only
      split
      · split
        · exact Succeeds.done (by simp)
        refine Succeeds.call fun notified _ => ?_
        refine (Succeeds.any _).bind fun gone _ => ?_
        split
        · exact ih _
        refine (Succeeds.any _).bind fun found _ => ?_
        split
        · exact Succeeds.done (by simp)
        split
        · exact Succeeds.done (by simp)
        refine Succeeds.call fun now _ => ?_
        split
        · exact Succeeds.done (by simp)
        refine (futexWait_succeeds _ _ _).bind fun woken answers => ?_
        split
        · exact ih _
        · exact Succeeds.done (by simp)
        · refine (identityCheck_succeeds _).bind fun checked fine => ?_
          split
          · exact fine
          · exact ih _
        · exact ih _
        · next interrupted late stale =>
            have answered := answers _ rfl
            simp only [List.mem_cons, List.not_mem_nil, or_false] at answered
            rcases answered with eagain | etimedout | eintr
            · exact (stale eagain).elim
            · exact (late etimedout).elim
            · exact (interrupted eintr).elim
      · refine Succeeds.call fun now _ => ?_
        split
        · exact Succeeds.done (by simp)
        refine Succeeds.call fun interrupted _ => ?_
        split
        · exact Succeeds.done (by simp)
        · exact ih _
      · exact fine

theorem psmsgrStateWait_succeeds (turns : Nat) (r : Reader) (lastGeneration : UInt32)
    (timeoutMs : Int) :
    Succeeds (psmsgrStateWait turns r lastGeneration timeoutMs)
      (fun result => result.1 ≠ .sys) := by
  unfold psmsgrStateWait
  split
  · exact waitLoop_succeeds _ _ _ _
  · exact Succeeds.call fun now _ => waitLoop_succeeds _ _ _ _

theorem psmsgrStateWriterAlive_succeeds (r : Reader) :
    Succeeds (psmsgrStateWriterAlive r) (fun result => result.1 ≠ .error .sys) := by
  refine (identityCheck_succeeds r).bind fun checked fine => ?_
  dsimp only
  split
  · refine Succeeds.done ?_
    simpa using fine
  refine (Succeeds.any _).bind fun synced _ => ?_
  refine Succeeds.call fun opened success => ?_
  split
  · exact Succeeds.done (by simp)
  · next missing => exact (missing (only_answer success)).elim
  refine Succeeds.call fun conflict success => ?_
  refine Succeeds.call fun _ _ => ?_
  split
  · exact (not_failed success).elim
  · exact Succeeds.done (by simp)

theorem psmsgrStateReaderOpen_succeeds (environment name dir : Option (List Char)) :
    Succeeds (psmsgrStateReaderOpen environment name dir) (fun result => result ≠ .error .sys) := by
  unfold psmsgrStateReaderOpen
  split
  · exact Succeeds.done (by simp)
  refine Succeeds.call fun enough success => ?_
  split
  · next failed => exact (memory_suffices success failed).elim
  refine (pathsInit_succeeds _ _ _).bind fun paths found => ?_
  obtain ⟨paths, rfl⟩ := found
  exact Succeeds.done (by simp)

theorem ok_ne_sys : Code.ok ≠ .sys := by simp

theorem error_ne_sys {α : Type} {code : Code}
    (fine : (.error code : Except Code α) ≠ .error .sys) : code ≠ .sys := by
  rintro rfl
  exact fine rfl

theorem namesInode_succeeds (fd : Fd) :
    Succeeds (namesInode fd) (fun result => ∃ names, result = .ok names) := by
  refine Succeeds.call fun opened success => ?_
  split
  · exact (not_failed success).elim
  refine Succeeds.call fun named success => ?_
  split
  · exact ⟨_, rfl⟩
  · next missing => exact (missing (only_answer success)).elim
  · exact ⟨_, rfl⟩

theorem lockRefused_succeeds {again : Prog (Except Code Fd)}
    (retried : Succeeds again (fun result => result ≠ .error .sys)) (fd : Fd) :
    Succeeds (lockRefused again fd) (fun result => result ≠ .error .sys) := by
  refine (namesInode_succeeds fd).bind fun current names => ?_
  obtain ⟨names, rfl⟩ := names
  refine Succeeds.call fun _ _ => ?_
  cases names with
  | true => exact Succeeds.done (by simp)
  | false => exact retried

theorem lockOpened_succeeds {again : Prog (Except Code Fd)}
    (retried : Succeeds again (fun result => result ≠ .error .sys)) (fd : Fd) :
    Succeeds (lockOpened again fd) (fun result => result ≠ .error .sys) := by
  refine Succeeds.call fun reply success => ?_
  split
  · exact lockRefused_succeeds retried fd
  · exact lockRefused_succeeds retried fd
  · next busy denied =>
      have answered := answer_of_error success
      simp only [List.mem_cons, List.not_mem_nil, or_false] at answered
      exact (answered.elim busy denied).elim
  · refine (namesInode_succeeds fd).bind fun current names => ?_
    obtain ⟨names, rfl⟩ := names
    cases names with
    | true => exact Succeeds.done (by simp)
    | false => exact Succeeds.call fun _ _ => retried

theorem lockChannel_succeeds (mode : UInt32) (turns : Nat) :
    Succeeds (lockChannel mode turns) (fun result => result ≠ .error .sys) := by
  induction turns with
  | zero => exact Succeeds.call fun never _ => never.elim
  | succ turns ih =>
      refine Succeeds.call fun created success => ?_
      split
      · refine Succeeds.call fun changed success => ?_
        split
        · exact (not_failed success).elim
        · exact lockOpened_succeeds ih _
      · refine Succeeds.call fun opened success => ?_
        split
        · exact ih
        · next missing => exact (missing (only_answer success)).elim
        · exact lockOpened_succeeds ih _
      · next taken => exact (taken (only_answer success)).elim

theorem createFile_succeeds (build : Build) (o : Options) (lockFd : Fd) (old : Option FileId)
    (gen : UInt32) :
    Succeeds (createFile build o lockFd old gen) (fun result => ∃ w, result = .ok w) := by
  refine Succeeds.call fun enough success => ?_
  split
  · next failed => exact (memory_suffices success failed).elim
  refine Succeeds.call fun reply success => ?_
  split
  · exact (not_failed success).elim
  refine Succeeds.call fun reply success => ?_
  split
  · exact (not_failed success).elim
  refine Succeeds.call fun reply success => ?_
  split
  · exact (not_failed success).elim
  refine Succeeds.call fun reply success => ?_
  split
  · exact (not_failed success).elim
  refine (Succeeds.any _).bind fun _ _ => ?_
  refine Succeeds.call fun reply success => ?_
  split
  · exact (not_failed success).elim
  refine Succeeds.call fun _ _ => ?_
  refine (Succeeds.any _).bind fun _ _ => ?_
  iterate 4 refine (Succeeds.any _).bind fun _ _ => ?_
  exact ⟨_, rfl⟩

theorem openChecked_succeeds (build : Build) (o : Options) (lockFd : Fd) (fd : FileId) (h : Header)
    (valid : Bool) (mapSize : Nat) (latest gen : UInt32) :
    Succeeds (openChecked build o lockFd fd h valid mapSize latest gen)
      (fun result => result ≠ .error .sys) := by
  have unmaps (old : Option FileId) (result : Except Code Writer) (fine : result ≠ .error .sys) :
      Succeeds (do
        if old.isSome then
          call (.munmap fd)
        return result) (fun result => result ≠ .error .sys) := by
    split
    · exact Succeeds.call fun _ _ => fine
    · exact fine
  have creates (old : Option FileId) : Succeeds (do
      let result ← createFile build o lockFd old gen
      if old.isSome then
        call (.munmap fd)
      return result) (fun result => result ≠ .error .sys) := by
    refine (createFile_succeeds _ _ _ _ _).bind fun result created => ?_
    obtain ⟨w, rfl⟩ := created
    exact unmaps old (.ok w) (by simp)
  unfold openChecked
  dsimp only
  split
  · split
    · exact creates _
    · exact unmaps _ _ (by simp)
  refine Succeeds.call fun state _ => ?_
  split
  · exact creates _
  split
  · split
    · exact creates _
    · exact unmaps _ _ (by simp)
  split
  · exact creates _
  · exact Succeeds.done (by simp)

theorem openMapped_succeeds (build : Build) (o : Options) (lockFd : Fd) (fd : FileId) (h : Header)
    (valid : Bool) (mapSize : Nat) :
    Succeeds (openMapped build o lockFd fd h valid mapSize)
      (fun result => result ≠ .error .sys) := by
  have checks (latest : UInt32) (valid : Bool) : Succeeds (if valid then do
        let gen ← carriedGeneration fd h.slotStride latest
        openChecked build o lockFd fd h valid mapSize latest gen
      else do
        let gen ← randomGeneration
        openChecked build o lockFd fd h valid mapSize latest gen)
      (fun result => result ≠ .error .sys) := by
    split
    · exact (Succeeds.any _).bind fun _ _ => openChecked_succeeds _ _ _ _ _ _ _ _ _
    · exact (Succeeds.any _).bind fun _ _ => openChecked_succeeds _ _ _ _ _ _ _ _ _
  unfold openMapped
  dsimp only
  split
  · exact Succeeds.call fun latest _ => checks _ _
  · exact checks _ _

theorem mapData_succeeds (build : Build) (o : Options) (lockFd : Fd) (fd : FileId) (h : Header)
    (valid : Bool) (mapSize : Nat) :
    Succeeds (mapData build o lockFd fd h valid mapSize) (fun result => result ≠ .error .sys) := by
  unfold mapData
  split
  · refine Succeeds.call fun mapped success => ?_
    split
    · exact (not_failed success).elim
    · exact Succeeds.call fun _ _ => openMapped_succeeds _ _ _ _ _ _ _
  · exact Succeeds.call fun _ _ => openMapped_succeeds _ _ _ _ _ _ _

theorem openData_succeeds (build : Build) (o : Options) (lockFd : Fd) :
    Succeeds (openData build o lockFd) (fun result => result ≠ .error .sys) := by
  refine Succeeds.call fun reply success => ?_
  split
  · refine (Succeeds.any _).bind fun gen _ => ?_
    refine (createFile_succeeds _ _ _ _ _).mono fun result created => ?_
    obtain ⟨w, rfl⟩ := created
    simp
  · next missing => exact (missing (only_answer success)).elim
  refine (readHeader_succeeds _).bind fun found fine => ?_
  dsimp only
  rw [if_neg fine]
  exact mapData_succeeds _ _ _ _ _ _ _

theorem psmsgrStateWriterOpen_succeeds (build : Build) (environment : Option (List Char))
    (turns : Nat) (name : Option (List Char)) (opt : Option Options) :
    Succeeds (psmsgrStateWriterOpen build environment turns name opt)
      (fun result => result ≠ .error .sys) := by
  unfold psmsgrStateWriterOpen
  split
  · next invalid =>
      cases loadOptions_inval invalid
      exact Succeeds.done (by simp)
  split
  · exact Succeeds.done (by simp)
  refine (pathsInit_succeeds _ _ _).bind fun paths found => ?_
  obtain ⟨paths, rfl⟩ := found
  refine Succeeds.call fun enough success => ?_
  split
  · next failed => exact (memory_suffices success failed).elim
  refine (lockChannel_succeeds _ _).bind fun locked fine => ?_
  split
  · exact fun same => error_ne_sys fine (Except.error.inj same)
  refine (Succeeds.any _).bind fun _ _ => ?_
  refine (openData_succeeds _ _ _).bind fun opened fine => ?_
  split
  · exact Succeeds.call fun _ _ => fine
  refine Succeeds.call fun pid _ => ?_
  exact (Succeeds.any _).bind fun _ _ => Succeeds.done (by simp)

theorem unlinkMapped_succeeds (fd : FileId) (mapped : Except Errno Unit) :
    Succeeds (unlinkMapped fd mapped) (fun code => code ≠ .sys) := by
  refine Succeeds.call fun _ _ => ?_
  refine Succeeds.call fun reply success => ?_
  have fine : unlinkCode reply ≠ .sys := by
    unfold unlinkCode
    split
    · simp
    · simp
    · next missing => exact (missing (only_answer success)).elim
  dsimp only
  split
  · split
    · refine (Succeeds.any _).bind fun _ _ => ?_
      exact Succeeds.call fun _ _ => fine
    · exact Succeeds.call fun _ _ => fine
  · exact fine

theorem unlinkDataFile_succeeds : Succeeds unlinkDataFile (fun code => code ≠ .sys) := by
  refine Succeeds.call fun reply success => ?_
  split
  · refine (Succeeds.any _).bind fun found _ => ?_
    dsimp only
    split
    · exact Succeeds.call fun mapped _ => unlinkMapped_succeeds _ _
    · exact unlinkMapped_succeeds _ _
  · exact Succeeds.done (by simp)
  · next missing => exact (missing (only_answer success)).elim

theorem psmsgrStateUnlink_succeeds (environment : Option (List Char)) (turns : Nat)
    (name dir : Option (List Char)) :
    Succeeds (psmsgrStateUnlink environment turns name dir) (fun code => code ≠ .sys) := by
  unfold psmsgrStateUnlink
  split
  · exact Succeeds.done (by simp)
  refine (pathsInit_succeeds _ _ _).bind fun paths found => ?_
  obtain ⟨paths, rfl⟩ := found
  refine (lockChannel_succeeds _ _).bind fun locked fine => ?_
  split
  · exact error_ne_sys fine
  refine (Succeeds.any _).bind fun _ _ => ?_
  refine unlinkDataFile_succeeds.bind fun code fine => ?_
  dsimp only
  rw [if_pos fine]
  refine Succeeds.call fun reply success => ?_
  split
  · exact Succeeds.call fun _ _ => fine
  · exact Succeeds.call fun _ _ => fine
  · next missing => exact (missing (only_answer success)).elim

theorem code_never_sys {α : Type} {code : Code} {rest : α} (fine : code ≠ .sys) :
    (pure (code, rest) : Prog (Code × α)).Always (fun _ => True) (fun result => result.1 ≠ .sys) :=
  fine

theorem psmsgrStatePublish_never_sys (w : Writer) (data : Option (List UInt8)) (len : UInt32) :
    (psmsgrStatePublish w data len).Always (fun _ => True) (fun result => result.1 ≠ .sys) := by
  unfold psmsgrStatePublish
  split
  · exact code_never_sys (by simp)
  split
  · exact code_never_sys (by simp)
  split
  · exact code_never_sys (by simp)
  refine (Program.Always.intro _).bind fun w _ => ?_
  refine (Program.Always.intro _).bind fun _ _ => ?_
  exact (Program.Always.intro _).bind fun _ _ => code_never_sys (by simp)

theorem psmsgrStateBegin_never_sys (w : Writer) :
    (psmsgrStateBegin w).Always (fun _ => True) (fun result => result.1 ≠ .sys) := by
  unfold psmsgrStateBegin
  split
  · exact code_never_sys (by simp)
  · exact (Program.Always.intro _).bind fun _ _ => code_never_sys (by simp)

theorem psmsgrStateCommit_never_sys (w : Writer) (len : UInt32) :
    (psmsgrStateCommit w len).Always (fun _ => True) (fun result => result.1 ≠ .sys) := by
  unfold psmsgrStateCommit
  split
  · exact code_never_sys (by simp)
  split
  · exact code_never_sys (by simp)
  · exact (Program.Always.intro _).bind fun _ _ => code_never_sys (by simp)

theorem psmsgrStateAbort_never_sys (w : Writer) :
    (psmsgrStateAbort w).Always (fun _ => True) (fun result => result.1 ≠ .sys) := by
  unfold psmsgrStateAbort
  split
  · exact code_never_sys (by simp)
  · exact code_never_sys (by simp)

/-- The code a call returns to its caller. -/
def Result.reported : Result → Code
  | .code rc | .published rc _ | .described rc _ => rc
  | .read reply => reply.code
  | .alive (.ok _) => .ok
  | .alive (.error rc) => rc

theorem writer_never_sys {w : Writer} {request : Request}
    (accepted : (Handle.writer w).accepts request) :
    ((Handle.writer w).program request).Always (fun _ => True)
      (fun result => result.2.reported ≠ .sys) := by
  cases request with
  | publish data len => exact (psmsgrStatePublish_never_sys w data len).bind fun _ fine => fine
  | begin => exact (psmsgrStateBegin_never_sys w).bind fun _ fine => fine
  | storeBuffer index byte => exact (Program.Always.intro _).bind fun _ _ => ok_ne_sys
  | commit len => exact (psmsgrStateCommit_never_sys w len).bind fun _ fine => fine
  | abort => exact (psmsgrStateAbort_never_sys w).bind fun _ fine => fine
  | writerClose => exact (Program.Always.intro _).bind fun _ _ => ok_ne_sys
  | _ => exact accepted.elim

theorem program_succeeds {handle : Handle} {request : Request} (accepted : handle.accepts request) :
    Succeeds (handle.program request) (fun result => result.2.reported ≠ .sys) := by
  cases handle with
  | fresh =>
      cases request with
      | writerOpen build environment turns name opt =>
          refine (psmsgrStateWriterOpen_succeeds build environment turns name opt).bind
            fun opened fine => ?_
          cases opened with
          | ok w => exact ok_ne_sys
          | error code => exact error_ne_sys fine
      | readerOpen environment name dir =>
          refine (psmsgrStateReaderOpen_succeeds environment name dir).bind fun opened fine => ?_
          cases opened with
          | ok r => exact ok_ne_sys
          | error code => exact error_ne_sys fine
      | unlink environment turns name dir =>
          exact (psmsgrStateUnlink_succeeds environment turns name dir).bind fun _ fine => fine
      | _ => exact accepted.elim
  | closed => cases request <;> exact accepted.elim
  | writer w => exact (writer_never_sys accepted).confined
  | reader r =>
      cases request with
      | read buffer size =>
          exact (psmsgrStateRead_succeeds r buffer size).bind fun _ fine => fine
      | peek => exact (psmsgrStatePeek_succeeds r).bind fun _ fine => fine
      | describe => exact (psmsgrStateDescribe_succeeds r).bind fun _ fine => fine
      | wait turns lastGeneration timeoutMs =>
          exact (psmsgrStateWait_succeeds turns r lastGeneration timeoutMs).bind fun _ fine => fine
      | writerAlive =>
          refine (psmsgrStateWriterAlive_succeeds r).bind fun found fine => ?_
          obtain ⟨answer, still⟩ := found
          cases answer with
          | ok alive => exact ok_ne_sys
          | error code => exact error_ne_sys fine
      | readerClose => exact (Succeeds.any _).bind fun _ _ => ok_ne_sys
      | _ => exact accepted.elim

/-- A call that reports `SYS` has made a system call that failed, and an open writer never reports
it, neither when it publishes nor when it closes. -/
theorem sys_means_failure (execution : Execution) :
    (∀ {thread handle request returned first last},
      execution.Called thread handle request returned first last →
      returned.2.reported = .sys →
      ∃ index made reply, first ≤ index ∧ index < last ∧
        execution.Makes thread index made reply ∧ made.Failure reply) ∧
    ∀ {thread w request returned first last},
      execution.Called thread (.writer w) request returned first last →
      returned.2.reported ≠ .sys := by
  refine ⟨fun called reports => ?_, fun called => ?_⟩
  · rcases called.confined (program_succeeds called.accepted) with fine | denied
    · exact (fine reports).elim
    · obtain ⟨index, made, reply, lower, upper, makes, failed⟩ := denied
      exact ⟨index, made, reply, lower, upper, makes, not_not.mp failed⟩
  · have never : ((Handle.writer _).program _).Confined (fun _ => True) (fun _ _ => True) _ :=
      (writer_never_sys called.accepted).confined
    rcases called.confined never with fine | denied
    · exact fine
    · obtain ⟨index, made, reply, lower, upper, makes, failed⟩ := denied
      exact (failed trivial).elim

end PsMsgr
