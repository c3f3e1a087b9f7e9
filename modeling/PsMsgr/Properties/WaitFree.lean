import PsMsgr.Channel.System
import PsMsgr.Effect.Counting

namespace PsMsgr

open Effect

theorem loadBytes_within (file : FileId) (offset count : Nat) :
    (loadBytes file offset count).Within count := by
  induction count generalizing offset with
  | zero => trivial
  | succ count ih =>
      refine Program.Within.call fun byte => ?_
      exact (ih (offset + 1)).final fun bytes => ⟨_, rfl⟩

theorem storeBytes_within (file : FileId) (offset : Nat) (bytes : List UInt8) :
    (storeBytes file offset bytes).Within bytes.length := by
  induction bytes generalizing offset with
  | nil => trivial
  | cons byte bytes ih => exact Program.Within.call fun _ => ih (offset + 1)

theorem readHeader_within (fd : FileId) : (readHeader fd).Within 2 := by
  refine Program.Within.call fun reply => ?_
  split
  · trivial
  split
  · trivial
  refine Program.Within.call fun reply => ?_
  split
  · trivial
  split
  · trivial
  · trivial

theorem attach_within (r : Reader) : (attach r).Within 5 := by
  refine Program.Within.call fun reply => ?_
  split
  · trivial
  · trivial
  refine (readHeader_within _).bind fun found => (?_ : Program.Within _ 2)
  dsimp only
  split
  · exact Program.Within.call fun _ => trivial
  split
  · exact Program.Within.call fun _ => trivial
  refine Program.Within.call fun reply => ?_
  split
  · exact Program.Within.call fun _ => trivial
  · exact Program.Within.call fun _ => trivial

theorem attachLoop_within (r : Reader) (tries : Nat) : (attachLoop r tries).Within (7 * tries) := by
  induction tries generalizing r with
  | zero => trivial
  | succ tries ih =>
      have turn : (attachLoop r (tries + 1)).Within (5 + (7 * tries + 2)) := by
        refine (attach_within r).bind fun found => ?_
        dsimp only
        split
        · refine Program.Within.call fun state => ?_
          dsimp only
          split
          · trivial
          · exact Program.Within.call fun _ => ih _
        · trivial
      exact turn.mono (by omega)

/-- What `reader_sync` takes at most. -/
def syncCalls : Nat := 7 * attachRetries + 2

theorem readerSync_within (r : Reader) : (readerSync r).Within syncCalls := by
  unfold readerSync
  split
  · refine Program.Within.call fun state => ?_
    dsimp only
    split
    · trivial
    · exact Program.Within.call fun _ => attachLoop_within _ _
  · exact (attachLoop_within r attachRetries).mono (Nat.le_add_right _ 2)

theorem identityCheck_within (r : Reader) : (identityCheck r).Within 2 := by
  unfold identityCheck
  split
  · trivial
  refine Program.Within.call fun reply => ?_
  split
  · split
    · trivial
    · exact Program.Within.call fun _ => trivial
  · exact Program.Within.call fun _ => trivial
  · trivial

theorem recheck_within {r : Reader} {map : FileId} {s : Nat} {q1 : UInt32} {m : SlotCopy}
    {buffer : List UInt8} {size : UInt32} {copy : Bool} :
    (recheck r map s q1 m buffer size copy).Within 1 := by
  refine Program.Within.call fun q2 => ?_
  split
  · split
    · trivial
    · trivial
  · trivial

theorem readAttempt_within (r : Reader) (map : FileId) (buffer : List UInt8) (size : UInt32)
    (copy : Bool) :
    (readAttempt r map buffer size copy).Within (Offset.reserved + (size.toNat + 1) + 2) := by
  refine Program.Within.call fun latest => ?_
  split
  · trivial
  split
  · trivial
  refine Program.Within.call fun q1 => ?_
  split
  · refine (loadBytes_within _ _ _).bind fun bytes => ?_
    dsimp only
    split
    · next fits =>
        have small : (SlotCopy.ofBytes bytes).length.toNat ≤ size.toNat := by
          simp only [Bool.and_eq_true, decide_eq_true_eq] at fits
          exact UInt32.le_iff_toNat_le.mp fits.1.2
        exact ((loadBytes_within _ _ _).mono small).bind fun payload => recheck_within
    · exact recheck_within.mono (Nat.le_add_left 1 _)
  · trivial

/-- What a turn of `read_latest` takes at most, for a buffer of this size. -/
def turnCalls (size : UInt32) : Nat := Offset.reserved + (size.toNat + 1) + 3

theorem readLoop_within (r : Reader) (map : FileId) (size : UInt32) (copy : Bool) (tries : Nat)
    (buffer : List UInt8) :
    (readLoop r map size copy tries buffer).Within (turnCalls size * tries) := by
  induction tries generalizing buffer with
  | zero => trivial
  | succ tries ih =>
      have turn : (readLoop r map size copy (tries + 1) buffer).Within
          (Offset.reserved + (size.toNat + 1) + 2 + (turnCalls size * tries + 1)) := by
        refine (readAttempt_within r map buffer size copy).bind fun attempt => ?_
        split
        · trivial
        · dsimp only
          split
          · exact Program.Within.call fun _ => ih _
          · exact (ih _).mono (Nat.le_add_right _ 1)
      refine turn.mono ?_
      rw [Nat.mul_succ]
      unfold turnCalls
      omega

/-- What a read into a buffer of this size takes at most. -/
def readCalls (size : UInt32) : Nat := syncCalls + turnCalls size * readRetries

theorem psmsgrStateRead_within (r : Reader) (buffer : Option (List UInt8)) (size : UInt32) :
    (psmsgrStateRead r buffer size).Within (readCalls size) := by
  unfold psmsgrStateRead
  split
  · trivial
  refine (readerSync_within r).bind fun synced => ?_
  dsimp only
  split
  · refine (readLoop_within _ _ _ _ _ _).final fun found => ?_
    split
    · exact ⟨_, rfl⟩
    · exact ⟨_, rfl⟩
  · trivial

theorem psmsgrStatePeek_within (r : Reader) : (psmsgrStatePeek r).Within (readCalls 0) := by
  refine (readerSync_within r).bind fun synced => ?_
  dsimp only
  split
  · refine (readLoop_within _ _ _ _ _ _).final fun found => ?_
    split
    · exact ⟨_, rfl⟩
    · exact ⟨_, rfl⟩
  · trivial

theorem psmsgrStateDescribe_within (r : Reader) : (psmsgrStateDescribe r).Within syncCalls := by
  refine (readerSync_within r).final fun synced => ?_
  dsimp only
  split
  · exact ⟨_, rfl⟩
  · exact ⟨_, rfl⟩

theorem psmsgrStateWriterAlive_within (r : Reader) :
    (psmsgrStateWriterAlive r).Within (2 + (syncCalls + 3)) := by
  refine (identityCheck_within r).bind fun checked => ?_
  dsimp only
  split
  · trivial
  refine (readerSync_within _).bind fun synced => ?_
  refine Program.Within.call fun reply => ?_
  split
  · trivial
  · trivial
  refine Program.Within.call fun conflict => Program.Within.call fun _ => ?_
  split
  · trivial
  · trivial

theorem psmsgrStateReaderClose_within (r : Reader) : (psmsgrStateReaderClose r).Within 1 := by
  unfold psmsgrStateReaderClose
  split
  · exact Program.Within.call fun _ => trivial
  · trivial

theorem beginSlot_within (w : Writer) : (beginSlot w).Within 2 :=
  Program.Within.call fun _ => Program.Within.call fun _ => trivial

/-- What a commit takes: the fields of the slot, the clock, `seq`, `latest` and telling the waiting
readers. -/
theorem commitSlot_within (w : Writer) (len : UInt32) :
    (commitSlot w len).Within (4 + (4 + (8 + 4 + 1))) := by
  unfold commitSlot
  refine (storeBytes_within _ _ _).bind fun _ => ?_
  refine (storeBytes_within _ _ _).bind fun _ => ?_
  refine Program.Within.call fun timestamp => ?_
  refine (storeBytes_within _ _ _).bind fun _ => ?_
  refine Program.Within.call fun _ => Program.Within.call fun _ => ?_
  dsimp only
  split
  · exact Program.Within.call fun _ => Program.Within.call fun _ => trivial
  · trivial

theorem psmsgrStatePublish_within (w : Writer) (data : Option (List UInt8)) (len : UInt32) :
    (psmsgrStatePublish w data len).Within (2 + (len.toNat + 21)) := by
  unfold psmsgrStatePublish
  split
  · trivial
  split
  · trivial
  split
  · trivial
  refine (beginSlot_within w).bind fun begun => ?_
  have copied := (storeBytes_within begun.file (writerSlot begun begun.openSlot + Offset.payload)
    ((data.getD []).take len.toNat)).mono (List.length_take_le _ _)
  exact copied.bind fun _ => (commitSlot_within begun len).final fun _ => ⟨_, rfl⟩

theorem psmsgrStateBegin_within (w : Writer) : (psmsgrStateBegin w).Within 2 := by
  unfold psmsgrStateBegin
  split
  · trivial
  · exact (beginSlot_within w).final fun _ => ⟨_, rfl⟩

theorem psmsgrStateCommit_within (w : Writer) (len : UInt32) :
    (psmsgrStateCommit w len).Within 21 := by
  unfold psmsgrStateCommit
  split
  · trivial
  split
  · trivial
  · exact (commitSlot_within w len).final fun _ => ⟨_, rfl⟩

theorem psmsgrStateAbort_within (w : Writer) : (psmsgrStateAbort w).Within 0 := by
  unfold psmsgrStateAbort
  split
  · trivial
  · trivial

/-- What a request takes at most.  There is no such bound for a wait, nor for the calls that take
the lock and look through the directory. -/
def Request.limit : Request → Option Nat
  | .read _ size => some (readCalls size)
  | .peek => some (readCalls 0)
  | .describe => some syncCalls
  | .writerAlive => some (2 + (syncCalls + 3))
  | .readerClose => some 1
  | .publish _ len => some (2 + (len.toNat + 21))
  | .begin | .writerClose => some 2
  | .storeBuffer _ _ => some 1
  | .commit _ => some 21
  | .abort => some 0
  | .writerOpen _ _ _ _ _ | .readerOpen _ _ _ | .wait _ _ _ | .unlink _ _ _ _ => none

theorem program_within {handle : Handle} {request : Request} {limit : Nat}
    (limited : request.limit = some limit) (accepted : handle.accepts request) :
    (handle.program request).Within limit := by
  cases handle with
  | fresh =>
      cases request with
      | writerOpen | readerOpen | unlink => cases limited
      | _ => exact accepted.elim
  | closed => cases request <;> exact accepted.elim
  | reader r =>
      cases request with
      | read buffer size =>
          cases limited
          exact (psmsgrStateRead_within r buffer size).final fun _ => ⟨_, rfl⟩
      | peek =>
          cases limited
          exact (psmsgrStatePeek_within r).final fun _ => ⟨_, rfl⟩
      | describe =>
          cases limited
          exact (psmsgrStateDescribe_within r).final fun _ => ⟨_, rfl⟩
      | writerAlive =>
          cases limited
          exact (psmsgrStateWriterAlive_within r).final fun _ => ⟨_, rfl⟩
      | readerClose =>
          cases limited
          exact (psmsgrStateReaderClose_within r).final fun _ => ⟨_, rfl⟩
      | wait => cases limited
      | _ => exact accepted.elim
  | writer w =>
      cases request with
      | publish data len =>
          cases limited
          exact (psmsgrStatePublish_within w data len).final fun _ => ⟨_, rfl⟩
      | begin =>
          cases limited
          exact (psmsgrStateBegin_within w).final fun _ => ⟨_, rfl⟩
      | storeBuffer index byte =>
          cases limited
          exact (Program.Within.perform _).final fun _ => ⟨_, rfl⟩
      | commit len =>
          cases limited
          exact (psmsgrStateCommit_within w len).final fun _ => ⟨_, rfl⟩
      | abort =>
          cases limited
          exact (psmsgrStateAbort_within w).final fun _ => ⟨_, rfl⟩
      | writerClose =>
          cases limited
          exact Program.Within.call fun _ => Program.Within.call fun _ => trivial
      | _ => exact accepted.elim

/-- Reading, describing a channel, asking for its writer and publishing are wait-free: such a call
has returned when its process has taken as many steps as the request's bound says, which depends on
nothing but the sizes the caller gave, whatever the other processes do and wherever they stop. -/
theorem calls_wait_free (execution : Execution) :
    (∀ {thread handle request limit first last}, request.limit = some limit →
      execution.Serves thread handle request first last →
      execution.steps thread last ≤ execution.steps thread first + limit) ∧
    ∀ {thread handle request limit first last}, request.limit = some limit →
      execution.Serves thread handle request first last →
      execution.steps thread last = execution.steps thread first + limit →
      ∃ returned, execution.Called thread handle request returned first last :=
  ⟨fun limited serves => (serves.bounded (program_within limited serves.accepted)).1,
    fun limited serves => (serves.bounded (program_within limited serves.accepted)).2⟩

end PsMsgr
