import PsMsgr.Host.Alone
import PsMsgr.State.Reader
import PsMsgr.Channel.Image

namespace PsMsgr

open Effect Data

variable {disk : Disk} {file : FileId}

theorem eval_call_bind {α : Type} {request : Sys} {reply : request.Reply}
    (rest : request.Reply → Prog α) (answered : disk.answer request = some reply) :
    (call request >>= rest).eval disk.answer = (rest reply).eval disk.answer := by
  rw [call, Program.eval_bind, Program.eval_perform, answered, Option.bind_some]

@[simp] theorem eval_loadBytes (offset count : Nat) :
    (loadBytes file offset count).eval disk.answer =
      some ((disk.memory file).read offset count) := by
  induction count generalizing offset with
  | zero => rfl
  | succ count ih =>
      rw [loadBytes, eval_call_bind _ rfl, Program.eval_bind, ih]
      rfl

theorem SlotCopy.ofBytes_read (memory : Memory) (s : Nat) :
    SlotCopy.ofBytes (memory.read s Offset.reserved) =
      { generation := memory.word32 (s + Offset.generation)
        timestampNs := memory.word64 (s + Offset.timestampNs)
        length := memory.word32 (s + Offset.length) } := by
  simp only [SlotCopy.ofBytes, Memory.word32, Memory.word64]
  rw [Memory.read_copy (by decide), Memory.read_copy (by decide), Memory.read_copy (by decide)]

/-- The outcome of an attempt to read the slot `latest` names. -/
def stillAttempt (memory : Memory) (r : Reader) (buffer : List UInt8) (size : UInt32)
    (copy : Bool) : Attempt :=
  let latest := memory.word32 Offset.latest
  let s := slotOffset r.slotStride (psmiLatestSlot latest)
  let seq := memory.word32 s
  let length := memory.word32 (s + Offset.length)
  if latest = psmiLatestNone then .result .nodata none buffer
  else if !psmiLatestValid latest r.slotCount then .result .format none buffer
  else if (seq &&& 1) = 0 ∧ psmiLatest (psmiLatestSlot latest) seq = latest then
    if length > r.capacity then .result .format none buffer
    else .result (if !copy || length ≤ size then .ok else .toosmall)
      (some ⟨memory.word32 (s + Offset.generation), length, memory.word64 (s + Offset.timestampNs), 0⟩)
      (if copy && length ≤ size then
        memory.read (s + Offset.payload) length.toNat ++ buffer.drop length.toNat
      else buffer)
  else .again buffer

theorem eval_recheck {r : Reader} {s : Nat} {m : SlotCopy} {buffer : List UInt8} {size : UInt32}
    {copy : Bool} :
    (recheck r file s ((disk.memory file).word32 s) m buffer size copy).eval disk.answer =
      some (if m.length > r.capacity then .result .format none buffer
        else .result (if !copy || m.length ≤ size then .ok else .toosmall)
          (some ⟨m.generation, m.length, m.timestampNs, 0⟩) buffer) := by
  rw [recheck, eval_call_bind _ rfl, if_pos rfl]
  split
  · rfl
  · rfl

theorem eval_readAttempt (r : Reader) (buffer : List UInt8) (size : UInt32) (copy : Bool) :
    (readAttempt r file buffer size copy).eval disk.answer =
      some (stillAttempt (disk.memory file) r buffer size copy) := by
  unfold readAttempt stillAttempt
  rw [eval_call_bind _ rfl]
  dsimp only
  split
  · rfl
  split
  · rfl
  rw [eval_call_bind _ rfl]
  split
  · rw [Program.eval_bind, eval_loadBytes, Option.bind_some, SlotCopy.ofBytes_read]
    dsimp only
    split
    · next fits =>
        rw [Program.eval_bind, eval_loadBytes, Option.bind_some, eval_recheck]
        simp only [Bool.and_eq_true, decide_eq_true_eq] at fits
        obtain ⟨⟨copied, small⟩, inside⟩ := fits
        have below : ¬ _ > r.capacity := UInt32.not_lt.mpr inside
        rw [if_neg below, if_neg below, Memory.read_length, copied]
        simp only [small, decide_true, Bool.and_true, if_true]
    · next misfit =>
        rw [eval_recheck]
        split
        · rfl
        · next inside =>
            rw [decide_eq_true (UInt32.not_lt.mp inside), Bool.and_true] at misfit
            rw [if_neg misfit]
  · rfl

/-- What a reader makes of the published slot: its value, at the first attempt. -/
def shownAttempt (publish : Publish) (buffer : List UInt8) (size : UInt32) (copy : Bool) : Attempt :=
  .result (if !copy || publish.length ≤ size then .ok else .toosmall)
    (some ⟨publish.generation, publish.length, publish.timestampNs, 0⟩)
    (if copy && publish.length ≤ size then publish.payload ++ buffer.drop publish.length.toNat
      else buffer)

/-- `latest` names the slot, which is complete and holds the publish. -/
structure Current (memory : Memory) (stride i : UInt32) (publish : Publish) : Prop where
  even : memory.word32 (slotOffset stride i) &&& 1 = 0
  named : memory.word32 Offset.latest = psmiLatest i (memory.word32 (slotOffset stride i))
  holds : Holds memory (slotOffset stride i) publish

theorem stillAttempt_current {memory : Memory} {r : Reader} {i : UInt32} {publish : Publish}
    (current : Current memory r.slotStride i publish) (bound : i.toNat < 16)
    (inside : i < r.slotCount) (fits : publish.length ≤ r.capacity) (buffer : List UInt8)
    (size : UInt32) (copy : Bool) :
    stillAttempt memory r buffer size copy = shownAttempt publish buffer size copy := by
  have accepted : (!psmiLatestValid (psmiLatest i (memory.word32 (slotOffset r.slotStride i)))
      r.slotCount) = false := by
    rw [psmiLatestValid_psmiLatest _ bound (UInt32.lt_iff_toNat_lt.mp inside)]
    rfl
  unfold stillAttempt shownAttempt
  dsimp only
  rw [current.named, accepted, psmiLatestSlot_psmiLatest _ bound,
    if_neg (psmiLatest_ne_none _ bound), if_neg Bool.false_ne_true, if_pos ⟨current.even, rfl⟩,
    current.holds.length, if_neg (UInt32.not_lt.mpr fits), current.holds.generation,
    current.holds.timestampNs, current.holds.payload]

/-- What `read_latest` returns: the outcome of an attempt, or `BUSY` if no attempt has one. -/
def stillLatest (memory : Memory) (r : Reader) (buffer : List UInt8) (size : UInt32)
    (copy : Bool) : Code × Option Info × List UInt8 :=
  match stillAttempt memory r buffer size copy with
  | .result code info bytes => (code, info, bytes)
  | .again bytes => (.busy, none, bytes)

theorem stillAttempt_again {memory : Memory} {r : Reader} {buffer bytes : List UInt8} {size : UInt32}
    {copy : Bool} (again : stillAttempt memory r buffer size copy = .again bytes) :
    bytes = buffer := by
  unfold stillAttempt at again
  dsimp only at again
  split at again
  · exact nomatch again
  split at again
  · exact nomatch again
  split at again
  · split at again
    · exact nomatch again
    · exact nomatch again
  · exact (Attempt.again.inj again).symm

theorem eval_readLoop (r : Reader) (buffer : List UInt8) (size : UInt32) (copy : Bool)
    (tries : Nat) :
    (readLoop r file size copy (tries + 1) buffer).eval disk.answer =
      some (stillLatest (disk.memory file) r buffer size copy) := by
  induction tries with
  | zero =>
      rw [readLoop, Program.eval_bind, eval_readAttempt, Option.bind_some, stillLatest]
      cases turn : stillAttempt (disk.memory file) r buffer size copy with
      | result code info bytes => rfl
      | again bytes => rfl
  | succ tries ih =>
      rw [readLoop, Program.eval_bind, eval_readAttempt, Option.bind_some]
      cases turn : stillAttempt (disk.memory file) r buffer size copy with
      | result code info bytes =>
          rw [stillLatest, turn]
          rfl
      | again bytes =>
          obtain rfl := stillAttempt_again turn
          dsimp only
          split
          · rw [eval_call_bind _ rfl]
            exact ih
          · exact ih

theorem eval_readLatest (r : Reader) (buffer : List UInt8) (size : UInt32) (copy : Bool) :
    (readLatest r file buffer size copy).eval disk.answer =
      some (stillLatest (disk.memory file) r buffer size copy) :=
  eval_readLoop r buffer size copy 63

theorem eval_readHeader :
    (readHeader file).eval disk.answer =
      some (if (disk.files file).regular = true ∧ psmiHeaderSize.toNat ≤ (disk.files file).size then
          (.ok, (disk.files file).size, Header.ofMemory (disk.memory file))
        else (.format, 0, default)) := by
  rw [readHeader, eval_call_bind _ rfl]
  dsimp only
  by_cases complete :
      (disk.files file).regular = true ∧ psmiHeaderSize.toNat ≤ (disk.files file).size
  · have enough : ¬ (!(disk.files file).regular ||
        decide ((disk.files file).size < psmiHeaderSize.toNat)) = true := by
      simp [complete.1, complete.2]
    have whole : min psmiHeaderSize.toNat ((disk.files file).size - 0) = 128 :=
      Nat.min_eq_left complete.2
    rw [if_neg enough, if_pos complete, eval_call_bind _ rfl]
    dsimp only
    have length : ((disk.memory file).read 0 128).length = psmiHeaderSize.toNat :=
      Memory.read_length
    rw [whole, if_pos length, Header.ofBytes_read]
    rfl
  · have short : (!(disk.files file).regular ||
        decide ((disk.files file).size < psmiHeaderSize.toNat)) = true := by
      by_cases regular : (disk.files file).regular = true
      · simpa [regular] using complete
      · simp [regular]
    rw [if_pos short, if_neg complete]
    rfl

theorem eval_retired :
    (retired file).eval disk.answer = some (decide (disk.Retired file)) := by
  rw [retired, eval_call_bind _ rfl]
  refine congrArg some ?_
  rw [Bool.eq_iff_iff, bne_iff_ne, decide_eq_true_iff]
  rfl

/-- The file is one readers attach to. -/
def Disk.Accepted (disk : Disk) (file : FileId) : Prop :=
  (disk.files file).regular = true ∧
    headerValid (Header.ofMemory (disk.memory file)) (disk.files file).size = true

instance (disk : Disk) (file : FileId) : Decidable (disk.Accepted file) :=
  inferInstanceAs (Decidable (_ ∧ _))

/-- The handle of a reader attached to a file. -/
def Reader.attachedTo (file : FileId) (h : Header) : Reader where
  file := some file
  mapSize := toSize (psmiFileSize h.slotCount h.slotStride).toNat
  slotCount := h.slotCount
  slotStride := h.slotStride
  capacity := h.capacity
  payloadType := h.payloadType
  configFlags := h.configFlags
  announce := true
  ino := file

theorem eval_attach (r : Reader) (named : disk.data = some file) :
    (attach r).eval disk.answer =
      some (if disk.Accepted file then
          (.ok, Reader.attachedTo file (Header.ofMemory (disk.memory file)))
        else (.format, r)) := by
  have opened : disk.answer .openData = some (.ok file) := by simp only [Disk.answer, named]
  rw [attach, eval_call_bind _ opened]
  dsimp only
  rw [Program.eval_bind, eval_readHeader, Option.bind_some]
  by_cases complete :
      (disk.files file).regular = true ∧ psmiHeaderSize.toNat ≤ (disk.files file).size
  · rw [if_pos complete]
    dsimp only
    by_cases valid : headerValid (Header.ofMemory (disk.memory file)) (disk.files file).size = true
    · have accepted : disk.Accepted file := ⟨complete.1, valid⟩
      rw [if_pos accepted, valid]
      rfl
    · have refused : ¬ disk.Accepted file := fun accepted => valid accepted.2
      rw [if_neg refused, Bool.eq_false_iff.mpr valid]
      rfl
  · have refused : ¬ disk.Accepted file :=
      fun accepted => complete ⟨accepted.1, headerValid_size accepted.2⟩
    rw [if_neg complete, if_neg refused]
    rfl

theorem eval_attach_none (r : Reader) (absent : disk.data = none) :
    (attach r).eval disk.answer = some (.nodata, r) := by
  have missing : disk.answer .openData = some (.error .enoent) := by
    simp only [Disk.answer, absent]
  rw [attach, eval_call_bind _ missing]
  rfl

theorem eval_attachLoop (r : Reader) (named : disk.data = some file)
    (active : ¬ disk.Retired file) (tries : Nat) :
    (attachLoop r (tries + 1)).eval disk.answer =
      some (if disk.Accepted file then
          (.ok, Reader.attachedTo file (Header.ofMemory (disk.memory file)))
        else (.format, r)) := by
  rw [attachLoop, Program.eval_bind, eval_attach r named, Option.bind_some]
  by_cases accepted : disk.Accepted file
  · rw [if_pos accepted]
    dsimp only [Reader.attachedTo]
    rw [Program.eval_bind, eval_retired, Option.bind_some, decide_eq_false active]
    rfl
  · rw [if_neg accepted]
    rfl

theorem eval_attachLoop_none (r : Reader) (absent : disk.data = none) (tries : Nat) :
    (attachLoop r (tries + 1)).eval disk.answer = some (.nodata, r) := by
  rw [attachLoop, Program.eval_bind, eval_attach_none r absent, Option.bind_some]
  rfl

theorem eval_readerSync_attached {r : Reader} (attached : r.file = some file)
    (active : ¬ disk.Retired file) : (readerSync r).eval disk.answer = some (.ok, r) := by
  rw [readerSync, attached]
  dsimp only
  rw [Program.eval_bind, eval_retired, Option.bind_some, decide_eq_false active]
  rfl

/-- A reader that is attached to no file, or to a retired one, attaches to the one at the
data path. -/
theorem eval_readerSync_stale {r : Reader}
    (stale : ∀ {file}, r.file = some file → disk.Retired file) :
    (readerSync r).eval disk.answer =
      (attachLoop { r with file := none } attachRetries).eval disk.answer := by
  rw [readerSync]
  cases attached : r.file with
  | none =>
      have same : { r with file := none } = r := by
        rw [← attached]
      rw [same]
  | some file =>
      dsimp only
      rw [Program.eval_bind, eval_retired, Option.bind_some, decide_eq_true (stale attached)]
      rfl

/-- The reply of a read or peek once the reader is attached. -/
def stillReply (memory : Memory) (r : Reader) (buffer : List UInt8) (size : UInt32)
    (copy : Bool) : ReadReply × Reader :=
  let (rc, info, bytes) := stillLatest memory r buffer size copy
  if rc = .ok || rc = .toosmall then (⟨rc, (announce r info).1, bytes⟩, (announce r info).2)
  else (⟨rc, info, bytes⟩, r)

variable {r synced : Reader}

theorem announce_reader (r : Reader) (info : Option Info) :
    ∃ flag, (announce r info).2 = { r with announce := flag } := by
  unfold announce
  split
  · exact ⟨_, rfl⟩
  · exact ⟨_, rfl⟩

theorem stillReply_reader (memory : Memory) (r : Reader) (buffer : List UInt8) (size : UInt32)
    (copy : Bool) :
    ∃ flag, (stillReply memory r buffer size copy).2 = { r with announce := flag } := by
  unfold stillReply
  dsimp only
  split
  · exact announce_reader r _
  · exact ⟨_, rfl⟩

theorem eval_psmsgrStateRead {buffer : Option (List UInt8)} {size : UInt32}
    (given : buffer = none → size = 0)
    (sync : (readerSync r).eval disk.answer = some (.ok, synced))
    (attached : synced.file = some file) :
    (psmsgrStateRead r buffer size).eval disk.answer =
      some (stillReply (disk.memory file) synced (buffer.getD []) size true) := by
  rw [psmsgrStateRead, if_neg (not_refused given), Program.eval_bind, sync, Option.bind_some]
  dsimp only
  rw [attached]
  dsimp only
  rw [Program.eval_bind, eval_readLatest, Option.bind_some, stillReply]
  dsimp only
  split
  · rfl
  · rfl

theorem eval_psmsgrStateRead_failed {buffer : Option (List UInt8)} {size : UInt32} {code : Code}
    (given : buffer = none → size = 0)
    (sync : (readerSync r).eval disk.answer = some (code, synced)) (failed : code ≠ .ok) :
    (psmsgrStateRead r buffer size).eval disk.answer =
      some (⟨code, none, buffer.getD []⟩, synced) := by
  rw [psmsgrStateRead, if_neg (not_refused given), Program.eval_bind, sync, Option.bind_some]
  dsimp only
  split
  · exact absurd rfl failed
  · rfl

theorem stillLatest_peek (memory : Memory) (buffer : List UInt8) (size : UInt32) :
    (stillLatest memory r buffer size false).1 ≠ .toosmall := by
  unfold stillLatest stillAttempt
  dsimp only
  split
  next code info bytes turn =>
    split at turn
    · cases turn
      exact nofun
    split at turn
    · cases turn
      exact nofun
    split at turn
    · split at turn
      · cases turn
        exact nofun
      · cases turn
        exact nofun
    · exact nomatch turn
  · exact nofun

theorem eval_psmsgrStatePeek (sync : (readerSync r).eval disk.answer = some (.ok, synced))
    (attached : synced.file = some file) :
    (psmsgrStatePeek r).eval disk.answer =
      some (stillReply (disk.memory file) synced [] 0 false) := by
  rw [psmsgrStatePeek, Program.eval_bind, sync, Option.bind_some]
  dsimp only
  rw [attached]
  dsimp only
  rw [Program.eval_bind, eval_readLatest, Option.bind_some, stillReply]
  have fits := @stillLatest_peek synced (disk.memory file) [] 0
  dsimp only
  split
  · next ok =>
      rw [if_pos (by rw [decide_eq_true ok]; rfl)]
      rfl
  · next failed =>
      rw [if_neg (by simp [failed, fits])]
      rfl

theorem eval_psmsgrStatePeek_failed {code : Code}
    (sync : (readerSync r).eval disk.answer = some (code, synced)) (failed : code ≠ .ok) :
    (psmsgrStatePeek r).eval disk.answer = some (⟨code, none, []⟩, synced) := by
  rw [psmsgrStatePeek, Program.eval_bind, sync, Option.bind_some]
  dsimp only
  split
  · exact absurd rfl failed
  · rfl

end PsMsgr
