import PsMsgr.Still.Reading
import PsMsgr.Tools.Dump

namespace PsMsgr

open Effect Data

/-! # One classification of data files

Readers and `psmsgr-dump` check a file in their own ways.  Here is what each byte string
should be taken for, in the terms of the format; everything else follows it.
-/

namespace Reference

/-- The bytes of a file as a memory. -/
def contents (bytes : List UInt8) : Memory := fun address => bytes.getD address 0

def magic (bytes : List UInt8) : Nat := ((contents bytes).word32 0).toNat
def versionMajor (bytes : List UInt8) : Nat := ((contents bytes).word16 4).toNat
def headerSize (bytes : List UInt8) : Nat := ((contents bytes).word32 8).toNat
def slotHeaderSize (bytes : List UInt8) : Nat := ((contents bytes).word32 12).toNat
def slotCount (bytes : List UInt8) : Nat := ((contents bytes).word32 16).toNat
def slotStride (bytes : List UInt8) : Nat := ((contents bytes).word32 20).toNat
def capacity (bytes : List UInt8) : Nat := ((contents bytes).word32 24).toNat
def latest (bytes : List UInt8) : Nat := ((contents bytes).word32 40).toNat

/-- Where the slot named by `latest` starts. -/
def slot (bytes : List UInt8) : Nat := 128 + latest bytes % 16 * slotStride bytes

def seq (bytes : List UInt8) : Nat := ((contents bytes).word32 (slot bytes)).toNat
def generation (bytes : List UInt8) : UInt32 := (contents bytes).word32 (slot bytes + 4)
def timestampNs (bytes : List UInt8) : UInt64 := (contents bytes).word64 (slot bytes + 8)
def length (bytes : List UInt8) : UInt32 := (contents bytes).word32 (slot bytes + 16)

def payload (bytes : List UInt8) : List UInt8 :=
  (bytes.drop (slot bytes + 32)).take (length bytes).toNat

/-- The checks of a reader's attach. -/
def WellFormed (bytes : List UInt8) : Prop :=
  128 ≤ bytes.length ∧ magic bytes = 0x534D5350 ∧ versionMajor bytes = 1 ∧
  headerSize bytes = 128 ∧ slotHeaderSize bytes = 32 ∧
  2 ≤ slotCount bytes ∧ slotCount bytes ≤ 16 ∧ capacity bytes ≤ 16 * 2 ^ 20 ∧
  slotStride bytes = (32 + capacity bytes + 63) / 64 * 64 ∧
  128 + slotCount bytes * slotStride bytes ≤ bytes.length

instance (bytes : List UInt8) : Decidable (WellFormed bytes) :=
  inferInstanceAs (Decidable (_ ∧ _))

/-- What a reader is to report for the file. -/
def classify (bytes : List UInt8) : Code :=
  if ¬ WellFormed bytes then .format
  else if latest bytes = 0xFFFFFFFF then .nodata
  else if 2 ^ 31 ≤ latest bytes ∨ slotCount bytes ≤ latest bytes % 16 then .format
  else if seq bytes % 2 = 1 ∨ seq bytes / 2 % 2 ^ 27 ≠ latest bytes / 16 % 2 ^ 27 then .busy
  else if capacity bytes < (length bytes).toNat then .format
  else .ok

end Reference

/-- The data path names a regular file with these bytes, which is not retired. -/
structure Disk.Shows (disk : Disk) (file : FileId) (bytes : List UInt8) : Prop where
  data : disk.data = some file
  files : disk.files file = ⟨true, bytes.length, Reference.contents bytes⟩
  active : ¬ disk.Retired file

section

variable {disk : Disk} {file : FileId} {bytes : List UInt8}

theorem Disk.Shows.memory (shows : disk.Shows file bytes) :
    disk.memory file = Reference.contents bytes := by
  rw [Disk.memory, shows.files]

theorem headerValid_iff_wellFormed :
    headerValid (Header.ofMemory (Reference.contents bytes)) bytes.length = true ↔
      Reference.WellFormed bytes := by
  have stride : ∀ {capacity : UInt32}, capacity.toNat ≤ 16 * 2 ^ 20 →
      (psmiSlotStride capacity).toNat = (32 + capacity.toNat + 63) / 64 * 64 := by
    intro capacity bounded
    rw [psmiSlotStride_toNat (UInt32.le_iff_toNat_le.mpr bounded)]
    congr 2
    omega
  rw [headerValid_iff, psmiFileSize_toNat]
  constructor
  · rintro ⟨magic, major, header, slotHeader, least, most, bounded, aligned, room⟩
    have small := UInt32.le_iff_toNat_le.mp bounded
    refine ⟨by omega, congrArg UInt32.toNat magic, congrArg UInt16.toNat major,
      congrArg UInt32.toNat header, congrArg UInt32.toNat slotHeader,
      UInt32.le_iff_toNat_le.mp least, UInt32.le_iff_toNat_le.mp most, small, ?_, room⟩
    exact (congrArg UInt32.toNat aligned).trans (stride small)
  · rintro ⟨-, magic, major, header, slotHeader, least, most, small, aligned, room⟩
    refine ⟨UInt32.toNat_inj.mp magic, UInt16.toNat_inj.mp major, UInt32.toNat_inj.mp header,
      UInt32.toNat_inj.mp slotHeader, UInt32.le_iff_toNat_le.mpr least,
      UInt32.le_iff_toNat_le.mpr most, UInt32.le_iff_toNat_le.mpr small, ?_, room⟩
    exact UInt32.toNat_inj.mp (aligned.trans (stride small).symm)

theorem Disk.Shows.accepted_iff (shows : disk.Shows file bytes) :
    disk.Accepted file ↔ Reference.WellFormed bytes := by
  unfold Disk.Accepted
  rw [shows.memory, shows.files, headerValid_iff_wellFormed]
  exact and_iff_right rfl

namespace Reference

theorem latest_eq_none_iff :
    (contents bytes).word32 Offset.latest = psmiLatestNone ↔ latest bytes = 0xFFFFFFFF :=
  UInt32.toNat_inj.symm

theorem latestValid_iff (published : latest bytes ≠ 0xFFFFFFFF) :
    psmiLatestValid ((contents bytes).word32 Offset.latest)
        ((contents bytes).word32 Offset.slotCount) = true ↔
      ¬ (2 ^ 31 ≤ latest bytes ∨ slotCount bytes ≤ latest bytes % 16) := by
  rw [psmiLatestValid_iff, latest_eq_none_iff, psmiLatestSlot_toNat, not_or, Nat.not_le, Nat.not_le]
  exact or_iff_right published

theorem slotOffset_latest (wellFormed : WellFormed bytes) :
    slotOffset ((contents bytes).word32 Offset.slotStride)
      (psmiLatestSlot ((contents bytes).word32 Offset.latest)) = slot bytes := by
  obtain ⟨-, -, -, -, -, -, -, small, aligned, -⟩ := wellFormed
  have narrow : ((contents bytes).word32 Offset.slotStride).toNat ≤ 16777280 := by
    change slotStride bytes ≤ _
    rw [aligned]
    omega
  rw [slotOffset_eq narrow (Nat.le_of_lt (psmiLatestSlot_lt _)), psmiLatestSlot_toNat]
  rfl

theorem current_iff (small : latest bytes < 2 ^ 31) :
    ((contents bytes).word32 (slot bytes) &&& 1 = 0 ∧
      psmiLatest (psmiLatestSlot ((contents bytes).word32 Offset.latest))
        ((contents bytes).word32 (slot bytes)) = (contents bytes).word32 Offset.latest) ↔
      ¬ (seq bytes % 2 = 1 ∨ seq bytes / 2 % 2 ^ 27 ≠ latest bytes / 16 % 2 ^ 27) := by
  have word : ((contents bytes).word32 Offset.latest).toNat = latest bytes := rfl
  have counter : ((contents bytes).word32 (slot bytes)).toNat = seq bytes := rfl
  rw [lowBit_eq_zero_iff, ← UInt32.toNat_inj, psmiLatest_toNat _ (psmiLatestSlot_lt _),
    psmiLatestSlot_toNat, word, counter]
  omega

theorem read_contents {offset count : Nat} (inside : offset + count ≤ bytes.length) :
    (contents bytes).read offset count = (bytes.drop offset).take count := by
  induction count generalizing offset with
  | zero => rw [List.take_zero, Memory.read]
  | succ count ih =>
      have here : offset < bytes.length := by omega
      rw [Memory.read, ih (by omega), List.drop_eq_getElem_cons here, List.take_succ_cons, contents,
        List.getD_eq_getElem?_getD, List.getElem?_eq_getElem here, Option.getD_some]

theorem read_payload (wellFormed : WellFormed bytes)
    (named : ¬ (2 ^ 31 ≤ latest bytes ∨ slotCount bytes ≤ latest bytes % 16))
    (short : ¬ capacity bytes < (length bytes).toNat) :
    (contents bytes).read (slot bytes + Offset.payload) (length bytes).toNat = payload bytes := by
  obtain ⟨-, -, -, -, -, -, -, -, aligned, room⟩ := wellFormed
  have rows : (latest bytes % 16 + 1) * slotStride bytes ≤ slotCount bytes * slotStride bytes :=
    Nat.mul_le_mul_right _ (by omega)
  rw [Nat.add_mul, Nat.one_mul] at rows
  refine read_contents ?_
  unfold slot
  simp only [Offset.payload]
  omega

/-- What a reader is handed for a file in order. -/
def info (bytes : List UInt8) (flags : UInt32) : Info :=
  ⟨generation bytes, length bytes, timestampNs bytes, flags⟩

end Reference

/-- A reader attached to the file, at its first attempt or its last. -/
theorem stillLatest_classify {r : Reader} (wellFormed : Reference.WellFormed bytes)
    (count : r.slotCount = (Reference.contents bytes).word32 Offset.slotCount)
    (stride : r.slotStride = (Reference.contents bytes).word32 Offset.slotStride)
    (capacity : r.capacity = (Reference.contents bytes).word32 Offset.capacity)
    (buffer : List UInt8) (size : UInt32) (copy : Bool) :
    stillLatest (Reference.contents bytes) r buffer size copy =
      if Reference.classify bytes = .ok then
        (if !copy || Reference.length bytes ≤ size then .ok else .toosmall,
          some (Reference.info bytes 0),
          if copy && Reference.length bytes ≤ size then
            Reference.payload bytes ++ buffer.drop (Reference.length bytes).toNat
          else buffer)
      else (Reference.classify bytes, none, buffer) := by
  unfold stillLatest stillAttempt Reference.classify
  rw [if_neg (not_not.mpr wellFormed)]
  dsimp only
  rw [stride, Reference.slotOffset_latest wellFormed]
  by_cases empty : Reference.latest bytes = 0xFFFFFFFF
  · rw [if_pos (Reference.latest_eq_none_iff.mpr empty), if_pos empty]
    rfl
  rw [if_neg (fun none => empty (Reference.latest_eq_none_iff.mp none)), if_neg empty]
  by_cases invalid : 2 ^ 31 ≤ Reference.latest bytes ∨
      Reference.slotCount bytes ≤ Reference.latest bytes % 16
  · have refused : (!psmiLatestValid ((Reference.contents bytes).word32 Offset.latest)
        r.slotCount) = true := by
      rw [count, Bool.not_eq_true', Bool.eq_false_iff]
      exact fun valid => (Reference.latestValid_iff empty).mp valid invalid
    rw [if_pos refused, if_pos invalid]
    rfl
  have valid : ¬ (!psmiLatestValid ((Reference.contents bytes).word32 Offset.latest)
      r.slotCount) = true := by
    rw [count, (Reference.latestValid_iff empty).mpr invalid]
    exact Bool.false_ne_true
  rw [if_neg valid, if_neg invalid]
  have small : Reference.latest bytes < 2 ^ 31 := by omega
  by_cases stale : Reference.seq bytes % 2 = 1 ∨
      Reference.seq bytes / 2 % 2 ^ 27 ≠ Reference.latest bytes / 16 % 2 ^ 27
  · rw [if_neg (fun current => (Reference.current_iff small).mp current stale), if_pos stale]
    rfl
  rw [if_pos ((Reference.current_iff small).mpr stale), if_neg stale]
  by_cases long : Reference.capacity bytes < (Reference.length bytes).toNat
  · have beyond : (Reference.contents bytes).word32 (Reference.slot bytes + Offset.length) >
        r.capacity := by
      rw [capacity]
      exact UInt32.lt_iff_toNat_lt.mpr long
    rw [if_pos beyond, if_pos long]
    rfl
  · have within : ¬ (Reference.contents bytes).word32 (Reference.slot bytes + Offset.length) >
        r.capacity := by
      rw [capacity]
      exact fun beyond => long (UInt32.lt_iff_toNat_lt.mp beyond)
    rw [if_neg within, if_neg long, if_pos rfl, ← Reference.read_payload wellFormed invalid long]
    rfl

theorem Reference.classify_ne_toosmall : Reference.classify bytes ≠ .toosmall := by
  unfold Reference.classify
  repeat' split
  all_goals exact nofun

/-- The reader of a file in order. -/
def freshReader (file : FileId) (bytes : List UInt8) : Reader :=
  Reader.attachedTo file (Header.ofMemory (Reference.contents bytes))

theorem announce_fresh :
    announce (freshReader file bytes) (some (Reference.info bytes 0)) =
      (some (Reference.info bytes psmsgrInfoAttached),
        { freshReader file bytes with announce := false }) := by
  have flag : (0 : UInt32) ||| psmsgrInfoAttached = psmsgrInfoAttached := by decide
  have fresh : (freshReader file bytes).announce = true := rfl
  rw [announce, if_pos fresh, Option.map_some]
  unfold Reference.info
  rw [flag]

theorem stillReply_classify (wellFormed : Reference.WellFormed bytes) (buffer : List UInt8)
    (size : UInt32) (copy : Bool) :
    stillReply (Reference.contents bytes) (freshReader file bytes) buffer size copy =
      if Reference.classify bytes = .ok then
        (⟨if !copy || Reference.length bytes ≤ size then .ok else .toosmall,
            some (Reference.info bytes psmsgrInfoAttached),
            if copy && Reference.length bytes ≤ size then
              Reference.payload bytes ++ buffer.drop (Reference.length bytes).toNat
            else buffer⟩,
          { freshReader file bytes with announce := false })
      else (⟨Reference.classify bytes, none, buffer⟩, freshReader file bytes) := by
  have never := @Reference.classify_ne_toosmall bytes
  have found : stillLatest (Reference.contents bytes) (freshReader file bytes) buffer size copy = _ :=
    stillLatest_classify wellFormed rfl rfl rfl buffer size copy
  rw [stillReply, found]
  by_cases ok : Reference.classify bytes = .ok
  · rw [if_pos ok, if_pos ok]
    have success : ∀ {fits : Bool}, ((if fits = true then Code.ok else .toosmall) = .ok ||
        (if fits = true then Code.ok else .toosmall) = .toosmall) = true := by
      decide
    dsimp only
    rw [if_pos success, announce_fresh]
  · rw [if_neg ok, if_neg ok]
    dsimp only
    rw [if_neg (by simp [ok, never])]

theorem Disk.Shows.sync (shows : disk.Shows file bytes) :
    (readerSync Reader.unattached).eval disk.answer =
      some (if Reference.WellFormed bytes then (.ok, freshReader file bytes)
        else (.format, Reader.unattached)) := by
  have stale : ∀ {file}, Reader.unattached.file = some file → disk.Retired file := by
    intro _ attached
    exact nomatch attached
  refine (eval_readerSync_stale stale).trans
    ((eval_attachLoop _ shows.data shows.active 1).trans ?_)
  rw [shows.memory]
  by_cases wellFormed : Reference.WellFormed bytes
  · rw [if_pos (shows.accepted_iff.mpr wellFormed), if_pos wellFormed]
    rfl
  · rw [if_neg (fun accepted => wellFormed (shows.accepted_iff.mp accepted)), if_neg wellFormed]
    rfl

theorem Reference.classify_format (malformed : ¬ Reference.WellFormed bytes) :
    Reference.classify bytes = .format := if_pos malformed

theorem eval_peek_fresh (shows : disk.Shows file bytes) :
    ∃ r, (psmsgrStatePeek Reader.unattached).eval disk.answer =
      some (⟨Reference.classify bytes, if Reference.classify bytes = .ok then
        some (Reference.info bytes psmsgrInfoAttached) else none, []⟩, r) := by
  have sync := shows.sync
  by_cases wellFormed : Reference.WellFormed bytes
  · rw [if_pos wellFormed] at sync
    rw [eval_psmsgrStatePeek sync rfl, shows.memory, stillReply_classify wellFormed]
    by_cases ok : Reference.classify bytes = .ok
    · rw [if_pos ok, if_pos ok, ok]
      exact ⟨_, rfl⟩
    · rw [if_neg ok, if_neg ok]
      exact ⟨_, rfl⟩
  · rw [if_neg wellFormed] at sync
    rw [eval_psmsgrStatePeek_failed sync nofun, Reference.classify_format wellFormed]
    exact ⟨_, rfl⟩

/-- What a read into a buffer of `size` bytes is to reply. -/
def Reference.reply (bytes : List UInt8) (buffer : List UInt8) (size : UInt32) : ReadReply :=
  if classify bytes = .ok then
    if length bytes ≤ size then
      ⟨.ok, some (info bytes psmsgrInfoAttached),
        payload bytes ++ buffer.drop (length bytes).toNat⟩
    else ⟨.toosmall, some (info bytes psmsgrInfoAttached), buffer⟩
  else ⟨classify bytes, none, buffer⟩

theorem eval_read_fresh (shows : disk.Shows file bytes) {buffer : Option (List UInt8)}
    {size : UInt32} (given : buffer = none → size = 0) :
    ∃ r, (psmsgrStateRead Reader.unattached buffer size).eval disk.answer =
      some (Reference.reply bytes (buffer.getD []) size, r) := by
  have sync := shows.sync
  by_cases wellFormed : Reference.WellFormed bytes
  · rw [if_pos wellFormed] at sync
    rw [eval_psmsgrStateRead given sync rfl, shows.memory, stillReply_classify wellFormed]
    rw [Reference.reply]
    by_cases ok : Reference.classify bytes = .ok
    · rw [if_pos ok, if_pos ok]
      simp only [Bool.not_true, Bool.false_or, Bool.true_and, decide_eq_true_eq]
      by_cases fits : Reference.length bytes ≤ size
      · rw [if_pos fits, if_pos fits, if_pos fits]
        exact ⟨_, rfl⟩
      · rw [if_neg fits, if_neg fits, if_neg fits]
        exact ⟨_, rfl⟩
    · rw [if_neg ok, if_neg ok]
      exact ⟨_, rfl⟩
  · rw [if_neg wellFormed] at sync
    rw [eval_psmsgrStateRead_failed given sync nofun, Reference.reply,
      Reference.classify_format wellFormed]
    exact ⟨_, rfl⟩

theorem eval_describe_fresh (shows : disk.Shows file bytes) :
    ∃ desc r, (psmsgrStateDescribe Reader.unattached).eval disk.answer =
      some (if Reference.WellFormed bytes then .ok else .format, desc, r) := by
  have sync := shows.sync
  rw [psmsgrStateDescribe, Program.eval_bind, sync, Option.bind_some]
  by_cases wellFormed : Reference.WellFormed bytes
  · rw [if_pos wellFormed, if_pos wellFormed]
    exact ⟨_, _, rfl⟩
  · rw [if_neg wellFormed, if_neg wellFormed]
    exact ⟨_, _, rfl⟩

theorem must_clock {thread : Tid} (world : World) :
    (call (.clock .monotonic)).Must (execGranted thread)
      (fun now after => after.disk = world.disk ∧ after.now = now ∧ world.now ≤ now) world := by
  refine ⟨fun _ => ⟨world.now, world, ⟨UInt64.le_refl _, rfl⟩, trivial⟩, fun now after happened => ?_⟩
  obtain ⟨⟨later, rfl⟩, -⟩ := happened
  exact ⟨rfl, rfl, later⟩

/-- What a wait that does not wait is to return. -/
def Reference.news (bytes : List UInt8) (lastGeneration : UInt32) : Code :=
  if ¬ WellFormed bytes then .format
  else if (contents bytes).word32 Offset.configFlags &&& psmiConfigNoNotify ≠ 0 then .notsup
  else if classify bytes = .ok ∧ generation bytes ≠ lastGeneration then .ok
  else if classify bytes = .format then .format
  else .timeout

theorem must_expired (thread : Tid) {world : World} {deadline : UInt64} (r : Reader)
    (late : deadline ≤ world.now) (rest : UInt64 → Prog (Code × Reader)) :
    (call (.clock .monotonic) >>= fun now =>
      if now ≥ deadline then pure (Code.timeout, r) else rest now).Must (execGranted thread)
      (fun returned _ => returned.1 = .timeout) world := by
  refine (must_clock world).bind (fun now later held => ?_)
  rw [if_pos (UInt64.le_trans late held.2.2)]
  rfl

/-- The turn of the loop in which the deadline has passed. -/
theorem must_waitTurn {thread : Tid} {world : World} {deadline : UInt64}
    (shows : world.disk.Shows file bytes) (wellFormed : Reference.WellFormed bytes)
    (late : deadline ≤ world.now) (turns : Nat) (lastGeneration : UInt32) :
    (waitLoop lastGeneration deadline (turns + 1) Reader.unattached).Must (execGranted thread)
      (fun returned _ => returned.1 = Reference.news bytes lastGeneration) world := by
  have same : world.disk = world.disk ∧ world.now = world.now := ⟨rfl, rfl⟩
  rw [waitLoop]
  refine (ends_of_answer shows.sync same).bind (fun synced later held => ?_)
  obtain ⟨rfl, same⟩ := held
  rw [if_pos wellFormed, Reference.news, if_neg (not_not.mpr wellFormed)]
  have attached : (freshReader file bytes).file = some file := rfl
  have flags : (freshReader file bytes).configFlags =
      (Reference.contents bytes).word32 Offset.configFlags := rfl
  have found : stillLatest (Reference.contents bytes) (freshReader file bytes) [] 0 false =
      if Reference.classify bytes = .ok then (.ok, some (Reference.info bytes 0), [])
      else (Reference.classify bytes, none, []) :=
    stillLatest_classify wellFormed rfl rfl rfl [] 0 false
  generalize freshReader file bytes = r at attached flags found ⊢
  dsimp only
  rw [attached]
  dsimp only
  rw [flags]
  by_cases silent : (Reference.contents bytes).word32 Offset.configFlags &&& psmiConfigNoNotify ≠ 0
  · rw [if_pos (bne_iff_ne.mpr silent), if_pos silent]
    rfl
  rw [if_neg (fun set => silent (bne_iff_ne.mp set)), if_neg silent]
  have loaded : (call (.load file Offset.notify)).eval world.disk.answer = some _ := rfl
  refine (ends_of_answer loaded same).bind (fun notify later held => ?_)
  obtain ⟨-, same⟩ := held
  refine (ends_of_answer eval_retired same).bind (fun gone later held => ?_)
  obtain ⟨rfl, same⟩ := held
  rw [if_neg (fun set => shows.active (of_decide_eq_true set))]
  refine (ends_of_answer (eval_readLatest r [] 0 false) same).bind (fun latest later held => ?_)
  obtain ⟨rfl, same⟩ := held
  rw [shows.memory, found]
  have expired := must_expired thread r (same.2 ▸ late)
  by_cases ok : Reference.classify bytes = .ok
  · rw [if_pos ok]
    dsimp only
    by_cases news : Reference.generation bytes ≠ lastGeneration
    · rw [if_pos ⟨ok, news⟩, if_pos ⟨rfl, fun same => news (Option.some.inj same)⟩]
      rfl
    · have known : ¬ (Code.ok = .ok ∧ (some (Reference.info bytes 0)).map (·.generation) ≠
          some lastGeneration) := fun fresh => news (fun same => fresh.2 (congrArg some same))
      rw [if_neg (fun fresh => news fresh.2), ok, if_neg Code.noConfusion, if_neg known,
        if_neg Code.noConfusion]
      exact expired _
  · rw [if_neg ok]
    dsimp only
    rw [if_neg (fun fresh => ok fresh.1)]
    by_cases format : Reference.classify bytes = .format
    · rw [if_pos format, if_neg (fun fresh => ok fresh.1), if_pos format]
      rfl
    · rw [if_neg format, if_neg (fun fresh => ok fresh.1), if_neg format]
      exact expired _

theorem must_wait_fresh {thread : Tid} {world : World} (shows : world.disk.Shows file bytes)
    (turns : Nat) (lastGeneration : UInt32) :
    (psmsgrStateWait (turns + 1) Reader.unattached lastGeneration 0).Must (execGranted thread)
      (fun returned _ => returned.1 = Reference.news bytes lastGeneration) world := by
  unfold psmsgrStateWait
  rw [if_neg (by decide)]
  refine (must_clock world).bind (fun start later held => ?_)
  obtain ⟨disk, now, -⟩ := held
  have deadline : start + UInt64.ofNat (Int.toNat 0) * nsPerMs = start := by
    simp
  rw [deadline]
  rw [← disk] at shows
  by_cases wellFormed : Reference.WellFormed bytes
  · exact must_waitTurn shows wellFormed (now ▸ UInt64.le_refl _) turns lastGeneration
  · rw [waitLoop]
    refine (ends_of_answer shows.sync ⟨rfl, rfl⟩).bind (fun synced later held => ?_)
    obtain ⟨rfl, -⟩ := held
    rw [if_neg wellFormed, Reference.news, if_pos wellFormed]
    rfl

namespace Dump

theorem refuse_eq_none {fails : Prop} [Decidable fails] {problem : String}
    {rest : Option String} :
    (if fails then some problem else rest) = none ↔ ¬ fails ∧ rest = none := by
  by_cases fail : fails
  · rw [if_pos fail]
    exact ⟨nofun, fun passes => absurd fail passes.1⟩
  · rw [if_neg fail]
    exact (and_iff_right fail).symm

/-- The tool's checks are those of a reader's attach. -/
theorem headerProblem_eq_none_iff {h : Header} {size : Nat} :
    headerProblem h size = none ↔ headerValid h size = true := by
  rw [headerValid_iff]
  simp only [headerProblem, refuse_eq_none, ne_eq, not_not, Bool.or_eq_true, decide_eq_true_eq,
    not_or, gt_iff_lt, UInt32.not_lt, Nat.not_lt, and_true, and_assoc]

theorem SlotHeader.ofBytes_read (memory : Memory) (s : Nat) :
    SlotHeader.ofBytes (memory.read s 32) =
      { seq := memory.word32 s
        generation := memory.word32 (s + Offset.generation)
        timestampNs := memory.word64 (s + Offset.timestampNs)
        length := memory.word32 (s + Offset.length) } := by
  simp only [SlotHeader.ofBytes, Memory.word32, Memory.word64]
  rw [Memory.read_copy (by decide), Memory.read_copy (by decide), Memory.read_copy (by decide),
    Memory.read_copy (by decide), Nat.add_zero]

/-- What the tool reads of the slots of a file. -/
def slotHeaders (memory : Memory) (stride : Nat) : Nat → Nat → List SlotHeader
  | _, 0 => []
  | i, count + 1 =>
      SlotHeader.ofBytes (memory.read (128 + i * stride) 32) ::
        slotHeaders memory stride (i + 1) count

theorem getD_slotHeaders {memory : Memory} {stride i count k : Nat} (below : k < count) :
    (slotHeaders memory stride i count).getD k default =
      SlotHeader.ofBytes (memory.read (128 + (i + k) * stride) 32) := by
  induction count generalizing i k with
  | zero => omega
  | succ count ih =>
      cases k with
      | zero => rfl
      | succ k =>
          rw [slotHeaders, List.getD_cons_succ, ih (by omega)]
          congr 4
          omega

theorem answer_pread {offset count : Nat} (inside : offset + count ≤ (disk.files file).size) :
    disk.answer (.pread file offset count) = some (.ok ((disk.memory file).read offset count)) := by
  rw [Disk.answer, Nat.min_eq_left (by omega)]

theorem eval_readSlots {h : Header} (wide : 32 ≤ h.slotStride.toNat) {i count : Nat}
    (room : 128 + (i + count) * h.slotStride.toNat ≤ (disk.files file).size) :
    (readSlots file h i count).eval disk.answer =
      some (some (slotHeaders (disk.memory file) h.slotStride.toNat i count)) := by
  induction count generalizing i with
  | zero => rfl
  | succ count ih =>
      have rows : (i + 1) * h.slotStride.toNat ≤ (i + (count + 1)) * h.slotStride.toNat :=
        Nat.mul_le_mul_right _ (by omega)
      rw [Nat.add_mul, Nat.one_mul] at rows
      have inside : 128 + i * h.slotStride.toNat + 32 ≤ (disk.files file).size := by omega
      have found : disk.answer (.pread file (psmiHeaderSize.toNat + i * h.slotStride.toNat)
          psmiSlotHeaderSize.toNat) = some _ := answer_pread inside
      rw [readSlots, eval_call_bind _ found]
      dsimp only
      rw [if_neg (not_not.mpr Memory.read_length), Program.eval_bind,
        ih (by rw [Nat.add_right_comm]; exact room)]
      rfl

/-- The note for a file that readers take for `code`. -/
def LatestNote.code : LatestNote → Code
  | .none => .nodata
  | .invalid => .format
  | .stale _ _ => .busy
  | .tooLong => .format
  | .current => .ok

theorem printLatest_classify (wellFormed : Reference.WellFormed bytes) :
    let memory := Reference.contents bytes
    let h := Header.ofMemory memory
    let shown := printLatest (memory.word32 Offset.latest)
      (slotHeaders memory h.slotStride.toNat 0 h.slotCount.toNat) h
    shown.1.code = Reference.classify bytes ∧
      (shown.2 = true ↔ Reference.classify bytes ≠ .format) := by
  intro memory h shown
  unfold Reference.classify
  rw [if_neg (not_not.mpr wellFormed)]
  dsimp only [shown]
  unfold printLatest
  by_cases empty : Reference.latest bytes = 0xFFFFFFFF
  · rw [if_pos (Reference.latest_eq_none_iff.mpr empty), if_pos empty]
    exact ⟨rfl, iff_of_true rfl nofun⟩
  rw [if_neg (fun none => empty (Reference.latest_eq_none_iff.mp none)), if_neg empty]
  dsimp only
  by_cases invalid : 2 ^ 31 ≤ Reference.latest bytes ∨
      Reference.slotCount bytes ≤ Reference.latest bytes % 16
  · have refused : (!psmiLatestValid (memory.word32 Offset.latest) h.slotCount) = true := by
      rw [Bool.not_eq_true', Bool.eq_false_iff]
      exact fun valid => (Reference.latestValid_iff empty).mp valid invalid
    rw [if_pos refused, if_pos invalid]
    exact ⟨rfl, iff_of_false nofun (fun other => other rfl)⟩
  have valid : ¬ (!psmiLatestValid (memory.word32 Offset.latest) h.slotCount) = true := by
    have accepted : psmiLatestValid (memory.word32 Offset.latest) h.slotCount = true :=
      (Reference.latestValid_iff empty).mpr invalid
    rw [accepted]
    exact Bool.false_ne_true
  rw [if_neg valid, if_neg invalid]
  have small : Reference.latest bytes < 2 ^ 31 := by omega
  have below : (psmiLatestSlot (memory.word32 Offset.latest)).toNat < h.slotCount.toNat := by
    rw [psmiLatestSlot_toNat]
    exact Nat.lt_of_not_le (fun beyond => invalid (.inr beyond))
  have place : 128 + (0 + (psmiLatestSlot (memory.word32 Offset.latest)).toNat) *
      h.slotStride.toNat = Reference.slot bytes := by
    rw [Nat.zero_add, psmiLatestSlot_toNat]
    rfl
  rw [getD_slotHeaders below, place, SlotHeader.ofBytes_read]
  dsimp only
  by_cases stale : Reference.seq bytes % 2 = 1 ∨
      Reference.seq bytes / 2 % 2 ^ 27 ≠ Reference.latest bytes / 16 % 2 ^ 27
  · have differs := mt (Reference.current_iff small).mp (not_not.mpr stale)
    rw [not_and_or] at differs
    rw [if_pos differs, if_pos stale]
    exact ⟨rfl, iff_of_true rfl nofun⟩
  have current := (Reference.current_iff small).mpr stale
  rw [if_neg (not_or.mpr ⟨not_not.mpr current.1, not_not.mpr current.2⟩), if_neg stale]
  by_cases long : Reference.capacity bytes < (Reference.length bytes).toNat
  · have beyond : memory.word32 (Reference.slot bytes + Offset.length) > h.capacity :=
      UInt32.lt_iff_toNat_lt.mpr long
    rw [if_pos beyond, if_pos long]
    exact ⟨rfl, iff_of_false nofun (fun other => other rfl)⟩
  · have within : ¬ memory.word32 (Reference.slot bytes + Offset.length) > h.capacity :=
      fun beyond => long (UInt32.lt_iff_toNat_lt.mp beyond)
    rw [if_neg within, if_neg long]
    exact ⟨rfl, iff_of_true rfl nofun⟩

/-- The view says what readers get. -/
structure RawView.Agrees (view : RawView) (bytes : List UInt8) : Prop where
  exit : view.exit = 0 ↔ Reference.classify bytes ≠ .format
  complete : view.readOk = true ↔ Reference.WellFormed bytes
  note : Reference.WellFormed bytes → view.note.map LatestNote.code = some (Reference.classify bytes)
  error : view.error.isSome ↔ ¬ Reference.WellFormed bytes

theorem RawView.failed_agrees (malformed : ¬ Reference.WellFormed bytes) (message : String) :
    (RawView.failed message).Agrees bytes where
  exit := iff_of_false nofun (fun other => other (Reference.classify_format malformed))
  complete := iff_of_false nofun malformed
  note := fun wellFormed => absurd wellFormed malformed
  error := iff_of_true rfl malformed

theorem eval_viewSlots (shows : disk.Shows file bytes) (wellFormed : Reference.WellFormed bytes) :
    ∃ view : RawView, (viewSlots file (Header.ofMemory (disk.memory file))).eval disk.answer =
      some view ∧ view.Agrees bytes := by
  have size : (disk.files file).size = bytes.length := by rw [shows.files]
  have ⟨complete, _, _, _, _, _, _, _, aligned, room⟩ := wellFormed
  have found : disk.answer (.pread file Offset.latest 4) = some _ :=
    answer_pread (by rw [size]; exact Nat.le_trans (by decide) complete)
  have wide : 32 ≤ (Header.ofMemory (disk.memory file)).slotStride.toNat := by
    rw [shows.memory]
    change 32 ≤ Reference.slotStride bytes
    omega
  have inside : 128 + (0 + (Header.ofMemory (disk.memory file)).slotCount.toNat) *
      (Header.ofMemory (disk.memory file)).slotStride.toNat ≤ (disk.files file).size := by
    rw [size, shows.memory, Nat.zero_add]
    exact room
  rw [viewSlots, eval_call_bind _ found]
  dsimp only
  rw [if_neg (not_not.mpr Memory.read_length), Program.eval_bind, eval_readSlots wide inside,
    Option.bind_some, shows.memory]
  obtain ⟨code, ok⟩ := printLatest_classify wellFormed
  refine ⟨_, rfl, ?_, iff_of_true rfl wellFormed, fun _ => congrArg some code,
    iff_of_false nofun (not_not.mpr wellFormed)⟩
  rw [← ok]
  dsimp only
  split
  · next fine => exact iff_of_true rfl fine
  · next bad => exact iff_of_false nofun bad

theorem eval_dumpRaw (shows : disk.Shows file bytes) :
    ∃ view : RawView, dumpRaw.eval disk.answer = some view ∧ view.Agrees bytes := by
  have opened : disk.answer .openData = some (.ok file) := by rw [Disk.answer, shows.data]
  have regular : (disk.files file).regular = true := by rw [shows.files]
  have size : (disk.files file).size = bytes.length := by rw [shows.files]
  suffices viewed : ∃ view : RawView, (viewFile file).eval disk.answer = some view ∧
      view.Agrees bytes by
    obtain ⟨view, evaluates, agrees⟩ := viewed
    refine ⟨view, ?_, agrees⟩
    rw [dumpRaw, eval_call_bind _ opened]
    dsimp only
    rw [Program.eval_bind, evaluates]
    rfl
  rw [viewFile, eval_call_bind _ rfl]
  dsimp only
  rw [regular, if_neg (by decide), size]
  by_cases short : bytes.length < psmiHeaderSize.toNat
  · rw [if_pos short]
    exact ⟨_, rfl, RawView.failed_agrees (fun wellFormed => Nat.not_lt.mpr wellFormed.1 short) _⟩
  have found : disk.answer (.pread file 0 psmiHeaderSize.toNat) = some _ :=
    answer_pread (by rw [size]; omega)
  rw [if_neg short, eval_call_bind _ found]
  dsimp only
  have whole : Header.ofBytes ((disk.memory file).read 0 psmiHeaderSize.toNat) =
      Header.ofMemory (disk.memory file) := Header.ofBytes_read _
  rw [if_neg (not_not.mpr Memory.read_length), whole]
  cases checked : headerProblem (Header.ofMemory (disk.memory file)) bytes.length with
  | some problem =>
      refine ⟨_, rfl, RawView.failed_agrees (fun wellFormed => ?_) _⟩
      have valid := headerValid_iff_wellFormed.mpr wellFormed
      rw [← shows.memory, ← headerProblem_eq_none_iff, checked] at valid
      cases valid
  | none =>
      rw [headerProblem_eq_none_iff, shows.memory] at checked
      exact eval_viewSlots shows (headerValid_iff_wellFormed.mp checked)

end Dump

/-- For a file that does not change, a fresh reader's calls and the raw view of `psmsgr-dump`
all follow `Reference.classify`. -/
theorem one_classification (world : World) (thread : Tid) (file : FileId) (bytes : List UInt8)
    (shows : world.disk.Shows file bytes) :
    (psmsgrStatePeek Reader.unattached).Must (execGranted thread)
      (fun returned _ => returned.1 = ⟨Reference.classify bytes,
        if Reference.classify bytes = .ok then some (Reference.info bytes psmsgrInfoAttached)
        else none, []⟩) world ∧
    (∀ buffer size, (buffer = none → size = 0) →
      (psmsgrStateRead Reader.unattached buffer size).Must (execGranted thread)
        (fun returned _ => returned.1 = Reference.reply bytes (buffer.getD []) size) world) ∧
    (psmsgrStateDescribe Reader.unattached).Must (execGranted thread)
      (fun returned _ => returned.1 = if Reference.WellFormed bytes then .ok else .format) world ∧
    (∀ turns lastGeneration,
      (psmsgrStateWait (turns + 1) Reader.unattached lastGeneration 0).Must (execGranted thread)
        (fun returned _ => returned.1 = Reference.news bytes lastGeneration) world) ∧
    Dump.dumpRaw.Must (execGranted thread) (fun view _ => view.Agrees bytes) world := by
  have same : world.disk = world.disk ∧ world.now = world.now := ⟨rfl, rfl⟩
  refine ⟨?_, fun buffer size given => ?_, ?_, must_wait_fresh shows, ?_⟩
  · obtain ⟨r, evaluates⟩ := eval_peek_fresh shows
    exact (ends_of_answer evaluates same).mono (fun _ _ held => congrArg Prod.fst held.1)
  · obtain ⟨r, evaluates⟩ := eval_read_fresh shows given
    exact (ends_of_answer evaluates same).mono (fun _ _ held => congrArg Prod.fst held.1)
  · obtain ⟨desc, r, evaluates⟩ := eval_describe_fresh shows
    exact (ends_of_answer evaluates same).mono (fun _ _ held => congrArg Prod.fst held.1)
  · obtain ⟨view, evaluates, agrees⟩ := Dump.eval_dumpRaw shows
    exact (ends_of_answer evaluates same).mono (fun _ _ held => held.1 ▸ agrees)

end

/-- The smallest file with a value: two slots without room for a payload, the first one
published with generation 7. -/
def smallestFile : List UInt8 :=
  [0x50, 0x53, 0x4D, 0x53, 1, 0, 0, 0, 128, 0, 0, 0, 32, 0, 0, 0, 2, 0, 0, 0, 64, 0, 0, 0] ++
    List.replicate 16 0 ++ [16, 0, 0, 0, 1, 0, 0, 0] ++ List.replicate 80 0 ++
    [2, 0, 0, 0, 7, 0, 0, 0] ++ List.replicate 120 0

def smallestWorld : World :=
  { World.empty with
    disk := { World.empty.disk with
      data := some 0
      files := fun _ => ⟨true, smallestFile.length, Reference.contents smallestFile⟩
      fresh := 1 } }

theorem one_classification_smallest :
    Reference.classify smallestFile = .ok ∧
    (psmsgrStatePeek Reader.unattached).Must (execGranted 0)
      (fun returned _ => returned.1 = ⟨.ok, some ⟨7, 0, 0, psmsgrInfoAttached⟩, []⟩)
      smallestWorld := by
  have shows : smallestWorld.disk.Shows 0 smallestFile := by
    refine ⟨rfl, rfl, ?_⟩
    decide
  have ok : Reference.classify smallestFile = .ok := by decide +kernel
  have info : Reference.info smallestFile psmsgrInfoAttached = ⟨7, 0, 0, psmsgrInfoAttached⟩ := by
    decide
  have peek := (one_classification smallestWorld 0 0 smallestFile shows).1
  rw [ok, if_pos rfl, info] at peek
  exact ⟨ok, peek⟩

end PsMsgr
