import PsMsgr.Properties.Linearizability
import PsMsgr.Still.Reading

namespace PsMsgr

open Effect Data

/-- The slot a writer that opens the file would begin on. -/
def Disk.nextSlot (disk : Disk) (file : FileId) : UInt32 :=
  slotAfter (if (disk.memory file).word32 Offset.latest ≠ psmiLatestNone then
      psmiLatestSlot ((disk.memory file).word32 Offset.latest)
    else (disk.memory file).word32 Offset.latest) (Header.ofMemory (disk.memory file)).slotCount

theorem Image.Valid.nextSlot {disk : Disk} {file : FileId} {g : Geometry}
    (valid : (disk.image file).Valid g) :
    disk.nextSlot file = UInt32.ofNat ((disk.image file).next g) := by
  have count : (Header.ofMemory (disk.memory file)).slotCount = g.slotCount := valid.shape.slotCount
  rw [Disk.nextSlot, count, ← Image.slotAfter_current]
  exact congrArg (slotAfter · g.slotCount) valid.latest.2

/-- What readers find in a complete file: nothing, or the last publish in the slot `latest`
names; and no slot but the next writer's is being written. -/
structure Disk.Consistent (disk : Disk) (file : FileId) : Prop where
  published : ((disk.memory file).word32 Offset.latest = psmiLatestNone ∧
      lastIndex file disk.publishes = none) ∨
    ∃ i seq position publish,
      i < (Header.ofMemory (disk.memory file)).slotCount ∧
      seq = (disk.memory file).word32
        (slotOffset (Header.ofMemory (disk.memory file)).slotStride i) ∧
      seq.toNat % 2 = 0 ∧ psmiLatest i seq = (disk.memory file).word32 Offset.latest ∧
      disk.Latest file position publish ∧
      publish.length ≤ (Header.ofMemory (disk.memory file)).capacity ∧ publish.generation ≠ 0 ∧
      Holds (disk.memory file) (slotOffset (Header.ofMemory (disk.memory file)).slotStride i) publish
  settled : ∀ {i}, i < (Header.ofMemory (disk.memory file)).slotCount →
    ((disk.memory file).word32
      (slotOffset (Header.ofMemory (disk.memory file)).slotStride i)).toNat % 2 = 1 →
    i = disk.nextSlot file

theorem DiskInv.consistent {disk : Disk} {file : FileId} (inv : DiskInv disk)
    (here : disk.installed file = true) : disk.Consistent file := by
  obtain ⟨g, valid⟩ := inv.valid here
  have count : (Header.ofMemory (disk.memory file)).slotCount = g.slotCount := valid.shape.slotCount
  have stride : (Header.ofMemory (disk.memory file)).slotStride = g.slotStride :=
    valid.shape.slotStride
  have capacity : (Header.ofMemory (disk.memory file)).capacity = g.capacity := valid.shape.capacity
  have most := g.le_sixteen
  constructor
  · have published := valid.published
    have last : (disk.image file).history.getLast? = _ := getLast?_history
    unfold Image.Published at published
    cases found : lastIndex file disk.publishes with
    | none =>
        rw [last, found] at published
        exact .inl ⟨published, rfl⟩
    | some position =>
        obtain ⟨⟨publish, present, named⟩, -⟩ := lastIndex_eq_some_iff.mp found
        have below := Image.current_lt (x := disk.image file) (g := g)
        have small := slotIndex_toNat below
        have sane := valid.sane publish
          (List.mem_filter.mpr ⟨List.mem_of_getElem? present, decide_eq_true named⟩)
        rw [last, found, Option.bind_some, present] at published
        refine .inr ⟨UInt32.ofNat ((disk.image file).current g), _, position, publish, ?_, rfl, ?_⟩
        · rw [count, UInt32.lt_iff_toNat_lt, small]
          exact below
        · have enough := Nat.le_of_lt (Nat.lt_of_lt_of_le below most)
          rw [stride, capacity, g.slotOffset_eq_slot (by rw [small]; exact enough), small]
          refine ⟨valid.current_even ?_, published.1.symm, ⟨found, present⟩, sane.1, sane.2,
            published.2⟩
          intro empty
          rw [empty, found, Option.bind_some, present] at last
          exact nomatch last
  · intro i inside odd
    rw [count] at inside
    have below : i.toNat < g.count := UInt32.lt_iff_toNat_lt.mp inside
    rw [stride, g.slotOffset_eq_slot (by unfold Geometry.count at below; omega)] at odd
    have next : i.toNat = (disk.image file).next g := by
      by_cases same : i.toNat = (disk.image file).next g
      · exact same
      · have even : ((disk.image file).seq g i.toNat).toNat % 2 = 0 := valid.settled _ below same
        change ((disk.memory file).word32 (g.slot i.toNat)).toNat % 2 = 0 at even
        omega
    rw [valid.nextSlot, ← next, UInt32.ofNat_toNat]

theorem stillAttempt_published {disk : Disk} {file : FileId} {r : Reader} {position : Nat}
    {publish : Publish} (inv : DiskInv disk) (cached : Cached r file disk)
    (latest : disk.Latest file position publish) (buffer : List UInt8) (size : UInt32)
    (copy : Bool) :
    stillAttempt (disk.memory file) r buffer size copy = shownAttempt publish buffer size copy := by
  obtain ⟨⟨-, none⟩ | ⟨i, seq, other, same, inside, rfl, even, named, found, fits, -, holds⟩, -⟩ :=
    inv.consistent cached.installed
  · exact nomatch none.symm.trans latest.last
  obtain rfl : publish = same := by
    obtain rfl := Option.some.inj (latest.last.symm.trans found.last)
    exact Option.some.inj (latest.here.symm.trans found.here)
  have bound : i.toNat < 16 := by
    obtain ⟨g, valid⟩ := inv.valid cached.installed
    have count : (Header.ofMemory (disk.memory file)).slotCount = g.slotCount :=
      valid.shape.slotCount
    rw [count, UInt32.lt_iff_toNat_lt] at inside
    exact Nat.lt_of_lt_of_le inside g.le_sixteen
  have current : Current (disk.memory file) r.slotStride i publish := by
    rw [cached.slotStride]
    exact ⟨(lowBit_eq_zero_iff _).mpr even, named.symm, holds⟩
  refine stillAttempt_current current bound ?_ ?_ buffer size copy
  · rw [cached.slotCount]
    exact inside
  · rw [cached.capacity]
    exact fits

theorem Disk.Latest.payload_length {disk : Disk} {file : FileId} {position : Nat}
    {publish : Publish} (inv : DiskInv disk) (latest : disk.Latest file position publish) :
    publish.payload.length = publish.length.toNat := by
  have member := List.mem_of_getElem? latest.here
  obtain ⟨⟨other, here, named⟩, -⟩ := lastIndex_eq_some_iff.mp latest.last
  obtain rfl := Option.some.inj (latest.here.symm.trans here)
  have present : disk.installed file = true := by
    rw [← named]
    exact inv.published publish member
  obtain ⟨g, valid⟩ := inv.valid present
  have published := valid.published
  unfold Image.Published at published
  rw [latest.getLast?_history] at published
  rw [← published.2.payload, Memory.read_length]

/-- The file a read is from: the one the reader is attached to, and if there is none or it is
retired, the one at the data path. -/
def Disk.source (disk : Disk) (r : Reader) : Option FileId :=
  match r.file with
  | some file => if disk.Retired file then disk.data else some file
  | none => disk.data

theorem Disk.source_active {disk : Disk} {r : Reader} {file : FileId} (attached : r.file = some file)
    (active : ¬ disk.Retired file) : disk.source r = some file := by
  simp [Disk.source, attached, active]

theorem Disk.source_stale {disk : Disk} {r : Reader}
    (stale : ∀ {file}, r.file = some file → disk.Retired file) : disk.source r = disk.data := by
  cases attached : r.file with
  | none => simp [Disk.source, attached]
  | some file => simp [Disk.source, attached, stale attached]

/-- Between its calls a reader is, or becomes, attached to the file it is to read, which is
complete; unless there is none. -/
theorem Following.sync {thread : Tid} {r : Reader} {since : Disk} {world : World} (inv : Inv world)
    (following : Following thread r since world) :
    ∃ code synced, (readerSync r).eval world.disk.answer = some (code, synced) ∧
      ((code = .ok ∧ ∃ file, synced.file = some file ∧ world.disk.source r = some file ∧
          Cached synced file world.disk) ∨
        (code = .nodata ∧ synced.file = none ∧ world.disk.source r = none)) := by
  by_cases active : ∃ file, r.file = some file ∧ ¬ world.disk.Retired file
  · obtain ⟨file, attached, active⟩ := active
    exact ⟨.ok, r, eval_readerSync_attached attached active,
      .inl ⟨rfl, file, attached, Disk.source_active attached active,
        (following.attached attached).1⟩⟩
  have stale : ∀ {file}, r.file = some file → world.disk.Retired file := by
    intro file attached
    by_contra retired
    exact active ⟨file, attached, retired⟩
  rw [eval_readerSync_stale stale, Disk.source_stale stale]
  cases named : world.disk.data with
  | none => exact ⟨_, _, eval_attachLoop_none _ named 1, .inr ⟨rfl, rfl, rfl⟩⟩
  | some file =>
      obtain ⟨here, active, -⟩ := inv.disk.data named
      obtain ⟨g, valid⟩ := inv.disk.valid here
      have accepted : world.disk.Accepted file := ⟨valid.regular, valid.header⟩
      refine ⟨_, _, (eval_attachLoop _ named active 1).trans (by rw [if_pos accepted]), .inl ?_⟩
      exact ⟨rfl, file, rfl, rfl, here, rfl, rfl, rfl, rfl, rfl⟩

/-- What a reader gets that nobody disturbs: it is, or becomes, attached to the file it is to
read, and is shown the last publish there. -/
structure Prompt (disk : Disk) (r : Reader) (request : Request) (size : UInt32) (copy : Bool)
    (returned : ReadReply × Reader) : Prop where
  attached : returned.2.file = disk.source r
  settled : returned.1.code ≠ .busy
  shown : ∀ {file position publish}, disk.source r = some file →
    disk.Latest file position publish →
    returned.1.code = (if !copy || publish.length ≤ size then .ok else .toosmall) ∧
      Reports request returned.1 publish

theorem announce_file (r : Reader) (info : Option Info) : (announce r info).2.file = r.file := by
  obtain ⟨flag, announced⟩ := announce_reader r info
  rw [announced]

theorem announce_shows {r : Reader} {publish : Publish} {info : Info} (shows : Shows publish info) :
    ∃ announced, (announce r (some info)).1 = some announced ∧ Shows publish announced := by
  unfold announce
  split
  · exact ⟨_, rfl, shows.generation, shows.length, shows.timestampNs⟩
  · exact ⟨info, rfl, shows⟩

theorem stillReply_prompt {disk : Disk} {file : FileId} {r synced : Reader} {request : Request}
    {buffer : List UInt8} {size : UInt32} {copy : Bool} (inv : DiskInv disk)
    (attached : synced.file = some file) (source : disk.source r = some file)
    (cached : Cached synced file disk) (copies : request ≠ .peek → copy = true) :
    Prompt disk r request size copy (stillReply (disk.memory file) synced buffer size copy) := by
  unfold stillReply stillLatest
  obtain ⟨⟨empty, none⟩ | ⟨_, _, position, publish, -, -, -, -, latest, -⟩, -⟩ :=
    inv.consistent cached.installed
  · have turn : stillAttempt (disk.memory file) synced buffer size copy =
        .result .nodata .none buffer := by
      unfold stillAttempt
      dsimp only
      rw [if_pos empty]
    rw [turn]
    refine ⟨attached.trans source.symm, nofun, fun {other _ _} same found => ?_⟩
    obtain rfl : file = other := Option.some.inj (source.symm.trans same)
    exact nomatch none.symm.trans found.last
  · have whole := latest.payload_length inv
    rw [stillAttempt_published inv cached latest]
    unfold shownAttempt
    dsimp only
    have success : ∀ {fits : Bool}, ((if fits = true then Code.ok else .toosmall) = .ok ||
        (if fits = true then Code.ok else .toosmall) = .toosmall) = true := by
      decide
    rw [if_pos success]
    refine ⟨?_, ?_, fun {other _ shown} same found => ?_⟩
    · exact (announce_file synced _).trans (attached.trans source.symm)
    · dsimp only
      split
      · exact nofun
      · exact nofun
    obtain rfl := Option.some.inj (source.symm.trans same)
    obtain rfl := Option.some.inj (latest.last.symm.trans found.last)
    obtain rfl := Option.some.inj (latest.here.symm.trans found.here)
    refine ⟨rfl, announce_shows ⟨rfl, rfl, rfl⟩, fun asked ok => ?_⟩
    obtain rfl := copies asked
    have fits : publish.length ≤ size := by
      by_contra large
      simp [large] at ok
    dsimp only
    rw [if_pos (by simp [fits]), ← whole, List.take_left]

/-- In every state of every run each file that was ever at the data path is consistent, an open
writer begins on the slot the next writer would begin on, and a reader that is left alone gets
the last value at its first attempt, having attached to the file at the data path if it had none
or a retired one. -/
theorem shared_state_consistent (execution : Execution) (index : Nat) :
    (∀ {file}, (execution.world index).disk.installed file = true →
      (execution.world index).disk.Consistent file) ∧
    (∀ {thread w}, (execution.systems index).threads thread = .idle (Handle.writer w) →
      slotAfter w.latest w.slotCount = (execution.world index).disk.nextSlot w.file) ∧
    (∀ {thread r}, (execution.systems index).threads thread = .idle (Handle.reader r) →
      (∀ {file position publish buffer size copy}, r.file = some file →
        (execution.world index).disk.Latest file position publish →
        (readAttempt r file buffer size copy).Must (execGranted thread)
          (fun attempt _ => attempt = shownAttempt publish buffer size copy)
          (execution.world index)) ∧
      (∀ {buffer size}, (buffer = none → size = 0) →
        (psmsgrStateRead r buffer size).Must (execGranted thread)
          (fun returned _ => Prompt (execution.world index).disk r (.read buffer size) size true
            returned) (execution.world index)) ∧
      (psmsgrStatePeek r).Must (execGranted thread)
        (fun returned _ => Prompt (execution.world index).disk r .peek 0 false returned)
        (execution.world index)) := by
  have inv := execution.inv index
  refine ⟨inv.disk.consistent, fun {thread w} idle => ?_, fun {thread r} idle => ?_⟩
  · obtain ⟨g, ready, -⟩ := Inside.holds (execution.owns idle)
    rw [ready.attached.target, ready.attached.valid.nextSlot]
  have following : Following thread r (execution.world index).disk (execution.world index) :=
    execution.owns idle
  have unchanged : (execution.world index).disk = (execution.world index).disk ∧
      (execution.world index).now = (execution.world index).now := ⟨rfl, rfl⟩
  refine ⟨?_, ?_, ?_⟩
  · intro file position publish buffer size copy attached latest
    refine (ends_of_answer (eval_readAttempt r buffer size copy) unchanged).mono ?_
    rintro attempt after ⟨rfl, -⟩
    exact stillAttempt_published inv.disk (following.attached attached).1 latest buffer size copy
  · intro buffer size given
    obtain ⟨code, synced, sync, ⟨rfl, file, attached, source, cached⟩ | ⟨rfl, detached, none⟩⟩ :=
      following.sync inv
    · refine (ends_of_answer (eval_psmsgrStateRead given sync attached) unchanged).mono ?_
      rintro returned after ⟨rfl, -⟩
      exact stillReply_prompt inv.disk attached source cached (fun _ => rfl)
    · refine (ends_of_answer (eval_psmsgrStateRead_failed given sync nofun) unchanged).mono ?_
      rintro returned after ⟨rfl, -⟩
      exact ⟨detached.trans none.symm, nofun, fun source => nomatch none.symm.trans source⟩
  · obtain ⟨code, synced, sync, ⟨rfl, file, attached, source, cached⟩ | ⟨rfl, detached, none⟩⟩ :=
      following.sync inv
    · refine (ends_of_answer (eval_psmsgrStatePeek sync attached) unchanged).mono ?_
      rintro returned after ⟨rfl, -⟩
      exact stillReply_prompt inv.disk attached source cached (fun asked => absurd rfl asked)
    · refine (ends_of_answer (eval_psmsgrStatePeek_failed sync nofun) unchanged).mono ?_
      rintro returned after ⟨rfl, -⟩
      exact ⟨detached.trans none.symm, nofun, fun source => nomatch none.symm.trans source⟩

end PsMsgr
