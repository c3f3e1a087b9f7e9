import PsMsgr.State.Looking
import PsMsgr.Effect.Replies
import PsMsgr.Channel.System

namespace PsMsgr

open Effect Data

/-- An access of a mapping is one of the first `bound` bytes of `file`. -/
def Sys.Bounded (file : FileId) (bound : Nat) : Sys → Prop
  | .load mapped offset | .store mapped offset _ | .fetchOr mapped offset _
  | .fetchAdd mapped offset _ => mapped = file ∧ offset + 4 ≤ bound
  | .loadByte mapped offset | .storeByte mapped offset _ => mapped = file ∧ offset < bound
  | _ => True

section Copies

variable {file : FileId} {bound : Nat}

theorem loadBytes_bounded {offset count : Nat} (inside : offset + count ≤ bound) :
    (loadBytes file offset count).Always (Sys.Bounded file bound)
      (fun bytes => bytes.length = count) :=
  loadBytes_always fun _ _ upper => ⟨rfl, Nat.lt_of_lt_of_le upper inside⟩

theorem storeBytes_bounded {offset : Nat} {bytes : List UInt8}
    (inside : offset + bytes.length ≤ bound) :
    (storeBytes file offset bytes).Always (Sys.Bounded file bound) (fun _ => True) :=
  storeBytes_always fun _ _ _ upper => ⟨rfl, Nat.lt_of_lt_of_le upper inside⟩

end Copies

variable {g : Geometry}

theorem Geometry.slot_end {i : Nat} (inside : i < g.count) :
    g.slot i + g.stride ≤ g.slot g.count := by
  have rows : (i + 1) * g.stride ≤ g.count * g.stride := Nat.mul_le_mul_right _ inside
  rw [Nat.add_mul, Nat.one_mul] at rows
  unfold slot
  omega

theorem Geometry.header_inside : 128 ≤ g.slot g.count := g.slot_ge _

/-- At most the first `limit` bytes of the buffer are overwritten. -/
structure Overwritten (buffer : List UInt8) (limit : Nat) (result : List UInt8) : Prop where
  length : result.length = buffer.length
  rest : result.drop limit = buffer.drop limit

theorem Overwritten.refl (buffer : List UInt8) (limit : Nat) : Overwritten buffer limit buffer :=
  ⟨rfl, rfl⟩

theorem Overwritten.trans {first second third : List UInt8} {limit : Nat}
    (left : Overwritten first limit second) (right : Overwritten second limit third) :
    Overwritten first limit third :=
  ⟨right.length.trans left.length, right.rest.trans left.rest⟩

theorem Overwritten.copied {buffer payload : List UInt8} {limit : Nat}
    (fits : payload.length ≤ buffer.length) (small : payload.length ≤ limit) :
    Overwritten buffer limit (payload ++ buffer.drop payload.length) := by
  refine ⟨?_, ?_⟩
  · rw [List.length_append, List.length_drop]
    omega
  · rw [List.drop_append, List.drop_eq_nil_of_le small, List.nil_append, List.drop_drop]
    congr 1
    omega

/-- The handle has the geometry of the header it was attached with. -/
structure Reader.Fits (r : Reader) (g : Geometry) : Prop where
  slotCount : r.slotCount = g.slotCount
  slotStride : r.slotStride = g.slotStride
  capacity : r.capacity = g.capacity

def Attempt.buffer : Attempt → List UInt8
  | .result _ _ buffer => buffer
  | .again buffer => buffer

section Reading

variable {r : Reader} {file : FileId} {size : UInt32} {copy : Bool}

theorem recheck_bounded {s : Nat} {q1 : UInt32} {m : SlotCopy} {buffer : List UInt8}
    (inside : s + 4 ≤ g.slot g.count) :
    (recheck r file s q1 m buffer size copy).Always (Sys.Bounded file (g.slot g.count))
      (fun turn => turn.buffer = buffer) := by
  have load : Sys.Bounded file (g.slot g.count) (.load file s) := ⟨rfl, inside⟩
  refine Program.Always.bind (Program.Always.perform load) (fun q2 _ => ?_)
  dsimp only
  split
  · split
    · rfl
    · rfl
  · rfl

theorem readAttempt_bounded (fits : r.Fits g) {buffer : List UInt8}
    (whole : buffer.length = size.toNat) :
    (readAttempt r file buffer size copy).Always (Sys.Bounded file (g.slot g.count))
      (fun turn => Overwritten buffer (min size.toNat g.capacity.toNat) turn.buffer) := by
  have header := g.header_inside
  have load : Sys.Bounded file (g.slot g.count) (.load file Offset.latest) :=
    ⟨rfl, by simp only [Offset.latest]; omega⟩
  unfold readAttempt
  refine Program.Always.bind (Program.Always.perform load) (fun latest _ => ?_)
  dsimp only
  split
  · exact Overwritten.refl _ _
  next published =>
  split
  · exact Overwritten.refl _ _
  next valid =>
  -- the index is below the slot count, so its slot is one of the file's
  have index : (psmiLatestSlot latest).toNat < g.count := by
    rw [Bool.not_eq_true, Bool.not_eq_false', fits.slotCount, psmiLatestValid_iff] at valid
    rcases valid with none | ⟨-, below⟩
    · exact absurd none published
    · exact below
  have address : slotOffset r.slotStride (psmiLatestSlot latest) =
      g.slot (psmiLatestSlot latest).toNat := by
    rw [fits.slotStride]
    exact g.slotOffset_eq_slot (Nat.le_of_lt (psmiLatestSlot_lt latest))
  have ends := g.slot_end index
  have wide := g.stride_ge
  have room := g.stride_bounds.1
  rw [address]
  have seq : Sys.Bounded file (g.slot g.count) (.load file (g.slot (psmiLatestSlot latest).toNat)) :=
    ⟨rfl, by omega⟩
  refine Program.Always.bind (Program.Always.perform seq) (fun q1 _ => ?_)
  split
  · refine Program.Always.bind (loadBytes_bounded ?_) (fun bytes _ => ?_)
    · simp only [Offset.reserved]
      omega
    split
    · next copied =>
        simp only [Bool.and_eq_true, decide_eq_true_eq, fits.capacity, UInt32.le_iff_toNat_le]
          at copied
        obtain ⟨⟨-, small⟩, short⟩ := copied
        refine Program.Always.bind (loadBytes_bounded ?_) (fun payload length => ?_)
        · simp only [Offset.payload]
          omega
        refine (recheck_bounded (by omega)).mono (fun turn same => ?_)
        rw [same]
        exact Overwritten.copied (by omega) (by omega)
    · refine (recheck_bounded (by omega)).mono (fun turn same => ?_)
      rw [same]
      exact Overwritten.refl _ _
  · exact Overwritten.refl _ _

theorem readLoop_bounded (fits : r.Fits g) (tries : Nat) {buffer : List UInt8}
    (whole : buffer.length = size.toNat) :
    (readLoop r file size copy tries buffer).Always (Sys.Bounded file (g.slot g.count))
      (fun result => Overwritten buffer (min size.toNat g.capacity.toNat) result.2.2) := by
  induction tries generalizing buffer with
  | zero => exact Overwritten.refl _ _
  | succ tries ih =>
      refine Program.Always.bind (readAttempt_bounded fits whole) (fun turn written => ?_)
      cases turn with
      | result code info bytes => exact written
      | again bytes =>
          have rest := (ih (written.length.trans whole)).mono
            (fun result more => written.trans more)
          dsimp only
          split
          · exact Program.Always.bind (Program.Always.perform trivial) (fun _ _ => rest)
          · exact rest

end Reading

/-- The handle has the geometry of the header it was attached with, and its indices are
those of slots. -/
structure Writer.Fits (w : Writer) (g : Geometry) : Prop where
  slotCount : w.slotCount = g.slotCount
  slotStride : w.slotStride = g.slotStride
  capacity : w.capacity = g.capacity
  latest : w.latest = psmiLatestNone ∨ w.latest.toNat < g.count
  openSlot : w.openSlot = psmiLatestNone ∨ w.openSlot.toNat < g.count

section Writing

variable {w : Writer}

theorem slotAfter_lt (fits : w.Fits g) : (slotAfter w.latest w.slotCount).toNat < g.count := by
  have positive := g.count_pos
  unfold slotAfter
  split
  · exact positive
  · rw [UInt32.toNat_mod, fits.slotCount]
    exact Nat.mod_lt _ positive

theorem Writer.Fits.slot (fits : w.Fits g) {i : UInt32} (inside : i.toNat < g.count) :
    writerSlot w i = g.slot i.toNat := by
  rw [writerSlot, fits.slotStride]
  exact g.slotOffset_eq_slot (Nat.le_of_lt (Nat.lt_of_lt_of_le inside g.le_sixteen))

theorem randomGeneration_bounded (file : FileId) :
    randomGeneration.Always (Sys.Bounded file (g.slot g.count)) (fun _ => True) := by
  refine Program.Always.bind (Program.Always.perform trivial) (fun random _ => ?_)
  cases random with
  | some value => trivial
  | none =>
      refine Program.Always.bind (Program.Always.perform trivial) (fun _ _ => ?_)
      refine Program.Always.bind (Program.Always.perform trivial) (fun _ _ => ?_)
      exact Program.Always.bind (Program.Always.perform trivial) (fun _ _ => trivial)

theorem carriedGeneration_bounded {file : FileId} {index : UInt32}
    (inside : index = psmiLatestNone ∨ index.toNat < g.count) :
    (carriedGeneration file g.slotStride index).Always (Sys.Bounded file (g.slot g.count))
      (fun _ => True) := by
  unfold carriedGeneration
  split
  · exact randomGeneration_bounded file
  · next published =>
      have below := inside.resolve_left published
      have ends := g.slot_end below
      have wide := g.stride_ge
      rw [g.slotOffset_eq_slot (Nat.le_of_lt (Nat.lt_of_lt_of_le below g.le_sixteen))]
      have loaded : (loadWord file (g.slot index.toNat + Offset.generation)).Always
          (Sys.Bounded file (g.slot g.count)) (fun _ => True) := by
        refine Program.Always.bind (loadBytes_bounded ?_) (fun _ _ => trivial)
        simp only [Offset.generation]
        omega
      exact Program.Always.bind loaded (fun _ _ => trivial)

theorem beginSlot_bounded (fits : w.Fits g) :
    (beginSlot w).Always (Sys.Bounded w.file (g.slot g.count))
      (fun begun => begun.Fits g ∧ begun.file = w.file ∧ begun.openSlot.toNat < g.count) := by
  have below := slotAfter_lt fits
  have ends := g.slot_end below
  have wide := g.stride_ge
  have load : Sys.Bounded w.file (g.slot g.count)
      (.load w.file (writerSlot w (slotAfter w.latest w.slotCount))) :=
    ⟨rfl, by rw [fits.slot below]; omega⟩
  refine Program.Always.bind (Program.Always.perform load) (fun q _ => ?_)
  refine Program.Always.bind (Program.Always.perform load) (fun _ _ => ?_)
  exact ⟨⟨fits.slotCount, fits.slotStride, fits.capacity, fits.latest, .inr below⟩, rfl, below⟩

theorem commitSlot_bounded {len : UInt32} (fits : w.Fits g) (opened : w.openSlot.toNat < g.count) :
    (commitSlot w len).Always (Sys.Bounded w.file (g.slot g.count))
      (fun result => result.2.Fits g ∧ result.2.file = w.file) := by
  have ends := g.slot_end opened
  have wide := g.stride_ge
  have header := g.header_inside
  have field : ∀ {offset : Nat} {bytes : List UInt8}, offset + bytes.length ≤ 32 →
      (storeBytes w.file (writerSlot w w.openSlot + offset) bytes).Always
        (Sys.Bounded w.file (g.slot g.count)) (fun _ => True) := by
    intro offset bytes inside
    refine storeBytes_bounded ?_
    rw [fits.slot opened]
    omega
  have seq : Sys.Bounded w.file (g.slot g.count) (.load w.file (writerSlot w w.openSlot)) :=
    ⟨rfl, by rw [fits.slot opened]; omega⟩
  have word : ∀ {offset : Nat}, offset + 4 ≤ 128 →
      Sys.Bounded w.file (g.slot g.count) (.load w.file offset) :=
    fun inside => ⟨rfl, by omega⟩
  unfold commitSlot
  refine Program.Always.bind (field (by rw [Memory.bytes32_length]; decide)) (fun _ _ => ?_)
  refine Program.Always.bind (field (by rw [Memory.bytes32_length]; decide)) (fun _ _ => ?_)
  refine Program.Always.bind (Program.Always.perform trivial) (fun timestamp _ => ?_)
  refine Program.Always.bind (field (by rw [Memory.bytes64_length]; decide)) (fun _ _ => ?_)
  refine Program.Always.bind (Program.Always.perform seq) (fun _ _ => ?_)
  refine Program.Always.bind (Program.Always.perform (word (by decide : Offset.latest + 4 ≤ 128)))
    (fun _ _ => ?_)
  dsimp only
  have committed : Writer.Fits { w with
      latest := w.openSlot, openSlot := psmiLatestNone, gen := nextGeneration w.gen } g :=
    ⟨fits.slotCount, fits.slotStride, fits.capacity, .inr opened, .inl rfl⟩
  split
  · refine Program.Always.bind
      (Program.Always.perform (word (by decide : Offset.notify + 4 ≤ 128))) (fun _ _ => ?_)
    exact Program.Always.bind (Program.Always.perform trivial) (fun _ _ => ⟨committed, rfl⟩)
  · exact ⟨committed, rfl⟩

theorem psmsgrStatePublish_bounded (fits : w.Fits g) (data : Option (List UInt8)) (len : UInt32) :
    (psmsgrStatePublish w data len).Always (Sys.Bounded w.file (g.slot g.count))
      (fun result => result.2.2.Fits g ∧ result.2.2.file = w.file) := by
  have unchanged : w.Fits g ∧ w.file = w.file := ⟨fits, rfl⟩
  unfold psmsgrStatePublish
  split
  · exact unchanged
  split
  · exact unchanged
  split
  · exact unchanged
  next small =>
  refine Program.Always.bind (beginSlot_bounded fits) (fun begun holds => ?_)
  obtain ⟨fits', same, opened⟩ := holds
  have room := g.stride_bounds.1
  have ends := g.slot_end opened
  have short : len.toNat ≤ g.capacity.toNat := by
    rw [fits.capacity] at small
    exact UInt32.le_iff_toNat_le.mp (UInt32.not_lt.mp small)
  rw [← same]
  refine Program.Always.bind (storeBytes_bounded ?_) (fun _ _ => ?_)
  · rw [fits'.slot opened, List.length_take]
    simp only [Offset.payload]
    omega
  exact Program.Always.bind (commitSlot_bounded fits' opened) (fun _ holds => holds)

theorem psmsgrStateCommit_bounded (fits : w.Fits g) (len : UInt32) :
    (psmsgrStateCommit w len).Always (Sys.Bounded w.file (g.slot g.count))
      (fun result => result.2.2.Fits g ∧ result.2.2.file = w.file) := by
  unfold psmsgrStateCommit
  split
  · exact ⟨fits, rfl⟩
  next opened =>
  split
  · exact ⟨fits, rfl⟩
  · exact Program.Always.bind (commitSlot_bounded fits (fits.openSlot.resolve_left opened))
      (fun _ holds => holds)

theorem psmsgrStateBegin_bounded (fits : w.Fits g) :
    (psmsgrStateBegin w).Always (Sys.Bounded w.file (g.slot g.count))
      (fun result => result.2.Fits g ∧ result.2.file = w.file) := by
  unfold psmsgrStateBegin
  split
  · exact ⟨fits, rfl⟩
  · exact Program.Always.bind (beginSlot_bounded fits) (fun _ holds => ⟨holds.1, holds.2.1⟩)

theorem psmsgrStateAbort_bounded (fits : w.Fits g) :
    (psmsgrStateAbort w).Always (Sys.Bounded w.file (g.slot g.count))
      (fun result => result.2.Fits g ∧ result.2.file = w.file) := by
  unfold psmsgrStateAbort
  split
  · exact ⟨fits, rfl⟩
  · exact ⟨⟨fits.slotCount, fits.slotStride, fits.capacity, fits.latest, .inl rfl⟩, rfl⟩

theorem storeBuffer_bounded (fits : w.Fits g) (opened : w.openSlot ≠ psmiLatestNone) {index : Nat}
    (inside : index < w.capacity.toNat) (byte : UInt8) :
    Sys.Bounded w.file (g.slot g.count)
      (.storeByte w.file (writerSlot w w.openSlot + Offset.payload + index) byte) := by
  have below := fits.openSlot.resolve_left opened
  have room := g.stride_bounds.1
  have ends := g.slot_end below
  rw [fits.capacity] at inside
  refine ⟨rfl, ?_⟩
  rw [fits.slot below]
  simp only [Offset.payload]
  omega

theorem writer_bounded {request : Request} (fits : w.Fits g)
    (accepted : (Handle.writer w).accepts request) :
    ((Handle.writer w).program request).Always (Sys.Bounded w.file (g.slot g.count))
      (fun returned => ∀ after, returned.1 = .writer after → after.Fits g ∧ after.file = w.file) := by
  have kept : ∀ {after : Writer} {other}, after.Fits g ∧ after.file = w.file →
      Handle.writer after = .writer other → other.Fits g ∧ other.file = w.file := by
    rintro after other holds ⟨⟩
    exact holds
  cases request with
  | publish data len =>
      exact (psmsgrStatePublish_bounded fits data len).bind (fun _ holds _ => kept holds)
  | commit len => exact (psmsgrStateCommit_bounded fits len).bind (fun _ holds _ => kept holds)
  | begin => exact (psmsgrStateBegin_bounded fits).bind (fun _ holds _ => kept holds)
  | abort => exact (psmsgrStateAbort_bounded fits).bind (fun _ holds _ => kept holds)
  | storeBuffer index byte =>
      exact Program.Always.bind
        (Program.Always.perform (storeBuffer_bounded fits accepted.1 accepted.2 byte))
        (fun _ _ _ => kept ⟨fits, rfl⟩)
  | writerClose =>
      have closed : (psmsgrStateWriterClose w).Always (Sys.Bounded w.file (g.slot g.count))
          (fun _ => True) :=
        Program.Always.bind (Program.Always.perform trivial)
          (fun _ _ => Program.Always.perform trivial)
      exact closed.bind (fun _ _ after same => by cases same)
  | _ => exact accepted.elim

end Writing

/-- The file at the data path, if there is one, has `bytes` bytes and the header `h`, and no file is
created. -/
def Sys.Copied (file : FileId) (bytes : Nat) (h : Header) : (request : Sys) → request.Reply → Prop
  | .openData, reply => ∀ fd, reply = .ok fd → fd = file
  | .fstat _, reply => ∀ st, reply = .ok st → st.size = bytes
  | .pread _ _ _, reply => ∀ copy, reply = .ok copy → Header.ofBytes copy = h
  | .mkostemp, reply => ∀ created, reply ≠ .ok created
  | _, _ => True

structure Header.Describes (h : Header) (g : Geometry) : Prop where
  slotCount : h.slotCount = g.slotCount
  slotStride : h.slotStride = g.slotStride
  capacity : h.capacity = g.capacity

section Opening

variable {h : Header} {bytes : Nat} {file : FileId}

theorem readHeader_copied :
    (readHeader file).Confined (Sys.Bounded file (g.slot g.count)) (Sys.Copied file bytes h)
      (fun copy => copy.1 = .ok → copy.2 = (bytes, h)) := by
  refine Program.Confined.bind (Program.Confined.perform trivial) fun status sized => ?_
  cases status with
  | error => exact fun ok => by cases ok
  | ok st =>
      dsimp only
      split
      · exact fun ok => by cases ok
      refine Program.Confined.bind (Program.Confined.perform trivial) fun copy same => ?_
      cases copy with
      | error => exact fun ok => by cases ok
      | ok copy =>
          dsimp only
          split
          · intro _
            rw [← sized st rfl, ← same copy rfl]
          · exact fun ok => by cases ok

theorem attach_fits {r : Reader} (valid : headerValid h bytes = true) (described : h.Describes g) :
    (attach r).Confined (Sys.Bounded file (g.slot g.count)) (Sys.Copied file bytes h)
      (fun returned => returned.1 = .ok →
        returned.2.Fits g ∧ returned.2.file = some file ∧ returned.2.mapSize = g.slot g.count) := by
  refine Program.Confined.bind (Program.Confined.perform trivial) fun found same => ?_
  cases found with
  | error code =>
      cases code with
      | _ => exact fun ok => by cases ok
  | ok fd =>
      obtain rfl := same fd rfl
      refine Program.Confined.bind readHeader_copied fun copy copied => ?_
      obtain ⟨code, size, header⟩ := copy
      dsimp only at copied ⊢
      split
      · next failed =>
          exact Program.Confined.bind (Program.Confined.perform trivial) fun _ _ ok =>
            absurd ok failed
      next read =>
      obtain ⟨rfl, rfl⟩ := Prod.mk.inj (copied (not_not.mp read))
      rw [valid]
      refine Program.Confined.bind (Program.Confined.perform trivial) fun mapped _ => ?_
      cases mapped with
      | error =>
          exact Program.Confined.bind (Program.Confined.perform trivial) fun _ _ ok => by cases ok
      | ok =>
          refine Program.Confined.bind (Program.Confined.perform trivial) fun _ _ _ => ?_
          refine ⟨⟨described.slotCount, described.slotStride, described.capacity⟩, rfl, ?_⟩
          rw [← g.toSize_fileSize, ← described.slotCount, ← described.slotStride]

theorem createFile_refused (build : Build) (o : Options) (lockFd : Fd) (old : Option FileId)
    (gen : UInt32) :
    (createFile build o lockFd old gen).Confined (Sys.Bounded file (g.slot g.count))
      (Sys.Copied file bytes h) (fun returned => ∀ w, returned ≠ .ok w) := by
  refine Program.Confined.bind (Program.Confined.perform trivial) fun enough _ => ?_
  split
  · exact fun _ same => by cases same
  refine Program.Confined.bind (Program.Confined.perform trivial) fun created refused => ?_
  cases created with
  | error => exact fun _ same => by cases same
  | ok created => exact absurd rfl (refused created)

theorem openChecked_attaches {header : Header} (build : Build) (o : Options) (lockFd : Fd) (valid : Bool)
    (mapSize : Nat) (index gen : UInt32) :
    (openChecked build o lockFd file h valid mapSize index gen).Confined
      (Sys.Bounded file (g.slot g.count)) (Sys.Copied file bytes header)
      (fun returned => ∀ w, returned = .ok w → valid = true ∧ w = writerAttach lockFd file mapSize
        h.slotCount h.slotStride h.capacity h.configFlags index gen) := by
  have unmaps (old : Option FileId) (result : Except Code Writer) (refused : ∀ w, result ≠ .ok w) :
      (do
        if old.isSome then
          call (.munmap file)
        return result : Prog (Except Code Writer)).Confined (Sys.Bounded file (g.slot g.count))
          (Sys.Copied file bytes header) (fun returned => ∀ w, returned = .ok w → valid = true ∧
            w = writerAttach lockFd file mapSize h.slotCount h.slotStride h.capacity h.configFlags
              index gen) := by
    split
    · exact Program.Confined.bind (Program.Confined.perform trivial) fun _ _ w same =>
        absurd same (refused w)
    · exact fun w same => absurd same (refused w)
  have creates (old : Option FileId) :=
    (createFile_refused build o lockFd old gen).bind fun result refused => unmaps old result refused
  have state : Sys.Bounded file (g.slot g.count) (.load file Offset.state) := by
    have header := g.header_inside
    exact ⟨rfl, by simp only [Offset.state]; omega⟩
  unfold openChecked
  dsimp only
  split
  · split
    · exact creates _
    · exact unmaps _ _ fun _ same => by cases same
  next accepted =>
  refine Program.Confined.bind (Program.Confined.perform state) fun flags _ => ?_
  split
  · exact creates _
  split
  · split
    · exact creates _
    · exact unmaps _ _ fun _ same => by cases same
  split
  · exact creates _
  · intro w same
    cases same
    exact ⟨by simpa using accepted, rfl⟩

theorem openMapped_fits {header : Header} (build : Build) (o : Options) (lockFd : Fd) {valid : Bool}
    (mapSize : Nat) (described : valid = true → h.Describes g) :
    (openMapped build o lockFd file h valid mapSize).Confined (Sys.Bounded file (g.slot g.count))
      (Sys.Copied file bytes header) (fun returned => ∀ w, returned = .ok w →
        valid = true ∧ w.Fits g ∧ w.file = file ∧ w.mapSize = mapSize) := by
  have load : Sys.Bounded file (g.slot g.count) (.load file Offset.latest) := by
    have header := g.header_inside
    exact ⟨rfl, by simp only [Offset.latest]; omega⟩
  unfold openMapped
  cases valid with
  | false =>
      refine (randomGeneration_bounded file).confined.bind fun gen _ => ?_
      exact (openChecked_attaches _ _ _ _ _ _ _).mono fun returned attached w same =>
        absurd (attached w same).1 Bool.false_ne_true
  | true =>
      obtain ⟨count, stride, capacity⟩ := described rfl
      refine Program.Confined.bind (Program.Confined.perform load) fun latest _ => ?_
      dsimp only
      rw [Bool.true_and]
      split
      · next known =>
          have inside := openedIndex_lt (count ▸ known)
          rw [stride]
          refine (carriedGeneration_bounded inside).confined.bind fun gen _ => ?_
          refine (openChecked_attaches _ _ _ _ _ _ _).mono fun returned attached w same => ?_
          obtain ⟨-, rfl⟩ := attached w same
          exact ⟨rfl, ⟨count, stride, capacity, inside, .inl rfl⟩, rfl, rfl⟩
      · next unknown =>
          refine (randomGeneration_bounded file).confined.bind fun gen _ => ?_
          exact (openChecked_attaches _ _ _ _ _ _ _).mono fun returned attached w same =>
            absurd (attached w same).1 unknown

theorem mapData_fits {header : Header} (build : Build) (o : Options) (lockFd : Fd) {valid : Bool}
    (mapSize : Nat) (described : valid = true → h.Describes g) :
    (mapData build o lockFd file h valid mapSize).Confined (Sys.Bounded file (g.slot g.count))
      (Sys.Copied file bytes header) (fun returned => ∀ w, returned = .ok w →
        valid = true ∧ w.Fits g ∧ w.file = file ∧ w.mapSize = mapSize) := by
  have opens := @openMapped_fits g h bytes file header build o lockFd valid mapSize described
  unfold mapData
  split
  · refine Program.Confined.bind (Program.Confined.perform trivial) fun mapped _ => ?_
    split
    · exact Program.Confined.bind (Program.Confined.perform trivial) fun _ _ w same => by cases same
    · exact Program.Confined.bind (Program.Confined.perform trivial) fun _ _ => opens
  · exact Program.Confined.bind (Program.Confined.perform trivial) fun _ _ => opens

theorem openData_fits (valid : headerValid h bytes = true) (described : h.Describes g)
    (build : Build) (o : Options) (lockFd : Fd) :
    (openData build o lockFd).Confined (Sys.Bounded file (g.slot g.count)) (Sys.Copied file bytes h)
      (fun returned => ∀ w, returned = .ok w →
        w.Fits g ∧ w.file = file ∧ w.mapSize = g.slot g.count) := by
  unfold openData
  refine Program.Confined.bind (Program.Confined.perform trivial) fun found same => ?_
  split
  · refine (randomGeneration_bounded file).confined.bind fun gen _ => ?_
    exact (createFile_refused _ _ _ _ _).mono fun returned refused w opened =>
      absurd opened (refused w)
  · exact fun w opened => by cases opened
  next fd =>
  obtain rfl := same fd rfl
  refine Program.Confined.bind readHeader_copied fun copy copied => ?_
  obtain ⟨code, size, header⟩ := copy
  dsimp only at copied ⊢
  split
  · exact Program.Confined.bind (Program.Confined.perform trivial) fun _ _ w opened => by cases opened
  have read : (code == .ok && headerValid header size) = true → code = .ok := fun accepted =>
    eq_of_beq (Bool.and_eq_true_iff.mp accepted).1
  refine (mapData_fits _ _ _ _ fun accepted => ?_).mono fun returned fits w opened => ?_
  · obtain ⟨rfl, rfl⟩ := Prod.mk.inj (copied (read accepted))
    exact described
  · obtain ⟨accepted, fits, named, mapped⟩ := fits w opened
    obtain ⟨rfl, rfl⟩ := Prod.mk.inj (copied (read accepted))
    refine ⟨fits, named, mapped.trans ?_⟩
    rw [if_pos accepted, described.slotCount, described.slotStride, g.toSize_fileSize]

end Opening

/-- With the geometry of a header that passes its checks, computed exactly, every access of
`read_latest` and of an attached writer is inside the file, whatever is loaded; and that is the
geometry of the readers that attach to the file and of the writers `open_data` reuses it for. -/
theorem accesses_in_bounds {h : Header} {bytes : Nat} (valid : headerValid h bytes = true) :
    ∃ g : Geometry, h.slotCount = g.slotCount ∧ h.slotStride = g.slotStride ∧
      h.capacity = g.capacity ∧
      h.slotStride.toNat = (h.capacity.toNat + 95) / 64 * 64 ∧
      (psmiFileSize h.slotCount h.slotStride).toNat =
        128 + h.slotCount.toNat * h.slotStride.toNat ∧
      toSize (psmiFileSize h.slotCount h.slotStride).toNat =
        (psmiFileSize h.slotCount h.slotStride).toNat ∧
      (psmiFileSize h.slotCount h.slotStride).toNat ≤ bytes ∧
      (∀ i < h.slotCount, toSize (i.toNat * h.slotStride.toNat) = i.toNat * h.slotStride.toNat) ∧
      (∀ {r : Reader} {file buffer size copy}, r.Fits g → buffer.length = size.toNat →
        (readLatest r file buffer size copy).Always
          (Sys.Bounded file (psmiFileSize h.slotCount h.slotStride).toNat)
          (fun result => Overwritten buffer (min size.toNat h.capacity.toNat) result.2.2)) ∧
      (∀ {r : Reader} {file}, (attach r).Confined
        (Sys.Bounded file (psmiFileSize h.slotCount h.slotStride).toNat) (Sys.Copied file bytes h)
        (fun returned => returned.1 = .ok → returned.2.Fits g ∧ returned.2.file = some file ∧
          returned.2.mapSize = (psmiFileSize h.slotCount h.slotStride).toNat)) ∧
      (∀ {build o lockFd file}, (openData build o lockFd).Confined
        (Sys.Bounded file (psmiFileSize h.slotCount h.slotStride).toNat) (Sys.Copied file bytes h)
        (fun returned => ∀ w, returned = .ok w → w.Fits g ∧ w.file = file ∧
          w.mapSize = (psmiFileSize h.slotCount h.slotStride).toNat)) ∧
      (∀ {w : Writer} {request}, w.Fits g → (Handle.writer w).accepts request →
        ((Handle.writer w).program request).Always
          (Sys.Bounded w.file (psmiFileSize h.slotCount h.slotStride).toNat)
          (fun returned => ∀ after, returned.1 = .writer after →
            after.Fits g ∧ after.file = w.file)) := by
  have bounded := (headerValid_iff.mp valid).2.2.2.2.2.2.1
  have aligned := (headerValid_iff.mp valid).2.2.2.2.2.2.2.1
  obtain ⟨g, count, stride, capacity, room⟩ := Geometry.of_headerValid valid
  have size : (psmiFileSize h.slotCount h.slotStride).toNat = g.slot g.count := by
    rw [psmiFileSize_toNat, count, stride]
    rfl
  refine ⟨g, count, stride, capacity, ?_, psmiFileSize_toNat _ _, ?_, ?_, ?_, ?_, ?_, ?_, ?_⟩
  · rw [aligned]
    exact psmiSlotStride_toNat bounded
  · rw [size, ← g.toSize_fileSize, ← count, ← stride, size]
    exact Nat.mod_mod _ _
  · rw [size]
    exact room
  · intro i inside
    have most := g.le_sixteen
    have below : i.toNat < g.slotCount.toNat := by
      rw [← count]
      exact UInt32.lt_iff_toNat_lt.mp inside
    have product : i.toNat * h.slotStride.toNat ≤ 16 * 16777280 := by
      rw [stride]
      exact Nat.mul_le_mul (by omega) g.stride_bounds.2
    exact Nat.mod_eq_of_lt (by omega)
  · intro r file buffer length copy fits whole
    rw [size, capacity]
    exact readLoop_bounded fits readRetries whole
  · intro r file
    rw [size]
    exact attach_fits valid ⟨count, stride, capacity⟩
  · intro build o lockFd file
    rw [size]
    exact openData_fits valid ⟨count, stride, capacity⟩ build o lockFd
  · intro w request fits accepted
    rw [size]
    exact writer_bounded fits accepted

/-- A read of a file with room for eight bytes, into a buffer of three, and a publish to it. -/
theorem accesses_in_bounds_eight :
    headerValid ⟨psmiMagic, psmiVersionMajor, 0, 128, 32, 2, 64, 8, 0, 0⟩ 256 = true ∧
      (readLatest ⟨some 0, 256, 2, 64, 8, 0, 0, true, 0⟩ 0 [1, 2, 3] 3 true).Always
        (Sys.Bounded 0 256) (fun result => Overwritten [1, 2, 3] 3 result.2.2) ∧
      ((Handle.writer (writerAttach 0 0 256 2 64 8 0 1 5)).program
        (.publish (some [4, 5, 6]) 3)).Always (Sys.Bounded 0 256) (fun _ => True) := by
  have valid : headerValid ⟨psmiMagic, psmiVersionMajor, 0, 128, 32, 2, 64, 8, 0, 0⟩ 256 = true := by
    decide
  obtain ⟨g, count, stride, capacity, -, -, -, -, -, read, -, -, write⟩ := accesses_in_bounds valid
  have inside : (1 : UInt32).toNat < g.count := by
    rw [Geometry.count, ← count]
    decide
  refine ⟨valid, ?_, ?_⟩
  · exact @read ⟨some 0, 256, 2, 64, 8, 0, 0, true, 0⟩ 0 [1, 2, 3] 3 true ⟨count, stride, capacity⟩ rfl
  · refine (@write (writerAttach 0 0 256 2 64 8 0 1 5) (.publish (some [4, 5, 6]) 3)
      ⟨count, stride, capacity, .inr inside, .inl rfl⟩ ?_).mono fun _ _ => trivial
    exact fun _ given => by cases given; decide

end PsMsgr
