import PsMsgr.State.Reader
import PsMsgr.State.Writer

namespace PsMsgr

open Effect

/-! # What handles ask for

`read_header` and `read_latest` only look at one file, whatever they find in it; attaching and
detaching is all a reader does besides.  A writer stores in the one file it has mapped.
-/

section Copies

variable {permitted : Sys → Prop} {file : FileId} {offset count : Nat} {bytes : List UInt8}

theorem loadBytes_always (each : ∀ address, offset ≤ address → address < offset + count →
    permitted (.loadByte file address)) :
    (loadBytes file offset count).Always permitted (fun bytes => bytes.length = count) := by
  induction count generalizing offset with
  | zero => rfl
  | succ count ih =>
      have first := each offset (Nat.le_refl _) (by omega)
      have rest := ih fun address lower upper => each address (Nat.le_of_succ_le lower) (by omega)
      refine Program.Always.bind (Program.Always.perform first) fun _ _ => ?_
      exact rest.bind fun _ length => congrArg Nat.succ length

theorem storeBytes_always (each : ∀ address byte, offset ≤ address →
    address < offset + bytes.length → permitted (.storeByte file address byte)) :
    (storeBytes file offset bytes).Always permitted (fun _ => True) := by
  induction bytes generalizing offset with
  | nil => trivial
  | cons byte bytes ih =>
      rw [List.length_cons] at each
      have first := each offset byte (Nat.le_refl _) (by omega)
      have rest := ih fun address byte lower upper =>
        each address byte (Nat.le_of_succ_le lower) (by omega)
      exact Program.Always.bind (Program.Always.perform first) fun _ _ => rest

end Copies

/-- The calls that look at the file are permitted. -/
structure Looks (permitted : Sys → Prop) (file : FileId) : Prop where
  fstat : permitted (.fstat file)
  pread : ∀ offset count, permitted (.pread file offset count)
  load : ∀ offset, permitted (.load file offset)
  loadByte : ∀ offset, permitted (.loadByte file offset)
  schedYield : permitted .schedYield

/-- What `read_latest` returns: its infos carry no flags yet, for a peek everything fits, and a
value that is too large is larger than the buffer. -/
structure LatestEnd (size : UInt32) (copy : Bool) (code : Code) (info : Option Info) : Prop where
  flagless : code = .ok ∨ code = .toosmall → ∃ found, info = some found ∧ found.flags = 0
  fits : copy = false → code ≠ .toosmall
  large : code = .toosmall → ∀ found, info = some found → size < found.length

theorem LatestEnd.unsuccessful {size : UInt32} {copy : Bool} {code : Code} {info : Option Info}
    (failed : code ≠ .ok) (fits : code ≠ .toosmall) : LatestEnd size copy code info :=
  ⟨fun success => (success.elim failed fits).elim, fun _ => fits, fun large => absurd large fits⟩

namespace Looks

variable {permitted : Sys → Prop} {file : FileId} {r : Reader} {size : UInt32} {copy : Bool}

theorem loadBytes (looks : Looks permitted file) (offset count : Nat) :
    (PsMsgr.loadBytes file offset count).Always permitted (fun _ => True) :=
  (loadBytes_always fun address _ _ => looks.loadByte address).mono fun _ _ => trivial

theorem readHeader (looks : Looks permitted file) :
    (PsMsgr.readHeader file).Always permitted (fun outcome => outcome.1 ≠ .toosmall) := by
  unfold PsMsgr.readHeader
  refine (Program.Always.perform looks.fstat).bind fun reply _ => ?_
  split
  · exact nofun
  split
  · exact nofun
  refine (Program.Always.perform (looks.pread 0 _)).bind fun reply _ => ?_
  split
  · exact nofun
  split
  · exact nofun
  · exact nofun

theorem retired (looks : Looks permitted file) :
    (PsMsgr.retired file).Always permitted (fun _ => True) :=
  (Program.Always.perform (looks.load _)).bind fun _ _ => trivial

/-- A turn may end the loop, but not for want of luck; one that finds a value too large has
copied nothing. -/
structure TurnEnd (size : UInt32) (copy : Bool) (given : List UInt8) (code : Code) (info : Option Info)
    (buffer : List UInt8) : Prop where
  latest : LatestEnd size copy code info
  retried : code ≠ .busy
  unread : code = .toosmall → buffer = given

/-- What is true of a turn that ends the loop. -/
def Ending (size : UInt32) (copy : Bool) (given : List UInt8) (turn : Attempt) : Prop :=
  ∀ code info buffer, turn = .result code info buffer → TurnEnd size copy given code info buffer

theorem TurnEnd.unsuccessful {given buffer : List UInt8} {code : Code} {info : Option Info}
    (failed : code ≠ .ok) (fits : code ≠ .toosmall) (retried : code ≠ .busy) :
    TurnEnd size copy given code info buffer :=
  ⟨.unsuccessful failed fits, retried, fun large => absurd large fits⟩

/-- The buffer is as given, unless the value fits. -/
theorem recheck (looks : Looks permitted file) {s : Nat} {q1 : UInt32} {m : SlotCopy}
    {given buffer : List UInt8} (unread : ¬(!copy || m.length ≤ size) = true → buffer = given) :
    (PsMsgr.recheck r file s q1 m buffer size copy).Always permitted (Ending size copy given) := by
  refine (Program.Always.perform (looks.load s)).bind fun q2 _ => ?_
  dsimp only
  split
  · split
    · rintro code info buffer ⟨⟩
      exact .unsuccessful nofun nofun nofun
    · rintro code info buffer ⟨⟩
      refine ⟨⟨fun _ => ⟨_, rfl, rfl⟩, fun peeks => ?_, ?_⟩, ?_, fun large => unread fun fits => ?_⟩
      · subst peeks
        nofun
      · rintro large found ⟨⟩
        split at large
        · exact nomatch large
        · next long =>
            simp only [Bool.or_eq_true, decide_eq_true_eq, not_or] at long
            exact UInt32.not_le.mp long.2
      · split <;> nofun
      · rw [if_pos fits] at large
        exact nomatch large
  · exact nofun

theorem readAttempt (looks : Looks permitted file) (buffer : List UInt8) :
    (PsMsgr.readAttempt r file buffer size copy).Always permitted (Ending size copy buffer) := by
  unfold PsMsgr.readAttempt
  refine (Program.Always.perform (looks.load Offset.latest)).bind fun latest _ => ?_
  split
  · rintro code info buffer ⟨⟩
    exact .unsuccessful nofun nofun nofun
  split
  · rintro code info buffer ⟨⟩
    exact .unsuccessful nofun nofun nofun
  refine (Program.Always.perform (looks.load _)).bind fun q1 _ => ?_
  split
  · refine (looks.loadBytes _ _).bind fun bytes _ => ?_
    dsimp only
    split
    · next copies =>
        refine (looks.loadBytes _ _).bind fun payload _ => looks.recheck fun large => ?_
        simp only [Bool.and_eq_true, decide_eq_true_eq] at copies
        exact absurd (by simp [copies.1.2]) large
    · exact looks.recheck fun _ => rfl
  · exact nofun

theorem readLoop (looks : Looks permitted file) (tries : Nat) (buffer : List UInt8) :
    (PsMsgr.readLoop r file size copy tries buffer).Always permitted
      (fun outcome => LatestEnd size copy outcome.1 outcome.2.1) := by
  induction tries generalizing buffer with
  | zero => exact .unsuccessful nofun nofun
  | succ tries ih =>
      rw [PsMsgr.readLoop]
      refine (looks.readAttempt buffer).bind fun turn ended => ?_
      split
      · exact (ended _ _ _ rfl).latest
      · split
        · exact (Program.Always.perform looks.schedYield).bind fun _ _ => ih _
        · exact ih _

end Looks

/-- So are the calls with which a reader attaches and detaches, whichever file it finds. -/
structure Syncs (permitted : Sys → Prop) : Prop where
  openData : permitted .openData
  lstatData : permitted .lstatData
  mmap : ∀ file size, permitted (.mmap file size)
  munmap : ∀ file, permitted (.munmap file)
  close : ∀ file, permitted (.close file)
  looks : ∀ file, Looks permitted file

namespace Syncs

variable {permitted : Sys → Prop} {r : Reader}

theorem detach (syncs : Syncs permitted) (map : FileId) :
    (PsMsgr.detach r map).Always permitted (fun _ => True) :=
  (Program.Always.perform (syncs.munmap map)).bind fun _ _ => trivial

theorem attach (syncs : Syncs permitted) :
    (PsMsgr.attach r).Always permitted (fun _ => True) := by
  have closes (file : FileId) (outcome : Code × Reader) :
      (do call (.close file); return outcome).Always permitted (fun _ => True) :=
    (Program.Always.perform (syncs.close file)).bind fun _ _ => trivial
  unfold PsMsgr.attach
  refine (Program.Always.perform syncs.openData).bind fun reply _ => ?_
  split
  · trivial
  · trivial
  refine (syncs.looks _).readHeader.bind fun header _ => ?_
  dsimp only
  split
  · exact closes _ _
  split
  · exact closes _ _
  refine (Program.Always.perform (syncs.mmap _ _)).bind fun reply _ => ?_
  split
  · exact closes _ _
  · exact closes _ _

theorem attachLoop (syncs : Syncs permitted) (tries : Nat) :
    (PsMsgr.attachLoop r tries).Always permitted (fun _ => True) := by
  induction tries generalizing r with
  | zero => trivial
  | succ tries ih =>
      rw [PsMsgr.attachLoop]
      refine syncs.attach.bind fun outcome _ => ?_
      dsimp only
      split
      · refine (syncs.looks _).retired.bind fun retired _ => ?_
        split
        · trivial
        · exact (syncs.detach _).bind fun _ _ => ih
      · trivial

theorem readerSync (syncs : Syncs permitted) :
    (PsMsgr.readerSync r).Always permitted (fun _ => True) := by
  unfold PsMsgr.readerSync
  split
  · refine (syncs.looks _).retired.bind fun retired _ => ?_
    split
    · trivial
    · exact (syncs.detach _).bind fun _ _ => syncs.attachLoop _
  · exact syncs.attachLoop _

theorem identityCheck (syncs : Syncs permitted) :
    (PsMsgr.identityCheck r).Always permitted (fun _ => True) := by
  unfold PsMsgr.identityCheck
  split
  · trivial
  refine (Program.Always.perform syncs.lstatData).bind fun reply _ => ?_
  split
  · split
    · trivial
    · exact (syncs.detach _).bind fun _ _ => trivial
  · exact (syncs.detach _).bind fun _ _ => trivial
  · trivial

theorem readLatest (syncs : Syncs permitted) (map : FileId) (buffer : List UInt8) (size : UInt32)
    (copy : Bool) : (PsMsgr.readLatest r map buffer size copy).Always permitted (fun _ => True) :=
  ((syncs.looks map).readLoop readRetries buffer).mono fun _ _ => trivial

theorem psmsgrStateRead (syncs : Syncs permitted) (buffer : Option (List UInt8)) (size : UInt32) :
    (PsMsgr.psmsgrStateRead r buffer size).Always permitted (fun _ => True) := by
  unfold PsMsgr.psmsgrStateRead
  split
  · trivial
  refine syncs.readerSync.bind fun synced _ => ?_
  dsimp only
  split
  · refine (syncs.readLatest _ _ _ _).bind fun found _ => ?_
    split <;> trivial
  · trivial

theorem psmsgrStatePeek (syncs : Syncs permitted) :
    (PsMsgr.psmsgrStatePeek r).Always permitted (fun _ => True) := by
  refine syncs.readerSync.bind fun synced _ => ?_
  dsimp only
  split
  · refine (syncs.readLatest _ _ _ _).bind fun found _ => ?_
    split <;> trivial
  · trivial

theorem psmsgrStateDescribe (syncs : Syncs permitted) :
    (PsMsgr.psmsgrStateDescribe r).Always permitted (fun _ => True) := by
  refine syncs.readerSync.bind fun synced _ => ?_
  dsimp only
  split <;> trivial

theorem psmsgrStateReaderClose (syncs : Syncs permitted) :
    (PsMsgr.psmsgrStateReaderClose r).Always permitted (fun _ => True) := by
  unfold PsMsgr.psmsgrStateReaderClose
  split
  · exact (syncs.detach _).bind fun _ _ => trivial
  · trivial

end Syncs

/-- So are the calls with which a reader waits. -/
structure Waits (permitted : Sys → Prop) : Prop extends Syncs permitted where
  clock : permitted (.clock .monotonic)
  futexWait : ∀ file expected timeoutNs, permitted (.futexWait file expected timeoutNs)
  futexSleep : permitted .futexSleep
  nanosleep : ∀ ns, permitted (.nanosleep ns)
  spin : permitted .spin

namespace Waits

variable {permitted : Sys → Prop} {r : Reader}

theorem sleeps (waits : Waits permitted) (map : FileId) (expected : UInt32) (timeoutNs : UInt64) :
    (PsMsgr.futexWait map expected timeoutNs).Always permitted (fun _ => True) := by
  refine (Program.Always.perform (waits.futexWait map expected timeoutNs)).bind fun reply _ => ?_
  split
  · trivial
  · exact Program.Always.perform waits.futexSleep

theorem waitLoop (waits : Waits permitted) (generation : UInt32) (deadline : UInt64) (turns : Nat) :
    (PsMsgr.waitLoop generation deadline turns r).Always permitted (fun _ => True) := by
  induction turns generalizing r with
  | zero => exact (Program.Always.perform waits.spin).bind fun reply _ => nomatch reply
  | succ turns ih =>
      rw [PsMsgr.waitLoop]
      refine waits.readerSync.bind fun synced _ => ?_
      dsimp only
      split
      · split
        · trivial
        refine (Program.Always.perform ((waits.looks _).load _)).bind fun n _ => ?_
        refine (waits.looks _).retired.bind fun retired _ => ?_
        split
        · exact ih
        refine (waits.readLatest _ _ _ _).bind fun found _ => ?_
        split
        · trivial
        split
        · trivial
        refine (Program.Always.perform waits.clock).bind fun now _ => ?_
        split
        · trivial
        refine (waits.sleeps _ _ _).bind fun woken _ => ?_
        split
        · exact ih
        · trivial
        · refine waits.identityCheck.bind fun checked _ => ?_
          split
          · trivial
          · exact ih
        · exact ih
        · trivial
      · refine (Program.Always.perform waits.clock).bind fun now _ => ?_
        split
        · trivial
        refine (Program.Always.perform (waits.nanosleep _)).bind fun interrupted _ => ?_
        split
        · trivial
        · exact ih
      · trivial

theorem psmsgrStateWait (waits : Waits permitted) (turns : Nat) (generation : UInt32)
    (timeoutMs : Int) :
    (PsMsgr.psmsgrStateWait turns r generation timeoutMs).Always permitted (fun _ => True) := by
  unfold PsMsgr.psmsgrStateWait
  split
  · exact waits.waitLoop _ _ _
  · exact (Program.Always.perform waits.clock).bind fun _ _ => waits.waitLoop _ _ _

end Waits

/-- So are the calls with which a reader asks for the writer. -/
structure Asks (permitted : Sys → Prop) : Prop extends Syncs permitted where
  openLock : permitted .openLock
  getLock : ∀ fd, permitted (.getLock fd)
  closeLock : ∀ fd, permitted (.closeLock fd)

theorem Asks.psmsgrStateWriterAlive {permitted : Sys → Prop} {r : Reader}
    (asks : Asks permitted) :
    (PsMsgr.psmsgrStateWriterAlive r).Always permitted (fun _ => True) := by
  unfold PsMsgr.psmsgrStateWriterAlive
  refine asks.identityCheck.bind fun checked _ => ?_
  dsimp only
  split
  · trivial
  refine asks.readerSync.bind fun synced _ => ?_
  refine (Program.Always.perform asks.openLock).bind fun opened _ => ?_
  split
  · trivial
  · trivial
  refine (Program.Always.perform (asks.getLock _)).bind fun conflict _ => ?_
  refine (Program.Always.perform (asks.closeLock _)).bind fun _ _ => ?_
  split
  · trivial
  · trivial

/-- The calls that publish in the file are permitted. -/
structure Stores (permitted : Sys → Prop) (file : FileId) : Prop where
  load : ∀ offset, permitted (.load file offset)
  store : ∀ offset value, permitted (.store file offset value)
  storeByte : ∀ offset byte, permitted (.storeByte file offset byte)
  clock : permitted (.clock .monotonic)
  fetchAdd : ∀ offset value, permitted (.fetchAdd file offset value)
  futexWake : permitted (.futexWake file)

theorem stores_any (file : FileId) : Stores (fun _ => True) file :=
  ⟨fun _ => trivial, fun _ _ => trivial, fun _ _ => trivial, trivial, fun _ _ => trivial, trivial⟩

namespace Stores

variable {permitted : Sys → Prop} {file : FileId} {w : Writer}

theorem storeBytes (stores : Stores permitted file) (offset : Nat) (bytes : List UInt8) :
    (PsMsgr.storeBytes file offset bytes).Always permitted (fun _ => True) :=
  storeBytes_always fun address byte _ _ => stores.storeByte address byte

theorem beginSlot (stores : Stores permitted w.file) :
    (PsMsgr.beginSlot w).Always permitted (fun begun =>
      ∃ seq, begun = { w with openSlot := slotAfter w.latest w.slotCount, openSeq := seq }) := by
  refine (Program.Always.perform (stores.load _)).bind fun _ _ => ?_
  exact (Program.Always.perform (stores.store _ _)).bind fun _ _ => ⟨_, rfl⟩

theorem commitSlot (stores : Stores permitted w.file) (len : UInt32) :
    (PsMsgr.commitSlot w len).Always permitted (fun returned => returned = (w.gen, { w with
      latest := w.openSlot, openSlot := psmiLatestNone, gen := nextGeneration w.gen })) := by
  unfold PsMsgr.commitSlot
  refine (stores.storeBytes _ _).bind fun _ _ => ?_
  refine (stores.storeBytes _ _).bind fun _ _ => ?_
  refine (Program.Always.perform stores.clock).bind fun timestamp _ => ?_
  refine (stores.storeBytes _ _).bind fun _ _ => ?_
  refine (Program.Always.perform (stores.store _ _)).bind fun _ _ => ?_
  refine (Program.Always.perform (stores.store _ _)).bind fun _ _ => ?_
  dsimp only
  split
  · refine (Program.Always.perform (stores.fetchAdd _ _)).bind fun _ _ => ?_
    exact (Program.Always.perform stores.futexWake).bind fun _ _ => rfl
  · rfl

theorem psmsgrStatePublish (stores : Stores permitted w.file) (data : Option (List UInt8))
    (len : UInt32) :
    (PsMsgr.psmsgrStatePublish w data len).Always permitted (fun returned =>
      returned.2.2.file = w.file) := by
  unfold PsMsgr.psmsgrStatePublish
  split
  · exact rfl
  split
  · exact rfl
  split
  · exact rfl
  refine stores.beginSlot.bind ?_
  rintro _ ⟨seq, rfl⟩
  have begun : Stores permitted ({ w with openSlot := slotAfter w.latest w.slotCount, openSeq := seq } :
    Writer).file := stores
  refine (begun.storeBytes _ _).bind fun _ _ => ?_
  refine (begun.commitSlot len).bind ?_
  rintro _ rfl
  exact rfl

theorem psmsgrStateCommit (stores : Stores permitted w.file) (len : UInt32) :
    (PsMsgr.psmsgrStateCommit w len).Always permitted (fun returned =>
      returned.2.2.file = w.file) := by
  unfold PsMsgr.psmsgrStateCommit
  split
  · exact rfl
  split
  · exact rfl
  refine (stores.commitSlot _).bind ?_
  rintro _ rfl
  exact rfl

theorem psmsgrStateBegin (stores : Stores permitted w.file) :
    (PsMsgr.psmsgrStateBegin w).Always permitted (fun returned => returned.2.file = w.file) := by
  unfold PsMsgr.psmsgrStateBegin
  split
  · exact rfl
  refine stores.beginSlot.bind ?_
  rintro _ ⟨seq, rfl⟩
  exact rfl

theorem psmsgrStateAbort (w : Writer) :
    (PsMsgr.psmsgrStateAbort w).Always permitted (fun returned => returned.2.file = w.file) := by
  unfold PsMsgr.psmsgrStateAbort
  split <;> exact rfl

end Stores

end PsMsgr
