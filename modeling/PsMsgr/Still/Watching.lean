import PsMsgr.Channel.System
import PsMsgr.State.Looking

namespace PsMsgr

open Effect Data

/-! # What a reader can see

A reader's calls touch only the file at the data path and the file it is attached to, so two
worlds that agree on these are the same to it.
-/

/-- The calls readers make, on the files they know. -/
def Sys.Watches (known : FileId → Prop) : Sys → Prop
  | .openData | .lstatData | .futexSleep | .clock _ | .nanosleep _ | .schedYield | .spin => True
  | .fstat file | .pread file _ _ | .mmap file _ | .munmap file | .close file | .load file _
  | .loadByte file _ | .futexWait file _ _ => known file
  | _ => False

/-- Files are found at the data path only. -/
def Sys.Finds (known : FileId → Prop) : (request : Sys) → request.Reply → Prop
  | .openData, reply => ∀ file, reply = .ok file → known file
  | _, _ => True

/-- The reader is attached to a file it knows, if to any. -/
def Reader.Knows (known : FileId → Prop) (r : Reader) : Prop :=
  ∀ file, r.file = some file → known file

theorem Reader.knows_of_detached {known : FileId → Prop} {r : Reader} (detached : r.file = none) :
    r.Knows known := by
  intro file named
  rw [detached] at named
  cases named

/-- The worlds agree on the files known to the reader. -/
structure SameView (thread : Tid) (known : FileId → Prop) (world other : World) : Prop where
  data : other.disk.data = world.disk.data
  named : ∀ file, world.disk.data = some file → known file
  files : ∀ file, known file → other.disk.files file = world.disk.files file
  asleep : other.asleep thread = world.asleep thread
  now : other.now = world.now

section

variable {thread : Tid} {known : FileId → Prop} {world other after : World}

theorem SameView.symm (same : SameView thread known world other) :
    SameView thread known other world where
  data := same.data.symm
  named := fun file named => same.named file (same.data.symm.trans named)
  files := fun file member => (same.files file member).symm
  asleep := same.asleep.symm
  now := same.now.symm

theorem SameView.setLog (same : SameView thread known world other) (log log' : Log) :
    SameView thread known (world.setLog thread log) (other.setLog thread log') :=
  ⟨same.data, same.named, same.files, same.asleep, same.now⟩

theorem setAsleep_asleep (world : World) (file : Option FileId) :
    (world.setAsleep thread file).asleep thread = file := Function.update_self _ _ _

theorem SameView.step {request : Sys} {reply : request.Reply} (watches : request.Watches known)
    (same : SameView thread known world other) (executed : exec thread request world reply after) :
    request.Finds known reply ∧
      ∃ later, exec thread request other reply later ∧ SameView thread known after later := by
  have memory : ∀ file, known file → other.disk.memory file = world.disk.memory file :=
    fun file member => congrArg File.bytes (same.files file member)
  cases request with
  | openData =>
      rcases executed with ⟨file, named, rfl, rfl⟩ | ⟨absent, rfl, rfl⟩ | ⟨rfl, rfl⟩
      · refine ⟨fun found here => ?_, _, .inl ⟨file, same.data.trans named, rfl, rfl⟩,
          same.setLog _ _⟩
        obtain rfl := Except.ok.inj here
        exact same.named file named
      · exact ⟨nofun, _, .inr (.inl ⟨same.data.trans absent, rfl, rfl⟩), same.setLog _ _⟩
      · exact ⟨nofun, _, .inr (.inr ⟨rfl, rfl⟩), same⟩
  | lstatData =>
      rcases executed with ⟨file, named, rfl, rfl⟩ | ⟨absent, rfl, rfl⟩ | ⟨rfl, rfl⟩
      · exact ⟨trivial, _, .inl ⟨file, same.data.trans named, rfl, rfl⟩, same⟩
      · exact ⟨trivial, _, .inr (.inl ⟨same.data.trans absent, rfl, rfl⟩), same⟩
      · exact ⟨trivial, _, .inr (.inr ⟨rfl, rfl⟩), same⟩
  | fstat file =>
      rcases executed with ⟨rfl, rfl⟩ | ⟨rfl, rfl⟩
      · rw [← same.files file watches]
        exact ⟨trivial, _, .inl ⟨rfl, rfl⟩, same⟩
      · exact ⟨trivial, _, .inr ⟨rfl, rfl⟩, same⟩
  | pread file offset count =>
      rcases executed with ⟨rfl, rfl⟩ | ⟨rfl, rfl⟩
      · rw [← memory file watches, ← same.files file watches]
        exact ⟨trivial, _, .inl ⟨rfl, rfl⟩, same⟩
      · exact ⟨trivial, _, .inr ⟨rfl, rfl⟩, same⟩
  | mmap file size =>
      rcases executed with ⟨rfl, rfl⟩ | ⟨rfl, rfl⟩
      · exact ⟨trivial, _, .inl ⟨rfl, rfl⟩, same⟩
      · exact ⟨trivial, _, .inr ⟨rfl, rfl⟩, same⟩
  | munmap file | close file | nanosleep ns | schedYield =>
      obtain rfl := executed
      exact ⟨trivial, _, rfl, same⟩
  | load file offset =>
      obtain ⟨rfl, rfl⟩ := executed
      rw [← memory file watches]
      exact ⟨trivial, _, ⟨rfl, rfl⟩, same.setLog _ _⟩
  | loadByte file offset =>
      obtain ⟨rfl, rfl⟩ := executed
      rw [← memory file watches]
      exact ⟨trivial, _, ⟨rfl, rfl⟩, same⟩
  | futexWait file expected timeout =>
      have word : (other.disk.memory file).word32 Offset.notify =
        (world.disk.memory file).word32 Offset.notify := by rw [memory file watches]
      rcases executed with ⟨equal, rfl, rfl⟩ | ⟨differs, rfl, rfl⟩ | ⟨rfl, rfl⟩
      · refine ⟨trivial, _, .inl ⟨word.trans equal, rfl, rfl⟩, same.data, same.named, same.files, ?_,
          same.now⟩
        rw [setAsleep_asleep, setAsleep_asleep]
      · exact ⟨trivial, _, .inr (.inl ⟨word ▸ differs, rfl, rfl⟩), same⟩
      · exact ⟨trivial, _, .inr (.inr ⟨rfl, rfl⟩), same⟩
  | futexSleep =>
      rcases executed with ⟨woken, rfl, rfl⟩ | ⟨reason, rfl⟩
      · exact ⟨trivial, _, .inl ⟨same.asleep.trans woken, rfl, rfl⟩, same⟩
      · refine ⟨trivial, _, .inr ⟨reason, rfl⟩, same.data, same.named, same.files, ?_, same.now⟩
        rw [setAsleep_asleep, setAsleep_asleep]
  | clock which =>
      cases which with
      | monotonic =>
          obtain ⟨later, rfl⟩ := executed
          exact ⟨trivial, _, ⟨same.now ▸ later, rfl⟩, same.data, same.named, same.files,
            same.asleep, rfl⟩
      | realtime =>
          obtain rfl := executed
          exact ⟨trivial, _, rfl, same⟩
  | spin => exact executed.elim
  | _ => exact watches.elim

section Programs

variable {α : Type} {r : Reader} {file : FileId}

/-- The program keeps to the known files as long as it finds only such. -/
def Watching (known : FileId → Prop) (result : α → Prop) (program : Prog α) : Prop :=
  program.Confined (Sys.Watches known) (Sys.Finds known) result

theorem watching_call (request : Sys) (watches : request.Watches known) :
    Watching known (request.Finds known) (call request) :=
  Program.Confined.perform watches

theorem looks_watches (member : known file) : Looks (Sys.Watches known) file :=
  ⟨member, fun _ _ => member, fun _ => member, fun _ => member, trivial⟩

theorem watching_readHeader (member : known file) :
    Watching known (fun outcome => outcome.1 ≠ .toosmall) (readHeader file) :=
  (looks_watches member).readHeader.confined

theorem watching_detach (member : known file) :
    Watching known (fun after => after.file = none) (detach r file) :=
  (watching_call (.munmap file) member).bind fun _ _ => rfl

theorem watching_attach (knows : r.Knows known) :
    Watching known (fun attached => attached.2.Knows known) (attach r) := by
  unfold attach
  refine (watching_call .openData trivial).bind fun reply found => ?_
  split
  · exact knows
  · exact knows
  next file =>
  have member : known file := found file rfl
  refine (watching_readHeader member).bind fun header _ => ?_
  have closed : ∀ code, Watching known (fun attached : Code × Reader => attached.2.Knows known)
      (do call (.close file); return (code, r)) :=
    fun code => (watching_call (.close file) member).bind fun _ _ => knows
  dsimp only
  split
  · exact closed _
  split
  · exact closed _
  refine (watching_call (.mmap file _) member).bind fun reply _ => ?_
  split
  · exact closed _
  · refine (watching_call (.close file) member).bind fun _ _ => ?_
    rintro other same
    obtain rfl := Option.some.inj same
    exact member

theorem watching_retired (member : known file) :
    Watching known (fun _ => True) (retired file) :=
  (looks_watches member).retired.confined

theorem watching_attachLoop (knows : r.Knows known) (tries : Nat) :
    Watching known (fun attached => attached.2.Knows known) (attachLoop r tries) := by
  induction tries generalizing r with
  | zero => exact knows
  | succ tries ih =>
      rw [attachLoop]
      refine (watching_attach knows).bind fun attached knows => ?_
      obtain ⟨code, r⟩ := attached
      dsimp only
      split
      · next file named =>
          have member : known file := knows file named
          refine (watching_retired member).bind fun gone _ => ?_
          split
          · exact knows
          · refine (watching_detach member).bind fun after detached => ?_
            exact ih (Reader.knows_of_detached detached)
      · exact knows

theorem watching_readerSync (knows : r.Knows known) :
    Watching known (fun synced => synced.2.Knows known) (readerSync r) := by
  unfold readerSync
  split
  · next file named =>
      have member : known file := knows file named
      refine (watching_retired member).bind fun gone _ => ?_
      split
      · exact knows
      · refine (watching_detach member).bind fun after detached => ?_
        exact watching_attachLoop (Reader.knows_of_detached detached) _
  · exact watching_attachLoop knows _

theorem watching_identityCheck (knows : r.Knows known) :
    Watching known (fun checked => checked.2.Knows known) (identityCheck r) := by
  unfold identityCheck
  split
  · exact knows
  next file named =>
  have member : known file := knows file named
  have detached : Watching known (fun checked : Code × Reader => checked.2.Knows known)
      (do let r ← detach r file; return (.ok, r)) :=
    (watching_detach member).bind fun after detached => Reader.knows_of_detached detached
  refine (watching_call .lstatData trivial).bind fun reply _ => ?_
  split
  · split
    · exact knows
    · exact detached
  · exact detached
  · exact knows

theorem watching_readLoop {size : UInt32} {copy : Bool} (member : known file) (tries : Nat)
    (buffer : List UInt8) :
    Watching known (fun outcome => LatestEnd size copy outcome.1 outcome.2.1)
      (readLoop r file size copy tries buffer) :=
  ((looks_watches member).readLoop tries buffer).confined

theorem watching_futexWait (member : known file) (expected : UInt32) (timeout : UInt64) :
    Watching known (fun _ => True) (futexWait file expected timeout) := by
  unfold futexWait
  refine (watching_call (.futexWait file expected timeout) member).bind fun reply _ => ?_
  split
  · trivial
  · exact watching_call .futexSleep trivial

theorem watching_waitLoop (knows : r.Knows known) (lastGeneration : UInt32) (deadline : UInt64)
    (turns : Nat) :
    Watching known (fun waited => waited.2.Knows known)
      (waitLoop lastGeneration deadline turns r) := by
  induction turns generalizing r with
  | zero => exact ⟨trivial, fun reply => nomatch reply⟩
  | succ turns ih =>
      rw [waitLoop]
      refine (watching_readerSync knows).bind fun synced knows => ?_
      obtain ⟨code, r⟩ := synced
      dsimp only
      split
      · next file named =>
          have member : known file := knows file named
          split
          · exact knows
          refine (watching_call (.load file _) member).bind fun n _ => ?_
          refine (watching_retired member).bind fun gone _ => ?_
          split
          · exact ih knows
          refine (watching_readLoop member _ _).bind fun latest _ => ?_
          split
          · exact knows
          split
          · exact knows
          refine (watching_call (.clock .monotonic) trivial).bind fun now _ => ?_
          split
          · exact knows
          refine (watching_futexWait member _ _).bind fun woken _ => ?_
          split
          · exact ih knows
          · exact knows
          · refine (watching_identityCheck knows).bind fun checked knows => ?_
            split
            · exact knows
            · exact ih knows
          · exact ih knows
          · exact knows
      · refine (watching_call (.clock .monotonic) trivial).bind fun now _ => ?_
        split
        · exact knows
        refine (watching_call (.nanosleep _) trivial).bind fun interrupted _ => ?_
        split
        · exact knows
        · exact ih knows
      · exact knows

/-- The calls of a reader that do not ask for the writer. -/
def Request.Watching : Request → Prop
  | .read _ _ | .peek | .describe | .wait _ _ _ => True
  | _ => False

/-- The results of calls made one after the other. -/
def Handle.calls : Handle → List Request → Prog (List Result)
  | _, [] => return []
  | handle, request :: requests => do
      let (handle, result) ← handle.program request
      let results ← handle.calls requests
      return result :: results

theorem watching_program (knows : r.Knows known) {request : Request}
    (asked : request.Watching) :
    Watching known (fun returned => ∃ next, returned.1 = Handle.reader next ∧ next.Knows known)
      ((Handle.reader r).program request) := by
  have announced : ∀ {r : Reader} {info : Option Info}, r.Knows known →
      (announce r info).2.Knows known := by
    intro r info knows
    unfold announce
    split
    · exact knows
    · exact knows
  have read : ∀ buffer size,
      Watching known (fun returned => returned.2.Knows known) (psmsgrStateRead r buffer size) := by
    intro buffer size
    unfold psmsgrStateRead
    split
    · exact knows
    refine (watching_readerSync knows).bind fun synced knows => ?_
    obtain ⟨code, r⟩ := synced
    dsimp only
    split
    · next file named =>
        refine (watching_readLoop (knows file named) _ _).bind fun latest _ => ?_
        split
        · exact announced knows
        · exact knows
    · exact knows
  have peek : Watching known (fun returned => returned.2.Knows known) (psmsgrStatePeek r) := by
    unfold psmsgrStatePeek
    refine (watching_readerSync knows).bind fun synced knows => ?_
    obtain ⟨code, r⟩ := synced
    dsimp only
    split
    · next file named =>
        refine (watching_readLoop (knows file named) _ _).bind fun latest _ => ?_
        split
        · exact announced knows
        · exact knows
    · exact knows
  cases request with
  | read buffer size => exact (read buffer size).bind fun returned knows => ⟨_, rfl, knows⟩
  | peek => exact peek.bind fun returned knows => ⟨_, rfl, knows⟩
  | describe =>
      have described : Watching known (fun described => described.2.2.Knows known)
          (psmsgrStateDescribe r) := by
        refine (watching_readerSync knows).bind fun synced knows => ?_
        dsimp only
        split
        · exact knows
        · exact knows
      exact described.bind fun described knows => ⟨_, rfl, knows⟩
  | wait turns lastGeneration timeoutMs =>
      have waited : Watching known (fun waited => waited.2.Knows known)
          (psmsgrStateWait turns r lastGeneration timeoutMs) := by
        unfold psmsgrStateWait
        split
        · exact watching_waitLoop knows _ _ _
        · exact (watching_call (.clock .monotonic) trivial).bind fun now _ =>
            watching_waitLoop knows _ _ _
      exact waited.bind fun waited knows => ⟨_, rfl, knows⟩
  | _ => exact asked.elim

theorem watching_calls (knows : r.Knows known) {requests : List Request}
    (asked : ∀ request ∈ requests, request.Watching) :
    Watching known (fun _ => True) ((Handle.reader r).calls requests) := by
  induction requests generalizing r with
  | nil => trivial
  | cons request requests ih =>
      refine (watching_program knows (asked request List.mem_cons_self)).bind ?_
      rintro ⟨handle, result⟩ ⟨next, rfl, knows⟩
      exact (ih knows (fun request member => asked request (List.mem_cons_of_mem _ member))).bind
        fun results _ => trivial

end Programs

/-- A reader cannot tell the two worlds from each other. -/
theorem SameView.results {r : Reader} {requests : List Request} {results : List Result}
    (same : SameView thread known world other) (knows : r.Knows known)
    (asked : ∀ request ∈ requests, request.Watching) :
    (∃ after, ((Handle.reader r).calls requests).Runs (exec thread) world results after) ↔
      ∃ after, ((Handle.reader r).calls requests).Runs (exec thread) other results after := by
  have confined := watching_calls knows asked
  constructor
  · rintro ⟨after, runs⟩
    obtain ⟨-, later, simulated, -⟩ :=
      confined.simulate (fun watches same executed => same.step watches executed) runs same
    exact ⟨later, simulated⟩
  · rintro ⟨after, runs⟩
    obtain ⟨-, later, simulated, -⟩ :=
      confined.simulate (fun watches same executed => same.step watches executed) runs same.symm
    exact ⟨later, simulated⟩

end

end PsMsgr
