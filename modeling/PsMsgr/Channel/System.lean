import PsMsgr.Effect.Threads
import PsMsgr.Channel.Unlinking
import PsMsgr.Channel.Waiting

namespace PsMsgr

open Effect Discipline Data

/-! # The processes of a channel

Each thread is one user of the channel: it opens the channel for writing or for
reading once, uses the handle and closes it, and it may unlink the channel as long as
it has no handle.  Every call is on the channel of this world, whose name and directory
only matter to the checks the library makes.
-/

inductive Handle where
  | fresh
  | writer (w : Writer)
  | reader (r : Reader)
  | closed

inductive Request where
  | writerOpen (build : Build) (environment : Option (List Char)) (turns : Nat)
      (name : Option (List Char)) (opt : Option Options)
  | publish (data : Option (List UInt8)) (len : UInt32)
  | begin
  | storeBuffer (index : Nat) (byte : UInt8)
  | commit (len : UInt32)
  | abort
  | writerClose
  | readerOpen (environment name dir : Option (List Char))
  | read (buffer : Option (List UInt8)) (size : UInt32)
  | peek
  | describe
  | wait (turns : Nat) (lastGeneration : UInt32) (timeoutMs : Int)
  | writerAlive
  | readerClose
  | unlink (environment : Option (List Char)) (turns : Nat) (name dir : Option (List Char))

inductive Result where
  | code (code : Code)
  | published (code : Code) (generation : Option UInt32)
  | read (reply : ReadReply)
  | described (code : Code) (desc : Option Desc)
  | alive (answer : Except Code Bool)

/-- What a caller may ask of a handle: buffers have the size it says they have, and it
stores into the buffer of an open begin only. -/
def Handle.accepts : Handle → Request → Prop
  | .fresh, .writerOpen _ _ _ _ _ | .fresh, .readerOpen _ _ _ | .fresh, .unlink _ _ _ _ => True
  | .writer _, .publish data len => ∀ bytes, data = some bytes → len.toNat ≤ bytes.length
  | .writer w, .storeBuffer index _ => w.openSlot ≠ psmiLatestNone ∧ index < w.capacity.toNat
  | .writer _, .begin | .writer _, .commit _ | .writer _, .abort | .writer _, .writerClose => True
  | .reader _, .read buffer size => ∀ bytes, buffer = some bytes → bytes.length = size.toNat
  | .reader _, .peek | .reader _, .describe | .reader _, .wait _ _ _ | .reader _, .writerAlive
  | .reader _, .readerClose => True
  | _, _ => False

def Handle.program : Handle → Request → Prog (Handle × Result)
  | .fresh, .writerOpen build environment turns name opt => do
      match ← psmsgrStateWriterOpen build environment turns name opt with
      | .ok w => return (.writer w, .code .ok)
      | .error code => return (.fresh, .code code)
  | .writer w, .publish data len => do
      let (code, gen, w) ← psmsgrStatePublish w data len
      return (.writer w, .published code gen)
  | .writer w, .begin => do
      let (code, w) ← psmsgrStateBegin w
      return (.writer w, .code code)
  | .writer w, .storeBuffer index byte => do
      storeBuffer w index byte
      return (.writer w, .code .ok)
  | .writer w, .commit len => do
      let (code, gen, w) ← psmsgrStateCommit w len
      return (.writer w, .published code gen)
  | .writer w, .abort => do
      let (code, w) ← psmsgrStateAbort w
      return (.writer w, .code code)
  | .writer w, .writerClose => do
      psmsgrStateWriterClose w
      return (.closed, .code .ok)
  | .fresh, .readerOpen environment name dir => do
      match ← psmsgrStateReaderOpen environment name dir with
      | .ok r => return (.reader r, .code .ok)
      | .error code => return (.fresh, .code code)
  | .reader r, .read buffer size => do
      let (reply, r) ← psmsgrStateRead r buffer size
      return (.reader r, .read reply)
  | .reader r, .peek => do
      let (reply, r) ← psmsgrStatePeek r
      return (.reader r, .read reply)
  | .reader r, .describe => do
      let (code, desc, r) ← psmsgrStateDescribe r
      return (.reader r, .described code desc)
  | .reader r, .wait turns lastGeneration timeoutMs => do
      let (code, r) ← psmsgrStateWait turns r lastGeneration timeoutMs
      return (.reader r, .code code)
  | .reader r, .writerAlive => do
      let (answer, r) ← psmsgrStateWriterAlive r
      return (.reader r, .alive answer)
  | .reader r, .readerClose => do
      psmsgrStateReaderClose r
      return (.closed, .code .ok)
  | .fresh, .unlink environment turns name dir => do
      let code ← psmsgrStateUnlink environment turns name dir
      return (.fresh, .code code)
  | handle, _ => return (handle, .code .inval)

/-- A call of `psmsgr_state_wait` notes what it was asked for. -/
def takeUp (thread : Tid) (request : Request) (world : World) : World :=
  match request with
  | .wait _ lastGeneration _ =>
      { world with asking := Function.update world.asking thread lastGeneration }
  | _ => world

def processes : Client Sys Sys.Reply World Tid where
  Handle := Handle
  Request := Request
  Result := Result
  accepts := Handle.accepts
  program := Handle.program
  begin := takeUp
  crash := crash

/-- An empty directory, and nobody has done anything yet. -/
def start : System processes where
  state := World.empty
  threads := fun _ => .idle Handle.fresh

section

variable {thread : Tid} {world : World}

def Handle.Owns (thread : Tid) : Handle → World → Prop
  | .fresh => fun world => Outside thread world ∧ Unpublished thread world
  | .writer w => Inside thread w.lockFd (fun disk marks found =>
      Owned thread w disk.publishes disk marks found)
  | .reader r => fun world => Following thread r world.disk world
  | .closed => Outside thread

/-- What a call has achieved when it returns. -/
def Request.Achieved (thread : Tid) : Handle → Request → World → Handle × Result → World → Prop
  | .writer w, .publish data len => fun since returned world =>
      ∃ code gen w', returned = (.writer w', .published code gen) ∧
        Inside thread w.lockFd (CommitOutcome thread w since.disk.publishes len
          (fun bytes => bytes = (data.getD []).take len.toNat) (code, gen, w')) world
  | .writer w, .commit len => fun since returned world =>
      ∃ code gen w', returned = (.writer w', .published code gen) ∧
        Inside thread w.lockFd (CommitOutcome thread w since.disk.publishes len
          ((since.disk.memory w.file).read (writerSlot w w.openSlot + Offset.payload) len.toNat = ·)
          (code, gen, w')) world
  | .writer _, .begin | .writer _, .storeBuffer _ _ | .writer _, .abort =>
      fun since returned world =>
        (∃ code, returned.2 = .code code) ∧ world.disk.publishes = since.disk.publishes
  | .writer _, .writerClose => fun _ returned _ => returned = (.closed, .code .ok)
  | .reader _, .read _ _ => fun since returned world =>
      ∃ reply r, returned = (.reader r, .read reply) ∧
        ReadPost thread since.disk true (reply, r) world
  | .reader _, .peek => fun since returned world =>
      ∃ reply r, returned = (.reader r, .read reply) ∧
        ReadPost thread since.disk false (reply, r) world
  | _, _ => fun _ _ _ => True

theorem Handle.Owns.stable (handle : Handle) : channel.Stable thread (handle.Owns thread) := by
  cases handle with
  | fresh => exact stable_and Outside.stable Unpublished.stable
  | writer w => exact Inside.stable
  | reader r =>
      intro before after following rely inv
      exact (Following.stable before after following rely inv).refresh
  | closed => exact Outside.stable

theorem Owned.publishes_eq {w : Writer} {publishes : List Publish} {disk : Disk} {marks : Marks}
    {found : Option Nat} (owned : Owned thread w publishes disk marks found) :
    disk.publishes = publishes := by
  obtain ⟨g, ready, -⟩ := owned
  exact ready.publishes

theorem Owned.refresh {w : Writer} {publishes : List Publish} {disk : Disk} {marks : Marks}
    {found : Option Nat} (owned : Owned thread w publishes disk marks found) :
    Owned thread w disk.publishes disk marks found := by
  rw [owned.publishes_eq]
  exact owned

theorem guarantee_takeUp {generation : UInt32} (inv : Inv world)
    (awake : world.asleep thread = none) :
    channel.Guarantee thread world
      { world with asking := Function.update world.asking thread generation } where
  inv := by
    refine ⟨inv.held, inv.locked, inv.outside, inv.disk, inv.settled, inv.sampled, ?_⟩
    intro other file sleeps
    have distinct : other ≠ thread := by
      intro same
      rw [same] at sleeps
      exact nomatch awake.symm.trans sleeps
    change _ ∧ _ ∧ (_ ∨ ∀ marks, _ → Disk.Calm _ marks file
      (Function.update world.asking thread generation other))
    rw [Function.update_of_ne distinct]
    exact inv.asleep sleeps
  step := ⟨fun {index} here => ⟨index, here, Nat.le_refl _⟩, id, .inl rfl⟩
  rely := fun other distinct =>
    ⟨Disk.Evolves.refl _, fun _ _ _ => Iff.rfl, rfl, rfl, rfl, Function.update_of_ne distinct _ _,
      .inl rfl, UInt64.le_refl _, id, fun _ => ⟨rfl, rfl⟩⟩

theorem triple_psmsgrStateReaderOpen {environment name dir : Option (List Char)} :
    channel.Triple thread (fun world => Outside thread world ∧ Unpublished thread world)
      (psmsgrStateReaderOpen environment name dir)
      (fun result world => Outside thread world ∧ Unpublished thread world ∧
        ∀ r, result = .ok r → r.file = none) := by
  have idle : channel.Stable thread (fun world => Outside thread world ∧ Unpublished thread world) :=
    stable_and Outside.stable Unpublished.stable
  have failed : ∀ {code : Code}, channel.Triple thread
      (fun world => Outside thread world ∧ Unpublished thread world) (.done (.error code))
      (fun (result : Except Code Reader) world => Outside thread world ∧ Unpublished thread world ∧
        ∀ r, result = .ok r → r.file = none) :=
    Triple.done (fun _ holds => ⟨holds.1, holds.2, nofun⟩)
  unfold psmsgrStateReaderOpen
  split
  · exact failed
  refine (triple_skip .malloc trivial idle).bind fun enough => ?_
  split
  · exact failed
  refine (triple_pathsInit idle).bind fun paths => ?_
  cases paths with
  | error code => exact failed
  | ok p =>
      refine Triple.done (fun _ holds => ⟨holds.1, holds.2, fun r opened => ?_⟩)
      rw [← Except.ok.inj opened]
      rfl

/-- What a thread knows when it takes up a request in the state `since`. -/
def Handle.Poised (thread : Tid) (since : World) : Handle → World → Prop
  | .fresh => fun world => Outside thread world ∧ Unpublished thread world
  | .writer w => Inside thread w.lockFd (fun disk marks found =>
      Owned thread w since.disk.publishes disk marks found ∧
      disk.memory w.file = since.disk.memory w.file)
  | .reader r => fun world =>
      Following thread r since.disk world ∧ Asking thread (since.asking thread) world
  | .closed => Outside thread

theorem Handle.Poised.stable {since : World} (handle : Handle) :
    channel.Stable thread (handle.Poised thread since) := by
  cases handle with
  | fresh => exact stable_and Outside.stable Unpublished.stable
  | writer w => exact Inside.stable
  | reader r => exact stable_and Following.stable Asking.stable
  | closed => exact Outside.stable

theorem Handle.Owns.poised {handle : Handle} (owns : handle.Owns thread world) :
    handle.Poised thread world world := by
  cases handle with
  | fresh => exact owns
  | writer w => exact ⟨owns.crit, owns.asleep, owns.fds, owns.holds, rfl⟩
  | reader r => exact ⟨owns, rfl⟩
  | closed => exact owns

theorem Inside.owns {w : Writer} {publishes : List Publish} {fd : Fd}
    (inside : Inside thread fd (fun disk marks found => w.lockFd = fd ∧
      Owned thread w publishes disk marks found) world) :
    (Handle.writer w).Owns thread world := by
  obtain ⟨rfl, owned⟩ := inside.holds
  exact ⟨inside.crit, inside.asleep, inside.fds, owned.refresh⟩

theorem CommitOutcome.owns {w : Writer} {publishes : List Publish} {len : UInt32}
    {payload : List UInt8 → Prop} {result : Code × Option UInt32 × Writer}
    (inside : Inside thread w.lockFd (CommitOutcome thread w publishes len payload result) world) :
    (Handle.writer result.2.2).Owns thread world := by
  obtain ⟨lockFd, -, ⟨-, -, bytes, publish, -, -, owned⟩ | ⟨-, owned⟩⟩ := inside.holds
  · exact Inside.owns ⟨inside.crit, inside.asleep, inside.fds, lockFd, owned⟩
  · exact Inside.owns ⟨inside.crit, inside.asleep, inside.fds, lockFd, owned⟩

section Programs

variable {since : World} {request : Request}

theorem triple_fresh (accepted : Handle.fresh.accepts request) :
    channel.Triple thread (Handle.fresh.Poised thread since) (Handle.fresh.program request)
      (fun returned world => returned.1.Owns thread world ∧
        request.Achieved thread .fresh since returned world) := by
  cases request with
  | writerOpen build environment turns name opt =>
      refine triple_psmsgrStateWriterOpen.bind fun result => ?_
      cases result with
      | ok w => exact Triple.done (fun _ opened => ⟨opened, trivial⟩)
      | error code => exact Triple.done (fun _ idle => ⟨idle, trivial⟩)
  | readerOpen environment name dir =>
      refine triple_psmsgrStateReaderOpen.bind fun result => ?_
      cases result with
      | error code => exact Triple.done (fun _ idle => ⟨⟨idle.1, idle.2.1⟩, trivial⟩)
      | ok r =>
          refine Triple.done (fun _ opened => ⟨⟨opened.1, Disk.Evolves.refl _, ?_⟩, trivial⟩)
          intro file attached
          exact nomatch attached.symm.trans (opened.2.2 r rfl)
  | unlink environment turns name dir =>
      exact triple_psmsgrStateUnlink.bind fun code => Triple.done (fun _ idle => ⟨idle, trivial⟩)
  | _ => exact accepted.elim

theorem triple_writer {w : Writer} (accepted : (Handle.writer w).accepts request) :
    channel.Triple thread ((Handle.writer w).Poised thread since)
      ((Handle.writer w).program request)
      (fun returned world => returned.1.Owns thread world ∧
        request.Achieved thread (.writer w) since returned world) := by
  cases request with
  | publish data len =>
      refine (triple_imp (triple_psmsgrStatePublish accepted) (fun _ holds => holds.1)).bind
        fun result => ?_
      exact Triple.done (fun _ outcome => ⟨CommitOutcome.owns outcome, _, _, _, rfl, outcome⟩)
  | commit len =>
      refine triple_psmsgrStateCommit.bind fun result => ?_
      exact Triple.done (fun _ outcome => ⟨CommitOutcome.owns outcome, _, _, _, rfl, outcome⟩)
  | begin =>
      refine (triple_imp triple_psmsgrStateBegin (fun _ holds => holds.1)).bind fun result => ?_
      exact Triple.done (fun _ inside => ⟨inside.owns, ⟨_, rfl⟩, inside.holds.2.publishes_eq⟩)
  | abort =>
      refine (triple_imp triple_psmsgrStateAbort (fun _ holds => holds.1)).bind fun result => ?_
      exact Triple.done (fun _ inside => ⟨inside.owns, ⟨_, rfl⟩, inside.holds.2.publishes_eq⟩)
  | storeBuffer index byte =>
      refine (triple_imp (triple_storeBuffer accepted.1 accepted.2)
        (fun _ holds => holds.1)).bind fun _ => ?_
      exact Triple.done (fun _ inside => ⟨Inside.owns ⟨inside.crit, inside.asleep, inside.fds, rfl,
        inside.holds⟩, ⟨_, rfl⟩, inside.holds.publishes_eq⟩)
  | writerClose =>
      refine (triple_imp triple_psmsgrStateWriterClose (fun _ holds => holds.1)).bind fun _ => ?_
      exact Triple.done (fun _ outside => ⟨outside, rfl⟩)
  | _ => exact accepted.elim

theorem triple_reader {r : Reader} (inv : DiskInv since.disk)
    (noted : ∀ {turns generation timeoutMs}, request = .wait turns generation timeoutMs →
      since.asking thread = generation)
    (accepted : (Handle.reader r).accepts request) :
    channel.Triple thread ((Handle.reader r).Poised thread since)
      ((Handle.reader r).program request)
      (fun returned world => returned.1.Owns thread world ∧
        request.Achieved thread (.reader r) since returned world) := by
  cases request with
  | read buffer size =>
      refine ((triple_psmsgrStateRead inv).strengthen (fun _ poised => poised.1)).bind
        fun result => ?_
      exact Triple.done (fun _ post => ⟨post.1.refresh, _, _, rfl, post⟩)
  | peek =>
      refine ((triple_psmsgrStatePeek inv).strengthen (fun _ poised => poised.1)).bind
        fun result => ?_
      exact Triple.done (fun _ post => ⟨post.1.refresh, _, _, rfl, post⟩)
  | describe =>
      refine (triple_psmsgrStateDescribe.strengthen (fun _ poised => poised.1)).bind fun result => ?_
      exact Triple.done (fun _ following => ⟨following.refresh, trivial⟩)
  | wait turns generation timeoutMs =>
      have asked := noted rfl
      refine (triple_psmsgrStateWait.strengthen (fun _ poised => ⟨poised.1, ?_⟩)).bind
        fun result => ?_
      · rw [← asked]
        exact poised.2
      · exact Triple.done (fun _ following => ⟨following.refresh, trivial⟩)
  | writerAlive =>
      refine (triple_psmsgrStateWriterAlive.strengthen (fun _ poised => poised.1)).bind
        fun result => ?_
      exact Triple.done (fun _ following => ⟨following.refresh, trivial⟩)
  | readerClose =>
      refine (triple_psmsgrStateReaderClose.strengthen (fun _ poised => poised.1)).bind fun _ => ?_
      exact Triple.done (fun _ outside => ⟨outside, trivial⟩)
  | _ => exact accepted.elim

end Programs

theorem takeUp_disk (request : Request) : (takeUp thread request world).disk = world.disk := by
  cases request <;> rfl

theorem Handle.Owns.begin {handle : Handle} {request : Request} (inv : Inv world)
    (owns : handle.Owns thread world) (accepted : handle.accepts request) :
    channel.Guarantee thread world (takeUp thread request world) ∧
      handle.Owns thread (takeUp thread request world) := by
  cases request with
  | wait turns generation timeoutMs =>
      cases handle with
      | reader r =>
          exact ⟨guarantee_takeUp inv owns.outside.asleep,
            ⟨owns.outside.crit, owns.outside.asleep, owns.outside.fds⟩, owns.evolves, owns.attached⟩
      | _ => exact accepted.elim
  | _ => exact ⟨guarantee_same inv, owns⟩

theorem triple_program {handle : Handle} {request : Request} (inv : Inv world)
    (accepted : handle.accepts request) :
    channel.Triple thread (handle.Poised thread (takeUp thread request world))
      (handle.program request)
      (fun returned after => returned.1.Owns thread after ∧
        request.Achieved thread handle (takeUp thread request world) returned after) := by
  cases handle with
  | fresh => exact triple_fresh accepted
  | writer w => exact triple_writer accepted
  | reader r =>
      refine triple_reader ?_ ?_ accepted
      · rw [takeUp_disk]
        exact inv.disk
      · rintro turns generation timeoutMs rfl
        exact Function.update_self _ _ _
  | closed => cases request <;> exact accepted.elim

/-- The proof outline of the whole library. -/
def outline : Outline channel processes where
  owns := fun thread handle => handle.Owns thread
  post := fun thread handle request => request.Achieved thread handle
  owns_rely := fun {_ handle before after} owns rely inv =>
    Handle.Owns.stable handle before after owns rely inv
  begin_guarantee := fun inv owns accepted => (owns.begin inv accepted).1
  ensures := by
    intro thread handle request state later inv owns accepted rely valid
    have poised := Handle.Poised.stable handle _ _ (owns.begin inv accepted).2.poised rely valid
    exact (triple_program inv accepted later valid poised).mono (fun _ _ reached => reached.2)
  crash_guarantee := guarantee_crash

theorem inv_empty : Inv World.empty where
  held := nofun
  locked := nofun
  outside := fun _ => rfl
  disk := ⟨nofun, nofun, fun _ => ⟨rfl, rfl, rfl⟩, nofun, nofun, .nil, nofun, nofun, nofun⟩
  settled := fun _ => ⟨nofun, nofun⟩
  sampled := nofun
  asleep := nofun

theorem sound_start : outline.Sound start where
  inv := inv_empty
  threads := fun _ => ⟨⟨rfl, rfl, nofun⟩, nofun⟩

end

/-- A run of the processes of a channel from an empty directory. -/
abbrev Execution := Run channel processes start

namespace Execution

variable (execution : Execution)

def world (index : Nat) : World := (execution.systems index).state

theorem sound (index : Nat) : outline.Sound (execution.systems index) :=
  sound_start.run execution index

theorem inv (index : Nat) : Inv (execution.world index) := (execution.sound index).inv

theorem owns {index : Nat} {thread : Tid} {handle : Handle}
    (idle : (execution.systems index).threads thread = .idle handle) :
    handle.Owns thread (execution.world index) := by
  have holds := (execution.sound index).threads thread
  rw [idle] at holds
  exact holds

/-- Every call that returns has begun, and has achieved what its outline says. -/
theorem called {last : Nat} {thread : Tid} {handle : Handle} {request : Request} {since : World}
    {returned : Handle × Result}
    (busy : (execution.systems last).threads thread = .busy handle request since (.done returned)) :
    ∃ first, execution.Called thread handle request returned first last :=
  Run.called execution (fun _ => ⟨Handle.fresh, rfl⟩) busy

variable {execution} {first last : Nat}

theorem achieved {thread : Tid} {handle : Handle} {request : Request} {returned : Handle × Result}
    (call : execution.Called thread handle request returned first last) :
    request.Achieved thread handle (execution.world first) returned (execution.world last) :=
  (execution.sound last).returned call.returns

theorem evolves (ordered : first ≤ last) :
    (execution.world first).disk.Evolves (execution.world last).disk := by
  refine sound_start.along execution (fun before after => before.disk.Evolves after.disk)
    (fun world => Disk.Evolves.refl world.disk) Disk.Evolves.trans ?_ ordered
  intro thread before after inv guarantee
  exact Rely.disk (guarantee.rely (thread + 1) (Nat.succ_ne_self thread))

theorem reaches {amount : Nat} (ordered : first ≤ last)
    (below : (execution.world first).disk.publishes.length ≤ amount)
    (above : amount ≤ (execution.world last).disk.publishes.length) :
    ∃ index, first ≤ index ∧ index ≤ last ∧
      (execution.world index).disk.publishes.length = amount := by
  refine sound_start.reaches execution (fun world => world.disk.publishes.length) ?_ ordered
    below above
  intro thread before after inv guarantee
  rcases Progress.publishes guarantee.step with same | ⟨publish, -, grown⟩
  · rw [same]
    exact Nat.le_succ _
  · rw [grown, List.length_append]
    exact Nat.le_refl _

end Execution

end PsMsgr
