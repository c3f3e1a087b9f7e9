import PsMsgr.Properties.Linearizability
import PsMsgr.Still.Turns

namespace PsMsgr

open Effect Data

/-- The library has taken the file from the data path. -/
def Disk.Displaced (disk : Disk) (file : FileId) : Prop :=
  disk.installed file = true ∧ disk.data ≠ some file

/-- Reads and peeks that start at the instant or later return no value from a file that had been
displaced by then, unless it is excused. -/
def Execution.Follows (execution : Execution) (instant : Nat) (excused : FileId → Prop) : Prop :=
  ∀ {thread r r' request reply first last},
    execution.Called thread (.reader r) request (.reader r', .read reply) first last →
    request.Reads → instant ≤ first → reply.code = .ok →
    ∃ file, r'.file = some file ∧
      ((execution.world instant).disk.Displaced file → excused file)

namespace Execution

variable {execution : Execution} {thread : Tid}

/-- While a thread with nothing left to do is in its critical section, the files that were
displaced are retired, or abandoned. -/
theorem follows_of_inside {instant : Nat}
    (inside : (execution.world instant).crit thread ≠ none)
    (done : (execution.world instant).marks thread = Marks.none) :
    execution.Follows instant
      (fun file => (execution.world instant).disk.abandoned file = true) := by
  intro reader r r' request reply first last call reads after read
  obtain ⟨_, file, _, _, _, -, attached, value⟩ := read_value call reads (.inl read)
  refine ⟨file, attached, fun displaced => ?_⟩
  have inv := execution.inv instant
  have settled := inv.settled ((inv.owing_iff inside).mpr done)
  have grown : (execution.world instant).disk.Evolves (execution.world first).disk :=
    Execution.evolves after
  rcases settled.displaced displaced.1 displaced.2 with retired | abandoned | pending
  · exact absurd (grown.retired displaced.1 retired) (value.active (grown.installed displaced.1))
  · exact abandoned
  · exact nomatch pending

end Execution

theorem CommitOutcome.settled {w w' : Writer} {publishes : List Publish} {thread : Tid} {fd : Fd}
    {len : UInt32} {payload : List UInt8 → Prop} {gen : Option UInt32} {world : World}
    (outcome : Inside thread fd (CommitOutcome thread w publishes len payload (.ok, gen, w')) world) :
    world.crit thread ≠ none ∧ world.marks thread = Marks.none := by
  refine ⟨by rw [outcome.crit]; nofun, ?_⟩
  obtain ⟨-, -, ⟨-, -, bytes, publish, -, -, owned⟩ | ⟨failed, -⟩⟩ := outcome.holds
  · obtain ⟨g, ready, -⟩ := owned
    exact ready.idle
  · exact absurd rfl failed

/-- Once a publish or commit has returned, reads and peeks that start afterwards return no values
from files that had been displaced, unless a process left its critical section after it had
displaced the file and before it set `RETIRED` in it. -/
theorem readers_follow_replacements (execution : Execution) :
    (∀ {thread w w' data len gen first last},
      execution.Called thread (.writer w) (.publish data len) (.writer w', .published .ok gen)
        first last →
      execution.Follows last (fun file => (execution.world last).disk.abandoned file = true)) ∧
    ∀ {thread w w' len gen first last},
      execution.Called thread (.writer w) (.commit len) (.writer w', .published .ok gen)
        first last →
      execution.Follows last (fun file => (execution.world last).disk.abandoned file = true) := by
  constructor
  · intro thread w w' data len gen first last call
    obtain ⟨_, _, _, same, outcome⟩ := Execution.achieved call
    cases same
    obtain ⟨inside, done⟩ := CommitOutcome.settled outcome
    exact Execution.follows_of_inside inside done
  · intro thread w w' len gen first last call
    obtain ⟨_, _, _, same, outcome⟩ := Execution.achieved call
    cases same
    obtain ⟨inside, done⟩ := CommitOutcome.settled outcome
    exact Execution.follows_of_inside inside done

section

variable {thread : Tid} {file : FileId}

/-- A process that unlinks the channel comes to the point where the data path is gone and the file
is not retired yet. -/
theorem leads_unlinkDataFile {world : World} (data : world.disk.data = some file) :
    ∃ rest after, unlinkDataFile.Leads (exec thread) world rest after ∧
      after.fds = world.fds ∧ after.disk = { world.disk with data := none } := by
  let opened := world.setLog thread
    { world.log thread with found := lastIndex file world.disk.publishes }
  have opens : exec thread .openData world (.ok file) opened := .inl ⟨file, data, rfl, rfl⟩
  obtain ⟨header, found, reads, disk⟩ : ∃ header found,
      (readHeader file).Runs (exec thread) opened header found ∧ found.disk = world.disk :=
    ⟨_, runs_of_eval eval_readHeader⟩
  have kept := kept_of_modest (syncs_modest.looks file).readHeader reads
  let unlinked := found.own thread { found.disk with data := none }
    { found.marks thread with displacing := found.disk.data }
  have unlinks : exec thread .unlinkData found (.ok ()) unlinked := by
    refine .inl ⟨?_, rfl, rfl⟩
    rw [disk]
    exact fun absent => nomatch absent.symm.trans data
  have closes : exec thread (.close file) found () found := rfl
  have goes (mapped : Except Errno Unit) :
      ∃ rest, (unlinkMapped file mapped).Leads (exec thread) found rest unlinked :=
    ⟨_, .call closes (.call unlinks (.refl _ _))⟩
  have leads : ∃ rest, unlinkDataFile.Leads (exec thread) world rest unlinked := by
    rw [unlinkDataFile]
    refine Exists.imp (fun _ later => .call opens ((reads.leads _).trans later)) ?_
    dsimp only
    split
    · have maps : exec thread (.mmap file psmiHeaderSize.toNat) found (.ok ()) found :=
        .inl ⟨rfl, rfl⟩
      exact (goes (.ok ())).imp fun _ => .call maps
    · exact goes _
  obtain ⟨rest, leads⟩ := leads
  refine ⟨rest, unlinked, leads, kept.fds, ?_⟩
  change { found.disk with data := none } = _
  rw [disk]

theorem steps_unlinkKilled {system : System processes}
    (idle : system.threads thread = .idle Handle.fresh)
    (unused : ∀ fd, system.state.fds fd = none) (data : system.state.disk.data = some file) :
    ∃ later, Steps channel processes system later ∧ later.state.disk.data = none ∧
      later.state.disk.files = system.state.disk.files ∧
      later.state.disk.tmp = system.state.disk.tmp ∧
      later.state.disk.fresh = system.state.disk.fresh ∧
      (∀ fd, later.state.fds fd = none) ∧
      ∀ other, other ≠ thread → later.threads other = system.threads other := by
  obtain ⟨lockFd, ino, locks⟩ := @runs_lockChannel thread system.state 0o600 0 unused
  let locked := system.state.locked thread lockFd ino
  obtain ⟨rest, unlinked, unlinks, fds, disk⟩ := @leads_unlinkDataFile thread file locked data
  have enough : (call .malloc).Runs (exec thread) system.state true system.state :=
    ⟨true, system.state, rfl, rfl, rfl⟩
  have paths : (pathsInit none none ['a']).Runs (exec thread) system.state
      (.ok (pathsOf none none ['a'])) system.state := enough.bind ⟨rfl, rfl⟩
  have tidies : (removeStaleTmp (pathsOf none none ['a'])).Runs (exec thread) locked () locked :=
    ⟨none, locked, rfl, rfl, rfl⟩
  have leads : ∃ rest, (psmsgrStateUnlink none 1 (some ['a']) none).Leads (exec thread)
      system.state rest unlinked := by
    rw [psmsgrStateUnlink, if_neg (by decide)]
    refine Exists.imp (fun _ => (paths.leads _).trans) ?_
    refine Exists.imp (fun _ => ((Program.Runs.granted locks).leads _).trans) ?_
    refine Exists.imp (fun _ => (tidies.leads _).trans) ?_
    exact ⟨_, unlinks.bind _⟩
  obtain ⟨rest, leads⟩ := leads
  obtain ⟨paused, begun, state, alive, others⟩ : ∃ paused : System processes,
      Steps channel processes system paused ∧ paused.state = unlinked ∧
        paused.threads thread ≠ .dead ∧
        ∀ other, other ≠ thread → paused.threads other = system.threads other := by
    have begun := @Steps.begun _ _ _ _ _ channel processes system thread _
      (Request.unlink none 1 (some ['a']) none) _ _ idle trivial (leads.bind _)
    refine ⟨_, begun, rfl, ?_, fun _ => System.set_other⟩
    rw [System.set_thread]
    nofun
  rw [← state] at fds disk
  refine ⟨_, begun.trans (Steps.kill alive), ?_, ?_, ?_, ?_, fun fd => ?_,
    fun other distinct => (System.set_other distinct).trans (others other distinct)⟩
  · exact (congrArg Disk.data disk :)
  · exact (congrArg Disk.files disk :)
  · exact (congrArg Disk.tmp disk :)
  · exact (congrArg Disk.fresh disk :)
  · change (paused.state.fds fd).filter _ = none
    rw [fds]
    by_cases same : fd = lockFd
    · rw [same]
      simp [locked, World.locked]
    · rw [show locked.fds fd = none from (Function.update_of_ne same _ _).trans (unused fd)]
      rfl

end

/-- A reader has read the only value of a channel, which was then deleted by a process that was
killed before it retired the file, and opened anew. -/
theorem steps_forsaken :
    ∃ (file : FileId) (r : Reader) (w : Writer) (attached later : System processes),
      Steps channel processes start attached ∧ attached.state.disk.data = some file ∧
      Steps channel processes attached later ∧
      later.threads 1 = .idle (Handle.reader r) ∧ r.file = some file ∧
      ¬ later.state.disk.Retired file ∧
      (stillReply (later.state.disk.memory file) r [0] 1 true).1.code = .ok ∧
      later.threads 3 = .idle (Handle.writer w) ∧ Fitted w later.state ∧ w.file ≠ file ∧
      w.capacity = 2 := by
  obtain ⟨w, created, opens, fitted, creates⟩ := steps_opened
  have value : Publishable w.capacity (some [1]) 1 :=
    .of_bytes (by decide) (by rw [creates.capacity]; decide)
  obtain ⟨_, published, publishes, wrote, fitted₁, offers, -⟩ :=
    @steps_publish (start.set 0 created _) 0 w _ _ System.set_thread fitted value
  simp only [System.set_set, System.set_state] at publishes wrote fitted₁ offers
  let w₁ := w.published (created.disk.memory w.file)
  obtain ⟨left, closes, data, files, tmp⟩ := @steps_writerClose
    (start.set 0 published (.idle (Handle.writer w₁))) 0 w₁ System.set_thread
  simp only [System.set_set, System.set_state] at closes data files tmp
  -- a new process reads the value and stays attached
  let closed := start.set 0 left (.idle Handle.closed)
  have fitted₂ : Fitted w₁ left := fitted₁.congr data files
  have enters := @steps_readerOpen closed 1 rfl
  obtain ⟨after, reads, disk⟩ := @steps_read
    (closed.set 1 left (.idle (Handle.reader Reader.unattached))) 1 Reader.unattached _ w₁.file
    (some [0]) 1 System.set_thread nofun (fun _ same => by cases same; rfl) fitted₂.sync rfl
  simp only [System.set_set, System.set_state] at reads disk
  let synced := Reader.attachedTo w₁.file (Header.ofMemory (left.disk.memory w₁.file))
  obtain ⟨flag, announced⟩ := stillReply_reader (left.disk.memory w₁.file) synced [0] 1 true
  let attached := closed.set 1 after (.idle (Handle.reader { synced with announce := flag }))
  have reads : Steps channel processes start attached := by
    have same : attached = closed.set 1 after (.idle (Handle.reader
        (stillReply (left.disk.memory w₁.file) synced [0] 1 true).2)) := by
      rw [announced]
    rw [same]
    exact opens.trans (publishes.trans (closes.trans (enters.trans reads)))
  have sound := sound_start.steps reads
  have named : attached.state.disk.data = some w₁.file :=
    (congrArg Disk.data disk).trans fitted₂.data
  have unused : ∀ fd, attached.state.fds fd = none := by
    refine unused_of_sound sound fun thread => ?_
    by_cases reader : thread = 1
    · rw [reader]
      exact ⟨_, System.set_thread, nofun⟩
    · rw [show attached.threads thread = closed.threads thread from System.set_other reader]
      by_cases writer : thread = 0
      · rw [writer]
        exact ⟨_, System.set_thread, nofun⟩
      · exact ⟨_, System.set_other writer, nofun⟩
  obtain ⟨killed, unlinks, absent, files', tmp', fresh, free, others⟩ :=
    @steps_unlinkKilled 2 w₁.file attached rfl unused named
  -- the path is gone, so yet another process creates the channel
  have unnamed : killed.state.disk.tmp [] = none := by
    rw [tmp', show attached.state.disk.tmp = left.disk.tmp from congrArg Disk.tmp disk, tmp,
      wrote.tmp, creates.tmp]
    rfl
  obtain ⟨new, final, renews, fitted₃, creates'⟩ := @steps_writerOpen killed 3 ⟨.lp64, 0⟩ none
    (some ['a']) (some (twoSlots 2)) (twoSlots 2) [] loadOptions_twoSlots rfl (others 3 (by decide))
    free absent unnamed
  have distinct : new.file ≠ w₁.file := by
    have old := sound.inv.disk.fresh (sound.inv.disk.data named).1
    rw [creates'.file, fresh]
    exact (Nat.ne_of_lt old).symm
  have memory : final.disk.memory w₁.file = published.disk.memory w₁.file := by
    have files₃ : final.disk.files w₁.file = _ := creates'.files w₁.file distinct.symm
    rw [Disk.memory, files₃, files',
      show attached.state.disk.files = left.disk.files from congrArg Disk.files disk, files]
    rfl
  have active : ¬ final.disk.Retired w₁.file := by
    rw [Disk.Retired, memory]
    exact fitted₁.active
  have reader : ({ synced with announce := flag } : Reader).Matches w₁ :=
    ⟨fitted₂.attached.slotCount, fitted₂.attached.slotStride, fitted₂.attached.capacity⟩
  refine ⟨w₁.file, { synced with announce := flag }, new, attached, _, reads, named,
    unlinks.trans renews, ?_, rfl, active, ?_, System.set_thread, fitted₃, distinct,
    creates'.capacity⟩
  · exact (System.set_other (by decide)).trans ((others 1 (by decide)).trans System.set_thread)
  · change (stillReply (final.disk.memory w₁.file) _ [0] 1 true).1.code = .ok
    rw [memory]
    exact (fitted₁.reply offers reader [0] 1).1

/-- Not so if a process is killed while it unlinks the channel: a reader that was attached goes on
to read the deleted file after values have been published in a new one. -/
theorem unlinked_file_read : ¬ ∀ (execution : Execution) {thread w w' data len gen first last},
    execution.Called thread (.writer w) (.publish data len) (.writer w', .published .ok gen)
      first last →
    (execution.world last).disk.data = some w.file →
    execution.Follows last (fun _ => False) := by
  intro claim
  obtain ⟨file, r, w, attached, later, attaches, named, displaces, reader, mapped, active, code,
    writer, fitted, distinct, capacity⟩ := steps_forsaken
  have value : Publishable w.capacity (some [2]) 1 :=
    .of_bytes (by decide) (by rw [capacity]; decide)
  obtain ⟨base, index, reached⟩ := Execution.reaching attaches
  obtain ⟨extended, index₁, ordered, reached₁, same₁⟩ := base.extend (reached ▸ displaces)
  -- a value is published in the new file
  obtain ⟨_, published, publishes, wrote, fitted₁, -⟩ :=
    @runs_publish 3 later.state w _ _ fitted value
  obtain ⟨longer, first, last, index₂, early, late, call, -, state, reached₂, same₂⟩ :=
    Execution.serve extended reached₁ publishes writer (fun _ given => value.enough given) rfl
  -- and the reader reads the old one
  have memory : published.disk.memory file = later.state.disk.memory file := by
    rw [Disk.memory, wrote.files, Function.update_of_ne distinct.symm]
    rfl
  have fresh : ¬ published.disk.Retired file := by
    rw [Disk.Retired, memory]
    exact active
  obtain ⟨_, reads, -⟩ := @runs_read 1 published r r file (some [0]) 1
    (fun absent => absurd absent (Option.some_ne_none _)) (eval_readerSync_attached mapped fresh) mapped
  obtain ⟨final, first', last', _, after, -, read, -, -, -, same₃⟩ :=
    Execution.serve longer reached₂ reads ((System.set_other (by decide)).trans reader)
      (fun _ same => by cases same; rfl) rfl
  have world : final.world last = published := by
    rw [Execution.world, same₃ last late]
    exact state
  have renewed : (final.world last).disk.data = some w.file := by
    rw [world]
    exact fitted₁.data
  have started : final.world index = attached.state := by
    have before : index ≤ index₂ := by
      have := call.ordered
      omega
    rw [Execution.world, same₃ index before, same₂ index ordered, same₁ index (Nat.le_refl _),
      reached]
  have displaced : (final.world last).disk.Displaced file := by
    have installed := ((final.inv index).disk.data (started ▸ named)).1
    have grown : (final.world index).disk.Evolves (final.world last).disk :=
      Execution.evolves (by have := call.ordered; omega)
    refine ⟨grown.installed installed, ?_⟩
    rw [renewed]
    exact fun same => distinct (Option.some.inj same)
  obtain ⟨flag, announced⟩ := stillReply_reader (published.disk.memory file) r [0] 1 true
  have success : (stillReply (published.disk.memory file) r [0] 1 true).1.code = .ok := by
    rw [memory]
    exact code
  obtain ⟨_, same, excused⟩ := claim final (Run.Called.transport call late same₃) renewed read
    trivial (by omega) success
  change (stillReply (published.disk.memory file) r [0] 1 true).2.file = _ at same
  rw [announced] at same
  cases same.symm.trans mapped
  exact excused displaced

end PsMsgr
