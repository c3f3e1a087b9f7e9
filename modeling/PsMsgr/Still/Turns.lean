import PsMsgr.Effect.Schedules
import PsMsgr.Channel.System
import PsMsgr.Properties.WaitFree
import PsMsgr.Still.Reopening

namespace PsMsgr

open Effect Data

section

variable {thread : Tid} {world : World}

theorem Program.Runs.granted {α : Type} {program : Prog α} {value : α} {after : World}
    (runs : program.Runs (execGranted thread) world value after) :
    program.Runs (exec thread) world value after :=
  runs.mono And.left

theorem runs_of_eval {α : Type} {program : Prog α} {value : α}
    (evaluates : program.eval world.disk.answer = some value) :
    ∃ after, program.Runs (exec thread) world value after ∧ after.disk = world.disk := by
  have ends := @ends_of_answer _ True thread world.disk world.now _ _ world evaluates ⟨rfl, rfl⟩
  obtain ⟨_, after, runs, rfl, disk, -⟩ := ends.occurs
  exact ⟨after, Program.Runs.granted runs, disk⟩

theorem runs_publish {w : Writer} {data : Option (List UInt8)} {len : UInt32}
    (fitted : Fitted w world) (value : Publishable w.capacity data len) :
    ∃ timestamp after, ((Handle.writer w).program (.publish data len)).Runs (exec thread) world
        (.writer (w.published (world.disk.memory w.file)), .published .ok (some w.gen)) after ∧
      world.Wrote w.file (publishedMemory w ((data.getD []).take len.toNat) len timestamp
        (world.disk.memory w.file)) after ∧
      Fitted (w.published (world.disk.memory w.file)) after ∧
      after.disk.Offers w.file w.gen len ((data.getD []).take len.toNat) ∧
      world.Accessed thread after ∧ after.now = world.now := by
  have accesses := (stores_access w.file).psmsgrStatePublish data len
  obtain ⟨_, after, runs, now⟩ := @Program.Always.occurs _ _ _ _ (execGranted thread) _ _
    (fun later => later.now = world.now) _ world accesses (fun {_ before} access same => by
      obtain ⟨reply, after, executed, now⟩ := @access_occurs thread _ access before
      exact ⟨reply, after, executed, now.trans same⟩) rfl
  obtain ⟨timestamp, rfl, wrote⟩ := (@ends_psmsgrStatePublish True thread world world _ _ w data len
    (expects_granted thread) (.refl world w.file) value.given fitted.closed value.fits).runs runs
  obtain ⟨next, same, -, fits, offers⟩ := (fitted.publish value).runs runs
  cases same
  exact ⟨timestamp, after, Program.Runs.bind (Program.Runs.granted runs) ⟨rfl, rfl⟩, wrote, fits,
    offers, accessed_of_always accesses (Program.Runs.granted runs), now⟩

theorem Disk.store_commits (disk : Disk) (writer : Tid) (basis : Option Nat) (stored : FileId)
    (place : Nat) (value : UInt32) (file : FileId) (offset : Nat) :
    (disk.store writer basis stored place value).commits file offset ≤
      disk.commits file offset + 1 := by
  unfold Disk.store
  dsimp only
  split
  · exact Nat.le_succ _
  split
  · change Function.update disk.commits stored (Function.update (disk.commits stored) place
      (disk.commits stored place + 1)) file offset ≤ _
    by_cases same : file = stored
    · subst same
      rw [Function.update_self]
      by_cases here : offset = place
      · rw [here, Function.update_self]
      · rw [Function.update_of_ne here]
        exact Nat.le_succ _
    · rw [Function.update_of_ne same]
      exact Nat.le_succ _
  · exact Nat.le_succ _

theorem exec_commits {request : Sys} {before after : World} {reply : request.Reply}
    (executed : exec thread request before reply after) (file : FileId) (offset : Nat) :
    after.disk.commits file offset ≤ before.disk.commits file offset + 1 := by
  cases request
  case clock which => cases which <;> grind [exec]
  case store =>
    obtain rfl : after = _ := executed
    exact Disk.store_commits _ _ _ _ _ _ _ _
  all_goals
    grind [exec, Failed, World.own, World.setLog, World.setAsleep, World.setFd, World.leave,
      Disk.setMemory, Disk.storeByte, Disk.fetchOr, Disk.fetchAdd, Disk.leave, Disk.create,
      Disk.install, Disk.allocate]

/-- A slot's version does not wrap where no slot has been committed so often. -/
theorem Log.load_unwrapped {log : Log} {disk : Disk}
    (few : ∀ file offset, disk.commits file offset < 2 ^ 27) (file : FileId) (offset : Nat)
    (unwrapped : log.wrapped = false) : (log.load disk file offset).wrapped = false := by
  have short : ¬ log.base file offset + 2 ^ 27 ≤ disk.commits file offset := by
    have bound := few file offset
    omega
  unfold Log.load
  split
  · exact unwrapped
  split
  · exact unwrapped
  · rw [unwrapped, decide_eq_false short]
    rfl

theorem runs_read {r synced : Reader} {file : FileId} {buffer : Option (List UInt8)} {size : UInt32}
    (given : buffer = none → size = 0)
    (sync : (readerSync r).eval world.disk.answer = some (.ok, synced))
    (attached : synced.file = some file) :
    ∃ after, ((Handle.reader r).program (.read buffer size)).Runs (exec thread) world
        (.reader (stillReply (world.disk.memory file) synced (buffer.getD []) size true).2,
          .read (stillReply (world.disk.memory file) synced (buffer.getD []) size true).1) after ∧
      after.disk = world.disk ∧
      ((∀ file offset, world.disk.commits file offset < 2 ^ 27) →
        (world.log thread).wrapped = false → (after.log thread).wrapped = false) := by
  obtain ⟨after, runs, disk, -, unwrapped⟩ := @runs_answered _ thread world _ _
    (fun log => (∀ file offset, world.disk.commits file offset < 2 ^ 27) →
      (world.log thread).wrapped = false → log.wrapped = false)
    (fun file offset held few fresh => Log.load_unwrapped few file offset (held few fresh))
    (fun held => held) (eval_psmsgrStateRead given sync attached) (fun _ fresh => fresh)
  generalize stillReply (world.disk.memory file) synced (buffer.getD []) size true = replied at runs ⊢
  exact ⟨after, (Program.Runs.granted runs).bind ⟨rfl, rfl⟩, disk, unwrapped⟩

end

section

variable {system : System processes} {thread : Tid}

theorem steps_serve {handle : Handle} {request : Request} {returned : Handle × Result} {after : World}
    (runs : (handle.program request).Runs (exec thread) system.state returned after)
    (idle : system.threads thread = .idle handle) (accepted : handle.accepts request)
    (noted : takeUp thread request system.state = system.state) :
    Steps channel processes system (system.set thread after (.idle returned.1)) := by
  refine Steps.serve idle accepted ?_
  change (handle.program request).Runs (exec thread) (takeUp thread request system.state) _ _
  rw [noted]
  exact runs

theorem steps_writerOpen {build : Build} {environment : Option (List Char)}
    {name : Option (List Char)} {opt : Option Options} {o : Options} {suffix : Suffix}
    (loaded : loadOptions build.abi opt = .ok o) (named : nameValid name = true)
    (idle : system.threads thread = .idle Handle.fresh)
    (unused : ∀ fd, system.state.fds fd = none) (absent : system.state.disk.data = none)
    (free : system.state.disk.tmp suffix = none) :
    ∃ w after, Steps channel processes system (system.set thread after (.idle (Handle.writer w))) ∧
      Fitted w after ∧ system.state.Creates thread build o w after := by
  obtain ⟨w, after, runs, fitted, created⟩ := @runs_psmsgrStateWriterOpen thread system.state build
    environment name opt o suffix 0 loaded named unused absent free
  have served : (Handle.fresh.program (.writerOpen build environment 1 name opt)).Runs
      (exec thread) system.state (.writer w, .code .ok) after :=
    Program.Runs.bind (Program.Runs.granted runs) ⟨rfl, rfl⟩
  exact ⟨w, after, steps_serve served idle trivial rfl, fitted, created⟩

theorem steps_writerOpen_valued {build : Build} {environment : Option (List Char)}
    {name : Option (List Char)} {opt : Option Options} {o : Options} {file : FileId}
    (loaded : loadOptions build.abi opt = .ok o) (named : nameValid name = true)
    (idle : system.threads thread = .idle Handle.fresh)
    (unused : ∀ fd, system.state.fds fd = none) (valued : system.state.disk.Valued file)
    (old : file < system.state.disk.fresh) (active : ¬ system.state.disk.Retired file)
    (agrees : Header.Agrees build o (Header.ofMemory (system.state.disk.memory file))) :
    ∃ w after, Steps channel processes system (system.set thread after (.idle (Handle.writer w))) ∧
      Fitted w after ∧ w.file = file ∧
      (Reader.attachedTo file (Header.ofMemory (system.state.disk.memory file))).Matches w ∧
      w.gen = nextGeneration (latestGeneration (system.state.disk.memory file)) ∧
      after.disk.publishes = system.state.disk.publishes ∧
      (after.log thread).found = system.state.disk.found := by
  obtain ⟨w, after, runs, facts⟩ := @runs_psmsgrStateWriterOpen_valued thread system.state build
    environment name opt o file 0 loaded named unused valued old active agrees
  have served : (Handle.fresh.program (.writerOpen build environment 1 name opt)).Runs
      (exec thread) system.state (.writer w, .code .ok) after :=
    Program.Runs.bind (Program.Runs.granted runs) ⟨rfl, rfl⟩
  exact ⟨w, after, steps_serve served idle trivial rfl, facts⟩

theorem steps_publish {w : Writer} {data : Option (List UInt8)} {len : UInt32}
    (idle : system.threads thread = .idle (Handle.writer w)) (fitted : Fitted w system.state)
    (value : Publishable w.capacity data len) :
    ∃ timestamp after, Steps channel processes system (system.set thread after
        (.idle (Handle.writer (w.published (system.state.disk.memory w.file))))) ∧
      system.state.Wrote w.file (publishedMemory w ((data.getD []).take len.toNat) len timestamp
        (system.state.disk.memory w.file)) after ∧
      Fitted (w.published (system.state.disk.memory w.file)) after ∧
      after.disk.Offers w.file w.gen len ((data.getD []).take len.toNat) ∧
      system.state.Accessed thread after ∧ after.now = system.state.now := by
  obtain ⟨timestamp, after, runs, facts⟩ := @runs_publish thread system.state w data len fitted value
  exact ⟨timestamp, after, steps_serve runs idle (fun _ given => value.enough given) rfl, facts⟩

theorem steps_readerOpen (idle : system.threads thread = .idle Handle.fresh) :
    Steps channel processes system
      (system.set thread system.state (.idle (Handle.reader Reader.unattached))) := by
  have enough : (call .malloc).Runs (exec thread) system.state true system.state :=
    ⟨true, system.state, rfl, rfl, rfl⟩
  have paths : (pathsInit none none ['a']).Runs (exec thread) system.state
      (.ok (pathsOf none none ['a'])) system.state := enough.bind ⟨rfl, rfl⟩
  have opens : (psmsgrStateReaderOpen none (some ['a']) none).Runs (exec thread) system.state
      (.ok Reader.unattached) system.state := enough.bind (paths.bind ⟨rfl, rfl⟩)
  have served : (Handle.fresh.program (.readerOpen none (some ['a']) none)).Runs (exec thread)
      system.state (.reader Reader.unattached, .code .ok) system.state :=
    opens.bind ⟨rfl, rfl⟩
  exact steps_serve served idle trivial rfl

theorem steps_read {r synced : Reader} {file : FileId} {buffer : Option (List UInt8)}
    {size : UInt32} (idle : system.threads thread = .idle (Handle.reader r))
    (given : buffer = none → size = 0)
    (enough : ∀ bytes, buffer = some bytes → bytes.length = size.toNat)
    (sync : (readerSync r).eval system.state.disk.answer = some (.ok, synced))
    (attached : synced.file = some file) :
    ∃ after, Steps channel processes system (system.set thread after (.idle (Handle.reader
        (stillReply (system.state.disk.memory file) synced (buffer.getD []) size true).2))) ∧
      after.disk = system.state.disk := by
  obtain ⟨after, runs, disk, -⟩ := @runs_read thread system.state r synced file buffer size given
    sync attached
  exact ⟨after, steps_serve runs idle enough rfl, disk⟩

theorem steps_writerClose {w : Writer} (idle : system.threads thread = .idle (Handle.writer w)) :
    ∃ after, Steps channel processes system (system.set thread after (.idle Handle.closed)) ∧
      after.disk.data = system.state.disk.data ∧ after.disk.files = system.state.disk.files ∧
      after.disk.tmp = system.state.disk.tmp := by
  let left := if system.state.crit thread = some w.lockFd then system.state.leave thread
    else system.state
  have closes : (psmsgrStateWriterClose w).Runs (exec thread) system.state ()
      (left.setFd w.lockFd none) :=
    ⟨(), system.state, rfl, (), _, rfl, rfl, rfl⟩
  have served : ((Handle.writer w).program .writerClose).Runs (exec thread) system.state
      (.closed, .code .ok) (left.setFd w.lockFd none) := closes.bind ⟨rfl, rfl⟩
  have disk : left.disk.data = system.state.disk.data ∧
      left.disk.files = system.state.disk.files ∧ left.disk.tmp = system.state.disk.tmp := by
    unfold left
    split <;> exact ⟨rfl, rfl, rfl⟩
  exact ⟨_, steps_serve served idle trivial rfl, disk⟩

theorem steps_opened : ∃ w after,
    Steps channel processes start (start.set 0 after (.idle (Handle.writer w))) ∧
      Fitted w after ∧ World.empty.Creates 0 ⟨.lp64, 0⟩ (twoSlots 2) w after :=
  @steps_writerOpen start 0 ⟨.lp64, 0⟩ none (some ['a']) (some (twoSlots 2)) (twoSlots 2) []
    loadOptions_twoSlots rfl rfl (fun _ => rfl) rfl rfl

/-- One byte has been published in the channel of `w`, and the second thread has done nothing. -/
structure World.Shared (w : Writer) (generation : UInt32) (world : World) : Prop where
  fitted : Fitted w world
  offers : world.disk.Offers w.file generation 1 [7]
  notify : w.notify = true
  orphaned : world.disk.orphaned = fun _ => false
  commits : ∀ file offset, world.disk.commits file offset < 2 ^ 27
  log : world.log 1 = World.empty.log 1
  now : world.now = 0

theorem steps_shared : ∃ w generation world, Steps channel processes start
      ((start.set 0 world (.idle (Handle.writer w))).set 1 world
        (.idle (Handle.reader Reader.unattached))) ∧
    World.Shared w generation world := by
  obtain ⟨w, created, opens, fitted, creates⟩ := steps_opened
  have value : Publishable w.capacity (some [7]) 1 :=
    .of_bytes (by decide) (by rw [creates.capacity]; decide)
  obtain ⟨_, world, runs, -, fitted', offers, accessed, now⟩ :=
    @runs_publish 0 created w _ _ fitted value
  have idle : (start.set 0 created (.idle (Handle.writer w))).threads 0 =
    .idle (Handle.writer w) := System.set_thread
  have accepted : (Handle.writer w).accepts (Request.publish (some [7]) 1) :=
    fun _ given => value.enough given
  have publishes := @steps_serve (start.set 0 created (.idle (Handle.writer w))) 0 _ _ _ _ runs idle
    accepted rfl
  rw [System.set_set] at publishes
  have enters := @steps_readerOpen (start.set 0 world
    (.idle (Handle.writer (w.published (created.disk.memory w.file))))) 1 rfl
  refine ⟨_, w.gen, world, opens.trans (publishes.trans enters), fitted', offers, ?_, ?_, ?_, ?_, ?_⟩
  · exact creates.notify
  · exact accessed.orphaned.trans creates.orphaned
  · intro file offset
    have few := (program_within rfl accepted).grows (fun world => world.disk.commits file offset)
      (fun executed => exec_commits executed file offset) runs
    rw [creates.commits] at few
    exact Nat.lt_of_le_of_lt few (show 0 + (2 + (1 + 21)) < 2 ^ 27 by decide)
  · exact (accessed.log 1 (by decide)).trans (creates.log 1 (by decide))
  · exact now.trans creates.now

theorem Execution.reaching {target : System processes}
    (steps : Steps channel processes start target) :
    ∃ (execution : Execution) (index : Nat), execution.systems index = target :=
  Run.reaching steps

theorem Execution.serve (execution : Execution) {index : Nat} {handle : Handle} {request : Request}
    {returned : Handle × Result} {after : World} (reached : execution.systems index = system)
    (runs : (handle.program request).Runs (exec thread) system.state returned after)
    (idle : system.threads thread = .idle handle) (accepted : handle.accepts request)
    (noted : takeUp thread request system.state = system.state) :
    ∃ (further : Execution) (first last later : Nat), index < first ∧ last ≤ later ∧
      further.Called thread handle request returned first last ∧
      further.world first = system.state ∧ further.world last = after ∧
      further.systems later = system.set thread after (.idle returned.1) ∧
      ∀ earlier ≤ index, further.systems earlier = execution.systems earlier := by
  subst reached
  have begins : processes.begin thread request (execution.systems index).state =
      (execution.systems index).state := noted
  have served := @Run.serve _ _ _ _ _ channel processes start thread handle request execution
    (fun _ => ⟨_, rfl⟩) index returned after idle accepted
  rw [begins] at served
  exact served runs

theorem Handle.Owns.outside {handle : Handle} {world : World} (owns : handle.Owns thread world)
    (reads : ∀ w, handle ≠ .writer w) : Outside thread world := by
  cases handle with
  | fresh => exact owns.1
  | reader r => exact Following.outside owns
  | closed => exact owns
  | writer w => exact absurd rfl (reads w)

theorem Handle.Owns.unmarked {handle : Handle} {world : World} (inv : Inv world)
    (owns : handle.Owns thread world) : world.marks thread = Marks.none := by
  cases handle with
  | writer w =>
      obtain ⟨g, ready, -⟩ := Inside.holds owns
      exact ready.idle
  | fresh => exact inv.outside owns.1.crit
  | reader r => exact inv.outside (Following.outside owns).crit
  | closed => exact inv.outside (Outside.crit owns)

theorem owns_of_sound {handle : Handle} (sound : outline.Sound system)
    (idle : system.threads thread = .idle handle) : handle.Owns thread system.state := by
  have holds := sound.threads thread
  rw [idle] at holds
  exact holds

theorem unowned_of_sound {handle : Handle} (sound : outline.Sound system)
    (idle : system.threads thread = .idle handle) (reads : ∀ w, handle ≠ Handle.writer w) {fd : Fd}
    {descriptor : Descriptor} (here : system.state.fds fd = some descriptor) :
    descriptor.owner ≠ thread :=
  ((owns_of_sound sound idle).outside reads).fds here

/-- Where all threads are idle and none has a writer open, no lock file is. -/
theorem unused_of_sound (sound : outline.Sound system)
    (readers : ∀ thread, ∃ handle, system.threads thread = .idle handle ∧
      ∀ w, handle ≠ Handle.writer w) (fd : Fd) : system.state.fds fd = none := by
  by_contra used
  obtain ⟨descriptor, here⟩ := Option.ne_none_iff_exists'.mp used
  obtain ⟨handle, idle, reads⟩ := readers descriptor.owner
  exact unowned_of_sound sound idle reads here rfl

/-- The value offered is in the history. -/
theorem World.Shared.latest {w : Writer} {generation : UInt32}
    (shared : system.state.Shared w generation) (sound : outline.Sound system) :
    ∃ last publish, system.state.disk.Latest w.file last publish := by
  have installed := (sound.inv.disk.data shared.fitted.data).1
  obtain ⟨i, _, current, bound, -⟩ := shared.fitted.current shared.offers shared.fitted.attached
  have named := (not_congr (sound.inv.disk.latest_eq_none installed)).mp (by
    rw [current.named]
    exact psmiLatest_ne_none _ bound)
  obtain ⟨last, found⟩ := Option.ne_none_iff_exists'.mp named
  exact ⟨last, _, found, List.getElem?_eq_getElem (lastIndex_lt found)⟩

end

end PsMsgr
