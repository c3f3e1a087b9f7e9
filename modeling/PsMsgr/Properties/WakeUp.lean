import PsMsgr.Still.Turns

namespace PsMsgr

open Effect

theorem Step.asking {before after : System processes} (step : Step channel processes before after)
    {thread : Tid} {handle : Handle} {request : Request} {since : World}
    {program : Prog (Handle × Result)}
    (busy : before.threads thread = .busy handle request since program) :
    after.state.asking thread = before.state.asking thread := by
  cases step with
  | @start other _ request idle accepted =>
      have distinct : thread ≠ other := by
        rintro rfl
        exact nomatch busy.symm.trans idle
      change (takeUp other request before.state).asking thread = _
      cases request with
      | wait turns generation timeoutMs => exact Function.update_of_ne distinct _ _
      | _ => rfl
  | call other running executed => exact congrFun (exec_asking executed) thread
  | finish other running => rfl
  | kill other alive => rfl

namespace Execution

variable {execution : Execution} {index : Nat} {thread : Tid}

/-- Whoever waits is on record with the generation it was called with. -/
theorem asking_wait {handle : Handle} {turns : Nat} {generation : UInt32} {timeoutMs : Int}
    {since : World} {program : Prog (Handle × Result)}
    (busy : (execution.systems index).threads thread =
      .busy handle (.wait turns generation timeoutMs) since program) :
    (execution.world index).asking thread = generation := by
  induction index generalizing program with
  | zero =>
      rw [execution.first] at busy
      exact nomatch busy
  | succ index ih =>
      rcases execution.next index with same | step
      · rw [same] at busy
        rw [world, same]
        exact ih busy
      rcases step.busy busy with ⟨earlier, running⟩ | ⟨-, -, begun, rfl, -⟩
      · exact (Step.asking step running).trans (ih running)
      · rw [world, begun]
        exact Function.update_self _ _ _

end Execution

/-- Whoever sleeps in a futex wait, while nobody is between storing `latest` or `RETIRED` and
waking the sleepers, has missed nothing: the file is not retired, and the last value published
in it, if any, is the one the call was told about.  This presumes that nobody was killed between
the two, and that `notify` did not wrap between being loaded and being compared. -/
theorem no_lost_wakeup (execution : Execution) (index : Nat) (thread : Tid) {handle : Handle}
    {turns : Nat} {generation : UInt32} {timeoutMs : Int} {since : World}
    {program : Prog (Handle × Result)} {file : FileId}
    (waits : (execution.systems index).threads thread =
      .busy handle (.wait turns generation timeoutMs) since program)
    (asleep : (execution.world index).asleep thread = some file)
    (told : ∀ other, ((execution.world index).marks other).unwoken.map Prod.fst ≠ some file)
    (alive : (execution.world index).disk.orphaned file = false)
    (unwrapped : ((execution.world index).log thread).notifyWrapped = false) :
    ¬ (execution.world index).disk.Retired file ∧
      ∀ {last publish}, (execution.world index).disk.Latest file last publish →
        publish.generation = generation := by
  have inv := execution.inv index
  obtain ⟨-, -, wrapped | calm⟩ := inv.asleep asleep
  · exact nomatch unwrapped.symm.trans wrapped
  obtain ⟨marks, owing⟩ := World.owing_exists (execution.world index)
  rcases calm marks owing with orphaned | pending | ⟨active, current⟩
  · exact nomatch alive.symm.trans orphaned
  · rcases owing with ⟨other, -, rfl⟩ | ⟨-, rfl⟩
    · exact absurd pending (told other)
    · exact nomatch pending
  · refine ⟨active, fun {_ _} latest => ?_⟩
    rw [current _ latest.getLast?_history]
    exact Execution.asking_wait waits

section

variable {thread : Tid} {world : World}

theorem Log.load_notifyBase {log : Log} {disk : Disk} (file : FileId) (offset : Nat)
    (based : log.notifyBase = disk.notifies) :
    (log.load disk file offset).notifyBase = disk.notifies := by
  unfold Log.load
  split
  · exact based
  split
  · rfl
  · exact based

/-- Attached to a file in which nothing is published but the value it is told about, a waiter goes
to sleep at once. -/
theorem leads_waitLoop {r synced : Reader} {file : FileId} {generation : UInt32}
    {deadline : UInt64} (turns : Nat)
    (sync : (readerSync r).eval world.disk.answer = some (.ok, synced))
    (attached : synced.file = some file)
    (notifying : synced.configFlags &&& psmiConfigNoNotify = 0)
    (active : ¬ world.disk.Retired file)
    (sane : (stillLatest (world.disk.memory file) synced [] 0 false).1 ≠ .format)
    (known : (stillLatest (world.disk.memory file) synced [] 0 false).1 = .ok →
      (stillLatest (world.disk.memory file) synced [] 0 false).2.1.map (·.generation) =
        some generation)
    (early : world.now < deadline) (unwrapped : (world.log thread).notifyWrapped = false) :
    ∃ rest after, (waitLoop generation deadline (turns + 1) r).Leads (exec thread) world rest after ∧
      after.asleep thread = some file ∧ after.disk = world.disk ∧ after.marks = world.marks ∧
      (after.log thread).notifyWrapped = false := by
  obtain ⟨found, syncs, disk₁, kept₁, -⟩ := @runs_answered _ thread world _ _ (fun _ => True)
    (fun _ _ => id) id sync trivial
  let noted := found.setLog thread ((found.log thread).load found.disk file Offset.notify)
  have noting : found.Kept noted := World.kept_setLog (Log.load_notifyWrapped _ _ _ _)
  have based : (noted.log thread).notifyBase = noted.disk.notifies := by
    simp only [noted, World.setLog, Function.update_self]
    rfl
  have same : noted.disk = world.disk := disk₁
  obtain ⟨checked, checks, disk₂, kept₂, based⟩ := @runs_answered _ thread noted (retired file) false
    (fun log => log.notifyBase = noted.disk.notifies) Log.load_notifyBase id
    (by rw [same, eval_retired, decide_eq_false active]) based
  rw [← disk₂] at based
  obtain ⟨outcome, latest⟩ : ∃ outcome, outcome =
    stillLatest (world.disk.memory file) synced [] 0 false := ⟨_, rfl⟩
  rw [← latest] at sane known
  obtain ⟨looked, looks, disk₃, kept₃, based⟩ := @runs_answered _ thread checked
    (readLatest synced file [] 0 false) outcome (fun log => log.notifyBase = checked.disk.notifies)
    Log.load_notifyBase id (by rw [eval_readLatest, disk₂, same, latest]) based
  have disk : looked.disk = world.disk := by rw [disk₃, disk₂, same]
  have kept : world.Kept looked := ((kept₁.trans noting).trans kept₂).trans kept₃
  let timed : World := { looked with now := looked.now }
  let asleep := (timed.setLog thread ((timed.log thread).futexWait timed.disk file)).setAsleep
    thread (some file)
  have clocks : (call (.clock .monotonic)).Runs (exec thread) looked looked.now timed :=
    ⟨_, _, ⟨UInt64.le_refl _, rfl⟩, rfl, rfl⟩
  have sleeps (slice : UInt64) : exec thread (.futexWait file
      ((found.disk.memory file).word32 Offset.notify) slice) timed (.ok ()) asleep := by
    refine .inl ⟨?_, rfl, rfl⟩
    change (looked.disk.memory file).word32 Offset.notify = _
    rw [disk, disk₁]
  have leads : ∃ rest,
      (waitLoop generation deadline (turns + 1) r).Leads (exec thread) world rest asleep := by
    rw [waitLoop]
    refine Exists.imp (fun _ => ((Program.Runs.granted syncs).leads _).trans) ?_
    dsimp only
    rw [attached]
    dsimp only
    rw [notifying, if_neg (by decide)]
    refine Exists.imp (fun _ later => .call ⟨rfl, rfl⟩
      (((Program.Runs.granted checks).leads _).trans later)) ?_
    rw [if_neg (by decide)]
    refine Exists.imp (fun _ => ((Program.Runs.granted looks).leads _).trans) ?_
    rw [if_neg (fun changed => changed.2 (known changed.1)), if_neg sane]
    refine Exists.imp (fun _ => (clocks.leads _).trans) ?_
    rw [if_neg (show ¬ looked.now ≥ deadline from kept.now ▸ UInt64.not_le.mpr early)]
    exact ⟨_, .call (sleeps _) (.refl _ _)⟩
  obtain ⟨rest, leads⟩ := leads
  refine ⟨rest, asleep, leads, Function.update_self _ _ _, disk, kept.marks, ?_⟩
  have clear : (looked.log thread).notifyWrapped = false := (kept.notifyWrapped thread).trans unwrapped
  -- `notify` was loaded in the disk it is compared in
  simp [asleep, timed, World.setLog, World.setAsleep, Log.futexWait, clear, based, disk₃]

end

section

variable {system : System processes} {w : Writer} {generation : UInt32}

theorem World.Shared.notifying (shared : system.state.Shared w generation)
    (sound : outline.Sound system) (idle : system.threads 0 = .idle (Handle.writer w)) :
    (Header.ofMemory (system.state.disk.memory w.file)).configFlags &&& psmiConfigNoNotify = 0 := by
  have owns : (Handle.writer w).Owns 0 system.state := owns_of_sound sound idle
  obtain ⟨g, opened, -⟩ := Inside.holds owns
  exact not_not.mp (opened.attached.notify.mp shared.notify)

theorem World.Shared.peeks {world : World} (shared : world.Shared w generation) :
    let synced := Reader.attachedTo w.file (Header.ofMemory (world.disk.memory w.file))
    (stillLatest (world.disk.memory w.file) synced [] 0 false).1 = .ok ∧
      (stillLatest (world.disk.memory w.file) synced [] 0 false).2.1.map (·.generation) =
        some generation := by
  intro synced
  obtain ⟨i, shown, current, bound, inside, fits, numbered, -⟩ :=
    shared.fitted.current shared.offers shared.fitted.attached
  rw [stillLatest, stillAttempt_current current bound inside fits, ← numbered]
  exact ⟨rfl, rfl⟩

end

/-- A waiter that was told about the last value sleeps. -/
theorem steps_asleep : ∃ file generation since program system, Steps channel processes start system ∧
    system.threads 1 = .busy (Handle.reader Reader.unattached) (Request.wait 1 generation (-1)) since
      program ∧
    system.state.asleep 1 = some file ∧ (∀ other, system.state.marks other = Marks.none) ∧
    system.state.disk.orphaned file = false ∧ (system.state.log 1).notifyWrapped = false ∧
    ∃ last publish, system.state.disk.Latest file last publish := by
  obtain ⟨w, generation, world, reached, shared⟩ := steps_shared
  let ready := (start.set 0 world (.idle (Handle.writer w))).set 1 world
    (.idle (Handle.reader Reader.unattached))
  have sound : outline.Sound ready := sound_start.steps reached
  let synced := Reader.attachedTo w.file (Header.ofMemory (world.disk.memory w.file))
  let asked := takeUp 1 (.wait 1 generation (-1)) world
  obtain ⟨peeks, known⟩ := shared.peeks
  have sane : (stillLatest (world.disk.memory w.file) synced [] 0 false).1 ≠ .format := by
    rw [peeks]
    decide
  have notifying : synced.configFlags &&& psmiConfigNoNotify = 0 :=
    @World.Shared.notifying ready w generation shared sound rfl
  have fresh : (asked.log 1).notifyWrapped = false := congrArg Log.notifyWrapped shared.log
  have early : asked.now < 0xFFFFFFFFFFFFFFFF := by
    rw [show asked.now = 0 from shared.now]
    decide
  obtain ⟨rest, asleep, leads, sleeps, disk, marks, unwrapped⟩ := @leads_waitLoop 1 asked
    Reader.unattached synced w.file generation 0xFFFFFFFFFFFFFFFF 0 shared.fitted.sync rfl notifying
    shared.fitted.active sane (fun _ => known) early fresh
  have leads : ((Handle.reader Reader.unattached).program (.wait 1 generation (-1))).Leads (exec 1)
      asked _ asleep :=
    leads.bind fun returned => return (Handle.reader returned.2, Result.code returned.1)
  have waits := @Steps.begun _ _ _ _ _ channel processes ready 1 _ (Request.wait 1 generation (-1))
    _ _ System.set_thread trivial leads
  refine ⟨w.file, generation, _, _, _, reached.trans waits, System.set_thread, sleeps,
    fun other => ?_, ?_, unwrapped, ?_⟩
  · obtain ⟨handle, idle⟩ : ∃ handle, ready.threads other = .idle handle := by
      by_cases reads : other = 1
      · exact ⟨_, by rw [reads]; exact System.set_thread⟩
      by_cases writes : other = 0
      · exact ⟨_, by rw [writes]; rfl⟩
      · exact ⟨_, (System.set_other reads).trans (System.set_other writes)⟩
    have unmarked : world.marks other = Marks.none := (owns_of_sound sound idle).unmarked sound.inv
    exact (congrFun marks other).trans unmarked
  · rw [System.set_state, disk]
    exact congrFun shared.orphaned w.file
  · rw [System.set_state, disk]
    exact @World.Shared.latest ready w generation shared sound

/-- It has missed nothing. -/
theorem no_lost_wakeup_published : ∃ (execution : Execution) (index : Nat) (file : FileId)
    (generation : UInt32) (since : World) (program : Prog (Handle × Result)) (last : Nat)
    (publish : Publish),
    (execution.systems index).threads 1 =
      .busy (Handle.reader Reader.unattached) (Request.wait 1 generation (-1)) since program ∧
    (execution.world index).asleep 1 = some file ∧
    ¬ (execution.world index).disk.Retired file ∧
    (execution.world index).disk.Latest file last publish ∧ publish.generation = generation := by
  obtain ⟨file, generation, since, program, system, steps, waits, asleep, unmarked, alive, unwrapped,
    last, publish, latest⟩ := steps_asleep
  obtain ⟨execution, index, rfl⟩ := Execution.reaching steps
  have told : ∀ other, ((execution.world index).marks other).unwoken.map Prod.fst ≠ some file := by
    intro other
    rw [Execution.world, unmarked other]
    exact fun same => by cases same
  obtain ⟨active, current⟩ := no_lost_wakeup execution index 1 waits asleep told alive unwrapped
  exact ⟨execution, index, file, generation, since, program, last, publish, waits, asleep, active,
    latest, current latest⟩

end PsMsgr
