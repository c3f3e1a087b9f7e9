import PsMsgr.Properties.Absence

namespace PsMsgr

open Effect Data

theorem identityCheck_sys {r : Reader} :
    (identityCheck r).Always (fun _ => True) (fun result => result.1 = .ok ∨ result.1 = .sys) := by
  unfold identityCheck
  split
  · exact .inl rfl
  have detaches {map : FileId} : (do
      let r ← detach r map
      return (Code.ok, r) : Prog (Code × Reader)).Always (fun _ => True)
        (fun result => result.1 = .ok ∨ result.1 = .sys) :=
    (Program.Always.intro _).bind fun _ _ => .inl rfl
  refine Program.Always.bind (Program.Always.perform trivial) fun reply _ => ?_
  split
  · split
    · exact .inl rfl
    · exact detaches
  · exact detaches
  · exact .inr rfl

namespace Execution

variable {execution : Execution} {thread : Tid} {r r' : Reader} {file : FileId} {first last : Nat}

/-- What `read_latest` found in a file, at an instant between `first` and `last`. -/
inductive Sought (execution : Execution) (thread : Tid) (r : Reader) (file : FileId)
    (first last : Nat) : Code → Option Info → Prop where
  | none {info : Option Info} {instant : Nat} (lower : first ≤ instant) (upper : instant ≤ last)
      (bare : ((execution.world instant).disk.image file).history = []) :
      Sought execution thread r file first last .nodata info
  | starved {info : Option Info}
      (counted : (execution.world first).disk.published file +
        readRetries * (r.slotCount.toNat - 1) ≤ (execution.world last).disk.published file) :
      Sought execution thread r file first last .busy info
  | torn {info : Option Info} (wrapped : ((execution.world last).log thread).wrapped = true) :
      Sought execution thread r file first last .format info
  | value {code : Code} {info : Info} {instant index : Nat} {publish : Publish}
      (read : code = .ok ∨ code = .toosmall) (lower : first ≤ instant) (upper : instant ≤ last)
      (latest : (execution.world instant).disk.Latest file index publish)
      (shows : ((execution.world last).log thread).wrapped = false → Shows publish info) :
      Sought execution thread r file first last code (some info)

theorem sought {buffer left : List UInt8} {size : UInt32} {copy : Bool} {code : Code}
    {info : Option Info} {since : Disk}
    (following : Following thread r since (execution.world first)) (attached : r.file = some file)
    (executes : execution.Executes thread (readLatest r file buffer size copy) first
      (code, info, left) last) :
    Sought execution thread r file first last code info := by
  have cached := (following.attached attached).1
  have outcome := ends executes (triple_readLatest (execution.inv first).disk attached)
    following.refresh
  cases outcome with
  | empty bare =>
      obtain ⟨instant, lower, upper, bare⟩ := of_readLoop_nodata cached.installed executes
      exact .none lower upper bare
  | moved failed following' attached' stores torn =>
      rcases failed with rfl | rfl
      · exact .torn (torn rfl)
      · exact .starved (publishes_of_busy cached executes)
  | @shown _ info _ x g index publish read observed =>
      obtain rfl := observed.anchor.named
      obtain ⟨instant, lower, upper, latest, here⟩ :=
        latest_at executes.ordered observed.sampled.here observed.anchor.recent
      exact .value (read.imp id fun large => large.1) lower upper ⟨latest, here⟩
        fun unwrapped => observed.shows (.inl unwrapped)

/-- There was no news at an instant of the wait: no value, the value already known, or values
that came too fast to be read. -/
inductive Unchanged (execution : Execution) (thread : Tid) (generation : UInt32) (r : Reader)
    (first last : Nat) : Prop where
  | vacant (vacant : execution.Vacant first last)
  | bare {file : FileId} {instant : Nat} (attached : r.file = some file)
      (lower : first ≤ instant) (upper : instant ≤ last)
      (bare : ((execution.world instant).disk.image file).history = [])
  | known {file : FileId} {instant index : Nat} {publish : Publish} (attached : r.file = some file)
      (lower : first ≤ instant) (upper : instant ≤ last)
      (latest : (execution.world instant).disk.Latest file index publish)
      (same : ((execution.world last).log thread).wrapped = false → publish.generation = generation)
  | starved {file : FileId} {start : Nat} (attached : r.file = some file) (lower : first ≤ start)
      (counted : (execution.world start).disk.published file +
        readRetries * (r.slotCount.toNat - 1) ≤ (execution.world last).disk.published file)

/-- What a wait that began at `first` tells when it ends at `last`. -/
structure Waited (execution : Execution) (thread : Tid) (generation : UInt32) (deadline : UInt64)
    (first last : Nat) (code : Code) (r : Reader) : Prop where
  codes : code = .ok ∨ code = .timeout ∨ code = .notsup ∨ code = .format ∨ code = .intr ∨
    code = .sys
  news : code = .ok → ((execution.world last).log thread).wrapped = false →
    ∃ file instant index publish, r.file = some file ∧ first ≤ instant ∧ instant ≤ last ∧
      (execution.world instant).disk.Latest file index publish ∧ publish.generation ≠ generation
  late : code = .timeout → deadline ≤ (execution.world last).now ∧
    Unchanged execution thread generation r first last
  unsupported : code = .notsup → ∃ file, r.file = some file ∧
    (execution.world last).disk.installed file = true ∧ (execution.world last).disk.NoNotify file
  torn : code = .format → ((execution.world last).log thread).wrapped = true

theorem Waited.widen {start : Nat} {generation : UInt32} {deadline : UInt64} {code : Code}
    (waited : Waited execution thread generation deadline start last code r)
    (lower : first ≤ start) : Waited execution thread generation deadline first last code r := by
  refine ⟨waited.codes, fun ok unwrapped => ?_, fun late => ⟨(waited.late late).1, ?_⟩,
    waited.unsupported, waited.torn⟩
  · obtain ⟨file, instant, index, publish, attached, after, before, latest, news⟩ :=
      waited.news ok unwrapped
    exact ⟨file, instant, index, publish, attached, Nat.le_trans lower after, before, latest, news⟩
  · cases (waited.late late).2 with
    | vacant vacant => exact .vacant (vacant.widen lower (Nat.le_refl _))
    | bare attached after before bare => exact .bare attached (Nat.le_trans lower after) before bare
    | known attached after before latest same =>
        exact .known attached (Nat.le_trans lower after) before latest same
    | starved attached after counted => exact .starved attached (Nat.le_trans lower after) counted

theorem unwrapped_earlier (ordered : first ≤ last)
    (unwrapped : ((execution.world last).log thread).wrapped = false) :
    ((execution.world first).log thread).wrapped = false := by
  cases earlier : ((execution.world first).log thread).wrapped with
  | false => rfl
  | true => exact nomatch (wrapped_mono ordered earlier).symm.trans unwrapped

theorem of_clock {now : UInt64} {finish : Nat}
    (executes : execution.Executes thread (call (.clock .monotonic)) first now finish)
    (ordered : finish ≤ last) : now ≤ (execution.world last).now := by
  obtain ⟨⟨-, later⟩, rests⟩ := executes.of_perform
  have shown : (execution.world (first + 1)).now = now := congrArg World.now later
  rw [← shown]
  exact now_mono (Nat.le_trans rests.1 ordered)

theorem Waited.failed {generation : UInt32} {deadline : UInt64} {code : Code}
    (failed : code = .intr ∨ code = .sys) :
    Waited execution thread generation deadline first last code r := by
  refine ⟨?_, ?_, ?_, ?_, ?_⟩ <;> rcases failed with rfl | rfl <;> simp

/-- A look that brings no news, and the deadline has passed. -/
theorem Waited.timeout {generation : UInt32} {deadline : UInt64}
    (passed : deadline ≤ (execution.world last).now)
    (unchanged : Unchanged execution thread generation r first last) :
    Waited execution thread generation deadline first last .timeout r :=
  ⟨.inr (.inl rfl), nofun, fun _ => ⟨passed, unchanged⟩, nofun, nofun⟩

theorem Sought.unchanged {generation : UInt32} {start finish : Nat} {code : Code}
    {info : Option Info} (sought : Sought execution thread r file start finish code info)
    (attached : r.file = some file) (lower : first ≤ start) (upper : finish ≤ last)
    (nothing : ¬(code = .ok ∧ info.map (·.generation) ≠ some generation))
    (intact : code ≠ .format) (fits : code ≠ .toosmall) :
    Unchanged execution thread generation r first last := by
  cases sought with
  | none after before bare => exact .bare attached (by omega) (by omega) bare
  | starved counted =>
      exact .starved attached lower (Nat.le_trans counted (published_mono upper))
  | torn => exact absurd rfl intact
  | @value _ info instant index publish read after before latest shows =>
      refine .known attached (Nat.le_trans lower after) (Nat.le_trans before upper) latest
        fun unwrapped => ?_
      rw [← (shows (unwrapped_earlier upper unwrapped)).generation]
      by_contra differs
      exact nothing ⟨read.resolve_right fits, fun same => differs (Option.some.inj same)⟩

theorem Sought.news {generation : UInt32} {deadline : UInt64} {finish : Nat} {code : Code}
    {info : Option Info} (sought : Sought execution thread r file first finish code info)
    (attached : r.file = some file)
    (news : code = .ok ∧ info.map (·.generation) ≠ some generation) (upper : finish ≤ last) :
    Waited execution thread generation deadline first last .ok r := by
  refine ⟨.inl rfl, fun _ unwrapped => ?_, by simp, by simp, by simp⟩
  obtain ⟨rfl, differs⟩ := news
  cases sought with
  | @value _ info instant index publish read after before latest shows =>
      refine ⟨file, instant, index, publish, attached, after, Nat.le_trans before upper, latest, ?_⟩
      rw [← (shows (unwrapped_earlier upper unwrapped)).generation]
      exact fun same => differs (congrArg some same)

theorem Sought.wrapped {generation : UInt32} {deadline : UInt64} {code : Code} {info : Option Info}
    (sought : Sought execution thread r file first last code info) (torn : code = .format) :
    Waited execution thread generation deadline first last .format r := by
  refine ⟨by simp, by simp, by simp, by simp, fun _ => ?_⟩
  cases sought with
  | torn wrapped => exact wrapped
  | none | starved => cases torn
  | value read => rcases read with rfl | rfl <;> cases torn

/-- What a turn of the loop comes to: the wait ends with it, or another turn begins. -/
def Turned (execution : Execution) (thread : Tid) (generation : UInt32) (deadline : UInt64)
    (since : Disk) (turns first last : Nat) (code : Code) (r : Reader) : Prop :=
  Waited execution thread generation deadline first last code r ∨
    ∃ start next, first ≤ start ∧ Waiting thread next since generation (execution.world start) ∧
      execution.Executes thread (waitLoop generation deadline turns next) start (code, r) last

section Turn

variable {generation : UInt32} {deadline : UInt64} {since : Disk} {turns : Nat} {code : Code}

theorem Turned.widen {start : Nat}
    (turned : Turned execution thread generation deadline since turns start last code r)
    (lower : first ≤ start) :
    Turned execution thread generation deadline since turns first last code r := by
  rcases turned with waited | ⟨later, next, after, waiting, executes⟩
  · exact .inl (waited.widen lower)
  · exact .inr ⟨later, next, Nat.le_trans lower after, waiting, executes⟩

/-- The rest of a turn without a file. -/
def waitAbsent (generation : UInt32) (deadline : UInt64) (turns : Nat) (r : Reader) :
    Prog (Code × Reader) := do
  let now ← call (.clock .monotonic)
  if now ≥ deadline then
    return (.timeout, r)
  let ns := if deadline - now < unattachedPollNs then deadline - now else unattachedPollNs
  if ← call (.nanosleep ns) then
    return (.intr, r)
  waitLoop generation deadline turns r

theorem turned_of_waitAbsent {began : Nat} (vacant : execution.Vacant began first)
    (lower : began ≤ first) (waiting : Waiting thread r since generation (execution.world first))
    (executes : execution.Executes thread (waitAbsent generation deadline turns r) first (code, r')
      last) :
    Turned execution thread generation deadline since turns began last code r' := by
  obtain ⟨now, read, clocks, executes⟩ := executes.of_bind
  have waiting := ends clocks triple_clockOutside waiting
  have reading := clocks.ordered
  have finished := executes.ordered
  split at executes
  · next passed =>
      cases executes.of_done.1
      refine .inl (.timeout (UInt64.le_trans passed (of_clock clocks finished)) (.vacant ?_))
      exact vacant.widen (Nat.le_refl _) (Nat.le_trans reading finished)
  obtain ⟨interrupted, slept, sleeps, executes⟩ := executes.of_bind
  have waiting := ends sleeps (triple_skip (.nanosleep _) trivial Waiting.stable) waiting
  have sleeping := sleeps.ordered
  split at executes
  · cases executes.of_done.1
    exact .inl (.failed (.inl rfl))
  · exact .inr ⟨slept, _, by omega, waiting, executes⟩

/-- The rest of a turn that has slept. -/
def waitWoken (generation : UInt32) (deadline : UInt64) (turns : Nat) (r : Reader) :
    Except Errno Unit → Prog (Code × Reader)
  | .ok _ => waitLoop generation deadline turns r
  | .error .eintr => return (.intr, r)
  | .error .etimedout => do
      let (rc, r) ← identityCheck r
      if rc ≠ .ok then
        return (rc, r)
      waitLoop generation deadline turns r
  | .error .eagain => waitLoop generation deadline turns r
  | .error _ => return (.sys, r)

theorem turned_of_waitWoken {woken : Except Errno Unit}
    (waiting : Waiting thread r since generation (execution.world first))
    (executes : execution.Executes thread (waitWoken generation deadline turns r woken) first
      (code, r') last) :
    Turned execution thread generation deadline since turns first last code r' := by
  unfold waitWoken at executes
  split at executes
  · exact .inr ⟨first, r, Nat.le_refl _, waiting, executes⟩
  · cases executes.of_done.1
    exact .inl (.failed (.inl rfl))
  · obtain ⟨⟨rc, kept⟩, identified, identifies, executes⟩ := executes.of_bind
    have waiting := ends identifies (triple_asking triple_identityCheck) waiting
    have failing := identifies.always identityCheck_sys
    dsimp only at executes
    split at executes
    · next failed =>
        cases executes.of_done.1
        exact .inl (.failed (.inr (failing.resolve_left failed)))
    · exact .inr ⟨identified, kept, identifies.ordered, waiting, executes⟩
  · exact .inr ⟨first, r, Nat.le_refl _, waiting, executes⟩
  · cases executes.of_done.1
    exact .inl (.failed (.inr rfl))

/-- The rest of a turn that found nothing new in the file. -/
def waitQuiet (generation : UInt32) (deadline : UInt64) (turns : Nat) (r : Reader) (map : FileId)
    (n : UInt32) : Prog (Code × Reader) := do
  let now ← call (.clock .monotonic)
  if now ≥ deadline then
    return (.timeout, r)
  let slice := if deadline - now < waitSliceNs then deadline - now else waitSliceNs
  waitWoken generation deadline turns r (← futexWait map n slice)

theorem turned_of_waitQuiet {noted : Disk} {n : UInt32} {began : Nat}
    (note : Note since file noted n) (active : Active noted file)
    (resting : Resting thread r file noted generation (execution.world first))
    (asking : Asking thread generation (execution.world first)) (lower : began ≤ first)
    (unchanged : ∀ later, first ≤ later → Unchanged execution thread generation r began later)
    (executes : execution.Executes thread (waitQuiet generation deadline turns r file n) first
      (code, r') last) :
    Turned execution thread generation deadline since turns began last code r' := by
  obtain ⟨now, read, clocks, executes⟩ := executes.of_bind
  have resting := ends clocks (triple_clockResting note.here) ⟨resting, asking⟩
  have reading := clocks.ordered
  have finished := executes.ordered
  split at executes
  · next passed =>
      cases executes.of_done.1
      exact .inl (.timeout (UInt64.le_trans passed (of_clock clocks finished))
        (unchanged last (Nat.le_trans reading finished)))
  obtain ⟨woken, slept, sleeps, executes⟩ := executes.of_bind
  have waiting := ends sleeps (triple_futexWait note active) resting
  have sleeping := sleeps.ordered
  exact (turned_of_waitWoken waiting executes).widen (by omega)

/-- The rest of a turn whose file is not retired. -/
def waitLook (generation : UInt32) (deadline : UInt64) (turns : Nat) (r : Reader) (map : FileId)
    (n : UInt32) : Prog (Code × Reader) := do
  let (rc, info, _) ← readLatest r map [] 0 false
  if rc = .ok ∧ info.map (·.generation) ≠ some generation then
    return (.ok, r)
  if rc = .format then
    return (.format, r)
  waitQuiet generation deadline turns r map n

theorem turned_of_waitLook {noted : Disk} {n : UInt32} (note : Note since file noted n)
    (active : Active noted file) (attached : r.file = some file)
    (following : Following thread r noted (execution.world first))
    (based : Based thread file noted (execution.world first))
    (asking : Asking thread generation (execution.world first))
    (executes : execution.Executes thread (waitLook generation deadline turns r file n) first
      (code, r') last) :
    Turned execution thread generation deadline since turns first last code r' := by
  obtain ⟨⟨found, info, bytes⟩, looked, looks, executes⟩ := executes.of_bind
  have seeking := sought following attached looks
  obtain ⟨⟨outcome, based⟩, asking⟩ := ends looks
    (triple_asking (triple_based (readLoop_looks 0 false readRetries [])
      (triple_readLatest note.inv attached))) ⟨⟨following, based⟩, asking⟩
  have looking := looks.ordered
  have remaining := executes.ordered
  dsimp only at executes
  split at executes
  · next news =>
      cases executes.of_done.1
      exact .inl (seeking.news attached news remaining)
  next nothing =>
  split at executes
  · next torn =>
      obtain ⟨same, rfl⟩ := executes.of_done
      cases same
      exact .inl (seeking.wrapped torn)
  next intact =>
  have fits : found ≠ .toosmall := by
    rintro rfl
    cases outcome with
    | moved failed => simp at failed
    | shown read => simp at read
  refine turned_of_waitQuiet note active (outcome.resting note.here attached based nothing) asking
    looking (fun later upper => ?_) executes
  exact seeking.unchanged attached (Nat.le_refl _) upper nothing intact fits

/-- A turn ends the wait, telling what it found, or leaves a waiting reader to the next one. -/
theorem turned_of_waitLoop (waiting : Waiting thread r since generation (execution.world first))
    (executes : execution.Executes thread (waitLoop generation deadline (turns + 1) r) first
      (code, r') last) :
    Turned execution thread generation deadline since turns first last code r' := by
  rw [waitLoop] at executes
  obtain ⟨⟨rc, synced⟩, index, syncs, executes⟩ := executes.of_bind
  obtain ⟨inStep, asking⟩ := ends syncs (triple_asking triple_readerSync) waiting
  have reached := syncs.ordered
  dsimp only at executes
  split at executes
  · next file attached =>
      split at executes
      · next silent =>
          obtain ⟨same, rfl⟩ := executes.of_done
          cases same
          have cached := (inStep.1.attached attached).1
          refine .inl ⟨by simp, by simp, by simp, fun _ => ⟨file, attached, cached.installed, ?_⟩,
            by simp⟩
          rw [cached.configFlags] at silent
          exact bne_iff_ne.mp silent
      next notifying =>
      obtain ⟨n, noting, loads, executes⟩ := executes.of_bind
      obtain ⟨⟨noted, note, following, based⟩, asking⟩ := ends loads (triple_asking
        (triple_loadNotify attached (by simpa using notifying))) ⟨inStep.1, asking⟩
      obtain ⟨gone, checked, checks, executes⟩ := executes.of_bind
      obtain ⟨⟨⟨following, active⟩, based⟩, asking⟩ := ends checks
        (triple_asking (triple_based retired_looks triple_retired)) ⟨⟨following, based⟩, asking⟩
      have noting' := loads.ordered
      have checking := checks.ordered
      split at executes
      · exact .inr ⟨checked, synced, by omega, ⟨following.earlier note.evolves, asking⟩, executes⟩
      next still =>
      exact (turned_of_waitLook note (active (by simpa using still)) attached following based asking
        executes).widen (by omega)
  · have vacant := (of_readerSync waiting.1 syncs).1 rfl
    exact turned_of_waitAbsent vacant reached ⟨inStep.1, asking⟩ executes
  · next absent missed =>
      cases executes.of_done.1
      rcases inStep.2 with ⟨ok, file, named, -⟩ | none | sys
      · exact (missed file ok named).elim
      · exact (absent none).elim
      · exact .inl (.failed (.inr sys))

end Turn

/-- From turn to turn, until one ends the wait. -/
theorem waited_of_waitLoop {generation : UInt32} {deadline : UInt64} {since : Disk} {turns : Nat}
    {code : Code} (waiting : Waiting thread r since generation (execution.world first))
    (executes : execution.Executes thread (waitLoop generation deadline turns r) first (code, r')
      last) :
    Waited execution thread generation deadline first last code r' := by
  induction turns generalizing first r with
  | zero =>
      obtain ⟨reply, -⟩ := executes.of_bind
      cases reply
  | succ turns ih =>
      rcases turned_of_waitLoop waiting executes with
        waited | ⟨start, next, lower, waiting, executes⟩
      · exact waited
      · exact (ih waiting executes).widen lower

/-- The deadline of a wait: the timeout from the time the call began, or none. -/
structure Due (execution : Execution) (timeoutMs : Int) (first : Nat) (deadline : UInt64) : Prop where
  never : timeoutMs < 0 → deadline = 0xFFFFFFFFFFFFFFFF
  timed : 0 ≤ timeoutMs → ∃ started, (execution.world first).now ≤ started ∧
    deadline = started + UInt64.ofNat timeoutMs.toNat * nsPerMs

theorem waited_of_called {turns : Nat} {generation : UInt32} {timeoutMs : Int} {code : Code}
    (call : execution.Called thread (.reader r) (.wait turns generation timeoutMs)
      (.reader r', .code code) first last) :
    ∃ deadline finish, Due execution timeoutMs first deadline ∧ finish ≤ last ∧
      Waited execution thread generation deadline first finish code r' := by
  obtain ⟨begins, finish, rests, bounded, executes⟩ := call.executes
  obtain ⟨state, inv, owns, accepted, since⟩ :=
    sound_start.begun execution (fun _ => ⟨Handle.fresh, rfl⟩) call.started
  have asked : Asking thread generation (execution.world first) := by
    rw [world, since]
    exact Function.update_self _ _ _
  have waiting := rested rests Waiting.stable ⟨owns_first call, asked⟩
  have before := rests.1
  obtain ⟨⟨found, later⟩, index, waits, finished⟩ := executes.of_bind
  obtain ⟨same, rfl⟩ := finished.of_done
  cases same
  unfold psmsgrStateWait at waits
  split at waits
  · next endless =>
      exact ⟨_, _, ⟨fun _ => rfl, fun timed => absurd endless (by omega)⟩, bounded,
        (waited_of_waitLoop waiting waits).widen before⟩
  · next timed =>
      obtain ⟨now, started, clocks, waits⟩ := waits.of_bind
      have early : (execution.world first).now ≤ now :=
        UInt64.le_trans (now_mono before) clocks.of_perform.1.1
      have waiting := ends clocks triple_clockOutside waiting
      refine ⟨_, _, ⟨fun endless => absurd endless timed, fun _ => ⟨now, early, rfl⟩⟩, bounded, ?_⟩
      exact (waited_of_waitLoop waiting waits).widen (Nat.le_trans before clocks.ordered)

end Execution

/-- The library's own files are never taken for corrupt: `FORMAT` is reported by a read, a peek or
a wait only if a slot was committed 2^27 times within an attempt to read it, this one or an earlier
one of the reader, and never by `psmsgr_state_describe`. -/
theorem format_means_wrapped (execution : Execution) :
    (∀ {thread r r' request reply first last},
      execution.Called thread (.reader r) request (.reader r', .read reply) first last →
      request.Reads → reply.code = .format →
      ((execution.world last).log thread).wrapped = true) ∧
    (∀ {thread r r' turns generation timeoutMs first last},
      execution.Called thread (.reader r) (.wait turns generation timeoutMs)
        (.reader r', .code .format) first last →
      ((execution.world last).log thread).wrapped = true) ∧
    ∀ {thread r r' desc first last},
      ¬execution.Called thread (.reader r) .describe (.reader r', .described .format desc) first
        last := by
  refine ⟨fun {thread r r' request reply first last} call reads torn => ?_, fun call => ?_,
    fun {thread r r' desc first last} call => ?_⟩
  · obtain ⟨buffer, size, copy, asks⟩ := reads.asks
    rcases Execution.reading call asks with invalid | ⟨code, synced, start, index, reading⟩
    · exact nomatch torn.symm.trans invalid
    have inStep := Execution.ends reading.syncs triple_readerSync reading.following
    rcases reading.outcome with ⟨same, -, -⟩ |
      ⟨ok, file, info, finish, bounded, named, -, looks⟩
    · rcases inStep.2 with ⟨ok, -⟩ | none | sys
      · exact nomatch torn.symm.trans (same.trans ok)
      · exact nomatch torn.symm.trans (same.trans none)
      · exact nomatch torn.symm.trans (same.trans sys)
    · rw [torn] at looks
      cases Execution.sought inStep.1 named looks with
      | torn wrapped => exact Execution.wrapped_mono bounded wrapped
      | value read => rcases read with read | read <;> exact nomatch read
  · obtain ⟨deadline, finish, -, bounded, waited⟩ := Execution.waited_of_called call
    exact Execution.wrapped_mono bounded (waited.torn rfl)
  · obtain ⟨begins, finish, rests, bounded, executes⟩ := call.executes
    have following := Execution.rested rests Following.stable (Execution.owns_first call)
    obtain ⟨⟨code, answer, later⟩, _, describes, finished⟩ := executes.of_bind
    cases finished.of_done.1
    obtain ⟨⟨rc, synced⟩, index, syncs, found⟩ := describes.of_bind
    have inStep := Execution.ends syncs triple_readerSync following
    dsimp only at found
    split at found
    · cases found.of_done.1
      rcases inStep.2 with ⟨ok, -⟩ | none | sys
      · exact nomatch ok
      · exact nomatch none
      · exact nomatch sys
    · exact nomatch found.of_done.1

end PsMsgr
