import PsMsgr.Channel.Acquiring
import PsMsgr.Channel.Typing
import PsMsgr.Properties.Absence
import PsMsgr.Properties.Sessions

namespace PsMsgr

open Effect

theorem Disk.Evolves.header {before after : Disk} (evolves : before.Evolves after) {file : FileId}
    (installed : before.installed file = true) :
    Header.ofMemory (after.memory file) = Header.ofMemory (before.memory file) :=
  Header.ofMemory_congr (evolves.image installed).header

namespace Execution

variable {execution : Execution} {thread : Tid} {first last : Nat} {build : Build}
  {environment : Option (List Char)} {turns : Nat} {name : Option (List Char)}
  {opt : Option Options}

theorem agrees_of_called {w : Writer} {result : Result}
    (call : execution.Called thread .fresh (.writerOpen build environment turns name opt)
      (.writer w, result) first last) :
    ∃ o, loadOptions build.abi opt = .ok o ∧ (execution.world last).disk.data = some w.file ∧
      Header.Agrees build o (Header.ofMemory ((execution.world last).disk.memory w.file)) := by
  obtain ⟨begins, finish, rests, bounded, executes⟩ := call.executes
  have idle := rested rests stable_idle (owns_first call)
  obtain ⟨opened, index, opens, executes⟩ := executes.of_bind
  cases opened with
  | error code => exact nomatch executes.of_done.1
  | ok w =>
      obtain ⟨same, rfl⟩ := executes.of_done
      cases same
      rcases of_writerOpen opens idle with ⟨code, same, -⟩ |
        ⟨o, locked, start, held, loaded, -, ⟨code, -, same⟩ | ⟨lockFd, index, -, data⟩⟩
      · exact nomatch same
      · exact nomatch same
      · obtain ⟨-, inside⟩ := data.opened
        obtain ⟨⟨g, ready, -⟩, agrees⟩ := inside.holds
        have installed := ready.attached.here (execution.inv index).disk
        have upper := data.upper
        have evolves : (execution.world index).disk.Evolves (execution.world last).disk :=
          Execution.evolves (by omega)
        have owns : (Handle.writer _).Owns thread (execution.world last) := owns_last call
        obtain ⟨g, ready, -⟩ := owns.holds
        refine ⟨o, loaded, ready.attached.data, ?_⟩
        rw [evolves.header installed]
        exact agrees

/-- An open that fails has failed before it had the lock, or found a file it would not take. -/
theorem refused_of_called {returned : Handle} {code : Code}
    (call : execution.Called thread .fresh (.writerOpen build environment turns name opt)
      (returned, .code code) first last) (failed : code ≠ .ok) :
    (code = .inval ∨ code = .sys ∨ code = .writerExists) ∨
      ∃ o instant, loadOptions build.abi opt = .ok o ∧ first ≤ instant ∧ instant ≤ last ∧
        Refused o code (execution.world instant).disk := by
  obtain ⟨begins, finish, rests, bounded, executes⟩ := call.executes
  have idle := rested rests stable_idle (owns_first call)
  have before := rests.1
  obtain ⟨opened, index, opens, executes⟩ := executes.of_bind
  cases opened with
  | ok w =>
      cases executes.of_done.1
      exact absurd rfl failed
  | error code =>
      obtain ⟨same, rfl⟩ := executes.of_done
      cases same
      rcases of_writerOpen opens idle with ⟨code, same, invalid | sys⟩ |
        ⟨o, locked, start, held, loaded, locks, ⟨code, rfl, same⟩ | ⟨lockFd, index, -, data⟩⟩
      · cases same
        exact .inl (.inl invalid)
      · cases same
        exact .inl (.inr (.inl sys))
      · cases same
        exact .inl (.inr (locks.executes.always (lockChannel_locks _ _) _ rfl))
      · have lower := locks.lower
        have between := locks.executes.ordered
        have later := data.lower
        have upper := data.upper
        exact .inr ⟨o, index, loaded, by omega, by omega, data.opened.holds.2⟩

variable {r r' : Reader} {file : FileId}

theorem attachLoop_steady {rc : Code} {tries : Nat}
    (executes : execution.Executes thread (attachLoop r (tries + 1)) first (rc, r') last)
    (steady : ∀ index, first ≤ index → index ≤ last →
      (execution.world index).disk.data = some file) :
    rc ≠ .nodata ∧ (rc = .ok → r'.file = some file) := by
  rw [attachLoop] at executes
  obtain ⟨⟨code, found⟩, index, attaches, executes⟩ := executes.of_bind
  obtain ⟨absent, present⟩ := of_attach attaches
  have lower := attaches.ordered
  have here := steady first (Nat.le_refl _) (Nat.le_trans lower executes.ordered)
  dsimp only at executes
  split at executes
  · next map named =>
      obtain ⟨opened, same, data⟩ := present rfl
      obtain rfl : map = opened := Option.some.inj (named.symm.trans same)
      obtain rfl : map = file := Option.some.inj (data.symm.trans here)
      obtain ⟨gone, checked, checks, executes⟩ := executes.of_bind
      cases gone with
      | false =>
          cases executes.of_done.1
          exact ⟨by simp, fun _ => same⟩
      | true =>
          have retired := (of_retired checks).mp rfl
          have between := checks.ordered
          have upper := executes.ordered
          exact absurd retired
            ((execution.inv index).disk.data (steady index lower (by omega))).2.1
  · next missed =>
      cases executes.of_done.1
      refine ⟨fun none => ?_, fun ok => ?_⟩
      · cases (absent none).symm.trans here
      · obtain ⟨opened, same, -⟩ := present ok
        exact (missed opened ok same).elim

/-- A reader that gets in step while a writer is open is on the writer's file, unless it was
attached to one whose replacement was never completed. -/
theorem readerSync_session {rc : Code} {since : Disk} {writer : Tid}
    (following : Following thread r since (execution.world first))
    (executes : execution.Executes thread (readerSync r) first (rc, r') last)
    (session : ∀ index, first ≤ index → index ≤ last →
      ∃ w, ((execution.systems index).threads writer).Uses w ∧ w.file = file) :
    rc ≠ .nodata ∧ (rc = .ok → r'.file = some file ∨
      ∃ other, r'.file = some other ∧ (execution.world last).disk.abandoned other = true) := by
  have steady : ∀ index, first ≤ index → index ≤ last →
      (execution.world index).disk.data = some file := by
    intro index lower upper
    obtain ⟨w, uses, rfl⟩ := session index lower upper
    exact (tended uses).2.1
  -- the attach loop, from wherever it begins
  have loop {start : Nat} {r : Reader} (lower : first ≤ start)
      (executes : execution.Executes thread (attachLoop r attachRetries) start (rc, r') last) :
      rc ≠ .nodata ∧ (rc = .ok → r'.file = some file ∨
        ∃ other, r'.file = some other ∧ (execution.world last).disk.abandoned other = true) := by
    obtain ⟨present, attached⟩ := attachLoop_steady executes
      (fun index after before => steady index (Nat.le_trans lower after) before)
    exact ⟨present, fun ok => .inl (attached ok)⟩
  unfold readerSync at executes
  split at executes
  · next map attached =>
      obtain ⟨gone, index, checks, executes⟩ := executes.of_bind
      have lower := checks.ordered
      cases gone with
      | false =>
          have upper := executes.ordered
          obtain ⟨same, rfl⟩ := executes.of_done
          cases same
          refine ⟨nofun, fun _ => ?_⟩
          obtain ⟨w, uses, rfl⟩ := session first (Nat.le_refl _) lower
          by_cases current : map = w.file
          · exact .inl (by rw [attached, current])
          have installed := (following.attached attached).1.installed
          rcases displaced_of_uses uses installed current with retired | abandoned
          · exact nomatch (of_retired checks).mpr retired
          · have evolves : (execution.world first).disk.Evolves (execution.world last).disk :=
              Execution.evolves lower
            exact .inr ⟨map, attached, evolves.abandoned abandoned⟩
      | true =>
          obtain ⟨_, start, detaches, executes⟩ := executes.of_bind
          exact loop (Nat.le_trans lower detaches.ordered) executes
  · exact loop (Nat.le_refl _) executes

theorem typed_last {handle : Handle} {request : Request} {returned : Handle × Result}
    (call : execution.Called thread handle request returned first last) :
    returned.1.Typed (execution.world last) := by
  have carried := sound_start.carries typed_carries (fun _ => trivial) execution last thread
  rw [call.returns] at carried
  exact (carried _ (channel.rely_refl thread _) (execution.inv last)).2

end Execution

/-- What readers are told about a channel opened with these options. -/
def Options.description (o : Options) : Desc where
  capacity := o.capacity
  slotCount := o.slotCount
  payloadType := o.payloadType
  flags := if (o.flags &&& psmsgrStateNoNotify) != 0 then psmsgrStateNoNotify else 0

theorem description_flags (o : Options) :
    (if (configFlagsOf o &&& psmiConfigNoNotify) != 0 then psmsgrStateNoNotify else 0) =
      o.description.flags := by
  unfold configFlagsOf Options.description
  dsimp only
  split <;> rfl

/-- Opening for writing gives a channel with the options that were asked for, or refuses: it
reports `MISMATCH` only if at an instant of the call the channel had other options and the caller
did not ask for it to be recreated, and it never takes a channel for corrupt. -/
theorem writer_open_agrees (execution : Execution) :
    (∀ {thread build environment turns name opt w result first last},
      execution.Called thread .fresh (.writerOpen build environment turns name opt)
        (.writer w, result) first last →
      ∃ o, loadOptions build.abi opt = .ok o ∧ (execution.world last).disk.data = some w.file ∧
        Header.Agrees build o (Header.ofMemory ((execution.world last).disk.memory w.file))) ∧
    (∀ {thread build environment turns name opt returned first last},
      execution.Called thread .fresh (.writerOpen build environment turns name opt)
        (returned, .code .mismatch) first last →
      ∃ o instant file, loadOptions build.abi opt = .ok o ∧
        o.flags &&& psmsgrStateRecreate = 0 ∧ first ≤ instant ∧ instant ≤ last ∧
        (execution.world instant).disk.data = some file ∧
        Header.Differs o (Header.ofMemory ((execution.world instant).disk.memory file))) ∧
    ∀ {thread build environment turns name opt returned first last},
      ¬execution.Called thread .fresh (.writerOpen build environment turns name opt)
        (returned, .code .format) first last := by
  refine ⟨Execution.agrees_of_called, fun call => ?_, fun call => ?_⟩
  · rcases Execution.refused_of_called call nofun with (invalid | sys | taken) |
      ⟨o, instant, loaded, lower, upper, refused⟩
    · exact nomatch invalid
    · exact nomatch sys
    · exact nomatch taken
    · obtain ⟨kept, file, named, differs⟩ := refused.mismatch rfl
      exact ⟨o, instant, file, loaded, kept, lower, upper, named, differs⟩
  · rcases Execution.refused_of_called call nofun with (invalid | sys | taken) |
      ⟨o, instant, loaded, lower, upper, refused⟩
    · exact nomatch invalid
    · exact nomatch sys
    · exact nomatch taken
    · exact refused.intact rfl

/-- A writer was opened with these options on this file, and is open from `first` to `last`. -/
structure Execution.Session (execution : Execution) (writer : Tid) (o : Options) (file : FileId)
    (first last : Nat) : Prop where
  opened : ∃ build environment turns name opt w result begun opened,
    execution.Called writer .fresh (.writerOpen build environment turns name opt)
      (.writer w, result) begun opened ∧
    loadOptions build.abi opt = .ok o ∧ w.file = file ∧ opened ≤ first
  early : ∃ w, ((execution.systems first).threads writer).Uses w
  late : ∃ w, ((execution.systems last).threads writer).Uses w

namespace Execution.Session

variable {execution : Execution} {writer thread : Tid} {o : Options} {file : FileId}
  {first last : Nat} {r r' : Reader}

theorem during (session : execution.Session writer o file first last) {index : Nat}
    (lower : first ≤ index) (upper : index ≤ last) :
    ∃ w, ((execution.systems index).threads writer).Uses w ∧ w.file = file := by
  obtain ⟨build, environment, turns, name, opt, w, result, begun, opened, opens, -, rfl, ordered⟩ :=
    session.opened
  obtain ⟨before, early⟩ := session.early
  obtain ⟨after, late⟩ := session.late
  have stays := stays_of_uses early
  rw [opened_file opens ordered early] at stays
  exact Execution.session lower upper stays late

theorem data (session : execution.Session writer o file first last) {index : Nat}
    (lower : first ≤ index) (upper : index ≤ last) :
    (execution.world index).disk.data = some file := by
  obtain ⟨w, uses, rfl⟩ := session.during lower upper
  exact (tended uses).2.1

theorem agrees (session : execution.Session writer o file first last) {index : Nat}
    (ordered : first ≤ index) :
    ∃ build, Header.Agrees build o (Header.ofMemory ((execution.world index).disk.memory file)) := by
  obtain ⟨build, environment, turns, name, opt, w, result, begun, opened, opens, loaded, rfl,
    before⟩ := session.opened
  obtain ⟨o', same, named, agrees⟩ := agrees_of_called opens
  obtain rfl : o = o' := Except.ok.inj (loaded.symm.trans same)
  have evolves : (execution.world opened).disk.Evolves (execution.world index).disk :=
    Execution.evolves (Nat.le_trans before ordered)
  refine ⟨build, ?_⟩
  rw [evolves.header ((execution.inv opened).disk.data named).1]
  exact agrees

end Execution.Session

namespace Execution

variable {execution : Execution} {thread writer : Tid} {o : Options} {file : FileId}
  {first last : Nat} {r r' : Reader}

theorem described (session : execution.Session writer o file first last) {request : Request}
    {result : Result} {handle : Handle}
    (call : execution.Called thread handle request (.reader r', result) first last)
    (current : r'.file = some file) :
    r'.capacity = o.capacity ∧ r'.slotCount = o.slotCount ∧ r'.payloadType = o.payloadType ∧
      r'.configFlags = configFlagsOf o := by
  obtain ⟨build, agrees⟩ := session.agrees call.ordered
  have owns : (Handle.reader r').Owns thread (execution.world last) := owns_last call
  have typed : r'.Typed (execution.world last) := typed_last call
  have cached := (owns.attached current).1
  obtain ⟨h, size, known, payloadType⟩ := typed _ current
  rw [← known.header] at payloadType
  exact ⟨cached.capacity.trans agrees.capacity, cached.slotCount.trans agrees.slotCount,
    payloadType.trans agrees.payloadType, cached.configFlags.trans agrees.configFlags⟩

end Execution

/-- While a writer is open, `psmsgr_state_describe` tells exactly what it was opened with, or that
a system call failed; never that there is no channel.  A read or peek finds no value only if
nothing has been published in the writer's file.  The one exception is a reader that is still
attached to a file whose replacement was never completed. -/
theorem session_seen (execution : Execution) :
    (∀ {writer o file thread r r' code desc first last},
      execution.Session writer o file first last →
      execution.Called thread (.reader r) .describe (.reader r', .described code desc) first last →
      code = .sys ∨ (code = .ok ∧ (desc = some o.description ∨
        ∃ file, r'.file = some file ∧ (execution.world last).disk.abandoned file = true))) ∧
    ∀ {writer o file thread r r' request reply first last},
      execution.Session writer o file first last →
      execution.Called thread (.reader r) request (.reader r', .read reply) first last →
      request.Reads → reply.code = .nodata →
      (∀ publish ∈ (execution.world first).disk.publishes, publish.file ≠ file) ∨
        ∃ file, r'.file = some file ∧ (execution.world last).disk.abandoned file = true := by
  refine ⟨fun {writer o file thread r r' code desc first last} session call => ?_,
    fun {writer o file thread r r' request reply first last} session call reads absent => ?_⟩
  · obtain ⟨begins, finish, rests, bounded, executes⟩ := call.executes
    have following := Execution.rested rests Following.stable (Execution.owns_first call)
    obtain ⟨⟨rc, answer, later⟩, _, describes, finished⟩ := executes.of_bind
    obtain ⟨same, rfl⟩ := finished.of_done
    cases same
    obtain ⟨⟨rc, synced⟩, index, sync, found⟩ := describes.of_bind
    have lower := rests.1
    have passed := found.ordered
    have codes := (Execution.ends sync triple_readerSync following).2
    obtain ⟨present, attached⟩ := Execution.readerSync_session following sync
      (fun index after before => session.during (by omega) (by omega))
    dsimp only at found
    split at found
    · next failed =>
        cases found.of_done.1
        rcases codes with ⟨ok, -⟩ | none | sys
        · exact absurd ok failed
        · exact absurd none present
        · exact .inl sys
    · next ok =>
        cases found.of_done.1
        refine .inr ⟨rfl, ?_⟩
        rcases attached (not_not.mp ok) with current | ⟨other, here, abandoned⟩
        · obtain ⟨capacity, slotCount, payloadType, configFlags⟩ :=
            Execution.described session call current
          refine .inl (congrArg some ?_)
          rw [capacity, slotCount, payloadType, configFlags, description_flags]
          rfl
        · have evolves : (execution.world index).disk.Evolves (execution.world last).disk :=
            Execution.evolves (by omega)
          exact .inr ⟨other, here, evolves.abandoned abandoned⟩
  · obtain ⟨buffer, size, copy, asks⟩ := reads.asks
    rcases Execution.reading call asks with invalid | ⟨code, synced, start, index, reading⟩
    · exact nomatch absent.symm.trans invalid
    have lower := reading.lower
    have upper := reading.upper
    obtain ⟨present, attached⟩ := Execution.readerSync_session reading.following reading.syncs
      (fun index after before => session.during (by omega) (by omega))
    rcases reading.outcome with ⟨same, -, -⟩ |
      ⟨ok, found, info, finish, bounded, named, here, looks⟩
    · exact absurd (same.symm.trans absent) present
    rcases attached ok with current | ⟨other, same, abandoned⟩
    · obtain rfl : found = file := Option.some.inj (named.symm.trans current)
      have between := reading.syncs.ordered
      have installed := ((execution.inv index).disk.data
        (session.data (by omega) upper)).1
      rw [absent] at looks
      obtain ⟨instant, after, before, bare⟩ := Execution.of_readLoop_nodata installed looks
      refine .inl fun publish published same => ?_
      have evolves : (execution.world first).disk.Evolves (execution.world instant).disk :=
        Execution.evolves (by omega)
      have inside : publish ∈ ((execution.world instant).disk.image found).history :=
        List.mem_filter.mpr ⟨evolves.publishes.subset published, by simpa using same⟩
      rw [bare] at inside
      exact nomatch inside
    · obtain rfl : found = other := Option.some.inj (named.symm.trans same)
      have evolves : (execution.world index).disk.Evolves (execution.world last).disk :=
        Execution.evolves upper
      exact .inr ⟨found, here, evolves.abandoned abandoned⟩

end PsMsgr
