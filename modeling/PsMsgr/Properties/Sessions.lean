import PsMsgr.Channel.Vacancy
import PsMsgr.Properties.WriterAlive

namespace PsMsgr

open Effect

/-- The thread has this writer handle, and is not closing it. -/
def Effect.Thread.Uses (w : Writer) : Thread processes → Prop
  | .idle handle => handle = Handle.writer w
  | .busy handle request _ _ => handle = Handle.writer w ∧ request ≠ Request.writerClose
  | .dead => False

/-- A writer's file is at the data path, and the writer displaces no other. -/
def Tended (thread : Tid) (status : Thread processes) (world : World) : Prop :=
  ∀ w, status.Uses w → world.crit thread ≠ none ∧ world.disk.data = some w.file ∧
    (world.marks thread).displacing = none ∧
    status.Always (fun made => made.Lockless ∧ ¬made.Names)

theorem Handle.Owns.tended {thread : Tid} {handle : Handle} {world : World}
    (owns : handle.Owns thread world) : Tended thread (.idle handle) world := by
  rintro w rfl
  obtain ⟨g, ready, -⟩ := owns.holds
  refine ⟨?_, ready.attached.data, ?_, trivial⟩
  · rw [owns.crit]
    nofun
  · rw [ready.idle]
    rfl

theorem tended_maintains :
    outline.Maintains (fun world => Inv world ∧ world.disk.Drafts) Tended where
  rely := by
    intro thread status before after _ _ tended rely w uses
    obtain ⟨inside, data, marks, always⟩ := tended w uses
    refine ⟨?_, ?_, ?_, always⟩
    · rw [Rely.crit rely]
      exact inside
    · rw [(Rely.frozen rely inside).2]
      exact data
    · rw [Rely.marks rely]
      exact marks
  start := by
    rintro thread handle request state - tended - - w ⟨rfl, kept⟩
    obtain ⟨inside, data, marks, -⟩ := tended w rfl
    have crit : (processes.begin thread request state).crit = state.crit :=
      (takeUp_locks thread request state).2
    have disk : (processes.begin thread request state).disk = state.disk := takeUp_disk request
    have same : (processes.begin thread request state).marks = state.marks := by
      cases request <;> rfl
    rw [crit, disk, same]
    refine ⟨inside, data, marks, ?_⟩
    exact writer_always ⟨fun _ => ⟨trivial, id⟩, fun _ _ => ⟨trivial, id⟩, fun _ _ => ⟨trivial, id⟩,
      ⟨trivial, id⟩, fun _ _ => ⟨trivial, id⟩, ⟨trivial, id⟩⟩ fun closes => absurd closes kept
  call := by
    intro thread handle request since made next reply before after known _ tended executed _ w uses
    obtain ⟨inside, data, marks, ⟨lockless, unnamed⟩, always⟩ := tended w uses
    have same := (exec_unnamed executed unnamed).1
    refine ⟨?_, same.trans data, ?_, always reply⟩
    · rw [(exec_lockless executed lockless).2.2]
      exact inside
    · by_contra displacing
      exact exec_displacing executed known.1 known.2 same displacing marks
  finish := fun _ _ owns => Handle.Owns.tended owns
  dead := nofun

namespace Execution

variable {execution : Execution} {thread : Tid} {w : Writer} {index : Nat}

theorem tended (uses : ((execution.systems index).threads thread).Uses w) :
    (execution.world index).crit thread ≠ none ∧
      (execution.world index).disk.data = some w.file ∧
      ((execution.world index).marks thread).displacing = none := by
  obtain ⟨inside, data, marks, -⟩ := sound_start.maintains tended_maintains
    (fun thread => Handle.Owns.tended (sound_start.threads thread)) execution
    (fun index => ⟨execution.inv index, execution.drafts index⟩) index thread w uses
  exact ⟨inside, data, marks⟩

/-- While a writer is open, every other file that was ever at the data path is retired, or its
replacement was never completed. -/
theorem displaced_of_uses {file : FileId} (uses : ((execution.systems index).threads thread).Uses w)
    (installed : (execution.world index).disk.installed file = true) (other : file ≠ w.file) :
    (execution.world index).disk.Retired file ∨
      (execution.world index).disk.abandoned file = true := by
  obtain ⟨inside, data, marks⟩ := tended uses
  have elsewhere : (execution.world index).disk.data ≠ some file := by
    rw [data]
    exact fun same => other (Option.some.inj same).symm
  rcases ((execution.inv index).settled (.inl ⟨thread, inside, rfl⟩)).displaced installed
    elsewhere with retired | abandoned | displacing
  · exact .inl retired
  · exact .inr abandoned
  · exact nomatch marks.symm.trans displacing

end Execution

/-- The thread is a writer on this file, and will be when its call returns. -/
def Stays (file : FileId) : Thread processes → Prop
  | .idle handle => ∃ w, handle = Handle.writer w ∧ w.file = file
  | .busy handle request _ program => (∃ w, handle = Handle.writer w ∧ w.file = file) ∧
      request ≠ Request.writerClose ∧
      program.Always (fun _ => True) (fun returned => ∃ w, returned.1 = .writer w ∧ w.file = file)
  | .dead => False

/-- The session has ended, or is being ended. -/
def Ended : Thread processes → Prop
  | .idle handle => handle = Handle.closed
  | .busy _ request _ program => request = Request.writerClose ∧
      program.Always (fun _ => True) (fun returned => returned.1 = Handle.closed)
  | .dead => True

theorem Ended.goes {before after : Thread processes} (goes : before.Goes after)
    (ended : Ended before) : Ended after := by
  cases goes with
  | stays => exact ended
  | dies => trivial
  | @starts handle request since accepted =>
      obtain rfl : handle = Handle.closed := ended
      change Handle.closed.accepts request at accepted
      cases request <;> exact accepted.elim
  | calls reply => exact ⟨ended.1, ended.2.2 reply⟩
  | finishes returned => exact ended.2

theorem stays_of_started {w : Writer} {request : Request} {since : World}
    (kept : request ≠ .writerClose) :
    Stays w.file (.busy (Handle.writer w) request since ((Handle.writer w).program request)) := by
  refine ⟨⟨w, rfl, rfl⟩, kept, ?_⟩
  exact (writer_continues (stores_any w.file) fun _ => ⟨trivial, trivial⟩).mono
    fun returned continues => continues.later kept

theorem Stays.goes {file : FileId} {before after : Thread processes} (goes : before.Goes after)
    (stays : Stays file before) : Stays file after ∨ Ended after := by
  cases goes with
  | stays => exact .inl stays
  | dies => exact .inr trivial
  | @starts handle request since accepted =>
      obtain ⟨w, rfl, rfl⟩ := stays
      by_cases closes : request = Request.writerClose
      · subst closes
        have closed : ((Handle.writer w).program .writerClose).Always (fun _ => True)
            (fun returned => Handle.Continues w .writerClose returned.1) :=
          writer_continues (stores_any w.file) fun _ => ⟨trivial, trivial⟩
        exact .inr ⟨rfl, closed⟩
      · exact .inl (stays_of_started closes)
  | calls reply => exact .inl ⟨stays.1, stays.2.1, stays.2.2.2 reply⟩
  | finishes returned => exact .inl stays.2.2

theorem Stays.of_uses {before after : Thread processes} (goes : before.Goes after)
    (holds : ∀ w, before.Uses w → Stays w.file before) {w : Writer} (uses : after.Uses w) :
    Stays w.file after := by
  cases goes with
  | stays => exact holds w uses
  | dies => exact uses.elim
  | @starts handle request since accepted =>
      obtain ⟨rfl, kept⟩ := uses
      exact stays_of_started kept
  | calls reply =>
      obtain ⟨writer, kept, always⟩ := holds w uses
      exact ⟨writer, kept, always.2 reply⟩
  | finishes returned => exact ⟨w, uses, rfl⟩

namespace Execution

variable {execution : Execution} {thread : Tid} {w later : Writer} {first last : Nat}
  {file : FileId}

theorem stays_of_uses (uses : ((execution.systems first).threads thread).Uses w) :
    Stays w.file ((execution.systems first).threads thread) := by
  refine execution.follows (fun status => ∀ w, status.Uses w → Stays w.file status)
    (fun goes holds w uses => Stays.of_uses goes holds uses) (Nat.zero_le first) ?_ w uses
  rw [execution.first]
  exact nofun

theorem stays_or_ended (ordered : first ≤ last)
    (stays : Stays file ((execution.systems first).threads thread)) :
    Stays file ((execution.systems last).threads thread) ∨
      Ended ((execution.systems last).threads thread) :=
  execution.follows (fun status => Stays file status ∨ Ended status)
    (fun goes holds => holds.elim (Stays.goes goes) fun ended => .inr (ended.goes goes)) ordered
    (.inl stays)

theorem not_ended_of_uses (uses : ((execution.systems last).threads thread).Uses w) :
    ¬Ended ((execution.systems last).threads thread) := by
  intro ended
  generalize (execution.systems last).threads thread = status at uses ended
  cases status with
  | idle handle => exact nomatch (show handle = _ from ended).symm.trans uses
  | busy handle request since program => exact uses.2 ended.1
  | dead => exact uses

theorem file_of_stays (stays : Stays file ((execution.systems last).threads thread))
    (uses : ((execution.systems last).threads thread).Uses w) : w.file = file := by
  generalize (execution.systems last).threads thread = status at uses stays
  cases status with
  | idle handle =>
      obtain ⟨found, same, here⟩ := stays
      cases same.symm.trans uses
      exact here
  | busy handle request since program =>
      obtain ⟨⟨found, same, here⟩, -, -⟩ := stays
      cases same.symm.trans uses.1
      exact here
  | dead => exact uses.elim

/-- A writer that is open at the end has been open all the time, and on one file. -/
theorem session {index : Nat} (lower : first ≤ index) (upper : index ≤ last)
    (stays : Stays file ((execution.systems first).threads thread))
    (uses : ((execution.systems last).threads thread).Uses later) :
    ∃ w, ((execution.systems index).threads thread).Uses w ∧ w.file = file := by
  rcases stays_or_ended lower stays with stays | ended
  · generalize (execution.systems index).threads thread = status at stays
    cases status with
    | idle handle => exact stays
    | busy handle request since program =>
        obtain ⟨⟨w, same, here⟩, kept, -⟩ := stays
        exact ⟨w, ⟨same, kept⟩, here⟩
    | dead => exact stays.elim
  · exact absurd (execution.follows Ended Ended.goes upper ended) (not_ended_of_uses uses)

theorem opened_file {build : Build} {environment : Option (List Char)} {turns : Nat}
    {name : Option (List Char)} {opt : Option Options} {result : Result} {begun opened : Nat}
    (call : execution.Called thread .fresh (.writerOpen build environment turns name opt)
      (.writer w, result) begun opened) (ordered : opened ≤ first)
    (uses : ((execution.systems first).threads thread).Uses later) : later.file = w.file := by
  -- first it has still to return, then the session begins
  have course : (execution.systems first).threads thread = (execution.systems opened).threads thread
      ∨ Stays w.file ((execution.systems first).threads thread)
      ∨ Ended ((execution.systems first).threads thread) := by
    refine execution.follows (fun status => status = (execution.systems opened).threads thread ∨
      Stays w.file status ∨ Ended status) (fun {before after} goes holds => ?_) ordered (.inl rfl)
    rcases holds with same | stays | ended
    · rw [call.returns] at same
      subst same
      rw [call.returns]
      cases goes with
      | stays => exact .inl rfl
      | finishes => exact .inr (.inl ⟨w, rfl, rfl⟩)
      | dies => exact .inr (.inr trivial)
    · exact .inr (stays.goes goes)
    · exact .inr (.inr (ended.goes goes))
  rcases course with same | stays | ended
  · rw [same, call.returns] at uses
    exact nomatch uses.1
  · exact file_of_stays stays uses
  · exact absurd ended (not_ended_of_uses uses)

end Execution

end PsMsgr
