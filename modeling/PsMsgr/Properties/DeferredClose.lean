import PsMsgr.Bindings.Closing
import PsMsgr.Effect.Schedules

namespace PsMsgr

open Effect Discipline

namespace SharedReader

/-- The native handle is closed once nobody uses it any more, and not before. -/
structure Valid (underLock : Bool) (reader : SharedReader) : Prop where
  users : reader.guard.users = reader.inside.card
  calling : reader.calling ⊆ reader.inside
  used : reader.guard.closed = false ∨ reader.inside.Nonempty →
    reader.closes = 0 ∧ reader.deciding = none
  unused : reader.guard.closed = true → reader.inside = ∅ →
    (reader.closes = 1 ∧ reader.deciding = none) ∨
      (reader.closes = 0 ∧ underLock = false ∧ ∃ thread, reader.deciding = some thread)

/-- What the other threads leave alone. -/
structure Rely (thread : Nat) (before after : SharedReader) : Prop where
  inside : thread ∈ after.inside ↔ thread ∈ before.inside
  calling : thread ∈ after.calling ↔ thread ∈ before.calling
  deciding : after.deciding = some thread ↔ before.deciding = some thread
  closed : before.guard.closed = true → after.guard.closed = true
  touches : after.touches thread = before.touches thread

theorem Rely.refl (thread : Nat) (reader : SharedReader) : Rely thread reader reader :=
  ⟨Iff.rfl, Iff.rfl, Iff.rfl, id, rfl⟩

theorem Rely.trans (thread : Nat) {first second third : SharedReader}
    (early : Rely thread first second) (late : Rely thread second third) :
    Rely thread first third where
  inside := late.inside.trans early.inside
  calling := late.calling.trans early.calling
  deciding := late.deciding.trans early.deciding
  closed := late.closed ∘ early.closed
  touches := late.touches.trans early.touches

end SharedReader

open SharedReader

/-- The protocol of the sections, with the native close inside or outside the mutex. -/
def closing (underLock : Bool) : Discipline CloseCall CloseCall.Reply SharedReader Nat where
  exec := execClose underLock
  inv := Valid underLock
  rely := Rely
  step := fun _ before after => before.guard.closed = true → after.guard.closed = true
  rely_refl := Rely.refl
  rely_trans := Rely.trans

/-- Where a thread stands in its call. -/
structure Stands (thread : Nat) (inside calling deciding : Prop) (reader : SharedReader) :
    Prop where
  inside : thread ∈ reader.inside ↔ inside
  calling : thread ∈ reader.calling ↔ calling
  deciding : reader.deciding = some thread ↔ deciding

namespace Stands

variable {thread : Nat} {inside calling deciding : Prop} {before after : SharedReader}

theorem rely (stands : Stands thread inside calling deciding before)
    (related : Rely thread before after) : Stands thread inside calling deciding after where
  inside := related.inside.trans stands.inside
  calling := related.calling.trans stands.calling
  deciding := related.deciding.trans stands.deciding

end Stands

/-- A thread with no call in progress. -/
abbrev AtRest (thread : Nat) : SharedReader → Prop := Stands thread False False False

/-- A thread that has entered, between two native calls. -/
abbrev InUse (thread : Nat) : SharedReader → Prop := Stands thread True False False

/-- A thread that is left to close the handle. -/
abbrev Deciding (thread : Nat) : SharedReader → Prop := Stands thread False False True

section Sections

variable {underLock : Bool} {thread : Nat}

theorem stands_stable {inside calling deciding : Prop} :
    (closing underLock).Stable thread (Stands thread inside calling deciding) :=
  fun _ _ stands related _ => stands.rely related

/-- A section that ends with nobody having closed the handle yet decides rightly. -/
theorem Valid.settle {reader : SharedReader} {last : Bool}
    (users : reader.guard.users = reader.inside.card) (calling : reader.calling ⊆ reader.inside)
    (unclosed : reader.closes = 0) (undecided : reader.deciding = none)
    (decides : last = true ↔ reader.guard.closed = true ∧ reader.inside = ∅) :
    Valid underLock (reader.settle underLock thread last) := by
  cases last with
  | false =>
      refine ⟨users, calling, fun _ => ⟨unclosed, undecided⟩, fun closed empty => ?_⟩
      exact absurd (decides.mpr ⟨closed, empty⟩) Bool.false_ne_true
  | true =>
      obtain ⟨closed, empty⟩ := decides.mp rfl
      have used : ¬(reader.guard.closed = false ∨ reader.inside.Nonempty) := by
        simp [closed, empty]
      cases underLock with
      | true => exact ⟨users, calling, fun holds => absurd holds used,
          fun _ _ => .inl ⟨congrArg (· + 1) unclosed, undecided⟩⟩
      | false => exact ⟨users, calling, fun holds => absurd holds used,
          fun _ _ => .inr ⟨unclosed, rfl, thread, rfl⟩⟩

theorem closed_of_unused {reader : SharedReader}
    (unused : ¬(reader.guard.closed = false ∨ reader.inside.Nonempty)) :
    reader.guard.closed = true ∧ reader.inside = ∅ := by
  simpa only [not_or, Bool.not_eq_false, Finset.not_nonempty_iff_eq_empty] using unused

theorem settle_deciding {reader : SharedReader} {last : Bool} (undecided : reader.deciding = none)
    {other : Nat} : (reader.settle underLock thread last).deciding = some other ↔
      other = thread ∧ (last && !underLock) = true := by
  cases last <;> cases underLock <;> simp [SharedReader.settle, undecided, eq_comm]

@[simp] theorem settle_guard {reader : SharedReader} {last : Bool} :
    (reader.settle underLock thread last).guard = reader.guard := by
  cases last <;> cases underLock <;> rfl

@[simp] theorem settle_inside {reader : SharedReader} {last : Bool} :
    (reader.settle underLock thread last).inside = reader.inside := by
  cases last <;> cases underLock <;> rfl

@[simp] theorem settle_calling {reader : SharedReader} {last : Bool} :
    (reader.settle underLock thread last).calling = reader.calling := by
  cases last <;> cases underLock <;> rfl

@[simp] theorem settle_touches {reader : SharedReader} {last : Bool} :
    (reader.settle underLock thread last).touches = reader.touches := by
  cases last <;> cases underLock <;> rfl

/-- What a call of `Wait` or `WriterAlive` finds out on entering: `shut` says that the reader
was closed when the call began, and `touched` counts the thread's native calls so far. -/
def Admitted (thread : Nat) (shut : Prop) (touched : Nat) : Bool → SharedReader → Prop
  | true, reader => ¬shut ∧ InUse thread reader
  | false, reader => AtRest thread reader ∧ reader.touches thread = touched

theorem triple_enter {shut : Prop} {touched : Nat} :
    (closing underLock).Triple thread
      (fun reader => AtRest thread reader ∧ (shut → reader.guard.closed = true) ∧
        reader.touches thread = touched)
      (askClose .enter) (Admitted thread shut touched) := by
  refine Triple.call ?_ ?_
  · intro reply before after holds related _
    cases reply with
    | true => exact ⟨holds.1, holds.2.rely related⟩
    | false => exact ⟨holds.1.rely related, related.touches.trans holds.2⟩
  rintro reader reply after valid ⟨outside, shutCloses, touches⟩
    (⟨-, rfl, rfl⟩ | ⟨guard, entered, rfl, rfl⟩)
  · exact ⟨⟨valid, id, fun other _ => Rely.refl other _⟩, outside, touches⟩
  have absent : thread ∉ reader.inside := fun within => outside.inside.mp within
  have opened : reader.guard.closed = false := by
    cases closed : reader.guard.closed with
    | false => rfl
    | true => simp [Guard.enter, closed] at entered
  obtain rfl : { reader.guard with users := reader.guard.users + 1 } = guard := by
    simpa [Guard.enter, opened] using entered
  obtain ⟨unclosed, undecided⟩ := valid.used (.inl opened)
  refine ⟨⟨⟨?_, ?_, fun _ => ⟨unclosed, undecided⟩, ?_⟩, id, fun other distinct => ?_⟩, ?_, ?_⟩
  · rw [Finset.card_insert_of_notMem absent, ← valid.users]
  · exact valid.calling.trans (Finset.subset_insert _ _)
  · intro closed
    exact absurd (opened.symm.trans closed) Bool.false_ne_true
  · exact ⟨by simp [distinct], Iff.rfl, Iff.rfl, id, rfl⟩
  · intro shut
    exact absurd (opened.symm.trans (shutCloses shut)) Bool.false_ne_true
  · exact ⟨by simp, outside.calling, outside.deciding⟩

/-- After a section that decides, the thread is outside or left to close the handle. -/
def Decided (thread : Nat) (decides : Bool) : SharedReader → Prop :=
  Stands thread False False (decides = true)

theorem triple_leave :
    (closing underLock).Triple thread (InUse thread) (askClose .leave) (Decided thread) := by
  refine Triple.call (fun _ => stands_stable) ?_
  rintro reader reply after valid inside ⟨rfl, rfl⟩
  have present : thread ∈ reader.inside := inside.inside.mpr trivial
  have idle : thread ∉ reader.calling := fun within => inside.calling.mp within
  obtain ⟨unclosed, undecided⟩ := valid.used (.inr ⟨thread, present⟩)
  have users : reader.guard.users - 1 = (reader.inside.erase thread).card := by
    rw [Finset.card_erase_of_mem present, valid.users]
  refine ⟨⟨Valid.settle users ?_ unclosed undecided ?_, ?_, fun other distinct => ?_⟩, ?_⟩
  · intro other within
    exact Finset.mem_erase.mpr ⟨fun same => idle (same ▸ within), valid.calling within⟩
  · simp [Guard.leave, users]
  · simp [closing, Guard.leave]
  · refine ⟨by simp [distinct], by simp, ?_, by simp [Guard.leave], by simp⟩
    simp [settle_deciding, undecided, distinct]
  · refine ⟨by simp, by simpa using idle, ?_⟩
    simp [settle_deciding, undecided]

theorem triple_close :
    (closing underLock).Triple thread (AtRest thread) (askClose .close)
      (fun decides reader => Decided thread decides reader ∧ reader.guard.closed = true) := by
  refine Triple.call (fun _ before after holds related _ =>
    ⟨holds.1.rely related, related.closed holds.2⟩) ?_
  rintro reader reply after valid outside ⟨rfl, rfl⟩
  cases closed : reader.guard.closed with
  | true =>
      have same : reader.guard.close = (reader.guard, false) := by simp [Guard.close, closed]
      rw [same]
      have holds : Stands thread False False (false = true) reader := by simpa using outside
      exact ⟨⟨valid, id, fun other _ => Rely.refl other reader⟩, holds, closed⟩
  | false =>
      have closes : reader.guard.close =
          ({ reader.guard with closed := true }, reader.guard.users == 0) := by
        simp [Guard.close, closed]
      obtain ⟨unclosed, undecided⟩ := valid.used (.inl closed)
      rw [closes]
      refine ⟨⟨Valid.settle valid.users valid.calling unclosed undecided ?_, ?_,
        fun other distinct => ?_⟩, ?_, ?_⟩
      · simp [valid.users]
      · simp [closing]
      · refine ⟨by simp, by simp, ?_, by simp, by simp⟩
        simp [settle_deciding, undecided, distinct]
      · refine ⟨by simpa using outside.inside, by simpa using outside.calling, ?_⟩
        simp [settle_deciding, undecided]
      · simp

theorem triple_isClosed :
    (closing underLock).Triple thread (InUse thread) (askClose .isClosed)
      (fun _ => InUse thread) := by
  refine Triple.call (fun _ => stands_stable) ?_
  rintro reader reply after valid inside ⟨-, rfl⟩
  exact ⟨⟨valid, id, fun other _ => Rely.refl other _⟩, inside⟩

theorem triple_begin :
    (closing underLock).Triple thread (InUse thread) (askClose .begin)
      (fun _ => Stands thread True True False) := by
  refine Triple.call (fun _ => stands_stable) ?_
  rintro reader ⟨⟩ after valid inside rfl
  have present : thread ∈ reader.inside := inside.inside.mpr trivial
  refine ⟨⟨⟨valid.users, ?_, valid.used, valid.unused⟩, id, fun other distinct => ?_⟩, ?_⟩
  · exact Finset.insert_subset present valid.calling
  · exact ⟨Iff.rfl, by simp [distinct], Iff.rfl, id, by simp [Function.update_of_ne distinct]⟩
  · exact ⟨inside.inside, by simp, inside.deciding⟩

theorem triple_finish :
    (closing underLock).Triple thread (Stands thread True True False) (askClose .finish)
      (fun _ => InUse thread) := by
  refine Triple.call (fun _ => stands_stable) ?_
  rintro reader ⟨⟩ after valid stands rfl
  refine ⟨⟨⟨valid.users, ?_, valid.used, valid.unused⟩, id, fun other distinct => ?_⟩, ?_⟩
  · exact (Finset.erase_subset _ _).trans valid.calling
  · exact ⟨Iff.rfl, by simp [distinct], Iff.rfl, id, rfl⟩
  · exact ⟨stands.inside, by simp, stands.deciding⟩

theorem triple_closeNative :
    (closing underLock).Triple thread (Deciding thread) (askClose .closeNative)
      (fun _ reader => AtRest thread reader ∧ reader.guard.closed = true) := by
  refine Triple.call (fun _ _ _ holds related _ =>
    ⟨holds.1.rely related, related.closed holds.2⟩) ?_
  rintro reader ⟨⟩ after valid stands rfl
  have deciding : reader.deciding = some thread := stands.deciding.mpr trivial
  have unused : ¬(reader.guard.closed = false ∨ reader.inside.Nonempty) := by
    intro used
    simp [(valid.used used).2] at deciding
  obtain ⟨closed, empty⟩ := closed_of_unused unused
  have unclosed : reader.closes = 0 := by
    rcases valid.unused closed empty with ⟨-, undecided⟩ | ⟨unclosed, -⟩
    · simp [undecided] at deciding
    · exact unclosed
  refine ⟨⟨⟨valid.users, valid.calling, fun used => absurd used unused, fun _ _ =>
    .inl ⟨congrArg (· + 1) unclosed, rfl⟩⟩, id, fun other distinct => ?_⟩, ?_, closed⟩
  · refine ⟨Iff.rfl, Iff.rfl, ?_, id, rfl⟩
    simp [deciding, distinct.symm]
  · exact ⟨stands.inside, stands.calling, by simp⟩

theorem triple_waitWhileOpen {slices : Nat} :
    (closing underLock).Triple thread (InUse thread) (waitWhileOpen slices) (fun _ => InUse thread) := by
  induction slices with
  | zero => exact Triple.done fun _ inside => inside
  | succ slices ih =>
      refine triple_isClosed.bind fun closed => ?_
      cases closed with
      | true => exact Triple.done fun _ inside => inside
      | false => exact triple_begin.bind fun _ => triple_finish.bind fun _ => ih

theorem triple_decided {decides : Bool} {shut : Prop} {result : CloseResult} :
    (closing underLock).Triple thread
      (fun reader => Decided thread decides reader ∧ (shut → reader.guard.closed = true))
      (do if decides then askClose .closeNative
          return result)
      (fun returned reader => AtRest thread reader ∧ returned = result ∧
        (shut → reader.guard.closed = true)) := by
  cases decides with
  | false =>
      refine Triple.done fun _ holds => ?_
      exact ⟨by simpa [Decided] using holds.1, rfl, holds.2⟩
  | true =>
      refine (triple_closeNative.strengthen fun _ holds => ?_).bind fun _ =>
        Triple.done fun _ holds => ⟨holds.1, rfl, fun _ => holds.2⟩
      simpa [Decided] using holds.1

theorem triple_useReader {body : CloseProg CloseResult} {shut : Prop} {touched : Nat}
    (uses : (closing underLock).Triple thread (InUse thread) body (fun _ => InUse thread)) :
    (closing underLock).Triple thread
      (fun reader => AtRest thread reader ∧ (shut → reader.guard.closed = true) ∧
        reader.touches thread = touched)
      (useReader body)
      (fun result reader => AtRest thread reader ∧
        (shut → result = .closedError ∧ reader.touches thread = touched)) := by
  refine triple_enter.bind fun entered => ?_
  cases entered with
  | false =>
      exact Triple.done fun _ holds => ⟨holds.1, fun _ => ⟨rfl, holds.2⟩⟩
  | true =>
      intro reader valid holds
      refine ((uses.bind fun result => triple_leave.bind fun decides => ?_) reader valid holds.2)
      refine (triple_decided.strengthen fun _ decided => ⟨decided, False.elim⟩).weaken
        fun _ ended => ⟨ended.1, fun shut => absurd shut holds.1⟩

theorem triple_closeReader :
    (closing underLock).Triple thread (AtRest thread) closeReader
      (fun _ reader => AtRest thread reader ∧ reader.guard.closed = true) := by
  refine triple_close.bind fun decides => ?_
  refine (triple_decided.strengthen fun _ holds => ⟨holds.1, fun _ : True => holds.2⟩).weaken
    fun _ ended => ⟨ended.1, ended.2.2 trivial⟩

end Sections

/-- What a call achieves, from the instant at which it begins. -/
def ReaderRequest.Achieves (request : ReaderRequest) (thread : Nat) (since : SharedReader)
    (result : CloseResult) (reader : SharedReader) : Prop :=
  match request with
  | .close => reader.guard.closed = true
  | .wait _ | .writerAlive => since.guard.closed = true →
      result = .closedError ∧ reader.touches thread = since.touches thread

theorem ensures_request {underLock : Bool} {thread : Nat} {request : ReaderRequest}
    {since reader : SharedReader} (outside : AtRest thread since)
    (related : Rely thread since reader) (valid : Valid underLock reader) :
    (closing underLock).Ensures thread (fun result after => AtRest thread after ∧
      request.Achieves thread since result after) request.program reader := by
  have starts : AtRest thread reader ∧
      (since.guard.closed = true → reader.guard.closed = true) ∧
      reader.touches thread = since.touches thread :=
    ⟨outside.rely related, related.closed, related.touches⟩
  cases request with
  | wait slices =>
      exact (triple_useReader triple_waitWhileOpen reader valid starts).mono fun _ _ ended => ended.2
  | writerAlive =>
      have uses : (closing underLock).Triple thread (InUse thread)
          (do askClose .begin; askClose .finish; return CloseResult.done)
          (fun _ => InUse thread) :=
        triple_begin.bind fun _ => triple_finish.bind fun _ => Triple.done fun _ inside => inside
      exact (triple_useReader uses reader valid starts).mono fun _ _ ended => ended.2
  | close =>
      exact (triple_closeReader reader valid starts.1).mono fun _ _ ended => ended.2

/-- Idle threads are outside. -/
def closingOutline (underLock : Bool) : Outline (closing underLock) readerUsers where
  owns := fun thread _ => AtRest thread
  post := fun thread _ request since returned => request.Achieves thread since returned.2
  owns_rely := fun outside related _ => outside.rely related
  begin_guarantee := fun valid _ _ => ⟨valid, id, fun other _ => Rely.refl other _⟩
  ensures := fun _ outside _ related valid =>
    (ensures_request outside related valid).then fun _ _ ended => ended
  crash_guarantee := fun valid => ⟨valid, id, fun other _ => Rely.refl other _⟩

theorem readerOpened_sound (underLock : Bool) : (closingOutline underLock).Sound readerOpened where
  inv := ⟨rfl, Finset.Subset.refl _, fun _ => ⟨rfl, rfl⟩, nofun⟩
  threads := fun _ => ⟨by simp [readerOpened, opened], by simp [readerOpened, opened],
    by simp [readerOpened, opened]⟩

/-- Runs of any number of threads on one reader: with `underLock` one of Go, without it one
of Python. -/
abbrev ReaderRun (underLock : Bool) := Run (closing underLock) readerUsers readerOpened

namespace ReaderRun

variable {underLock : Bool} (run : ReaderRun underLock)

def reader (index : Nat) : SharedReader := (run.systems index).state

/-- A `Close` has returned. -/
def Closed (index : Nat) : Prop :=
  ∃ thread returned first last, run.Called thread () .close returned first last ∧ last ≤ index

/-- The thread has decided to close the handle, and its call has not returned. -/
def Closes (index : Nat) (thread : Nat) : Prop :=
  (run.reader index).deciding = some thread ∧ (run.systems index).threads thread ≠ .idle ()

theorem sound (index : Nat) : (closingOutline underLock).Sound (run.systems index) :=
  (readerOpened_sound underLock).run run index

theorem closed_of_closed {index : Nat} (closed : run.Closed index) :
    (run.reader index).guard.closed = true := by
  obtain ⟨thread, returned, first, last, called, ordered⟩ := closed
  have achieved := (run.sound last).returned called.returns
  exact (readerOpened_sound underLock).along run
    (fun before after => before.guard.closed = true → after.guard.closed = true)
    (fun _ => id) (fun early late => late ∘ early) (fun _ guarantee => guarantee.step)
    ordered achieved

theorem closes_of_deciding {index thread : Nat}
    (deciding : (run.reader index).deciding = some thread) : run.Closes index thread := by
  refine ⟨deciding, fun idle => ?_⟩
  have outside := (run.sound index).threads thread
  rw [idle] at outside
  exact (show AtRest thread (run.reader index) from outside).deciding.mp deciding

end ReaderRun

/-- The native handle is closed at most once, and no native call is in progress from then on.
Once a `Close` has returned and the calls that entered have left, the handle has been closed,
unless it is the Python binding and the call that took the handle from the reader has not
returned yet.  A call that begins on a closed reader fails without touching the handle. -/
theorem deferred_close (underLock : Bool) (run : ReaderRun underLock) :
    (∀ index, (run.reader index).closes ≤ 1 ∧
      ((run.reader index).closes ≠ 0 → (run.reader index).calling = ∅) ∧
      (run.Closed index → (run.reader index).inside = ∅ → (run.reader index).closes = 1 ∨
        underLock = false ∧ ∃ thread, run.Closes index thread)) ∧
    ∀ thread request returned first last, run.Called thread () request returned first last →
      request ≠ .close → (run.reader first).guard.closed = true →
      returned.2 = .closedError ∧
        (run.reader last).touches thread = (run.reader first).touches thread := by
  constructor
  · intro index
    have valid : Valid underLock (run.reader index) := (run.sound index).inv
    have unused (late : (run.reader index).closes ≠ 0) :=
      closed_of_unused fun used => late (valid.used used).1
    refine ⟨?_, fun late => ?_, fun closed empty => ?_⟩
    · by_cases late : (run.reader index).closes = 0
      · omega
      obtain ⟨closed, empty⟩ := unused late
      rcases valid.unused closed empty with ⟨once, -⟩ | ⟨never, -⟩ <;> omega
    · exact Finset.subset_empty.mp ((unused late).2 ▸ valid.calling)
    · rcases valid.unused (run.closed_of_closed closed) empty with
        ⟨once, -⟩ | ⟨-, outside, thread, deciding⟩
      · exact .inl once
      · exact .inr ⟨outside, thread, run.closes_of_deciding deciding⟩
  · intro thread request returned first last called uses closed
    have achieved := (run.sound last).returned called.returns
    cases request with
    | wait slices => exact achieved closed
    | writerAlive => exact achieved closed
    | close => exact absurd rfl uses

/-- A reader whose handle thread 0 has taken to close it. -/
def handleTaken : SharedReader :=
  { SharedReader.opened with guard := ⟨true, 0⟩, deciding := some 0 }

/-- Thread 0 is about to close the handle. -/
def firstClose : System readerUsers :=
  readerOpened.set 0 handleTaken
    (.busy () .close SharedReader.opened (do askClose .closeNative; return ((), .done)))

/-- Meanwhile thread 1 has found the reader closed and is about to return. -/
def secondClose : System readerUsers :=
  firstClose.set 1 handleTaken (.busy () .close handleTaken (.done ((), .done)))

theorem firstClose_reached : Steps (closing false) readerUsers readerOpened firstClose := by
  have starts := @Steps.start _ _ _ _ _ (closing false) readerUsers readerOpened 0 () .close
    rfl trivial
  have taken : (closing false).exec 0 .close SharedReader.opened true handleTaken := ⟨rfl, rfl⟩
  have takes : Steps (closing false) readerUsers _ _ :=
    .tail starts (Step.call 0 System.set_thread taken)
  rw [← System.set, System.set_set] at takes
  exact takes

theorem secondClose_reached : Steps (closing false) readerUsers firstClose secondClose := by
  have found : (readerUsers.program () .close).Runs ((closing false).exec 1) handleTaken
      ((), CloseResult.done) handleTaken :=
    ⟨false, handleTaken, ⟨rfl, rfl⟩, rfl, rfl⟩
  refine (@Steps.start _ _ _ _ _ _ readerUsers firstClose 1 () .close rfl trivial).trans ?_
  refine (Steps.return System.set_thread found).trans ?_
  rw [System.set_set]
  exact .refl

/-- In Python the second of two concurrent calls of `close` returns while the first has yet to
close the handle. -/
theorem concurrent_close_returns_early : ¬∀ (run : ReaderRun false) index, run.Closed index →
    (∀ thread request since program,
      (run.systems index).threads thread = .busy () request since program → request = .close) →
    (run.reader index).inside = ∅ → (run.reader index).closes = 1 := by
  intro closes
  obtain ⟨run, index, reached⟩ := Run.reaching (firstClose_reached.trans secondClose_reached)
  have returned : (run.systems index).threads 1 = .busy () .close handleTaken (.done ((), .done)) := by
    rw [reached]
    exact System.set_thread
  obtain ⟨first, called⟩ := run.called (fun _ => ⟨(), rfl⟩) returned
  have once := closes run index ⟨1, _, first, index, called, Nat.le_refl _⟩
    (fun thread request since program busy => ?_) (by rw [ReaderRun.reader, reached]; rfl)
  · rw [ReaderRun.reader, reached] at once
    exact absurd once (by decide)
  rw [reached] at busy
  by_cases second : thread = 1
  · subst second
    cases System.set_thread.symm.trans busy
    rfl
  rw [secondClose, System.set_other second] at busy
  by_cases zero : thread = 0
  · subst zero
    cases System.set_thread.symm.trans busy
    rfl
  rw [firstClose, System.set_other zero] at busy
  exact nomatch busy

end PsMsgr
