import PsMsgr.Bindings.Scopes
import PsMsgr.State.Looking
import PsMsgr.Still.Opening

namespace PsMsgr

open Effect

/-- Calls that have a reply. -/
def Sys.Answerable (request : Sys) : Prop := Nonempty request.Reply

theorem must_of_always {α : Type} {result : α → Prop} {program : Prog α}
    (always : program.Always Sys.Answerable result) :
    program.Must (fun _ _ _ _ => True) (fun value (_ : Unit) => result value) () := by
  induction program with
  | done value => exact always
  | call request next ih =>
      obtain ⟨⟨reply⟩, rest⟩ := always
      exact ⟨fun _ => ⟨reply, (), trivial⟩, fun reply _ _ => ih reply (rest reply)⟩

/-- A handle as `psmsgr_state_writer_open` returns it, with or without an open begin. -/
def Writer.Usable (w : Writer) : Prop :=
  ∃ g, Seated w g ∧ (w.openSlot = psmiLatestNone ∨ w.openSlot.toNat < g.count)

def Writer.isOpen (w : Writer) : Bool := w.openSlot ≠ psmiLatestNone

/-- The handle a call leaves behind on `w`, with or without an open begin. -/
def Writer.Leaves (w : Writer) (isOpen : Bool) (handle : Option Writer) : Prop :=
  ∃ after, handle = some after ∧ after.Usable ∧ after.capacity = w.capacity ∧ after.isOpen = isOpen

/-- What the native calls come to. -/
def WriterCall.Meets (w : Writer) :
    (request : WriterCall) → request.Reply → Option Writer → Prop
  | .publish _ _, reply, handle => (reply.1 ≠ .ok → handle = some w) ∧ w.Leaves w.isOpen handle
  | .begin, reply, handle => reply.1 = (if w.isOpen then .state else .ok) ∧
      (reply.1 ≠ .ok → handle = some w) ∧ w.Leaves true handle
  | .commit len, reply, handle =>
      reply.1 = (if !w.isOpen then .state else if len > w.capacity then .toobig else .ok) ∧
      (reply.1 ≠ .ok → handle = some w) ∧ w.Leaves (w.isOpen && len > w.capacity) handle
  | .abort, reply, handle => reply = (if w.isOpen then .ok else .state) ∧
      (reply ≠ .ok → handle = some w) ∧ w.Leaves false handle
  | .close, _, handle => handle = none

section Native

variable {w : Writer}

theorem stores_answerable (file : FileId) : Stores Sys.Answerable file :=
  ⟨fun _ => ⟨0⟩, fun _ _ => ⟨()⟩, fun _ _ => ⟨()⟩, ⟨0⟩, fun _ _ => ⟨0⟩, ⟨()⟩⟩

theorem Writer.isOpen_eq_false : w.isOpen = false ↔ w.openSlot = psmiLatestNone := by
  simp only [isOpen, decide_eq_false_iff_not, not_not]

theorem Writer.leaves_self (usable : w.Usable) : w.Leaves w.isOpen (some w) :=
  ⟨w, rfl, usable, rfl, rfl⟩

theorem Writer.leaves_failed {code : Code} (usable : w.Usable) :
    (code ≠ .ok → some w = some w) ∧ w.Leaves w.isOpen (some w) :=
  ⟨fun _ => rfl, w.leaves_self usable⟩

theorem Writer.leaves_begun {seq : UInt32} (usable : w.Usable) :
    w.Leaves true (some { w with
      openSlot := slotAfter w.latest w.slotCount, openSeq := seq }) := by
  obtain ⟨g, seated, -⟩ := usable
  have inside : (slotAfter w.latest w.slotCount).toNat < g.count := seated.target_lt
  have named : slotAfter w.latest w.slotCount ≠ psmiLatestNone := by
    intro none
    rw [none] at inside
    exact absurd (Nat.lt_of_lt_of_le inside g.le_sixteen) (by decide)
  exact ⟨_, rfl, ⟨g, ⟨seated.slotCount, seated.slotStride, seated.capacity, seated.latest⟩,
    .inr inside⟩, rfl, decide_eq_true named⟩

theorem Writer.leaves_ended {latest gen : UInt32} (usable : w.Usable)
    (last : latest = w.latest ∨ latest = w.openSlot) :
    w.Leaves false (some { w with latest, openSlot := psmiLatestNone, gen }) := by
  obtain ⟨g, seated, slot⟩ := usable
  refine ⟨_, rfl, ⟨g, ⟨seated.slotCount, seated.slotStride, seated.capacity, ?_⟩, .inl rfl⟩, rfl, rfl⟩
  rcases last with rfl | rfl
  · exact seated.latest
  · exact slot

theorem Writer.Leaves.trans {middle : Writer} {isOpen : Bool} {handle : Option Writer}
    (capacity : middle.capacity = w.capacity) (leaves : middle.Leaves isOpen handle) :
    w.Leaves isOpen handle := by
  obtain ⟨after, here, usable, same, status⟩ := leaves
  exact ⟨after, here, usable, same.trans capacity, status⟩

theorem program_always (usable : w.Usable) (request : WriterCall) :
    (request.program w).Always Sys.Answerable (fun value => request.Meets w value.1 value.2) := by
  cases request with
  | publish data len =>
      have publishes : (psmsgrStatePublish w data len).Always Sys.Answerable (fun returned =>
          (returned.1 ≠ .ok → some returned.2.2 = some w) ∧
            w.Leaves w.isOpen (some returned.2.2)) := by
        unfold psmsgrStatePublish
        split
        · exact w.leaves_failed usable
        split
        · exact w.leaves_failed usable
        next closed =>
        split
        · exact w.leaves_failed usable
        refine (stores_answerable _).beginSlot.bind ?_
        rintro _ ⟨seq, rfl⟩
        refine ((stores_answerable _).storeBytes _ _).bind fun _ _ => ?_
        refine ((stores_answerable _).commitSlot _).bind ?_
        rintro _ rfl
        refine ⟨fun failed => absurd rfl failed, ?_⟩
        rw [Writer.isOpen_eq_false.mpr (not_not.mp closed)]
        obtain ⟨_, same, begun, capacity, -⟩ := @Writer.leaves_begun w seq usable
        cases same
        exact Writer.Leaves.trans capacity (Writer.leaves_ended begun (.inr rfl))
      exact publishes.bind fun _ meets => meets
  | begin =>
      have begins : (psmsgrStateBegin w).Always Sys.Answerable (fun returned =>
          returned.1 = (if w.isOpen then .state else .ok) ∧
            (returned.1 ≠ .ok → some returned.2 = some w) ∧ w.Leaves true (some returned.2)) := by
        have leaves := w.leaves_self usable
        rw [psmsgrStateBegin]
        cases status : w.isOpen with
        | true =>
            rw [if_pos (of_decide_eq_true status)]
            rw [status] at leaves
            exact ⟨rfl, fun _ => rfl, leaves⟩
        | false =>
            rw [if_neg (not_not.mpr (Writer.isOpen_eq_false.mp status))]
            refine (stores_answerable _).beginSlot.bind ?_
            rintro _ ⟨seq, rfl⟩
            exact ⟨rfl, fun failed => absurd rfl failed, Writer.leaves_begun usable⟩
      exact begins.bind fun _ meets => meets
  | commit len =>
      have commits : (psmsgrStateCommit w len).Always Sys.Answerable (fun returned =>
          returned.1 = (if !w.isOpen then .state else if len > w.capacity then .toobig else .ok) ∧
            (returned.1 ≠ .ok → some returned.2.2 = some w) ∧
            w.Leaves (w.isOpen && len > w.capacity) (some returned.2.2)) := by
        have leaves := w.leaves_self usable
        rw [psmsgrStateCommit]
        cases status : w.isOpen with
        | false =>
            rw [if_pos (Writer.isOpen_eq_false.mp status)]
            rw [status] at leaves
            exact ⟨rfl, fun _ => rfl, leaves⟩
        | true =>
            rw [if_neg (of_decide_eq_true status)]
            rw [status] at leaves
            by_cases large : len > w.capacity
            · rw [if_pos large, if_pos large, decide_eq_true large]
              exact ⟨rfl, fun _ => rfl, leaves⟩
            · rw [if_neg large, if_neg large, decide_eq_false large]
              refine ((stores_answerable _).commitSlot _).bind ?_
              rintro _ rfl
              exact ⟨rfl, fun failed => absurd rfl failed, Writer.leaves_ended usable (.inr rfl)⟩
      exact commits.bind fun _ meets => meets
  | abort =>
      have aborts : (psmsgrStateAbort w).Always Sys.Answerable (fun returned =>
          returned.1 = (if w.isOpen then .ok else .state) ∧
            (returned.1 ≠ .ok → some returned.2 = some w) ∧ w.Leaves false (some returned.2)) := by
        have leaves := w.leaves_self usable
        rw [psmsgrStateAbort]
        cases status : w.isOpen with
        | false =>
            rw [if_pos (Writer.isOpen_eq_false.mp status)]
            rw [status] at leaves
            exact ⟨rfl, fun _ => rfl, leaves⟩
        | true =>
            rw [if_neg (of_decide_eq_true status)]
            exact ⟨rfl, fun failed => absurd rfl failed, Writer.leaves_ended usable (.inl rfl)⟩
      exact aborts.bind fun _ meets => meets
  | close =>
      have closes : (psmsgrStateWriterClose w).Always Sys.Answerable (fun _ => True) :=
        Program.Always.bind (@Program.Always.perform _ _ Sys.Answerable (.munmap w.file) ⟨()⟩)
          fun _ _ => @Program.Always.perform _ _ Sys.Answerable (.closeLock w.lockFd) ⟨()⟩
      exact closes.bind fun _ _ => rfl

/-- The native writer exists, and what a call on it comes to. -/
theorem execWriter_spec {before : NativeWriter} (here : before.handle = some w)
    (usable : w.Usable) (request : WriterCall) :
    (∃ reply after, execWriter request before reply after) ∧
      ∀ reply after, execWriter request before reply after →
        request.Meets w reply after.handle ∧ after.calls = before.calls ++ [request] := by
  have must := must_of_always (program_always usable request)
  constructor
  · obtain ⟨⟨reply, handle⟩, _, runs⟩ := must.returns
    exact ⟨reply, _, w, handle, here, runs, rfl⟩
  · rintro reply after ⟨w', handle, there, runs, rfl⟩
    cases here.symm.trans there
    exact ⟨must.runs runs, rfl⟩

theorem Fitted.usable {world : World} (fitted : Fitted w world) : w.Usable ∧ w.isOpen = false := by
  obtain ⟨g, -, seated⟩ := fitted.shape
  exact ⟨⟨g, seated, .inl fitted.closed⟩, Writer.isOpen_eq_false.mpr fitted.closed⟩

end Native

/-- A call, what it came to, and the native calls it made. -/
structure ScopeEntry where
  op : ScopeOp
  result : ScopeResult
  calls : List WriterCall

/-- The begins that succeeded, by their scopes. -/
def begins (log : List ScopeEntry) : List WriteScope :=
  log.filterMap fun entry => match entry.result with
    | .scope scope => some scope
    | _ => none

/-- A begin is finished by a commit that succeeds or by a dispose, of its own scope, or by a
dispose of the writer. -/
def ScopeEntry.advance (current : Option WriteScope) (entry : ScopeEntry) : Option WriteScope :=
  match entry.op, entry.result with
  | .begin, .scope scope => some scope
  | .dispose, .done => none
  | .commit scope _, .generation _ => if current = some scope then none else current
  | .disposeScope scope, .done => if current = some scope then none else current
  | _, _ => current

/-- The scope of the latest begin, unless that is finished. -/
def unfinished (log : List ScopeEntry) : Option WriteScope := log.foldl ScopeEntry.advance none

/-- The call is a successful commit of the scope, or an abort of it. -/
def ScopeEntry.ends (scope : WriteScope) (entry : ScopeEntry) : Bool :=
  match entry.op, entry.result with
  | .commit other _, .generation _ => other = scope
  | .disposeScope other, .done => other = scope && entry.calls.contains .abort
  | _, _ => false

/-- A scope a program may have after these calls. -/
def Obtained (log : List ScopeEntry) (scope : WriteScope) : Prop :=
  scope = .default ∨ scope ∈ begins log

def ScopeOp.scope? : ScopeOp → Option WriteScope
  | .publish _ | .begin | .dispose => none
  | .buffer scope | .commit scope _ | .disposeScope scope => some scope

/-- The states calls lead to, in any order, once the writer is open. -/
inductive ScopeCalls : StateWriter → NativeWriter → List ScopeEntry → Prop where
  | opened {w : Writer} (name : String) (usable : w.Usable) (closed : w.isOpen = false) :
      ScopeCalls ⟨false, name, w.capacity, 0, 0⟩ ⟨some w, []⟩ []
  | call {s s' : StateWriter} {n n' : NativeWriter} {log : List ScopeEntry} {op : ScopeOp}
      {result : ScopeResult} (session : ScopeCalls s n log)
      (obtained : ∀ scope, op.scope? = some scope → Obtained log scope)
      (runs : (op.program s).Runs execWriter n (result, s') n') :
      ScopeCalls s' n' (log ++ [⟨op, result, n'.calls.drop n.calls.length⟩])

/-- The scope is the one the writer takes for open. -/
def StateWriter.holds (s : StateWriter) (scope : WriteScope) : Bool :=
  scope.writer && !s.isClosed && scope.id ≠ 0 && scope.id = s.scope

section Calls

variable {s : StateWriter} {scope : WriteScope}

theorem holds_iff : s.holds scope = true ↔
    scope.writer = true ∧ s.isClosed = false ∧ scope.id ≠ 0 ∧ scope.id = s.scope := by
  simp only [StateWriter.holds, Bool.and_eq_true, Bool.not_eq_true', decide_eq_true_eq, and_assoc]

theorem checkScope_stale (owned : scope.writer = true) (stale : s.holds scope = false) :
    ∃ thrown, s.checkScope scope.id = .error thrown := by
  unfold StateWriter.checkScope
  split
  · exact ⟨_, rfl⟩
  next alive =>
  split
  · exact ⟨_, rfl⟩
  next same =>
  simp only [Bool.or_eq_true, decide_eq_true_eq, not_or, not_not] at same
  have held := holds_iff.mpr ⟨owned, Bool.not_eq_true _ ▸ alive, same⟩
  exact nomatch stale.symm.trans held

theorem checkScope_held (held : s.holds scope = true) : s.checkScope scope.id = .ok () := by
  obtain ⟨-, alive, positive, same⟩ := holds_iff.mp held
  have matching : ¬ (decide (scope.id = 0) || decide (scope.id ≠ s.scope)) = true := by
    simp only [Bool.or_eq_true, decide_eq_true_eq, not_or, not_not]
    exact ⟨positive, same⟩
  rw [StateWriter.checkScope, alive, if_neg Bool.false_ne_true, if_neg matching]

theorem commit_stale (stale : s.holds scope = false) (length : Int32) :
    ∃ thrown, (ScopeOp.commit scope length).program s = .done (.threw thrown, s) := by
  rw [ScopeOp.program, WriteScope.commit]
  cases owned : scope.writer with
  | false => exact ⟨_, rfl⟩
  | true =>
      obtain ⟨thrown, refused⟩ := checkScope_stale owned stale
      rw [if_neg (by decide), StateWriter.commit, refused]
      exact ⟨thrown, rfl⟩

theorem buffer_stale (stale : s.holds scope = false) :
    ∃ thrown, (ScopeOp.buffer scope).program s = .done (.threw thrown, s) := by
  rw [ScopeOp.program, WriteScope.buffer]
  cases owned : scope.writer with
  | false => exact ⟨_, rfl⟩
  | true =>
      obtain ⟨thrown, refused⟩ := checkScope_stale owned stale
      rw [refused]
      exact ⟨thrown, rfl⟩

theorem disposeScope_stale (stale : s.holds scope = false) :
    (ScopeOp.disposeScope scope).program s = .done (.done, s) := by
  rw [ScopeOp.program, WriteScope.dispose]
  cases owned : scope.writer with
  | false => rfl
  | true =>
      have ended : (s.isClosed || decide (scope.id = 0) || decide (scope.id ≠ s.scope)) = true := by
        by_contra live
        simp only [Bool.or_eq_true, decide_eq_true_eq, not_or, not_not, Bool.not_eq_true] at live
        exact nomatch stale.symm.trans (holds_iff.mpr ⟨owned, live.1.1, live.1.2, live.2⟩)
      rw [if_neg (by decide), StateWriter.abort, if_pos ended]
      rfl

theorem publish_closed (closed : s.isClosed = true) (data : List UInt8) :
    (ScopeOp.publish data).program s = .done (.threw StateWriter.disposed, s) := by
  rw [ScopeOp.program, StateWriter.publish, if_pos closed]
  rfl

theorem begin_closed (closed : s.isClosed = true) :
    ScopeOp.begin.program s = .done (.threw StateWriter.disposed, s) := by
  rw [ScopeOp.program, StateWriter.begin, if_pos closed]
  rfl

theorem dispose_closed (closed : s.isClosed = true) :
    ScopeOp.dispose.program s = .done (.done, s) := by
  rw [ScopeOp.program, StateWriter.dispose, if_pos closed]
  rfl

theorem buffer_held (held : s.holds scope = true) :
    (ScopeOp.buffer scope).program s = .done (.span scope.span, s) := by
  rw [ScopeOp.program, WriteScope.buffer, (holds_iff.mp held).1, checkScope_held held]
  rfl

theorem commit_negative (held : s.holds scope = true) {length : Int32} (negative : length < 0) :
    ∃ thrown, (ScopeOp.commit scope length).program s = .done (.threw thrown, s) := by
  rw [ScopeOp.program, WriteScope.commit, (holds_iff.mp held).1, if_neg (by decide),
    StateWriter.commit, checkScope_held held]
  dsimp only
  rw [if_pos negative]
  exact ⟨_, rfl⟩

variable {n : NativeWriter} {w : Writer}

theorem must_ask {α : Type} {request : WriterCall} {rest : request.Reply → WriterProg α}
    {post : α → NativeWriter → Prop} (here : n.handle = some w) (usable : w.Usable)
    (next : ∀ reply after, request.Meets w reply after.handle →
      after.calls = n.calls ++ [request] → (rest reply).Must execWriter post after) :
    (askWriter request >>= rest).Must execWriter post n := by
  obtain ⟨possible, meets⟩ := execWriter_spec here usable request
  refine ⟨fun _ => possible, fun reply after executed => ?_⟩
  obtain ⟨outcome, calls⟩ := meets reply after executed
  exact next reply after outcome calls

theorem must_publish (here : n.handle = some w) (usable : w.Usable) (alive : s.isClosed = false)
    (data : List UInt8) :
    ((ScopeOp.publish data).program s).Must execWriter (fun returned after =>
      ((∃ value, returned.1 = .generation value) ∨ ∃ thrown, returned.1 = .threw thrown) ∧
        returned.2 = s ∧ w.Leaves w.isOpen after.handle) n := by
  have publishes : (s.publish data).Must execWriter (fun returned after =>
      returned.2 = s ∧ w.Leaves w.isOpen after.handle) n := by
    rw [StateWriter.publish, if_neg (ne_true_of_eq_false alive)]
    refine must_ask here usable fun reply after meets _ => ?_
    dsimp only
    split
    · exact ⟨rfl, meets.2⟩
    · exact ⟨rfl, meets.2⟩
  refine publishes.bind fun returned after facts => ?_
  obtain ⟨value | thrown, later⟩ := returned
  · exact ⟨.inr ⟨_, rfl⟩, facts⟩
  · exact ⟨.inl ⟨_, rfl⟩, facts⟩

theorem must_begin (here : n.handle = some w) (usable : w.Usable) (alive : s.isClosed = false)
    (same : s.capacity = w.capacity) :
    (ScopeOp.begin.program s).Must execWriter (fun returned after =>
      if w.isOpen then (∃ thrown, returned = (.threw thrown, s)) ∧ after.handle = some w
      else ∃ span, returned = (.scope ⟨true, s.lastScope + 1, span⟩,
          { s with scope := s.lastScope + 1, lastScope := s.lastScope + 1 }) ∧
        w.Leaves true after.handle) n := by
  have small : ¬ s.capacity ≥ 0x80000000 := by
    obtain ⟨g, seated, -⟩ := usable
    rw [same, seated.capacity]
    exact UInt32.not_le.mpr (Nat.lt_of_le_of_lt (UInt32.le_iff_toNat_le.mp g.bounded) (by decide))
  have begins : s.begin.Must execWriter (fun returned after =>
      if w.isOpen then (∃ thrown, returned = (.error thrown, s)) ∧ after.handle = some w
      else ∃ span, returned = (.ok ⟨true, s.lastScope + 1, span⟩,
          { s with scope := s.lastScope + 1, lastScope := s.lastScope + 1 }) ∧
        w.Leaves true after.handle) n := by
    rw [StateWriter.begin, if_neg (ne_true_of_eq_false alive)]
    refine must_ask here usable fun reply after meets _ => ?_
    obtain ⟨code, unchanged, leaves⟩ := meets
    dsimp only
    cases status : w.isOpen with
    | true =>
        rw [status, if_pos rfl] at code
        have failed : reply.1 ≠ .ok := by
          rw [code]
          decide
        rw [if_pos failed]
        exact ⟨⟨_, rfl⟩, unchanged failed⟩
    | false =>
        rw [status, if_neg Bool.false_ne_true] at code
        rw [if_neg (not_not.mpr code), if_neg small]
        exact ⟨_, rfl, leaves⟩
  refine begins.bind fun returned after facts => ?_
  cases status : w.isOpen with
  | true =>
      rw [status] at facts
      obtain ⟨⟨thrown, rfl⟩, unchanged⟩ := facts
      exact ⟨⟨thrown, rfl⟩, unchanged⟩
  | false =>
      rw [status] at facts
      obtain ⟨span, rfl, leaves⟩ := facts
      exact ⟨span, rfl, leaves⟩

theorem must_dispose (here : n.handle = some w) (usable : w.Usable) (alive : s.isClosed = false) :
    (ScopeOp.dispose.program s).Must execWriter (fun returned after =>
      returned = (.done, { s with isClosed := true }) ∧ after.handle = none) n := by
  have disposes : s.dispose.Must execWriter (fun returned after =>
      returned = { s with isClosed := true } ∧ after.handle = none) n := by
    rw [StateWriter.dispose, if_neg (ne_true_of_eq_false alive)]
    exact must_ask here usable fun _ after meets _ => ⟨rfl, meets⟩
  refine disposes.bind ?_
  rintro _ after ⟨rfl, closed⟩
  exact ⟨rfl, closed⟩

theorem must_commit (here : n.handle = some w) (usable : w.Usable) (held : s.holds scope = true)
    (isOpen : w.isOpen = true) {length : Int32} (positive : ¬ length < 0) :
    ((ScopeOp.commit scope length).program s).Must execWriter (fun returned after =>
      (length.toUInt32 > w.capacity →
        (∃ thrown, returned = (.threw thrown, s)) ∧ after.handle = some w) ∧
      (¬ length.toUInt32 > w.capacity →
        (∃ value, returned = (.generation value, { s with scope := 0 })) ∧
          w.Leaves false after.handle)) n := by
  have commits : (scope.commit s length).Must execWriter (fun returned after =>
      (length.toUInt32 > w.capacity →
        (∃ thrown, returned = (.error thrown, s)) ∧ after.handle = some w) ∧
      (¬ length.toUInt32 > w.capacity →
        (∃ value, returned = (.ok value, { s with scope := 0 })) ∧
          w.Leaves false after.handle)) n := by
    rw [WriteScope.commit, (holds_iff.mp held).1, if_neg (by decide), StateWriter.commit,
      checkScope_held held]
    dsimp only
    rw [if_neg positive]
    refine must_ask here usable fun reply after meets _ => ?_
    obtain ⟨code, unchanged, leaves⟩ := meets
    rw [isOpen] at code leaves
    by_cases large : length.toUInt32 > w.capacity
    · have failed : reply.1 ≠ .ok := by
        rw [code, if_neg (by decide), if_pos large]
        decide
      rw [if_pos failed]
      exact ⟨fun _ => ⟨⟨_, rfl⟩, unchanged failed⟩, fun small => absurd large small⟩
    · rw [if_neg (by decide), if_neg large] at code
      rw [decide_eq_false large] at leaves
      rw [if_neg (not_not.mpr code)]
      exact ⟨fun more => absurd more large, fun _ => ⟨⟨_, rfl⟩, leaves⟩⟩
  refine commits.bind fun returned after facts => ⟨fun large => ?_, fun small => ?_⟩
  · obtain ⟨⟨thrown, rfl⟩, unchanged⟩ := facts.1 large
    exact ⟨⟨thrown, rfl⟩, unchanged⟩
  · obtain ⟨⟨value, rfl⟩, leaves⟩ := facts.2 small
    exact ⟨⟨value, rfl⟩, leaves⟩

theorem must_disposeScope (here : n.handle = some w) (usable : w.Usable)
    (held : s.holds scope = true) (isOpen : w.isOpen = true) :
    ((ScopeOp.disposeScope scope).program s).Must execWriter (fun returned after =>
      returned = (.done, { s with scope := 0 }) ∧ w.Leaves false after.handle) n := by
  obtain ⟨owned, alive, positive, same⟩ := holds_iff.mp held
  have live : ¬ (s.isClosed || decide (scope.id = 0) || decide (scope.id ≠ s.scope)) = true := by
    simp only [Bool.or_eq_true, decide_eq_true_eq, not_or, not_not, Bool.not_eq_true]
    exact ⟨⟨alive, positive⟩, same⟩
  have aborts : (scope.dispose s).Must execWriter (fun returned after =>
      returned = (.ok (), { s with scope := 0 }) ∧ w.Leaves false after.handle) n := by
    rw [WriteScope.dispose, owned, if_neg (by decide), StateWriter.abort, if_neg live]
    refine must_ask here usable fun reply after meets _ => ?_
    obtain ⟨code, -, leaves⟩ := meets
    rw [isOpen, if_pos rfl] at code
    rw [if_neg (not_not.mpr code)]
    exact ⟨rfl, leaves⟩
  refine aborts.bind ?_
  rintro _ after ⟨rfl, leaves⟩
  exact ⟨rfl, leaves⟩

end Calls

/-- The writer, its native writer and the calls so far fit together. -/
structure Consistent (s : StateWriter) (n : NativeWriter) (log : List ScopeEntry) : Prop where
  last : s.lastScope = UInt64.ofNat (begins log).length
  /-- Scopes are numbered from one. -/
  ids : ∀ {index scope}, (begins log)[index]? = some scope →
    scope.writer = true ∧ scope.id = UInt64.ofNat (index + 1)
  current : ∀ {scope}, unfinished log = some scope → scope ∈ begins log
  alive : s.isClosed = false → s.scope = ((unfinished log).map WriteScope.id).getD 0 ∧
    ∃ w, n.handle = some w ∧ w.Usable ∧ w.capacity = s.capacity ∧
      w.isOpen = (unfinished log).isSome
  closed : s.isClosed = true → n.handle = none ∧ unfinished log = none
  once : ∀ scope, log.countP (ScopeEntry.ends scope) ≤ 1
  /-- An unfinished begin has not been ended. -/
  unended : ∀ {scope}, unfinished log = some scope ∨ scope ∉ begins log →
    log.countP (ScopeEntry.ends scope) = 0

theorem unfinished_append (log : List ScopeEntry) (entry : ScopeEntry) :
    unfinished (log ++ [entry]) = entry.advance (unfinished log) := by
  rw [unfinished, List.foldl_append]
  rfl

theorem begins_append (log : List ScopeEntry) (entry : ScopeEntry) :
    begins (log ++ [entry]) = begins log ++ begins [entry] := List.filterMap_append

namespace Consistent

variable {s : StateWriter} {n n' : NativeWriter} {log : List ScopeEntry} {entry : ScopeEntry}
  {scope : WriteScope}

theorem opened {w : Writer} (name : String) (usable : w.Usable) (closed : w.isOpen = false) :
    Consistent ⟨false, name, w.capacity, 0, 0⟩ ⟨some w, []⟩ [] where
  last := rfl
  ids := nofun
  current := nofun
  alive := fun _ => ⟨rfl, w, rfl, usable, rfl, closed⟩
  closed := nofun
  once := fun _ => Nat.zero_le _
  unended := fun _ => rfl

/-- With fewer than 2^64 begins, the ids of scopes are positive and differ. -/
theorem ids_injective (consistent : Consistent s n log) (few : (begins log).length < 2 ^ 64)
    {other : WriteScope} (left : scope ∈ begins log) (right : other ∈ begins log) :
    scope.id ≠ 0 ∧ (scope.id = other.id → scope = other) := by
  obtain ⟨index, bound, here⟩ := List.mem_iff_getElem.mp left
  obtain ⟨index', bound', there⟩ := List.mem_iff_getElem.mp right
  have found := List.getElem?_eq_some_iff.mpr ⟨bound, here⟩
  have found' := List.getElem?_eq_some_iff.mpr ⟨bound', there⟩
  have id := congrArg UInt64.toNat (consistent.ids found).2
  have id' := congrArg UInt64.toNat (consistent.ids found').2
  rw [UInt64.toNat_ofNat', Nat.mod_eq_of_lt (by omega)] at id id'
  refine ⟨fun zero => ?_, fun same => ?_⟩
  · rw [zero] at id
    exact absurd id (by simp)
  · rw [same] at id
    have equal : index = index' := by omega
    subst equal
    exact here.symm.trans there

/-- The writer takes exactly the scope of the latest unfinished begin for open. -/
theorem holds_iff_unfinished (consistent : Consistent s n log)
    (few : (begins log).length < 2 ^ 64) (obtained : Obtained log scope) :
    s.holds scope = true ↔ unfinished log = some scope := by
  rw [holds_iff]
  constructor
  · rintro ⟨owned, alive, positive, same⟩
    have member : scope ∈ begins log := by
      rcases obtained with rfl | member
      · exact nomatch owned
      · exact member
    have id := (consistent.alive alive).1
    cases current : unfinished log with
    | none =>
        rw [current] at id
        exact absurd (same.trans id) positive
    | some other =>
        rw [current] at id
        rw [(consistent.ids_injective few member (consistent.current current)).2 (same.trans id)]
  · intro current
    have member := consistent.current current
    obtain ⟨index, bound, here⟩ := List.mem_iff_getElem.mp member
    have owned := (consistent.ids (List.getElem?_eq_some_iff.mpr ⟨bound, here⟩)).1
    have alive : s.isClosed = false := by
      cases closed : s.isClosed with
      | false => rfl
      | true => exact nomatch current.symm.trans (consistent.closed closed).2
    refine ⟨owned, alive, (consistent.ids_injective few member member).1, ?_⟩
    rw [(consistent.alive alive).1, current]
    rfl

theorem of_held (consistent : Consistent s n log) (few : (begins log).length < 2 ^ 64)
    (obtained : Obtained log scope) (held : s.holds scope = true) :
    unfinished log = some scope ∧ s.isClosed = false ∧
      ∃ w, n.handle = some w ∧ w.Usable ∧ w.isOpen = true := by
  have current := (consistent.holds_iff_unfinished few obtained).mp held
  have alive := (holds_iff.mp held).2.1
  obtain ⟨-, w, here, usable, -, isOpen⟩ := consistent.alive alive
  rw [current] at isOpen
  exact ⟨current, alive, w, here, usable, isOpen⟩

theorem begins_same (nothing : begins [entry] = []) : begins (log ++ [entry]) = begins log := by
  rw [begins_append, nothing, List.append_nil]

theorem count_silent (silent : entry.ends scope = false) :
    (log ++ [entry]).countP (ScopeEntry.ends scope) = log.countP (ScopeEntry.ends scope) := by
  rw [List.countP_append, List.countP_cons_of_neg (ne_true_of_eq_false silent)]
  rfl

theorem quiet (consistent : Consistent s n log) (nothing : begins [entry] = [])
    (same : entry.advance (unfinished log) = unfinished log)
    (silent : ∀ scope, entry.ends scope = false)
    (leaves : ∀ {w}, n.handle = some w → w.Usable → w.Leaves w.isOpen n'.handle)
    (absent : n.handle = none → n'.handle = none) : Consistent s n' (log ++ [entry]) := by
  have status : unfinished (log ++ [entry]) = unfinished log :=
    (unfinished_append log entry).trans same
  constructor
  · rw [begins_same nothing]
    exact consistent.last
  · rw [begins_same nothing]
    exact consistent.ids
  · rw [begins_same nothing, status]
    exact consistent.current
  · intro alive
    obtain ⟨id, w, here, usable, capacity, isOpen⟩ := consistent.alive alive
    obtain ⟨after, there, usable', capacity', isOpen'⟩ := leaves here usable
    rw [status]
    exact ⟨id, after, there, usable', capacity'.trans capacity, isOpen'.trans isOpen⟩
  · intro closed
    rw [status]
    exact ⟨absent (consistent.closed closed).1, (consistent.closed closed).2⟩
  · intro scope
    rw [count_silent (silent scope)]
    exact consistent.once scope
  · intro scope
    rw [begins_same nothing, status, count_silent (silent scope)]
    exact consistent.unended

theorem ended {w : Writer} (consistent : Consistent s n log) (alive : s.isClosed = false)
    (current : unfinished log = some scope) (nothing : begins [entry] = [])
    (finished : entry.advance (unfinished log) = none)
    (silent : ∀ other, other ≠ scope → entry.ends other = false) (here : n.handle = some w)
    (leaves : w.Leaves false n'.handle) :
    Consistent { s with scope := 0 } n' (log ++ [entry]) := by
  have status : unfinished (log ++ [entry]) = none :=
    (unfinished_append log entry).trans finished
  constructor
  · rw [begins_same nothing]
    exact consistent.last
  · rw [begins_same nothing]
    exact consistent.ids
  · rw [status]
    nofun
  · intro _
    obtain ⟨-, w', here', -, capacity, -⟩ := consistent.alive alive
    cases here.symm.trans here'
    obtain ⟨after, there, usable', capacity', isOpen'⟩ := leaves
    rw [status]
    exact ⟨rfl, after, there, usable', capacity'.trans capacity, isOpen'⟩
  · intro closed
    exact nomatch alive.symm.trans closed
  · intro other
    by_cases own : other = scope
    · rw [List.countP_append, own, consistent.unended (.inl current)]
      rw [Nat.zero_add]
      exact List.countP_le_length
    · rw [count_silent (silent other own)]
      exact consistent.once other
  · intro other unended
    have absent : other ∉ begins log := by
      rcases unended with here | absent
      · rw [status] at here
        exact nomatch here
      · rwa [begins_same nothing] at absent
    have own : other ≠ scope := by
      rintro rfl
      exact absent (consistent.current current)
    rw [count_silent (silent other own)]
    exact consistent.unended (.inr absent)

theorem begun {w : Writer} {span : Span} (consistent : Consistent s n log) (alive : s.isClosed = false)
    (few : (begins (log ++ [entry])).length < 2 ^ 64)
    (new : begins [entry] = [⟨true, s.lastScope + 1, span⟩])
    (opens : entry.advance (unfinished log) = some ⟨true, s.lastScope + 1, span⟩)
    (silent : ∀ scope, entry.ends scope = false) (here : n.handle = some w)
    (leaves : w.Leaves true n'.handle) :
    Consistent { s with scope := s.lastScope + 1, lastScope := s.lastScope + 1 } n'
      (log ++ [entry]) := by
  have status := (unfinished_append log entry).trans opens
  have list : begins (log ++ [entry]) = begins log ++ [⟨true, s.lastScope + 1, span⟩] := by
    rw [begins_append, new]
  rw [list, List.length_append, List.length_singleton] at few
  have next : s.lastScope + 1 = UInt64.ofNat ((begins log).length + 1) := by
    rw [consistent.last, UInt64.ofNat_add]
    rfl
  have ids : ∀ {index scope}, (begins log ++ [⟨true, s.lastScope + 1, span⟩])[index]? =
      some scope → scope.writer = true ∧ scope.id = UInt64.ofNat (index + 1) := by
    intro index scope found
    rcases Nat.lt_trichotomy index (begins log).length with below | same | above
    · rw [List.getElem?_append_left below] at found
      exact consistent.ids found
    · rw [same, List.getElem?_concat_length] at found
      cases found
      exact ⟨rfl, same ▸ next⟩
    · rw [List.getElem?_append_right (Nat.le_of_lt above),
        List.getElem?_eq_none (by rw [List.length_singleton]; omega)] at found
      exact nomatch found
  have absent : ⟨true, s.lastScope + 1, span⟩ ∉ begins log := by
    intro member
    obtain ⟨index, bound, here⟩ := List.mem_iff_getElem.mp member
    have id := (consistent.ids (List.getElem?_eq_some_iff.mpr ⟨bound, here⟩)).2
    have count := congrArg UInt64.toNat (next.symm.trans id)
    rw [UInt64.toNat_ofNat', UInt64.toNat_ofNat', Nat.mod_eq_of_lt few,
      Nat.mod_eq_of_lt (by omega)] at count
    omega
  constructor
  · rw [list, List.length_append]
    exact next
  · rw [list]
    exact ids
  · rw [list, status]
    rintro scope same
    cases same
    exact List.mem_append_right _ (List.mem_singleton.mpr rfl)
  · intro _
    obtain ⟨-, w', here', -, capacity, -⟩ := consistent.alive alive
    cases here.symm.trans here'
    obtain ⟨after, there, usable', capacity', isOpen'⟩ := leaves
    rw [status]
    exact ⟨rfl, after, there, usable', capacity'.trans capacity, isOpen'⟩
  · intro closed
    exact nomatch alive.symm.trans closed
  · intro scope
    rw [count_silent (silent scope)]
    exact consistent.once scope
  · intro scope unended
    rw [count_silent (silent scope)]
    refine consistent.unended (.inr ?_)
    rw [list, status] at unended
    rcases unended with same | outside
    · cases same
      exact absent
    · exact fun member => outside (List.mem_append_left _ member)

theorem disposed (consistent : Consistent s n log) (nothing : begins [entry] = [])
    (finished : entry.advance (unfinished log) = none) (silent : ∀ scope, entry.ends scope = false)
    (absent : n'.handle = none) : Consistent { s with isClosed := true } n' (log ++ [entry]) := by
  have status := (unfinished_append log entry).trans finished
  constructor
  · rw [begins_same nothing]
    exact consistent.last
  · rw [begins_same nothing]
    exact consistent.ids
  · rw [status]
    nofun
  · nofun
  · exact fun _ => ⟨absent, status⟩
  · intro scope
    rw [count_silent (silent scope)]
    exact consistent.once scope
  · intro scope unended
    rw [begins_same nothing, status] at unended
    rw [count_silent (silent scope)]
    exact consistent.unended (unended.imp nofun id)

theorem refused {op : ScopeOp} {thrown : Thrown} {calls : List WriterCall}
    (consistent : Consistent s n log) (same : n'.handle = n.handle) :
    Consistent s n' (log ++ [⟨op, .threw thrown, calls⟩]) := by
  refine consistent.quiet rfl ?_ (fun _ => ?_) (fun here usable => ?_) same.trans
  · cases op <;> rfl
  · cases op <;> rfl
  · rw [same, here]
    exact Writer.leaves_self usable

/-- A call that leaves everything as it is, and begins and ends nothing. -/
theorem unchanged (consistent : Consistent s n log) (nothing : begins [entry] = [])
    (same : entry.advance (unfinished log) = unfinished log)
    (silent : ∀ scope, entry.ends scope = false) : Consistent s n (log ++ [entry]) := by
  refine consistent.quiet nothing same silent (fun here usable => ?_) id
  rw [here]
  exact Writer.leaves_self usable

variable {s' : StateWriter} {op : ScopeOp} {result : ScopeResult}

theorem refuses (consistent : Consistent s n log)
    (refused : ∃ thrown, op.program s = .done (.threw thrown, s))
    (runs : (op.program s).Runs execWriter n (result, s') n') :
    Consistent s' n' (log ++ [⟨op, result, n'.calls.drop n.calls.length⟩]) := by
  obtain ⟨thrown, refused⟩ := refused
  rw [refused] at runs
  obtain ⟨same, rfl⟩ := runs
  cases same
  exact consistent.refused rfl

theorem publish {data : List UInt8} (consistent : Consistent s n log)
    (runs : ((ScopeOp.publish data).program s).Runs execWriter n (result, s') n') :
    Consistent s' n' (log ++ [⟨.publish data, result, n'.calls.drop n.calls.length⟩]) := by
  cases alive : s.isClosed with
  | true => exact consistent.refuses ⟨_, publish_closed alive data⟩ runs
  | false =>
      obtain ⟨-, w, here, usable, -, -⟩ := consistent.alive alive
      obtain ⟨outcome, rfl, leaves⟩ := (must_publish here usable alive data).runs runs
      have kept : ∀ {other : Writer}, n.handle = some other → other.Usable →
          other.Leaves other.isOpen n'.handle := by
        intro other there _
        cases here.symm.trans there
        exact leaves
      have absent : n.handle = none → n'.handle = none := by
        intro gone
        cases here.symm.trans gone
      obtain ⟨value, rfl⟩ | ⟨thrown, rfl⟩ := outcome
      · exact consistent.quiet rfl rfl (fun _ => rfl) kept absent
      · exact consistent.quiet rfl rfl (fun _ => rfl) kept absent

theorem begin (consistent : Consistent s n log)
    (runs : (ScopeOp.begin.program s).Runs execWriter n (result, s') n')
    (few : (begins (log ++ [⟨.begin, result, n'.calls.drop n.calls.length⟩])).length < 2 ^ 64) :
    Consistent s' n' (log ++ [⟨.begin, result, n'.calls.drop n.calls.length⟩]) := by
  cases alive : s.isClosed with
  | true => exact consistent.refuses ⟨_, begin_closed alive⟩ runs
  | false =>
      obtain ⟨-, w, here, usable, capacity, -⟩ := consistent.alive alive
      have outcome := (must_begin here usable alive capacity.symm).runs runs
      cases status : w.isOpen with
      | true =>
          rw [status] at outcome
          obtain ⟨⟨thrown, same⟩, unchanged⟩ := outcome
          cases same
          exact consistent.refused (unchanged.trans here.symm)
      | false =>
          rw [status] at outcome
          obtain ⟨span, same, leaves⟩ := outcome
          cases same
          exact consistent.begun alive few rfl rfl (fun _ => rfl) here leaves

theorem dispose (consistent : Consistent s n log)
    (runs : (ScopeOp.dispose.program s).Runs execWriter n (result, s') n') :
    Consistent s' n' (log ++ [⟨.dispose, result, n'.calls.drop n.calls.length⟩]) := by
  cases alive : s.isClosed with
  | true =>
      rw [dispose_closed alive] at runs
      obtain ⟨same, rfl⟩ := runs
      cases same
      exact consistent.unchanged rfl (consistent.closed alive).2.symm (fun _ => rfl)
  | false =>
      obtain ⟨-, w, here, usable, -, -⟩ := consistent.alive alive
      obtain ⟨same, absent⟩ := (must_dispose here usable alive).runs runs
      cases same
      exact consistent.disposed rfl rfl (fun _ => rfl) absent

theorem buffer (consistent : Consistent s n log)
    (runs : ((ScopeOp.buffer scope).program s).Runs execWriter n (result, s') n') :
    Consistent s' n' (log ++ [⟨.buffer scope, result, n'.calls.drop n.calls.length⟩]) := by
  cases held : s.holds scope with
  | false => exact consistent.refuses (buffer_stale held) runs
  | true =>
      rw [buffer_held held] at runs
      obtain ⟨same, rfl⟩ := runs
      cases same
      exact consistent.unchanged rfl rfl (fun _ => rfl)

theorem commit {length : Int32} (consistent : Consistent s n log)
    (few : (begins log).length < 2 ^ 64) (obtained : Obtained log scope)
    (runs : ((ScopeOp.commit scope length).program s).Runs execWriter n (result, s') n') :
    Consistent s' n' (log ++ [⟨.commit scope length, result, n'.calls.drop n.calls.length⟩]) := by
  cases held : s.holds scope with
  | false => exact consistent.refuses (commit_stale held length) runs
  | true =>
      obtain ⟨current, alive, w, here, usable, isOpen⟩ := consistent.of_held few obtained held
      by_cases negative : length < 0
      · exact consistent.refuses (commit_negative held negative) runs
      obtain ⟨failed, succeeded⟩ := (must_commit here usable held isOpen negative).runs runs
      by_cases large : length.toUInt32 > w.capacity
      · obtain ⟨⟨thrown, same⟩, unchanged⟩ := failed large
        cases same
        exact consistent.refused (unchanged.trans here.symm)
      · obtain ⟨⟨value, same⟩, leaves⟩ := succeeded large
        cases same
        exact consistent.ended alive current rfl (if_pos current)
          (fun _ differs => decide_eq_false differs.symm) here leaves

theorem disposeScope (consistent : Consistent s n log) (few : (begins log).length < 2 ^ 64)
    (obtained : Obtained log scope)
    (runs : ((ScopeOp.disposeScope scope).program s).Runs execWriter n (result, s') n') :
    Consistent s' n' (log ++ [⟨.disposeScope scope, result, n'.calls.drop n.calls.length⟩]) := by
  cases held : s.holds scope with
  | false =>
      rw [disposeScope_stale held] at runs
      obtain ⟨same, rfl⟩ := runs
      cases same
      refine consistent.unchanged rfl (if_neg fun current => ?_) (fun other => ?_)
      · have live := (consistent.holds_iff_unfinished few obtained).mpr current
        exact Bool.false_ne_true (held.symm.trans live)
      · change (decide (scope = other) && (n'.calls.drop n'.calls.length).contains .abort) = false
        rw [List.drop_length]
        exact Bool.and_false _
  | true =>
      obtain ⟨current, alive, w, here, usable, isOpen⟩ := consistent.of_held few obtained held
      obtain ⟨same, leaves⟩ := (must_disposeScope here usable held isOpen).runs runs
      cases same
      refine consistent.ended alive current rfl (if_pos current) (fun other differs => ?_) here leaves
      change (decide (scope = other) && _) = false
      rw [decide_eq_false differs.symm, Bool.false_and]

/-- One call, whatever it is. -/
theorem call (consistent : Consistent s n log)
    (obtained : ∀ scope, op.scope? = some scope → Obtained log scope)
    (runs : (op.program s).Runs execWriter n (result, s') n')
    (few : (begins (log ++ [⟨op, result, n'.calls.drop n.calls.length⟩])).length < 2 ^ 64) :
    Consistent s' n' (log ++ [⟨op, result, n'.calls.drop n.calls.length⟩]) := by
  have fewer : (begins log).length < 2 ^ 64 := by
    rw [begins_append, List.length_append] at few
    omega
  cases op with
  | publish data => exact consistent.publish runs
  | begin => exact consistent.begin runs few
  | dispose => exact consistent.dispose runs
  | buffer scope => exact consistent.buffer runs
  | commit scope length => exact consistent.commit fewer (obtained scope rfl) runs
  | disposeScope scope => exact consistent.disposeScope fewer (obtained scope rfl) runs

end Consistent

theorem ScopeCalls.consistent {s : StateWriter} {n : NativeWriter} {log : List ScopeEntry}
    (session : ScopeCalls s n log) (few : (begins log).length < 2 ^ 64) : Consistent s n log := by
  induction session with
  | opened name usable closed => exact Consistent.opened name usable closed
  | call session obtained runs ih =>
      have fewer := few
      rw [begins_append, List.length_append] at fewer
      exact (ih (by omega)).call obtained runs few

end PsMsgr
