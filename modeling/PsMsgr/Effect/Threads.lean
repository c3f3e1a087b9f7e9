import PsMsgr.Effect.Interference

namespace PsMsgr.Effect

/-! # Threads that serve requests

A thread owns a handle.  While idle it may take up any request its handle accepts;
it then runs that request's program, one call at a time, and is idle again with
the handle the program returned.  A thread may be killed at any point.
-/

structure Client (Call : Type) (Reply : Call → Type) (State Tid : Type) where
  Handle : Type
  Request : Type
  Result : Type
  accepts : Handle → Request → Prop
  program : Handle → Request → Program Call Reply (Handle × Result)
  /-- Bookkeeping at the instant a request is taken up. -/
  begin : Tid → Request → State → State
  /-- What the operating system undoes when a thread is killed. -/
  crash : Tid → State → State

variable {Call : Type} {Reply : Call → Type} {State Tid : Type}

inductive Thread (C : Client Call Reply State Tid) where
  | idle (handle : C.Handle)
  | busy (handle : C.Handle) (request : C.Request) (since : State)
      (program : Program Call Reply (C.Handle × C.Result))
  | dead

structure System (C : Client Call Reply State Tid) where
  state : State
  threads : Tid → Thread C

section Steps

variable [DecidableEq Tid]

/-- One step of the whole system. -/
inductive Step (D : Discipline Call Reply State Tid) (C : Client Call Reply State Tid) :
    System C → System C → Prop where
  | start {system : System C} (thread : Tid) {handle : C.Handle} (request : C.Request)
      (idle : system.threads thread = .idle handle) (accepted : C.accepts handle request) :
      Step D C system
        { state := C.begin thread request system.state
          threads := Function.update system.threads thread
            (.busy handle request (C.begin thread request system.state)
              (C.program handle request)) }
  | call {system : System C} (thread : Tid) {handle : C.Handle} {request : C.Request}
      {since after : State} {made : Call}
      {next : Reply made → Program Call Reply (C.Handle × C.Result)} {reply : Reply made}
      (busy : system.threads thread = .busy handle request since (.call made next))
      (executed : D.exec thread made system.state reply after) :
      Step D C system
        { state := after
          threads := Function.update system.threads thread
            (.busy handle request since (next reply)) }
  | finish {system : System C} (thread : Tid) {handle : C.Handle} {request : C.Request}
      {since : State} {returned : C.Handle × C.Result}
      (busy : system.threads thread = .busy handle request since (.done returned)) :
      Step D C system
        { state := system.state
          threads := Function.update system.threads thread (.idle returned.1) }
  | kill {system : System C} (thread : Tid) (alive : system.threads thread ≠ .dead) :
      Step D C system
        { state := C.crash thread system.state
          threads := Function.update system.threads thread .dead }

/-- A run: each system follows from the one before by a step, or equals it. -/
structure Run (D : Discipline Call Reply State Tid) (C : Client Call Reply State Tid)
    (initial : System C) where
  systems : Nat → System C
  first : systems 0 = initial
  next : ∀ index, systems (index + 1) = systems index ∨
    Step D C (systems index) (systems (index + 1))

variable {D : Discipline Call Reply State Tid} {C : Client Call Reply State Tid}
  {initial : System C}

/-- Whoever is busy after a step was busy with the same request before, or has just taken
it up. -/
theorem Step.busy {before after : System C} (step : Step D C before after) {thread : Tid}
    {handle : C.Handle} {request : C.Request} {since : State}
    {program : Program Call Reply (C.Handle × C.Result)}
    (busy : after.threads thread = .busy handle request since program) :
    (∃ earlier, before.threads thread = .busy handle request since earlier) ∨
      (before.threads thread = .idle handle ∧ C.accepts handle request ∧
        since = C.begin thread request before.state ∧ since = after.state ∧
        program = C.program handle request) := by
  cases step with
  | @start other _ _ idle accepted =>
      by_cases same : thread = other
      · subst other
        simp only [Function.update_self, Thread.busy.injEq] at busy
        obtain ⟨rfl, rfl, rfl, rfl⟩ := busy
        exact .inr ⟨idle, accepted, rfl, rfl, rfl⟩
      · exact .inl ⟨program, by simpa [Function.update_of_ne same] using busy⟩
  | @call other _ _ _ _ _ _ _ running executed =>
      by_cases same : thread = other
      · subst other
        simp only [Function.update_self, Thread.busy.injEq] at busy
        obtain ⟨rfl, rfl, rfl, rfl⟩ := busy
        exact .inl ⟨_, running⟩
      · exact .inl ⟨program, by simpa [Function.update_of_ne same] using busy⟩
  | @finish other _ _ _ _ running =>
      by_cases same : thread = other
      · subst other
        simp at busy
      · exact .inl ⟨program, by simpa [Function.update_of_ne same] using busy⟩
  | @kill other alive =>
      by_cases same : thread = other
      · subst other
        simp at busy
      · exact .inl ⟨program, by simpa [Function.update_of_ne same] using busy⟩

/-- The thread takes up the request at `first` and is busy with it until `last`. -/
structure Run.Serves (run : Run D C initial) (thread : Tid) (handle : C.Handle)
    (request : C.Request) (first last : Nat) : Prop where
  ordered : first ≤ last
  accepted : C.accepts handle request
  started : (run.systems first).threads thread =
    .busy handle request (run.systems first).state (C.program handle request)
  during : ∀ {index}, first ≤ index → index ≤ last → ∃ program,
    (run.systems index).threads thread = .busy handle request (run.systems first).state program

/-- A call: it begins at `first` and is about to return at `last`. -/
structure Run.Called (run : Run D C initial) (thread : Tid) (handle : C.Handle)
    (request : C.Request) (returned : C.Handle × C.Result) (first last : Nat) : Prop
    extends run.Serves thread handle request first last where
  returns : (run.systems last).threads thread =
    .busy handle request (run.systems first).state (.done returned)

theorem Run.serves (run : Run D C initial)
    (fresh : ∀ thread, ∃ handle, initial.threads thread = .idle handle) {last : Nat} {thread : Tid}
    {handle : C.Handle} {request : C.Request} {since : State}
    {program : Program Call Reply (C.Handle × C.Result)}
    (busy : (run.systems last).threads thread = .busy handle request since program) :
    ∃ first, run.Serves thread handle request first last ∧
      since = (run.systems first).state := by
  induction last generalizing program with
  | zero =>
      obtain ⟨idle, here⟩ := fresh thread
      rw [run.first, here] at busy
      exact nomatch busy
  | succ last ih =>
      have extended : (∃ earlier, (run.systems last).threads thread =
          .busy handle request since earlier) →
          ∃ first, run.Serves thread handle request first (last + 1) ∧
            since = (run.systems first).state := by
        rintro ⟨earlier, running⟩
        obtain ⟨first, serves, rfl⟩ := ih running
        refine ⟨first, ⟨Nat.le_succ_of_le serves.ordered, serves.accepted, serves.started, ?_⟩, rfl⟩
        intro index lower upper
        rcases Nat.le_succ_iff.mp upper with inside | rfl
        · exact serves.during lower inside
        · exact ⟨program, busy⟩
      rcases run.next last with same | step
      · exact extended ⟨program, by rw [← same]; exact busy⟩
      rcases step.busy busy with running | ⟨-, accepted, -, rfl, rfl⟩
      · exact extended running
      · refine ⟨last + 1, ⟨Nat.le_refl _, accepted, busy, fun {index} lower upper => ?_⟩, rfl⟩
        obtain rfl : index = last + 1 := Nat.le_antisymm upper lower
        exact ⟨_, busy⟩

theorem Run.called (run : Run D C initial)
    (fresh : ∀ thread, ∃ handle, initial.threads thread = .idle handle) {last : Nat} {thread : Tid}
    {handle : C.Handle} {request : C.Request} {since : State} {returned : C.Handle × C.Result}
    (busy : (run.systems last).threads thread = .busy handle request since (.done returned)) :
    ∃ first, run.Called thread handle request returned first last := by
  obtain ⟨first, serves, rfl⟩ := run.serves fresh busy
  exact ⟨first, serves, busy⟩

end Steps

/-- A proof outline: what an idle thread owns and what each request achieves. -/
structure Outline (D : Discipline Call Reply State Tid) (C : Client Call Reply State Tid) where
  owns : Tid → C.Handle → State → Prop
  post : Tid → C.Handle → C.Request → State → C.Handle × C.Result → State → Prop
  owns_rely : ∀ {thread handle before after}, owns thread handle before →
    D.rely thread before after → D.inv after → owns thread handle after
  begin_guarantee : ∀ {thread handle request state}, D.inv state →
    owns thread handle state → C.accepts handle request →
    D.Guarantee thread state (C.begin thread request state)
  ensures : ∀ {thread handle request state later}, D.inv state →
    owns thread handle state → C.accepts handle request →
    D.rely thread (C.begin thread request state) later → D.inv later →
    D.Ensures thread
      (fun returned after => owns thread returned.1 after ∧
        post thread handle request (C.begin thread request state) returned after)
      (C.program handle request) later
  crash_guarantee : ∀ {thread state}, D.inv state →
    D.Guarantee thread state (C.crash thread state)

namespace Outline

variable {D : Discipline Call Reply State Tid} {C : Client Call Reply State Tid}

/-- What is known of one thread in a sound system. -/
def Holds (O : Outline D C) (thread : Tid) (state : State) : Thread C → Prop
  | .idle handle => O.owns thread handle state
  | .busy handle request since program => ∀ later, D.rely thread state later → D.inv later →
      D.Ensures thread
        (fun returned after => O.owns thread returned.1 after ∧
          O.post thread handle request since returned after) program later
  | .dead => True

structure Sound (O : Outline D C) (system : System C) : Prop where
  inv : D.inv system.state
  threads : ∀ thread, O.Holds thread system.state (system.threads thread)

theorem Holds.rely {O : Outline D C} {thread : Tid} {before after : State} {status : Thread C}
    (holds : O.Holds thread before status) (related : D.rely thread before after)
    (valid : D.inv after) : O.Holds thread after status := by
  cases status with
  | idle handle => exact O.owns_rely holds related valid
  | busy handle request since program =>
      intro later further laterValid
      exact holds later (D.rely_trans thread related further) laterValid
  | dead => trivial

theorem Sound.returned {O : Outline D C} {system : System C} {thread : Tid} {handle : C.Handle}
    {request : C.Request} {since : State} {returned : C.Handle × C.Result}
    (sound : O.Sound system)
    (busy : system.threads thread = .busy handle request since (.done returned)) :
    O.post thread handle request since returned system.state := by
  have ensured := sound.threads thread
  rw [busy] at ensured
  exact (ensured system.state (D.rely_refl thread system.state) sound.inv).2

variable [DecidableEq Tid]

/-- Only the stepping thread's own status needs an argument: the guarantee covers
everyone else. -/
theorem Sound.update {O : Outline D C} {system : System C} {thread : Tid} {after : State}
    {status : Thread C} (sound : O.Sound system) (guarantee : D.Guarantee thread system.state after)
    (holds : O.Holds thread after status) :
    O.Sound { state := after, threads := Function.update system.threads thread status } := by
  refine ⟨guarantee.inv, fun other => ?_⟩
  by_cases same : other = thread
  · subst other
    simpa using holds
  · change O.Holds other after (Function.update system.threads thread status other)
    rw [Function.update_of_ne same]
    exact (sound.threads other).rely (guarantee.rely other same) guarantee.inv

theorem Sound.step_guarantee {O : Outline D C} {before after : System C}
    (sound : O.Sound before) (step : Step D C before after) :
    before.state = after.state ∨ ∃ thread, D.Guarantee thread before.state after.state := by
  cases step with
  | start thread request idle accepted =>
      have owned := sound.threads thread
      rw [idle] at owned
      exact .inr ⟨thread, O.begin_guarantee sound.inv owned accepted⟩
  | call thread busy executed =>
      have ensured := sound.threads thread
      rw [busy] at ensured
      exact .inr ⟨thread,
        (ensured before.state (D.rely_refl thread before.state) sound.inv _ _ executed).1⟩
  | finish thread busy => exact .inl rfl
  | kill thread alive => exact .inr ⟨thread, O.crash_guarantee sound.inv⟩

theorem Sound.step {O : Outline D C} {before after : System C}
    (sound : O.Sound before) (step : Step D C before after) : O.Sound after := by
  cases step with
  | start thread request idle accepted =>
      have owned := sound.threads thread
      rw [idle] at owned
      refine sound.update (O.begin_guarantee sound.inv owned accepted) ?_
      intro later related valid
      exact O.ensures sound.inv owned accepted related valid
  | call thread busy executed =>
      have ensured := sound.threads thread
      rw [busy] at ensured
      obtain ⟨guarantee, remaining⟩ :=
        ensured before.state (D.rely_refl thread before.state) sound.inv _ _ executed
      exact sound.update guarantee remaining
  | @finish thread handle request since returned busy =>
      have ensured := sound.threads thread
      rw [busy] at ensured
      refine ⟨sound.inv, fun other => ?_⟩
      change O.Holds other before.state
        (Function.update before.threads thread (.idle returned.1) other)
      by_cases same : other = thread
      · subst other
        rw [Function.update_self]
        exact (ensured before.state (D.rely_refl _ before.state) sound.inv).1
      · rw [Function.update_of_ne same]
        exact sound.threads other
  | kill thread alive => exact sound.update (O.crash_guarantee sound.inv) trivial

theorem Sound.run {O : Outline D C} {initial : System C} (sound : O.Sound initial)
    (run : Run D C initial) (index : Nat) : O.Sound (run.systems index) := by
  induction index with
  | zero => rw [run.first]; exact sound
  | succ index ih =>
      rcases run.next index with same | step
      · rw [same]; exact ih
      · exact ih.step step

/-- A preorder on shared states that every guaranteed step respects relates any
two instants of a run. -/
theorem Sound.along {O : Outline D C} {initial : System C} (sound : O.Sound initial)
    (run : Run D C initial) (related : State → State → Prop)
    (reflexive : ∀ state, related state state)
    (transitive : ∀ {first second third},
      related first second → related second third → related first third)
    (stepwise : ∀ {thread before after}, D.inv before →
      D.Guarantee thread before after → related before after)
    {earlier later : Nat} (ordered : earlier ≤ later) :
    related (run.systems earlier).state (run.systems later).state := by
  induction ordered with
  | refl => exact reflexive _
  | @step later _ ih =>
      refine transitive ih ?_
      rcases run.next later with same | step
      · rw [same]; exact reflexive _
      · have valid := (sound.run run later)
        rcases valid.step_guarantee step with unchanged | ⟨thread, guarantee⟩
        · rw [unchanged]; exact reflexive _
        · exact stepwise valid.inv guarantee

/-- A quantity that grows by at most one in a step takes every value on its way. -/
theorem Sound.reaches {O : Outline D C} {initial : System C} (sound : O.Sound initial)
    (run : Run D C initial) (size : State → Nat)
    (stepwise : ∀ {thread before after}, D.inv before →
      D.Guarantee thread before after → size after ≤ size before + 1)
    {first last amount : Nat} (ordered : first ≤ last)
    (below : size (run.systems first).state ≤ amount)
    (above : amount ≤ size (run.systems last).state) :
    ∃ index, first ≤ index ∧ index ≤ last ∧ size (run.systems index).state = amount := by
  induction ordered with
  | refl => exact ⟨first, Nat.le_refl _, Nat.le_refl _, Nat.le_antisymm below above⟩
  | @step last ordered ih =>
      by_cases reached : amount ≤ size (run.systems last).state
      · obtain ⟨index, lower, upper, equal⟩ := ih reached
        exact ⟨index, lower, Nat.le_succ_of_le upper, equal⟩
      · refine ⟨last + 1, Nat.le_succ_of_le ordered, Nat.le_refl _, Nat.le_antisymm ?_ above⟩
        have grown : size (run.systems (last + 1)).state ≤ size (run.systems last).state + 1 := by
          rcases run.next last with same | step
          · rw [same]
            exact Nat.le_succ _
          have valid := sound.run run last
          rcases valid.step_guarantee step with unchanged | ⟨thread, guarantee⟩
          · rw [← unchanged]
            exact Nat.le_succ _
          · exact stepwise valid.inv guarantee
        omega

end Outline

end PsMsgr.Effect
