import PsMsgr.Effect.Threads

namespace PsMsgr.Effect

variable {Call : Type} {Reply : Call → Type} {State Tid : Type} [DecidableEq Tid]
  {D : Discipline Call Reply State Tid} {C : Client Call Reply State Tid} {initial : System C}

/-- Any number of steps. -/
abbrev Steps (D : Discipline Call Reply State Tid) (C : Client Call Reply State Tid) :
    System C → System C → Prop :=
  Relation.ReflTransGen (Step D C)

/-- The system with the shared state and one thread replaced. -/
def System.set (system : System C) (thread : Tid) (state : State) (status : Thread C) : System C where
  state := state
  threads := Function.update system.threads thread status

section Set

variable {system : System C} {thread other : Tid} {state state' : State} {status status' : Thread C}

@[simp] theorem System.set_state : (system.set thread state status).state = state := rfl

@[simp] theorem System.set_thread : (system.set thread state status).threads thread = status :=
  Function.update_self _ _ _

theorem System.set_other (distinct : other ≠ thread) :
    (system.set thread state status).threads other = system.threads other :=
  Function.update_of_ne distinct _ _

@[simp] theorem System.set_set :
    (system.set thread state status).set thread state' status' =
      system.set thread state' status' := by
  simp only [set, Function.update_idem]

end Set

variable {system : System C} {thread : Tid} {handle : C.Handle} {request : C.Request}
  {since : State} {α : Type}

theorem Steps.part {program rest : Program Call Reply (C.Handle × C.Result)} {after : State}
    (busy : system.threads thread = .busy handle request since program)
    (leads : program.Leads (D.exec thread) system.state rest after) :
    Steps D C system (system.set thread after (.busy handle request since rest)) := by
  obtain ⟨state, same⟩ : ∃ state, state = system.state := ⟨_, rfl⟩
  rw [← same] at leads
  induction leads generalizing system with
  | refl program state =>
      have unchanged : system.set thread state (.busy handle request since program) = system := by
        rw [System.set, ← busy, Function.update_eq_self, same]
      rw [unchanged]
  | @call made next reply _ middle after rest executed remaining ih =>
      rw [same] at executed
      have step : Step D C system _ := Step.call thread busy executed
      have rested : Steps D C (system.set thread middle
          (.busy handle request since (next reply))) _ := ih System.set_thread rfl
      rw [System.set_set] at rested
      exact .head step rested

theorem Steps.start (idle : system.threads thread = .idle handle)
    (accepted : C.accepts handle request) :
    Steps D C system (system.set thread (C.begin thread request system.state)
      (.busy handle request (C.begin thread request system.state) (C.program handle request))) :=
  .single (Step.start thread request idle accepted)

theorem Steps.finish {returned : C.Handle × C.Result}
    (busy : system.threads thread = .busy handle request since (.done returned)) :
    Steps D C system (system.set thread system.state (.idle returned.1)) :=
  .single (Step.finish thread busy)

theorem Steps.kill (alive : system.threads thread ≠ .dead) :
    Steps D C system (system.set thread (C.crash thread system.state) .dead) :=
  .single (Step.kill thread alive)

theorem Steps.return {program : Program Call Reply (C.Handle × C.Result)}
    {returned : C.Handle × C.Result} {after : State}
    (busy : system.threads thread = .busy handle request since program)
    (runs : program.Runs (D.exec thread) system.state returned after) :
    Steps D C system (system.set thread after (.busy handle request since (.done returned))) := by
  have leads := runs.leads Program.done
  rw [Program.bind_done] at leads
  exact Steps.part busy leads

theorem Steps.begun {rest : Program Call Reply (C.Handle × C.Result)} {after : State}
    (idle : system.threads thread = .idle handle) (accepted : C.accepts handle request)
    (leads : (C.program handle request).Leads (D.exec thread) (C.begin thread request system.state)
      rest after) :
    Steps D C system (system.set thread after
      (.busy handle request (C.begin thread request system.state) rest)) := by
  have steps := (Steps.start idle accepted).trans (Steps.part System.set_thread leads)
  rw [System.set_set] at steps
  exact steps

theorem Steps.serve {returned : C.Handle × C.Result} {after : State}
    (idle : system.threads thread = .idle handle) (accepted : C.accepts handle request)
    (runs : (C.program handle request).Runs (D.exec thread) (C.begin thread request system.state)
      returned after) :
    Steps D C system (system.set thread after (.idle returned.1)) := by
  refine (Steps.start idle accepted).trans ?_
  refine (Steps.return System.set_thread runs).trans ?_
  rw [System.set_set]
  refine (Steps.finish System.set_thread).trans ?_
  rw [System.set_set]
  exact .refl

/-- A run that has come to a system may go on from there to any system within reach. -/
theorem Run.extend (run : Run D C initial) {index : Nat} {target : System C}
    (steps : Steps D C (run.systems index) target) :
    ∃ (further : Run D C initial) (later : Nat), index ≤ later ∧
      further.systems later = target ∧
      ∀ earlier ≤ index, further.systems earlier = run.systems earlier := by
  induction steps with
  | refl => exact ⟨run, index, Nat.le_refl _, rfl, fun _ _ => rfl⟩
  | @tail middle target _ step ih =>
      obtain ⟨further, later, ordered, reached, same⟩ := ih
      refine ⟨⟨fun i => if i ≤ later then further.systems i else target, ?_, fun i => ?_⟩,
        later + 1, by omega, if_neg (by omega), fun earlier before => ?_⟩
      · rw [if_pos (Nat.zero_le _)]
        exact further.first
      · by_cases inside : i + 1 ≤ later
        · rw [if_pos inside, if_pos (by omega)]
          exact further.next i
        · rw [if_neg inside]
          by_cases last : i ≤ later
          · obtain rfl : i = later := by omega
            rw [if_pos last, reached]
            exact .inr step
          · rw [if_neg last]
            exact .inl rfl
      · exact (if_pos (Nat.le_trans before ordered)).trans (same earlier before)

/-- The run in which nothing happens. -/
def Run.idle (initial : System C) : Run D C initial where
  systems := fun _ => initial
  first := rfl
  next := fun _ => .inl rfl

/-- The run in which nothing happens after an instant. -/
def Run.cut (run : Run D C initial) (last : Nat) : Run D C initial where
  systems := fun index => run.systems (min index last)
  first := by
    rw [Nat.zero_min]
    exact run.first
  next := by
    intro index
    by_cases inside : index < last
    · rw [Nat.min_eq_left inside, Nat.min_eq_left (Nat.le_of_lt inside)]
      exact run.next index
    · rw [Nat.min_eq_right (by omega), Nat.min_eq_right (by omega)]
      exact .inl rfl

theorem Run.reaching {target : System C} (steps : Steps D C initial target) :
    ∃ (run : Run D C initial) (index : Nat), run.systems index = target := by
  have start : Steps D C ((Run.idle initial : Run D C initial).systems 0) target := steps
  obtain ⟨run, index, -, reached, -⟩ := Run.extend _ start
  exact ⟨run, index, reached⟩

theorem Outline.Sound.steps {O : Outline D C} {target : System C} (sound : O.Sound initial)
    (steps : Steps D C initial target) : O.Sound target := by
  induction steps with
  | refl => exact sound
  | tail _ step ih => exact ih.step step

/-- A run that goes on otherwise has made the same calls before. -/
theorem Run.Called.transport {run further : Run D C initial} {returned : C.Handle × C.Result}
    {first last index : Nat} (call : run.Called thread handle request returned first last)
    (before : last ≤ index)
    (same : ∀ earlier ≤ index, further.systems earlier = run.systems earlier) :
    further.Called thread handle request returned first last := by
  have started := same first (Nat.le_trans call.ordered before)
  refine ⟨⟨call.ordered, call.accepted, ?_, fun {moment} lower upper => ?_⟩, ?_⟩
  · rw [started]
    exact call.started
  · rw [started, same moment (Nat.le_trans upper before)]
    exact call.during lower upper
  · rw [started, same last before]
    exact call.returns

theorem Run.Called.taken {run : Run D C initial} {returned : C.Handle × C.Result} {first last : Nat}
    (call : run.Called thread handle request returned first last)
    {program : Program Call Reply (C.Handle × C.Result)}
    (busy : (run.systems last).threads thread = .busy handle request since program) :
    (run.systems first).state = since := by
  have same := call.returns.symm.trans busy
  rw [Thread.busy.injEq] at same
  exact same.2.2.1

theorem Run.serve (run : Run D C initial)
    (fresh : ∀ thread, ∃ handle, initial.threads thread = .idle handle) {index : Nat}
    {returned : C.Handle × C.Result} {after : State}
    (idle : (run.systems index).threads thread = .idle handle)
    (accepted : C.accepts handle request)
    (runs : (C.program handle request).Runs (D.exec thread)
      (C.begin thread request (run.systems index).state) returned after) :
    ∃ (further : Run D C initial) (first last later : Nat), index < first ∧ last ≤ later ∧
      further.Called thread handle request returned first last ∧
      (further.systems first).state = C.begin thread request (run.systems index).state ∧
      (further.systems last).state = after ∧
      further.systems later = (run.systems index).set thread after (.idle returned.1) ∧
      ∀ earlier ≤ index, further.systems earlier = run.systems earlier := by
  have steps := (Steps.start idle accepted).trans (Steps.return System.set_thread runs)
  rw [System.set_set] at steps
  obtain ⟨middle, last, ordered, reached, same⟩ := run.extend steps
  have done : (middle.systems last).threads thread = .busy handle request
      (C.begin thread request (run.systems index).state) (.done returned) := by
    rw [reached]
    exact System.set_thread
  obtain ⟨first, call⟩ := middle.called fresh done
  have ends : Steps D C (middle.systems last) _ := Steps.finish done
  obtain ⟨further, later, upper, finished, kept⟩ := middle.extend ends
  refine ⟨further, first, last, later, ?_, upper, call.transport (Nat.le_refl _) kept, ?_, ?_, ?_,
    fun earlier before => (kept earlier (Nat.le_trans before ordered)).trans (same earlier before)⟩
  · -- the thread was idle at `index`
    by_contra early
    obtain ⟨program, busy⟩ := call.during (Nat.le_of_not_lt early) ordered
    rw [same index (Nat.le_refl _), idle] at busy
    exact nomatch busy
  · rw [kept first call.ordered]
    exact call.taken done
  · rw [kept last (Nat.le_refl _), reached]
    rfl
  · rw [finished, reached, System.set_set]
    rfl

end PsMsgr.Effect
