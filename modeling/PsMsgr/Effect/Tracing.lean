import PsMsgr.Effect.Threads

namespace PsMsgr.Effect

/-! # Programs traced through a run

Which calls a thread made during a part of a run, and in which states: so that a
property of a run can speak about the single steps of a program.
-/

variable {Call : Type} {Reply : Call → Type} {State Tid α β : Type} [DecidableEq Tid]
  {D : Discipline Call Reply State Tid} {C : Client Call Reply State Tid} {initial : System C}

/-- The thread takes no step from `first` to `last`. -/
def Run.Rests (run : Run D C initial) (thread : Tid) (first last : Nat) : Prop :=
  first ≤ last ∧ ∀ index, first ≤ index → index < last →
    (run.systems (index + 1)).threads thread = (run.systems index).threads thread

/-- The thread makes the calls of the program, the first one in the state at `first`, and
comes to `value`.  Between two calls it rests. -/
inductive Run.Executes (run : Run D C initial) (thread : Tid) :
    Program Call Reply α → Nat → α → Nat → Prop where
  | done (value : α) (index : Nat) : Executes run thread (.done value) index value index
  | call {made : Call} {next : Reply made → Program Call Reply α} {reply : Reply made}
      {index later last : Nat} {value : α}
      (executed : D.exec thread made (run.systems index).state reply
        (run.systems (index + 1)).state)
      (rests : run.Rests thread (index + 1) later)
      (remaining : Executes run thread (next reply) later value last) :
      Executes run thread (.call made next) index value last

section Executes

variable {run : Run D C initial} {thread : Tid} {first last : Nat}

theorem Run.Executes.ordered {program : Program Call Reply α} {value : α}
    (executes : run.Executes thread program first value last) : first ≤ last := by
  induction executes with
  | done value index => exact Nat.le_refl _
  | call executed rests remaining ih => exact Nat.le_trans (Nat.le_of_succ_le rests.1) ih

theorem Run.Executes.of_bind {program : Program Call Reply α} {rest : α → Program Call Reply β}
    {value : β} (executes : run.Executes thread (program >>= rest) first value last) :
    ∃ middle index, run.Executes thread program first middle index ∧
      run.Executes thread (rest middle) index value last := by
  induction program generalizing first with
  | done initial => exact ⟨initial, first, .done initial first, executes⟩
  | call made next ih =>
      rw [Program.call_bind] at executes
      cases executes with
      | call executed rests remaining =>
          obtain ⟨middle, index, part, rest⟩ := ih _ remaining
          exact ⟨middle, index, .call executed rests part, rest⟩

theorem Run.Executes.of_done {result value : α}
    (executes : run.Executes thread (.done result) first value last) :
    value = result ∧ last = first := by
  cases executes with
  | done => exact ⟨rfl, rfl⟩

theorem Run.Executes.of_perform {made : Call} {reply : Reply made}
    (executes : run.Executes thread (Program.perform made) first reply last) :
    D.exec thread made (run.systems first).state reply (run.systems (first + 1)).state ∧
      run.Rests thread (first + 1) last := by
  cases executes with
  | call executed rests remaining =>
      obtain ⟨rfl, rfl⟩ := remaining.of_done
      exact ⟨executed, rests⟩

theorem Run.Executes.always {permitted : Call → Prop} {result : α → Prop}
    {program : Program Call Reply α} {value : α}
    (executes : run.Executes thread program first value last)
    (always : program.Always permitted result) : result value := by
  induction executes with
  | done value index => exact always
  | call executed rests remaining ih => exact ih (always.2 _)

end Executes

theorem Program.next_ne (program : Program Call Reply α) {made : Call}
    {next : Reply made → Program Call Reply α} (same : program = .call made next)
    (reply : Reply made) : next reply ≠ program := by
  induction program with
  | done value => exact nomatch same
  | call other continued ih =>
      cases same
      intro equal
      exact ih reply equal rfl

/-- What a step does to a busy thread: nothing, unless it is its own. -/
theorem Step.of_busy {before after : System C} (step : Step D C before after) {thread : Tid}
    {handle : C.Handle} {request : C.Request} {since : State}
    {program : Program Call Reply (C.Handle × C.Result)}
    (busy : before.threads thread = .busy handle request since program) :
    after.threads thread = .busy handle request since program ∨
      (∃ made next reply, program = .call made next ∧
        D.exec thread made before.state reply after.state ∧
        after.threads thread = .busy handle request since (next reply)) ∨
      (∃ returned, program = .done returned ∧ after.threads thread = .idle returned.1) ∨
      after.threads thread = .dead := by
  cases step with
  | @start other _ _ idle accepted =>
      have distinct : thread ≠ other := by
        rintro rfl
        exact nomatch busy.symm.trans idle
      exact .inl ((Function.update_of_ne distinct _ _).trans busy)
  | @call other _ _ _ _ made next reply running executed =>
      by_cases same : thread = other
      · subst other
        rw [busy, Thread.busy.injEq] at running
        obtain ⟨rfl, rfl, rfl, rfl⟩ := running
        exact .inr (.inl ⟨made, next, reply, rfl, executed, Function.update_self _ _ _⟩)
      · exact .inl ((Function.update_of_ne same _ _).trans busy)
  | @finish other _ _ _ returned running =>
      by_cases same : thread = other
      · subst other
        rw [busy, Thread.busy.injEq] at running
        obtain ⟨rfl, rfl, rfl, rfl⟩ := running
        exact .inr (.inr (.inl ⟨returned, rfl, Function.update_self _ _ _⟩))
      · exact .inl ((Function.update_of_ne same _ _).trans busy)
  | @kill other alive =>
      by_cases same : thread = other
      · subst other
        exact .inr (.inr (.inr (Function.update_self _ _ _)))
      · exact .inl ((Function.update_of_ne same _ _).trans busy)

theorem Run.next_of_busy (run : Run D C initial) {thread : Tid} {handle : C.Handle}
    {request : C.Request} {since : State} {index : Nat}
    {program still : Program Call Reply (C.Handle × C.Result)}
    (busy : (run.systems index).threads thread = .busy handle request since program)
    (running : (run.systems (index + 1)).threads thread = .busy handle request since still) :
    (run.systems (index + 1)).threads thread = .busy handle request since program ∨
      ∃ made next reply, program = .call made next ∧
        D.exec thread made (run.systems index).state reply (run.systems (index + 1)).state ∧
        (run.systems (index + 1)).threads thread = .busy handle request since (next reply) := by
  rcases run.next index with same | step
  · exact .inl (by rw [same]; exact busy)
  rcases step.of_busy busy with same | called | ⟨returned, -, idle⟩ | dead
  · exact .inl same
  · exact .inr called
  · cases idle.symm.trans running
  · cases dead.symm.trans running

/-- What every step of a busy thread preserves holds as long as it is busy. -/
theorem Run.Serves.along {run : Run D C initial} {thread : Tid} {handle : C.Handle}
    {request : C.Request} {first last : Nat}
    (serves : run.Serves thread handle request first last) (holds : Nat → Prop)
    (starts : holds first)
    (continues : ∀ {index still}, first ≤ index →
      (run.systems (index + 1)).threads thread =
        .busy handle request (run.systems first).state still →
      holds index → holds (index + 1)) : holds last := by
  have reached : ∀ index, first ≤ index → index ≤ last → holds index := by
    intro index lower
    induction index, lower using Nat.le_induction with
    | base => exact fun _ => starts
    | succ index lower ih =>
        intro upper
        obtain ⟨still, running⟩ := serves.during (Nat.le_succ_of_le lower) upper
        exact continues lower running (ih (Nat.le_of_succ_le upper))
  exact reached last serves.ordered (Nat.le_refl last)

theorem Run.Rests.refl (run : Run D C initial) (thread : Tid) (index : Nat) :
    run.Rests thread index index :=
  ⟨Nat.le_refl _, fun _ lower upper => absurd lower (Nat.not_le_of_lt upper)⟩

theorem Run.Rests.cons {run : Run D C initial} {thread : Tid} {first last : Nat}
    (same : (run.systems (first + 1)).threads thread = (run.systems first).threads thread)
    (rests : run.Rests thread (first + 1) last) : run.Rests thread first last := by
  refine ⟨Nat.le_of_succ_le rests.1, fun index lower upper => ?_⟩
  rcases Nat.eq_or_lt_of_le lower with rfl | above
  · exact same
  · exact rests.2 index above upper

theorem Run.executes_of_busy (run : Run D C initial) {thread : Tid} {handle : C.Handle}
    {request : C.Request} {since : State} {returned : C.Handle × C.Result} {first distance : Nat}
    (during : ∀ index, first ≤ index → index ≤ first + distance → ∃ program,
      (run.systems index).threads thread = .busy handle request since program)
    (returns : (run.systems (first + distance)).threads thread =
      .busy handle request since (.done returned))
    {program : Program Call Reply (C.Handle × C.Result)}
    (busy : (run.systems first).threads thread = .busy handle request since program) :
    ∃ start finish, run.Rests thread first start ∧ finish ≤ first + distance ∧
      run.Executes thread program start returned finish := by
  induction distance generalizing first program with
  | zero =>
      rw [Nat.add_zero, busy, Thread.busy.injEq] at returns
      obtain ⟨-, -, -, rfl⟩ := returns
      exact ⟨first, first, .refl run thread first, Nat.le_refl _, .done returned first⟩
  | succ distance ih =>
      have shifted : first + (distance + 1) = first + 1 + distance := by omega
      rw [shifted] at during returns ⊢
      have later := @ih (first + 1) (fun index lower => during index (Nat.le_of_succ_le lower))
        returns
      have unmoved (same : (run.systems (first + 1)).threads thread =
          .busy handle request since program) : ∃ start finish, run.Rests thread first start ∧
          finish ≤ first + 1 + distance ∧ run.Executes thread program start returned finish := by
        obtain ⟨start, finish, rests, bounded, executes⟩ := later same
        exact ⟨start, finish, rests.cons (same.trans busy.symm), bounded, executes⟩
      obtain ⟨still, running⟩ := during (first + 1) (Nat.le_succ first) (Nat.le_add_right _ _)
      rcases run.next_of_busy busy running with same | ⟨made, next, reply, rfl, executed, now⟩
      · exact unmoved same
      · obtain ⟨start, finish, rests, bounded, executes⟩ := later now
        exact ⟨first, finish, .refl run thread first, bounded, .call executed rests executes⟩

theorem Run.Called.executes {run : Run D C initial} {thread : Tid} {handle : C.Handle}
    {request : C.Request} {returned : C.Handle × C.Result} {first last : Nat}
    (call : run.Called thread handle request returned first last) :
    ∃ start finish, run.Rests thread first start ∧ finish ≤ last ∧
      run.Executes thread (C.program handle request) start returned finish := by
  obtain ⟨distance, rfl⟩ := Nat.exists_eq_add_of_le call.ordered
  exact run.executes_of_busy (fun _ lower upper => call.during lower upper) call.returns
    call.started

section Sound

variable {O : Outline D C} {thread : Tid} {first last : Nat}

theorem Outline.Sound.step_rely {before after : System C} (sound : O.Sound before)
    (step : Step D C before after) (same : after.threads thread = before.threads thread) :
    D.rely thread before.state after.state := by
  have others {actor : Tid} {state : State} {status : Thread C}
      (guarantee : D.Guarantee actor before.state state)
      (moved : before.threads actor ≠ status)
      (same : Function.update before.threads actor status thread = before.threads thread) :
      D.rely thread before.state state := by
    refine guarantee.rely thread fun own => moved ?_
    rw [own, Function.update_self] at same
    exact same.symm
  have holds := sound.threads
  cases step with
  | start actor request idle accepted =>
      have owned := holds actor
      rw [idle] at owned
      exact others (O.begin_guarantee sound.inv owned accepted) (by rw [idle]; nofun) same
  | call actor busy executed =>
      have ensured := holds actor
      rw [busy] at ensured
      refine others (ensured before.state (D.rely_refl actor before.state) sound.inv _ _ executed).1
        ?_ same
      rw [busy]
      intro equal
      rw [Thread.busy.injEq] at equal
      exact Program.next_ne _ rfl _ equal.2.2.2.symm
  | finish actor busy => exact D.rely_refl thread _
  | kill actor alive => exact others (O.crash_guarantee sound.inv) alive same

theorem Outline.Sound.rests (sound : O.Sound initial) (run : Run D C initial)
    (rests : run.Rests thread first last) :
    D.rely thread (run.systems first).state (run.systems last).state := by
  obtain ⟨ordered, still⟩ := rests
  induction ordered with
  | refl => exact D.rely_refl thread _
  | @step last ordered ih =>
      refine D.rely_trans thread
        (ih fun index lower upper => still index lower (Nat.lt_succ_of_lt upper)) ?_
      have same := still last ordered (Nat.lt_succ_self last)
      rcases run.next last with stutter | step
      · rw [stutter]
        exact D.rely_refl thread _
      · exact (sound.run run last).step_rely step same

/-- What a program ensures holds where an execution of it ends. -/
theorem Outline.Sound.executes (sound : O.Sound initial) {run : Run D C initial}
    {post : α → State → Prop} {program : Program Call Reply α} {value : α}
    (executes : run.Executes thread program first value last)
    (ensured : D.Ensures thread post program (run.systems first).state) :
    post value (run.systems last).state := by
  induction executes with
  | done value index => exact ensured
  | call executed rests remaining ih =>
      exact ih ((ensured _ _ executed).2 _ (sound.rests run rests) (sound.run run _).inv)

theorem Outline.Sound.begun (sound : O.Sound initial) (run : Run D C initial)
    (fresh : ∀ thread, ∃ handle, initial.threads thread = .idle handle) {index : Nat}
    {handle : C.Handle} {request : C.Request} {since : State}
    {program : Program Call Reply (C.Handle × C.Result)}
    (busy : (run.systems index).threads thread = .busy handle request since program) :
    ∃ state, D.inv state ∧ O.owns thread handle state ∧ C.accepts handle request ∧
      since = C.begin thread request state := by
  induction index generalizing program with
  | zero =>
      obtain ⟨idle, here⟩ := fresh thread
      rw [run.first, here] at busy
      exact nomatch busy
  | succ index ih =>
      rcases run.next index with same | step
      · exact ih (by rw [← same]; exact busy)
      rcases step.busy busy with ⟨earlier, running⟩ | ⟨idle, accepted, begun, -, -⟩
      · exact ih running
      · have valid := sound.run run index
        have owned := valid.threads thread
        rw [idle] at owned
        exact ⟨_, valid.inv, owned, accepted, begun⟩

/-- An assertion about a thread that its own steps keep and that the others respect, given what
is known of the shared state. -/
structure Outline.Maintains (O : Outline D C) (known : State → Prop)
    (kept : Tid → Thread C → State → Prop) : Prop where
  rely : ∀ {thread status before after}, known before → known after →
    kept thread status before → D.rely thread before after → kept thread status after
  start : ∀ {thread handle request state}, known state → kept thread (.idle handle) state →
    O.owns thread handle state → C.accepts handle request →
    kept thread (.busy handle request (C.begin thread request state) (C.program handle request))
      (C.begin thread request state)
  call : ∀ {thread handle request since made next reply before after}, known before → known after →
    kept thread (.busy handle request since (.call made next)) before →
    D.exec thread made before reply after → D.Guarantee thread before after →
    kept thread (.busy handle request since (next reply)) after
  finish : ∀ {thread handle request since returned state}, known state →
    kept thread (.busy handle request since (.done returned)) state →
    O.owns thread returned.1 state → kept thread (.idle returned.1) state
  dead : ∀ {thread state}, known state → kept thread .dead (C.crash thread state)

theorem Outline.Sound.maintains_step {known : State → Prop} {kept : Tid → Thread C → State → Prop}
    {before after : System C} (sound : O.Sound before) (maintains : O.Maintains known kept)
    (step : Step D C before after) (earlier : known before.state) (later : known after.state)
    (holds : kept thread (before.threads thread) before.state) :
    kept thread (after.threads thread) after.state := by
  by_cases same : after.threads thread = before.threads thread
  · rw [same]
    exact maintains.rely earlier later holds (sound.step_rely step same)
  -- otherwise the step is the thread's own
  have own {actor : Tid} {status : Thread C}
      (moved : Function.update before.threads actor status thread ≠ before.threads thread) :
      actor = thread := by
    by_contra other
    exact moved (Function.update_of_ne (Ne.symm other) _ _)
  have owned := sound.threads thread
  cases step with
  | start actor request idle accepted =>
      obtain rfl := own same
      rw [idle] at owned holds
      change kept actor (Function.update before.threads actor _ actor) _
      rw [Function.update_self]
      exact maintains.start earlier holds owned accepted
  | call actor busy executed =>
      obtain rfl := own same
      rw [busy] at owned holds
      change kept actor (Function.update before.threads actor _ actor) _
      rw [Function.update_self]
      exact maintains.call earlier later holds executed
        (owned before.state (D.rely_refl _ before.state) sound.inv _ _ executed).1
  | @finish actor _ _ _ returned busy =>
      obtain rfl := own same
      rw [busy] at owned holds
      change kept actor (Function.update before.threads actor _ actor) _
      rw [Function.update_self]
      exact maintains.finish earlier holds
        (owned before.state (D.rely_refl _ before.state) sound.inv).1
  | kill actor alive =>
      obtain rfl := own same
      change kept actor (Function.update before.threads actor _ actor) _
      rw [Function.update_self]
      exact maintains.dead earlier

theorem Outline.Sound.maintains {known : State → Prop} {kept : Tid → Thread C → State → Prop}
    (sound : O.Sound initial) (maintains : O.Maintains known kept)
    (initially : ∀ thread, kept thread (initial.threads thread) initial.state)
    (run : Run D C initial) (always : ∀ index, known (run.systems index).state) (index : Nat)
    (thread : Tid) : kept thread ((run.systems index).threads thread) (run.systems index).state := by
  induction index with
  | zero =>
      rw [run.first]
      exact initially thread
  | succ index ih =>
      rcases run.next index with same | step
      · rw [same]
        exact ih
      · exact (sound.run run index).maintains_step maintains step (always index) (always (index + 1))
          ih

/-- An assertion about a thread that its own steps keep and that the others respect. -/
structure Outline.Keeps (O : Outline D C) (kept : Tid → Thread C → State → Prop) : Prop where
  rely : ∀ {thread status before after}, kept thread status before →
    D.rely thread before after → kept thread status after
  idle : ∀ {thread handle state}, O.owns thread handle state → kept thread (.idle handle) state
  start : ∀ {thread handle request state}, O.owns thread handle state →
    C.accepts handle request →
    kept thread (.busy handle request (C.begin thread request state) (C.program handle request))
      (C.begin thread request state)
  call : ∀ {thread handle request since made next reply before after},
    kept thread (.busy handle request since (.call made next)) before →
    D.exec thread made before reply after →
    kept thread (.busy handle request since (next reply)) after
  dead : ∀ {thread state}, kept thread .dead (C.crash thread state)

omit [DecidableEq Tid] in
theorem Outline.Keeps.maintains {kept : Tid → Thread C → State → Prop} (keeps : O.Keeps kept) :
    O.Maintains (fun _ => True) kept where
  rely := fun _ _ => keeps.rely
  start := fun _ _ => keeps.start
  call := fun _ _ holds executed _ => keeps.call holds executed
  finish := fun _ _ => keeps.idle
  dead := fun _ => keeps.dead

theorem Outline.Sound.keeps {kept : Tid → Thread C → State → Prop} (sound : O.Sound initial)
    (keeps : O.Keeps kept) (initially : ∀ thread, kept thread (initial.threads thread) initial.state)
    (run : Run D C initial) (index : Nat) (thread : Tid) :
    kept thread ((run.systems index).threads thread) (run.systems index).state :=
  sound.maintains keeps.maintains initially run (fun _ => trivial) index thread

end Sound

end PsMsgr.Effect
