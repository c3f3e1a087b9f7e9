import PsMsgr.Effect.Tracing

namespace PsMsgr.Effect

variable {Call : Type} {Reply : Call → Type} {State Tid α β : Type} [DecidableEq Tid]
  {D : Discipline Call Reply State Tid} {C : Client Call Reply State Tid} {initial : System C}

/-- The thread makes calls of the program, the first one in the state at `first`; at `last` the
program `rest` is left to be done. -/
inductive Run.Advances (run : Run D C initial) (thread : Tid) :
    Program Call Reply α → Nat → Program Call Reply α → Nat → Prop where
  | refl (program : Program Call Reply α) (index : Nat) :
      Advances run thread program index program index
  | call {made : Call} {next : Reply made → Program Call Reply α} {reply : Reply made}
      {index later last : Nat} {rest : Program Call Reply α}
      (executed : D.exec thread made (run.systems index).state reply
        (run.systems (index + 1)).state)
      (rests : run.Rests thread (index + 1) later)
      (remaining : Advances run thread (next reply) later rest last) :
      Advances run thread (.call made next) index rest last

namespace Run.Advances

variable {run : Run D C initial} {thread : Tid} {first last : Nat} {program rest : Program Call Reply α}

theorem ordered (advances : run.Advances thread program first rest last) : first ≤ last := by
  induction advances with
  | refl program index => exact Nat.le_refl _
  | call executed rests remaining ih => exact Nat.le_trans (Nat.le_of_succ_le rests.1) ih

theorem always {permitted : Call → Prop} {result : α → Prop}
    (advances : run.Advances thread program first rest last)
    (always : program.Always permitted result) : rest.Always permitted result := by
  induction advances with
  | refl program index => exact always
  | call executed rests remaining ih => exact ih (always.2 _)

/-- A thread in a composed program is about to make a call of its first part, or has done that
and is in the second. -/
theorem of_bind {program : Program Call Reply α} {next : α → Program Call Reply β}
    {rest : Program Call Reply β} (advances : run.Advances thread (program >>= next) first rest last) :
    (∃ made continued, run.Advances thread program first (.call made continued) last ∧
      rest = .call made (fun reply => continued reply >>= next)) ∨
    ∃ value index, run.Executes thread program first value index ∧
      run.Advances thread (next value) index rest last := by
  induction program generalizing first with
  | done value => exact .inr ⟨value, first, .done value first, advances⟩
  | call request continued ih =>
      rw [Program.call_bind] at advances
      cases advances with
      | refl => exact .inl ⟨request, continued, .refl _ _, rfl⟩
      | call executed rests remaining =>
          rcases ih _ remaining with ⟨made, part, advanced, rfl⟩ | ⟨value, index, executes, advanced⟩
          · exact .inl ⟨made, part, .call executed rests advanced, rfl⟩
          · exact .inr ⟨value, index, .call executed rests executes, advanced⟩

/-- Who is about to make a call that the first part never makes has done the first part. -/
theorem past {permitted : Call → Prop} {result : α → Prop} {program : Program Call Reply α}
    {next : α → Program Call Reply β} {made : Call} {continued : Reply made → Program Call Reply β}
    (advances : run.Advances thread (program >>= next) first (.call made continued) last)
    (always : program.Always permitted result) (never : ¬permitted made) :
    ∃ value index, result value ∧ run.Executes thread program first value index ∧
      run.Advances thread (next value) index (.call made continued) last := by
  rcases advances.of_bind with ⟨other, part, advanced, same⟩ | ⟨value, index, executes, advanced⟩
  · cases same
    exact absurd (advanced.always always).1 never
  · exact ⟨value, index, executes.always always, executes, advanced⟩

theorem of_done {value : α} (advances : run.Advances thread (.done value) first rest last) :
    rest = .done value ∧ last = first := by
  cases advances with
  | refl => exact ⟨rfl, rfl⟩

theorem past_perform {request made : Call} {next : Reply request → Program Call Reply α}
    {continued : Reply made → Program Call Reply α}
    (advances : run.Advances thread (Program.perform request >>= next) first (.call made continued)
      last) (other : request ≠ made) :
    ∃ reply index, run.Executes thread (Program.perform request) first reply index ∧
      run.Advances thread (next reply) index (.call made continued) last := by
  have always : (Program.perform request).Always (· ≠ made) (fun _ : Reply request => True) :=
    Program.Always.perform other
  obtain ⟨reply, index, -, executes, advanced⟩ := advances.past always (not_not.mpr rfl)
  exact ⟨reply, index, executes, advanced⟩

/-- Who is about to make a call that nothing after the first one makes, is about to make that. -/
theorem at_perform {permitted : Call → Prop} {result : α → Prop} {request made : Call}
    {next : Reply request → Program Call Reply α} {continued : Reply made → Program Call Reply α}
    (advances : run.Advances thread (Program.perform request >>= next) first (.call made continued)
      last) (always : ∀ reply, (next reply).Always permitted result) (never : ¬permitted made) :
    made = request ∧ last = first := by
  rcases advances.of_bind with ⟨other, part, advanced, same⟩ | ⟨reply, index, executes, advanced⟩
  · cases same
    cases advanced with
    | refl => exact ⟨rfl, rfl⟩
    | call executed rests remaining => exact nomatch remaining.of_done.1
  · exact absurd (advanced.always (always reply)).1 never

theorem of_final {program : Program Call Reply α} {next : α → Program Call Reply β} {made : Call}
    {continued : Reply made → Program Call Reply β}
    (advances : run.Advances thread (program >>= next) first (.call made continued) last)
    (finishes : ∀ value, ∃ result, next value = .done result) :
    ∃ part, run.Advances thread program first (.call made part) last := by
  rcases advances.of_bind with ⟨other, part, advanced, same⟩ | ⟨value, index, executes, advanced⟩
  · cases same
    exact ⟨part, advanced⟩
  · obtain ⟨result, done⟩ := finishes value
    rw [done] at advanced
    exact nomatch advanced.of_done.1

end Run.Advances

theorem Run.advances_of_busy (run : Run D C initial) {thread : Tid} {handle : C.Handle}
    {request : C.Request} {since : State} {first distance : Nat}
    {rest : Program Call Reply (C.Handle × C.Result)}
    (during : ∀ index, first ≤ index → index ≤ first + distance → ∃ program,
      (run.systems index).threads thread = .busy handle request since program)
    (left : (run.systems (first + distance)).threads thread = .busy handle request since rest)
    {program : Program Call Reply (C.Handle × C.Result)}
    (busy : (run.systems first).threads thread = .busy handle request since program) :
    ∃ start finish, run.Rests thread first start ∧ run.Rests thread finish (first + distance) ∧
      run.Advances thread program start rest finish := by
  induction distance generalizing first program with
  | zero =>
      rw [Nat.add_zero, busy, Thread.busy.injEq] at left
      obtain ⟨-, -, -, rfl⟩ := left
      exact ⟨first, first, .refl run thread first, .refl run thread first, .refl program first⟩
  | succ distance ih =>
      have shifted : first + (distance + 1) = first + 1 + distance := by omega
      rw [shifted] at during left ⊢
      have later := @ih (first + 1) (fun index lower => during index (Nat.le_of_succ_le lower)) left
      have unmoved (same : (run.systems (first + 1)).threads thread =
          .busy handle request since program) : ∃ start finish, run.Rests thread first start ∧
          run.Rests thread finish (first + 1 + distance) ∧
          run.Advances thread program start rest finish := by
        obtain ⟨start, finish, before, after, advances⟩ := later same
        exact ⟨start, finish, before.cons (same.trans busy.symm), after, advances⟩
      obtain ⟨still, running⟩ := during (first + 1) (Nat.le_succ first) (Nat.le_add_right _ _)
      rcases run.next_of_busy busy running with same | ⟨made, next, reply, rfl, executed, now⟩
      · exact unmoved same
      · obtain ⟨start, finish, before, after, advances⟩ := later now
        exact ⟨first, finish, .refl run thread first, after, .call executed before advances⟩

theorem Run.Serves.advances {run : Run D C initial} {thread : Tid} {handle : C.Handle}
    {request : C.Request} {first last : Nat} (serves : run.Serves thread handle request first last)
    {rest : Program Call Reply (C.Handle × C.Result)}
    (left : (run.systems last).threads thread =
      .busy handle request (run.systems first).state rest) :
    ∃ start finish, run.Rests thread first start ∧ run.Rests thread finish last ∧
      run.Advances thread (C.program handle request) start rest finish := by
  obtain ⟨distance, rfl⟩ := Nat.exists_eq_add_of_le serves.ordered
  exact run.advances_of_busy (fun _ lower upper => serves.during lower upper) left serves.started

/-- What the step at an index does to the state, and who does it. -/
inductive Run.Acts (run : Run D C initial) (index : Nat) : Prop where
  | rests (same : (run.systems (index + 1)).state = (run.systems index).state)
  | starts (thread : Tid) (request : C.Request)
      (started : (run.systems (index + 1)).state = C.begin thread request (run.systems index).state)
  | calls {thread : Tid} {handle : C.Handle} {request : C.Request} {first : Nat} {made : Call}
      {next : Reply made → Program Call Reply (C.Handle × C.Result)} {reply : Reply made}
      (serves : run.Serves thread handle request first index)
      (left : (run.systems index).threads thread =
        .busy handle request (run.systems first).state (.call made next))
      (executed : D.exec thread made (run.systems index).state reply
        (run.systems (index + 1)).state)
  | dies (thread : Tid)
      (crashed : (run.systems (index + 1)).state = C.crash thread (run.systems index).state)

theorem Run.acts (run : Run D C initial)
    (fresh : ∀ thread, ∃ handle, initial.threads thread = .idle handle) (index : Nat) :
    run.Acts index := by
  rcases run.next index with same | step
  · exact .rests (congrArg System.state same)
  generalize now : run.systems index = before, later : run.systems (index + 1) = after at step
  cases step with
  | start thread request idle accepted =>
      refine .starts thread request ?_
      rw [now, later]
  | @call thread handle request since after made next reply busy executed =>
      rw [← now] at busy executed
      obtain ⟨first, serves, rfl⟩ := run.serves fresh busy
      have resulting : (run.systems (index + 1)).state = after := congrArg System.state later
      rw [← resulting] at executed
      exact .calls serves busy executed
  | finish thread busy =>
      refine .rests ?_
      rw [now, later]
  | kill thread alive =>
      refine .dies thread ?_
      rw [now, later]

/-- What a step does to one of the threads. -/
inductive Thread.Goes : Thread C → Thread C → Prop where
  | stays (status : Thread C) : Goes status status
  | starts {handle : C.Handle} {request : C.Request} (since : State)
      (accepted : C.accepts handle request) :
      Goes (.idle handle) (.busy handle request since (C.program handle request))
  | calls {handle : C.Handle} {request : C.Request} {since : State} {made : Call}
      {next : Reply made → Program Call Reply (C.Handle × C.Result)} (reply : Reply made) :
      Goes (.busy handle request since (.call made next)) (.busy handle request since (next reply))
  | finishes {handle : C.Handle} {request : C.Request} {since : State}
      (returned : C.Handle × C.Result) :
      Goes (.busy handle request since (.done returned)) (.idle returned.1)
  | dies (status : Thread C) : Goes status .dead

theorem Run.goes (run : Run D C initial) (index : Nat) (thread : Tid) :
    ((run.systems index).threads thread).Goes ((run.systems (index + 1)).threads thread) := by
  rcases run.next index with same | step
  · rw [same]
    exact .stays _
  generalize run.systems index = before, run.systems (index + 1) = after at step ⊢
  -- a step changes the actor's status and no other
  have acted {actor : Tid} {status : Thread C} (goes : (before.threads actor).Goes status) :
      (before.threads thread).Goes (Function.update before.threads actor status thread) := by
    by_cases own : thread = actor
    · rw [own, Function.update_self]
      exact goes
    · rw [Function.update_of_ne own]
      exact .stays _
  cases step with
  | start actor request idle accepted =>
      refine acted ?_
      rw [idle]
      exact .starts _ accepted
  | call actor busy executed =>
      refine acted ?_
      rw [busy]
      exact .calls _
  | finish actor busy =>
      refine acted ?_
      rw [busy]
      exact .finishes _
  | kill actor alive => exact acted (.dies _)

theorem Run.follows (run : Run D C initial) {thread : Tid} (kept : Thread C → Prop)
    (steps : ∀ {before after}, Thread.Goes before after → kept before → kept after)
    {first last : Nat} (ordered : first ≤ last) (holds : kept ((run.systems first).threads thread)) :
    kept ((run.systems last).threads thread) := by
  induction ordered with
  | refl => exact holds
  | step ordered ih => exact steps (run.goes _ thread) ih

end PsMsgr.Effect
