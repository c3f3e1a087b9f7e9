import PsMsgr.Effect.Tracing

namespace PsMsgr.Effect

variable {Call : Type} {Reply : Call → Type} {State Tid α : Type} [DecidableEq Tid]
  {D : Discipline Call Reply State Tid} {C : Client Call Reply State Tid} {initial : System C}
  {permitted : Call → Prop} {replied : (request : Call) → Reply request → Prop}

theorem Program.Confined.mono {weak strong : α → Prop} {program : Program Call Reply α}
    (confined : program.Confined permitted replied strong)
    (implies : ∀ value, strong value → weak value) : program.Confined permitted replied weak := by
  induction program with
  | done value => exact implies value confined
  | call request next ih => exact ⟨confined.1, fun reply holds => ih reply (confined.2 reply holds)⟩

/-- At the index the thread makes a call and gets this reply. -/
structure Run.Makes (run : Run D C initial) (thread : Tid) (index : Nat) (made : Call)
    (reply : Reply made) : Prop where
  busy : ∃ handle request since next,
    (run.systems index).threads thread = .busy handle request since (.call made next) ∧
    (run.systems (index + 1)).threads thread = .busy handle request since (next reply)
  executed : D.exec thread made (run.systems index).state reply (run.systems (index + 1)).state

/-- Between the indices the thread gets a reply of another kind. -/
def Run.Denied (run : Run D C initial) (thread : Tid)
    (replied : (request : Call) → Reply request → Prop) (first last : Nat) : Prop :=
  ∃ index made reply, first ≤ index ∧ index < last ∧ run.Makes thread index made reply ∧
    ¬replied made reply

theorem Run.Denied.later {run : Run D C initial} {thread : Tid} {first last : Nat}
    (denied : run.Denied thread replied first last) :
    run.Denied thread replied first (last + 1) := by
  obtain ⟨index, made, reply, lower, upper, makes, other⟩ := denied
  exact ⟨index, made, reply, lower, Nat.lt_succ_of_lt upper, makes, other⟩

/-- Since `first` the thread got a reply of another kind, or what is left of its program still
promises the result. -/
def Run.Promised (run : Run D C initial) (thread : Tid) (handle : C.Handle) (request : C.Request)
    (permitted : Call → Prop) (replied : (request : Call) → Reply request → Prop)
    (result : C.Handle × C.Result → Prop) (first index : Nat) : Prop :=
  run.Denied thread replied first index ∨ ∃ program,
    (run.systems index).threads thread =
      .busy handle request (run.systems first).state program ∧
    program.Confined permitted replied result

section

variable {run : Run D C initial} {thread : Tid} {handle : C.Handle} {request : C.Request}
  {result : C.Handle × C.Result → Prop}

theorem Run.Promised.next {first index : Nat} {still : Program Call Reply (C.Handle × C.Result)}
    (promised : run.Promised thread handle request permitted replied result first index)
    (lower : first ≤ index)
    (running : (run.systems (index + 1)).threads thread =
      .busy handle request (run.systems first).state still) :
    run.Promised thread handle request permitted replied result first (index + 1) := by
  rcases promised with denied | ⟨program, busy, confined⟩
  · exact .inl denied.later
  rcases run.next_of_busy busy running with same | ⟨made, next, reply, rfl, executed, now⟩
  · exact .inr ⟨program, same, confined⟩
  by_cases holds : replied made reply
  · exact .inr ⟨next reply, now, confined.2 reply holds⟩
  · exact .inl ⟨index, made, reply, lower, Nat.lt_succ_self index,
      ⟨⟨handle, request, _, next, busy, now⟩, executed⟩, holds⟩

theorem Run.Called.confined {returned : C.Handle × C.Result} {first last : Nat}
    (called : run.Called thread handle request returned first last)
    (confined : (C.program handle request).Confined permitted replied result) :
    result returned ∨ run.Denied thread replied first last := by
  have promised : run.Promised thread handle request permitted replied result first last :=
    called.toServes.along (run.Promised thread handle request permitted replied result first)
      (.inr ⟨_, called.started, confined⟩) fun lower running promised => promised.next lower running
  rcases promised with denied | ⟨program, busy, confined⟩
  · exact .inr denied
  · cases busy.symm.trans called.returns
    exact .inl confined

end

end PsMsgr.Effect
