import PsMsgr.Effect.Advances

namespace PsMsgr.Effect

variable {Call : Type} {Reply : Call → Type} {State Tid α β : Type}

/-- Whatever is replied, the program makes at most `limit` calls. -/
def Program.Within : Program Call Reply α → Nat → Prop
  | .done _, _ => True
  | .call _ next, limit => 0 < limit ∧ ∀ reply, (next reply).Within (limit - 1)

namespace Program.Within

variable {program : Program Call Reply α} {limit more : Nat}

theorem mono (within : program.Within limit) (enough : limit ≤ more) : program.Within more := by
  induction program generalizing limit more with
  | done value => trivial
  | call request next ih =>
      refine ⟨Nat.lt_of_lt_of_le within.1 enough, fun reply => ih reply (within.2 reply) ?_⟩
      exact Nat.sub_le_sub_right enough 1

theorem bind {rest : α → Program Call Reply β} (within : program.Within limit)
    (remaining : ∀ value, (rest value).Within more) : (program >>= rest).Within (limit + more) := by
  induction program generalizing limit with
  | done value => exact (remaining value).mono (Nat.le_add_left more limit)
  | call request next ih =>
      refine ⟨Nat.lt_of_lt_of_le within.1 (Nat.le_add_right limit more), fun reply => ?_⟩
      have positive := within.1
      refine (ih reply (within.2 reply)).mono ?_
      omega

theorem call {request : Call} {rest : Reply request → Program Call Reply β}
    (remaining : ∀ reply, (rest reply).Within limit) :
    (Program.perform request >>= rest).Within (limit + 1) :=
  ⟨Nat.succ_pos limit, remaining⟩

theorem final {rest : α → Program Call Reply β} (within : program.Within limit)
    (finishes : ∀ value, ∃ result, rest value = .done result) :
    (program >>= rest).Within limit := by
  refine within.bind fun value => (?_ : (rest value).Within 0)
  obtain ⟨result, done⟩ := finishes value
  rw [done]
  trivial

theorem perform (request : Call) : (Program.perform request : Program Call Reply _).Within 1 :=
  ⟨Nat.one_pos, fun _ => trivial⟩

/-- What grows by at most one in a call grows by at most `limit` in a run. -/
theorem grows {exec : (request : Call) → State → Reply request → State → Prop} {before after : State}
    {value : α} (within : program.Within limit) (size : State → Nat)
    (stepwise : ∀ {request before reply after}, exec request before reply after →
      size after ≤ size before + 1)
    (runs : program.Runs exec before value after) : size after ≤ size before + limit := by
  induction program generalizing before limit with
  | done result =>
      rw [runs.2]
      exact Nat.le_add_right _ _
  | call request next ih =>
      obtain ⟨reply, middle, executed, remaining⟩ := runs
      have once := stepwise executed
      have rest := ih reply (within.2 reply) remaining
      have positive := within.1
      omega

theorem returned (within : program.Within 0) : ∃ value, program = .done value := by
  cases program with
  | done value => exact ⟨value, rfl⟩
  | call request next => exact absurd within.1 (Nat.lt_irrefl 0)

end Program.Within

section Runs

variable [DecidableEq Tid] {D : Discipline Call Reply State Tid}
  {C : Client Call Reply State Tid} {initial : System C}

/-- The step at the index is one of the thread. -/
def Run.Moves (run : Run D C initial) (thread : Tid) (index : Nat) : Prop :=
  (run.systems (index + 1)).threads thread ≠ (run.systems index).threads thread

open Classical in
/-- How many steps the thread has taken. -/
noncomputable def Run.steps (run : Run D C initial) (thread : Tid) (index : Nat) : Nat :=
  Nat.count (run.Moves thread) index

theorem Run.steps_succ (run : Run D C initial) (thread : Tid) (index : Nat) :
    run.steps thread (index + 1) ≤ run.steps thread index + 1 ∧
      ((run.systems (index + 1)).threads thread = (run.systems index).threads thread →
        run.steps thread (index + 1) = run.steps thread index) := by
  classical
  unfold Run.steps
  rw [Nat.count_succ]
  refine ⟨?_, fun same => ?_⟩
  · split <;> omega
  · rw [if_neg (fun moves => moves same)]
    rfl

/-- The steps the program has left and those the thread has taken add up to no more than `total`. -/
def Run.Left (run : Run D C initial) (thread : Tid) (handle : C.Handle) (request : C.Request)
    (since : State) (total index : Nat) : Prop :=
  ∃ program left, (run.systems index).threads thread = .busy handle request since program ∧
    program.Within left ∧ run.steps thread index + left ≤ total

theorem Run.Left.next {run : Run D C initial} {thread : Tid} {handle : C.Handle}
    {request : C.Request} {since : State} {total index : Nat}
    (left : run.Left thread handle request since total index)
    {still : Program Call Reply (C.Handle × C.Result)}
    (running : (run.systems (index + 1)).threads thread = .busy handle request since still) :
    run.Left thread handle request since total (index + 1) := by
  obtain ⟨program, left, busy, within, counted⟩ := left
  obtain ⟨once, unmoved⟩ := run.steps_succ thread index
  rcases run.next_of_busy busy running with same | ⟨made, next, reply, rfl, executed, now⟩
  · refine ⟨program, left, same, within, ?_⟩
    rw [unmoved (same.trans busy.symm)]
    exact counted
  · have positive := within.1
    exact ⟨next reply, left - 1, now, within.2 reply, by omega⟩

theorem Run.Serves.left {run : Run D C initial} {thread : Tid} {handle : C.Handle}
    {request : C.Request} {first last limit : Nat}
    (serves : run.Serves thread handle request first last)
    (within : (C.program handle request).Within limit) :
    run.Left thread handle request (run.systems first).state (run.steps thread first + limit)
      last :=
  serves.along (run.Left thread handle request _ _) ⟨_, limit, serves.started, within, Nat.le_refl _⟩
    fun _ running left => left.next running

/-- A request whose program makes at most `limit` calls is served in at most `limit` steps of its
thread, and when that has taken them all its program is done. -/
theorem Run.Serves.bounded {run : Run D C initial} {thread : Tid} {handle : C.Handle}
    {request : C.Request} {first last limit : Nat}
    (serves : run.Serves thread handle request first last)
    (within : (C.program handle request).Within limit) :
    run.steps thread last ≤ run.steps thread first + limit ∧
      (run.steps thread last = run.steps thread first + limit →
        ∃ returned, run.Called thread handle request returned first last) := by
  obtain ⟨program, left, busy, within, counted⟩ := serves.left within
  refine ⟨Nat.le_trans (Nat.le_add_right _ left) counted, fun all => ?_⟩
  obtain rfl : left = 0 := by omega
  obtain ⟨returned, rfl⟩ := within.returned
  exact ⟨returned, serves, busy⟩

end Runs

end PsMsgr.Effect
