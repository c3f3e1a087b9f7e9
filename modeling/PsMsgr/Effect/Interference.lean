import PsMsgr.Effect.Program

namespace PsMsgr.Effect

/-! # Programs among interfering threads

Between two calls of one thread the others may change the shared state, but only
as that thread's `rely` allows.  In return every call of the thread keeps the
invariant, respects `step`, and looks to each other thread like an allowed change.
-/

structure Discipline (Call : Type) (Reply : Call → Type) (State Tid : Type) where
  exec : Tid → (request : Call) → State → Reply request → State → Prop
  inv : State → Prop
  rely : Tid → State → State → Prop
  step : Tid → State → State → Prop
  rely_refl : ∀ thread state, rely thread state state
  rely_trans : ∀ thread {first second third},
    rely thread first second → rely thread second third → rely thread first third

namespace Discipline

variable {Call : Type} {Reply : Call → Type} {State Tid α β : Type}

/-- What every step of `thread` owes to the others. -/
structure Guarantee (D : Discipline Call Reply State Tid) (thread : Tid)
    (before after : State) : Prop where
  inv : D.inv after
  step : D.step thread before after
  rely : ∀ other, other ≠ thread → D.rely other before after

/-- From `state`, the program guarantees its steps and ends in `post`, whatever
the other threads do between its calls. -/
def Ensures (D : Discipline Call Reply State Tid) (thread : Tid) (post : α → State → Prop) :
    Program Call Reply α → State → Prop
  | .done value, state => post value state
  | .call request next, state =>
      ∀ reply after, D.exec thread request state reply after →
        D.Guarantee thread state after ∧
        ∀ later, D.rely thread after later → D.inv later →
          D.Ensures thread post (next reply) later

variable {D : Discipline Call Reply State Tid} {thread : Tid}

@[simp] theorem ensures_done {post : α → State → Prop} {value : α} {state : State} :
    D.Ensures thread post (.done value) state ↔ post value state := Iff.rfl

@[simp] theorem ensures_pure {post : α → State → Prop} {value : α} {state : State} :
    D.Ensures thread post (pure value) state ↔ post value state := Iff.rfl

theorem ensures_bind {post : β → State → Prop} {program : Program Call Reply α}
    {rest : α → Program Call Reply β} {state : State} :
    D.Ensures thread post (program >>= rest) state ↔
      D.Ensures thread (fun value => D.Ensures thread post (rest value)) program state := by
  induction program generalizing state with
  | done value => exact Iff.rfl
  | call request next ih =>
      constructor
      · intro ensured reply after executed
        obtain ⟨guarantee, remaining⟩ := ensured reply after executed
        exact ⟨guarantee, fun later related valid => (ih reply).mp (remaining later related valid)⟩
      · intro ensured reply after executed
        obtain ⟨guarantee, remaining⟩ := ensured reply after executed
        exact ⟨guarantee, fun later related valid => (ih reply).mpr (remaining later related valid)⟩

theorem Ensures.mono {strong weak : α → State → Prop} {program : Program Call Reply α}
    {state : State} (ensured : D.Ensures thread strong program state)
    (implies : ∀ value state, strong value state → weak value state) :
    D.Ensures thread weak program state := by
  induction program generalizing state with
  | done value => exact implies value state ensured
  | call request next ih =>
      intro reply after executed
      obtain ⟨guarantee, remaining⟩ := ensured reply after executed
      exact ⟨guarantee, fun later related valid => ih reply (remaining later related valid)⟩

/-- The sequencing rule in the form proofs use it: run the first part, then
continue from whatever its postcondition leaves. -/
theorem Ensures.then {middle : α → State → Prop} {post : β → State → Prop}
    {program : Program Call Reply α} {rest : α → Program Call Reply β} {state : State}
    (first : D.Ensures thread middle program state)
    (second : ∀ value state, middle value state → D.Ensures thread post (rest value) state) :
    D.Ensures thread post (program >>= rest) state :=
  ensures_bind.mpr (first.mono second)

/-- A program run on its own is a program nobody interferes with. -/
theorem Ensures.runs {post : α → State → Prop} {program : Program Call Reply α}
    {before after : State} {value : α}
    (ensured : D.Ensures thread post program before)
    (run : program.Runs (D.exec thread) before value after) : post value after := by
  induction program generalizing before with
  | done result =>
      obtain ⟨rfl, rfl⟩ := run
      exact ensured
  | call request next ih =>
      obtain ⟨reply, middle, executed, remaining⟩ := run
      obtain ⟨guarantee, continued⟩ := ensured reply middle executed
      exact ih reply (continued middle (D.rely_refl thread middle) guarantee.inv) remaining

theorem Ensures.frame {permitted : Call → Prop} {result : α → Prop} {post : α → State → Prop}
    {frame : State → Prop} {program : Program Call Reply α} {state : State}
    (ensured : D.Ensures thread post program state) (always : program.Always permitted result)
    (stable : ∀ before after, frame before → D.rely thread before after → D.inv after → frame after)
    (kept : ∀ {request before reply after}, permitted request →
      D.exec thread request before reply after → frame before → frame after)
    (framed : frame state) :
    D.Ensures thread (fun value after => post value after ∧ frame after) program state := by
  induction program generalizing state with
  | done value => exact ⟨ensured, framed⟩
  | call request next ih =>
      intro reply after executed
      obtain ⟨guarantee, remaining⟩ := ensured reply after executed
      refine ⟨guarantee, fun later related valid => ?_⟩
      exact ih reply (remaining later related valid) (always.2 reply)
        (stable after later (kept always.1 executed framed) related valid)

/-- Whatever the other threads do, an assertion that holds keeps holding. -/
def Stable (D : Discipline Call Reply State Tid) (thread : Tid) (assertion : State → Prop) : Prop :=
  ∀ before after, assertion before → D.rely thread before after → D.inv after → assertion after

/-- From every valid state that satisfies `pre` the program ensures `post`. -/
def Triple (D : Discipline Call Reply State Tid) (thread : Tid) (pre : State → Prop)
    (program : Program Call Reply α) (post : α → State → Prop) : Prop :=
  ∀ state, D.inv state → pre state →
    D.Ensures thread (fun value after => D.inv after ∧ post value after) program state

namespace Triple

variable {pre pre' : State → Prop} {post post' : α → State → Prop}
  {program : Program Call Reply α}

theorem done {value : α} (implies : ∀ {state}, D.inv state → pre state → post value state) :
    D.Triple thread pre (.done value) post :=
  fun _ valid holds => ⟨valid, implies valid holds⟩

/-- The rule for one call: it keeps the guarantee and establishes a stable postcondition. -/
theorem call {request : Call} {post : Reply request → State → Prop}
    (stable : ∀ reply, D.Stable thread (post reply))
    (executes : ∀ {state reply after}, D.inv state → pre state →
      D.exec thread request state reply after →
      D.Guarantee thread state after ∧ post reply after) :
    D.Triple thread pre (Program.perform request) post := by
  intro state valid holds reply after executed
  obtain ⟨guarantee, established⟩ := executes valid holds executed
  exact ⟨guarantee, fun later related laterValid =>
    ⟨laterValid, stable reply after later established related laterValid⟩⟩

theorem bind {middle : α → State → Prop} {post : β → State → Prop}
    {rest : α → Program Call Reply β}
    (first : D.Triple thread pre program middle)
    (second : ∀ value, D.Triple thread (middle value) (rest value) post) :
    D.Triple thread pre (program >>= rest) post :=
  fun state valid holds => (first state valid holds).then
    (fun value after reached => second value after reached.1 reached.2)

theorem weaken (triple : D.Triple thread pre program post)
    (implies : ∀ {value state}, D.inv state → post value state → post' value state) :
    D.Triple thread pre program post' :=
  fun state valid holds => (triple state valid holds).mono
    (fun _ _ reached => ⟨reached.1, implies reached.1 reached.2⟩)

theorem strengthen (triple : D.Triple thread pre program post)
    (implies : ∀ {state}, D.inv state → pre' state → pre state) :
    D.Triple thread pre' program post :=
  fun state valid holds => triple state valid (implies valid holds)

theorem frame {permitted : Call → Prop} {result : α → Prop} {frame : State → Prop}
    (triple : D.Triple thread pre program post) (always : program.Always permitted result)
    (stable : D.Stable thread frame)
    (kept : ∀ {request before reply after}, permitted request →
      D.exec thread request before reply after → frame before → frame after) :
    D.Triple thread (fun state => pre state ∧ frame state) program
      (fun value state => post value state ∧ frame state) :=
  fun state valid holds => ((triple state valid holds.1).frame always stable kept holds.2).mono
    (fun _ _ reached => ⟨reached.1.1, reached.1.2, reached.2⟩)

end Triple

end Discipline

end PsMsgr.Effect
