import Mathlib

namespace PsMsgr.Effect

/-! # Programs over an effect signature

A program either is done or makes a call and continues with the reply.  What a
call means is not part of the program: the same program is run alone, run among
interfering threads, or confronted with replies chosen by an adversary.
-/

inductive Program (Call : Type) (Reply : Call → Type) (α : Type) where
  | done (value : α)
  | call (request : Call) (next : Reply request → Program Call Reply α)

namespace Program

variable {Call : Type} {Reply : Call → Type} {α β γ : Type}

def bind : Program Call Reply α → (α → Program Call Reply β) → Program Call Reply β
  | .done value, rest => rest value
  | .call request next, rest => .call request (fun reply => (next reply).bind rest)

instance : Monad (Program Call Reply) where
  pure := .done
  bind := .bind

/-- Make one call and return its reply. -/
def perform (request : Call) : Program Call Reply (Reply request) :=
  .call request .done

@[simp] theorem pure_eq_done (value : α) :
    (pure value : Program Call Reply α) = .done value := rfl

@[simp] theorem done_bind (value : α) (rest : α → Program Call Reply β) :
    (Program.done value >>= rest) = rest value := rfl

@[simp] theorem call_bind (request : Call) (next : Reply request → Program Call Reply α)
    (rest : α → Program Call Reply β) :
    (Program.call request next >>= rest) = .call request (fun reply => next reply >>= rest) := rfl

theorem bind_done (program : Program Call Reply α) : program >>= Program.done = program := by
  induction program with
  | done value => rfl
  | call request next ih =>
      rw [call_bind]
      exact congrArg (Program.call request) (funext ih)

theorem bind_assoc (program : Program Call Reply α) (first : α → Program Call Reply β)
    (second : β → Program Call Reply γ) :
    (program >>= first) >>= second = program >>= (fun value => first value >>= second) := by
  induction program with
  | done value => rfl
  | call request next ih =>
      simp only [call_bind]
      exact congrArg (Program.call request) (funext ih)

/-- Whatever is replied to each call, every call made satisfies `permitted` and
every result satisfies `result`. -/
def Always (permitted : Call → Prop) (result : α → Prop) : Program Call Reply α → Prop
  | .done value => result value
  | .call request next => permitted request ∧ ∀ reply, (next reply).Always permitted result

theorem Always.bind {permitted : Call → Prop} {middle : α → Prop} {result : β → Prop}
    {program : Program Call Reply α} {rest : α → Program Call Reply β}
    (first : program.Always permitted middle)
    (second : ∀ value, middle value → (rest value).Always permitted result) :
    (program >>= rest).Always permitted result := by
  induction program with
  | done value => exact second value first
  | call request next ih => exact ⟨first.1, fun reply => ih reply (first.2 reply)⟩

theorem Always.mono {permitted : Call → Prop} {weak strong : α → Prop}
    {program : Program Call Reply α} (always : program.Always permitted strong)
    (implies : ∀ value, strong value → weak value) : program.Always permitted weak := by
  induction program with
  | done value => exact implies value always
  | call request next ih => exact ⟨always.1, fun reply => ih reply (always.2 reply)⟩

theorem Always.permit {permitted allowed : Call → Prop} {result : α → Prop}
    {program : Program Call Reply α} (always : program.Always permitted result)
    (implies : ∀ {request}, permitted request → allowed request) :
    program.Always allowed result := by
  induction program with
  | done value => exact always
  | call request next ih => exact ⟨implies always.1, fun reply => ih reply (always.2 reply)⟩

theorem Always.perform {permitted : Call → Prop} {request : Call}
    (allowed : permitted request) :
    (Program.perform request : Program Call Reply _).Always permitted (fun _ => True) :=
  ⟨allowed, fun _ => trivial⟩

theorem Always.intro (program : Program Call Reply α) :
    program.Always (fun _ => True) (fun _ => True) := by
  induction program with
  | done value => trivial
  | call request next ih => exact ⟨trivial, ih⟩

/-- One execution of a program on its own: the replies are those `exec` admits,
and nothing happens between two calls. -/
def Runs {State : Type} (exec : (request : Call) → State → Reply request → State → Prop) :
    Program Call Reply α → State → α → State → Prop
  | .done value, before, result, after => result = value ∧ after = before
  | .call request next, before, result, after =>
      ∃ reply middle, exec request before reply middle ∧
        (next reply).Runs exec middle result after

theorem Runs.bind {State : Type} {exec : (request : Call) → State → Reply request → State → Prop}
    {program : Program Call Reply α} {rest : α → Program Call Reply β}
    {before middle after : State} {value : α} {result : β}
    (first : program.Runs exec before value middle)
    (second : (rest value).Runs exec middle result after) :
    (program >>= rest).Runs exec before result after := by
  induction program generalizing before with
  | done initial =>
      obtain ⟨rfl, rfl⟩ := first
      exact second
  | call request next ih =>
      obtain ⟨reply, between, executed, remaining⟩ := first
      exact ⟨reply, between, executed, ih reply remaining⟩

theorem Runs.mono {State : Type} {exec wide : (request : Call) → State → Reply request → State → Prop}
    {program : Program Call Reply α} {before after : State} {value : α}
    (runs : program.Runs exec before value after)
    (wider : ∀ {request before reply after}, exec request before reply after →
      wide request before reply after) : program.Runs wide before value after := by
  induction program generalizing before with
  | done result => exact runs
  | call request next ih =>
      obtain ⟨reply, middle, executed, remaining⟩ := runs
      exact ⟨reply, middle, wider executed, ih reply remaining⟩

theorem Always.preserves {State : Type}
    {exec : (request : Call) → State → Reply request → State → Prop} {permitted : Call → Prop}
    {result : α → Prop} {kept : State → Prop} {program : Program Call Reply α}
    {before after : State} {value : α} (always : program.Always permitted result)
    (preserved : ∀ {request before reply after}, permitted request →
      exec request before reply after → kept before → kept after)
    (runs : program.Runs exec before value after) (held : kept before) : kept after := by
  induction program generalizing before with
  | done returned =>
      rw [runs.2]
      exact held
  | call request next ih =>
      obtain ⟨reply, middle, executed, remaining⟩ := runs
      exact ih reply (always.2 reply) remaining (preserved always.1 executed held)

/-- A program whose calls can always be answered in a way that keeps a property has a run that
keeps it. -/
theorem Always.occurs {State : Type}
    {exec : (request : Call) → State → Reply request → State → Prop} {permitted : Call → Prop}
    {result : α → Prop} {kept : State → Prop} {program : Program Call Reply α} {before : State}
    (always : program.Always permitted result)
    (answered : ∀ {request before}, permitted request → kept before →
      ∃ reply after, exec request before reply after ∧ kept after)
    (held : kept before) : ∃ value after, program.Runs exec before value after ∧ kept after := by
  induction program generalizing before with
  | done value => exact ⟨value, before, ⟨rfl, rfl⟩, held⟩
  | call request next ih =>
      obtain ⟨reply, middle, executed, held⟩ := answered always.1 held
      obtain ⟨value, after, runs, kept⟩ := ih reply (always.2 reply) held
      exact ⟨value, after, ⟨reply, middle, executed, runs⟩, kept⟩

/-- The program may come to where `rest` is left of it. -/
inductive Leads {State : Type} (exec : (request : Call) → State → Reply request → State → Prop) :
    Program Call Reply α → State → Program Call Reply α → State → Prop where
  | refl (program : Program Call Reply α) (state : State) : Leads exec program state program state
  | call {request : Call} {next : Reply request → Program Call Reply α} {reply : Reply request}
      {before middle after : State} {rest : Program Call Reply α}
      (executed : exec request before reply middle)
      (remaining : Leads exec (next reply) middle rest after) :
      Leads exec (.call request next) before rest after

section Leads

variable {State : Type} {exec : (request : Call) → State → Reply request → State → Prop}
  {before middle after : State}

theorem Leads.trans {program between rest : Program Call Reply α}
    (first : program.Leads exec before between middle)
    (second : between.Leads exec middle rest after) : program.Leads exec before rest after := by
  induction first with
  | refl program state => exact second
  | call executed remaining ih => exact .call executed (ih second)

theorem Leads.mono {wide : (request : Call) → State → Reply request → State → Prop}
    {program rest : Program Call Reply α} (leads : program.Leads exec before rest after)
    (wider : ∀ {request before reply after}, exec request before reply after →
      wide request before reply after) : program.Leads wide before rest after := by
  induction leads with
  | refl program state => exact .refl _ _
  | call executed remaining ih => exact .call (wider executed) ih

theorem Leads.runs {program rest : Program Call Reply α} {value : α}
    (leads : program.Leads exec before rest middle) (runs : rest.Runs exec middle value after) :
    program.Runs exec before value after := by
  induction leads with
  | refl program state => exact runs
  | call executed remaining ih => exact ⟨_, _, executed, ih runs⟩

theorem Leads.bind {program rest : Program Call Reply α} (leads : program.Leads exec before rest after)
    (next : α → Program Call Reply β) : (program >>= next).Leads exec before (rest >>= next) after := by
  induction leads with
  | refl program state => exact .refl _ _
  | call executed remaining ih => exact .call executed ih

theorem Runs.leads {program : Program Call Reply α} {value : α}
    (runs : program.Runs exec before value after) (next : α → Program Call Reply β) :
    (program >>= next).Leads exec before (next value) after := by
  induction program generalizing before with
  | done result =>
      obtain ⟨rfl, rfl⟩ := runs
      exact .refl _ _
  | call request continued ih =>
      obtain ⟨reply, middle, executed, remaining⟩ := runs
      exact .call executed (ih reply remaining)

end Leads

/-- As long as the replies satisfy `replied`, every call made satisfies `permitted` and every
result satisfies `result`. -/
def Confined (permitted : Call → Prop) (replied : (request : Call) → Reply request → Prop)
    (result : α → Prop) : Program Call Reply α → Prop
  | .done value => result value
  | .call request next =>
      permitted request ∧
      ∀ reply, replied request reply → (next reply).Confined permitted replied result

section Confined

variable {permitted : Call → Prop} {replied : (request : Call) → Reply request → Prop}

theorem Confined.bind {middle : α → Prop} {result : β → Prop} {program : Program Call Reply α}
    {rest : α → Program Call Reply β} (first : program.Confined permitted replied middle)
    (second : ∀ value, middle value → (rest value).Confined permitted replied result) :
    (program >>= rest).Confined permitted replied result := by
  induction program with
  | done value => exact second value first
  | call request next ih =>
      exact ⟨first.1, fun reply holds => ih reply (first.2 reply holds)⟩

theorem Always.confined {result : α → Prop} {program : Program Call Reply α}
    (always : program.Always permitted result) : program.Confined permitted replied result := by
  induction program with
  | done value => exact always
  | call request next ih => exact ⟨always.1, fun reply _ => ih reply (always.2 reply)⟩

theorem Confined.perform {request : Call} (allowed : permitted request) :
    (Program.perform request : Program Call Reply _).Confined permitted replied
      (replied request) :=
  ⟨allowed, fun _ holds => holds⟩

/-- Two states in which every permitted call has the same replies are the same to a program
that makes no other calls. -/
theorem Confined.simulate {State : Type}
    {exec : (request : Call) → State → Reply request → State → Prop}
    {related : State → State → Prop}
    (step : ∀ {request reply state after other}, permitted request → related state other →
      exec request state reply after →
      replied request reply ∧ ∃ later, exec request other reply later ∧ related after later)
    {result : α → Prop} {program : Program Call Reply α} {state after other : State} {value : α}
    (confined : program.Confined permitted replied result)
    (runs : program.Runs exec state value after) (same : related state other) :
    result value ∧ ∃ later, program.Runs exec other value later ∧ related after later := by
  induction program generalizing state other with
  | done initial =>
      obtain ⟨rfl, rfl⟩ := runs
      exact ⟨confined, other, ⟨rfl, rfl⟩, same⟩
  | call request next ih =>
      obtain ⟨reply, middle, executed, remaining⟩ := runs
      obtain ⟨holds, between, happened, related⟩ := step confined.1 same executed
      obtain ⟨good, later, simulated, same⟩ := ih reply (confined.2 reply holds) remaining related
      exact ⟨good, later, ⟨reply, between, happened, simulated⟩, same⟩

end Confined

section Alone

variable {State : Type} {exec : (request : Call) → State → Reply request → State → Prop}

/-- However the program returns when run on its own, it does so in `post`; if `total`, it
does return. -/
def Ends (total : Prop) (exec : (request : Call) → State → Reply request → State → Prop)
    (post : α → State → Prop) : Program Call Reply α → State → Prop
  | .done value, state => post value state
  | .call request next, state =>
      (total → ∃ reply after, exec request state reply after) ∧
      ∀ reply after, exec request state reply after → (next reply).Ends total exec post after

/-- Run on its own, the program returns, and however it does, in `post`. -/
abbrev Must (exec : (request : Call) → State → Reply request → State → Prop)
    (post : α → State → Prop) : Program Call Reply α → State → Prop :=
  Ends True exec post

variable {total : Prop}

theorem Ends.mono {strong weak : α → State → Prop} {program : Program Call Reply α}
    {state : State} (ends : program.Ends total exec strong state)
    (implies : ∀ value state, strong value state → weak value state) :
    program.Ends total exec weak state := by
  induction program generalizing state with
  | done value => exact implies value state ends
  | call request next ih =>
      exact ⟨ends.1, fun reply after executed => ih reply (ends.2 reply after executed)⟩

theorem Ends.bind {middle : α → State → Prop} {post : β → State → Prop}
    {program : Program Call Reply α} {rest : α → Program Call Reply β} {state : State}
    (first : program.Ends total exec middle state)
    (second : ∀ value state, middle value state → (rest value).Ends total exec post state) :
    (program >>= rest).Ends total exec post state := by
  induction program generalizing state with
  | done value => exact second value state first
  | call request next ih =>
      exact ⟨first.1, fun reply after executed => ih reply (first.2 reply after executed)⟩

theorem Ends.returns {post : α → State → Prop} {program : Program Call Reply α} {state : State}
    (must : program.Must exec post state) :
    ∃ value after, program.Runs exec state value after := by
  induction program generalizing state with
  | done value => exact ⟨value, state, rfl, rfl⟩
  | call request next ih =>
      obtain ⟨reply, after, executed⟩ := must.1 trivial
      obtain ⟨value, final, runs⟩ := ih reply (must.2 reply after executed)
      exact ⟨value, final, reply, after, executed, runs⟩

theorem Ends.runs {post : α → State → Prop} {program : Program Call Reply α}
    {before after : State} {value : α} (ends : program.Ends total exec post before)
    (runs : program.Runs exec before value after) : post value after := by
  induction program generalizing before with
  | done result =>
      obtain ⟨rfl, rfl⟩ := runs
      exact ends
  | call request next ih =>
      obtain ⟨reply, middle, executed, remaining⟩ := runs
      exact ih reply (ends.2 reply middle executed) remaining

theorem Ends.occurs {post : α → State → Prop} {program : Program Call Reply α} {state : State}
    (must : program.Must exec post state) :
    ∃ value after, program.Runs exec state value after ∧ post value after := by
  obtain ⟨value, after, runs⟩ := must.returns
  exact ⟨value, after, runs, must.runs runs⟩

/-- The result of a program whose calls are all answered by a fixed table. -/
def eval (answer : (request : Call) → Option (Reply request)) :
    Program Call Reply α → Option α
  | .done value => some value
  | .call request next => (answer request).bind (fun reply => (next reply).eval answer)

variable {answer : (request : Call) → Option (Reply request)}

@[simp] theorem eval_done (value : α) :
    (Program.done value : Program Call Reply α).eval answer = some value := rfl

@[simp] theorem eval_bind (program : Program Call Reply α) (rest : α → Program Call Reply β) :
    (program >>= rest).eval answer =
      (program.eval answer).bind (fun value => (rest value).eval answer) := by
  induction program with
  | done value => rfl
  | call request next ih =>
      change (answer request).bind (fun reply => (next reply >>= rest).eval answer) = _
      simp only [ih, eval, Option.bind_assoc]

@[simp] theorem eval_perform (request : Call) :
    (perform request : Program Call Reply (Reply request)).eval answer = answer request := by
  change (answer request).bind some = _
  cases answer request <;> rfl

/-- As long as the answers of the table are those the calls have, a program returns what
it evaluates to. -/
theorem ends_of_eval {kept : State → Prop}
    (answers : ∀ {request reply state}, answer request = some reply → kept state →
      (∃ after, exec request state reply after) ∧
      ∀ other after, exec request state other after → other = reply ∧ kept after)
    {program : Program Call Reply α} {value : α} {state : State}
    (evaluates : program.eval answer = some value) (holds : kept state) :
    program.Ends total exec (fun result after => result = value ∧ kept after) state := by
  induction program generalizing state with
  | done result => exact ⟨Option.some.inj evaluates, holds⟩
  | call request next ih =>
      obtain ⟨reply, answered, remaining⟩ := Option.bind_eq_some_iff.mp evaluates
      obtain ⟨⟨after, executed⟩, determined⟩ := answers answered holds
      refine ⟨fun _ => ⟨reply, after, executed⟩, fun other later happened => ?_⟩
      obtain ⟨rfl, kept⟩ := determined other later happened
      exact ih other remaining kept

end Alone

end Program

end PsMsgr.Effect
