import PsMsgr.Effect.Tracing

namespace PsMsgr.Effect

/-! # What else a program brings about

`Triple` shows that a program keeps the guarantee, and what it leaves behind.  Once that is done,
further facts about what it leaves behind can take the guarantee for granted.
-/

namespace Discipline

variable {Call : Type} {Reply : Call → Type} {State Tid α β : Type}

/-- From `state` the program ends in `post`, whatever the other threads do between its calls, and
given that the calls keep the guarantee. -/
def Yields (D : Discipline Call Reply State Tid) (thread : Tid) (post : α → State → Prop) :
    Program Call Reply α → State → Prop
  | .done value, state => post value state
  | .call request next, state =>
      ∀ reply after, D.exec thread request state reply after → D.Guarantee thread state after →
        ∀ later, D.rely thread after later → D.inv later → D.Yields thread post (next reply) later

variable {D : Discipline Call Reply State Tid} {thread : Tid}

theorem Yields.mono {strong weak : α → State → Prop} {program : Program Call Reply α}
    {state : State} (yields : D.Yields thread strong program state)
    (implies : ∀ value state, strong value state → weak value state) :
    D.Yields thread weak program state := by
  induction program generalizing state with
  | done value => exact implies value state yields
  | call request next ih =>
      intro reply after executed guarantee later related valid
      exact ih reply (yields reply after executed guarantee later related valid)

theorem Yields.then {middle : α → State → Prop} {post : β → State → Prop}
    {program : Program Call Reply α} {rest : α → Program Call Reply β} {state : State}
    (first : D.Yields thread middle program state)
    (second : ∀ value state, middle value state → D.Yields thread post (rest value) state) :
    D.Yields thread post (program >>= rest) state := by
  induction program generalizing state with
  | done value => exact second value state first
  | call request next ih =>
      intro reply after executed guarantee later related valid
      exact ih reply (first reply after executed guarantee later related valid)

theorem Ensures.yields {post : α → State → Prop} {program : Program Call Reply α} {state : State}
    (ensured : D.Ensures thread post program state) : D.Yields thread post program state := by
  induction program generalizing state with
  | done value => exact ensured
  | call request next ih =>
      intro reply after executed _ later related valid
      exact ih reply ((ensured reply after executed).2 later related valid)

/-- From every valid state that satisfies `pre` the program yields `post`. -/
def Brings (D : Discipline Call Reply State Tid) (thread : Tid) (pre : State → Prop)
    (program : Program Call Reply α) (post : α → State → Prop) : Prop :=
  ∀ state, D.inv state → pre state →
    D.Yields thread (fun value after => D.inv after ∧ post value after) program state

theorem Triple.brings {pre : State → Prop} {post : α → State → Prop}
    {program : Program Call Reply α} (triple : D.Triple thread pre program post) :
    D.Brings thread pre program post :=
  fun state valid holds => (triple state valid holds).yields

namespace Brings

variable {pre pre' : State → Prop} {post post' : α → State → Prop}
  {program : Program Call Reply α}

theorem done {value : α} (implies : ∀ {state}, D.inv state → pre state → post value state) :
    D.Brings thread pre (.done value) post :=
  fun _ valid holds => ⟨valid, implies valid holds⟩

theorem call {request : Call} {post : Reply request → State → Prop}
    (stable : ∀ reply, D.Stable thread (post reply))
    (executes : ∀ {state reply after}, D.inv state → pre state →
      D.exec thread request state reply after → D.Guarantee thread state after →
      post reply after) :
    D.Brings thread pre (Program.perform request) post := by
  intro state valid holds reply after executed guarantee later related laterValid
  exact ⟨laterValid,
    stable reply after later (executes valid holds executed guarantee) related laterValid⟩

theorem bind {middle : α → State → Prop} {post : β → State → Prop}
    {rest : α → Program Call Reply β}
    (first : D.Brings thread pre program middle)
    (second : ∀ value, D.Brings thread (middle value) (rest value) post) :
    D.Brings thread pre (program >>= rest) post :=
  fun state valid holds => (first state valid holds).then
    (fun value after reached => second value after reached.1 reached.2)

theorem weaken (brings : D.Brings thread pre program post)
    (implies : ∀ {value state}, D.inv state → post value state → post' value state) :
    D.Brings thread pre program post' :=
  fun state valid holds => (brings state valid holds).mono
    (fun _ _ reached => ⟨reached.1, implies reached.1 reached.2⟩)

theorem strengthen (brings : D.Brings thread pre program post)
    (implies : ∀ {state}, D.inv state → pre' state → pre state) :
    D.Brings thread pre' program post :=
  fun state valid holds => brings state valid (implies valid holds)

theorem always {permitted : Call → Prop} {result : α → Prop} {program : Program Call Reply α}
    (always : program.Always permitted result) :
    D.Brings thread pre program (fun value _ => result value) := by
  have each {state : State} (valid : D.inv state) :
      D.Yields thread (fun value after => D.inv after ∧ result value) program state := by
    induction program generalizing state with
    | done value => exact ⟨valid, always⟩
    | call request next ih =>
        intro reply after _ _ later _ laterValid
        exact ih reply (always.2 reply) laterValid
  exact fun state valid _ => each valid

/-- What the guarantee and the rely both keep, every program keeps. -/
theorem keep {kept : State → Prop} (stable : D.Stable thread kept)
    (own : ∀ {before after}, D.Guarantee thread before after → kept before → kept after)
    (program : Program Call Reply α) : D.Brings thread kept program (fun _ => kept) := by
  induction program with
  | done value => exact done (fun _ holds => holds)
  | call request next ih =>
      intro state valid holds reply after executed guarantee later related laterValid
      exact ih reply later laterValid
        (stable after later (own guarantee holds) related laterValid)

end Brings

end Discipline

section Carries

variable {Call : Type} {Reply : Call → Type} {State Tid α : Type} [DecidableEq Tid]
  {D : Discipline Call Reply State Tid} {C : Client Call Reply State Tid} {initial : System C}

/-- A fact about a thread and its handle that every request leaves true of the handle it returns. -/
structure Outline.Carries (O : Outline D C) (carried : Tid → C.Handle → State → Prop) : Prop where
  stable : ∀ {thread} handle, D.Stable thread (carried thread handle)
  begin : ∀ {thread handle request state}, O.owns thread handle state →
    C.accepts handle request → carried thread handle state →
    carried thread handle (C.begin thread request state)
  brings : ∀ {thread handle request}, C.accepts handle request →
    D.Brings thread (carried thread handle) (C.program handle request)
      (fun returned => carried thread returned.1)

variable {O : Outline D C} {carried : Tid → C.Handle → State → Prop} {thread : Tid}

/-- What is known of a thread when handles carry a fact. -/
def Carried (D : Discipline Call Reply State Tid) (carried : Tid → C.Handle → State → Prop)
    (thread : Tid) : Thread C → State → Prop
  | .idle handle => carried thread handle
  | .busy _ _ _ program => fun state => ∀ later, D.rely thread state later → D.inv later →
      D.Yields thread (fun returned after => D.inv after ∧ carried thread returned.1 after)
        program later
  | .dead => fun _ => True

omit [DecidableEq Tid] in
theorem Outline.Carries.maintains (carries : O.Carries carried) :
    O.Maintains D.inv (Carried D carried) where
  rely := by
    intro thread status before after _ valid holds related
    cases status with
    | idle handle => exact carries.stable handle before after holds related valid
    | busy handle request since program =>
        exact fun later further => holds later (D.rely_trans thread related further)
    | dead => trivial
  start := by
    intro thread handle request state valid holds owned accepted later related laterValid
    refine carries.brings accepted later laterValid ?_
    exact carries.stable handle _ later (carries.begin owned accepted holds) related laterValid
  call := by
    intro thread handle request since made next reply before after valid _ holds executed guarantee
      later related laterValid
    exact holds before (D.rely_refl thread before) valid reply after executed guarantee later
      related laterValid
  finish := by
    intro thread handle request since returned state valid holds _
    exact (holds state (D.rely_refl thread state) valid).2
  dead := fun _ => trivial

theorem Outline.Sound.carries (sound : O.Sound initial) (carries : O.Carries carried)
    (initially : ∀ thread, Carried D carried thread (initial.threads thread) initial.state)
    (run : Run D C initial) (index : Nat) (thread : Tid) :
    Carried D carried thread ((run.systems index).threads thread) (run.systems index).state :=
  sound.maintains carries.maintains initially run (fun index => (sound.run run index).inv) index
    thread

end Carries

end PsMsgr.Effect
