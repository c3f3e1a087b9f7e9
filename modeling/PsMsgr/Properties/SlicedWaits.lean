import PsMsgr.Bindings.Waiting

namespace PsMsgr

open Effect Program

/-- A wait under way: the first and the last reading of the clock, and every timeout it has passed
on with the reading before it. -/
structure Watch where
  start : Option UInt64
  clock : UInt64
  waits : List (Int × UInt64)

/-- The clock does not go back; everything else may reply as it likes. -/
def execWait : (request : WaitCall) → Watch → request.Reply → Watch → Prop
  | .now, watch, reading, after =>
      watch.clock ≤ reading ∧
        after = { watch with start := watch.start <|> some reading, clock := reading }
  | .stateWait ms, watch, _, after =>
      after = { watch with waits := (ms, watch.clock) :: watch.waits }
  | .stopped, watch, _, after => after = watch
  | .contextDeadline, watch, _, after => after = watch

/-- A timeout passed on at a reading of the clock: it is one slice, and no poll before `due`. -/
def InSlice (due : Int) (wait : Int × UInt64) : Prop :=
  0 ≤ wait.1 ∧ wait.1 ≤ waitSliceMs ∧ (wait.1 = 0 → due ≤ wait.2.toNat)

/-- A wait is due some time after its start: no timeout is reported before that, and every slice
is one. -/
def Punctual (due : UInt64 → Int) (result : Waited) (watch : Watch) : Prop :=
  ∀ start, watch.start = some start →
    (result = .timedOut → due start ≤ watch.clock.toNat) ∧
    ∀ wait ∈ watch.waits, InSlice (due start) wait

/-- So far every slice was one. -/
structure Sliced (start : UInt64) (due : Int) (watch : Watch) : Prop where
  began : watch.start = some start
  clock : start ≤ watch.clock
  slices : ∀ wait ∈ watch.waits, InSlice due wait

/-- A slice that is planned rightly. -/
def Slice.Planned (due : Int) (slice : Slice) (watch : Watch) : Prop :=
  InSlice due (slice.ms, watch.clock) ∧
    ∀ expired reading, slice.expired = some expired → expired reading = true → due ≤ reading.toNat

section

variable {start : UInt64} {due : UInt64 → Int} {watch : Watch}

theorem Sliced.punctual {result : Waited} (sliced : Sliced start (due start) watch)
    (onTime : result = .timedOut → due start ≤ watch.clock.toNat) :
    Punctual due result watch := by
  intro other same
  obtain rfl := Option.some.inj (sliced.began.symm.trans same)
  exact ⟨onTime, sliced.slices⟩

/-- A plan that gives up or plans rightly. -/
def Plans (start : UInt64) (due : Int) (plan : WaitProg (Option Slice)) : Prop :=
  ∀ {watch}, Sliced start due watch →
    plan.Ends False execWait (fun slice after => Sliced start due after ∧
      ∀ next, slice = some next → next.Planned due after) watch

theorem waitSlices_punctual {plan : WaitProg (Option Slice)} {interrupted : WaitProg Bool}
    (plans : Plans start (due start) plan)
    (resumes : ∀ watch, interrupted.Ends False execWait (fun _ after => after = watch) watch)
    (turns : Nat) (sliced : Sliced start (due start) watch) :
    (waitSlices plan interrupted turns).Ends False execWait (Punctual due) watch := by
  induction turns generalizing watch with
  | zero => exact sliced.punctual nofun
  | succ turns ih =>
      rw [waitSlices]
      refine (plans sliced).bind ?_
      rintro slice after ⟨sliced, next⟩
      split
      · exact sliced.punctual nofun
      next slice =>
      obtain ⟨inSlice, expiry⟩ := next slice rfl
      refine ⟨False.elim, fun rc waited happened => ?_⟩
      obtain rfl : waited = _ := happened
      have waited : Sliced start (due start)
          { after with waits := (slice.ms, after.clock) :: after.waits } := by
        refine ⟨sliced.began, sliced.clock, fun wait member => ?_⟩
        rcases List.mem_cons.mp member with rfl | member
        · exact inSlice
        · exact sliced.slices wait member
      cases rc with
      | ok => exact waited.punctual nofun
      | timeout =>
          dsimp only
          cases limit : slice.expired with
          | none => exact ih waited
          | some expired =>
              dsimp only
              by_cases poll : slice.ms = 0
              · rw [if_pos poll]
                exact waited.punctual (fun _ => inSlice.2.2 poll)
              · rw [if_neg poll]
                refine ⟨False.elim, fun reading later happened => ?_⟩
                obtain ⟨forward, rfl⟩ := happened
                have read : Sliced start (due start) { after with
                    start := after.start <|> some reading
                    clock := reading
                    waits := (slice.ms, after.clock) :: after.waits } := by
                  refine ⟨?_, UInt64.le_trans sliced.clock forward, waited.slices⟩
                  rw [sliced.began]
                  rfl
                change Ends False execWait _ (if expired reading = true then _ else _) _
                split
                · next reached => exact read.punctual (fun _ => expiry expired reading limit reached)
                · exact ih read
      | intr =>
          refine (resumes _).bind ?_
          rintro raised later rfl
          split
          · exact waited.punctual nofun
          · exact ih waited
      | failed => exact waited.punctual nofun

theorem ends_resume (watch : Watch) : (return false : WaitProg Bool).Ends False execWait
    (fun _ after => after = watch) watch := rfl

theorem ends_stopped (watch : Watch) : (askWait .stopped).Ends False execWait
    (fun _ after => after = watch) watch :=
  ⟨False.elim, fun _ _ happened => happened⟩

theorem Sliced.now {due : Int} (sliced : Sliced start due watch) :
    (askWait .now).Ends False execWait
      (fun reading after => Sliced start due after ∧ after.clock = reading) watch := by
  refine ⟨False.elim, fun reading after happened => ?_⟩
  obtain ⟨forward, rfl⟩ := happened
  refine ⟨⟨?_, UInt64.le_trans sliced.clock forward, sliced.slices⟩, rfl⟩
  rw [sliced.began]
  rfl

theorem ends_start (clock : UInt64) : (askWait .now).Ends False execWait
    (fun start after => clock ≤ start ∧ ∀ due, Sliced start due after) ⟨none, clock, []⟩ := by
  refine ⟨False.elim, fun start after happened => ?_⟩
  obtain ⟨forward, rfl⟩ := happened
  exact ⟨forward, fun due => ⟨rfl, UInt64.le_refl _, nofun⟩⟩

end

namespace CSharp

/-- When a wait is due: the clock cannot go further than `maxValue`. -/
def due (ticks : Int) (start : UInt64) : Int := min (start.toNat + ticks * 100) (2 ^ 64 - 1)

theorem deadline_toNat (ticks now : UInt64) :
    (deadline ticks now).toNat = min (now.toNat + ticks.toNat * 100) (2 ^ 64 - 1) := by
  have nowBound := now.toNat_lt
  have product : (ticks * 100).toNat = ticks.toNat * 100 % 2 ^ 64 := UInt64.toNat_mul ..
  have quotient : (ticks * 100 / 100).toNat = (ticks * 100).toNat / 100 := UInt64.toNat_div ..
  have ns : (if ticks * 100 / 100 ≠ ticks then maxValue else ticks * 100).toNat =
      min (ticks.toNat * 100) (2 ^ 64 - 1) := by
    split
    · next overflow =>
        have differs : (ticks * 100 / 100).toNat ≠ ticks.toNat := mt UInt64.toNat_inj.mp overflow
        have large : 2 ^ 64 ≤ ticks.toNat * 100 := by
          by_contra small
          rw [Nat.mod_eq_of_lt (Nat.not_le.mp small)] at product
          omega
        exact (Nat.min_eq_right (Nat.le_trans (by decide) large)).symm
    · next exact =>
        rw [not_not] at exact
        have same := congrArg UInt64.toNat exact
        omega
  unfold deadline
  dsimp only
  generalize (if ticks * 100 / 100 ≠ ticks then maxValue else ticks * 100) = wait at ns
  have most : maxValue.toNat = 2 ^ 64 - 1 := rfl
  have room : (maxValue - now).toNat = 2 ^ 64 - 1 - now.toNat := by
    rw [UInt64.toNat_sub_of_le _ _ (UInt64.le_iff_toNat_le.mpr (by omega)), most]
  split
  · next full =>
      rw [UInt64.lt_iff_toNat_lt] at full
      omega
  · next fits =>
      rw [UInt64.lt_iff_toNat_lt] at fits
      rw [UInt64.toNat_add]
      omega

theorem remaining_toNat {deadline now : UInt64} (before : now < deadline) :
    (remaining deadline now).toNat =
      (deadline.toNat - now.toNat + 999999) % 2 ^ 64 / 1000000 := by
  have later : ¬ now ≥ deadline := UInt64.not_le.mpr before
  unfold remaining
  rw [if_neg later, UInt64.toNat_div, UInt64.toNat_add,
    UInt64.toNat_sub_of_le _ _ (UInt64.le_of_lt before)]
  rfl

/-- A positive remainder is not rounded to 0, unless it is so large that rounding overflows. -/
theorem remaining_pos {deadline now : UInt64} (before : now < deadline)
    (room : deadline.toNat - now.toNat + 999999 < 2 ^ 64) : 0 < (remaining deadline now).toNat := by
  rw [UInt64.lt_iff_toNat_lt] at before
  rw [remaining_toNat (UInt64.lt_iff_toNat_lt.mpr before), Nat.mod_eq_of_lt room]
  omega

theorem min_toNat (left right : UInt64) : (min left right).toNat = min left.toNat right.toNat := by
  change (if left ≤ right then left else right).toNat = _
  split
  · next le => exact (Nat.min_eq_left (UInt64.le_iff_toNat_le.mp le)).symm
  · next gt =>
      have less := UInt64.lt_iff_toNat_lt.mp (UInt64.not_le.mp gt)
      exact (Nat.min_eq_right (Nat.le_of_lt less)).symm

theorem plans {deadline start : UInt64}
    (room : deadline.toNat - start.toNat + 999999 < 2 ^ 64) :
    Plans start deadline.toNat (plan (some deadline)) := by
  intro watch sliced
  unfold plan
  refine (ends_stopped watch).bind ?_
  rintro stopped after rfl
  split
  · exact ⟨sliced, nofun⟩
  refine sliced.now.bind ?_
  rintro now after ⟨sliced, rfl⟩
  refine ⟨sliced, fun slice same => ?_⟩
  obtain rfl := Option.some.inj same
  have least := UInt64.le_iff_toNat_le.mp sliced.clock
  have ms : (min (remaining deadline after.clock) 100).toNat =
    min (remaining deadline after.clock).toNat 100 := min_toNat _ _
  refine ⟨⟨Int.natCast_nonneg _, ?_, fun zero => ?_⟩, fun expired reading same reached => ?_⟩
  · change ((min (remaining deadline after.clock) 100).toNat : Int) ≤ 100
    omega
  · change ((min (remaining deadline after.clock) 100).toNat : Int) = 0 at zero
    change (deadline.toNat : Int) ≤ after.clock.toNat
    by_contra early
    have before : after.clock < deadline := UInt64.lt_iff_toNat_lt.mpr (by omega)
    have positive := remaining_pos before (by omega)
    omega
  · obtain rfl := Option.some.inj same
    exact Int.ofNat_le.mpr (UInt64.le_iff_toNat_le.mp (of_decide_eq_true reached))

/-- A wait whose remainder overflows when it is rounded up becomes a poll. -/
theorem remaining_overflow {deadline now : UInt64} (before : now < deadline)
    (full : 2 ^ 64 ≤ deadline.toNat - now.toNat + 999999) : remaining deadline now = 0 := by
  have bound := deadline.toNat_lt
  rw [UInt64.lt_iff_toNat_lt] at before
  rw [← UInt64.toNat_inj, remaining_toNat (UInt64.lt_iff_toNat_lt.mpr before)]
  change _ = 0
  omega

theorem wait_punctual_iff {ticks : Int} {clock : UInt64} (nonneg : 0 ≤ ticks)
    (bounded : ticks < 2 ^ 63) :
    (∀ turns, (wait ticks turns).Ends False execWait (Punctual (due ticks)) ⟨none, clock, []⟩) ↔
      due ticks clock - clock.toNat + 999999 < 2 ^ 64 := by
  have small : (UInt64.ofInt ticks).toNat = ticks.toNat := by
    unfold UInt64.ofInt
    rw [UInt64.toNat_ofNat']
    omega
  have ends : ∀ start : UInt64,
      ((deadline (UInt64.ofInt ticks) start).toNat : Int) = due ticks start := by
    intro start
    rw [deadline_toNat, small, due]
    omega
  have finite : ¬ ticks = infiniteTimeSpan := by
    unfold infiniteTimeSpan
    omega
  have forward : ¬ ticks < 0 := Int.not_lt.mpr nonneg
  constructor
  · intro punctual
    by_contra full
    have least := ends clock
    have bound := clock.toNat_lt
    have before : clock < deadline (UInt64.ofInt ticks) clock :=
      UInt64.lt_iff_toNat_lt.mpr (by omega)
    have none : remaining (deadline (UInt64.ofInt ticks) clock) clock = 0 :=
      remaining_overflow before (by omega)
    have runs : (wait ticks 1).Runs execWait ⟨.none, clock, []⟩ .timedOut
        ⟨some clock, clock, [(0, clock)]⟩ := by
      unfold wait
      rw [if_neg finite, if_neg forward]
      refine ⟨clock, _, ⟨UInt64.le_refl _, rfl⟩, false, _, rfl, clock, _, ⟨UInt64.le_refl _, rfl⟩,
        .timeout, _, rfl, ?_⟩
      dsimp only
      rw [none]
      exact ⟨rfl, rfl⟩
    have due := (((punctual 1).runs runs clock rfl).2 (0, clock) List.mem_cons_self).2.2 rfl
    change CSharp.due ticks clock ≤ clock.toNat at due
    omega
  · intro room turns
    unfold wait
    rw [if_neg finite, if_neg forward]
    refine (ends_start clock).bind ?_
    rintro start after ⟨later, sliced⟩
    have later := UInt64.le_iff_toNat_le.mp later
    have same := ends start
    have least := ends clock
    refine waitSlices_punctual ?_ ends_resume turns (sliced _)
    rw [← same]
    refine plans ?_
    unfold due at *
    omega

end CSharp

namespace Go

theorem int64_eq {value : Int} (low : -2 ^ 63 ≤ value) (high : value < 2 ^ 63) :
    int64 value = value := by
  unfold int64
  rw [Int.bmod_def]
  omega

theorem rounded_bounds {timeout : Int} (bounded : timeout ≤ maxInt64) :
    timeout ≤ rounded timeout ∧ rounded timeout ≤ maxInt64 := by
  have limit : int64 (maxInt64 - millisecond) = maxInt64 - millisecond :=
    int64_eq (by decide) (by decide)
  unfold rounded
  rw [limit]
  split
  · next short =>
      simp only [maxInt64, millisecond] at short ⊢
      rw [@int64_eq (timeout + 1000000) (by omega) (by omega),
        @int64_eq (timeout + 1000000 - 1) (by omega) (by omega)]
      unfold truncate
      rw [Int.tmod_eq_emod_of_nonneg (by omega), int64_eq (by omega) (by omega)]
      omega
  · exact ⟨Int.le_refl _, bounded⟩

theorem milliseconds_bounds {slice : Int} (nonneg : 0 ≤ slice) (short : slice ≤ waitSlice) :
    0 ≤ milliseconds slice ∧ milliseconds slice ≤ waitSliceMs ∧
      (milliseconds slice = 0 → slice = 0) := by
  simp only [waitSlice, millisecond] at short
  unfold milliseconds millisecond waitSliceMs
  rw [@int64_eq (slice + 1000000) (by omega) (by omega),
    @int64_eq (slice + 1000000 - 1) (by omega) (by omega),
    Int.tdiv_eq_ediv_of_nonneg (by omega), Int.bmod_def]
  omega

theorem wholeSlice_bounds (left : Int) :
    0 ≤ (if decide (left ≤ waitSlice) = true then max left 0 else waitSlice) ∧
    (if decide (left ≤ waitSlice) = true then max left 0 else waitSlice) ≤ waitSlice ∧
    ((if decide (left ≤ waitSlice) = true then max left 0 else waitSlice) = 0 → left ≤ 0) := by
  have slice : waitSlice = 100000000 := rfl
  by_cases short : left ≤ waitSlice
  · rw [if_pos (decide_eq_true short)]
    omega
  · rw [if_neg (by simpa using short)]
    omega

/-- The deadline of the context, which lies ahead, does not turn a slice into a poll. -/
theorem cut_bounds {deadline : Option Int} {slice : Int}
    (positive : ∀ distance, deadline = some distance → 1 ≤ sub distance 0)
    (nonneg : 0 ≤ slice) (short : slice ≤ waitSlice) :
    0 ≤ cut slice deadline ∧ cut slice deadline ≤ waitSlice ∧
      (cut slice deadline = 0 → slice = 0) := by
  cases deadline with
  | none => exact ⟨nonneg, short, id⟩
  | some distance =>
      have future := positive distance rfl
      change 0 ≤ min slice (sub distance 0) ∧ min slice (sub distance 0) ≤ waitSlice ∧
        (min slice (sub distance 0) = 0 → slice = 0)
      omega

theorem plans {timeout : Int} {start : UInt64} (nonneg : 0 ≤ timeout)
    (bounded : timeout ≤ maxInt64) {due : Int} (sooner : due ≤ start.toNat + timeout) :
    Plans start due (plan timeout start) := by
  intro watch sliced
  unfold plan
  refine (ends_stopped watch).bind ?_
  rintro stopped after rfl
  split
  · exact ⟨sliced, nofun⟩
  refine sliced.now.bind ?_
  rintro now watch ⟨sliced, rfl⟩
  refine ⟨False.elim, fun deadline after happened => ?_⟩
  obtain rfl : after = watch := happened
  change Ends False execWait _ (if deadline.any (· ≤ 0) = true then _ else _) _
  split
  · exact ⟨sliced, nofun⟩
  next ahead =>
  refine ⟨sliced, fun slice same => ?_⟩
  obtain rfl := Option.some.inj same
  have least := UInt64.le_iff_toNat_le.mp sliced.clock
  have elapsed : sub after.clock.toNat start.toNat =
      min maxInt64 (after.clock.toNat - start.toNat) := by
    unfold sub
    simp only [maxInt64]
    omega
  simp only [maxInt64] at bounded elapsed
  have rem : int64 (timeout - sub after.clock.toNat start.toNat) =
      timeout - sub after.clock.toNat start.toNat := int64_eq (by omega) (by omega)
  have positive : ∀ distance, deadline = some distance → 1 ≤ sub distance 0 := by
    rintro distance rfl
    have future : ¬ distance ≤ 0 := by simpa using ahead
    unfold sub
    simp only [maxInt64]
    omega
  rw [rem, decide_eq_true nonneg, Bool.true_and]
  obtain ⟨left, same⟩ : ∃ left, left = timeout - sub after.clock.toNat start.toNat := ⟨_, rfl⟩
  rw [← same]
  obtain ⟨nonneg, short, zero⟩ := wholeSlice_bounds left
  obtain ⟨cutNonneg, cutShort, cutZero⟩ := cut_bounds positive nonneg short
  obtain ⟨ms, most, poll⟩ := milliseconds_bounds cutNonneg cutShort
  refine ⟨⟨ms, most, fun none => ?_⟩, fun expired reading limit reached => ?_⟩
  · have past := zero (cutZero (poll none))
    change due ≤ after.clock.toNat
    omega
  · dsimp only at limit
    split at limit
    · obtain rfl := Option.some.inj limit
      have reached := of_decide_eq_true reached
      unfold sub at reached
      simp only [maxInt64] at reached
      omega
    · exact nomatch limit

end Go

namespace Python

theorem milliseconds_bounds (remaining : Int) :
    0 ≤ milliseconds remaining ∧ milliseconds remaining ≤ waitSliceMs ∧
      (milliseconds remaining = 0 → remaining ≤ 0) := by
  unfold milliseconds waitSliceMs
  rw [Int.fdiv_eq_ediv_of_nonneg _ (by decide)]
  split
  · omega
  · omega

theorem plans {deadline : Int} {start : UInt64} :
    Plans start deadline (plan (some deadline)) := by
  intro watch sliced
  unfold plan
  refine (ends_stopped watch).bind ?_
  rintro stopped after rfl
  split
  · exact ⟨sliced, nofun⟩
  refine sliced.now.bind ?_
  rintro now after ⟨sliced, rfl⟩
  refine ⟨sliced, fun slice same => ?_⟩
  obtain rfl := Option.some.inj same
  obtain ⟨nonneg, most, zero⟩ := milliseconds_bounds (deadline - after.clock.toNat)
  refine ⟨⟨nonneg, most, fun poll => ?_⟩, fun expired reading same reached => ?_⟩
  · have past := zero poll
    change deadline ≤ after.clock.toNat
    omega
  · obtain rfl := Option.some.inj same
    exact of_decide_eq_true reached

end Python

/-- The Go and Python waits are punctual whatever they are asked for.  The C# wait is, unless the
timeout, cut off where the clock ends, is so long that rounding it up to milliseconds overflows. -/
theorem sliced_waits_on_time (clock : UInt64) :
    (∀ {ticks : Int}, 0 ≤ ticks → ticks < 2 ^ 63 →
      ((∀ turns, (CSharp.wait ticks turns).Ends False execWait (Punctual (CSharp.due ticks))
        ⟨none, clock, []⟩) ↔ CSharp.due ticks clock - clock.toNat + 999999 < 2 ^ 64)) ∧
    (∀ {timeout : Int} (turns : Nat), 0 ≤ timeout → timeout ≤ Go.maxInt64 →
      (Go.wait timeout turns).Ends False execWait
        (Punctual (fun start => start.toNat + timeout)) ⟨none, clock, []⟩) ∧
    ∀ {timeout : Int} (turns : Nat), 0 ≤ timeout →
      (Python.wait (some timeout) turns).Ends False execWait
        (Punctual (fun start => start.toNat + timeout)) ⟨none, clock, []⟩ := by
  refine ⟨?_, ?_, ?_⟩
  · intro ticks nonneg bounded
    exact CSharp.wait_punctual_iff nonneg bounded
  · intro timeout turns nonneg bounded
    obtain ⟨longer, bounded⟩ := Go.rounded_bounds bounded
    refine (ends_start clock).bind ?_
    rintro start after ⟨-, sliced⟩
    refine waitSlices_punctual (Go.plans (by omega) bounded ?_) ends_resume turns (sliced _)
    omega
  · intro timeout turns _
    refine (ends_start clock).bind ?_
    rintro start after ⟨-, sliced⟩
    exact waitSlices_punctual Python.plans ends_stopped turns (sliced _)

/-- The longest C# wait, begun when the clock is at 0, polls once and reports a timeout. -/
theorem longest_wait_times_out_early :
    ¬ ∀ turns, (CSharp.wait (2 ^ 63 - 1) turns).Ends False execWait
      (Punctual (CSharp.due (2 ^ 63 - 1))) ⟨none, 0, []⟩ := by
  rw [CSharp.wait_punctual_iff (by decide) (by decide)]
  decide

end PsMsgr
