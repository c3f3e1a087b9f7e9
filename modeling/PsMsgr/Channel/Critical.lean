import PsMsgr.Channel.DiskSteps
import PsMsgr.Channel.Locking

namespace PsMsgr

open Effect Discipline Data

variable {thread : Tid} {fd : Fd} {file : FileId} {before after : World}

/-- What is known in the critical section. -/
abbrev Assertion := Disk → Marks → Option Nat → Prop

variable {P Q : Assertion}

theorem Inside.own {disk : Disk} {marks : Marks} (inside : Inside thread fd P before)
    (holds : Q disk marks (before.log thread).found) :
    Inside thread fd Q (before.own thread disk marks) := by
  refine ⟨inside.crit, inside.asleep, inside.fds, ?_⟩
  change Q disk (Function.update before.marks thread marks thread) _
  rw [Function.update_self]
  exact holds

theorem Inside.quiet (quiet : Quiet thread before after) (inside : Inside thread fd P before)
    (awake : after.asleep thread = none)
    (holds : Q before.disk (before.marks thread) (after.log thread).found) :
    Inside thread fd Q after := by
  refine ⟨?_, awake, ?_, ?_⟩
  · rw [quiet.crit]
    exact inside.crit
  · rw [quiet.fds]
    exact inside.fds
  · rw [quiet.disk, quiet.marks]
    exact holds

theorem Inside.imp (inside : Inside thread fd P before)
    (implies : ∀ {disk marks found}, DiskInv disk → P disk marks found → Q disk marks found)
    (inv : Inv before) : Inside thread fd Q before :=
  ⟨inside.crit, inside.asleep, inside.fds, implies inv.disk inside.holds⟩

theorem triple_imp {α : Type} {program : Prog α} {post : α → World → Prop}
    (triple : channel.Triple thread (Inside thread fd Q) program post)
    (implies : ∀ {disk marks found}, DiskInv disk → P disk marks found → Q disk marks found) :
    channel.Triple thread (Inside thread fd P) program post :=
  triple.strengthen (fun inv inside => inside.imp implies inv)

/-- A load of `latest` never names an older publish than the one named before, if it is made
from a file at least as new. -/
theorem quiet_load {offset : Nat} {reply : UInt32} (inv : Inv before)
    (ahead : offset = Offset.latest → ∀ {index publish},
      (before.log thread).sampled = some index → before.disk.publishes[index]? = some publish →
      publish.file ≤ file)
    (executed : exec thread (.load file offset) before reply after) :
    Quiet thread before after := by
  obtain ⟨-, rfl⟩ := executed
  have own : (before.setLog thread ((before.log thread).load before.disk file offset)).log thread =
      (before.log thread).load before.disk file offset := Function.update_self _ _ _
  refine ⟨rfl, rfl, rfl, rfl, rfl, rfl, fun other distinct => Function.update_of_ne distinct _ _,
    fun _ _ => rfl, UInt64.le_refl _, ?_, ?_⟩
  · rw [own]
    unfold Log.load
    split
    · next latest =>
        cases found : lastIndex file before.disk.publishes with
        | none => exact .inl rfl
        | some last =>
            refine .inr ⟨last, rfl, lastIndex_lt found, fun index named => ?_⟩
            have inside := inv.sampled named
            have here := List.getElem?_eq_getElem inside
            exact lastIndex_after inv.disk.ordered here (ahead latest named here) found
    · split
      · exact .inl rfl
      · exact .inl rfl
  · rw [own]
    unfold Log.load
    intro wrapped
    split
    · exact wrapped
    · split
      · exact wrapped
      · simp only [wrapped, Bool.true_or]

theorem Log.load_found (log : Log) (disk : Disk) (offset : Nat) :
    (log.load disk file offset).found = log.found := by
  unfold Log.load
  split
  · rfl
  · split
    · rfl
    · rfl

theorem triple_load (offset : Nat)
    (named : ∀ {disk marks found}, P disk marks found → disk.data = some file) :
    channel.Triple thread (Inside thread fd P) (call (.load file offset))
      (fun reply => Inside thread fd (fun disk marks found =>
        P disk marks found ∧ reply = (disk.memory file).word32 offset)) := by
  refine Triple.call (fun _ => Inside.stable) ?_
  intro state reply later inv inside executed
  have newest := (inv.disk.data (named inside.holds)).2.2
  have quiet := quiet_load inv (fun _ _ publish _ here => newest _
    (inv.disk.published publish (List.mem_of_getElem? here))) executed
  obtain ⟨value, rfl⟩ := executed
  refine ⟨quiet.guarantee_awake inv inside.asleep, inside.quiet quiet inside.asleep ?_⟩
  change P _ _ (Function.update state.log thread _ thread).found ∧ _
  rw [Function.update_self, Log.load_found]
  exact ⟨inside.holds, value⟩

theorem triple_loadBytes (offset count : Nat) :
    channel.Triple thread (Inside thread fd P) (loadBytes file offset count)
      (fun bytes => Inside thread fd (fun disk marks found =>
        P disk marks found ∧ bytes = (disk.memory file).read offset count)) := by
  induction count generalizing offset P with
  | zero => exact Triple.done (fun inv inside => inside.imp (fun _ holds => ⟨holds, rfl⟩) inv)
  | succ count ih =>
      have first : channel.Triple thread (Inside thread fd P) (call (.loadByte file offset))
          (fun byte => Inside thread fd (fun disk marks found =>
            P disk marks found ∧ byte = disk.memory file offset)) := by
        refine triple_passive trivial (fun _ => Inside.stable) ?_
        intro world reply inv inside executed
        exact ⟨inside.crit, inside.asleep, inside.fds, inside.holds, executed.1⟩
      refine first.bind fun byte => (ih (offset + 1)).bind fun bytes =>
        Triple.done (fun inv inside => ?_)
      refine inside.imp (fun _ holds => ⟨holds.1.1, ?_⟩) inv
      rw [holds.1.2, holds.2, Memory.read]

theorem triple_loadWord (offset : Nat) :
    channel.Triple thread (Inside thread fd P) (loadWord file offset)
      (fun value => Inside thread fd (fun disk marks found =>
        P disk marks found ∧ value = (disk.memory file).word32 offset)) := by
  refine (triple_loadBytes offset 4).bind fun bytes => Triple.done (fun inv inside => ?_)
  refine inside.imp (fun _ holds => ⟨holds.1, ?_⟩) inv
  rw [holds.2, Memory.word32]

theorem triple_clock :
    channel.Triple thread (Inside thread fd P) (call (.clock .monotonic))
      (fun _ => Inside thread fd P) := by
  refine Triple.call (fun _ => Inside.stable) ?_
  intro state reply later inv inside executed
  have quiet : Quiet thread state later := quiet_clock executed
  obtain ⟨_, rfl⟩ := executed
  exact ⟨quiet.guarantee_awake inv inside.asleep, inside.quiet quiet inside.asleep inside.holds⟩

theorem triple_silent {request : Sys} {Q : request.Reply → Assertion}
    (effect : ∀ {world reply after}, Inv world → Inside thread fd P world →
      exec thread request world reply after →
      ∃ disk, after = world.own thread disk (world.marks thread) ∧
        (DiskInv disk ∧ world.disk.Evolves disk ∧ world.disk.Silent disk) ∧
        Q reply disk (world.marks thread) (world.log thread).found) :
    channel.Triple thread (Inside thread fd P) (call request)
      (fun reply => Inside thread fd (Q reply)) := by
  refine Triple.call (fun _ => Inside.stable) ?_
  intro state reply later inv inside executed
  obtain ⟨disk, rfl, ⟨valid, evolves, silent⟩, holds⟩ := effect inv inside executed
  exact ⟨guarantee_silent inv inside.ne_none valid evolves silent, inside.own holds⟩

/-- Plain stores, byte by byte: what one store does to the memory, all of them do. -/
theorem triple_storeBytes {A : Memory → Assertion} (allowed : Nat → Prop)
    (stored : ∀ {memory address disk marks found} (byte : UInt8), allowed address → DiskInv disk →
      A memory disk marks found →
      (DiskInv (disk.storeByte file address byte) ∧ disk.Evolves (disk.storeByte file address byte) ∧
        disk.Silent (disk.storeByte file address byte)) ∧
      A (Function.update memory address byte) (disk.storeByte file address byte) marks found)
    {memory : Memory} {offset : Nat} {bytes : List UInt8}
    (within : ∀ address, offset ≤ address → address < offset + bytes.length → allowed address) :
    channel.Triple thread (Inside thread fd (A memory)) (storeBytes file offset bytes)
      (fun _ => Inside thread fd (A (memory.write offset bytes))) := by
  induction bytes generalizing memory offset with
  | nil => exact Triple.done (fun _ inside => inside)
  | cons byte bytes ih =>
      have first : channel.Triple thread (Inside thread fd (A memory))
          (call (.storeByte file offset byte))
          (fun _ => Inside thread fd (A (Function.update memory offset byte))) := by
        refine triple_silent (fun {world _ _} inv inside executed => ?_)
        have here := within offset (Nat.le_refl _) (by rw [List.length_cons]; omega)
        obtain ⟨effect, holds⟩ := stored byte here inv.disk inside.holds
        exact ⟨_, executed, effect, holds⟩
      refine first.bind fun _ => ih (fun address lower upper => within address (by omega) ?_)
      rw [List.length_cons]
      omega

/-- The data path and the history stay, and complete files stay complete. -/
structure Disk.Kept (disk after : Disk) : Prop where
  data : after.data = disk.data
  installed : after.installed = disk.installed
  publishes : after.publishes = disk.publishes
  evolves : disk.Evolves after
  valid : ∀ {file g}, (disk.image file).Valid g → (after.image file).Valid g

theorem Disk.Kept.of_file {disk after : Disk} {g : Geometry} (evolves : disk.Evolves after)
    (data : after.data = disk.data) (installed : after.installed = disk.installed)
    (publishes : after.publishes = disk.publishes) (valid : (disk.image file).Valid g)
    (kept : (after.image file).Valid g)
    (others : ∀ {other}, other ≠ file → after.image other = disk.image other) :
    disk.Kept after := by
  refine ⟨data, installed, publishes, evolves, ?_⟩
  intro other g' valid'
  by_cases same : other = file
  · subst other
    rw [← valid'.shape.unique valid.shape] at kept
    exact kept
  · rw [others same]
    exact valid'

/-- The assertion survives `RETIRED` being set in another file and `notify` being counted up. -/
def Closed (P : Disk → Option Nat → Prop) : Prop :=
  ∀ {disk after found}, DiskInv disk → disk.Kept after → P disk found → P after found

variable {R : Disk → Option Nat → Prop}

theorem guarantee_notify {displacing : Option FileId} (inv : Inv before)
    (inside : before.crit thread ≠ none) (here : before.disk.installed file = true)
    (owed : before.marks thread = ⟨some (file, false), displacing⟩) :
    before.disk.Kept (before.disk.fetchAdd file Offset.notify 1) ∧
      channel.Guarantee thread before (before.own thread
        (before.disk.fetchAdd file Offset.notify 1) ⟨some (file, true), displacing⟩) := by
  obtain ⟨g, valid⟩ := inv.disk.valid here
  obtain ⟨kept, inv', evolves, retired⟩ := Disk.fetchAdd_notify inv.disk here valid
  have others : ∀ {other}, other ≠ file →
      (before.disk.fetchAdd file Offset.notify 1).image other = before.disk.image other :=
    fun distinct => Disk.image_congr (Disk.setMemory_files distinct) rfl rfl
      (Function.update_of_ne distinct _ _) rfl
  refine ⟨.of_file evolves rfl rfl rfl valid kept others,
    guarantee_own inv inside inv' evolves (.inl rfl) ?_ ?_⟩
  · rw [owed]
    intro settled
    constructor
    · intro other present notifying
      have notifying' := fun silent => notifying ((evolves.noNotify_iff present).mpr silent)
      rcases settled.counted present notifying' with orphaned | ⟨different, balanced⟩ | ⟨same, ahead⟩
      · exact .inl orphaned
      · have distinct : other ≠ file := by
          rintro rfl
          exact different rfl
        refine .inr (.inl ⟨by simp, ?_⟩)
        exact balanced.trans (Function.update_of_ne distinct _ _).symm
      · obtain rfl : file = other := by simpa using same
        refine .inr (.inl ⟨by simp, ?_⟩)
        change _ = Function.update before.disk.notifies file _ file
        rw [Function.update_self]
        exact ahead
    · intro other present gone
      rw [retired]
      exact settled.displaced present gone
  · rw [owed]
    intro other generation present _ calm
    rcases calm with orphaned | pending | quiet
    · exact .inl orphaned
    · exact .inr (.inl pending)
    · refine .inr (.inr ?_)
      rw [retired]
      exact quiet

theorem guarantee_wake {displacing : Option FileId} (inv : Inv before)
    (inside : before.crit thread ≠ none)
    (owed : before.marks thread = ⟨some (file, true), displacing⟩) :
    channel.Guarantee thread before
      { before.own thread before.disk ⟨none, displacing⟩ with
        asleep := fun other => if before.asleep other = some file then none
          else before.asleep other } := by
  refine guarantee_waking inv inside inv.disk (Disk.Evolves.refl _) (.inl rfl) ?_ ?_ ?_
  · rw [owed]
    intro settled
    constructor
    · intro other present notifying
      rcases settled.counted present notifying with orphaned | ⟨_, balanced⟩ | ⟨pending, _⟩
      · exact .inl orphaned
      · exact .inr (.inl ⟨nofun, balanced⟩)
      · simp at pending
    · exact settled.displaced
  · intro other
    by_cases sleeps : before.asleep other = some file
    · exact .inr (if_pos sleeps)
    · exact .inl (if_neg sleeps)
  · rw [owed]
    intro other other' generation sleeps _ _ calm
    have distinct : other' ≠ file := by
      rintro rfl
      by_cases slept : before.asleep other = some other'
      · rw [if_pos slept] at sleeps
        exact nomatch sleeps
      · rw [if_neg slept] at sleeps
        exact slept sleeps
    rcases calm with orphaned | pending | quiet
    · exact .inl orphaned
    · have same : file = other' := by simpa using pending
      exact absurd same.symm distinct
    · exact .inr (.inr quiet)

theorem guarantee_retire (inv : Inv before) (inside : before.crit thread ≠ none)
    (here : before.disk.installed file = true) (gone : before.disk.data ≠ some file)
    (owed : before.marks thread = ⟨none, some file⟩) :
    before.disk.Kept (before.disk.fetchOr file Offset.state psmiStateRetired) ∧
      channel.Guarantee thread before (before.own thread
        (before.disk.fetchOr file Offset.state psmiStateRetired) ⟨some (file, false), none⟩) := by
  obtain ⟨g, valid⟩ := inv.disk.valid here
  obtain ⟨kept, inv', evolves, retired, others⟩ := Disk.fetchOr_retired inv.disk here valid gone
  have images : ∀ {other}, other ≠ file →
      (before.disk.fetchOr file Offset.state psmiStateRetired).image other =
        before.disk.image other :=
    fun distinct => Disk.image_congr (Disk.setMemory_files distinct) rfl
      (Function.update_of_ne distinct _ _) rfl rfl
  refine ⟨.of_file evolves rfl rfl rfl valid kept images,
    guarantee_own inv inside inv' evolves (.inl rfl) ?_ ?_⟩
  · rw [owed]
    intro settled
    constructor
    · intro other present notifying
      have notifying' := fun silent => notifying ((evolves.noNotify_iff present).mpr silent)
      rcases settled.counted present notifying' with orphaned | ⟨_, balanced⟩ | ⟨pending, _⟩
      · exact .inl orphaned
      · by_cases same : other = file
        · subst other
          refine .inr (.inr ⟨rfl, ?_⟩)
          change Function.update before.disk.stores file _ file = _
          rw [Function.update_self, balanced]
          rfl
        · refine .inr (.inl ⟨by simpa using fun equal => same equal.symm, ?_⟩)
          exact (Function.update_of_ne same _ _).trans balanced
      · exact nomatch pending
    · intro other present displaced
      by_cases same : other = file
      · rw [same]
        exact .inl retired
      · rw [others same]
        rcases settled.displaced present displaced with already | abandoned | displacing
        · exact .inl already
        · exact .inr (.inl abandoned)
        · exact absurd (Option.some.inj displacing).symm same
  · rw [owed]
    intro other generation present _ calm
    by_cases same : other = file
    · exact .inr (.inl (by rw [same]; rfl))
    · rcases calm with orphaned | pending | quiet
      · exact .inl orphaned
      · exact nomatch pending
      · refine .inr (.inr ?_)
        rw [others same]
        exact quiet

theorem triple_tell (closed : Closed R) :
    channel.Triple thread
      (Inside thread fd (fun disk marks found => marks = ⟨some (file, false), none⟩ ∧
        disk.installed file = true ∧ R disk found))
      (do
        let _ ← call (.fetchAdd file Offset.notify 1)
        call (.futexWake file))
      (fun _ => Inside thread fd (fun disk marks found => marks = Marks.none ∧ R disk found)) := by
  have counted : channel.Triple thread
      (Inside thread fd (fun disk marks found => marks = ⟨some (file, false), none⟩ ∧
        disk.installed file = true ∧ R disk found))
      (call (.fetchAdd file Offset.notify 1))
      (fun _ => Inside thread fd (fun disk marks found =>
        marks = ⟨some (file, true), none⟩ ∧ R disk found)) := by
    refine Triple.call (fun _ => Inside.stable) ?_
    intro state reply later inv inside executed
    obtain ⟨owed, here, holds⟩ := inside.holds
    obtain ⟨kept, guarantee⟩ := guarantee_notify inv inside.ne_none here owed
    obtain ⟨-, rfl⟩ := executed
    rw [owed]
    exact ⟨guarantee, inside.own ⟨rfl, closed inv.disk kept holds⟩⟩
  refine counted.bind fun _ => Triple.call (fun _ => Inside.stable) ?_
  intro state reply later inv inside executed
  obtain ⟨owed, holds⟩ := inside.holds
  have guarantee := guarantee_wake inv inside.ne_none owed
  obtain rfl : later = _ := executed
  rw [owed]
  refine ⟨guarantee, inside.crit, ?_, inside.fds, ?_, holds⟩
  · change (if state.asleep thread = some file then none else state.asleep thread) = none
    rw [inside.asleep]
    rfl
  · exact Function.update_self _ _ _

theorem triple_retire (closed : Closed R) :
    channel.Triple thread
      (Inside thread fd (fun disk marks found => marks = ⟨none, some file⟩ ∧
        disk.installed file = true ∧ disk.data ≠ some file ∧ R disk found))
      (retire file)
      (fun _ => Inside thread fd (fun disk marks found => marks = Marks.none ∧ R disk found)) := by
  have set : channel.Triple thread
      (Inside thread fd (fun disk marks found => marks = ⟨none, some file⟩ ∧
        disk.installed file = true ∧ disk.data ≠ some file ∧ R disk found))
      (call (.fetchOr file Offset.state psmiStateRetired))
      (fun _ => Inside thread fd (fun disk marks found => marks = ⟨some (file, false), none⟩ ∧
        disk.installed file = true ∧ R disk found)) := by
    refine Triple.call (fun _ => Inside.stable) ?_
    intro state reply later inv inside executed
    obtain ⟨owed, here, gone, holds⟩ := inside.holds
    obtain ⟨kept, guarantee⟩ := guarantee_retire inv inside.ne_none here gone owed
    obtain ⟨-, rfl⟩ := executed
    rw [owed]
    simp only [if_true]
    exact ⟨guarantee, inside.own ⟨rfl, here, closed inv.disk kept holds⟩⟩
  exact set.bind fun _ => triple_tell closed

end PsMsgr
