import PsMsgr.Channel.Invariant

namespace PsMsgr

open Effect Data

/-! # Steps that keep the invariant

Every call changes the world in one of four ways: it changes nothing shared, it works
on the files from inside the critical section, it works on the lock, or it ends the
critical section.
-/

variable {before after : World} {thread : Tid}

theorem guarantee_same (inv : Inv before) : channel.Guarantee thread before before where
  inv := inv
  step := ⟨fun {index} here => ⟨index, here, Nat.le_refl _⟩, id, .inl rfl⟩
  rely := fun other _ => Rely.refl other before

/-- Only the thread's own log, its place in a futex queue and the time change. -/
structure Quiet (thread : Tid) (before after : World) : Prop where
  lock : after.lock = before.lock
  fds : after.fds = before.fds
  disk : after.disk = before.disk
  crit : after.crit = before.crit
  marks : after.marks = before.marks
  asking : after.asking = before.asking
  log : ∀ other, other ≠ thread → after.log other = before.log other
  asleep : ∀ other, other ≠ thread → after.asleep other = before.asleep other
  now : before.now ≤ after.now
  sampled : (after.log thread).sampled = (before.log thread).sampled ∨
    ∃ later, (after.log thread).sampled = some later ∧ later < before.disk.publishes.length ∧
      ∀ index, (before.log thread).sampled = some index → index ≤ later
  wrapped : (before.log thread).wrapped = true → (after.log thread).wrapped = true

theorem Quiet.refl (thread : Tid) (world : World) : Quiet thread world world :=
  ⟨rfl, rfl, rfl, rfl, rfl, rfl, fun _ _ => rfl, fun _ _ => rfl, UInt64.le_refl _, .inl rfl, id⟩

theorem Quiet.owing_iff (quiet : Quiet thread before after) {marks : Marks} :
    after.Owing marks ↔ before.Owing marks := by
  unfold World.Owing
  rw [quiet.crit, quiet.marks]

/-- The thread may only fall asleep where it may sleep. -/
theorem Quiet.guarantee (quiet : Quiet thread before after) (inv : Inv before)
    (sleeper : ∀ file, after.asleep thread = some file →
      before.disk.installed file = true ∧ ¬ before.disk.NoNotify file ∧
      ((after.log thread).notifyWrapped = true ∨
        ∀ marks, before.Owing marks → before.disk.Calm marks file (before.asking thread))) :
    channel.Guarantee thread before after where
  inv :=
    { held := by rw [quiet.crit, quiet.fds, quiet.lock]; exact inv.held
      locked := by rw [quiet.fds]; exact inv.locked
      outside := by rw [quiet.crit, quiet.marks]; exact inv.outside
      disk := by rw [quiet.disk]; exact inv.disk
      settled := by
        intro marks owed
        rw [quiet.disk]
        exact inv.settled (quiet.owing_iff.mp owed)
      sampled := by
        intro other index named
        rw [quiet.disk]
        by_cases same : other = thread
        · subst other
          rcases quiet.sampled with unchanged | ⟨later, loaded, inside, -⟩
          · exact inv.sampled (unchanged ▸ named)
          · rw [loaded, Option.some.injEq] at named
            rw [← named]
            exact inside
        · rw [quiet.log other same] at named
          exact inv.sampled named
      asleep := by
        intro other file sleeps
        simp only [quiet.disk, quiet.owing_iff, quiet.asking]
        by_cases same : other = thread
        · subst other
          exact sleeper file sleeps
        · rw [quiet.log other same]
          rw [quiet.asleep other same] at sleeps
          exact inv.asleep sleeps }
  step := by
    refine ⟨fun {index} named => ?_, quiet.wrapped, .inl (by rw [quiet.disk])⟩
    rcases quiet.sampled with unchanged | ⟨later, loaded, -, ahead⟩
    · exact ⟨index, unchanged.trans named, Nat.le_refl _⟩
    · exact ⟨later, loaded, ahead index named⟩
  rely := by
    intro other distinct
    refine ⟨?_, ?_, ?_, ?_, quiet.log other distinct, ?_, .inl (quiet.asleep other distinct),
      quiet.now, ?_, fun _ => ⟨quiet.lock, quiet.disk⟩⟩
    · rw [quiet.disk]
      exact Disk.Evolves.refl _
    · intro _ _ _
      rw [quiet.fds]
    · rw [quiet.crit]
    · rw [quiet.marks]
    · rw [quiet.asking]
    · rw [quiet.disk]
      exact id

theorem guarantee_waking {disk : Disk} {marks : Marks} {asleep : Tid → Option FileId}
    (inv : Inv before) (inside : before.crit thread ≠ none) (valid : DiskInv disk)
    (evolves : before.disk.Evolves disk)
    (grows : disk.publishes = before.disk.publishes ∨
      ∃ publish, publish.writer = thread ∧ disk.publishes = before.disk.publishes ++ [publish])
    (settled : before.disk.Settled (before.marks thread) → disk.Settled marks)
    (woken : ∀ other, asleep other = before.asleep other ∨ asleep other = none)
    (calm : ∀ {other file generation}, asleep other = some file →
      before.disk.installed file = true → ¬ before.disk.NoNotify file →
      before.disk.Calm (before.marks thread) file generation → disk.Calm marks file generation) :
    channel.Guarantee thread before { before.own thread disk marks with asleep } := by
  have alone : ∀ other, other ≠ thread → before.crit other = none :=
    fun _ distinct => inv.others_outside inside distinct
  have owing : ∀ {owed}, World.Owing { before.own thread disk marks with asleep } owed ↔
      marks = owed := by
    intro owed
    have single : World.Owing { before.own thread disk marks with asleep } owed ↔
        (before.own thread disk marks).marks thread = owed := World.owing_iff inside alone
    rw [single]
    change Function.update before.marks thread marks thread = owed ↔ _
    rw [Function.update_self]
  have owed : before.Owing (before.marks thread) := (inv.owing_iff inside).mpr rfl
  constructor
  · refine ⟨inv.held, inv.locked, ?_, valid, ?_, ?_, ?_⟩
    · intro other out
      by_cases same : other = thread
      · exact absurd (same ▸ out) inside
      · change Function.update before.marks thread marks other = _
        rw [Function.update_of_ne same]
        exact inv.outside out
    · intro left owes
      rw [← owing.mp owes]
      exact settled (inv.settled owed)
    · intro other index named
      exact Nat.lt_of_lt_of_le (inv.sampled named) evolves.publishes.length_le
    · intro other file sleeps
      change asleep other = some file at sleeps
      have slept : before.asleep other = some file := by
        rcases woken other with same | awake
        · rw [← same]
          exact sleeps
        · exact nomatch sleeps.symm.trans awake
      obtain ⟨here, notifying, awake⟩ := inv.asleep slept
      refine ⟨evolves.installed here, ?_, awake.imp_right ?_⟩
      · intro silent
        exact notifying ((evolves.noNotify_iff here).mp silent)
      · intro resting left owes
        rw [← owing.mp owes]
        exact calm sleeps here notifying (resting _ owed)
  · exact ⟨fun {index} here => ⟨index, here, Nat.le_refl _⟩, id, grows⟩
  · intro other distinct
    refine ⟨evolves, fun _ _ _ => Iff.rfl, rfl, ?_, rfl, rfl, woken other, UInt64.le_refl _, ?_, ?_⟩
    · exact Function.update_of_ne distinct _ _
    · intro absent publish member
      change publish ∈ disk.publishes at member
      rcases grows with same | ⟨newest, own, grown⟩
      · rw [same] at member
        exact absent publish member
      · rw [grown] at member
        rcases List.mem_append.mp member with older | last
        · exact absent publish older
        · rw [List.mem_singleton.mp last, own]
          exact distinct.symm
    · exact fun within => absurd (alone other distinct) within

theorem guarantee_own {disk : Disk} {marks : Marks} (inv : Inv before)
    (inside : before.crit thread ≠ none) (valid : DiskInv disk)
    (evolves : before.disk.Evolves disk)
    (grows : disk.publishes = before.disk.publishes ∨
      ∃ publish, publish.writer = thread ∧ disk.publishes = before.disk.publishes ++ [publish])
    (settled : before.disk.Settled (before.marks thread) → disk.Settled marks)
    (calm : ∀ {file generation}, before.disk.installed file = true →
      ¬ before.disk.NoNotify file →
      before.disk.Calm (before.marks thread) file generation → disk.Calm marks file generation) :
    channel.Guarantee thread before (before.own thread disk marks) :=
  guarantee_waking inv inside valid evolves grows settled (fun _ => .inl rfl) (fun _ => calm)

/-- Nothing waiters or readers are told about changes. -/
structure Disk.Silent (before after : Disk) : Prop where
  data : after.data = before.data
  installed : after.installed = before.installed
  publishes : after.publishes = before.publishes
  stores : after.stores = before.stores
  notifies : after.notifies = before.notifies
  orphaned : after.orphaned = before.orphaned
  abandoned : after.abandoned = before.abandoned
  retired : ∀ {file}, before.installed file = true → (after.Retired file ↔ before.Retired file)

theorem guarantee_silent {disk : Disk} (inv : Inv before) (inside : before.crit thread ≠ none)
    (valid : DiskInv disk) (evolves : before.disk.Evolves disk)
    (silent : before.disk.Silent disk) :
    channel.Guarantee thread before (before.own thread disk (before.marks thread)) := by
  refine guarantee_own inv inside valid evolves (.inl silent.publishes) ?_ ?_
  · intro settled
    constructor
    · intro file here notifying
      rw [silent.installed] at here
      rw [evolves.noNotify_iff here] at notifying
      rw [silent.orphaned, silent.stores, silent.notifies]
      exact settled.counted here notifying
    · intro file here gone
      rw [silent.installed] at here
      rw [silent.data] at gone
      rw [silent.retired here, silent.abandoned]
      exact settled.displaced here gone
  · intro file generation here _ calm
    unfold Disk.Calm at calm ⊢
    rw [silent.orphaned, silent.retired here]
    simp only [Disk.image, silent.publishes] at calm ⊢
    exact calm

/-- Only the lock file, its descriptors and the critical sections change. -/
structure Locks (thread : Tid) (before after : World) : Prop where
  disk : after.disk = before.disk
  marks : after.marks = before.marks
  log : after.log = before.log
  asleep : after.asleep = before.asleep
  asking : after.asking = before.asking
  now : after.now = before.now
  fds : ∀ fd descriptor, descriptor.owner ≠ thread →
    (after.fds fd = some descriptor ↔ before.fds fd = some descriptor)
  crit : ∀ other, other ≠ thread → after.crit other = before.crit other
  lock : ∀ other, other ≠ thread → before.crit other ≠ none → after.lock = before.lock
  held : ∀ {other fd}, after.crit other = some fd →
    ∃ ino, after.fds fd = some ⟨other, ino, true⟩ ∧ after.lock = some ino
  locked : ∀ {fd fd' descriptor descriptor'}, after.fds fd = some descriptor →
    after.fds fd' = some descriptor' → descriptor.locked = true → descriptor'.locked = true →
    descriptor.ino = descriptor'.ino → fd = fd'
  outside : ∀ {other}, after.crit other = none → before.marks other = Marks.none
  owing : ∀ {marks}, after.Owing marks → before.Owing marks

theorem Locks.guarantee (locks : Locks thread before after) (inv : Inv before) :
    channel.Guarantee thread before after where
  inv :=
    { held := locks.held
      locked := locks.locked
      outside := by rw [locks.marks]; exact locks.outside
      disk := by rw [locks.disk]; exact inv.disk
      settled := by
        intro marks owed
        rw [locks.disk]
        exact inv.settled (locks.owing owed)
      sampled := by rw [locks.disk, locks.log]; exact inv.sampled
      asleep := by
        intro other file sleeps
        rw [locks.asleep] at sleeps
        rw [locks.disk, locks.log, locks.asking]
        obtain ⟨here, notifying, awake⟩ := inv.asleep sleeps
        exact ⟨here, notifying, awake.imp_right
          (fun resting marks owed => resting marks (locks.owing owed))⟩ }
  step := by
    refine ⟨?_, ?_, .inl (by rw [locks.disk])⟩
    · rw [locks.log]
      exact fun {index} here => ⟨index, here, Nat.le_refl _⟩
    · rw [locks.log]
      exact id
  rely := by
    intro other distinct
    refine ⟨?_, fun fd descriptor own => locks.fds fd descriptor (own ▸ distinct),
      locks.crit other distinct, ?_, ?_, ?_, .inl ?_, ?_, ?_, fun within =>
        ⟨locks.lock other distinct within, locks.disk⟩⟩
    · rw [locks.disk]
      exact Disk.Evolves.refl _
    · rw [locks.marks]
    · rw [locks.log]
    · rw [locks.asking]
    · rw [locks.asleep]
    · rw [locks.now]
      exact UInt64.le_refl _
    · rw [locks.disk]
      exact id

theorem Disk.leave_none (disk : Disk) : disk.leave Marks.none = disk := rfl

theorem Disk.leave_orphaned {disk : Disk} {marks : Marks} {file : FileId} :
    (disk.leave marks).orphaned file = true ↔
      disk.orphaned file = true ∨ marks.unwoken.map Prod.fst = some file := by
  obtain ⟨unwoken, displacing⟩ := marks
  cases unwoken with
  | none => simp [Disk.leave]
  | some mark =>
      obtain ⟨other, counted⟩ := mark
      by_cases same : file = other
      · subst other
        simp [Disk.leave]
      · have apart : other ≠ file := fun equal => same equal.symm
        simp [Disk.leave, same, apart]

theorem Disk.leave_abandoned {disk : Disk} {marks : Marks} {file : FileId} :
    (disk.leave marks).abandoned file = true ↔
      disk.abandoned file = true ∨ marks.displacing = some file := by
  obtain ⟨unwoken, displacing⟩ := marks
  cases displacing with
  | none => simp [Disk.leave]
  | some other =>
      by_cases same : file = other
      · subst other
        simp [Disk.leave]
      · have apart : other ≠ file := fun equal => same equal.symm
        simp [Disk.leave, same, apart]

theorem DiskInv.leave {disk : Disk} (inv : DiskInv disk) (marks : Marks) :
    DiskInv (disk.leave marks) :=
  ⟨inv.data, inv.fresh, inv.unused, inv.valid, inv.published, inv.ordered, inv.chained⟩

theorem Disk.evolves_leave (disk : Disk) (marks : Marks) : disk.Evolves (disk.leave marks) :=
  ⟨List.prefix_refl _, id, fun _ => Image.Evolves.refl _, fun _ gone => gone,
    fun set => leave_orphaned.mpr (.inl set), fun set => leave_abandoned.mpr (.inl set)⟩

/-- What is left undone is on record once the thread is gone. -/
theorem Disk.Settled.leave {disk : Disk} {marks : Marks} (settled : disk.Settled marks) :
    (disk.leave marks).Settled Marks.none where
  counted := by
    intro file here notifying
    rw [leave_orphaned]
    rcases settled.counted here notifying with orphaned | ⟨_, balanced⟩ | ⟨pending, _⟩
    · exact .inl (.inl orphaned)
    · exact .inr (.inl ⟨by simp [Marks.none], balanced⟩)
    · exact .inl (.inr (by rw [pending]; rfl))
  displaced := by
    intro file here gone
    rw [leave_abandoned]
    rcases settled.displaced here gone with retired | abandoned | displacing
    · exact .inl retired
    · exact .inr (.inl (.inl abandoned))
    · exact .inr (.inl (.inr displacing))

theorem Disk.Calm.leave {disk : Disk} {marks : Marks} {file : FileId} {generation : UInt32}
    (calm : disk.Calm marks file generation) :
    (disk.leave marks).Calm Marks.none file generation := by
  rcases calm with orphaned | pending | quiet
  · exact .inl (leave_orphaned.mpr (.inl orphaned))
  · exact .inl (leave_orphaned.mpr (.inr pending))
  · exact .inr (.inr quiet)

/-- The thread leaves its critical section, if it is in it, and gives up descriptors. -/
structure Leaves (thread : Tid) (before after : World) : Prop where
  disk : after.disk = before.disk.leave (before.marks thread)
  crit : after.crit = Function.update before.crit thread none
  marks : after.marks = Function.update before.marks thread Marks.none
  log : after.log = before.log
  asking : after.asking = before.asking
  now : after.now = before.now
  asleep : ∀ other, other ≠ thread → after.asleep other = before.asleep other
  awake : after.asleep thread = before.asleep thread ∨ after.asleep thread = none
  fewer : ∀ {fd descriptor}, after.fds fd = some descriptor → before.fds fd = some descriptor
  fds : ∀ {fd descriptor}, descriptor.owner ≠ thread → before.fds fd = some descriptor →
    after.fds fd = some descriptor
  lock : after.lock = before.lock ∨ before.crit thread ≠ none

namespace Leaves

variable (leaves : Leaves thread before after)

include leaves

theorem crit_self : after.crit thread = none := by rw [leaves.crit, Function.update_self]

theorem crit_other {other : Tid} (distinct : other ≠ thread) :
    after.crit other = before.crit other := by
  rw [leaves.crit, Function.update_of_ne distinct]

theorem marks_other {other : Tid} (distinct : other ≠ thread) :
    after.marks other = before.marks other := by
  rw [leaves.marks, Function.update_of_ne distinct]

theorem undisturbed (inv : Inv before) {other : Tid} (distinct : other ≠ thread)
    (within : before.crit other ≠ none) :
    after.lock = before.lock ∧ after.disk = before.disk := by
  have out : before.crit thread = none := inv.others_outside within distinct.symm
  refine ⟨leaves.lock.resolve_right (fun inside => inside out), ?_⟩
  rw [leaves.disk, inv.outside out, Disk.leave_none]

/-- What is owed afterwards: if the thread owed something, nothing is. -/
theorem owing (inv : Inv before) {marks : Marks} (owed : after.Owing marks) :
    (marks = Marks.none ∧ before.Owing (before.marks thread)) ∨
      (before.Owing marks ∧ before.marks thread = Marks.none) := by
  by_cases inside : before.crit thread = none
  · refine .inr ⟨?_, inv.outside inside⟩
    rcases owed with ⟨other, within, left⟩ | ⟨nobody, none⟩
    · have distinct : other ≠ thread := fun same => within (same ▸ leaves.crit_self)
      rw [leaves.crit_other distinct] at within
      rw [leaves.marks_other distinct] at left
      exact .inl ⟨other, within, left⟩
    · refine .inr ⟨fun other => ?_, none⟩
      by_cases same : other = thread
      · rw [same]
        exact inside
      · rw [← leaves.crit_other same]
        exact nobody other
  · refine .inl ⟨?_, (inv.owing_iff inside).mpr rfl⟩
    rcases owed with ⟨other, within, _⟩ | ⟨_, none⟩
    · have distinct : other ≠ thread := fun same => within (same ▸ leaves.crit_self)
      rw [leaves.crit_other distinct] at within
      exact absurd (inv.exclusive within inside) distinct
    · exact none

theorem guarantee (inv : Inv before) : channel.Guarantee thread before after where
  inv :=
    { held := by
        intro other fd within
        have distinct : other ≠ thread := by
          intro same
          rw [same, leaves.crit_self] at within
          exact absurd within (by simp)
        rw [leaves.crit_other distinct] at within
        obtain ⟨ino, opened, named⟩ := inv.held within
        have unchanged := (leaves.undisturbed inv distinct (by rw [within]; simp)).1
        exact ⟨ino, leaves.fds distinct opened, unchanged.trans named⟩
      locked := fun opened opened' => inv.locked (leaves.fewer opened) (leaves.fewer opened')
      outside := by
        intro other out
        by_cases same : other = thread
        · rw [same, leaves.marks, Function.update_self]
        · rw [leaves.crit_other same] at out
          rw [leaves.marks_other same]
          exact inv.outside out
      disk := by rw [leaves.disk]; exact inv.disk.leave _
      settled := by
        intro marks owed
        rw [leaves.disk]
        rcases leaves.owing inv owed with ⟨rfl, owes⟩ | ⟨owes, nothing⟩
        · exact (inv.settled owes).leave
        · rw [nothing, Disk.leave_none]
          exact inv.settled owes
      sampled := by rw [leaves.disk, leaves.log]; exact inv.sampled
      asleep := by
        intro other file sleeps
        have slept : before.asleep other = some file := by
          by_cases same : other = thread
          · rw [same] at sleeps ⊢
            rcases leaves.awake with unchanged | woken
            · rw [← unchanged]
              exact sleeps
            · rw [woken] at sleeps
              exact absurd sleeps (by simp)
          · rw [← leaves.asleep other same]
            exact sleeps
        obtain ⟨here, notifying, awake⟩ := inv.asleep slept
        rw [leaves.disk, leaves.log, leaves.asking]
        refine ⟨here, notifying, awake.imp_right (fun resting marks owed => ?_)⟩
        rcases leaves.owing inv owed with ⟨rfl, owes⟩ | ⟨owes, nothing⟩
        · exact (resting _ owes).leave
        · rw [nothing, Disk.leave_none]
          exact resting marks owes }
  step := by
    refine ⟨?_, ?_, .inl (by rw [leaves.disk]; rfl)⟩
    · rw [leaves.log]
      exact fun {index} here => ⟨index, here, Nat.le_refl _⟩
    · rw [leaves.log]
      exact id
  rely := by
    intro other distinct
    refine ⟨?_, ?_, leaves.crit_other distinct, leaves.marks_other distinct, ?_, ?_,
      .inl (leaves.asleep other distinct), ?_, ?_, leaves.undisturbed inv distinct⟩
    · rw [leaves.disk]
      exact Disk.evolves_leave _ _
    · exact fun fd descriptor own => ⟨leaves.fewer, leaves.fds (own ▸ distinct)⟩
    · rw [leaves.log]
    · rw [leaves.asking]
    · rw [leaves.now]
      exact UInt64.le_refl _
    · rw [leaves.disk]
      exact id

end Leaves

theorem guarantee_crash (inv : Inv before) :
    channel.Guarantee thread before (crash thread before) := by
  refine Leaves.guarantee ⟨rfl, rfl, rfl, rfl, rfl, rfl, ?_, .inr ?_, ?_, ?_, .inl rfl⟩ inv
  · exact fun other distinct => Function.update_of_ne distinct _ _
  · exact Function.update_self _ _ _
  · intro fd descriptor opened
    exact (Option.filter_eq_some_iff.mp opened).1
  · intro fd descriptor foreign opened
    exact Option.filter_eq_some_iff.mpr ⟨opened, by simpa using foreign⟩

end PsMsgr
