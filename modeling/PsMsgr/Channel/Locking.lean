import PsMsgr.Channel.Rules
import PsMsgr.State.Lock

namespace PsMsgr

open Effect Discipline

variable {thread : Tid} {fd : Fd} {ino : Ino} {before after : World}

/-- An assertion about the files and the thread's own notes, which work on the lock does
not touch. -/
structure Frame (thread : Tid) (frame : World → Prop) : Prop where
  stable : channel.Stable thread frame
  depends : ∀ {before after : World}, after.disk = before.disk →
    after.log thread = before.log thread → after.asking thread = before.asking thread →
    frame before → frame after

theorem Unpublished.frame : Frame thread (Unpublished thread) where
  stable := Unpublished.stable
  depends := fun disk _ _ unpublished => by
    unfold Unpublished
    rw [disk]
    exact unpublished

theorem Locks.frame {frame : World → Prop} (locks : Locks thread before after)
    (framed : Frame thread frame) (holds : frame before) : frame after :=
  framed.depends locks.disk (by rw [locks.log]) (by rw [locks.asking]) holds

theorem owing_of_crit {marks : Marks} (crit : after.crit = before.crit)
    (same : after.marks = before.marks) : after.Owing marks → before.Owing marks := by
  unfold World.Owing
  rw [crit, same]
  exact id

theorem locks_open (lock : Option Ino) (ino : Ino) (inv : Inv before) (outside : Outside thread before)
    (unused : before.fds fd = none) (kept : lock = before.lock ∨ before.lock = none) :
    let after := { before.setFd fd (some ⟨thread, ino, false⟩) with lock := lock }
    Locks thread before after ∧ Opened thread fd ino false after := by
  intro after
  have other : ∀ {fd'} {descriptor : Descriptor}, descriptor.locked = true ∨ descriptor.owner ≠ thread →
      (after.fds fd' = some descriptor ↔ before.fds fd' = some descriptor) := by
    intro fd' descriptor different
    change Function.update before.fds fd _ fd' = some descriptor ↔ _
    by_cases same : fd' = fd
    · subst fd'
      rw [Function.update_self, unused]
      constructor
      · intro opened
        rw [← Option.some.inj opened] at different
        simp at different
      · exact fun absent => nomatch absent
    · rw [Function.update_of_ne same]
  have named : ∀ {thread'}, before.crit thread' ≠ none → lock = before.lock := by
    intro thread' within
    obtain ⟨fd', inside⟩ := Option.ne_none_iff_exists'.mp within
    obtain ⟨ino', -, locked⟩ := inv.held inside
    rcases kept with same | absent
    · exact same
    · rw [locked] at absent
      exact nomatch absent
  refine ⟨⟨rfl, rfl, rfl, rfl, rfl, rfl, ?_, fun _ _ => rfl, fun _ _ within => named within, ?_, ?_,
    inv.outside, owing_of_crit rfl rfl⟩, outside.crit, outside.asleep, ?_, ?_⟩
  · exact fun fd' descriptor foreign => other (.inr foreign)
  · intro thread' fd' within
    obtain ⟨ino', opened, locked⟩ := inv.held within
    refine ⟨ino', (other (.inl rfl)).mpr opened, ?_⟩
    have within' : before.crit thread' ≠ none := by
      intro out
      exact nomatch within.symm.trans out
    exact (named within').trans locked
  · intro fd' fd'' descriptor descriptor' opened opened' locked locked'
    exact inv.locked ((other (.inl locked)).mp opened) ((other (.inl locked')).mp opened') locked locked'
  · exact Function.update_self _ _ _
  · intro fd' descriptor opened own
    by_cases same : fd' = fd
    · exact same
    · change Function.update before.fds fd _ fd' = some descriptor at opened
      rw [Function.update_of_ne same] at opened
      exact absurd own (outside.fds opened)

theorem locks_setLock (inv : Inv before) (opened : Opened thread fd ino false before)
    (free : ∀ other held, other ≠ fd → before.fds other = some held → held.ino = ino →
      held.locked = false) :
    let after := before.setFd fd (some ⟨thread, ino, true⟩)
    Locks thread before after ∧ Opened thread fd ino true after := by
  intro after
  have elsewhere : ∀ {fd'}, fd' ≠ fd → after.fds fd' = before.fds fd' :=
    fun distinct => Function.update_of_ne distinct _ _
  have here : after.fds fd = some ⟨thread, ino, true⟩ := Function.update_self _ _ _
  refine ⟨⟨rfl, rfl, rfl, rfl, rfl, rfl, ?_, fun _ _ => rfl, fun _ _ _ => rfl, ?_, ?_, inv.outside,
    owing_of_crit rfl rfl⟩, opened.crit, opened.asleep, here, ?_⟩
  · intro fd' descriptor foreign
    by_cases same : fd' = fd
    · subst fd'
      rw [here, opened.opened, Option.some.injEq, Option.some.injEq]
      constructor
      · rintro rfl
        exact absurd rfl foreign
      · rintro rfl
        exact absurd rfl foreign
    · rw [elsewhere same]
  · intro thread' fd' within
    obtain ⟨ino', held, locked⟩ := inv.held within
    have distinct : fd' ≠ fd := by
      rintro rfl
      rw [opened.opened, Option.some.injEq, Descriptor.mk.injEq] at held
      exact nomatch held.2.2
    exact ⟨ino', (elsewhere distinct).trans held, locked⟩
  · intro fd' fd'' descriptor descriptor' held held' locked locked' sameIno
    by_cases first : fd' = fd
    · by_cases second : fd'' = fd
      · rw [first, second]
      · rw [first, here, Option.some.injEq] at held
        rw [elsewhere second] at held'
        have unlocked := free fd'' descriptor' second held' (by rw [← sameIno, ← held])
        rw [locked'] at unlocked
        exact nomatch unlocked
    · rw [elsewhere first] at held
      by_cases second : fd'' = fd
      · rw [second, here, Option.some.injEq] at held'
        have unlocked := free fd' descriptor first held (by rw [sameIno, ← held'])
        rw [locked] at unlocked
        exact nomatch unlocked
      · rw [elsewhere second] at held'
        exact inv.locked held held' locked locked' sameIno
  · intro fd' descriptor held own
    by_cases same : fd' = fd
    · exact same
    · rw [elsewhere same] at held
      exact opened.fds held own

theorem locks_enter (inv : Inv before) (opened : Opened thread fd ino true before)
    (named : before.lock = some ino) :
    Locks thread before { before with crit := Function.update before.crit thread (some fd) } := by
  have nobody : ∀ other, before.crit other = none := by
    intro other
    cases within : before.crit other with
    | none => rfl
    | some fd' =>
        obtain ⟨ino', held, locked⟩ := inv.held within
        have same : ino' = ino := Option.some.inj (locked.symm.trans named)
        have sameFd := inv.locked held opened.opened rfl rfl same
        rw [sameFd, opened.opened, Option.some.injEq, Descriptor.mk.injEq] at held
        rw [← held.1, opened.crit] at within
        exact nomatch within
  have crit : ∀ {other}, other ≠ thread →
      Function.update before.crit thread (some fd) other = none :=
    fun distinct => (Function.update_of_ne distinct _ _).trans (nobody _)
  refine ⟨rfl, rfl, rfl, rfl, rfl, rfl, fun _ _ _ => Iff.rfl,
    fun _ distinct => Function.update_of_ne distinct _ _, fun _ _ _ => rfl, ?_, inv.locked,
    fun {other} _ => inv.outside (nobody other), ?_⟩
  · intro other fd' within
    by_cases same : other = thread
    · subst other
      change Function.update before.crit thread (some fd) thread = some fd' at within
      rw [Function.update_self, Option.some.injEq] at within
      exact ⟨ino, within ▸ opened.opened, named⟩
    · change Function.update before.crit thread (some fd) other = some fd' at within
      rw [crit same] at within
      exact nomatch within
  · intro marks owed
    refine .inr ⟨nobody, ?_⟩
    rcases owed with ⟨other, _, owes⟩ | ⟨_, none⟩
    · exact owes.symm.trans (inv.outside (nobody other))
    · exact none

theorem closed_fds {world : World} {descriptor : Descriptor} (opened : world.fds fd = some descriptor) :
    (∀ {fd' other}, (world.setFd fd none).fds fd' = some other →
      fd' ≠ fd ∧ world.fds fd' = some other) ∧
    (∀ {fd' other}, other.owner ≠ descriptor.owner → world.fds fd' = some other →
      (world.setFd fd none).fds fd' = some other) := by
  have elsewhere : ∀ {fd'}, fd' ≠ fd → (world.setFd fd none).fds fd' = world.fds fd' :=
    fun distinct => Function.update_of_ne distinct _ _
  have here : (world.setFd fd none).fds fd = none := Function.update_self _ _ _
  constructor
  · intro fd' other held
    by_cases same : fd' = fd
    · rw [same, here] at held
      exact nomatch held
    · exact ⟨same, elsewhere same ▸ held⟩
  · intro fd' other foreign held
    by_cases same : fd' = fd
    · rw [same, opened, Option.some.injEq] at held
      rw [← held] at foreign
      exact absurd rfl foreign
    · exact (elsewhere same).trans held

theorem locks_close {locked : Bool} (inv : Inv before) (opened : Opened thread fd ino locked before) :
    Locks thread before (before.setFd fd none) ∧ Outside thread (before.setFd fd none) := by
  obtain ⟨fewer, kept⟩ := closed_fds opened.opened
  refine ⟨⟨rfl, rfl, rfl, rfl, rfl, rfl, ?_, fun _ _ => rfl, fun _ _ _ => rfl, ?_, ?_, inv.outside,
    owing_of_crit rfl rfl⟩, opened.crit, opened.asleep, ?_⟩
  · exact fun fd' descriptor foreign => ⟨fun held => (fewer held).2, kept foreign⟩
  · intro other fd' within
    obtain ⟨ino', held, named⟩ := inv.held within
    have foreign : other ≠ thread := by
      rintro rfl
      exact nomatch within.symm.trans opened.crit
    exact ⟨ino', kept foreign held, named⟩
  · exact fun held held' => inv.locked (fewer held).2 (fewer held').2
  · intro fd' descriptor held own
    exact (fewer held).1 (opened.fds (fewer held).2 own)

/-- The thread has the lock file open. -/
def Held (thread : Tid) (fd : Fd) (locked : Bool) (world : World) : Prop :=
  ∃ ino, Opened thread fd ino locked world

theorem Held.stable {locked : Bool} : channel.Stable thread (Held thread fd locked) :=
  stable_exists (fun _ => Opened.stable)

/-- In the critical section, with nothing left to do. -/
def Entered (thread : Tid) (fd : Fd) : World → Prop :=
  Inside thread fd (fun _ marks _ => marks = Marks.none)

theorem Locks.enter (inv : Inv before) (opened : Opened thread fd ino true before)
    (named : before.lock = some ino) :
    let after := { before with crit := Function.update before.crit thread (some fd) }
    Locks thread before after ∧ Entered thread fd after :=
  ⟨locks_enter inv opened named, Function.update_self _ _ _, opened.asleep, opened.fds,
    inv.outside opened.crit⟩

theorem leaves_close {assertion : Disk → Marks → Option Nat → Prop} (inv : Inv before)
    (inside : Inside thread fd assertion before) (reply : (Sys.closeLock fd).Reply)
    (executed : exec thread (.closeLock fd) before reply after) :
    Leaves thread before after ∧ Outside thread after := by
  change after = (if before.crit thread = some fd then before.leave thread else before).setFd fd
    none at executed
  rw [if_pos inside.crit] at executed
  subst executed
  obtain ⟨ino, opened, -⟩ := inv.held inside.crit
  obtain ⟨fewer, kept⟩ := closed_fds (show (before.leave thread).fds fd = _ from opened)
  refine ⟨⟨rfl, rfl, rfl, rfl, rfl, rfl, fun _ _ => rfl, .inl rfl, fun held => (fewer held).2,
    kept, .inl rfl⟩, Function.update_self _ _ _, inside.asleep, ?_⟩
  intro fd' descriptor held own
  exact (fewer held).1 (inside.fds (fewer held).2 own)

theorem leaves_unlink {assertion : Disk → Marks → Option Nat → Prop} (inv : Inv before)
    (inside : Inside thread fd assertion before) :
    Leaves thread before { before.leave thread with lock := none } ∧
      Held thread fd true { before.leave thread with lock := none } := by
  obtain ⟨ino, opened, -⟩ := inv.held inside.crit
  exact ⟨⟨rfl, rfl, rfl, rfl, rfl, rfl, fun _ _ => rfl, .inl rfl, id, fun _ held => held,
    .inr inside.ne_none⟩, ino, Function.update_self _ _ _, inside.asleep, opened, inside.fds⟩

section

variable {frame : World → Prop} (framed : Frame thread frame)

include framed

theorem triple_openLockNew :
    channel.Triple thread (fun world => Outside thread world ∧ frame world) (call .openLockNew)
      (fun reply world => match reply with
        | .ok fd => Held thread fd false world ∧ frame world
        | .error _ => Outside thread world ∧ frame world) := by
  refine Triple.call ?_ ?_
  · intro reply
    cases reply with
    | ok fd => exact stable_and Held.stable framed.stable
    | error err => exact stable_and Outside.stable framed.stable
  · intro state reply after inv holds executed
    obtain ⟨outside, holds⟩ := holds
    rcases executed with ⟨-, rfl, rfl⟩ | ⟨absent, fd, ino, unused, -, rfl, rfl⟩ | ⟨rfl, rfl⟩
    · exact ⟨guarantee_same inv, outside, holds⟩
    · obtain ⟨locks, opened⟩ := locks_open (some ino) ino inv outside unused (.inr absent)
      exact ⟨locks.guarantee inv, ⟨ino, opened⟩, locks.frame framed holds⟩
    · exact ⟨guarantee_same inv, outside, holds⟩

theorem triple_openLock :
    channel.Triple thread (fun world => Outside thread world ∧ frame world) (call .openLock)
      (fun reply world => match reply with
        | .ok fd => Held thread fd false world ∧ frame world
        | .error _ => Outside thread world ∧ frame world) := by
  refine Triple.call ?_ ?_
  · intro reply
    cases reply with
    | ok fd => exact stable_and Held.stable framed.stable
    | error err => exact stable_and Outside.stable framed.stable
  · intro state reply after inv holds executed
    obtain ⟨outside, holds⟩ := holds
    rcases executed with ⟨-, rfl, rfl⟩ | ⟨ino, fd, -, unused, rfl, rfl⟩ | ⟨rfl, rfl⟩
    · exact ⟨guarantee_same inv, outside, holds⟩
    · obtain ⟨locks, opened⟩ := locks_open state.lock ino inv outside unused (.inl rfl)
      exact ⟨locks.guarantee inv, ⟨ino, opened⟩, locks.frame framed holds⟩
    · exact ⟨guarantee_same inv, outside, holds⟩

theorem triple_setLock :
    channel.Triple thread (fun world => Held thread fd false world ∧ frame world)
      (call (.setLock fd))
      (fun reply world => match reply with
        | .ok _ => Held thread fd true world ∧ frame world
        | .error _ => Held thread fd false world ∧ frame world) := by
  refine Triple.call ?_ ?_
  · intro reply
    cases reply with
    | ok _ => exact stable_and Held.stable framed.stable
    | error err => exact stable_and Held.stable framed.stable
  · intro state reply after inv holds executed
    obtain ⟨⟨ino, opened⟩, holds⟩ := holds
    rcases executed with ⟨descriptor, here, free, rfl, rfl⟩ |
      ⟨_, _, _, _, _, _, _, _, rfl | rfl, rfl⟩ | ⟨rfl, rfl⟩
    · rw [opened.opened, Option.some.injEq] at here
      subst here
      obtain ⟨locks, opened⟩ := locks_setLock inv opened free
      exact ⟨locks.guarantee inv, ⟨ino, opened⟩, locks.frame framed holds⟩
    · exact ⟨guarantee_same inv, ⟨ino, opened⟩, holds⟩
    · exact ⟨guarantee_same inv, ⟨ino, opened⟩, holds⟩
    · exact ⟨guarantee_same inv, ⟨ino, opened⟩, holds⟩

theorem triple_fstatLock {locked : Bool} :
    channel.Triple thread (fun world => Held thread fd locked world ∧ frame world)
      (call (.fstatLock fd))
      (fun reply world => match reply with
        | .ok ino => Opened thread fd ino locked world ∧ frame world
        | .error _ => Held thread fd locked world ∧ frame world) := by
  refine triple_passive trivial ?_ ?_
  · intro reply
    cases reply with
    | ok ino => exact stable_and Opened.stable framed.stable
    | error err => exact stable_and Held.stable framed.stable
  · intro world reply _ holds executed
    obtain ⟨⟨ino, opened⟩, holds⟩ := holds
    rcases executed with ⟨descriptor, here, rfl, -⟩ | ⟨rfl, -⟩
    · rw [opened.opened, Option.some.injEq] at here
      subst here
      exact ⟨opened, holds⟩
    · exact ⟨⟨ino, opened⟩, holds⟩

/-- The instant at which the critical section begins. -/
theorem triple_lstatLock :
    channel.Triple thread (fun world => Opened thread fd ino true world ∧ frame world)
      (call .lstatLock)
      (fun reply world =>
        (reply = .ok ino ∧ Entered thread fd world ∧ frame world) ∨
        (reply ≠ .ok ino ∧ Held thread fd true world ∧ frame world)) := by
  refine Triple.call ?_ ?_
  · exact fun reply => stable_or
      (stable_and stable_pure (stable_and Inside.stable framed.stable))
      (stable_and stable_pure (stable_and Held.stable framed.stable))
  · intro state reply after inv holds executed
    obtain ⟨opened, holds⟩ := holds
    rcases executed with ⟨-, rfl, rfl⟩ | ⟨named, lock, rfl, entered⟩ | ⟨rfl, rfl⟩
    · exact ⟨guarantee_same inv, .inr ⟨nofun, ⟨ino, opened⟩, holds⟩⟩
    · rcases entered with ⟨fd', locked, rfl⟩ | ⟨unlocked, rfl⟩
      · have sameFd := opened.fds locked rfl
        subst sameFd
        rw [opened.opened, Option.some.injEq, Descriptor.mk.injEq] at locked
        have same := locked.2.1
        subst same
        obtain ⟨locks, entered⟩ := Locks.enter inv opened lock
        exact ⟨locks.guarantee inv, .inl ⟨rfl, entered, locks.frame framed holds⟩⟩
      · refine ⟨guarantee_same inv, .inr ⟨?_, ⟨ino, opened⟩, holds⟩⟩
        intro same
        obtain rfl := Except.ok.inj same
        exact unlocked fd opened.opened
    · exact ⟨guarantee_same inv, .inr ⟨nofun, ⟨ino, opened⟩, holds⟩⟩

theorem triple_lstatLock_unlocked :
    channel.Triple thread (fun world => Held thread fd false world ∧ frame world)
      (call .lstatLock) (fun _ world => Held thread fd false world ∧ frame world) := by
  refine Triple.call (fun _ => stable_and Held.stable framed.stable) ?_
  intro state reply after inv holds executed
  obtain ⟨⟨ino, opened⟩, holds⟩ := holds
  rcases executed with ⟨-, rfl, rfl⟩ | ⟨named, lock, rfl, entered⟩ | ⟨rfl, rfl⟩
  · exact ⟨guarantee_same inv, ⟨ino, opened⟩, holds⟩
  · rcases entered with ⟨fd', locked, rfl⟩ | ⟨-, rfl⟩
    · have sameFd := opened.fds locked rfl
      subst sameFd
      rw [opened.opened, Option.some.injEq, Descriptor.mk.injEq] at locked
      exact nomatch locked.2.2
    · exact ⟨guarantee_same inv, ⟨ino, opened⟩, holds⟩
  · exact ⟨guarantee_same inv, ⟨ino, opened⟩, holds⟩

theorem triple_closeLock {locked : Bool} :
    channel.Triple thread (fun world => Held thread fd locked world ∧ frame world)
      (call (.closeLock fd)) (fun _ world => Outside thread world ∧ frame world) := by
  refine Triple.call (fun _ => stable_and Outside.stable framed.stable) ?_
  intro state reply after inv holds executed
  obtain ⟨⟨ino, opened⟩, holds⟩ := holds
  have out : ¬ state.crit thread = some fd := by
    rw [opened.crit]
    exact nofun
  change after = (if state.crit thread = some fd then state.leave thread else state).setFd fd none
    at executed
  rw [if_neg out] at executed
  subst executed
  obtain ⟨locks, outside⟩ := locks_close inv opened
  exact ⟨locks.guarantee inv, outside, locks.frame framed holds⟩

/-- Exactly a positive answer to a lock holder begins the critical section. -/
theorem triple_namesInode :
    channel.Triple thread (fun world => Held thread fd true world ∧ frame world) (namesInode fd)
      (fun result world => match result with
        | .ok true => Entered thread fd world ∧ frame world
        | _ => Held thread fd true world ∧ frame world) := by
  unfold namesInode
  refine (triple_fstatLock framed).bind fun opened => ?_
  cases opened with
  | error err => exact Triple.done (fun _ holds => holds)
  | ok ino =>
      refine (triple_lstatLock framed).bind fun named => ?_
      intro world inv holds
      rcases holds with ⟨rfl, entered⟩ | ⟨different, held⟩
      · simp only [beq_self_eq_true]
        exact ⟨inv, entered⟩
      · cases named with
        | error err => cases err <;> exact ⟨inv, held⟩
        | ok other =>
            have apart : (ino == other) = false := by
              rw [beq_eq_false_iff_ne]
              rintro rfl
              exact different rfl
            simp only [apart]
            exact ⟨inv, held⟩

theorem triple_namesInode_unlocked :
    channel.Triple thread (fun world => Held thread fd false world ∧ frame world) (namesInode fd)
      (fun _ world => Held thread fd false world ∧ frame world) := by
  unfold namesInode
  refine (triple_fstatLock framed).bind fun opened => ?_
  cases opened with
  | error err => exact Triple.done (fun _ holds => holds)
  | ok ino =>
      refine Triple.strengthen ((triple_lstatLock_unlocked framed).bind fun named => ?_)
        (fun _ holds => ⟨⟨ino, holds.1⟩, holds.2⟩)
      cases named with
      | error err => cases err <;> exact Triple.done (fun _ holds => holds)
      | ok other => exact Triple.done (fun _ holds => holds)

/-- What opening and locking the lock file comes to. -/
def LockResult (thread : Tid) (frame : World → Prop) (result : Except Code Fd) (world : World) :
    Prop :=
  match result with
  | .ok fd => Entered thread fd world ∧ frame world
  | .error _ => Outside thread world ∧ frame world

theorem triple_lockOpened {again : Prog (Except Code Fd)}
    (retried : channel.Triple thread (fun world => Outside thread world ∧ frame world) again
      (LockResult thread frame)) :
    channel.Triple thread (fun world => Held thread fd false world ∧ frame world)
      (lockOpened again fd) (LockResult thread frame) := by
  unfold lockOpened
  refine (triple_setLock framed).bind fun reply => ?_
  cases reply with
  | error err =>
      cases err with
      | eagain | eacces =>
          refine (triple_namesInode_unlocked framed).bind fun current => ?_
          refine (triple_closeLock framed).bind fun _ => ?_
          cases current with
          | error err => exact Triple.done (fun _ holds => holds)
          | ok same =>
              cases same with
              | true => exact Triple.done (fun _ holds => holds)
              | false => exact retried
      | _ => exact (triple_closeLock framed).bind fun _ => Triple.done (fun _ holds => holds)
  | ok _ =>
      refine (triple_namesInode framed).bind fun current => ?_
      cases current with
      | error err => exact (triple_closeLock framed).bind fun _ => Triple.done (fun _ holds => holds)
      | ok same =>
          cases same with
          | true => exact Triple.done (fun _ holds => holds)
          | false => exact (triple_closeLock framed).bind fun _ => retried

/-- By induction on the turns of the loop: each turn succeeds, fails with nothing held, or
starts over with nothing held. -/
theorem triple_lockChannel (mode : UInt32) (turns : Nat) :
    channel.Triple thread (fun world => Outside thread world ∧ frame world)
      (lockChannel mode turns) (LockResult thread frame) := by
  induction turns with
  | zero => exact triple_spin.bind fun reply => reply.elim
  | succ turns ih =>
      unfold lockChannel
      refine (triple_openLockNew framed).bind fun created => ?_
      cases created with
      | ok fd =>
          refine (triple_skip (.fchmodLock fd mode) trivial
            (stable_and Held.stable framed.stable)).bind fun changed => ?_
          cases changed with
          | error err =>
              exact (triple_closeLock framed).bind fun _ => Triple.done (fun _ holds => holds)
          | ok _ => exact triple_lockOpened framed ih
      | error err =>
          cases err
          case eexist =>
            refine (triple_openLock framed).bind fun opened => ?_
            cases opened with
            | ok fd => exact triple_lockOpened framed ih
            | error err =>
                cases err
                case enoent => exact ih
                all_goals exact Triple.done (fun _ holds => holds)
          all_goals exact Triple.done (fun _ holds => holds)

end

theorem Leaves.unpublished (leaves : Leaves thread before after)
    (unpublished : Unpublished thread before) : Unpublished thread after := by
  unfold Unpublished
  rw [leaves.disk]
  exact unpublished

theorem triple_exit {assertion : Disk → Marks → Option Nat → Prop} :
    channel.Triple thread (Inside thread fd assertion) (call (.closeLock fd))
      (fun _ => Outside thread) := by
  refine Triple.call (fun _ => Outside.stable) ?_
  intro state reply after inv inside executed
  obtain ⟨leaves, outside⟩ := leaves_close inv inside reply executed
  exact ⟨leaves.guarantee inv, outside⟩

/-- A thread that has published nothing in its critical section leaves it as it came. -/
theorem triple_exitUnpublished {assertion : Disk → Marks → Option Nat → Prop}
    (unpublished : ∀ {disk marks found}, assertion disk marks found →
      ∀ publish ∈ disk.publishes, publish.writer ≠ thread) :
    channel.Triple thread (Inside thread fd assertion) (call (.closeLock fd))
      (fun _ world => Outside thread world ∧ Unpublished thread world) := by
  refine Triple.call (fun _ => stable_and Outside.stable Unpublished.stable) ?_
  intro state reply after inv inside executed
  obtain ⟨leaves, outside⟩ := leaves_close inv inside reply executed
  exact ⟨leaves.guarantee inv, outside, leaves.unpublished (unpublished inside.holds)⟩

end PsMsgr
