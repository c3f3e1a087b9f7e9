import PsMsgr.State.Unlink
import PsMsgr.Channel.Opening

namespace PsMsgr

open Effect Discipline Data

variable {thread : Tid} {fd : Fd} {file : FileId} {before : World}

/-- In the critical section, with nothing published in it. -/
def Unsaid (thread : Tid) : Assertion :=
  fun disk _ _ => ∀ publish ∈ disk.publishes, publish.writer ≠ thread

theorem guarantee_unlinkData (inv : Inv before) (inside : before.crit thread ≠ none)
    (owed : before.marks thread = Marks.none) :
    channel.Guarantee thread before
      (before.own thread { before.disk with data := none } ⟨none, before.disk.data⟩) := by
  obtain ⟨inv', evolves⟩ := Disk.unlink_step inv.disk
  refine guarantee_own inv inside inv' evolves (.inl rfl) ?_ ?_
  · rw [owed]
    intro settled
    refine ⟨settled.counted, fun {other} present _ => ?_⟩
    by_cases current : before.disk.data = some other
    · exact .inr (.inr current)
    · rcases settled.displaced present current with retired | abandoned | displacing
      · exact .inl retired
      · exact .inr (.inl abandoned)
      · exact nomatch displacing
  · rw [owed]
    exact fun _ _ calm => calm

theorem triple_unlinkData :
    channel.Triple thread (Inside thread fd (Found thread file)) (call .unlinkData)
      (fun reply => Inside thread fd (fun disk marks found =>
        Unsaid thread disk marks found ∧ (reply = .ok () → marks = ⟨none, some file⟩ ∧
          disk.installed file = true ∧ disk.data = none) ∧
          (∀ err, reply = .error err → err = .other))) := by
  refine Triple.call (fun _ => Inside.stable) ?_
  intro state reply later inv inside executed
  obtain ⟨starting, named, -⟩ := inside.holds
  rcases executed with ⟨-, rfl, rfl⟩ | ⟨absent, -, -⟩ | ⟨rfl, rfl⟩
  · have guarantee := guarantee_unlinkData inv inside.ne_none starting.idle
    rw [starting.idle]
    refine ⟨guarantee, inside.own ⟨starting.unpublished, fun _ => ⟨?_, ?_, rfl⟩, nofun⟩⟩
    · rw [named]
      rfl
    · exact (inv.disk.data named).1
  · exact nomatch absent.symm.trans named
  · exact ⟨guarantee_same inv, inside.imp (fun _ found => ⟨found.starting.unpublished, nofun,
      fun _ same => (Except.error.inj same).symm⟩) inv⟩

/-- The data file's part of an unlink is done: unless a call has failed, the data path is gone. -/
def Cleared (thread : Tid) (code : Code) : Assertion :=
  fun disk marks found => Unsaid thread disk marks found ∧ (code ≠ .sys → disk.data = none)

theorem Unsaid.closed : Closed (fun disk _ =>
    (∀ publish ∈ disk.publishes, publish.writer ≠ thread) ∧ disk.data = none) := by
  intro disk after found _ kept unsaid
  rw [kept.publishes, kept.data]
  exact unsaid

theorem triple_unlinkMapped (mapped : Except Errno Unit) :
    channel.Triple thread (Inside thread fd (Found thread file)) (unlinkMapped file mapped)
      (fun code => Inside thread fd (Cleared thread code)) := by
  unfold unlinkMapped
  refine (triple_skip (.close file) trivial Inside.stable).bind fun _ => ?_
  refine triple_unlinkData.bind fun removed => ?_
  have unmapped : ∀ {rc : Code}, channel.Triple thread (Inside thread fd (Cleared thread rc))
      (do
        call (.munmap file)
        return rc) (fun code => Inside thread fd (Cleared thread code)) :=
    (triple_skip (.munmap file) trivial Inside.stable).bind fun _ =>
      Triple.done (fun _ inside => inside)
  cases removed with
  | error err =>
      have failed : ∀ {disk marks found}, Unsaid thread disk marks found ∧
          ((.error err : Except Errno Unit) = .ok () → marks = ⟨none, some file⟩ ∧
            disk.installed file = true ∧ disk.data = none) ∧
          (∀ found, (.error err : Except Errno Unit) = .error found → found = .other) →
          unlinkCode (.error err) = .sys ∧ Cleared thread .sys disk marks found := by
        rintro disk marks found ⟨unsaid, -, failing⟩
        rw [failing err rfl]
        exact ⟨rfl, unsaid, fun other => absurd rfl other⟩
      refine triple_imp (triple_of_fact fun sys => ?_) (fun _ holds => failed holds)
      have other : ¬ unlinkCode (.error err) = .ok := by rw [sys]; nofun
      cases mapped with
      | error err =>
          rw [sys]
          exact Triple.done (fun _ inside => inside)
      | ok _ =>
          simp only [if_neg other]
          rw [sys]
          exact unmapped
  | ok _ =>
      cases mapped with
      | error err =>
          exact Triple.done (fun inv inside =>
            inside.imp (fun _ holds => ⟨holds.1, fun _ => (holds.2.1 rfl).2.2⟩) inv)
      | ok _ =>
          have retired : channel.Triple thread _ (retire file)
              (fun _ => Inside thread fd (fun disk marks _ => marks = Marks.none ∧
                (∀ publish ∈ disk.publishes, publish.writer ≠ thread) ∧ disk.data = none)) :=
            triple_retire (@Unsaid.closed thread)
          refine triple_imp (retired.bind fun _ => triple_imp unmapped
            (fun _ holds => ⟨holds.2.1, fun _ => holds.2.2⟩)) ?_
          rintro disk marks found - ⟨unsaid, displaced, -⟩
          obtain ⟨owed, present, gone⟩ := displaced rfl
          exact ⟨owed, present, by rw [gone]; nofun, unsaid, gone⟩

theorem triple_unlinkDataFile :
    channel.Triple thread (Inside thread fd (Starting thread)) unlinkDataFile
      (fun code => Inside thread fd (Cleared thread code)) := by
  unfold unlinkDataFile
  refine triple_openDataCall.bind fun reply => ?_
  cases reply with
  | error err =>
      cases err
      case enoent =>
        exact Triple.done (fun inv inside => inside.imp
          (fun _ holds => ⟨holds.1.unpublished, fun _ => (holds.2 rfl).1⟩) inv)
      all_goals exact Triple.done (fun inv inside => inside.imp
        (fun _ holds => ⟨holds.1.unpublished, fun other => absurd rfl other⟩) inv)
  | ok file =>
      refine triple_of_found fun {h g size} => ?_
      refine (triple_readHeader Inside.stable).bind fun result => ?_
      refine Triple.strengthen (?_ : channel.Triple thread (Inside thread fd (Found thread file)) _ _)
        (fun inv holds => holds.1.1.imp (fun _ examined => examined.found) inv)
      dsimp only
      split
      · exact (triple_skip (.mmap file _) trivial Inside.stable).bind fun mapped =>
          triple_unlinkMapped mapped
      · exact triple_unlinkMapped _

/-- Removing the lock path ends the critical section, with the lock still held. -/
theorem triple_unlinkLock :
    channel.Triple thread (Inside thread fd (Unsaid thread)) (call .unlinkLock)
      (fun reply => match reply with
        | .ok _ => fun world => Held thread fd true world ∧ Unpublished thread world
        | .error _ => Inside thread fd (Unsaid thread)) := by
  refine Triple.call ?_ ?_
  · intro reply
    cases reply with
    | ok _ => exact stable_and Held.stable Unpublished.stable
    | error err => exact Inside.stable
  · intro state reply later inv inside executed
    rcases executed with ⟨-, rfl, rfl⟩ | ⟨-, rfl, rfl⟩ | ⟨rfl, rfl⟩
    · obtain ⟨leaves, held⟩ := leaves_unlink inv inside
      exact ⟨leaves.guarantee inv, held, leaves.unpublished inside.holds⟩
    · exact ⟨guarantee_same inv, inside⟩
    · exact ⟨guarantee_same inv, inside⟩

theorem triple_psmsgrStateUnlink {environment : Option (List Char)} {turns : Nat}
    {name dir : Option (List Char)} :
    channel.Triple thread (fun world => Outside thread world ∧ Unpublished thread world)
      (psmsgrStateUnlink environment turns name dir)
      (fun _ world => Outside thread world ∧ Unpublished thread world) := by
  have idle : channel.Stable thread (fun world => Outside thread world ∧ Unpublished thread world) :=
    stable_and Outside.stable Unpublished.stable
  have left : ∀ {fd : Fd} {rc : Code}, channel.Triple thread (Inside thread fd (Unsaid thread))
      (do
        call (.closeLock fd)
        return rc)
      (fun _ world => Outside thread world ∧ Unpublished thread world) :=
    (triple_exitUnpublished (fun unsaid => unsaid)).bind fun _ => Triple.done (fun _ holds => holds)
  unfold psmsgrStateUnlink
  split
  · exact Triple.done (fun _ holds => holds)
  refine (triple_pathsInit idle).bind fun paths => ?_
  cases paths with
  | error code => exact Triple.done (fun _ holds => holds)
  | ok p =>
      refine (triple_lockChannel Unpublished.frame _ turns).bind fun locked => ?_
      cases locked with
      | error code => exact Triple.done (fun _ holds => holds)
      | ok lockFd =>
          refine Triple.strengthen
            (?_ : channel.Triple thread (Inside thread lockFd (Starting thread)) _ _)
            (fun _ holds => ⟨holds.1.crit, holds.1.asleep, holds.1.fds, holds.1.holds, holds.2⟩)
          refine (triple_removeStaleTmp p ?_).bind fun _ => ?_
          · exact fun starting => ⟨starting.idle, starting.unpublished⟩
          refine triple_unlinkDataFile.bind fun rc => ?_
          refine Triple.strengthen (?_ : channel.Triple thread (Inside thread lockFd (Unsaid thread)) _ _)
            (fun inv inside => inside.imp (fun _ removed => removed.1) inv)
          dsimp only
          split
          · refine triple_unlinkLock.bind fun removed => ?_
            cases removed with
            | ok _ =>
                exact (triple_closeLock Unpublished.frame).bind fun _ =>
                  Triple.done (fun _ holds => holds)
            | error err => cases err <;> exact left
          · exact left

end PsMsgr
