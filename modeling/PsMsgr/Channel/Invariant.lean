import PsMsgr.Effect.Interference
import PsMsgr.Channel.Image

namespace PsMsgr

open Effect Data

/-- Within one session, and from a session to the next one that finds its value,
generations follow one another. -/
structure Chained (publishes : List Publish) : Prop where
  follows : ∀ {index before after}, publishes[index]? = some before →
    publishes[index + 1]? = some after →
    before.writer = after.writer ∨ after.basis = some index →
    after.generation = nextGeneration before.generation
  /-- The publishes of a session are consecutive. -/
  session : ∀ {first index before after}, first ≤ index →
    (∃ start, publishes[first]? = some start ∧ start.writer = after.writer) →
    publishes[index]? = some before → publishes[index + 1]? = some after →
    before.writer = after.writer
  /-- The value a session found is the one right before its first publish. -/
  basis : ∀ {index publish found}, publishes[index]? = some publish →
    publish.basis = some found →
    (∀ earlier other, earlier < index → publishes[earlier]? = some other →
      other.writer ≠ publish.writer) → found + 1 = index

structure DiskInv (disk : Disk) : Prop where
  /-- The data path names the newest file, which is not retired. -/
  data : ∀ {file}, disk.data = some file → disk.installed file = true ∧ ¬ disk.Retired file ∧
    ∀ other, disk.installed other = true → other ≤ file
  fresh : ∀ {file}, disk.installed file = true → file < disk.fresh
  unused : ∀ {file}, disk.installed file = false → disk.commits file = (fun _ => 0) ∧
    disk.stores file = 0 ∧ disk.notifies file = 0
  valid : ∀ {file}, disk.installed file = true → ∃ g, (disk.image file).Valid g
  published : ∀ publish ∈ disk.publishes, disk.installed publish.file = true
  ordered : disk.publishes.Pairwise (fun earlier later => earlier.file ≤ later.file)
  chained : Chained disk.publishes

/-- How the data files may change under a thread's feet. -/
structure Disk.Evolves (before after : Disk) : Prop where
  publishes : before.publishes <+: after.publishes
  installed : ∀ {file}, before.installed file = true → after.installed file = true
  image : ∀ {file}, before.installed file = true →
    (before.image file).Evolves (after.image file)
  /-- A file taken from the data path never comes back. -/
  displaced : ∀ {file}, before.installed file = true → before.data ≠ some file →
    after.data ≠ some file
  orphaned : ∀ {file}, before.orphaned file = true → after.orphaned file = true
  abandoned : ∀ {file}, before.abandoned file = true → after.abandoned file = true

namespace Disk

variable {disk first second third : Disk} {file : FileId}

theorem Evolves.refl (disk : Disk) : disk.Evolves disk :=
  ⟨List.prefix_refl _, id, fun _ => Image.Evolves.refl _, fun _ gone => gone, id, id⟩

theorem Evolves.trans (left : first.Evolves second) (right : second.Evolves third) :
    first.Evolves third where
  publishes := left.publishes.trans right.publishes
  installed := fun here => right.installed (left.installed here)
  image := fun here => (left.image here).trans (right.image (left.installed here))
  displaced := fun here gone => right.displaced (left.installed here) (left.displaced here gone)
  orphaned := fun set => right.orphaned (left.orphaned set)
  abandoned := fun set => right.abandoned (left.abandoned set)

theorem Evolves.noNotify_iff (evolves : first.Evolves second) (here : first.installed file = true) :
    second.NoNotify file ↔ first.NoNotify file := by
  have same := Header.ofMemory_congr (evolves.image here).header
  have flags : (second.memory file).word32 Offset.configFlags =
      (first.memory file).word32 Offset.configFlags := congrArg Header.configFlags same
  unfold NoNotify
  rw [flags]

theorem Evolves.retired (evolves : first.Evolves second) (here : first.installed file = true)
    (retired : first.Retired file) : second.Retired file :=
  (evolves.image here).retired retired

end Disk

/-- The part of the invariant that depends on what the thread in the critical section
has left to do. -/
structure Disk.Settled (disk : Disk) (marks : Marks) : Prop where
  /-- Every store of `latest` or `RETIRED` is followed by one increment of `notify`. -/
  counted : ∀ {file}, disk.installed file = true → ¬ disk.NoNotify file →
    disk.orphaned file = true ∨
    (marks.unwoken ≠ some (file, false) ∧ disk.stores file = disk.notifies file) ∨
    (marks.unwoken = some (file, false) ∧ disk.stores file = disk.notifies file + 1)
  displaced : ∀ {file}, disk.installed file = true → disk.data ≠ some file →
    disk.Retired file ∨ disk.abandoned file = true ∨ marks.displacing = some file

/-- A waiter asking for news after `generation` may sleep on the file: there are none, or
it is about to be woken. -/
def Disk.Calm (disk : Disk) (marks : Marks) (file : FileId) (generation : UInt32) : Prop :=
  disk.orphaned file = true ∨ marks.unwoken.map Prod.fst = some file ∨
    (¬ disk.Retired file ∧ ∀ publish, (disk.image file).history.getLast? = some publish →
      publish.generation = generation)

/-- The marks of the thread in the critical section, or none. -/
def World.Owing (world : World) (marks : Marks) : Prop :=
  (∃ thread, world.crit thread ≠ none ∧ world.marks thread = marks) ∨
    ((∀ thread, world.crit thread = none) ∧ marks = Marks.none)

theorem World.owing_iff {world : World} {thread : Tid} {marks : Marks}
    (inside : world.crit thread ≠ none)
    (alone : ∀ other, other ≠ thread → world.crit other = none) :
    world.Owing marks ↔ world.marks thread = marks := by
  constructor
  · rintro (⟨other, within, owed⟩ | ⟨nobody, -⟩)
    · by_cases same : other = thread
      · rw [← same]
        exact owed
      · exact absurd (alone other same) within
    · exact absurd (nobody thread) inside
  · exact fun owed => .inl ⟨thread, inside, owed⟩

structure Inv (world : World) : Prop where
  /-- The lock path names the inode locked by the thread in its critical section. -/
  held : ∀ {thread fd}, world.crit thread = some fd →
    ∃ ino, world.fds fd = some ⟨thread, ino, true⟩ ∧ world.lock = some ino
  /-- An inode is locked through one descriptor at most. -/
  locked : ∀ {fd fd' descriptor descriptor'}, world.fds fd = some descriptor →
    world.fds fd' = some descriptor' → descriptor.locked = true → descriptor'.locked = true →
    descriptor.ino = descriptor'.ino → fd = fd'
  outside : ∀ {thread}, world.crit thread = none → world.marks thread = Marks.none
  disk : DiskInv world.disk
  settled : ∀ {marks}, world.Owing marks → world.disk.Settled marks
  sampled : ∀ {thread index}, (world.log thread).sampled = some index →
    index < world.disk.publishes.length
  asleep : ∀ {thread file}, world.asleep thread = some file →
    world.disk.installed file = true ∧ ¬ world.disk.NoNotify file ∧
    ((world.log thread).notifyWrapped = true ∨
      ∀ marks, world.Owing marks → world.disk.Calm marks file (world.asking thread))

/-- What the other threads may do to a thread. -/
structure Rely (thread : Tid) (before after : World) : Prop where
  disk : before.disk.Evolves after.disk
  fds : ∀ fd descriptor, descriptor.owner = thread →
    (after.fds fd = some descriptor ↔ before.fds fd = some descriptor)
  crit : after.crit thread = before.crit thread
  marks : after.marks thread = before.marks thread
  log : after.log thread = before.log thread
  asking : after.asking thread = before.asking thread
  asleep : after.asleep thread = before.asleep thread ∨ after.asleep thread = none
  now : before.now ≤ after.now
  /-- Nobody else publishes in the thread's name. -/
  unpublished : (∀ publish ∈ before.disk.publishes, publish.writer ≠ thread) →
    ∀ publish ∈ after.disk.publishes, publish.writer ≠ thread
  /-- Nobody else touches the channel while the thread is in its critical section. -/
  frozen : before.crit thread ≠ none → after.lock = before.lock ∧ after.disk = before.disk

/-- What a step of the thread itself may do. -/
structure Progress (thread : Tid) (before after : World) : Prop where
  /-- Loads of `latest` never name an older publish than before. -/
  sampled : ∀ {index}, (before.log thread).sampled = some index →
    ∃ later, (after.log thread).sampled = some later ∧ index ≤ later
  wrapped : (before.log thread).wrapped = true → (after.log thread).wrapped = true
  publishes : after.disk.publishes = before.disk.publishes ∨
    ∃ publish, publish.writer = thread ∧
      after.disk.publishes = before.disk.publishes ++ [publish]

theorem Rely.refl (thread : Tid) (world : World) : Rely thread world world where
  disk := Disk.Evolves.refl _
  fds := fun _ _ _ => Iff.rfl
  crit := rfl
  marks := rfl
  log := rfl
  asking := rfl
  asleep := .inl rfl
  now := UInt64.le_refl _
  unpublished := id
  frozen := fun _ => ⟨rfl, rfl⟩

theorem Rely.trans {thread : Tid} {first second third : World} (left : Rely thread first second)
    (right : Rely thread second third) : Rely thread first third where
  disk := left.disk.trans right.disk
  fds := fun fd descriptor own => (right.fds fd descriptor own).trans (left.fds fd descriptor own)
  crit := right.crit.trans left.crit
  marks := right.marks.trans left.marks
  log := right.log.trans left.log
  asking := right.asking.trans left.asking
  asleep := by
    rcases right.asleep with same | woken
    · rw [same]
      exact left.asleep
    · exact .inr woken
  now := UInt64.le_trans left.now right.now
  unpublished := fun absent => right.unpublished (left.unpublished absent)
  frozen := by
    intro inside
    obtain ⟨lock, disk⟩ := left.frozen inside
    obtain ⟨lock', disk'⟩ := right.frozen (by rw [left.crit]; exact inside)
    exact ⟨lock'.trans lock, disk'.trans disk⟩

/-- The rules all threads of a channel follow. -/
def channel : Discipline Sys Sys.Reply World Tid where
  exec := exec
  inv := Inv
  rely := Rely
  step := Progress
  rely_refl := Rely.refl
  rely_trans := fun _ => Rely.trans

namespace Inv

variable {world : World} {thread other : Tid} {fd : Fd} {marks : Marks}

theorem exclusive (inv : Inv world) (left : world.crit thread ≠ none)
    (right : world.crit other ≠ none) : thread = other := by
  obtain ⟨fd, inside⟩ := Option.ne_none_iff_exists'.mp left
  obtain ⟨fd', inside'⟩ := Option.ne_none_iff_exists'.mp right
  obtain ⟨ino, opened, named⟩ := inv.held inside
  obtain ⟨ino', opened', named'⟩ := inv.held inside'
  have same : ino = ino' := Option.some.inj (named.symm.trans named')
  have sameFd : fd = fd' := inv.locked opened opened' rfl rfl same
  subst sameFd
  rw [opened, Option.some.injEq, Descriptor.mk.injEq] at opened'
  exact opened'.1

theorem others_outside (inv : Inv world) (inside : world.crit thread ≠ none)
    (distinct : other ≠ thread) : world.crit other = none := by
  by_cases out : world.crit other = none
  · exact out
  · exact absurd (inv.exclusive out inside) distinct

theorem owing_iff (inv : Inv world) (inside : world.crit thread ≠ none) :
    world.Owing marks ↔ world.marks thread = marks :=
  World.owing_iff inside (fun _ distinct => inv.others_outside inside distinct)

end Inv

end PsMsgr
