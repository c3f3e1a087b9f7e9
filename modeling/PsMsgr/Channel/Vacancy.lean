import PsMsgr.Channel.Requests
import PsMsgr.Channel.Tracing

namespace PsMsgr

open Effect

/-! # When there is no value to be had

The data path comes to name a file, or nothing, at instants at which nothing has been published
there; and as long as the file it named before is not retired, that stays so.
-/

/-- The calls that change what the names of the data file stand for. -/
def Sys.Names : Sys → Prop
  | .mkostemp | .unlinkTmp _ | .renameTmp _ | .unlinkData => True
  | _ => False

/-- The call may publish. -/
def Sys.Publishes : Sys → Prop
  | .store _ _ _ => True
  | _ => False

section Calls

variable {thread : Tid} {request : Sys} {reply : request.Reply} {before after : World}

theorem exec_unnamed (executed : exec thread request before reply after)
    (unnamed : ¬request.Names) :
    after.disk.data = before.disk.data ∧ after.disk.tmp = before.disk.tmp ∧
      after.disk.fresh = before.disk.fresh ∧ after.disk.installed = before.disk.installed := by
  cases request
  case clock which => cases which <;> grind [exec]
  all_goals first
    | exact absurd trivial unnamed
    | grind [exec, Failed, World.own, World.setLog, World.setAsleep, World.setFd, World.leave,
        Disk.leave, Disk.store, Disk.setMemory, Disk.fetchOr, Disk.fetchAdd, Disk.storeByte,
        Disk.allocate]

theorem exec_unpublished (executed : exec thread request before reply after)
    (unpublished : ¬request.Publishes) : after.disk.publishes = before.disk.publishes := by
  cases request
  case clock which => cases which <;> grind [exec]
  all_goals first
    | exact absurd trivial unpublished
    | grind [exec, Failed, World.own, World.setLog, World.setAsleep, World.setFd, World.leave,
        Disk.leave, Disk.setMemory, Disk.fetchOr, Disk.fetchAdd, Disk.storeByte,
        Disk.allocate, Disk.create, Disk.install]

end Calls

/-- The call publishes. -/
def Sys.StoresLatest : Sys → Prop
  | .store _ offset _ => offset = Offset.latest
  | _ => False

/-- The call publishes nothing. -/
abbrev Sys.Unseen (made : Sys) : Prop := ¬made.StoresLatest

theorem exec_unseen {thread : Tid} {made : Sys} {reply : made.Reply} {before after : World}
    (executed : exec thread made before reply after) (unseen : made.Unseen) :
    after.disk.publishes = before.disk.publishes := by
  cases made with
  | store file offset value =>
      have elsewhere : offset ≠ Offset.latest := unseen
      obtain rfl : after = _ := executed
      change (before.disk.store _ _ _ _ _).publishes = _
      unfold Disk.store
      dsimp only
      rw [if_neg elsewhere]
      split <;> rfl
  | _ => exact exec_unpublished executed id

theorem storeSlot_unseen (w : Writer) (i value : UInt32) :
    (call (.store w.file (writerSlot w i) value)).Always Sys.Unseen (fun _ => True) := by
  have beyond : writerSlot w i ≠ Offset.latest :=
    Nat.ne_of_gt (Nat.lt_of_lt_of_le (by decide) (Nat.le_add_right _ _))
  exact Program.Always.perform beyond

theorem beginSlot_unseen (w : Writer) : (beginSlot w).Always Sys.Unseen (fun _ => True) :=
  (Program.Always.perform id).bind fun _ _ => (storeSlot_unseen w _ _).bind fun _ _ => trivial

theorem storeBytes_unseen (file : FileId) (offset : Nat) (bytes : List UInt8) :
    (storeBytes file offset bytes).Always Sys.Unseen (fun _ => True) :=
  storeBytes_always fun _ _ _ _ => id

/-- A temporary name is that of a file of its own which has never been at the data path. -/
structure Disk.Drafts (disk : Disk) : Prop where
  created : ∀ {suffix file}, disk.tmp suffix = some file → file < disk.fresh
  uninstalled : ∀ {suffix file}, disk.tmp suffix = some file → disk.installed file = false
  distinct : ∀ {suffix other file}, disk.tmp suffix = some file → disk.tmp other = some file →
    suffix = other

namespace Disk.Drafts

variable {disk : Disk} {suffix : Suffix} {file : FileId}

theorem remove (drafts : disk.Drafts) (suffix : Suffix) :
    Disk.Drafts { disk with tmp := Function.update disk.tmp suffix none } := by
  have fewer {other : Suffix} {file : FileId}
      (here : Function.update disk.tmp suffix none other = some file) :
      disk.tmp other = some file := by
    by_cases same : other = suffix
    · rw [same, Function.update_self] at here
      exact nomatch here
    · rw [Function.update_of_ne same] at here
      exact here
  exact ⟨fun here => drafts.created (fewer here), fun here => drafts.uninstalled (fewer here),
    fun here there => drafts.distinct (fewer here) (fewer there)⟩

theorem create (drafts : disk.Drafts) (inv : DiskInv disk) (suffix : Suffix) :
    (disk.create suffix).Drafts := by
  have unused : disk.installed disk.fresh = false := by
    by_contra present
    exact Nat.lt_irrefl _ (inv.fresh (Bool.eq_true_of_not_eq_false present))
  -- a name is the new one or an old one
  have known {other : Suffix} {file : FileId}
      (here : (disk.create suffix).tmp other = some file) :
      (other = suffix ∧ file = disk.fresh) ∨ (other ≠ suffix ∧ disk.tmp other = some file) := by
    change Function.update disk.tmp suffix (some disk.fresh) other = some file at here
    by_cases same : other = suffix
    · rw [same, Function.update_self] at here
      exact .inl ⟨same, (Option.some.inj here).symm⟩
    · rw [Function.update_of_ne same] at here
      exact .inr ⟨same, here⟩
  refine ⟨fun {other file} here => ?_, fun {other file} here => ?_,
    fun {first second file} here there => ?_⟩
  · change file < disk.fresh + 1
    rcases known here with ⟨-, rfl⟩ | ⟨-, old⟩
    · exact Nat.lt_succ_self _
    · exact Nat.lt_succ_of_lt (drafts.created old)
  · rcases known here with ⟨-, rfl⟩ | ⟨-, old⟩
    · exact unused
    · exact drafts.uninstalled old
  · rcases known here with ⟨rfl, rfl⟩ | ⟨-, old⟩
    · rcases known there with ⟨rfl, -⟩ | ⟨-, old⟩
      · rfl
      · exact absurd (drafts.created old) (Nat.lt_irrefl _)
    · rcases known there with ⟨-, rfl⟩ | ⟨-, older⟩
      · exact absurd (drafts.created old) (Nat.lt_irrefl _)
      · exact drafts.distinct old older

theorem install (drafts : disk.Drafts) (named : disk.tmp suffix = some file) :
    (disk.install suffix file).Drafts := by
  have fewer {other : Suffix} {found : FileId}
      (here : (disk.install suffix file).tmp other = some found) :
      disk.tmp other = some found ∧ found ≠ file := by
    change Function.update disk.tmp suffix none other = some found at here
    by_cases same : other = suffix
    · rw [same, Function.update_self] at here
      exact nomatch here
    · rw [Function.update_of_ne same] at here
      refine ⟨here, ?_⟩
      rintro rfl
      exact same (drafts.distinct here named)
  refine ⟨fun here => drafts.created (fewer here).1, fun {other found} here => ?_,
    fun here there => drafts.distinct (fewer here).1 (fewer there).1⟩
  change Function.update disk.installed file true found = false
  rw [Function.update_of_ne (fewer here).2]
  exact drafts.uninstalled (fewer here).1

theorem congr {other : Disk} (drafts : disk.Drafts) (tmp : other.tmp = disk.tmp)
    (fresh : other.fresh = disk.fresh) (installed : other.installed = disk.installed) :
    other.Drafts := by
  refine ⟨?_, ?_, ?_⟩
  · rw [tmp, fresh]
    exact drafts.created
  · rw [tmp, installed]
    exact drafts.uninstalled
  · rw [tmp]
    exact drafts.distinct

end Disk.Drafts

theorem Moves.drafts {before after : World} (moves : Moves before after) (inv : Inv before)
    (drafts : before.disk.Drafts) : after.disk.Drafts := by
  cases moves with
  | rest => exact drafts
  | start thread request =>
      rw [takeUp_disk]
      exact drafts
  | kill thread => exact drafts.congr rfl rfl rfl
  | @call thread request reply after executed =>
      cases request with
      | mkostemp =>
          rcases executed with ⟨suffix, -, -, rfl⟩ | ⟨-, rfl⟩
          · exact drafts.create inv.disk suffix
          · exact drafts
      | unlinkTmp suffix =>
          rcases executed with ⟨-, -, rfl⟩ | ⟨-, -, rfl⟩ | ⟨-, rfl⟩
          · exact drafts.remove suffix
          · exact drafts
          · exact drafts
      | renameTmp suffix =>
          rcases executed with ⟨file, named, -, rfl⟩ | ⟨-, -, rfl⟩ | ⟨-, rfl⟩
          · exact drafts.install named
          · exact drafts
          · exact drafts
      | unlinkData =>
          rcases executed with ⟨-, -, rfl⟩ | ⟨-, -, rfl⟩ | ⟨-, rfl⟩
          · exact drafts.congr rfl rfl rfl
          · exact drafts
          · exact drafts
      | _ =>
          obtain ⟨-, tmp, fresh, installed⟩ := exec_unnamed executed id
          exact drafts.congr tmp fresh installed

theorem Execution.drafts (execution : Execution) (index : Nat) :
    (execution.world index).disk.Drafts :=
  execution.maintained ⟨nofun, nofun, nofun⟩ (fun inv moves => moves.drafts inv) index

/-- The data path names nothing, or a file in which nothing has been published. -/
def Disk.Empty (disk : Disk) : Prop :=
  ∀ file, disk.data = some file → ∀ publish ∈ disk.publishes, publish.file ≠ file

/-- A step that changes what the data path names leaves it empty. -/
theorem Moves.empty {before after : World} (moves : Moves before after) (inv : Inv before)
    (drafts : before.disk.Drafts) (changed : after.disk.data ≠ before.disk.data) :
    after.disk.Empty := by
  cases moves with
  | rest => exact absurd rfl changed
  | start thread request =>
      rw [takeUp_disk] at changed
      exact absurd rfl changed
  | kill thread => exact absurd rfl changed
  | @call thread request reply after executed =>
      cases request with
      | renameTmp suffix =>
          rcases executed with ⟨file, named, -, rfl⟩ | ⟨-, -, rfl⟩ | ⟨-, rfl⟩
          · rintro other ⟨⟩ publish here rfl
            have published := inv.disk.published publish here
            rw [drafts.uninstalled named] at published
            exact nomatch published
          · exact absurd rfl changed
          · exact absurd rfl changed
      | unlinkData =>
          rcases executed with ⟨-, -, rfl⟩ | ⟨-, -, rfl⟩ | ⟨-, rfl⟩
          · exact nofun
          · exact absurd rfl changed
          · exact absurd rfl changed
      | mkostemp =>
          rcases executed with ⟨suffix, -, -, rfl⟩ | ⟨-, rfl⟩ <;> exact absurd rfl changed
      | unlinkTmp suffix =>
          rcases executed with ⟨-, -, rfl⟩ | ⟨-, -, rfl⟩ | ⟨-, rfl⟩ <;> exact absurd rfl changed
      | _ => exact absurd (exec_unnamed executed id).1 changed

namespace Execution

variable {execution : Execution} {first last : Nat}

/-- If the data path no longer names what it did, it was empty in between. -/
theorem empty_of_changed (ordered : first ≤ last)
    (changed : (execution.world last).disk.data ≠ (execution.world first).disk.data) :
    ∃ instant, first ≤ instant ∧ instant ≤ last ∧ (execution.world instant).disk.Empty := by
  induction ordered with
  | refl => exact absurd rfl changed
  | @step last ordered ih =>
      by_cases same : (execution.world last).disk.data = (execution.world first).disk.data
      · refine ⟨last + 1, Nat.le_succ_of_le ordered, Nat.le_refl _, ?_⟩
        refine (execution.moves last).empty (execution.inv last) (execution.drafts last) ?_
        rw [same]
        exact changed
      · obtain ⟨instant, lower, upper, empty⟩ := ih same
        exact ⟨instant, lower, Nat.le_succ_of_le upper, empty⟩

end Execution

/-- As long as a thread has not retired the file it displaced, there is nothing at the data path;
and it does not publish unless it is a writer, who displaces nothing. -/
structure Displaces (thread : Tid) (status : Thread processes) (world : World) : Prop where
  empty : (world.marks thread).displacing ≠ none → world.disk.Empty
  silent : ∀ {handle request since program}, status = .busy handle request since program →
    program.Always (¬Sys.Publishes ·) (fun _ => True) ∨
      ((world.marks thread).displacing = none ∧ program.Always (¬Sys.Names ·) (fun _ => True))

theorem World.marks_leave (world : World) (thread : Tid) :
    (world.leave thread).marks thread = Marks.none :=
  Function.update_self _ _ _

theorem World.marks_own (world : World) (thread : Tid) (disk : Disk) (marks : Marks) :
    (world.own thread disk marks).marks thread = marks :=
  Function.update_self _ _ _

theorem exec_displacing {thread : Tid} {request : Sys} {reply : request.Reply}
    {before after : World} (executed : exec thread request before reply after) (inv : Inv before)
    (drafts : before.disk.Drafts) (same : after.disk.data = before.disk.data)
    (displacing : (after.marks thread).displacing ≠ none) :
    (before.marks thread).displacing ≠ none := by
  cases request
  case clock which => cases which <;> grind [exec]
  case renameTmp suffix =>
    rcases executed with ⟨file, named, -, rfl⟩ | ⟨-, -, rfl⟩ | ⟨-, rfl⟩
    · have installed := (inv.disk.data same.symm).1
      rw [drafts.uninstalled named] at installed
      cases installed
    · exact displacing
    · exact displacing
  case unlinkData =>
    rcases executed with ⟨present, -, rfl⟩ | ⟨-, -, rfl⟩ | ⟨-, rfl⟩
    · exact absurd same.symm present
    · exact displacing
    · exact displacing
  all_goals grind [exec, Failed, World.marks_own, World.marks_leave, World.setLog, World.setAsleep,
    World.setFd, Marks.none]

theorem Handle.Owns.marks {thread : Tid} {handle : Handle} {world : World}
    (owns : handle.Owns thread world) (inv : Inv world) : world.marks thread = Marks.none := by
  cases handle with
  | fresh => exact inv.outside owns.1.crit
  | reader r => exact inv.outside owns.outside.crit
  | closed => exact inv.outside owns.crit
  | writer w =>
      obtain ⟨g, ready, -⟩ := owns.holds
      exact ready.idle

theorem program_unpublished {handle : Handle} {request : Request}
    (accepted : handle.accepts request) (other : ∀ w, handle ≠ .writer w) :
    (handle.program request).Always (¬Sys.Publishes ·) (fun _ => True) := by
  cases handle with
  | fresh =>
      refine ((fresh_always accepted).mono fun _ _ => trivial).permit
        fun {made} prepares publishes => ?_
      cases made with
      | store file offset value => exact prepares.elim id id
      | _ => exact publishes
  | reader r =>
      have waits : Waits (¬Sys.Publishes ·) :=
        ⟨⟨id, id, fun _ _ => id, fun _ => id, fun _ => id,
          fun _ => ⟨id, fun _ _ => id, fun _ => id, fun _ => id, id⟩⟩,
          id, fun _ _ _ => id, id, fun _ => id, id⟩
      exact reader_always waits ⟨waits.toSyncs, id, fun _ => id, fun _ => id⟩
  | writer w => exact absurd rfl (other w)
  | closed => cases request <;> exact accepted.elim

theorem program_silent {handle : Handle} {request : Request} (accepted : handle.accepts request) :
    (handle.program request).Always (¬Sys.Publishes ·) (fun _ => True) ∨
      (handle.program request).Always (¬Sys.Names ·) (fun _ => True) := by
  cases handle with
  | writer w =>
      exact .inr (writer_always
        ⟨fun _ => id, fun _ _ => id, fun _ _ => id, id, fun _ _ => id, id⟩ fun _ => ⟨id, id⟩)
  | _ => exact .inl (program_unpublished accepted nofun)

theorem Handle.Owns.displaces {thread : Tid} {handle : Handle} {world : World}
    (owns : handle.Owns thread world) (inv : Inv world) :
    Displaces thread (.idle handle) world := by
  refine ⟨fun displacing => ?_, nofun⟩
  rw [owns.marks inv] at displacing
  exact absurd rfl displacing

theorem displaces_maintains :
    outline.Maintains (fun world => Inv world ∧ world.disk.Drafts) Displaces where
  rely := by
    intro thread status before after known _ displaces rely
    have marks := Rely.marks rely
    refine ⟨fun displacing => ?_, fun busy => ?_⟩
    · rw [marks] at displacing
      have inside : before.crit thread ≠ none := by
        intro outside
        rw [known.1.outside outside] at displacing
        exact displacing rfl
      rw [(Rely.frozen rely inside).2]
      exact displaces.empty displacing
    · rw [marks]
      exact displaces.silent busy
  finish := fun known _ owns => Handle.Owns.displaces owns known.1
  start := by
    intro thread handle request state known _ owns accepted
    have none : ((takeUp thread request state).marks thread).displacing = none := by
      have same : (takeUp thread request state).marks = state.marks := by cases request <;> rfl
      rw [same, Handle.Owns.marks owns known.1]
      rfl
    refine ⟨fun displacing => absurd none displacing, ?_⟩
    rintro _ _ _ _ ⟨⟩
    exact (program_silent accepted).imp id fun unnamed => ⟨none, unnamed⟩
  call := by
    intro thread handle request since made next reply before after known _ displaces executed _
    obtain ⟨inv, drafts⟩ := known
    rcases displaces.silent rfl with silent | ⟨none, unnamed⟩
    · refine ⟨fun displacing => ?_, ?_⟩
      · by_cases same : after.disk.data = before.disk.data
        · have empty := displaces.empty (exec_displacing executed inv drafts same displacing)
          unfold Disk.Empty
          rw [same, exec_unpublished executed silent.1]
          exact empty
        · exact (Moves.call executed).empty inv drafts same
      · rintro _ _ _ _ ⟨⟩
        exact .inl (silent.2 reply)
    · have still : (after.marks thread).displacing = .none := by
        by_contra displacing
        exact exec_displacing executed inv drafts (exec_unnamed executed unnamed.1).1 displacing none
      refine ⟨fun displacing => absurd still displacing, ?_⟩
      rintro _ _ _ _ ⟨⟩
      exact .inr ⟨still, unnamed.2 reply⟩
  dead := by
    intro thread state known
    refine ⟨fun displacing => absurd ?_ displacing, nofun⟩
    change (Function.update state.marks thread Marks.none thread).displacing = none
    rw [Function.update_self]
    rfl

/-- A file that was displaced and is not retired: there is nothing at the data path, or whoever
displaced the file has been stopped in between. -/
theorem Execution.empty_of_displaced (execution : Execution) {index : Nat} {file : FileId}
    (installed : (execution.world index).disk.installed file = true)
    (displaced : (execution.world index).disk.data ≠ some file)
    (active : ¬(execution.world index).disk.Retired file) :
    (execution.world index).disk.Empty ∨ (execution.world index).disk.abandoned file = true := by
  have inv := execution.inv index
  by_cases nobody : ∀ thread, (execution.world index).crit thread = none
  · rcases (inv.settled (.inr ⟨nobody, rfl⟩)).displaced installed displaced with
      retired | abandoned | displacing
    · exact absurd retired active
    · exact .inr abandoned
    · cases displacing
  · obtain ⟨thread, inside⟩ := not_forall.mp nobody
    rcases (inv.settled (.inl ⟨thread, inside, rfl⟩)).displaced installed displaced with
      retired | abandoned | displacing
    · exact absurd retired active
    · exact .inr abandoned
    · have displaces := sound_start.maintains displaces_maintains
        (fun thread => Handle.Owns.displaces (sound_start.threads thread) inv_empty) execution
        (fun index => ⟨execution.inv index, execution.drafts index⟩) index thread
      refine .inl (displaces.empty ?_)
      rw [world] at displacing
      rw [displacing]
      exact Option.some_ne_none _

end PsMsgr
