import PsMsgr.State.Reader
import PsMsgr.Channel.Critical

namespace PsMsgr

open Effect Discipline Data

variable {thread : Tid} {r : Reader} {file : FileId} {since disk later : Disk}
  {before after : World}

/-- The handle has the geometry of the file it is attached to. -/
structure Cached (r : Reader) (file : FileId) (disk : Disk) : Prop where
  installed : disk.installed file = true
  ino : r.ino = file
  slotCount : r.slotCount = (Header.ofMemory (disk.memory file)).slotCount
  slotStride : r.slotStride = (Header.ofMemory (disk.memory file)).slotStride
  capacity : r.capacity = (Header.ofMemory (disk.memory file)).capacity
  configFlags : r.configFlags = (Header.ofMemory (disk.memory file)).configFlags

theorem Cached.evolve (cached : Cached r file disk) (evolves : disk.Evolves later) :
    Cached r file later := by
  have header : Header.ofMemory (later.memory file) = Header.ofMemory (disk.memory file) :=
    Header.ofMemory_congr (evolves.image cached.installed).header
  refine ⟨evolves.installed cached.installed, cached.ino, ?_, ?_, ?_, ?_⟩
  · rw [header]
    exact cached.slotCount
  · rw [header]
    exact cached.slotStride
  · rw [header]
    exact cached.capacity
  · rw [header]
    exact cached.configFlags

/-- The publish the thread's last load of `latest` named is in this file or an older one. -/
def Ahead (thread : Tid) (file : FileId) (world : World) : Prop :=
  ∀ {index}, (world.log thread).sampled = some index →
    ∃ publish, world.disk.publishes[index]? = some publish ∧ publish.file ≤ file

theorem Ahead.stable : channel.Stable thread (Ahead thread file) := by
  intro before after ahead rely _ index sampled
  rw [Rely.log rely] at sampled
  obtain ⟨publish, here, older⟩ := ahead sampled
  exact ⟨publish, getElem?_of_grows (Rely.disk rely).publishes here, older⟩

/-- A reader between two calls; `since` is an earlier state of the files. -/
structure Following (thread : Tid) (r : Reader) (since : Disk) (world : World) : Prop where
  outside : Outside thread world
  evolves : since.Evolves world.disk
  attached : ∀ {file}, r.file = some file → Cached r file world.disk ∧ Ahead thread file world

/-- The same without its place: what work on the lock does not touch. -/
structure Trailing (thread : Tid) (r : Reader) (since : Disk) (world : World) : Prop where
  evolves : since.Evolves world.disk
  attached : ∀ {file}, r.file = some file → Cached r file world.disk ∧ Ahead thread file world

theorem Trailing.frame : Frame thread (Trailing thread r since) where
  stable := by
    intro before after trailing rely inv
    refine ⟨trailing.evolves.trans (Rely.disk rely), fun {file} named => ?_⟩
    obtain ⟨cached, ahead⟩ := trailing.attached named
    exact ⟨cached.evolve (Rely.disk rely), Ahead.stable _ _ ahead rely inv⟩
  depends := by
    intro before after disk log _ trailing
    refine ⟨by rw [disk]; exact trailing.evolves, fun {file} named => ?_⟩
    unfold Ahead
    rw [disk, log]
    exact trailing.attached named

theorem Following.stable : channel.Stable thread (Following thread r since) := by
  intro before after following rely inv
  obtain ⟨evolves, attached⟩ := Trailing.frame.stable before after
    ⟨following.evolves, following.attached⟩ rely inv
  exact ⟨Outside.stable _ _ following.outside rely inv, evolves, attached⟩

theorem Following.quiet (following : Following thread r since before)
    (quiet : Quiet thread before after) (awake : after.asleep thread = none)
    (sampled : (after.log thread).sampled = (before.log thread).sampled) :
    Following thread r since after := by
  refine ⟨quiet.outside awake following.outside, ?_, fun {file} named => ?_⟩
  · rw [quiet.disk]
    exact following.evolves
  · unfold Ahead
    rw [quiet.disk, sampled]
    exact following.attached named

theorem Following.detached (following : Following thread r since before) :
    Following thread { r with file := none } since before :=
  ⟨following.outside, following.evolves, nofun⟩

theorem Following.refresh (following : Following thread r since before) :
    Following thread r before.disk before :=
  ⟨following.outside, Disk.Evolves.refl _, following.attached⟩

theorem Following.earlier {noted : Disk} (following : Following thread r noted before)
    (evolves : since.Evolves noted) : Following thread r since before :=
  ⟨following.outside, evolves.trans following.evolves, following.attached⟩

theorem triple_quiet {request : Sys} {pre : World → Prop} {post : request.Reply → World → Prop}
    (stable : ∀ reply, channel.Stable thread (post reply))
    (executes : ∀ {state reply after}, Inv state → pre state → exec thread request state reply after →
      Quiet thread state after ∧ after.asleep thread = none ∧ post reply after) :
    channel.Triple thread pre (call request) post := by
  refine Triple.call stable ?_
  intro state reply after inv holds executed
  obtain ⟨quiet, awake, established⟩ := executes inv holds executed
  exact ⟨quiet.guarantee_awake inv awake, established⟩

/-- The file was not retired at the earlier time, if it was there. -/
def Active (since : Disk) (file : FileId) : Prop :=
  since.installed file = true → ¬ since.Retired file

theorem Log.load_sampled {offset : Nat} (log : Log) (disk : Disk) (elsewhere : offset ≠ Offset.latest) :
    (log.load disk file offset).sampled = log.sampled := by
  unfold Log.load
  rw [if_neg elsewhere]
  split
  · rfl
  · rfl

theorem quiet_loadWord {offset : Nat} {reply : UInt32} (inv : Inv before)
    (elsewhere : offset ≠ Offset.latest)
    (executed : exec thread (.load file offset) before reply after) :
    Quiet thread before after ∧ after.asleep = before.asleep ∧
      (after.log thread).sampled = (before.log thread).sampled := by
  refine ⟨quiet_load inv (fun latest => absurd latest elsewhere) executed, ?_⟩
  obtain ⟨-, rfl⟩ := executed
  refine ⟨rfl, ?_⟩
  change (Function.update before.log thread _ thread).sampled = _
  rw [Function.update_self]
  exact Log.load_sampled _ _ elsewhere

theorem triple_retired :
    channel.Triple thread (Following thread r since) (retired file)
      (fun result world => Following thread r since world ∧ (result = false → Active since file)) := by
  have loaded : channel.Triple thread (Following thread r since) (call (.load file Offset.state))
      (fun word world => Following thread r since world ∧
        (word &&& psmiStateRetired = 0 → Active since file)) := by
    refine triple_quiet (fun _ => stable_and Following.stable stable_pure) ?_
    intro state reply after inv following executed
    obtain ⟨quiet, asleep, sampled⟩ := quiet_loadWord inv (by decide) executed
    have awake : after.asleep thread = none := by
      rw [asleep]
      exact following.outside.asleep
    refine ⟨quiet, awake, following.quiet quiet awake sampled, fun clear present retired => ?_⟩
    obtain ⟨rfl, -⟩ := executed
    exact following.evolves.retired present retired clear
  refine loaded.bind fun word => Triple.done (fun _ holds => ⟨holds.1, fun result => holds.2 ?_⟩)
  simpa using result

/-- Whoever opens the data path gets a file at least as new as any publish. -/
theorem triple_openNewest :
    channel.Triple thread (Following thread r since) (call .openData)
      (fun reply world => Following thread r since world ∧ ∀ {file}, reply = .ok file →
        world.disk.installed file = true ∧ Ahead thread file world) := by
  refine triple_quiet ?_ ?_
  · intro reply
    refine stable_and Following.stable (fun before after holds rely inv file opened => ?_)
    obtain ⟨present, ahead⟩ := holds opened
    exact ⟨(Rely.disk rely).installed present, Ahead.stable _ _ ahead rely inv⟩
  · intro state reply after inv following executed
    obtain ⟨quiet, asleep, sampled⟩ := quiet_openData executed
    have awake : after.asleep thread = none := by
      rw [asleep]
      exact following.outside.asleep
    refine ⟨quiet, awake, following.quiet quiet awake sampled, fun {file} opened => ?_⟩
    have named : state.disk.data = some file := by
      rcases executed with ⟨other, named, rfl, -⟩ | ⟨-, rfl, -⟩ | ⟨rfl, -⟩
      · rw [named, Except.ok.inj opened]
      · exact nomatch opened
      · exact nomatch opened
    obtain ⟨present, -, newest⟩ := inv.disk.data named
    rw [quiet.disk]
    refine ⟨present, fun {index} loaded => ?_⟩
    rw [sampled] at loaded
    rw [quiet.disk]
    have inside := inv.sampled loaded
    have here := List.getElem?_eq_getElem inside
    exact ⟨_, here, newest _ (inv.disk.published _ (List.mem_of_getElem? here))⟩

/-- The codes of a reader that could not attach. -/
def Unattached (code : Code) : Prop := code = .nodata ∨ code = .sys

theorem triple_attach :
    channel.Triple thread (Following thread r since) (attach r)
      (fun result world => Following thread result.2 since world ∧
        ((result.1 = .ok ∧ ∃ file, result.2.file = some file) ∨ Unattached result.1)) := by
  have failed : ∀ {code : Code}, Unattached code → channel.Triple thread (Following thread r since)
      (.done (code, r)) (fun result world => Following thread result.2 since world ∧
        ((result.1 = .ok ∧ ∃ file, result.2.file = some file) ∨ Unattached result.1)) :=
    fun wrong => Triple.done (fun _ following => ⟨following, .inr wrong⟩)
  have closed : ∀ {fd : FileId}, channel.Triple thread (Following thread r since)
      (do
        call (.close fd)
        return (.sys, r))
      (fun result world => Following thread result.2 since world ∧
        ((result.1 = .ok ∧ ∃ file, result.2.file = some file) ∨ Unattached result.1)) :=
    (triple_skip (.close _) trivial Following.stable).bind fun _ => failed (.inr rfl)
  unfold attach
  refine triple_openNewest.bind fun reply => ?_
  cases reply with
  | error err =>
      refine Triple.strengthen (?_ : channel.Triple thread (Following thread r since) _ _)
        (fun _ holds => holds.1)
      cases err
      case enoent => exact failed (.inl rfl)
      all_goals exact failed (.inr rfl)
  | ok fd =>
      intro state inv holds
      obtain ⟨following, named⟩ := holds
      obtain ⟨present, ahead⟩ := named rfl
      obtain ⟨h, size, known⟩ : ∃ h size, Known fd h size state := ⟨_, _, present, rfl, rfl⟩
      have stable : channel.Stable thread (fun world => Following thread r since world ∧
          Ahead thread fd world) := stable_and Following.stable Ahead.stable
      refine ((triple_readHeader stable).bind fun result => ?_) state inv ⟨⟨following, ahead⟩, known⟩
      intro state inv holds
      obtain ⟨⟨⟨following, ahead⟩, known⟩, sys | rfl⟩ := holds
      · obtain ⟨rc, bytes, h⟩ := result
        obtain rfl : rc = .sys := sys
        have wrong : Code.sys ≠ .ok := nofun
        simp only [if_pos wrong]
        exact closed state inv following
      · have right : ¬ Code.ok ≠ .ok := not_not.mpr rfl
        simp only [if_neg right, (known.valid inv).1, Bool.not_true, Bool.false_eq_true, if_false]
        have both : channel.Stable thread (fun world => Following thread r since world ∧
            Ahead thread fd world ∧ Known fd h size world) :=
          stable_and Following.stable (stable_and Ahead.stable Known.stable)
        refine ((triple_skip (.mmap fd _) trivial both).bind fun mapped => ?_)
          state inv ⟨following, ahead, known⟩
        cases mapped with
        | error err =>
            exact closed.strengthen (fun _ holds => holds.1)
        | ok _ =>
            refine (triple_skip (.close fd) trivial both).bind fun _ => Triple.done (fun inv holds => ?_)
            obtain ⟨following, ahead, known⟩ := holds
            refine ⟨⟨following.outside, following.evolves, fun {file} named => ?_⟩,
              .inl ⟨rfl, fd, rfl⟩⟩
            obtain rfl : fd = file := Option.some.inj named
            have header := known.header
            refine ⟨⟨known.installed, rfl, ?_, ?_, ?_, ?_⟩, ahead⟩
            all_goals rw [header]

theorem triple_detach :
    channel.Triple thread (Following thread r since) (detach r file)
      (fun result => Following thread result since) :=
  (triple_skip (.munmap file) trivial Following.stable).bind fun _ =>
    Triple.done (fun _ following => following.detached)

/-- A reader in step: if all is well it is attached to a file that was not retired at the
earlier time. -/
def Synced (thread : Tid) (since : Disk) (result : Code × Reader) (world : World) : Prop :=
  Following thread result.2 since world ∧
    ((result.1 = .ok ∧ ∃ file, result.2.file = some file ∧ Active since file) ∨
      Unattached result.1)

theorem triple_attachLoop (tries : Nat) :
    channel.Triple thread (Following thread r since) (attachLoop r tries) (Synced thread since) := by
  induction tries generalizing r with
  | zero => exact Triple.done (fun _ following => ⟨following, .inr (.inl rfl)⟩)
  | succ tries ih =>
      unfold attachLoop
      refine triple_attach.bind fun result => ?_
      dsimp only
      split
      · next file _ named =>
          refine Triple.strengthen (?_ : channel.Triple thread (Following thread result.2 since) _ _)
            (fun _ holds => holds.1)
          refine triple_retired.bind fun gone => ?_
          cases gone with
          | false =>
              exact Triple.done (fun _ holds => ⟨holds.1, .inl ⟨rfl, file, named, holds.2 rfl⟩⟩)
          | true =>
              refine Triple.strengthen (?_ : channel.Triple thread
                (Following thread result.2 since) _ _) (fun _ holds => holds.1)
              exact triple_detach.bind fun _ => ih
      · next missed =>
          refine Triple.done (fun _ holds => ⟨holds.1, .inr ?_⟩)
          rcases holds.2 with ⟨ok, file, named⟩ | failed
          · exact absurd named (missed file ok)
          · exact failed

/-- After the retire check the reader is attached to a file that was not retired when the
call began. -/
theorem triple_readerSync :
    channel.Triple thread (Following thread r since) (readerSync r) (Synced thread since) := by
  unfold readerSync
  split
  · next file named =>
      refine triple_retired.bind fun gone => ?_
      cases gone with
      | false =>
          exact Triple.done (fun _ holds => ⟨holds.1, .inl ⟨rfl, file, named, holds.2 rfl⟩⟩)
      | true =>
          refine Triple.strengthen (?_ : channel.Triple thread (Following thread r since) _ _)
            (fun _ holds => holds.1)
          exact triple_detach.bind fun _ => triple_attachLoop attachRetries
  · exact triple_attachLoop attachRetries

theorem triple_identityCheck :
    channel.Triple thread (Following thread r since) (identityCheck r)
      (fun result => Following thread result.2 since) := by
  have returned : ∀ {code : Code}, channel.Triple thread (Following thread r since)
      (.done (code, r)) (fun result => Following thread result.2 since) :=
    Triple.done (fun _ following => following)
  have detached : ∀ {code : Code} {file : FileId}, channel.Triple thread (Following thread r since)
      (do
        let r ← detach r file
        return (code, r)) (fun result => Following thread result.2 since) :=
    triple_detach.bind fun _ => Triple.done (fun _ following => following)
  unfold identityCheck
  split
  · exact returned
  · refine (triple_skip .lstatData trivial Following.stable).bind fun named => ?_
    cases named with
    | ok other =>
        dsimp only
        split
        · exact returned
        · exact detached
    | error err =>
        cases err
        case enoent => exact detached
        all_goals exact returned

theorem triple_psmsgrStateWriterAlive :
    channel.Triple thread (Following thread r since) (psmsgrStateWriterAlive r)
      (fun result => Following thread result.2 since) := by
  unfold psmsgrStateWriterAlive
  refine triple_identityCheck.bind fun checked => ?_
  dsimp only
  split
  · exact Triple.done (fun _ following => following)
  refine triple_readerSync.bind fun result => ?_
  refine Triple.strengthen (?_ : channel.Triple thread
    (fun world => Outside thread world ∧ Trailing thread result.2 since world) _ _)
    (fun _ synced => ⟨synced.1.outside, synced.1.evolves, synced.1.attached⟩)
  have returned : ∀ {answer : Except Code Bool}, channel.Triple thread
      (fun world => Outside thread world ∧ Trailing thread result.2 since world)
      (.done (answer, result.2)) (fun result => Following thread result.2 since) :=
    Triple.done (fun _ holds => ⟨holds.1, holds.2.evolves, holds.2.attached⟩)
  refine (triple_openLock Trailing.frame).bind fun opened => ?_
  cases opened with
  | error err =>
      cases err
      all_goals exact returned
  | ok fd =>
      refine (triple_skip (.getLock fd) trivial
        (stable_and Held.stable Trailing.frame.stable)).bind fun conflict => ?_
      refine (triple_closeLock Trailing.frame).bind fun _ => ?_
      cases conflict with
      | error err => exact returned
      | ok held => exact returned

end PsMsgr
