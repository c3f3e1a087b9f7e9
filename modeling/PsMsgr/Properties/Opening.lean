import PsMsgr.Still.Reopening
import PsMsgr.Still.Turns
import PsMsgr.Still.Watching

namespace PsMsgr

open Effect Data

section

variable {thread : Tid}

theorem tidies_granted (since : FileId) : Tidies since (execGranted thread) where
  removes := fun happened _ _ => happened.2

end

/-- Once a writer was accepted, whatever file it found, every publish succeeds with a generation
that is not 0, and a reader opened afterwards gets the value of the last one. -/
theorem publishing_repairs {thread reader : Tid} {build : Build}
    {environment : Option (List Char)} {turns : Nat} {name : Option (List Char)}
    {opt : Option Options} {before opened : World} {w : Writer}
    {values : List (Option (List UInt8) × UInt32)} {data : Option (List UInt8)} {len : UInt32}
    (created : ∀ file, before.disk.data = some file → file < before.disk.fresh)
    (opens : (psmsgrStateWriterOpen build environment turns name opt).Runs (execGranted thread)
      before (.ok w) opened)
    (publishable : ∀ value ∈ values, Publishable w.capacity value.1 value.2)
    (last : values.getLast? = some (data, len)) :
    (publishAll w values).Must (execGranted thread)
      (fun results published =>
        (∀ result ∈ results, ∃ gen, gen ≠ 0 ∧ result = (.ok, some gen)) ∧
        ∃ gen, results.getLast? = some (.ok, some gen) ∧
          ∀ {environment name dir r world buffer size},
            (psmsgrStateReaderOpen environment name dir).Runs (execGranted reader) published
              (.ok r) world →
            (buffer = none → size = 0) → len ≤ size →
            (psmsgrStateRead r buffer size).Must (execGranted reader)
              (fun returned _ => returned.1.code = .ok ∧
                (∃ info, returned.1.info = some info ∧ info.generation = gen ∧
                  info.length = len) ∧
                returned.1.buffer.take len.toNat = (data.getD []).take len.toNat) world)
      opened := by
  have fitted : Fitted w opened := (ends_psmsgrStateWriterOpen (expects_granted thread)
    environment turns name opt (tidies_granted _) created).runs opens
  have value : Publishable w.capacity data len :=
    publishable (data, len) (List.mem_of_getLast? last)
  refine (fitted.publishAll publishable).mono ?_
  rintro results published ⟨good, lastResult⟩
  obtain ⟨gen, final, ended, fits, offers⟩ := lastResult last
  refine ⟨good, gen, ended, ?_⟩
  intro environment name dir r world buffer size readerOpens given large
  obtain ⟨rfl, attached⟩ :=
    (ends_psmsgrStateReaderOpen (expects_granted reader) environment name dir published).runs
      readerOpens
  obtain rfl := attached rfl
  exact fits.read offers value.length given large

/-- `latest` names the first slot by a version it does not have, and both slots are left odd. -/
def World.damaged : World := .holding (sampleMemory (psmiLatest 0 4) 7)

/-- A writer takes up such a file, and the last of two values it publishes is read back. -/
theorem publishing_repairs_damaged :
    (World.damaged.disk.data = some 0 ∧ World.damaged.disk.Accepted 0 ∧
      (World.damaged.disk.memory 0).word32 Offset.latest ≠
        psmiLatest 0 ((World.damaged.disk.memory 0).word32 128) ∧
      (World.damaged.disk.memory 0).word32 128 &&& 1 = 1 ∧
      (World.damaged.disk.memory 0).word32 192 &&& 1 = 1) ∧
    ∃ w opened,
      (psmsgrStateWriterOpen ⟨.lp64, 0⟩ none 1 (some ['a']) (some (twoSlots 2))).Runs
        (execGranted 0) World.damaged (.ok w) opened ∧ w.file = 0 ∧
      (publishAll w [(some [7], 1), (some [8, 9], 2)]).Must (execGranted 0)
        (fun results published =>
          (∀ result ∈ results, ∃ gen, gen ≠ 0 ∧ result = (.ok, some gen)) ∧
          ∃ gen, results.getLast? = some (.ok, some gen) ∧
            ∀ {environment name dir r world buffer size},
              (psmsgrStateReaderOpen environment name dir).Runs (execGranted 1) published
                (.ok r) world →
              (buffer = none → size = 0) → 2 ≤ size →
              (psmsgrStateRead r buffer size).Must (execGranted 1)
                (fun returned _ => returned.1.code = .ok ∧
                  (∃ info, returned.1.info = some info ∧ info.generation = gen ∧
                    info.length = 2) ∧
                  returned.1.buffer.take 2 = [8, 9]) world)
        opened := by
  refine ⟨by decide, ?_⟩
  have agrees : Header.Agrees ⟨.lp64, 0⟩ (twoSlots 2)
      (Header.ofMemory (World.damaged.disk.memory 0)) := ⟨rfl, rfl, rfl, rfl, rfl⟩
  obtain ⟨w, opened, opens, -, file, same, -⟩ :=
    @runs_psmsgrStateWriterOpen_valued 0 World.damaged ⟨.lp64, 0⟩ none (some ['a']) _ _ 0 0
      loadOptions_twoSlots rfl (fun _ => rfl) ⟨rfl, by decide, by decide, by decide⟩ (by decide)
      (by decide) agrees
  have created : ∀ file, World.damaged.disk.data = some file → file < World.damaged.disk.fresh := by
    rintro _ ⟨⟩
    decide
  refine ⟨w, opened, opens, file,
    @publishing_repairs 0 1 _ _ _ _ _ _ _ w _ (some [8, 9]) 2 created opens ?_ rfl⟩
  rw [← same.capacity]
  rintro value (_ | ⟨_, _ | ⟨_, ⟨⟩⟩⟩)
  · exact .of_bytes (by decide) (by decide)
  · exact .of_bytes (by decide) (by decide)

/-- A temporary file made by the call, from file `since` on, is removed when that is tried. -/
def Sys.Tidy (since : FileId) (before : World) : (request : Sys) → request.Reply → Prop
  | .unlinkTmp suffix, reply =>
      ∀ file, before.disk.tmp suffix = some file → since ≤ file → reply ≠ .error .other
  | _, _ => True

/-- Every call may fail, but not the removal of a temporary file just made. -/
def execTidy (since : FileId) (thread : Tid) (request : Sys) (before : World)
    (reply : request.Reply) (after : World) : Prop :=
  exec thread request before reply after ∧ request.Tidy since before reply

theorem expects_tidy (since : FileId) (thread : Tid) : Expects thread (execTidy since thread) where
  real := And.left
  access := by
    intro request before reply after access executed
    refine ⟨executed, ?_⟩
    cases request with
    | unlinkTmp _ => exact access.elim
    | _ => trivial

theorem tidies_tidy (since : FileId) (thread : Tid) : Tidies since (execTidy since thread) where
  removes := fun happened made newer => happened.2 _ made newer

theorem Untouched.sameView {thread : Tid} {base world : World} {fds : Fd → Option Descriptor}
    (untouched : Untouched base fds world) (awake : base.asleep thread = none)
    (created : ∀ file, base.disk.data = some file → file < base.disk.fresh) :
    SameView thread (· < base.disk.fresh) world { base with now := world.now } where
  data := untouched.data.symm
  named := fun file named => created file (untouched.data.symm.trans named)
  files := fun file old => (untouched.files file old).symm
  asleep := awake.trans (untouched.asleep thread awake).symm
  now := rfl

/-- A writer open that fails leaves the data path, every byte of the files there were, and the
descriptors as they were and no temporary file of its own, and what readers get from any calls
they make afterwards is what they could have got without it. -/
theorem failed_open_unseen {thread : Tid} {build : Build} {environment : Option (List Char)}
    {turns : Nat} {name : Option (List Char)} {opt : Option Options} {before after : World}
    {code : Code} (created : ∀ file, before.disk.data = some file → file < before.disk.fresh)
    (fails : (psmsgrStateWriterOpen build environment turns name opt).Runs
      (execTidy before.disk.fresh thread) before (.error code) after) :
    after.disk.data = before.disk.data ∧
    (∀ file < before.disk.fresh, after.disk.files file = before.disk.files file) ∧
    (∀ {suffix file}, after.disk.tmp suffix = some file → before.disk.tmp suffix = some file) ∧
    after.fds = before.fds ∧
    ∀ {reader r requests results}, before.asleep reader = none →
      (∀ file, r.file = some file → file < before.disk.fresh) →
      (∀ request ∈ requests, request.Watching) →
      ((∃ world, ((Handle.reader r).calls requests).Runs (exec reader) after results world) ↔
        ∃ world, ((Handle.reader r).calls requests).Runs (exec reader)
          { before with now := after.now } results world) := by
  have untouched : Untouched before before.fds after :=
    (ends_psmsgrStateWriterOpen (expects_tidy _ thread) environment turns name opt
      (tidies_tidy _ thread) created).runs fails
  refine ⟨untouched.data, untouched.files, ?_, untouched.fds, ?_⟩
  · intro suffix file left
    rcases untouched.tmp suffix with none | same
    · exact nomatch none.symm.trans left
    · exact same.symm.trans left
  · intro reader r requests results awake knows asked
    exact (untouched.sameView awake created).results knows asked

theorem tidy_of_granted {since : FileId} {thread : Tid} {request : Sys} {before after : World}
    {reply : request.Reply} (executed : execGranted thread request before reply after) :
    execTidy since thread request before reply after := by
  refine ⟨executed.1, ?_⟩
  cases request with
  | unlinkTmp suffix => exact fun _ _ _ => executed.2
  | _ => trivial

/-- The new file is complete when its renaming fails. -/
theorem runs_createFile_unrenamed {since : FileId} {thread : Tid} {suffix : Suffix} {world : World}
    (build : Build) (o : Options) (lockFd : Fd) (old : Option FileId) (gen : UInt32)
    (free : world.disk.tmp suffix = none) :
    ∃ after, (createFile build o lockFd old gen).Runs (execTidy since thread) world
      (.error .sys) after := by
  let file := world.disk.fresh
  let size := toSize (psmiFileSize o.slotCount (psmiSlotStride o.capacity)).toNat
  let drafted := world.own thread (world.disk.create suffix) (world.marks thread)
  let sized := drafted.own thread (drafted.disk.allocate file size) (drafted.marks thread)
  have performs {request : Sys} {reply : request.Reply} {before after : World}
      (executed : execTidy since thread request before reply after) :
      (call request).Runs (execTidy since thread) before reply after :=
    ⟨reply, after, executed, rfl, rfl⟩
  have enough : execTidy since thread .malloc world true world := ⟨rfl, trivial⟩
  have makes : execTidy since thread .mkostemp world (.ok (suffix, file)) drafted :=
    ⟨.inl ⟨suffix, free, rfl, rfl⟩, trivial⟩
  have modes : execTidy since thread (.fchmod file o.mode) drafted (.ok ()) drafted :=
    ⟨.inl ⟨rfl, rfl⟩, trivial⟩
  have allocates : execTidy since thread (.fallocate file size) drafted (.ok ()) sized :=
    ⟨.inl ⟨rfl, rfl⟩, trivial⟩
  have maps : execTidy since thread (.mmap file size) sized (.ok ()) sized :=
    ⟨.inl ⟨rfl, rfl⟩, trivial⟩
  have fills := @ends_storeHeader thread sized sized _ (expects_tidy since thread) file
    (sized.disk.memory file) True build o (.refl sized file)
  obtain ⟨_, filled, stores, _, wrote⟩ := fills.occurs
  have fails : execTidy since thread (.renameTmp suffix) filled (.error .other) filled :=
    ⟨.inr (.inr ⟨rfl, rfl⟩), trivial⟩
  have here : filled.disk.tmp suffix = some file := by
    rw [wrote.tmp]
    exact Function.update_self _ _ _
  have unmaps : execTidy since thread (.munmap file) filled () filled := ⟨rfl, trivial⟩
  have closes : execTidy since thread (.close file) filled () filled := ⟨rfl, trivial⟩
  have removes : execTidy since thread (.unlinkTmp suffix) filled (.ok ()) _ :=
    ⟨.inl ⟨by rw [here]; exact Option.some_ne_none file, rfl, rfl⟩, fun _ _ _ => ok_ne_other ()⟩
  exact ⟨_, (performs enough).bind ((performs makes).bind ((performs modes).bind
    ((performs allocates).bind ((performs maps).bind (stores.bind ((performs fails).bind
      ((performs unmaps).bind ((performs closes).bind ((performs removes).bind
        ⟨rfl, rfl⟩)))))))))⟩

/-- The first slot holds a value that `latest` names. -/
def World.intact : World := .holding (sampleMemory (psmiLatest 0 2) 2)

/-- Options that ask for a file of smaller slots in place of the one there is. -/
def replacing : Options := { twoSlots 1 with flags := psmsgrStateRecreate }

theorem runs_psmsgrStateWriterOpen_unrenamed : ∃ after,
    (psmsgrStateWriterOpen ⟨.lp64, 0⟩ none 1 (some ['a']) (some replacing)).Runs (execTidy 1 0)
      World.intact (.error .sys) after := by
  obtain ⟨lockFd, ino, locks⟩ := @leads_psmsgrStateWriterOpen 0 World.intact ⟨.lp64, 0⟩ none
    (some ['a']) (some replacing) replacing 0 rfl rfl (fun _ => rfl)
  have valued : World.intact.disk.Valued 0 := ⟨rfl, by decide, by decide, by decide⟩
  obtain ⟨looked, looks, disk, -⟩ := @leads_openData 0 (World.intact.locked 0 lockFd ino) ⟨.lp64, 0⟩
    replacing lockFd 0 valued
  have memory : looked.disk.memory 0 = World.intact.disk.memory 0 := by
    rw [disk]
    rfl
  have free : looked.disk.tmp [] = none := by
    rw [disk]
    rfl
  let checked := looked.setLog 0 ((looked.log 0).load looked.disk 0 Offset.state)
  obtain ⟨left, creates⟩ := @runs_createFile_unrenamed 1 0 [] checked ⟨.lp64, 0⟩ replacing lockFd
    (some 0) (nextGeneration (latestGeneration (World.intact.disk.memory 0))) free
  have refused : (openValued ⟨.lp64, 0⟩ replacing lockFd 0 (World.intact.disk.memory 0)).Runs
      (execTidy 1 0) looked (.error .sys) left := by
    rw [openValued, openChecked]
    dsimp only
    rw [if_neg (by decide)]
    refine Program.Runs.bind ⟨_, checked, ⟨⟨rfl, rfl⟩, trivial⟩, rfl, rfl⟩ ?_
    -- not retired, of another capacity, and to be replaced
    rw [memory, if_neg (by decide), if_pos (by decide), if_pos (by decide)]
    exact creates.bind ⟨(), left, ⟨rfl, trivial⟩, rfl, rfl⟩
  have closes : (call (.closeLock lockFd)).Runs (execTidy 1 0) left () _ :=
    ⟨(), _, ⟨rfl, trivial⟩, rfl, rfl⟩
  exact ⟨_, (locks.mono tidy_of_granted).runs
    (((looks.mono tidy_of_granted).runs refused).bind (closes.bind ⟨rfl, rfl⟩))⟩

/-- A reader that is attached to the file. -/
def intactReader : Reader := .attachedTo 0 (Header.ofMemory (World.intact.disk.memory 0))

theorem stillReply_intact :
    (stillReply (World.intact.disk.memory 0) intactReader [0] 1 true).1.code = .ok ∧
      (stillReply (World.intact.disk.memory 0) intactReader [0] 1 true).1.buffer = [7] := by
  decide

/-- The renaming of the new file fails: the value is still there, and a reader gets it. -/
theorem failed_open_unseen_unrenamed : ∃ after,
    (psmsgrStateWriterOpen ⟨.lp64, 0⟩ none 1 (some ['a']) (some replacing)).Runs (execTidy 1 0)
      World.intact (.error .sys) after ∧
    after.disk.data = some 0 ∧ after.disk.files 0 = World.intact.disk.files 0 ∧
    (∀ suffix, after.disk.tmp suffix = none) ∧ after.fds = World.intact.fds ∧
    ∃ reply world, ((Handle.reader intactReader).calls [.read (some [0]) 1]).Runs (exec 1) after
      [.read reply] world ∧ reply.code = .ok ∧ reply.buffer = [7] := by
  obtain ⟨after, fails⟩ := runs_psmsgrStateWriterOpen_unrenamed
  have created : ∀ file, World.intact.disk.data = some file → file < World.intact.disk.fresh := by
    rintro _ ⟨⟩
    decide
  obtain ⟨data, files, tmp, fds, same⟩ :=
    @failed_open_unseen 0 _ _ _ _ _ World.intact after _ created fails
  refine ⟨after, fails, data, files 0 (by decide), fun suffix => ?_, fds, ?_⟩
  · by_contra left
    obtain ⟨file, here⟩ := Option.ne_none_iff_exists'.mp left
    cases tmp here
  · let kept : World := { World.intact with now := after.now }
    obtain ⟨code, buffer⟩ := stillReply_intact
    have active : ¬ kept.disk.Retired 0 := show ¬ World.intact.disk.Retired 0 by decide
    obtain ⟨world, reads, -⟩ := @runs_read 1 kept intactReader intactReader 0 (some [0]) 1
      (fun absent => absurd absent (Option.some_ne_none _)) (eval_readerSync_attached rfl active) rfl
    change Program.Runs (exec 1) ((Handle.reader intactReader).program (.read (some [0]) 1)) kept
      (.reader (stillReply (World.intact.disk.memory 0) intactReader [0] 1 true).2,
        .read (stillReply (World.intact.disk.memory 0) intactReader [0] 1 true).1) world at reads
    generalize stillReply (World.intact.disk.memory 0) intactReader [0] 1 true = shown at *
    have old : ∀ file, intactReader.file = some file → file < World.intact.disk.fresh := by
      rintro _ ⟨⟩
      decide
    obtain ⟨world, gets⟩ := (@same 1 intactReader [.read (some [0]) 1] [.read shown.1] rfl old
      (by simp [Request.Watching])).mpr ⟨world, reads.bind ⟨rfl, rfl⟩⟩
    exact ⟨shown.1, world, gets, code, buffer⟩

end PsMsgr
