import PsMsgr.Channel.Reading

namespace PsMsgr

open Effect Discipline Data

variable {thread : Tid} {r : Reader} {file : FileId} {since disk : Disk} {before after : World}

/-- Looking at a file, but not at `notify`. -/
def Sys.Looks : Sys → Prop
  | .load _ offset => offset ≠ Offset.notify
  | .loadByte _ _ | .schedYield => True
  | _ => False

theorem loadBytes_looks (offset count : Nat) :
    (loadBytes file offset count).Always Sys.Looks (fun _ => True) := by
  induction count generalizing offset with
  | zero => trivial
  | succ count ih =>
      refine Program.Always.bind (Program.Always.perform trivial) (fun byte _ => ?_)
      exact Program.Always.bind (ih (offset + 1)) (fun _ _ => trivial)

theorem readAttempt_looks (buffer : List UInt8) (size : UInt32) (copy : Bool) :
    (readAttempt r file buffer size copy).Always Sys.Looks (fun _ => True) := by
  have slot : ∀ i, slotOffset r.slotStride i ≠ Offset.notify := by
    intro i
    unfold slotOffset
    change 128 + _ ≠ 44
    omega
  have rechecked : ∀ i q1 m buffer,
      (recheck r file (slotOffset r.slotStride i) q1 m buffer size copy).Always Sys.Looks
        (fun _ => True) := by
    intro i q1 m buffer
    refine Program.Always.bind (Program.Always.perform (slot i)) (fun q2 _ => ?_)
    dsimp only
    split
    · split
      · trivial
      · trivial
    · trivial
  refine Program.Always.bind (Program.Always.perform (show Offset.latest ≠ Offset.notify by decide))
    (fun latest _ => ?_)
  dsimp only
  split
  · trivial
  split
  · trivial
  refine Program.Always.bind (Program.Always.perform (slot _)) (fun q1 _ => ?_)
  split
  · refine Program.Always.bind (loadBytes_looks _ _) (fun bytes _ => ?_)
    split
    · exact Program.Always.bind (loadBytes_looks _ _) (fun payload _ => rechecked _ _ _ _)
    · exact rechecked _ _ _ _
  · trivial

theorem readLoop_looks (size : UInt32) (copy : Bool) (tries : Nat) (buffer : List UInt8) :
    (readLoop r file size copy tries buffer).Always Sys.Looks (fun _ => True) := by
  induction tries generalizing buffer with
  | zero => trivial
  | succ tries ih =>
      refine Program.Always.bind (readAttempt_looks buffer size copy) (fun turn _ => ?_)
      cases turn with
      | result code info buffer => trivial
      | again buffer =>
          dsimp only
          split
          · exact Program.Always.bind (Program.Always.perform trivial) (fun _ _ => ih buffer)
          · exact ih buffer

theorem exec_looks {request : Sys} {reply : request.Reply} (looks : request.Looks)
    (executed : exec thread request before reply after) :
    after.disk = before.disk ∧ (after.log thread).notifyBase = (before.log thread).notifyBase := by
  cases request with
  | load file offset =>
      obtain ⟨-, rfl⟩ := executed
      refine ⟨rfl, ?_⟩
      change (Function.update before.log thread _ thread).notifyBase = _
      rw [Function.update_self]
      unfold Log.load
      split
      · rfl
      · rw [if_neg looks]
  | loadByte _ _ =>
      obtain ⟨-, rfl⟩ := executed
      exact ⟨rfl, rfl⟩
  | schedYield =>
      obtain rfl : after = before := executed
      exact ⟨rfl, rfl⟩
  | _ => exact looks.elim

theorem exec_asking {request : Sys} {reply : request.Reply}
    (executed : exec thread request before reply after) : after.asking = before.asking := by
  cases request
  case clock which => cases which <;> grind [exec]
  all_goals grind [exec, Failed, World.own, World.setLog, World.setAsleep, World.setFd, World.leave]

/-- What a thread is asked to wait for. -/
def Asking (thread : Tid) (generation : UInt32) (world : World) : Prop :=
  world.asking thread = generation

theorem Asking.stable {generation : UInt32} : channel.Stable thread (Asking thread generation) :=
  fun _ _ asking rely _ => (Rely.asking rely).trans asking

theorem triple_asking {α : Type} {program : Prog α} {pre : World → Prop} {post : α → World → Prop}
    {generation : UInt32} (triple : channel.Triple thread pre program post) :
    channel.Triple thread (fun world => pre world ∧ Asking thread generation world) program
      (fun value world => post value world ∧ Asking thread generation world) :=
  triple.frame (Program.Always.intro program) Asking.stable
    (fun _ executed asking => (congrFun (exec_asking executed) thread).trans asking)

/-- The file when `notify` was loaded. -/
structure Note (since : Disk) (file : FileId) (noted : Disk) (n : UInt32) : Prop where
  evolves : since.Evolves noted
  inv : DiskInv noted
  here : noted.installed file = true
  notifying : ¬ noted.NoNotify file
  count : n.toNat = noted.notifies file % 2 ^ 32
  /-- Stores are told about, or about to be. -/
  told : noted.orphaned file = true ∨ noted.notifies file ≤ noted.stores file

/-- The thread's last load of `notify` was made then. -/
def Based (thread : Tid) (file : FileId) (noted : Disk) (world : World) : Prop :=
  (world.log thread).notifyBase file = noted.notifies file

theorem Based.stable {noted : Disk} : channel.Stable thread (Based thread file noted) := by
  intro before after based rely _
  unfold Based
  rw [Rely.log rely]
  exact based

theorem triple_based {α : Type} {program : Prog α} {pre : World → Prop} {post : α → World → Prop}
    {noted : Disk} (looks : program.Always Sys.Looks (fun _ => True))
    (triple : channel.Triple thread pre program post) :
    channel.Triple thread (fun world => pre world ∧ Based thread file noted world) program
      (fun value world => post value world ∧ Based thread file noted world) :=
  triple.frame looks Based.stable (fun looks executed based =>
    (congrFun (exec_looks looks executed).2 file).trans based)

theorem World.owing_exists (world : World) : ∃ marks, world.Owing marks := by
  by_cases inside : ∃ thread, world.crit thread ≠ none
  · obtain ⟨thread, inside⟩ := inside
    exact ⟨_, .inl ⟨thread, inside, rfl⟩⟩
  · refine ⟨Marks.none, .inr ⟨fun thread => ?_, rfl⟩⟩
    by_contra within
    exact inside ⟨thread, within⟩

theorem triple_loadNotify (attached : r.file = some file)
    (notifying : r.configFlags &&& psmiConfigNoNotify = 0) :
    channel.Triple thread (Following thread r since) (call (.load file Offset.notify))
      (fun n world => ∃ noted, Note since file noted n ∧ Following thread r noted world ∧
        Based thread file noted world) := by
  refine triple_quiet (fun n => stable_exists fun noted => stable_and stable_pure
    (stable_and Following.stable Based.stable)) ?_
  intro state reply after inv following executed
  obtain ⟨quiet, asleep, sampled⟩ := quiet_loadWord inv (by decide) executed
  have awake : after.asleep thread = none := by
    rw [asleep]
    exact following.outside.asleep
  obtain ⟨cached, -⟩ := following.attached attached
  obtain ⟨g, valid⟩ := inv.disk.valid cached.installed
  have audible : ¬ state.disk.NoNotify file := by
    intro silent
    rw [cached.configFlags] at notifying
    exact silent notifying
  obtain ⟨rfl, rfl⟩ := executed
  refine ⟨quiet, awake, state.disk, ⟨following.evolves, inv.disk, cached.installed, audible,
    valid.notified, ?_⟩, following.refresh.quiet quiet awake sampled, ?_⟩
  · obtain ⟨marks, owing⟩ := state.owing_exists
    rcases (inv.settled owing).counted cached.installed audible with orphaned | ⟨-, same⟩ | ⟨-, one⟩
    · exact .inl orphaned
    · exact .inr (Nat.le_of_eq same.symm)
    · exact .inr (by omega)
  · change (Function.update state.log thread _ thread).notifyBase file = _
    rw [Function.update_self]
    rfl

/-- Unless there was another store since the note, the last publish is the one the waiter
knows. -/
structure Resting (thread : Tid) (r : Reader) (file : FileId) (noted : Disk) (generation : UInt32)
    (world : World) : Prop where
  following : Following thread r noted world
  attached : r.file = some file
  based : Based thread file noted world
  rest : world.disk.stores file = noted.stores file →
    ∀ publish, (noted.image file).history.getLast? = some publish → publish.generation = generation

theorem Resting.stable {noted : Disk} {generation : UInt32} (here : noted.installed file = true) :
    channel.Stable thread (Resting thread r file noted generation) := by
  intro before after resting rely inv
  refine ⟨Following.stable _ _ resting.following rely inv, resting.attached,
    Based.stable _ _ resting.based rely inv, fun same => resting.rest ?_⟩
  have early : noted.stores file ≤ before.disk.stores file :=
    (resting.following.evolves.image here).stores
  have late : before.disk.stores file ≤ after.disk.stores file :=
    ((Rely.disk rely).image (resting.following.evolves.installed here)).stores
  omega

/-- `read_latest` found nothing new: what it returned says so, or there was a store. -/
theorem Outcome.resting {noted : Disk} {generation : UInt32} {code : Code} {info : Option Info}
    {buffer : List UInt8} {world : World}
    (outcome : Outcome thread r file noted false world code info buffer)
    (here : noted.installed file = true) (attached : r.file = some file)
    (based : Based thread file noted world)
    (nothing : ¬ (code = .ok ∧ info.map (·.generation) ≠ some generation)) :
    Resting thread r file noted generation world := by
  refine ⟨outcome.following, attached, based, fun same publish last => ?_⟩
  have image := outcome.following.evolves.image here
  have history : (world.disk.image file).history = (noted.image file).history :=
    (image.still same).1
  cases outcome with
  | @empty x _ bare =>
      have grows : x.stores ≤ world.disk.stores file := bare.evolves.stores
      have start := bare.stores
      have still := (bare.evolves.still (show world.disk.stores file = x.stores by omega)).1
      rw [← history, still, bare.empty] at last
      exact nomatch last
  | moved _ _ _ moved => omega
  | @shown _ info _ x g index other read observed =>
      have grows : x.stores ≤ world.disk.stores file := observed.sampled.evolves.stores
      have start := observed.anchor.stores
      have equal : world.disk.stores file = x.stores := by omega
      have still := (observed.sampled.evolves.still equal).1
      rw [← history, still, observed.anchor.last, Option.some.injEq] at last
      rcases read with rfl | ⟨-, copies⟩
      · have known : info.generation = generation := by
          by_contra news
          exact nothing ⟨rfl, fun shown => news (Option.some.inj shown)⟩
        rw [← last, ← (observed.shows (.inr equal)).generation]
        exact known
      · exact nomatch copies

/-- A waiter that finds `notify` as it noted it may sleep. -/
theorem Resting.calm {noted : Disk} {generation n : UInt32} {marks : Marks} {world : World}
    (resting : Resting thread r file noted generation world) (note : Note since file noted n)
    (active : Active noted file) (inv : Inv world) (owing : world.Owing marks)
    (same : (world.disk.memory file).word32 Offset.notify = n)
    (few : world.disk.notifies file < noted.notifies file + 2 ^ 32) :
    world.disk.Calm marks file generation := by
  have evolves := resting.following.evolves
  have image := evolves.image note.here
  have here := evolves.installed note.here
  have notifying : ¬ world.disk.NoNotify file := by
    rw [evolves.noNotify_iff note.here]
    exact note.notifying
  obtain ⟨g, valid⟩ := inv.disk.valid here
  -- equal words are equal counts, as there were fewer than 2^32 increments
  have notifies : world.disk.notifies file = noted.notifies file := by
    have word : ((world.disk.memory file).word32 Offset.notify).toNat =
        world.disk.notifies file % 2 ^ 32 := valid.notified
    have grows : noted.notifies file ≤ world.disk.notifies file := image.notifies
    have count := note.count
    rw [same] at word
    omega
  have grows : noted.stores file ≤ world.disk.stores file := image.stores
  rcases (inv.settled owing).counted here notifying with orphaned | ⟨-, told⟩ | ⟨pending, -⟩
  · exact .inl orphaned
  · rcases note.told with orphaned | before
    · exact .inl (evolves.orphaned orphaned)
    · have still : world.disk.stores file = noted.stores file := by omega
      obtain ⟨history, retired, -⟩ := image.still still
      refine .inr (.inr ⟨fun gone => active note.here (retired gone), fun publish last => ?_⟩)
      rw [history] at last
      exact resting.rest still publish last
  · exact .inr (.inl (by rw [pending]; rfl))

/-- A waiter, asleep or not. -/
def Dozing (thread : Tid) (r : Reader) (since : Disk) (world : World) : Prop :=
  Following thread r since (world.setAsleep thread none)

theorem quiet_setAsleep (world : World) (asleep : Option FileId) :
    Quiet thread world (world.setAsleep thread asleep) :=
  ⟨rfl, rfl, rfl, rfl, rfl, rfl, fun _ _ => rfl,
    fun _ distinct => Function.update_of_ne distinct _ _, UInt64.le_refl _, .inl rfl, id⟩

theorem quiet_futexWait (world : World) (file : FileId) (asleep : Option FileId) :
    Quiet thread world ((world.setLog thread ((world.log thread).futexWait world.disk file)).setAsleep
      thread asleep) ∧
    (((world.setLog thread ((world.log thread).futexWait world.disk file)).setAsleep
      thread asleep).log thread).sampled = (world.log thread).sampled := by
  have own : ((world.setLog thread ((world.log thread).futexWait world.disk file)).setAsleep
      thread asleep).log thread = (world.log thread).futexWait world.disk file :=
    Function.update_self _ _ _
  refine ⟨⟨rfl, rfl, rfl, rfl, rfl, rfl, fun _ distinct => Function.update_of_ne distinct _ _,
    fun _ distinct => Function.update_of_ne distinct _ _, UInt64.le_refl _, .inl ?_, ?_⟩, ?_⟩
  · rw [own]
    rfl
  · rw [own]
    exact id
  · rw [own]
    rfl

theorem Dozing.stable : channel.Stable thread (Dozing thread r since) := by
  intro before after dozing rely inv
  have awake : (after.setAsleep thread none).asleep thread = none := Function.update_self _ _ _
  obtain ⟨disk, fds, crit, marks, log, asking, -, now, unpublished, frozen⟩ := rely
  exact Following.stable _ _ dozing
    ⟨disk, fds, crit, marks, log, asking, .inr awake, now, unpublished, frozen⟩
    ((quiet_setAsleep after none).guarantee_awake inv awake).inv

theorem triple_futexWaitCall {noted : Disk} {generation n : UInt32} {timeoutNs : UInt64}
    (note : Note since file noted n) (active : Active noted file) :
    channel.Triple thread
      (fun world => Resting thread r file noted generation world ∧ Asking thread generation world)
      (call (.futexWait file n timeoutNs))
      (fun reply => match reply with
        | .ok _ => Dozing thread r noted
        | .error _ => Following thread r noted) := by
  refine Triple.call ?_ ?_
  · intro reply
    cases reply with
    | ok _ => exact Dozing.stable
    | error err => exact Following.stable
  · intro state reply after inv holds executed
    obtain ⟨resting, asking⟩ := holds
    rcases executed with ⟨same, rfl, rfl⟩ | ⟨-, rfl, rfl⟩ | ⟨rfl, rfl⟩
    · have quiet : ∀ asleep, Quiet thread state _ ∧ _ := quiet_futexWait state file
      have own : ((state.setLog thread ((state.log thread).futexWait state.disk file)).setAsleep
          thread (some file)).log thread = (state.log thread).futexWait state.disk file :=
        Function.update_self _ _ _
      have evolves := resting.following.evolves
      refine ⟨(quiet (some file)).1.guarantee inv (fun other sleeps => ?_), ?_⟩
      · obtain rfl : file = other := by
          have queue : Function.update state.asleep thread (some file) thread = some other := sleeps
          rw [Function.update_self] at queue
          exact Option.some.inj queue
        refine ⟨evolves.installed note.here, ?_, ?_⟩
        · rw [evolves.noNotify_iff note.here]
          exact note.notifying
        · rw [own]
          unfold Log.futexWait
          by_cases few : state.disk.notifies file < noted.notifies file + 2 ^ 32
          · refine .inr (fun marks owing => ?_)
            rw [show state.asking thread = generation from asking]
            exact resting.calm note active inv owing same few
          · refine .inl ?_
            rw [show (state.log thread).notifyBase file = _ from resting.based]
            simp only [Bool.or_eq_true, decide_eq_true_eq]
            exact .inr (Nat.not_lt.mp few)
      · have woken : ∀ world : World, (world.setAsleep thread (some file)).setAsleep thread none =
            world.setAsleep thread none := by
          intro world
          unfold World.setAsleep
          rw [Function.update_idem]
        change Following thread r noted (World.setAsleep _ thread none)
        rw [woken]
        exact resting.following.quiet (quiet none).1 (Function.update_self _ _ _) (quiet none).2
    · exact ⟨guarantee_same inv, resting.following⟩
    · exact ⟨guarantee_same inv, resting.following⟩

theorem triple_futexSleep :
    channel.Triple thread (Dozing thread r since) (call .futexSleep)
      (fun _ => Following thread r since) := by
  refine triple_quiet (fun _ => Following.stable) ?_
  intro state reply after inv dozing executed
  rcases executed with ⟨awake, -, rfl⟩ | ⟨-, rfl⟩
  · have same : after.setAsleep thread none = after := by
      unfold World.setAsleep
      rw [← awake, Function.update_eq_self]
    rw [Dozing, same] at dozing
    exact ⟨Quiet.refl _ _, awake, dozing⟩
  · exact ⟨quiet_setAsleep _ _, Function.update_self _ _ _, dozing⟩

/-- A reader that waits. -/
abbrev Waiting (thread : Tid) (r : Reader) (since : Disk) (generation : UInt32) (world : World) : Prop :=
  Following thread r since world ∧ Asking thread generation world

theorem Waiting.stable {generation : UInt32} :
    channel.Stable thread (Waiting thread r since generation) :=
  stable_and Following.stable Asking.stable

theorem triple_futexWait {noted : Disk} {generation n : UInt32} {timeoutNs : UInt64}
    (note : Note since file noted n) (active : Active noted file) :
    channel.Triple thread
      (fun world => Resting thread r file noted generation world ∧ Asking thread generation world)
      (futexWait file n timeoutNs)
      (fun _ => Waiting thread r since generation) := by
  have slept : channel.Triple thread
      (fun world => Resting thread r file noted generation world ∧ Asking thread generation world)
      (futexWait file n timeoutNs) (fun _ => Following thread r noted) := by
    unfold futexWait
    refine (triple_futexWaitCall note active).bind fun reply => ?_
    cases reply with
    | error err => exact Triple.done (fun _ following => following)
    | ok _ => exact triple_futexSleep
  refine ((triple_asking slept).weaken (fun _ holds => ⟨?_, holds.2⟩)).strengthen
    (fun _ holds => ⟨holds, holds.2⟩)
  exact holds.1.earlier note.evolves

theorem triple_clockOutside {generation : UInt32} :
    channel.Triple thread (Waiting thread r since generation) (call (.clock .monotonic))
      (fun _ => Waiting thread r since generation) := by
  refine triple_asking (triple_quiet (fun _ => Following.stable) ?_)
  intro state reply after inv following executed
  have quiet : Quiet thread state after := quiet_clock executed
  obtain ⟨-, rfl⟩ := executed
  exact ⟨quiet, following.outside.asleep, following.quiet quiet following.outside.asleep rfl⟩

theorem triple_clockResting {noted : Disk} {generation : UInt32} (here : noted.installed file = true) :
    channel.Triple thread
      (fun world => Resting thread r file noted generation world ∧ Asking thread generation world)
      (call (.clock .monotonic))
      (fun _ world => Resting thread r file noted generation world ∧
        Asking thread generation world) := by
  refine triple_asking (triple_quiet (fun _ => Resting.stable here) ?_)
  intro state reply after inv resting executed
  have quiet : Quiet thread state after := quiet_clock executed
  obtain ⟨-, rfl⟩ := executed
  have awake := resting.following.outside.asleep
  exact ⟨quiet, awake, resting.following.quiet quiet awake rfl, resting.attached, resting.based,
    resting.rest⟩

theorem retired_looks : (retired file).Always Sys.Looks (fun _ => True) :=
  Program.Always.bind (Program.Always.perform (show Offset.state ≠ Offset.notify by decide))
    (fun _ _ => trivial)

theorem triple_waitLoop {generation : UInt32} {deadline : UInt64} (turns : Nat) (r : Reader) :
    channel.Triple thread (Waiting thread r since generation)
      (waitLoop generation deadline turns r)
      (fun result => Following thread result.2 since) := by
  induction turns generalizing r with
  | zero => exact triple_spin.bind fun reply => reply.elim
  | succ turns ih =>
      unfold waitLoop
      refine (triple_asking triple_readerSync).bind fun result => ?_
      obtain ⟨rc, r⟩ := result
      have returned : ∀ {code : Code}, channel.Triple thread (Waiting thread r since generation)
          (.done (code, r)) (fun result => Following thread result.2 since) :=
        Triple.done (fun _ holds => holds.1)
      dsimp only
      split
      · next file attached =>
          refine Triple.strengthen (?_ : channel.Triple thread
            (Waiting thread r since generation) _ _) (fun _ holds => ⟨holds.1.1, holds.2⟩)
          split
          · exact returned
          next notifying =>
            refine (triple_asking (triple_loadNotify attached (by simpa using notifying))).bind
              fun n => ?_
            intro state inv holds
            obtain ⟨⟨noted, note, following, based⟩, asking⟩ := holds
            refine ((triple_asking (triple_based retired_looks triple_retired)).bind fun gone => ?_)
              state inv ⟨⟨following, based⟩, asking⟩
            cases gone with
            | true =>
                exact (ih r).strengthen
                  (fun _ holds => ⟨holds.1.1.1.earlier note.evolves, holds.2⟩)
            | false =>
                intro state inv holds
                obtain ⟨⟨⟨following, active⟩, based⟩, asking⟩ := holds
                refine ((triple_asking (triple_based (readLoop_looks 0 false readRetries [])
                  (triple_readLatest note.inv attached))).bind fun result => ?_)
                  state inv ⟨⟨following, based⟩, asking⟩
                -- whatever the result, the reader still follows the file
                have left : ∀ {code : Code}, channel.Triple thread
                    (fun world => (Outcome thread r file noted false world result.1 result.2.1
                      result.2.2 ∧ Based thread file noted world) ∧ Asking thread generation world)
                    (.done (code, r)) (fun result => Following thread result.2 since) :=
                  Triple.done (fun _ holds => holds.1.1.following.earlier note.evolves)
                split
                · exact left
                next nothing =>
                  split
                  · exact left
                  refine Triple.strengthen (?_ : channel.Triple thread
                    (fun world => Resting thread r file noted generation world ∧
                      Asking thread generation world) _ _)
                    (fun _ holds => ⟨holds.1.1.resting note.here attached holds.1.2 nothing, holds.2⟩)
                  refine (triple_clockResting note.here).bind fun now => ?_
                  split
                  · exact Triple.done (fun _ holds => holds.1.following.earlier note.evolves)
                  refine (triple_futexWait note (active rfl)).bind fun woken => ?_
                  cases woken with
                  | ok _ => exact ih r
                  | error err =>
                      cases err
                      case eagain => exact ih r
                      case etimedout =>
                        refine (triple_asking triple_identityCheck).bind fun checked => ?_
                        split
                        · exact Triple.done (fun _ holds => holds.1)
                        · exact ih checked.2
                      all_goals exact returned
      · refine Triple.strengthen (?_ : channel.Triple thread
          (Waiting thread r since generation) _ _) (fun _ holds => ⟨holds.1.1, holds.2⟩)
        refine triple_clockOutside.bind fun now => ?_
        split
        · exact returned
        refine (triple_skip (.nanosleep _) trivial Waiting.stable).bind fun interrupted => ?_
        split
        · exact returned
        · exact ih r
      · exact Triple.done (fun _ holds => holds.1.1)

theorem triple_psmsgrStateWait {generation : UInt32} {turns : Nat} {timeoutMs : Int} :
    channel.Triple thread (Waiting thread r since generation)
      (psmsgrStateWait turns r generation timeoutMs)
      (fun result => Following thread result.2 since) := by
  unfold psmsgrStateWait
  split
  · exact triple_waitLoop turns r
  · exact triple_clockOutside.bind fun _ => triple_waitLoop turns r

end PsMsgr
