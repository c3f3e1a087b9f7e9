import PsMsgr.Channel.Vacancy
import PsMsgr.Still.Turns

namespace PsMsgr

open Effect Data

/-- What `psmsgr_state_read` makes of the outcome of `read_latest`. -/
def replyOf (r : Reader) (outcome : Code × Option Info × List UInt8) : ReadReply × Reader :=
  if outcome.1 = .ok || outcome.1 = .toosmall then
    (⟨outcome.1, (announce r outcome.2.1).1, outcome.2.2⟩, (announce r outcome.2.1).2)
  else (⟨outcome.1, outcome.2.1, outcome.2.2⟩, r)

/-- What is left of a read when the reader is attached. -/
def pausedRead (r : Reader) (latest : Prog (Code × Option Info × List UInt8)) :
    Prog (Handle × Result) :=
  latest >>= fun outcome => return (.reader (replyOf r outcome).2, .read (replyOf r outcome).1)

/-- What is left of `read_latest` after a turn of its loop. -/
def afterTurn (r : Reader) (map : FileId) (size : UInt32) (copy : Bool) (tries : Nat) :
    Attempt → Prog (Code × Option Info × List UInt8)
  | .result code info buffer => return (code, info, buffer)
  | .again buffer => do
      if readRetries - (tries + 1) ≥ 3 then
        call .schedYield
      readLoop r map size copy tries buffer

theorem readLatest_eq (r : Reader) (map : FileId) (buffer : List UInt8) (size : UInt32)
    (copy : Bool) : readLatest r map buffer size copy =
      readAttempt r map buffer size copy >>= afterTurn r map size copy 63 := by
  refine congrArg (readAttempt r map buffer size copy >>= ·) (funext fun turn => ?_)
  cases turn with
  | result code info buffer => rfl
  | again buffer => rfl

/-- What is left of a turn once `latest` has been loaded. -/
def afterLatest (r : Reader) (map : FileId) (buffer : List UInt8) (size : UInt32) (copy : Bool)
    (latest : UInt32) : Prog Attempt := do
  if latest = psmiLatestNone then
    return .result .nodata none buffer
  if !psmiLatestValid latest r.slotCount then
    return .result .format none buffer
  let i := psmiLatestSlot latest
  let s := slotOffset r.slotStride i
  let q1 ← call (.load map s)
  if (q1 &&& 1) = 0 ∧ psmiLatest i q1 = latest then
    let m := SlotCopy.ofBytes (← loadBytes map s Offset.reserved)
    if copy && m.length ≤ size && m.length ≤ r.capacity then
      let payload ← loadBytes map (s + Offset.payload) m.length.toNat
      recheck r map s q1 m (payload ++ buffer.drop payload.length) size copy
    else
      recheck r map s q1 m buffer size copy
  else
    return .again buffer

theorem readAttempt_eq (r : Reader) (map : FileId) (buffer : List UInt8) (size : UInt32)
    (copy : Bool) : readAttempt r map buffer size copy =
      call (.load map Offset.latest) >>= afterLatest r map buffer size copy := rfl

section

variable {thread : Tid} {world : World} {r synced : Reader} {file : FileId}

theorem leads_read {buffer : Option (List UInt8)} {size : UInt32} (given : buffer = none → size = 0)
    (sync : (readerSync r).eval world.disk.answer = some (.ok, synced))
    (attached : synced.file = some file) :
    ∃ after, ((Handle.reader r).program (.read buffer size)).Leads (exec thread) world
        (pausedRead synced (readLatest synced file (buffer.getD []) size true)) after ∧
      after.disk = world.disk := by
  obtain ⟨after, runs, disk⟩ := @runs_of_eval thread world _ _ _ sync
  refine ⟨after, ?_, disk⟩
  change (psmsgrStateRead r buffer size >>= fun returned =>
    return (Handle.reader returned.2, Result.read returned.1)).Leads _ _ _ _
  have leads : (psmsgrStateRead r buffer size).Leads (exec thread) world
      (readLatest synced file (buffer.getD []) size true >>= fun outcome =>
        return replyOf synced outcome) after := by
    rw [psmsgrStateRead, if_neg (not_refused given)]
    refine (runs.leads _).trans ?_
    dsimp only
    rw [attached]
    dsimp only
    have same : (fun outcome : Code × Option Info × List UInt8 => do
        if outcome.1 = .ok || outcome.1 = .toosmall then
          return (⟨outcome.1, (announce synced outcome.2.1).1, outcome.2.2⟩,
            (announce synced outcome.2.1).2)
        return (⟨outcome.1, outcome.2.1, outcome.2.2⟩, synced)) =
        fun outcome => (return replyOf synced outcome : Prog (ReadReply × Reader)) := by
      funext outcome
      unfold replyOf
      split <;> rfl
    rw [← same]
    exact .refl _ _
  have finished := leads.bind fun returned =>
    (return (Handle.reader returned.2, Result.read returned.1) : Prog (Handle × Result))
  rw [Program.bind_assoc] at finished
  exact finished

/-- A reader that has loaded `latest` copies a slot whose counter matches it, and is then about to
see whether the slot has changed meanwhile. -/
theorem leads_afterLatest {i latest size : UInt32} {publish : Publish}
    (even : (world.disk.memory file).word32 (slotOffset r.slotStride i) &&& 1 = 0)
    (named : latest = psmiLatest i ((world.disk.memory file).word32 (slotOffset r.slotStride i)))
    (holds : Holds (world.disk.memory file) (slotOffset r.slotStride i) publish)
    (bound : i.toNat < 16) (inside : i < r.slotCount) (fits : publish.length ≤ r.capacity)
    (large : publish.length ≤ size) (buffer : List UInt8) :
    ∃ after, (afterLatest r file buffer size true latest).Leads (exec thread) world
        (recheck r file (slotOffset r.slotStride i)
          ((world.disk.memory file).word32 (slotOffset r.slotStride i))
          ⟨publish.generation, publish.timestampNs, publish.length⟩
          (publish.payload ++ buffer.drop publish.payload.length) size true) after ∧
      after.disk = world.disk := by
  let memory := world.disk.memory file
  let s := slotOffset r.slotStride i
  have accepted : (!psmiLatestValid latest r.slotCount) = false := by
    rw [named, psmiLatestValid_psmiLatest _ bound (UInt32.lt_iff_toNat_lt.mp inside)]
    rfl
  have published : latest ≠ psmiLatestNone := by
    rw [named]
    exact psmiLatest_ne_none _ bound
  have slot : psmiLatestSlot latest = i := by
    rw [named]
    exact psmiLatestSlot_psmiLatest _ bound
  obtain ⟨first, seq, disk₁⟩ := @runs_of_eval thread world _ (call (.load file s)) (memory.word32 s)
    rfl
  obtain ⟨second, header, disk₂⟩ := @runs_of_eval thread first _ (loadBytes file s Offset.reserved)
    (memory.read s Offset.reserved) (by rw [disk₁]; exact eval_loadBytes _ _)
  obtain ⟨after, payload, disk₃⟩ := @runs_of_eval thread second _
    (loadBytes file (s + Offset.payload) publish.length.toNat)
    (memory.read (s + Offset.payload) publish.length.toNat)
    (by rw [disk₂, disk₁]; exact eval_loadBytes _ _)
  refine ⟨after, ?_, by rw [disk₃, disk₂, disk₁]⟩
  rw [afterLatest, if_neg published, accepted, if_neg Bool.false_ne_true, slot]
  refine (seq.leads _).trans ?_
  rw [if_pos ⟨even, named.symm⟩]
  refine (header.leads _).trans ?_
  dsimp only
  rw [SlotCopy.ofBytes_read, holds.length]
  have copies : (true && decide (publish.length ≤ size) && decide (publish.length ≤ r.capacity)) =
      true := by
    rw [decide_eq_true large, decide_eq_true fits]
    rfl
  rw [copies, if_pos rfl]
  refine (payload.leads _).trans ?_
  rw [holds.payload, holds.generation, holds.timestampNs]
  exact .refl _ _

theorem leads_loaded (buffer : List UInt8) (size : UInt32) (copy : Bool) :
    ∃ after, (readAttempt r file buffer size copy).Leads (exec thread) world
        (afterLatest r file buffer size copy ((world.disk.memory file).word32 Offset.latest)) after ∧
      after.disk = world.disk := by
  obtain ⟨after, latest, disk⟩ := @runs_of_eval thread world _ (call (.load file Offset.latest)) _
    rfl
  rw [readAttempt_eq]
  exact ⟨after, latest.leads _, disk⟩

theorem leads_readAttempt {i : UInt32} {publish : Publish} {size : UInt32}
    (current : Current (world.disk.memory file) r.slotStride i publish) (bound : i.toNat < 16)
    (inside : i < r.slotCount) (fits : publish.length ≤ r.capacity) (large : publish.length ≤ size)
    (buffer : List UInt8) :
    ∃ after, (readAttempt r file buffer size true).Leads (exec thread) world
        (recheck r file (slotOffset r.slotStride i)
          ((world.disk.memory file).word32 (slotOffset r.slotStride i))
          ⟨publish.generation, publish.timestampNs, publish.length⟩
          (publish.payload ++ buffer.drop publish.payload.length) size true) after ∧
      after.disk = world.disk := by
  obtain ⟨loaded, loads, disk⟩ := @leads_loaded thread world r file buffer size true
  obtain ⟨after, copies, same⟩ := @leads_afterLatest thread loaded r file i
    ((world.disk.memory file).word32 Offset.latest) size publish (by rw [disk]; exact current.even)
    (by rw [disk]; exact current.named) (by rw [disk]; exact current.holds) bound inside fits large
    buffer
  rw [disk] at copies same
  exact ⟨after, loads.trans copies, same⟩

theorem leads_copied {w : Writer} {gen len size : UInt32} {bytes buffer : List UInt8}
    (fitted : Fitted w world) (offers : world.disk.Offers w.file gen len bytes)
    (large : len ≤ size) :
    let synced := Reader.attachedTo w.file (Header.ofMemory (world.disk.memory w.file))
    ∃ i m after, ((Handle.reader Reader.unattached).program (.read (some buffer) size)).Leads
        (exec thread) world (pausedRead synced (recheck synced w.file (writerSlot w i)
          ((world.disk.memory w.file).word32 (writerSlot w i)) m
          (bytes ++ buffer.drop bytes.length) size true >>=
            afterTurn synced w.file size true 63)) after ∧
      after.disk = world.disk ∧
      i = psmiLatestSlot ((world.disk.memory w.file).word32 Offset.latest) := by
  intro synced
  obtain ⟨i, publish, current, bound, inside, fits, -, rfl, rfl⟩ :=
    fitted.current offers fitted.attached
  obtain ⟨middle, syncs, disk⟩ := @leads_read thread world _ _ w.file (some buffer) size nofun
    fitted.sync rfl
  obtain ⟨after, copies, same⟩ := @leads_readAttempt thread middle synced w.file i publish size
    (disk ▸ current) bound inside fits large buffer
  have stride : slotOffset synced.slotStride i = writerSlot w i := by
    rw [writerSlot, fitted.attached.slotStride]
  rw [readLatest_eq] at syncs
  have leads := syncs.trans ((copies.bind _).bind _)
  rw [disk, stride] at leads
  refine ⟨i, _, after, leads, same.trans disk, ?_⟩
  rw [current.named, psmiLatestSlot_psmiLatest _ bound]

theorem steps_copied {system : System processes} {w : Writer} {gen len size : UInt32}
    {bytes buffer : List UInt8} (idle : system.threads thread = .idle Handle.fresh)
    (fitted : Fitted w system.state) (offers : system.state.disk.Offers w.file gen len bytes)
    (large : len ≤ size) (whole : buffer.length = size.toNat) :
    let synced := Reader.attachedTo w.file (Header.ofMemory (system.state.disk.memory w.file))
    ∃ i m later, Steps channel processes system later ∧
      later.state.disk = system.state.disk ∧
      later.threads thread =
        .busy (Handle.reader Reader.unattached) (Request.read (some buffer) size) system.state
          (pausedRead synced (recheck synced w.file (writerSlot w i)
            ((system.state.disk.memory w.file).word32 (writerSlot w i)) m
            (bytes ++ buffer.drop bytes.length) size true >>=
              afterTurn synced w.file size true 63)) ∧
      (∀ other, other ≠ thread → later.threads other = system.threads other) ∧
      i = psmiLatestSlot ((system.state.disk.memory w.file).word32 Offset.latest) := by
  intro synced
  obtain ⟨i, m, after, leads, disk, slot⟩ :=
    @leads_copied thread system.state w gen len size bytes buffer fitted offers large
  have opens := steps_readerOpen idle
  have reads := @Steps.begun _ _ _ _ _ channel processes
    (system.set thread system.state (.idle (Handle.reader Reader.unattached))) thread _
    (Request.read (some buffer) size) _ _ System.set_thread
    (fun _ same => by cases same; exact whole) leads
  rw [System.set_set] at reads
  exact ⟨i, m, _, opens.trans reads, disk, System.set_thread, fun _ => System.set_other, slot⟩

theorem steps_loaded {system : System processes} {w : Writer} {size : UInt32} {buffer : List UInt8}
    (idle : system.threads thread = .idle Handle.fresh) (fitted : Fitted w system.state)
    (whole : buffer.length = size.toNat) :
    let memory := system.state.disk.memory w.file
    let synced := Reader.attachedTo w.file (Header.ofMemory memory)
    ∃ later, Steps channel processes system later ∧ later.state.disk = system.state.disk ∧
      later.threads thread =
        .busy (Handle.reader Reader.unattached) (Request.read (some buffer) size) system.state
          (pausedRead synced (afterLatest synced w.file buffer size true
            (memory.word32 Offset.latest) >>= afterTurn synced w.file size true 63)) ∧
      ∀ other, other ≠ thread → later.threads other = system.threads other := by
  intro memory synced
  obtain ⟨middle, syncs, disk⟩ := @leads_read thread system.state _ _ w.file (some buffer) size
    nofun fitted.sync rfl
  obtain ⟨after, loads, same⟩ := @leads_loaded thread middle synced w.file buffer size true
  rw [readLatest_eq] at syncs
  rw [disk] at loads same
  have opens := steps_readerOpen idle
  have reads := @Steps.begun _ _ _ _ _ channel processes
    (system.set thread system.state (.idle (Handle.reader Reader.unattached))) thread _
    (Request.read (some buffer) size) _ _ System.set_thread
    (fun _ same => by cases same; exact whole) (syncs.trans ((loads.bind _).bind _))
  rw [System.set_set] at reads
  exact ⟨_, opens.trans reads, same, System.set_thread, fun _ => System.set_other⟩

/-- If the slot has changed, the reader starts again with the buffer as the copy left it. -/
theorem runs_recheck {s : Nat} {q1 size : UInt32} {m : SlotCopy} {buffer : List UInt8}
    (changed : (world.disk.memory file).word32 s ≠ q1) (tries : Nat) :
    ∃ after, (pausedRead r (recheck r file s q1 m buffer size true >>=
        afterTurn r file size true (tries + 1))).Runs (exec thread) world
        (.reader (stillReply (world.disk.memory file) r buffer size true).2,
          .read (stillReply (world.disk.memory file) r buffer size true).1) after ∧
      after.disk = world.disk := by
  have loops : (afterTurn r file size true (tries + 1) (.again buffer)).eval world.disk.answer =
      some (stillLatest (world.disk.memory file) r buffer size true) := by
    rw [afterTurn]
    dsimp only
    split
    · rw [eval_call_bind _ rfl]
      exact eval_readLoop r buffer size true tries
    · exact eval_readLoop r buffer size true tries
  have checks : (recheck r file s q1 m buffer size true).eval world.disk.answer =
      some (.again buffer) := by
    rw [recheck, eval_call_bind _ rfl, if_neg changed]
    rfl
  refine runs_of_eval ?_
  rw [pausedRead, Program.eval_bind, Program.eval_bind, checks, Option.bind_some, loops]
  rfl

theorem runs_recheck_same {s : Nat} {size : UInt32} {m : SlotCopy} {buffer : List UInt8}
    (fits : m.length ≤ r.capacity) (large : m.length ≤ size) (tries : Nat) :
    ∃ after, (pausedRead r (recheck r file s ((world.disk.memory file).word32 s) m buffer size true
        >>= afterTurn r file size true tries)).Runs (exec thread) world
        (.reader (replyOf r (.ok, some ⟨m.generation, m.length, m.timestampNs, 0⟩, buffer)).2,
          .read (replyOf r (.ok, some ⟨m.generation, m.length, m.timestampNs, 0⟩, buffer)).1)
        after ∧
      after.disk = world.disk := by
  refine runs_of_eval ?_
  have whole : (!true || decide (m.length ≤ size)) = true := decide_eq_true large
  rw [pausedRead, Program.eval_bind, Program.eval_bind, eval_recheck,
    if_neg (UInt32.not_lt.mpr fits), whole, if_pos rfl]
  rfl

/-- A reader that has loaded `latest` returns what it now finds in the slot named. -/
theorem runs_afterLatest {i latest size : UInt32} {publish : Publish}
    (even : (world.disk.memory file).word32 (slotOffset r.slotStride i) &&& 1 = 0)
    (named : latest = psmiLatest i ((world.disk.memory file).word32 (slotOffset r.slotStride i)))
    (holds : Holds (world.disk.memory file) (slotOffset r.slotStride i) publish)
    (bound : i.toNat < 16) (inside : i < r.slotCount) (fits : publish.length ≤ r.capacity)
    (large : publish.length ≤ size) (buffer : List UInt8) :
    let outcome := replyOf r (.ok,
      some ⟨publish.generation, publish.length, publish.timestampNs, 0⟩,
      publish.payload ++ buffer.drop publish.payload.length)
    ∃ after, (pausedRead r (afterLatest r file buffer size true latest >>=
        afterTurn r file size true 63)).Runs (exec thread) world
        (.reader outcome.2, .read outcome.1) after ∧
      after.disk = world.disk := by
  obtain ⟨copied, copies, disk⟩ := @leads_afterLatest thread world r file i latest size publish even
    named holds bound inside fits large buffer
  obtain ⟨after, returns, disk'⟩ := @runs_recheck_same thread copied r file
    (slotOffset r.slotStride i) size ⟨publish.generation, publish.timestampNs, publish.length⟩
    (publish.payload ++ buffer.drop publish.payload.length) fits large 63
  rw [disk] at returns disk'
  exact ⟨after, ((copies.bind _).bind _).runs returns, disk'⟩

theorem sealSlot_unseen (w : Writer) (len : UInt32) :
    (sealSlot w len).Always Sys.Unseen (fun _ => True) := by
  unfold sealSlot
  refine (storeBytes_unseen _ _ _).bind fun _ _ => (storeBytes_unseen _ _ _).bind fun _ _ => ?_
  refine (Program.Always.perform id).bind fun timestamp _ => ?_
  exact (storeBytes_unseen _ _ _).bind fun _ _ => storeSlot_unseen w _ _

theorem publishes_of_unseen {α : Type} {program : Prog α} {result : α → Prop} {after : World}
    {value : α} (unseen : program.Always Sys.Unseen result)
    (runs : program.Runs (execGranted thread) world value after) :
    after.disk.publishes = world.disk.publishes :=
  @Program.Always.preserves _ _ _ _ (execGranted thread) _ _
    (fun later => later.disk.publishes = world.disk.publishes) _ _ _ _ unseen
    (fun silent executed same => (exec_unseen executed.1 silent).trans same) runs rfl

/-- A writer that is about to store `latest`, and may do so whatever happens until then. -/
theorem leads_pending {w : Writer} {data : Option (List UInt8)} {len : UInt32}
    (fitted : Fitted w world) (value : Publishable w.capacity data len) :
    ∃ timestamp rest after,
      ((Handle.writer w).program (.publish data len)).Leads (exec thread) world rest after ∧
      world.Wrote w.file (pendingMemory w ((data.getD []).take len.toNat) len timestamp
        (world.disk.memory w.file)) after ∧
      after.disk.publishes = world.disk.publishes ∧
      ∀ later, ∃ final, rest.Runs (exec thread) later
        (.writer (w.published (world.disk.memory w.file)), .published .ok (some w.gen)) final := by
  let memory := world.disk.memory w.file
  have expects := expects_granted thread
  have begins := @ends_beginSlot True thread world world memory _ w expects (.refl world w.file)
  obtain ⟨_, first, begun, rfl, wrote₁⟩ := begins.occurs
  have copies := @ends_storeBytes True thread world first w.file _ _ expects wrote₁
    (writerSlot w (slotAfter w.latest w.slotCount) + Offset.payload) ((data.getD []).take len.toNat)
  obtain ⟨_, second, copied, wrote₂⟩ := copies.occurs
  have seals := @ends_sealSlot True thread world second _ _ (w.begun memory) expects wrote₂ len
  obtain ⟨_, after, sealed, timestamp, wrote₃⟩ := seals.occurs
  have leads : (psmsgrStatePublish w data len).Leads (exec thread) world
      (publishSlot (w.begun memory) >>= fun returned =>
        return (Code.ok, some returned.1, returned.2)) after := by
    rw [psmsgrStatePublish, if_neg (not_refused value.given), if_neg (not_not.mpr fitted.closed),
      if_neg (UInt32.not_lt.mpr value.fits)]
    refine ((Program.Runs.granted begun).leads _).trans ?_
    refine ((Program.Runs.granted copied).leads _).trans ?_
    rw [commitSlot_eq, Program.bind_assoc]
    exact (Program.Runs.granted sealed).leads _
  refine ⟨timestamp, _, after, leads.bind _, wrote₃, ?_, fun later => ?_⟩
  · exact (publishes_of_unseen (sealSlot_unseen _ len) sealed).trans
      ((publishes_of_unseen (storeBytes_unseen _ _ _) copied).trans
        (publishes_of_unseen (beginSlot_unseen w) begun))
  have publishes := @ends_publishSlot True thread later later _ _ (w.begun memory) expects
    (.refl later w.file)
  obtain ⟨_, final, published, rfl, -⟩ := publishes.occurs
  have returns : (publishSlot (w.begun memory) >>= fun returned =>
      (return (Code.ok, some returned.1, returned.2) : Prog (Code × Option UInt32 × Writer))).Runs
      (exec thread) later (.ok, some w.gen, w.published memory) final :=
    (Program.Runs.granted published).bind ⟨rfl, rfl⟩
  exact ⟨final, returns.bind ⟨rfl, rfl⟩⟩

end

section

variable {w : Writer} {g : Geometry} {memory : Memory} {data : List UInt8} {len : UInt32}
  {timestamp : UInt64}

theorem pendingMemory_slot (seated : Seated w g) (whole : data.length = len.toNat) :
    (pendingMemory w data len timestamp memory).word32 (g.slot w.target) =
      (memory.word32 (g.slot w.target) &&& ~~~1) + 2 ∧
    ∃ publish, Holds (pendingMemory w data len timestamp memory) (g.slot w.target) publish ∧
      publish.generation = w.gen ∧ publish.length = len ∧ publish.payload = data := by
  have above := g.slot_ge w.target
  have same : ∀ address, g.slot w.target ≤ address →
      pendingMemory w data len timestamp memory address =
        publishedMemory w data len timestamp memory address := by
    intro address lower
    refine (publishedMemory_pending (.inr ?_)).symm
    simp only [Offset.notify]
    omega
  obtain ⟨-, seq, generation, length, stamp, payload⟩ :=
    @publishedMemory_slot w g memory data len timestamp seated whole
  constructor
  · rw [← seq]
    exact Memory.word32_congr (Memory.read_congr fun address lower _ => same address lower)
  · let publish : Publish := ⟨w.file, 0, none, w.gen, len, timestamp, data⟩
    have holds : Holds (publishedMemory w data len timestamp memory) (g.slot w.target) publish :=
      ⟨generation, length, stamp, payload⟩
    exact ⟨publish, holds.congr fun address lower _ => same address (by omega), rfl, rfl, rfl⟩

variable {world after : World}

theorem Fitted.pending (fitted : Fitted w world)
    (wrote : world.Wrote w.file (pendingMemory w data len timestamp (world.disk.memory w.file))
      after) : Fitted w after := by
  obtain ⟨g, shape, seated⟩ := fitted.shape
  have above := g.slot_ge w.target
  refine fitted.wrote wrote (fun address below => pendingMemory_apply seated (.inl ?_)) rfl id
    fitted.closed fitted.gen
  simp only [Offset.latest] at below
  omega

theorem header_pending (seated : Seated w g)
    (wrote : world.Wrote w.file (pendingMemory w data len timestamp (world.disk.memory w.file))
      after) :
    Header.ofMemory (after.disk.memory w.file) = Header.ofMemory (world.disk.memory w.file) := by
  refine Header.ofMemory_congr fun address below => ?_
  have above := g.slot_ge w.target
  rw [wrote.memory_eq]
  refine pendingMemory_apply seated (.inl ?_)
  simp only [Offset.state] at below
  omega

/-- The value in another slot is offered until `latest` is stored. -/
theorem Disk.Offers.pending {gen len' : UInt32} {bytes : List UInt8} (fitted : Fitted w world)
    (offers : world.disk.Offers w.file gen len' bytes)
    (elsewhere : (psmiLatestSlot ((world.disk.memory w.file).word32 Offset.latest)).toNat ≠
      w.target) (fits : data.length ≤ w.capacity.toNat)
    (wrote : world.Wrote w.file (pendingMemory w data len timestamp (world.disk.memory w.file))
      after) : after.disk.Offers w.file gen len' bytes := by
  obtain ⟨g, i, publish, shape, inside, current, generation, length, small, payload⟩ := offers
  obtain ⟨g', shape', seated⟩ := fitted.shape
  obtain rfl := shape.unique shape'
  have bound : i.toNat < 16 := Nat.lt_of_lt_of_le inside g.le_sixteen
  have place : slotOffset g.slotStride i = g.slot i.toNat :=
    g.slotOffset_eq_slot (Nat.le_of_lt bound)
  have above := g.slot_ge w.target
  have wide := g.stride_bounds.1
  rw [current.named, psmiLatestSlot_psmiLatest _ bound] at elsewhere
  have header : ∀ address, address < 128 →
      pendingMemory w data len timestamp (world.disk.memory w.file) address =
        world.disk.memory w.file address :=
    fun address below => pendingMemory_apply seated (.inl (by omega))
  have slot : ∀ address, g.slot i.toNat ≤ address → address < g.slot i.toNat + g.stride →
      pendingMemory w data len timestamp (world.disk.memory w.file) address =
        world.disk.memory w.file address := by
    intro address lower upper
    rw [seated.capacity] at fits
    exact pendingMemory_other seated elsewhere fits lower upper
  have counter : (pendingMemory w data len timestamp (world.disk.memory w.file)).word32
      (slotOffset g.slotStride i) =
        (world.disk.memory w.file).word32 (slotOffset g.slotStride i) := by
    rw [place]
    exact Memory.word32_congr (Memory.read_congr fun address lower upper =>
      slot address lower (by omega))
  have latest : (pendingMemory w data len timestamp (world.disk.memory w.file)).word32
      Offset.latest = (world.disk.memory w.file).word32 Offset.latest :=
    Memory.word32_congr (Memory.read_congr fun address _ upper => header address (by
      simp only [Offset.latest] at upper
      omega))
  refine ⟨g, i, publish, ?_, inside, ⟨?_, ?_, ?_⟩, generation, length, small, payload⟩
  · rw [wrote.memory_eq]
    refine shape.congr fun address below => header address ?_
    simp only [Offset.state] at below
    omega
  · rw [wrote.memory_eq, counter]
    exact current.even
  · rw [wrote.memory_eq, counter, latest]
    exact current.named
  · rw [wrote.memory_eq]
    refine current.holds.congr fun address lower upper => ?_
    rw [place] at lower upper
    have small : publish.length.toNat ≤ g.capacity.toNat := by
      rw [length]
      exact UInt32.le_iff_toNat_le.mp small
    simp only [Offset.generation, Offset.payload] at lower upper
    exact slot address (by omega) (by omega)

end

end PsMsgr
