import PsMsgr.Channel.Critical
import PsMsgr.State.Writer

namespace PsMsgr

open Effect Discipline Data

variable {thread : Tid} {fd : Fd} {w : Writer} {g : Geometry} {disk after : Disk}

/-- The handle describes the file at the data path. -/
structure Attached (w : Writer) (g : Geometry) (disk : Disk) : Prop where
  data : disk.data = some w.file
  valid : (disk.image w.file).Valid g
  slotCount : w.slotCount = g.slotCount
  slotStride : w.slotStride = g.slotStride
  capacity : w.capacity = g.capacity
  notify : w.notify = true ↔ ¬ disk.NoNotify w.file
  latest : w.latest = if (disk.image w.file).history = [] then psmiLatestNone
    else UInt32.ofNat ((disk.image w.file).current g)

/-- A begin is open: the next slot is odd. -/
structure Begun (w : Writer) (g : Geometry) (disk : Disk) : Prop where
  slot : w.openSlot = UInt32.ofNat ((disk.image w.file).next g)
  odd : ((disk.image w.file).seq g ((disk.image w.file).next g)).toNat % 2 = 1
  seq : w.openSeq.toNat = ((disk.image w.file).seq g ((disk.image w.file).next g)).toNat / 2 * 2

theorem Image.slotAfter_current {x : Image} :
    slotAfter (if x.history = [] then psmiLatestNone else UInt32.ofNat (x.current g)) g.slotCount =
      UInt32.ofNat (x.next g) := by
  have most := g.le_sixteen
  have least := g.two_le
  unfold slotAfter
  by_cases empty : x.history = []
  · rw [if_pos empty, if_pos rfl, Image.next, empty, List.length_nil, Nat.zero_mod]
    rfl
  · have positive := List.length_pos_iff.mpr empty
    have current := slotIndex_toNat (Image.current_lt (x := x) (g := g))
    have below := Image.current_lt (x := x) (g := g)
    rw [if_neg empty, if_neg]
    · apply UInt32.toNat_inj.mp
      rw [UInt32.toNat_mod, UInt32.toNat_add, current, slotIndex_toNat Image.next_lt]
      change (_ + 1) % 2 ^ 32 % g.count = _
      unfold Geometry.count at *
      rw [Nat.mod_eq_of_lt (show x.current g + 1 < 2 ^ 32 by omega)]
      change ((_ - 1) % g.count + 1) % g.count = _ % g.count
      rw [Nat.mod_add_mod, Nat.sub_add_cancel positive]
    · intro none
      rw [none] at current
      change 4294967295 = _ at current
      unfold Geometry.count at below
      omega

namespace Attached

theorem here (attached : Attached w g disk) (inv : DiskInv disk) :
    disk.installed w.file = true :=
  (inv.data attached.data).1

theorem writerSlot_eq (attached : Attached w g disk) {i : Nat} (inside : i < g.count) :
    writerSlot w (UInt32.ofNat i) = g.slot i := by
  have most := g.le_sixteen
  have small := slotIndex_toNat inside
  rw [writerSlot, attached.slotStride, g.slotOffset_eq_slot, small]
  rw [small]
  exact Nat.le_of_lt (Nat.lt_of_lt_of_le inside most)

theorem target (attached : Attached w g disk) :
    slotAfter w.latest w.slotCount = UInt32.ofNat ((disk.image w.file).next g) := by
  rw [attached.latest, attached.slotCount]
  exact Image.slotAfter_current

theorem reopen (attached : Attached w g disk) (openSlot openSeq : UInt32) :
    Attached { w with openSlot, openSeq } g disk :=
  ⟨attached.data, attached.valid, attached.slotCount, attached.slotStride, attached.capacity,
    attached.notify, attached.latest⟩

/-- Stores nobody is told about leave the handle's picture right. -/
theorem silent (attached : Attached w g disk) (inv : DiskInv disk) (evolves : disk.Evolves after)
    (silent : disk.Silent after) (valid : (after.image w.file).Valid g) : Attached w g after := by
  have history : (after.image w.file).history = (disk.image w.file).history := by
    simp only [Disk.image, silent.publishes]
  refine ⟨silent.data.trans attached.data, valid, attached.slotCount, attached.slotStride,
    attached.capacity, ?_, ?_⟩
  · rw [evolves.noNotify_iff (attached.here inv)]
    exact attached.notify
  · rw [Image.current, history]
    exact attached.latest

theorem kept (attached : Attached w g disk) (inv : DiskInv disk) (kept : disk.Kept after) :
    Attached w g after := by
  have history : (after.image w.file).history = (disk.image w.file).history := by
    simp only [Disk.image, kept.publishes]
  refine ⟨kept.data.trans attached.data, kept.valid attached.valid, attached.slotCount,
    attached.slotStride, attached.capacity, ?_, ?_⟩
  · rw [kept.evolves.noNotify_iff (attached.here inv)]
    exact attached.notify
  · rw [Image.current, history]
    exact attached.latest

end Attached

variable {publishes : List Publish}

/-- Between begin and commit: the memory of the file is as given. -/
structure Filling (thread : Tid) (w : Writer) (g : Geometry) (publishes : List Publish)
    (memory : Memory) (disk : Disk) (marks : Marks) (found : Option Nat) : Prop where
  idle : marks = Marks.none
  attached : Attached w g disk
  begun : Begun w g disk
  session : Session thread found w.gen disk.publishes
  publishes : disk.publishes = publishes
  memory : disk.memory w.file = memory

/-- The bytes of the open slot behind its counter. -/
def InSlot (w : Writer) (g : Geometry) (address : Nat) : Prop :=
  writerSlot w w.openSlot + Offset.generation ≤ address ∧
    address < writerSlot w w.openSlot + g.stride

theorem Begun.writerSlot_eq (begun : Begun w g disk) (attached : Attached w g disk) :
    writerSlot w w.openSlot = g.slot ((disk.image w.file).next g) := by
  rw [begun.slot]
  exact attached.writerSlot_eq Image.next_lt

theorem Filling.storeByte {memory : Memory} {address : Nat} {marks : Marks} {found : Option Nat}
    (byte : UInt8) (inside : InSlot w g address) (inv : DiskInv disk)
    (filling : Filling thread w g publishes memory disk marks found) :
    (DiskInv (disk.storeByte w.file address byte) ∧
      disk.Evolves (disk.storeByte w.file address byte) ∧
      disk.Silent (disk.storeByte w.file address byte)) ∧
    Filling thread w g publishes (Function.update memory address byte)
      (disk.storeByte w.file address byte) marks found := by
  obtain ⟨lower, upper⟩ := inside
  rw [filling.begun.writerSlot_eq filling.attached] at lower upper
  have valid := filling.attached.valid
  have slot := Image.SlotStep.storeByte byte valid filling.begun.odd lower upper
  rw [← Disk.storeByte_image] at slot
  have effect := Disk.storeByte_slot byte inv (filling.attached.here inv) valid filling.begun.odd
    lower upper
  have seq : ((disk.storeByte w.file address byte).image w.file).seq g
      ((disk.image w.file).next g) = (disk.image w.file).seq g ((disk.image w.file).next g) := by
    rw [Disk.storeByte_image]
    refine Memory.word32_congr (Memory.read_congr (fun other _ _ => ?_))
    simp only [Offset.generation] at lower
    exact Function.update_of_ne (by omega) _ _
  refine ⟨effect, filling.idle, filling.attached.silent inv effect.2.1 effect.2.2
    (slot.valid valid), ⟨?_, ?_, ?_⟩, ?_, ?_, ?_⟩
  · rw [slot.next_eq]
    exact filling.begun.slot
  · rw [slot.next_eq, seq]
    exact filling.begun.odd
  · rw [slot.next_eq, seq]
    exact filling.begun.seq
  · exact filling.session
  · exact filling.publishes
  · rw [Disk.storeByte, Disk.setMemory_memory, filling.memory]

theorem triple_fill {memory : Memory} {offset : Nat} {bytes : List UInt8}
    (lower : Offset.generation ≤ offset) (upper : offset + bytes.length ≤ g.stride) :
    channel.Triple thread (Inside thread fd (Filling thread w g publishes memory))
      (storeBytes w.file (writerSlot w w.openSlot + offset) bytes)
      (fun _ => Inside thread fd (Filling thread w g publishes
        (memory.write (writerSlot w w.openSlot + offset) bytes))) :=
  triple_storeBytes (InSlot w g) (fun byte inside inv filling => filling.storeByte byte inside inv)
    (fun _ _ _ => ⟨by omega, by omega⟩)

/-- Between calls, with no begin open. -/
structure Ready (thread : Tid) (w : Writer) (g : Geometry) (publishes : List Publish)
    (disk : Disk) (marks : Marks) (found : Option Nat) : Prop where
  idle : marks = Marks.none
  attached : Attached w g disk
  session : Session thread found w.gen disk.publishes
  publishes : disk.publishes = publishes

theorem slot_ne_latest (i : Nat) : g.slot i ≠ Offset.latest := by
  have above := g.slot_ge i
  simp only [Offset.latest]
  omega

theorem triple_beginSlot :
    channel.Triple thread (Inside thread fd (Ready thread w g publishes)) (beginSlot w)
      (fun w' => Inside thread fd (fun disk marks found =>
        (∃ openSlot openSeq, w' = { w with openSlot, openSeq }) ∧
        ∃ memory, Filling thread w' g publishes memory disk marks found)) := by
  unfold beginSlot
  refine (triple_load _ (fun ready => ready.attached.data)).bind fun seq => ?_
  have stored : channel.Triple thread
      (Inside thread fd (fun disk marks found => Ready thread w g publishes disk marks found ∧
        seq = (disk.memory w.file).word32 (writerSlot w (slotAfter w.latest w.slotCount))))
      (call (.store w.file (writerSlot w (slotAfter w.latest w.slotCount)) ((seq &&& ~~~1) + 1)))
      (fun _ => Inside thread fd (fun disk marks found => ∃ memory, Filling thread
        { w with
          openSlot := slotAfter w.latest w.slotCount
          openSeq := seq &&& ~~~1 } g publishes memory disk marks found)) := by
    refine triple_silent (fun {world _ later} inv inside executed => ?_)
    obtain ⟨ready, loaded⟩ := inside.holds
    have valid := ready.attached.valid
    obtain rfl : later = _ := executed
    rw [ready.attached.target] at loaded ⊢
    rw [ready.attached.writerSlot_eq Image.next_lt] at loaded ⊢
    have current : seq = (world.disk.image w.file).seq g ((world.disk.image w.file).next g) := loaded
    rw [current]
    obtain ⟨slot, begun, effect⟩ := Disk.store_begin thread (world.log thread).found inv.disk
      (ready.attached.here inv.disk) valid
    have attached := ready.attached.silent inv.disk effect.2.1 effect.2.2 (slot.valid valid)
    refine ⟨_, by rw [if_neg (fun latest => slot_ne_latest _ latest.1)], effect, _, ready.idle,
      attached.reopen _ _, ⟨?_, ?_, ?_⟩, ?_, ?_, rfl⟩
    · simp only [slot.next_eq]
    · simp only [slot.next_eq, begun]
      rw [oddSeq_toNat]
      omega
    · simp only [slot.next_eq, begun]
      rw [clearLowBit_toNat, oddSeq_toNat]
      omega
    · rw [effect.2.2.publishes]
      exact ready.session
    · rw [effect.2.2.publishes]
      exact ready.publishes
  exact stored.bind fun _ => Triple.done (fun inv inside =>
    inside.imp (fun _ filling => ⟨⟨_, _, rfl⟩, filling⟩) inv)

/-- The slot is committed and not yet published. -/
structure Committed (thread : Tid) (w : Writer) (g : Geometry) (publishes : List Publish)
    (memory : Memory) (disk : Disk) (marks : Marks) (found : Option Nat) : Prop where
  idle : marks = Marks.none
  attached : Attached w g disk
  slot : w.openSlot = UInt32.ofNat ((disk.image w.file).next g)
  seq : (disk.image w.file).seq g ((disk.image w.file).next g) = w.openSeq + 2
  even : (w.openSeq + 2).toNat % 2 = 0
  session : Session thread found w.gen disk.publishes
  publishes : disk.publishes = publishes
  memory : ∀ start count, writerSlot w w.openSlot + Offset.generation ≤ start →
    (disk.memory w.file).read start count = memory.read start count

theorem triple_commitSeq {memory : Memory} :
    channel.Triple thread (Inside thread fd (Filling thread w g publishes memory))
      (call (.store w.file (writerSlot w w.openSlot) (w.openSeq + 2)))
      (fun _ => Inside thread fd (Committed thread w g publishes memory)) := by
  refine triple_silent (fun {world _ later} inv inside executed => ?_)
  have filling := inside.holds
  have valid := filling.attached.valid
  have address := filling.begun.writerSlot_eq filling.attached
  obtain rfl : later = _ := executed
  rw [address]
  obtain ⟨slot, stored, effect⟩ := Disk.store_commit thread (world.log thread).found inv.disk
    (filling.attached.here inv.disk) valid filling.begun.seq
  have next := slot.next_eq
  have sum : (w.openSeq + 2).toNat = (w.openSeq.toNat + 2) % 2 ^ 32 := UInt32.toNat_add _ 2
  have even := filling.begun.seq
  refine ⟨_, by rw [if_neg (fun latest => slot_ne_latest _ latest.1)], effect, filling.idle,
    filling.attached.silent inv.disk effect.2.1 effect.2.2 (slot.valid valid), ?_, ?_, ?_, ?_, ?_, ?_⟩
  · rw [next]
    exact filling.begun.slot
  · rw [next]
    change (Disk.memory _ w.file).word32 _ = _
    rw [stored]
    exact Memory.word32_write _
  · omega
  · rw [effect.2.2.publishes]
    exact filling.session
  · rw [effect.2.2.publishes]
    exact filling.publishes
  · intro start count lower
    rw [address] at lower
    simp only [Offset.generation] at lower
    rw [stored, filling.memory]
    exact Memory.read_write_outside (.inr (by rw [Memory.bytes32_length]; omega))

/-- The publish a commit makes. -/
structure Carries (thread : Tid) (w : Writer) (len : UInt32) (payload : List UInt8)
    (publish : Publish) : Prop where
  file : publish.file = w.file
  writer : publish.writer = thread
  generation : publish.generation = w.gen
  length : publish.length = len
  payload : publish.payload = payload

/-- The store of `latest`, seen from outside: a publish that waiters are yet to be told of. -/
theorem guarantee_publish {before : World} {disk : Disk} {file : FileId} {publish : Publish}
    (inv : Inv before) (inside : before.crit thread ≠ none)
    (owed : before.marks thread = Marks.none)
    (own : publish.writer = thread)
    (grown : disk.publishes = before.disk.publishes ++ [publish])
    (step : before.disk.Step disk file)
    (stores : disk.stores = Function.update before.disk.stores file (before.disk.stores file + 1))
    (notifies : disk.notifies = before.disk.notifies)
    (valid : DiskInv disk) (evolves : before.disk.Evolves disk)
    (retired : ∀ {other}, disk.Retired other ↔ before.disk.Retired other) :
    channel.Guarantee thread before (before.own thread disk
      (if before.disk.NoNotify file then Marks.none else ⟨some (file, false), none⟩)) := by
  refine guarantee_own inv inside valid evolves (.inr ⟨publish, own, grown⟩) ?_ ?_
  · rw [owed]
    intro settled
    constructor
    · intro other present notifying
      rw [step.installed] at present
      have notifying' := fun silent => notifying ((evolves.noNotify_iff present).mpr silent)
      rw [step.orphaned, stores, notifies]
      rcases settled.counted present notifying' with lost | ⟨_, balanced⟩ | ⟨pending, _⟩
      · exact .inl lost
      · by_cases same : other = file
        · subst other
          rw [if_neg notifying', Function.update_self]
          exact .inr (.inr ⟨rfl, by rw [balanced]⟩)
        · rw [Function.update_of_ne same]
          refine .inr (.inl ⟨?_, balanced⟩)
          split
          · exact nofun
          · simpa using fun equal => same equal.symm
      · exact nomatch pending
    · intro other present gone
      rw [step.installed] at present
      rw [step.data] at gone
      rw [retired, step.abandoned]
      rcases settled.displaced present gone with already | left | displacing
      · exact .inl already
      · exact .inr (.inl left)
      · exact nomatch displacing
  · rw [owed]
    intro other generation present notifying calm
    by_cases same : other = file
    · subst other
      rw [if_neg notifying]
      exact .inr (.inl rfl)
    · rcases calm with lost | pending | quiet
      · exact .inl (by rw [step.orphaned]; exact lost)
      · exact nomatch pending
      · refine .inr (.inr ?_)
        rw [retired, step.others same]
        exact quiet

/-- The handle after a commit, apart from its generation. -/
def Writer.committed (w : Writer) : Writer :=
  { w with latest := w.openSlot, openSlot := psmiLatestNone }

/-- After the store of `latest`: the handle goes on with the next generation. -/
structure Published (thread : Tid) (w : Writer) (g : Geometry) (publishes : List Publish)
    (len : UInt32) (payload : List UInt8) (disk : Disk) (found : Option Nat) : Prop where
  attached : Attached w g disk
  session : Session thread found (nextGeneration w.gen) disk.publishes
  publish : ∃ publish, Carries thread w len payload publish ∧
    disk.publishes = publishes ++ [publish]

theorem Attached.publish (attached : Attached w g disk) (publish : Publish) (inv : DiskInv disk)
    (data : after.data = disk.data) (valid : (after.image w.file).Valid g)
    (evolves : disk.Evolves after)
    (slot : w.openSlot = UInt32.ofNat ((disk.image w.file).next g))
    (history : (after.image w.file).history = (disk.image w.file).history ++ [publish]) :
    Attached w.committed g after := by
  refine ⟨data.trans attached.data, valid, attached.slotCount, attached.slotStride,
    attached.capacity, ?_, ?_⟩
  · change w.notify = true ↔ ¬ after.NoNotify w.file
    rw [evolves.noNotify_iff (attached.here inv)]
    exact attached.notify
  · change w.openSlot = if (after.image w.file).history = [] then _ else
      UInt32.ofNat ((after.image w.file).current g)
    rw [Image.current, history, if_neg (by simp), slot, List.length_append, List.length_singleton,
      Nat.add_sub_cancel]
    rfl

theorem Published.closed {len : UInt32} {payload : List UInt8} :
    Closed (Published thread w g publishes len payload) := by
  intro disk after found inv kept published
  refine ⟨published.attached.kept inv kept, ?_, ?_⟩
  · rw [kept.publishes]
    exact published.session
  · rw [kept.publishes]
    exact published.publish

theorem triple_publishLatest {memory : Memory} {len : UInt32}
    (generation : memory.word32 (writerSlot w w.openSlot + Offset.generation) = w.gen)
    (length : memory.word32 (writerSlot w w.openSlot + Offset.length) = len)
    (fits : len ≤ w.capacity) :
    channel.Triple thread (Inside thread fd (Committed thread w g publishes memory))
      (call (.store w.file Offset.latest (psmiLatest w.openSlot (w.openSeq + 2))))
      (fun _ => Inside thread fd (fun disk marks found =>
        marks = (if w.notify then ⟨some (w.file, false), none⟩ else Marks.none) ∧
        Published thread w.committed g publishes len
          (memory.read (writerSlot w w.openSlot + Offset.payload) len.toNat) disk found)) := by
  refine Triple.call (fun _ => Inside.stable) ?_
  intro state reply later inv inside executed
  obtain ⟨idle, attached, slot, seq, even, session, history, window⟩ := inside.holds
  have address : writerSlot w w.openSlot = g.slot ((state.disk.image w.file).next g) := by
    rw [slot]
    exact attached.writerSlot_eq Image.next_lt
  rw [address] at generation length window ⊢
  have generation' : (state.disk.memory w.file).word32 (g.slot ((state.disk.image w.file).next g) +
      Offset.generation) = w.gen :=
    (Memory.word32_congr (window _ _ (Nat.le_refl _))).trans generation
  have length' : (state.disk.memory w.file).word32 (g.slot ((state.disk.image w.file).next g) +
      Offset.length) = len :=
    (Memory.word32_congr (window _ _ (Nat.add_le_add_left (by decide) _))).trans length
  rw [attached.capacity] at fits
  rw [← generation'] at session
  rw [← length'] at fits
  rw [← seq] at even
  obtain ⟨publish, sameFile, own, based, holds, grown, valid, inv', evolves, retired, step, stores,
    notifies⟩ := Disk.store_publish inv.disk attached.data attached.valid rfl even fits session
  have guarantee := guarantee_publish inv inside.ne_none idle own grown step stores notifies inv'
    evolves retired
  have marks : (if Offset.latest = Offset.latest ∧ ¬ state.disk.NoNotify w.file then
      { state.marks thread with unwoken := some (w.file, false) } else state.marks thread) =
      if state.disk.NoNotify w.file then Marks.none else ⟨some (w.file, false), none⟩ := by
    rw [idle]
    by_cases silent : state.disk.NoNotify w.file
    · rw [if_neg (fun both => both.2 silent), if_pos silent]
    · rw [if_pos ⟨rfl, silent⟩, if_neg silent]
      rfl
  obtain rfl : later = _ := executed
  rw [slot, ← seq, marks]
  generalize state.disk.store thread (state.log thread).found w.file Offset.latest
    (psmiLatest (UInt32.ofNat ((state.disk.image w.file).next g))
      ((state.disk.image w.file).seq g ((state.disk.image w.file).next g))) = disk at *
  have generationSame : publish.generation = w.gen := holds.generation.symm.trans generation'
  have lengthSame : publish.length = len := holds.length.symm.trans length'
  refine ⟨guarantee, inside.own ⟨?_, ⟨?_, ?_, publish, ⟨sameFile, own, generationSame, lengthSame,
    ?_⟩, ?_⟩⟩⟩
  · by_cases silent : state.disk.NoNotify w.file
    · rw [if_pos silent, if_neg (fun notify => attached.notify.mp notify silent)]
    · rw [if_neg silent, if_pos (attached.notify.mpr silent)]
  · refine attached.publish publish inv.disk step.data valid evolves slot ?_
    simp only [Disk.image, grown, List.filter_append]
    simp [sameFile]
  · have next := Session.next state.disk.publishes publish
    rw [own, based, generationSame, ← grown] at next
    exact next
  · rw [← lengthSame, ← holds.payload]
    exact window _ _ (Nat.add_le_add_left (by decide) _)
  · rw [grown, history]

theorem Published.here {len : UInt32} {payload : List UInt8} {found : Option Nat}
    (published : Published thread w g publishes len payload disk found) (inv : DiskInv disk) :
    disk.installed w.file = true :=
  published.attached.here inv

/-- What a commit leaves: the publish is on record, and the handle is ready for the next. -/
def CommitPost (thread : Tid) (w : Writer) (g : Geometry) (publishes : List Publish)
    (len : UInt32) (payload : List UInt8) (disk : Disk) (marks : Marks) (found : Option Nat) :
    Prop :=
  marks = Marks.none ∧ Published thread w.committed g publishes len payload disk found

theorem triple_commitSlot {memory : Memory} {len : UInt32} (fits : len ≤ w.capacity) :
    channel.Triple thread (Inside thread fd (Filling thread w g publishes memory))
      (commitSlot w len)
      (fun result => Inside thread fd (fun disk marks found =>
        result = (w.gen, { w.committed with gen := nextGeneration w.gen }) ∧
        CommitPost thread w g publishes len
          (memory.read (writerSlot w w.openSlot + Offset.payload) len.toNat) disk marks found)) := by
  have room := g.stride_ge
  unfold commitSlot
  refine (triple_fill (by decide) ?_).bind fun _ => ?_
  · rw [Memory.bytes32_length]
    simp only [Offset.generation]
    omega
  refine (triple_fill (by decide) ?_).bind fun _ => ?_
  · rw [Memory.bytes32_length]
    simp only [Offset.length]
    omega
  refine triple_clock.bind fun timestamp => ?_
  refine (triple_fill (by decide) ?_).bind fun _ => ?_
  · rw [Memory.bytes64_length]
    simp only [Offset.timestampNs]
    omega
  refine triple_commitSeq.bind fun _ => ?_
  refine (triple_publishLatest ?_ ?_ fits).bind fun _ => ?_
  · rw [Memory.word32_write_outside, Memory.word32_write_outside, Memory.word32_write]
    all_goals simp only [Memory.bytes32_length, Memory.bytes64_length, Offset.generation,
      Offset.length, Offset.timestampNs]
    all_goals omega
  · rw [Memory.word32_write_outside, Memory.word32_write]
    simp only [Memory.bytes64_length, Offset.length, Offset.timestampNs]
    omega
  have payload : (((memory.write (writerSlot w w.openSlot + Offset.generation)
      (Memory.bytes32 w.gen)).write (writerSlot w w.openSlot + Offset.length)
      (Memory.bytes32 len)).write (writerSlot w w.openSlot + Offset.timestampNs)
      (Memory.bytes64 timestamp)).read (writerSlot w w.openSlot + Offset.payload) len.toNat =
      memory.read (writerSlot w w.openSlot + Offset.payload) len.toNat := by
    rw [Memory.read_write_outside, Memory.read_write_outside, Memory.read_write_outside]
    all_goals simp only [Memory.bytes32_length, Memory.bytes64_length, Offset.generation,
      Offset.length, Offset.timestampNs, Offset.payload]
    all_goals omega
  rw [payload]
  have returned : channel.Triple thread
      (Inside thread fd (CommitPost thread w g publishes len
        (memory.read (writerSlot w w.openSlot + Offset.payload) len.toNat)))
      (.done (w.gen, { w.committed with gen := nextGeneration w.gen }))
      (fun result => Inside thread fd (fun disk marks found =>
        result = (w.gen, { w.committed with gen := nextGeneration w.gen }) ∧
        CommitPost thread w g publishes len
          (memory.read (writerSlot w w.openSlot + Offset.payload) len.toNat) disk marks found)) :=
    Triple.done (fun inv inside => inside.imp (fun _ post => ⟨rfl, post⟩) inv)
  have told : channel.Triple thread
      (Inside thread fd (fun disk marks found => marks = ⟨some (w.file, false), none⟩ ∧
        disk.installed w.file = true ∧ Published thread w.committed g publishes len
          (memory.read (writerSlot w w.openSlot + Offset.payload) len.toNat) disk found))
      (do
        let _ ← call (.fetchAdd w.file Offset.notify 1)
        call (.futexWake w.file))
      (fun _ => Inside thread fd (CommitPost thread w g publishes len
        (memory.read (writerSlot w w.openSlot + Offset.payload) len.toNat))) :=
    triple_tell Published.closed
  have finished := told.bind fun _ => returned
  rw [Program.bind_assoc] at finished
  dsimp only
  by_cases notify : w.notify = true
  · rw [if_pos notify, if_pos notify]
    exact triple_imp finished (fun inv holds => ⟨holds.1, holds.2.here inv, holds.2⟩)
  · rw [if_neg notify, if_neg notify]
    exact triple_imp returned (fun _ holds => holds)

/-- What an open writer owns between its calls. -/
def Owned (thread : Tid) (w : Writer) (publishes : List Publish) (disk : Disk) (marks : Marks)
    (found : Option Nat) : Prop :=
  ∃ g, Ready thread w g publishes disk marks found ∧
    (w.openSlot = psmiLatestNone ∨ Begun w g disk)

/-- What a publish or commit comes to: one more publish, or nothing. -/
def CommitOutcome (thread : Tid) (w : Writer) (publishes : List Publish) (len : UInt32)
    (payload : List UInt8 → Prop) (result : Code × Option UInt32 × Writer) : Assertion :=
  fun disk marks found =>
    result.2.2.lockFd = w.lockFd ∧ result.2.2.file = w.file ∧
    ((result.1 = .ok ∧ result.2.1 = some w.gen ∧ ∃ bytes publish,
        Carries thread w len bytes publish ∧ payload bytes ∧
        Owned thread result.2.2 (publishes ++ [publish]) disk marks found) ∨
      (result.1 ≠ .ok ∧ Owned thread result.2.2 publishes disk marks found))

theorem Begun.ne_none (begun : Begun w g disk) : w.openSlot ≠ psmiLatestNone := by
  have below := Image.next_lt (x := disk.image w.file) (g := g)
  have small := slotIndex_toNat below
  have most := g.le_sixteen
  rw [begun.slot]
  intro none
  rw [none] at small
  change 4294967295 = _ at small
  unfold Geometry.count at below
  omega

theorem CommitPost.outcome {len : UInt32} {bytes : List UInt8} {payload : List UInt8 → Prop}
    {marks : Marks} {found : Option Nat} (described : payload bytes)
    (post : CommitPost thread w g publishes len bytes disk marks found) :
    CommitOutcome thread w publishes len payload
      (.ok, some w.gen, { w.committed with gen := nextGeneration w.gen }) disk marks found := by
  obtain ⟨idle, attached, session, publish, carries, grown⟩ := post
  refine ⟨rfl, rfl, .inl ⟨rfl, rfl, bytes, publish, ⟨carries.file, carries.writer,
    carries.generation, carries.length, carries.payload⟩, described, g, ⟨idle, ?_, ?_, grown⟩,
    .inl rfl⟩⟩
  · exact ⟨attached.data, attached.valid, attached.slotCount, attached.slotStride,
      attached.capacity, attached.notify, attached.latest⟩
  · exact session

theorem CommitOutcome.reopened {openSlot openSeq len : UInt32} {payload : List UInt8 → Prop}
    {result : Code × Option UInt32 × Writer} {marks : Marks} {found : Option Nat}
    (outcome : CommitOutcome thread { w with openSlot, openSeq } publishes len payload result
      disk marks found) :
    CommitOutcome thread w publishes len payload result disk marks found := by
  obtain ⟨lock, file, outcome⟩ := outcome
  refine ⟨lock, file, outcome.imp_left ?_⟩
  rintro ⟨ok, gen, bytes, publish, carries, rest⟩
  exact ⟨ok, gen, bytes, publish, ⟨carries.file, carries.writer, carries.generation,
    carries.length, carries.payload⟩, rest⟩

theorem triple_refused {len : UInt32} {payload : List UInt8 → Prop} {code : Code}
    (failed : code ≠ .ok) :
    channel.Triple thread (Inside thread fd (Owned thread w publishes)) (.done (code, none, w))
      (fun result => Inside thread fd (CommitOutcome thread w publishes len payload result)) :=
  Triple.done (fun inv inside =>
    inside.imp (fun _ owned => ⟨rfl, rfl, .inr ⟨failed, owned⟩⟩) inv)

theorem triple_of_exists {α β : Type} {A : β → Assertion} {program : Prog α}
    {post : α → World → Prop}
    (each : ∀ value, channel.Triple thread (Inside thread fd (A value)) program post) :
    channel.Triple thread
      (Inside thread fd (fun disk marks found => ∃ value, A value disk marks found)) program post := by
  intro state inv inside
  obtain ⟨value, holds⟩ := inside.holds
  exact each value state inv ⟨inside.crit, inside.asleep, inside.fds, holds⟩

theorem triple_of_fact {α : Type} {fact : Prop} {A : Assertion} {program : Prog α}
    {post : α → World → Prop}
    (given : fact → channel.Triple thread (Inside thread fd A) program post) :
    channel.Triple thread
      (Inside thread fd (fun disk marks found => fact ∧ A disk marks found)) program post := by
  intro state inv inside
  obtain ⟨true, holds⟩ := inside.holds
  exact given true state inv ⟨inside.crit, inside.asleep, inside.fds, holds⟩

theorem triple_commitFilled {memory : Memory} {len : UInt32} {payload : List UInt8 → Prop}
    (fits : len ≤ w.capacity)
    (described : payload (memory.read (writerSlot w w.openSlot + Offset.payload) len.toNat)) :
    channel.Triple thread (Inside thread fd (Filling thread w g publishes memory))
      (do
        let (gen, w) ← commitSlot w len
        return (.ok, some gen, w))
      (fun result => Inside thread fd (CommitOutcome thread w publishes len payload result)) := by
  refine (triple_commitSlot fits).bind fun result => triple_of_fact fun returned => ?_
  subst returned
  exact Triple.done (fun inv inside => inside.imp (fun _ post => post.outcome described) inv)

theorem triple_psmsgrStatePublish {data : Option (List UInt8)} {len : UInt32}
    (enough : ∀ bytes, data = some bytes → len.toNat ≤ bytes.length) :
    channel.Triple thread (Inside thread fd (Owned thread w publishes))
      (psmsgrStatePublish w data len)
      (fun result => Inside thread fd (CommitOutcome thread w publishes len
        (fun bytes => bytes = (data.getD []).take len.toNat) result)) := by
  unfold psmsgrStatePublish
  split
  · exact triple_refused nofun
  next given =>
  split
  · exact triple_refused nofun
  split
  · exact triple_refused nofun
  next fits =>
    refine triple_of_exists fun g => ?_
    refine triple_imp ?_ (fun _ owned => owned.1)
    refine triple_beginSlot.bind fun begun => ?_
    refine triple_of_fact fun same => triple_of_exists fun memory => ?_
    obtain ⟨openSlot, openSeq, rfl⟩ := same
    have length : ((data.getD []).take len.toNat).length = len.toNat := by
      refine List.length_take_of_le ?_
      cases data with
      | some bytes => exact enough bytes rfl
      | none =>
          have zero : len = 0 := by simpa using given
          rw [zero]
          exact Nat.le_refl _
    intro state inv inside
    have room := g.stride_bounds.1
    have capacity : w.capacity = g.capacity := inside.holds.attached.capacity
    have small : len.toNat ≤ w.capacity.toNat :=
      Nat.le_of_not_lt (fun large => fits (UInt32.lt_iff_toNat_lt.mpr large))
    refine Triple.weaken ((triple_fill ?_ ?_).bind fun _ => triple_commitFilled ?_ ?_)
      (fun inv inside => inside.imp (fun _ outcome => outcome.reopened) inv) state inv inside
    · decide
    · rw [length]
      rw [capacity] at small
      simp only [Offset.payload]
      omega
    · exact UInt32.le_iff_toNat_le.mpr small
    · have stored : (memory.write (writerSlot { w with openSlot, openSeq } openSlot +
          Offset.payload) ((data.getD []).take len.toNat)).read _
          ((data.getD []).take len.toNat).length = (data.getD []).take len.toNat :=
        Memory.read_write
      rw [length] at stored
      exact stored

/-- An abort leaves the slot odd: the next begin finds it as the crash of a writer would
leave it. -/
theorem triple_psmsgrStateAbort :
    channel.Triple thread (Inside thread fd (Owned thread w publishes)) (psmsgrStateAbort w)
      (fun result => Inside thread fd (fun disk marks found =>
        result.2.lockFd = w.lockFd ∧ Owned thread result.2 publishes disk marks found)) := by
  unfold psmsgrStateAbort
  split
  · exact Triple.done (fun inv inside => inside.imp (fun _ owned => ⟨rfl, owned⟩) inv)
  · refine Triple.done (fun inv inside => inside.imp (fun _ owned => ?_) inv)
    obtain ⟨g, ready, -⟩ := owned
    exact ⟨rfl, g, ⟨ready.idle, ready.attached.reopen _ _, ready.session, ready.publishes⟩, .inl rfl⟩

theorem triple_psmsgrStateBegin :
    channel.Triple thread (Inside thread fd (Owned thread w publishes)) (psmsgrStateBegin w)
      (fun result => Inside thread fd (fun disk marks found =>
        result.2.lockFd = w.lockFd ∧ Owned thread result.2 publishes disk marks found)) := by
  unfold psmsgrStateBegin
  split
  · exact Triple.done (fun inv inside => inside.imp (fun _ owned => ⟨rfl, owned⟩) inv)
  · refine triple_of_exists fun g => triple_imp ?_ (fun _ owned => owned.1)
    refine triple_beginSlot.bind fun begun => triple_of_fact fun same => ?_
    obtain ⟨openSlot, openSeq, rfl⟩ := same
    refine Triple.done (fun inv inside => inside.imp (fun _ filled => ?_) inv)
    obtain ⟨memory, filling⟩ := filled
    exact ⟨rfl, g, ⟨filling.idle, filling.attached, filling.session, filling.publishes⟩,
      .inr filling.begun⟩

theorem triple_psmsgrStateCommit {len : UInt32} {memory : Memory} :
    channel.Triple thread
      (Inside thread fd (fun disk marks found => Owned thread w publishes disk marks found ∧
        disk.memory w.file = memory))
      (psmsgrStateCommit w len)
      (fun result => Inside thread fd (CommitOutcome thread w publishes len
        (memory.read (writerSlot w w.openSlot + Offset.payload) len.toNat = ·)
        result)) := by
  unfold psmsgrStateCommit
  split
  · exact triple_imp (triple_refused nofun) (fun _ holds => holds.1)
  next opened =>
    split
    · exact triple_imp (triple_refused nofun) (fun _ holds => holds.1)
    next fits =>
      have small : len ≤ w.capacity := UInt32.le_iff_toNat_le.mpr
        (Nat.le_of_not_lt (fun large => fits (UInt32.lt_iff_toNat_lt.mpr large)))
      intro state inv inside
      obtain ⟨⟨g, ready, closed | begun⟩, rfl⟩ := inside.holds
      · exact absurd closed opened
      · exact triple_commitFilled small rfl state inv ⟨inside.crit, inside.asleep, inside.fds,
          ready.idle, ready.attached, begun, ready.session, ready.publishes, rfl⟩

theorem triple_storeBuffer {index : Nat} {byte : UInt8} (opened : w.openSlot ≠ psmiLatestNone)
    (inside : index < w.capacity.toNat) :
    channel.Triple thread (Inside thread fd (Owned thread w publishes)) (storeBuffer w index byte)
      (fun _ => Inside thread fd (Owned thread w publishes)) := by
  refine triple_silent (fun {world _ later} inv within executed => ?_)
  obtain ⟨g, ready, closed | begun⟩ := within.holds
  · exact absurd closed opened
  · have room := g.stride_bounds.1
    rw [ready.attached.capacity] at inside
    have allowed : InSlot w g (writerSlot w w.openSlot + Offset.payload + index) := by
      refine ⟨?_, ?_⟩
      · simp only [Offset.generation, Offset.payload]
        omega
      · simp only [Offset.payload]
        omega
    have filling : Filling thread w g publishes (world.disk.memory w.file) world.disk
        (world.marks thread) (world.log thread).found :=
      ⟨ready.idle, ready.attached, begun, ready.session, ready.publishes, rfl⟩
    obtain ⟨effect, filled⟩ := filling.storeByte byte allowed inv.disk
    exact ⟨_, executed, effect, g, ⟨filled.idle, filled.attached, filled.session,
      filled.publishes⟩, .inr filled.begun⟩

theorem triple_psmsgrStateWriterClose :
    channel.Triple thread (Inside thread w.lockFd (Owned thread w publishes))
      (psmsgrStateWriterClose w) (fun _ => Outside thread) :=
  (triple_skip (.munmap w.file) trivial Inside.stable).bind fun _ => triple_exit

end PsMsgr
