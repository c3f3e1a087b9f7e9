import PsMsgr.Channel.ImageSteps
import PsMsgr.Channel.Guarantee
import PsMsgr.Channel.History

namespace PsMsgr

open Data

namespace Disk

variable {disk after : Disk} {file : FileId} {g : Geometry}

/-- Only the image of `file` changes. -/
structure Step (disk after : Disk) (file : FileId) : Prop where
  data : after.data = disk.data
  installed : after.installed = disk.installed
  fresh : after.fresh = disk.fresh
  orphaned : after.orphaned = disk.orphaned
  abandoned : after.abandoned = disk.abandoned
  others : ∀ {other}, other ≠ file → after.image other = disk.image other
  publishes : disk.publishes <+: after.publishes

namespace Step

variable (step : Step disk after file)

include step

theorem other_retired_iff {other : FileId} (distinct : other ≠ file) :
    after.Retired other ↔ disk.Retired other := by
  change (after.image other).Retired ↔ (disk.image other).Retired
  rw [step.others distinct]

theorem evolves (image : (disk.image file).Evolves (after.image file)) : disk.Evolves after where
  publishes := step.publishes
  installed := by rw [step.installed]; exact id
  image := by
    intro other _
    by_cases same : other = file
    · rw [same]
      exact image
    · rw [step.others same]
      exact Image.Evolves.refl _
  displaced := by rw [step.data]; exact fun _ => id
  orphaned := by rw [step.orphaned]; exact id
  abandoned := by rw [step.abandoned]; exact id

theorem inv (inv : DiskInv disk) (here : disk.installed file = true)
    (valid : (after.image file).Valid g)
    (unretired : disk.data = some file → ¬ after.Retired file)
    (published : ∀ publish ∈ after.publishes, disk.installed publish.file = true)
    (ordered : after.publishes.Pairwise (fun earlier later => earlier.file ≤ later.file))
    (chained : Chained after.publishes) : DiskInv after where
  data := by
    intro current named
    rw [step.data] at named
    obtain ⟨present, active, newest⟩ := inv.data named
    rw [step.installed]
    refine ⟨present, ?_, newest⟩
    by_cases same : current = file
    · rw [same] at named ⊢
      exact unretired named
    · rw [step.other_retired_iff same]
      exact active
  fresh := by rw [step.installed, step.fresh]; exact inv.fresh
  unused := by
    intro other absent
    rw [step.installed] at absent
    have distinct : other ≠ file := by
      rintro rfl
      exact nomatch absent.symm.trans here
    have same := step.others distinct
    obtain ⟨commits, stores, notifies⟩ := inv.unused absent
    exact ⟨(congrArg Image.commits same).trans commits, (congrArg Image.stores same).trans stores,
      (congrArg Image.notifies same).trans notifies⟩
  valid := by
    intro other present
    rw [step.installed] at present
    by_cases same : other = file
    · rw [same]
      exact ⟨g, valid⟩
    · rw [step.others same]
      exact inv.valid present
  published := by rw [step.installed]; exact published
  ordered := ordered
  chained := chained

end Step

theorem Step.quiet (step : Step disk after file) (inv : DiskInv disk)
    (here : disk.installed file = true) (publishes : after.publishes = disk.publishes)
    (stores : after.stores = disk.stores) (notifies : after.notifies = disk.notifies)
    (valid : (after.image file).Valid g)
    (evolves : (disk.image file).Evolves (after.image file)) :
    DiskInv after ∧ disk.Evolves after ∧ disk.Silent after := by
  have retired : after.Retired file ↔ disk.Retired file :=
    ⟨(evolves.still (congrFun stores file)).2.1, evolves.retired⟩
  refine ⟨step.inv inv here valid ?_ ?_ ?_ ?_, step.evolves evolves, ?_⟩
  · intro named
    rw [retired]
    exact (inv.data named).2.1
  · rw [publishes]
    exact inv.published
  · rw [publishes]
    exact inv.ordered
  · rw [publishes]
    exact inv.chained
  · refine ⟨step.data, step.installed, publishes, stores, notifies, step.orphaned,
      step.abandoned, ?_⟩
    intro other _
    by_cases same : other = file
    · rw [same]
      exact retired
    · exact step.other_retired_iff same

theorem setMemory_memory (memory : Memory) : (disk.setMemory file memory).memory file = memory := by
  unfold Disk.memory setMemory
  simp only [Function.update_self]

theorem setMemory_files {other : FileId} {memory : Memory} (distinct : other ≠ file) :
    (disk.setMemory file memory).files other = disk.files other :=
  Function.update_of_ne distinct _ _

theorem setMemory_image (memory : Memory) :
    (disk.setMemory file memory).image file = { disk.image file with memory := memory } := by
  simp only [image, setMemory_memory]
  simp only [setMemory, Function.update_self]

theorem image_congr {other : FileId} (files : after.files other = disk.files other)
    (commits : after.commits other = disk.commits other)
    (stores : after.stores other = disk.stores other)
    (notifies : after.notifies other = disk.notifies other)
    (history : after.publishes.filter (fun publish => publish.file = other) =
      disk.publishes.filter (fun publish => publish.file = other)) :
    after.image other = disk.image other := by
  simp only [image, memory, files, commits, stores, notifies, history]

theorem step_setMemory (memory : Memory) : Step disk (disk.setMemory file memory) file :=
  ⟨rfl, rfl, rfl, rfl, rfl,
    fun distinct => image_congr (setMemory_files distinct) rfl rfl rfl rfl, List.prefix_refl _⟩

theorem storeByte_image (address : Nat) (byte : UInt8) :
    (disk.storeByte file address byte).image file =
      { disk.image file with memory := Function.update (disk.image file).memory address byte } :=
  setMemory_image _

theorem storeByte_slot {address : Nat} (byte : UInt8) (inv : DiskInv disk)
    (here : disk.installed file = true) (valid : (disk.image file).Valid g)
    (odd : ((disk.image file).seq g ((disk.image file).next g)).toNat % 2 = 1)
    (lower : g.slot ((disk.image file).next g) + Offset.generation ≤ address)
    (upper : address < g.slot ((disk.image file).next g) + g.stride) :
    DiskInv (disk.storeByte file address byte) ∧ disk.Evolves (disk.storeByte file address byte) ∧
      disk.Silent (disk.storeByte file address byte) := by
  have slot : Image.SlotStep g (disk.image file) ((disk.storeByte file address byte).image file) := by
    rw [storeByte_image]
    exact Image.SlotStep.storeByte byte valid odd lower upper
  exact (step_setMemory _).quiet inv here rfl rfl rfl (slot.valid valid) (slot.evolves valid.shape)

theorem storeByte_pid {address : Nat} (byte : UInt8) (inv : DiskInv disk)
    (here : disk.installed file = true) (valid : (disk.image file).Valid g)
    (lower : Offset.writerPid ≤ address) (upper : address < 128) :
    DiskInv (disk.storeByte file address byte) ∧ disk.Evolves (disk.storeByte file address byte) ∧
      disk.Silent (disk.storeByte file address byte) := by
  have stored : ((disk.storeByte file address byte).image file).Valid g ∧
      (disk.image file).Evolves ((disk.storeByte file address byte).image file) := by
    rw [storeByte_image]
    exact valid.storePid lower upper
  exact (step_setMemory _).quiet inv here rfl rfl rfl stored.1 stored.2

section Atomic

variable {writer : Tid} {basis : Option Nat} {offset : Nat} {value : UInt32}

theorem store_odd (elsewhere : offset ≠ Offset.latest) (odd : ¬ value &&& 1 = 0) :
    disk.store writer basis file offset value =
      disk.setMemory file ((disk.memory file).write offset (Memory.bytes32 value)) := by
  simp only [store, if_neg elsewhere, if_neg odd]

theorem store_even (elsewhere : offset ≠ Offset.latest) (even : value &&& 1 = 0) :
    disk.store writer basis file offset value =
      { disk.setMemory file ((disk.memory file).write offset (Memory.bytes32 value)) with
        commits := Function.update disk.commits file
          (Function.update (disk.commits file) offset (disk.commits file offset + 1)) } := by
  simp only [store, if_neg elsewhere, if_pos even]

theorem store_latest :
    disk.store writer basis file Offset.latest value =
      { disk.setMemory file ((disk.memory file).write Offset.latest (Memory.bytes32 value)) with
        publishes := disk.publishes ++ [Publish.snapshot file writer basis
          ((disk.memory file).write Offset.latest (Memory.bytes32 value)) value]
        stores := Function.update disk.stores file (disk.stores file + 1) } := by
  simp only [store, if_true]

end Atomic

theorem store_begin (writer : Tid) (basis : Option Nat) (inv : DiskInv disk)
    (here : disk.installed file = true) (valid : (disk.image file).Valid g) :
    let i := (disk.image file).next g
    let after := disk.store writer basis file (g.slot i)
      (((disk.image file).seq g i &&& ~~~1) + 1)
    Image.SlotStep g (disk.image file) (after.image file) ∧
      (after.image file).seq g i = ((disk.image file).seq g i &&& ~~~1) + 1 ∧
      DiskInv after ∧ disk.Evolves after ∧ disk.Silent after := by
  intro i after
  have elsewhere : g.slot i ≠ Offset.latest := by
    have above := g.slot_ge i
    simp only [Offset.latest]
    omega
  have odd : ¬ (((disk.image file).seq g i &&& ~~~1) + 1) &&& 1 = 0 := by
    rw [lowBit_eq_zero_iff, oddSeq_toNat]
    omega
  have stored : after = disk.setMemory file ((disk.memory file).write (g.slot i)
      (Memory.bytes32 (((disk.image file).seq g i &&& ~~~1) + 1))) := store_odd elsewhere odd
  have slot : Image.SlotStep g (disk.image file) (after.image file) := by
    rw [stored, setMemory_image]
    exact Image.SlotStep.begin valid
  have seq : (after.image file).seq g i = ((disk.image file).seq g i &&& ~~~1) + 1 := by
    rw [stored, setMemory_image]
    exact Memory.word32_write _
  refine ⟨slot, seq, ?_⟩
  rw [stored] at slot ⊢
  exact (step_setMemory _).quiet inv here rfl rfl rfl (slot.valid valid) (slot.evolves valid.shape)

theorem store_commit {q : UInt32} (writer : Tid) (basis : Option Nat) (inv : DiskInv disk)
    (here : disk.installed file = true) (valid : (disk.image file).Valid g)
    (even : q.toNat = ((disk.image file).seq g ((disk.image file).next g)).toNat / 2 * 2) :
    let after := disk.store writer basis file (g.slot ((disk.image file).next g)) (q + 2)
    Image.SlotStep g (disk.image file) (after.image file) ∧
      after.memory file = (disk.memory file).write (g.slot ((disk.image file).next g))
        (Memory.bytes32 (q + 2)) ∧
      DiskInv after ∧ disk.Evolves after ∧ disk.Silent after := by
  intro after
  have elsewhere : g.slot ((disk.image file).next g) ≠ Offset.latest := by
    have above := g.slot_ge ((disk.image file).next g)
    simp only [Offset.latest]
    omega
  have lowBit : (q + 2) &&& 1 = 0 := by
    have sum : (q + 2).toNat = (q.toNat + 2) % 2 ^ 32 := UInt32.toNat_add q 2
    rw [lowBit_eq_zero_iff, sum]
    omega
  have stored : after = { disk.setMemory file ((disk.memory file).write
        (g.slot ((disk.image file).next g)) (Memory.bytes32 (q + 2))) with
      commits := Function.update disk.commits file
        (Function.update (disk.commits file) (g.slot ((disk.image file).next g))
          (disk.commits file (g.slot ((disk.image file).next g)) + 1)) } :=
    store_even elsewhere lowBit
  have step : Step disk after file := by
    rw [stored]
    exact ⟨rfl, rfl, rfl, rfl, rfl, fun distinct => image_congr (setMemory_files distinct)
      (Function.update_of_ne distinct _ _) rfl rfl rfl, List.prefix_refl _⟩
  have slot : Image.SlotStep g (disk.image file) (after.image file) := by
    have image : after.image file = { disk.image file with
        memory := (disk.image file).memory.write (g.slot ((disk.image file).next g))
          (Memory.bytes32 (q + 2))
        commits := Function.update (disk.image file).commits (g.slot ((disk.image file).next g))
          ((disk.image file).commits (g.slot ((disk.image file).next g)) + 1) } := by
      rw [stored]
      simp only [Disk.image, Disk.memory, setMemory, Function.update_self]
    rw [image]
    exact Image.SlotStep.commit valid even
  have memory : after.memory file = (disk.memory file).write (g.slot ((disk.image file).next g))
      (Memory.bytes32 (q + 2)) := by
    rw [stored]
    exact setMemory_memory _
  have publishes : after.publishes = disk.publishes := by rw [stored]; rfl
  have stores : after.stores = disk.stores := by rw [stored]; rfl
  have notifies : after.notifies = disk.notifies := by rw [stored]; rfl
  exact ⟨slot, memory, step.quiet inv here publishes stores notifies (slot.valid valid)
    (slot.evolves valid.shape)⟩

theorem fetchAdd_notify (inv : DiskInv disk) (here : disk.installed file = true)
    (valid : (disk.image file).Valid g) :
    let after := disk.fetchAdd file Offset.notify 1
    (after.image file).Valid g ∧ DiskInv after ∧ disk.Evolves after ∧
      ∀ {other}, after.Retired other ↔ disk.Retired other := by
  intro after
  have step : Step disk after file :=
    ⟨rfl, rfl, rfl, rfl, rfl, fun distinct => image_congr (setMemory_files distinct) rfl rfl
      (Function.update_of_ne distinct _ _) rfl, List.prefix_refl _⟩
  have image : after.image file = { disk.image file with
      memory := (disk.image file).memory.write Offset.notify
        (Memory.bytes32 ((disk.image file).memory.word32 Offset.notify + 1))
      notifies := (disk.image file).notifies + 1 } := by
    simp only [after, fetchAdd, Disk.image, Disk.memory, setMemory, Function.update_self]
  obtain ⟨kept, evolves, retired⟩ := valid.notify
  rw [← image] at kept evolves retired
  refine ⟨kept, step.inv inv here kept ?_ inv.published inv.ordered inv.chained,
    step.evolves evolves, ?_⟩
  · intro named
    change ¬ (after.image file).Retired
    rw [retired]
    exact (inv.data named).2.1
  · intro other
    by_cases same : other = file
    · rw [same]
      exact retired
    · exact step.other_retired_iff same

theorem fetchOr_retired (inv : DiskInv disk) (here : disk.installed file = true)
    (valid : (disk.image file).Valid g) (gone : disk.data ≠ some file) :
    let after := disk.fetchOr file Offset.state psmiStateRetired
    (after.image file).Valid g ∧ DiskInv after ∧ disk.Evolves after ∧ after.Retired file ∧
      ∀ {other}, other ≠ file → (after.Retired other ↔ disk.Retired other) := by
  intro after
  have step : Step disk after file :=
    ⟨rfl, rfl, rfl, rfl, rfl, fun distinct => image_congr (setMemory_files distinct) rfl
      (Function.update_of_ne distinct _ _) rfl rfl, List.prefix_refl _⟩
  have image : after.image file = { disk.image file with
      memory := (disk.image file).memory.write Offset.state
        (Memory.bytes32 ((disk.image file).memory.word32 Offset.state ||| psmiStateRetired))
      stores := (disk.image file).stores + 1 } := by
    simp only [after, fetchOr, Disk.image, Disk.memory, setMemory, Function.update_self]
  obtain ⟨kept, evolves, retired⟩ := valid.retire
  rw [← image] at kept evolves retired
  exact ⟨kept, step.inv inv here kept (fun named => absurd named gone) inv.published inv.ordered
    inv.chained, step.evolves evolves, retired, step.other_retired_iff⟩

/-- The slot `latest` will name is read back as the publish on record. -/
theorem snapshot_holds {writer : Tid} {basis : Option Nat} {i : Nat} {seq : UInt32}
    (shape : Shape (disk.memory file) g) (inside : i < g.count) :
    let value := psmiLatest (UInt32.ofNat i) seq
    Holds (disk.memory file) (g.slot i) (Publish.snapshot file writer basis
      ((disk.memory file).write Offset.latest (Memory.bytes32 value)) value) := by
  intro value
  have most := g.le_sixteen
  have small : (UInt32.ofNat i).toNat = i := by
    rw [UInt32.toNat_ofNat']
    exact Nat.mod_eq_of_lt (by unfold Geometry.count at inside; omega)
  have below : (UInt32.ofNat i).toNat < 16 := by
    rw [small]
    exact Nat.lt_of_lt_of_le inside most
  have stride : ((disk.memory file).write Offset.latest (Memory.bytes32 value)).word32
      Offset.slotStride = g.slotStride :=
    (Memory.word32_write_outside (.inl (by decide))).trans shape.slotStride
  have slot : slotOffset (((disk.memory file).write Offset.latest (Memory.bytes32 value)).word32
      Offset.slotStride) (psmiLatestSlot value) = g.slot i := by
    rw [stride, psmiLatestSlot_psmiLatest _ below,
      g.slotOffset_eq_slot (Nat.le_of_lt below), small]
  have window : ∀ start count, g.slot i ≤ start →
      ((disk.memory file).write Offset.latest (Memory.bytes32 value)).read start count =
        (disk.memory file).read start count := by
    intro start count lower
    refine Memory.read_write_outside (.inr ?_)
    have above := g.slot_ge i
    rw [Memory.bytes32_length]
    simp only [Offset.latest]
    omega
  simp only [Publish.snapshot, slot]
  refine ⟨?_, ?_, ?_, (window _ _ (Nat.le_add_right _ _)).symm⟩
  · exact (Memory.word32_congr (window _ _ (Nat.le_add_right _ _))).symm
  · exact (Memory.word32_congr (window _ _ (Nat.le_add_right _ _))).symm
  · exact (Memory.word64_congr (window _ _ (Nat.le_add_right _ _))).symm

theorem store_publish {writer : Tid} {basis : Option Nat} {i : Nat} (inv : DiskInv disk)
    (named : disk.data = some file) (valid : (disk.image file).Valid g) (target : i = (disk.image file).next g)
    (even : ((disk.image file).seq g i).toNat % 2 = 0)
    (fits : (disk.memory file).word32 (g.slot i + Offset.length) ≤ g.capacity)
    (session : Session writer basis ((disk.memory file).word32 (g.slot i + Offset.generation))
      disk.publishes) :
    let after := disk.store writer basis file Offset.latest
      (psmiLatest (UInt32.ofNat i) ((disk.image file).seq g i))
    ∃ publish, publish.file = file ∧ publish.writer = writer ∧ publish.basis = basis ∧
      Holds (disk.memory file) (g.slot i) publish ∧
      after.publishes = disk.publishes ++ [publish] ∧
      (after.image file).Valid g ∧ DiskInv after ∧ disk.Evolves after ∧
      (∀ {other}, after.Retired other ↔ disk.Retired other) ∧ Step disk after file ∧
      after.stores = Function.update disk.stores file (disk.stores file + 1) ∧
      after.notifies = disk.notifies := by
  intro after
  subst target
  obtain ⟨here, active, newest⟩ := inv.data named
  obtain ⟨value, word⟩ : ∃ value, value = psmiLatest (UInt32.ofNat ((disk.image file).next g))
    ((disk.image file).seq g ((disk.image file).next g)) := ⟨_, rfl⟩
  obtain ⟨publish, recorded⟩ : ∃ publish, publish = Publish.snapshot file writer basis
    ((disk.memory file).write Offset.latest (Memory.bytes32 value)) value := ⟨_, rfl⟩
  have holds : Holds (disk.memory file) (g.slot ((disk.image file).next g)) publish := by
    rw [recorded, word]
    exact snapshot_holds valid.shape Image.next_lt
  have sameFile : publish.file = file := by rw [recorded]; rfl
  have stored : after = { disk.setMemory file ((disk.memory file).write Offset.latest
        (Memory.bytes32 value)) with
      publishes := disk.publishes ++ [publish]
      stores := Function.update disk.stores file (disk.stores file + 1) } := by
    rw [recorded, word]
    exact store_latest
  have history : ∀ other, (disk.publishes ++ [publish]).filter (fun publish => publish.file = other) =
      disk.publishes.filter (fun publish => publish.file = other) ++
        if other = file then [publish] else [] := by
    intro other
    rw [List.filter_append]
    congr 1
    by_cases same : other = file
    · simp [same, sameFile]
    · have apart : ¬ publish.file = other := fun equal => same (equal.symm.trans sameFile)
      simp [same, apart]
  have step : Step disk after file := by
    rw [stored]
    refine ⟨rfl, rfl, rfl, rfl, rfl, fun {other} distinct => ?_, List.prefix_append _ _⟩
    refine image_congr (setMemory_files distinct) rfl (Function.update_of_ne distinct _ _) rfl ?_
    change (disk.publishes ++ [publish]).filter _ = _
    rw [history, if_neg distinct, List.append_nil]
  have image : after.image file = { disk.image file with
      memory := (disk.image file).memory.write Offset.latest (Memory.bytes32 value)
      stores := (disk.image file).stores + 1
      history := (disk.image file).history ++ [publish] } := by
    rw [stored]
    simp only [Disk.image, Disk.memory, setMemory, Function.update_self, history, if_true]
  have publishes : after.publishes = disk.publishes ++ [publish] := by rw [stored]
  have writerSame : publish.writer = writer := by rw [recorded]; rfl
  have basisSame : publish.basis = basis := by rw [recorded]; rfl
  have lengthSame := holds.length
  have generationSame := holds.generation
  rw [generationSame, ← writerSame, ← basisSame] at session
  rw [lengthSame] at fits
  obtain ⟨kept, evolves, retired⟩ := valid.publish even holds fits session.nonzero
  rw [← word, ← image] at kept evolves retired
  refine ⟨publish, sameFile, writerSame, basisSame, holds, publishes, kept,
    step.inv inv here kept ?_ ?_ ?_ ?_, step.evolves evolves, ?_, step, by rw [stored],
    by rw [stored]; rfl⟩
  · intro _
    change ¬ (after.image file).Retired
    rw [retired]
    exact active
  · rw [publishes]
    intro other member
    rcases List.mem_append.mp member with older | last
    · exact inv.published other older
    · rw [List.mem_singleton.mp last, sameFile]
      exact here
  · rw [publishes, List.pairwise_append]
    refine ⟨inv.ordered, List.pairwise_singleton _ _, fun earlier member later last => ?_⟩
    rw [List.mem_singleton.mp last, sameFile]
    exact newest _ (inv.published earlier member)
  · rw [publishes]
    exact session.chained inv.chained
  · intro other
    by_cases same : other = file
    · rw [same]
      exact retired
    · exact step.other_retired_iff same

/-- Only files that were never installed change. -/
structure Private (disk after : Disk) : Prop where
  data : after.data = disk.data
  installed : after.installed = disk.installed
  publishes : after.publishes = disk.publishes
  commits : after.commits = disk.commits
  stores : after.stores = disk.stores
  notifies : after.notifies = disk.notifies
  orphaned : after.orphaned = disk.orphaned
  abandoned : after.abandoned = disk.abandoned
  fresh : disk.fresh ≤ after.fresh
  files : ∀ {file}, disk.installed file = true → after.files file = disk.files file

theorem Private.quiet (hidden : Private disk after) (inv : DiskInv disk) :
    DiskInv after ∧ disk.Evolves after ∧ disk.Silent after := by
  have image : ∀ {file}, disk.installed file = true → after.image file = disk.image file :=
    fun here => image_congr (hidden.files here) (by rw [hidden.commits]) (by rw [hidden.stores])
      (by rw [hidden.notifies]) (by rw [hidden.publishes])
  have retired : ∀ {file}, disk.installed file = true →
      (after.Retired file ↔ disk.Retired file) := by
    intro file here
    change (after.image file).Retired ↔ (disk.image file).Retired
    rw [image here]
  refine ⟨⟨?_, ?_, ?_, ?_, ?_, ?_, ?_⟩, ⟨?_, ?_, ?_, ?_, ?_, ?_⟩, hidden.data, hidden.installed,
    hidden.publishes, hidden.stores, hidden.notifies, hidden.orphaned, hidden.abandoned, retired⟩
  · intro file named
    rw [hidden.data] at named
    obtain ⟨here, active, newest⟩ := inv.data named
    rw [hidden.installed, retired here]
    exact ⟨here, active, newest⟩
  · rw [hidden.installed]
    exact fun here => Nat.lt_of_lt_of_le (inv.fresh here) hidden.fresh
  · rw [hidden.installed, hidden.commits, hidden.stores, hidden.notifies]
    exact inv.unused
  · intro file here
    rw [hidden.installed] at here
    rw [image here]
    exact inv.valid here
  · rw [hidden.publishes, hidden.installed]
    exact inv.published
  · rw [hidden.publishes]
    exact inv.ordered
  · rw [hidden.publishes]
    exact inv.chained
  · exact hidden.publishes ▸ List.prefix_refl _
  · rw [hidden.installed]
    exact id
  · intro file here
    rw [image here]
    exact Image.Evolves.refl _
  · rw [hidden.data]
    exact fun _ => id
  · rw [hidden.orphaned]
    exact id
  · rw [hidden.abandoned]
    exact id

theorem private_create (inv : DiskInv disk) (suffix : Suffix) :
    Private disk (disk.create suffix) := by
  refine ⟨rfl, rfl, rfl, rfl, rfl, rfl, rfl, rfl, Nat.le_succ _, fun here => ?_⟩
  exact Function.update_of_ne (Nat.ne_of_lt (inv.fresh here)) _ _

theorem private_allocate (size : Nat) (absent : disk.installed file = false) :
    Private disk (disk.allocate file size) := by
  refine ⟨rfl, rfl, rfl, rfl, rfl, rfl, rfl, rfl, Nat.le_refl _, fun {other} here => ?_⟩
  refine Function.update_of_ne ?_ _ _
  rintro rfl
  exact nomatch absent.symm.trans here

theorem private_storeByte (address : Nat) (byte : UInt8) (absent : disk.installed file = false) :
    Private disk (disk.storeByte file address byte) := by
  refine ⟨rfl, rfl, rfl, rfl, rfl, rfl, rfl, rfl, Nat.le_refl _, fun {other} here => ?_⟩
  refine Function.update_of_ne ?_ _ _
  rintro rfl
  exact nomatch absent.symm.trans here

theorem private_tmp (tmp : Suffix → Option FileId) : Private disk { disk with tmp } :=
  ⟨rfl, rfl, rfl, rfl, rfl, rfl, rfl, rfl, Nat.le_refl _, fun _ => rfl⟩

theorem install_step (suffix : Suffix) (inv : DiskInv disk) (absent : disk.installed file = false)
    (known : file < disk.fresh) (newest : ∀ other, disk.installed other = true → other < file)
    (valid : (disk.image file).Valid g) (active : ¬ disk.Retired file) :
    DiskInv (disk.install suffix file) ∧ disk.Evolves (disk.install suffix file) := by
  have installed : ∀ {other}, (disk.install suffix file).installed other = true ↔
      other = file ∨ disk.installed other = true := by
    intro other
    change Function.update disk.installed file true other = true ↔ _
    by_cases same : other = file
    · simp [same]
    · simp [same]
  refine ⟨⟨?_, ?_, ?_, ?_, ?_, inv.ordered, inv.chained⟩, List.prefix_refl _,
    fun here => installed.mpr (.inr here), fun _ => Image.Evolves.refl _, ?_, id, id⟩
  · intro current named
    have same : file = current := Option.some.inj named
    subst same
    refine ⟨installed.mpr (.inl rfl), active, fun other here => ?_⟩
    rcases installed.mp here with rfl | older
    · exact Nat.le_refl _
    · exact Nat.le_of_lt (newest other older)
  · intro other here
    rcases installed.mp here with rfl | older
    · exact known
    · exact inv.fresh older
  · intro other gone
    have missing : disk.installed other = false := by
      cases present : disk.installed other with
      | false => rfl
      | true =>
          rw [installed.mpr (.inr present)] at gone
          exact nomatch gone
    exact inv.unused missing
  · intro other here
    rcases installed.mp here with rfl | older
    · exact ⟨g, valid⟩
    · exact inv.valid older
  · exact fun publish member => installed.mpr (.inr (inv.published publish member))
  · intro other here _ named
    have same : file = other := Option.some.inj named
    rw [same, here] at absent
    exact nomatch absent

theorem unlink_step (inv : DiskInv disk) :
    DiskInv { disk with data := none } ∧ disk.Evolves { disk with data := none } :=
  ⟨⟨nofun, inv.fresh, inv.unused, inv.valid, inv.published, inv.ordered, inv.chained⟩,
    List.prefix_refl _, id, fun _ => Image.Evolves.refl _, fun _ _ => nofun, id, id⟩

end Disk

end PsMsgr
