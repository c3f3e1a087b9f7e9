import PsMsgr.Channel.Attaching

namespace PsMsgr

open Effect Discipline Data

namespace Image

variable {x y z : Image} {g : Geometry}

/-- The slot published in `x`, seen in `y` with a matching tag: provided it was committed
fewer than 2^27 times in between, it is the same version. -/
theorem Evolves.version_of_tag (evolves : x.Evolves y) (valid : x.Valid g) (valid' : y.Valid g)
    (published : x.history ≠ []) (even : (y.seq g (x.current g)).toNat % 2 = 0)
    (tag : (y.seq g (x.current g)).toNat / 2 % 2 ^ 27 = (x.seq g (x.current g)).toNat / 2 % 2 ^ 27)
    (few : y.commits (g.slot (x.current g)) < x.commits (g.slot (x.current g)) + 2 ^ 27) :
    y.version g (x.current g) = x.version g (x.current g) := by
  have before := valid.counted _ (current_lt (x := x))
  have after := valid'.counted _ (current_lt (x := x))
  have settled := valid.current_even published
  have grows := evolves.commits (g.slot (x.current g))
  unfold Image.version
  omega

/-- An equal counter is an equal version, provided there were fewer than 2^31 commits in
between. -/
theorem Evolves.version_of_seq {i : Nat} (evolves : y.Evolves z) (valid : y.Valid g)
    (valid' : z.Valid g) (inside : i < g.count) (same : z.seq g i = y.seq g i)
    (few : z.commits (g.slot i) < y.commits (g.slot i) + 2 ^ 31) :
    z.version g i = y.version g i := by
  have before := valid.counted i inside
  have after := valid'.counted i inside
  have grows := evolves.commits (g.slot i)
  rw [same] at after
  unfold Image.version
  rw [same]
  omega

/-- Without a store of `latest` or `RETIRED` the published slot stays as it is. -/
theorem Evolves.version_of_stores (evolves : x.Evolves y) (valid : x.Valid g)
    (published : x.history ≠ []) (same : y.stores = x.stores) :
    y.version g (x.current g) = x.version g (x.current g) :=
  (evolves.still same).2.2 g valid.shape _ current_lt (current_ne_next published)

theorem seq_of_version {i : Nat} (valid : x.Valid g) (valid' : y.Valid g) (inside : i < g.count)
    (same : y.version g i = x.version g i) : y.seq g i = x.seq g i := by
  have before := valid.counted i inside
  have after := valid'.counted i inside
  unfold Image.version at same
  exact UInt32.toNat_inj.mp (by omega)

theorem Evolves.geometry (evolves : x.Evolves y) (valid : x.Valid g) {g' : Geometry}
    (valid' : y.Valid g') : y.Valid g := by
  rw [(evolves.shape valid.shape).unique valid'.shape]
  exact valid'

end Image

variable {thread : Tid} {r : Reader} {file : FileId} {since : Disk} {x y : Image} {g : Geometry}
  {index : Nat} {publish : Publish} {before after : World}

/-- The file as it was when `latest` was loaded. -/
structure Anchor (r : Reader) (file : FileId) (since : Disk) (x : Image) (g : Geometry)
    (index : Nat) (publish : Publish) : Prop where
  valid : x.Valid g
  last : x.history.getLast? = some publish
  named : publish.file = file
  slotCount : r.slotCount = g.slotCount
  slotStride : r.slotStride = g.slotStride
  capacity : r.capacity = g.capacity
  stores : since.stores file ≤ x.stores
  recent : ∀ {earlier}, lastIndex file since.publishes = some earlier → earlier ≤ index

theorem Anchor.published (anchor : Anchor r file since x g index publish) : x.history ≠ [] := by
  intro empty
  have last := anchor.last
  rw [empty] at last
  exact nomatch last

/-- The thread has loaded `latest` from the file and sampled the publish it named. -/
structure Sampled (thread : Tid) (r : Reader) (file : FileId) (since : Disk) (x : Image)
    (index : Nat) (publish : Publish) (world : World) : Prop where
  following : Following thread r since world
  attached : r.file = some file
  evolves : x.Evolves (world.disk.image file)
  sampled : (world.log thread).sampled = some index
  here : world.disk.publishes[index]? = some publish
  base : (world.log thread).base file = x.commits

theorem Sampled.stable : channel.Stable thread (Sampled thread r file since x index publish) := by
  intro before after sampled rely inv
  have present := (sampled.following.attached sampled.attached).1.installed
  refine ⟨Following.stable _ _ sampled.following rely inv, sampled.attached,
    sampled.evolves.trans ((Rely.disk rely).image present), ?_,
    getElem?_of_grows (Rely.disk rely).publishes sampled.here, ?_⟩
  · rw [Rely.log rely]
    exact sampled.sampled
  · rw [Rely.log rely]
    exact sampled.base

theorem Sampled.quiet (sampled : Sampled thread r file since x index publish before)
    (quiet : Quiet thread before after) (awake : after.asleep thread = none)
    (same : (after.log thread).sampled = (before.log thread).sampled)
    (base : (after.log thread).base = (before.log thread).base) :
    Sampled thread r file since x index publish after := by
  refine ⟨sampled.following.quiet quiet awake same, sampled.attached, ?_, same.trans sampled.sampled,
    ?_, ?_⟩
  · rw [quiet.disk]
    exact sampled.evolves
  · rw [quiet.disk]
    exact sampled.here
  · rw [base]
    exact sampled.base

theorem Sampled.present (sampled : Sampled thread r file since x index publish before) :
    before.disk.installed file = true :=
  (sampled.following.attached sampled.attached).1.installed

theorem Sampled.valid (sampled : Sampled thread r file since x index publish before)
    (inv : Inv before) (valid : x.Valid g) : (before.disk.image file).Valid g := by
  obtain ⟨g', valid'⟩ := inv.disk.valid sampled.present
  exact sampled.evolves.geometry valid valid'

/-- Nothing was published in the file when `latest` was loaded. -/
structure Bare (thread : Tid) (r : Reader) (file : FileId) (since : Disk) (x : Image)
    (world : World) : Prop where
  following : Following thread r since world
  attached : r.file = some file
  evolves : x.Evolves (world.disk.image file)
  empty : x.history = []
  stores : since.stores file ≤ x.stores

theorem Bare.stable : channel.Stable thread (Bare thread r file since x) := by
  intro before after bare rely inv
  have present := (bare.following.attached bare.attached).1.installed
  exact ⟨Following.stable _ _ bare.following rely inv, bare.attached,
    bare.evolves.trans ((Rely.disk rely).image present), bare.empty, bare.stores⟩

theorem Disk.Evolves.stores {later : Disk} (evolves : since.Evolves later) (inv : DiskInv since) :
    since.stores file ≤ later.stores file := by
  cases present : since.installed file with
  | true => exact (evolves.image present).stores
  | false =>
      rw [(inv.unused present).2.1]
      exact Nat.zero_le _

/-- What loading `latest` comes to. -/
def LatestLoaded (thread : Tid) (r : Reader) (file : FileId) (since : Disk) (latest : UInt32)
    (world : World) : Prop :=
  (latest = psmiLatestNone ∧ ∃ x, Bare thread r file since x world) ∨
    ∃ x g index publish, Anchor r file since x g index publish ∧
      latest = psmiLatest (UInt32.ofNat (x.current g)) (x.seq g (x.current g)) ∧
      Sampled thread r file since x index publish world

theorem LatestLoaded.stable (latest : UInt32) :
    channel.Stable thread (LatestLoaded thread r file since latest) := by
  refine stable_or (stable_and stable_pure (stable_exists fun x => Bare.stable)) ?_
  refine stable_exists fun x => stable_exists fun g => stable_exists fun index =>
    stable_exists fun publish => ?_
  exact stable_and stable_pure (stable_and stable_pure Sampled.stable)

theorem Log.load_latest (log : Log) (disk : Disk) :
    (log.load disk file Offset.latest).sampled =
      (lastIndex file disk.publishes).or log.sampled := by
  unfold Log.load
  rw [if_pos rfl]
  cases lastIndex file disk.publishes with
  | none => rfl
  | some index => rfl

theorem triple_loadLatest (inv : DiskInv since) (attached : r.file = some file) :
    channel.Triple thread (Following thread r since) (call (.load file Offset.latest))
      (LatestLoaded thread r file since) := by
  refine triple_quiet LatestLoaded.stable ?_
  intro state reply after valid following executed
  obtain ⟨cached, ahead⟩ := following.attached attached
  have quiet := quiet_load valid (fun _ {index publish} sampled here => by
    obtain ⟨other, there, older⟩ := ahead sampled
    rw [here, Option.some.injEq] at there
    rw [there]
    exact older) executed
  obtain ⟨g, complete⟩ := valid.disk.valid cached.installed
  have published := complete.published
  have history : (state.disk.image file).history.getLast? = _ := getLast?_history
  have stores : since.stores file ≤ state.disk.stores file := following.evolves.stores inv
  obtain ⟨rfl, rfl⟩ := executed
  refine ⟨quiet, following.outside.asleep, ?_⟩
  have own : (state.setLog thread ((state.log thread).load state.disk file Offset.latest)).log
      thread = (state.log thread).load state.disk file Offset.latest := Function.update_self _ _ _
  have loads := (congrArg Log.sampled own).trans (Log.load_latest _ _)
  unfold Image.Published at published
  rw [history] at published
  cases found : lastIndex file state.disk.publishes with
  | none =>
      rw [found] at published history
      rw [found, Option.none_or] at loads
      have empty : (state.disk.image file).history = [] := List.getLast?_eq_none_iff.mp history
      refine .inl ⟨published, _, following.quiet quiet following.outside.asleep ?_, attached,
        Image.Evolves.refl _, empty, stores⟩
      exact loads
  | some index =>
      obtain ⟨⟨publish, here, named⟩, -⟩ := lastIndex_eq_some_iff.mp found
      rw [found] at published history
      rw [found, Option.some_or] at loads
      simp only [Option.bind_some, here] at published history
      have shape := complete.shape
      refine .inr ⟨_, g, index, publish, ⟨complete, history, named, ?_, ?_, ?_, stores, ?_⟩,
        published.1, ⟨quiet.outside following.outside.asleep following.outside, following.evolves,
          ?_⟩, attached, Image.Evolves.refl _, ?_, here, ?_⟩
      · exact cached.slotCount.trans shape.slotCount
      · exact cached.slotStride.trans shape.slotStride
      · exact cached.capacity.trans shape.capacity
      · intro earlier before
        obtain ⟨later, there, order⟩ := lastIndex_mono following.evolves.publishes before
        rw [found, Option.some.injEq] at there
        rw [there]
        exact order
      · intro other same
        obtain rfl : file = other := Option.some.inj (attached.symm.trans same)
        refine ⟨cached, fun {sampled} loaded => ⟨publish, ?_, Nat.le_of_eq named⟩⟩
        obtain rfl : index = sampled := Option.some.inj (loads.symm.trans loaded)
        exact here
      · exact loads
      · rw [own]
        rfl

section Slot

variable (anchor : Anchor r file since x g index publish)

/-- The published slot was looked at when the file was `y`. -/
structure Seen (thread : Tid) (r : Reader) (file : FileId) (since : Disk) (x : Image)
    (g : Geometry) (index : Nat) (publish : Publish) (y : Image) (world : World) : Prop where
  sampled : Sampled thread r file since x index publish world
  valid : y.Valid g
  middle : x.Evolves y
  later : y.Evolves (world.disk.image file)
  few : (world.log thread).wrapped = false →
    y.commits (g.slot (x.current g)) < x.commits (g.slot (x.current g)) + 2 ^ 27

theorem Seen.stable : channel.Stable thread (Seen thread r file since x g index publish y) := by
  intro before after seen rely inv
  refine ⟨Sampled.stable _ _ seen.sampled rely inv, seen.valid, seen.middle,
    seen.later.trans ((Rely.disk rely).image seen.sampled.present), ?_⟩
  rw [Rely.log rely]
  exact seen.few

/-- The fact holds, provided the slot still is at the version it had in `y`. -/
def Provided (file : FileId) (x : Image) (g : Geometry) (y : Image) (fact : Prop) (world : World) :
    Prop :=
  (world.disk.image file).version g (x.current g) = y.version g (x.current g) → fact

theorem Seen.stable_provided {fact : Prop} :
    channel.Stable thread (fun world => Seen thread r file since x g index publish y world ∧
      Provided file x g y fact world) := by
  intro before after holds rely inv
  obtain ⟨seen, provided⟩ := holds
  refine ⟨Seen.stable _ _ seen rely inv, fun same => provided ?_⟩
  have image := (Rely.disk rely).image seen.sampled.present
  have early := seen.later.version g seen.valid.shape _ (Image.current_lt (x := x))
  have late := image.version g (seen.later.shape seen.valid.shape) _ (Image.current_lt (x := x))
  omega

theorem Log.load_slot (log : Log) (disk : Disk) (i : Nat) :
    log.load disk file (g.slot i) = { log with
      wrapped := log.wrapped ||
        decide (log.base file (g.slot i) + 2 ^ 27 ≤ disk.commits file (g.slot i)) } := by
  have above := g.slot_ge i
  unfold Log.load
  rw [if_neg (by simp only [Offset.latest]; omega), if_neg (by simp only [Offset.notify]; omega)]

theorem triple_loadSeq {fact : Prop} :
    channel.Triple thread
      (fun world => Seen thread r file since x g index publish y world ∧ Provided file x g y fact world)
      (call (.load file (g.slot (x.current g))))
      (fun q world => ∃ z, Seen thread r file since x g index publish z world ∧ y.Evolves z ∧
        q = z.seq g (x.current g) ∧
        (z.version g (x.current g) = y.version g (x.current g) → fact)) := by
  refine triple_quiet (fun q => stable_exists fun z => stable_and Seen.stable stable_pure) ?_
  intro state reply after inv holds executed
  obtain ⟨seen, provided⟩ := holds
  have above := g.slot_ge (x.current g)
  obtain ⟨quiet, asleep, same⟩ := quiet_loadWord inv
    (by simp only [Offset.latest]; omega) executed
  have awake : after.asleep thread = none := by
    rw [asleep]
    exact seen.sampled.following.outside.asleep
  obtain ⟨g', valid'⟩ := inv.disk.valid seen.sampled.present
  have valid := seen.later.geometry seen.valid valid'
  obtain ⟨rfl, rfl⟩ := executed
  have own : (state.setLog thread ((state.log thread).load state.disk file
      (g.slot (x.current g)))).log thread = _ :=
    (Function.update_self _ _ _).trans (Log.load_slot _ _ _)
  refine ⟨quiet, awake, state.disk.image file, ⟨?_, valid, seen.sampled.evolves,
    Image.Evolves.refl _, ?_⟩, seen.later, rfl, provided⟩
  · refine seen.sampled.quiet quiet awake same ?_
    rw [own]
  · rw [own, ← seen.sampled.base]
    intro few
    simp only [Bool.or_eq_false_iff, decide_eq_false_iff_not, Nat.not_le] at few
    exact few.2

/-- The bytes are those of the slot in `y`; the counter in front is left out. -/
def Matches (x : Image) (g : Geometry) (y : Image) (offset : Nat) (bytes : List UInt8) : Prop :=
  ∀ k byte, bytes[k]? = some byte →
    g.slot (x.current g) + Offset.generation ≤ offset + k →
    offset + k < g.slot (x.current g) + g.stride → byte = y.memory (offset + k)

theorem triple_copy {fact : Prop} (even : y.version g (x.current g) % 2 = 0) (offset count : Nat) :
    channel.Triple thread
      (fun world => Seen thread r file since x g index publish y world ∧ Provided file x g y fact world)
      (loadBytes file offset count)
      (fun bytes world => bytes.length = count ∧
        Seen thread r file since x g index publish y world ∧
        Provided file x g y (fact ∧ Matches x g y offset bytes) world) := by
  induction count generalizing offset fact with
  | zero =>
      refine Triple.done (fun _ holds => ⟨rfl, holds.1, fun same => ⟨holds.2 same, ?_⟩⟩)
      exact fun _ _ here => nomatch here
  | succ count ih =>
      have first : channel.Triple thread
          (fun world => Seen thread r file since x g index publish y world ∧
            Provided file x g y fact world)
          (call (.loadByte file offset))
          (fun byte world => Seen thread r file since x g index publish y world ∧
            Provided file x g y (fact ∧ Matches x g y offset [byte]) world) := by
        refine triple_passive trivial (fun _ => Seen.stable_provided) ?_
        intro world reply inv holds executed
        obtain ⟨seen, provided⟩ := holds
        refine ⟨seen, fun same => ⟨provided same, fun k byte here lower upper => ?_⟩⟩
        obtain ⟨rfl, -⟩ := executed
        obtain ⟨rfl, rfl⟩ : k = 0 ∧ world.disk.memory file offset = byte := by
          cases k with
          | zero => exact ⟨rfl, Option.some.inj here⟩
          | succ k => exact nomatch here
        exact seen.later.contents g seen.valid.shape _ Image.current_lt same even _ lower upper
      refine first.bind fun byte => (ih (offset + 1)).bind fun bytes => Triple.done (fun _ holds => ?_)
      obtain ⟨length, seen, provided⟩ := holds
      refine ⟨by rw [List.length_cons, length], seen, fun same => ?_⟩
      obtain ⟨⟨known, front⟩, back⟩ := provided same
      refine ⟨known, fun k other here lower upper => ?_⟩
      cases k with
      | zero => exact front 0 other here lower upper
      | succ k =>
          have shifted : offset + (k + 1) = offset + 1 + k := by omega
          rw [shifted] at lower upper ⊢
          exact back k other here lower upper

/-- The slot cannot have been committed again unnoticed. -/
def Intact (thread : Tid) (file : FileId) (x : Image) (world : World) : Prop :=
  (world.log thread).wrapped = false ∨ world.disk.stores file = x.stores

/-- The info is that of the publish. -/
structure Shows (publish : Publish) (info : Info) : Prop where
  generation : info.generation = publish.generation
  length : info.length = publish.length
  timestampNs : info.timestampNs = publish.timestampNs

include anchor

theorem Seen.version_of_stores {world : World}
    (seen : Seen thread r file since x g index publish y world)
    (still : world.disk.stores file = x.stores) :
    y.version g (x.current g) = x.version g (x.current g) := by
  have early := seen.middle.stores
  have late : y.stores ≤ world.disk.stores file := seen.later.stores
  exact seen.middle.version_of_stores anchor.valid anchor.published (by omega)

theorem Seen.version_of_check {world : World}
    (seen : Seen thread r file since x g index publish y world)
    (even : (y.seq g (x.current g)).toNat % 2 = 0)
    (tag : psmiLatest (UInt32.ofNat (x.current g)) (y.seq g (x.current g)) =
      psmiLatest (UInt32.ofNat (x.current g)) (x.seq g (x.current g)))
    (intact : Intact thread file x world) :
    y.version g (x.current g) = x.version g (x.current g) := by
  rcases intact with unwrapped | still
  · have bound : (UInt32.ofNat (x.current g)).toNat < 16 := by
      rw [slotIndex_toNat Image.current_lt]
      exact Nat.lt_of_lt_of_le Image.current_lt g.le_sixteen
    exact seen.middle.version_of_tag anchor.valid seen.valid anchor.published even
      ((psmiLatest_eq_iff bound).mp tag) (seen.few unwrapped)
  · exact seen.version_of_stores anchor still

/-- A slot that does not match has been written since `latest` was loaded. -/
theorem Seen.moved {world : World} (seen : Seen thread r file since x g index publish y world)
    (changed : y.seq g (x.current g) ≠ x.seq g (x.current g)) :
    since.stores file < world.disk.stores file := by
  have grows : x.stores ≤ world.disk.stores file := seen.sampled.evolves.stores
  have start := anchor.stores
  by_cases still : world.disk.stores file = x.stores
  · exact absurd (Image.seq_of_version anchor.valid seen.valid Image.current_lt
      (seen.version_of_stores anchor still)) changed
  · omega

theorem Seen.holds {world : World} (seen : Seen thread r file since x g index publish y world)
    (same : y.version g (x.current g) = x.version g (x.current g)) :
    Holds y.memory (g.slot (x.current g)) publish := by
  have published := anchor.valid.published
  unfold Image.Published at published
  rw [anchor.last] at published
  have even : x.version g (x.current g) % 2 = 0 := by
    have settled := anchor.valid.current_even anchor.published
    unfold Image.version
    omega
  have short := UInt32.le_iff_toNat_le.mp
    (anchor.valid.sane publish (List.mem_of_getLast? anchor.last)).1
  have room := g.stride_bounds.1
  refine published.2.congr (fun address lower upper => ?_)
  simp only [Offset.payload] at upper
  exact seen.middle.contents g anchor.valid.shape _ Image.current_lt same even address lower
    (by omega)

omit anchor in
theorem Seen.earlier {z : Image} {world : World}
    (seen : Seen thread r file since x g index publish z world) (valid : y.Valid g)
    (middle : x.Evolves y) (evolves : y.Evolves z) :
    Seen thread r file since x g index publish y world := by
  refine ⟨seen.sampled, valid, middle, evolves.trans seen.later, fun unwrapped => ?_⟩
  exact Nat.lt_of_le_of_lt (evolves.commits _) (seen.few unwrapped)

/-- Two equal counters around the copy: the slot was at one version throughout. -/
theorem Seen.confirmed {z : Image} {world : World}
    (first : Seen thread r file since x g index publish y world)
    (second : Seen thread r file since x g index publish z world) (evolves : y.Evolves z)
    (even : (y.seq g (x.current g)).toNat % 2 = 0)
    (tag : psmiLatest (UInt32.ofNat (x.current g)) (y.seq g (x.current g)) =
      psmiLatest (UInt32.ofNat (x.current g)) (x.seq g (x.current g)))
    (same : z.seq g (x.current g) = y.seq g (x.current g)) (intact : Intact thread file x world) :
    z.version g (x.current g) = y.version g (x.current g) ∧
      y.version g (x.current g) = x.version g (x.current g) := by
  have unmoved := first.version_of_check anchor even tag intact
  refine ⟨?_, unmoved⟩
  rcases intact with unwrapped | still
  · have few := second.few unwrapped
    have grows := first.middle.commits (g.slot (x.current g))
    exact evolves.version_of_seq first.valid second.valid Image.current_lt same (by omega)
  · exact (second.version_of_stores anchor still).trans unmoved.symm

end Slot

/-- The copy of the slot header is that of the slot in `y`. -/
structure Faithful (x : Image) (g : Geometry) (y : Image) (m : SlotCopy) : Prop where
  generation : m.generation = y.memory.word32 (g.slot (x.current g) + Offset.generation)
  timestampNs : m.timestampNs = y.memory.word64 (g.slot (x.current g) + Offset.timestampNs)
  length : m.length = y.memory.word32 (g.slot (x.current g) + Offset.length)

theorem Matches.read {offset skip count : Nat} {bytes : List UInt8}
    (matching : Matches x g y offset bytes) (room : skip + count ≤ bytes.length)
    (lower : g.slot (x.current g) + Offset.generation ≤ offset + skip)
    (upper : offset + skip + count ≤ g.slot (x.current g) + g.stride) :
    Memory.read (fun address => bytes.getD address 0) skip count =
      y.memory.read (offset + skip) count := by
  induction count generalizing skip with
  | zero => rfl
  | succ count ih =>
      have here : bytes[skip]? = some (bytes.get ⟨skip, by omega⟩) :=
        List.getElem?_eq_getElem (by omega)
      have byte := matching skip _ here lower (by omega)
      have rest : Memory.read (fun address => bytes.getD address 0) (skip + 1) count =
          y.memory.read (offset + (skip + 1)) count := ih (by omega) (by omega) (by omega)
      rw [Memory.read, Memory.read, rest, ← byte, List.getD_eq_getElem?_getD, here]
      rfl

theorem Matches.whole {offset : Nat} {bytes : List UInt8} (matching : Matches x g y offset bytes)
    (lower : g.slot (x.current g) + Offset.generation ≤ offset)
    (upper : offset + bytes.length ≤ g.slot (x.current g) + g.stride) :
    bytes = y.memory.read offset bytes.length := by
  induction bytes generalizing offset with
  | nil => rfl
  | cons byte bytes ih =>
      rw [List.length_cons] at upper
      have rest : Matches x g y (offset + 1) bytes := by
        intro k other here lower upper
        have shifted : offset + 1 + k = offset + (k + 1) := by omega
        rw [shifted] at lower upper ⊢
        exact matching (k + 1) other here lower upper
      rw [List.length_cons, Memory.read, ← ih rest (by omega) (by omega)]
      exact congrArg (· :: bytes) (matching 0 byte rfl lower (by omega))

theorem Matches.faithful {bytes : List UInt8} (length : bytes.length = Offset.reserved)
    (matching : Matches x g y (g.slot (x.current g)) bytes) :
    Faithful x g y (SlotCopy.ofBytes bytes) := by
  have wide := g.stride_ge
  have field : ∀ skip count, 4 ≤ skip → skip + count ≤ 20 →
      Memory.read (fun address => bytes.getD address 0) skip count =
        y.memory.read (g.slot (x.current g) + skip) count := by
    intro skip count lower upper
    refine matching.read (by rw [length]; exact upper) (Nat.add_le_add_left lower _) (by omega)
  refine ⟨?_, ?_, ?_⟩
  · simp only [SlotCopy.ofBytes, Memory.word32, field Offset.generation 4 (by decide) (by decide)]
  · simp only [SlotCopy.ofBytes, Memory.word64, field Offset.timestampNs 8 (by decide) (by decide)]
  · simp only [SlotCopy.ofBytes, Memory.word32, field Offset.length 4 (by decide) (by decide)]

/-- A result that shows the publish `latest` named when it was last loaded. -/
structure Observed (thread : Tid) (r : Reader) (file : FileId) (since : Disk) (copy : Bool)
    (code : Code) (info : Info) (buffer : List UInt8) (x : Image) (g : Geometry) (index : Nat)
    (publish : Publish) (world : World) : Prop where
  anchor : Anchor r file since x g index publish
  sampled : Sampled thread r file since x index publish world
  shows : Intact thread file x world → Shows publish info
  payload : Intact thread file x world → copy = true → code = .ok →
    buffer.take publish.length.toNat = publish.payload

/-- The results of `read_latest`, with what each says about the file. -/
inductive Outcome (thread : Tid) (r : Reader) (file : FileId) (since : Disk) (copy : Bool)
    (world : World) : Code → Option Info → List UInt8 → Prop where
  | empty {x : Image} {buffer : List UInt8} (bare : Bare thread r file since x world) :
      Outcome thread r file since copy world .nodata none buffer
  | moved {code : Code} {buffer : List UInt8} (failed : code = .format ∨ code = .busy)
      (following : Following thread r since world) (attached : r.file = some file)
      (stores : since.stores file < world.disk.stores file)
      (torn : code = .format → (world.log thread).wrapped = true) :
      Outcome thread r file since copy world code none buffer
  | shown {code : Code} {info : Info} {buffer : List UInt8} {x : Image} {g : Geometry}
      {index : Nat} {publish : Publish} (read : code = .ok ∨ (code = .toosmall ∧ copy = true))
      (observed : Observed thread r file since copy code info buffer x g index publish world) :
      Outcome thread r file since copy world code (some info) buffer

/-- What one turn of the loop comes to. -/
def AttemptPost (thread : Tid) (r : Reader) (file : FileId) (since : Disk) (copy : Bool) :
    Attempt → World → Prop
  | .result code info buffer => fun world => Outcome thread r file since copy world code info buffer
  | .again _ => fun world => Following thread r since world ∧
      since.stores file < world.disk.stores file

theorem Anchor.slot (anchor : Anchor r file since x g index publish) (seq : UInt32) :
    slotOffset r.slotStride (psmiLatestSlot (psmiLatest (UInt32.ofNat (x.current g)) seq)) =
      g.slot (x.current g) := by
  have small := slotIndex_toNat (Image.current_lt (x := x) (g := g))
  have below := Image.current_lt (x := x) (g := g)
  have most := g.le_sixteen
  have bound : (UInt32.ofNat (x.current g)).toNat < 16 := by
    rw [small]
    exact Nat.lt_of_lt_of_le below most
  rw [psmiLatestSlot_psmiLatest seq bound, anchor.slotStride, g.slotOffset_eq_slot (by omega), small]

/-- So is the payload, if it was copied. -/
structure Copied (r : Reader) (x : Image) (g : Geometry) (y : Image) (m : SlotCopy)
    (buffer : List UInt8) (size : UInt32) (copy : Bool) : Prop where
  faithful : Faithful x g y m
  payload : copy = true → m.length ≤ size → m.length ≤ r.capacity →
    buffer.take m.length.toNat =
      y.memory.read (g.slot (x.current g) + Offset.payload) m.length.toNat

theorem triple_recheck {q1 : UInt32} {m : SlotCopy} {buffer : List UInt8} {size : UInt32}
    {copy : Bool} (anchor : Anchor r file since x g index publish)
    (seq : q1 = y.seq g (x.current g)) (even : q1 &&& 1 = 0)
    (tag : psmiLatest (UInt32.ofNat (x.current g)) q1 =
      psmiLatest (UInt32.ofNat (x.current g)) (x.seq g (x.current g))) :
    channel.Triple thread
      (fun world => Seen thread r file since x g index publish y world ∧
        Provided file x g y (Copied r x g y m buffer size copy) world)
      (recheck r file (g.slot (x.current g)) q1 m buffer size copy)
      (AttemptPost thread r file since copy) := by
  subst seq
  replace even := (lowBit_eq_zero_iff _).mp even
  intro state inv holds
  have valid := holds.1.valid
  have middle := holds.1.middle
  refine (triple_loadSeq.bind fun q2 => ?_) state inv holds
  intro state inv holds
  obtain ⟨z, second, evolves, rfl, fact⟩ := holds
  have first := second.earlier valid middle evolves
  -- what two equal counters tell about the copy
  have confirmed : z.seq g (x.current g) = y.seq g (x.current g) → Intact thread file x state →
      Copied r x g y m buffer size copy ∧ Holds y.memory (g.slot (x.current g)) publish := by
    intro same intact
    obtain ⟨unmoved, original⟩ := first.confirmed anchor second evolves even tag same intact
    exact ⟨fact unmoved, first.holds anchor original⟩
  dsimp only
  split
  · next same =>
      split
      · next long =>
          have fits : ¬Intact thread file x state := by
            intro intact
            obtain ⟨⟨faithful, -⟩, stored⟩ := confirmed same intact
            have short := (anchor.valid.sane publish (List.mem_of_getLast? anchor.last)).1
            rw [faithful.length, stored.length, anchor.capacity] at long
            exact absurd (UInt32.lt_of_lt_of_le long short) (UInt32.lt_irrefl _)
          refine ⟨inv, .moved (.inl rfl) second.sampled.following second.sampled.attached ?_
            (fun _ => Bool.eq_true_of_not_eq_false fun unwrapped => fits (.inl unwrapped))⟩
          have grows : x.stores ≤ state.disk.stores file := second.sampled.evolves.stores
          have start := anchor.stores
          have moved : state.disk.stores file ≠ x.stores := fun still => fits (.inr still)
          omega
      · next short =>
          refine ⟨inv, .shown ?_ ⟨anchor, second.sampled, fun intact => ?_, fun intact copies ok => ?_⟩⟩
          · split
            · exact .inl rfl
            · next small =>
                simp only [Bool.or_eq_true, Bool.not_eq_true', not_or, Bool.not_eq_false] at small
                exact .inr ⟨rfl, small.1⟩
          · obtain ⟨⟨faithful, -⟩, stored⟩ := confirmed same intact
            exact ⟨faithful.generation.trans stored.generation, faithful.length.trans stored.length,
              faithful.timestampNs.trans stored.timestampNs⟩
          · obtain ⟨⟨faithful, copied⟩, stored⟩ := confirmed same intact
            have length := faithful.length.trans stored.length
            have fits : m.length ≤ size := by
              by_cases fits : m.length ≤ size
              · exact fits
              · rw [copies] at ok
                simp [fits] at ok
            rw [← length, copied copies fits (UInt32.not_lt.mp short), length]
            exact stored.payload
  · next changed =>
      refine ⟨inv, second.sampled.following, ?_⟩
      by_cases original : y.seq g (x.current g) = x.seq g (x.current g)
      · exact second.moved anchor (by rw [← original]; exact changed)
      · exact first.moved anchor original

theorem triple_readAttempt {buffer : List UInt8} {size : UInt32} {copy : Bool}
    (inv : DiskInv since) (attached : r.file = some file) :
    channel.Triple thread (Following thread r since) (readAttempt r file buffer size copy)
      (AttemptPost thread r file since copy) := by
  unfold readAttempt
  refine (triple_loadLatest inv attached).bind fun latest => ?_
  dsimp only
  intro state valid loaded
  rcases loaded with ⟨rfl, x, bare⟩ | ⟨x, g, index, publish, anchor, rfl, sampled⟩
  · rw [if_pos rfl]
    exact ⟨valid, .empty bare⟩
  · have small := slotIndex_toNat (Image.current_lt (x := x) (g := g))
    have below := Image.current_lt (x := x) (g := g)
    have bound : (UInt32.ofNat (x.current g)).toNat < 16 := by
      rw [small]
      exact Nat.lt_of_lt_of_le below g.le_sixteen
    have accepted : psmiLatestValid (psmiLatest (UInt32.ofNat (x.current g))
        (x.seq g (x.current g))) r.slotCount = true := by
      rw [anchor.slotCount]
      exact psmiLatestValid_psmiLatest _ bound (by rw [small]; exact below)
    rw [if_neg (psmiLatest_ne_none _ bound), accepted, anchor.slot,
      psmiLatestSlot_psmiLatest _ bound, if_neg (by decide)]
    have start : Seen thread r file since x g index publish x state ∧ Provided file x g x True state :=
      ⟨⟨sampled, anchor.valid, Image.Evolves.refl _, sampled.evolves, fun _ => by omega⟩,
        fun _ => trivial⟩
    refine (triple_loadSeq.bind fun q1 => ?_) state valid start
    intro state valid holds
    obtain ⟨y, seen, -, rfl, -⟩ := holds
    split
    · next matching =>
        obtain ⟨even, tag⟩ := matching
        have version : y.version g (x.current g) % 2 = 0 := by
          have low := (lowBit_eq_zero_iff _).mp even
          unfold Image.version
          omega
        refine ((triple_copy version _ _).bind fun bytes => ?_) state valid
          ⟨seen, (fun _ => trivial : Provided file x g y True state)⟩
        intro state valid holds
        obtain ⟨length, seen, provided⟩ := holds
        have faithful : Provided file x g y (Faithful x g y (SlotCopy.ofBytes bytes)) state :=
          fun same => (provided same).2.faithful length
        split
        · next copies =>
            simp only [Bool.and_eq_true, decide_eq_true_eq] at copies
            obtain ⟨⟨rfl, fits⟩, short⟩ := copies
            refine ((triple_copy version _ _).bind fun payload => ?_) state valid ⟨seen, faithful⟩
            intro state valid holds
            obtain ⟨length, seen, provided⟩ := holds
            refine triple_recheck anchor rfl even tag state valid ⟨seen, fun same => ?_⟩
            obtain ⟨faithful, matching⟩ := provided same
            refine ⟨faithful, fun _ _ _ => ?_⟩
            rw [List.take_append_of_le_length (Nat.le_of_eq length.symm),
              List.take_of_length_le (Nat.le_of_eq length)]
            rw [anchor.capacity] at short
            have room := g.stride_bounds.1
            have small := UInt32.le_iff_toNat_le.mp short
            rw [← length]
            refine matching.whole ?_ ?_
            · simp only [Offset.generation, Offset.payload]
              omega
            · simp only [Offset.payload]
              omega
        · next skipped =>
            refine triple_recheck anchor rfl even tag state valid ⟨seen, fun same => ⟨faithful same, ?_⟩⟩
            intro copies fits short
            simp [copies, fits, short] at skipped
    · next mismatch =>
        refine ⟨valid, seen.sampled.following, seen.moved anchor (fun same => mismatch ?_)⟩
        rw [same]
        exact ⟨(lowBit_eq_zero_iff _).mpr (anchor.valid.current_even anchor.published), rfl⟩

/-- A store to the file since the earlier time. -/
def Moved (thread : Tid) (r : Reader) (file : FileId) (since : Disk) (world : World) : Prop :=
  Following thread r since world ∧ since.stores file < world.disk.stores file

theorem Moved.stable (attached : r.file = some file) :
    channel.Stable thread (Moved thread r file since) := by
  intro before after moved rely inv
  have present := (moved.1.attached attached).1.installed
  have grows : before.disk.stores file ≤ after.disk.stores file :=
    ((Rely.disk rely).image present).stores
  exact ⟨Following.stable _ _ moved.1 rely inv, Nat.lt_of_lt_of_le moved.2 grows⟩

/-- By induction on the turns left; out of turns is only who has seen a store in each. -/
theorem triple_readLoop {size : UInt32} {copy : Bool} (inv : DiskInv since)
    (attached : r.file = some file) (tries : Nat) (buffer : List UInt8) :
    channel.Triple thread
      (fun world => Following thread r since world ∧
        (tries = 0 → since.stores file < world.disk.stores file))
      (readLoop r file size copy tries buffer)
      (fun result world => Outcome thread r file since copy world result.1 result.2.1 result.2.2) := by
  induction tries generalizing buffer with
  | zero =>
      exact Triple.done (fun _ holds => .moved (.inr rfl) holds.1 attached (holds.2 rfl) nofun)
  | succ tries ih =>
      unfold readLoop
      have attempt : channel.Triple thread (fun world => Following thread r since world ∧
          (tries + 1 = 0 → since.stores file < world.disk.stores file))
          (readAttempt r file buffer size copy) (AttemptPost thread r file since copy) :=
        (triple_readAttempt inv attached).strengthen (fun _ holds => holds.1)
      refine attempt.bind fun turn => ?_
      cases turn with
      | result code info buffer => exact Triple.done (fun _ outcome => outcome)
      | again buffer =>
          have again : channel.Triple thread (Moved thread r file since)
              (readLoop r file size copy tries buffer) _ :=
            (ih buffer).strengthen (fun _ moved => ⟨moved.1, fun _ => moved.2⟩)
          dsimp only
          split
          · exact (triple_skip .schedYield trivial (Moved.stable attached)).bind fun _ => again
          · exact again

theorem triple_readLatest {buffer : List UInt8} {size : UInt32} {copy : Bool}
    (inv : DiskInv since) (attached : r.file = some file) :
    channel.Triple thread (Following thread r since) (readLatest r file buffer size copy)
      (fun result world => Outcome thread r file since copy world result.1 result.2.1 result.2.2) :=
  (triple_readLoop inv attached readRetries buffer).strengthen (fun _ following => ⟨following, nofun⟩)

/-- A value handed to the caller: a publish in the file the reader is attached to, not
older than the last one before the call. -/
structure Value (thread : Tid) (since : Disk) (copy : Bool) (reply : ReadReply) (info : Info)
    (file : FileId) (index : Nat) (publish : Publish) (world : World) : Prop where
  returned : reply.info = some info
  active : Active since file
  sampled : (world.log thread).sampled = some index
  here : world.disk.publishes[index]? = some publish
  named : publish.file = file
  recent : ∀ {earlier}, lastIndex file since.publishes = some earlier → earlier ≤ index
  shows : (world.log thread).wrapped = false → Shows publish info
  payload : (world.log thread).wrapped = false → copy = true → reply.code = .ok →
    reply.buffer.take publish.length.toNat = publish.payload

/-- What a read or peek comes to. -/
def ReadPost (thread : Tid) (since : Disk) (copy : Bool) (returned : ReadReply × Reader)
    (world : World) : Prop :=
  Following thread returned.2 since world ∧
    (returned.1.code = .ok ∨ returned.1.code = .toosmall →
      ∃ file info index publish, returned.2.file = some file ∧
        Value thread since copy returned.1 info file index publish world)

theorem Following.announced {flag : Bool} (following : Following thread r since before) :
    Following thread { r with announce := flag } since before :=
  ⟨following.outside, following.evolves, fun named => by
    obtain ⟨cached, ahead⟩ := following.attached named
    exact ⟨⟨cached.installed, cached.ino, cached.slotCount, cached.slotStride, cached.capacity,
      cached.configFlags⟩, ahead⟩⟩

theorem Outcome.following {copy : Bool} {code : Code} {info : Option Info} {buffer : List UInt8}
    {world : World} (outcome : Outcome thread r file since copy world code info buffer) :
    Following thread r since world := by
  cases outcome with
  | empty bare => exact bare.following
  | moved _ following => exact following
  | shown _ observed => exact observed.sampled.following

theorem Outcome.readPost {copy : Bool} {code : Code} {info : Option Info} {buffer : List UInt8}
    {world : World} (outcome : Outcome thread r file since copy world code info buffer)
    (attached : r.file = some file) (active : Active since file) :
    ReadPost thread since copy (⟨code, info, buffer⟩, r) world := by
  refine ⟨outcome.following, fun read => ?_⟩
  cases outcome with
  | empty bare => exact absurd read (by simp)
  | moved failed following _ moved =>
      rcases failed with rfl | rfl
      · exact absurd read (by simp)
      · exact absurd read (by simp)
  | @shown _ info _ x g index publish _ observed =>
      exact ⟨file, info, index, publish, attached, rfl, active, observed.sampled.sampled,
        observed.sampled.here, observed.anchor.named, observed.anchor.recent,
        fun unwrapped => observed.shows (.inl unwrapped),
        fun unwrapped => observed.payload (.inl unwrapped)⟩

theorem ReadPost.announced {copy : Bool} {code : Code} {info : Option Info} {buffer : List UInt8}
    {world : World} (post : ReadPost thread since copy (⟨code, info, buffer⟩, r) world) :
    ReadPost thread since copy (⟨code, (announce r info).1, buffer⟩, (announce r info).2) world := by
  obtain ⟨following, read⟩ := post
  unfold announce
  split
  · refine ⟨following.announced, fun code => ?_⟩
    obtain ⟨file, shown, index, publish, named, value⟩ := read code
    refine ⟨file, { shown with flags := shown.flags ||| psmsgrInfoAttached }, index, publish, named,
      ?_, value.active, value.sampled, value.here, value.named, value.recent, ?_, value.payload⟩
    · change info.map _ = _
      rw [show info = some shown from value.returned]
      rfl
    · intro unwrapped
      obtain ⟨generation, length, timestampNs⟩ := value.shows unwrapped
      exact ⟨generation, length, timestampNs⟩
  · exact ⟨following, read⟩

theorem Synced.readPost {copy : Bool} {code : Code} {buffer : List UInt8} {world : World}
    (synced : Synced thread since (code, r) world)
    (missed : ∀ file, code = .ok → r.file = some file → False) :
    ReadPost thread since copy (⟨code, none, buffer⟩, r) world := by
  obtain ⟨following, ⟨ok, file, named, -⟩ | failed⟩ := synced
  · exact (missed file ok named).elim
  · refine ⟨following, fun read => ?_⟩
    rcases failed with rfl | rfl
    · exact absurd read (by simp)
    · exact absurd read (by simp)

theorem Synced.active (attached : r.file = some file) {world : World}
    (synced : Synced thread since (.ok, r) world) : Active since file := by
  obtain ⟨-, ⟨-, other, named, active⟩ | failed⟩ := synced
  · obtain rfl : file = other := Option.some.inj (attached.symm.trans named)
    exact active
  · exact absurd failed (by simp [Unattached])

theorem triple_psmsgrStateRead {buffer : Option (List UInt8)} {size : UInt32}
    (inv : DiskInv since) :
    channel.Triple thread (Following thread r since) (psmsgrStateRead r buffer size)
      (ReadPost thread since true) := by
  unfold psmsgrStateRead
  split
  · exact Triple.done (fun _ following => ⟨following, fun read => absurd read (by simp)⟩)
  refine triple_readerSync.bind fun result => ?_
  obtain ⟨rc, r⟩ := result
  dsimp only
  split
  · next file _ attached =>
      intro state valid synced
      have active := synced.active attached
      refine ((triple_readLatest inv attached).bind fun result => ?_) state valid synced.1
      split
      · exact Triple.done (fun _ outcome => (outcome.readPost attached active).announced)
      · exact Triple.done (fun _ outcome => outcome.readPost attached active)
  · next missed => exact Triple.done (fun _ synced => synced.readPost missed)

theorem triple_psmsgrStatePeek (inv : DiskInv since) :
    channel.Triple thread (Following thread r since) (psmsgrStatePeek r)
      (ReadPost thread since false) := by
  unfold psmsgrStatePeek
  refine triple_readerSync.bind fun result => ?_
  obtain ⟨rc, r⟩ := result
  dsimp only
  split
  · next file _ attached =>
      intro state valid synced
      have active := synced.active attached
      refine ((triple_readLatest inv attached).bind fun result => ?_) state valid synced.1
      split
      · exact Triple.done (fun _ outcome => (outcome.readPost attached active).announced)
      · exact Triple.done (fun _ outcome => outcome.readPost attached active)
  · next missed => exact Triple.done (fun _ synced => synced.readPost missed)

theorem triple_psmsgrStateDescribe :
    channel.Triple thread (Following thread r since) (psmsgrStateDescribe r)
      (fun result => Following thread result.2.2 since) := by
  unfold psmsgrStateDescribe
  refine triple_readerSync.bind fun result => ?_
  dsimp only
  split
  · exact Triple.done (fun _ synced => synced.1)
  · exact Triple.done (fun _ synced => synced.1)

theorem triple_psmsgrStateReaderClose :
    channel.Triple thread (Following thread r since) (psmsgrStateReaderClose r)
      (fun _ => Outside thread) := by
  unfold psmsgrStateReaderClose
  split
  · exact triple_detach.bind fun _ => Triple.done (fun _ following => following.outside)
  · exact Triple.done (fun _ following => following.outside)

end PsMsgr
