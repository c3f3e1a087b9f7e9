import PsMsgr.Channel.Geometry
import PsMsgr.Host.World

namespace PsMsgr

open Data

/-! # One data file and its history

What is true of a complete file at every instant, and how it may change while others
look at it.  A slot's version counts its begins and commits; an even version
determines the slot's contents, which is what a reader relies on.
-/

structure Image where
  regular : Bool
  size : Nat
  memory : Memory
  commits : Nat → Nat
  stores : Nat
  notifies : Nat
  /-- The publishes in this file. -/
  history : List Publish

def Disk.image (disk : Disk) (file : FileId) : Image where
  regular := (disk.files file).regular
  size := (disk.files file).size
  memory := disk.memory file
  commits := disk.commits file
  stores := disk.stores file
  notifies := disk.notifies file
  history := disk.publishes.filter (fun publish => publish.file = file)

/-- The slot at an address has the header fields and payload of the publish. -/
structure Holds (memory : Memory) (slot : Nat) (publish : Publish) : Prop where
  generation : memory.word32 (slot + Offset.generation) = publish.generation
  length : memory.word32 (slot + Offset.length) = publish.length
  timestampNs : memory.word64 (slot + Offset.timestampNs) = publish.timestampNs
  payload : memory.read (slot + Offset.payload) publish.length.toNat = publish.payload

theorem Holds.congr {memory other : Memory} {slot : Nat} {publish : Publish}
    (holds : Holds memory slot publish)
    (same : ∀ address, slot + Offset.generation ≤ address →
      address < slot + Offset.payload + publish.length.toNat → other address = memory address) :
    Holds other slot publish := by
  simp only [Offset.generation, Offset.payload] at same
  have window : ∀ offset count, 4 ≤ offset → offset + count ≤ 32 →
      other.read (slot + offset) count = memory.read (slot + offset) count :=
    fun offset count lower room => Memory.read_congr
      (fun address _ _ => same address (by omega) (by omega))
  refine ⟨?_, ?_, ?_, ?_⟩
  · rw [← holds.generation]
    exact Memory.word32_congr (window _ _ (by decide) (by decide))
  · rw [← holds.length]
    exact Memory.word32_congr (window _ _ (by decide) (by decide))
  · rw [← holds.timestampNs]
    exact Memory.word64_congr (window _ _ (by decide) (by decide))
  · rw [← holds.payload]
    refine Memory.read_congr (fun address lower upper => ?_)
    simp only [Offset.payload] at lower upper
    exact same address (by omega) (by omega)

namespace Image

variable (x : Image) (g : Geometry)

def seq (i : Nat) : UInt32 := x.memory.word32 (g.slot i)

/-- Counts the begins and commits of slot `i`; odd while it is being written. -/
def version (i : Nat) : Nat := 2 * x.commits (g.slot i) + (x.seq g i).toNat % 2

/-- The slot `latest` names, once there is one. -/
def current : Nat := (x.history.length - 1) % g.count

/-- The slot the next publish writes. -/
def next : Nat := x.history.length % g.count

def Retired : Prop := x.memory.word32 Offset.state &&& psmiStateRetired ≠ 0

/-- `latest` is the last publish, and its slot still holds it. -/
def Published : Prop :=
  match x.history.getLast? with
  | none => x.memory.word32 Offset.latest = psmiLatestNone
  | some publish =>
      x.memory.word32 Offset.latest =
        psmiLatest (UInt32.ofNat (x.current g)) (x.seq g (x.current g)) ∧
      Holds x.memory (g.slot (x.current g)) publish

/-- The invariant of a complete file. -/
structure Valid : Prop where
  shape : Shape x.memory g
  header : headerValid (Header.ofMemory x.memory) x.size = true
  regular : x.regular = true
  counted : ∀ i < g.count, (x.seq g i).toNat / 2 = x.commits (g.slot i) % 2 ^ 31
  settled : ∀ i < g.count, i ≠ x.next g → (x.seq g i).toNat % 2 = 0
  published : x.Published g
  sane : ∀ publish ∈ x.history, publish.length ≤ g.capacity ∧ publish.generation ≠ 0
  notified : (x.memory.word32 Offset.notify).toNat = x.notifies % 2 ^ 32

/-- How a complete file may change. -/
structure Evolves (y : Image) : Prop where
  regular : y.regular = x.regular
  size : y.size = x.size
  header : ∀ address, address < Offset.state → y.memory address = x.memory address
  history : x.history <+: y.history
  commits : ∀ offset, x.commits offset ≤ y.commits offset
  stores : x.stores ≤ y.stores
  notifies : x.notifies ≤ y.notifies
  retired : x.Retired → y.Retired
  version : ∀ g, Shape x.memory g → ∀ i < g.count, x.version g i ≤ y.version g i
  contents : ∀ g, Shape x.memory g → ∀ i < g.count, y.version g i = x.version g i →
    x.version g i % 2 = 0 → ∀ address, g.slot i + Offset.generation ≤ address →
      address < g.slot i + g.stride → y.memory address = x.memory address
  /-- Without a store of `latest` or `RETIRED` only the next slot changes. -/
  still : y.stores = x.stores → y.history = x.history ∧ (y.Retired → x.Retired) ∧
    ∀ g, Shape x.memory g → ∀ i < g.count, i ≠ x.next g → y.version g i = x.version g i
  /-- A slot is written only while it is the next one. -/
  rotates : ∀ g, Shape x.memory g → ∀ i < g.count, y.version g i ≠ x.version g i →
    ∃ published, x.history.length ≤ published ∧ published ≤ y.history.length ∧
      published % g.count = i

variable {x g} {y z : Image}

theorem next_lt : x.next g < g.count := Nat.mod_lt _ g.count_pos

theorem current_lt : x.current g < g.count := Nat.mod_lt _ g.count_pos

/-- The slot being written is never the published one. -/
theorem current_ne_next (published : x.history ≠ []) : x.current g ≠ x.next g := by
  have several := g.two_le
  have positive := List.length_pos_iff.mpr published
  obtain ⟨before, length⟩ : ∃ before, x.history.length = before + 1 :=
    ⟨x.history.length - 1, by omega⟩
  unfold current next
  rw [length, Nat.add_sub_cancel]
  change 2 ≤ g.count at several
  have small := Nat.mod_lt before g.count_pos
  have successor : (before + 1) % g.count = (before % g.count + 1) % g.count := by
    rw [Nat.add_mod, Nat.mod_eq_of_lt (show 1 < g.count by omega)]
  rw [successor]
  by_cases wraps : before % g.count + 1 = g.count
  · rw [wraps, Nat.mod_self]
    omega
  · rw [Nat.mod_eq_of_lt (show before % g.count + 1 < g.count by omega)]
    omega

theorem Valid.current_even (valid : x.Valid g) (published : x.history ≠ []) :
    (x.seq g (x.current g)).toNat % 2 = 0 :=
  valid.settled _ current_lt (current_ne_next published)

theorem Evolves.refl (x : Image) : x.Evolves x where
  regular := rfl
  size := rfl
  header := fun _ _ => rfl
  history := List.prefix_refl _
  commits := fun _ => Nat.le_refl _
  stores := Nat.le_refl _
  notifies := Nat.le_refl _
  retired := id
  version := fun _ _ _ _ => Nat.le_refl _
  contents := fun _ _ _ _ _ _ _ _ _ => rfl
  still := fun _ => ⟨rfl, id, fun _ _ _ _ _ => rfl⟩
  rotates := fun _ _ _ _ moved => absurd rfl moved

theorem Evolves.shape (evolves : x.Evolves y) (shape : Shape x.memory g) : Shape y.memory g :=
  shape.congr evolves.header

theorem Evolves.trans (first : x.Evolves y) (second : y.Evolves z) : x.Evolves z where
  regular := second.regular.trans first.regular
  size := second.size.trans first.size
  header := fun address below => (second.header address below).trans (first.header address below)
  history := first.history.trans second.history
  commits := fun offset => Nat.le_trans (first.commits offset) (second.commits offset)
  stores := Nat.le_trans first.stores second.stores
  notifies := Nat.le_trans first.notifies second.notifies
  retired := fun retired => second.retired (first.retired retired)
  version := fun g shape i inside =>
    Nat.le_trans (first.version g shape i inside) (second.version g (first.shape shape) i inside)
  contents := by
    intro g shape i inside same even address lower upper
    have early := first.version g shape i inside
    have late := second.version g (first.shape shape) i inside
    have middle : y.version g i = x.version g i := by omega
    rw [second.contents g (first.shape shape) i inside (by omega) (by omega) address lower upper]
    exact first.contents g shape i inside middle even address lower upper
  still := by
    intro same
    have middle : y.stores = x.stores := by
      have early := first.stores
      have late := second.stores
      omega
    obtain ⟨history, retired, slots⟩ := first.still middle
    obtain ⟨history', retired', slots'⟩ := second.still (same.trans middle.symm)
    refine ⟨history'.trans history, fun later => retired (retired' later), ?_⟩
    intro g shape i inside other
    have unmoved : i ≠ y.next g := by
      rw [next, history]
      exact other
    exact (slots' g (first.shape shape) i inside unmoved).trans (slots g shape i inside other)
  rotates := by
    intro g shape i inside moved
    have early := first.history.length_le
    have late := second.history.length_le
    by_cases unmoved : y.version g i = x.version g i
    · obtain ⟨published, lower, upper, named⟩ :=
        second.rotates g (first.shape shape) i inside (by rw [unmoved]; exact moved)
      exact ⟨published, by omega, upper, named⟩
    · obtain ⟨published, lower, upper, named⟩ := first.rotates g shape i inside unmoved
      exact ⟨published, lower, by omega, named⟩

/-- `y` differs from `x` only in the next slot, whose contents change only while its
version is odd. -/
structure SlotStep (g : Geometry) (x y : Image) : Prop where
  regular : y.regular = x.regular
  size : y.size = x.size
  history : y.history = x.history
  stores : y.stores = x.stores
  notifies : y.notifies = x.notifies
  memory : ∀ address, address < g.slot (x.next g) ∨ g.slot (x.next g) + g.stride ≤ address →
    y.memory address = x.memory address
  commits : ∀ offset, offset ≠ g.slot (x.next g) → y.commits offset = x.commits offset
  committed : x.commits (g.slot (x.next g)) ≤ y.commits (g.slot (x.next g))
  counted : (y.seq g (x.next g)).toNat / 2 = y.commits (g.slot (x.next g)) % 2 ^ 31
  version : x.version g (x.next g) ≤ y.version g (x.next g)
  writing : y.version g (x.next g) = x.version g (x.next g) → x.version g (x.next g) % 2 = 1

namespace SlotStep

variable (step : SlotStep g x y)

include step

theorem next_eq : y.next g = x.next g := by rw [next, step.history, next]

theorem current_eq : y.current g = x.current g := by rw [current, step.history, current]

theorem header_eq {address : Nat} (below : address < 128) : y.memory address = x.memory address :=
  step.memory address (.inl (Nat.lt_of_lt_of_le below (g.slot_ge _)))

theorem word_eq {offset : Nat} (below : offset + 4 ≤ 128) :
    y.memory.word32 offset = x.memory.word32 offset :=
  Memory.word32_congr (Memory.read_congr (fun _ _ _ => step.header_eq (by omega)))

theorem retired_iff : y.Retired ↔ x.Retired := by
  unfold Retired
  rw [step.word_eq (by decide)]

theorem other_eq {i address : Nat} (other : i ≠ x.next g) (lower : g.slot i ≤ address)
    (upper : address < g.slot i + g.stride) : y.memory address = x.memory address := by
  have apart := g.slot_disjoint other
  exact step.memory address (by omega)

theorem seq_eq {i : Nat} (other : i ≠ x.next g) : y.seq g i = x.seq g i := by
  have room := g.stride_ge
  exact Memory.word32_congr (Memory.read_congr
    (fun _ lower upper => step.other_eq other lower (by omega)))

theorem version_eq {i : Nat} (other : i ≠ x.next g) : y.version g i = x.version g i := by
  have apart : g.slot i ≠ g.slot (x.next g) := fun same => other (g.slot_injective same)
  rw [Image.version, step.seq_eq other, step.commits _ apart, Image.version]

theorem valid (valid : x.Valid g) : y.Valid g where
  shape := valid.shape.congr
    (fun _ below => step.header_eq (Nat.lt_trans below (by decide)))
  header := by
    rw [step.size, Header.ofMemory_congr
      (fun _ below => step.header_eq (Nat.lt_trans below (by decide)))]
    exact valid.header
  regular := step.regular.trans valid.regular
  counted := by
    intro i inside
    by_cases other : i = x.next g
    · rw [other]
      exact step.counted
    · have apart : g.slot i ≠ g.slot (x.next g) := fun same => other (g.slot_injective same)
      rw [step.seq_eq other, step.commits _ apart]
      exact valid.counted i inside
  settled := by
    intro i inside other
    rw [step.next_eq] at other
    rw [step.seq_eq other]
    exact valid.settled i inside other
  published := by
    have published := valid.published
    unfold Published at published ⊢
    rw [step.history, step.word_eq (by decide)]
    cases last : x.history.getLast? with
    | none =>
        rw [last] at published
        exact published
    | some publish =>
        rw [last] at published
        have nonempty : x.history ≠ [] := by
          intro empty
          simp [empty] at last
        have apart := current_ne_next (g := g) nonempty
        have fits := (valid.sane publish (List.mem_of_getLast? last)).1
        have room := g.stride_bounds.1
        have small := UInt32.le_iff_toNat_le.mp fits
        simp only [step.current_eq, step.seq_eq apart]
        refine ⟨published.1, published.2.congr (fun address lower upper => ?_)⟩
        simp only [Offset.generation, Offset.payload] at lower upper
        exact step.other_eq apart (by omega) (by omega)
  sane := by
    rw [step.history]
    exact valid.sane
  notified := by
    rw [step.word_eq (by decide), step.notifies]
    exact valid.notified

theorem evolves (shape : Shape x.memory g) : x.Evolves y where
  regular := step.regular
  size := step.size
  header := fun _ below => step.header_eq (Nat.lt_trans below (by decide))
  history := step.history ▸ List.prefix_refl _
  commits := by
    intro offset
    by_cases other : offset = g.slot (x.next g)
    · rw [other]
      exact step.committed
    · exact Nat.le_of_eq (step.commits offset other).symm
  stores := Nat.le_of_eq step.stores.symm
  notifies := Nat.le_of_eq step.notifies.symm
  retired := step.retired_iff.mpr
  version := by
    intro g' shape' i _
    obtain rfl := shape.unique shape'
    by_cases other : i = x.next g
    · rw [other]
      exact step.version
    · exact Nat.le_of_eq (step.version_eq other).symm
  contents := by
    intro g' shape' i _ same even address lower upper
    obtain rfl := shape.unique shape'
    by_cases other : i = x.next g
    · subst i
      have odd := step.writing same
      omega
    · exact step.other_eq other (by omega) upper
  still := by
    intro _
    refine ⟨step.history, step.retired_iff.mp, ?_⟩
    intro g' shape' i _ other
    obtain rfl := shape.unique shape'
    exact step.version_eq other
  rotates := by
    intro g' shape' i _ moved
    obtain rfl := shape.unique shape'
    refine ⟨x.history.length, Nat.le_refl _, Nat.le_of_eq (by rw [step.history]), ?_⟩
    by_cases written : i = x.next g
    · exact written.symm
    · exact absurd (step.version_eq written) moved

end SlotStep

end Image

end PsMsgr
