import PsMsgr.Channel.Image

namespace PsMsgr

open Data

namespace Image

variable {x y : Image} {g : Geometry}

theorem SlotStep.begin (valid : x.Valid g) :
    SlotStep g x { x with
      memory := x.memory.write (g.slot (x.next g))
        (Memory.bytes32 ((x.seq g (x.next g) &&& ~~~1) + 1)) } := by
  have count := valid.counted (x.next g) next_lt
  have odd := oddSeq_toNat (x.seq g (x.next g))
  have room := g.stride_ge
  refine ⟨rfl, rfl, rfl, rfl, rfl, ?_, fun _ _ => rfl, Nat.le_refl _, ?_, ?_, ?_⟩
  · intro address outside
    exact Memory.write_apply_outside (by rw [Memory.bytes32_length]; omega)
  all_goals simp only [Image.seq, Image.version, Memory.word32_write] at count odd ⊢
  all_goals omega

theorem SlotStep.storeByte {address : Nat} (byte : UInt8) (valid : x.Valid g)
    (odd : (x.seq g (x.next g)).toNat % 2 = 1)
    (lower : g.slot (x.next g) + Offset.generation ≤ address)
    (upper : address < g.slot (x.next g) + g.stride) :
    SlotStep g x { x with memory := Function.update x.memory address byte } := by
  have count := valid.counted (x.next g) next_lt
  simp only [Offset.generation] at lower
  have same : Memory.word32 (Function.update x.memory address byte) (g.slot (x.next g)) =
      x.memory.word32 (g.slot (x.next g)) :=
    Memory.word32_congr (Memory.read_congr
      (fun _ _ _ => Function.update_of_ne (by omega) _ _))
  refine ⟨rfl, rfl, rfl, rfl, rfl, ?_, fun _ _ => rfl, Nat.le_refl _, ?_, ?_, ?_⟩
  · intro other outside
    exact Function.update_of_ne (by omega) _ _
  all_goals simp only [Image.seq, Image.version, same] at count odd ⊢
  all_goals omega

theorem SlotStep.commit {q : UInt32} (valid : x.Valid g)
    (even : q.toNat = (x.seq g (x.next g)).toNat / 2 * 2) :
    SlotStep g x { x with
      memory := x.memory.write (g.slot (x.next g)) (Memory.bytes32 (q + 2))
      commits := Function.update x.commits (g.slot (x.next g))
        (x.commits (g.slot (x.next g)) + 1) } := by
  have count := valid.counted (x.next g) next_lt
  have bound := (x.seq g (x.next g)).toNat_lt
  have sum : (q + 2).toNat = (q.toNat + 2) % 2 ^ 32 := UInt32.toNat_add q 2
  have room := g.stride_ge
  refine ⟨rfl, rfl, rfl, rfl, rfl, ?_, ?_, ?_, ?_, ?_, ?_⟩
  · intro address outside
    exact Memory.write_apply_outside (by rw [Memory.bytes32_length]; omega)
  · intro offset other
    exact Function.update_of_ne other _ _
  all_goals simp only [Image.seq, Image.version, Memory.word32_write,
    Function.update_self] at count even ⊢
  all_goals omega

/-- `y` differs from `x` only in the header behind the fixed fields. -/
structure HeaderStep (x y : Image) : Prop where
  regular : y.regular = x.regular
  size : y.size = x.size
  commits : y.commits = x.commits
  memory : ∀ address, address < Offset.state ∨ 128 ≤ address → y.memory address = x.memory address

namespace HeaderStep

variable (step : HeaderStep x y)

include step

theorem slot_eq {i address : Nat} (lower : g.slot i ≤ address) :
    y.memory address = x.memory address :=
  step.memory address (.inr (Nat.le_trans (g.slot_ge i) lower))

theorem seq_eq (i : Nat) : y.seq g i = x.seq g i :=
  Memory.word32_congr (Memory.read_congr (fun _ lower _ => step.slot_eq lower))

theorem version_eq (i : Nat) : y.version g i = x.version g i := by
  rw [version, step.seq_eq, step.commits, version]

theorem holds {i : Nat} {publish : Publish} (holds : Holds x.memory (g.slot i) publish) :
    Holds y.memory (g.slot i) publish :=
  holds.congr (fun _ lower _ => step.slot_eq (Nat.le_of_add_right_le lower))

theorem valid (valid : x.Valid g)
    (settled : ∀ i < g.count, i ≠ y.next g → (x.seq g i).toNat % 2 = 0)
    (published : y.Published g)
    (sane : ∀ publish ∈ y.history, publish.length ≤ g.capacity ∧ publish.generation ≠ 0)
    (notified : (y.memory.word32 Offset.notify).toNat = y.notifies % 2 ^ 32) : y.Valid g where
  shape := valid.shape.congr (fun address below => step.memory address (.inl below))
  header := by
    rw [step.size, Header.ofMemory_congr (fun address below => step.memory address (.inl below))]
    exact valid.header
  regular := step.regular.trans valid.regular
  counted := by
    intro i inside
    rw [step.seq_eq, step.commits]
    exact valid.counted i inside
  settled := by
    intro i inside other
    rw [step.seq_eq]
    exact settled i inside other
  published := published
  sane := sane
  notified := notified

theorem evolves (history : x.history <+: y.history) (stores : x.stores ≤ y.stores)
    (notifies : x.notifies ≤ y.notifies) (retired : x.Retired → y.Retired)
    (still : y.stores = x.stores → y.history = x.history ∧ (y.Retired → x.Retired)) :
    x.Evolves y where
  regular := step.regular
  size := step.size
  header := fun address below => step.memory address (.inl below)
  history := history
  commits := fun offset => Nat.le_of_eq (by rw [step.commits])
  stores := stores
  notifies := notifies
  retired := retired
  version := fun _ _ i _ => Nat.le_of_eq (step.version_eq i).symm
  contents := fun _ _ _ _ _ _ _ lower _ => step.slot_eq (Nat.le_of_add_right_le lower)
  still := by
    intro same
    obtain ⟨unchanged, unretired⟩ := still same
    exact ⟨unchanged, unretired, fun _ _ i _ _ => step.version_eq i⟩
  rotates := fun _ _ i _ moved => absurd (step.version_eq i) moved

/-- `latest` and the slots are as before, so the last publish still is what it was. -/
theorem published (valid : x.Valid g) (history : y.history = x.history)
    (latest : y.memory.word32 Offset.latest = x.memory.word32 Offset.latest) :
    y.Published g := by
  have published := valid.published
  have current : y.current g = x.current g := by rw [current, history, Image.current]
  unfold Published at published ⊢
  rw [history, latest]
  cases last : x.history.getLast? with
  | none =>
      rw [last] at published
      exact published
  | some publish =>
      rw [last] at published
      simp only [current, step.seq_eq]
      exact ⟨published.1, step.holds published.2⟩

end HeaderStep

theorem HeaderStep.write {offset : Nat} {value : UInt32} {stores notifies : Nat}
    {history : List Publish} (lower : Offset.state ≤ offset) (upper : offset + 4 ≤ 128) :
    HeaderStep x { x with
      memory := x.memory.write offset (Memory.bytes32 value)
      stores, notifies, history } := by
  refine ⟨rfl, rfl, rfl, fun address outside => ?_⟩
  exact Memory.write_apply_outside (by rw [Memory.bytes32_length]; omega)

theorem Valid.storePid {address : Nat} {byte : UInt8} (valid : x.Valid g)
    (lower : Offset.writerPid ≤ address) (upper : address < 128) :
    Valid { x with memory := Function.update x.memory address byte } g ∧
      x.Evolves { x with memory := Function.update x.memory address byte } := by
  simp only [Offset.writerPid] at lower
  have word : ∀ offset, offset + 4 ≤ 48 →
      Memory.word32 (Function.update x.memory address byte) offset = x.memory.word32 offset :=
    fun offset room => Memory.word32_congr (Memory.read_congr
      (fun _ _ _ => Function.update_of_ne (by omega) _ _))
  have step : HeaderStep x { x with memory := Function.update x.memory address byte } := by
    refine ⟨rfl, rfl, rfl, fun other outside => ?_⟩
    simp only [Offset.state] at outside
    exact Function.update_of_ne (by omega) _ _
  have retired : Retired { x with memory := Function.update x.memory address byte } ↔
      x.Retired := by
    unfold Retired
    rw [word _ (by decide)]
  refine ⟨step.valid valid valid.settled (step.published valid rfl (word _ (by decide)))
    valid.sane ?_, ?_⟩
  · rw [word _ (by decide)]
    exact valid.notified
  · exact step.evolves (List.prefix_refl _) (Nat.le_refl _) (Nat.le_refl _) retired.mpr
      (fun _ => ⟨rfl, retired.mp⟩)

theorem Valid.retire (valid : x.Valid g) :
    let y := { x with
      memory := x.memory.write Offset.state
        (Memory.bytes32 (x.memory.word32 Offset.state ||| psmiStateRetired))
      stores := x.stores + 1 }
    y.Valid g ∧ x.Evolves y ∧ y.Retired := by
  intro y
  have step : HeaderStep x y := HeaderStep.write (by decide) (by decide)
  have word : ∀ offset, 40 ≤ offset → y.memory.word32 offset = x.memory.word32 offset :=
    fun offset lower => Memory.word32_write_outside
      (by rw [Memory.bytes32_length]; simp only [Offset.state]; omega)
  have retired : y.Retired := by
    change (x.memory.write Offset.state _).word32 Offset.state &&& psmiStateRetired ≠ 0
    rw [Memory.word32_write]
    exact lowBit_or_ne_zero _
  refine ⟨step.valid valid valid.settled (step.published valid rfl (word _ (by decide)))
    valid.sane ?_, ?_, retired⟩
  · rw [word _ (by decide)]
    exact valid.notified
  · refine step.evolves (List.prefix_refl _) (Nat.le_succ _) (Nat.le_refl _) (fun _ => retired) ?_
    intro same
    exact absurd same (Nat.succ_ne_self _)

theorem Valid.notify (valid : x.Valid g) :
    let y := { x with
      memory := x.memory.write Offset.notify
        (Memory.bytes32 (x.memory.word32 Offset.notify + 1))
      notifies := x.notifies + 1 }
    y.Valid g ∧ x.Evolves y ∧ (y.Retired ↔ x.Retired) := by
  intro y
  have step : HeaderStep x y := HeaderStep.write (by decide) (by decide)
  have word : ∀ offset, offset + 4 ≤ 44 → y.memory.word32 offset = x.memory.word32 offset :=
    fun offset upper => Memory.word32_write_outside (by simp only [Offset.notify]; omega)
  have retired : y.Retired ↔ x.Retired := by
    unfold Retired
    rw [word _ (by decide)]
  refine ⟨step.valid valid valid.settled (step.published valid rfl (word _ (by decide)))
    valid.sane ?_, ?_, retired⟩
  · change ((x.memory.write Offset.notify _).word32 Offset.notify).toNat = _
    have count := valid.notified
    rw [Memory.word32_write, UInt32.toNat_add]
    change (_ + 1) % 2 ^ 32 = (x.notifies + 1) % 2 ^ 32
    omega
  · exact step.evolves (List.prefix_refl _) (Nat.le_refl _) (Nat.le_succ _) retired.mpr
      (fun _ => ⟨rfl, retired.mp⟩)

theorem Valid.publish {publish : Publish} (valid : x.Valid g)
    (even : (x.seq g (x.next g)).toNat % 2 = 0)
    (holds : Holds x.memory (g.slot (x.next g)) publish)
    (fits : publish.length ≤ g.capacity) (named : publish.generation ≠ 0) :
    let y := { x with
      memory := x.memory.write Offset.latest
        (Memory.bytes32 (psmiLatest (UInt32.ofNat (x.next g)) (x.seq g (x.next g))))
      stores := x.stores + 1
      history := x.history ++ [publish] }
    y.Valid g ∧ x.Evolves y ∧ (y.Retired ↔ x.Retired) := by
  intro y
  have step : HeaderStep x y := HeaderStep.write (by decide) (by decide)
  have word : ∀ offset, offset + 4 ≤ 40 ∨ 44 ≤ offset →
      y.memory.word32 offset = x.memory.word32 offset :=
    fun offset apart => Memory.word32_write_outside
      (by rw [Memory.bytes32_length]; simp only [Offset.latest]; omega)
  have retired : y.Retired ↔ x.Retired := by
    unfold Retired
    rw [word _ (by decide)]
  have current : y.current g = x.next g := by
    change ((x.history ++ [publish]).length - 1) % g.count = _
    rw [List.length_append, List.length_singleton, Nat.add_sub_cancel, next]
  refine ⟨step.valid valid ?_ ?_ ?_ ?_, ?_, retired⟩
  · intro i inside _
    by_cases written : i = x.next g
    · rw [written]
      exact even
    · exact valid.settled i inside written
  · have newest : y.history.getLast? = some publish := List.getLast?_concat
    unfold Published
    rw [newest]
    simp only [current, step.seq_eq]
    exact ⟨Memory.word32_write _, step.holds holds⟩
  · intro other member
    rcases List.mem_append.mp member with older | newest
    · exact valid.sane other older
    · rw [List.mem_singleton.mp newest]
      exact ⟨fits, named⟩
  · rw [word _ (by decide)]
    exact valid.notified
  · refine step.evolves (List.prefix_append _ _) (Nat.le_succ _) (Nat.le_refl _) retired.mpr ?_
    intro same
    exact absurd same (Nat.succ_ne_self _)

end Image

end PsMsgr
