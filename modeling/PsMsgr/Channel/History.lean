import PsMsgr.Channel.Invariant

namespace PsMsgr

variable {file : FileId} {publishes more : List Publish} {index : Nat}

theorem lastIndex_eq_none_iff :
    lastIndex file publishes = none ↔ ∀ publish ∈ publishes, publish.file ≠ file := by
  induction publishes with
  | nil => simp [lastIndex]
  | cons publish publishes ih =>
      rw [lastIndex]
      cases found : lastIndex file publishes with
      | some later =>
          rw [found] at ih
          simp only [reduceCtorEq, false_iff] at ih ⊢
          intro absent
          exact ih (fun other member => absent other (List.mem_cons_of_mem _ member))
      | none =>
          rw [found] at ih
          have rest := ih.mp rfl
          simp only [ite_eq_right_iff, reduceCtorEq, List.mem_cons, forall_eq_or_imp]
          exact ⟨fun absent => ⟨absent, rest⟩, fun absent => absent.1⟩

theorem lastIndex_eq_some_iff :
    lastIndex file publishes = some index ↔
      (∃ publish, publishes[index]? = some publish ∧ publish.file = file) ∧
      ∀ later publish, index < later → publishes[later]? = some publish →
        publish.file ≠ file := by
  induction publishes generalizing index with
  | nil => simp [lastIndex]
  | cons head publishes ih =>
      rw [lastIndex]
      cases found : lastIndex file publishes with
      | some last =>
          obtain ⟨⟨publish, here, named⟩, rest⟩ := ih.mp found
          constructor
          · intro same
            obtain rfl := Option.some.inj same
            refine ⟨⟨publish, here, named⟩, fun later other after there => ?_⟩
            obtain ⟨before, rfl⟩ : ∃ before, later = before + 1 := ⟨later - 1, by omega⟩
            exact rest before other (by omega) there
          · rintro ⟨⟨other, there, sameFile⟩, none⟩
            cases index with
            | zero => exact absurd named (none (last + 1) publish (by omega) here)
            | succ before =>
                have behind : last ≤ before := by
                  by_cases beyond : before < last
                  · exact absurd named (none (last + 1) publish (by omega) here)
                  · omega
                have ahead : ¬ last < before := fun beyond => rest before other beyond there sameFile
                rw [show before = last by omega]
      | none =>
          have absent := lastIndex_eq_none_iff.mp found
          by_cases first : head.file = file
          · simp only [first, if_true, Option.some.injEq]
            constructor
            · rintro rfl
              refine ⟨⟨head, rfl, first⟩, fun later other after there => ?_⟩
              obtain ⟨before, rfl⟩ : ∃ before, later = before + 1 := ⟨later - 1, by omega⟩
              exact absent other (List.mem_of_getElem? there)
            · rintro ⟨⟨other, there, sameFile⟩, -⟩
              cases index with
              | zero => rfl
              | succ before => exact absurd sameFile (absent other (List.mem_of_getElem? there))
          · simp only [first, if_false, reduceCtorEq, false_iff]
            rintro ⟨⟨other, there, sameFile⟩, -⟩
            cases index with
            | zero =>
                obtain rfl := Option.some.inj there
                exact first sameFile
            | succ before => exact absent other (List.mem_of_getElem? there) sameFile

theorem getLast?_history :
    (publishes.filter (fun publish => publish.file = file)).getLast? =
      (lastIndex file publishes).bind (fun index => publishes[index]?) := by
  induction publishes with
  | nil => rfl
  | cons head publishes ih =>
      rw [lastIndex]
      cases found : lastIndex file publishes with
      | some last =>
          obtain ⟨⟨publish, here, named⟩, -⟩ := lastIndex_eq_some_iff.mp found
          rw [found] at ih
          simp only [Option.bind_some, here] at ih
          simp only [Option.bind_some, List.getElem?_cons_succ, here, List.filter_cons]
          split
          · rw [List.getLast?_cons, ih]
            rfl
          · exact ih
      | none =>
          have absent := lastIndex_eq_none_iff.mp found
          have empty : publishes.filter (fun publish => publish.file = file) = [] := by
            rw [List.filter_eq_nil_iff]
            intro publish member
            simpa using absent publish member
          by_cases first : head.file = file
          · simp [first, empty]
          · simp [first, empty]

/-- The publish most recently stored in the `latest` of a file, and its place among all. -/
structure Disk.Latest (disk : Disk) (file : FileId) (index : Nat) (publish : Publish) : Prop where
  last : lastIndex file disk.publishes = some index
  here : disk.publishes[index]? = some publish

theorem Disk.Latest.getLast?_history {disk : Disk} {publish : Publish}
    (latest : disk.Latest file index publish) :
    (disk.image file).history.getLast? = some publish := by
  rw [Disk.image, PsMsgr.getLast?_history, latest.last, Option.bind_some, latest.here]

theorem lastIndex_lt (found : lastIndex file publishes = some index) :
    index < publishes.length := by
  obtain ⟨⟨publish, here, -⟩, -⟩ := lastIndex_eq_some_iff.mp found
  exact (List.getElem?_eq_some_iff.mp here).1

theorem getElem?_of_grows {publish : Publish} (grows : publishes <+: more)
    (here : publishes[index]? = some publish) : more[index]? = some publish := by
  obtain ⟨rest, rfl⟩ := grows
  have inside := (List.getElem?_eq_some_iff.mp here).1
  rw [List.getElem?_append_left inside]
  exact here

theorem lastIndex_ge {publish : Publish} (here : publishes[index]? = some publish)
    (named : publish.file = file) :
    ∃ last, lastIndex file publishes = some last ∧ index ≤ last := by
  cases found : lastIndex file publishes with
  | none => exact absurd named (lastIndex_eq_none_iff.mp found publish (List.mem_of_getElem? here))
  | some last =>
      refine ⟨last, rfl, ?_⟩
      by_cases beyond : last < index
      · exact absurd named ((lastIndex_eq_some_iff.mp found).2 index publish beyond here)
      · omega

theorem lastIndex_mono (grows : publishes <+: more) (found : lastIndex file publishes = some index) :
    ∃ later, lastIndex file more = some later ∧ index ≤ later := by
  obtain ⟨⟨publish, here, named⟩, -⟩ := lastIndex_eq_some_iff.mp found
  exact lastIndex_ge (getElem?_of_grows grows here) named

theorem ordered_getElem? {earlier later : Nat} {first second : Publish}
    (ordered : publishes.Pairwise (fun earlier later => earlier.file ≤ later.file))
    (before : earlier < later) (here : publishes[earlier]? = some first)
    (there : publishes[later]? = some second) : first.file ≤ second.file := by
  obtain ⟨inside, rfl⟩ := List.getElem?_eq_some_iff.mp here
  obtain ⟨inside', rfl⟩ := List.getElem?_eq_some_iff.mp there
  exact List.pairwise_iff_getElem.mp ordered earlier later inside inside' before

/-- Publishes are ordered like their files: the last publish of a file comes after
every publish of an older file. -/
theorem lastIndex_after {publish : Publish} {last : Nat}
    (ordered : publishes.Pairwise (fun earlier later => earlier.file ≤ later.file))
    (here : publishes[index]? = some publish) (older : publish.file ≤ file)
    (found : lastIndex file publishes = some last) : index ≤ last := by
  obtain ⟨⟨other, there, named⟩, rest⟩ := lastIndex_eq_some_iff.mp found
  by_cases beyond : last < index
  · have newer := ordered_getElem? ordered beyond there here
    rw [named] at newer
    exact absurd (Nat.le_antisymm older newer) (rest index publish beyond here)
  · omega

theorem lastIndex_newest (ordered : publishes.Pairwise (fun earlier later => earlier.file ≤ later.file))
    (newest : ∀ publish ∈ publishes, publish.file ≤ file)
    (found : lastIndex file publishes = some index) : index + 1 = publishes.length := by
  have inside := lastIndex_lt found
  by_cases last : index + 1 = publishes.length
  · exact last
  · have here : publishes[index + 1]? = some (publishes.get ⟨index + 1, by omega⟩) :=
      List.getElem?_eq_getElem (by omega)
    have after := lastIndex_after ordered here (newest _ (List.mem_of_getElem? here)) found
    omega

/-- What a session knows about the history when it publishes next: `gen` continues its own
last publish or, before its first, the value it found. -/
structure Session (writer : Tid) (found : Option Nat) (gen : UInt32)
    (publishes : List Publish) : Prop where
  nonzero : gen ≠ 0
  follows : ∀ {last : Publish}, publishes.getLast? = some last →
    last.writer = writer ∨ found = some (publishes.length - 1) →
    gen = nextGeneration last.generation
  last : ∀ {index : Nat} {publish : Publish}, publishes[index]? = some publish →
    publish.writer = writer → ∃ last, publishes.getLast? = some last ∧ last.writer = writer
  basis : (∀ publish ∈ publishes, publish.writer ≠ writer) → ∀ {index}, found = some index →
    index + 1 = publishes.length

theorem Session.chained {publish : Publish} (session : Session publish.writer publish.basis
    publish.generation publishes) (chained : Chained publishes) :
    Chained (publishes ++ [publish]) := by
  have split : ∀ {position other}, (publishes ++ [publish])[position]? = some other →
      publishes[position]? = some other ∨ (position = publishes.length ∧ other = publish) := by
    intro position other here
    by_cases inside : position < publishes.length
    · rw [List.getElem?_append_left inside] at here
      exact .inl here
    · rw [List.getElem?_append_right (by omega)] at here
      have bound := (List.getElem?_eq_some_iff.mp here).1
      rw [List.length_singleton] at bound
      exact .inr ⟨by omega, List.mem_singleton.mp (List.mem_of_getElem? here)⟩
  have within : ∀ {position other}, publishes[position]? = some other →
      position < publishes.length :=
    fun here => (List.getElem?_eq_some_iff.mp here).1
  constructor
  · intro position before after here there related
    rcases split there with older | ⟨newest, rfl⟩
    · have inside := within older
      rcases split here with here | ⟨beyond, -⟩
      · exact chained.follows here older related
      · omega
    · rcases split here with here | ⟨beyond, -⟩
      · have last : publishes.getLast? = some before := by
          rw [List.getLast?_eq_getElem?, ← newest]
          exact here
        refine session.follows last ?_
        rw [← newest]
        exact related
      · omega
  · intro first position before after order started here there
    obtain ⟨start, began, same⟩ := started
    have early : publishes[first]? = some start := by
      rcases split began with older | ⟨beyond, -⟩
      · exact older
      · rcases split there with older | ⟨newest, -⟩
        · have inside := within older
          omega
        · omega
    rcases split there with older | ⟨newest, rfl⟩
    · rcases split here with here | ⟨beyond, -⟩
      · exact chained.session order ⟨start, early, same⟩ here older
      · have inside := within older
        omega
    · rcases split here with here | ⟨beyond, -⟩
      · obtain ⟨last, final, own⟩ := session.last early same
        rw [List.getLast?_eq_getElem?, ← newest] at final
        change publishes[position]? = some last at final
        rw [here, Option.some.injEq] at final
        rw [final]
        exact own
      · omega
  · intro position other found here based first
    rcases split here with older | ⟨newest, rfl⟩
    · refine chained.basis older based (fun earlier another before there => ?_)
      exact first earlier another before (getElem?_of_grows (List.prefix_append _ _) there)
    · rw [newest]
      refine session.basis ?_ based
      intro another member
      obtain ⟨earlier, there⟩ := List.getElem?_of_mem member
      have inside := within there
      exact first earlier another (by omega)
        (getElem?_of_grows (List.prefix_append _ _) there)

theorem Session.next (publishes : List Publish) (publish : Publish) :
    Session publish.writer publish.basis (nextGeneration publish.generation)
      (publishes ++ [publish]) where
  nonzero := nextGeneration_ne_zero _
  follows := by
    intro last final _
    rw [List.getLast?_concat, Option.some.injEq] at final
    rw [final]
  last := fun _ _ => ⟨publish, List.getLast?_concat, rfl⟩
  basis := fun absent => absurd rfl (absent publish (by simp))

theorem DiskInv.latest_eq_none {disk : Disk} {file : FileId} (inv : DiskInv disk)
    (here : disk.installed file = true) :
    (disk.memory file).word32 Offset.latest = psmiLatestNone ↔
      lastIndex file disk.publishes = none := by
  obtain ⟨g, valid⟩ := inv.valid here
  have published := valid.published
  have last : (disk.image file).history.getLast? = _ := getLast?_history
  unfold Image.Published at published
  rw [last] at published
  cases found : lastIndex file disk.publishes with
  | none =>
      rw [found] at published
      exact iff_of_true published rfl
  | some index =>
      obtain ⟨⟨publish, present, -⟩, -⟩ := lastIndex_eq_some_iff.mp found
      rw [found, Option.bind_some, present] at published
      refine iff_of_false (fun empty => ?_) nofun
      have below := Image.current_lt (x := disk.image file) (g := g)
      have bound : (UInt32.ofNat ((disk.image file).current g)).toNat < 16 := by
        rw [slotIndex_toNat below]
        exact Nat.lt_of_lt_of_le below g.le_sixteen
      exact psmiLatest_ne_none _ bound (published.1.symm.trans empty)

end PsMsgr
