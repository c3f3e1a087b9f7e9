import PsMsgr.Still.Creating

namespace PsMsgr

open Effect Data

/-- Publishes, one after the other. -/
def publishAll (w : Writer) : List (Option (List UInt8) × UInt32) →
    Prog (List (Code × Option UInt32))
  | [] => return []
  | (data, len) :: values => do
      let (code, gen, w) ← psmsgrStatePublish w data len
      let results ← publishAll w values
      return (code, gen) :: results

/-- The value a caller gives to a publish: `len` bytes of those at `data`. -/
structure Publishable (capacity : UInt32) (data : Option (List UInt8)) (len : UInt32) : Prop where
  given : data = none → len = 0
  enough : ∀ {bytes}, data = some bytes → len.toNat ≤ bytes.length
  fits : len ≤ capacity

theorem Publishable.of_bytes {capacity len : UInt32} {bytes : List UInt8}
    (enough : len.toNat ≤ bytes.length) (fits : len ≤ capacity) :
    Publishable capacity (some bytes) len where
  given := fun absent => absurd absent (Option.some_ne_none bytes)
  enough := by
    rintro _ ⟨⟩
    exact enough
  fits := fits

theorem Publishable.length {capacity len : UInt32} {data : Option (List UInt8)}
    (value : Publishable capacity data len) :
    ((data.getD []).take len.toNat).length = len.toNat := by
  rw [List.length_take]
  cases data with
  | none =>
      rw [value.given rfl]
      rfl
  | some bytes => exact Nat.min_eq_left (value.enough rfl)

/-- The slot `latest` names is complete and holds the value. -/
def Disk.Offers (disk : Disk) (file : FileId) (gen len : UInt32) (bytes : List UInt8) : Prop :=
  ∃ g i publish, Shape (disk.memory file) g ∧ i.toNat < g.count ∧
    Current (disk.memory file) g.slotStride i publish ∧
    publish.generation = gen ∧ publish.length = len ∧ len ≤ g.capacity ∧ publish.payload = bytes

section

variable {thread : Tid} {world : World} {w : Writer} {data : Option (List UInt8)} {len : UInt32}

theorem evenSeq_lowBit (seq : UInt32) : ((seq &&& ~~~1) + 2) &&& 1 = 0 := by
  have bound := seq.toNat_lt
  rw [lowBit_eq_zero_iff, UInt32.toNat_add, clearLowBit_toNat]
  change (seq.toNat / 2 * 2 + 2) % 2 ^ 32 % 2 = 0
  omega

/-- Whatever the slots hold, the next publish makes one of them readable. -/
theorem Fitted.publish (fitted : Fitted w world) (value : Publishable w.capacity data len) :
    (psmsgrStatePublish w data len).Must (execGranted thread)
      (fun returned after => ∃ next, returned = (.ok, some w.gen, next) ∧
        next.capacity = w.capacity ∧ Fitted next after ∧
        after.disk.Offers next.file w.gen len ((data.getD []).take len.toNat)) world := by
  obtain ⟨g, shape, seated⟩ := fitted.shape
  refine (ends_psmsgrStatePublish (expects_granted thread) (.refl world w.file) value.given
    fitted.closed value.fits).mono ?_
  rintro returned after ⟨timestamp, rfl, wrote⟩
  have above := g.slot_ge w.target
  have kept : ∀ address < Offset.latest,
      publishedMemory w ((data.getD []).take len.toNat) len timestamp (world.disk.memory w.file)
        address = world.disk.memory w.file address := by
    intro address below
    refine publishedMemory_apply seated (.inl ?_) (.inl below)
    simp only [Offset.latest] at below
    omega
  have inside := seated.target_lt
  have target : (slotAfter w.latest w.slotCount).toNat = w.target := rfl
  have next : ∀ {g : Geometry}, Seated w g →
      Seated (w.published (world.disk.memory w.file)) g := by
    intro g seated
    exact ⟨seated.slotCount, seated.slotStride, seated.capacity, .inr seated.target_lt⟩
  refine ⟨_, rfl, rfl, fitted.wrote wrote kept rfl next rfl (nextGeneration_ne_zero _), ?_⟩
  obtain ⟨latest, seq, generation, length, stamp, payload⟩ :=
    @publishedMemory_slot w g (world.disk.memory w.file) _ len timestamp seated value.length
  have place : slotOffset g.slotStride (slotAfter w.latest w.slotCount) = g.slot w.target := by
    rw [← seated.slotStride]
    exact seated.writerSlot_eq
  refine ⟨g, slotAfter w.latest w.slotCount,
    ⟨w.file, thread, none, w.gen, len, timestamp, (data.getD []).take len.toNat⟩, ?_, inside, ?_,
    rfl, rfl, ?_, rfl⟩
  · change Shape (after.disk.memory w.file) g
    rw [wrote.memory_eq]
    exact shape.congr (fun address below => kept address (Nat.lt_trans below (by decide)))
  · change Current (after.disk.memory w.file) _ _ _
    rw [wrote.memory_eq]
    refine ⟨?_, ?_, ?_⟩
    · rw [place, seq]
      exact evenSeq_lowBit _
    · rw [place, seq, latest]
    · rw [place]
      exact ⟨generation, length, stamp, payload⟩
  · rw [← seated.capacity]
    exact value.fits

theorem Fitted.sync (fitted : Fitted w world) :
    (readerSync Reader.unattached).eval world.disk.answer =
      some (.ok, Reader.attachedTo w.file (Header.ofMemory (world.disk.memory w.file))) := by
  rw [eval_readerSync_stale (fun {file} attached => nomatch (show none = some file from attached))]
  exact (eval_attachLoop _ fitted.data fitted.active 1).trans (by rw [if_pos fitted.accepted])

/-- The reader has the geometry of the writer's file. -/
structure Reader.Matches (r : Reader) (w : Writer) : Prop where
  slotCount : r.slotCount = w.slotCount
  slotStride : r.slotStride = w.slotStride
  capacity : r.capacity = w.capacity

theorem Reader.Matches.published {r : Reader} (reader : r.Matches w) (memory : Memory) :
    r.Matches (w.published memory) :=
  ⟨reader.slotCount, reader.slotStride, reader.capacity⟩

theorem Fitted.attached (fitted : Fitted w world) :
    (Reader.attachedTo w.file (Header.ofMemory (world.disk.memory w.file))).Matches w := by
  obtain ⟨g, shape, seated⟩ := fitted.shape
  exact ⟨shape.slotCount.trans seated.slotCount.symm, shape.slotStride.trans seated.slotStride.symm,
    shape.capacity.trans seated.capacity.symm⟩

theorem Fitted.current {r : Reader} {gen : UInt32} {bytes : List UInt8} (fitted : Fitted w world)
    (offers : world.disk.Offers w.file gen len bytes) (reader : r.Matches w) :
    ∃ i publish, Current (world.disk.memory w.file) r.slotStride i publish ∧ i.toNat < 16 ∧
      i < r.slotCount ∧ publish.length ≤ r.capacity ∧ publish.generation = gen ∧
      publish.length = len ∧ publish.payload = bytes := by
  obtain ⟨g, i, publish, shape, inside, current, generation, rfl, fits, payload⟩ := offers
  obtain ⟨g', shape', seated⟩ := fitted.shape
  obtain rfl := shape.unique shape'
  rw [reader.slotCount, reader.slotStride, reader.capacity, seated.slotCount, seated.slotStride,
    seated.capacity]
  exact ⟨i, publish, current, Nat.lt_of_lt_of_le inside g.le_sixteen,
    UInt32.lt_iff_toNat_lt.mpr inside, fits, generation, rfl, payload⟩

theorem Fitted.reply {r : Reader} {gen : UInt32} {bytes : List UInt8} (fitted : Fitted w world)
    (offers : world.disk.Offers w.file gen len bytes) (reader : r.Matches w)
    (buffer : List UInt8) (size : UInt32) :
    let reply := (stillReply (world.disk.memory w.file) r buffer size true).1
    reply.code = (if len ≤ size then .ok else .toosmall) ∧
    (∃ info, reply.info = some info ∧ info.generation = gen ∧ info.length = len) ∧
    reply.buffer = if len ≤ size then bytes ++ buffer.drop len.toNat else buffer := by
  obtain ⟨i, publish, current, bound, inside, fits, rfl, rfl, rfl⟩ := fitted.current offers reader
  have attempt := stillAttempt_current current bound inside fits buffer size true
  unfold stillReply stillLatest
  rw [attempt]
  unfold shownAttempt announce
  by_cases large : publish.length ≤ size
  · cases r.announce <;> simp [large]
  · cases r.announce <;> simp [large]

theorem Fitted.read {reader : Tid} {gen : UInt32} {bytes : List UInt8}
    {buffer : Option (List UInt8)} {size : UInt32} (fitted : Fitted w world)
    (offers : world.disk.Offers w.file gen len bytes) (whole : bytes.length = len.toNat)
    (given : buffer = none → size = 0) (large : len ≤ size) :
    (psmsgrStateRead Reader.unattached buffer size).Must (execGranted reader)
      (fun returned _ => returned.1.code = .ok ∧
        (∃ info, returned.1.info = some info ∧ info.generation = gen ∧ info.length = len) ∧
        returned.1.buffer.take len.toNat = bytes) world := by
  refine (ends_of_answer (eval_psmsgrStateRead given fitted.sync rfl) ⟨rfl, rfl⟩).mono ?_
  rintro returned after ⟨rfl, -⟩
  obtain ⟨code, info, copied⟩ := fitted.reply offers fitted.attached (buffer.getD []) size
  rw [if_pos large] at code copied
  refine ⟨code, info, ?_⟩
  rw [copied, ← whole, List.take_left]

theorem Fitted.publishAll {values : List (Option (List UInt8) × UInt32)} (fitted : Fitted w world)
    (publishable : ∀ value ∈ values, Publishable w.capacity value.1 value.2) :
    (publishAll w values).Must (execGranted thread)
      (fun results after =>
        (∀ result ∈ results, ∃ gen, gen ≠ 0 ∧ result = (.ok, some gen)) ∧
        ∀ {data len}, values.getLast? = some (data, len) →
          ∃ gen final, results.getLast? = some (.ok, some gen) ∧ Fitted final after ∧
            after.disk.Offers final.file gen len ((data.getD []).take len.toNat)) world := by
  induction values generalizing w world with
  | nil => exact ⟨nofun, fun last => nomatch last⟩
  | cons value values ih =>
      obtain ⟨data, len⟩ := value
      have first := publishable (data, len) List.mem_cons_self
      refine (fitted.publish first).bind ?_
      rintro returned after ⟨next, rfl, capacity, fits, offers⟩
      cases values with
      | nil =>
          refine ⟨?_, fun {_ _} last => ?_⟩
          · rintro result (_ | ⟨_, ⟨⟩⟩)
            exact ⟨w.gen, fitted.gen, rfl⟩
          · cases last
            exact ⟨w.gen, next, rfl, fits, offers⟩
      | cons second values =>
          have others : ∀ value ∈ second :: values, Publishable next.capacity value.1 value.2 := by
            rw [capacity]
            exact fun value member => publishable value (List.mem_cons_of_mem _ member)
          refine (ih fits others).bind ?_
          rintro results final ⟨good, last⟩
          refine ⟨?_, fun {data len} ended => ?_⟩
          · rintro result (_ | ⟨_, member⟩)
            · exact ⟨w.gen, fitted.gen, rfl⟩
            · exact good result member
          · obtain ⟨gen, writer, lastResult, fits, offers⟩ := last ended
            refine ⟨gen, writer, ?_, fits, offers⟩
            rw [List.getLast?_cons, lastResult]
            rfl

theorem ends_psmsgrStateReaderOpen
    {expected : (request : Sys) → World → request.Reply → World → Prop}
    (expects : Expects thread expected) (environment name dir : Option (List Char))
    (world : World) :
    (psmsgrStateReaderOpen environment name dir).Ends False expected
      (fun opened after => after = world ∧ ∀ {r}, opened = .ok r → r = Reader.unattached)
      world := by
  unfold psmsgrStateReaderOpen
  split
  · exact ⟨rfl, nofun⟩
  refine (ends_passive expects .malloc trivial world).bind ?_
  rintro enough after rfl
  split
  · exact ⟨rfl, nofun⟩
  refine (ends_pathsInit expects _ _ _ after).bind ?_
  rintro paths later rfl
  split
  · exact ⟨rfl, nofun⟩
  · exact ⟨rfl, fun {_} opened => (Except.ok.inj opened).symm⟩

end

end PsMsgr
