import PsMsgr.Effect.Tracing
import PsMsgr.Properties.Linearizability
import PsMsgr.State.Looking

namespace PsMsgr

open Effect Data

/-- How many publishes were made in a file. -/
def Disk.published (disk : Disk) (file : FileId) : Nat := (disk.image file).history.length

namespace Image

variable {x y : Image} {g : Geometry}

/-- Before the published slot is written again, every other slot is published. -/
theorem Evolves.published_of_version (evolves : x.Evolves y) (shape : Shape x.memory g)
    (published : x.history ≠ []) (moved : y.version g (x.current g) ≠ x.version g (x.current g)) :
    x.history.length + (g.count - 1) ≤ y.history.length := by
  obtain ⟨count, lower, upper, named⟩ := evolves.rotates g shape _ current_lt moved
  have positive := List.length_pos_iff.mpr published
  have least := g.two_le
  have multiple : (count - (x.history.length - 1)) % g.count = 0 :=
    Nat.sub_mod_eq_zero_of_mod_eq named
  have far : g.count ≤ count - (x.history.length - 1) :=
    Nat.le_of_dvd (by omega) (Nat.dvd_of_mod_eq_zero multiple)
  omega

theorem Evolves.published_of_seq (evolves : x.Evolves y) (valid : x.Valid g) (valid' : y.Valid g)
    (published : x.history ≠ []) (moved : y.seq g (x.current g) ≠ x.seq g (x.current g)) :
    x.history.length + (g.count - 1) ≤ y.history.length :=
  evolves.published_of_version valid.shape published
    fun same => moved (seq_of_version valid valid' current_lt same)

end Image

namespace Execution

variable {execution : Execution} {thread : Tid} {r : Reader} {file : FileId} {first last : Nat}
  {size : UInt32} {copy : Bool}

theorem of_load {offset : Nat} {value : UInt32}
    (executes : execution.Executes thread (call (.load file offset)) first value last) :
    value = ((execution.world first).disk.memory file).word32 offset :=
  executes.of_perform.1.1

theorem published_mono (ordered : first ≤ last) :
    (execution.world first).disk.published file ≤ (execution.world last).disk.published file :=
  ((Execution.evolves ordered).publishes.filter _).length_le

theorem of_recheck_again {s : Nat} {q1 : UInt32} {m : SlotCopy} {buffer left : List UInt8}
    (executes : execution.Executes thread (recheck r file s q1 m buffer size copy) first
      (.again left) last) :
    ((execution.world first).disk.memory file).word32 s ≠ q1 := by
  obtain ⟨q2, index, loaded, remaining⟩ := executes.of_bind
  rw [← of_load loaded]
  intro same
  rw [if_pos same] at remaining
  split at remaining
  · exact nomatch remaining.of_done.1
  · exact nomatch remaining.of_done.1

/-- An attempt to read a file that has a value.  Either the counter it loads at `index` is not
the one that was published, or it copies the header of the slot and loads the counter again. -/
structure Attempted (execution : Execution) (thread : Tid) (r : Reader) (file : FileId)
    (buffer : List UInt8) (size : UInt32) (copy : Bool) (first : Nat) (turn : Attempt) (last : Nat)
    (g : Geometry) (publish : Publish) (index : Nat) : Prop where
  valid : ((execution.world first).disk.image file).Valid g
  shown : ((execution.world first).disk.image file).history.getLast? = some publish
  slotCount : r.slotCount = g.slotCount
  lower : first ≤ index
  upper : index ≤ last
  outcome : let slot := ((execution.world first).disk.image file).current g
    let seq := ((execution.world index).disk.image file).seq g slot
    (turn = .again buffer ∧ seq ≠ ((execution.world first).disk.image file).seq g slot) ∨
    ∃ start bytes middle final left, index ≤ start ∧ middle ≤ final ∧
      execution.Executes thread (loadBytes file (g.slot slot) Offset.reserved) start bytes middle ∧
      execution.Executes thread
        (recheck r file (g.slot slot) seq (SlotCopy.ofBytes bytes) left size copy) final turn last

theorem of_readAttempt {buffer : List UInt8} {turn : Attempt}
    (cached : Cached r file (execution.world first).disk)
    (executes : execution.Executes thread (readAttempt r file buffer size copy) first turn last) :
    turn = .result .nodata none buffer ∨ ∃ g publish index,
      Attempted execution thread r file buffer size copy first turn last g publish index := by
  obtain ⟨g, valid⟩ := (execution.inv first).disk.valid cached.installed
  have published := valid.published
  unfold Image.Published at published
  obtain ⟨latest, index, loaded, remaining⟩ := executes.of_bind
  have value : latest = ((execution.world first).disk.image file).memory.word32 Offset.latest :=
    of_load loaded
  rw [← value] at published
  cases shown : ((execution.world first).disk.image file).history.getLast? with
  | none =>
      rw [shown] at published
      rw [if_pos published] at remaining
      exact .inl remaining.of_done.1
  | some publish =>
      rw [shown] at published
      have named := published.1
      have small := slotIndex_toNat
        (Image.current_lt (x := (execution.world first).disk.image file) (g := g))
      have below := Image.current_lt (x := (execution.world first).disk.image file) (g := g)
      have bound : (UInt32.ofNat (((execution.world first).disk.image file).current g)).toNat <
          16 := by
        rw [small]
        exact Nat.lt_of_lt_of_le below g.le_sixteen
      have slotCount : r.slotCount = g.slotCount := cached.slotCount.trans valid.shape.slotCount
      have slotStride : r.slotStride = g.slotStride :=
        cached.slotStride.trans valid.shape.slotStride
      have accepted : psmiLatestValid latest r.slotCount = true := by
        rw [named, slotCount]
        exact psmiLatestValid_psmiLatest _ bound (by rw [small]; exact below)
      have slotName : psmiLatestSlot latest =
          UInt32.ofNat (((execution.world first).disk.image file).current g) := by
        rw [named, psmiLatestSlot_psmiLatest _ bound]
      have slot : slotOffset r.slotStride (psmiLatestSlot latest) =
          g.slot (((execution.world first).disk.image file).current g) := by
        rw [slotName, slotStride, g.slotOffset_eq_slot (by omega), small]
      have some : latest ≠ psmiLatestNone := by
        rw [named]
        exact psmiLatest_ne_none _ bound
      rw [if_neg some, accepted, if_neg (by decide)] at remaining
      dsimp only at remaining
      rw [slot, slotName] at remaining
      have after := loaded.ordered
      have before := remaining.ordered
      obtain ⟨q1, later, loaded, remaining⟩ := remaining.of_bind
      obtain rfl : q1 = ((execution.world index).disk.image file).seq g
          (((execution.world first).disk.image file).current g) := of_load loaded
      have started := loaded.ordered
      refine .inr ⟨g, publish, index, valid, shown, slotCount, after, before, ?_⟩
      split at remaining
      · obtain ⟨bytes, middle, copied, remaining⟩ := remaining.of_bind
        split at remaining
        · obtain ⟨payload, final, more, remaining⟩ := remaining.of_bind
          exact .inr ⟨later, bytes, middle, final, _, started, more.ordered, copied, remaining⟩
        · exact .inr ⟨later, bytes, middle, middle, _, started, Nat.le_refl _, copied, remaining⟩
      · next mismatch =>
          refine .inl ⟨remaining.of_done.1, fun same => mismatch ?_⟩
          rw [same, named]
          have nonempty : ((execution.world first).disk.image file).history ≠ [] := by
            intro empty
            simp [empty] at shown
          exact ⟨(lowBit_eq_zero_iff _).mpr (valid.current_even nonempty), rfl⟩

/-- A failed attempt has seen as many publishes as there are other slots. -/
theorem publishes_of_again {buffer left : List UInt8}
    (cached : Cached r file (execution.world first).disk)
    (executes : execution.Executes thread (readAttempt r file buffer size copy) first
      (.again left) last) :
    (execution.world first).disk.published file + (r.slotCount.toNat - 1) ≤
      (execution.world last).disk.published file := by
  rcases of_readAttempt cached executes with result | ⟨g, publish, index, attempted⟩
  · exact nomatch result
  have valid := attempted.valid
  have nonempty : ((execution.world first).disk.image file).history ≠ [] := by
    intro empty
    have shown := attempted.shown
    simp [empty] at shown
  -- a counter that is no longer the published one, seen at an instant of the attempt
  have moved {instant : Nat} (lower : first ≤ instant) (upper : instant ≤ last)
      (differs : ((execution.world instant).disk.image file).seq g
        (((execution.world first).disk.image file).current g) ≠
        ((execution.world first).disk.image file).seq g
        (((execution.world first).disk.image file).current g)) :
      (execution.world first).disk.published file + (r.slotCount.toNat - 1) ≤
        (execution.world last).disk.published file := by
    have grown : (execution.world first).disk.Evolves (execution.world instant).disk :=
      Execution.evolves lower
    have present := grown.installed cached.installed
    have evolves := grown.image cached.installed
    obtain ⟨g', valid'⟩ := (execution.inv instant).disk.valid present
    have counted := evolves.published_of_seq valid (evolves.geometry valid valid') nonempty differs
    rw [attempted.slotCount]
    exact Nat.le_trans counted (published_mono upper)
  rcases attempted.outcome with ⟨-, differs⟩ |
    ⟨start, bytes, middle, final, kept, after, before, copied, rechecked⟩
  · exact moved attempted.lower attempted.upper differs
  have differs := of_recheck_again rechecked
  have reached := rechecked.ordered
  have passed := copied.ordered
  have lower := attempted.lower
  by_cases same : ((execution.world index).disk.image file).seq g
      (((execution.world first).disk.image file).current g) =
      ((execution.world first).disk.image file).seq g
      (((execution.world first).disk.image file).current g)
  · have late : first ≤ final := by omega
    refine moved late reached ?_
    rw [← same]
    exact differs
  · exact moved lower attempted.upper same

theorem publishes_of_busy {buffer left : List UInt8} {info : Option Info} {tries : Nat}
    (cached : Cached r file (execution.world first).disk)
    (executes : execution.Executes thread (readLoop r file size copy tries buffer) first
      (.busy, info, left) last) :
    (execution.world first).disk.published file + tries * (r.slotCount.toNat - 1) ≤
      (execution.world last).disk.published file := by
  induction tries generalizing buffer first with
  | zero =>
      obtain ⟨-, rfl⟩ := executes.of_done
      omega
  | succ tries ih =>
      rw [readLoop] at executes
      obtain ⟨turn, index, attempt, remaining⟩ := executes.of_bind
      cases turn with
      | result code found bytes =>
          have looks : Looks (fun _ => True) file :=
            ⟨trivial, fun _ _ => trivial, fun _ => trivial, fun _ => trivial, trivial⟩
          have ended := attempt.always (looks.readAttempt buffer) code found bytes rfl
          obtain ⟨same, -⟩ := remaining.of_done
          cases same
          exact absurd rfl ended.retried
      | again bytes =>
          have counted := publishes_of_again cached attempt
          have again {start : Nat} (after : index ≤ start)
              (rest : execution.Executes thread (readLoop r file size copy tries bytes) start
                (.busy, info, left) last) :
              (execution.world first).disk.published file + (tries + 1) * (r.slotCount.toNat - 1) ≤
                (execution.world last).disk.published file := by
            have grown : (execution.world first).disk.Evolves (execution.world index).disk :=
              Execution.evolves attempt.ordered
            have grown' : (execution.world index).disk.Evolves (execution.world start).disk :=
              Execution.evolves after
            have further := ih (cached.evolve (grown.trans grown')) rest
            have between : (execution.world index).disk.published file ≤
                (execution.world start).disk.published file := published_mono after
            rw [Nat.succ_mul]
            omega
          dsimp only at remaining
          split at remaining
          · obtain ⟨_, start, yielded, rest⟩ := remaining.of_bind
            exact again yielded.ordered rest
          · exact again (Nat.le_refl _) remaining

theorem owns_first {handle : Handle} {request : Request} {returned : Handle × Result}
    (call : execution.Called thread handle request returned first last) :
    handle.Owns thread (execution.world first) := by
  obtain ⟨state, inv, owns, accepted, since⟩ :=
    sound_start.begun execution (fun _ => ⟨Handle.fresh, rfl⟩) call.started
  rw [world, since]
  exact (Handle.Owns.begin inv owns accepted).2

/-- The part of a read or peek that looks for a value: the reader is attached to the file and
knows its geometry. -/
structure Looked (execution : Execution) (thread : Tid) (r' : Reader) (reply : ReadReply)
    (buffer : List UInt8) (size : UInt32) (copy : Bool) (first last : Nat)
    (synced : Reader) (file : FileId) (info : Option Info) (start finish : Nat) : Prop where
  lower : first ≤ start
  upper : finish ≤ last
  attached : r'.file = some file
  slotCount : r'.slotCount = synced.slotCount
  length : reply.info.map (·.length) = info.map (·.length)
  cached : Cached synced file (execution.world start).disk
  executes : execution.Executes thread (readLoop synced file size copy readRetries buffer) start
    (reply.code, info, reply.buffer) finish

end Execution

/-- The buffer, its size and whether it is to be filled. -/
def Request.asks : Request → Option (List UInt8 × UInt32 × Bool)
  | .read buffer size => some (buffer.getD [], size, true)
  | .peek => some ([], 0, false)
  | _ => none

namespace Execution

variable {execution : Execution} {thread : Tid} {r : Reader} {first last : Nat}
  {size : UInt32} {copy : Bool}

theorem announce_same (r : Reader) (info : Option Info) :
    (announce r info).2.file = r.file ∧ (announce r info).2.slotCount = r.slotCount ∧
      (announce r info).1.map (·.length) = info.map (·.length) := by
  unfold announce
  split
  · exact ⟨rfl, rfl, by cases info <;> rfl⟩
  · exact ⟨rfl, rfl, rfl⟩

theorem of_found (announces : Code → Prop) [DecidablePred announces] {synced r' : Reader}
    {file : FileId} {buffer : List UInt8} {reply : ReadReply} {index final : Nat}
    (named : synced.file = some file)
    (executes : execution.Executes thread (do
      let found ← readLatest synced file buffer size copy
      if announces found.1 then
        return (⟨found.1, (announce synced found.2.1).1, found.2.2⟩, (announce synced found.2.1).2)
      else
        return (⟨found.1, found.2.1, found.2.2⟩, synced)) index (reply, r') final) :
    ∃ info, r'.file = some file ∧ r'.slotCount = synced.slotCount ∧
      reply.info.map (·.length) = info.map (·.length) ∧
      execution.Executes thread (readLoop synced file size copy readRetries buffer) index
        (reply.code, info, reply.buffer) final := by
  obtain ⟨⟨code, info, bytes⟩, _, found, finished⟩ := executes.of_bind
  obtain ⟨sameFile, sameCount, sameLength⟩ := announce_same synced info
  dsimp only at finished
  split at finished
  · obtain ⟨same, rfl⟩ := finished.of_done
    cases same
    exact ⟨info, sameFile.trans named, sameCount, sameLength, found⟩
  · obtain ⟨same, rfl⟩ := finished.of_done
    cases same
    exact ⟨info, named, rfl, rfl, found⟩

theorem looked {request : Request} {r' : Reader} {reply : ReadReply} {buffer : List UInt8}
    (call : execution.Called thread (.reader r) request (.reader r', .read reply) first last)
    (asks : request.asks = some (buffer, size, copy))
    (looks : reply.code = .busy ∨ reply.code = .toosmall) :
    ∃ synced file info start finish, Looked execution thread r' reply buffer size copy first last
      synced file info start finish := by
  obtain ⟨begins, ends, rests, bounded, executes⟩ := call.executes
  have following : Following thread r (execution.world first).disk (execution.world begins) :=
    Following.stable _ _ (owns_first call) (sound_start.rests execution rests)
      (execution.inv begins)
  have lower := rests.1
  have synchronised {index : Nat} {result : Code × Reader}
      (synced : execution.Executes thread (readerSync r) begins result index) :
      Synced thread (execution.world first).disk result (execution.world index) :=
    (sound_start.executes synced
      (triple_readerSync _ (execution.inv begins) following)).2
  have quits {code : Code} {found : Reader}
      (outcome : (code = .ok ∧ ∃ file, found.file = some file ∧
        Active (execution.world first).disk file) ∨ Unattached code)
      (unattached : ∀ file, code = .ok → found.file = some file → False) :
      ¬(code = .busy ∨ code = .toosmall) := by
    rcases outcome with ⟨ok, file, named, -⟩ | rfl | rfl
    · exact (unattached file ok named).elim
    · decide
    · decide
  cases request with
  | read given asked =>
      cases asks
      obtain ⟨⟨answer, later⟩, _, reads, finished⟩ := executes.of_bind
      obtain ⟨same, rfl⟩ := finished.of_done
      cases same
      unfold psmsgrStateRead at reads
      split at reads
      · cases reads.of_done.1
        exact absurd looks (by decide)
      obtain ⟨⟨rc, synced⟩, index, sync, found⟩ := reads.of_bind
      obtain ⟨following, outcome⟩ := synchronised sync
      have passed := sync.ordered
      dsimp only at found following outcome
      split at found
      · next file named =>
          obtain ⟨info, attached, slotCount, length, looped⟩ :=
            of_found (fun code => (code = .ok || code = .toosmall) = true) named found
          exact ⟨synced, file, info, index, _, by omega, bounded, attached, slotCount, length,
            (following.attached named).1, looped⟩
      · next unattached =>
          cases found.of_done.1
          exact absurd looks (quits outcome unattached)
  | peek =>
      cases asks
      obtain ⟨⟨answer, later⟩, _, reads, finished⟩ := executes.of_bind
      obtain ⟨same, rfl⟩ := finished.of_done
      cases same
      obtain ⟨⟨rc, synced⟩, index, sync, found⟩ := reads.of_bind
      obtain ⟨following, outcome⟩ := synchronised sync
      have passed := sync.ordered
      dsimp only at found following outcome
      split at found
      · next file named =>
          obtain ⟨info, attached, slotCount, length, looped⟩ :=
            of_found (· = .ok) named found
          exact ⟨synced, file, info, index, _, by omega, bounded, attached, slotCount, length,
            (following.attached named).1, looped⟩
      · next unattached =>
          cases found.of_done.1
          exact absurd looks (quits outcome unattached)
  | _ => exact nomatch asks

end Execution

/-- A reader knows the file it is attached to.  An attempt to read it fails only if at least as
many publishes as there are other slots were made in the file since it loaded `latest`; so a
read or peek gives up only if 64 times as many were made during the call. -/
theorem retry_bound (execution : Execution) :
    (∀ {thread r file index}, (execution.systems index).threads thread = .idle (Handle.reader r) →
      r.file = some file → Cached r file (execution.world index).disk) ∧
    (∀ {thread r file buffer size copy first left last},
      Cached r file (execution.world first).disk →
      execution.Executes thread (readAttempt r file buffer size copy) first (.again left) last →
      (execution.world first).disk.published file + (r.slotCount.toNat - 1) ≤
        (execution.world last).disk.published file) ∧
    ∀ {thread r r' request reply first last},
      execution.Called thread (.reader r) request (.reader r', .read reply) first last →
      request.Reads → reply.code = .busy → ∃ file, r'.file = some file ∧
        (execution.world first).disk.published file + 64 * (r'.slotCount.toNat - 1) ≤
          (execution.world last).disk.published file := by
  refine ⟨fun idle attached => ((execution.owns idle).attached attached).1,
    Execution.publishes_of_again, ?_⟩
  intro thread r r' request reply first last call reads busy
  obtain ⟨buffer, size, copy, asks⟩ : ∃ buffer size copy,
      request.asks = some (buffer, size, copy) := by
    cases request with
    | read buffer size => exact ⟨_, _, _, rfl⟩
    | peek => exact ⟨_, _, _, rfl⟩
    | _ => exact reads.elim
  obtain ⟨synced, file, info, start, finish, looked⟩ := Execution.looked call asks (.inl busy)
  have executes := looked.executes
  rw [busy] at executes
  have counted := Execution.publishes_of_busy looked.cached executes
  refine ⟨file, looked.attached, ?_⟩
  rw [looked.slotCount]
  have before : (execution.world first).disk.published file ≤
      (execution.world start).disk.published file := Execution.published_mono looked.lower
  have after : (execution.world finish).disk.published file ≤
      (execution.world last).disk.published file := Execution.published_mono looked.upper
  change _ + 64 * _ ≤ _ at counted
  omega

end PsMsgr
