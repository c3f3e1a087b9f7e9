import PsMsgr.Channel.Vacancy
import PsMsgr.Properties.Retries

namespace PsMsgr

open Effect Data

namespace Execution

variable {execution : Execution} {thread : Tid} {r r' : Reader} {file : FileId} {first last : Nat}
  {size : UInt32} {copy : Bool}

/-- A file found at the data path and seen retired later has been displaced in between. -/
theorem empty_of_retired {opened : Nat} (named : (execution.world opened).disk.data = some file)
    (ordered : opened ≤ last) (gone : (execution.world last).disk.Retired file) :
    ∃ instant, opened ≤ instant ∧ instant ≤ last ∧ (execution.world instant).disk.Empty := by
  refine empty_of_changed ordered ?_
  rw [named]
  intro still
  exact ((execution.inv last).disk.data still).2.1 gone

theorem of_retired {gone : Bool}
    (executes : execution.Executes thread (retired file) first gone last) :
    gone = true ↔ (execution.world first).disk.Retired file := by
  obtain ⟨state, index, loads, executes⟩ := executes.of_bind
  cases executes.of_done.1
  rw [bne_iff_ne, of_load loads]
  rfl

end Execution

theorem Request.Reads.asks {request : Request} (reads : request.Reads) :
    ∃ buffer size copy, request.asks = some (buffer, size, copy) := by
  cases request with
  | read buffer size => exact ⟨_, _, _, rfl⟩
  | peek => exact ⟨_, _, _, rfl⟩
  | _ => exact reads.elim

theorem readHeader_always (fd : FileId) :
    (readHeader fd).Always (fun _ => True) (fun outcome => outcome.1 ≠ .nodata) := by
  unfold readHeader
  refine Program.Always.bind (Program.Always.perform trivial) fun reply _ => ?_
  split
  · exact nofun
  split
  · exact nofun
  refine Program.Always.bind (Program.Always.perform trivial) fun reply _ => ?_
  split
  · exact nofun
  split
  · exact nofun
  · exact nofun

theorem recheck_always (r : Reader) (map : FileId) (s : Nat) (q1 : UInt32) (m : SlotCopy)
    (buffer : List UInt8) (size : UInt32) (copy : Bool) :
    (recheck r map s q1 m buffer size copy).Always (fun _ => True) (fun turn =>
      ∀ code info buffer, turn = .result code info buffer → code ≠ .nodata) := by
  refine Program.Always.bind (Program.Always.perform trivial) fun q2 _ => ?_
  dsimp only
  split
  · split
    · rintro code info buffer ⟨⟩
      exact nofun
    · rintro code info buffer ⟨⟩
      split <;> exact nofun
  · exact nofun

namespace Execution

variable {execution : Execution} {thread : Tid} {r r' : Reader} {file : FileId} {first last : Nat}
  {size : UInt32} {copy : Bool}

theorem of_attach {rc : Code} (executes : execution.Executes thread (attach r) first (rc, r') last) :
    (rc = .nodata → (execution.world first).disk.data = none) ∧
    (rc = .ok → ∃ file, r'.file = some file ∧ (execution.world first).disk.data = some file) := by
  obtain ⟨reply, index, opens, executes⟩ := executes.of_bind
  have executed := opens.of_perform.1
  cases reply with
  | error err =>
      cases err with
      | enoent =>
          cases executes.of_done.1
          rcases executed with ⟨_, -, failed, -⟩ | ⟨absent, -⟩ | ⟨failed, -⟩
          · exact nomatch failed
          · exact ⟨fun _ => absent, nofun⟩
          · exact nomatch failed
      | _ =>
          cases executes.of_done.1
          exact ⟨nofun, nofun⟩
  | ok fd =>
      have named : (execution.world first).disk.data = some fd := by
        rcases executed with ⟨_, named, same, -⟩ | ⟨-, failed, -⟩ | ⟨failed, -⟩
        · cases same
          exact named
        · exact nomatch failed
        · exact nomatch failed
      obtain ⟨⟨code, bytes, h⟩, _, reads, executes⟩ := executes.of_bind
      have present := reads.always (readHeader_always fd)
      dsimp only at executes
      split at executes
      · next failed =>
          obtain ⟨_, _, -, executes⟩ := executes.of_bind
          cases executes.of_done.1
          exact ⟨fun absent => absurd absent present, fun ok => absurd ok failed⟩
      split at executes
      · obtain ⟨_, _, -, executes⟩ := executes.of_bind
        cases executes.of_done.1
        exact ⟨nofun, nofun⟩
      obtain ⟨mapped, _, -, executes⟩ := executes.of_bind
      cases mapped with
      | error err =>
          obtain ⟨_, _, -, executes⟩ := executes.of_bind
          cases executes.of_done.1
          exact ⟨nofun, nofun⟩
      | ok _ =>
          obtain ⟨_, _, -, executes⟩ := executes.of_bind
          cases executes.of_done.1
          exact ⟨nofun, fun _ => ⟨fd, rfl, named⟩⟩

/-- An instant at which there was no value. -/
def Vacant (execution : Execution) (first last : Nat) : Prop :=
  ∃ instant, first ≤ instant ∧ instant ≤ last ∧ (execution.world instant).disk.Empty

theorem Vacant.widen {start finish : Nat} (vacant : execution.Vacant start finish)
    (lower : first ≤ start) (upper : finish ≤ last) : execution.Vacant first last := by
  obtain ⟨instant, after, before, empty⟩ := vacant
  exact ⟨instant, Nat.le_trans lower after, Nat.le_trans before upper, empty⟩

/-- The attach loop runs out of turns, or finds nothing, only if there was no value: each file it
found was displaced before it was seen retired. -/
theorem of_attachLoop {rc : Code} {tries : Nat}
    (executes : execution.Executes thread (attachLoop r (tries + 1)) first (rc, r') last) :
    (rc = .nodata → execution.Vacant first last) ∧
    (rc = .ok → execution.Vacant first last ∨ ∃ file opened checked, r'.file = some file ∧
      first ≤ opened ∧ opened ≤ checked ∧ checked ≤ last ∧
      (execution.world opened).disk.data = some file ∧
      ¬(execution.world checked).disk.Retired file) := by
  rw [attachLoop] at executes
  obtain ⟨⟨code, found⟩, index, attaches, executes⟩ := executes.of_bind
  obtain ⟨absent, present⟩ := of_attach attaches
  have lower := attaches.ordered
  dsimp only at executes
  split at executes
  · next map named =>
      obtain ⟨file, same, opened⟩ := present rfl
      obtain rfl : map = file := Option.some.inj (named.symm.trans same)
      obtain ⟨gone, checked, checks, executes⟩ := executes.of_bind
      have between := checks.ordered
      have upper := executes.ordered
      cases gone with
      | false =>
          cases executes.of_done.1
          refine ⟨by simp, fun _ => .inr ⟨map, first, index, same, Nat.le_refl _, lower, by omega,
            opened, fun retired => ?_⟩⟩
          cases (of_retired checks).mpr retired
      | true =>
          have vacant : execution.Vacant first last :=
            Vacant.widen (empty_of_retired opened lower ((of_retired checks).mp rfl))
              (Nat.le_refl _) (by omega)
          exact ⟨fun _ => vacant, fun _ => .inl vacant⟩
  · next missed =>
      obtain ⟨same, rfl⟩ := executes.of_done
      cases same
      refine ⟨fun none => ⟨first, Nat.le_refl _, lower, fun file named => ?_⟩, fun ok => ?_⟩
      · cases (absent none).symm.trans named
      · obtain ⟨file, same, -⟩ := present ok
        exact (missed file ok same).elim

/-- A file the reader is attached to and which was not retired at `checked`: it was at the data
path then, or there was no value, or its replacement was never completed. -/
theorem current_or_vacant {checked : Nat} (installed : (execution.world checked).disk.installed file)
    (active : ¬(execution.world checked).disk.Retired file) :
    (execution.world checked).disk.data = some file ∨ execution.Vacant checked checked ∨
      (execution.world checked).disk.abandoned file = true := by
  by_cases named : (execution.world checked).disk.data = some file
  · exact .inl named
  rcases execution.empty_of_displaced installed named active with empty | abandoned
  · exact .inr (.inl ⟨checked, Nat.le_refl _, Nat.le_refl _, empty⟩)
  · exact .inr (.inr abandoned)

/-- What a reader in step has seen: the file it is attached to was at the data path. -/
theorem of_readerSync {rc : Code} {since : Disk}
    (following : Following thread r since (execution.world first))
    (executes : execution.Executes thread (readerSync r) first (rc, r') last) :
    (rc = .nodata → execution.Vacant first last) ∧
    (rc = .ok → execution.Vacant first last ∨ ∃ file checked, r'.file = some file ∧
      first ≤ checked ∧ checked ≤ last ∧
      ((execution.world checked).disk.data = some file ∨
        (execution.world checked).disk.abandoned file = true)) := by
  -- the attach loop, from wherever it begins
  have loop {start : Nat} {r : Reader} (lower : first ≤ start)
      (executes : execution.Executes thread (attachLoop r attachRetries) start (rc, r') last) :
      (rc = .nodata → execution.Vacant first last) ∧
      (rc = .ok → execution.Vacant first last ∨ ∃ file checked, r'.file = some file ∧
        first ≤ checked ∧ checked ≤ last ∧
        ((execution.world checked).disk.data = some file ∨
          (execution.world checked).disk.abandoned file = true)) := by
    obtain ⟨absent, present⟩ := of_attachLoop executes
    refine ⟨fun none => (absent none).widen lower (Nat.le_refl _), fun ok => ?_⟩
    rcases present ok with vacant | ⟨file, opened, checked, named, after, between, before, here, -⟩
    · exact .inl (vacant.widen lower (Nat.le_refl _))
    · exact .inr ⟨file, opened, named, by omega, by omega, .inl here⟩
  unfold readerSync at executes
  split at executes
  · next map attached =>
      obtain ⟨gone, index, checks, executes⟩ := executes.of_bind
      have lower := checks.ordered
      cases gone with
      | false =>
          obtain ⟨same, rfl⟩ := executes.of_done
          cases same
          have installed := (following.attached attached).1.installed
          have active : ¬(execution.world first).disk.Retired map := fun retired =>
            nomatch (of_retired checks).mpr retired
          refine ⟨nofun, fun _ => ?_⟩
          rcases current_or_vacant installed active with named | vacant | abandoned
          · exact .inr ⟨map, first, attached, Nat.le_refl _, lower, .inl named⟩
          · exact .inl (vacant.widen (Nat.le_refl _) lower)
          · exact .inr ⟨map, first, attached, Nat.le_refl _, lower, .inr abandoned⟩
      | true =>
          obtain ⟨_, start, detaches, executes⟩ := executes.of_bind
          exact loop (Nat.le_trans lower detaches.ordered) executes
  · exact loop (Nat.le_refl _) executes

theorem of_readAttempt_nodata {buffer left : List UInt8} {info : Option Info}
    (installed : (execution.world first).disk.installed file = true)
    (executes : execution.Executes thread (readAttempt r file buffer size copy) first
      (.result .nodata info left) last) :
    ((execution.world first).disk.image file).history = [] := by
  obtain ⟨latest, index, loaded, remaining⟩ := executes.of_bind
  have value : latest = ((execution.world first).disk.image file).memory.word32 Offset.latest :=
    of_load loaded
  split at remaining
  · next none =>
      obtain ⟨g, valid⟩ := (execution.inv first).disk.valid installed
      have published := valid.published
      unfold Image.Published at published
      cases shown : ((execution.world first).disk.image file).history.getLast? with
      | none => exact List.getLast?_eq_none_iff.mp shown
      | some publish =>
          rw [shown] at published
          have small := slotIndex_toNat
            (Image.current_lt (x := (execution.world first).disk.image file) (g := g))
          have below := Image.current_lt (x := (execution.world first).disk.image file) (g := g)
          refine absurd (published.1.symm.trans (value.symm.trans none)) (psmiLatest_ne_none _ ?_)
          rw [small]
          exact Nat.lt_of_lt_of_le below g.le_sixteen
  split at remaining
  · exact nomatch remaining.of_done.1
  obtain ⟨q1, _, -, remaining⟩ := remaining.of_bind
  split at remaining
  · obtain ⟨bytes, _, -, remaining⟩ := remaining.of_bind
    dsimp only at remaining
    split at remaining
    · obtain ⟨payload, _, -, remaining⟩ := remaining.of_bind
      exact (remaining.always (recheck_always _ _ _ _ _ _ _ _) _ _ _ rfl rfl).elim
    · exact (remaining.always (recheck_always _ _ _ _ _ _ _ _) _ _ _ rfl rfl).elim
  · exact nomatch remaining.of_done.1

theorem of_readLoop_nodata {buffer left : List UInt8} {info : Option Info} {tries : Nat}
    (installed : (execution.world first).disk.installed file = true)
    (executes : execution.Executes thread (readLoop r file size copy tries buffer) first
      (.nodata, info, left) last) :
    ∃ instant, first ≤ instant ∧ instant ≤ last ∧
      ((execution.world instant).disk.image file).history = [] := by
  induction tries generalizing buffer first with
  | zero => exact nomatch executes.of_done.1
  | succ tries ih =>
      rw [readLoop] at executes
      obtain ⟨turn, index, attempt, remaining⟩ := executes.of_bind
      have after := attempt.ordered
      have before := remaining.ordered
      cases turn with
      | result code found bytes =>
          cases remaining.of_done.1
          exact ⟨first, Nat.le_refl _, by omega, of_readAttempt_nodata installed attempt⟩
      | again bytes =>
          have again {start : Nat} (later : index ≤ start)
              (rest : execution.Executes thread (readLoop r file size copy tries bytes) start
                (.nodata, info, left) last) :
              ∃ instant, first ≤ instant ∧ instant ≤ last ∧
                ((execution.world instant).disk.image file).history = [] := by
            have grown : (execution.world first).disk.Evolves (execution.world start).disk :=
              Execution.evolves (Nat.le_trans after later)
            obtain ⟨instant, lower, upper, empty⟩ := ih (grown.installed installed) rest
            exact ⟨instant, by omega, upper, empty⟩
          dsimp only at remaining
          split at remaining
          · obtain ⟨_, start, yielded, rest⟩ := remaining.of_bind
            exact again yielded.ordered rest
          · exact again (Nat.le_refl _) remaining

/-- The parts of a read or peek: the reader gets in step, and then looks for a value in the file
it is attached to. -/
structure Reading (execution : Execution) (thread : Tid) (r r' : Reader) (reply : ReadReply)
    (buffer : List UInt8) (size : UInt32) (copy : Bool) (first last : Nat) (code : Code)
    (synced : Reader) (start index : Nat) : Prop where
  lower : first ≤ start
  upper : index ≤ last
  following : Following thread r (execution.world first).disk (execution.world start)
  syncs : execution.Executes thread (readerSync r) start (code, synced) index
  outcome : (reply.code = code ∧ r' = synced ∧ ∀ file, code = .ok → synced.file ≠ some file) ∨
    (code = .ok ∧ ∃ file info finish, finish ≤ last ∧ synced.file = some file ∧
      r'.file = some file ∧ execution.Executes thread
        (readLoop synced file size copy readRetries buffer) index
        (reply.code, info, reply.buffer) finish)

theorem reading {request : Request} {reply : ReadReply} {buffer : List UInt8}
    (call : execution.Called thread (.reader r) request (.reader r', .read reply) first last)
    (asks : request.asks = some (buffer, size, copy)) :
    reply.code = .inval ∨ ∃ code synced start index,
      Reading execution thread r r' reply buffer size copy first last code synced start index := by
  obtain ⟨begins, ends, rests, bounded, executes⟩ := call.executes
  have following := rested rests Following.stable (owns_first call)
  have lower := rests.1
  cases request with
  | read given asked =>
      cases asks
      obtain ⟨⟨answer, later⟩, _, reads, finished⟩ := executes.of_bind
      obtain ⟨same, rfl⟩ := finished.of_done
      cases same
      unfold psmsgrStateRead at reads
      split at reads
      · cases reads.of_done.1
        exact .inl rfl
      obtain ⟨⟨code, synced⟩, index, sync, found⟩ := reads.of_bind
      have passed := found.ordered
      refine .inr ⟨code, synced, begins, index, lower, by omega, following, sync, ?_⟩
      dsimp only at found
      split at found
      · next file named =>
          obtain ⟨info, attached, -, -, looped⟩ :=
            of_found (fun code => (code = .ok || code = .toosmall) = true) named found
          exact .inr ⟨rfl, file, info, _, bounded, named, attached, looped⟩
      · next unattached =>
          cases found.of_done.1
          exact .inl ⟨rfl, rfl, unattached⟩
  | peek =>
      cases asks
      obtain ⟨⟨answer, later⟩, _, reads, finished⟩ := executes.of_bind
      obtain ⟨same, rfl⟩ := finished.of_done
      cases same
      obtain ⟨⟨code, synced⟩, index, sync, found⟩ := reads.of_bind
      have passed := found.ordered
      refine .inr ⟨code, synced, begins, index, lower, by omega, following, sync, ?_⟩
      dsimp only at found
      split at found
      · next file named =>
          obtain ⟨info, attached, -, -, looped⟩ := of_found (· = .ok) named found
          exact .inr ⟨rfl, file, info, _, bounded, named, attached, looped⟩
      · next unattached =>
          cases found.of_done.1
          exact .inl ⟨rfl, rfl, unattached⟩
  | _ => exact nomatch asks

theorem vacant_of_bare {instant : Nat} (ordered : first ≤ instant)
    (named : (execution.world first).disk.data = some file)
    (bare : ((execution.world instant).disk.image file).history = []) :
    execution.Vacant first instant := by
  by_cases still : (execution.world instant).disk.data = some file
  · refine ⟨instant, ordered, Nat.le_refl _, fun other here publish published same => ?_⟩
    obtain rfl : file = other := Option.some.inj (still.symm.trans here)
    have inside : publish ∈ ((execution.world instant).disk.image file).history :=
      List.mem_filter.mpr ⟨published, by simpa using same⟩
    rw [bare] at inside
    exact nomatch inside
  · exact empty_of_changed ordered (by rw [named]; exact still)

theorem Reading.vacant {reply : ReadReply} {buffer : List UInt8} {code : Code} {synced : Reader}
    {start index : Nat}
    (reading : Reading execution thread r r' reply buffer size copy first last code synced start
      index) (absent : reply.code = .nodata) :
    execution.Vacant first last ∨ ∃ file, r'.file = some file ∧
      (execution.world last).disk.abandoned file = true := by
  obtain ⟨none, present⟩ := of_readerSync reading.following reading.syncs
  have lower := reading.lower
  have upper := reading.upper
  rcases reading.outcome with ⟨same, -, -⟩ | ⟨ok, file, info, finish, bounded, named, attached, looks⟩
  · exact .inl ((none (same.symm.trans absent)).widen lower upper)
  rcases present ok with vacant | ⟨other, checked, here, after, before, current | abandoned⟩
  · exact .inl (vacant.widen lower upper)
  · obtain rfl : file = other := Option.some.inj (named.symm.trans here)
    have grown : (execution.world checked).disk.Evolves (execution.world index).disk :=
      Execution.evolves before
    have installed := grown.installed ((execution.inv checked).disk.data current).1
    rw [absent] at looks
    obtain ⟨instant, later, earlier, bare⟩ := of_readLoop_nodata installed looks
    exact .inl ((vacant_of_bare (by omega) current bare).widen (by omega) (by omega))
  · obtain rfl : file = other := Option.some.inj (named.symm.trans here)
    have grown : (execution.world checked).disk.Evolves (execution.world last).disk :=
      Execution.evolves (Nat.le_trans before upper)
    exact .inr ⟨file, attached, grown.abandoned abandoned⟩

end Execution

/-- A read, peek or describe that reports `NODATA` is right at an instant of the call: the data
path named nothing then, or a file in which nothing had been published.  The one exception is a
reader that is still attached to a file whose replacement was never completed, because the process
that displaced it went without retiring it. -/
theorem nodata_at_instant (execution : Execution) :
    (∀ {thread r r' request reply first last},
      execution.Called thread (.reader r) request (.reader r', .read reply) first last →
      request.Reads → reply.code = .nodata →
      (∃ instant, first ≤ instant ∧ instant ≤ last ∧ (execution.world instant).disk.Empty) ∨
        ∃ file, r'.file = some file ∧ (execution.world last).disk.abandoned file = true) ∧
    ∀ {thread r r' desc first last},
      execution.Called thread (.reader r) .describe (.reader r', .described .nodata desc) first
        last →
      ∃ instant, first ≤ instant ∧ instant ≤ last ∧ (execution.world instant).disk.Empty := by
  refine ⟨fun {thread r r' request reply first last} call reads absent => ?_,
    fun {thread r r' desc first last} call => ?_⟩
  · obtain ⟨buffer, size, copy, asks⟩ := reads.asks
    rcases Execution.reading call asks with invalid | ⟨code, synced, start, index, reading⟩
    · exact nomatch absent.symm.trans invalid
    · exact reading.vacant absent
  · obtain ⟨begins, ends, rests, bounded, executes⟩ := call.executes
    have following := Execution.rested rests Following.stable (Execution.owns_first call)
    obtain ⟨⟨code, answer, later⟩, _, describes, finished⟩ := executes.of_bind
    obtain ⟨same, rfl⟩ := finished.of_done
    cases same
    obtain ⟨⟨rc, synced⟩, index, sync, found⟩ := describes.of_bind
    have passed := found.ordered
    have lower := rests.1
    dsimp only at found
    split at found
    · cases found.of_done.1
      exact ((Execution.of_readerSync following sync).1 rfl).widen lower (by omega)
    · exact nomatch found.of_done.1

end PsMsgr
