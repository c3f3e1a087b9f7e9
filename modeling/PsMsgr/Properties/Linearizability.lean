import PsMsgr.Still.Turns

namespace PsMsgr

open Effect

namespace Execution

variable {execution : Execution} {first last : Nat} {thread : Tid}

/-- A publish not older than the last one at `first` was the last one in its file at some
instant from there on. -/
theorem latest_at {index : Nat} {publish : Publish} (ordered : first ≤ last)
    (here : (execution.world last).disk.publishes[index]? = some publish)
    (recent : ∀ {earlier}, lastIndex publish.file (execution.world first).disk.publishes =
      some earlier → earlier ≤ index) :
    ∃ instant, first ≤ instant ∧ instant ≤ last ∧
      lastIndex publish.file (execution.world instant).disk.publishes = some index ∧
      (execution.world instant).disk.publishes[index]? = some publish := by
  have inside := (List.getElem?_eq_some_iff.mp here).1
  -- what has been published at an instant is what the end of the call knows of it
  have present : ∀ {instant}, instant ≤ last →
      index < (execution.world instant).disk.publishes.length →
      (execution.world instant).disk.publishes[index]? = some publish := by
    intro instant upper long
    rw [List.getElem?_eq_getElem long]
    have grown := getElem?_of_grows (Execution.evolves upper).publishes
      (List.getElem?_eq_getElem long)
    rw [here] at grown
    exact grown.symm
  by_cases old : index < (execution.world first).disk.publishes.length
  · have known := present ordered old
    obtain ⟨newest, found, later⟩ := lastIndex_ge known rfl
    refine ⟨first, Nat.le_refl _, ordered, ?_, known⟩
    rw [found, Nat.le_antisymm (recent found) later]
  · have shorter : (execution.world first).disk.publishes.length ≤ index + 1 := by omega
    obtain ⟨instant, lower, upper, length⟩ := Execution.reaches ordered shorter inside
    have known := present upper (by omega)
    obtain ⟨newest, found, later⟩ := lastIndex_ge known rfl
    have short := lastIndex_lt found
    refine ⟨instant, lower, upper, ?_, known⟩
    rw [found, Nat.le_antisymm (by omega) later]

end Execution

def Request.Reads : Request → Prop
  | .read _ _ | .peek => True
  | _ => False

/-- The reply reports the publish, and a read that succeeds has its payload. -/
structure Reports (request : Request) (reply : ReadReply) (publish : Publish) : Prop where
  info : ∃ info, reply.info = some info ∧ Shows publish info
  payload : request ≠ .peek → reply.code = .ok →
    reply.buffer.take publish.length.toNat = publish.payload

/-- The length and the bytes a call of a writer is to publish. -/
def Request.offer (w : Writer) (since : World) : Request → Option (UInt32 × List UInt8)
  | .publish data len => some (len, (data.getD []).take len.toNat)
  | .commit len => some (len,
      (since.disk.memory w.file).read (writerSlot w w.openSlot + Offset.payload) len.toNat)
  | _ => none

/-- What a call of an open writer adds to the history. -/
structure Adds (thread : Tid) (w : Writer) (request : Request) (result : Result)
    (since world : World) : Prop where
  /-- A successful publish or commit is one publish, of what it was to publish. -/
  published : ∀ {gen}, result = .published .ok gen → ∃ publish,
    world.disk.publishes = since.disk.publishes ++ [publish] ∧
    publish.file = w.file ∧ publish.writer = thread ∧ gen = some publish.generation ∧
    request.offer w since = some (publish.length, publish.payload)
  /-- Any other call is none. -/
  unpublished : (∀ gen, result ≠ .published .ok gen) →
    world.disk.publishes = since.disk.publishes

namespace Execution

variable {execution : Execution} {first last : Nat} {thread : Tid}

/-- What is known of the value a read returns. -/
theorem read_value {r r' : Reader} {request : Request} {reply : ReadReply}
    (call : execution.Called thread (.reader r) request (.reader r', .read reply) first last)
    (reads : request.Reads) (read : reply.code = .ok ∨ reply.code = .toosmall) :
    ∃ copy file info index publish, (request ≠ .peek → copy = true) ∧ r'.file = some file ∧
      Value thread (execution.world first).disk copy reply info file index publish
        (execution.world last) := by
  have achieved := Execution.achieved call
  cases request with
  | read buffer size =>
      obtain ⟨_, _, same, -, value⟩ := achieved
      cases same
      obtain ⟨file, info, index, publish, attached, value⟩ := value read
      exact ⟨true, file, info, index, publish, fun _ => rfl, attached, value⟩
  | peek =>
      obtain ⟨_, _, same, -, value⟩ := achieved
      cases same
      obtain ⟨file, info, index, publish, attached, value⟩ := value read
      exact ⟨false, file, info, index, publish, fun copies => absurd rfl copies, attached, value⟩
  | _ => exact reads.elim

end Execution

theorem Value.reports {thread : Tid} {since : Disk} {copy : Bool} {request : Request}
    {reply : ReadReply} {info : Info} {file : FileId} {index : Nat} {publish : Publish}
    {world : World} (value : Value thread since copy reply info file index publish world)
    (copies : request ≠ .peek → copy = true) (unwrapped : (world.log thread).wrapped = false) :
    Reports request reply publish :=
  ⟨⟨info, value.returned, value.shows unwrapped⟩,
    fun whole ok => value.payload unwrapped (copies whole) ok⟩

namespace Execution

variable {execution : Execution} {first last : Nat} {thread : Tid}

/-- A read that returns a value returns the one `latest` named at an instant of the call. -/
theorem read_latest {r r' : Reader} {request : Request} {reply : ReadReply}
    (call : execution.Called thread (.reader r) request (.reader r', .read reply) first last)
    (reads : request.Reads) (unwrapped : ((execution.world last).log thread).wrapped = false)
    (read : reply.code = .ok ∨ reply.code = .toosmall) :
    ∃ instant file index publish, first ≤ instant ∧ instant ≤ last ∧ r'.file = some file ∧
      (execution.world instant).disk.Latest file index publish ∧
      Reports request reply publish := by
  obtain ⟨copy, file, info, index, publish, copies, attached, value⟩ := read_value call reads read
  obtain rfl := value.named
  obtain ⟨instant, lower, upper, latest, here⟩ :=
    Execution.latest_at call.ordered value.here value.recent
  exact ⟨instant, _, index, publish, lower, upper, attached, ⟨latest, here⟩,
    value.reports copies unwrapped⟩

end Execution

theorem CommitOutcome.adds {thread : Tid} {w w' : Writer} {request : Request} {len : UInt32}
    {bytes : List UInt8} {payload : List UInt8 → Prop} {code : Code} {gen : Option UInt32}
    {since world : World} (offer : request.offer w since = some (len, bytes))
    (described : ∀ other, payload other → other = bytes)
    (outcome : Inside thread w.lockFd (CommitOutcome thread w since.disk.publishes len payload
      (code, gen, w')) world) :
    Adds thread w request (.published code gen) since world := by
  obtain ⟨-, -, ⟨ok, generation, stored, publish, carries, same, owned⟩ | ⟨failed, owned⟩⟩ :=
    outcome.holds
  · change code = .ok at ok
    subst ok
    refine ⟨fun {_} returned => ⟨publish, owned.publishes_eq, carries.file, carries.writer, ?_, ?_⟩,
      fun refused => absurd rfl (refused gen)⟩
    · cases returned
      rw [carries.generation]
      exact generation
    · rw [offer, carries.length, carries.payload, described stored same]
  · refine ⟨fun {_} returned => ?_, fun _ => owned.publishes_eq⟩
    cases returned
    exact absurd rfl failed

namespace Execution

variable {execution : Execution} {first last : Nat} {thread : Tid}

theorem writer_adds {w w' : Writer} {request : Request} {result : Result}
    (call : execution.Called thread (.writer w) request (.writer w', result) first last) :
    Adds thread w request result (execution.world first) (execution.world last) := by
  have achieved := Execution.achieved call
  have accepted := call.accepted
  have silent : (∃ code, result = .code code) ∧ (execution.world last).disk.publishes =
      (execution.world first).disk.publishes →
      Adds thread w request result (execution.world first) (execution.world last) := by
    rintro ⟨⟨code, rfl⟩, same⟩
    exact ⟨nofun, fun _ => same⟩
  cases request with
  | publish data len =>
      obtain ⟨code, gen, _, same, outcome⟩ := achieved
      cases same
      exact CommitOutcome.adds rfl (fun _ => id) outcome
  | commit len =>
      obtain ⟨code, gen, _, same, outcome⟩ := achieved
      cases same
      exact CommitOutcome.adds rfl (fun _ => Eq.symm) outcome
  | begin => exact silent achieved
  | storeBuffer index byte => exact silent achieved
  | abort => exact silent achieved
  | writerClose => exact nomatch achieved
  | _ => exact accepted.elim

end Execution

/-- Every read or peek that returns a value reports the publish that was the latest of its
file at an instant of the call, as long as no slot is committed 2^27 times within one attempt
to read it; and the publishes are what the calls that publish successfully were given. -/
theorem linearizable (execution : Execution) :
    (∀ {thread r r' request reply first last},
      execution.Called thread (.reader r) request (.reader r', .read reply) first last →
      request.Reads → ((execution.world last).log thread).wrapped = false →
      reply.code = .ok ∨ reply.code = .toosmall →
      ∃ instant file index publish, first ≤ instant ∧ instant ≤ last ∧ r'.file = some file ∧
        (execution.world instant).disk.Latest file index publish ∧
        Reports request reply publish) ∧
    (∀ {thread w w' request result first last},
      execution.Called thread (.writer w) request (.writer w', result) first last →
      Adds thread w request result (execution.world first) (execution.world last)) :=
  ⟨Execution.read_latest, Execution.writer_adds⟩

/-- The second thread reads one byte, which has the generation. -/
structure Execution.ReadsByte (execution : Execution) (byte : UInt8) (generation : UInt32)
    (r r' : Reader) (reply : ReadReply) (first last : Nat) : Prop where
  call : execution.Called 1 (.reader r) (.read (some [0]) 1) (.reader r', .read reply) first last
  code : reply.code = .ok
  buffer : reply.buffer = [byte]
  generation : reply.info.map (·.generation) = some generation
  length : reply.info.map (·.length) = some 1
  disk : (execution.world last).disk = (execution.world first).disk

/-- Where a byte is offered, a reader that finds its file reads it, and stays attached. -/
theorem Execution.serve_read (execution : Execution) {index : Nat} {system : System processes}
    {w : Writer} {byte : UInt8} {generation : UInt32} {r synced : Reader}
    (reached : execution.systems index = system)
    (idle : system.threads 1 = .idle (Handle.reader r)) (fitted : Fitted w system.state)
    (offers : system.state.disk.Offers w.file generation 1 [byte])
    (sync : (readerSync r).eval system.state.disk.answer = some (.ok, synced))
    (attached : synced.file = some w.file) (same : synced.Matches w) :
    ∃ (further : Execution) (r' : Reader) (reply : ReadReply) (first last later : Nat) (after : World),
      further.ReadsByte byte generation r r' reply first last ∧ r'.file = some w.file ∧
      r'.Matches w ∧ index < first ∧ last ≤ later ∧ further.world first = system.state ∧
      further.world last = after ∧ further.systems later = system.set 1 after (.idle (.reader r')) ∧
      (∀ earlier ≤ index, further.systems earlier = execution.systems earlier) ∧
      ((∀ file offset, system.state.disk.commits file offset < 2 ^ 27) →
        (system.state.log 1).wrapped = false → (after.log 1).wrapped = false) := by
  obtain ⟨after, runs, disk, clear⟩ := @runs_read 1 system.state r synced w.file (some [0]) 1
    (fun absent => absurd absent (Option.some_ne_none _)) sync attached
  obtain ⟨code, ⟨info, shown, numbered, length⟩, buffer⟩ := fitted.reply offers same [0] 1
  obtain ⟨flag, announced⟩ := stillReply_reader (system.state.disk.memory w.file) synced [0] 1 true
  have accepted : (Handle.reader r).accepts (.read (some [0]) 1) :=
    fun _ given => by cases given; rfl
  obtain ⟨further, first, last, later, early, late, call, since, state, systems, kept⟩ :=
    Execution.serve execution reached runs idle accepted rfl
  refine ⟨further, _, _, first, last, later, after, ⟨call, code, buffer, ?_, ?_, ?_⟩, ?_, ?_, early,
    late, since, state, systems, kept, clear⟩
  · rw [Option.getD_some, shown, ← numbered]
    rfl
  · rw [Option.getD_some, shown, ← length]
    rfl
  · rw [state, since, disk]
  · rw [Option.getD_some, announced]
    exact attached
  · rw [Option.getD_some, announced]
    exact ⟨same.slotCount, same.slotStride, same.capacity⟩

theorem Execution.readsByte : ∃ (execution : Execution) (generation : UInt32) (r : Reader)
    (reply : ReadReply) (first last : Nat),
    execution.ReadsByte 7 generation Reader.unattached r reply first last ∧
      ((execution.world last).log 1).wrapped = false := by
  obtain ⟨w, generation, world, reached, shared⟩ := steps_shared
  obtain ⟨execution, index, here⟩ := Execution.reaching reached
  obtain ⟨further, r, reply, first, last, -, after, reads, -, -, -, -, -, state, -, -, unwrapped⟩ :=
    Execution.serve_read execution here System.set_thread shared.fitted shared.offers
      shared.fitted.sync rfl shared.fitted.attached
  refine ⟨further, generation, r, reply, first, last, reads, ?_⟩
  rw [state]
  exact unwrapped shared.commits (congrArg Log.wrapped shared.log)

theorem linearizable_readsByte : ∃ (execution : Execution) (generation : UInt32) (r : Reader)
    (reply : ReadReply) (first last : Nat),
    execution.ReadsByte 7 generation Reader.unattached r reply first last ∧
    ((execution.world last).log 1).wrapped = false ∧
    ∃ instant file index publish, first ≤ instant ∧ instant ≤ last ∧ r.file = some file ∧
      (execution.world instant).disk.Latest file index publish ∧
      Reports (.read (some [0]) 1) reply publish := by
  obtain ⟨execution, generation, r, reply, first, last, reads, unwrapped⟩ := Execution.readsByte
  exact ⟨execution, generation, r, reply, first, last, reads, unwrapped,
    (linearizable execution).1 reads.call trivial unwrapped (.inl reads.code)⟩

end PsMsgr
