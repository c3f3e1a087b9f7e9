import PsMsgr.Properties.Linearizability
import PsMsgr.Still.Pausing

namespace PsMsgr

open Effect Data

/-- What the thread reads, as far as it counts, are publishes in the order they were made in:
`returned` says which one, by the instant the call returns. -/
def Execution.InOrder (execution : Execution) (thread : Tid) (counts : World → Prop) : Prop :=
  ∃ returned : Nat → Nat, (∀ {earlier later}, earlier ≤ later → returned earlier ≤ returned later) ∧
    ∀ {r r' request reply first last},
      execution.Called thread (.reader r) request (.reader r', .read reply) first last →
      request.Reads → reply.code = .ok → counts (execution.world last) →
      ∃ instant publish,
        (execution.world instant).disk.publishes[returned last]? = some publish ∧
        Reports request reply publish

namespace Execution

variable {execution : Execution} {first last : Nat} {thread : Tid}

/-- Loads of `latest` never name an older publish than before. -/
theorem sampled_mono {index : Nat} (ordered : first ≤ last)
    (loaded : ((execution.world first).log thread).sampled = some index) :
    ∃ later, ((execution.world last).log thread).sampled = some later ∧ index ≤ later := by
  refine sound_start.along execution (fun before after => ∀ index,
    (before.log thread).sampled = some index →
    ∃ later, (after.log thread).sampled = some later ∧ index ≤ later) ?_ ?_ ?_ ordered index loaded
  · exact fun world index loaded => ⟨index, loaded, Nat.le_refl _⟩
  · intro first second third left right index loaded
    obtain ⟨middle, known, lower⟩ := left index loaded
    obtain ⟨later, found, upper⟩ := right middle known
    exact ⟨later, found, Nat.le_trans lower upper⟩
  · intro mover before after inv guarantee index loaded
    by_cases own : thread = mover
    · rw [own] at loaded ⊢
      exact Progress.sampled guarantee.step loaded
    · rw [Rely.log (guarantee.rely thread own)]
      exact ⟨index, loaded, Nat.le_refl _⟩

end Execution

/-- The values a reader returns follow each other in the order in which they were published, as
long as no slot is committed 2^27 times within one attempt to read it. -/
theorem reads_in_order (execution : Execution) (thread : Tid) :
    execution.InOrder thread (fun world => (world.log thread).wrapped = false) := by
  refine ⟨fun last => ((execution.world last).log thread).sampled.getD 0, ?_, ?_⟩
  · intro first last ordered
    dsimp only
    cases loaded : ((execution.world first).log thread).sampled with
    | none => exact Nat.zero_le _
    | some index =>
        obtain ⟨later, known, upper⟩ := Execution.sampled_mono ordered loaded
        rw [known]
        exact upper
  · intro r r' request reply first last call reads read unwrapped
    obtain ⟨_, _, _, index, publish, copies, -, value⟩ :=
      Execution.read_value call reads (.inl read)
    refine ⟨last, publish, ?_, value.reports copies unwrapped⟩
    dsimp only
    rw [value.sampled]
    exact value.here

theorem reads_in_order_readsByte : ∃ (execution : Execution) (generation : UInt32) (r : Reader)
    (reply : ReadReply) (first last : Nat),
    execution.ReadsByte 7 generation Reader.unattached r reply first last ∧
    ((execution.world last).log 1).wrapped = false ∧
    ∃ (returned : Nat → Nat) (instant : Nat) (publish : Publish),
      (∀ {earlier later}, earlier ≤ later → returned earlier ≤ returned later) ∧
      (execution.world instant).disk.publishes[returned last]? = some publish ∧
      Reports (.read (some [0]) 1) reply publish := by
  obtain ⟨execution, generation, r, reply, first, last, reads, unwrapped⟩ := Execution.readsByte
  obtain ⟨returned, ordered, reported⟩ := reads_in_order execution 1
  obtain ⟨instant, publish, here, reports⟩ :=
    reported reads.call trivial reads.code unwrapped
  exact ⟨execution, generation, r, reply, first, last, reads, unwrapped, returned, instant, publish,
    ordered, here, reports⟩

theorem announce_generation (r : Reader) (info : Option Info) :
    (announce r info).1.map (·.generation) = info.map (·.generation) := by
  unfold announce
  split
  · cases info <;> rfl
  · rfl

theorem adds_of_runs {system : System processes} {thread : Tid} {w w' : Writer} {request : Request}
    {result : Result} {after : World} (reached : Steps channel processes start system)
    (runs : ((Handle.writer w).program request).Runs (exec thread) system.state
      (.writer w', result) after)
    (idle : system.threads thread = .idle (Handle.writer w))
    (accepted : (Handle.writer w).accepts request)
    (noted : takeUp thread request system.state = system.state) :
    Adds thread w request result system.state after := by
  obtain ⟨execution, index, here⟩ := Execution.reaching reached
  obtain ⟨_, _, _, _, -, -, call, since, state, -⟩ :=
    Execution.serve execution here runs idle accepted noted
  rw [← since, ← state]
  exact Execution.writer_adds call

/-- The publishes are zeros of the first process. -/
def Zeros (file : FileId) (publishes : List Publish) : Prop :=
  ∀ publish ∈ publishes, publish.file = file ∧ publish.writer = 0 ∧ publish.payload = [0]

/-- The first process has a writer open on the file, in which `slot` has been committed as often as
`count` says, and has published nothing but zeros, `total` of them. -/
structure Steady (file : FileId) (g : Geometry) (slot count total : Nat) (system : System processes)
    (w : Writer) : Prop where
  reached : Steps channel processes start system
  idle : system.threads 0 = .idle (Handle.writer w)
  named : w.file = file
  fitted : Fitted w system.state
  seated : Seated w g
  shape : Shape (system.state.disk.memory file) g
  counter : ((system.state.disk.memory file).word32 (g.slot slot)).toNat = count % 2 ^ 32
  agrees : Header.Agrees ⟨.lp64, 0⟩ (twoSlots 2) (Header.ofMemory (system.state.disk.memory file))
  zeros : Zeros file system.state.disk.publishes
  total : system.state.disk.publishes.length = total

namespace Steady

variable {file : FileId} {g : Geometry} {slot count total : Nat} {system : System processes}
  {w : Writer}

theorem publish (steady : Steady file g slot count total system w) (room : 1 ≤ g.capacity) :
    ∃ later w', Steps channel processes system later ∧
      (∀ other, other ≠ 0 → later.threads other = system.threads other) ∧
      later.state.disk.Offers file w.gen 1 [0] ∧
      (later.state.disk.memory file).word32 Offset.latest =
        psmiLatest (slotAfter w.latest w.slotCount)
          ((later.state.disk.memory file).word32 (g.slot w.target)) ∧
      w'.target = (w.target + 1) % g.count ∧ w'.gen = nextGeneration w.gen ∧
      Steady file g slot (if w.target = slot then count / 2 * 2 + 2 else count) (total + 1) later
        w' := by
  obtain ⟨reached, idle, rfl, fitted, seated, shape, counter, agrees, zeros, length⟩ := steady
  have value : Publishable w.capacity (some [0]) 1 :=
    .of_bytes (by decide) (by rw [seated.capacity]; exact room)
  obtain ⟨timestamp, after, runs, wrote, fitted', offers, -⟩ :=
    @runs_publish 0 system.state w _ _ fitted value
  have steps := steps_serve runs idle (fun _ given => value.enough given) rfl
  have adds := adds_of_runs reached runs idle (fun _ given => value.enough given) rfl
  have memory : after.disk.memory w.file = publishedMemory w [0] 1 timestamp
      (system.state.disk.memory w.file) := wrote.memory_eq
  obtain ⟨latest, seq, -⟩ := @publishedMemory_slot w g (system.state.disk.memory w.file) [0] 1
    timestamp seated rfl
  rw [← memory] at latest seq
  obtain ⟨next, target⟩ := seated.published (system.state.disk.memory w.file)
  have kept : ∀ address < Offset.state,
      after.disk.memory w.file address = system.state.disk.memory w.file address := by
    intro address below
    rw [memory]
    refine publishedMemory_apply seated (.inl ?_) (.inl ?_)
    · exact Nat.lt_of_lt_of_le (Nat.lt_trans below (by decide)) (g.slot_ge _)
    · exact Nat.lt_trans below (by decide)
  obtain ⟨publish, added, named, own, -, offered⟩ := adds.published rfl
  refine ⟨_, _, steps, fun _ => System.set_other, offers, ?_, target, rfl, reached.trans steps,
    System.set_thread, rfl, fitted', next, ?_, ?_, ?_, ?_, ?_⟩
  · change (after.disk.memory w.file).word32 Offset.latest =
      psmiLatest _ ((after.disk.memory w.file).word32 (g.slot w.target))
    rw [latest, seq]
  · exact shape.congr kept
  · change ((after.disk.memory w.file).word32 (g.slot slot)).toNat = _
    by_cases same : w.target = slot
    · rw [if_pos same, ← same, seq, UInt32.toNat_add, clearLowBit_toNat, same, counter]
      change (count % 2 ^ 32 / 2 * 2 + 2) % 2 ^ 32 = _
      omega
    · rw [if_neg same, memory, publishedMemory_other seated (Ne.symm same), counter]
      exact UInt32.le_iff_toNat_le.mp room
  · change Header.Agrees _ _ (Header.ofMemory (after.disk.memory w.file))
    rw [Header.ofMemory_congr kept]
    exact agrees
  · intro other member
    change other ∈ after.disk.publishes at member
    rw [added, List.mem_append, List.mem_singleton] at member
    rcases member with old | rfl
    · exact zeros other old
    · exact ⟨named, own, (congrArg Prod.snd (Option.some.inj offered)).symm⟩
  · change after.disk.publishes.length = total + 1
    rw [added, List.length_append, List.length_singleton, length]

theorem follow (steady : Steady file g slot count total system w) {later : System processes}
    (steps : Steps channel processes system later) (disk : later.state.disk = system.state.disk)
    (idle : later.threads 0 = system.threads 0) : Steady file g slot count total later w := by
  refine ⟨steady.reached.trans steps, idle.trans steady.idle, steady.named,
    steady.fitted.congr (congrArg Disk.data disk) (congrArg Disk.files disk), steady.seated,
    ?_, ?_, ?_, ?_, ?_⟩
  all_goals rw [disk]
  · exact steady.shape
  · exact steady.counter
  · exact steady.agrees
  · exact steady.zeros
  · exact steady.total

/-- Two zeros commit the slot once, if there are two slots. -/
theorem rounds (steady : Steady file g slot count total system w) (two : g.count = 2)
    (room : 1 ≤ g.capacity) (even : count % 2 = 0) (turn : w.target = (slot + 1) % 2)
    (inside : slot < 2) (amount : Nat) :
    ∃ later w', Steps channel processes system later ∧
      (∀ other, other ≠ 0 → later.threads other = system.threads other) ∧
      w'.target = (slot + 1) % 2 ∧
      Steady file g slot (count + 2 * amount) (total + 2 * amount) later w' := by
  induction amount with
  | zero => exact ⟨system, w, .refl, fun _ _ => rfl, turn, steady⟩
  | succ amount ih =>
      obtain ⟨between, w₀, steps, same, turn₀, steady₀⟩ := ih
      obtain ⟨middle, w₁, once, same₁, -, -, turn₁, -, steady₁⟩ := steady₀.publish room
      obtain ⟨later, w₂, twice, same₂, -, -, turn₂, -, steady₂⟩ := steady₁.publish room
      rw [two] at turn₁ turn₂
      rw [if_pos (by omega), if_neg (by omega)] at steady₂
      have count' : (count + 2 * amount) / 2 * 2 + 2 = count + 2 * (amount + 1) := by omega
      rw [count'] at steady₂
      exact ⟨later, w₂, steps.trans (once.trans twice),
        fun other distinct => (same₂ other distinct).trans
          ((same₁ other distinct).trans (same other distinct)), by omega, steady₂⟩

end Steady

/-- The second process has loaded `latest`, and the slot it named is about to be committed so often
again that its version comes back. -/
structure Overtaken (file : FileId) (g : Geometry) (count : Nat) (synced : Reader) (latest : UInt32)
    (since : World) (system : System processes) (w : Writer) : Prop where
  steady : Steady file g w.target count (2 ^ 28) system w
  busy : system.threads 1 =
    .busy (Handle.reader Reader.unattached) (Request.read (some [0]) 1) since
      (pausedRead synced (afterLatest synced file [0] 1 true latest >>=
        afterTurn synced file 1 true 63))
  attached : synced.file = some file
  reader : synced.Matches w
  room : 1 ≤ g.capacity
  stale : ∀ {seq : UInt32}, seq.toNat = (count / 2 * 2 + 2) % 2 ^ 32 →
    latest = psmiLatest (slotAfter w.latest w.slotCount) seq
  offers : ∃ gen, system.state.disk.Offers file gen 1 [0] ∧ w.gen = nextGeneration gen
  elsewhere : (psmiLatestSlot ((system.state.disk.memory file).word32 Offset.latest)).toNat ≠
    w.target
  others : ∀ other, other ≠ 0 → other ≠ 1 → system.threads other = .idle Handle.fresh

theorem steps_overtaken : ∃ file g count synced latest since system w,
    Overtaken file g count synced latest since system w := by
  obtain ⟨w, created, opens, fitted, creates⟩ := steps_opened
  obtain ⟨g, shape, seated⟩ := fitted.shape
  have two : g.count = 2 := by
    rw [Geometry.count, ← seated.slotCount, creates.slotCount]
    rfl
  have room : 1 ≤ g.capacity := by
    rw [← seated.capacity, creates.capacity]
    decide
  have inside : w.target < 2 := two ▸ seated.target_lt
  have opened : Steady w.file g w.target
      ((created.disk.memory w.file).word32 (g.slot w.target)).toNat 0
      (start.set 0 created (.idle (Handle.writer w))) w := by
    refine ⟨opens, System.set_thread, rfl, fitted, seated, shape, ?_, creates.agrees, ?_, ?_⟩
    · exact (Nat.mod_eq_of_lt (UInt32.toNat_lt _)).symm
    · change Zeros w.file created.disk.publishes
      rw [creates.publishes]
      exact fun publish member => absurd member List.not_mem_nil
    · exact congrArg List.length creates.publishes
  -- a zero is published, and a reader loads `latest`
  obtain ⟨published, w₁, publishes, others, -, latest, turn, -, steady⟩ := opened.publish room
  rw [if_pos rfl] at steady
  obtain ⟨count, commits⟩ : ∃ count,
      ((created.disk.memory w.file).word32 (g.slot w.target)).toNat / 2 * 2 + 2 = count := ⟨_, rfl⟩
  rw [commits] at steady
  obtain ⟨loaded, loads, disk, busy, others₁⟩ := @steps_loaded 1 published w₁ 1 [0]
    (others 1 (by decide)) steady.fitted rfl
  rw [steady.named] at busy
  -- the slot is committed again, until it lacks one commit of 2^27
  rw [two] at turn
  obtain ⟨round, w₂, rounds, others₂, turn₂, steady₂⟩ := (steady.follow loads disk
    (others₁ 0 (by decide))).rounds two room (by omega) turn inside (2 ^ 27 - 1)
  obtain ⟨system, w₃, _, others₃, offers, latest₃, turn₃, gen₃, steady₃⟩ := steady₂.publish room
  rw [two] at turn₃
  rw [if_neg (by omega), show 0 + 1 + 2 * (2 ^ 27 - 1) + 1 = 2 ^ 28 by norm_num] at steady₃
  have target : w₃.target = w.target := by omega
  rw [← target] at steady₃
  have slot : slotAfter w₃.latest w₃.slotCount = slotAfter w.latest w.slotCount :=
    UInt32.toNat_inj.mp target
  have bound : (slotAfter w.latest w.slotCount).toNat < 16 :=
    Nat.lt_of_lt_of_le seated.target_lt g.le_sixteen
  have attached := steady.fitted.attached
  rw [steady.named] at attached
  refine ⟨w.file, g, _, _, _, _, system, w₃, steady₃,
    (others₃ 1 (by decide)).trans ((others₂ 1 (by decide)).trans busy), rfl, ?_, room,
    fun {seq} counter => ?_, ⟨_, offers, gen₃⟩, ?_, fun other first second => ?_⟩
  · exact ⟨attached.slotCount.trans (steady.seated.slotCount.trans steady₃.seated.slotCount.symm),
      attached.slotStride.trans (steady.seated.slotStride.trans steady₃.seated.slotStride.symm),
      attached.capacity.trans (steady.seated.capacity.trans steady₃.seated.capacity.symm)⟩
  · rw [latest, slot, psmiLatest_eq_iff bound, steady.counter, counter]
    omega
  · have bound₂ : (slotAfter w₂.latest w₂.slotCount).toNat < 16 :=
      Nat.lt_of_lt_of_le steady₂.seated.target_lt g.le_sixteen
    rw [latest₃, psmiLatestSlot_psmiLatest _ bound₂]
    change w₂.target ≠ w₃.target
    omega
  · rw [others₃ other first, others₂ other first, others₁ other second, others other first]
    exact System.set_other first

/-- The second process has read the value that the first one is about to publish in `before`. -/
structure Misread (file : FileId) (w : Writer) (before since : World) (rest : Prog (Handle × Result))
    (r : Reader) (reply : ReadReply) (system : System processes) : Prop where
  reached : Steps channel processes start system
  pending : system.threads 0 =
    .busy (Handle.writer w) (Request.publish (some [1]) 1) before rest
  ends : ∀ world, ∃ w' gen final, rest.Runs (exec 0) world (.writer w', .published .ok gen) final
  done : system.threads 1 = .busy (Handle.reader Reader.unattached) (Request.read (some [0]) 1) since
    (.done (.reader r, .read reply))
  others : ∀ other, other ≠ 0 → other ≠ 1 → system.threads other = .idle Handle.fresh
  ok : reply.code = .ok
  copied : reply.buffer = [1]
  generation : reply.info.map (·.generation) = some w.gen
  attached : r.file = some file
  reader : r.Matches w
  named : w.file = file
  fitted : Fitted w system.state
  agrees : Header.Agrees ⟨.lp64, 0⟩ (twoSlots 2) (Header.ofMemory (system.state.disk.memory file))
  publishes : system.state.disk.publishes = before.disk.publishes
  zeros : Zeros file before.disk.publishes
  total : before.disk.publishes.length = 2 ^ 28
  offers : ∃ gen, system.state.disk.Offers file gen 1 [0] ∧ w.gen = nextGeneration gen

/-- The writer commits another value in that slot, and before it stores `latest`, the reader takes
the value for the one it has been looking for. -/
theorem Overtaken.misread {file : FileId} {g : Geometry} {count : Nat} {synced : Reader}
    {latest : UInt32} {since : World} {system : System processes} {w : Writer}
    (overtaken : Overtaken file g count synced latest since system w) :
    ∃ rest r reply later, Misread file w system.state since rest r reply later := by
  obtain ⟨steady, busy, attached, reader, room, stale, ⟨gen, offers, next⟩, elsewhere, others⟩ :=
    overtaken
  obtain ⟨reached, idle, rfl, fitted, seated, shape, counter, agrees, zeros, total⟩ := steady
  have value : Publishable w.capacity (some [1]) 1 :=
    .of_bytes (by decide) (by rw [seated.capacity]; exact room)
  obtain ⟨timestamp, rest, pending, commits, wrote, publishes, ends⟩ :=
    @leads_pending 0 system.state w _ _ fitted value
  have begun := @Steps.begun _ _ _ _ _ channel processes system 0 _
    (Request.publish (some [1]) 1) _ _ idle (fun _ given => value.enough given) commits
  have memory : pending.disk.memory w.file = pendingMemory w [1] 1 timestamp
      (system.state.disk.memory w.file) := wrote.memory_eq
  obtain ⟨seq, publish, holds, generation, length, payload⟩ := @pendingMemory_slot w g
    (system.state.disk.memory w.file) [1] 1 timestamp seated rfl
  rw [← memory] at seq holds
  let i := slotAfter w.latest w.slotCount
  have place : slotOffset synced.slotStride i = g.slot w.target := by
    rw [reader.slotStride]
    exact seated.writerSlot_eq
  rw [← place] at seq holds counter
  have bound : i.toNat < 16 := Nat.lt_of_lt_of_le seated.target_lt g.le_sixteen
  have inside : i < synced.slotCount := by
    rw [reader.slotCount, seated.slotCount]
    exact UInt32.lt_iff_toNat_lt.mpr seated.target_lt
  have even : (pending.disk.memory w.file).word32 (slotOffset synced.slotStride i) &&& 1 = 0 := by
    rw [seq]
    exact evenSeq_lowBit _
  have named : latest = psmiLatest i
      ((pending.disk.memory w.file).word32 (slotOffset synced.slotStride i)) := by
    refine stale ?_
    rw [seq, UInt32.toNat_add, clearLowBit_toNat, counter]
    change (count % 2 ^ 32 / 2 * 2 + 2) % 2 ^ 32 = _
    omega
  have fits : publish.length ≤ synced.capacity := by
    rw [length, reader.capacity, seated.capacity]
    exact room
  have large : publish.length ≤ 1 := by rw [length]; decide
  obtain ⟨final, returns, disk⟩ := @runs_afterLatest 1 pending synced w.file i latest 1 publish even
    named holds bound inside fits large [0]
  -- the reader's steps follow the writer's
  let committed := system.set 0 pending
    (.busy (Handle.writer w) (Request.publish (some [1]) 1) system.state rest)
  have looking : committed.threads 1 = _ := (System.set_other (by decide)).trans busy
  have reads := @Steps.return _ _ _ _ _ channel processes committed 1 _ _ _ _ _ _ looking returns
  obtain ⟨flag, announced⟩ := announce_reader synced
    (some ⟨publish.generation, publish.length, publish.timestampNs, 0⟩)
  have fitted' : Fitted w final :=
    (fitted.pending wrote).congr (congrArg Disk.data disk) (congrArg Disk.files disk)
  refine ⟨rest, _, _, _, reached.trans (begun.trans reads), ?_, fun world => ?_, System.set_thread,
    fun other first second => ?_, rfl, ?_, ?_, ?_, ?_, rfl, fitted', ?_, ?_, zeros, total,
    gen, ?_, next⟩
  · exact (System.set_other (by decide)).trans System.set_thread
  · obtain ⟨final, runs⟩ := ends world
    exact ⟨_, _, final, runs⟩
  · exact (System.set_other second).trans ((System.set_other first).trans (others other first second))
  · change publish.payload ++ [0].drop publish.payload.length = [1]
    rw [payload]
    rfl
  · change (announce synced _).1.map (·.generation) = some w.gen
    rw [announce_generation]
    exact congrArg some generation
  · change (announce synced _).2.file = some w.file
    rw [announced]
    exact attached
  · change (announce synced _).2.Matches w
    rw [announced]
    exact ⟨reader.slotCount, reader.slotStride, reader.capacity⟩
  · change Header.Agrees _ _ (Header.ofMemory (final.disk.memory w.file))
    rw [disk, header_pending seated wrote]
    exact agrees
  · change final.disk.publishes = system.state.disk.publishes
    rw [disk, publishes]
  · change final.disk.Offers w.file gen 1 [0]
    rw [disk]
    refine offers.pending fitted elsewhere ?_ wrote
    rw [seated.capacity]
    exact UInt32.le_iff_toNat_le.mp room

theorem Zeros.or_last {file : FileId} {publishes known : List Publish} {publish other : Publish}
    {index : Nat} (zeros : Zeros file publishes) (grows : known <+: publishes ++ [publish])
    (here : known[index]? = some other) :
    index < publishes.length ∧ other.payload = [0] ∨ index = publishes.length ∧ other = publish := by
  have there := getElem?_of_grows grows here
  by_cases old : index < publishes.length
  · rw [List.getElem?_append_left old] at there
    exact .inl ⟨old, (zeros other (List.mem_of_getElem? there)).2.2⟩
  · have inside := (List.getElem?_eq_some_iff.mp there).1
    rw [List.length_append, List.length_singleton] at inside
    obtain rfl : index = publishes.length := by omega
    rw [List.getElem?_concat_length] at there
    exact .inr ⟨rfl, (Option.some.inj there).symm⟩

/-- Not so for a reader that is overtaken 2^27 times: it returns a value that is not published yet,
and then the one published before it. -/
theorem reads_out_of_order : ¬ ∀ (execution : Execution) (thread : Tid),
    execution.InOrder thread (fun _ => True) := by
  intro claim
  obtain ⟨file, g, count, synced, latest, since, system, w, overtaken⟩ := steps_overtaken
  obtain ⟨rest, r, reply, later, misread⟩ := overtaken.misread
  obtain ⟨gen, offers, -⟩ := misread.offers
  obtain rfl : w.file = file := misread.named
  obtain ⟨base, index, reached⟩ := Execution.reaching misread.reached
  obtain ⟨first₁, read₁⟩ := Execution.called base
    ((congrArg (fun system => system.threads 1) reached).trans misread.done)
  have returns : Steps channel processes (base.systems index)
      (later.set 1 later.state (.idle (Handle.reader r))) := by
    rw [reached]
    exact Steps.finish misread.done
  obtain ⟨returned, index₁, ordered₁, reached₁, same₁⟩ := base.extend returns
  -- the reader reads again while the writer waits
  obtain ⟨again, r₂, reply₂, first₂, last₂, index₂, _, reads, -, -, early, late, -, -, reached₂, same₂,
    -⟩ := Execution.serve_read returned reached₁ System.set_thread misread.fitted offers
      (eval_readerSync_attached misread.attached misread.fitted.active) misread.attached
      misread.reader
  -- then the writer stores `latest`
  have waiting : (again.systems index₂).threads 0 =
      .busy (Handle.writer w) (Request.publish (some [1]) 1) system.state rest := by
    rw [reached₂]
    exact (System.set_other (by decide)).trans
      ((System.set_other (by decide)).trans misread.pending)
  obtain ⟨w', gen', final, publishes⟩ := misread.ends (again.systems index₂).state
  obtain ⟨extended, index₃, ordered₃, reached₃, same₃⟩ :=
    again.extend (Steps.return waiting publishes)
  have published : (extended.systems index₃).threads 0 =
      .busy (Handle.writer w) (Request.publish (some [1]) 1) system.state
        (.done (.writer w', .published .ok gen')) := by
    rw [reached₃]
    exact System.set_thread
  obtain ⟨first₀, call⟩ := Execution.called extended published
  obtain ⟨publish, added, -, -, -, offered⟩ := (Execution.writer_adds call).published rfl
  rw [show Execution.world extended first₀ = system.state from call.taken published] at added offered
  have one : publish.payload = [1] := (congrArg Prod.snd (Option.some.inj offered)).symm
  -- nothing happens afterwards
  let execution : Execution := extended.cut index₃
  have kept : ∀ earlier ≤ index₃, execution.systems earlier = extended.systems earlier :=
    fun earlier before => congrArg extended.systems (Nat.min_eq_left before)
  have whole : ∀ instant, (execution.world instant).disk.publishes <+:
      system.state.disk.publishes ++ [publish] := by
    intro instant
    rw [← added]
    exact (Execution.evolves (Nat.min_le_right instant index₃)).publishes
  have spans := reads.call.ordered
  have read₁ := (((read₁.transport (Nat.le_refl _) same₁).transport ordered₁ same₂).transport
    (by omega) same₃).transport (by omega) kept
  have read₂ := (reads.call.transport late same₃).transport (by omega) kept
  obtain ⟨position, increases, values⟩ := claim execution 1
  obtain ⟨instant₁, publish₁, here₁, reports₁⟩ := values read₁ trivial misread.ok trivial
  obtain ⟨instant₂, publish₂, here₂, reports₂⟩ := values read₂ trivial reads.code trivial
  have payload₁ := reports₁.payload nofun misread.ok
  have payload₂ := reports₂.payload nofun reads.code
  rw [misread.copied] at payload₁
  rw [reads.buffer] at payload₂
  have ordered := increases (show index ≤ last₂ by omega)
  rcases misread.zeros.or_last (whole instant₁) here₁ with ⟨-, zero⟩ | ⟨newest, -⟩
  · have member : (0 : UInt8) ∈ [1].take publish₁.length.toNat := by
      rw [payload₁, zero]
      exact List.mem_singleton_self 0
    exact absurd (List.mem_of_mem_take member) (by decide)
  rcases misread.zeros.or_last (whole instant₂) here₂ with ⟨older, -⟩ | ⟨-, rfl⟩
  · omega
  · have member : (1 : UInt8) ∈ [0].take publish₂.length.toNat := by
      rw [payload₂, one]
      exact List.mem_singleton_self 1
    exact absurd (List.mem_of_mem_take member) (by decide)

end PsMsgr
