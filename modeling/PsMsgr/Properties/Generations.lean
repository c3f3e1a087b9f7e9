import PsMsgr.Properties.Succession

namespace PsMsgr

open Effect Data

/-- The number of generations: 0 is none. -/
def generationCount : Nat := 2 ^ 32 - 1

theorem nextGeneration_toNat {gen : UInt32} (nonzero : gen ≠ 0) :
    (nextGeneration gen).toNat = 1 + gen.toNat % generationCount := by
  have bound := gen.toNat_lt
  have positive : gen.toNat ≠ 0 := fun zero => nonzero (UInt32.toNat_inj.mp zero)
  unfold nextGeneration generationCount
  split
  · next top =>
      have value : gen.toNat = 2 ^ 32 - 1 := congrArg UInt32.toNat top
      rw [value]
      rfl
  · next below =>
      have short : gen.toNat ≠ 2 ^ 32 - 1 := fun top => below (UInt32.toNat_inj.mp top)
      rw [UInt32.toNat_add]
      change (gen.toNat + 1) % 2 ^ 32 = _
      omega

/-- The publish after `index` is of the same session, or of a session that found the one
at `index` when it opened the channel. -/
def Linked (publishes : List Publish) (index : Nat) : Prop :=
  ∃ before after, publishes[index]? = some before ∧ publishes[index + 1]? = some after ∧
    (before.writer = after.writer ∨ after.basis = some index)

section Chains

variable {publishes : List Publish}

/-- By induction on the length of the chain: each link is one step of the cycle of
generations. -/
theorem Chained.generation {start : Publish} {index : Nat} (chained : Chained publishes)
    (nonzero : ∀ publish ∈ publishes, publish.generation ≠ 0)
    (here : publishes[index]? = some start) (count : Nat)
    (linked : ∀ step < count, Linked publishes (index + step)) :
    ∀ {last}, publishes[index + count]? = some last →
      last.generation.toNat = 1 + (start.generation.toNat - 1 + count) % generationCount := by
  have positive : start.generation.toNat ≠ 0 := fun zero =>
    nonzero start (List.mem_of_getElem? here) (UInt32.toNat_inj.mp zero)
  have bound := start.generation.toNat_lt
  induction count with
  | zero =>
      intro last there
      rw [Nat.add_zero, here, Option.some.injEq] at there
      rw [← there, Nat.add_zero, Nat.mod_eq_of_lt (by unfold generationCount; omega)]
      omega
  | succ count ih =>
      intro last there
      obtain ⟨before, after, present, following, related⟩ := linked count (Nat.lt_succ_self count)
      obtain rfl : after = last := Option.some.inj (following.symm.trans there)
      have earlier := ih (fun step below => linked step (Nat.lt_succ_of_lt below)) present
      rw [chained.follows present following related,
        nextGeneration_toNat (nonzero before (List.mem_of_getElem? present)), earlier,
        Nat.add_mod_mod]
      congr 2
      omega

theorem Chained.distinct {start last : Publish} {index count : Nat} (chained : Chained publishes)
    (nonzero : ∀ publish ∈ publishes, publish.generation ≠ 0)
    (here : publishes[index]? = some start) (there : publishes[index + count]? = some last)
    (linked : ∀ step < count, Linked publishes (index + step))
    (few : count < generationCount) (same : last.generation = start.generation) : count = 0 := by
  have value := chained.generation nonzero here count linked there
  have positive : start.generation.toNat ≠ 0 := fun zero =>
    nonzero start (List.mem_of_getElem? here) (UInt32.toNat_inj.mp zero)
  have bound := start.generation.toNat_lt
  rw [same] at value
  unfold generationCount at few value
  omega

theorem Chained.first {publish : Publish} {index found : Nat} (chained : Chained publishes)
    (here : publishes[index]? = some publish) (based : publish.basis = some found)
    (first : ∀ earlier other, earlier < index → publishes[earlier]? = some other →
      other.writer ≠ publish.writer) :
    ∃ before, found + 1 = index ∧ publishes[found]? = some before ∧
      publish.generation = nextGeneration before.generation := by
  have adjacent := chained.basis here based first
  subst adjacent
  have inside := (List.getElem?_eq_some_iff.mp here).1
  have present := List.getElem?_eq_getElem (show found < publishes.length by omega)
  exact ⟨_, rfl, present, chained.follows present here (.inr based)⟩

theorem Chained.further {before after : Publish} {earlier later : Nat} (chained : Chained publishes)
    (ordered : earlier < later) (here : publishes[earlier]? = some before)
    (there : publishes[later]? = some after) (same : before.writer = after.writer)
    (next : ∀ between other, earlier < between → between < later →
      publishes[between]? = some other → other.writer ≠ after.writer) :
    later = earlier + 1 ∧ after.generation = nextGeneration before.generation := by
  obtain ⟨last, rfl⟩ : ∃ last, later = last + 1 := ⟨later - 1, by omega⟩
  have inside := (List.getElem?_eq_some_iff.mp there).1
  have present := List.getElem?_eq_getElem (show last < publishes.length by omega)
  have session := chained.session (by omega) ⟨before, here, same⟩ present there
  obtain rfl : last = earlier := by
    by_cases between : earlier < last
    · exact absurd session (next last _ between (Nat.lt_succ_self last) present)
    · omega
  exact ⟨rfl, chained.follows here there (.inl same)⟩

end Chains

theorem DiskInv.nonzero {disk : Disk} (inv : DiskInv disk) :
    ∀ publish ∈ disk.publishes, publish.generation ≠ 0 := by
  intro publish member
  obtain ⟨g, valid⟩ := inv.valid (inv.published publish member)
  exact (valid.sane publish (List.mem_filter.mpr ⟨member, decide_eq_true rfl⟩)).2

/-- The publishes from `first` to `last` are a chain of sessions that is shorter than the cycle of
generations. -/
structure OneRound (publishes : List Publish) (first last : Nat) : Prop where
  few : last < first + generationCount
  linked : ∀ position, first ≤ position → position < last → Linked publishes position

theorem OneRound.position_eq {publishes : List Publish} {first last : Nat} {before after : Publish}
    (round : OneRound publishes first last) (ordered : first ≤ last) (chained : Chained publishes)
    (nonzero : ∀ publish ∈ publishes, publish.generation ≠ 0)
    (here : publishes[first]? = some before) (there : publishes[last]? = some after)
    (same : after.generation = before.generation) : first = last := by
  obtain ⟨count, rfl⟩ := Nat.exists_eq_add_of_le ordered
  have few := round.few
  have none := chained.distinct nonzero here there
    (fun step below => round.linked (first + step) (by omega) (by omega)) (by omega) same
  omega

/-- A read or peek that returned a value to a reader attached to the file. -/
structure Execution.Gets (execution : Execution) (thread : Tid) (request : Request)
    (reply : ReadReply) (file : FileId) (first last : Nat) : Prop where
  call : ∃ r r', execution.Called thread (.reader r) request (.reader r', .read reply) first last ∧
    r'.file = some file
  reads : request.Reads
  read : reply.code = .ok ∨ reply.code = .toosmall

/-- The publish at `position` was the last one in the file at an instant from `first` to `last`. -/
def Execution.Offers (execution : Execution) (file : FileId) (first last position : Nat) : Prop :=
  ∃ instant publish, first ≤ instant ∧ instant ≤ last ∧
    (execution.world instant).disk.Latest file position publish

/-- Of the reads and peeks that count and returned up to `index`, any two that return one generation
return one value, if what the writers published last while they ran is of one round. -/
def Execution.Unambiguous (execution : Execution) (index : Nat) (counts : Tid → World → Prop) :
    Prop :=
  ∀ {thread request reply file first last thread' request' reply' file' first' last'},
    execution.Gets thread request reply file first last →
    execution.Gets thread' request' reply' file' first' last' → last ≤ index → last' ≤ index →
    counts thread (execution.world last) → counts thread' (execution.world last') →
    (∀ {position position'}, execution.Offers file first last position →
      execution.Offers file' first' last' position' →
      OneRound (execution.world index).disk.publishes (min position position')
        (max position position')) →
    reply.info.map (·.generation) = reply'.info.map (·.generation) →
    ∃ publish, Reports request reply publish ∧ Reports request' reply' publish

theorem Reports.generation_eq {request request' : Request} {reply reply' : ReadReply}
    {publish publish' : Publish} (reports : Reports request reply publish)
    (reports' : Reports request' reply' publish')
    (same : reply.info.map (·.generation) = reply'.info.map (·.generation)) :
    publish.generation = publish'.generation := by
  obtain ⟨info, given, shows⟩ := reports.info
  obtain ⟨info', given', shows'⟩ := reports'.info
  rw [given, given', Option.map_some, Option.map_some, Option.some.injEq, shows.generation,
    shows'.generation] at same
  exact same

theorem Execution.Gets.latest {execution : Execution} {index : Nat} {thread : Tid}
    {request : Request} {reply : ReadReply} {file : FileId} {first last : Nat}
    (gets : execution.Gets thread request reply file first last) (before : last ≤ index)
    (unwrapped : ((execution.world last).log thread).wrapped = false) :
    ∃ position publish, execution.Offers file first last position ∧
      (execution.world index).disk.publishes[position]? = some publish ∧
      Reports request reply publish := by
  obtain ⟨⟨r, r', call, attached⟩, reads, read⟩ := gets
  obtain ⟨instant, other, position, publish, lower, upper, attached', latest, reports⟩ :=
    Execution.read_latest call reads unwrapped read
  obtain rfl := Option.some.inj (attached.symm.trans attached')
  exact ⟨position, publish, ⟨instant, publish, lower, upper, latest⟩,
    getElem?_of_grows (Execution.evolves (Nat.le_trans upper before)).publishes latest.here, reports⟩

theorem Execution.unambiguous (execution : Execution) (index : Nat) :
    execution.Unambiguous index (fun thread world => (world.log thread).wrapped = false) := by
  intro thread request reply file first last thread' request' reply' file' first' last' gets gets'
    before before' unwrapped unwrapped' round same
  have inv := (execution.inv index).disk
  obtain ⟨position, publish, offers, here, reports⟩ := gets.latest before unwrapped
  obtain ⟨position', publish', offers', here', reports'⟩ := gets'.latest before' unwrapped'
  have generation := reports.generation_eq reports' same
  have chain := round offers offers'
  obtain rfl : position = position' := by
    rcases Nat.le_total position position' with ordered | ordered
    · rw [Nat.min_eq_left ordered, Nat.max_eq_right ordered] at chain
      exact chain.position_eq ordered inv.chained inv.nonzero here here' generation.symm
    · rw [Nat.min_eq_right ordered, Nat.max_eq_left ordered] at chain
      exact (chain.position_eq ordered inv.chained inv.nonzero here' here generation).symm
  obtain rfl := Option.some.inj (here.symm.trans here')
  exact ⟨publish, reports, reports'⟩

/-- A session that finds a value continues its generation, and each of its publishes that of
the one before; so generations go round a cycle along any chain of such sessions, and within one
round a generation is readable for one value only, as long as no slot is committed 2^27 times
within one attempt to read it. -/
theorem generations_continue (execution : Execution) (index : Nat) :
    (∀ {file}, (execution.world index).disk.installed file = true →
      (((execution.world index).disk.memory file).word32 Offset.latest = psmiLatestNone ↔
        lastIndex file (execution.world index).disk.publishes = none)) ∧
    (∀ {position found : Nat} {publish : Publish},
      (execution.world index).disk.publishes[position]? = some publish →
      publish.basis = some found →
      (∀ (earlier : Nat) (other : Publish), earlier < position →
        (execution.world index).disk.publishes[earlier]? = some other →
        other.writer ≠ publish.writer) →
      ∃ before, found + 1 = position ∧
        (execution.world index).disk.publishes[found]? = some before ∧
        publish.generation = nextGeneration before.generation) ∧
    (∀ {earlier later : Nat} {before after : Publish}, earlier < later →
      (execution.world index).disk.publishes[earlier]? = some before →
      (execution.world index).disk.publishes[later]? = some after →
      before.writer = after.writer →
      (∀ (between : Nat) (other : Publish), earlier < between → between < later →
        (execution.world index).disk.publishes[between]? = some other →
        other.writer ≠ after.writer) →
      later = earlier + 1 ∧ after.generation = nextGeneration before.generation) ∧
    (∀ {position count : Nat} {start last : Publish},
      (execution.world index).disk.publishes[position]? = some start →
      (execution.world index).disk.publishes[position + count]? = some last →
      (∀ step < count, Linked (execution.world index).disk.publishes (position + step)) →
      last.generation.toNat = 1 + (start.generation.toNat - 1 + count) % generationCount ∧
        (0 < count → count < generationCount → last.generation ≠ start.generation)) ∧
    (∀ publish ∈ (execution.world index).disk.publishes, publish.generation ≠ 0) ∧
    execution.Unambiguous index (fun thread world => (world.log thread).wrapped = false) := by
  have inv := (execution.inv index).disk
  refine ⟨inv.latest_eq_none, inv.chained.first, inv.chained.further, ?_, inv.nonzero,
    execution.unambiguous index⟩
  intro position count start last here there linked
  refine ⟨inv.chained.generation inv.nonzero here count linked there, fun some few same => ?_⟩
  have none := inv.chained.distinct inv.nonzero here there linked few same
  omega

/-- Where nothing is published during a call, it can only see the last publish before it. -/
theorem Execution.Offers.position_eq {execution : Execution} {file : FileId}
    {first last position : Nat} (offers : execution.Offers file first last position)
    (same : (execution.world last).disk.publishes = (execution.world first).disk.publishes) :
    lastIndex file (execution.world first).disk.publishes = some position := by
  obtain ⟨instant, publish, lower, upper, latest⟩ := offers
  have before := (@Execution.evolves execution _ _ lower).publishes
  have after := (@Execution.evolves execution _ _ upper).publishes.length_le
  rw [same] at after
  rw [before.eq_of_length_le after]
  exact latest.last

/-- Two reads of the byte, one after the other. -/
theorem generations_continue_readsByte : ∃ (execution : Execution) (index : Nat)
    (generation : UInt32) (r r' : Reader) (reply reply' : ReadReply) (first last first' last' : Nat),
    execution.ReadsByte 7 generation Reader.unattached r reply first last ∧
    execution.ReadsByte 7 generation r r' reply' first' last' ∧ last < first' ∧ last' ≤ index ∧
    ((execution.world last).log 1).wrapped = false ∧
    ((execution.world last').log 1).wrapped = false ∧
    ∃ publish, Reports (.read (some [0]) 1) reply publish ∧
      Reports (.read (some [0]) 1) reply' publish := by
  obtain ⟨w, generation, world, reached, shared⟩ := steps_shared
  obtain ⟨base, index, here⟩ := Execution.reaching reached
  obtain ⟨middle, r, reply, first, last, later, once, reads, attached, same, -, ended, since, state,
    systems, -, unwrapped⟩ := Execution.serve_read base here System.set_thread shared.fitted
      shared.offers shared.fitted.sync rfl shared.fitted.attached
  have clear := unwrapped shared.commits (congrArg Log.wrapped shared.log)
  have disk : once.disk = world.disk := by
    rw [← state, reads.disk, since]
    rfl
  have fitted : Fitted w once := shared.fitted.congr (by rw [disk]) (by rw [disk])
  obtain ⟨execution, r', reply', first', last', index', _, reads', attached', -, begun, ended',
    since', state', -, kept, unwrapped'⟩ := Execution.serve_read middle systems System.set_thread
      fitted (by rw [System.set_state, disk]; exact shared.offers)
      (eval_readerSync_attached attached fitted.active) attached same
  have clear' := unwrapped' (by rw [System.set_state, disk]; exact shared.commits) clear
  rw [← state'] at clear'
  have spans := reads.call.ordered
  have spans' := reads'.call.ordered
  have worlds {instant : Nat} (upper : instant ≤ later) :
      execution.world instant = middle.world instant := congrArg System.state (kept instant upper)
  rw [← state, ← worlds ended] at clear
  have read : execution.ReadsByte 7 generation Reader.unattached r reply first last := by
    refine ⟨reads.call.transport ended kept, reads.code, reads.buffer, reads.generation,
      reads.length, ?_⟩
    rw [worlds ended, worlds (by omega)]
    exact reads.disk
  refine ⟨execution, index', generation, r, r', reply, reply', first, last, first', last', read,
    reads', by omega, ended', clear, clear', ?_⟩
  refine (generations_continue execution index').2.2.2.2.2
    ⟨⟨_, _, read.call, attached⟩, trivial, .inl read.code⟩
    ⟨⟨_, _, reads'.call, attached'⟩, trivial, .inl reads'.code⟩ (by omega) ended' clear clear'
    (fun {position position'} offers offers' => ?_) (read.generation.trans reads'.generation.symm)
  -- both calls see the one publish there is
  have here := offers.position_eq (congrArg Disk.publishes read.disk)
  have there := offers'.position_eq (congrArg Disk.publishes reads'.disk)
  rw [worlds (by omega), since] at here
  rw [since'] at there
  change lastIndex _ once.disk.publishes = _ at there
  rw [disk] at there
  obtain rfl := Option.some.inj (here.symm.trans there)
  rw [Nat.min_self, Nat.max_self]
  exact ⟨Nat.lt_add_of_pos_right (by decide), fun _ above below => absurd above (by omega)⟩

section

variable {file : FileId} {publishes : List Publish} {publish : Publish}

theorem Zeros.lastIndex_eq (zeros : Zeros file publishes) (several : 0 < publishes.length) :
    lastIndex file publishes = some (publishes.length - 1) := by
  have here := List.getElem?_eq_getElem (show publishes.length - 1 < publishes.length by omega)
  refine lastIndex_eq_some_iff.mpr ⟨⟨_, here, (zeros _ (List.mem_of_getElem? here)).1⟩, ?_⟩
  intro later other beyond there
  have inside := (List.getElem?_eq_some_iff.mp there).1
  omega

/-- Zeros of one session and a publish of a session that found the last of them are a chain. -/
theorem Zeros.linked (zeros : Zeros file publishes)
    (based : publish.basis = some (publishes.length - 1)) {position : Nat}
    (inside : position < publishes.length) : Linked (publishes ++ [publish]) position := by
  have here := List.getElem?_eq_getElem inside
  refine ⟨publishes[position], ?_⟩
  rw [List.getElem?_append_left inside]
  by_cases last : position + 1 < publishes.length
  · have there := List.getElem?_eq_getElem last
    refine ⟨publishes[position + 1], here, ?_, .inl ?_⟩
    · rw [List.getElem?_append_left last]
      exact there
    · exact (zeros _ (List.mem_of_getElem? here)).2.1.trans
        (zeros _ (List.mem_of_getElem? there)).2.1.symm
  · obtain rfl : position = publishes.length - 1 := by omega
    refine ⟨publish, here, ?_, .inr based⟩
    rw [show publishes.length - 1 + 1 = publishes.length by omega]
    exact List.getElem?_concat_length

theorem OneRound.of_zeros {first last : Nat} (zeros : Zeros file publishes)
    (based : publish.basis = some (publishes.length - 1)) (few : publishes.length = 2 ^ 28)
    (inside : last ≤ publishes.length) : OneRound (publishes ++ [publish]) first last where
  few := by
    unfold generationCount
    omega
  linked := fun _ _ before => zeros.linked based (Nat.lt_of_lt_of_le before inside)

end

/-- The reader returns, and the writer is killed before it stores `latest`. -/
def killed (r : Reader) (system : System processes) : System processes :=
  (system.set 1 system.state (.idle (Handle.reader r))).set 0 (crash 0 system.state) .dead

section

variable {file : FileId} {w : Writer} {before since : World} {rest : Prog (Handle × Result)}
  {r : Reader} {reply : ReadReply} {system : System processes}

theorem Misread.kills (misread : Misread file w before since rest r reply system) :
    Steps channel processes (system.set 1 system.state (.idle (Handle.reader r)))
      (killed r system) := by
  have waiting : (system.set 1 system.state (.idle (Handle.reader r))).threads 0 = _ :=
    (System.set_other (by decide)).trans misread.pending
  exact Steps.kill (by rw [waiting]; simp)

theorem Misread.sound (misread : Misread file w before since rest r reply system) :
    outline.Sound (killed r system) :=
  sound_start.steps (misread.reached.trans ((Steps.finish misread.done).trans misread.kills))

theorem Misread.fresh (misread : Misread file w before since rest r reply system) {other : Tid}
    (first : other ≠ 0) (second : other ≠ 1) :
    (killed r system).threads other = .idle Handle.fresh :=
  (System.set_other first).trans ((System.set_other second).trans
    (misread.others other first second))

/-- Nobody holds the lock any more. -/
theorem Misread.unused (misread : Misread file w before since rest r reply system) (fd : Fd) :
    (killed r system).state.fds fd = none := by
  by_contra used
  obtain ⟨descriptor, here⟩ := Option.ne_none_iff_exists'.mp used
  obtain ⟨-, alive⟩ := Option.filter_eq_some_iff.mp here
  have first : descriptor.owner ≠ 0 := of_decide_eq_true alive
  have reads : (killed r system).threads 1 = .idle (Handle.reader r) :=
    (System.set_other (by decide)).trans System.set_thread
  by_cases second : descriptor.owner = 1
  · exact unowned_of_sound misread.sound reads (fun w same => by cases same) here second
  · exact unowned_of_sound misread.sound (misread.fresh first second) (fun w same => by cases same)
      here rfl

/-- The next writer publishes another value under the generation that has been read already. -/
theorem Misread.reopened (misread : Misread file w before since rest r reply system) :
    ∃ w' final publish, Steps channel processes
        (system.set 1 system.state (.idle (Handle.reader r))) final ∧
      final.threads 1 = .idle (Handle.reader r) ∧ Fitted w' final.state ∧ w'.file = file ∧
      r.Matches w' ∧ final.state.disk.Offers file w.gen 1 [2] ∧
      final.state.disk.publishes = before.disk.publishes ++ [publish] ∧
      publish.basis = some (before.disk.publishes.length - 1) := by
  obtain ⟨gen, offers, next⟩ := misread.offers
  obtain rfl := misread.named
  obtain ⟨valued, generation⟩ := misread.fitted.valued offers
  have valued' : (killed r system).state.disk.Valued w.file :=
    ⟨valued.named, valued.accepted, valued.published, valued.valid⟩
  have old : w.file < (killed r system).state.disk.fresh :=
    misread.sound.inv.disk.fresh (misread.sound.inv.disk.data valued'.named).1
  obtain ⟨w₂, after, opens, fitted, named, same, gen₂, publishes, found⟩ :=
    @steps_writerOpen_valued (killed r system) 2 ⟨.lp64, 0⟩ none (some ['a']) (some (twoSlots 2))
      (twoSlots 2) w.file loadOptions_twoSlots rfl (misread.fresh (by decide) (by decide))
      misread.unused valued' old misread.fitted.active misread.agrees
  have again : w₂.gen = w.gen := gen₂.trans ((congrArg nextGeneration generation).trans next.symm)
  have capacity : w₂.capacity = 2 := same.capacity.symm.trans misread.agrees.capacity
  have value : Publishable w₂.capacity (some [2]) 1 :=
    .of_bytes (by decide) (by rw [capacity]; decide)
  let opened := (killed r system).set 2 after (.idle (Handle.writer w₂))
  have reached : Steps channel processes start opened :=
    misread.reached.trans ((Steps.finish misread.done).trans (misread.kills.trans opens))
  obtain ⟨_, published, runs, -, fitted', offers', accessed, -⟩ :=
    @runs_publish 2 opened.state w₂ _ _ fitted value
  have steps := steps_serve runs System.set_thread (fun _ given => value.enough given) rfl
  have adds := adds_of_runs reached runs System.set_thread (fun _ given => value.enough given) rfl
  obtain ⟨publish, added, -, -, -, -⟩ := adds.published rfl
  obtain ⟨more, grown, based⟩ := accessed.publishes
  have history : opened.state.disk.publishes = before.disk.publishes :=
    publishes.trans misread.publishes
  have several : 0 < before.disk.publishes.length := by
    rw [misread.total]
    decide
  have last : (killed r system).state.disk.found = some (before.disk.publishes.length - 1) := by
    rw [Disk.found, valued'.named, Option.bind_some,
      show (killed r system).state.disk.publishes = before.disk.publishes from misread.publishes]
    exact misread.zeros.lastIndex_eq several
  refine ⟨_, _, publish, misread.kills.trans (opens.trans steps), ?_, fitted', named, ?_, ?_, ?_, ?_⟩
  · exact (System.set_other (by decide)).trans ((System.set_other (by decide)).trans
      ((System.set_other (by decide)).trans System.set_thread))
  · have attached := misread.fitted.attached
    exact Reader.Matches.published ⟨misread.reader.slotCount.trans
      (attached.slotCount.symm.trans same.slotCount), misread.reader.slotStride.trans
      (attached.slotStride.symm.trans same.slotStride), misread.reader.capacity.trans
      (attached.capacity.symm.trans same.capacity)⟩ _
  · rw [named, again] at offers'
    exact offers'
  · exact added.trans (congrArg (· ++ [publish]) history)
  · have member : publish ∈ more := by
      rw [List.append_cancel_left (grown.symm.trans added)]
      exact List.mem_singleton_self publish
    exact (based publish member).trans (found.trans last)

end

/-- Not so for a reader that is overtaken 2^27 times: it returns a value whose writer is killed
before it stores `latest`, and the next writer publishes another one under its generation. -/
theorem generation_read_twice : ¬ ∀ (execution : Execution) (index : Nat),
    execution.Unambiguous index (fun _ _ => True) := by
  intro claim
  obtain ⟨file, g, count, synced, latest, since, system, w, overtaken⟩ := steps_overtaken
  obtain ⟨rest, r, reply, later, misread⟩ := overtaken.misread
  obtain ⟨w', final, publish, steps, idle, fitted, named, reader, offers, history, based⟩ :=
    misread.reopened
  obtain ⟨base, index, reached⟩ := Execution.reaching misread.reached
  obtain ⟨first, read⟩ := Execution.called base
    ((congrArg (fun system => system.threads 1) reached).trans misread.done)
  have continues : Steps channel processes (base.systems index) final := by
    rw [reached]
    exact (Steps.finish misread.done).trans steps
  obtain ⟨extended, index₁, ordered₁, reached₁, same₁⟩ := base.extend continues
  -- the reader, still attached, reads again
  obtain rfl : w'.file = file := named
  obtain ⟨execution, r', reply', first', last', index₂, after, reads, attached, -, early, late, since,
    state, reached₂, same₂, -⟩ := Execution.serve_read extended reached₁ idle fitted offers
      (eval_readerSync_attached misread.attached fitted.active) misread.attached reader
  have read := (read.transport (Nat.le_refl _) same₁).transport ordered₁ same₂
  have spans := reads.call.ordered
  have disk : after.disk = final.state.disk := by
    rw [← state, reads.disk, since]
  have publishes : (execution.world index₂).disk.publishes =
      system.state.disk.publishes ++ [publish] := by
    rw [Execution.world, reached₂, System.set_state, disk]
    exact history
  have bounded : ∀ {file first last position}, execution.Offers file first last position →
      last ≤ index₂ → position ≤ system.state.disk.publishes.length := by
    rintro _ _ _ _ ⟨instant, _, -, upper, latest⟩ before
    have inside := lastIndex_lt latest.last
    have grows := (@Execution.evolves execution _ _ (Nat.le_trans upper before)).publishes.length_le
    rw [publishes, List.length_append, List.length_singleton] at grows
    omega
  obtain ⟨value, reports, reports'⟩ := claim execution index₂
    ⟨⟨_, _, read, misread.attached⟩, trivial, .inl misread.ok⟩
    ⟨⟨_, _, reads.call, attached⟩, trivial, .inl reads.code⟩ (by omega) late trivial trivial
    (fun {_ _} offers offers' => by
      rw [publishes]
      exact .of_zeros misread.zeros based misread.total
        (Nat.max_le.mpr ⟨bounded offers (by omega), bounded offers' late⟩))
    (misread.generation.trans reads.generation.symm)
  have payload := reports.payload (fun peeks => by cases peeks) misread.ok
  have payload' := reports'.payload (fun peeks => by cases peeks) reads.code
  obtain ⟨info, given, shows⟩ := reports'.info
  have length := reads.length
  rw [given, Option.map_some, Option.some.injEq, shows.length] at length
  rw [misread.copied, length] at payload
  rw [reads.buffer, length] at payload'
  exact absurd (payload.trans payload'.symm) (by decide)

end PsMsgr
