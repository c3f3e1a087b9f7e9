import PsMsgr.Channel.Vacancy
import PsMsgr.Properties.Linearizability

namespace PsMsgr

open Effect Data

/-! # Timestamps

A commit reads the clock when the slot is its own and before it stores `latest`, and nobody else
publishes in between.
-/

theorem publish_stamped {thread : Tid} {fd : Fd} {w : Writer} {g : Geometry}
    {publishes : List Publish} {memory : Memory} {before after : World}
    (inside : Inside thread fd (Committed thread w g publishes memory) before)
    (executed : exec thread (.store w.file Offset.latest (psmiLatest w.openSlot (w.openSeq + 2)))
      before () after) :
    ∃ publish, after.disk.publishes = publishes ++ [publish] ∧
      publish.timestampNs = memory.word64 (writerSlot w w.openSlot + Offset.timestampNs) := by
  obtain ⟨-, attached, slot, -, -, -, history, window⟩ := inside.holds
  have address : writerSlot w w.openSlot = g.slot ((before.disk.image w.file).next g) := by
    rw [slot]
    exact attached.writerSlot_eq Image.next_lt
  have holds : Holds (before.disk.memory w.file) (g.slot ((before.disk.image w.file).next g))
      (Publish.snapshot w.file thread (before.log thread).found _
        (psmiLatest _ (w.openSeq + 2))) :=
    Disk.snapshot_holds attached.valid.shape Image.next_lt
  rw [← slot, ← address] at holds
  obtain rfl : after = _ := executed
  refine ⟨_, congrArg (· ++ _) history, holds.timestampNs.symm.trans ?_⟩
  exact Memory.word64_congr (window _ _ (Nat.add_le_add_left (by decide) _))

theorem Disk.Latest.timestamp_le {disk later : Disk} {file : FileId} {index index' : Nat}
    {publish publish' : Publish} (latest : disk.Latest file index publish)
    (latest' : later.Latest file index' publish') (grows : disk.publishes <+: later.publishes)
    (ordered : later.publishes.Pairwise (·.timestampNs ≤ ·.timestampNs)) :
    publish.timestampNs ≤ publish'.timestampNs := by
  obtain ⟨newest, found, after⟩ := lastIndex_mono grows latest.last
  obtain rfl : newest = index' := Option.some.inj (found.symm.trans latest'.last)
  have known := getElem?_of_grows grows latest.here
  rcases Nat.lt_or_eq_of_le after with older | rfl
  · obtain ⟨short, here⟩ := List.getElem?_eq_some_iff.mp known
    obtain ⟨short', here'⟩ := List.getElem?_eq_some_iff.mp latest'.here
    rw [← here, ← here']
    exact List.pairwise_iff_getElem.mp ordered _ _ short short' older
  · obtain rfl : publish = publish' := Option.some.inj (known.symm.trans latest'.here)
    exact UInt64.le_refl _

namespace Execution

variable {execution : Execution} {thread : Tid} {fd : Fd} {first last : Nat} {w : Writer}
  {g : Geometry} {publishes : List Publish} {made : Sys}

/-- At `last` the thread is about to publish a slot it has stamped with the time since `first`;
nothing has been published in between. -/
structure Stamps (execution : Execution) (thread : Tid) (made : Sys) (first last : Nat)
    (w : Writer) (g : Geometry) (memory : Memory) (clocked : Nat) : Prop where
  lower : first ≤ clocked
  upper : clocked < last
  made : made = .store w.file Offset.latest (psmiLatest w.openSlot (w.openSeq + 2))
  advanced : (execution.world clocked).now ≤ (execution.world (clocked + 1)).now
  stamp : memory.word64 (writerSlot w w.openSlot + Offset.timestampNs) =
    (execution.world (clocked + 1)).now
  inside : Inside thread w.lockFd
    (Committed thread w g (execution.world clocked).disk.publishes memory) (execution.world last)

theorem Stamps.widen {start : Nat} {memory : Memory} {clocked : Nat}
    (stamps : execution.Stamps thread made start last w g memory clocked) (earlier : first ≤ start) :
    execution.Stamps thread made first last w g memory clocked :=
  { stamps with lower := Nat.le_trans earlier stamps.lower }

theorem of_commitSlot {memory : Memory} {len : UInt32} {continued : made.Reply → Prog (UInt32 × Writer)}
    (advances : execution.Advances thread (commitSlot w len) first (.call made continued) last)
    (publishing : made.StoresLatest)
    (filling : Inside thread w.lockFd (Filling thread w g publishes memory)
      (execution.world first)) :
    ∃ memory clocked, execution.Stamps thread made first last w g memory clocked := by
  have room := g.stride_ge
  have never : ¬made.Unseen := not_not.mpr publishing
  unfold commitSlot at advances
  obtain ⟨_, second, -, generation, advances⟩ := advances.past (storeBytes_unseen _ _ _) never
  replace filling := ends generation (triple_fill (by decide) (by
    rw [Memory.bytes32_length]
    simp only [Offset.generation]
    omega)) filling
  obtain ⟨_, clocked, -, length, advances⟩ := advances.past (storeBytes_unseen _ _ _) never
  replace filling := ends length (triple_fill (by decide) (by
    rw [Memory.bytes32_length]
    simp only [Offset.length]
    omega)) filling
  obtain rfl := filling.holds.publishes
  obtain ⟨timestamp, third, -, clock, advances⟩ :=
    advances.past (Program.Always.perform id) never
  obtain ⟨⟨advanced, later⟩, rests⟩ := clock.of_perform
  have now : (execution.world (clocked + 1)).now = timestamp := congrArg World.now later
  replace filling := ends clock triple_clock filling
  obtain ⟨_, fourth, -, stamping, advances⟩ := advances.past (storeBytes_unseen _ _ _) never
  replace filling := ends stamping (triple_fill (by decide) (by
    rw [Memory.bytes64_length]
    simp only [Offset.timestampNs]
    omega)) filling
  obtain ⟨_, fifth, -, commit, advances⟩ :=
    advances.past (storeSlot_unseen w _ _) never
  have committed := ends commit triple_commitSeq filling
  have told : ∀ _ : Unit, (do
      let w := { w with latest := w.openSlot, openSlot := psmiLatestNone }
      if w.notify then
        let _ ← call (.fetchAdd w.file Offset.notify 1)
        call (.futexWake w.file)
      return (w.gen, { w with gen := nextGeneration w.gen })
      : Prog (UInt32 × Writer)).Always Sys.Unseen (fun _ => True) := by
    intro _
    dsimp only
    split
    · exact (Program.Always.perform id).bind fun _ _ => (Program.Always.perform id).bind
        fun _ _ => trivial
    · trivial
  obtain ⟨made, rfl⟩ := advances.at_perform told never
  rw [← now] at advanced
  refine ⟨_, clocked, ?_, ?_, made, advanced, ?_, committed⟩
  · exact Nat.le_trans generation.ordered length.ordered
  · exact Nat.lt_of_lt_of_le rests.1 (Nat.le_trans stamping.ordered commit.ordered)
  · rw [now]
    exact Memory.word64_of_read Memory.read_write

theorem of_writer {request : Request} {continued : made.Reply → Prog (Handle × Result)}
    (accepted : (Handle.writer w).accepts request)
    (owns : (Handle.writer w).Owns thread (execution.world first))
    (advances : execution.Advances thread ((Handle.writer w).program request) first
      (.call made continued) last) (publishing : made.StoresLatest) :
    ∃ w g memory clocked, execution.Stamps thread made first last w g memory clocked := by
  have never : ¬made.Unseen := not_not.mpr publishing
  -- the other requests do not store `latest`
  have unseen : ((Handle.writer w).program request).Always Sys.Unseen (fun _ => True) →
      ∃ w g memory clocked, execution.Stamps thread made first last w g memory clocked :=
    fun always => absurd (advances.always always).1 never
  obtain ⟨g, ready, stage⟩ := owns.holds
  cases request with
  | publish data len =>
      obtain ⟨part, advances⟩ := advances.of_final fun _ => ⟨_, rfl⟩
      unfold psmsgrStatePublish at advances
      split at advances
      · exact nomatch advances.of_done.1
      split at advances
      · exact nomatch advances.of_done.1
      split at advances
      · exact nomatch advances.of_done.1
      next fits =>
      obtain ⟨begun, second, -, begins, advances⟩ := advances.past (beginSlot_unseen w) never
      have filling := ends begins triple_beginSlot ⟨owns.crit, owns.asleep, owns.fds, ready⟩
      obtain ⟨⟨openSlot, openSeq, rfl⟩, memory, filled⟩ := filling.holds
      obtain ⟨_, third, -, copies, advances⟩ := advances.past (storeBytes_unseen _ _ _) never
      have copied := ends copies (triple_fill (by decide) (by
        have short := List.length_take_le len.toNat (data.getD [])
        have room := g.stride_bounds.1
        have capacity : w.capacity = g.capacity := ready.attached.capacity
        have small : len.toNat ≤ w.capacity.toNat :=
          Nat.le_of_not_lt (fun large => fits (UInt32.lt_iff_toNat_lt.mpr large))
        rw [capacity] at small
        simp only [Offset.payload]
        omega)) ⟨filling.crit, filling.asleep, filling.fds, filled⟩
      obtain ⟨part, advances⟩ := advances.of_final fun _ => ⟨_, rfl⟩
      obtain ⟨memory, clocked, stamps⟩ := of_commitSlot advances publishing copied
      exact ⟨_, g, memory, clocked, stamps.widen (Nat.le_trans begins.ordered copies.ordered)⟩
  | commit len =>
      obtain ⟨part, advances⟩ := advances.of_final fun _ => ⟨_, rfl⟩
      unfold psmsgrStateCommit at advances
      split at advances
      · exact nomatch advances.of_done.1
      next opened =>
      split at advances
      · exact nomatch advances.of_done.1
      obtain ⟨part, advances⟩ := advances.of_final fun _ => ⟨_, rfl⟩
      have begun := stage.resolve_left opened
      obtain ⟨memory, clocked, stamps⟩ := of_commitSlot advances publishing ⟨owns.crit, owns.asleep,
        owns.fds, ready.idle, ready.attached, begun, ready.session, ready.publishes, rfl⟩
      exact ⟨w, g, memory, clocked, stamps⟩
  | begin =>
      have begins : (psmsgrStateBegin w).Always Sys.Unseen (fun _ => True) := by
        unfold psmsgrStateBegin
        split
        · trivial
        · exact (beginSlot_unseen w).bind fun _ _ => trivial
      exact unseen (begins.bind fun _ _ => trivial)
  | storeBuffer index byte =>
      exact unseen ((Program.Always.perform id).bind fun _ _ => trivial)
  | abort => exact unseen ((Stores.psmsgrStateAbort w).bind fun _ _ => trivial)
  | writerClose =>
      exact unseen ((Program.Always.perform id).bind fun _ _ =>
        (Program.Always.perform id).bind fun _ _ => trivial)
  | _ => exact accepted.elim

/-- What is published at `last` bears the time of an instant since when nothing else has been. -/
structure Dated (execution : Execution) (last clocked : Nat) (publish : Publish) : Prop where
  before : clocked < last
  since : (execution.world clocked).disk.publishes = (execution.world last).disk.publishes
  lower : (execution.world clocked).now ≤ publish.timestampNs
  upper : publish.timestampNs ≤ (execution.world last).now
  published : (execution.world (last + 1)).disk.publishes =
    (execution.world last).disk.publishes ++ [publish]

theorem dated (execution : Execution) (index : Nat) :
    (execution.world (index + 1)).disk.publishes = (execution.world index).disk.publishes ∨
      ∃ clocked publish, execution.Dated index clocked publish := by
  cases execution.acts (fun _ => ⟨Handle.fresh, rfl⟩) index with
  | rests same => exact .inl (congrArg (·.disk.publishes) same)
  | starts thread request started =>
      refine .inl ?_
      rw [world, started]
      exact congrArg Disk.publishes (takeUp_disk request)
  | dies thread crashed =>
      refine .inl ?_
      rw [world, crashed]
      rfl
  | @calls thread handle request first made next reply serves left executed =>
      by_cases publishing : made.StoresLatest
      · obtain ⟨start, finish, before, after, advances⟩ := serves.advances left
        have owns := owns_served serves
        by_cases other : ∀ w, handle ≠ .writer w
        · have unpublished := (advances.always (program_unpublished serves.accepted other)).1
          cases made with
          | store file offset value => exact absurd trivial unpublished
          | _ => exact publishing.elim
        obtain ⟨w, rfl⟩ := not_forall_not.mp other
        obtain ⟨w, g, memory, clocked, stamps⟩ := of_writer serves.accepted
          (rested before Inside.stable owns) advances publishing
        obtain rfl := stamps.made
        have inside := rested after Inside.stable stamps.inside
        obtain ⟨publish, grown, stamp⟩ := publish_stamped inside executed
        have same := inside.holds.publishes
        refine .inr ⟨clocked, publish, ?_, same.symm, ?_, ?_, ?_⟩
        · exact Nat.lt_of_lt_of_le stamps.upper after.1
        · rw [stamp, stamps.stamp]
          exact stamps.advanced
        · rw [stamp, stamps.stamp]
          exact now_mono (Nat.le_trans stamps.upper after.1)
        · rw [same]
          exact grown
      · exact .inl (exec_unseen executed publishing)

/-- The publishes bear times in order, none of them yet to come. -/
theorem publishes_dated (execution : Execution) (index : Nat) :
    (execution.world index).disk.publishes.Pairwise (·.timestampNs ≤ ·.timestampNs) ∧
      ∀ publish ∈ (execution.world index).disk.publishes,
        publish.timestampNs ≤ (execution.world index).now := by
  induction index using Nat.strong_induction_on with
  | _ index ih =>
  cases index with
  | zero =>
      rw [world, execution.first]
      exact ⟨List.Pairwise.nil, fun _ known => absurd known List.not_mem_nil⟩
  | succ index =>
      obtain ⟨ordered, past⟩ := ih index (Nat.lt_succ_self index)
      have later : (execution.world index).now ≤ (execution.world (index + 1)).now :=
        now_mono (Nat.le_succ index)
      rcases execution.dated index with same | ⟨clocked, publish, dated⟩
      · rw [same]
        exact ⟨ordered, fun publish known => UInt64.le_trans (past publish known) later⟩
      · -- what was there when the clock was read is not younger than that
        have older : ∀ earlier ∈ (execution.world index).disk.publishes,
            earlier.timestampNs ≤ publish.timestampNs := by
          intro earlier known
          rw [← dated.since] at known
          exact UInt64.le_trans ((ih clocked (Nat.lt_succ_of_lt dated.before)).2 earlier known)
            dated.lower
        rw [dated.published]
        refine ⟨List.pairwise_append.mpr ⟨ordered, List.pairwise_singleton _ _, ?_⟩, ?_⟩
        · intro earlier known other new
          rw [List.mem_singleton.mp new]
          exact older earlier known
        · intro other known
          rcases List.mem_append.mp known with old | new
          · exact UInt64.le_trans (past other old) later
          · rw [List.mem_singleton.mp new]
            exact UInt64.le_trans dated.upper later

/-- A read or peek returns a value from the file. -/
structure Shown (execution : Execution) (thread : Tid) (file : FileId) (info : Info)
    (first last : Nat) (r r' : Reader) (request : Request) (reply : ReadReply) : Prop where
  call : execution.Called thread (.reader r) request (.reader r', .read reply) first last
  reads : request.Reads
  unwrapped : ((execution.world last).log thread).wrapped = false
  read : reply.code = .ok ∨ reply.code = .toosmall
  attached : r'.file = some file
  info : reply.info = some info

theorem Shown.latest {file : FileId} {info : Info} {r r' : Reader} {request : Request}
    {reply : ReadReply} (shown : execution.Shown thread file info first last r r' request reply) :
    ∃ instant index publish, first ≤ instant ∧ instant ≤ last ∧
      (execution.world instant).disk.Latest file index publish ∧
      info.timestampNs = publish.timestampNs := by
  obtain ⟨instant, other, index, publish, lower, upper, attached, latest, reports⟩ :=
    read_latest shown.call shown.reads shown.unwrapped shown.read
  obtain ⟨info', returned, shows⟩ := reports.info
  cases shown.attached.symm.trans attached
  cases shown.info.symm.trans returned
  exact ⟨instant, index, publish, lower, upper, latest, shows.timestampNs⟩

end Execution

/-- The timestamps of the publishes never decrease, from writer to writer and from file to file,
and none is later than the clock; so a read never returns a timestamp of the future, nor, of one
file, an earlier one than a read before it did, whoever made that, as long as no slot is committed
2^27 times within one attempt to read it. -/
theorem timestamps_ordered (execution : Execution) :
    (∀ index, (execution.world index).disk.publishes.Pairwise (·.timestampNs ≤ ·.timestampNs) ∧
      ∀ publish ∈ (execution.world index).disk.publishes,
        publish.timestampNs ≤ (execution.world index).now) ∧
    (∀ {thread file info first last r r' request reply},
      execution.Shown thread file info first last r r' request reply →
      info.timestampNs ≤ (execution.world last).now) ∧
    (∀ {thread other file info info' first last first' last' r r' s s' request request' reply reply'},
      execution.Shown thread file info first last r r' request reply →
      execution.Shown other file info' first' last' s s' request' reply' → last ≤ first' →
      info.timestampNs ≤ info'.timestampNs) := by
  refine ⟨execution.publishes_dated, fun {_ _ _ _ _ _ _ _ _} shown => ?_,
    fun {_ _ _ _ _ _ _ _ _ _ _ _ _ _ _ _ _} shown shown' ordered => ?_⟩
  · obtain ⟨instant, index, publish, lower, upper, latest, stamp⟩ := shown.latest
    rw [stamp]
    exact UInt64.le_trans ((execution.publishes_dated instant).2 publish
      (List.mem_of_getElem? latest.here)) (Execution.now_mono upper)
  · obtain ⟨instant, index, publish, lower, upper, latest, stamp⟩ := shown.latest
    obtain ⟨instant', index', publish', lower', upper', latest', stamp'⟩ := shown'.latest
    rw [stamp, stamp']
    exact latest.timestamp_le latest'
      (Execution.evolves (Nat.le_trans upper (Nat.le_trans ordered lower'))).publishes
      (execution.publishes_dated instant').1

end PsMsgr
