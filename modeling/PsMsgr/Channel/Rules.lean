import PsMsgr.Channel.Guarantee

namespace PsMsgr

open Effect Discipline

variable {thread : Tid} {fd : Fd} {before after : World}

/-- The thread is in no critical section and holds nothing. -/
structure Outside (thread : Tid) (world : World) : Prop where
  crit : world.crit thread = none
  asleep : world.asleep thread = none
  fds : ∀ {fd descriptor}, world.fds fd = some descriptor → descriptor.owner ≠ thread

/-- The thread has the lock file open, and nothing else. -/
structure Opened (thread : Tid) (fd : Fd) (ino : Ino) (locked : Bool) (world : World) : Prop where
  crit : world.crit thread = none
  asleep : world.asleep thread = none
  opened : world.fds fd = some ⟨thread, ino, locked⟩
  fds : ∀ {other descriptor}, world.fds other = some descriptor →
    descriptor.owner = thread → other = fd

/-- The thread is in its critical section, and the assertion holds of the files, of what
it owes and of the value it found when it opened the data path. -/
structure Inside (thread : Tid) (fd : Fd) (assertion : Disk → Marks → Option Nat → Prop)
    (world : World) : Prop where
  crit : world.crit thread = some fd
  asleep : world.asleep thread = none
  fds : ∀ {other descriptor}, world.fds other = some descriptor →
    descriptor.owner = thread → other = fd
  holds : assertion world.disk (world.marks thread) (world.log thread).found

theorem Rely.awake (rely : Rely thread before after) (awake : before.asleep thread = none) :
    after.asleep thread = none := by
  rcases rely.asleep with same | woken
  · exact same.trans awake
  · exact woken

theorem Outside.stable : channel.Stable thread (Outside thread) := by
  intro before after outside rely _
  change Rely thread before after at rely
  refine ⟨rely.crit.trans outside.crit, rely.awake outside.asleep, ?_⟩
  intro fd descriptor opened own
  exact outside.fds ((rely.fds fd descriptor own).mp opened) own

theorem Opened.stable {ino : Ino} {locked : Bool} :
    channel.Stable thread (Opened thread fd ino locked) := by
  intro before after opened rely _
  change Rely thread before after at rely
  refine ⟨rely.crit.trans opened.crit, rely.awake opened.asleep,
    (rely.fds fd _ rfl).mpr opened.opened, ?_⟩
  intro other descriptor here own
  exact opened.fds ((rely.fds other descriptor own).mp here) own

theorem Inside.ne_none {assertion : Disk → Marks → Option Nat → Prop}
    (inside : Inside thread fd assertion before) : before.crit thread ≠ none := by
  rw [inside.crit]
  exact Option.some_ne_none fd

/-- In its critical section a thread need not fear interference. -/
theorem Inside.stable {assertion : Disk → Marks → Option Nat → Prop} :
    channel.Stable thread (Inside thread fd assertion) := by
  intro before after inside rely _
  change Rely thread before after at rely
  refine ⟨rely.crit.trans inside.crit, rely.awake inside.asleep, ?_, ?_⟩
  · intro other descriptor here own
    exact inside.fds ((rely.fds other descriptor own).mp here) own
  · rw [(rely.frozen inside.ne_none).2, rely.marks, rely.log]
    exact inside.holds

/-- The thread has published nothing yet. -/
def Unpublished (thread : Tid) (world : World) : Prop :=
  ∀ publish ∈ world.disk.publishes, publish.writer ≠ thread

theorem Unpublished.stable : channel.Stable thread (Unpublished thread) :=
  fun _ _ unpublished rely _ => Rely.unpublished rely unpublished

theorem stable_and {left right : World → Prop} (first : channel.Stable thread left)
    (second : channel.Stable thread right) :
    channel.Stable thread (fun world => left world ∧ right world) :=
  fun before after holds rely inv =>
    ⟨first before after holds.1 rely inv, second before after holds.2 rely inv⟩

theorem stable_or {left right : World → Prop} (first : channel.Stable thread left)
    (second : channel.Stable thread right) :
    channel.Stable thread (fun world => left world ∨ right world) :=
  fun before after holds rely inv =>
    holds.imp (first before after · rely inv) (second before after · rely inv)

theorem stable_exists {α : Type} {assertion : α → World → Prop}
    (each : ∀ value, channel.Stable thread (assertion value)) :
    channel.Stable thread (fun world => ∃ value, assertion value world) :=
  fun before after ⟨value, holds⟩ rely inv => ⟨value, each value before after holds rely inv⟩

theorem stable_pure {fact : Prop} : channel.Stable thread (fun _ => fact) :=
  fun _ _ holds _ _ => holds

theorem triple_passive {request : Sys} {pre : World → Prop} {post : request.Reply → World → Prop}
    (passive : request.Passive) (stable : ∀ reply, channel.Stable thread (post reply))
    (tells : ∀ {world reply}, Inv world → pre world → exec thread request world reply world →
      post reply world) :
    channel.Triple thread pre (call request) post := by
  refine Triple.call stable ?_
  intro state reply after inv holds executed
  obtain rfl := exec_passive passive executed
  exact ⟨guarantee_same inv, tells inv holds executed⟩

theorem triple_skip (request : Sys) {pre : World → Prop} (passive : request.Passive)
    (stable : channel.Stable thread pre) :
    channel.Triple thread pre (call request) (fun _ => pre) :=
  triple_passive passive (fun _ => stable) (fun _ holds _ => holds)

theorem triple_spin {pre : World → Prop} :
    channel.Triple thread pre (call .spin) (fun _ _ => False) := by
  refine Triple.call (fun reply => reply.elim) ?_
  intro state reply
  exact reply.elim

theorem quiet_clock {reply : UInt64}
    (executed : exec thread (.clock .monotonic) before reply after) : Quiet thread before after := by
  obtain ⟨later, rfl⟩ := executed
  exact ⟨rfl, rfl, rfl, rfl, rfl, rfl, fun _ _ => rfl, fun _ _ => rfl, later, .inl rfl, id⟩

theorem quiet_openData {reply : Sys.Reply .openData}
    (executed : exec thread .openData before reply after) :
    Quiet thread before after ∧ after.asleep = before.asleep ∧
      (after.log thread).sampled = (before.log thread).sampled := by
  have noted : ∀ found, Quiet thread before
      (before.setLog thread { before.log thread with found := found }) ∧
      ((before.setLog thread { before.log thread with found := found }).log thread).sampled =
        (before.log thread).sampled := by
    intro found
    have own : (before.setLog thread { before.log thread with found := found }).log thread =
        { before.log thread with found := found } := Function.update_self _ _ _
    refine ⟨⟨rfl, rfl, rfl, rfl, rfl, rfl, fun other distinct => Function.update_of_ne distinct _ _,
      fun _ _ => rfl, UInt64.le_refl _, .inl ?_, ?_⟩, ?_⟩
    · rw [own]
    · rw [own]
      exact id
    · rw [own]
  rcases executed with ⟨file, -, -, rfl⟩ | ⟨-, -, rfl⟩ | ⟨-, rfl⟩
  · exact ⟨(noted _).1, rfl, (noted _).2⟩
  · exact ⟨(noted _).1, rfl, (noted _).2⟩
  · exact ⟨Quiet.refl _ _, rfl, rfl⟩

theorem Quiet.guarantee_awake (quiet : Quiet thread before after) (inv : Inv before)
    (awake : after.asleep thread = none) : channel.Guarantee thread before after :=
  quiet.guarantee inv (fun file sleeps => by rw [awake] at sleeps; exact nomatch sleeps)

theorem Quiet.outside (quiet : Quiet thread before after)
    (awake : after.asleep thread = none) (outside : Outside thread before) :
    Outside thread after := by
  refine ⟨?_, awake, ?_⟩
  · rw [quiet.crit]
    exact outside.crit
  · rw [quiet.fds]
    exact outside.fds

theorem triple_pathsInit {pre : World → Prop} {environment dir : Option (List Char)}
    {name : List Char} (stable : channel.Stable thread pre) :
    channel.Triple thread pre (pathsInit environment dir name) (fun _ => pre) := by
  refine (triple_skip .malloc trivial stable).bind fun enough => ?_
  cases enough with
  | true => exact Triple.done (fun _ holds => holds)
  | false => exact Triple.done (fun _ holds => holds)

/-- A complete file with this header and size; neither ever changes. -/
structure Known (file : FileId) (h : Header) (size : Nat) (world : World) : Prop where
  installed : world.disk.installed file = true
  header : Header.ofMemory (world.disk.memory file) = h
  size : (world.disk.files file).size = size

variable {file : FileId} {h : Header} {size : Nat}

theorem Known.of_evolves (known : Known file h size before)
    (evolves : before.disk.Evolves after.disk) : Known file h size after := by
  have image := evolves.image known.installed
  exact ⟨evolves.installed known.installed,
    (Header.ofMemory_congr image.header).trans known.header, image.size.trans known.size⟩

theorem Known.stable : channel.Stable thread (Known file h size) :=
  fun _ _ known rely _ => known.of_evolves (Rely.disk rely)

theorem Known.valid (known : Known file h size before) (inv : Inv before) :
    headerValid h size = true ∧ (before.disk.files file).regular = true := by
  obtain ⟨g, valid⟩ := inv.disk.valid known.installed
  rw [← known.header, ← known.size]
  exact ⟨valid.header, valid.regular⟩

theorem triple_readHeader {pre : World → Prop} (stable : channel.Stable thread pre) :
    channel.Triple thread (fun world => pre world ∧ Known file h size world) (readHeader file)
      (fun result world => (pre world ∧ Known file h size world) ∧
        (result.1 = .sys ∨ result = (.ok, size, h))) := by
  have both : channel.Stable thread (fun world => pre world ∧ Known file h size world) :=
    stable_and stable Known.stable
  have stat : channel.Triple thread (fun world => pre world ∧ Known file h size world)
      (call (.fstat file))
      (fun reply world => (pre world ∧ Known file h size world) ∧
        ((∃ err, reply = .error err) ∨ (reply = .ok ⟨true, size⟩ ∧ headerValid h size = true))) := by
    refine triple_passive trivial (fun _ => stable_and both stable_pure) ?_
    intro world reply inv holds executed
    refine ⟨holds, ?_⟩
    rcases executed with ⟨rfl, -⟩ | ⟨rfl, -⟩
    · have valid := holds.2.valid inv
      rw [valid.2, holds.2.size]
      exact .inr ⟨rfl, valid.1⟩
    · exact .inl ⟨_, rfl⟩
  unfold readHeader
  refine stat.bind fun reply => ?_
  intro world inv holds
  obtain ⟨holds, ⟨err, rfl⟩ | ⟨rfl, valid⟩⟩ := holds
  · exact ⟨inv, holds, .inl rfl⟩
  · have large := headerValid_size valid
    have enough : ¬ ((!true || decide (size < psmiHeaderSize.toNat)) = true) := by
      simp only [Bool.not_true, Bool.false_or, decide_eq_true_eq]
      exact Nat.not_lt.mpr large
    simp only [if_neg enough]
    have read : channel.Triple thread (fun world => pre world ∧ Known file h size world)
        (call (.pread file 0 psmiHeaderSize.toNat))
        (fun reply world => (pre world ∧ Known file h size world) ∧
          ((∃ err, reply = .error err) ∨
            ∃ bytes, reply = .ok bytes ∧ bytes.length = psmiHeaderSize.toNat ∧
              Header.ofBytes bytes = h)) := by
      refine triple_passive trivial (fun _ => stable_and both stable_pure) ?_
      intro world reply inv holds executed
      refine ⟨holds, ?_⟩
      rcases executed with ⟨rfl, -⟩ | ⟨rfl, -⟩
      · refine .inr ⟨_, rfl, ?_⟩
        have whole : min psmiHeaderSize.toNat ((world.disk.files file).size - 0) = 128 := by
          rw [holds.2.size, Nat.sub_zero]
          exact Nat.min_eq_left large
        rw [whole]
        exact ⟨Data.Memory.read_length, (Header.ofBytes_read _).trans holds.2.header⟩
      · exact .inl ⟨_, rfl⟩
    refine (read.bind fun reply => ?_) world inv holds
    intro world inv holds
    obtain ⟨holds, ⟨err, rfl⟩ | ⟨bytes, rfl, length, same⟩⟩ := holds
    · exact ⟨inv, holds, .inl rfl⟩
    · simp only [if_pos length]
      exact ⟨inv, holds, .inr (by rw [same])⟩

end PsMsgr
