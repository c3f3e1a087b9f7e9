import PsMsgr.Host.World

namespace PsMsgr

open Effect Data

/-! # A process that nobody disturbs

While nobody writes, what a read-only call replies is determined by the files alone,
as long as the system grants it.
-/

/-- The call did not fail for a reason of its own. -/
def Sys.Granted : (request : Sys) → request.Reply → Prop
  | .openLockNew, reply | .openLock, reply => reply ≠ .error .other
  | .fchmodLock _ _, reply | .setLock _, reply | .unlinkLock, reply => reply ≠ .error .other
  | .getLock _, reply => reply ≠ .error .other
  | .fstatLock _, reply | .lstatLock, reply => reply ≠ .error .other
  | .mkostemp, reply => reply ≠ .error .other
  | .unlinkTmp _, reply | .renameTmp _, reply | .unlinkData, reply => reply ≠ .error .other
  | .openData, reply | .lstatData, reply => reply ≠ .error .other
  | .fstat _, reply => reply ≠ .error .other
  | .fchmod _ _, reply | .fallocate _ _, reply | .mmap _ _, reply => reply ≠ .error .other
  | .pread _ _ _, reply => reply ≠ .error .other
  | .futexWait _ _ _, reply => reply ≠ .error .other
  | .malloc, reply => reply = true
  | _, _ => True

def execGranted (thread : Tid) (request : Sys) (before : World) (reply : request.Reply)
    (after : World) : Prop :=
  exec thread request before reply after ∧ request.Granted reply

/-- The reply to a call that only looks at the files. -/
def Disk.answer (disk : Disk) : (request : Sys) → Option request.Reply
  | .openData | .lstatData => some (match disk.data with
      | some file => .ok file
      | none => .error .enoent)
  | .fstat file => some (.ok ⟨(disk.files file).regular, (disk.files file).size⟩)
  | .pread file offset count => some (.ok ((disk.memory file).read offset
      (min count ((disk.files file).size - offset))))
  | .mmap _ _ => some (.ok ())
  | .munmap _ | .close _ | .schedYield => some ()
  | .load file offset => some ((disk.memory file).word32 offset)
  | .loadByte file offset => some (disk.memory file offset)
  | _ => none

theorem not_refused {bytes : Option (List UInt8)} {len : UInt32} (given : bytes = none → len = 0) :
    ¬ (bytes.isNone && decide (len ≠ 0)) = true := by
  intro refused
  simp only [Bool.and_eq_true, Option.isNone_iff_eq_none, decide_eq_true_eq] at refused
  exact refused.2 (given refused.1)

theorem ok_ne_other {α : Type} (value : α) : (.ok value : Except Errno α) ≠ .error .other := nofun

theorem granted_ok {α : Type} {value : α} {reply : Except Errno α} {before after : World}
    (happened : ((reply = .ok value ∧ after = before) ∨ Failed reply before after) ∧
      reply ≠ .error .other) : reply = .ok value ∧ after = before := by
  obtain ⟨done | ⟨failed, -⟩, granted⟩ := happened
  · exact done
  · exact absurd failed granted

/-- Such a call always has this reply, and leaves the files and the time as they are. -/
theorem execGranted_answer {thread : Tid} {disk : Disk} {now : UInt64} {request : Sys}
    {reply : request.Reply} {world : World} (answered : disk.answer request = some reply)
    (same : world.disk = disk ∧ world.now = now) :
    (∃ after, execGranted thread request world reply after) ∧
      ∀ other after, execGranted thread request world other after →
        other = reply ∧ after.disk = disk ∧ after.now = now := by
  obtain ⟨rfl, rfl⟩ := same
  cases request with
  | openData =>
      obtain rfl := Option.some.inj answered
      cases named : world.disk.data with
      | none =>
          refine ⟨⟨_, .inr (.inl ⟨named, rfl, rfl⟩), nofun⟩, fun other after happened => ?_⟩
          obtain ⟨⟨file, here, -⟩ | ⟨-, rfl, rfl⟩ | ⟨failed, -⟩, granted⟩ := happened
          · exact nomatch named.symm.trans here
          · exact ⟨rfl, rfl, rfl⟩
          · exact absurd failed granted
      | some file =>
          refine ⟨⟨_, .inl ⟨file, named, rfl, rfl⟩, nofun⟩, fun other after happened => ?_⟩
          obtain ⟨⟨file', here, rfl, rfl⟩ | ⟨gone, -, -⟩ | ⟨failed, -⟩, granted⟩ := happened
          · obtain rfl := Option.some.inj (named.symm.trans here)
            exact ⟨rfl, rfl, rfl⟩
          · exact nomatch named.symm.trans gone
          · exact absurd failed granted
  | lstatData =>
      obtain rfl := Option.some.inj answered
      cases named : world.disk.data with
      | none =>
          refine ⟨⟨_, .inr (.inl ⟨named, rfl, rfl⟩), nofun⟩, fun other after happened => ?_⟩
          obtain ⟨⟨file, here, -⟩ | ⟨-, rfl, rfl⟩ | ⟨failed, -⟩, granted⟩ := happened
          · exact nomatch named.symm.trans here
          · exact ⟨rfl, rfl, rfl⟩
          · exact absurd failed granted
      | some file =>
          refine ⟨⟨_, .inl ⟨file, named, rfl, rfl⟩, nofun⟩, fun other after happened => ?_⟩
          obtain ⟨⟨file', here, rfl, rfl⟩ | ⟨gone, -, -⟩ | ⟨failed, -⟩, granted⟩ := happened
          · obtain rfl := Option.some.inj (named.symm.trans here)
            exact ⟨rfl, rfl, rfl⟩
          · exact nomatch named.symm.trans gone
          · exact absurd failed granted
  | fstat file =>
      obtain rfl := Option.some.inj answered
      refine ⟨⟨_, .inl ⟨rfl, rfl⟩, nofun⟩, fun other after happened => ?_⟩
      obtain ⟨rfl, rfl⟩ := granted_ok happened
      exact ⟨rfl, rfl, rfl⟩
  | pread file offset count =>
      obtain rfl := Option.some.inj answered
      refine ⟨⟨_, .inl ⟨rfl, rfl⟩, nofun⟩, fun other after happened => ?_⟩
      obtain ⟨rfl, rfl⟩ := granted_ok happened
      exact ⟨rfl, rfl, rfl⟩
  | mmap file size =>
      obtain rfl := Option.some.inj answered
      refine ⟨⟨_, .inl ⟨rfl, rfl⟩, nofun⟩, fun other after happened => ?_⟩
      obtain ⟨rfl, rfl⟩ := granted_ok happened
      exact ⟨rfl, rfl, rfl⟩
  | munmap file | close file | schedYield =>
      refine ⟨⟨_, rfl, trivial⟩, fun other after happened => ?_⟩
      obtain ⟨rfl, -⟩ := happened
      exact ⟨rfl, rfl, rfl⟩
  | load file offset =>
      obtain rfl := Option.some.inj answered
      refine ⟨⟨_, ⟨rfl, rfl⟩, trivial⟩, fun other after happened => ?_⟩
      obtain ⟨⟨rfl, rfl⟩, -⟩ := happened
      exact ⟨rfl, rfl, rfl⟩
  | loadByte file offset =>
      obtain rfl := Option.some.inj answered
      refine ⟨⟨_, ⟨rfl, rfl⟩, trivial⟩, fun other after happened => ?_⟩
      obtain ⟨⟨rfl, rfl⟩, -⟩ := happened
      exact ⟨rfl, rfl, rfl⟩
  | _ => exact nomatch answered

theorem ends_of_answer {α : Type} {total : Prop} {thread : Tid} {disk : Disk} {now : UInt64}
    {program : Prog α} {value : α} {world : World}
    (evaluates : program.eval disk.answer = some value)
    (same : world.disk = disk ∧ world.now = now) :
    program.Ends total (execGranted thread)
      (fun result after => result = value ∧ after.disk = disk ∧ after.now = now) world :=
  Program.ends_of_eval execGranted_answer evaluates same

end PsMsgr
