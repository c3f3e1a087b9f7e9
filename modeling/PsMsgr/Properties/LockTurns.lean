import PsMsgr.Channel.Acquiring
import PsMsgr.Properties.Retries
import PsMsgr.Properties.WriterAlive

namespace PsMsgr

open Effect

/-- The lock path comes to name an inode only if nobody has it open. -/
theorem exec_lock_fresh {thread : Tid} {request : Sys} {reply : request.Reply}
    {before after : World} {fd : Fd} {descriptor : Descriptor}
    (executed : exec thread request before reply after) (opened : before.fds fd = some descriptor)
    (elsewhere : before.lock ≠ some descriptor.ino) : after.lock ≠ some descriptor.ino := by
  have kept (same : after.lock = before.lock) : after.lock ≠ some descriptor.ino := by
    rw [same]
    exact elsewhere
  cases request with
  | openLockNew =>
      rcases executed with ⟨-, -, rfl⟩ | ⟨-, other, ino, -, unused, -, rfl⟩ | ⟨-, rfl⟩
      · exact elsewhere
      · exact fun same => unused fd descriptor opened (Option.some.inj same).symm
      · exact elsewhere
  | unlinkLock =>
      rcases executed with ⟨-, -, rfl⟩ | ⟨-, -, rfl⟩ | ⟨-, rfl⟩
      · exact nofun
      · exact elsewhere
      · exact elsewhere
  | openLock =>
      rcases executed with ⟨-, -, rfl⟩ | ⟨_, _, -, -, -, rfl⟩ | ⟨-, rfl⟩ <;> exact kept rfl
  | setLock fd =>
      rcases executed with ⟨_, -, -, -, rfl⟩ | ⟨_, _, _, -, -, -, -, -, -, rfl⟩ | ⟨-, rfl⟩ <;>
        exact kept rfl
  | lstatLock =>
      rcases executed with ⟨-, -, rfl⟩ | ⟨_, -, -, ⟨_, -, rfl⟩ | ⟨-, rfl⟩⟩ | ⟨-, rfl⟩ <;>
        exact kept rfl
  | closeLock fd =>
      obtain rfl : after = _ := executed
      refine kept ?_
      split <;> rfl
  | _ => exact kept (exec_lockless executed trivial).1

namespace Execution

variable {execution : Execution} {thread : Tid} {fd : Fd} {ino : Ino} {locked : Bool}
  {first last : Nat}

/-- The step from `index` removes the lock file. -/
def Removed (execution : Execution) (index : Nat) : Prop :=
  (execution.world index).lock ≠ none ∧ (execution.world (index + 1)).lock = none

instance : DecidablePred (Removed execution) := fun _ => inferInstanceAs (Decidable (_ ∧ _))

/-- How often the lock file has been removed. -/
def removals (execution : Execution) (index : Nat) : Nat := Nat.count execution.Removed index

theorem removals_mono (ordered : first ≤ last) :
    execution.removals first ≤ execution.removals last :=
  Nat.count_monotone _ ordered

theorem removals_lt (ordered : first ≤ last) (named : (execution.world first).lock = some ino)
    (changed : (execution.world last).lock ≠ some ino) :
    execution.removals first < execution.removals last := by
  induction ordered with
  | refl => exact absurd named changed
  | @step last ordered ih =>
      by_cases same : (execution.world last).lock = some ino
      · have removed : execution.Removed last := by
          refine ⟨by rw [same]; exact Option.some_ne_none ino, ?_⟩
          rcases execution.lock_next last with kept | absent | absent
          · exact absurd (kept.trans same) changed
          · exact absent
          · exact nomatch same.symm.trans absent
        have counted : execution.removals (last + 1) = execution.removals last + 1 := by
          unfold removals
          rw [Nat.count_succ, if_pos removed]
        change execution.removals first < execution.removals (last + 1)
        rw [counted]
        exact Nat.lt_succ_of_le (removals_mono ordered)
      · exact Nat.lt_of_lt_of_le (ih same) (removals_mono (Nat.le_succ last))

/-- The descriptor is open all the time. -/
def Open (execution : Execution) (fd : Fd) (descriptor : Descriptor) (first last : Nat) : Prop :=
  ∀ index, first ≤ index → index ≤ last → (execution.world index).fds fd = some descriptor

theorem Open.append {descriptor : Descriptor} {middle : Nat}
    (left : execution.Open fd descriptor first middle)
    (right : execution.Open fd descriptor middle last) :
    execution.Open fd descriptor first last := by
  intro index lower upper
  rcases Nat.le_total index middle with early | late
  · exact left index lower early
  · exact right index late upper

theorem open_of_rests (rests : execution.Rests thread first last)
    (mine : (execution.world first).fds fd = some ⟨thread, ino, locked⟩) :
    execution.Open fd ⟨thread, ino, locked⟩ first last := by
  intro index lower upper
  have part : execution.Rests thread first index :=
    ⟨lower, fun instant after before => rests.2 instant after (Nat.lt_of_lt_of_le before upper)⟩
  exact (Rely.fds (sound_start.rests execution part) fd _ rfl).mpr mine

theorem open_of_call {request : Sys} {reply : request.Reply}
    (executes : execution.Executes thread (call request) first reply last)
    (mine : (execution.world first).fds fd = some ⟨thread, ino, locked⟩)
    (kept : (execution.world (first + 1)).fds = (execution.world first).fds) :
    execution.Open fd ⟨thread, ino, locked⟩ first last := by
  have rests := executes.of_perform.2
  have later : execution.Open fd ⟨thread, ino, locked⟩ (first + 1) last :=
    open_of_rests rests (by rw [kept]; exact mine)
  intro index lower upper
  rcases Nat.eq_or_lt_of_le lower with rfl | after
  · exact mine
  · exact later index after upper

theorem open_of_passive {request : Sys} {reply : request.Reply}
    (executes : execution.Executes thread (call request) first reply last)
    (passive : request.Passive)
    (mine : (execution.world first).fds fd = some ⟨thread, ino, locked⟩) :
    execution.Open fd ⟨thread, ino, locked⟩ first last := by
  have executed : exec thread request _ reply _ := executes.of_perform.1
  exact open_of_call executes mine (congrArg World.fds (exec_passive passive executed))

/-- As long as its inode is open, the lock path does not come back to it. -/
theorem Open.elsewhere {descriptor : Descriptor} (opened : execution.Open fd descriptor first last)
    (ordered : first ≤ last) (away : (execution.world first).lock ≠ some descriptor.ino) :
    (execution.world last).lock ≠ some descriptor.ino := by
  induction ordered with
  | refl => exact away
  | @step last ordered ih =>
      have before := ih fun index lower upper => opened index lower (Nat.le_succ_of_le upper)
      have here := opened last ordered (Nat.le_succ last)
      have moves := execution.moves last
      generalize execution.world last = world, execution.world (last + 1) = after at *
      cases moves with
      | rest => exact before
      | start thread request => cases request <;> exact before
      | call executed => exact exec_lock_fresh executed here before
      | kill thread => exact before

theorem of_namesInode {same : Bool}
    (mine : (execution.world first).fds fd = some ⟨thread, ino, locked⟩)
    (executes : execution.Executes thread (namesInode fd) first (.ok same) last) :
    ∃ instant, first ≤ instant ∧ instant ≤ last ∧
      execution.Open fd ⟨thread, ino, locked⟩ first instant ∧
      (same = true ↔ (execution.world instant).lock = some ino) := by
  obtain ⟨opened, index, stats, executes⟩ := executes.of_bind
  have stays := open_of_passive stats trivial mine
  have lower := stats.ordered
  cases opened with
  | error err => exact nomatch executes.of_done.1
  | ok found =>
      have known : found = ino := by
        rcases stats.of_perform.1 with ⟨descriptor, here, reply, -⟩ | ⟨failed, -⟩
        · cases here.symm.trans mine
          exact Except.ok.inj reply
        · exact nomatch failed
      obtain ⟨named, final, looks, executes⟩ := executes.of_bind
      have upper := looks.ordered
      refine ⟨index, lower, Nat.le_trans upper executes.ordered, stays, ?_⟩
      cases named with
      | error err =>
          cases err with
          | enoent =>
              cases executes.of_done.1
              rcases looks.of_perform.1 with ⟨absent, -⟩ | ⟨_, -, failed, -⟩ | ⟨failed, -⟩
              · exact ⟨nofun, fun present => nomatch absent.symm.trans present⟩
              · exact nomatch failed
              · exact nomatch failed
          | _ => exact nomatch executes.of_done.1
      | ok other =>
          cases executes.of_done.1
          rcases looks.of_perform.1 with ⟨-, failed, -⟩ | ⟨_, present, reply, -⟩ | ⟨failed, -⟩
          · exact nomatch failed
          · cases reply
            change (execution.world index).lock = some other at present
            rw [present, known, beq_iff_eq, Option.some.injEq]
            exact eq_comm
          · exact nomatch failed

/-- Someone else holds the lock of the inode the lock path names. -/
structure Contended (execution : Execution) (thread : Tid) (instant : Nat) (other : Tid) (fd : Fd)
    (ino : Ino) : Prop where
  foreign : other ≠ thread
  named : (execution.world instant).lock = some ino
  held : (execution.world instant).fds fd = some ⟨other, ino, true⟩

theorem of_lockOpened {again : Prog (Except Code Fd)}
    (opened : Opened thread fd ino false (execution.world first))
    (executes : execution.Executes thread (lockOpened again fd) first (.error .writerExists) last) :
    (∃ instant other fd ino, first ≤ instant ∧ instant ≤ last ∧
      Contended execution thread instant other fd ino) ∨
    ∃ index, first ≤ index ∧ Outside thread (execution.world index) ∧
      execution.Executes thread again index (.error .writerExists) last := by
  obtain ⟨reply, index, sets, executes⟩ := executes.of_bind
  have locks := ends sets (triple_setLock frame_true) ⟨⟨ino, opened⟩, trivial⟩
  have after := sets.ordered
  cases reply with
  | error err =>
      have refused (conflict : err = .eagain ∨ err = .eacces)
          (executes : execution.Executes thread (lockRefused again fd) index (.error .writerExists)
            last) :
          (∃ instant other fd ino, first ≤ instant ∧ instant ≤ last ∧
            Contended execution thread instant other fd ino) ∨
          ∃ index, first ≤ index ∧ Outside thread (execution.world index) ∧
            execution.Executes thread again index (.error .writerExists) last := by
        obtain ⟨current, checked, names, executes⟩ := executes.of_bind
        obtain ⟨_, closed, closes, executes⟩ := executes.of_bind
        have failing := names.always (@namesInode_always Sys.Locks _ trivial trivial)
        have unlocked := ends names (triple_namesInode_unlocked frame_true) locks
        have outside := ends closes (triple_closeLock frame_true) unlocked
        have between := names.ordered
        have later := closes.ordered
        cases current with
        | error code =>
            cases executes.of_done.1
            cases failing _ rfl
        | ok same =>
            cases same with
            | false => exact .inr ⟨closed, by omega, outside.1, executes⟩
            | true =>
                obtain ⟨-, rfl⟩ := executes.of_done
                rcases sets.of_perform.1 with ⟨_, -, -, granted, -⟩ |
                  ⟨_, other, held, here, distinct, there, same, isLocked, -, unchanged⟩ | ⟨failed, -⟩
                · cases granted
                · cases here.symm.trans opened.opened
                  have stays := open_of_call sets opened.opened (congrArg World.fds unchanged)
                  obtain ⟨instant, lower, upper, kept, named⟩ :=
                    of_namesInode (stays index after (Nat.le_refl _)) names
                  refine .inl ⟨first, held.owner, other, ino, Nat.le_refl _, by omega, ?_, ?_, ?_⟩
                  · exact fun own => distinct (opened.fds there own)
                  · by_contra away
                    exact (stays.append kept).elsewhere (by omega) away (named.mp rfl)
                  · change held.ino = ino at same
                    rw [← same, ← isLocked]
                    exact there
                · cases failed
                  rcases conflict with never | never <;> cases never
      cases err with
      | eagain => exact refused (.inl rfl) executes
      | eacces => exact refused (.inr rfl) executes
      | _ =>
          obtain ⟨_, _, -, executes⟩ := executes.of_bind
          cases executes.of_done.1
  | ok _ =>
      obtain ⟨current, checked, names, executes⟩ := executes.of_bind
      have failing := names.always (@namesInode_always Sys.Locks _ trivial trivial)
      have entered := ends names (triple_namesInode frame_true) locks
      have between := names.ordered
      cases current with
      | error code =>
          obtain ⟨_, _, -, executes⟩ := executes.of_bind
          cases executes.of_done.1
          cases failing _ rfl
      | ok same =>
          cases same with
          | true => cases executes.of_done.1
          | false =>
              obtain ⟨_, closed, closes, executes⟩ := executes.of_bind
              have outside := ends closes (triple_closeLock frame_true) entered
              have later := closes.ordered
              exact .inr ⟨closed, by omega, outside.1, executes⟩

/-- By induction on the turns of the loop: one that does not find the lock held starts over
with nothing open. -/
theorem of_lockChannel {mode : UInt32} {turns : Nat}
    (outside : Outside thread (execution.world first))
    (executes : execution.Executes thread (lockChannel mode turns) first (.error .writerExists)
      last) :
    ∃ instant other fd ino, first ≤ instant ∧ instant ≤ last ∧
      Contended execution thread instant other fd ino := by
  induction turns generalizing first with
  | zero =>
      obtain ⟨reply, -⟩ := executes.of_bind
      exact reply.elim
  | succ turns ih =>
      rw [lockChannel] at executes
      obtain ⟨created, index, creates, executes⟩ := executes.of_bind
      have opened := ends creates (triple_openLockNew frame_true) ⟨outside, trivial⟩
      have after := creates.ordered
      -- the turn with the lock file open, and what is left of the loop
      have turn {fd : Fd} {start : Nat} (later : index ≤ start)
          (held : Held thread fd false (execution.world start))
          (executes : execution.Executes thread (lockOpened (lockChannel mode turns) fd) start
            (.error .writerExists) last) :
          ∃ instant other fd ino, first ≤ instant ∧ instant ≤ last ∧
            Contended execution thread instant other fd ino := by
        obtain ⟨ino, opened⟩ := held
        rcases of_lockOpened opened executes with
          ⟨instant, other, fd, ino, lower, upper, contended⟩ | ⟨again, lower, outside, executes⟩
        · exact ⟨instant, other, fd, ino, by omega, upper, contended⟩
        · obtain ⟨instant, other, fd, ino, above, upper, contended⟩ := ih outside executes
          exact ⟨instant, other, fd, ino, by omega, upper, contended⟩
      cases created with
      | ok fd =>
          obtain ⟨changed, start, changes, executes⟩ := executes.of_bind
          have held := ends changes (triple_skip (.fchmodLock fd mode) trivial Held.stable) opened.1
          cases changed with
          | error err =>
              obtain ⟨_, _, -, executes⟩ := executes.of_bind
              cases executes.of_done.1
          | ok _ => exact turn changes.ordered held executes
      | error err =>
          cases err with
          | eexist =>
              obtain ⟨reply, start, opens, executes⟩ := executes.of_bind
              have held := ends opens (triple_openLock frame_true) opened
              have later := opens.ordered
              cases reply with
              | ok fd => exact turn later held.1 executes
              | error err =>
                  cases err with
                  | enoent =>
                      obtain ⟨instant, other, fd, ino, lower, upper, contended⟩ :=
                        ih held.1 executes
                      exact ⟨instant, other, fd, ino, by omega, upper, contended⟩
                  | _ => cases executes.of_done.1
          | _ => cases executes.of_done.1

/-- A turn that starts over after it has opened the lock file has seen the lock path name
something else. -/
theorem lockOpened_again {again : Prog (Except Code Fd)} {next : Empty → Prog (Except Code Fd)}
    (mine : (execution.world first).fds fd = some ⟨thread, ino, false⟩)
    (advances : execution.Advances thread (lockOpened again fd) first (.call .spin next) last) :
    ∃ changed start, first ≤ changed ∧ changed ≤ start ∧
      (execution.world changed).lock ≠ some ino ∧
      execution.Advances thread again start (.call .spin next) last := by
  have spins : ¬Sys.spin ≠ .spin := not_not.mpr rfl
  obtain ⟨reply, index, sets, advances⟩ := advances.past_perform (by simp)
  have mine : ∃ locked, (execution.world index).fds fd = some ⟨thread, ino, locked⟩ := by
    obtain ⟨executed, rests⟩ := sets.of_perform
    have kept {locked : Bool}
        (now : (execution.world (first + 1)).fds fd = some ⟨thread, ino, locked⟩) :
        ∃ locked, (execution.world index).fds fd = some ⟨thread, ino, locked⟩ :=
      ⟨locked, open_of_rests rests now index rests.1 (Nat.le_refl _)⟩
    rcases executed with ⟨_, here, -, -, now⟩ | ⟨_, _, _, -, -, -, -, -, -, now⟩ | ⟨-, now⟩
    · cases here.symm.trans mine
      refine @kept true ?_
      rw [world, now]
      exact Function.update_self _ _ _
    · exact kept (by rw [world, now]; exact mine)
    · exact kept (by rw [world, now]; exact mine)
  obtain ⟨locked, mine⟩ := mine
  have after := sets.ordered
  -- the identity check has failed, and the descriptor is closed
  have retried {checked closed : Nat}
      (names : execution.Executes thread (namesInode fd) index (.ok false) checked)
      (later : checked ≤ closed)
      (advances : execution.Advances thread again closed (.call .spin next) last) :
      ∃ changed start, first ≤ changed ∧ changed ≤ start ∧
        (execution.world changed).lock ≠ some ino ∧
        execution.Advances thread again start (.call .spin next) last := by
    obtain ⟨instant, lower, upper, -, named⟩ := of_namesInode mine names
    refine ⟨instant, closed, by omega, by omega, fun present => ?_, advances⟩
    cases named.mpr present
  cases reply with
  | error err =>
      have refused
          (advances : execution.Advances thread (lockRefused again fd) index (.call .spin next) last) :
          ∃ changed start, first ≤ changed ∧ changed ≤ start ∧
            (execution.world changed).lock ≠ some ino ∧
            execution.Advances thread again start (.call .spin next) last := by
        obtain ⟨current, checked, -, names, advances⟩ :=
          advances.past (namesInode_always (by simp) (by simp)) spins
        obtain ⟨_, closed, closes, advances⟩ := advances.past_perform (by simp)
        cases current with
        | error code => cases advances.of_done.1
        | ok same =>
            cases same with
            | true => cases advances.of_done.1
            | false => exact retried names closes.ordered advances
      cases err with
      | eagain => exact refused advances
      | eacces => exact refused advances
      | _ =>
          obtain ⟨_, _, -, advances⟩ := advances.past_perform (by simp)
          cases advances.of_done.1
  | ok _ =>
      obtain ⟨current, checked, -, names, advances⟩ :=
        advances.past (namesInode_always (by simp) (by simp)) spins
      cases current with
      | error code =>
          obtain ⟨_, _, -, advances⟩ := advances.past_perform (by simp)
          cases advances.of_done.1
      | ok same =>
          cases same with
          | true => cases advances.of_done.1
          | false =>
              obtain ⟨_, closed, closes, advances⟩ := advances.past_perform (by simp)
              exact retried names closes.ordered advances

/-- A thread that has used up its turns has seen the lock file removed in each of them. -/
theorem removals_of_turns {mode : UInt32} {turns : Nat} {next : Empty → Prog (Except Code Fd)}
    (advances : execution.Advances thread (lockChannel mode turns) first (.call .spin next) last) :
    execution.removals first + turns ≤ execution.removals last := by
  induction turns generalizing first with
  | zero => exact removals_mono advances.ordered
  | succ turns ih =>
      rw [lockChannel] at advances
      obtain ⟨created, index, creates, advances⟩ := advances.past_perform (by simp)
      obtain ⟨executed, rests⟩ := creates.of_perform
      -- from an instant at which the lock path named an inode to one at which it does not
      have turn {ino : Ino} {named changed start : Nat} (before : first ≤ named)
          (between : named ≤ changed) (after : changed ≤ start)
          (here : (execution.world named).lock = some ino)
          (gone : (execution.world changed).lock ≠ some ino)
          (advances : execution.Advances thread (lockChannel mode turns) start (.call .spin next)
            last) : execution.removals first + (turns + 1) ≤ execution.removals last := by
        have early : execution.removals first ≤ execution.removals named := removals_mono before
        have removed := removals_lt between here gone
        have late : execution.removals changed ≤ execution.removals start := removals_mono after
        have further := ih advances
        omega
      have opened {fd : Fd} {ino : Ino} {named start : Nat} (before : first ≤ named)
          (between : named ≤ start) (here : (execution.world named).lock = some ino)
          (mine : (execution.world start).fds fd = some ⟨thread, ino, false⟩)
          (advances : execution.Advances thread (lockOpened (lockChannel mode turns) fd) start
            (.call .spin next) last) :
          execution.removals first + (turns + 1) ≤ execution.removals last := by
        obtain ⟨changed, again, lower, upper, gone, advances⟩ := lockOpened_again mine advances
        exact turn before (Nat.le_trans between lower) upper here gone advances
      cases created with
      | ok fd =>
          obtain ⟨changed, start, changes, advances⟩ := advances.past_perform (by simp)
          cases changed with
          | error err =>
              obtain ⟨_, _, -, advances⟩ := advances.past_perform (by simp)
              cases advances.of_done.1
          | ok _ =>
              rcases executed with ⟨-, failed, -⟩ | ⟨-, _, ino, -, -, reply, now⟩ | ⟨failed, -⟩
              · cases failed
              · cases reply
                have here : (execution.world (first + 1)).lock = some ino := by rw [world, now]
                have mine : (execution.world (first + 1)).fds fd = some ⟨thread, ino, false⟩ := by
                  rw [world, now]
                  exact Function.update_self _ _ _
                have still := open_of_rests rests mine index rests.1 (Nat.le_refl _)
                have stays := open_of_passive changes trivial still
                have later := changes.ordered
                exact opened (Nat.le_succ first) (Nat.le_trans rests.1 later) here
                  (stays start later (Nat.le_refl _)) advances
              · cases failed
      | error err =>
          cases err with
          | eexist =>
              obtain ⟨reply, start, opens, advances⟩ := advances.past_perform (by simp)
              have after := creates.ordered
              have later := opens.ordered
              cases reply with
              | ok fd =>
                  obtain ⟨executed, rests⟩ := opens.of_perform
                  rcases executed with ⟨-, failed, -⟩ | ⟨ino, _, here, -, reply, now⟩ | ⟨failed, -⟩
                  · cases failed
                  · cases reply
                    have mine : (execution.world (index + 1)).fds fd = some ⟨thread, ino, false⟩ := by
                      rw [world, now]
                      exact Function.update_self _ _ _
                    exact opened after later here
                      (open_of_rests rests mine start rests.1 (Nat.le_refl _)) advances
                  · cases failed
              | error err =>
                  cases err with
                  | enoent =>
                      rcases executed with ⟨present, -⟩ | ⟨-, _, _, -, -, failed, -⟩ | ⟨failed, -⟩
                      · obtain ⟨ino, here⟩ := Option.ne_none_iff_exists'.mp present
                        rcases opens.of_perform.1 with ⟨absent, -⟩ | ⟨_, _, -, -, failed, -⟩ |
                          ⟨failed, -⟩
                        · refine turn (Nat.le_refl _) after later here ?_ advances
                          intro back
                          cases absent.symm.trans back
                        · cases failed
                        · cases failed
                      · cases failed
                      · cases failed
                  | _ => cases advances.of_done.1
          | _ => cases advances.of_done.1

theorem turns_of_psmsgrStateWriterOpen {build : Build} {environment : Option (List Char)}
    {turns : Nat} {name : Option (List Char)} {opt : Option Options}
    {next : Empty → Prog (Except Code Writer)}
    (advances : execution.Advances thread (psmsgrStateWriterOpen build environment turns name opt)
      first (.call .spin next) last) :
    ∃ mode start next, first ≤ start ∧
      execution.Advances thread (lockChannel mode turns) start (.call .spin next) last := by
  have spins : ¬Sys.spin.Manages := id
  unfold psmsgrStateWriterOpen at advances
  split at advances
  · exact nomatch advances.of_done.1
  split at advances
  · exact nomatch advances.of_done.1
  obtain ⟨paths, index, -, names, advances⟩ :=
    advances.past (pathsInit_always _ _ _) (not_not.mpr rfl)
  have lower := names.ordered
  cases paths with
  | error code => exact nomatch advances.of_done.1
  | ok p =>
      obtain ⟨enough, start, allocates, advances⟩ := advances.past_perform nofun
      have later := allocates.ordered
      split at advances
      · exact nomatch advances.of_done.1
      rcases advances.of_bind with ⟨made, continued, locks, same⟩ | ⟨locked, _, -, advances⟩
      · cases same
        exact ⟨_, start, _, by omega, locks⟩
      cases locked with
      | error code => exact nomatch advances.of_done.1
      | ok fd =>
          obtain ⟨_, _, -, -, advances⟩ := advances.past (removeStaleTmp_manages p) spins
          obtain ⟨opened, _, -, -, advances⟩ := advances.past (openData_manages _ _ _) spins
          cases opened with
          | error code =>
              obtain ⟨_, _, -, advances⟩ := advances.past_perform nofun
              exact nomatch advances.of_done.1
          | ok w =>
              obtain ⟨_, _, -, advances⟩ := advances.past_perform nofun
              obtain ⟨_, _, -, -, advances⟩ := advances.past (storeBytes_manages _ _ _) spins
              exact nomatch advances.of_done.1

theorem turns_of_psmsgrStateUnlink {environment : Option (List Char)} {turns : Nat}
    {name dir : Option (List Char)} {next : Empty → Prog Code}
    (advances : execution.Advances thread (psmsgrStateUnlink environment turns name dir) first
      (.call .spin next) last) :
    ∃ mode start next, first ≤ start ∧
      execution.Advances thread (lockChannel mode turns) start (.call .spin next) last := by
  have spins : ¬Sys.spin.Manages := id
  unfold psmsgrStateUnlink at advances
  split at advances
  · exact nomatch advances.of_done.1
  obtain ⟨paths, start, -, names, advances⟩ :=
    advances.past (pathsInit_always _ _ _) (not_not.mpr rfl)
  have lower := names.ordered
  cases paths with
  | error code => exact nomatch advances.of_done.1
  | ok p =>
      rcases advances.of_bind with ⟨made, continued, locks, same⟩ | ⟨locked, _, -, advances⟩
      · cases same
        exact ⟨_, start, _, lower, locks⟩
      cases locked with
      | error code => exact nomatch advances.of_done.1
      | ok fd =>
          obtain ⟨_, _, -, -, advances⟩ := advances.past (removeStaleTmp_manages p) spins
          obtain ⟨code, _, unlinks, -, advances⟩ := advances.past unlinkDataFile_manages spins
          exact absurd (advances.always (unlinked_always fd unlinks)).1 spins

end Execution

/-- The turns of the loop in `lock_channel` a call has. -/
def Request.turns : Request → Option Nat
  | .writerOpen _ _ turns _ _ | .unlink _ turns _ _ => some turns
  | _ => none

namespace Execution

variable {execution : Execution} {thread : Tid} {first last : Nat} {request : Request}

theorem locks_of_called {returned : Handle}
    (call : execution.Called thread .fresh request (returned, .code .writerExists) first last)
    (acquires : request.Acquires) :
    ∃ mode turns start finish, first ≤ start ∧ finish ≤ last ∧
      Outside thread (execution.world start) ∧
      execution.Executes thread (lockChannel mode turns) start (.error .writerExists) finish := by
  obtain ⟨begins, ends, rests, bounded, executes⟩ := call.executes
  have idle := rested rests stable_idle (owns_first call)
  have before := rests.1
  cases request with
  | writerOpen build environment turns name opt =>
      obtain ⟨result, index, opens, executes⟩ := executes.of_bind
      have after := executes.ordered
      cases result with
      | ok w => exact nomatch executes.of_done.1
      | error code =>
          cases executes.of_done.1
          rcases of_writerOpen opens idle with ⟨code, same, invalid | failed⟩ |
            ⟨o, locked, start, finish, -, locks, ⟨code, rfl, same⟩ | ⟨fd, opened, -, data⟩⟩
          · exact nomatch (Except.error.inj same).trans invalid
          · exact nomatch (Except.error.inj same).trans failed
          · cases same
            have lower := locks.lower
            have upper := locks.upper
            exact ⟨o.mode, turns, start, finish, by omega, by omega, locks.outside, locks.executes⟩
          · exact absurd (data.opening _ rfl) (by simp [Code.Refuses])
  | unlink environment turns name dir =>
      obtain ⟨code, index, unlinks, executes⟩ := executes.of_bind
      have after := executes.ordered
      cases executes.of_done.1
      rcases of_unlink unlinks idle with (invalid | failed) |
        ⟨locked, start, finish, locks, rfl | ⟨fd, rc, removed, -, data, rfl | failed⟩⟩
      · exact nomatch invalid
      · exact nomatch failed
      · have lower := locks.lower
        have upper := locks.upper
        exact ⟨_, turns, start, finish, by omega, by omega, locks.outside, locks.executes⟩
      · exact absurd data.unlinks (by simp [Code.Unlinks])
      · exact nomatch failed
  | _ => exact acquires.elim

theorem turns_of_advances {turns : Nat} {next : Empty → Prog (Handle × Result)}
    (budget : request.turns = some turns)
    (advances : execution.Advances thread (Handle.fresh.program request) first (.call .spin next)
      last) :
    ∃ mode start next, first ≤ start ∧
      execution.Advances thread (lockChannel mode turns) start (.call .spin next) last := by
  cases request with
  | writerOpen build environment turns name opt =>
      cases budget
      rcases advances.of_bind with ⟨made, continued, opens, same⟩ | ⟨result, _, -, advances⟩
      · cases same
        exact turns_of_psmsgrStateWriterOpen opens
      cases result with
      | ok w => exact nomatch advances.of_done.1
      | error code => exact nomatch advances.of_done.1
  | unlink environment turns name dir =>
      cases budget
      rcases advances.of_bind with ⟨made, continued, unlinks, same⟩ | ⟨code, _, -, advances⟩
      · cases same
        exact turns_of_psmsgrStateUnlink unlinks
      exact nomatch advances.of_done.1
  | _ => exact nomatch budget

end Execution

/-- Opening the channel for writing or unlinking it fails with `WRITER_EXISTS` only if at an
instant of the call someone else held the lock of the inode which the lock path named then, as a
writer or in the course of opening or unlinking the channel; and it starts over only as often as
the lock file is removed during the call, so that it does not wait for anything else. -/
theorem lock_channel_outcomes (execution : Execution) :
    (∀ {thread request returned first last},
      execution.Called thread .fresh request (returned, .code .writerExists) first last →
      request.Acquires →
      ∃ instant other fd ino, first ≤ instant ∧ instant ≤ last ∧
        Execution.Contended execution thread instant other fd ino ∧
        (WriterOpen (execution.systems instant) other ∨
          LockHeld (execution.systems instant) other)) ∧
    ∀ {thread request turns first last next},
      execution.Serves thread .fresh request first last → request.turns = some turns →
      (execution.systems last).threads thread =
        .busy .fresh request (execution.world first) (.call .spin next) →
      execution.removals first + turns ≤ execution.removals last := by
  refine ⟨fun {thread request returned first last} call acquires => ?_,
    fun {thread request turns first last next} serves budget stuck => ?_⟩
  · obtain ⟨mode, turns, start, finish, lower, upper, outside, executes⟩ :=
      Execution.locks_of_called call acquires
    obtain ⟨instant, other, fd, ino, after, before, contended⟩ :=
      Execution.of_lockChannel outside executes
    exact ⟨instant, other, fd, ino, by omega, by omega, contended,
      Execution.holder_of_locked contended.held⟩
  · obtain ⟨start, finish, before, after, advances⟩ := serves.advances stuck
    obtain ⟨mode, locking, _, lower, locks⟩ := Execution.turns_of_advances budget advances
    have counted := Execution.removals_of_turns locks
    have early : execution.removals first ≤ execution.removals locking :=
      Execution.removals_mono (Nat.le_trans before.1 lower)
    have late : execution.removals finish ≤ execution.removals last :=
      Execution.removals_mono after.1
    omega

end PsMsgr
