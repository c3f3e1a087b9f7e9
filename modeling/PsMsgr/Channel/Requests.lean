import PsMsgr.Channel.System
import PsMsgr.State.Managing

namespace PsMsgr

open Effect

variable {permitted : Sys → Prop} {request : Request}

theorem reader_always {r : Reader} (waits : Waits permitted) (asks : Asks permitted) :
    ((Handle.reader r).program request).Always permitted (fun _ => True) := by
  cases request with
  | read buffer size => exact (waits.psmsgrStateRead buffer size).bind fun _ _ => trivial
  | peek => exact waits.psmsgrStatePeek.bind fun _ _ => trivial
  | describe => exact waits.psmsgrStateDescribe.bind fun _ _ => trivial
  | wait turns generation timeoutMs =>
      exact (waits.psmsgrStateWait turns generation timeoutMs).bind fun _ _ => trivial
  | readerClose => exact waits.psmsgrStateReaderClose.bind fun _ _ => trivial
  | writerAlive => exact asks.psmsgrStateWriterAlive.bind fun _ _ => trivial
  | _ => trivial

/-- A writer's handle stays on its file until it is closed. -/
def Handle.Continues (w : Writer) : Request → Handle → Prop
  | .writerClose => fun returned => returned = .closed
  | _ => fun returned => ∃ later, returned = .writer later ∧ later.file = w.file

theorem Handle.Continues.later {w : Writer} {handle : Handle}
    (continues : Handle.Continues w request handle) (kept : request ≠ .writerClose) :
    ∃ later, handle = .writer later ∧ later.file = w.file := by
  cases request with
  | writerClose => exact absurd rfl kept
  | _ => exact continues

theorem writer_continues {w : Writer} (stores : Stores permitted w.file)
    (closes : request = .writerClose → permitted (.munmap w.file) ∧ permitted (.closeLock w.lockFd)) :
    ((Handle.writer w).program request).Always permitted
      (fun returned => Handle.Continues w request returned.1) := by
  cases request with
  | publish data len =>
      exact (stores.psmsgrStatePublish data len).bind fun returned same => ⟨_, rfl, same⟩
  | commit len => exact (stores.psmsgrStateCommit len).bind fun returned same => ⟨_, rfl, same⟩
  | begin => exact stores.psmsgrStateBegin.bind fun returned same => ⟨_, rfl, same⟩
  | abort => exact (Stores.psmsgrStateAbort w).bind fun returned same => ⟨_, rfl, same⟩
  | storeBuffer index byte =>
      exact (Program.Always.perform (stores.storeByte _ byte)).bind fun _ _ => ⟨_, rfl, rfl⟩
  | writerClose =>
      obtain ⟨unmaps, unlocks⟩ := closes rfl
      have closed : (psmsgrStateWriterClose w).Always permitted (fun _ => True) :=
        (Program.Always.perform unmaps).bind fun _ _ => Program.Always.perform unlocks
      exact closed.bind fun _ _ => rfl
  | _ => exact ⟨_, rfl, rfl⟩

theorem writer_always {w : Writer} (stores : Stores permitted w.file)
    (closes : request = .writerClose → permitted (.munmap w.file) ∧ permitted (.closeLock w.lockFd)) :
    ((Handle.writer w).program request).Always permitted (fun _ => True) :=
  (writer_continues stores closes).mono (fun _ _ => trivial)

theorem fresh_always (accepted : Handle.fresh.accepts request) :
    (Handle.fresh.program request).Always Sys.Prepares
      (fun returned => ∀ r, returned.1 = .reader r → r = Reader.unattached) := by
  cases request with
  | writerOpen build environment turns name opt =>
      refine (psmsgrStateWriterOpen_prepares build environment turns name opt).bind
        fun result _ => ?_
      split <;> exact nofun
  | readerOpen environment name dir =>
      refine (psmsgrStateReaderOpen_prepares environment name dir).bind fun result unattached => ?_
      split
      · rintro _ ⟨⟩
        exact unattached _ rfl
      · exact nofun
  | unlink environment turns name dir =>
      exact (psmsgrStateUnlink_prepares environment turns name dir).bind fun _ _ => nofun
  | _ => exact accepted.elim

end PsMsgr
