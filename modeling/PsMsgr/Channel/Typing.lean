import PsMsgr.Channel.Requests
import PsMsgr.Effect.Yields

namespace PsMsgr

open Effect Discipline

variable {thread : Tid} {r : Reader} {α : Type}

/-- The payload type a reader holds is that of the file it is attached to. -/
def Reader.Typed (r : Reader) (world : World) : Prop :=
  ∀ file, r.file = some file → ∃ h size, Known file h size world ∧ r.payloadType = h.payloadType

theorem Reader.Typed.of_evolves {before after : World} (typed : r.Typed before)
    (evolves : before.disk.Evolves after.disk) : r.Typed after := by
  intro file attached
  obtain ⟨h, size, known, same⟩ := typed file attached
  exact ⟨h, size, known.of_evolves evolves, same⟩

theorem Reader.Typed.stable : channel.Stable thread r.Typed :=
  fun _ _ typed rely _ => typed.of_evolves (Rely.disk rely)

theorem Reader.Typed.detached {world : World} : Reader.Typed { r with file := none } world :=
  nofun

theorem guarantee_evolves {before after : World} (guarantee : channel.Guarantee thread before after) :
    before.disk.Evolves after.disk :=
  Rely.disk (guarantee.rely (thread + 1) (Nat.succ_ne_self thread))

theorem brings_typed (program : Prog α) :
    channel.Brings thread r.Typed program (fun _ => r.Typed) :=
  Brings.keep Reader.Typed.stable
    (fun guarantee typed => typed.of_evolves (guarantee_evolves guarantee)) program

theorem brings_detach {file : FileId} :
    channel.Brings thread r.Typed (detach r file) (fun result => result.Typed) :=
  (brings_typed _).bind fun _ => Brings.done (fun _ _ => Reader.Typed.detached)

theorem brings_attach :
    channel.Brings thread r.Typed (attach r) (fun result => result.2.Typed) := by
  have failed : ∀ {code : Code}, channel.Brings thread r.Typed (.done (code, r))
      (fun (result : Code × Reader) => result.2.Typed) := Brings.done (fun _ typed => typed)
  have closed : ∀ {fd : FileId} {code : Code}, channel.Brings thread r.Typed
      (do
        call (.close fd)
        return (code, r)) (fun (result : Code × Reader) => result.2.Typed) :=
    (brings_typed _).bind fun _ => failed
  have opened : channel.Brings thread r.Typed (call .openData) (fun reply world => r.Typed world ∧
      ∀ {file}, reply = .ok file → ∃ h size, Known file h size world) := by
    refine Brings.call (fun reply => stable_and Reader.Typed.stable ?_) ?_
    · intro before after known rely _ file found
      obtain ⟨h, size, known⟩ := known found
      exact ⟨h, size, known.of_evolves (Rely.disk rely)⟩
    · intro state reply after inv typed executed guarantee
      refine ⟨typed.of_evolves (guarantee_evolves guarantee), ?_⟩
      rintro file rfl
      refine ⟨_, _, Known.of_evolves ⟨?_, rfl, rfl⟩ (guarantee_evolves guarantee)⟩
      rcases executed with ⟨_, named, same, -⟩ | ⟨-, failed, -⟩ | ⟨failed, -⟩
      · cases same
        exact (inv.disk.data named).1
      · exact nomatch failed
      · exact nomatch failed
  unfold attach
  refine opened.bind fun reply => ?_
  cases reply with
  | error err =>
      refine Brings.strengthen (?_ : channel.Brings thread r.Typed _ _) (fun _ holds => holds.1)
      cases err <;> exact failed
  | ok fd =>
      intro state inv holds
      obtain ⟨typed, known⟩ := holds
      obtain ⟨h, size, known⟩ := known rfl
      refine ((triple_readHeader Reader.Typed.stable).brings.bind fun result => ?_) state inv
        ⟨typed, known⟩
      obtain ⟨rc, bytes, found⟩ := result
      dsimp only
      split
      · exact closed.strengthen (fun _ holds => holds.1.1)
      next ok =>
      split
      · exact closed.strengthen (fun _ holds => holds.1.1)
      have learned : channel.Stable thread (fun world => r.Typed world ∧ Known fd found size world) :=
        stable_and Reader.Typed.stable Known.stable
      have kept {α : Type} (program : Prog α) : channel.Brings thread
          (fun world => r.Typed world ∧ Known fd found size world) program
          (fun _ world => r.Typed world ∧ Known fd found size world) :=
        Brings.keep learned (fun guarantee holds => ⟨holds.1.of_evolves (guarantee_evolves guarantee),
          holds.2.of_evolves (guarantee_evolves guarantee)⟩) program
      refine Brings.strengthen ((kept _).bind fun mapped => ?_) (fun {world} _ holds => ?_)
      · cases mapped with
        | error err => exact closed.strengthen (fun _ holds => holds.1)
        | ok _ =>
            refine (kept _).bind fun _ => Brings.done (fun _ holds => ?_)
            intro file attached
            cases attached
            exact ⟨found, size, holds.2, rfl⟩
      · obtain ⟨⟨typed, known⟩, sys | read⟩ := holds
        · exact absurd (show rc = .sys from sys) (fun sys => ok (by rw [sys]; nofun))
        · cases read
          exact ⟨typed, known⟩

theorem brings_attachLoop (tries : Nat) :
    channel.Brings thread r.Typed (attachLoop r tries) (fun result => result.2.Typed) := by
  induction tries generalizing r with
  | zero => exact Brings.done (fun _ typed => typed)
  | succ tries ih =>
      unfold attachLoop
      refine brings_attach.bind fun result => ?_
      dsimp only
      split
      · refine (brings_typed _).bind fun gone => ?_
        cases gone with
        | false => exact Brings.done (fun _ typed => typed)
        | true => exact brings_detach.bind fun _ => ih
      · exact Brings.done (fun _ typed => typed)

theorem brings_readerSync :
    channel.Brings thread r.Typed (readerSync r) (fun result => result.2.Typed) := by
  unfold readerSync
  split
  · refine (brings_typed _).bind fun gone => ?_
    cases gone with
    | false => exact Brings.done (fun _ typed => typed)
    | true => exact brings_detach.bind fun _ => brings_attachLoop attachRetries
  · exact brings_attachLoop attachRetries

theorem brings_identityCheck :
    channel.Brings thread r.Typed (identityCheck r) (fun result => result.2.Typed) := by
  unfold identityCheck
  split
  · exact Brings.done (fun _ typed => typed)
  refine (brings_typed _).bind fun reply => ?_
  have detached {file : FileId} : channel.Brings thread r.Typed
      (do
        let r ← detach r file
        return (Code.ok, r)) (fun result => result.2.Typed) :=
    brings_detach.bind fun _ => Brings.done (fun _ typed => typed)
  split
  · split
    · exact Brings.done (fun _ typed => typed)
    · exact detached
  · exact detached
  · exact Brings.done (fun _ typed => typed)

theorem Reader.Typed.announce {world : World} {info : Option Info} (typed : r.Typed world) :
    (PsMsgr.announce r info).2.Typed world := by
  unfold PsMsgr.announce
  split <;> exact typed

theorem brings_waitLoop {lastGeneration : UInt32} {deadline : UInt64} (turns : Nat) :
    channel.Brings thread r.Typed (waitLoop lastGeneration deadline turns r)
      (fun result => result.2.Typed) := by
  have returned {r : Reader} {code : Code} : channel.Brings thread r.Typed (.done (code, r))
      (fun (result : Code × Reader) => result.2.Typed) := Brings.done (fun _ typed => typed)
  induction turns generalizing r with
  | zero => exact fun _ _ _ reply => nomatch reply
  | succ turns ih =>
      unfold waitLoop
      refine brings_readerSync.bind fun result => ?_
      dsimp only
      split
      · split
        · exact returned
        refine (brings_typed _).bind fun n => ?_
        refine (brings_typed _).bind fun gone => ?_
        split
        · exact ih
        refine (brings_typed _).bind fun latest => ?_
        split
        · exact returned
        split
        · exact returned
        refine (brings_typed _).bind fun now => ?_
        split
        · exact returned
        refine (brings_typed _).bind fun slept => ?_
        split
        · exact ih
        · exact returned
        · refine brings_identityCheck.bind fun checked => ?_
          split
          · exact returned
          · exact ih
        · exact ih
        · exact returned
      · refine (brings_typed _).bind fun now => ?_
        split
        · exact returned
        refine (brings_typed _).bind fun interrupted => ?_
        split
        · exact returned
        · exact ih
      · exact returned

/-- The end of a read or peek: whatever it found, the reader is as it was, but for the
announcement. -/
theorem brings_found {file : FileId} {buffer : List UInt8} {size : UInt32} {copy : Bool}
    (hands : Code → Prop) [DecidablePred hands] :
    channel.Brings thread r.Typed
      (do
        let (rc, info, bytes) ← readLatest r file buffer size copy
        if hands rc then
          let (info, r) := announce r info
          return (⟨rc, info, bytes⟩, r)
        return (⟨rc, info, bytes⟩, r))
      (fun (result : ReadReply × Reader) => result.2.Typed) := by
  refine (brings_typed _).bind fun found => ?_
  dsimp only
  split
  · exact Brings.done (fun _ typed => typed.announce)
  · exact Brings.done (fun _ typed => typed)

def Handle.Typed : Handle → World → Prop
  | .reader r => r.Typed
  | _ => fun _ => True

theorem brings_reader {request : Request} :
    channel.Brings thread r.Typed ((Handle.reader r).program request)
      (fun returned => returned.1.Typed) := by
  cases request with
  | read buffer size =>
      have reads : channel.Brings thread r.Typed (psmsgrStateRead r buffer size)
          (fun result => result.2.Typed) := by
        unfold psmsgrStateRead
        split
        · exact Brings.done (fun _ typed => typed)
        refine brings_readerSync.bind fun result => ?_
        dsimp only
        split
        · exact brings_found (fun code => (code = .ok || code = .toosmall) = true)
        · exact Brings.done (fun _ typed => typed)
      exact reads.bind fun _ => Brings.done (fun _ typed => typed)
  | peek =>
      have peeks : channel.Brings thread r.Typed (psmsgrStatePeek r)
          (fun result => result.2.Typed) := by
        unfold psmsgrStatePeek
        refine brings_readerSync.bind fun result => ?_
        dsimp only
        split
        · exact brings_found (· = .ok)
        · exact Brings.done (fun _ typed => typed)
      exact peeks.bind fun _ => Brings.done (fun _ typed => typed)
  | describe =>
      have describes : channel.Brings thread r.Typed (psmsgrStateDescribe r)
          (fun result => result.2.2.Typed) := by
        refine brings_readerSync.bind fun result => ?_
        dsimp only
        split <;> exact Brings.done (fun _ typed => typed)
      exact describes.bind fun _ => Brings.done (fun _ typed => typed)
  | wait turns lastGeneration timeoutMs =>
      have waits : channel.Brings thread r.Typed (psmsgrStateWait turns r lastGeneration timeoutMs)
          (fun result => result.2.Typed) := by
        unfold psmsgrStateWait
        split
        · exact brings_waitLoop turns
        · exact (brings_typed _).bind fun _ => brings_waitLoop turns
      exact waits.bind fun _ => Brings.done (fun _ typed => typed)
  | writerAlive =>
      have returned {r : Reader} {answer : Except Code Bool} :
          channel.Brings thread r.Typed (.done (answer, r))
            (fun (result : Except Code Bool × Reader) => result.2.Typed) :=
        Brings.done (fun _ typed => typed)
      have asks : channel.Brings thread r.Typed (psmsgrStateWriterAlive r)
          (fun result => result.2.Typed) := by
        unfold psmsgrStateWriterAlive
        refine brings_identityCheck.bind fun checked => ?_
        dsimp only
        split
        · exact returned
        refine brings_readerSync.bind fun synced => ?_
        refine (brings_typed _).bind fun opened => ?_
        split
        · exact returned
        · exact returned
        refine (brings_typed _).bind fun conflict => ?_
        refine (brings_typed _).bind fun _ => ?_
        split <;> exact returned
      exact asks.bind fun _ => Brings.done (fun _ typed => typed)
  | readerClose =>
      exact (brings_typed _).bind fun _ => Brings.done (fun _ _ => trivial)
  | _ => exact Brings.done (fun _ typed => typed)

theorem Handle.Continues.typed {w : Writer} {request : Request} {handle : Handle} {world : World}
    (continues : Handle.Continues w request handle) : handle.Typed world := by
  by_cases kept : request = .writerClose
  · subst kept
    obtain rfl : handle = .closed := continues
    trivial
  · obtain ⟨later, rfl, -⟩ := continues.later kept
    trivial

theorem typed_carries : outline.Carries (fun _ handle => handle.Typed) where
  stable := by
    intro thread handle
    cases handle with
    | reader r => exact Reader.Typed.stable
    | _ => exact stable_pure
  begin := by
    intro thread handle request state _ _ typed
    cases handle with
    | reader r =>
        refine Reader.Typed.of_evolves typed ?_
        rw [show (processes.begin thread request state).disk = state.disk from takeUp_disk request]
        exact Disk.Evolves.refl _
    | _ => trivial
  brings := by
    intro thread handle request accepted
    cases handle with
    | reader r => exact brings_reader
    | fresh =>
        refine (Brings.always (fresh_always accepted)).weaken fun {returned _} _ unattached => ?_
        generalize returned.1 = handle at unattached
        cases handle with
        | reader r =>
            rw [unattached r rfl]
            exact nofun
        | _ => trivial
    | writer w =>
        exact (Brings.always (writer_continues (stores_any w.file)
          fun _ => ⟨trivial, trivial⟩)).weaken fun _ continues => continues.typed
    | closed => cases request <;> exact accepted.elim

end PsMsgr
