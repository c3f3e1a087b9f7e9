import PsMsgr.Bindings.Reading
import PsMsgr.State.Looking

namespace PsMsgr

open Effect

/-- Any reply is possible.  What is kept is the number of attaches, of which mapping the file
is the last step that can fail. -/
def execAttach (request : Sys) (before : Nat) (reply : request.Reply) (after : Nat) : Prop :=
  match request, reply with
  | .mmap _ _, .ok _ => after = before + 1
  | _, _ => after = before

def Sys.Maps : Sys → Prop
  | .mmap _ _ => True
  | _ => False

section Native

variable {α : Type} {r : Reader} {attaches : Nat}

theorem ends_unmapped {result : α → Prop} {program : Prog α}
    (unmapped : program.Always (fun request => ¬request.Maps) result) (attaches : Nat) :
    program.Ends False execAttach (fun value after => result value ∧ after = attaches)
      attaches := by
  induction program with
  | done value => exact ⟨unmapped, rfl⟩
  | call request next ih =>
      refine ⟨False.elim, fun reply after executed => ?_⟩
      have same : after = attaches := by
        cases request with
        | mmap file size => exact absurd trivial unmapped.1
        | _ => exact executed
      rw [same]
      exact ih reply (unmapped.2 reply)

/-- How a reader changes by calls that hand out no info: after an attach it announces one, and
it is not attached again without one. -/
structure Follows (r : Reader) (attaches : Nat) (later : Reader) (now : Nat) : Prop where
  grows : attaches ≤ now
  same : now = attaches → later.announce = r.announce ∧ (later.file ≠ none → r.file ≠ none)
  new : attaches < now → later.announce = true

theorem Follows.refl (r : Reader) (attaches : Nat) : Follows r attaches r attaches :=
  ⟨Nat.le_refl _, fun _ => ⟨rfl, id⟩, fun less => absurd less (Nat.lt_irrefl _)⟩

theorem Follows.trans {middle later : Reader} {between now : Nat}
    (early : Follows r attaches middle between) (late : Follows middle between later now) :
    Follows r attaches later now where
  grows := Nat.le_trans early.grows late.grows
  same := by
    intro same
    have first := early.grows
    have second := late.grows
    obtain ⟨announces, stays⟩ := late.same (by omega)
    obtain ⟨announced, stayed⟩ := early.same (by omega)
    exact ⟨announces.trans announced, stayed ∘ stays⟩
  new := by
    intro less
    by_cases attached : between < now
    · exact late.new attached
    · have grows := late.grows
      rw [(late.same (by omega)).1]
      exact early.new (by omega)

theorem Follows.detached : Follows r attaches { r with file := none } attaches :=
  ⟨Nat.le_refl _, fun _ => ⟨rfl, fun attached => absurd rfl attached⟩,
    fun less => absurd less (Nat.lt_irrefl _)⟩

/-- What `reader_sync` comes to. -/
structure SyncEnd (r : Reader) (attaches : Nat) (outcome : Code × Reader) (now : Nat) : Prop where
  follows : Follows r attaches outcome.2 now
  attached : outcome.1 = .ok ↔ outcome.2.file ≠ none
  fits : outcome.1 ≠ .toosmall

theorem SyncEnd.unattached {code : Code} (unattached : r.file = none) (failed : code ≠ .ok)
    (fits : code ≠ .toosmall) : SyncEnd r attaches (code, r) attaches :=
  ⟨Follows.refl r attaches, iff_of_false failed (not_not_intro unattached), fits⟩

theorem SyncEnd.after {middle : Reader} {between now : Nat} {outcome : Code × Reader}
    (early : Follows r attaches middle between) (late : SyncEnd middle between outcome now) :
    SyncEnd r attaches outcome now :=
  ⟨early.trans late.follows, late.attached, late.fits⟩

theorem unmapped_call (request : Sys) (unmapped : ¬request.Maps) :
    (call request).Always (fun request => ¬request.Maps) (fun _ => True) :=
  Program.Always.perform unmapped

theorem looks_unmapped (file : FileId) : Looks (fun request => ¬request.Maps) file :=
  ⟨id, fun _ _ => id, fun _ => id, fun _ => id, id⟩

theorem ends_detach (map : FileId) :
    (detach r map).Ends False execAttach
      (fun later now => later = { r with file := none } ∧ now = attaches) attaches := by
  refine (ends_unmapped (unmapped_call (.munmap map) id) attaches).bind ?_
  rintro - now ⟨-, rfl⟩
  exact ⟨rfl, rfl⟩

theorem ends_retired (map : FileId) :
    (retired map).Ends False execAttach (fun _ now => now = attaches) attaches :=
  (ends_unmapped (looks_unmapped map).retired attaches).mono fun _ _ ended => ended.2

theorem ends_attach (unattached : r.file = none) :
    (attach r).Ends False execAttach (SyncEnd r attaches) attaches := by
  have closes (code : Code) (failed : code ≠ .ok) (fits : code ≠ .toosmall) (file : FileId) :
      (do call (.close file); return (code, r)).Ends False execAttach (SyncEnd r attaches)
        attaches := by
    refine (ends_unmapped (unmapped_call (.close file) id) attaches).bind ?_
    rintro - now ⟨-, rfl⟩
    exact SyncEnd.unattached unattached failed fits
  unfold attach
  refine (ends_unmapped (unmapped_call .openData id) attaches).bind ?_
  rintro reply now ⟨-, rfl⟩
  split
  · exact SyncEnd.unattached unattached nofun nofun
  · exact SyncEnd.unattached unattached nofun nofun
  next file =>
  refine (ends_unmapped (looks_unmapped file).readHeader now).bind ?_
  rintro ⟨rc, bytes, h⟩ after ⟨fits, rfl⟩
  dsimp only
  split
  next failed => exact closes _ failed fits file
  split
  · exact closes .format nofun nofun file
  refine ⟨False.elim, fun reply mapped executed => ?_⟩
  cases reply with
  | error err =>
      obtain rfl : mapped = after := executed
      exact closes .sys nofun nofun file
  | ok _ =>
      obtain rfl : mapped = after + 1 := executed
      refine (ends_unmapped (unmapped_call (.close file) id) (after + 1)).bind ?_
      rintro - now ⟨-, rfl⟩
      exact ⟨⟨Nat.le_succ _, fun same => absurd same (Nat.succ_ne_self _), fun _ => rfl⟩,
        iff_of_true rfl nofun, nofun⟩

theorem ends_attachLoop (unattached : r.file = none) (tries : Nat) :
    (attachLoop r tries).Ends False execAttach (SyncEnd r attaches) attaches := by
  induction tries generalizing r attaches with
  | zero => exact SyncEnd.unattached unattached nofun nofun
  | succ tries ih =>
      unfold attachLoop
      refine (ends_attach unattached).bind ?_
      rintro ⟨rc, later⟩ now synced
      dsimp only
      split
      · next map named =>
          refine (ends_retired map).bind ?_
          rintro retired after rfl
          split
          · exact synced
          refine (ends_detach map).bind ?_
          rintro - after ⟨rfl, rfl⟩
          exact (ih rfl).mono fun _ _ => SyncEnd.after (synced.follows.trans Follows.detached)
      · exact synced

theorem ends_readerSync (r : Reader) (attaches : Nat) :
    (readerSync r).Ends False execAttach (SyncEnd r attaches) attaches := by
  unfold readerSync
  split
  next map attached =>
    refine (ends_retired map).bind ?_
    rintro retired after rfl
    split
    · exact ⟨Follows.refl r after, iff_of_true rfl (by rw [attached]; nofun), nofun⟩
    refine (ends_detach map).bind ?_
    rintro - after ⟨rfl, rfl⟩
    exact (ends_attachLoop rfl attachRetries).mono fun _ _ => SyncEnd.after Follows.detached
  next unattached => exact ends_attachLoop unattached attachRetries

theorem ends_identityCheck (r : Reader) (attaches : Nat) :
    (identityCheck r).Ends False execAttach
      (fun outcome now => Follows r attaches outcome.2 now) attaches := by
  have detaches (map : FileId) : (do return (Code.ok, ← detach r map)).Ends False execAttach
      (fun (outcome : Code × Reader) now => Follows r attaches outcome.2 now) attaches := by
    refine (ends_detach map).bind ?_
    rintro - after ⟨rfl, rfl⟩
    exact Follows.detached
  unfold identityCheck
  split
  · exact Follows.refl r attaches
  next map attached =>
  refine (ends_unmapped (unmapped_call .lstatData id) attaches).bind ?_
  rintro reply now ⟨-, rfl⟩
  split
  · split
    · exact Follows.refl r now
    · exact detaches map
  · exact detaches map
  · exact Follows.refl r now

/-- What a read or peek does: with a result it takes the announcement of the reader, as it is
after `reader_sync`, and without one it leaves it. -/
def Announced (r : Reader) (attaches : Nat) (outcome : ReadReply × Reader) (now : Nat) : Prop :=
  if outcome.1.code = .ok ∨ outcome.1.code = .toosmall then
    ∃ synced, Follows r attaches synced now ∧ synced.file ≠ none ∧
      outcome.2 = { synced with announce := false } ∧ outcome.1.ni.attached = synced.announce
  else Follows r attaches outcome.2 now

theorem announce_flag {info : Option Info} {found : Info} (given : info = some found)
    (bare : found.flags = 0) :
    (announce r info).2 = { r with announce := false } ∧
      (((announce r info).1.getD ⟨0, 0, 0, 0⟩).attached = r.announce) := by
  subst given
  unfold announce
  cases announces : r.announce with
  | true => exact ⟨rfl, by simp [Info.attached, bare, psmsgrInfoAttached]⟩
  | false =>
      refine ⟨?_, by simp [Info.attached, bare]⟩
      rw [if_neg Bool.false_ne_true, ← announces]

theorem Announced.unsuccessful {outcome : ReadReply × Reader} {now : Nat}
    (follows : Follows r attaches outcome.2 now) (failed : outcome.1.code ≠ .ok)
    (large : outcome.1.code ≠ .toosmall) : Announced r attaches outcome now := by
  unfold Announced
  rw [if_neg (not_or.mpr ⟨failed, large⟩)]
  exact follows

theorem Announced.result {synced : Reader} {code : Code} {info : Option Info} {now : Nat}
    {size : UInt32} {copy : Bool} (follows : Follows r attaches synced now)
    (attached : synced.file ≠ none) (latest : LatestEnd size copy code info) (bytes : List UInt8)
    (success : code = .ok ∨ code = .toosmall) :
    Announced r attaches (⟨code, (announce synced info).1, bytes⟩, (announce synced info).2)
      now := by
  obtain ⟨found, given, bare⟩ := latest.flagless success
  obtain ⟨taken, flag⟩ := announce_flag given bare
  unfold Announced
  rw [if_pos success]
  exact ⟨synced, follows, attached, taken, flag⟩

theorem SyncEnd.unread {outcome : Code × Reader} {now : Nat} (synced : SyncEnd r attaches outcome now)
    (absent : ∀ map, outcome.1 = .ok → outcome.2.file = some map → False) (bytes : List UInt8) :
    Announced r attaches (⟨outcome.1, none, bytes⟩, outcome.2) now := by
  refine Announced.unsuccessful synced.follows (fun ok => ?_) synced.fits
  obtain ⟨map, named⟩ := Option.ne_none_iff_exists'.mp (synced.attached.mp ok)
  exact absent map ok named

theorem ends_psmsgrStateRead (buffer : Option (List UInt8)) (size : UInt32) :
    (psmsgrStateRead r buffer size).Ends False execAttach (Announced r attaches) attaches := by
  unfold psmsgrStateRead
  split
  · exact Announced.unsuccessful (Follows.refl r attaches) nofun nofun
  refine (ends_readerSync r attaches).bind ?_
  rintro ⟨rc, synced⟩ now ends
  dsimp only
  split
  · next map named =>
      refine (ends_unmapped ((looks_unmapped map).readLoop _ _) now).bind ?_
      rintro ⟨code, info, bytes⟩ after ⟨latest, rfl⟩
      dsimp only
      split
      next success =>
        exact Announced.result ends.follows (ends.attached.mp rfl) latest bytes
          (by simpa using success)
      next failed =>
        have failed : ¬(code = .ok ∨ code = .toosmall) := by simpa using failed
        exact Announced.unsuccessful ends.follows (fun ok => failed (.inl ok))
          (fun large => failed (.inr large))
  · next unattached => exact ends.unread (fun map ok named => unattached map ok named) _

theorem ends_psmsgrStatePeek :
    (psmsgrStatePeek r).Ends False execAttach (fun outcome now =>
      Announced r attaches outcome now ∧ outcome.1.code ≠ .toosmall) attaches := by
  unfold psmsgrStatePeek
  refine (ends_readerSync r attaches).bind ?_
  rintro ⟨rc, synced⟩ now ends
  dsimp only
  split
  · next map named =>
      refine (ends_unmapped ((looks_unmapped map).readLoop _ _) now).bind ?_
      rintro ⟨code, info, bytes⟩ after ⟨latest, rfl⟩
      dsimp only
      split
      next success =>
        exact ⟨Announced.result ends.follows (ends.attached.mp rfl) latest bytes (.inl success),
          latest.fits rfl⟩
      next failed =>
        exact ⟨Announced.unsuccessful ends.follows failed (latest.fits rfl), latest.fits rfl⟩
  · next unattached =>
      exact ⟨ends.unread (fun map ok named => unattached map ok named) _, ends.fits⟩

theorem ends_psmsgrStateDescribe :
    (psmsgrStateDescribe r).Ends False execAttach (fun outcome now =>
      SyncEnd r attaches (outcome.1, outcome.2.2) now) attaches := by
  unfold psmsgrStateDescribe
  refine (ends_readerSync r attaches).bind ?_
  rintro ⟨rc, synced⟩ now ends
  dsimp only
  split
  · exact ends
  next ok =>
    obtain rfl : rc = .ok := not_not.mp ok
    exact ends

theorem unmapped_futexWait (map : FileId) (expected : UInt32) (timeout : UInt64) :
    (futexWait map expected timeout).Always (fun request => ¬request.Maps) (fun _ => True) := by
  unfold futexWait
  refine (unmapped_call (.futexWait map expected timeout) id).bind fun reply _ => ?_
  split
  · trivial
  · exact unmapped_call .futexSleep id

theorem ends_waitLoop (lastGeneration : UInt32) (deadline : UInt64) (turns : Nat) :
    (waitLoop lastGeneration deadline turns r).Ends False execAttach
      (fun outcome now => Follows r attaches outcome.2 now) attaches := by
  induction turns generalizing r attaches with
  | zero => exact ⟨False.elim, fun reply => nomatch reply⟩
  | succ turns ih =>
      rw [waitLoop]
      refine (ends_readerSync r attaches).bind ?_
      rintro ⟨rc, synced⟩ now ⟨follows, -, -⟩
      have again {later : Reader} {after : Nat} (follows : Follows r attaches later after) :
          (waitLoop lastGeneration deadline turns later).Ends False execAttach
            (fun outcome now => Follows r attaches outcome.2 now) after :=
        ih.mono fun _ _ => follows.trans
      dsimp only at follows ⊢
      split
      · next map named =>
          split
          · exact follows
          refine (ends_unmapped (unmapped_call (.load map _) id) now).bind ?_
          rintro n after ⟨-, rfl⟩
          refine (ends_retired map).bind ?_
          rintro retired after rfl
          split
          · exact again follows
          refine (ends_unmapped ((looks_unmapped map).readLoop _ _) after).bind ?_
          rintro ⟨code, info, bytes⟩ after ⟨-, rfl⟩
          dsimp only
          split
          · exact follows
          split
          · exact follows
          refine (ends_unmapped (unmapped_call (.clock .monotonic) id) after).bind ?_
          rintro clock after ⟨-, rfl⟩
          split
          · exact follows
          refine (ends_unmapped (unmapped_futexWait map _ _) after).bind ?_
          rintro woken after ⟨-, rfl⟩
          split
          · exact again follows
          · exact follows
          · refine (ends_identityCheck synced after).bind ?_
            rintro ⟨checked, later⟩ after identified
            dsimp only at identified ⊢
            split
            · exact follows.trans identified
            · exact again (follows.trans identified)
          · exact again follows
          · exact follows
      · refine (ends_unmapped (unmapped_call (.clock .monotonic) id) now).bind ?_
        rintro clock after ⟨-, rfl⟩
        split
        · exact follows
        refine (ends_unmapped (unmapped_call (.nanosleep _) id) after).bind ?_
        rintro interrupted after ⟨-, rfl⟩
        split
        · exact follows
        · exact again follows
      · exact follows

theorem ends_psmsgrStateWait (turns : Nat) (lastGeneration : UInt32) (timeoutMs : Int) :
    (psmsgrStateWait turns r lastGeneration timeoutMs).Ends False execAttach
      (fun outcome now => Follows r attaches outcome.2 now) attaches := by
  unfold psmsgrStateWait
  split
  · exact ends_waitLoop _ _ turns
  refine (ends_unmapped (unmapped_call (.clock .monotonic) id) attaches).bind ?_
  rintro clock after ⟨-, rfl⟩
  exact ends_waitLoop _ _ turns

theorem ends_psmsgrStateWriterAlive :
    (psmsgrStateWriterAlive r).Ends False execAttach
      (fun outcome now => Follows r attaches outcome.2 now) attaches := by
  unfold psmsgrStateWriterAlive
  refine (ends_identityCheck r attaches).bind ?_
  rintro ⟨checked, later⟩ now identified
  dsimp only at identified ⊢
  split
  · exact identified
  refine (ends_readerSync later now).bind ?_
  rintro ⟨rc, synced⟩ after ⟨follows, -, -⟩
  have follows := identified.trans follows
  dsimp only at follows ⊢
  refine (ends_unmapped (unmapped_call .openLock id) after).bind ?_
  rintro opened after ⟨-, rfl⟩
  split
  · exact follows
  · exact follows
  next fd =>
  refine (ends_unmapped (unmapped_call (.getLock fd) id) after).bind ?_
  rintro conflict after ⟨-, rfl⟩
  refine (ends_unmapped (unmapped_call (.closeLock fd) id) after).bind ?_
  rintro - after ⟨-, rfl⟩
  split
  · exact follows
  · exact follows

end Native

/-- A native reader, with the number of its attaches and of the attach its last info came
from. -/
structure NativeReader where
  reader : Reader
  attaches : Nat
  source : Nat

def NativeReader.opened : NativeReader := ⟨Reader.unattached, 0, 0⟩

/-- The call filled in an info. -/
def NativeCall.Informs : (request : NativeCall) → request.Reply → Prop
  | .read _ _, reply | .peek, reply => reply.code = .ok ∨ reply.code = .toosmall
  | .describe, _ | .wait _ _ _, _ | .writerAlive, _ => False

/-- A native call among whatever others do to the channel. -/
def execNative (request : NativeCall) (before : NativeReader) (reply : request.Reply)
    (after : NativeReader) : Prop :=
  (request.program before.reader).Runs execAttach before.attaches (reply, after.reader)
    after.attaches ∧
  (request.Informs reply → after.source = after.attaches) ∧
  (¬request.Informs reply → after.source = before.source)

/-- A result the caller got: the attach it came from, and its flag. -/
structure Delivery where
  attachment : Nat
  attached : Bool
deriving DecidableEq

/-- A result carries the flag exactly if it is the first from its attach. -/
def AnnouncedOnce (delivered : List Delivery) : Prop :=
  ∀ earlier result later, delivered = earlier ++ result :: later →
    (result.attached = true ↔ ∀ other ∈ earlier, other.attachment ≠ result.attachment)

theorem AnnouncedOnce.start {delivered : List Delivery} {result : Delivery}
    (once : AnnouncedOnce (delivered ++ [result])) : AnnouncedOnce delivered := by
  rintro earlier first later rfl
  exact once earlier first (later ++ [result]) (by simp)

theorem AnnouncedOnce.concat {delivered : List Delivery} {result : Delivery}
    (once : AnnouncedOnce delivered)
    (first : result.attached = true ↔ ∀ other ∈ delivered, other.attachment ≠ result.attachment) :
    AnnouncedOnce (delivered ++ [result]) := by
  intro earlier other later same
  rcases List.eq_nil_or_concat later with rfl | ⟨rest, last, rfl⟩
  · obtain ⟨rfl, last⟩ := List.append_inj' same rfl
    obtain rfl := (List.cons.inj last).1
    exact first
  · have same : delivered ++ [result] = (earlier ++ other :: rest) ++ [last] := by
      rw [same]
      simp
    obtain ⟨rfl, -⟩ := List.append_inj' same rfl
    exact once earlier other rest rfl

/-- The books of a binding.  `owed` is an attach it has been told of and has not passed on. -/
structure Owed (native : NativeReader) (owed : Bool) (delivered : List Delivery) : Prop where
  once : AnnouncedOnce delivered
  known : ∀ result ∈ delivered, result.attachment ≤ native.attaches
  /-- Once a result of the current attach was handed out, nothing is left to announce. -/
  reported : (∃ result ∈ delivered, result.attachment = native.attaches) →
    native.reader.announce = false ∧ owed = false
  /-- Until then, the native reader or the binding has still to announce it. -/
  unreported : (∀ result ∈ delivered, result.attachment ≠ native.attaches) →
    native.reader.file ≠ none → native.reader.announce = true ∨ owed = true

section Books

variable {native later : NativeReader} {owed : Bool} {delivered : List Delivery}

theorem Owed.follows (books : Owed native owed delivered)
    (follows : Follows native.reader native.attaches later.reader later.attaches) :
    Owed later owed delivered := by
  have grows := follows.grows
  refine ⟨books.once, fun result member => Nat.le_trans (books.known result member) grows, ?_, ?_⟩
  · rintro ⟨result, member, current⟩
    have known := books.known result member
    have same : later.attaches = native.attaches := by omega
    rw [(follows.same same).1]
    exact books.reported ⟨result, member, current.trans same⟩
  · intro fresh attached
    rcases Nat.lt_or_eq_of_le grows with new | same
    · exact .inl (follows.new new)
    · obtain ⟨announces, stays⟩ := follows.same same.symm
      rw [announces]
      exact books.unreported (same ▸ fresh) (stays attached)

/-- The binding has an info in hand; with it, `attached` is owed. -/
structure InHand (native : NativeReader) (attached : Bool) (delivered : List Delivery) : Prop where
  books : Owed native attached delivered
  first : attached = true ↔ ∀ result ∈ delivered, result.attachment ≠ native.source
  source : native.source = native.attaches
  silent : native.reader.announce = false

theorem Owed.take {synced : Reader} (books : Owed native owed delivered)
    (follows : Follows native.reader native.attaches synced later.attaches)
    (attached : synced.file ≠ none) (taken : later.reader = { synced with announce := false })
    (source : later.source = later.attaches) :
    InHand later (owed || synced.announce) delivered := by
  have books : Owed ⟨synced, later.attaches, 0⟩ owed delivered := books.follows follows
  have first : (owed || synced.announce) = true ↔
      ∀ result ∈ delivered, result.attachment ≠ later.attaches := by
    constructor
    · intro holds result member current
      obtain ⟨silent, settled⟩ := books.reported ⟨result, member, current⟩
      dsimp only at silent
      simp [silent, settled] at holds
    · intro fresh
      rw [Bool.or_eq_true]
      exact (books.unreported fresh attached).symm
  have silent : later.reader.announce = false := by rw [taken]
  refine ⟨⟨books.once, books.known, fun current => ⟨silent, ?_⟩, fun fresh _ => .inr (first.mpr fresh)⟩,
    source ▸ first, source, silent⟩
  obtain ⟨announces, settled⟩ := books.reported current
  exact Bool.or_eq_false_iff.mpr ⟨settled, announces⟩

theorem InHand.deliver {attached : Bool} (inHand : InHand native attached delivered) :
    Owed native false (delivered ++ [⟨native.source, attached⟩]) where
  once := inHand.books.once.concat inHand.first
  known := by
    simp only [List.mem_append, List.mem_singleton]
    rintro result (member | rfl)
    · exact inHand.books.known result member
    · exact Nat.le_of_eq inHand.source
  reported := fun _ => ⟨inHand.silent, rfl⟩
  unreported := fun fresh => absurd inHand.source (fresh ⟨native.source, attached⟩ (by simp))

/-- A detached reader owes nothing, even if its last result is withdrawn. -/
theorem Owed.withdraw {result : Delivery} (books : Owed native owed (delivered ++ [result]))
    (detached : native.reader.file = none) : Owed native owed delivered where
  once := books.once.start
  known := fun other member => books.known other (List.mem_append_left _ member)
  reported := fun ⟨other, member, current⟩ =>
    books.reported ⟨other, List.mem_append_left _ member, current⟩
  unreported := fun _ attached => absurd detached attached

theorem Owed.forget (books : Owed native owed delivered) (detached : native.reader.file = none) :
    Owed native false delivered where
  once := books.once
  known := books.known
  reported := fun current => ⟨(books.reported current).1, rfl⟩
  unreported := fun _ attached => absurd detached attached

/-- What a native read or peek leaves a binding with. -/
structure Told (owed : Bool) (delivered : List Delivery) (reply : ReadReply)
    (later : NativeReader) : Prop where
  informed : reply.code = .ok ∨ reply.code = .toosmall →
    InHand later (owed || reply.ni.attached) delivered
  uninformed : reply.code ≠ .ok → reply.code ≠ .toosmall → Owed later owed delivered

theorem Owed.told {reply : ReadReply} (books : Owed native owed delivered)
    (announced : Announced native.reader native.attaches (reply, later.reader) later.attaches)
    (source : reply.code = .ok ∨ reply.code = .toosmall → later.source = later.attaches) :
    Told owed delivered reply later := by
  constructor
  · intro success
    rw [Announced, if_pos success] at announced
    obtain ⟨synced, follows, attached, taken, flag⟩ := announced
    rw [flag]
    exact books.take follows attached taken (source success)
  · intro failed fits
    rw [Announced, if_neg (not_or.mpr ⟨failed, fits⟩)] at announced
    exact books.follows announced

theorem Owed.read (books : Owed native owed delivered) (buffer : Option (List UInt8))
    (size : UInt32) :
    (PsMsgr.native (.read buffer size)).Ends False execNative (Told owed delivered) native :=
  ⟨False.elim, fun _ _ executed => books.told
    ((ends_psmsgrStateRead buffer size).runs executed.1) executed.2.1⟩

theorem Owed.peek (books : Owed native owed delivered) :
    (PsMsgr.native .peek).Ends False execNative (fun reply later =>
      Told owed delivered reply later ∧ reply.code ≠ .toosmall) native := by
  refine ⟨False.elim, fun _ _ executed => ?_⟩
  obtain ⟨announced, fits⟩ := ends_psmsgrStatePeek.runs executed.1
  exact ⟨books.told announced executed.2.1, fits⟩

theorem Owed.describe (books : Owed native owed delivered) :
    (PsMsgr.native .describe).Ends False execNative (fun reply later =>
      Owed later owed delivered ∧ later.source = native.source ∧
      (reply.1 ≠ .ok → later.reader.file = none)) native := by
  refine ⟨False.elim, fun reply later executed => ?_⟩
  have described : ((NativeCall.describe).program native.reader).Ends False execAttach
      (fun outcome now => SyncEnd native.reader native.attaches (outcome.1.1, outcome.2) now)
      native.attaches :=
    ends_psmsgrStateDescribe.bind fun _ _ ended => ended
  have ended := described.runs executed.1
  refine ⟨books.follows ended.follows, executed.2.2 id, fun failed => ?_⟩
  exact not_not.mp (mt ended.attached.mpr failed)

theorem Owed.wait (books : Owed native owed delivered) (turns : Nat) (lastGeneration : UInt32)
    (timeoutMs : Int) :
    (PsMsgr.native (.wait turns lastGeneration timeoutMs)).Ends False execNative
      (fun _ later => Owed later owed delivered) native :=
  ⟨False.elim, fun _ _ executed => books.follows
    ((ends_psmsgrStateWait turns lastGeneration timeoutMs).runs executed.1)⟩

theorem Owed.writerAlive (books : Owed native owed delivered) :
    (PsMsgr.native .writerAlive).Ends False execNative
      (fun _ later => Owed later owed delivered) native :=
  ⟨False.elim, fun _ _ executed => books.follows
    (ends_psmsgrStateWriterAlive.runs executed.1)⟩

/-- The books after a call: a result it handed out is in them. -/
def Settled (pending : Bool) (delivered : List Delivery) (flag : Option Bool)
    (later : NativeReader) : Prop :=
  Owed later pending (delivered ++ (flag.map (⟨later.source, ·⟩)).toList)

theorem InHand.settled {attached : Bool} (inHand : InHand native attached delivered) :
    Settled false delivered (some attached) native :=
  inHand.deliver

theorem Owed.settled (books : Owed native owed delivered) : Settled owed delivered none native := by
  unfold Settled
  simpa using books

end Books

section Bindings

variable {native : NativeReader} {delivered : List Delivery}

theorem C.ends_result {program : NativeProg ReadReply}
    (tells : program.Ends False execNative (Told false delivered) native) :
    (do return C.result (← program)).Ends False execNative
      (fun (result : ReadResult) later => Settled false delivered result.attached? later)
      native := by
  refine tells.bind fun reply later told => ?_
  have informed (success : reply.code = .ok ∨ reply.code = .toosmall) :
      InHand later reply.ni.attached delivered := by
    simpa using told.informed success
  change Settled false delivered (C.result reply).attached? later
  unfold C.result
  split
  next ok => exact (informed (.inl ok)).settled
  next large => exact (informed (.inr large)).settled
  next nodata => exact (told.uninformed (by simp [nodata]) (by simp [nodata])).settled
  next ok large _ => exact (told.uninformed ok large).settled

theorem Go.ends_readLoop {dst spare : List UInt8} {rounding : Nat → Nat} {attached : Bool}
    {r : Go.ReaderState} (attempts : Nat) (books : Owed native (r.pending || attached) delivered) :
    (Go.readLoop dst rounding attempts spare attached r).Ends False execNative
      (fun outcome later => Settled outcome.2.pending delivered outcome.1.attached? later)
      native := by
  induction attempts generalizing spare attached r native with
  | zero => exact books.settled
  | succ attempts ih =>
      unfold Go.readLoop
      refine (books.read _ _).bind fun reply later told => ?_
      have informed (success : reply.code = .ok ∨ reply.code = .toosmall) :
          InHand later (r.pending || reply.ni.attached || attached) delivered :=
        Bool.or_right_comm r.pending attached _ ▸ told.informed success
      split
      next ok => exact (informed (.inl ok)).settled
      next large => exact ih (informed (.inr large)).books
      next nodata => exact (told.uninformed (by simp [nodata]) (by simp [nodata])).settled
      next ok large _ => exact (told.uninformed ok large).settled

theorem Go.ends_readValue {r : Go.ReaderState} (value : List UInt8)
    (books : Owed native r.pending delivered) :
    (Go.readValue value r).Ends False execNative
      (fun outcome later => Settled outcome.2.pending delivered outcome.1.attached? later)
      native := by
  unfold Go.readValue
  refine (books.read _ _).bind fun reply later told => ?_
  split
  next success => exact (told.informed (.inl success.1)).settled
  split
  next nodata => exact (told.uninformed (by simp [nodata]) (by simp [nodata])).settled
  split
  next success => exact (told.informed success).books.settled
  next failed =>
    obtain ⟨failed, fits⟩ := not_or.mp failed
    exact (told.uninformed failed fits).settled

theorem Go.ends_peek {r : Go.ReaderState} (books : Owed native r.pending delivered) :
    (Go.peek r).Ends False execNative
      (fun outcome later => Settled outcome.2.pending delivered outcome.1.attached? later)
      native := by
  unfold Go.peek
  refine books.peek.bind fun reply later ⟨told, fits⟩ => ?_
  split
  next ok => exact (told.informed (.inl ok)).settled
  next nodata => exact (told.uninformed (by simp [nodata]) (by simp [nodata])).settled
  next ok nodata => exact (told.uninformed ok fits).settled

namespace BufferedReader

variable {r : BufferedReader}

@[simp] theorem resize_pending (size : Nat) : (r.resize size).pending = r.pending := by
  unfold resize
  split <;> rfl

theorem ends_fit {owed : Bool} (need : Nat) (books : Owed native owed delivered) :
    (fit need r).Ends False execNative (fun outcome later =>
      Owed later owed delivered ∧ later.source = native.source ∧ outcome.2.pending = r.pending ∧
      (outcome.1 ≠ none → later.reader.file = none)) native := by
  unfold fit
  refine books.describe.bind ?_
  rintro ⟨rc, desc⟩ later ⟨books, source, detached⟩
  dsimp only at detached ⊢
  split
  · exact ⟨books, source, resize_pending _, fun raised => absurd rfl raised⟩
  · exact ⟨books, source, resize_pending _, fun raised => absurd rfl raised⟩
  next ok _ => exact ⟨books, source, rfl, fun _ => detached ok⟩

theorem ends_handOut {due : Bool} {data : List UInt8} {info : StateInfo}
    (settled : r.pending = false) (inHand : InHand native info.attached delivered) :
    (handOut due data info r).Ends False execNative
      (fun outcome later => Settled outcome.2.pending delivered outcome.1.attached? later)
      native := by
  unfold handOut
  split
  · refine (ends_fit 0 inHand.deliver).bind ?_
    rintro ⟨raised, after⟩ later ⟨books, source, pending, detached⟩
    rw [← source] at books
    dsimp only at pending detached ⊢
    cases raised with
    | some code =>
        change Settled after.pending delivered none later
        rw [pending, settled]
        exact (books.withdraw (detached nofun)).settled
    | none =>
        change Settled after.pending delivered (some info.attached) later
        rw [pending, settled]
        exact books
  · change Settled r.pending delivered (some info.attached) native
    rw [settled]
    exact inHand.settled

theorem ends_readLoop {attached resized : Bool} (attempts : Nat)
    (books : Owed native (r.pending || attached) delivered) :
    (readLoop attempts attached resized r).Ends False execNative
      (fun outcome later => Settled outcome.2.pending delivered outcome.1.attached? later)
      native := by
  induction attempts generalizing attached resized r native with
  | zero => exact books.settled
  | succ attempts ih =>
      unfold readLoop
      refine (books.read _ _).bind fun reply later told => ?_
      have informed (success : reply.code = .ok ∨ reply.code = .toosmall) :
          InHand later (attached || (r.pending || reply.ni.attached)) delivered := by
        rw [← Bool.or_assoc, Bool.or_comm attached]
        exact told.informed success
      dsimp only
      split
      next ok => exact ends_handOut rfl (informed (.inl ok))
      next nodata => exact (told.uninformed (by simp [nodata]) (by simp [nodata])).settled
      next large =>
        refine (ends_fit _ (informed (.inr large)).books).bind ?_
        rintro ⟨raised, after⟩ final ⟨books, -, pending, detached⟩
        have settled : after.pending = false := pending
        cases raised with
        | some code =>
            change Settled after.pending delivered none final
            rw [settled]
            exact (books.forget (detached nofun)).settled
        | none =>
            refine ih ?_
            rw [settled, Bool.false_or]
            exact books
      next ok nodata large => exact (told.uninformed ok large).settled

theorem ends_readInto {buffer : List UInt8} {size : UInt32}
    (books : Owed native r.pending delivered) :
    (readInto buffer size r).Ends False execNative
      (fun outcome later => Settled outcome.2.pending delivered outcome.1.attached? later)
      native := by
  unfold readInto
  refine (books.read _ _).bind fun reply later told => ?_
  split
  next ok => exact (told.informed (.inl ok)).settled
  next nodata => exact (told.uninformed (by simp [nodata]) (by simp [nodata])).settled
  next large => exact (told.informed (.inr large)).books.settled
  next ok nodata large => exact (told.uninformed ok large).settled

theorem ends_peek (books : Owed native r.pending delivered) :
    (peek r).Ends False execNative
      (fun outcome later => Settled outcome.2.pending delivered outcome.1.attached? later)
      native := by
  unfold peek
  refine books.peek.bind fun reply later ⟨told, fits⟩ => ?_
  split
  next ok => exact (told.informed (.inl ok)).settled
  next nodata => exact (told.uninformed (by simp [nodata]) (by simp [nodata])).settled
  next ok nodata => exact (told.uninformed ok fits).settled

end BufferedReader

theorem CSharp.ends_tryReadValue {r : BufferedReader} (value : List UInt8)
    (books : Owed native r.pending delivered) :
    (CSharp.tryReadValue value r).Ends False execNative
      (fun outcome later => Settled outcome.2.pending delivered outcome.1.attached? later)
      native := by
  unfold CSharp.tryReadValue
  refine (books.read _ _).bind fun reply later told => ?_
  split
  next success => exact (told.informed (.inl success.1)).settled
  split
  next nodata => exact (told.uninformed (by simp [nodata]) (by simp [nodata])).settled
  split
  next success => exact (told.informed success).books.settled
  next failed =>
    obtain ⟨failed, fits⟩ := not_or.mp failed
    exact (told.uninformed failed fits).settled

end Bindings

/-- A caller's calls on a reader, one after the other, and what it got from them. -/
inductive Binding.Session (binding : Binding) :
    NativeReader → binding.State → List Delivery → Prop where
  | opened : Session binding NativeReader.opened binding.opened []
  | call {native later : NativeReader} {state after : binding.State} {delivered : List Delivery}
      {result : Binding.Result} (earlier : Session binding native state delivered)
      (request : binding.Call)
      (runs : (request.program state).Runs execNative native (result, after) later) :
      Session binding later after
        (delivered ++ (result.attached?.map (⟨later.source, ·⟩)).toList)

/-- A binding whose reading calls keep the books: `pending` is what it owes. -/
def Binding.Keeps (binding : Binding) (pending : binding.State → Bool) : Prop :=
  ∀ request state native delivered, Owed native (pending state) delivered →
    (binding.program request state).Ends False execNative
      (fun outcome later => Settled (pending outcome.2) delivered outcome.1.attached? later) native

theorem ends_nativeWaits {native : NativeReader} {owed : Bool} {delivered : List Delivery}
    (slices : List (Nat × UInt32 × Int)) (books : Owed native owed delivered) :
    (nativeWaits slices).Ends False execNative (fun _ later => Owed later owed delivered)
      native := by
  induction slices generalizing native with
  | nil => exact books
  | cons slice slices ih =>
      refine (books.wait _ _ _).bind fun code later books => ?_
      exact (ih books).bind fun _ _ books => books

theorem Binding.Keeps.call {binding : Binding} {pending : binding.State → Bool}
    (keeps : binding.Keeps pending) {native : NativeReader} {state : binding.State}
    {delivered : List Delivery} (books : Owed native (pending state) delivered)
    (request : binding.Call) :
    (request.program state).Ends False execNative
      (fun outcome later => Settled (pending outcome.2) delivered outcome.1.attached? later)
      native := by
  cases request with
  | reads request => exact (keeps request state native delivered books).bind fun _ _ ended => ended
  | describe => exact books.describe.bind fun _ _ ended => ended.1.settled
  | wait slices => exact (ends_nativeWaits slices books).bind fun _ _ books => books.settled
  | writerAlive => exact books.writerAlive.bind fun _ _ books => books.settled

theorem Binding.Keeps.session {binding : Binding} {pending : binding.State → Bool}
    (keeps : binding.Keeps pending) (fresh : pending binding.opened = false)
    {native : NativeReader} {state : binding.State} {delivered : List Delivery}
    (session : binding.Session native state delivered) :
    Owed native (pending state) delivered := by
  induction session with
  | opened =>
      rw [fresh]
      exact ⟨fun earlier result later same => by simp at same, nofun, nofun,
        fun _ attached => absurd rfl attached⟩
  | call earlier request runs books => exact (keeps.call books request).runs runs

theorem C.keeps : C.binding.Keeps (fun _ => false) := by
  rintro (⟨buffer, size⟩ | _) state native delivered books
  · exact (C.ends_result (books.read buffer size)).bind fun _ _ ended => ended
  · exact (C.ends_result (books.peek.mono fun _ _ ended => ended.1)).bind fun _ _ ended => ended

theorem Go.keeps : Go.binding.Keeps Go.ReaderState.pending := by
  rintro (⟨dst, spare, rounding⟩ | ⟨value⟩ | _) state native delivered books
  · exact Go.ends_readLoop _ (by simpa using books)
  · exact Go.ends_readValue value books
  · exact Go.ends_peek books

theorem Python.keeps : Python.binding.Keeps BufferedReader.pending := by
  rintro (_ | ⟨buffer⟩ | _) state native delivered books
  · exact BufferedReader.ends_readLoop _ (by simpa using books)
  · exact BufferedReader.ends_readInto books
  · exact BufferedReader.ends_peek books

theorem CSharp.keeps : CSharp.binding.Keeps BufferedReader.pending := by
  rintro (_ | ⟨destination⟩ | ⟨value⟩ | _) state native delivered books
  · exact BufferedReader.ends_readLoop _ (by simpa using books)
  · exact BufferedReader.ends_readInto books
  · exact CSharp.ends_tryReadValue value books
  · exact BufferedReader.ends_peek books

/-- In every session, whatever happens to the channel meanwhile, of the results a caller got
from one attach the first carries the attached flag and no other does. -/
theorem attach_announced_once :
    (∀ native state delivered, C.binding.Session native state delivered →
      AnnouncedOnce delivered) ∧
    (∀ native state delivered, Go.binding.Session native state delivered →
      AnnouncedOnce delivered) ∧
    (∀ native state delivered, Python.binding.Session native state delivered →
      AnnouncedOnce delivered) ∧
    ∀ native state delivered, CSharp.binding.Session native state delivered →
      AnnouncedOnce delivered :=
  ⟨fun _ _ _ session => (C.keeps.session rfl session).once,
    fun _ _ _ session => (Go.keeps.session rfl session).once,
    fun _ _ _ session => (Python.keeps.session rfl session).once,
    fun _ _ _ session => (CSharp.keeps.session rfl session).once⟩

end PsMsgr
