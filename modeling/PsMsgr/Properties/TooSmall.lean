import PsMsgr.Properties.Retries
import PsMsgr.Still.Pausing

namespace PsMsgr

open Effect Data

/-- The reply names the length of a value published in the file, and the value is larger than
the buffer. -/
def Outgrown (disk : Disk) (file : FileId) (size : UInt32) (reply : ReadReply) : Prop :=
  ∃ info publish, reply.info = some info ∧ publish ∈ disk.publishes ∧ publish.file = file ∧
    info.length = publish.length ∧ size < info.length

namespace Execution

variable {execution : Execution} {thread : Tid} {r : Reader} {file : FileId} {first last : Nat}
  {size : UInt32} {copy : Bool} {g : Geometry}

/-- Each byte of a copy is one that the file had at an instant of the copying. -/
theorem of_loadBytes {offset count : Nat} {bytes : List UInt8}
    (executes : execution.Executes thread (loadBytes file offset count) first bytes last) :
    bytes.length = count ∧ ∀ k byte, bytes[k]? = some byte →
      ∃ instant, first ≤ instant ∧ instant ≤ last ∧
        byte = (execution.world instant).disk.memory file (offset + k) := by
  induction count generalizing offset first bytes with
  | zero =>
      obtain ⟨rfl, -⟩ := executes.of_done
      exact ⟨rfl, fun _ _ here => nomatch here⟩
  | succ count ih =>
      obtain ⟨byte, index, loaded, remaining⟩ := executes.of_bind
      obtain ⟨rest, final, copied, returned⟩ := remaining.of_bind
      obtain ⟨rfl, rfl⟩ := returned.of_done
      have value : byte = (execution.world first).disk.memory file offset :=
        loaded.of_perform.1.1
      obtain ⟨length, bytes⟩ := ih copied
      have passed := loaded.ordered
      refine ⟨congrArg (· + 1) length, fun k other here => ?_⟩
      cases k with
      | zero =>
          cases here
          exact ⟨first, Nat.le_refl _, executes.ordered, value⟩
      | succ k =>
          obtain ⟨instant, lower, upper, same⟩ := bytes k other here
          rw [Nat.add_right_comm] at same
          exact ⟨instant, by omega, upper, same⟩

/-- The published slot stays as it is while fewer values are published than there are other
slots. -/
theorem version_of_few (valid : ((execution.world first).disk.image file).Valid g)
    (installed : (execution.world first).disk.installed file = true)
    (published : ((execution.world first).disk.image file).history ≠ []) (ordered : first ≤ last)
    (few : (execution.world last).disk.published file <
      (execution.world first).disk.published file + (g.count - 1)) :
    ((execution.world last).disk.image file).version g
        (((execution.world first).disk.image file).current g) =
      ((execution.world first).disk.image file).version g
        (((execution.world first).disk.image file).current g) := by
  have grown : (execution.world first).disk.Evolves (execution.world last).disk :=
    Execution.evolves ordered
  by_contra moved
  have many := (grown.image installed).published_of_version valid.shape published moved
  exact absurd few (Nat.not_lt_of_le many)

/-- A turn that finds a value too large has the length of the value `latest` named, if the
slot was not written again meanwhile. -/
theorem length_of_toosmall {buffer left : List UInt8} {info : Option Info}
    (cached : Cached r file (execution.world first).disk)
    (executes : execution.Executes thread (readAttempt r file buffer size copy) first
      (.result .toosmall info left) last)
    (few : (execution.world last).disk.published file <
      (execution.world first).disk.published file + (r.slotCount.toNat - 1)) :
    ∃ found publish, info = some found ∧ publish ∈ ((execution.world first).disk.image file).history ∧
      found.length = publish.length := by
  rcases of_readAttempt cached executes with result | ⟨g, publish, index, attempted⟩
  · exact nomatch result
  have valid := attempted.valid
  have shown := attempted.shown
  rw [attempted.slotCount] at few
  have nonempty : ((execution.world first).disk.image file).history ≠ [] := by
    intro empty
    simp [empty] at shown
  rcases attempted.outcome with ⟨again, -⟩ |
    ⟨start, bytes, middle, final, kept, after, before, copied, rechecked⟩
  · exact nomatch again
  have started := attempted.lower
  have ended := rechecked.ordered
  obtain ⟨length, loaded⟩ := of_loadBytes copied
  -- the slot has one version during the copy, so the bytes are those it had at the start
  have matching : Matches ((execution.world first).disk.image file) g
      ((execution.world first).disk.image file)
      (g.slot (((execution.world first).disk.image file).current g)) bytes := by
    intro k byte here lower upper
    obtain ⟨instant, late, early, rfl⟩ := loaded k byte here
    have ordered : first ≤ instant := by omega
    have grown : (execution.world first).disk.Evolves (execution.world instant).disk :=
      Execution.evolves ordered
    have fewer : (execution.world instant).disk.published file ≤
        (execution.world last).disk.published file := published_mono (by omega)
    have same := version_of_few valid cached.installed nonempty ordered
      (Nat.lt_of_le_of_lt fewer few)
    have even : ((execution.world first).disk.image file).version g
        (((execution.world first).disk.image file).current g) % 2 = 0 := by
      have settled := valid.current_even nonempty
      unfold Image.version
      omega
    exact (grown.image cached.installed).contents g valid.shape _ Image.current_lt same even
      _ lower upper
  have faithful := matching.faithful length
  have published := valid.published
  unfold Image.Published at published
  rw [shown] at published
  obtain ⟨q2, _, loaded, returned⟩ := rechecked.of_bind
  split at returned
  · split at returned
    · exact nomatch returned.of_done.1
    · obtain ⟨-, rfl, -⟩ := Attempt.result.inj returned.of_done.1
      exact ⟨_, publish, rfl, List.mem_of_getLast? shown,
        faithful.length.trans published.2.length⟩
  · exact nomatch returned.of_done.1

theorem Looked.large {r' synced : Reader} {reply : ReadReply} {buffer : List UInt8}
    {info : Option Info} {start finish : Nat}
    (looked : Looked execution thread r' reply buffer size copy first last synced file info
      start finish) (toosmall : reply.code = .toosmall) {found : Info}
    (returned : reply.info = some found) : size < found.length := by
  have looks : Looks (fun _ => True) file :=
    ⟨trivial, fun _ _ => trivial, fun _ => trivial, fun _ => trivial, trivial⟩
  have ended := looked.executes.always (looks.readLoop readRetries buffer)
  have same := looked.length
  rw [returned] at same
  obtain ⟨earlier, here, length⟩ := Option.map_eq_some_iff.mp same.symm
  change earlier.length = found.length at length
  rw [← length]
  exact ended.large toosmall earlier here

/-- Where few values are published during the call, the first turn of a read is its last. -/
theorem Looked.first_turn {r' synced : Reader} {reply : ReadReply} {buffer : List UInt8}
    {info : Option Info} {start finish : Nat}
    (looked : Looked execution thread r' reply buffer size copy first last synced file info
      start finish)
    (few : (execution.world last).disk.published file <
      (execution.world first).disk.published file + (r'.slotCount.toNat - 1)) :
    ∃ final, final ≤ finish ∧ execution.Executes thread
      (readAttempt synced file buffer size copy) start (.result reply.code info reply.buffer)
      final := by
  have executes := looked.executes
  unfold readRetries at executes
  rw [readLoop] at executes
  obtain ⟨turn, index, attempt, remaining⟩ := executes.of_bind
  have passed := remaining.ordered
  cases turn with
  | result code found bytes =>
      cases remaining.of_done.1
      exact ⟨index, passed, attempt⟩
  | again bytes =>
      have many := publishes_of_again looked.cached attempt
      rw [looked.slotCount] at few
      have upper := looked.upper
      have before : (execution.world first).disk.published file ≤
          (execution.world start).disk.published file := published_mono looked.lower
      have after : (execution.world index).disk.published file ≤
          (execution.world last).disk.published file := published_mono (by omega)
      omega

end Execution

/-- A read that fails because its buffer is too small names the length of a value of the file
that is larger, as long as no slot is committed 2^27 times within one attempt to read it.  It
leaves the buffer as it was if fewer values are published in the file during the call than it
has other slots. -/
theorem toosmall_copies_nothing (execution : Execution) :
    (∀ {thread r r' buffer size reply first last},
      execution.Called thread (.reader r) (.read buffer size) (.reader r', .read reply)
        first last → reply.code = .toosmall → ∃ file, r'.file = some file ∧
        ((execution.world last).disk.published file <
            (execution.world first).disk.published file + (r'.slotCount.toNat - 1) →
          reply.buffer = buffer.getD [] ∧ Outgrown (execution.world last).disk file size reply)) ∧
    ∀ {thread r r' buffer size reply first last},
      execution.Called thread (.reader r) (.read buffer size) (.reader r', .read reply)
        first last → reply.code = .toosmall →
      ((execution.world last).log thread).wrapped = false →
      ∃ file, r'.file = some file ∧ Outgrown (execution.world last).disk file size reply := by
  refine ⟨?_, ?_⟩
  · intro thread r r' buffer size reply first last call toosmall
    obtain ⟨synced, file, info, start, finish, looked⟩ :=
      Execution.looked call rfl (.inr toosmall)
    refine ⟨file, looked.attached, fun few => ?_⟩
    obtain ⟨final, passed, attempt⟩ := looked.first_turn few
    rw [toosmall] at attempt
    have looks : Looks (fun _ => True) file :=
      ⟨trivial, fun _ _ => trivial, fun _ => trivial, fun _ => trivial, trivial⟩
    have ended := attempt.always (looks.readAttempt _) _ _ _ rfl
    have lower := looked.lower
    have upper := looked.upper
    have before : (execution.world first).disk.published file ≤
        (execution.world start).disk.published file := Execution.published_mono lower
    have after : (execution.world final).disk.published file ≤
        (execution.world last).disk.published file := Execution.published_mono (by omega)
    rw [looked.slotCount] at few
    obtain ⟨found, publish, rfl, here, length⟩ :=
      Execution.length_of_toosmall looked.cached attempt (by omega)
    obtain ⟨info, returned, same⟩ := Option.map_eq_some_iff.mp looked.length
    obtain ⟨member, named⟩ := List.mem_filter.mp here
    have grown : (execution.world start).disk.Evolves (execution.world last).disk :=
      Execution.evolves (Nat.le_trans attempt.ordered (by omega))
    exact ⟨ended.unread rfl, info, publish, returned, grown.publishes.subset member,
      of_decide_eq_true named, same.trans length, looked.large toosmall returned⟩
  · intro thread r r' buffer size reply first last call toosmall unwrapped
    obtain ⟨synced, _, _, start, finish, looked⟩ := Execution.looked call rfl (.inr toosmall)
    obtain ⟨instant, file, index, publish, lower, upper, attached, latest, reports⟩ :=
      Execution.read_latest call trivial unwrapped (.inr toosmall)
    obtain ⟨info, returned, shows⟩ := reports.info
    have grown : (execution.world instant).disk.Evolves (execution.world last).disk :=
      Execution.evolves upper
    obtain ⟨newest, here⟩ := latest
    obtain ⟨⟨other, there, named⟩, -⟩ := lastIndex_eq_some_iff.mp newest
    cases here.symm.trans there
    exact ⟨file, attached, info, publish, returned,
      grown.publishes.subset (List.mem_of_getElem? here), named, shows.length,
      looked.large toosmall returned⟩

theorem seq_republished {w : Writer} {g : Geometry} {once twice thrice : Memory}
    {first second : List UInt8} {len len' : UInt32} {stamp stamp' : UInt64} {i : Nat}
    (seated : Seated w g) (two : g.count = 2) (inside : i < 2) (other : i ≠ w.target)
    (small : first.length ≤ g.capacity.toNat) (whole : second.length = len'.toNat)
    (again : twice = publishedMemory w first len stamp once)
    (more : thrice = publishedMemory (w.published once) second len' stamp' twice) :
    thrice.word32 (g.slot i) ≠ once.word32 (g.slot i) := by
  have within := seated.target_lt
  obtain ⟨last, target⟩ := seated.published once
  rw [two] at within target
  have same : (w.published once).target = i := by omega
  have kept : twice.word32 (g.slot i) = once.word32 (g.slot i) := by
    rw [again]
    exact publishedMemory_other seated other small
  have counter : thrice.word32 (g.slot i) = _ := more ▸ same ▸ (publishedMemory_slot last whole).2.1
  intro unchanged
  rw [kept] at counter
  have count := congrArg UInt32.toNat (unchanged.symm.trans counter)
  have bound := (once.word32 (g.slot i)).toNat_lt
  rw [UInt32.toNat_add, clearLowBit_toNat] at count
  change _ = (_ / 2 * 2 + 2) % 2 ^ 32 at count
  omega

theorem steps_republished {system : System processes} {w : Writer} {g : Geometry}
    {bytes : List UInt8} {len : UInt32} {i : Nat}
    (idle : system.threads 0 = .idle (Handle.writer w)) (fitted : Fitted w system.state)
    (value : Publishable w.capacity (some bytes) len) (seated : Seated w g) (two : g.count = 2)
    (inside : i < 2) (other : i ≠ w.target) :
    ∃ next gen after, Steps channel processes system (system.set 0 after (.idle (.writer next))) ∧
      Fitted next after ∧ next.file = w.file ∧ (∀ {r : Reader}, r.Matches w → r.Matches next) ∧
      after.disk.Offers w.file gen len (bytes.take len.toNat) ∧
      (after.disk.memory w.file).word32 (g.slot i) ≠
        (system.state.disk.memory w.file).word32 (g.slot i) := by
  obtain ⟨stamp, once, publishes, wrote, fitted', -⟩ := steps_publish idle fitted value
  obtain ⟨stamp', twice, publishes', wrote', fitted'', offers, -⟩ :=
    @steps_publish (system.set 0 once _) 0 _ _ _ System.set_thread fitted'
      (by rw [Writer.published_capacity]; exact value)
  rw [System.set_set, System.set_state] at publishes'
  rw [System.set_state] at wrote' fitted''
  rw [Writer.published_file] at wrote' fitted'' offers
  refine ⟨_, _, twice, publishes.trans publishes', fitted'', rfl,
    fun reader => (reader.published _).published _, offers, ?_⟩
  refine seq_republished seated two inside other ?_ value.length wrote.memory_eq wrote'.memory_eq
  rw [value.length, ← seated.capacity]
  exact value.fits

/-- Not so for a reader whose copy is overtaken twice by longer values in a file of two slots: it
fails with the first byte of the earliest value in its buffer. -/
theorem toosmall_copied : ¬ ∀ (execution : Execution) {thread r r' buffer size reply first last},
    execution.Called thread (.reader r) (.read buffer size) (.reader r', .read reply) first last →
    reply.code = .toosmall →
    reply.buffer = buffer.getD [] ∧ ∃ file, r'.file = some file ∧
      Outgrown (execution.world last).disk file size reply := by
  intro claim
  obtain ⟨w, created, opens, fitted, creates⟩ := steps_opened
  have short : Publishable w.capacity (some [1]) 1 :=
    .of_bytes (by decide) (by rw [creates.capacity]; decide)
  have long : Publishable w.capacity (some [2, 2]) 2 :=
    .of_bytes (by decide) (by rw [creates.capacity]; decide)
  -- one value is published, and a reader copies it
  obtain ⟨stamp₁, once, publishes₁, wrote₁, fitted₁, offers₁, -⟩ :=
    @steps_publish (start.set 0 created _) 0 w _ _ System.set_thread fitted short
  simp only [System.set_set, System.set_state] at publishes₁ wrote₁ fitted₁ offers₁
  let w₁ := w.published (created.disk.memory w.file)
  obtain ⟨i, m, paused, copies, disk, busy, others, slot⟩ := @steps_copied 1
    (start.set 0 once (.idle (Handle.writer w₁))) w₁ w.gen 1 1 [1] [0] rfl fitted₁ offers₁
    (by decide) rfl
  obtain ⟨g, -, seated⟩ := fitted.shape
  obtain ⟨seated₁, target₁⟩ := seated.published (created.disk.memory w.file)
  have two : g.count = 2 := by
    rw [Geometry.count, ← seated.slotCount, creates.slotCount]
    rfl
  have inside := seated.target_lt
  rw [two] at inside target₁
  have other : w.target ≠ w₁.target := by
    change w.target ≠ (w.published _).target
    omega
  -- the copied slot is the one that was published
  have place : writerSlot w₁ i = g.slot w.target := by
    have latest := (@publishedMemory_slot w g (created.disk.memory w.file) [1] 1 stamp₁ seated rfl).1
    have memory : once.disk.memory w.file = publishedMemory w [1] 1 stamp₁ _ := wrote₁.memory_eq
    rw [← memory] at latest
    have target : i = slotAfter w.latest w.slotCount := by
      refine slot.trans ((congrArg psmiLatestSlot latest).trans (psmiLatestSlot_psmiLatest _ ?_))
      exact Nat.lt_of_lt_of_le seated.target_lt g.le_sixteen
    rw [target]
    exact seated.writerSlot_eq
  -- before the reader sees whether it has changed, two longer values are published
  obtain ⟨next, gen, thrice, publishes₂, fitted₂, file, keeps, offers₂, changed⟩ :=
    @steps_republished paused w₁ g [2, 2] 2 w.target (others 0 (by decide))
      (fitted₁.congr (congrArg Disk.data disk) (congrArg Disk.files disk)) long seated₁ two inside other
  rw [← place, congrArg (fun disk => disk.memory w₁.file) disk] at changed
  obtain ⟨final, rechecks, -⟩ := @runs_recheck 1 thrice _ w₁.file (writerSlot w₁ i) _ 1 m [1]
    changed 62
  let overtaken := paused.set 0 thrice (.idle (Handle.writer next))
  have reads : overtaken.threads 1 = _ := (System.set_other (by decide)).trans busy
  have returns := @Steps.return _ _ _ _ _ channel processes overtaken _ _ _ _ _ _ _ reads rechecks
  obtain ⟨execution, last, reached⟩ := Execution.reaching (opens.trans (publishes₁.trans
    (copies.trans (publishes₂.trans returns))))
  obtain ⟨first, call⟩ := Execution.called execution
    ((congrArg (fun system => system.threads 1) reached).trans System.set_thread)
  rw [← file] at offers₂
  obtain ⟨code, -, buffer⟩ := fitted₂.reply offers₂ (keeps fitted₁.attached) [1] 1
  rw [file] at code buffer
  obtain ⟨unchanged, -⟩ := claim execution call code
  have same : ([1] : List UInt8) = [0] := buffer.symm.trans unchanged
  exact absurd same (by decide)

end PsMsgr
