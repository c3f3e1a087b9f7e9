import PsMsgr.Effect.Advances
import PsMsgr.Channel.System

namespace PsMsgr

open Effect

/-- What a step of the processes does to the world. -/
inductive Moves (before : World) : World → Prop where
  | rest : Moves before before
  | start (thread : Tid) (request : Request) : Moves before (takeUp thread request before)
  | call {thread : Tid} {request : Sys} {reply : request.Reply} {after : World}
      (executed : exec thread request before reply after) : Moves before after
  | kill (thread : Tid) : Moves before (crash thread before)

namespace Execution

theorem moves (execution : Execution) (index : Nat) :
    Moves (execution.world index) (execution.world (index + 1)) := by
  unfold world
  rcases execution.next index with same | step
  · rw [same]
    exact .rest
  generalize execution.systems index = before, execution.systems (index + 1) = after at step ⊢
  cases step with
  | start thread request idle accepted => exact .start thread request
  | call thread busy executed => exact .call executed
  | finish thread busy => exact .rest
  | kill thread alive => exact .kill thread

/-- What holds in the empty directory and is kept by every move holds all the time. -/
theorem maintained {kept : World → Prop} (execution : Execution) (initially : kept World.empty)
    (moved : ∀ {before after}, Inv before → Moves before after → kept before → kept after)
    (index : Nat) : kept (execution.world index) := by
  induction index with
  | zero =>
      rw [world, execution.first]
      exact initially
  | succ index ih => exact moved (execution.inv index) (execution.moves index) ih

variable {execution : Execution} {thread : Tid} {first last : Nat} {α : Type}

theorem ends {pre : World → Prop} {post : α → World → Prop} {program : Prog α} {value : α}
    (executes : execution.Executes thread program first value last)
    (triple : channel.Triple thread pre program post) (holds : pre (execution.world first)) :
    post value (execution.world last) :=
  (sound_start.executes executes (triple _ (execution.inv first) holds)).2

theorem rested {assertion : World → Prop} (rests : execution.Rests thread first last)
    (stable : channel.Stable thread assertion) (holds : assertion (execution.world first)) :
    assertion (execution.world last) :=
  stable _ _ holds (sound_start.rests execution rests) (execution.inv last)

theorem now_mono (ordered : first ≤ last) :
    (execution.world first).now ≤ (execution.world last).now := by
  refine sound_start.along execution (fun before after => before.now ≤ after.now)
    (fun _ => UInt64.le_refl _) UInt64.le_trans ?_ ordered
  intro mover before after inv guarantee
  exact Rely.now (guarantee.rely (mover + 1) (Nat.succ_ne_self mover))

theorem wrapped_mono (ordered : first ≤ last)
    (wrapped : ((execution.world first).log thread).wrapped = true) :
    ((execution.world last).log thread).wrapped = true := by
  refine sound_start.along execution (fun before after =>
    (before.log thread).wrapped = true → (after.log thread).wrapped = true)
    (fun _ => id) (fun left right => right ∘ left) ?_ ordered wrapped
  intro mover before after inv guarantee wrapped
  by_cases own : thread = mover
  · rw [own] at wrapped ⊢
    exact Progress.wrapped guarantee.step wrapped
  · rw [Rely.log (guarantee.rely thread own)]
    exact wrapped

theorem owns_served {handle : Handle} {request : Request}
    (serves : execution.Serves thread handle request first last) :
    handle.Owns thread (execution.world first) := by
  obtain ⟨state, inv, owns, accepted, since⟩ :=
    sound_start.begun execution (fun _ => ⟨Handle.fresh, rfl⟩) serves.started
  rw [world, since]
  exact (Handle.Owns.begin inv owns accepted).2

theorem owns_last {handle : Handle} {request : Request} {returned : Handle × Result}
    (call : execution.Called thread handle request returned first last) :
    returned.1.Owns thread (execution.world last) := by
  have ensured := (execution.sound last).threads thread
  rw [call.returns] at ensured
  exact (ensured _ (channel.rely_refl thread _) (execution.inv last)).1

end Execution

theorem frame_true {thread : Tid} : Frame thread (fun _ => True) :=
  ⟨stable_pure, fun _ _ _ holds => holds⟩

end PsMsgr
