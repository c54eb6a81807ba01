import Charybdis.Ctx.Step

/-!
# Who wakes a sleeping context: join, interrupt, offload

Three calls of the `ctx` interface put a context to sleep and leave the waking to someone
else: `context::join()` to the exit of the context it joins, `interrupt(c)` to its own
cancel of the alarm, and `ole::offload(func)` to the worker thread's `kick`. Each works
when nothing else is in the way, and each breaks in a way the one `ctx::wait` underneath
does not guard against.

## Joining

`context::join()` is two lines: record the caller in the target's `adjoindre`, then one
`this_ctx::wait()`. The target's `atexit` notifies `adjoindre` when it finishes, and that
note is what the wait is for. The target's exit wakes a joiner that sleeps on its alarm
(`atexit_wakes_joiner`), and a joiner with no note pending does sleep (`join_sleeps`).

But the one wait has no loop around it. It returns on *any* note the caller takes — one
it already holds, or one sent by anybody else while the target still runs — and
`~context()` then resets its `unique_ptr` under a context that has not finished
(`join_returns_before_finish`). And `join()` tests `finished()`, which is `yc == nullptr`:
that also holds before the context has started, so `~context()` on a context whose
`spawn` closure is still queued returns at once and deletes the `ctx` that closure will
enter (`destroy_before_start_frees`).

## Interruption

`interrupt(c)` sets `INTERRUPTED` and calls `wake()`, which cancels `c`'s alarm. The flag
is read in two places only: by `ctx::operator()` before the context's function is called,
and by `interruption_point()`, which `ctx::wait` runs after a real suspension.

So an interrupt is seen when it lands before the start (`enter_interrupted`) or while the
context sleeps on its alarm: the cancel queues the resumption (`interrupt_wakes`), and the
resumption throws (`resume_interrupted`). An interrupt that lands while the context runs —
the context interrupting itself, say through `pool::interrupt()` on its own pool — cancels
nothing, and the next `ctx::wait` either returns through its fast path or sleeps with the
flag set and nothing to wake it (`interrupt_lost_by_running_context`).

`~context()` is `noexcept`, and the `join()` in it is a `ctx::wait`: an interrupt of the
destroying context while it sleeps there throws out of the destructor
(`dtor_interrupted_terminates`).

## Offload

`ole::offload(func)` and `this_ctx::yield()` both hand a closure to someone else — the
worker thread, or the `ios` queue — that writes `done` in the caller's frame and notifies
the caller, and both wait in `do wait(); while(!done);`. The loop ignores every spurious
note, as its comment says, but not an exception: `ctx::wait` throws `interrupted` out of
the loop, the frame is left, and the closure still runs later against locals that are
gone.

For `offload` the worker's timing is free, so an interrupt can land before `kick`
(`offload_leaves_before_kick`). The frame bookkeeping of the model is what shows it: a
closure run on a frame that has been left marks it `stale` (`kick_stale`,
`workerDone_stale`).
-/

namespace Charybdis.Sched

/-! ## Joining -/

/-- **The exit of a joined context wakes its joiner.** If `c` finishes while `j`, the
context in its `adjoindre`, sleeps on its alarm with no note pending, the `atexit` of `c`
cancels `j`'s alarm: `j` is woken and its resumption is queued. -/
theorem atexit_wakes_joiner {s : State} {c j : CtxId} {site : Site} (hne : j ≠ c)
    (hadj : (s.ctxs c).adjoindre = some j) (hph : (s.ctxs j).phase = .waiting site)
    (hn : (s.ctxs j).notes = 0) :
    ((atexit c s).ctxs j).phase = .woken site ∧ (atexit c s).queue = s.queue ++ [.resume j] := by
  simp [atexit, notifyAdjoindre, hadj, notify, note, hn, wake, hph, hne]

/-- **A joiner with nothing pending sleeps.** If `j` joins a context `d` that has not
finished, with `notes` at one, then `j` suspends in the join and `d` records `j` as the
context to notify. -/
theorem join_sleeps {s : State} {j d : CtxId} (site : Site) (hne : j ≠ d)
    (hd : joined (s.ctxs d) = false) (hn : (s.ctxs j).notes = 1) :
    ((join j d site s).ctxs j).phase = .waiting site ∧
      ((join j d site s).ctxs d).adjoindre = some j ∧ (join j d site s).current = none := by
  simp [join, hd, ThisCtx.wait, wait, hn, hne, Ne.symm hne]

/-- **`join()` returns before the context it joins has finished.** Context `0` sleeps in
`this_ctx::wait()`. Context `1` destroys the `context` owning it: `~context()` interrupts
`0` and joins it. Context `2`, started earlier, notifies `1` and exits. `0` takes its
interrupt, catches it and waits again. Then `1` resumes: its `join()` returns on the note
from `2`, with `0` still alive, and `~context()` deletes the `ctx` of `0` while `0` sleeps
on its alarm. -/
theorem join_returns_before_finish :
    ∃ s₁ s₂,
      run (State.init [0, 1, 2]) [.run, .op .wait, .run, .op (.destroy 0), .run,
        .op (.notify 1), .op .exit, .run, .cont, .op .wait, .run] = some s₁ ∧
      (s₁.ctxs 1).phase = .running (.ret (.dtor 0)) ∧ (s₁.ctxs 0).phase = .waiting .wait ∧
      step s₁ .cont = some s₂ ∧ (s₂.ctxs 0).freed = true ∧ (s₂.ctxs 0).phase = .waiting .wait :=
  ⟨_, _, rfl, by decide, by decide, rfl, by decide, by decide⟩

section
variable (c d : CtxId) (s : State)

end

/-- **An interrupt before the start is seen.** A context interrupted before its `spawn`
closure runs returns from `ctx::operator()` at once: it is finished, and its function is
never called. -/
theorem enter_interrupted {s s' : State} {c : CtxId} (hph : (s.ctxs c).phase = .spawned)
    (hi : (s.ctxs c).interrupted = true) (h : enter c s = some s') :
    (s'.ctxs c).phase = .finished ∧ s'.current = none := by
  simp only [enter, hph, hi, if_true, Option.some.injEq] at h
  subst h
  simp [atexit]

/-- **An interrupt of a sleeping context wakes it.** -/
theorem interrupt_wakes {s : State} {c : CtxId} {site : Site}
    (hph : (s.ctxs c).phase = .waiting site) :
    ((interrupt c s).ctxs c).phase = .woken site ∧ ((interrupt c s).ctxs c).interrupted = true ∧
      (interrupt c s).queue = s.queue ++ [.resume c] := by
  simp [interrupt, wake, hph]

/-- **A woken context that was interrupted throws when it resumes**, from the
`interruption_point()` of `ctx::wait`, and the flag is cleared. -/
theorem resume_interrupted {s : State} {c : CtxId} {site : Site}
    (hph : (s.ctxs c).phase = .woken site) (hi : (s.ctxs c).interrupted = true) :
    ∃ s', resume c s = some s' ∧ (s'.ctxs c).phase = .running (.raise site) ∧
      (s'.ctxs c).interrupted = false ∧ s'.current = some c := by
  simp [resume, hph, resumeAt, Ctx.interruptionPoint, hi]

/-- **An interrupt that lands while the context runs is lost.** Context `0` interrupts
itself, then calls `this_ctx::wait()`. Its `ctx::wait` sleeps: `INTERRUPTED` is set, the
alarm is at `time_point::max()`, the `ios` queue is empty and no context runs, so nothing
will ever wake it or let it see the flag. -/
theorem interrupt_lost_by_running_context :
    ∃ s, run (State.init [0]) [.run, .op (.interrupt 0), .op .wait] = some s ∧
      (s.ctxs 0).phase = .waiting .wait ∧ (s.ctxs 0).interrupted = true ∧
      (s.ctxs 0).alarm = none ∧ s.queue = [] ∧ s.current = none :=
  ⟨_, rfl, by decide, by decide, by decide, by decide, by decide⟩

/-- **`~context()` can throw.** Context `1` destroys the `context` owning `0`, and sleeps in
the `join()` of `~context()`. Context `2` interrupts `1` and exits; `0` takes its own
interrupt and exits, which notifies `1`. When `1` resumes, `ctx::wait` throws `interrupted`
out of the `noexcept` destructor: `std::terminate`. -/
theorem dtor_interrupted_terminates :
    ∃ s₁ s₂,
      run (State.init [0, 1, 2]) [.run, .op .wait, .run, .op (.destroy 0), .run,
        .op (.interrupt 1), .op .exit, .run, .cont, .op .exit, .run] = some s₁ ∧
      (s₁.ctxs 1).phase = .running (.raise (.dtor 0)) ∧
      step s₁ .cont = some s₂ ∧ s₂.terminated = true :=
  ⟨_, _, rfl, by decide, rfl, rfl⟩

/-! ## Offload -/

/-- **`offload` hands its closure to the worker and sleeps.** From a context with nothing
pending, `offload` pushes a fresh frame on `ole::queue` and suspends in its loop. -/
theorem offload_sleeps {s : State} {c : CtxId} (hn : (s.ctxs c).notes = 1) :
    ((offload c s).ctxs c).phase = .waiting (.offload s.nextFrame) ∧
      (offload c s).ole = s.ole ++ [s.nextFrame] ∧
      ((offload c s).frames s.nextFrame).live = true ∧ (offload c s).current = none := by
  simp [offload, ThisCtx.wait, wait, hn, State.setFrame, Frame.fresh]

/-- **`kick` on a left frame touches dead locals**: `done` and `context` are read and
written after the activation of `offload` that owned them has returned. -/
theorem kick_stale {s : State} {f : FrameId} (h : (s.frames f).live = false) :
    ((kick f s).frames f).stale = true ∧ (kick f s).ctxs = s.ctxs := by
  simp [kick, h, State.setFrame]

/-- **The worker's closure on a left frame touches dead locals**: it writes `eptr` and
reads `context` of an activation that has returned, and still posts `kick`. -/
theorem workerDone_stale {s : State} {f : FrameId} (threw : Bool)
    (h : (s.frames f).live = false) :
    ((workerDone f threw s).frames f).stale = true ∧
      (workerDone f threw s).queue = s.queue ++ [.kick f] := by
  simp [workerDone, h, State.setFrame]

/-- **`offload` exits before its closure has run.** Context `0` offloads a function and
sleeps in the loop of `offload`. Context `1` interrupts it and exits. `0` resumes, and
`ctx::wait` throws out of `offload` before the worker has even popped the closure. The
worker then runs `func`, writes into the frame and posts `kick`, and `kick` writes `done`
into it: both after the frame was left. -/
theorem offload_leaves_before_kick :
    ∃ s₁ s₂,
      run (State.init [0, 1]) [.run, .op .offload, .run, .op (.interrupt 0), .op .exit,
        .run] = some s₁ ∧
      (s₁.ctxs 0).phase = .running (.raise (.offload 0)) ∧ s₁.ole = [0] ∧
      run s₁ [.cont, .op .wait, .workerPop, .workerDone false, .run] = some s₂ ∧
      (s₂.frames 0).live = false ∧ (s₂.frames 0).done = false ∧ (s₂.frames 0).stale = true :=
  ⟨_, _, rfl, by decide, by decide, rfl, by decide, by decide, by decide⟩

end Charybdis.Sched
