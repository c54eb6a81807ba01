import Mathlib.Logic.Function.Basic

/-!
# Contexts, notes and the alarm

The cooperative scheduler of `ircd::ctx`, as `ctx.cc` builds it. A context is a stackful
coroutine on the one `ios` thread. It sleeps on its own asio timer, the `alarm`, and is
woken by cancelling that timer. Notes, interruption and joining are all built from three
moves:

* `ctx::wait` decrements `notes`, and suspends on the alarm only if that leaves it at zero;
* `ctx::note` increments `notes`, and cancels the alarm on the edge from zero (`wake`);
* the `continuation` destructor, run on every resume, sets `notes` back to one.

Cancelling a timer completes only a wait that is pending *at that moment*: the handler is
queued with `operation_aborted`, and a cancel with no wait pending does nothing. That one
fact of asio decides most of what follows, so the alarm is modelled as the phase of the
context (`waiting` while an `async_wait` is pending, `woken` once its handler is queued),
and the `ios` queue is a FIFO list of handlers.

Each definition here is one function of the source, acting on the whole scheduler state.
`Charybdis.Ctx.Step` puts them together into the step function of the scheduler.

Three counters and a flag on each context are ghosts: they are not in `struct ctx`, and
no function reads them. The counters count notes in, notes taken by a wait, and notes
discarded when `notes` is reset, and the notes ledger of `Charybdis.Ctx.Notes` is stated
over them; the flag says whether the last return of `ctx::wait` took a note, which is what
a timed wait's result is compared with in `Charybdis.Ctx.Alarm`.
-/

namespace Charybdis.Sched

/-- Contexts are named by their `ctx::id`. -/
abbrev CtxId := Nat

/-- Activations of `this_ctx::yield` and `ole::offload` are numbered; each holds the
locals its closures capture by reference. -/
abbrev FrameId := Nat

/-- The scheduler function a context is inside when its `ctx::wait` returns or throws. -/
inductive Site
  /-- `this_ctx::wait()`. -/
  | wait
  /-- `this_ctx::wait(duration, nothrow)`. -/
  | waitFor
  /-- `this_ctx::wait_until(tp, nothrow)`. -/
  | waitUntil (tp : Nat)
  /-- The `wait_until` of `this_ctx::sleep_until(tp)`, which loops until `tp`. -/
  | sleepUntil (tp : Nat)
  /-- `context::join()` on the context `c`. -/
  | join (c : CtxId)
  /-- The `join()` that `context::~context()` makes on `c`. -/
  | dtor (c : CtxId)
  /-- The loop of `this_ctx::yield()` in frame `f`. -/
  | yield (f : FrameId)
  /-- The loop of `ole::offload(func)` in frame `f`. -/
  | offload (f : FrameId)
  deriving DecidableEq, Repr

/-- What a running context does next. -/
inductive Cont
  /-- Its own code: the function given to `context::context`. -/
  | user
  /-- `ctx::wait` has returned inside `site`; the rest of `site` runs next. -/
  | ret (site : Site)
  /-- `ctx::wait` has thrown `interrupted` inside `site`. -/
  | raise (site : Site)
  deriving DecidableEq, Repr

/-- Where a context stands. `yc` is null exactly in `spawned` and `finished`, which is all
`started()` and `finished()` read. -/
inductive Phase
  /-- No `ctx` of this id has been made. -/
  | absent
  /-- Made by `context::context`; its `spawn` closure is queued. -/
  | spawned
  | running (k : Cont)
  /-- Suspended in `alarm.async_wait`, inside `site`. -/
  | waiting (site : Site)
  /-- Its alarm's handler is queued; it has not been resumed yet. -/
  | woken (site : Site)
  | finished
  deriving DecidableEq, Repr

/-- The fields of `struct ctx` that the scheduler reads, and three ghost counters. -/
structure Ctx where
  /-- `notes`: zero asleep, one awake; incremented by others, decremented by itself. -/
  notes : Int
  /-- The `context::INTERRUPTED` bit of `flags`. -/
  interrupted : Bool
  /-- `adjoindre`: the context to notify when this one finishes. -/
  adjoindre : Option CtxId
  /-- The expiry of `alarm`; `none` is `time_point::max()`. -/
  alarm : Option Nat
  phase : Phase
  /-- The `context` owning this `ctx` has deleted it (its `unique_ptr` was reset). -/
  freed : Bool
  /-- Ghost: calls of `note()` on this context. -/
  noted : Nat
  /-- Ghost: returns of `ctx::wait` that took a note, by the fast path or on a resume
  with `notes > 0`. -/
  consumed : Nat
  /-- Ghost: notes discarded when `notes` is set back to one. -/
  coalesced : Nat
  /-- Ghost: the last return of `ctx::wait` took a note. -/
  took : Bool
  deriving DecidableEq, Repr

/-- A `ctx` as its constructor leaves it: `notes{1}`, no flags, no `adjoindre`. -/
def Ctx.fresh : Ctx :=
  ⟨1, false, none, none, .spawned, false, 0, 0, 0, false⟩

/-- The slot of an id no `ctx` has been made for. -/
def Ctx.none : Ctx :=
  { Ctx.fresh with phase := .absent }

/-- A closure in the `ios` queue. -/
inductive Handler
  /-- The `spawn` closure of `context::context`: it enters `ctx::operator()`. -/
  | spawn (c : CtxId)
  /-- The completion of `c`'s `alarm.async_wait`: it resumes `c`. -/
  | resume (c : CtxId)
  /-- A closure calling `notify(c)`, posted by `signal` (`notify(ctx, threadsafe)`). -/
  | notify (c : CtxId)
  /-- The `restore` closure of `this_ctx::yield` in frame `f`. -/
  | restore (f : FrameId)
  /-- The `kick` closure of `ole::offload` in frame `f`. -/
  | kick (f : FrameId)
  deriving DecidableEq, Repr

/-- The locals of one activation of `this_ctx::yield` or `ole::offload`. -/
structure Frame where
  owner : CtxId
  /-- The activation has not been left, so its locals still exist. -/
  live : Bool
  done : Bool
  /-- `eptr` holds an exception: `func` threw. -/
  eptr : Bool
  /-- Ghost: a closure touched these locals after the activation was left. -/
  stale : Bool
  deriving DecidableEq, Repr

/-- The locals an activation starts with: `done(false)`, an empty `eptr`. -/
def Frame.fresh (c : CtxId) : Frame := ⟨c, true, false, false, false⟩

/-- The scheduler: every `ctx`, the `ios` thread, the clock and the offload worker. -/
structure State where
  ctxs : CtxId → Ctx
  /-- `ircd::ctx::current`. -/
  current : Option CtxId
  /-- The `ios` handler queue, run front first. -/
  queue : List Handler
  /-- `steady_clock::now()`. -/
  clock : Nat
  frames : FrameId → Frame
  nextFrame : FrameId
  /-- `ole::queue`: the closures `offload` has pushed, by frame. -/
  ole : List FrameId
  /-- The frame whose `func` the `ole::worker` thread is running. -/
  worker : Option FrameId
  /-- An exception has left a `noexcept` function: `std::terminate` was called. -/
  terminated : Bool

namespace State

/-- Replace one context. -/
def setCtx (s : State) (c : CtxId) (x : Ctx) : State :=
  { s with ctxs := Function.update s.ctxs c x }

/-- Queue a handler at the back of `ios`. -/
def post (s : State) (h : Handler) : State :=
  { s with queue := s.queue ++ [h] }

/-- Replace one frame. -/
def setFrame (s : State) (f : FrameId) (fr : Frame) : State :=
  { s with frames := Function.update s.frames f fr }

@[simp] theorem setCtx_self (s : State) (c : CtxId) (x : Ctx) : (s.setCtx c x).ctxs c = x := by
  simp [setCtx]

@[simp] theorem setCtx_ne (s : State) {c d : CtxId} (x : Ctx) (h : d ≠ c) :
    (s.setCtx c x).ctxs d = s.ctxs d := by
  simp [setCtx, h]

@[simp] theorem setCtx_current (s : State) (c : CtxId) (x : Ctx) :
    (s.setCtx c x).current = s.current := rfl

@[simp] theorem setCtx_queue (s : State) (c : CtxId) (x : Ctx) :
    (s.setCtx c x).queue = s.queue := rfl

@[simp] theorem setCtx_frames (s : State) (c : CtxId) (x : Ctx) :
    (s.setCtx c x).frames = s.frames := rfl

@[simp] theorem setCtx_clock (s : State) (c : CtxId) (x : Ctx) :
    (s.setCtx c x).clock = s.clock := rfl

@[simp] theorem setCtx_ole (s : State) (c : CtxId) (x : Ctx) : (s.setCtx c x).ole = s.ole := rfl

@[simp] theorem setCtx_worker (s : State) (c : CtxId) (x : Ctx) :
    (s.setCtx c x).worker = s.worker := rfl

@[simp] theorem setCtx_terminated (s : State) (c : CtxId) (x : Ctx) :
    (s.setCtx c x).terminated = s.terminated := rfl

@[simp] theorem post_ctxs (s : State) (h : Handler) : (s.post h).ctxs = s.ctxs := rfl

@[simp] theorem post_current (s : State) (h : Handler) : (s.post h).current = s.current := rfl

@[simp] theorem post_queue (s : State) (h : Handler) : (s.post h).queue = s.queue ++ [h] := rfl

@[simp] theorem post_frames (s : State) (h : Handler) : (s.post h).frames = s.frames := rfl

@[simp] theorem post_clock (s : State) (h : Handler) : (s.post h).clock = s.clock := rfl

@[simp] theorem post_ole (s : State) (h : Handler) : (s.post h).ole = s.ole := rfl

@[simp] theorem post_worker (s : State) (h : Handler) : (s.post h).worker = s.worker := rfl

@[simp] theorem post_terminated (s : State) (h : Handler) :
    (s.post h).terminated = s.terminated := rfl

@[simp] theorem setFrame_ctxs (s : State) (f : FrameId) (fr : Frame) :
    (s.setFrame f fr).ctxs = s.ctxs := rfl

@[simp] theorem setFrame_current (s : State) (f : FrameId) (fr : Frame) :
    (s.setFrame f fr).current = s.current := rfl

@[simp] theorem setFrame_queue (s : State) (f : FrameId) (fr : Frame) :
    (s.setFrame f fr).queue = s.queue := rfl

@[simp] theorem setFrame_self (s : State) (f : FrameId) (fr : Frame) :
    (s.setFrame f fr).frames f = fr := by
  simp [setFrame]

end State

/-! ## The functions of `ctx.cc` -/

/-- `ctx::wake`: `alarm.cancel()`. A pending `async_wait` completes with
`operation_aborted`, which queues the context's resumption; with no wait pending the
cancel does nothing. -/
def wake (c : CtxId) (s : State) : State :=
  match (s.ctxs c).phase with
  | .waiting site => (s.setCtx c { s.ctxs c with phase := .woken site }).post (.resume c)
  | _ => s

/-- `ctx::note`: `if(notes++ > 0) return false; wake(); return true;` -/
def note (c : CtxId) (s : State) : State :=
  let x := s.ctxs c
  let s' := s.setCtx c { x with notes := x.notes + 1, noted := x.noted + 1 }
  if 0 < x.notes then s' else wake c s'

/-- `ircd::ctx::notify(ctx &)`: `return ctx.note();` -/
def notify (c : CtxId) (s : State) : State := note c s

/-- `ircd::ctx::interrupt(ctx &)`: set `INTERRUPTED`, then `wake()`. -/
def interrupt (c : CtxId) (s : State) : State :=
  wake c (s.setCtx c { s.ctxs c with interrupted := true })

/-- `ctx::interruption_point(std::nothrow)`: report `INTERRUPTED` and clear it. -/
def Ctx.interruptionPoint (x : Ctx) : Bool × Ctx :=
  (x.interrupted, { x with interrupted := false })

/-- `ctx::wait` run by `c` inside `site`, up to its suspension:
`if(--notes > 0) return false;`, else `alarm.async_wait(...)` hands the thread back to the
`ios` loop (the `continuation` constructor clears `current`). -/
def wait (c : CtxId) (site : Site) (s : State) : State :=
  let x := s.ctxs c
  if 0 < x.notes - 1 then
    s.setCtx c { x with notes := x.notes - 1, consumed := x.consumed + 1, took := true,
                        phase := .running (.ret site) }
  else
    { s.setCtx c { x with notes := x.notes - 1, phase := .waiting site } with current := none }

/-- The rest of `ctx::wait` once its alarm handler runs: the `continuation` destructor
makes `c` current and sets `notes = 1`, then `interruption_point()` throws if
`INTERRUPTED` was set. -/
def resumeAt (c : CtxId) (site : Site) (s : State) : State :=
  let x := s.ctxs c
  let (intr, x') := x.interruptionPoint
  { s.setCtx c { x' with
      notes := 1,
      phase := .running (if intr then .raise site else .ret site),
      consumed := if 0 < x.notes then x.consumed + 1 else x.consumed,
      coalesced := x.coalesced + (x.notes - 1).toNat,
      took := 0 < x.notes } with
    current := some c }

/-- The alarm handler of `c`: it resumes `c` if `c` was woken. -/
def resume (c : CtxId) (s : State) : Option State :=
  match (s.ctxs c).phase with
  | .woken site => some (resumeAt c site s)
  | _ => none

/-- `if(adjoindre) notify(*adjoindre);` -/
def notifyAdjoindre (c : CtxId) (s : State) : State :=
  match (s.ctxs c).adjoindre with
  | some j => notify j s
  | none => s

/-- The `atexit` unwind of `ctx::operator()`: `notify(*adjoindre)`, then `current` and
`yc` are cleared. -/
def atexit (c : CtxId) (s : State) : State :=
  let s' := notifyAdjoindre c s
  { s'.setCtx c { s'.ctxs c with phase := .finished } with current := none }

/-- `ctx::operator()`, the entry of the coroutine: `notes = 1` and `current = this`; a
context interrupted before it started returns at once through `atexit`, without calling
its function. -/
def enter (c : CtxId) (s : State) : Option State :=
  let x := s.ctxs c
  match x.phase with
  | .spawned =>
    let s' := { s.setCtx c { x with notes := 1, phase := .running .user,
                                    coalesced := x.coalesced + (x.notes - 1).toNat } with
                current := some c }
    some (if x.interrupted then atexit c s' else s')
  | _ => none

end Charybdis.Sched
