import Charybdis.Ctx.Context

/-!
# The scheduler's step function

One step is one stretch of code that runs without giving the thread back: a call made by
the running context, the rest of a scheduler function after its `ctx::wait` returned, one
handler run by the `ios` loop, or an event from outside the thread (a timer expiring, the
clock moving, another thread posting a note, the offload worker).

The running context's own code is not modelled: at each of its steps it may call any
function of the `ctx` interface (`Op`). The scheduler functions it calls are modelled
whole, each cut at its suspension points, so a context is inside `this_ctx::yield` or
`context::join` from the call to the return, and the `Site` it waits in says which code
runs when its `ctx::wait` returns.

`Reachable` is every state some run from `State.init` reaches; `run` replays a list of
actions, which is how the counterexamples of the later modules are written.
-/

namespace Charybdis.Sched

/-! ## `this_ctx` -/

namespace ThisCtx

/-- `this_ctx::wait()`: `alarm.expires_at(time_point::max())`, then `ctx::wait`. -/
def wait (c : CtxId) (site : Site) (s : State) : State :=
  Sched.wait c site (s.setCtx c { s.ctxs c with alarm := none })

/-- `this_ctx::wait(duration, nothrow)`: `alarm.expires_from_now(duration)`, then
`ctx::wait`. -/
def waitFor (c : CtxId) (dur : Nat) (s : State) : State :=
  Sched.wait c .waitFor (s.setCtx c { s.ctxs c with alarm := some (s.clock + dur) })

/-- `this_ctx::wait_until(tp, nothrow)`: `alarm.expires_at(tp)`, then `ctx::wait`. -/
def waitUntil (c : CtxId) (tp : Nat) (site : Site) (s : State) : State :=
  Sched.wait c site (s.setCtx c { s.ctxs c with alarm := some tp })

/-- What `this_ctx::wait(duration, nothrow)` returns, read once its `ctx::wait` has
returned: `alarm.expires_from_now()`, the time from the clock to the alarm, which is
negative once the alarm has passed. The function's comment reads a positive value as
"notified". An alarm at `time_point::max()` has no number here. -/
def waitForResult (x : Ctx) (clock : Nat) : Option Int :=
  x.alarm.map fun t => (t : Int) - clock

/-- What `this_ctx::wait_until(tp, nothrow)` returns, read once its `ctx::wait` has
returned: `steady_clock::now() >= tp`, `true` for a timeout. -/
def waitUntilResult (tp clock : Nat) : Bool :=
  tp ≤ clock

/-- `this_ctx::yield()`: post `restore`, then `do wait(); while(!done);`. -/
def yield (c : CtxId) (s : State) : State :=
  let f := s.nextFrame
  let s' := { s.setFrame f (Frame.fresh c) with nextFrame := f + 1 }
  wait c (.yield f) (s'.post (.restore f))

/-- `this_ctx::interruption_point()`: throws if `INTERRUPTED` is set, and clears it. -/
def interruptionPoint (c : CtxId) (s : State) : State :=
  s.setCtx c (s.ctxs c).interruptionPoint.2

end ThisCtx

/-! ## `context`, `ole` -/

/-- `ctx::finished(ctx)`: `yc == nullptr`. The coroutine handle is null from the
constructor until `ctx::operator()` runs, and again once it has returned, so a context
that has not started yet is `finished()` as well. -/
def finished (x : Ctx) : Bool :=
  match x.phase with
  | .spawned | .finished => true
  | _ => false

/-- `context::joined()` lives in `ctx/context.h`, which is not under src/; it is taken to
be the test the source gives for the end of a context, `finished()`. -/
def joined (x : Ctx) : Bool :=
  finished x

/-- `context::join()` called by `j` on the context `d`:
`if(joined()) return; c->adjoindre = &cur(); wait();` -/
def join (j d : CtxId) (site : Site) (s : State) : State :=
  if joined (s.ctxs d) then s.setCtx j { s.ctxs j with phase := .running (.ret site) }
  else ThisCtx.wait j site (s.setCtx d { s.ctxs d with adjoindre := some j })

/-- `context::~context()` run by `j` on the `context` owning `d`: `interrupt(); join();`.
The caller is a context, so the `if(!current) return;` guard does not fire. -/
def destroy (j d : CtxId) (s : State) : State :=
  join j d (.dtor d) (interrupt d s)

/-- `context::context(name, stack, POST, func)` run by the current context: a fresh
`ctx` whose `spawn` closure is posted to `ios`. -/
def spawn (d : CtxId) (s : State) : State :=
  (s.setCtx d Ctx.fresh).post (.spawn d)

/-- `ole::offload(func)` called by `c`: the closure is pushed on `ole::queue`, then
`do wait(); while(!done);`. -/
def offload (c : CtxId) (s : State) : State :=
  let f := s.nextFrame
  let s' := { s.setFrame f (Frame.fresh c) with nextFrame := f + 1, ole := s.ole ++ [f] }
  ThisCtx.wait c (.offload f) s'

/-- Leaving an activation of `yield` or `offload`: its locals are gone. -/
def leave (f : FrameId) (s : State) : State :=
  s.setFrame f { s.frames f with live := false }

/-- The context carries on in its own code. -/
def toUser (c : CtxId) (s : State) : State :=
  s.setCtx c { s.ctxs c with phase := .running .user }

/-- The rest of the scheduler function `site` after its `ctx::wait` returned. The loops
of `sleep_until`, `yield` and `offload` test their condition and wait again. -/
def afterWait (c : CtxId) : Site → State → State
  | .wait, s | .waitFor, s | .waitUntil _, s | .join _, s => toUser c s
  | .sleepUntil tp, s =>
    if ThisCtx.waitUntilResult tp s.clock then toUser c s
    else ThisCtx.waitUntil c tp (.sleepUntil tp) s
  | .dtor d, s => toUser c (s.setCtx d { s.ctxs d with freed := true })
  | .yield f, s =>
    if (s.frames f).done then toUser c (leave f s) else ThisCtx.wait c (.yield f) s
  | .offload f, s =>
    if (s.frames f).done then toUser c (leave f s) else ThisCtx.wait c (.offload f) s

/-- The exception thrown by `ctx::wait` inside `site` unwinds it. It leaves the frame of
`yield` and `offload`, and reaches `std::terminate` from `~context`, which is `noexcept`. -/
def afterRaise (c : CtxId) : Site → State → State
  | .dtor _, s => { s with terminated := true }
  | .yield f, s | .offload f, s => toUser c (leave f s)
  | _, s => toUser c s

/-! ## Handlers and the offload worker -/

/-- The `restore` closure of `yield`: `done = true; notify(me);`. The reference `me` is to
the context itself; `done` is a local of the frame. -/
def restore (f : FrameId) (s : State) : State :=
  let fr := s.frames f
  notify fr.owner (s.setFrame f (if fr.live then { fr with done := true }
                                 else { fr with stale := true }))

/-- The `kick` closure of `offload`: `done = true; notify(*context);`. Both `done` and
`context` are locals of the frame. -/
def kick (f : FrameId) (s : State) : State :=
  let fr := s.frames f
  if fr.live then notify fr.owner (s.setFrame f { fr with done := true })
  else s.setFrame f { fr with stale := true }

/-- One handler run by the `ios` loop. -/
def runHandler : Handler → State → Option State
  | .spawn c, s => enter c s
  | .resume c, s => resume c s
  | .notify c, s => some (notify c s)
  | .restore f, s => some (restore f s)
  | .kick f, s => some (kick f s)

/-- The offload closure, once `func()` has returned or thrown on the worker thread:
`eptr = current_exception()` if it threw, then `signal(*context, kick)`. On a frame whose
`offload` has been left, both `eptr` and `context` are dead locals, which is undefined
behaviour in the code; the model carries on and marks the frame `stale`. -/
def workerDone (f : FrameId) (threw : Bool) (s : State) : State :=
  let fr := s.frames f
  let fr' := if fr.live then { fr with eptr := fr.eptr || threw } else { fr with stale := true }
  { s.setFrame f fr' with worker := none }.post (.kick f)

/-! ## Steps -/

/-- A call the running context makes from its own code. -/
inductive Op
  | notify (d : CtxId)
  | interrupt (d : CtxId)
  | wait
  | waitFor (dur : Nat)
  | waitUntil (tp : Nat)
  | sleepUntil (tp : Nat)
  | join (d : CtxId)
  | destroy (d : CtxId)
  | yield
  | offload
  | spawn (d : CtxId)
  | interruptionPoint
  /-- The context's function returns. -/
  | exit
  deriving DecidableEq, Repr

/-- A context that exists: made, and not deleted. -/
def Ctx.alive (x : Ctx) : Bool :=
  x.phase ≠ .absent && !x.freed

/-- The call `o` made by the running context `c`. -/
def call (c : CtxId) (o : Op) (s : State) : Option State :=
  match o with
  | .notify d => if (s.ctxs d).alive then some (notify d s) else none
  | .interrupt d => if (s.ctxs d).alive then some (interrupt d s) else none
  | .wait => some (ThisCtx.wait c .wait s)
  | .waitFor dur => some (ThisCtx.waitFor c dur s)
  | .waitUntil tp => some (ThisCtx.waitUntil c tp (.waitUntil tp) s)
  | .sleepUntil tp => some (ThisCtx.waitUntil c tp (.sleepUntil tp) s)
  | .join d => if (s.ctxs d).alive then some (join c d (.join d) s) else none
  | .destroy d => if (s.ctxs d).alive then some (destroy c d s) else none
  | .yield => some (ThisCtx.yield c s)
  | .offload => some (offload c s)
  | .spawn d => if (s.ctxs d).phase = .absent then some (spawn d s) else none
  | .interruptionPoint => some (ThisCtx.interruptionPoint c s)
  | .exit => some (atexit c s)

/-- One step of the scheduler. -/
inductive Action
  /-- The running context calls `o`. -/
  | op (o : Op)
  /-- The running context carries on after its `ctx::wait` returned or threw. -/
  | cont
  /-- The `ios` loop runs the handler at the front of its queue. -/
  | run
  /-- The alarm of `c` expires: its pending `async_wait` completes. -/
  | expire (c : CtxId)
  | tick
  /-- Another thread calls `notify(c, threadsafe)`. -/
  | signal (c : CtxId)
  /-- The `ole::worker` thread pops a closure (`ole::pop`). -/
  | workerPop
  /-- The worker's `func()` returns, or throws if `threw`. -/
  | workerDone (threw : Bool)
  deriving DecidableEq, Repr

/-- The rest of the scheduler function `c` is in, once its `ctx::wait` returned or threw. -/
def carryOn (c : CtxId) (s : State) : Option State :=
  match (s.ctxs c).phase with
  | .running (.ret site) => some (afterWait c site s)
  | .running (.raise site) => some (afterRaise c site s)
  | _ => none

/-- The `ios` loop takes the handler at the front of its queue and runs it. -/
def runNext (s : State) : Option State :=
  match s.queue with
  | h :: rest => runHandler h { s with queue := rest }
  | [] => none

/-- The alarm of `c` expires while `c` waits on it: the `async_wait` completes. -/
def expire (c : CtxId) (s : State) : Option State :=
  match (s.ctxs c).phase, (s.ctxs c).alarm with
  | .waiting site, some t =>
    if t ≤ s.clock then
      some ((s.setCtx c { s.ctxs c with phase := .woken site }).post (.resume c))
    else none
  | _, _ => none

/-- `ole::pop` on the worker thread: take the closure at the front of `ole::queue`. -/
def workerPop (s : State) : Option State :=
  match s.worker, s.ole with
  | none, f :: rest => some { s with worker := some f, ole := rest }
  | _, _ => none

/-- The step function. `none` is a step that cannot be taken from `s`. -/
def step (s : State) (a : Action) : Option State :=
  if s.terminated then none else
  match a, s.current with
  | .op o, some c => if (s.ctxs c).phase = .running .user then call c o s else none
  | .cont, some c => carryOn c s
  | .run, none => runNext s
  | .expire c, _ => expire c s
  | .tick, _ => some { s with clock := s.clock + 1 }
  | .signal c, _ => if (s.ctxs c).alive then some (s.post (.notify c)) else none
  | .workerPop, _ => workerPop s
  | .workerDone threw, _ => s.worker.map (workerDone · threw s)
  | _, _ => none

/-- The step `a` from `s` to `s'`, told apart by the code it runs. -/
inductive Moves (s : State) : Action → State → Prop
  | call {c : CtxId} {s' : State} (o : Op) (hc : s.current = some c)
      (hp : (s.ctxs c).phase = .running .user) (h : call c o s = some s') : Moves s (.op o) s'
  | carryOn {c : CtxId} {s' : State} (hc : s.current = some c) (h : carryOn c s = some s') :
      Moves s .cont s'
  | run {s' : State} (hc : s.current = none) (h : runNext s = some s') : Moves s .run s'
  | expire {c : CtxId} {s' : State} (h : expire c s = some s') : Moves s (.expire c) s'
  | tick : Moves s .tick { s with clock := s.clock + 1 }
  | signal (c : CtxId) (ha : (s.ctxs c).alive = true) : Moves s (.signal c) (s.post (.notify c))
  | workerPop {f : FrameId} {rest : List FrameId} (hw : s.worker = none) (ho : s.ole = f :: rest) :
      Moves s .workerPop { s with worker := some f, ole := rest }
  | workerDone {f : FrameId} (threw : Bool) (hw : s.worker = some f) :
      Moves s (.workerDone threw) (workerDone f threw s)

/-- **What one step can do**: nothing once `std::terminate` was called, and otherwise one
of `Moves`. -/
theorem step_moves {s s' : State} {a : Action} (hs : step s a = some s') :
    s.terminated = false ∧ Moves s a s' := by
  unfold step at hs
  split at hs
  · cases hs
  rename_i ht
  refine ⟨by simpa using ht, ?_⟩
  split at hs
  · split at hs
    · exact .call _ ‹_› ‹_› hs
    · cases hs
  · exact .carryOn ‹_› hs
  · exact .run ‹_› hs
  · exact .expire hs
  · cases hs; exact .tick
  · split at hs
    · cases hs; exact .signal _ ‹_›
    · cases hs
  · unfold workerPop at hs
    split at hs
    · cases hs; exact .workerPop ‹_› ‹_›
    · cases hs
  · obtain ⟨f, hw, rfl⟩ := Option.map_eq_some'.mp hs
    exact .workerDone _ hw
  · cases hs

/-- The scheduler before any handler has run, with the contexts `cs` made and their
`spawn` closures queued in that order. -/
def State.init (cs : List CtxId) : State where
  ctxs c := if c ∈ cs then Ctx.fresh else Ctx.none
  current := none
  queue := cs.map .spawn
  clock := 0
  frames _ := Frame.fresh 0
  nextFrame := 0
  ole := []
  worker := none
  terminated := false

/-- Replay a list of actions. -/
def run : State → List Action → Option State
  | s, [] => some s
  | s, a :: as => (step s a).bind (run · as)

/-- The states some run of the scheduler reaches. -/
inductive Reachable : State → Prop
  | init (cs : List CtxId) : Reachable (State.init cs)
  | step {s s' : State} (a : Action) : Reachable s → step s a = some s' → Reachable s'

theorem run_reachable {s s' : State} (h : Reachable s) :
    ∀ {as : List Action}, run s as = some s' → Reachable s' := by
  intro as
  induction as generalizing s with
  | nil => intro hr; cases hr; exact h
  | cons a as ih =>
    intro hr
    simp only [run, Option.bind_eq_some] at hr
    obtain ⟨t, ht, hr⟩ := hr
    exact ih (h.step a ht) hr

end Charybdis.Sched
