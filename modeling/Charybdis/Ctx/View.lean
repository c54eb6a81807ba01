import Mathlib.Data.List.Basic

/-!
# `ctx::view`: one producer, many consumers, one object on the producer's stack

`view<T>` lets a producing context show an object on its own stack to consumer contexts
and wait until they are done with it. Its state is a pointer `t`, a count `waiting` of
consumers registered for the next object, a dock `q`, and the `mutex` the view derives
from.

The model is the view as the consumers and the producer see it, one step per stretch of
code between two suspension points. The dock and the mutex are not under src/; they are
modelled from the spec, which calls them "a condition variable over task notes" and
"mutexes over task notes". A context sleeping in a dock wakes on any note, and notes can
come from anywhere, so `wake` may fire at any time; a context blocked in `lock()` goes on
once the mutex is free. An interrupt can land wherever a context sleeps.

`Charybdis.Ctx.ViewProof` proves what `view::wait` and `view::notify` guarantee when every
`notify` completes, and what is left behind when one does not.
-/

namespace Charybdis.Views

/-- Where a consumer is, in and around `view::wait(lock)`. -/
inductive Consumer
  | idle
  /-- Taking the `unique_lock` it passes to `wait`. -/
  | locking
  /-- First loop: `lock.unlock(); q.wait();` while `ready()`. -/
  | first
  /-- First loop: `lock.lock()`. -/
  | firstLock
  /-- Second loop, registered in `waiting`: `lock.unlock(); q.wait();` while `!ready()`. -/
  | second
  /-- Second loop: `lock.lock()`. -/
  | secondLock
  /-- Returned from `wait` with `*t` the object `x`, holding the lock. -/
  | holding (x : Nat)
  deriving DecidableEq, Repr

/-- Where the producer is in `view::notify(x)`. -/
inductive Producer
  | idle
  /-- `q.wait([this] { return !waiting; })`, with `t` published. -/
  | draining (x : Nat)
  /-- `const std::lock_guard<view> lock{*this};` -/
  | locking (x : Nat)
  deriving DecidableEq, Repr

/-- A `view<T>` with its producer and consumers. Objects are named by their address. -/
structure View where
  /-- `T *t`. -/
  t : Option Nat
  /-- `size_t waiting`. -/
  waiting : Nat
  /-- The view's `mutex` is held. -/
  locked : Bool
  producer : Producer
  consumers : List Consumer
  deriving DecidableEq, Repr

/-- A view as `view() = default` leaves it, with `n` consumers outside `wait`. -/
def View.init (n : Nat) : View :=
  ⟨none, 0, false, .idle, List.replicate n .idle⟩

/-- `view::ready()`: `t != nullptr`. -/
def ready (v : View) : Bool :=
  v.t.isSome

/-- Move consumer `i`. -/
def View.setConsumer (v : View) (i : Nat) (pc : Consumer) : View :=
  { v with consumers := v.consumers.set i pc }

@[simp] theorem View.setConsumer_t (v : View) (i : Nat) (pc : Consumer) :
    (v.setConsumer i pc).t = v.t := rfl
@[simp] theorem View.setConsumer_waiting (v : View) (i : Nat) (pc : Consumer) :
    (v.setConsumer i pc).waiting = v.waiting := rfl
@[simp] theorem View.setConsumer_locked (v : View) (i : Nat) (pc : Consumer) :
    (v.setConsumer i pc).locked = v.locked := rfl
@[simp] theorem View.setConsumer_producer (v : View) (i : Nat) (pc : Consumer) :
    (v.setConsumer i pc).producer = v.producer := rfl
@[simp] theorem View.setConsumer_consumers (v : View) (i : Nat) (pc : Consumer) :
    (v.setConsumer i pc).consumers = v.consumers.set i pc := rfl

/-! ## `view::wait` -/

/-- The consumer holds the lock at the test of the first loop,
`for(assert(lock.owns_lock()); ready(); lock.lock()) { lock.unlock(); q.wait(); }`. While
`ready()` it unlocks and sleeps in `q`. Otherwise the unwind `ul` is armed, and
`for(++waiting; !ready(); lock.lock())` registers it, finds nothing published, unlocks and
sleeps. -/
def firstTest (v : View) : View × Consumer :=
  if ready v then ({ v with locked := false }, .first)
  else ({ v with waiting := v.waiting + 1, locked := false }, .second)

/-- The consumer holds the lock at the test of the second loop. With nothing published it
unlocks and sleeps again; otherwise `wait` returns `*t`, and the unwind `ul` runs
`--waiting; q.notify_all();` on the way out, the lock still held. -/
def secondTest (v : View) : View × Consumer :=
  match v.t with
  | none => ({ v with locked := false }, .second)
  | some x => ({ v with waiting := v.waiting - 1 }, .holding x)

/-- The unwind `ul` run by an exception out of the second loop: `--waiting; q.notify_all();` -/
def unwind (v : View) : View :=
  { v with waiting := v.waiting - 1 }

/-! ## `view::notify` -/

/-- `view::notify(x)` up to its first suspension: `if(!waiting) return;`, then
`this->t = &t; q.notify_all();` and `q.wait([this] { return !waiting; })`, whose
predicate is false on entry. -/
def notify (x : Nat) (v : View) : View :=
  if v.waiting = 0 then v else { v with t := some x, producer := .draining x }

/-- The end of `view::notify`, once the `lock_guard` holds the mutex:
`this->t = nullptr; q.notify_all();` and the guard unlocks. -/
def release (v : View) : View :=
  { v with t := none, producer := .idle }

/-! ## Steps -/

/-- One stretch of code of one party, or an event that wakes one. -/
inductive Action
  /-- Consumer `i` calls `wait`: it first takes the `unique_lock`. -/
  | call (i : Nat)
  /-- Consumer `i`, blocked in `lock()`, gets the mutex and runs to its next suspension. -/
  | lock (i : Nat)
  /-- Consumer `i`'s `q.wait()` returns: it tries `lock.lock()`. -/
  | wake (i : Nat)
  /-- Consumer `i` is done with the object and releases the lock. -/
  | unlock (i : Nat)
  /-- Consumer `i` is interrupted where it sleeps. -/
  | interrupt (i : Nat)
  /-- The producer calls `notify(x)`. -/
  | notify (x : Nat)
  /-- The producer's `q.wait(pred)` wakes and tests `!waiting`. -/
  | producerWake
  /-- The producer's `lock_guard` gets the mutex; `notify` returns. -/
  | producerLock
  /-- The producer is interrupted where it sleeps: `notify` exits by the exception. -/
  | producerInterrupt
  deriving DecidableEq, Repr

/-- The step function. `none` is a step that cannot be taken. -/
def step (v : View) : Action → Option View
  | .call i =>
    match v.consumers[i]? with
    | some .idle => some (v.setConsumer i .locking)
    | _ => none
  | .lock i =>
    if v.locked then none else
    match v.consumers[i]? with
    | some .locking | some .firstLock =>
      let r := firstTest { v with locked := true }
      some (r.1.setConsumer i r.2)
    | some .secondLock =>
      let r := secondTest { v with locked := true }
      some (r.1.setConsumer i r.2)
    | _ => none
  | .wake i =>
    match v.consumers[i]? with
    | some .first => some (v.setConsumer i .firstLock)
    | some .second => some (v.setConsumer i .secondLock)
    | _ => none
  | .unlock i =>
    match v.consumers[i]? with
    | some (.holding _) => some ({ v with locked := false }.setConsumer i .idle)
    | _ => none
  | .interrupt i =>
    match v.consumers[i]? with
    | some .locking | some .first | some .firstLock => some (v.setConsumer i .idle)
    | some .second | some .secondLock => some ((unwind v).setConsumer i .idle)
    | _ => none
  | .notify x =>
    match v.producer with
    | .idle => some (notify x v)
    | _ => none
  | .producerWake =>
    match v.producer with
    | .draining x => if v.waiting = 0 then some { v with producer := .locking x } else none
    | _ => none
  | .producerLock =>
    match v.producer with
    | .locking _ => if v.locked then none else some (release v)
    | _ => none
  | .producerInterrupt =>
    match v.producer with
    | .draining _ | .locking _ => some { v with producer := .idle }
    | .idle => none

/-- Replay a list of actions. -/
def run : View → List Action → Option View
  | v, [] => some v
  | v, a :: as => (step v a).bind (run · as)

/-- The states a run reaches from a fresh view, using only the actions `ok` allows. -/
inductive Reachable (ok : Action → Prop) : View → Prop
  | init (n : Nat) : Reachable ok (View.init n)
  | step {v v' : View} (a : Action) : ok a → Reachable ok v → step v a = some v' →
      Reachable ok v'

/-- The producer's `notify` calls all complete: it is never interrupted. -/
def Completes (a : Action) : Prop :=
  a ≠ .producerInterrupt

end Charybdis.Views
