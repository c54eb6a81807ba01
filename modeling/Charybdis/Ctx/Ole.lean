import Mathlib.Data.List.Basic

/-!
# `ctx::ole`: the offload thread and its shutdown

`ole::offload` hands a closure to one OS thread, `ole::worker`, through a queue under a
`std::mutex` and a `std::condition_variable`. `Charybdis.Ctx.Step` has the queue and the
worker as the scheduler sees them while the thread runs. This file adds the thread's
life: `init::init()` starts it, and `init::~init()` sets `interruption` under the mutex,
notifies, and blocks in `thread->join()` until the worker has returned.

The worker leaves only from `ole::pop`, whose wait predicate looks at the queue first:
`if(!queue.empty()) return true; if(interruption) throw interrupted();`. So a shutdown
drains the queue before the worker exits. Pushes come from contexts, which all run on the
`ios` thread, and that thread is the one blocked in `join`, so nothing is pushed while
`~init` waits.

* `ole_fifo_drain`: in every reachable state the closures started are a prefix of those
  pushed, in push order, and when `~init` returns every closure pushed has run to the end.
* `fini_returns`: from every reachable state inside `~init`, a run of the worker brings
  `join` back: the shutdown cannot hang.

Each step holds the mutex for its whole length, as the source's critical sections do;
`cond.wait` is a step that can be taken once its predicate holds. `init()` asserts
`!thread`; the model takes the assertion as the guard of the step.
-/

namespace Charybdis.Ole

/-- Where the `ole::worker` thread is. -/
inductive Worker
  /-- In `ole::pop`, waiting on `cond` until its predicate holds. -/
  | pop
  /-- Running the closure `f` it popped, outside the lock. -/
  | run (f : Nat)
  /-- Returned from `worker()`: `pop` threw `interrupted`. -/
  | exited
  deriving DecidableEq, Repr

/-- The statics of `ircd::ctx::ole`, and three ghost histories. Closures are named by
number. -/
structure State where
  /-- `std::deque<closure> queue`. -/
  queue : List Nat
  /-- `bool interruption`. -/
  interruption : Bool
  /-- `std::thread *thread`, and where that thread is. -/
  thread : Option Worker
  /-- The `ios` thread is inside `~init`, blocked in `thread->join()`. -/
  joining : Bool
  /-- Ghost: the closures pushed, in order. -/
  pushed : List Nat
  /-- Ghost: the closures the worker has started, in order. -/
  started : List Nat
  /-- Ghost: the closures that have returned, in order. -/
  finished : List Nat

/-- The statics before `init`: no thread, `interruption` false. -/
def State.empty : State :=
  ⟨[], false, none, false, [], [], []⟩

/-- `init::init()`: `assert(!thread); interruption = false; thread = new std::thread(&worker);` -/
def init (s : State) : Option State :=
  if s.thread = none then some { s with interruption := false, thread := some .pop } else none

/-- `init::~init()` up to `thread->join()`: with no thread it returns; otherwise, under the
mutex, `interruption = true; cond.notify_one();`, then it waits in `join`. -/
def fini (s : State) : State :=
  match s.thread with
  | none => s
  | some _ => { s with interruption := true, joining := true }

/-- `thread->join()` returns once the worker has returned; `delete thread; thread = nullptr;` -/
def joined (s : State) : Option State :=
  if s.joining ∧ s.thread = some .exited then some { s with thread := none, joining := false }
  else none

/-- `ole::push(func)`: under the mutex, `queue.emplace_back(func); cond.notify_one();` -/
def push (f : Nat) (s : State) : State :=
  { s with queue := s.queue ++ [f], pushed := s.pushed ++ [f] }

/-- `ole::pop` on the worker, once `cond.wait` runs its predicate under the mutex: the
front closure if there is one; else `interrupted` if `interruption` is set, which ends
`worker()`; else the wait goes on. -/
def pop (s : State) : Option State :=
  match s.thread, s.queue with
  | some .pop, f :: rest =>
    some { s with queue := rest, thread := some (.run f), started := s.started ++ [f] }
  | some .pop, [] =>
    if s.interruption then some { s with thread := some .exited } else none
  | _, _ => none

/-- The closure returns (it is `noexcept`), and `while(1)` calls `pop` again. -/
def done (s : State) : Option State :=
  match s.thread with
  | some (.run f) => some { s with thread := some .pop, finished := s.finished ++ [f] }
  | _ => none

inductive Action
  /-- The `ios` thread constructs `ole::init`. -/
  | init
  /-- The `ios` thread enters `ole::init::~init`. -/
  | fini
  /-- The `join` of `~init` returns. -/
  | joined
  /-- A context calls `ole::offload`, which pushes its closure. -/
  | push (f : Nat)
  /-- The worker's `pop` takes a closure, or throws. -/
  | pop
  /-- The worker's closure returns. -/
  | done
  deriving DecidableEq, Repr

/-- The step function. While the `ios` thread is blocked in `join` it takes no step of
its own: no `init`, no `~init`, no push. -/
def step (s : State) : Action → Option State
  | .init => if s.joining then none else init s
  | .fini => if s.joining then none else some (fini s)
  | .joined => joined s
  | .push f => if s.joining then none else some (push f s)
  | .pop => pop s
  | .done => done s

/-- Replay a list of actions. -/
def run : State → List Action → Option State
  | s, [] => some s
  | s, a :: as => (step s a).bind (run · as)

/-- The states a run reaches from the statics before `init`. -/
inductive Reachable : State → Prop
  | empty : Reachable State.empty
  | step {s s' : State} (a : Action) : Reachable s → step s a = some s' → Reachable s'

theorem run_append (s : State) (as bs : List Action) :
    run s (as ++ bs) = (run s as).bind (run · bs) := by
  induction as generalizing s with
  | nil => rfl
  | cons a as ih =>
    simp only [List.cons_append, run]
    cases step s a <;> simp [ih]

theorem Reachable.run {s s' : State} (h : Reachable s) :
    ∀ {as : List Action}, Ole.run s as = some s' → Reachable s'
  | [], hs => by cases hs; exact h
  | a :: as, hs => by
    obtain ⟨t, ht, hs⟩ := Option.bind_eq_some.mp hs
    exact (h.step a ht).run hs

/-! ## What one step can do -/

/-- The closure the worker is running, if any. -/
def State.running (s : State) : List Nat :=
  match s.thread with
  | some (.run f) => [f]
  | _ => []

/-- One step, with its guard and the state it leaves. -/
inductive Moves (s : State) : Action → State → Prop
  | init (hj : s.joining = false) (ht : s.thread = none) :
      Moves s .init { s with interruption := false, thread := some .pop }
  | fini (hj : s.joining = false) : Moves s .fini (fini s)
  | joined (hj : s.joining = true) (ht : s.thread = some .exited) :
      Moves s .joined { s with thread := none, joining := false }
  | push (f : Nat) (hj : s.joining = false) : Moves s (.push f) (push f s)
  | pop {f : Nat} {rest : List Nat} (ht : s.thread = some .pop) (hq : s.queue = f :: rest) :
      Moves s .pop { s with queue := rest, thread := some (.run f), started := s.started ++ [f] }
  | exit (ht : s.thread = some .pop) (hq : s.queue = []) (hi : s.interruption = true) :
      Moves s .pop { s with thread := some .exited }
  | done {f : Nat} (ht : s.thread = some (.run f)) :
      Moves s .done { s with thread := some .pop, finished := s.finished ++ [f] }

theorem step_moves {s s' : State} {a : Action} (hs : step s a = some s') : Moves s a s' := by
  cases a <;> simp only [step] at hs
  case init =>
    split at hs
    · cases hs
    next hj =>
    unfold init at hs
    split at hs
    · cases hs; exact .init (Bool.eq_false_iff.mpr hj) ‹_›
    · cases hs
  case fini =>
    split at hs
    · cases hs
    · cases hs; exact .fini (Bool.eq_false_iff.mpr ‹_›)
  case joined =>
    unfold joined at hs
    split at hs
    · cases hs; exact .joined ‹_ ∧ _›.1 ‹_ ∧ _›.2
    · cases hs
  case push f =>
    split at hs
    · cases hs
    · cases hs; exact .push f (Bool.eq_false_iff.mpr ‹_›)
  case pop =>
    unfold pop at hs
    split at hs
    · cases hs; exact .pop ‹_› ‹_›
    · split at hs
      · cases hs; exact .exit ‹_› ‹_› ‹_›
      · cases hs
    · cases hs
  case done =>
    unfold done at hs
    split at hs
    · cases hs; exact .done ‹_›
    · cases hs

/-- **The `ole` invariant.** -/
structure Inv (s : State) : Prop where
  /-- What was pushed is what was started, then what is queued. -/
  fifo : s.pushed = s.started ++ s.queue
  /-- What was started has returned, but for the closure running now. -/
  finished : s.started = s.finished ++ s.running
  /-- `~init` waits only on a thread it has told to stop. -/
  joining : s.joining = true → s.interruption = true ∧ s.thread ≠ none
  /-- `interruption` outlives a thread only while `~init` waits for it. -/
  interruption : s.interruption = true → s.thread = none ∨ s.joining = true
  /-- The worker has returned only inside `~init`, and with the queue empty. -/
  exited : s.thread = some .exited → s.joining = true ∧ s.queue = []

theorem inv_empty : Inv State.empty :=
  ⟨rfl, rfl, nofun, nofun, nofun⟩

/-- **Every step keeps the invariant.** -/
theorem Inv.step {s s' : State} {a : Action} (h : Inv s) (hs : Ole.step s a = some s') :
    Inv s' := by
  cases step_moves hs with
  | init hj ht =>
    exact ⟨h.fifo, by simpa [State.running, ht] using h.finished, by simp [hj], nofun, nofun⟩
  | fini hj =>
    unfold fini
    split
    · exact h
    · next w ht =>
      have hw : w ≠ .exited := fun e => by simpa [hj] using (h.exited (e ▸ ht)).1
      exact ⟨h.fifo, h.finished, fun _ => ⟨rfl, by simp [ht]⟩, fun _ => .inr rfl,
        fun e => absurd (Option.some.inj (ht.symm.trans e)) hw⟩
  | joined hj ht =>
    exact ⟨by simpa [(h.exited ht).2] using h.fifo,
      by simpa [State.running, ht] using h.finished, nofun, fun _ => .inl rfl, nofun⟩
  | push f hj =>
    refine ⟨by simp [push, h.fifo], h.finished, by simp [push, hj], h.interruption,
      fun e => by simpa [hj] using (h.exited e).1⟩
  | pop ht hq =>
    refine ⟨by simp [h.fifo, hq], ?_, fun e => ⟨(h.joining e).1, by simp⟩, ?_, nofun⟩
    · simpa [State.running, ht] using h.finished
    · exact fun e => .inr ((h.interruption e).resolve_left (by simp [ht]))
  | exit ht hq hi =>
    have hj := (h.interruption hi).resolve_left (by simp [ht])
    exact ⟨h.fifo, by simpa [State.running, ht] using h.finished, fun _ => ⟨hi, by simp⟩,
      fun _ => .inr hj, fun _ => ⟨hj, hq⟩⟩
  | done ht =>
    refine ⟨h.fifo, by simpa [State.running, ht] using h.finished,
      fun e => ⟨(h.joining e).1, by simp⟩, fun e => .inr ?_, nofun⟩
    exact (h.interruption e).resolve_left (by simp [ht])

theorem inv_reachable {s : State} (hr : Reachable s) : Inv s := by
  induction hr with
  | empty => exact inv_empty
  | step a _ hs ih => exact ih.step hs

/-- When `join` returns, the worker left with the queue empty and nothing running. -/
theorem Inv.joined_drained {s s' : State} (h : Inv s) (hs : Ole.step s .joined = some s') :
    s'.finished = s'.pushed ∧ s'.queue = [] := by
  cases step_moves hs with
  | joined hj ht =>
    have hq := (h.exited ht).2
    simp only [h.fifo, h.finished, State.running, ht, hq]
    simp

/-- **Closures run in push order, and `~init` returns only once all of them have.** In
every reachable state, the closures the worker has started are a prefix of those pushed,
in push order, and the queue holds the rest; so each closure runs at most once. When the
`join` of `~init` returns, every closure ever pushed has been run to the end. -/
theorem ole_fifo_drain {s : State} (hr : Reachable s) :
    s.pushed = s.started ++ s.queue ∧
      ∀ s', step s .joined = some s' → s'.finished = s'.pushed ∧ s'.queue = [] :=
  have h := inv_reachable hr
  ⟨h.fifo, fun _ hs => h.joined_drained hs⟩

/-- One closure pushed and run, then `~init`: the worker has thrown out of `pop`, and
`join` can return. -/
theorem ole_fifo_drain_exited :
    ∃ s, run State.empty [.init, .push 0, .fini, .pop, .done, .pop] = some s ∧
      s.thread = some .exited ∧ (s.pushed = s.started ++ s.queue ∧
        ∀ s', step s .joined = some s' → s'.finished = s'.pushed ∧ s'.queue = []) := by
  have hr := Reachable.empty.run
    (rfl : run State.empty [.init, .push 0, .fini, .pop, .done, .pop] = some _)
  exact ⟨_, rfl, rfl, ole_fifo_drain hr⟩

/-! ## `~init` returns -/

/-- Inside `~init`, a worker waiting in `pop` pops and runs every queued closure. -/
theorem Inv.drain : ∀ (q : List Nat) {s : State}, Inv s → s.queue = q → s.joining = true →
    s.thread = some .pop → ∃ as t, run s as = some t ∧ Inv t ∧ t.thread = some .pop ∧
      t.queue = [] ∧ t.joining = true
  | [], s, h, hq, hj, ht => ⟨[], s, rfl, h, ht, hq, hj⟩
  | f :: rest, s, h, hq, hj, ht => by
    -- pop `f` and run it to the end
    have h₁ : Ole.step s .pop =
        some { s with queue := rest, thread := some (.run f), started := s.started ++ [f] } := by
      simp [Ole.step, pop, ht, hq]
    have h₂ := (h.step h₁).step (a := .done) rfl
    obtain ⟨as, t, hr, ht'⟩ := Inv.drain rest h₂ rfl hj rfl
    exact ⟨.pop :: .done :: as, t, by simp [run, h₁]; exact hr, ht'⟩

/-- Inside `~init`, a worker waiting on an empty queue throws out of `pop`. -/
theorem Inv.pop_throws {s : State} (h : Inv s) (hp : s.thread = some .pop) (hq : s.queue = [])
    (hj : s.joining = true) : Ole.step s .pop = some { s with thread := some .exited } := by
  simp [Ole.step, pop, hp, hq, (h.joining hj).1]

/-- Inside `~init`, the worker can always run to its return. -/
theorem Inv.exit {s : State} (h : Inv s) (hj : s.joining = true) :
    ∃ as t, run s as = some t ∧ Inv t ∧ t.thread = some .exited := by
  match hw : s.thread with
  | some .exited => exact ⟨[], s, rfl, h, hw⟩
  | some .pop =>
    obtain ⟨as, t, hr, ht, hp, hq, hj'⟩ := Inv.drain _ h rfl hj hw
    have hs := ht.pop_throws hp hq hj'
    exact ⟨as ++ [.pop], _, by rw [run_append, hr]; simp [run, hs], ht.step hs, rfl⟩
  | some (.run f) =>
    -- the running closure returns first
    have hs : Ole.step s .done =
        some { s with thread := some .pop, finished := s.finished ++ [f] } := by
      simp [Ole.step, done, hw]
    obtain ⟨as, t, hr, ht, hp, hq, hj'⟩ := Inv.drain _ (h.step hs) rfl hj rfl
    have hs' := ht.pop_throws hp hq hj'
    exact ⟨.done :: (as ++ [.pop]), _, by simp [run, hs, run_append, hr, hs'], ht.step hs', rfl⟩
  | none => exact absurd hw (h.joining hj).2

/-- Inside `~init`, a run of the worker brings `join` back, with every closure run. -/
theorem Inv.join_returns {s : State} (h : Inv s) (hj : s.joining = true) :
    ∃ as s', Ole.run s as = some s' ∧ s'.joining = false ∧ s'.thread = none ∧
      s'.finished = s'.pushed := by
  obtain ⟨as, t, hr', ht, hx⟩ := h.exit hj
  -- nothing but the worker moved, so the `ios` thread still waits in `join`
  have hjt := (ht.exited hx).1
  have hs : Ole.step t .joined = some { t with thread := none, joining := false } := by
    simp [Ole.step, joined, hjt, hx]
  exact ⟨as ++ [.joined], _, by rw [run_append, hr']; simp [Ole.run, hs], rfl, rfl,
    (ht.joined_drained hs).1⟩

/-- **`~init` always returns, and only after every closure has run.** From every reachable
state in which the `ios` thread waits in the `join` of `~init`, the worker can finish the
closure it is running, pop and run every queued one, and return; `join` then returns, the
thread is gone, and every closure ever pushed has run to the end. -/
theorem fini_returns {s : State} (hr : Reachable s) (hj : s.joining = true) :
    ∃ as s', run s as = some s' ∧ s'.joining = false ∧ s'.thread = none ∧
      s'.finished = s'.pushed :=
  (inv_reachable hr).join_returns hj

/-- `~init` entered while the worker runs the first of two closures. -/
theorem fini_returns_running :
    ∃ s, run State.empty [.init, .push 0, .push 1, .pop, .fini] = some s ∧
      s.queue = [1] ∧ s.joining = true ∧ ∃ as s', run s as = some s' ∧ s'.joining = false ∧
        s'.thread = none ∧ s'.finished = s'.pushed := by
  have hr := Reachable.empty.run
    (rfl : run State.empty [.init, .push 0, .push 1, .pop, .fini] = some _)
  exact ⟨_, rfl, rfl, rfl, fini_returns hr rfl⟩

end Charybdis.Ole
