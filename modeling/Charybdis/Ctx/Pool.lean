import Mathlib.Algebra.Group.Int
import Charybdis.Lemmas

/-!
# `ctx::pool`: worker contexts draining a queue of closures

A pool owns a vector of worker contexts `ctxs`, a `queue` of closures, a `dock` and the
counter `available`. Each worker runs `pool::main`, which counts itself in `available` and
calls `pool::next` forever: `next` sleeps in the dock until the queue is non-empty, leaves
`available`, pops the front closure and calls it; an `unwind` puts it back in `available`
however the closure ends.

One step of a worker is one stretch of code between two suspension points. The closure is
arbitrary: it may suspend any number of times, return, throw a `std::exception` that
`next` logs, or throw `interrupted` (or anything `next` does not catch), which ends the
worker. The dock is a condition variable over notes, so a docked worker may wake whenever
the queue is non-empty; which one `notify_one` picks does not matter here. Interrupts are
`ctx::interrupt`, callable by anyone at any time, so the model lets any worker's flag be
set at any step; `pool::interrupt()` and `~context()` (run by `del` on each worker it
pops) are instances of it. A flagged worker may leave the dock by `interrupted`.

`pool_fifo_available` proves, over every run:
(a) the closures started, in start order, are a prefix of those submitted, and the queue
    holds exactly the rest;
(b) `available` is the number of workers inside `pool::main` that are not running a
    closure, so it never underflows and never exceeds the number of workers.
-/

namespace Charybdis.Pools

/-- Where a worker context is. -/
inductive Phase
  /-- Spawned by `add` with `context::POST`: `ctx::operator()` has not run yet. -/
  | spawned
  /-- In `pool::main`, counted in `available`: in `next` up to and in `dock.wait`. -/
  | docked
  /-- Running closure `f`, which it popped from the queue. -/
  | running (f : Nat)
  /-- Returned from `ctx::operator()`. -/
  | exited
  deriving DecidableEq, Repr

/-- A `ctx::pool`. Closures are named by number. -/
structure Pool where
  /-- `std::deque<closure> queue`. -/
  queue : List Nat
  /-- `available`, kept signed so that an underflow would show. -/
  available : Int
  /-- Every worker context the pool has spawned, by number. -/
  phases : List Phase
  /-- The `INTERRUPTED` flag of each worker context. -/
  interrupted : Nat → Bool
  /-- `std::vector<context> ctxs`: the workers the pool still owns. -/
  ctxs : List Nat
  /-- The closures submitted, in order (ghost). -/
  submitted : List Nat
  /-- The closures workers have started, in order (ghost). -/
  started : List Nat

/-- `pool::size()`. -/
def size (p : Pool) : Nat :=
  p.ctxs.length

/-- Move worker `w` to `ph`. -/
def Pool.setPhase (p : Pool) (w : Nat) (ph : Phase) : Pool :=
  { p with phases := p.phases.set w ph }

@[simp] theorem Pool.setPhase_phases (p : Pool) (w : Nat) (ph : Phase) :
    (p.setPhase w ph).phases = p.phases.set w ph := rfl
@[simp] theorem Pool.setPhase_available (p : Pool) (w : Nat) (ph : Phase) :
    (p.setPhase w ph).available = p.available := rfl
@[simp] theorem Pool.setPhase_queue (p : Pool) (w : Nat) (ph : Phase) :
    (p.setPhase w ph).queue = p.queue := rfl
@[simp] theorem Pool.setPhase_submitted (p : Pool) (w : Nat) (ph : Phase) :
    (p.setPhase w ph).submitted = p.submitted := rfl
@[simp] theorem Pool.setPhase_started (p : Pool) (w : Nat) (ph : Phase) :
    (p.setPhase w ph).started = p.started := rfl

/-! ## The pool's interface -/

/-- `pool::operator()(closure)`: `queue.push_back(closure); dock.notify_one();` -/
def call (f : Nat) (p : Pool) : Pool :=
  { p with queue := p.queue ++ [f], submitted := p.submitted ++ [f] }

/-- `pool::add(num)`: spawn `num` workers running `pool::main`, posted to start later. -/
def add (num : Nat) (p : Pool) : Pool :=
  { p with phases := p.phases ++ List.replicate num .spawned,
           ctxs := p.ctxs ++ List.range' p.phases.length num }

/-- `pool::del(num)`: `ssize_t requested(size() - num)`, computed in `size_t`; the target
is `std::max(requested, ssize_t(0))`, and `ctxs.pop_back()` runs while
`ctxs.size() > target`. Each `pop_back` destroys a `context`, whose `interrupt()` is a
free step of the model. -/
def del (num : BitVec 64) (p : Pool) : Pool :=
  let requested := (BitVec.ofNat 64 (size p) - num).toInt
  let target := (max requested 0).toNat
  { p with ctxs := p.ctxs.take target }

/-- `pool::join()`: `del(size())`. -/
def join (p : Pool) : Pool :=
  del (BitVec.ofNat 64 (size p)) p

/-- `pool::interrupt()`: `context.interrupt()` for every worker in `ctxs`. -/
def interrupt (p : Pool) : Pool :=
  { p with interrupted := fun w => p.interrupted w || decide (w ∈ p.ctxs) }

/-- The pool as its constructor leaves it: `available{0}`, then `add(size)`. -/
def Pool.init (n : Nat) : Pool :=
  add n ⟨[], 0, [], fun _ => false, [], [], []⟩

/-! ## The workers -/

/-- `ctx::operator()` of a spawned worker. Interrupted before it starts, it never calls
`pool::main`; otherwise `main` runs `++available` and goes into `next`. -/
def main (w : Nat) (p : Pool) : Pool :=
  if p.interrupted w then p.setPhase w .exited
  else { p with available := p.available + 1 }.setPhase w .docked

/-- `pool::next` once `dock.wait` has seen a non-empty queue: `--available`, arm the
unwind, pop the front closure and call it. -/
def next (w f : Nat) (rest : List Nat) (p : Pool) : Pool :=
  { p with available := p.available - 1, queue := rest, started := p.started ++ [f] }.setPhase w
    (.running f)

/-- The closure returns, or throws a `std::exception` that `next` logs: the unwind runs
`++available`, and `while(1)` calls `next` again. -/
def finish (w : Nat) (p : Pool) : Pool :=
  { p with available := p.available + 1 }.setPhase w .docked

/-- The closure throws `interrupted`, which `next` rethrows, or anything `next` does not
catch: the unwind of `next` runs `++available`, that of `main` runs `--available`, and the
worker returns. -/
def raise (w : Nat) (p : Pool) : Pool :=
  { p with available := p.available + 1 - 1 }.setPhase w .exited

/-- `dock.wait` throws `interrupted` before the closure's unwind is armed: only the unwind
of `main` runs, `--available`, and the worker returns. The flag is cleared by the throw. -/
def leave (w : Nat) (p : Pool) : Pool :=
  { p with available := p.available - 1,
           interrupted := Function.update p.interrupted w false }.setPhase w .exited

/-! ## Steps -/

inductive Action
  /-- A context calls `pool::operator()(f)`. -/
  | call (f : Nat)
  /-- A context calls `pool::add(num)`. -/
  | add (num : Nat)
  /-- A context calls `pool::del(num)`. -/
  | del (num : BitVec 64)
  /-- A context calls `pool::interrupt()`. -/
  | interrupt
  /-- Anyone interrupts worker `w`: `~context()`, or `ctx::interrupt` from elsewhere. -/
  | interruptWorker (w : Nat)
  /-- Worker `w` is started. -/
  | start (w : Nat)
  /-- Worker `w`'s `dock.wait` returns, and it starts the front closure. -/
  | next (w : Nat)
  /-- Worker `w`'s closure returns, or throws a logged `std::exception`. -/
  | finish (w : Nat)
  /-- Worker `w`'s closure throws `interrupted`, or an exception `next` does not catch. -/
  | raise (w : Nat)
  /-- Worker `w`, interrupted, throws out of `dock.wait`. -/
  | leave (w : Nat)
  deriving DecidableEq, Repr

/-- The step function. `none` is a step that cannot be taken. -/
def step (p : Pool) : Action → Option Pool
  | .call f => some (call f p)
  | .add num => some (add num p)
  | .del num => some (del num p)
  | .interrupt => some (interrupt p)
  | .interruptWorker w => some { p with interrupted := Function.update p.interrupted w true }
  | .start w => if p.phases[w]? = some .spawned then some (main w p) else none
  | .next w =>
    match p.phases[w]?, p.queue with
    | some .docked, f :: rest => some (next w f rest p)
    | _, _ => none
  | .finish w =>
    match p.phases[w]? with
    | some (.running _) => some (finish w p)
    | _ => none
  | .raise w =>
    match p.phases[w]? with
    | some (.running _) => some (raise w p)
    | _ => none
  | .leave w => if p.phases[w]? = some .docked ∧ p.interrupted w then some (leave w p) else none

/-- Replay a list of actions. -/
def run : Pool → List Action → Option Pool
  | p, [] => some p
  | p, a :: as => (step p a).bind (run · as)

/-- The states a run reaches from a freshly constructed pool. -/
inductive Reachable : Pool → Prop
  | init (n : Nat) : Reachable (Pool.init n)
  | step {p p' : Pool} (a : Action) : Reachable p → step p a = some p' → Reachable p'

/-- What one step does: each action's guard, and the pool it leaves. -/
inductive Moves (p : Pool) : Action → Pool → Prop
  | call (f : Nat) : Moves p (.call f) (call f p)
  | add (num : Nat) : Moves p (.add num) (add num p)
  | del (num : BitVec 64) : Moves p (.del num) (del num p)
  | interrupt : Moves p .interrupt (interrupt p)
  | interruptWorker (w : Nat) :
      Moves p (.interruptWorker w) { p with interrupted := Function.update p.interrupted w true }
  | start {w : Nat} (hw : p.phases[w]? = some .spawned) : Moves p (.start w) (main w p)
  | next {w f : Nat} {rest : List Nat} (hw : p.phases[w]? = some .docked)
      (hq : p.queue = f :: rest) : Moves p (.next w) (next w f rest p)
  | finish {w f : Nat} (hw : p.phases[w]? = some (.running f)) : Moves p (.finish w) (finish w p)
  | raise {w f : Nat} (hw : p.phases[w]? = some (.running f)) : Moves p (.raise w) (raise w p)
  | leave {w : Nat} (hw : p.phases[w]? = some .docked) (hi : p.interrupted w = true) :
      Moves p (.leave w) (leave w p)

/-- **What one step can do**: one of `Moves`. -/
theorem step_moves {p p' : Pool} {a : Action} (hs : step p a = some p') : Moves p a p' := by
  cases a <;> simp only [step, Option.some.injEq] at hs
  case call | add | del | interrupt | interruptWorker => subst hs; constructor
  -- a guarded action steps only when its guard holds
  all_goals split at hs <;> cases hs
  · exact .start ‹_›
  · exact .next ‹_› ‹_›
  · exact .finish ‹_›
  · exact .raise ‹_›
  · exact .leave ‹_ ∧ _›.1 ‹_ ∧ _›.2

/-! ## The invariant -/

/-- Inside `pool::main` and not running a closure. -/
def Phase.docked? : Phase → Bool
  | .docked => true
  | _ => false

/-- Inside `pool::main`: docked, or running a closure. -/
def Phase.inMain : Phase → Bool
  | .docked | .running _ => true
  | _ => false

/-- **The pool invariant**: FIFO bookkeeping and the meaning of `available`. -/
structure Inv (p : Pool) : Prop where
  /-- What was submitted is what was started, then what is queued. -/
  fifo : p.submitted = p.started ++ p.queue
  /-- `available` counts the docked workers. -/
  available : p.available = p.phases.countP Phase.docked?

section
variable {p : Pool} {w : Nat} {ph : Phase}

/-- Moving worker `w` from `ph` to `ph'` counts it in or out of the docked workers: the
new `available`, `a`, is right if the code moved it by as much. -/
theorem Inv.move (h : Inv p) (hw : p.phases[w]? = some ph) (ph' : Phase) {a : Int}
    (ha : a + (if ph.docked? then 1 else 0) = p.available + (if ph'.docked? then 1 else 0)) :
    a = (p.phases.set w ph').countP Phase.docked? := by
  have hc := countP_set_add Phase.docked? ph' hw
  rw [h.available] at ha
  cases h1 : ph.docked? <;> cases h2 : ph'.docked? <;> simp only [h1, h2] at hc ha <;>
    simp at hc ha <;> omega

theorem inv_init (n : Nat) : Inv (Pool.init n) where
  fifo := rfl
  available := by simp [Pool.init, add, List.countP_replicate, Phase.docked?]

/-- **Every step keeps the invariant.** -/
theorem Inv.step {p' : Pool} {a : Action} (h : Inv p) (hs : Pools.step p a = some p') : Inv p' := by
  cases step_moves hs with
  | call f => exact ⟨by simp [call, h.fifo], h.available⟩
  | add num => exact ⟨h.fifo, by simp [add, h.available, List.countP_replicate, Phase.docked?]⟩
  | del num => exact ⟨h.fifo, h.available⟩
  | interrupt => exact ⟨h.fifo, h.available⟩
  | interruptWorker w => exact ⟨h.fifo, h.available⟩
  | start hw =>
    unfold main
    split
    · exact ⟨h.fifo, h.move hw .exited (by simp [Phase.docked?])⟩
    · exact ⟨h.fifo, h.move hw .docked (by simp [Phase.docked?])⟩
  | @next w f rest hw hq =>
    exact ⟨by simp [next, h.fifo, hq], h.move hw (.running f) (by simp [next, Phase.docked?])⟩
  | finish hw => exact ⟨h.fifo, h.move hw .docked (by simp [finish, Phase.docked?])⟩
  | raise hw => exact ⟨h.fifo, h.move hw .exited (by simp [raise, Phase.docked?])⟩
  | leave hw _ => exact ⟨h.fifo, h.move hw .exited (by simp [leave, Phase.docked?])⟩

/-- A step only appends to the two histories. -/
theorem step_histories {p' : Pool} {a : Action} (hs : Pools.step p a = some p') :
    p.started <+: p'.started ∧ p.submitted <+: p'.submitted := by
  cases step_moves hs with
  | call f => exact ⟨List.prefix_rfl, List.prefix_append _ _⟩
  | next hw hq => exact ⟨List.prefix_append _ _, List.prefix_rfl⟩
  | start hw => unfold main; split <;> exact ⟨List.prefix_rfl, List.prefix_rfl⟩
  | _ => exact ⟨List.prefix_rfl, List.prefix_rfl⟩

end

theorem inv_reachable {p : Pool} (hr : Reachable p) : Inv p := by
  induction hr with
  | init n => exact inv_init n
  | step a _ hs ih => exact ih.step hs

theorem run_reachable {p p' : Pool} (h : Reachable p) :
    ∀ {as : List Action}, run p as = some p' → Reachable p' := by
  intro as
  induction as generalizing p with
  | nil => intro hr; cases hr; exact h
  | cons a as ih =>
    intro hr
    simp only [run, Option.bind_eq_some] at hr
    obtain ⟨q, hq, hr⟩ := hr
    exact ih (h.step a hq) hr

/-- **Closures start in FIFO order, and `available` counts the idle workers.** In every
state a run reaches:
(a) the closures started so far, in start order, followed by the queue, are exactly the
    closures submitted, and a step only appends to both histories; so the started ones are
    a prefix of the submitted ones, each submission is started at most once, and a closure
    leaves the queue only by being started;
(b) `available` is the number of workers inside `pool::main` that are not running a
    closure; it is never negative and never more than the workers inside `pool::main`. -/
theorem pool_fifo_available {p : Pool} (hr : Reachable p) :
    p.submitted = p.started ++ p.queue ∧
    (∀ a p', step p a = some p' → p.started <+: p'.started ∧ p.submitted <+: p'.submitted) ∧
    p.available = p.phases.countP Phase.docked? ∧
    0 ≤ p.available ∧ p.available ≤ p.phases.countP Phase.inMain := by
  have h := inv_reachable hr
  have hle : p.phases.countP Phase.docked? ≤ p.phases.countP Phase.inMain :=
    List.countP_mono_left fun ph _ hd => by cases ph <;> simp_all [Phase.docked?, Phase.inMain]
  refine ⟨h.fifo, fun _ _ => step_histories, h.available, ?_, ?_⟩ <;> rw [h.available] <;> omega

/-- Two closures submitted to a pool of two workers; both workers start, each takes one
closure, and the first finishes its own: the closures started in the order submitted, the
queue is empty, and the one docked worker is the one counted in `available`. -/
theorem pool_fifo_available_run :
    ∃ p, run (Pool.init 2) [.call 7, .call 8, .start 0, .start 1, .next 0, .next 1, .finish 0] =
      some p ∧ p.started = [7, 8] ∧ p.submitted = p.started ++ p.queue ∧
      p.available = p.phases.countP Phase.docked? ∧ p.available = 1 ∧
      p.available ≤ p.phases.countP Phase.inMain := by
  obtain ⟨p, hp⟩ : ∃ p, run (Pool.init 2)
      [.call 7, .call 8, .start 0, .start 1, .next 0, .next 1, .finish 0] = some p := ⟨_, rfl⟩
  obtain ⟨hf, -, ha, -, hle⟩ := pool_fifo_available (run_reachable (.init 2) hp)
  have hs : p.started = [7, 8] := by cases hp; rfl
  exact ⟨p, hp, hs, hf, ha, by rw [ha]; cases hp; rfl, hle⟩

/-! ## How many workers `del` leaves -/

/-- `ssize_t(size() - num)` for a pool of fewer than `2^63` workers: the integer
difference while `num ≤ size + 2^63`, and past that the difference wrapped by `2^64`. -/
theorem toInt_ofNat_sub (s : Nat) (num : BitVec 64) (hs : s < 2 ^ 63) :
    (BitVec.ofNat 64 s - num).toInt =
      if num.toNat ≤ s + 2 ^ 63 then (s : Int) - num.toNat else 2 ^ 64 + s - num.toNat := by
  have hn := num.isLt
  rw [BitVec.toInt_eq_toNat_cond, BitVec.toNat_sub, BitVec.toNat_ofNat,
    Nat.mod_eq_of_lt (by omega : s < 2 ^ 64)]
  split <;> split <;> omega

/-- **Up to the wrap, `del` leaves `max(size - num, 0)` workers.** -/
theorem size_del_of_le (num : BitVec 64) (p : Pool) (hs : size p < 2 ^ 63)
    (hn : num.toNat ≤ size p + 2 ^ 63) :
    (size (del num p) : Int) = max ((size p : Int) - num.toNat) 0 := by
  show ((p.ctxs.take _).length : Int) = _
  rw [List.length_take, toInt_ofNat_sub _ _ hs, if_pos hn]
  simp only [size]
  omega

theorem size_del_of_le_init :
    size (Pool.init 3) < 2 ^ 63 ∧ (1#64).toNat ≤ size (Pool.init 3) + 2 ^ 63 ∧
    (size (del 1#64 (Pool.init 3)) : Int) = max ((size (Pool.init 3) : Int) - (1#64).toNat) 0 :=
  ⟨by decide, by decide, size_del_of_le 1#64 (Pool.init 3) (by decide) (by decide)⟩

/-- **Past the wrap, `del` removes no worker.** For a pool of fewer than `2^63` workers and
`num > size + 2^63`, such as `del(SIZE_MAX)` on a non-empty pool, `ssize_t(size() - num)`
is `2^64 + size - num`, more than the pool holds, so the pool is left as it is, where
`max(size - num, 0)` over the integers is `0`. -/
theorem del_past_wrap_keeps_every_worker (num : BitVec 64) (p : Pool) (hs : size p < 2 ^ 63)
    (hn : size p + 2 ^ 63 < num.toNat) :
    del num p = p ∧ max ((size p : Int) - num.toNat) 0 = 0 := by
  have hlt := num.isLt
  have ht : p.ctxs.length ≤ (max (BitVec.ofNat 64 (size p) - num).toInt 0).toNat := by
    rw [toInt_ofNat_sub _ _ hs, if_neg (by omega)]
    simp only [size] at *
    omega
  exact ⟨congrArg (fun l => { p with ctxs := l }) (List.take_of_length_le ht), by omega⟩

theorem del_size_max_keeps_worker :
    size (Pool.init 1) < 2 ^ 63 ∧ size (Pool.init 1) + 2 ^ 63 < (BitVec.allOnes 64).toNat ∧
    (del (BitVec.allOnes 64) (Pool.init 1) = Pool.init 1 ∧
      max ((size (Pool.init 1) : Int) - (BitVec.allOnes 64).toNat) 0 = 0) :=
  ⟨by decide, by decide, del_past_wrap_keeps_every_worker _ _ (by decide) (by decide)⟩

end Charybdis.Pools
