import Charybdis.Ctx.View
import Charybdis.Lemmas

/-!
# What `view::wait` and `view::notify` guarantee

Every step is one of two kinds (`step_cases`): a consumer moves, and `waiting` and the
mutex move with it (`ConsumerStep`); or the producer moves, and only `t` and the producer's
place change (`ProducerStep`). Each fact below is derived from that one inversion.

On every run the counters agree with the consumers (`Counts`): `waiting` is the number of
consumers registered in the second loop of `wait`, and the mutex is held exactly when one
consumer holds a view. When every `notify` completes, more holds (`Inv`):

* outside `notify` nothing is published, and inside it the object is;
* a consumer holds a view of `x` only while `notify(x)` is in progress.

From it, `view_rendezvous`: a view handed out is always of the object of a `notify` that
is still running; `notify` returns only when nobody is registered and nobody holds a view,
leaving `t` null and `waiting` zero; and nobody registers while an object is published.

When `notify` exits by an exception instead, nothing resets `t`
(`notify_interrupted_leaves_view`). A consumer still registered is handed the object of a
`notify` that has returned, and once it has gone the view is stuck for good (`Stuck`):
`ready()` stays true, every later `wait` sleeps in its first loop, and every later
`notify` returns at once because `waiting` is zero.
-/

namespace Charybdis.Views

/-- Registered in `waiting`: inside the second loop of `wait`. -/
def Consumer.registered : Consumer → Bool
  | .second | .secondLock => true
  | _ => false

/-- Holding a view, and the lock with it. -/
def Consumer.holds : Consumer → Bool
  | .holding _ => true
  | _ => false

/-! ## The counters -/

/-- The counters agree with where the consumers are. -/
structure Counts (v : View) : Prop where
  /-- `waiting` counts the consumers registered in the second loop. -/
  waiting : v.waiting = v.consumers.countP Consumer.registered
  /-- The mutex is held exactly when one consumer holds a view. -/
  locked : v.consumers.countP Consumer.holds = if v.locked then 1 else 0

section
variable {v : View}

/-- Nobody holds a view while the mutex is free. -/
theorem Counts.no_holder (h : Counts v) (hl : v.locked = false) {x : Nat} :
    .holding x ∉ v.consumers := by
  intro hx
  have hpos := List.countP_pos_iff.mpr ⟨_, hx, (rfl : Consumer.holds (.holding x) = true)⟩
  have := h.locked
  rw [hl, if_neg Bool.false_ne_true] at this
  omega

/-- Nobody is registered while `waiting` is zero. -/
theorem Counts.unregistered (h : Counts v) (hw : v.waiting = 0) {pc : Consumer}
    (hpc : pc ∈ v.consumers) : pc.registered = false := by
  have := h.waiting
  rw [hw, eq_comm, List.countP_eq_zero] at this
  simpa using this pc hpc

/-- A consumer registered at `i` is counted in `waiting`. -/
theorem Counts.waiting_pos (h : Counts v) {i : Nat} {pc : Consumer} (hi : v.consumers[i]? = some pc)
    (hpc : pc.registered = true) : 0 < v.waiting :=
  h.waiting ▸ countP_pos_of_getElem hi hpc

end

/-! ## What one step can do -/

/-- One step of consumer `i`, from `pc` to `pc'`, that leaves `waiting` at `w` and the mutex
held as `l` says. Nothing else changes. -/
structure ConsumerStep (v v' : View) (i : Nat) (pc pc' : Consumer) (w : Nat) (l : Bool) : Prop where
  get : v.consumers[i]? = some pc
  eq : v' = { v with waiting := w, locked := l }.setConsumer i pc'
  /-- `waiting` moves with the registration. -/
  waiting : w + (if pc.registered then 1 else 0) = v.waiting + (if pc'.registered then 1 else 0)
  /-- The mutex moves with the view. -/
  locked : (if l then 1 else 0) + (if pc.holds then 1 else 0) =
    (if v.locked then 1 else 0) + (if pc'.holds then 1 else 0)
  /-- A view is taken at the end of the second loop, of the object published then. -/
  holding : ∀ x, pc' = .holding x → pc = .secondLock ∧ v.t = some x
  /-- A consumer registers only when nothing is published. -/
  registers : pc.registered = false → pc'.registered = true → v.t = none

/-- One step of the producer: the consumers, `waiting` and the mutex stay as they are. -/
def ProducerStep (v v' : View) : Action → Prop
  | .notify x => v.producer = .idle ∧
      (v.waiting = 0 ∧ v' = v ∨ v.waiting ≠ 0 ∧ v' = { v with t := some x, producer := .draining x })
  | .producerWake => ∃ x, v.producer = .draining x ∧ v.waiting = 0 ∧
      v' = { v with producer := .locking x }
  | .producerLock => ∃ x, v.producer = .locking x ∧ v.locked = false ∧ v' = release v
  | .producerInterrupt => v.producer ≠ .idle ∧ v' = { v with producer := .idle }
  | _ => False

section
variable {v v' : View} {i : Nat} {pc pc' : Consumer} {w : Nat} {l : Bool}

/-- A consumer move that neither registers, unregisters, takes nor gives back a view. -/
theorem ConsumerStep.quiet (hi : v.consumers[i]? = some pc) (pc' : Consumer)
    (hr : pc'.registered = pc.registered)
    (hh : pc.holds = false) (hh' : pc'.holds = false) :
    ConsumerStep v (v.setConsumer i pc') i pc pc' v.waiting v.locked := by
  refine ⟨hi, rfl, by rw [hr], by rw [hh, hh'], fun _ e => ?_, fun h h' => ?_⟩
  · subst e; cases hh'
  · rw [hr, h] at h'; cases h'

/-- An interrupt out of the second loop: the unwind `ul` runs `--waiting`. -/
theorem ConsumerStep.unwind (hc : Counts v) (hi : v.consumers[i]? = some pc)
    (hr : pc.registered = true) (hh : pc.holds = false) :
    ConsumerStep v ((unwind v).setConsumer i .idle) i pc .idle (v.waiting - 1) v.locked := by
  have := hc.waiting_pos hi hr
  exact ⟨hi, rfl, by rw [hr]; simp [Consumer.registered]; omega, by rw [hh]; rfl, nofun, nofun⟩

/-- The consumer steps taken at the lock, where `firstTest` runs. -/
theorem firstTest_step (hl : v.locked = false) (hi : v.consumers[i]? = some pc)
    (hpc : pc.registered = false) (hh : pc.holds = false) :
    ConsumerStep v ((firstTest { v with locked := true }).1.setConsumer i
      (firstTest { v with locked := true }).2) i pc (firstTest { v with locked := true }).2
      (firstTest { v with locked := true }).1.waiting false := by
  unfold firstTest ready
  split
  · next ht =>
    exact ⟨hi, rfl, by rw [hpc]; rfl, by rw [hl, hh]; rfl, nofun, fun _ h => nomatch h⟩
  · next ht =>
    refine ⟨hi, rfl, by rw [hpc]; rfl, by rw [hl, hh]; rfl, nofun, fun _ _ => ?_⟩
    simpa using ht

/-- The consumer steps taken at the lock, where `secondTest` runs. -/
theorem secondTest_step (hc : Counts v) (hl : v.locked = false)
    (hi : v.consumers[i]? = some .secondLock) :
    ConsumerStep v ((secondTest { v with locked := true }).1.setConsumer i
      (secondTest { v with locked := true }).2) i .secondLock
      (secondTest { v with locked := true }).2 (secondTest { v with locked := true }).1.waiting
      (secondTest { v with locked := true }).1.locked := by
  have := hc.waiting_pos hi rfl
  unfold secondTest
  split
  · next ht => exact ⟨hi, rfl, rfl, by simp [hl, Consumer.holds], nofun, nofun⟩
  · next x ht =>
    exact ⟨hi, rfl, by simp [Consumer.registered]; omega, by simp [hl, Consumer.holds],
      fun _ h => by cases h; exact ⟨rfl, ht⟩, nofun⟩

/-- A consumer step, in the form `step_cases` gives it. -/
theorem ConsumerStep.some {a : Action} {v'' : View} (m : ConsumerStep v v'' i pc pc' w l)
    (hs : some v'' = some v') :
    (∃ i pc pc' w l, ConsumerStep v v' i pc pc' w l) ∨ ProducerStep v v' a :=
  .inl ⟨_, _, _, _, _, Option.some.inj hs ▸ m⟩

/-- `notify(x)` runs only from outside `notify`: with nobody registered it returns at once
and leaves the view as it was, and otherwise it publishes `x` and waits. -/
theorem step_notify {x : Nat} (hs : step v (.notify x) = some v') :
    ProducerStep v v' (.notify x) := by
  simp only [step] at hs
  split at hs
  · next hp =>
    refine ⟨hp, ?_⟩
    unfold notify at hs
    split at hs
    · exact .inl ⟨‹_›, (Option.some.inj hs).symm⟩
    · exact .inr ⟨‹_›, (Option.some.inj hs).symm⟩
  · cases hs

/-- **Step inversion**: every step is a `ConsumerStep` or a `ProducerStep`. -/
theorem step_cases {a : Action} (hc : Counts v) (hs : step v a = some v') :
    (∃ i pc pc' w l, ConsumerStep v v' i pc pc' w l) ∨ ProducerStep v v' a := by
  cases a <;> simp only [step] at hs
  case call i =>
    split at hs
    · next hi => exact (ConsumerStep.quiet hi .locking rfl rfl rfl).some hs
    · cases hs
  case lock i =>
    split at hs
    · cases hs
    next hl =>
    rw [Bool.not_eq_true] at hl
    split at hs
    · next hi => exact (firstTest_step hl hi rfl rfl).some hs
    · next hi => exact (firstTest_step hl hi rfl rfl).some hs
    · next hi => exact (secondTest_step hc hl hi).some hs
    · cases hs
  case wake i =>
    split at hs
    · next hi => exact (ConsumerStep.quiet hi .firstLock rfl rfl rfl).some hs
    · next hi => exact (ConsumerStep.quiet hi .secondLock rfl rfl rfl).some hs
    · cases hs
  case unlock i =>
    split at hs
    · next x hi =>
      -- the one holding a view holds the mutex
      have hl : v.locked = true := by
        by_contra hl
        exact hc.no_holder (Bool.eq_false_iff.mpr hl) (List.getElem?_mem hi)
      exact .inl ⟨i, _, _, _, _, hi, (Option.some.inj hs).symm, rfl,
        by simp [hl, Consumer.holds], nofun, nofun⟩
    · cases hs
  case interrupt i =>
    split at hs
    · next hi => exact (ConsumerStep.quiet hi .idle rfl rfl rfl).some hs
    · next hi => exact (ConsumerStep.quiet hi .idle rfl rfl rfl).some hs
    · next hi => exact (ConsumerStep.quiet hi .idle rfl rfl rfl).some hs
    · next hi => exact (ConsumerStep.unwind hc hi rfl rfl).some hs
    · next hi => exact (ConsumerStep.unwind hc hi rfl rfl).some hs
    · cases hs
  case notify x => exact .inr (step_notify hs)
  case producerWake =>
    split at hs
    · next x hp =>
      split at hs
      · exact .inr ⟨x, hp, ‹_›, (Option.some.inj hs).symm⟩
      · cases hs
    · cases hs
  case producerLock =>
    split at hs
    · next x hp =>
      split at hs
      · cases hs
      · exact .inr ⟨x, hp, Bool.eq_false_iff.mpr ‹_›, (Option.some.inj hs).symm⟩
    · cases hs
  case producerInterrupt =>
    split at hs
    · next x hp => exact .inr ⟨by simp [hp], (Option.some.inj hs).symm⟩
    · next x hp => exact .inr ⟨by simp [hp], (Option.some.inj hs).symm⟩
    · cases hs

/-- A consumer step leaves what is published, and the producer, as they were. -/
theorem ConsumerStep.frame (m : ConsumerStep v v' i pc pc' w l) :
    v'.t = v.t ∧ v'.producer = v.producer ∧ v'.waiting = w := by
  obtain ⟨-, rfl, -⟩ := m
  exact ⟨rfl, rfl, rfl⟩

/-- A producer step leaves the consumers, `waiting` and the mutex as they were. -/
theorem ProducerStep.frame {a : Action} (m : ProducerStep v v' a) :
    v'.consumers = v.consumers ∧ v'.waiting = v.waiting ∧ v'.locked = v.locked := by
  cases a <;> simp only [ProducerStep] at m
  · obtain ⟨-, ⟨-, rfl⟩ | ⟨-, rfl⟩⟩ := m <;> exact ⟨rfl, rfl, rfl⟩
  · obtain ⟨_, -, -, rfl⟩ := m; exact ⟨rfl, rfl, rfl⟩
  · obtain ⟨_, -, -, rfl⟩ := m; exact ⟨rfl, rfl, rfl⟩
  · obtain ⟨-, rfl⟩ := m; exact ⟨rfl, rfl, rfl⟩

/-- A consumer step keeps the counters. -/
theorem ConsumerStep.counts (h : Counts v) (m : ConsumerStep v v' i pc pc' w l) : Counts v' := by
  obtain ⟨hi, rfl, hw, hl, -, -⟩ := m
  have hr := countP_set_add Consumer.registered pc' hi
  have hh := countP_set_add Consumer.holds pc' hi
  have := h.waiting
  have := h.locked
  constructor <;> simp only [View.setConsumer_waiting, View.setConsumer_locked,
    View.setConsumer_consumers] <;> omega

/-- **The counters hold on every run**, `notify` interrupted or not. -/
theorem Counts.step {a : Action} (h : Counts v) (hs : step v a = some v') : Counts v' := by
  rcases step_cases h hs with ⟨_, _, _, _, _, m⟩ | m
  · exact m.counts h
  · obtain ⟨hc, hw, hl⟩ := m.frame
    exact ⟨hw ▸ hc ▸ h.waiting, hl ▸ hc ▸ h.locked⟩

end

theorem counts_init (n : Nat) : Counts (View.init n) where
  waiting := by simp [View.init, List.countP_replicate, Consumer.registered]
  locked := by simp [View.init, List.countP_replicate, Consumer.holds]

theorem counts_reachable {ok : Action → Prop} {v : View} (hr : Reachable ok v) : Counts v := by
  induction hr with
  | init n => exact counts_init n
  | step a _ _ hs ih => exact ih.step hs

/-! ## The invariant of runs where `notify` completes -/

/-- **The view invariant.** -/
structure Inv (v : View) extends Counts v : Prop where
  /-- Between two `notify` calls nothing is published. -/
  idle : v.producer = .idle → v.t = none
  /-- While `notify(x)` waits for the consumers to drain, `x` is published. -/
  draining : ∀ x, v.producer = .draining x → v.t = some x
  /-- Once they have drained, `x` is still published and nobody is registered. -/
  locking : ∀ x, v.producer = .locking x → v.t = some x ∧ v.waiting = 0
  /-- A consumer holds a view of `x` only while `notify(x)` is in progress. -/
  holding : ∀ x, .holding x ∈ v.consumers → v.producer = .draining x ∨ v.producer = .locking x

section
variable {v v' : View}

/-- A published object is the one of the running `notify`. -/
theorem Inv.published (h : Inv v) {x : Nat} (ht : v.t = some x) :
    v.producer = .draining x ∨ v.producer = .locking x := by
  cases hp : v.producer with
  | idle => rw [h.idle hp] at ht; cases ht
  | draining y => rw [h.draining y hp] at ht; cases ht; exact .inl rfl
  | locking y => rw [(h.locking y hp).1] at ht; cases ht; exact .inr rfl

/-- A consumer step keeps the invariant. -/
theorem ConsumerStep.inv {i : Nat} {pc pc' : Consumer} {w : Nat} {l : Bool} (h : Inv v)
    (m : ConsumerStep v v' i pc pc' w l) : Inv v' := by
  have hc := m.counts h.toCounts
  obtain ⟨hi, rfl, hw, -, hx, hr⟩ := m
  refine ⟨hc, h.idle, h.draining, fun x hp => ⟨(h.locking x hp).1, ?_⟩, fun x hx' => ?_⟩
  · -- nobody was registered, and nobody registers while `x` is published
    have hz := h.locking x hp
    have hpc := h.unregistered hz.2 (List.getElem?_mem hi)
    cases hpc' : pc'.registered
    · show w = 0
      simp only [hpc, hpc', hz.2] at hw
      simpa using hw
    · rw [hr hpc hpc'] at hz; cases hz.1
  · rcases List.mem_or_eq_of_mem_set hx' with hm | he
    · exact h.holding x hm
    · exact h.published (hx x he.symm).2

/-- A completing producer step keeps the invariant. -/
theorem ProducerStep.inv {a : Action} (ha : Completes a) (h : Inv v) (m : ProducerStep v v' a) :
    Inv v' := by
  have hc : Counts v' := by
    obtain ⟨hc, hw, hl⟩ := m.frame
    exact ⟨hw ▸ hc ▸ h.waiting, hl ▸ hc ▸ h.locked⟩
  cases a <;> simp only [ProducerStep] at m
  case notify x =>
    obtain ⟨hp, ⟨-, rfl⟩ | ⟨-, rfl⟩⟩ := m
    · exact h
    · refine ⟨hc, nofun, fun _ e => by cases e; rfl, nofun, fun y hy => ?_⟩
      rcases h.holding y hy with e | e <;> rw [hp] at e <;> cases e
  case producerWake =>
    obtain ⟨x, hp, hw, rfl⟩ := m
    refine ⟨hc, nofun, nofun, fun _ e => by cases e; exact ⟨h.draining x hp, hw⟩,
      fun y hy => ?_⟩
    rcases h.holding y hy with e | e <;> rw [hp] at e <;> cases e
    exact .inr rfl
  case producerLock =>
    obtain ⟨x, -, hl, rfl⟩ := m
    exact ⟨hc, fun _ => rfl, nofun, nofun, fun y hy => absurd hy (h.no_holder hl)⟩
  case producerInterrupt => exact absurd rfl ha

/-- **The invariant is kept by every step of a run where `notify` completes.** -/
theorem Inv.step {a : Action} (ha : Completes a) (h : Inv v) (hs : step v a = some v') :
    Inv v' := by
  rcases step_cases h.toCounts hs with ⟨_, _, _, _, _, m⟩ | m
  · exact m.inv h
  · exact m.inv ha h

end

theorem inv_init (n : Nat) : Inv (View.init n) where
  toCounts := counts_init n
  idle _ := rfl
  draining _ h := by cases h
  locking _ h := by cases h
  holding _ h := by simp [View.init] at h

theorem inv_reachable {v : View} (hr : Reachable Completes v) : Inv v := by
  induction hr with
  | init n => exact inv_init n
  | step a ha _ hs ih => exact ih.step ha hs

/-- A run whose every action `ok` allows, from a state a run reaches, reaches its end. -/
theorem run_reachable {ok : Action → Prop} {v v' : View} (h : Reachable ok v) :
    ∀ {as : List Action}, (∀ a ∈ as, ok a) → run v as = some v' → Reachable ok v' := by
  intro as
  induction as generalizing v with
  | nil => intro _ hr; cases hr; exact h
  | cons a as ih =>
    intro hok hr
    simp only [run, Option.bind_eq_some] at hr
    obtain ⟨u, hu, hr⟩ := hr
    exact ih (h.step a (hok a (List.mem_cons_self a as)) hu)
      (fun b hb => hok b (List.mem_cons_of_mem a hb)) hr

section
variable {v v' : View} {a : Action}

/-- A consumer holds a view only of the object published by the `notify` in progress. -/
theorem Inv.holder (h : Inv v) {x : Nat} (hx : .holding x ∈ v.consumers) :
    v.t = some x ∧ (v.producer = .draining x ∨ v.producer = .locking x) := by
  rcases h.holding x hx with hp | hp
  · exact ⟨h.draining x hp, .inl hp⟩
  · exact ⟨(h.locking x hp).1, .inr hp⟩

/-- Outside `notify`, nobody holds a view. -/
theorem Inv.idle_holds (h : Inv v) (hp : v.producer = .idle) {pc : Consumer}
    (hpc : pc ∈ v.consumers) : pc.holds = false := by
  cases pc with
  | holding x => rcases h.holding x hpc with e | e <;> rw [hp] at e <;> cases e
  | _ => rfl

/-- `waiting` grows only by a consumer registering, which it does only while nothing is
published. This holds on every run. -/
theorem step_registers (hc : Counts v) (hs : step v a = some v') (hw : v.waiting < v'.waiting) :
    v.t = none := by
  rcases step_cases hc hs with ⟨_, pc, pc', _, _, m⟩ | m
  · obtain ⟨-, -, rfl⟩ := m.frame
    have := m.waiting
    cases hpc : pc.registered <;> cases hpc' : pc'.registered <;>
      simp [hpc, hpc'] at this <;> first | omega | exact m.registers hpc hpc'
  · exact absurd hw (by rw [m.frame.2.1]; exact Nat.lt_irrefl _)

/-- `notify` returns with `waiting` zero, at once (`if(!waiting) return;`) or by the one
completing step out of it, `producerLock`, taken from `.locking x`. -/
theorem Inv.returns (h : Inv v) (ha : Completes a) (hs : Views.step v a = some v')
    (hp : v.producer ≠ .idle ∨ ∃ x, a = .notify x) (hp' : v'.producer = .idle) :
    v'.waiting = 0 := by
  rcases hp with hp | ⟨x, rfl⟩
  · rcases step_cases h.toCounts hs with ⟨_, _, _, _, _, m⟩ | m
    · exact absurd (m.frame.2.1 ▸ hp') hp
    · cases a <;> simp only [ProducerStep] at m
      case notify => exact absurd m.1 hp
      case producerWake => obtain ⟨_, -, -, rfl⟩ := m; cases hp'
      case producerLock => obtain ⟨x, hx, -, rfl⟩ := m; exact (h.locking x hx).2
      case producerInterrupt => exact absurd rfl ha
  · obtain ⟨-, ⟨hw, rfl⟩ | ⟨-, rfl⟩⟩ := step_notify hs
    · exact hw
    · cases hp'

end

/-- **The view is a rendezvous while every `notify` completes.** On a step from any state
such a run reaches:
(a) a consumer that holds a view holds one of the object published by the `notify` still
    in progress;
(b) when `notify` returns, after draining or at once because nobody was registered, `t` is
    null, `waiting` is zero, and no consumer is registered or holds a view;
(c) `waiting` grows only while nothing is published. -/
theorem view_rendezvous {v v' : View} {a : Action} (hr : Reachable Completes v) (ha : Completes a)
    (hs : step v a = some v') :
    (∀ (i : Nat) x, v'.consumers[i]? = some (Consumer.holding x) →
      v'.t = some x ∧ (v'.producer = .draining x ∨ v'.producer = .locking x)) ∧
    ((v.producer ≠ .idle ∨ ∃ x, a = .notify x) → v'.producer = .idle →
      v'.t = none ∧ v'.waiting = 0 ∧
        ∀ pc ∈ v'.consumers, pc.registered = false ∧ pc.holds = false) ∧
    (v.waiting < v'.waiting → v.t = none) := by
  have h := inv_reachable hr
  have h' := h.step ha hs
  refine ⟨fun _ _ hx => h'.holder (List.getElem?_mem hx), fun hp hp' => ?_,
    step_registers h.toCounts hs⟩
  have hw := h.returns ha hs hp hp'
  exact ⟨h'.idle hp', hw, fun pc hpc => ⟨h'.unregistered hw hpc, h'.idle_holds hp' hpc⟩⟩

/-- Consumer `0` registers in `wait`; the producer publishes `5`; the consumer takes its
view of `5` and lets go; `notify` drains and returns, leaving `t` null and `waiting` zero. -/
theorem view_rendezvous_drain :
    ∃ v v', run (View.init 1) [.call 0, .lock 0, .notify 5, .wake 0, .lock 0, .unlock 0,
        .producerWake] = some v ∧ v.producer = .locking 5 ∧ step v .producerLock = some v' ∧
      v'.producer = .idle ∧ v'.t = none ∧ v'.waiting = 0 := by
  obtain ⟨v, hv⟩ : ∃ v, run (View.init 1) [.call 0, .lock 0, .notify 5, .wake 0, .lock 0,
      .unlock 0, .producerWake] = some v := ⟨_, rfl⟩
  have hr : Reachable Completes v := run_reachable (.init 1) (by simp [Completes]) hv
  obtain ⟨hp, hs⟩ : v.producer = .locking 5 ∧ step v .producerLock = some (release v) := by
    cases hv; exact ⟨rfl, rfl⟩
  have hb := (view_rendezvous hr (by simp [Completes]) hs).2.1 (.inl (by rw [hp]; nofun)) rfl
  exact ⟨v, _, hv, hp, hs, rfl, hb.1, hb.2.1⟩

/-! ## A `notify` that exits by an exception -/

/-- **A stuck view**: `x` is published, no `notify` runs, and no consumer is registered or
holds a view. -/
structure Stuck (x : Nat) (v : View) : Prop where
  counts : Counts v
  producer : v.producer = .idle
  published : v.t = some x
  free : ∀ pc ∈ v.consumers, pc.registered = false ∧ pc.holds = false

section
variable {x : Nat} {v v' : View}

/-- **A stuck view stays stuck.** Every `wait` meets `ready()` in its first loop and sleeps
there, and every `notify` finds `waiting` zero and returns at once. -/
theorem Stuck.step {a : Action} (h : Stuck x v) (hs : step v a = some v') : Stuck x v' := by
  have hc := h.counts.step hs
  rcases step_cases h.counts hs with ⟨i, pc, pc', _, _, m⟩ | m
  · obtain ⟨ht, hp, -⟩ := m.frame
    have hpc := h.free pc (List.getElem?_mem m.get)
    have hreg : pc'.registered = false := by
      cases e : pc'.registered
      · rfl
      · have := m.registers hpc.1 e
        rw [h.published] at this; cases this
    have hhold : pc'.holds = false := by
      cases pc' with
      | holding y => rw [(m.holding y rfl).1] at hpc; cases hpc.1
      | _ => rfl
    refine ⟨hc, hp ▸ h.producer, ht ▸ h.published, fun q hq => ?_⟩
    rw [m.eq] at hq
    rcases List.mem_or_eq_of_mem_set hq with hq | rfl
    · exact h.free q hq
    · exact ⟨hreg, hhold⟩
  · cases a <;> simp only [ProducerStep] at m
    case notify =>
      obtain ⟨-, ⟨-, rfl⟩ | ⟨hw, -⟩⟩ := m
      · exact h
      · have := h.counts.waiting
        rw [List.countP_eq_zero.mpr (fun pc hpc => by simp [(h.free pc hpc).1])] at this
        exact absurd this hw
    all_goals
      first
      | (obtain ⟨_, hp, -⟩ := m; rw [h.producer] at hp; cases hp)
      | exact absurd h.producer m.1

theorem Stuck.run (h : Stuck x v) {as : List Action} (hr : run v as = some v') : Stuck x v' := by
  induction as generalizing v with
  | nil => cases hr; exact h
  | cons a as ih =>
    simp only [run, Option.bind_eq_some] at hr
    obtain ⟨u, hu, hr⟩ := hr
    exact ih (h.step hu) hr

end

/-- **A `notify` that exits by an exception leaves its object published.** Consumer `0`
calls `wait` and registers. The producer calls `notify(5)`, publishes it, and is
interrupted while the consumer drains. The consumer then wakes and `wait` returns a view of
`5`, after `notify(5)` has exited. Once it lets go, the view is stuck: on every later run
`ready()` stays true and no consumer, consumer `1` included, ever returns from `wait`. -/
theorem notify_interrupted_leaves_view :
    ∃ v₁ v₂ v₃,
      run (View.init 2) [.call 0, .lock 0, .notify 5, .producerInterrupt] = some v₁ ∧
      v₁.t = some 5 ∧ v₁.producer = .idle ∧
      run v₁ [.wake 0, .lock 0] = some v₂ ∧ v₂.consumers[0]? = some (Consumer.holding 5) ∧
      run v₂ [.unlock 0] = some v₃ ∧
      ∀ as v', run v₃ as = some v' → ready v' = true ∧ ∀ (i : Nat) y, v'.consumers[i]? ≠ some (Consumer.holding y) :=
  ⟨_, _, _, rfl, rfl, rfl, rfl, rfl, rfl, fun _ _ hr => by
    have h := Stuck.run ⟨⟨by rfl, by rfl⟩, by rfl, by rfl, by decide⟩ hr
    refine ⟨by simp [ready, h.published], fun i y hy => ?_⟩
    simpa [Consumer.holds] using (h.free _ (List.getElem?_mem hy)).2⟩

end Charybdis.Views
