import Charybdis.Ctx.Notes
import Charybdis.Ctx.Yield

/-!
# The alarm: what wakes a sleeping context, and what a timed wait reports

A context asleep on its alarm is woken in three ways: the note that takes `notes` from
zero to one cancels the alarm, an interrupt cancels it, or it expires. When the context
runs again, `this_ctx::wait(duration)` and `this_ctx::wait_until(tp)` read the clock to
tell their caller which: in their comments a positive `alarm.expires_from_now()`, or
`now() < tp`, means "notified".

`Clocked` is what holds of each context over every run:

* waiting on its alarm, it holds no note, so a note to it always cancels the alarm;
* asleep inside `wait_until(tp)`, its alarm is at `tp`;
* woken with no note and no interrupt, it was woken by its alarm, which has expired;
* back from a timed wait without having taken a note, its alarm has expired.

The last gives the comments' reading one direction: a timed wait that reports a
notification took a note. The other direction fails, and so does the spec's lossless
counter (`notes_not_lossless`). The clock is read when the context runs again, not when the
note lands, so a note that lands before the deadline and is resumed after it is reported
as a timeout; and notes that land between the wake and the resume are merged into one.

`notes_ledger` puts the ledger of `Charybdis.Ctx.Notes` together with these facts.
-/

namespace Charybdis.Sched

/-! ## The invariant -/

/-- The sites whose caller reads the clock when `ctx::wait` returns there. -/
def Site.timed : Site → Bool
  | .waitFor | .waitUntil _ => true
  | _ => false

/-- The phases the alarm says something about: asleep on it, or back from a timed wait
with the result still to be read. -/
def Phase.onAlarm : Phase → Bool
  | .waiting _ | .woken _ => true
  | .running (.ret site) => site.timed
  | _ => false

/-- **What the alarm says of one context**, at clock `clock`. -/
structure Ctx.Clocked (x : Ctx) (clock : Nat) : Prop where
  /-- Waiting on its alarm, a context holds no note. -/
  waiting : ∀ site, x.phase = .waiting site → x.notes = 0
  /-- Asleep inside `wait_until(tp)`, its alarm is at `tp`. -/
  deadline : ∀ tp, x.phase = .waiting (.waitUntil tp) ∨ x.phase = .woken (.waitUntil tp) →
    x.alarm = some tp
  /-- Woken with no note and no interrupt, it was woken by its alarm, which has expired. -/
  woken : ∀ site, x.phase = .woken site → x.notes ≤ 0 → x.interrupted = false →
    ∃ t, x.alarm = some t ∧ t ≤ clock
  /-- Back from `wait(duration)` without a note, the alarm has expired. -/
  waitFor : x.phase = .running (.ret .waitFor) → x.took = false →
    ∃ t, x.alarm = some t ∧ t ≤ clock
  /-- Back from `wait_until(tp)` without a note, `tp` has passed. -/
  waitUntil : ∀ tp, x.phase = .running (.ret (.waitUntil tp)) → x.took = false → tp ≤ clock

namespace Ctx.Clocked

variable {x : Ctx} {clock : Nat}

/-- Nothing to say of a phase off the alarm. -/
theorem of_onAlarm (h : x.phase.onAlarm = false) : x.Clocked clock := by
  refine ⟨fun _ e => ?_, fun _ e => ?_, fun _ e => ?_, fun e => ?_, fun _ e => ?_⟩ <;>
    (try rcases e with e | e) <;> simp [e, Phase.onAlarm, Site.timed] at h

/-- Nothing to say once the wait has taken a note and the context runs. -/
theorem of_took {k : Cont} (hp : x.phase = .running k) (ht : x.took = true) : x.Clocked clock := by
  constructor <;> intros <;> simp_all

/-- A context going to sleep with no note, its alarm at `tp` inside `wait_until(tp)`. -/
theorem of_waiting {site : Site} (hp : x.phase = .waiting site) (hn : x.notes = 0)
    (hd : ∀ tp, site = .waitUntil tp → x.alarm = some tp) : x.Clocked clock := by
  refine ⟨fun _ _ => hn, fun tp e => hd tp ?_, ?_, ?_, ?_⟩ <;> intros <;> simp_all

/-- A context just woken: it holds a note, is interrupted, or its alarm has expired. -/
theorem of_woken {site : Site} (hp : x.phase = .woken site)
    (hd : ∀ tp, site = .waitUntil tp → x.alarm = some tp)
    (hw : 0 < x.notes ∨ x.interrupted = true ∨ ∃ t, x.alarm = some t ∧ t ≤ clock) :
    x.Clocked clock := by
  refine ⟨?_, fun tp e => hd tp ?_, fun _ _ hn hi => ?_, ?_, ?_⟩ <;> (try intros) <;>
    simp_all
  rcases hw with hw | hw
  · omega
  · exact hw

theorem mono (h : x.Clocked clock) {clock' : Nat} (hk : clock ≤ clock') : x.Clocked clock' := by
  obtain ⟨h₁, h₂, h₃, h₄, h₅⟩ := h
  refine ⟨h₁, h₂, fun site hp hn hi => ?_, fun hp ht => ?_, fun tp hp ht => Nat.le_trans (h₅ tp hp ht) hk⟩
  · obtain ⟨t, ht, hle⟩ := h₃ site hp hn hi; exact ⟨t, ht, Nat.le_trans hle hk⟩
  · obtain ⟨t, ht, hle⟩ := h₄ hp ht; exact ⟨t, ht, Nat.le_trans hle hk⟩

/-- A change to what the alarm does not read. -/
theorem congr (h : x.Clocked clock) {x' : Ctx} (hp : x'.phase = x.phase) (hn : x'.notes = x.notes)
    (ha : x'.alarm = x.alarm) (ht : x'.took = x.took) (hi : x'.interrupted = x.interrupted) :
    x'.Clocked clock := by
  obtain ⟨h₁, h₂, h₃, h₄, h₅⟩ := h
  exact ⟨by rwa [hp, hn], by rwa [hp, ha], by rwa [hp, hn, hi, ha], by rwa [hp, ht, ha],
    by rwa [hp, ht]⟩

/-- A note to a context that does not wait: `notes` and `noted` go up. -/
theorem bump (h : x.Clocked clock) (hw : ∀ site, x.phase ≠ .waiting site) :
    ({ x with notes := x.notes + 1, noted := x.noted + 1 } : Ctx).Clocked clock :=
  ⟨fun site e => absurd e (hw site), h.deadline,
    fun site hp hn hi => h.woken site hp (by simp at hn; omega) hi, h.waitFor, h.waitUntil⟩

/-- The interrupt flag set: a woken context is not woken by its alarm alone any more. -/
theorem interrupt (h : x.Clocked clock) :
    ({ x with interrupted := true } : Ctx).Clocked clock :=
  ⟨h.waiting, h.deadline, fun _ _ _ hi => absurd hi (by simp), h.waitFor, h.waitUntil⟩

end Ctx.Clocked

/-- Every context, at the scheduler's clock. -/
def Clocked (s : State) : Prop :=
  ∀ c, (s.ctxs c).Clocked s.clock

/-! ## One lemma per function -/

section
variable {s : State}

theorem Clocked.of_ctxs (h : Clocked s) {s' : State} (hc : s'.ctxs = s.ctxs)
    (hk : s.clock ≤ s'.clock) : Clocked s' := fun c => by
  rw [hc]; exact (h c).mono hk

theorem Clocked.setCtx (h : Clocked s) {c : CtxId} {x : Ctx} (hx : x.Clocked s.clock) :
    Clocked (s.setCtx c x) := by
  intro d
  by_cases hd : d = c
  · subst hd; simpa using hx
  · rw [State.setCtx_ne _ _ hd]; exact h d

/-- Replacing a context by one in a phase off the alarm. -/
theorem Clocked.setPhase (h : Clocked s) {c : CtxId} {p : Phase} (hp : p.onAlarm = false) :
    Clocked (s.setCtx c { s.ctxs c with phase := p }) :=
  h.setCtx (Ctx.Clocked.of_onAlarm hp)

theorem Clocked.post (h : Clocked s) (x : Handler) : Clocked (s.post x) :=
  h.of_ctxs rfl (Nat.le_refl _)

theorem Clocked.setFrame (h : Clocked s) (f : FrameId) (fr : Frame) :
    Clocked (s.setFrame f fr) :=
  h.of_ctxs rfl (Nat.le_refl _)

/-- `wake` of a context that, if it waits, holds a note or is interrupted. -/
theorem wake_clocked (h : Clocked s) {c : CtxId}
    (hw : ∀ site, (s.ctxs c).phase = .waiting site →
      0 < (s.ctxs c).notes ∨ (s.ctxs c).interrupted = true) : Clocked (wake c s) := by
  unfold wake
  split
  · next site hp =>
    refine (h.setCtx ?_).post _
    exact Ctx.Clocked.of_woken rfl (fun tp e => (h c).deadline tp (.inl (e ▸ hp)))
      ((hw site hp).imp_right .inl)
  · exact h

/-- A note to a waiting context takes `notes` from zero to one and cancels the alarm. -/
theorem note_waiting {c : CtxId} {site : Site} (hp : (s.ctxs c).phase = .waiting site)
    (hn : (s.ctxs c).notes = 0) :
    note c s = (s.setCtx c { s.ctxs c with notes := (s.ctxs c).notes + 1,
                                           noted := (s.ctxs c).noted + 1,
                                           phase := .woken site }).post (.resume c) := by
  simp [note, hn, wake, hp, State.setCtx]

/-- A note to a context that does not wait only counts. -/
theorem note_not_waiting {c : CtxId} (hw : ∀ site, (s.ctxs c).phase ≠ .waiting site) :
    note c s = s.setCtx c { s.ctxs c with notes := (s.ctxs c).notes + 1,
                                          noted := (s.ctxs c).noted + 1 } := by
  unfold note
  dsimp only
  split
  · rfl
  · cases hp : (s.ctxs c).phase <;> simp_all [wake]

theorem note_clocked (h : Clocked s) (c : CtxId) : Clocked (note c s) := by
  by_cases hw : ∃ site, (s.ctxs c).phase = .waiting site
  · obtain ⟨site, hp⟩ := hw
    have hn := (h c).waiting site hp
    rw [note_waiting hp hn]
    refine (h.setCtx ?_).post _
    exact Ctx.Clocked.of_woken rfl (fun tp e => (h c).deadline tp (.inl (e ▸ hp)))
      (.inl (by simp [hn]))
  · simp only [not_exists] at hw
    rw [note_not_waiting hw]
    exact h.setCtx ((h c).bump hw)

theorem notify_clocked (h : Clocked s) (c : CtxId) : Clocked (notify c s) :=
  note_clocked h c

theorem interrupt_clocked (h : Clocked s) (c : CtxId) : Clocked (interrupt c s) :=
  wake_clocked (h.setCtx (h c).interrupt) fun _ _ => .inr (by simp)

theorem expire_clocked (h : Clocked s) {c : CtxId} {s' : State} (hs : expire c s = some s') :
    Clocked s' := by
  unfold expire at hs
  split at hs
  · next site t hp ha =>
    split at hs
    · next hle =>
      cases hs
      refine (h.setCtx ?_).post _
      exact Ctx.Clocked.of_woken rfl (fun tp e => (h c).deadline tp (.inl (e ▸ hp)))
        (.inr (.inr ⟨t, ha, hle⟩))
    · cases hs
  · cases hs

/-! ## The caller of `ctx::wait` -/

/-- What `ctx::wait` needs of the context that calls it: it holds its own note, and it is
not back from a timed wait (whose result is read before it waits again). -/
structure Caller (s : State) (c : CtxId) : Prop where
  notes : 1 ≤ (s.ctxs c).notes
  phase : (s.ctxs c).phase.onAlarm = false

theorem Caller.congr {c : CtxId} (hc : Caller s c) {s' : State}
    (hn : (s'.ctxs c).notes = (s.ctxs c).notes) (hp : (s'.ctxs c).phase = (s.ctxs c).phase) :
    Caller s' c :=
  ⟨hn ▸ hc.notes, hp ▸ hc.phase⟩

/-- Changing a context in a way that keeps its `notes` and its phase. -/
theorem Caller.setCtx {c d : CtxId} (hc : Caller s c) {x : Ctx} (hn : x.notes = (s.ctxs d).notes)
    (hp : x.phase = (s.ctxs d).phase) : Caller (s.setCtx d x) c := by
  by_cases e : c = d
  · subst e; exact hc.congr (by simpa using hn) (by simpa using hp)
  · exact hc.congr (by rw [State.setCtx_ne _ _ e]) (by rw [State.setCtx_ne _ _ e])

theorem Caller.wake {c : CtxId} (hc : Caller s c) (d : CtxId) : Caller (wake d s) c := by
  unfold Sched.wake
  split
  · next site hp =>
    have e : c ≠ d := fun e => by have := hc.phase; subst e; simp [hp, Phase.onAlarm] at this
    exact hc.congr (by rw [State.post_ctxs, State.setCtx_ne _ _ e])
      (by rw [State.post_ctxs, State.setCtx_ne _ _ e])
  · exact hc

theorem Caller.interrupt {c : CtxId} (hc : Caller s c) (d : CtxId) :
    Caller (interrupt d s) c :=
  Caller.wake (Caller.setCtx (x := { s.ctxs d with interrupted := true }) hc rfl rfl) d

/-! ## The calls a context makes -/

/-- `ctx::wait` called with a note of its own, the alarm at `tp` inside `wait_until(tp)`. -/
theorem wait_clocked (h : Clocked s) {c : CtxId} {site : Site} (hn : 1 ≤ (s.ctxs c).notes)
    (hd : ∀ tp, site = .waitUntil tp → (s.ctxs c).alarm = some tp) :
    Clocked (wait c site s) := by
  unfold wait
  dsimp only
  split
  · exact h.setCtx (Ctx.Clocked.of_took rfl rfl)
  · next hlt =>
    refine (h.setCtx ?_).of_ctxs rfl (Nat.le_refl _)
    exact Ctx.Clocked.of_waiting rfl (by show (s.ctxs c).notes - 1 = 0; omega) hd

theorem ThisCtx.wait_clocked (h : Clocked s) {c : CtxId} {site : Site} (hc : Caller s c)
    (hsite : site.timed = false) : Clocked (ThisCtx.wait c site s) := by
  unfold ThisCtx.wait
  refine Sched.wait_clocked (h.setCtx ?_) (by simpa using hc.notes) fun tp e => ?_
  · exact Ctx.Clocked.of_onAlarm hc.phase
  · subst e; cases hsite

theorem ThisCtx.waitFor_clocked (h : Clocked s) {c : CtxId} (dur : Nat) (hc : Caller s c) :
    Clocked (ThisCtx.waitFor c dur s) := by
  unfold ThisCtx.waitFor
  refine Sched.wait_clocked (h.setCtx ?_) (by simpa using hc.notes) fun _ e => by cases e
  exact Ctx.Clocked.of_onAlarm hc.phase

theorem ThisCtx.waitUntil_clocked (h : Clocked s) {c : CtxId} (tp : Nat) {site : Site}
    (hc : Caller s c) (hsite : ∀ tp', site = .waitUntil tp' → tp' = tp) :
    Clocked (ThisCtx.waitUntil c tp site s) := by
  unfold ThisCtx.waitUntil
  refine Sched.wait_clocked (h.setCtx ?_) (by simpa using hc.notes) fun tp' e => ?_
  · exact Ctx.Clocked.of_onAlarm hc.phase
  · simp [hsite tp' e]

theorem ThisCtx.yield_clocked (h : Clocked s) {c : CtxId} (hc : Caller s c) :
    Clocked (ThisCtx.yield c s) := by
  unfold ThisCtx.yield
  refine ThisCtx.wait_clocked ?_ ?_ (by rfl)
  · exact h.of_ctxs rfl (Nat.le_refl _)
  · exact hc.congr rfl rfl

theorem offload_clocked (h : Clocked s) {c : CtxId} (hc : Caller s c) :
    Clocked (offload c s) := by
  unfold offload
  refine ThisCtx.wait_clocked ?_ ?_ (by rfl)
  · exact h.of_ctxs rfl (Nat.le_refl _)
  · exact hc.congr rfl rfl

theorem join_clocked (h : Clocked s) {j d : CtxId} {site : Site} (hc : Caller s j)
    (hsite : site.timed = false) : Clocked (join j d site s) := by
  unfold join
  split
  · exact h.setPhase (by simpa [Phase.onAlarm] using hsite)
  · refine ThisCtx.wait_clocked (h.setCtx ?_) (hc.setCtx rfl rfl) hsite
    exact (h d).congr rfl rfl rfl rfl rfl

theorem destroy_clocked (h : Clocked s) {j : CtxId} (d : CtxId) (hc : Caller s j) :
    Clocked (destroy j d s) :=
  join_clocked (interrupt_clocked h d) (hc.interrupt d) rfl

theorem spawn_clocked (h : Clocked s) (d : CtxId) : Clocked (spawn d s) :=
  (h.setCtx (Ctx.Clocked.of_onAlarm (x := Ctx.fresh) rfl)).post _

theorem notifyAdjoindre_clocked (h : Clocked s) (c : CtxId) : Clocked (notifyAdjoindre c s) := by
  unfold notifyAdjoindre
  split
  · exact notify_clocked h _
  · exact h

theorem atexit_clocked (h : Clocked s) (c : CtxId) : Clocked (atexit c s) :=
  ((notifyAdjoindre_clocked h c).setPhase (by rfl)).of_ctxs rfl (Nat.le_refl _)

theorem call_clocked (h : Clocked s) {c : CtxId} (hc : Caller s c) {o : Op} {s' : State}
    (hs : call c o s = some s') : Clocked s' := by
  cases o with
  | notify d => simp only [call] at hs; split at hs <;> cases hs; exact notify_clocked h d
  | interrupt d => simp only [call] at hs; split at hs <;> cases hs; exact interrupt_clocked h d
  | wait => cases hs; exact ThisCtx.wait_clocked h hc rfl
  | waitFor dur => cases hs; exact ThisCtx.waitFor_clocked h dur hc
  | waitUntil tp => cases hs; exact ThisCtx.waitUntil_clocked h tp hc fun _ e => by cases e; rfl
  | sleepUntil tp => cases hs; exact ThisCtx.waitUntil_clocked h tp hc fun _ e => by cases e
  | join d => simp only [call] at hs; split at hs <;> cases hs; exact join_clocked h hc rfl
  | destroy d => simp only [call] at hs; split at hs <;> cases hs; exact destroy_clocked h d hc
  | yield => cases hs; exact ThisCtx.yield_clocked h hc
  | offload => cases hs; exact offload_clocked h hc
  | spawn d => simp only [call] at hs; split at hs <;> cases hs; exact spawn_clocked h d
  | interruptionPoint => cases hs; exact h.setCtx (Ctx.Clocked.of_onAlarm hc.phase)
  | exit => cases hs; exact atexit_clocked h c

/-- The rest of a scheduler function, once its `ctx::wait` returned. -/
theorem afterWait_clocked (h : Clocked s) {c : CtxId} {site : Site}
    (hn : 1 ≤ (s.ctxs c).notes) (hp : (s.ctxs c).phase = .running (.ret site)) :
    Clocked (afterWait c site s) := by
  have hc (ht : site.timed = false) : Caller s c := ⟨hn, by simpa [hp, Phase.onAlarm] using ht⟩
  cases site with
  | wait | waitFor | waitUntil _ | join _ => exact h.setPhase (by rfl)
  | sleepUntil tp =>
    dsimp only [afterWait]
    split
    · exact h.setPhase (by rfl)
    · exact ThisCtx.waitUntil_clocked h tp (hc rfl) fun _ e => by cases e
  | dtor d =>
    refine Clocked.setPhase (Clocked.setCtx h ?_) (by rfl)
    exact (h d).congr rfl rfl rfl rfl rfl
  | yield f | offload f =>
    dsimp only [afterWait]
    split
    · exact (h.setFrame _ _).setPhase (by rfl)
    · exact ThisCtx.wait_clocked h (hc rfl) rfl

theorem afterRaise_clocked (h : Clocked s) (c : CtxId) (site : Site) :
    Clocked (afterRaise c site s) := by
  cases site with
  | dtor d => exact h.of_ctxs rfl (Nat.le_refl _)
  | yield f | offload f => exact (h.setFrame _ _).setPhase (by rfl)
  | _ => exact h.setPhase (by rfl)

/-! ## Handlers and the worker -/

/-- The resume of a woken context: back in its site, having taken a note if it held one;
without one, and not interrupted, it was woken by its alarm. -/
theorem resumeAt_clocked (h : Clocked s) {c : CtxId} {site : Site}
    (hph : (s.ctxs c).phase = .woken site) : Clocked (resumeAt c site s) := by
  refine Clocked.of_ctxs (Clocked.setCtx h ?_) rfl (Nat.le_refl _)
  cases hi : (s.ctxs c).interrupted
  · have hw := (h c).woken site hph
    have hd := (h c).deadline
    simp only [Ctx.interruptionPoint, hi]
    refine ⟨nofun, fun _ e => (by rcases e with e | e <;> cases e), nofun, fun e ht => ?_,
      fun tp e ht => ?_⟩
    · cases e
      exact hw (by simp at ht; omega) hi
    · cases e
      obtain ⟨t, ht', hle⟩ := hw (by simp at ht; omega) hi
      rw [hd tp (.inr hph)] at ht'
      cases ht'
      exact hle
  · exact Ctx.Clocked.of_onAlarm (by simp [Ctx.interruptionPoint, hi, Phase.onAlarm])

theorem resume_clocked (h : Clocked s) {c : CtxId} {s' : State} (hs : resume c s = some s') :
    Clocked s' := by
  unfold resume at hs
  split at hs
  · next site hph => cases hs; exact resumeAt_clocked h hph
  · cases hs

theorem enter_clocked (h : Clocked s) {c : CtxId} {s' : State} (hs : enter c s = some s') :
    Clocked s' := by
  unfold enter at hs
  dsimp only at hs
  split at hs
  · cases hs
    have h' : Clocked { s.setCtx c _ with current := some c } :=
      Clocked.of_ctxs (Clocked.setCtx h (c := c) (Ctx.Clocked.of_onAlarm (x :=
        { s.ctxs c with notes := 1, phase := .running .user,
                        coalesced := (s.ctxs c).coalesced + ((s.ctxs c).notes - 1).toNat }) rfl))
        rfl (Nat.le_refl _)
    split
    · exact atexit_clocked h' c
    · exact h'
  · cases hs

theorem runHandler_clocked (h : Clocked s) {x : Handler} {s' : State}
    (hs : runHandler x s = some s') : Clocked s' := by
  cases x with
  | spawn c => exact enter_clocked h hs
  | resume c => exact resume_clocked h hs
  | notify c => cases hs; exact notify_clocked h c
  | restore f => cases hs; exact notify_clocked (h.setFrame _ _) _
  | kick f =>
    cases hs
    unfold kick
    dsimp only
    split
    · exact notify_clocked (h.setFrame _ _) _
    · exact h.setFrame _ _

theorem runNext_clocked (h : Clocked s) {s' : State} (hs : runNext s = some s') : Clocked s' := by
  unfold runNext at hs
  split at hs
  · refine runHandler_clocked ?_ hs
    exact h.of_ctxs rfl (Nat.le_refl _)
  · cases hs

/-- An awake context holds its own note. -/
theorem NotesLedger.one_le {x : Ctx} (h : NotesLedger x) (ha : x.phase.asleep = false) :
    1 ≤ x.notes := by
  have := h.nonneg
  rw [Ctx.pending_awake ha] at this
  omega

theorem carryOn_clocked (h : Clocked s) (hl : Ledger s) {c : CtxId} {s' : State}
    (hs : carryOn c s = some s') : Clocked s' := by
  unfold carryOn at hs
  split at hs
  · next site hph => cases hs; exact afterWait_clocked h ((hl c).one_le (by simp [hph])) hph
  · next site _ => cases hs; exact afterRaise_clocked h c site
  · cases hs

/-- **Every step keeps what the alarm says**, in a state where the notes balance. -/
theorem Clocked.step (h : Clocked s) (hl : Ledger s) {a : Action} {s' : State}
    (hs : step s a = some s') : Clocked s' := by
  cases (step_moves hs).2 with
  | call o _ hp hc => exact call_clocked h ⟨(hl _).one_le (by simp [hp]), by rw [hp]; rfl⟩ hc
  | carryOn _ hc => exact carryOn_clocked h hl hc
  | run _ hn => exact runNext_clocked h hn
  | expire he => exact expire_clocked h he
  | tick => exact h.of_ctxs rfl (Nat.le_succ _)
  | signal c _ => exact h.post _
  | workerPop _ _ => exact h.of_ctxs rfl (Nat.le_refl _)
  | workerDone threw _ => exact h.of_ctxs rfl (Nat.le_refl _)

end

theorem clocked_init (cs : List CtxId) : Clocked (State.init cs) := fun c => by
  simp only [State.init]
  split <;> exact Ctx.Clocked.of_onAlarm rfl

theorem clocked_reachable {s : State} (hr : Reachable s) : Clocked s := by
  induction hr with
  | init cs => exact clocked_init cs
  | step a hr' hs ih => exact ih.step (ledger_reachable hr') hs

/-! ## What the alarm says -/

/-- A context asleep on its alarm holds a note only once the note has woken it: the note
that takes `notes` from zero to one cancels the alarm, and the resume is queued. -/
theorem woken_of_note {s : State} (hr : Reachable s) {c : CtxId}
    (ha : (s.ctxs c).phase.asleep = true) (hn : 0 < (s.ctxs c).notes) :
    (∃ site, (s.ctxs c).phase = .woken site) ∧ Handler.resume c ∈ s.queue := by
  have hq := (allSafe_reachable hr c).resumes
  cases hp : (s.ctxs c).phase with
  | waiting site => rw [(clocked_reachable hr c).waiting site hp] at hn; cases hn
  | woken site =>
    refine ⟨⟨site, rfl⟩, List.count_pos_iff.mp ?_⟩
    rw [hq, hp]
    simp [Phase.woken?]
  | _ => simp [hp] at ha

section
variable {x : Ctx} {clock : Nat}

/-- `wait(duration)` that reports a notification, a positive time left, took a note. -/
theorem Ctx.Clocked.waitFor_took (h : x.Clocked clock) (hp : x.phase = .running (.ret .waitFor))
    {r : Int} (hr : ThisCtx.waitForResult x clock = some r) (hpos : 0 < r) : x.took = true := by
  cases ht : x.took
  · obtain ⟨t, ha, hle⟩ := h.waitFor hp ht
    simp [ThisCtx.waitForResult, ha] at hr
    omega
  · rfl

/-- `wait_until(tp)` that reports a notification, `false`, took a note. -/
theorem Ctx.Clocked.waitUntil_took (h : x.Clocked clock) {tp : Nat}
    (hp : x.phase = .running (.ret (.waitUntil tp)))
    (hr : ThisCtx.waitUntilResult tp clock = false) : x.took = true := by
  cases ht : x.took
  · have := h.waitUntil tp hp ht
    simp [ThisCtx.waitUntilResult] at hr
    omega
  · rfl

end

/-- Notes are discarded only by the step that starts the context or resumes it. -/
theorem step_coalesced {s s' : State} {a : Action} (hs : step s a = some s') {c : CtxId}
    (hlt : (s.ctxs c).coalesced < (s'.ctxs c).coalesced) :
    a = .run ∧ (s.queue.head? = some (.spawn c) ∨ s.queue.head? = some (.resume c)) := by
  rcases step_notes hs with hk | ⟨d, ha, hq, hw⟩
  · exact absurd (hk c).coalesced (Nat.not_le.mpr hlt)
  · by_cases hd : c = d
    · subst hd; exact ⟨ha, hq⟩
    · exact absurd (hw.others c hd).1.coalesced (Nat.not_le.mpr hlt)

/-- A context that goes to sleep has nothing pending. -/
theorem step_sleeps {s s' : State} {a : Action} (hl : Ledger s') (hs : step s a = some s')
    {c : CtxId} (h₁ : (s.ctxs c).phase.asleep = false) (h₂ : (s'.ctxs c).phase.asleep = true) :
    (s'.ctxs c).pending = 0 := by
  rcases step_notes hs with hk | ⟨d, -, -, hw⟩
  · have := (hk c).sleeps h₁ h₂
    have := (hl c).nonneg
    rw [Ctx.pending_asleep h₂] at this ⊢
    omega
  · by_cases hd : c = d
    · subst hd; simp [hw.awake] at h₂
    · rw [(hw.others c hd).2, h₁] at h₂; cases h₂

/-- **Notes are not a lossless count, and a timeout is no proof that no note came.**
First: context `0` sleeps in `this_ctx::wait()`; context `1` notifies it twice and exits;
`0` resumes. Two notes went in, one wait returned, and nothing is pending (`notes` is back
to one), so `noted = returns + pending` fails. Second: `0` calls `wait(1)` at time `0`;
`1` notifies it, which wakes it, and the clock reaches `1` before `1` exits and `0` is
resumed. The wait took the note, and reports `0` left: a timeout. -/
theorem notes_not_lossless :
    (¬ ∀ s, Reachable s → ∀ c,
      ((s.ctxs c).noted : Int) = (s.ctxs c).consumed + (s.ctxs c).pending) ∧
    (¬ ∀ s, Reachable s → ∀ c r, (s.ctxs c).phase = .running (.ret .waitFor) →
      ThisCtx.waitForResult (s.ctxs c) s.clock = some r → r ≤ 0 → (s.ctxs c).took = false) := by
  constructor
  · intro h
    obtain ⟨s, hs, h₂, h₁, h₀⟩ : ∃ s, run (State.init [0, 1])
        [.run, .op .wait, .run, .op (.notify 0), .op (.notify 0), .op .exit, .run, .cont] =
          some s ∧ (s.ctxs 0).noted = 2 ∧ (s.ctxs 0).consumed = 1 ∧ (s.ctxs 0).pending = 0 :=
      ⟨_, rfl, by decide, by decide, by decide⟩
    have := h s (run_reachable (.init _) hs) 0
    omega
  · intro h
    obtain ⟨s, hs, hp, hr, ht⟩ : ∃ s, run (State.init [0, 1])
        [.run, .op (.waitFor 1), .run, .op (.notify 0), .tick, .op .exit, .run] = some s ∧
        (s.ctxs 0).phase = .running (.ret .waitFor) ∧
        ThisCtx.waitForResult (s.ctxs 0) s.clock = some 0 ∧ (s.ctxs 0).took = true :=
      ⟨_, rfl, by decide, by decide, by decide⟩
    exact absurd (h s (run_reachable (.init _) hs) 0 0 hp hr (Int.le_refl 0)) (by simp [ht])

/-- **The notes ledger, and what the alarm says.** On a step from every reachable state,
for every context:
(a) each note that came in was taken by a wait, discarded when `notes` was set back to
    one, or is still pending, and nothing pending is negative;
(b) notes are discarded only by the step that starts the context or resumes it;
(c) a context that goes to sleep has nothing pending;
(d) a context asleep on its alarm that holds a note has been woken, its resume queued:
    the note that took its `notes` from zero to one cancelled the alarm;
(e) `wait(duration)` that reports a notification, a positive time left, took a note, and
    so did `wait_until(tp)` that reports one by returning `false`. -/
theorem notes_ledger {s s' : State} {a : Action} (hr : Reachable s) (hs : step s a = some s')
    (c : CtxId) :
    NotesLedger (s.ctxs c) ∧
    ((s.ctxs c).coalesced < (s'.ctxs c).coalesced →
      a = .run ∧ (s.queue.head? = some (.spawn c) ∨ s.queue.head? = some (.resume c))) ∧
    ((s.ctxs c).phase.asleep = false → (s'.ctxs c).phase.asleep = true →
      (s'.ctxs c).pending = 0) ∧
    ((s.ctxs c).phase.asleep = true → 0 < (s.ctxs c).notes →
      (∃ site, (s.ctxs c).phase = .woken site) ∧ Handler.resume c ∈ s.queue) ∧
    (∀ r, (s.ctxs c).phase = .running (.ret .waitFor) →
      ThisCtx.waitForResult (s.ctxs c) s.clock = some r → 0 < r → (s.ctxs c).took = true) ∧
    (∀ tp, (s.ctxs c).phase = .running (.ret (.waitUntil tp)) →
      ThisCtx.waitUntilResult tp s.clock = false → (s.ctxs c).took = true) :=
  have hc := clocked_reachable hr c
  ⟨ledger_reachable hr c, step_coalesced hs, step_sleeps (ledger_reachable (hr.step a hs)) hs,
    woken_of_note hr, fun _ hp hw hpos => hc.waitFor_took hp hw hpos,
    fun _ hp hw => hc.waitUntil_took hp hw⟩

/-- Context `0` calls `wait(5)` and sleeps; context `1` notifies it, which wakes it with its
resume queued, and exits; `0` resumes and its wait reports `5` left, having taken the
note. -/
theorem notes_ledger_notified :
    ∃ s₁ s₂ s₃, run (State.init [0, 1]) [.run, .op (.waitFor 5), .run, .op (.notify 0)] =
        some s₁ ∧ step s₁ (.op .exit) = some s₂ ∧ step s₂ .run = some s₃ ∧
      (s₁.ctxs 0).phase = .woken .waitFor ∧ Handler.resume 0 ∈ s₁.queue ∧
      ThisCtx.waitForResult (s₃.ctxs 0) s₃.clock = some 5 ∧ (s₃.ctxs 0).took = true := by
  obtain ⟨s₁, h₁, s₂, h₂, s₃, h₃, s₄, h₄, hp₁, hn₁, hp₃, hr⟩ : ∃ s₁, run (State.init [0, 1])
      [.run, .op (.waitFor 5), .run, .op (.notify 0)] = some s₁ ∧ ∃ s₂, step s₁ (.op .exit) =
        some s₂ ∧ ∃ s₃, step s₂ .run = some s₃ ∧ ∃ s₄, step s₃ .cont = some s₄ ∧
      (s₁.ctxs 0).phase = .woken .waitFor ∧ 0 < (s₁.ctxs 0).notes ∧
      (s₃.ctxs 0).phase = .running (.ret .waitFor) ∧
      ThisCtx.waitForResult (s₃.ctxs 0) s₃.clock = some 5 :=
    ⟨_, rfl, _, rfl, _, rfl, _, rfl, by decide, by decide, by decide, by decide⟩
  have hr₁ := run_reachable (.init _) h₁
  have hr₃ := (hr₁.step _ h₂).step _ h₃
  exact ⟨s₁, s₂, s₃, h₁, h₂, h₃, hp₁, ((notes_ledger hr₁ h₂ 0).2.2.2.1 (by rw [hp₁]; rfl) hn₁).2,
    hr, (notes_ledger hr₃ h₄ 0).2.2.2.2.1 5 hp₃ hr (by decide)⟩

end Charybdis.Sched
