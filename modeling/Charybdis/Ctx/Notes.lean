import Charybdis.Ctx.Step

/-!
# The notes ledger

`notes` is a counter of notifications, but not the spec's lossless counter. It is
decremented by the context's own `ctx::wait` and incremented by every `note()`, and while
the context runs nothing else touches it, so a note that arrives then is taken by exactly
one later wait, which returns through `if(--notes > 0) return false;` without suspending.
Two places overwrite it instead of counting: `ctx::operator()` sets `notes = 1` at the
start, and the `continuation` destructor sets `notes = 1` on every resume. Whatever arrived
before the start, or between the cancel that woke the context and the resume, beyond the
one note that did the waking, is discarded there.

The ledger makes that exact. For every context, in every reachable state,

  `noted = consumed + coalesced + pending`,

where `pending` is `notes - 1` while the context is awake and `notes` while it sleeps on
its alarm, and is never negative (`ledger_reachable`). Every step keeps every context's
ledger except that it may start or resume one (`step_notes`); `coalesced` grows only
there, and a context that goes to sleep has nothing pending right after it does.
`Charybdis.Ctx.Alarm` puts this together with what the alarm reports.
-/

namespace Charybdis.Sched

/-- Asleep on the alarm: from `async_wait` to the resume. -/
def Phase.asleep : Phase → Bool
  | .waiting _ | .woken _ => true
  | _ => false

/-- Notes not yet taken by a wait. While a context is awake one note is its own (`notes`
is one when nothing is pending); while it sleeps `notes` counts them all. -/
def Ctx.pending (x : Ctx) : Int :=
  if x.phase.asleep then x.notes else x.notes - 1

theorem Ctx.pending_awake {x : Ctx} (h : x.phase.asleep = false) : x.pending = x.notes - 1 := by
  simp [Ctx.pending, h]

theorem Ctx.pending_asleep {x : Ctx} (h : x.phase.asleep = true) : x.pending = x.notes := by
  simp [Ctx.pending, h]

/-- **The notes ledger of one context.** -/
structure NotesLedger (x : Ctx) : Prop where
  /-- Every note in is taken by a wait, discarded by a reset, or still pending. -/
  balance : (x.noted : Int) = x.consumed + x.coalesced + x.pending
  /-- Nothing is ever taken that did not come in. -/
  nonneg : 0 ≤ x.pending

/-- What a function may do to a context it neither starts nor resumes: keep the ledger,
discard no note, and put the context to sleep only with `notes` at zero. -/
structure Keeps (x x' : Ctx) : Prop where
  ledger : NotesLedger x → NotesLedger x'
  coalesced : x'.coalesced ≤ x.coalesced
  sleeps : x.phase.asleep = false → x'.phase.asleep = true → x'.notes ≤ 0

@[simp] theorem Phase.asleep_waiting (site : Site) : (Phase.waiting site).asleep = true := rfl
@[simp] theorem Phase.asleep_woken (site : Site) : (Phase.woken site).asleep = true := rfl
@[simp] theorem Phase.asleep_running (k : Cont) : (Phase.running k).asleep = false := rfl
@[simp] theorem Phase.asleep_spawned : Phase.spawned.asleep = false := rfl
@[simp] theorem Phase.asleep_finished : Phase.finished.asleep = false := rfl
@[simp] theorem Phase.asleep_absent : Phase.absent.asleep = false := rfl

/-- Every context kept. -/
def Kept (s s' : State) : Prop :=
  ∀ d, Keeps (s.ctxs d) (s'.ctxs d)

/-- Every context kept, and none put to sleep or woken up. -/
def Quiet (s s' : State) : Prop :=
  ∀ d, Keeps (s.ctxs d) (s'.ctxs d) ∧ (s'.ctxs d).phase.asleep = (s.ctxs d).phase.asleep

/-! ## Composing kept changes -/

theorem Keeps.refl (x : Ctx) : Keeps x x :=
  ⟨id, Nat.le_refl _, fun h h' => absurd h' (by simp [h])⟩

theorem Keeps.trans {x x' x'' : Ctx} (h₁ : Keeps x x') (h₂ : Keeps x' x'')
    (h : x'.phase.asleep = x.phase.asleep) : Keeps x x'' :=
  ⟨h₂.ledger ∘ h₁.ledger, Nat.le_trans h₂.coalesced h₁.coalesced,
    fun ha ha' => h₂.sleeps (h ▸ ha) ha'⟩

/-- A change that keeps `notes`, the ghosts and whether the context sleeps. -/
theorem Keeps.of_eq {x x' : Ctx} (hn : x'.notes = x.notes) (hg : x'.noted = x.noted)
    (hc : x'.consumed = x.consumed) (hk : x'.coalesced = x.coalesced)
    (ha : x'.phase.asleep = x.phase.asleep) : Keeps x x' := by
  have hp : x'.pending = x.pending := by simp only [Ctx.pending, hn, ha]
  refine ⟨fun h => ⟨?_, ?_⟩, Nat.le_of_eq hk, fun h h' => absurd h' (by simp [ha, h])⟩
  · rw [hg, hc, hk, hp]; exact h.balance
  · rw [hp]; exact h.nonneg

theorem Quiet.refl (s : State) : Quiet s s :=
  fun _ => ⟨Keeps.refl _, rfl⟩

theorem Quiet.trans {s s' s'' : State} (h₁ : Quiet s s') (h₂ : Quiet s' s'') : Quiet s s'' :=
  fun d => ⟨(h₁ d).1.trans (h₂ d).1 (h₁ d).2, (h₂ d).2.trans (h₁ d).2⟩

theorem Quiet.kept {s s' : State} (h : Quiet s s') : Kept s s' :=
  fun d => (h d).1

theorem Quiet.then {s s' s'' : State} (h₁ : Quiet s s') (h₂ : Kept s' s'') : Kept s s'' :=
  fun d => (h₁ d).1.trans (h₂ d) (h₁ d).2

theorem Quiet.of_ctxs {s s' : State} (h : s'.ctxs = s.ctxs) : Quiet s s' := by
  unfold Quiet; rw [h]; exact Quiet.refl s

theorem Quiet.setFrame (s : State) (f : FrameId) (fr : Frame) : Quiet s (s.setFrame f fr) :=
  Quiet.of_ctxs rfl

/-- Replacing one context by a kept one that sleeps when it did. -/
theorem Quiet.setCtx {s : State} {c : CtxId} {x : Ctx} (hk : Keeps (s.ctxs c) x)
    (ha : x.phase.asleep = (s.ctxs c).phase.asleep) : Quiet s (s.setCtx c x) := by
  intro d
  by_cases hd : d = c
  · subst hd; simp only [State.setCtx_self]; exact ⟨hk, ha⟩
  · rw [State.setCtx_ne _ _ hd]; exact ⟨Keeps.refl _, rfl⟩

/-- Moving an awake context to another awake phase. -/
theorem Quiet.setPhase {s : State} {c : CtxId} {p : Phase} (h : (s.ctxs c).phase.asleep = false)
    (hp : p.asleep = false) : Quiet s (s.setCtx c { s.ctxs c with phase := p }) :=
  Quiet.setCtx (Keeps.of_eq rfl rfl rfl rfl (hp.trans h.symm)) (hp.trans h.symm)

theorem Kept.setCtx {s : State} {c : CtxId} {x : Ctx} (hk : Keeps (s.ctxs c) x) :
    Kept s (s.setCtx c x) := by
  intro d
  by_cases hd : d = c
  · subst hd; rw [State.setCtx_self]; exact hk
  · rw [State.setCtx_ne _ _ hd]; exact Keeps.refl _

theorem Kept.of_ctxs {s s' : State} (h : s'.ctxs = s.ctxs) : Kept s s' :=
  (Quiet.of_ctxs h).kept

/-- The ledger of every context. -/
def Ledger (s : State) : Prop :=
  ∀ c, NotesLedger (s.ctxs c)

theorem Kept.ledger {s s' : State} (h : Kept s s') (hl : Ledger s) : Ledger s' :=
  fun d => (h d).ledger (hl d)

/-! ## One lemma per function -/

/-- A note in: `notes` and `noted` both go up by one. -/
theorem Keeps.bump (x : Ctx) : Keeps x { x with notes := x.notes + 1, noted := x.noted + 1 } := by
  have hp : ({ x with notes := x.notes + 1, noted := x.noted + 1 } : Ctx).pending =
      x.pending + 1 := by
    simp only [Ctx.pending]; split <;> omega
  refine ⟨fun h => ⟨?_, ?_⟩, Nat.le_refl _, fun h h' => absurd h' (by simpa using h)⟩
  · have := h.balance; rw [hp]; push_cast; omega
  · have := h.nonneg; rw [hp]; omega

theorem wake_quiet (c : CtxId) (s : State) : Quiet s (wake c s) := by
  unfold wake
  split
  · rename_i site hph
    exact Quiet.setCtx (Keeps.of_eq rfl rfl rfl rfl (by simp [hph])) (by simp [hph])
  · exact Quiet.refl s

theorem note_quiet (c : CtxId) (s : State) : Quiet s (note c s) := by
  have h₁ := Quiet.setCtx (s := s) (c := c) (Keeps.bump _) rfl
  unfold note
  dsimp only
  split
  · exact h₁
  · exact h₁.trans (wake_quiet c _)

theorem notify_quiet (c : CtxId) (s : State) : Quiet s (notify c s) :=
  note_quiet c s

theorem interrupt_quiet (c : CtxId) (s : State) : Quiet s (interrupt c s) :=
  (Quiet.setCtx (s := s) (c := c) (x := { s.ctxs c with interrupted := true })
    (Keeps.of_eq rfl rfl rfl rfl rfl) rfl).trans (wake_quiet c _)

theorem wait_kept {c : CtxId} {s : State} (site : Site) (h : (s.ctxs c).phase.asleep = false) :
    Kept s (wait c site s) := by
  unfold wait
  dsimp only
  split
  · refine Kept.setCtx ⟨fun hl => ⟨?_, ?_⟩, Nat.le_refl _, fun _ h' => absurd h' (by simp)⟩
    · have := hl.balance; simp [Ctx.pending, h] at this ⊢; omega
    · simp [Ctx.pending]; omega
  · refine Kept.setCtx ⟨fun hl => ⟨?_, ?_⟩, Nat.le_refl _, fun _ _ => by simp; omega⟩
    · have := hl.balance; simp [Ctx.pending, h] at this ⊢; omega
    · have := hl.nonneg; simp [Ctx.pending, h] at this ⊢; omega

namespace ThisCtx

theorem wait_kept {c : CtxId} {s : State} (site : Site) (h : (s.ctxs c).phase.asleep = false) :
    Kept s (ThisCtx.wait c site s) :=
  (Quiet.setCtx (s := s) (c := c) (x := { s.ctxs c with alarm := none })
    (Keeps.of_eq rfl rfl rfl rfl rfl) rfl).then (Sched.wait_kept site (by simpa using h))

theorem waitFor_kept {c : CtxId} {s : State} (dur : Nat) (h : (s.ctxs c).phase.asleep = false) :
    Kept s (ThisCtx.waitFor c dur s) :=
  (Quiet.setCtx (s := s) (c := c) (x := { s.ctxs c with alarm := some (s.clock + dur) })
    (Keeps.of_eq rfl rfl rfl rfl rfl) rfl).then (Sched.wait_kept _ (by simpa using h))

theorem waitUntil_kept {c : CtxId} {s : State} (tp : Nat) (site : Site)
    (h : (s.ctxs c).phase.asleep = false) : Kept s (ThisCtx.waitUntil c tp site s) :=
  (Quiet.setCtx (s := s) (c := c) (x := { s.ctxs c with alarm := some tp })
    (Keeps.of_eq rfl rfl rfl rfl rfl) rfl).then (Sched.wait_kept site (by simpa using h))

theorem yield_kept {c : CtxId} {s : State} (h : (s.ctxs c).phase.asleep = false) :
    Kept s (ThisCtx.yield c s) :=
  wait_kept (s := ({ s.setFrame s.nextFrame (Frame.fresh c) with
    nextFrame := s.nextFrame + 1 } : State).post (.restore s.nextFrame)) _ h

theorem interruptionPoint_quiet (c : CtxId) (s : State) :
    Quiet s (ThisCtx.interruptionPoint c s) :=
  Quiet.setCtx (Keeps.of_eq rfl rfl rfl rfl rfl) rfl

end ThisCtx

theorem join_kept {j : CtxId} {s : State} (d : CtxId) (site : Site)
    (h : (s.ctxs j).phase.asleep = false) : Kept s (join j d site s) := by
  unfold join
  split
  · exact (Quiet.setPhase h (by rfl)).kept
  · have hq := Quiet.setCtx (s := s) (c := d) (x := { s.ctxs d with adjoindre := some j })
      (Keeps.of_eq rfl rfl rfl rfl rfl) rfl
    exact hq.then (ThisCtx.wait_kept site ((hq j).2.trans h))

theorem destroy_kept {j : CtxId} {s : State} (d : CtxId) (h : (s.ctxs j).phase.asleep = false) :
    Kept s (destroy j d s) :=
  (interrupt_quiet d s).then (join_kept d _ (((interrupt_quiet d s) j).2.trans h))

theorem fresh_ledger : NotesLedger Ctx.fresh :=
  ⟨by simp [Ctx.fresh, Ctx.pending], by simp [Ctx.fresh, Ctx.pending]⟩

theorem spawn_quiet {d : CtxId} {s : State} (h : (s.ctxs d).phase.asleep = false) :
    Quiet s (spawn d s) :=
  Quiet.setCtx ⟨fun _ => fresh_ledger, Nat.zero_le _, fun _ h' => absurd h' (by simp [Ctx.fresh])⟩
    (by simp [Ctx.fresh, h])

theorem offload_kept {c : CtxId} {s : State} (h : (s.ctxs c).phase.asleep = false) :
    Kept s (offload c s) :=
  ThisCtx.wait_kept (s := { s.setFrame s.nextFrame (Frame.fresh c) with
    nextFrame := s.nextFrame + 1, ole := s.ole ++ [s.nextFrame] }) _ h

theorem leave_quiet (f : FrameId) (s : State) : Quiet s (leave f s) :=
  Quiet.of_ctxs rfl

theorem toUser_quiet {c : CtxId} {s : State} (h : (s.ctxs c).phase.asleep = false) :
    Quiet s (toUser c s) :=
  Quiet.setPhase h rfl

theorem afterWait_kept {c : CtxId} {s : State} (site : Site)
    (h : (s.ctxs c).phase.asleep = false) : Kept s (afterWait c site s) := by
  cases site with
  | wait | waitFor | waitUntil _ | join _ => exact (toUser_quiet h).kept
  | sleepUntil tp =>
    dsimp only [afterWait]
    split
    · exact (toUser_quiet h).kept
    · exact ThisCtx.waitUntil_kept _ _ h
  | dtor d =>
    have hq := Quiet.setCtx (s := s) (c := d) (x := { s.ctxs d with freed := true })
      (Keeps.of_eq rfl rfl rfl rfl rfl) rfl
    exact (hq.trans (toUser_quiet ((hq c).2.trans h))).kept
  | yield f | offload f =>
    dsimp only [afterWait]
    split
    · exact ((leave_quiet f s).trans (toUser_quiet h)).kept
    · exact ThisCtx.wait_kept _ h

theorem afterRaise_quiet {c : CtxId} {s : State} (site : Site)
    (h : (s.ctxs c).phase.asleep = false) : Quiet s (afterRaise c site s) := by
  cases site with
  | dtor d => exact Quiet.of_ctxs rfl
  | yield f | offload f => exact (leave_quiet f s).trans (toUser_quiet h)
  | _ => exact toUser_quiet h

theorem restore_quiet (f : FrameId) (s : State) : Quiet s (restore f s) :=
  (Quiet.setFrame _ _ _).trans (notify_quiet _ _)

theorem kick_quiet (f : FrameId) (s : State) : Quiet s (kick f s) := by
  unfold kick
  dsimp only
  split
  · exact (Quiet.setFrame _ _ _).trans (notify_quiet _ _)
  · exact Quiet.setFrame _ _ _

theorem workerDone_quiet (f : FrameId) (threw : Bool) (s : State) :
    Quiet s (workerDone f threw s) :=
  Quiet.of_ctxs rfl

theorem notifyAdjoindre_quiet (c : CtxId) (s : State) : Quiet s (notifyAdjoindre c s) := by
  unfold notifyAdjoindre
  split
  · exact notify_quiet _ _
  · exact Quiet.refl s

theorem atexit_quiet {c : CtxId} {s : State} (h : (s.ctxs c).phase.asleep = false) :
    Quiet s (atexit c s) :=
  have hq := notifyAdjoindre_quiet c s
  hq.trans (Quiet.setPhase (p := .finished) ((hq c).2.trans h) rfl)

theorem call_kept {c : CtxId} {s s' : State} (o : Op) (h : (s.ctxs c).phase.asleep = false)
    (hs : call c o s = some s') : Kept s s' := by
  cases o with
  | notify d =>
    simp only [call] at hs; split at hs <;> cases hs; exact (notify_quiet d s).kept
  | interrupt d =>
    simp only [call] at hs; split at hs <;> cases hs; exact (interrupt_quiet d s).kept
  | wait => cases hs; exact ThisCtx.wait_kept _ h
  | waitFor dur => cases hs; exact ThisCtx.waitFor_kept dur h
  | waitUntil tp => cases hs; exact ThisCtx.waitUntil_kept tp _ h
  | sleepUntil tp => cases hs; exact ThisCtx.waitUntil_kept tp _ h
  | join d => simp only [call] at hs; split at hs <;> cases hs; exact join_kept d _ h
  | destroy d => simp only [call] at hs; split at hs <;> cases hs; exact destroy_kept d h
  | yield => cases hs; exact ThisCtx.yield_kept h
  | offload => cases hs; exact offload_kept h
  | spawn d =>
    simp only [call] at hs; split at hs <;> cases hs
    rename_i hd; exact (spawn_quiet (by simp [hd])).kept
  | interruptionPoint => cases hs; exact (ThisCtx.interruptionPoint_quiet c s).kept
  | exit => cases hs; exact (atexit_quiet h).kept

/-- What starting or resuming `c` does: every other context kept and left asleep or awake
as it was, and `c` awake with its ledger kept. -/
structure Wakes (c : CtxId) (s s' : State) : Prop where
  others : ∀ d, d ≠ c →
    Keeps (s.ctxs d) (s'.ctxs d) ∧ (s'.ctxs d).phase.asleep = (s.ctxs d).phase.asleep
  ledger : NotesLedger (s.ctxs c) → NotesLedger (s'.ctxs c)
  awake : (s'.ctxs c).phase.asleep = false

theorem Wakes.quiet {c : CtxId} {s s' s'' : State} (hw : Wakes c s s') (hq : Quiet s' s'') :
    Wakes c s s'' :=
  ⟨fun d hd => ⟨(hw.others d hd).1.trans (hq d).1 (hw.others d hd).2,
      (hq d).2.trans (hw.others d hd).2⟩,
    (hq c).1.ledger ∘ hw.ledger, (hq c).2.trans hw.awake⟩

/-- Setting `c` running with `notes = 1` keeps the ledger when the notes it had are
counted as taken (`took`) or discarded. -/
theorem Wakes.setCtx {c : CtxId} {s : State} {x : Ctx} (hp : x.phase.asleep = false)
    (hn : x.notes = 1) (hg : x.noted = (s.ctxs c).noted)
    (hb : NotesLedger (s.ctxs c) → (x.consumed : Int) + x.coalesced =
      (s.ctxs c).consumed + (s.ctxs c).coalesced + (s.ctxs c).pending) :
    Wakes c s (s.setCtx c x) := by
  refine ⟨fun d hd => ?_, fun hl => ⟨?_, ?_⟩, by simpa using hp⟩
  · rw [State.setCtx_ne _ _ hd]; exact ⟨Keeps.refl _, rfl⟩
  · have := hl.balance; have := hb hl
    rw [State.setCtx_self, Ctx.pending_awake hp, hn, hg]; omega
  · rw [State.setCtx_self, Ctx.pending_awake hp, hn]; omega

theorem enter_wakes {c : CtxId} {s s' : State} (hs : enter c s = some s') : Wakes c s s' := by
  unfold enter at hs
  dsimp only at hs
  split at hs
  · rename_i hph
    cases hs
    have hw := Wakes.setCtx (s := s) (c := c)
      (x := { s.ctxs c with
        notes := 1, phase := .running .user,
        coalesced := (s.ctxs c).coalesced + ((s.ctxs c).notes - 1).toNat })
      rfl rfl rfl (fun hl => by
        have := hl.nonneg; rw [Ctx.pending_awake (by simp [hph])] at this ⊢; simp; omega)
    split
    · refine Wakes.quiet ?_ (atexit_quiet ?_)
      · exact ⟨hw.1, hw.2, hw.3⟩
      · exact hw.awake
    · exact ⟨hw.1, hw.2, hw.3⟩
  · cases hs

theorem resume_wakes {c : CtxId} {s s' : State} (hs : resume c s = some s') : Wakes c s s' := by
  unfold resume at hs
  split at hs
  · rename_i site hph
    cases hs
    have hw := Wakes.setCtx (s := s) (c := c)
      (x := { s.ctxs c with
        notes := 1, interrupted := false,
        phase := .running (if (s.ctxs c).interrupted then .raise site else .ret site),
        consumed := if 0 < (s.ctxs c).notes then (s.ctxs c).consumed + 1 else (s.ctxs c).consumed,
        coalesced := (s.ctxs c).coalesced + ((s.ctxs c).notes - 1).toNat,
        took := 0 < (s.ctxs c).notes })
      (by split <;> rfl) rfl rfl (fun hl => by
        have := hl.nonneg; rw [Ctx.pending_asleep (by simp [hph])] at this ⊢
        by_cases hn : 0 < (s.ctxs c).notes <;> simp [hn] <;> omega)
    exact ⟨hw.1, hw.2, hw.3⟩
  · cases hs

theorem runHandler_notes {h : Handler} {s s' : State} (hs : runHandler h s = some s') :
    Kept s s' ∨ ∃ c, (h = .spawn c ∨ h = .resume c) ∧ Wakes c s s' := by
  cases h with
  | spawn c => exact .inr ⟨c, .inl rfl, enter_wakes hs⟩
  | resume c => exact .inr ⟨c, .inr rfl, resume_wakes hs⟩
  | notify c => cases hs; exact .inl (notify_quiet c s).kept
  | restore f => cases hs; exact .inl (restore_quiet f s).kept
  | kick f => cases hs; exact .inl (kick_quiet f s).kept

theorem carryOn_kept {c : CtxId} {s s' : State} (hs : carryOn c s = some s') : Kept s s' := by
  unfold carryOn at hs
  split at hs
  · rename_i site hph; cases hs; exact afterWait_kept site (by simp [hph])
  · rename_i site hph; cases hs; exact (afterRaise_quiet site (by simp [hph])).kept
  · cases hs

theorem runNext_notes {s s' : State} (hs : runNext s = some s') :
    Kept s s' ∨ ∃ c, (s.queue.head? = some (.spawn c) ∨ s.queue.head? = some (.resume c)) ∧
      Wakes c s s' := by
  unfold runNext at hs
  split at hs
  · rename_i h rest hq
    rcases runHandler_notes hs with hk | ⟨c, hh, hw⟩
    · exact .inl fun d => hk d
    · exact .inr ⟨c, by rcases hh with rfl | rfl <;> simp [hq], ⟨hw.1, hw.2, hw.3⟩⟩
  · cases hs

theorem expire_quiet {c : CtxId} {s s' : State} (hs : expire c s = some s') : Quiet s s' := by
  unfold expire at hs
  split at hs
  · rename_i site t hph _
    split at hs
    · cases hs
      exact Quiet.setCtx (x := { s.ctxs c with phase := .woken site })
        (Keeps.of_eq rfl rfl rfl rfl (by simp [hph])) (by simp [hph])
    · cases hs
  · cases hs

/-- **Every step keeps every context, except that it may start or resume one.** -/
theorem step_notes {s s' : State} {a : Action} (hs : step s a = some s') :
    Kept s s' ∨ ∃ c, a = .run ∧
      (s.queue.head? = some (.spawn c) ∨ s.queue.head? = some (.resume c)) ∧ Wakes c s s' := by
  cases (step_moves hs).2 with
  | call o _ hp hc => exact .inl (call_kept o (by simp [hp]) hc)
  | carryOn _ hc => exact .inl (carryOn_kept hc)
  | run _ hn =>
    rcases runNext_notes hn with hk | ⟨c, hq, hw⟩
    · exact .inl hk
    · exact .inr ⟨c, rfl, hq, hw⟩
  | expire he => exact .inl (expire_quiet he).kept
  | tick | signal _ _ | workerPop _ _ => exact .inl (Kept.of_ctxs rfl)
  | workerDone threw _ => exact .inl (workerDone_quiet _ _ _).kept

/-! ## Every run -/

theorem Ledger.step {s s' : State} {a : Action} (hl : Ledger s) (hs : step s a = some s') :
    Ledger s' := by
  rcases step_notes hs with hk | ⟨c, -, -, hw⟩
  · exact hk.ledger hl
  · intro d
    by_cases hd : d = c
    · subst hd; exact hw.ledger (hl d)
    · exact (hw.others d hd).1.ledger (hl d)

theorem ledger_init (cs : List CtxId) : Ledger (State.init cs) := by
  intro c
  simp only [State.init]
  split
  · exact fresh_ledger
  · exact ⟨by simp [Ctx.none, Ctx.fresh, Ctx.pending], by simp [Ctx.none, Ctx.fresh, Ctx.pending]⟩

theorem ledger_reachable {s : State} (h : Reachable s) : Ledger s := by
  induction h with
  | init cs => exact ledger_init cs
  | step a _ hs ih => exact ih.step hs

end Charybdis.Sched
