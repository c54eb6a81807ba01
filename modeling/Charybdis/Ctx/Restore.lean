import Charybdis.Ctx.Yield

/-!
# `restore` never writes into a `yield` that has returned

The `restore` closure of `this_ctx::yield` holds a reference to the local `done` of the
`yield` that posted it. The `kick` closure of `ole::offload` holds the same kind of
reference, and can run after `offload` has been left (the Offload module). `restore`
cannot: while it is queued, the context that posted it is still inside that `yield`, so
the frame it writes to is live.

`Pending` is what holds of a frame while its `restore` is queued: the handler is queued
once, the frame's owner is inside that `yield`, `done` is unset, and no closure of
`offload` names the frame. `Restores` adds that every frame a handler, `ole::queue` or
the worker names has been made. Every step keeps `Restores` in a state where `AllSafe`
holds: a context leaves `yield` only with `done` set, which `restore` alone sets once it
has been taken off the queue. Most steps leave what `Restores` reads alone (`Calm`); the
others are `yield` and `offload`, which make frames, leaving a frame, the two handlers
that write to one, and the offload worker.
-/

namespace Charybdis.Sched

/-! ## The invariant -/

/-- What holds of frame `f` while its `restore` is queued. -/
structure Pending (s : State) (f : FrameId) : Prop where
  /-- `yield` posts its `restore` once. -/
  once : s.queue.count (.restore f) = 1
  /-- The context that posted it is still inside that `yield`. -/
  site : (s.ctxs (s.frames f).owner).phase.site = some (.yield f)
  undone : (s.frames f).done = false
  /-- No closure of `offload` names the frame. -/
  unkicked : .kick f ∉ s.queue
  unoffered : f ∉ s.ole
  idle : s.worker ≠ some f

/-- **The invariant of `restore` handlers.** -/
structure Restores (s : State) : Prop where
  /-- Every frame a handler, `ole::queue` or the worker names has been made. -/
  fresh : ∀ f, .restore f ∈ s.queue ∨ .kick f ∈ s.queue ∨ f ∈ s.ole ∨
    s.worker = some f → f < s.nextFrame
  pending : ∀ f, .restore f ∈ s.queue → Pending s f

/-! ## What `ctx::wait` changes -/

section
variable (c : CtxId) (site : Site) (s : State)

@[simp] theorem wait_queue : (wait c site s).queue = s.queue := by
  unfold wait; dsimp only; split <;> rfl
@[simp] theorem wait_frames : (wait c site s).frames = s.frames := by
  unfold wait; dsimp only; split <;> rfl
@[simp] theorem wait_nextFrame : (wait c site s).nextFrame = s.nextFrame := by
  unfold wait; dsimp only; split <;> rfl
@[simp] theorem wait_ole : (wait c site s).ole = s.ole := by
  unfold wait; dsimp only; split <;> rfl
@[simp] theorem wait_worker : (wait c site s).worker = s.worker := by
  unfold wait; dsimp only; split <;> rfl

@[simp] theorem wait_site : ((wait c site s).ctxs c).phase.site = some site := by
  unfold wait; dsimp only; split <;> simp [Phase.site]

theorem wait_ctxs_ne {d : CtxId} (h : d ≠ c) : (wait c site s).ctxs d = s.ctxs d := by
  unfold wait; dsimp only; split <;> simp [State.setCtx_ne _ _ h]

@[simp] theorem ThisCtx.wait_queue : (ThisCtx.wait c site s).queue = s.queue :=
  Sched.wait_queue ..
@[simp] theorem ThisCtx.wait_frames : (ThisCtx.wait c site s).frames = s.frames :=
  Sched.wait_frames ..
@[simp] theorem ThisCtx.wait_nextFrame : (ThisCtx.wait c site s).nextFrame = s.nextFrame :=
  Sched.wait_nextFrame ..
@[simp] theorem ThisCtx.wait_ole : (ThisCtx.wait c site s).ole = s.ole := Sched.wait_ole ..
@[simp] theorem ThisCtx.wait_worker : (ThisCtx.wait c site s).worker = s.worker :=
  Sched.wait_worker ..
@[simp] theorem ThisCtx.wait_site : ((ThisCtx.wait c site s).ctxs c).phase.site = some site :=
  Sched.wait_site ..

theorem ThisCtx.wait_ctxs_ne {d : CtxId} (h : d ≠ c) :
    (ThisCtx.wait c site s).ctxs d = s.ctxs d :=
  (Sched.wait_ctxs_ne c site _ h).trans (State.setCtx_ne _ _ h)

end

section
variable {s s' s'' : State}

theorem mem_iff_of_count {a : Handler} {q q' : List Handler} (h : q'.count a = q.count a) :
    a ∈ q' ↔ a ∈ q := by
  rw [← List.count_pos_iff, h, List.count_pos_iff]

/-- `done` is set only once `restore` has left the queue. -/
theorem Restores.not_done (h : Restores s) {f : FrameId} (hd : (s.frames f).done = true) :
    .restore f ∉ s.queue := fun hq => by
  have := (h.pending f hq).undone
  rw [hd] at this
  cases this

/-- No `restore` is queued for the frame of an `offload`. -/
theorem Restores.not_offload (h : Restores s) (hs : AllSafe s) {c : CtxId} {f : FrameId}
    (hc : (s.ctxs c).phase.site = some (.offload f)) : .restore f ∉ s.queue := fun hq => by
  have hp := (h.pending f hq).site
  rw [((hs c).frame _ f hc rfl).2.1, hc] at hp
  cases hp

/-! ## Steps that leave the invariant alone -/

/-- A change `Restores` does not see: a context inside a `yield` whose `restore` is queued
stays inside it; frames, `ole::queue` and the worker are untouched; and the queue holds
as many `restore` and `kick` handlers of each frame as before. -/
structure Calm (s s' : State) : Prop where
  site : ∀ c f, .restore f ∈ s.queue → (s.ctxs c).phase.site = some (.yield f) →
    (s'.ctxs c).phase.site = some (.yield f)
  frames : s'.frames = s.frames
  next : s.nextFrame ≤ s'.nextFrame
  ole : s'.ole = s.ole
  worker : s'.worker = s.worker
  restores : ∀ f, s'.queue.count (.restore f) = s.queue.count (.restore f)
  kicks : ∀ f, s'.queue.count (.kick f) = s.queue.count (.kick f)

theorem Calm.refl (s : State) : Calm s s :=
  ⟨fun _ _ _ h => h, rfl, Nat.le_refl _, rfl, rfl, fun _ => rfl, fun _ => rfl⟩

theorem Calm.trans (h₁ : Calm s s') (h₂ : Calm s' s'') : Calm s s'' :=
  ⟨fun c f hq hs =>
      h₂.site c f ((mem_iff_of_count (h₁.restores f)).mpr hq) (h₁.site c f hq hs),
    h₂.frames.trans h₁.frames, Nat.le_trans h₁.next h₂.next, h₂.ole.trans h₁.ole,
    h₂.worker.trans h₁.worker, fun f => (h₂.restores f).trans (h₁.restores f),
    fun f => (h₂.kicks f).trans (h₁.kicks f)⟩

theorem Restores.calm (h : Restores s) (hc : Calm s s') : Restores s' := by
  refine ⟨fun f hf => ?_, fun f hf => ?_⟩
  · rw [mem_iff_of_count (hc.restores f), mem_iff_of_count (hc.kicks f), hc.ole, hc.worker] at hf
    exact Nat.lt_of_lt_of_le (h.fresh f hf) hc.next
  · have hq := (mem_iff_of_count (hc.restores f)).mp hf
    have hp := h.pending f hq
    refine ⟨(hc.restores f).trans hp.once, ?_, by rw [hc.frames]; exact hp.undone, ?_,
      by rw [hc.ole]; exact hp.unoffered, by rw [hc.worker]; exact hp.idle⟩
    · rw [hc.frames]; exact hc.site _ f hq hp.site
    · rw [mem_iff_of_count (hc.kicks f)]; exact hp.unkicked

/-- Changing fields `Restores` does not read. -/
theorem Calm.of_eq (hc : s'.ctxs = s.ctxs) (hq : s'.queue = s.queue) (hf : s'.frames = s.frames)
    (hn : s.nextFrame ≤ s'.nextFrame) (ho : s'.ole = s.ole) (hw : s'.worker = s.worker) :
    Calm s s' :=
  ⟨fun _ _ _ hs => by rw [hc]; exact hs, hf, hn, ho, hw, fun _ => by rw [hq],
    fun _ => by rw [hq]⟩

/-- Replacing a context, which stays inside the `yield` it is in if its `restore` is
queued. -/
theorem Calm.setCtx {c : CtxId} {x : Ctx}
    (hx : ∀ f, .restore f ∈ s.queue → (s.ctxs c).phase.site = some (.yield f) →
      x.phase.site = some (.yield f)) : Calm s (s.setCtx c x) := by
  refine ⟨fun d f hq hs => ?_, rfl, Nat.le_refl _, rfl, rfl, fun _ => rfl, fun _ => rfl⟩
  by_cases e : d = c
  · subst e; simpa using hx f hq hs
  · simpa [State.setCtx_ne _ _ e] using hs

theorem Calm.setCtx_phase {c : CtxId} {x : Ctx} (hp : x.phase = (s.ctxs c).phase) :
    Calm s (s.setCtx c x) :=
  Calm.setCtx fun _ _ hs => hp ▸ hs

theorem Calm.post {x : Handler} (hr : ∀ f, x ≠ .restore f) (hk : ∀ f, x ≠ .kick f) :
    Calm s (s.post x) :=
  ⟨fun _ _ _ hs => hs, rfl, Nat.le_refl _, rfl, rfl,
    fun f => by simp [List.count_singleton, hr f], fun f => by simp [List.count_singleton, hk f]⟩

theorem wake_calm (c : CtxId) (s : State) : Calm s (wake c s) := by
  unfold wake
  split
  · rename_i site hph
    exact (Calm.setCtx fun f _ hs => by rw [hph] at hs; exact hs).trans
      (Calm.post (fun _ => by simp) fun _ => by simp)
  · exact Calm.refl s

theorem note_calm (c : CtxId) (s : State) : Calm s (note c s) := by
  unfold note
  dsimp only
  split
  · exact Calm.setCtx_phase rfl
  · exact (Calm.setCtx_phase (by rfl)).trans (wake_calm c _)

theorem interrupt_calm (c : CtxId) (s : State) : Calm s (interrupt c s) :=
  (Calm.setCtx_phase (by rfl)).trans (wake_calm c _)

theorem notifyAdjoindre_calm (c : CtxId) (s : State) : Calm s (notifyAdjoindre c s) := by
  unfold notifyAdjoindre
  split
  · exact note_calm _ s
  · exact Calm.refl s

/-- `c` calls `ctx::wait` from its own code, or again inside the site it is in. -/
theorem wait_calm {c : CtxId} {site : Site}
    (hsite : (s.ctxs c).phase.site = none ∨ (s.ctxs c).phase.site = some site) :
    Calm s (wait c site s) := by
  have hx : ∀ f, .restore f ∈ s.queue → (s.ctxs c).phase.site = some (.yield f) →
      some site = some (.yield f) := fun f _ hs => by
    rcases hsite with e | e <;> rw [e] at hs
    · cases hs
    · exact hs
  unfold wait
  dsimp only
  split
  · exact Calm.setCtx hx
  · exact (Calm.setCtx hx).trans (Calm.of_eq rfl rfl rfl (Nat.le_refl _) rfl rfl)

theorem ThisCtx.wait_calm {c : CtxId} {site : Site}
    (hsite : (s.ctxs c).phase.site = none ∨ (s.ctxs c).phase.site = some site) :
    Calm s (ThisCtx.wait c site s) :=
  (Calm.setCtx_phase (c := c) (x := { s.ctxs c with alarm := none }) rfl).trans
    (Sched.wait_calm (by simpa using hsite))

theorem ThisCtx.waitUntil_calm {c : CtxId} (tp : Nat) {site : Site}
    (hsite : (s.ctxs c).phase.site = none ∨ (s.ctxs c).phase.site = some site) :
    Calm s (ThisCtx.waitUntil c tp site s) :=
  (Calm.setCtx_phase (c := c) (x := { s.ctxs c with alarm := some tp }) rfl).trans
    (Sched.wait_calm (by simpa using hsite))

theorem ThisCtx.waitFor_calm {c : CtxId} (dur : Nat) (hsite : (s.ctxs c).phase.site = none) :
    Calm s (ThisCtx.waitFor c dur s) :=
  (Calm.setCtx_phase (c := c) (x := { s.ctxs c with alarm := some (s.clock + dur) }) rfl).trans
    (Sched.wait_calm (.inl (by simpa using hsite)))

/-- Sending `c` back to its own code, when it is in no `yield` whose `restore` is queued. -/
theorem toUser_calm {c : CtxId}
    (hc : ∀ f, .restore f ∈ s.queue → (s.ctxs c).phase.site ≠ some (.yield f)) :
    Calm s (toUser c s) :=
  Calm.setCtx fun f hq hs => absurd hs (hc f hq)

theorem join_calm {j : CtxId} (d : CtxId) (site : Site) (hp : (s.ctxs j).phase = .running .user) :
    Calm s (join j d site s) := by
  unfold join
  split
  · exact Calm.setCtx fun f _ hs => by rw [hp] at hs; cases hs
  · refine (Calm.setCtx_phase (c := d) (x := { s.ctxs d with adjoindre := some j }) rfl).trans
      (ThisCtx.wait_calm (.inl ?_))
    rw [setCtx_running (c := d) (x := { s.ctxs d with adjoindre := some j }) rfl hp]; rfl

theorem destroy_calm {j : CtxId} (d : CtxId) (hp : (s.ctxs j).phase = .running .user) :
    Calm s (destroy j d s) :=
  (interrupt_calm d s).trans (join_calm d _ (interrupt_running hp))

theorem spawn_calm {d : CtxId} (hd : (s.ctxs d).phase = .absent) : Calm s (spawn d s) :=
  (Calm.setCtx fun f _ hs => by rw [hd] at hs; cases hs).trans
    (Calm.post (fun _ => by simp) fun _ => by simp)

theorem atexit_calm {c : CtxId} (hp : (s.ctxs c).phase = .running .user) :
    Calm s (atexit c s) := by
  have hp' := notifyAdjoindre_running (c := c) hp
  exact (notifyAdjoindre_calm c s).trans
    ((Calm.setCtx fun f _ hs => by rw [hp'] at hs; cases hs).trans
      (Calm.of_eq rfl rfl rfl (Nat.le_refl _) rfl rfl))

theorem enter_calm {c : CtxId} (hs : enter c s = some s') : Calm s s' := by
  unfold enter at hs
  dsimp only at hs
  split at hs
  · rename_i hph
    cases hs
    have h' : Calm s { s.setCtx c { s.ctxs c with
        notes := 1, phase := .running .user,
        coalesced := (s.ctxs c).coalesced + ((s.ctxs c).notes - 1).toNat } with
      current := some c } :=
      (Calm.setCtx fun f _ hs => by rw [hph] at hs; cases hs).trans
        (Calm.of_eq rfl rfl rfl (Nat.le_refl _) rfl rfl)
    split
    · exact h'.trans (atexit_calm (by simp))
    · exact h'
  · cases hs

/-- Resuming a woken context keeps it inside the site it was woken in. -/
theorem resumeAt_calm {c : CtxId} {site : Site} (hph : (s.ctxs c).phase = .woken site) :
    Calm s (resumeAt c site s) := by
  obtain ⟨x, he, hxs, -⟩ := resumeAt_eq c site s
  rw [he]
  exact (Calm.setCtx fun f _ hs => by rw [hph] at hs; exact hxs.trans hs).trans
    (Calm.of_eq rfl rfl rfl (Nat.le_refl _) rfl rfl)

/-! ## Steps that touch a frame or the offload queue -/

/-- Taking from the queue anything but a `restore` that is queued again behind it. -/
theorem Restores.pop (h : Restores s) {x : Handler} {rest : List Handler}
    (hq : s.queue = x :: rest) (hx : ∀ f, x = .restore f → .restore f ∉ rest) :
    Restores { s with queue := rest } := by
  have hm : ∀ y, y ∈ rest → y ∈ s.queue := fun y hy => hq ▸ List.mem_cons_of_mem x hy
  refine ⟨fun f hf => h.fresh f (hf.imp (hm _) (Or.imp_left (hm _))), fun f hf => ?_⟩
  have hp := h.pending f (hm _ hf)
  have hne : x ≠ .restore f := fun e => hx f e hf
  refine ⟨?_, hp.site, hp.undone, fun hk => hp.unkicked (hm _ hk), hp.unoffered, hp.idle⟩
  have := hp.once
  rwa [hq, List.count_cons_of_ne (Ne.symm hne)] at this

/-- Writing to a frame whose `restore` is not queued. -/
theorem Restores.setFrame (h : Restores s) {f : FrameId} (hf : .restore f ∉ s.queue)
    (fr : Frame) : Restores (s.setFrame f fr) := by
  refine ⟨h.fresh, fun g hg => ?_⟩
  have hp := h.pending g hg
  have e : (s.setFrame f fr).frames g = s.frames g :=
    Function.update_noteq (fun e : g = f => hf (e ▸ hg)) _ _
  exact ⟨hp.once, by rw [e]; exact hp.site, by rw [e]; exact hp.undone, hp.unkicked,
    hp.unoffered, hp.idle⟩

/-- The frame `nextFrame`, not made yet, is named by no handler, `ole::queue` nor the
worker. -/
theorem Restores.unnamed (h : Restores s) :
    .restore s.nextFrame ∉ s.queue ∧ .kick s.nextFrame ∉ s.queue ∧ s.nextFrame ∉ s.ole ∧
      s.worker ≠ some s.nextFrame := by
  simpa only [not_or, ne_eq] using mt (h.fresh s.nextFrame) (Nat.lt_irrefl _)

/-- A frame made at `nextFrame`. -/
theorem Restores.newFrame (h : Restores s) (fr : Frame) :
    Restores { s.setFrame s.nextFrame fr with nextFrame := s.nextFrame + 1 } :=
  (h.setFrame h.unnamed.1 fr).calm
    (Calm.of_eq rfl rfl rfl (Nat.le_succ _) rfl rfl)

/-- A frame of `offload` offered to the worker. -/
theorem Restores.offer (h : Restores s) {f : FrameId} (hf : f < s.nextFrame)
    (hr : .restore f ∉ s.queue) : Restores { s with ole := s.ole ++ [f] } := by
  refine ⟨fun g hg => ?_, fun g hg => ?_⟩
  · by_cases e : g = f
    · exact e ▸ hf
    · exact h.fresh g (by simpa [e] using hg)
  · have hp := h.pending g hg
    have e : g ≠ f := fun e => hr (e ▸ hg)
    exact ⟨hp.once, hp.site, hp.undone, hp.unkicked, by simpa [e] using hp.unoffered, hp.idle⟩

/-- `c`, in its own code, posts the `restore` of a frame of its own that nothing names
and waits inside that `yield`. -/
theorem Restores.wait_yield (h : Restores s) {c : CtxId} {f : FrameId}
    (hc : (s.ctxs c).phase.site = none) (ho : (s.frames f).owner = c)
    (hd : (s.frames f).done = false) (hf : f < s.nextFrame) (hr : .restore f ∉ s.queue)
    (hk : .kick f ∉ s.queue) (hl : f ∉ s.ole) (hw : s.worker ≠ some f) :
    Restores (ThisCtx.wait c (.yield f) (s.post (.restore f))) := by
  refine ⟨fun g hg => ?_, fun g hg => ?_⟩
  · by_cases e : g = f
    · simpa [e] using hf
    · simpa using h.fresh g (by simpa [e] using hg)
  · by_cases e : g = f
    · subst e
      refine ⟨by simp [List.count_eq_zero.mpr hr], by simp [ho], by simpa using hd,
        by simpa using hk, by simpa using hl, by simpa using hw⟩
    · have hp := h.pending g (by simpa [e] using hg)
      have hne : (s.frames g).owner ≠ c := fun e' => by
        have := hp.site; rw [e', hc] at this; cases this
      exact ⟨by simpa [List.count_singleton, Ne.symm e] using hp.once,
        by simpa [ThisCtx.wait_ctxs_ne _ _ _ hne] using hp.site, by simpa using hp.undone,
        by simpa [e] using hp.unkicked, by simpa using hp.unoffered, by simpa using hp.idle⟩

/-- **`yield` posts `restore` and waits inside that `yield`.** -/
theorem Restores.yield (h : Restores s) {c : CtxId} (hc : (s.ctxs c).phase.site = none) :
    Restores (ThisCtx.yield c s) := by
  obtain ⟨hr, hk, hl, hw⟩ := h.unnamed
  exact (h.newFrame (Frame.fresh c)).wait_yield hc (by simp [Frame.fresh])
    (by simp [Frame.fresh]) (Nat.lt_succ_self _) hr hk hl hw

theorem Restores.offload (h : Restores s) {c : CtxId} (hc : (s.ctxs c).phase.site = none) :
    Restores (offload c s) :=
  ((h.newFrame (Frame.fresh c)).offer (Nat.lt_succ_self _) h.unnamed.1).calm
    (ThisCtx.wait_calm (.inl hc))

/-- Leaving the frame of the site `c` is in, once no `restore` of it is queued, and going
back to its own code. -/
theorem Restores.leave_toUser (h : Restores s) {c : CtxId} {site : Site} {f : FrameId}
    (hs : (s.ctxs c).phase.site = some site) (hf : site.frame = some f)
    (hr : .restore f ∉ s.queue) : Restores (toUser c (leave f s)) :=
  (h.setFrame hr _).calm (toUser_calm fun g hg e => by
    change (s.ctxs c).phase.site = _ at e
    rw [hs] at e
    cases e
    cases hf
    exact hr hg)

theorem Restores.afterWait (h : Restores s) (hs : AllSafe s) {c : CtxId} {site : Site}
    (hp : (s.ctxs c).phase = .running (.ret site)) : Restores (afterWait c site s) := by
  have hsite : (s.ctxs c).phase.site = some site := by rw [hp]; rfl
  have plain : (∀ f, site ≠ .yield f) → Calm s (toUser c s) := fun hy =>
    toUser_calm fun f _ e => hy f (Option.some.inj (hsite.symm.trans e))
  cases site with
  | wait | waitFor | waitUntil _ | join _ => exact h.calm (plain fun _ e => by cases e)
  | sleepUntil tp =>
    dsimp only [Sched.afterWait]
    split
    · exact h.calm (plain fun _ e => by cases e)
    · exact h.calm (ThisCtx.waitUntil_calm tp (.inr hsite))
  | dtor d =>
    refine h.calm ((Calm.setCtx_phase (c := d) (x := { s.ctxs d with freed := true }) rfl).trans
      (toUser_calm fun f _ e => ?_))
    rw [setCtx_running (c := d) (x := { s.ctxs d with freed := true }) rfl hp] at e
    cases e
  | yield f =>
    dsimp only [Sched.afterWait]
    split
    · exact h.leave_toUser hsite rfl (h.not_done ‹_›)
    · exact h.calm (ThisCtx.wait_calm (.inr hsite))
  | offload f =>
    dsimp only [Sched.afterWait]
    split
    · exact h.leave_toUser hsite rfl (h.not_offload hs hsite)
    · exact h.calm (ThisCtx.wait_calm (.inr hsite))

theorem Restores.afterRaise (h : Restores s) (hs : AllSafe s) {c : CtxId} {site : Site}
    (hp : (s.ctxs c).phase = .running (.raise site)) : Restores (afterRaise c site s) := by
  have hsite : (s.ctxs c).phase.site = some site := by rw [hp]; rfl
  have plain : (∀ f, site ≠ .yield f) → Restores (toUser c s) := fun hy =>
    h.calm (toUser_calm fun f _ e => hy f (Option.some.inj (hsite.symm.trans e)))
  cases site with
  | wait | waitFor | waitUntil _ | sleepUntil _ | join _ => exact plain fun _ e => by cases e
  | dtor d => exact h.calm (Calm.of_eq rfl rfl rfl (Nat.le_refl _) rfl rfl)
  | yield f => exact h.leave_toUser hsite rfl (h.not_done ((hs c).raised f hp))
  | offload f => exact h.leave_toUser hsite rfl (h.not_offload hs hsite)

theorem Restores.carryOn (h : Restores s) (hs : AllSafe s) {c : CtxId}
    (hc : carryOn c s = some s') : Restores s' := by
  unfold Sched.carryOn at hc
  split at hc
  · rename_i site hph; cases hc; exact h.afterWait hs hph
  · rename_i site hph; cases hc; exact h.afterRaise hs hph
  · cases hc

/-! ## Handlers and the offload worker -/

/-- `restore` is queued once, so once it has run none of it is left. -/
theorem Restores.restore (h : Restores s) {f : FrameId} {rest : List Handler}
    (hq : s.queue = .restore f :: rest) : Restores (restore f { s with queue := rest }) := by
  have hp := h.pending f (hq ▸ List.mem_cons_self _ _)
  have hr : .restore f ∉ rest := by
    have := hp.once
    rw [hq, List.count_cons_self] at this
    exact List.count_eq_zero.mp (by omega)
  unfold Sched.restore
  exact ((h.pop hq fun g e => by cases e; exact hr).setFrame hr _).calm (note_calm _ _)

theorem Restores.kick (h : Restores s) {f : FrameId} {rest : List Handler}
    (hq : s.queue = .kick f :: rest) : Restores (kick f { s with queue := rest }) := by
  have hr : .restore f ∉ rest := fun hr =>
    (h.pending f (hq ▸ List.mem_cons_of_mem _ hr)).unkicked (hq ▸ List.mem_cons_self _ _)
  have h' := (h.pop hq fun g e => by cases e).setFrame hr
  unfold Sched.kick
  dsimp only
  split
  · exact (h' _).calm (note_calm _ _)
  · exact h' _

theorem Restores.runNext (h : Restores s) (hn : runNext s = some s') :
    Restores s' := by
  unfold Sched.runNext at hn
  split at hn
  · rename_i x rest hq
    cases x with
    | spawn d => exact (h.pop hq fun _ e => by cases e).calm (enter_calm hn)
    | resume d =>
      change resume d _ = some s' at hn
      unfold resume at hn
      split at hn
      · rename_i site hph
        cases hn
        exact (h.pop hq fun _ e => by cases e).calm (resumeAt_calm hph)
      · cases hn
    | notify d => cases hn; exact (h.pop hq fun _ e => by cases e).calm (note_calm d _)
    | restore f => cases hn; exact h.restore hq
    | kick f => cases hn; exact h.kick hq
  · cases hn

/-- `ole::pop` hands the worker a frame of `offload`. -/
theorem Restores.workerPop (h : Restores s) {f : FrameId} {rest : List FrameId}
    (ho : s.ole = f :: rest) : Restores { s with worker := some f, ole := rest } := by
  refine ⟨fun g hg => h.fresh g ?_, fun g hg => ?_⟩
  · rcases hg with hg | hg | hg | hg
    · exact .inl hg
    · exact .inr (.inl hg)
    · exact .inr (.inr (.inl (by rw [ho]; exact List.mem_cons_of_mem f hg)))
    · cases hg; exact .inr (.inr (.inl (by rw [ho]; exact List.mem_cons_self _ _)))
  · have hp := h.pending g hg
    have hu := hp.unoffered
    rw [ho, List.mem_cons, not_or] at hu
    exact ⟨hp.once, hp.site, hp.undone, hp.unkicked, hu.2,
      fun e => hu.1 (Option.some.inj e).symm⟩

/-- The worker is done with a frame of `offload`, and posts its `kick`. -/
theorem Restores.workerDone (h : Restores s) {f : FrameId} (hw : s.worker = some f)
    (threw : Bool) : Restores (workerDone f threw s) := by
  have hr : .restore f ∉ s.queue := fun hq => (h.pending f hq).idle hw
  have hf := h.fresh f (.inr (.inr (.inr hw)))
  refine ⟨fun g hg => ?_, fun g hg => ?_⟩
  · by_cases e : g = f
    · exact e ▸ hf
    · have hg' : .restore g ∈ s.queue ∨ .kick g ∈ s.queue ∨ g ∈ s.ole := by
        simpa [Sched.workerDone, State.setFrame, e] using hg
      exact h.fresh g (hg'.imp_right (Or.imp_right Or.inl))
  · have hg' : .restore g ∈ s.queue := by simpa [Sched.workerDone] using hg
    have hp := h.pending g hg'
    have e : g ≠ f := fun e => hp.idle (e ▸ hw)
    have hfr : (Sched.workerDone f threw s).frames g = s.frames g := by
      simp [Sched.workerDone, State.setFrame, e]
    refine ⟨by simpa [Sched.workerDone, List.count_singleton] using hp.once, ?_, ?_,
      by simpa [Sched.workerDone, e] using hp.unkicked, hp.unoffered, by simp [Sched.workerDone]⟩
    · rw [hfr]; exact hp.site
    · rw [hfr]; exact hp.undone

/-! ## Every run -/

theorem Restores.expire (h : Restores s) {c : CtxId} (he : expire c s = some s') :
    Restores s' := by
  unfold Sched.expire at he
  split at he
  · rename_i site t hph _
    split at he
    · cases he
      have hc := wake_calm c s
      simp only [wake, hph] at hc
      exact h.calm hc
    · cases he
  · cases he

theorem Restores.call (h : Restores s) {c : CtxId} (o : Op)
    (hp : (s.ctxs c).phase = .running .user) (hc : call c o s = some s') : Restores s' := by
  have hn : (s.ctxs c).phase.site = none := by rw [hp]; rfl
  cases o with
  | notify d =>
    simp only [Sched.call] at hc; split at hc <;> cases hc; exact h.calm (note_calm d s)
  | interrupt d =>
    simp only [Sched.call] at hc; split at hc <;> cases hc; exact h.calm (interrupt_calm d s)
  | wait => cases hc; exact h.calm (ThisCtx.wait_calm (.inl hn))
  | waitFor dur => cases hc; exact h.calm (ThisCtx.waitFor_calm dur hn)
  | waitUntil tp => cases hc; exact h.calm (ThisCtx.waitUntil_calm tp (.inl hn))
  | sleepUntil tp => cases hc; exact h.calm (ThisCtx.waitUntil_calm tp (.inl hn))
  | join d =>
    simp only [Sched.call] at hc; split at hc <;> cases hc; exact h.calm (join_calm d _ hp)
  | destroy d =>
    simp only [Sched.call] at hc; split at hc <;> cases hc; exact h.calm (destroy_calm d hp)
  | yield => cases hc; exact h.yield hn
  | offload => cases hc; exact h.offload hn
  | spawn d =>
    simp only [Sched.call] at hc; split at hc <;> cases hc
    rename_i hd; exact h.calm (spawn_calm hd)
  | interruptionPoint => cases hc; exact h.calm (Calm.setCtx_phase rfl)
  | exit => cases hc; exact h.calm (atexit_calm hp)

theorem Restores.step (h : Restores s) (hs : AllSafe s) {a : Action}
    (hstep : Sched.step s a = some s') : Restores s' := by
  cases (step_moves hstep).2 with
  | call o _ hp hc => exact h.call o hp hc
  | carryOn _ hc => exact h.carryOn hs hc
  | run _ hn => exact h.runNext hn
  | expire he => exact h.expire he
  | tick => exact h.calm (Calm.of_eq rfl rfl rfl (Nat.le_refl _) rfl rfl)
  | signal _ _ => exact h.calm (Calm.post (fun _ => by simp) fun _ => by simp)
  | workerPop _ ho => exact h.workerPop ho
  | workerDone threw hw => exact h.workerDone hw threw

theorem restores_init (cs : List CtxId) : Restores (State.init cs) :=
  ⟨fun f hf => by simp [State.init] at hf, fun f hf => by simp [State.init] at hf⟩

theorem restores_reachable (hr : Reachable s) : Restores s := by
  induction hr with
  | init cs => exact restores_init cs
  | step a hr hs ih => exact ih.step (allSafe_reachable hr) hs

end

/-- **`restore` never writes into a `yield` that has returned.** In every reachable state,
a queued `restore` belongs to a frame that is live, whose `done` is unset, and whose
owner is inside that `yield`: running it sets `done` in the locals of a `yield` still
waiting for it. -/
theorem restore_finds_yield {s : State} (hr : Reachable s) (f : FrameId)
    (hq : .restore f ∈ s.queue) :
    (s.frames f).live = true ∧ (s.frames f).done = false ∧
      (s.ctxs (s.frames f).owner).phase.site = some (.yield f) := by
  have hp := (restores_reachable hr).pending f hq
  exact ⟨((allSafe_reachable hr _).frame _ f hp.site rfl).2.2, hp.undone, hp.site⟩

/-- The `restore` of an interrupted `yield` still finds the frame live. -/
theorem restore_finds_interrupted_yield :
    ∃ s, run (State.init [0, 1]) [.run, .op .yield, .run, .op (.interrupt 0)] = some s ∧
      .restore 0 ∈ s.queue ∧ (s.ctxs 0).interrupted = true ∧ (s.frames 0).live = true := by
  have hr := run_reachable (.init [0, 1])
    (rfl : run (State.init [0, 1]) [.run, .op .yield, .run, .op (.interrupt 0)] = some _)
  exact ⟨_, rfl, by decide, rfl, (restore_finds_yield hr 0 (by decide)).1⟩

end Charybdis.Sched
